import ADPlatform.APIGateway.Types
import ADPlatform.GameCore.Tables

/-! # The gates between a service and play

Four queries of two services decide by themselves whether the service of a team is in play: the
targets of the checker, the public list of services, the check before a participant acts on a
service, and the policies of the firewall. All read the same tables. -/

namespace ADPlatform.APIGateway
open GameCore (Stamp MatchState TickTable CheckerTarget)
open Text

/-! ## The tables -/

/-- A row of `teams`. -/
structure TeamRow where
  id : Int
  name : String
  active : Bool := true
  deactivatedAt : Stamp := none
  playFromTick : Option Int := none
  deriving DecidableEq, Repr

/-- A row of `challenges`. -/
structure ChallengeRow where
  id : Int
  name : String
  checkerImage : String := ""
  published : Bool := false
  maintenance : Bool := false
  maintenanceAt : Stamp := none
  playFromTick : Option Int := none
  unlockProofEpoch : Int := 1
  egressEnabled : Bool := true
  deriving DecidableEq, Repr

/-- A row of `players`. -/
structure PlayerRow where
  id : Int
  teamID : Option Int := none
  role : String
  active : Bool := true
  deriving DecidableEq, Repr

/-- A row of `wireguard_peers`. -/
structure WireguardPeerRow where
  playerID : Int
  address : String
  status : String := "active"
  deriving DecidableEq, Repr

/-- The tables that decide whether a service is in play. -/
structure PlayTables where
  teams : List TeamRow := []
  challenges : List ChallengeRow := []
  teamServiceStates : List ServiceState := []
  serviceInstances : List ServiceInstanceRecord := []
  gameTicks : TickTable := {}
  gameMatchState : Option MatchState := none
  players : List PlayerRow := []
  wireguardPeers : List WireguardPeerRow := []

/-- The tables with the primary keys of the migrations. Ticks are numbered from one. -/
structure PlayDatabase extends PlayTables where
  teams_key : (teams.map (·.id)).Nodup
  challenges_key : (challenges.map (·.id)).Nodup
  teamServiceStates_key : (teamServiceStates.map (·.key)).Nodup
  serviceInstances_key : (serviceInstances.map (·.key)).Nodup
  gameTicks_pos : ∀ tick ∈ gameTicks.ticks, 0 < tick.id

/-- `split_part(value, ':', n)` for the two parts of an endpoint. -/
def splitPart (value : String) (n : Nat) : String :=
  String.ofList ((value.toList.splitOn ':').getD (n - 1) [])

/-- The number in a text, and `0` where there is none. -/
def atoiOrZero (s : String) : Int := (Decimal.atoi (bytes s)).getD 0

/-- `splitCSVList`. -/
def splitCSVList (value : String) : List String :=
  let trimmed := trimSpace value
  if trimmed = "" then []
  else (((trimmed.toList.splitOn ',').map String.ofList).map trimSpace).filter (· ≠ "")

namespace PlayTables
variable (db : PlayTables)

/-- `COALESCE((SELECT MAX(id) FROM game_ticks), 0)`. -/
def maxTick : Int := db.gameTicks.maxID

/-- `x.play_from_tick IS NULL OR x.play_from_tick <= max`. -/
def reached (playFromTick : Option Int) : Bool := playFromTick.all (· ≤ db.maxTick)

/-- `x.play_from_tick IS NOT NULL AND x.play_from_tick > max`. -/
def deferred (playFromTick : Option Int) : Bool := playFromTick.any (db.maxTick < ·)

/-- A service state with its team and its challenge: the join that all queries start from. -/
def services : List (ServiceState × ChallengeRow × TeamRow) :=
  db.teamServiceStates.flatMap fun tss =>
    (db.challenges.filter (·.id = tss.challengeID)).flatMap fun c =>
      (db.teams.filter (·.id = tss.teamID)).map fun t => (tss, c, t)

/-- `LEFT JOIN service_instances si ON …`. -/
def instancesOf (k : ServiceKey) : List (Option ServiceInstanceRecord) :=
  match db.serviceInstances.filter (·.key = k) with
  | [] => [none]
  | si :: rest => (si :: rest).map some

/-! ## The queries -/

/-- `postgresGameStore.ListCheckerTargets`, up to its order. -/
def listCheckerTargets : List CheckerTarget :=
  db.services.flatMap fun (tss, c, t) =>
    (db.instancesOf tss.key).filterMap fun si =>
      if c.published && c.maintenance = false && db.reached c.playFromTick && t.active &&
          db.reached t.playFromTick && si.all (·.runtimeStatus = .ready) then
        some {
          teamID := t.id
          teamName := t.name
          challengeID := c.id
          challengeName := c.name
          checkerImage := c.checkerImage
          checkerToken := si.elim "" (·.checkerToken)
          target := tss.endpoint
          targetHost := splitPart tss.endpoint 1
          targetIP := splitPart tss.endpoint 1
          targetPort := atoiOrZero (splitPart tss.endpoint 2) }
      else none

/-- `SELECT state FROM game_match_state LIMIT 1`: the table has at most one row. -/
def isMatchStarted : Bool := db.gameMatchState.any (· ≠ .notStarted)

/-- Is the stored match paused? -/
def isMatchPaused : Bool := db.gameMatchState = some .paused

/-- `postgresStore.ListPublicServices`: the endpoints that it lists, by service. -/
def listPublicServices : List (ServiceKey × String) :=
  if !db.isMatchStarted then []
  else if db.isMatchPaused then []
  else db.services.filterMap fun (tss, c, t) =>
    if c.published && c.maintenance = false && db.reached c.playFromTick && t.active &&
        db.reached t.playFromTick then
      some (tss.key, tss.endpoint)
    else none

/-- `play_from_tick` as `ValidateServiceAction` reads it: only a positive value defers. -/
def validDeferred (playFromTick : Option Int) : Bool :=
  playFromTick.any fun tick => 0 < tick && db.maxTick < tick

/-- `postgresStore.ValidateServiceAction`: the error, if there is one. -/
def validateServiceAction (teamID challengeID : Int) : Option StoreError :=
  if !db.isMatchStarted then some .matchNotStarted
  else if db.isMatchPaused then some .matchPaused
  else
    match (db.services.filter fun (tss, _, _) => tss.key = (teamID, challengeID)).head? with
    | none => some .challengeNotFound
    | some (tss, c, t) =>
      if !c.published then some .challengeNotFound
      else if !t.active then some .teamNotFound
      else if c.maintenance then some .challengeMaintenance
      else if db.validDeferred c.playFromTick then some .challengeDeferred
      else if db.validDeferred t.playFromTick then some .challengeDeferred
      else
        match (db.instancesOf tss.key).head? with
        | some (some si) => if si.runtimeStatus = .ready then none else some .serviceUnavailable
        | _ => some .challengeNotFound

/-- `network_closed`. -/
def networkClosed (c : ChallengeRow) (t : TeamRow) : Bool :=
  c.maintenance || db.deferred c.playFromTick || t.active = false || db.deferred t.playFromTick ||
    (db.gameMatchState.getD .notStarted = .notStarted || db.gameMatchState = some .paused)

/-- The addresses that `string_agg` collects for a service. -/
def allowedPeers (tss : ServiceState) (c : ChallengeRow) (t : TeamRow) : List String :=
  db.players.flatMap fun p =>
    (db.wireguardPeers.filter (·.playerID = p.id)).filterMap fun wp =>
      if wp.status ≠ "revoked" && p.active && (p.role = "organizer" ||
          p.teamID = some tss.teamID && tss.unlocked && !db.networkClosed c t) then
        some wp.address
      else none

/-- `postgresStore.ListControllerServiceAccessPolicies`, up to its order. -/
def listControllerServiceAccessPolicies : List ControllerServiceAccessPolicy :=
  db.services.map fun (tss, c, t) =>
    let allowedPeerAddresses := splitCSVList (",".intercalate (db.allowedPeers tss c t))
    let networkClosed := db.networkClosed c t
    { teamID := tss.teamID
      teamName := t.name
      challengeID := tss.challengeID
      challengeName := c.name
      serviceIP := splitPart tss.endpoint 1
      servicePort := atoiOrZero (splitPart tss.endpoint 2)
      sshPort := 22
      sshUnlocked := if networkClosed then 0 < allowedPeerAddresses.length else tss.unlocked
      allowedPeerAddresses
      egressEnabled := c.egressEnabled
      networkClosed }

/-! ## The unlock -/

/-- The condition of the `UPDATE` of `UnlockService`. -/
def unlockable (tss : ServiceState) : Bool :=
  db.services.any fun (x, c, t) => x.key = tss.key && c.published && c.maintenance = false &&
    db.reached c.playFromTick && t.active && db.reached t.playFromTick &&
    db.serviceInstances.any fun si => si.key = tss.key && si.runtimeStatus = .ready

/-- The `UPDATE` of `UnlockService` at the row of the service. -/
def unlockRow (tss : ServiceState) : ServiceState :=
  { tss with
    unlocked := true
    status := if tss.status = "degraded" then "warming" else tss.status
    sshHint := "unlock accepted; use SSH Access to view the team credential"
    lastEvent := "unlock granted via participant API" }

/-- The `UPDATE` of `UnlockService`, and whether it has affected a row. -/
def unlockUpdate (teamID challengeID : Int) : PlayTables × Bool :=
  let hits (tss : ServiceState) : Bool := tss.key = (teamID, challengeID) && db.unlockable tss
  ({ db with
      teamServiceStates := db.teamServiceStates.map fun tss =>
        if hits tss then unlockRow tss else tss },
    db.teamServiceStates.any hits)

/-- `postgresStore.UnlockService`, on one snapshot. -/
def unlockService (teamID challengeID : Int) : PlayTables × Option StoreError :=
  match db.validateServiceAction teamID challengeID with
  | some err => (db, some err)
  | none =>
    let (db', affected) := db.unlockUpdate teamID challengeID
    (db', if affected then none else some .challengeNotFound)

/-! ## What the gates have in common -/

variable {db} {x : ServiceState × ChallengeRow × TeamRow}

theorem mem_services : x ∈ db.services ↔ x.1 ∈ db.teamServiceStates ∧ x.2.1 ∈ db.challenges ∧
    x.2.2 ∈ db.teams ∧ x.2.1.id = x.1.challengeID ∧ x.2.2.id = x.1.teamID := by
  obtain ⟨tss, c, t⟩ := x
  simp only [services, List.mem_flatMap, List.mem_filter, List.mem_map, Prod.mk.injEq,
    decide_eq_true_eq]
  constructor
  · rintro ⟨_, htss, _, ⟨hc, hcid⟩, _, ⟨ht, htid⟩, rfl, rfl, rfl⟩
    exact ⟨htss, hc, ht, hcid, htid⟩
  · rintro ⟨htss, hc, ht, hcid, htid⟩
    exact ⟨tss, htss, c, ⟨hc, hcid⟩, t, ⟨ht, htid⟩, rfl, rfl, rfl⟩

/-- What the checker and the public list ask of a service. -/
def InPlay (db : PlayTables) (c : ChallengeRow) (t : TeamRow) : Prop :=
  c.published = true ∧ c.maintenance = false ∧ db.reached c.playFromTick = true ∧
    t.active = true ∧ db.reached t.playFromTick = true

theorem not_deferred {playFromTick : Option Int} (h : db.reached playFromTick = true) :
    db.deferred playFromTick = false := by
  cases playFromTick with
  | none => rfl
  | some tick => simpa [deferred, reached] using h

theorem reached_of_validDeferred {playFromTick : Option Int} (hmax : 0 ≤ db.maxTick)
    (h : db.validDeferred playFromTick = false) : db.reached playFromTick = true := by
  cases playFromTick with
  | none => rfl
  | some tick =>
    simp only [validDeferred, Option.any_some, Bool.and_eq_false_iff, decide_eq_false_iff_not] at h
    simp only [reached, Option.all_some, decide_eq_true_eq]
    omega

section Running
variable (hrunning : db.gameMatchState = some .running)
include hrunning

theorem networkClosed_eq_false {c : ChallengeRow} {t : TeamRow} (h : db.InPlay c t) :
    db.networkClosed c t = false := by
  obtain ⟨-, hmaintenance, hc, hactive, ht⟩ := h
  simp [networkClosed, hmaintenance, hactive, hrunning, not_deferred hc, not_deferred ht]

theorem mem_listPublicServices {k : ServiceKey} : k ∈ db.listPublicServices.map (·.1) ↔
    ∃ x ∈ db.services, x.1.key = k ∧ db.InPlay x.2.1 x.2.2 := by
  have hstarted : db.isMatchStarted = true := by simp [isMatchStarted, hrunning]
  have hpaused : db.isMatchPaused = false := by simp [isMatchPaused, hrunning]
  simp only [listPublicServices, hstarted, hpaused, Bool.not_true, Bool.false_eq_true, if_false,
    List.mem_map, List.mem_filterMap]
  constructor
  · rintro ⟨_, ⟨x, hx, heq⟩, rfl⟩
    split at heq
    next h =>
      obtain rfl := Option.some.inj heq
      simp only [Bool.and_eq_true, decide_eq_true_eq, and_assoc] at h
      exact ⟨x, hx, rfl, h⟩
    next => cases heq
  · rintro ⟨x, hx, rfl, h⟩
    refine ⟨_, ⟨x, hx, if_pos ?_⟩, rfl⟩
    simp only [Bool.and_eq_true, decide_eq_true_eq, and_assoc]
    exact h

theorem inPlay_of_validate (hmax : 0 ≤ db.maxTick) {teamID challengeID : Int}
    (h : db.validateServiceAction teamID challengeID = none) :
    ∃ x ∈ db.services, x.1.key = (teamID, challengeID) ∧ db.InPlay x.2.1 x.2.2 := by
  have hstarted : db.isMatchStarted = true := by simp [isMatchStarted, hrunning]
  have hpaused : db.isMatchPaused = false := by simp [isMatchPaused, hrunning]
  simp only [validateServiceAction, hstarted, hpaused, Bool.not_true, Bool.false_eq_true,
    if_false] at h
  split at h
  next => cases h
  next tss c t hhead =>
    obtain ⟨hx, hkey⟩ := List.mem_filter.mp (List.mem_of_mem_head? hhead)
    refine ⟨(tss, c, t), hx, of_decide_eq_true hkey, ?_⟩
    -- the checks, in the order of the function
    split at h
    next => cases h
    next hpublished =>
      split at h
      next => cases h
      next hactive =>
        split at h
        next => cases h
        next hmaintenance =>
          split at h
          next => cases h
          next hc =>
            split at h
            next => cases h
            next ht =>
              exact ⟨by simpa using hpublished, by simpa using hmaintenance,
                reached_of_validDeferred hmax (by simpa using hc), by simpa using hactive,
                reached_of_validDeferred hmax (by simpa using ht)⟩

end Running

end PlayTables

namespace PlayDatabase
open PlayTables
variable {db : PlayDatabase} {x y : ServiceState × ChallengeRow × TeamRow}

theorem maxTick_nonneg (db : PlayDatabase) : 0 ≤ db.maxTick := by
  rw [maxTick, TickTable.maxID]
  cases hmax : (db.gameTicks.ticks.map (·.id)).max? with
  | none => exact Int.le_refl 0
  | some m =>
    obtain ⟨tick, htick, rfl⟩ := List.mem_map.mp (List.max?_mem hmax)
    exact (db.gameTicks_pos tick htick).le

/-- The rows of the join are told apart by the service. -/
theorem services_unique (hx : x ∈ db.services) (hy : y ∈ db.services) (hkey : x.1.key = y.1.key) :
    x = y := by
  obtain ⟨hx₁, hx₂, hx₃, hxc, hxt⟩ := mem_services.mp hx
  obtain ⟨hy₁, hy₂, hy₃, hyc, hyt⟩ := mem_services.mp hy
  have htss : x.1 = y.1 := List.inj_on_of_nodup_map db.teamServiceStates_key hx₁ hy₁ hkey
  have hc : x.2.1 = y.2.1 := List.inj_on_of_nodup_map db.challenges_key hx₂ hy₂
    (by rw [hxc, hyc, htss])
  have ht : x.2.2 = y.2.2 := List.inj_on_of_nodup_map db.teams_key hx₃ hy₃
    (by rw [hxt, hyt, htss])
  exact Prod.ext htss (Prod.ext hc ht)

/-- The policy of a service that is in play. -/
theorem policy_of_inPlay (hrunning : db.gameMatchState = some .running) {k : ServiceKey}
    (h : ∃ x ∈ db.services, x.1.key = k ∧ db.InPlay x.2.1 x.2.2) :
    (∃ policy ∈ db.listControllerServiceAccessPolicies,
      (policy.teamID, policy.challengeID) = k) ∧
    ∀ policy ∈ db.listControllerServiceAccessPolicies,
      (policy.teamID, policy.challengeID) = k → policy.networkClosed = false := by
  obtain ⟨x, hx, rfl, hplay⟩ := h
  constructor
  · exact ⟨_, List.mem_map_of_mem hx, rfl⟩
  · intro policy hpolicy hkey
    obtain ⟨y, hy, rfl⟩ := List.mem_map.mp hpolicy
    obtain rfl := services_unique hy hx hkey
    exact networkClosed_eq_false hrunning hplay

/-- The gates agree while the match is running: what the checker checks is listed, what is listed
has an open network, and what a participant may act on is listed and has an open network. -/
theorem gates_agree (db : PlayDatabase) (hrunning : db.gameMatchState = some .running) :
    (∀ target ∈ db.listCheckerTargets,
      (target.teamID, target.challengeID) ∈ db.listPublicServices.map (·.1)) ∧
    (∀ k ∈ db.listPublicServices.map (·.1),
      (∃ policy ∈ db.listControllerServiceAccessPolicies,
        (policy.teamID, policy.challengeID) = k) ∧
      ∀ policy ∈ db.listControllerServiceAccessPolicies,
        (policy.teamID, policy.challengeID) = k → policy.networkClosed = false) ∧
    (∀ teamID challengeID, (db.validateServiceAction teamID challengeID = none ∨
        (db.unlockService teamID challengeID).2 = none) →
      (teamID, challengeID) ∈ db.listPublicServices.map (·.1) ∧
      (∃ policy ∈ db.listControllerServiceAccessPolicies,
        (policy.teamID, policy.challengeID) = (teamID, challengeID)) ∧
      ∀ policy ∈ db.listControllerServiceAccessPolicies,
        (policy.teamID, policy.challengeID) = (teamID, challengeID) →
          policy.networkClosed = false) := by
  refine ⟨fun target htarget => ?_, fun k hk => ?_, fun teamID challengeID h => ?_⟩
  · rw [mem_listPublicServices hrunning]
    obtain ⟨x, hx, htarget⟩ := List.mem_flatMap.mp htarget
    obtain ⟨si, -, heq⟩ := List.mem_filterMap.mp htarget
    split at heq
    next h =>
      obtain rfl := Option.some.inj heq
      simp only [Bool.and_eq_true, decide_eq_true_eq, and_assoc] at h
      obtain ⟨hpublished, hmaintenance, hc, hactive, ht, -⟩ := h
      obtain ⟨-, -, -, hcid, htid⟩ := mem_services.mp hx
      exact ⟨x, hx, by rw [ServiceState.key, ← hcid, ← htid],
        hpublished, hmaintenance, hc, hactive, ht⟩
    next => cases heq
  · exact policy_of_inPlay hrunning ((mem_listPublicServices hrunning).mp hk)
  · have hvalid : db.validateServiceAction teamID challengeID = none := by
      rcases h with h | h
      · exact h
      · rw [unlockService] at h
        split at h
        next => cases h
        next hvalid => exact hvalid
    have hplay := inPlay_of_validate hrunning db.maxTick_nonneg hvalid
    exact ⟨(mem_listPublicServices hrunning).mpr hplay, policy_of_inPlay hrunning hplay⟩

/-- One team and one challenge in the second tick, which the challenge has joined. -/
def secondTick : PlayDatabase where
  teams := [{ id := 101, name := "Team Alpha" }]
  challenges := [{ id := 1, name := "banking", published := true, playFromTick := some 2 }]
  teamServiceStates := [defaultServiceStateForConfig 1 101 "banking" 10001 1]
  serviceInstances := [{ (RuntimeConfig.mk 1 "banking" "" "" 10001 1).instanceFor 101 none "token"
    none with runtimeStatus := .ready }]
  gameTicks := { ticks := [{ id := 1, status := .completed }, { id := 2, status := .running }] }
  gameMatchState := some .running
  teams_key := by decide
  challenges_key := by decide
  teamServiceStates_key := by decide
  serviceInstances_key := by decide
  gameTicks_pos := by decide

theorem gates_agree_secondTick :
    secondTick.listCheckerTargets.map (fun target => (target.teamID, target.challengeID)) =
      [(101, 1)] ∧
    secondTick.validateServiceAction 101 1 = none ∧
    (101, 1) ∈ secondTick.listPublicServices.map (·.1) ∧
    ∀ policy ∈ secondTick.listControllerServiceAccessPolicies,
      (policy.teamID, policy.challengeID) = (101, 1) → policy.networkClosed = false := by
  have hvalid : secondTick.validateServiceAction 101 1 = none := by decide
  obtain ⟨hlisted, -, hopen⟩ := (gates_agree secondTick rfl).2.2 101 1 (.inl hvalid)
  exact ⟨by decide, hvalid, hlisted, hopen⟩

end PlayDatabase

end ADPlatform.APIGateway
