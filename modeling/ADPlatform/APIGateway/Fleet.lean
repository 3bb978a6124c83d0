import ADPlatform.APIGateway.Teams

/-! # The services of the in-memory store

`FleetStep` lists what each call can do to the service instances and to the deployment jobs. What
holds of them in every reachable store is proved from it, one case for each kind of step. -/

namespace ADPlatform.APIGateway
open Text

/-- What the deployment jobs and the controller go by in an instance. -/
structure Placement where
  status : RuntimeStatus
  job : Option Int
  challengeName : String
  containerName : String
  stateVolume : String

/-- The part of a row that deployment and reconciliation look at. -/
def ServiceInstanceRecord.placement (i : ServiceInstanceRecord) : Placement where
  status := i.runtimeStatus
  job := i.deploymentJobID
  challengeName := i.challengeName
  containerName := i.containerName
  stateVolume := i.stateVolume

/-- A new instance of a challenge. -/
def AdminChallenge.placed (c : AdminChallenge) (teamID : Int) (job : Option Int) : Placement where
  status := .queued
  job
  challengeName := c.name
  containerName := serviceContainerName c.name teamID
  stateVolume := serviceStateVolumeName c.name teamID

/-- Of the reads that a loop makes from `n` on, one at each of its `length` visits, the first `m`
succeed, and it ends there. -/
structure StoreInput.TokensEnd (input : StoreInput) (n length m : Nat) : Prop where
  le : m ≤ length
  drawn : ∀ i < m, ∃ raw, input.random (n + i) = .ok raw
  missing : m < length → ∃ message, input.random (n + m) = .error message

namespace StoreInput
variable {input : StoreInput} {n length m : Nat}

theorem TokensEnd.zero {message : String} (h : input.random n = .error message) :
    input.TokensEnd n (length + 1) 0 :=
  ⟨Nat.zero_le _, nofun, fun _ => ⟨message, h⟩⟩

theorem TokensEnd.succ {raw : List UInt8} (h : input.random n = .ok raw)
    (hm : input.TokensEnd (n + 1) length m) : input.TokensEnd n (length + 1) (m + 1) where
  le := Nat.succ_le_succ hm.le
  drawn i hi := by
    cases i with
    | zero => exact ⟨raw, h⟩
    | succ i =>
      obtain ⟨raw, hraw⟩ := hm.drawn i (Nat.lt_of_succ_lt_succ hi)
      exact ⟨raw, by rwa [Nat.add_right_comm] at hraw⟩
  missing hlt := by
    obtain ⟨message, hmessage⟩ := hm.missing (Nat.lt_of_succ_lt_succ hlt)
    exact ⟨message, by rwa [Nat.add_right_comm] at hmessage⟩

theorem TokensEnd.unique {m' : Nat} (h : input.TokensEnd n length m)
    (h' : input.TokensEnd n length m') :
    m = m' := by
  have hle : ∀ {m m'}, input.TokensEnd n length m → input.TokensEnd n length m' → m ≤ m' := by
    intro m m' h h'
    by_contra hlt
    obtain ⟨message, hmessage⟩ := h'.missing ((not_le.mp hlt).trans_le h.le)
    obtain ⟨raw, hraw⟩ := h.drawn m' (not_le.mp hlt)
    cases hraw.symm.trans hmessage
  exact le_antisymm (hle h h') (hle h' h)

theorem newCheckerToken_error {i : Nat} {e : StoreError} (h : input.newCheckerToken i = .error e) :
    ∃ message, input.random i = .error message := by
  unfold newCheckerToken at h
  split at h
  · cases h
  · rename_i message hmessage
    exact ⟨message, hmessage⟩

theorem newCheckerToken_ok {i : Nat} {token : String} (h : input.newCheckerToken i = .ok token) :
    ∃ raw, input.random i = .ok raw := by
  unfold newCheckerToken at h
  split at h
  · rename_i raw hraw
    exact ⟨raw, hraw⟩
  · cases h

end StoreInput

/-- The fleet: where each service stands, the jobs and the next job's id. -/
structure Fleet where
  place : ServiceKey → Option Placement
  deployments : Go.Map Int AdminDeploymentJob
  nextDeploymentID : Int
  hasTeam : Int → Bool

namespace MemoryStore
variable {T : CaseTable} {s t : MemoryStore} {k : ServiceKey}

/-- The placement of a service, if it has a row. -/
def place (s : MemoryStore) (k : ServiceKey) : Option Placement :=
  (s.instances.lookup k).map (·.placement)

/-- Does the team exist? -/
def hasTeam (s : MemoryStore) (id : Int) : Bool := (s.teams.lookup id).isSome

/-- The store seen as a fleet. -/
def fleet (s : MemoryStore) : Fleet := ⟨s.place, s.deployments, s.nextDeploymentID, s.hasTeam⟩

/-- The teams, in the order in which the loop of `DeployAdminChallenge` meets them. -/
def teamOrder (s : MemoryStore) (rt : Go.Runtime) : List Int := (rt.range 0 s.teams.pairs).map (·.1)

/-- The services of `which` are in another state. -/
def restatus (s : MemoryStore) (which : ServiceKey → Bool) (status : RuntimeStatus)
    (k : ServiceKey) : Option Placement :=
  (s.place k).map fun p => if which k then { p with status } else p

/-- The services of `which` are gone. -/
def without (s : MemoryStore) (which : ServiceKey → Bool) (k : ServiceKey) : Option Placement :=
  if which k then none else s.place k

/-- The call changes instances or deployment jobs, and finds the team or the challenge that it is
about. -/
def onFleet (s : MemoryStore) : MemoryCall → Bool
  | .createAdminTeam .. | .requeueTeamServices .. | .reconcileAdminDeployments ..
  | .deleteAdminDeployment .. => true
  | .deleteAdminTeam id => (s.teams.lookup id).isSome
  | .setChallengeMaintenance c maintenance _ => maintenance && (s.challenges.lookup c).isSome
  | .deleteAdminChallenge c | .deployAdminChallenge c _ | .requeueChallengeServices c _ =>
    (s.challenges.lookup c).isSome
  | _ => false

/-- The deployment job of a challenge for every team. -/
def newJob (s : MemoryStore) (c : Int) (challenge : AdminChallenge) (input : StoreInput) :
    AdminDeploymentJob where
  id := s.nextDeploymentID
  challengeID := c
  challengeName := challenge.name
  status := .queued
  targetTeamCount := s.teams.pairs.length
  queuedTeamCount := s.teams.pairs.length
  readyTeamCount := 0
  createdAt := input.now.formatRFC3339

/-- What a call can do to the services. -/
inductive FleetStep (T : CaseTable) (s : MemoryStore) : MemoryCall → Fleet → Prop
  | unchanged {call} (h : s.onFleet call = false) : FleetStep T s call s.fleet
  | createRejected {request input} (h : ∀ id joinKey, ¬ CreatesTeam T request input s id joinKey) :
      FleetStep T s (.createAdminTeam request input) s.fleet
  | created {request input id joinKey m place} (h : CreatesTeam T request input s id joinKey)
      (htokens : input.TokensEnd 1 (s.publishedChallenges input.rt).length m)
      (hjoined : ∀ e ∈ (s.publishedChallenges input.rt).take m,
        place (id, e.1) = some (e.2.placed id none))
      (hothers : ∀ k, (k.1 = id → k.2 ∉ ((s.publishedChallenges input.rt).take m).map (·.1)) →
        place k = s.without (·.1 = id) k) :
      FleetStep T s (.createAdminTeam request input)
        ⟨place, s.deployments, s.nextDeploymentID, fun t => decide (t = id) || s.hasTeam t⟩
  | teamDeleted {id} (h : (s.teams.lookup id).isSome) :
      FleetStep T s (.deleteAdminTeam id) ⟨s.without (·.1 = id), s.deployments, s.nextDeploymentID,
        fun t => decide (t ≠ id) && s.hasTeam t⟩
  | stopped {c now} (h : (s.challenges.lookup c).isSome) :
      FleetStep T s (.setChallengeMaintenance c true now)
        ⟨s.restatus (·.2 = c) .stopped, s.deployments, s.nextDeploymentID, s.hasTeam⟩
  | challengeDeleted {c} (h : (s.challenges.lookup c).isSome) :
      FleetStep T s (.deleteAdminChallenge c)
        ⟨s.without (·.2 = c), s.deployments, s.nextDeploymentID, s.hasTeam⟩
  | deployed {c input challenge} (h : s.challenges.lookup c = some challenge)
      (hteams : s.teamOrder input.rt ≠ [])
      (htokens : input.TokensEnd 0 (s.teamOrder input.rt).length (s.teamOrder input.rt).length) :
      FleetStep T s (.deployAdminChallenge c input) {
        place := fun k => if k.2 = c ∧ k.1 ∈ s.teamOrder input.rt
          then some (challenge.placed k.1 (some s.nextDeploymentID)) else s.place k
        deployments := (s.deployments.mapValues fun _ =>
          supersede c s.nextDeploymentID input.now.formatRFC3339).insert s.nextDeploymentID
            (s.newJob c challenge input)
        nextDeploymentID := s.nextDeploymentID + 1
        hasTeam := s.hasTeam }
  | deployedNowhere {c input challenge} (h : s.challenges.lookup c = some challenge)
      (hteams : s.teamOrder input.rt = []) :
      FleetStep T s (.deployAdminChallenge c input) {
        place := s.place
        deployments := s.deployments.mapValues fun _ => supersede c 0 input.now.formatRFC3339
        nextDeploymentID := s.nextDeploymentID
        hasTeam := s.hasTeam }
  | deployFailed {c input challenge m} (h : s.challenges.lookup c = some challenge)
      (hm : m < (s.teamOrder input.rt).length)
      (htokens : input.TokensEnd 0 (s.teamOrder input.rt).length m) :
      FleetStep T s (.deployAdminChallenge c input) {
        place := fun k => if k.2 = c ∧ k.1 ∈ (s.teamOrder input.rt).take m
          then some (challenge.placed k.1 (some s.nextDeploymentID)) else s.place k
        deployments := s.deployments
        nextDeploymentID := s.nextDeploymentID + 1
        hasTeam := s.hasTeam }
  | deploymentKept {id} (h : (s.deployments.lookup id).isNone ∨
        ∃ k p, s.place k = some p ∧ p.job = some id ∧ p.status = .queued) :
      FleetStep T s (.deleteAdminDeployment id) s.fleet
  | deploymentDeleted {id} (h : (s.deployments.lookup id).isSome)
      (hidle : ∀ k p, s.place k = some p → p.job = some id → p.status ≠ .queued) :
      FleetStep T s (.deleteAdminDeployment id) {
        place :=
          fun k => (s.place k).map fun p => if p.job = some id then { p with job := none } else p
        deployments := s.deployments.erase id
        nextDeploymentID := s.nextDeploymentID
        hasTeam := s.hasTeam }
  | reconciled {input} :
      FleetStep T s (.reconcileAdminDeployments input) ⟨s.restatus s.awaits .ready,
        (s.reconcileAdminDeployments input).store.deployments, s.nextDeploymentID, s.hasTeam⟩
  | teamRequeued {id input} :
      FleetStep T s (.requeueTeamServices id input)
        ⟨s.restatus (·.1 = id) .queued, s.deployments, s.nextDeploymentID, s.hasTeam⟩
  | challengeRequeued {c input} (h : (s.challenges.lookup c).isSome) :
      FleetStep T s (.requeueChallengeServices c input)
        ⟨s.restatus (·.2 = c) .queued, s.deployments, s.nextDeploymentID, s.hasTeam⟩

theorem mem_teamOrder {rt : Go.Runtime} {id : Int} : id ∈ s.teamOrder rt ↔ s.hasTeam id = true := by
  rw [teamOrder, ((rt.range_perm 0 _).map _).mem_iff, Go.Map.map_fst_pairs, hasTeam,
    Go.Map.mem_keys]

theorem nodup_teamOrder (s : MemoryStore) (rt : Go.Runtime) : (s.teamOrder rt).Nodup :=
  ((rt.range_perm 0 _).map _).nodup_iff.mpr (Go.Map.nodup_fst_pairs _)

theorem length_teamOrder (s : MemoryStore) (rt : Go.Runtime) :
    (s.teamOrder rt).length = s.teams.pairs.length := by
  rw [teamOrder, List.length_map, (rt.range_perm 0 _).length_eq]

theorem nodup_publishedChallenges (s : MemoryStore) (rt : Go.Runtime) :
    ((s.publishedChallenges rt).map (·.1)).Nodup :=
  (((rt.range_perm 0 _).map _).nodup_iff.mpr (Go.Map.nodup_fst_pairs _)).sublist
    (List.filter_sublist.map _)

theorem place_setService {i : ServiceInstanceRecord} {state : ServiceState} {k' : ServiceKey} :
    (s.setService k i state).place k' = if k' = k then some i.placement else s.place k' := by
  unfold place setService
  split
  · rename_i h
    rw [h, AList.lookup_insert, Option.map_some]
  · rw [AList.lookup_insert_ne ‹_›]

/-- The loop of `DeployAdminChallenge` places an instance for each team, up to the first missing
token. -/
theorem deployTeams_place (challenge : AdminChallenge) (c jobID : Int)
    (input : StoreInput) (n : Nat)
    (teams : List Int) (s : MemoryStore) (done : List ServiceKey) :
    let change := deployTeams (challenge.runtimeConfig c) jobID input n teams s done
    ∃ m, input.TokensEnd n teams.length m ∧ (change.failed = true ↔ m < teams.length) ∧
      ∀ k, change.store.place k = if k.2 = c ∧ k.1 ∈ teams.take m
        then some (challenge.placed k.1 (some jobID)) else s.place k := by
  induction teams generalizing n s done with
  | nil =>
    exact ⟨0, ⟨le_rfl, nofun, nofun⟩, by simp [deployTeams, Change.failed], by simp [deployTeams]⟩
  | cons team teams ih =>
    unfold deployTeams
    dsimp only
    split
    · rename_i e he
      obtain ⟨message, hmessage⟩ := StoreInput.newCheckerToken_error he
      exact ⟨0, .zero hmessage, by simp [Change.failed], by simp⟩
    · rename_i token htoken
      obtain ⟨raw, hraw⟩ := StoreInput.newCheckerToken_ok htoken
      obtain ⟨m, hm, hfailed, hplace⟩ :=
        ih (n + 1) (s.setService (team, c) _ _) (done ++ [(team, c)])
      refine ⟨m + 1, .succ hraw hm, hfailed.trans Nat.succ_lt_succ_iff.symm, fun k => ?_⟩
      refine (hplace k).trans ?_
      rw [place_setService, List.take_succ_cons]
      by_cases hk : k.2 = c ∧ k.1 ∈ teams.take m
      · rw [if_pos hk, if_pos ⟨hk.1, .tail _ hk.2⟩]
      rw [if_neg hk]
      by_cases hkey : k = (team, c)
      · rw [if_pos hkey, if_pos (by simp [hkey]), hkey]
        rfl
      · rw [if_neg hkey, if_neg]
        rintro ⟨hc, hteam⟩
        rcases List.mem_cons.mp hteam with hteam | hteam
        · exact hkey (Prod.ext hteam hc)
        · exact hk ⟨hc, hteam⟩

/-- The loop of `CreateAdminTeam` places an instance of each challenge, up to the first missing
token. -/
theorem joinChallenges_place (id : Int) (input : StoreInput) (n : Nat)
    (challenges : List (Int × AdminChallenge)) (s : MemoryStore) (done : List ServiceKey)
    (hnodup : (challenges.map (·.1)).Nodup) :
    let change := joinChallenges id input n challenges s done
    ∃ m, input.TokensEnd n challenges.length m ∧
      (∀ e ∈ challenges.take m, change.store.place (id, e.1) = some (e.2.placed id none)) ∧
      ∀ k, (k.1 = id → k.2 ∉ (challenges.take m).map (·.1)) → change.store.place k = s.place k := by
  induction challenges generalizing n s done with
  | nil => exact ⟨0, ⟨le_rfl, nofun, nofun⟩, by simp, fun k _ => rfl⟩
  | cons entry challenges ih =>
    obtain ⟨c, challenge⟩ := entry
    rw [List.map_cons, List.nodup_cons] at hnodup
    unfold joinChallenges
    dsimp only
    split
    · rename_i e he
      obtain ⟨message, hmessage⟩ := StoreInput.newCheckerToken_error he
      exact ⟨0, .zero hmessage, by simp, fun k _ => rfl⟩
    · rename_i token htoken
      obtain ⟨raw, hraw⟩ := StoreInput.newCheckerToken_ok htoken
      obtain ⟨m, hm, hplaced, hothers⟩ :=
        ih (n + 1) (s.setService (id, c) _ _) (done ++ [(id, c)]) hnodup.2
      refine ⟨m + 1, .succ hraw hm, fun e he => ?_, fun k hk => ?_⟩
      · rw [List.take_succ_cons] at he
        rcases List.mem_cons.mp he with rfl | he
        · -- no later visit comes back to this challenge
          have hlater : c ∉ (challenges.take m).map (·.1) := fun h =>
            hnodup.1 (List.map_subset _ (List.take_subset m challenges) h)
          refine (hothers (id, c) fun _ => hlater).trans ?_
          rw [place_setService, if_pos rfl]
          rfl
        · exact hplaced e he
      · rw [List.take_succ_cons, List.map_cons, List.mem_cons, not_or] at hk
        refine (hothers k fun h => (hk h).2).trans ?_
        rw [place_setService, if_neg]
        rintro rfl
        exact (hk rfl).1 rfl

/-! ## What each call does -/

theorem place_filterKeys {p : ServiceKey → Bool}
    (h : t.instances = s.instances.filterKeys fun k => !p k) : t.place = s.without p := by
  funext k
  rw [place, without, h, Go.Map.lookup_filterKeys, place]
  cases p k <;> rfl

theorem place_mapValues (which : ServiceKey → Bool) (status : RuntimeStatus)
    {f : ServiceKey → ServiceInstanceRecord → ServiceInstanceRecord}
    (h : t.instances = s.instances.mapValues f)
    (hf : ∀ k i, s.instances.lookup k = some i →
      (f k i).placement = if which k then { i.placement with status } else i.placement) :
    t.place = s.restatus which status := by
  funext k
  rw [place, restatus, h, Go.Map.lookup_mapValues, place, Option.map_map, Option.map_map]
  exact Option.map_congr fun i hi => hf k i hi

theorem hasTeam_insert {id : Int} {team : AdminTeam} (h : t.teams = s.teams.insert id team)
    (hid : (s.teams.lookup id).isSome) : t.hasTeam = s.hasTeam := by
  funext id'
  rw [hasTeam, h, Go.Map.isSome_lookup_insert hid, hasTeam]

theorem fleet_eq (hplace : t.place = s.place) (hjobs : t.deployments = s.deployments)
    (hnext : t.nextDeploymentID = s.nextDeploymentID) (hteam : t.hasTeam = s.hasTeam) :
    t.fleet = s.fleet := by
  rw [fleet, hplace, hjobs, hnext, hteam, fleet]

theorem fleet_updateTeamProfile {player : AdminPlayer} {request : ParticipantUpdateProfileRequest}
    (h : s.updateTeamProfile T player request = .ok t) : t.fleet = s.fleet := by
  rcases updateTeamProfile_ok h with ⟨rfl, -⟩ | ⟨team, -, -, hfound, -, -, -, rfl⟩
  · rfl
  · exact fleet_eq rfl rfl rfl (hasTeam_insert rfl (by rw [hfound]; rfl))

theorem fleet_setPlayer (s : MemoryStore) {p : Int} {record : AdminPlayerRecord} :
    (s.setPlayer p record).fleet = s.fleet := rfl

theorem readyService_ok {k : ServiceKey} {state : ServiceState} {i : ServiceInstanceRecord}
    (h : s.readyService k = .ok (state, i)) : s.instances.lookup k = some i := by
  unfold readyService at h
  split at h
  · cases h
  split at h
  · cases h
  split at h
  · cases h
  rename_i i' hi
  split at h
  · cases h
  · cases h
    exact hi

/-- A factory reset draws a new checker token for the instance. -/
theorem fleet_prepareFactoryReset {k : ServiceKey} {input : StoreInput} :
    (s.prepareFactoryResetServiceLocked k input).store.fleet = s.fleet := by
  unfold prepareFactoryResetServiceLocked readyService
  split
  · rfl
  rename_i state i hready
  split
  · rfl
  refine fleet_eq (funext fun k' => ?_) rfl rfl rfl
  rw [place_setService]
  split
  · rename_i hk
    rw [hk, place, readyService_ok hready]
    rfl
  · rfl

/-- A call that is not about instances or deployment jobs leaves them alone. -/
theorem fleet_exec {call : MemoryCall} (h : s.onFleet call = false) :
    (s.exec T call).fleet = s.fleet := by
  cases call with
  | createAdminTeam | requeueTeamServices | reconcileAdminDeployments
  | deleteAdminDeployment => cases h
  | listWireGuardGatewayPeers | setActiveFlagFormat | setMatchStarted | setMatchPaused => rfl
  | registerPlayer request =>
    simp only [exec, registerPlayer]
    repeat' split
    all_goals rfl
  | updateParticipantProfile p request =>
    simp only [exec, updateParticipantProfile]
    repeat' split
    · rfl
    · rfl
    · rfl
    · rfl
    · rfl
    · rename_i renamed hrenamed
      exact (fleet_setPlayer renamed).trans (fleet_updateTeamProfile hrenamed)
  | createAdminPlayer request input =>
    simp only [exec, createAdminPlayer]
    repeat' split
    all_goals rfl
  | joinExistingPlayerTeam p teamKey input =>
    simp only [exec, joinExistingPlayerTeam]
    repeat' split
    all_goals rfl
  | transferTeamCaptain p q =>
    simp only [exec, transferTeamCaptain]
    repeat' split
    all_goals rfl
  | getAdminPlayerWireGuardConfig p input =>
    simp only [exec, getAdminPlayerWireGuardConfig]
    repeat' split
    all_goals rfl
  | rotateAdminPlayerWireGuardConfig p input =>
    simp only [exec, rotateAdminPlayerWireGuardConfig]
    repeat' split
    all_goals rfl
  | revokeAdminPlayerWireGuardConfig p now =>
    simp only [exec, revokeAdminPlayerWireGuardConfig]
    repeat' split
    all_goals rfl
  | deleteAdminPlayer p =>
    simp only [exec, deleteAdminPlayer]
    split <;> rfl
  | updateAdminPlayer p request =>
    simp only [exec, updateAdminPlayer]
    split <;> rfl
  | setPlayerActive p active =>
    simp only [exec, setPlayerActive]
    repeat' split
    all_goals rfl
  | deleteAdminTeam id =>
    simp only [exec, deleteAdminTeam]
    split
    · rfl
    · rename_i team hteam
      simp [onFleet, hteam] at h
  | updateAdminTeam id request =>
    simp only [exec, updateAdminTeam]
    split
    · rfl
    · rename_i team hteam
      exact fleet_eq rfl rfl rfl (hasTeam_insert rfl (by rw [hteam]; rfl))
  | setTeamActive id active =>
    simp only [exec, setTeamActive]
    split
    · rfl
    · rename_i team hteam
      exact fleet_eq rfl rfl rfl (hasTeam_insert rfl (by rw [hteam]; rfl))
  | createAdminChallenge request input =>
    simp only [exec, createAdminChallenge]
    repeat' split
    all_goals rfl
  | updateAdminChallenge c request =>
    simp only [exec, updateAdminChallenge]
    split <;> rfl
  | deleteAdminChallenge c =>
    simp only [exec, deleteAdminChallenge]
    split
    · rfl
    · rename_i challenge hc
      simp [onFleet, hc] at h
  | setChallengeMaintenance c maintenance now =>
    simp only [exec, setChallengeMaintenance]
    split
    · rfl
    · rename_i challenge hc
      rw [onFleet, hc, Option.isSome_some, Bool.and_true] at h
      rw [h, if_neg Bool.false_ne_true]
      rfl
  | rotateChallengeUnlockProof c =>
    simp only [exec, rotateChallengeUnlockProof]
    split <;> rfl
  | deployAdminChallenge c input =>
    simp only [exec, deployAdminChallenge]
    split
    · rfl
    · rename_i challenge hc
      simp [onFleet, hc] at h
  | requeueChallengeServices c input =>
    simp only [exec, requeueChallengeServices]
    split
    · rfl
    · rename_i challenge hc
      simp [onFleet, hc] at h
  | unlockService k =>
    simp only [exec, unlockServiceLocked]
    repeat' split
    all_goals rfl
  | createSSHSession k =>
    simp only [exec, createSSHSessionLocked]
    repeat' split
    all_goals rfl
  | prepareFactoryResetService k input => exact fleet_prepareFactoryReset
  | restartService k =>
    simp only [exec, restartServiceLocked]
    split <;> rfl
  | markSSHSessionApplyFailure k =>
    simp only [exec, markSSHSessionApplyFailure, updateState]
    split <;> rfl
  | completeFactoryResetService k =>
    simp only [exec, completeFactoryResetService, updateState]
    split <;> rfl
  | markFactoryResetFailure k =>
    simp only [exec, markFactoryResetFailure, updateState]
    split <;> rfl
  | updatePlatformSettings request =>
    simp only [exec, updatePlatformSettings]
    repeat' split
    all_goals rfl

theorem FleetStep.fleet {call : MemoryCall} {f : Fleet} (h : FleetStep T s call f)
    (hplace : t.place = f.place) (hjobs : t.deployments = f.deployments)
    (hnext : t.nextDeploymentID = f.nextDeploymentID) (hteam : t.hasTeam = f.hasTeam) :
    FleetStep T s call t.fleet := by
  rw [MemoryStore.fleet, hplace, hjobs, hnext, hteam]
  exact h

theorem FleetStep.of_eq {call : MemoryCall} (h : s.onFleet call = false) :
    FleetStep T s call (s.exec T call).fleet := by
  rw [fleet_exec h]
  exact .unchanged h

theorem fleetStep_createAdminTeam {request : AdminCreateTeamRequest} {input : StoreInput} :
    FleetStep T s (.createAdminTeam request input)
      (s.createAdminTeam T request input).store.fleet := by
  rcases createAdminTeam_cases T s request input with
    ⟨h, hstore, -⟩ | ⟨id, joinKey, h, hcases⟩
  · rw [hstore]
    exact .createRejected h
  dsimp only at hcases
  generalize hteam : requestedTeam T request id joinKey = team at hcases
  have hid : team.id = id := by rw [← hteam]; rfl
  obtain ⟨m, hm, hjoined, hothers⟩ := joinChallenges_place id input 1
    (s.publishedChallenges input.rt) (s.withTeam team) [] (nodup_publishedChallenges s input.rt)
  have hqueued : (s.withTeam team).Queued
      (joinChallenges id input 1 (s.publishedChallenges input.rt) (s.withTeam team) []) none :=
    joinChallenges_queued id input 1 _ [] ⟨nofun, fun _ _ => rfl, rfl, rfl⟩
  have haccounts : (joinChallenges id input 1 (s.publishedChallenges input.rt) (s.withTeam team)
      []).store.accounts = (s.withTeam team).accounts := accounts_joinChallenges
  generalize joinChallenges id input 1 _ _ [] = c at hcases hjoined hothers hqueued haccounts
  have hplace : (s.withTeam team).place = s.without (·.1 = id) :=
    place_filterKeys (by rw [← hid]; simp [withTeam])
  have hhas : c.store.hasTeam = fun t => decide (t = id) || s.hasTeam t := by
    funext t
    have hteams : c.store.teams = s.teams.insert id team := by
      rw [show c.store.teams = c.store.accounts.teams from rfl, haccounts, ← hid]
      rfl
    rw [hasTeam, hteams]
    by_cases ht : t = id
    · rw [ht, AList.lookup_insert, decide_eq_true rfl]
      rfl
    · rw [AList.lookup_insert_ne ht, decide_eq_false ht]
      rfl
  have hfleet : c.store.fleet = ⟨c.store.place, s.deployments, s.nextDeploymentID,
      fun t => decide (t = id) || s.hasTeam t⟩ := by
    rw [fleet, hqueued.deployments, hqueued.nextDeploymentID, hhas]
    rfl
  have hstore : (s.createAdminTeam T request input).store.fleet = c.store.fleet := by
    rcases hcases with ⟨-, hstore, -⟩ | ⟨-, hstore, -⟩
    · rw [hstore]
    · rw [hstore]
      rfl
  rw [hstore, hfleet]
  exact .created h hm hjoined fun k hk => (hothers k hk).trans (congrFun hplace k)

theorem fleetStep_deployAdminChallenge {c : Int} {input : StoreInput} {challenge : AdminChallenge}
    (h : s.challenges.lookup c = some challenge) :
    FleetStep T s (.deployAdminChallenge c input) (s.deployAdminChallenge c input).store.fleet := by
  by_cases hteams : s.teamOrder input.rt = []
  · have hstep := FleetStep.deployedNowhere (T := T) h hteams
    rw [teamOrder] at hteams
    unfold deployAdminChallenge
    rw [h]
    simp only [hteams, if_true]
    exact hstep
  · have hnumber : ¬(input.rt.range 0 s.teams.pairs).map (·.1) = [] := hteams
    unfold deployAdminChallenge
    rw [h]
    simp only [if_neg hnumber]
    generalize hnumbered :
        ({ s with nextDeploymentID := s.nextDeploymentID + 1 } : MemoryStore) = numbered
    obtain ⟨m, hm, hfailed, hplace⟩ := deployTeams_place challenge c s.nextDeploymentID input 0
      (s.teamOrder input.rt) numbered []
    have hqueued :
        numbered.Queued (deployTeams (challenge.runtimeConfig c) s.nextDeploymentID input 0
        (s.teamOrder input.rt) numbered []) (some s.nextDeploymentID) :=
      deployTeams_queued _ _ input 0 _ [] ⟨nofun, fun _ _ => rfl, rfl, rfl⟩
    have haccounts : (deployTeams (challenge.runtimeConfig c) s.nextDeploymentID input 0
        (s.teamOrder input.rt) numbered []).store.accounts = numbered.accounts :=
          accounts_deployTeams
    have hlength := length_teamOrder s input.rt
    rw [teamOrder] at hm hfailed hplace hqueued haccounts hlength
    generalize deployTeams _ _ input 0 _ numbered [] = change at hfailed hplace hqueued haccounts
    have hhas : change.store.hasTeam = s.hasTeam := by
      funext t
      rw [hasTeam, show change.store.teams = change.store.accounts.teams from rfl, haccounts,
        ← hnumbered]
      rfl
    have hnext : change.store.nextDeploymentID = s.nextDeploymentID + 1 := by
      rw [hqueued.nextDeploymentID, ← hnumbered]
    have hjobs : change.store.deployments = s.deployments := by
      rw [hqueued.deployments, ← hnumbered]
    have hplaced : change.store.place = fun k => if k.2 = c ∧ k.1 ∈ (s.teamOrder input.rt).take m
        then some (challenge.placed k.1 (some s.nextDeploymentID)) else s.place k := by
      funext k
      refine (hplace k).trans ?_
      rw [← hnumbered]
      rfl
    split
    · rename_i e hresult
      have hlt := hfailed.mp (Change.failed_of_result hresult)
      have hstep := FleetStep.deployFailed (T := T) h hlt hm
      rw [fleet, hplaced, hjobs, hnext, hhas]
      exact hstep
    · rename_i hresult
      have hlt : ¬m < (s.teamOrder input.rt).length := fun hlt => by
        rw [Change.not_failed_of_result hresult] at hfailed
        exact Bool.false_ne_true (hfailed.mpr hlt)
      obtain rfl : m = (s.teamOrder input.rt).length := le_antisymm hm.le (not_lt.mp hlt)
      have hstep := FleetStep.deployed (T := T) h hteams hm
      rw [List.take_length] at hplaced
      refine hstep.fleet hplaced ?_ hnext hhas
      dsimp only
      rw [hjobs, ← teamOrder, length_teamOrder]
      rfl

theorem fleet_requeue (which : ServiceKey → Bool) (lastEvent : String) (now : GameCore.Stamp) :
    (s.requeue which lastEvent now).store.fleet =
      ⟨s.restatus which .queued, s.deployments, s.nextDeploymentID, s.hasTeam⟩ := by
  have hplace := place_mapValues which .queued (s := s) (t := (s.requeue which lastEvent now).store)
    (f := fun k i =>
      if which k then { i with runtimeStatus := .queued, updatedAt := now } else i) rfl
    fun k i _ => by split <;> rfl
  rw [fleet, hplace]
  rfl

theorem fleet_reconcile (input : StoreInput) :
    (s.reconcileAdminDeployments input).store.fleet = ⟨s.restatus s.awaits .ready,
      (s.reconcileAdminDeployments input).store.deployments, s.nextDeploymentID, s.hasTeam⟩ := by
  have hplace : (s.reconcileAdminDeployments input).store.place = s.restatus s.awaits .ready := by
    funext k
    rw [place, restatus, lookup_reconcileAdminDeployments, place, Option.map_map, Option.map_map]
    refine Option.map_congr fun i _ => ?_
    dsimp only [Function.comp_apply]
    split <;> rfl
  have hhas : (s.reconcileAdminDeployments input).store.hasTeam = s.hasTeam := by
    funext t
    rw [hasTeam, show (s.reconcileAdminDeployments input).store.teams =
      (s.reconcileAdminDeployments input).store.accounts.teams from rfl,
      accounts_reconcileAdminDeployments]
    rfl
  rw [fleet, hplace, hhas, nextDeploymentID_reconcileAdminDeployments]

theorem fleetStep_deleteAdminDeployment {id : Int} :
    FleetStep T s (.deleteAdminDeployment id) (s.deleteAdminDeployment id).store.fleet := by
  unfold deleteAdminDeployment
  dsimp only
  split
  · rename_i hnone
    exact .deploymentKept (.inl hnone)
  rename_i hsome
  rw [Option.isNone_iff_eq_none, ← ne_eq, Option.ne_none_iff_isSome] at hsome
  split
  · rename_i hactive
    obtain ⟨⟨k, i⟩, hmem, hqueued⟩ := List.any_eq_true.mp hactive
    rw [Bool.and_eq_true, decide_eq_true_eq, decide_eq_true_eq] at hqueued
    refine .deploymentKept (.inr ⟨k, i.placement, ?_, hqueued.1, hqueued.2⟩)
    rw [place, Go.Map.mem_pairs.mp hmem, Option.map_some]
  · rename_i hidle
    have hstep := FleetStep.deploymentDeleted (T := T) hsome fun k p hp hjob hqueued => by
      obtain ⟨i, hi, rfl⟩ := Option.map_eq_some_iff.mp hp
      refine hidle (List.any_eq_true.mpr ⟨(k, i), Go.Map.mem_pairs.mpr hi, ?_⟩)
      rw [Bool.and_eq_true, decide_eq_true_eq, decide_eq_true_eq]
      exact ⟨hjob, hqueued⟩
    refine hstep.fleet (funext fun k => ?_) rfl rfl rfl
    dsimp only
    rw [place, Go.Map.lookup_mapValues, place, Option.map_map, Option.map_map]
    refine Option.map_congr fun i _ => ?_
    simp only [Function.comp_apply, decide_eq_true_eq, ServiceInstanceRecord.placement]
    split <;> rfl

theorem fleetStep_deleteAdminTeam {id : Int} {team : AdminTeam}
    (h : s.teams.lookup id = some team) :
    FleetStep T s (.deleteAdminTeam id) (s.deleteAdminTeam id).store.fleet := by
  have hstep : FleetStep T s (.deleteAdminTeam id) _ := .teamDeleted (by rw [h]; rfl)
  unfold deleteAdminTeam
  rw [h]
  refine hstep.fleet (place_filterKeys (by simp)) rfl rfl (funext fun t => ?_)
  dsimp only
  by_cases ht : t = id
  · rw [hasTeam, ht, AList.lookup_erase, decide_eq_false (not_not.mpr rfl)]
    rfl
  · rw [hasTeam, AList.lookup_erase_ne ht, decide_eq_true ht]
    rfl

theorem fleetStep_maintained {c : Int} {now : GameCore.Time} {challenge : AdminChallenge}
    (h : s.challenges.lookup c = some challenge) :
    FleetStep T s (.setChallengeMaintenance c true now)
      (s.setChallengeMaintenance c true now).store.fleet := by
  have hstep : FleetStep T s (.setChallengeMaintenance c true now) _ := .stopped (by rw [h]; rfl)
  unfold setChallengeMaintenance
  rw [h]
  dsimp only
  rw [if_pos rfl]
  refine hstep.fleet (place_mapValues _ _ (s := s) (f := fun k i => if k.2 = c then
    { i with runtimeStatus := .stopped, updatedAt := now.formatRFC3339 } else i) rfl
    fun k i _ => ?_) rfl rfl rfl
  simp only [decide_eq_true_eq]
  split <;> rfl

theorem fleetStep_deleteAdminChallenge {c : Int} {challenge : AdminChallenge}
    (h : s.challenges.lookup c = some challenge) :
    FleetStep T s (.deleteAdminChallenge c) (s.deleteAdminChallenge c).store.fleet := by
  have hstep : FleetStep T s (.deleteAdminChallenge c) _ := .challengeDeleted (by rw [h]; rfl)
  unfold deleteAdminChallenge
  rw [h]
  exact hstep.fleet (place_filterKeys (by simp)) rfl rfl rfl

/-- What a call does to the services. -/
theorem fleetStep_exec (T : CaseTable) (call : MemoryCall) (s : MemoryStore) :
    FleetStep T s call (s.exec T call).fleet := by
  cases hcall : s.onFleet call with
  | false => exact .of_eq hcall
  | true =>
    cases call with
    | createAdminTeam => exact fleetStep_createAdminTeam
    | requeueTeamServices id input =>
      have hstep : FleetStep T s (.requeueTeamServices id input) _ := .teamRequeued
      rw [← fleet_requeue] at hstep
      exact hstep
    | reconcileAdminDeployments input =>
      have hstep : FleetStep T s (.reconcileAdminDeployments input) _ := .reconciled
      rw [← fleet_reconcile] at hstep
      exact hstep
    | deleteAdminDeployment id => exact fleetStep_deleteAdminDeployment
    | deleteAdminTeam id =>
      obtain ⟨team, hteam⟩ := Option.isSome_iff_exists.mp hcall
      exact fleetStep_deleteAdminTeam hteam
    | setChallengeMaintenance c maintenance now =>
      rw [onFleet, Bool.and_eq_true] at hcall
      obtain ⟨challenge, hc⟩ := Option.isSome_iff_exists.mp hcall.2
      rw [hcall.1]
      exact fleetStep_maintained hc
    | deleteAdminChallenge c =>
      obtain ⟨challenge, hc⟩ := Option.isSome_iff_exists.mp hcall
      exact fleetStep_deleteAdminChallenge hc
    | deployAdminChallenge c input =>
      obtain ⟨challenge, hc⟩ := Option.isSome_iff_exists.mp hcall
      exact fleetStep_deployAdminChallenge hc
    | requeueChallengeServices c input =>
      obtain ⟨challenge, hc⟩ := Option.isSome_iff_exists.mp hcall
      have hstep : FleetStep T s (.requeueChallengeServices c input) _ := .challengeRequeued hcall
      rw [← fleet_requeue] at hstep
      simp only [exec, requeueChallengeServices, hc]
      exact hstep
    | _ => cases hcall

/-- The services of a first store are deployed, and none belongs to a job. -/
theorem fleet_initial (h : s.Initial) : s.deployments = ∅ ∧ ∀ k p, s.place k = some p →
    s.hasTeam k.1 = true ∧ ∃ now, ∃ c ∈ seedChallenges now, k.2 = c.id ∧
      p = { c.placed k.1 none with status := .ready } := by
  rcases h with rfl | ⟨teamID, now, input, h⟩
  · refine ⟨rfl, fun k p hp => ?_⟩
    rw [place, AList.lookup_empty] at hp
    cases hp
  obtain ⟨players, -, h⟩ := exists_of_bind_eq_ok h
  cases h
  refine ⟨rfl, fun k p hp => ?_⟩
  obtain ⟨i, hi, rfl⟩ := Option.map_eq_some_iff.mp hp
  rcases Go.Map.exists_of_lookup_fill hi with ⟨⟨t, c⟩, hmem, rfl, rfl⟩ | hi
  · obtain ⟨team, hteam, hc⟩ := List.mem_flatMap.mp hmem
    obtain ⟨c', hc', heq⟩ := List.mem_map.mp hc
    cases heq
    exact ⟨Go.Map.isSome_lookup_fill.mpr (.inl (List.mem_map_of_mem hteam)), now, c, hc', rfl, rfl⟩
  · rw [AList.lookup_empty] at hi
    cases hi

end MemoryStore

end ADPlatform.APIGateway
