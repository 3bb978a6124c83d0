import Mathlib
import ADPlatform.APIGateway.Teams

/-! # Ids that are given out again

`CreateAdminTeam` takes the least id that no team has. `DeleteAdminTeam` leaves the mark of a
deactivated team behind, so a new team can find itself deactivated. -/

namespace ADPlatform.APIGateway
open Text

/-- `validatePlayerAuthentication`, for a password that matches the hash or not. -/
def validatePlayerAuthentication (passwordMatches : Bool) (role : Role)
    (playerActive teamActive : Bool) :
    Except StoreError Unit :=
  if !passwordMatches then .error .invalidCredentials
  else if !playerActive ∨ (role ≠ .organizer ∧ !teamActive) then .error .accountDeactivated
  else .ok ()

namespace MemoryStore
variable {T : CaseTable} {s : MemoryStore}

/-- The turn of `AuthenticatePlayer` at the record with the email. -/
def authenticate (passwordMatches : Bool) (record : AdminPlayerRecord) (s : MemoryStore) :
    Except StoreError AuthenticatedPlayer :=
  match validatePlayerAuthentication passwordMatches record.player.role
      (!s.playerDeactivated record.player.id) (!s.teamDeactivated record.player.teamID) with
  | .error e => .error e
  | .ok () =>
    if record.player.teamID = 0 ∧ record.player.role ≠ .organizer then
      .ok (record.authenticated "" "")
    else .ok (record.authenticated (s.teamNameForID record.player.teamID)
      (s.teamContactEmail record.player.teamID))

/-- `AuthenticatePlayer`: the first player with the email in the map's order. -/
def authenticatePlayer (T : CaseTable) (rt : Go.Runtime) (email : String)
    (passwordMatches : AdminPlayerRecord → Bool) (s : MemoryStore) :
    Except StoreError AuthenticatedPlayer :=
  match (rt.range 0 s.players.pairs).find? fun (_, record) =>
      T.equalFold record.player.email (trimSpace (T.toLower email)) with
  | none => .error .invalidCredentials
  | some (_, record) => s.authenticate (passwordMatches record) record

/-- The challenge is open to the participants. -/
def challengeOpen (challenge : AdminChallenge) : Bool :=
  challenge.published && !(challenge.maintenance || challenge.playFromTick > 0)

/-- The loop of `ListPublicServices` does not skip the service. -/
def publiclyListed (s : MemoryStore) (k : ServiceKey) : Bool :=
  !s.teamDeactivated k.1 && !(s.teams.lookup k.1).any (·.playFromTick > 0) &&
    (s.challenges.lookup k.2).any challengeOpen

/-- The endpoints of the services, by challenge and team. -/
def listPublicServices (rt : Go.Runtime) (s : MemoryStore) :
    Go.Map (String × String) (List String) :=
  if !s.isMatchStarted then ∅
  else if s.isMatchPaused then ∅
  else Go.Map.fill (fun entry => (entry.1.2.repr, entry.1.1.repr)) (fun entry => [entry.2.endpoint])
    ((rt.range 0 s.teamStates.pairs).filter fun entry => s.publiclyListed entry.1) ∅

/-- The team takes part: its members log in, its services are listed, and nothing but the match and
the challenge closes their network. -/
structure TakesPart (s : MemoryStore) (id : Int) : Prop where
  members : ∀ record : AdminPlayerRecord, record.player.teamID = id →
    s.playerDeactivated record.player.id = false → ∃ player, s.authenticate true record = .ok player
  listed : ∀ (rt : Go.Runtime) (c : Int) (challenge : AdminChallenge),
    s.challenges.lookup c = some challenge → challengeOpen challenge = true →
      s.isMatchStarted = true → s.isMatchPaused = false →
        ∃ endpoint, (s.listPublicServices rt).lookup (c.repr, id.repr) = some [endpoint]
  network : ∀ c, s.networkClosed (id, c) = true →
    s.isMatchStarted = false ∨ s.isMatchPaused = true ∨
    (s.challenges.lookup c).any (fun challenge =>
      challenge.maintenance || challenge.playFromTick > 0)

/-- A team that is created takes part at once. -/
def createdActive (T : CaseTable) (call : MemoryCall) (s : MemoryStore) : Prop :=
  match call with
  | .createAdminTeam request input =>
    ∀ team, (s.createAdminTeam T request input).result = .ok team →
    (s.createAdminTeam T request input).store.TakesPart team.id
  | _ => True

/-- The id that a new team gets bears no mark. -/
def freeIDUnmarked (T : CaseTable) (call : MemoryCall) (s : MemoryStore) : Prop :=
  match call with
  | .createAdminTeam request input => ∀ id joinKey, CreatesTeam T request input s id joinKey →
    ¬ s.tokenMissing input → s.teamDeactivated id = false
  | _ => True

/-- No team is deleted while it is deactivated. -/
def deletesActive (call : MemoryCall) (s : MemoryStore) : Prop :=
  match call with
  | .deleteAdminTeam id => (s.teams.lookup id).isSome → s.teamDeactivated id = false
  | _ => True

/-! ## What a new team finds -/

section created
variable {id : Int} {input : StoreInput} {n : Nat} {challenges : List (Int × AdminChallenge)}
  {done : List ServiceKey}

theorem joinChallenges_frame : (joinChallenges id input n challenges s done).store.challenges =
      s.challenges ∧
    (joinChallenges id input n challenges s done).store.isMatchStarted = s.isMatchStarted ∧
    (joinChallenges id input n challenges s done).store.isMatchPaused = s.isMatchPaused := by
  induction challenges generalizing n s done with
  | nil => exact ⟨rfl, rfl, rfl⟩
  | cons entry challenges ih =>
    unfold joinChallenges
    dsimp only
    split
    · exact ⟨rfl, rfl, rfl⟩
    · exact ih

/-- Every challenge of the loop gets a service, and no service goes. -/
theorem joinChallenges_states (h : (joinChallenges id input n challenges s done).failed = false)
    {k : ServiceKey}
    (hk : (s.teamStates.lookup k).isSome ∨ ∃ entry ∈ challenges, k = (id, entry.1)) :
    ((joinChallenges id input n challenges s done).store.teamStates.lookup k).isSome := by
  induction challenges generalizing n s done with
  | nil => exact hk.resolve_right (by simp)
  | cons entry challenges ih =>
    unfold joinChallenges at h ⊢
    dsimp only at h ⊢
    split at h
    · cases h
    refine ih h ?_
    simp only [setService]
    by_cases heq : k = (id, entry.1)
    · rw [heq, AList.lookup_insert]
      exact .inl rfl
    · rw [AList.lookup_insert_ne heq]
      rcases hk with hk | ⟨other, hother, hk⟩
      · exact .inl hk
      · rcases List.mem_cons.mp hother with rfl | hother
        · exact absurd hk heq
        · exact .inr ⟨other, hother, hk⟩

end created

/-- What a successful `CreateAdminTeam` leaves. -/
structure Creation (s t : MemoryStore) (id : Int) : Prop where
  marks : t.deactivatedTeams = s.deactivatedTeams
  players : t.deactivatedPlayers = s.deactivatedPlayers
  team : ∃ team, t.teams.lookup id = some team ∧ team.playFromTick = 0
  services : ∀ c challenge, t.challenges.lookup c = some challenge → challenge.published = true →
    (t.teamStates.lookup (id, c)).isSome

theorem creation_of_ok {request : AdminCreateTeamRequest} {input : StoreInput} {team : AdminTeam}
    (h : (s.createAdminTeam T request input).result = .ok team) :
    (∃ joinKey, CreatesTeam T request input s team.id joinKey) ∧ ¬ s.tokenMissing input ∧
      Creation s (s.createAdminTeam T request input).store team.id := by
  have hok := Change.not_failed_of_result h
  rcases createAdminTeam_cases T s request input with
    ⟨-, -, hfailed⟩ | ⟨id, joinKey, hcreates, ⟨-, -, hfailed⟩ | ⟨hc, hstore, hresult⟩⟩
  · rw [hok] at hfailed
    cases hfailed
  · rw [hok] at hfailed
    cases hfailed
  obtain rfl : team.id = id := by
    rw [hresult] at h
    cases h
    rfl
  have hmissing : ¬ s.tokenMissing input := by
    rw [← createAdminTeam_failed_iff hcreates, hok]
    nofun
  refine ⟨⟨joinKey, hcreates⟩, hmissing, ?_⟩
  rw [hstore]
  refine ⟨congrArg Accounts.deactivatedTeams accounts_joinChallenges,
    congrArg Accounts.deactivatedPlayers accounts_joinChallenges, ?_, ?_⟩
  · refine ⟨requestedTeam T request team.id joinKey, ?_, rfl⟩
    refine (congrArg (fun a : Accounts => a.teams.lookup team.id) accounts_joinChallenges).trans ?_
    exact AList.lookup_insert _
  · intro c challenge hchallenge hpublished
    refine joinChallenges_states hc (.inr ⟨(c, challenge), ?_, rfl⟩)
    have hlookup : s.challenges.lookup c = some challenge := by
      have hframe :
          (s.withTeam (requestedTeam T request team.id joinKey)).challenges = s.challenges := rfl
      rw [← hchallenge, ← hframe]
      exact (congrArg (AList.lookup c) joinChallenges_frame.1).symm
    refine List.mem_filter.mpr ⟨?_, hpublished⟩
    exact (input.rt.range_perm 0 _).mem_iff.mpr (Go.Map.mem_pairs.mpr hlookup)

theorem creation_authenticates {t : MemoryStore} {id : Int} (h : Creation s t id)
    (hactive : s.teamDeactivated id = false) {record : AdminPlayerRecord}
    (hteam : record.player.teamID = id) (hplayer : t.playerDeactivated record.player.id = false) :
    ∃ player, t.authenticate true record = .ok player := by
  have hactive : t.teamDeactivated record.player.teamID = false := by
    rw [hteam, teamDeactivated, h.marks]
    exact hactive
  have hvalid : validatePlayerAuthentication true record.player.role
      (!t.playerDeactivated record.player.id)
      (!t.teamDeactivated record.player.teamID) = .ok () := by
    simp [validatePlayerAuthentication, hplayer, hactive]
  unfold authenticate
  rw [hvalid]
  dsimp only
  split
  · exact ⟨_, rfl⟩
  · exact ⟨_, rfl⟩

theorem creation_listed {t : MemoryStore} {id : Int} (h : Creation s t id)
    (hactive : s.teamDeactivated id = false) (rt : Go.Runtime) {c : Int}
    {challenge : AdminChallenge}
    (hchallenge : t.challenges.lookup c = some challenge) (hopen : challengeOpen challenge = true)
    (hstarted : t.isMatchStarted = true) (hpaused : t.isMatchPaused = false) :
    ∃ endpoint, (t.listPublicServices rt).lookup (c.repr, id.repr) = some [endpoint] := by
  have hpublished : challenge.published = true := by
    rw [challengeOpen, Bool.and_eq_true] at hopen
    exact hopen.1
  obtain ⟨state, hstate⟩ :=
    Option.isSome_iff_exists.mp (h.services c challenge hchallenge hpublished)
  obtain ⟨team, hteam, hplay⟩ := h.team
  have hlisted : t.publiclyListed (id, c) = true := by
    have hmarks : t.teamDeactivated id = false := by
      rw [teamDeactivated, h.marks]
      exact hactive
    simp [publiclyListed, hmarks, hteam, hplay, hchallenge, hopen]
  rw [listPublicServices, if_neg (by simp [hstarted]), if_neg (by simp [hpaused])]
  have hmem : ((id, c), state) ∈
      (rt.range 0 t.teamStates.pairs).filter fun entry => t.publiclyListed entry.1 := by
    refine List.mem_filter.mpr ⟨?_, hlisted⟩
    exact (rt.range_perm 0 _).mem_iff.mpr (Go.Map.mem_pairs.mpr hstate)
  have hkeys : (((rt.range 0 t.teamStates.pairs).filter fun entry => t.publiclyListed entry.1).map
      fun entry => (entry.1.2.repr, entry.1.1.repr)).Nodup := by
    refine List.Nodup.map_on (fun a ha b hb heq => ?_) ?_
    · obtain ⟨hc, ht⟩ := Prod.mk.inj heq
      have hkey : a.1 = b.1 := Prod.ext (Int.repr_injective ht) (Int.repr_injective hc)
      have hpair : ∀ {entry}, entry ∈ (rt.range 0 t.teamStates.pairs).filter
          (fun entry => t.publiclyListed entry.1) → t.teamStates.lookup entry.1 = some entry.2 :=
        fun h => Go.Map.mem_pairs.mp ((rt.range_perm 0 _).mem_iff.mp (List.mem_filter.mp h).1)
      have ha := hpair ha
      rw [hkey, hpair hb] at ha
      exact Prod.ext hkey (Option.some.inj ha).symm
    · exact ((rt.range_perm 0 _).nodup_iff.mpr (Go.Map.nodup_pairs _)).filter _
  have hlookup : (Go.Map.fill (fun entry => (entry.1.2.repr, entry.1.1.repr))
      (fun entry => [entry.2.endpoint])
      ((rt.range 0 t.teamStates.pairs).filter fun entry => t.publiclyListed entry.1) ∅).lookup
        (c.repr, id.repr) = some [state.endpoint] := Go.Map.lookup_fill_of_mem hkeys hmem
  exact ⟨state.endpoint, hlookup⟩

/-- A new team takes part exactly if its id bears no mark. -/
theorem takesPart_iff {t : MemoryStore} {id : Int} (hs : s.roster.Numbered) (h : Creation s t id) :
    t.TakesPart id ↔ s.teamDeactivated id = false := by
  constructor
  · intro hpart
    let player : AdminPlayer := {
      id := s.nextPlayerID, teamID := id, teamName := "", displayName := "", email := ""
      role := .member, wireGuardPeer := "", createdAt := none }
    have hplayer : t.playerDeactivated s.nextPlayerID = false := by
      rw [playerDeactivated, h.players]
      simpa [Roster.active, roster] using hs.active_next
    obtain ⟨authenticated, hok⟩ := hpart.members { player } rfl hplayer
    cases hactive : s.teamDeactivated id with
    | false => rfl
    | true =>
      have hmark : t.teamDeactivated id = true := by
        rw [teamDeactivated, h.marks]
        exact hactive
      simp [authenticate, validatePlayerAuthentication, player, hmark] at hok
  · intro hactive
    have hmark : t.teamDeactivated id = false := by
      rw [teamDeactivated, h.marks]
      exact hactive
    obtain ⟨team, hteam, hplay⟩ := h.team
    refine ⟨fun record => creation_authenticates h hactive, fun rt c challenge =>
      creation_listed h hactive rt, fun c hclosed => ?_⟩
    simpa [networkClosed, hmark, hteam, hplay, or_assoc] using hclosed

theorem createdActive_iff (hs : s.roster.Numbered) (call : MemoryCall) :
    createdActive T call s ↔ freeIDUnmarked T call s := by
  cases call with
  | createAdminTeam request input =>
    constructor
    · intro hcreated id joinKey hcreates hmissing
      obtain ⟨team, hresult⟩ : ∃ team, (s.createAdminTeam T request input).result = .ok team := by
        cases hresult : (s.createAdminTeam T request input).result with
        | ok team => exact ⟨team, rfl⟩
        | error e =>
          exact absurd ((createAdminTeam_failed_iff hcreates).mp (Change.failed_of_result hresult))
            hmissing
      obtain ⟨⟨joinKey', hcreates'⟩, -, hcreation⟩ := creation_of_ok hresult
      obtain rfl : team.id = id := Option.some.inj (hcreates'.number.symm.trans hcreates.number)
      exact (takesPart_iff hs hcreation).mp (hcreated team hresult)
    · intro hfree team hresult
      obtain ⟨⟨joinKey, hcreates⟩, hmissing, hcreation⟩ := creation_of_ok hresult
      exact (takesPart_iff hs hcreation).mpr (hfree team.id joinKey hcreates hmissing)
  | _ => exact Iff.rfl

/-! ## Runs -/

/-- Every mark is that of a team. -/
def MarksTeams (s : MemoryStore) : Prop :=
  ∀ id, s.teamDeactivated id = true → (s.teams.lookup id).isSome

theorem marksTeams_initial (h : s.Initial) : s.MarksTeams := by
  have hnone : s.deactivatedTeams = ∅ := by
    rcases h with rfl | ⟨teamID, now, input, h⟩
    · rfl
    · obtain ⟨players, -, h⟩ := exists_of_bind_eq_ok h
      cases h
      rfl
  intro id hid
  rw [teamDeactivated, hnone] at hid
  cases hid

theorem marksTeams_exec (T : CaseTable) (call : MemoryCall) (h : s.MarksTeams)
    (hcall : deletesActive call s) : (s.exec T call).MarksTeams := by
  have hinsert : ∀ {id : Int} {team : AdminTeam} {other : Int},
      (s.teams.lookup other).isSome → ((s.teams.insert id team).lookup other).isSome := by
    intro id team other hother
    by_cases heq : other = id
    · rw [heq, AList.lookup_insert]
      rfl
    · rwa [AList.lookup_insert_ne heq]
  have hstep := teamStep_exec T call s
  have hmarks :
      (s.exec T call).MarksTeams ↔ ∀ id, (s.exec T call).teamTable.deactivated.get id false →
      ((s.exec T call).teamTable.teams.lookup id).isSome := Iff.rfl
  rw [hmarks]
  generalize (s.exec T call).teamTable = t at hstep
  cases hstep with
  | unchanged | createRejected | profileKept | deleteMissing | updateMissing
  | activeMissing => exact h
  | created | renamed | updated => exact fun other hother => hinsert (h other hother)
  | @deleted id team hteam =>
    intro other hother
    have hne : other ≠ id := by
      rintro rfl
      have hactive : s.teamDeactivated other = false := hcall (by rw [hteam]; rfl)
      exact absurd (hactive.symm.trans hother) nofun
    rw [AList.lookup_erase_ne hne]
    exact h other hother
  | @activated id team hteam =>
    intro other hother
    rw [Go.Map.get_erase] at hother
    split at hother
    · cases hother
    · exact hinsert (h other hother)
  | @deactivated id team hteam =>
    intro other hother
    rw [Go.Map.get_insert] at hother
    split at hother
    · rename_i heq
      rw [heq, AList.lookup_insert]
      rfl
    · exact hinsert (h other hother)

/-- The least free id bears no mark while every mark is that of a team. -/
theorem freeIDUnmarked_of_marksTeams (h : s.MarksTeams) (call : MemoryCall) :
    freeIDUnmarked T call s := by
  cases call with
  | createAdminTeam request input =>
    intro id joinKey hcreates _
    cases hid : s.teamDeactivated id with
    | false => rfl
    | true =>
      obtain ⟨team, hteam⟩ := Option.isSome_iff_exists.mp (h id hid)
      rw [hcreates.new] at hteam
      cases hteam
  | _ => trivial

/-- In a run of calls on a new store, every team that is created takes part at once exactly if the
id it gets never bears the mark of a deactivated team; so it is in every run in which no team is
deleted while it is deactivated. -/
theorem created_team_takes_part_iff (T : CaseTable) (hs : s.Initial) (calls : List MemoryCall) :
    (Runs.EachCall (exec T) (createdActive T) s calls ↔
      Runs.EachCall (exec T) (freeIDUnmarked T) s calls) ∧
    (Runs.EachCall (exec T) deletesActive s calls →
      Runs.EachCall (exec T) (createdActive T) s calls) := by
  have hiff : Runs.EachCall (exec T) (createdActive T) s calls ↔
      Runs.EachCall (exec T) (freeIDUnmarked T) s calls :=
    Runs.eachCall_congr (numbered_initial hs) (fun call _ h => numbered_exec h call)
      fun call _ h => createdActive_iff h call
  refine ⟨hiff, fun hdeletes => hiff.mpr fun before call after heq => ?_⟩
  have hbefore : Runs.EachCall (exec T) deletesActive s before := by
    rw [heq] at hdeletes
    exact hdeletes.append
  have hmarks : MarksTeams (Runs.run (exec T) s before) :=
    Runs.run_induction (marksTeams_initial hs) (fun call _ h hok =>
      marksTeams_exec T call h hok) hbefore
  exact freeIDUnmarked_of_marksTeams hmarks call

/-- A team comes and goes, and another one takes its id. -/
def replacedTeam : List MemoryCall :=
  [.createAdminTeam { name := "Blue", contactEmail := "blue@example.com" } {},
   .deleteAdminTeam 101,
   .createAdminTeam { name := "Red", contactEmail := "red@example.com" } {}]

theorem created_team_takes_part_iff_replacedTeam :
    ((Runs.run (exec .ascii) {} replacedTeam).teams.pairs.map fun x => (x.1, x.2.name)) =
      [(101, "Red")] ∧
    Runs.EachCall (exec .ascii) (createdActive .ascii) {} replacedTeam := by
  refine ⟨by decide +kernel, (created_team_takes_part_iff .ascii (.inl rfl) replacedTeam).2 ?_⟩
  refine Runs.eachCall_cons.mpr ⟨trivial, Runs.eachCall_cons.mpr ⟨fun _ => ?_,
    Runs.eachCall_cons.mpr ⟨trivial, Runs.eachCall_nil⟩⟩⟩
  decide +kernel

/-- A team is deactivated and deleted, and another one takes its id. -/
def bornDeactivated : List MemoryCall :=
  [.createAdminTeam { name := "Blue", contactEmail := "blue@example.com" } {},
   .setTeamActive 101 false,
   .deleteAdminTeam 101,
   .createAdminTeam { name := "Red", contactEmail := "red@example.com" } {}]

theorem born_deactivated :
    ¬ ∀ (T : CaseTable) (s : MemoryStore) (calls : List MemoryCall), s.Initial →
    Runs.EachCall (exec T) (createdActive T) s calls := by
  intro h
  have hcreated := h .ascii {} bornDeactivated (.inl rfl) (bornDeactivated.take 3) _ [] rfl
  let created := (Runs.run (exec .ascii) {} (bornDeactivated.take 3)).createAdminTeam .ascii
    { name := "Red", contactEmail := "red@example.com" } {}
  have hid : created.result.toOption.map (·.id) = some 101 := by decide +kernel
  have hmark : created.store.teamDeactivated 101 = true ∧
      created.store.playerDeactivated 1 = false := by
    decide +kernel
  cases hresult : created.result with
  | error e =>
    rw [hresult] at hid
    cases hid
  | ok team =>
    rw [hresult] at hid
    have hteam : team.id = 101 := Option.some.inj hid
    let player : AdminPlayer := {
      id := 1, teamID := team.id, teamName := "Red", displayName := "Ann", email :=
        "ann@example.com"
      role := .member, wireGuardPeer := "", createdAt := none }
    obtain ⟨authenticated, hok⟩ := (hcreated team hresult).members { player } rfl hmark.2
    have hteam : created.store.teamDeactivated team.id = true := by
      rw [hteam]
      exact hmark.1
    have hrefused : created.store.authenticate true { player } = .error .accountDeactivated := by
      simp [authenticate, validatePlayerAuthentication, player, hteam]
    rw [hrefused] at hok
    cases hok

end MemoryStore

end ADPlatform.APIGateway
