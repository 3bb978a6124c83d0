import ADPlatform.APIGateway.Roster

/-! # The teams of the in-memory store

`TeamStep` lists what each call can do to the teams, to the set of deactivated ones and to the rows
of the scoreboard. -/

namespace ADPlatform.APIGateway
open Text

/-- The teams with the marks on them and their scoreboard rows. -/
structure TeamTable where
  teams : Go.Map Int AdminTeam
  deactivated : Go.Map Int Bool
  rows : List ScoreRow

/-- The call may change a team. -/
def MemoryCall.onTeams : MemoryCall → Bool
  | updateParticipantProfile .. | createAdminTeam .. | deleteAdminTeam .. | updateAdminTeam ..
  | setTeamActive .. => true
  | _ => false

namespace MemoryStore
variable {T : CaseTable} {s t : MemoryStore}

/-- The store's teams. -/
def teamTable (s : MemoryStore) : TeamTable := ⟨s.teams, s.deactivatedTeams, s.scoreboard⟩

/-- The id that `allocateTeamNetworkIDLocked` finds. -/
def allocateTeamNetworkID (s : MemoryStore) : Option Int :=
  teamNetworkIDs.find? fun id => (s.teams.lookup id).isNone

/-- The name or the contact is that of a team other than `teamID`. -/
def teamTaken (s : MemoryStore) (T : CaseTable) (name contactEmail : String) (teamID : Option Int) :
    Bool :=
  s.teams.pairs.any fun (id, team) => some id ≠ teamID &&
    (T.equalFold team.name name || T.equalFold team.contactEmail contactEmail)

/-- A request that gets past the checks of `CreateAdminTeam`, with the id and the join key of the
new team. -/
structure CreatesTeam (T : CaseTable) (request : AdminCreateTeamRequest) (input : StoreInput)
    (s : MemoryStore) (id : Int) (joinKey : String) : Prop where
  name : trimSpace request.name ≠ ""
  contact : trimSpace (T.toLower request.contactEmail) ≠ ""
  free : s.teamTaken T (trimSpace request.name) (trimSpace (T.toLower request.contactEmail))
    none = false
  number : s.allocateTeamNetworkID = some id
  key : input.newTeamJoinKey 0 = .ok joinKey

/-- A captain renames the team. -/
structure RenamesTeam (T : CaseTable) (p : Int) (request : ParticipantUpdateProfileRequest)
    (s : MemoryStore) (record : AdminPlayerRecord) (team : AdminTeam) : Prop where
  player : s.players.lookup p = some record
  captain : record.player.role = .captain
  display : trimSpace request.displayName ≠ ""
  email : trimSpace (T.toLower request.email) ≠ ""
  emailFree : s.emailTaken T (trimSpace (T.toLower request.email)) (some p) = false
  member : 0 < record.player.teamID
  found : s.teams.lookup record.player.teamID = some team
  name : trimSpace request.teamName ≠ ""
  contact : trimSpace (T.toLower request.teamContactEmail) ≠ ""
  free : s.teamTaken T (trimSpace request.teamName) (trimSpace (T.toLower request.teamContactEmail))
    (some record.player.teamID) = false

/-- The row of a new team. -/
def newRow (s : MemoryStore) (name : String) : ScoreRow :=
  { rank := s.scoreboard.length + 1, team := name, delta := "new" }

/-- The new team, before its services. -/
def withTeam (s : MemoryStore) (team : AdminTeam) : MemoryStore :=
  { s with
    teams := s.teams.insert team.id team
    teamNames := s.teamNames.insert team.id team.name
    teamStates := s.teamStates.filterKeys fun k => k.1 ≠ team.id
    instances := s.instances.filterKeys fun k => k.1 ≠ team.id }

/-- The store with a new row at the end of the board. -/
def withRow (s : MemoryStore) (name : String) : MemoryStore :=
  { s with scoreboard := s.scoreboard ++ [s.newRow name] }

/-- The published challenges, in the order in which the loop meets them. -/
def publishedChallenges (s : MemoryStore) (rt : Go.Runtime) : List (Int × AdminChallenge) :=
  (rt.range 0 s.challenges.pairs).filter fun (_, c) => c.published

/-- The random source fails at the token of a published challenge. -/
def tokenMissing (input : StoreInput) (s : MemoryStore) : Prop :=
  ∃ i < (s.publishedChallenges input.rt).length, ∃ message, input.random (1 + i) = .error message

/-- The team that a request asks for. -/
def requestedTeam (T : CaseTable) (request : AdminCreateTeamRequest) (id : Int) (joinKey : String) :
    AdminTeam where
  id
  name := trimSpace request.name
  contactEmail := trimSpace (T.toLower request.contactEmail)
  joinKey

/-- What a call can do to the teams. -/
inductive TeamStep (T : CaseTable) (s : MemoryStore) : MemoryCall → TeamTable → Prop
  | unchanged {call} (h : call.onTeams = false) : TeamStep T s call s.teamTable
  | createRejected {request input} (h : ∀ id joinKey, ¬ CreatesTeam T request input s id joinKey) :
      TeamStep T s (.createAdminTeam request input) s.teamTable
  | created {request input id joinKey} (h : CreatesTeam T request input s id joinKey) :
      TeamStep T s (.createAdminTeam request input) {
        teams := s.teams.insert id (requestedTeam T request id joinKey)
        deactivated := s.deactivatedTeams
        rows := if (s.createAdminTeam T request input).failed then s.scoreboard
          else s.scoreboard ++ [s.newRow (trimSpace request.name)] }
  | profileKept {p request} (h : ∀ record team, ¬ RenamesTeam T p request s record team) :
      TeamStep T s (.updateParticipantProfile p request) s.teamTable
  | renamed {p request record team} (h : RenamesTeam T p request s record team) :
      TeamStep T s (.updateParticipantProfile p request) { s.teamTable with
        teams := s.teams.insert record.player.teamID { team with
          name := trimSpace request.teamName
          contactEmail := trimSpace (T.toLower request.teamContactEmail) }
        rows := s.scoreboard.map fun row =>
          if row.team = team.name then { row with team := trimSpace request.teamName } else row }
  | deleteMissing {id} (h : s.teams.lookup id = none) :
      TeamStep T s (.deleteAdminTeam id) s.teamTable
  | deleted {id team} (h : s.teams.lookup id = some team) :
      TeamStep T s (.deleteAdminTeam id) { s.teamTable with
        teams := s.teams.erase id, rows := s.scoreboard.eraseP fun row => row.team = team.name }
  | updateMissing {id request} (h : s.teams.lookup id = none) :
      TeamStep T s (.updateAdminTeam id request) s.teamTable
  | updated {id request team} (h : s.teams.lookup id = some team) :
      TeamStep T s (.updateAdminTeam id request) { s.teamTable with
        teams := s.teams.insert id { team with
          name := if trimSpace request.name ≠ "" then trimSpace request.name else team.name
          contactEmail := if trimSpace request.contactEmail ≠ ""
            then T.toLower (trimSpace request.contactEmail) else team.contactEmail } }
  | activeMissing {id active} (h : s.teams.lookup id = none) :
      TeamStep T s (.setTeamActive id active) s.teamTable
  | activated {id team} (h : s.teams.lookup id = some team) :
      TeamStep T s (.setTeamActive id true) { s.teamTable with
        teams :=
          s.teams.insert id { team with active := true, deactivatedAt := none, playFromTick := 0 }
        deactivated := s.deactivatedTeams.erase id }
  | deactivated {id team} (h : s.teams.lookup id = some team) :
      TeamStep T s (.setTeamActive id false) {
        teams := s.teams.insert id { team with active := false, playFromTick := 0 }
        deactivated := s.deactivatedTeams.insert id true
        rows := s.scoreboard.filter fun row => row.team ≠ team.name }

theorem CreatesTeam.new {request : AdminCreateTeamRequest} {input : StoreInput} {id : Int}
    {joinKey : String} (h : CreatesTeam T request input s id joinKey) :
      s.teams.lookup id = none := by
  have hfound := List.find?_some h.number
  rwa [Option.isNone_iff_eq_none] at hfound

theorem teamTable_eq (h : t.accounts = s.accounts) : t.teamTable = s.teamTable := by
  rw [show t.teamTable = ⟨t.accounts.teams, t.accounts.deactivatedTeams, t.accounts.scoreboard⟩
    from rfl, h]
  rfl

theorem teamTable_withRow {name : String} : (s.withRow name).teamTable =
    { s.teamTable with rows := s.teamTable.rows ++
      [⟨s.teamTable.rows.length + 1, name, 0, 0, 0, 0, "new"⟩] } :=
  rfl

theorem TeamStep.of_eq {call : MemoryCall} (h : call.onTeams = false)
    (heq : t.teamTable = s.teamTable) : TeamStep T s call t.teamTable := by
  rw [heq]
  exact .unchanged h

/-- How `CreateAdminTeam` ends: it is rejected, or a checker token is missing behind the new team,
or the team is complete. -/
theorem createAdminTeam_cases (T : CaseTable) (s : MemoryStore) (request : AdminCreateTeamRequest)
    (input : StoreInput) :
    ((∀ id joinKey, ¬ CreatesTeam T request input s id joinKey) ∧
      (s.createAdminTeam T request input).store = s ∧
      (s.createAdminTeam T request input).failed = true) ∨
    ∃ id joinKey, CreatesTeam T request input s id joinKey ∧
      let team := requestedTeam T request id joinKey
      let c := joinChallenges id input 1 (s.publishedChallenges input.rt) (s.withTeam team) []
      (c.failed = true ∧ (s.createAdminTeam T request input).store = c.store ∧
        (s.createAdminTeam T request input).failed = true) ∨
      (c.failed = false ∧ (s.createAdminTeam T request input).store = c.store.withRow team.name ∧
        (s.createAdminTeam T request input).result = .ok { team with
          deployedChallenges := (s.publishedChallenges input.rt).length, active := true }) := by
  have hfree : (s.teams.pairs.any fun (_, team) => T.equalFold team.name (trimSpace request.name) ||
      T.equalFold team.contactEmail (trimSpace (T.toLower request.contactEmail))) =
      s.teamTaken T (trimSpace request.name) (trimSpace (T.toLower request.contactEmail)) none := by
    simp [teamTaken]
  unfold createAdminTeam
  dsimp only
  split
  · rename_i hblank
    refine .inl ⟨fun id joinKey h => ?_, rfl, rfl⟩
    exact hblank.elim h.name h.contact
  rename_i hblank
  obtain ⟨hname, hcontact⟩ := not_or.mp hblank
  split
  · rename_i htaken
    refine .inl ⟨fun id joinKey h => ?_, rfl, rfl⟩
    rw [hfree, h.free] at htaken
    cases htaken
  rename_i htaken
  rw [hfree, Bool.not_eq_true] at htaken
  split
  · rename_i hid
    refine .inl ⟨fun id joinKey h => ?_, rfl, rfl⟩
    have hnumber := h.number
    rw [allocateTeamNetworkID, hid] at hnumber
    cases hnumber
  rename_i id hid
  split
  · rename_i hkey
    refine .inl ⟨fun id joinKey h => ?_, rfl, rfl⟩
    have := h.key
    rw [hkey] at this
    cases this
  rename_i joinKey hkey
  refine .inr ⟨id, joinKey, ⟨hname, hcontact, htaken, hid, hkey⟩, ?_⟩
  split
  · rename_i e hresult
    exact .inl ⟨Change.failed_of_result hresult, rfl, rfl⟩
  · rename_i hresult
    exact .inr ⟨Change.not_failed_of_result hresult, rfl, rfl⟩

theorem joinChallenges_error_iff (teamID : Int) (input : StoreInput) (n : Nat)
    (challenges : List (Int × AdminChallenge)) (s : MemoryStore) (done : List ServiceKey) :
    (joinChallenges teamID input n challenges s done).failed = true ↔
      ∃ i < challenges.length, ∃ message, input.random (n + i) = .error message := by
  induction challenges generalizing n s done with
  | nil => simp [joinChallenges, Change.failed]
  | cons entry challenges ih =>
    unfold joinChallenges
    dsimp only
    split
    · rename_i e he
      refine iff_of_true rfl ⟨0, Nat.zero_lt_succ _, ?_⟩
      unfold StoreInput.newCheckerToken at he
      split at he
      · cases he
      · rename_i message hmessage
        exact ⟨message, hmessage⟩
    · rename_i token htoken
      rw [ih]
      have hfirst : ∀ message, input.random n ≠ .error message := by
        intro message hmessage
        rw [StoreInput.newCheckerToken, hmessage] at htoken
        cases htoken
      constructor
      · rintro ⟨i, hi, message, hmessage⟩
        exact ⟨i + 1, Nat.succ_lt_succ hi, message, by rwa [← Nat.add_assoc, Nat.add_right_comm]⟩
      · rintro ⟨i, hi, message, hmessage⟩
        cases i with
        | zero => exact absurd hmessage (hfirst message)
        | succ i =>
          exact ⟨i, Nat.lt_of_succ_lt_succ hi, message, by rwa [Nat.add_right_comm, Nat.add_assoc]⟩

/-- Behind its checks, `CreateAdminTeam` fails exactly if a token is missing. -/
theorem createAdminTeam_failed_iff {request : AdminCreateTeamRequest}
    {input : StoreInput} {id : Int}
    {joinKey : String} (h : CreatesTeam T request input s id joinKey) :
    (s.createAdminTeam T request input).failed = true ↔ s.tokenMissing input := by
  rcases createAdminTeam_cases T s request input with
    ⟨hrejected, -⟩ | ⟨id', joinKey', -, ⟨hc, -, hfailed⟩ | ⟨hc, -, hresult⟩⟩
  · exact absurd h (hrejected id joinKey)
  · exact iff_of_true hfailed ((joinChallenges_error_iff ..).mp hc)
  · have hcreated := Change.not_failed_of_result hresult
    refine iff_of_false (by rw [hcreated]; nofun) fun hmissing => ?_
    have hall := (not_congr (joinChallenges_error_iff ..)).mp (Bool.eq_false_iff.mp hc)
    exact hall hmissing

theorem teamStep_createAdminTeam {request : AdminCreateTeamRequest} {input : StoreInput} :
    TeamStep T s (.createAdminTeam request input)
      (s.createAdminTeam T request input).store.teamTable := by
  rcases createAdminTeam_cases T s request input with
    ⟨h, hstore, -⟩ | ⟨id, joinKey, h, ⟨-, hstore, hfailed⟩ | ⟨-, hstore, hresult⟩⟩
  · rw [hstore]
    exact .createRejected h
  · have hstep := TeamStep.created h
    rw [if_pos hfailed] at hstep
    rw [hstore, teamTable_eq accounts_joinChallenges]
    exact hstep
  · have hstep := TeamStep.created h
    rw [if_neg (by simp [Change.not_failed_of_result hresult])] at hstep
    rw [hstore, teamTable_withRow, teamTable_eq accounts_joinChallenges]
    exact hstep

theorem RenamesTeam.ok {p : Int} {request : ParticipantUpdateProfileRequest}
    {record : AdminPlayerRecord} {team : AdminTeam} (h : RenamesTeam T p request s record team) :
    s.updateTeamProfile T record.player request = .ok (s.renameTeam team record.player.teamID
      (trimSpace request.teamName) (trimSpace (T.toLower request.teamContactEmail))) := by
  have hfree := h.free
  rw [teamTaken] at hfree
  simp only [ne_eq, Option.some.injEq] at hfree
  rw [updateTeamProfile, if_neg (not_le.mpr h.member), h.found]
  dsimp only
  rw [if_neg (not_not.mpr h.captain), if_neg (not_or.mpr ⟨h.name, h.contact⟩), if_neg]
  simpa using hfree

/-- How the part about the team ends where it does not fail. -/
theorem updateTeamProfile_ok {player : AdminPlayer} {request : ParticipantUpdateProfileRequest}
    (h : s.updateTeamProfile T player request = .ok t) :
    (t = s ∧ (player.teamID ≤ 0 ∨ player.role ≠ .captain)) ∨
    ∃ team, 0 < player.teamID ∧ player.role = .captain ∧ s.teams.lookup player.teamID = some team ∧
      trimSpace request.teamName ≠ "" ∧ trimSpace (T.toLower request.teamContactEmail) ≠ "" ∧
      s.teamTaken T (trimSpace request.teamName) (trimSpace (T.toLower request.teamContactEmail))
        (some player.teamID) = false ∧
      t = s.renameTeam team player.teamID (trimSpace request.teamName)
        (trimSpace (T.toLower request.teamContactEmail)) := by
  unfold updateTeamProfile at h
  split at h
  · rename_i hteam
    cases h
    exact .inl ⟨rfl, .inl hteam⟩
  rename_i hteam
  split at h
  · cases h
  rename_i team hfound
  split at h
  · rename_i hrole
    cases h
    exact .inl ⟨rfl, .inr hrole⟩
  rename_i hrole
  dsimp only at h
  split at h
  · cases h
  rename_i hblank
  obtain ⟨hname, hcontact⟩ := not_or.mp hblank
  split at h
  · cases h
  rename_i hfree
  cases h
  refine .inr ⟨team, not_le.mp hteam, not_not.mp hrole, hfound, hname, hcontact, ?_, rfl⟩
  simpa [teamTaken] using hfree

theorem teamStep_updateParticipantProfile {p : Int} {request : ParticipantUpdateProfileRequest} :
    TeamStep T s (.updateParticipantProfile p request)
      (s.updateParticipantProfile T p request).store.teamTable := by
  unfold updateParticipantProfile
  split
  · rename_i hp
    refine .profileKept fun record team h => ?_
    have := h.player
    rw [hp] at this
    cases this
  rename_i record hp
  have hrecord : ∀ {other team}, RenamesTeam T p request s other team → other = record := by
    intro other team h
    exact Option.some.inj (h.player.symm.trans hp)
  dsimp only
  split
  · rename_i hrole
    refine .profileKept fun other team h => ?_
    have hcaptain := h.captain
    rw [hrecord h, hrole] at hcaptain
    cases hcaptain
  split
  · rename_i hblank
    refine .profileKept fun other team h => ?_
    exact hblank.elim h.display h.email
  rename_i hblank
  obtain ⟨hdisplay, hemail⟩ := not_or.mp hblank
  split
  · rename_i htaken
    refine .profileKept fun other team h => ?_
    rw [h.emailFree] at htaken
    cases htaken
  rename_i hfree
  split
  · rename_i e herror
    refine .profileKept fun other team h => ?_
    have hok := h.ok
    rw [hrecord h, herror] at hok
    cases hok
  rename_i renamed hrenamed
  have htable : ∀ record, (renamed.setPlayer p record).teamTable = renamed.teamTable := fun _ => rfl
  rw [htable]
  rcases updateTeamProfile_ok hrenamed with
    ⟨rfl, hother⟩ | ⟨team, hmember, hrole, hfound, hname, hcontact, htaken, rfl⟩
  · refine .profileKept fun other team h => ?_
    obtain rfl := hrecord h
    exact hother.elim (not_le.mpr h.member) (not_not.mpr h.captain)
  · exact .renamed ⟨hp, hrole, hdisplay, hemail, Bool.eq_false_of_not_eq_true hfree,
      hmember, hfound,
      hname, hcontact, htaken⟩

theorem teamStep_deleteAdminTeam {id : Int} :
    TeamStep T s (.deleteAdminTeam id) (s.deleteAdminTeam id).store.teamTable := by
  unfold deleteAdminTeam
  split
  · rename_i hteam
    exact .deleteMissing hteam
  · rename_i team hteam
    exact .deleted hteam

theorem teamStep_updateAdminTeam {id : Int} {request : AdminUpdateTeamRequest} :
    TeamStep T s (.updateAdminTeam id request)
      (s.updateAdminTeam T id request).store.teamTable := by
  unfold updateAdminTeam
  split
  · rename_i hteam
    exact .updateMissing hteam
  · rename_i team hteam
    exact .updated hteam

theorem teamStep_setTeamActive {id : Int} {active : Bool} :
    TeamStep T s (.setTeamActive id active) (s.setTeamActive id active).store.teamTable := by
  unfold setTeamActive
  split
  · rename_i hteam
    exact .activeMissing hteam
  rename_i team hteam
  cases active with
  | true => exact .activated hteam
  | false => exact .deactivated hteam

/-- The calls on players leave the teams alone. -/
theorem teamTable_exec {call : MemoryCall} (h : call.onTeams = false) :
    (s.exec T call).teamTable = s.teamTable := by
  cases call with
  | updateParticipantProfile | createAdminTeam | deleteAdminTeam | updateAdminTeam
  | setTeamActive =>
    cases h
  | listWireGuardGatewayPeers => rfl
  | registerPlayer request =>
    simp only [exec, registerPlayer]
    repeat' split
    all_goals rfl
  | createAdminPlayer request input =>
    simp only [exec, createAdminPlayer]
    repeat' split
    all_goals rfl
  | joinExistingPlayerTeam p teamKey input =>
    simp only [exec, joinExistingPlayerTeam]
    repeat' split
    all_goals rfl
  | transferTeamCaptain p q =>
    simp only [exec, transferTeamCaptain]
    repeat' split
    all_goals rfl
  | getAdminPlayerWireGuardConfig p input =>
    simp only [exec, getAdminPlayerWireGuardConfig]
    repeat' split
    all_goals rfl
  | rotateAdminPlayerWireGuardConfig p input =>
    simp only [exec, rotateAdminPlayerWireGuardConfig]
    repeat' split
    all_goals rfl
  | revokeAdminPlayerWireGuardConfig p now =>
    simp only [exec, revokeAdminPlayerWireGuardConfig]
    repeat' split
    all_goals rfl
  | deleteAdminPlayer p =>
    simp only [exec, deleteAdminPlayer]
    split <;> rfl
  | updateAdminPlayer p request =>
    simp only [exec, updateAdminPlayer]
    split <;> rfl
  | setPlayerActive p active =>
    simp only [exec, setPlayerActive]
    repeat' split
    all_goals rfl
  | createAdminChallenge | updateAdminChallenge | deleteAdminChallenge | setChallengeMaintenance
  | rotateChallengeUnlockProof | deployAdminChallenge | deleteAdminDeployment
  | reconcileAdminDeployments | requeueTeamServices | requeueChallengeServices | unlockService
  | createSSHSession | markSSHSessionApplyFailure | prepareFactoryResetService
  | completeFactoryResetService | markFactoryResetFailure | restartService | updatePlatformSettings
  | setActiveFlagFormat | setMatchStarted | setMatchPaused =>
    exact teamTable_eq (accounts_exec rfl)

/-- What a call does to the teams. -/
theorem teamStep_exec (T : CaseTable) (call : MemoryCall) (s : MemoryStore) :
    TeamStep T s call (s.exec T call).teamTable := by
  cases hcall : call.onTeams with
  | false => exact .of_eq hcall (teamTable_exec hcall)
  | true =>
    cases call with
    | updateParticipantProfile => exact teamStep_updateParticipantProfile
    | createAdminTeam => exact teamStep_createAdminTeam
    | deleteAdminTeam => exact teamStep_deleteAdminTeam
    | updateAdminTeam => exact teamStep_updateAdminTeam
    | setTeamActive => exact teamStep_setTeamActive
    | _ => cases hcall

end MemoryStore

end ADPlatform.APIGateway
