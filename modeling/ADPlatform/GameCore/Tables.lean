import ADPlatform.Lib.Table
import ADPlatform.GameCore.MemoryStore

/-! # The tables of the game

The tables that the scores depend on, and the statements and transactions on them: those of
`postgresGameStore` and those of the API gateway that create, delete and deactivate teams and
challenges. A transaction that fails leaves the tables as they were. `Constraints` are the primary
and foreign keys of the migrations; `submitted_flags` refers to its team only. -/

namespace ADPlatform.GameCore
open Table

/-- The rows of `game_ticks`. -/
structure TickTable where
  ticks : List GameTickStatus := []

namespace TickTable
variable (s : TickTable)

/-- `COALESCE(MAX(id), 0)`. -/
def maxID : Int := (s.ticks.map (·.id)).max?.getD 0

/-- `SELECT … FROM game_ticks ORDER BY id DESC LIMIT 1`; the id is the primary key. -/
def newest : Option GameTickStatus := s.ticks.find? (·.id = s.maxID)

/-- `postgresGameStore.StartNextTick`, one transaction that locks the table. -/
def startNextTick (now : Time) : TickTable × Except StoreError GameTickStatus :=
  if s.newest.any (·.status = .running) then (s, .error .tickInProgress)
  else
    let tick : GameTickStatus :=
      { id := s.maxID + 1, status := .running, startedAt := now.formatRFC3339 }
    ({ ticks := s.ticks ++ [tick] }, .ok tick)

/-- The `UPDATE` of `CompleteTick` at one row. -/
def completeRow (tick row : GameTickStatus) : GameTickStatus :=
  if row.id = tick.id then { row with
    status := tick.status
    totalCheckerRuns := tick.totalCheckerRuns
    successfulCheckerRuns := tick.successfulCheckerRuns
    failedCheckerRuns := tick.failedCheckerRuns
    skippedCheckerRuns := tick.skippedCheckerRuns
    completedAt := tick.completedAt
    message := tick.message }
  else row

/-- `postgresGameStore.CompleteTick`. -/
def completeTick (tick : GameTickStatus) : TickTable × Except StoreError GameTickStatus :=
  ({ ticks := s.ticks.map (completeRow tick) }, .ok tick)

/-- `postgresGameStore.ReapRunningTicks`. -/
def reapRunningTicks (now : Time) : TickTable × Nat :=
  ({ ticks := s.ticks.map (MemoryGameStore.reapTick now) }, s.ticks.countP (·.status = .running))

variable {s} in
theorem le_maxID {row : GameTickStatus} (h : row ∈ s.ticks) : row.id ≤ s.maxID := by
  have hmem : row.id ∈ s.ticks.map (·.id) := List.mem_map_of_mem h
  obtain ⟨m, hm⟩ := Option.isSome_iff_exists.mp (List.isSome_max?_of_mem hmem)
  rw [maxID, hm, Option.getD_some]
  exact (List.max?_eq_some_iff.mp hm).2 _ hmem

theorem maxID_map {f : GameTickStatus → GameTickStatus} (hid : ∀ row, (f row).id = row.id) :
    ({ ticks := s.ticks.map f } : TickTable).maxID = s.maxID := by
  simp only [maxID, List.map_map, Function.comp_def, hid]

/-- The tick after all others. -/
theorem maxID_next {tick : GameTickStatus} (htick : tick.id = s.maxID + 1) :
    ({ ticks := s.ticks ++ [tick] } : TickTable).maxID = s.maxID + 1 := by
  have hmax : ((s.ticks ++ [tick]).map (·.id)).max? = some tick.id := by
    refine List.max?_eq_some_iff.mpr ⟨by simp, fun id hid => ?_⟩
    obtain ⟨row, hrow, rfl⟩ := List.mem_map.mp hid
    rcases List.mem_append.mp hrow with hrow | hrow
    · have := s.le_maxID hrow
      omega
    · rw [List.mem_singleton.mp hrow]
  rw [maxID, hmax, Option.getD_some, htick]

theorem completeRow_id (tick row : GameTickStatus) : (completeRow tick row).id = row.id := by
  unfold completeRow
  split <;> rfl

end TickTable

/-- A row of `teams`. -/
structure TeamRecord where
  id : Int
  name : String
  active : Bool := true
  deriving DecidableEq, Repr

/-- A row of `challenges`. -/
structure ChallengeRecord where
  id : Int
  name : String
  maintenance : Bool := false
  playFromTick : Option Int := none
  deriving DecidableEq, Repr

/-- A row of `submitted_flags`. -/
structure SubmittedFlag where
  flag : String
  teamID : Int
  submittedAt : Time
  deriving DecidableEq, Repr

/-- The primary key of `submitted_flags`. -/
def SubmittedFlag.key (x : SubmittedFlag) : String × Int := (x.flag, x.teamID)

/-- A row of `checker_service_states`. -/
structure CheckerServiceState where
  key : CheckerRunGroupKey
  serviceState : String
  deriving DecidableEq, Repr

/-- A row of `scoreboard_entries`. -/
structure ScoreboardEntry (K : Type) where
  teamID : Int
  rank : Nat
  teamName : String
  attackPoints : K
  defensePoints : K
  slaPoints : K
  totalPoints : K
  delta : String
  deriving DecidableEq

/-- The core's tables, a list of rows each. -/
structure Database (K : Type) where
  teams : List TeamRecord := []
  challenges : List ChallengeRecord := []
  gameTicks : TickTable := {}
  issuedFlags : List IssuedFlagRecord := []
  submittedFlags : List SubmittedFlag := []
  checkerServiceStates : List CheckerServiceState := []
  attackEvents : List AttackEvent := []
  scoreboardEntries : List (ScoreboardEntry K) := []
  matchState : Option MatchState := none

namespace Database
variable {K : Type} (db : Database K)

/-- The ids of the teams. -/
def teamIDs : List Int := db.teams.map (·.id)

/-- The ids of the challenges. -/
def challengeIDs : List Int := db.challenges.map (·.id)

/-- The ids of the ticks. -/
def tickIDs : List Int := db.gameTicks.ticks.map (·.id)

/-- The insertions of `CreateAdminTeam`, with the id and the rank that it allocates. -/
def createAdminTeam [Zero K] (teamID : Int) (rank : Nat) (name : String) : Database K :=
  if teamID ∈ db.teamIDs then db
  else { db with
    teams := db.teams ++ [{ id := teamID, name }]
    scoreboardEntries := db.scoreboardEntries ++
      [{ teamID, rank, teamName := name, attackPoints := 0, defensePoints := 0, slaPoints := 0
         totalPoints := 0, delta := "new" }] }

/-- A challenge is taken if id and name are both new. -/
def createAdminChallenge (challengeID : Int) (name : String) : Database K :=
  if challengeID ∈ db.challengeIDs ∨ name ∈ db.challenges.map (·.name) then db
  else { db with challenges := db.challenges ++ [{ id := challengeID, name }] }

/-- `DELETE FROM teams`, with its cascades. -/
def deleteAdminTeam (teamID : Int) : Database K := { db with
  teams := db.teams.filter (·.id ≠ teamID)
  issuedFlags := db.issuedFlags.filter (·.ownerTeamID ≠ teamID)
  submittedFlags := db.submittedFlags.filter (·.teamID ≠ teamID)
  checkerServiceStates := db.checkerServiceStates.filter (·.key.teamID ≠ teamID)
  scoreboardEntries := db.scoreboardEntries.filter (·.teamID ≠ teamID) }

/-- `DELETE FROM challenges`, with its cascades. -/
def deleteAdminChallenge (challengeID : Int) : Database K := { db with
  challenges := db.challenges.filter (·.id ≠ challengeID)
  issuedFlags := db.issuedFlags.filter (·.challengeID ≠ challengeID)
  checkerServiceStates := db.checkerServiceStates.filter (·.key.challengeID ≠ challengeID) }

/-- A deactivated team also drops off the scoreboard. -/
def setTeamActive (teamID : Int) (active : Bool) : Database K := { db with
  teams := db.teams.map fun team => if team.id = teamID then { team with active } else team
  scoreboardEntries :=
    if active then db.scoreboardEntries else db.scoreboardEntries.filter (·.teamID ≠ teamID) }

/-- The `UPDATE` of a challenge that enters or leaves maintenance. -/
def updateChallengePlay (challengeID : Int) (maintenance : Bool) (playFromTick : Option Int) :
    Database K := { db with
  challenges := db.challenges.map fun challenge =>
    if challenge.id = challengeID then { challenge with maintenance, playFromTick } else challenge }

/-- `IssueFlag`: the foreign keys of a flag have to be there, and the first issue stays. -/
def issueFlag (flag : IssuedFlagRecord) : Database K :=
  if flag.ownerTeamID ∈ db.teamIDs ∧ flag.challengeID ∈ db.challengeIDs ∧
      flag.issuedTick ∈ db.tickIDs then
    { db with issuedFlags := insertNew (·.flag) flag db.issuedFlags }
  else db

/-- The upsert by which a checker run refreshes a service state. -/
def saveServiceState (state : CheckerServiceState) : Database K :=
  if state.key.teamID ∈ db.teamIDs ∧ state.key.challengeID ∈ db.challengeIDs ∧
      state.key.tickID ∈ db.tickIDs then
    { db with checkerServiceStates := upsert (·.key) state db.checkerServiceStates }
  else db

/-- The challenge is closed for submissions at a tick; `none` where it does not exist. -/
def blocked (challengeID currentTick : Int) : Option Bool :=
  (db.challenges.find? (·.id = challengeID)).map fun challenge =>
    challenge.maintenance || challenge.playFromTick.any (currentTick < ·)

/-- `postgresGameStore.AcceptFlagSubmission`. -/
def acceptFlagSubmission (crypto : Crypto) (submission : AcceptedFlagSubmission) :
    Database K × Except StoreError Bool :=
  let currentTick := db.gameTicks.maxID
  if db.matchState ≠ some .running then (db, .error .flagNoLongerValid)
  else if currentTick = 0 ∨ currentTick > submission.expiresTick then
    (db, .error .flagNoLongerValid)
  else if submission.challengeID > 0 ∧
      db.blocked submission.challengeID currentTick ≠ some false then
    (db, .error .flagNoLongerValid)
  else
    let submission := { submission with submissionTick := currentTick }
    let row : SubmittedFlag :=
      { flag := submission.flag, teamID := submission.submittingTeam
        submittedAt := submission.submittedAt }
    if row.key ∈ db.submittedFlags.map SubmittedFlag.key then (db, .ok false)
    else if row.teamID ∉ db.teamIDs then
      (db, .error (.failure "submitted_flags_team_id_fkey"))
    else if acceptedFlagAttackEventID crypto submission ∈ db.attackEvents.map (·.id) then
      (db, .error (.failure "attack_events_pkey"))
    else ({ db with
        submittedFlags := db.submittedFlags ++ [row]
        attackEvents := db.attackEvents ++ [attackEvent crypto submission] }, .ok true)

/-- The write transaction of `buildScoreboard`. An entry of a team that was deleted fails it. -/
def saveScoreboard (entries : List (ScoreboardEntry K)) : Database K :=
  if entries.all (·.teamID ∈ db.teamIDs) then
    { db with scoreboardEntries := (entries.foldl (fun rows entry => upsert (·.teamID) entry rows)
        db.scoreboardEntries).filter (·.teamID ∈ db.teamIDs) }
  else db

/-- The keys of the migrations. -/
structure Constraints : Prop where
  teams : db.teamIDs.Nodup
  challenges : db.challengeIDs.Nodup
  issuedFlags : (db.issuedFlags.map (·.flag)).Nodup
  submittedFlags : (db.submittedFlags.map SubmittedFlag.key).Nodup
  checkerServiceStates : (db.checkerServiceStates.map (·.key)).Nodup
  scoreboardEntries : (db.scoreboardEntries.map (·.teamID)).Nodup
  issuedFlag_ref : ∀ f ∈ db.issuedFlags, f.ownerTeamID ∈ db.teamIDs ∧
    f.challengeID ∈ db.challengeIDs
  submittedFlag_ref : ∀ x ∈ db.submittedFlags, x.teamID ∈ db.teamIDs
  serviceState_ref : ∀ x ∈ db.checkerServiceStates, x.key.teamID ∈ db.teamIDs ∧
    x.key.challengeID ∈ db.challengeIDs
  scoreboardEntry_ref : ∀ x ∈ db.scoreboardEntries, x.teamID ∈ db.teamIDs

end Database

/-- A transaction on the tables. -/
inductive Transaction (K : Type) where
  | createAdminTeam (teamID : Int) (rank : Nat) (name : String)
  | createAdminChallenge (challengeID : Int) (name : String)
  | deleteAdminTeam (teamID : Int)
  | deleteAdminChallenge (challengeID : Int)
  | setTeamActive (teamID : Int) (active : Bool)
  | updateChallengePlay (challengeID : Int) (maintenance : Bool) (playFromTick : Option Int)
  | startNextTick (now : Time)
  | completeTick (tick : GameTickStatus)
  | saveMatchState (state : MatchState)
  | issueFlag (flag : IssuedFlagRecord)
  | saveServiceState (state : CheckerServiceState)
  | acceptFlagSubmission (submission : AcceptedFlagSubmission)
  | saveScoreboard (entries : List (ScoreboardEntry K))

/-- The tables after a transaction. -/
def Transaction.exec {K : Type} [Zero K] (crypto : Crypto) (db : Database K) :
    Transaction K → Database K
  | createAdminTeam teamID rank name => db.createAdminTeam teamID rank name
  | createAdminChallenge challengeID name => db.createAdminChallenge challengeID name
  | deleteAdminTeam teamID => db.deleteAdminTeam teamID
  | deleteAdminChallenge challengeID => db.deleteAdminChallenge challengeID
  | setTeamActive teamID active => db.setTeamActive teamID active
  | updateChallengePlay challengeID maintenance playFromTick =>
    db.updateChallengePlay challengeID maintenance playFromTick
  | startNextTick now => { db with gameTicks := (db.gameTicks.startNextTick now).1 }
  | completeTick tick => { db with gameTicks := (db.gameTicks.completeTick tick).1 }
  | saveMatchState state => { db with matchState := some state }
  | issueFlag flag => db.issueFlag flag
  | saveServiceState state => db.saveServiceState state
  | acceptFlagSubmission submission => (db.acceptFlagSubmission crypto submission).1
  | saveScoreboard entries => db.saveScoreboard entries

/-- The tables after a run of transactions. -/
def Database.run {K : Type} [Zero K] (crypto : Crypto) (db : Database K)
    (ts : List (Transaction K)) : Database K :=
  ts.foldl (Transaction.exec crypto) db

namespace Database
variable {K : Type} {db : Database K}

theorem Constraints.createAdminTeam [Zero K] (h : db.Constraints) {teamID : Int} {rank : Nat}
    {name : String} : (db.createAdminTeam teamID rank name).Constraints := by
  unfold Database.createAdminTeam
  split
  · exact h
  rename_i hid
  generalize hteam : ({ id := teamID, name } : TeamRecord) = team
  have hteamID : team.id = teamID := by rw [← hteam]
  have hmono : ∀ id ∈ db.teamIDs, id ∈ (db.teams ++ [team]).map (·.id) := fun id hid => by
    rw [List.map_append]
    exact List.mem_append_left _ hid
  exact { h with
    teams := nodup_concat h.teams (hteamID ▸ hid)
    scoreboardEntries := nodup_concat h.scoreboardEntries fun hmem => by
      obtain ⟨x, hx, rfl⟩ := List.mem_map.mp hmem
      exact hid (h.scoreboardEntry_ref x hx)
    issuedFlag_ref := fun f hf => ⟨hmono _ (h.issuedFlag_ref f hf).1, (h.issuedFlag_ref f hf).2⟩
    submittedFlag_ref := fun x hx => hmono _ (h.submittedFlag_ref x hx)
    serviceState_ref :=
      fun x hx => ⟨hmono _ (h.serviceState_ref x hx).1, (h.serviceState_ref x hx).2⟩
    scoreboardEntry_ref := fun x hx => by
      rcases List.mem_append.mp hx with hx | hx
      · exact hmono _ (h.scoreboardEntry_ref x hx)
      · rw [List.mem_singleton.mp hx]
        simp [teamIDs, hteamID] }

theorem Constraints.createAdminChallenge (h : db.Constraints) {challengeID : Int} {name : String} :
    (db.createAdminChallenge challengeID name).Constraints := by
  unfold Database.createAdminChallenge
  split
  · exact h
  rename_i hid
  generalize hchallenge : ({ id := challengeID, name } : ChallengeRecord) = challenge
  have hchallengeID : challenge.id = challengeID := by rw [← hchallenge]
  have hmono : ∀ id ∈ db.challengeIDs, id ∈ (db.challenges ++ [challenge]).map (·.id) :=
    fun id hid => by
      rw [List.map_append]
      exact List.mem_append_left _ hid
  exact { h with
    challenges := nodup_concat h.challenges fun hmem => hid (.inl (hchallengeID ▸ hmem))
    issuedFlag_ref := fun f hf => ⟨(h.issuedFlag_ref f hf).1, hmono _ (h.issuedFlag_ref f hf).2⟩
    serviceState_ref := fun x hx =>
      ⟨(h.serviceState_ref x hx).1, hmono _ (h.serviceState_ref x hx).2⟩ }

theorem Constraints.deleteAdminTeam (h : db.Constraints) {teamID : Int} :
    (db.deleteAdminTeam teamID).Constraints := by
  have hkept : ∀ id ∈ db.teamIDs, id ≠ teamID →
      id ∈ (db.teams.filter fun team => team.id ≠ teamID).map TeamRecord.id :=
    fun id hid hne => mem_keys_filter_ne.mpr ⟨hid, hne⟩
  refine ⟨nodup_filter h.teams, h.challenges, nodup_filter h.issuedFlags,
    nodup_filter h.submittedFlags, nodup_filter h.checkerServiceStates,
    nodup_filter h.scoreboardEntries, fun f hf => ?_, fun x hx => ?_, fun x hx => ?_,
    fun x hx => ?_⟩
  · obtain ⟨hf, hne⟩ := List.mem_filter.mp hf
    exact ⟨hkept _ (h.issuedFlag_ref f hf).1 (by simpa using hne), (h.issuedFlag_ref f hf).2⟩
  · obtain ⟨hx, hne⟩ := List.mem_filter.mp hx
    exact hkept _ (h.submittedFlag_ref x hx) (by simpa using hne)
  · obtain ⟨hx, hne⟩ := List.mem_filter.mp hx
    exact ⟨hkept _ (h.serviceState_ref x hx).1 (by simpa using hne), (h.serviceState_ref x hx).2⟩
  · obtain ⟨hx, hne⟩ := List.mem_filter.mp hx
    exact hkept _ (h.scoreboardEntry_ref x hx) (by simpa using hne)

theorem Constraints.deleteAdminChallenge (h : db.Constraints) {challengeID : Int} :
    (db.deleteAdminChallenge challengeID).Constraints := by
  have hkept : ∀ id ∈ db.challengeIDs, id ≠ challengeID →
      id ∈ (db.challenges.filter fun c => c.id ≠ challengeID).map ChallengeRecord.id :=
    fun id hid hne => mem_keys_filter_ne.mpr ⟨hid, hne⟩
  exact { h with
    challenges := nodup_filter h.challenges
    issuedFlags := nodup_filter h.issuedFlags
    checkerServiceStates := nodup_filter h.checkerServiceStates
    issuedFlag_ref := fun f hf => by
      obtain ⟨hf, hne⟩ := List.mem_filter.mp hf
      exact ⟨(h.issuedFlag_ref f hf).1, hkept _ (h.issuedFlag_ref f hf).2 (by simpa using hne)⟩
    serviceState_ref := fun x hx => by
      obtain ⟨hx, hne⟩ := List.mem_filter.mp hx
      exact ⟨(h.serviceState_ref x hx).1, hkept _ (h.serviceState_ref x hx).2 (by
        simpa using hne)⟩ }

theorem teamIDs_setTeamActive {teamID : Int} {active : Bool} :
    (db.setTeamActive teamID active).teamIDs = db.teamIDs := by
  simp only [teamIDs, setTeamActive, List.map_map]
  refine List.map_congr_left fun team _ => ?_
  simp only [Function.comp_apply]
  split <;> rfl

theorem Constraints.setTeamActive (h : db.Constraints) {teamID : Int} {active : Bool} :
    (db.setTeamActive teamID active).Constraints := by
  have hids : (db.setTeamActive teamID active).teamIDs = db.teamIDs := teamIDs_setTeamActive
  refine ⟨?_, h.challenges, h.issuedFlags, h.submittedFlags, h.checkerServiceStates, ?_, ?_, ?_,
    ?_, ?_⟩
  · rw [hids]
    exact h.teams
  · simp only [Database.setTeamActive]
    split
    · exact h.scoreboardEntries
    · exact nodup_filter h.scoreboardEntries
  · rw [hids]
    exact h.issuedFlag_ref
  · rw [hids]
    exact h.submittedFlag_ref
  · rw [hids]
    exact h.serviceState_ref
  · rw [hids]
    intro x hx
    simp only [Database.setTeamActive] at hx
    split at hx
    · exact h.scoreboardEntry_ref x hx
    · exact h.scoreboardEntry_ref x (List.mem_of_mem_filter hx)

theorem Constraints.updateChallengePlay (h : db.Constraints) {challengeID : Int}
    {maintenance : Bool} {playFromTick : Option Int} :
    (db.updateChallengePlay challengeID maintenance playFromTick).Constraints := by
  have hids : (db.updateChallengePlay challengeID maintenance playFromTick).challengeIDs
      = db.challengeIDs := by
    simp only [challengeIDs, Database.updateChallengePlay, List.map_map]
    refine List.map_congr_left fun challenge _ => ?_
    simp only [Function.comp_apply]
    split <;> rfl
  exact { h with
    challenges := by rw [hids]; exact h.challenges
    issuedFlag_ref := by rw [hids]; exact h.issuedFlag_ref
    serviceState_ref := by rw [hids]; exact h.serviceState_ref }

theorem Constraints.issueFlag (h : db.Constraints) {flag : IssuedFlagRecord} :
    (db.issueFlag flag).Constraints := by
  unfold Database.issueFlag
  split
  · rename_i href
    exact { h with
      issuedFlags := nodup_insertNew h.issuedFlags
      issuedFlag_ref := fun f hf => by
        rcases mem_of_mem_insertNew hf with hf | rfl
        · exact h.issuedFlag_ref f hf
        · exact ⟨href.1, href.2.1⟩ }
  · exact h

theorem Constraints.saveServiceState (h : db.Constraints) {state : CheckerServiceState} :
    (db.saveServiceState state).Constraints := by
  unfold Database.saveServiceState
  split
  · rename_i href
    exact { h with
      checkerServiceStates := nodup_upsert h.checkerServiceStates
      serviceState_ref := fun x hx => by
        rcases mem_upsert.mp hx with ⟨hx, -⟩ | rfl
        · exact h.serviceState_ref x hx
        · exact ⟨href.1, href.2.1⟩ }
  · exact h

/-- What an accepted submission changes. -/
theorem acceptFlagSubmission_cases (db : Database K) (crypto : Crypto)
    (x : AcceptedFlagSubmission) :
    (db.acceptFlagSubmission crypto x).1 = db ∨ ∃ row : SubmittedFlag,
      row.flag = x.flag ∧ row.teamID = x.submittingTeam ∧ row.teamID ∈ db.teamIDs ∧
      row.key ∉ db.submittedFlags.map SubmittedFlag.key ∧
      ∃ event, (db.acceptFlagSubmission crypto x).1 = { db with
        submittedFlags := db.submittedFlags ++ [row]
        attackEvents := db.attackEvents ++ [event] } := by
  unfold acceptFlagSubmission
  dsimp only
  split
  · exact .inl rfl
  split
  · exact .inl rfl
  split
  · exact .inl rfl
  split
  · exact .inl rfl
  split
  · exact .inl rfl
  split
  · exact .inl rfl
  · exact .inr ⟨_, rfl, rfl, not_not.mp ‹_›, ‹_›, _, rfl⟩

theorem Constraints.acceptFlagSubmission (h : db.Constraints) {crypto : Crypto}
    {x : AcceptedFlagSubmission} : (db.acceptFlagSubmission crypto x).1.Constraints := by
  rcases acceptFlagSubmission_cases db crypto x with heq | ⟨row, -, -, hteam, hnew, e, heq⟩
  · rw [heq]
    exact h
  · rw [heq]
    exact { h with
      submittedFlags := nodup_concat h.submittedFlags hnew
      submittedFlag_ref := fun y hy => by
        rcases List.mem_append.mp hy with hy | hy
        · exact h.submittedFlag_ref y hy
        · rw [List.mem_singleton.mp hy]
          exact hteam }

theorem Constraints.saveScoreboard (h : db.Constraints) {entries : List (ScoreboardEntry K)} :
    (db.saveScoreboard entries).Constraints := by
  unfold Database.saveScoreboard
  split
  · exact { h with
      scoreboardEntries := nodup_filter (nodup_foldl_upsert h.scoreboardEntries)
      scoreboardEntry_ref := fun x hx => of_decide_eq_true (List.mem_filter.mp hx).2 }
  · exact h

variable [Zero K] {crypto : Crypto}

/-- No transaction breaks a key. -/
theorem Constraints.exec (h : db.Constraints) (t : Transaction K) :
    (t.exec crypto db).Constraints := by
  cases t with
  | createAdminTeam => exact h.createAdminTeam
  | createAdminChallenge => exact h.createAdminChallenge
  | deleteAdminTeam => exact h.deleteAdminTeam
  | deleteAdminChallenge => exact h.deleteAdminChallenge
  | setTeamActive => exact h.setTeamActive
  | updateChallengePlay => exact h.updateChallengePlay
  | startNextTick | completeTick | saveMatchState => exact { h with }
  | issueFlag => exact h.issueFlag
  | saveServiceState => exact h.saveServiceState
  | acceptFlagSubmission => exact h.acceptFlagSubmission
  | saveScoreboard => exact h.saveScoreboard

/-- The keys hold after every run. -/
theorem Constraints.run (h : db.Constraints) (ts : List (Transaction K)) :
    (db.run crypto ts).Constraints := by
  induction ts generalizing db with
  | nil => exact h
  | cons t ts ih => exact ih (h.exec t)

end Database

end ADPlatform.GameCore
