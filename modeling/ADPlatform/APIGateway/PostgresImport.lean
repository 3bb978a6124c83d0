import ADPlatform.APIGateway.BulkImport
import ADPlatform.APIGateway.PostgresStore
import ADPlatform.Lib.Runs
import ADPlatform.Lib.Transactions
import Mathlib.Data.List.Infix
import Mathlib.Data.List.ReduceOption

/-! # The import of teams into the database

`ImportAdminTeams` of the postgres store. A row is a transaction for the team and one for each of
its players; when a player cannot be created, the team is deleted again, in a call that may fail
like any other. A row is kept in whole or not at all, unless that deletion fails
(`importAdminTeams_atomic_iff`). -/

namespace ADPlatform.APIGateway
open GameCore (Stamp)
open Text Transactions Transactions.Program

/-- A row of `players`. -/
structure RegistryPlayerRow where
  id : Int
  teamID : Option Int
  displayName : String
  email : String
  passwordHash : String
  role : Role
  wireguardPeer : String
  createdAt : Stamp
  active : Bool := true
  deriving DecidableEq, Repr

/-- The tables that the creation of teams and players reads and writes. -/
structure RegistryTables where
  teams : List AdminTeam := []
  challenges : List AdminChallenge := []
  scoreboardEntries : List ScoreboardEntry := []
  teamServiceStates : List ServiceState := []
  serviceInstances : List ServiceInstanceRecord := []
  players : List RegistryPlayerRow := []
  wireguardPeers : List WireGuardPeerState := []
  /-- `max_team_members` of the row in `platform_settings` -/
  maxTeamMembers : Option Int := none

/-- The sequences the import draws from; a rollback does not give their values back. -/
structure RegistrySequences where
  scoreboardRank : Int := 1
  players : Int := 1

/-- A database program over the registry's tables, whose errors are texts. -/
abbrev RegistryProgram := Program RegistryTables RegistrySequences String

/-- The surroundings of the creation of a player. -/
structure PlayerInput extends WireGuardInput where
  hashPassword : String → Except String String := .ok

/-- `isBadConnectionError`: the driver's text names a bad connection. -/
def isBadConnectionError (e : String) : Bool := "bad connection".toList <:+: (toLower e).toList

namespace RegistryTables

/-- The text of a unique violation. -/
def duplicateKey : String := "duplicate key value violates unique constraint"

/-- `INSERT` into a table with unique columns. -/
def insertNew {ρ : Type} (clash : ρ → ρ → Bool) (row : ρ) (rows : List ρ) :
    Except String (List ρ) :=
  if rows.any (clash row) then .error duplicateKey else .ok (rows ++ [row])

/-- A team is taken if id, email and join key are all new. -/
def insertTeam (team : AdminTeam) (t : RegistryTables) : Except String RegistryTables :=
  (insertNew
    (fun a b => a.id = b.id || a.contactEmail = b.contactEmail || a.joinKey = b.joinKey) team
    t.teams).map fun teams => { t with teams }

/-- One scoreboard row a team. -/
def insertScoreboardEntry (entry : ScoreboardEntry) (t : RegistryTables) :
    Except String RegistryTables :=
  (insertNew (fun a b => a.teamID = b.teamID) entry t.scoreboardEntries).map
    fun scoreboardEntries => { t with scoreboardEntries }

/-- One state a service. -/
def insertServiceState (state : ServiceState) (t : RegistryTables) : Except String RegistryTables :=
  (insertNew (fun a b => a.key = b.key) state t.teamServiceStates).map fun teamServiceStates =>
    { t with teamServiceStates }

/-- One runtime row a service. -/
def insertServiceInstance (i : ServiceInstanceRecord) (t : RegistryTables) :
    Except String RegistryTables :=
  (insertNew (fun a b => a.key = b.key) i t.serviceInstances).map fun serviceInstances =>
    { t with serviceInstances }

/-- A player is taken if id, email and peer name are all new. -/
def insertPlayer (player : RegistryPlayerRow) (t : RegistryTables) : Except String RegistryTables :=
  (insertNew
    (fun a b => a.id = b.id || a.email = b.email || a.wireguardPeer = b.wireguardPeer) player
    t.players).map fun players => { t with players }

/-- One peer a player, one player an address. -/
def insertWireGuardPeer (state : WireGuardPeerState) (t : RegistryTables) :
    Except String RegistryTables :=
  (insertNew (fun a b => a.playerID = b.playerID || a.address = b.address) state
    t.wireguardPeers).map fun wireguardPeers => { t with wireguardPeers }

/-- `DELETE FROM teams WHERE id = $1`, and what belongs to the team. -/
def deleteTeam (teamID : Int) (t : RegistryTables) : Except String RegistryTables :=
  if t.teams.all fun team => team.id ≠ teamID then .error StoreError.teamNotFound.text
  else .ok { t with
    teams := t.teams.filter fun team => team.id ≠ teamID
    scoreboardEntries := t.scoreboardEntries.filter fun entry => entry.teamID ≠ teamID
    teamServiceStates := t.teamServiceStates.filter fun state => state.teamID ≠ teamID
    serviceInstances := t.serviceInstances.filter fun i => i.teamID ≠ teamID
    players := t.players.filter fun player => player.teamID ≠ some teamID
    wireguardPeers := t.wireguardPeers.filter fun peer =>
      t.players.all fun player => player.id ≠ peer.playerID || player.teamID ≠ some teamID }

/-- The published challenges, in the order of their ids. -/
def publishedChallenges (t : RegistryTables) : List AdminChallenge :=
  (t.challenges.filter (·.published)).insertionSort fun a b => a.id ≤ b.id

end RegistryTables

section
variable (F : Faults String) (T : CaseTable)

/-! ## Calls -/

/-- `fmt.Errorf("…: %w", err)` -/
def wrap (context : String) (m : RegistryProgram α) : RegistryProgram α :=
  m.mapError (context ++ ": " ++ ·)

/-- The program fails with the store error's text. -/
def failWith (e : StoreError) : RegistryProgram α := fail e.text

/-- A computed result as a step of the program. -/
def ofStoreExcept (r : Except StoreError α) : RegistryProgram α :=
  ofExcept (r.mapError StoreError.text)

/-- A call that only has to succeed: one that opens, locks or commits. -/
def signal : RegistryProgram Unit := query F fun _ => .ok ()

/-- `beginTx`: tried again on a bad connection. -/
def beginTx : RegistryProgram Unit := retry isBadConnectionError fun _ => signal F

/-- `queryRowScan`: one row read, tried again on a bad connection. -/
def queryRowScan (f : RegistryTables → Except String α) : RegistryProgram α :=
  retry isBadConnectionError fun _ => query F f

/-! ## Teams -/

/-- `allocateTeamNetworkIDTx`: the first free id. -/
def allocateTeamNetworkIDTx : RegistryProgram Int := do
  signal F
  query F fun t => match teamNetworkIDs.find? fun id => id ∉ t.teams.map (·.id) with
    | some id => .ok id
    | none => .error StoreError.teamAddressPool.text

/-- The services of a new team, from the `i`-th token on. -/
def deployPublished (input : StoreInput) (teamID : Int) :
    Nat → List AdminChallenge → RegistryProgram Unit
  | _, [] => pure ()
  | i, challenge :: challenges => do
    let checkerToken ← ofStoreExcept (input.newCheckerToken i)
    wrap ("insert team service state for challenge " ++ challenge.id.repr) <| exec F <|
      RegistryTables.insertServiceState
        (challenge.configColumns.stateRow teamID "baseline deployment queued by team join")
    wrap ("insert service instance for challenge " ++ challenge.id.repr) <| exec F <|
      RegistryTables.insertServiceInstance
        (challenge.configColumns.instanceRow teamID none checkerToken input.now.formatRFC3339)
    deployPublished input teamID (i + 1) challenges

/-- The transaction of `CreateAdminTeam`. -/
def createTeamTx (name contactEmail : String) (input : StoreInput) : RegistryProgram AdminTeam := do
  let id ← wrap "allocate team id" (allocateTeamNetworkIDTx F)
  let joinKey ← wrap "generate team join key" (ofStoreExcept (input.newTeamJoinKey 0))
  wrap "insert team" <| exec F <| RegistryTables.insertTeam { id, name, contactEmail, joinKey }
  let rank ← wrap "allocate scoreboard rank" <|
    nextval F fun seq => (seq.scoreboardRank, { seq with scoreboardRank := seq.scoreboardRank + 1 })
  wrap "insert scoreboard row" <| exec F <|
    RegistryTables.insertScoreboardEntry { teamID := id, rank, teamName := name, delta := "new" }
  let challenges ← wrap "query published challenges for new team" <|
    query F fun t => .ok t.publishedChallenges
  wrap "iterate published challenges for new team" (signal F)
  deployPublished F input id 1 challenges
  wrap "commit create team tx" (signal F)
  return { id, name, contactEmail, joinKey, deployedChallenges := challenges.length }

/-- One attempt of `CreateAdminTeam`. -/
def attemptTeam (request : AdminCreateTeamRequest) (input : StoreInput) :
    RegistryProgram AdminTeam :=
  let name := trimSpace request.name
  let contactEmail := trimSpace (T.toLower request.contactEmail)
  if name = "" ∨ contactEmail = "" then failWith .duplicateResource
  else do
    let duplicate ← wrap "check team duplicate" <| queryRowScan F fun t =>
      .ok <| t.teams.any fun team =>
        T.sqlLower team.name = T.sqlLower name ||
          T.sqlLower team.contactEmail = T.sqlLower contactEmail
    if duplicate then failWith .duplicateResource
    else do
      wrap "begin create team tx" (beginTx F)
      transaction (createTeamTx F name contactEmail input)

/-- `CreateAdminTeam`: the whole transaction is tried again on a bad connection. -/
def createAdminTeam (request : AdminCreateTeamRequest) (input : Nat → StoreInput) :
    RegistryProgram AdminTeam :=
  retry isBadConnectionError fun attempt => attemptTeam F T request (input attempt)

/-- `DeleteAdminTeam`. -/
def deleteAdminTeam (teamID : Int) : RegistryProgram Unit :=
  exec F (RegistryTables.deleteTeam teamID)

/-! ## Players -/

/-- `lookupTeamName`: team 0 is the organizers. -/
def lookupTeamName (teamID : Int) : RegistryProgram String :=
  if teamID = 0 then pure "Organizer"
  else queryRowScan F fun t => match t.teams.find? fun team => team.id = teamID with
    | some team => .ok team.name
    | none => .error StoreError.teamNotFound.text

/-- `teamMemberLimitReachedTx`. -/
def teamMemberLimitReachedTx (teamID : Int) : RegistryProgram Bool :=
  if teamID ≤ 0 then pure false
  else do
    let limit ← query F fun t => .ok (t.maxTeamMembers.getD 0)
    if limit ≤ 0 then pure false
    else query F fun t => .ok (limit ≤ (t.players.countP fun player => player.teamID = some teamID))

/-- `teamHasActiveCaptainTx`. -/
def teamHasActiveCaptainTx (teamID : Int) : RegistryProgram Bool :=
  if teamID ≤ 0 then pure false
  else query F fun t => .ok <| t.players.any fun player =>
    player.teamID = some teamID && player.active && player.role = .captain

/-- The role that a new member of the team gets, if there is room. -/
def admitMember (teamID : Int) (role : Role) : RegistryProgram Role := do
  query F fun t => if t.teams.any fun team => team.id = teamID then .ok ()
    else .error StoreError.teamNotFound.text
  let limited ← teamMemberLimitReachedTx F teamID
  if limited then failWith .teamMemberLimit
  else if role = .member then do
    let hasCaptain ← teamHasActiveCaptainTx F teamID
    pure (if hasCaptain then role else .captain)
  else pure role

/-- `allocateWireGuardPeerAddressTx`: the first address of the pool that no peer has. -/
def allocateWireGuardPeerAddressTx : RegistryProgram String := do
  signal F
  query F fun t =>
    match ((List.range wireGuardPeerAddressPoolSize).map wireGuardPeerAddressAt).find?
        fun address => t.wireguardPeers.all fun peer => peer.address ≠ address with
    | some address => .ok address
    | none => .error StoreError.playerAddressPool.text

/-- The player with a new peer. -/
def issuePeerTx (player : AdminPlayer) (input : WireGuardInput) : RegistryProgram AdminPlayer := do
  let address ← allocateWireGuardPeerAddressTx F
  let state ← ofStoreExcept (input.newWireGuardPeerState player.id player.teamID player.teamName
    player.displayName player.wireGuardPeer address)
  exec F (RegistryTables.insertWireGuardPeer state)
  return { player with
    wireGuardAddress := state.address
    wireGuardStatus := state.status
    wireGuardIssuedAt := state.issuedAt }

/-- The transaction of `CreateAdminPlayer`. -/
def createPlayerTx (request : AdminCreatePlayerRequest) (teamName email : String)
    (input : PlayerInput) :
    RegistryProgram AdminPlayer := do
  let role ← if request.teamID > 0 then admitMember F request.teamID (normalizedRole request.role)
    else pure (normalizedRole request.role)
  let id ← nextval F fun seq => (seq.players, { seq with players := seq.players + 1 })
  let player : AdminPlayer := {
    id, teamID := request.teamID, teamName, email, role
    displayName := trimSpace request.displayName
    wireGuardPeer := wireguardPeerName request.teamID id
    createdAt := input.now.formatRFC3339 }
  let passwordHash ← ofExcept (input.hashPassword request.password)
  exec F <| RegistryTables.insertPlayer {
    id, passwordHash, email, role
    teamID := if player.teamID > 0 then some player.teamID else none
    displayName := player.displayName
    wireguardPeer := player.wireGuardPeer
    createdAt := player.createdAt }
  let player ←
    if player.teamID > 0 ∨ role = .organizer then issuePeerTx F player input.toWireGuardInput
    else pure player
  signal F
  return player

/-- `CreateAdminPlayer`: checked, then written in one transaction. -/
def createAdminPlayer (request : AdminCreatePlayerRequest) (input : PlayerInput) :
    RegistryProgram AdminPlayer :=
  if !validPassword request.password then failWith .invalidCredentials
  else do
    let teamName ← if request.teamID = 0 then
        pure (if normalizedRole request.role = .organizer then "Organizer" else "")
      else lookupTeamName F request.teamID
    let email := trimSpace (T.toLower request.email)
    let duplicate ← queryRowScan F fun t => .ok <| t.players.any fun player =>
      T.sqlLower player.email = T.sqlLower email
    if duplicate then failWith .duplicateResource
    else do
      beginTx F
      transaction (createPlayerTx F request teamName email input)

/-! ## Imports -/

/-- The surroundings of the calls for the team of each row, which may be made twice, and for each of
its players. -/
structure RegistryInput where
  team : Nat → Nat → StoreInput
  player : Nat → Nat → PlayerInput

/-- The players of a team, from the `i`-th on. -/
def importPlayers (teamID : Int) (input : Nat → PlayerInput) :
    Nat → List AdminCreatePlayerRequest → RegistryProgram (List AdminPlayer)
  | _, [] => pure []
  | i, request :: requests => do
    let player ← createAdminPlayer F T { request with teamID } (input i)
    let players ← importPlayers teamID input (i + 1) requests
    return player :: players

/-- `importOneTeam`: the team is deleted again if a player of it fails. -/
def importOneTeam (name contactEmail : String) (requests : List AdminCreatePlayerRequest)
    (team : Nat → StoreInput) (players : Nat → PlayerInput) :
    RegistryProgram (AdminTeam × List AdminPlayer) := do
  let team ← createAdminTeam F T { name, contactEmail } team
  let created ← orUndo (importPlayers F T team.id players 0 requests) (deleteAdminTeam F team.id)
  return (team, created)

/-- The database and the result so far. -/
abbrev Importing := Session RegistryTables RegistrySequences × AdminBulkImportResult

/-- The loop body of the import, on the session that the last row left. -/
def importRow (input : RegistryInput) (entry : AdminBulkImportTeam × Nat) (acc : Importing) :
    Importing :=
  let (row, index) := entry
  let (s, result) := acc
  let name := trimSpace row.name
  let contactEmail := trimSpace row.contactEmail
  let rowName := "row " ++ (index + 1).repr
  if name = "" ∨ contactEmail = "" then
    (s, result.fail (rowName ++ ": team name and contact_email are required"))
  else match importRequests index 0 row.players with
  | .error message => (s, result.fail message)
  | .ok requests =>
    match importOneTeam F T name contactEmail requests (input.team index) (input.player index)
        s with
    | (.error e, s) => (s, result.fail (rowName ++ " (" ++ name ++ "): " ++ e))
    | (.ok (team, players), s) =>
      (s, { result with
        teamsCreated := result.teamsCreated + 1
        playersCreated := result.playersCreated + players.length
        teams := result.teams ++ [team]
        players := result.players ++ players })

/-- `ImportAdminTeams` over the database. -/
def importAdminTeams (input : RegistryInput) (rows : List AdminBulkImportTeam)
    (s : Session RegistryTables RegistrySequences) : Importing :=
  Runs.run (importRow F T input) (s, {}) rows.zipIdx

end

/-! ## What a program leaves -/

section
variable {F : Faults String} {T : CaseTable} {r : RegistryTables} {name contactEmail : String}
  {teamID : Int}

theorem reads_beginTx : Reads (beginTx F) := .retry fun _ => reads_query

theorem reads_queryRowScan {f : RegistryTables → Except String α} : Reads (queryRowScan F f) :=
  .retry fun _ => reads_query

theorem reads_ofStoreExcept {e : Except StoreError α} : Reads (ofStoreExcept e) := reads_ofExcept

/-- The rows of teams and players. -/
def Holds (teams : List AdminTeam) (players : List RegistryPlayerRow) (t : RegistryTables) : Prop :=
  t.teams = teams ∧ t.players = players

variable {teams : List AdminTeam} {players : List RegistryPlayerRow}

/-- The tables that an import writes besides the ones of teams and players. -/
theorem ensures_exec_holds {f : RegistryTables → Except String RegistryTables}
    (h : ∀ t t', f t = .ok t' → t'.teams = t.teams ∧ t'.players = t.players) :
    Ensures (Holds teams players) (exec F f : RegistryProgram Unit) fun _ => Holds teams players :=
  ensures_exec fun t ht t' hf => ⟨(h t t' hf).1.trans ht.1, (h t t' hf).2.trans ht.2⟩

theorem reads_holds {m : RegistryProgram α} (h : Reads m) :
    Ensures (Holds teams players) m fun _ => Holds teams players :=
  h.ensures fun _ _ ht => ht

theorem holds_insertScoreboardEntry {entry : ScoreboardEntry} (t t' : RegistryTables)
    (h : t.insertScoreboardEntry entry = .ok t') : t'.teams = t.teams ∧ t'.players = t.players := by
  unfold RegistryTables.insertScoreboardEntry RegistryTables.insertNew at h
  split at h
  · cases h
  · cases h
    exact ⟨rfl, rfl⟩

theorem holds_insertServiceState {state : ServiceState} (t t' : RegistryTables)
    (h : t.insertServiceState state = .ok t') : t'.teams = t.teams ∧ t'.players = t.players := by
  unfold RegistryTables.insertServiceState RegistryTables.insertNew at h
  split at h
  · cases h
  · cases h
    exact ⟨rfl, rfl⟩

theorem holds_insertServiceInstance {i : ServiceInstanceRecord} (t t' : RegistryTables)
    (h : t.insertServiceInstance i = .ok t') : t'.teams = t.teams ∧ t'.players = t.players := by
  unfold RegistryTables.insertServiceInstance RegistryTables.insertNew at h
  split at h
  · cases h
  · cases h
    exact ⟨rfl, rfl⟩

theorem holds_insertWireGuardPeer {state : WireGuardPeerState} (t t' : RegistryTables)
    (h : t.insertWireGuardPeer state = .ok t') : t'.teams = t.teams ∧ t'.players = t.players := by
  unfold RegistryTables.insertWireGuardPeer RegistryTables.insertNew at h
  split at h
  · cases h
  · cases h
    exact ⟨rfl, rfl⟩

theorem ensures_deployPublished (input : StoreInput) (i : Nat) (challenges : List AdminChallenge) :
    Ensures (Holds teams players) (deployPublished F input teamID i challenges)
      fun _ => Holds teams players := by
  induction challenges generalizing i with
  | nil => exact ensures_pure fun _ ht => ht
  | cons challenge challenges ih =>
    refine (reads_holds reads_ofStoreExcept).bind fun checkerToken => ?_
    refine (ensures_exec_holds holds_insertServiceState).mapError _ |>.bind fun _ => ?_
    exact (ensures_exec_holds holds_insertServiceInstance).mapError _ |>.bind fun _ => ih (i + 1)

/-- A new team, with an id that no team has. -/
structure NewTeam (teams : List AdminTeam) (name contactEmail : String)
    (team : AdminTeam) : Prop where
  fresh : team.id ∉ teams.map (·.id)
  positive : 0 < team.id
  name : team.name = name
  contactEmail : team.contactEmail = contactEmail

/-- The row of a team. -/
def teamRow (team : AdminTeam) : AdminTeam :=
  { id := team.id, name := team.name, contactEmail := team.contactEmail, joinKey := team.joinKey }

theorem ensures_allocateTeamNetworkIDTx : Ensures (Holds teams players) (allocateTeamNetworkIDTx F)
    fun id t => Holds teams players t ∧ id ∉ teams.map (·.id) ∧ 0 < id := by
  refine (reads_holds reads_query).bind fun _ => ensures_query fun t ht id hid => ⟨ht, ?_⟩
  split at hid
  · rename_i found hfound
    cases hid
    refine ⟨?_, ?_⟩
    · have := List.find?_some hfound
      rwa [ht.1, decide_eq_true_eq] at this
    · have hpositive : ∀ id ∈ teamNetworkIDs, 0 < id := by decide +kernel
      exact hpositive _ (List.mem_of_find?_eq_some hfound)
  · cases hid

theorem ensures_insertTeam (team : AdminTeam) :
    Ensures (Holds teams players) (exec F (RegistryTables.insertTeam team) : RegistryProgram Unit)
      fun _ => Holds (teams ++ [team]) players := by
  refine ensures_exec fun t ht t' h => ?_
  unfold RegistryTables.insertTeam RegistryTables.insertNew at h
  split at h
  · cases h
  · cases h
    exact ⟨by rw [← ht.1], ht.2⟩

theorem ensures_createTeamTx (input : StoreInput) :
    Ensures (Holds teams players) (createTeamTx F name contactEmail input) fun team t =>
      Holds (teams ++ [teamRow team]) players t ∧ NewTeam teams name contactEmail team := by
  refine ensures_allocateTeamNetworkIDTx.mapError _ |>.bind fun id => ensures_of_and fun hid => ?_
  refine (reads_holds (reads_ofStoreExcept.mapError _)).bind fun joinKey => ?_
  refine (ensures_insertTeam _).mapError _ |>.bind fun _ => ?_
  refine (reads_holds (reads_nextval.mapError _)).bind fun rank => ?_
  refine (ensures_exec_holds holds_insertScoreboardEntry).mapError _ |>.bind fun _ => ?_
  refine (reads_holds (reads_query.mapError _)).bind fun challenges => ?_
  refine (reads_holds (reads_query.mapError _)).bind fun _ => ?_
  refine (ensures_deployPublished input 1 challenges).bind fun _ => ?_
  refine (reads_holds (reads_query.mapError _)).bind fun _ => ?_
  exact ensures_pure fun t ht => ⟨ht, hid.1, hid.2, rfl, rfl⟩

theorem ensures_attemptTeam (request : AdminCreateTeamRequest) (input : StoreInput) :
    Ensures (Holds teams players) (attemptTeam F T request input) fun team t =>
      Holds (teams ++ [teamRow team]) players t ∧ NewTeam teams (trimSpace request.name)
        (trimSpace (T.toLower request.contactEmail)) team := by
  unfold attemptTeam
  dsimp only
  split
  · exact ensures_fail
  refine (reads_holds (reads_queryRowScan.mapError _)).bind fun duplicate => ?_
  split
  · exact ensures_fail
  refine (reads_holds (reads_beginTx.mapError _)).bind fun _ => ?_
  exact (ensures_createTeamTx input).transaction

theorem keeps_attemptTeam (request : AdminCreateTeamRequest) (input : StoreInput) :
    Keeps (attemptTeam F T request input) := by
  unfold attemptTeam
  dsimp only
  split
  · exact reads_fail.keeps
  refine (reads_queryRowScan.mapError _).keeps_bind fun duplicate => ?_
  split
  · exact reads_fail.keeps
  exact (reads_beginTx.mapError _).keeps_bind fun _ => keeps_transaction

theorem keeps_createAdminTeam (request : AdminCreateTeamRequest) (input : Nat → StoreInput) :
    Keeps (createAdminTeam F T request input) :=
  .retry fun attempt => keeps_attemptTeam request (input attempt)

theorem ensures_createAdminTeam (request : AdminCreateTeamRequest) (input : Nat → StoreInput) :
    Ensures (Holds teams players) (createAdminTeam F T request input) fun team t =>
      Holds (teams ++ [teamRow team]) players t ∧ NewTeam teams (trimSpace request.name)
        (trimSpace (T.toLower request.contactEmail)) team :=
  .retry (fun attempt => keeps_attemptTeam request (input attempt))
    fun attempt => ensures_attemptTeam request (input attempt)

/-! ## Players that are created -/

/-- The row of a member of the team. -/
structure Stores (player : AdminPlayer) (row : RegistryPlayerRow) : Prop where
  id : row.id = player.id
  teamID : row.teamID = some player.teamID
  displayName : row.displayName = player.displayName
  email : row.email = player.email
  role : row.role = player.role

/-- The player of a request. -/
structure Follows (T : CaseTable) (teamID : Int) (request : AdminCreatePlayerRequest)
    (player : AdminPlayer) :
    Prop where
  teamID : player.teamID = teamID
  displayName : player.displayName = trimSpace request.displayName
  email : player.email = trimSpace (T.toLower request.email)

theorem Stores.follows {player created : AdminPlayer} {row : RegistryPlayerRow}
    (h : Stores player row)
    (hsame : created.id = player.id ∧ created.teamID = player.teamID ∧
      created.displayName = player.displayName ∧ created.email = player.email ∧
      created.role = player.role) : Stores created row where
  id := h.id.trans hsame.1.symm
  teamID := h.teamID.trans (congrArg some hsame.2.1.symm)
  displayName := h.displayName.trans hsame.2.2.1.symm
  email := h.email.trans hsame.2.2.2.1.symm
  role := h.role.trans hsame.2.2.2.2.symm

theorem reads_teamMemberLimitReachedTx : Reads (teamMemberLimitReachedTx F teamID) := by
  unfold teamMemberLimitReachedTx
  split
  · exact reads_pure
  refine reads_query.bind fun limit => ?_
  split
  · exact reads_pure
  · exact reads_query

theorem reads_teamHasActiveCaptainTx : Reads (teamHasActiveCaptainTx F teamID) := by
  unfold teamHasActiveCaptainTx
  split
  · exact reads_pure
  · exact reads_query

theorem reads_admitMember {role : Role} : Reads (admitMember F teamID role) := by
  refine reads_query.bind fun _ => reads_teamMemberLimitReachedTx.bind fun limited => ?_
  split
  · exact reads_fail
  split
  · exact reads_teamHasActiveCaptainTx.bind fun _ => reads_pure
  · exact reads_pure

theorem reads_allocateWireGuardPeerAddressTx : Reads (allocateWireGuardPeerAddressTx F) :=
  reads_query.bind fun _ => reads_query

theorem reads_lookupTeamName : Reads (lookupTeamName F teamID) := by
  unfold lookupTeamName
  split
  · exact reads_pure
  · exact reads_queryRowScan

theorem ensures_insertPlayer (row : RegistryPlayerRow) :
    Ensures (Holds teams players) (exec F (RegistryTables.insertPlayer row) : RegistryProgram Unit)
      fun _ => Holds teams (players ++ [row]) := by
  refine ensures_exec fun t ht t' h => ?_
  unfold RegistryTables.insertPlayer RegistryTables.insertNew at h
  split at h
  · cases h
  · cases h
    exact ⟨ht.1, by rw [← ht.2]⟩

theorem ensures_issuePeerTx (player : AdminPlayer) (input : WireGuardInput) :
    Ensures (Holds teams players) (issuePeerTx F player input) fun created t =>
      Holds teams players t ∧ created.id = player.id ∧ created.teamID = player.teamID ∧
        created.displayName = player.displayName ∧ created.email = player.email ∧
        created.role = player.role := by
  refine (reads_holds reads_allocateWireGuardPeerAddressTx).bind fun address => ?_
  refine (reads_holds reads_ofStoreExcept).bind fun state => ?_
  refine (ensures_exec_holds holds_insertWireGuardPeer).bind fun _ => ?_
  exact ensures_pure fun t ht => ⟨ht, rfl, rfl, rfl, rfl, rfl⟩

/-- One player of the team, more than before. -/
def OneMore (T : CaseTable) (teams : List AdminTeam) (players : List RegistryPlayerRow)
    (teamID : Int)
    (request : AdminCreatePlayerRequest) (player : AdminPlayer) (t : RegistryTables) : Prop :=
  ∃ row, Holds teams (players ++ [row]) t ∧ Stores player row ∧ Follows T teamID request player

theorem ensures_createPlayerTx {request : AdminCreatePlayerRequest} (hteam : 0 < request.teamID)
    (teamName : String) (input : PlayerInput) :
    Ensures (Holds teams players)
      (createPlayerTx F request teamName (trimSpace (T.toLower request.email)) input)
      (OneMore T teams players request.teamID request) := by
  unfold createPlayerTx
  rw [if_pos hteam]
  refine (reads_holds reads_admitMember).bind fun role => ?_
  refine (reads_holds reads_nextval).bind fun id => ?_
  refine (reads_holds reads_ofExcept).bind fun passwordHash => ?_
  refine (ensures_insertPlayer _).bind fun _ => ?_
  dsimp only
  rw [if_pos hteam, if_pos (.inl hteam)]
  refine (ensures_issuePeerTx _ _).bind fun created => ensures_of_and fun hsame => ?_
  refine (reads_holds reads_query).bind fun _ => ensures_pure fun t ht => ⟨_, ht, ?_, ?_⟩
  · exact Stores.follows ⟨rfl, rfl, rfl, rfl, rfl⟩ hsame
  · exact ⟨hsame.2.1, hsame.2.2.1, hsame.2.2.2.1⟩

theorem ensures_createAdminPlayer {request : AdminCreatePlayerRequest} (hteam : 0 < request.teamID)
    (input : PlayerInput) : Ensures (Holds teams players) (createAdminPlayer F T request input)
      (OneMore T teams players request.teamID request) := by
  unfold createAdminPlayer
  split
  · exact ensures_fail
  rw [if_neg hteam.ne.symm]
  refine (reads_holds reads_lookupTeamName).bind fun teamName => ?_
  refine (reads_holds reads_queryRowScan).bind fun duplicate => ?_
  split
  · exact ensures_fail
  refine (reads_holds reads_beginTx).bind fun _ => ?_
  exact (ensures_createPlayerTx hteam teamName input).transaction

theorem keeps_createAdminPlayer (request : AdminCreatePlayerRequest) (input : PlayerInput) :
    Keeps (createAdminPlayer F T request input) := by
  unfold createAdminPlayer
  split
  · exact reads_fail.keeps
  have hrest (teamName : String) : Keeps (do
      let duplicate ← queryRowScan F fun t => .ok <| t.players.any fun player =>
        T.sqlLower player.email = T.sqlLower (trimSpace (T.toLower request.email))
      if duplicate then failWith .duplicateResource
      else do
        beginTx F
        transaction
          (createPlayerTx F request teamName (trimSpace (T.toLower request.email)) input)) := by
    refine reads_queryRowScan.keeps_bind fun duplicate => ?_
    split
    · exact reads_fail.keeps
    · exact reads_beginTx.keeps_bind fun _ => keeps_transaction
  dsimp only
  split
  · exact reads_pure.keeps_bind hrest
  · exact reads_lookupTeamName.keeps_bind hrest

/-! ## Rows -/

variable {requests : List AdminCreatePlayerRequest}
  {s s' : Session RegistryTables RegistrySequences}

/-- The loop adds members of the team, and no others; when it ends well, they are the requested
ones. -/
theorem importPlayers_leaves (hteam : 0 < teamID) (input : Nat → PlayerInput) (i : Nat)
    (hs : Holds teams players s.rows) {result : Except String (List AdminPlayer)}
    (h : importPlayers F T teamID input i requests s = (result, s')) :
    ∃ rows, Holds teams (players ++ rows) s'.rows ∧ (∀ row ∈ rows, row.teamID = some teamID) ∧
      ∀ created, result = .ok created →
        List.Forall₂ Stores created rows ∧ List.Forall₂ (Follows T teamID) requests created := by
  induction requests generalizing i s players result with
  | nil =>
    cases h
    refine ⟨[], by rwa [List.append_nil], nofun, fun created hcreated => ?_⟩
    cases hcreated
    exact ⟨.nil, .nil⟩
  | cons request requests ih =>
    unfold importPlayers at h
    rcases hfirst : createAdminPlayer F T { request with teamID } (input i) s with ⟨e | player, s₁⟩
    · rw [bind_of_error hfirst] at h
      cases h
      refine ⟨[], ?_, nofun, nofun⟩
      rw [keeps_createAdminPlayer _ _ _ _ _ hfirst, List.append_nil]
      exact hs
    rw [bind_of_ok hfirst] at h
    obtain ⟨row, hadded, hstores, hfollows⟩ := ensures_createAdminPlayer hteam _ _ _ _ hs hfirst
    have hrow : row.teamID = some teamID := hstores.teamID.trans (congrArg some hfollows.teamID)
    rcases hrest : importPlayers F T teamID input (i + 1) requests s₁ with ⟨e | rest, s₂⟩
    · rw [bind_of_error hrest] at h
      cases h
      obtain ⟨rows, hheld, hrows, -⟩ := ih (i + 1) hadded hrest
      refine ⟨row :: rows, ?_, List.forall_mem_cons.mpr ⟨hrow, hrows⟩, nofun⟩
      rwa [List.append_cons]
    · rw [bind_of_ok hrest] at h
      cases h
      obtain ⟨rows, hheld, hrows, hall⟩ := ih (i + 1) hadded hrest
      obtain ⟨hstored, hfollow⟩ := hall rest rfl
      refine ⟨row :: rows, by rwa [List.append_cons], List.forall_mem_cons.mpr ⟨hrow, hrows⟩, ?_⟩
      intro created hcreated
      cases hcreated
      exact ⟨.cons hstores hstored,
        .cons ⟨hfollows.teamID, hfollows.displayName, hfollows.email⟩ hfollow⟩

/-- Every player of a team refers to a row of `teams`. -/
def References (teams : List AdminTeam) (players : List RegistryPlayerRow) : Prop :=
  ∀ player ∈ players, ∀ id, player.teamID = some id → id ∈ teams.map (·.id)

theorem References.append (h : References teams players) {team : AdminTeam}
    {rows : List RegistryPlayerRow}
    (hrows : ∀ row ∈ rows, row.teamID = some team.id) :
    References (teams ++ [teamRow team]) (players ++ rows) := by
  intro player hplayer id hid
  rw [List.map_append]
  rcases List.mem_append.mp hplayer with hplayer | hplayer
  · exact List.mem_append_left _ (h player hplayer id hid)
  · rw [hrows player hplayer] at hid
    cases hid
    exact List.mem_append_right _ List.mem_cons_self

/-- A deletion that does not fail leaves nothing of a new team and its players. -/
theorem deleteAdminTeam_leaves (h : References teams players) {team : AdminTeam}
    {rows : List RegistryPlayerRow}
    (hfresh : team.id ∉ teams.map (·.id)) (hrows : ∀ row ∈ rows, row.teamID = some team.id)
    (hs : Holds (teams ++ [teamRow team]) (players ++ rows) s.rows) (hcall : F s.calls = none) :
    Holds teams players (deleteAdminTeam F team.id s).2.rows := by
  have hthere : ¬s.rows.teams.all fun other => other.id ≠ team.id := by
    rw [hs.1, List.all_append]
    simp [teamRow]
  have hteams : (s.rows.teams.filter fun other => other.id ≠ team.id) = teams := by
    rw [hs.1, List.filter_append]
    have hkept : (teams.filter fun other => other.id ≠ team.id) = teams :=
      List.filter_eq_self.mpr fun other hother =>
        decide_eq_true fun heq => hfresh (heq ▸ List.mem_map_of_mem hother)
    rw [hkept]
    simp [teamRow]
  have hplayers : (s.rows.players.filter fun player => player.teamID ≠ some team.id) = players := by
    rw [hs.2, List.filter_append]
    have hkept : (players.filter fun player => player.teamID ≠ some team.id) = players :=
      List.filter_eq_self.mpr fun player hplayer =>
        decide_eq_true fun heq => hfresh (h player hplayer team.id heq)
    have hgone : (rows.filter fun player => player.teamID ≠ some team.id) = [] :=
      List.filter_eq_nil_iff.mpr fun row hrow => by simp [hrows row hrow]
    rw [hkept, hgone, List.append_nil]
  unfold deleteAdminTeam exec call
  rw [hcall]
  dsimp only
  rw [RegistryTables.deleteTeam, if_neg hthere]
  exact ⟨hteams, hplayers⟩

/-- A row that has been stored. -/
structure CreatedRow where
  team : AdminTeam
  players : List AdminPlayer
  rows : List RegistryPlayerRow

/-- The team and the players of the requests, and their rows. -/
structure CreatedRow.Answers (T : CaseTable) (created : CreatedRow) (name contactEmail : String)
    (requests : List AdminCreatePlayerRequest) : Prop where
  name : created.team.name = trimSpace name
  contactEmail : created.team.contactEmail = trimSpace (T.toLower contactEmail)
  stored : List.Forall₂ Stores created.players created.rows
  follows : List.Forall₂ (Follows T created.team.id) requests created.players

/-- The team is created, one of its players is not, and then the call that should delete the team
fails. -/
def Strands (F : Faults String) (T : CaseTable) (name contactEmail : String)
    (requests : List AdminCreatePlayerRequest) (team : Nat → StoreInput) (input : Nat → PlayerInput)
    (s : Session RegistryTables RegistrySequences) : Prop :=
  ∃ created s₁ e s₂, createAdminTeam F T { name, contactEmail } team s = (.ok created, s₁) ∧
    importPlayers F T created.id input 0 requests s₁ = (.error e, s₂) ∧ (F s₂.calls).isSome

/-- What can become of a row: it is stored, or refused without a trace, or its team stays behind. -/
theorem importOneTeam_cases (href : References teams players) (team : Nat → StoreInput)
    (input : Nat → PlayerInput) (hs : Holds teams players s.rows)
    {result : Except String (AdminTeam × List AdminPlayer)}
    (h : importOneTeam F T name contactEmail requests team input s = (result, s')) :
    (¬Strands F T name contactEmail requests team input s ∧
      ((∃ created : CreatedRow, created.Answers T name contactEmail requests ∧
          (∀ row ∈ created.rows, row.teamID = some created.team.id) ∧
          result = .ok (created.team, created.players) ∧
          Holds (teams ++ [teamRow created.team]) (players ++ created.rows) s'.rows) ∨
        ∃ e, result = .error e ∧ Holds teams players s'.rows)) ∨
    Strands F T name contactEmail requests team input s ∧ ∃ e created rows,
      result = .error e ∧ (∀ row ∈ rows, row.teamID = some created.id) ∧
      Holds (teams ++ [teamRow created]) (players ++ rows) s'.rows := by
  unfold importOneTeam at h
  rcases hteam : createAdminTeam F T { name, contactEmail } team s with ⟨e | created, s₁⟩
  · rw [bind_of_error hteam] at h
    cases h
    refine .inl ⟨?_, .inr ⟨e, rfl, by rwa [keeps_createAdminTeam _ _ _ _ _ hteam]⟩⟩
    rintro ⟨created, s₁, e', s₂, hcreated, -⟩
    cases hteam.symm.trans hcreated
  rw [bind_of_ok hteam] at h
  obtain ⟨hadded, hnew⟩ := ensures_createAdminTeam _ _ _ _ _ hs hteam
  rcases hplayers : importPlayers F T created.id input 0 requests s₁ with ⟨e | added, s₂⟩
  · obtain ⟨rows, hheld, hrows, -⟩ := importPlayers_leaves hnew.positive input 0 hadded hplayers
    have hundo :
        orUndo (importPlayers F T created.id input 0 requests) (deleteAdminTeam F created.id) s₁ =
        (.error e, (deleteAdminTeam F created.id s₂).2) := by
      unfold orUndo
      rw [hplayers]
    rw [bind_of_error hundo] at h
    cases h
    by_cases hfails : (F s₂.calls).isSome
    · refine .inr ⟨⟨created, s₁, e, s₂, hteam, hplayers, hfails⟩, e, created, rows, rfl, hrows, ?_⟩
      unfold deleteAdminTeam exec call
      obtain ⟨e', he'⟩ := Option.isSome_iff_exists.mp hfails
      rw [he']
      exact hheld
    · refine .inl ⟨?_, .inr ⟨e, rfl, ?_⟩⟩
      · rintro ⟨created', s₁', e', s₂', hcreated, hstopped, hfailed⟩
        cases hteam.symm.trans hcreated
        cases hplayers.symm.trans hstopped
        exact hfails hfailed
      · exact deleteAdminTeam_leaves href hnew.fresh hrows hheld
          (Option.not_isSome_iff_eq_none.mp hfails)
  · obtain ⟨rows, hheld, hrows, hall⟩ := importPlayers_leaves hnew.positive input 0 hadded hplayers
    obtain ⟨hstored, hfollows⟩ := hall added rfl
    have hundo :
        orUndo (importPlayers F T created.id input 0 requests) (deleteAdminTeam F created.id) s₁ =
        (.ok added, s₂) := by
      unfold orUndo
      rw [hplayers]
    rw [bind_of_ok hundo] at h
    cases h
    refine .inl ⟨?_,
      .inl ⟨⟨created, added, rows⟩, ⟨hnew.name, hnew.contactEmail, hstored, hfollows⟩, hrows,
      rfl, hheld⟩⟩
    rintro ⟨created', s₁', e', s₂', hcreated, hstopped, -⟩
    cases hteam.symm.trans hcreated
    cases hplayers.symm.trans hstopped

/-- The requests of a row are those for its players. -/
theorem importRequests_names {index i : Nat} {inputs : List AdminBulkImportPlayer}
    {requests : List AdminCreatePlayerRequest} (h : importRequests index i inputs = .ok requests) :
    List.Forall₂ (fun player request => request.displayName = trimSpace player.displayName ∧
      request.email = trimSpace player.email) inputs requests := by
  induction inputs generalizing i requests with
  | nil =>
    cases h
    exact .nil
  | cons player inputs ih =>
    unfold importRequests at h
    dsimp only at h
    split at h
    · cases h
    cases hrest : importRequests index (i + 1) inputs with
    | error e =>
      rw [hrest] at h
      cases h
    | ok rest =>
      rw [hrest] at h
      cases h
      exact .cons ⟨rfl, rfl⟩ (ih hrest)

theorem importRequests_error {index i : Nat} {inputs : List AdminBulkImportPlayer}
    {message : String}
    (h : importRequests index i inputs = .error message) :
    ∃ rest, message = "row " ++ (index + 1).repr ++ rest := by
  induction inputs generalizing i with
  | nil => cases h
  | cons player inputs ih =>
    unfold importRequests at h
    dsimp only at h
    split at h
    · cases h
      simp only [String.append_assoc]
      exact ⟨_, rfl⟩
    cases hrest : importRequests index (i + 1) inputs with
    | error e =>
      rw [hrest] at h
      cases h
      exact ih hrest
    | ok rest =>
      rw [hrest] at h
      cases h

theorem forall₂_comp {α β γ : Type} {R : α → β → Prop} {S : β → γ → Prop} {as : List α}
    {bs : List β}
    {cs : List γ} (hR : List.Forall₂ R as bs) (hS : List.Forall₂ S bs cs) :
    List.Forall₂ (Relation.Comp R S) as cs := by
  induction hR generalizing cs with
  | nil =>
    cases hS
    exact .nil
  | cons hab _ ih =>
    cases hS with
    | cons hbc hrest => exact .cons ⟨_, hab, hbc⟩ (ih hrest)

/-- The row is stored with its team and all its players. -/
structure CreatedRow.Of (T : CaseTable) (row : AdminBulkImportTeam)
    (created : CreatedRow) : Prop where
  name : created.team.name = trimSpace (trimSpace row.name)
  contactEmail : created.team.contactEmail = trimSpace (T.toLower (trimSpace row.contactEmail))
  players : List.Forall₂ (fun (input : AdminBulkImportPlayer) (player : AdminPlayer) =>
    player.teamID = created.team.id ∧ player.displayName = trimSpace (trimSpace input.displayName) ∧
      player.email = trimSpace (T.toLower (trimSpace input.email))) row.players created.players
  stored : List.Forall₂ Stores created.players created.rows

/-- The branch of a row that leaves its team behind. -/
def StrandsRow (F : Faults String) (T : CaseTable) (input : RegistryInput)
    (entry : AdminBulkImportTeam × Nat)
    (acc : Importing) : Prop :=
  trimSpace entry.1.name ≠ "" ∧ trimSpace entry.1.contactEmail ≠ "" ∧
    ∃ requests, importRequests entry.2 0 entry.1.players = .ok requests ∧
      Strands F T (trimSpace entry.1.name) (trimSpace entry.1.contactEmail) requests
        (input.team entry.2)
        (input.player entry.2) acc.1

/-- What a row does to the import. -/
inductive RowStep (F : Faults String) (T : CaseTable) (input : RegistryInput)
    (entry : AdminBulkImportTeam × Nat) (acc acc' : Importing) : Prop where
  | created (c : CreatedRow) (hof : c.Of T entry.1) (hrows : ∀ row ∈ c.rows,
      row.teamID = some c.team.id)
    (hstrands : ¬StrandsRow F T input entry acc)
    (hs : Holds (acc.1.rows.teams ++ [teamRow c.team]) (acc.1.rows.players ++ c.rows) acc'.1.rows)
    (hresult : acc'.2 = { acc.2 with
      teamsCreated := acc.2.teamsCreated + 1
      playersCreated := acc.2.playersCreated + c.players.length
      teams := acc.2.teams ++ [c.team]
      players := acc.2.players ++ c.players })
  | refused (rest : String) (hstrands : ¬StrandsRow F T input entry acc)
    (hs : Holds acc.1.rows.teams acc.1.rows.players acc'.1.rows)
    (hresult : acc'.2 = acc.2.fail ("row " ++ (entry.2 + 1).repr ++ rest))
  | stranded (team : AdminTeam) (rows : List RegistryPlayerRow) (message : String)
    (hstrands : StrandsRow F T input entry acc) (hrows : ∀ row ∈ rows, row.teamID = some team.id)
    (hs : Holds (acc.1.rows.teams ++ [teamRow team]) (acc.1.rows.players ++ rows) acc'.1.rows)
    (hresult : acc'.2 = acc.2.fail message)

theorem importRow_step (input : RegistryInput) (entry : AdminBulkImportTeam × Nat) {acc : Importing}
    (href : References acc.1.rows.teams acc.1.rows.players) :
    RowStep F T input entry acc (importRow F T input entry acc) := by
  obtain ⟨row, index⟩ := entry
  obtain ⟨s, result⟩ := acc
  unfold importRow
  dsimp only
  split
  · rename_i hempty
    refine .refused ": team name and contact_email are required" ?_ ⟨rfl, rfl⟩ rfl
    rintro ⟨hname, hemail, -⟩
    exact hempty.elim hname hemail
  rename_i hnonempty
  rw [not_or] at hnonempty
  split
  · rename_i message hmessage
    obtain ⟨rest, rfl⟩ := importRequests_error hmessage
    refine .refused rest ?_ ⟨rfl, rfl⟩ rfl
    rintro ⟨-, -, requests, hrequests, -⟩
    cases hmessage.symm.trans hrequests
  rename_i requests hrequests
  have hstrands : StrandsRow F T input (row, index) (s, result) ↔
      Strands F T (trimSpace row.name) (trimSpace row.contactEmail) requests (input.team index)
        (input.player index) s := by
    constructor
    · rintro ⟨-, -, requests', hrequests', h⟩
      cases hrequests.symm.trans hrequests'
      exact h
    · exact fun h => ⟨hnonempty.1, hnonempty.2, requests, hrequests, h⟩
  rcases hone : importOneTeam F T (trimSpace row.name) (trimSpace row.contactEmail) requests
    (input.team index) (input.player index) s with ⟨answer, s'⟩
  rcases importOneTeam_cases href _ _ ⟨rfl, rfl⟩ hone with
    ⟨hnot, ⟨c, hanswers, hrows, rfl, hs⟩ | ⟨e, rfl, hs⟩⟩ | ⟨hstranded, e, team, rows,
      rfl, hrows, hs⟩
  · refine .created c ⟨hanswers.name, hanswers.contactEmail, ?_, hanswers.stored⟩ hrows
      (hstrands.not.mpr hnot) hs rfl
    refine (forall₂_comp (importRequests_names hrequests) hanswers.follows).imp ?_
    rintro player created ⟨request, hnames, hfollows⟩
    exact ⟨hfollows.teamID, hfollows.displayName.trans (congrArg trimSpace hnames.1),
      hfollows.email.trans (congrArg (fun email => trimSpace (T.toLower email)) hnames.2)⟩
  · refine .refused (" (" ++ trimSpace row.name ++ "): " ++ e) (hstrands.not.mpr hnot) hs ?_
    simp only [String.append_assoc]
  · exact .stranded team rows _ (hstrands.mpr hstranded) hrows hs rfl

theorem RowStep.references {input : RegistryInput} {entry : AdminBulkImportTeam × Nat}
    {acc acc' : Importing}
    (h : RowStep F T input entry acc acc') (href : References acc.1.rows.teams acc.1.rows.players) :
    References acc'.1.rows.teams acc'.1.rows.players := by
  cases h with
  | created c _ hrows _ hs =>
    rw [hs.1, hs.2]
    exact href.append hrows
  | refused _ _ hs =>
    rw [hs.1, hs.2]
    exact href
  | stranded team rows _ _ hrows hs =>
    rw [hs.1, hs.2]
    exact href.append hrows

/-! ## Imports as runs -/

theorem references_run (input : RegistryInput) (acc : Importing)
    (entries : List (AdminBulkImportTeam × Nat))
    (href : References acc.1.rows.teams acc.1.rows.players) :
    References (Runs.run (importRow F T input) acc entries).1.rows.teams
      (Runs.run (importRow F T input) acc entries).1.rows.players := by
  induction entries generalizing acc with
  | nil => exact href
  | cons entry entries ih => exact ih _ ((importRow_step input entry href).references href)

/-- The rows that have been refused. -/
def refusedRows (outcomes : List (Option CreatedRow)) : List Nat :=
  (outcomes.zipIdx.filter (·.1.isNone)).map (·.2)

/-- Each row has either its team and all its players stored and counted, or nothing stored and an
error. -/
structure AtomicAs (T : CaseTable) (rows : List AdminBulkImportTeam)
    (outcomes : List (Option CreatedRow))
    (before after : RegistryTables) (result : AdminBulkImportResult) : Prop where
  rows : List.Forall₂ (fun row outcome =>
    ∀ created ∈ outcome, CreatedRow.Of T row created) rows outcomes
  tables : Holds (before.teams ++ outcomes.reduceOption.map (teamRow ·.team))
    (before.players ++ outcomes.reduceOption.flatMap (·.rows)) after
  teamsCreated : result.teamsCreated = outcomes.reduceOption.length
  playersCreated : result.playersCreated = (outcomes.reduceOption.flatMap (·.players)).length
  teams : result.teams = outcomes.reduceOption.map (·.team)
  players : result.players = outcomes.reduceOption.flatMap (·.players)
  errors : List.Forall₂ (fun index error => ∃ rest, error = "row " ++ (index + 1).repr ++ rest)
    (refusedRows outcomes) result.errors

/-- The import is atomic, row by row. -/
def RowsAtomic (T : CaseTable) (rows : List AdminBulkImportTeam) (before : RegistryTables)
    (done : Importing) :
    Prop :=
  ∃ outcomes, AtomicAs T rows outcomes before done.1.rows done.2

theorem forall₂_concat {α β : Type} {R : α → β → Prop} {as : List α} {bs : List β} {a : α} {b : β}
    (h : List.Forall₂ R as bs) (hab : R a b) : List.Forall₂ R (as ++ [a]) (bs ++ [b]) :=
  List.rel_append h (.cons hab .nil)

theorem refusedRows_concat (outcomes : List (Option CreatedRow)) (outcome : Option CreatedRow) :
    refusedRows (outcomes ++ [outcome]) =
      refusedRows outcomes ++ if outcome.isNone then [outcomes.length] else [] := by
  unfold refusedRows
  rw [List.zipIdx_append, List.filter_append, List.map_append, List.zipIdx_singleton]
  cases outcome <;> simp

/-- One more row that does not strand. -/
theorem AtomicAs.concat {input : RegistryInput} {rows : List AdminBulkImportTeam}
    {row : AdminBulkImportTeam}
    {outcomes : List (Option CreatedRow)} {before : RegistryTables} {acc acc' : Importing}
    (h : AtomicAs T rows outcomes before acc.1.rows acc.2)
    (hstep : RowStep F T input (row, rows.length) acc acc')
    (hstrands : ¬StrandsRow F T input (row, rows.length) acc) :
      RowsAtomic T (rows ++ [row]) before acc' := by
  cases hstep with
  | created c hof _ _ hs hresult =>
    have hreduce : (outcomes ++ [some c]).reduceOption = outcomes.reduceOption ++ [c] :=
      List.reduceOption_append _ _
    refine ⟨outcomes ++ [some c], forall₂_concat h.rows ?_, ⟨?_, ?_⟩, ?_, ?_, ?_, ?_, ?_⟩
    · rintro created hcreated
      cases hcreated
      exact hof
    · rw [hs.1, h.tables.1, hreduce, List.map_append, List.append_assoc]
      rfl
    · rw [hs.2, h.tables.2, hreduce, List.flatMap_append, List.append_assoc, List.flatMap_singleton]
    · rw [hresult, hreduce, List.length_append, ← h.teamsCreated]
      rfl
    · rw [hresult, hreduce, List.flatMap_append, List.length_append, ← h.playersCreated,
        List.flatMap_singleton]
    · rw [hresult, hreduce, List.map_append, ← h.teams]
      rfl
    · rw [hresult, hreduce, List.flatMap_append, ← h.players, List.flatMap_singleton]
    · rw [hresult, refusedRows_concat, Option.isNone_some, if_neg Bool.false_ne_true,
        List.append_nil]
      exact h.errors
  | refused rest _ hs hresult =>
    have hreduce : (outcomes ++ [none]).reduceOption = outcomes.reduceOption := by
      rw [List.reduceOption_append, List.reduceOption_singleton, Option.toList_none,
        List.append_nil]
    refine ⟨outcomes ++ [none], forall₂_concat h.rows nofun, ?_, ?_, ?_, ?_, ?_, ?_⟩
    · rw [hreduce]
      exact ⟨hs.1.trans h.tables.1, hs.2.trans h.tables.2⟩
    · rw [hresult, hreduce]
      exact h.teamsCreated
    · rw [hresult, hreduce]
      exact h.playersCreated
    · rw [hresult, hreduce]
      exact h.teams
    · rw [hresult, hreduce]
      exact h.players
    · rw [hresult, refusedRows_concat, Option.isNone_none, if_pos rfl]
      exact forall₂_concat h.errors ⟨rest, by rw [h.rows.length_eq]⟩
  | stranded _ _ _ h => exact absurd h hstrands

theorem atomic_run (input : RegistryInput) (rows : List AdminBulkImportTeam)
    (href : References s.rows.teams s.rows.players)
    (h : Runs.EachCall (importRow F T input) (fun entry acc =>
      ¬StrandsRow F T input entry acc) (s, {})
      rows.zipIdx) : RowsAtomic T rows s.rows (importAdminTeams F T input rows s) := by
  unfold importAdminTeams
  induction rows using List.reverseRecOn with
  | nil =>
    exact ⟨[], .nil, ⟨(List.append_nil _).symm, (List.append_nil _).symm⟩, rfl, rfl, rfl, rfl, .nil⟩
  | append_singleton rows row ih =>
    rw [List.zipIdx_append, List.zipIdx_singleton, Nat.zero_add] at h ⊢
    obtain ⟨outcomes, hrows⟩ := ih h.append
    have hstrands := h rows.zipIdx _ [] rfl
    have hreached := references_run (F := F) (T := T) input (s, {}) rows.zipIdx href
    rw [Runs.run_append]
    generalize Runs.run (importRow F T input) (s, {}) rows.zipIdx = reached at *
    have hstep : RowStep F T input (row, rows.length) reached _ := importRow_step input _ hreached
    rw [Runs.run, List.foldl_cons, List.foldl_nil]
    exact hrows.concat hstep hstrands

/-- The teams that are stored but not counted do not get fewer. -/
theorem RowStep.teams_length {input : RegistryInput} {entry : AdminBulkImportTeam × Nat}
    {acc acc' : Importing}
    (h : RowStep F T input entry acc acc') :
    acc.1.rows.teams.length + acc'.2.teamsCreated ≤ acc'.1.rows.teams.length + acc.2.teamsCreated ∧
    (StrandsRow F T input entry acc →
      acc.1.rows.teams.length + acc'.2.teamsCreated <
        acc'.1.rows.teams.length + acc.2.teamsCreated) := by
  cases h with
  | created c _ _ hstrands hs hresult =>
    rw [hs.1, hresult, List.length_append, List.length_singleton]
    exact ⟨by dsimp only; omega, fun h => absurd h hstrands⟩
  | refused rest hstrands hs hresult =>
    rw [hs.1, hresult]
    exact ⟨le_rfl, fun h => absurd h hstrands⟩
  | stranded team rows message _ _ hs hresult =>
    rw [hs.1, hresult, List.length_append, List.length_singleton]
    exact ⟨by dsimp only [AdminBulkImportResult.fail]; omega,
      fun _ => by dsimp only [AdminBulkImportResult.fail]; omega⟩

theorem run_teams_length (input : RegistryInput) (acc : Importing)
    (entries : List (AdminBulkImportTeam × Nat))
    (href : References acc.1.rows.teams acc.1.rows.players) :
    acc.1.rows.teams.length + (Runs.run (importRow F T input) acc entries).2.teamsCreated ≤
      (Runs.run (importRow F T input) acc entries).1.rows.teams.length + acc.2.teamsCreated := by
  induction entries generalizing acc with
  | nil => exact le_rfl
  | cons entry entries ih =>
    have hstep := importRow_step (F := F) (T := T) input entry href
    have hfirst := hstep.teams_length.1
    have hrest := ih _ (hstep.references href)
    change _ + (Runs.run _ (importRow F T input entry acc) entries).2.teamsCreated ≤
      (Runs.run _ (importRow F T input entry acc) entries).1.rows.teams.length + _
    omega

end

/-! ## Main results -/

/-- An import is atomic, row by row, if and only if it never comes to delete a team in a call that
fails. -/
theorem importAdminTeams_atomic_iff (F : Faults String) (T : CaseTable) (input : RegistryInput)
    (rows : List AdminBulkImportTeam) (s : Session RegistryTables RegistrySequences)
    (href : References s.rows.teams s.rows.players) :
    RowsAtomic T rows s.rows (importAdminTeams F T input rows s) ↔
      Runs.EachCall (importRow F T input) (fun entry acc => ¬StrandsRow F T input entry acc) (s, {})
        rows.zipIdx := by
  constructor
  · rintro ⟨outcomes, h⟩ before entry after hsplit hstrands
    have hteams := congrArg List.length h.tables.1
    rw [List.length_append, List.length_map, ← h.teamsCreated] at hteams
    unfold importAdminTeams at hteams
    rw [hsplit, Runs.run_append] at hteams
    have hbefore := references_run (F := F) (T := T) input (s, {}) before href
    have hupto := run_teams_length (F := F) (T := T) input (s, {}) before href
    generalize Runs.run (importRow F T input) (s, {}) before = reached at *
    have hstep := importRow_step (F := F) (T := T) input entry hbefore
    have hrow := hstep.teams_length.2 hstrands
    have hafter := run_teams_length (F := F) (T := T) input _ after (hstep.references hbefore)
    change (Runs.run _ (importRow F T input entry reached) after).1.rows.teams.length =
      _ + (Runs.run _ (importRow F T input entry reached) after).2.teamsCreated at hteams
    dsimp only at hupto
    omega
  · exact atomic_run input rows href

/-- A team with one player. -/
def blueTeam : List AdminBulkImportTeam :=
  [{ name := "Blue", contactEmail := "blue@example.com"
     players :=
       [{ displayName := "Ann", email := "ann@example.com", password := "longpassword" }] }]

/-- Inputs with a working server profile for every row. -/
def calmInput : RegistryInput where
  team _ _ := {}
  player _ _ := { profile := .ok { endpoint := "vpn.example.com:51820", publicKey := "key" } }

/-- A team whose players come with the same address. -/
def redTeam : List AdminBulkImportTeam :=
  [{ name := "Red", contactEmail := "red@example.com"
     players := [{ displayName := "Bob", email := "bob@example.com", password := "longpassword" },
       { displayName := "Bea", email := "bob@example.com", password := "longpassword" }] }]

/-- Every call is answered: a team is created and deleted again, its second player being refused,
and the other team is stored. -/
theorem importAdminTeams_atomic_iff_sameEmail :
    let done := importAdminTeams (fun _ => none) .ascii calmInput (redTeam ++ blueTeam)
      { rows := {}, sequences := {} }
    RowsAtomic .ascii (redTeam ++ blueTeam) {} done ∧
      (done.1.rows.teams.map (·.name), done.1.sequences.scoreboardRank) = (["Blue"], 3) := by
  refine ⟨(importAdminTeams_atomic_iff (fun _ => none) .ascii calmInput (redTeam ++ blueTeam)
    { rows := {}, sequences := {} } nofun).mpr ?_, by decide +kernel⟩
  rintro before entry after - ⟨-, -, requests, -, created, s₁, e, s₂, -, -, hfails⟩
  exact absurd hfails Bool.false_ne_true

/-- The context is done once the team is stored: neither the player nor the deletion comes
through. -/
theorem team_stranded : ¬∀ (F : Faults String) (T : CaseTable) (input : RegistryInput)
    (rows : List AdminBulkImportTeam) (s : Session RegistryTables RegistrySequences),
    References s.rows.teams s.rows.players →
    RowsAtomic T rows s.rows (importAdminTeams F T input rows s) := by
  intro h
  obtain ⟨outcomes, hatomic⟩ := h (.cancelled 10 "context canceled") .ascii calmInput blueTeam
    { rows := {}, sequences := {} } nofun
  have hteams := congrArg List.length hatomic.tables.1
  rw [List.length_append, List.length_map, ← hatomic.teamsCreated] at hteams
  revert hteams
  decide +kernel

end ADPlatform.APIGateway
