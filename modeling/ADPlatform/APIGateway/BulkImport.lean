import ADPlatform.APIGateway.MemoryRuns

/-! # The import of teams

`ImportAdminTeams` of the memory store makes calls of the store, and holds no lock between them: a
row is a team and its players, and the team is deleted again when a player cannot be created. -/

namespace ADPlatform.APIGateway
open Text

/-- A player of an import row, as the organizer's file gives it. -/
structure AdminBulkImportPlayer where
  displayName : String
  email : String
  password : String
  role : String := ""
  deriving DecidableEq, Repr

/-- One row of the import: a team with the players to create in it. -/
structure AdminBulkImportTeam where
  name : String
  contactEmail : String
  players : List AdminBulkImportPlayer := []
  deriving DecidableEq, Repr

/-- What the organizer reads back: how much was created, and a message for every row that failed. -/
structure AdminBulkImportResult where
  teamsCreated : Nat := 0
  playersCreated : Nat := 0
  errors : List String := []
  teams : List AdminTeam := []
  players : List AdminPlayer := []

/-- The surroundings of the calls: for the team of each row, and for each of its players. -/
structure ImportInput where
  team : Nat → StoreInput
  player : Nat → Nat → WireGuardInput

/-- The requests for the players of a row from the `i`-th on, or what is wrong with one of them. -/
def importRequests (index : Nat) :
    Nat → List AdminBulkImportPlayer → Except String (List AdminCreatePlayerRequest)
  | _, [] => .ok []
  | i, player :: players =>
    let displayName := trimSpace player.displayName
    let email := trimSpace player.email
    let role := trimSpace player.role
    if displayName = "" ∨ email = "" ∨ !validPassword player.password then
      .error ("row " ++ (index + 1).repr ++ " player " ++ (i + 1).repr ++
        ": display_name and email are required, and password must be at least " ++
        minimumPasswordLength.repr ++ " characters")
    else (importRequests index (i + 1) players).map fun requests =>
      { displayName, email, password := player.password,
        role := if role = "" then "member" else role } ::
        requests

/-- The row's error is added; the counts stay. -/
def AdminBulkImportResult.fail (result : AdminBulkImportResult) (message : String) :
    AdminBulkImportResult :=
  { result with errors := result.errors ++ [message] }

namespace MemoryStore
variable (T : CaseTable)

/-- The players of a team, from the `i`-th on; the first error ends the loop. -/
def importPlayers (teamID : Int) (input : Nat → WireGuardInput) :
    Nat → List AdminCreatePlayerRequest → MemoryStore →
      MemoryStore × Except StoreError (List AdminPlayer)
  | _, [], s => (s, .ok [])
  | i, request :: requests, s =>
    let created := s.createAdminPlayer T { request with teamID } (input i)
    match created.result with
    | .error e => (created.store, .error e)
    | .ok player =>
      let (store, players) := importPlayers teamID input (i + 1) requests created.store
      (store, players.map (player :: ·))

/-- A team and its players, or neither. -/
def importTeam (request : AdminCreateTeamRequest) (requests : List AdminCreatePlayerRequest)
    (input : StoreInput) (players : Nat → WireGuardInput) (s : MemoryStore) :
    MemoryStore × Except StoreError (AdminTeam × List AdminPlayer) :=
  let created := s.createAdminTeam T request input
  match created.result with
  | .error e => (created.store, .error e)
  | .ok team =>
    let (store, createdPlayers) := importPlayers T team.id players 0 requests created.store
    match createdPlayers with
    | .error e => ((store.deleteAdminTeam team.id).store, .error e)
    | .ok createdPlayers => (store, .ok (team, createdPlayers))

/-- The loop body: a team whose players cannot all be created is deleted again. -/
def importRow (input : ImportInput) (index : Nat) (row : AdminBulkImportTeam)
    (acc : MemoryStore × AdminBulkImportResult) : MemoryStore × AdminBulkImportResult :=
  let (s, result) := acc
  let name := trimSpace row.name
  let contactEmail := trimSpace row.contactEmail
  let rowName := "row " ++ (index + 1).repr
  if name = "" ∨ contactEmail = "" then
    (s, result.fail (rowName ++ ": team name and contact_email are required"))
  else match importRequests index 0 row.players with
  | .error message => (s, result.fail message)
  | .ok requests =>
    let (store, imported) :=
      s.importTeam T { name, contactEmail } requests (input.team index) (input.player index)
    match imported with
    | .error e => (store, result.fail (rowName ++ " (" ++ name ++ "): " ++ e.text))
    | .ok (team, players) =>
      (store, { result with
        teamsCreated := result.teamsCreated + 1
        playersCreated := result.playersCreated + players.length
        teams := result.teams ++ [team]
        players := result.players ++ players })

/-- `ImportAdminTeams`: the rows one after another, each on the store that the last one left. -/
def importAdminTeams (rows : List AdminBulkImportTeam) (input : ImportInput) (s : MemoryStore) :
    MemoryStore × AdminBulkImportResult :=
  rows.zipIdx.foldl (fun acc (row, index) => importRow T input index row acc) (s, {})

end MemoryStore

/-- A call of the store, or an import. -/
inductive RegistryCall where
  | call (call : MemoryCall)
  | importAdminTeams (rows : List AdminBulkImportTeam) (input : ImportInput)

/-- The store that a call leaves, whatever it answers. -/
def RegistryCall.exec (T : CaseTable) (call : RegistryCall) (s : MemoryStore) : MemoryStore :=
  match call with
  | .call call => s.exec T call
  | .importAdminTeams rows input => (s.importAdminTeams T rows input).1

/-- The calls that an import of the rows may make. -/
def MemoryCall.ofImport (rows : List AdminBulkImportTeam) : MemoryCall → Prop
  | createAdminTeam request _ => ∃ row ∈ rows, request.name = trimSpace row.name
  | createAdminPlayer request _ =>
    ∃ row ∈ rows, ∃ player ∈ row.players, request.displayName = trimSpace player.displayName
  | deleteAdminTeam _ => True
  | _ => False

/-! ## An import as a run -/

theorem importRequests_ok {index i : Nat} {players : List AdminBulkImportPlayer}
    {requests : List AdminCreatePlayerRequest} (h : importRequests index i players = .ok requests) :
    ∀ request ∈ requests, ∃ player ∈ players, request.displayName =
      trimSpace player.displayName := by
  induction players generalizing i requests with
  | nil =>
    cases h
    exact nofun
  | cons player players ih =>
    unfold importRequests at h
    dsimp only at h
    split at h
    · cases h
    cases hrest : importRequests index (i + 1) players with
    | error e =>
      rw [hrest] at h
      cases h
    | ok rest =>
      rw [hrest] at h
      cases h
      intro request hrequest
      rcases List.mem_cons.mp hrequest with rfl | hrequest
      · exact ⟨player, List.mem_cons_self, rfl⟩
      · obtain ⟨other, hother, hname⟩ := ih hrest request hrequest
        exact ⟨other, List.mem_cons_of_mem _ hother, hname⟩

namespace MemoryStore
variable {T : CaseTable} {s : MemoryStore} {P : MemoryStore → Prop}
  {rows : List AdminBulkImportTeam}
  {row : AdminBulkImportTeam} {requests : List AdminCreatePlayerRequest}

/-- What the calls of an import keep, its loop over the players of a team keeps. -/
theorem importPlayers_keeps (teamID : Int) (input : Nat → WireGuardInput) (i : Nat)
    (hstep : ∀ call s, MemoryCall.ofImport rows call → P s → P (s.exec T call)) (hs : P s)
    (hrow : row ∈ rows) (hrequests : ∀ request ∈ requests, ∃ player ∈ row.players,
      request.displayName = trimSpace player.displayName) :
    P (importPlayers T teamID input i requests s).1 := by
  induction requests generalizing i s with
  | nil => exact hs
  | cons request requests ih =>
    rw [List.forall_mem_cons] at hrequests
    have hcreated := hstep (.createAdminPlayer { request with teamID } (input i)) s
      ⟨row, hrow, hrequests.1⟩ hs
    unfold importPlayers
    dsimp only
    split
    · exact hcreated
    · exact ih (i + 1) hcreated hrequests.2

theorem importTeam_keeps (request : AdminCreateTeamRequest) (input : StoreInput)
    (players : Nat → WireGuardInput)
    (hstep : ∀ call s, MemoryCall.ofImport rows call → P s → P (s.exec T call)) (hs : P s)
    (hrow : row ∈ rows) (hname : request.name = trimSpace row.name)
    (hrequests : ∀ request ∈ requests, ∃ player ∈ row.players,
      request.displayName = trimSpace player.displayName) :
    P (s.importTeam T request requests input players).1 := by
  have hcreated : P (s.createAdminTeam T request input).store :=
    hstep (.createAdminTeam request input) s ⟨row, hrow, hname⟩ hs
  unfold importTeam
  generalize s.createAdminTeam T request input = created at hcreated
  dsimp only
  split
  · exact hcreated
  rename_i team _
  have hplayers := importPlayers_keeps team.id players 0 hstep hcreated hrow hrequests
  split
  · exact hstep (.deleteAdminTeam team.id) _ trivial hplayers
  · exact hplayers

theorem importRow_keeps {input : ImportInput} {index : Nat}
    {acc : MemoryStore × AdminBulkImportResult}
    (hstep : ∀ call s, MemoryCall.ofImport rows call → P s → P (s.exec T call)) (hs : P acc.1)
    (hrow : row ∈ rows) : P (importRow T input index row acc).1 := by
  unfold importRow
  dsimp only
  split
  · exact hs
  split
  · exact hs
  rename_i requests hrequests
  have himported := importTeam_keeps
    { name := trimSpace row.name, contactEmail := trimSpace row.contactEmail } (input.team index)
    (input.player index) hstep hs hrow rfl (importRequests_ok hrequests)
  generalize importTeam T _ requests _ _ acc.1 = imported at himported
  rcases imported with ⟨store, _ | ⟨team, players⟩⟩
  · exact himported
  · exact himported

theorem importAdminTeams_keeps (rows : List AdminBulkImportTeam) (input : ImportInput)
    (hstep : ∀ call s, MemoryCall.ofImport rows call → P s → P (s.exec T call)) (hs : P s) :
    P (importAdminTeams T rows input s).1 := by
  have hfold :
      ∀ (entries : List (AdminBulkImportTeam × Nat)) (acc : MemoryStore × AdminBulkImportResult),
      (∀ entry ∈ entries, entry.1 ∈ rows) → P acc.1 →
      P (entries.foldl (fun acc (row, index) => importRow T input index row acc) acc).1 := by
    intro entries
    induction entries with
    | nil => exact fun _ _ h => h
    | cons entry entries ih =>
      intro acc hentries h
      rw [List.forall_mem_cons] at hentries
      exact ih _ hentries.2 (importRow_keeps hstep h hentries.1)
  exact hfold rows.zipIdx (s, {}) (fun entry hentry => List.fst_mem_of_mem_zipIdx hentry) hs

end MemoryStore

end ADPlatform.APIGateway
