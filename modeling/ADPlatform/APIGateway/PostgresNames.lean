import ADPlatform.APIGateway.ConfigNames

/-! # Names in the tables of the postgres store

The transactions of `postgresStore` that change the names of players and teams, or who has which
name in its configuration. A transaction that fails leaves no trace, so a run is the list of the
committed ones; an import commits a transaction for every team and every player. -/

namespace ADPlatform.APIGateway
open Text

/-- The columns of `players` that say which names a configuration is rendered with. -/
structure PlayerNameRow where
  teamID : Option Int
  displayName : String
  role : Role
  deriving DecidableEq, Repr

/-- The columns of the database that hold names. -/
structure NameTables where
  teams : Go.Map Int String := ∅
  players : Go.Map Int PlayerNameRow := ∅

/-- A committed transaction, with the id that it has given out. -/
inductive NameTransaction where
  | registerPlayer (request : ParticipantRegisterRequest) (id : Int)
  | updateParticipantProfile (playerID : Int) (request : ParticipantUpdateProfileRequest)
  | createAdminTeam (request : AdminCreateTeamRequest) (id : Int)
  | updateAdminTeam (teamID : Int) (request : AdminUpdateTeamRequest)
  | createAdminPlayer (request : AdminCreatePlayerRequest) (role : Role) (id : Int)
  | updateAdminPlayer (playerID : Int) (request : AdminUpdatePlayerRequest)
  | importTeam (rows : List AdminBulkImportTeam) (index : Nat) (id : Int)
  | importPlayer (rows : List AdminBulkImportTeam) (index playerIndex : Nat) (teamID : Int)
      (role : Role)
      (id : Int)
  | joinExistingPlayerTeam (playerID teamID : Int) (role : Role)
  | transferTeamCaptain (captainPlayerID targetPlayerID : Int)
  | setPlayerRole (playerID : Int) (role : Role)
  | deleteAdminPlayer (playerID : Int)
  | deleteAdminTeam (teamID : Int)

/-- The name that a transaction brings in, if it brings one. -/
def NameTransaction.nameRequest : NameTransaction → Option NameRequest
  | registerPlayer request _ => some (.registerPlayer request)
  | updateParticipantProfile _ request => some (.updateParticipantProfile request)
  | createAdminTeam request _ => some (.createAdminTeam request)
  | updateAdminTeam _ request => some (.updateAdminTeam request)
  | createAdminPlayer request .. => some (.createAdminPlayer request)
  | updateAdminPlayer _ request => some (.updateAdminPlayer request)
  | importTeam rows .. | importPlayer rows .. => some (.importAdminTeams rows)
  | _ => none

namespace NameTables

/-- `INSERT INTO players`, or an `UPDATE` of the row. -/
def setPlayer (t : NameTables) (playerID : Int) (row : PlayerNameRow) : NameTables :=
  { t with players := t.players.insert playerID row }

/-- The team's name written. -/
def setTeam (t : NameTables) (teamID : Int) (name : String) : NameTables :=
  { t with teams := t.teams.insert teamID name }

/-- `UPDATE players ... WHERE id = $1` -/
def updatePlayer (t : NameTables) (playerID : Int) (f : PlayerNameRow → PlayerNameRow) :
    NameTables :=
  match t.players.lookup playerID with
  | none => t
  | some row => t.setPlayer playerID (f row)

/-- `UPDATE teams SET name = $2 WHERE id = $1` -/
def renameTeam (t : NameTables) (teamID : Int) (name : String) : NameTables :=
  if (t.teams.lookup teamID).isSome then t.setTeam teamID name else t

/-- The team of a new player; ids that are not positive stand for none. -/
def teamColumn (teamID : Int) : Option Int := if teamID > 0 then some teamID else none

/-- The rows a transaction leaves; a refused one writes nothing. -/
def exec (transaction : NameTransaction) (t : NameTables) : NameTables :=
  match transaction with
  | .registerPlayer request id =>
    t.setPlayer id { teamID := none, displayName := trimSpace request.displayName, role := .member }
  | .updateParticipantProfile playerID request =>
    match t.players.lookup playerID with
    | none => t
    | some row =>
      let renamed := match row.teamID, row.role with
        | some teamID, .captain =>
          if teamID > 0 then t.renameTeam teamID (trimSpace request.teamName) else t
        | _, _ => t
      renamed.updatePlayer playerID fun row =>
        { row with displayName := trimSpace request.displayName }
  | .createAdminTeam request id => t.setTeam id (trimSpace request.name)
  | .updateAdminTeam teamID request => t.renameTeam teamID (trimSpace request.name)
  | .createAdminPlayer request role id =>
    t.setPlayer id
      { teamID := teamColumn request.teamID, displayName := trimSpace request.displayName, role }
  | .updateAdminPlayer playerID request =>
    t.updatePlayer playerID fun row =>
      { row with displayName := trimSpace request.displayName, role := normalizedRole request.role }
  | .importTeam rows index id =>
    match rows[index]? with
    | none => t
    | some row => t.setTeam id (trimSpace (trimSpace row.name))
  | .importPlayer rows index playerIndex teamID role id =>
    match rows[index]?.bind (·.players[playerIndex]?) with
    | none => t
    | some player =>
      t.setPlayer id { teamID := teamColumn teamID, role
                       displayName := trimSpace (trimSpace player.displayName) }
  | .joinExistingPlayerTeam playerID teamID role =>
    t.updatePlayer playerID fun row => { row with teamID := some teamID, role }
  | .transferTeamCaptain captainPlayerID targetPlayerID =>
    (t.updatePlayer captainPlayerID fun row =>
      { row with role := .member }).updatePlayer targetPlayerID
      fun row => { row with role := .captain }
  | .setPlayerRole playerID role => t.updatePlayer playerID fun row => { row with role }
  | .deleteAdminPlayer playerID => { t with players := t.players.erase playerID }
  | .deleteAdminTeam teamID =>
    -- `ON DELETE CASCADE`
    { teams := t.teams.erase teamID
      players := t.players.filterKeys fun id =>
        (t.players.lookup id).all fun row => row.teamID ≠ some teamID }

/-- The names that `loadWireGuardProvisionIdentityTx` finds for the configuration of a player. -/
def identity (t : NameTables) (playerID : Int) : Option (String × String) :=
  match t.players.lookup playerID with
  | none => none
  | some row =>
    let teamName := match row.teamID.bind fun teamID => t.teams.lookup teamID with
      | some name => name
      | none => if row.role = .organizer then "Organizer" else ""
    if row.teamID.getD 0 ≤ 0 ∧ row.role ≠ .organizer then none else some (row.displayName, teamName)

/-- The players of the migration's seed rows. -/
def seedRows : List (Int × PlayerNameRow) :=
  [(1, ⟨some 101, "Alpha Captain", .captain⟩), (2, ⟨some 102, "Delta Captain", .captain⟩),
   (3, ⟨some 103, "Sigma Captain", .captain⟩), (4, ⟨some 104, "Orchid Captain", .captain⟩)]

/-- The tables after the migrations, without the seeds or with them. -/
def Initial (t : NameTables) : Prop :=
  t = {} ∨ t = { teams := Go.Map.fill (·.id) (·.name) seedTeams ∅
                 players := Go.Map.fill (·.1) (·.2) seedRows ∅ }

/-- A name of the tables. -/
def Name (t : NameTables) (name : String) : Prop :=
  (∃ p row, t.players.lookup p = some row ∧ name = row.displayName) ∨
  ∃ id, t.teams.lookup id = some name

/-- Every name of the tables is one of `K`. -/
structure NamesIn (K : String → Prop) (t : NameTables) : Prop where
  players : ∀ {p row}, t.players.lookup p = some row → K row.displayName
  teams : ∀ {id name}, t.teams.lookup id = some name → K name

variable {K : String → Prop} {t : NameTables} {p : Int} {row : PlayerNameRow}

theorem NamesIn.name (h : t.NamesIn K) {name : String} (hname : t.Name name) : K name := by
  rcases hname with ⟨p, row, hp, rfl⟩ | ⟨id, hid⟩
  · exact h.players hp
  · exact h.teams hid

theorem NamesIn.setPlayer (h : t.NamesIn K) (p : Int) (hrow : K row.displayName) :
    (t.setPlayer p row).NamesIn K where
  players {q other} hq := by
    by_cases heq : q = p
    · rw [heq] at hq
      cases (AList.lookup_insert _).symm.trans hq
      exact hrow
    · exact h.players ((AList.lookup_insert_ne heq).symm.trans hq)
  teams := h.teams

theorem NamesIn.setTeam (h : t.NamesIn K) (id : Int) {name : String} (hname : K name) :
    (t.setTeam id name).NamesIn K where
  players := h.players
  teams {id' other} hid := by
    by_cases heq : id' = id
    · rw [heq] at hid
      cases (AList.lookup_insert _).symm.trans hid
      exact hname
    · exact h.teams ((AList.lookup_insert_ne heq).symm.trans hid)

theorem NamesIn.updatePlayer (h : t.NamesIn K) (p : Int) {f : PlayerNameRow → PlayerNameRow}
    (hf : ∀ row : PlayerNameRow, K row.displayName → K (f row).displayName) :
    (t.updatePlayer p f).NamesIn K := by
  unfold NameTables.updatePlayer
  split
  · exact h
  · exact h.setPlayer p (hf _ (h.players ‹_›))

theorem NamesIn.renameTeam (h : t.NamesIn K) (id : Int) {name : String} (hname : K name) :
    (t.renameTeam id name).NamesIn K := by
  unfold NameTables.renameTeam
  split
  · exact h.setTeam id hname
  · exact h

theorem plain_row {rows : List AdminBulkImportTeam} {index : Nat} {row : AdminBulkImportTeam}
    (hnames : ∀ name ∈ (NameRequest.importAdminTeams rows).names, PlainName name)
    (hrow : rows[index]? = some row) : PlainName (trimSpace row.name) ∧
      ∀ player ∈ row.players, PlainName (trimSpace player.displayName) := by
  have hmem := List.mem_of_getElem? hrow
  refine ⟨hnames _ (List.mem_flatMap.mpr ⟨row, hmem, List.mem_cons_self⟩), fun player hplayer => ?_⟩
  exact hnames _ (List.mem_flatMap.mpr
    ⟨row, hmem, List.mem_cons_of_mem _ (List.mem_map_of_mem hplayer)⟩)

/-- A transaction brings no names but those of its request. -/
theorem namesIn_exec {transaction : NameTransaction} (h : t.NamesIn PlainName)
    (hnames : ∀ request, transaction.nameRequest = some request → ∀ name ∈ request.names,
      PlainName name) :
    (t.exec transaction).NamesIn PlainName := by
  cases transaction with
  | registerPlayer request id => exact h.setPlayer id (hnames _ rfl _ List.mem_cons_self)
  | updateParticipantProfile playerID request =>
    have hnames := hnames _ rfl
    rw [NameRequest.names, List.forall_mem_cons, List.forall_mem_singleton] at hnames
    unfold exec
    dsimp only
    split
    · exact h
    · refine NamesIn.updatePlayer ?_ playerID fun _ _ => hnames.1
      split
      · split
        · exact h.renameTeam _ hnames.2
        · exact h
      · exact h
  | createAdminTeam request id => exact h.setTeam id (hnames _ rfl _ List.mem_cons_self)
  | updateAdminTeam teamID request => exact h.renameTeam teamID (hnames _ rfl _ List.mem_cons_self)
  | createAdminPlayer request role id => exact h.setPlayer id (hnames _ rfl _ List.mem_cons_self)
  | updateAdminPlayer playerID request =>
    exact h.updatePlayer playerID fun _ _ => hnames _ rfl _ List.mem_cons_self
  | importTeam rows index id =>
    unfold exec
    dsimp only
    split
    · exact h
    · exact h.setTeam id (plain_row (hnames _ rfl) ‹_›).1.trimSpace
  | importPlayer rows index playerIndex teamID role id =>
    unfold exec
    dsimp only
    split
    · exact h
    · rename_i player hplayer
      obtain ⟨row, hrow, hplayer⟩ := Option.bind_eq_some_iff.mp hplayer
      have hplain := (plain_row (hnames _ rfl) hrow).2 player (List.mem_of_getElem? hplayer)
      exact h.setPlayer id hplain.trimSpace
  | joinExistingPlayerTeam playerID => exact h.updatePlayer playerID fun _ hname => hname
  | transferTeamCaptain captain target =>
    refine NamesIn.updatePlayer (NamesIn.updatePlayer h captain ?_) target ?_
    · exact fun _ hname => hname
    · exact fun _ hname => hname
  | setPlayerRole playerID => exact h.updatePlayer playerID fun _ hname => hname
  | deleteAdminPlayer => exact ⟨fun hp => h.players (Go.Map.lookup_of_erase hp), h.teams⟩
  | deleteAdminTeam =>
    exact ⟨fun hp => h.players (Go.Map.lookup_of_filterKeys hp),
      fun hid => h.teams (Go.Map.lookup_of_erase hid)⟩

theorem namesIn_initial (h : t.Initial) : t.NamesIn PlainName := by
  rcases h with rfl | rfl
  · exact ⟨nofun, nofun⟩
  have hrows : ∀ entry ∈ seedRows, PlainName entry.2.displayName := by decide
  have hteams : ∀ team ∈ seedTeams, PlainName team.name := by decide
  constructor
  · intro p row hp
    rcases Go.Map.exists_of_lookup_fill hp with ⟨entry, hentry, -, rfl⟩ | hp
    · exact hrows entry hentry
    · cases hp
  · intro id name hid
    rcases Go.Map.exists_of_lookup_fill hid with ⟨team, hteam, -, rfl⟩ | hid
    · exact hteams team hteam
    · cases hid

/-- A configuration is rendered with names of the tables, or with made-up ones. -/
theorem NamesIn.identity (h : t.NamesIn PlainName) {displayName teamName : String}
    (hidentity : t.identity p = some (displayName, teamName)) :
    PlainName displayName ∧ PlainName teamName := by
  unfold NameTables.identity at hidentity
  split at hidentity
  · cases hidentity
  rename_i row hrow
  dsimp only at hidentity
  split at hidentity
  · cases hidentity
  cases hidentity
  refine ⟨h.players hrow, ?_⟩
  split
  · rename_i name hname
    obtain ⟨id, -, hid⟩ := Option.bind_eq_some_iff.mp hname
    exact h.teams hid
  · split
    · exact MadeUp.plain (.inr (.inl rfl))
    · exact MadeUp.plain (.inl rfl)

theorem rendersPlain_run (ht : t.Initial) {transactions : List NameTransaction}
    (htransactions : ∀ transaction ∈ transactions, ∀ request,
      transaction.nameRequest = some request → request.Harmless) :
    Runs.Always exec (fun t => RendersPlain t.Name ∧ ∀ p displayName teamName,
      t.identity p = some (displayName, teamName) → ∀ peer, LinesAsPlain peer displayName teamName)
      t transactions := by
  rintro before after rfl
  have hstep (transaction : NameTransaction) (t : NameTables) (h : t.NamesIn PlainName)
      (hcall : ∀ request, transaction.nameRequest = some request → request.Harmless) :
      (t.exec transaction).NamesIn PlainName :=
    namesIn_exec h fun request hrequest => (hcall request hrequest).plain
  have hnames : (Runs.run exec t before).NamesIn PlainName := by
    refine Runs.run_induction (namesIn_initial ht) hstep fun first transaction rest heq => ?_
    exact htransactions transaction (by rw [heq]; simp)
  refine ⟨.of_plain fun name hname =>
    hnames.name hname, fun p displayName teamName hidentity peer => ?_⟩
  exact linesAsPlain_iff.mpr (hnames.identity hidentity)

end NameTables

/-- In either store: as long as organizers put no line feed into a name, every configuration has
the lines that it has for plain names. -/
theorem configurations_plain (T : CaseTable) :
    (∀ (s : MemoryStore) (calls : List RegistryCall), s.Initial →
      (∀ call ∈ calls, ∀ request, call.nameRequest = some request → request.Harmless) →
      Runs.Always (RegistryCall.exec T) (fun s => RendersPlain s.Name) s calls) ∧
    ∀ (t : NameTables) (transactions : List NameTransaction), t.Initial →
      (∀ transaction ∈ transactions, ∀ request, transaction.nameRequest = some request →
        request.Harmless) →
      Runs.Always NameTables.exec (fun t => RendersPlain t.Name ∧ ∀ p displayName teamName,
        t.identity p = some (displayName, teamName) →
        ∀ peer, LinesAsPlain peer displayName teamName) t transactions :=
  ⟨fun _ _ hs hcalls => MemoryStore.rendersPlain_run T hs hcalls,
    fun _ _ ht htransactions => NameTables.rendersPlain_run ht htransactions⟩

/-- A player registers, and an organizer makes a team. -/
def plainCalls : List RegistryCall :=
  [.call (.registerPlayer
    { displayName := "Ada", email := "ada@example.com", password := "longpassword" } 0),
   .call (.createAdminTeam { name := "Blue", contactEmail := "blue@example.com" } {})]

/-- Transactions with plain names only. -/
def plainTransactions : List NameTransaction :=
  [.createAdminTeam { name := "Blue", contactEmail := "blue@example.com" } 101,
   .createAdminPlayer { teamID := 101, displayName := "Ann", email := "ann@example.com"
                        password := "longpassword" } .captain 1]

theorem configurations_plain_plainCalls :
    Runs.Always (RegistryCall.exec .ascii) (fun s => RendersPlain s.Name) {} plainCalls ∧
    Runs.Always NameTables.exec (fun t => RendersPlain t.Name ∧ ∀ p displayName teamName,
      t.identity p = some (displayName, teamName) → ∀ peer, LinesAsPlain peer displayName teamName)
      {} plainTransactions := by
  constructor
  · refine (configurations_plain .ascii).1 {} plainCalls (.inl rfl) fun call hcall request
      hrequest => ?_
    simp only [plainCalls, List.mem_cons, List.not_mem_nil, or_false] at hcall
    rcases hcall with rfl | rfl
    · cases hrequest
      exact ⟨by decide, nofun⟩
    · cases hrequest
      exact ⟨by decide, fun _ => by decide⟩
  · refine (configurations_plain .ascii).2 {} plainTransactions (.inl rfl)
      fun transaction htransaction request hrequest => ?_
    simp only [plainTransactions, List.mem_cons, List.not_mem_nil, or_false] at htransaction
    rcases htransaction with rfl | rfl
    · cases hrequest
      exact ⟨by decide, fun _ => by decide⟩
    · cases hrequest
      exact ⟨by decide, fun _ => by decide⟩

/-- A name that puts a section and a key into the configuration. -/
def injectingName : String := "Eve\n[Peer]\nAllowedIPs = 10.80.0.0/16\n# Eve"

/-- A call whose display name carries a second configuration section. -/
def injection : RegistryCall :=
  .call (.createAdminPlayer { displayName := injectingName, email := "eve@example.com"
                              password := "longpassword", role := "organizer" }
    MemoryStore.testKeys)

theorem name_injects :
    ¬ ∀ (T : CaseTable) (s : MemoryStore) (calls : List RegistryCall), s.Initial →
    (∀ call ∈ calls, ∀ request, call.nameRequest = some request → request.accepted = true) →
    Runs.Always (RegistryCall.exec T) (fun s => RendersPlain s.Name) s calls := by
  intro h
  have hplain := (h .ascii {} [injection] (.inl rfl) fun call hcall request hrequest => by
    cases List.mem_singleton.mp hcall
    cases hrequest
    decide).last
  have hplayer : ((Runs.run (RegistryCall.exec .ascii) {} [injection]).players.lookup 1).any
      (fun record => injectingName ∈ record.names) = true := by decide +kernel
  obtain ⟨record, hrecord, hname⟩ := (Option.any_eq_true _ _).mp hplayer
  have hname : MemoryStore.Name _ injectingName :=
    .inl ⟨1, record, hrecord, of_decide_eq_true hname⟩
  have hlines := hplain injectingName injectingName hname hname {}
  exact absurd (linesAsPlain_iff.mp hlines).1 (by decide)

end ADPlatform.APIGateway
