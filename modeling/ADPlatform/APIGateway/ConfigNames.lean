import ADPlatform.APIGateway.BulkImport
import ADPlatform.APIGateway.Sessions
import ADPlatform.APIGateway.UniqueNames

/-! # Names in the configuration of a client

The configuration of a WireGuard client has the names of the player and of the team in a comment
line. It has the lines that it has for any other names exactly if there is no line feed in them
(`linesAsPlain_iff`). The handlers for participants refuse such a name; those for organizers do
not. -/

namespace ADPlatform.APIGateway
open GameCore (Time Stamp)
open Text

/-! ## The lines of a configuration -/

/-- The lines of a configuration, split as its readers split it. -/
def configLines (config : String) : List (List Char) := config.toList.splitOn '\n'

/-- The comment with the names. -/
def playerLine (displayName teamName : String) : String :=
  "# Player: " ++ displayName ++ " (" ++ teamName ++ ")"

/-- The peer with its two names replaced: the only data of it that comes from outside. -/
def WireGuardPeerState.named (peer : WireGuardPeerState) (displayName teamName : String) :
    WireGuardPeerState := { peer with displayName, teamName }

/-- The configuration has the lines that it has for plain names, but for the comment with the
names. -/
def LinesAsPlain (peer : WireGuardPeerState) (displayName teamName : String) : Prop :=
  ∃ before after,
    configLines (renderWireGuardConfig (peer.named "player" "team")) =
      before ++ (playerLine "player" "team").toList :: after ∧
    configLines (renderWireGuardConfig (peer.named displayName teamName)) =
      before ++ (playerLine displayName teamName).toList :: after

/-- A name that stays on its line. -/
def PlainName (name : String) : Prop := '\n' ∉ name.toList

instance (name : String) : Decidable (PlainName name) :=
  inferInstanceAs (Decidable ('\n' ∉ name.toList))

/-- Whatever the names are, they are in the configuration what plain names are. -/
def RendersPlain (names : String → Prop) : Prop := ∀ displayName teamName, names displayName →
  names teamName → ∀ peer, LinesAsPlain peer displayName teamName

theorem playerLine_plain {displayName teamName : String} :
    '\n' ∉ (playerLine displayName teamName).toList ↔
      PlainName displayName ∧ PlainName teamName := by
  simp [playerLine, PlainName]

/-- What stands before the comment with the names, and behind it. -/
theorem renderWireGuardConfig_named (peer : WireGuardPeerState) : ∃ before after : String,
    ∀ displayName teamName, renderWireGuardConfig (peer.named displayName teamName) =
      before ++ ("\n" ++ (playerLine displayName teamName ++ ("\n" ++ after))) := by
  have hcomment : "\n# Player: " = "\n" ++ "# Player: " := by decide
  have hsection :
      ")\n[Interface]\nPrivateKey = " = ")" ++ ("\n" ++ "[Interface]\nPrivateKey = ") := by
    decide
  refine ⟨"# AD Platform WireGuard peer: " ++ peer.wireGuardPeer,
    "[Interface]\nPrivateKey = " ++ (peer.clientPrivateKey ++ ("\nAddress = " ++ (peer.address ++
      ("/32\nDNS = " ++ (peer.dns ++ ("\n\n[Peer]\nPublicKey = " ++ (peer.serverPublicKey ++
      ("\nPresharedKey = " ++ (peer.presharedKey ++ ("\nAllowedIPs = " ++ (peer.allowedIPs ++
      ("\nEndpoint = " ++ (peer.serverEndpoint ++ "\nPersistentKeepalive = 25\n"))))))))))))),
    fun displayName teamName => ?_⟩
  unfold renderWireGuardConfig WireGuardPeerState.named playerLine
  dsimp only
  -- `String.reduceAppend` would put the literals together again
  rw [hcomment, hsection]
  simp only [String.append_assoc, -String.reduceAppend]

theorem linesAsPlain_iff {peer : WireGuardPeerState} {displayName teamName : String} :
    LinesAsPlain peer displayName teamName ↔ PlainName displayName ∧ PlainName teamName := by
  rw [← playerLine_plain]
  constructor
  · rintro ⟨before, after, -, hlines⟩
    have hline : (playerLine displayName teamName).toList ∈
        configLines (renderWireGuardConfig (peer.named displayName teamName)) :=
      hlines ▸ List.mem_append_right _ List.mem_cons_self
    exact notMem_of_mem_splitOn hline
  · intro hplain
    obtain ⟨before, after, hrender⟩ := renderWireGuardConfig_named peer
    have hlines (displayName teamName : String)
        (hplain : '\n' ∉ (playerLine displayName teamName).toList) :
        configLines (renderWireGuardConfig (peer.named displayName teamName)) =
          configLines before ++ (playerLine displayName teamName).toList :: configLines after := by
      have hnewline : "\n".toList = ['\n'] := by decide
      simp only [configLines, hrender, String.toList_append, hnewline, List.singleton_append,
        List.splitOn_append_cons_self, List.splitOn_eq_singleton hplain]
    exact ⟨configLines before, configLines after, hlines _ _ (by decide), hlines _ _ hplain⟩

theorem RendersPlain.of_plain {names : String → Prop} (h : ∀ name, names name → PlainName name) :
    RendersPlain names :=
  fun _ _ hdisplay hteam _ => linesAsPlain_iff.mpr ⟨h _ hdisplay, h _ hteam⟩

/-! ## Requests with names -/

/-- `unicode.IsControl`. -/
def isControl (c : Char) : Bool := c.toNat < 0x20 || (0x7f ≤ c.toNat && c.toNat < 0xa0)

/-- `validParticipantName`: not blank, at most 96 bytes, no control character. -/
def validParticipantName (value : String) : Bool :=
  let trimmed := trimSpace value
  !(trimmed = "" || 96 < trimmed.utf8ByteSize) &&
    trimmed.toList.all fun c => !(c = '\n' || c = '\r' || isControl c)

/-- A request that brings names into a store. -/
inductive NameRequest where
  | registerPlayer (request : ParticipantRegisterRequest)
  | updateParticipantProfile (request : ParticipantUpdateProfileRequest)
  | createAdminTeam (request : AdminCreateTeamRequest)
  | updateAdminTeam (request : AdminUpdateTeamRequest)
  | createAdminPlayer (request : AdminCreatePlayerRequest)
  | updateAdminPlayer (request : AdminUpdatePlayerRequest)
  | importAdminTeams (rows : List AdminBulkImportTeam)

namespace NameRequest

/-- The checks of the handler; what it passes on to the store has passed them. -/
def accepted : NameRequest → Bool
  | registerPlayer request =>
    validParticipantName request.displayName && validPassword request.password
  | updateParticipantProfile request => validParticipantName request.displayName &&
    !(trimSpace request.teamName ≠ "" && !validParticipantName request.teamName)
  | createAdminTeam request => trimSpace request.name ≠ "" && trimSpace request.contactEmail ≠ ""
  | updateAdminTeam request => trimSpace request.name ≠ "" && trimSpace request.contactEmail ≠ ""
  | createAdminPlayer request => !(request.teamID < 0) && trimSpace request.displayName ≠ "" &&
    trimSpace request.email ≠ "" && validPassword request.password
  | updateAdminPlayer request => trimSpace request.displayName ≠ "" && trimSpace request.email ≠ ""
  | importAdminTeams rows => 0 < rows.length && rows.length ≤ 200

/-- The names of the request, as they are stored. -/
def names : NameRequest → List String
  | registerPlayer request => [trimSpace request.displayName]
  | updateParticipantProfile request => [trimSpace request.displayName, trimSpace request.teamName]
  | createAdminTeam request => [trimSpace request.name]
  | updateAdminTeam request => [trimSpace request.name]
  | createAdminPlayer request => [trimSpace request.displayName]
  | updateAdminPlayer request => [trimSpace request.displayName]
  | importAdminTeams rows => rows.flatMap fun row =>
    trimSpace row.name :: row.players.map fun player => trimSpace player.displayName

/-- The request is an organizer's. -/
def organizer : NameRequest → Bool
  | registerPlayer .. | updateParticipantProfile .. => false
  | _ => true

/-- The handler has passed the request on, and no organizer puts a line feed into a name. -/
def Harmless (request : NameRequest) : Prop :=
  request.accepted = true ∧ (request.organizer = true → ∀ name ∈ request.names, PlainName name)

end NameRequest

theorem PlainName.of_valid {value : String} (h : validParticipantName value = true) :
    PlainName (trimSpace value) := by
  unfold validParticipantName at h
  obtain ⟨-, h⟩ := Bool.and_eq_true_iff.mp h
  intro hmem
  exact absurd (List.all_eq_true.mp h _ hmem) (by decide)

theorem PlainName.trimSpace {name : String} (h : PlainName name) : PlainName (trimSpace name) := by
  intro hmem
  rw [Text.trimSpace, String.toList_ofList, List.mem_reverse] at hmem
  have hmem := List.mem_reverse.mp ((List.dropWhile_sublist _).mem hmem)
  exact h ((List.dropWhile_sublist _).mem hmem)

/-- What a participant sends is plain. -/
theorem NameRequest.plain_of_accepted {request : NameRequest} (h : request.accepted = true)
    (hparticipant : request.organizer = false) : ∀ name ∈ request.names, PlainName name := by
  cases request with
  | registerPlayer request =>
    obtain ⟨hname, -⟩ := Bool.and_eq_true_iff.mp h
    exact List.forall_mem_singleton.mpr (.of_valid hname)
  | updateParticipantProfile request =>
    obtain ⟨hname, hteam⟩ := Bool.and_eq_true_iff.mp h
    refine List.forall_mem_cons.mpr ⟨.of_valid hname, List.forall_mem_singleton.mpr ?_⟩
    by_cases hempty : trimSpace request.teamName = ""
    · rw [hempty]
      exact List.not_mem_nil
    · refine .of_valid ?_
      simpa [hempty] using hteam
  | createAdminTeam | updateAdminTeam | createAdminPlayer | updateAdminPlayer | importAdminTeams =>
    cases hparticipant

theorem NameRequest.Harmless.plain {request : NameRequest} (h : request.Harmless) :
    ∀ name ∈ request.names, PlainName name := by
  cases horganizer : request.organizer with
  | false => exact request.plain_of_accepted h.1 horganizer
  | true => exact h.2 horganizer

/-- The names that a store makes up. -/
def MadeUp (name : String) : Prop :=
  name = "" ∨ name = "Organizer" ∨ ∃ id : Int, name = "Team " ++ id.repr

theorem MadeUp.plain {name : String} (h : MadeUp name) : PlainName name := by
  rcases h with rfl | rfl | ⟨id, rfl⟩
  · exact List.not_mem_nil
  · decide
  · rw [PlainName, String.toList_append, List.mem_append]
    rintro (h | h)
    · revert h
      decide
    · rcases MemoryStore.mem_repr h with hdigit | hsign
      · exact absurd hdigit (by decide)
      · exact absurd hsign (by decide)

/-! ## The names of the memory store -/

/-- Every name that the store keeps for a player. -/
def AdminPlayerRecord.names (record : AdminPlayerRecord) : List String :=
  [record.player.displayName, record.player.teamName, record.wireGuard.displayName,
    record.wireGuard.teamName]

/-- A name of the store. -/
def MemoryStore.Name (s : MemoryStore) (name : String) : Prop :=
  (∃ p record, s.players.lookup p = some record ∧ name ∈ record.names) ∨
  (∃ id team, s.teams.lookup id = some team ∧ name = team.name) ∨
  ∃ id, s.teamNames.lookup id = some name

/-- Every name of the store is one of `K`. -/
structure MemoryStore.NamesIn (K : String → Prop) (s : MemoryStore) : Prop where
  players : ∀ {p record}, s.players.lookup p = some record → ∀ name ∈ record.names, K name
  teams : ∀ {id team}, s.teams.lookup id = some team → K team.name
  teamNames : ∀ {id name}, s.teamNames.lookup id = some name → K name

namespace MemoryStore
variable {T : CaseTable} {s t : MemoryStore} {K : String → Prop} {p : Int}
  {record old : AdminPlayerRecord}

theorem NamesIn.of_accounts (h : s.NamesIn K) (heq : t.accounts = s.accounts) : t.NamesIn K := by
  have hteams : t.teams = s.teams := congrArg Accounts.teams heq
  have hnames : t.teamNames = s.teamNames := congrArg Accounts.teamNames heq
  have hplayers : t.players = s.players := congrArg Accounts.players heq
  exact ⟨fun hp => h.players (hplayers ▸ hp), fun hid => h.teams (hteams ▸ hid),
    fun hid => h.teamNames (hnames ▸ hid)⟩

theorem NamesIn.insertPlayer (h : s.NamesIn K) (hplayers : t.players = s.players.insert p record)
    (hteams : t.teams = s.teams) (hnames : t.teamNames = s.teamNames)
    (hrecord : ∀ name ∈ record.names, K name) : t.NamesIn K where
  players {q other} hq := by
    rw [hplayers] at hq
    by_cases heq : q = p
    · rw [heq] at hq
      cases (AList.lookup_insert _).symm.trans hq
      exact hrecord
    · exact h.players ((AList.lookup_insert_ne heq).symm.trans hq)
  teams hid := h.teams (hteams ▸ hid)
  teamNames hid := h.teamNames (hnames ▸ hid)

theorem NamesIn.setPlayer (h : s.NamesIn K) (hrecord : ∀ name ∈ record.names, K name) :
    (s.setPlayer p record).NamesIn K :=
  h.insertPlayer rfl rfl rfl hrecord

theorem NamesIn.setTeam (h : s.NamesIn K) {id : Int} {team : AdminTeam} (hteam : K team.name)
    (heq : t.teams = s.teams.insert id team) (hplayers : t.players = s.players)
    (hnames : ∀ {id' name}, t.teamNames.lookup id' = some name → K name) : t.NamesIn K where
  players hp := h.players (hplayers ▸ hp)
  teams {id' other} hid := by
    rw [heq] at hid
    by_cases hne : id' = id
    · rw [hne] at hid
      cases (AList.lookup_insert _).symm.trans hid
      exact hteam
    · exact h.teams ((AList.lookup_insert_ne hne).symm.trans hid)
  teamNames := hnames

theorem NamesIn.insertName (h : s.NamesIn K) {id : Int} {name : String} (hname : K name)
    {id' : Int} {other : String} (hid : (s.teamNames.insert id name).lookup id' = some other) :
    K other := by
  by_cases hne : id' = id
  · rw [hne] at hid
    cases (AList.lookup_insert _).symm.trans hid
    exact hname
  · exact h.teamNames ((AList.lookup_insert_ne hne).symm.trans hid)

/-- Players and teams have gone. -/
theorem NamesIn.sub (h : s.NamesIn K)
    (hplayers : ∀ {p record}, t.players.lookup p = some record → s.players.lookup p = some record)
    (hteams : ∀ {id team}, t.teams.lookup id = some team → s.teams.lookup id = some team)
    (hnames : ∀ {id name}, t.teamNames.lookup id = some name → s.teamNames.lookup id = some name) :
    t.NamesIn K :=
  ⟨fun hp => h.players (hplayers hp), fun hid => h.teams (hteams hid),
    fun hid => h.teamNames (hnames hid)⟩

theorem newWireGuardPeerState_names {input : WireGuardInput} {playerID teamID : Int}
    {teamName displayName peer address : String} {state : WireGuardPeerState}
    (h : input.newWireGuardPeerState playerID teamID teamName displayName peer address =
      .ok state) :
    state.displayName = displayName ∧ state.teamName = teamName := by
  simp only [WireGuardInput.newWireGuardPeerState] at h
  split at h
  · cases h
  · obtain ⟨⟨_, _⟩, -, h⟩ := exists_of_bind_eq_ok h
    obtain ⟨_, -, h⟩ := exists_of_bind_eq_ok h
    obtain ⟨_, -, h⟩ := exists_of_bind_eq_ok h
    cases h
    exact ⟨rfl, rfl⟩

theorem refreshWireGuardPeerState_names {input : WireGuardInput}
    {state refreshed : WireGuardPeerState}
    (h : input.refreshWireGuardPeerState state = .ok refreshed) :
    refreshed.displayName = state.displayName ∧ refreshed.teamName = state.teamName := by
  obtain ⟨_, -, h⟩ := exists_of_bind_eq_ok h
  cases h
  exact ⟨rfl, rfl⟩

/-- A peer is issued in the names of the player. -/
theorem names_issued {input : WireGuardInput} {playerID teamID : Int}
    {teamName displayName peer address : String} {state : WireGuardPeerState}
    (hnames : ∀ name ∈ record.names, K name) (hdisplay : K displayName) (hteam : K teamName)
    (h : input.newWireGuardPeerState playerID teamID teamName displayName peer address =
      .ok state) :
    ∀ name ∈ (record.setPeer state).names, K name := by
  obtain ⟨rfl, rfl⟩ := newWireGuardPeerState_names h
  simp only [AdminPlayerRecord.names, List.forall_mem_cons] at hnames
  simp_all [AdminPlayerRecord.names, AdminPlayerRecord.setPeer]

theorem names_issuePeer {input : WireGuardInput} {issued : AdminPlayerRecord}
    (hnames : ∀ name ∈ record.names, K name) (h : s.issuePeer input p record = .ok issued) :
    ∀ name ∈ issued.names, K name := by
  obtain ⟨address, state, -, hstate, rfl⟩ := issuePeer_ok h
  have hplayer := hnames
  simp only [AdminPlayerRecord.names, List.forall_mem_cons] at hplayer
  exact names_issued hnames hplayer.1 hplayer.2.1 hstate

theorem namesIn_updateTeamProfile {player : AdminPlayer} {request : ParticipantUpdateProfileRequest}
    (h : s.NamesIn K) (hname : K (trimSpace request.teamName))
    (ht : s.updateTeamProfile T player request = .ok t) : t.NamesIn K := by
  unfold updateTeamProfile at ht
  dsimp only at ht
  split at ht
  · cases ht
    exact h
  split at ht
  · cases ht
  split at ht
  · cases ht
    exact h
  split at ht
  · cases ht
  split at ht
  · cases ht
  · cases ht
    refine h.setTeam (t := s.renameTeam _ _ _ _) ?_ rfl rfl fun hid => ?_
    · exact hname
    · exact h.insertName hname hid

section known
variable (hmade : ∀ {name}, MadeUp name → K name)
include hmade

theorem NamesIn.teamNameForID (h : s.NamesIn K) (id : Int) : K (s.teamNameForID id) := by
  unfold MemoryStore.teamNameForID
  cases hid : s.teamNames.lookup id with
  | none => exact hmade (.inr (.inr ⟨id, rfl⟩))
  | some name => exact h.teamNames hid

theorem NamesIn.peerTeamName (h : s.NamesIn K) (player : AdminPlayer) :
    K (s.peerTeamName player) := by
  unfold MemoryStore.peerTeamName
  split
  · exact hmade (.inr (.inl rfl))
  · exact h.teamNameForID hmade _

/-! ## What the calls bring -/

theorem namesIn_registerPlayer {request : ParticipantRegisterRequest} {now : Time} (h : s.NamesIn K)
    (hname : K (trimSpace request.displayName)) :
    (s.registerPlayer T request now).store.NamesIn K := by
  have hempty : K "" := hmade (.inl rfl)
  unfold registerPlayer
  dsimp only
  split
  · exact h
  split
  · exact h
  · refine h.insertPlayer rfl rfl rfl ?_
    simp [AdminPlayerRecord.names, hname, hempty]

theorem namesIn_updateParticipantProfile {request : ParticipantUpdateProfileRequest}
    (h : s.NamesIn K) (hdisplay : K (trimSpace request.displayName))
    (hteam : K (trimSpace request.teamName)) :
    (s.updateParticipantProfile T p request).store.NamesIn K := by
  have hempty : K "" := hmade (.inl rfl)
  unfold updateParticipantProfile
  split
  · exact h
  rename_i old hold
  dsimp only
  split
  · exact h
  split
  · exact h
  split
  · exact h
  split
  · exact h
  rename_i renamed hrenamed
  have hrenamed : renamed.NamesIn K := namesIn_updateTeamProfile h hteam hrenamed
  refine hrenamed.setPlayer ?_
  have hnames := h.players hold
  have hteam := hrenamed.teamNameForID hmade old.player.teamID
  simp only [AdminPlayerRecord.names, List.forall_mem_cons] at hnames
  unfold updatedProfile
  split
  · dsimp only
    split <;> simp_all [AdminPlayerRecord.names]
  · simp_all [AdminPlayerRecord.names]

theorem namesIn_createAdminPlayer {request : AdminCreatePlayerRequest} {input : WireGuardInput}
    (h : s.NamesIn K) (hname : K (trimSpace request.displayName)) :
    (s.createAdminPlayer T request input).store.NamesIn K := by
  have hcreated : ∀ name ∈ (s.createdPlayer T request input.now).names, K name := by
    have hempty : K "" := hmade (.inl rfl)
    have horganizer : K "Organizer" := hmade (.inr (.inl rfl))
    have hteam := h.teamNameForID hmade request.teamID
    simp only [AdminPlayerRecord.names, createdPlayer, List.forall_mem_cons]
    refine ⟨hname, ?_, hempty, hempty, nofun⟩
    repeat' split
    · exact hteam
    · exact horganizer
    · exact hempty
  unfold createAdminPlayer
  split
  · exact h
  split
  · exact h
  split
  · exact h
  split
  · exact h
  dsimp only
  split
  · split
    · exact ⟨h.players, h.teams, h.teamNames⟩
    · exact h.insertPlayer rfl rfl rfl (names_issuePeer hcreated ‹_›)
  · exact h.insertPlayer rfl rfl rfl hcreated

theorem namesIn_getConfig {input : WireGuardInput} (h : s.NamesIn K) :
    (s.getAdminPlayerWireGuardConfig p input).store.NamesIn K := by
  unfold getAdminPlayerWireGuardConfig
  split
  · exact h
  rename_i old hold
  have hnames := h.players hold
  have hteam := h.peerTeamName hmade old.player
  simp only [AdminPlayerRecord.names, List.forall_mem_cons] at hnames
  split
  · exact h
  dsimp only
  split
  · refine h.setPlayer ?_
    simp_all [AdminPlayerRecord.names]
  · rename_i refreshed hrefreshed
    obtain ⟨hdisplay, hrefreshed⟩ := refreshWireGuardPeerState_names hrefreshed
    refine h.setPlayer ?_
    simp_all [AdminPlayerRecord.names]

theorem namesIn_rotate {input : WireGuardInput} (h : s.NamesIn K) :
    (s.rotateAdminPlayerWireGuardConfig p input).store.NamesIn K := by
  unfold rotateAdminPlayerWireGuardConfig
  split
  · exact h
  rename_i old hold
  have hnames := h.players hold
  split
  · exact h
  split
  · exact h
  · rename_i state hstate
    exact h.setPlayer (names_issued hnames (hnames _ List.mem_cons_self)
      (h.peerTeamName hmade old.player) hstate)

theorem namesIn_list {rt : Go.Runtime} (h : s.NamesIn K) :
    (s.listWireGuardGatewayPeers rt).store.NamesIn K := by
  refine ⟨fun {p record} hp => ?_, h.teams, h.teamNames⟩
  simp only [listWireGuardGatewayPeers] at hp
  rw [Go.Map.lookup_mapValues, Option.map_eq_some_iff] at hp
  obtain ⟨old, hold, rfl⟩ := hp
  have hnames := h.players hold
  have hteam := h.peerTeamName hmade old.player
  split
  · simp only [AdminPlayerRecord.names, List.forall_mem_cons] at hnames ⊢
    exact ⟨hnames.1, hnames.2.1, hnames.2.2.1, hteam, List.forall_mem_nil _⟩
  · exact hnames

end known

theorem namesIn_joinExistingPlayerTeam {teamKey : String} {input : WireGuardInput}
    (h : s.NamesIn K) :
    (s.joinExistingPlayerTeam T p teamKey input).store.NamesIn K := by
  unfold joinExistingPlayerTeam
  split
  · exact h
  rename_i old hold
  split
  · exact h
  split
  · exact h
  rename_i id team hfound
  split
  · exact h
  dsimp only
  have hteam : K team.name := by
    have hmem := List.mem_of_find?_eq_some hfound
    exact h.teams (Go.Map.mem_pairs.mp ((input.rt.range_perm 0 _).mem_iff.mp hmem))
  split
  · have hnames := h.players hold
    exact h.setPlayer hnames
  · rename_i joined hjoined
    refine h.setPlayer (names_issuePeer ?_ hjoined)
    have hnames := h.players hold
    simp only [AdminPlayerRecord.names, List.forall_mem_cons] at hnames
    simp_all [AdminPlayerRecord.names, AdminPlayerRecord.ofTeam, promoted]

theorem namesIn_transferTeamCaptain {q : Int} (h : s.NamesIn K) :
    (s.transferTeamCaptain p q).store.NamesIn K := by
  rcases transferTeamCaptain_cases p q s with
    ⟨e, hc⟩ | ⟨captain, target, hcaptain, htarget, hne, teamName, contactEmail, hc⟩
  · rw [hc]
    exact h
  · rw [hc]
    have hcaptain := h.players hcaptain
    have htarget := h.players htarget
    have hmember : (s.setPlayer p (captain.withRole .member)).NamesIn K := h.setPlayer hcaptain
    exact hmember.setPlayer htarget

theorem namesIn_revoke {now : Time} (h : s.NamesIn K) :
    (s.revokeAdminPlayerWireGuardConfig p now).store.NamesIn K := by
  unfold revokeAdminPlayerWireGuardConfig
  split
  · exact h
  rename_i old hold
  have hnames := h.players hold
  split
  · exact h
  · exact h.setPlayer hnames

theorem namesIn_deleteAdminPlayer (h : s.NamesIn K) : (s.deleteAdminPlayer p).store.NamesIn K := by
  unfold deleteAdminPlayer
  split
  · exact h
  · exact h.sub (fun hp => Go.Map.lookup_of_erase hp) (fun hid => hid) fun hid => hid

theorem namesIn_deleteAdminTeam {id : Int} (h : s.NamesIn K) :
    (s.deleteAdminTeam id).store.NamesIn K := by
  unfold deleteAdminTeam
  split
  · exact h
  · exact h.sub (fun hp => Go.Map.lookup_of_filterKeys hp) (fun hid => Go.Map.lookup_of_erase hid)
      fun hid => Go.Map.lookup_of_erase hid

theorem namesIn_updateAdminPlayer {request : AdminUpdatePlayerRequest} (h : s.NamesIn K)
    (hname : K (trimSpace request.displayName)) :
    (s.updateAdminPlayer T p request).store.NamesIn K := by
  unfold updateAdminPlayer
  split
  · exact h
  rename_i old hold
  refine h.setPlayer ?_
  have hnames := h.players hold
  simp only [AdminPlayerRecord.names, List.forall_mem_cons] at hnames ⊢
  refine ⟨?_, hnames.2⟩
  split
  · exact hname
  · exact hnames.1

theorem namesIn_setPlayerActive {active : Bool} (h : s.NamesIn K) :
    (s.setPlayerActive p active).store.NamesIn K := by
  unfold setPlayerActive
  split
  · exact h
  rename_i old hold
  have hnames := h.players hold
  dsimp only
  split
  · split
    · exact h.insertPlayer rfl rfl rfl hnames
    · exact ⟨h.players, h.teams, h.teamNames⟩
  · exact ⟨h.players, h.teams, h.teamNames⟩

theorem namesIn_createAdminTeam {request : AdminCreateTeamRequest} {input : StoreInput}
    (h : s.NamesIn K) (hname : K (trimSpace request.name)) :
    (s.createAdminTeam T request input).store.NamesIn K := by
  unfold createAdminTeam
  dsimp only
  split
  · exact h
  split
  · exact h
  split
  · exact h
  rename_i id hid
  split
  · exact h
  rename_i joinKey hjoinKey
  generalize hc : joinChallenges id input 1 _ _ [] = c
  have hjoined : c.store.NamesIn K := by
    rw [← hc]
    refine NamesIn.of_accounts ?_ accounts_joinChallenges
    exact h.setTeam hname rfl rfl fun hid => h.insertName hname hid
  split
  · exact hjoined
  · exact ⟨hjoined.players, hjoined.teams, hjoined.teamNames⟩

theorem namesIn_updateAdminTeam {id : Int} {request : AdminUpdateTeamRequest} (h : s.NamesIn K)
    (hname : K (trimSpace request.name)) : (s.updateAdminTeam T id request).store.NamesIn K := by
  unfold updateAdminTeam
  split
  · exact h
  rename_i team hteam
  have hold := h.teams hteam
  dsimp only
  refine h.setTeam ?_ rfl rfl fun hid => ?_
  · split
    · exact hname
    · exact hold
  · split at hid
    · exact h.insertName hname hid
    · exact h.teamNames hid

theorem namesIn_setTeamActive {id : Int} {active : Bool} (h : s.NamesIn K) :
    (s.setTeamActive id active).store.NamesIn K := by
  unfold setTeamActive
  split
  · exact h
  rename_i team hteam
  have hold := h.teams hteam
  refine h.setTeam ?_ rfl rfl h.teamNames
  split <;> exact hold

end MemoryStore

/-- The names that a call of the store takes from its request. -/
def MemoryCall.nameRequest : MemoryCall → Option NameRequest
  | registerPlayer request _ => some (.registerPlayer request)
  | updateParticipantProfile _ request => some (.updateParticipantProfile request)
  | createAdminTeam request _ => some (.createAdminTeam request)
  | updateAdminTeam _ request => some (.updateAdminTeam request)
  | createAdminPlayer request _ => some (.createAdminPlayer request)
  | updateAdminPlayer _ request => some (.updateAdminPlayer request)
  | _ => none

/-- The name that a call of the registry brings in, if it brings one. -/
def RegistryCall.nameRequest : RegistryCall → Option NameRequest
  | .call c => c.nameRequest
  | .importAdminTeams rows _ => some (.importAdminTeams rows)

namespace MemoryStore
variable {T : CaseTable} {s : MemoryStore} {K : String → Prop}

/-- A call brings no names but those of its request. -/
theorem namesIn_exec (hmade : ∀ {name}, MadeUp name → K name) {call : MemoryCall} (h : s.NamesIn K)
    (hnames : ∀ request, call.nameRequest = some request → ∀ name ∈ request.names, K name) :
    (s.exec T call).NamesIn K := by
  cases call with
  | registerPlayer => exact namesIn_registerPlayer hmade h (hnames _ rfl _ List.mem_cons_self)
  | updateParticipantProfile =>
    have hnames := hnames _ rfl
    rw [NameRequest.names, List.forall_mem_cons, List.forall_mem_singleton] at hnames
    exact namesIn_updateParticipantProfile hmade h hnames.1 hnames.2
  | createAdminPlayer => exact namesIn_createAdminPlayer hmade h (hnames _ rfl _ List.mem_cons_self)
  | joinExistingPlayerTeam => exact namesIn_joinExistingPlayerTeam h
  | transferTeamCaptain => exact namesIn_transferTeamCaptain h
  | getAdminPlayerWireGuardConfig => exact namesIn_getConfig hmade h
  | rotateAdminPlayerWireGuardConfig => exact namesIn_rotate hmade h
  | revokeAdminPlayerWireGuardConfig => exact namesIn_revoke h
  | listWireGuardGatewayPeers => exact namesIn_list hmade h
  | deleteAdminPlayer => exact namesIn_deleteAdminPlayer h
  | updateAdminPlayer => exact namesIn_updateAdminPlayer h (hnames _ rfl _ List.mem_cons_self)
  | setPlayerActive => exact namesIn_setPlayerActive h
  | createAdminTeam => exact namesIn_createAdminTeam h (hnames _ rfl _ List.mem_cons_self)
  | deleteAdminTeam => exact namesIn_deleteAdminTeam h
  | updateAdminTeam => exact namesIn_updateAdminTeam h (hnames _ rfl _ List.mem_cons_self)
  | setTeamActive => exact namesIn_setTeamActive h
  | createAdminChallenge | updateAdminChallenge | deleteAdminChallenge | setChallengeMaintenance
  | rotateChallengeUnlockProof | deployAdminChallenge | deleteAdminDeployment
  | reconcileAdminDeployments | requeueTeamServices | requeueChallengeServices | unlockService
  | createSSHSession | markSSHSessionApplyFailure | prepareFactoryResetService
  | completeFactoryResetService | markFactoryResetFailure | restartService | updatePlatformSettings
  | setActiveFlagFormat | setMatchStarted | setMatchPaused =>
    exact h.of_accounts (accounts_exec rfl)

/-- Nor does an import. -/
theorem namesIn_importAdminTeams {rows : List AdminBulkImportTeam} {input : ImportInput}
    (h : s.NamesIn PlainName)
    (hnames : ∀ name ∈ (NameRequest.importAdminTeams rows).names, PlainName name) :
    (s.importAdminTeams T rows input).1.NamesIn PlainName := by
  have hrow : ∀ row ∈ rows, PlainName (trimSpace row.name) ∧
      ∀ player ∈ row.players, PlainName (trimSpace player.displayName) := by
    intro row hrow
    refine ⟨hnames _ (List.mem_flatMap.mpr ⟨row, hrow, List.mem_cons_self⟩),
      fun player hplayer => ?_⟩
    exact hnames _ (List.mem_flatMap.mpr
      ⟨row, hrow, List.mem_cons_of_mem _ (List.mem_map_of_mem hplayer)⟩)
  refine importAdminTeams_keeps rows input (fun call s hcall hs => ?_) h
  cases call with
  | createAdminTeam request =>
    obtain ⟨row, hmem, hname⟩ := hcall
    refine namesIn_createAdminTeam hs ?_
    rw [hname]
    exact (hrow row hmem).1.trimSpace
  | createAdminPlayer request =>
    obtain ⟨row, hmem, player, hplayer, hname⟩ := hcall
    refine namesIn_createAdminPlayer MadeUp.plain hs ?_
    rw [hname]
    exact ((hrow row hmem).2 player hplayer).trimSpace
  | deleteAdminTeam => exact namesIn_deleteAdminTeam hs
  | _ => exact hcall.elim

theorem namesIn_registryCall {call : RegistryCall} (h : s.NamesIn PlainName)
    (hnames : ∀ request, call.nameRequest = some request → ∀ name ∈ request.names, PlainName name) :
    (call.exec T s).NamesIn PlainName := by
  cases call with
  | call call => exact namesIn_exec MadeUp.plain h hnames
  | importAdminTeams => exact namesIn_importAdminTeams h (hnames _ rfl)

theorem names_mustNewAdminPlayerRecord {id teamID : Int} {teamName displayName email : String}
    {role : Role} {createdAt : Time} {input : WireGuardInput} {record : AdminPlayerRecord}
    (h : mustNewAdminPlayerRecord id teamID teamName displayName email role createdAt input
      = .ok record) (hdisplay : K displayName) (hteam : K teamName) :
    ∀ name ∈ record.names, K name := by
  obtain ⟨state, hstate, h⟩ := exists_of_bind_eq_ok h
  cases h
  obtain ⟨hstateDisplay, hstateTeam⟩ := newWireGuardPeerState_names hstate
  simp_all [AdminPlayerRecord.names, AdminPlayerRecord.setPeer]

/-- The names of the captains of the seeded teams. -/
def seedNames : List String :=
  ["Team Alpha", "Alpha Captain", "Team Delta", "Delta Captain", "Team Sigma", "Sigma Captain",
   "Team Orchid", "Orchid Captain"]

theorem names_seedPlayers {now : Time} {input : Int → WireGuardInput}
    {players : List AdminPlayerRecord} (h : seedPlayers now input = .ok players)
    (hK : ∀ name ∈ seedNames, K name) : ∀ record ∈ players, ∀ name ∈ record.names, K name := by
  simp only [seedNames, List.forall_mem_cons] at hK
  obtain ⟨hteam₁, hname₁, hteam₂, hname₂, hteam₃, hname₃, hteam₄, hname₄, -⟩ := hK
  unfold seedPlayers at h
  obtain ⟨alpha, halpha, h⟩ := exists_of_bind_eq_ok h
  obtain ⟨delta, hdelta, h⟩ := exists_of_bind_eq_ok h
  obtain ⟨sigma, hsigma, h⟩ := exists_of_bind_eq_ok h
  obtain ⟨orchid, horchid, h⟩ := exists_of_bind_eq_ok h
  cases h
  intro record hrecord
  simp only [List.mem_cons, List.not_mem_nil, or_false] at hrecord
  rcases hrecord with rfl | rfl | rfl | rfl
  · exact names_mustNewAdminPlayerRecord halpha hname₁ hteam₁
  · exact names_mustNewAdminPlayerRecord hdelta hname₂ hteam₂
  · exact names_mustNewAdminPlayerRecord hsigma hname₃ hteam₃
  · exact names_mustNewAdminPlayerRecord horchid hname₄ hteam₄

theorem namesIn_initial (h : s.Initial) : s.NamesIn PlainName := by
  rcases h with rfl | ⟨teamID, now, input, h⟩
  · exact ⟨nofun, nofun, nofun⟩
  have hteams : ∀ team ∈ firstTeams teamID, PlainName team.name := by
    have hseeds : ∀ team ∈ seedTeams, PlainName team.name := by decide
    intro team hteam
    unfold firstTeams at hteam
    split at hteam
    · exact hseeds team hteam
    · rcases List.mem_append.mp hteam with hteam | hteam
      · exact hseeds team hteam
      · rw [List.mem_singleton.mp hteam]
        exact MadeUp.plain (.inr (.inr ⟨teamID, rfl⟩))
  obtain ⟨players, hplayers, h⟩ := exists_of_bind_eq_ok h
  have hnames := names_seedPlayers (K := PlainName) hplayers (by decide)
  cases h
  refine ⟨fun hp => ?_, fun hid => ?_, fun hid => ?_⟩
  · rcases Go.Map.exists_of_lookup_fill hp with ⟨record, hrecord, rfl, rfl⟩ | hp
    · exact hnames record hrecord
    · cases hp
  · rcases Go.Map.exists_of_lookup_fill hid with ⟨team, hteam, rfl, rfl⟩ | hid
    · exact hteams team hteam
    · cases hid
  · rcases Go.Map.exists_of_lookup_fill hid with ⟨team, hteam, rfl, rfl⟩ | hid
    · exact hteams team hteam
    · cases hid

theorem NamesIn.name (h : s.NamesIn K) {name : String} (hname : s.Name name) : K name := by
  rcases hname with ⟨p, record, hp, hname⟩ | ⟨id, team, hid, rfl⟩ | ⟨id, hid⟩
  · exact h.players hp name hname
  · exact h.teams hid
  · exact h.teamNames hid

/-- As long as organizers put no line feed into a name, no name of the store has one. -/
theorem rendersPlain_run (T : CaseTable) (hs : s.Initial) {calls : List RegistryCall}
    (hcalls : ∀ call ∈ calls, ∀ request, call.nameRequest = some request → request.Harmless) :
    Runs.Always (RegistryCall.exec T) (fun s => RendersPlain s.Name) s calls := by
  rintro before after rfl
  have hstep (call : RegistryCall) (s : MemoryStore) (h : s.NamesIn PlainName)
      (hcall : ∀ request, call.nameRequest = some request → request.Harmless) :
      (call.exec T s).NamesIn PlainName :=
    namesIn_registryCall h fun request hrequest => (hcall request hrequest).plain
  have hnames : (Runs.run (RegistryCall.exec T) s before).NamesIn PlainName := by
    refine Runs.run_induction (namesIn_initial hs) hstep fun first call rest heq => ?_
    exact hcalls call (by rw [heq]; simp)
  exact .of_plain fun name hname => hnames.name hname

end MemoryStore

end ADPlatform.APIGateway
