import ADPlatform.APIGateway.MemoryRuns

/-! # The players of the in-memory store

`RosterStep` lists what each call can do to the players. What holds of the players in every
reachable store is proved from it, one case for each kind of step. -/

namespace ADPlatform.APIGateway
open GameCore (Time)
open Text

/-- Was the call refused? -/
def Change.failed (c : Change σ α) : Bool :=
  match c.result with
  | .ok _ => false
  | .error _ => true

theorem Change.failed_of_result {c : Change σ α} {e : StoreError} (h : c.result = .error e) :
    c.failed = true := by
  rw [failed, h]

theorem Change.not_failed_of_result {c : Change σ α} {a : α} (h : c.result = .ok a) :
    c.failed = false := by
  rw [failed, h]

/-- The players and the marks on them. -/
structure Roster where
  players : Go.Map Int AdminPlayerRecord
  deactivated : Go.Map Int Bool
  nextID : Int

namespace Roster

/-- A player is active unless marked. -/
def active (r : Roster) (playerID : Int) : Bool := !r.deactivated.get playerID false

/-- The player's record replaced. -/
def setPlayer (r : Roster) (playerID : Int) (record : AdminPlayerRecord) : Roster :=
  { r with players := r.players.insert playerID record }

/-- A player with the next id. -/
def add (r : Roster) (record : AdminPlayerRecord) : Roster :=
  { r with players := r.players.insert r.nextID record, nextID := r.nextID + 1 }

variable {r r' : Roster} {p q : Int} {record old : AdminPlayerRecord}

theorem lookup_setPlayer : (r.setPlayer p record).players.lookup q =
    if q = p then some record else r.players.lookup q := by
  unfold setPlayer
  split
  · rename_i h
    rw [h, AList.lookup_insert]
  · exact AList.lookup_insert_ne ‹_›

theorem lookup_add : (r.add record).players.lookup q =
    if q = r.nextID then some record else r.players.lookup q :=
  lookup_setPlayer

/-- No player is new, and each has changed as `R` allows. -/
def Changes (R : AdminPlayerRecord → AdminPlayerRecord → Prop) (r r' : Roster) : Prop :=
  ∀ p record, r'.players.lookup p = some record →
    ∃ old, r.players.lookup p = some old ∧ R old record

variable {R : AdminPlayerRecord → AdminPlayerRecord → Prop}

theorem Changes.of_sub (hrefl : ∀ record, R record record)
    (h : ∀ q record, r'.players.lookup q = some record → r.players.lookup q = some record) :
    Changes R r r' :=
  fun _ _ hq => ⟨_, h _ _ hq, hrefl _⟩

theorem Changes.setPlayer (hrefl : ∀ record, R record record) (hold : r.players.lookup p = some old)
    (hR : R old record) : Changes R r (r.setPlayer p record) := by
  intro q other hq
  rw [lookup_setPlayer] at hq
  split at hq
  · rename_i h
    cases hq
    exact ⟨old, h ▸ hold, hR⟩
  · exact ⟨other, hq, hrefl other⟩

/-- A player is stored under its id, and ids are given out in order. -/
structure Numbered (r : Roster) : Prop where
  id_eq : ∀ {p record}, r.players.lookup p = some record → record.player.id = p
  below : ∀ {p record}, r.players.lookup p = some record → 0 < p ∧ p < r.nextID
  deactivated : ∀ {p}, r.active p = false → p < r.nextID
  next : 0 < r.nextID

theorem Numbered.changes (h : r.Numbered)
    (hr : Changes (fun old record => record.player.id = old.player.id) r r')
    (hdeactivated : ∀ {p}, r'.active p = false → p < r.nextID) (hnext : r'.nextID = r.nextID) :
    r'.Numbered where
  id_eq hp := by
    obtain ⟨old, hold, hid⟩ := hr _ _ hp
    rw [hid, h.id_eq hold]
  below hp := by
    obtain ⟨old, hold, -⟩ := hr _ _ hp
    rw [hnext]
    exact h.below hold
  deactivated hp := by
    rw [hnext]
    exact hdeactivated hp
  next := hnext ▸ h.next

theorem Numbered.setPlayer (h : r.Numbered) (hold : r.players.lookup p = some old)
    (hid : record.player.id = old.player.id) : (r.setPlayer p record).Numbered :=
  h.changes (.setPlayer (fun _ => rfl) hold hid) h.deactivated rfl

theorem Numbered.add (h : r.Numbered) (hid : record.player.id = r.nextID) :
    (r.add record).Numbered where
  id_eq hp := by
    rw [lookup_add] at hp
    split at hp
    · rename_i heq
      cases hp
      rw [hid, heq]
    · exact h.id_eq hp
  below hp := by
    have hnext : (r.add record).nextID = r.nextID + 1 := rfl
    rw [lookup_add] at hp
    split at hp
    · have := h.next
      omega
    · have := h.below hp
      omega
  deactivated hp := Int.lt_add_one_iff.mpr (h.deactivated hp).le
  next := Int.add_pos h.next Int.one_pos

theorem Numbered.deactivated_erase (h : r.Numbered) (p : Int) {q : Int}
    (hq : active { r with deactivated := r.deactivated.erase p } q = false) : q < r.nextID := by
  simp only [active, Go.Map.get_erase] at hq
  split at hq
  · cases hq
  · exact h.deactivated hq

/-- The next id is that of an active player. -/
theorem Numbered.active_next (h : r.Numbered) : r.active r.nextID = true := by
  cases hactive : r.active r.nextID with
  | true => rfl
  | false => exact absurd (h.deactivated hactive) (lt_irrefl _)

/-- Players have gone. -/
theorem Numbered.sub (h : r.Numbered) {players : Go.Map Int AdminPlayerRecord}
    (hsub : ∀ q record, players.lookup q = some record → r.players.lookup q = some record) :
    { r with players }.Numbered :=
  h.changes (.of_sub (fun _ => rfl) hsub) h.deactivated rfl

end Roster

/-- The calls that may give a player a role, a team or access. -/
def MemoryCall.grants : MemoryCall → Bool
  | createAdminPlayer .. | joinExistingPlayerTeam .. | updateAdminPlayer ..
  | setPlayerActive .. => true
  | _ => false

/-- Two peers with the same address, status and keys. -/
def WireGuardPeerState.SameKeys (a b : WireGuardPeerState) : Prop :=
  a.address = b.address ∧ a.status = b.status ∧ a.clientPublicKey = b.clientPublicKey ∧
    a.presharedKey = b.presharedKey

namespace WireGuardInput
variable {input : WireGuardInput}

/-- Refreshing a peer leaves its address, its status and its keys. -/
theorem refreshWireGuardPeerState_sameKeys {state refreshed : WireGuardPeerState}
    (h : input.refreshWireGuardPeerState state = .ok refreshed) : refreshed.SameKeys state := by
  cases hprofile : input.currentWireGuardServerProfile <;>
    simp only [refreshWireGuardPeerState, hprofile, bind, Except.bind, pure, Except.pure,
      reduceCtorEq, Except.ok.injEq] at h
  rw [← h]
  exact ⟨rfl, rfl, rfl, rfl⟩

end WireGuardInput

namespace MemoryStore

/-- The store's roster. -/
def roster (s : MemoryStore) : Roster := ⟨s.players, s.deactivatedPlayers, s.nextPlayerID⟩

/-- The team that a join key opens. -/
def joinedTeam (T : CaseTable) (rt : Go.Runtime) (teamKey : String) (s : MemoryStore) :
    Option (Int × AdminTeam) :=
  (rt.range 0 s.teams.pairs).find? fun (_, candidate) =>
    T.equalFold candidate.joinKey (trimSpace teamKey)

/-- The new record of an organizer's call, with its peer where it gets one. -/
def Created (T : CaseTable) (request : AdminCreatePlayerRequest) (input : WireGuardInput)
    (s : MemoryStore) (record : AdminPlayerRecord) : Prop :=
  let blank := s.createdPlayer T request input.now
  if blank.player.hasPeer then s.issuePeer input s.nextPlayerID blank = .ok record
  else record = blank

/-- A captain comes back to a team that has another one. -/
def Superseded (s : MemoryStore) (playerID : Int) (player : AdminPlayer) : Prop :=
  player.role = .captain ∧ player.teamID > 0 ∧
    { s with deactivatedPlayers := s.deactivatedPlayers.erase playerID }.teamHasOtherActiveCaptain
      player.teamID playerID

/-- What a call can do to the players. -/
inductive RosterStep (T : CaseTable) (s : MemoryStore) : MemoryCall → Roster → Prop
  | unchanged {call} (h : call.grants = false) : RosterStep T s call s.roster
  | registered {request now}
      (hemail : s.emailTaken T (trimSpace (T.toLower request.email)) none = false)
      (record : AdminPlayerRecord)
      (hplayer : record.player = {
        id := s.nextPlayerID, teamID := 0, teamName := "", displayName :=
          trimSpace request.displayName
        email := trimSpace (T.toLower request.email), role := .member
        wireGuardPeer := wireguardPeerName 0 s.nextPlayerID, createdAt := now.formatRFC3339 })
      (hpeer : record.wireGuard = {}) :
      RosterStep T s (.registerPlayer request now) (s.roster.add record)
  | profile {p request old renamed} (hold : s.players.lookup p = some old)
      (hrole : old.player.role ≠ .organizer)
      (hemail : s.emailTaken T (trimSpace (T.toLower request.email)) (some p) = false)
      (hrenamed : s.updateTeamProfile T old.player request = .ok renamed) :
      RosterStep T s (.updateParticipantProfile p request) (s.roster.setPlayer p
        (renamed.updatedProfile (trimSpace request.displayName)
          (trimSpace (T.toLower request.email))
          old))
  | createRejected {request input} (h : (s.createAdminPlayer T request input).failed) :
      RosterStep T s (.createAdminPlayer request input) s.roster
  | numbered {request input} (h : (s.createAdminPlayer T request input).failed) :
      RosterStep T s (.createAdminPlayer request input)
        { s.roster with nextID := s.nextPlayerID + 1 }
  | created {request input record} (h : (s.createAdminPlayer T request input).failed = false)
      (hteam : request.teamID ≠ 0 → (s.teams.lookup request.teamID).isSome)
      (hemail : s.emailTaken T (trimSpace (T.toLower request.email)) none = false)
      (hrecord : s.Created T request input record) :
      RosterStep T s (.createAdminPlayer request input) (s.roster.add record)
  | joinRejected {p teamKey input} (h : (s.joinExistingPlayerTeam T p teamKey input).failed) :
      RosterStep T s (.joinExistingPlayerTeam p teamKey input) s.roster
  | promoted {p teamKey input old team} (h : (s.joinExistingPlayerTeam T p teamKey input).failed)
      (hold : s.players.lookup p = some old) (hteam : old.player.teamID ≤ 0)
      (hrole : old.player.role ≠ .organizer) :
      RosterStep T s (.joinExistingPlayerTeam p teamKey input)
        (s.roster.setPlayer p (s.promoted team old))
  | joined {p teamKey input old id team record}
      (h : (s.joinExistingPlayerTeam T p teamKey input).failed = false)
      (hold : s.players.lookup p = some old) (hteam : old.player.teamID ≤ 0)
      (hrole : old.player.role ≠ .organizer)
      (hfound : s.joinedTeam T input.rt teamKey = some (id, team))
      (hissued : s.issuePeer input p ((s.promoted team old).ofTeam team p) = .ok record) :
      RosterStep T s (.joinExistingPlayerTeam p teamKey input) (s.roster.setPlayer p record)
  | transferred {p q captain target} (hcaptain : s.players.lookup p = some captain)
      (hrole : captain.player.role = .captain) (hteam : captain.player.teamID > 0)
      (hactive : s.playerDeactivated p = false) (hne : q ≠ p)
      (htarget : s.players.lookup q = some target)
      (hsame : target.player.teamID = captain.player.teamID) :
      RosterStep T s (.transferTeamCaptain p q)
        ((s.roster.setPlayer p (captain.withRole .member)).setPlayer q (target.withRole .captain))
  | configured {p input old peer} (hold : s.players.lookup p = some old)
      (hpeer : peer.SameKeys old.wireGuard) :
      RosterStep T s (.getAdminPlayerWireGuardConfig p input)
        (s.roster.setPlayer p { old with wireGuard := peer })
  | rotated {p input old state teamName} (hold : s.players.lookup p = some old)
      (hstate : input.newWireGuardPeerState old.player.id old.player.teamID teamName
        old.player.displayName old.player.wireGuardPeer old.wireGuard.address = .ok state) :
      RosterStep T s (.rotateAdminPlayerWireGuardConfig p input)
        (s.roster.setPlayer p (old.setPeer state))
  | revoked {p now old} (hold : s.players.lookup p = some old) (record : AdminPlayerRecord)
      (hpeer : record.wireGuard = { old.wireGuard with
        status := .revoked, revokedAt := now.formatRFC3339 })
      (hplayer : record.player = { old.player with
        wireGuardStatus := .revoked, wireGuardRevokedAt := now.formatRFC3339 }) :
      RosterStep T s (.revokeAdminPlayerWireGuardConfig p now) (s.roster.setPlayer p record)
  | listed {rt} (teamName : Int → AdminPlayerRecord → String) :
      RosterStep T s (.listWireGuardGatewayPeers rt) { s.roster with
        players := s.players.mapValues fun p record =>
          { record with wireGuard := { record.wireGuard with teamName := teamName p record } } }
  | deleted {p} : RosterStep T s (.deleteAdminPlayer p)
      { s.roster with players := s.players.erase p }
  | teamDeleted {teamID} : RosterStep T s (.deleteAdminTeam teamID) { s.roster with
      players := s.players.filterKeys fun id =>
        (s.players.lookup id).all fun record => record.player.teamID ≠ teamID }
  | updateMissing {p request} (h : s.players.lookup p = none) :
      RosterStep T s (.updateAdminPlayer p request) s.roster
  | updated {p request old} (hold : s.players.lookup p = some old) (displayName : String) :
      RosterStep T s (.updateAdminPlayer p request) (s.roster.setPlayer p { old with
        player := { old.player with
          displayName
          email := if trimSpace request.email ≠ "" then T.toLower (trimSpace request.email)
            else old.player.email
          role := normalizedRole request.role } })
  | activateMissing {p active} (h : s.players.lookup p = none) :
      RosterStep T s (.setPlayerActive p active) s.roster
  | deactivated {p} (h : s.players.lookup p ≠ none) : RosterStep T s (.setPlayerActive p false)
      { s.roster with deactivated := s.deactivatedPlayers.insert p true }
  | reactivated {p old} (hold : s.players.lookup p = some old) (h : ¬ s.Superseded p old.player) :
      RosterStep T s (.setPlayerActive p true)
        { s.roster with deactivated := s.deactivatedPlayers.erase p }
  | demoted {p old} (hold : s.players.lookup p = some old) (h : s.Superseded p old.player) :
      RosterStep T s (.setPlayerActive p true)
        ({ s.roster with deactivated := s.deactivatedPlayers.erase p }.setPlayer p
          (old.withRole .member))

variable {T : CaseTable} {s t : MemoryStore}

theorem roster_eq (h : t.accounts = s.accounts) : t.roster = s.roster := by
  rw [show t.roster = ⟨t.accounts.players, t.accounts.deactivatedPlayers, t.accounts.nextPlayerID⟩
    from rfl, h]
  rfl

theorem active_roster {p : Int} : s.roster.active p = true ↔ s.playerDeactivated p = false := by
  simp [Roster.active, roster, playerDeactivated]

theorem RosterStep.of_eq {call : MemoryCall} (h : call.grants = false) (heq : t.roster = s.roster) :
    RosterStep T s call t.roster := by
  rw [heq]
  exact .unchanged h

theorem roster_createAdminTeam {request : AdminCreateTeamRequest} {input : StoreInput} :
    (s.createAdminTeam T request input).store.roster = s.roster := by
  unfold createAdminTeam
  dsimp only
  repeat' split
  iterate 4 rfl
  · exact (roster_eq accounts_joinChallenges).trans rfl
  · exact (roster_eq accounts_joinChallenges).trans rfl

theorem rosterStep_registerPlayer {request : ParticipantRegisterRequest} {now : Time} :
    RosterStep T s (.registerPlayer request now) (s.registerPlayer T request now).store.roster := by
  unfold registerPlayer
  dsimp only
  split
  · exact .of_eq rfl rfl
  · split
    · exact .of_eq rfl rfl
    · rename_i hemail
      exact .registered (Bool.eq_false_of_not_eq_true hemail) _ rfl rfl

theorem updateTeamProfile_roster {player : AdminPlayer} {request : ParticipantUpdateProfileRequest}
    (h : s.updateTeamProfile T player request = .ok t) : t.roster = s.roster := by
  unfold updateTeamProfile at h
  dsimp only at h
  repeat' split at h
  all_goals first | cases h; rfl | cases h

theorem rosterStep_updateParticipantProfile {p : Int} {request : ParticipantUpdateProfileRequest} :
    RosterStep T s (.updateParticipantProfile p request)
      (s.updateParticipantProfile T p request).store.roster := by
  unfold updateParticipantProfile
  split
  · exact .of_eq rfl rfl
  rename_i old hold
  dsimp only
  split
  · exact .of_eq rfl rfl
  rename_i hrole
  split
  · exact .of_eq rfl rfl
  split
  · exact .of_eq rfl rfl
  rename_i hemail
  split
  · exact .of_eq rfl rfl
  rename_i renamed hrenamed
  have hroster : ∀ record, (renamed.setPlayer p record).roster = s.roster.setPlayer p record := by
    intro record
    rw [← updateTeamProfile_roster hrenamed]
    rfl
  rw [hroster]
  exact .profile hold hrole (Bool.eq_false_of_not_eq_true hemail) hrenamed

theorem rosterStep_createAdminPlayer {request : AdminCreatePlayerRequest} {input : WireGuardInput} :
    RosterStep T s (.createAdminPlayer request input)
      (s.createAdminPlayer T request input).store.roster := by
  rcases hc : s.createAdminPlayer T request input with ⟨store, queued, result⟩
  have hfailed :
      (s.createAdminPlayer T request input).failed = Change.failed ⟨store, queued, result⟩ := by
    rw [hc]
  unfold createAdminPlayer at hc
  dsimp only at hc
  split at hc
  · cases hc
    exact .createRejected hfailed
  split at hc
  · cases hc
    exact .createRejected hfailed
  rename_i hteam
  split at hc
  · cases hc
    exact .createRejected hfailed
  split at hc
  · cases hc
    exact .createRejected hfailed
  rename_i hemail
  have hteam : request.teamID ≠ 0 → (s.teams.lookup request.teamID).isSome := by
    intro hne
    cases hlookup : s.teams.lookup request.teamID with
    | none => exact absurd ⟨hne, by rw [hlookup]; rfl⟩ hteam
    | some => rfl
  have hemail := Bool.eq_false_of_not_eq_true hemail
  split at hc
  · rename_i hpeer
    split at hc
    · cases hc
      exact .numbered hfailed
    · rename_i issued hissued
      have hrecord : s.Created T request input issued := by
        rw [Created, if_pos hpeer]
        exact hissued
      cases hc
      exact .created hfailed hteam hemail hrecord
  · rename_i hpeer
    have hrecord : s.Created T request input (s.createdPlayer T request input.now) := by
      rw [Created, if_neg hpeer]
    cases hc
    exact .created hfailed hteam hemail hrecord

theorem rosterStep_joinExistingPlayerTeam {p : Int} {teamKey : String} {input : WireGuardInput} :
    RosterStep T s (.joinExistingPlayerTeam p teamKey input)
      (s.joinExistingPlayerTeam T p teamKey input).store.roster := by
  rcases hc : s.joinExistingPlayerTeam T p teamKey input with ⟨store, queued, result⟩
  have hfailed : (s.joinExistingPlayerTeam T p teamKey input).failed =
      Change.failed ⟨store, queued, result⟩ := by
    rw [hc]
  unfold joinExistingPlayerTeam at hc
  split at hc
  · cases hc
    exact .joinRejected hfailed
  rename_i old hold
  split at hc
  · cases hc
    exact .joinRejected hfailed
  rename_i hrole
  obtain ⟨hrole, hteam⟩ := not_or.mp hrole
  split at hc
  · cases hc
    exact .joinRejected hfailed
  rename_i id team hfound
  split at hc
  · cases hc
    exact .joinRejected hfailed
  dsimp only at hc
  split at hc
  · cases hc
    exact .promoted hfailed hold (not_lt.mp hteam) hrole
  · rename_i record hissued
    cases hc
    exact .joined hfailed hold (not_lt.mp hteam) hrole hfound hissued

theorem rosterStep_transferTeamCaptain {p q : Int} :
    RosterStep T s (.transferTeamCaptain p q) (s.transferTeamCaptain p q).store.roster := by
  unfold transferTeamCaptain
  split
  · exact .of_eq rfl rfl
  rename_i captain hcaptain
  split
  · exact .of_eq rfl rfl
  rename_i hcheck
  simp only [not_or, not_not, not_le] at hcheck
  split
  · exact .of_eq rfl rfl
  rename_i hactive
  split
  · exact .of_eq rfl rfl
  rename_i hne
  split
  · exact .of_eq rfl rfl
  rename_i target htarget
  split
  · exact .of_eq rfl rfl
  rename_i hsame
  simp only [not_or, not_not] at hsame
  exact .transferred hcaptain hcheck.1 hcheck.2 (Bool.eq_false_of_not_eq_true hactive) hne htarget
    hsame.1

theorem rosterStep_getAdminPlayerWireGuardConfig {p : Int} {input : WireGuardInput} :
    RosterStep T s (.getAdminPlayerWireGuardConfig p input)
      (s.getAdminPlayerWireGuardConfig p input).store.roster := by
  unfold getAdminPlayerWireGuardConfig
  split
  · exact .of_eq rfl rfl
  rename_i old hold
  split
  · exact .of_eq rfl rfl
  dsimp only
  split
  · exact .configured hold ⟨rfl, rfl, rfl, rfl⟩
  · rename_i refreshed hrefreshed
    have hkeys := WireGuardInput.refreshWireGuardPeerState_sameKeys hrefreshed
    exact .configured hold hkeys

theorem rosterStep_rotateAdminPlayerWireGuardConfig {p : Int} {input : WireGuardInput} :
    RosterStep T s (.rotateAdminPlayerWireGuardConfig p input)
      (s.rotateAdminPlayerWireGuardConfig p input).store.roster := by
  unfold rotateAdminPlayerWireGuardConfig
  split
  · exact .of_eq rfl rfl
  rename_i old hold
  split
  · exact .of_eq rfl rfl
  split
  · exact .of_eq rfl rfl
  · rename_i state hstate
    exact .rotated hold hstate

theorem rosterStep_revokeAdminPlayerWireGuardConfig {p : Int} {now : Time} :
    RosterStep T s (.revokeAdminPlayerWireGuardConfig p now)
      (s.revokeAdminPlayerWireGuardConfig p now).store.roster := by
  unfold revokeAdminPlayerWireGuardConfig
  split
  · exact .of_eq rfl rfl
  rename_i old hold
  split
  · exact .of_eq rfl rfl
  · exact .revoked hold _ rfl rfl

theorem rosterStep_listWireGuardGatewayPeers {rt : Go.Runtime} :
    RosterStep T s (.listWireGuardGatewayPeers rt)
      (s.listWireGuardGatewayPeers rt).store.roster := by
  have hnamed : (s.listWireGuardGatewayPeers rt).store.roster = { s.roster with
      players := s.players.mapValues fun p record => { record with
        wireGuard := { record.wireGuard with
          teamName := if s.peerListed p record.player then s.peerTeamName record.player
            else record.wireGuard.teamName } } } := by
    simp only [roster, listWireGuardGatewayPeers, Roster.mk.injEq, and_true]
    congr 1
    funext p record
    split <;> rfl
  rw [hnamed]
  exact .listed _

theorem rosterStep_updateAdminPlayer {p : Int} {request : AdminUpdatePlayerRequest} :
    RosterStep T s (.updateAdminPlayer p request)
      (s.updateAdminPlayer T p request).store.roster := by
  unfold updateAdminPlayer
  split
  · rename_i hold
    exact .updateMissing hold
  · rename_i old hold
    exact .updated hold _

theorem rosterStep_setPlayerActive {p : Int} {active : Bool} :
    RosterStep T s (.setPlayerActive p active) (s.setPlayerActive p active).store.roster := by
  unfold setPlayerActive
  split
  · rename_i hold
    exact .activateMissing hold
  rename_i old hold
  cases active with
  | false => exact .deactivated (by rw [hold]; nofun)
  | true =>
    dsimp only
    rw [if_pos rfl]
    split
    · rename_i hsuperseded
      exact .demoted hold hsuperseded
    · rename_i hsuperseded
      exact .reactivated hold hsuperseded

/-- What a call does to the players. -/
theorem rosterStep_exec (T : CaseTable) (call : MemoryCall) (s : MemoryStore) :
    RosterStep T s call (s.exec T call).roster := by
  cases call with
  | registerPlayer => exact rosterStep_registerPlayer
  | updateParticipantProfile => exact rosterStep_updateParticipantProfile
  | createAdminPlayer => exact rosterStep_createAdminPlayer
  | joinExistingPlayerTeam => exact rosterStep_joinExistingPlayerTeam
  | transferTeamCaptain => exact rosterStep_transferTeamCaptain
  | getAdminPlayerWireGuardConfig => exact rosterStep_getAdminPlayerWireGuardConfig
  | rotateAdminPlayerWireGuardConfig => exact rosterStep_rotateAdminPlayerWireGuardConfig
  | revokeAdminPlayerWireGuardConfig => exact rosterStep_revokeAdminPlayerWireGuardConfig
  | listWireGuardGatewayPeers => exact rosterStep_listWireGuardGatewayPeers
  | updateAdminPlayer => exact rosterStep_updateAdminPlayer
  | setPlayerActive => exact rosterStep_setPlayerActive
  | deleteAdminPlayer p =>
    simp only [exec, deleteAdminPlayer]
    split
    · exact .unchanged rfl
    · exact .deleted
  | deleteAdminTeam teamID =>
    simp only [exec, deleteAdminTeam]
    split
    · exact .unchanged rfl
    · exact .teamDeleted
  | createAdminTeam => exact .of_eq rfl roster_createAdminTeam
  | updateAdminTeam teamID request =>
    simp only [exec, updateAdminTeam]
    split <;> exact .of_eq rfl rfl
  | setTeamActive teamID active =>
    simp only [exec, setTeamActive]
    split <;> exact .of_eq rfl rfl
  | createAdminChallenge | updateAdminChallenge | deleteAdminChallenge | setChallengeMaintenance
  | rotateChallengeUnlockProof | deployAdminChallenge | deleteAdminDeployment
  | reconcileAdminDeployments | requeueTeamServices | requeueChallengeServices | unlockService
  | createSSHSession | markSSHSessionApplyFailure | prepareFactoryResetService
  | completeFactoryResetService | markFactoryResetFailure | restartService | updatePlatformSettings
  | setActiveFlagFormat | setMatchStarted | setMatchPaused =>
    exact .of_eq rfl (roster_eq (accounts_exec rfl))

/-! ## Ids -/

theorem issuePeer_ok {input : WireGuardInput} {p : Int} {record issued : AdminPlayerRecord}
    (h : s.issuePeer input p record = .ok issued) :
    ∃ address state, s.allocateWireGuardPeerAddress = .ok address ∧
      input.newWireGuardPeerState p record.player.teamID record.player.teamName
        record.player.displayName record.player.wireGuardPeer address = .ok state ∧
      issued = record.setPeer state := by
  unfold issuePeer at h
  split at h
  · cases h
  rename_i address haddress
  split at h
  · cases h
  rename_i state hstate
  cases h
  exact ⟨address, state, haddress, hstate, rfl⟩

/-- A created player is what the request asks for, but for its peer. -/
theorem Created.player {request : AdminCreatePlayerRequest} {input : WireGuardInput}
    {record : AdminPlayerRecord} (h : s.Created T request input record) :
    record.player.id = s.nextPlayerID ∧ record.player.teamID = request.teamID ∧
      record.player.role = (s.createdPlayer T request input.now).player.role ∧
      record.player.email = trimSpace (T.toLower request.email) := by
  unfold Created at h
  dsimp only at h
  split at h
  · obtain ⟨_, _, -, -, rfl⟩ := issuePeer_ok h
    exact ⟨rfl, rfl, rfl, rfl⟩
  · rw [h]
    exact ⟨rfl, rfl, rfl, rfl⟩

theorem updatedProfile_player (s : MemoryStore) (displayName email : String)
    (record : AdminPlayerRecord) :
    let updated := s.updatedProfile displayName email record
    updated.player.id = record.player.id ∧ updated.player.teamID = record.player.teamID ∧
      updated.player.role = record.player.role ∧ updated.player.email = email ∧
      updated.wireGuard.SameKeys record.wireGuard := by
  unfold updatedProfile
  split
  · refine ⟨rfl, rfl, rfl, rfl, ?_⟩
    dsimp only
    split <;> exact ⟨rfl, rfl, rfl, rfl⟩
  · exact ⟨rfl, rfl, rfl, rfl, rfl, rfl, rfl, rfl⟩

theorem numbered_step {call : MemoryCall} {r : Roster} (hs : s.roster.Numbered)
    (h : RosterStep T s call r) : r.Numbered := by
  cases h with
  | unchanged | createRejected | joinRejected | updateMissing | activateMissing => exact hs
  | numbered =>
    exact ⟨hs.id_eq, fun hp => ⟨(hs.below hp).1, Int.lt_add_one_iff.mpr (hs.below hp).2.le⟩,
      fun hp => Int.lt_add_one_iff.mpr (hs.deactivated hp).le, Int.add_pos hs.next Int.one_pos⟩
  | registered _ record hplayer =>
    refine hs.add ?_
    rw [hplayer]
    rfl
  | created _ _ _ hrecord => exact hs.add hrecord.player.1
  | profile hold => exact hs.setPlayer hold (updatedProfile_player ..).1
  | promoted _ hold => exact hs.setPlayer hold rfl
  | joined _ hold _ _ _ hissued =>
    obtain ⟨_, _, -, -, rfl⟩ := issuePeer_ok hissued
    exact hs.setPlayer hold rfl
  | @transferred p q captain target hcaptain _ _ _ hne htarget =>
    have hq : (s.roster.setPlayer p (captain.withRole .member)).players.lookup q = some target := by
      rw [Roster.lookup_setPlayer, if_neg hne]
      exact htarget
    have hp : (s.roster.setPlayer p (captain.withRole .member)).Numbered :=
      hs.setPlayer hcaptain rfl
    exact hp.setPlayer hq rfl
  | configured hold => exact hs.setPlayer hold rfl
  | rotated hold => exact hs.setPlayer hold rfl
  | revoked hold record _ hplayer =>
    refine hs.setPlayer hold ?_
    rw [hplayer]
  | listed teamName =>
    refine hs.changes (fun p record hp => ?_) hs.deactivated rfl
    rw [Go.Map.lookup_mapValues, Option.map_eq_some_iff] at hp
    obtain ⟨old, hold, rfl⟩ := hp
    exact ⟨old, hold, rfl⟩
  | deleted => exact hs.sub fun q record hq => Go.Map.lookup_of_erase hq
  | teamDeleted => exact hs.sub fun q record hq => Go.Map.lookup_of_filterKeys hq
  | updated hold => exact hs.setPlayer hold rfl
  | @deactivated p hp =>
    refine hs.changes (.of_sub (fun _ => rfl) fun _ _ h => h) (fun {q} hq => ?_) rfl
    simp only [Roster.active, Go.Map.get_insert] at hq
    split at hq
    · rename_i h
      obtain ⟨record, hrecord⟩ := Option.ne_none_iff_exists'.mp hp
      rw [h]
      exact (hs.below hrecord).2
    · exact hs.deactivated hq
  | @reactivated p =>
    exact hs.changes (.of_sub (fun _ => rfl) fun _ _ h => h) (hs.deactivated_erase p) rfl
  | @demoted p old hold =>
    exact hs.changes (.setPlayer (fun _ => rfl) hold rfl) (hs.deactivated_erase p) rfl

theorem numbered_initial (h : s.Initial) : s.roster.Numbered := by
  rcases h with rfl | ⟨teamID, now, input, h⟩
  · exact ⟨nofun, nofun, nofun, by decide⟩
  have hids : ∀ account ∈ seedAccounts, 0 < account.1 ∧ account.1 < 5 := by decide
  have hframe : s.deactivatedPlayers = ∅ ∧ s.nextPlayerID = 5 := by
    obtain ⟨players, -, h⟩ := exists_of_bind_eq_ok h
    cases h
    exact ⟨rfl, rfl⟩
  refine ⟨fun hp => (seeded_newMemoryStore h hp).2, fun hp => ?_, fun hp => ?_, ?_⟩
  · obtain ⟨hseeded, rfl⟩ := seeded_newMemoryStore h hp
    simp only [roster, hframe.2]
    exact hids _ hseeded.account
  · simp [roster, Roster.active, hframe.1, Go.Map.get] at hp
  · simp only [roster, hframe.2]
    decide

theorem numbered_exec (h : s.roster.Numbered) (call : MemoryCall) :
    (s.exec T call).roster.Numbered := numbered_step h (rosterStep_exec T call s)

/-- Keys that are good enough for a test. -/
def testKeys : WireGuardInput where
  random _ := .ok (List.replicate 32 0)
  profile := .ok { endpoint := "vpn.example.com:51820", publicKey := "server" }

end MemoryStore

end ADPlatform.APIGateway
