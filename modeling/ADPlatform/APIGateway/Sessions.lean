import ADPlatform.APIGateway.ReusedIDs

/-! # Sessions of participants

A session token names a player and the version that the sessions of the player had when the token
was issued; a request with the token is refused once the version is another one. The version of a
player only grows and ids are not given out again, so a token is refused for good after a change of
the password or of the captain.

A token is taken as its claims: the gateway signs them, and reads those of no other token. -/

namespace ADPlatform.APIGateway
open GameCore (Time Stamp)
open Text

/-- `teamTokenClaims`: what a session carries of the player. -/
structure TeamTokenClaims where
  teamID : Int
  playerID : Int
  teamName : String
  teamContactEmail : String
  displayName : String
  email : String
  role : Role
  sessionVersion : Int
  issuedAt : Int
  expiresAt : Int
  deriving DecidableEq, Repr

/-- `canonicalSessionPlayer`: an organizer belongs to no team. -/
def canonicalSessionPlayer (player : AuthenticatedPlayer) : AuthenticatedPlayer :=
  if player.role = .organizer then
    { player with teamID := 0, teamName := "Organizer", teamContactEmail := "" }
  else player

/-- Seconds since the epoch, in the claims of a token. -/
def unix (now : Time) : Int := now / 1000000000

/-- `issueTeamJWT`. -/
def issueTeamJWT (player : AuthenticatedPlayer) (now : Time) : TeamTokenClaims :=
  let player := canonicalSessionPlayer player
  { teamID := player.teamID
    playerID := player.playerID
    teamName := player.teamName
    teamContactEmail := player.teamContactEmail
    displayName := player.displayName
    email := player.email
    role := player.role
    sessionVersion := if player.sessionVersion < 1 then 1 else player.sessionVersion
    issuedAt := unix now
    expiresAt := unix (now + hours 24) }

/-- The checks of `verifyTeamJWT` behind the signature. -/
def verifyTeamJWT (claims : TeamTokenClaims) (now : Time) : Bool :=
  !(claims.playerID ≤ 0 || claims.sessionVersion < 1 || claims.expiresAt ≤ unix now) &&
    !(claims.role = .organizer && claims.teamID ≠ 0)

namespace MemoryStore

/-- `validatePlayerSession`: the claims still fit the stored player. -/
def validatePlayerSession (playerID teamID : Int) (role : Role) (sessionVersion : Int)
    (s : MemoryStore) : Except StoreError AuthenticatedPlayer :=
  match s.players.lookup playerID with
  | none => .error .invalidCredentials
  | some record =>
    let organizer := record.player.role = .organizer
    if s.playerDeactivated playerID then .error .accountDeactivated
    else if record.player.role ≠ role then .error .invalidCredentials
    else if sessionVersion ≠ record.version then .error .invalidCredentials
    else if (if organizer then teamID ≠ 0 else record.player.teamID ≠ teamID) then
      .error .invalidCredentials
    else if ¬organizer ∧ s.teamDeactivated record.player.teamID then .error .accountDeactivated
    else
      let teamName := if record.player.teamID = 0 ∧ ¬organizer then ""
        else s.teamNameForID record.player.teamID
      let contactEmail := if record.player.teamID = 0 ∧ ¬organizer then ""
        else s.teamContactEmail record.player.teamID
      .ok (canonicalSessionPlayer (record.authenticated teamName contactEmail))

/-- The version after the change. -/
def changeParticipantPassword (playerID : Int) (passwordMatches : AdminPlayerRecord → Bool)
    (newPassword : String) (s : MemoryStore) : Change MemoryStore Int :=
  if !validPassword newPassword then { store := s, result := .error .invalidCredentials }
  else match s.players.lookup playerID with
  | none => { store := s, result := .error .invalidCredentials }
  | some record =>
    if record.player.role = .organizer then { store := s, result := .error .invalidCredentials }
    else if !passwordMatches record then { store := s, result := .error .invalidCredentials }
    else
      let record := { record with sessionVersion := record.version + 1 }
      { store := s.setPlayer playerID record, result := .ok record.sessionVersion }

end MemoryStore

/-- A call on the store, and the calls about passwords. The player of a change of password is the
one whom the request was authenticated as. -/
inductive SessionCall where
  | store (call : MemoryCall)
  | authenticatePlayer (rt : Go.Runtime) (email : String)
      (passwordMatches : AdminPlayerRecord → Bool)
  | changeParticipantPassword (player : AuthenticatedPlayer)
      (passwordMatches : AdminPlayerRecord → Bool) (newPassword : String)

namespace SessionCall
open MemoryStore

/-- The store after a call; an authentication changes nothing. -/
def exec (T : CaseTable) (call : SessionCall) (s : MemoryStore) : MemoryStore :=
  match call with
  | store call => s.exec T call
  | authenticatePlayer .. => s
  | changeParticipantPassword player passwordMatches newPassword =>
    (s.changeParticipantPassword player.playerID passwordMatches newPassword).store

/-- Whom the handler issues a token for, where it issues one. -/
def session (T : CaseTable) (call : SessionCall) (s : MemoryStore) : Option AuthenticatedPlayer :=
  match call with
  | store (.registerPlayer request now) => (s.registerPlayer T request now).result.toOption
  | store (.updateParticipantProfile playerID request) =>
    (s.updateParticipantProfile T playerID request).result.toOption
  | store (.joinExistingPlayerTeam playerID teamKey input) =>
    (s.joinExistingPlayerTeam T playerID teamKey input).result.toOption
  | store (.transferTeamCaptain captainPlayerID targetPlayerID) =>
    (s.transferTeamCaptain captainPlayerID targetPlayerID).result.toOption
  | store _ => none
  | authenticatePlayer rt email passwordMatches =>
    (s.authenticatePlayer T rt email passwordMatches).toOption
  | changeParticipantPassword player passwordMatches newPassword =>
    (s.changeParticipantPassword player.playerID passwordMatches newPassword).result.toOption.map
      fun sessionVersion => { player with sessionVersion }

/-- The call succeeds and ends the sessions of the player. -/
def revokes (playerID : Int) (call : SessionCall) (s : MemoryStore) : Prop :=
  match call with
  | store (.transferTeamCaptain captainPlayerID targetPlayerID) =>
    (playerID = captainPlayerID ∨ playerID = targetPlayerID) ∧
      (s.transferTeamCaptain captainPlayerID targetPlayerID).failed = false
  | changeParticipantPassword player passwordMatches newPassword => playerID = player.playerID ∧
      (s.changeParticipantPassword player.playerID passwordMatches newPassword).failed = false
  | _ => False

end SessionCall

/-- A token that was issued for the answer to one of the calls. -/
def Issued (T : CaseTable) (s : MemoryStore) (calls : List SessionCall) (claims : TeamTokenClaims) :
    Prop :=
  ∃ before call after player now, calls = before ++ call :: after ∧
    call.session T (Runs.run (SessionCall.exec T) s before) = some player ∧
    claims = issueTeamJWT player now

/-! ## Versions only grow -/

namespace Roster
variable {r r' r'' : Roster} {p : Int} {record old : AdminPlayerRecord}

/-- No id is given out again, and no version gets smaller. -/
structure Ages (r r' : Roster) : Prop where
  next : r.nextID ≤ r'.nextID
  version : ∀ {p record}, r'.players.lookup p = some record → p < r.nextID →
    ∃ old, r.players.lookup p = some old ∧ old.sessionVersion ≤ record.sessionVersion

theorem Ages.refl (r : Roster) : r.Ages r := ⟨le_rfl, fun hp _ => ⟨_, hp, le_rfl⟩⟩

theorem Ages.trans (h : r.Ages r') (h' : r'.Ages r'') : r.Ages r'' where
  next := h.next.trans h'.next
  version hp hlt := by
    obtain ⟨record, hrecord, hle⟩ := h'.version hp (hlt.trans_le h.next)
    obtain ⟨old, hold, hle'⟩ := h.version hrecord hlt
    exact ⟨old, hold, hle'.trans hle⟩

theorem Ages.of_changes (hnext : r.nextID ≤ r'.nextID)
    (h : Changes (fun old record => old.sessionVersion ≤ record.sessionVersion) r r') : r.Ages r' :=
  ⟨hnext, fun hp _ => h _ _ hp⟩

theorem Ages.of_sub (hnext : r.nextID ≤ r'.nextID)
    (h : ∀ q record, r'.players.lookup q = some record → r.players.lookup q = some record) :
    r.Ages r' :=
  .of_changes hnext (.of_sub (fun _ => le_rfl) h)

theorem Ages.setPlayer (hold : r.players.lookup p = some old)
    (hle : old.sessionVersion ≤ record.sessionVersion) : r.Ages (r.setPlayer p record) :=
  .of_changes le_rfl (.setPlayer (fun _ => le_rfl) hold hle)

theorem Ages.add (r : Roster) (record : AdminPlayerRecord) : r.Ages (r.add record) where
  next := Int.le_add_one le_rfl
  version hp hlt := by
    rw [lookup_add, if_neg hlt.ne] at hp
    exact ⟨_, hp, le_rfl⟩

end Roster

theorem AdminPlayerRecord.le_version (record : AdminPlayerRecord) :
    record.sessionVersion ≤ record.version := le_max_left _ _

theorem AdminPlayerRecord.version_le {a b : AdminPlayerRecord}
    (h : a.sessionVersion ≤ b.sessionVersion) : a.version ≤ b.version := max_le_max h le_rfl

theorem AdminPlayerRecord.le_withRole (record : AdminPlayerRecord) (role : Role) :
    record.sessionVersion ≤ (record.withRole role).sessionVersion :=
  record.le_version.trans (Int.le_add_one le_rfl)

namespace MemoryStore
variable {T : CaseTable} {s : MemoryStore} {p : Int}

theorem updatedProfile_sessionVersion (s : MemoryStore) (displayName email : String)
    (record : AdminPlayerRecord) :
    (s.updatedProfile displayName email record).sessionVersion = record.sessionVersion := by
  unfold updatedProfile
  split <;> rfl

theorem ages_revoke {now : Time} :
    s.roster.Ages (s.revokeAdminPlayerWireGuardConfig p now).store.roster := by
  unfold revokeAdminPlayerWireGuardConfig
  split
  · exact .refl _
  rename_i old hold
  split
  · exact .refl _
  · exact .setPlayer (r := s.roster) hold le_rfl

theorem ages_step {call : MemoryCall} {r : Roster} (h : RosterStep T s call r)
    (hcall : ∀ p now, call ≠ .revokeAdminPlayerWireGuardConfig p now) : s.roster.Ages r := by
  cases h with
  | unchanged | createRejected | joinRejected | updateMissing | activateMissing => exact .refl _
  | numbered => exact .of_sub (Int.le_add_one le_rfl) fun _ _ h => h
  | registered _ record => exact .add s.roster record
  | @created _ _ record => exact .add s.roster record
  | profile hold => exact .setPlayer hold (updatedProfile_sessionVersion ..).ge
  | promoted _ hold => exact .setPlayer hold le_rfl
  | joined _ hold _ _ _ hissued =>
    obtain ⟨_, _, -, -, rfl⟩ := issuePeer_ok hissued
    exact .setPlayer hold le_rfl
  | @transferred p q captain target hcaptain _ _ _ hne htarget =>
    have hq : (s.roster.setPlayer p (captain.withRole .member)).players.lookup q = some target := by
      rw [Roster.lookup_setPlayer, if_neg hne]
      exact htarget
    exact (Roster.Ages.setPlayer (r := s.roster) hcaptain (captain.le_withRole _)).trans
      (.setPlayer hq (target.le_withRole _))
  | configured hold => exact .setPlayer hold le_rfl
  | rotated hold => exact .setPlayer hold le_rfl
  | @revoked p now => exact absurd rfl (hcall p now)
  | listed teamName =>
    refine .of_changes le_rfl fun p record hp => ?_
    rw [Go.Map.lookup_mapValues, Option.map_eq_some_iff] at hp
    obtain ⟨old, hold, rfl⟩ := hp
    exact ⟨old, hold, le_rfl⟩
  | deleted => exact .of_sub le_rfl fun q record hq => Go.Map.lookup_of_erase hq
  | teamDeleted => exact .of_sub le_rfl fun q record hq => Go.Map.lookup_of_filterKeys hq
  | updated hold => exact .setPlayer hold le_rfl
  | deactivated | reactivated => exact .of_sub le_rfl fun _ _ h => h
  | @demoted p old hold =>
    exact .of_changes le_rfl (.setPlayer (fun _ => le_rfl) hold (old.le_withRole _))

theorem ages_exec (call : MemoryCall) : s.roster.Ages (s.exec T call).roster := by
  by_cases hcall : ∃ p now, call = .revokeAdminPlayerWireGuardConfig p now
  · obtain ⟨p, now, rfl⟩ := hcall
    exact ages_revoke
  · exact ages_step (rosterStep_exec T call s) fun p now h => hcall ⟨p, now, h⟩

/-- A change of the password fails, or ends the sessions of the player. -/
theorem changeParticipantPassword_cases (p : Int) (passwordMatches : AdminPlayerRecord → Bool)
    (newPassword : String) (s : MemoryStore) :
    (∃ e, s.changeParticipantPassword p passwordMatches newPassword =
      { store := s, result := .error e }) ∨
    ∃ old, s.players.lookup p = some old ∧
      s.changeParticipantPassword p passwordMatches newPassword =
        { store := s.setPlayer p { old with sessionVersion := old.version + 1 }
          result := .ok (old.version + 1) } := by
  unfold changeParticipantPassword
  split
  · exact .inl ⟨_, rfl⟩
  split
  · exact .inl ⟨_, rfl⟩
  rename_i old hold
  split
  · exact .inl ⟨_, rfl⟩
  split
  · exact .inl ⟨_, rfl⟩
  · exact .inr ⟨old, hold, rfl⟩

/-- A transfer fails, or ends the sessions of both players. -/
theorem transferTeamCaptain_cases (p q : Int) (s : MemoryStore) :
    (∃ e, s.transferTeamCaptain p q = { store := s, result := .error e }) ∨
    ∃ captain target, s.players.lookup p = some captain ∧ s.players.lookup q = some target ∧ q ≠ p ∧
      ∃ teamName contactEmail, s.transferTeamCaptain p q =
        { store := (s.setPlayer p (captain.withRole .member)).setPlayer q (target.withRole .captain)
          result := .ok ((captain.withRole .member).authenticated teamName contactEmail) } := by
  unfold transferTeamCaptain
  split
  · exact .inl ⟨_, rfl⟩
  rename_i captain hcaptain
  split
  · exact .inl ⟨_, rfl⟩
  split
  · exact .inl ⟨_, rfl⟩
  split
  · exact .inl ⟨_, rfl⟩
  rename_i hne
  split
  · exact .inl ⟨_, rfl⟩
  rename_i target htarget
  split
  · exact .inl ⟨_, rfl⟩
  · exact .inr ⟨captain, target, hcaptain, htarget, hne, _, _, rfl⟩

theorem lookup_setPlayer_self {record : AdminPlayerRecord} :
    (s.setPlayer p record).players.lookup p = some record := AList.lookup_insert _

theorem lookup_setPlayer_of_ne {record : AdminPlayerRecord} {q : Int} (h : q ≠ p) :
    (s.setPlayer p record).players.lookup q = s.players.lookup q := AList.lookup_insert_ne h

end MemoryStore

namespace SessionCall
open MemoryStore
variable {T : CaseTable} {s : MemoryStore} {p : Int} {call : SessionCall}
  {player : AuthenticatedPlayer}

theorem ages_exec (call : SessionCall) : s.roster.Ages (call.exec T s).roster := by
  cases call with
  | store call => exact MemoryStore.ages_exec call
  | authenticatePlayer => exact .refl _
  | changeParticipantPassword player passwordMatches newPassword =>
    rcases changeParticipantPassword_cases player.playerID passwordMatches newPassword s with
      ⟨e, h⟩ | ⟨old, hold, h⟩
    · rw [exec, h]
      exact .refl _
    · rw [exec, h]
      exact .setPlayer (r := s.roster) hold (old.le_version.trans (Int.le_add_one le_rfl))

theorem numbered_exec (hs : s.roster.Numbered) (call : SessionCall) :
    (call.exec T s).roster.Numbered := by
  cases call with
  | store call => exact MemoryStore.numbered_exec hs call
  | authenticatePlayer => exact hs
  | changeParticipantPassword player passwordMatches newPassword =>
    rcases changeParticipantPassword_cases player.playerID passwordMatches newPassword s with
      ⟨e, h⟩ | ⟨old, hold, h⟩
    · rw [exec, h]
      exact hs
    · rw [exec, h]
      exact Roster.Numbered.setPlayer hs hold rfl

theorem numbered_run (hs : s.roster.Numbered) (calls : List SessionCall) :
    (Runs.run (exec T) s calls).roster.Numbered :=
  Runs.run_invariant (P := fun s : MemoryStore => s.roster.Numbered) hs fun call _ hs =>
    numbered_exec hs call

theorem ages_run (calls : List SessionCall) :
    s.roster.Ages (Runs.run (exec T) s calls).roster :=
  Runs.run_invariant (P := fun t : MemoryStore => s.roster.Ages t.roster) (.refl _)
    fun call _ hs => hs.trans (ages_exec call)

/-- A call that ends the sessions of a player leaves a greater version than it finds. -/
theorem revokes_version (T : CaseTable) (h : call.revokes p s) :
    ∃ old record, s.players.lookup p = some old ∧
    (call.exec T s).players.lookup p = some record ∧ old.version < record.version := by
  have hlt (old : AdminPlayerRecord) : old.version < max (old.version + 1) 1 :=
    lt_max_of_lt_left (Int.lt_add_one_of_le le_rfl)
  cases call with
  | authenticatePlayer => exact h.elim
  | changeParticipantPassword player passwordMatches newPassword =>
    obtain ⟨rfl, hok⟩ := h
    rcases changeParticipantPassword_cases player.playerID passwordMatches newPassword s with
      ⟨e, h⟩ | ⟨old, hold, h⟩
    · rw [h] at hok
      cases hok
    · rw [exec, h]
      exact ⟨old, _, hold, lookup_setPlayer_self, hlt old⟩
  | store call =>
    cases call with
    | transferTeamCaptain c q =>
      obtain ⟨hp, hok⟩ := h
      rcases transferTeamCaptain_cases c q s with
        ⟨e, h⟩ | ⟨captain, target, hcaptain, htarget, hne, _, _, h⟩
      · rw [h] at hok
        cases hok
      · rw [exec, MemoryStore.exec, h]
        rcases hp with rfl | rfl
        · refine ⟨captain, captain.withRole .member, hcaptain, ?_, hlt captain⟩
          exact (lookup_setPlayer_of_ne hne.symm).trans lookup_setPlayer_self
        · exact ⟨target, _, htarget, lookup_setPlayer_self, hlt target⟩
    | _ => exact h.elim

/-- The player of the store has the version that the answer of the call has. -/
structure Names (s : MemoryStore) (player : AuthenticatedPlayer) (record : AdminPlayerRecord) :
    Prop where
  lookup : s.players.lookup player.playerID = some record
  version : player.sessionVersion = record.version

theorem names_authenticated {record : AdminPlayerRecord} {teamName contactEmail : String}
    (h : s.players.lookup record.player.id = some record) :
    Names s (record.authenticated teamName contactEmail) record := ⟨h, rfl⟩

theorem names_registered {request : ParticipantRegisterRequest} {now : Time}
    (h : (s.registerPlayer T request now).result = .ok player) :
    ∃ record, Names (s.registerPlayer T request now).store player record := by
  unfold registerPlayer at h ⊢
  dsimp only at h ⊢
  split at h
  · cases h
  rename_i hrequest
  split at h
  · cases h
  rename_i hemail
  rw [if_neg hrequest, if_neg hemail]
  cases h
  exact ⟨_, names_authenticated (AList.lookup_insert _)⟩

theorem names_profile (hs : s.roster.Numbered) {request : ParticipantUpdateProfileRequest}
    (h : (s.updateParticipantProfile T p request).result = .ok player) :
    ∃ record, Names (s.updateParticipantProfile T p request).store player record := by
  rcases hc : s.updateParticipantProfile T p request with ⟨store, queued, result⟩
  rw [hc] at h
  cases h
  unfold updateParticipantProfile at hc
  split at hc
  · cases hc
  rename_i old hold
  dsimp only at hc
  split at hc
  · cases hc
  split at hc
  · cases hc
  split at hc
  · cases hc
  split at hc
  · cases hc
  rename_i renamed hrenamed
  cases hc
  have hid : (renamed.updatedProfile (trimSpace request.displayName)
      (trimSpace (T.toLower request.email)) old).player.id = p :=
    (updatedProfile_player ..).1.trans (hs.id_eq hold)
  refine ⟨_, names_authenticated ?_⟩
  rw [hid]
  exact lookup_setPlayer_self

theorem names_joined {teamKey : String} {input : WireGuardInput}
    (h : (s.joinExistingPlayerTeam T p teamKey input).result = .ok player) :
    ∃ record, Names (s.joinExistingPlayerTeam T p teamKey input).store player record := by
  rcases hc : s.joinExistingPlayerTeam T p teamKey input with ⟨store, queued, result⟩
  rw [hc] at h
  cases h
  unfold joinExistingPlayerTeam at hc
  split at hc
  · cases hc
  split at hc
  · cases hc
  split at hc
  · cases hc
  split at hc
  · cases hc
  dsimp only at hc
  split at hc
  · cases hc
  · cases hc
    exact ⟨_, lookup_setPlayer_self, rfl⟩

theorem names_transferred (hs : s.roster.Numbered) {q : Int}
    (h : (s.transferTeamCaptain p q).result = .ok player) :
    ∃ record, Names (s.transferTeamCaptain p q).store player record := by
  rcases transferTeamCaptain_cases p q s with
    ⟨e, hc⟩ | ⟨captain, target, hcaptain, htarget, hne, teamName, contactEmail, hc⟩
  · rw [hc] at h
    cases h
  · rw [hc] at h ⊢
    cases h
    refine ⟨captain.withRole .member, names_authenticated ?_⟩
    have hid : captain.player.id = p := hs.id_eq hcaptain
    rw [show (captain.withRole .member).player.id = p from hid]
    exact (lookup_setPlayer_of_ne hne.symm).trans lookup_setPlayer_self

theorem names_logged_in (hs : s.roster.Numbered) {rt : Go.Runtime} {email : String}
    {passwordMatches : AdminPlayerRecord → Bool}
    (h : s.authenticatePlayer T rt email passwordMatches = .ok player) :
    ∃ record, Names s player record := by
  unfold MemoryStore.authenticatePlayer at h
  split at h
  · cases h
  rename_i id record hfound
  have hlookup : s.players.lookup id = some record :=
    Go.Map.mem_pairs.mp ((rt.range_perm 0 _).mem_iff.mp (List.mem_of_find?_eq_some hfound))
  have hid : record.player.id = id := hs.id_eq hlookup
  have hrecord : s.players.lookup record.player.id = some record := by rw [hid, hlookup]
  unfold authenticate at h
  split at h
  · cases h
  split at h
  · cases h
    exact ⟨record, names_authenticated hrecord⟩
  · cases h
    exact ⟨record, names_authenticated hrecord⟩

theorem toOption_eq_some {α : Type} {x : Except StoreError α} {a : α} (h : x.toOption = some a) :
    x = .ok a := by
  cases x with
  | error => cases h
  | ok b => exact congrArg _ (Option.some.inj h)

/-- A token is issued with the version that the player has by then. -/
theorem session_names (hs : s.roster.Numbered) (h : call.session T s = some player) :
    ∃ record, Names (call.exec T s) player record := by
  cases call with
  | authenticatePlayer => exact names_logged_in hs (toOption_eq_some h)
  | changeParticipantPassword asked passwordMatches newPassword =>
    rw [session] at h
    rcases changeParticipantPassword_cases asked.playerID passwordMatches newPassword s with
      ⟨e, hc⟩ | ⟨old, hold, hc⟩
    · rw [hc] at h
      cases h
    · rw [exec, hc]
      rw [hc] at h
      cases h
      refine ⟨_, lookup_setPlayer_self, ?_⟩
      have hversion : 1 ≤ old.version := le_max_right _ _
      exact (max_eq_left (hversion.trans (Int.le_add_one le_rfl))).symm
  | store call =>
    cases call with
    | registerPlayer => exact names_registered (toOption_eq_some h)
    | updateParticipantProfile => exact names_profile hs (toOption_eq_some h)
    | joinExistingPlayerTeam => exact names_joined (toOption_eq_some h)
    | transferTeamCaptain => exact names_transferred hs (toOption_eq_some h)
    | _ => cases h

end SessionCall

/-! ## Sessions that have ended -/

section
open MemoryStore
variable {T : CaseTable} {s : MemoryStore} {claims : TeamTokenClaims}

theorem issueTeamJWT_playerID (player : AuthenticatedPlayer) (now : Time) :
    (issueTeamJWT player now).playerID = player.playerID := by
  unfold issueTeamJWT canonicalSessionPlayer
  split <;> rfl

theorem issueTeamJWT_sessionVersion {player : AuthenticatedPlayer} (h : 1 ≤ player.sessionVersion)
    (now : Time) : (issueTeamJWT player now).sessionVersion = player.sessionVersion := by
  have hcanonical : (canonicalSessionPlayer player).sessionVersion = player.sessionVersion := by
    unfold canonicalSessionPlayer
    split <;> rfl
  simp only [issueTeamJWT, hcanonical, if_neg (not_lt.mpr h)]

/-- A token is good for a day. -/
theorem verifyTeamJWT_issueTeamJWT {player : AuthenticatedPlayer} {now later : Time}
    (hid : 0 < player.playerID) (hlater : unix later < unix (now + hours 24)) :
    verifyTeamJWT (issueTeamJWT player now) later = true := by
  have hteam : (issueTeamJWT player now).role = .organizer →
      (issueTeamJWT player now).teamID = 0 := by
    unfold issueTeamJWT canonicalSessionPlayer
    dsimp only
    split
    · exact fun _ => rfl
    · exact fun h => absurd h ‹_›
  have hversion : 1 ≤ (issueTeamJWT player now).sessionVersion := by
    simp only [issueTeamJWT]
    split <;> omega
  have hexpires : (issueTeamJWT player now).expiresAt = unix (now + hours 24) := rfl
  simp only [verifyTeamJWT, issueTeamJWT_playerID, hexpires, Bool.and_eq_true, Bool.not_eq_true',
    Bool.or_eq_false_iff, Bool.and_eq_false_imp, decide_eq_true_eq, decide_eq_false_iff_not]
  exact ⟨⟨⟨by omega, by omega⟩, by omega⟩, fun h => not_not.mpr (hteam h)⟩

/-- A session with another version than the player's is refused. -/
theorem validatePlayerSession_error {p teamID version : Int} {role : Role}
    (h : ∀ record, s.players.lookup p = some record → version ≠ record.version) :
    ∃ e, s.validatePlayerSession p teamID role version = .error e := by
  unfold validatePlayerSession
  split
  · exact ⟨_, rfl⟩
  rename_i record hrecord
  dsimp only
  split
  · exact ⟨_, rfl⟩
  split
  · exact ⟨_, rfl⟩
  rw [if_pos (h record hrecord)]
  exact ⟨_, rfl⟩

/-- The player of a token is there when the token is issued, with its version. -/
theorem Issued.version {calls : List SessionCall} (hs : s.roster.Numbered)
    (h : Issued T s calls claims) : ∃ before after record, calls = before ++ after ∧
      (Runs.run (SessionCall.exec T) s before).players.lookup claims.playerID = some record ∧
      claims.sessionVersion = record.version := by
  obtain ⟨before, call, after, player, now, rfl, hsession, rfl⟩ := h
  obtain ⟨record, hnames⟩ := SessionCall.session_names (SessionCall.numbered_run hs before) hsession
  refine ⟨before ++ [call], after, record, by simp, ?_, ?_⟩
  · rw [issueTeamJWT_playerID, Runs.run_append]
    exact hnames.lookup
  · rw [issueTeamJWT_sessionVersion, hnames.version]
    rw [hnames.version]
    exact le_max_right _ _

/-- The version of a player who stays only grows. -/
theorem version_mono (hs : s.roster.Numbered) {calls : List SessionCall} {p : Int}
    {old record : AdminPlayerRecord} (hold : s.players.lookup p = some old)
    (hrecord : (Runs.run (SessionCall.exec T) s calls).players.lookup p = some record) :
    old.sessionVersion ≤ record.sessionVersion := by
  obtain ⟨old', hold', hle⟩ := (SessionCall.ages_run calls).version hrecord (hs.below hold).2
  cases hold.symm.trans hold'
  exact hle

/-- Versions only grow, and a change of the password or of the captain is the end of every token
that was issued before it. -/
theorem session_revoked (T : CaseTable) (hs : s.Initial) (calls : List SessionCall) :
    (∀ before after p old record, calls = before ++ after →
      (Runs.run (SessionCall.exec T) s before).players.lookup p = some old →
      (Runs.run (SessionCall.exec T) s calls).players.lookup p = some record →
      old.sessionVersion ≤ record.sessionVersion) ∧
    ∀ before call after claims, calls = before ++ call :: after → Issued T s before claims →
      call.revokes claims.playerID (Runs.run (SessionCall.exec T) s before) →
      ∃ e, (Runs.run (SessionCall.exec T) s calls).validatePlayerSession claims.playerID
        claims.teamID
        claims.role claims.sessionVersion = .error e := by
  have hs := numbered_initial hs
  constructor
  · rintro before after p old record rfl hold hrecord
    rw [Runs.run_append] at hrecord
    exact version_mono (SessionCall.numbered_run hs before) hold hrecord
  · rintro before call after claims rfl hissued hrevokes
    obtain ⟨old, revoked, hold, hrevoked, hlt⟩ := SessionCall.revokes_version T hrevokes
    have hclaims : claims.sessionVersion ≤ old.version := by
      obtain ⟨first, rest, record, rfl, hrecord, hversion⟩ := hissued.version hs
      rw [Runs.run_append] at hold
      rw [hversion]
      exact AdminPlayerRecord.version_le
        (version_mono (SessionCall.numbered_run hs first) hrecord hold)
    have hrun : Runs.run (SessionCall.exec T) s (before ++ call :: after) = Runs.run
        (SessionCall.exec T) (call.exec T (Runs.run (SessionCall.exec T) s before)) after := by
      rw [Runs.run_append]
      rfl
    rw [hrun]
    refine validatePlayerSession_error fun record hrecord => ?_
    have hnumbered := SessionCall.numbered_exec (T := T)
      (SessionCall.numbered_run (T := T) hs before) call
    have hle := AdminPlayerRecord.version_le (version_mono hnumbered hrevoked hrecord)
    omega

/-- Ada registers. -/
def registration : SessionCall :=
  .store (.registerPlayer
    { displayName := "Ada", email := "ada@example.com", password := "longpassword" } 0)

/-- Ada as a session shows her. -/
def registered : AuthenticatedPlayer := ⟨1, 0, "", "", "Ada", "ada@example.com", .member, 1⟩

/-- Ada changes her password. -/
def passwordChange : SessionCall :=
  .changeParticipantPassword registered (fun _ => true) "otherpassword"

theorem session_revoked_passwordChange :
    (Runs.run (SessionCall.exec .ascii) {} [registration]).validatePlayerSession 1 0 .member 1 =
      .ok registered ∧
    ∃ e,
      (Runs.run (SessionCall.exec .ascii) {} [registration, passwordChange]).validatePlayerSession
      1 0 .member 1 = .error e := by
  refine ⟨by decide +kernel, ?_⟩
  exact (session_revoked .ascii (.inl rfl) [registration, passwordChange]).2 [registration]
    passwordChange [] (issueTeamJWT registered 0) rfl
    ⟨[], registration, [], registered, 0, rfl, by decide +kernel, rfl⟩ ⟨rfl, by decide +kernel⟩

end

end ADPlatform.APIGateway
