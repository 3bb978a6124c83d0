import ADPlatform.APIGateway.Deployments
import ADPlatform.APIGateway.MemoryAddresses

/-! # Failed calls of the in-memory store

A call that fails should leave the records of the store as they were. Three calls write before their
last check: `CreateAdminTeam` and `DeployAdminChallenge` draw a token for each service that they
queue, and `JoinExistingPlayerTeam` makes the player a captain before it asks for an address
(`failed_call_keeps_iff`). -/

namespace ADPlatform.APIGateway
open Text

namespace MemoryStore
variable {T : CaseTable} {s t : MemoryStore}

/-- The two stores have the same players, teams, services, challenges, deployments and rows. -/
structure SameRecords (s t : MemoryStore) : Prop where
  players : ∀ p, t.players.lookup p = s.players.lookup p
  teams : ∀ id, t.teams.lookup id = s.teams.lookup id
  teamStates : ∀ k, t.teamStates.lookup k = s.teamStates.lookup k
  instances : ∀ k, t.instances.lookup k = s.instances.lookup k
  challenges : ∀ c, t.challenges.lookup c = s.challenges.lookup c
  deployments : ∀ id, t.deployments.lookup id = s.deployments.lookup id
  scoreboard : t.scoreboard = s.scoreboard

theorem SameRecords.refl (s : MemoryStore) : s.SameRecords s :=
  ⟨fun _ => rfl, fun _ => rfl, fun _ => rfl, fun _ => rfl, fun _ => rfl, fun _ => rfl, rfl⟩

/-- If the call fails, the records are as before. -/
def Unharmed (s : MemoryStore) (c : Change MemoryStore α) : Prop :=
  c.failed = true → s.SameRecords c.store

/-- What is asked of the calls that work in several steps. -/
def failsUnharmed (T : CaseTable) (s : MemoryStore) : MemoryCall → Prop
  | .createAdminTeam request input => s.Unharmed (s.createAdminTeam T request input)
  | .createAdminPlayer request input => s.Unharmed (s.createAdminPlayer T request input)
  | .joinExistingPlayerTeam p teamKey input =>
    s.Unharmed (s.joinExistingPlayerTeam T p teamKey input)
  | .deployAdminChallenge c input => s.Unharmed (s.deployAdminChallenge c input)
  | .transferTeamCaptain p q => s.Unharmed (s.transferTeamCaptain p q)
  | .updateParticipantProfile p request => s.Unharmed (s.updateParticipantProfile T p request)
  | _ => True

/-- Every address of the pool is that of a player. -/
def PoolExhausted (s : MemoryStore) : Prop :=
  ∀ index < wireGuardPeerAddressPoolSize, ∃ p record, s.players.lookup p = some record ∧
    trimSpace record.wireGuard.address = wireGuardPeerAddressAt index

/-- No address is left, or the keys or the profile of the server cannot be had. -/
def PeerMissing (input : WireGuardInput) (s : MemoryStore) : Prop :=
  s.PoolExhausted ∨ (∃ i < 2, ∃ message, input.random i = .error message) ∨
    ∃ message, input.profile = .error message

/-- A player who may join the team of the key, and who would become its captain. -/
structure JoinsAsCaptain (T : CaseTable) (p : Int) (teamKey : String) (input : WireGuardInput)
    (s : MemoryStore) (old : AdminPlayerRecord) (team : AdminTeam) : Prop where
  player : s.players.lookup p = some old
  role : old.player.role = .member
  alone : old.player.teamID ≤ 0
  found : (s.joinedTeam T input.rt teamKey).map (·.2) = some team
  room : s.teamMemberLimitReached team.id = false
  vacant : s.teamHasActiveCaptain team.id = false

/-- The call fails once it has begun to write. -/
def failsLate (T : CaseTable) (s : MemoryStore) : MemoryCall → Prop
  | .createAdminTeam request input =>
    (∃ id joinKey, CreatesTeam T request input s id joinKey) ∧ s.tokenMissing input
  | .joinExistingPlayerTeam p teamKey input =>
    (∃ old team, JoinsAsCaptain T p teamKey input s old team) ∧ s.PeerMissing input
  | .deployAdminChallenge c input =>
    (s.challenges.lookup c).isSome ∧ (∃ raw, input.random 0 = .ok raw) ∧
      ∃ i < s.teams.pairs.length, ∃ message, input.random i = .error message
  | _ => False

theorem Unharmed.of_ok {c : Change MemoryStore α} (h : c.failed = false) : s.Unharmed c := by
  intro hfailed
  rw [h] at hfailed
  cases hfailed

theorem Unharmed.of_store {c : Change MemoryStore α} (h : c.store = s) : s.Unharmed c := by
  intro _
  rw [h]
  exact .refl s

theorem unharmed_transferTeamCaptain (p q : Int) : s.Unharmed (s.transferTeamCaptain p q) := by
  unfold transferTeamCaptain
  repeat' split
  all_goals first | exact .of_store rfl | exact .of_ok rfl

theorem unharmed_updateParticipantProfile (p : Int) (request : ParticipantUpdateProfileRequest) :
    s.Unharmed (s.updateParticipantProfile T p request) := by
  unfold updateParticipantProfile
  dsimp only
  repeat' split
  all_goals first | exact .of_store rfl | exact .of_ok rfl

/-- Only the number of the player is used up. -/
theorem unharmed_createAdminPlayer (request : AdminCreatePlayerRequest) (input : WireGuardInput) :
    s.Unharmed (s.createAdminPlayer T request input) := by
  unfold createAdminPlayer
  dsimp only
  repeat' split
  iterate 4 exact .of_store rfl
  · intro _
    exact ⟨fun _ => rfl, fun _ => rfl, fun _ => rfl, fun _ => rfl, fun _ => rfl, fun _ => rfl, rfl⟩
  · exact .of_ok rfl
  · exact .of_ok rfl

/-! ## Teams -/

theorem unharmed_createAdminTeam_iff {request : AdminCreateTeamRequest} {input : StoreInput} :
    s.Unharmed (s.createAdminTeam T request input) ↔
      ¬((∃ id joinKey, CreatesTeam T request input s id joinKey) ∧ s.tokenMissing input) := by
  rcases createAdminTeam_cases T s request input with
    ⟨hrejected, hstore, -⟩ | ⟨id, joinKey, hcreates, ⟨-, hstore, hfailed⟩ | ⟨-, -, hresult⟩⟩
  · refine iff_of_true (.of_store hstore) ?_
    rintro ⟨⟨id, joinKey, hcreates⟩, -⟩
    exact hrejected id joinKey hcreates
  · have hmissing := (createAdminTeam_failed_iff hcreates).mp hfailed
    refine iff_of_false (fun hunharmed => ?_) (not_not.mpr ⟨⟨id, joinKey, hcreates⟩, hmissing⟩)
    -- the new team stays behind
    have hteams : (s.createAdminTeam T request input).store.teams =
        s.teams.insert id (requestedTeam T request id joinKey) := by
      rw [hstore]
      exact congrArg Accounts.teams accounts_joinChallenges
    have hsame := (hunharmed hfailed).teams id
    rw [hteams, AList.lookup_insert, hcreates.new] at hsame
    cases hsame
  · have hcreated := Change.not_failed_of_result hresult
    refine iff_of_true (.of_ok hcreated) ?_
    rintro ⟨-, hmissing⟩
    rw [(createAdminTeam_failed_iff hcreates).mpr hmissing] at hcreated
    cases hcreated

/-! ## Deployments -/

/-- The store with the number of a new deployment used up, where there is a team to deploy for. -/
def numbered (s : MemoryStore) (teams : List Int) : MemoryStore :=
  if teams = [] then s else { s with nextDeploymentID := s.nextDeploymentID + 1 }

theorem sameRecords_numbered (s : MemoryStore) (teams : List Int) :
    s.SameRecords (s.numbered teams) := by
  unfold numbered
  split
  · exact .refl s
  · exact ⟨fun _ => rfl, fun _ => rfl, fun _ => rfl, fun _ => rfl, fun _ => rfl, fun _ => rfl, rfl⟩

/-- `DeployAdminChallenge` fails if its loop does, and leaves what the loop has written. -/
theorem deployAdminChallenge_cases {c : Int} (input : StoreInput) {challenge : AdminChallenge}
    (h : s.challenges.lookup c = some challenge) :
    let teams := s.teamOrder input.rt
    let change :=
      deployTeams (challenge.runtimeConfig c) (if teams = [] then 0 else s.nextDeploymentID)
      input 0 teams (s.numbered teams) []
    (s.deployAdminChallenge c input).failed = change.failed ∧
      (change.failed = true → (s.deployAdminChallenge c input).store = change.store) := by
  unfold deployAdminChallenge
  rw [h]
  dsimp only [teamOrder, numbered]
  split
  · rename_i e hresult
    rw [Change.failed_of_result hresult]
    exact ⟨rfl, fun _ => rfl⟩
  · rename_i hresult
    rw [Change.not_failed_of_result hresult]
    exact ⟨rfl, nofun⟩

theorem unharmed_deployAdminChallenge_iff (hs : s.JobsInOrder) {c : Int} {input : StoreInput} :
    s.Unharmed (s.deployAdminChallenge c input) ↔
      ¬((s.challenges.lookup c).isSome ∧ (∃ raw, input.random 0 = .ok raw) ∧
        ∃ i < s.teams.pairs.length, ∃ message, input.random i = .error message) := by
  cases hchallenge : s.challenges.lookup c with
  | none =>
    refine iff_of_true (.of_store ?_) (by simp)
    simp [deployAdminChallenge, hchallenge]
  | some challenge =>
    obtain ⟨hfailed, hstore⟩ := deployAdminChallenge_cases input hchallenge
    rw [← length_teamOrder s input.rt]
    cases hteams : s.teamOrder input.rt with
    | nil =>
      rw [hteams] at hfailed
      exact iff_of_true (.of_ok hfailed) (by simp)
    | cons team teams =>
      rw [hteams, if_neg (List.cons_ne_nil team teams)] at hfailed hstore
      cases hfirst : input.random 0 with
      | error message =>
        -- nothing is written before the first token
        refine iff_of_true ?_ (by simp)
        obtain ⟨e, htoken⟩ : ∃ e, input.newCheckerToken 0 = .error e :=
          ⟨_, by rw [StoreInput.newCheckerToken, hfirst]⟩
        simp only [deployTeams, htoken] at hstore
        intro _
        rw [hstore rfl]
        exact sameRecords_numbered s _
      | ok raw =>
        obtain ⟨m, hm, hlt, hplace⟩ := deployTeams_place challenge c s.nextDeploymentID input 0
          (team :: teams) (s.numbered (team :: teams)) []
        have hpos : 0 < m := by
          by_contra hzero
          obtain rfl := Nat.eq_zero_of_not_pos hzero
          obtain ⟨message, hmessage⟩ := hm.missing (Nat.succ_pos _)
          rw [hfirst] at hmessage
          cases hmessage
        by_cases hmissing : m < (team :: teams).length
        · have hbad := hlt.mpr hmissing
          obtain ⟨message, hmessage⟩ := hm.missing hmissing
          rw [Nat.zero_add] at hmessage
          refine iff_of_false (fun hunharmed => ?_)
            (not_not.mpr ⟨rfl, ⟨raw, rfl⟩, m, hmissing, message, hmessage⟩)
          -- the service of the first team belongs to the new job
          have hnew := hplace (team, c)
          rw [← hstore hbad, if_pos ⟨rfl, by simp [List.take_cons hpos]⟩] at hnew
          have hsame := (hunharmed (hfailed.trans hbad)).instances (team, c)
          rw [place, hsame] at hnew
          exact (hs.given (team, c) _ _ hnew rfl).false
        · refine iff_of_true (.of_ok ?_) ?_
          · rw [hfailed, ← Bool.not_eq_true, hlt]
            exact hmissing
          · rintro ⟨-, -, i, hi, message, hmessage⟩
            obtain ⟨raw, hraw⟩ := hm.drawn i (hi.trans_le (not_lt.mp hmissing))
            rw [Nat.zero_add, hmessage] at hraw
            cases hraw

/-! ## Joining a team -/

theorem allocate_fails_iff :
    (∃ e, s.allocateWireGuardPeerAddress = .error e) ↔ s.PoolExhausted := by
  rw [allocateWireGuardPeerAddress_eq]
  split
  · rename_i index hfind
    refine iff_of_false (by simp) fun hexhausted => ?_
    obtain ⟨hfree, hmem, -⟩ := List.find?_range_eq_some.mp hfind
    have hindex := List.mem_range.mp hmem
    exact of_decide_eq_true hfree ((mem_used_iff hindex).mpr (hexhausted index hindex))
  · rename_i hfind
    refine iff_of_true ⟨_, rfl⟩ fun index hindex => ?_
    have hused := List.find?_eq_none.mp hfind index (List.mem_range.mpr hindex)
    rw [decide_eq_true_eq, not_not] at hused
    exact (mem_used_iff hindex).mp hused

theorem newPeer_fails_iff (input : WireGuardInput) (playerID teamID : Int)
    (teamName displayName peer : String) {address : String} (h : trimSpace address ≠ "") :
    (∃ e,
      input.newWireGuardPeerState playerID teamID teamName displayName peer address = .error e) ↔
      (∃ i < 2, ∃ message, input.random i = .error message) ∨
        ∃ message, input.profile = .error message := by
  rw [WireGuardInput.newWireGuardPeerState, if_neg h]
  have htwo : (∃ i < 2, ∃ message, input.random i = .error message) ↔
      (∃ message, input.random 0 = .error message) ∨
        ∃ message, input.random 1 = .error message := by
    constructor
    · rintro ⟨i, hi, hmessage⟩
      interval_cases i
      · exact .inl hmessage
      · exact .inr hmessage
    · rintro (hmessage | hmessage)
      · exact ⟨0, by decide, hmessage⟩
      · exact ⟨1, by decide, hmessage⟩
  rw [htwo]
  cases hkeys : input.random 0 with
  | error message => simp [WireGuardInput.generateX25519Keypair, hkeys, bind, Except.bind]
  | ok raw =>
    cases hsecret : input.random 1 with
    | error message =>
      simp [WireGuardInput.generateX25519Keypair, WireGuardInput.generateWireGuardSecret,
        hkeys, hsecret,
        bind, Except.bind]
    | ok raw' =>
      cases hprofile : input.profile with
      | error message =>
        simp [WireGuardInput.generateX25519Keypair, WireGuardInput.generateWireGuardSecret,
          WireGuardInput.currentWireGuardServerProfile, hkeys, hsecret, hprofile, bind, Except.bind]
      | ok profile =>
        simp [WireGuardInput.generateX25519Keypair, WireGuardInput.generateWireGuardSecret,
          WireGuardInput.currentWireGuardServerProfile, hkeys, hsecret, hprofile, bind,
          Except.bind, pure,
          Except.pure]

theorem issuePeer_fails_iff {input : WireGuardInput} {p : Int} {record : AdminPlayerRecord} :
    (∃ e, s.issuePeer input p record = .error e) ↔ s.PeerMissing input := by
  rw [PeerMissing, ← allocate_fails_iff]
  unfold issuePeer
  split
  · rename_i e haddress
    exact iff_of_true ⟨e, rfl⟩ (.inl ⟨e, haddress⟩)
  · rename_i address haddress
    obtain ⟨index, hindex, hplace⟩ := allocateWireGuardPeerAddress_pool haddress
    obtain ⟨htrim, hne⟩ := trimSpace_wireGuardPeerAddressAt hindex
    have hblank : trimSpace address ≠ "" := by
      rw [hplace, htrim]
      exact hne
    have hpeer := newPeer_fails_iff input p record.player.teamID record.player.teamName
      record.player.displayName record.player.wireGuardPeer hblank
    rw [← hpeer, haddress]
    split
    · rename_i e he
      exact iff_of_true ⟨e, rfl⟩ (.inr ⟨e, he⟩)
    · rename_i state hstate
      simp [hstate]

/-- A record that is put back does not change the players. -/
theorem lookup_setPlayer_same {p : Int} {record : AdminPlayerRecord}
    (h : s.players.lookup p = some record)
    (q : Int) : (s.setPlayer p record).players.lookup q = s.players.lookup q := by
  by_cases hq : q = p
  · rw [hq, h]
    exact AList.lookup_insert _
  · exact AList.lookup_insert_ne hq

theorem unharmed_joinExistingPlayerTeam_iff {p : Int} {teamKey : String} {input : WireGuardInput} :
    s.Unharmed (s.joinExistingPlayerTeam T p teamKey input) ↔
      ¬((∃ old team, JoinsAsCaptain T p teamKey input s old team) ∧ s.PeerMissing input) := by
  unfold joinExistingPlayerTeam
  split
  · rename_i hnone
    refine iff_of_true (.of_store rfl) ?_
    rintro ⟨⟨old, team, hjoins⟩, -⟩
    rw [hjoins.player] at hnone
    cases hnone
  rename_i old hold
  have hplayer : ∀ {other team}, JoinsAsCaptain T p teamKey input s other team → other = old :=
    fun hjoins => Option.some.inj (hjoins.player.symm.trans hold)
  split
  · rename_i hmember
    refine iff_of_true (.of_store rfl) ?_
    rintro ⟨⟨other, team, hjoins⟩, -⟩
    obtain rfl := hplayer hjoins
    rcases hmember with hrole | hteam
    · rw [hjoins.role] at hrole
      cases hrole
    · exact absurd hteam (not_lt.mpr hjoins.alone)
  rename_i hmember
  obtain ⟨horganizer, halone⟩ := not_or.mp hmember
  split
  · rename_i hnone
    refine iff_of_true (.of_store rfl) ?_
    rintro ⟨⟨other, team, hjoins⟩, -⟩
    have hfound := hjoins.found
    rw [joinedTeam, hnone] at hfound
    cases hfound
  rename_i id team hfind
  have hteam : ∀ {other team'}, JoinsAsCaptain T p teamKey input s other team' → team' = team := by
    intro other team' hjoins
    have hfound := hjoins.found
    rw [joinedTeam, hfind] at hfound
    exact (Option.some.inj hfound).symm
  split
  · rename_i hfull
    refine iff_of_true (.of_store rfl) ?_
    rintro ⟨⟨other, team', hjoins⟩, -⟩
    obtain rfl := hteam hjoins
    rw [hjoins.room] at hfull
    cases hfull
  rename_i hroom
  dsimp only
  split
  · rename_i e he
    have hmissing := issuePeer_fails_iff.mp ⟨e, he⟩
    by_cases hjoins : JoinsAsCaptain T p teamKey input s old team
    · refine iff_of_false (fun hunharmed => ?_) (not_not.mpr ⟨⟨old, team, hjoins⟩, hmissing⟩)
      -- the player has become a captain
      have hsame := (hunharmed rfl).players p
      rw [setPlayer, AList.lookup_insert, hold, promoted, hjoins.vacant] at hsame
      have hrole := congrArg (Option.map fun record : AdminPlayerRecord => record.player.role) hsame
      simp [hjoins.role] at hrole
    · refine iff_of_true (fun _ => ?_) ?_
      · have hkept : s.promoted team old = old := by
          rw [promoted]
          split
          · rfl
          · rename_i hvacant
            have hrole : old.player.role = .captain := by
              cases hrole : old.player.role with
              | organizer => exact absurd hrole horganizer
              | captain => rfl
              | member =>
                refine absurd ⟨hold, hrole, not_lt.mp halone, ?_, ?_, ?_⟩ hjoins
                · rw [joinedTeam, hfind]
                  rfl
                · exact Bool.eq_false_of_not_eq_true hroom
                · exact Bool.eq_false_of_not_eq_true hvacant
            rw [← hrole]
        rw [hkept]
        exact ⟨lookup_setPlayer_same hold, fun _ => rfl, fun _ => rfl, fun _ => rfl, fun _ => rfl,
          fun _ => rfl, rfl⟩
      · rintro ⟨⟨other, team', hother⟩, -⟩
        obtain rfl := hplayer hother
        obtain rfl := hteam hother
        exact hjoins hother
  · rename_i joined hissued
    refine iff_of_true (.of_ok rfl) ?_
    rintro ⟨-, hmissing⟩
    obtain ⟨e, he⟩ := issuePeer_fails_iff.mpr hmissing
    rw [hissued] at he
    cases he

/-! ## An exhausted pool -/

/-- An email with so many letters before the domain. -/
def longEmail (n : Nat) : String := String.ofList (List.replicate n 'a' ++ "@example.com".toList)

/-- The `n`-th request of a series in which only the email differs. -/
def createsOrganizer (n : Nat) : AdminCreatePlayerRequest where
  teamID := 0
  displayName := "Olga"
  email := longEmail n
  password := "longpassword"
  role := "organizer"

theorem normalized_longEmail (n : Nat) :
    trimSpace (CaseTable.ascii.toLower (longEmail n)) = longEmail n := by
  have hlower : CaseTable.ascii.toLower (longEmail n) = longEmail n := by
    apply String.toList_injective
    rw [CaseTable.toLower, String.toList_map, longEmail, String.toList_ofList, List.map_append,
      List.map_replicate]
    rfl
  rw [hlower]
  refine trimSpace_eq_self fun c hc => ?_
  rw [longEmail, String.toList_ofList, List.mem_append] at hc
  rcases hc with hc | hc
  · rw [List.eq_of_mem_replicate hc]
    decide
  · simp only [String.reduceToList, List.mem_cons, List.not_mem_nil, or_false] at hc
    rcases hc with rfl | rfl | rfl | rfl | rfl | rfl | rfl | rfl | rfl | rfl | rfl | rfl <;> decide

/-- An email that is longer than all others is not taken. -/
theorem exists_fresh_email (T : CaseTable) (s : MemoryStore) :
    ∃ n, s.emailTaken T (longEmail n) none = false := by
  let lengths := s.players.pairs.map fun x => x.2.player.email.toList.length
  refine ⟨lengths.sum, ?_⟩
  simp only [emailTaken, List.any_eq_false, Prod.forall, Bool.and_eq_true]
  rintro p record hp ⟨-, hsame⟩
  have hmem : record.player.email.toList.length ∈ lengths := List.mem_map.mpr ⟨_, hp, rfl⟩
  have hshort := List.le_sum_of_mem hmem
  have hlength := congrArg (fun text => text.toList.length) (of_decide_eq_true hsame)
  simp only [String.toList_map, List.length_map, longEmail, String.toList_ofList,
    List.length_append,
    List.length_replicate] at hlength
  have hdomain : 0 < "@example.com".toList.length := by decide
  omega

/-- While an address is left, an organizer with an email of its own gets one. -/
theorem createAdminPlayer_organizer {n : Nat}
    (hfree : s.emailTaken .ascii (longEmail n) none = false)
    (hpool : ¬ s.PoolExhausted) : ∃ issued,
      s.allocateWireGuardPeerAddress = .ok issued.wireGuard.address ∧ issued.player.teamID = 0 ∧
      s.exec .ascii (.createAdminPlayer (createsOrganizer n) testKeys) =
        { s with nextPlayerID := s.nextPlayerID + 1 }.setPlayer s.nextPlayerID issued := by
  have hissues : ¬ ∃ e, s.issuePeer testKeys s.nextPlayerID
      (s.createdPlayer .ascii (createsOrganizer n) testKeys.now) = .error e := by
    rw [issuePeer_fails_iff]
    rintro (hexhausted | ⟨i, -, message, hmessage⟩ | ⟨message, hmessage⟩)
    · exact hpool hexhausted
    · cases hmessage
    · cases hmessage
  cases hissued : s.issuePeer testKeys s.nextPlayerID
      (s.createdPlayer .ascii (createsOrganizer n) testKeys.now) with
  | error e => exact absurd ⟨e, hissued⟩ hissues
  | ok issued =>
    obtain ⟨address, state, haddress, hstate, hpeer⟩ := issuePeer_ok hissued
    refine ⟨issued, ?_, ?_, ?_⟩
    · rw [haddress, hpeer]
      exact congrArg _ (WireGuardInput.newWireGuardPeerState_ok hstate).1.symm
    · rw [hpeer]
      rfl
    · have hemail : s.emailTaken .ascii
          (trimSpace (CaseTable.ascii.toLower (createsOrganizer n).email)) none ≠ true := by
        rw [createsOrganizer, normalized_longEmail, hfree]
        exact Bool.false_ne_true
      have hpassword : validPassword "longpassword" = true := by decide
      have hrole : normalizedRole "organizer" = .organizer := by decide +kernel
      have horganizer : (s.createdPlayer .ascii (createsOrganizer n) testKeys.now).player.hasPeer =
          true := by
        simp [createdPlayer, AdminPlayer.hasPeer, createsOrganizer, hrole]
      rw [exec, createAdminPlayer, if_neg (by simp [createsOrganizer, hpassword]),
        if_neg (fun h => h.1 rfl),
        if_neg (fun h => h.1 rfl), if_neg hemail]
      dsimp only
      rw [if_pos horganizer, hissued]

/-- Players have come to the store, but none to the team. -/
structure OthersCame (teamID : Int) (s t : MemoryStore) : Prop where
  teams : t.teams = s.teams
  settings : t.platformSettings = s.platformSettings
  players : ∀ {p record}, s.players.lookup p = some record → t.players.lookup p = some record
  apart : ∀ {p record}, t.players.lookup p = some record → record.player.teamID ≠ teamID

theorem OthersCame.trans {teamID : Int} {u : MemoryStore} (h : OthersCame teamID s t)
    (h' : OthersCame teamID t u) : OthersCame teamID s u :=
  ⟨h'.teams.trans h.teams, h'.settings.trans h.settings, fun hp =>
    h'.players (h.players hp), h'.apart⟩

theorem OthersCame.join {p : Int} {teamKey : String} {input : WireGuardInput}
    {old : AdminPlayerRecord}
    {team : AdminTeam} (h : OthersCame team.id s t)
    (hjoins : JoinsAsCaptain T p teamKey input s old team) :
    JoinsAsCaptain T p teamKey input t old team where
  player := h.players hjoins.player
  role := hjoins.role
  alone := hjoins.alone
  found := by
    rw [joinedTeam, h.teams]
    exact hjoins.found
  room := by
    have hnone : t.playerCountForTeam team.id = 0 := by
      rw [playerCountForTeam, List.countP_eq_zero]
      rintro ⟨q, record⟩ hq
      simpa using h.apart (Go.Map.mem_pairs.mp hq)
    simp only [teamMemberLimitReached, hnone]
    split
    · rfl
    · simp only [decide_eq_false_iff_not]
      push_cast
      omega
  vacant := by
    simp only [teamHasActiveCaptain, teamHasOtherActiveCaptain, Bool.and_eq_false_iff,
      List.any_eq_false,
      Prod.forall, Go.Map.mem_pairs]
    refine .inr fun q record hq hcaptain => ?_
    simp [h.apart hq] at hcaptain

/-- The next organizer gets the first free place. -/
theorem exists_call_takes_place {teamID : Int} (hteam : teamID ≠ 0) (hs : s.roster.Numbered)
    (haddressed : s.roster.Addressed)
    (hapart : ∀ {p record}, s.players.lookup p = some record → record.player.teamID ≠ teamID)
    {k : Nat} (hk : k < wireGuardPeerAddressPoolSize)
    (hused : ∀ place < k, s.roster.Uses (wireGuardPeerAddressAt place))
    (hplace : ¬ s.roster.Uses (wireGuardPeerAddressAt k)) :
    ∃ call, OthersCame teamID s (s.exec .ascii call) ∧
      ∀ place < k + 1, (s.exec .ascii call).roster.Uses (wireGuardPeerAddressAt place) := by
  have hpool : ¬ s.PoolExhausted := fun hexhausted =>
    hplace ((uses_iff haddressed hk).mp (hexhausted k hk))
  obtain ⟨n, hfresh⟩ := exists_fresh_email .ascii s
  obtain ⟨issued, haddress, hnone, hstore⟩ := createAdminPlayer_organizer hfresh hpool
  rw [(allocateWireGuardPeerAddress_ok_iff haddressed).mpr ⟨k, hk, rfl, hplace, hused⟩] at haddress
  injection haddress with haddress
  refine ⟨.createAdminPlayer (createsOrganizer n) testKeys, ?_⟩
  generalize s.exec .ascii (.createAdminPlayer (createsOrganizer n) testKeys) = t at hstore
  have hplayers : ∀ p, t.players.lookup p =
      if p = s.nextPlayerID then some issued else s.players.lookup p := fun p => by
    rw [hstore]
    exact Roster.lookup_setPlayer (r := s.roster)
  have hold : ∀ {p record}, s.players.lookup p = some record → t.players.lookup p = some record :=
    fun hp => (hplayers _).trans ((if_neg (hs.below hp).2.ne).trans hp)
  refine ⟨⟨by rw [hstore]; rfl, by rw [hstore]; rfl, hold, fun {p record} hp => ?_⟩,
    fun place hlt => ?_⟩
  · rw [hplayers] at hp
    split at hp
    · cases hp
      rw [hnone]
      exact hteam.symm
    · exact hapart hp
  · rcases Nat.lt_succ_iff_lt_or_eq.mp hlt with hlt | rfl
    · obtain ⟨p, record, hp, heq⟩ := hused place hlt
      exact ⟨p, record, hold hp, heq⟩
    · exact ⟨s.nextPlayerID, issued, (hplayers _).trans (if_pos rfl), haddress.symm⟩

/-- Organizers take the places of the pool one after the other, until none is left. -/
theorem exists_poolExhausted {teamID : Int} (hteam : teamID ≠ 0) (hs : s.roster.Numbered)
    (haddressed : s.roster.Addressed)
    (hapart : ∀ {p record}, s.players.lookup p = some record → record.player.teamID ≠ teamID) :
    ∃ calls, OthersCame teamID s (Runs.run (exec .ascii) s calls) ∧
      (Runs.run (exec .ascii) s calls).PoolExhausted := by
  have haddresses : ∀ calls, (Runs.run (exec .ascii) s calls).roster.Addressed := fun calls =>
    Runs.run_invariant (P := fun s : MemoryStore => s.roster.Addressed) haddressed
      fun call _ h => addressed_exec .ascii call h
  have hplaces : ∀ k ≤ wireGuardPeerAddressPoolSize, ∃ calls,
      OthersCame teamID s (Runs.run (exec .ascii) s calls) ∧ ∀ place < k,
        (Runs.run (exec .ascii) s calls).roster.Uses (wireGuardPeerAddressAt place) := by
    intro k
    induction k with
    | zero => exact fun _ => ⟨[], ⟨rfl, rfl, id, hapart⟩, nofun⟩
    | succ k ih =>
      intro hk
      obtain ⟨calls, hcame, hused⟩ := ih (Nat.le_of_succ_le hk)
      by_cases hplace : (Runs.run (exec .ascii) s calls).roster.Uses (wireGuardPeerAddressAt k)
      · refine ⟨calls, hcame, fun place hlt => ?_⟩
        rcases Nat.lt_succ_iff_lt_or_eq.mp hlt with hlt | rfl
        · exact hused place hlt
        · exact hplace
      · have hnumbered : (Runs.run (exec .ascii) s calls).roster.Numbered :=
          Runs.run_invariant (P := fun s : MemoryStore => s.roster.Numbered) hs
            fun call _ h => numbered_exec h call
        obtain ⟨call, hnext, hused'⟩ :=
          exists_call_takes_place hteam hnumbered (haddresses calls) hcame.apart hk hused hplace
        refine ⟨calls ++ [call], ?_⟩
        rw [Runs.run_append]
        exact ⟨hcame.trans hnext, hused'⟩
  obtain ⟨calls, hcame, hused⟩ := hplaces _ le_rfl
  exact ⟨calls, hcame, fun index hindex =>
    (uses_iff (haddresses calls) hindex).mpr (hused index hindex)⟩

/-! ## Reachable stores -/

/-- In every reachable store, a call that fails leaves the records as they were, exactly if it does
not fail behind its first write. -/
theorem failed_call_keeps_iff (T : CaseTable) (hs : s.Initial) (calls : List MemoryCall)
    (call : MemoryCall) : failsUnharmed T (Runs.run (exec T) s calls) call ↔
      ¬failsLate T (Runs.run (exec T) s calls) call := by
  have horder : (Runs.run (exec T) s calls).JobsInOrder :=
    Runs.run_invariant (jobsInOrder_initial hs) fun call _ => jobsInOrder_exec T call
  generalize Runs.run (exec T) s calls = reached at horder
  cases call with
  | createAdminTeam => exact unharmed_createAdminTeam_iff
  | joinExistingPlayerTeam => exact unharmed_joinExistingPlayerTeam_iff
  | deployAdminChallenge => exact unharmed_deployAdminChallenge_iff horder
  | createAdminPlayer request input =>
    exact iff_of_true (unharmed_createAdminPlayer request input) not_false
  | transferTeamCaptain p q => exact iff_of_true (unharmed_transferTeamCaptain p q) not_false
  | updateParticipantProfile p request =>
    exact iff_of_true (unharmed_updateParticipantProfile p request) not_false
  | _ => exact iff_of_true trivial not_false

/-- A team that nobody has joined, and a player who has registered. -/
def vacantTeam : List MemoryCall :=
  [.createAdminTeam { name := "Blue", contactEmail := "blue@example.com" }
      { random := fun _ => .ok (List.replicate 12 0) },
   .registerPlayer { displayName := "Ann", email := "ann@example.com",
                     password := "longpassword" } 0]

/-- The join key of the vacant team. -/
def vacantTeamKey : String := "TEAM-00000000-00000000-00000000"

/-- Where the public key of the server is not configured, no peer can be made. -/
def unconfigured : WireGuardInput := { testKeys with
  profile :=
    .error ("WIREGUARD_SERVER_PRIVATE_KEY or WIREGUARD_SERVER_PUBLIC_KEY must be set outside " ++
    "dry-run memory mode") }

/-- Ann becomes the captain of the team, then Bob wants to join. -/
def captainedTeam : List MemoryCall := vacantTeam ++
  [.joinExistingPlayerTeam 1 vacantTeamKey testKeys,
   .registerPlayer { displayName := "Bob", email := "bob@example.com",
                     password := "longpassword" } 0]

theorem failed_call_keeps_iff_captainedTeam :
    ((Runs.run (exec .ascii) {} captainedTeam).joinExistingPlayerTeam .ascii 2 vacantTeamKey
      unconfigured).failed = true ∧
    failsUnharmed .ascii (Runs.run (exec .ascii) {} captainedTeam)
      (.joinExistingPlayerTeam 2 vacantTeamKey unconfigured) := by
  refine ⟨by decide +kernel, (failed_call_keeps_iff .ascii (.inl rfl) captainedTeam _).mpr ?_⟩
  rintro ⟨⟨old, team, hjoins⟩, -⟩
  have hcaptained : ((Runs.run (exec .ascii) {} captainedTeam).joinedTeam .ascii unconfigured.rt
      vacantTeamKey).all (fun found =>
        (Runs.run (exec .ascii) {} captainedTeam).teamHasActiveCaptain found.2.id) = true := by
    decide +kernel
  obtain ⟨found, hfound, rfl⟩ := Option.map_eq_some_iff.mp hjoins.found
  rw [hfound, Option.all_some, hjoins.vacant] at hcaptained
  cases hcaptained

theorem joins_vacantTeam : ∃ old team, team.id = 101 ∧
    JoinsAsCaptain .ascii 1 vacantTeamKey testKeys (Runs.run (exec .ascii) {} vacantTeam)
      old team := by
  have hplayer : ((Runs.run (exec .ascii) {} vacantTeam).players.lookup 1).any (fun old =>
      decide (old.player.role = .member ∧ old.player.teamID ≤ 0)) = true := by
    decide +kernel
  have hteam :
      ((Runs.run (exec .ascii) {} vacantTeam).joinedTeam .ascii testKeys.rt vacantTeamKey).any
      (fun found => decide (found.2.id = 101)) = true := by
    decide +kernel
  obtain ⟨old, hold, hmember⟩ := (Option.any_eq_true ..).mp hplayer
  obtain ⟨hrole, halone⟩ := of_decide_eq_true hmember
  obtain ⟨found, hfound, hid⟩ := (Option.any_eq_true ..).mp hteam
  replace hid := of_decide_eq_true hid
  refine ⟨old, found.2, hid, hold, hrole, halone, congrArg _ hfound, ?_, ?_⟩
  · rw [hid]
    decide +kernel
  · rw [hid]
    decide +kernel

/-- No address is left for a player who would become the captain of a team: the call fails, and the
player is a captain all the same. -/
theorem captain_left_behind : ¬∀ (T : CaseTable) (s : MemoryStore) (calls : List MemoryCall)
    (call : MemoryCall), s.Initial → failsUnharmed T (Runs.run (exec T) s calls) call := by
  intro h
  obtain ⟨old, team, hid, hjoins⟩ := joins_vacantTeam
  have hnumbered : (Runs.run (exec .ascii) {} vacantTeam).roster.Numbered :=
    Runs.run_invariant (P := fun s : MemoryStore => s.roster.Numbered) (numbered_initial (.inl rfl))
      fun call _ h => numbered_exec h call
  have haddressed : (Runs.run (exec .ascii) {} vacantTeam).roster.Addressed :=
    Runs.run_invariant (P := fun s : MemoryStore => s.roster.Addressed) addressed_empty
      fun call _ h => addressed_exec .ascii call h
  have hapart : ∀ x ∈ (Runs.run (exec .ascii) {} vacantTeam).players.pairs,
      x.2.player.teamID ≠ 101 := by
    decide +kernel
  obtain ⟨calls, hcame, hpool⟩ := exists_poolExhausted (by decide) hnumbered haddressed
    fun hp => hapart _ (Go.Map.mem_pairs.mpr hp)
  rw [← hid] at hcame
  have hunharmed := h .ascii {} (vacantTeam ++ calls)
    (.joinExistingPlayerTeam 1 vacantTeamKey testKeys) (.inl rfl)
  rw [Runs.run_append] at hunharmed
  exact unharmed_joinExistingPlayerTeam_iff.mp hunharmed
    ⟨⟨old, team, hcame.join hjoins⟩, .inl hpool⟩

end MemoryStore

end ADPlatform.APIGateway
