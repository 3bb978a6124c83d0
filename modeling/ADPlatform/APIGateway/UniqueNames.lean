import ADPlatform.APIGateway.Teams

/-! # Names and addresses that stand for one account

Players log in by their email, and the scoreboard knows teams by their names. Registration, the
profile and the creation of players and teams look for another holder first; the two calls by which
an organizer changes an account do not. -/

namespace ADPlatform.APIGateway
open Text

namespace Roster
variable {T : CaseTable} {r r' : Roster} {p : Int} {record old : AdminPlayerRecord}

/-- No two players have the same email, in whatever case it is written. -/
def UniqueEmails (T : CaseTable) (r : Roster) : Prop :=
  r.players.DistinctBy fun record => record.player.email.map T.fold

/-- The record keeps its email. -/
def SameEmail (old record : AdminPlayerRecord) : Prop := record.player.email = old.player.email

theorem UniqueEmails.changes (h : r.UniqueEmails T) (hr : Changes SameEmail r r') :
    r'.UniqueEmails T := by
  refine Go.Map.DistinctBy.changes h fun p record hp => ?_
  obtain ⟨old, hold, hemail⟩ := hr p record hp
  exact ⟨old, hold, congrArg (String.map T.fold) hemail⟩

theorem UniqueEmails.setPlayer (h : r.UniqueEmails T) (hold : r.players.lookup p = some old)
    (hemail : record.player.email = old.player.email) : (r.setPlayer p record).UniqueEmails T :=
  h.changes (.setPlayer (fun _ => rfl) hold hemail)

/-- Players have gone. -/
theorem UniqueEmails.sub (h : r.UniqueEmails T) {players : Go.Map Int AdminPlayerRecord}
    (hsub : ∀ q record, players.lookup q = some record → r.players.lookup q = some record) :
    { r with players }.UniqueEmails T :=
  h.changes (.of_sub (fun _ => rfl) hsub)

end Roster

/-- No two teams have the same name, and no two the same contact. -/
def TeamTable.UniqueTeams (T : CaseTable) (t : TeamTable) : Prop :=
  t.teams.DistinctBy (fun team => team.name.map T.fold) ∧
    t.teams.DistinctBy fun team => team.contactEmail.map T.fold

namespace MemoryStore
variable {T : CaseTable} {s : MemoryStore}

/-- No two players have the same email, no two teams the same name or contact. -/
def UniqueNames (T : CaseTable) (s : MemoryStore) : Prop :=
  s.roster.UniqueEmails T ∧ s.teamTable.UniqueTeams T

/-- An organizer gives a player no email of another one. -/
def emailAllowed (T : CaseTable) (call : MemoryCall) (s : MemoryStore) : Prop :=
  match call with
  | .updateAdminPlayer p request => (s.players.lookup p).isSome → trimSpace request.email ≠ "" →
    s.emailTaken T (T.toLower (trimSpace request.email)) (some p) = false
  | _ => True

/-- An organizer gives a team no name and no contact of another one. -/
def teamAllowed (T : CaseTable) (call : MemoryCall) (s : MemoryStore) : Prop :=
  match call with
  | .updateAdminTeam id request => (s.teams.lookup id).isSome →
    ∀ other team, other ≠ id → s.teams.lookup other = some team →
      (trimSpace request.name ≠ "" → T.equalFold team.name (trimSpace request.name) = false) ∧
      (trimSpace request.contactEmail ≠ "" →
        T.equalFold team.contactEmail (T.toLower (trimSpace request.contactEmail)) = false)
  | _ => True

/-- The call brings in no email and no team name that is in use. -/
def namesAllowed (T : CaseTable) (call : MemoryCall) (s : MemoryStore) : Prop :=
  emailAllowed T call s ∧ teamAllowed T call s

/-! ## Emails -/

theorem emailTaken_eq_false {email : String} {p : Option Int} : s.emailTaken T email p = false ↔
    ∀ q record, some q ≠ p → s.players.lookup q = some record →
      record.player.email.map T.fold ≠ email.map T.fold := by
  simp only [emailTaken, List.any_eq_false, Prod.forall, Go.Map.mem_pairs, Bool.and_eq_true,
    decide_eq_true_eq, not_and, Bool.not_eq_true, CaseTable.equalFold_eq_false]
  exact forall₂_congr fun q record => forall_comm

/-- A new version of a player has an email of its own exactly if no other player has it. -/
theorem uniqueEmails_setPlayer (h : s.roster.UniqueEmails T) {p : Int}
    {record : AdminPlayerRecord} :
    (s.roster.setPlayer p record).UniqueEmails T ↔
      s.emailTaken T record.player.email (some p) = false := by
  rw [emailTaken_eq_false]
  simp only [ne_eq, Option.some.injEq]
  exact Go.Map.distinctBy_insert h p record

theorem uniqueEmails_add (h : s.roster.UniqueEmails T) {record : AdminPlayerRecord}
    (hfree : s.emailTaken T record.player.email none = false) :
    (s.roster.add record).UniqueEmails T := by
  refine (Go.Map.distinctBy_insert h s.nextPlayerID record).mpr fun q other _ hq => ?_
  exact emailTaken_eq_false.mp hfree q other nofun hq

theorem emailAllowed_of_grants {call : MemoryCall} (h : call.grants = false) :
    emailAllowed T call s := by
  cases call with
  | updateAdminPlayer => cases h
  | _ => trivial

theorem uniqueEmails_step {call : MemoryCall} {r : Roster} (hs : s.roster.UniqueEmails T)
    (h : RosterStep T s call r) : r.UniqueEmails T ↔ emailAllowed T call s := by
  cases h with
  | unchanged h => exact iff_of_true hs (emailAllowed_of_grants h)
  | createRejected | numbered | joinRejected | activateMissing | deactivated | reactivated =>
    exact iff_of_true hs trivial
  | registered hfree record hplayer =>
    refine iff_of_true (uniqueEmails_add hs ?_) trivial
    rw [hplayer]
    exact hfree
  | created _ _ hfree hrecord =>
    refine iff_of_true (uniqueEmails_add hs ?_) trivial
    rw [hrecord.player.2.2.2]
    exact hfree
  | profile hold _ hfree =>
    refine iff_of_true ((uniqueEmails_setPlayer hs).mpr ?_) trivial
    rw [(updatedProfile_player ..).2.2.2.1]
    exact hfree
  | promoted _ hold => exact iff_of_true (hs.setPlayer hold rfl) trivial
  | joined _ hold _ _ _ hissued =>
    obtain ⟨_, _, -, -, rfl⟩ := issuePeer_ok hissued
    exact iff_of_true (hs.setPlayer hold rfl) trivial
  | @transferred p q captain target hcaptain _ _ _ hne htarget =>
    have hq : (s.roster.setPlayer p (captain.withRole .member)).players.lookup q = some target := by
      rw [Roster.lookup_setPlayer, if_neg hne]
      exact htarget
    have hp : (s.roster.setPlayer p (captain.withRole .member)).UniqueEmails T :=
      hs.setPlayer hcaptain rfl
    exact iff_of_true (hp.setPlayer hq rfl) trivial
  | configured hold => exact iff_of_true (hs.setPlayer hold rfl) trivial
  | rotated hold => exact iff_of_true (hs.setPlayer hold rfl) trivial
  | revoked hold record _ hplayer =>
    refine iff_of_true (hs.setPlayer hold ?_) trivial
    rw [hplayer]
  | listed teamName =>
    refine iff_of_true (hs.changes fun p record hp => ?_) trivial
    rw [Go.Map.lookup_mapValues, Option.map_eq_some_iff] at hp
    obtain ⟨old, hold, rfl⟩ := hp
    exact ⟨old, hold, rfl⟩
  | deleted => exact iff_of_true (hs.sub fun _ _ => Go.Map.lookup_of_erase) trivial
  | teamDeleted => exact iff_of_true (hs.sub fun _ _ => Go.Map.lookup_of_filterKeys) trivial
  | demoted hold =>
    exact iff_of_true (hs.changes (.setPlayer (fun _ => rfl) hold rfl)) trivial
  | updateMissing h => exact iff_of_true hs fun hfound => by simp [h] at hfound
  | @updated p request old hold =>
    rw [uniqueEmails_setPlayer hs]
    simp only [emailAllowed, hold, Option.isSome_some, forall_const]
    split
    · rename_i hemail
      simp [hemail]
    · rename_i hemail
      refine iff_of_true ?_ fun hgiven => absurd hgiven hemail
      exact (uniqueEmails_setPlayer hs).mp (hs.setPlayer hold rfl)

/-! ## Teams -/

theorem teamTaken_eq_false {name contact : String} {id : Option Int} :
    s.teamTaken T name contact id = false ↔ ∀ other team, some other ≠ id →
      s.teams.lookup other = some team → team.name.map T.fold ≠ name.map T.fold ∧
        team.contactEmail.map T.fold ≠ contact.map T.fold := by
  simp only [teamTaken, List.any_eq_false, Prod.forall, Go.Map.mem_pairs, Bool.and_eq_true,
    Bool.or_eq_true, decide_eq_true_eq, not_and, not_or, Bool.not_eq_true,
    CaseTable.equalFold_eq_false]
  exact forall₂_congr fun other team => forall_comm

/-- A new version of a team stands alone exactly if no other team has its name or its contact. -/
theorem uniqueTeams_insert {t : TeamTable} (h : t.UniqueTeams T) (id : Int) (team : AdminTeam)
    {deactivated : Go.Map Int Bool} {rows : List ScoreRow} :
    TeamTable.UniqueTeams T ⟨t.teams.insert id team, deactivated, rows⟩ ↔
      ∀ other team', other ≠ id → t.teams.lookup other = some team' →
        team'.name.map T.fold ≠ team.name.map T.fold ∧
          team'.contactEmail.map T.fold ≠ team.contactEmail.map T.fold := by
  rw [TeamTable.UniqueTeams, Go.Map.distinctBy_insert h.1, Go.Map.distinctBy_insert h.2]
  constructor
  · rintro ⟨hname, hcontact⟩ other team' hne hother
    exact ⟨hname other team' hne hother, hcontact other team' hne hother⟩
  · exact fun h => ⟨fun other team' hne hother => (h other team' hne hother).1,
      fun other team' hne hother => (h other team' hne hother).2⟩

/-- The other teams have names and contacts of their own. -/
theorem apart_of_lookup {t : TeamTable} (h : t.UniqueTeams T) {id other : Int}
    {team team' : AdminTeam}
    (hteam : t.teams.lookup id = some team) (hne : other ≠ id)
    (hother : t.teams.lookup other = some team') :
    team'.name.map T.fold ≠ team.name.map T.fold ∧
      team'.contactEmail.map T.fold ≠ team.contactEmail.map T.fold :=
  ⟨fun heq => hne (h.1 other id team' team hother hteam heq),
    fun heq => hne (h.2 other id team' team hother hteam heq)⟩

theorem teamAllowed_of_onTeams {call : MemoryCall} (h : call.onTeams = false) :
    teamAllowed T call s := by
  cases call with
  | updateAdminTeam => cases h
  | _ => trivial

/-- An organizer's update of a team keeps the teams apart exactly if no other one has the new name
or the new contact. -/
theorem uniqueTeams_updated (hs : s.teamTable.UniqueTeams T) {id : Int}
    {request : AdminUpdateTeamRequest} {team updated : AdminTeam}
    (hteam : s.teams.lookup id = some team)
    (hname : updated.name =
      if trimSpace request.name ≠ "" then trimSpace request.name else team.name)
    (hcontact : updated.contactEmail = if trimSpace request.contactEmail ≠ ""
      then T.toLower (trimSpace request.contactEmail) else team.contactEmail) :
    TeamTable.UniqueTeams T { s.teamTable with teams := s.teams.insert id updated } ↔
      teamAllowed T (.updateAdminTeam id request) s := by
  refine (uniqueTeams_insert hs id updated).trans ?_
  simp only [teamAllowed, hteam, Option.isSome_some, forall_const, CaseTable.equalFold_eq_false]
  refine forall₄_congr fun other team' hne hother => ?_
  obtain ⟨hname', hcontact'⟩ := apart_of_lookup hs hteam hne hother
  rw [hname, hcontact]
  refine and_congr ?_ ?_
  · split
    · rename_i hgiven
      exact ⟨fun h _ => h, fun h => h hgiven⟩
    · rename_i hblank
      exact iff_of_true hname' fun hgiven => absurd hgiven hblank
  · split
    · rename_i hgiven
      exact ⟨fun h _ => h, fun h => h hgiven⟩
    · rename_i hblank
      exact iff_of_true hcontact' fun hgiven => absurd hgiven hblank

theorem uniqueTeams_step {call : MemoryCall} {t : TeamTable} (hs : s.teamTable.UniqueTeams T)
    (h : TeamStep T s call t) : t.UniqueTeams T ↔ teamAllowed T call s := by
  cases h with
  | unchanged h => exact iff_of_true hs (teamAllowed_of_onTeams h)
  | createRejected | profileKept | deleteMissing | activeMissing => exact iff_of_true hs trivial
  | @created request input id joinKey h =>
    refine iff_of_true ((uniqueTeams_insert hs _ _).mpr fun other team _ hother => ?_) trivial
    exact teamTaken_eq_false.mp h.free other team nofun hother
  | renamed h =>
    refine iff_of_true ((uniqueTeams_insert hs _ _).mpr fun other team hne hother => ?_) trivial
    exact teamTaken_eq_false.mp h.free other team (by simpa using hne) hother
  | deleted =>
    refine iff_of_true ⟨hs.1.changes fun other team hother => ?_,
      hs.2.changes fun other team hother => ?_⟩ trivial
    · exact ⟨team, Go.Map.lookup_of_erase hother, rfl⟩
    · exact ⟨team, Go.Map.lookup_of_erase hother, rfl⟩
  | updateMissing h => exact iff_of_true hs fun hfound => by simp [h] at hfound
  | updated h => exact uniqueTeams_updated hs h rfl rfl
  | activated h | deactivated h =>
    refine iff_of_true ((uniqueTeams_insert hs _ _).mpr fun other team hne hother => ?_) trivial
    have hapart := apart_of_lookup hs h hne hother
    exact hapart

/-! ## Runs -/

theorem mem_repr {c : Char} {n : Int} (h : c ∈ n.repr.toList) : c.isDigit ∨ c = '-' := by
  by_contra hc
  obtain ⟨hdigit, hsign⟩ := not_or.mp hc
  exact Decimal.not_mem (Bool.eq_false_of_not_eq_true hdigit) hsign n h

theorem toNat_lt_of_mem_repr {c : Char} {n : Int} (h : c ∈ n.repr.toList) : c.toNat < 128 := by
  rcases mem_repr h with hdigit | rfl
  · have := (toNat_of_isDigit hdigit).2
    omega
  · decide

/-- A number has no letters. -/
theorem toLower_ne_of_mem_repr {c : Char} {n : Int} (h : c ∈ n.repr.toList) {letter : Char}
    (hletter : 97 ≤ letter.toNat) : c.toLower ≠ letter := by
  rintro rfl
  rcases mem_repr h with hdigit | rfl
  · have hc := (toNat_of_isDigit hdigit).2
    have hlower : c.toLower = c := by
      refine dif_neg fun hupper => ?_
      have : 65 ≤ c.toNat := UInt32.le_iff_toNat_le.mp hupper.1
      omega
    rw [hlower] at hletter
    omega
  · exact absurd hletter (by decide)

/-- A letter tells two texts apart. -/
theorem apart_of_letter (hT : T.FoldsASCII) {a b : String} (ha : ∀ c ∈ a.toList, c.toNat < 128)
    (hb : ∀ c ∈ b.toList, c.toNat < 128) {letter : Char}
    (hletter : letter ∈ a.toList.map Char.toLower)
    (habsent : ∀ c ∈ b.toList, c.toLower ≠ letter) : a.map T.fold ≠ b.map T.fold := by
  intro heq
  rw [← String.toList_inj, String.toList_map, String.toList_map, hT.map_iff ha hb] at heq
  rw [heq, List.mem_map] at hletter
  obtain ⟨c, hc, hlower⟩ := hletter
  exact habsent c hc hlower

/-- A text with a number in it. -/
theorem forall_mem_numbered {P : Char → Prop} {a b : String} {n : Int} (ha : ∀ c ∈ a.toList, P c)
    (hn : ∀ c ∈ n.repr.toList, P c) (hb : ∀ c ∈ b.toList, P c) :
    ∀ c ∈ (a ++ n.repr ++ b).toList, P c := by
  intro c hc
  rw [String.toList_append, String.toList_append] at hc
  rcases List.mem_append.mp hc with hc | hc
  · exact (List.mem_append.mp hc).elim (ha c) (hn c)
  · exact hb c hc

theorem seedTeams_ascii : ∀ team ∈ seedTeams, (∀ c ∈ team.name.toList, c.toNat < 128) ∧
    ∀ c ∈ team.contactEmail.toList, c.toNat < 128 := by
  have hall : ∀ team ∈ seedTeams, team.name.toList.all (·.toNat < 128) = true ∧
      team.contactEmail.toList.all (·.toNat < 128) = true := by decide
  simpa only [List.all_eq_true, decide_eq_true_eq] using hall

/-- The team of the configuration is told apart from the seeded ones by a letter. -/
theorem configuredTeam_apart (hT : T.FoldsASCII) (n : Int) {team : AdminTeam}
    (h : team ∈ seedTeams) :
    team.name.map T.fold ≠ (configuredTeam n).name.map T.fold ∧
      team.contactEmail.map T.fold ≠ (configuredTeam n).contactEmail.map T.fold := by
  have hletter : ∃ letter : Char, 97 ≤ letter.toNat ∧ letter ∈ team.name.toList.map Char.toLower ∧
      letter ∈ team.contactEmail.toList.map Char.toLower ∧
      letter ∉ "Team ".toList.map Char.toLower ∧ letter ∉ "team-".toList.map Char.toLower ∧
      letter ∉ "@example.com".toList.map Char.toLower := by
    simp only [seedTeams, List.mem_cons, List.not_mem_nil, or_false] at h
    rcases h with rfl | rfl | rfl | rfl
    · exact ⟨'h', by decide⟩
    · exact ⟨'d', by decide⟩
    · exact ⟨'s', by decide⟩
    · exact ⟨'r', by decide⟩
  have hascii := seedTeams_ascii team h
  obtain ⟨letter, hlower, hname, hcontact, hteam, hmail, hexample⟩ := hletter
  have hnumber : ∀ c ∈ n.repr.toList, c.toLower ≠ letter := fun c hc =>
    toLower_ne_of_mem_repr hc hlower
  have hnone {text : String} (h : letter ∉ text.toList.map Char.toLower) :
      ∀ c ∈ text.toList, c.toLower ≠ letter := fun c hc heq => h (heq ▸ List.mem_map_of_mem hc)
  have hplain {text : String} (h : text.toList.all (·.toNat < 128) = true) :
      ∀ c ∈ text.toList, c.toNat < 128 := by
    simpa only [List.all_eq_true, decide_eq_true_eq] using h
  have hword : (configuredTeam n).name = "Team " ++ n.repr ++ "" := String.append_empty.symm
  refine ⟨apart_of_letter hT hascii.1 ?_ hname ?_, apart_of_letter hT hascii.2 ?_ hcontact ?_⟩
  · rw [hword]
    exact forall_mem_numbered (hplain (by decide)) (fun _ =>
      toNat_lt_of_mem_repr) (hplain (by decide))
  · rw [hword]
    exact forall_mem_numbered (hnone hteam) hnumber (by simp)
  · exact forall_mem_numbered (hplain (by decide)) (fun _ =>
      toNat_lt_of_mem_repr) (hplain (by decide))
  · exact forall_mem_numbered (hnone hmail) hnumber (hnone hexample)

/-- The first teams have names and contacts of their own. -/
theorem firstTeams_apart (hT : T.FoldsASCII) {n : Int} {a b : AdminTeam} (ha : a ∈ firstTeams n)
    (hb : b ∈ firstTeams n) (heq : a.name.map T.fold = b.name.map T.fold ∨
      a.contactEmail.map T.fold = b.contactEmail.map T.fold) : a.id = b.id := by
  have hseeds : ∀ a ∈ seedTeams, ∀ b ∈ seedTeams,
      a.name.toList.map Char.toLower = b.name.toList.map Char.toLower ∨
        a.contactEmail.toList.map Char.toLower = b.contactEmail.toList.map Char.toLower →
      a.id = b.id := by
    decide
  have hmem : ∀ {team}, team ∈ firstTeams n → team ∈ seedTeams ∨ team = configuredTeam n := by
    intro team h
    unfold firstTeams at h
    split at h
    · exact .inl h
    · simpa using h
  rcases hmem ha with ha | rfl
  · rcases hmem hb with hb | rfl
    · have hascii := seedTeams_ascii a ha
      have hascii' := seedTeams_ascii b hb
      simp only [← String.toList_inj, String.toList_map, hT.map_iff hascii.1 hascii'.1,
        hT.map_iff hascii.2 hascii'.2] at heq
      exact hseeds a ha b hb heq
    · have hapart := configuredTeam_apart hT n ha
      exact absurd heq (not_or.mpr hapart)
  · rcases hmem hb with hb | rfl
    · have hapart := configuredTeam_apart hT n hb
      exact absurd heq (not_or.mpr ⟨hapart.1.symm, hapart.2.symm⟩)
    · rfl

theorem uniqueNames_initial (hT : T.FoldsASCII) (h : s.Initial) : s.UniqueNames T := by
  rcases h with rfl | ⟨n, now, input, h⟩
  · exact ⟨Go.Map.distinctBy_empty, Go.Map.distinctBy_empty, Go.Map.distinctBy_empty⟩
  have hemails : ∀ a ∈ seedAccounts, ∀ b ∈ seedAccounts,
      a.2.2.toList.map Char.toLower = b.2.2.toList.map Char.toLower → a.1 = b.1 := by
    decide
  have hall : ∀ a ∈ seedAccounts, a.2.2.toList.all (·.toNat < 128) = true := by decide
  have hascii : ∀ a ∈ seedAccounts, ∀ c ∈ a.2.2.toList, c.toNat < 128 := by
    simpa only [List.all_eq_true, decide_eq_true_eq] using hall
  have hteams : ∀ {id team}, s.teams.lookup id = some team →
      team ∈ firstTeams n ∧ team.id = id := by
    obtain ⟨players, -, h⟩ := exists_of_bind_eq_ok h
    cases h
    intro id team hteam
    rcases Go.Map.exists_of_lookup_fill hteam with ⟨team, hmem, rfl, rfl⟩ | hnone
    · exact ⟨hmem, rfl⟩
    · cases hnone
  refine ⟨fun p q a b hp hq heq => ?_, fun id id' a b ha hb heq =>
    ?_, fun id id' a b ha hb heq => ?_⟩
  · obtain ⟨ha, rfl⟩ := seeded_newMemoryStore h hp
    obtain ⟨hb, rfl⟩ := seeded_newMemoryStore h hq
    rw [← String.toList_inj, String.toList_map, String.toList_map,
      hT.map_iff (hascii _ ha.account) (hascii _ hb.account)] at heq
    exact hemails _ ha.account _ hb.account heq
  · obtain ⟨hmem, rfl⟩ := hteams ha
    obtain ⟨hmem', rfl⟩ := hteams hb
    exact firstTeams_apart hT hmem hmem' (.inl heq)
  · obtain ⟨hmem, rfl⟩ := hteams ha
    obtain ⟨hmem', rfl⟩ := hteams hb
    exact firstTeams_apart hT hmem hmem' (.inr heq)

/-- In a run of calls on a new store, no two players share an email and no two teams a name or a
contact in every state reached, exactly if no organizer's update gives an account what another one
has. -/
theorem unique_names_iff (hT : T.FoldsASCII) (hs : s.Initial) (calls : List MemoryCall) :
    Runs.Always (exec T) (UniqueNames T) s calls ↔
      Runs.EachCall (exec T) (namesAllowed T) s calls :=
  Runs.always_iff_eachCall (I := fun _ => True) trivial (uniqueNames_initial hT hs)
    (fun _ _ _ => trivial)
    fun call s _ h => and_congr (uniqueEmails_step h.1 (rosterStep_exec T call s))
      (uniqueTeams_step h.2 (teamStep_exec T call s))

/-- Two players register. -/
def registrations : List MemoryCall :=
  [.registerPlayer { displayName := "Ann", email := "ann@example.com",
                     password := "longpassword" } 0,
   .registerPlayer { displayName := "Bob", email := "bob@example.com",
                     password := "longpassword" } 0]

theorem unique_names_iff_registrations :
    ((Runs.run (exec .ascii) {} registrations).players.pairs.map fun x => x.2.player.email) =
      ["bob@example.com", "ann@example.com"] ∧
    Runs.Always (exec .ascii) (UniqueNames .ascii) {} registrations := by
  refine ⟨by decide +kernel, (unique_names_iff (fun _ _ _ _ => Iff.rfl) (.inl rfl) _).mpr ?_⟩
  exact Runs.eachCall_cons.mpr ⟨⟨trivial, trivial⟩,
    Runs.eachCall_cons.mpr ⟨⟨trivial, trivial⟩, Runs.eachCall_nil⟩⟩

/-- An organizer gives the second player the email of the first. -/
def sharedEmail : List MemoryCall :=
  registrations ++ [.updateAdminPlayer 2 { email := "ANN@example.com", role := "member" }]

theorem shared_email : ¬ ∀ (T : CaseTable) (s : MemoryStore) (calls : List MemoryCall),
    T.FoldsASCII → s.Initial → Runs.Always (exec T) (UniqueNames T) s calls := by
  intro h
  have hunique := (h .ascii {} sharedEmail (fun _ _ _ _ => Iff.rfl) (.inl rfl)).last
  have hemails : ∀ p ∈ [(1 : Int), 2],
      (((Runs.run (exec .ascii) {} sharedEmail).players.lookup p).map (·.player.email)) =
        some "ann@example.com" := by
    decide +kernel
  obtain ⟨a, ha, hemail⟩ := Option.map_eq_some_iff.mp (hemails 1 (by decide))
  obtain ⟨b, hb, hemail'⟩ := Option.map_eq_some_iff.mp (hemails 2 (by decide))
  have hsame := hunique.1 1 2 a b ha hb (by simp only [hemail, hemail'])
  exact absurd hsame (by decide)

end MemoryStore

end ADPlatform.APIGateway
