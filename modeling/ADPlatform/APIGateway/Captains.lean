import ADPlatform.APIGateway.Roster

/-! # The captain of a team

Joining, creating and reactivating a player each look for an active captain first. Which calls do
not is said by `captainAllowed`: a team has at most one active captain in every state of a run
exactly if all calls of the run are allowed. -/

namespace ADPlatform.APIGateway
open Text

namespace Roster
variable {r r' : Roster} {p q : Int} {record old : AdminPlayerRecord}

/-- The player is an active captain. -/
def Captain (r : Roster) (p : Int) (record : AdminPlayerRecord) : Prop :=
  r.players.lookup p = some record ∧ record.player.role = .captain ∧ r.active p = true

/-- No two active captains are in one team; a team id that is not positive stands for no team. -/
def OneCaptain (r : Roster) : Prop :=
  ∀ p q captain other, r.Captain p captain → r.Captain q other → 0 < captain.player.teamID →
    other.player.teamID = captain.player.teamID → p = q

/-- A team has an active captain other than this player. -/
def HasOther (r : Roster) (p teamID : Int) : Prop :=
  ∃ q other, q ≠ p ∧ r.Captain q other ∧ other.player.teamID = teamID

/-- The id, the team and the role are as they were. -/
def SameRole (old record : AdminPlayerRecord) : Prop :=
  record.player.teamID = old.player.teamID ∧ record.player.role = old.player.role

theorem SameRole.refl (record : AdminPlayerRecord) : SameRole record record := ⟨rfl, rfl⟩

theorem OneCaptain.changes (h : r.OneCaptain) (hr : Changes SameRole r r')
    (hactive : ∀ p, r'.active p = true → r.active p = true) : r'.OneCaptain := by
  have hcaptain : ∀ {p record}, r'.Captain p record →
      ∃ old, r.Captain p old ∧ record.player.teamID = old.player.teamID := by
    rintro p record ⟨hp, hrole, hp'⟩
    obtain ⟨old, hold, hteam, hrole'⟩ := hr _ _ hp
    exact ⟨old, ⟨hold, hrole' ▸ hrole, hactive p hp'⟩, hteam⟩
  intro p q captain other hp hq hteam hsame
  obtain ⟨captain', hp, hteam₁⟩ := hcaptain hp
  obtain ⟨other', hq, hteam₂⟩ := hcaptain hq
  exact h p q captain' other' hp hq (hteam₁ ▸ hteam) (by rw [← hteam₁, ← hteam₂, hsame])

theorem captain_setPlayer_of_ne (hne : q ≠ p) :
    (r.setPlayer p record).Captain q old ↔ r.Captain q old := by
  rw [Captain, Captain, lookup_setPlayer, if_neg hne]
  rfl

theorem captain_setPlayer_self :
    (r.setPlayer p record).Captain p old ↔
      old = record ∧ record.player.role = .captain ∧ r.active p = true := by
  rw [Captain, lookup_setPlayer, if_pos rfl]
  constructor
  · rintro ⟨h, hrole, hactive⟩
    cases h
    exact ⟨rfl, hrole, hactive⟩
  · rintro ⟨rfl, hrole, hactive⟩
    exact ⟨rfl, hrole, hactive⟩

/-- A new version of a player makes no second captain exactly if it is none, or there is no
other. -/
theorem oneCaptain_setPlayer (h : r.OneCaptain) : (r.setPlayer p record).OneCaptain ↔
    (record.player.role = .captain → r.active p = true → 0 < record.player.teamID →
      ¬ r.HasOther p record.player.teamID) := by
  constructor
  · rintro hone hrole hactive hteam ⟨q, other, hne, hq, hsame⟩
    have hp : (r.setPlayer p record).Captain p record :=
      captain_setPlayer_self.mpr ⟨rfl, hrole, hactive⟩
    exact hne (hone p q record other hp ((captain_setPlayer_of_ne hne).mpr hq) hteam hsame).symm
  · intro hother p₁ p₂ captain other h₁ h₂ hteam hsame
    by_cases hp₁ : p₁ = p
    · by_cases hp₂ : p₂ = p
      · rw [hp₁, hp₂]
      · rw [hp₁] at h₁
        obtain ⟨rfl, hrole, hactive⟩ := captain_setPlayer_self.mp h₁
        exact absurd ⟨p₂, other, hp₂, (captain_setPlayer_of_ne hp₂).mp h₂, hsame⟩
          (hother hrole hactive hteam)
    · have hold := (captain_setPlayer_of_ne hp₁).mp h₁
      by_cases hp₂ : p₂ = p
      · rw [hp₂] at h₂
        obtain ⟨rfl, hrole, hactive⟩ := captain_setPlayer_self.mp h₂
        exact absurd ⟨p₁, captain, hp₁, hold, hsame.symm⟩ (hother hrole hactive (hsame ▸ hteam))
      · exact h p₁ p₂ captain other hold ((captain_setPlayer_of_ne hp₂).mp h₂) hteam hsame

theorem oneCaptain_add (hr : r.Numbered) (h : r.OneCaptain) : (r.add record).OneCaptain ↔
    (record.player.role = .captain → 0 < record.player.teamID →
      ¬ r.HasOther r.nextID record.player.teamID) := by
  have hadd : (r.add record).OneCaptain ↔ (r.setPlayer r.nextID record).OneCaptain := Iff.rfl
  rw [hadd, oneCaptain_setPlayer h]
  constructor
  · exact fun h hrole => h hrole hr.active_next
  · exact fun h hrole _ => h hrole

end Roster

namespace MemoryStore
variable {T : CaseTable} {s : MemoryStore} {p : Int} {record : AdminPlayerRecord}

theorem teamHasOtherActiveCaptain_iff (hs : s.roster.Numbered) {teamID : Int} :
    s.teamHasOtherActiveCaptain teamID p = true ↔ 0 < teamID ∧ s.roster.HasOther p teamID := by
  simp only [teamHasOtherActiveCaptain, Bool.and_eq_true, decide_eq_true_eq, List.any_eq_true,
    Prod.exists, Go.Map.mem_pairs, gt_iff_lt]
  refine and_congr_right fun _ => ⟨?_, ?_⟩
  · rintro ⟨q, other, hq, ⟨⟨hne, hteam⟩, hactive⟩, hrole⟩
    rw [hs.id_eq hq] at hne hactive
    exact ⟨q, other, hne, ⟨hq, hrole, hactive⟩, hteam⟩
  · rintro ⟨q, other, hne, ⟨hq, hrole, hactive⟩, hteam⟩
    have hid : other.player.id = q := hs.id_eq hq
    refine ⟨q, other, hq, ⟨⟨?_, hteam⟩, ?_⟩, hrole⟩
    · rwa [hid]
    · rw [hid]
      exact hactive

theorem teamHasOtherActiveCaptain_eq_false (hs : s.roster.Numbered) {teamID : Int} :
    s.teamHasOtherActiveCaptain teamID p = false ↔ (0 < teamID → ¬ s.roster.HasOther p teamID) := by
  rw [← Bool.not_eq_true, teamHasOtherActiveCaptain_iff hs, not_and]

/-- Excluding an id that no member of the team has excludes nobody. -/
theorem hasOther_of_absent {q teamID : Int}
    (hq : ∀ record, s.players.lookup q = some record → record.player.teamID ≠ teamID)
    (h : s.roster.HasOther p teamID) : s.roster.HasOther q teamID := by
  obtain ⟨q', other, -, hcaptain, hteam⟩ := h
  refine ⟨q', other, ?_, hcaptain, hteam⟩
  rintro rfl
  exact hq other hcaptain.1 hteam

theorem teamHasActiveCaptain_eq_false (hs : s.roster.Numbered) (teamID : Int)
    (hp : ∀ record, s.players.lookup p = some record → record.player.teamID ≤ 0) :
    s.teamHasActiveCaptain teamID = false ↔ (0 < teamID → ¬ s.roster.HasOther p teamID) := by
  rw [teamHasActiveCaptain, teamHasOtherActiveCaptain_eq_false hs]
  refine forall_congr' fun hteam => not_congr ⟨hasOther_of_absent ?_, hasOther_of_absent ?_⟩
  · intro record hrecord heq
    have := hp record hrecord
    omega
  · intro record hrecord
    exact absurd (hs.below hrecord).1 (by decide)

/-- The calls that leave a team with one captain. -/
def captainAllowed (T : CaseTable) (call : MemoryCall) (s : MemoryStore) : Prop :=
  match call with
  | .createAdminPlayer request input => (s.createAdminPlayer T request input).failed = false →
    normalizedRole request.role = .captain → s.teamHasActiveCaptain request.teamID = false
  | .joinExistingPlayerTeam p teamKey input =>
    (s.joinExistingPlayerTeam T p teamKey input).failed = false → s.playerDeactivated p = false →
      ∀ record, s.players.lookup p = some record → record.player.role = .captain →
        ∀ found, s.joinedTeam T input.rt teamKey = some found →
          s.teamHasActiveCaptain found.2.id = false
  | .updateAdminPlayer p request => normalizedRole request.role = .captain →
    s.playerDeactivated p = false → ∀ record, s.players.lookup p = some record →
      s.teamHasOtherActiveCaptain record.player.teamID p = false
  | _ => True

theorem captainAllowed_of_grants {call : MemoryCall} (h : call.grants = false) :
    captainAllowed T call s := by
  cases call <;> trivial

theorem sameRole_updatedProfile (s : MemoryStore) (displayName email : String)
    (record : AdminPlayerRecord) :
    Roster.SameRole record (s.updatedProfile displayName email record) :=
  let h := s.updatedProfile_player displayName email record
  ⟨h.2.1, h.2.2.1⟩

/-- A player who is created as a captain must find none. -/
theorem captain_created (hs : s.roster.Numbered) (hone : s.roster.OneCaptain)
    {request : AdminCreatePlayerRequest} {input : WireGuardInput}
    (h : (s.createAdminPlayer T request input).failed = false)
    (hrecord : s.Created T request input record) :
    (s.roster.add record).OneCaptain ↔
      captainAllowed T (.createAdminPlayer request input) s := by
  obtain ⟨-, hteam, hrole, -⟩ := hrecord.player
  have hother := teamHasActiveCaptain_eq_false hs request.teamID
    fun _ hnext => absurd (hs.below hnext).2 (lt_irrefl _)
  rw [Roster.oneCaptain_add hs hone, hrole, hteam]
  simp only [captainAllowed, h, forall_const]
  constructor
  · intro hcreated hasked
    refine hother.mpr (hcreated ?_)
    simp only [createdPlayer, hasked, reduceCtorEq, false_and, and_false, if_false]
  · intro hallowed hcaptain
    simp only [createdPlayer] at hcaptain
    split at hcaptain
    · rename_i hpromoted
      exact hother.mp (by simpa using hpromoted.2.2)
    · exact hother.mp (hallowed hcaptain)

/-- A player who is a captain already must find none in the team. -/
theorem captain_joined (hs : s.roster.Numbered) (hone : s.roster.OneCaptain) {teamKey : String}
    {input : WireGuardInput} {old : AdminPlayerRecord} {id : Int} {team : AdminTeam}
    (h : (s.joinExistingPlayerTeam T p teamKey input).failed = false)
    (hold : s.players.lookup p = some old) (hteam : old.player.teamID ≤ 0)
    (hfound : s.joinedTeam T input.rt teamKey = some (id, team))
    (hissued : s.issuePeer input p ((s.promoted team old).ofTeam team p) = .ok record) :
    (s.roster.setPlayer p record).OneCaptain ↔
      captainAllowed T (.joinExistingPlayerTeam p teamKey input) s := by
  have hother := teamHasActiveCaptain_eq_false hs team.id fun record hrecord => by
    rw [hold] at hrecord
    cases hrecord
    exact hteam
  obtain ⟨_, _, -, -, rfl⟩ := issuePeer_ok hissued
  rw [Roster.oneCaptain_setPlayer hone, active_roster]
  have hallowed : captainAllowed T (.joinExistingPlayerTeam p teamKey input) s ↔
      (s.playerDeactivated p = false → old.player.role = .captain →
        s.teamHasActiveCaptain team.id = false) := by
    simp only [captainAllowed, h, hold, hfound, forall_const, Option.some.injEq, forall_eq']
  rw [hallowed]
  constructor
  · intro hjoined hactive hcaptain
    refine hother.mpr (hjoined ?_ hactive)
    simp [AdminPlayerRecord.setPeer, AdminPlayerRecord.ofTeam, promoted, hcaptain]
  · intro hallowed hcaptain hactive
    simp only [AdminPlayerRecord.setPeer, AdminPlayerRecord.ofTeam, promoted] at hcaptain
    split at hcaptain
    · exact hother.mp (hallowed hactive hcaptain)
    · rename_i hnone
      exact hother.mp (Bool.eq_false_of_not_eq_true hnone)

/-- The role goes from one player of a team to another. -/
theorem captain_transferred (hone : s.roster.OneCaptain) {q : Int}
    {captain target : AdminPlayerRecord}
    (hcaptain : s.players.lookup p = some captain) (hrole : captain.player.role = .captain)
    (hteam : captain.player.teamID > 0) (hactive : s.playerDeactivated p = false)
    (hsame : target.player.teamID = captain.player.teamID) :
    ((s.roster.setPlayer p (captain.withRole .member)).setPlayer q
      (target.withRole .captain)).OneCaptain := by
  have hmember : (s.roster.setPlayer p (captain.withRole .member)).OneCaptain :=
    (Roster.oneCaptain_setPlayer hone).mpr nofun
  rw [Roster.oneCaptain_setPlayer hmember]
  rintro - - - ⟨q', other, -, hother, hteam'⟩
  by_cases hp : q' = p
  · rw [hp] at hother
    exact absurd (Roster.captain_setPlayer_self.mp hother).2.1 nofun
  · have hother := (Roster.captain_setPlayer_of_ne hp).mp hother
    have hcaptain : s.roster.Captain p captain := ⟨hcaptain, hrole, active_roster.mpr hactive⟩
    exact hp (hone p q' captain other hcaptain hother hteam (hteam'.trans hsame)).symm

/-- A captain comes back to a team without another one. -/
theorem captain_reactivated (hs : s.roster.Numbered) (hone : s.roster.OneCaptain)
    {old : AdminPlayerRecord} (hold : s.players.lookup p = some old)
    (h : ¬ s.Superseded p old.player) :
    Roster.OneCaptain { s.roster with deactivated := s.deactivatedPlayers.erase p } := by
  let back : MemoryStore := { s with deactivatedPlayers := s.deactivatedPlayers.erase p }
  have hback : back.roster.Numbered := 
    hs.changes (.of_sub (fun _ => rfl) fun _ _ h => h) (hs.deactivated_erase p) rfl
  -- besides the player who comes back, the captains are the same
  have hcaptain : ∀ {q record}, q ≠ p → back.roster.Captain q record →
      s.roster.Captain q record := by
    rintro q record hne ⟨hq, hrole, hactive⟩
    refine ⟨hq, hrole, ?_⟩
    simpa [Roster.active, back, roster, Go.Map.get_erase, hne] using hactive
  have hself : ∀ {q record other}, q ≠ p → back.roster.Captain p record →
    back.roster.Captain q other →
      0 < record.player.teamID → other.player.teamID ≠ record.player.teamID := by
    rintro q record other hne ⟨hp, hrole, -⟩ hother hteam hsame
    obtain rfl : old = record := Option.some.inj (hold.symm.trans hp)
    exact h ⟨hrole, hteam,
      (teamHasOtherActiveCaptain_iff hback).mpr ⟨hteam, q, other, hne, hother, hsame⟩⟩
  intro p₁ p₂ captain other h₁ h₂ hteam hsame
  by_cases hp₁ : p₁ = p
  · by_cases hp₂ : p₂ = p
    · rw [hp₁, hp₂]
    · rw [hp₁] at h₁
      exact absurd hsame (hself hp₂ h₁ h₂ hteam)
  · by_cases hp₂ : p₂ = p
    · rw [hp₂] at h₂
      exact absurd hsame.symm (hself hp₁ h₂ h₁ (hsame ▸ hteam))
    · exact hone p₁ p₂ captain other (hcaptain hp₁ h₁) (hcaptain hp₂ h₂) hteam hsame

theorem captain_step {call : MemoryCall} {r : Roster} (hs : s.roster.Numbered)
    (hone : s.roster.OneCaptain) (h : RosterStep T s call r) :
    r.OneCaptain ↔ captainAllowed T call s := by
  cases h with
  | unchanged h => exact iff_of_true hone (captainAllowed_of_grants h)
  | createRejected h | numbered h =>
    exact iff_of_true hone fun hok => absurd h (by rw [hok]; nofun)
  | joinRejected h => exact iff_of_true hone fun hok => absurd h (by rw [hok]; nofun)
  | registered _ record hplayer =>
    refine iff_of_true ((Roster.oneCaptain_add hs hone).mpr fun hrole => ?_) trivial
    rw [hplayer] at hrole
    cases hrole
  | profile hold =>
    exact iff_of_true (hone.changes (.setPlayer Roster.SameRole.refl hold
      (sameRole_updatedProfile ..)) fun _ h => h) trivial
  | created h _ _ hrecord => exact captain_created hs hone h hrecord
  | promoted h hold hteam =>
    refine iff_of_true ((Roster.oneCaptain_setPlayer hone).mpr fun _ _ hpos => ?_) fun hok =>
      absurd h (by rw [hok]; nofun)
    exact absurd hpos (not_lt.mpr hteam)
  | joined h hold hteam _ hfound hissued =>
    exact captain_joined hs hone h hold hteam hfound hissued
  | transferred hcaptain hrole hteam hactive _ _ hsame =>
    exact iff_of_true (captain_transferred hone hcaptain hrole hteam hactive hsame) trivial
  | configured hold =>
    exact iff_of_true (hone.changes (.setPlayer Roster.SameRole.refl hold ⟨rfl, rfl⟩) fun _ h => h)
      trivial
  | rotated hold =>
    exact iff_of_true (hone.changes (.setPlayer Roster.SameRole.refl hold ⟨rfl, rfl⟩) fun _ h => h)
      trivial
  | @revoked p now old hold record _ hplayer =>
    have hsame : Roster.SameRole old record := by
      rw [Roster.SameRole, hplayer]
      exact ⟨rfl, rfl⟩
    exact iff_of_true
      (hone.changes (.setPlayer Roster.SameRole.refl hold hsame) fun _ h => h) trivial
  | listed teamName =>
    refine iff_of_true (hone.changes (fun p record hp => ?_) fun _ h => h) trivial
    rw [Go.Map.lookup_mapValues, Option.map_eq_some_iff] at hp
    obtain ⟨old, hold, rfl⟩ := hp
    exact ⟨old, hold, rfl, rfl⟩
  | deleted =>
    exact iff_of_true (hone.changes (.of_sub Roster.SameRole.refl fun _ _ => Go.Map.lookup_of_erase)
      fun _ h => h) trivial
  | teamDeleted =>
    exact iff_of_true (hone.changes
      (.of_sub Roster.SameRole.refl fun _ _ => Go.Map.lookup_of_filterKeys) fun _ h => h) trivial
  | updateMissing h =>
    refine iff_of_true hone fun _ _ record hrecord => ?_
    rw [h] at hrecord
    cases hrecord
  | @updated p request old hold =>
    rw [Roster.oneCaptain_setPlayer hone]
    simp only [captainAllowed, hold, Option.some.injEq, forall_eq',
      teamHasOtherActiveCaptain_eq_false hs]
    exact forall_congr' fun _ => imp_congr_left active_roster
  | activateMissing => exact iff_of_true hone trivial
  | deactivated =>
    refine iff_of_true (hone.changes (.of_sub Roster.SameRole.refl fun _ _ h => h) fun q hq => ?_)
      trivial
    simp only [Roster.active, Go.Map.get_insert] at hq
    split at hq
    · cases hq
    · exact hq
  | reactivated hold h => exact iff_of_true (captain_reactivated hs hone hold h) trivial
  | @demoted p old =>
    refine iff_of_true (fun p₁ p₂ captain other h₁ h₂ => ?_) trivial
    have hcaptain : ∀ {q record}, Roster.Captain (Roster.setPlayer { s.roster with
        deactivated := s.deactivatedPlayers.erase p } p (old.withRole .member)) q record →
        s.roster.Captain q record := by
      intro q record hq
      by_cases hne : q = p
      · rw [hne] at hq
        cases (Roster.captain_setPlayer_self.mp hq).2.1
      · obtain ⟨hlookup, hrole, hactive⟩ := (Roster.captain_setPlayer_of_ne hne).mp hq
        refine ⟨hlookup, hrole, ?_⟩
        simpa [Roster.active, roster, Go.Map.get_erase, hne] using hactive
    exact hone p₁ p₂ captain other (hcaptain h₁) (hcaptain h₂)

theorem oneCaptain_initial (h : s.Initial) : s.roster.OneCaptain := by
  rcases h with rfl | ⟨teamID, now, input, h⟩
  · exact fun _ _ _ _ hp => nomatch hp.1
  have hteams : ∀ a ∈ seedAccounts, ∀ b ∈ seedAccounts, b.2.1 = a.2.1 → a.1 = b.1 := by decide
  intro p q captain other hp hq _ hsame
  obtain ⟨hcaptain, rfl⟩ := seeded_newMemoryStore h hp.1
  obtain ⟨hother, rfl⟩ := seeded_newMemoryStore h hq.1
  exact hteams _ hcaptain.account _ hother.account hsame

/-- A team gets a captain and a member. -/
def foundedTeam : List MemoryCall :=
  [.createAdminTeam { name := "Blue", contactEmail := "blue@example.com" } {},
   .createAdminPlayer { teamID := 101, displayName := "Ann", email := "ann@example.com"
                        password := "longpassword", role := "captain" } testKeys,
   .createAdminPlayer { teamID := 101, displayName := "Bob", email := "bob@example.com"
                        password := "longpassword", role := "member" } testKeys]

/-- An organizer makes the second player of the team its captain, too. -/
def secondCaptain : List MemoryCall := foundedTeam ++ [.updateAdminPlayer 2 { role := "captain" }]

end MemoryStore

end ADPlatform.APIGateway
