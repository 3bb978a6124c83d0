import ADPlatform.APIGateway.BulkImport
import ADPlatform.APIGateway.Roster

/-! # The limit on members

Players, active or not, count towards the limit of their team. An organizer's call and a player's
check the limit before they add a member, and no other call gives a player another team. A team
whose id is not positive has no limit: there the store takes the id for "no team". -/

namespace ADPlatform.APIGateway
open GameCore (Time Stamp)
open Text

namespace Roster
variable {r r' : Roster} {p t : Int} {record old : AdminPlayerRecord}

/-- How many players have the team. -/
def members (r : Roster) (t : Int) : Nat := r.players.count fun _ record => record.player.teamID = t

theorem mem_members {p : Int} : p ∈ r.players.keysWith (fun _ record => record.player.teamID = t) ↔
    ∃ record, r.players.lookup p = some record ∧ record.player.teamID = t := by
  rw [Go.Map.mem_keysWith]
  simp only [decide_eq_true_eq]

/-- Nobody has come to the team. -/
theorem members_le (h : Changes (fun old record => record.player.teamID = old.player.teamID) r r') :
    r'.members t ≤ r.members t := by
  refine Go.Map.count_le_count fun p hp => ?_
  obtain ⟨record, hrecord, hteam⟩ := mem_members.mp hp
  obtain ⟨old, hold, hsame⟩ := h p record hrecord
  exact mem_members.mpr ⟨old, hold, hsame ▸ hteam⟩

theorem members_of_sub (h : ∀ q record, r'.players.lookup q = some record →
    r.players.lookup q = some record) : r'.members t ≤ r.members t :=
  members_le (.of_sub (fun _ => rfl) h)

theorem members_setPlayer_same (hold : r.players.lookup p = some old)
    (hteam : record.player.teamID = old.player.teamID) :
    (r.setPlayer p record).members t ≤ r.members t :=
  members_le (.setPlayer (fun _ => rfl) hold hteam)

theorem members_setPlayer_other (h : record.player.teamID ≠ t) :
    (r.setPlayer p record).members t ≤ r.members t := by
  refine Go.Map.count_le_count fun q hq => ?_
  obtain ⟨other, hother, hteam⟩ := mem_members.mp hq
  rw [lookup_setPlayer] at hother
  split at hother
  · cases hother
    exact absurd hteam h
  · exact mem_members.mpr ⟨other, hother, hteam⟩

/-- One more member at most. -/
theorem members_setPlayer : (r.setPlayer p record).members t ≤ r.members t + 1 := by
  have hlength : (p :: r.players.keysWith fun _ record => record.player.teamID = t).length =
      r.members t + 1 := by
    rw [List.length_cons, Go.Map.length_keysWith]
    rfl
  rw [← hlength]
  refine Go.Map.count_le_length fun q hq => ?_
  obtain ⟨other, hother, hteam⟩ := mem_members.mp hq
  rw [lookup_setPlayer] at hother
  split at hother
  · rename_i heq
    exact heq ▸ List.mem_cons_self
  · exact List.mem_cons_of_mem _ (mem_members.mpr ⟨other, hother, hteam⟩)

end Roster

namespace MemoryStore
variable {T : CaseTable} {s : MemoryStore} {limit t : Int}

theorem members_roster : s.roster.members t = s.playerCountForTeam t := rfl

/-- No team has more members than the limit. -/
def WithinLimit (limit : Int) (s : MemoryStore) : Prop := ∀ t > 0, s.playerCountForTeam t ≤ limit

/-- A team that has not reached its limit has room for one more. -/
theorem lt_limit (hlimit : 0 < limit) (hfixed : s.platformSettings.maxTeamMembers = limit)
    (ht : 0 < t) (h : s.teamMemberLimitReached t = false) :
      (s.playerCountForTeam t : Int) < limit := by
  simp only [teamMemberLimitReached, hfixed, not_le.mpr ht, not_le.mpr hlimit, or_self, if_false,
    decide_eq_false_iff_not, not_le, ge_iff_le] at h
  exact h

theorem createAdminPlayer_room {request : AdminCreatePlayerRequest} {input : WireGuardInput}
    (h : (s.createAdminPlayer T request input).failed = false) (hteam : request.teamID ≠ 0) :
    s.teamMemberLimitReached request.teamID = false := by
  unfold createAdminPlayer at h
  split at h
  · cases h
  split at h
  · cases h
  split at h
  · cases h
  rename_i hroom
  exact Bool.eq_false_of_not_eq_true fun hreached => hroom ⟨hteam, hreached⟩

theorem joinExistingPlayerTeam_room {p id : Int} {teamKey : String} {input : WireGuardInput}
    {team : AdminTeam} (h : (s.joinExistingPlayerTeam T p teamKey input).failed = false)
    (hfound : s.joinedTeam T input.rt teamKey = some (id, team)) :
    s.teamMemberLimitReached team.id = false := by
  unfold joinExistingPlayerTeam at h
  split at h
  · cases h
  split at h
  · cases h
  split at h
  · cases h
  rename_i hfound'
  cases hfound'.symm.trans hfound
  split at h
  · cases h
  · rename_i hroom
    exact Bool.eq_false_of_not_eq_true hroom

theorem members_step {call : MemoryCall} {r : Roster} (hlimit : 0 < limit)
    (hfixed : s.platformSettings.maxTeamMembers = limit) (hs : s.WithinLimit limit)
    (h : RosterStep T s call r) (ht : t > 0) : (r.members t : Int) ≤ limit := by
  have hkeep {n : Nat} (hle : n ≤ s.roster.members t) : (n : Int) ≤ limit :=
    (Int.ofNat_le.mpr hle).trans (hs t ht)
  -- a member more than before is one more, and there was room for it
  have hroom {n : Nat} (hle : n ≤ s.roster.members t + 1)
      (hreached : s.teamMemberLimitReached t = false) : (n : Int) ≤ limit := by
    have hlt := lt_limit hlimit hfixed ht hreached
    rw [members_roster] at hle
    omega
  cases h with
  | unchanged | createRejected | joinRejected | updateMissing | activateMissing => exact hs t ht
  | numbered | deactivated | reactivated => exact hs t ht
  | registered _ record hplayer =>
    refine hkeep (Roster.members_setPlayer_other ?_)
    rw [hplayer]
    exact ht.ne
  | @created request input record h _ _ hrecord =>
    have hteam := hrecord.player.2.1
    by_cases hsame : record.player.teamID = t
    · rw [hteam] at hsame
      refine hroom Roster.members_setPlayer ?_
      rw [← hsame]
      exact createAdminPlayer_room h (by omega)
    · exact hkeep (Roster.members_setPlayer_other hsame)
  | profile hold => exact hkeep (Roster.members_setPlayer_same hold (updatedProfile_player ..).2.1)
  | promoted _ hold => exact hkeep (Roster.members_setPlayer_same hold rfl)
  | @joined p teamKey input old id team record h _ _ _ hfound hissued =>
    by_cases hsame : record.player.teamID = t
    · refine hroom Roster.members_setPlayer ?_
      obtain ⟨_, _, -, -, rfl⟩ := issuePeer_ok hissued
      rw [← hsame]
      exact joinExistingPlayerTeam_room h hfound
    · exact hkeep (Roster.members_setPlayer_other hsame)
  | @transferred p q captain target hcaptain _ _ _ hne htarget =>
    have hq : (s.roster.setPlayer p (captain.withRole .member)).players.lookup q = some target := by
      rw [Roster.lookup_setPlayer, if_neg hne]
      exact htarget
    exact hkeep ((Roster.members_setPlayer_same hq rfl).trans
      (Roster.members_setPlayer_same hcaptain rfl))
  | configured hold => exact hkeep (Roster.members_setPlayer_same hold rfl)
  | rotated hold => exact hkeep (Roster.members_setPlayer_same hold rfl)
  | revoked hold record _ hplayer =>
    refine hkeep (Roster.members_setPlayer_same hold ?_)
    rw [hplayer]
  | listed teamName =>
    refine hkeep (Roster.members_le fun p record hp => ?_)
    rw [Go.Map.lookup_mapValues, Option.map_eq_some_iff] at hp
    obtain ⟨old, hold, rfl⟩ := hp
    exact ⟨old, hold, rfl⟩
  | deleted => exact hkeep (Roster.members_of_sub fun q record hq => Go.Map.lookup_of_erase hq)
  | teamDeleted =>
    exact hkeep (Roster.members_of_sub fun q record hq => Go.Map.lookup_of_filterKeys hq)
  | updated hold => exact hkeep (Roster.members_setPlayer_same hold rfl)
  | demoted hold =>
    exact hkeep (Roster.members_le (.setPlayer (fun _ => rfl) hold rfl))

theorem withinLimit_exec (hlimit : 0 < limit) (hfixed : s.platformSettings.maxTeamMembers = limit)
    (hs : s.WithinLimit limit) (call : MemoryCall) : (s.exec T call).WithinLimit limit :=
  fun _ ht => members_step hlimit hfixed hs (rosterStep_exec T call s) ht

/-! ## Imports -/

theorem settings_joinChallenges {teamID : Int} {input : StoreInput} {n : Nat}
    {challenges : List (Int × AdminChallenge)} {done : List ServiceKey} :
    (joinChallenges teamID input n challenges s done).store.platformSettings =
      s.platformSettings := by
  induction challenges generalizing n s done with
  | nil => rfl
  | cons entry challenges ih =>
    unfold joinChallenges
    dsimp only
    split
    · rfl
    · rw [ih]
      rfl

theorem settings_createAdminTeam {request : AdminCreateTeamRequest} {input : StoreInput} :
    (s.createAdminTeam T request input).store.platformSettings = s.platformSettings := by
  unfold createAdminTeam
  dsimp only
  repeat' split
  iterate 4 rfl
  · exact settings_joinChallenges.trans rfl
  · exact settings_joinChallenges.trans rfl

/-- An import leaves the settings alone. -/
theorem settings_ofImport {rows : List AdminBulkImportTeam} {call : MemoryCall}
    (h : call.ofImport rows) :
    (s.exec T call).platformSettings = s.platformSettings := by
  cases call with
  | createAdminTeam => exact settings_createAdminTeam
  | createAdminPlayer request input =>
    simp only [exec, createAdminPlayer]
    repeat' split
    all_goals rfl
  | deleteAdminTeam teamID =>
    simp only [exec, deleteAdminTeam]
    split <;> rfl
  | _ => cases h

theorem withinLimit_registryCall (hlimit : 0 < limit)
    (hfixed : s.platformSettings.maxTeamMembers = limit) (hs : s.WithinLimit limit)
    (call : RegistryCall) : (call.exec T s).WithinLimit limit := by
  cases call with
  | call call => exact withinLimit_exec hlimit hfixed hs call
  | importAdminTeams rows input =>
    let P (s : MemoryStore) := s.platformSettings.maxTeamMembers = limit ∧ s.WithinLimit limit
    have hstep (call : MemoryCall) (s : MemoryStore) (hcall : call.ofImport rows) (hs : P s) :
        P (s.exec T call) :=
      ⟨(congrArg _ (settings_ofImport hcall)).trans hs.1, withinLimit_exec hlimit hs.1 hs.2 call⟩
    exact (importAdminTeams_keeps rows input hstep ⟨hfixed, hs⟩).2

/-- As long as the limit stays what it is, no team with a positive id gets more members. -/
theorem within_limit (T : CaseTable) (hlimit : 0 < limit) {calls : List RegistryCall}
    (hfixed : Runs.Always (RegistryCall.exec T)
      (fun s => s.platformSettings.maxTeamMembers = limit) s calls)
    (hs : s.WithinLimit limit) :
    Runs.Always (RegistryCall.exec T) (WithinLimit limit) s calls := by
  induction calls generalizing s with
  | nil => exact Runs.always_nil.mpr hs
  | cons call calls ih =>
    obtain ⟨hnow, hrest⟩ := Runs.always_cons.mp hfixed
    exact Runs.always_cons.mpr ⟨hs, ih hrest (withinLimit_registryCall hlimit hnow hs call)⟩

/-- Inputs with fresh keys for every row and player. -/
def importInput : ImportInput := { team := fun _ => {}, player := fun _ _ => testKeys }

/-- A player of an import row with a valid password. -/
def importedPlayer (displayName email : String) : AdminBulkImportPlayer :=
  { displayName, email, password := "longpassword" }

/-- A team of one player, and one of two. -/
def importedTeams : List AdminBulkImportTeam :=
  [{ name := "Blue", contactEmail := "blue@example.com"
     players := [importedPlayer "Ann" "ann@example.com"] },
   { name := "Red", contactEmail := "red@example.com"
     players := [importedPlayer "Bob" "bob@example.com", importedPlayer "Cy" "cy@example.com"] }]

theorem within_limit_importedTeams :
    (importAdminTeams .ascii importedTeams importInput
      { platformSettings := { maxTeamMembers := 1 } }).2.errors =
        ["row 2 (Red): team member limit reached"] ∧
    Runs.Always (RegistryCall.exec .ascii) (WithinLimit 1)
      { platformSettings := { maxTeamMembers := 1 } }
      [.importAdminTeams importedTeams importInput] := by
  refine ⟨by decide +kernel, within_limit .ascii Int.one_pos ?_ fun t _ => ?_⟩
  · exact Runs.always_cons.mpr ⟨rfl, Runs.always_nil.mpr (by decide +kernel)⟩
  · exact Int.zero_le_ofNat 1

/-- The first store of a configuration with a negative team id. -/
def negativeStore : MemoryStore :=
  ((newMemoryStore (-5) 0 fun _ => testKeys).toOption).getD {}

theorem initial_negativeStore : negativeStore.Initial := by
  have hok : (newMemoryStore (-5) 0 fun _ => testKeys).isOk = true := by decide
  refine .inr ⟨-5, 0, fun _ => testKeys, ?_⟩
  unfold negativeStore
  cases hs : newMemoryStore (-5) 0 fun _ => testKeys with
  | error e =>
    rw [hs] at hok
    cases hok
  | ok s => rfl

/-- Ann registers with an email of her own. -/
def registers (email : String) : RegistryCall :=
  .call (.registerPlayer { displayName := "Ann", email, password := "longpassword" } 0)

/-- The player joins the team by its key. -/
def joins (playerID : Int) : RegistryCall :=
  .call (.joinExistingPlayerTeam playerID "TEAM--5-JOIN" testKeys)

/-- Four players register, and join that team. -/
def joinsNegative : List RegistryCall :=
  [registers "a@example.com", registers "b@example.com", registers "c@example.com",
   registers "d@example.com", joins 5, joins 6, joins 7, joins 8]

theorem over_limit :
    ¬ ∀ (T : CaseTable) (limit : Int) (s : MemoryStore) (calls : List RegistryCall),
    0 < limit → s.Initial →
    Runs.Always (RegistryCall.exec T) (fun s => s.platformSettings.maxTeamMembers = limit) s calls →
    (∀ t ∈ s.teams.keys, s.playerCountForTeam t ≤ limit) →
    Runs.Always (RegistryCall.exec T)
      (fun s => ∀ t ∈ s.teams.keys, s.playerCountForTeam t ≤ limit) s calls := by
  intro h
  have hfixed : Runs.Always (RegistryCall.exec .ascii)
      (fun s => s.platformSettings.maxTeamMembers = 3) negativeStore joinsNegative := by
    simp only [joinsNegative, Runs.always_cons, Runs.always_nil]
    decide +kernel
  have hlimited := (h .ascii 3 negativeStore joinsNegative (by decide) initial_negativeStore hfixed
    (by decide)).last
  exact absurd (hlimited (-5)) (by decide +kernel)

end MemoryStore

end ADPlatform.APIGateway
