import ADPlatform.APIGateway.Teams
import ADPlatform.Lib.Ranking

/-! # The scoreboard of the in-memory store

The store keeps one row for each active team, found again by the name of the team. The rows follow
the teams in every state of a run exactly if each of its calls is one that `rowsAllowed` admits. -/

namespace ADPlatform.APIGateway
open Text

namespace TeamTable
variable {t : TeamTable} {id : Int} {team : AdminTeam}

/-- Is the team marked as deactivated? -/
def inactive (t : TeamTable) (id : Int) : Bool := t.deactivated.get id false

/-- The names of the active teams in a map. -/
def namesIn (deactivated : Go.Map Int Bool) (teams : Go.Map Int AdminTeam) : List String :=
  (teams.pairs.filter fun (id, _) => !deactivated.get id false).map fun (_, team) => team.name

/-- The names of the teams without the mark. -/
def activeNames (t : TeamTable) : List String := namesIn t.deactivated t.teams

/-- The names of the active teams other than one. -/
def otherNames (t : TeamTable) (id : Int) : List String := namesIn t.deactivated (t.teams.erase id)

/-- The rows are those of the active teams, and they are ranked without a gap. -/
structure Consistent (t : TeamTable) : Prop where
  names : (t.rows.map (·.team)).Perm t.activeNames
  ranks : Ranking.Ranked (·.rank) t.rows

/-- The other teams are as active as before. -/
theorem namesIn_erase {deactivated : Go.Map Int Bool}
    (h : ∀ other, other ≠ id → deactivated.get other false = t.inactive other) :
    namesIn deactivated (t.teams.erase id) = t.otherNames id := by
  unfold otherNames namesIn
  congr 1
  refine List.filter_congr fun ⟨other, team⟩ hmem => ?_
  dsimp only
  rw [h other]
  · rfl
  · rintro rfl
    rw [Go.Map.mem_pairs, AList.lookup_erase] at hmem
    cases hmem

theorem namesIn_insert (deactivated : Go.Map Int Bool) (teams : Go.Map Int AdminTeam) (id : Int)
    (team : AdminTeam) : namesIn deactivated (teams.insert id team) =
      if deactivated.get id false then namesIn deactivated (teams.erase id)
      else team.name :: namesIn deactivated (teams.erase id) := by
  unfold namesIn
  rw [Go.Map.pairs_insert_erase, List.filter_cons]
  cases h : deactivated.get id false <;> simp [h]

theorem namesIn_insert_new {deactivated : Go.Map Int Bool} {teams : Go.Map Int AdminTeam}
    (h : teams.lookup id = none) : namesIn deactivated (teams.insert id team) =
      if deactivated.get id false then namesIn deactivated teams
      else team.name :: namesIn deactivated teams := by
  unfold namesIn
  rw [Go.Map.pairs_insert h, List.filter_cons]
  cases h : deactivated.get id false <;> simp [h]

/-- A team's own name, if it is active, and the others. -/
theorem activeNames_perm (h : t.teams.lookup id = some team) :
    t.activeNames.Perm (if t.inactive id then t.otherNames id else team.name ::
      t.otherNames id) := by
  refine (((Go.Map.pairs_perm_erase h).filter _).map _).trans ?_
  rw [List.filter_cons, inactive]
  cases h : t.deactivated.get id false <;> simp [h, otherNames, namesIn]

/-- A new team gets a row exactly if it is active. -/
theorem Consistent.created (h : t.Consistent) (hnew : t.teams.lookup id = none) (row : ScoreRow)
    (hteam : row.team = team.name) (hrank : row.rank = t.rows.length + 1) (failed : Bool) :
    Consistent { t with
      teams := t.teams.insert id team
      rows := if failed then t.rows else t.rows ++ [row] } ↔
      (t.inactive id = true ↔ failed = true) := by
  have hnames : activeNames { t with
      teams := t.teams.insert id team
      rows := if failed then t.rows else t.rows ++ [row] } =
      if t.inactive id then t.activeNames else team.name :: t.activeNames := namesIn_insert_new hnew
  have hlength := h.names.length_eq
  rw [List.length_map] at hlength
  constructor
  · intro h'
    have hlength' := h'.names.length_eq
    rw [hnames, List.length_map] at hlength'
    cases failed <;> cases hid : t.inactive id <;> simp [hid] at hlength' ⊢ <;> omega
  · intro hiff
    refine ⟨?_, ?_⟩
    · rw [hnames]
      cases hid : t.inactive id with
      | true =>
        rw [if_pos (hiff.mp hid)]
        exact h.names
      | false =>
        have hok : ¬ failed = true := fun hfailed => by simp [hiff.mpr hfailed] at hid
        rw [if_neg hok, List.map_append, List.map_singleton, hteam]
        exact (List.perm_append_singleton _ _).trans (h.names.cons _)
    · cases failed with
      | true => exact h.ranks
      | false => exact h.ranks.append hrank

/-- A captain's renaming reaches the row of the team alone exactly if no other active team has the
same name. -/
theorem Consistent.renamed (h : t.Consistent) (hteam : t.teams.lookup id = some team)
    {updated : AdminTeam} :
    Consistent { t with
      teams := t.teams.insert id updated
      rows := t.rows.map fun row =>
        if row.team = team.name then { row with team := updated.name } else row } ↔
      updated.name = team.name ∨ team.name ∉ t.otherNames id := by
  have hrows : (t.rows.map fun row => if row.team = team.name then
      { row with team := updated.name } else row).map (·.team) =
      Ranking.replace team.name updated.name (t.rows.map (·.team)) := by
    rw [Ranking.replace, List.map_map, List.map_map]
    refine List.map_congr_left fun row _ => ?_
    dsimp only [Function.comp_apply]
    split <;> rfl
  have hranks : (t.rows.map fun row => if row.team = team.name then
      { row with team := updated.name } else row).map (·.rank) = t.rows.map (·.rank) := by
    rw [List.map_map]
    refine List.map_congr_left fun row _ => ?_
    dsimp only [Function.comp_apply]
    split <;> rfl
  have hold := h.names.trans (activeNames_perm hteam)
  have hnames : activeNames { t with
      teams := t.teams.insert id updated
      rows := t.rows.map fun row =>
        if row.team = team.name then { row with team := updated.name } else row } =
      if t.inactive id then t.otherNames id else updated.name :: t.otherNames id :=
    namesIn_insert ..
  -- what the renaming makes of the names of the other teams must be these names
  have hothers : (Ranking.replace team.name updated.name (t.rows.map (·.team))).Perm
      (if t.inactive id then t.otherNames id else updated.name :: t.otherNames id) ↔
      (Ranking.replace team.name updated.name (t.otherNames id)).Perm (t.otherNames id) := by
    have hmap := hold.map fun x => if x = team.name then updated.name else x
    cases hid : t.inactive id with
    | true =>
      rw [hid, if_pos rfl] at hmap
      rw [if_pos rfl]
      exact hmap.congr_left _
    | false =>
      rw [hid, if_neg Bool.false_ne_true, List.map_cons, if_pos rfl] at hmap
      rw [if_neg Bool.false_ne_true]
      exact (hmap.congr_left _).trans (List.perm_cons _)
  rw [← Ranking.replace_perm_iff, ← hothers]
  constructor
  · intro h'
    have hperm := h'.names
    rwa [hnames, hrows] at hperm
  · intro hperm
    refine ⟨?_, ?_⟩
    · rw [hnames, hrows]
      exact hperm
    · have hold := h.ranks
      unfold Ranking.Ranked at hold ⊢
      rw [hranks, List.length_map]
      exact hold

/-- An active team that is deleted takes its row with it; the ranks keep no gap exactly if it is the
last one. -/
theorem Consistent.deleted_active (h : t.Consistent) (hteam : t.teams.lookup id = some team)
    (hactive : t.inactive id = false) :
    Consistent { t with
      teams := t.teams.erase id, rows := t.rows.eraseP fun row => row.team = team.name } ↔
      ∀ row, t.rows.find? (fun row => row.team = team.name) = some row →
        row.rank = t.rows.length := by
  have hold := h.names.trans (activeNames_perm hteam)
  rw [hactive, if_neg nofun] at hold
  obtain ⟨row, hrow, hname⟩ := List.mem_map.mp (hold.mem_iff.mpr List.mem_cons_self)
  obtain ⟨first, l₁, l₂, hl₁, hfirst, hrows, herase⟩ := List.exists_of_eraseP
    (p := fun row : ScoreRow => decide (row.team = team.name)) hrow (decide_eq_true hname)
  have hperm : t.rows.Perm (first :: t.rows.eraseP fun row => row.team = team.name) := by
    rw [herase]
    conv_lhs => rw [hrows]
    exact List.perm_middle
  have hfind : t.rows.find? (fun row => row.team = team.name) = some first := by
    rw [hrows, List.find?_append, List.find?_eq_none.mpr hl₁, Option.none_or, List.find?_cons]
    simp only [hfirst]
  have hranks := Ranking.Ranked.remove h.ranks hperm
  simp only [hfind, Option.some.injEq, forall_eq']
  refine ⟨fun h' => hranks.mp h'.ranks, fun hlast => ⟨?_, hranks.mpr hlast⟩⟩
  have hnames := (hperm.map (·.team)).symm.trans hold
  rw [List.map_cons, of_decide_eq_true hfirst] at hnames
  exact hnames.cons_inv

/-- A team that has no row takes none with it exactly if no active team has its name. -/
theorem Consistent.deleted_inactive (h : t.Consistent) (hteam : t.teams.lookup id = some team)
    (hinactive : t.inactive id = true) :
    Consistent { t with
      teams := t.teams.erase id, rows := t.rows.eraseP fun row => row.team = team.name } ↔
      team.name ∉ t.otherNames id := by
  have hold := h.names.trans (activeNames_perm hteam)
  rw [hinactive, if_pos rfl] at hold
  constructor
  · intro h' hmem
    obtain ⟨row, hrow, hname⟩ := List.mem_map.mp (hold.mem_iff.mpr hmem)
    have hlength := h'.names.length_eq.trans hold.length_eq.symm
    rw [List.length_map, List.length_map, List.length_eraseP_of_mem hrow (decide_eq_true hname)]
      at hlength
    have := List.length_pos_of_mem hrow
    omega
  · intro hmem
    have hrows : (t.rows.eraseP fun row => row.team = team.name) = t.rows := by
      refine List.eraseP_of_forall_not fun row hrow hname => hmem ?_
      rw [← of_decide_eq_true hname, ← hold.mem_iff]
      exact List.mem_map_of_mem hrow
    refine ⟨?_, ?_⟩
    · rw [hrows]
      exact hold
    · rw [hrows]
      exact h.ranks

/-- An organizer's renaming does not reach the row, so an active team must keep its name. -/
theorem Consistent.updated (h : t.Consistent) (hteam : t.teams.lookup id = some team)
    {updated : AdminTeam} :
    Consistent { t with teams := t.teams.insert id updated } ↔
      updated.name = team.name ∨ t.inactive id = true := by
  have hold := h.names.trans (activeNames_perm hteam)
  have hnames : activeNames { t with teams := t.teams.insert id updated } =
      if t.inactive id then t.otherNames id else updated.name :: t.otherNames id :=
    namesIn_insert ..
  have hiff : Consistent { t with teams := t.teams.insert id updated } ↔
      (t.rows.map (·.team)).Perm
        (if t.inactive id then t.otherNames id else updated.name :: t.otherNames id) := by
    rw [← hnames]
    exact ⟨fun h' => h'.names, fun hperm => ⟨hperm, h.ranks⟩⟩
  rw [hiff]
  cases hid : t.inactive id with
  | true =>
    rw [hid, if_pos rfl] at hold
    exact iff_of_true hold (.inr rfl)
  | false =>
    rw [hid, if_neg nofun] at hold
    rw [if_neg nofun, hold.congr_left, or_iff_left nofun]
    constructor
    · intro hperm
      have hsame :
          ([team.name] ++ t.otherNames id).Perm ([updated.name] ++ t.otherNames id) := hperm
      exact (List.singleton_perm_singleton.mp ((List.perm_append_right_iff _).mp hsame)).symm
    · intro hname
      rw [hname]

/-- A team that comes back gets no row. -/
theorem Consistent.activated (h : t.Consistent) (hteam : t.teams.lookup id = some team)
    {updated : AdminTeam} (hname : updated.name = team.name) :
    Consistent { t with
      teams := t.teams.insert id updated, deactivated := t.deactivated.erase id } ↔
      t.inactive id = false := by
  have hold := h.names.trans (activeNames_perm hteam)
  have hnames : activeNames { t with
      teams := t.teams.insert id updated, deactivated := t.deactivated.erase id } =
      team.name :: t.otherNames id := by
    refine (namesIn_insert ..).trans ?_
    have hothers : ∀ other, other ≠ id →
        Go.Map.get (t.deactivated.erase id) other false = t.inactive other := by
      intro other hne
      rw [Go.Map.get_erase, if_neg hne]
      rfl
    rw [Go.Map.get_erase, if_pos rfl, if_neg nofun, hname, namesIn_erase hothers]
  constructor
  · intro h'
    have hlength := h'.names.length_eq
    rw [hnames] at hlength
    cases hid : t.inactive id with
    | false => rfl
    | true =>
      have hlength' := hold.length_eq
      rw [hid, if_pos rfl] at hlength'
      simp only [List.length_map, List.length_cons] at hlength hlength'
      omega
  · intro hid
    rw [hid, if_neg nofun] at hold
    refine ⟨?_, h.ranks⟩
    rw [hnames]
    exact hold

/-- A team that goes takes its row, and those of its namesakes; the ranks keep no gap exactly if it
was the last one. -/
theorem Consistent.deactivated (h : t.Consistent) (hteam : t.teams.lookup id = some team)
    {updated : AdminTeam} :
    Consistent {
      teams := t.teams.insert id updated
      deactivated := t.deactivated.insert id true
      rows := t.rows.filter fun row => row.team ≠ team.name } ↔
      team.name ∉ t.otherNames id ∧ (t.inactive id = false →
        ∀ row ∈ t.rows, row.team = team.name → row.rank = t.rows.length) := by
  have hold := h.names.trans (activeNames_perm hteam)
  have hothers : ∀ other, other ≠ id →
      Go.Map.get (t.deactivated.insert id true) other false = t.inactive other := by
    intro other hne
    rw [Go.Map.get_insert, if_neg hne]
    rfl
  have hnames : namesIn (t.deactivated.insert id true) (t.teams.insert id updated) =
      t.otherNames id := by
    rw [namesIn_insert, Go.Map.get_insert, if_pos rfl, if_pos rfl, namesIn_erase hothers]
  have hrows : (t.rows.filter fun row => row.team ≠ team.name).map (·.team) =
      (t.rows.map (·.team)).filter (· ≠ team.name) := by
    rw [List.filter_map]
    rfl
  -- the names that are left are those of the other teams without the namesakes
  have hleft : ((t.rows.map (·.team)).filter (· ≠ team.name)).Perm
      ((t.otherNames id).filter (· ≠ team.name)) := by
    refine (hold.filter _).trans ?_
    split
    · exact .refl _
    · rw [List.filter_cons_of_neg (by simp)]
  have hiff :
      ((t.rows.filter fun row => row.team ≠ team.name).map (·.team)).Perm (t.otherNames id) ↔
      team.name ∉ t.otherNames id := by
    rw [hrows, hleft.congr_left, Ranking.filter_ne_perm_iff]
  have hranks : team.name ∉ t.otherNames id →
      (Ranking.Ranked (·.rank) (t.rows.filter fun row => row.team ≠ team.name) ↔
        (t.inactive id = false → ∀ row ∈ t.rows, row.team = team.name →
          row.rank = t.rows.length)) := by
    intro hfree
    cases hid : t.inactive id with
    | true =>
      rw [hid, if_pos rfl] at hold
      have hall : (t.rows.filter fun row => row.team ≠ team.name) = t.rows := by
        refine List.filter_eq_self.mpr fun row hrow => decide_eq_true fun hname => hfree ?_
        rw [← hname, ← hold.mem_iff]
        exact List.mem_map_of_mem hrow
      rw [hall]
      exact iff_of_true h.ranks nofun
    | false =>
      rw [hid, if_neg nofun] at hold
      obtain ⟨row, hperm, hmem⟩ := Ranking.exists_only_row hold hfree
      rw [Ranking.Ranked.remove h.ranks hperm, forall_prop_of_true rfl]
      constructor
      · intro hlast other hother hname
        rw [(hmem other).mp ⟨hother, hname⟩]
        exact hlast
      · intro hlast
        obtain ⟨hrow, hname⟩ := (hmem row).mpr rfl
        exact hlast row hrow hname
  constructor
  · intro h'
    have hfree := hiff.mp (h'.names.trans (.of_eq hnames))
    exact ⟨hfree, (hranks hfree).mp h'.ranks⟩
  · rintro ⟨hfree, hlast⟩
    exact ⟨(hiff.mpr hfree).trans (.of_eq hnames.symm), (hranks hfree).mpr hlast⟩

end TeamTable

namespace MemoryStore
variable {T : CaseTable} {s : MemoryStore}

/-- The calls after which the rows of the scoreboard are still those of the active teams. -/
def rowsAllowed (T : CaseTable) (call : MemoryCall) (s : MemoryStore) : Prop :=
  match call with
  | .createAdminTeam request input => ∀ id joinKey, CreatesTeam T request input s id joinKey →
    (s.teamDeactivated id = true ↔ s.tokenMissing input)
  | .updateParticipantProfile p request => ∀ record team, RenamesTeam T p request s record team →
    trimSpace request.teamName = team.name ∨
      team.name ∉ s.teamTable.otherNames record.player.teamID
  | .deleteAdminTeam id => ∀ team, s.teams.lookup id = some team →
    if s.teamDeactivated id then team.name ∉ s.teamTable.otherNames id
    else ∀ row, s.scoreboard.find? (fun row => row.team = team.name) = some row →
      row.rank = s.scoreboard.length
  | .updateAdminTeam id request => ∀ team, s.teams.lookup id = some team →
    trimSpace request.name = "" ∨ trimSpace request.name = team.name ∨ s.teamDeactivated id = true
  | .setTeamActive id true => (s.teams.lookup id).isSome → s.teamDeactivated id = false
  | .setTeamActive id false => ∀ team, s.teams.lookup id = some team →
    team.name ∉ s.teamTable.otherNames id ∧ (s.teamDeactivated id = false →
      ∀ row ∈ s.scoreboard, row.team = team.name → row.rank = s.scoreboard.length)
  | _ => True

theorem rowsAllowed_of_onTeams {call : MemoryCall} (h : call.onTeams = false) :
    rowsAllowed T call s := by
  cases call with
  | createAdminTeam | updateParticipantProfile | deleteAdminTeam | updateAdminTeam
  | setTeamActive =>
    cases h
  | _ => trivial

theorem consistent_step {call : MemoryCall} {t : TeamTable} (hs : s.teamTable.Consistent)
    (h : TeamStep T s call t) : t.Consistent ↔ rowsAllowed T call s := by
  cases h with
  | unchanged h => exact iff_of_true hs (rowsAllowed_of_onTeams h)
  | createRejected h =>
    exact iff_of_true hs fun id joinKey hcreates => absurd hcreates (h id joinKey)
  | @created request input id joinKey h =>
    refine (hs.created h.new (s.newRow (trimSpace request.name)) rfl rfl _).trans ?_
    rw [createAdminTeam_failed_iff h]
    constructor
    · intro hiff id' joinKey' h'
      obtain rfl : id = id' := Option.some.inj (h.number.symm.trans h'.number)
      exact hiff
    · exact fun hallowed => hallowed id joinKey h
  | profileKept h =>
    exact iff_of_true hs fun record team hrenames => absurd hrenames (h record team)
  | @renamed p request record team h =>
    refine (hs.renamed h.found).trans ?_
    constructor
    · intro hor record' team' h'
      obtain rfl : record = record' := Option.some.inj (h.player.symm.trans h'.player)
      obtain rfl : team = team' := Option.some.inj (h.found.symm.trans h'.found)
      exact hor
    · exact fun hallowed => hallowed record team h
  | deleteMissing h => exact iff_of_true hs fun team hteam => by simp [h] at hteam
  | @deleted id team h =>
    simp only [rowsAllowed, h, Option.some.injEq, forall_eq']
    split
    · rename_i hinactive
      exact hs.deleted_inactive h hinactive
    · rename_i hactive
      exact hs.deleted_active h (Bool.eq_false_of_not_eq_true hactive)
  | updateMissing h => exact iff_of_true hs fun team hteam => by simp [h] at hteam
  | @updated id request team h =>
    simp only [rowsAllowed, h, Option.some.injEq, forall_eq']
    refine (hs.updated h).trans ?_
    dsimp only
    split
    · rename_i hname
      rw [or_iff_right hname]
      rfl
    · rename_i hname
      exact iff_of_true (.inl rfl) (.inl (not_not.mp hname))
  | activeMissing h =>
    refine iff_of_true hs ?_
    rename_i active
    cases active with
    | true => exact fun hfound => by simp [h] at hfound
    | false => exact fun team hteam => by simp [h] at hteam
  | activated h =>
    simp only [rowsAllowed, h, Option.isSome_some, forall_const]
    exact hs.activated h rfl
  | deactivated h =>
    simp only [rowsAllowed, h, Option.some.injEq, forall_eq']
    exact hs.deactivated h

theorem consistent_empty : ({} : MemoryStore).teamTable.Consistent :=
  ⟨.refl _, .refl _⟩

/-- In a run of calls on an empty store, the rows of the scoreboard are those of the active teams,
with the ranks from `1` on, in every state reached exactly if every call is one that `rowsAllowed`
admits. -/
theorem scoreboard_rows_iff (T : CaseTable) (calls : List MemoryCall) :
    Runs.Always (exec T) (fun s => s.teamTable.Consistent) {} calls ↔
      Runs.EachCall (exec T) (rowsAllowed T) {} calls :=
  Runs.always_iff_eachCall (I := fun _ => True) trivial consistent_empty (fun _ _ _ => trivial)
    fun call s _ h => consistent_step h (teamStep_exec T call s)

/-- An organizer renames the only team. -/
def renamedTeam : List MemoryCall :=
  [.createAdminTeam { name := "Blue", contactEmail := "blue@example.com" } {},
   .updateAdminTeam 101 { name := "Red", contactEmail := "" }]

theorem stale_row : ¬ ∀ (T : CaseTable) (calls : List MemoryCall),
    Runs.Always (exec T) (fun s => s.teamTable.Consistent) {} calls := by
  intro h
  have hnames := (h .ascii renamedTeam).last.names
  have hrows : (Runs.run (exec .ascii) {} renamedTeam).teamTable.rows.map (·.team) = ["Blue"] ∧
      (Runs.run (exec .ascii) {} renamedTeam).teamTable.activeNames = ["Red"] := by
    decide +kernel
  rw [hrows.1, hrows.2, List.singleton_perm_singleton] at hnames
  exact absurd hnames (by decide)

end MemoryStore

end ADPlatform.APIGateway
