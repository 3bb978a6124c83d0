import Mathlib.Data.List.Perm.Basic
import Mathlib.Data.List.Range

/-! # Tables of ranked names

What happens to the names and to the ranks of a table when a row is added, removed or renamed. -/

namespace Ranking
variable {α ν : Type} {rank : α → Nat} {rows rest : List α} {row : α}

/-- The ranks are the numbers from `1` to the number of rows. -/
def Ranked (rank : α → Nat) (rows : List α) : Prop :=
  (rows.map rank).Perm (List.range' 1 rows.length)

theorem range'_succ_perm (n : Nat) : (List.range' 1 (n + 1)).Perm ((n + 1) :: List.range' 1 n) := by
  rw [List.range'_concat, Nat.one_mul, Nat.add_comm 1 n]
  exact List.perm_append_singleton _ _

/-- A row at the end, with the next rank. -/
theorem Ranked.append (h : Ranked rank rows) (hrow : rank row = rows.length + 1) :
    Ranked rank (rows ++ [row]) := by
  unfold Ranked
  rw [List.map_append, List.map_cons, List.map_nil, List.length_append, List.length_singleton, hrow]
  refine (List.perm_append_singleton _ _).trans ?_
  refine (h.cons _).trans ?_
  exact (range'_succ_perm _).symm

/-- The ranks stay without a gap exactly if it is the last one that goes. -/
theorem Ranked.remove (h : Ranked rank rows) (hp : rows.Perm (row :: rest)) :
    Ranked rank rest ↔ rank row = rows.length := by
  have hlength : rows.length = rest.length + 1 := hp.length_eq
  have hranks :
      (rank row :: rest.map rank).Perm ((rest.length + 1) :: List.range' 1 rest.length) := by
    refine ((hp.map rank).symm.trans h).trans ?_
    rw [hlength]
    exact range'_succ_perm _
  rw [hlength]
  constructor
  · intro hrest
    have hsame : ([rank row] ++ rest.map rank).Perm ([rest.length + 1] ++ rest.map rank) :=
      hranks.trans (hrest.symm.cons _)
    exact List.singleton_perm_singleton.mp ((List.perm_append_right_iff _).mp hsame)
  · intro hlast
    rw [hlast] at hranks
    exact hranks.cons_inv

section names
variable [DecidableEq ν] {a b : ν} {l l' : List ν}

/-- Dropping a name changes a list exactly if it is in it. -/
theorem filter_ne_perm_iff : (l.filter (· ≠ a)).Perm l ↔ a ∉ l := by
  constructor
  · intro h hmem
    have := h.mem_iff.mpr hmem
    simp at this
  · intro h
    rw [List.filter_eq_self.mpr]
    rintro x hx
    simp only [decide_eq_true_eq]
    rintro rfl
    exact h hx

/-- The list with every `a` replaced by `b`. -/
def replace (a b : ν) (l : List ν) : List ν := l.map fun x => if x = a then b else x

/-- Replacing a name changes a list exactly if it is in it and another one comes. -/
theorem replace_perm_iff : (replace a b l).Perm l ↔ b = a ∨ a ∉ l := by
  constructor
  · intro h
    by_contra hab
    obtain ⟨hne, hmem⟩ := not_or.mp hab
    obtain ⟨x, -, hx⟩ := List.mem_map.mp (h.mem_iff.mpr (not_not.mp hmem))
    split at hx
    · exact hne hx
    · rename_i hxa
      exact hxa hx
  · intro h
    have hself : ∀ x ∈ l, (if x = a then b else x) = x := by
      intro x hx
      split
      · rename_i hxa
        rw [hxa] at hx ⊢
        exact h.resolve_right (not_not.mpr hx)
      · rfl
    rw [replace, List.map_congr_left hself, List.map_id']

/-- A name that is there once is that of one row. -/
theorem exists_only_row {name : α → ν} (h : (rows.map name).Perm (a :: l)) (ha : a ∉ l) :
    ∃ row, rows.Perm (row :: rows.filter fun row => name row ≠ a) ∧
      ∀ other, (other ∈ rows ∧ name other = a) ↔ other = row := by
  have hcount : rows.countP (fun row => name row = a) = 1 := by
    calc rows.countP (fun row => name row = a)
        = (rows.map name).countP (· = a) := by
          rw [List.countP_map]
          rfl
      _ = (a :: l).countP (· = a) := h.countP_eq _
      _ = 1 := by
          rw [List.countP_cons, List.countP_eq_zero.mpr]
          · simp
          · intro x hx
            rw [decide_eq_true_eq]
            rintro rfl
            exact ha hx
  rw [List.countP_eq_length_filter] at hcount
  obtain ⟨row, hrow⟩ := List.length_eq_one_iff.mp hcount
  refine ⟨row, ?_, fun other => ?_⟩
  · have hsplit := List.filter_append_perm (fun row => decide (name row = a)) rows
    rw [hrow] at hsplit
    simpa using hsplit.symm
  · have hmem : other ∈ rows.filter (fun row => name row = a) ↔ other = row := by
      rw [hrow, List.mem_singleton]
    rwa [List.mem_filter, decide_eq_true_eq] at hmem

end names

end Ranking
