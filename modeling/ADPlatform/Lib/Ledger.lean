import Mathlib.Algebra.BigOperators.Group.List.Basic
import Mathlib.Algebra.Order.BigOperators.Group.List
import Mathlib.Algebra.Ring.Basic
import Mathlib.Data.List.Dedup
import ADPlatform.Lib.GoMap

/-! # Conditional sums, grouped sums and ledgers

`sumWhere l p v` sums `v` over the rows of `l` that meet `p`. It does not depend on the order of
the rows, and it splits along any list of keys that covers them (`sum_sumWhere`). A `Posting`
books a value to a service of an account under a component; the total of an account is the sum of
its subtotals over the services (`sum_subtotal`). -/

namespace Ledger

/-- The groups of a covering list of keys make up the whole list. -/
theorem flatMap_filter_perm {ρ κ : Type} [DecidableEq κ] {key : ρ → κ} {ks : List κ}
    {l : List ρ} (hks : ks.Nodup) (h : ∀ r ∈ l, key r ∈ ks) :
      (ks.flatMap fun k => l.filter fun r => key r = k).Perm l := by
  induction ks generalizing l with
  | nil =>
    have hl : l = [] := List.eq_nil_iff_forall_not_mem.mpr fun r hr => by simpa using h r hr
    simp [hl]
  | cons k ks ih =>
    obtain ⟨hk, hks⟩ := List.nodup_cons.mp hks
    have hrest : (ks.flatMap fun k' => l.filter fun r => key r = k')
        = ks.flatMap fun k' => (l.filter fun r => !decide (key r = k)).filter fun r =>
          key r = k' := by
      refine List.flatMap_congr fun k' hk' => ?_
      rw [List.filter_filter]
      refine List.filter_congr fun r _ => ?_
      by_cases hr : key r = k'
      · simp [hr, show k' ≠ k from fun e => hk (e ▸ hk')]
      · simp [hr]
    rw [List.flatMap_cons, hrest]
    refine (List.Perm.append_left _ (ih hks fun r hr => ?_)).trans (List.filter_append_perm _ l)
    obtain ⟨hr, hne⟩ := List.mem_filter.mp hr
    exact (List.mem_cons.mp (h r hr)).resolve_left (by simpa using hne)

section sums
variable {ρ κ K : Type} [AddCommMonoid K]

/-- The sum of `v` over the rows of `l` that meet `p`. -/
def sumWhere (l : List ρ) (p : ρ → Prop) [DecidablePred p] (v : ρ → K) : K :=
  (l.map fun r => if p r then v r else 0).sum

variable {l l' : List ρ} {p q : ρ → Prop} [DecidablePred p] [DecidablePred q] {v w : ρ → K}

@[simp] theorem sumWhere_nil : sumWhere [] p v = (0 : K) := rfl

@[simp] theorem sumWhere_cons {r : ρ} :
    sumWhere (r :: l) p v = (if p r then v r else 0) + sumWhere l p v := List.sum_cons

@[simp] theorem sumWhere_append : sumWhere (l ++ l') p v = sumWhere l p v + sumWhere l' p v := by
  simp [sumWhere]

theorem sumWhere_perm (h : l.Perm l') : sumWhere l p v = sumWhere l' p v := (h.map _).sum_eq

theorem sumWhere_congr (h : ∀ r ∈ l, (p r ↔ q r) ∧ (p r → v r = w r)) :
    sumWhere l p v = sumWhere l q w := by
  refine congrArg List.sum (List.map_congr_left fun r hr => ?_)
  obtain ⟨hpq, hvw⟩ := h r hr
  by_cases hp : p r
  · rw [if_pos hp, if_pos (hpq.mp hp), hvw hp]
  · rw [if_neg hp, if_neg fun hq => hp (hpq.mpr hq)]

theorem sumWhere_eq_zero (h : ∀ r ∈ l, p r → v r = 0) : sumWhere l p v = 0 := by
  refine List.sum_eq_zero fun x hx => ?_
  obtain ⟨r, hr, rfl⟩ := List.mem_map.mp hx
  by_cases hp : p r
  · rw [if_pos hp, h r hr hp]
  · rw [if_neg hp]

theorem sumWhere_map {f : κ → ρ} {m : List κ} :
    sumWhere (m.map f) p v = sumWhere m (fun k => p (f k)) fun k => v (f k) := by
  simp only [sumWhere, List.map_map]
  rfl

theorem sumWhere_flatMap {f : κ → List ρ} {m : List κ} :
    sumWhere (m.flatMap f) p v = (m.map fun k => sumWhere (f k) p v).sum := by
  induction m with
  | nil => rfl
  | cons k m ih => rw [List.flatMap_cons, sumWhere_append, ih, List.map_cons, List.sum_cons]

theorem sumWhere_filter :
    sumWhere (l.filter fun r => p r) q v = sumWhere l (fun r => p r ∧ q r) v := by
  induction l with
  | nil => rfl
  | cons r l ih =>
    by_cases hp : p r
    · simp [hp, ih]
    · simp [hp, ih]

/-- A sum over keys in which one key has a value. -/
theorem sum_ite_eq [DecidableEq κ] {ks : List κ} (hks : ks.Nodup) (k : κ) (x : K) :
    (ks.map fun k' => if k = k' then x else 0).sum = if k ∈ ks then x else 0 := by
  induction ks with
  | nil => rfl
  | cons k' ks ih =>
    obtain ⟨hk', hks⟩ := List.nodup_cons.mp hks
    simp only [List.map_cons, List.sum_cons, ih hks, List.mem_cons]
    by_cases h : k = k'
    · subst h
      simp [hk']
    · simp [h]

/-- A sum splits along a list of keys that covers its rows. -/
theorem sum_sumWhere [DecidableEq κ] {key : ρ → κ} {ks : List κ} (hks : ks.Nodup)
    (h : ∀ r ∈ l, p r → key r ∈ ks) :
    (ks.map fun k => sumWhere l (fun r => p r ∧ key r = k) v).sum = sumWhere l p v := by
  induction l with
  | nil => exact List.sum_eq_zero fun x hx => (by simpa using hx : ¬ks = [] ∧ x = 0).2
  | cons r l ih =>
    have hl := ih fun r' hr' => h r' (.tail _ hr')
    have hr : (ks.map fun k => if p r ∧ key r = k then v r else 0).sum
        = if p r then v r else 0 := by
      by_cases hp : p r
      · simp only [hp, true_and, if_true]
        rw [sum_ite_eq hks, if_pos (h r (.head _) hp)]
      · simp [hp]
    simp only [sumWhere_cons, List.sum_map_add, hl, hr]

theorem sumWhere_one {l : List ρ} : sumWhere l p (fun _ => 1) = l.countP (p ·) := by
  induction l with
  | nil => rfl
  | cons r l ih =>
    rw [sumWhere_cons, ih, List.countP_cons]
    split <;> simp_all [Nat.add_comm]

theorem sum_map_neg {α K : Type} [AddCommGroup K] {l : List α} {f : α → K} :
    (l.map fun x => -f x).sum = -(l.map f).sum := by
  rw [List.sum_neg, List.map_map]
  rfl

theorem sumWhere_neg {ρ K : Type} [AddCommGroup K] {l : List ρ} {p : ρ → Prop} [DecidablePred p]
    {v : ρ → K} : sumWhere l p (fun r => -v r) = -sumWhere l p v := by
  induction l with
  | nil => simp
  | cons r l ih =>
    simp only [sumWhere_cons, ih, neg_add]
    split <;> simp

end sums

section positive
variable {ρ K : Type} [AddCommGroup K] [LinearOrder K] [IsOrderedAddMonoid K] {l : List ρ}
  {p q : ρ → Prop} [DecidablePred p] [DecidablePred q] {v : ρ → K}

theorem sumWhere_and_le (hv : ∀ r ∈ l, 0 < v r) :
    sumWhere l (fun r => p r ∧ q r) v ≤ sumWhere l p v := by
  refine List.sum_le_sum fun r hr => ?_
  by_cases hp : p r
  · by_cases hq : q r
    · simp [hp, hq]
    · simpa [hp, hq] using (hv r hr).le
  · simp [hp]

/-- A condition changes no sum of positive values just where no row breaks it. -/
theorem sumWhere_and_eq_iff (hv : ∀ r ∈ l, 0 < v r) :
    sumWhere l (fun r => p r ∧ q r) v = sumWhere l p v ↔ ∀ r ∈ l, p r → q r := by
  induction l with
  | nil => simp
  | cons r l ih =>
    have hl : ∀ r' ∈ l, 0 < v r' := fun r' hr' => hv r' (.tail _ hr')
    simp only [sumWhere_cons, List.forall_mem_cons]
    by_cases hp : p r
    · by_cases hq : q r
      · simp [hp, hq, ih hl]
      · have hlt : sumWhere l (fun r => p r ∧ q r) v < v r + sumWhere l p v :=
          (sumWhere_and_le hl).trans_lt (lt_add_of_pos_left _ (hv r (.head _)))
        simp [hp, hq, hlt.ne]
    · simp [hp, ih hl]

end positive

section groups
variable {ρ κ K : Type} [DecidableEq κ] [AddCommMonoid K]

/-- `SELECT key, SUM(value) FROM l GROUP BY key`. -/
def groupSum (key : ρ → κ) (value : ρ → K) (l : List ρ) : List (κ × K) :=
  (l.map key).dedup.map fun k => (k, ((l.filter fun r => key r = k).map value).sum)

theorem sum_map_filter {p : ρ → Prop} [DecidablePred p] {v : ρ → K} {l : List ρ} :
    ((l.filter fun r => p r).map v).sum = sumWhere l p v := by
  have h := sumWhere_filter (l := l) (p := p) (q := fun _ => True) (v := v)
  simpa [sumWhere] using h

theorem nodup_groupSum (key : ρ → κ) (value : ρ → K) (l : List ρ) :
    ((groupSum key value l).map (·.1)).Nodup := by
  simp only [groupSum, List.map_map, Function.comp_def, List.map_id']
  exact (l.map key).nodup_dedup

/-- The entry of a group, or nothing where the group is empty. -/
theorem mem_groupSum {key : ρ → κ} {value : ρ → K} {l : List ρ} {k : κ} (h : k ∈ l.map key) :
    (k, sumWhere l (fun r => key r = k) value) ∈ groupSum key value l := by
  refine List.mem_map.mpr ⟨k, List.mem_dedup.mpr h, ?_⟩
  rw [sum_map_filter]

theorem fst_mem_of_mem_groupSum {key : ρ → κ} {value : ρ → K} {l : List ρ} {k : κ}
    (h : k ∈ (groupSum key value l).map (·.1)) : k ∈ l.map key := by
  simpa [groupSum] using h

/-- The row of one group in a grouped result. -/
theorem find?_groupSum {key : ρ → κ} {value : ρ → K} {l : List ρ} (k : κ) :
    (groupSum key value l).find? (·.1 = k)
      = if k ∈ l.map key then some (k, sumWhere l (fun r => key r = k) value) else none := by
  split
  · rename_i h
    cases hfind : (groupSum key value l).find? (·.1 = k) with
    | none =>
      have hrow := List.find?_eq_none.mp hfind _ (mem_groupSum h)
      simp at hrow
    | some row =>
      have hkey : row.1 = k := by simpa using List.find?_some hfind
      exact congrArg some (List.inj_on_of_nodup_map (nodup_groupSum key value l)
        (List.mem_of_find?_eq_some hfind) (mem_groupSum h) hkey)
  · rename_i h
    refine List.find?_eq_none.mpr fun row hrow hkey => h ?_
    have hrow : row.1 ∈ (groupSum key value l).map (·.1) := List.mem_map_of_mem hrow
    exact fst_mem_of_mem_groupSum (of_decide_eq_true hkey ▸ hrow)

/-- A grouped result as a map, with each sum passed through `g`. -/
theorem get_fill_groupSum {key : ρ → κ} {value : ρ → K} {l : List ρ} {g : K → K} (hg : g 0 = 0)
    (k : κ) :
    (Go.Map.fill (·.1) (·.2) ((groupSum key value l).map fun row => (row.1, g row.2)) ∅).get k 0
      = g (sumWhere l (fun r => key r = k) value) := by
  have hkeys : ((groupSum key value l).map fun row => (row.1, g row.2)).map (·.1)
      = (groupSum key value l).map (·.1) := by
    rw [List.map_map]
    rfl
  unfold Go.Map.get
  by_cases h : k ∈ l.map key
  · have hrow : (k, g (sumWhere l (fun r => key r = k) value)) ∈
        (groupSum key value l).map fun row => (row.1, g row.2) :=
      List.mem_map.mpr ⟨_, mem_groupSum h, rfl⟩
    have hnodup : (((groupSum key value l).map fun row => (row.1, g row.2)).map (·.1)).Nodup :=
      hkeys ▸ nodup_groupSum key value l
    rw [Go.Map.lookup_fill_of_mem hnodup hrow, Option.getD_some]
  · have hzero : sumWhere l (fun r => key r = k) value = 0 :=
      sumWhere_eq_zero fun r hr hkey => absurd (List.mem_map.mpr ⟨r, hr, hkey⟩) h
    rw [Go.Map.lookup_fill_of_notMem fun hmem => h (fst_mem_of_mem_groupSum (hkeys ▸ hmem)),
      hzero, hg]
    rfl

theorem get_fill_groupSum_id {key : ρ → κ} {value : ρ → K} {l : List ρ} (k : κ) :
    (Go.Map.fill (·.1) (·.2) (groupSum key value l) ∅).get k 0
      = sumWhere l (fun r => key r = k) value := by
  simpa using get_fill_groupSum (g := id) rfl k

end groups

section postings
variable {α β γ K : Type}

/-- A value booked to a service of an account, under a component. -/
structure Posting (α β γ K : Type) where
  account : α
  service : β
  component : γ
  value : K

variable [DecidableEq α] [DecidableEq γ] [AddCommMonoid K]

/-- What an account has under a component. -/
def total (l : List (Posting α β γ K)) (a : α) (k : γ) : K :=
  sumWhere l (fun p => p.account = a ∧ p.component = k) (·.value)

variable {l l' : List (Posting α β γ K)} {a : α} {b : β} {k : γ}

@[simp] theorem total_nil : total ([] : List (Posting α β γ K)) a k = 0 := rfl

theorem total_append : total (l ++ l') a k = total l a k + total l' a k := sumWhere_append

variable [DecidableEq β]

/-- What one service of an account has under a component. -/
def subtotal (l : List (Posting α β γ K)) (a : α) (b : β) (k : γ) : K :=
  sumWhere l (fun p => (p.account = a ∧ p.component = k) ∧ p.service = b) (·.value)

@[simp] theorem subtotal_nil : subtotal ([] : List (Posting α β γ K)) a b k = 0 := rfl

theorem subtotal_append :
    subtotal (l ++ l') a b k = subtotal l a b k + subtotal l' a b k := sumWhere_append

end postings

end Ledger
