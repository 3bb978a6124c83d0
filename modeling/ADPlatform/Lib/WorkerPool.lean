import Mathlib.Algebra.BigOperators.Group.List.Lemmas
import Mathlib.Data.Multiset.Range
import Mathlib.Tactic.Abel
import ADPlatform.Lib.Roles

/-! # Workers behind a channel of indices

One thread hands out the indices below `n` over a channel, closes it and waits; workers take indices
from the channel and deal with one after the other until it is closed and empty. `Accounts` is what
holds of them at any time: every index that was handed out is in the channel, with a worker,
finished or skipped, and the number that the waiting thread looks at is that of the workers at
work. -/

namespace WorkerPool
open Concurrent

/-- Where a worker stands. The fuel is the number of further indices that it can take. -/
inductive Place where
  | idle (fuel : Nat)
  | holding (fuel index : Nat)
  | leaving
  | left
  /-- not a worker -/
  | other

namespace Place

/-- The index that a worker holds. -/
def held : Place → Multiset Nat
  | holding _ index => {index}
  | _ => 0

/-- A worker that has not left counts as one. -/
def active : Place → Nat
  | idle _ | holding .. | leaving => 1
  | left | other => 0

/-- A worker counts as one, any other thread as none. -/
def worker : Place → Nat
  | other => 0
  | _ => 1

/-- How many more indices a worker may ask for. -/
def fuel? : Place → Option Nat
  | idle fuel | holding fuel _ => some fuel
  | _ => none

/-- The worker has found the channel closed. -/
def gone : Place → Bool
  | leaving | left => true
  | _ => false

end Place

/-- The index in the channel. -/
def slotIndices : Option Nat → Multiset Nat
  | some index => {index}
  | none => 0

/-- The indices below `next` have been handed out, and each of them is accounted for. -/
structure Accounts (n next : Nat) (slot : Option Nat) (closed : Bool) (pending : Nat)
    (places : List Place) (finished skipped : Multiset Nat) : Prop where
  indices : slotIndices slot + (places.map Place.held).sum + finished + skipped =
    Multiset.range next
  pending_eq : pending = (places.map Place.active).sum
  workers_pos : 0 < (places.map Place.worker).sum
  bound : next ≤ n
  fuel : ∀ place ∈ places, ∀ fuel, place.fuel? = some fuel →
    n + (slotIndices slot).card < fuel + next
  gone : ∀ place ∈ places, place.gone = true → closed = true ∧ slot = none

section Set
variable {α : Type} {l : List α} {i : Nat} {a : α}

/-- How a sum over all threads changes when one of them moves. -/
theorem sum_map_set {M : Type} [AddCommMonoid M] (f : α → M) (h : l[i]? = some a) (b : α) :
    f a + ((l.set i b).map f).sum = f b + (l.map f).sum := by
  have hperm := ((perm_cons_set h b).map f).sum_eq
  rwa [List.map_cons, List.map_cons, List.sum_cons, List.sum_cons] at hperm

theorem set_same (h : l[i]? = some a) : l.set i a = l := by
  obtain ⟨hi, rfl⟩ := List.getElem?_eq_some_iff.mp h
  exact List.set_getElem_self hi

theorem map_set_of_eq {β : Type} (f : α → β) (h : l[i]? = some a) {b : α} (hab : f b = f a) :
    (l.set i b).map f = l.map f := by
  induction l generalizing i with
  | nil => rfl
  | cons x l ih =>
    cases i with
    | zero =>
      obtain rfl := Option.some.inj h
      rw [List.set_cons_zero, List.map_cons, List.map_cons, hab]
    | succ i => rw [List.set_cons_succ, List.map_cons, List.map_cons, ih h]

end Set

namespace Accounts
variable {n next pending i fuel index : Nat} {slot : Option Nat} {closed : Bool}
  {places : List Place}
  {finished skipped : Multiset Nat}

/-- Nothing has been handed out yet. -/
theorem start (h : 0 < pending) (hother : ∀ place ∈ places, place = .other) :
    Accounts n 0 none false pending (places ++ List.replicate pending (.idle (n + 1))) 0 0 := by
  have hzero : ∀ {M : Type} [AddCommMonoid M] (f : Place → M), f .other = 0 →
      (places.map f).sum = 0 := by
    intro M _ f hf
    refine List.sum_eq_zero fun x hx => ?_
    obtain ⟨place, hplace, rfl⟩ := List.mem_map.mp hx
    rw [hother place hplace, hf]
  refine ⟨?_, ?_, ?_, n.zero_le, fun place hplace f hf => ?_, fun place hplace hgone => ?_⟩
  · simp [slotIndices, hzero Place.held rfl, Place.held]
  · simp [hzero Place.active rfl, Place.active]
  · simpa [hzero Place.worker rfl, Place.worker] using h
  · rcases List.mem_append.mp hplace with hplace | hplace
    · rw [hother place hplace] at hf
      cases hf
    · rw [List.eq_of_mem_replicate hplace] at hf
      obtain rfl := Option.some.inj hf
      simp [slotIndices]
  · rcases List.mem_append.mp hplace with hplace | hplace
    · rw [hother place hplace] at hgone
      cases hgone
    · rw [List.eq_of_mem_replicate hplace] at hgone
      cases hgone

/-- An index is handed out. -/
theorem send (h : Accounts n next none false pending places finished skipped) (hnext : next < n) :
    Accounts n (next + 1) (some next) false pending places finished skipped := by
  refine ⟨?_, h.pending_eq, h.workers_pos, hnext, fun place hplace f hf =>
    ?_, fun place hplace hgone => ?_⟩
  · rw [Multiset.range_succ, ← h.indices, slotIndices, slotIndices, zero_add,
      ← Multiset.singleton_add]
    simp only [add_assoc]
  · have hfuel := h.fuel place hplace f hf
    simp only [slotIndices, Multiset.card_zero, Multiset.card_singleton] at hfuel ⊢
    omega
  · exact absurd (h.gone place hplace hgone).1 (by simp)

theorem close (h : Accounts n next slot closed pending places finished skipped) :
    Accounts n next slot true pending places finished skipped :=
  ⟨h.indices, h.pending_eq, h.workers_pos, h.bound, h.fuel,
    fun place hplace hgone => ⟨rfl, (h.gone place hplace hgone).2⟩⟩

/-- A worker moves from one place to another. -/
theorem move (h : Accounts n next slot closed pending places finished skipped)
    {place place' : Place}
    (hi : places[i]? = some place) {slot' : Option Nat} {pending' : Nat}
    {finished' skipped' : Multiset Nat}
    (hindices : slotIndices slot' + place'.held + finished' + skipped' =
      slotIndices slot + place.held + finished + skipped)
    (hactive : pending' + place.active = pending + place'.active)
    (hworker : place'.worker = place.worker)
    (hfuel : ∀ f, place'.fuel? = some f → n + (slotIndices slot').card < f + next)
    (hslot : (slotIndices slot').card ≤ (slotIndices slot).card)
    (hgone : place'.gone = true → closed = true ∧ slot' = none)
    (hempty : slot = none → slot' = none) :
    Accounts n next slot' closed pending' (places.set i place') finished' skipped' := by
  refine ⟨?_, ?_, ?_, h.bound, fun p hp f hf => ?_, fun p hp hpgone => ?_⟩
  · have hsum := sum_map_set Place.held hi place'
    -- what the worker held before is added on both sides
    refine add_right_cancel (b := place.held) ?_
    calc slotIndices slot' + ((places.set i place').map Place.held).sum + finished' + skipped' +
        place.held
      _ = slotIndices slot' + (place.held + ((places.set i place').map Place.held).sum) +
        finished' + skipped' := by abel
      _ = (slotIndices slot' + place'.held + finished' + skipped') +
        (places.map Place.held).sum := by
        rw [hsum]
        abel
      _ = (slotIndices slot + (places.map Place.held).sum + finished + skipped) + place.held := by
        rw [hindices]
        abel
      _ = Multiset.range next + place.held := by rw [h.indices]
  · have hsum := sum_map_set Place.active hi place'
    have hold := h.pending_eq
    omega
  · rw [map_set_of_eq Place.worker hi hworker]
    exact h.workers_pos
  · rcases List.mem_or_eq_of_mem_set hp with hp | rfl
    · have hold := h.fuel p hp f hf
      omega
    · exact hfuel f hf
  · rcases List.mem_or_eq_of_mem_set hp with hp | rfl
    · obtain ⟨hclosed, hnone⟩ := h.gone p hp hpgone
      exact ⟨hclosed, hempty hnone⟩
    · exact hgone hpgone

theorem receive (h : Accounts n next (some index) closed pending places finished skipped)
    (hi : places[i]? = some (.idle (fuel + 1))) :
    Accounts n next none closed pending (places.set i (.holding fuel index)) finished skipped := by
  have hfuel := h.fuel _ (List.mem_of_getElem? hi) _ rfl
  simp only [slotIndices, Multiset.card_singleton] at hfuel
  refine h.move hi (by simp [slotIndices, Place.held]) rfl rfl ?_ (by simp [slotIndices]) (by
    simp [Place.gone])
    fun _ => rfl
  rintro f ⟨⟩
  simp only [slotIndices, Multiset.card_zero]
  omega

/-- A worker that finds the channel closed and empty is about to leave. -/
theorem leave (h : Accounts n next none true pending places finished skipped)
    (hi : places[i]? = some (.idle fuel)) :
    Accounts n next none true pending (places.set i .leaving) finished skipped :=
  h.move hi rfl rfl rfl (by simp [Place.fuel?]) le_rfl (fun _ => ⟨rfl, rfl⟩) id

theorem finish (h : Accounts n next slot closed pending places finished skipped)
    (hi : places[i]? = some (.holding fuel index)) :
    Accounts n next slot closed pending (places.set i (.idle fuel)) (index ::ₘ finished)
      skipped := by
  refine h.move hi ?_ rfl rfl (h.fuel (.holding fuel index) (List.mem_of_getElem? hi)) le_rfl
    (by simp [Place.gone]) id
  rw [← Multiset.singleton_add]
  simp only [Place.held, add_zero, add_assoc]

theorem skip (h : Accounts n next slot closed pending places finished skipped)
    (hi : places[i]? = some (.holding fuel index)) :
    Accounts n next slot closed pending (places.set i (.idle fuel)) finished
      (index ::ₘ skipped) := by
  refine h.move hi ?_ rfl rfl (h.fuel (.holding fuel index) (List.mem_of_getElem? hi)) le_rfl
    (by simp [Place.gone]) id
  rw [← Multiset.singleton_add]
  simp only [Place.held]
  abel

theorem done (h : Accounts n next slot closed pending places finished skipped)
    (hi : places[i]? = some .leaving) :
    Accounts n next slot closed (pending - 1) (places.set i .left) finished skipped := by
  have hsum := sum_map_set Place.active hi .left
  have hpending := h.pending_eq
  refine h.move hi rfl ?_ rfl (by simp [Place.fuel?]) le_rfl
    (fun _ => h.gone _ (List.mem_of_getElem? hi) rfl) id
  simp only [Place.active] at hsum ⊢
  omega

/-- Threads that are no workers do not count. -/
theorem append_other (h : Accounts n next slot closed pending places finished skipped) :
    Accounts n next slot closed pending (places ++ [.other]) finished skipped := by
  refine ⟨?_, ?_, ?_, h.bound, fun place hplace f hf => ?_, fun place hplace hgone => ?_⟩
  · simpa [Place.held] using h.indices
  · simpa [Place.active] using h.pending_eq
  · simpa [Place.worker] using h.workers_pos
  · rcases List.mem_append.mp hplace with hplace | hplace
    · exact h.fuel place hplace f hf
    · rw [List.mem_singleton.mp hplace] at hf
      cases hf
  · rcases List.mem_append.mp hplace with hplace | hplace
    · exact h.gone place hplace hgone
    · rw [List.mem_singleton.mp hplace] at hgone
      cases hgone

/-! ### What the accounts say -/

/-- A worker with no fuel left would have taken more indices than there are. -/
theorem fuel_pos (h : Accounts n next slot closed pending places finished skipped)
    (hi : places[i]? = some (.idle fuel)) : 0 < fuel := by
  have hfuel := h.fuel _ (List.mem_of_getElem? hi) fuel rfl
  have hbound := h.bound
  omega

/-- The index that a worker holds is below the bound, and nobody has dealt with it before. -/
theorem index_lt (h : Accounts n next slot closed pending places finished skipped)
    (hi : places[i]? = some (.holding fuel index)) : index < n ∧ index ∉ finished := by
  have hsum := sum_map_set Place.held hi .left
  have hrange : Multiset.range next = {index} + (slotIndices slot +
      ((places.set i .left).map Place.held).sum + finished + skipped) := by
    rw [← h.indices]
    simp only [Place.held, zero_add] at hsum
    rw [← hsum]
    abel
  have hnodup := hrange ▸ Multiset.nodup_range next
  have hmem : index ∈ Multiset.range next := by
    rw [hrange]
    exact Multiset.mem_add.mpr (.inl (Multiset.mem_singleton_self index))
  refine ⟨(Multiset.mem_range.mp hmem).trans_le h.bound, fun hfinished => ?_⟩
  rw [Multiset.singleton_add, Multiset.nodup_cons] at hnodup
  exact hnodup.1 (by simp [hfinished])

/-- Where the channel is full, or the waiting thread has to wait, there is a worker at work. -/
theorem exists_active (h : Accounts n next slot closed pending places finished skipped)
    (hwork : slot ≠ none ∨ pending ≠ 0) : ∃ place ∈ places, place.active = 1 := by
  by_contra hnone
  have hidle : ∀ place ∈ places, place.active = 0 := by
    intro place hplace
    have hne : place.active ≠ 1 := fun hactive => hnone ⟨place, hplace, hactive⟩
    cases place <;> first | rfl | exact absurd rfl hne
  have hpending : pending = 0 := by
    rw [h.pending_eq, List.sum_eq_zero]
    intro x hx
    obtain ⟨place, hplace, rfl⟩ := List.mem_map.mp hx
    exact hidle place hplace
  -- some worker exists, and it has left an empty channel
  have hleft : ∃ place ∈ places, place.worker ≠ 0 := by
    by_contra hno
    refine absurd (List.sum_eq_zero fun x hx => ?_) h.workers_pos.ne'
    obtain ⟨place, hplace, rfl⟩ := List.mem_map.mp hx
    exact not_not.mp fun hworker => hno ⟨place, hplace, hworker⟩
  obtain ⟨place, hplace, hworker⟩ := hleft
  have hactive := hidle place hplace
  have hslot : slot = none := by
    cases place with
    | left => exact (h.gone _ hplace rfl).2
    | other => exact absurd rfl hworker
    | idle | holding | leaving => cases hactive
  exact hwork.elim (fun hne => hne hslot) fun hne => hne hpending

/-- A worker at work counts. -/
theorem pending_pos (h : Accounts n next slot closed pending places finished skipped)
    {place : Place} (hplace : place ∈ places) (hactive : place.active = 1) : 0 < pending := by
  have hle := List.single_le_sum (fun x _ => Nat.zero_le x) _
    (List.mem_map_of_mem (f := Place.active) hplace)
  rw [← h.pending_eq, hactive] at hle
  omega

/-- When no worker is left, every index that was handed out is finished or skipped. -/
theorem settled (h : Accounts n next slot closed 0 places finished skipped) :
    finished + skipped = Multiset.range next := by
  have hnone : ∀ place ∈ places, place.active ≠ 1 :=
    fun place hplace hactive => absurd (h.pending_pos hplace hactive) (by simp)
  have hslot : slot = none := by
    by_contra hne
    obtain ⟨place, hplace, hactive⟩ := h.exists_active (.inl hne)
    exact hnone place hplace hactive
  have hheld : (places.map Place.held).sum = 0 := by
    refine List.sum_eq_zero fun x hx => ?_
    obtain ⟨place, hplace, rfl⟩ := List.mem_map.mp hx
    cases place with
    | holding => exact absurd rfl (hnone _ hplace)
    | _ => rfl
  have hindices := h.indices
  rwa [hheld, hslot, slotIndices, zero_add, zero_add] at hindices

end Accounts

end WorkerPool
