import ADPlatform.Lib.IPAddress

/-! # First-match packet filters

A filter language is reduced to the test and the verdict of each of its rules. A chain gives a
packet the verdict of the first rule that matches it, and no verdict where none does. Chains that
are built block by block are compared block by block (`verdict_flatMap_congr`), and a packet that
concerns one block only is decided by that block (`verdict_flatMap_of_unique`). -/

namespace PacketFilter
open Net (IP)

/-- The protocols that rules ask for. -/
inductive Protocol where
  | tcp | udp | icmp | other (number : Nat)
  deriving DecidableEq, Repr

/-- The states of a packet in connection tracking. -/
inductive CtState where
  | new | established | related | invalid | untracked
  deriving DecidableEq, Repr

/-- A forwarded packet, as far as a filter looks at it. Its addresses are of one family. -/
structure Packet where
  iif : String
  oif : String
  saddr : IP
  daddr : IP
  sameFamily : saddr.isV4 = daddr.isV4 := by rfl
  protocol : Protocol
  sport : Nat
  dport : Nat
  ct : CtState
  deriving DecidableEq, Repr

/-- What a rule decides. -/
inductive Verdict where
  | accept | drop
  deriving DecidableEq, Repr

/-- A rule of any filter language. -/
structure Rule (π : Type u) where
  test : π → Bool
  verdict : Verdict

variable {π : Type u} {α : Type v} {rules rules' : List (Rule π)} {p : π}

/-- The verdict of a chain on a packet. -/
def verdict (rules : List (Rule π)) (p : π) : Option Verdict :=
  (rules.find? (·.test p)).map (·.verdict)

/-- The chain drops the packet; it lets pass what falls off its end. -/
def Drops (rules : List (Rule π)) (p : π) : Prop := verdict rules p = some .drop

instance : Decidable (Drops rules p) := inferInstanceAs (Decidable (_ = _))

@[simp] theorem verdict_nil : verdict [] p = none := rfl

theorem verdict_cons (r : Rule π) : verdict (r :: rules) p =
    if r.test p then some r.verdict else verdict rules p := by
  by_cases h : r.test p
  · simp [verdict, h]
  · simp [verdict, h]

theorem verdict_singleton (r : Rule π) :
    verdict [r] p = if r.test p then some r.verdict else none := verdict_cons r

theorem verdict_append :
    verdict (rules ++ rules') p = (verdict rules p).or (verdict rules' p) := by
  simp [verdict, List.find?_append, Option.map_or]

/-- The verdict of a block that is there on a condition. -/
theorem verdict_map_ite {c : Prop} [Decidable c] {xs : List α} {f : α → Rule π} :
    verdict ((if c then xs else []).map f) p = if c then verdict (xs.map f) p else none := by
  split <;> rfl

/-- A guarded verdict goes before the rest of a chain. -/
theorem guard_or {c : Prop} [Decidable c] {v : Verdict} {o o' : Option Verdict} :
    (if c then some v else o).or o' = if c then some v else o.or o' := by
  split <;> rfl

/-- Two chains with equal verdicts on every block have equal verdicts. -/
theorem verdict_flatMap_congr {xs : List α} {f g : α → List (Rule π)}
    (h : ∀ x ∈ xs, verdict (f x) p = verdict (g x) p) :
    verdict (xs.flatMap f) p = verdict (xs.flatMap g) p := by
  induction xs with
  | nil => rfl
  | cons x xs ih =>
    rw [List.flatMap_cons, List.flatMap_cons, verdict_append, verdict_append, h x (by simp),
      ih fun y hy => h y (by simp [hy])]

/-- A packet that no other block concerns is decided by its block. -/
theorem verdict_flatMap_of_unique {xs : List α} {block : α → List (Rule π)} {x : α} (hx : x ∈ xs)
    (hother : ∀ y ∈ xs, y ≠ x → verdict (block y) p = none) :
    verdict (xs.flatMap block) p = verdict (block x) p := by
  obtain ⟨before, after, rfl⟩ := List.append_of_mem hx
  have hnone : ∀ ys : List α, (∀ y ∈ ys, y ∈ before ++ x :: after) →
      verdict (ys.flatMap block) p = none ∨
        verdict (ys.flatMap block) p = verdict (block x) p := by
    intro ys hys
    induction ys with
    | nil => exact .inl rfl
    | cons y ys ih =>
      rw [List.flatMap_cons, verdict_append]
      have ih := ih fun z hz => hys z (by simp [hz])
      by_cases hy : y = x
      · subst hy
        cases hv : verdict (block y) p with
        | none => rcases ih with ih | ih <;> simp [ih, hv]
        | some v => simp
      · rw [hother y (hys y (by simp)) hy, Option.none_or]
        exact ih
  rw [List.flatMap_append, List.flatMap_cons, verdict_append, verdict_append]
  rcases hnone before (by simp_all) with h | h <;>
    rcases hnone after (by simp_all) with h' | h' <;>
    rw [h, h'] <;> cases verdict (block x) p <;> rfl

/-- The verdict of a block whose every part gives the verdict `v` on its own condition. -/
theorem verdict_flatMap_any {xs : List α} {block : α → List (Rule π)} {f : α → Bool}
    {v : Verdict} (h : ∀ x ∈ xs, verdict (block x) p = if f x then some v else none) :
    verdict (xs.flatMap block) p = if xs.any f then some v else none := by
  induction xs with
  | nil => rfl
  | cons x xs ih =>
    rw [List.flatMap_cons, verdict_append, h x (by simp), ih fun y hy => h y (by simp [hy]),
      List.any_cons]
    by_cases hx : f x
    · simp [hx]
    · simp [hx]

/-- The place of the rule that decides a packet. -/
def decidingRule (rules : List (Rule π)) (p : π) : Option Nat := rules.findIdx? (·.test p)

theorem find?_take {q : α → Bool} (xs : List α) (n : Nat) :
    (xs.take n).find? q = if ∃ i < n, xs.findIdx? q = some i then xs.find? q else none := by
  induction xs generalizing n with
  | nil => simp
  | cons x xs ih =>
    cases n with
    | zero => simp
    | succ n =>
      rw [List.take_succ_cons, List.find?_cons, List.find?_cons, List.findIdx?_cons, ih]
      by_cases h : q x
      · simp [h]
      · simp [h]

/-- The first rules of a chain drop what the chain drops by one of them. -/
theorem drops_take_iff {n : Nat} : Drops (rules.take n) p ↔
    Drops rules p ∧ ∀ i, decidingRule rules p = some i → i < n := by
  rw [Drops, verdict, find?_take, Drops, verdict]
  split
  next h =>
    obtain ⟨i, hi, hidx⟩ := h
    refine ⟨fun hd => ⟨hd, fun j hj => ?_⟩, fun hd => hd.1⟩
    obtain rfl : i = j := Option.some.inj (hidx.symm.trans hj)
    exact hi
  next h =>
    refine ⟨fun hd => by simp at hd, fun hd => ?_⟩
    obtain ⟨r, hr, -⟩ := Option.map_eq_some_iff.mp hd.1
    have hsome : (rules.findIdx? (·.test p)).isSome :=
      List.findIdx?_isSome.trans (List.any_eq_true.mpr ⟨r, List.mem_of_find?_eq_some hr,
        by simpa using List.find?_some hr⟩)
    obtain ⟨i, hi⟩ := Option.isSome_iff_exists.mp hsome
    exact absurd ⟨i, hd.2 i hi, hi⟩ h

/-- What a chain drops it still drops when rules are added after it. -/
theorem Drops.append (h : Drops rules p) : Drops (rules ++ rules') p := by
  rw [Drops] at h ⊢
  rw [verdict_append, h, Option.some_or]

end PacketFilter
