import Mathlib.Data.List.AList
import Mathlib.Data.List.Perm.Basic
import Mathlib.Data.List.Sort
import Mathlib.Data.Prod.Lex
import Mathlib.Order.Defs.Unbundled

/-! # Maps and slices of a Go program

A Go map is an association list with distinct keys, of which a program sees the entries only
through lookups and through `range` loops. The order in which a loop visits the entries, and where
`sort.Slice` leaves elements that its order does not tell apart, are up to the language runtime:
`Runtime` is one choice of both, and what a program computes is proved for every choice. -/

namespace Go

/-- A map with keys in `κ` and values in `ν`. -/
abbrev Map (κ ν : Type) := AList fun _ : κ => ν

/-- The choices of a language runtime. `range site` is the order in which the loop at `site`
visits the entries of a map. -/
structure Runtime where
  range : {α : Type} → Nat → List α → List α
  range_perm : ∀ {α : Type} (site : Nat) (l : List α), (range site l).Perm l
  sortSlice : {α : Type} → (α → α → Bool) → List α → List α
  sortSlice_perm : ∀ {α : Type} (less : α → α → Bool) (l : List α), (sortSlice less l).Perm l
  sortSlice_sorted : ∀ {α : Type} (less : α → α → Bool) (l : List α),
    IsStrictWeakOrder α (fun a b => less a b = true) →
      (sortSlice less l).Pairwise fun a b => less b a = false

namespace Runtime
variable {α β : Type} [LinearOrder β] {key : α → β} {less : α → α → Bool}

theorem strictWeak_of_key (hless : ∀ a b, less a b = true ↔ key a < key b) :
    IsStrictWeakOrder α fun a b => less a b = true where
  irrefl a h := lt_irrefl _ ((hless a a).mp h)
  trans a b c hab hbc := (hless a c).mpr (((hless a b).mp hab).trans ((hless b c).mp hbc))
  incomp_trans a b c := by
    simp only [hless, not_lt]
    exact fun hab hbc => ⟨hbc.1.trans hab.1, hab.2.trans hbc.2⟩

/-- A slice sorted by a key comes out in the order of the keys. -/
theorem sortSlice_key_sorted (rt : Runtime) (hless : ∀ a b, less a b = true ↔ key a < key b)
    (l : List α) : (rt.sortSlice less l).Pairwise fun a b => key a ≤ key b := by
  refine (rt.sortSlice_sorted less l (strictWeak_of_key hless)).imp fun {a b} h => ?_
  rw [← not_lt, ← hless, h]
  exact Bool.false_ne_true

/-- Where the key tells the elements apart, there is one way to put them in order. -/
theorem eq_of_key_sorted {l l' : List α} (hp : l.Perm l')
    (hinj : ∀ a ∈ l, ∀ b ∈ l, key a = key b → a = b)
    (hl : l.Pairwise fun a b => key a ≤ key b) (hl' : l'.Pairwise fun a b => key a ≤ key b) :
    l = l' :=
  hp.eq_of_pairwise (fun a b ha hb hab hba => hinj a ha b (hp.mem_iff.mpr hb) (hab.antisymm hba))
    hl hl'

/-- The runtime that visits maps in the order `range` and sorts by insertion. -/
def insertion (range : {α : Type} → List α → List α)
    (hrange : ∀ {α : Type} (l : List α), (range l).Perm l) : Runtime where
  range _ := range
  range_perm _ := hrange
  sortSlice less l := l.insertionSort fun a b => less b a = false
  sortSlice_perm less l := List.perm_insertionSort _ l
  sortSlice_sorted {α} less l h := by
    have htotal : Std.Total fun a b : α => less b a = false := ⟨fun a b => by
      by_contra hab
      simp only [not_or, Bool.not_eq_false] at hab
      exact h.irrefl a (h.trans a b a hab.2 hab.1)⟩
    have htrans : IsTrans α fun a b => less b a = false := ⟨fun a b c hba hcb => by
      by_contra hca
      rw [Bool.not_eq_false] at hca
      -- then `b` is on a par with both `a` and `c`, and `a` with `c`
      have hab : ¬less a b = true := fun hab => by simp [h.trans c a b hca hab] at hcb
      have hbc : ¬less b c = true := fun hbc => by simp [h.trans b c a hbc hca] at hba
      exact (h.incomp_trans a b c ⟨hab, by simp [hba]⟩ ⟨hbc, by simp [hcb]⟩).2 hca⟩
    exact List.pairwise_insertionSort _ l

/-- The runtime that visits maps in the order of their entries. -/
def inOrder : Runtime := insertion id fun _ => .refl _

end Runtime

/-- A loop that collects one value at each visit and never fails. -/
theorem mapM_of_total {α β : Type} {f : α → Option β} {g : α → β} {l : List α}
    (h : ∀ a ∈ l, f a = some (g a)) : l.mapM f = some (l.map g) := by
  induction l with
  | nil => rfl
  | cons a l ih => simp [h a (.head _), ih fun b hb => h b (.tail _ hb)]

namespace Map
variable {κ ν α β : Type}

/-- The entries of a map. -/
def pairs (m : Map κ ν) : List (κ × ν) := m.entries.map fun e => (e.1, e.2)

theorem map_fst_pairs (m : Map κ ν) : m.pairs.map (·.1) = m.keys := by
  simp only [pairs, List.map_map]
  rfl

theorem nodup_fst_pairs (m : Map κ ν) : (m.pairs.map (·.1)).Nodup := by
  rw [map_fst_pairs]
  exact m.keys_nodup

theorem nodup_pairs (m : Map κ ν) : m.pairs.Nodup := (nodup_fst_pairs m).of_map _

/-- The number of the entries that `p` holds of. -/
def count (p : κ → ν → Bool) (m : Map κ ν) : Nat := m.pairs.countP fun (k, v) => p k v

/-- Their keys. -/
def keysWith (p : κ → ν → Bool) (m : Map κ ν) : List κ :=
  (m.pairs.filter fun (k, v) => p k v).map (·.1)

theorem length_keysWith (p : κ → ν → Bool) (m : Map κ ν) : (m.keysWith p).length = m.count p := by
  rw [keysWith, List.length_map, count, List.countP_eq_length_filter]

theorem nodup_keysWith (p : κ → ν → Bool) (m : Map κ ν) : (m.keysWith p).Nodup :=
  (nodup_fst_pairs m).sublist (List.filter_sublist.map _)

section count
variable {p p' : κ → ν → Bool} {m m' : Map κ ν} {k : κ}

theorem count_le_length {l : List κ} (h : ∀ k ∈ m.keysWith p, k ∈ l) : m.count p ≤ l.length := by
  rw [← length_keysWith]
  exact (List.subperm_of_subset (nodup_keysWith p m) h).length_le

theorem length_le_count {l : List κ} (hl : l.Nodup) (h : ∀ k ∈ l, k ∈ m.keysWith p) :
    l.length ≤ m.count p := by
  rw [← length_keysWith]
  exact (List.subperm_of_subset hl h).length_le

theorem count_le_count (h : ∀ k ∈ m.keysWith p, k ∈ m'.keysWith p') : m.count p ≤ m'.count p' := by
  rw [← length_keysWith p' m']
  exact count_le_length h

theorem count_lt_count (h : ∀ k ∈ m.keysWith p, k ∈ m'.keysWith p') (hk : k ∈ m'.keysWith p')
    (hnew : k ∉ m.keysWith p) : m.count p < m'.count p' := by
  have hl : (k :: m.keysWith p).length ≤ m'.count p' := by
    refine length_le_count (List.nodup_cons.mpr ⟨hnew, nodup_keysWith p m⟩) fun k' hk' => ?_
    rcases List.mem_cons.mp hk' with rfl | hk'
    · exact hk
    · exact h k' hk'
  rwa [List.length_cons, length_keysWith] at hl

theorem count_pos (h : 0 < m.count p) : ∃ k, k ∈ m.keysWith p := by
  rw [← length_keysWith] at h
  exact List.exists_mem_of_length_pos h

end count

/-- The map after a loop that changes at each visit the entry it is at. -/
def mapValues (f : κ → ν → ν) (m : Map κ ν) : Map κ ν where
  entries := m.entries.map fun e => ⟨e.1, f e.1 e.2⟩
  nodupKeys := by
    have hkeys :
        (m.entries.map fun e => (⟨e.1, f e.1 e.2⟩ : (_ : κ) × ν)).keys = m.entries.keys := by
      simp [List.keys, Function.comp_def]
    rw [List.NodupKeys, hkeys]
    exact m.nodupKeys

theorem count_mapValues (f : κ → ν → ν) (p : κ → ν → Bool) (m : Map κ ν) :
    (m.mapValues f).count p = m.count fun k v => p k (f k v) := by
  simp only [count, pairs, mapValues, List.map_map, List.countP_map]
  rfl

/-- The map without the entries whose keys fail `p`. -/
def filterKeys (p : κ → Bool) (m : Map κ ν) : Map κ ν where
  entries := m.entries.filter fun e => p e.1
  nodupKeys := m.nodupKeys.sublist List.filter_sublist

variable [DecidableEq κ]

/-- The value at `k`, or the zero value. -/
def get (m : Map κ ν) (k : κ) (zero : ν) : ν := (m.lookup k).getD zero

theorem mem_pairs {m : Map κ ν} {k : κ} {v : ν} : (k, v) ∈ m.pairs ↔ m.lookup k = some v := by
  rw [← Option.mem_def, AList.mem_lookup_iff]
  simp only [pairs, List.mem_map, Prod.mk.injEq]
  refine ⟨?_, fun h => ⟨⟨k, v⟩, h, rfl, rfl⟩⟩
  rintro ⟨⟨k', v'⟩, h, rfl, rfl⟩
  exact h

theorem mem_keys {m : Map κ ν} {k : κ} : k ∈ m.keys ↔ (m.lookup k).isSome := by
  rw [AList.lookup_isSome]
  rfl

theorem lookup_mapValues (f : κ → ν → ν) (m : Map κ ν) (k : κ) :
    (m.mapValues f).lookup k = (m.lookup k).map (f k) := by
  refine Option.ext fun v => ?_
  rw [← mem_pairs, Option.map_eq_some_iff]
  simp only [pairs, mapValues, List.mem_map, Prod.mk.injEq]
  constructor
  · rintro ⟨_, ⟨e, he, rfl⟩, rfl, rfl⟩
    exact ⟨e.2, mem_pairs.mp (List.mem_map_of_mem he), rfl⟩
  · rintro ⟨v', hv', rfl⟩
    obtain ⟨e, he, heq⟩ := List.mem_map.mp (mem_pairs.mpr hv')
    cases heq
    exact ⟨_, ⟨e, he, rfl⟩, rfl, rfl⟩

theorem lookup_filterKeys (p : κ → Bool) (m : Map κ ν) (k : κ) :
    (m.filterKeys p).lookup k = if p k then m.lookup k else none := by
  refine Option.ext fun v => ?_
  rw [← mem_pairs]
  have h : (k, v) ∈ (m.filterKeys p).pairs ↔ p k = true ∧ (k, v) ∈ m.pairs := by
    simp only [pairs, filterKeys, List.mem_map, List.mem_filter, Prod.mk.injEq]
    constructor
    · rintro ⟨e, ⟨he, hp⟩, rfl, rfl⟩
      exact ⟨hp, e, he, rfl, rfl⟩
    · rintro ⟨hp, e, he, rfl, rfl⟩
      exact ⟨e, ⟨he, hp⟩, rfl, rfl⟩
  rw [h, mem_pairs]
  split <;> simp [*]

theorem lookup_of_filterKeys {p : κ → Bool} {m : Map κ ν} {k : κ} {v : ν}
    (h : (m.filterKeys p).lookup k = some v) : m.lookup k = some v := by
  rw [lookup_filterKeys] at h
  split at h
  · exact h
  · cases h

theorem lookup_of_erase {m : Map κ ν} {k k' : κ} {v : ν} (h : (m.erase k).lookup k' = some v) :
    m.lookup k' = some v := by
  by_cases hk : k' = k
  · rw [hk, AList.lookup_erase] at h
    cases h
  · rwa [AList.lookup_erase_ne hk] at h

theorem get_erase (m : Map κ ν) (k k' : κ) (zero : ν) :
    Map.get (m.erase k) k' zero = if k' = k then zero else m.get k' zero := by
  unfold get
  split
  · rename_i h
    rw [h, AList.lookup_erase, Option.getD_none]
  · rw [AList.lookup_erase_ne ‹_›]

theorem get_insert (m : Map κ ν) (k k' : κ) (v zero : ν) :
    Map.get (m.insert k v) k' zero = if k' = k then v else m.get k' zero := by
  unfold get
  split
  · rename_i h
    rw [h, AList.lookup_insert, Option.getD_some]
  · rw [AList.lookup_insert_ne ‹_›]

/-- A new key adds an entry. -/
theorem pairs_insert {m : Map κ ν} {k : κ} {v : ν} (h : m.lookup k = none) :
    Map.pairs (m.insert k v) = (k, v) :: m.pairs := by
  simp only [pairs, AList.entries_insert_of_notMem (AList.lookup_eq_none.mp h), List.map_cons]

theorem pairs_insert_erase (m : Map κ ν) (k : κ) (v : ν) :
    Map.pairs (m.insert k v) = (k, v) :: Map.pairs (m.erase k) := rfl

/-- The map that a loop over `l` fills, one entry for each visit. -/
def fill (key : α → κ) (value : α → ν) (l : List α) (m : Map κ ν) : Map κ ν :=
  l.foldl (fun m a => m.insert (key a) (value a)) m

theorem lookup_fill_of_notMem {key : α → κ} {value : α → ν} {l : List α} {m : Map κ ν} {k : κ}
    (h : k ∉ l.map key) : (fill key value l m).lookup k = m.lookup k := by
  induction l generalizing m with
  | nil => rfl
  | cons a l ih =>
    simp only [List.map_cons, List.mem_cons, not_or] at h
    exact (ih h.2).trans (AList.lookup_insert_ne h.1)

theorem lookup_fill_of_mem {key : α → κ} {value : α → ν} {l : List α} {m : Map κ ν} {a : α}
    (hl : (l.map key).Nodup) (h : a ∈ l) :
    (fill key value l m).lookup (key a) = some (value a) := by
  induction l generalizing m with
  | nil => cases h
  | cons b l ih =>
    simp only [List.map_cons, List.nodup_cons] at hl
    rcases List.mem_cons.mp h with rfl | h
    · exact (lookup_fill_of_notMem hl.1).trans (AList.lookup_insert _)
    · exact ih hl.2 h

/-- An entry of a filled map comes from the loop, or was there before. -/
theorem exists_of_lookup_fill {key : α → κ} {value : α → ν} {l : List α} {m : Map κ ν}
    {k : κ} {v : ν}
    (h : (fill key value l m).lookup k = some v) :
    (∃ a ∈ l, key a = k ∧ value a = v) ∨ m.lookup k = some v := by
  induction l generalizing m with
  | nil => exact .inr h
  | cons a l ih =>
    rcases ih h with ⟨b, hb, hkey, hvalue⟩ | hm
    · exact .inl ⟨b, .tail _ hb, hkey, hvalue⟩
    · by_cases hk : k = key a
      · rw [hk, AList.lookup_insert] at hm
        exact .inl ⟨a, .head _, hk.symm, Option.some.inj hm⟩
      · exact .inr ((AList.lookup_insert_ne hk).symm.trans hm)

/-- The keys of a filled map. -/
theorem isSome_lookup_fill {key : α → κ} {value : α → ν} {l : List α} {m : Map κ ν} {k : κ} :
    ((fill key value l m).lookup k).isSome ↔ k ∈ l.map key ∨ (m.lookup k).isSome := by
  induction l generalizing m with
  | nil => simp [fill]
  | cons a l ih =>
    have hstep : fill key value (a :: l) m = fill key value l (m.insert (key a) (value a)) := rfl
    rw [hstep, ih, AList.lookup_isSome, AList.mem_insert, List.map_cons, List.mem_cons,
      AList.lookup_isSome]
    tauto

/-- Writing at a key that is there adds no key. -/
theorem isSome_lookup_insert {m : Map κ ν} {k : κ} (h : (m.lookup k).isSome) (v : ν) (k' : κ) :
    (AList.lookup k' (m.insert k v)).isSome = (m.lookup k').isSome := by
  by_cases hk : k' = k
  · rw [hk, AList.lookup_insert, h]
    rfl
  · rw [AList.lookup_insert_ne hk]

/-- Two lists without duplicates that a map's lookups tell apart alike are the same up to order. -/
theorem pairs_perm {m : Map κ ν} {l : List (κ × ν)} (hl : l.Nodup)
    (h : ∀ k v, (k, v) ∈ l ↔ m.lookup k = some v) : m.pairs.Perm l :=
  (List.perm_ext_iff_of_nodup (nodup_pairs m) hl).mpr fun ⟨k, v⟩ => mem_pairs.trans (h k v).symm

/-- The entry at a key, and the others. -/
theorem pairs_perm_erase {m : Map κ ν} {k : κ} {v : ν} (h : m.lookup k = some v) :
    m.pairs.Perm ((k, v) :: Map.pairs (m.erase k)) := by
  have hk : ∀ v', (k, v') ∉ Map.pairs (m.erase k) := by
    intro v' hmem
    rw [mem_pairs, AList.lookup_erase] at hmem
    cases hmem
  refine pairs_perm (List.nodup_cons.mpr ⟨hk v, nodup_pairs _⟩) fun k' v' => ?_
  rw [List.mem_cons]
  by_cases hne : k' = k
  · subst hne
    rw [h, or_iff_left (hk v'), Prod.mk.injEq, Option.some.injEq]
    exact ⟨fun h => h.2.symm, fun h => ⟨rfl, h.symm⟩⟩
  · rw [mem_pairs, AList.lookup_erase_ne hne, or_iff_right]
    exact fun h => hne (congrArg Prod.fst h)

theorem mem_keysWith {p : κ → ν → Bool} {m : Map κ ν} {k : κ} :
    k ∈ m.keysWith p ↔ ∃ v, m.lookup k = some v ∧ p k v = true := by
  simp only [keysWith, List.mem_map, List.mem_filter, Prod.exists, mem_pairs]
  constructor
  · rintro ⟨k', v, ⟨hv, hp⟩, rfl⟩
    exact ⟨v, hv, hp⟩
  · rintro ⟨v, hv, hp⟩
    exact ⟨k, v, ⟨hv, hp⟩, rfl⟩

/-- No two entries agree on `f`. -/
def DistinctBy (f : ν → β) (m : Map κ ν) : Prop :=
  ∀ k k' v v', m.lookup k = some v → m.lookup k' = some v' → f v = f v' → k = k'

theorem distinctBy_empty {f : ν → β} : DistinctBy f (∅ : Map κ ν) := by
  intro k k' v v' h
  rw [AList.lookup_empty] at h
  cases h

/-- Entries have gone, and the others agree with what they were. -/
theorem DistinctBy.changes {f : ν → β} {m m' : Map κ ν} (h : m.DistinctBy f)
    (hm : ∀ k v, m'.lookup k = some v → ∃ old, m.lookup k = some old ∧ f v = f old) :
    m'.DistinctBy f := by
  intro k k' v v' hk hk' heq
  obtain ⟨old, hold, hf⟩ := hm k v hk
  obtain ⟨old', hold', hf'⟩ := hm k' v' hk'
  exact h k k' old old' hold hold' (by rw [← hf, ← hf', heq])

/-- A new value at a key keeps the entries apart exactly if no other entry agrees with it. -/
theorem distinctBy_insert {f : ν → β} {m : Map κ ν} (h : m.DistinctBy f) (k : κ) (v : ν) :
    DistinctBy f (m.insert k v) ↔ ∀ k' v', k' ≠ k → m.lookup k' = some v' → f v' ≠ f v := by
  constructor
  · intro hd k' v' hne hk' heq
    refine hne (hd k' k v' v ?_ (AList.lookup_insert m) heq)
    rwa [AList.lookup_insert_ne hne]
  · intro hv k₁ k₂ v₁ v₂ h₁ h₂ heq
    by_cases hk₁ : k₁ = k
    · by_cases hk₂ : k₂ = k
      · rw [hk₁, hk₂]
      · rw [hk₁, AList.lookup_insert] at h₁
        rw [AList.lookup_insert_ne hk₂] at h₂
        cases h₁
        exact absurd heq.symm (hv k₂ v₂ hk₂ h₂)
    · rw [AList.lookup_insert_ne hk₁] at h₁
      by_cases hk₂ : k₂ = k
      · rw [hk₂, AList.lookup_insert] at h₂
        cases h₂
        exact absurd heq (hv k₁ v₁ hk₁ h₁)
      · rw [AList.lookup_insert_ne hk₂] at h₂
        exact h k₁ k₂ v₁ v₂ h₁ h₂ heq

end Map

end Go
