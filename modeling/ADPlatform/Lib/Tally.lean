import ADPlatform.Lib.GoMap

/-! # Tallies

A map from keys to counts that is kept beside a collection: it is increased when something is added
and decreased when something is taken out, and a count that gets to zero is deleted. `Tallies` says
that it agrees with the collection. -/

namespace Tally
variable {κ : Type} [DecidableEq κ]

/-- One more under the key. -/
def increment (k : κ) (counts : Go.Map κ Int) : Go.Map κ Int := counts.insert k (counts.get k 0 + 1)

/-- One less under the key; at zero the key is dropped. -/
def decrement (k : κ) (counts : Go.Map κ Int) : Go.Map κ Int :=
  let counts : Go.Map κ Int := counts.insert k (counts.get k 0 - 1)
  if counts.get k 0 = 0 then counts.erase k else counts

/-- The map has the number of occurrences of every key, and no entry for a key without any. -/
def Tallies (counts : Go.Map κ Int) (keys : List κ) : Prop :=
  ∀ k, counts.lookup k = if keys.count k = 0 then none else some (keys.count k : Int)

variable {counts : Go.Map κ Int} {keys keys' : List κ} {k : κ}

theorem tallies_nil : Tallies (∅ : Go.Map κ Int) [] := fun _ => rfl

theorem Tallies.perm (h : Tallies counts keys) (hp : keys.Perm keys') : Tallies counts keys' := by
  intro k
  rw [← hp.count_eq]
  exact h k

theorem Tallies.get (h : Tallies counts keys) (k : κ) : counts.get k 0 = keys.count k := by
  rw [Go.Map.get, h k]
  split
  · rename_i hzero
    rw [hzero]
    rfl
  · rfl

theorem Tallies.increment (h : Tallies counts keys) (k : κ) :
    Tallies (increment k counts) (k :: keys) := by
  intro k'
  by_cases hk : k' = k
  · subst hk
    rw [Tally.increment, AList.lookup_insert, h.get, List.count_cons_self,
      if_neg (Nat.succ_ne_zero _)]
    rfl
  · rw [Tally.increment, AList.lookup_insert_ne hk, h k', List.count_cons_of_ne (Ne.symm hk)]

theorem Tallies.decrement (h : Tallies counts (k :: keys)) : Tallies (decrement k counts) keys := by
  intro k'
  have hget : counts.get k 0 - 1 = keys.count k := by
    rw [h.get, List.count_cons_self]
    omega
  rw [Tally.decrement, hget]
  rw [Go.Map.get_insert, if_pos rfl]
  by_cases hk : k' = k
  · subst hk
    split
    · rename_i hzero
      rw [AList.lookup_erase, if_pos (Int.ofNat_eq_zero.mp hzero)]
    · rename_i hzero
      rw [AList.lookup_insert, if_neg fun h => hzero (Int.ofNat_eq_zero.mpr h)]
  · have hlookup :
        counts.lookup k' = if keys.count k' = 0 then none else some (keys.count k' : Int) := by
      rw [h k', List.count_cons_of_ne (Ne.symm hk)]
    split
    · rw [AList.lookup_erase_ne hk, AList.lookup_insert_ne hk, hlookup]
    · rw [AList.lookup_insert_ne hk, hlookup]

end Tally
