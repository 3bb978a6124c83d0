import Mathlib.Data.List.Rotate
import ADPlatform.GameCore.Server

/-! # The order of the targets of a tick

A tick that runs out of time leaves out the targets at the end of its list. `rotateCheckerTargets`
keeps the cyclic order of the targets and moves the first place on with every tick, so that over as
many ticks as there are targets each of them is first once (`rotateCheckerTargets_fair`). -/

namespace ADPlatform.GameCore.Server
open List

variable {targets : List CheckerTarget}

theorem rotateCheckerTargets_eq (targets : List CheckerTarget) (tickID : Int) :
    rotateCheckerTargets targets tickID = targets.rotate tickID.natAbs := by
  have hoffset : (tickID.tmod targets.length).natAbs = tickID.natAbs % targets.length := by
    rw [Int.natAbs_tmod, Int.natAbs_natCast]
  unfold rotateCheckerTargets
  rw [hoffset]
  split
  · rename_i hshort
    match targets, hshort with
    | [], _ => rw [rotate_nil]
    | [target], _ => rw [rotate_singleton]
  · dsimp only
    rw [rotate_eq_drop_append_take_mod]
    split
    · rename_i hzero
      rw [hzero, drop_zero, take_zero, append_nil]
    · rfl

/-- The targets that come first in consecutive ticks are those of the list, from one of them on. -/
theorem firsts_eq (targets : List CheckerTarget) (start : Nat) :
    (range' start targets.length).map (fun tickID : Nat =>
      (rotateCheckerTargets targets tickID).head?) =
      (targets.rotate start).map some := by
  refine ext_getElem? fun i => ?_
  rw [getElem?_map, getElem?_map]
  rcases Nat.lt_or_ge i targets.length with hi | hi
  · have hpos : 0 < targets.length := Nat.zero_lt_of_lt hi
    have hplace : (i + start) % targets.length < targets.length := Nat.mod_lt _ hpos
    rw [getElem?_range' hi, Option.map_some, rotateCheckerTargets_eq, Int.natAbs_natCast,
      head?_eq_getElem?,
      getElem?_rotate hpos, getElem?_rotate hi, Nat.zero_add, one_mul, Nat.add_comm start i,
      getElem?_eq_getElem hplace, Option.map_some]
  · rw [getElem?_eq_none (by simpa using hi), getElem?_eq_none (by simpa using hi)]
    rfl

theorem head?_rotateCheckerTargets (start i : Nat) (hi : i < targets.length) :
    (rotateCheckerTargets targets (start + i : Nat)).head? = (targets.rotate start)[i]? := by
  have hfirst := congrArg (·[i]?) (firsts_eq targets start)
  rw [getElem?_map, getElem?_map, getElem?_range' hi, one_mul, Option.map_some,
    getElem?_eq_getElem (by rwa [length_rotate]), Option.map_some, Option.some_inj] at hfirst
  rw [hfirst, getElem?_eq_getElem]

/-- Every tick has the targets in their cyclic order, and over as many consecutive ticks as there
are targets each place of the list is first once, so that each of `n` different targets is. -/
theorem rotateCheckerTargets_fair (targets : List CheckerTarget) :
    (∀ tickID, (rotateCheckerTargets targets tickID).Perm targets ∧
      targets.IsRotated (rotateCheckerTargets targets tickID)) ∧
    (∀ start, ((range' start targets.length).map
      fun tickID : Nat => (rotateCheckerTargets targets tickID).head?).Perm (targets.map some)) ∧
    (targets.Nodup → ∀ start, ∀ target ∈ targets, ∃! tickID : Nat,
      (start ≤ tickID ∧ tickID < start + targets.length) ∧
        (rotateCheckerTargets targets tickID).head? = some target) := by
  refine ⟨fun tickID => ?_, fun start => ?_, fun hnodup start target htarget => ?_⟩
  · rw [rotateCheckerTargets_eq]
    exact ⟨rotate_perm targets _, _, rfl⟩
  · rw [firsts_eq]
    exact (rotate_perm targets start).map some
  · obtain ⟨i, hi, htarget⟩ := mem_iff_getElem.mp (mem_rotate.mpr htarget)
    have hlength : i < targets.length := by rwa [length_rotate] at hi
    refine ⟨start + i, ⟨⟨by omega, by omega⟩, ?_⟩, ?_⟩
    · rw [head?_rotateCheckerTargets start i hlength, getElem?_eq_getElem hi, htarget]
    · rintro tickID ⟨⟨hlow, hhigh⟩, hfirst⟩
      obtain ⟨j, rfl⟩ := Nat.exists_eq_add_of_le hlow
      rw [head?_rotateCheckerTargets start j (by omega), ← htarget,
        ← getElem?_eq_getElem hi] at hfirst
      rw [(getElem?_inj (by rw [length_rotate]; omega) (nodup_rotate.mpr hnodup)).mp hfirst]

/-- The targets of three teams. -/
def threeTargets : List CheckerTarget :=
  [101, 102, 103].map fun teamID =>
    { teamID, teamName := "Team", challengeID := 1, challengeName := "Service",
      target := "10.80.11.11:80"
      checkerImage := "checker" }

/-- Three targets over the ticks 5 to 7. -/
theorem rotateCheckerTargets_fair_three : ∀ target ∈ threeTargets, ∃! tickID : Nat,
    (5 ≤ tickID ∧ tickID < 5 + threeTargets.length) ∧
      (rotateCheckerTargets threeTargets tickID).head? = some target :=
  (rotateCheckerTargets_fair threeTargets).2.2 (by decide) 5

example : (rotateCheckerTargets threeTargets 2).map (·.teamID) = [103, 101, 102] := by decide

end ADPlatform.GameCore.Server
