import Mathlib
import ADPlatform.Lib.Concurrent

/-! # A clock that only moves forward

A semantics whose inputs carry a clock value may be driven by any values at all. `Semantics.clocked`
runs it behind a clock: each step moves the clock to the value of its input, unless the clock is
there already, and the step sees the clock. Every schedule of the clocked semantics is one along
which the time advances by arbitrary amounts. -/

namespace Concurrent
variable {σ : Type u} {ι : Type v} {T : Type w} [LinearOrder T] {Op : Type} {Res : Op → Type}

/-- A shared state beside the clock. -/
structure Clocked (σ : Type u) (T : Type w) where
  shared : σ
  now : T

/-- Where an input carries its clock value. -/
structure ClockField (ι : Type v) (T : Type w) where
  get : ι → T
  set : T → ι → ι

/-- The clock at a step. -/
def Clocked.advance (F : ClockField ι T) (s : Clocked σ T) (input : ι) : T :=
  max s.now (F.get input)

/-- The operations with a clock that only goes forward. -/
def Semantics.clocked (sem : Semantics σ ι Op Res) (F : ClockField ι T) :
    Semantics (Clocked σ T) ι Op Res := fun input op s =>
  (sem (F.set (s.advance F input) input) op s.shared).map fun (shared, r) =>
    ({ shared, now := s.advance F input }, r)

/-- A step of the clocked semantics is one of the semantics, at the clock. -/
theorem clocked_eq_some {sem : Semantics σ ι Op Res} {F : ClockField ι T} {input : ι}
    {op : Op} {s t : Clocked σ T} {r : Res op} (h : sem.clocked F input op s = some (t, r)) :
    sem (F.set t.now input) op s.shared = some (t.shared, r) ∧ t.now = s.advance F input := by
  obtain ⟨⟨shared, r'⟩, hsem, heq⟩ := Option.map_eq_some_iff.mp h
  cases heq
  exact ⟨hsem, rfl⟩

theorem now_le_of_clocked {sem : Semantics σ ι Op Res} {F : ClockField ι T} {input : ι} {op : Op}
    {s t : Clocked σ T} {r : Res op} (h : sem.clocked F input op s = some (t, r)) :
    s.now ≤ t.now := by
  rw [(clocked_eq_some h).2]
  exact le_max_left _ _

end Concurrent
