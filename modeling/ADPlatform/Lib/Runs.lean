import Mathlib.Data.List.Basic

/-! # Runs of atomic calls

A store whose calls are atomic is a function from calls to changes of its state, and what happens
to it is a list of calls. `Always` is about the states of a run, `EachCall` about its steps;
`always_iff_eachCall` leads from one step to whole runs. -/

namespace Runs
variable {σ : Type u} {κ : Type v}

/-- The state after a run. -/
def run (exec : κ → σ → σ) (s : σ) (calls : List κ) : σ := calls.foldl (fun s call => exec call s) s

/-- `P` holds in every state that the run reaches, its first and its last one among them. -/
def Always (exec : κ → σ → σ) (P : σ → Prop) (s : σ) (calls : List κ) : Prop :=
  ∀ before after, calls = before ++ after → P (run exec s before)

/-- Every call of the run is made in a state that `ok` admits it in. -/
def EachCall (exec : κ → σ → σ) (ok : κ → σ → Prop) (s : σ) (calls : List κ) : Prop :=
  ∀ before call after, calls = before ++ call :: after → ok call (run exec s before)

variable {exec : κ → σ → σ} {P I : σ → Prop} {ok : κ → σ → Prop} {s : σ} {call : κ} {calls : List κ}

theorem run_append (calls calls' : List κ) :
    run exec s (calls ++ calls') = run exec (run exec s calls) calls' := by
  rw [run, run, run, List.foldl_append]

theorem Always.last (h : Always exec P s calls) : P (run exec s calls) :=
  h calls [] (List.append_nil calls).symm

theorem always_nil : Always exec P s [] ↔ P s := by
  refine ⟨fun h => h [] [] rfl, fun h before after heq => ?_⟩
  obtain ⟨rfl, -⟩ := List.append_eq_nil_iff.mp heq.symm
  exact h

theorem always_cons : Always exec P s (call :: calls) ↔
    P s ∧ Always exec P (exec call s) calls := by
  constructor
  · intro h
    refine ⟨h [] _ rfl, fun before after heq => ?_⟩
    exact h (call :: before) after (by rw [heq, List.cons_append])
  · rintro ⟨hs, h⟩ before after heq
    cases before with
    | nil => exact hs
    | cons c before =>
      obtain ⟨rfl, hrest⟩ := List.cons.inj heq
      exact h before after hrest

theorem eachCall_nil : EachCall exec ok s [] := by
  intro before call after heq
  simp at heq

theorem eachCall_cons :
    EachCall exec ok s (call :: calls) ↔ ok call s ∧ EachCall exec ok (exec call s) calls := by
  constructor
  · intro h
    refine ⟨h [] call calls rfl, fun before c after heq => ?_⟩
    exact h (call :: before) c after (by rw [heq, List.cons_append])
  · rintro ⟨hs, h⟩ before c after heq
    cases before with
    | nil =>
      obtain ⟨rfl, rfl⟩ := List.cons.inj heq
      exact hs
    | cons c' before =>
      obtain ⟨rfl, hrest⟩ := List.cons.inj heq
      exact h before c after hrest

theorem EachCall.append {calls' : List κ} (h : EachCall exec ok s (calls ++ calls')) :
    EachCall exec ok s calls := by
  intro before call after heq
  exact h before call (after ++ calls') (by rw [heq, List.append_assoc, List.cons_append])

/-- What every call of a run keeps holds at its end. -/
theorem run_induction (hs : P s) (hstep : ∀ call s, P s → ok call s → P (exec call s))
    (hcalls : EachCall exec ok s calls) : P (run exec s calls) := by
  induction calls generalizing s with
  | nil => exact hs
  | cons call calls ih =>
    obtain ⟨hok, hcalls⟩ := eachCall_cons.mp hcalls
    exact ih (hstep call s hs hok) hcalls

/-- What every call keeps holds after every run. -/
theorem run_invariant (hs : P s) (hstep : ∀ call s, P s → P (exec call s)) : P (run exec s calls) :=
  run_induction hs (fun call s h (_ : True) => hstep call s h) fun _ _ _ _ => trivial

/-- Conditions that agree wherever an invariant holds admit the same runs. -/
theorem eachCall_congr {ok' : κ → σ → Prop} (hI : I s) (hinv : ∀ call s, I s → I (exec call s))
    (h : ∀ call s, I s → (ok call s ↔ ok' call s)) :
    EachCall exec ok s calls ↔ EachCall exec ok' s calls := by
  induction calls generalizing s with
  | nil => exact iff_of_true eachCall_nil eachCall_nil
  | cons call calls ih => rw [eachCall_cons, eachCall_cons, h call s hI, ih (hinv call s hI)]

/-- A property that a step keeps exactly where `ok` admits the call holds along exactly the runs
whose calls are all admitted; `lawful` is what is known of the calls of the run. -/
theorem always_iff_eachCall_of {lawful : κ → Prop} (hcalls : ∀ call ∈ calls, lawful call) (hI : I s)
    (hP : P s) (hinv : ∀ call s, lawful call → I s → I (exec call s))
    (hstep : ∀ call s, lawful call → I s → P s → (P (exec call s) ↔ ok call s)) :
    Always exec P s calls ↔ EachCall exec ok s calls := by
  induction calls generalizing s with
  | nil => exact iff_of_true (always_nil.mpr hP) eachCall_nil
  | cons call calls ih =>
    rw [List.forall_mem_cons] at hcalls
    rw [always_cons, eachCall_cons, and_iff_right hP, ← hstep call s hcalls.1 hI hP]
    constructor
    · intro h
      have hnext : P (exec call s) := h [] calls rfl
      exact ⟨hnext, (ih hcalls.2 (hinv call s hcalls.1 hI) hnext).mp h⟩
    · rintro ⟨hnext, h⟩
      exact (ih hcalls.2 (hinv call s hcalls.1 hI) hnext).mpr h

theorem always_iff_eachCall (hI : I s) (hP : P s) (hinv : ∀ call s, I s → I (exec call s))
    (hstep : ∀ call s, I s → P s → (P (exec call s) ↔ ok call s)) :
    Always exec P s calls ↔ EachCall exec ok s calls :=
  have hcalls : ∀ call ∈ calls, (fun _ => True) call := fun _ _ => trivial
  always_iff_eachCall_of hcalls hI hP (fun call s _ => hinv call s) fun call s _ => hstep call s

end Runs
