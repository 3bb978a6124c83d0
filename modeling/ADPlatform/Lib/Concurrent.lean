import Mathlib.Logic.Basic
import Mathlib.Data.List.Induction

/-! # Threads over a shared state, and rely-guarantee reasoning about them

A `Thread` is the rest of a program: it performs one atomic operation on the shared state at a
time, and whatever the operation answers selects the next thread. A `Machine` holds a shared
state and the threads in flight, and a schedule of labels drives it: requests arrive, and
threads take single steps in any order, so every interleaving is the run of some schedule.

`Contract.Safe` says that a thread keeps an invariant and a guarantee whatever the others do
between its steps, as long as they stay inside the rely. It is monotone along the rely
(`Contract.Safe.mono`), which is the whole non-interference argument, and the run rules
`Contract.Good.run` and `Contract.guar_step` lift it from handlers to all schedules. -/

namespace Concurrent

/-- The rest of a program whose operations `Op` act on a shared state. -/
inductive Thread (Op : Type) (Res : Op → Type) where
  | done
  | call (op : Op) (k : Res op → Thread Op Res)
  | fork (n : Nat) (child : Fin n → Thread Op Res) (k : Thread Op Res)

/-- The thread has ended. -/
def Thread.isDone {Op : Type} {Res : Op → Type} : Thread Op Res → Bool
  | .done => true
  | _ => false

theorem Thread.eq_done_of_isDone {Op : Type} {Res : Op → Type} {t : Thread Op Res}
    (h : t.isDone = true) : t = .done := by
  cases t with
  | done => rfl
  | call | fork => cases h

/-- What one operation does to the shared state under an input of the environment (a clock
value, the outcome of an outside call). `none` means that the operation is blocked. -/
def Semantics (σ : Type u) (ι : Type v) (Op : Type) (Res : Op → Type) :=
  ι → (op : Op) → σ → Option (σ × Res op)

/-- Programs with a result, in continuation-passing form. -/
def Proc (Op : Type) (Res : Op → Type) (α : Type) :=
  (α → Thread Op Res) → Thread Op Res

namespace Proc
variable {Op : Type} {Res : Op → Type} {α : Type}

instance : Monad (Proc Op Res) where
  pure a := fun k => k a
  bind x f := fun k => x fun a => f a k

/-- One atomic operation. -/
def perform (op : Op) : Proc Op Res (Res op) := fun k => .call op k

/-- Run `n` programs as threads of their own, without waiting for them. -/
def forkAll (n : Nat) (child : Fin n → Proc Op Res Unit) : Proc Op Res Unit :=
  fun k => .fork n (fun i => child i fun _ => .done) (k ())

/-- End the thread here, whatever was to follow. -/
def abort : Proc Op Res α := fun _ => .done

/-- A program as a thread; its result is dropped. -/
def toThread (p : Proc Op Res α) : Thread Op Res := p fun _ => .done

end Proc

/-- A shared state and the threads in flight. A finished thread keeps its place. -/
structure Machine (σ : Type u) (Op : Type) (Res : Op → Type) where
  shared : σ
  threads : List (Thread Op Res)

/-- A step of a schedule: a request arrives, or thread `i` takes its next step. -/
inductive Label (ρ : Type u) (ι : Type v) where
  | arrive (request : ρ)
  | step (i : Nat) (input : ι)

namespace Machine
variable {σ : Type u} {ι : Type v} {ρ : Type w} {Op : Type} {Res : Op → Type}

/-- The machine on which nothing has arrived. -/
def boot (s : σ) : Machine σ Op Res := ⟨s, []⟩

/-- One step. A label that names no thread, a finished or a blocked one changes nothing. -/
def step (sem : Semantics σ ι Op Res) (handler : ρ → Thread Op Res) (m : Machine σ Op Res) :
    Label ρ ι → Machine σ Op Res
  | .arrive request => { m with threads := m.threads ++ [handler request] }
  | .step i input =>
    match m.threads[i]? with
    | some (.call op k) =>
      match sem input op m.shared with
      | some (s, r) => { shared := s, threads := m.threads.set i (k r) }
      | none => m
    | some (.fork _ child k) => { m with threads := m.threads.set i k ++ List.ofFn child }
    | _ => m

/-- The machine after a whole schedule. -/
def run (sem : Semantics σ ι Op Res) (handler : ρ → Thread Op Res) :
    Machine σ Op Res → List (Label ρ ι) → Machine σ Op Res
  | m, [] => m
  | m, l :: ls => run sem handler (m.step sem handler l) ls

variable {sem : Semantics σ ι Op Res} {handler : ρ → Thread Op Res}

theorem run_append (m : Machine σ Op Res) (ls ls' : List (Label ρ ι)) :
    m.run sem handler (ls ++ ls') = (m.run sem handler ls).run sem handler ls' := by
  induction ls generalizing m with
  | nil => rfl
  | cons l ls ih => exact ih _

theorem run_concat (m : Machine σ Op Res) (ls : List (Label ρ ι)) (l : Label ρ ι) :
    m.run sem handler (ls ++ [l]) = (m.run sem handler ls).step sem handler l :=
  run_append m ls [l]

/-- What does not hold at first and holds after a schedule came about in one of its steps. -/
theorem run_switch {m : Machine σ Op Res} {P : σ → Prop} (hm : ¬P m.shared)
    {ls : List (Label ρ ι)} (h : P (m.run sem handler ls).shared) :
    ∃ ls₁ l ls₂, ls = ls₁ ++ l :: ls₂ ∧ ¬P (m.run sem handler ls₁).shared ∧
      P (m.run sem handler (ls₁ ++ [l])).shared := by
  induction ls using List.reverseRecOn with
  | nil => exact absurd h hm
  | append_singleton ls l ih =>
    by_cases hP : P (m.run sem handler ls).shared
    · obtain ⟨ls₁, l', ls₂, rfl, h₁, h₂⟩ := ih hP
      exact ⟨ls₁, l', ls₂ ++ [l], by simp, h₁, h₂⟩
    · exact ⟨ls, l, [], rfl, hP, h⟩

end Machine

/-- A rely-guarantee contract. `allowed` restricts the steps that a run may take; it is the
place for a condition under which a program is correct. -/
structure Contract (σ : Type u) (ι : Type v) (Op : Type) (Res : Op → Type) where
  sem : Semantics σ ι Op Res
  inv : σ → Prop
  guar : σ → σ → Prop
  rely : σ → σ → Prop
  allowed : ι → Op → σ → Prop := fun _ _ _ => True
  guar_refl : ∀ s, guar s s
  rely_refl : ∀ s, rely s s
  rely_trans : ∀ {s t u}, rely s t → rely t u → rely s u
  guar_rely : ∀ {s t}, guar s t → rely s t

namespace Contract
variable {σ : Type u} {ι : Type v} {ρ : Type w} {Op : Type} {Res : Op → Type}

/-- Thread `t`, last heard of in state `s`, keeps the invariant and the guarantee at each of
its steps, wherever the others have moved the shared state in the meantime. -/
def Safe (C : Contract σ ι Op Res) : Thread Op Res → σ → Prop
  | .done, _ => True
  | .call op k, s => ∀ s', C.rely s s' → C.inv s' → ∀ input, C.allowed input op s' →
      ∀ t r, C.sem input op s' = some (t, r) → C.inv t ∧ C.guar s' t ∧ C.Safe (k r) t
  | .fork _ child k, s => (∀ i, C.Safe (child i) s) ∧ C.Safe k s

/-- The operation keeps the invariant and the guarantee, whoever performs it. -/
def Keeps (C : Contract σ ι Op Res) (op : Op) : Prop :=
  ∀ input s t r, C.inv s → C.allowed input op s → C.sem input op s = some (t, r) →
    C.inv t ∧ C.guar s t

variable {C : Contract σ ι Op Res}

theorem Safe.mono {t : Thread Op Res} (h : C.Safe t s) (hr : C.rely s s') : C.Safe t s' := by
  induction t with
  | done => trivial
  | call op k _ => exact fun s'' hr' => h s'' (C.rely_trans hr hr')
  | fork n child k ih ihk => exact ⟨fun i => ih i (h.1 i), ihk h.2⟩

/-- Program `p`, started in state `s`, is safe, and ends in a state and with a result of which
`Q` holds, for every continuation that is safe from there. -/
def Meets (C : Contract σ ι Op Res) (p : Proc Op Res α) (s : σ) (Q : α → σ → Prop) : Prop :=
  ∀ k, (∀ a t, C.inv t → C.rely s t → Q a t → C.Safe (k a) t) → C.Safe (p k) s

namespace Meets
variable {p : Proc Op Res α} {f : α → Proc Op Res β} {s : σ}
  {Q : α → σ → Prop} {Q' : β → σ → Prop}

theorem pure (hs : C.inv s) (h : Q a s) : C.Meets (Pure.pure a) s Q :=
  fun _ hk => hk a s hs (C.rely_refl s) h

theorem bind (hp : C.Meets p s Q)
    (hf : ∀ a t, C.inv t → C.rely s t → Q a t → C.Meets (f a) t Q') :
    C.Meets (p >>= f) s Q' := by
  intro k hk
  refine hp _ fun a t ht hr hq => hf a t ht hr hq k fun b u hu hr' hq' => ?_
  exact hk b u hu (C.rely_trans hr hr') hq'

theorem ite {c : Prop} [Decidable c] {q : Proc Op Res α} (hp : c → C.Meets p s Q)
    (hq : ¬c → C.Meets q s Q) : C.Meets (if c then p else q) s Q := by
  split
  · exact hp ‹_›
  · exact hq ‹_›

theorem weaken {Q'' : α → σ → Prop} (hp : C.Meets p s Q)
    (h : ∀ a t, C.inv t → C.rely s t → Q a t → Q'' a t) : C.Meets p s Q'' :=
  fun k hk => hp k fun a t ht hr hq => hk a t ht hr (h a t ht hr hq)

/-- An operation whose effect is within the contract in every state that the rely can lead to
from `s`; `Q` is what the caller learns from its answer. -/
theorem perform {op : Op} {Q : Res op → σ → Prop}
    (h : ∀ s' input t r, C.rely s s' → C.inv s' → C.allowed input op s' →
      C.sem input op s' = some (t, r) → C.inv t ∧ C.guar s' t ∧ Q r t) :
    C.Meets (Proc.perform op) s Q := by
  intro k hk s' hr hs' input hal t r hsem
  obtain ⟨ht, hg, hq⟩ := h s' input t r hr hs' hal hsem
  exact ⟨ht, hg, hk r t ht (C.rely_trans hr (C.guar_rely hg)) hq⟩

theorem abort : C.Meets Proc.abort s Q := fun _ _ => trivial

/-- Forked programs run on their own; the parent goes on at once. -/
theorem forkAll {n : Nat} {child : Fin n → Proc Op Res Unit} {Q : Unit → σ → Prop}
    (hchild : ∀ i, C.Meets (child i) s fun _ _ => True) (hs : C.inv s) (h : Q () s) :
    C.Meets (Proc.forkAll n child) s Q :=
  fun _ hk => ⟨fun i => hchild i _ fun _ _ _ _ _ => trivial, hk () s hs (C.rely_refl s) h⟩

theorem toThread (h : C.Meets p s Q) : C.Safe p.toThread s := h _ fun _ _ _ _ _ => trivial

end Meets

/-- Program `p` is safe from state `s`, and nothing is asked of its result. -/
abbrev Fine (C : Contract σ ι Op Res) (p : Proc Op Res α) (s : σ) : Prop :=
  C.Meets p s fun _ _ => True

namespace Fine
variable {p : Proc Op Res α} {f : α → Proc Op Res β} {s : σ}

theorem pure {a : α} (hs : C.inv s) : C.Fine (Pure.pure a) s := Meets.pure hs trivial

theorem bind (hp : C.Fine p s) (hf : ∀ a t, C.inv t → C.rely s t → C.Fine (f a) t) :
    C.Fine (p >>= f) s :=
  Meets.bind hp fun a t ht hr _ => hf a t ht hr

theorem ite {c : Prop} [Decidable c] {q : Proc Op Res α} (hp : c → C.Fine p s)
    (hq : ¬c → C.Fine q s) : C.Fine (if c then p else q) s :=
  Meets.ite hp hq

/-- The rule for an operation that asks nothing of its caller. -/
theorem perform {op : Op} (h : C.Keeps op) : C.Fine (Proc.perform op) s :=
  Meets.perform fun s' input t r _ hs' hal hsem =>
    let ⟨ht, hg⟩ := h input s' t r hs' hal hsem
    ⟨ht, hg, trivial⟩

end Fine

/-- The invariant of a whole machine. -/
structure Good (C : Contract σ ι Op Res) (m : Machine σ Op Res) : Prop where
  inv : C.inv m.shared
  threads : ∀ t ∈ m.threads, C.Safe t m.shared

/-- The step of a label is one that the contract allows. -/
def StepAllowed (C : Contract σ ι Op Res) (m : Machine σ Op Res) : Label ρ ι → Prop
  | .arrive _ => True
  | .step i input => ∀ op k, m.threads[i]? = some (.call op k) →
      (C.sem input op m.shared).isSome → C.allowed input op m.shared

/-- Every step of a schedule is allowed in the state in which it is taken. -/
def RunAllowed (C : Contract σ ι Op Res) (handler : ρ → Thread Op Res) :
    Machine σ Op Res → List (Label ρ ι) → Prop
  | _, [] => True
  | m, l :: ls => C.StepAllowed m l ∧ C.RunAllowed handler (m.step C.sem handler l) ls

/-- The handlers of a contract are safe to start in every state that has the invariant. -/
def Handles (C : Contract σ ι Op Res) (handler : ρ → Thread Op Res) : Prop :=
  ∀ request s, C.inv s → C.Safe (handler request) s

variable {handler : ρ → Thread Op Res} {m : Machine σ Op Res}

theorem Good.boot (h : C.inv s) : C.Good (Machine.boot s) := ⟨h, fun _ hm => by cases hm⟩

/-- One step keeps the machine good and stays inside the guarantee. -/
theorem Good.step (H : C.Handles handler) (h : C.Good m) {l : Label ρ ι}
    (hl : C.StepAllowed m l) :
    C.Good (m.step C.sem handler l) ∧ C.guar m.shared (m.step C.sem handler l).shared := by
  cases l with
  | arrive request =>
    refine ⟨⟨h.inv, fun t ht => ?_⟩, C.guar_refl _⟩
    rcases List.mem_append.mp ht with ht | ht
    · exact h.threads t ht
    · rw [List.mem_singleton.mp ht]
      exact H request _ h.inv
  | step i input =>
    cases hi : m.threads[i]? with
    | none => simpa [Machine.step, hi] using And.intro h (C.guar_refl m.shared)
    | some t =>
      have hs := h.threads t (List.mem_of_getElem? hi)
      cases t with
      | done => simpa [Machine.step, hi] using And.intro h (C.guar_refl m.shared)
      | fork n child k =>
        simp only [Machine.step, hi]
        refine ⟨⟨h.inv, fun t ht => ?_⟩, C.guar_refl _⟩
        rcases List.mem_append.mp ht with ht | ht
        · rcases List.mem_or_eq_of_mem_set ht with ht | rfl
          · exact h.threads t ht
          · exact hs.2
        · obtain ⟨j, rfl⟩ := List.mem_ofFn.mp ht
          exact hs.1 j
      | call op k =>
        cases hsem : C.sem input op m.shared with
        | none => simpa [Machine.step, hi, hsem] using And.intro h (C.guar_refl m.shared)
        | some out =>
          obtain ⟨s', r⟩ := out
          obtain ⟨hinv, hguar, hk⟩ := hs m.shared (C.rely_refl _) h.inv input
            (hl op k hi (by simp [hsem])) s' r hsem
          simp only [Machine.step, hi, hsem]
          refine ⟨⟨hinv, fun t ht => ?_⟩, hguar⟩
          rcases List.mem_or_eq_of_mem_set ht with ht | rfl
          · exact (h.threads t ht).mono (C.guar_rely hguar)
          · exact hk

/-- A whole allowed run keeps the machine good and stays inside the rely. -/
theorem Good.run (H : C.Handles handler) (h : C.Good m) {ls : List (Label ρ ι)}
    (hls : C.RunAllowed handler m ls) :
    C.Good (m.run C.sem handler ls) ∧ C.rely m.shared (m.run C.sem handler ls).shared := by
  induction ls generalizing m with
  | nil => exact ⟨h, C.rely_refl _⟩
  | cons l ls ih =>
    obtain ⟨h', hg⟩ := h.step H hls.1
    obtain ⟨h'', hr⟩ := ih h' hls.2
    exact ⟨h'', C.rely_trans (C.guar_rely hg) hr⟩

theorem runAllowed_append (ls ls' : List (Label ρ ι)) :
    C.RunAllowed handler m (ls ++ ls') ↔
      C.RunAllowed handler m ls ∧ C.RunAllowed handler (m.run C.sem handler ls) ls' := by
  induction ls generalizing m with
  | nil => exact ⟨fun h => ⟨trivial, h⟩, fun h => h.2⟩
  | cons l ls ih =>
    have := ih (m := m.step C.sem handler l)
    exact ⟨fun h => ⟨⟨h.1, (this.mp h.2).1⟩, (this.mp h.2).2⟩,
      fun h => ⟨h.1.1, this.mpr ⟨h.1.2, h.2⟩⟩⟩

theorem runAllowed_of_forall (h : ∀ input op s, C.allowed input op s) (ls : List (Label ρ ι)) :
    C.RunAllowed handler m ls := by
  induction ls generalizing m with
  | nil => trivial
  | cons l ls ih =>
    refine ⟨?_, ih⟩
    cases l with
    | arrive => trivial
    | step i input => exact fun op k _ _ => h input op _

section checks
variable (C) [∀ input op s, Decidable (C.allowed input op s)] (handler)

/-- `StepAllowed` and `RunAllowed` for a condition that can be checked. -/
def stepChecks (m : Machine σ Op Res) : Label ρ ι → Bool
  | .arrive _ => true
  | .step i input =>
    match m.threads[i]? with
    | some (.call op _) => decide (C.allowed input op m.shared)
    | _ => true

/-- Every step of the run can be taken when its turn comes. -/
def runChecks : Machine σ Op Res → List (Label ρ ι) → Bool
  | _, [] => true
  | m, l :: ls => C.stepChecks m l && runChecks (m.step C.sem handler l) ls

variable {C handler}

theorem stepAllowed_of_checks {l : Label ρ ι} (h : C.stepChecks m l = true) :
    C.StepAllowed m l := by
  cases l with
  | arrive => trivial
  | step i input =>
    intro op k hi _
    simpa [stepChecks, hi] using h

theorem runAllowed_of_checks {ls : List (Label ρ ι)} (h : C.runChecks handler m ls = true) :
    C.RunAllowed handler m ls := by
  induction ls generalizing m with
  | nil => trivial
  | cons l ls ih =>
    obtain ⟨hl, hls⟩ := Bool.and_eq_true_iff.mp h
    exact ⟨stepAllowed_of_checks hl, ih hls⟩

end checks

/-- The invariant holds after every allowed run. -/
theorem inv_run (H : C.Handles handler) (h : C.inv s) {ls : List (Label ρ ι)}
    (hls : C.RunAllowed handler (.boot s) ls) :
    C.inv ((Machine.boot s).run C.sem handler ls).shared :=
  ((Good.boot h).run H hls).1.inv

/-- The guarantee holds of every step of an allowed run. -/
theorem guar_step (H : C.Handles handler) (h : C.inv s) {ls : List (Label ρ ι)} {l : Label ρ ι}
    (hls : C.RunAllowed handler (.boot s) (ls ++ [l])) :
    C.guar ((Machine.boot s).run C.sem handler ls).shared
      ((Machine.boot s).run C.sem handler (ls ++ [l])).shared := by
  obtain ⟨hpre, hl⟩ := (runAllowed_append ls [l]).mp hls
  rw [Machine.run_concat]
  exact (((Good.boot h).run H hpre).1.step H hl.1).2

end Contract

-- Proofs go by the rules of `Meets` and `Fine`; unfolding would run the thread.
attribute [irreducible] Contract.Safe

end Concurrent
