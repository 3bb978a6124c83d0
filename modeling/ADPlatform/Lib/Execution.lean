import ADPlatform.Lib.Concurrent

/-! # Whole executions of one thread

`Execution` relates the states in which one thread starts and ends, with the operations it performs
in between. Other threads may move the shared state by `rely` before each of its steps. `Proc.After`
is the rule of consequence for programs: whatever execution the rest of a thread takes, it takes
from a state and an answer that the program left behind. -/

namespace Concurrent
variable {σ : Type u} {ι : Type v} {Op : Type} {Res : Op → Type}

/-- What an execution may rely on: the steps of other threads, and the inputs of the environment. -/
structure Surroundings (σ : Type u) (ι : Type v) (Op : Type) (Res : Op → Type) where
  sem : Semantics σ ι Op Res
  rely : σ → σ → Prop
  input : ι → Prop

/-- The thread ends, with the operations it has performed. -/
inductive Execution (E : Surroundings σ ι Op Res) : Thread Op Res → σ → List Op → σ → Prop
  | done {s t : σ} (hrely : E.rely s t) : Execution E .done s [] t
  | call {op : Op} {k : Res op → Thread Op Res} {s s₁ s₂ t : σ} {input : ι} {r : Res op}
      {ops : List Op} (hrely : E.rely s s₁) (hinput : E.input input)
      (hsem : E.sem input op s₁ = some (s₂, r)) (hrest : Execution E (k r) s₂ ops t) :
      Execution E (.call op k) s (op :: ops) t

namespace Proc
variable {E : Surroundings σ ι Op Res} {α β : Type}

/-- Every execution that goes on behind the program `p`, started in state `s`, goes on from an
answer, operations and a state of which `Q` holds. -/
def After (E : Surroundings σ ι Op Res) (p : Proc Op Res α) (s : σ)
    (Q : α → List Op → σ → Prop) : Prop :=
  ∀ k ops t, Execution E (p k) s ops t →
    ∃ a ops₁ ops₂ s', ops = ops₁ ++ ops₂ ∧ Q a ops₁ s' ∧ Execution E (k a) s' ops₂ t

namespace After
variable {p : Proc Op Res α} {f : α → Proc Op Res β} {s : σ} {Q : α → List Op → σ → Prop}
  {Q' : β → List Op → σ → Prop}

theorem pure {a : α} (h : Q a [] s) : After E (Pure.pure a) s Q :=
  fun _ ops _ hrun => ⟨a, [], ops, s, rfl, h, hrun⟩

theorem bind (hp : After E p s Q)
    (hf : ∀ a ops s', Q a ops s' → After E (f a) s' fun b ops' => Q' b (ops ++ ops')) :
    After E (p >>= f) s Q' := by
  intro k ops t hrun
  obtain ⟨a, ops₁, ops₂, s', rfl, hQ, hrun⟩ := hp _ _ _ hrun
  obtain ⟨b, ops₃, ops₄, s'', rfl, hQ', hrun⟩ := hf a ops₁ s' hQ _ _ _ hrun
  exact ⟨b, ops₁ ++ ops₃, ops₄, s'', by rw [List.append_assoc], hQ', hrun⟩

theorem perform {op : Op} {Q : Res op → List Op → σ → Prop}
    (h : ∀ s₁ input s₂ r, E.rely s s₁ → E.input input → E.sem input op s₁ = some (s₂, r) →
      Q r [op] s₂) : After E (Proc.perform op) s Q := by
  intro k ops t hrun
  cases hrun with
  | call hrely hinput hsem hrest =>
    exact ⟨_, [op], _, _, rfl, h _ _ _ _ hrely hinput hsem, hrest⟩

theorem ite {c : Prop} [Decidable c] {q : Proc Op Res α} (hp : c → After E p s Q)
    (hq : ¬c → After E q s Q) : After E (if c then p else q) s Q := by
  split
  · exact hp ‹_›
  · exact hq ‹_›

theorem weaken {Q'' : α → List Op → σ → Prop} (hp : After E p s Q)
    (h : ∀ a ops s', Q a ops s' → Q'' a ops s') : After E p s Q'' := by
  intro k ops t hrun
  obtain ⟨a, ops₁, ops₂, s', heq, hQ, hrun⟩ := hp k ops t hrun
  exact ⟨a, ops₁, ops₂, s', heq, h a ops₁ s' hQ, hrun⟩

/-- What holds when the thread of a program has ended. -/
theorem toThread (hp : After E p s Q) {ops : List Op} {t : σ}
    (hrun : Execution E p.toThread s ops t) : ∃ a s', Q a ops s' ∧ E.rely s' t := by
  obtain ⟨a, ops₁, ops₂, s', rfl, hQ, hrun⟩ := hp _ _ _ hrun
  cases hrun with
  | done hrely =>
    rw [List.append_nil]
    exact ⟨a, s', hQ, hrely⟩

end After

/-- A program that can always go on to its end, from every state. -/
def Terminates (E : Surroundings σ ι Op Res) (p : Proc Op Res α) : Prop :=
  ∀ k, (∀ a s, ∃ ops t, Execution E (k a) s ops t) → ∀ s, ∃ ops t, Execution E (p k) s ops t

namespace Terminates
variable {p : Proc Op Res α} {f : α → Proc Op Res β}

theorem pure {a : α} : Terminates E (Pure.pure a) := fun _ hk s => hk a s

theorem bind (hp : Terminates E p) (hf : ∀ a, Terminates E (f a)) : Terminates E (p >>= f) :=
  fun k hk => hp _ fun a s => hf a k hk s

theorem perform {op : Op} (h : ∀ s, ∃ s₁ input s₂ r, E.rely s s₁ ∧ E.input input ∧
    E.sem input op s₁ = some (s₂, r)) : Terminates E (Proc.perform op) := by
  intro k hk s
  obtain ⟨s₁, input, s₂, r, hrely, hinput, hsem⟩ := h s
  obtain ⟨ops, t, hrest⟩ := hk r s₂
  exact ⟨op :: ops, t, .call hrely hinput hsem hrest⟩

theorem ite {c : Prop} [Decidable c] {q : Proc Op Res α} (hp : c → Terminates E p)
    (hq : ¬c → Terminates E q) : Terminates E (if c then p else q) := by
  split
  · exact hp ‹_›
  · exact hq ‹_›

theorem abort (hrefl : ∀ s, E.rely s s) : Terminates E (Proc.abort : Proc Op Res α) :=
  fun _ _ s => ⟨[], s, .done (hrefl s)⟩

theorem toThread (hp : Terminates E p) (hrefl : ∀ s, E.rely s s) (s : σ) :
    ∃ ops t, Execution E p.toThread s ops t :=
  hp _ (fun _ s => ⟨[], s, .done (hrefl s)⟩) s

end Terminates

end Proc

/-! ## The operations of a program -/

/-- Whatever it is answered, the thread performs operations of `ok` only. -/
def Thread.Only {Op : Type} {Res : Op → Type} (ok : Op → Prop) : Thread Op Res → Prop
  | .done => True
  | .call op k => ok op ∧ ∀ r, (k r).Only ok
  | .fork _ child k => (∀ i, (child i).Only ok) ∧ k.Only ok

theorem Execution.only {Op : Type} {Res : Op → Type} {E : Surroundings σ ι Op Res}
    {thread : Thread Op Res} {s t : σ} {ops : List Op} {ok : Op → Prop}
    (h : Execution E thread s ops t) (hok : thread.Only ok) : ∀ op ∈ ops, ok op := by
  induction h with
  | done => exact nofun
  | call hrely hinput hsem hrest ih =>
    intro op hop
    rcases List.mem_cons.mp hop with rfl | hop
    · exact hok.1
    · exact ih (hok.2 _) op hop

namespace Proc
variable {α β : Type} {ok : Op → Prop}

/-- Whatever it is answered, the program performs operations of `ok` only. -/
def Only (ok : Op → Prop) (p : Proc Op Res α) : Prop := ∀ k, (∀ a, (k a).Only ok) → (p k).Only ok

namespace Only
variable {p q : Proc Op Res α} {f : α → Proc Op Res β}

theorem pure {a : α} : Only ok (Pure.pure a : Proc Op Res α) := fun _ hk => hk a

theorem bind (hp : Only ok p) (hf : ∀ a, Only ok (f a)) : Only ok (p >>= f) :=
  fun k hk => hp _ fun a => hf a k hk

theorem perform {op : Op} (h : ok op) : Only ok (Proc.perform op : Proc Op Res (Res op)) :=
  fun _ hk => ⟨h, hk⟩

theorem ite {c : Prop} [Decidable c] (hp : Only ok p) (hq : Only ok q) :
    Only ok (if c then p else q) := by
  split
  · exact hp
  · exact hq

theorem toThread (hp : Only ok p) : p.toThread.Only ok := hp _ fun _ => trivial

end Only

end Proc

-- The rules of `Proc.Only` say all that a proof needs; unfolding would run the thread.
attribute [irreducible] Thread.Only

end Concurrent
