import ADPlatform.Lib.Concurrent

/-! # Transcripts of one thread

What a thread has done is a list of entries: the operations that it performed, with the answers and
the shared states around each. Nothing ties the state behind one entry to the state before the next,
so the other threads may have changed it in any way. `Proc.Yields` says that a program has answered
behind its entries, and the rules of `Proc.Leads` follow a program from one operation to the next.
Entries that end a thread (a panic) are the ones that `can` leaves out. -/

namespace Concurrent
variable {σ : Type u} {ι : Type v} {Op : Type} {Res : Op → Type}

/-- An operation that a thread has performed. -/
structure Entry (σ : Type u) (Op : Type) (Res : Op → Type) where
  before : σ
  op : Op
  answer : Res op
  after : σ

/-- The operation answers and changes the state as the entry says, under some input. -/
def Entry.Happens (sem : Semantics σ ι Op Res) (e : Entry σ Op Res) : Prop :=
  ∃ input, sem input e.op e.before = some (e.after, e.answer)

namespace Thread

/-- The thread performs the entries and goes on as another. -/
inductive Path : Thread Op Res → List (Entry σ Op Res) → Thread Op Res → Prop
  | here (t : Thread Op Res) : Path t [] t
  | call {op : Op} {k : Res op → Thread Op Res} {before after : σ} {answer : Res op}
      {es : List (Entry σ Op Res)} {t : Thread Op Res} (hrest : Path (k answer) es t) :
      Path (.call op k) (⟨before, op, answer, after⟩ :: es) t
  | fork {n : Nat} {child : Fin n → Thread Op Res} {k t : Thread Op Res}
      {es : List (Entry σ Op Res)} (hrest : Path k es t) : Path (.fork n child k) es t

variable {t u v : Thread Op Res} {es es' : List (Entry σ Op Res)}

theorem Path.append (h : t.Path es u) (h' : u.Path es' v) : t.Path (es ++ es') v := by
  induction h with
  | here => exact h'
  | call _ ih => exact .call (ih h')
  | fork _ ih => exact .fork (ih h')

/-- A thread that performs one operation `n` times. -/
def repeated (op : Op) : Nat → Thread Op Res
  | 0 => .done
  | n + 1 => .call op fun _ => repeated op n

theorem Path.length_eq {op : Op} {n : Nat} (h : (repeated op n).Path es .done) : es.length = n := by
  induction n generalizing es with
  | zero =>
    cases h
    rfl
  | succ n ih =>
    cases h with
    | call h => rw [List.length_cons, ih h]

end Thread

namespace Proc
variable {α β : Type} {can : Entry σ Op Res → Prop} {es : List (Entry σ Op Res)}

/-- The program has performed the entries and answers `a`, whatever follows it. -/
def Yields (p : Proc Op Res α) (es : List (Entry σ Op Res)) (a : α) : Prop :=
  ∀ k, (p k).Path es (k a)

/-- Whenever the program has answered, `Q` holds of its answer and entries. -/
def Returns (can : Entry σ Op Res → Prop) (p : Proc Op Res α)
    (Q : α → List (Entry σ Op Res) → Prop) : Prop :=
  ∀ es a, (∀ e ∈ es, can e) → p.Yields es a → Q a es

namespace Yields

theorem pure (a : α) : (Pure.pure a : Proc Op Res α).Yields ([] : List (Entry σ Op Res)) a :=
  fun k => .here (k a)

theorem bind {p : Proc Op Res α} {f : α → Proc Op Res β} {es' : List (Entry σ Op Res)} {a : α}
    {b : β} (hp : p.Yields es a) (hf : (f a).Yields es' b) : (p >>= f).Yields (es ++ es') b :=
  fun k => (hp fun a => f a k).append (hf k)

theorem perform {op : Op} {before after : σ} {answer : Res op} :
    (Proc.perform op).Yields [⟨before, op, answer, after⟩] answer :=
  fun k => .call (.here (k answer))

end Yields

/-- A thread that goes on behind `p` and ends goes on from an answer and entries of which `Q`
holds. -/
def Leads (can : Entry σ Op Res → Prop) (p : Proc Op Res α)
    (Q : α → List (Entry σ Op Res) → Prop) : Prop :=
  ∀ k es, (∀ e ∈ es, can e) → (p k).Path es .done →
    ∃ a es₁ es₂, es = es₁ ++ es₂ ∧ p.Yields es₁ a ∧ Q a es₁ ∧ (k a).Path es₂ .done

namespace Leads
variable {p : Proc Op Res α} {f : α → Proc Op Res β} {Q : α → List (Entry σ Op Res) → Prop}
  {Q' : β → List (Entry σ Op Res) → Prop}

theorem pure {a : α} (h : Q a []) : Leads can (Pure.pure a) Q :=
  fun _ es _ hpath => ⟨a, [], es, rfl, .pure a, h, hpath⟩

theorem bind (hp : Leads can p Q)
    (hf : ∀ a es, Q a es → Leads can (f a) fun b es' => Q' b (es ++ es')) :
    Leads can (p >>= f) Q' := by
  intro k es hes hpath
  obtain ⟨a, es₁, es₂, rfl, hyields, hQ, hpath₂⟩ := hp _ es hes hpath
  have hes₂ : ∀ e ∈ es₂, can e := fun e he => hes e (List.mem_append_right _ he)
  obtain ⟨b, es₃, es₄, rfl, hyields', hQ', hpath₄⟩ := hf a es₁ hQ k es₂ hes₂ hpath₂
  exact ⟨b, es₁ ++ es₃, es₄, (List.append_assoc ..).symm, hyields.bind hyields', hQ', hpath₄⟩

theorem perform {op : Op} {Q : Res op → List (Entry σ Op Res) → Prop}
    (h : ∀ before answer after, can ⟨before, op, answer, after⟩ →
      Q answer [⟨before, op, answer, after⟩]) : Leads can (Proc.perform op) Q := by
  intro k es hes hpath
  cases hpath with
  | @call _ _ before after answer es _ hrest =>
    exact ⟨answer, [⟨before, op, answer, after⟩], es, rfl, .perform,
      h before answer after (hes _ (.head _)), hrest⟩

theorem ite {c : Prop} [Decidable c] {q : Proc Op Res α} (hp : c → Leads can p Q)
    (hq : ¬c → Leads can q Q) : Leads can (if c then p else q) Q := by
  split
  · exact hp ‹_›
  · exact hq ‹_›

theorem weaken {Q'' : α → List (Entry σ Op Res) → Prop} (hp : Leads can p Q)
    (h : ∀ a es, Q a es → Q'' a es) : Leads can p Q'' := by
  intro k es hes hpath
  obtain ⟨a, es₁, es₂, heq, hyields, hQ, hpath₂⟩ := hp k es hes hpath
  exact ⟨a, es₁, es₂, heq, hyields, h a es₁ hQ, hpath₂⟩

/-- A thread that has ended behind the program has its answer. -/
theorem answers (hp : Leads can p Q) (hes : ∀ e ∈ es, can e) (h : p.toThread.Path es .done) :
    ∃ a, p.Yields es a ∧ Q a es := by
  obtain ⟨a, es₁, es₂, rfl, hyields, hQ, hpath⟩ := hp _ es hes h
  cases hpath
  rw [List.append_nil]
  exact ⟨a, hyields, hQ⟩

/-- A thread that goes on for too long behind any other answer, and has ended, has one of these. -/
theorem answers_of {op : Op} {n : Nat} {ends : α → Bool} (hp : Leads can p Q)
    (hes : ∀ e ∈ es, can e)
    (hn : es.length < n) (h : (p fun a => if ends a then .done else .repeated op n).Path es .done) :
    ∃ a, ends a = true ∧ p.Yields es a ∧ Q a es := by
  obtain ⟨a, es₁, es₂, rfl, hyields, hQ, hpath⟩ := hp _ es hes h
  split at hpath
  · rename_i hends
    cases hpath
    rw [List.append_nil]
    exact ⟨a, hends, hyields, hQ⟩
  · have hlength := hpath.length_eq
    rw [List.length_append] at hn
    omega

/-- What a program leads to holds of every answer. -/
theorem returns [Nonempty Op] (hp : Leads can p Q) : p.Returns can Q := by
  classical
  intro es a hes hyields
  obtain ⟨op⟩ := ‹Nonempty Op›
  have hpath : (p fun a' => if decide (a' = a) then .done else .repeated op (es.length + 1)).Path es
      .done := by
    have hyields :=
      hyields fun a' => if decide (a' = a) then .done else .repeated op (es.length + 1)
    rwa [if_pos (decide_eq_true rfl)] at hyields
  obtain ⟨a', ha, -, hQ⟩ := hp.answers_of hes (Nat.lt_succ_self _) hpath
  rwa [of_decide_eq_true ha] at hQ

end Leads

end Proc

/-! ## A thread that runs alone -/

namespace Thread
variable (sem : Semantics σ ι Op Res)

/-- The transcript of a thread that runs alone from a state, with one input for each operation, and
what is left of it. -/
def alone : Thread Op Res → List ι → σ → List (Entry σ Op Res) × Thread Op Res
  | .call op k, input :: inputs, before =>
    match sem input op before with
    | some (after, answer) =>
      let (es, t) := (k answer).alone inputs after
      (⟨before, op, answer, after⟩ :: es, t)
    | none => ([], .call op k)
  | .fork _ _ k, inputs, before => k.alone inputs before
  | t, _, _ => ([], t)

variable {sem} {inputs : List ι} {s : σ}

theorem alone_path (t : Thread Op Res) :
    t.Path (t.alone sem inputs s).1 (t.alone sem inputs s).2 ∧
      ∀ e ∈ (t.alone sem inputs s).1, e.Happens sem := by
  induction t generalizing inputs s with
  | done => exact ⟨.here _, by simp [alone]⟩
  | fork n child k _ ih =>
    obtain ⟨hpath, hes⟩ := @ih inputs s
    exact ⟨.fork hpath, hes⟩
  | call op k ih =>
    cases inputs with
    | nil => exact ⟨.here _, by simp [alone]⟩
    | cons input inputs =>
      cases hsem : sem input op s with
      | none =>
        simp only [alone, hsem]
        exact ⟨.here _, by simp⟩
      | some out =>
        obtain ⟨after, answer⟩ := out
        obtain ⟨hpath, hes⟩ := @ih answer inputs after
        simp only [alone, hsem]
        exact ⟨.call hpath, List.forall_mem_cons.mpr ⟨⟨input, hsem⟩, hes⟩⟩

end Thread

end Concurrent
