import Mathlib
import ADPlatform.Lib.Concurrent

/-! # Programs that nobody disturbs

`Solo.Along` follows one thread through all answers that it may get, as long as no other thread
touches the state in between. A thread runs so when it is the only one (`Solo.Along.exec`), and
also inside a critical section: `CriticalSection.Good.run` shows for all schedules that at most one
thread is inside and that what holds along that thread alone holds in the machine. -/

namespace Concurrent
variable {σ : Type u} {ι : Type v} {ρ : Type w} {Op : Type} {Res : Op → Type}

/-- A thread by itself, one input of the environment for each of its operations. -/
def Thread.exec (sem : Semantics σ ι Op Res) : List ι → Thread Op Res → σ → Thread Op Res × σ
  | input :: inputs, .call op k, s =>
    match sem input op s with
    | some (s', r) => exec sem inputs (k r) s'
    | none => exec sem inputs (.call op k) s
  | _, t, s => (t, s)

/-- A semantics, the steps to consider, the operations that a thread may use and an invariant. -/
structure Solo (σ : Type u) (ι : Type v) (Op : Type) (Res : Op → Type) where
  sem : Semantics σ ι Op Res
  allowed : ι → Op → σ → Prop := fun _ _ _ => True
  own : Op → Prop := fun _ => True
  inv : σ → Prop := fun _ => True

namespace Solo

/-- The invariant holds wherever thread `t` gets from state `s`, until `last` holds. -/
def Along (C : Solo σ ι Op Res) (last : Thread Op Res → σ → Prop) : Thread Op Res → σ → Prop
  | .done, s => last .done s
  | .call op k, s => last (.call op k) s ∨ (C.own op ∧ C.inv s) ∧ ∀ input s' r,
      C.allowed input op s → C.sem input op s = some (s', r) → C.Along last (k r) s'
  | .fork n child k, s => last (.fork n child k) s

variable {C : Solo σ ι Op Res} {last : Thread Op Res → σ → Prop} {t : Thread Op Res} {s : σ}

theorem Along.of_last (h : last t s) : C.Along last t s := by
  cases t with
  | done => exact h
  | call op k => exact .inl h
  | fork n child k => exact h

/-- The invariant of a thread by itself holds after every sequence of inputs. -/
theorem Along.exec (hal : ∀ input op s, C.allowed input op s)
    (h : C.Along (fun t s => t = .done ∧ C.inv s) t s) (inputs : List ι) :
    C.inv (t.exec C.sem inputs s).2 := by
  induction inputs generalizing t s with
  | nil =>
    cases t with
    | done => exact h.2
    | call op k => exact h.elim (fun h => h.2) (fun h => h.1.2)
    | fork n child k => exact h.2
  | cons input inputs ih =>
    cases t with
    | done => exact h.2
    | fork n child k => exact h.2
    | call op k =>
      rcases h with h | ⟨hinv, hk⟩
      · cases h.1
      · rw [Thread.exec]
        split
        next s' r hsem => exact ih (hk input s' r (hal input op s) hsem)
        next => exact ih (.inr ⟨hinv, hk⟩)

/-- Program `p`, started in state `s`, ends in a state and with a result of which `Q` holds, and
the invariant holds all along. -/
def Meets (C : Solo σ ι Op Res) (last : Thread Op Res → σ → Prop) (p : Proc Op Res α) (s : σ)
    (Q : α → σ → Prop) : Prop :=
  ∀ k, (∀ a t, Q a t → C.Along last (k a) t) → C.Along last (p k) s

namespace Meets
variable {p : Proc Op Res α} {f : α → Proc Op Res β} {Q : α → σ → Prop} {Q' : β → σ → Prop}

theorem pure (h : Q a s) : C.Meets last (Pure.pure a) s Q := fun _ hk => hk a s h

theorem bind (hp : C.Meets last p s Q) (hf : ∀ a t, Q a t → C.Meets last (f a) t Q') :
    C.Meets last (p >>= f) s Q' :=
  fun k hk => hp _ fun a t hq => hf a t hq k hk

theorem weaken {Q'' : α → σ → Prop} (hp : C.Meets last p s Q) (h : ∀ a t, Q a t → Q'' a t) :
    C.Meets last p s Q'' :=
  fun k hk => hp k fun a t hq => hk a t (h a t hq)

theorem perform {op : Op} {Q : Res op → σ → Prop} (hown : C.own op) (hs : C.inv s)
    (h : ∀ input s' r, C.allowed input op s → C.sem input op s = some (s', r) → Q r s') :
    C.Meets last (Proc.perform op) s Q :=
  fun _ hk => .inr ⟨⟨hown, hs⟩, fun input s' r hal hsem => hk r s' (h input s' r hal hsem)⟩

theorem toThread (hp : C.Meets last p s Q) (h : ∀ a t, Q a t → last .done t) :
    C.Along last p.toThread s :=
  hp _ fun a t hq => .of_last (h a t hq)

end Meets

/-- Program `p` keeps `K`. -/
def Stays (C : Solo σ ι Op Res) (last : Thread Op Res → σ → Prop) (K : σ → Prop)
    (p : Proc Op Res α) : Prop :=
  ∀ s, K s → C.Meets last p s fun _ t => K t

namespace Stays
variable {K : σ → Prop} {p : Proc Op Res α} {f : α → Proc Op Res β}

theorem pure (a : α) : C.Stays last K (Pure.pure a) := fun _ hs => Meets.pure hs

theorem bind (hp : C.Stays last K p) (hf : ∀ a, C.Stays last K (f a)) :
    C.Stays last K (p >>= f) :=
  fun s hs => Meets.bind (hp s hs) fun a t ht => hf a t ht

end Stays

end Solo

instance Thread.decidableEqDone : (t : Thread Op Res) → Decidable (t = .done)
  | .done => isTrue rfl
  | .call _ _ => isFalse nofun
  | .fork _ _ _ => isFalse nofun

section Allowed
variable (sem : Semantics σ ι Op Res) (handler : ρ → Thread Op Res) (allowed : ι → Op → σ → Prop)

/-- The operation that a thread has come to is allowed, if it can be taken. -/
def Thread.NextAllowed (input : ι) (s : σ) : Option (Thread Op Res) → Prop
  | some (.call op _) => (sem input op s).isSome → allowed input op s
  | _ => True

/-- Every step of a schedule is allowed in the state in which it is taken. -/
def Machine.RunAllowed : Machine σ Op Res → List (Label ρ ι) → Prop
  | _, [] => True
  | m, .arrive request :: ls => RunAllowed (m.step sem handler (.arrive request : Label ρ ι)) ls
  | m, .step i input :: ls => Thread.NextAllowed sem allowed input m.shared m.threads[i]? ∧
    RunAllowed (m.step sem handler (.step i input)) ls

variable [∀ input op s, Decidable (allowed input op s)]

instance Thread.decidableNextAllowed (input : ι) (s : σ) :
    (t : Option (Thread Op Res)) → Decidable (Thread.NextAllowed sem allowed input s t)
  | some (.call op _) => inferInstanceAs (Decidable ((sem input op s).isSome → allowed input op s))
  | some .done | some (.fork _ _ _) | none => isTrue trivial

instance Machine.decidableRunAllowed : (m : Machine σ Op Res) → (ls : List (Label ρ ι)) →
    Decidable (m.RunAllowed sem handler allowed ls)
  | _, [] => isTrue trivial
  | m, .arrive request :: ls =>
    decidableRunAllowed (m.step sem handler (.arrive request : Label ρ ι)) ls
  | m, .step i input :: ls =>
    have := decidableRunAllowed (m.step sem handler (.step i input)) ls
    inferInstanceAs (Decidable (_ ∧ _))

end Allowed

/-- Threads that enter a critical section. `inside t s` is what holds of a thread in the section,
`free s` what holds while none is in it; nobody else's step disturbs either. The state keeps a
tally of the threads, each of which counts with its weight. -/
structure CriticalSection (sem : Semantics σ ι Op Res) (handler : ρ → Thread Op Res)
    (allowed : ι → Op → σ → Prop) where
  outside : Thread Op Res → Prop
  inside : Thread Op Res → σ → Prop
  free : σ → Prop
  weight : Thread Op Res → Nat
  tally : σ → Nat
  outside_handler : ∀ request, outside (handler request)
  weight_handler : ∀ request, weight (handler request) = 0
  outside_fork : ∀ n child k, ¬outside (.fork n child k)
  inside_fork : ∀ n child k s, ¬inside (.fork n child k) s
  /-- While the section is free, a thread stays outside or enters. -/
  step_free : ∀ {op k s input s' r}, outside (.call op k) → free s → weight (.call op k) ≤ tally s →
    allowed input op s → sem input op s = some (s', r) →
    tally s' + weight (.call op k) = tally s + weight (k r) ∧
      (outside (k r) ∧ free s' ∨ inside (k r) s')
  /-- While a thread is inside, the others stay outside and leave it alone. -/
  step_busy : ∀ {op k s input s' r t}, outside (.call op k) → inside t s →
    weight t + weight (.call op k) ≤ tally s → allowed input op s →
    sem input op s = some (s', r) →
    tally s' + weight (.call op k) = tally s + weight (k r) ∧ outside (k r) ∧ inside t s'
  /-- The thread inside stays there or leaves. -/
  step_inside : ∀ {op k s input s' r}, inside (.call op k) s → weight (.call op k) ≤ tally s →
    allowed input op s → sem input op s = some (s', r) →
    tally s' + weight (.call op k) = tally s + weight (k r) ∧
      (inside (k r) s' ∨ outside (k r) ∧ free s')

namespace CriticalSection
variable {sem : Semantics σ ι Op Res} {handler : ρ → Thread Op Res} {allowed : ι → Op → σ → Prop}
  {m : Machine σ Op Res}

/-- The section is free, or one thread is inside and all others are outside. -/
structure Good (C : CriticalSection sem handler allowed) (m : Machine σ Op Res) : Prop where
  tally : C.tally m.shared = (m.threads.map C.weight).sum
  place : (C.free m.shared ∧ ∀ t ∈ m.threads, C.outside t) ∨
    ∃ (i : Nat) (t : _), m.threads[i]? = some t ∧ C.inside t m.shared ∧
      ∀ (j : Nat) (u : _), m.threads[j]? = some u → j ≠ i → C.outside u

variable {C : CriticalSection sem handler allowed}

theorem Good.boot (h : C.free s) (ht : C.tally s = 0) : C.Good (Machine.boot s) :=
  ⟨ht, .inl ⟨h, fun _ hm => by cases hm⟩⟩

theorem Good.arrive (h : C.Good m) (request : ρ) :
    C.Good (m.step sem handler (.arrive request : Label ρ ι)) := by
  refine ⟨by simp [Machine.step, h.tally, C.weight_handler], ?_⟩
  rcases h.place with ⟨hfree, hout⟩ | ⟨i, t, hi, hin, hout⟩
  · refine .inl ⟨hfree, fun t ht => ?_⟩
    rcases List.mem_append.mp ht with ht | ht
    · exact hout t ht
    · rw [List.mem_singleton.mp ht]
      exact C.outside_handler request
  · have hlt : i < m.threads.length := (List.getElem?_eq_some_iff.mp hi).1
    refine .inr ⟨i, t, by simpa [Machine.step, List.getElem?_append_left hlt] using hi, hin, ?_⟩
    intro j u hu hne
    simp only [Machine.step, List.getElem?_append] at hu
    split at hu
    · exact hout j u hu hne
    · rw [List.getElem?_singleton] at hu
      split at hu
      · exact Option.some.inj hu ▸ C.outside_handler request
      · cases hu

theorem sum_map_set {f : α → Nat} {l : List α} {i : Nat} {a : α} (hi : l[i]? = some a) (b : α) :
    ((l.set i b).map f).sum + f a = (l.map f).sum + f b := by
  induction l generalizing i with
  | nil => simp at hi
  | cons x l ih =>
    cases i with
    | zero =>
      obtain rfl : x = a := by simpa using hi
      simp only [List.set_cons_zero, List.map_cons, List.sum_cons]
      omega
    | succ i =>
      have := ih (i := i) (by simpa using hi)
      simp only [List.set_cons_succ, List.map_cons, List.sum_cons]
      omega

theorem le_sum_map {f : α → Nat} {l : List α} {i : Nat} {a : α} (hi : l[i]? = some a) :
    f a ≤ (l.map f).sum :=
  List.le_sum_of_mem (List.mem_map_of_mem (List.mem_of_getElem? hi))

theorem add_le_sum_map {f : α → Nat} {l : List α} {i j : Nat} {a b : α} (hi : l[i]? = some a)
    (hj : l[j]? = some b) (hij : i ≠ j) : f a + f b ≤ (l.map f).sum := by
  induction l generalizing i j with
  | nil => simp at hi
  | cons x l ih =>
    simp only [List.map_cons, List.sum_cons]
    cases i with
    | zero =>
      cases j with
      | zero => exact absurd rfl hij
      | succ j =>
        obtain rfl : x = a := by simpa using hi
        have := le_sum_map (f := f) (l := l) (i := j) (a := b) (by simpa using hj)
        omega
    | succ i =>
      cases j with
      | zero =>
        obtain rfl : x = b := by simpa using hj
        have := le_sum_map (f := f) (l := l) (i := i) (a := a) (by simpa using hi)
        omega
      | succ j =>
        have := ih (i := i) (j := j) (by simpa using hi) (by simpa using hj) (by omega)
        omega

/-- What a step does to the thread that takes it. -/
theorem Good.call (h : C.Good m) {i : Nat} {input : ι} {op : Op} {k : Res op → Thread Op Res}
    {s' : σ} {r : Res op} (hi : m.threads[i]? = some (.call op k))
    (hal : allowed input op m.shared) (hsem : sem input op m.shared = some (s', r)) :
    C.Good ⟨s', m.threads.set i (k r)⟩ := by
  have hlt : i < m.threads.length := (List.getElem?_eq_some_iff.mp hi).1
  have hset : (m.threads.set i (k r))[i]? = some (k r) := by simp [hlt]
  have hother {j : Nat} (hne : j ≠ i) : (m.threads.set i (k r))[j]? = m.threads[j]? :=
    List.getElem?_set_ne (Ne.symm hne)
  have hweight : C.weight (.call op k) ≤ C.tally m.shared := h.tally ▸ le_sum_map hi
  have htally (heq : C.tally s' + C.weight (.call op k) = C.tally m.shared + C.weight (k r)) :
      C.tally s' = ((m.threads.set i (k r)).map C.weight).sum := by
    have := sum_map_set (f := C.weight) hi (k r)
    rw [h.tally] at heq
    omega
  rcases h.place with ⟨hfree, hout⟩ | ⟨j, t, hj, hin, hout⟩
  · have hout' : ∀ j u, (m.threads.set i (k r))[j]? = some u → j ≠ i → C.outside u :=
      fun j u hu hne => hout u (List.mem_of_getElem? (hother hne ▸ hu))
    obtain ⟨heq, hstep⟩ := C.step_free (hout _ (List.mem_of_getElem? hi)) hfree hweight hal hsem
    refine ⟨htally heq, ?_⟩
    rcases hstep with ⟨hk, hs'⟩ | hk
    · refine .inl ⟨hs', fun t ht => ?_⟩
      rcases List.mem_or_eq_of_mem_set ht with ht | rfl
      · exact hout t ht
      · exact hk
    · exact .inr ⟨i, k r, hset, hk, hout'⟩
  · by_cases hij : i = j
    · subst hij
      obtain rfl : Thread.call op k = t := Option.some.inj (hi.symm.trans hj)
      have hout' : ∀ j u, (m.threads.set i (k r))[j]? = some u → j ≠ i → C.outside u :=
        fun j u hu hne => hout j u (hother hne ▸ hu) hne
      obtain ⟨heq, hstep⟩ := C.step_inside hin hweight hal hsem
      refine ⟨htally heq, ?_⟩
      rcases hstep with hk | ⟨hk, hs'⟩
      · exact .inr ⟨i, k r, hset, hk, hout'⟩
      · refine .inl ⟨hs', fun t ht => ?_⟩
        obtain ⟨j, hj⟩ := List.mem_iff_getElem?.mp ht
        by_cases hji : j = i
        · subst hji
          exact Option.some.inj (hset.symm.trans hj) ▸ hk
        · exact hout' j t hj hji
    · have hsum : C.weight t + C.weight (.call op k) ≤ C.tally m.shared :=
        h.tally ▸ add_le_sum_map hj hi (Ne.symm hij)
      obtain ⟨heq, hk, ht⟩ := C.step_busy (hout i _ hi hij) hin hsum hal hsem
      refine ⟨htally heq, .inr ⟨j, t, (hother (Ne.symm hij)).trans hj, ht, fun l u hu hne => ?_⟩⟩
      by_cases hli : l = i
      · subst hli
        exact Option.some.inj (hset.symm.trans hu) ▸ hk
      · exact hout l u (hother hli ▸ hu) hne

theorem Good.step (h : C.Good m) {i : Nat} {input : ι}
    (hal : Thread.NextAllowed sem allowed input m.shared m.threads[i]?) :
    C.Good (m.step sem handler (.step i input)) := by
  cases hi : m.threads[i]? with
  | none => simpa [Machine.step, hi] using h
  | some t =>
    cases t with
    | done => simpa [Machine.step, hi] using h
    | fork n child k =>
      rcases h.place with ⟨_, hout⟩ | ⟨j, t, hj, hin, hout⟩
      · exact absurd (hout _ (List.mem_of_getElem? hi)) (C.outside_fork n child k)
      · by_cases hij : i = j
        · subst hij
          obtain rfl : Thread.fork n child k = t := Option.some.inj (hi.symm.trans hj)
          exact absurd hin (C.inside_fork n child k _)
        · exact absurd (hout i _ hi hij) (C.outside_fork n child k)
    | call op k =>
      cases hsem : sem input op m.shared with
      | none => simpa [Machine.step, hi, hsem] using h
      | some out =>
        obtain ⟨s', r⟩ := out
        simp only [Machine.step, hi, hsem]
        rw [hi] at hal
        exact h.call hi (hal (by simp [hsem])) hsem

/-- After every allowed schedule, at most one thread is inside. -/
theorem Good.run (h : C.Good m) {ls : List (Label ρ ι)}
    (hls : m.RunAllowed sem handler allowed ls) : C.Good (m.run sem handler ls) := by
  induction ls generalizing m with
  | nil => exact h
  | cons l ls ih =>
    cases l with
    | arrive request => exact ih (h.arrive request) hls
    | step i input => exact ih (h.step hls.1) hls.2

end CriticalSection

-- Proofs go by `Along.exec` and the rules of a program; unfolding would run the thread.
attribute [irreducible] Solo.Along

end Concurrent
