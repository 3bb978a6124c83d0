import Mathlib.Logic.Hydra
import Mathlib.Data.List.FinRange
import Mathlib.Data.List.Forall2
import ADPlatform.Lib.Exclusive

/-! # Threads that play roles

A role says where a thread stands, with whatever it has learnt so far; it is not part of the
program. One invariant over the shared state and the roles of all threads carries the whole
argument: `Roles.Follows` says that a thread keeps it at each of its steps, `Roles.Plays` is the
same for a program, and `Staged.exits_or_moves` lifts it to all schedules: a run comes by the exit
of a program, or some thread can still move. `Machine.moves_wellFounded` says that no run moves
forever. -/

namespace Concurrent
variable {σ : Type u} {ι : Type v} {ρ : Type w} {Op : Type} {Res : Op → Type}

theorem perm_cons_set {α : Type} {l : List α} {i : Nat} {a : α} (h : l[i]? = some a) (b : α) :
    (a :: l.set i b).Perm (b :: l) := by
  induction l generalizing i with
  | nil => cases h
  | cons x l ih =>
    cases i with
    | zero =>
      obtain rfl := Option.some.inj h
      exact .swap b x l
    | succ i =>
      calc a :: x :: l.set i b
        _ |>.Perm (x :: a :: l.set i b) := .swap x a _
        _ |>.Perm (x :: b :: l) := (ih h).cons x
        _ |>.Perm (b :: x :: l) := .swap b x l

section Forall₂
variable {α β : Type*} {R : α → β → Prop} {l : List α} {l' : List β}

theorem forall₂_getElem? (h : List.Forall₂ R l l') {i : Nat} {a : α} (hi : l[i]? = some a) :
    ∃ b, l'[i]? = some b ∧ R a b := by
  induction h generalizing i with
  | nil => cases hi
  | @cons x y _ _ hxy _ ih =>
    cases i with
    | zero =>
      obtain rfl := Option.some.inj hi
      exact ⟨y, rfl, hxy⟩
    | succ i => exact ih hi

theorem forall₂_set (h : List.Forall₂ R l l') (i : Nat) {a : α} {b : β} (hab : R a b) :
    List.Forall₂ R (l.set i a) (l'.set i b) := by
  induction h generalizing i with
  | nil => exact .nil
  | cons hxy h ih =>
    cases i with
    | zero => exact .cons hab h
    | succ i => exact .cons hxy (ih i)

theorem forall₂_ofFn {n : Nat} {f : Fin n → α} {g : Fin n → β} (h : ∀ j, R (f j) (g j)) :
    List.Forall₂ R (List.ofFn f) (List.ofFn g) := by
  rw [List.ofFn_eq_map, List.ofFn_eq_map, List.forall₂_map_left_iff, List.forall₂_map_right_iff,
    List.forall₂_same]
  exact fun j _ => h j

end Forall₂

/-! ## The moves of a machine -/

/-- What a step makes of a thread, or forks off it. -/
inductive Thread.Below : Thread Op Res → Thread Op Res → Prop
  | call {op : Op} {k : Res op → Thread Op Res} (r : Res op) : Below (k r) (.call op k)
  | fork {n : Nat} {child : Fin n → Thread Op Res} {k : Thread Op Res} : Below k (.fork n child k)
  | child {n : Nat} {child : Fin n → Thread Op Res} {k : Thread Op Res} (j : Fin n) :
      Below (child j) (.fork n child k)

theorem Thread.below_wellFounded : WellFounded (@Thread.Below Op Res) := by
  refine ⟨fun t => ?_⟩
  induction t with
  | done =>
    refine ⟨_, fun t h => ?_⟩
    cases h
  | call op k ih =>
    refine ⟨_, fun t h => ?_⟩
    cases h with
    | call r => exact ih r
  | fork n child k ih ihk =>
    refine ⟨_, fun t h => ?_⟩
    cases h with
    | fork => exact ihk
    | child j => exact ih j

namespace Machine

/-- A thread takes a step. -/
inductive Moves (sem : Semantics σ ι Op Res) (m : Machine σ Op Res) : Machine σ Op Res → Prop
  | call {i : Nat} {op : Op} {k : Res op → Thread Op Res} {input : ι} {s : σ} {r : Res op}
      (hi : m.threads[i]? = some (.call op k)) (hsem : sem input op m.shared = some (s, r)) :
      Moves sem m ⟨s, m.threads.set i (k r)⟩
  | fork {i n : Nat} {child : Fin n → Thread Op Res} {k : Thread Op Res}
      (hi : m.threads[i]? = some (.fork n child k)) :
      Moves sem m ⟨m.shared, m.threads.set i k ++ List.ofFn child⟩

/-- Where all threads have ended, no thread takes a step. -/
theorem not_moves_of_isDone {sem : Semantics σ ι Op Res} {m : Machine σ Op Res}
    (h : m.threads.all (·.isDone) = true) : ¬∃ m', Moves sem m m' := by
  have hdone : ∀ (i : Nat) (t : Thread Op Res), m.threads[i]? = some t → t = .done := fun i t hi =>
    Thread.eq_done_of_isDone (List.all_eq_true.mp h t (List.mem_of_getElem? hi))
  rintro ⟨m', hmoves⟩
  cases hmoves with
  | call hi => cases hdone _ _ hi
  | fork hi => cases hdone _ _ hi

/-- No machine moves forever: a step puts threads in the place of one that they are below. -/
theorem moves_wellFounded (sem : Semantics σ ι Op Res) :
    WellFounded fun m' m : Machine σ Op Res => Moves sem m m' := by
  refine Subrelation.wf (r := InvImage (Relation.CutExpand Thread.Below)
    fun m =>
      (m.threads : Multiset (Thread Op Res))) ?_ (InvImage.wf _ Thread.below_wellFounded.cutExpand)
  rintro m' m (@⟨i, op, k, input, s, r, hi, -⟩ | @⟨i, n, child, k, hi⟩)
  · refine ⟨{k r}, .call op k, by simpa using Thread.Below.call r, ?_⟩
    calc ((m.threads.set i (k r) : Multiset (Thread Op Res)) + {.call op k})
      _ = ↑(.call op k :: m.threads.set i (k r)) := by rw [add_comm]; rfl
      _ = ↑(k r :: m.threads) := Multiset.coe_eq_coe.mpr (perm_cons_set hi _)
      _ = ↑m.threads + {k r} := by rw [add_comm]; rfl
  · refine ⟨k ::ₘ ↑(List.ofFn child), .fork n child k, ?_, ?_⟩
    · intro t ht
      rcases Multiset.mem_cons.mp ht with rfl | ht
      · exact .fork
      · obtain ⟨j, rfl⟩ := List.mem_ofFn.mp (Multiset.mem_coe.mp ht)
        exact .child j
    · calc (↑(m.threads.set i k ++ List.ofFn child) + {.fork n child k} : Multiset (Thread Op Res))
        _ = ↑(.fork n child k :: m.threads.set i k) + ↑(List.ofFn child) := by
          rw [add_comm]; rfl
        _ = ↑(k :: m.threads) + ↑(List.ofFn child) := by
          rw [Multiset.coe_eq_coe.mpr (perm_cons_set hi k)]
        _ = ↑m.threads + k ::ₘ ↑(List.ofFn child) := by
          rw [← Multiset.cons_coe, Multiset.cons_add, Multiset.add_cons]

variable {ρ : Type*}

section Allowed
variable {allowed allowed' : ι → Op → σ → Prop} {sem : Semantics σ ι Op Res}
  {handler : ρ → Thread Op Res}
  {m : Machine σ Op Res} {ls : List (Label ρ ι)}

theorem RunAllowed.mono (h : m.RunAllowed sem handler allowed ls)
    (himp : ∀ input op s, allowed input op s → allowed' input op s) :
    m.RunAllowed sem handler allowed' ls := by
  induction ls generalizing m with
  | nil => trivial
  | cons l ls ih =>
    cases l with
    | arrive request => exact ih h
    | step i input =>
      refine ⟨?_, ih h.2⟩
      have hnext := h.1
      unfold Thread.NextAllowed at hnext ⊢
      split at hnext
      · exact fun hsome => himp _ _ _ (hnext hsome)
      · trivial

theorem runAllowed_of_forall (h : ∀ input op s, allowed input op s) (ls : List (Label ρ ι)) :
    m.RunAllowed sem handler allowed ls := by
  induction ls generalizing m with
  | nil => trivial
  | cons l ls ih =>
    cases l with
    | arrive request => exact ih
    | step i input =>
      refine ⟨?_, ih⟩
      unfold Thread.NextAllowed
      split
      · exact fun _ => h _ _ _
      · trivial

theorem RunAllowed.append_left {ls' : List (Label ρ ι)}
    (h : m.RunAllowed sem handler allowed (ls ++ ls')) :
    m.RunAllowed sem handler allowed ls := by
  induction ls generalizing m with
  | nil => trivial
  | cons l ls ih =>
    cases l with
    | arrive request => exact ih h
    | step i input => exact ⟨h.1, ih h.2⟩

end Allowed

end Machine

/-! ## Roles -/

/-- The roles of a system of threads: the invariant, the steps that are `allowed`, where a thread
may have to wait for another, and where it has ended. -/
structure Roles (σ : Type u) (ι : Type v) (Op : Type) (Res : Op → Type) (R : Type) where
  sem : Semantics σ ι Op Res
  inv : σ → List R → Prop
  allowed : ι → Op → σ → Prop
  waits : R → σ → Prop
  ended : R → Prop

namespace Roles
variable {R : Type} (C : Roles σ ι Op Res R)

/-- The thread keeps the invariant at each of its steps, until it comes to an exit. -/
def Follows (exit : Thread Op Res → R → Prop) : Thread Op Res → R → Prop
  | .done, role => exit .done role ∨ C.ended role
  | .call op k, role => exit (.call op k) role ∨
    ∀ (s : σ) (roles : List R) (i : Nat), roles[i]? = some role → C.inv s roles →
      (∀ input t r, C.allowed input op s → C.sem input op s = some (t, r) →
        ∃ role', C.inv t (roles.set i role') ∧ Follows exit (k r) role') ∧
      ((∀ input, C.sem input op s = none) → C.waits role s)
  | .fork n child k, role => exit (.fork n child k) role ∨
    ∃ (role' : R) (forked : Fin n → R), (∀ (s : σ) (roles : List R) (i : Nat),
      roles[i]? = some role → C.inv s roles →
        C.inv s (roles.set i role' ++ List.ofFn forked)) ∧
      Follows exit k role' ∧ ∀ j, Follows exit (child j) (forked j)

/-- A program that starts in a role and leaves with an answer and a role of which `Q` holds. -/
def Plays (p : Proc Op Res α) (role : R) (Q : α → R → Prop) : Prop :=
  ∀ exit k, (∀ a role', Q a role' → C.Follows exit (k a) role') → C.Follows exit (p k) role

variable {C} {α β : Type}

theorem follows_of_exit {exit : Thread Op Res → R → Prop} {t : Thread Op Res} {role : R}
    (h : exit t role) : C.Follows exit t role := by
  cases t with
  | done | call | fork => exact .inl h

/-- Without an exit, a thread that is done has a role that has ended. -/
theorem Follows.ended {role : R} (h : C.Follows (fun _ _ => False) .done role) : C.ended role :=
  h.resolve_left id

namespace Plays
variable {p : Proc Op Res α} {f : α → Proc Op Res β} {role : R} {Q : α → R → Prop}
  {Q' : β → R → Prop}

theorem pure {a : α} (h : Q a role) : C.Plays (Pure.pure a) role Q := fun _ _ hk => hk a role h

theorem bind (hp : C.Plays p role Q) (hf : ∀ a role', Q a role' → C.Plays (f a) role' Q') :
    C.Plays (p >>= f) role Q' :=
  fun exit k hk => hp exit _ fun a role' hQ => hf a role' hQ exit k hk

theorem weaken {Q'' : α → R → Prop} (hp : C.Plays p role Q)
    (h : ∀ a role', Q a role' → Q'' a role') : C.Plays p role Q'' :=
  fun exit k hk => hp exit k fun a role' hQ => hk a role' (h a role' hQ)

theorem ite {c : Prop} [Decidable c] {q : Proc Op Res α} (hp : c → C.Plays p role Q)
    (hq : ¬c → C.Plays q role Q) : C.Plays (if c then p else q) role Q := by
  split
  · exact hp ‹_›
  · exact hq ‹_›

/-- One operation: where the invariant holds it moves the thread to its next role, and it blocks
only where the role may wait. -/
theorem perform {op : Op} {Q : Res op → R → Prop}
    (hstep : ∀ (s : σ) (roles : List R) (i : Nat), roles[i]? = some role → C.inv s roles →
      ∀ input t r,
      C.allowed input op s → C.sem input op s = some (t, r) →
        ∃ role', C.inv t (roles.set i role') ∧ Q r role')
    (hwait : ∀ (s : σ) (roles : List R) (i : Nat), roles[i]? = some role → C.inv s roles →
      (∀ input, C.sem input op s = none) → C.waits role s) :
    C.Plays (Proc.perform op) role Q := by
  refine fun exit k hk => .inr fun s roles i hi hs =>
    ⟨fun input t r hal hsem => ?_, hwait s roles i hi hs⟩
  obtain ⟨role', ht, hQ⟩ := hstep s roles i hi hs input t r hal hsem
  exact ⟨role', ht, hk r role' hQ⟩

theorem forkAll {n : Nat} {child : Fin n → Proc Op Res Unit} {role' : R} {forked : Fin n → R}
    {Q : Unit → R → Prop}
    (hfork : ∀ (s : σ) (roles : List R) (i : Nat), roles[i]? = some role → C.inv s roles →
      C.inv s (roles.set i role' ++ List.ofFn forked))
    (hchild : ∀ j, C.Plays (child j) (forked j) fun _ => C.ended) (hQ : Q () role') :
    C.Plays (Proc.forkAll n child) role Q :=
  fun exit _ hk => .inr ⟨role', forked, hfork, hk () role' hQ,
    fun j => hchild j exit _ fun _ _ hended => .inr hended⟩

theorem toThread (hp : C.Plays p role fun _ => C.ended) {exit : Thread Op Res → R → Prop} :
    C.Follows exit p.toThread role :=
  hp exit _ fun _ _ hended => .inr hended

end Plays

/-! ## Machines of threads with roles -/

/-- Every thread of the machine follows its role, and the invariant holds of all of them. -/
structure Staged (C : Roles σ ι Op Res R) (exit : Thread Op Res → R → Prop) (m : Machine σ Op Res)
    (roles : List R) : Prop where
  inv : C.inv m.shared roles
  follows : List.Forall₂ (C.Follows exit) m.threads roles

/-- Some thread has come to an exit. -/
def Exits (exit : Thread Op Res → R → Prop) (m : Machine σ Op Res) (roles : List R) : Prop :=
  ∃ (i : Nat) (t : Thread Op Res) (role : R),
    m.threads[i]? = some t ∧ roles[i]? = some role ∧ exit t role

/-- Requests that may arrive where the invariant holds. -/
def Admits (C : Roles σ ι Op Res R) (exit : Thread Op Res → R → Prop)
    (handler : ρ → Thread Op Res) :
    Prop :=
  ∀ request s roles, C.inv s roles →
    ∃ role, C.inv s (roles ++ [role]) ∧ C.Follows exit (handler request) role

variable {exit : Thread Op Res → R → Prop} {handler : ρ → Thread Op Res} {m : Machine σ Op Res}
  {roles : List R}

/-- A thread that has not come to an exit takes its step as its role says. -/
theorem Staged.stepThread (h : C.Staged exit m roles) (hexit : ¬Exits exit m roles) {i : Nat}
    {input : ι} (hl : Thread.NextAllowed C.sem C.allowed input m.shared m.threads[i]?) :
    ∃ roles', C.Staged exit (m.step C.sem handler (.step i input)) roles' := by
  cases hi : m.threads[i]? with
  | none =>
    simp only [Machine.step, hi]
    exact ⟨roles, h⟩
  | some t =>
    obtain ⟨role, hrole, hfollows⟩ := forall₂_getElem? h.follows hi
    have hnot : ¬exit t role := fun he => hexit ⟨i, t, role, hi, hrole, he⟩
    cases t with
    | done =>
      simp only [Machine.step, hi]
      exact ⟨roles, h⟩
    | call op k =>
      obtain ⟨hstep, -⟩ := hfollows.resolve_left hnot m.shared roles i hrole h.inv
      cases hsem : C.sem input op m.shared with
      | none =>
        simp only [Machine.step, hi, hsem]
        exact ⟨roles, h⟩
      | some out =>
        obtain ⟨s, r⟩ := out
        rw [hi] at hl
        obtain ⟨role', hinv, hthread⟩ := hstep input s r (hl (by rw [hsem]; rfl)) hsem
        simp only [Machine.step, hi, hsem]
        exact ⟨_, hinv, forall₂_set h.follows i hthread⟩
    | fork n child k =>
      obtain ⟨role', forked, hinv, hthread, hchild⟩ := hfollows.resolve_left hnot
      simp only [Machine.step, hi]
      exact ⟨_, hinv m.shared roles i hrole h.inv,
        List.rel_append (forall₂_set h.follows i hthread) (forall₂_ofFn hchild)⟩

/-- A request arrives. -/
theorem Staged.arrive (H : C.Admits exit handler) (h : C.Staged exit m roles) (request : ρ) :
    ∃ roles', C.Staged exit (m.step C.sem handler (.arrive request : Label ρ ι)) roles' := by
  obtain ⟨role, hinv, hthread⟩ := H request m.shared roles h.inv
  exact ⟨_, hinv, List.rel_append h.follows (.cons hthread .nil)⟩

/-- A whole run: it has come by an exit, or every thread still follows a role. -/
theorem Staged.run (H : C.Admits exit handler) (h : C.Staged exit m roles) {ls : List (Label ρ ι)}
    (hls : m.RunAllowed C.sem handler C.allowed ls) :
    (∃ ls₁ ls₂ roles', ls = ls₁ ++ ls₂ ∧ C.Staged exit (m.run C.sem handler ls₁) roles' ∧
      Exits exit (m.run C.sem handler ls₁) roles') ∨
    ∃ roles', C.Staged exit (m.run C.sem handler ls) roles' ∧
      ¬Exits exit (m.run C.sem handler ls) roles' := by
  by_cases hexit : Exits exit m roles
  · exact .inl ⟨[], ls, roles, rfl, h, hexit⟩
  induction ls generalizing m roles with
  | nil => exact .inr ⟨roles, h, hexit⟩
  | cons l ls ih =>
    obtain ⟨⟨roles', h'⟩, hrest⟩ : (∃ roles', C.Staged exit (m.step C.sem handler l) roles') ∧
        (m.step C.sem handler l).RunAllowed C.sem handler C.allowed ls := by
      cases l with
      | arrive request => exact ⟨h.arrive H request, hls⟩
      | step i input => exact ⟨h.stepThread hexit hls.1, hls.2⟩
    by_cases hexit' : Exits exit (m.step C.sem handler l) roles'
    · exact .inl ⟨[l], ls, roles', rfl, h', hexit'⟩
    · refine (ih h' hrest hexit').imp ?_ id
      rintro ⟨ls₁, ls₂, roles'', rfl, hstaged, hexits⟩
      exact ⟨l :: ls₁, ls₂, roles'', rfl, hstaged, hexits⟩

/-- Where no thread can move, every thread has ended or waits. -/
theorem Staged.ended_or_waits (h : C.Staged exit m roles) (hexit : ¬Exits exit m roles)
    (hmoves : ¬∃ m', m.Moves C.sem m') (i : Nat) (role : R) (hi : i < m.threads.length)
    (hrole : roles[i]? = some role) : C.ended role ∨ C.waits role m.shared := by
  have ht : m.threads[i]? = some m.threads[i] := List.getElem?_eq_getElem hi
  obtain ⟨role', hrole', hfollows⟩ := forall₂_getElem? h.follows ht
  obtain rfl : role' = role := Option.some.inj (hrole'.symm.trans hrole)
  have hnot : ¬exit m.threads[i] role' := fun he => hexit ⟨i, _, _, ht, hrole, he⟩
  generalize m.threads[i] = t at ht hfollows hnot
  cases t with
  | done => exact .inl (hfollows.resolve_left hnot)
  | call op k =>
    refine .inr ((hfollows.resolve_left hnot m.shared roles i hrole h.inv).2 fun input => ?_)
    cases hsem : C.sem input op m.shared with
    | none => rfl
    | some out => exact absurd ⟨_, .call ht hsem⟩ hmoves
  | fork n child k => exact absurd ⟨_, .fork ht⟩ hmoves

/-- Threads that cannot all have ended or wait: a run has come by an exit, or it can go on. -/
theorem Staged.exits_or_moves (H : C.Admits exit handler)
    (hwaits : ∀ s roles, C.inv s roles → ¬∀ role ∈ roles, C.ended role ∨ C.waits role s)
    (h : C.Staged exit m roles) {ls : List (Label ρ ι)}
    (hls : m.RunAllowed C.sem handler C.allowed ls) :
    (∃ ls₁ ls₂ roles', ls = ls₁ ++ ls₂ ∧ C.Staged exit (m.run C.sem handler ls₁) roles' ∧
      Exits exit (m.run C.sem handler ls₁) roles') ∨
    ∃ m', (m.run C.sem handler ls).Moves C.sem m' := by
  refine (h.run H hls).imp id ?_
  rintro ⟨roles', hstaged, hexit⟩
  by_contra hmoves
  refine hwaits _ roles' hstaged.inv fun role hrole => ?_
  obtain ⟨i, hi⟩ := List.mem_iff_getElem?.mp hrole
  refine hstaged.ended_or_waits hexit hmoves i role ?_ hi
  rw [hstaged.follows.length_eq]
  exact (List.getElem?_eq_some_iff.mp hi).1

end Roles

/-! ## Histories -/

/-- A shared state with all that was done to it, the oldest first. -/
structure Logged (σ : Type u) (Op : Type) (Res : Op → Type) where
  state : σ
  log : List ((op : Op) × Res op) := []

/-- The operations with a log of what they answered. -/
def Semantics.logged (sem : Semantics σ ι Op Res) : Semantics (Logged σ Op Res) ι Op Res :=
  fun input op s =>
    (sem input op s.state).map fun out => (⟨out.1, s.log ++ [⟨op, out.2⟩]⟩, out.2)

section Logged
variable {sem : Semantics σ ι Op Res} {input : ι} {op : Op} {s t : Logged σ Op Res} {r : Res op}

theorem logged_eq_some (h : sem.logged input op s = some (t, r)) :
    sem input op s.state = some (t.state, r) ∧ t.log = s.log ++ [⟨op, r⟩] := by
  obtain ⟨out, hout, heq⟩ := Option.map_eq_some_iff.mp h
  obtain ⟨rfl, rfl⟩ := Prod.mk.inj heq
  exact ⟨hout, rfl⟩

theorem logged_eq_none : sem.logged input op s = none ↔ sem input op s.state = none :=
  Option.map_eq_none_iff

/-- What every allowed step says of its entry holds of the whole history. -/
theorem log_run {ρ : Type*} {handler : ρ → Thread Op Res}
    {allowed : ι → Op → Logged σ Op Res → Prop}
    {P : ((op : Op) × Res op) → Prop}
    (hstep : ∀ {input op s t r}, allowed input op s →
      sem input op s.state = some (t, r) → P ⟨op, r⟩)
    {m : Machine (Logged σ Op Res) Op Res} {ls : List (Label ρ ι)}
    (hls : m.RunAllowed sem.logged handler allowed ls) (hm : ∀ e ∈ m.shared.log, P e) :
    ∀ e ∈ (m.run sem.logged handler ls).shared.log, P e := by
  induction ls generalizing m with
  | nil => exact hm
  | cons l ls ih =>
    cases l with
    | arrive => exact ih hls hm
    | step i input =>
      refine ih hls.2 ?_
      have hnext := hls.1
      cases hi : m.threads[i]? with
      | none => simpa only [Machine.step, hi] using hm
      | some t =>
        cases t with
        | done => simpa only [Machine.step, hi] using hm
        | fork => simpa only [Machine.step, hi] using hm
        | call op k =>
          cases hsem : sem.logged input op m.shared with
          | none => simpa only [Machine.step, hi, hsem] using hm
          | some out =>
            obtain ⟨hout, hlog⟩ := logged_eq_some (t := out.1) (r := out.2) hsem
            rw [hi] at hnext
            simp only [Machine.step, hi, hsem, hlog]
            intro e he
            rcases List.mem_append.mp he with he | he
            · exact hm e he
            · rw [List.mem_singleton.mp he]
              exact hstep (hnext (by rw [hsem]; rfl)) hout

/-- What one thread may rely on about the history: no step takes it back. -/
structure Knowledge (Op : Type) (Res : Op → Type) where
  holds : List ((op : Op) × Res op) → Prop
  stable : ∀ {log e}, holds log → holds (log ++ [e])

namespace Knowledge

/-- Nothing is remembered. -/
def none : Knowledge Op Res := ⟨fun _ => True, fun _ => trivial⟩

/-- The operation was performed, with this answer. -/
def learn (K : Knowledge Op Res) (op : Op) (r : Res op) : Knowledge Op Res :=
  ⟨fun log => K.holds log ∧ ⟨op, r⟩ ∈ log, fun h => ⟨K.stable h.1, List.mem_append_left _ h.2⟩⟩

theorem holds_learn {K : Knowledge Op Res} {log : List ((op : Op) × Res op)} (h : K.holds log) :
    (K.learn op r).holds (log ++ [⟨op, r⟩]) :=
  ⟨K.stable h, List.mem_append_right _ (.head _)⟩

end Knowledge

end Logged

-- Proofs go by the rules of `Plays`; unfolding would run the thread.
attribute [irreducible] Roles.Follows

end Concurrent
