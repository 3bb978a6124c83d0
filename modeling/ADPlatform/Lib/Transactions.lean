import Mathlib.Logic.Basic

/-! # Programs whose database calls may fail

A program makes calls to a database, any of which may fail, and ends with its first error. A failed
call has changed nothing, and a transaction that ends with an error is rolled back
(`keeps_transaction`). What a program has done when it ends well follows from the rules of its parts
(`Ensures.bind` and those beside it). -/

namespace Transactions

/-- The error of the `n`-th call, where it fails. -/
abbrev Faults (ε : Type) := Nat → Option ε

/-- From the `n`-th call on, every call fails. -/
def Faults.cancelled {ε : Type} (n : Nat) (e : ε) : Faults ε :=
  fun call => if n ≤ call then some e else none

/-- The database as a program finds it, and the number of calls made before. No rollback resets a
sequence. -/
structure Session (σ τ : Type) where
  rows : σ
  sequences : τ
  calls : Nat := 0

/-- A program on a session: a result or an error, and the session behind it. -/
def Program (σ τ ε α : Type) := Session σ τ → Except ε α × Session σ τ

variable {σ τ ε α β : Type}

namespace Program

instance : Monad (Program σ τ ε) where
  pure a := fun s => (.ok a, s)
  bind m f := fun s => match m s with
    | (.ok a, s) => f a s
    | (.error e, s) => (.error e, s)

/-- The program fails and leaves the session as it is. -/
def fail (e : ε) : Program σ τ ε α := fun s => (.error e, s)

/-- A computed result as a step of the program. -/
def ofExcept (r : Except ε α) : Program σ τ ε α := fun s => (r, s)

/-- The error is changed, the session is not. -/
def mapError (f : ε → ε) (m : Program σ τ ε α) : Program σ τ ε α :=
  fun s => ((m s).1.mapError f, (m s).2)

/-- One call, unless it fails. -/
def call (F : Faults ε) (f : σ → τ → Except ε (α × σ × τ)) : Program σ τ ε α := fun s =>
  let made := { s with calls := s.calls + 1 }
  match F s.calls with
  | some e => (.error e, made)
  | none => match f s.rows s.sequences with
    | .error e => (.error e, made)
    | .ok (a, rows, sequences) => (.ok a, { made with rows, sequences })

/-- A statement that only reads. -/
def query (F : Faults ε) (f : σ → Except ε α) : Program σ τ ε α :=
  call F fun rows sequences => (f rows).map (·, rows, sequences)

/-- A statement that only writes. -/
def exec (F : Faults ε) (f : σ → Except ε σ) : Program σ τ ε Unit :=
  call F fun rows sequences => (f rows).map ((), ·, sequences)

/-- The next value of a sequence. -/
def nextval (F : Faults ε) (next : τ → α × τ) : Program σ τ ε α :=
  call F fun rows sequences => .ok ((next sequences).1, rows, (next sequences).2)

/-- The rollback of a program that ends with an error. -/
def transaction (m : Program σ τ ε α) : Program σ τ ε α := fun s =>
  match m s with
  | (.ok a, done) => (.ok a, done)
  | (.error e, failed) => (.error e, { failed with rows := s.rows })

/-- A second attempt after an error of a kind. -/
def retry (again : ε → Bool) (m : Nat → Program σ τ ε α) : Program σ τ ε α := fun s =>
  match m 0 s with
  | (.ok a, done) => (.ok a, done)
  | (.error e, failed) => if again e then m 1 failed else (.error e, failed)

/-- After an error, an attempt to undo what was done before. Whether it succeeds goes unnoticed. -/
def orUndo (m : Program σ τ ε α) (undo : Program σ τ ε β) : Program σ τ ε α := fun s =>
  match m s with
  | (.ok a, done) => (.ok a, done)
  | (.error e, failed) => (.error e, (undo failed).2)

/-! ## Programs that change nothing -/

/-- The program only reads. -/
def Reads (m : Program σ τ ε α) : Prop := ∀ s, (m s).2.rows = s.rows

/-- When the program ends with an error, it has changed nothing. -/
def Keeps (m : Program σ τ ε α) : Prop := ∀ s e s', m s = (.error e, s') → s'.rows = s.rows

/-- From rows with `P`, the program ends well only with `Q`. -/
def Ensures (P : σ → Prop) (m : Program σ τ ε α) (Q : α → σ → Prop) : Prop :=
  ∀ s a s', P s.rows → m s = (.ok a, s') → Q a s'.rows

variable {F : Faults ε} {P : σ → Prop} {Q : α → σ → Prop} {m : Program σ τ ε α}
  {f : α → Program σ τ ε β}

theorem Reads.keeps (h : Reads m) : Keeps m := by
  intro s e s' hm
  rw [← h s, hm]

theorem keeps_call {f : σ → τ → Except ε (α × σ × τ)} : Keeps (call F f) := by
  intro s e s' h
  unfold call at h
  dsimp only at h
  split at h
  · cases h
    rfl
  · split at h
    · cases h
      rfl
    · cases h

theorem of_call {f : σ → τ → Except ε (α × σ × τ)} {s s' : Session σ τ} {a : α}
    (h : call F f s = (.ok a, s')) :
      ∃ sequences, f s.rows s.sequences = .ok (a, s'.rows, sequences) := by
  unfold call at h
  dsimp only at h
  split at h
  · cases h
  · split at h
    · cases h
    · rename_i hf
      cases h
      exact ⟨_, hf⟩

theorem of_query {f : σ → Except ε α} {s s' : Session σ τ} {a : α} (h : query F f s = (.ok a, s')) :
    f s.rows = .ok a ∧ s'.rows = s.rows := by
  obtain ⟨sequences, hf⟩ := of_call h
  cases hrows : f s.rows with
  | error e =>
    rw [hrows] at hf
    cases hf
  | ok b =>
    rw [hrows] at hf
    obtain ⟨ha, hrest⟩ := Prod.mk.inj (Except.ok.inj hf)
    exact ⟨congrArg _ ha, (Prod.mk.inj hrest).1.symm⟩

theorem of_exec {f : σ → Except ε σ} {s s' : Session σ τ} (h : exec F f s = (.ok (), s')) :
    f s.rows = .ok s'.rows := by
  obtain ⟨sequences, hf⟩ := of_call h
  cases hrows : f s.rows with
  | error e =>
    rw [hrows] at hf
    cases hf
  | ok rows =>
    rw [hrows] at hf
    cases hf
    rfl

theorem reads_query {f : σ → Except ε α} : Reads (query F f : Program σ τ ε α) := by
  intro s
  rcases h : (query F f : Program σ τ ε α) s with ⟨e | a, s'⟩
  · exact keeps_call s e s' h
  · exact (of_query h).2

theorem reads_nextval {next : τ → α × τ} : Reads (nextval F next : Program σ τ ε α) := by
  intro s
  rcases h : (nextval F next : Program σ τ ε α) s with ⟨e | a, s'⟩
  · exact keeps_call s e s' h
  · obtain ⟨sequences, hf⟩ := of_call h
    exact (Prod.mk.inj (Prod.mk.inj (Except.ok.inj hf)).2).1.symm

theorem Reads.mapError (h : Reads m) (f : ε → ε) : Reads (m.mapError f) := h

theorem Reads.retry {again : ε → Bool} {m : Nat → Program σ τ ε α} (h : ∀ i, Reads (m i)) :
    Reads (retry again m) := by
  intro s
  unfold Program.retry
  have hfirst := h 0 s
  split
  · rename_i hm
    rwa [hm] at hfirst
  · rename_i failed hm
    rw [hm] at hfirst
    split
    · exact (h 1 failed).trans hfirst
    · exact hfirst

theorem reads_pure {a : α} : Reads (pure a : Program σ τ ε α) := fun _ => rfl

theorem reads_fail {e : ε} : Reads (fail e : Program σ τ ε α) := fun _ => rfl

theorem reads_ofExcept {r : Except ε α} : Reads (ofExcept r : Program σ τ ε α) := fun _ => rfl

theorem bind_of_ok {s s' : Session σ τ} {a : α} (h : m s = (.ok a, s')) : (m >>= f) s = f a s' := by
  change (match m s with
    | (.ok a, s) => f a s
    | (.error e, s) => (.error e, s)) = _
  rw [h]

theorem bind_of_error {s s' : Session σ τ} {e : ε} (h : m s = (.error e, s')) :
    (m >>= f) s = (.error e, s') := by
  change (match m s with
    | (.ok a, s) => f a s
    | (.error e, s) => (.error e, s)) = _
  rw [h]

theorem Reads.bind (h : Reads m) (hf : ∀ a, Reads (f a)) : Reads (m >>= f) := by
  intro s
  have hm := h s
  rcases hms : m s with ⟨e | a, read⟩
  · rw [hms] at hm
    rw [bind_of_error hms, hm]
  · rw [hms] at hm
    rw [bind_of_ok hms]
    exact (hf a read).trans hm

/-- What only reads may come before. -/
theorem Reads.keeps_bind (h : Reads m) (hf : ∀ a, Keeps (f a)) : Keeps (m >>= f) := by
  intro s e s' hbind
  have hm := h s
  rcases hms : m s with ⟨e | a, read⟩
  · rw [bind_of_error hms] at hbind
    rw [hms] at hm
    cases hbind
    exact hm
  · rw [bind_of_ok hms] at hbind
    rw [hms] at hm
    rw [hf a read e s' hbind, ← hm]

theorem Keeps.mapError (h : Keeps m) (f : ε → ε) : Keeps (m.mapError f) := by
  intro s e s' hm
  unfold Program.mapError at hm
  rcases hms : m s with ⟨e | a, s''⟩
  · rw [hms] at hm
    cases hm
    exact h s _ _ hms
  · rw [hms] at hm
    cases hm

theorem keeps_transaction : Keeps (transaction m) := by
  intro s e s' h
  unfold transaction at h
  split at h
  · cases h
  · cases h
    rfl

theorem Keeps.retry {again : ε → Bool} {m : Nat → Program σ τ ε α} (h : ∀ i, Keeps (m i)) :
    Keeps (retry again m) := by
  intro s e s' hretry
  unfold Program.retry at hretry
  split at hretry
  · cases hretry
  · rename_i hfirst
    split at hretry
    · rw [h 1 _ _ _ hretry, h 0 _ _ _ hfirst]
    · cases hretry
      exact h 0 _ _ _ hfirst

/-! ## Programs that end well -/

theorem ensures_pure {a : α} (h : ∀ r, P r → Q a r) : Ensures P (pure a : Program σ τ ε α) Q := by
  intro s b s' hs hpure
  cases hpure
  exact h s.rows hs

theorem ensures_fail {e : ε} : Ensures P (fail e : Program σ τ ε α) Q := by
  intro s a s' _ h
  cases h

/-- A fact that is not about the rows. -/
theorem ensures_of_and {p : Prop} (h : p → Ensures P m Q) : Ensures (fun r => P r ∧ p) m Q := by
  intro s a s' hs hm
  exact h hs.2 s a s' hs.1 hm

theorem Ensures.mono {Q' : α → σ → Prop} (h : Ensures P m Q) (hQ : ∀ a r, Q a r → Q' a r) :
    Ensures P m Q' := by
  intro s a s' hs hm
  exact hQ a s'.rows (h s a s' hs hm)

theorem ensures_exec {f : σ → Except ε σ} {Q : Unit → σ → Prop}
    (h : ∀ r, P r → ∀ r', f r = .ok r' → Q () r') :
      Ensures P (exec F f : Program σ τ ε Unit) Q := by
  intro s a s' hs hexec
  exact h s.rows hs s'.rows (of_exec hexec)

theorem ensures_query {f : σ → Except ε α} (h : ∀ r, P r → ∀ a, f r = .ok a → Q a r) :
    Ensures P (query F f : Program σ τ ε α) Q := by
  intro s a s' hs hquery
  obtain ⟨hf, hrows⟩ := of_query hquery
  rw [hrows]
  exact h s.rows hs a hf

/-- What is only read stays as it was. -/
theorem Reads.ensures (h : Reads m) (hQ : ∀ a r, P r → Q a r) : Ensures P m Q := by
  intro s a s' hs hm
  have := h s
  rw [hm] at this
  exact this ▸ hQ a s.rows hs

theorem Ensures.bind {R : α → σ → Prop} {Q : β → σ → Prop} (hm : Ensures P m R)
    (hf : ∀ a, Ensures (R a) (f a) Q) : Ensures P (m >>= f) Q := by
  intro s b s' hs hbind
  rcases hms : m s with ⟨e | a, s''⟩
  · rw [bind_of_error hms] at hbind
    cases hbind
  · rw [bind_of_ok hms] at hbind
    exact hf a s'' b s' (hm s a s'' hs hms) hbind

theorem Ensures.mapError (h : Ensures P m Q) (f : ε → ε) : Ensures P (m.mapError f) Q := by
  intro s a s' hs hm
  unfold Program.mapError at hm
  rcases hms : m s with ⟨e | b, s''⟩
  · rw [hms] at hm
    cases hm
  · rw [hms] at hm
    cases hm
    exact h _ _ _ hs hms

theorem Ensures.transaction (h : Ensures P m Q) : Ensures P (transaction m) Q := by
  intro s a s' hs hm
  unfold Program.transaction at hm
  split at hm
  · rename_i hms
    cases hm
    exact h _ _ _ hs hms
  · cases hm

theorem Ensures.retry {again : ε → Bool} {m : Nat → Program σ τ ε α} (hkeeps : ∀ i, Keeps (m i))
    (h : ∀ i, Ensures P (m i) Q) : Ensures P (retry again m) Q := by
  intro s a s' hs hretry
  unfold Program.retry at hretry
  split at hretry
  · rename_i hfirst
    cases hretry
    exact h 0 _ _ _ hs hfirst
  · rename_i hfirst
    split at hretry
    · exact h 1 _ _ _ (by rwa [hkeeps 0 _ _ _ hfirst]) hretry
    · cases hretry

end Program

end Transactions
