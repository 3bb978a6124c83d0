import ADPlatform.GameCore.Match

/-! # The debounce of the scoreboard recompute

Accepted submissions ask for a recompute through `scheduleScoreboardRecompute`, which arms a timer;
the callback of a timer starts the recompute and, when it is over, looks whether another one is
due. The server holds one timer in `scoringTimer`, but a timer that has left that field may still
be armed, and a callback that has started no longer minds being stopped.

`Pending` carries the proof: it is set as long as a request waits for a recompute (`Owed`), and
whenever it is set something is left that will look at it (`Awaited`). -/

namespace ADPlatform.GameCore

/-- `ScoringRecomputeStatus`. -/
structure ScoringRecomputeStatus where
  pending : Bool := false
  inFlight : Bool := false
  lastSuccessAt : Option Time := none
  lastFailureAt : Option Time := none
  lastError : String := ""
  failureCount : Nat := 0
  deriving DecidableEq, Repr

/-- What has happened to recomputes. -/
inductive ScoringEvent where
  | requested
  | started (id : Nat)
  | succeeded (id : Nat)
  | failed (id : Nat)
  deriving DecidableEq, Repr

/-- The debounce of a server. `armed` holds the timers that will fire, `fired` counts the callbacks
that have started and wait for the lock, and `running` holds the recomputes under way. `log` is a
history variable, the newest event first. -/
structure ScoringDebounce where
  scoringStatus : ScoringRecomputeStatus := {}
  scoringTimer : Option Nat := none
  armed : List Nat := []
  fired : Nat := 0
  running : List Nat := []
  nextTimer : Nat := 0
  nextRecompute : Nat := 0
  log : List ScoringEvent := []
  deriving DecidableEq, Repr

namespace ScoringDebounce
variable (s : ScoringDebounce)

/-- `scoringTimer.Stop`, where there is a timer: one that has fired already is not held back. -/
def stopTimer : ScoringDebounce :=
  match s.scoringTimer with
  | none => s
  | some timer => { s with armed := s.armed.erase timer }

/-- `time.AfterFunc` of the callback. -/
def afterFunc : ScoringDebounce :=
  { s with
    armed := s.nextTimer :: s.armed
    scoringTimer := some s.nextTimer
    nextTimer := s.nextTimer + 1 }

/-- `scheduleScoreboardRecompute`: one in flight will see that another is wanted. -/
def scheduleScoreboardRecompute : ScoringDebounce :=
  let s := { s with scoringStatus := { s.scoringStatus with pending := true } }
  if s.scoringStatus.inFlight then s else s.stopTimer.afterFunc

/-- `runScheduledScoreboardRecompute` up to the call of the store, in a callback that waits. -/
def beginRecompute : ScoringDebounce :=
  let s := { s with fired := s.fired - 1 }
  if s.scoringStatus.inFlight then
    { s with scoringStatus := { s.scoringStatus with pending := true } }
  else
    { s with
      scoringStatus := { s.scoringStatus with pending := false, inFlight := true }
      scoringTimer := none
      running := s.nextRecompute :: s.running
      nextRecompute := s.nextRecompute + 1
      log := .started s.nextRecompute :: s.log }

/-- `runScheduledScoreboardRecompute` behind the call of the store, with its error. -/
def endRecompute (id : Nat) (now : Time) (err : Option String) : ScoringDebounce :=
  let s := { s with
    running := s.running.erase id
    scoringStatus := { s.scoringStatus with inFlight := false } }
  match err with
  | some message =>
    let s := { s with
      scoringStatus := { s.scoringStatus with
        pending := true
        lastFailureAt := some now
        lastError := message
        failureCount := s.scoringStatus.failureCount + 1 }
      log := .failed id :: s.log }
    s.stopTimer.afterFunc
  | none =>
    let s := { s with
      scoringStatus := { s.scoringStatus with lastSuccessAt := some now, lastError := "" }
      log := .succeeded id :: s.log }
    if s.scoringStatus.pending then s.stopTimer.afterFunc else s

end ScoringDebounce

/-- A step: a request, a timer that fires, a callback that gets the lock, or the end of a
recompute. -/
inductive ScoringStep where
  | schedule
  | fire (timer : Nat)
  | callback
  | complete (id : Nat) (now : Time) (err : Option String)
  deriving DecidableEq, Repr

namespace ScoringDebounce

/-- One step; a timer that is not armed, a callback or a recompute that there is not do nothing. -/
def step (s : ScoringDebounce) : ScoringStep → ScoringDebounce
  | .schedule => { s.scheduleScoreboardRecompute with log := .requested :: s.log }
  | .fire timer =>
    if timer ∈ s.armed then { s with armed := s.armed.erase timer, fired := s.fired + 1 } else s
  | .callback => if 0 < s.fired then s.beginRecompute else s
  | .complete id now err => if id ∈ s.running then s.endRecompute id now err else s

/-- The debounce after these steps. -/
def run (s : ScoringDebounce) (steps : List ScoringStep) : ScoringDebounce := steps.foldl step s

/-- A request is still owed a recompute: every one that was started behind it has failed. -/
def Owed (log : List ScoringEvent) : Prop :=
  ∃ later earlier, log = later ++ .requested :: earlier ∧
    ∀ id, .started id ∈ later → .failed id ∈ later

/-- A timer is armed, a callback waits, or a recompute in flight will look at `Pending`. -/
def Awaited (s : ScoringDebounce) : Prop :=
  s.armed ≠ [] ∨ 0 < s.fired ∨ s.scoringStatus.inFlight

/-- The invariant: at most one recompute runs, and what is owed is pending and will be looked at. -/
structure Invariant (s : ScoringDebounce) : Prop where
  running : s.running.length = if s.scoringStatus.inFlight then 1 else 0
  started : ∀ id ∈ s.running, id < s.nextRecompute
  failed : ∀ id, .failed id ∈ s.log → id < s.nextRecompute
  owed : Owed s.log → s.scoringStatus.pending
  awaited : s.scoringStatus.pending → s.Awaited

/-! ## Steps keep the invariant -/

variable {s : ScoringDebounce}

/-- Behind the start of a recompute that has not failed, no request is owed. -/
theorem not_owed_started {id : Nat} {log : List ScoringEvent} (h : .failed id ∉ log) :
    ¬Owed (.started id :: log) := by
  rintro ⟨later, earlier, heq, hfailed⟩
  cases later with
  | nil => cases heq
  | cons event later =>
    obtain ⟨rfl, rfl⟩ := List.cons.inj heq
    rcases List.mem_cons.mp (hfailed id (.head _)) with h' | h'
    · cases h'
    · exact h (List.mem_append_left _ h')

theorem owed_of_succeeded {id : Nat} {log : List ScoringEvent} (h : Owed (.succeeded id :: log)) :
    Owed log := by
  obtain ⟨later, earlier, heq, hfailed⟩ := h
  cases later with
  | nil => cases heq
  | cons event later =>
    obtain ⟨rfl, rfl⟩ := List.cons.inj heq
    refine ⟨later, earlier, rfl, fun x hx => ?_⟩
    rcases List.mem_cons.mp (hfailed x (.tail _ hx)) with h' | h'
    · cases h'
    · exact h'

@[simp] theorem stopTimer_afterFunc_scoringStatus :
    s.stopTimer.afterFunc.scoringStatus = s.scoringStatus := by
  unfold stopTimer
  split <;> rfl

@[simp] theorem stopTimer_afterFunc_running : s.stopTimer.afterFunc.running = s.running := by
  unfold stopTimer
  split <;> rfl

@[simp] theorem stopTimer_afterFunc_nextRecompute :
    s.stopTimer.afterFunc.nextRecompute = s.nextRecompute := by
  unfold stopTimer
  split <;> rfl

@[simp] theorem stopTimer_afterFunc_log : s.stopTimer.afterFunc.log = s.log := by
  unfold stopTimer
  split <;> rfl

/-- A timer that is armed anew is awaited. -/
theorem awaited_afterFunc : s.afterFunc.Awaited := .inl (List.cons_ne_nil _ _)

theorem Invariant.schedule (h : s.Invariant) : (s.step .schedule).Invariant := by
  simp only [step, scheduleScoreboardRecompute]
  have hfailed : ∀ id, .failed id ∈ ScoringEvent.requested :: s.log → id < s.nextRecompute :=
    fun id hid => h.failed id (by simpa using hid)
  split
  · rename_i hflight
    exact ⟨h.running, h.started, hfailed, fun _ => rfl, fun _ => .inr (.inr hflight)⟩
  · refine ⟨by simpa using h.running, by simpa using h.started, by simpa using hfailed, by simp,
      fun _ => ?_⟩
    exact .inl (List.cons_ne_nil _ _)

theorem Invariant.fire (h : s.Invariant) (timer : Nat) : (s.step (.fire timer)).Invariant := by
  simp only [step]
  split
  · exact ⟨h.running, h.started, h.failed, h.owed, fun _ => .inr (.inl (Nat.succ_pos _))⟩
  · exact h

theorem Invariant.callback (h : s.Invariant) : (s.step .callback).Invariant := by
  simp only [step]
  split
  swap
  · exact h
  unfold beginRecompute
  dsimp only
  split
  · rename_i hflight
    exact ⟨h.running, h.started, h.failed, fun _ => rfl, fun _ => .inr (.inr hflight)⟩
  · rename_i hflight
    have hrunning : s.running = [] := by
      have hlength := h.running
      rw [if_neg hflight] at hlength
      exact List.length_eq_zero_iff.mp hlength
    have hnew : .failed s.nextRecompute ∉ s.log := fun hmem => lt_irrefl _ (h.failed _ hmem)
    refine ⟨by simp [hrunning], by simp [hrunning], fun id hid => ?_, fun howed => ?_, nofun⟩
    · have hlt := h.failed id (by simpa using hid)
      exact hlt.trans (Nat.lt_succ_self _)
    · exact absurd howed (not_owed_started hnew)

theorem Invariant.complete (h : s.Invariant) (id : Nat) (now : Time) (err : Option String) :
    (s.step (.complete id now err)).Invariant := by
  simp only [step]
  split
  swap
  · exact h
  rename_i hid
  -- the recompute that ends was the only one
  have hrunning : (s.running.erase id).length = 0 := by
    have hlength := h.running
    have hpos := List.length_pos_of_mem hid
    rw [List.length_erase_of_mem hid]
    split at hlength <;> omega
  have hnone : s.running.erase id = [] := List.length_eq_zero_iff.mp hrunning
  unfold endRecompute
  cases err with
  | some message =>
    refine ⟨by simp [hnone], by simp [hnone], fun x hx => ?_, by simp, fun _ => awaited_afterFunc⟩
    simp only [stopTimer_afterFunc_log, stopTimer_afterFunc_nextRecompute, List.mem_cons,
      ScoringEvent.failed.injEq] at hx ⊢
    rcases hx with rfl | hx
    · exact h.started _ hid
    · exact h.failed x hx
  | none =>
    dsimp only
    have hfailed : ∀ x, .failed x ∈ ScoringEvent.succeeded id :: s.log → x < s.nextRecompute :=
      fun x hx => h.failed x (by simpa using hx)
    split
    · rename_i hpending
      exact ⟨by simp [hnone], by simp [hnone], by simpa using hfailed,
        fun _ => by simpa using hpending, fun _ => awaited_afterFunc⟩
    · rename_i hpending
      exact ⟨by simp [hnone], by simp [hnone], hfailed,
        fun howed => h.owed (owed_of_succeeded howed), fun hp => absurd hp hpending⟩

theorem Invariant.run (h : s.Invariant) (steps : List ScoringStep) : (s.run steps).Invariant := by
  induction steps generalizing s with
  | nil => exact h
  | cons label steps ih =>
    refine ih ?_
    cases label with
    | schedule => exact h.schedule
    | fire timer => exact h.fire timer
    | callback => exact h.callback
    | complete id now err => exact h.complete id now err

theorem Invariant.initial : Invariant {} where
  running := rfl
  started := nofun
  failed := nofun
  owed := by
    rintro ⟨later, earlier, heq, -⟩
    cases later <;> cases heq
  awaited := nofun

/-- In every state of every run: while a request is owed a recompute, a timer is armed, a callback
waits, or a recompute is in flight with `Pending` set; the failure of a recompute in flight arms a
timer; and at most one recompute is in flight. -/
theorem requests_awaited (steps : List ScoringStep) :
    let s := run {} steps
    (Owed s.log → s.armed ≠ [] ∨ 0 < s.fired ∨
      s.running ≠ [] ∧ s.scoringStatus.inFlight ∧ s.scoringStatus.pending) ∧
    (∀ id ∈ s.running, ∀ now message, (s.step (.complete id now (some message))).armed ≠ []) ∧
    s.running.length ≤ 1 := by
  intro s
  have h : s.Invariant := Invariant.initial.run steps
  refine ⟨fun howed => ?_, fun id hid now message => ?_, ?_⟩
  · have hpending := h.owed howed
    rcases h.awaited hpending with harmed | hfired | hflight
    · exact .inl harmed
    · exact .inr (.inl hfired)
    · refine .inr (.inr ⟨fun hnil => ?_, hflight, hpending⟩)
      have hlength := h.running
      rw [if_pos hflight, hnil] at hlength
      cases hlength
  · rw [step, if_pos hid]
    exact List.cons_ne_nil _ _
  · rw [h.running]
    split <;> omega

/-- A request during a recompute is owed the next one, which `Pending` stands for. -/
theorem requests_awaited_duringRecompute :
    let s := run {} [.schedule, .fire 0, .callback, .schedule]
    Owed s.log ∧ (s.armed ≠ [] ∨ 0 < s.fired ∨
      s.running ≠ [] ∧ s.scoringStatus.inFlight ∧ s.scoringStatus.pending) := by
  have howed : Owed (run {} [.schedule, .fire 0, .callback, .schedule]).log :=
    ⟨[], [.started 0, .requested], rfl, nofun⟩
  exact ⟨howed, (requests_awaited _).1 howed⟩

/-- The second request stops a timer whose callback has started already. The callback then drops
the handle of the new timer, which is still armed. -/
example : let s := run {} [.schedule, .fire 0, .schedule, .callback]
    s.scoringTimer = none ∧ s.armed = [1] ∧ s.running = [0] := by decide

end ScoringDebounce

end ADPlatform.GameCore
