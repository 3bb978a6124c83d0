import ADPlatform.GameCore.MemoryStore

/-! # The interval scheduler and its run loops

`intervalGameScheduler` drives the ticks of the game from a goroutine, its run loop. `startLocked`,
`stopLocked`, `Update` and the end of a tick hold the scheduler's mutex and are one step each. A
loop waits for its timer and spends its ticks without the mutex, so a loop whose context has been
cancelled may still be inside a tick when the next loop starts.

`cancel` carries the proof: a context that is not cancelled belongs to the loop which `cancel`
stands for, on every history (`Linked`). What the reported state says about it depends on how the
scheduler came to be: the state is restored from the store before a loop is started, and it stays
when the start is refused. -/

namespace ADPlatform.GameCore
open Text

/-- The scheduler's part of a store; the errors of the last two are dropped by the scheduler. -/
structure SchedulerStore (σ : Type) where
  loadSchedulerState : σ → Int → Except StoreError GameSchedulerStatus
  saveSchedulerState : σ → GameSchedulerStatus → Time → Except StoreError σ
  appendSchedulerEvent : σ → SchedulerEventRecord → Except StoreError σ

namespace MemoryGameStore
variable {K : Type} (s : MemoryGameStore K)

/-- `LoadSchedulerState`: the configured interval replaces the stored one. -/
def loadSchedulerState (intervalSeconds : Int) : GameSchedulerStatus :=
  if intervalSeconds > 0 then { s.scheduler with intervalSeconds := intervalSeconds }
  else s.scheduler

/-- The memory store as the scheduler's; it never fails. -/
def schedulerStore (K : Type) : SchedulerStore (MemoryGameStore K) where
  loadSchedulerState s intervalSeconds := .ok (s.loadSchedulerState intervalSeconds)
  saveSchedulerState s status _ := .ok (s.saveSchedulerState status)
  appendSchedulerEvent s event := .ok (s.appendSchedulerEvent event).1

end MemoryGameStore

/-- Where a run loop stands: at its `select`, in the tick that began at `tickStart`, in front of
the mutex with what the tick gave, or returned. A tick gives its id or the text of its error. -/
inductive LoopPhase where
  | waiting
  | ticking (tickStart : Time)
  | ticked (now : Time) (nextWait : Int) (tick : Except String Int)
  | returned

/-- A run loop with its context. `startedIn` is a history variable, the match as it was when the
loop was started. -/
structure RunLoop where
  cancelled : Bool := false
  phase : LoopPhase := .waiting
  startedIn : MatchState

/-- The loop exists and its context is not cancelled. -/
def RunLoop.live (l : RunLoop) : Prop := l.cancelled = false ∧ l.phase ≠ .returned

/-- What the scheduler is made with. -/
structure SchedulerConfig where
  interval : Int
  autoStart : Bool := false
  /-- the scheduler was given a `match` function -/
  hasMatch : Bool := true

/-- What a call finds around the scheduler: the clock, the match, and the error with which asking
for the match fails, if it does. -/
structure SchedulerMoment where
  now : Time
  matchState : MatchState
  matchError : Option StoreError := none

/-- `cancel` is the position in `loops` of the loop whose context it cancels. -/
structure IntervalGameScheduler (σ : Type) where
  store : Option σ
  interval : Int
  status : GameSchedulerStatus
  cancel : Option Nat := none
  loops : List RunLoop := []

/-- A second, as a `time.Duration`. -/
def second : Int := 1000000000

/-- What organizers ask of the scheduler. -/
inductive SchedulerCall where
  | start (source message : String) (m : SchedulerMoment)
  | stop (source message : String) (m : SchedulerMoment)
  | update (interval : Int) (m : SchedulerMoment)

/-- What a run loop does: its `select` takes the timer or the end of the context, its tick is over,
or it gets the mutex behind a tick. -/
inductive LoopEvent where
  | timer (now : Time)
  | done
  | advanced (now : Time) (tick : Except String Int)
  | finish

/-- A step: a call, or something that happens to a loop. -/
inductive SchedulerStep where
  | call (c : SchedulerCall)
  | loop (id : Nat) (e : LoopEvent)

namespace IntervalGameScheduler
variable {σ : Type} (db : SchedulerStore σ) (cfg : SchedulerConfig) (s : IntervalGameScheduler σ)

/-- `persistLocked`: an error is only logged. -/
def persistLocked (now : Time) : IntervalGameScheduler σ :=
  match s.store with
  | none => s
  | some store =>
    match db.saveSchedulerState store s.status now with
    | .ok store => { s with store := some store }
    | .error _ => s

/-- `appendEventLocked`: an error is only logged. -/
def appendEventLocked (event : SchedulerEventRecord) : IntervalGameScheduler σ :=
  match s.store with
  | none => s
  | some store =>
    match db.appendSchedulerEvent store event with
    | .ok store => { s with store := some store }
    | .error _ => s

/-- `persistLocked` and `appendEventLocked`, as every change of the status ends. -/
def record (now : Time) (eventType source message : String) (tickID : Int) :
    IntervalGameScheduler σ :=
  (s.persistLocked db now).appendEventLocked db {
    eventType := eventType
    source := source
    state := s.status.state
    tickID := tickID
    message := message
    createdAt := now }

/-- A new context and its run loop. -/
def spawn (matchState : MatchState) : IntervalGameScheduler σ :=
  { s with cancel := some s.loops.length, loops := s.loops ++ [{ startedIn := matchState }] }

/-- The call of `cancel`, where there is one. -/
def cancelContext : IntervalGameScheduler σ :=
  match s.cancel with
  | none => s
  | some id => { s with loops := s.loops.modify id fun l => { l with cancelled := true } }

/-- The error that keeps a loop from starting. -/
def startRefusal (m : SchedulerMoment) : Option StoreError :=
  if cfg.hasMatch then
    match m.matchError with
    | some e => some e
    | none =>
      match m.matchState with
      | .finished => some .contestOver
      | .paused => some .contestPaused
      | .running => none
      | .notStarted => some .contestNotStarted
  else none

/-- There is nothing to start. -/
def started : Bool := s.status.state = "running" && s.cancel.isSome

/-- `startLocked`. -/
def startLocked (source message : String) (m : SchedulerMoment) :
    IntervalGameScheduler σ × Option StoreError :=
  if s.started then (s, none)
  else
    match startRefusal cfg m with
    | some e => (s, some e)
    | none =>
      let s := { s with
        status := { s.status with
          state := "running"
          intervalSeconds := s.interval.tdiv second
          nextRunAt := (m.now + s.interval).formatRFC3339
          lastError := "" } }
      ((s.spawn m.matchState).record db m.now "started" source message 0, none)

/-- `stopLocked`. -/
def stopLocked (source message : String) (m : SchedulerMoment) : IntervalGameScheduler σ :=
  let s := { s.cancelContext with
    cancel := none
    status := { s.status with
      state := "stopped"
      intervalSeconds := s.interval.tdiv second
      nextRunAt := none } }
  s.record db m.now "stopped" source message 0

/-- The interval here and in the status. -/
def setInterval (interval : Int) : IntervalGameScheduler σ :=
  { s with interval := interval, status :=
    { s.status with intervalSeconds := interval.tdiv second } }

/-- Put a new loop in the place of the one that runs. -/
def restart (m : SchedulerMoment) : IntervalGameScheduler σ :=
  let s := { s.cancelContext with
    status := { s.status with nextRunAt := (m.now + s.interval).formatRFC3339 } }
  s.spawn m.matchState

/-- `Update`: intervals below a second are ignored, and a running loop is restarted. -/
def update (interval : Int) (m : SchedulerMoment) : IntervalGameScheduler σ :=
  if interval < second then s
  else
    let s := s.setInterval interval
    let s := if s.status.state = "running" then s.restart m else s
    s.record db m.now "updated" "organizer" "scheduler interval updated" 0

/-- The scheduler with the state that the store held for it. -/
def load (store : Option σ) : IntervalGameScheduler σ :=
  let seconds := cfg.interval.tdiv second
  let fresh : GameSchedulerStatus := { state := "stopped", intervalSeconds := seconds }
  { store := store
    interval := cfg.interval
    status :=
      match store.map (db.loadSchedulerState · seconds) with
      | some (.ok persisted) => persisted
      | _ => fresh }

end IntervalGameScheduler

/-- `newIntervalGameScheduler`: a scheduler that was stored as running goes on. -/
def newIntervalGameScheduler {σ : Type} (db : SchedulerStore σ) (cfg : SchedulerConfig)
    (store : Option σ) (m : SchedulerMoment) : IntervalGameScheduler σ :=
  let s := IntervalGameScheduler.load db cfg store
  if s.status.state = "running" then
    (s.startLocked db cfg "restore" "scheduler state restored on process start" m).1
  else if cfg.autoStart then
    (s.startLocked db cfg "config" "scheduler started from configuration" m).1
  else s

/-- What the match monitor asks of the scheduler behind a pass that found `status`. -/
def MatchWindowMonitor.schedulerCall (status : GameMatchStatus) (scheduler : GameSchedulerStatus)
    (m : SchedulerMoment) : Option SchedulerCall :=
  if status.state = .running && matchWindowConfigured status && scheduler.state ≠ "running" then
    some (.start "schedule" "scheduler started by configured match window" m)
  else if status.state ≠ .running && scheduler.state = "running" then
    some (.stop "schedule" "scheduler stopped by configured match window" m)
  else none

namespace IntervalGameScheduler
variable {σ : Type} (db : SchedulerStore σ) (cfg : SchedulerConfig) (s : IntervalGameScheduler σ)

/-! ## The run loop -/

/-- The phase of one loop replaced. -/
def setPhase (id : Nat) (phase : LoopPhase) : IntervalGameScheduler σ :=
  { s with loops := s.loops.modify id fun l => { l with phase := phase } }

/-- The wait for the next tick; the interval is read without the mutex. -/
def nextWait (tickStart now : Time) : Int := max 0 (s.interval - (now - tickStart))

/-- The part of `run` behind a tick that holds the mutex. -/
def finishTick (id : Nat) (l : RunLoop) (now : Time) (wait : Int) (tick : Except String Int) :
    IntervalGameScheduler σ :=
  if l.cancelled || s.status.state ≠ "running" then s.setPhase id .returned
  else
    let status := { s.status with
      lastRunAt := now.formatRFC3339
      nextRunAt := (now + wait).formatRFC3339
      intervalSeconds := s.interval.tdiv second }
    let s := s.setPhase id .waiting
    match tick with
    | .error message =>
      let s := { s with status := { status with lastError := trimSpace message } }
      s.record db now "tick_failed" "scheduler" s.status.lastError 0
    | .ok tickID =>
      let s := { s with status := { status with lastTickID := tickID, lastError := "" } }
      s.record db now "tick_completed" "scheduler" "scheduled tick completed successfully" tickID

/-- A step of a run loop; a loop that does not stand where the step begins does nothing. -/
def loopStep (id : Nat) (l : RunLoop) : LoopEvent → IntervalGameScheduler σ
  | .timer now =>
    match l.phase with
    | .waiting => s.setPhase id (.ticking now)
    | _ => s
  | .done =>
    match l.phase with
    | .waiting => if l.cancelled then s.setPhase id .returned else s
    | _ => s
  | .advanced now tick =>
    match l.phase with
    | .ticking tickStart => s.setPhase id (.ticked now (s.nextWait tickStart now) tick)
    | _ => s
  | .finish =>
    match l.phase with
    | .ticked now wait tick => s.finishTick db id l now wait tick
    | _ => s

/-- The scheduler after a step. -/
def step : SchedulerStep → IntervalGameScheduler σ
  | .call (.start source message m) => (s.startLocked db cfg source message m).1
  | .call (.stop source message m) => s.stopLocked db source message m
  | .call (.update interval m) => s.update db interval m
  | .loop id e =>
    match s.loops[id]? with
    | none => s
    | some l => s.loopStep db id l e

/-- The scheduler after these steps. -/
def run (steps : List SchedulerStep) : IntervalGameScheduler σ := steps.foldl (step db cfg) s

/-! ## What is claimed of a history -/

/-- A run loop with an uncancelled context exists at `id`. -/
def Live (id : Nat) : Prop := ∃ l, s.loops[id]? = some l ∧ l.live

/-- The context of the loop at `id` has been cancelled. -/
def Cancelled (id : Nat) : Prop := ∃ l, s.loops[id]? = some l ∧ l.cancelled = true

/-- Every loop was started while the match was running. -/
def StartedRunning : Prop := ∀ l ∈ s.loops, l.startedIn = .running

/-- A loop whose context is cancelled stays so, and its own steps leave the status alone. -/
def CancelledSilent : Prop :=
  ∀ id, s.Cancelled id →
    (∀ next, (s.step db cfg next).Cancelled id) ∧
    ∀ e, (s.step db cfg (.loop id e)).status = s.status

/-- The invariant: one live loop while the state is "running", none otherwise, and no cancelled loop
starts another tick. -/
structure Sound : Prop where
  running_iff : s.status.state = "running" ↔ ∃! id, s.Live id
  startedRunning : s.StartedRunning
  cancelledSilent : s.CancelledSilent db cfg

/-- The step starts a loop without asking for the match: an update of a running scheduler, or the
start of one that has no `match` function. -/
def startsUnasked : SchedulerStep → Option SchedulerMoment
  | .call (.start _ _ m) => if !cfg.hasMatch && !s.started then some m else none
  | .call (.update interval m) =>
    if second ≤ interval && s.status.state = "running" then some m else none
  | .call (.stop ..) | .loop .. => none

/-- A loop that is started without asking is started while the match runs. -/
def stepAllowed (next : SchedulerStep) : Bool :=
  (s.startsUnasked cfg next).all (·.matchState = .running)

/-- Every step can happen when its turn comes. -/
def runAllowed (s : IntervalGameScheduler σ) : List SchedulerStep → Bool
  | [] => true
  | next :: steps => s.stepAllowed cfg next && runAllowed (s.step db cfg next) steps

/-- A restored state is one in which the scheduler can start. -/
def loadAllowed (store : Option σ) (m : SchedulerMoment) : Bool :=
  let s := load db cfg store
  (s.status.state ≠ "running" || (startRefusal cfg m).isNone) &&
    (cfg.hasMatch || m.matchState = .running || (s.status.state ≠ "running" && !cfg.autoStart))

end IntervalGameScheduler

namespace IntervalGameScheduler
variable {σ : Type} {db : SchedulerStore σ} {cfg : SchedulerConfig} {s : IntervalGameScheduler σ}

/-! ## What an operation does to the loops -/

section Record
variable {now : Time} {eventType source message : String} {tickID : Int}

theorem persistLocked_eq (db : SchedulerStore σ) (s : IntervalGameScheduler σ) (now : Time) :
    ∃ store, s.persistLocked db now = { s with store := store } := by
  unfold persistLocked
  split
  · exact ⟨s.store, rfl⟩
  · split
    · exact ⟨_, rfl⟩
    · exact ⟨s.store, rfl⟩

theorem appendEventLocked_eq (db : SchedulerStore σ) (s : IntervalGameScheduler σ)
    (event : SchedulerEventRecord) :
    ∃ store, s.appendEventLocked db event = { s with store := store } := by
  unfold appendEventLocked
  split
  · exact ⟨s.store, rfl⟩
  · split
    · exact ⟨_, rfl⟩
    · exact ⟨s.store, rfl⟩

/-- Only the store sees what is recorded. -/
theorem record_eq :
    ∃ store, s.record db now eventType source message tickID = { s with store := store } := by
  obtain ⟨store, h⟩ := persistLocked_eq db s now
  unfold record
  rw [h]
  exact appendEventLocked_eq db { s with store := store } _

@[simp] theorem record_status :
    (s.record db now eventType source message tickID).status = s.status := by
  obtain ⟨store, h⟩ := record_eq
  rw [h]

@[simp] theorem record_cancel :
    (s.record db now eventType source message tickID).cancel = s.cancel := by
  obtain ⟨store, h⟩ := record_eq
  rw [h]

@[simp] theorem record_loops :
    (s.record db now eventType source message tickID).loops = s.loops := by
  obtain ⟨store, h⟩ := record_eq
  rw [h]

end Record

section Spawn
variable {matchState : MatchState} {id : Nat}

theorem live_spawn : (s.spawn matchState).Live id ↔ s.Live id ∨ id = s.loops.length := by
  unfold Live spawn
  rcases lt_trichotomy id s.loops.length with h | rfl | h
  · simp [List.getElem?_append_left h, h.ne]
  · simp [RunLoop.live]
  · have hnone : (s.loops ++ [{ startedIn := matchState : RunLoop }])[id]? = none := by
      rw [List.getElem?_eq_none_iff, List.length_append, List.length_singleton]
      exact h
    simp [hnone, List.getElem?_eq_none_iff.mpr h.le, h.ne']

theorem Cancelled.spawn (h : s.Cancelled id) : (s.spawn matchState).Cancelled id := by
  obtain ⟨l, hl, hcancelled⟩ := h
  have hlt : id < s.loops.length := (List.getElem?_eq_some_iff.mp hl).1
  exact ⟨l, (List.getElem?_append_left hlt).trans hl, hcancelled⟩

end Spawn

/-- The loops and what `cancel` stands for, on every history. -/
structure Linked (s : IntervalGameScheduler σ) : Prop where
  live_iff : ∀ id, s.Live id ↔ s.cancel = some id
  running : s.cancel ≠ none → s.status.state = "running"

section Modify
variable {id : Nat} {f : RunLoop → RunLoop}

theorem Cancelled.modify (h : s.Cancelled id)
    (hf : ∀ l, l.cancelled = true → (f l).cancelled = true)
    (place : Nat) : ({ s with loops := s.loops.modify place f }).Cancelled id := by
  obtain ⟨l, hl, hcancelled⟩ := h
  by_cases heq : place = id
  · subst heq
    exact ⟨f l, by simp [hl], hf l hcancelled⟩
  · exact ⟨l, by simpa [heq] using hl, hcancelled⟩

theorem Cancelled.cancelContext (h : s.Cancelled id) : s.cancelContext.Cancelled id := by
  unfold IntervalGameScheduler.cancelContext
  split
  · exact h
  · exact h.modify (fun _ _ => rfl) _

theorem Cancelled.setPhase (h : s.Cancelled id) (place : Nat) (phase : LoopPhase) :
    (s.setPhase place phase).Cancelled id := by
  have hkept : ∀ l : RunLoop, l.cancelled = true → ({ l with phase := phase }).cancelled = true :=
    fun _ hl => hl
  exact h.modify hkept place

/-- Behind a call of `cancel` no context is left uncancelled. -/
theorem Linked.not_live_cancelContext (h : s.Linked) : ¬s.cancelContext.Live id := by
  rintro ⟨l, hl, hlive⟩
  unfold IntervalGameScheduler.cancelContext at hl
  split at hl
  · rename_i hnone
    have hcancel := (h.live_iff id).mp ⟨l, hl, hlive⟩
    rw [hnone] at hcancel
    cases hcancel
  · rename_i current hcurrent
    by_cases heq : current = id
    · subst heq
      rw [List.getElem?_modify_eq] at hl
      obtain ⟨before, _, rfl⟩ := Option.map_eq_some_iff.mp hl
      cases hlive.1
    · simp only [List.getElem?_modify_ne _ _ heq] at hl
      have hcancel := (h.live_iff id).mp ⟨l, hl, hlive⟩
      rw [hcurrent] at hcancel
      exact heq (Option.some.inj hcancel)

/-- A phase that does not end a live loop, nor revive one, changes no loop that counts. -/
theorem live_setPhase {l : RunLoop} {phase : LoopPhase} (hl : s.loops[id]? = some l)
    (hphase : ({ l with phase := phase } : RunLoop).live ↔ l.live) (other : Nat) :
    (s.setPhase id phase).Live other ↔ s.Live other := by
  unfold Live setPhase
  by_cases heq : id = other
  · subst heq
    simpa [hl] using hphase
  · simp [heq]

end Modify

/-! ## Steps keep the link -/

theorem Linked.record (h : s.Linked) {now : Time} {eventType source message : String}
    {tickID : Int} : (s.record db now eventType source message tickID).Linked := by
  obtain ⟨store, heq⟩ := record_eq
  rw [heq]
  exact ⟨h.live_iff, h.running⟩

/-- A loop that is started where no context is left uncancelled. -/
theorem Linked.spawn (hnone : ∀ id, ¬s.Live id) (hrunning : s.status.state = "running")
    (matchState : MatchState) : (s.spawn matchState).Linked := by
  refine ⟨fun id => ?_, fun _ => hrunning⟩
  have hcancel : (s.spawn matchState).cancel = some s.loops.length := rfl
  rw [live_spawn, hcancel, or_iff_right (hnone id), Option.some.injEq, eq_comm]

theorem Linked.not_live (h : s.Linked) (hnone : s.cancel = none) (id : Nat) : ¬s.Live id := by
  intro hlive
  have hcancel := (h.live_iff id).mp hlive
  rw [hnone] at hcancel
  cases hcancel

/-- A scheduler that a start has to look at has no context left uncancelled. -/
theorem Linked.cancel_eq_none (h : s.Linked) (hstarted : ¬s.started = true) : s.cancel = none := by
  by_contra hcancel
  apply hstarted
  simp [started, h.running hcancel, Option.isSome_iff_ne_none, hcancel]

theorem Linked.start (h : s.Linked) (source message : String) (m : SchedulerMoment) :
    (s.startLocked db cfg source message m).1.Linked := by
  unfold startLocked
  split
  · exact h
  rename_i hstarted
  split
  · exact h
  · refine Linked.record ?_
    refine Linked.spawn (fun id => ?_) rfl m.matchState
    exact h.not_live (h.cancel_eq_none hstarted) id

theorem Linked.stop (h : s.Linked) (source message : String) (m : SchedulerMoment) :
    (s.stopLocked db source message m).Linked := by
  refine Linked.record ⟨fun id => ⟨fun hlive => ?_, fun hcancel => ?_⟩, fun hcancel => ?_⟩
  · exact (h.not_live_cancelContext hlive).elim
  · cases hcancel
  · exact (hcancel rfl).elim

theorem Linked.restart (h : s.Linked) (hrunning : s.status.state = "running")
    (m : SchedulerMoment) : (s.restart m).Linked := by
  refine Linked.spawn (fun id => ?_) ?_ m.matchState
  · exact h.not_live_cancelContext
  · exact hrunning

theorem Linked.update (h : s.Linked) (interval : Int) (m : SchedulerMoment) :
    (s.update db interval m).Linked := by
  unfold IntervalGameScheduler.update
  split
  · exact h
  refine Linked.record ?_
  have hset : (s.setInterval interval).Linked := ⟨h.live_iff, h.running⟩
  split
  · rename_i hrunning
    exact hset.restart hrunning m
  · exact hset

theorem Linked.setPhase (h : s.Linked) {id : Nat} {l : RunLoop} {phase : LoopPhase}
    (hl : s.loops[id]? = some l) (hphase : ({ l with phase := phase } : RunLoop).live ↔ l.live) :
    (s.setPhase id phase).Linked :=
  ⟨fun other => (live_setPhase hl hphase other).trans (h.live_iff other), h.running⟩

/-- A loop may return when its context is cancelled, or when the scheduler does not run. -/
theorem Linked.setReturned (h : s.Linked) {id : Nat} {l : RunLoop} (hl : s.loops[id]? = some l)
    (hreturn : l.cancelled = true ∨ s.status.state ≠ "running") :
    (s.setPhase id .returned).Linked := by
  refine h.setPhase hl ⟨fun hlive => (hlive.2 rfl).elim, fun hlive => ?_⟩
  rcases hreturn with hcancelled | hstopped
  · rw [hlive.1] at hcancelled
    cases hcancelled
  · have hcancel := (h.live_iff id).mp ⟨l, hl, hlive⟩
    exact (hstopped (h.running (by simp [hcancel]))).elim

theorem Linked.finishTick (h : s.Linked) {id : Nat} {l : RunLoop} (hl : s.loops[id]? = some l)
    (hphase : l.phase ≠ .returned) (now : Time) (wait : Int) (tick : Except String Int) :
    (s.finishTick db id l now wait tick).Linked := by
  unfold IntervalGameScheduler.finishTick
  split
  · rename_i hreturn
    exact h.setReturned hl (by simpa using hreturn)
  · have hwaiting : (s.setPhase id .waiting).Linked :=
      h.setPhase hl (by simp [RunLoop.live, hphase])
    dsimp only
    split
    · refine Linked.record ?_
      exact ⟨hwaiting.live_iff, hwaiting.running⟩
    · refine Linked.record ?_
      exact ⟨hwaiting.live_iff, hwaiting.running⟩

theorem Linked.loopStep (h : s.Linked) {id : Nat} {l : RunLoop} (hl : s.loops[id]? = some l)
    (e : LoopEvent) : (s.loopStep db id l e).Linked := by
  cases e with
  | timer now =>
    simp only [IntervalGameScheduler.loopStep]
    split
    · rename_i hphase
      exact h.setPhase hl (by simp [RunLoop.live, hphase])
    · exact h
  | done =>
    simp only [IntervalGameScheduler.loopStep]
    split
    · split
      · rename_i hcancelled
        exact h.setReturned hl (.inl hcancelled)
      · exact h
    · exact h
  | advanced now tick =>
    simp only [IntervalGameScheduler.loopStep]
    split
    · rename_i hphase
      exact h.setPhase hl (by simp [RunLoop.live, hphase])
    · exact h
  | finish =>
    simp only [IntervalGameScheduler.loopStep]
    split
    · rename_i hphase
      exact h.finishTick hl (by simp [hphase]) _ _ _
    · exact h

theorem Linked.step (h : s.Linked) (next : SchedulerStep) : (s.step db cfg next).Linked := by
  cases next with
  | call c =>
    cases c with
    | start source message m => exact h.start source message m
    | stop source message m => exact h.stop source message m
    | update interval m => exact h.update interval m
  | loop id e =>
    simp only [IntervalGameScheduler.step]
    split
    · exact h
    · rename_i hl
      exact h.loopStep hl e

/-! ## The reported state, the match and the cancelled loops -/

/-- A scheduler that reports to be running has a context to cancel. -/
def Steady (s : IntervalGameScheduler σ) : Prop := s.status.state = "running" → s.cancel ≠ none

theorem Steady.loopStep (h : s.Steady) {id : Nat} {l : RunLoop} (e : LoopEvent) :
    (s.loopStep db id l e).Steady := by
  have hfinish : ∀ now wait tick, (s.finishTick db id l now wait tick).Steady := by
    intro now wait tick
    unfold finishTick
    split
    · exact h
    · dsimp only
      split <;> simpa [Steady, setPhase] using h
  cases e <;> simp only [IntervalGameScheduler.loopStep]
  case timer now => split <;> exact h
  case done => split <;> [split <;> exact h; exact h]
  case advanced now tick => split <;> exact h
  case finish => split <;> [exact hfinish _ _ _; exact h]

theorem Steady.step (h : s.Steady) (next : SchedulerStep) : (s.step db cfg next).Steady := by
  cases next with
  | call c =>
    cases c with
    | start source message m =>
      simp only [IntervalGameScheduler.step, startLocked]
      split
      · exact h
      · split
        · exact h
        · simp [Steady, spawn]
    | stop source message m => simp [IntervalGameScheduler.step, stopLocked, Steady]
    | update interval m =>
      simp only [IntervalGameScheduler.step, update]
      split
      · exact h
      · split
        · simp [Steady, restart, spawn]
        · simpa [Steady, setInterval] using h
  | loop id e =>
    simp only [IntervalGameScheduler.step]
    split
    · exact h
    · exact h.loopStep e

theorem StartedRunning.modify (h : s.StartedRunning) {id : Nat} {f : RunLoop → RunLoop}
    (hf : ∀ l, (f l).startedIn = l.startedIn) :
    ({ s with loops := s.loops.modify id f }).StartedRunning := by
  intro l hl
  obtain ⟨place, hplace⟩ := List.mem_iff_getElem?.mp hl
  rw [List.getElem?_modify] at hplace
  obtain ⟨before, hbefore, rfl⟩ := Option.map_eq_some_iff.mp hplace
  have hstarted := h before (List.mem_of_getElem? hbefore)
  split
  · rw [hf, hstarted]
  · exact hstarted

theorem StartedRunning.spawn (h : s.StartedRunning) {matchState : MatchState}
    (hmatch : matchState = .running) : (s.spawn matchState).StartedRunning := by
  intro l hl
  rcases List.mem_append.mp hl with hl | hl
  · exact h l hl
  · rw [List.mem_singleton.mp hl]
    exact hmatch

theorem StartedRunning.cancelContext (h : s.StartedRunning) : s.cancelContext.StartedRunning := by
  unfold IntervalGameScheduler.cancelContext
  split
  · exact h
  · exact h.modify fun _ => rfl

theorem StartedRunning.setPhase (h : s.StartedRunning) (id : Nat) (phase : LoopPhase) :
    (s.setPhase id phase).StartedRunning :=
  h.modify (f := fun l => { l with phase := phase }) fun _ => rfl

theorem StartedRunning.record (h : s.StartedRunning) {now : Time}
    {eventType source message : String} {tickID : Int} :
    (s.record db now eventType source message tickID).StartedRunning := by
  obtain ⟨store, heq⟩ := record_eq
  rw [heq]
  exact h

/-- A start that is not refused has seen the match running. -/
theorem running_of_not_refused {m : SchedulerMoment} (hmatch : cfg.hasMatch = true)
    (h : startRefusal cfg m = none) : m.matchState = .running := by
  unfold startRefusal at h
  rw [if_pos hmatch] at h
  split at h
  · cases h
  · split at h <;> first | assumption | cases h

theorem StartedRunning.start (h : s.StartedRunning) (source message : String) {m : SchedulerMoment}
    (hm : cfg.hasMatch = true ∨ m.matchState = .running ∨ s.started = true) :
    (s.startLocked db cfg source message m).1.StartedRunning := by
  unfold startLocked
  split
  · exact h
  rename_i hstarted
  split
  · exact h
  rename_i hrefusal
  have hmatch : m.matchState = .running := by
    rcases hm with hm | hm | hm
    · exact running_of_not_refused hm hrefusal
    · exact hm
    · exact (hstarted hm).elim
  refine StartedRunning.record ?_
  exact StartedRunning.spawn h hmatch

theorem StartedRunning.loopStep (h : s.StartedRunning) {id : Nat} {l : RunLoop} (e : LoopEvent) :
    (s.loopStep db id l e).StartedRunning := by
  cases e <;> simp only [IntervalGameScheduler.loopStep]
  case timer now => split <;> [exact h.setPhase _ _; exact h]
  case done => split <;> [split <;> [exact h.setPhase _ _; exact h]; exact h]
  case advanced now tick => split <;> [exact h.setPhase _ _; exact h]
  case finish =>
    split
    · unfold finishTick
      split
      · exact h.setPhase _ _
      · have hwaiting := h.setPhase id .waiting
        dsimp only
        split
        · refine StartedRunning.record ?_
          exact hwaiting
        · refine StartedRunning.record ?_
          exact hwaiting
    · exact h

theorem StartedRunning.step (h : s.StartedRunning) {next : SchedulerStep}
    (hallowed : s.stepAllowed cfg next = true) : (s.step db cfg next).StartedRunning := by
  cases next with
  | call c =>
    cases c with
    | start source message m =>
      refine h.start source message ?_
      simp only [stepAllowed, startsUnasked] at hallowed
      split at hallowed
      · exact .inr (.inl (by simpa using hallowed))
      · rename_i hasked
        cases hmatch : cfg.hasMatch with
        | true => exact .inl rfl
        | false => exact .inr (.inr (by simpa [hmatch] using hasked))
    | stop source message m =>
      refine StartedRunning.record ?_
      exact h.cancelContext
    | update interval m =>
      simp only [IntervalGameScheduler.step, update]
      split
      · exact h
      rename_i hinterval
      refine StartedRunning.record ?_
      split
      · rename_i hrunning
        have hasked : s.startsUnasked cfg (.call (.update interval m)) = some m := by
          unfold startsUnasked
          exact if_pos (by simpa [not_lt.mp hinterval, setInterval] using hrunning)
        rw [stepAllowed, hasked] at hallowed
        refine StartedRunning.spawn ?_ (by simpa using hallowed)
        exact StartedRunning.cancelContext (s := s.setInterval interval) h
      · exact h
  | loop id e =>
    simp only [IntervalGameScheduler.step]
    split
    · exact h
    · exact h.loopStep e

theorem Cancelled.record {id : Nat} (h : s.Cancelled id) {now : Time}
    {eventType source message : String} {tickID : Int} :
    (s.record db now eventType source message tickID).Cancelled id := by
  obtain ⟨store, heq⟩ := record_eq
  rw [heq]
  exact h

theorem Cancelled.finishTick {id : Nat} (h : s.Cancelled id) (place : Nat) (l : RunLoop)
    (now : Time) (wait : Int) (tick : Except String Int) :
    (s.finishTick db place l now wait tick).Cancelled id := by
  unfold IntervalGameScheduler.finishTick
  split
  · exact h.setPhase _ _
  · have hwaiting := h.setPhase place .waiting
    dsimp only
    split
    · refine Cancelled.record ?_
      exact hwaiting
    · refine Cancelled.record ?_
      exact hwaiting

theorem Cancelled.step {id : Nat} (h : s.Cancelled id) (next : SchedulerStep) :
    (s.step db cfg next).Cancelled id := by
  cases next with
  | call c =>
    cases c with
    | start source message m =>
      simp only [IntervalGameScheduler.step, startLocked]
      split
      · exact h
      · split
        · exact h
        · refine Cancelled.record ?_
          exact Cancelled.spawn h
    | stop source message m =>
      refine Cancelled.record ?_
      exact h.cancelContext
    | update interval m =>
      simp only [IntervalGameScheduler.step, update]
      split
      · exact h
      · refine Cancelled.record ?_
        split
        · refine Cancelled.spawn ?_
          exact Cancelled.cancelContext (s := s.setInterval interval) h
        · exact h
  | loop place e =>
    simp only [IntervalGameScheduler.step]
    split
    · exact h
    · cases e <;> simp only [IntervalGameScheduler.loopStep]
      case timer now => split <;> [exact h.setPhase _ _; exact h]
      case done => split <;> [split <;> [exact h.setPhase _ _; exact h]; exact h]
      case advanced now tick => split <;> [exact h.setPhase _ _; exact h]
      case finish => split <;> [exact h.finishTick _ _ _ _ _; exact h]

/-- Behind a tick the context is looked at under the mutex, before the status is touched. -/
theorem cancelledSilent (s : IntervalGameScheduler σ) : s.CancelledSilent db cfg := by
  intro id h
  refine ⟨fun next => h.step next, fun e => ?_⟩
  obtain ⟨l, hl, hcancelled⟩ := h
  simp only [IntervalGameScheduler.step, hl]
  cases e <;> simp only [IntervalGameScheduler.loopStep]
  case timer now => split <;> rfl
  case done => split <;> [split <;> rfl; rfl]
  case advanced now tick => split <;> rfl
  case finish =>
    split
    · simp only [finishTick, hcancelled, Bool.true_or, if_true, setPhase]
    · rfl

/-! ## Histories -/

theorem load_linked (store : Option σ) : (load db cfg store).Linked := by
  refine ⟨fun id => ⟨?_, ?_⟩, fun h => (h rfl).elim⟩
  · rintro ⟨l, hl, -⟩
    cases hl
  · intro h
    cases h

theorem load_startedRunning (store : Option σ) : (load db cfg store).StartedRunning := by
  intro l hl
  cases hl

theorem new_linked (store : Option σ) (m : SchedulerMoment) :
    (newIntervalGameScheduler db cfg store m).Linked := by
  unfold newIntervalGameScheduler
  dsimp only
  split
  · exact (load_linked store).start _ _ _
  · split
    · exact (load_linked store).start _ _ _
    · exact load_linked store

theorem start_steady (source message : String) {m : SchedulerMoment}
    (h : s.status.state ≠ "running" ∨ startRefusal cfg m = none) :
    (s.startLocked db cfg source message m).1.Steady := by
  unfold startLocked
  split
  · rename_i hstarted
    intro _
    exact Option.isSome_iff_ne_none.mp (Bool.and_eq_true_iff.mp hstarted).2
  · split
    · rename_i hrefusal
      rcases h with h | h
      · exact fun hrunning => (h hrunning).elim
      · rw [h] at hrefusal
        cases hrefusal
    · simp [Steady, spawn]

theorem loadAllowed_iff {store : Option σ} {m : SchedulerMoment} :
    loadAllowed db cfg store m = true ↔
      ((load db cfg store).status.state ≠ "running" ∨ startRefusal cfg m = none) ∧
      (cfg.hasMatch = true ∨ m.matchState = .running ∨
        ((load db cfg store).status.state ≠ "running" ∧ cfg.autoStart = false)) := by
  simp [loadAllowed, or_assoc]

theorem new_steady {store : Option σ} {m : SchedulerMoment}
    (h : loadAllowed db cfg store m = true) :
    (newIntervalGameScheduler db cfg store m).Steady := by
  obtain ⟨hstart, -⟩ := loadAllowed_iff.mp h
  unfold newIntervalGameScheduler
  dsimp only
  split
  · exact start_steady _ _ hstart
  · rename_i hstopped
    split
    · exact start_steady _ _ hstart
    · exact fun hrunning => (hstopped hrunning).elim

theorem new_startedRunning {store : Option σ} {m : SchedulerMoment}
    (h : loadAllowed db cfg store m = true) :
    (newIntervalGameScheduler db cfg store m).StartedRunning := by
  obtain ⟨-, hmatch⟩ := loadAllowed_iff.mp h
  have hload : (load db cfg store).StartedRunning := load_startedRunning store
  unfold newIntervalGameScheduler
  dsimp only
  split
  · rename_i hrunning
    refine hload.start _ _ (hmatch.imp_right (·.imp_right fun h => ?_))
    exact (h.1 hrunning).elim
  · split
    · rename_i hauto
      refine hload.start _ _ (hmatch.imp_right (·.imp_right fun h => ?_))
      rw [h.2] at hauto
      cases hauto
    · exact hload

theorem runAllowed_append {steps rest : List SchedulerStep} :
    s.runAllowed db cfg (steps ++ rest) = true ↔
      s.runAllowed db cfg steps = true ∧ (s.run db cfg steps).runAllowed db cfg rest = true := by
  induction steps generalizing s with
  | nil => simp [runAllowed, run]
  | cons next steps ih =>
    simp only [List.cons_append, runAllowed, Bool.and_eq_true, ih, and_assoc]
    rfl

theorem run_sound (hlinked : s.Linked) (hsteady : s.Steady) (hstarted : s.StartedRunning)
    {steps : List SchedulerStep} (hallowed : s.runAllowed db cfg steps = true) :
    (s.run db cfg steps).Linked ∧ (s.run db cfg steps).Steady ∧
      (s.run db cfg steps).StartedRunning := by
  induction steps generalizing s with
  | nil => exact ⟨hlinked, hsteady, hstarted⟩
  | cons next steps ih =>
    obtain ⟨hnext, hrest⟩ := Bool.and_eq_true_iff.mp hallowed
    exact ih (hlinked.step next) (hsteady.step next) (hstarted.step hnext) hrest

/-- The scheduler of a process after `steps`. -/
def history (db : SchedulerStore σ) (cfg : SchedulerConfig) (store : Option σ) (m : SchedulerMoment)
    (steps : List SchedulerStep) : IntervalGameScheduler σ :=
  (newIntervalGameScheduler db cfg store m).run db cfg steps

/-- A restored state is one to start in, and no loop is started unasked without a running match. -/
def historyAllowed (db : SchedulerStore σ) (cfg : SchedulerConfig) (store : Option σ)
    (m : SchedulerMoment) (steps : List SchedulerStep) : Bool :=
  loadAllowed db cfg store m && (newIntervalGameScheduler db cfg store m).runAllowed db cfg steps

theorem Linked.sound (hlinked : s.Linked) (hsteady : s.Steady) (hstarted : s.StartedRunning) :
    s.Sound db cfg := by
  refine ⟨⟨fun hrunning => ?_, fun hone => ?_⟩, hstarted, cancelledSilent s⟩
  · obtain ⟨id, hid⟩ := Option.ne_none_iff_exists'.mp (hsteady hrunning)
    refine ⟨id, (hlinked.live_iff id).mpr hid, fun other hother => ?_⟩
    have hcancel := (hlinked.live_iff other).mp hother
    exact Option.some.inj (hcancel.symm.trans hid)
  · obtain ⟨id, hlive, -⟩ := hone
    have hcancel := (hlinked.live_iff id).mp hlive
    exact hlinked.running (by simp [hcancel])

theorem StartedRunning.of_spawn {matchState : MatchState}
    (h : (s.spawn matchState).StartedRunning) : matchState = .running :=
  h _ (List.mem_append_right _ (List.mem_singleton_self _))

theorem StartedRunning.of_record {now : Time} {eventType source message : String} {tickID : Int}
    (h : (s.record db now eventType source message tickID).StartedRunning) : s.StartedRunning := by
  obtain ⟨store, heq⟩ := record_eq (s := s)
  rw [heq] at h
  exact h

/-- A start that asks for no match starts a loop in whatever the match is. -/
theorem StartedRunning.of_start {source message : String} {m : SchedulerMoment}
    (h : (s.startLocked db cfg source message m).1.StartedRunning) (hmatch : cfg.hasMatch = false)
    (hstarted : s.started = false) : m.matchState = .running := by
  unfold startLocked at h
  rw [if_neg (by simp [hstarted])] at h
  have hrefusal : startRefusal cfg m = none := if_neg (by simp [hmatch])
  rw [hrefusal] at h
  exact h.of_record.of_spawn

theorem StartedRunning.stepAllowed {next : SchedulerStep}
    (h : (s.step db cfg next).StartedRunning) : s.stepAllowed cfg next = true := by
  cases next with
  | call c =>
    cases c with
    | start source message m =>
      simp only [IntervalGameScheduler.stepAllowed, startsUnasked]
      split
      · rename_i hasked
        simp only [Bool.and_eq_true, Bool.not_eq_true'] at hasked
        exact decide_eq_true (StartedRunning.of_start h hasked.1 hasked.2)
      · rfl
    | stop source message m => rfl
    | update interval m =>
      simp only [IntervalGameScheduler.stepAllowed, startsUnasked]
      split
      · rename_i hasked
        simp only [Bool.and_eq_true, decide_eq_true_eq] at hasked
        simp only [IntervalGameScheduler.step, update] at h
        rw [if_neg (not_lt.mpr hasked.1), if_pos (show (s.setInterval interval).status.state = _
          from hasked.2)] at h
        exact decide_eq_true h.of_record.of_spawn
      · rfl
  | loop id e => rfl

theorem runAllowed_of_startedRunning {steps : List SchedulerStep}
    (h : ∀ before, before <+: steps → (s.run db cfg before).StartedRunning) :
    s.runAllowed db cfg steps = true := by
  induction steps generalizing s with
  | nil => rfl
  | cons next steps ih =>
    have hnext : (s.step db cfg next).StartedRunning := h [next] (by simp)
    refine Bool.and_eq_true_iff.mpr ⟨hnext.stepAllowed, ih fun before hbefore => ?_⟩
    exact h (next :: before) (by simpa using hbefore)

/-- A scheduler that reports to be running behind its construction was not refused. -/
theorem loadAllowed_of_sound {store : Option σ} {m : SchedulerMoment}
    (h : (newIntervalGameScheduler db cfg store m).Sound db cfg) :
    loadAllowed db cfg store m = true := by
  have hnone : (load db cfg store).started = false := Bool.and_false _
  refine loadAllowed_iff.mpr ⟨?_, ?_⟩
  · by_contra hcon
    obtain ⟨hrunning, hrefusal⟩ := not_or.mp hcon
    rw [not_not] at hrunning
    obtain ⟨e, he⟩ := Option.ne_none_iff_exists'.mp hrefusal
    have hnew : newIntervalGameScheduler db cfg store m = load db cfg store := by
      simp [newIntervalGameScheduler, hrunning, startLocked, hnone, he]
    rw [hnew] at h
    obtain ⟨id, ⟨l, hl, -⟩, -⟩ := h.running_iff.mp hrunning
    cases hl
  · by_contra hcon
    obtain ⟨hmatch, hcon⟩ := not_or.mp hcon
    obtain ⟨hidle, hcon⟩ := not_or.mp hcon
    have hstarted := h.startedRunning
    unfold newIntervalGameScheduler at hstarted
    dsimp only at hstarted
    split at hstarted
    · exact hidle (hstarted.of_start (by simpa using hmatch) hnone)
    · rename_i hstopped
      split at hstarted
      · exact hidle (hstarted.of_start (by simpa using hmatch) hnone)
      · rename_i hauto
        exact hcon ⟨hstopped, by simpa using hauto⟩

/-- Every state of a history is sound exactly when the history is one of those allowed. -/
theorem history_sound_iff (db : SchedulerStore σ) (cfg : SchedulerConfig) (store : Option σ)
    (m : SchedulerMoment) (steps : List SchedulerStep) :
    (∀ before, before <+: steps → (history db cfg store m before).Sound db cfg) ↔
      historyAllowed db cfg store m steps = true := by
  refine ⟨fun h => ?_, fun h before hbefore => ?_⟩
  · refine Bool.and_eq_true_iff.mpr ⟨loadAllowed_of_sound (h [] (List.nil_prefix)), ?_⟩
    exact runAllowed_of_startedRunning fun before hbefore => (h before hbefore).startedRunning
  · obtain ⟨hload, hsteps⟩ := Bool.and_eq_true_iff.mp h
    obtain ⟨rest, rfl⟩ := hbefore
    obtain ⟨hlinked, hsteady, hstarted⟩ := run_sound (new_linked store m) (new_steady hload)
      (new_startedRunning hload) (runAllowed_append.mp hsteps).1
    exact hlinked.sound hsteady hstarted

/-- A pass of the monitor that finds the match not running leaves no loop behind. -/
theorem Linked.monitor_stops (h : s.Linked) {status : GameMatchStatus} (m : SchedulerMoment)
    (hstatus : status.state ≠ .running) (id : Nat) :
    ¬(((MatchWindowMonitor.schedulerCall status s.status m).elim s
      fun c => s.step db cfg (.call c)).Live id) := by
  by_cases hrunning : s.status.state = "running"
  · have hcall : MatchWindowMonitor.schedulerCall status s.status m =
        some (.stop "schedule" "scheduler stopped by configured match window" m) := by
      simp [MatchWindowMonitor.schedulerCall, hstatus, hrunning]
    rw [hcall]
    refine (h.stop _ _ m).not_live ?_ id
    simp [stopLocked]
  · have hcall : MatchWindowMonitor.schedulerCall status s.status m = none := by
      simp [MatchWindowMonitor.schedulerCall, hstatus, hrunning]
    rw [hcall]
    refine h.not_live ?_ id
    by_contra hcancel
    exact hrunning (h.running hcancel)

/-- A tick every five minutes. -/
def fiveMinutes : SchedulerConfig := { interval := 300 * second }

/-- A store behind a process that ended while its scheduler was running. -/
def leftRunning : MemoryGameStore Unit :=
  { scheduler := { state := "running", intervalSeconds := 300 } }

/-- The match runs, but asking the database for it fails. -/
def matchUnavailable : SchedulerMoment :=
  { now := 0, matchState := .running, matchError := some (.failure "connection refused") }

/-- A start in a running match, and an update while the match is paused. -/
def updatedInPause : List SchedulerStep :=
  [.call (.start "organizer" "scheduler started by organizer" { now := 0, matchState := .running }),
    .call (.update (60 * second) { now := second, matchState := .paused })]

/-- A restored scheduler reports to be running without a loop, when the match has ended meanwhile
or cannot be asked for; in the second case the monitor then passes it by. An update starts a loop
in a paused match. -/
theorem running_without_loop :
    ¬(history (MemoryGameStore.schedulerStore Unit) fiveMinutes (some leftRunning)
        { now := 0, matchState := .finished } []).Sound
        (MemoryGameStore.schedulerStore Unit) fiveMinutes ∧
      (¬(history (MemoryGameStore.schedulerStore Unit) fiveMinutes (some leftRunning)
          matchUnavailable []).Sound (MemoryGameStore.schedulerStore Unit) fiveMinutes ∧
        MatchWindowMonitor.schedulerCall { state := .running, scheduleConfigured := true }
          (history (MemoryGameStore.schedulerStore Unit) fiveMinutes (some leftRunning)
            matchUnavailable []).status { now := 0, matchState := .running } = none) ∧
      ¬(history (MemoryGameStore.schedulerStore Unit) fiveMinutes (some {})
        { now := 0, matchState := .running } updatedInPause).Sound
        (MemoryGameStore.schedulerStore Unit) fiveMinutes := by
  have hload : ∀ m, loadAllowed (MemoryGameStore.schedulerStore Unit) fiveMinutes
      (some leftRunning) m = false →
      ¬(history (MemoryGameStore.schedulerStore Unit) fiveMinutes (some leftRunning) m []).Sound
        (MemoryGameStore.schedulerStore Unit) fiveMinutes := by
    intro m hm h
    rw [loadAllowed_of_sound h] at hm
    cases hm
  refine ⟨hload _ (by decide), ⟨hload _ (by decide), by decide⟩, fun h => ?_⟩
  have hpaused : (history (MemoryGameStore.schedulerStore Unit) fiveMinutes (some {})
      { now := 0, matchState := .running } updatedInPause).loops.any
      (·.startedIn = .paused) = true := by
    decide
  obtain ⟨l, hl, hin⟩ := List.any_eq_true.mp hpaused
  rw [h.startedRunning l hl] at hin
  cases hin

end IntervalGameScheduler

end ADPlatform.GameCore
