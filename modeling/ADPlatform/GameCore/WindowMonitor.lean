import ADPlatform.GameCore.MatchStore
import ADPlatform.GameCore.MemoryStore

/-! # Passes of the match window monitor

`reconcileMatchWindowState` in full, over a store whose calls take effect at once: the transitions
that bring the stored match in line with its window, the tick that a scheduled start fires, and the
latch by which access is reconciled behind a transition, and again after a failure. Between two
passes operators move the match. -/

namespace ADPlatform.GameCore

/-! ## The stores of a match -/

/-- The calls of a game store that move the match. -/
inductive MatchCall where
  | startMatch (now : Time)
  | pauseMatch
  | resumeMatch
  | stopMatch (now : Time)
  | updateMatchSchedule (startAt endAt : Option Time)
  deriving DecidableEq

/-- What a call does to the stored status, whichever store holds it. -/
def MatchCall.apply : MatchCall → GameMatchStatus → Except StoreError GameMatchStatus
  | startMatch now, status =>
    match status.state with
    | .running => .ok status
    | .finished => .error .contestOver
    | .notStarted | .paused => .ok { status with
        state := .running, startedAt := now.formatRFC3339, endedAt := none
        acceptingSubmissions := true }
  | pauseMatch, status =>
    match status.state with
    | .finished => .error .contestOver
    | .notStarted => .error .contestNotStarted
    | .running | .paused => .ok { status with state := .paused, acceptingSubmissions := false }
  | resumeMatch, status =>
    match status.state with
    | .finished => .error .contestOver
    | .notStarted | .running => .ok status
    | .paused => .ok { status with state := .running, acceptingSubmissions := true }
  | stopMatch now, status =>
    match status.state with
    | .finished => .ok status
    | .notStarted | .running | .paused => .ok { status with
        state := .finished, endedAt := now.formatRFC3339, acceptingSubmissions := false }
  | updateMatchSchedule startAt endAt, status => .ok { status with
      scheduledStartAt := stampOf startAt, scheduledEndAt := stampOf endAt
      scheduleConfigured := true }

/-- A store of a match: its calls do to the status that it shows what `MatchCall.apply` says, and a
call that is refused leaves it as it was. -/
structure MatchBackend (σ : Type) where
  matchStatus : σ → GameMatchStatus
  exec : MatchCall → σ → σ × Except StoreError GameMatchStatus
  exec_spec : ∀ (call : MatchCall) (s : σ), match call.apply (matchStatus s) with
    | .ok status => matchStatus (exec call s).1 = status ∧ (exec call s).2 = .ok status
    | .error e => exec call s = (s, .error e)

/-- The match calls of the memory store. -/
def MemoryGameStore.execMatch {K : Type} (call : MatchCall) (s : MemoryGameStore K) :
    MemoryGameStore K × Except StoreError GameMatchStatus :=
  match call with
  | .startMatch now => s.startMatch now
  | .pauseMatch => s.pauseMatch
  | .resumeMatch => s.resumeMatch
  | .stopMatch now => s.stopMatch now
  | .updateMatchSchedule startAt endAt =>
    let (s', status) := s.updateMatchSchedule startAt endAt
    (s', .ok status)

/-- The memory store as the monitor's. -/
def memoryMatch (K : Type) : MatchBackend (MemoryGameStore K) where
  matchStatus s := s.matchStatus
  exec := MemoryGameStore.execMatch
  exec_spec call s := by
    cases call with
    | updateMatchSchedule => exact ⟨rfl, rfl⟩
    | startMatch now =>
      simp only [MatchCall.apply, MemoryGameStore.execMatch, MemoryGameStore.startMatch]
      cases s.matchStatus.state <;> first | rfl | exact ⟨rfl, rfl⟩
    | pauseMatch =>
      simp only [MatchCall.apply, MemoryGameStore.execMatch, MemoryGameStore.pauseMatch]
      cases s.matchStatus.state <;> first | rfl | exact ⟨rfl, rfl⟩
    | resumeMatch =>
      simp only [MatchCall.apply, MemoryGameStore.execMatch, MemoryGameStore.resumeMatch]
      cases s.matchStatus.state <;> first | rfl | exact ⟨rfl, rfl⟩
    | stopMatch now =>
      simp only [MatchCall.apply, MemoryGameStore.execMatch, MemoryGameStore.stopMatch]
      cases s.matchStatus.state <;> exact ⟨rfl, rfl⟩

/-- The calls of `postgresGameStore` on the row, when nothing comes between their statements. -/
def MatchRow.execMatch (call : MatchCall) (row : Option MatchRow) :
    Option MatchRow × Except StoreError GameMatchStatus :=
  let current := MatchRow.toStatus row
  let upsert (write : MatchWrite) (status : GameMatchStatus) :=
    (some (write.upsert row), .ok status)
  match call with
  | .startMatch now =>
    match current.state with
    | .running => (row, .ok current)
    | .finished => (row, .error .contestOver)
    | .notStarted | .paused => upsert (.start now current) { current with
        state := .running, startedAt := now.formatRFC3339, endedAt := none
        acceptingSubmissions := true }
  | .pauseMatch =>
    match current.state with
    | .finished => (row, .error .contestOver)
    | .notStarted => (row, .error .contestNotStarted)
    | .paused => (row, .ok current)
    | .running =>
      upsert (.pause current) { current with state := .paused, acceptingSubmissions := false }
  | .resumeMatch =>
    match current.state with
    | .finished => (row, .error .contestOver)
    | .notStarted | .running => (row, .ok current)
    | .paused =>
      upsert (.resume current) { current with state := .running, acceptingSubmissions := true }
  | .stopMatch now =>
    match current.state with
    | .finished => (row, .ok current)
    | .notStarted | .running | .paused => upsert (.stop now current) { current with
        state := .finished, endedAt := now.formatRFC3339, acceptingSubmissions := false }
  | .updateMatchSchedule startAt endAt =>
    let row := some ((MatchWrite.schedule startAt endAt).upsert row)
    (row, .ok (MatchRow.toStatus row))

/-- The row of the database as the monitor's store. -/
def postgresMatch : MatchBackend (Option MatchRow) where
  matchStatus := MatchRow.toStatus
  exec := MatchRow.execMatch
  exec_spec call row := by
    cases row with
    | none =>
      cases call with
      | pauseMatch => rfl
      | _ => exact ⟨rfl, rfl⟩
    | some row =>
      obtain ⟨state, startedAt, endedAt, scheduledStartAt, scheduledEndAt, scheduleConfigured⟩ :=
        row
      cases call with
      | updateMatchSchedule => exact ⟨rfl, rfl⟩
      | startMatch | pauseMatch | resumeMatch | stopMatch =>
        cases state <;> first | rfl | exact ⟨rfl, rfl⟩

namespace MatchBackend
variable {σ : Type} (db : MatchBackend σ) {s : σ} {call : MatchCall}

variable {db} in
theorem exec_ok {status : GameMatchStatus} (h : call.apply (db.matchStatus s) = .ok status) :
    db.matchStatus (db.exec call s).1 = status ∧ (db.exec call s).2 = .ok status := by
  simpa only [h] using db.exec_spec call s

variable {db} in
theorem exec_error {e : StoreError} (h : call.apply (db.matchStatus s) = .error e) :
    db.exec call s = (s, .error e) := by
  simpa only [h] using db.exec_spec call s

end MatchBackend

/-! ## A pass -/

/-- The settings that the monitor looks at. -/
structure MonitorConfig where
  window : MatchWindow := {}
  /-- whether `accessReconcile` is set -/
  accessReconcile : Bool := true
  autoTickOnMatchStart : Bool := true

/-- The monitor beside the store. `autoTicks` counts the ticks that its passes have started. -/
structure WindowMonitor (σ : Type) where
  store : σ
  access : MonitorAccess := {}
  autoTicks : Nat := 0

/-- What the environment decides about a pass: the clock at its first reading and behind it, and the
texts with which its calls fail. -/
structure PassInput where
  now : Time
  later : Time
  statusError : Option String := none
  startError : Option String := none
  stopError : Option String := none
  accessError : Option String := none
  viewError : Option String := none

/-- What a pass answers, and the call of `ReconcileAccess` that it made: for which state, and
whether it succeeded. -/
structure PassReport where
  result : Except StoreError GameMatchStatus
  reconcile : Option (MatchState × Bool) := none

/-- The states as texts. -/
def MatchState.text : MatchState → String
  | notStarted => "not_started"
  | running => "running"
  | paused => "paused"
  | finished => "finished"

namespace WindowMonitor
variable {σ : Type} (db : MatchBackend σ) (cfg : MonitorConfig) (input : PassInput)
  (m : WindowMonitor σ)

/-- The access rules are to be applied for this state. -/
def setPending (state : MatchState) : WindowMonitor σ :=
  { m with access.pendingAccessState := some state }

/-- The access rules have been applied for this state. -/
def setReconciled (state : MatchState) : WindowMonitor σ :=
  { m with access := { pendingAccessState := none, reconciledAccessState := some state } }

/-- A call on the store, which may fail. -/
def call (failure : Option String) (op : MatchCall) :
    WindowMonitor σ × Except StoreError GameMatchStatus :=
  match failure with
  | some message => (m, .error (.failure message))
  | none =>
    let (store, r) := db.exec op m.store
    ({ m with store }, r)

/-- `reconcilePendingAccess`, with the call that it made. -/
def reconcilePendingAccess (state : MatchState) :
    WindowMonitor σ × Except StoreError Unit × Option (MatchState × Bool) :=
  if m.access.pendingAccessState ≠ some state then (m, .ok (), none)
  else if !cfg.accessReconcile then (m.setReconciled state, .ok (), none)
  else
    match input.accessError with
    | some message =>
      (m, .error (.failure ("reconcile access after scheduled match transition to " ++ state.text ++
        ": " ++ message)), some (state, false))
    | none => (m.setReconciled state, .ok (), some (state, true))

/-- `gameCoreServer.matchStatus`, with which a pass ends. -/
def view : Except StoreError GameMatchStatus :=
  match input.viewError with
  | some message => .error (.failure message)
  | none => .ok (applyMatchWindow cfg.window input.later (db.matchStatus m.store))

/-- The end of a pass that has found or stored the state. -/
def settle (state : MatchState) : WindowMonitor σ × PassReport :=
  match m.reconcilePendingAccess cfg input state with
  | (m, .error e, reconcile) => (m, { result := .error e, reconcile })
  | (m, .ok (), reconcile) => (m, { result := m.view db cfg input, reconcile })

/-- The tick that a scheduled start fires. -/
def autoTick : WindowMonitor σ :=
  if cfg.autoTickOnMatchStart then { m with autoTicks := m.autoTicks + 1 } else m

/-- The scheduled start. -/
def startScheduled (desired : GameMatchStatus) : WindowMonitor σ × PassReport :=
  let startAt := (parseOptionalRFC3339 desired.startedAt).getD input.later
  match m.call db input.startError (.startMatch startAt) with
  | (m, .ok _) | (m, .error .contestOver) =>
    ((m.autoTick cfg).setPending .running).settle db cfg input .running
  | (m, .error e) => (m, { result := .error e })

/-- The start of a match whose whole window has passed unseen. -/
def startMissed (current desired : GameMatchStatus) : WindowMonitor σ × Except StoreError Unit :=
  match current.state, parseOptionalRFC3339 desired.startedAt with
  | .notStarted, some startAt =>
    match m.call db input.startError (.startMatch startAt) with
    | (m, .ok _) | (m, .error .contestOver) => (m, .ok ())
    | (m, .error e) => (m, .error e)
  | _, _ => (m, .ok ())

/-- The scheduled end. -/
def finishScheduled (current desired : GameMatchStatus) : WindowMonitor σ × PassReport :=
  match m.startMissed db input current desired with
  | (m, .error e) => (m, { result := .error e })
  | (m, .ok ()) =>
    let endAt := (parseOptionalRFC3339 desired.endedAt).getD input.later
    match m.call db input.stopError (.stopMatch endAt) with
    | (m, .error e) => (m, { result := .error e })
    | (m, .ok _) => (m.setPending .finished).settle db cfg input .finished

/-- The access of a state that the pass finds stored is pending until it has been reconciled. -/
def notice (desired : GameMatchStatus) : WindowMonitor σ :=
  if shouldReconcileScheduledAccess desired && m.access.reconciledAccessState ≠ some desired.state
  then m.setPending desired.state else m

/-- `reconcileMatchWindowState`: one pass of the monitor. -/
def reconcileMatchWindowState : WindowMonitor σ × PassReport :=
  match input.statusError with
  | some message => (m, { result := .error (.failure message) })
  | none =>
    let current := db.matchStatus m.store
    let desired := applyMatchWindow cfg.window input.now current
    if current.state = desired.state then (m.notice desired).settle db cfg input desired.state
    else
      match desired.state with
      | .running => m.startScheduled db cfg input desired
      | .finished => m.finishScheduled db cfg input current desired
      | .notStarted | .paused => (m, { result := m.view db cfg input })

end WindowMonitor

/-- What happens around a monitor: a pass, or a call of an operator between two passes. -/
inductive MonitorEvent where
  | pass (input : PassInput)
  | call (op : MatchCall)

/-- The monitor after an event. -/
def WindowMonitor.step {σ : Type} (db : MatchBackend σ) (cfg : MonitorConfig)
    (m : WindowMonitor σ) : MonitorEvent → WindowMonitor σ
  | .pass input => (m.reconcileMatchWindowState db cfg input).1
  | .call op => { m with store := (db.exec op m.store).1 }

/-- The monitor after these events. -/
def WindowMonitor.run {σ : Type} (db : MatchBackend σ) (cfg : MonitorConfig) (m : WindowMonitor σ)
    (events : List MonitorEvent) : WindowMonitor σ := events.foldl (step db cfg) m

/-! ## What a pass does -/

/-- What the window makes of a stored state. -/
theorem applyMatchWindow_cases (w : MatchWindow) (now : Time) (stored : GameMatchStatus) :
    (applyMatchWindow w now stored).state = stored.state ∨
      (stored.state = .notStarted ∧ (applyMatchWindow w now stored).state = .running ∧
        reached now (w.endAt stored) = false) ∨
      (applyMatchWindow w now stored).state = .finished := by
  unfold applyMatchWindow
  cases hstate : stored.state with
  | finished | paused => exact .inl (by simp)
  | running | notStarted =>
    cases hend : reached now (w.endAt stored) with
    | true => exact .inr (.inr (by simp [hend]))
    | false =>
      cases hstart : reached now (w.startAt stored) <;> simp [hend, hstart]

theorem applyMatchWindow_finished {w : MatchWindow} {now : Time} {stored : GameMatchStatus}
    (h : stored.state = .finished) : (applyMatchWindow w now stored).state = .finished := by
  simp [applyMatchWindow, h]

theorem applyMatchWindow_running {w : MatchWindow} {now : Time} {stored : GameMatchStatus}
    (h : stored.state = .running) (hend : reached now (w.endAt stored) = false) :
    (applyMatchWindow w now stored).state = .running := by
  simp [applyMatchWindow, h, hend]

/-- A match does not go back to before its start, nor behind its end. -/
structure Forward (state next : MatchState) : Prop where
  started : next = .notStarted → state = .notStarted
  finished : state = .finished → next = .finished

theorem Forward.refl (state : MatchState) : Forward state state := ⟨id, id⟩

theorem Forward.trans {state next last : MatchState} (h : Forward state next)
    (h' : Forward next last) : Forward state last :=
  ⟨fun hlast => h.started (h'.started hlast), fun hstate => h'.finished (h.finished hstate)⟩

theorem MatchCall.apply_forward {call : MatchCall} {status status' : GameMatchStatus}
    (h : call.apply status = .ok status') : Forward status.state status'.state := by
  cases call with
  | updateMatchSchedule =>
    obtain rfl := Except.ok.inj h
    exact .refl _
  | startMatch | pauseMatch | resumeMatch | stopMatch =>
    cases hstate : status.state <;> simp only [apply, hstate, reduceCtorEq, Except.ok.injEq] at h
    all_goals
      subst h
      constructor <;> simp [hstate]

theorem MatchCall.stopMatch_state {now : Time} {status status' : GameMatchStatus}
    (h : (stopMatch now).apply status = .ok status') : status'.state = .finished := by
  cases hstate : status.state <;> simp only [apply, hstate, Except.ok.injEq] at h
  all_goals
    subst h
    first | rfl | exact hstate

namespace MatchBackend
variable {σ : Type} {db : MatchBackend σ}

theorem exec_forward (call : MatchCall) (s : σ) :
    Forward (db.matchStatus s).state (db.matchStatus (db.exec call s).1).state := by
  cases happly : call.apply (db.matchStatus s) with
  | error =>
    rw [exec_error happly]
    exact .refl _
  | ok =>
    rw [(exec_ok happly).1]
    exact MatchCall.apply_forward happly

end MatchBackend

namespace WindowMonitor
variable {σ : Type} {db : MatchBackend σ} {cfg : MonitorConfig} {input : PassInput}
  {m m' : WindowMonitor σ} {S : MatchState}

/-- The stored state. -/
def state (db : MatchBackend σ) (m : WindowMonitor σ) : MatchState := (db.matchStatus m.store).state

theorem call_none (op : MatchCall) : m.call db none op =
    ({ m with store := (db.exec op m.store).1 }, (db.exec op m.store).2) := rfl

/-- What a store call that succeeds does. -/
theorem call_eq_ok {failure : Option String} {op : MatchCall} {status : GameMatchStatus}
    (h : m.call db failure op = (m', .ok status)) :
    op.apply (db.matchStatus m.store) = .ok status ∧ db.matchStatus m'.store = status ∧
      m'.access = m.access ∧ m'.autoTicks = m.autoTicks := by
  cases failure with
  | some => cases h
  | none =>
    cases happly : op.apply (db.matchStatus m.store) with
    | error e =>
      rw [call_none, MatchBackend.exec_error happly] at h
      cases h
    | ok status' =>
      obtain ⟨hstatus, hanswer⟩ := MatchBackend.exec_ok happly
      rw [call_none, hanswer] at h
      obtain ⟨rfl, hr⟩ := Prod.mk.inj h
      exact ⟨hr, hstatus.trans (Except.ok.inj hr), rfl, rfl⟩

/-- A store call that fails leaves the store as it was. -/
theorem call_eq_error {failure : Option String} {op : MatchCall} {e : StoreError}
    (h : m.call db failure op = (m', .error e)) :
    m' = m ∧ (e = .contestOver → op.apply (db.matchStatus m.store) = .error e) := by
  cases failure with
  | some =>
    cases h
    exact ⟨rfl, nofun⟩
  | none =>
    cases happly : op.apply (db.matchStatus m.store) with
    | error e' =>
      rw [call_none, MatchBackend.exec_error happly] at h
      obtain ⟨rfl, hr⟩ := Prod.mk.inj h
      exact ⟨rfl, fun _ => hr⟩
    | ok status =>
      rw [call_none, (MatchBackend.exec_ok happly).2] at h
      cases h

/-! ### The end of a pass -/

theorem settle_idle (h : m.access.pendingAccessState ≠ some S) :
    m.settle db cfg input S = (m, { result := m.view db cfg input }) := by
  simp [settle, reconcilePendingAccess, h]

theorem settle_unconfigured (h : m.access.pendingAccessState = some S)
    (hcfg : cfg.accessReconcile = false) : m.settle db cfg input S =
      (m.setReconciled S, { result := (m.setReconciled S).view db cfg input }) := by
  simp [settle, reconcilePendingAccess, h, hcfg]

theorem settle_failed (db : MatchBackend σ) (h : m.access.pendingAccessState = some S)
    (hcfg : cfg.accessReconcile = true) {message : String}
    (herror : input.accessError = some message) :
    (m.settle db cfg input S).1 = m ∧
      (m.settle db cfg input S).2.reconcile = some (S, false) := by
  simp [settle, reconcilePendingAccess, h, hcfg, herror]

theorem settle_reconciled (h : m.access.pendingAccessState = some S)
    (hcfg : cfg.accessReconcile = true) (herror : input.accessError = none) :
    m.settle db cfg input S = (m.setReconciled S,
      { result := (m.setReconciled S).view db cfg input, reconcile := some (S, true) }) := by
  simp [settle, reconcilePendingAccess, h, hcfg, herror]

/-- The end of a pass leaves the store and the ticks alone. -/
theorem settle_keeps : (m.settle db cfg input S).1.store = m.store ∧
    (m.settle db cfg input S).1.autoTicks = m.autoTicks := by
  by_cases h : m.access.pendingAccessState = some S
  · cases hcfg : cfg.accessReconcile with
    | false =>
      rw [settle_unconfigured h hcfg]
      exact ⟨rfl, rfl⟩
    | true =>
      cases herror : input.accessError with
      | some message =>
        rw [(settle_failed db h hcfg herror).1]
        exact ⟨rfl, rfl⟩
      | none =>
        rw [settle_reconciled h hcfg herror]
        exact ⟨rfl, rfl⟩
  · rw [settle_idle h]
    exact ⟨rfl, rfl⟩

/-- A pending access is tried at the end of a pass. -/
theorem settle_pending (db : MatchBackend σ) (input : PassInput)
    (h : m.access.pendingAccessState = some S) (hcfg : cfg.accessReconcile = true) :
    ∃ ok, (m.settle db cfg input S).2.reconcile = some (S, ok) ∧
      (m.settle db cfg input S).1.access = if ok then (m.setReconciled S).access else m.access := by
  cases herror : input.accessError with
  | some message =>
    obtain ⟨hm, hcall⟩ := settle_failed db h hcfg herror
    exact ⟨false, hcall, by rw [hm]; rfl⟩
  | none =>
    refine ⟨true, ?_⟩
    rw [settle_reconciled h hcfg herror]
    exact ⟨rfl, rfl⟩

/-! ### The cases of a pass -/

/-- The pass reads the state and finds nothing to move. -/
structure Observes (db : MatchBackend σ) (cfg : MonitorConfig) (input : PassInput)
    (m : WindowMonitor σ) (S : MatchState) : Prop where
  read : input.statusError = none
  stored : m.state db = S
  desired : (applyMatchWindow cfg.window input.now (db.matchStatus m.store)).state = S

/-- The pass reads another state and leaves this one stored, as the window has it. -/
structure Produces (db : MatchBackend σ) (cfg : MonitorConfig) (input : PassInput)
    (m : WindowMonitor σ) (S : MatchState) : Prop where
  read : input.statusError = none
  stored : m.state db ≠ S
  desired : (applyMatchWindow cfg.window input.now (db.matchStatus m.store)).state = S
  leaves : (m.reconcileMatchWindowState db cfg input).1.state db = S

/-- The ways a pass can go: it ends early on an error of the store, it finds the state that the
window asks for, or it moves the match there. -/
inductive PassCases (db : MatchBackend σ) (cfg : MonitorConfig) (input : PassInput)
    (m : WindowMonitor σ) : WindowMonitor σ × PassReport → Prop
  | stuck {m' : WindowMonitor σ} {e : StoreError} (haccess : m'.access = m.access)
      (hforward : Forward (m.state db) (m'.state db))
      (hobserves : ∀ S, ¬Observes db cfg input m S) :
      PassCases db cfg input m (m', { result := .error e })
  | found {S : MatchState} (hobserves : Observes db cfg input m S) :
      PassCases db cfg input m
        ((m.notice (applyMatchWindow cfg.window input.now (db.matchStatus m.store))).settle db cfg
          input S)
  | moved {m' : WindowMonitor σ} {S : MatchState} (hS : S = .running ∨ S = .finished)
      (hread : input.statusError = none) (hstored : m.state db ≠ S)
      (hdesired : (applyMatchWindow cfg.window input.now (db.matchStatus m.store)).state = S)
      (hstate : m'.state db = S)
      (hwindow : (applyMatchWindow cfg.window input.now (db.matchStatus m'.store)).state = S)
      (haccess : m'.access = m.access) (hforward : Forward (m.state db) (m'.state db)) :
      PassCases db cfg input m ((m'.setPending S).settle db cfg input S)

theorem call_forward {failure : Option String} {op : MatchCall}
    {r : Except StoreError GameMatchStatus} (h : m.call db failure op = (m', r)) :
    m'.access = m.access ∧ Forward (m.state db) (m'.state db) := by
  cases r with
  | error e =>
    rw [(call_eq_error h).1]
    exact ⟨rfl, .refl _⟩
  | ok status =>
    obtain ⟨happly, hstatus, haccess, -⟩ := call_eq_ok h
    refine ⟨haccess, ?_⟩
    rw [state, state, hstatus]
    exact MatchCall.apply_forward happly

theorem startMissed_forward {current desired : GameMatchStatus} {r : Except StoreError Unit}
    (h : m.startMissed db input current desired = (m', r)) :
    m'.access = m.access ∧ Forward (m.state db) (m'.state db) := by
  unfold startMissed at h
  split at h
  · split at h <;> rename_i hcall <;> cases h <;> exact call_forward hcall
  · cases h
    exact ⟨rfl, .refl _⟩

/-- The stored match has not started, the window has, and it has not ended. -/
theorem startScheduled_cases (hread : input.statusError = none) (hstored : m.state db = .notStarted)
    (hdesired : (applyMatchWindow cfg.window input.now (db.matchStatus m.store)).state = .running)
    (hend : reached input.now (cfg.window.endAt (db.matchStatus m.store)) = false) :
    PassCases db cfg input m (m.startScheduled db cfg input
      (applyMatchWindow cfg.window input.now (db.matchStatus m.store))) := by
  have hobserves : ∀ S, ¬Observes db cfg input m S := by
    intro S h
    have hS := h.stored.symm.trans hstored
    rw [← h.desired, hdesired] at hS
    cases hS
  have hstored' : (db.matchStatus m.store).state = .notStarted := hstored
  unfold startScheduled
  dsimp only
  generalize hcall : m.call db input.startError _ = out
  obtain ⟨m', r⟩ := out
  obtain ⟨haccess, hforward⟩ := call_forward hcall
  cases r with
  | ok status =>
    obtain ⟨happly, hstatus, -, -⟩ := call_eq_ok hcall
    simp only [MatchCall.apply, hstored', Except.ok.injEq] at happly
    have htick : (m'.autoTick cfg).store = m'.store ∧ (m'.autoTick cfg).access = m'.access := by
      unfold autoTick
      split <;> exact ⟨rfl, rfl⟩
    refine .moved (.inl rfl) hread (by rw [hstored]; nofun) hdesired ?_ ?_
      (htick.2.trans haccess) ?_
    · rw [state, htick.1, hstatus, ← happly]
    · rw [htick.1, hstatus, ← happly]
      exact applyMatchWindow_running rfl hend
    · rw [state, state, htick.1]
      exact hforward
  | error e =>
    have hover : e ≠ .contestOver := by
      rintro rfl
      have happly := (call_eq_error hcall).2 rfl
      simp [MatchCall.apply, hstored'] at happly
    cases e with
    | contestOver => exact absurd rfl hover
    | _ => exact .stuck haccess hforward hobserves

theorem finishScheduled_cases (hread : input.statusError = none)
    (hstored : m.state db ≠ .finished)
    (hdesired : (applyMatchWindow cfg.window input.now (db.matchStatus m.store)).state =
      .finished) :
    PassCases db cfg input m (m.finishScheduled db cfg input (db.matchStatus m.store)
      (applyMatchWindow cfg.window input.now (db.matchStatus m.store))) := by
  have hobserves : ∀ S, ¬Observes db cfg input m S := fun S h =>
    hstored (h.stored.trans (h.desired.symm.trans hdesired))
  unfold finishScheduled
  generalize hmissed : m.startMissed db input _ _ = out
  obtain ⟨m₁, r⟩ := out
  obtain ⟨haccess, hforward⟩ := startMissed_forward hmissed
  cases r with
  | error e => exact .stuck haccess hforward hobserves
  | ok =>
    dsimp only
    generalize hcall : m₁.call db input.stopError _ = out
    obtain ⟨m₂, r⟩ := out
    obtain ⟨haccess', hforward'⟩ := call_forward hcall
    cases r with
    | error e => exact .stuck (haccess'.trans haccess) (hforward.trans hforward') hobserves
    | ok status =>
      obtain ⟨happly, hstatus, -, -⟩ := call_eq_ok hcall
      have hfinished : (db.matchStatus m₂.store).state = .finished := by
        rw [hstatus]
        exact MatchCall.stopMatch_state happly
      exact .moved (.inr rfl) hread hstored hdesired hfinished (applyMatchWindow_finished hfinished)
        (haccess'.trans haccess) (hforward.trans hforward')

theorem reconcileMatchWindowState_cases (db : MatchBackend σ) (cfg : MonitorConfig)
    (input : PassInput) (m : WindowMonitor σ) :
    PassCases db cfg input m (m.reconcileMatchWindowState db cfg input) := by
  unfold reconcileMatchWindowState
  split
  · rename_i message herror
    refine .stuck rfl (.refl _) fun S h => ?_
    rw [h.read] at herror
    cases herror
  rename_i hread
  dsimp only
  split
  · exact .found ⟨hread, ‹_›, rfl⟩
  rename_i hne
  rcases applyMatchWindow_cases cfg.window input.now (db.matchStatus m.store) with
    hsame | ⟨hstored, hdesired, hend⟩ | hdesired
  · exact absurd hsame.symm hne
  · simp only [hdesired]
    exact startScheduled_cases hread hstored hdesired hend
  · simp only [hdesired]
    exact finishScheduled_cases hread (fun h => hne (h.trans hdesired.symm)) hdesired

/-! ### The stored match -/

theorem notice_keeps {desired : GameMatchStatus} : (m.notice desired).store = m.store ∧
    (m.notice desired).autoTicks = m.autoTicks := by
  unfold notice
  split <;> exact ⟨rfl, rfl⟩

/-- What a pass leaves stored is where it has come to, and the window asks for nothing else. -/
theorem reconcileMatchWindowState_settles {status : GameMatchStatus}
    (h : (m.reconcileMatchWindowState db cfg input).2.result = .ok status) :
    let m' := (m.reconcileMatchWindowState db cfg input).1
    m'.state db = (applyMatchWindow cfg.window input.now (db.matchStatus m.store)).state ∧
      (applyMatchWindow cfg.window input.now (db.matchStatus m'.store)).state = m'.state db := by
  have hcases := reconcileMatchWindowState_cases db cfg input m
  revert h
  generalize m.reconcileMatchWindowState db cfg input = out at hcases ⊢
  intro h m'
  cases hcases with
  | stuck => cases h
  | found hobserves =>
    have hstore : m'.store = m.store := settle_keeps.1.trans notice_keeps.1
    rw [state, hstore, hobserves.desired]
    exact ⟨hobserves.stored, hobserves.stored.symm⟩
  | @moved m₁ S _ _ _ hdesired hstate hwindow =>
    have hstore : m'.store = m₁.store := settle_keeps.1
    rw [state, hstore, hdesired, hwindow]
    exact ⟨hstate, hstate.symm⟩

theorem reconcileMatchWindowState_eq (hread : input.statusError = none)
    (h : (applyMatchWindow cfg.window input.now (db.matchStatus m.store)).state = m.state db) :
    m.reconcileMatchWindowState db cfg input =
      (m.notice (applyMatchWindow cfg.window input.now (db.matchStatus m.store))).settle
        db cfg input
        (m.state db) := by
  rw [state] at h
  simp [reconcileMatchWindowState, hread, h, state]

/-- Where the window asks for nothing else, a pass changes nothing in the store. -/
theorem reconcileMatchWindowState_keeps
    (h : (applyMatchWindow cfg.window input.now (db.matchStatus m.store)).state = m.state db) :
    let m' := (m.reconcileMatchWindowState db cfg input).1
    m'.store = m.store ∧ m'.autoTicks = m.autoTicks := by
  cases hread : input.statusError with
  | some message => simp [reconcileMatchWindowState, hread]
  | none =>
    rw [reconcileMatchWindowState_eq hread h]
    exact ⟨settle_keeps.1.trans notice_keeps.1, settle_keeps.2.trans notice_keeps.2⟩

theorem reconcileMatchWindowState_forward (db : MatchBackend σ) (cfg : MonitorConfig)
    (input : PassInput) (m : WindowMonitor σ) :
    Forward (m.state db) ((m.reconcileMatchWindowState db cfg input).1.state db) := by
  have hcases := reconcileMatchWindowState_cases db cfg input m
  generalize m.reconcileMatchWindowState db cfg input = out at hcases ⊢
  cases hcases with
  | stuck _ hforward => exact hforward
  | found =>
    rw [state, state, settle_keeps.1, notice_keeps.1]
    exact .refl _
  | moved _ _ _ _ _ _ _ hforward =>
    rw [state, state, settle_keeps.1]
    exact hforward

/-! ### The latch -/

/-- The states behind which access is reconciled. -/
def Live (S : MatchState) : Prop := S = .running ∨ S = .finished

theorem Observes.leaves (h : Observes db cfg input m S) :
    (m.reconcileMatchWindowState db cfg input).1.state db = S := by
  have hstore := (reconcileMatchWindowState_keeps (h.desired.trans h.stored.symm)).1
  rw [state, hstore]
  exact h.stored

theorem leaves_of_reached (h : Observes db cfg input m S ∨ Produces db cfg input m S) :
    (m.reconcileMatchWindowState db cfg input).1.state db = S := by
  rcases h with h | h
  · exact h.leaves
  · exact h.leaves

theorem notice_pending {desired : GameMatchStatus}
    (h : m.access.pendingAccessState = some desired.state) :
    (m.notice desired).access.pendingAccessState = some desired.state := by
  unfold notice
  split
  · rfl
  · exact h

/-- The states that a pass finds pending after it has looked at the stored one. -/
theorem notice_cases (m : WindowMonitor σ) (desired : GameMatchStatus) : m.notice desired = m ∨
    Live desired.state ∧ m.notice desired = m.setPending desired.state := by
  unfold notice
  split
  · rename_i h
    simp only [shouldReconcileScheduledAccess, Bool.and_eq_true, Bool.or_eq_true, beq_iff_eq] at h
    exact .inr ⟨h.1.2, rfl⟩
  · exact .inl rfl

/-- What a pass does to the latch. -/
theorem reconcileMatchWindowState_access (db : MatchBackend σ) (input : PassInput)
    (hcfg : cfg.accessReconcile = true)
    (hlive : ∀ S, m.access.pendingAccessState = some S → Live S) :
    let r := m.reconcileMatchWindowState db cfg input
    (r.2.reconcile = none ∧ r.1.access = m.access) ∨
      ∃ S ok, r.2.reconcile = some (S, ok) ∧ Live S ∧
        (Observes db cfg input m S ∨ Produces db cfg input m S) ∧
        r.1.access = if ok then (m.setReconciled S).access else (m.setPending S).access := by
  intro r
  have hcases : PassCases db cfg input m r := reconcileMatchWindowState_cases db cfg input m
  generalize hr : r = out at hcases
  cases hcases with
  | stuck haccess => exact .inl ⟨rfl, haccess⟩
  | @found S hobserves =>
    obtain ⟨-, -, hdesired⟩ := id hobserves
    rcases notice_cases m (applyMatchWindow cfg.window input.now (db.matchStatus m.store)) with
      hsame | ⟨hS, hset⟩
    · rw [hsame]
      by_cases hpending : m.access.pendingAccessState = some S
      · obtain ⟨ok, hcall, haccess⟩ := settle_pending db input hpending hcfg
        refine .inr ⟨S, ok, hcall, hlive S hpending, .inl hobserves, haccess.trans ?_⟩
        rw [setPending, ← hpending]
      · rw [settle_idle hpending]
        exact .inl ⟨rfl, rfl⟩
    · rw [hset, hdesired]
      have hpending : (m.setPending S).access.pendingAccessState = some S := rfl
      obtain ⟨ok, hcall, haccess⟩ := settle_pending db input hpending hcfg
      exact .inr ⟨S, ok, hcall, hdesired ▸ hS, .inl hobserves, haccess⟩
  | @moved m₁ S hS hread hstored hdesired hstate hwindow haccess =>
    have hpending : (m₁.setPending S).access.pendingAccessState = some S := rfl
    obtain ⟨ok, hcall, haccess'⟩ := settle_pending db input hpending hcfg
    refine .inr ⟨S, ok, hcall, hS, .inr ⟨hread, hstored, hdesired, ?_⟩, haccess'.trans ?_⟩
    · change r.1.state db = S
      rw [hr, state, settle_keeps.1]
      exact hstate
    · simp only [setReconciled, setPending, haccess]

/-- A pass that observes the pending state tries again. -/
theorem Observes.reconciles (h : Observes db cfg input m S) (hcfg : cfg.accessReconcile = true)
    (hpending : m.access.pendingAccessState = some S) :
    ∃ ok, (m.reconcileMatchWindowState db cfg input).2.reconcile = some (S, ok) := by
  rw [reconcileMatchWindowState_eq h.read (h.desired.trans h.stored.symm), h.stored]
  have hpending := notice_pending (h.desired.symm ▸ hpending)
  rw [h.desired] at hpending
  obtain ⟨ok, hcall, -⟩ := settle_pending db input hpending hcfg
  exact ⟨ok, hcall⟩

/-! ### Histories -/

theorem run_concat (events : List MonitorEvent) (e : MonitorEvent) :
    m.run db cfg (events ++ [e]) = (m.run db cfg events).step db cfg e := by
  rw [run, run, List.foldl_append]
  rfl

/-- Only states behind which access is reconciled are ever pending. -/
theorem pending_live (hcfg : cfg.accessReconcile = true) (store : σ) (events : List MonitorEvent) :
    ∀ S, (run db cfg { store } events).access.pendingAccessState = some S → Live S := by
  induction events using List.reverseRecOn with
  | nil => nofun
  | append_singleton events e ih =>
    rw [run_concat]
    cases e with
    | call op => exact ih
    | pass input =>
      intro S hpending
      rcases reconcileMatchWindowState_access db input hcfg ih with
        ⟨-, haccess⟩ | ⟨S', ok, -, hS', -, haccess⟩
      · rw [step, haccess] at hpending
        exact ih S hpending
      · rw [step, haccess] at hpending
        cases ok with
        | true => cases hpending
        | false =>
          obtain rfl := Option.some.inj hpending
          exact hS'

/-- A reconciled state was reconciled in a pass that had come to it. -/
theorem reconciled_by_pass (hcfg : cfg.accessReconcile = true) (store : σ)
    (events : List MonitorEvent)
    (h : (run db cfg { store } events).access.reconciledAccessState = some S) :
    ∃ before input after, events = before ++ .pass input :: after ∧
      ((run db cfg { store } before).reconcileMatchWindowState db cfg input).2.reconcile
        = some (S, true) ∧
      (Observes db cfg input (run db cfg { store } before) S ∨
        Produces db cfg input (run db cfg { store } before) S) := by
  induction events using List.reverseRecOn with
  | nil => cases h
  | append_singleton events e ih =>
    have hearlier : (run db cfg { store } events).access.reconciledAccessState = some S →
        ∃ before input after, events ++ [e] = before ++ .pass input :: after ∧
          ((run db cfg { store } before).reconcileMatchWindowState db cfg input).2.reconcile
            = some (S, true) ∧
          (Observes db cfg input (run db cfg { store } before) S ∨
            Produces db cfg input (run db cfg { store } before) S) := by
      intro h
      obtain ⟨before, input, after, rfl, hpass⟩ := ih h
      exact ⟨before, input, after ++ [e], by simp, hpass⟩
    rw [run_concat] at h
    cases e with
    | call op => exact hearlier h
    | pass input =>
      rcases reconcileMatchWindowState_access db input hcfg (pending_live hcfg store events) with
        ⟨-, haccess⟩ | ⟨S', ok, hcall, -, hreached, haccess⟩
      · rw [step, haccess] at h
        exact hearlier h
      · rw [step, haccess] at h
        cases ok with
        | false => exact hearlier h
        | true =>
          obtain rfl := Option.some.inj h
          exact ⟨events, input, [], rfl, hcall, hreached⟩

/-- The access for a state is pending until a pass observes it, unless the match has gone on. -/
def Awaits (db : MatchBackend σ) (S : MatchState) (m : WindowMonitor σ) : Prop :=
  (m.access.pendingAccessState = some S ∧ (S = .running → m.state db ≠ .notStarted) ∧
    (S = .finished → m.state db = .finished)) ∨ (S = .running ∧ m.state db = .finished)

theorem Awaits.forward (h : Awaits db S m) (haccess : m'.access = m.access)
    (hforward : Forward (m.state db) (m'.state db)) : Awaits db S m' := by
  rcases h with ⟨hpending, hrunning, hfinished⟩ | ⟨hS, hfinished⟩
  · refine .inl ⟨by rw [haccess]; exact hpending, fun hS h => ?_, fun hS => ?_⟩
    · exact hrunning hS (hforward.started h)
    · exact hforward.finished (hfinished hS)
  · exact .inr ⟨hS, hforward.finished hfinished⟩

/-- While a state is awaited, no pass moves the match into it again. -/
theorem Awaits.not_produces (h : Awaits db S m) (hS : Live S) : ¬Produces db cfg input m S := by
  rintro ⟨-, hstored, hdesired, -⟩
  have hnext := applyMatchWindow_cases cfg.window input.now (db.matchStatus m.store)
  rw [hdesired] at hnext
  rcases hS with rfl | rfl
  · rcases hnext with hsame | ⟨hnotStarted, -⟩ | hfinished
    · exact hstored hsame.symm
    · rcases h with ⟨-, hrunning, -⟩ | ⟨-, hfinished⟩
      · exact hrunning rfl hnotStarted
      · cases hfinished.symm.trans hnotStarted
    · cases hfinished
  · rcases h with ⟨-, -, hfinished⟩ | ⟨hS, -⟩
    · exact hstored (hfinished rfl)
    · cases hS

theorem Awaits.pass (h : Awaits db S m) (hcfg : cfg.accessReconcile = true)
    (hlive : ∀ S, m.access.pendingAccessState = some S → Live S) (hS : Live S)
    (hobserves : ¬Observes db cfg input m S) :
    Awaits db S (m.reconcileMatchWindowState db cfg input).1 := by
  have hforward := reconcileMatchWindowState_forward db cfg input m
  rcases reconcileMatchWindowState_access db input hcfg hlive with
    ⟨-, haccess⟩ | ⟨S', ok, -, hS', hreached, -⟩
  · exact h.forward haccess hforward
  have hleaves := leaves_of_reached hreached
  have hne : S' ≠ S := by
    rintro rfl
    rcases hreached with h' | h'
    · exact hobserves h'
    · exact h.not_produces hS h'
  -- the pass has come to the other state, and only the end follows a start
  rcases hS with rfl | rfl <;> rcases hS' with rfl | rfl
  · exact absurd rfl hne
  · exact .inr ⟨rfl, hleaves⟩
  · rcases h with ⟨-, -, hfinished⟩ | ⟨hS, -⟩
    · cases hleaves.symm.trans (hforward.finished (hfinished rfl))
    · cases hS
  · exact absurd rfl hne

theorem Awaits.observes (h : Awaits db S m) (hobserves : Observes db cfg input m S) :
    m.access.pendingAccessState = some S := by
  rcases h with ⟨hpending, -⟩ | ⟨rfl, hfinished⟩
  · exact hpending
  · cases hobserves.stored.symm.trans hfinished

/-- After a failure the state is awaited over all events among which no pass observes it. -/
theorem awaits_run (hcfg : cfg.accessReconcile = true) (store : σ) (before : List MonitorEvent)
    (hS : Live S) (h : Awaits db S (run db cfg { store } before)) (between : List MonitorEvent)
    (hbetween : ∀ between₁ later between₂, between = between₁ ++ .pass later :: between₂ →
      ¬Observes db cfg later (run db cfg { store } (before ++ between₁)) S) :
    Awaits db S (run db cfg { store } (before ++ between)) := by
  induction between using List.reverseRecOn with
  | nil => simpa using h
  | append_singleton between e ih =>
    have hawaits := ih fun between₁ later between₂ heq =>
      hbetween between₁ later (between₂ ++ [e]) (by simp [heq])
    rw [← List.append_assoc, run_concat]
    cases e with
    | call op => exact hawaits.forward rfl (MatchBackend.exec_forward op _)
    | pass later =>
      exact hawaits.pass hcfg (pending_live hcfg store _) hS (hbetween between later [] rfl)

/-- A failed reconcile leaves its state awaited. -/
theorem awaits_of_failed (hcfg : cfg.accessReconcile = true)
    (hlive : ∀ S, m.access.pendingAccessState = some S → Live S)
    (h : (m.reconcileMatchWindowState db cfg input).2.reconcile = some (S, false)) :
    Live S ∧ Awaits db S (m.reconcileMatchWindowState db cfg input).1 := by
  rcases reconcileMatchWindowState_access db input hcfg hlive with
    ⟨hnone, -⟩ | ⟨S', ok, hcall, hS, hreached, haccess⟩
  · rw [hnone] at h
    cases h
  · rw [hcall] at h
    cases h
    have hleaves := leaves_of_reached hreached
    refine ⟨hS, .inl ⟨by rw [haccess]; rfl, ?_, fun h => hleaves.trans h⟩⟩
    rintro rfl
    rw [hleaves]
    nofun

end WindowMonitor

open WindowMonitor in
/-- A pass that succeeds leaves the match stored as the window has it, and a second one at the same
clock changes nothing more and starts no tick. Over any history of passes, whatever fails in them,
and of operators' calls between them: a state counts as reconciled only when `ReconcileAccess` has
succeeded in a pass that observed or produced it, and once it has failed for a state, the next pass
that observes the state calls it again. -/
theorem reconciles_match_window {σ : Type} (db : MatchBackend σ) (cfg : MonitorConfig) :
    (∀ (m : WindowMonitor σ) (input : PassInput) (status : GameMatchStatus),
      (m.reconcileMatchWindowState db cfg input).2.result = .ok status →
      let m' := (m.reconcileMatchWindowState db cfg input).1
      m'.state db = (applyMatchWindow cfg.window input.now (db.matchStatus m.store)).state ∧
      (applyMatchWindow cfg.window input.now (db.matchStatus m'.store)).state = m'.state db ∧
      ∀ again : PassInput, again.now = input.now →
        let m'' := (m'.reconcileMatchWindowState db cfg again).1
        m''.store = m'.store ∧ m''.autoTicks = m'.autoTicks) ∧
    (cfg.accessReconcile = true → ∀ (store : σ) (events : List MonitorEvent),
      let after (events : List MonitorEvent) := run db cfg { store } events
      let reconcile (events : List MonitorEvent) (input : PassInput) :=
        ((after events).reconcileMatchWindowState db cfg input).2.reconcile
      (∀ S, (after events).access.reconciledAccessState = some S →
        ∃ before input rest, events = before ++ .pass input :: rest ∧
          reconcile before input = some (S, true) ∧
          (Observes db cfg input (after before) S ∨ Produces db cfg input (after before) S)) ∧
      ∀ before input between again rest S,
        events = before ++ .pass input :: (between ++ .pass again :: rest) →
        reconcile before input = some (S, false) →
        (∀ between₁ later between₂, between = between₁ ++ .pass later :: between₂ →
          ¬Observes db cfg later (after (before ++ .pass input :: between₁)) S) →
        Observes db cfg again (after (before ++ .pass input :: between)) S →
        ∃ ok, reconcile (before ++ .pass input :: between) again = some (S, ok)) := by
  refine ⟨fun m input status h => ?_, fun hcfg store events => ⟨fun S h => ?_, ?_⟩⟩
  · obtain ⟨hstate, hwindow⟩ := reconcileMatchWindowState_settles h
    refine ⟨hstate, hwindow, fun again hnow => reconcileMatchWindowState_keeps ?_⟩
    rw [hnow]
    exact hwindow
  · exact reconciled_by_pass hcfg store events h
  · intro before input between again rest S _ hfailed hbetween hobserves
    obtain ⟨hS, hawaits⟩ := awaits_of_failed hcfg (pending_live hcfg store before) hfailed
    rw [List.append_cons] at hobserves ⊢
    have hstart : Awaits db S (run db cfg { store } (before ++ [.pass input])) := by
      rw [run_concat]
      exact hawaits
    have hlater := awaits_run hcfg store _ hS hstart between fun between₁ later between₂ heq => by
      rw [List.append_assoc]
      exact hbetween between₁ later between₂ heq
    exact hobserves.reconciles hcfg (hlater.observes hobserves)

/-- A match that its window starts after a minute. -/
def startsAfterMinute : MonitorConfig where
  window := { matchStartAt := some 60000000000 }

/-- A pass a second after the start. -/
def passAfterStart (accessError : Option String) : PassInput where
  now := 61000000000
  later := 61000000000
  accessError

/-- The first reconcile fails behind the start, and the second pass tries again and leaves the match
running. -/
theorem reconciles_match_window_retry :
    let db := memoryMatch ℚ
    let m : WindowMonitor (MemoryGameStore ℚ) := { store := .new [] ∅ ∅ }
    let failing := passAfterStart (some "unavailable")
    let m₁ := m.run db startsAfterMinute [.pass failing]
    let second := m₁.reconcileMatchWindowState db startsAfterMinute (passAfterStart none)
    m₁.state db = .running ∧ m₁.autoTicks = 1 ∧
      (∃ ok, second.2.reconcile = some (.running, ok)) ∧ second.1.state db = .running := by
  intro db m failing m₁ second
  obtain ⟨hpass, hhistory⟩ := reconciles_match_window db startsAfterMinute
  refine ⟨by decide, by decide, ?_, ?_⟩
  · refine (hhistory rfl m.store [.pass failing, .pass (passAfterStart none)]).2 [] failing []
      (passAfterStart none) [] .running rfl ?_ ?_ ⟨rfl, ?_, ?_⟩
    · decide
    · intro between₁ later between₂ h
      simp at h
    · decide
    · decide
  · have hok : second.2.result.toBool = true := by decide
    obtain ⟨status, hstatus⟩ : ∃ status, second.2.result = .ok status := by
      cases h : second.2.result with
      | error => simp [h, Except.toBool] at hok
      | ok status => exact ⟨status, rfl⟩
    exact (hpass m₁ (passAfterStart none) status hstatus).1.trans (by decide)

end ADPlatform.GameCore
