import ADPlatform.Lib.Concurrent
import ADPlatform.GameCore.Types

/-! # The match row of the postgres game store

`postgresGameStore` keeps the match in one row. Each transition reads the row, validates what it
read and then upserts, in two statements with nothing between them that locks the row. The model
takes the statements apart, so that the calls of any number of requests interleave statement by
statement. -/

namespace ADPlatform.GameCore
open Concurrent

/-- The row of `game_match_state`. -/
structure MatchRow where
  state : MatchState
  startedAt : Option Time := none
  endedAt : Option Time := none
  scheduledStartAt : Option Time := none
  scheduledEndAt : Option Time := none
  scheduleConfigured : Bool := false
  deriving DecidableEq, Repr

/-- The stored match state; without a row the match has not started. -/
def storedState (row : Option MatchRow) : MatchState := (row.map (·.state)).getD .notStarted

/-- What `MatchStatus` returns for the row. -/
def MatchRow.toStatus : Option MatchRow → GameMatchStatus
  | none => {}
  | some row => {
      state := row.state
      startedAt := stampOf row.startedAt
      endedAt := stampOf row.endedAt
      scheduledStartAt := stampOf row.scheduledStartAt
      scheduledEndAt := stampOf row.scheduledEndAt
      scheduleConfigured := row.scheduleConfigured
      acceptingSubmissions := row.state == .running }

@[simp] theorem MatchRow.toStatus_state (row : Option MatchRow) :
    (MatchRow.toStatus row).state = storedState row := by
  cases row <;> rfl

/-- The upserts of the store, with the values they bind. -/
inductive MatchWrite where
  | start (now : Time) (current : GameMatchStatus)
  | pause (current : GameMatchStatus)
  | resume (current : GameMatchStatus)
  | stop (now : Time) (current : GameMatchStatus)
  | schedule (startAt endAt : Option Time)
  deriving DecidableEq

namespace MatchWrite

/-- The row that `INSERT` proposes. -/
def proposed : MatchWrite → MatchRow
  | start now current => ofCurrent .running (some now) none current
  | pause current => ofCurrent .paused (parseOptionalRFC3339 current.startedAt) none current
  | resume current => ofCurrent .running (parseOptionalRFC3339 current.startedAt) none current
  | stop now current =>
    ofCurrent .finished (parseOptionalRFC3339 current.startedAt) (some now) current
  | schedule startAt endAt =>
    { state := .notStarted, scheduledStartAt := startAt, scheduledEndAt := endAt,
      scheduleConfigured := true }
where
  ofCurrent (state : MatchState) (startedAt endedAt : Option Time) (current : GameMatchStatus) :
      MatchRow :=
    { state, startedAt, endedAt
      scheduledStartAt := parseOptionalRFC3339 current.scheduledStartAt
      scheduledEndAt := parseOptionalRFC3339 current.scheduledEndAt
      scheduleConfigured := current.scheduleConfigured }

/-- The columns that `ON CONFLICT (singleton) DO UPDATE` overwrites. -/
def update (write : MatchWrite) (row : MatchRow) : MatchRow :=
  let excluded := write.proposed
  match write with
  | start .. =>
    { row with state := excluded.state, startedAt := excluded.startedAt,
               endedAt := excluded.endedAt }
  | pause _ | resume _ => { row with state := excluded.state }
  | stop .. => { row with state := excluded.state, endedAt := excluded.endedAt }
  | schedule .. =>
    { row with scheduledStartAt := excluded.scheduledStartAt
               scheduledEndAt := excluded.scheduledEndAt
               scheduleConfigured := excluded.scheduleConfigured }

/-- The row after the write: a new one, or the stored one changed. -/
def upsert (write : MatchWrite) : Option MatchRow → MatchRow
  | none => write.proposed
  | some row => write.update row

/-- Does the write finish the match? -/
def isStop : MatchWrite → Bool
  | stop .. => true
  | _ => false

/-- Does the write set a schedule? -/
def isSchedule : MatchWrite → Bool
  | schedule .. => true
  | _ => false

/-- The state that an upsert leaves: its own, except that a schedule keeps the stored one. -/
theorem upsert_state (write : MatchWrite) (row : Option MatchRow) :
    (write.upsert row).state =
      if write.isSchedule then storedState row else write.proposed.state := by
  cases row <;> cases write <;> rfl

theorem proposed_finished {write : MatchWrite} :
    write.proposed.state = .finished ↔ write.isStop = true := by
  cases write <;> simp [proposed, proposed.ofCurrent, isStop]

end MatchWrite

/-- Who issues the status read of a start. -/
inductive Caller where
  | operator | monitor
  deriving DecidableEq

/-- The access states that the window monitor remembers between two passes. -/
structure MonitorAccess where
  pendingAccessState : Option MatchState := none
  reconciledAccessState : Option MatchState := none
  deriving DecidableEq

/-- The shared state behind the match endpoints: the row, and what the server holds in memory
about warmups and the monitor. `stops` and `passedWarmups` are history variables: the `stop`
upserts and the passed warmup executions so far. No statement depends on them. -/
structure MatchShared where
  row : Option MatchRow := none
  warmupInFlight : Bool := false
  lastWarmup : GameWarmupResult := {}
  access : MonitorAccess := {}
  stops : Nat := 0
  passedWarmups : Nat := 0

/-- The state that the row stands for. -/
def MatchShared.state (s : MatchShared) : MatchState := storedState s.row

/-- The atomic operations of the match endpoints. The second component that `selectMatch`
answers, and the `seen` of an upsert, is the history variable `stops` at the read. -/
inductive MatchOp where
  | clock
  | selectMatch (caller : Caller)
  | upsertMatch (write : MatchWrite) (seen : Nat)
  | warmupBegin
  | warmupStore (result : GameWarmupResult)
  | warmupEnd
  | listCheckerTargets
  | runWarmupPuts (targets : List CheckerTarget)
  | accessLoad
  | accessSave (access : MonitorAccess)
  | reconcileAccess

/-- Answers; a statement or an outside call that fails answers `none`. -/
def MatchOp.Res : MatchOp → Type
  | clock => Time
  | selectMatch _ => Option (GameMatchStatus × Nat)
  | upsertMatch .. => Option Unit
  | warmupBegin => Option GameWarmupResult
  | warmupStore _ | warmupEnd => Unit
  | listCheckerTargets => Except String (List CheckerTarget)
  | runWarmupPuts _ => List GameWarmupFailure × Option String
  | accessLoad => MonitorAccess
  | accessSave _ => Unit
  | reconcileAccess => Option Unit

/-- What the environment decides about one operation: the clock, the error with which the call
fails, the targets there are, the error with which a put on the `i`-th target ended, and the error
of the warmup context. -/
structure MatchInput where
  now : Time := 0
  failure : Option String := none
  targets : List CheckerTarget := []
  putError : Nat → Option String := fun _ => none
  contextError : Option String := none

/-- The failures that `runWarmup` collects from its workers. -/
def warmupFailures (targets : List CheckerTarget) (putError : Nat → Option String) :
    List GameWarmupFailure :=
  targets.zipIdx.filterMap fun (target, index) => (putError index).map fun error =>
    { teamID := target.teamID, challengeID := target.challengeID,
      challengeName := target.challengeName, error }

/-- The operations on the row, the warmup and the monitor's memory. -/
def matchSem : Semantics MatchShared MatchInput MatchOp MatchOp.Res
  | input, .clock, s => some (s, input.now)
  | input, .selectMatch _, s =>
    some (s, if input.failure.isSome then none else some (MatchRow.toStatus s.row, s.stops))
  | input, .upsertMatch write _, s =>
    if input.failure.isSome then some (s, none)
    else some ({ s with row := some (write.upsert s.row),
                        stops := if write.isStop then s.stops + 1 else s.stops }, some ())
  | _, .warmupBegin, s =>
    if s.warmupInFlight then some (s, some s.lastWarmup)
    else some ({ s with warmupInFlight := true }, none)
  | _, .warmupStore result, s =>
    some ({ s with lastWarmup := result,
                   passedWarmups := if result.status = .passed then s.passedWarmups + 1
                                    else s.passedWarmups }, ())
  | _, .warmupEnd, s => some ({ s with warmupInFlight := false }, ())
  | input, .listCheckerTargets, s => some (s, match input.failure with
    | some error => .error error
    | none => .ok input.targets)
  | input, .runWarmupPuts targets, s =>
    some (s, warmupFailures targets input.putError, input.contextError)
  | _, .accessLoad, s => some (s, s.access)
  | _, .accessSave access, s => some ({ s with access := access }, ())
  | input, .reconcileAccess, s => some (s, if input.failure.isSome then none else some ())

/-- The code of the server and the store over these operations. -/
abbrev MatchProc := Proc MatchOp MatchOp.Res

namespace MatchProc
open Proc

/-! Each operation as a program of one step. -/

def clock : MatchProc Time := perform MatchOp.clock
def selectMatch (caller : Caller) : MatchProc (Option (GameMatchStatus × Nat)) :=
  perform (MatchOp.selectMatch caller)
def upsertMatch (write : MatchWrite) (seen : Nat) : MatchProc (Option Unit) :=
  perform (MatchOp.upsertMatch write seen)
def warmupBegin : MatchProc (Option GameWarmupResult) := perform MatchOp.warmupBegin
def warmupStore (result : GameWarmupResult) : MatchProc Unit :=
  perform (MatchOp.warmupStore result)
def warmupEnd : MatchProc Unit := perform MatchOp.warmupEnd
def listCheckerTargets : MatchProc (Except String (List CheckerTarget)) :=
  perform MatchOp.listCheckerTargets
def runWarmupPuts (targets : List CheckerTarget) :
    MatchProc (List GameWarmupFailure × Option String) := perform (MatchOp.runWarmupPuts targets)
def accessLoad : MatchProc MonitorAccess := perform MatchOp.accessLoad
def accessSave (access : MonitorAccess) : MatchProc Unit := perform (MatchOp.accessSave access)
def reconcileAccess : MatchProc (Option Unit) := perform MatchOp.reconcileAccess

end MatchProc

/-- The errors of the match calls. -/
inductive MatchError where
  | unavailable | contestNotStarted | contestOver
  deriving DecidableEq

namespace PostgresGameStore
open MatchProc

/-- `MatchStatus`. -/
def matchStatus : MatchProc (Except MatchError GameMatchStatus) := do
  match ← selectMatch .operator with
  | none => return .error .unavailable
  | some (current, _) => return .ok current

/-- `StartMatch`. -/
def startMatch (caller : Caller) (now : Time) : MatchProc (Except MatchError GameMatchStatus) := do
  match ← selectMatch caller with
  | none => return .error .unavailable
  | some (current, seen) =>
    match current.state with
    | .running => return .ok current
    | .finished => return .error .contestOver
    | .notStarted | .paused =>
      match ← upsertMatch (.start now current) seen with
      | none => return .error .unavailable
      | some () => return .ok { current with
          state := .running
          startedAt := now.formatRFC3339
          endedAt := none
          acceptingSubmissions := true }

/-- `PauseMatch`. -/
def pauseMatch : MatchProc (Except MatchError GameMatchStatus) := do
  match ← selectMatch .operator with
  | none => return .error .unavailable
  | some (current, seen) =>
    match current.state with
    | .finished => return .error .contestOver
    | .notStarted => return .error .contestNotStarted
    | .paused => return .ok current
    | .running =>
      match ← upsertMatch (.pause current) seen with
      | none => return .error .unavailable
      | some () => return .ok { current with state := .paused, acceptingSubmissions := false }

/-- `ResumeMatch`. -/
def resumeMatch : MatchProc (Except MatchError GameMatchStatus) := do
  match ← selectMatch .operator with
  | none => return .error .unavailable
  | some (current, seen) =>
    match current.state with
    | .finished => return .error .contestOver
    | .notStarted | .running => return .ok current
    | .paused =>
      match ← upsertMatch (.resume current) seen with
      | none => return .error .unavailable
      | some () => return .ok { current with state := .running, acceptingSubmissions := true }

/-- `StopMatch`. -/
def stopMatch (now : Time) : MatchProc (Except MatchError GameMatchStatus) := do
  match ← selectMatch .operator with
  | none => return .error .unavailable
  | some (current, seen) =>
    match current.state with
    | .finished => return .ok current
    | .notStarted | .running | .paused =>
      match ← upsertMatch (.stop now current) seen with
      | none => return .error .unavailable
      | some () => return .ok { current with
          state := .finished
          endedAt := now.formatRFC3339
          acceptingSubmissions := false }

/-- `UpdateMatchSchedule`. -/
def updateMatchSchedule (startAt endAt : Option Time) :
    MatchProc (Except MatchError GameMatchStatus) := do
  match ← upsertMatch (.schedule startAt endAt) 0 with
  | none => return .error .unavailable
  | some () => matchStatus

end PostgresGameStore

end ADPlatform.GameCore
