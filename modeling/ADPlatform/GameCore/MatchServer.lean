import ADPlatform.GameCore.MatchStore
import ADPlatform.Lib.Encoding
import Mathlib.Algebra.Order.Floor.Defs
import Mathlib.Data.Rat.Floor

/-! # The match endpoints, the warmup gate and the window monitor

The handlers of `gameCoreServer` that move the match, as programs over the statements of the
store and the server's own guarded fields. An organizer's token has been checked before. What
follows a transition without touching the match row (the access reconcile of a start, the tick
that a start fires, stopping the tick scheduler) is not part of these programs. -/

namespace ADPlatform.GameCore
open Concurrent

/-- The settings that the server's handlers look at. -/
structure MatchConfig where
  window : MatchWindow := {}
  warmupRequired : Bool := true
  warmupMinSuccess : ℚ := 1

/-- The status codes the handlers answer with. -/
inductive Reply where
  | ok | badRequest | conflict | unprocessable | internalError
  deriving DecidableEq

namespace GameCoreServer
open MatchProc PostgresGameStore

/-- The server's view of the match: the stored status under the window. -/
def matchStatus (cfg : MatchConfig) : MatchProc (Except MatchError GameMatchStatus) := do
  match ← PostgresGameStore.matchStatus with
  | .error e => return .error e
  | .ok status =>
    let now ← clock
    return .ok (applyMatchWindow cfg.window now status)

/-- The percentage that `%.0f%%` prints. -/
def percent (rate : ℚ) : Int := ⌊rate * 100 + 1 / 2⌋

/-- The verdict on the puts of a warmup over at least one target. -/
def warmupVerdict (minSuccess : ℚ) (result : GameWarmupResult) (completedAt : Time)
    (failures : List GameWarmupFailure) (contextError : Option String) : GameWarmupResult :=
  let result := { result with
    completedAt := completedAt.formatRFC3339
    putFailed := failures.length
    putSuccess := result.totalTargets - failures.length
    successRate := (result.totalTargets - failures.length : Nat) / (result.totalTargets : ℚ)
    failures := failures }
  let result :=
    match contextError, failures with
    | some reason, [] => { result with
        failures := [{ error := "warmup aborted before completion: " ++ reason }]
        putFailed := result.totalTargets
        putSuccess := 0
        successRate := 0 }
    | _, _ => result
  if minSuccess ≤ result.successRate then { result with status := .passed }
  else { result with
    status := .failed
    message :=
      if result.message = "" && 0 < result.putFailed then
        s!"{result.putFailed} of {result.totalTargets} targets failed put phase (required success rate: {percent minSuccess}%)"
      else result.message }

/-- A warmup that cannot list its targets is recorded with the error. -/
def recordWarmupFailure (base : GameWarmupResult) (runErr : String) :
    MatchProc GameWarmupResult := do
  let completedAt ← clock
  let result := { base with
    completedAt := completedAt.formatRFC3339
    status := .failed
    message := Text.trimSpace runErr
    successRate := if base.totalTargets = 0 then 0 else base.successRate }
  warmupStore result
  return result

/-- The answer of `runWarmup`: a result, and whether listing the targets failed. While another
execution is in flight it is the result stored last, whatever that is. -/
def runWarmup (cfg : MatchConfig) : MatchProc (GameWarmupResult × Bool) := do
  match ← warmupBegin with
  | some current => return (current, false)
  | none =>
    let startedAt ← clock
    let result : GameWarmupResult := { status := .running, startedAt := startedAt.formatRFC3339 }
    warmupStore result
    match ← listCheckerTargets with
    | .error error =>
      let failed ← recordWarmupFailure result ("failed to list checker targets: " ++ error)
      warmupEnd
      return (failed, true)
    | .ok targets =>
      if targets = [] then
        let completedAt ← clock
        let passed := { result with
          completedAt := completedAt.formatRFC3339
          status := .passed
          successRate := 1
          message := "no checker targets configured; warmup passes vacuously" }
        warmupStore passed
        warmupEnd
        return (passed, false)
      else
        let (failures, contextError) ← runWarmupPuts targets
        let completedAt ← clock
        let result := warmupVerdict cfg.warmupMinSuccess
          { result with totalTargets := targets.length } completedAt failures contextError
        warmupStore result
        warmupEnd
        return (result, false)

/-- `handleRunWarmup`. -/
def handleRunWarmup (cfg : MatchConfig) : MatchProc Reply := do
  let (result, failed) ← runWarmup cfg
  if failed then
    return if result.status = .failed then .unprocessable else .internalError
  else return if result.status = .passed then .ok else .unprocessable

/-- The last step of `handleStartMatch`, behind the warmup gate. -/
def startMatchNow : MatchProc Reply := do
  let now ← clock
  match ← startMatch .operator now with
  | .error .contestOver => return .conflict
  | .error _ => return .internalError
  | .ok _ => return .ok

/-- `handleStartMatch`: a required warmup has to have passed. -/
def handleStartMatch (cfg : MatchConfig) : MatchProc Reply := do
  match ← matchStatus cfg with
  | .error _ => return .internalError
  | .ok current =>
    if current.state = .running then return .ok
    else if current.state = .finished then return .conflict
    else if cfg.warmupRequired then
      let (warmup, failed) ← runWarmup cfg
      if failed then return .internalError
      else if warmup.status ≠ .passed then return .conflict
      else startMatchNow
    else startMatchNow

/-- `handlePauseMatch`. -/
def handlePauseMatch (cfg : MatchConfig) : MatchProc Reply := do
  match ← matchStatus cfg with
  | .error _ => return .internalError
  | .ok current =>
    if current.state = .finished then return .conflict
    else if current.state = .paused then return .ok
    else
      match ← pauseMatch with
      | .error _ => return .internalError
      | .ok _ => return .ok

/-- `handleResumeMatch`. -/
def handleResumeMatch (cfg : MatchConfig) : MatchProc Reply := do
  match ← matchStatus cfg with
  | .error _ => return .internalError
  | .ok current =>
    if current.state = .finished then return .conflict
    else if current.state = .paused then
      match ← resumeMatch with
      | .error _ => return .internalError
      | .ok _ => return .ok
    else return .ok

/-- `handleStopMatch`. -/
def handleStopMatch (cfg : MatchConfig) : MatchProc Reply := do
  match ← matchStatus cfg with
  | .error _ => return .internalError
  | .ok current =>
    if current.state = .finished then return .ok
    else
      let now ← clock
      match ← stopMatch now with
      | .error _ => return .internalError
      | .ok _ => return .ok

/-- `handleUpdateMatchSchedule`: the end is not before the start. -/
def handleUpdateMatchSchedule (startAt endAt : Option Time) : MatchProc Reply := do
  if startAt.any fun s => endAt.any (· < s) then return .badRequest
  else
    match ← updateMatchSchedule startAt endAt with
    | .error _ => return .internalError
    | .ok _ => return .ok

end GameCoreServer

namespace MatchWindowMonitor
open MatchProc PostgresGameStore

/-- `reconcilePendingAccess`: `false` when the access controller failed. Without a configured
controller the call succeeds. -/
def reconcilePendingAccess (state : MatchState) : MatchProc Bool := do
  let access ← accessLoad
  if access.pendingAccessState = some state then
    match ← reconcileAccess with
    | none => return false
    | some () =>
      accessSave { pendingAccessState := none, reconciledAccessState := some state }
      return true
  else return true

/-- Remember that access has to follow a transition to `state`, and try it. -/
def requestAccess (state : MatchState) : MatchProc Bool := do
  let access ← accessLoad
  accessSave { access with pendingAccessState := some state }
  reconcilePendingAccess state

/-- An instant of the desired status, or the clock when it has none. -/
def instantOrNow (stamp : Stamp) : MatchProc Time := do
  match parseOptionalRFC3339 stamp with
  | some t => return t
  | none => clock

/-- The start of a match whose whole window has passed unseen; a finished match is no error. -/
def startMissed (current desired : GameMatchStatus) : MatchProc (Except MatchError Unit) :=
  match current.state, parseOptionalRFC3339 desired.startedAt with
  | .notStarted, some startAt => do
    match ← startMatch .monitor startAt with
    | .ok _ | .error .contestOver => return .ok ()
    | .error e => return .error e
  | _, _ => pure (.ok ())

/-- The scheduled end. -/
def finishMatch (current desired : GameMatchStatus) : MatchProc Bool := do
  match ← startMissed current desired with
  | .error _ => return false
  | .ok () =>
    let endAt ← instantOrNow desired.endedAt
    match ← stopMatch endAt with
    | .error _ => return false
    | .ok _ => requestAccess .finished

/-- One pass of the monitor; `false` when it ended early on an error. -/
def reconcileMatchWindowState (cfg : MatchConfig) : MatchProc Bool := do
  match ← PostgresGameStore.matchStatus with
  | .error _ => return false
  | .ok current =>
    let now ← clock
    let desired := applyMatchWindow cfg.window now current
    if current.state = desired.state then
      let access ← accessLoad
      if shouldReconcileScheduledAccess desired &&
          access.reconciledAccessState ≠ some desired.state then
        accessSave { access with pendingAccessState := some desired.state }
      reconcilePendingAccess desired.state
    else
      match desired.state with
      | .running =>
        let startAt ← instantOrNow desired.startedAt
        match ← startMatch .monitor startAt with
        | .ok _ | .error .contestOver => requestAccess .running
        | .error _ => return false
      | .finished => finishMatch current desired
      | .notStarted | .paused => return true

end MatchWindowMonitor

/-- The requests that the server handles about the match, and a pass of its monitor. -/
inductive MatchRequest where
  | startMatch | pauseMatch | resumeMatch | stopMatch
  | updateMatchSchedule (startAt endAt : Option Time)
  | runWarmup
  | monitorPass

/-- The code that serves a request. -/
def MatchRequest.handler (cfg : MatchConfig) : MatchRequest → Thread MatchOp MatchOp.Res
  | startMatch => (GameCoreServer.handleStartMatch cfg).toThread
  | pauseMatch => (GameCoreServer.handlePauseMatch cfg).toThread
  | resumeMatch => (GameCoreServer.handleResumeMatch cfg).toThread
  | stopMatch => (GameCoreServer.handleStopMatch cfg).toThread
  | updateMatchSchedule startAt endAt =>
    (GameCoreServer.handleUpdateMatchSchedule startAt endAt).toThread
  | runWarmup => (GameCoreServer.handleRunWarmup cfg).toThread
  | monitorPass => (MatchWindowMonitor.reconcileMatchWindowState cfg).toThread

/-- A call made straight on the store. -/
inductive StoreCall where
  | startMatch (now : Time) | pauseMatch | resumeMatch | stopMatch (now : Time)

/-- The store's code for a call. -/
def StoreCall.handler : StoreCall → Thread MatchOp MatchOp.Res
  | startMatch now => (PostgresGameStore.startMatch .operator now).toThread
  | pauseMatch => PostgresGameStore.pauseMatch.toThread
  | resumeMatch => PostgresGameStore.resumeMatch.toThread
  | stopMatch now => (PostgresGameStore.stopMatch now).toThread

end ADPlatform.GameCore
