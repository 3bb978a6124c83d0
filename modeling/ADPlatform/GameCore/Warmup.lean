import ADPlatform.Lib.WorkerPool
import ADPlatform.GameCore.MatchServer
import ADPlatform.GameCore.Server

/-! # The puts of a warmup

`runWarmup` behind the list of targets: workers put a flag into every target, with some retries,
while one thread hands the targets out; the context of the warmup may end at any time. The verdict
on what they leave behind is `warmupVerdict`. -/

namespace ADPlatform.GameCore
open Concurrent Text

/-- What a checker answers to a put, as far as the warmup looks at it. -/
structure PutAnswer where
  status : String
  message : String := ""
  deriving DecidableEq

/-- The settings that a warmup looks at. -/
structure WarmupConfig where
  crypto : Crypto
  checkerParallelism : Int := 1
  warmupMinSuccess : ℚ := 1
  warmupPutRetries : Int := 2

/-- The channel of target indices, the wait group, the failures so far, and the error of the
warmup's context once that has ended. -/
structure WarmupShared where
  codec : FlagCodec
  ended : Option CtxError := none
  slot : Option Nat := none
  closed : Bool := false
  pending : Nat := 0
  failures : List GameWarmupFailure := []

/-- What the warmup's code does in one step. -/
inductive WarmupOp where
  | clock
  | loadCodec
  | execute (target : CheckerTarget) (flag : String)
  | contextCancel (err : CtxError)
  | contextErr
  /-- the wait before a further attempt, which the context may cut short -/
  | backoff
  | start (workers : Nat)
  /-- an index is handed out, unless the context has ended -/
  | offer (index : Nat)
  | close
  | receive
  | recordFailure (failure : GameWarmupFailure)
  | done
  | wait
  | failures

/-- What each operation answers. -/
def WarmupOp.Res : WarmupOp → Type
  | clock => Time
  | loadCodec => FlagCodec
  | execute .. => Except String PutAnswer
  | contextErr | backoff => Option CtxError
  | offer _ => Bool
  | receive => Option Nat
  | failures => List GameWarmupFailure
  | contextCancel _ | start _ | close | recordFailure _ | done | wait => Unit

/-- The environment: the clock, the outcome of a put, and which of two ready cases a `select`
takes. -/
structure WarmupInput where
  now : Time := 0
  answer : Except String PutAnswer := .ok { status := "success" }
  first : Bool := false

/-- The operations on the warmup's state; `none` where one blocks. -/
def warmupSem : Semantics WarmupShared WarmupInput WarmupOp WarmupOp.Res
  | input, .clock, s => some (s, input.now)
  | _, .loadCodec, s => some (s, s.codec)
  | input, .execute .., s => some (s, input.answer)
  | _, .contextCancel err, s => some ({ s with ended := s.ended.or (some err) }, ())
  | _, .contextErr, s => some (s, s.ended)
  | input, .backoff, s =>
    if input.first then s.ended.map fun err => (s, some err) else some (s, none)
  | _, .start workers, s => some ({ s with pending := s.pending + workers }, ())
  | input, .offer index, s =>
    if input.first then s.ended.map fun _ => (s, false)
    else if s.slot.isSome then none else some ({ s with slot := some index }, true)
  | _, .close, s => some ({ s with closed := true }, ())
  | _, .receive, s =>
    match s.slot with
    | some index => some ({ s with slot := none }, some index)
    | none => if s.closed then some (s, none) else none
  | _, .recordFailure failure, s => some ({ s with failures := s.failures ++ [failure] }, ())
  | _, .done, s => some ({ s with pending := s.pending - 1 }, ())
  | _, .wait, s => if s.pending = 0 then some (s, ()) else none
  | _, .failures, s => some (s, s.failures)

/-- The warmup's code over these operations. -/
abbrev WarmupProc := Proc WarmupOp WarmupOp.Res

namespace WarmupProc
open Proc

/-! Each operation as a program of one step. -/

def clock : WarmupProc Time := perform WarmupOp.clock
def loadCodec : WarmupProc FlagCodec := perform WarmupOp.loadCodec
def execute (target : CheckerTarget) (flag : String) : WarmupProc (Except String PutAnswer) :=
  perform (WarmupOp.execute target flag)
def contextErr : WarmupProc (Option CtxError) := perform WarmupOp.contextErr
def backoff : WarmupProc (Option CtxError) := perform WarmupOp.backoff
def start (workers : Nat) : WarmupProc Unit := perform (WarmupOp.start workers)
def offer (index : Nat) : WarmupProc Bool := perform (WarmupOp.offer index)
def close : WarmupProc Unit := perform WarmupOp.close
def receive : WarmupProc (Option Nat) := perform WarmupOp.receive
def recordFailure (failure : GameWarmupFailure) : WarmupProc Unit :=
  perform (WarmupOp.recordFailure failure)
def done : WarmupProc Unit := perform WarmupOp.done
def wait : WarmupProc Unit := perform WarmupOp.wait
def failures : WarmupProc (List GameWarmupFailure) := perform WarmupOp.failures

end WarmupProc

namespace Warmup
open WarmupProc
variable (cfg : WarmupConfig)

/-- The error of a put, if it did not succeed. -/
def putError : Except String PutAnswer → Option String
  | .error e => some ("checker execution failed: " ++ e)
  | .ok result =>
    let status := normalizedCheckerRunStatus result.status
    if status ≠ "success" then
      some s!"put phase did not succeed: status={status} message={trimSpace result.message}"
    else none

/-- One put, and its error. -/
def attemptWarmupPut (target : CheckerTarget) (flag : String) : WarmupProc (Option String) := do
  let answer ← execute target flag
  return putError answer

/-- The further attempts behind one that failed with `lastErr`. -/
def retries (target : CheckerTarget) (flag : String) (lastErr : String) :
    Nat → WarmupProc (Option String)
  | 0 => return some lastErr
  | n + 1 => do
    match ← backoff with
    | some err => return some err.text
    | none =>
      match ← attemptWarmupPut target flag with
      | none => return none
      | some lastErr => retries target flag lastErr n

/-- `runWarmupForTarget`: at least one attempt. -/
def runWarmupForTarget (target : CheckerTarget) : WarmupProc (Option String) := do
  let codec ← loadCodec
  let flag := codec.issue cfg.crypto.hmac target.teamID target.challengeID 0 0
  let attempts := if cfg.warmupPutRetries + 1 < 1 then 1 else (cfg.warmupPutRetries + 1).toNat
  match ← attemptWarmupPut target flag with
  | none => return none
  | some lastErr => retries target flag lastErr (attempts - 1)

/-- A worker that can take so many further indices. -/
def worker (targets : List CheckerTarget) : Nat → WarmupProc Unit
  | 0 => done
  | n + 1 => do
    match ← receive with
    | none => done
    | some index =>
      match ← contextErr, targets[index]? with
      | none, some target =>
        match ← runWarmupForTarget cfg target with
        | none => worker targets n
        | some error =>
          recordFailure { teamID := target.teamID, challengeID := target.challengeID
                          challengeName := target.challengeName, error }
          worker targets n
      | _, _ => worker targets n

/-- The loop that hands out the indices until the context has ended. -/
def produce : List Nat → WarmupProc Unit
  | [] => close
  | index :: indices => do
    if ← offer index then produce indices else close

/-- As many workers as are configured, and no more than there are targets. -/
def parallelism (targets : List CheckerTarget) : Nat :=
  let parallelism := if cfg.checkerParallelism ≤ 0 then 1 else cfg.checkerParallelism.toNat
  if targets.length < parallelism then targets.length else parallelism

/-- `runWarmup` behind a list of targets that is not empty. -/
def runPuts (result : GameWarmupResult) (targets : List CheckerTarget) :
    WarmupProc GameWarmupResult := do
  start (parallelism cfg targets)
  Proc.forkAll (parallelism cfg targets) fun _ => worker cfg targets (targets.length + 1)
  produce (List.range targets.length)
  wait
  let completedAt ← clock
  let failures ← failures
  let err ← contextErr
  return GameCoreServer.warmupVerdict cfg.warmupMinSuccess
    { result with totalTargets := targets.length }
    completedAt failures (err.map (·.text))

end Warmup

end ADPlatform.GameCore
