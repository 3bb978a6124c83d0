import ADPlatform.Lib.Concurrent
import ADPlatform.GameCore.MemoryStore

/-! # Ticks and submissions in the game-core server

`advanceTick` and `submitFlags` as programs over the calls of a game store, together with the
contexts, the worker pool and the guarded fields that they share with other requests. The store is
a parameter of the semantics: its calls may fail, and a call carries the context it is made with. -/

namespace ADPlatform.GameCore
open Concurrent Text

/-- Why a context is done. -/
inductive CtxError where
  | canceled | deadlineExceeded
  deriving DecidableEq, Repr

/-- The texts of `ctx.Err()`. -/
def CtxError.text : CtxError → String
  | canceled => "context canceled"
  | deadlineExceeded => "context deadline exceeded"

/-- The calls of a game store. -/
inductive StoreOp where
  | matchStatus
  | gameStatus
  | listCheckerTargets
  | isChallengeInMaintenance (challengeID : Int)
  | lookupTeamName (teamID : Int)
  | startNextTick (now : Time)
  | completeTick (tick : GameTickStatus)
  | reapRunningTicks (now : Time)
  | recordCheckerRun (run : CheckerRunRecord)
  | issueFlag (flag : IssuedFlagRecord)
  | lookupIssuedFlag (flag : String)
  | acceptFlagSubmission (submission : AcceptedFlagSubmission)
  | recomputeScoreboard
  | startMatch (now : Time)
  | pauseMatch
  | resumeMatch
  | stopMatch (now : Time)
  | updateMatchSchedule (startAt endAt : Option Time)
  | setChallengeMaintenance (challengeID : Int) (maintenance : Bool)
  | setChallengePlayFromTick (challengeID tick : Int)

/-- What a successful call answers, as far as the server looks at it. -/
def StoreOp.Answer : StoreOp → Type
  | matchStatus | startMatch _ | pauseMatch | resumeMatch | stopMatch _
  | updateMatchSchedule .. => GameMatchStatus
  | gameStatus => GameStatus
  | listCheckerTargets => List CheckerTarget
  | isChallengeInMaintenance _ | acceptFlagSubmission _ => Bool
  | lookupTeamName _ => String
  | startNextTick _ | completeTick _ => GameTickStatus
  | reapRunningTicks _ => Nat
  | recordCheckerRun _ => GameCheckerRun
  | lookupIssuedFlag _ => IssuedFlagRecord
  | issueFlag _ | recomputeScoreboard | setChallengeMaintenance ..
  | setChallengePlayFromTick .. => Unit

/-- A call on the in-memory store. -/
def MemoryGameStore.exec {K : Type} [Field K] [LinearOrder K] (rt : Go.Runtime) (M : FaustMath K)
    (crypto : Crypto) (s : MemoryGameStore K) :
    (op : StoreOp) → MemoryGameStore K × Except StoreError op.Answer
  | .matchStatus => (s, .ok s.matchStatus)
  | .gameStatus => (s, .ok s.gameStatus)
  | .listCheckerTargets => (s, .ok (s.listCheckerTargets rt))
  | .isChallengeInMaintenance challengeID => (s, .ok (s.isChallengeInMaintenance challengeID))
  | .lookupTeamName teamID => (s, s.lookupTeamName teamID)
  | .startNextTick now => s.startNextTick now
  | .completeTick tick => s.completeTick tick
  | .reapRunningTicks now => let (s', n) := s.reapRunningTicks now; (s', .ok n)
  | .recordCheckerRun run => let (s', record) := s.recordCheckerRun run; (s', .ok record)
  | .issueFlag flag => (s.issueFlag flag, .ok ())
  | .lookupIssuedFlag flag => (s, s.lookupIssuedFlag flag)
  | .acceptFlagSubmission submission => s.acceptFlagSubmission rt M crypto submission
  | .recomputeScoreboard => let (s', r) := s.recomputeScoreboard rt M; (s', r.map fun _ => ())
  | .startMatch now => s.startMatch now
  | .pauseMatch => s.pauseMatch
  | .resumeMatch => s.resumeMatch
  | .stopMatch now => s.stopMatch now
  | .updateMatchSchedule startAt endAt =>
    let (s', status) := s.updateMatchSchedule startAt endAt; (s', .ok status)
  | .setChallengeMaintenance challengeID maintenance =>
    (s.setChallengeMaintenance challengeID maintenance, .ok ())
  | .setChallengePlayFromTick challengeID tick =>
    (s.setChallengePlayFromTick challengeID tick, .ok ())

/-- What a checker has done on one target in a tick. -/
structure CheckerTargetTickResult where
  total : Nat := 0
  success : Nat := 0
  skipped : Nat := 0
  failed : Nat := 0
  deriving DecidableEq, Repr

/-- The pool of workers behind one tick: the channel of target indices, the wait group and what
the workers leave behind. -/
structure Pool where
  slot : Option Nat := none
  closed : Bool := false
  pending : Nat
  results : List CheckerTargetTickResult
  firstErr : Option StoreError := none

/-- The state that the requests of a server share, over a store in `σ`. A context is the list of
its ancestors, itself first; `done` holds the contexts that ended, and why. `returnedTicks` is a
history variable: the ticks whose `advanceTick` has returned. -/
structure ServerShared (σ : Type) where
  store : σ
  codec : FlagCodec
  contexts : List (List Nat) := []
  done : List (Nat × CtxError) := []
  pools : List Pool := []
  scoringPending : Bool := false
  returnedTicks : List Int := []

/-- The error of a context, if it is done. -/
def ServerShared.contextErr {σ : Type} (s : ServerShared σ) (ctx : Nat) : Option CtxError :=
  (s.contexts.getD ctx []).findSome? fun id => s.done.lookup id

/-- What the server's code does in one step. -/
inductive ServerOp where
  | clock
  | store (ctx : Nat) (op : StoreOp)
  | loadCodec
  | reloadFlagFormat (flagPrefix : String)
  | executeBatch (ctx : Nat) (tickID : Int) (target : CheckerTarget) (flag : String)
  | contextNew (parent : Option Nat)
  | contextCancel (ctx : Nat) (err : CtxError)
  | contextErr (ctx : Nat)
  | poolNew (workers targets : Nat)
  | poolSend (pool index : Nat)
  | poolClose (pool : Nat)
  | poolReceive (pool : Nat)
  | poolResult (pool index : Nat) (result : CheckerTargetTickResult) (err : Option StoreError)
  | poolDone (pool : Nat)
  | poolWait (pool : Nat)
  | scheduleScoreboardRecompute
  | reconcileAccess (ctx : Nat)
  | tickReturned (tickID : Int)

/-- What each operation answers. -/
def ServerOp.Res : ServerOp → Type
  | clock => Time
  | store _ op => Except StoreError op.Answer
  | loadCodec => FlagCodec
  | executeBatch .. => Except String (List CheckerPhaseResult)
  | contextNew _ | poolNew .. => Nat
  | contextErr _ => Option CtxError
  | poolReceive _ => Option Nat
  | poolResult .. => Bool
  | poolWait _ => List CheckerTargetTickResult × Option StoreError
  | reloadFlagFormat _ | contextCancel .. | poolSend .. | poolClose _ | poolDone _
  | scheduleScoreboardRecompute | reconcileAccess _ | tickReturned _ => Unit

/-- What the environment decides about one operation: the clock, the outcome of a checker batch,
and the input `ι` of the store. -/
structure ServerInput (ι : Type v) where
  now : Time := 0
  batch : Except String (List CheckerPhaseResult) := .ok []
  store : ι

/-- A store call: its input, the error of the context it is made with, and the call. -/
def StoreSem (σ : Type) (ι : Type v) :=
  ι → Option CtxError → σ → (op : StoreOp) → σ × Except StoreError op.Answer

/-- The operations on a pool; `none` where the operation blocks. -/
def Pool.receive (p : Pool) : Option (Pool × Option Nat) :=
  match p.slot with
  | some index => some ({ p with slot := none }, some index)
  | none => if p.closed then some (p, none) else none

/-- A target is sent to the workers, who take one at a time. -/
def Pool.send (p : Pool) (index : Nat) : Option Pool :=
  if p.slot.isSome then none else some { p with slot := some index }

/-- A worker's result; the first error is kept. -/
def Pool.result (p : Pool) (index : Nat) (result : CheckerTargetTickResult)
    (err : Option StoreError) : Pool :=
  { p with results := p.results.set index result, firstErr := p.firstErr.or err }

variable {σ : Type} {ι : Type v}

/-- The operations on the shared state; `none` where one blocks. -/
def serverSem (sem : StoreSem σ ι) :
    Semantics (ServerShared σ) (ServerInput ι) ServerOp ServerOp.Res
  | input, .clock, s => some (s, input.now)
  | input, .store ctx op, s =>
    let (store, r) := sem input.store (s.contextErr ctx) s.store op
    some ({ s with store }, r)
  | _, .loadCodec, s => some (s, s.codec)
  | _, .reloadFlagFormat flagPrefix, s =>
    some ({ s with codec := s.codec.withPrefix flagPrefix }, ())
  | input, .executeBatch .., s => some (s, input.batch)
  | _, .contextNew parent, s =>
    let ancestors := (parent.map fun p => s.contexts.getD p []).getD []
    some ({ s with contexts := s.contexts ++ [s.contexts.length :: ancestors] }, s.contexts.length)
  | _, .contextCancel ctx err, s =>
    some (if (s.contextErr ctx).isSome then s else { s with done := (ctx, err) :: s.done }, ())
  | _, .contextErr ctx, s => some (s, s.contextErr ctx)
  | _, .poolNew workers targets, s =>
    some ({ s with pools := s.pools ++ [{ pending := workers, results := .replicate targets {} }] },
      s.pools.length)
  | _, .poolSend pool index, s => do
    let p ← s.pools[pool]?
    let p ← p.send index
    return ({ s with pools := s.pools.set pool p }, ())
  | _, .poolClose pool, s => do
    let p ← s.pools[pool]?
    return ({ s with pools := s.pools.set pool { p with closed := true } }, ())
  | _, .poolReceive pool, s => do
    let p ← s.pools[pool]?
    let (p, index) ← p.receive
    return ({ s with pools := s.pools.set pool p }, index)
  | _, .poolResult pool index result err, s => do
    let p ← s.pools[pool]?
    return ({ s with pools := s.pools.set pool (p.result index result err) },
      p.firstErr.isNone && err.isSome)
  | _, .poolDone pool, s => do
    let p ← s.pools[pool]?
    return ({ s with pools := s.pools.set pool { p with pending := p.pending - 1 } }, ())
  | _, .poolWait pool, s => do
    let p ← s.pools[pool]?
    if p.pending = 0 then some (s, p.results, p.firstErr) else none
  | _, .scheduleScoreboardRecompute, s => some ({ s with scoringPending := true }, ())
  | _, .reconcileAccess _, s => some (s, ())
  | _, .tickReturned tickID, s => some ({ s with returnedTicks := tickID :: s.returnedTicks }, ())

/-- The server's code over these operations. -/
abbrev ServerProc := Proc ServerOp ServerOp.Res

namespace ServerProc
open Proc

/-! Each operation as a program of one step. -/

def clock : ServerProc Time := perform ServerOp.clock

/-- A call on the store. A panic ends the goroutine. -/
def store (ctx : Nat) (op : StoreOp) : ServerProc (Except StoreError op.Answer) := do
  match ← (perform (ServerOp.store ctx op) : ServerProc (Except StoreError op.Answer)) with
  | .error .panic => abort
  | r => return r

def loadCodec : ServerProc FlagCodec := perform ServerOp.loadCodec
def executeBatch (ctx : Nat) (tickID : Int) (target : CheckerTarget) (flag : String) :
    ServerProc (Except String (List CheckerPhaseResult)) :=
  perform (ServerOp.executeBatch ctx tickID target flag)
def contextNew (parent : Option Nat) : ServerProc Nat := perform (ServerOp.contextNew parent)
def contextCancel (ctx : Nat) (err : CtxError) : ServerProc Unit :=
  perform (ServerOp.contextCancel ctx err)
def contextErr (ctx : Nat) : ServerProc (Option CtxError) := perform (ServerOp.contextErr ctx)
def poolNew (workers targets : Nat) : ServerProc Nat := perform (ServerOp.poolNew workers targets)
def poolSend (pool index : Nat) : ServerProc Unit := perform (ServerOp.poolSend pool index)
def poolClose (pool : Nat) : ServerProc Unit := perform (ServerOp.poolClose pool)
def poolReceive (pool : Nat) : ServerProc (Option Nat) := perform (ServerOp.poolReceive pool)
def poolResult (pool index : Nat) (result : CheckerTargetTickResult) (err : Option StoreError) :
    ServerProc Bool := perform (ServerOp.poolResult pool index result err)
def poolDone (pool : Nat) : ServerProc Unit := perform (ServerOp.poolDone pool)
def poolWait (pool : Nat) : ServerProc (List CheckerTargetTickResult × Option StoreError) :=
  perform (ServerOp.poolWait pool)
def scheduleScoreboardRecompute : ServerProc Unit := perform ServerOp.scheduleScoreboardRecompute
def reconcileAccess (ctx : Nat) : ServerProc Unit := perform (ServerOp.reconcileAccess ctx)
def tickReturned (tickID : Int) : ServerProc Unit := perform (ServerOp.tickReturned tickID)

end ServerProc

/-- The settings that the server's code looks at. -/
structure ServerConfig where
  crypto : Crypto
  window : MatchWindow := {}
  checkerPhases : List String := ["put", "get", "check"]
  checkerParallelism : Int := 1
  tickTimeout : Bool := true

/-- `normalizedCheckerRunStatus`: what is neither a success nor skipped has failed. -/
def normalizedCheckerRunStatus (status : String) : String :=
  match toLower (trimSpace status) with
  | "success" | "passed" | "ok" => "success"
  | "skipped" => "skipped"
  | _ => "failed"

/-- `rotateCheckerTargets`; the offset is that of Go's truncated remainder. -/
def rotateCheckerTargets (targets : List CheckerTarget) (tickID : Int) : List CheckerTarget :=
  if targets.length ≤ 1 then targets
  else
    let offset := (tickID.tmod targets.length).natAbs
    if offset = 0 then targets else targets.drop offset ++ targets.take offset

/-- One more run in the counts. -/
def CheckerTargetTickResult.count (counts : CheckerTargetTickResult) (status : String) :
    CheckerTargetTickResult :=
  let counts := { counts with total := counts.total + 1 }
  match status with
  | "success" => { counts with success := counts.success + 1 }
  | "skipped" => { counts with skipped := counts.skipped + 1 }
  | _ => { counts with failed := counts.failed + 1 }

namespace Server
open ServerProc
variable (cfg : ServerConfig)

/-- `gameCoreServer.matchStatus`. -/
def matchStatus (ctx : Nat) : ServerProc (Except StoreError GameMatchStatus) := do
  match ← store ctx .matchStatus with
  | .error e => return .error e
  | .ok status =>
    let now ← clock
    return .ok (applyMatchWindow cfg.window now status)

/-- The errors of a request for which the match has to be running. -/
def notRunning : MatchState → Option StoreError
  | .finished => some .contestOver
  | .paused => some .contestPaused
  | .notStarted => some .contestNotStarted
  | .running => none

/-! ### The checker runs of a target -/

/-- The run that `runCheckerTarget` records for one phase, and whether the target is halted. -/
def phaseRun (tickID : Int) (target : CheckerTarget)
    (batch : Except String (List CheckerPhaseResult)) (halted : Bool) (runTime : Time)
    (phase : String) : CheckerRunRecord × Bool :=
  let run : CheckerRunRecord :=
    { tickID, teamID := target.teamID, teamName := target.teamName
      challengeID := target.challengeID, challengeName := target.challengeName, phase
      target := target.target, checkerImage := target.checkerImage, checkedAt := runTime
      exitCode := -1 }
  let skipped := { run with
    status := "skipped", message := "phase skipped after previous checker failure" }
  if halted then (skipped, true)
  else match batch with
    | .error message => ({ run with status := "failed", message }, true)
    | .ok phases =>
      match (Go.Map.fill (·.phase) id phases ∅ : Go.Map String CheckerPhaseResult).lookup phase with
      | none => (skipped, true)
      | some result =>
        let status := normalizedCheckerRunStatus result.status
        ({ run with
            status
            exitCode := result.exitCode
            message := trimSpace result.message
            output := trimSpace result.output
            reportedServiceState := normalizeServiceStateStatus result.serviceState
            reportedStateMessage := trimSpace result.stateMessage
            checkedAt := result.checkedAt.getD runTime },
          status = "failed")

/-- The flag that a successful put stores. -/
def issuedFlag (tickID : Int) (target : CheckerTarget) (flagValue : String) (createdAt : Time) :
    IssuedFlagRecord where
  flag := flagValue
  ownerTeamID := target.teamID
  ownerTeamName := target.teamName
  challengeID := target.challengeID
  challengeName := target.challengeName
  issuedTick := tickID
  expiresTick := tickID
  createdAt

/-- Store the flag behind a successful put. -/
def issueStoredFlag (ctx : Nat) (tickID : Int) (target : CheckerTarget) (flagValue : String)
    (run : CheckerRunRecord) : ServerProc (Except StoreError Unit) :=
  if run.phase = "put" && run.status = "success" then
    store ctx (.issueFlag (issuedFlag tickID target flagValue run.checkedAt))
  else return .ok ()

/-- The phase loop of `runCheckerTarget`. -/
def runPhases (ctx : Nat) (tickID : Int) (target : CheckerTarget) (flagValue : String)
    (batch : Except String (List CheckerPhaseResult)) : List String → Bool →
    CheckerTargetTickResult → ServerProc (CheckerTargetTickResult × Option StoreError)
  | [], _, counts => return (counts, none)
  | phase :: phases, halted, counts => do
    let runTime ← clock
    let (run, halted) := phaseRun tickID target batch halted runTime phase
    match ← store ctx (.recordCheckerRun run) with
    | .error e => return (counts, some (.failure ("checker run persistence failed: " ++ e.text)))
    | .ok _ =>
      match ← issueStoredFlag ctx tickID target flagValue run with
      | .error e =>
        return (counts, some (.failure ("flag issuance persistence failed: " ++ e.text)))
      | .ok () =>
        runPhases ctx tickID target flagValue batch phases halted (counts.count run.status)

/-- `runCheckerTarget`: a flag is issued, the batch is run, and its phases are recorded. -/
def runCheckerTarget (ctx : Nat) (tickID : Int) (target : CheckerTarget) :
    ServerProc (CheckerTargetTickResult × Option StoreError) := do
  let codec ← loadCodec
  let flagValue := codec.issue cfg.crypto.hmac target.teamID target.challengeID tickID tickID
  let batch ← executeBatch ctx tickID target flagValue
  runPhases ctx tickID target flagValue batch cfg.checkerPhases false {}

/-! ### The worker pool of a tick -/

/-- A worker hands in the result of a target; the first error cancels the other workers. -/
def handIn (pool ctx index : Nat) (r : CheckerTargetTickResult × Option StoreError) :
    ServerProc Unit := do
  let first ← poolResult pool index r.1 r.2
  if first then contextCancel ctx .canceled else return ()

/-- A worker: it takes at most `n` indices from the channel, one more than there are targets. -/
def worker (pool ctx : Nat) (tickID : Int) (targets : List CheckerTarget) : Nat → ServerProc Unit
  | 0 => poolDone pool
  | n + 1 => do
    match ← poolReceive pool with
    | none => poolDone pool
    | some index =>
      match ← contextErr ctx, targets[index]? with
      | none, some target =>
        let r ← runCheckerTarget cfg ctx tickID target
        handIn pool ctx index r
        worker pool ctx tickID targets n
      | _, _ => worker pool ctx tickID targets n

/-- The loop that hands out the indices until the context is done. -/
def handOut (pool ctx : Nat) : List Nat → ServerProc Unit
  | [] => poolClose pool
  | index :: indices => do
    match ← contextErr ctx with
    | some _ => poolClose pool
    | none =>
      poolSend pool index
      handOut pool ctx indices

/-- As many workers as are configured, and no more than there are targets. -/
def parallelism (targets : List CheckerTarget) : Nat :=
  let parallelism := if cfg.checkerParallelism ≤ 0 then 1 else cfg.checkerParallelism.toNat
  if targets.length < parallelism && 0 < targets.length then targets.length else parallelism

/-- `runCheckerTargets`: the targets are handed to the workers until one of them fails. -/
def runCheckerTargets (ctx : Nat) (tickID : Int) (targets : List CheckerTarget) :
    ServerProc (Except StoreError (List CheckerTargetTickResult)) := do
  let workerCtx ← contextNew (some ctx)
  let pool ← poolNew (parallelism cfg targets) targets.length
  Proc.forkAll (parallelism cfg targets) fun _ =>
    worker cfg pool workerCtx tickID targets (targets.length + 1)
  handOut pool workerCtx (List.range targets.length)
  let (results, firstErr) ← poolWait pool
  match firstErr with
  | some e => return .error e
  | none => return .ok results

/-! ### The tick -/

/-- The way out of a tick that failed: the error of the completion is dropped. -/
def failTick (ctx : Nat) (tick : GameTickStatus) (e : StoreError) :
    ServerProc (Except StoreError GameTickStatus) := do
  let completedAt ← clock
  let _ ← store ctx (.completeTick { tick with
    status := .failed, completedAt := completedAt.formatRFC3339, message := e.text })
  return .error e

/-- The completed tick, with the counts of the targets added up. -/
def completedTick (tick : GameTickStatus) (results : List CheckerTargetTickResult)
    (completedAt : Time) (targets phases : Nat) (timedOut : Bool) : GameTickStatus :=
  let covered := results.countP (0 < ·.total)
  { tick with
    totalCheckerRuns := tick.totalCheckerRuns + (results.map (·.total)).sum
    successfulCheckerRuns := tick.successfulCheckerRuns + (results.map (·.success)).sum
    skippedCheckerRuns := tick.skippedCheckerRuns + (results.map (·.skipped)).sum
    failedCheckerRuns := tick.failedCheckerRuns + (results.map (·.failed)).sum
    status := .completed
    completedAt := completedAt.formatRFC3339
    message :=
      if timedOut then
        s!"tick timed out after covering {covered} of {targets} targets ({phases} phases configured)"
      else s!"advanced tick across {targets} targets and {phases} phases" }

/-- The way out of a tick whose targets have run. -/
def finishTick (ctx runCtx : Nat) (tick : GameTickStatus) (targets : List CheckerTarget)
    (results : List CheckerTargetTickResult) : ServerProc (Except StoreError GameTickStatus) := do
  let completedAt ← clock
  let err ← contextErr runCtx
  match ← store ctx (.completeTick (completedTick tick results completedAt targets.length
      cfg.checkerPhases.length (cfg.tickTimeout && err = some .deadlineExceeded))) with
  | .error e => return .error e
  | .ok completed =>
    match ← store ctx .recomputeScoreboard with
    | .error e => return .error e
    | .ok () =>
      reconcileAccess ctx
      return .ok completed

/-- The context of the checker runs, with a deadline of its own where one is configured. -/
def tickContext (ctx : Nat) : ServerProc Nat :=
  if cfg.tickTimeout then contextNew (some ctx) else return ctx

/-- `advanceTick` behind `StartNextTick`. -/
def runTick (ctx : Nat) (tick : GameTickStatus) :
    ServerProc (Except StoreError GameTickStatus) := do
  match ← store ctx .listCheckerTargets with
  | .error e => failTick ctx tick e
  | .ok targets =>
    let targets := rotateCheckerTargets targets tick.id
    let runCtx ← tickContext cfg ctx
    match ← runCheckerTargets cfg runCtx tick.id targets with
    | .error e => failTick ctx tick e
    | .ok results => finishTick cfg ctx runCtx tick targets results

/-- `advanceTick`: only while the match is running. -/
def advanceTick (ctx : Nat) : ServerProc (Except StoreError GameTickStatus) := do
  match ← matchStatus cfg ctx with
  | .error e => return .error e
  | .ok current =>
    match notRunning current.state with
    | some e => return .error e
    | none =>
      let startedAt ← clock
      match ← store ctx (.startNextTick startedAt) with
      | .error e => return .error e
      | .ok tick =>
        let r ← runTick cfg ctx tick
        tickReturned tick.id
        return r

/-! ### Submissions -/

/-- The statuses of verdicts. -/
inductive VerdictStatus where
  | accepted | invalid | duplicate
  deriving DecidableEq, Repr

/-- `SubmissionVerdict`. -/
structure SubmissionVerdict where
  flag : String
  status : VerdictStatus
  detail : String
  deriving DecidableEq, Repr

/-- The verdict on a flag that cannot be handed in. -/
def wrongOrExpired (flag : String) : SubmissionVerdict :=
  { flag, status := .invalid, detail := "flag is wrong or expired." }

/-- The verdict on a flag that the team has handed in before. -/
def alreadySubmitted (flag : String) : SubmissionVerdict :=
  { flag, status := .duplicate, detail := "flag already submitted." }

/-- The stored flag is the one that the submitted text claims to be. -/
def matchesClaims (issued : IssuedFlagRecord) (claims : FlagClaims) : Bool :=
  issued.ownerTeamID = claims.ownerTeamID && issued.challengeID = claims.challengeID &&
    issued.issuedTick = claims.issuedTick && issued.expiresTick = claims.expiresTick

/-- The verdict on a flag behind the checks of its claims. -/
def acceptIssued (ctx : Nat) (teamID currentTick : Int) (attackerName trimmed : String)
    (claims : FlagClaims) (issued : IssuedFlagRecord) :
    ServerProc (Except StoreError SubmissionVerdict) := do
  let submittedAt ← clock
  match ← store ctx (.acceptFlagSubmission {
      flag := trimmed, submittingTeam := teamID, attackerName, victimName := issued.ownerTeamName
      challengeName := issued.challengeName, challengeID := issued.challengeID
      submissionTick := currentTick, expiresTick := claims.expiresTick, submittedAt }) with
  | .error .flagNoLongerValid => return .ok (wrongOrExpired trimmed)
  | .error e => return .error e
  | .ok false => return .ok (alreadySubmitted trimmed)
  | .ok true => return .ok { flag := trimmed, status := .accepted, detail := "flag is correct." }

/-- The verdict on a flag that is stored as its text claims. -/
def submitIssued (ctx : Nat) (teamID currentTick : Int) (attackerName trimmed : String)
    (claims : FlagClaims) (issued : IssuedFlagRecord) :
    ServerProc (Except StoreError SubmissionVerdict) := do
  match ← store ctx (.isChallengeInMaintenance issued.challengeID) with
  | .error e => return .error e
  | .ok true =>
    return .ok { flag := trimmed, status := .invalid, detail := "challenge is under maintenance." }
  | .ok false => acceptIssued ctx teamID currentTick attackerName trimmed claims issued

/-- The verdict on one trimmed flag of a batch that is not empty and not a repetition. -/
def submitFlag (ctx : Nat) (teamID currentTick : Int) (attackerName trimmed : String) :
    ServerProc (Except StoreError SubmissionVerdict) := do
  let codec ← loadCodec
  match codec.parse cfg.crypto.hmac trimmed with
  | none => return .ok (wrongOrExpired trimmed)
  | some claims =>
    if currentTick = 0 || currentTick > claims.expiresTick || claims.ownerTeamID = teamID then
      return .ok (wrongOrExpired trimmed)
    else
      match ← store ctx (.lookupIssuedFlag trimmed) with
      | .error _ => return .ok (wrongOrExpired trimmed)
      | .ok issued =>
        if matchesClaims issued claims then
          submitIssued ctx teamID currentTick attackerName trimmed claims issued
        else return .ok (wrongOrExpired trimmed)

/-- The loop over a batch, with the flags seen, whether one was accepted, and the verdicts. -/
def submitLoop (ctx : Nat) (teamID currentTick : Int) (attackerName : String) :
    List String → List String → Bool → List SubmissionVerdict →
    ServerProc (Except StoreError (List SubmissionVerdict))
  | [], _, acceptedAny, results =>
    if acceptedAny then do
      scheduleScoreboardRecompute
      return .ok results
    else return .ok results
  | flagValue :: flags, seen, acceptedAny, results =>
    let trimmed := trimSpace flagValue
    if trimmed = "" then
      submitLoop ctx teamID currentTick attackerName flags seen acceptedAny
        (results ++ [wrongOrExpired flagValue])
    else if trimmed ∈ seen then
      submitLoop ctx teamID currentTick attackerName flags seen acceptedAny
        (results ++ [alreadySubmitted trimmed])
    else do
      match ← submitFlag cfg ctx teamID currentTick attackerName trimmed with
      | .error e => return .error e
      | .ok verdict =>
        submitLoop ctx teamID currentTick attackerName flags (trimmed :: seen)
          (acceptedAny || verdict.status = .accepted) (results ++ [verdict])

/-- `submitFlags` for a match that is running. -/
def submitRunning (ctx : Nat) (teamID : Int) (flags : List String) :
    ServerProc (Except StoreError (List SubmissionVerdict)) := do
  match ← store ctx .gameStatus with
  | .error e => return .error e
  | .ok status =>
    let name ← store ctx (.lookupTeamName teamID)
    let attackerName := match name with
      | .ok name => name
      | .error _ => "Team " ++ teamID.repr
    let currentTick := (status.currentTick.map (·.id)).getD 0
    submitLoop cfg ctx teamID currentTick attackerName flags [] false []

/-- `submitFlags`: one flag after the other, then a recompute if one was accepted. -/
def submitFlags (ctx : Nat) (teamID : Int) (flags : List String) :
    ServerProc (Except StoreError (List SubmissionVerdict)) := do
  match ← matchStatus cfg ctx with
  | .error e => return .error e
  | .ok current =>
    match notRunning current.state with
    | some e => return .error e
    | none => submitRunning cfg ctx teamID flags

end Server

/-- What arrives at a server: batches of flags, ticks, calls of the store's other methods (made
by an endpoint behind its checks, by the match monitor, the scoring timer or at startup), changes
of the flag format, and the end of a context. -/
inductive ServerRequest where
  | submitFlags (teamID : Int) (flags : List String)
  | advanceTick
  | startMatch (now : Time) | pauseMatch | resumeMatch | stopMatch (now : Time)
  | updateMatchSchedule (startAt endAt : Option Time)
  | setChallengeMaintenance (challengeID : Int) (maintenance : Bool)
  | setChallengePlayFromTick (challengeID tick : Int)
  | reapRunningTicks (now : Time)
  | recomputeScoreboard
  | reloadFlagFormat (flagPrefix : String)
  | endContext (ctx : Nat) (err : CtxError)

/-- A program that gets a context of its own. -/
def withContext {α : Type} (p : Nat → ServerProc α) : ServerProc α := do
  let ctx ← ServerProc.contextNew none
  p ctx

/-- The code that serves a request. -/
def ServerRequest.handler (cfg : ServerConfig) : ServerRequest → Thread ServerOp ServerOp.Res
  | submitFlags teamID flags =>
    (withContext fun ctx => Server.submitFlags cfg ctx teamID flags).toThread
  | advanceTick => (withContext (Server.advanceTick cfg)).toThread
  | startMatch now => call (.startMatch now)
  | pauseMatch => call .pauseMatch
  | resumeMatch => call .resumeMatch
  | stopMatch now => call (.stopMatch now)
  | updateMatchSchedule startAt endAt => call (.updateMatchSchedule startAt endAt)
  | setChallengeMaintenance challengeID maintenance =>
    call (.setChallengeMaintenance challengeID maintenance)
  | setChallengePlayFromTick challengeID tick => call (.setChallengePlayFromTick challengeID tick)
  | reapRunningTicks now => call (.reapRunningTicks now)
  | recomputeScoreboard => call .recomputeScoreboard
  | reloadFlagFormat flagPrefix =>
    (Proc.perform (ServerOp.reloadFlagFormat flagPrefix) : ServerProc Unit).toThread
  | endContext ctx err => (ServerProc.contextCancel ctx err).toThread
where
  call (op : StoreOp) : Thread ServerOp ServerOp.Res :=
    (withContext fun ctx => ServerProc.store ctx op).toThread

end ADPlatform.GameCore
