import ADPlatform.CheckerRunner.Output
import ADPlatform.Lib.GoMap
import ADPlatform.GameCore.Match

/-! # Checker batches

One container runs the phases of a target one after the other and prints a frame for each: a header
line with the phase, its exit code and the length of its output, the output, and a newline.
`parseCheckerBatchFrames` reads the frames back, and `executeCheckerBatch` turns them into phase
results. `executeBatch` is what the game core gets from the runner over HTTP. -/

namespace ADPlatform.CheckerRunner
open ByteString
open Text (bytes)
open GameCore

/-- The line feed that closes a frame. -/
def newline : UInt8 := 10

/-- What a frame carries: a phase's output and exit code. -/
structure CheckerBatchFrame where
  output : List UInt8
  exitCode : Int
  deriving DecidableEq

/-- The frames by their phases. -/
abbrev Frames := Go.Map String CheckerBatchFrame

/-- `checkerBatchFramePrefix`. -/
def checkerBatchFramePrefix : List UInt8 := bytes "__ADP_PHASE_FRAME__ "

/-- `normalizeCheckerPhase`. -/
def normalizeCheckerPhase (value : String) : Option String :=
  match Text.toLower (Text.trimSpace value) with
  | "put" => some "put"
  | "get" => some "get"
  | "check" => some "check"
  | _ => none

/-- The fields of a header: the phase, its exit code and the length of the payload. -/
structure FrameHeader where
  phase : String
  exitCode : Int
  payloadLength : Nat

/-- What follows the prefix of a header line. -/
def parseFrameHeader (seen : String → Bool) (header : List UInt8) : Except String FrameHeader :=
  match fields header with
  | [phase, exitCode, payloadLength] =>
    match normalizeCheckerPhase (text phase) with
    | none => .error "checker batch frame metadata is invalid"
    | some phase =>
      if seen phase then .error "checker batch frame phase is duplicated"
      else
        match (Decimal.atoi exitCode).filter fun code => 0 ≤ code && code ≤ 255 with
        | none => .error "checker batch frame exit code is invalid"
        | some exitCode =>
          match (Decimal.atoi payloadLength).filter (0 ≤ ·) with
          | none => .error "checker batch frame payload length is invalid"
          | some length => .ok { phase, exitCode, payloadLength := length.toNat }
  | _ => .error "checker batch frame metadata is invalid"

/-- One round of the loop of `parseCheckerBatchFrames`: a frame, and the output behind it. -/
def nextFrame (seen : String → Bool) (output : List UInt8) :
    Except String (String × CheckerBatchFrame × List UInt8) :=
  match output.dropWhile (· ≠ newline) with
  | [] => .error "checker batch frame header is incomplete"
  | _ :: rest =>
    let header := output.takeWhile (· ≠ newline)
    if !checkerBatchFramePrefix.isPrefixOf header then
      .error "checker batch frame header is invalid"
    else
      match parseFrameHeader seen (header.drop checkerBatchFramePrefix.length) with
      | .error e => .error e
      | .ok h =>
        if rest.length < h.payloadLength then .error "checker batch frame payload length is invalid"
        else
          match rest.drop h.payloadLength with
          | 10 :: rest' =>
            .ok (h.phase, { output := rest.take h.payloadLength, exitCode := h.exitCode }, rest')
          | _ => .error "checker batch frame payload delimiter is missing"

/-- The loop of `parseCheckerBatchFrames`, which takes at most `n` frames; every one of them is
longer than a byte. -/
def parseFrames : Nat → Frames → List UInt8 → Except String Frames
  | 0, frames, _ => .ok frames
  | n + 1, frames, output =>
    if output = [] then .ok frames
    else
      match nextFrame (fun phase => (frames.lookup phase).isSome) output with
      | .error e => .error e
      | .ok (phase, frame, rest) => parseFrames n (frames.insert phase frame) rest

/-- `parseCheckerBatchFrames`. -/
def parseCheckerBatchFrames (output : List UInt8) : Except String Frames :=
  if output = [] then .error "checker batch output is empty"
  else parseFrames output.length ∅ output

/-! ## Phase results -/

/-- What the runner takes from the libraries around it: `unicode.ToLower`, the JSON decoder, the
error of the network plan for a target, and the error that a client sees when the connection of
its request is dropped. -/
structure RunnerEnv where
  lower : Char → Char
  unmarshal : List UInt8 → Option CheckerReportedServiceState
  planDockerNetwork : CheckerTarget → Option String
  dropped : String

variable (env : RunnerEnv)

/-- The result of a phase that has a frame. -/
def phaseResult (checkedAt : Stamp) (phase : String) (frame : CheckerBatchFrame) :
    Sliced CheckerPhaseResult := do
  let allowReportedState := frame.exitCode = 0 && Text.toLower phase = "check"
  let (filtered, serviceState, stateMessage) :=
    parseCheckerServiceStateOutput env.unmarshal frame.output allowReportedState
  let pr : CheckerPhaseResult :=
    { phase
      status := if frame.exitCode = 0 then "success" else "failed"
      exitCode := frame.exitCode
      checkedAt := parseOptionalRFC3339 checkedAt
      message := "checker phase completed successfully."
      output := text (truncateOutput filtered 65536)
      serviceState
      stateMessage := text stateMessage }
  if frame.exitCode = 0 then return pr
  else
    let message ← commandFailureMessage env.lower .phase filtered frame.exitCode
    return { pr with message := text message }

/-- The results of the phases up to the first one that failed or has no frame. -/
def phaseResults (checkedAt : Stamp) (frames : Frames) :
    List String → Sliced (List CheckerPhaseResult)
  | [] => some []
  | phase :: phases =>
    match frames.lookup phase with
    | none => some []
    | some frame => do
      let pr ← phaseResult env checkedAt phase frame
      if frame.exitCode ≠ 0 then return [pr]
      else return pr :: (← phaseResults checkedAt frames phases)

/-- A failure of the whole batch, which the first phase answers for. -/
def batchFailure (checkedAt : Stamp) (phases : List String) (message : List UInt8) :
    Sliced (List CheckerPhaseResult) := do
  let phase ← phases.head?
  return [{ phase, status := "failed", exitCode := -1, checkedAt := parseOptionalRFC3339 checkedAt
            message := text message }]

/-- `ExecuteCheckerBatch`, behind the network plan. -/
def executeCheckerBatch (phases : List String) (c : ContainerRun) (checkedAt : Stamp) :
    Sliced (List CheckerPhaseResult) :=
  match execDocker c with
  | (output, _, some err) => do
    let message ← commandFailureMessage env.lower err output (-1)
    batchFailure checkedAt phases message
  | (output, _, none) =>
    match parseCheckerBatchFrames output with
    | .error _ => batchFailure checkedAt phases (bytes "checker batch output framing failed.")
    | .ok frames => phaseResults env checkedAt frames phases

/-! ## The request of the game core -/

/-- `normalizeCheckerPhases`: no phase twice. -/
def normalizeCheckerPhases (phases : List String) : Option (List String) :=
  if phases = [] then none
  else (phases.mapM normalizeCheckerPhase).filter (·.Nodup)

/-- The phases of a batch that `handleExecuteCheckerBatch` accepts. -/
def acceptedPhases (phases : List String) (target : CheckerTarget) : Option (List String) :=
  if target.teamID ≤ 0 || target.challengeID ≤ 0 || Text.trimSpace target.checkerImage = "" ||
      Text.trimSpace target.target = "" then none
  else normalizeCheckerPhases phases

/-- The error with which the runner answers without starting a container. -/
def refusal (phases : List String) (target : CheckerTarget) : Option String :=
  if acceptedPhases phases target = none then some "checker batch execution request is invalid."
  else env.planDockerNetwork target

/-- `httpCheckerClient.ExecuteBatch`, with the container that the runner starts for it and the
clock of the runner. -/
def executeBatch (phases : List String) (target : CheckerTarget) (c : ContainerRun) (now : Time) :
    Except String (List CheckerPhaseResult) :=
  match refusal env phases target, acceptedPhases phases target with
  | none, some accepted =>
    match executeCheckerBatch env accepted c now.formatRFC3339 with
    | some results => .ok results
    | none => .error env.dropped
  | reason, _ =>
    .error ("checker-runner request failed: " ++ Text.trimSpace (reason.getD ""))

/-- The phases that the game core is configured with. -/
def parseCheckerPhases (value : String) : List String :=
  let parts := (value.toList.splitOn ',').map String.ofList
  let phases := (parts.filterMap normalizeCheckerPhase).reverse.dedup.reverse
  if phases = [] then ["put", "get", "check"] else phases

end ADPlatform.CheckerRunner
