import ADPlatform.Lib.ByteString
import ADPlatform.GameCore.ServiceState

/-! # What the checker runner makes of the output of a command

The output of a container is bytes that a service under attack may have written: the runner keeps
a bounded part of it, takes the reported service state out of it, and takes secrets out of a
failure message. `redactCheckerSecretMaterial` looks for a marker in the lower-case text and cuts
the text itself at that place; where lower case is longer or shorter, the place may lie outside of
the text, and the program panics. -/

namespace ADPlatform.CheckerRunner
open ByteString
open Text (bytes)
open GameCore (normalizeServiceStateStatus)

/-- A string cannot be cut at a place outside of it: the goroutine panics. -/
abbrev Sliced (α : Type) := Option α

/-! ## The output that is kept -/

/-- `boundedOutputBuffer`. -/
structure BoundedOutputBuffer where
  output : List UInt8 := []
  limit : Nat
  exceeded : Bool := false

/-- `Write`: what does not fit is dropped. -/
def BoundedOutputBuffer.write (b : BoundedOutputBuffer) (p : List UInt8) : BoundedOutputBuffer :=
  let remaining := b.limit - b.output.length
  { b with
    output := b.output ++ p.take remaining
    exceeded := b.exceeded || decide (remaining < p.length) }

/-- The output of a command that writes `chunks`. -/
def captureOutput (limit : Nat) (chunks : List (List UInt8)) : List UInt8 × Bool :=
  let b := chunks.foldl BoundedOutputBuffer.write { limit := limit }
  (b.output, b.exceeded)

theorem BoundedOutputBuffer.foldl_write (b : BoundedOutputBuffer) (total : List UInt8)
    (chunks : List (List UInt8)) (houtput : b.output = total.take b.limit)
    (hexceeded : b.exceeded = decide (b.limit < total.length)) :
    ((chunks.foldl write b).output, (chunks.foldl write b).exceeded) =
      ((total ++ chunks.flatten).take b.limit,
        decide (b.limit < (total ++ chunks.flatten).length)) := by
  induction chunks generalizing b total with
  | nil => simp [houtput, hexceeded]
  | cons p chunks ih =>
    have hlimit : (b.write p).limit = b.limit := rfl
    rw [List.foldl_cons, List.flatten_cons, ← List.append_assoc, ← hlimit]
    refine ih (b.write p) (total ++ p) ?_ ?_
    · simp only [write, houtput, List.length_take, List.take_append]
      congr 2
      omega
    · simp only [write, houtput, hexceeded, List.length_take, List.length_append]
      rw [← Bool.decide_or]
      congr 1
      apply propext
      omega

/-- However the output is cut into writes, its first bytes are kept. -/
theorem captureOutput_eq (limit : Nat) (chunks : List (List UInt8)) :
    captureOutput limit chunks =
      (chunks.flatten.take limit, decide (limit < chunks.flatten.length)) := by
  exact BoundedOutputBuffer.foldl_write { limit := limit } [] chunks (by simp) (by simp)

/-- `maxCheckerProcessOutputBytes`. -/
def maxCheckerProcessOutputBytes : Nat := 1048576

/-- How a command ended, apart from a success. -/
inductive CommandError where
  | exit (code : Int)
  | deadlineExceeded
  | canceled
  | other

/-- The errors of `execDocker` and of a phase, as far as a message tells them apart. -/
inductive ExecError where
  | outputLimit
  | command (e : CommandError)
  | phase

/-- A run of a container: what it wrote, and the error of the command. -/
structure ContainerRun where
  chunks : List (List UInt8) := []
  err : Option CommandError := none

/-- All that the container has written. -/
def ContainerRun.written (c : ContainerRun) : List UInt8 := c.chunks.flatten

/-- `execDocker`: the exit code is -1 without an exit status. -/
def execDocker (c : ContainerRun) : List UInt8 × Int × Option ExecError :=
  let (output, exceeded) := captureOutput maxCheckerProcessOutputBytes c.chunks
  let exitCode :=
    match c.err with
    | some (.exit code) => code
    | _ => -1
  if exceeded then (output, -1, some .outputLimit)
  else
    match c.err with
    | none => (output, 0, none)
    | some e => (output, exitCode, some (.command e))

/-- `truncateOutput`: the text is cut at `limit` bytes, and further back to whole characters. -/
def truncateOutput (s : List UInt8) (limit : Nat) : List UInt8 :=
  if s.length ≤ limit then s else cut (s.take limit) limit ++ bytes "\n... [truncated]"
where
  cut (res : List UInt8) : Nat → List UInt8
    | 0 => []
    | n + 1 => if validString (res.take (n + 1)) then res.take (n + 1) else cut res n

/-! ## Failure messages -/

/-- The end of the token that starts at `start`. -/
def tokenEnd (s : List UInt8) (start : Nat) : Nat :=
  start + ((s.drop start).takeWhile fun b => b ≠ 32 && b ≠ 10 && b ≠ 9 && b ≠ 13).length

/-- A text that marks a secret; it has to be found before it can be cut. -/
structure SecretMarker where
  text : List UInt8
  text_ne : text ≠ []

/-- `secretMarkers`, in the order of the loop. -/
def secretMarkers : List SecretMarker :=
  [⟨bytes "AD_FLAG=", by decide⟩, ⟨bytes "AD_CHECKER_TOKEN=", by decide⟩,
    ⟨bytes "AD_METADATA=", by decide⟩]

/-- The loop of `redactCheckerSecretMaterial` for one marker. -/
def redactMarker (lower : Char → Char) (marker : SecretMarker) (redacted : List UInt8)
    (searchFrom : Nat) : Sliced (List UInt8) :=
  if (toLower lower redacted).length < searchFrom then none
  else
    match index (toLower lower marker.text) ((toLower lower redacted).drop searchFrom) with
    | none => some redacted
    | some rel =>
      if _h : redacted.length < tokenEnd redacted (searchFrom + rel + marker.text.length) then none
      else
        redactMarker lower marker
          (redacted.take (searchFrom + rel) ++ (marker.text ++ bytes "[redacted]") ++
            redacted.drop (tokenEnd redacted (searchFrom + rel + marker.text.length)))
          (searchFrom + rel + (marker.text ++ bytes "[redacted]").length)
termination_by redacted.length - searchFrom
decreasing_by
  have hmarker : 0 < marker.text.length := List.length_pos_of_ne_nil marker.text_ne
  have hstop : searchFrom + rel + marker.text.length ≤
      tokenEnd redacted (searchFrom + rel + marker.text.length) := Nat.le_add_right _ _
  simp only [List.length_append, List.length_take, List.length_drop]
  omega

/-- `redactCheckerSecretMaterial`: one marker after the other over the whole message. -/
def redactCheckerSecretMaterial (lower : Char → Char) (message : List UInt8) :
    Sliced (List UInt8) :=
  if message = [] then some message
  else secretMarkers.foldlM (fun redacted marker => redactMarker lower marker redacted 0) message

/-- `commandFailureMessage`. -/
def commandFailureMessage (lower : Char → Char) (err : ExecError) (output : List UInt8)
    (exitCode : Int) : Sliced (List UInt8) :=
  match err with
  | .outputLimit => some (bytes "checker command output exceeded limit.")
  | .command _ | .phase =>
    let trimmed := trimSpace output
    if trimmed ≠ [] then redactCheckerSecretMaterial lower trimmed
    else if 0 ≤ exitCode then
      some (bytes ("checker command exited with status " ++ exitCode.repr))
    else some <|
      match err with
      | .command .deadlineExceeded => bytes "checker command timed out"
      | .command .canceled => bytes "checker command canceled"
      | _ => bytes "checker command failed"

/-! ## Reported service states -/

/-- A state that a checker reports about the service. -/
structure CheckerReportedServiceState where
  status : List UInt8
  message : List UInt8 := []

/-- `serviceStatePrefix`. -/
def serviceStatePrefix : List UInt8 := bytes "ADPLATFORM_SERVICE_STATE="

/-- What a line of the output is to `parseCheckerServiceStateOutput`. -/
inductive StateLine where
  | kept
  | dropped
  | reported (status : String) (message : List UInt8)

/-- A line that carries no state is kept, and an empty one is dropped; `unmarshal` reads a JSON
object. -/
def stateLine (unmarshal : List UInt8 → Option CheckerReportedServiceState) (line : List UInt8) :
    StateLine :=
  let trimmed := trimSpace line
  if !serviceStatePrefix.isPrefixOf trimmed then .kept
  else
    let raw := trimSpace (trimmed.drop serviceStatePrefix.length)
    if raw = [] then .dropped
    else
      match if raw.head? = some 123 then unmarshal raw else some { status := raw } with
      | none => .kept
      | some payload =>
        match normalizeServiceStateStatus (text payload.status) with
        | "" => .kept
        | status => .reported status (trimSpace payload.message)

/-- What the loop over the output's lines keeps. -/
structure ServiceStateOutput where
  filtered : List (List UInt8) := []
  reportedStatus : String := ""
  reportedMessage : List UInt8 := []

/-- Only the first line that reports a state is honored. -/
def ServiceStateOutput.add (unmarshal : List UInt8 → Option CheckerReportedServiceState)
    (allowReportedState : Bool) (out : ServiceStateOutput) (line : List UInt8) :
    ServiceStateOutput :=
  match stateLine unmarshal line with
  | .kept => { out with filtered := out.filtered ++ [line] }
  | .dropped => out
  | .reported status message =>
    if allowReportedState && out.reportedStatus = "" then
      { out with reportedStatus := status, reportedMessage := message }
    else out

/-- `parseCheckerServiceStateOutput`: the output without its state lines, and the state reported
first. -/
def parseCheckerServiceStateOutput (unmarshal : List UInt8 → Option CheckerReportedServiceState)
    (output : List UInt8) (allowReportedState : Bool) : List UInt8 × String × List UInt8 :=
  let out := (output.splitOn 10).foldl (ServiceStateOutput.add unmarshal allowReportedState) {}
  (trimSpace ([10].intercalate out.filtered), out.reportedStatus, out.reportedMessage)

end ADPlatform.CheckerRunner
