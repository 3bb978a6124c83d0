import ADPlatform.Lib.Encoding
import ADPlatform.Lib.GoMap
import ADPlatform.GameCore.Types

/-! # Service states

How the checker runs of one tick, team and challenge, or a state that the checker reports itself,
become the stored service state. -/

namespace ADPlatform.GameCore
open Text

/-- `normalizeServiceStateStatus`: blank for a status that is not known. -/
def normalizeServiceStateStatus (value : String) : String :=
  match toLower (trimSpace value) with
  | "ok" => "ok"
  | "recovering" => "recovering"
  | "flag_not_found" | "flag-not-found" => "flag_not_found"
  | "faulty" => "faulty"
  | "down" => "down"
  | "unknown" => "unknown"
  | _ => ""

/-- What the runs of a tick say of one phase. -/
structure TickPhaseState where
  run : Option GameCheckerRun := none
  success : Bool := false
  failed : Bool := false

/-- The phase states by lower-case phase. -/
abbrev TickPhases := Go.Map String TickPhaseState

/-- The state of a phase; one without runs has none. -/
def TickPhases.at (phases : TickPhases) (phase : String) : TickPhaseState := phases.get phase {}

/-- `statusRank`. -/
def statusRank (status : String) : Nat :=
  match toLower (trimSpace status) with
  | "failed" => 3
  | "skipped" => 2
  | "success" => 1
  | _ => 0

/-- `shouldReplacePhaseRun`: the worse run wins, of two alike the earlier one. -/
def shouldReplacePhaseRun (current : Option GameCheckerRun) (candidate : GameCheckerRun) : Bool :=
  match current with
  | none => true
  | some current => statusRank current.status < statusRank candidate.status

/-- `collectTickPhaseStates`. -/
def collectTickPhaseStates (runs : List GameCheckerRun) : TickPhases :=
  runs.foldl collect ∅
where
  collect (phases : TickPhases) (run : GameCheckerRun) : TickPhases :=
    let phase := toLower (trimSpace run.phase)
    if phase = "" then phases
    else
      let state := phases.at phase
      let state :=
        if shouldReplacePhaseRun state.run run then { state with run := some run } else state
      let state := match toLower (trimSpace run.status) with
        | "success" => { state with success := true }
        | "failed" => { state with failed := true }
        | _ => if state.run.isNone then { state with run := some run } else state
      phases.insert phase state

/-- The order in which phases are looked at. -/
def checkerPhaseOrder : List String := ["put", "get", "check"]

/-- The phase has failed, or was run without a success. -/
def TickPhaseState.broken (state : TickPhaseState) : Bool :=
  state.failed || (state.run.isSome && !state.success)

/-- `checkerCycleStillRunning`: a phase has no run, and none before it is broken. -/
def checkerCycleStillRunning (phases : TickPhases) : Bool :=
  go checkerPhaseOrder
where
  go : List String → Bool
    | [] => false
    | phase :: rest =>
      let state := phases.at phase
      if state.broken then false else if state.run.isNone then true else go rest

/-- `nextMissingCheckerPhase`. -/
def nextMissingCheckerPhase (phases : TickPhases) : String :=
  (checkerPhaseOrder.find? fun phase => (phases.at phase).run.isNone).getD ""

/-- `phaseMessage`: the run's own message, or else the fallback. -/
def phaseMessage (state : TickPhaseState) (fallback : String) : String :=
  match state.run with
  | some run => if trimSpace run.message ≠ "" then trimSpace run.message else fallback
  | none => fallback

/-- `dominantFailurePhase`. -/
def dominantFailurePhase (phases : TickPhases) : String :=
  ((checkerPhaseOrder.find? fun phase => (phases.at phase).broken).or
    (checkerPhaseOrder.find? fun phase => (phases.at phase).run.isSome)).getD ""

/-- `dominantFailureMessage`. -/
def dominantFailureMessage (phases : TickPhases) : String :=
  let fallback := "service did not complete the latest checker cycle"
  match checkerPhaseOrder.find? fun phase => (phases.at phase).broken with
  | some phase => phaseMessage (phases.at phase) fallback
  | none => fallback

/-- `summarizeCheckerRunsForTick`. -/
def summarizeCheckerRunsForTick (runs : List GameCheckerRun) (tickID : Int) :
    GameServiceStateSummary :=
  if runs.isEmpty then { status := "unknown", tickID, message := "awaiting first checker run" }
  else
    let phases := collectTickPhaseStates runs
    let putOK := (phases.at "put").success
    let getOK := (phases.at "get").success
    let checkOK := (phases.at "check").success
    let summary : GameServiceStateSummary :=
      if checkerCycleStillRunning phases then
        { status := "unknown", phase := nextMissingCheckerPhase phases, tickID
          message := "checker cycle is still running" }
      else if putOK && getOK && checkOK then
        { status := "ok", phase := "check", tickID
          message := "service passed storage, retrieval, and functionality checks" }
      else if !putOK && getOK && checkOK then
        { status := "recovering", phase := "put", tickID
          message := phaseMessage (phases.at "put")
            "flag storage failed but retrieval and functionality still passed" }
      else if putOK && !getOK then
        { status := "flag_not_found", phase := "get", tickID
          message := phaseMessage (phases.at "get") "checker could not retrieve the stored flag" }
      else if putOK && getOK && !checkOK then
        { status := "faulty", phase := "check", tickID
          message := phaseMessage (phases.at "check") "service functionality check failed" }
      else
        { status := "down", phase := dominantFailurePhase phases, tickID
          message := dominantFailureMessage phases }
    if trimSpace summary.message = "" then
      { summary with message := "service state unavailable for the latest checker tick" }
    else summary

/-- `inferReportedStatePhase`: the phase that shows such a state. -/
def inferReportedStatePhase (status : String) : String :=
  match status with
  | "recovering" => "put"
  | "flag_not_found" => "get"
  | "faulty" | "ok" | "down" => "check"
  | _ => ""

/-- `fallbackReportedStateMessage`. -/
def fallbackReportedStateMessage (status message : String) : String :=
  let message := trimSpace message
  if message ≠ "" then message
  else match status with
    | "ok" => "checker reported the service healthy."
    | "recovering" => "checker reported a recovering service state."
    | "flag_not_found" => "checker reported the stored flag missing."
    | "faulty" => "checker reported the service functionality degraded."
    | "down" => "checker reported the service unavailable."
    | _ => "checker reported the latest service state."

end ADPlatform.GameCore
