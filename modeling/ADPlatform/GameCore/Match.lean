import Mathlib.Data.Rat.Defs

/-! # The match lifecycle and its schedule window

The stored match status and `applyMatchWindow`, the pure function by which the server overlays a
configured schedule on it. Instants are nanoseconds; the RFC 3339 texts of the status have whole
seconds, so formatting an instant drops the rest. -/

namespace ADPlatform.GameCore

/-- An instant, in nanoseconds since the Unix epoch. -/
abbrev Time := Int

/-- An RFC 3339 text: the instant in whole seconds, or `none` for the empty text. -/
abbrev Stamp := Option Int

/-- `FormatRFC3339`: whole seconds only. -/
def Time.formatRFC3339 (t : Time) : Stamp := some (t / 1000000000)

/-- `parseOptionalRFC3339` of a text that a status carries. -/
def parseOptionalRFC3339 (raw : Stamp) : Option Time := raw.map (· * 1000000000)

/-- The states of a match. -/
inductive MatchState where
  | notStarted | running | paused | finished
  deriving DecidableEq, Repr

/-- `GameMatchStatus`. -/
structure GameMatchStatus where
  state : MatchState := .notStarted
  startedAt : Stamp := none
  endedAt : Stamp := none
  scheduledStartAt : Stamp := none
  scheduledEndAt : Stamp := none
  scheduleConfigured : Bool := false
  acceptingSubmissions : Bool := false
  deriving DecidableEq, Repr

/-- The match window given to the process by its environment. -/
structure MatchWindow where
  matchStartAt : Option Time := none
  matchEndAt : Option Time := none

/-- The window in force: the stored schedule, over the environment's while none was stored. -/
def MatchWindow.startAt (w : MatchWindow) (status : GameMatchStatus) : Option Time :=
  (parseOptionalRFC3339 status.scheduledStartAt).or
    (if status.scheduleConfigured then none else w.matchStartAt)

/-- When the match ends: by its own schedule, or else by the configuration unless a schedule was
set. -/
def MatchWindow.endAt (w : MatchWindow) (status : GameMatchStatus) : Option Time :=
  (parseOptionalRFC3339 status.scheduledEndAt).or
    (if status.scheduleConfigured then none else w.matchEndAt)

/-- `bound` has been reached at `now`. -/
def reached (now : Time) (bound : Option Time) : Bool := bound.any (· ≤ now)

/-- A bound as it is stored. -/
def stampOf (bound : Option Time) : Stamp := bound.bind Time.formatRFC3339

/-- The status as the schedule makes it at `now`. -/
def applyMatchWindow (w : MatchWindow) (now : Time) (stored : GameMatchStatus) :
    GameMatchStatus :=
  let startAt := w.startAt stored
  let endAt := w.endAt stored
  let status := { stored with
    scheduledStartAt := (stampOf startAt).or stored.scheduledStartAt
    scheduledEndAt := (stampOf endAt).or stored.scheduledEndAt }
  match status.state with
  | .finished => { status with
      acceptingSubmissions := false
      endedAt := status.endedAt.or (if reached now endAt then stampOf endAt else none)
      startedAt := status.startedAt.or (if reached now startAt then stampOf startAt else none) }
  | .paused => { status with acceptingSubmissions := false }
  | .running | .notStarted =>
    if reached now endAt then { status with
      state := .finished
      acceptingSubmissions := false
      endedAt := status.endedAt.or (stampOf endAt)
      -- a window whose end precedes its start leaves no start text
      startedAt := status.startedAt.or
        (if startAt.any fun s => endAt.any (s ≤ ·) then stampOf startAt else none) }
    else if status.state = .running then { status with acceptingSubmissions := true }
    else if reached now startAt then { status with
      state := .running
      acceptingSubmissions := true
      startedAt := status.startedAt.or (stampOf startAt) }
    else { status with state := .notStarted, acceptingSubmissions := false }

/-- `matchWindowConfigured`. -/
def matchWindowConfigured (status : GameMatchStatus) : Bool :=
  status.scheduleConfigured || status.scheduledStartAt.isSome || status.scheduledEndAt.isSome

/-- `shouldReconcileScheduledAccess`. -/
def shouldReconcileScheduledAccess (status : GameMatchStatus) : Bool :=
  matchWindowConfigured status && (status.state == .running || status.state == .finished)

/-- The states of a warmup. -/
inductive WarmupStatus where
  | none | running | passed | failed
  deriving DecidableEq, Repr

/-- A target that the warmup could not place a flag at. -/
structure GameWarmupFailure where
  teamID : Int := 0
  challengeID : Int := 0
  challengeName : String := ""
  error : String
  deriving DecidableEq, Repr

/-- A warmup result; the zero value, with no status, is the one of a fresh process. -/
structure GameWarmupResult where
  status : WarmupStatus := .none
  startedAt : Stamp := none
  completedAt : Stamp := none
  totalTargets : Nat := 0
  putSuccess : Nat := 0
  putFailed : Nat := 0
  successRate : ℚ := 0
  failures : List GameWarmupFailure := []
  message : String := ""
  deriving DecidableEq, Repr

end ADPlatform.GameCore
