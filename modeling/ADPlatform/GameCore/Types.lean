import ADPlatform.GameCore.Match

/-! # The records of the game core -/

namespace ADPlatform.GameCore

/-- The checker target of one team and challenge. -/
structure CheckerTarget where
  teamID : Int
  teamName : String
  challengeID : Int
  challengeName : String
  checkerImage : String
  checkerToken : String := ""
  target : String
  targetHost : String := ""
  targetIP : String := ""
  targetPort : Int := 0
  deriving DecidableEq, Repr

/-- The statuses of a tick. -/
inductive TickStatus where
  | running | completed | failed
  deriving DecidableEq, Repr

/-- `GameTickStatus`. -/
structure GameTickStatus where
  id : Int
  status : TickStatus
  totalCheckerRuns : Nat := 0
  successfulCheckerRuns : Nat := 0
  failedCheckerRuns : Nat := 0
  skippedCheckerRuns : Nat := 0
  startedAt : Stamp := none
  completedAt : Stamp := none
  message : String := ""
  deriving DecidableEq, Repr

/-- A checker run, as the server hands it to the store. -/
structure CheckerRunRecord where
  tickID : Int
  teamID : Int
  teamName : String
  challengeID : Int
  challengeName : String
  phase : String
  target : String
  checkerImage : String
  status : String := ""
  exitCode : Int := 0
  message : String := ""
  output : String := ""
  reportedServiceState : String := ""
  reportedStateMessage : String := ""
  checkedAt : Time
  deriving DecidableEq, Repr

/-- A checker run, as the store keeps it. -/
structure GameCheckerRun where
  id : Int
  tickID : Int
  teamID : Int
  teamName : String
  challengeID : Int
  challengeName : String
  phase : String
  target : String
  checkerImage : String
  status : String
  exitCode : Int
  message : String
  output : String
  checkedAt : Stamp
  deriving DecidableEq, Repr

/-- `issuedFlagRecord`. -/
structure IssuedFlagRecord where
  flag : String
  ownerTeamID : Int
  ownerTeamName : String
  challengeID : Int
  challengeName : String
  issuedTick : Int
  expiresTick : Int
  createdAt : Time
  deriving DecidableEq, Repr

/-- The record that a lookup of an unknown flag reads. -/
def IssuedFlagRecord.zero : IssuedFlagRecord where
  flag := ""
  ownerTeamID := 0
  ownerTeamName := ""
  challengeID := 0
  challengeName := ""
  issuedTick := 0
  expiresTick := 0
  createdAt := 0

/-- `acceptedFlagSubmission`. -/
structure AcceptedFlagSubmission where
  flag : String
  submittingTeam : Int
  attackerName : String
  victimName : String
  challengeName : String
  challengeID : Int
  submissionTick : Int
  expiresTick : Int
  submittedAt : Time
  deriving DecidableEq, Repr

/-- `AttackEvent`. -/
structure AttackEvent where
  id : String
  attacker : String
  victim : String
  service : String
  tick : Int
  verdict : String
  createdAt : Time
  deriving DecidableEq, Repr

/-- `checkerRunGroupKey`. -/
structure CheckerRunGroupKey where
  tickID : Int
  teamID : Int
  challengeID : Int
  deriving DecidableEq, Repr

/-- `GameServiceStateSummary`. -/
structure GameServiceStateSummary where
  status : String := ""
  phase : String := ""
  tickID : Int
  message : String := ""
  deriving DecidableEq, Repr

/-- What the checker client reports about one phase; `checkedAt` is its parsed time stamp. -/
structure CheckerPhaseResult where
  phase : String
  status : String
  exitCode : Int := 0
  checkedAt : Option Time := none
  message : String := ""
  output : String := ""
  serviceState : String := ""
  stateMessage : String := ""
  deriving DecidableEq, Repr

end ADPlatform.GameCore
