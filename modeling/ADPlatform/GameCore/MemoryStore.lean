import ADPlatform.GameCore.Flags
import ADPlatform.GameCore.Scoring
import ADPlatform.GameCore.ServiceState

/-! # The in-memory game store

`memoryGameStore`, one definition for each method. Every method holds the store's mutex from start
to end, so each is one atomic function of the store. A method that may dereference a missing team
or service answers `none` where the program would panic. -/

namespace ADPlatform.GameCore
open Text

/-- A challenge as the core knows it. -/
structure MemoryChallenge where
  name : String
  servicePort : Int := 0
  serviceSubnetOctet : Int := 0
  maintenance : Bool := false
  playFromTick : Int := 0
  deriving DecidableEq, Repr

/-- The challenge is closed for scoring at a tick: it is in maintenance or not yet back from it. -/
def MemoryChallenge.closedAt (challenge : MemoryChallenge) (tick : Int) : Bool :=
  challenge.maintenance || (challenge.playFromTick > 0 && challenge.playFromTick > tick)

/-- What organizers see of the scheduler. -/
structure GameSchedulerStatus where
  state : String
  intervalSeconds : Int
  lastRunAt : Stamp := none
  nextRunAt : Stamp := none
  lastTickID : Int := 0
  lastError : String := ""
  deriving DecidableEq, Repr

/-- An event of the scheduler, before it has an id. -/
structure SchedulerEventRecord where
  eventType : String
  source : String
  state : String
  tickID : Int
  message : String
  createdAt : Time
  deriving DecidableEq, Repr

/-- An event of the scheduler's history. -/
structure GameSchedulerEvent where
  id : Int
  eventType : String
  source : String
  state : String
  tickID : Int
  message : String
  createdAt : Stamp
  deriving DecidableEq, Repr

/-- The game status that a submission reads. -/
structure GameStatus where
  matchStatus : GameMatchStatus
  currentTick : Option GameTickStatus
  totalTicks : Nat
  totalCheckerRuns : Nat
  successfulCheckerRuns : Nat
  failedCheckerRuns : Nat
  skippedCheckerRuns : Nat

/-- `memoryGameStore`: everything under the core's one lock. -/
structure MemoryGameStore (K : Type) where
  targets : List CheckerTarget := []
  teamNames : Go.Map Int String := ∅
  challenges : Go.Map Int MemoryChallenge := ∅
  ticks : List GameTickStatus := []
  runs : List GameCheckerRun := []
  serviceStates : Go.Map CheckerRunGroupKey GameServiceStateSummary := ∅
  flags : Go.Map String IssuedFlagRecord := ∅
  accepted : Go.Map String AcceptedFlagSubmission := ∅
  attackFeed : List AttackEvent := []
  scoreboard : List (ScoreRow K) := []
  matchStatus : GameMatchStatus := {}
  scheduler : GameSchedulerStatus := { state := "stopped", intervalSeconds := 60 }
  events : List GameSchedulerEvent := []
  nextRun : Int := 1
  nextEvent : Int := 1

/-- The errors of a store call. -/
inductive StoreError where
  | noRows | tickInProgress | contestNotStarted | contestPaused | contestOver | flagNoLongerValid
  /-- a nil pointer is dereferenced, and the goroutine panics -/
  | panic
  /-- the call failed for a reason of its own, with this text -/
  | failure (message : String)
  deriving DecidableEq, Repr

/-- The texts of the store's errors. -/
def StoreError.text : StoreError → String
  | noRows => "sql: no rows in result set"
  | tickInProgress => "a game tick is already running"
  | contestNotStarted => "contest has not started yet."
  | contestPaused => "contest is temporarily paused."
  | contestOver => "contest is over."
  | flagNoLongerValid => "flag is no longer valid"
  | panic => "runtime error: invalid memory address or nil pointer dereference"
  | failure message => message

/-- `acceptedSubmissionKey`. -/
def acceptedSubmissionKey (flag : String) (teamID : Int) : String := flag ++ ":" ++ teamID.repr

theorem acceptedSubmissionKey_inj {flag flag' : String} {team team' : Int}
    (h : acceptedSubmissionKey flag team = acceptedSubmissionKey flag' team') :
    flag = flag' ∧ team = team' := by
  have hfree : ∀ n : Int, ':' ∉ n.repr.toList := Decimal.not_mem rfl (by decide)
  obtain ⟨hf, ht⟩ := split_last_inj (hfree _) (hfree _) h
  exact ⟨hf, Int.repr_injective ht⟩

/-- The order of `sortAcceptedSubmissions`. -/
def AcceptedFlagSubmission.before (x y : AcceptedFlagSubmission) : Bool :=
  if x.submittedAt ≠ y.submittedAt then x.submittedAt < y.submittedAt
  else if x.submittingTeam ≠ y.submittingTeam then x.submittingTeam < y.submittingTeam
  else x.flag < y.flag

/-! ## The scoreboard -/

/-- A team's scores, with those of its services. -/
structure TeamScore (K : Type) where
  name : String
  attack : K
  defense : K
  sla : K
  services : Go.Map Int (ServiceScoreBreakdown K)

/-- The scores under way, by team. -/
abbrev Scores (K : Type) := Go.Map Int (TeamScore K)

namespace Scores
variable {K : Type}

/-- Change the score of a team and the one of its service; `none` where either is missing. -/
def credit (onTeam : TeamScore K → TeamScore K)
    (onService : ServiceScoreBreakdown K → ServiceScoreBreakdown K) (team challenge : Int)
    (scores : Scores K) : Option (Scores K) := do
  let score ← scores.lookup team
  let service ← score.services.lookup challenge
  return scores.insert team
    { onTeam score with services := score.services.insert challenge (onService service) }

variable [Field K]

/-- The attack points of a capture go to the team and the service. -/
def addAttack (value : K) : Int → Int → Scores K → Option (Scores K) :=
  credit (fun t => { t with attack := t.attack + value })
    fun s => { s with attack := s.attack + value }

/-- The penalty of a loss is taken from the team and the service. -/
def subDefense (penalty : K) : Int → Int → Scores K → Option (Scores K) :=
  credit (fun t => { t with defense := t.defense - penalty })
    fun s => { s with defense := s.defense - penalty }

/-- The points of a state go to the team and the service. -/
def addSLA (value : K) : Int → Int → Scores K → Option (Scores K) :=
  credit (fun t => { t with sla := t.sla + value }) fun s => { s with sla := s.sla + value }

end Scores

namespace MemoryGameStore
variable {K : Type}

/-- The ids of the challenges in ascending order. -/
def sortedChallengeIDs (rt : Go.Runtime) (challenges : Go.Map Int MemoryChallenge) : List Int :=
  ((rt.range 0 challenges.pairs).map (·.1)).insertionSort (· ≤ ·)

/-- The accepted submissions of each flag, in the order in which the loop meets them. -/
def acceptedByFlag (submissions : List AcceptedFlagSubmission) :
    Go.Map String (List AcceptedFlagSubmission) :=
  submissions.foldl (fun m x => m.insert x.flag (m.get x.flag [] ++ [x])) ∅

variable [Field K]

/-- The zero entry of a service. -/
def newService (challenges : Go.Map Int MemoryChallenge) (challengeID : Int) :
    ServiceScoreBreakdown K where
  challengeID
  service := (challenges.get challengeID { name := "" }).name
  attack := 0
  defense := 0
  sla := 0
  total := 0

/-- A team that has no points yet. -/
def newScore (challenges : Go.Map Int MemoryChallenge) (challengeIDs : List Int) (name : String) :
    TeamScore K where
  name
  attack := 0
  defense := 0
  sla := 0
  services := Go.Map.fill id (newService challenges) challengeIDs ∅

/-- The attack loop, at one captured flag. -/
def scoreCaptures (rt : Go.Runtime) (flags : Go.Map String IssuedFlagRecord) (scores : Scores K)
    (group : String × List AcceptedFlagSubmission) : Option (Scores K) :=
  let flag := flags.get group.1 .zero
  (rt.sortSlice AcceptedFlagSubmission.before group.2).foldlM (fun scores submission =>
    scores.addAttack (faustAttackValue group.2.length) submission.submittingTeam
      flag.challengeID) scores

/-- The defense loop, at one issued flag. -/
def scoreLoss (M : FaustMath K) (byFlag : Go.Map String (List AcceptedFlagSubmission))
    (scores : Scores K) (entry : String × IssuedFlagRecord) : Option (Scores K) :=
  let flag := entry.2
  let captureCount := (byFlag.get flag.flag []).length
  if captureCount = 0 then some scores
  else scores.subDefense (faustDefensePenalty M captureCount) flag.ownerTeamID flag.challengeID

/-- The SLA loop, at one service state. -/
def scoreState (scores : Scores K) (entry : CheckerRunGroupKey × GameServiceStateSummary) :
    Option (Scores K) :=
  scores.addSLA (faustSLAValueForStatus entry.2.status) entry.1.teamID entry.1.challengeID

/-- The loop that multiplies every SLA score by the factor. -/
def scaleSLA (rt : Go.Runtime) (factor : K) (scores : Scores K) : Scores K :=
  Go.Map.fill (·.1) (fun (_, score) => { score with
    sla := score.sla * factor
    services := Go.Map.fill (·.1) (fun (_, service) => { service with sla := service.sla * factor })
      (rt.range 7 score.services.pairs) score.services }) (rt.range 6 scores.pairs) scores

/-- The entry of one service in the row of a team. -/
def scoreService (score : TeamScore K) (challengeID : Int) : Option (ServiceScoreBreakdown K) :=
  (score.services.lookup challengeID).map fun service =>
    { service with total := service.attack + service.defense + service.sla }

/-- The row of a team, before it is ranked. -/
def scoreRow (challengeIDs : List Int) (score : TeamScore K) : Option (ScoreRow K) := do
  let services ← challengeIDs.mapM (scoreService score)
  return { rank := 0, team := score.name, attack := score.attack, defense := score.defense
           sla := score.sla, total := score.attack + score.defense + score.sla, delta := ""
           services }

/-- Ranks and rank changes of sorted rows. -/
def rankRows (previousRanks : Go.Map String Nat) (rows : List (ScoreRow K)) : List (ScoreRow K) :=
  rows.mapIdx fun index row => { row with
    rank := index + 1
    delta := rankDelta (previousRanks.get row.team 0) (index + 1) }

variable [LinearOrder K]

/-- `recomputeScoreboardLocked`; `none` where it dereferences a missing entry. -/
def recomputeScoreboardLocked (rt : Go.Runtime) (M : FaustMath K) (s : MemoryGameStore K) :
    Option (MemoryGameStore K × List (ScoreRow K)) := do
  let previousRanks := Go.Map.fill (·.team) (·.rank) s.scoreboard ∅
  let challengeIDs := sortedChallengeIDs rt s.challenges
  let scores : Scores K :=
    Go.Map.fill (·.1) (fun (_, name) => newScore s.challenges challengeIDs name)
    (rt.range 1 s.teamNames.pairs) ∅
  let byFlag := acceptedByFlag ((rt.range 2 s.accepted.pairs).map (·.2))
  let scores ← (rt.range 3 byFlag.pairs).foldlM (scoreCaptures rt s.flags) scores
  let scores ← (rt.range 4 s.flags.pairs).foldlM (scoreLoss M byFlag) scores
  let scores ← (rt.range 5 s.serviceStates.pairs).foldlM scoreState scores
  let scores := scaleSLA rt (faustSLAFactor M s.teamNames.pairs.length) scores
  let rows ← (rt.range 8 scores.pairs).mapM fun entry => scoreRow challengeIDs entry.2
  let rows := rt.sortSlice (fun x y => x.standing.before y.standing) rows
  let rows := rankRows previousRanks rows
  return ({ s with scoreboard := rows }, rows)

end MemoryGameStore

/-! ## The methods -/

/-- The cryptographic functions that the game core uses. -/
structure Crypto where
  hmac : MAC
  sha256 : String → List UInt8

/-- `acceptedFlagAttackEventID`. -/
def acceptedFlagAttackEventID (crypto : Crypto) (submission : AcceptedFlagSubmission) : String :=
  let sum := crypto.sha256 (acceptedSubmissionKey submission.flag submission.submittingTeam)
  "atk-submit-" ++ submission.submissionTick.repr ++ "-" ++ submission.submittingTeam.repr ++ "-" ++
    hexEncode (sum.take 8)

/-- The event that an accepted submission puts on the attack feed. -/
def attackEvent (crypto : Crypto) (submission : AcceptedFlagSubmission) : AttackEvent where
  id := acceptedFlagAttackEventID crypto submission
  attacker := submission.attackerName
  victim := submission.victimName
  service := submission.challengeName
  tick := submission.submissionTick
  verdict := "first valid submission accepted"
  createdAt := submission.submittedAt

namespace MemoryGameStore
variable {K : Type} (s : MemoryGameStore K)

/-- A store in which no game has been played. -/
def new (targets : List CheckerTarget) (teamNames : Go.Map Int String)
    (challenges : Go.Map Int MemoryChallenge) : MemoryGameStore K :=
  { targets, teamNames, challenges }

/-- The largest tick id, or 0. -/
def maxTick : Int :=
  s.ticks.foldl (fun current tick => if tick.id > current then tick.id else current) 0

/-- The id of the last tick, or 0. -/
def currentTick : Int := (s.ticks.getLast?.map (·.id)).getD 0

/-- `ListCheckerTargets`: no challenge that is closed. -/
def listCheckerTargets (rt : Go.Runtime) : List CheckerTarget :=
  rt.sortSlice (fun a b =>
      if a.teamID ≠ b.teamID then a.teamID < b.teamID else a.challengeID < b.challengeID)
    (s.targets.filter fun target =>
      !(s.challenges.lookup target.challengeID).any fun challenge => challenge.closedAt s.maxTick)

/-- `IsChallengeInMaintenance`. -/
def isChallengeInMaintenance (challengeID : Int) : Bool :=
  (s.challenges.lookup challengeID).any fun challenge => challenge.closedAt s.maxTick

/-- `SetChallengeMaintenance`. -/
def setChallengeMaintenance (challengeID : Int) (maintenance : Bool) : MemoryGameStore K :=
  match s.challenges.lookup challengeID with
  | none => s
  | some challenge => { s with challenges := s.challenges.insert challengeID { challenge with
      maintenance
      playFromTick := if maintenance then 0 else challenge.playFromTick } }

/-- `SetChallengePlayFromTick`. -/
def setChallengePlayFromTick (challengeID tick : Int) : MemoryGameStore K :=
  match s.challenges.lookup challengeID with
  | none => s
  | some challenge =>
    { s with challenges := s.challenges.insert challengeID { challenge with playFromTick := tick } }

/-- `LookupTeamName`. -/
def lookupTeamName (teamID : Int) : Except StoreError String :=
  match s.targets.find? (·.teamID = teamID) with
  | some target => .ok target.teamName
  | none => .error .noRows

/-- `StartNextTick`: one tick at a time. -/
def startNextTick (now : Time) : MemoryGameStore K × Except StoreError GameTickStatus :=
  if s.ticks.getLast?.any (·.status = .running) then (s, .error .tickInProgress)
  else
    let tick : GameTickStatus :=
      { id := s.ticks.length + 1, status := .running, startedAt := now.formatRFC3339 }
    ({ s with ticks := s.ticks ++ [tick] }, .ok tick)

/-- `refreshMemoryServiceState`: a skipped run without a report leaves a stored state. -/
def refreshMemoryServiceState (run : CheckerRunRecord) : MemoryGameStore K :=
  let key : CheckerRunGroupKey :=
    { tickID := run.tickID, teamID := run.teamID, challengeID := run.challengeID }
  if (s.serviceStates.lookup key).isSome && run.status = "skipped" &&
      trimSpace run.reportedServiceState = "" then s
  else
    let normalized := normalizeServiceStateStatus run.reportedServiceState
    let summary : GameServiceStateSummary :=
      if normalized ≠ "" then
        { status := normalized, phase := inferReportedStatePhase normalized, tickID := run.tickID
          message := fallbackReportedStateMessage normalized run.reportedStateMessage }
      else
        summarizeCheckerRunsForTick (s.runs.filter fun x => x.tickID = run.tickID &&
          x.teamID = run.teamID && x.challengeID = run.challengeID) run.tickID
    { s with serviceStates := s.serviceStates.insert key summary }

/-- `RecordCheckerRun`. -/
def recordCheckerRun (run : CheckerRunRecord) : MemoryGameStore K × GameCheckerRun :=
  let record : GameCheckerRun :=
    { id := s.nextRun, tickID := run.tickID, teamID := run.teamID, teamName := run.teamName
      challengeID := run.challengeID, challengeName := run.challengeName, phase := run.phase
      target := run.target, checkerImage := run.checkerImage, status := run.status
      exitCode := run.exitCode, message := run.message, output := run.output
      checkedAt := run.checkedAt.formatRFC3339 }
  (refreshMemoryServiceState { s with nextRun := s.nextRun + 1, runs := record :: s.runs } run,
    record)

/-- `IssueFlag`. -/
def issueFlag (flag : IssuedFlagRecord) : MemoryGameStore K :=
  { s with flags := s.flags.insert flag.flag flag }

/-- `LookupIssuedFlag`. -/
def lookupIssuedFlag (flag : String) : Except StoreError IssuedFlagRecord :=
  match s.flags.lookup flag with
  | some record => .ok record
  | none => .error .noRows

/-- The checks that `AcceptFlagSubmission` repeats under the lock. -/
def acceptsNow (submission : AcceptedFlagSubmission) : Bool :=
  s.matchStatus.state = .running && s.matchStatus.acceptingSubmissions &&
  s.currentTick ≠ 0 && s.currentTick ≤ submission.expiresTick &&
  !(submission.challengeID > 0 && (s.challenges.lookup submission.challengeID).any fun challenge =>
    challenge.closedAt s.currentTick)

/-- `StartMatch`. -/
def startMatch (now : Time) : MemoryGameStore K × Except StoreError GameMatchStatus :=
  match s.matchStatus.state with
  | .running => (s, .ok s.matchStatus)
  | .finished => (s, .error .contestOver)
  | .notStarted | .paused =>
    let started : GameMatchStatus :=
      { state := .running, startedAt := now.formatRFC3339
        scheduledStartAt := s.matchStatus.scheduledStartAt
        scheduledEndAt := s.matchStatus.scheduledEndAt
        scheduleConfigured := s.matchStatus.scheduleConfigured
        acceptingSubmissions := true }
    ({ s with matchStatus := started }, .ok started)

/-- `PauseMatch`. -/
def pauseMatch : MemoryGameStore K × Except StoreError GameMatchStatus :=
  match s.matchStatus.state with
  | .finished => (s, .error .contestOver)
  | .notStarted => (s, .error .contestNotStarted)
  | .running | .paused =>
    let paused := { s.matchStatus with state := .paused, acceptingSubmissions := false }
    ({ s with matchStatus := paused }, .ok paused)

/-- `ResumeMatch`. -/
def resumeMatch : MemoryGameStore K × Except StoreError GameMatchStatus :=
  match s.matchStatus.state with
  | .finished => (s, .error .contestOver)
  | .notStarted | .running => (s, .ok s.matchStatus)
  | .paused =>
    let running := { s.matchStatus with state := .running, acceptingSubmissions := true }
    ({ s with matchStatus := running }, .ok running)

/-- `StopMatch`. -/
def stopMatch (now : Time) : MemoryGameStore K × Except StoreError GameMatchStatus :=
  match s.matchStatus.state with
  | .finished => (s, .ok s.matchStatus)
  | .notStarted | .running | .paused =>
    let stopped := { s.matchStatus with
      state := .finished, endedAt := now.formatRFC3339, acceptingSubmissions := false }
    ({ s with matchStatus := stopped }, .ok stopped)

/-- `UpdateMatchSchedule`. -/
def updateMatchSchedule (startAt endAt : Option Time) : MemoryGameStore K × GameMatchStatus :=
  let scheduled := { s.matchStatus with
    scheduledStartAt := stampOf startAt, scheduledEndAt := stampOf endAt
    scheduleConfigured := true }
  ({ s with matchStatus := scheduled }, scheduled)

/-- The loop of `CompleteTick`: the first tick with the id is replaced. -/
def replaceTick (tick : GameTickStatus) : List GameTickStatus → Option (List GameTickStatus)
  | [] => none
  | t :: ticks =>
    if t.id ≠ tick.id then (replaceTick tick ticks).map (t :: ·) else some (tick :: ticks)

/-- `CompleteTick`. -/
def completeTick (tick : GameTickStatus) : MemoryGameStore K × Except StoreError GameTickStatus :=
  match replaceTick tick s.ticks with
  | some ticks => ({ s with ticks }, .ok tick)
  | none => (s, .error (.failure ("tick " ++ tick.id.repr ++ " was not found")))

/-- The message of a tick that was left running. -/
def reapedTickMessage : String := "reaped: incomplete tick recovered on startup"

/-- A running tick is closed as failed. -/
def reapTick (now : Time) (tick : GameTickStatus) : GameTickStatus :=
  if tick.status ≠ .running then tick
  else { tick with
    status := .failed, completedAt := now.formatRFC3339, message := reapedTickMessage }

/-- `ReapRunningTicks`. -/
def reapRunningTicks (now : Time) : MemoryGameStore K × Nat :=
  ({ s with ticks := s.ticks.map (reapTick now) }, s.ticks.countP (·.status = .running))

/-- `GameStatus`: the last tick and the totals over all. -/
def gameStatus : GameStatus where
  matchStatus := s.matchStatus
  currentTick := s.ticks.getLast?
  totalTicks := s.ticks.length
  totalCheckerRuns := (s.ticks.map (·.totalCheckerRuns)).sum
  successfulCheckerRuns := (s.ticks.map (·.successfulCheckerRuns)).sum
  failedCheckerRuns := (s.ticks.map (·.failedCheckerRuns)).sum
  skippedCheckerRuns := (s.ticks.map (·.skippedCheckerRuns)).sum

/-- `SaveSchedulerState`. -/
def saveSchedulerState (status : GameSchedulerStatus) : MemoryGameStore K :=
  { s with scheduler := status }

/-- `AppendSchedulerEvent`. -/
def appendSchedulerEvent (event : SchedulerEventRecord) : MemoryGameStore K × GameSchedulerEvent :=
  let record : GameSchedulerEvent :=
    { id := s.nextEvent, eventType := event.eventType, source := event.source, state := event.state
      tickID := event.tickID, message := event.message, createdAt := event.createdAt.formatRFC3339 }
  ({ s with nextEvent := s.nextEvent + 1, events := record :: s.events }, record)

variable [Field K] [LinearOrder K]

/-- A recompute that panics leaves the scoreboard as it was. -/
def recomputeScoreboard (rt : Go.Runtime) (M : FaustMath K) :
    MemoryGameStore K × Except StoreError (List (ScoreRow K)) :=
  match recomputeScoreboardLocked rt M s with
  | some (s', rows) => (s', .ok rows)
  | none => (s, .error .panic)

/-- `AcceptFlagSubmission`; the answer says whether the submission is new. When the recompute
behind an insertion panics, the insertion stays. -/
def acceptFlagSubmission (rt : Go.Runtime) (M : FaustMath K) (crypto : Crypto)
    (submission : AcceptedFlagSubmission) : MemoryGameStore K × Except StoreError Bool :=
  if !s.acceptsNow submission then (s, .error .flagNoLongerValid)
  else
    let submission := { submission with submissionTick := s.currentTick }
    let key := acceptedSubmissionKey submission.flag submission.submittingTeam
    if (s.accepted.lookup key).isSome then (s, .ok false)
    else
      let inserted := { s with
        accepted := s.accepted.insert key submission
        attackFeed := attackEvent crypto submission :: s.attackFeed }
      match recomputeScoreboardLocked rt M inserted with
      | some (s', _) => (s', .ok true)
      | none => (inserted, .error .panic)

end MemoryGameStore

end ADPlatform.GameCore
