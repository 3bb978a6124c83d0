import ADPlatform.Lib.Concurrent
import ADPlatform.Lib.Clock
import ADPlatform.Lib.Encoding
import ADPlatform.Lib.Execution
import ADPlatform.Lib.GoMap
import ADPlatform.Lib.Exclusive
import ADPlatform.Lib.IPAddress
import ADPlatform.Lib.Ledger
import ADPlatform.Lib.PacketFilter
import ADPlatform.Lib.Ranking
import ADPlatform.Lib.Runs
import ADPlatform.Lib.Table
import ADPlatform.GameCore.Match
import ADPlatform.GameCore.Types
import ADPlatform.GameCore.MatchStore
import ADPlatform.GameCore.MatchServer
import ADPlatform.GameCore.MatchLifecycle
import ADPlatform.GameCore.Flags
import ADPlatform.GameCore.ServiceState
import ADPlatform.GameCore.Scoring
import ADPlatform.GameCore.MemoryStore
import ADPlatform.GameCore.MemoryScoreboard
import ADPlatform.GameCore.Server
import ADPlatform.GameCore.ServerRules
import ADPlatform.GameCore.Submissions
import ADPlatform.GameCore.MemoryTicks
import ADPlatform.GameCore.ScoringDebounce
import ADPlatform.GameCore.ScoreboardAudit
import ADPlatform.GameCore.Tables
import ADPlatform.GameCore.TickCompletion
import ADPlatform.GameCore.CheckerRuns
import ADPlatform.GameCore.ReportedStates
import ADPlatform.GameCore.CheckerTargets
import ADPlatform.GameCore.CycleSummary
import ADPlatform.GameCore.PostgresScoreboard
import ADPlatform.GameCore.ScoreTotals
import ADPlatform.GameCore.ScoreAgreement
import ADPlatform.GameCore.ScoreboardRecompute
import ADPlatform.GameCore.ScoreboardRaces
import ADPlatform.GameCore.TeamActivation
import ADPlatform.APIGateway.Types
import ADPlatform.APIGateway.Store
import ADPlatform.APIGateway.MemoryStore
import ADPlatform.APIGateway.PostgresStore
import ADPlatform.APIGateway.PlayGates
import ADPlatform.APIGateway.ResumeRaces
import ADPlatform.APIGateway.WireGuard
import ADPlatform.APIGateway.MemoryPlayers
import ADPlatform.APIGateway.MemoryServices
import ADPlatform.APIGateway.MemoryRuns
import ADPlatform.APIGateway.BulkImport
import ADPlatform.APIGateway.Roster
import ADPlatform.APIGateway.Captains
import ADPlatform.APIGateway.Teams
import ADPlatform.APIGateway.Fleet
import ADPlatform.APIGateway.Deployments
import ADPlatform.APIGateway.ContainerNames
import ADPlatform.APIGateway.UniqueNames
import ADPlatform.APIGateway.ScoreboardRows
import ADPlatform.APIGateway.ScoreboardFreeze
import ADPlatform.APIGateway.ReusedIDs
import ADPlatform.APIGateway.Sessions
import ADPlatform.APIGateway.MemberLimit
import ADPlatform.APIGateway.PostgresNames
import ADPlatform.Lib.TokenBucket
import ADPlatform.APIGateway.RateLimit
import ADPlatform.APIGateway.MemoryAddresses
import ADPlatform.WireGuardGateway.GatewayConfig
import ADPlatform.Controller.Reconcile
import ADPlatform.Controller.AccessRules
import ADPlatform.Controller.AccessVerdicts
import ADPlatform.Controller.AccessApply
import ADPlatform.Controller.AccessInterrupted
import ADPlatform.Controller.AccessReconcile
import ADPlatform.Controller.ServiceRuntime
import ADPlatform.GameCore.Scheduler
import ADPlatform.GameCore.UnknownTeams
import ADPlatform.GameCore.AttackFeed
import ADPlatform.GameCore.WindowMonitor
import ADPlatform.GameCore.SubmissionDeadline
import ADPlatform.Lib.ByteString
import ADPlatform.Lib.ConfigFile
import ADPlatform.Lib.Tally
import ADPlatform.Lib.Channel
import ADPlatform.RealtimeGateway.Streams
import ADPlatform.CheckerRunner.Output
import ADPlatform.CheckerRunner.Batch
import ADPlatform.CheckerRunner.Frames
import ADPlatform.CheckerRunner.SharedFrames
import ADPlatform.CheckerRunner.BatchScript
import ADPlatform.GameCore.FlagParsing
import ADPlatform.GameCore.StateBackfill
import ADPlatform.CheckerRunner.ReportedLines
import ADPlatform.CheckerRunner.Redaction
import ADPlatform.Controller.ServiceRemoval
import ADPlatform.Lib.Transcript
import ADPlatform.GameCore.SubmissionBatches
import ADPlatform.GameCore.SubmissionVerdicts
import ADPlatform.Lib.Roles
import ADPlatform.Lib.WorkerPool
import ADPlatform.GameCore.TickPool
import ADPlatform.Platform.UnlockProof
import ADPlatform.APIGateway.RedisCommands
import ADPlatform.Lib.Csv
import ADPlatform.Lib.JSString
import ADPlatform.Web.TeamCsv
import ADPlatform.Web.TeamImport
import ADPlatform.Lib.FilePath
import ADPlatform.APIGateway.ChallengeSource
import ADPlatform.WireGuardGateway.Firewall
import ADPlatform.APIGateway.FailedCalls
import ADPlatform.APIGateway.TeamTokens
import ADPlatform.Lib.Pages
import ADPlatform.APIGateway.ServiceDetails
import ADPlatform.Lib.Transactions
import ADPlatform.APIGateway.PostgresImport
import ADPlatform.GameCore.TickRuns
import ADPlatform.GameCore.TickAdvance
import ADPlatform.GameCore.TargetTranscripts
import ADPlatform.GameCore.TickTotals
import ADPlatform.GameCore.TickTimeout
import ADPlatform.GameCore.WarmupCounts
import ADPlatform.GameCore.TargetRotation
import ADPlatform.GameCore.StorePages
import ADPlatform.CheckerRunner.Truncation
import ADPlatform.APIGateway.UnlockRaces
import ADPlatform.APIGateway.ChallengeSubnets
import ADPlatform.Platform.Migrations
import ADPlatform.WireGuardGateway.Pause
