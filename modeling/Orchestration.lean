import Orchestration.Conductor.ClarifyRuns
import Orchestration.Conductor.SessionHostingRuns
import Orchestration.Conductor.SlingTool
import Orchestration.Conductor.Handoffs
import Orchestration.Desktop.DaemonSupervisorRuns
import Orchestration.Desktop.LiveTerminalRuns
import Orchestration.Desktop.ProjectControllerRuns
import Orchestration.Dispatch.CostRollups
import Orchestration.Dispatch.PinnedSeats
import Orchestration.Dispatch.UsageSnapshots
import Orchestration.Dispatch.Hysteresis
import Orchestration.Doctor.Observability
import Orchestration.Mail.Idempotency
import Orchestration.Mail.LiveOnce
import Orchestration.Mail.LiveStaleness
import Orchestration.Mail.Resolution
import Orchestration.Mail.BulkClear
import Orchestration.OperatorIpc.Calls
import Orchestration.Permissions.PublishGuard
import Orchestration.Plans.Completion
import Orchestration.Plans.Replanning
import Orchestration.Pty.Reconcile
import Orchestration.Replay.RepeatedReview
import Orchestration.Replay.StrikeRuns
import Orchestration.Roles.Subtree
import Orchestration.Session.StartCoordinator
import Orchestration.Worktrees.Sling
import Orchestration.Worktrees.Publishing
import Orchestration.Library.Cleanup
import Orchestration.Replay.GateRuns
import Orchestration.Replay.GateSafety
import Orchestration.Dispatch.Policy
import Orchestration.Review.ReviewerPlacement
import Orchestration.Review.Trigger
import Orchestration.Review.Registered
import Orchestration.Replay.SlotTransactions
import Orchestration.Replay.OpenedReviews
import Orchestration.Replay.TriggerCalls
import Orchestration.Replay.TriggerRuns
import Orchestration.Replay.NearBudget
import Orchestration.Issues.Filing
import Orchestration.Conductor.CodexTotals
import Orchestration.Desktop.ConsoleRuns
import Orchestration.OperatorIpc.TranscriptPushRuns
import Orchestration.Issues.ApprovalRequests
import Orchestration.Pty.DialogRuns
import Orchestration.Permissions.ShellTokens
import Orchestration.Conductor.SocketLines
import Orchestration.Pty.TranscriptWindow
import Orchestration.Pty.InjectionRuns
import Orchestration.Replay.FinalizeRuns
import Orchestration.Plans.PlanIngest
import Orchestration.Plans.Readiness
import Orchestration.Plans.NewestBranch
import Orchestration.Replay.CurrentWork
import Orchestration.Issues.Redactions
import Orchestration.Issues.CredentialShapes
import Orchestration.Issues.CredentialLabels
import Orchestration.Issues.CredentialPatterns
import Orchestration.Issues.HomePaths
import Orchestration.Issues.PrivateKeys
import Orchestration.Issues.ScrubTwice
import Orchestration.Replay.ReviewerSeats
import Orchestration.Replay.SeatRuns
import Orchestration.Library.EventStore
import Orchestration.Specs.Store
import Orchestration.Specs.Lifecycle
import Orchestration.Specs.LockRuns
import Orchestration.Js.Path
import Orchestration.Roles.Profile
import Orchestration.Permissions.TomlText
import Orchestration.Permissions.PaneConfig
import Orchestration.Permissions.Drift
import Orchestration.Permissions.CodexConfig
import Orchestration.Permissions.DriftCheck
