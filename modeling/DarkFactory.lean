import DarkFactory.Api.Aggregates
import DarkFactory.Artifacts.Diff
import DarkFactory.Artifacts.Edits
import DarkFactory.Artifacts.PhaseRevisions
import DarkFactory.Artifacts.Properties
import DarkFactory.Artifacts.Race
import DarkFactory.Artifacts.Service
import DarkFactory.Budget.Accounts
import DarkFactory.Budget.Coordinator
import DarkFactory.Budget.Policy
import DarkFactory.Budget.Spend
import DarkFactory.Changes.Decimals
import DarkFactory.Changes.Enums
import DarkFactory.Changes.Keys
import DarkFactory.Changes.Records
import DarkFactory.Changes.Run
import DarkFactory.Changes.Text
import DarkFactory.Context.Bundle
import DarkFactory.Context.JsonText
import DarkFactory.Conversations.AgentOutput
import DarkFactory.Conversations.Answers
import DarkFactory.Conversations.Discussion
import DarkFactory.Conversations.Operations
import DarkFactory.Conversations.Orders
import DarkFactory.Conversations.PhaseGate
import DarkFactory.Conversations.Revision
import DarkFactory.Conversations.Rounds
import DarkFactory.Conversations.Scoped
import DarkFactory.Conversations.SendBack
import DarkFactory.Conversations.Sessions
import DarkFactory.Conversations.Settlement
import DarkFactory.Conversations.Surfaces
import DarkFactory.Documents.Anchors
import DarkFactory.Documents.Blocks
import DarkFactory.Documents.Decisions
import DarkFactory.Documents.Markdown
import DarkFactory.Documents.ReadModel
import DarkFactory.Documents.UiGraph
import DarkFactory.Documents.UiSpec
import DarkFactory.Documents.Yaml
import DarkFactory.Events.Cleanup
import DarkFactory.Events.Dispatch
import DarkFactory.Events.Replay
import DarkFactory.Events.Retention
import DarkFactory.Events.Rows
import DarkFactory.Events.Streams
import DarkFactory.Flow.Apply
import DarkFactory.Flow.Budget
import DarkFactory.Flow.Entry
import DarkFactory.Flow.PostState
import DarkFactory.Flow.Reaches
import DarkFactory.Flow.Reasons
import DarkFactory.Flow.Refusal
import DarkFactory.Flow.Rounds
import DarkFactory.Flow.Terms
import DarkFactory.Flow.Verdict
import DarkFactory.Guidance.Model
import DarkFactory.Guidance.Offers
import DarkFactory.Lib.Calendar
import DarkFactory.Lib.Delimited
import DarkFactory.Lib.Digits
import DarkFactory.Lib.EditScript
import DarkFactory.Lib.Hmac
import DarkFactory.Lib.Holds
import DarkFactory.Lib.Labels
import DarkFactory.Lib.Last
import DarkFactory.Lib.Latch
import DarkFactory.Lib.Lifecycle
import DarkFactory.Lib.Lines
import DarkFactory.Lib.Outcome
import DarkFactory.Lib.PrefixFree
import DarkFactory.Lib.Regex
import DarkFactory.Lib.Segments
import DarkFactory.Lib.Sequence
import DarkFactory.Lib.Sha256
import DarkFactory.Lib.Table
import DarkFactory.Lib.Trace
import DarkFactory.Lib.Utf8
import DarkFactory.Lib.Window
import DarkFactory.Policy.Authorization
import DarkFactory.Policy.Escalation
import DarkFactory.Policy.Merge
import DarkFactory.Policy.Risk
import DarkFactory.Policy.TrustedPaths
import DarkFactory.Quality.AcceptanceContext
import DarkFactory.Quality.Gates
import DarkFactory.Quality.SpecificationVerdict
import DarkFactory.Reconcile.Apply
import DarkFactory.Reconcile.Converge
import DarkFactory.Reconcile.Duplicates
import DarkFactory.Reconcile.Rules
import DarkFactory.Reconcile.Service
import DarkFactory.Reconcile.Success
import DarkFactory.Records.Chain
import DarkFactory.Records.Charged
import DarkFactory.Records.History
import DarkFactory.Records.Index
import DarkFactory.Records.Layout
import DarkFactory.Records.Lookup
import DarkFactory.Records.Model
import DarkFactory.Records.Publish
import DarkFactory.Records.Screening
import DarkFactory.Records.Writers
import DarkFactory.Rules.Gates
import DarkFactory.Rules.Limits
import DarkFactory.Rules.Routes
import DarkFactory.Runner.Advance
import DarkFactory.Runner.Attempted
import DarkFactory.Runner.Drive
import DarkFactory.Runner.Effect
import DarkFactory.Runner.Events
import DarkFactory.Runner.Finished
import DarkFactory.Runner.Ladder
import DarkFactory.Runner.NextStage
import DarkFactory.Runner.Order
import DarkFactory.Runner.Paths
import DarkFactory.Runner.PhaseView
import DarkFactory.Runner.Progress
import DarkFactory.Runner.Refine
import DarkFactory.Runner.Resolve
import DarkFactory.Runner.Rows
import DarkFactory.Runner.Scripts
import DarkFactory.Runner.Settle
import DarkFactory.Runner.Spend
import DarkFactory.Runner.StageRows
import DarkFactory.Runner.Turns
import DarkFactory.Runner.Waiting
import DarkFactory.Runner.Withdrawal
import DarkFactory.Runner.Work
import DarkFactory.Scm.Agent
import DarkFactory.Scm.Branches
import DarkFactory.Scm.Fakes
import DarkFactory.Scm.Markers
import DarkFactory.Scm.Operations
import DarkFactory.Scm.Pinned
import DarkFactory.Scm.Ports
import DarkFactory.Scm.Promotion
import DarkFactory.Scm.Provider
import DarkFactory.Scm.Publication
import DarkFactory.Scm.Published
import DarkFactory.Scm.PullRequests
import DarkFactory.Sdd.Baseline
import DarkFactory.Sdd.ChangeStore
import DarkFactory.Sdd.Creation
import DarkFactory.Sdd.Frontmatter
import DarkFactory.Sdd.Identity
import DarkFactory.Sdd.Native
import DarkFactory.Sdd.Normalized
import DarkFactory.Sdd.OpenSpecRoundTrip
import DarkFactory.Sdd.Paths
import DarkFactory.Sdd.Reconciliation
import DarkFactory.Sdd.Reread
import DarkFactory.Sdd.Revision
import DarkFactory.Sdd.RoundTrip
import DarkFactory.Sdd.Stored
import DarkFactory.Sdd.Tree
import DarkFactory.Sdd.Writes
import DarkFactory.Stages.Agreement
import DarkFactory.Stages.Binding
import DarkFactory.Stages.Completion
import DarkFactory.Stages.Design
import DarkFactory.Stages.Gates
import DarkFactory.Stages.Identity
import DarkFactory.Stages.MergeAdvance
import DarkFactory.Stages.Phases
import DarkFactory.Stages.Release
import DarkFactory.Stages.ReleaseVerdict
import DarkFactory.Stages.Rereview
import DarkFactory.Stages.Resume
import DarkFactory.Stages.Rework
import DarkFactory.State.Effects
import DarkFactory.State.Fencing
import DarkFactory.State.Frame
import DarkFactory.State.Lease
import DarkFactory.State.Persist
import DarkFactory.State.ResultLaw
import DarkFactory.State.Rows
import DarkFactory.State.RunStore
import DarkFactory.State.StageResults
import DarkFactory.State.WellFormed
import DarkFactory.State.Withdraw
import DarkFactory.Tracker.Deliveries
import DarkFactory.Tracker.Webhook
import DarkFactory.Workspace.Paths
import DarkFactory.Workspace.Porcelain
