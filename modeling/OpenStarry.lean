import OpenStarry.Admission.Bound
import OpenStarry.Admission.Queue
import OpenStarry.Admission.Restore
import OpenStarry.Approval.Queue
import OpenStarry.Approval.Rows
import OpenStarry.Approval.Settled
import OpenStarry.Approval.Sweeps
import OpenStarry.Checkpoint.BoundedBuffer
import OpenStarry.Checkpoint.Selection
import OpenStarry.Compaction.ChunkTexts
import OpenStarry.Compaction.Chunks
import OpenStarry.Compaction.Compact
import OpenStarry.Compaction.Cuts
import OpenStarry.Compaction.Entries
import OpenStarry.Compaction.Fitting
import OpenStarry.Compaction.Pairs
import OpenStarry.Compaction.RoundBoundaries
import OpenStarry.Cron.Clock
import OpenStarry.Cron.DueChecks
import OpenStarry.Cron.Grammar
import OpenStarry.Cron.GrammarContract
import OpenStarry.Cron.Jobs
import OpenStarry.Cron.LeapDays
import OpenStarry.Cron.Names
import OpenStarry.Cron.OneShot
import OpenStarry.Cron.Ownership
import OpenStarry.Cron.Parser
import OpenStarry.Cron.Store
import OpenStarry.Debounce.Coordinator
import OpenStarry.Debounce.Delivery
import OpenStarry.Debounce.Invariant
import OpenStarry.EditFile.Contract
import OpenStarry.EditFile.LineContract
import OpenStarry.EditFile.LineEdits
import OpenStarry.EditFile.Replacements
import OpenStarry.Elevation.Action
import OpenStarry.Elevation.Gate
import OpenStarry.Elevation.Grants
import OpenStarry.Gateway.OriginGuard
import OpenStarry.History.Answers
import OpenStarry.History.Limit
import OpenStarry.History.Pairing
import OpenStarry.History.Reload
import OpenStarry.History.Repair
import OpenStarry.History.RoundTrip
import OpenStarry.History.SilentReply
import OpenStarry.History.WellPaired
import OpenStarry.Lib.Calendar
import OpenStarry.Lib.Crash
import OpenStarry.Lib.Cut
import OpenStarry.Lib.Decimal
import OpenStarry.Lib.Dict
import OpenStarry.Lib.FileSystem
import OpenStarry.Lib.InFlight
import OpenStarry.Lib.Inodes
import OpenStarry.Lib.Json
import OpenStarry.Lib.JsonLex
import OpenStarry.Lib.JsonParse
import OpenStarry.Lib.JsonRoundTrip
import OpenStarry.Lib.Keyed
import OpenStarry.Lib.LinePieces
import OpenStarry.Lib.MostSpecific
import OpenStarry.Lib.Outcome
import OpenStarry.Lib.Padded
import OpenStarry.Lib.PyValue
import OpenStarry.Lib.Recency
import OpenStarry.Lib.Scan
import OpenStarry.Lib.Shlex
import OpenStarry.Lib.SortKeys
import OpenStarry.Lib.SortedSize
import OpenStarry.Lib.Splice
import OpenStarry.Lib.Substring
import OpenStarry.Lib.Table
import OpenStarry.Lib.Text
import OpenStarry.Lib.TransitionSystem
import OpenStarry.Lib.Url
import OpenStarry.MemorySync.ChunkBudget
import OpenStarry.MemorySync.ChunkText
import OpenStarry.MemorySync.Convergence
import OpenStarry.MemorySync.Manager
import OpenStarry.MemorySync.Runs
import OpenStarry.MemorySync.SessionDelta
import OpenStarry.MemorySync.Tracking
import OpenStarry.MetaSkill.Accepted
import OpenStarry.MetaSkill.Brackets
import OpenStarry.MetaSkill.Completion
import OpenStarry.MetaSkill.Dispatch
import OpenStarry.MetaSkill.Plan
import OpenStarry.MetaSkill.ReplaySafety
import OpenStarry.MetaSkill.Resolution
import OpenStarry.MetaSkill.Scheduler
import OpenStarry.MetaSkill.SchedulerInvariant
import OpenStarry.MetaSkill.SchedulerMoves
import OpenStarry.MetaSkill.SchedulerRules
import OpenStarry.MetaSkill.Settling
import OpenStarry.Patch.Apply
import OpenStarry.Patch.Classification
import OpenStarry.Patch.Frame
import OpenStarry.Patch.Parser
import OpenStarry.Patch.Refinement
import OpenStarry.Patch.Render
import OpenStarry.Patch.Update
import OpenStarry.PlanSerde.Composition
import OpenStarry.PlanSerde.Parsed
import OpenStarry.PlanSerde.Parser
import OpenStarry.PlanSerde.RoundTrip
import OpenStarry.PlanSerde.Serde
import OpenStarry.Plans.History
import OpenStarry.Plans.Overlay
import OpenStarry.Plans.Runs
import OpenStarry.Plans.Steps
import OpenStarry.Provider.ChainRewrites
import OpenStarry.Provider.Credentials
import OpenStarry.Provider.Selector
import OpenStarry.Provider.SelectorRuns
import OpenStarry.Recovery.ConfigPatch
import OpenStarry.Recovery.DotenvValues
import OpenStarry.Recovery.Errors
import OpenStarry.Recovery.PatchCrashes
import OpenStarry.Repetition.Chunks
import OpenStarry.Repetition.Guard
import OpenStarry.Repetition.ProgressWatchdog
import OpenStarry.Replay.Projection
import OpenStarry.Replay.References
import OpenStarry.Replay.Sizes
import OpenStarry.RequestProof.Conversation
import OpenStarry.RequestProof.Finite
import OpenStarry.RequestProof.Positions
import OpenStarry.RequestProof.Projection
import OpenStarry.RequestProof.Prove
import OpenStarry.RequestProof.Shorten
import OpenStarry.RequestProof.Skeleton
import OpenStarry.RequestProof.Sound
import OpenStarry.RequestProof.Tiers
import OpenStarry.RequestProof.ToolResults
import OpenStarry.Routing.EndState
import OpenStarry.Routing.Engine
import OpenStarry.Routing.Health
import OpenStarry.Routing.Stages
import OpenStarry.Routing.Tiers
import OpenStarry.Sandbox.CommandPolicy
import OpenStarry.Sandbox.CompoundCommands
import OpenStarry.Sandbox.FetchGuard
import OpenStarry.Sandbox.LaxerPolicies
import OpenStarry.Sandbox.Literals
import OpenStarry.Sandbox.MetadataHosts
import OpenStarry.Sandbox.Network
import OpenStarry.Sandbox.NetworkRules
import OpenStarry.Sandbox.OneShotGrants
import OpenStarry.Sandbox.PermissionRules
import OpenStarry.Sandbox.Permissions
import OpenStarry.Sandbox.PlainSpelling
import OpenStarry.Sandbox.ProtectedMetadata
import OpenStarry.Sandbox.PublicDns
import OpenStarry.Sandbox.SessionContext
import OpenStarry.Sandbox.Spelling
import OpenStarry.Sandbox.SystemTools
import OpenStarry.Sandbox.UrlSpelling
import OpenStarry.Sandbox.Wrappers
import OpenStarry.Session.CanonicalKeys
import OpenStarry.Session.Conversations
import OpenStarry.Session.Keys
import OpenStarry.Steering.Custody
import OpenStarry.Steering.GoalAuthority
import OpenStarry.Steering.GoalUpdates
import OpenStarry.Steering.Provider
import OpenStarry.Stream.Client
import OpenStarry.Stream.Live
import OpenStarry.Stream.Registry
import OpenStarry.Stream.Replay
import OpenStarry.TextTools.Candidates
import OpenStarry.TextTools.CodeRanges
import OpenStarry.TextTools.Dsml
import OpenStarry.TextTools.Envelope
import OpenStarry.TextTools.Truncation
import OpenStarry.ToolArguments.SchemaValidation
import OpenStarry.ToolResults.Reading
import OpenStarry.ToolResults.Records
import OpenStarry.ToolResults.Recovery
import OpenStarry.ToolResults.Retrieval
import OpenStarry.ToolResults.Runs
import OpenStarry.ToolResults.Store
import OpenStarry.ToolStream.Accumulator
import OpenStarry.ToolStream.Calls
import OpenStarry.ToolStream.Protocol
import OpenStarry.Usage.Closing
import OpenStarry.Usage.Ledger
import OpenStarry.Usage.Receipts
import OpenStarry.Usage.Streams
import OpenStarry.Usage.Totals
import OpenStarry.UserInput.Answers
import OpenStarry.UserInput.Broker
