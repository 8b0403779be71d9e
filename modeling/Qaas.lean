import Qaas.Concurrency.Run
import Qaas.Concurrency.Tally
import Qaas.Concurrency.Pool
import Qaas.Concurrency.Notify
import Qaas.Wal.Durability
import Qaas.Queue.Survival
import Qaas.Group.Conservation
import Qaas.Group.Promise
import Qaas.Group.Crash
import Qaas.Group.KeyUse
import Qaas.Group.Restart
import Qaas.Group.Cancellation
import Qaas.Group.LeaseTokens
import Qaas.Group.Copies
import Qaas.Group.Protection
import Qaas.Group.KeyOwner
import Qaas.Group.Exclusive
import Qaas.Group.Wakeups
import Qaas.Group.ClaimWakeups
import Qaas.Concurrency.Supply
import Qaas.Queue.Shared
import Qaas.Queue.Wakeups
import Qaas.Group.StreamWakeups
import Qaas.Concurrency.Cursor
import Qaas.Group.Polling
import Qaas.Group.Checkpoints
import Qaas.Group.Resumption
import Qaas.Wal.Garbage
import Qaas.Wal.Sessions
import Qaas.Concurrency.Backlog
import Qaas.Concurrency.History
import Qaas.DeadLetter.Calls
import Qaas.DeadLetter.LogOrder
import Qaas.Auth.Lifecycle
import Qaas.Admission.Costs
import Qaas.Admission.Reconfigured
import Qaas.Semantic
import Qaas.Admission.Quota
import Qaas.Server.Names
import Qaas.Server.Calls
import Qaas.Server.Registry
import Qaas.Server.Tools
import Qaas.Server.Moves
import Qaas.Server.Isolation
import Qaas.Server.Opening
import Qaas.Server.Load
import Qaas.Server.Pending
import Qaas.Server.Enqueue
import Qaas.Server.OneQueue
import Qaas.Server.Charges
import Qaas.Server.Dedup
import Qaas.Admission.Requests
import Qaas.Admission.Twin
import Qaas.Circuit.Breaker
import Qaas.Circuit.Trials
import Qaas.Audit.Accounts
import Qaas.Raft.StateMachine
import Qaas.Raft.Snapshots
import Qaas.Raft.Builders
import Qaas.Serde.Shape
import Qaas.Types.Envelope
import Qaas.Ordered.Earliest
import Qaas.Queue.Priority
import Qaas.Queue.Sequential
import Qaas.Queue.Recovery
import Qaas.Queue.Stable
import Qaas.Retry.Backoff
import Qaas.Admission.Hints
import Qaas.Server.Labels
import Qaas.Circuit.History
import Qaas.Ordered.SortedMap
import Qaas.Raft.LogStore
import Qaas.Raft.Membership
import Qaas.Group.Length
import Qaas.Group.PendingAge
import Qaas.Group.Redelivery
import Qaas.Group.Failures
import Qaas.Group.Budget
import Qaas.Ordered.Histories
import Qaas.Serde.Variants
import Qaas.Wal.Reading
import Qaas.Group.Decoding
import Qaas.Group.OpenedKeys
import Qaas.Auth.Decoding
import Qaas.Validation
import Qaas.Serde.Writing
import Qaas.Group.Encoding
import Qaas.Wal.Payloads
import Qaas.Concurrency.Simulation
import Qaas.Group.Files
import Qaas.Server.HttpAuth
import Qaas.Server.Authority
import Qaas.Server.Answers
import Qaas.Server.Findings
import Qaas.Concurrency.Renaming
import Qaas.Group.Renaming
import Qaas.Server.Stages
import Qaas.Server.Projection
import Qaas.Group.Authentic
import Qaas.Server.Authentic
import Qaas.Concurrency.Reach
import Qaas.Group.Deliverable
import Qaas.Group.Progress
import Qaas.Server.Ranks
import Qaas.Server.Progress
import Qaas.Circuit.Fallback
import Qaas.Concurrency.Fair
import Qaas.Server.Fairness
