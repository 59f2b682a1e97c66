import CallPool.Backoff
import CallPool.Options
import CallPool.Decimal.Reading
import CallPool.Text.Blank
import CallPool.Client.Builder
import CallPool.Script.Building
import CallPool.Script.PoolRun
import CallPool.Script.Session
import CallPool.Message.Policy
import CallPool.Message.Request
import CallPool.Message.Response
import CallPool.Connection.Run
import CallPool.Pool.Run
import CallPool.Proofs.Client.Answers
import CallPool.Proofs.Client.Polling
import CallPool.Proofs.Connection.Coherence
import CallPool.Proofs.Connection.WaiterSteps
import CallPool.Proofs.Connection.Account
import CallPool.Proofs.Connection.Silence
import CallPool.Proofs.Connection.Distinctness
import CallPool.Proofs.Connection.FirstReply
import CallPool.Proofs.Connection.Dispatch
import CallPool.Proofs.Connection.Advance
import CallPool.Proofs.Connection.PartyLives
import CallPool.Proofs.Connection.Promptness
import CallPool.Proofs.Connection.Progress
import CallPool.Proofs.Connection.Queue
import CallPool.Proofs.Connection.Notices
import CallPool.Proofs.Connection.Liveness
import CallPool.Proofs.Connection.Lifecycle
import CallPool.Proofs.Connection.Writes
import CallPool.Proofs.Connection.WriteFailures
import CallPool.Proofs.CorrelationId.Distinct
import CallPool.Proofs.Connection.Replies
import CallPool.Proofs.Connection.Loss
import CallPool.Proofs.Pool.Bookkeeping
import CallPool.Proofs.Pool.Choice
import CallPool.Proofs.Pool.Projection
import CallPool.Proofs.Pool.Relays
import CallPool.Proofs.Pool.Delivery
import CallPool.Proofs.Pool.Frames
import CallPool.Proofs.Pool.Work
import CallPool.Proofs.Pool.Callers
import CallPool.Proofs.Pool.Boundary
import CallPool.Proofs.Pool.Ledger
import CallPool.Proofs.Pool.Installation
import CallPool.Proofs.Pool.LedgerRun
import CallPool.Proofs.Pool.Watching
import CallPool.Proofs.Pool.Healing
import CallPool.Proofs.Pool.RetryBudget
import CallPool.Proofs.Pool.Housing
import CallPool.Proofs.Pool.Tokens
import CallPool.Proofs.Pool.Ownership
import CallPool.Proofs.Pool.Entries
import CallPool.Proofs.Pool.Closing
import CallPool.Proofs.Pool.Routing
import CallPool.Proofs.Pool.Turns
import CallPool.Proofs.Pool.Arrival
import CallPool.Proofs.Pool.Rounds
import CallPool.Proofs.Pool.RoundLife
import CallPool.Proofs.Pool.Enrolling
import CallPool.Proofs.Pool.UntouchedSlots
import CallPool.Proofs.Pool.ConnectionRounds
import CallPool.Proofs.Connection.Heartbeat
import CallPool.Proofs.Client.Echo
import CallPool.Proofs.Message.Grammar
import CallPool.Proofs.Pool.Shedding
import CallPool.Proofs.Pool.Reports
import CallPool.Proofs.Pool.Timetable
import CallPool.Proofs.Pool.Perseverance
import CallPool.Proofs.Pool.Causes
import CallPool.Proofs.Pool.Abandoned
import CallPool.Proofs.Pool.RetrySchedule
import CallPool.Proofs.Backoff
import CallPool.Proofs.Connection.Atomicity
import CallPool.Proofs.Connection.Isolation
import CallPool.Proofs.Connection.HandlerTable
import CallPool.Proofs.Connection.GeneratedIds
import CallPool.Proofs.Client.Building
import CallPool.Proofs.Message.MemberOrder
import CallPool.Proofs.Message.Decoding
