import ResponsesApiStore.Client.Convert
import ResponsesApiStore.Codec.Outcome
import ResponsesApiStore.Core.Command
import ResponsesApiStore.Core.Cursor
import ResponsesApiStore.Core.Error
import ResponsesApiStore.Core.Lifecycle
import ResponsesApiStore.Core.Model
import ResponsesApiStore.Core.Nesting
import ResponsesApiStore.Core.Queue
import ResponsesApiStore.Core.Store
import ResponsesApiStore.Guarantees.Batches
import ResponsesApiStore.Guarantees.Cancellation
import ResponsesApiStore.Guarantees.Codecs
import ResponsesApiStore.Guarantees.Conflicts
import ResponsesApiStore.Guarantees.Cursor
import ResponsesApiStore.Guarantees.CursorMaximum
import ResponsesApiStore.Guarantees.Deletes
import ResponsesApiStore.Guarantees.Enqueue
import ResponsesApiStore.Guarantees.Frame
import ResponsesApiStore.Guarantees.Groups
import ResponsesApiStore.Guarantees.Handover
import ResponsesApiStore.Guarantees.Keys
import ResponsesApiStore.Guarantees.Labels
import ResponsesApiStore.Guarantees.Lifecycle
import ResponsesApiStore.Guarantees.Lifetimes
import ResponsesApiStore.Guarantees.Nesting
import ResponsesApiStore.Guarantees.Paging
import ResponsesApiStore.Guarantees.Panics
import ResponsesApiStore.Guarantees.Payloads
import ResponsesApiStore.Guarantees.Queue
import ResponsesApiStore.Guarantees.Ranges
import ResponsesApiStore.Guarantees.Reads
import ResponsesApiStore.Guarantees.Reconciled
import ResponsesApiStore.Guarantees.Repetition
import ResponsesApiStore.Guarantees.Statistics
import ResponsesApiStore.Guarantees.Transactions
import ResponsesApiStore.Guarantees.Updates
import ResponsesApiStore.Guarantees.Wedges
import ResponsesApiStore.Interaction.Draining
import ResponsesApiStore.Interaction.Ensures
import ResponsesApiStore.Interaction.Exchanges
import ResponsesApiStore.Interaction.Machine
import ResponsesApiStore.Interaction.Program
import ResponsesApiStore.Interaction.Transcript
import ResponsesApiStore.Json.Depth
import ResponsesApiStore.Json.Serde
import ResponsesApiStore.Json.Tree
import ResponsesApiStore.Redis.Autoclaim
import ResponsesApiStore.Redis.Backlog
import ResponsesApiStore.Redis.Delivery
import ResponsesApiStore.Redis.Redelivery
import ResponsesApiStore.Redis.Stream
import ResponsesApiStore.Redis.StreamId
import ResponsesApiStore.Redis.Sweep
import ResponsesApiStore.Redis.Transaction
import ResponsesApiStore.Server.Convert
import ResponsesApiStore.Server.Metrics
import ResponsesApiStore.Server.Permits
import ResponsesApiStore.Server.Service
import ResponsesApiStore.System.Clients
import ResponsesApiStore.System.Conformance
import ResponsesApiStore.System.Cursors
import ResponsesApiStore.System.Deployment
import ResponsesApiStore.System.Discipline
import ResponsesApiStore.System.Events
import ResponsesApiStore.System.Execution
import ResponsesApiStore.System.Jobs
import ResponsesApiStore.System.Lifetimes
import ResponsesApiStore.System.Locking
import ResponsesApiStore.System.Records
import ResponsesApiStore.System.Requests
import ResponsesApiStore.System.Statistics
import ResponsesApiStore.Transcripts.Errors
import ResponsesApiStore.Transcripts.Implements
import ResponsesApiStore.Transcripts.Locality
import ResponsesApiStore.Usage.Answers
import ResponsesApiStore.Usage.Atomicity
import ResponsesApiStore.Usage.Contract
import ResponsesApiStore.Usage.Deliveries
import ResponsesApiStore.Usage.Evidence
import ResponsesApiStore.Usage.Histories
import ResponsesApiStore.Usage.Progress
import ResponsesApiStore.Usage.Publications
import ResponsesApiStore.Usage.Table
import ResponsesApiStore.Usage.Turns
import ResponsesApiStore.Usage.Uninterrupted
