import ResponsesApiStore.Server.Service

/-!
# The metrics endpoint

The HTTP handlers beside the RPCs. Both read the statistics of the queue for a consumer group
of the query: one answers with the numbers, the other with the Prometheus text exposition, where
the name of the group is the value of a label and is escaped.
-/

namespace ResponsesApiStore

open Interaction (Program)

/-! ### Errors -/

/-- The HTTP statuses of the error answers. -/
inductive StatusCode
  | badRequest
  | notFound
  | conflict
  | internalServerError
  | serviceUnavailable
  deriving DecidableEq, Repr

structure StatsQueryError where
  status : StatusCode
  message : String
  deriving DecidableEq, Repr

def StatsQueryError.fromStore : StoreError → StatsQueryError
  | .notFound message => ⟨.notFound, message⟩
  | .invalidArgument message => ⟨.badRequest, message⟩
  | .unavailable message => ⟨.serviceUnavailable, message⟩
  | .storage err => ⟨.serviceUnavailable, "storage unavailable: " ++ err.message⟩
  | .serialization message => ⟨.internalServerError, message⟩
  | .failedPrecondition message => ⟨.conflict, message⟩

/-- How an HTTP request can end other than with an answer. -/
inductive HttpFault
  | error (err : StatsQueryError)
  | panic (message : String)
  | outOfFuel
  deriving DecidableEq

/-- A handler. -/
abbrev Http (α : Type) : Type := ExceptT HttpFault (Program sig) α

def HttpFault.ofFault : Fault → HttpFault
  | .error err => .error (.fromStore err)
  | .panic message => .panic message
  | .outOfFuel => .outOfFuel

/-! ### Handlers -/

variable (cfg : StoreConfig)

def statsForQuery (fuel : ℕ) (consumerGroup : Option String) :
    Http (String × BackgroundQueueStats) :=
  let required : Http (String × BackgroundQueueStats) :=
    throw (.error ⟨.badRequest, "consumer_group query parameter is required"⟩)
  match consumerGroup with
  | some group =>
    if group.isEmpty then required
    else
      ExceptT.mk ((BackgroundQueue.stats cfg fuel group).run >>= fun r =>
        pure ((r.map (group, ·)).mapError .ofFault))
  | none => required

structure StatsResponse where
  consumerGroup : String
  pending : UInt64
  inProgress : UInt64
  workload : UInt64
  deriving DecidableEq

def backgroundQueueJson (fuel : ℕ) (consumerGroup : Option String) : Http StatsResponse := do
  let (group, stats) ← statsForQuery cfg fuel consumerGroup
  return ⟨group, stats.pending, stats.inProgress, stats.workload⟩

/-- `str::replace` of a character by a text. -/
def replaceChar (c : Char) (text value : String) : String :=
  String.ofList (value.toList.flatMap fun x => if x = c then text.toList else [x])

def escapePrometheusLabelValue (value : String) : String :=
  replaceChar '"' "\\\"" (replaceChar '\n' "\\n" (replaceChar '\\' "\\\\" value))

/-- The line of a sample, from the name of the metric to its value. -/
def sampleLine (metric escapedGroup : String) (value : UInt64) : String :=
  metric ++ "\x7bconsumer_group=\"" ++ escapedGroup ++ "\"\x7d " ++ value.toNat.repr

/-- The lines of the exposition. -/
def prometheusLines (escapedGroup : String) (stats : BackgroundQueueStats) : List String :=
  ["# HELP responses_api_store_background_queue_workload Background queue workload for autoscaling",
    "# TYPE responses_api_store_background_queue_workload gauge",
    sampleLine "responses_api_store_background_queue_workload" escapedGroup stats.workload,
    "# HELP responses_api_store_background_queue_pending Jobs waiting to be claimed",
    "# TYPE responses_api_store_background_queue_pending gauge",
    sampleLine "responses_api_store_background_queue_pending" escapedGroup stats.pending,
    "# HELP responses_api_store_background_queue_in_progress Jobs claimed but not yet acknowledged",
    "# TYPE responses_api_store_background_queue_in_progress gauge",
    sampleLine "responses_api_store_background_queue_in_progress" escapedGroup stats.inProgress]

/-- The body of the exposition: every line ends with a newline. -/
def prometheusBody (consumerGroup : String) (stats : BackgroundQueueStats) : String :=
  String.join ((prometheusLines (escapePrometheusLabelValue consumerGroup) stats).map (· ++ "\n"))

def backgroundQueuePrometheus (fuel : ℕ) (consumerGroup : Option String) : Http String := do
  let (group, stats) ← statsForQuery cfg fuel consumerGroup
  return prometheusBody group stats

end ResponsesApiStore
