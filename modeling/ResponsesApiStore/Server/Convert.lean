import ResponsesApiStore.Core.Queue

/-!
# Records on the wire

The protobuf record, its conversions to and from the stored record, and the mapping of store
errors to gRPC statuses. A JSON member travels as text, so both conversions may fail: reading
a client's text is the client's error, printing a stored value an internal one.
-/

namespace ResponsesApiStore

open Json (Value Serde)

variable {N : Type}

/-- The status codes the server answers with. -/
inductive Code
  | invalidArgument
  | notFound
  | failedPrecondition
  | unavailable
  | internal
  deriving DecidableEq, Repr

structure Status where
  code : Code
  message : String
  deriving DecidableEq, Repr

/-- The protobuf message `StoredResponse`. -/
structure ProtoStoredResponse where
  responseId : String
  upstream : String
  responseJson : String
  inputJson : List String
  pendingUpstreamRequestJson : Option String
  upstreamAuthorization : Option String
  enqueuedAt : Option Int64
  deriving DecidableEq

/-- The protobuf message `BackgroundJob`. -/
structure ProtoBackgroundJob where
  streamId : String
  responseId : String
  record : ProtoStoredResponse
  autoclaimed : Bool
  idleMs : Option ℕ
  deriving DecidableEq

variable (S : Serde N)

/-- Read a JSON text of a request. -/
def readJson (what responseId text : String) : Except Status (Value N) :=
  (S.valueFromStr text).mapError fun e =>
    ⟨.invalidArgument, "invalid " ++ what ++ " for " ++ responseId ++ ": " ++ e⟩

/-- Print a JSON value of a reply. -/
def printJson (what responseId : String) (v : Value N) : Except Status String :=
  (S.valueToString v).mapError fun e =>
    ⟨.internal, "failed to serialize " ++ what ++ " for " ++ responseId ++ ": " ++ e⟩

def protoToCore (record : ProtoStoredResponse) : Except Status (StoredResponse N) := do
  let response ← readJson S "response_json" record.responseId record.responseJson
  let input ← record.inputJson.mapM (readJson S "input_json entry" record.responseId)
  let pendingUpstreamRequest ← (record.pendingUpstreamRequestJson.filter fun value =>
    !value.isEmpty).mapM (readJson S "pending_upstream_request_json" record.responseId)
  return ⟨record.upstream, response, input, pendingUpstreamRequest,
    record.upstreamAuthorization, record.enqueuedAt⟩

def coreToProto (responseId : String) (record : StoredResponse N) :
    Except Status ProtoStoredResponse := do
  let responseJson ← printJson S "response" responseId record.response
  let inputJson ← record.input.mapM (printJson S "input" responseId)
  let pendingUpstreamRequestJson ← record.pendingUpstreamRequest.mapM
    (printJson S "pending_upstream_request" responseId)
  return ⟨responseId, record.upstream, responseJson, inputJson, pendingUpstreamRequestJson,
    record.upstreamAuthorization, record.enqueuedAt⟩

def coreJobToProto (job : BackgroundJob N) : Except Status ProtoBackgroundJob := do
  let record ← coreToProto S job.responseId job.record
  return ⟨job.streamId, job.responseId, record, job.autoclaimed, job.idleMs⟩

def storeErrorToStatus : StoreError → Status
  | .notFound id =>
    if containsText id "consumer group" then ⟨.notFound, id⟩
    else ⟨.notFound, "response not found: " ++ id⟩
  | .invalidArgument message => ⟨.invalidArgument, message⟩
  | .failedPrecondition message => ⟨.failedPrecondition, message⟩
  | .unavailable message => ⟨.unavailable, message⟩
  | .storage err =>
    ⟨.unavailable, "storage unavailable (" ++ redisErrorKind err ++ "): " ++ err.message⟩
  | .serialization message => ⟨.internal, message⟩

end ResponsesApiStore
