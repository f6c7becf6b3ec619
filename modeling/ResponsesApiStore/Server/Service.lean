import ResponsesApiStore.Server.Convert

/-!
# The service

The procedure behind each RPC. `serve` is the program a server runs for a request; its result
is a response, or a `RpcFault`: a status, a panic of the handler, or a loop out of fuel.
-/

namespace ResponsesApiStore

open Json (Value Serde)
open Interaction (Program)

variable {N : Type}

/-! ### Messages -/

structure ClaimBackgroundJobsRequest where
  consumerGroup : String
  consumerName : String
  count : UInt32
  blockMs : UInt32
  autoclaimMinIdleMs : UInt32
  deriving DecidableEq

/-- The requests. -/
inductive Request
  | storeResponse (record : Option ProtoStoredResponse) (ttlSeconds : UInt64)
  | getResponse (responseId : String) (reconcileStale : Bool)
  | updateResponse (record : Option ProtoStoredResponse) (ttlSeconds : UInt64)
  | deleteResponse (responseId : String)
  | enqueueBackgroundJob (record : Option ProtoStoredResponse)
  | claimBackgroundJobs (request : ClaimBackgroundJobsRequest)
  | acknowledgeBackgroundJob (streamId consumerGroup : String)
  | ensureConsumerGroup (consumerGroup startId : String)
  | getBackgroundQueueStats (consumerGroup : String)
  | claimBackgroundResponse (responseId : String)
  | completeBackgroundResponse (responseId responseJson : String)
  | failBackgroundResponse (responseId errorMessage : String)
  | reconcileStaleResponse (responseId : String) (staleSeconds : Int64)
  | health
  deriving DecidableEq

/-- The responses. -/
inductive Response
  | stored
  | got (record : ProtoStoredResponse)
  | updated
  | deleted
  | enqueued
  | claimedJobs (jobs : List ProtoBackgroundJob) (pendingStreamIds : List String)
      (pendingJobs : List PendingBackgroundJob)
  | acknowledged
  | ensured (created : Bool)
  | queueStats (stats : BackgroundQueueStats)
  | claimed (record : ProtoStoredResponse) (upstream pendingUpstreamRequestJson : String)
      (upstreamAuthorization : Option String)
  | completed (record : ProtoStoredResponse)
  | failed (record : ProtoStoredResponse)
  | reconciled (record : ProtoStoredResponse) (reconciled : Bool)
  | healthy (redisOk : Bool) (version redisVersion : String) (lagSupported : Bool)
  deriving DecidableEq

/-- How a request can end other than with a response. -/
inductive RpcFault
  | status (status : Status)
  | panic (message : String)
  | outOfFuel
  deriving DecidableEq

/-- A procedure of the service. -/
abbrev Rpc (α : Type) : Type := ExceptT RpcFault (Program sig) α

/-- `map_store_error`, a panic passing through. -/
def mapStoreError : Fault → RpcFault
  | .error err => .status (storeErrorToStatus err)
  | .panic message => .panic message
  | .outOfFuel => .outOfFuel

variable {α : Type}

/-- Run a procedure of the store, its errors becoming statuses. -/
def rpc (p : Act α) : Rpc α := ExceptT.mk (p.run >>= fun r => pure (r.mapError mapStoreError))

/-- A pure computation that may fail with a status. -/
def ofStatus (x : Except Status α) : Rpc α := ExceptT.mk (pure (x.mapError .status))

def reject (code : Code) (message : String) : Rpc α := throw (.status ⟨code, message⟩)

section Follows

open Interaction.Program

variable {G : Type} {P : Interaction.Protocol sig G} {g : G}

@[simp]
theorem follows_rpc {p : Act α} {post : G → Except RpcFault α → Prop} :
    (rpc p).run.Follows P post g ↔
      p.run.Follows P (fun g r => post g (r.mapError mapStoreError)) g := by
  simp only [rpc, ExceptT.run_mk, follows_bind_iff, follows_pure]

@[simp]
theorem follows_ofStatus {x : Except Status α} {post : G → Except RpcFault α → Prop} :
    (ofStatus x).run.Follows P post g ↔ post g (x.mapError .status) := Iff.rfl

@[simp]
theorem follows_reject {code : Code} {message : String} {post : G → Except RpcFault α → Prop} :
    (reject code message : Rpc α).run.Follows P post g ↔
      post g (.error (.status ⟨code, message⟩)) := Iff.rfl

@[simp]
theorem follows_answer {a : α} {post : G → Except RpcFault α → Prop} :
    (pure a : Rpc α).run.Follows P post g ↔ post g (.ok a) := Iff.rfl

theorem safe_rpc {p : Act α} (hp : Safe P p.run) : Safe P (rpc p).run := fun g =>
  follows_rpc.mpr (hp g)

end Follows

theorem ensures_rpc {State : Type} {ans : State → (c : Cmd) → State → c.Reply → Prop} {s : State}
    {p : Act α} {post : State → Except RpcFault α → Prop} :
    (rpc p).run.Ensures ans post s ↔
      p.run.Ensures ans (fun s r => post s (r.mapError mapStoreError)) s := by
  simp only [rpc, ExceptT.run_mk, Program.ensures_bind_iff, Program.ensures_pure]

theorem returns_rpc {es : List sig.Exchange} {p : Act α} {x : Except RpcFault α} :
    (rpc p).run.Returns es x ↔ ∃ r, p.run.Returns es r ∧ x = r.mapError mapStoreError := by
  simp only [rpc, ExceptT.run_mk, Program.returns_bind_iff, Program.returns_pure]
  constructor
  · rintro ⟨es₁, _, r, rfl, h, rfl, rfl⟩
    exact ⟨r, by rwa [List.append_nil], rfl⟩
  · rintro ⟨r, h, rfl⟩
    exact ⟨es, [], r, (List.append_nil es).symm, h, rfl, rfl⟩

/-! ### Handlers -/

variable (cfg : StoreConfig) (S : Serde N)

def maxClaimCount : ℕ := 100

def ttlFromRequest (ttlSeconds : UInt64) : Option UInt64 :=
  if ttlSeconds = 0 then none else some ttlSeconds

def requireRecord (record : Option ProtoStoredResponse) : Except Status ProtoStoredResponse :=
  match record.filter fun record => !record.responseId.isEmpty with
  | some record => .ok record
  | none => .error ⟨.invalidArgument, "record.response_id is required"⟩

def storeResponse (record : Option ProtoStoredResponse) (ttlSeconds : UInt64) : Rpc Response := do
  let record ← ofStatus (requireRecord record)
  let core ← ofStatus (protoToCore S record)
  rpc (ResponseStore.store cfg S record.responseId core (ttlFromRequest ttlSeconds))
  return .stored

def getResponse (responseId : String) (reconcileStale : Bool) : Rpc Response := do
  if responseId.isEmpty then reject .invalidArgument "response_id is required"
  else
    let record ← rpc (ResponseStore.get cfg S responseId reconcileStale)
    let record ← ofStatus (coreToProto S responseId record)
    return .got record

def updateResponse (record : Option ProtoStoredResponse) (ttlSeconds : UInt64) :
    Rpc Response := do
  let record ← ofStatus (requireRecord record)
  let core ← ofStatus (protoToCore S record)
  rpc (ResponseStore.update cfg S record.responseId core (ttlFromRequest ttlSeconds))
  return .updated

/-- What `delete_response` does for an id: an in-flight job is replaced by a tombstone,
anything else, an unreadable record or a failed read included, is removed. -/
def deleteOrTombstone (responseId : String) : Act Unit := do
  match ← outcome (ResponseStore.get cfg S responseId false) with
  | .ok stored =>
    if isInFlightBackground stored then
      ResponseStore.tombstoneDeletedBackground cfg S responseId stored
    else ResponseStore.delete cfg responseId
  | .error (.error _) => ResponseStore.delete cfg responseId
  | .error fault => throw fault

def deleteResponse (responseId : String) : Rpc Response := do
  if responseId.isEmpty then reject .invalidArgument "response_id is required"
  else
    rpc (deleteOrTombstone cfg S responseId)
    return .deleted

def enqueueBackgroundJob (record : Option ProtoStoredResponse) : Rpc Response := do
  let record ← ofStatus (requireRecord record)
  let core ← ofStatus (protoToCore S record)
  let now ← rpc (ask .now)
  let core := { core with enqueuedAt := some now }
  rpc (ResponseStore.store cfg S record.responseId core none)
  rpc (BackgroundQueue.enqueue cfg record.responseId)
  return .enqueued

def claimBackgroundJobs (request : ClaimBackgroundJobsRequest) : Rpc Response := do
  if request.consumerGroup.isEmpty || request.consumerName.isEmpty then
    reject .invalidArgument "consumer_group and consumer_name are required"
  else
    let count := min (max request.count.toNat 1) maxClaimCount
    let cursor ← rpc (BackgroundQueue.getAutoclaimCursor cfg request.consumerGroup)
    let (batch, cursor) ← rpc (BackgroundQueue.claimJobs cfg S
      ⟨request.consumerGroup, request.consumerName, count, request.blockMs.toNat,
        request.autoclaimMinIdleMs.toNat⟩ cursor)
    let _ ← rpc (outcome (BackgroundQueue.setAutoclaimCursor cfg request.consumerGroup cursor))
    let jobs ← ofStatus (batch.jobs.mapM (coreJobToProto S))
    return .claimedJobs jobs batch.pendingStreamIds batch.pendingJobs

def acknowledgeBackgroundJob (streamId consumerGroup : String) : Rpc Response := do
  if streamId.isEmpty || consumerGroup.isEmpty then
    reject .invalidArgument "stream_id and consumer_group are required"
  else
    rpc (BackgroundQueue.acknowledge consumerGroup streamId)
    return .acknowledged

def ensureConsumerGroup (consumerGroup startId : String) : Rpc Response := do
  if consumerGroup.isEmpty then reject .invalidArgument "consumer_group is required"
  else
    let startId := if startId.isEmpty then "0-0" else startId
    let created ← rpc (BackgroundQueue.ensureConsumerGroup consumerGroup startId)
    return .ensured created

def getBackgroundQueueStats (fuel : ℕ) (consumerGroup : String) : Rpc Response := do
  if consumerGroup.isEmpty then reject .invalidArgument "consumer_group is required"
  else
    let stats ← rpc (BackgroundQueue.stats cfg fuel consumerGroup)
    return .queueStats stats

def claimBackgroundResponse (responseId : String) : Rpc Response := do
  if responseId.isEmpty then reject .invalidArgument "response_id is required"
  else
    let (record, payload) ← rpc (ResponseStore.claimBackgroundResponse cfg S responseId)
    let pendingUpstreamRequestJson ← ofStatus
      (printJson S "pending_upstream_request" responseId payload.pendingUpstreamRequest)
    let record ← ofStatus (coreToProto S responseId record)
    return .claimed record payload.upstream pendingUpstreamRequestJson
      payload.upstreamAuthorization

def completeBackgroundResponse (responseId responseJson : String) : Rpc Response := do
  if responseId.isEmpty then reject .invalidArgument "response_id is required"
  else if responseJson.isEmpty then reject .invalidArgument "response_json is required"
  else
    let completedResponse ← ofStatus (readJson S "response_json" responseId responseJson)
    if !completedResponse.isObject then
      reject .invalidArgument ("response_json for " ++ responseId ++ " must be a JSON object")
    else
      let record ← rpc
        (ResponseStore.completeBackgroundResponse cfg S responseId completedResponse)
      let record ← ofStatus (coreToProto S responseId record)
      return .completed record

def failBackgroundResponse (responseId errorMessage : String) : Rpc Response := do
  if responseId.isEmpty then reject .invalidArgument "response_id is required"
  else if errorMessage.isEmpty then reject .invalidArgument "error_message is required"
  else
    let record ← rpc (ResponseStore.failBackgroundResponse cfg S responseId errorMessage)
    let record ← ofStatus (coreToProto S responseId record)
    return .failed record

/-- The threshold of a reconcile request: the one asked for if positive, else the server's. -/
def staleSecondsOf (staleSeconds : Int64) : Int64 :=
  if 0 < staleSeconds then staleSeconds else cfg.staleSeconds

def reconcileStaleResponse [DecidableEq N] (responseId : String) (staleSeconds : Int64) :
    Rpc Response := do
  if responseId.isEmpty then reject .invalidArgument "response_id is required"
  else
    let existing ← rpc (ResponseStore.get cfg S responseId false)
    let updated ← rpc (ResponseStore.reconcileStaleResponse cfg S responseId existing
      (staleSecondsOf cfg staleSeconds))
    let record ← ofStatus (coreToProto S responseId updated)
    return .reconciled record (existing ≠ updated)

def serviceVersion : String := "0.1.0"

def health : Rpc Response := do
  match ← rpc (outcome (storage (send .ping))) with
  | .error _ => return .healthy false serviceVersion "" false
  | .ok _ =>
    match ← rpc (outcome (storage (send .capabilities))) with
    | .ok info => return .healthy true serviceVersion info.version info.lagSupported
    | .error _ => return .healthy true serviceVersion "" false

/-- The procedure of each request. -/
def handle [DecidableEq N] (fuel : ℕ) : Request → Rpc Response
  | .storeResponse record ttlSeconds => storeResponse cfg S record ttlSeconds
  | .getResponse responseId reconcileStale => getResponse cfg S responseId reconcileStale
  | .updateResponse record ttlSeconds => updateResponse cfg S record ttlSeconds
  | .deleteResponse responseId => deleteResponse cfg S responseId
  | .enqueueBackgroundJob record => enqueueBackgroundJob cfg S record
  | .claimBackgroundJobs request => claimBackgroundJobs cfg S request
  | .acknowledgeBackgroundJob streamId consumerGroup =>
    acknowledgeBackgroundJob streamId consumerGroup
  | .ensureConsumerGroup consumerGroup startId => ensureConsumerGroup consumerGroup startId
  | .getBackgroundQueueStats consumerGroup => getBackgroundQueueStats cfg fuel consumerGroup
  | .claimBackgroundResponse responseId => claimBackgroundResponse cfg S responseId
  | .completeBackgroundResponse responseId responseJson =>
    completeBackgroundResponse cfg S responseId responseJson
  | .failBackgroundResponse responseId errorMessage =>
    failBackgroundResponse cfg S responseId errorMessage
  | .reconcileStaleResponse responseId staleSeconds =>
    reconcileStaleResponse cfg S responseId staleSeconds
  | .health => health

/-- The result of a request. -/
abbrev RpcResult : Type := Except RpcFault Response

/-- The program a server runs for a request. -/
def serve [DecidableEq N] (fuel : ℕ) (request : Request) : Program sig RpcResult :=
  (handle cfg S fuel request).run

end ResponsesApiStore
