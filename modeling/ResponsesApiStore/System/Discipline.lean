import ResponsesApiStore.Server.Service

/-!
# The discipline of a request

What the program of a request may do, as a `Protocol`. The ghost state, `Knowledge`, is
computed from the exchanges of the program alone: the clock reading it has, the key it read
last and what it found, how far its transaction has come, the text its transaction replaced,
whether a write of its own was acknowledged, and the stream entries handed to it.

`Allowed` states, command by command, the reasons a program must have:

* a `SETEX` queued under `MULTI` carries the outcome of the request's own transition on the
  text that was read under the watch (`Transition`);
* a write on the shared connection is the record of the client's request, or the tombstone of
  the in-flight record a delete has read (`Writes`);
* a `DEL` is issued by a delete that has read nothing it must keep;
* an entry is acknowledged because the request names it, or because its record was found
  missing or unreadable after the entry was delivered (`Acknowledges`);
* entries are taken by a claim, for the group it names;
* a job is published by an enqueue whose record has been stored.

That every program of the service keeps the discipline, whatever it is answered, is proved in
`System/Conformance.lean`. The concurrent layer uses nothing else about the programs.
-/

namespace ResponsesApiStore

open Json (Value Serde)
open Redis (Error TxCmd StreamCmd EntryReply)
open Interaction (Program Protocol)

variable {N : Type}

/-! ### Knowledge -/

/-- How far the transaction of a program has come: nothing held, the mutex held, a key
watched, the key read under the watch, `MULTI` open, the write queued. -/
inductive Phase
  | idle
  | held
  | watching (key : String)
  | guarding
  | opened
  | queued (ttl : UInt64) (payload : String)
  deriving DecidableEq

/-- What a program knows from the replies it got. -/
structure Knowledge where
  now : Option Int64
  seen : Option (String × Option String)
  ttl : Option ℤ
  phase : Phase
  committed : Option String
  wrote : Bool
  delivered : List EntryReply

namespace Knowledge

/-- Nothing is known yet. -/
def init : Knowledge := ⟨none, none, none, .idle, none, false, []⟩

/-- A read of `key` came back: remember what it found, or that it failed. -/
def sawAt (g : Knowledge) (key : String) (reply : Except Error (Option String)) : Knowledge :=
  { g with seen := reply.toOption.map fun text => (key, text) }

/-- The phase after a reply, which any error throws back to `held`. -/
def advance {α : Type} (g : Knowledge) (phase : Phase) (reply : Except Error α) : Knowledge :=
  { g with phase := match reply with
    | .ok _ => phase
    | .error _ => .held }

/-- The text read last. -/
def text (g : Knowledge) : Option String := g.seen.bind Prod.snd

/-- Knowledge after a reply on the transaction connection. -/
def afterTx (g : Knowledge) : (c : TxCmd) → c.Reply → Knowledge
  | .discard, _ => { g with phase := .held }
  | .watch key, reply => g.advance (.watching key) reply
  | .get key, reply => (g.sawAt key reply).advance .guarding reply
  | .ttl _, reply => { g.advance .guarding reply with ttl := reply.toOption }
  | .unwatch, _ => { g with phase := .held }
  | .multi, reply => g.advance .opened reply
  | .setEx _ ttl payload, reply => g.advance (.queued ttl payload) reply
  | .exec, reply => match reply with
    | .ok (some _) => { g with phase := .held, committed := g.text }
    | _ => { g with phase := .held }

/-- Entries were handed to the program; what it read before says nothing about them. -/
def handed (g : Knowledge) (entries : List EntryReply) : Knowledge :=
  { g with delivered := g.delivered ++ entries, seen := none }

/-- Knowledge after a reply about the stream. -/
def afterStream (g : Knowledge) : (c : StreamCmd) → c.Reply → Knowledge
  | .xreadgroup .., reply => match reply with
    | .ok (some entries) => g.handed entries
    | _ => g
  | .xautoclaim .., reply => match reply with
    | .ok reply => g.handed reply.claimed
    | .error _ => g
  | _, _ => g

/-- Knowledge after any reply. -/
def after (g : Knowledge) : (c : Cmd) → c.Reply → Knowledge
  | .get key, reply => g.sawAt key reply
  | .setEx .., reply | .del _, reply => match reply with
    | .ok _ => { g with wrote := true }
    | .error _ => g
  | .tx c, reply => g.afterTx c reply
  | .lock, _ | .install, _ => { g with phase := .held }
  | .unlock, _ => { g with phase := .idle }
  | .now, t => { g with now := some t }
  | .stream c, reply => g.afterStream c reply
  | _, _ => g

end Knowledge

/-! ### Reasons -/

section Reasons

variable (cfg : StoreConfig) (S : Serde N)

/-- The id and the threshold of a request that reconciles a stale response. -/
def reconciles : Request → Option (String × Int64)
  | .getResponse id true => some (id, cfg.staleSeconds)
  | .reconcileStaleResponse id staleSeconds => some (id, staleSecondsOf cfg staleSeconds)
  | _ => none

/-- **Guarded transitions.** `Transition request now key v payload`: the transition of the
request, which has read the clock as `now`, takes the text `v` at `key` to `payload`. -/
inductive Transition : Request → Option Int64 → String → String → String → Prop
  | claim {id v payload : String} {now : Option Int64} {stored updated : StoredResponse N}
      {result : ClaimBackgroundPayload N} (hv : StoredResponse.ofText S v = .ok stored)
      (hprepare : prepareClaimBackground stored id = .ok (updated, result))
      (hpayload : updated.toText S = .ok payload) :
      Transition (.claimBackgroundResponse id) now (ResponseStore.key cfg id) v payload
  | complete {id json v payload : String} {now : Option Int64} {completed : Value N}
      {stored updated : StoredResponse N}
      (hjson : readJson S "response_json" id json = .ok completed)
      (hv : StoredResponse.ofText S v = .ok stored)
      (hprepare : prepareCompleteBackground completed stored id = .ok (updated, ()))
      (hpayload : updated.toText S = .ok payload) :
      Transition (.completeBackgroundResponse id json) now (ResponseStore.key cfg id) v payload
  | fail {id message v payload : String} {now : Option Int64}
      {stored updated : StoredResponse N} (hv : StoredResponse.ofText S v = .ok stored)
      (hprepare : prepareFailBackground message stored id = .ok (updated, ()))
      (hpayload : updated.toText S = .ok payload) :
      Transition (.failBackgroundResponse id message) now (ResponseStore.key cfg id) v payload
  | stale {request : Request} {id v payload : String} {now staleSeconds : Int64}
      {stored : StoredResponse N} (hrequest : reconciles cfg request = some (id, staleSeconds))
      (hv : StoredResponse.ofText S v = .ok stored)
      (hqueued : shouldReconcileStale stored = true)
      (hstale : isStaleEnqueued stored.enqueuedAt now staleSeconds = true)
      (hpayload : (applyStaleFailure stored id).toText S = .ok payload) :
      Transition request (some now) (ResponseStore.key cfg id) v payload

/-- The last read found a readable record at the key of `id`. -/
def Knowledge.Found (g : Knowledge) (id : String) (stored : StoredResponse N) : Prop :=
  ∃ text, g.seen = some (ResponseStore.key cfg id, some text) ∧
    StoredResponse.ofText S text = .ok stored

/-- **Writes of a client.** `ClientWrite request now key record`: the request, which has read
the clock as `now`, asks for `record` to be stored at `key`. -/
inductive ClientWrite : Request → Option Int64 → String → StoredResponse N → Prop
  | store {record : Option ProtoStoredResponse} {p : ProtoStoredResponse} {ttl : UInt64}
      {now : Option Int64} {core : StoredResponse N} (hrecord : requireRecord record = .ok p)
      (hcore : protoToCore S p = .ok core) :
      ClientWrite (.storeResponse record ttl) now (ResponseStore.key cfg p.responseId) core
  | update {record : Option ProtoStoredResponse} {p : ProtoStoredResponse} {ttl : UInt64}
      {now : Option Int64} {core : StoredResponse N} (hrecord : requireRecord record = .ok p)
      (hcore : protoToCore S p = .ok core) :
      ClientWrite (.updateResponse record ttl) now (ResponseStore.key cfg p.responseId) core
  | enqueue {record : Option ProtoStoredResponse} {p : ProtoStoredResponse} {now : Int64}
      {core : StoredResponse N} (hrecord : requireRecord record = .ok p)
      (hcore : protoToCore S p = .ok core) :
      ClientWrite (.enqueueBackgroundJob record) (some now) (ResponseStore.key cfg p.responseId)
        { core with enqueuedAt := some now }

/-- The record that a write on the shared connection may store: the client's, for an update
only after a live record was found, or the tombstone of the in-flight record found. -/
inductive Writes (g : Knowledge) : Request → String → StoredResponse N → Prop
  | client {request : Request} {key : String} {record : StoredResponse N}
      (hwrite : ClientWrite cfg S request g.now key record)
      (hfound : ∀ record ttl p, request = .updateResponse record ttl →
        requireRecord record = .ok p →
        ∃ existing, g.Found cfg S p.responseId existing ∧ isDeletedTombstone existing = false) :
      Writes g request key record
  | tombstone {id : String} {stored : StoredResponse N} (hfound : g.Found cfg S id stored)
      (hlive : isDeletedTombstone stored = false) (hflight : isInFlightBackground stored = true) :
      Writes g (.deleteResponse id) (ResponseStore.key cfg id) (tombstoneOf stored id)

/-- Why an entry may be acknowledged: the request names it; or it was delivered to the request
and its record was found missing or unreadable afterwards. -/
inductive Acknowledges (g : Knowledge) : Request → String → String → Prop
  | named {streamId group : String} :
      Acknowledges g (.acknowledgeBackgroundJob streamId group) group streamId
  | dropped {request : ClaimBackgroundJobsRequest} {entry : EntryReply} {id : String}
      {text : Option String} (hentry : entry ∈ g.delivered)
      (hid : BackgroundQueue.entryField entry "response_id" = some id)
      (hseen : g.seen = some (ResponseStore.key cfg id, text))
      (hlost : ∀ t stored, text = some t → StoredResponse.ofText S t ≠ .ok stored) :
      Acknowledges g (.claimBackgroundJobs request) request.consumerGroup entry.id

/-- A request that reconciles reads the key once, goes on only from a record that is no
tombstone, and from then on has read the clock. -/
def Screened (request : Request) (g : Knowledge) (c : Cmd) : Prop :=
  ∀ id staleSeconds, reconciles cfg request = some (id, staleSeconds) → g.now = none →
    (c = .get (ResponseStore.key cfg id) ∧ g.seen = none) ∨
    (c = .now ∧ ∃ stored : StoredResponse N, g.Found cfg S id stored ∧
      isDeletedTombstone stored = false)

/-- What may be sent on the transaction connection. -/
def AllowedTx (request : Request) (g : Knowledge) : TxCmd → Prop
  | .discard => g.phase = .held
  | .watch _ => g.phase = .held
  | .get key => g.phase = .watching key
  | .ttl _ => g.phase = .guarding
  | .unwatch => g.phase ≠ .idle
  | .multi => g.phase = .guarding
  | .setEx key _ payload => g.phase = .opened ∧
      ∃ v, g.seen = some (key, some v) ∧ Transition cfg S request g.now key v payload
  | .exec => ∃ ttl payload, g.phase = .queued ttl payload

/-- What may be sent about the stream. -/
def AllowedStream (request : Request) (g : Knowledge) : StreamCmd → Prop
  | .xadd maxlen fields => ∃ record p, request = .enqueueBackgroundJob record ∧
      requireRecord record = .ok p ∧ g.wrote = true ∧ fields = [("response_id", p.responseId)] ∧
      maxlen = if 0 < cfg.streamMaxlen then some cfg.streamMaxlen else none
  | .xack group streamId => Acknowledges cfg S g request group streamId
  | .xautoclaim group _ _ _ _ | .xreadgroup group _ _ _ =>
    ∃ claim, request = .claimBackgroundJobs claim ∧ claim.consumerGroup = group
  | _ => True

/-- The commands a request may issue in a state of knowledge. -/
def Allowed (request : Request) (g : Knowledge) (c : Cmd) : Prop :=
  Screened cfg S request g c ∧ match c with
    | .get _ => g.phase = .idle
    | .setEx key _ payload => g.phase = .idle ∧
        ∃ record, StoredResponse.toText S record = .ok payload ∧
          Writes cfg S g request key record
    | .del key => g.phase = .idle ∧ ∃ id, request = .deleteResponse id ∧
        key = ResponseStore.key cfg id ∧ ∀ stored, g.Found cfg S id stored →
          isDeletedTombstone stored = true ∨ isInFlightBackground stored = false
    | .tx c => AllowedTx cfg S request g c
    | .lock | .connect | .now => g.phase = .idle
    | .install => g.phase = .held
    | .unlock => g.phase ≠ .idle
    | .stream c => g.phase = .idle ∧ AllowedStream cfg S request g c
    | _ => g.phase = .idle

/-- The discipline of a request. -/
def discipline (request : Request) : Protocol sig Knowledge where
  allowed := Allowed cfg S request
  next := Knowledge.after

/-- A record handed to a client: it is no tombstone, or it is what a reconcile found. -/
def Served (g : Knowledge) (id : String) (record : ProtoStoredResponse) : Prop :=
  ∃ stored : StoredResponse N, coreToProto S id stored = .ok record ∧
    (isDeletedTombstone stored = false ∨ (g.now.isSome ∧ g.Found cfg S id stored))

/-- What the answer to a request says about what its program has done. -/
def Answer (g : Knowledge) : Request → RpcResult → Prop
  | .updateResponse .., .ok _ | .deleteResponse _, .ok _ => g.wrote = true
  | .getResponse id reconcileStale, .ok response =>
    ∃ record, response = .got record ∧ Served cfg S g id record ∧
      (reconcileStale = false → g.now = none)
  | .reconcileStaleResponse id _, .ok response =>
    ∃ record flag, response = .reconciled record flag ∧ Served cfg S g id record
  | .claimBackgroundResponse id, .ok response =>
    ∃ (v : String) (stored updated : StoredResponse N) (payload : ClaimBackgroundPayload N)
      (record : ProtoStoredResponse) (json : String), g.committed = some v ∧
      StoredResponse.ofText S v = .ok stored ∧
      prepareClaimBackground stored id = .ok (updated, payload) ∧
      printJson S "pending_upstream_request" id payload.pendingUpstreamRequest = .ok json ∧
      response = .claimed record payload.upstream json payload.upstreamAuthorization
  | .claimBackgroundResponse _, .error (.status status)
  | .completeBackgroundResponse .., .error (.status status)
  | .failBackgroundResponse .., .error (.status status) =>
    status.code ≠ .internal → g.committed = none
  | _, _ => True

/-- A program that has returned holds nothing and gives a proper answer. -/
def Done (request : Request) (g : Knowledge) (result : RpcResult) : Prop :=
  g.phase = .idle ∧ Answer cfg S g request result

end Reasons

end ResponsesApiStore
