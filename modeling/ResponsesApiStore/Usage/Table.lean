import ResponsesApiStore.System.Deployment

/-!
# The table of records

What the record half of the service is for, without connections, sessions, mutexes and retries:
a table of texts with a time to live, and for each request one function on the table, which
happens at a single moment. `perform` is the function of a request. It is not translated from
the source; that the service computes it is proved in `Usage/Uninterrupted.lean` for a request
that nobody interferes with, and in `Usage/Atomicity.lean` for the moment at which a request
takes effect among others.
-/

namespace ResponsesApiStore

open Json (Value Serde)
open Redis (Entry)
open Redis.Keyspace (ValidTtl)

/-- What Redis keeps at each key. -/
abbrev Table : Type := String → Option Entry

/-- The table in the shared state. -/
def tableOf (σ : Shared) : Table := σ.db.strings

/-- A fallible function on the table. -/
abbrev OnTable (ε α : Type) : Type := ExceptT ε (StateM Table) α

namespace Table

variable {N α : Type}

/-! ### Single accesses -/

/-- The text at a key. -/
def read (key : String) : OnTable Fault (Option String) :=
  ExceptT.mk fun table => (.ok ((table key).map Entry.text), table)

/-- Put an entry at a key, or remove what is there. -/
def put (key : String) (e : Option Entry) : OnTable Fault Unit :=
  ExceptT.mk fun table => (.ok (), Function.update table key e)

/-- Put a text at a key, for a time that Redis accepts. -/
def setEx (key : String) (ttl : UInt64) (text : String) : OnTable Fault Unit :=
  if ValidTtl ttl then put key (some ⟨text, some ttl.toNat⟩)
  else throw (storageFault Redis.invalidExpireTime)

/-- Replace the text at a key for the time it has left, at least a second. -/
def rewrite (key text : String) : OnTable Fault Unit :=
  ExceptT.mk fun table =>
    (.ok (), Function.update table key ((table key).map fun e => ⟨text, e.ttl.map (max 1)⟩))

/-- A computation beside the table. -/
def of (x : Except Fault α) : OnTable Fault α := ExceptT.mk (pure x)

section Run

variable {ε β : Type} {p : OnTable ε α} {f : α → OnTable ε β} {table table' : Table}

theorem run_bind_of_ok {a : α} (h : p.run.run table = (.ok a, table')) :
    (p >>= f).run.run table = (f a).run.run table' := by
  rw [ExceptT.run_bind, StateT.run_bind, h]
  rfl

theorem run_bind_of_error {e : ε} (h : p.run.run table = (.error e, table')) :
    (p >>= f).run.run table = (.error e, table') := by
  rw [ExceptT.run_bind, StateT.run_bind, h]
  rfl

theorem run_map {m : α → β} {a : α} (h : p.run.run table = (.ok a, table')) :
    (m <$> p).run.run table = (.ok (m a), table') := by
  rw [ExceptT.run_map, StateT.run_map, h]
  rfl

theorem run_read (key : String) (table : Table) :
    (read key).run.run table = (.ok ((table key).map Entry.text), table) := rfl

theorem run_rewrite {key text : String} {e : Entry} (he : table key = some e) :
    (rewrite key text).run.run table =
      (.ok (), Function.update table key (some ⟨text, e.ttl.map (max 1)⟩)) := by
  show (_, Function.update table key ((table key).map _)) = _
  rw [he]
  rfl

end Run

/-! ### Records -/

variable (cfg : StoreConfig) (S : Serde N)

/-- Store a record under an id. -/
def store (responseId : String) (record : StoredResponse N) (ttlSeconds : Option UInt64) :
    OnTable Fault Unit :=
  let ttl := ttlSeconds.getD cfg.ttlSeconds
  if ttl = 0 then throw (.error (.invalidArgument "ttl_seconds must be greater than 0"))
  else do
    let text ← of (ResponseStore.encode S record)
    setEx (ResponseStore.key cfg responseId) ttl text

/-- The record under an id, if there is one. -/
def load (responseId : String) : OnTable Fault (Option (StoredResponse N)) := do
  match ← read (ResponseStore.key cfg responseId) with
  | none => return none
  | some text =>
    let stored ← of (ResponseStore.decode S text)
    return some stored

/-- The record under an id; one that was deleted is not found. -/
def find (responseId : String) : OnTable Fault (StoredResponse N) := do
  match ← load cfg S responseId with
  | none => throw (.error (.notFound responseId))
  | some stored =>
    if isDeletedTombstone stored then throw (.error (.notFound responseId)) else return stored

/-- Replace a record that is there. -/
def update (responseId : String) (record : StoredResponse N) (ttlSeconds : Option UInt64) :
    OnTable Fault Unit := do
  let _ ← find cfg S responseId
  store cfg S responseId record ttlSeconds

/-- Remove a record; one whose job is in flight leaves a tombstone. -/
def delete (responseId : String) : OnTable Fault Unit := do
  match ← (ExceptT.lift (find cfg S responseId).run : OnTable Fault _) with
  | .ok stored =>
    if isInFlightBackground stored then
      store cfg S responseId (tombstoneOf stored responseId) none
    else put (ResponseStore.key cfg responseId) none
  | .error (.error _) => put (ResponseStore.key cfg responseId) none
  | .error fault => throw fault

/-- What `prepare` makes of a text: the record, its text, and the result. -/
def decided {T : Type} (responseId : String)
    (prepare : StoredResponse N → String → Except Fault (StoredResponse N × T)) (text : String) :
    Except Fault (StoredResponse N × String × T) := do
  let stored ← ResponseStore.decode S text
  let (updated, result) ← prepare stored responseId
  let payload ← ResponseStore.encode S updated
  return (updated, payload, result)

/-- Replace a record by what `prepare` makes of it, for the time it has left. -/
def transition {T : Type} (responseId : String)
    (prepare : StoredResponse N → String → Except Fault (StoredResponse N × T)) :
    OnTable Fault (StoredResponse N × T) := do
  match ← read (ResponseStore.key cfg responseId) with
  | none => throw (.error (.notFound responseId))
  | some text =>
    let (updated, payload, result) ← of (decided S responseId prepare text)
    rewrite (ResponseStore.key cfg responseId) payload
    return (updated, result)

section Transition

variable {cfg : StoreConfig} {S : Serde N} {T : Type} {id : String}
  {prepare : StoredResponse N → String → Except Fault (StoredResponse N × T)} {table : Table}

theorem run_transition_absent (hentry : table (ResponseStore.key cfg id) = none) :
    (transition cfg S id prepare).run.run table = (.error (.error (.notFound id)), table) := by
  rw [transition, run_bind_of_ok (run_read _ table), hentry]
  rfl

theorem run_transition_refused {e : Entry} {fault : Fault}
    (hentry : table (ResponseStore.key cfg id) = some e)
    (hdecided : decided S id prepare e.text = .error fault) :
    (transition cfg S id prepare).run.run table = (.error fault, table) := by
  rw [transition, run_bind_of_ok (run_read _ table), hentry]
  exact run_bind_of_error (show (of _).run.run table = (.error fault, table) by rw [hdecided]; rfl)

theorem run_transition_taken {e : Entry} {updated : StoredResponse N} {payload : String}
    {result : T} (hentry : table (ResponseStore.key cfg id) = some e)
    (hdecided : decided S id prepare e.text = .ok (updated, payload, result)) :
    (transition cfg S id prepare).run.run table = (.ok (updated, result),
      Function.update table (ResponseStore.key cfg id)
        (some ⟨payload, e.ttl.map (max 1)⟩)) := by
  rw [transition, run_bind_of_ok (run_read _ table), hentry]
  refine (run_bind_of_ok (show (of _).run.run table = (.ok (updated, payload, result), table) by
    rw [hdecided]; rfl)).trans ?_
  exact run_bind_of_ok (run_rewrite hentry)

theorem run_store_ok {record : StoredResponse N} {ttlSeconds : Option UInt64} {payload : String}
    (hzero : ttlSeconds.getD cfg.ttlSeconds ≠ 0)
    (hencode : ResponseStore.encode S record = .ok payload)
    (hvalid : ValidTtl (ttlSeconds.getD cfg.ttlSeconds)) (table : Table) :
    (store cfg S id record ttlSeconds).run.run table =
      (.ok (), Function.update table (ResponseStore.key cfg id)
        (some ⟨payload, some (ttlSeconds.getD cfg.ttlSeconds).toNat⟩)) := by
  rw [store, if_neg hzero]
  have hpayload : (of (ResponseStore.encode S record)).run.run table = (.ok payload, table) := by
    rw [hencode]
    rfl
  rw [run_bind_of_ok hpayload, setEx, if_pos hvalid]
  rfl

theorem run_load_absent (hentry : table (ResponseStore.key cfg id) = none) :
    (load cfg S id).run.run table = (.ok none, table) := by
  rw [load, run_bind_of_ok (run_read _ table), hentry]
  rfl

theorem run_load_present {e : Entry} (hentry : table (ResponseStore.key cfg id) = some e) :
    (load cfg S id).run.run table = ((ResponseStore.decode S e.text).map some, table) := by
  rw [load, run_bind_of_ok (run_read _ table), hentry]
  dsimp only [Option.map]
  cases ResponseStore.decode S e.text <;> rfl

/-- A record that is loaded is the one that the text at its key stands for. -/
theorem run_load_ok {stored : StoredResponse N} {table' : Table}
    (h : (load cfg S id).run.run table = (.ok (some stored), table')) :
    table' = table ∧ ∃ e, table (ResponseStore.key cfg id) = some e ∧
      StoredResponse.ofText S e.text = .ok stored := by
  rcases hentry : table (ResponseStore.key cfg id) with _ | e
  · rw [run_load_absent hentry] at h
    cases h
  · rw [run_load_present hentry, ResponseStore.decode] at h
    obtain ⟨hstored, rfl⟩ := Prod.mk.inj h
    cases htext : StoredResponse.ofText S e.text with
    | error message =>
      rw [htext] at hstored
      cases hstored
    | ok found =>
      rw [htext] at hstored
      obtain rfl := Option.some.inj (Except.ok.inj hstored)
      exact ⟨rfl, e, rfl, htext⟩

theorem run_find_present {e : Entry} {stored : StoredResponse N}
    (hentry : table (ResponseStore.key cfg id) = some e)
    (hstored : StoredResponse.ofText S e.text = .ok stored)
    (hlive : isDeletedTombstone stored = false) :
    (find cfg S id).run.run table = (.ok stored, table) := by
  have hload := run_load_present (S := S) hentry
  rw [ResponseStore.decode, hstored] at hload
  rw [find, run_bind_of_ok hload]
  dsimp only
  rw [if_neg (by simp [hlive])]
  rfl

/-- A record that is found is loaded. -/
theorem run_find_ok {stored : StoredResponse N} {table' : Table}
    (h : (find cfg S id).run.run table = (.ok stored, table')) :
    (load cfg S id).run.run table = (.ok (some stored), table') := by
  rcases hload : (load cfg S id).run.run table with ⟨fault | found?, table₁⟩
  · rw [find, run_bind_of_error hload] at h
    cases h
  rw [find, run_bind_of_ok hload] at h
  cases found? with
  | none => cases h
  | some found =>
    dsimp only at h
    split_ifs at h
    · cases h
    · obtain ⟨hfound, rfl⟩ := Prod.mk.inj h
      obtain rfl := Except.ok.inj hfound
      rfl

end Transition

/-- Fail a job that has been waiting for too long. -/
def reconcile (responseId : String) (stored : StoredResponse N) (now staleSeconds : Int64) :
    OnTable Fault (StoredResponse N) :=
  if shouldReconcileStale stored && isStaleEnqueued stored.enqueuedAt now staleSeconds then do
    let updated := applyStaleFailure stored responseId
    let text ← of (ResponseStore.encode S updated)
    rewrite (ResponseStore.key cfg responseId) text
    return updated
  else return stored

/-- The record under an id, after a reconcile if one is asked for. -/
def get (responseId : String) (now : Int64) (reconcileStale : Bool) :
    OnTable Fault (StoredResponse N) := do
  let stored ← find cfg S responseId
  if reconcileStale then reconcile cfg S responseId stored now cfg.staleSeconds
  else return stored

/-! ### Requests -/

/-- The errors of the store as statuses. -/
def answer (p : OnTable Fault α) : OnTable RpcFault α :=
  ExceptT.mk (p.run >>= fun r => pure (r.mapError mapStoreError))

theorem run_answer {p : OnTable Fault α} {a : α} {table table' : Table}
    (h : p.run.run table = (.ok a, table')) : (answer p).run.run table = (.ok a, table') := by
  show ((p.run.run table).1.mapError mapStoreError, (p.run.run table).2) = _
  rw [h]
  rfl

theorem run_of_answer {p : OnTable Fault α} {a : α} {table table' : Table}
    (h : (answer p).run.run table = (.ok a, table')) : p.run.run table = (.ok a, table') := by
  rcases hp : p.run.run table with ⟨r, table₁⟩
  have heq : (answer p).run.run table = (r.mapError mapStoreError, table₁) := by
    show ((p.run.run table).1.mapError mapStoreError, (p.run.run table).2) = _
    rw [hp]
  obtain ⟨hr, rfl⟩ := Prod.mk.inj (heq.symm.trans h)
  rw [mapError_eq_ok_iff.mp hr]

/-- A computation of the service beside the table. -/
def ofStatus (x : Except Status α) : OnTable RpcFault α := ExceptT.mk (pure (x.mapError .status))

theorem run_ofStatus {x : Except Status α} {a : α} (h : x = .ok a) (table : Table) :
    (ofStatus x).run.run table = (.ok a, table) := by
  rw [h]
  rfl

def reject (message : String) : OnTable RpcFault α := throw (.status ⟨.invalidArgument, message⟩)

variable [DecidableEq N]

/-- **The function of a request** that is about a record, at time `now`. -/
def perform (now : Int64) : Request → Option (OnTable RpcFault Response)
  | .storeResponse record ttlSeconds => some do
    let record ← ofStatus (requireRecord record)
    let core ← ofStatus (protoToCore S record)
    answer (store cfg S record.responseId core (ttlFromRequest ttlSeconds))
    return .stored
  | .updateResponse record ttlSeconds => some do
    let record ← ofStatus (requireRecord record)
    let core ← ofStatus (protoToCore S record)
    answer (update cfg S record.responseId core (ttlFromRequest ttlSeconds))
    return .updated
  | .getResponse responseId reconcileStale => some <|
    if responseId.isEmpty then reject "response_id is required"
    else do
      let record ← answer (get cfg S responseId now reconcileStale)
      let record ← ofStatus (coreToProto S responseId record)
      return .got record
  | .deleteResponse responseId => some <|
    if responseId.isEmpty then reject "response_id is required"
    else do
      answer (delete cfg S responseId)
      return .deleted
  | .claimBackgroundResponse responseId => some <|
    if responseId.isEmpty then reject "response_id is required"
    else do
      let (record, payload) ← answer (transition cfg S responseId prepareClaimBackground)
      let pendingUpstreamRequestJson ← ofStatus
        (printJson S "pending_upstream_request" responseId payload.pendingUpstreamRequest)
      let record ← ofStatus (coreToProto S responseId record)
      return .claimed record payload.upstream pendingUpstreamRequestJson
        payload.upstreamAuthorization
  | .completeBackgroundResponse responseId responseJson => some <|
    if responseId.isEmpty then reject "response_id is required"
    else if responseJson.isEmpty then reject "response_json is required"
    else do
      let completedResponse ← ofStatus (readJson S "response_json" responseId responseJson)
      if !completedResponse.isObject then
        reject ("response_json for " ++ responseId ++ " must be a JSON object")
      else
        let record ← answer
          (Prod.fst <$> transition cfg S responseId (prepareCompleteBackground completedResponse))
        let record ← ofStatus (coreToProto S responseId record)
        return .completed record
  | .failBackgroundResponse responseId errorMessage => some <|
    if responseId.isEmpty then reject "response_id is required"
    else if errorMessage.isEmpty then reject "error_message is required"
    else do
      let record ← answer
        (Prod.fst <$> transition cfg S responseId (prepareFailBackground errorMessage))
      let record ← ofStatus (coreToProto S responseId record)
      return .failed record
  | .reconcileStaleResponse responseId staleSeconds => some <|
    if responseId.isEmpty then reject "response_id is required"
    else do
      let existing ← answer (find cfg S responseId)
      let updated ← answer
        (reconcile cfg S responseId existing now (staleSecondsOf cfg staleSeconds))
      let record ← ofStatus (coreToProto S responseId updated)
      return .reconciled record (existing ≠ updated)
  | _ => none

end Table

end ResponsesApiStore
