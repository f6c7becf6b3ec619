import ResponsesApiStore.Core.Command

/-!
# The response store

The procedures of `ResponseStore`. Reads and client writes are single commands on the shared
connection. A *guarded transition* (claim, complete, fail, and the stale reconcile) is an
optimistic transaction on the transaction connection: under the mutex, `WATCH` the key, read
it, decide on the record read (`prepare…`), read the remaining time to live, and write the new
record with `MULTI`/`SETEX`/`EXEC`. An `EXEC` that answers nil is retried, a storage error is
retried on a new connection, both up to `maxAttempts` attempts in all.

The mutex is held for one attempt. The source releases it when the guard goes out of scope;
here that is the command `unlock`, issued on every way out of an attempt, a panic included.
-/

namespace ResponsesApiStore

open Json (Value Serde)
open Redis (Error)
open Interaction (Program)
open Interaction.Program

variable {N : Type}

/-! ### Deciding a transition -/

/-- What a worker is given when it claims a response. -/
structure ClaimBackgroundPayload (N : Type) where
  upstream : String
  pendingUpstreamRequest : Value N
  upstreamAuthorization : Option String
  deriving DecidableEq

/-- An index assignment, which panics on a value that is neither an object nor `null`. -/
def assign (v : Value N) (key : String) (x : Value N) : Except Fault (Value N) :=
  (v.set key x).mapError Fault.panic

def prepareClaimBackground (stored : StoredResponse N) (responseId : String) :
    Except Fault (StoredResponse N × ClaimBackgroundPayload N) :=
  if isTerminalBackgroundStatus stored then
    .error (.error (.failedPrecondition ("response " ++ responseId ++ " is in a terminal state")))
  else if isInProgressBackground stored then
    .error (.error (.failedPrecondition ("response " ++ responseId ++ " is already in progress")))
  else if !isClaimableBackground stored then
    .error (.error (.failedPrecondition ("response " ++ responseId ++ " is not claimable")))
  else
    match stored.pendingUpstreamRequest with
    | none => .error (.panic "claimable response has pending upstream request")
    | some pendingUpstreamRequest => do
      let response ← assign stored.response "status" (.str "in_progress")
      let response ← assign response "id" (.str responseId)
      let response ← assign response "background" (.ofBool true)
      return ({ stored with response },
        ⟨stored.upstream, pendingUpstreamRequest, stored.upstreamAuthorization⟩)

def prepareCompleteBackground (completedResponse : Value N) (stored : StoredResponse N)
    (responseId : String) : Except Fault (StoredResponse N × Unit) :=
  if !completedResponse.isObject then
    .error (.error (.invalidArgument
      ("completed response for " ++ responseId ++ " must be a JSON object")))
  else if isTerminalBackgroundStatus stored then
    .error (.error (.failedPrecondition ("response " ++ responseId ++ " is in a terminal state")))
  else if !isInProgressBackground stored then
    .error (.error (.failedPrecondition ("response " ++ responseId ++ " is not in progress")))
  else do
    let response ← assign completedResponse "id" (.str responseId)
    let response ← assign response "status" (.str "completed")
    let response ← assign response "background" (.ofBool true)
    return ({ stored with
      response, pendingUpstreamRequest := none, upstreamAuthorization := none }, ())

/-- The response object of a failed job. -/
def failedResponse (responseId message : String) : Value N :=
  .ofFields [("id", .str responseId), ("object", .str "response"), ("status", .str "failed"),
    ("background", .ofBool true),
    ("error", .ofFields [("message", .str message), ("type", .str "server_error")])]

def prepareFailBackground (errorMessage : String) (stored : StoredResponse N)
    (responseId : String) : Except Fault (StoredResponse N × Unit) :=
  if isTerminalBackgroundStatus stored then
    .error (.error (.failedPrecondition ("response " ++ responseId ++ " is in a terminal state")))
  else if !isClaimableBackground stored && !isInProgressBackground stored then
    .error (.error (.failedPrecondition ("response " ++ responseId ++ " is not in progress")))
  else
    .ok ({ stored with
      response := failedResponse responseId errorMessage
      pendingUpstreamRequest := none
      upstreamAuthorization := none }, ())

def applyStaleFailure (stored : StoredResponse N) (responseId : String) : StoredResponse N :=
  { stored with
    response := failedResponse responseId "background response stale"
    pendingUpstreamRequest := none
    upstreamAuthorization := none }

/-- The record a deleted in-flight job leaves behind. -/
def tombstoneOf (stored : StoredResponse N) (responseId : String) : StoredResponse N :=
  { stored with
    response := .ofFields [("id", .str responseId), ("object", .str "response"),
      ("status", .str "deleted"), ("background", .ofBool true), ("deleted", .ofBool true)]
    pendingUpstreamRequest := none
    upstreamAuthorization := none }

/-- The response object with which a client cancels a response. -/
def buildCancelledResponse (stored : StoredResponse N) (responseId : String) :
    Except Fault (Value N) := do
  let response ← assign stored.response "id" (.str responseId)
  let response ← assign response "status" (.str "cancelled")
  assign response "background" (.ofBool true)

@[simp]
theorem storedResponseStatus_applyStaleFailure (stored : StoredResponse N) (id : String) :
    storedResponseStatus (applyStaleFailure stored id) = some "failed" := by
  simp [storedResponseStatus, applyStaleFailure, failedResponse, Value.get_ofFields,
    Value.asStr, Value.str]

@[simp]
theorem storedResponseStatus_tombstoneOf (stored : StoredResponse N) (id : String) :
    storedResponseStatus (tombstoneOf stored id) = some "deleted" := by
  simp [storedResponseStatus, tombstoneOf, Value.get_ofFields, Value.asStr, Value.str]

def reconcileWriteTtl (redisTtl : ℤ) (defaultTtlSeconds : UInt64) : UInt64 :=
  if redisTtl = 0 then 1
  else if redisTtl = -1 then defaultTtlSeconds
  else if 0 < redisTtl then UInt64.ofNat redisTtl.toNat
  else defaultTtlSeconds

/-! ### Reads and client writes -/

namespace ResponseStore

variable (cfg : StoreConfig) (S : Serde N)

def key (responseId : String) : String := responseStoreKey cfg.keyPrefix responseId

/-- `serde_json::to_string`, a failure becoming a serialization error. -/
def encode (record : StoredResponse N) : Except Fault String :=
  (record.toText S).mapError fun e => .error (.serialization e)

/-- `serde_json::from_str`, a failure becoming a serialization error. -/
def decode (text : String) : Except Fault (StoredResponse N) :=
  (StoredResponse.ofText S text).mapError fun e => .error (.serialization e)

def store (responseId : String) (response : StoredResponse N) (ttlSeconds : Option UInt64) :
    Act Unit :=
  let ttl := ttlSeconds.getD cfg.ttlSeconds
  if ttl = 0 then raise (.invalidArgument "ttl_seconds must be greater than 0")
  else do
    let payload ← ofExcept (encode S response)
    storage (send (.setEx (key cfg responseId) ttl payload))

def load (responseId : String) : Act (Option (StoredResponse N)) := do
  match ← storage (send (.get (key cfg responseId))) with
  | none => return none
  | some text => some <$> ofExcept (decode S text)

/-- What a load returns, from the reply it got. -/
def loadResult : Except Error (Option String) → Except Fault (Option (StoredResponse N))
  | .error err => .error (storageFault err)
  | .ok none => .ok none
  | .ok (some text) => (decode S text).map some

theorem returns_load {cfg : StoreConfig} {S : Serde N} {id : String} {es : List sig.Exchange}
    {x : Except Fault (Option (StoredResponse N))} (h : (load cfg S id).run.Returns es x) :
    ∃ reply, es = [⟨.get (key cfg id), reply⟩] ∧ x = loadResult S reply := by
  rw [load, returns_except_bind_iff] at h
  simp only [returns_storage] at h
  rcases h with ⟨es₁, es₂, text, rfl, ⟨reply, hreply, heq⟩, hrest⟩ | ⟨e, ⟨reply, hreply, heq⟩, rfl⟩
  · obtain rfl := returns_call.mp hreply
    obtain rfl : reply = .ok text := mapError_eq_ok_iff.mp heq.symm
    refine ⟨.ok text, ?_⟩
    cases text with
    | none =>
      obtain ⟨rfl, rfl⟩ := returns_return.mp hrest
      exact ⟨rfl, rfl⟩
    | some text =>
      have hmap : (some <$> ofExcept (decode S text) : Act _).run =
          .ret ((decode S text).map some) := by
        cases decode S text <;> rfl
      obtain ⟨rfl, rfl⟩ := returns_ret.mp (hmap ▸ hrest)
      exact ⟨rfl, rfl⟩
  · obtain rfl := returns_call.mp hreply
    rcases reply with err | text
    · obtain rfl := Except.error.inj heq
      exact ⟨_, rfl, rfl⟩
    · cases heq

def update (responseId : String) (response : StoredResponse N) (ttlSeconds : Option UInt64) :
    Act Unit := do
  match ← load cfg S responseId with
  | none => raise (.notFound responseId)
  | some existing =>
    if isDeletedTombstone existing then raise (.notFound responseId)
    else store cfg S responseId response ttlSeconds

def delete (responseId : String) : Act Unit :=
  storage (send (.del (key cfg responseId)))

def tombstoneDeletedBackground (responseId : String) (stored : StoredResponse N) : Act Unit :=
  store cfg S responseId (tombstoneOf stored responseId) none

/-! ### Guarded transitions -/

def maxAttempts : ℕ := 16

/-- Open a new transaction connection and put it in the place of the old one. -/
def resetTransactionConnection : Act Unit := do
  storage (send .connect)
  ask .lock
  ask .install
  ask .unlock

/-- Everything an attempt computes between the read and the write. -/
def transitionValues {T : Type} (key responseId raw : String)
    (prepare : StoredResponse N → String → Except Fault (StoredResponse N × T)) :
    Act (StoredResponse N × String × UInt64 × T) := do
  let stored ← ofExcept (decode S raw)
  let (updated, result) ← ofExcept (prepare stored responseId)
  let payload ← ofExcept (encode S updated)
  let ttl ← storage (send (.tx (.ttl key)))
  return (updated, payload, reconcileWriteTtl ttl cfg.ttlSeconds, result)

/-- Write under `MULTI`; whether the transaction went through. -/
def commit (key : String) (ttl : UInt64) (payload : String) : Act Bool := do
  storage (send (.tx .multi))
  storage (send (.tx (.setEx key ttl payload)))
  let execResult ← storage (send (.tx .exec))
  return execResult.isSome

def transitionAttempt {T : Type} (key responseId : String)
    (prepare : StoredResponse N → String → Except Fault (StoredResponse N × T)) :
    Act (Option (StoredResponse N × T)) := do
  storage (send (.tx (.watch key)))
  match ← storage (send (.tx (.get key))) with
  | none =>
    ignore (send (.tx .unwatch))
    raise (.notFound responseId)
  | some raw =>
    -- one block of the source: whatever fails in it, the watch is given up first
    match ← outcome (transitionValues cfg S key responseId raw prepare) with
    | .error (.error err) =>
      ignore (send (.tx .unwatch))
      raise err
    -- a panic or a lack of fuel is not caught by the source, so there is no `UNWATCH`
    | .error fault => throw fault
    | .ok (updated, payload, ttl, result) =>
      if ← commit key ttl payload then return some (updated, result) else return none

/-- One attempt under the mutex, after clearing what an earlier one may have left open. -/
def locked {α : Type} (attempt : Act α) : Act (Except Fault α) := do
  ask .lock
  -- whatever the reply: mostly there is nothing to discard, which is an error of the server
  ignore (send (.tx .discard))
  let attemptResult ← outcome attempt
  ask .unlock
  return attemptResult

/-- An attempt under the mutex. -/
theorem ensures_locked {State α : Type} {ans : State → (c : Cmd) → State → c.Reply → Prop}
    {s : State} {attempt : Act α} {post : State → Except Fault (Except Fault α) → Prop}
    (hlock : ∃ s' r, ans s .lock s' r)
    (h : ∀ s₁ r, ans s .lock s₁ r → (∃ s' r, ans s₁ (.tx .discard) s' r) ∧
      ∀ s₂ r, ans s₁ (.tx .discard) s₂ r → attempt.run.Ensures ans (fun s₃ x =>
        (∃ s' r, ans s₃ .unlock s' r) ∧ ∀ s₄ r, ans s₃ .unlock s₄ r → post s₄ (.ok x)) s₂) :
    (locked attempt).run.Ensures ans post s := by
  rw [locked, ensures_except_bind_iff]
  refine ensures_ask.mpr ⟨hlock, fun s₁ r hr => ?_⟩
  show (_ >>= _ : Act _).run.Ensures _ _ _
  rw [ensures_except_bind_iff, ensures_ignore]
  refine ⟨(h s₁ r hr).1, fun s₂ r₂ hr₂ => ?_⟩
  show (_ >>= _ : Act _).run.Ensures _ _ _
  rw [ensures_except_bind_iff, ensures_outcome]
  refine ((h s₁ r hr).2 s₂ r₂ hr₂).mono fun s₃ x hx => ?_
  show (_ >>= _ : Act _).run.Ensures _ _ _
  rw [ensures_except_bind_iff]
  exact ensures_ask.mpr hx

theorem returns_locked {α : Type} {attempt : Act α} {es : List sig.Exchange}
    {result : Except Fault α} (h : (locked attempt).run.Returns es (.ok result)) :
    ∃ es', attempt.run.Returns es' result := by
  obtain ⟨es₁, es, -, -, -, h⟩ := h.bind_ok
  obtain ⟨es₂, es, -, -, -, h⟩ := h.bind_ok
  obtain ⟨es₃, es, attempted, -, hattempt, h⟩ := h.bind_ok
  obtain ⟨es₄, es, -, -, -, h⟩ := h.bind_ok
  obtain rfl := Except.ok.inj (returns_return.mp h).2
  obtain ⟨r, hr, heq⟩ := returns_outcome.mp hattempt
  exact ⟨es₃, Except.ok.inj heq ▸ hr⟩

/-- One round of a retry loop: an attempt that lost the race goes on to `next`, one that met a
storage error does so on a new connection; the last round reports its own storage error. -/
def round {α : Type} (attempt : Act (Option α)) (left : ℕ) (next : Act α) : Act α := do
  match ← locked attempt with
  | .ok (some value) => return value
  -- `EXEC` was answered nil: the key was written since the `WATCH`
  | .ok none => next
  | .error (.error (.storage err)) =>
    resetTransactionConnection
    -- the source returns the error of the last attempt, after the reset
    if left = 0 then raise (.storage err) else next
  | .error fault => throw fault

/-- A round that succeeds: its attempt has, or the rest of the loop. -/
theorem returns_round {α : Type} {attempt : Act (Option α)} {left : ℕ} {next : Act α}
    {es : List sig.Exchange} {value : α}
    (h : (round attempt left next).run.Returns es (.ok value)) :
    ∃ es', attempt.run.Returns es' (.ok (some value)) ∨ next.run.Returns es' (.ok value) := by
  obtain ⟨es₁, es₂, result, -, hlocked, h⟩ := h.bind_ok
  obtain ⟨es', hattempt⟩ := returns_locked hlocked
  rcases result with fault | _ | value'
  · rcases fault with (_ | _ | _ | _ | err | _) | _ | _
    case error.storage =>
      obtain ⟨es₃, es₄, -, -, -, h⟩ := h.bind_ok
      split_ifs at h
      · cases (returns_throw.mp h).2
      · exact ⟨es₄, .inr h⟩
    all_goals cases (returns_throw.mp h).2
  · exact ⟨es₂, .inr h⟩
  · obtain rfl := Except.ok.inj (returns_return.mp h).2
    exact ⟨es', .inl hattempt⟩

/-- The attempts left, until one goes through. -/
def transitionAttempts {T : Type} (responseId : String)
    (prepare : StoredResponse N → String → Except Fault (StoredResponse N × T)) :
    ℕ → Act (StoredResponse N × T)
  | 0 => raise (.unavailable
      ("background transition conflict retries exhausted for " ++ responseId))
  | left + 1 =>
    round (transitionAttempt cfg S (key cfg responseId) responseId prepare) left
      (transitionAttempts responseId prepare left)

def transitionAtomic {T : Type} (responseId : String)
    (prepare : StoredResponse N → String → Except Fault (StoredResponse N × T)) :
    Act (StoredResponse N × T) :=
  transitionAttempts cfg S responseId prepare maxAttempts

def claimBackgroundResponse (responseId : String) :
    Act (StoredResponse N × ClaimBackgroundPayload N) :=
  transitionAtomic cfg S responseId prepareClaimBackground

def completeBackgroundResponse (responseId : String) (completedResponse : Value N) :
    Act (StoredResponse N) :=
  Prod.fst <$> transitionAtomic cfg S responseId (prepareCompleteBackground completedResponse)

def failBackgroundResponse (responseId errorMessage : String) : Act (StoredResponse N) :=
  Prod.fst <$> transitionAtomic cfg S responseId (prepareFailBackground errorMessage)

/-! ### The stale reconcile -/

def reconcileStaleTransactionAttempt (key responseId : String) (now staleSeconds : Int64) :
    Act (Option (StoredResponse N)) := do
  storage (send (.tx (.watch key)))
  match ← storage (send (.tx (.get key))) with
  | none =>
    ignore (send (.tx .unwatch))
    raise (.notFound responseId)
  | some raw =>
    match StoredResponse.ofText S raw with
    | .error err =>
      ignore (send (.tx .unwatch))
      raise (.serialization err)
    | .ok stored =>
      if !shouldReconcileStale stored || !isStaleEnqueued stored.enqueuedAt now staleSeconds then
        -- not stale any more: the record as it is now is the result
        ignore (send (.tx .unwatch))
        return some stored
      else
        let updated := applyStaleFailure stored responseId
        match updated.toText S with
        | .error err =>
          ignore (send (.tx .unwatch))
          raise (.serialization err)
        | .ok payload =>
          match ← outcome (storage (send (.tx (.ttl key)))) with
          -- a failed `TTL` gives up the watch, a failed `MULTI` or `SETEX` does not
          | .error fault =>
            ignore (send (.tx .unwatch))
            throw fault
          | .ok ttl =>
            let ttl := reconcileWriteTtl ttl cfg.ttlSeconds
            if ← commit key ttl payload then return some updated else return none

/-- The attempts left; when none is, the record is loaded again and returned as it is. -/
def reconcileStaleAttempts (responseId : String) (now staleSeconds : Int64) :
    ℕ → Act (StoredResponse N)
  | 0 => do
    match ← load cfg S responseId with
    | none => raise (.notFound responseId)
    | some reloaded => return reloaded
  | left + 1 =>
    round (reconcileStaleTransactionAttempt cfg S (key cfg responseId) responseId now staleSeconds)
      left (reconcileStaleAttempts responseId now staleSeconds left)

def reconcileStaleAtomic (responseId : String) (now staleSeconds : Int64) :
    Act (StoredResponse N) :=
  reconcileStaleAttempts cfg S responseId now staleSeconds maxAttempts

def reconcileStaleResponse (responseId : String) (stored : StoredResponse N)
    (staleSeconds : Int64) : Act (StoredResponse N) :=
  if !shouldReconcileStale stored then return stored
  else do
    -- the clock is read once; all attempts go by this time
    let now ← ask .now
    if !isStaleEnqueued stored.enqueuedAt now staleSeconds then return stored
    else reconcileStaleAtomic cfg S responseId now staleSeconds

/-- Load a record; a tombstone is not found. -/
def get (responseId : String) (reconcileStale : Bool) : Act (StoredResponse N) := do
  match ← load cfg S responseId with
  | none => raise (.notFound responseId)
  | some stored =>
    -- the only check for a tombstone: a reconcile below may read the key again
    if isDeletedTombstone stored then raise (.notFound responseId)
    else if reconcileStale then reconcileStaleResponse cfg S responseId stored cfg.staleSeconds
    else return stored

end ResponseStore

/-! ### What the server can do -/

/-- Drop white space at both ends. -/
def trimText (cs : List Char) : List Char :=
  ((cs.dropWhile Char.isWhitespace).reverse.dropWhile Char.isWhitespace).reverse

/-- The version in an `INFO` reply: the first line that starts with `redis_version:`. -/
def parseRedisVersion (info : String) : Option String :=
  ((info.toList.splitOn '\n').findSome? fun line => line.dropPrefix? "redis_version:".toList).map
    fun version => String.ofList (trimText version)

def parseU32 (cs : List Char) : Option ℕ :=
  match Redis.digits (if cs.head? = some '+' then cs.tail else cs) with
  | some n => if n < 2 ^ 32 then some n else none
  | none => none

def redisVersionAtLeast (version : String) (minMajor minMinor : ℕ) : Bool :=
  let parts := version.toList.splitOn '.'
  match parts[0]?.bind parseU32, parts[1]?.bind parseU32 with
  | some major, some minor => minMajor < major || (major = minMajor && minMinor ≤ minor)
  -- without a minor number only a later major version is enough
  | some major, none => minMajor < major
  | none, _ => false

/-- What the code concludes from an `INFO` reply. -/
def capabilitiesOfInfo (info : String) : RedisCapabilities :=
  let version := (parseRedisVersion info).getD ""
  ⟨version, redisVersionAtLeast version 7 0, redisVersionAtLeast version 6 2⟩

end ResponsesApiStore
