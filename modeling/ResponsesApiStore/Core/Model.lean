import ResponsesApiStore.Json.Serde
import ResponsesApiStore.Core.Error

/-!
# The stored record

`StoredResponse` is the record kept for every response, `StoredResponse.toTree` and
`StoredResponse.ofTree` its derived JSON codec: the three optional members are left out when
absent, default to absent when missing, and read a JSON `null` as absent. So a record reads
back as written except for two things: an upstream request that is itself `null`
(`ofTree_toTree`, `StoredResponse.dropNull`), and numbers that the reader does not read exactly
(`ofText_toText`, `StoredResponse.reread`).

The lifecycle predicates are read off the `status` member of the response, whatever JSON value
the response is.
-/

namespace ResponsesApiStore

open Json (Value Serde)

variable {N : Type}

/-- A stored response record. -/
structure StoredResponse (N : Type) where
  upstream : String
  response : Value N
  input : List (Value N)
  pendingUpstreamRequest : Option (Value N)
  upstreamAuthorization : Option String
  enqueuedAt : Option Int64
  deriving DecidableEq

/-! ### The derived codec -/

namespace StoredResponse

/-- The document of a record: members in declaration order, absent options left out. -/
def toTree (S : Serde N) (r : StoredResponse N) : Json N :=
  .object <|
    [("upstream", .string r.upstream), ("response", r.response.1),
      ("input", .array (r.input.map Subtype.val))] ++
    (r.pendingUpstreamRequest.map fun v => ("pending_upstream_request", v.1)).toList ++
    (r.upstreamAuthorization.map fun s => ("upstream_authorization", .string s)).toList ++
    (r.enqueuedAt.map fun n => ("enqueued_at", .number (S.ofI64 n))).toList

def readString : Json N → Except String String
  | .string s => .ok s
  | j => .error ("invalid type: " ++ j.kind ++ ", expected a string")

def readValue (j : Json N) : Except String (Value N) := .ok (Value.ofTree j)

def readItems : Json N → Except String (List (Value N))
  | .array items => .ok (items.map Value.ofTree)
  | j => .error ("invalid type: " ++ j.kind ++ ", expected a sequence")

def readI64 (S : Serde N) : Json N → Except String Int64
  | .number n => match S.asI64 n with
    | some n => .ok n
    | none => .error "invalid value: expected i64"
  | j => .error ("invalid type: " ++ j.kind ++ ", expected i64")

/-- An optional member: missing and `null` are both absent. -/
def readOption {α : Type} (read : Json N → Except String α) :
    Option (Json N) → Except String (Option α)
  | none | some .null => .ok none
  | some j => (read j).map some

def readRequired {α : Type} (name : String) (read : Json N → Except String α) :
    Option (Json N) → Except String α
  | none => .error ("missing field `" ++ name ++ "`")
  | some j => read j

/-- The member of a given name; a repeated member is an error. -/
def member (name : String) (fields : List (String × Json N)) : Except String (Option (Json N)) :=
  match fields.filter fun f => f.1 = name with
  | [] => .ok none
  | [f] => .ok (some f.2)
  | _ => .error ("duplicate field `" ++ name ++ "`")

/-- The names of the members of a record. -/
def fieldNames : List String :=
  ["upstream", "response", "input", "pending_upstream_request", "upstream_authorization",
    "enqueued_at"]

/-- The derived reader: members in any order, unknown members ignored. -/
def ofFields (S : Serde N) (fields : List (String × Json N)) :
    Except String (StoredResponse N) := do
  let upstream ← readRequired "upstream" readString (← member "upstream" fields)
  let response ← readRequired "response" readValue (← member "response" fields)
  let input ← readRequired "input" readItems (← member "input" fields)
  let pendingUpstreamRequest ←
    readOption readValue (← member "pending_upstream_request" fields)
  let upstreamAuthorization ← readOption readString (← member "upstream_authorization" fields)
  let enqueuedAt ← readOption (readI64 S) (← member "enqueued_at" fields)
  return ⟨upstream, response, input, pendingUpstreamRequest, upstreamAuthorization, enqueuedAt⟩

/-- The derived reader of a document. A structure is also accepted as the sequence of its
members in declaration order, trailing options missing. -/
def ofTree (S : Serde N) : Json N → Except String (StoredResponse N)
  | .object fields => ofFields S fields
  | .array items =>
    if items.length ≤ 6 then ofFields S (fieldNames.zip items)
    else .error "trailing characters"
  | j => .error ("invalid type: " ++ j.kind ++ ", expected struct StoredResponse")

/-- `serde_json::to_string` of a record. -/
def toText (S : Serde N) (r : StoredResponse N) : Except String String := S.toString (r.toTree S)

/-- `serde_json::from_str` of a record. -/
def ofText (S : Serde N) (s : String) : Except String (StoredResponse N) := do
  ofTree S (← S.fromStruct fieldNames s)

/-- The record with a `null` upstream request turned into an absent one. -/
def dropNull (r : StoredResponse N) : StoredResponse N :=
  { r with pendingUpstreamRequest := r.pendingUpstreamRequest.filter fun v =>
      match v.1 with
      | .null => false
      | _ => true }

@[simp]
theorem dropNull_response (r : StoredResponse N) : r.dropNull.response = r.response := rfl

@[simp]
theorem dropNull_dropNull (r : StoredResponse N) : r.dropNull.dropNull = r.dropNull := by
  rcases r with ⟨upstream, response, input, _ | v, auth, enqueued⟩
  · rfl
  · simp only [dropNull, Option.filter_filter, Bool.and_self]

theorem readOption_readValue (v : Option (Value N)) :
    readOption readValue (v.map Subtype.val) = .ok (v.filter fun v => match v.1 with
      | .null => false
      | _ => true) := by
  rcases v with _ | ⟨j, hj⟩
  · rfl
  · cases j <;> simp [readOption, readValue, Option.filter, Except.map] <;>
      exact Value.ofTree_val ⟨_, hj⟩

/-- The record that is read back when a record is written: numbers are reread, and a `null`
upstream request is absent. -/
def reread (S : Serde N) (r : StoredResponse N) : StoredResponse N :=
  { r.dropNull with
    response := r.response.mapNumbers S.reread
    input := r.input.map (Value.mapNumbers S.reread)
    pendingUpstreamRequest := r.dropNull.pendingUpstreamRequest.map (Value.mapNumbers S.reread) }

@[simp]
theorem reread_response (S : Serde N) (r : StoredResponse N) :
    (r.reread S).response = r.response.mapNumbers S.reread := rfl

/-- The strings and the enqueue time survive any number of writes and reads, the numbers in the
input and in the request are reread each time. -/
theorem iterate_reread (S : Serde N) (n : ℕ) (r : StoredResponse N) :
    ((reread S)^[n] r).upstream = r.upstream ∧
      ((reread S)^[n] r).input = r.input.map (Value.mapNumbers S.reread)^[n] ∧
      ((reread S)^[n] r).upstreamAuthorization = r.upstreamAuthorization ∧
      ((reread S)^[n] r).enqueuedAt = r.enqueuedAt := by
  induction n with
  | zero => exact ⟨rfl, (List.map_id _).symm, rfl, rfl⟩
  | succ n ih =>
    obtain ⟨hupstream, hinput, hauth, henqueued⟩ := ih
    rw [Function.iterate_succ_apply']
    refine ⟨hupstream, ?_, hauth, henqueued⟩
    show (((reread S)^[n] r).input).map _ = _
    rw [hinput, List.map_map, Function.iterate_succ']

theorem reread_request_congr {S : Serde N} {r r' : StoredResponse N}
    (h : r.pendingUpstreamRequest = r'.pendingUpstreamRequest) :
    (r.reread S).pendingUpstreamRequest = (r'.reread S).pendingUpstreamRequest := by
  simp only [reread, dropNull, h]

/-- A request whose numbers read back as they were survives any number of writes and reads, unless
it is `null`. -/
theorem iterate_reread_request {S : Serde N} {r : StoredResponse N}
    (h : ∀ request ∈ r.pendingUpstreamRequest, request.mapNumbers S.reread = request) (n : ℕ) :
    ((reread S)^[n + 1] r).pendingUpstreamRequest = r.dropNull.pendingUpstreamRequest := by
  have honce : (r.reread S).pendingUpstreamRequest = r.dropNull.pendingUpstreamRequest := by
    show r.dropNull.pendingUpstreamRequest.map _ = _
    rcases hrequest : r.dropNull.pendingUpstreamRequest with _ | request
    · rfl
    · obtain ⟨hmem, -⟩ := Option.filter_eq_some_iff.mp hrequest
      exact congrArg some (h request hmem)
  induction n with
  | zero => exact honce
  | succ n ih =>
    have hdrop : (r.dropNull.reread S).pendingUpstreamRequest =
        (r.reread S).pendingUpstreamRequest := by
      simp only [reread, dropNull_dropNull]
    rw [Function.iterate_succ_apply', reread_request_congr ih, hdrop, honce]

/-- The document of a record has the members of a record. -/
theorem keepFields_toTree (S : Serde N) (r : StoredResponse N) :
    (r.toTree S).keepFields fieldNames = r.toTree S := by
  obtain ⟨upstream, response, input, pending, auth, enqueued⟩ := r
  cases pending <;> cases auth <;> cases enqueued <;>
    simp [toTree, Json.keepFields, fieldNames]

/-- The document of a record when its numbers are reread. -/
theorem mapNumbers_toTree (S : Serde N) (r : StoredResponse N) :
    (r.toTree S).mapNumbers S.reread =
      ({ r with
        response := r.response.mapNumbers S.reread
        input := r.input.map (Value.mapNumbers S.reread)
        pendingUpstreamRequest := r.pendingUpstreamRequest.map (Value.mapNumbers S.reread) } :
          StoredResponse N).toTree S := by
  obtain ⟨upstream, response, input, pending, auth, enqueued⟩ := r
  cases pending <;> cases auth <;> cases enqueued <;>
    simp [toTree, Json.mapNumbers, Json.mapFields, Json.mapItems_eq, S.reread_ofI64,
      Value.mapNumbers]

/-- **The codec on documents.** Reading the document of a record gives the record back, up to
a `null` upstream request. -/
theorem ofTree_toTree (S : Serde N) (r : StoredResponse N) :
    ofTree S (r.toTree S) = .ok r.dropNull := by
  obtain ⟨upstream, response, input, pending, auth, enqueued⟩ := r
  have hitems : (input.map Subtype.val).map Value.ofTree = input := by
    rw [List.map_map]
    exact (List.map_congr_left fun v _ => Value.ofTree_val v).trans (List.map_id input)
  have hi64 : ∀ n, readI64 S (.number (S.ofI64 n)) = .ok n := fun n => by
    simp [readI64, S.asI64_ofI64]
  have hpending := readOption_readValue pending
  cases pending <;> cases auth <;> cases enqueued <;>
    simp_all [toTree, ofTree, ofFields, member, readRequired, readOption, readString,
      readValue, readItems, dropNull, Except.map, bind, Except.bind, pure, Except.pure]

/-- A request is `null` before its numbers are reread if it is after. -/
theorem dropNull_mapNumbers (S : Serde N) (r : StoredResponse N) :
    ({ r with
      response := r.response.mapNumbers S.reread
      input := r.input.map (Value.mapNumbers S.reread)
      pendingUpstreamRequest := r.pendingUpstreamRequest.map (Value.mapNumbers S.reread) } :
        StoredResponse N).dropNull = r.reread S := by
  obtain ⟨upstream, response, input, _ | ⟨j, hj⟩, auth, enqueued⟩ := r
  · rfl
  · cases j <;> rfl

/-- **The codec on texts.** When the text of a record is read back, it gives the record, up to
its numbers and a `null` upstream request. -/
theorem ofText_toText {S : Serde N} {r r' : StoredResponse N} {s : String}
    (h : r.toText S = .ok s) (h' : ofText S s = .ok r') : r' = r.reread S := by
  rcases hs : S.fromStruct fieldNames s with e | j
  · simp [ofText, hs, bind, Except.bind] at h'
  · have hr : ofTree S j = .ok r' := by simpa [ofText, hs, bind, Except.bind] using h'
    rw [S.fromStruct_toString h hs, mapNumbers_toTree, keepFields_toTree, ofTree_toTree,
      dropNull_mapNumbers] at hr
    exact (Except.ok.inj hr).symm

theorem filter_of_readOption {o : Option (Json N)} {v : Option (Value N)}
    (h : readOption readValue o = .ok v) :
    (v.filter fun v => match v.1 with
      | .null => false
      | _ => true) = v := by
  rcases o with _ | j
  · simp only [readOption, Except.ok.injEq] at h
    simp [← h]
  · cases j <;> simp only [readOption, readValue, Except.map, Except.ok.injEq] at h <;>
      subst h <;> simp [Value.ofTree, Json.normalise, Option.filter]

/-- A record that was read carries no `null` upstream request. -/
theorem dropNull_of_ofFields {S : Serde N} {fields : List (String × Json N)}
    {r : StoredResponse N} (h : ofFields S fields = .ok r) : r.dropNull = r := by
  have hpending : ∃ o, readOption readValue o = .ok r.pendingUpstreamRequest := by
    simp only [ofFields, bind, Except.bind, pure, Except.pure] at h
    repeat' split at h
    all_goals cases h
    exact ⟨_, by assumption⟩
  obtain ⟨o, ho⟩ := hpending
  have hfilter := filter_of_readOption ho
  rw [dropNull, hfilter]

theorem dropNull_of_ofText {S : Serde N} {s : String} {r : StoredResponse N}
    (h : ofText S s = .ok r) : r.dropNull = r := by
  rw [ofText] at h
  rcases hs : S.fromStruct fieldNames s with e | j
  · rw [hs] at h
    cases h
  · rw [hs] at h
    have hr : ofTree S j = .ok r := h
    cases j with
    | object fields => exact dropNull_of_ofFields hr
    | array items =>
      rw [ofTree] at hr
      split_ifs at hr
      exact dropNull_of_ofFields hr
    | _ => cases hr

/-- Records that print to one text differ at most in a `null` upstream request. -/
theorem dropNull_eq_of_toText {S : Serde N} {r r' : StoredResponse N} {s : String}
    (h : r.toText S = .ok s) (h' : r'.toText S = .ok s) : r.dropNull = r'.dropNull := by
  have htree : r.toTree S = r'.toTree S := S.toString_inj h h'
  have hread := ofTree_toTree S r
  rw [htree, ofTree_toTree] at hread
  exact (Except.ok.inj hread).symm

end StoredResponse

/-! ### Configuration -/

/-- The configuration of a server, less the address of Redis. -/
structure StoreConfig where
  keyPrefix : String
  ttlSeconds : UInt64
  streamKey : String
  staleSeconds : Int64
  streamMaxlen : ℕ
  deriving DecidableEq

def StoreConfig.validate (cfg : StoreConfig) : Except String Unit :=
  if cfg.ttlSeconds = 0 then .error "RESPONSE_ID_STORE_TTL_SECONDS must be greater than 0"
  else if cfg.staleSeconds ≤ 0 then
    .error "BACKGROUND_RESPONSE_STALE_SECONDS must be greater than 0"
  else .ok ()

/-! ### Keys -/

/-- The key of a response record. -/
def responseStoreKey (keyPrefix responseId : String) : String := keyPrefix ++ ":" ++ responseId

/-- The key of a consumer group's autoclaim cursor. -/
def autoclaimCursorKey (streamKey consumerGroup : String) : String :=
  streamKey ++ ":meta:autoclaim:" ++ consumerGroup

/-- Distinct ids have distinct keys. -/
theorem responseStoreKey_inj {keyPrefix id id' : String} :
    responseStoreKey keyPrefix id = responseStoreKey keyPrefix id' ↔ id = id' := by
  rw [responseStoreKey, responseStoreKey, String.append_right_inj]

/-- Distinct groups have distinct cursor keys. -/
theorem autoclaimCursorKey_inj {streamKey group group' : String} :
    autoclaimCursorKey streamKey group = autoclaimCursorKey streamKey group' ↔ group = group' := by
  rw [autoclaimCursorKey, autoclaimCursorKey, String.append_right_inj]

/-! ### The lifecycle of a record -/

/-- The `status` member of the response, when it is a string. -/
def storedResponseStatus (stored : StoredResponse N) : Option String :=
  (stored.response.get "status").bind Value.asStr

def isDeletedTombstone (stored : StoredResponse N) : Bool :=
  storedResponseStatus stored = some "deleted"

def isTerminalBackgroundStatus (stored : StoredResponse N) : Bool :=
  isDeletedTombstone stored ||
    (storedResponseStatus stored = some "cancelled" ||
      storedResponseStatus stored = some "completed" ||
      storedResponseStatus stored = some "failed")

def isClaimableBackground (stored : StoredResponse N) : Bool :=
  stored.pendingUpstreamRequest.isSome && storedResponseStatus stored = some "queued"

def isInProgressBackground (stored : StoredResponse N) : Bool :=
  storedResponseStatus stored = some "in_progress"

def isInFlightBackground (stored : StoredResponse N) : Bool :=
  stored.pendingUpstreamRequest.isSome ||
    (storedResponseStatus stored = some "queued" ||
      storedResponseStatus stored = some "in_progress")

def shouldReconcileStale (stored : StoredResponse N) : Bool :=
  isInFlightBackground stored && storedResponseStatus stored = some "queued"

/-- Signed subtraction that stops at the bounds of the type. -/
def saturatingSub (a b : Int64) : Int64 := Int64.ofIntClamp (a.toInt - b.toInt)

def isStaleEnqueued (enqueuedAt : Option Int64) (now staleSeconds : Int64) : Bool :=
  match enqueuedAt with
  | none => false
  | some enqueuedAt => staleSeconds ≤ saturatingSub now enqueuedAt

@[simp]
theorem storedResponseStatus_dropNull (r : StoredResponse N) :
    storedResponseStatus r.dropNull = storedResponseStatus r := rfl

/-- The status is a string: it is the same after a record was written and read. -/
@[simp]
theorem storedResponseStatus_reread (S : Serde N) (r : StoredResponse N) :
    storedResponseStatus (r.reread S) = storedResponseStatus r := by
  rw [storedResponseStatus, storedResponseStatus, StoredResponse.reread_response,
    Value.get_mapNumbers]
  cases r.response.get "status" with
  | none => rfl
  | some v => exact Value.asStr_mapNumbers S.reread v

@[simp]
theorem isTerminalBackgroundStatus_reread (S : Serde N) (r : StoredResponse N) :
    isTerminalBackgroundStatus (r.reread S) = isTerminalBackgroundStatus r := by
  simp only [isTerminalBackgroundStatus, isDeletedTombstone, storedResponseStatus_reread]

@[simp]
theorem pendingUpstreamRequest_reread_isSome (S : Serde N) (r : StoredResponse N) :
    (r.reread S).pendingUpstreamRequest.isSome = r.dropNull.pendingUpstreamRequest.isSome :=
  Option.isSome_map

theorem isClaimableBackground_reread (S : Serde N) (r : StoredResponse N) :
    isClaimableBackground (r.reread S) = isClaimableBackground r.dropNull := by
  have hstatus : storedResponseStatus (r.reread S) = storedResponseStatus r.dropNull :=
    storedResponseStatus_reread S r
  rw [isClaimableBackground, isClaimableBackground, pendingUpstreamRequest_reread_isSome, hstatus]

/-! ### Jobs -/

/-- A job handed to a worker. -/
structure BackgroundJob (N : Type) where
  streamId : String
  responseId : String
  record : StoredResponse N
  autoclaimed : Bool
  idleMs : Option ℕ
  deriving DecidableEq

/-- A job that was delivered but whose record could not be loaded. -/
structure PendingBackgroundJob where
  streamId : String
  responseId : String
  autoclaimed : Bool
  idleMs : Option ℕ
  deriving DecidableEq

end ResponsesApiStore
