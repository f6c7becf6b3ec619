import ResponsesApiStore.Codec.Outcome
import ResponsesApiStore.Server.Convert

/-!
# The conversions of the client SDKs

The Rust and the Go client each convert between the wire record and a record of their own. The
Rust client uses the record of the store; its conversions are a second copy of the server's,
with other errors. The Go client keeps JSON as raw text, which it neither reads nor prints, and
holds the two optional strings of the wire as plain strings, an absent one being empty.
-/

namespace ResponsesApiStore

open Json (Value Serde)

variable {N : Type}

/-! ### The Rust client -/

namespace RustClient

/-- The errors of the conversions of the Rust client. -/
inductive ClientError
  | notFound (responseId : String)
  | serialization (message : String)
  deriving DecidableEq, Repr

variable (S : Serde N)

def printJson (v : Value N) : Except ClientError String :=
  (S.valueToString v).mapError .serialization

def readJson (text : String) : Except ClientError (Value N) :=
  (S.valueFromStr text).mapError .serialization

def toProtoRecord (responseId : String) (record : StoredResponse N) :
    Except ClientError ProtoStoredResponse := do
  let responseJson ← printJson S record.response
  let inputJson ← record.input.mapM (printJson S)
  let pendingUpstreamRequestJson ← record.pendingUpstreamRequest.mapM (printJson S)
  return ⟨responseId, record.upstream, responseJson, inputJson, pendingUpstreamRequestJson,
    record.upstreamAuthorization, record.enqueuedAt⟩

def fromProtoRecord (record : Option ProtoStoredResponse) (responseId : String) :
    Except ClientError (StoredResponse N) := do
  match record with
  | none => throw (.notFound responseId)
  | some record =>
    let response ← readJson S record.responseJson
    let input ← record.inputJson.mapM (readJson S)
    let pendingUpstreamRequest ← (record.pendingUpstreamRequestJson.filter fun value =>
      !value.isEmpty).mapM (readJson S)
    return ⟨record.upstream, response, input, pendingUpstreamRequest,
      record.upstreamAuthorization, record.enqueuedAt⟩

end RustClient

/-! ### The Go client -/

namespace GoClient

/-- The record of the Go client: JSON as raw text, a pending request that may be nil. -/
structure StoredResponse where
  upstream : String
  response : String
  input : List String
  pendingUpstreamRequest : Option String
  upstreamAuthorization : String
  enqueuedAt : Option Int64
  deriving DecidableEq

def optionalString (value : String) : Option String := if value = "" then none else some value

def toProtoRecord (responseId : String) (record : StoredResponse) : ProtoStoredResponse :=
  let pending := match record.pendingUpstreamRequest with
    | some text => if 0 < text.utf8ByteSize then text else ""
    | none => ""
  ⟨responseId, record.upstream, record.response, record.input, optionalString pending,
    optionalString record.upstreamAuthorization, record.enqueuedAt⟩

def fromProtoRecord (record : Option ProtoStoredResponse) : Except String StoredResponse :=
  match record with
  | none => .error "missing stored response record"
  | some record =>
    let pending := match record.pendingUpstreamRequestJson with
      | some text => if text ≠ "" then some text else none
      | none => none
    .ok ⟨record.upstream, record.responseJson, record.inputJson, pending,
      record.upstreamAuthorization.getD "", record.enqueuedAt⟩

end GoClient

end ResponsesApiStore
