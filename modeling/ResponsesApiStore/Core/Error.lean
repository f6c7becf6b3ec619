import ResponsesApiStore.Redis.Transaction
import Mathlib.Data.List.Infix

/-!
# Errors of the store

The error type of the storage and queue layer, with a Rust panic kept apart: `Fault` is
either an error value that the code returns, a panic that unwinds the task, or the mark of an
unbounded loop cut short because the model gave it too little fuel.
-/

namespace ResponsesApiStore

open Redis (Error)

/-- Errors of the store, as the callers distinguish them. -/
inductive StoreError
  | notFound (id : String)
  | invalidArgument (message : String)
  | failedPrecondition (message : String)
  | unavailable (message : String)
  | storage (err : Error)
  | serialization (message : String)
  deriving DecidableEq, Repr

/-- A returned error, a panic, or a loop out of fuel. -/
inductive Fault
  | error (err : StoreError)
  | panic (message : String)
  | outOfFuel
  deriving DecidableEq, Repr

/-- Whether `needle` occurs in `haystack`. -/
def containsText (haystack needle : String) : Bool :=
  haystack.toList.tails.any fun t => needle.toList.isPrefixOf t

/-- Classifies a Redis error for logging and gRPC status messages. -/
def redisErrorKind (err : Error) : String :=
  if err.isTimeout then "timeout"
  else if err.isConnectionRefusal then "connection_refused"
  else if containsText err.message "BUSY" then "busy"
  else "other"

end ResponsesApiStore
