import ResponsesApiStore.Server.Service
import ResponsesApiStore.Interaction.Machine

/-!
# The deployment

Any number of server processes against one Redis, as a `Machine`. A call is a request to one
of the servers; its task runs `serve`. Shared are the keys of Redis, the autoclaim cursors and
the job stream (three kinds of keys, kept apart here), the sessions of the transaction
connections, one for each server, and in each server process the mutex around that connection
and the capabilities it has looked up.

Every request to Redis meets one of the fates of a request on a network: it is answered; or it
fails, and then it did or did not run, and the connection manager did or did not reconnect.
Reconnecting and `install` both give the server a session that has sent nothing yet. A
command runs no later than the moment its caller stops waiting for it. Dropping a task
releases the mutex if the task holds it, and nothing else: its session stays as it is.

Beside the servers, keys expire and grow older, other clients of Redis write and delete
keys, and the clock of the servers moves in any way.
-/

namespace ResponsesApiStore

open Json (Serde)
open Redis (Error Keyspace Entry Stream StreamChoice)
open Interaction (Machine World Label)

/-- What the tasks share. -/
structure Shared where
  db : Keyspace
  cursors : String → Option String
  stream : Option Stream
  clock : Int64
  holder : ℕ → Option ℕ
  capabilities : ℕ → Option RedisCapabilities

/-- A request to a server. -/
structure Call where
  server : ℕ
  request : Request

/-- The fate of a request to Redis. -/
inductive Delivery
  | replied
  | failed (err : Error) (ran reconnected : Bool)

/-- Whether the request was executed. -/
def Delivery.ran : Delivery → Bool
  | replied => true
  | failed _ ran _ => ran

/-- Whether the connection was replaced by a new one. -/
def Delivery.reconnected : Delivery → Bool
  | replied => false
  | failed _ _ reconnected => reconnected

/-- What the requester is told: the server's reply, or the error. -/
def Delivery.reply {ρ : Type} (d : Delivery) (reply : ρ) (fail : Error → ρ) : ρ :=
  match d with
  | replied => reply
  | failed err _ _ => fail err

/-- Everything a step leaves to chance. -/
structure Choice where
  delivery : Delivery
  stream : StreamChoice
  info : String

namespace Shared

variable (σ : Shared)

/-- The text at a key. -/
def textAt (key : String) : Option String := σ.db.textAt key

/-- The state if the request ran, else unchanged. -/
def runIf (d : Delivery) (ran : Shared) : Shared := if d.ran then ran else σ

/-- Give server `n` a transaction connection that has sent nothing yet. -/
def renew (n : ℕ) : Shared := { σ with db := σ.db.setSession n .fresh }

/-- Set who holds the mutex of server `n`. -/
def setHolder (n : ℕ) (holder : Option ℕ) : Shared :=
  { σ with holder := Function.update σ.holder n holder }

@[simp]
theorem setHolder_holder_self (n : ℕ) (holder : Option ℕ) :
    (σ.setHolder n holder).holder n = holder := by
  simp [setHolder]

theorem setHolder_holder_of_ne {n m : ℕ} (holder : Option ℕ) (h : m ≠ n) :
    (σ.setHolder n holder).holder m = σ.holder m := by
  simp [setHolder, h]

/-- Execute a command of task `i` of server `n`; `none` while the mutex is taken, or for a
choice the stream cannot make. -/
def exec (i n : ℕ) (choice : Choice) : (c : Cmd) → Option (Shared × c.Reply)
  | .get key => some (σ, choice.delivery.reply (.ok (σ.db.textAt key)) .error)
  | .setEx key ttl text =>
    some (σ.runIf choice.delivery { σ with db := (σ.db.setEx key ttl text).1 },
      choice.delivery.reply (σ.db.setEx key ttl text).2 .error)
  | .del key =>
    some (σ.runIf choice.delivery { σ with db := σ.db.del key },
      choice.delivery.reply (.ok ()) .error)
  | .ping => some (σ, choice.delivery.reply (.ok ()) .error)
  -- one connection per server: the command acts on the session of `n`, whoever sends it
  | .tx c =>
    let ran := σ.runIf choice.delivery { σ with db := (c.run σ.db n).1 }
    some (if choice.delivery.reconnected then ran.renew n else ran,
      choice.delivery.reply (c.run σ.db n).2 c.fail)
  | .lock =>
    match σ.holder n with
    -- a task that finds the mutex taken waits: it has no step
    | none => some (σ.setHolder n (some i), ())
    | some _ => none
  | .unlock => some (σ.setHolder n none, ())
  | .connect => some (σ, choice.delivery.reply (.ok ()) .error)
  -- the old connection is gone, and with it its transaction
  | .install => some (σ.renew n, ())
  | .now => some (σ, σ.clock)
  | .sleep => some (σ, ())
  | .capabilities =>
    match σ.capabilities n with
    -- looked up once per process
    | some known => some (σ, .ok known)
    | none =>
      match choice.delivery with
      | .replied =>
        some ({ σ with capabilities :=
            Function.update σ.capabilities n (some (capabilitiesOfInfo choice.info)) },
          .ok (capabilitiesOfInfo choice.info))
      | .failed err _ _ => some (σ, .error err)
  | .openBlocking => some (σ, choice.delivery.reply (.ok ()) .error)
  | .getCursor key => some (σ, choice.delivery.reply (.ok (σ.cursors key)) .error)
  | .cursorScript key cursor =>
    match BackgroundQueue.autoclaimCursorScript (σ.cursors key) cursor with
    | .ok stored =>
      some (σ.runIf choice.delivery { σ with cursors := Function.update σ.cursors key stored },
        choice.delivery.reply (.ok ()) .error)
    | .error err => some (σ, choice.delivery.reply (.error err) .error)
  | .stream c =>
    match choice.delivery with
    -- the request was lost on its way
    | .failed err false _ => some (σ, c.fail err)
    | delivery =>
      (c.run σ.stream choice.stream).map fun x =>
        ({ σ with stream := x.1 }, delivery.reply x.2 c.fail)

/-- A dropped task releases the mutex if it holds it. -/
def release (i n : ℕ) : Shared := if σ.holder n = some i then σ.setHolder n none else σ

@[simp]
theorem release_db (i n : ℕ) : (σ.release i n).db = σ.db := by
  rw [release]
  split_ifs <;> rfl

@[simp]
theorem release_stream (i n : ℕ) : (σ.release i n).stream = σ.stream := by
  rw [release]
  split_ifs <;> rfl

@[simp]
theorem release_cursors (i n : ℕ) : (σ.release i n).cursors = σ.cursors := by
  rw [release]
  split_ifs <;> rfl

end Shared

/-- What happens beside the servers. -/
inductive Env
  | expire (key : String)
  | age (key : String) (seconds : ℕ)
  | foreignSet (key : String) (entry : Entry)
  | foreignDel (key : String)
  | clock (now : Int64)

/-- A move of the environment. -/
def Shared.env (σ : Shared) : Env → Option Shared
  | .expire key => (σ.db.expire key).map fun db => { σ with db }
  | .age key seconds => (σ.db.age key seconds).map fun db => { σ with db }
  | .foreignSet key entry => some { σ with db := σ.db.write key (some entry) }
  | .foreignDel key => some { σ with db := σ.db.del key }
  | .clock now => some { σ with clock := now }

variable {N : Type} [DecidableEq N]

/-- The machines of servers. -/
abbrev DMachine : Type := Machine sig Shared Call RpcResult Choice Env

/-- The deployment as a machine. -/
def deployment (cfg : StoreConfig) (S : Serde N) (fuel : ℕ) : DMachine where
  main call := serve cfg S fuel call.request
  exec σ i call c choice := σ.exec i call.server choice c
  env := Shared.env
  release σ i call := σ.release i call.server

/-- A world of the deployment. -/
abbrev DWorld : Type := World sig Shared Call RpcResult

/-- A label of the deployment. -/
abbrev DLabel : Type := Label Call Choice Env

/-- A task of the deployment. -/
abbrev DTask : Type := Interaction.Task sig Call RpcResult

/-- A world without tasks and with all mutexes free; keys, sessions, stream and clock are
arbitrary. -/
structure Initial (w : DWorld) : Prop where
  tasks : ∀ i, w.tasks i = none
  holder : ∀ n, w.shared.holder n = none

end ResponsesApiStore
