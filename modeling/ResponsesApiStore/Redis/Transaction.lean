import Mathlib.Algebra.Group.Nat.Defs
import Mathlib.Logic.Function.Basic
import Mathlib.Data.Int.Notation
import Mathlib.Tactic.Common

/-!
# String keys, sessions and optimistic transactions

The part of a Redis server that string keys need: a keyspace of texts with a remaining time
to live, and for each connection a *session*, the server-side state that a transaction
leaves behind: the watched keys, whether one of them was touched since (`dirty`), whether
`MULTI` is open, and the queued commands.

`TxCmd.run` executes one command of a session. Inside `MULTI` everything but `WATCH`,
`DISCARD`, `MULTI` and `EXEC` is queued; `WATCH` there is an error; `DISCARD` outside is an
error that clears nothing; `EXEC` of a dirty session answers nil and writes nothing. A write
to a key, an expiry included, makes every session that watches the key dirty
(`Keyspace.write`).

The rule of optimistic locking is carried by `Keyspace.Guards n key v`: session `n` watches
`key` and, unless it is dirty, the key still holds `v`. Writes by anybody keep it
(`Guards.write`), so a clean `EXEC` finds the value that was read under the watch.
-/

namespace Redis

/-- A failed command as the client library reports it. -/
structure Error where
  message : String
  isTimeout : Bool
  isConnectionRefusal : Bool
  deriving DecidableEq, Repr

/-- An error reply of the server, with the text that the client library gives it. -/
def Error.reply (message : String) : Error := ⟨message, false, false⟩

/-- The client library tells an error reply without a code of its own by its kind. -/
def responseError (message : String) : Error := .reply ("ResponseError: " ++ message)

def invalidExpireTime : Error := responseError "invalid expire time in 'setex' command"

/-- A stored text and the seconds `TTL` reports for it; `none` is no expiry. -/
structure Entry where
  text : String
  ttl : Option ℕ
  deriving DecidableEq, Repr

/-- A command waiting in an open transaction: a `SETEX`, or one without effect on the
keyspace. -/
inductive Queued
  | setEx (key : String) (ttl : UInt64) (text : String)
  | read
  deriving DecidableEq, Repr

/-- The server side of one connection. -/
structure Session where
  watched : List String
  dirty : Bool
  inMulti : Bool
  queue : List Queued
  deriving DecidableEq, Repr

/-- A connection that has sent nothing yet. -/
def Session.fresh : Session := ⟨[], false, false, []⟩

/-- The string keys and the sessions of all connections. -/
structure Keyspace where
  strings : String → Option Entry
  sessions : ℕ → Session

namespace Keyspace

variable (db : Keyspace)

/-- The text at a key. -/
def textAt (key : String) : Option String := (db.strings key).map Entry.text

/-- Replace the server side of connection `n`. -/
def setSession (n : ℕ) (s : Session) : Keyspace :=
  { db with sessions := Function.update db.sessions n s }

/-- Store or remove a key; every session that watches it becomes dirty. -/
def write (key : String) (e : Option Entry) : Keyspace where
  strings := Function.update db.strings key e
  sessions n :=
    if key ∈ (db.sessions n).watched then { db.sessions n with dirty := true }
    else db.sessions n

@[simp]
theorem setSession_strings (n : ℕ) (s : Session) : (db.setSession n s).strings = db.strings := rfl

@[simp]
theorem setSession_textAt (n : ℕ) (s : Session) (key : String) :
    (db.setSession n s).textAt key = db.textAt key := rfl

@[simp]
theorem setSession_sessions_self (n : ℕ) (s : Session) :
    (db.setSession n s).sessions n = s := by
  simp [setSession]

theorem setSession_sessions_of_ne {n m : ℕ} (s : Session) (h : m ≠ n) :
    (db.setSession n s).sessions m = db.sessions m := by
  simp [setSession, h]

@[simp]
theorem write_strings_self (key : String) (e : Option Entry) :
    (db.write key e).strings key = e := by
  simp [write]

theorem write_strings_of_ne {key k : String} (e : Option Entry) (h : k ≠ key) :
    (db.write key e).strings k = db.strings k := by
  simp [write, h]

@[simp]
theorem write_textAt_self (key : String) (e : Option Entry) :
    (db.write key e).textAt key = e.map Entry.text := by
  simp [textAt]

theorem write_textAt_of_ne {key k : String} (e : Option Entry) (h : k ≠ key) :
    (db.write key e).textAt k = db.textAt k := by
  simp [textAt, write_strings_of_ne, h]

@[simp]
theorem write_sessions_watched (key : String) (e : Option Entry) (n : ℕ) :
    ((db.write key e).sessions n).watched = (db.sessions n).watched := by
  simp only [write]
  split_ifs <;> rfl

@[simp]
theorem write_sessions_inMulti (key : String) (e : Option Entry) (n : ℕ) :
    ((db.write key e).sessions n).inMulti = (db.sessions n).inMulti := by
  simp only [write]
  split_ifs <;> rfl

@[simp]
theorem write_sessions_queue (key : String) (e : Option Entry) (n : ℕ) :
    ((db.write key e).sessions n).queue = (db.sessions n).queue := by
  simp only [write]
  split_ifs <;> rfl

theorem write_sessions_dirty_of_mem {key : String} (e : Option Entry) {n : ℕ}
    (h : key ∈ (db.sessions n).watched) : ((db.write key e).sessions n).dirty = true := by
  simp only [write, if_pos h]

theorem write_sessions_dirty_of_dirty (key : String) (e : Option Entry) {n : ℕ}
    (h : (db.sessions n).dirty = true) : ((db.write key e).sessions n).dirty = true := by
  simp only [write]
  split_ifs
  · rfl
  · exact h

/-! ### Single commands -/

/-- The largest time to live, in seconds, that fits the server's milliseconds. -/
def maxTtl : ℕ := (2 ^ 63 - 1) / 1000

/-- A time to live that `SETEX` accepts. -/
def ValidTtl (ttl : UInt64) : Prop := 0 < ttl.toNat ∧ ttl.toNat ≤ maxTtl

instance (ttl : UInt64) : Decidable (ValidTtl ttl) := inferInstanceAs (Decidable (_ ∧ _))

/-- `SETEX`: value and expiry together; a time to live of zero or out of range is refused. -/
def setEx (key : String) (ttl : UInt64) (text : String) : Keyspace × Except Error Unit :=
  if ValidTtl ttl then
    (db.write key (some ⟨text, some ttl.toNat⟩), .ok ())
  else (db, .error invalidExpireTime)

/-- `DEL`: removing an absent key touches nothing. -/
def del (key : String) : Keyspace :=
  match db.strings key with
  | some _ => db.write key none
  | none => db

/-- The reply of `TTL`: `-2` for a missing key, `-1` for one without expiry. -/
def ttlReply (key : String) : ℤ :=
  match db.strings key with
  | none => -2
  | some ⟨_, none⟩ => -1
  | some ⟨_, some n⟩ => n

/-- A key with an expiry runs out. -/
def expire (key : String) : Option Keyspace :=
  match db.strings key with
  | some ⟨_, some _⟩ => some (db.write key none)
  | _ => none

/-- Time passes for one key: its remaining seconds drop to `n`, nothing is touched. -/
def age (key : String) (n : ℕ) : Option Keyspace :=
  match db.strings key with
  | some ⟨text, some m⟩ =>
    if n ≤ m then
      some { db with strings := Function.update db.strings key (some ⟨text, some n⟩) }
    else none
  | _ => none

/-- Everything but the remaining time to live is unchanged by aging. -/
theorem age_textAt {db db' : Keyspace} {key : String} {n : ℕ} (h : db.age key n = some db')
    (k : String) : db'.textAt k = db.textAt k := by
  rw [age] at h
  split at h
  · rename_i text m hkey
    split_ifs at h
    obtain rfl := Option.some.inj h
    by_cases hk : k = key
    · subst hk
      simp [textAt, hkey]
    · simp [textAt, hk]
  · cases h

theorem age_sessions {db db' : Keyspace} {key : String} {n : ℕ} (h : db.age key n = some db') :
    db'.sessions = db.sessions := by
  rw [age] at h
  split at h
  · split_ifs at h
    obtain rfl := Option.some.inj h
    rfl
  · cases h

theorem expire_eq_some {db db' : Keyspace} {key : String} (h : db.expire key = some db') :
    db' = db.write key none := by
  rw [expire] at h
  split at h
  · exact (Option.some.inj h).symm
  · cases h

/-! ### The commands of a session -/

end Keyspace

/-- The commands of a transaction connection. -/
inductive TxCmd
  | discard
  | watch (key : String)
  | get (key : String)
  | ttl (key : String)
  | unwatch
  | multi
  | setEx (key : String) (ttl : UInt64) (text : String)
  | exec
  deriving DecidableEq

/-- The reply each command is read as. `EXEC` answers nil or the number of commands it ran. -/
@[reducible]
def TxCmd.Reply : TxCmd → Type
  | .get _ => Except Error (Option String)
  | .ttl _ => Except Error ℤ
  | .exec => Except Error (Option ℕ)
  | _ => Except Error Unit

/-- Run the queued commands in order; the first failure is what the client sees, and the
later commands run all the same. -/
def Keyspace.runQueue (db : Keyspace) : List Queued → Keyspace × Except Error Unit
  | [] => (db, .ok ())
  | .setEx key ttl text :: queue =>
    let (db, reply) := db.setEx key ttl text
    let (db, rest) := db.runQueue queue
    (db, match reply with | .ok _ => rest | .error e => .error e)
  | .read :: queue => db.runQueue queue

/-- Queue a command in an open transaction. -/
def Session.enqueue (s : Session) (q : Queued) : Session := { s with queue := s.queue ++ [q] }

/-- Execute one command on connection `n`. -/
def TxCmd.run (db : Keyspace) (n : ℕ) : (c : TxCmd) → Keyspace × c.Reply
  | .discard =>
    if (db.sessions n).inMulti then (db.setSession n .fresh, .ok ())
    else (db, .error (responseError "DISCARD without MULTI"))
  -- a session keeps its watched keys and whether one of them was written
  | .watch key =>
    if (db.sessions n).inMulti then
      (db, .error (responseError "WATCH inside MULTI is not allowed"))
    else
      (db.setSession n { db.sessions n with watched := key :: (db.sessions n).watched }, .ok ())
  | .get key =>
    if (db.sessions n).inMulti then
      -- inside `MULTI` a read is queued, and the client takes the status for the value
      (db.setSession n ((db.sessions n).enqueue .read), .ok (some "QUEUED"))
    else (db, .ok (db.textAt key))
  | .ttl key =>
    if (db.sessions n).inMulti then
      (db.setSession n ((db.sessions n).enqueue .read),
        .error (.reply "Response was of incompatible type"))
    else (db, .ok (db.ttlReply key))
  | .unwatch =>
    if (db.sessions n).inMulti then
      (db.setSession n ((db.sessions n).enqueue .read), .ok ())
    else (db.setSession n { db.sessions n with watched := [], dirty := false }, .ok ())
  | .multi =>
    if (db.sessions n).inMulti then (db, .error (responseError "MULTI calls can not be nested"))
    else (db.setSession n { db.sessions n with inMulti := true, queue := [] }, .ok ())
  | .setEx key seconds text =>
    if (db.sessions n).inMulti then
      (db.setSession n ((db.sessions n).enqueue (.setEx key seconds text)), .ok ())
    else db.setEx key seconds text
  | .exec =>
    if (db.sessions n).inMulti then
      -- a transaction whose watched key was written is dropped, with everything queued
      if (db.sessions n).dirty then (db.setSession n .fresh, .ok none)
      else
        let (db', reply) := (db.setSession n .fresh).runQueue (db.sessions n).queue
        (db', match reply with
          | .ok _ => .ok (some (db.sessions n).queue.length)
          | .error e => .error e)
    else (db, .error (responseError "EXEC without MULTI"))

/-- What the client is told when a command does not come back: an error of the command's own
reply type. -/
def TxCmd.fail (e : Error) : (c : TxCmd) → c.Reply
  | .get _ => .error e
  | .ttl _ => .error e
  | .exec => .error e
  | .discard | .watch _ | .unwatch | .multi | .setEx .. => .error e

/-! ### Optimistic locking -/

/-- Session `n` watches `key`, and unless it is dirty the key still holds `v`. -/
structure Keyspace.Guards (db : Keyspace) (n : ℕ) (key : String) (v : Option String) : Prop where
  watched : key ∈ (db.sessions n).watched
  clean : (db.sessions n).dirty = false → db.textAt key = v

namespace Keyspace

variable {db : Keyspace} {n : ℕ} {key : String} {v : Option String}

/-- **Optimistic locking.** A guard survives every write: a write to the key itself makes the
session dirty, any other write leaves the key alone. -/
theorem Guards.write (h : db.Guards n key v) (k : String) (e : Option Entry) :
    (db.write k e).Guards n key v := by
  refine ⟨by simpa using h.watched, fun hclean => ?_⟩
  by_cases hk : key = k
  · subst hk
    rw [write_sessions_dirty_of_mem db e h.watched] at hclean
    cases hclean
  · rw [write_textAt_of_ne db e hk]
    refine h.clean ?_
    by_contra hdirty
    rw [write_sessions_dirty_of_dirty db k e (by simpa using hdirty)] at hclean
    cases hclean

/-- A guard only depends on the session and the text of the key. -/
theorem Guards.congr {db' : Keyspace} (h : db.Guards n key v)
    (hs : db'.sessions n = db.sessions n) (ht : db'.textAt key = db.textAt key) :
    db'.Guards n key v :=
  ⟨hs ▸ h.watched, fun hclean => ht ▸ h.clean (hs ▸ hclean)⟩

/-- A guard carries over to a session that watches at least as much and is at least as
dirty. -/
theorem Guards.setSession (h : db.Guards n key v) {s : Session}
    (hw : key ∈ s.watched) (hd : s.dirty = (db.sessions n).dirty) :
    (db.setSession n s).Guards n key v :=
  ⟨by simpa using hw, fun hclean => h.clean (by simpa [hd] using hclean)⟩

theorem setEx_cases (db : Keyspace) (key : String) (ttl : UInt64) (text : String) :
    (ValidTtl ttl ∧ db.setEx key ttl text = (db.write key (some ⟨text, some ttl.toNat⟩), .ok ())) ∨
      (¬ValidTtl ttl ∧ ∃ e, db.setEx key ttl text = (db, .error e)) := by
  rw [setEx]
  split_ifs with h
  · exact .inl ⟨h, rfl⟩
  · exact .inr ⟨h, _, rfl⟩

/-- What the rest of the server does to session `n`: it may make it dirty, but its transaction
stays as it is and its guards hold. -/
structure Undisturbed (n : ℕ) (db db' : Keyspace) : Prop where
  watched : (db'.sessions n).watched = (db.sessions n).watched
  inMulti : (db'.sessions n).inMulti = (db.sessions n).inMulti
  queue : (db'.sessions n).queue = (db.sessions n).queue
  guards : ∀ {key v}, db.Guards n key v → db'.Guards n key v

namespace Undisturbed

variable {db' db'' : Keyspace}

theorem refl (n : ℕ) (db : Keyspace) : Undisturbed n db db := ⟨rfl, rfl, rfl, id⟩

theorem trans (h : Undisturbed n db db') (h' : Undisturbed n db' db'') :
    Undisturbed n db db'' :=
  ⟨h'.watched.trans h.watched, h'.inMulti.trans h.inMulti, h'.queue.trans h.queue,
    fun hg => h'.guards (h.guards hg)⟩

theorem write (n : ℕ) (db : Keyspace) (key : String) (e : Option Entry) :
    Undisturbed n db (db.write key e) :=
  ⟨by simp, by simp, by simp, fun hg => hg.write key e⟩

theorem setSession {m : ℕ} (h : n ≠ m) (db : Keyspace) (s : Session) :
    Undisturbed n db (db.setSession m s) := by
  have hsession := setSession_sessions_of_ne db s h
  exact ⟨by rw [hsession], by rw [hsession], by rw [hsession], fun hg => hg.congr hsession rfl⟩

theorem setEx (n : ℕ) (db : Keyspace) (key : String) (ttl : UInt64) (text : String) :
    Undisturbed n db (db.setEx key ttl text).1 := by
  rcases setEx_cases db key ttl text with ⟨-, h⟩ | ⟨-, e, h⟩ <;> rw [h]
  · exact write n db key _
  · exact refl n db

theorem del (n : ℕ) (db : Keyspace) (key : String) : Undisturbed n db (db.del key) := by
  rw [Keyspace.del]
  split
  · exact write n db key none
  · exact refl n db

theorem expire {key : String} (h : db.expire key = some db') (n : ℕ) :
    Undisturbed n db db' :=
  expire_eq_some h ▸ write n db key none

theorem age {key : String} {seconds : ℕ} (h : db.age key seconds = some db') (n : ℕ) :
    Undisturbed n db db' := by
  have hsessions : db'.sessions n = db.sessions n := by rw [age_sessions h]
  exact ⟨by rw [hsessions], by rw [hsessions], by rw [hsessions],
    fun hg => hg.congr hsessions (age_textAt h _)⟩

theorem runQueue (n : ℕ) (db : Keyspace) (queue : List Queued) :
    Undisturbed n db (db.runQueue queue).1 := by
  induction queue generalizing db with
  | nil => exact refl n db
  | cons q queue ih =>
    cases q with
    | setEx key ttl text =>
      rw [Keyspace.runQueue]
      exact (setEx n db key ttl text).trans (ih _)
    | read => exact ih db

/-- A command of one connection does not disturb another session. -/
theorem run {m : ℕ} (h : n ≠ m) (db : Keyspace) (c : TxCmd) :
    Undisturbed n db (c.run db m).1 := by
  have hset : ∀ s, Undisturbed n db (db.setSession m s) := setSession h db
  cases c <;> simp only [TxCmd.run] <;> split_ifs <;>
    first
      | exact hset _
      | exact refl n db
      | exact setEx n db _ _ _
      | exact (hset _).trans (runQueue n _ _)

end Undisturbed

/-! ### Keys with an expiry -/

/-- Every key of a kind that is there has an expiry, and one that `SETEX` can give. -/
def Expiring (K : String → Prop) (db : Keyspace) : Prop :=
  ∀ key e, K key → db.strings key = some e → ∃ n, e.ttl = some n ∧ n ≤ maxTtl

namespace Expiring

variable {K : String → Prop} {db' : Keyspace}

theorem congr (h : Expiring K db) (hstrings : db'.strings = db.strings) : Expiring K db' := by
  intro key e hkey he
  exact h key e hkey (hstrings ▸ he)

theorem write (h : Expiring K db) {key : String} {e : Option Entry}
    (he : ∀ x, K key → e = some x → ∃ n, x.ttl = some n ∧ n ≤ maxTtl) :
    Expiring K (db.write key e) := by
  intro k x hk hx
  by_cases hkey : k = key
  · subst hkey
    rw [write_strings_self] at hx
    exact he x hk hx
  · rw [write_strings_of_ne db e hkey] at hx
    exact h k x hk hx

theorem setEx (h : Expiring K db) (key : String) (ttl : UInt64) (text : String) :
    Expiring K (db.setEx key ttl text).1 := by
  rcases setEx_cases db key ttl text with ⟨hvalid, hset⟩ | ⟨-, e, hset⟩ <;> rw [hset]
  · refine h.write fun x _ hx => ?_
    obtain rfl := Option.some.inj hx
    exact ⟨ttl.toNat, rfl, hvalid.2⟩
  · exact h

theorem del (h : Expiring K db) (key : String) : Expiring K (db.del key) := by
  rw [Keyspace.del]
  split
  · exact h.write nofun
  · exact h

theorem expire (h : Expiring K db) {key : String} (hdb : db.expire key = some db') :
    Expiring K db' :=
  expire_eq_some hdb ▸ h.write nofun

theorem age (h : Expiring K db) {key : String} {seconds : ℕ}
    (hdb : db.age key seconds = some db') : Expiring K db' := by
  rw [Keyspace.age] at hdb
  split at hdb
  · rename_i text m hkey
    split_ifs at hdb with hle
    obtain rfl := Option.some.inj hdb
    intro k e hk he
    by_cases hsame : k = key
    · subst hsame
      obtain ⟨n, hn, hmax⟩ := h k _ hk hkey
      obtain rfl : e = ⟨text, some seconds⟩ := by simpa using he.symm
      obtain rfl : m = n := Option.some.inj hn
      exact ⟨seconds, rfl, Nat.le_trans hle hmax⟩
    · exact h k e hk (by simpa [hsame] using he)
  · cases hdb

theorem runQueue (h : Expiring K db) (queue : List Queued) :
    Expiring K (db.runQueue queue).1 := by
  induction queue generalizing db with
  | nil => exact h
  | cons q queue ih =>
    cases q with
    | setEx key ttl text =>
      rw [Keyspace.runQueue]
      exact ih (h.setEx key ttl text)
    | read => exact ih h

/-- No command of a transaction connection stores a key without expiry. -/
theorem run (h : Expiring K db) (n : ℕ) (c : TxCmd) : Expiring K (c.run db n).1 := by
  have hset : ∀ s, Expiring K (db.setSession n s) := fun s => h.congr rfl
  cases c <;> simp only [TxCmd.run] <;> split_ifs <;>
    first
      | exact hset _
      | exact h
      | exact h.setEx _ _ _
      | exact (hset _).runQueue _

/-- What `TTL` reports on such a key. -/
theorem ttlReply (h : Expiring K db) {key : String} (hkey : K key) :
    db.ttlReply key ≤ maxTtl ∧ (db.ttlReply key < 0 → db.textAt key = none) := by
  rcases he : db.strings key with _ | ⟨text, ttl⟩
  · simp [Keyspace.ttlReply, he, textAt]
  · obtain ⟨n, hn, hmax⟩ := h key _ hkey he
    obtain rfl : ttl = some n := hn
    simp only [Keyspace.ttlReply, he]
    exact ⟨by exact_mod_cast hmax, fun hneg => absurd hneg (by omega)⟩

end Expiring

end Keyspace

end Redis
