import ResponsesApiStore.Core.Model
import ResponsesApiStore.Redis.Stream
import ResponsesApiStore.Interaction.Ensures
import ResponsesApiStore.Interaction.Transcript

/-!
# The commands of the store

What the server code awaits, as a command signature: the requests it sends to Redis over its
connections, the mutex around the transaction connection, and the clock. A procedure of the
store is a fallible program over this signature, `Act`; `storage` sends a request and turns a
failed one into `StoreError.storage`, which is what `.map_err(StoreError::Storage)?` does.

The connections matter: `get`, `setEx` and `del` go over the shared multiplexed connection,
where nothing is left behind between two commands; `tx` goes over the one transaction
connection of the server process, whose session on the Redis side is state that outlives the
procedure that sent the command. `connect` opens a connection and `install` makes it the
transaction connection.
-/

namespace ResponsesApiStore

open Redis (Error TxCmd StreamCmd)
open Interaction (Signature Program)

/-- What the code learns about the Redis server. -/
structure RedisCapabilities where
  version : String
  lagSupported : Bool
  exclusiveRangeSupported : Bool
  deriving DecidableEq, Repr

/-- The commands. -/
inductive Cmd
  | get (key : String)
  | setEx (key : String) (ttl : UInt64) (text : String)
  | del (key : String)
  | ping
  | tx (c : TxCmd)
  | lock
  | unlock
  | connect
  | install
  | now
  | sleep
  | capabilities
  | openBlocking
  | getCursor (key : String)
  | cursorScript (key cursor : String)
  | stream (c : StreamCmd)
  deriving DecidableEq

/-- The reply of each command. -/
@[reducible]
def Cmd.Reply : Cmd → Type
  | .get _ | .getCursor _ => Except Error (Option String)
  | .setEx .. | .del _ | .ping | .connect | .openBlocking | .cursorScript .. => Except Error Unit
  | .tx c => c.Reply
  | .lock | .unlock | .install | .sleep => Unit
  | .now => Int64
  | .capabilities => Except Error RedisCapabilities
  | .stream c => c.Reply

/-- The signature of the store. -/
abbrev sig : Signature := ⟨Cmd, Cmd.Reply⟩

/-- A fallible procedure of the store. -/
abbrev Act (α : Type) : Type := ExceptT Fault (Program sig) α

variable {α : Type}

/-- Issue a command and wait for its reply. -/
def send (c : Cmd) : Program sig c.Reply := Program.call (S := sig) c

/-- Issue a command that cannot fail. -/
def ask (c : Cmd) : Act c.Reply := ExceptT.lift (send c)

/-- A storage error of the code. -/
def storageFault (err : Error) : Fault := .error (.storage err)

/-- Issue a request, a failed one becoming a storage error. -/
def storage (p : Program sig (Except Error α)) : Act α :=
  ExceptT.mk (p >>= fun reply => pure (reply.mapError storageFault))

/-- Issue a request and ignore what comes back. -/
def ignore (p : Program sig (Except Error α)) : Act Unit :=
  ExceptT.lift (p >>= fun _ => pure ())

/-- Fail with an error of the code. -/
def raise (err : StoreError) : Act α := throw (.error err)

/-- A pure computation that may fail. -/
def ofExcept (x : Except Fault α) : Act α := ExceptT.mk (pure x)

/-- Run a procedure and look at its outcome. -/
def outcome (p : Act α) : Act (Except Fault α) := ExceptT.lift p.run

theorem mapError_eq_ok_iff {ε ε' : Type} {f : ε → ε'} {x : Except ε α} {a : α} :
    x.mapError f = .ok a ↔ x = .ok a := by
  cases x <;> simp [Except.mapError]

theorem bind_eq_ok_iff {ε β : Type} {x : Except ε α} {f : α → Except ε β} {b : β} :
    x >>= f = .ok b ↔ ∃ a, x = .ok a ∧ f a = .ok b := by
  rcases x with e | a
  · constructor
    · intro h
      cases h
    · rintro ⟨a, ⟨⟩, -⟩
  · constructor
    · exact fun h => ⟨a, rfl, h⟩
    · rintro ⟨a', ⟨⟩, hb⟩
      exact hb

theorem bind_eq_error {ε β : Type} {x : Except ε α} {f : α → Except ε β} {e : ε}
    (h : x >>= f = .error e) : x = .error e ∨ ∃ a, x = .ok a ∧ f a = .error e := by
  rcases x with e' | a
  · exact .inl (congrArg Except.error (Except.error.inj h))
  · exact .inr ⟨a, rfl, h⟩

/-! ### Conformance of the combinators -/

section Follows

open Interaction.Program

variable {G : Type} {P : Interaction.Protocol sig G} {g : G}

theorem follows_lift {p : Program sig α} {post : G → Except Fault α → Prop} :
    (ExceptT.lift p : Act α).run.Follows P post g ↔ p.Follows P (fun g a => post g (.ok a)) g := by
  simp only [ExceptT.run_lift, ← bind_pure_comp, follows_bind_iff, follows_pure]

@[simp]
theorem follows_storage {p : Program sig (Except Error α)} {post : G → Except Fault α → Prop} :
    (storage p).run.Follows P post g ↔
      p.Follows P (fun g r => post g (r.mapError storageFault)) g := by
  simp only [storage, ExceptT.run_mk, follows_bind_iff, follows_pure]

@[simp]
theorem follows_ignore {p : Program sig (Except Error α)} {post : G → Except Fault Unit → Prop} :
    (ignore p).run.Follows P post g ↔ p.Follows P (fun g _ => post g (.ok ())) g := by
  simp only [ignore, follows_lift, follows_bind_iff, follows_pure]

@[simp]
theorem follows_raise {err : StoreError} {post : G → Except Fault α → Prop} :
    (raise err : Act α).run.Follows P post g ↔ post g (.error (.error err)) := Iff.rfl

@[simp]
theorem follows_throw {fault : Fault} {post : G → Except Fault α → Prop} :
    (throw fault : Act α).run.Follows P post g ↔ post g (.error fault) := Iff.rfl

@[simp]
theorem follows_ofExcept {x : Except Fault α} {post : G → Except Fault α → Prop} :
    (ofExcept x).run.Follows P post g ↔ post g x := Iff.rfl

@[simp]
theorem follows_return {a : α} {post : G → Except Fault α → Prop} :
    (pure a : Act α).run.Follows P post g ↔ post g (.ok a) := Iff.rfl

@[simp]
theorem follows_outcome {p : Act α} {post : G → Except Fault (Except Fault α) → Prop} :
    (outcome p).run.Follows P post g ↔ p.run.Follows P (fun g r => post g (.ok r)) g :=
  follows_lift

theorem safe_storage {p : Program sig (Except Error α)} (hp : Safe P p) :
    Safe P (storage p).run := fun g => follows_storage.mpr (hp g)

theorem safe_ignore {p : Program sig (Except Error α)} (hp : Safe P p) : Safe P (ignore p).run :=
  fun g => follows_ignore.mpr (hp g)

theorem safe_ask {c : Cmd} (hfree : ∀ g, P.allowed g c) : Safe P (ask c).run := fun g =>
  follows_lift.mpr (safe_call hfree g)

theorem safe_outcome {p : Act α} (hp : Safe P p.run) : Safe P (outcome p).run := fun g =>
  follows_outcome.mpr (hp g)

end Follows

/-! ### Total correctness of the combinators -/

section Ensures

open Interaction.Program

variable {State : Type} {ans : State → (c : Cmd) → State → c.Reply → Prop} {s : State}

theorem ensures_lift {p : Program sig α} {post : State → Except Fault α → Prop} :
    (ExceptT.lift p : Act α).run.Ensures ans post s ↔
      p.Ensures ans (fun s a => post s (.ok a)) s := by
  simp only [ExceptT.run_lift, ← bind_pure_comp, ensures_bind_iff, ensures_pure]

theorem ensures_ask {c : Cmd} {post : State → Except Fault c.Reply → Prop} :
    (ask c).run.Ensures ans post s ↔
      (∃ s' r, ans s c s' r) ∧ ∀ s' r, ans s c s' r → post s' (.ok r) :=
  ensures_lift

theorem ensures_storage {p : Program sig (Except Error α)} {post : State → Except Fault α → Prop} :
    (storage p).run.Ensures ans post s ↔
      p.Ensures ans (fun s r => post s (r.mapError storageFault)) s := by
  simp only [storage, ExceptT.run_mk, ensures_bind_iff, ensures_pure]

theorem ensures_ignore {p : Program sig (Except Error α)}
    {post : State → Except Fault Unit → Prop} :
    (ignore p).run.Ensures ans post s ↔ p.Ensures ans (fun s _ => post s (.ok ())) s := by
  simp only [ignore, ensures_lift, ensures_bind_iff, ensures_pure]

theorem ensures_outcome {p : Act α} {post : State → Except Fault (Except Fault α) → Prop} :
    (outcome p).run.Ensures ans post s ↔ p.run.Ensures ans (fun s r => post s (.ok r)) s :=
  ensures_lift

end Ensures

/-! ### Transcripts of the combinators -/

section Returns

open Interaction.Program

variable {es : List sig.Exchange}

theorem returns_lift {p : Program sig α} {x : Except Fault α} :
    (ExceptT.lift p : Act α).run.Returns es x ↔ ∃ a, p.Returns es a ∧ x = .ok a := by
  simp only [ExceptT.run_lift, ← bind_pure_comp, returns_bind_iff, returns_pure]
  constructor
  · rintro ⟨es₁, _, a, rfl, h, rfl, rfl⟩
    exact ⟨a, by rwa [List.append_nil], rfl⟩
  · rintro ⟨a, h, rfl⟩
    exact ⟨es, [], a, (List.append_nil es).symm, h, rfl, rfl⟩

theorem returns_storage {p : Program sig (Except Error α)} {x : Except Fault α} :
    (storage p).run.Returns es x ↔ ∃ r, p.Returns es r ∧ x = r.mapError storageFault := by
  simp only [storage, ExceptT.run_mk, returns_bind_iff, returns_pure]
  constructor
  · rintro ⟨es₁, _, r, rfl, h, rfl, rfl⟩
    exact ⟨r, by rwa [List.append_nil], rfl⟩
  · rintro ⟨r, h, rfl⟩
    exact ⟨es, [], r, (List.append_nil es).symm, h, rfl, rfl⟩

theorem returns_outcome {p : Act α} {x : Except Fault (Except Fault α)} :
    (outcome p).run.Returns es x ↔ ∃ r, p.run.Returns es r ∧ x = .ok r :=
  returns_lift

/-- Running a procedure and going on with its outcome. -/
theorem returns_outcome_bind_iff {β : Type} {p : Act α} {f : Except Fault α → Act β}
    {x : Except Fault β} :
    (outcome p >>= f).run.Returns es x ↔
      ∃ es₁ es₂ r, es = es₁ ++ es₂ ∧ p.run.Returns es₁ r ∧ (f r).run.Returns es₂ x := by
  simp only [returns_except_bind_iff, returns_outcome]
  constructor
  · rintro (⟨es₁, es₂, r, rfl, ⟨r', h, heq⟩, hrest⟩ | ⟨e, ⟨r', h, heq⟩, rfl⟩)
    · obtain rfl := Except.ok.inj heq
      exact ⟨es₁, es₂, r, rfl, h, hrest⟩
    · cases heq
  · rintro ⟨es₁, es₂, r, rfl, h, hrest⟩
    exact .inl ⟨es₁, es₂, r, rfl, ⟨r, h, rfl⟩, hrest⟩

theorem returns_return {a : α} {x : Except Fault α} :
    (pure a : Act α).run.Returns es x ↔ es = [] ∧ x = .ok a := returns_ret

theorem returns_throw {fault : Fault} {x : Except Fault α} :
    (throw fault : Act α).run.Returns es x ↔ es = [] ∧ x = .error fault := returns_ret

theorem returns_ofExcept {y x : Except Fault α} :
    (ofExcept y).run.Returns es x ↔ es = [] ∧ x = y := returns_ret

end Returns

end ResponsesApiStore
