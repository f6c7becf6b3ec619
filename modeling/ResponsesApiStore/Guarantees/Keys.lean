import ResponsesApiStore.System.Execution
import ResponsesApiStore.System.OneKeyspace

/-!
# The keys of records, stream and cursors

All keys are built by concatenation: a record is kept under the key prefix and the response id,
the cursor of a group under the stream key and the name of the group. So records and queue state
share a key for some id or group if, and only if, one of the two constant parts begins with the
other (`KeysApart`); the configuration is not checked for that. Under a configuration that keeps
them apart, the default among them, a request that writes or deletes a record can touch neither
the stream, nor a cursor, nor another record (`records_apart`).
-/

namespace ResponsesApiStore

open Json (Serde)
open Interaction (Machine Program)

variable {N : Type}

/-! ### The keys that requests write -/

/-- The key whose value a command replaces or deletes, of whatever type it is. -/
def Cmd.overwrites : Cmd → Option String
  | .setEx key .. | .del key | .tx (.setEx key ..) => some key
  | _ => none

section Requests

variable {cfg : StoreConfig} {S : Serde N} {request : Request} {g : Knowledge} {key : String}

theorem ClientWrite.key_eq {now : Option Int64} {record : StoredResponse N}
    (h : ClientWrite cfg S request now key record) :
    ∃ id, addressedTo request = some id ∧ key = ResponseStore.key cfg id := by
  cases h with
  | store hrecord | update hrecord | enqueue hrecord =>
    exact ⟨_, by rw [addressedTo, hrecord]; rfl, rfl⟩

/-- A request replaces or deletes only the record it is addressed to. -/
theorem Allowed.overwrites {c : Cmd} (h : Allowed cfg S request g c)
    (hc : c.overwrites = some key) :
    ∃ id, addressedTo request = some id ∧ key = ResponseStore.key cfg id := by
  obtain ⟨-, h⟩ := h
  cases c with
  | setEx key' ttl payload =>
    obtain rfl := Option.some.inj hc
    obtain ⟨-, record, -, hwrites⟩ := h
    cases hwrites with
    | client hwrite => exact hwrite.key_eq
    | @tombstone id => exact ⟨id, rfl, rfl⟩
  | del key' =>
    obtain rfl := Option.some.inj hc
    obtain ⟨-, id, rfl, hkey, -⟩ := h
    exact ⟨id, rfl, hkey⟩
  | tx c =>
    cases c with
    | setEx key' ttl payload =>
      obtain rfl := Option.some.inj hc
      obtain ⟨-, v, -, htransition⟩ := h
      exact htransition.key_eq
    | _ => cases hc
  | _ => cases hc

end Requests

/-- **Records and queue state live apart.**

* Distinct ids have distinct record keys, distinct groups distinct cursor keys.
* No record key is the stream key or a cursor key exactly if neither of the constant parts of
  record keys and cursor keys begins with the other.
* Under such a configuration, in every run, a command that replaces or deletes the value at a key
  does so at the record key of the response its request is addressed to, which is neither the
  stream key, nor a cursor key, nor the record key of another response. -/
theorem records_apart (cfg : StoreConfig) :
    (∀ id id', ResponseStore.key cfg id = ResponseStore.key cfg id' ↔ id = id') ∧
    (∀ group group', autoclaimCursorKey cfg.streamKey group =
      autoclaimCursorKey cfg.streamKey group' ↔ group = group') ∧
    (((∀ id, id ≠ "" → ResponseStore.key cfg id ≠ cfg.streamKey) ∧
      ∀ id group, id ≠ "" → group ≠ "" →
        ResponseStore.key cfg id ≠ autoclaimCursorKey cfg.streamKey group) ↔ KeysApart cfg) ∧
    (KeysApart cfg → ∀ (N : Type) [DecidableEq N] (S : Serde N) (fuel : ℕ) (w₀ w : DWorld)
      (ls : List DLabel) (i : ℕ) (t : DTask) (c : Cmd) (k : c.Reply → Program sig RpcResult)
      (key : String), Initial w₀ → (deployment cfg S fuel).Run w₀ ls w → w.tasks i = some t →
      t.prog = .cmd c k → c.overwrites = some key →
      ∃ id, addressedTo t.call.request = some id ∧ key = ResponseStore.key cfg id ∧
        key ≠ cfg.streamKey ∧ (∀ group, key ≠ autoclaimCursorKey cfg.streamKey group) ∧
        ∀ id', id' ≠ id → key ≠ ResponseStore.key cfg id') := by
  refine ⟨fun _ _ => responseStoreKey_inj, fun _ _ => autoclaimCursorKey_inj, ⟨?_, ?_⟩, ?_⟩
  · exact fun h => keysApart_of_ne h.2
  · exact fun h =>
      ⟨fun id _ => h.key_ne_streamKey id, fun id group _ _ => h.key_ne_cursorKey id group⟩
  · intro h N _ S fuel w₀ w ls i t c k key hw hrun htask hprog hc
    obtain ⟨id, hid, rfl⟩ := ((sound_of_run hw hrun).allowed_of_prog htask hprog).overwrites hc
    refine ⟨id, hid, rfl, h.key_ne_streamKey id, h.key_ne_cursorKey id, fun id' hne heq => ?_⟩
    exact hne (responseStoreKey_inj.mp heq).symm

section Runs

open Sample

set_option maxRecDepth 100000 in
/-- A record is about to be stored. -/
def storeQueued : machine.Recording (fun _ _ => true) (start none) (fun w =>
    awaits w 1 = some (.setEx key 86400 queuedText)) :=
  ⟨call 1 (.storeResponse (some queuedRecord) 0) 0, by decide +kernel⟩

/-- Under the default configuration a store touches nothing but its record. -/
theorem records_apart_default : KeysApart config ∧ ∃ w t,
    machine.Run (start none) (call 1 (.storeResponse (some queuedRecord) 0) 0) w ∧
    w.tasks 1 = some t ∧ key ≠ config.streamKey ∧
    ∀ group, key ≠ autoclaimCursorKey config.streamKey group := by
  have hapart : KeysApart config := keysApart_config
  obtain ⟨w, hrun, hawaits⟩ := storeQueued.exists_run
  obtain ⟨t, k, htask, -, hprog⟩ := awaits_eq_some hawaits
  have hkey : (Cmd.setEx key 86400 queuedText).overwrites = some key := rfl
  obtain ⟨id, -, -, hstream, hcursor, -⟩ := (records_apart config).2.2.2 hapart Int64 serde 8 _ w
    _ 1 t _ k key (initial_start none) hrun htask hprog hkey
  exact ⟨hapart, w, t, hrun, htask, hstream, hcursor⟩

/-- **A record key that is the stream key.** The configuration is accepted. -/
theorem record_key_is_streamKey :
    ¬∀ (cfg : StoreConfig) (id : String), cfg.validate = .ok () → id ≠ "" →
      ResponseStore.key cfg id ≠ cfg.streamKey := by
  intro hclaim
  exact hclaim ⟨"jobs", 60, "jobs:queue", 60, 0⟩ "queue" (by decide) (by decide) (by decide)

end Runs

end ResponsesApiStore
