import ResponsesApiStore.System.Locking
import ResponsesApiStore.Core.Lifecycle

/-!
# What happens to a key

Every step of the deployment, seen from one key. A step *commits* when it executes the `EXEC`
of a task on a clean transaction whose one write is accepted; `Change` lists the reasons for
which the text of a key can be another one after a step, each with what is known about the
task behind it. `Sound.change` says that the list is complete: in particular nothing is ever
written through a transaction connection except by a commit, and a commit replaces the very
text its transition was computed from.
-/

namespace ResponsesApiStore

open Json (Serde)
open Redis (Error Keyspace TxCmd)
open Redis.Keyspace (ValidTtl)
open Interaction (Machine World Label)

variable {N : Type}

/-! ### Commands that run -/

/-- Step `l` is the one at which task `i` has its command `c` executed. -/
structure Runs (w : DWorld) (l : DLabel) (i : ℕ) (t : DTask) (c : Cmd) : Prop where
  task : w.tasks i = some t
  live : t.live = true
  prog : ∃ k, t.prog = .cmd c k
  label : ∃ choice, l = .act i choice ∧ choice.delivery.ran = true

/-- The transaction open on the connection of a task is clean. -/
def Clean (w : DWorld) (t : DTask) : Prop :=
  (w.shared.db.sessions t.call.server).inMulti = true ∧
    (w.shared.db.sessions t.call.server).dirty = false

/-- **Commits.** Step `l` executes the `EXEC` of task `i`, the transaction is clean, and its
one write stores `payload` at `key`. -/
structure Commits (w : DWorld) (l : DLabel) (i : ℕ) (t : DTask) (key payload : String) : Prop where
  runs : Runs w l i t (.tx .exec)
  clean : Clean w t
  queue : ∃ ttl, ValidTtl ttl ∧
    (w.shared.db.sessions t.call.server).queue = [.setEx key ttl payload]

/-- Step `l` stores `payload` at `key` on the shared connection, for task `i`. -/
structure Stores (w : DWorld) (l : DLabel) (i : ℕ) (t : DTask) (key payload : String) : Prop where
  runs : ∃ ttl, ValidTtl ttl ∧ Runs w l i t (.setEx key ttl payload)

/-- The response a request is addressed to. -/
def addressedTo : Request → Option String
  | .storeResponse record _ | .updateResponse record _ | .enqueueBackgroundJob record =>
    (requireRecord record).toOption.map ProtoStoredResponse.responseId
  | .getResponse id _ | .deleteResponse id | .claimBackgroundResponse id
  | .completeBackgroundResponse id _ | .failBackgroundResponse id _
  | .reconcileStaleResponse id _ => some id
  | _ => none

/-- A transition is a move of the lifecycle on the record read. -/
theorem Transition.moves {cfg : StoreConfig} {S : Serde N} {request : Request}
    {now : Option Int64} {key v payload : String}
    (h : Transition cfg S request now key v payload) :
    ∃ stored updated : StoredResponse N, StoredResponse.ofText S v = .ok stored ∧
      updated.toText S = .ok payload ∧ Moves stored updated := by
  cases h with
  | @claim _ _ _ _ stored updated result hv hprepare hpayload =>
    obtain ⟨hfrom, hpending, hto, hrequest, hauth, -, -⟩ := prepareClaimBackground_eq_ok hprepare
    exact ⟨stored, updated, hv, hpayload, .claims hfrom (by simp [hpending]) hto hrequest hauth⟩
  | @complete _ _ _ _ _ _ stored updated hjson hv hprepare hpayload =>
    obtain ⟨hfrom, hto, hrequest, hauth⟩ := prepareCompleteBackground_eq_ok hprepare
    exact ⟨stored, updated, hv, hpayload, .completes hfrom hto hrequest hauth⟩
  | @fail _ _ _ _ _ stored updated hv hprepare hpayload =>
    obtain ⟨hfrom, hto, hrequest, hauth⟩ := prepareFailBackground_eq_ok hprepare
    exact ⟨stored, updated, hv, hpayload, .fails hfrom hto hrequest hauth⟩
  | @stale _ id _ _ _ _ stored hrequest hv hqueued hstale hpayload =>
    have hfrom : storedResponseStatus stored = some "queued" := by
      simp only [shouldReconcileStale, Bool.and_eq_true, decide_eq_true_eq] at hqueued
      exact hqueued.2
    exact ⟨stored, applyStaleFailure stored id, hv, hpayload,
      .fails (.inl hfrom) (storedResponseStatus_applyStaleFailure stored id) rfl rfl⟩

/-- A transition is about the response its request is addressed to. -/
theorem Transition.key_eq {cfg : StoreConfig} {S : Serde N} {request : Request}
    {now : Option Int64} {key v payload : String}
    (h : Transition cfg S request now key v payload) :
    ∃ id, addressedTo request = some id ∧ key = ResponseStore.key cfg id := by
  cases h with
  | claim | complete | fail => exact ⟨_, rfl, rfl⟩
  | @stale _ id _ _ _ staleSeconds _ hrequest =>
    refine ⟨id, ?_, rfl⟩
    cases request with
    | getResponse id' reconcileStale =>
      cases reconcileStale with
      | false => cases hrequest
      | true => exact congrArg (Option.map Prod.fst) hrequest
    | reconcileStaleResponse id' seconds => exact congrArg (Option.map Prod.fst) hrequest
    | _ => cases hrequest

section Change

variable (cfg : StoreConfig) (S : Serde N)

/-- **The reasons for a change.** `Change w l key text`: step `l` leaves `text` at `key`,
because a transition was committed, a client's record or a tombstone was stored, the key was
deleted or expired, or somebody else wrote it. -/
inductive Change (w : DWorld) (l : DLabel) (key : String) : Option String → Prop
  | transition {i : ℕ} {t : DTask} {v payload : String} (hcommits : Commits w l i t key payload)
      (hv : w.shared.textAt key = some v)
      (htransition : Transition cfg S t.call.request (knowledge t).now key v payload) :
      Change w l key (some payload)
  | stored {i : ℕ} {t : DTask} {record : StoredResponse N} {payload : String}
      (hstores : Stores w l i t key payload) (hpayload : record.toText S = .ok payload)
      (hwrites : Writes cfg S (knowledge t) t.call.request key record) :
      Change w l key (some payload)
  | removed {i : ℕ} {t : DTask} {id : String} (hruns : Runs w l i t (.del key))
      (hrequest : t.call.request = .deleteResponse id) (hkey : key = ResponseStore.key cfg id) :
      Change w l key none
  | expired (hlabel : l = .env (.expire key)) : Change w l key none
  | foreignSet {entry : Redis.Entry} (hlabel : l = .env (.foreignSet key entry)) :
      Change w l key (some entry.text)
  | foreignDel (hlabel : l = .env (.foreignDel key)) : Change w l key none

end Change

/-- A write on the shared connection is a client's or a tombstone. -/
theorem Writes.client_or_tombstone {cfg : StoreConfig} {S : Serde N} {g : Knowledge}
    {request : Request} {key : String} {record : StoredResponse N}
    (h : Writes cfg S g request key record) :
    ClientWrite cfg S request g.now key record ∨
      ∃ id stored, request = .deleteResponse id ∧ key = ResponseStore.key cfg id ∧
        record = tombstoneOf stored id := by
  cases h with
  | client hwrite => exact .inl hwrite
  | @tombstone id stored => exact .inr ⟨id, stored, rfl, rfl, rfl⟩

/-- The requests that carry a record to store. -/
theorem ClientWrite.request_cases {cfg : StoreConfig} {S : Serde N} {now : Option Int64}
    {request : Request} {key : String} {record : StoredResponse N}
    (h : ClientWrite cfg S request now key record) :
    (∃ p ttl, request = .storeResponse p ttl) ∨ (∃ p ttl, request = .updateResponse p ttl) ∨
      ∃ p, request = .enqueueBackgroundJob p := by
  cases h with
  | store => exact .inl ⟨_, _, rfl⟩
  | update => exact .inr (.inl ⟨_, _, rfl⟩)
  | enqueue => exact .inr (.inr ⟨_, rfl⟩)

/-- Step `l` stores the record of a client's request at `key`. -/
def ClientStores (cfg : StoreConfig) (S : Serde N) (w : DWorld) (l : DLabel) (key : String)
    (record : StoredResponse N) : Prop :=
  ∃ i t payload, Stores w l i t key payload ∧ record.toText S = .ok payload ∧
    ClientWrite cfg S t.call.request (knowledge t).now key record

/-- Somebody else than the servers writes or deletes `key`. -/
def Foreign (key : String) (l : DLabel) : Prop :=
  (∃ entry, l = .env (.foreignSet key entry)) ∨ l = .env (.foreignDel key)

/-- No client and nobody outside writes the key at this step. -/
def NoClientWrite (cfg : StoreConfig) (S : Serde N) (key : String) (w : DWorld) (l : DLabel) :
    Prop :=
  (∀ record, ¬ClientStores cfg S w l key record) ∧ ¬Foreign key l

/-- Step `l` is a command of a task that deletes the response `id`. -/
def DeletesId (w : DWorld) (l : DLabel) (id : String) : Prop :=
  ∃ i t choice, l = .act i choice ∧ w.tasks i = some t ∧ t.call.request = .deleteResponse id

/-! ### Transaction commands write only by committing -/

variable {cfg : StoreConfig} {S : Serde N}

/-- What an allowed transaction command does to the keys when it runs: nothing, or the one
write of a clean transaction, which replaces the text its transition was computed from. -/
theorem Matches.run_strings {request : Request} {n : ℕ} {g : Knowledge} {db : Keyspace}
    (h : Matches cfg S request n g db) {c : TxCmd} (hallowed : AllowedTx cfg S request g c) :
    ((c.run db n).1.strings = db.strings ∧ (c = .exec → (db.sessions n).dirty = true)) ∨
      (c = .exec ∧ (db.sessions n).inMulti = true ∧ (db.sessions n).dirty = false ∧
        ∃ key v ttl payload, (db.sessions n).queue = [.setEx key ttl payload] ∧
          db.textAt key = some v ∧ Transition cfg S request g.now key v payload ∧
          (c.run db n).1 = ((db.setSession n .fresh).setEx key ttl payload).1) := by
  cases c with
  | discard | watch key | get key | ttl key | unwatch | multi =>
    left
    refine ⟨?_, TxCmd.noConfusion⟩
    rw [TxCmd.run]
    split_ifs <;> rfl
  | setEx key ttl payload =>
    left
    have hmulti : (db.sessions n).inMulti = true := by
      rw [Matches, hallowed.1] at h
      exact h.1
    refine ⟨?_, TxCmd.noConfusion⟩
    rw [TxCmd.run, if_pos hmulti]
    rfl
  | exec =>
    obtain ⟨ttl, payload, hphase⟩ := hallowed
    rw [Matches, hphase] at h
    obtain ⟨hmulti, key, v, hseen, hqueue, hguards, htransition⟩ := h
    rcases hdirty : (db.sessions n).dirty with _ | _
    · right
      refine ⟨rfl, hmulti, rfl, key, v, ttl, payload, hqueue, hguards.clean hdirty, htransition, ?_⟩
      simp [TxCmd.run, hmulti, hdirty, hqueue, Keyspace.runQueue]
    · left
      refine ⟨?_, fun _ => rfl⟩
      rw [TxCmd.run, if_pos hmulti, if_pos hdirty]
      rfl

/-- The strings after a transaction command, whatever its fate. -/
theorem afterTx_strings (σ : Shared) (n : ℕ) (d : Delivery) (c : TxCmd) :
    (σ.afterTx n d c).db.strings =
      if d.ran then (c.run σ.db n).1.strings else σ.db.strings := by
  have hran : (σ.runIf d { σ with db := (c.run σ.db n).1 }).db.strings =
      if d.ran then (c.run σ.db n).1.strings else σ.db.strings := by
    rw [Shared.runIf]
    split_ifs <;> rfl
  rw [← hran, Shared.afterTx]
  split_ifs <;> rfl

/-- The text at a key only depends on the strings. -/
theorem textAt_congr {σ σ' : Shared} (h : σ'.db.strings = σ.db.strings) (key : String) :
    σ'.textAt key = σ.textAt key := by
  rw [Shared.textAt, Shared.textAt, Keyspace.textAt, Keyspace.textAt, h]

/-- An accepted write, seen from any key. -/
theorem textAt_write (db : Keyspace) (key k : String) (e : Option Redis.Entry) :
    ((db.write key e).textAt k = db.textAt k) ∨
      (k = key ∧ (db.write key e).textAt k = e.map Redis.Entry.text) := by
  by_cases hk : k = key
  · subst hk
    exact .inr ⟨rfl, db.write_textAt_self k e⟩
  · exact .inl (db.write_textAt_of_ne e hk)

/-- The next command of a task of a sound world is allowed. -/
theorem Sound.allowed {w : DWorld} (h : Sound cfg S w) {l : DLabel} {i : ℕ} {t : DTask} {c : Cmd}
    (hruns : Runs w l i t c) : Allowed cfg S t.call.request (knowledge t) c := by
  obtain ⟨k, hprog⟩ := hruns.prog
  exact h.allowed_of_prog hruns.task hprog

theorem Sound.allowedTx {w : DWorld} (h : Sound cfg S w) {l : DLabel} {i : ℕ} {t : DTask}
    {c : TxCmd} (hruns : Runs w l i t (.tx c)) :
    AllowedTx cfg S t.call.request (knowledge t) c :=
  (h.allowed hruns).2

/-- A move of the environment, seen from a key. -/
theorem env_change {w : DWorld} {e : Env} {σ : Shared} (h : w.shared.env e = some σ)
    (key : String) :
    σ.textAt key = w.shared.textAt key ∨ Change cfg S w (.env e) key (σ.textAt key) := by
  cases e with
  | expire k =>
    obtain ⟨db, hdb, rfl⟩ := Option.map_eq_some_iff.mp h
    obtain rfl := Keyspace.expire_eq_some hdb
    rcases textAt_write w.shared.db k key none with hsame | ⟨rfl, htext⟩
    · exact .inl hsame
    · right
      rw [Shared.textAt, htext]
      exact .expired rfl
  | age k seconds =>
    obtain ⟨db, hdb, rfl⟩ := Option.map_eq_some_iff.mp h
    exact .inl (Keyspace.age_textAt hdb key)
  | foreignSet k entry =>
    obtain rfl := Option.some.inj h
    rcases textAt_write w.shared.db k key (some entry) with hsame | ⟨rfl, htext⟩
    · exact .inl hsame
    · right
      rw [Shared.textAt, htext]
      exact .foreignSet rfl
  | foreignDel k =>
    obtain rfl := Option.some.inj h
    simp only [Shared.textAt, Keyspace.del]
    split
    · rcases textAt_write w.shared.db k key none with hsame | ⟨rfl, htext⟩
      · exact .inl hsame
      · right
        rw [htext]
        exact .foreignDel rfl
    · exact .inl rfl
  | clock now =>
    obtain rfl := Option.some.inj h
    exact .inl rfl

/-- A command of a task, seen from a key. -/
theorem Sound.act_change {w : DWorld} (h : Sound cfg S w) {i : ℕ} {t : DTask} {c : Cmd}
    {k : c.Reply → Interaction.Program sig RpcResult} {choice : Choice} {σ : Shared}
    (htask : w.tasks i = some t) (hlive : t.live = true) (hprog : t.prog = .cmd c k)
    (heffect : Effect w.shared i t.call.server choice.delivery c σ) (key : String) :
    σ.textAt key = w.shared.textAt key ∨ Change cfg S w (.act i choice) key (σ.textAt key) := by
  have hruns : choice.delivery.ran = true → Runs w (.act i choice) i t c := fun hran =>
    ⟨htask, hlive, ⟨k, hprog⟩, choice, rfl, hran⟩
  cases heffect with
  | plain hplain hdb hholder => exact .inl (textAt_congr (by rw [hdb]) key)
  | lock hfree => exact .inl rfl
  | unlock => exact .inl rfl
  | install => exact .inl rfl
  | @setEx key' payload ttl =>
    rw [Shared.runIf]
    split_ifs with hran
    · obtain ⟨-, -, record, hpayload, hwrites⟩ := h.allowed (hruns hran)
      rcases Keyspace.setEx_cases w.shared.db key' ttl payload with ⟨hvalid, hset⟩ | ⟨-, e, hset⟩
      · simp only [Shared.textAt, hset]
        rcases textAt_write w.shared.db key' key (some ⟨payload, some ttl.toNat⟩) with
          hsame | ⟨rfl, htext⟩
        · exact .inl hsame
        · right
          rw [htext]
          exact .stored ⟨ttl, hvalid, hruns hran⟩ hpayload hwrites
      · exact .inl (by simp only [Shared.textAt, hset])
    · exact .inl rfl
  | @del key' =>
    rw [Shared.runIf]
    split_ifs with hran
    · obtain ⟨-, -, id, hrequest, hkey, -⟩ := h.allowed (hruns hran)
      simp only [Shared.textAt, Keyspace.del]
      split
      · rcases textAt_write w.shared.db key' key none with hsame | ⟨rfl, htext⟩
        · exact .inl hsame
        · right
          rw [htext]
          exact .removed (hruns hran) hrequest hkey
      · exact .inl rfl
    · exact .inl rfl
  | @tx c =>
    have hstrings := afterTx_strings w.shared t.call.server choice.delivery c
    split_ifs at hstrings with hran
    · have hallowed := h.allowedTx (hruns hran)
      rcases (h.session i t htask hlive).run_strings hallowed with
        ⟨hsame, -⟩ | ⟨rfl, hmulti, hdirty, key', v, ttl, payload, hqueue, hv, htransition, hrun⟩
      · exact .inl (textAt_congr (hstrings.trans hsame) key)
      · rw [hrun] at hstrings
        rcases Keyspace.setEx_cases (w.shared.db.setSession t.call.server .fresh) key' ttl payload
          with ⟨hvalid, hset⟩ | ⟨-, e, hset⟩
        · rw [hset] at hstrings
          simp only [Shared.textAt, Keyspace.textAt, hstrings]
          by_cases hkey : key = key'
          · subst hkey
            right
            rw [Keyspace.write_strings_self]
            exact .transition ⟨hruns hran, ⟨hmulti, hdirty⟩, ttl, hvalid, hqueue⟩ hv htransition
          · left
            rw [Keyspace.write_strings_of_ne _ _ hkey]
            rfl
        · rw [hset] at hstrings
          exact .inl (textAt_congr hstrings key)
    · exact .inl (textAt_congr hstrings key)

variable [DecidableEq N] {fuel : ℕ}

/-- **The list of reasons is complete.** After any step the text of a key is the same as
before, or there is a reason for the one it is. -/
theorem Sound.change {w w' : DWorld} {l : DLabel} (h : Sound cfg S w)
    (hs : (deployment cfg S fuel).Stepped w l w') (key : String) :
    w'.shared.textAt key = w.shared.textAt key ∨
      Change cfg S w l key (w'.shared.textAt key) := by
  cases hs with
  | spawn hfree => exact .inl rfl
  | act htask hlive hprog hexec =>
    exact h.act_change htask hlive hprog (exec_effect hexec) key
  | @drop i t htask hlive =>
    exact .inl (textAt_congr (congrArg Keyspace.strings (w.shared.release_db i t.call.server)) key)
  | env henv => exact env_change henv key

/-- The step at which a command runs. -/
theorem Runs.stepped {w w' : DWorld} {l : DLabel} {i : ℕ} {t : DTask} {c : Cmd}
    (h : Runs w l i t c) (hs : (deployment cfg S fuel).Stepped w l w') :
    ∃ choice k σ r, l = .act i choice ∧ choice.delivery.ran = true ∧ t.prog = .cmd c k ∧
      w.shared.exec i t.call.server choice c = some (σ, r) ∧
      w' = { w with shared := σ }.put i (t.advance c k r) := by
  obtain ⟨choice, rfl, hran⟩ := h.label
  obtain ⟨k, hprog⟩ := h.prog
  cases hs with
  | @act _ _ t' c' k' σ r htask hlive hprog' hexec =>
    obtain rfl : t = t' := Option.some.inj (h.task.symm.trans htask)
    rw [hprog] at hprog'
    cases hprog'
    exact ⟨choice, k, σ, r, rfl, hran, hprog, hexec, rfl⟩

/-! ### Writes that were answered -/

/-- How a program comes to know that it has written. -/
theorem wrote_after {g : Knowledge} {c : Cmd} {r : c.Reply} (h : (g.after c r).wrote = true) :
    g.wrote = true ∨
      (∃ key ttl text, (⟨c, r⟩ : sig.Exchange) = ⟨.setEx key ttl text, .ok ()⟩) ∨
      ∃ key, (⟨c, r⟩ : sig.Exchange) = ⟨.del key, .ok ()⟩ := by
  cases c with
  | setEx key ttl text =>
    rcases r with e | _
    · exact .inl h
    · exact .inr (.inl ⟨key, ttl, text, rfl⟩)
  | del key =>
    rcases r with e | _
    · exact .inl h
    · exact .inr (.inr ⟨key, rfl⟩)
  | tx c =>
    cases c with
    | exec => rcases r with e | (_ | n) <;> exact .inl h
    | _ => exact .inl h
  | stream c =>
    cases c with
    | xreadgroup => rcases r with e | (_ | entries) <;> exact .inl h
    | xautoclaim => rcases r with e | reply <;> exact .inl h
    | _ => exact .inl h
  | _ => exact .inl h

/-- What a program comes to have seen: nothing new, nothing, or what a read has answered. -/
theorem seen_after (g : Knowledge) (c : Cmd) (r : c.Reply) :
    (g.after c r).seen = g.seen ∨ (g.after c r).seen = none ∨
      ∃ key text, (g.after c r).seen = some (key, text) ∧
        ((⟨c, r⟩ : sig.Exchange) = ⟨.get key, .ok text⟩ ∨
          (⟨c, r⟩ : sig.Exchange) = ⟨.tx (.get key), .ok text⟩) := by
  cases c with
  | get key =>
    rcases r with e | text
    · exact .inr (.inl rfl)
    · exact .inr (.inr ⟨key, text, rfl, .inl rfl⟩)
  | setEx key ttl text | del key => rcases r with e | _ <;> exact .inl rfl
  | tx c =>
    cases c with
    | get key =>
      rcases r with e | text
      · exact .inr (.inl rfl)
      · exact .inr (.inr ⟨key, text, rfl, .inr rfl⟩)
    | exec => rcases r with e | (_ | n) <;> exact .inl rfl
    | _ => exact .inl rfl
  | stream c =>
    cases c with
    | xreadgroup =>
      rcases r with e | (_ | entries)
      · exact .inl rfl
      · exact .inl rfl
      · exact .inr (.inl rfl)
    | xautoclaim =>
      rcases r with e | reply
      · exact .inl rfl
      · exact .inr (.inl rfl)
    | _ => exact .inl rfl
  | _ => exact .inl rfl

/-- A write that was answered left its text at the key. -/
theorem exec_setEx_ok {σ σ' : Shared} {i n : ℕ} {choice : Choice} {key text : String}
    {ttl : UInt64} (h : σ.exec i n choice (.setEx key ttl text) = some (σ', .ok ())) :
    σ'.textAt key = some text := by
  obtain ⟨hσ, hr⟩ := Prod.mk.inj (Option.some.inj h)
  rcases hd : choice.delivery with _ | ⟨err, ran, reconnected⟩
  · rw [hd] at hσ hr
    rcases Redis.Keyspace.setEx_cases σ.db key ttl text with ⟨-, hset⟩ | ⟨-, e, hset⟩
    · rw [← hσ]
      simp [Shared.runIf, Delivery.ran, Shared.textAt, hset]
    · simp only [Delivery.reply, hset] at hr
      cases hr
  · rw [hd] at hr
    cases hr

/-- A write that was answered was accepted. -/
theorem validTtl_of_exec {σ σ' : Shared} {i n : ℕ} {choice : Choice} {key text : String}
    {ttl : UInt64} (h : σ.exec i n choice (.setEx key ttl text) = some (σ', .ok ())) :
    ValidTtl ttl ∧ choice.delivery = .replied := by
  obtain ⟨-, hr⟩ := Prod.mk.inj (Option.some.inj h)
  rcases hd : choice.delivery with _ | ⟨err, ran, reconnected⟩
  · rw [hd] at hr
    refine ⟨?_, rfl⟩
    by_contra hinvalid
    rw [Delivery.reply, Keyspace.setEx, if_neg hinvalid] at hr
    cases hr
  · rw [hd] at hr
    cases hr

theorem replied_of_del {σ σ' : Shared} {i n : ℕ} {choice : Choice} {key : String}
    (h : σ.exec i n choice (.del key) = some (σ', .ok ())) : choice.delivery = .replied := by
  obtain ⟨-, hr⟩ := Prod.mk.inj (Option.some.inj h)
  rcases hd : choice.delivery with _ | ⟨err, ran, reconnected⟩
  · rfl
  · rw [hd] at hr
    cases hr

/-- A deletion that was answered left nothing at the key. -/
theorem exec_del_ok {σ σ' : Shared} {i n : ℕ} {choice : Choice} {key : String}
    (h : σ.exec i n choice (.del key) = some (σ', .ok ())) : σ'.textAt key = none := by
  obtain ⟨hσ, hr⟩ := Prod.mk.inj (Option.some.inj h)
  rcases hd : choice.delivery with _ | ⟨err, ran, reconnected⟩
  · rw [hd] at hσ
    rw [← hσ]
    simp only [Shared.runIf, Delivery.ran, if_true, Shared.textAt, Redis.Keyspace.del]
    split
    · simp
    · rename_i hnone
      simp [Redis.Keyspace.textAt, hnone]
  · rw [hd] at hr
    cases hr

end ResponsesApiStore
