import ResponsesApiStore.Usage.Table
import ResponsesApiStore.Usage.Contract
import ResponsesApiStore.Transcripts.Implements
import ResponsesApiStore.Guarantees.Wedges

/-!
# A request that is not interrupted

A guarded transition locks a mutex, discards what an earlier request has left on the connection,
watches, reads, decides, asks for the time to live, writes in a transaction, and begins again if
the transaction was refused. Between other requests none of this can be seen: a request about a
record, started while nobody holds the mutex, comes to its end, and its answer and what it leaves
in Redis are those of one function on the table of records
(`uninterrupted_request_is_one_step`), where names are apart and every record has a time to live.
That holds on every connection, one that an abandoned request has left in the middle of a
transaction included: the first attempt is then refused, and the second one goes through.
-/

namespace ResponsesApiStore

open Json (Value Serde)
open Redis (Entry Keyspace TxCmd Session)
open Redis.Keyspace (ValidTtl Expiring)
open Interaction (Program Machine World Label)
open Interaction.Program

variable {N α : Type} {cfg : StoreConfig} {S : Serde N} {i n : ℕ} {σ σ₀ : Shared}

/-! ### The table in the shared state -/

/-- Nothing but the database is other than in `σ₀`, and every record there has a time to live. -/
def Quiet (cfg : StoreConfig) (σ₀ σ : Shared) : Prop :=
  Expiring (IsRecordKey cfg) σ.db ∧ ∃ db, σ = { σ₀ with db }

/-- Task `i`, alone on server `n`, computes the function `f` on the table. -/
abbrev Performs (cfg : StoreConfig) (i n : ℕ) (σ₀ : Shared) (p : Program sig α)
    (f : StateM Table α) (σ : Shared) : Prop :=
  Implements (AnsweredAt i n) (Quiet cfg σ₀) tableOf p f σ

/-- A command that has one answer. -/
theorem ensures_answered {c : Cmd} (σ' : Shared) (r : c.Reply) {post : Shared → c.Reply → Prop}
    (hexec : ∀ choice : Choice, choice.delivery = .replied → σ.exec i n choice c = some (σ', r))
    (hpost : post σ' r) : (send c).Ensures (AnsweredAt i n) post σ := by
  refine ⟨⟨σ', r, Sample.answered, rfl, hexec _ rfl⟩, ?_⟩
  rintro σ'' r' ⟨choice, hreplied, hanswer⟩
  obtain ⟨rfl, rfl⟩ := Prod.mk.inj (Option.some.inj ((hexec choice hreplied).symm.trans hanswer))
  exact hpost

theorem performs_get (hσ : Quiet cfg σ₀ σ) (key : String) :
    Performs cfg i n σ₀ (storage (send (.get key))).run (Table.read key).run σ := by
  refine ensures_storage.mpr
    (ensures_answered σ (Except.ok (σ.db.textAt key)) (fun choice hreplied => ?_) ?_)
  · simp only [Shared.exec, hreplied, Delivery.reply]
  · exact ⟨hσ, rfl⟩

/-- A database that is changed as the table is. -/
theorem quiet_of_db (hσ : Quiet cfg σ₀ σ) {db : Keyspace} (hdb : Expiring (IsRecordKey cfg) db) :
    Quiet cfg σ₀ { σ with db } := by
  obtain ⟨-, db₀, rfl⟩ := hσ
  exact ⟨hdb, db, rfl⟩

theorem performs_setEx (hσ : Quiet cfg σ₀ σ) (key : String) (ttl : UInt64) (text : String) :
    Performs cfg i n σ₀ (storage (send (.setEx key ttl text))).run
      (Table.setEx key ttl text).run σ := by
  refine ensures_storage.mpr (ensures_answered { σ with db := (σ.db.setEx key ttl text).1 }
    (σ.db.setEx key ttl text).2 (fun choice hreplied => ?_) ?_)
  · simp only [Shared.exec, hreplied, Delivery.reply, Shared.runIf, Delivery.ran, if_true]
  · refine ⟨quiet_of_db hσ (hσ.1.setEx key ttl text), ?_⟩
    rw [Table.setEx, Keyspace.setEx]
    split_ifs <;> rfl

theorem performs_del (hσ : Quiet cfg σ₀ σ) (key : String) :
    Performs cfg i n σ₀ (storage (send (.del key))).run (Table.put key none).run σ := by
  refine ensures_storage.mpr (ensures_answered { σ with db := σ.db.del key } (Except.ok ())
    (fun choice hreplied => ?_) ?_)
  · simp only [Shared.exec, hreplied, Delivery.reply, Shared.runIf, Delivery.ran, if_true]
  · refine ⟨quiet_of_db hσ (hσ.1.del key), ?_⟩
    show (Except.ok (), Function.update σ.db.strings key none) = (_, (σ.db.del key).strings)
    rw [Keyspace.del]
    split
    · rfl
    · -- nothing was there
      rename_i hnone
      rw [← hnone, Function.update_eq_self]
      rfl

/-- A computation beside the store. -/
theorem performs_of (hσ : Quiet cfg σ₀ σ) (x : Except Fault α) :
    Performs cfg i n σ₀ (ofExcept x).run (Table.of x).run σ := implements_ret hσ

theorem performs_load (hσ : Quiet cfg σ₀ σ) (id : String) :
    Performs cfg i n σ₀ (ResponseStore.load cfg S id).run (Table.load cfg S id).run σ := by
  refine (performs_get hσ _).except_bind fun σ' text hσ' _ => ?_
  cases text with
  | none => exact implements_ret hσ'
  | some text =>
    dsimp only
    cases ResponseStore.decode S text with
    | ok stored => exact implements_ret hσ'
    | error fault => exact implements_ret hσ'

theorem performs_find (hσ : Quiet cfg σ₀ σ) (id : String) :
    Performs cfg i n σ₀ (ResponseStore.get cfg S id false).run (Table.find cfg S id).run σ := by
  refine (performs_load hσ id).except_bind fun σ' stored hσ' _ => ?_
  cases stored with
  | none => exact implements_ret hσ'
  | some stored =>
    dsimp only
    by_cases hdeleted : isDeletedTombstone stored = true
    · rw [if_pos hdeleted, if_pos hdeleted]
      exact implements_ret hσ'
    · rw [if_neg hdeleted, if_neg hdeleted, if_neg Bool.false_ne_true]
      exact implements_ret hσ'

theorem performs_store (hσ : Quiet cfg σ₀ σ) (id : String) (record : StoredResponse N)
    (ttlSeconds : Option UInt64) :
    Performs cfg i n σ₀ (ResponseStore.store cfg S id record ttlSeconds).run
      (Table.store cfg S id record ttlSeconds).run σ := by
  rw [ResponseStore.store, Table.store]
  split_ifs
  · exact implements_ret hσ
  · exact (performs_of hσ _).except_bind fun σ' text hσ' _ => performs_setEx hσ' _ _ _

theorem performs_update (hσ : Quiet cfg σ₀ σ) (id : String) (record : StoredResponse N)
    (ttlSeconds : Option UInt64) :
    Performs cfg i n σ₀ (ResponseStore.update cfg S id record ttlSeconds).run
      (Table.update cfg S id record ttlSeconds).run σ := by
  rw [Table.update, Table.find, bind_assoc]
  refine (performs_load hσ id).except_bind fun σ' stored hσ' _ => ?_
  cases stored with
  | none => exact implements_ret hσ'
  | some stored =>
    dsimp only
    split_ifs with hdeleted
    · exact implements_ret hσ'
    · rw [pure_bind]
      exact performs_store hσ' id record ttlSeconds

theorem performs_delete (hσ : Quiet cfg σ₀ σ) (id : String) :
    Performs cfg i n σ₀ (deleteOrTombstone cfg S id).run (Table.delete cfg S id).run σ := by
  have hfound : Performs cfg i n σ₀ (outcome (ResponseStore.get cfg S id false)).run
      (ExceptT.lift (Table.find cfg S id).run : OnTable Fault _).run σ :=
    (performs_find hσ id).then_pure Except.ok
  refine hfound.except_bind fun σ' found hσ' _ => ?_
  rcases found with (err | message | _) | stored
  · exact performs_del hσ' _
  · exact implements_ret hσ'
  · exact implements_ret hσ'
  · dsimp only
    split_ifs
    · exact performs_store hσ' id _ none
    · exact performs_del hσ' _

/-! ### Transitions -/

/-- The end of a transaction: on a dirty session it is refused and the session starts afresh, on a
clean one it writes. -/
theorem ensures_commit_table {key payload : String} {ttl : UInt64}
    {post : Shared → Except Fault Bool → Prop} (hmulti : (σ.db.sessions n).inMulti = false)
    (hvalid : ValidTtl ttl)
    (hdirty : (σ.db.sessions n).dirty = true → ∀ db : Keyspace, db.strings = σ.db.strings →
      db.sessions n = .fresh → post { σ with db } (.ok false))
    (hclean : ∀ db : Keyspace,
      db.strings = Function.update σ.db.strings key (some ⟨payload, some ttl.toNat⟩) →
      post { σ with db } (.ok true)) :
    (ResponseStore.commit key ttl payload).run.Ensures (AnsweredAt i n) post σ := by
  rw [ResponseStore.commit, ensures_except_bind_iff, ensures_storage]
  refine ensures_answered_tx ?_
  simp only [TxCmd.run, hmulti, Bool.false_eq_true, if_false, Except.mapError]
  rw [ensures_except_bind_iff, ensures_storage]
  refine ensures_answered_tx ?_
  simp only [TxCmd.run, Keyspace.setSession_sessions_self, if_true, Except.mapError]
  rw [ensures_except_bind_iff, ensures_storage]
  refine ensures_answered_tx ?_
  cases hd : (σ.db.sessions n).dirty with
  | true =>
    simp only [TxCmd.run, Keyspace.setSession_sessions_self, Session.enqueue, if_true,
      Except.mapError]
    exact hdirty hd _ rfl (Keyspace.setSession_sessions_self _ _ _)
  | false =>
    simp only [TxCmd.run, Keyspace.setSession_sessions_self, Session.enqueue, if_true,
      Bool.false_eq_true, if_false, List.nil_append, Keyspace.runQueue, Keyspace.setEx,
      if_pos hvalid, Except.mapError]
    exact hclean _ rfl

/-- What an attempt on a session outside `MULTI` comes to: what `f` makes of the table, or, on a
session that is dirty, nothing, and then the session is as new. -/
def Tries (cfg : StoreConfig) (i n : ℕ) (attempt : Act (Option α)) (f : OnTable Fault α)
    (σ : Shared) : Prop :=
  attempt.run.Ensures (AnsweredAt i n) (fun σ' r => ∃ db : Keyspace, σ' = { σ with db } ∧
    Expiring (IsRecordKey cfg) db ∧
    (((σ.db.sessions n).dirty = true ∧ r = .ok none ∧ db.strings = σ.db.strings ∧
        db.sessions n = .fresh) ∨
      ∃ x, r = x.map some ∧ f.run.run σ.db.strings = (x, db.strings) ∧
        ∀ err, x ≠ .error (storageFault err))) σ

/-- An attempt that fails without a write. -/
theorem tries_of_error {f : OnTable Fault α} {σ' : Shared} {fault : Fault} {db : Keyspace}
    (hdb : Expiring (IsRecordKey cfg) σ.db) (hσ' : σ' = { σ with db })
    (hstrings : db.strings = σ.db.strings)
    (hf : f.run.run σ.db.strings = (.error fault, σ.db.strings))
    (hfault : ∀ err, fault ≠ storageFault err) :
    ∃ db : Keyspace, σ' = { σ with db } ∧ Expiring (IsRecordKey cfg) db ∧
      (((σ.db.sessions n).dirty = true ∧ (.error fault : Except Fault (Option α)) = .ok none ∧
          db.strings = σ.db.strings ∧ db.sessions n = .fresh) ∨
        ∃ x, (.error fault : Except Fault (Option α)) = x.map some ∧
          f.run.run σ.db.strings = (x, db.strings) ∧ ∀ err, x ≠ .error (storageFault err)) := by
  refine ⟨db, hσ', hdb.congr hstrings, .inr ⟨.error fault, rfl, hstrings ▸ hf, fun err heq => ?_⟩⟩
  exact hfault err (Except.error.inj heq)

/-- A round performs what its attempt comes to, at the second try if the session is dirty. -/
theorem performs_round {attempt : Act (Option α)} {f : OnTable Fault α} {left : ℕ} {next : Act α}
    (hfree : σ₀.holder n = none) (hσ : Quiet cfg σ₀ σ)
    (hattempt : ∀ σ₁ : Shared, Expiring (IsRecordKey cfg) σ₁.db → σ₁.db.strings = σ.db.strings →
      (σ₁.db.sessions n).inMulti = false → Tries cfg i n attempt f σ₁)
    (hnext : (σ.db.sessions n).dirty = true → ∀ σ', Quiet cfg σ₀ σ' →
      σ'.db.strings = σ.db.strings → σ'.db.sessions n = .fresh →
      Performs cfg i n σ₀ next.run f.run σ') :
    Performs cfg i n σ₀ (ResponseStore.round attempt left next).run f.run σ := by
  obtain ⟨hexpiring, db₀, hσ₀⟩ := hσ
  have hfree' : σ.holder n = none := by rw [hσ₀, hfree]
  rw [ResponseStore.round, Performs, Implements, ensures_except_bind_iff]
  refine ResponseStore.ensures_locked ⟨_, (), (answeredAt_lock hfree').mpr rfl⟩ ?_
  intro σ₁ r₁ hlock
  obtain rfl := (answeredAt_lock hfree').mp hlock
  refine ⟨⟨_, _, answeredAt_tx.mpr ⟨rfl, rfl⟩⟩, fun σ₂ r₂ hdiscard => ?_⟩
  obtain ⟨rfl, -⟩ := answeredAt_tx.mp hdiscard
  obtain ⟨hstrings, hmulti, hdirty⟩ := run_discard σ.db n
  refine (hattempt _ (hexpiring.congr hstrings) hstrings hmulti).mono ?_
  rintro _ r ⟨db, rfl, hdb, hr⟩
  refine ⟨⟨_, (), answeredAt_unlock.mpr rfl⟩, fun σ₄ r₄ hunlock => ?_⟩
  obtain rfl := answeredAt_unlock.mp hunlock
  -- the mutex was free before, and is free again
  have hquiet :
    Quiet cfg σ₀ (({ σ.setHolder n (some i) with db := db } : Shared).setHolder n none) := by
    refine ⟨hdb, db, ?_⟩
    simp only [Shared.setHolder, Function.update_idem]
    rw [← hfree', Function.update_eq_self, hσ₀]
  rcases hr with ⟨hd, rfl, hsame, hfresh⟩ | ⟨x, rfl, hf, hstorage⟩
  · refine (hnext (hdirty hd) _ hquiet (hsame.trans hstrings) hfresh).mono fun σ' a h => ?_
    refine ⟨h.1, ?_⟩
    rw [← h.2]
    exact congrArg f.run.run (hsame.trans hstrings).symm
  · have hresult : f.run.run (tableOf σ) = (x, db.strings) := by
      rw [← hf]
      exact congrArg f.run.run hstrings.symm
    rcases x with fault | value
    · rcases fault with (_ | _ | _ | _ | err | _) | _ | _
      case error.storage => exact absurd rfl (hstorage err)
      all_goals exact ⟨hquiet, hresult⟩
    · exact ⟨hquiet, hresult⟩

/-- The time to live that a transition gives a record, as the table has it. -/
theorem rewrite_entry {db : Keyspace} {key : String} {e : Entry} (payload : String)
    (default : UInt64) (hexpiring : Expiring (IsRecordKey cfg) db) (hkey : IsRecordKey cfg key)
    (hentry : db.strings key = some e) :
    ValidTtl (reconcileWriteTtl (db.ttlReply key) default) ∧
      (⟨payload, some (reconcileWriteTtl (db.ttlReply key) default).toNat⟩ : Entry) =
        ⟨payload, e.ttl.map (max 1)⟩ := by
  obtain ⟨ttl, hkept, hmax⟩ := hexpiring key e hkey hentry
  have hreply : db.ttlReply key = ttl := by
    rcases e with ⟨text, _ | m⟩
    · cases hkept
    · obtain rfl := Option.some.inj hkept
      simp only [Keyspace.ttlReply, hentry]
  have heq : ((reconcileWriteTtl (ttl : ℤ) default).toNat : ℤ) = max 1 (ttl : ℤ) :=
    reconcileWriteTtl_eq (by omega) (by exact_mod_cast hmax)
  have htoNat : (reconcileWriteTtl (ttl : ℤ) default).toNat = max 1 ttl := by omega
  have hone : 1 ≤ Keyspace.maxTtl := by decide
  rw [hreply, htoNat, hkept]
  exact ⟨⟨by omega, by omega⟩, rfl⟩

/-- A transition prepares its values from the text it has read, then asks for the time to live. -/
theorem transitionValues_eq {T : Type} (id raw : String)
    (prepare : StoredResponse N → String → Except Fault (StoredResponse N × T)) :
    ResponseStore.transitionValues cfg S (ResponseStore.key cfg id) id raw prepare =
      ofExcept (Table.decided S id prepare raw) >>= fun x => do
        let ttl ← storage (send (.tx (.ttl (ResponseStore.key cfg id))))
        return (x.1, x.2.1, reconcileWriteTtl ttl cfg.ttlSeconds, x.2.2) := by
  rw [ResponseStore.transitionValues, Table.decided]
  rcases ResponseStore.decode S raw with fault | stored
  · rfl
  show (ofExcept (prepare stored id) >>= _ : Act _) = _
  rcases hprepare : prepare stored id with fault | ⟨updated, result⟩
  · simp only [bind, Except.bind, hprepare]
    rfl
  show (ofExcept (ResponseStore.encode S updated) >>= _ : Act _) = _
  rcases hencode : ResponseStore.encode S updated with fault | payload
  · simp only [bind, Except.bind, hprepare, hencode]
    rfl
  · simp only [bind, Except.bind, hprepare, hencode]
    rfl

/-- An attempt that gives up its watch and fails. -/
theorem ensures_unwatch {fault : Fault} {post : Shared → Except Fault α → Prop}
    (hmulti : (σ.db.sessions n).inMulti = false)
    (hpost : ∀ db : Keyspace, db.strings = σ.db.strings → post { σ with db } (.error fault)) :
    (ignore (send (.tx .unwatch)) >>= fun _ => throw fault : Act α).run.Ensures (AnsweredAt i n)
      post σ := by
  rw [ensures_except_bind_iff, ensures_ignore]
  refine ensures_answered_tx ?_
  simp only [TxCmd.run, hmulti, Bool.false_eq_true, if_false]
  exact hpost _ rfl

/-- A write for a time that Redis accepts leaves every record with a time to live. -/
theorem expiring_of_write {db db' : Keyspace} {key payload : String} {ttl : UInt64}
    (hexpiring : Expiring (IsRecordKey cfg) db) (hvalid : ValidTtl ttl)
    (hdb' : db'.strings = Function.update db.strings key (some ⟨payload, some ttl.toNat⟩)) :
    Expiring (IsRecordKey cfg) db' := by
  have hwrite : Expiring (IsRecordKey cfg) (db.write key (some ⟨payload, some ttl.toNat⟩)) := by
    refine hexpiring.write fun x _ hx => ?_
    obtain rfl := Option.some.inj hx
    exact ⟨ttl.toNat, rfl, hvalid.2⟩
  exact hwrite.congr hdb'

/-- What is decided does not fail with an error of Redis, unless `prepare` does. -/
theorem decided_not_storage {T : Type} {id : String}
    {prepare : StoredResponse N → String → Except Fault (StoredResponse N × T)}
    (hprepare : ∀ stored err, prepare stored id ≠ .error (storageFault err)) (raw : String)
    (err : Redis.Error) : Table.decided S id prepare raw ≠ .error (storageFault err) := by
  intro h
  rcases bind_eq_error h with h | ⟨stored, -, h⟩
  · rw [ResponseStore.decode] at h
    cases htext : StoredResponse.ofText S raw <;> rw [htext] at h <;> cases h
  rcases bind_eq_error h with h | ⟨⟨updated, result⟩, -, h⟩
  · exact hprepare stored err h
  rcases bind_eq_error h with h | ⟨payload, -, h⟩
  · rw [ResponseStore.encode] at h
    cases htext : updated.toText S <;> rw [htext] at h <;> cases h
  · cases h

/-- What an attempt of a transition comes to. -/
theorem tries_transitionAttempt {T : Type} {id : String}
    {prepare : StoredResponse N → String → Except Fault (StoredResponse N × T)}
    (hprepare : ∀ stored err, prepare stored id ≠ .error (storageFault err))
    (hexpiring : Expiring (IsRecordKey cfg) σ.db) (hmulti : (σ.db.sessions n).inMulti = false) :
    Tries cfg i n (ResponseStore.transitionAttempt cfg S (ResponseStore.key cfg id) id prepare)
      (Table.transition cfg S id prepare) σ := by
  have hkey : IsRecordKey cfg (ResponseStore.key cfg id) := ⟨id, rfl⟩
  rw [Tries, ResponseStore.transitionAttempt, ensures_except_bind_iff, ensures_storage]
  refine ensures_answered_tx ?_
  simp only [TxCmd.run, hmulti, Bool.false_eq_true, if_false, Except.mapError]
  rw [ensures_except_bind_iff, ensures_storage]
  refine ensures_answered_tx ?_
  simp only [TxCmd.run, Keyspace.setSession_sessions_self, Bool.false_eq_true, if_false,
    Keyspace.setSession_textAt, Except.mapError]
  rcases hentry : σ.db.strings (ResponseStore.key cfg id) with _ | e
  · rw [show σ.db.textAt (ResponseStore.key cfg id) = none by simp [Keyspace.textAt, hentry]]
    refine ensures_unwatch (by simp) fun db hdb => ?_
    exact tries_of_error hexpiring rfl hdb (Table.run_transition_absent hentry) fun err heq => by
      cases heq
  rw [show σ.db.textAt (ResponseStore.key cfg id) = some e.text by simp [Keyspace.textAt, hentry]]
  dsimp only
  rw [ensures_except_bind_iff, ensures_outcome, transitionValues_eq, ensures_except_bind_iff]
  rcases hdecided : Table.decided S id prepare e.text with fault | ⟨updated, payload, result⟩
  · have hrefused := Table.run_transition_refused hentry hdecided
    have hfault : ∀ err, fault ≠ storageFault err := by
      rintro err rfl
      exact decided_not_storage hprepare e.text err hdecided
    rcases fault with err | message | _
    · show Ensures _ _ (ignore (send (.tx .unwatch)) >>= fun _ => throw (.error err) :
        Act (Option (StoredResponse N × T))).run _
      exact ensures_unwatch (by simp) fun db hdb => tries_of_error hexpiring rfl hdb hrefused hfault
    · exact tries_of_error hexpiring rfl rfl hrefused hfault
    · exact tries_of_error hexpiring rfl rfl hrefused hfault
  · show Ensures _ _ (storage (send (.tx (.ttl (ResponseStore.key cfg id)))) >>= fun ttl =>
      pure (updated, payload, reconcileWriteTtl ttl cfg.ttlSeconds, result) : Act _).run _
    rw [ensures_except_bind_iff, ensures_storage]
    refine ensures_answered_tx ?_
    simp only [TxCmd.run, Keyspace.setSession_sessions_self, Bool.false_eq_true, if_false,
      Except.mapError]
    obtain ⟨hvalid, hwritten⟩ :=
      rewrite_entry payload cfg.ttlSeconds hexpiring hkey hentry
    show Ensures _ _ (ResponseStore.commit (ResponseStore.key cfg id) _ payload >>= fun b =>
      if b then pure (some (updated, result)) else pure none : Act _).run _
    rw [ensures_except_bind_iff]
    refine ensures_commit_table (by simp) hvalid (fun hd db hstrings hfresh => ?_)
      fun db hstrings => ?_
    · exact ⟨db, rfl, hexpiring.congr hstrings, .inl ⟨by simpa using hd, rfl, hstrings, hfresh⟩⟩
    · have hdb := hstrings.trans
        (congrArg
          (fun e => Function.update σ.db.strings (ResponseStore.key cfg id) (some e)) hwritten)
      refine ⟨db, rfl, expiring_of_write hexpiring hvalid hstrings,
        .inr ⟨.ok (updated, result), rfl, ?_, ?_⟩⟩
      · rw [hdb]
        exact Table.run_transition_taken hentry hdecided
      · intro err heq
        cases heq

/-- **A transition** is one function on the table. -/
theorem performs_transitionAtomic {T : Type} {id : String}
    {prepare : StoredResponse N → String → Except Fault (StoredResponse N × T)}
    (hfree : σ₀.holder n = none)
    (hprepare : ∀ stored err, prepare stored id ≠ .error (storageFault err))
    (hσ : Quiet cfg σ₀ σ) :
    Performs cfg i n σ₀ (ResponseStore.transitionAtomic cfg S id prepare).run
      (Table.transition cfg S id prepare).run σ := by
  have hattempt : ∀ σ₁ : Shared, Expiring (IsRecordKey cfg) σ₁.db →
      (σ₁.db.sessions n).inMulti = false → Tries cfg i n
        (ResponseStore.transitionAttempt cfg S (ResponseStore.key cfg id) id prepare)
        (Table.transition cfg S id prepare) σ₁ :=
    fun σ₁ hexpiring hmulti => tries_transitionAttempt hprepare hexpiring hmulti
  show Performs cfg i n σ₀ (ResponseStore.round _ _
    (ResponseStore.transitionAttempts cfg S id prepare 15)).run _ _
  refine performs_round hfree hσ (fun σ₁ h _ hmulti => hattempt σ₁ h hmulti)
    fun _ σ₁ hσ₁ _ hfresh => ?_
  show Performs cfg i n σ₀ (ResponseStore.round _ _
    (ResponseStore.transitionAttempts cfg S id prepare 14)).run _ _
  refine performs_round hfree hσ₁ (fun σ₂ h _ hmulti => hattempt σ₂ h hmulti) fun hdirty => ?_
  rw [hfresh] at hdirty
  cases hdirty

/-! ### The stale reconcile -/

/-- What an attempt of a reconcile comes to, on a record that is stale. -/
theorem tries_reconcile {id : String} {stored : StoredResponse N} {now staleSeconds : Int64}
    {e : Entry} (hexpiring : Expiring (IsRecordKey cfg) σ.db)
    (hmulti : (σ.db.sessions n).inMulti = false)
    (hentry : σ.db.strings (ResponseStore.key cfg id) = some e)
    (hstored : StoredResponse.ofText S e.text = .ok stored)
    (hqueued : shouldReconcileStale stored = true)
    (hstale : isStaleEnqueued stored.enqueuedAt now staleSeconds = true) :
    Tries cfg i n (ResponseStore.reconcileStaleTransactionAttempt cfg S (ResponseStore.key cfg id)
      id now staleSeconds) (Table.reconcile cfg S id stored now staleSeconds) σ := by
  have hkey : IsRecordKey cfg (ResponseStore.key cfg id) := ⟨id, rfl⟩
  have htext : σ.db.textAt (ResponseStore.key cfg id) = some e.text := by
    simp [Keyspace.textAt, hentry]
  have hreconcile : Table.reconcile cfg S id stored now staleSeconds = do
      let text ← Table.of (ResponseStore.encode S (applyStaleFailure stored id))
      Table.rewrite (ResponseStore.key cfg id) text
      return applyStaleFailure stored id := by
    rw [Table.reconcile, hqueued, hstale]
    rfl
  rw [Tries, ResponseStore.reconcileStaleTransactionAttempt, ensures_except_bind_iff,
    ensures_storage]
  refine ensures_answered_tx ?_
  simp only [TxCmd.run, hmulti, Bool.false_eq_true, if_false, Except.mapError]
  rw [ensures_except_bind_iff, ensures_storage]
  refine ensures_answered_tx ?_
  simp only [TxCmd.run, Keyspace.setSession_sessions_self, Bool.false_eq_true, if_false,
    Keyspace.setSession_textAt, htext, Except.mapError, hstored, hqueued, hstale, Bool.not_true,
    Bool.or_self]
  rcases hpayload : (applyStaleFailure stored id).toText S with message | payload
  · refine ensures_unwatch (by simp) fun db hdb => ?_
    refine tries_of_error hexpiring rfl hdb ?_ fun err heq => by cases heq
    rw [hreconcile]
    refine Table.run_bind_of_error (e := Fault.error (.serialization message)) ?_
    show (Table.of (ResponseStore.encode S _)).run.run _ = _
    rw [ResponseStore.encode, hpayload]
    rfl
  · dsimp only
    rw [ensures_except_bind_iff, ensures_outcome, ensures_storage]
    refine ensures_answered_tx ?_
    simp only [TxCmd.run, Keyspace.setSession_sessions_self, Bool.false_eq_true, if_false,
      Except.mapError]
    obtain ⟨hvalid, hwritten⟩ :=
      rewrite_entry payload cfg.ttlSeconds hexpiring hkey hentry
    rw [ensures_except_bind_iff]
    refine ensures_commit_table (by simp) hvalid (fun hd db hstrings hfresh => ?_)
      fun db hstrings => ?_
    · exact ⟨db, rfl, hexpiring.congr hstrings, .inl ⟨by simpa using hd, rfl, hstrings, hfresh⟩⟩
    · have hdb := hstrings.trans
        (congrArg
          (fun e => Function.update σ.db.strings (ResponseStore.key cfg id) (some e)) hwritten)
      refine ⟨db, rfl, expiring_of_write hexpiring hvalid hstrings,
        .inr ⟨.ok (applyStaleFailure stored id), rfl, ?_, ?_⟩⟩
      · rw [hdb, hreconcile]
        have hencoded : (Table.of (ResponseStore.encode S (applyStaleFailure stored id))).run.run
            σ.db.strings = (.ok payload, σ.db.strings) := by
          rw [ResponseStore.encode, hpayload]
          rfl
        rw [Table.run_bind_of_ok hencoded]
        exact Table.run_bind_of_ok (Table.run_rewrite hentry)
      · intro err heq
        cases heq

/-- The reconcile of a record that is in the table. -/
theorem performs_reconcile {id : String} {stored : StoredResponse N} {staleSeconds : Int64}
    {e : Entry} (hfree : σ₀.holder n = none) (hσ : Quiet cfg σ₀ σ)
    (hentry : tableOf σ (ResponseStore.key cfg id) = some e)
    (hstored : StoredResponse.ofText S e.text = .ok stored) :
    Performs cfg i n σ₀ (ResponseStore.reconcileStaleResponse cfg S id stored staleSeconds).run
      (Table.reconcile cfg S id stored σ₀.clock staleSeconds).run σ := by
  have hclock : σ.clock = σ₀.clock := by
    obtain ⟨-, db, rfl⟩ := hσ
    rfl
  rw [ResponseStore.reconcileStaleResponse]
  by_cases hqueued : shouldReconcileStale stored = true
  swap
  · rw [if_pos (by simpa using hqueued), Table.reconcile, if_neg (by simp [hqueued])]
    exact implements_ret hσ
  rw [if_neg (by simp [hqueued]), Performs, Implements, ensures_except_bind_iff]
  refine ensures_lift.mpr (ensures_answered σ σ.clock (fun choice _ => rfl) ?_)
  rw [hclock]
  dsimp only
  by_cases hstale : isStaleEnqueued stored.enqueuedAt σ₀.clock staleSeconds = true
  swap
  · rw [if_pos (by simpa using hstale), Table.reconcile, if_neg (by simp [hstale])]
    exact implements_ret hσ
  rw [if_neg (by simp [hstale])]
  have hattempt : ∀ σ₁ : Shared, Expiring (IsRecordKey cfg) σ₁.db →
      σ₁.db.strings = σ.db.strings → (σ₁.db.sessions n).inMulti = false → Tries cfg i n
        (ResponseStore.reconcileStaleTransactionAttempt cfg S (ResponseStore.key cfg id) id
          σ₀.clock staleSeconds) (Table.reconcile cfg S id stored σ₀.clock staleSeconds) σ₁ := by
    intro σ₁ hexpiring hstrings hmulti
    refine tries_reconcile hexpiring hmulti ?_ hstored hqueued hstale
    rw [hstrings]
    exact hentry
  show Performs cfg i n σ₀ (ResponseStore.round _ _
    (ResponseStore.reconcileStaleAttempts cfg S id σ₀.clock staleSeconds 15)).run _ _
  refine performs_round hfree hσ hattempt fun _ σ₁ hσ₁ hstrings hfresh => ?_
  show Performs cfg i n σ₀ (ResponseStore.round _ _
    (ResponseStore.reconcileStaleAttempts cfg S id σ₀.clock staleSeconds 14)).run _ _
  refine performs_round hfree hσ₁ (fun σ₂ h hsame => hattempt σ₂ h (hsame.trans hstrings))
    fun hdirty => ?_
  rw [hfresh] at hdirty
  cases hdirty

theorem performs_get_response (hfree : σ₀.holder n = none) (hσ : Quiet cfg σ₀ σ) (id : String)
    (reconcileStale : Bool) :
    Performs cfg i n σ₀ (ResponseStore.get cfg S id reconcileStale).run
      (Table.get cfg S id σ₀.clock reconcileStale).run σ := by
  rw [Table.get, Table.find, bind_assoc]
  refine (performs_load hσ id).except_bind fun σ' stored hσ' hload => ?_
  cases stored with
  | none => exact implements_ret hσ'
  | some stored =>
    obtain ⟨hsame, e, hentry, hstored⟩ := Table.run_load_ok hload
    dsimp only
    by_cases hdeleted : isDeletedTombstone stored = true
    · rw [if_pos hdeleted, if_pos hdeleted]
      exact implements_ret hσ'
    rw [if_neg hdeleted, if_neg hdeleted, pure_bind]
    cases reconcileStale with
    | false => exact implements_ret hσ'
    | true => exact performs_reconcile hfree hσ' (hsame ▸ hentry) hstored

/-! ### Requests -/

theorem performs_answer {p : Act α} {f : OnTable Fault α}
    (hp : Performs cfg i n σ₀ p.run f.run σ) :
    Performs cfg i n σ₀ (rpc p).run (Table.answer f).run σ :=
  hp.then_pure (Except.mapError mapStoreError)

theorem performs_ofStatus (hσ : Quiet cfg σ₀ σ) (x : Except Status α) :
    Performs cfg i n σ₀ (ofStatus x).run (Table.ofStatus x).run σ := implements_ret hσ

theorem performs_reject (hσ : Quiet cfg σ₀ σ) (message : String) :
    Performs cfg i n σ₀ (reject .invalidArgument message : Rpc α).run
      (Table.reject message : OnTable RpcFault α).run σ := implements_ret hσ

variable [DecidableEq N]

/-- **The service computes the function of a request.** -/
theorem performs_serve {fuel : ℕ} {request : Request} {op : OnTable RpcFault Response}
    (hop : Table.perform cfg S σ₀.clock request = some op) (hfree : σ₀.holder n = none)
    (hσ : Quiet cfg σ₀ σ) :
    Performs cfg i n σ₀ (serve cfg S fuel request) op.run σ := by
  have hrecord : ∀ {id : String} {record : StoredResponse N} {f : ProtoStoredResponse → Response}
      {σ : Shared}, Quiet cfg σ₀ σ → Performs cfg i n σ₀
        (ofStatus (coreToProto S id record) >>= fun record => return f record : Rpc _).run
        (Table.ofStatus (coreToProto S id record) >>= fun record => return f record :
          OnTable RpcFault _).run σ :=
    fun hσ => (performs_ofStatus hσ _).except_bind fun _ _ hσ' _ => implements_ret hσ'
  cases request with
  | storeResponse record ttlSeconds =>
    obtain rfl := Option.some.inj hop
    refine (performs_ofStatus hσ _).except_bind fun σ₁ record hσ₁ _ => ?_
    refine (performs_ofStatus hσ₁ _).except_bind fun σ₂ core hσ₂ _ => ?_
    exact (performs_answer (performs_store hσ₂ _ _ _)).except_bind
      fun _ _ hσ₃ _ => implements_ret hσ₃
  | updateResponse record ttlSeconds =>
    obtain rfl := Option.some.inj hop
    refine (performs_ofStatus hσ _).except_bind fun σ₁ record hσ₁ _ => ?_
    refine (performs_ofStatus hσ₁ _).except_bind fun σ₂ core hσ₂ _ => ?_
    exact (performs_answer (performs_update hσ₂ _ _ _)).except_bind
      fun _ _ hσ₃ _ => implements_ret hσ₃
  | getResponse id reconcileStale =>
    obtain rfl := Option.some.inj hop
    show Performs cfg i n σ₀ (getResponse cfg S id reconcileStale).run _ σ
    rw [getResponse]
    split_ifs
    · exact performs_reject hσ _
    refine (performs_answer (performs_get_response hfree hσ id reconcileStale)).except_bind
      fun σ₁ record hσ₁ _ => hrecord hσ₁
  | deleteResponse id =>
    obtain rfl := Option.some.inj hop
    show Performs cfg i n σ₀ (deleteResponse cfg S id).run _ σ
    rw [deleteResponse]
    split_ifs
    · exact performs_reject hσ _
    exact (performs_answer (performs_delete hσ id)).except_bind fun _ _ hσ₁ _ => implements_ret hσ₁
  | claimBackgroundResponse id =>
    obtain rfl := Option.some.inj hop
    show Performs cfg i n σ₀ (claimBackgroundResponse cfg S id).run _ σ
    rw [claimBackgroundResponse]
    split_ifs
    · exact performs_reject hσ _
    refine (performs_answer (performs_transitionAtomic hfree
      (fun _ _ => isRefusal_of_prepareClaim) hσ)).except_bind ?_
    rintro σ₁ ⟨record, payload⟩ hσ₁ -
    exact (performs_ofStatus hσ₁ _).except_bind fun σ₂ json hσ₂ _ => hrecord hσ₂
  | completeBackgroundResponse id json =>
    obtain rfl := Option.some.inj hop
    show Performs cfg i n σ₀ (completeBackgroundResponse cfg S id json).run _ σ
    rw [completeBackgroundResponse]
    split_ifs
    · exact performs_reject hσ _
    · exact performs_reject hσ _
    refine (performs_ofStatus hσ _).except_bind fun σ₁ completed hσ₁ _ => ?_
    split_ifs
    · exact performs_reject hσ₁ _
    exact (performs_answer ((performs_transitionAtomic hfree
      (fun _ _ => isRefusal_of_prepareComplete) hσ₁).except_map Prod.fst)).except_bind
      fun σ₂ record hσ₂ _ => hrecord hσ₂
  | failBackgroundResponse id message =>
    obtain rfl := Option.some.inj hop
    show Performs cfg i n σ₀ (failBackgroundResponse cfg S id message).run _ σ
    rw [failBackgroundResponse]
    split_ifs
    · exact performs_reject hσ _
    · exact performs_reject hσ _
    exact (performs_answer ((performs_transitionAtomic hfree
      (fun _ _ => isRefusal_of_prepareFail) hσ).except_map Prod.fst)).except_bind
      fun σ₂ record hσ₂ _ => hrecord hσ₂
  | reconcileStaleResponse id staleSeconds =>
    obtain rfl := Option.some.inj hop
    show Performs cfg i n σ₀ (reconcileStaleResponse cfg S id staleSeconds).run _ σ
    rw [reconcileStaleResponse]
    split_ifs
    · exact performs_reject hσ _
    refine (performs_answer (performs_find hσ id)).except_bind fun σ₁ existing hσ₁ hfound => ?_
    obtain ⟨hsame, e, hentry, hstored⟩ :=
      Table.run_load_ok (Table.run_find_ok (Table.run_of_answer hfound))
    refine (performs_answer (performs_reconcile hfree hσ₁ (hsame ▸ hentry) hstored)).except_bind
      fun σ₂ updated hσ₂ _ => hrecord hσ₂
  | _ => cases hop

section Alone

variable {fuel : ℕ} {request : Request} {op : OnTable RpcFault Response} {w w' : DWorld}

/-- A request that is called while nobody holds the mutex computes its function. -/
theorem performs_called (hop : Table.perform cfg S w.shared.clock request = some op)
    (hfree : w.shared.holder n = none) (hexpiring : Expiring (IsRecordKey cfg) w.shared.db)
    (hspawn : (deployment cfg S fuel).step w (.spawn i ⟨n, request⟩) = some w') :
    w'.shared = w.shared ∧
      w'.tasks i = some ((deployment cfg S fuel).start ⟨n, request⟩) ∧
      Performs cfg i n w.shared (serve cfg S fuel request) op.run w.shared := by
  cases Machine.step_eq_some_iff.mp hspawn with
  | spawn hnew =>
    exact ⟨rfl, World.put_tasks_self _ i _,
      performs_serve hop hfree ⟨hexpiring, w.shared.db, rfl⟩⟩

/-- Alone, it comes to its end. -/
theorem alone_completes (hop : Table.perform cfg S w.shared.clock request = some op)
    (hfree : w.shared.holder n = none) (hexpiring : Expiring (IsRecordKey cfg) w.shared.db)
    (hspawn : (deployment cfg S fuel).step w (.spawn i ⟨n, request⟩) = some w') :
    ∃ ls w'' t r, (deployment cfg S fuel).RunIn (Alone i) w' ls w'' ∧ w''.tasks i = some t ∧
      t.prog = .ret r := by
  obtain ⟨hshared, htask, hperforms⟩ := performs_called hop hfree hexpiring hspawn
  rw [← hshared] at hperforms
  refine isolates_alone.completes (fun _ => True) ?_ trivial htask rfl rfl hperforms
  rintro x t c k σ' r - - - hcall - ⟨choice, hreplied, hexec⟩
  refine ⟨choice, σ', r, ⟨choice, rfl, hreplied⟩, ?_, trivial⟩
  show x.shared.exec i t.call.server choice c = _
  rw [hcall]
  exact hexec

/-- Alone, it answers and leaves what its function does. -/
theorem alone_computes (hop : Table.perform cfg S w.shared.clock request = some op)
    (hfree : w.shared.holder n = none) (hexpiring : Expiring (IsRecordKey cfg) w.shared.db)
    (hspawn : (deployment cfg S fuel).step w (.spawn i ⟨n, request⟩) = some w')
    {ls : List DLabel} {w'' : DWorld} {t : DTask} {r : RpcResult}
    (hrun : (deployment cfg S fuel).RunIn (Alone i) w' ls w'') (ht : w''.tasks i = some t)
    (hprog : t.prog = .ret r) :
    op.run.run (tableOf w.shared) = (r, tableOf w''.shared) ∧
      Expiring (IsRecordKey cfg) w''.shared.db ∧ ∃ db, w''.shared = { w.shared with db } := by
  obtain ⟨hshared, htask, hperforms⟩ := performs_called hop hfree hexpiring hspawn
  rw [← hshared] at hperforms
  obtain ⟨t', ht', -, hens⟩ := isolates_alone.ensures hrun htask rfl hperforms
  obtain rfl := Option.some.inj (ht'.symm.trans ht)
  rw [hprog, ensures_ret] at hens
  rw [← hshared]
  exact ⟨hens.2, hens.1⟩

end Alone

/-- The labels of a task that is alone are its own. -/
theorem leavesQueue_of_alone {fuel : ℕ} {w w' : DWorld} {ls : List DLabel}
    (hrun : (deployment cfg S fuel).RunIn (Alone i) w ls w') :
    ∀ l ∈ ls, LeavesQueue cfg l = true := by
  refine hrun.forall_labels ?_
  rintro u l v ⟨choice, rfl, -⟩ -
  rfl

/-- **A request that is not interrupted is one step on the table.** Under names that are apart, a
request about a record is called while nobody holds the mutex of its server and every record has a
time to live, on a connection that may be in any state. If it is not interrupted and Redis answers,
it comes to its end, and the answer it gives and the records it leaves are those of its function;
nothing else has changed, and every record still has a time to live. -/
theorem uninterrupted_request_is_one_step {fuel : ℕ} {request : Request}
    {op : OnTable RpcFault Response} {w w' : DWorld} (hapart : KeysApart cfg) (hw : Orderly cfg w)
    (hop : Table.perform cfg S w.shared.clock request = some op)
    (hfree : w.shared.holder n = none) (hexpiring : Expiring (IsRecordKey cfg) w.shared.db)
    (hspawn : (oneKeyspace cfg S fuel).step w (.spawn i ⟨n, request⟩) = some w') :
    (∃ ls w'' t r, (oneKeyspace cfg S fuel).RunIn (Alone i) w' ls w'' ∧ w''.tasks i = some t ∧
      t.prog = .ret r) ∧
    ∀ ls w'' t r, (oneKeyspace cfg S fuel).RunIn (Alone i) w' ls w'' → w''.tasks i = some t →
      t.prog = .ret r →
      op.run.run (tableOf w.shared) = (r, tableOf w''.shared) ∧
        Expiring (IsRecordKey cfg) w''.shared.db ∧ ∃ db, w''.shared = { w.shared with db } := by
  have hcalled : Orderly cfg w' :=
    hw.step hapart rfl (Machine.step_eq_some_iff.mp (step_deployment hapart hw hspawn))
  replace hspawn := step_deployment hapart hw hspawn
  refine ⟨?_, fun ls w'' t r hrun ht hprog => ?_⟩
  · obtain ⟨ls, w'', t, r, hrun, ht, hprog⟩ := alone_completes hop hfree hexpiring hspawn
    exact ⟨ls, w'', t, r, runIn_oneKeyspace hapart hcalled (leavesQueue_of_alone hrun) hrun, ht,
      hprog⟩
  · exact alone_computes hop hfree hexpiring hspawn (runIn_deployment hapart hcalled hrun) ht hprog

namespace Sample

/-- A queued job, and a connection on which an earlier request has left a watched key that was
written since. -/
def abandoned : DWorld :=
  { start (some queuedText) with
    shared := { (start (some queuedText)).shared with
      db := { (start (some queuedText)).shared.db with
        sessions := fun _ => ⟨[key], true, false, []⟩ } } }

/-- The claim of the job, just called. -/
def claiming : DWorld := abandoned.put 1 (machineIn.start ⟨0, .claimBackgroundResponse "resp_1"⟩)

/-- Only task `i` acts, and it is answered. -/
def onlyAnswered (i : ℕ) (_ : DWorld) : DLabel → Bool
  | .act j choice => j = i && match choice.delivery with
    | .replied => true
    | .failed .. => false
  | _ => false

theorem alone_of_onlyAnswered {i : ℕ} {w : DWorld} {l : DLabel} (h : onlyAnswered i w l = true) :
    Alone i w l := by
  rcases l with _ | ⟨j, ⟨delivery, stream, info⟩⟩ | _ | _
  · cases h
  · obtain ⟨hj, hdelivery⟩ := Bool.and_eq_true_iff.mp h
    obtain rfl : j = i := by simpa using hj
    rcases delivery with _ | _
    · exact ⟨_, rfl, rfl⟩
    · cases hdelivery
  · cases h
  · cases h

theorem expiring_abandoned : Expiring (IsRecordKey config) abandoned.shared.db := by
  intro k e _ he
  replace he : (if k = key then some (⟨queuedText, some 600⟩ : Entry) else none) = some e := he
  split_ifs at he
  obtain rfl := Option.some.inj he
  exact ⟨600, rfl, by decide⟩

theorem orderly_abandoned : Orderly config abandoned := by
  have hsorted : Sorted config (start (some queuedText)).shared :=
    (sortedStart_start (some queuedText)).sorted
  refine ⟨⟨⟨hsorted.db.strings, fun n => ⟨fun k hk => ?_, fun k ttl text hmem => ?_⟩⟩,
    hsorted.cursors⟩, fun i t ht => ?_⟩
  · obtain rfl := List.mem_singleton.mp hk
    decide
  · cases hmem
  · cases ht

set_option maxRecDepth 100000 in
/-- The first attempt of the claim is refused, the second goes through. -/
def claimedOnSecond : machineIn.Recording (onlyAnswered 1) claiming (fun w =>
    (returned w 1).isSome = true ∧ w.shared.textAt key = some claimedText) :=
  ⟨turns 1 18, by decide +kernel⟩

end Sample

open Sample

/-- A claim on a connection that was left dirty takes two attempts, and is still one step. -/
theorem uninterrupted_request_claim : ∃ op ls w r,
    Table.perform config serde 200 (.claimBackgroundResponse "resp_1") = some op ∧
    machineIn.RunIn (Alone 1) claiming ls w ∧ w.shared.textAt key = some claimedText ∧
    op.run.run (tableOf abandoned.shared) = (r, tableOf w.shared) := by
  obtain ⟨w, hrun, hreturned, htext⟩ :=
    claimedOnSecond.exists_runIn fun _ _ h => alone_of_onlyAnswered h
  obtain ⟨r, hr⟩ := Option.isSome_iff_exists.mp hreturned
  obtain ⟨t, ht, hprog⟩ := returned_eq_some hr
  refine ⟨_, _, w, r, rfl, hrun, htext, ?_⟩
  exact ((uninterrupted_request_is_one_step (n := 0) (w := abandoned) keysApart_config
    orderly_abandoned rfl rfl expiring_abandoned
    (show machineIn.step abandoned _ = some claiming from rfl)).2 _ w t r hrun ht hprog).1

end ResponsesApiStore
