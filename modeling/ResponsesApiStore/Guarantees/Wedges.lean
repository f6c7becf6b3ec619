import ResponsesApiStore.Guarantees.Lifecycle
import ResponsesApiStore.Guarantees.Lifetimes
import ResponsesApiStore.Guarantees.Nesting
import ResponsesApiStore.Guarantees.Reconciled

/-!
# No job wedges

The guards of a claim, a completion, a failure and a reconcile are written separately. Together
they leave no gap: a job that was enqueued as queued is finished, or is in progress and can be
completed and failed, or is still queued and a reconcile that is not interrupted fails it once it
is stale (`no_job_wedges`). This holds exactly if the record that was enqueued can be read again,
and it goes on to hold exactly as long as the completions can be.
-/

namespace ResponsesApiStore

open Json (Value Serde)
open Redis (Keyspace TxCmd Session)
open Redis.Keyspace (ValidTtl Expiring)
open Interaction (Program Machine World Label)
open Interaction.Program

variable {N : Type} {cfg : StoreConfig} {S : Serde N}

/-! ### A request that is not interrupted -/

/-- A command of task `i` of server `n` is executed and its reply arrives. -/
def AnsweredAt (i n : ℕ) (σ : Shared) (c : Cmd) (σ' : Shared) (r : c.Reply) : Prop :=
  ∃ choice : Choice, choice.delivery = .replied ∧ σ.exec i n choice c = some (σ', r)

section Uninterrupted

variable {i n : ℕ} {σ : Shared} {α : Type}

theorem answeredAt_tx {c : TxCmd} {σ' : Shared} {r : c.Reply} :
    AnsweredAt i n σ (.tx c) σ' r ↔
      σ' = { σ with db := (c.run σ.db n).1 } ∧ r = (c.run σ.db n).2 := by
  constructor
  · rintro ⟨choice, hreplied, hexec⟩
    rcases exec_tx hexec with ⟨-, hσ, hr⟩ | ⟨hfailed, -⟩
    · exact ⟨hσ, hr⟩
    · exact absurd hreplied hfailed
  · rintro ⟨rfl, rfl⟩
    exact ⟨Sample.answered, rfl, rfl⟩

theorem answeredAt_lock {σ' : Shared} {r : Unit} (hfree : σ.holder n = none) :
    AnsweredAt i n σ .lock σ' r ↔ σ' = σ.setHolder n (some i) := by
  constructor
  · rintro ⟨choice, -, hexec⟩
    simp only [Shared.exec, hfree] at hexec
    exact (Prod.mk.inj (Option.some.inj hexec)).1.symm
  · rintro rfl
    exact ⟨Sample.answered, rfl, by simp [Shared.exec, hfree]⟩

theorem answeredAt_unlock {σ' : Shared} {r : Unit} :
    AnsweredAt i n σ .unlock σ' r ↔ σ' = σ.setHolder n none := by
  constructor
  · rintro ⟨choice, -, hexec⟩
    exact (Prod.mk.inj (Option.some.inj hexec)).1.symm
  · rintro rfl
    exact ⟨Sample.answered, rfl, rfl⟩

theorem ensures_answered_tx {c : TxCmd} {post : Shared → c.Reply → Prop}
    (hpost : post { σ with db := (c.run σ.db n).1 } (c.run σ.db n).2) :
    (send (.tx c)).Ensures (AnsweredAt i n) post σ := by
  refine ⟨⟨_, _, answeredAt_tx.mpr ⟨rfl, rfl⟩⟩, fun σ' r hr => ?_⟩
  obtain ⟨rfl, rfl⟩ := answeredAt_tx.mp hr
  exact hpost

/-- A discard leaves the session outside `MULTI`. -/
theorem run_discard (db : Keyspace) (n : ℕ) :
    (TxCmd.run db n .discard).1.strings = db.strings ∧
      ((TxCmd.run db n .discard).1.sessions n).inMulti = false ∧
      (((TxCmd.run db n .discard).1.sessions n).dirty = true → (db.sessions n).dirty = true) := by
  rw [TxCmd.run]
  split_ifs with hmulti
  · exact ⟨rfl, by simp [Session.fresh], by simp [Session.fresh]⟩
  · exact ⟨rfl, by simpa using hmulti, id⟩

/-- The end of a transaction on a session outside `MULTI`: a dirty one is answered nil and starts
afresh, a clean one writes. -/
theorem ensures_commit {key payload : String} {ttl : UInt64}
    {post : Shared → Except Fault Bool → Prop} (hmulti : (σ.db.sessions n).inMulti = false)
    (hvalid : ValidTtl ttl)
    (hdirty : (σ.db.sessions n).dirty = true → ∀ db : Keyspace, db.strings = σ.db.strings →
      db.sessions n = .fresh → post { σ with db } (.ok false))
    (hclean : (σ.db.sessions n).dirty = false → ∀ db : Keyspace, db.textAt key = some payload →
      post { σ with db } (.ok true)) :
    (ResponseStore.commit key ttl payload).run.Ensures (AnsweredAt i n) post σ := by
  rw [ResponseStore.commit, ensures_except_bind_iff, ensures_storage]
  refine ensures_answered_tx ?_
  simp only [TxCmd.run, hmulti, Bool.false_eq_true, if_false, Except.mapError]
  rw [ensures_except_bind_iff, ensures_storage]
  refine ensures_answered_tx ?_
  simp only [TxCmd.run, Keyspace.setSession_sessions_self, if_true, Except.mapError]
  rw [ensures_except_bind_iff, ensures_storage]
  refine ensures_answered_tx ?_
  cases hd : (σ.db.sessions n).dirty with
  | true =>
    simp only [TxCmd.run, Keyspace.setSession_sessions_self, Session.enqueue, if_true,
      Except.mapError]
    exact hdirty hd _ rfl (Keyspace.setSession_sessions_self _ _ _)
  | false =>
    simp only [TxCmd.run, Keyspace.setSession_sessions_self, Session.enqueue, if_true,
      Bool.false_eq_true, if_false, List.nil_append, Keyspace.runQueue, Keyspace.setEx,
      if_pos hvalid, Except.mapError]
    exact hclean hd _ (Keyspace.write_textAt_self _ _ _)

/-- The time to live that a transition writes with is one that `SETEX` accepts. -/
theorem validTtl_reconcileWriteTtl {db : Keyspace} {key v : String} {ttl : UInt64}
    (hexpiring : Expiring (· = key) db) (htext : db.textAt key = some v) :
    ValidTtl (reconcileWriteTtl (db.ttlReply key) ttl) := by
  obtain ⟨hmax, habsent⟩ := hexpiring.ttlReply rfl
  have hreported : 0 ≤ db.ttlReply key := by
    by_contra hneg
    rw [habsent (by omega)] at htext
    cases htext
  have heq : ((reconcileWriteTtl (db.ttlReply key) ttl).toNat : ℤ) = _ :=
    reconcileWriteTtl_eq hreported hmax
  have hone : 1 ≤ Keyspace.maxTtl := by decide
  constructor <;> omega

variable {key id v payload : String} {stored : StoredResponse N} {now staleSeconds : Int64}

/-- One attempt of a reconcile on a stale job. -/
theorem ensures_attempt_stale {post : Shared → Except Fault (Option (StoredResponse N)) → Prop}
    (hmulti : (σ.db.sessions n).inMulti = false) (hexpiring : Expiring (· = key) σ.db)
    (htext : σ.textAt key = some v) (hv : StoredResponse.ofText S v = .ok stored)
    (hqueued : shouldReconcileStale stored = true)
    (hstale : isStaleEnqueued stored.enqueuedAt now staleSeconds = true)
    (hpayload : (applyStaleFailure stored id).toText S = .ok payload)
    (hdirty : (σ.db.sessions n).dirty = true → ∀ db : Keyspace, db.strings = σ.db.strings →
      db.sessions n = .fresh → post { σ with db } (.ok none))
    (hclean : (σ.db.sessions n).dirty = false → ∀ db : Keyspace, db.textAt key = some payload →
      post { σ with db } (.ok (some (applyStaleFailure stored id)))) :
    (ResponseStore.reconcileStaleTransactionAttempt cfg S key id now staleSeconds).run.Ensures
      (AnsweredAt i n) post σ := by
  have htext' : σ.db.textAt key = some v := htext
  rw [ResponseStore.reconcileStaleTransactionAttempt, ensures_except_bind_iff, ensures_storage]
  refine ensures_answered_tx ?_
  simp only [TxCmd.run, hmulti, Bool.false_eq_true, if_false, Except.mapError]
  rw [ensures_except_bind_iff, ensures_storage]
  refine ensures_answered_tx ?_
  simp only [TxCmd.run, Keyspace.setSession_sessions_self, Bool.false_eq_true, if_false,
    Keyspace.setSession_textAt, htext', Except.mapError, hv, hqueued, hstale, Bool.not_true,
    Bool.or_self, hpayload]
  rw [ensures_except_bind_iff, ensures_outcome, ensures_storage]
  refine ensures_answered_tx ?_
  simp only [TxCmd.run, Keyspace.setSession_sessions_self, Bool.false_eq_true, if_false,
    Except.mapError]
  rw [ensures_except_bind_iff]
  refine ensures_commit (by simp) (validTtl_reconcileWriteTtl hexpiring htext')
    (fun hd db hstrings hfresh => ?_) fun hd db hdb => ?_
  · exact hdirty (by simpa using hd) db hstrings hfresh
  · exact hclean (by simpa using hd) db hdb

/-- The outcome of a reconcile that fails a stale job. -/
def StaleFailed (key id payload : String) (stored : StoredResponse N) (σ : Shared)
    (r : Except Fault (StoredResponse N)) : Prop :=
  r = .ok (applyStaleFailure stored id) ∧ σ.textAt key = some payload

/-- One round of a reconcile on a stale job: it fails the job, unless an earlier attempt has left
the session dirty. -/
theorem ensures_round_stale {left : ℕ} {next : Act (StoredResponse N)}
    (hfree : σ.holder n = none) (hexpiring : Expiring (· = key) σ.db)
    (htext : σ.textAt key = some v) (hv : StoredResponse.ofText S v = .ok stored)
    (hqueued : shouldReconcileStale stored = true)
    (hstale : isStaleEnqueued stored.enqueuedAt now staleSeconds = true)
    (hpayload : (applyStaleFailure stored id).toText S = .ok payload)
    (hnext : (σ.db.sessions n).dirty = true → ∀ σ' : Shared, σ'.holder n = none →
      σ'.db.strings = σ.db.strings → σ'.db.sessions n = .fresh →
      next.run.Ensures (AnsweredAt i n) (StaleFailed key id payload stored) σ') :
    (ResponseStore.round
      (ResponseStore.reconcileStaleTransactionAttempt cfg S key id now staleSeconds) left
      next).run.Ensures (AnsweredAt i n) (StaleFailed key id payload stored) σ := by
  rw [ResponseStore.round, ensures_except_bind_iff]
  refine ResponseStore.ensures_locked ⟨_, (), (answeredAt_lock hfree).mpr rfl⟩ ?_
  intro σ₁ r₁ hlock
  obtain rfl := (answeredAt_lock hfree).mp hlock
  refine ⟨⟨_, _, answeredAt_tx.mpr ⟨rfl, rfl⟩⟩, fun σ₂ r₂ hdiscard => ?_⟩
  obtain ⟨rfl, -⟩ := answeredAt_tx.mp hdiscard
  obtain ⟨hstrings, hmulti, hdirty⟩ := run_discard σ.db n
  have hunlock : ∀ {σ : Shared} {post : Shared → Prop}, post (σ.setHolder n none) →
      (∃ σ' r, AnsweredAt i n σ .unlock σ' r) ∧
        ∀ σ' r, AnsweredAt i n σ .unlock σ' r → post σ' := by
    intro σ post hpost
    refine ⟨⟨_, (), answeredAt_unlock.mpr rfl⟩, ?_⟩
    rintro σ' r hr
    obtain rfl := answeredAt_unlock.mp hr
    exact hpost
  refine ensures_attempt_stale hmulti (hexpiring.congr hstrings) ?_ hv hqueued hstale hpayload
    (fun hd db hdb hfresh => hunlock ?_) fun hd db hdb => hunlock ?_
  · exact (textAt_congr hstrings key).trans htext
  · exact hnext (hdirty hd) _ (Shared.setHolder_holder_self _ _ _) (hdb.trans hstrings) hfresh
  · exact ⟨rfl, hdb⟩

/-- A reconcile of a stale job fails it, at the second attempt at the latest. -/
theorem ensures_reconcileStaleAtomic (hfree : σ.holder n = none)
    (hexpiring : Expiring (· = ResponseStore.key cfg id) σ.db)
    (htext : σ.textAt (ResponseStore.key cfg id) = some v)
    (hv : StoredResponse.ofText S v = .ok stored) (hqueued : shouldReconcileStale stored = true)
    (hstale : isStaleEnqueued stored.enqueuedAt now staleSeconds = true)
    (hpayload : (applyStaleFailure stored id).toText S = .ok payload) :
    (ResponseStore.reconcileStaleAtomic cfg S id now staleSeconds).run.Ensures (AnsweredAt i n)
      (StaleFailed (ResponseStore.key cfg id) id payload stored) σ := by
  show (ResponseStore.round _ _
      (ResponseStore.reconcileStaleAttempts _ _ _ _ _ 15)).run.Ensures _ _ _
  refine ensures_round_stale hfree hexpiring htext hv hqueued hstale hpayload ?_
  intro _ σ' hfree' hstrings hfresh
  show (ResponseStore.round _ _
      (ResponseStore.reconcileStaleAttempts _ _ _ _ _ 14)).run.Ensures _ _ _
  refine ensures_round_stale hfree' (hexpiring.congr hstrings)
    ((textAt_congr hstrings _).trans htext) hv hqueued hstale hpayload fun hdirty => ?_
  rw [hfresh] at hdirty
  cases hdirty

/-- A read of a record that is there. -/
theorem ensures_get_found {post : Shared → Except Fault (StoredResponse N) → Prop}
    (htext : σ.textAt (ResponseStore.key cfg id) = some v)
    (hv : StoredResponse.ofText S v = .ok stored) (hlive : isDeletedTombstone stored = false)
    (hpost : post σ (.ok stored)) :
    (ResponseStore.get cfg S id false).run.Ensures (AnsweredAt i n) post σ := by
  rw [ResponseStore.get, ensures_except_bind_iff, ResponseStore.load, ensures_except_bind_iff,
    ensures_storage]
  refine ⟨⟨σ, _, Sample.answered, rfl, rfl⟩, ?_⟩
  rintro σ₁ r ⟨choice, hreplied, hexec⟩
  obtain ⟨rfl, rfl⟩ := Prod.mk.inj (Option.some.inj hexec)
  rw [hreplied, show σ.db.textAt (ResponseStore.key cfg id) = some v from htext]
  show (some <$> ofExcept (ResponseStore.decode S v) : Act _).run.Ensures _ _ _
  rw [ResponseStore.decode, hv]
  show (if isDeletedTombstone stored then _ else _ : Act _).run.Ensures _ _ _
  rw [if_neg (by simp [hlive])]
  exact hpost

theorem shouldReconcileStale_of_queued (hqueued : storedResponseStatus stored = some "queued") :
    shouldReconcileStale stored = true := by
  simp [shouldReconcileStale, isInFlightBackground, hqueued]

/-- The reconcile of a queued job: it goes by the age of the job. -/
theorem ensures_reconcileStaleResponse {post : Shared → Except Fault (StoredResponse N) → Prop}
    (hfree : σ.holder n = none) (hexpiring : Expiring (· = ResponseStore.key cfg id) σ.db)
    (htext : σ.textAt (ResponseStore.key cfg id) = some v)
    (hv : StoredResponse.ofText S v = .ok stored)
    (hqueued : storedResponseStatus stored = some "queued")
    (hpayload : (applyStaleFailure stored id).toText S = .ok payload)
    (hstale : isStaleEnqueued stored.enqueuedAt σ.clock staleSeconds = true → ∀ σ' : Shared,
      σ'.textAt (ResponseStore.key cfg id) = some payload →
      post σ' (.ok (applyStaleFailure stored id)))
    (hyoung : isStaleEnqueued stored.enqueuedAt σ.clock staleSeconds = false →
      post σ (.ok stored)) :
    (ResponseStore.reconcileStaleResponse cfg S id stored staleSeconds).run.Ensures
      (AnsweredAt i n) post σ := by
  have hshould := shouldReconcileStale_of_queued hqueued
  rw [ResponseStore.reconcileStaleResponse, if_neg (by simp [hshould]), ensures_except_bind_iff]
  refine ensures_ask.mpr ⟨⟨σ, σ.clock, Sample.answered, rfl, rfl⟩, ?_⟩
  rintro σ₁ now ⟨choice, -, hexec⟩
  obtain ⟨rfl, rfl⟩ := Prod.mk.inj (Option.some.inj hexec)
  dsimp only
  split_ifs with hage
  · exact hyoung (by simpa using hage)
  · have hold : isStaleEnqueued stored.enqueuedAt σ.clock staleSeconds = true := by
      simpa using hage
    refine (ensures_reconcileStaleAtomic hfree hexpiring htext hv hshould hold hpayload).mono ?_
    rintro σ' _ ⟨rfl, hfailed⟩
    exact hstale hold σ' hfailed

/-- **A reconcile that is not interrupted** fails a queued job exactly if it is stale, and leaves it
as it is otherwise. -/
theorem ensures_serve_reconcile [DecidableEq N] {fuel : ℕ} {enqueuedAt : Int64}
    (hid : id.isEmpty = false) (hpos : 0 < staleSeconds) (hfree : σ.holder n = none)
    (hexpiring : Expiring (· = ResponseStore.key cfg id) σ.db)
    (htext : σ.textAt (ResponseStore.key cfg id) = some v)
    (hv : StoredResponse.ofText S v = .ok stored)
    (hqueued : storedResponseStatus stored = some "queued")
    (henqueued : stored.enqueuedAt = some enqueuedAt)
    (hpayload : (applyStaleFailure stored id).toText S = .ok payload) :
    (serve cfg S fuel (.reconcileStaleResponse id staleSeconds)).Ensures (AnsweredAt i n)
      (fun σ' _ => σ'.textAt (ResponseStore.key cfg id) =
        if staleSeconds.toInt ≤ σ.clock.toInt - enqueuedAt.toInt then some payload else some v)
      σ := by
  have hlive : isDeletedTombstone stored = false := by simp [isDeletedTombstone, hqueued]
  have hstale : isStaleEnqueued stored.enqueuedAt σ.clock staleSeconds = true ↔
      staleSeconds.toInt ≤ σ.clock.toInt - enqueuedAt.toInt := by
    rw [henqueued]
    exact isStaleEnqueued_iff hpos
  generalize hafter : (if staleSeconds.toInt ≤ σ.clock.toInt - enqueuedAt.toInt then some payload
    else some v) = after
  -- the answer may be an error of the printer, after everything is written
  have hanswer : ∀ {σ' : Shared} (updated : StoredResponse N),
      σ'.textAt (ResponseStore.key cfg id) = after →
      (ofStatus (coreToProto S id updated) >>= fun record =>
        return .reconciled record (stored ≠ updated) : Rpc Response).run.Ensures (AnsweredAt i n)
        (fun σ _ => σ.textAt (ResponseStore.key cfg id) = after) σ' := by
    intro σ' updated htext
    rw [ensures_except_bind_iff]
    show (ret _).Ensures _ _ _
    rcases coreToProto S id updated with status | record
    · exact htext
    · exact htext
  show (reconcileStaleResponse cfg S id staleSeconds).run.Ensures _ _ _
  rw [reconcileStaleResponse, if_neg (by simp [hid]), ensures_except_bind_iff, ensures_rpc]
  refine ensures_get_found htext hv hlive ?_
  simp only [Except.mapError]
  rw [ensures_except_bind_iff, ensures_rpc, staleSecondsOf, if_pos hpos]
  refine ensures_reconcileStaleResponse hfree hexpiring htext hv hqueued hpayload ?_ ?_
  · intro hold σ' hfailed
    exact hanswer _ (by rw [← hafter, if_pos (hstale.mp hold), hfailed])
  · intro hyoung
    have hnot : ¬staleSeconds.toInt ≤ σ.clock.toInt - enqueuedAt.toInt := by
      intro h
      rw [hstale.mpr h] at hyoung
      cases hyoung
    exact hanswer _ (by rw [← hafter, if_neg hnot, htext])

end Uninterrupted

/-! ### The stages of a job -/

/-- The text is read as a record of this status. -/
def LoadsAs (S : Serde N) (v status : String) : Prop :=
  ∃ stored : StoredResponse N, StoredResponse.ofText S v = .ok stored ∧
    storedResponseStatus stored = some status

/-- The job is finished. -/
def Finished (S : Serde N) (v : String) : Prop :=
  ∃ status ∈ ["completed", "failed", "cancelled", "deleted"], LoadsAs S v status

/-- The job is in progress, and can be completed with any object and failed with any message. -/
def InHand (S : Serde N) (id v : String) : Prop :=
  ∃ stored : StoredResponse N, StoredResponse.ofText S v = .ok stored ∧
    storedResponseStatus stored = some "in_progress" ∧
    (∀ completed, completed.isObject = true →
      ∃ updated, prepareCompleteBackground completed stored id = .ok (updated, ())) ∧
    ∀ message, ∃ updated, prepareFailBackground message stored id = .ok (updated, ())

/-- Nothing happens but commands of task `i`, which are answered. -/
def Alone (i : ℕ) (_ : DWorld) (l : DLabel) : Prop :=
  ∃ choice : Choice, l = .act i choice ∧ choice.delivery = .replied

/-- A reconcile that is called at time `now` on a server whose mutex is free, and that is not
interrupted, comes to its end, and by then it has failed the job if it is stale, and has left it as
it is otherwise. -/
def Reconcilable [DecidableEq N] (cfg : StoreConfig) (S : Serde N) (fuel : ℕ) (id : String)
    (enqueuedAt : Int64) (w : DWorld) : Prop :=
  ∀ (i n : ℕ) (staleSeconds now : Int64) (w' : DWorld), 0 < staleSeconds →
    w.shared.holder n = none →
    (deployment cfg S fuel).Run w
      [.env (.clock now), .spawn i ⟨n, .reconcileStaleResponse id staleSeconds⟩] w' →
    (∃ ls w'' t result, (deployment cfg S fuel).RunIn (Alone i) w' ls w'' ∧
      w''.tasks i = some t ∧ t.prog = .ret result) ∧
    ∀ ls w'' t result, (deployment cfg S fuel).RunIn (Alone i) w' ls w'' → w''.tasks i = some t →
      t.prog = .ret result →
      if staleSeconds.toInt ≤ now.toInt - enqueuedAt.toInt then
        ∃ v, w''.shared.textAt (ResponseStore.key cfg id) = some v ∧ LoadsAs S v "failed"
      else w''.shared.textAt (ResponseStore.key cfg id) =
        w.shared.textAt (ResponseStore.key cfg id)

/-- The job is queued, and a reconcile decides by its age alone what becomes of it. -/
def Waiting [DecidableEq N] (cfg : StoreConfig) (S : Serde N) (fuel : ℕ) (id : String) (w : DWorld)
    (v : String) : Prop :=
  ∃ (stored : StoredResponse N) (enqueuedAt : Int64), StoredResponse.ofText S v = .ok stored ∧
    storedResponseStatus stored = some "queued" ∧ stored.enqueuedAt = some enqueuedAt ∧
    Reconcilable cfg S fuel id enqueuedAt w

/-- The job is in exactly one of the three stages. -/
def Unwedged [DecidableEq N] (cfg : StoreConfig) (S : Serde N) (fuel : ℕ) (id : String) (w : DWorld)
    (v : String) : Prop :=
  (Finished S v ∧ ¬InHand S id v ∧ ¬Waiting cfg S fuel id w v) ∨
    (¬Finished S v ∧ InHand S id v ∧ ¬Waiting cfg S fuel id w v) ∨
    (¬Finished S v ∧ ¬InHand S id v ∧ Waiting cfg S fuel id w v)

section Stages

variable {id v payload : String} {stored : StoredResponse N}

/-- A job in progress passes the guards of a completion and of a failure. -/
theorem inHand_of_inProgress (hv : StoredResponse.ofText S v = .ok stored)
    (hprogress : storedResponseStatus stored = some "in_progress") : InHand S id v := by
  have hrunning : isInProgressBackground stored = true := isInProgressBackground_iff.mpr hprogress
  have hopen : isTerminalBackgroundStatus stored = false := by
    simp [isTerminalBackgroundStatus, isDeletedTombstone, hprogress]
  refine ⟨stored, hv, hprogress, fun completed hobject => ?_, fun message => ?_⟩
  · obtain ⟨r₁, h₁⟩ := Value.exists_set_of_isObject hobject "id" (.str id)
    obtain ⟨r₂, h₂⟩ := Value.exists_set_of_isObject (Value.isObject_of_set h₁) "status"
      (.str "completed")
    obtain ⟨r₃, h₃⟩ := Value.exists_set_of_isObject (Value.isObject_of_set h₂) "background"
      (.ofBool true)
    rw [prepareCompleteBackground, if_neg (by simp [hobject]), if_neg (by simp [hopen]),
      if_neg (by simp [hrunning])]
    refine ⟨{ stored with
      response := r₃, pendingUpstreamRequest := none, upstreamAuthorization := none }, ?_⟩
    refine bind_eq_ok_iff.mpr ⟨r₁, mapError_eq_ok_iff.mpr h₁, ?_⟩
    refine bind_eq_ok_iff.mpr ⟨r₂, mapError_eq_ok_iff.mpr h₂, ?_⟩
    exact bind_eq_ok_iff.mpr ⟨r₃, mapError_eq_ok_iff.mpr h₃, rfl⟩
  · rw [prepareFailBackground, if_neg (by simp [hopen]), if_neg (by simp [hrunning])]
    exact ⟨_, rfl⟩

/-- A text is read in one way only. -/
theorem LoadsAs.unique {status status' : String} (h : LoadsAs S v status)
    (h' : LoadsAs S v status') : status = status' := by
  obtain ⟨stored, hv, hstatus⟩ := h
  obtain ⟨stored', hv', hstatus'⟩ := h'
  obtain rfl : stored = stored' := Except.ok.inj (hv.symm.trans hv')
  exact Option.some.inj (hstatus.symm.trans hstatus')

/-- What was printed from a record has its status, if it can be read. -/
theorem readsAs_of_toText {record : StoredResponse N} {status : String}
    (h : record.toText S = .ok payload) (hreadable : Readable S payload)
    (hstatus : storedResponseStatus record = some status) : LoadsAs S payload status := by
  obtain ⟨read, hread⟩ := hreadable
  refine ⟨read, hread, ?_⟩
  rw [StoredResponse.ofText_toText h hread, storedResponseStatus_reread, hstatus]

theorem InHand.loadsAs (h : InHand S id v) : LoadsAs S v "in_progress" := by
  obtain ⟨stored, hv, hprogress, -⟩ := h
  exact ⟨stored, hv, hprogress⟩

theorem not_finished_of_loadsAs {status : String} (h : LoadsAs S v status)
    (hstatus : status = "queued" ∨ status = "in_progress") : ¬Finished S v := by
  rintro ⟨status', hmem, hstatus'⟩
  obtain rfl := h.unique hstatus'
  rcases hstatus with rfl | rfl <;> simp at hmem

variable [DecidableEq N] {fuel : ℕ} {w w' : DWorld}

theorem Waiting.loadsAs (h : Waiting cfg S fuel id w v) : LoadsAs S v "queued" := by
  obtain ⟨stored, enqueuedAt, hv, hqueued, -⟩ := h
  exact ⟨stored, hv, hqueued⟩

theorem not_waiting_of_inHand (h : InHand S id v) : ¬Waiting cfg S fuel id w v := fun hwaiting => by
  have hsame := h.loadsAs.unique hwaiting.loadsAs
  simp at hsame

theorem unwedged_of_finished (h : Finished S v) : Unwedged cfg S fuel id w v :=
  .inl ⟨h, fun hhand => not_finished_of_loadsAs hhand.loadsAs (.inr rfl) h,
    fun hwaiting => not_finished_of_loadsAs hwaiting.loadsAs (.inl rfl) h⟩

theorem unwedged_of_inHand (h : InHand S id v) : Unwedged cfg S fuel id w v :=
  .inr (.inl ⟨not_finished_of_loadsAs h.loadsAs (.inr rfl), h, not_waiting_of_inHand h⟩)

theorem unwedged_of_waiting (h : Waiting cfg S fuel id w v) : Unwedged cfg S fuel id w v :=
  .inr (.inr ⟨not_finished_of_loadsAs h.loadsAs (.inl rfl),
    fun hhand => not_waiting_of_inHand hhand h, h⟩)

/-- In every stage the text can be read. -/
theorem Unwedged.readable (h : Unwedged cfg S fuel id w v) : Readable S v := by
  rcases h with ⟨⟨status, -, stored, hv, -⟩, -⟩ | ⟨-, ⟨stored, hv, -⟩, -⟩ |
    ⟨-, -, stored, -, hv, -⟩
  · exact ⟨stored, hv⟩
  · exact ⟨stored, hv⟩
  · exact ⟨stored, hv⟩

end Stages

/-! ### Reconciles in a world -/

section Reconciles

variable [DecidableEq N] {fuel : ℕ} {id v payload : String} {stored : StoredResponse N}
  {w : DWorld} {enqueuedAt : Int64} {limit : ℕ}

/-- A task that is alone is answered from the shared state. -/
theorem isolates_alone {i n : ℕ} {request : Request} :
    (deployment cfg S fuel).Isolates (Alone i) i ⟨n, request⟩ (fun σ => σ) (AnsweredAt i n) := by
  constructor
  · rintro x choice t c k σ r ⟨choice', hlabel, hreplied⟩ - - hcall - - hexec
    obtain ⟨-, rfl⟩ := Label.act.inj hlabel
    have hserver : t.call.server = n := by rw [hcall]
    exact ⟨choice, hreplied, hserver ▸ hexec⟩
  · rintro x l y ⟨choice, hlabel, -⟩ hother -
    exact absurd hlabel (hother choice)

/-- **A queued job that can be read waits for a reconcile only as long as it is not stale.** -/
theorem reconcilable_of_queued (hS : S.Limited limit) (hlimit : 3 ≤ limit)
    (hid : id.isEmpty = false)
    (hexpiring : Expiring (· = ResponseStore.key cfg id) w.shared.db)
    (htext : w.shared.textAt (ResponseStore.key cfg id) = some v)
    (hv : StoredResponse.ofText S v = .ok stored)
    (hqueued : storedResponseStatus stored = some "queued")
    (henqueued : stored.enqueuedAt = some enqueuedAt)
    (hpayload : (applyStaleFailure stored id).toText S = .ok payload) :
    Reconcilable cfg S fuel id enqueuedAt w := by
  have hreadable : Readable S payload :=
    (readable_iff_fits hS (by omega) hpayload).mpr ((fits_of_ofText hS hv).fail hlimit id _)
  rintro i n staleSeconds now w' hpos hfree ⟨-, x, hclock, -, y, hspawn, rfl⟩
  cases Machine.step_eq_some_iff.mp hclock with
  | env henv =>
  obtain rfl := Option.some.inj henv
  cases Machine.step_eq_some_iff.mp hspawn with
  | spawn hnew =>
  have hensures : (serve cfg S fuel (.reconcileStaleResponse id staleSeconds)).Ensures
      (AnsweredAt i n) _ { w.shared with clock := now } :=
    ensures_serve_reconcile hid hpos hfree hexpiring htext hv hqueued henqueued hpayload
  refine ⟨?_, fun ls w'' t result hrun ht hprog => ?_⟩
  · refine isolates_alone.completes (fun _ => True) ?_ trivial
      (World.put_tasks_self _ i _) rfl rfl hensures
    rintro x t c k σ' r - - - hcall - ⟨choice, hreplied, hexec⟩
    refine ⟨choice, σ', r, ⟨choice, rfl, hreplied⟩, ?_, trivial⟩
    show x.shared.exec i t.call.server choice c = _
    rw [hcall]
    exact hexec
  · obtain ⟨t', ht', -, hens⟩ :=
      isolates_alone.ensures hrun (World.put_tasks_self _ i _) rfl hensures
    obtain rfl := Option.some.inj (ht'.symm.trans ht)
    rw [hprog, ensures_ret] at hens
    split_ifs with hstale
    · rw [if_pos hstale] at hens
      exact ⟨payload, hens,
        readsAs_of_toText hpayload hreadable (storedResponseStatus_applyStaleFailure stored id)⟩
    · rw [if_neg hstale] at hens
      rw [hens, htext]

end Reconciles

/-! ### After an enqueue -/

/-- At step `l`, an enqueue stores its record at the key of `id`. -/
def Enqueues (cfg : StoreConfig) (S : Serde N) (w : DWorld) (l : DLabel) (id : String)
    (record : StoredResponse N) : Prop :=
  ∃ i t sent payload, t.call.request = .enqueueBackgroundJob sent ∧
    Stores w l i t (ResponseStore.key cfg id) payload ∧ record.toText S = .ok payload ∧
    ClientWrite cfg S t.call.request (knowledge t).now (ResponseStore.key cfg id) record

/-- No client writes the key of `id` and nobody deletes the response. -/
structure WorkedOn (cfg : StoreConfig) (S : Serde N) (id : String) (w : DWorld) (l : DLabel) :
    Prop where
  client : NoClientWrite cfg S (ResponseStore.key cfg id) w l
  delete : ¬DeletesId w l id

/-- No client writes the key of `id`, nobody deletes the response, and what completions bring in
leaves room for the record. -/
structure WorkedOnWithin (cfg : StoreConfig) (S : Serde N) (limit : ℕ) (id : String) (w : DWorld)
    (l : DLabel) : Prop extends WorkedOn cfg S id w l where
  completion : ∀ i t payload, Commits w l i t (ResponseStore.key cfg id) payload →
    CompletionFits S limit t.call.request

/-- What becomes of a job that was enqueued as `payload`. -/
structure JobKept (cfg : StoreConfig) (S : Serde N) (id payload : String) (w : DWorld) : Prop where
  stage : ∀ v, w.shared.textAt (ResponseStore.key cfg id) = some v →
    v = payload ∨ InHand S id v ∨ Finished S v
  expiring : Expiring (· = ResponseStore.key cfg id) w.shared.db

section Jobs

variable {id payload : String} {record : StoredResponse N} {limit : ℕ}

/-- What a transition writes is in progress or finished, if it can be read. -/
theorem Transition.stage {request : Request} {now : Option Int64} {key v payload : String}
    (h : Transition cfg S request now key v payload) (hreadable : Readable S payload) :
    InHand S id payload ∨ Finished S payload := by
  cases h with
  | claim hv hprepare hpayload =>
    left
    obtain ⟨read, hread, hprogress⟩ :=
      readsAs_of_toText hpayload hreadable (prepareClaimBackground_eq_ok hprepare).2.2.1
    exact inHand_of_inProgress hread hprogress
  | complete hjson hv hprepare hpayload =>
    exact .inr ⟨"completed", by simp,
      readsAs_of_toText hpayload hreadable (prepareCompleteBackground_eq_ok hprepare).2.1⟩
  | fail hv hprepare hpayload =>
    exact .inr ⟨"failed", by simp,
      readsAs_of_toText hpayload hreadable (prepareFailBackground_eq_ok hprepare).2.1⟩
  | stale hrequest hv hqueued hstale hpayload =>
    exact .inr ⟨"failed", by simp,
      readsAs_of_toText hpayload hreadable (storedResponseStatus_applyStaleFailure _ _)⟩

/-- An enqueue stamps the time, and stores under an id that is not empty. -/
theorem Enqueues.stamped {w : DWorld} {l : DLabel} (h : Enqueues cfg S w l id record) :
    id.isEmpty = false ∧ ∃ now, record.enqueuedAt = some now := by
  obtain ⟨i, t, sent, payload, hrequest, -, -, hwrite⟩ := h
  rw [hrequest] at hwrite
  generalize (knowledge t).now = time at hwrite
  generalize hkey : ResponseStore.key cfg id = key at hwrite
  cases hwrite with
  | @enqueue _ p now core hrecord hcore =>
    obtain rfl := responseStoreKey_inj.mp hkey
    refine ⟨?_, now, rfl⟩
    rw [requireRecord] at hrecord
    split at hrecord
    · rename_i found hfound
      obtain rfl := Except.ok.inj hrecord
      simpa using (Option.filter_eq_some_iff.mp hfound).2
    · cases hrecord

variable [DecidableEq N] {fuel : ℕ} {w w' : DWorld} {l : DLabel}

/-- A step that is nobody else's write of the key keeps it expiring. -/
theorem expiring_of_step (h : Expiring (· = ResponseStore.key cfg id) w.shared.db)
    (hforeign : ¬Foreign (ResponseStore.key cfg id) l)
    (hs : (deployment cfg S fuel).Stepped w l w') :
    Expiring (· = ResponseStore.key cfg id) w'.shared.db := by
  cases hs with
  | spawn hfree => exact h
  | act htask hlive hprog hexec => exact expiring_of_effect h (exec_effect hexec)
  | @drop i t htask hlive =>
    exact h.congr (congrArg Keyspace.strings (w.shared.release_db i t.call.server))
  | env henv => exact expiring_of_env h henv fun key hkey => hkey ▸ hforeign

/-- **One step.** -/
theorem JobKept.step (hI : JobKept cfg S id payload w) (h : Sound cfg S w) (hS : S.Limited limit)
    (hlimit : 3 ≤ limit) (hok : WorkedOnWithin cfg S limit id w l)
    (hs : (deployment cfg S fuel).Stepped w l w') : JobKept cfg S id payload w' := by
  refine ⟨fun v hv => ?_, expiring_of_step hI.expiring hok.client.2 hs⟩
  rcases h.change hs (ResponseStore.key cfg id) with hsame | hchange
  · exact hI.stage v (hsame ▸ hv)
  rcases hchange.cases_of_noClientWrite hok.client with
    ⟨i, t, before, after, htext, -, hcommits, htransition⟩ | ⟨id', hkey, hdeletes, -⟩ | ⟨hnone, -⟩
  · obtain rfl : v = after := Option.some.inj (hv.symm.trans htext)
    exact .inr (htransition.stage
      ((htransition.readable_iff hS hlimit).mpr (hok.completion i t v hcommits)))
  · obtain rfl := responseStoreKey_inj.mp hkey
    exact absurd hdeletes hok.delete
  · rw [hnone] at hv
    cases hv

/-- What an enqueue leaves. -/
theorem Enqueues.jobKept (h : Enqueues cfg S w l id record)
    (hs : (deployment cfg S fuel).Stepped w l w') : ∃ payload, record.toText S = .ok payload ∧
      w'.shared.textAt (ResponseStore.key cfg id) = some payload ∧
      JobKept cfg S id payload w' := by
  obtain ⟨i, t, sent, payload, -, hstores, hpayload, -⟩ := h
  obtain ⟨ttl, hvalid, hstrings⟩ := hstores.strings hs
  have htext := hstores.writes hs
  refine ⟨payload, hpayload, htext, ⟨fun v hv => ?_, ?_⟩⟩
  · exact .inl (Option.some.inj (hv.symm.trans htext))
  · rintro _ e rfl he
    obtain rfl := Option.some.inj (hstrings.symm.trans he)
    exact ⟨ttl.toNat, rfl, hvalid.2⟩

/-- A job that is still as it was enqueued waits, if it can be read. -/
theorem waiting_of_payload (hS : S.Limited limit) (hlimit : 3 ≤ limit) (hid : id.isEmpty = false)
    (hexpiring : Expiring (· = ResponseStore.key cfg id) w.shared.db)
    (htext : w.shared.textAt (ResponseStore.key cfg id) = some payload)
    (hpayload : record.toText S = .ok payload) (hreadable : Readable S payload)
    (hqueued : storedResponseStatus record = some "queued")
    (henqueued : ∃ now, record.enqueuedAt = some now)
    (hprints : ∃ text, (applyStaleFailure (record.reread S) id).toText S = .ok text) :
    Waiting cfg S fuel id w payload := by
  obtain ⟨stored, hstored⟩ := hreadable
  obtain ⟨now, hnow⟩ := henqueued
  obtain ⟨text, hfailed⟩ := hprints
  obtain rfl : stored = record.reread S := StoredResponse.ofText_toText hpayload hstored
  have hstatus : storedResponseStatus (record.reread S) = some "queued" := by
    rw [storedResponseStatus_reread, hqueued]
  exact ⟨_, now, hstored, hstatus, hnow,
    reconcilable_of_queued hS hlimit hid hexpiring htext hstored hstatus hnow hfailed⟩

/-- A transition leaves the job in one of the stages exactly if it is no completion with an object
that is nested too deep. -/
theorem unwedged_commit_iff (hS : S.Limited limit) (hlimit : 3 ≤ limit) (h : Sound cfg S w)
    {i : ℕ} {t : DTask} (hcommits : Commits w l i t (ResponseStore.key cfg id) payload)
    (hs : (deployment cfg S fuel).Stepped w l w') :
    (∀ v, w'.shared.textAt (ResponseStore.key cfg id) = some v →
      Unwedged cfg S fuel id w' v) ↔ CompletionFits S limit t.call.request := by
  obtain ⟨before, -, -, -, htransition, -⟩ := h.commit_reads hcommits
  have htext := h.commit_writes hcommits hs
  rw [← htransition.readable_iff hS hlimit]
  constructor
  · intro hall
    exact (hall payload htext).readable
  · intro hreadable v hv
    obtain rfl : v = payload := Option.some.inj (hv.symm.trans htext)
    rcases htransition.stage hreadable with hhand | hfinished
    · exact unwedged_of_inHand hhand
    · exact unwedged_of_finished hfinished

/-- **No job wedges that can be read.** A job was enqueued as queued.

* In all runs in which nobody else writes its key, nobody deletes it and what completions bring in
  leaves room for the record, while the key is there the job is finished, or in progress and ready
  to be completed and failed, or waiting for a reconcile that decides by its age alone. This is so
  exactly if the record that was enqueued leaves room for the levels around it.
* In all runs, a transition leaves the job in one of the stages exactly if it is no completion that
  leaves no room. -/
theorem no_job_wedges {w₀ w₁ w₂ : DWorld} {ls₁ : List DLabel} (hS : S.Limited limit)
    (hlimit : 3 ≤ limit) (hw : Initial w₀) (hrun : (deployment cfg S fuel).Run w₀ ls₁ w₁)
    (henqueues : Enqueues cfg S w₁ l id record)
    (hstep : (deployment cfg S fuel).step w₁ l = some w₂)
    (hqueued : storedResponseStatus record = some "queued")
    (hprints : ∃ text, (applyStaleFailure (record.reread S) id).toText S = .ok text) :
    ((∀ ls w, (deployment cfg S fuel).RunIn (WorkedOnWithin cfg S limit id) w₂ ls w →
      ∀ v, w.shared.textAt (ResponseStore.key cfg id) = some v → Unwedged cfg S fuel id w v) ↔
      Fits limit record) ∧
    ∀ ls w l' w', (deployment cfg S fuel).Run w₂ ls w →
      (deployment cfg S fuel).step w l' = some w' →
      ∀ i t payload, Commits w l' i t (ResponseStore.key cfg id) payload →
        ((∀ v, w'.shared.textAt (ResponseStore.key cfg id) = some v →
          Unwedged cfg S fuel id w' v) ↔ CompletionFits S limit t.call.request) := by
  have hs := Machine.step_eq_some_iff.mp hstep
  have hsound : Sound cfg S w₂ := (sound_of_run hw hrun).step hs
  obtain ⟨hid, hnow⟩ := henqueues.stamped
  obtain ⟨payload, hpayload, htext₂, hkept⟩ := henqueues.jobKept hs
  constructor
  · rw [← readable_iff_fits hS (by omega) hpayload]
    constructor
    · intro hall
      exact (hall [] w₂ rfl payload htext₂).readable
    · intro hreadable ls w hrun' v hv
      have hkept' : JobKept cfg S id payload w :=
        hsound.invariant (fun u l u' hu hI hok hs => hI.step hu hS hlimit hok hs) hrun' hkept
      rcases hkept'.stage v hv with rfl | hhand | hfinished
      · exact unwedged_of_waiting (waiting_of_payload hS hlimit hid hkept'.expiring hv hpayload
          hreadable hqueued hnow hprints)
      · exact unwedged_of_inHand hhand
      · exact unwedged_of_finished hfinished
  · intro ls w l' w' hrun' hstep' i t payload' hcommits
    have hthrough : (deployment cfg S fuel).Run w₁ (l :: ls) w := ⟨trivial, w₂, hstep, hrun'⟩
    have hsound' : Sound cfg S w := sound_of_run hw (hrun.append hthrough)
    exact unwedged_commit_iff hS hlimit hsound' hcommits (Machine.step_eq_some_iff.mp hstep')

end Jobs

/-! ### Runs -/

namespace Sample

/-- Nobody writes on a shared connection and nobody deletes. -/
def noWriteOrDelete (w : DWorld) (l : DLabel) : Bool :=
  noSetEx w l && match l with
    | .act i _ => match requestOf w i with
      | some (.deleteResponse _) => false
      | _ => true
    | _ => true

theorem workedOn_of_noWriteOrDelete {cfg : StoreConfig} {S : Serde Int64} {w : DWorld} {l : DLabel}
    (h : noWriteOrDelete w l = true) (id : String) : WorkedOn cfg S id w l := by
  obtain ⟨hwrite, hdelete⟩ := Bool.and_eq_true_iff.mp h
  refine ⟨noClientWrite_of_noSetEx hwrite _, ?_⟩
  rintro ⟨i, t, choice, rfl, htask, hrequest⟩
  simp [requestOf, htask, hrequest] at hdelete

/-- Nobody writes on a shared connection, nobody deletes and nobody completes. -/
def noWriteOrComplete (w : DWorld) (l : DLabel) : Bool :=
  noWriteOrDelete w l && storesReadable serde w l

theorem workedOnWithin_of_noWriteOrComplete {cfg : StoreConfig} {S : Serde Int64} {limit : ℕ}
    {w : DWorld} {l : DLabel} (h : noWriteOrComplete w l = true) (id : String) :
    WorkedOnWithin cfg S limit id w l := by
  obtain ⟨hwrite, hstores⟩ := Bool.and_eq_true_iff.mp h
  exact ⟨workedOn_of_noWriteOrDelete hwrite id,
    fun i t payload hcommits => completionFits_of_storesReadable hstores hcommits⟩

/-- The texts of the small deployment and of the stale failure, with the limit of the source's
reader. -/
def jobSerde : Serde Int64 := staleSerde.bounded 127

theorem limited_jobSerde : jobSerde.Limited 127 :=
  Json.Serde.limited_ofTable 127

/-- The time that task `i` has read. -/
def timeOf (w : DWorld) (i : ℕ) : Option Int64 := (w.tasks i).bind fun t => (knowledge t).now

/-- The write of an enqueue. -/
theorem enqueues_of_awaits {S : Serde Int64} {w : DWorld} {sent : ProtoStoredResponse}
    {core record : StoredResponse Int64} {payload : String}
    (hawaits : awaits w 1 = some (.setEx key 86400 payload))
    (hrequest : requestOf w 1 = some (.enqueueBackgroundJob (some sent)))
    (htime : timeOf w 1 = some 100) (hid : requireRecord (some sent) = .ok sent)
    (hsent : sent.responseId = "resp_1") (hcore : protoToCore S sent = .ok core)
    (hrecord : { core with enqueuedAt := some 100 } = record)
    (hpayload : record.toText S = .ok payload) :
    Enqueues config S w (.act 1 published) "resp_1" record := by
  obtain ⟨t, hruns⟩ := runs_of_awaits (show awaits w 1 = some _ from hawaits)
    (show published.delivery.ran = true from rfl)
  have hrequest' : t.call.request = .enqueueBackgroundJob (some sent) := by
    simpa [requestOf, hruns.task] using hrequest
  have htime' : (knowledge t).now = some 100 := by simpa [timeOf, hruns.task] using htime
  refine ⟨1, t, some sent, payload, hrequest', ⟨86400, by decide, hruns⟩, hpayload, ?_⟩
  rw [hrequest', htime', ← hsent, ← hrecord]
  exact .enqueue hid hcore

/-- The beginning of an enqueue, up to its write. -/
def enqueueing (sent : ProtoStoredResponse) : List DLabel :=
  [.env (.clock 100), .spawn 1 ⟨0, .enqueueBackgroundJob (some sent)⟩, .act 1 published]

set_option maxRecDepth 100000 in
/-- A job is about to be stored. Afterwards it is claimed. -/
def jobStoredAndClaimed : (deployment config jobSerde 8).Recording (fun _ _ => true) (start none)
    (fun w => awaits w 1 = some (.setEx key 86400 queuedText) ∧
      requestOf w 1 = some (.enqueueBackgroundJob (some queuedRecord)) ∧ timeOf w 1 = some 100 ∧
      ((deployment config jobSerde 8).step w (.act 1 published)).any (fun w' =>
        ((deployment config jobSerde 8).execIn? noWriteOrComplete w'
          (call 2 (.claimBackgroundResponse "resp_1") 9)).any fun w'' =>
            w''.shared.textAt key = some claimedText) = true) :=
  ⟨enqueueing queuedRecord, by decide +kernel⟩

set_option maxRecDepth 100000 in
/-- A nested job is about to be stored. Afterwards the enqueue returns, and when the job is stale
it cannot be reconciled. -/
def jobStoredAndWedged : (deployment config nestedSerde 8).Recording (fun _ _ => true) (start none)
    (fun w => awaits w 1 = some (.setEx key 86400 nestedText) ∧
      requestOf w 1 = some (.enqueueBackgroundJob (some nestedRecord)) ∧ timeOf w 1 = some 100 ∧
      ((deployment config nestedSerde 8).step w (.act 1 published)).any (fun w' =>
        ((deployment config nestedSerde 8).execIn? noWriteOrDelete w'
          (.act 1 published :: .env (.clock 4000) ::
            call 2 (.reconcileStaleResponse "resp_1" 50) 1)).any fun w'' =>
            returned w'' 1 = some (.ok .enqueued) ∧
            returned w'' 2 = some (.error (.status ⟨.internal, "recursion limit exceeded"⟩)) ∧
            w''.shared.textAt key = some nestedText) = true) :=
  ⟨enqueueing nestedRecord, by decide +kernel⟩

theorem protoToCore_queuedRecord : protoToCore jobSerde queuedRecord = .ok queued := by
  decide +kernel

theorem toText_queued_jobSerde : queued.toText jobSerde = .ok queuedText := by decide +kernel

theorem readable_queuedText : Readable jobSerde queuedText := ⟨queued, by decide +kernel⟩

theorem toText_stale :
    (applyStaleFailure (queued.reread jobSerde) "resp_1").toText jobSerde = .ok staleText := by
  decide +kernel

set_option maxRecDepth 100000 in
theorem protoToCore_nestedRecord :
    protoToCore nestedSerde nestedRecord = .ok { nestedStored with enqueuedAt := none } := by
  decide +kernel

set_option maxRecDepth 100000 in
theorem toText_nestedStored : nestedStored.toText nestedSerde = .ok nestedText := by
  decide +kernel

set_option maxRecDepth 100000 in
theorem ofText_nestedText :
    StoredResponse.ofText nestedSerde nestedText = .error "recursion limit exceeded" := by
  decide +kernel

end Sample

open Sample

/-- A job is stored and claimed, and is then in progress. -/
theorem no_job_wedges_claimed : ∃ ls w₁ w₂ ls' w,
    (deployment config jobSerde 8).Run (start none) ls w₁ ∧
    Enqueues config jobSerde w₁ (.act 1 published) "resp_1" queued ∧
    (deployment config jobSerde 8).step w₁ (.act 1 published) = some w₂ ∧
    (deployment config jobSerde 8).RunIn (WorkedOnWithin config jobSerde 127 "resp_1") w₂ ls' w ∧
    w.shared.textAt key = some claimedText ∧
    Unwedged config jobSerde 8 "resp_1" w claimedText := by
  obtain ⟨w₁, hrun, hawaits, hrequest, htime, hlater⟩ := jobStoredAndClaimed.exists_run
  have henqueues : Enqueues config jobSerde w₁ (.act 1 published) "resp_1" queued :=
    enqueues_of_awaits hawaits hrequest htime rfl rfl protoToCore_queuedRecord rfl
      toText_queued_jobSerde
  obtain ⟨w₂, hstep, hlater⟩ := (Option.any_eq_true _ _).mp hlater
  obtain ⟨w, hrun', htext⟩ :=
    Machine.exists_runIn (fun _ _ h => workedOnWithin_of_noWriteOrComplete h "resp_1") hlater
  have hfits : Fits 127 queued :=
    (readable_iff_fits limited_jobSerde (by decide) toText_queued_jobSerde).mp readable_queuedText
  exact ⟨_, w₁, w₂, _, w, hrun, henqueues, hstep, hrun', htext,
    (no_job_wedges limited_jobSerde (by decide) (initial_start _) hrun henqueues hstep rfl
      ⟨_, toText_stale⟩).1.mpr hfits _ w hrun' _ htext⟩

/-- A job is enqueued as queued, and the enqueue returns. The job is in none of the stages, and a
reconcile is answered with an error. -/
theorem enqueued_job_wedges : ∃ ls w₁ w₂ ls' w, nestedSerde.Limited 127 ∧
    (deployment config nestedSerde 8).Run (start none) ls w₁ ∧
    Enqueues config nestedSerde w₁ (.act 1 published) "resp_1" nestedStored ∧
    storedResponseStatus nestedStored = some "queued" ∧
    (deployment config nestedSerde 8).step w₁ (.act 1 published) = some w₂ ∧
    (deployment config nestedSerde 8).RunIn (WorkedOn config nestedSerde "resp_1") w₂ ls' w ∧
    returned w 1 = some (.ok .enqueued) ∧
    returned w 2 = some (.error (.status ⟨.internal, "recursion limit exceeded"⟩)) ∧
    w.shared.textAt key = some nestedText ∧
    ¬Unwedged config nestedSerde 8 "resp_1" w nestedText := by
  obtain ⟨w₁, hrun, hawaits, hrequest, htime, hlater⟩ := jobStoredAndWedged.exists_run
  have henqueues : Enqueues config nestedSerde w₁ (.act 1 published) "resp_1" nestedStored :=
    enqueues_of_awaits hawaits hrequest htime rfl rfl protoToCore_nestedRecord rfl
      toText_nestedStored
  obtain ⟨w₂, hstep, hlater⟩ := (Option.any_eq_true _ _).mp hlater
  obtain ⟨w, hrun', hreturned, hreconciled, htext⟩ :=
    Machine.exists_runIn (fun _ _ h => workedOn_of_noWriteOrDelete h "resp_1") hlater
  refine ⟨_, w₁, w₂, _, w, limited_nestedSerde, hrun, henqueues, rfl, hstep, hrun', hreturned,
    hreconciled, htext, fun hunwedged => ?_⟩
  obtain ⟨stored, hstored⟩ := hunwedged.readable
  rw [ofText_nestedText] at hstored
  cases hstored

end ResponsesApiStore
