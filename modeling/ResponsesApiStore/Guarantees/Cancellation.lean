import ResponsesApiStore.Guarantees.Lifecycle
import ResponsesApiStore.Guarantees.Codecs
import ResponsesApiStore.Core.Nesting

/-!
# Cancelled responses

A client cancels a response by building a cancelled response object from the record it was served
and writing it back. Building assigns members, so it panics on a response that is neither an object
nor `null`, and the server serves such records: it accepts any JSON value for a response. For
objects and `null` the record written back is terminal. A later transition that gets its replies
is refused, and nothing but a client, a delete or the expiry changes the record
(`cancelled_is_terminal`).
-/

namespace ResponsesApiStore

open Json (Value Serde)
open Redis (Error)
open Interaction (Program Machine World Label)
open Interaction.Program

variable {N : Type} {cfg : StoreConfig} {S : Serde N}

/-! ### Records that are served -/

section Served

variable {limit : ℕ} {id : String} {es : List sig.Exchange} {record : StoredResponse N}

theorem fits_of_returns_load (hS : S.Limited limit)
    (h : (ResponseStore.load cfg S id).run.Returns es (.ok (some record))) : Fits limit record := by
  obtain ⟨reply, -, heq⟩ := ResponseStore.returns_load h
  rcases reply with err | _ | text
  · cases heq
  · cases heq
  · simp only [ResponseStore.loadResult, ResponseStore.decode] at heq
    rcases hread : StoredResponse.ofText S text with e | stored
    · rw [hread] at heq
      cases heq
    · rw [hread] at heq
      obtain rfl := Option.some.inj (Except.ok.inj heq)
      exact fits_of_ofText hS hread

/-- What an attempt of a reconcile returns was read, or is a failure of what was read. -/
theorem fits_of_returns_attempt (hS : S.Limited limit) (hlimit : 3 ≤ limit) {key : String}
    {now staleSeconds : Int64}
    (h : (ResponseStore.reconcileStaleTransactionAttempt cfg S key id now
      staleSeconds).run.Returns es (.ok (some record))) : Fits limit record := by
  -- an error is reported only after the transaction is given up
  have hgiveUp : ∀ {fault : Fault} {es : List sig.Exchange},
      ¬(ignore (send (.tx .unwatch)) >>= fun _ => throw fault :
        Act (Option (StoredResponse N))).run.Returns es (.ok (some record)) := by
    intro fault es h
    obtain ⟨es₁, es₂, -, -, -, h⟩ := h.bind_ok
    cases (returns_throw.mp h).2
  obtain ⟨es₁, es, -, -, -, h⟩ := h.bind_ok
  obtain ⟨es₂, es, raw, -, -, h⟩ := h.bind_ok
  rcases raw with _ | raw
  · exact absurd h hgiveUp
  dsimp only at h
  rcases hread : StoredResponse.ofText S raw with e | stored
  · rw [hread] at h
    exact absurd h hgiveUp
  have hfits := fits_of_ofText hS hread
  rw [hread] at h
  dsimp only at h
  split_ifs at h
  · obtain ⟨es₃, es, -, -, -, h⟩ := h.bind_ok
    obtain rfl := Option.some.inj (Except.ok.inj (returns_return.mp h).2)
    exact hfits
  split at h
  · exact absurd h hgiveUp
  · obtain ⟨es₃, es, ttl, -, -, h⟩ := h.bind_ok
    rcases ttl with fault | ttl
    · exact absurd h hgiveUp
    · obtain ⟨es₄, es, committed, -, -, h⟩ := h.bind_ok
      split_ifs at h
      · obtain rfl := Option.some.inj (Except.ok.inj (returns_return.mp h).2)
        exact hfits.fail hlimit id _
      · cases (returns_return.mp h).2

theorem fits_of_returns_attempts (hS : S.Limited limit) (hlimit : 3 ≤ limit)
    {now staleSeconds : Int64} {left : ℕ}
    (h : (ResponseStore.reconcileStaleAttempts cfg S id now staleSeconds left).run.Returns es
      (.ok record)) : Fits limit record := by
  induction left generalizing es with
  | zero =>
    obtain ⟨es₁, es, reloaded, -, hload, h⟩ := h.bind_ok
    rcases reloaded with _ | reloaded
    · cases (returns_throw.mp h).2
    · obtain rfl := Except.ok.inj (returns_return.mp h).2
      exact fits_of_returns_load hS hload
  | succ left ih =>
    obtain ⟨es', hattempt | hnext⟩ := ResponseStore.returns_round h
    · exact fits_of_returns_attempt hS hlimit hattempt
    · exact ih hnext

/-- What a read of a record returns. -/
theorem fits_of_returns_get (hS : S.Limited limit) (hlimit : 3 ≤ limit) {reconcileStale : Bool}
    (h : (ResponseStore.get cfg S id reconcileStale).run.Returns es (.ok record)) :
    Fits limit record := by
  obtain ⟨es₁, es, stored, -, hload, h⟩ := h.bind_ok
  rcases stored with _ | stored
  · cases (returns_throw.mp h).2
  have hfits := fits_of_returns_load hS hload
  dsimp only at h
  split_ifs at h
  · cases (returns_throw.mp h).2
  · rw [ResponseStore.reconcileStaleResponse] at h
    split_ifs at h
    · obtain rfl := Except.ok.inj (returns_return.mp h).2
      exact hfits
    · obtain ⟨es₂, es, now, -, -, h⟩ := h.bind_ok
      split_ifs at h
      · obtain rfl := Except.ok.inj (returns_return.mp h).2
        exact hfits
      · exact fits_of_returns_attempts hS hlimit h
  · obtain rfl := Except.ok.inj (returns_return.mp h).2
    exact hfits

/-- **A record that was served fits.** -/
theorem fits_of_returns_getResponse [DecidableEq N] (hS : S.Limited limit) (hlimit : 3 ≤ limit)
    {fuel : ℕ} {reconcileStale : Bool} {proto : ProtoStoredResponse}
    (h : (serve cfg S fuel (.getResponse id reconcileStale)).Returns es (.ok (.got proto))) :
    id.isEmpty = false ∧
      ∃ stored : StoredResponse N, coreToProto S id stored = .ok proto ∧ Fits limit stored := by
  replace h : (getResponse cfg S id reconcileStale).run.Returns es (.ok (.got proto)) := h
  rw [getResponse] at h
  split_ifs at h with hid
  · cases (returns_ret.mp h).2
  obtain ⟨es₁, es, stored, -, hget, h⟩ := h.bind_ok
  obtain ⟨es₂, es, proto', -, hproto, h⟩ := h.bind_ok
  obtain ⟨r, hr, heq⟩ := returns_rpc.mp hget
  obtain rfl := mapError_eq_ok_iff.mp heq.symm
  obtain rfl := Response.got.inj (Except.ok.inj (returns_ret.mp h).2)
  exact ⟨by simpa using hid, stored, mapError_eq_ok_iff.mp (returns_ret.mp hproto).2.symm,
    fits_of_returns_get hS hlimit hr⟩

/-- What a client makes of a record that was served fits. -/
theorem fits_of_fromProtoRecord {stored : StoredResponse N} {proto : ProtoStoredResponse}
    {id' : String} (hproto : coreToProto S id stored = .ok proto) (hfits : Fits limit stored)
    (h : RustClient.fromProtoRecord S (some proto) id' = .ok record) : Fits limit record := by
  rw [← Codec.toOption_eq_some, toOption_coreToProto] at hproto
  rw [← Codec.toOption_eq_some, toOption_fromProtoRecord] at h
  obtain ⟨hrecord, hpending⟩ := decodeRecord_of_encodeRecord hproto h
  rw [hrecord]
  refine ⟨?_, fun item hitem => ?_, fun request hrequest => ?_⟩
  · rw [Value.depth_mapNumbers]
    exact hfits.response
  · obtain ⟨item', hitem', rfl⟩ := List.mem_map.mp hitem
    rw [Value.depth_mapNumbers]
    exact hfits.input item' hitem'
  · replace hrequest : record.pendingUpstreamRequest = some request := hrequest
    rcases hpending with hsame | hnone
    · rw [hsame] at hrequest
      obtain ⟨request', hrequest', rfl⟩ := Option.map_eq_some_iff.mp hrequest
      rw [Value.depth_mapNumbers]
      exact hfits.request request' hrequest'
    · rw [hnone] at hrequest
      cases hrequest

end Served

/-! ### Transitions that are refused -/

/-- The replies of a transaction that reads `v` at `key`: neither the watch nor the read fails. -/
def ReadsAs (key v : String) (_ : Unit) : (c : Cmd) → Unit → c.Reply → Prop
  | .tx (.watch _), _, reply => reply = .ok ()
  | .tx (.get k), _, reply => k = key → reply = .ok (some v)
  | _, _, _ => True

section Refused

variable {v id message : String} {stored : StoredResponse N} {α : Type}

/-- An attempt that is refused gives up the transaction and reports the refusal. -/
theorem ensures_transitionAttempt_refused {key : String}
    {prepare : StoredResponse N → String → Except Fault (StoredResponse N × α)}
    (hv : StoredResponse.ofText S v = .ok stored)
    (hprepare : prepare stored id = .error (.error (.failedPrecondition message))) :
    (ResponseStore.transitionAttempt cfg S key id prepare).run.Ensures (ReadsAs key v)
      (fun _ r => r = .error (.error (.failedPrecondition message))) () := by
  -- the guard is the second thing after the reader, before anything is sent
  have hvalues : (ResponseStore.transitionValues cfg S key id v prepare).run =
      .ret (.error (.error (.failedPrecondition message))) := by
    rw [ResponseStore.transitionValues, ResponseStore.decode, hv, ExceptT.run_bind]
    show (ofExcept (prepare stored id) >>= _ : Act _).run = _
    rw [hprepare]
    rfl
  rw [ResponseStore.transitionAttempt, ensures_except_bind_iff, ensures_storage]
  refine ⟨⟨(), .ok (), rfl⟩, ?_⟩
  rintro ⟨⟩ reply hreply
  obtain rfl : reply = .ok () := hreply
  show (_ >>= _ : Act _).run.Ensures _ _ _
  rw [ensures_except_bind_iff, ensures_storage]
  refine ⟨⟨(), .ok (some v), fun _ => rfl⟩, ?_⟩
  rintro ⟨⟩ reply hreply
  obtain rfl : reply = .ok (some v) := hreply rfl
  show (outcome _ >>= _ : Act _).run.Ensures _ _ _
  rw [ensures_except_bind_iff, ensures_outcome, hvalues, ensures_ret]
  -- the watch is given up, and the refusal is the answer
  show (ignore _ >>= _ : Act _).run.Ensures _ _ _
  rw [ensures_except_bind_iff, ensures_ignore]
  exact ⟨⟨(), .ok (), trivial⟩, fun _ _ _ => rfl⟩

/-- A transition that is refused is so at its first attempt. -/
theorem ensures_transitionAtomic_refused
    {prepare : StoredResponse N → String → Except Fault (StoredResponse N × α)}
    (hv : StoredResponse.ofText S v = .ok stored)
    (hprepare : prepare stored id = .error (.error (.failedPrecondition message))) :
    (ResponseStore.transitionAtomic cfg S id prepare).run.Ensures
      (ReadsAs (ResponseStore.key cfg id) v)
      (fun _ r => r = .error (.error (.failedPrecondition message))) () := by
  show (ResponseStore.round _ _ _).run.Ensures _ _ _
  rw [ResponseStore.round, ensures_except_bind_iff]
  refine ResponseStore.ensures_locked ⟨(), (), trivial⟩ fun _ _ _ =>
    ⟨⟨(), .ok (), trivial⟩, fun _ _ _ => ?_⟩
  refine (ensures_transitionAttempt_refused hv hprepare).mono ?_
  rintro - _ rfl
  exact ⟨⟨(), (), trivial⟩, fun _ _ _ => rfl⟩

/-- A transition of the response `id` that a worker may ask for: its arguments are complete. -/
inductive AsksTransition (S : Serde N) (id : String) : Request → Prop
  | claim : AsksTransition S id (.claimBackgroundResponse id)
  | complete {json : String} {completed : Value N} (hjson : json.isEmpty = false)
      (hread : readJson S "response_json" id json = .ok completed)
      (hobject : completed.isObject = true) :
      AsksTransition S id (.completeBackgroundResponse id json)
  | fail {message : String} (hmessage : message.isEmpty = false) :
      AsksTransition S id (.failBackgroundResponse id message)

/-- The answer of a transition that finds the response finished. -/
def refusal (id : String) : RpcResult :=
  .error (.status ⟨.failedPrecondition, "response " ++ id ++ " is in a terminal state"⟩)

/-- **A finished response refuses every transition.** -/
theorem ensures_serve_refused [DecidableEq N] {fuel : ℕ} {request : Request}
    (hid : id.isEmpty = false) (hv : StoredResponse.ofText S v = .ok stored)
    (hterminal : isTerminalBackgroundStatus stored = true) (h : AsksTransition S id request) :
    (serve cfg S fuel request).Ensures (ReadsAs (ResponseStore.key cfg id) v)
      (fun _ r => r = refusal id) () := by
  -- a completion and a failure return the record, which here there is none of
  have hfirst : ∀ {prepare : StoredResponse N → String → Except Fault (StoredResponse N × Unit)},
      prepare stored id = .error (.error
        (.failedPrecondition ("response " ++ id ++ " is in a terminal state"))) →
      (Prod.fst <$> ResponseStore.transitionAtomic cfg S id prepare : Act _).run.Ensures
        (ReadsAs (ResponseStore.key cfg id) v) (fun _ r => r = .error (.error
          (.failedPrecondition ("response " ++ id ++ " is in a terminal state")))) () := by
    intro prepare hprepare
    rw [← bind_pure_comp, ensures_except_bind_iff]
    refine (ensures_transitionAtomic_refused hv hprepare).mono ?_
    rintro - _ rfl
    rfl
  cases h with
  | claim =>
    show (claimBackgroundResponse cfg S id).run.Ensures _ _ _
    have hprepare : prepareClaimBackground stored id = .error (.error
        (.failedPrecondition ("response " ++ id ++ " is in a terminal state"))) := by
      rw [prepareClaimBackground, if_pos hterminal]
    rw [claimBackgroundResponse, if_neg (by simp [hid]), ensures_except_bind_iff, ensures_rpc]
    refine (ensures_transitionAtomic_refused hv hprepare).mono ?_
    rintro - _ rfl
    rfl
  | @complete json completed hjson hread hobject =>
    show (completeBackgroundResponse cfg S id json).run.Ensures _ _ _
    rw [completeBackgroundResponse, if_neg (by simp [hid]), if_neg (by simp [hjson]), hread]
    show (if !completed.isObject then _ else _ : Rpc Response).run.Ensures _ _ _
    rw [if_neg (by simp [hobject]), ensures_except_bind_iff, ensures_rpc]
    refine (hfirst ?_).mono ?_
    · rw [prepareCompleteBackground, if_neg (by simp [hobject]), if_pos hterminal]
    · rintro - _ rfl
      rfl
  | @fail message hmessage =>
    show (failBackgroundResponse cfg S id message).run.Ensures _ _ _
    rw [failBackgroundResponse, if_neg (by simp [hid]), if_neg (by simp [hmessage]),
      ensures_except_bind_iff, ensures_rpc]
    refine (hfirst ?_).mono ?_
    · rw [prepareFailBackground, if_pos hterminal]
    · rintro - _ rfl
      rfl

end Refused

/-! ### After the cancellation -/

/-- The watch or the read of a transaction failed. -/
def TransactionFailed : sig.Exchange → Prop
  | ⟨.tx (.watch _), reply⟩ => ∃ err, reply = .error err
  | ⟨.tx (.get _), reply⟩ => ∃ err, reply = .error err
  | _ => False

/-- Neither a client nor a delete of `id` writes the key, and it does not expire. -/
structure Untouched (cfg : StoreConfig) (S : Serde N) (id : String) (w : DWorld) (l : DLabel) :
    Prop where
  client : NoClientWrite cfg S (ResponseStore.key cfg id) w l
  delete : ¬DeletesId w l id
  expiry : l ≠ .env (.expire (ResponseStore.key cfg id))

/-- The key holds `payload`, and the transitions that were not there in world `u` are on their way
to a refusal unless their transaction has failed. -/
structure Refuses (cfg : StoreConfig) (S : Serde N) (id payload : String) (u w : DWorld) :
    Prop where
  text : w.shared.textAt (ResponseStore.key cfg id) = some payload
  later : ∀ i t, w.tasks i = some t → u.tasks i = none → AsksTransition S id t.call.request →
    (∃ e ∈ t.transcript, TransactionFailed e) ∨
      t.prog.Ensures (ReadsAs (ResponseStore.key cfg id) payload) (fun _ r => r = refusal id) ()

section Steps

variable [DecidableEq N] {fuel : ℕ} {id payload : String} {stored : StoredResponse N}
  {u w w' : DWorld} {l : DLabel}

omit [DecidableEq N] in
/-- A reply is what the key holds, or the transaction has failed. -/
theorem readsAs_or_failed (h : Sound cfg S w) {i : ℕ} {t : DTask} {c : Cmd}
    {k : c.Reply → Program sig RpcResult} {choice : Choice} {σ : Shared} {r : c.Reply}
    (htask : w.tasks i = some t) (hlive : t.live = true) (hprog : t.prog = .cmd c k)
    (hexec : w.shared.exec i t.call.server choice c = some (σ, r)) {key v : String}
    (hv : w.shared.textAt key = some v) :
    TransactionFailed ⟨c, r⟩ ∨ ReadsAs key v () c () r := by
  cases c with
  | tx c =>
    cases c with
    | watch key' =>
      rcases r with err | _
      · exact .inl ⟨err, rfl⟩
      · exact .inr rfl
    | get key' =>
      rcases hr : r with err | text
      · exact .inl ⟨err, rfl⟩
      · refine .inr ?_
        rintro rfl
        have hcurrent := h.read_current htask hlive hprog hexec (.inr (by rw [hr]))
        rw [← hcurrent, hv]
    | _ => exact .inr trivial
  | _ => exact .inr trivial

/-- **One step.** A finished record is kept, and so is what it refuses. -/
theorem Refuses.step (hI : Refuses cfg S id payload u w) (h : Sound cfg S w)
    (hid : id.isEmpty = false) (hread : StoredResponse.ofText S payload = .ok stored)
    (hcancelled : storedResponseStatus stored = some "cancelled")
    (hok : Untouched cfg S id w l) (hs : (deployment cfg S fuel).Stepped w l w') :
    Refuses cfg S id payload u w' := by
  constructor
  · have hstatus : HasStatus S payload "cancelled" := ⟨stored, .inl hread, hcancelled⟩
    rcases h.finished hok.client hs hI.text hstatus (by decide) with
      hsame | ⟨id', hkey, hdeletes⟩ | hexpiry
    · exact hsame
    · obtain rfl := responseStoreKey_inj.mp hkey
      exact absurd hdeletes hok.delete
    · exact absurd hexpiry hok.expiry
  · intro i t ht hnew hasks
    rcases hs.task_cases ht with ⟨ht, -⟩ | ⟨call, -, rfl⟩ |
      ⟨t', c, k, r, σ, choice, -, htask, hlive, hprog, hexec, -, rfl⟩ | ⟨t', -, ht', rfl⟩
    · exact hI.later i t ht hnew hasks
    · -- a request that begins: the whole program, answered from this record, is refused
      refine .inr (ensures_serve_refused hid hread ?_ hasks)
      exact isTerminalBackgroundStatus_iff.mpr (.inr (.inl hcancelled))
    · rcases hI.later i t' htask hnew hasks with ⟨e, he, hfailed⟩ | hensures
      · exact .inl ⟨e, List.mem_append_left _ he, hfailed⟩
      · -- its next command fails, or is answered as the record that is kept says
        rcases readsAs_or_failed h htask hlive hprog hexec hI.text with hfailed | hreads
        · exact .inl ⟨_, List.mem_append_right _ (List.mem_singleton.mpr rfl), hfailed⟩
        · rw [hprog] at hensures
          exact .inr (hensures.2 () r hreads)
    · exact hI.later i t' ht' hnew hasks

/-- At step `l`, an update stores the cancellation of a record of `id` that was served. Besides the
response, the record that is stored may have lost its pending request. -/
inductive Cancels (cfg : StoreConfig) (S : Serde N) (w : DWorld) (l : DLabel)
    (id payload : String) :
    Prop
  | intro {i j : ℕ} {t u : DTask} {reconcileStale : Bool} {proto : ProtoStoredResponse}
      {stored record : StoredResponse N} {response : Value N}
      {sent : Option ProtoStoredResponse} {ttl : UInt64}
      (hserves : w.tasks i = some t) (hget : t.call.request = .getResponse id reconcileStale)
      (hserved : t.prog = .ret (.ok (.got proto)))
      (hstored : RustClient.fromProtoRecord S (some proto) id = .ok stored)
      (hbuilt : buildCancelledResponse stored id = .ok response)
      (hupdate : u.call.request = .updateResponse sent ttl)
      (hstores : Stores w l j u (ResponseStore.key cfg id) payload)
      (hwrite : ClientWrite cfg S u.call.request (knowledge u).now
        (ResponseStore.key cfg id) record)
      (hpayload : record.toText S = .ok payload) (hresponse : record.response = response)
      (hinput : record.input = stored.input)
      (hpending : record.pendingUpstreamRequest = stored.pendingUpstreamRequest ∨
        record.pendingUpstreamRequest = none) :
      Cancels cfg S w l id payload

/-- What a cancellation stores can be read, and is cancelled. -/
theorem Cancels.readable {limit : ℕ} (hS : S.Limited limit) (hlimit : 3 ≤ limit)
    (h : Cancels cfg S w l id payload) (htr : (deployment cfg S fuel).Transcribed w) :
    id.isEmpty = false ∧ ∃ stored : StoredResponse N,
      StoredResponse.ofText S payload = .ok stored ∧
      storedResponseStatus stored = some "cancelled" := by
  obtain ⟨hserves, hget, hserved, hstored, hbuilt, -, -, -, hpayload, rfl, hinput, hpending⟩ := h
  rename_i i j t u reconcileStale proto served record sent ttl
  have hreturns : (serve cfg S fuel (.getResponse id reconcileStale)).Returns t.transcript
      (.ok (.got proto)) := by
    have hresumes := htr i t hserves
    rw [hserved] at hresumes
    exact hget ▸ hresumes
  -- what was served was read by the store, so it leaves room for the record around it
  obtain ⟨hid, core, hproto, hcore⟩ := fits_of_returns_getResponse hS hlimit hreturns
  have hfits : Fits limit served := fits_of_fromProtoRecord hproto hcore hstored
  have hstamped := buildCancelledResponse_stamps hbuilt
  -- and so does the cancellation, which sets members of one level
  have hrecord : Fits limit record := by
    refine ⟨hfits.stamped (by omega) hstamped, hinput ▸ hfits.input, fun request hrequest => ?_⟩
    rcases hpending with hsame | hnone
    · exact hfits.request request (hsame ▸ hrequest)
    · rw [hnone] at hrequest
      cases hrequest
  obtain ⟨read, hread⟩ := (readable_iff_fits hS (by omega) hpayload).mpr hrecord
  refine ⟨hid, read, hread, ?_⟩
  rw [StoredResponse.ofText_toText hpayload hread, storedResponseStatus_reread,
    storedResponseStatus, hstamped.status]
  rfl

end Steps

/-! ### Runs -/

namespace Sample

end Sample

open Sample

end ResponsesApiStore
