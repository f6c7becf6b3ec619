import ResponsesApiStore.Usage.Table
import ResponsesApiStore.Usage.Answers
import ResponsesApiStore.Guarantees.Handover

/-!
# Requests that take effect at one moment

Among any number of other requests a store, a plain read, a claim, a completion and a failure that
succeed take effect at one step of theirs: at that step, the function of the request on the table
of records gives the answer that the caller gets, and the table that Redis holds afterwards, up to
times to live (`successes_take_effect_at_once`). The step is between the call and its return, so
the order of these steps is one in which all those requests could have been served one after
another. An update, a delete and a read that reconciles have no such step: what they decide on and
what they write are two moments.
-/

namespace ResponsesApiStore

open Json (Value Serde)
open Redis (Entry Keyspace TxCmd)
open Interaction (Program Machine World Label)
open Interaction.Program

variable {N : Type} {cfg : StoreConfig} {S : Serde N} {id : String} {es : List sig.Exchange}

/-! ### What a transcript shows of a success -/

/-- A store that succeeds is the answer to one write. -/
theorem returns_store_ok {record : StoredResponse N} {ttlSeconds : Option UInt64}
    (h : (ResponseStore.store cfg S id record ttlSeconds).run.Returns es (.ok ())) :
    ∃ payload, ResponseStore.encode S record = .ok payload ∧ ttlSeconds.getD cfg.ttlSeconds ≠ 0 ∧
      es = [⟨.setEx (ResponseStore.key cfg id) (ttlSeconds.getD cfg.ttlSeconds) payload,
        .ok ()⟩] := by
  rw [ResponseStore.store] at h
  split_ifs at h with hzero
  · cases (returns_throw.mp h).2
  obtain ⟨es₁, es₂, payload, rfl, hencode, hset⟩ := h.bind_ok
  obtain ⟨rfl, hpayload⟩ := returns_ofExcept.mp hencode
  obtain ⟨reply, hreply, heq⟩ := returns_storage.mp hset
  obtain rfl : reply = .ok () := mapError_eq_ok_iff.mp heq.symm
  exact ⟨payload, hpayload.symm, hzero, returns_call.mp hreply⟩

/-- A computation of the service that succeeds, in a transcript. -/
theorem returns_ofStatus_ok {α : Type} {x : Except Status α} {a : α}
    (h : (ofStatus x).run.Returns es (.ok a)) : es = [] ∧ x = .ok a := by
  obtain ⟨rfl, hx⟩ := returns_ret.mp h
  exact ⟨rfl, mapError_eq_ok_iff.mp hx.symm⟩

theorem returns_rpc_ok {α : Type} {p : Act α} {a : α} (h : (rpc p).run.Returns es (.ok a)) :
    p.run.Returns es (.ok a) := by
  obtain ⟨r, hr, heq⟩ := returns_rpc.mp h
  rwa [mapError_eq_ok_iff.mp heq.symm] at hr

theorem not_returns_reject {α : Type} {code : Code} {message : String} {a : α} :
    ¬(reject code message : Rpc α).run.Returns es (.ok a) := fun h => by
  cases (returns_ret.mp h).2

/-- An answer with a record, in a transcript. -/
theorem returns_record_ok {record : StoredResponse N} {f : ProtoStoredResponse → Response}
    {response : Response} (h : (ofStatus (coreToProto S id record) >>= fun record =>
      return f record : Rpc Response).run.Returns es (.ok response)) :
    es = [] ∧ ∃ proto, coreToProto S id record = .ok proto ∧ response = f proto := by
  obtain ⟨es₁, es₂, proto, rfl, hread, hrest⟩ := h.bind_ok
  obtain ⟨rfl, hproto⟩ := returns_ofStatus_ok hread
  obtain ⟨rfl, heq⟩ := returns_ret.mp hrest
  exact ⟨rfl, proto, hproto, Except.ok.inj heq⟩

theorem loadResult_ok {reply : Except Redis.Error (Option String)} {stored : StoredResponse N}
    (h : ResponseStore.loadResult S reply = .ok (some stored)) :
    ∃ text, reply = .ok (some text) ∧ StoredResponse.ofText S text = .ok stored := by
  rcases reply with err | (_ | text)
  · cases h
  · cases h
  · refine ⟨text, rfl, ?_⟩
    rcases hdecode : ResponseStore.decode S text with fault | found
    · rw [ResponseStore.loadResult, hdecode] at h
      cases h
    · rw [ResponseStore.loadResult, hdecode] at h
      obtain rfl := Option.some.inj (Except.ok.inj h)
      exact decode_eq_ok_iff.mp hdecode

/-- A plain read that succeeds is the answer to one read. -/
theorem returns_get_ok {stored : StoredResponse N}
    (h : (ResponseStore.get cfg S id false).run.Returns es (.ok stored)) :
    isDeletedTombstone stored = false ∧ ∃ text, StoredResponse.ofText S text = .ok stored ∧
      es = [⟨.get (ResponseStore.key cfg id), .ok (some text)⟩] := by
  obtain ⟨es₁, es₂, found, rfl, hload, hrest⟩ := h.bind_ok
  obtain ⟨reply, rfl, hresult⟩ := ResponseStore.returns_load hload
  cases found with
  | none => cases (returns_throw.mp hrest).2
  | some found =>
    dsimp only at hrest
    by_cases hdeleted : isDeletedTombstone found = true
    · rw [if_pos hdeleted] at hrest
      cases (returns_throw.mp hrest).2
    rw [if_neg hdeleted, if_neg Bool.false_ne_true] at hrest
    obtain ⟨rfl, heq⟩ := returns_return.mp hrest
    obtain rfl := Except.ok.inj heq
    obtain ⟨text, rfl, htext⟩ := loadResult_ok hresult.symm
    exact ⟨by simpa using hdeleted, text, htext, rfl⟩

/-- A transition that succeeds has committed, and its result comes from the text it replaced. -/
theorem replaced_of_returns {T : Type} (request : Request) {x : StoredResponse N × T}
    {prepare : StoredResponse N → String → Except Fault (StoredResponse N × T)}
    (hprepare : ∀ {v payload : String} {stored updated : StoredResponse N} {result : T},
      StoredResponse.ofText S v = .ok stored → prepare stored id = .ok (updated, result) →
      updated.toText S = .ok payload →
      Transition cfg S request none (ResponseStore.key cfg id) v payload)
    (hplain : Past cfg request .init)
    (h : (ResponseStore.transitionAtomic cfg S id prepare).run.Returns es (.ok x)) :
    Replaced S id prepare ((discipline cfg S request).after .init es) x :=
  ((follows_transitionAtomic hprepare hplain rfl rfl).of_returns h).2.2

/-! ### Commits, seen from the table -/

/-- What a commit does to the table. -/
theorem Sound.commit_strings {fuel : ℕ} [DecidableEq N] {x y : DWorld} {l : DLabel} {i : ℕ}
    {u : DTask} {key payload : String} (h : Sound cfg S x) (hcommits : Commits x l i u key payload)
    (hs : (deployment cfg S fuel).Stepped x l y) :
    ∃ ttl, y.shared.db.strings =
      Function.update x.shared.db.strings key (some ⟨payload, some ttl⟩) := by
  obtain ⟨v, ttl, hvalid, -, -, hrun⟩ := h.commit_reads hcommits
  obtain ⟨choice, k, σ, r, -, hran, -, hexec, rfl⟩ := hcommits.runs.stepped hs
  cases exec_effect hexec with
  | plain hplain => exact hplain.elim
  | tx =>
    have hstrings := afterTx_strings x.shared u.call.server choice.delivery .exec
    rw [if_pos hran, hrun, Keyspace.setEx, if_pos hvalid] at hstrings
    exact ⟨ttl.toNat, hstrings⟩

/-- A commit is a step. -/
theorem Commits.exists_stepped (cfg : StoreConfig) (S : Serde N) (fuel : ℕ) [DecidableEq N]
    {x : DWorld} {l : DLabel} {i : ℕ} {u : DTask} {key payload : String}
    (h : Commits x l i u key payload) :
    ∃ choice y, l = .act i choice ∧ (deployment cfg S fuel).Stepped x l y := by
  obtain ⟨k, hprog⟩ := h.runs.prog
  obtain ⟨choice, rfl, -⟩ := h.runs.label
  exact ⟨choice, _, rfl, .act h.runs.task h.runs.live hprog rfl⟩

/-! ### The moment of a request -/

variable {fuel : ℕ} [DecidableEq N] {i : ℕ} {request : Request} {response : Response}
  {op : OnTable RpcFault Response} {x y : DWorld} {l : DLabel}

/-- **The moment of a request.** Step `l` is one of task `i`; the function of the request gives
`response` on the table as it is before the step, and the texts after the step are those that the
function leaves. -/
def TakesEffect (cfg : StoreConfig) (S : Serde N) (fuel i : ℕ) (request : Request)
    (response : Response) (x : DWorld) (l : DLabel) : Prop :=
  ∃ choice y op, l = .act i choice ∧ (deployment cfg S fuel).Stepped x l y ∧
    Table.perform cfg S x.shared.clock request = some op ∧
    (op.run.run (tableOf x.shared)).1 = .ok response ∧
    ∀ key, y.shared.textAt key = ((op.run.run (tableOf x.shared)).2 key).map Entry.text

/-- A step after which the table is the one that the function leaves. -/
theorem takesEffect_of_run {choice : Choice} (hl : l = .act i choice)
    (hs : (deployment cfg S fuel).Stepped x l y)
    (hop : Table.perform cfg S x.shared.clock request = some op)
    (hrun : op.run.run (tableOf x.shared) = (.ok response, tableOf y.shared)) :
    TakesEffect cfg S fuel i request response x l :=
  ⟨choice, y, op, hl, hs, hop, by rw [hrun], fun key => by rw [hrun]; rfl⟩

/-- A commit is the moment of its request. -/
theorem takesEffect_of_commit {T : Type} {u : DTask} {v payload : String}
    {prepare : StoredResponse N → String → Except Fault (StoredResponse N × T)}
    {updated : StoredResponse N} {result : T} (hx : Sound cfg S x)
    (hcommits : Commits x l i u (ResponseStore.key cfg id) payload)
    (hv : x.shared.textAt (ResponseStore.key cfg id) = some v)
    (hdecided : Table.decided S id prepare v = .ok (updated, payload, result))
    (hop : Table.perform cfg S x.shared.clock request = some op)
    (hrest : ∀ table table', (Table.transition cfg S id prepare).run.run table =
      (.ok (updated, result), table') → op.run.run table = (.ok response, table')) :
    TakesEffect cfg S fuel i request response x l := by
  obtain ⟨choice, y, hl, hs⟩ := hcommits.exists_stepped cfg S fuel
  obtain ⟨ttl, hstrings⟩ := hx.commit_strings hcommits hs
  obtain ⟨e, hentry, rfl⟩ := Option.map_eq_some_iff.mp hv
  replace hentry : tableOf x.shared (ResponseStore.key cfg id) = some e := hentry
  have hrun := hrest _ _ (Table.run_transition_taken hentry hdecided)
  refine ⟨choice, y, op, hl, hs, hop, by rw [hrun], fun key => ?_⟩
  rw [hrun]
  show (y.shared.db.strings key).map Entry.text = _
  rw [hstrings]
  by_cases hkey : key = ResponseStore.key cfg id
  · subst hkey
    simp
  · simp [Function.update_of_ne hkey, tableOf]

/-- What is known of a transition that was committed, at its commit. -/
theorem takes_transition {T : Type} {ok : DWorld → DLabel → Prop} {w₀ w : DWorld}
    {ls : List DLabel} {t : DTask}
    {prepare : StoredResponse N → String → Except Fault (StoredResponse N × T)}
    {updated : StoredResponse N} {result : T} (hw : Initial w₀)
    (hrun : (deployment cfg S fuel).RunIn ok w₀ ls w) (htask : w.tasks i = some t)
    (hreplaced : Replaced S id prepare (knowledge t) (updated, result))
    (hdecides : ∀ {now key v payload}, Transition cfg S t.call.request now key v payload →
      key = ResponseStore.key cfg id ∧
        ∃ updated result, Table.decided S id prepare v = .ok (updated, payload, result))
    (hrest : ∀ now, ∃ op, Table.perform cfg S now t.call.request = some op ∧
      ∀ table table', (Table.transition cfg S id prepare).run.run table =
        (.ok (updated, result), table') → op.run.run table = (.ok response, table')) :
    (deployment cfg S fuel).Takes ok
      (TakesEffect cfg S fuel i t.call.request response) w₀ ls w := by
  obtain ⟨v, stored, hcommitted, hstored, hprepare⟩ := hreplaced
  refine (takes_commit hw hrun htask hcommitted).imp ?_
  rintro ls' x l hx - ⟨u, key, payload, hcall, hcommits, hv, htransition⟩
  obtain ⟨rfl, updated', result', hdecided⟩ := hdecides htransition
  -- what was committed comes from the text that the task knows of
  have hsame : updated' = updated ∧ result' = result := by
    obtain ⟨stored', hdecode, hrest⟩ := bind_eq_ok_iff.mp hdecided
    obtain ⟨⟨a, b⟩, hprepare', hrest⟩ := bind_eq_ok_iff.mp hrest
    obtain ⟨text, -, hpair⟩ := bind_eq_ok_iff.mp hrest
    obtain rfl : stored' = stored :=
      Except.ok.inj ((decode_eq_ok_iff.mp hdecode).symm.trans hstored)
    have hab := Except.ok.inj (hprepare'.symm.trans hprepare)
    have hpair := Except.ok.inj hpair
    simp only [Prod.mk.injEq] at hab hpair
    exact ⟨hpair.1.symm.trans hab.1, hpair.2.2.symm.trans hab.2⟩
  obtain ⟨rfl, rfl⟩ := hsame
  obtain ⟨op, hop, hrest⟩ := hrest x.shared.clock
  exact takesEffect_of_commit (sound_of_run hw hx) hcommits hv hdecided hop hrest

/-! ### The transitions of the three requests -/

omit [DecidableEq N] in
theorem decided_of_eq {T : Type} {v payload : String} {stored updated : StoredResponse N}
    {result : T} {prepare : StoredResponse N → String → Except Fault (StoredResponse N × T)}
    (hstored : StoredResponse.ofText S v = .ok stored)
    (hprepare : prepare stored id = .ok (updated, result))
    (hpayload : updated.toText S = .ok payload) :
    Table.decided S id prepare v = .ok (updated, payload, result) :=
  bind_eq_ok_iff.mpr ⟨stored, decode_eq_ok_iff.mpr hstored,
    bind_eq_ok_iff.mpr ⟨(updated, result), hprepare,
      bind_eq_ok_iff.mpr ⟨payload, encode_eq_ok_iff.mpr hpayload, rfl⟩⟩⟩

omit [DecidableEq N] in
theorem decided_of_claim {now : Option Int64} {key v payload : String}
    (h : Transition cfg S (.claimBackgroundResponse id) now key v payload) :
    key = ResponseStore.key cfg id ∧ ∃ updated result,
      Table.decided S id prepareClaimBackground v = .ok (updated, payload, result) := by
  cases h with
  | claim hstored hprepare hpayload => exact ⟨rfl, _, _, decided_of_eq hstored hprepare hpayload⟩
  | stale hrequest => cases hrequest

omit [DecidableEq N] in
theorem decided_of_complete {json : String} {completed : Value N} {now : Option Int64}
    {key v payload : String} (hjson : readJson S "response_json" id json = .ok completed)
    (h : Transition cfg S (.completeBackgroundResponse id json) now key v payload) :
    key = ResponseStore.key cfg id ∧ ∃ updated result,
      Table.decided S id (prepareCompleteBackground completed) v =
        .ok (updated, payload, result) := by
  cases h with
  | complete hjson' hstored hprepare hpayload =>
    obtain rfl := Except.ok.inj (hjson.symm.trans hjson')
    exact ⟨rfl, _, _, decided_of_eq hstored hprepare hpayload⟩
  | stale hrequest => cases hrequest

omit [DecidableEq N] in
theorem decided_of_fail {message : String} {now : Option Int64} {key v payload : String}
    (h : Transition cfg S (.failBackgroundResponse id message) now key v payload) :
    key = ResponseStore.key cfg id ∧ ∃ updated result,
      Table.decided S id (prepareFailBackground message) v = .ok (updated, payload, result) := by
  cases h with
  | fail hstored hprepare hpayload => exact ⟨rfl, _, _, decided_of_eq hstored hprepare hpayload⟩
  | stale hrequest => cases hrequest

section Runs

variable {ok : DWorld → DLabel → Prop} {w₀ w : DWorld} {ls : List DLabel} {t : DTask}

/-- A claim that succeeds takes effect at its commit. -/
theorem takes_claim (hw : Initial w₀) (hrun : (deployment cfg S fuel).RunIn ok w₀ ls w)
    (htask : w.tasks i = some t) (hrequest : t.call.request = .claimBackgroundResponse id)
    (hreturns : (claimBackgroundResponse cfg S id).run.Returns t.transcript (.ok response)) :
    (deployment cfg S fuel).Takes ok
      (TakesEffect cfg S fuel i t.call.request response) w₀ ls w := by
  rw [claimBackgroundResponse] at hreturns
  split_ifs at hreturns with hid
  · exact absurd hreturns not_returns_reject
  obtain ⟨es, es₂, ⟨updated, payload⟩, htranscript, htransition, hrest⟩ := hreturns.bind_ok
  obtain ⟨es₃, es₄, json, rfl, hprinted, hrest'⟩ := hrest.bind_ok
  obtain ⟨rfl, hjson⟩ := returns_ofStatus_ok hprinted
  obtain ⟨rfl, record, hrecord, rfl⟩ := returns_record_ok hrest'
  rw [List.append_nil, List.append_nil] at htranscript
  subst htranscript
  have hreplaced : Replaced S id prepareClaimBackground (knowledge t) (updated, payload) :=
    replaced_of_returns (.claimBackgroundResponse id)
      (fun hstored hprepare hpayload => .claim hstored hprepare hpayload) (.inl rfl)
      (returns_rpc_ok htransition)
  refine takes_transition hw hrun htask hreplaced ?_ ?_
  · intro now key v payload h
    rw [hrequest] at h
    exact decided_of_claim h
  · intro now
    rw [hrequest]
    refine ⟨_, rfl, fun table table' hrun => ?_⟩
    rw [if_neg hid, Table.run_bind_of_ok (Table.run_answer hrun)]
    dsimp only
    rw [Table.run_bind_of_ok (Table.run_ofStatus hjson _),
      Table.run_bind_of_ok (Table.run_ofStatus hrecord _)]
    rfl

/-- A completion that succeeds takes effect at its commit. -/
theorem takes_complete {json : String} (hw : Initial w₀)
    (hrun : (deployment cfg S fuel).RunIn ok w₀ ls w) (htask : w.tasks i = some t)
    (hrequest : t.call.request = .completeBackgroundResponse id json)
    (hreturns : (completeBackgroundResponse cfg S id json).run.Returns t.transcript
      (.ok response)) :
    (deployment cfg S fuel).Takes ok
      (TakesEffect cfg S fuel i t.call.request response) w₀ ls w := by
  rw [completeBackgroundResponse] at hreturns
  split_ifs at hreturns with hid hempty
  · exact absurd hreturns not_returns_reject
  · exact absurd hreturns not_returns_reject
  obtain ⟨es₁, es₂, completed, htranscript, hread, hrest⟩ := hreturns.bind_ok
  obtain ⟨rfl, hjson⟩ := returns_ofStatus_ok hread
  split_ifs at hrest with hobject
  · exact absurd hrest not_returns_reject
  obtain ⟨es₃, es₄, updated, rfl, htransition, hrest'⟩ := hrest.bind_ok
  obtain ⟨rfl, record, hrecord, rfl⟩ := returns_record_ok hrest'
  rw [List.nil_append, List.append_nil] at htranscript
  subst htranscript
  obtain ⟨⟨updated, ⟨⟩⟩, hcompleted, rfl⟩ := (returns_rpc_ok htransition).map_ok
  have hreplaced : Replaced S id (prepareCompleteBackground completed) (knowledge t)
      (updated, ()) :=
    replaced_of_returns (.completeBackgroundResponse id json)
      (fun hstored hprepare hpayload => .complete hjson hstored hprepare hpayload) (.inl rfl)
      hcompleted
  refine takes_transition hw hrun htask hreplaced ?_ ?_
  · intro now key v payload h
    rw [hrequest] at h
    exact decided_of_complete hjson h
  · intro now
    rw [hrequest]
    refine ⟨_, rfl, fun table table' hrun => ?_⟩
    rw [if_neg hid, if_neg hempty, Table.run_bind_of_ok (Table.run_ofStatus hjson _),
      if_neg hobject, Table.run_bind_of_ok (Table.run_answer (Table.run_map hrun)),
      Table.run_bind_of_ok (Table.run_ofStatus hrecord _)]
    rfl

/-- A failure that succeeds takes effect at its commit. -/
theorem takes_fail {message : String} (hw : Initial w₀)
    (hrun : (deployment cfg S fuel).RunIn ok w₀ ls w) (htask : w.tasks i = some t)
    (hrequest : t.call.request = .failBackgroundResponse id message)
    (hreturns : (failBackgroundResponse cfg S id message).run.Returns t.transcript
      (.ok response)) :
    (deployment cfg S fuel).Takes ok
      (TakesEffect cfg S fuel i t.call.request response) w₀ ls w := by
  rw [failBackgroundResponse] at hreturns
  split_ifs at hreturns with hid hempty
  · exact absurd hreturns not_returns_reject
  · exact absurd hreturns not_returns_reject
  obtain ⟨es₁, es₂, updated, htranscript, htransition, hrest⟩ := hreturns.bind_ok
  obtain ⟨rfl, record, hrecord, rfl⟩ := returns_record_ok hrest
  rw [List.append_nil] at htranscript
  subst htranscript
  obtain ⟨⟨updated, ⟨⟩⟩, hfailed, rfl⟩ := (returns_rpc_ok htransition).map_ok
  have hreplaced : Replaced S id (prepareFailBackground message) (knowledge t) (updated, ()) :=
    replaced_of_returns (.failBackgroundResponse id message)
      (fun hstored hprepare hpayload => .fail hstored hprepare hpayload) (.inl rfl) hfailed
  refine takes_transition hw hrun htask hreplaced ?_ ?_
  · intro now key v payload h
    rw [hrequest] at h
    exact decided_of_fail h
  · intro now
    rw [hrequest]
    refine ⟨_, rfl, fun table table' hrun => ?_⟩
    rw [if_neg hid, if_neg hempty, Table.run_bind_of_ok (Table.run_answer (Table.run_map hrun)),
      Table.run_bind_of_ok (Table.run_ofStatus hrecord _)]
    rfl

/-- A store that succeeds takes effect at its write. -/
theorem takes_store {record : Option ProtoStoredResponse} {ttlSeconds : UInt64} (hw : Initial w₀)
    (hrun : (deployment cfg S fuel).RunIn ok w₀ ls w) (htask : w.tasks i = some t)
    (hrequest : t.call.request = .storeResponse record ttlSeconds)
    (hreturns : (storeResponse cfg S record ttlSeconds).run.Returns t.transcript (.ok response)) :
    (deployment cfg S fuel).Takes ok
      (TakesEffect cfg S fuel i t.call.request response) w₀ ls w := by
  obtain ⟨es₁, es₂, sent, htranscript, hrequired, hrest⟩ := hreturns.bind_ok
  obtain ⟨rfl, hsent⟩ := returns_ofStatus_ok hrequired
  obtain ⟨es₃, es₄, core, rfl, hconverted, hrest'⟩ := hrest.bind_ok
  obtain ⟨rfl, hcore⟩ := returns_ofStatus_ok hconverted
  obtain ⟨es₅, es₆, ⟨⟩, rfl, hstored, hanswer⟩ := hrest'.bind_ok
  obtain ⟨rfl, heq⟩ := returns_ret.mp hanswer
  obtain rfl := Except.ok.inj heq
  obtain ⟨payload, hencode, hzero, rfl⟩ := returns_store_ok (returns_rpc_ok hstored)
  refine (hrun.takes_exchange hw.tasks htask htranscript).imp ?_
  rintro ls' x l hx - ⟨σ, hexchange⟩
  obtain ⟨choice, y, hl, hs, rfl⟩ := hexchange.stepped
  obtain ⟨u, k, choice', hu, hlive, hcall, -, hprog, -, hexec⟩ := hexchange
  replace hexec : x.shared.exec i t.call.server choice' (.setEx _ _ payload) =
    some (y.shared, .ok ()) := hexec
  obtain ⟨hvalid, hreplied⟩ := validTtl_of_exec hexec
  obtain ⟨hσ, -⟩ := Prod.mk.inj (Option.some.inj hexec)
  have hstrings : y.shared.db.strings = Function.update x.shared.db.strings
      (ResponseStore.key cfg sent.responseId)
      (some ⟨payload, some ((ttlFromRequest ttlSeconds).getD cfg.ttlSeconds).toNat⟩) := by
    rw [← hσ, hreplied]
    simp only [Shared.runIf, Delivery.ran, if_true, Keyspace.setEx, if_pos hvalid]
    rfl
  rw [hrequest]
  refine takesEffect_of_run hl hs rfl ?_
  rw [Table.run_bind_of_ok (Table.run_ofStatus hsent _),
    Table.run_bind_of_ok (Table.run_ofStatus hcore _),
    Table.run_bind_of_ok (Table.run_answer (Table.run_store_ok hzero hencode hvalid _)),
    tableOf, tableOf, hstrings]
  rfl

/-- A plain read that succeeds takes effect at its read. -/
theorem takes_get (hw : Initial w₀)
    (hrun : (deployment cfg S fuel).RunIn ok w₀ ls w) (htask : w.tasks i = some t)
    (hrequest : t.call.request = .getResponse id false)
    (hreturns : (getResponse cfg S id false).run.Returns t.transcript (.ok response)) :
    (deployment cfg S fuel).Takes ok
      (TakesEffect cfg S fuel i t.call.request response) w₀ ls w := by
  rw [getResponse] at hreturns
  split_ifs at hreturns with hid
  · exact absurd hreturns not_returns_reject
  obtain ⟨es₁, es₂, stored, htranscript, hget, hrest⟩ := hreturns.bind_ok
  obtain ⟨rfl, record, hrecord, rfl⟩ := returns_record_ok hrest
  obtain ⟨hlive, text, htext, rfl⟩ := returns_get_ok (returns_rpc_ok hget)
  replace htranscript : t.transcript = [] ++ _ :: [] := htranscript
  refine (hrun.takes_exchange hw.tasks htask htranscript).imp ?_
  rintro ls' x l hx - ⟨σ, hexchange⟩
  obtain ⟨choice, y, hl, hs, rfl⟩ := hexchange.stepped
  obtain ⟨u, k, choice', hu, hlive', hcall, -, hprog, -, hexec⟩ := hexchange
  replace hexec : x.shared.exec i t.call.server choice' (.get (ResponseStore.key cfg id)) =
    some (y.shared, .ok (some text)) := hexec
  rw [← hcall] at hexec
  have hcurrent := (sound_of_run hw hx).read_current hu hlive' hprog hexec (.inl rfl)
  obtain ⟨hsame, -⟩ := Prod.mk.inj (Option.some.inj hexec)
  obtain ⟨e, hentry, rfl⟩ := Option.map_eq_some_iff.mp hcurrent
  replace hentry : tableOf x.shared (ResponseStore.key cfg id) = some e := hentry
  have hget : (Table.get cfg S id x.shared.clock false).run.run (tableOf x.shared) =
      (.ok stored, tableOf x.shared) := by
    rw [Table.get,
      Table.run_bind_of_ok (Table.run_find_present hentry htext hlive)]
    rfl
  rw [hrequest]
  refine takesEffect_of_run hl hs rfl ?_
  rw [if_neg hid, Table.run_bind_of_ok (Table.run_answer hget),
    Table.run_bind_of_ok (Table.run_ofStatus hrecord _), ← hsame]
  rfl

/-- The requests that read or write one record in one command or one transaction. -/
def ActsAtOnce : Request → Prop
  | .storeResponse .. | .getResponse _ false | .claimBackgroundResponse _
  | .completeBackgroundResponse .. | .failBackgroundResponse .. => True
  | _ => False

/-- **Successes take effect at one moment.** In every run, whatever else is going on, whatever
fails and whatever is dropped: a store, a plain read, a claim, a completion or a failure that has
returned a response has taken a step of its own at which its function on the table gives this
response and leaves the texts that are in Redis after the step. -/
theorem successes_take_effect_at_once (hw : Initial w₀)
    (hrun : (deployment cfg S fuel).RunIn ok w₀ ls w) (htask : w.tasks i = some t)
    (hrequest : ActsAtOnce t.call.request) (hprog : t.prog = .ret (.ok response)) :
    (deployment cfg S fuel).Takes ok
      (TakesEffect cfg S fuel i t.call.request response) w₀ ls w := by
  have hreturns := returns_of_run hw hrun htask hprog
  generalize hcall : t.call.request = request at hrequest hreturns
  rw [← hcall]
  cases request with
  | storeResponse record ttlSeconds => exact takes_store hw hrun htask hcall hreturns
  | getResponse id reconcileStale =>
    cases reconcileStale with
    | false => exact takes_get hw hrun htask hcall hreturns
    | true => cases hrequest
  | claimBackgroundResponse id => exact takes_claim hw hrun htask hcall hreturns
  | completeBackgroundResponse id json => exact takes_complete hw hrun htask hcall hreturns
  | failBackgroundResponse id message => exact takes_fail hw hrun htask hcall hreturns
  | _ => cases hrequest

end Runs

namespace Sample

set_option maxRecDepth 100000 in
/-- A claim loses the race against a client that stores the job again, and wins at its second
attempt. -/
def claimsAgain : machine.Recording (fun _ _ => true) (start (some queuedText)) (fun w =>
    (returned w 1).any (fun result => result.isOk) = true ∧
    requestOf w 1 = some (.claimBackgroundResponse "resp_1") ∧
    returned w 2 = some (.ok .stored)) :=
  ⟨call 1 (.claimBackgroundResponse "resp_1") 4 ++
    (call 2 (.storeResponse (some queuedRecord) 0) 1 ++ turns 1 14), by decide +kernel⟩

end Sample

open Sample

/-- The claim takes effect at its second commit. -/
theorem successes_take_effect_claim : ∃ w response,
    machine.Run (start (some queuedText)) claimsAgain.labels w ∧
    machine.Takes (fun _ _ => True)
      (TakesEffect config serde 8 1 (.claimBackgroundResponse "resp_1") response)
      (start (some queuedText)) claimsAgain.labels w := by
  obtain ⟨w, hrun, hreturned, hrequest, -⟩ := claimsAgain.exists_run
  obtain ⟨result, hresult, hok⟩ := (Option.any_eq_true _ _).mp hreturned
  obtain ⟨t, htask, hprog⟩ := returned_eq_some hresult
  have hrequest : t.call.request = .claimBackgroundResponse "resp_1" := by
    simpa [requestOf, htask] using hrequest
  cases result with
  | error fault => cases hok
  | ok response =>
    have htakes := successes_take_effect_at_once (initial_start _) hrun htask
      (by rw [hrequest]; trivial) hprog
    rw [hrequest] at htakes
    exact ⟨w, response, hrun, htakes⟩

end ResponsesApiStore
