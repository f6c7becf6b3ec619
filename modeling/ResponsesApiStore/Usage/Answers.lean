import ResponsesApiStore.Interaction.Exchanges
import ResponsesApiStore.Usage.Contract
import ResponsesApiStore.Usage.Evidence
import ResponsesApiStore.System.Execution

/-!
# What an answer says is true

An answer is put together from replies that came at different moments, while other clients went
on writing. What it says was true while the call was running: every record handed out was at its
key right after some step of the call itself (`answers_were_stored`); a response that is not
found was missing then; and a precondition that failed did so for a record that was there
(`refusals_were_due`). The errors an execution can end with at all are those of
`errors_of_interface`.

The evidence is in the transcript (`vouched_of_returns`); every exchange of a transcript was a
step of the run (`RunIn.takes_exchange`), a read there finds what is stored, and an `EXEC` that
went through leaves what it wrote.
-/

namespace ResponsesApiStore

open Json (Value Serde)
open Redis (Error TxCmd Keyspace)
open Interaction (Machine World Label Program Protocol)
open Interaction.Program

variable {N : Type} {cfg : StoreConfig} {S : Serde N}

/-! ### The errors of the interface -/

/-- **The errors of the interface.** Whatever Redis replies, in every execution of a request: it
does not panic, and an error is a status with one of the codes of this kind of request. (A model
of the statistics that is given too little fuel stops, which the source does not; and arithmetic
is that of a release build, where `streamIdAfter` wraps.) A health check does not fail. -/
theorem errors_of_interface [DecidableEq N] (fuel : ℕ) (request : Request) {es : List sig.Exchange}
    {fault : RpcFault} (h : (serve cfg S fuel request).Returns es (.error fault)) :
    (fault = .outOfFuel ∧ ∃ group, request = .getBackgroundQueueStats group) ∨
      ∃ status, fault = .status status ∧ status.code ∈ request.codes := by
  rcases errs_handle fuel request es fault h with hfuel | hanswers
  · exact .inl hfuel
  · rcases fault with status | message | _
    · exact .inr ⟨status, rfl, hanswers⟩
    · exact hanswers.elim
    · exact hanswers.elim

section Replay

open Sample

/-- A completion that finds the job still queued. -/
def completeReplay :
    (serve config serde 8 (.completeBackgroundResponse "resp_1" "\x7b\x7d")).Replay where
  transcript :=
    [⟨.lock, ()⟩, ⟨.tx .discard, .error (Redis.responseError "DISCARD without MULTI")⟩,
      ⟨.tx (.watch key), .ok ()⟩, ⟨.tx (.get key), .ok (some queuedText)⟩,
      ⟨.tx .unwatch, .ok ()⟩, ⟨.unlock, ()⟩]
  result := .error (.status ⟨.failedPrecondition, "response resp_1 is not in progress"⟩)
  replays := by decide +kernel

theorem errors_of_interface_complete : ∃ status,
    (RpcFault.status ⟨.failedPrecondition, "response resp_1 is not in progress"⟩ =
      .status status) ∧
    status.code ∈ (Request.completeBackgroundResponse "resp_1" "\x7b\x7d").codes := by
  rcases errors_of_interface 8 _ completeReplay.returns with ⟨hfuel, -⟩ | hstatus
  · cases hfuel
  · exact hstatus

end Replay

/-! ### What is behind an answer -/

/-- The records an answer hands out. -/
def Response.records : Response → List ProtoStoredResponse
  | .got record | .claimed record _ _ _ | .completed record | .failed record
  | .reconciled record _ => [record]
  | .claimedJobs jobs _ _ => jobs.map ProtoBackgroundJob.record
  | _ => []

/-- What a request counts as missing, beside an empty key: a tombstone, unless the request is a
transition, which refuses a tombstone instead. -/
def CountsMissing (stored : StoredResponse N) : Request → Prop
  | .getResponse .. | .updateResponse .. | .reconcileStaleResponse .. =>
    isDeletedTombstone stored = true
  | _ => False

/-- The refusals of a request: a transition that its preparation does not allow. -/
inductive Declines (S : Serde N) (stored : StoredResponse N) (message : String) :
    Request → String → Prop
  | claim {id : String}
      (hprepare : RefusedBy id prepareClaimBackground stored message) :
      Declines S stored message (.claimBackgroundResponse id) id
  | complete {id json : String} {completed : Value N}
      (hjson : readJson S "response_json" id json = .ok completed)
      (hprepare : RefusedBy id (prepareCompleteBackground completed) stored message) :
      Declines S stored message (.completeBackgroundResponse id json) id
  | fail {id reason : String}
      (hprepare : RefusedBy id (prepareFailBackground reason) stored message) :
      Declines S stored message (.failBackgroundResponse id reason) id

/-- **What is behind an answer.** Every record handed out was shown under its id; a response that
is not found was looked for and was missing; a precondition that failed did so for a record that
was found. -/
structure Vouched (cfg : StoreConfig) (S : Serde N) (request : Request) (es : List sig.Exchange)
    (result : RpcResult) : Prop where
  records : ∀ response, result = .ok response → ∀ record ∈ response.records,
    ∃ stored, Shown cfg S record.responseId es stored ∧
      coreToProto S record.responseId stored = .ok record
  missing : ∀ message id, result = .error (.status ⟨.notFound, message⟩) →
    addressedTo request = some id → storeErrorToStatus (.notFound id) = ⟨.notFound, message⟩ ∧
      (ReadIn cfg id es none ∨
        ∃ stored : StoredResponse N, FoundIn cfg S id es stored ∧ CountsMissing stored request)
  refused : ∀ message, result = .error (.status ⟨.failedPrecondition, message⟩) →
    ∃ id, ∃ stored : StoredResponse N, FoundIn cfg S id es stored ∧
      Declines S stored message request id

section Vouched

variable {request : Request} {es : List sig.Exchange} {id : String}

theorem responseId_of_coreToProto {record : StoredResponse N} {p : ProtoStoredResponse}
    (h : coreToProto S id record = .ok p) : p.responseId = id := by
  obtain ⟨json, -, h⟩ := bind_eq_ok_iff.mp h
  obtain ⟨input, -, h⟩ := bind_eq_ok_iff.mp h
  obtain ⟨pending, -, h⟩ := bind_eq_ok_iff.mp h
  rw [← Except.ok.inj h]

/-- An answer that hands out nothing. -/
theorem vouched_plain {response : Response} (h : response.records = []) :
    Vouched cfg S request es (.ok response) := by
  constructor
  · rintro _ ⟨⟩ record hrecord
    rw [h] at hrecord
    cases hrecord
  · rintro message id ⟨⟩
  · rintro message ⟨⟩

/-- An error that says nothing about a record. -/
theorem vouched_fault {fault : RpcFault} (hmissing : ∀ message,
    fault ≠ .status ⟨.notFound, message⟩)
    (hrefused : ∀ message, fault ≠ .status ⟨.failedPrecondition, message⟩) :
    Vouched cfg S request es (.error fault) := by
  constructor
  · rintro _ ⟨⟩
  · rintro message id ⟨⟩
    exact absurd rfl (hmissing message)
  · rintro message ⟨⟩
    exact absurd rfl (hrefused message)

/-- An invalid argument or an internal error says nothing about a record. -/
theorem vouched_status {status : Status} (hmissing : status.code ≠ .notFound)
    (hrefused : status.code ≠ .failedPrecondition) :
    Vouched cfg S request es (.error (.status status)) := by
  refine vouched_fault ?_ ?_
  · rintro message ⟨⟩
    exact hmissing rfl
  · rintro message ⟨⟩
    exact hrefused rfl

/-- A status that says nothing about a record, by its code. -/
theorem vouched_answers {codes : List Code} {fault : RpcFault} (h : Answers codes fault)
    (hmissing : .notFound ∉ codes) (hrefused : .failedPrecondition ∉ codes) :
    Vouched cfg S request es (.error fault) := by
  refine vouched_fault ?_ ?_
  · rintro message rfl
    exact hmissing h
  · rintro message rfl
    exact hrefused h

/-- An answer with one record. -/
theorem vouched_record {stored : StoredResponse N} {response : Response}
    {record : ProtoStoredResponse} (hshown : Shown cfg S id es stored)
    (hproto : coreToProto S id stored = .ok record) (h : response.records = [record]) :
    Vouched cfg S request es (.ok response) := by
  constructor
  · rintro _ ⟨⟩ record' hrecord
    rw [h] at hrecord
    obtain rfl := List.mem_singleton.mp hrecord
    obtain rfl := responseId_of_coreToProto hproto
    exact ⟨stored, hshown, hproto⟩
  · rintro message id ⟨⟩
  · rintro message ⟨⟩

/-- The errors of the store that become `NOT_FOUND` and `FAILED_PRECONDITION`. -/
theorem eq_of_storeErrorToStatus {err : StoreError} {code : Code} {message : String}
    (h : storeErrorToStatus err = ⟨code, message⟩) :
    (code = .notFound → ∃ id, err = .notFound id) ∧
      (code = .failedPrecondition → err = .failedPrecondition message) := by
  constructor
  · rintro rfl
    cases err with
    | notFound id => exact ⟨id, rfl⟩
    | _ => cases h
  · rintro rfl
    cases err with
    | notFound id =>
      have hcode := code_notFound id
      rw [h] at hcode
      cases hcode
    | failedPrecondition message' => cases h; rfl
    | _ => cases h

/-- An error of a procedure on the record of `id`. -/
theorem vouched_error {missing : StoredResponse N → Prop}
    {refuses : StoredResponse N → String → Prop} {fault : Fault}
    (h : Justified cfg S id missing refuses es fault) (haddressed : addressedTo request = some id)
    (hmissing : ∀ stored, missing stored → CountsMissing stored request)
    (hrefuses : ∀ stored message, refuses stored message → Declines S stored message request id) :
    Vouched cfg S request es (.error (mapStoreError fault)) := by
  rcases fault with err | message | _
  swap
  · exact vouched_fault (fun _ => by rintro ⟨⟩) fun _ => by rintro ⟨⟩
  swap
  · exact vouched_fault (fun _ => by rintro ⟨⟩) fun _ => by rintro ⟨⟩
  constructor
  · rintro _ ⟨⟩
  · intro message id' heq haddressed'
    obtain rfl := Option.some.inj (haddressed.symm.trans haddressed')
    have hstatus := RpcFault.status.inj (Except.error.inj heq)
    obtain ⟨id'', rfl⟩ := (eq_of_storeErrorToStatus hstatus).1 rfl
    obtain ⟨rfl, hread | ⟨stored, hfound, hstored⟩⟩ := h
    · exact ⟨hstatus, .inl hread⟩
    · exact ⟨hstatus, .inr ⟨stored, hfound, hmissing stored hstored⟩⟩
  · intro message heq
    have hstatus := RpcFault.status.inj (Except.error.inj heq)
    obtain rfl := (eq_of_storeErrorToStatus hstatus).2 rfl
    obtain ⟨stored, hfound, hstored⟩ := h
    exact ⟨id, stored, hfound, hrefuses stored message hstored⟩

/-! ### Requests that look at a record -/

theorem code_of_internal {status : Status} (h : status.code = .internal) :
    Vouched cfg S request es (.error (.status status)) :=
  vouched_status (by rw [h]; decide) (by rw [h]; decide)

theorem code_of_invalid {status : Status} (h : status.code = .invalidArgument) :
    Vouched cfg S request es (.error (.status status)) :=
  vouched_status (by rw [h]; decide) (by rw [h]; decide)

theorem recorded_getResponse (id : String) (reconcileStale : Bool) :
    (getResponse cfg S id reconcileStale).run.Follows recorded
      (Vouched cfg S (.getResponse id reconcileStale)) es := by
  rw [getResponse]
  split_ifs
  · exact code_of_invalid rfl
  simp only [follows_except_bind_iff, follows_rpc, follows_ofStatus]
  refine recorded_get.mono ?_
  rintro es' (fault | stored) h
  · exact vouched_error h rfl (fun _ hdeleted => hdeleted) fun _ _ => False.elim
  simp only [Except.mapError]
  rcases hproto : coreToProto S id stored with status | record
  · exact code_of_internal (internal_of_coreToProto hproto)
  · exact vouched_record h hproto rfl

theorem recorded_reconcileStale [DecidableEq N] (id : String) (staleSeconds : Int64) :
    (reconcileStaleResponse cfg S id staleSeconds).run.Follows recorded
      (Vouched cfg S (.reconcileStaleResponse id staleSeconds)) es := by
  rw [reconcileStaleResponse]
  split_ifs
  · exact code_of_invalid rfl
  simp only [follows_except_bind_iff, follows_rpc, follows_ofStatus]
  refine recorded_get_plain.mono ?_
  rintro es' (fault | existing) h
  · exact vouched_error h rfl (fun _ hdeleted => hdeleted) fun _ _ => False.elim
  refine (recorded_reconcileStaleResponse h).mono ?_
  rintro es'' (fault | stored) h
  · exact vouched_error h rfl (fun _ hdeleted => hdeleted) fun _ _ => False.elim
  simp only [Except.mapError]
  rcases hproto : coreToProto S id stored with status | record
  · exact code_of_internal (internal_of_coreToProto hproto)
  · exact vouched_record h hproto rfl

theorem recorded_updateResponse (record : Option ProtoStoredResponse) (ttl : UInt64) :
    (updateResponse cfg S record ttl).run.Follows recorded
      (Vouched cfg S (.updateResponse record ttl)) es := by
  simp only [updateResponse, follows_except_bind_iff, follows_ofStatus, follows_rpc]
  rcases hp : requireRecord record with status | p
  · exact code_of_invalid (invalid_of_requireRecord hp)
  dsimp only [Except.mapError]
  rcases hcore : protoToCore S p with status | core
  · exact code_of_invalid (invalid_of_protoToCore hcore)
  have haddressed : addressedTo (.updateResponse record ttl) = some p.responseId := by
    simp [addressedTo, hp, Except.toOption]
  refine recorded_found (fun es' stored hfound _ => ?_) fun es' err h => ?_
  · refine follows_of_returns (fun _ _ => trivial) ?_
    rintro es'' (fault | _) hreturns
    · have hcoded : Coded writeCodes fault :=
        ResponseStore.errs_store (by decide) (by decide) (by decide) _ _ es'' fault hreturns
      exact vouched_answers hcoded.answers (by decide) (by decide)
    · exact vouched_plain rfl
  · exact vouched_error h haddressed (fun _ hdeleted => hdeleted) fun _ _ => False.elim

/-! ### Transitions -/

theorem recorded_claimBackgroundResponse (id : String) :
    (claimBackgroundResponse cfg S id).run.Follows recorded
      (Vouched cfg S (.claimBackgroundResponse id)) es := by
  rw [claimBackgroundResponse]
  split_ifs
  · exact code_of_invalid rfl
  simp only [follows_except_bind_iff, follows_rpc, follows_ofStatus,
    ResponseStore.claimBackgroundResponse]
  refine (recorded_transitionAtomic (fun _ _ => isRefusal_of_prepareClaim) es).mono ?_
  rintro es' (fault | ⟨updated, payload⟩) h
  · exact vouched_error h rfl (fun _ => False.elim) fun _ _ => .claim
  simp only [Except.mapError]
  rcases hjson : printJson S "pending_upstream_request" id payload.pendingUpstreamRequest with
    status | json
  · exact code_of_internal (internal_of_printJson hjson)
  dsimp only
  rcases hproto : coreToProto S id updated with status | record
  · exact code_of_internal (internal_of_coreToProto hproto)
  · exact vouched_record h hproto rfl

theorem recorded_completeBackgroundResponse (id json : String) :
    (completeBackgroundResponse cfg S id json).run.Follows recorded
      (Vouched cfg S (.completeBackgroundResponse id json)) es := by
  rw [completeBackgroundResponse]
  split_ifs
  · exact code_of_invalid rfl
  · exact code_of_invalid rfl
  rw [follows_except_bind_iff, follows_ofStatus]
  rcases hjson : readJson S "response_json" id json with status | completed
  · exact code_of_invalid (invalid_of_readJson hjson)
  simp only [Except.mapError]
  split_ifs
  · exact code_of_invalid rfl
  simp only [follows_except_bind_iff, follows_rpc, follows_ofStatus,
    ResponseStore.completeBackgroundResponse, ← bind_pure_comp]
  refine (recorded_transitionAtomic (fun _ _ => isRefusal_of_prepareComplete) es).mono ?_
  rintro es' (fault | ⟨updated, _⟩) h
  · exact vouched_error h rfl (fun _ => False.elim) fun _ _ => .complete hjson
  simp only [follows_return, Except.mapError]
  rcases hproto : coreToProto S id updated with status | record
  · exact code_of_internal (internal_of_coreToProto hproto)
  · exact vouched_record h hproto rfl

theorem recorded_failBackgroundResponse (id message : String) :
    (failBackgroundResponse cfg S id message).run.Follows recorded
      (Vouched cfg S (.failBackgroundResponse id message)) es := by
  rw [failBackgroundResponse]
  split_ifs
  · exact code_of_invalid rfl
  · exact code_of_invalid rfl
  simp only [follows_except_bind_iff, follows_rpc, follows_ofStatus,
    ResponseStore.failBackgroundResponse, ← bind_pure_comp]
  refine (recorded_transitionAtomic (fun _ _ => isRefusal_of_prepareFail) es).mono ?_
  rintro es' (fault | ⟨updated, _⟩) h
  · exact vouched_error h rfl (fun _ => False.elim) fun _ _ => .fail
  simp only [follows_return, Except.mapError]
  rcases hproto : coreToProto S id updated with status | record
  · exact code_of_internal (internal_of_coreToProto hproto)
  · exact vouched_record h hproto rfl

/-! ### Batches -/

/-- The jobs on the wire are the jobs of the batch, one by one. -/
theorem exists_job_of_mapM {jobs : List (BackgroundJob N)} {ps : List ProtoBackgroundJob}
    (h : jobs.mapM (coreJobToProto S) = .ok ps) {p : ProtoBackgroundJob} (hp : p ∈ ps) :
    ∃ job ∈ jobs, coreToProto S job.responseId job.record = .ok p.record := by
  induction jobs generalizing ps with
  | nil =>
    rw [← Except.ok.inj h] at hp
    cases hp
  | cons job jobs ih =>
    rw [List.mapM_cons] at h
    obtain ⟨p', hp', h⟩ := bind_eq_ok_iff.mp h
    obtain ⟨ps', hps', h⟩ := bind_eq_ok_iff.mp h
    rw [← Except.ok.inj h] at hp
    rcases List.mem_cons.mp hp with rfl | hp
    · obtain ⟨record, hrecord, hjob⟩ := bind_eq_ok_iff.mp hp'
      rw [← Except.ok.inj hjob]
      exact ⟨job, List.mem_cons_self, hrecord⟩
    · obtain ⟨job', hjob', hproto⟩ := ih hps' hp
      exact ⟨job', List.mem_cons_of_mem job hjob', hproto⟩

theorem recorded_claimBackgroundJobs (request : ClaimBackgroundJobsRequest) :
    (claimBackgroundJobs cfg S request).run.Follows recorded (fun es result =>
      ∀ response, result = .ok response → Vouched cfg S (.claimBackgroundJobs request) es result)
      es := by
  rw [claimBackgroundJobs]
  split_ifs
  · rintro response ⟨⟩
  simp only [BackgroundQueue.getAutoclaimCursor, BackgroundQueue.setAutoclaimCursor,
    follows_except_bind_iff, follows_rpc, follows_ofStatus, follows_outcome, follows_storage,
    follows_return, send, call, follows_cmd, follows_ret]
  refine ⟨trivial, fun reply => ?_⟩
  rcases reply with e | cursor
  · rintro response ⟨⟩
  refine (recorded_claimJobs _).mono ?_
  rintro es' (fault | ⟨batch, cursor'⟩) hfound
  · rintro response ⟨⟩
  simp only [Except.mapError]
  refine ⟨trivial, fun reply => ?_⟩
  rcases hjobs : batch.jobs.mapM (coreJobToProto S) with status | jobs
  · rintro response ⟨⟩
  rintro response ⟨⟩
  constructor
  · rintro _ ⟨⟩ record hrecord
    obtain ⟨p, hp, rfl⟩ := List.mem_map.mp hrecord
    obtain ⟨job, hjob, hproto⟩ := exists_job_of_mapM hjobs hp
    rw [responseId_of_coreToProto hproto]
    exact ⟨job.record, .inl ((hfound _ rfl job hjob).append _), hproto⟩
  · rintro message id ⟨⟩
  · rintro message ⟨⟩

/-! ### Every request -/

/-- An answer of the procedure hands out nothing. -/
def HandsOutNothing (p : Rpc Response) : Prop :=
  ∀ es response, p.run.Returns es (.ok response) → response.records = []

theorem handsOutNothing_answer {response : Response} (h : response.records = []) :
    HandsOutNothing (pure response) := by
  intro es response' hreturns
  obtain rfl := Except.ok.inj (returns_pure.mp hreturns).2
  exact h

theorem handsOutNothing_reject {code : Code} {message : String} :
    HandsOutNothing (reject code message) := by
  intro es response hreturns
  cases (returns_ret.mp hreturns).2

theorem HandsOutNothing.bind {α : Type} {p : Rpc α} {f : α → Rpc Response}
    (hf : ∀ a, HandsOutNothing (f a)) : HandsOutNothing (p >>= f) := by
  intro es response hreturns
  obtain ⟨es₁, es₂, a, -, -, hrest⟩ := hreturns.bind_ok
  exact hf a es₂ response hrest

theorem HandsOutNothing.refused {b : Bool} {message : String} {p : Rpc Response}
    (hp : HandsOutNothing p) :
    HandsOutNothing (if b then reject .invalidArgument message else p) := by
  split_ifs
  · exact handsOutNothing_reject
  · exact hp

/-- A request that hands out no record, and that needs none. -/
theorem vouched_of_codes [DecidableEq N] {fuel : ℕ} {result : RpcResult} (codes : List Code)
    (hcodes : request.codes = codes) (h : (serve cfg S fuel request).Returns es result)
    (hmissing : .notFound ∉ codes ∨ addressedTo request = none)
    (hrefused : .failedPrecondition ∉ codes)
    (hrecords : ∀ response, result = .ok response → Vouched cfg S request es result) :
    Vouched cfg S request es result := by
  subst hcodes
  rcases result with fault | response
  swap
  · exact hrecords response rfl
  have hcontract := errs_handle fuel request es fault h
  constructor
  · rintro _ ⟨⟩
  · rintro message id ⟨⟩ haddressed
    rcases hmissing with hmissing | hnone
    · rcases hcontract with ⟨⟨⟩, -⟩ | hanswers
      exact absurd hanswers hmissing
    · rw [hnone] at haddressed
      cases haddressed
  · rintro message ⟨⟩
    rcases hcontract with ⟨⟨⟩, -⟩ | hanswers
    exact absurd hanswers hrefused

/-- **The transcript vouches for the answer.** -/
theorem vouched_of_returns [DecidableEq N] {fuel : ℕ} {result : RpcResult}
    (h : (serve cfg S fuel request).Returns es result) : Vouched cfg S request es result := by
  have hrecorded : ∀ {post : List sig.Exchange → RpcResult → Prop},
      (serve cfg S fuel request).Follows recorded post [] → post es result := by
    intro post hfollows
    have hpost := hfollows.of_returns h
    rwa [recorded, Protocol.after_ofTranscript, List.nil_append] at hpost
  have hplain : HandsOutNothing (handle cfg S fuel request) →
      ∀ response, result = .ok response → Vouched cfg S request es result := by
    rintro hnothing response rfl
    exact vouched_plain (hnothing es response h)
  cases request with
  | getResponse id reconcileStale => exact hrecorded (recorded_getResponse id reconcileStale)
  | updateResponse record ttl => exact hrecorded (recorded_updateResponse record ttl)
  | reconcileStaleResponse id staleSeconds =>
    exact hrecorded (recorded_reconcileStale id staleSeconds)
  | claimBackgroundResponse id => exact hrecorded (recorded_claimBackgroundResponse id)
  | completeBackgroundResponse id json =>
    exact hrecorded (recorded_completeBackgroundResponse id json)
  | failBackgroundResponse id message =>
    exact hrecorded (recorded_failBackgroundResponse id message)
  | claimBackgroundJobs claim =>
    exact vouched_of_codes writeCodes rfl h (.inr rfl) (by decide)
      (hrecorded (recorded_claimBackgroundJobs claim))
  | storeResponse record ttl =>
    refine vouched_of_codes writeCodes rfl h (.inl (by decide)) (by decide) (hplain ?_)
    exact .bind fun _ => .bind fun _ => .bind fun _ => handsOutNothing_answer rfl
  | deleteResponse id =>
    refine vouched_of_codes writeCodes rfl h (.inl (by decide)) (by decide) (hplain ?_)
    exact .refused (.bind fun _ => handsOutNothing_answer rfl)
  | enqueueBackgroundJob record =>
    refine vouched_of_codes writeCodes rfl h (.inl (by decide)) (by decide) (hplain ?_)
    exact .bind fun _ => .bind fun _ => .bind fun _ => .bind fun _ => .bind fun _ =>
      handsOutNothing_answer rfl
  | acknowledgeBackgroundJob streamId group =>
    refine vouched_of_codes streamCodes rfl h (.inr rfl) (by decide) (hplain ?_)
    exact .refused (.bind fun _ => handsOutNothing_answer rfl)
  | ensureConsumerGroup group startId =>
    refine vouched_of_codes streamCodes rfl h (.inr rfl) (by decide) (hplain ?_)
    exact .refused (.bind fun _ => handsOutNothing_answer rfl)
  | getBackgroundQueueStats group =>
    refine vouched_of_codes statsCodes rfl h (.inr rfl) (by decide) (hplain ?_)
    exact .refused (.bind fun _ => handsOutNothing_answer rfl)
  | health =>
    refine vouched_of_codes [] rfl h (.inr rfl) (by decide) (hplain (.bind ?_))
    rintro (fault | _)
    · exact handsOutNothing_answer rfl
    · refine .bind ?_
      rintro (fault | info)
      · exact handsOutNothing_answer rfl
      · exact handsOutNothing_answer rfl

end Vouched

/-! ### Moments of a call -/

section Moments

variable [DecidableEq N] {fuel : ℕ} {ok : DWorld → DLabel → Prop} {w₀ w : DWorld}
  {ls : List DLabel}

/-- Step `l` is one of task `i`, and leaves `text` at the key of `id`. -/
def LeavesText (M : DMachine) (cfg : StoreConfig) (i : ℕ) (id : String) (text : Option String)
    (x : DWorld) (l : DLabel) : Prop :=
  ∃ choice y, l = .act i choice ∧ M.Stepped x l y ∧
    y.shared.textAt (ResponseStore.key cfg id) = text

omit [DecidableEq N] in
/-- A read leaves what it finds. -/
theorem Sound.read_leaves {x : DWorld} (h : Sound cfg S x) {i : ℕ} {t : DTask} {c : Cmd}
    {k : c.Reply → Program sig RpcResult} {choice : Choice} {σ : Shared} {r : c.Reply}
    (htask : x.tasks i = some t) (hlive : t.live = true) (hprog : t.prog = .cmd c k)
    (hexec : x.shared.exec i t.call.server choice c = some (σ, r)) {key : String}
    {text : Option String} (hread : (⟨c, r⟩ : sig.Exchange) = ⟨.get key, .ok text⟩ ∨
      (⟨c, r⟩ : sig.Exchange) = ⟨.tx (.get key), .ok text⟩) : σ.textAt key = text := by
  have hcurrent := h.read_current htask hlive hprog hexec hread
  rcases hread with heq | heq
  · cases heq
    obtain ⟨rfl, -⟩ := Prod.mk.inj (Option.some.inj hexec)
    exact hcurrent
  · cases heq
    have hphase : (knowledge t).phase = .watching key := (h.allowed_of_prog htask hprog).2
    have hsession := h.session i t htask hlive
    rw [Matches, hphase] at hsession
    rcases exec_tx hexec with ⟨-, rfl, -⟩ | ⟨-, err, hr⟩
    · rw [TxCmd.run, if_neg (by simp [hsession.1])]
      exact hcurrent
    · cases hr

/-- What a call has read was there at the time. -/
theorem takes_of_readIn (hw : Initial w₀) (hrun : (deployment cfg S fuel).RunIn ok w₀ ls w)
    {i : ℕ} {t : DTask} (htask : w.tasks i = some t) {id : String} {text : Option String}
    (hread : ReadIn cfg id t.transcript text) :
    (deployment cfg S fuel).Takes ok
      (LeavesText (deployment cfg S fuel) cfg i id text) w₀ ls w := by
  have htakes : ∀ e : sig.Exchange, e ∈ t.transcript →
      (e = ⟨.get (ResponseStore.key cfg id), .ok text⟩ ∨
        e = ⟨.tx (.get (ResponseStore.key cfg id)), .ok text⟩) →
      (deployment cfg S fuel).Takes ok
        (LeavesText (deployment cfg S fuel) cfg i id text) w₀ ls w := by
    intro e he hkind
    obtain ⟨es, es', htranscript⟩ := List.append_of_mem he
    refine (hrun.takes_exchange hw.tasks htask htranscript).imp ?_
    rintro ls x l hx - ⟨σ, hexchange⟩
    obtain ⟨choice, y, hl, hs, rfl⟩ := hexchange.stepped
    obtain ⟨u, k, choice', hu, hlive, hcall, -, hprog, -, hexec⟩ := hexchange
    rw [← hcall] at hexec
    exact ⟨choice, y, hl, hs, (sound_of_run hw hx).read_leaves hu hlive hprog hexec hkind⟩
  rcases hread with hread | hread
  · exact htakes _ hread (.inl rfl)
  · exact htakes _ hread (.inr rfl)

/-- What a call has written was there right afterwards. -/
theorem takes_of_wroteIn (hw : Initial w₀) (hrun : (deployment cfg S fuel).RunIn ok w₀ ls w)
    {i : ℕ} {t : DTask} (htask : w.tasks i = some t) {id payload : String}
    (hwrote : WroteIn cfg id t.transcript payload) :
    (deployment cfg S fuel).Takes ok
      (LeavesText (deployment cfg S fuel) cfg i id (some payload)) w₀ ls w := by
  obtain ⟨es, es', ttl, n, htranscript⟩ := hwrote
  -- the write was allowed because this key was read, and is still the key last read at `EXEC`
  have hseen : ∃ v, (es.foldl (fun g e => g.after e.1 e.2) Knowledge.init).seen =
      some (ResponseStore.key cfg id, v) := by
    obtain ⟨ls₁, l, ls₂, x, y, -, hx, -, ⟨σ, u, k, choice, hu, hlive, -, rfl, hprog, -⟩, -⟩ :=
      hrun.takes_exchange hw.tasks htask htranscript
    obtain ⟨-, v, hv, -⟩ := ((sound_of_run hw hx).allowed_of_prog hu hprog).2
    exact ⟨some v, hv⟩
  obtain ⟨v, hv⟩ := hseen
  rw [List.append_cons] at htranscript
  refine (hrun.takes_exchange hw.tasks htask htranscript).imp ?_
  rintro ls x l hx - ⟨σ, hexchange⟩
  obtain ⟨choice, y, hl, hs, rfl⟩ := hexchange.stepped
  obtain ⟨u, k, choice', hu, hlive, hcall, hbefore, hprog, rfl, hexec⟩ := hexchange
  rw [← hcall] at hexec
  have hsound := sound_of_run hw hx
  have hknown : knowledge u = (es.foldl (fun g e => g.after e.1 e.2) Knowledge.init).afterTx
      (.setEx (ResponseStore.key cfg id) ttl payload) (.ok ()) := by
    rw [knowledge, hbefore, List.foldl_append]
    rfl
  obtain ⟨key, v', payload', hcommits, -⟩ := hsound.commits_of_exec hu hlive hprog hexec
  have hsession := hsound.session i u hu hlive
  have hphase : (knowledge u).phase = .queued ttl payload := by
    rw [hknown]
    rfl
  rw [Matches, hphase] at hsession
  obtain ⟨-, key', v'', hseen', hqueue, -⟩ := hsession
  obtain ⟨ttl', -, hqueue'⟩ := hcommits.queue
  rw [hqueue] at hqueue'
  obtain ⟨rfl, rfl, rfl⟩ : key' = key ∧ ttl = ttl' ∧ payload = payload' := by simpa using hqueue'
  have hkey : key' = ResponseStore.key cfg id := by
    have hsame : (knowledge u).seen = some (ResponseStore.key cfg id, v) := by
      rw [hknown]
      exact hv
    exact (Prod.mk.inj (Option.some.inj (hseen'.symm.trans hsame))).1
  subst hkey
  exact ⟨choice, y, hl, hs, hsound.commit_writes hcommits hs⟩

/-- What a call was shown was there at some moment of the call. -/
theorem takes_of_shown (hw : Initial w₀) (hrun : (deployment cfg S fuel).RunIn ok w₀ ls w)
    {i : ℕ} {t : DTask} (htask : w.tasks i = some t) {id : String} {stored : StoredResponse N}
    (hshown : Shown cfg S id t.transcript stored) :
    ∃ text, (StoredResponse.ofText S text = .ok stored ∨ stored.toText S = .ok text) ∧
      (deployment cfg S fuel).Takes ok
        (LeavesText (deployment cfg S fuel) cfg i id (some text)) w₀ ls w := by
  rcases hshown with ⟨text, hread, htext⟩ | ⟨payload, hwrote, hpayload⟩
  · exact ⟨text, .inl htext, takes_of_readIn hw hrun htask hread⟩
  · exact ⟨payload, .inr hpayload, takes_of_wroteIn hw hrun htask hwrote⟩

/-- The transcript of a task that has returned. -/
theorem returns_of_run (hw : Initial w₀) (hrun : (deployment cfg S fuel).RunIn ok w₀ ls w)
    {i : ℕ} {t : DTask} (htask : w.tasks i = some t) {result : RpcResult}
    (hprog : t.prog = .ret result) :
    (serve cfg S fuel t.call.request).Returns t.transcript result := by
  have hresumes := hrun.transcribed hw.tasks i t htask
  rwa [hprog] at hresumes

/-- **Answers were true.** In every run: each record that a call has handed out is one that was
stored, under the id it carries, right after some step of this very call; it was read there, or
the call has just written it. -/
theorem answers_were_stored (hw : Initial w₀) (hrun : (deployment cfg S fuel).RunIn ok w₀ ls w)
    {i : ℕ} {t : DTask} (htask : w.tasks i = some t) {response : Response}
    (hprog : t.prog = .ret (.ok response)) {record : ProtoStoredResponse}
    (hrecord : record ∈ response.records) :
    ∃ (stored : StoredResponse N) (text : String),
      coreToProto S record.responseId stored = .ok record ∧
      (StoredResponse.ofText S text = .ok stored ∨ stored.toText S = .ok text) ∧
      (deployment cfg S fuel).Takes ok
        (LeavesText (deployment cfg S fuel) cfg i record.responseId (some text))
        w₀ ls w := by
  obtain ⟨stored, hshown, hproto⟩ :=
    (vouched_of_returns (returns_of_run hw hrun htask hprog)).records response rfl record hrecord
  obtain ⟨text, htext, htakes⟩ := takes_of_shown hw hrun htask hshown
  exact ⟨stored, text, hproto, htext, htakes⟩

/-- **Refusals were due.** In every run: a call that is answered `NOT_FOUND` for the id it is
addressed to has read the key, and found nothing there, or a tombstone (which a claim, a
completion and a failure do not count as missing); a call that is answered `FAILED_PRECONDITION`
has read a record there of which its transition says so, in these words. -/
theorem refusals_were_due (hw : Initial w₀) (hrun : (deployment cfg S fuel).RunIn ok w₀ ls w)
    {i : ℕ} {t : DTask} (htask : w.tasks i = some t) {status : Status}
    (hprog : t.prog = .ret (.error (.status status))) :
    (∀ id, status.code = .notFound → addressedTo t.call.request = some id →
      status = storeErrorToStatus (.notFound id) ∧ ∃ text,
      (deployment cfg S fuel).Takes ok (LeavesText (deployment cfg S fuel) cfg i id text) w₀ ls w ∧
      ∀ v, text = some v → ∃ stored : StoredResponse N,
        StoredResponse.ofText S v = .ok stored ∧ CountsMissing stored t.call.request) ∧
    (status.code = .failedPrecondition → ∃ id v, ∃ stored : StoredResponse N,
      Declines S stored status.message t.call.request id ∧
      StoredResponse.ofText S v = .ok stored ∧
      (deployment cfg S fuel).Takes ok
        (LeavesText (deployment cfg S fuel) cfg i id (some v)) w₀ ls w) := by
  have hvouched := vouched_of_returns (returns_of_run hw hrun htask hprog)
  obtain ⟨code, message⟩ := status
  constructor
  · rintro id rfl haddressed
    obtain ⟨hstatus, hread | ⟨stored, ⟨v, hread, hv⟩, hmissing⟩⟩ :=
      hvouched.missing message id rfl haddressed
    · refine ⟨hstatus.symm, none, takes_of_readIn hw hrun htask hread, ?_⟩
      rintro v ⟨⟩
    · refine ⟨hstatus.symm, some v, takes_of_readIn hw hrun htask hread, ?_⟩
      rintro _ ⟨⟩
      exact ⟨stored, hv, hmissing⟩
  · rintro rfl
    obtain ⟨id, stored, ⟨v, hread, hv⟩, hrefuses⟩ := hvouched.refused message rfl
    exact ⟨id, v, stored, hrefuses, hv, takes_of_readIn hw hrun htask hread⟩

end Moments

section Runs

open Sample

/-- The claimed job as it is handed out. -/
def claimedAnswer : ProtoStoredResponse :=
  ⟨"resp_1", "openai",
    "\x7b\"background\":true,\"id\":\"resp_1\",\"status\":\"in_progress\"\x7d", [],
    some "\x7b\"model\":\"m\"\x7d", none, some 100⟩

set_option maxRecDepth 100000 in
/-- A job is claimed. -/
def claimsQueued : machine.Recording (fun _ _ => true) (start (some queuedText)) (fun w =>
    returned w 1 = some (.ok (.claimed claimedAnswer "openai" "\x7b\"model\":\"m\"\x7d" none))) :=
  ⟨call 1 (.claimBackgroundResponse "resp_1") 9, by decide +kernel⟩

/-- The record that a claim hands out is the one it has written. -/
theorem answers_were_stored_claim :
    ∃ w, machine.Run (start (some queuedText)) claimsQueued.labels w ∧
    ∃ (stored : StoredResponse Int64) (text : String),
      coreToProto serde claimedAnswer.responseId stored = .ok claimedAnswer ∧
      (StoredResponse.ofText serde text = .ok stored ∨ stored.toText serde = .ok text) ∧
      machine.Takes (fun _ _ => True)
        (LeavesText machine config 1 claimedAnswer.responseId (some text))
        (start (some queuedText)) claimsQueued.labels w := by
  obtain ⟨w, hrun, hreturned⟩ := claimsQueued.exists_run
  obtain ⟨t, htask, hprog⟩ := returned_eq_some hreturned
  exact ⟨w, hrun, answers_were_stored (initial_start _) hrun htask hprog List.mem_cons_self⟩

set_option maxRecDepth 100000 in
/-- A job is completed that nobody has claimed. -/
def completesQueued : machine.Recording (fun _ _ => true) (start (some queuedText)) (fun w =>
    returned w 1 = some (.error (.status
      ⟨.failedPrecondition, "response resp_1 is not in progress"⟩)) ∧
    requestOf w 1 = some (.completeBackgroundResponse "resp_1" "\x7b\x7d")) :=
  ⟨call 1 (.completeBackgroundResponse "resp_1" "\x7b\x7d") 6, by decide +kernel⟩

set_option maxRecDepth 100000 in
/-- A response is asked for that has been deleted. -/
def getsTombstone : machine.Recording (fun _ _ => true) (start (some tombstoneText)) (fun w =>
    returned w 1 = some (.error (.status ⟨.notFound, "response not found: resp_1"⟩)) ∧
    requestOf w 1 = some (.getResponse "resp_1" false)) :=
  ⟨call 1 (.getResponse "resp_1" false) 1, by decide +kernel⟩

/-- A completion is refused for the record it has read; and a response is not found for the
tombstone that was read at its key. -/
theorem refusals_were_due_complete :
    (∃ w, machine.Run (start (some queuedText)) completesQueued.labels w ∧
      ∃ id v, ∃ stored : StoredResponse Int64,
        Declines serde stored "response resp_1 is not in progress"
          (.completeBackgroundResponse "resp_1" "\x7b\x7d") id ∧
        StoredResponse.ofText serde v = .ok stored ∧
        machine.Takes (fun _ _ => True) (LeavesText machine config 1 id (some v))
          (start (some queuedText)) completesQueued.labels w) ∧
    ∃ w, machine.Run (start (some tombstoneText)) getsTombstone.labels w ∧ ∃ text,
      machine.Takes (fun _ _ => True) (LeavesText machine config 1 "resp_1" text)
        (start (some tombstoneText)) getsTombstone.labels w ∧
      ∀ v, text = some v → ∃ stored : StoredResponse Int64,
        StoredResponse.ofText serde v = .ok stored ∧ isDeletedTombstone stored = true := by
  constructor
  · obtain ⟨w, hrun, hreturned, hrequest⟩ := completesQueued.exists_run
    obtain ⟨t, htask, hprog⟩ := returned_eq_some hreturned
    have hrequest : t.call.request = .completeBackgroundResponse "resp_1" "\x7b\x7d" := by
      simpa [requestOf, htask] using hrequest
    have hrefused := (refusals_were_due (initial_start _) hrun htask hprog).2 rfl
    rw [hrequest] at hrefused
    exact ⟨w, hrun, hrefused⟩
  · obtain ⟨w, hrun, hreturned, hrequest⟩ := getsTombstone.exists_run
    obtain ⟨t, htask, hprog⟩ := returned_eq_some hreturned
    have hrequest : t.call.request = .getResponse "resp_1" false := by
      simpa [requestOf, htask] using hrequest
    have haddressed : addressedTo t.call.request = some "resp_1" := by rw [hrequest]; rfl
    obtain ⟨-, text, htakes, hmissing⟩ :=
      (refusals_were_due (initial_start _) hrun htask hprog).1 "resp_1" rfl haddressed
    rw [hrequest] at hmissing
    exact ⟨w, hrun, text, htakes, hmissing⟩

end Runs

end ResponsesApiStore
