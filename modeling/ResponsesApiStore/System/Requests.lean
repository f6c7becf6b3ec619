import ResponsesApiStore.System.Conformance

/-!
# Every request keeps the discipline

The handlers of the service, one lemma for each, and `serve_follows`: from no knowledge at
all, the program of any request issues only commands it has a reason for, and what it answers
agrees with what it has done (`Done`).
-/

namespace ResponsesApiStore

open Json (Value Serde)
open Redis (Error)
open Interaction (Program Protocol)
open Interaction.Program

variable {N : Type} {cfg : StoreConfig} {S : Serde N}

/-! ### Reads and client writes -/

theorem follows_storeResponse (record : Option ProtoStoredResponse) (ttl : UInt64) :
    (storeResponse cfg S record ttl).run.Follows (discipline cfg S (.storeResponse record ttl))
      (Done cfg S (.storeResponse record ttl)) .init := by
  have hpast : Past cfg (.storeResponse record ttl) .init := .inl rfl
  simp only [storeResponse, follows_except_bind_iff, follows_ofStatus, follows_rpc]
  rcases hp : requireRecord record with status | p
  · exact ⟨rfl, trivial⟩
  dsimp only [Except.mapError]
  rcases hcore : protoToCore S p with status | core
  · exact ⟨rfl, trivial⟩
  refine follows_store ?_ ⟨rfl, trivial⟩ fun fault => ⟨rfl, trivial⟩
  exact fun ttl payload hpayload => ⟨hpast.screened _ rfl, rfl, core, hpayload,
    .client (.store hp hcore) fun record ttl p h => by cases h⟩

theorem follows_updateResponse (record : Option ProtoStoredResponse) (ttl : UInt64) :
    (updateResponse cfg S record ttl).run.Follows (discipline cfg S (.updateResponse record ttl))
      (Done cfg S (.updateResponse record ttl)) .init := by
  have hpast : Past cfg (.updateResponse record ttl) .init := .inl rfl
  simp only [updateResponse, follows_except_bind_iff, follows_ofStatus, follows_rpc]
  rcases hp : requireRecord record with status | p
  · exact ⟨rfl, trivial⟩
  dsimp only [Except.mapError]
  rcases hcore : protoToCore S p with status | core
  · exact ⟨rfl, trivial⟩
  dsimp only
  rw [ResponseStore.update, follows_except_bind_iff, follows_load]
  refine ⟨⟨hpast.screened _ rfl, rfl⟩, fun reply => ?_⟩
  rcases reply with e | (_ | text)
  · exact ⟨rfl, trivial⟩
  · exact ⟨rfl, trivial⟩
  rcases hstored : StoredResponse.ofText S text with e | stored
  · simp only [ResponseStore.decode, hstored, Except.mapError, Except.map]
    exact ⟨rfl, trivial⟩
  simp only [ResponseStore.decode, hstored, Except.mapError, Except.map]
  split_ifs with hlive
  · exact ⟨rfl, trivial⟩
  refine follows_store ?_ ⟨rfl, rfl⟩ fun fault => ⟨rfl, trivial⟩
  refine fun ttl payload hpayload => ⟨hpast.screened _ rfl, rfl, core, hpayload,
    .client (.update hp hcore) ?_⟩
  rintro record' ttl' p' ⟨⟩ hp'
  obtain rfl := Except.ok.inj (hp.symm.trans hp')
  exact ⟨stored, ⟨text, rfl, hstored⟩, by simpa using hlive⟩

theorem follows_enqueueBackgroundJob (record : Option ProtoStoredResponse) :
    (enqueueBackgroundJob cfg S record).run.Follows
      (discipline cfg S (.enqueueBackgroundJob record))
      (Done cfg S (.enqueueBackgroundJob record)) .init := by
  have hpast : Past cfg (.enqueueBackgroundJob record) .init := .inl rfl
  simp only [enqueueBackgroundJob, follows_except_bind_iff, follows_ofStatus, follows_rpc]
  rcases hp : requireRecord record with status | p
  · exact ⟨rfl, trivial⟩
  dsimp only [Except.mapError]
  rcases hcore : protoToCore S p with status | core
  · exact ⟨rfl, trivial⟩
  simp only [ask, follows_lift, send, call, follows_cmd, follows_ret]
  refine ⟨⟨hpast.screened _ rfl, rfl⟩, fun now => ?_⟩
  have hpast' : Past cfg (.enqueueBackgroundJob record) { Knowledge.init with now := some now } :=
    .inl rfl
  refine follows_store ?_ ?_ fun fault => ⟨rfl, trivial⟩
  · exact fun ttl payload hpayload => ⟨hpast'.screened _ rfl, rfl, _, hpayload,
      .client (.enqueue hp hcore) fun record ttl p h => by cases h⟩
  · simp only [Except.mapError, BackgroundQueue.enqueue, follows_storage, send, call, follows_cmd,
      follows_ret]
    refine ⟨⟨hpast'.screened _ rfl, rfl, record, p, rfl, hp, rfl, rfl, rfl⟩, fun reply => ?_⟩
    rcases reply with e | _ <;> exact ⟨rfl, trivial⟩

/-! ### Reading and reconciling -/

theorem follows_get_handsOut (id : String) (reconcileStale : Bool) :
    (ResponseStore.get cfg S id reconcileStale).run.Follows
      (discipline cfg S (.getResponse id reconcileStale))
      (fun g r => HandsOut cfg S id g r ∧ (reconcileStale = false → g.now = none)) .init := by
  refine follows_get ⟨?_, rfl⟩ ?_ ?_
  · intro id' staleSeconds h _
    cases reconcileStale
    · cases h
    · obtain ⟨rfl, -⟩ := Prod.mk.inj (Option.some.inj h)
      exact .inl ⟨rfl, rfl⟩
  · intro text stored hstored hlive
    cases reconcileStale
    · refine ⟨⟨rfl, fun record h => ?_⟩, fun _ => rfl⟩
      exact .inl (Except.ok.inj h ▸ hlive)
    · exact (follows_reconcileStaleResponse rfl ⟨text, rfl, hstored⟩ hlive rfl rfl).mono
        fun g r h => ⟨h, nofun⟩
  · exact fun reply err _ => ⟨⟨rfl, nofun⟩, fun _ => rfl⟩

theorem follows_getResponse (id : String) (reconcileStale : Bool) :
    (getResponse cfg S id reconcileStale).run.Follows
      (discipline cfg S (.getResponse id reconcileStale))
      (Done cfg S (.getResponse id reconcileStale)) .init := by
  rw [getResponse]
  split_ifs
  · exact ⟨rfl, trivial⟩
  simp only [follows_except_bind_iff, follows_rpc, follows_ofStatus]
  refine (follows_get_handsOut id reconcileStale).mono ?_
  rintro g (fault | stored) ⟨⟨hidle, hstored⟩, hnow⟩
  · exact ⟨hidle, trivial⟩
  simp only [Except.mapError]
  rcases hproto : coreToProto S id stored with status | record
  · exact ⟨hidle, trivial⟩
  · exact ⟨hidle, record, rfl, ⟨stored, hproto, hstored stored rfl⟩, hnow⟩

theorem follows_reconcileStale [DecidableEq N] (id : String) (staleSeconds : Int64) :
    (reconcileStaleResponse cfg S id staleSeconds).run.Follows
      (discipline cfg S (.reconcileStaleResponse id staleSeconds))
      (Done cfg S (.reconcileStaleResponse id staleSeconds)) .init := by
  rw [reconcileStaleResponse]
  split_ifs
  · exact ⟨rfl, trivial⟩
  simp only [follows_except_bind_iff, follows_rpc, follows_ofStatus]
  refine follows_get ⟨?_, rfl⟩ ?_ ?_
  · intro id' staleSeconds' h _
    obtain ⟨rfl, -⟩ := Prod.mk.inj (Option.some.inj h)
    exact .inl ⟨rfl, rfl⟩
  · intro text existing hexisting hlive
    simp only [Bool.false_eq_true, if_false, follows_return, Except.mapError]
    refine (follows_reconcileStaleResponse rfl ⟨text, rfl, hexisting⟩ hlive rfl rfl).mono ?_
    rintro g (fault | stored) ⟨hidle, hstored⟩
    · exact ⟨hidle, trivial⟩
    dsimp only
    rcases hproto : coreToProto S id stored with status | record
    · exact ⟨hidle, trivial⟩
    · exact ⟨hidle, record, _, rfl, stored, hproto, hstored stored rfl⟩
  · exact fun reply err _ => ⟨rfl, trivial⟩

/-! ### Deleting -/

/-- What a delete has done when it comes back. -/
def Erased (g : Knowledge) (r : Except Fault Unit) : Prop :=
  g.phase = .idle ∧ (r = .ok () → g.wrote = true)

theorem follows_delete {id : String} {g : Knowledge} (hidle : g.phase = .idle)
    (hkeep : ∀ stored, g.Found cfg S id stored →
      isDeletedTombstone stored = true ∨ isInFlightBackground stored = false) :
    (ResponseStore.delete cfg id).run.Follows (discipline cfg S (.deleteResponse id)) Erased g := by
  have hpast : Past cfg (.deleteResponse id) g := .inl rfl
  simp only [ResponseStore.delete, follows_storage, send, call, follows_cmd, follows_ret]
  refine ⟨⟨hpast.screened _ rfl, hidle, id, rfl, rfl, hkeep⟩, fun reply => ?_⟩
  rcases reply with e | _
  · exact ⟨hidle, fun h => by cases h⟩
  · exact ⟨hidle, fun _ => rfl⟩

theorem follows_deleteOrTombstone (id : String) :
    (deleteOrTombstone cfg S id).run.Follows (discipline cfg S (.deleteResponse id))
      Erased .init := by
  have hpast : ∀ g, Past cfg (.deleteResponse id) g := fun g => .inl rfl
  rw [deleteOrTombstone, follows_except_bind_iff, follows_outcome]
  refine follows_get ⟨(hpast _).screened _ rfl, rfl⟩ ?_ ?_
  · intro text stored hstored hlive
    simp only [Bool.false_eq_true, if_false, follows_return]
    have hfound : (Knowledge.init.sawAt (ResponseStore.key cfg id) (.ok (some text))).Found cfg S
        id stored := ⟨text, rfl, hstored⟩
    split_ifs with hflight
    · refine follows_store ?_ ⟨rfl, fun _ => rfl⟩ fun fault => ⟨rfl, fun h => by cases h⟩
      exact fun ttl payload hpayload => ⟨(hpast _).screened _ rfl, rfl, _, hpayload,
        .tombstone hfound hlive hflight⟩
    · refine follows_delete (by rfl) ?_
      rintro stored' ⟨text', ⟨⟩, hstored'⟩
      rw [hstored] at hstored'
      exact .inr (Except.ok.inj hstored' ▸ by simpa using hflight)
  · exact fun reply err hkeep => follows_delete (by rfl) fun stored h => .inl (hkeep stored h)

theorem follows_deleteResponse (id : String) :
    (deleteResponse cfg S id).run.Follows (discipline cfg S (.deleteResponse id))
      (Done cfg S (.deleteResponse id)) .init := by
  rw [deleteResponse]
  split_ifs
  · exact ⟨rfl, trivial⟩
  rw [follows_except_bind_iff, follows_rpc]
  refine (follows_deleteOrTombstone id).mono ?_
  rintro g (fault | _) ⟨hidle, hwrote⟩
  · exact ⟨hidle, trivial⟩
  · exact ⟨hidle, hwrote rfl⟩

/-! ### Guarded transitions -/

theorem internal_of_printJson {what id : String} {v : Value N} {status : Status}
    (h : printJson S what id v = .error status) : status.code = .internal := by
  rw [printJson] at h
  rcases hv : S.valueToString v with e | s <;> rw [hv] at h <;> cases h
  rfl

theorem internal_of_mapM {what id : String} {items : List (Value N)} {status : Status}
    (h : items.mapM (printJson S what id) = .error status) : status.code = .internal := by
  induction items with
  | nil => cases h
  | cons v items ih =>
    rw [List.mapM_cons] at h
    rcases bind_eq_error h with h | ⟨text, -, h⟩
    · exact internal_of_printJson h
    · rcases bind_eq_error h with h | ⟨texts, -, h⟩
      · exact ih h
      · cases h

/-- A stored record that cannot be printed is an internal error. -/
theorem internal_of_coreToProto {id : String} {record : StoredResponse N} {status : Status}
    (h : coreToProto S id record = .error status) : status.code = .internal := by
  rw [coreToProto] at h
  rcases bind_eq_error h with h | ⟨response, -, h⟩
  · exact internal_of_printJson h
  rcases bind_eq_error h with h | ⟨input, -, h⟩
  · exact internal_of_mapM h
  rcases bind_eq_error h with h | ⟨pending, -, h⟩
  · rcases hpending : record.pendingUpstreamRequest with _ | v <;> rw [hpending] at h
    · cases h
    · rcases hv : printJson S "pending_upstream_request" id v with e | text
      · rw [Option.mapM_some, hv] at h
        cases h
        exact internal_of_printJson hv
      · rw [Option.mapM_some, hv] at h
        cases h
  · cases h

theorem follows_claimBackgroundResponse (id : String) :
    (claimBackgroundResponse cfg S id).run.Follows
      (discipline cfg S (.claimBackgroundResponse id))
      (Done cfg S (.claimBackgroundResponse id)) .init := by
  rw [claimBackgroundResponse]
  split_ifs
  · exact ⟨rfl, fun _ => rfl⟩
  simp only [follows_except_bind_iff, follows_rpc, follows_ofStatus,
    ResponseStore.claimBackgroundResponse]
  refine (follows_transitionAtomic (fun hstored hprepare hpayload =>
    .claim hstored hprepare hpayload) (.inl rfl) rfl rfl).mono ?_
  rintro g (fault | ⟨updated, payload⟩) ⟨hidle, -, hr⟩
  · rcases fault with err | message | _
    · exact ⟨hidle, fun _ => hr⟩
    · exact ⟨hidle, trivial⟩
    · exact ⟨hidle, trivial⟩
  obtain ⟨v, stored, hcommitted, hstored, hprepare⟩ := hr
  simp only [Except.mapError]
  rcases hjson : printJson S "pending_upstream_request" id payload.pendingUpstreamRequest with
    status | json
  · exact ⟨hidle, fun hne => absurd (internal_of_printJson hjson) hne⟩
  dsimp only
  rcases hproto : coreToProto S id updated with status | record
  · exact ⟨hidle, fun hne => absurd (internal_of_coreToProto hproto) hne⟩
  · exact ⟨hidle, v, stored, updated, payload, record, json, hcommitted, hstored, hprepare,
      hjson, rfl⟩

theorem follows_completeBackgroundResponse (id json : String) :
    (completeBackgroundResponse cfg S id json).run.Follows
      (discipline cfg S (.completeBackgroundResponse id json))
      (Done cfg S (.completeBackgroundResponse id json)) .init := by
  rw [completeBackgroundResponse]
  split_ifs
  · exact ⟨rfl, fun _ => rfl⟩
  · exact ⟨rfl, fun _ => rfl⟩
  rw [follows_except_bind_iff, follows_ofStatus]
  rcases hjson : readJson S "response_json" id json with status | completed
  · exact ⟨rfl, fun _ => rfl⟩
  simp only [Except.mapError]
  split_ifs
  · exact ⟨rfl, fun _ => rfl⟩
  simp only [follows_except_bind_iff, follows_rpc, follows_ofStatus,
    ResponseStore.completeBackgroundResponse, ← bind_pure_comp]
  refine (follows_transitionAtomic (fun hstored hprepare hpayload =>
    .complete hjson hstored hprepare hpayload) (.inl rfl) rfl rfl).mono ?_
  rintro g (fault | ⟨updated, -⟩) ⟨hidle, -, hr⟩
  · rcases fault with err | message | _
    · exact ⟨hidle, fun _ => hr⟩
    · exact ⟨hidle, trivial⟩
    · exact ⟨hidle, trivial⟩
  simp only [follows_return, Except.mapError]
  rcases hproto : coreToProto S id updated with status | record
  · exact ⟨hidle, fun hne => absurd (internal_of_coreToProto hproto) hne⟩
  · exact ⟨hidle, trivial⟩

theorem follows_failBackgroundResponse (id message : String) :
    (failBackgroundResponse cfg S id message).run.Follows
      (discipline cfg S (.failBackgroundResponse id message))
      (Done cfg S (.failBackgroundResponse id message)) .init := by
  rw [failBackgroundResponse]
  split_ifs
  · exact ⟨rfl, fun _ => rfl⟩
  · exact ⟨rfl, fun _ => rfl⟩
  simp only [follows_except_bind_iff, follows_rpc, follows_ofStatus,
    ResponseStore.failBackgroundResponse, ← bind_pure_comp]
  refine (follows_transitionAtomic (fun hstored hprepare hpayload =>
    .fail hstored hprepare hpayload) (.inl rfl) rfl rfl).mono ?_
  rintro g (fault | ⟨updated, -⟩) ⟨hidle, -, hr⟩
  · rcases fault with err | message | _
    · exact ⟨hidle, fun _ => hr⟩
    · exact ⟨hidle, trivial⟩
    · exact ⟨hidle, trivial⟩
  simp only [follows_return, Except.mapError]
  rcases hproto : coreToProto S id updated with status | record
  · exact ⟨hidle, fun hne => absurd (internal_of_coreToProto hproto) hne⟩
  · exact ⟨hidle, trivial⟩

/-! ### The queue -/

theorem follows_claimBackgroundJobs (request : ClaimBackgroundJobsRequest) :
    (claimBackgroundJobs cfg S request).run.Follows
      (discipline cfg S (.claimBackgroundJobs request))
      (Done cfg S (.claimBackgroundJobs request)) .init := by
  have hpast : ∀ g, Past cfg (.claimBackgroundJobs request) g := fun g => .inl rfl
  rw [claimBackgroundJobs]
  split_ifs
  · exact ⟨rfl, trivial⟩
  simp only [BackgroundQueue.getAutoclaimCursor, BackgroundQueue.claimJobs,
    BackgroundQueue.setAutoclaimCursor, follows_except_bind_iff, follows_rpc, follows_ofStatus,
    follows_outcome, follows_storage, follows_return, send, call, follows_cmd, follows_ret]
  refine ⟨⟨(hpast _).screened _ rfl, rfl⟩, fun reply => ?_⟩
  rcases reply with e | cursor
  · exact ⟨rfl, trivial⟩
  refine (follows_claimIdle rfl rfl rfl).mono ?_
  rintro g (fault | ⟨result, cursor'⟩) hidle
  · exact ⟨hidle, trivial⟩
  refine (follows_claimNew rfl rfl hidle).mono ?_
  rintro g' (fault | result') hidle'
  · exact ⟨hidle', trivial⟩
  refine ⟨⟨(hpast _).screened _ rfl, hidle'⟩, fun reply => ?_⟩
  simp only [Except.mapError]
  rcases result'.jobs.mapM (coreJobToProto S) with status | jobs <;> exact ⟨hidle', trivial⟩

theorem follows_acknowledgeBackgroundJob (streamId group : String) :
    (acknowledgeBackgroundJob streamId group).run.Follows
      (discipline cfg S (.acknowledgeBackgroundJob streamId group))
      (Done cfg S (.acknowledgeBackgroundJob streamId group)) .init := by
  rw [acknowledgeBackgroundJob]
  split_ifs
  · exact ⟨rfl, trivial⟩
  rw [follows_except_bind_iff, follows_rpc]
  refine (follows_acknowledge (.inl rfl) rfl .named).mono ?_
  rintro g (fault | _) rfl <;> exact ⟨rfl, trivial⟩

theorem follows_ensureConsumerGroupRequest (group startId : String) :
    (ensureConsumerGroup group startId).run.Follows
      (discipline cfg S (.ensureConsumerGroup group startId))
      (Done cfg S (.ensureConsumerGroup group startId)) .init := by
  rw [ensureConsumerGroup]
  split
  · exact ⟨rfl, trivial⟩
  rw [follows_except_bind_iff, follows_rpc]
  refine (follows_ensureConsumerGroup (.inl rfl) rfl).mono ?_
  rintro g (fault | created) rfl <;> exact ⟨rfl, trivial⟩

theorem follows_getBackgroundQueueStats (fuel : ℕ) (group : String) :
    (getBackgroundQueueStats cfg fuel group).run.Follows
      (discipline cfg S (.getBackgroundQueueStats group))
      (Done cfg S (.getBackgroundQueueStats group)) .init := by
  rw [getBackgroundQueueStats]
  split_ifs
  · exact ⟨rfl, trivial⟩
  rw [follows_except_bind_iff, follows_rpc]
  refine (follows_stats (.inl rfl) rfl).mono ?_
  rintro g (fault | stats) rfl <;> exact ⟨rfl, trivial⟩

theorem follows_health :
    health.run.Follows (discipline cfg S .health) (Done cfg S .health) .init := by
  have hpast : ∀ g, Past cfg .health g := fun g => .inl rfl
  simp only [health, follows_except_bind_iff, follows_rpc, follows_outcome, follows_storage,
    send, call, follows_cmd, follows_ret]
  refine ⟨⟨(hpast _).screened _ rfl, rfl⟩, fun reply => ?_⟩
  rcases reply with e | _
  · exact ⟨rfl, trivial⟩
  simp only [Except.mapError, follows_except_bind_iff, follows_rpc, follows_outcome,
    follows_storage]
  refine ⟨⟨(hpast _).screened _ rfl, rfl⟩, fun reply => ?_⟩
  rcases reply with e | info <;> exact ⟨rfl, trivial⟩

/-- **Conformance of the service.** Whatever it is answered, the program of a request issues
only commands it has a reason for, and ends with an answer that agrees with what it did. -/
theorem serve_follows [DecidableEq N] (fuel : ℕ) (request : Request) :
    (serve cfg S fuel request).Follows (discipline cfg S request) (Done cfg S request) .init := by
  cases request with
  | storeResponse record ttl => exact follows_storeResponse record ttl
  | getResponse id reconcileStale => exact follows_getResponse id reconcileStale
  | updateResponse record ttl => exact follows_updateResponse record ttl
  | deleteResponse id => exact follows_deleteResponse id
  | enqueueBackgroundJob record => exact follows_enqueueBackgroundJob record
  | claimBackgroundJobs request => exact follows_claimBackgroundJobs request
  | acknowledgeBackgroundJob streamId group =>
    exact follows_acknowledgeBackgroundJob streamId group
  | ensureConsumerGroup group startId => exact follows_ensureConsumerGroupRequest group startId
  | getBackgroundQueueStats group => exact follows_getBackgroundQueueStats fuel group
  | claimBackgroundResponse id => exact follows_claimBackgroundResponse id
  | completeBackgroundResponse id json => exact follows_completeBackgroundResponse id json
  | failBackgroundResponse id message => exact follows_failBackgroundResponse id message
  | reconcileStaleResponse id staleSeconds => exact follows_reconcileStale id staleSeconds
  | health => exact follows_health

end ResponsesApiStore
