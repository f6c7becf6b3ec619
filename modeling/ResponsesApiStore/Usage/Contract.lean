import ResponsesApiStore.Guarantees.Panics
import ResponsesApiStore.System.Requests
import ResponsesApiStore.Transcripts.Errors

/-!
# The errors of a request

Which statuses each request can be answered with, whatever Redis replies. There is one lemma for
each procedure: the errors of a composite are those of its parts (`Errs.bind`), and a retry loop
fails only the way its attempts do, or because there are no attempts left. A panic is no status,
so the same lemmas say that no request panics.
-/

namespace ResponsesApiStore

open Json (Value Serde)
open Redis (Error)
open Interaction (Program)
open Interaction.Program

variable {N : Type} {α β : Type}

/-! ### Errors of the combinators -/

/-- The fault is an error whose status has one of these codes. -/
def Coded (codes : List Code) : Fault → Prop
  | .error err => (storeErrorToStatus err).code ∈ codes
  | _ => False

/-- The fault of a request is a status with one of these codes. -/
def Answers (codes : List Code) : RpcFault → Prop
  | .status status => status.code ∈ codes
  | _ => False

theorem Coded.answers {codes : List Code} {fault : Fault} (h : Coded codes fault) :
    Answers codes (mapStoreError fault) := by
  rcases fault with err | message | _
  · exact h
  · exact h
  · exact h

section Combinators

variable {E : Fault → Prop} {codes : List Code}

theorem code_notFound (id : String) : (storeErrorToStatus (.notFound id)).code = .notFound := by
  rw [storeErrorToStatus]
  split_ifs <;> rfl

theorem coded_storage (h : .unavailable ∈ codes) (err : Error) : Coded codes (storageFault err) :=
  h

theorem coded_notFound (h : .notFound ∈ codes) (id : String) :
    Coded codes (.error (.notFound id)) := by
  rw [Coded, code_notFound]
  exact h

theorem errs_storage {p : Program sig (Except Error α)} (h : ∀ err, E (storageFault err)) :
    Errs E (storage p) := by
  intro es e hp
  obtain ⟨reply, -, heq⟩ := returns_storage.mp hp
  rcases reply with err | a
  · obtain rfl := Except.error.inj heq
    exact h err
  · cases heq

theorem errs_ask (c : Cmd) : Errs E (ask c) := errs_lift _

theorem errs_ignore (p : Program sig (Except Error α)) : Errs E (ignore p) := errs_lift _

theorem errs_outcome (p : Act α) : Errs E (outcome p) := errs_lift _

theorem errs_raise {err : StoreError} (h : E (.error err)) : Errs E (raise err : Act α) :=
  errs_throw h

theorem errs_ofExcept {x : Except Fault α} (h : ∀ fault, x = .error fault → E fault) :
    Errs E (ofExcept x) := by
  intro es e hx
  exact h e (returns_ofExcept.mp hx).2.symm

/-- Looking at an outcome, and going on from there. -/
theorem errs_outcome_bind {F : Fault → Prop} {p : Act α} {f : Except Fault α → Act β}
    (hp : Errs F p) (hok : ∀ a, Errs E (f (.ok a)))
    (herror : ∀ fault, F fault → Errs E (f (.error fault))) :
    Errs E (outcome p >>= f) := by
  refine (errs_outcome p).bind_of (fun r => ∀ fault, r = .error fault → F fault) ?_ ?_
  · intro es r hr fault heq
    obtain ⟨r', hreturns, hr'⟩ := returns_outcome.mp hr
    obtain rfl := Except.ok.inj hr'
    subst heq
    exact hp es fault hreturns
  · rintro (fault | a) h
    · exact herror fault (h fault rfl)
    · exact hok a

theorem errs_rpc {E' : RpcFault → Prop} {p : Act α} (hp : Errs E p)
    (h : ∀ fault, E fault → E' (mapStoreError fault)) : Errs E' (rpc p) := by
  intro es e hreturns
  obtain ⟨r, hr, heq⟩ := returns_rpc.mp hreturns
  rcases r with fault | a
  · obtain rfl := Except.error.inj heq
    exact h fault (hp es fault hr)
  · cases heq

theorem errs_ofStatus {E' : RpcFault → Prop} {x : Except Status α}
    (h : ∀ status, x = .error status → E' (.status status)) : Errs E' (ofStatus x) := by
  intro es e hx
  have heq := (returns_ret.mp hx).2
  rcases x with status | a
  · obtain rfl := Except.error.inj heq
    exact h status rfl
  · cases heq

theorem errs_reject {codes : List Code} {code : Code} {message : String} (h : code ∈ codes) :
    Errs (Answers codes) (reject code message : Rpc α) :=
  errs_throw h

end Combinators

/-! ### The store -/

namespace ResponseStore

variable {cfg : StoreConfig} {S : Serde N} {codes : List Code} {id : String}

theorem errs_decode (h : .internal ∈ codes) (text : String) :
    Errs (Coded codes) (ofExcept (decode S text)) := by
  refine errs_ofExcept fun fault hfault => ?_
  rw [decode] at hfault
  rcases htext : StoredResponse.ofText S text with message | stored
  · rw [htext] at hfault
    obtain rfl := Except.error.inj hfault
    exact h
  · rw [htext] at hfault
    cases hfault

theorem errs_encode (h : .internal ∈ codes) (record : StoredResponse N) :
    Errs (Coded codes) (ofExcept (encode S record)) := by
  refine errs_ofExcept fun fault hfault => ?_
  rw [encode] at hfault
  rcases htext : record.toText S with message | payload
  · rw [htext] at hfault
    obtain rfl := Except.error.inj hfault
    exact h
  · rw [htext] at hfault
    cases hfault

/-- A load fails with a storage error or because the record cannot be read. -/
theorem errs_load (hunavailable : .unavailable ∈ codes) (hinternal : .internal ∈ codes) :
    Errs (Coded codes) (load cfg S id) := by
  refine (errs_storage (coded_storage hunavailable)).bind fun text => ?_
  rcases text with _ | text
  · exact errs_pure none
  · exact (errs_decode hinternal text).map some

theorem errs_store (hinvalid : .invalidArgument ∈ codes) (hunavailable : .unavailable ∈ codes)
    (hinternal : .internal ∈ codes) (record : StoredResponse N) (ttl : Option UInt64) :
    Errs (Coded codes) (store cfg S id record ttl) := by
  rw [store]
  split_ifs
  · exact errs_raise hinvalid
  · exact (errs_encode hinternal record).bind fun payload =>
      errs_storage (coded_storage hunavailable)

theorem errs_resetTransactionConnection (hunavailable : .unavailable ∈ codes) :
    Errs (Coded codes) resetTransactionConnection :=
  (errs_storage (coded_storage hunavailable)).bind fun _ => (errs_ask _).bind fun _ =>
    (errs_ask _).bind fun _ => errs_ask _

theorem errs_commit {key : String} {ttl : UInt64} {payload : String}
    (hunavailable : .unavailable ∈ codes) : Errs (Coded codes) (commit key ttl payload) :=
  (errs_storage (coded_storage hunavailable)).bind fun _ =>
    (errs_storage (coded_storage hunavailable)).bind fun _ =>
      (errs_storage (coded_storage hunavailable)).bind fun _ => errs_pure _

/-- A round of a retry loop fails the way its attempt does, or the way the rest does. -/
theorem errs_round {attempt : Act (Option α)} {left : ℕ} {next : Act α}
    (hunavailable : .unavailable ∈ codes) (hattempt : Errs (Coded codes) attempt)
    (hnext : Errs (Coded codes) next) : Errs (Coded codes) (round attempt left next) := by
  rw [round]
  have hlocked : ∀ es r, (locked attempt).run.Returns es (.ok r) →
      ∀ fault, r = .error fault → Coded codes fault := by
    rintro es r hr fault rfl
    obtain ⟨es', hreturns⟩ := returns_locked hr
    exact hattempt es' fault hreturns
  have herrs : Errs (Coded codes) (locked attempt) :=
    (errs_ask _).bind fun _ => (errs_ignore _).bind fun _ => (errs_outcome attempt).bind fun _ =>
      (errs_ask _).bind fun _ => errs_pure _
  refine herrs.bind_of _ hlocked ?_
  rintro ((err | message | _) | (_ | a)) h
  · have hcode := h _ rfl
    rcases err with _ | _ | _ | _ | err | _
    case storage =>
      refine (errs_resetTransactionConnection hunavailable).bind fun _ => ?_
      split_ifs
      · exact errs_raise hunavailable
      · exact hnext
    all_goals exact errs_throw hcode
  · exact (h _ rfl).elim
  · exact (h _ rfl).elim
  · exact hnext
  · exact errs_pure a

section Transitions

variable {T : Type} {prepare : StoredResponse N → String → Except Fault (StoredResponse N × T)}

theorem errs_transitionAttempt (hnotFound : .notFound ∈ codes)
    (hunavailable : .unavailable ∈ codes) (hinternal : .internal ∈ codes)
    (hprepare : ∀ stored fault, prepare stored id = .error fault → Coded codes fault)
    (key : String) : Errs (Coded codes) (transitionAttempt cfg S key id prepare) := by
  have hvalues : ∀ raw, Errs (Coded codes) (transitionValues cfg S key id raw prepare) := by
    intro raw
    refine (errs_decode hinternal raw).bind fun stored => ?_
    refine (errs_ofExcept (hprepare stored)).bind ?_
    rintro ⟨updated, result⟩
    exact (errs_encode hinternal updated).bind fun payload =>
      (errs_storage (coded_storage hunavailable)).bind fun ttl => errs_pure _
  rw [transitionAttempt]
  refine (errs_storage (coded_storage hunavailable)).bind fun _ => ?_
  refine (errs_storage (coded_storage hunavailable)).bind ?_
  rintro (_ | raw)
  · exact (errs_ignore _).bind fun _ => errs_raise (coded_notFound hnotFound id)
  refine errs_outcome_bind (hvalues raw) ?_ ?_
  · rintro ⟨updated, payload, ttl, result⟩
    refine (errs_commit hunavailable).bind fun won => ?_
    split_ifs <;> exact errs_pure _
  · rintro (err | message | _) h
    · exact (errs_ignore _).bind fun _ => errs_raise h
    · exact h.elim
    · exact h.elim

/-- A transition fails the way its preparation does, or because of the storage. -/
theorem errs_transitionAtomic (hnotFound : .notFound ∈ codes) (hunavailable : .unavailable ∈ codes)
    (hinternal : .internal ∈ codes)
    (hprepare : ∀ stored fault, prepare stored id = .error fault → Coded codes fault) :
    Errs (Coded codes) (transitionAtomic cfg S id prepare) := by
  rw [transitionAtomic]
  induction maxAttempts with
  | zero => exact errs_raise hunavailable
  | succ left ih =>
    exact errs_round hunavailable
      (errs_transitionAttempt hnotFound hunavailable hinternal hprepare _) ih

end Transitions

theorem errs_reconcileStaleTransactionAttempt {now staleSeconds : Int64}
    (hnotFound : .notFound ∈ codes) (hunavailable : .unavailable ∈ codes)
    (hinternal : .internal ∈ codes) (key : String) :
    Errs (Coded codes) (reconcileStaleTransactionAttempt cfg S key id now staleSeconds) := by
  rw [reconcileStaleTransactionAttempt]
  refine (errs_storage (coded_storage hunavailable)).bind fun _ => ?_
  refine (errs_storage (coded_storage hunavailable)).bind ?_
  rintro (_ | raw)
  · exact (errs_ignore _).bind fun _ => errs_raise (coded_notFound hnotFound id)
  dsimp only
  split
  · exact (errs_ignore _).bind fun _ => errs_raise hinternal
  split_ifs
  · exact (errs_ignore _).bind fun _ => errs_pure _
  split
  · exact (errs_ignore _).bind fun _ => errs_raise hinternal
  refine errs_outcome_bind (errs_storage (coded_storage hunavailable)) ?_ ?_
  · intro ttl
    refine (errs_commit hunavailable).bind fun won => ?_
    split_ifs <;> exact errs_pure _
  · exact fun fault h => (errs_ignore _).bind fun _ => errs_throw h

theorem errs_reconcileStaleResponse {stored : StoredResponse N} {staleSeconds : Int64}
    (hnotFound : .notFound ∈ codes) (hunavailable : .unavailable ∈ codes)
    (hinternal : .internal ∈ codes) :
    Errs (Coded codes) (reconcileStaleResponse cfg S id stored staleSeconds) := by
  have hatomic : ∀ now, Errs (Coded codes) (reconcileStaleAtomic cfg S id now staleSeconds) := by
    intro now
    rw [reconcileStaleAtomic]
    induction maxAttempts with
    | zero =>
      refine (errs_load hunavailable hinternal).bind ?_
      rintro (_ | reloaded)
      · exact errs_raise (coded_notFound hnotFound id)
      · exact errs_pure reloaded
    | succ left ih =>
      exact errs_round hunavailable
        (errs_reconcileStaleTransactionAttempt hnotFound hunavailable hinternal _) ih
  rw [reconcileStaleResponse]
  split_ifs
  · exact errs_pure stored
  refine (errs_ask _).bind fun now => ?_
  split_ifs
  · exact errs_pure stored
  · exact hatomic now

theorem errs_get {reconcileStale : Bool} (hnotFound : .notFound ∈ codes)
    (hunavailable : .unavailable ∈ codes) (hinternal : .internal ∈ codes) :
    Errs (Coded codes) (get cfg S id reconcileStale) := by
  refine (errs_load hunavailable hinternal).bind ?_
  rintro (_ | stored)
  · exact errs_raise (coded_notFound hnotFound id)
  dsimp only
  split_ifs
  · exact errs_raise (coded_notFound hnotFound id)
  · exact errs_reconcileStaleResponse hnotFound hunavailable hinternal
  · exact errs_pure stored

theorem errs_update {record : StoredResponse N} {ttl : Option UInt64}
    (hinvalid : .invalidArgument ∈ codes) (hnotFound : .notFound ∈ codes)
    (hunavailable : .unavailable ∈ codes) (hinternal : .internal ∈ codes) :
    Errs (Coded codes) (update cfg S id record ttl) := by
  refine (errs_load hunavailable hinternal).bind ?_
  rintro (_ | existing)
  · exact errs_raise (coded_notFound hnotFound id)
  dsimp only
  split_ifs
  · exact errs_raise (coded_notFound hnotFound id)
  · exact errs_store hinvalid hunavailable hinternal record ttl

end ResponseStore

/-! ### The queue -/

namespace BackgroundQueue

variable {cfg : StoreConfig} {S : Serde N} {codes : List Code}

theorem errs_acknowledge {group streamId : String} (hinvalid : .invalidArgument ∈ codes)
    (hunavailable : .unavailable ∈ codes) : Errs (Coded codes) (acknowledge group streamId) := by
  refine (errs_storage (coded_storage hunavailable)).bind fun acked => ?_
  split_ifs
  · exact errs_raise hinvalid
  · exact errs_pure ()

theorem errs_ensureConsumerGroup {group startId : String} (hunavailable : .unavailable ∈ codes) :
    Errs (Coded codes) (ensureConsumerGroup group startId) := by
  refine errs_outcome_bind (F := fun fault => ∃ err, fault = storageFault err)
    (errs_storage fun err => ⟨err, rfl⟩) (fun _ => errs_pure true) ?_
  rintro _ ⟨err, rfl⟩
  simp only [storageFault]
  split_ifs
  · exact errs_pure false
  · exact errs_raise hunavailable

/-- A load with retries does not run out of attempts without having met an error. -/
theorem errs_loadWithRetries {id : String} (hunavailable : .unavailable ∈ codes)
    (hinternal : .internal ∈ codes) : Errs (Coded codes) (loadWithRetries cfg S id) := by
  have hattempts : ∀ left, Errs (Coded codes) (loadAttempts cfg S id (left + 1)) := by
    intro left
    induction left with
    | zero =>
      refine errs_outcome_bind (ResponseStore.errs_load hunavailable hinternal)
        (fun record => errs_pure record) ?_
      rintro ((_ | _ | _ | _ | err | _) | message | _) h
      case error.storage => exact errs_raise h
      all_goals exact errs_throw h
    | succ left ih =>
      refine errs_outcome_bind (ResponseStore.errs_load hunavailable hinternal)
        (fun record => errs_pure record) ?_
      rintro ((_ | _ | _ | _ | err | _) | message | _) h
      case error.storage =>
        dsimp only
        rw [if_neg (Nat.succ_ne_zero left)]
        exact (errs_ask _).bind fun _ => ih
      all_goals exact errs_throw h
  exact hattempts 2

theorem errs_jobsFromStreamIds {group : String} {autoclaimed : Bool} {idleMs : Option ℕ}
    {entries : List Redis.EntryReply} {batch : ClaimBatchResult N}
    (hunavailable : .unavailable ∈ codes) (hinternal : .internal ∈ codes) :
    Errs (Coded codes) (jobsFromStreamIds cfg S group autoclaimed idleMs entries batch) := by
  induction entries generalizing batch with
  | nil => exact errs_pure batch
  | cons entry entries ih =>
    rw [jobsFromStreamIds]
    rcases entryField entry "response_id" with _ | id
    · exact ih
    refine errs_outcome_bind (errs_loadWithRetries hunavailable hinternal) ?_ ?_
    · rintro (_ | record)
      · exact (errs_outcome _).bind fun _ => ih
      · exact ih
    · rintro ((_ | _ | _ | _ | err | _) | message | _) h
      case error.storage => exact ih
      case error.serialization => exact (errs_outcome _).bind fun _ => ih
      all_goals exact errs_throw h

theorem errs_claimJobs {options : ClaimOptions} {cursor : String}
    (hunavailable : .unavailable ∈ codes) (hinternal : .internal ∈ codes) :
    Errs (Coded codes) (claimJobs cfg S options cursor) := by
  have hread : ∀ count block, Errs (Coded codes)
      (readGroup options.consumerGroup options.consumerName count block) := by
    intro count block
    rw [readGroup]
    split_ifs
    · exact (errs_storage (coded_storage hunavailable)).bind fun _ => errs_pure _
    · exact (errs_storage (coded_storage hunavailable)).bind fun _ =>
        (errs_storage (coded_storage hunavailable)).bind fun _ => errs_pure _
  have hidle : Errs (Coded codes) (claimIdle cfg S options cursor) := by
    rw [claimIdle]
    split_ifs
    · exact (errs_storage (coded_storage hunavailable)).bind fun reply =>
        (errs_jobsFromStreamIds hunavailable hinternal).bind fun batch => errs_pure _
    · exact errs_pure _
  refine hidle.bind ?_
  rintro ⟨result, cursor'⟩
  -- once something was claimed, an error is swallowed
  have hswallow : ∀ err, Coded codes (.error err) → Errs (Coded codes)
      (if result.hasClaimedEntries then pure result else raise err : Act (ClaimBatchResult N)) := by
    intro err h
    split_ifs
    · exact errs_pure result
    · exact errs_raise h
  have hnew : Errs (Coded codes) (claimNew cfg S options result) := by
    rw [claimNew]
    split
    swap
    · exact errs_pure result
    refine errs_outcome_bind (hread _ _) (fun ids => ?_) ?_
    · refine errs_outcome_bind (errs_jobsFromStreamIds hunavailable hinternal)
        (fun batch => errs_pure _) ?_
      rintro (err | message | _) h
      · exact hswallow err h
      · exact h.elim
      · exact h.elim
    · rintro (err | message | _) h
      · exact hswallow err h
      · exact h.elim
      · exact h.elim
  exact hnew.bind fun batch => errs_pure _

section Stats

/-- A count that may also run out of fuel. -/
def CodedOrFuel (codes : List Code) (fault : Fault) : Prop := fault = .outOfFuel ∨ Coded codes fault

theorem errs_countPages {pageSize : ℕ} {exclusive : Bool} {query : String → Act (List String)}
    {weigh : List String → UInt64} {fuel : ℕ} {start : String} {total : UInt64}
    (hquery : ∀ start, Errs (CodedOrFuel codes) (query start)) :
    Errs (CodedOrFuel codes) (countPages pageSize exclusive query weigh fuel start total) := by
  induction fuel generalizing start total with
  | zero => exact errs_throw (.inl rfl)
  | succ fuel ih =>
    rw [countPages]
    refine (hquery start).bind fun ids => ?_
    split
    · exact errs_pure total
    · dsimp only
      split_ifs
      · exact errs_pure _
      · exact ih

theorem errs_loadStreamGroups (hunavailable : .unavailable ∈ codes) :
    Errs (Coded codes) loadStreamGroups := by
  refine errs_outcome_bind (F := fun fault => ∃ err, fault = storageFault err)
    (errs_storage fun err => ⟨err, rfl⟩) (fun info => errs_pure info) ?_
  rintro _ ⟨err, rfl⟩
  simp only [storageFault]
  split_ifs
  · exact errs_pure []
  · exact errs_raise hunavailable

theorem errs_groupsForStats {group : String} (hunavailable : .unavailable ∈ codes) :
    Errs (Coded codes) (groupsForStats group) := by
  refine (errs_loadStreamGroups hunavailable).bind fun info => ?_
  split
  · exact (errs_ensureConsumerGroup hunavailable).bind fun _ => errs_loadStreamGroups hunavailable
  · exact errs_pure info

/-- The statistics fail because of the storage, or because the group is not there. -/
theorem errs_stats {fuel : ℕ} {group : String} (hnotFound : .notFound ∈ codes)
    (hunavailable : .unavailable ∈ codes) :
    Errs (CodedOrFuel codes) (stats cfg fuel group) := by
  have hstorage : ∀ {α : Type} {p : Program sig (Except Error α)},
      Errs (CodedOrFuel codes) (storage p) :=
    errs_storage fun err => .inr (coded_storage hunavailable err)
  refine hstorage.bind fun present => ?_
  split
  · exact errs_pure _
  refine ((errs_groupsForStats hunavailable).mono fun _ => .inr).bind fun info => ?_
  split
  · exact errs_raise (.inr (coded_notFound hnotFound _))
  refine hstorage.bind fun capabilities => ?_
  rw [statsFromGroup]
  have hcount : ∀ exclusive,
      Errs (CodedOrFuel codes) (countProcessableInProgress fuel group exclusive) := by
    intro exclusive
    refine (hstorage.bind fun ids => errs_pure _).bind fun minId => ?_
    exact errs_countPages fun start => hstorage
  split
  · exact (hcount _).bind fun inProgress => errs_pure _
  · refine (errs_countPages fun start => hstorage.bind fun ids => errs_pure _).bind
      fun pending => ?_
    exact (hcount _).bind fun inProgress => errs_pure _

end Stats

end BackgroundQueue

/-! ### Requests -/

/-- The codes of a request that needs no record to be there. -/
def writeCodes : List Code := [.invalidArgument, .unavailable, .internal]

/-- The codes of a request that needs a record. -/
def readCodes : List Code := [.invalidArgument, .notFound, .unavailable, .internal]

/-- The codes of a guarded transition: all there are. -/
def transitionCodes : List Code :=
  [.invalidArgument, .notFound, .failedPrecondition, .unavailable, .internal]

/-- The codes of a request about the stream alone. -/
def streamCodes : List Code := [.invalidArgument, .unavailable]

/-- The codes of the statistics. -/
def statsCodes : List Code := [.invalidArgument, .notFound, .unavailable]

/-- The codes of the statuses a request can be answered with. -/
def Request.codes : Request → List Code
  | .storeResponse .. | .deleteResponse _ | .enqueueBackgroundJob _ | .claimBackgroundJobs _ =>
    writeCodes
  | .getResponse .. | .updateResponse .. | .reconcileStaleResponse .. => readCodes
  | .acknowledgeBackgroundJob .. | .ensureConsumerGroup .. => streamCodes
  | .getBackgroundQueueStats _ => statsCodes
  | .claimBackgroundResponse _ | .completeBackgroundResponse .. | .failBackgroundResponse .. =>
    transitionCodes
  | .health => []

section Requests

variable {cfg : StoreConfig} {S : Serde N} {codes : List Code} {id : String}

theorem invalid_of_requireRecord {record : Option ProtoStoredResponse} {status : Status}
    (h : requireRecord record = .error status) : status.code = .invalidArgument := by
  rw [requireRecord] at h
  split at h
  · cases h
  · obtain rfl := Except.error.inj h
    rfl

theorem invalid_of_readJson {what text : String} {status : Status}
    (h : readJson S what id text = .error status) : status.code = .invalidArgument := by
  rw [readJson] at h
  rcases htext : S.valueFromStr text with e | v
  · rw [htext] at h
    obtain rfl := Except.error.inj h
    rfl
  · rw [htext] at h
    cases h

theorem invalid_of_mapM {what : String} {texts : List String} {status : Status}
    (h : texts.mapM (readJson S what id) = .error status) : status.code = .invalidArgument := by
  induction texts with
  | nil => cases h
  | cons text texts ih =>
    rw [List.mapM_cons] at h
    rcases bind_eq_error h with h | ⟨v, -, h⟩
    · exact invalid_of_readJson h
    · rcases bind_eq_error h with h | ⟨vs, -, h⟩
      · exact ih h
      · cases h

/-- A record with a text that is no JSON is the client's error. -/
theorem invalid_of_protoToCore {p : ProtoStoredResponse} {status : Status}
    (h : protoToCore S p = .error status) : status.code = .invalidArgument := by
  rw [protoToCore] at h
  rcases bind_eq_error h with h | ⟨response, -, h⟩
  · exact invalid_of_readJson h
  rcases bind_eq_error h with h | ⟨input, -, h⟩
  · exact invalid_of_mapM h
  rcases bind_eq_error h with h | ⟨pending, -, h⟩
  · rcases hjson : p.pendingUpstreamRequestJson.filter fun value => !value.isEmpty with _ | text
    · rw [hjson] at h
      cases h
    · rw [hjson, Option.mapM_some] at h
      rcases hv : readJson S "pending_upstream_request_json" p.responseId text with e | v
      · rw [hv] at h
        obtain rfl := Except.error.inj h
        exact invalid_of_readJson hv
      · rw [hv] at h
        cases h
  · cases h

theorem internal_of_mapM_coreJobToProto {jobs : List (BackgroundJob N)} {status : Status}
    (h : jobs.mapM (coreJobToProto S) = .error status) : status.code = .internal := by
  induction jobs with
  | nil => cases h
  | cons job jobs ih =>
    rw [List.mapM_cons] at h
    rcases bind_eq_error h with h | ⟨p, -, h⟩
    · rw [coreJobToProto] at h
      rcases bind_eq_error h with h | ⟨record, -, h⟩
      · exact internal_of_coreToProto h
      · cases h
    · rcases bind_eq_error h with h | ⟨ps, -, h⟩
      · exact ih h
      · cases h

/-- An argument that is refused. -/
theorem errs_invalid {x : Except Status α} (hcode : .invalidArgument ∈ codes)
    (h : ∀ {status}, x = .error status → status.code = .invalidArgument) :
    Errs (Answers codes) (ofStatus x) :=
  errs_ofStatus fun _ hstatus => by
    rw [Answers, h hstatus]
    exact hcode

/-- A stored value that cannot be printed. -/
theorem errs_internal {x : Except Status α} (hcode : .internal ∈ codes)
    (h : ∀ {status}, x = .error status → status.code = .internal) :
    Errs (Answers codes) (ofStatus x) :=
  errs_ofStatus fun _ hstatus => by
    rw [Answers, h hstatus]
    exact hcode

theorem errs_store_rpc {p : Act α} (hp : Errs (Coded codes) p) :
    Errs (Answers codes) (rpc p) := errs_rpc hp fun _ => Coded.answers

/-- The errors with which a transition is refused: the job is not in the right state, or what the
caller gave does not fit. -/
def IsRefusal : StoreError → Prop
  | .failedPrecondition _ | .invalidArgument _ => True
  | _ => False

/-- An assignment that fails panics. -/
theorem assign_ne_error {v x : Value N} {key : String} {err : StoreError} :
    assign v key x ≠ .error (.error err) := by
  rw [assign]
  cases v.set key x <;> rintro ⟨⟩

theorem isRefusal_of_prepareClaim {stored : StoredResponse N} {err : StoreError}
    (h : prepareClaimBackground stored id = .error (.error err)) : IsRefusal err := by
  rw [prepareClaimBackground] at h
  split_ifs at h
  · cases h
    trivial
  · cases h
    trivial
  · cases h
    trivial
  split at h
  · cases h
  rcases bind_eq_error h with h | ⟨r₁, -, h⟩
  · exact (assign_ne_error h).elim
  rcases bind_eq_error h with h | ⟨r₂, -, h⟩
  · exact (assign_ne_error h).elim
  rcases bind_eq_error h with h | ⟨r₃, -, h⟩
  · exact (assign_ne_error h).elim
  · cases h

theorem isRefusal_of_prepareComplete {completed : Value N} {stored : StoredResponse N}
    {err : StoreError} (h : prepareCompleteBackground completed stored id = .error (.error err)) :
    IsRefusal err := by
  rw [prepareCompleteBackground] at h
  split_ifs at h
  · cases h
    trivial
  · cases h
    trivial
  · cases h
    trivial
  rcases bind_eq_error h with h | ⟨r₁, -, h⟩
  · exact (assign_ne_error h).elim
  rcases bind_eq_error h with h | ⟨r₂, -, h⟩
  · exact (assign_ne_error h).elim
  rcases bind_eq_error h with h | ⟨r₃, -, h⟩
  · exact (assign_ne_error h).elim
  · cases h

theorem isRefusal_of_prepareFail {message : String} {stored : StoredResponse N} {err : StoreError}
    (h : prepareFailBackground message stored id = .error (.error err)) : IsRefusal err := by
  rw [prepareFailBackground] at h
  split_ifs at h
  · cases h
    trivial
  · cases h
    trivial

/-- Any error of the store has one of the codes of a transition. -/
theorem coded_of_error (err : StoreError) : Coded transitionCodes (.error err) := by
  rw [Coded]
  cases (storeErrorToStatus err).code <;> decide

/-- A preparation that does not panic has only errors of the store. -/
theorem Safely.coded {x : Except Fault (StoredResponse N × α)} (h : Safely x) {fault : Fault}
    (hfault : x = .error fault) : Coded transitionCodes fault := by
  rcases h with ⟨err, herr⟩ | ⟨updated, a, hok, -⟩
  · obtain rfl := Except.error.inj (herr.symm.trans hfault)
    exact coded_of_error err
  · rw [hok] at hfault
    cases hfault

theorem errs_deleteOrTombstone :
    Errs (Coded writeCodes) (deleteOrTombstone cfg S id) := by
  have hget : Errs (Coded readCodes) (ResponseStore.get cfg S id false) :=
    ResponseStore.errs_get (by decide) (by decide) (by decide)
  refine errs_outcome_bind hget ?_ ?_
  · intro stored
    dsimp only
    split_ifs
    · exact ResponseStore.errs_store (by decide) (by decide) (by decide) _ _
    · exact errs_storage (coded_storage (by decide))
  · rintro (err | message | _) h
    · exact errs_storage (coded_storage (by decide))
    · exact h.elim
    · exact h.elim

/-- A handler that first refuses an argument. -/
theorem errs_refused {b : Bool} {message : String} {p : Rpc α}
    (hcode : .invalidArgument ∈ codes) (hp : Errs (Answers codes) p) :
    Errs (Answers codes) (if b then reject .invalidArgument message else p) := by
  split_ifs
  · exact errs_reject hcode
  · exact hp

theorem errs_writeRequest {record : Option ProtoStoredResponse}
    {p : ProtoStoredResponse → StoredResponse N → Rpc α} (hcode : .invalidArgument ∈ codes)
    (hp : ∀ record core, Errs (Answers codes) (p record core)) :
    Errs (Answers codes) (ofStatus (requireRecord record) >>= fun record =>
      ofStatus (protoToCore S record) >>= fun core => p record core) :=
  (errs_invalid hcode invalid_of_requireRecord).bind fun record =>
    (errs_invalid hcode invalid_of_protoToCore).bind fun core => hp record core

theorem errs_claimBackgroundJobs (request : ClaimBackgroundJobsRequest) :
    Errs (Answers writeCodes) (claimBackgroundJobs cfg S request) := by
  refine errs_refused (by decide) ?_
  refine (errs_store_rpc ((errs_storage (coded_storage (by decide))).bind fun cursor =>
    errs_pure _)).bind fun cursor => ?_
  refine (errs_store_rpc (BackgroundQueue.errs_claimJobs (by decide) (by decide))).bind ?_
  rintro ⟨batch, cursor'⟩
  refine (errs_store_rpc (errs_outcome _)).bind fun _ => ?_
  exact (errs_internal (by decide) internal_of_mapM_coreJobToProto).bind fun jobs => errs_pure _

theorem errs_claimBackgroundResponse (id : String) :
    Errs (Answers transitionCodes) (claimBackgroundResponse cfg S id) := by
  refine errs_refused (by decide) ?_
  refine (errs_store_rpc (ResponseStore.errs_transitionAtomic (by decide) (by decide) (by decide)
    fun stored fault => (safely_prepareClaimBackground stored id).coded)).bind ?_
  rintro ⟨record, payload⟩
  exact (errs_internal (by decide) internal_of_printJson).bind fun json =>
    (errs_internal (by decide) internal_of_coreToProto).bind fun record => errs_pure _

theorem errs_completeBackgroundResponse (id json : String) :
    Errs (Answers transitionCodes) (completeBackgroundResponse cfg S id json) := by
  refine errs_refused (by decide) (errs_refused (by decide) ?_)
  refine (errs_invalid (by decide) invalid_of_readJson).bind fun completed => ?_
  refine errs_refused (by decide) ?_
  refine (errs_store_rpc ((ResponseStore.errs_transitionAtomic (by decide) (by decide) (by decide)
    fun stored fault => (safely_prepareCompleteBackground completed stored id).coded).map
    Prod.fst)).bind fun record => ?_
  exact (errs_internal (by decide) internal_of_coreToProto).bind fun record => errs_pure _

theorem errs_failBackgroundResponse (id message : String) :
    Errs (Answers transitionCodes) (failBackgroundResponse cfg S id message) := by
  refine errs_refused (by decide) (errs_refused (by decide) ?_)
  refine (errs_store_rpc ((ResponseStore.errs_transitionAtomic (by decide) (by decide) (by decide)
    fun stored fault => (safely_prepareFailBackground message stored id).coded).map
    Prod.fst)).bind fun record => ?_
  exact (errs_internal (by decide) internal_of_coreToProto).bind fun record => errs_pure _

theorem errs_health : Errs (Answers []) (health : Rpc Response) := by
  refine (errs_store_rpc (errs_outcome _)).bind ?_
  rintro (fault | _)
  · exact errs_pure _
  refine (errs_store_rpc (errs_outcome _)).bind ?_
  rintro (fault | info)
  · exact errs_pure _
  · exact errs_pure _

theorem errs_getBackgroundQueueStats (fuel : ℕ) (group : String) :
    Errs (fun fault => fault = .outOfFuel ∨ Answers statsCodes fault)
      (getBackgroundQueueStats cfg fuel group) := by
  rw [getBackgroundQueueStats]
  split_ifs
  · exact (errs_reject (by decide)).mono fun _ => .inr
  have hstats : Errs (BackgroundQueue.CodedOrFuel statsCodes)
      (BackgroundQueue.stats cfg fuel group) :=
    BackgroundQueue.errs_stats (by decide) (by decide)
  refine (errs_rpc hstats ?_).bind fun stats => errs_pure _
  rintro fault (rfl | hcoded)
  · exact .inl rfl
  · exact .inr hcoded.answers

variable [DecidableEq N]

/-- The errors of a request: a status with one of its codes, or statistics that ran out of
fuel. -/
def Contract (request : Request) (fault : RpcFault) : Prop :=
  (fault = .outOfFuel ∧ ∃ group, request = .getBackgroundQueueStats group) ∨
    Answers request.codes fault

theorem errs_handle (fuel : ℕ) (request : Request) :
    Errs (Contract request) (handle cfg S fuel request) := by
  have hcoded : ∀ codes, codes = request.codes → ∀ {p : Rpc Response},
      Errs (Answers codes) p → Errs (Contract request) p := by
    rintro _ rfl p h
    exact h.mono fun _ => .inr
  cases request with
  | storeResponse record ttl =>
    refine hcoded writeCodes rfl (errs_writeRequest (by decide) fun record core => ?_)
    exact (errs_store_rpc (ResponseStore.errs_store (by decide) (by decide) (by decide) _ _)).bind
      fun _ => errs_pure _
  | getResponse id reconcileStale =>
    refine hcoded readCodes rfl (errs_refused (by decide) ?_)
    exact (errs_store_rpc (ResponseStore.errs_get (by decide) (by decide) (by decide))).bind
      fun record => (errs_internal (by decide) internal_of_coreToProto).bind fun _ => errs_pure _
  | updateResponse record ttl =>
    refine hcoded readCodes rfl (errs_writeRequest (by decide) fun record core => ?_)
    exact (errs_store_rpc (ResponseStore.errs_update (by decide) (by decide) (by decide)
      (by decide))).bind fun _ => errs_pure _
  | deleteResponse id =>
    refine hcoded writeCodes rfl (errs_refused (by decide) ?_)
    exact (errs_store_rpc errs_deleteOrTombstone).bind fun _ => errs_pure _
  | enqueueBackgroundJob record =>
    refine hcoded writeCodes rfl (errs_writeRequest (by decide) fun record core => ?_)
    refine (errs_store_rpc (errs_ask _)).bind fun now => ?_
    refine (errs_store_rpc (ResponseStore.errs_store (by decide) (by decide) (by decide) _
      _)).bind fun _ => ?_
    exact (errs_store_rpc (errs_storage (coded_storage (by decide)))).bind fun _ => errs_pure _
  | claimBackgroundJobs request => exact hcoded writeCodes rfl (errs_claimBackgroundJobs request)
  | acknowledgeBackgroundJob streamId group =>
    refine hcoded streamCodes rfl (errs_refused (by decide) ?_)
    exact (errs_store_rpc (BackgroundQueue.errs_acknowledge (by decide) (by decide))).bind
      fun _ => errs_pure _
  | ensureConsumerGroup group startId =>
    refine hcoded streamCodes rfl (errs_refused (by decide) ?_)
    exact (errs_store_rpc (BackgroundQueue.errs_ensureConsumerGroup (by decide))).bind
      fun _ => errs_pure _
  | getBackgroundQueueStats group =>
    refine (errs_getBackgroundQueueStats fuel group).mono fun fault h => ?_
    exact h.imp_left fun hfuel => ⟨hfuel, group, rfl⟩
  | claimBackgroundResponse id => exact hcoded transitionCodes rfl (errs_claimBackgroundResponse id)
  | completeBackgroundResponse id json =>
    exact hcoded transitionCodes rfl (errs_completeBackgroundResponse id json)
  | failBackgroundResponse id message =>
    exact hcoded transitionCodes rfl (errs_failBackgroundResponse id message)
  | reconcileStaleResponse id staleSeconds =>
    refine hcoded readCodes rfl (errs_refused (by decide) ?_)
    refine (errs_store_rpc (ResponseStore.errs_get (by decide) (by decide) (by decide))).bind
      fun existing => ?_
    refine (errs_store_rpc (ResponseStore.errs_reconcileStaleResponse (by decide) (by decide)
      (by decide))).bind fun updated => ?_
    exact (errs_internal (by decide) internal_of_coreToProto).bind fun _ => errs_pure _
  | health => exact hcoded [] rfl errs_health

end Requests

end ResponsesApiStore
