import ResponsesApiStore.Server.Service

/-!
# Walking through the programs

A protocol that restricts only a few commands is followed by most procedures for the simple
reason that they do not send them. `Permits` says what such a protocol has to leave free: every
command but the writes of records and those about the autoclaim cursor; a write on the shared
connection with a time to live that is not zero; and the write of a transaction whose time to
live comes from the `TTL` before it. All of them are about the keys of records. Then every
procedure of the store and every request but `claimBackgroundJobs`, which is the one to use the
cursor, is `Safe` (`Permits.safe_serve`).
-/

namespace ResponsesApiStore

open Json (Value Serde)
open Redis (EntryReply)
open Interaction (Program Protocol)
open Interaction.Program

variable {N : Type}

/-- The key of a response. -/
def IsRecordKey (cfg : StoreConfig) (key : String) : Prop := ∃ id, key = ResponseStore.key cfg id

theorem isRecordKey (cfg : StoreConfig) (id : String) :
    IsRecordKey cfg (ResponseStore.key cfg id) := ⟨id, rfl⟩

/-- The commands that write no record and are not about the autoclaim cursor. -/
def Cmd.Plain (cfg : StoreConfig) : Cmd → Prop
  | .get key | .del key | .tx (.watch key) | .tx (.get key) | .tx (.ttl key) => IsRecordKey cfg key
  | .setEx .. | .tx (.setEx ..) | .getCursor _ | .cursorScript .. | .stream (.xautoclaim ..) =>
    False
  | _ => True

/-- What a protocol leaves free. -/
structure Permits (cfg : StoreConfig) {G : Type} (P : Protocol sig G) : Prop where
  plain : ∀ {c : Cmd}, c.Plain cfg → ∀ g, P.allowed g c
  setEx : ∀ {key : String} {ttl : UInt64} {text : String}, IsRecordKey cfg key → ttl ≠ 0 →
    ∀ g, P.allowed g (.setEx key ttl text)
  commit : ∀ (g : G) {key : String} (reported : ℤ) (payload : String), IsRecordKey cfg key →
    (ResponseStore.commit key (reconcileWriteTtl reported cfg.ttlSeconds) payload).run.Follows P
      (fun _ _ => True) (P.next g (.tx (.ttl key)) (.ok reported))

namespace Permits

variable {cfg : StoreConfig} {S : Serde N} {G α : Type} {P : Protocol sig G}

/-! ### Plain commands -/

theorem safe_send (h : Permits cfg P) {c : Cmd} (hc : c.Plain cfg) : Safe P (send c) :=
  safe_call (h.plain hc)

theorem safe_ask (h : Permits cfg P) {c : Cmd} (hc : c.Plain cfg) : Safe P (ask c).run :=
  ResponsesApiStore.safe_ask (h.plain hc)

/-- Give up the transaction and go on with a procedure that is safe. -/
theorem safe_unwatch (h : Permits cfg P) {p : Act α} (hp : Safe P p.run) :
    Safe P (ignore (send (.tx .unwatch)) >>= fun _ => p).run :=
  Safe.except_bind (safe_ignore (h.safe_send trivial)) fun _ => hp

/-! ### The store -/

theorem safe_store (h : Permits cfg P) (id : String) (record : StoredResponse N)
    (ttl : Option UInt64) : Safe P (ResponseStore.store cfg S id record ttl).run := by
  rw [ResponseStore.store]
  split_ifs with hzero
  · exact safe_ret _
  · exact Safe.except_bind (safe_ret _)
      fun payload => safe_storage (safe_call (h.setEx (isRecordKey cfg id) hzero))

theorem safe_load (h : Permits cfg P) (id : String) :
    Safe P (ResponseStore.load cfg S id).run := by
  refine Safe.except_bind (safe_storage (h.safe_send (isRecordKey cfg id))) fun text => ?_
  rcases text with _ | text
  · exact safe_ret _
  · exact Safe.except_bind (safe_ret _) fun _ => safe_ret _

theorem safe_update (h : Permits cfg P) (id : String) (record : StoredResponse N)
    (ttl : Option UInt64) : Safe P (ResponseStore.update cfg S id record ttl).run := by
  refine Safe.except_bind (h.safe_load id) fun existing => ?_
  rcases existing with _ | existing
  · exact safe_ret _
  · dsimp only
    split_ifs
    · exact safe_ret _
    · exact h.safe_store id record ttl

/-- A transition that is rejected gives up its watch, if it is told why. -/
theorem safe_rejected (h : Permits cfg P) (key : String) (fault : Fault) (g : G) :
    (match (.error fault : Except Fault (StoredResponse N × String × UInt64 × α)) with
      | .error (.error err) => ignore (send (.tx .unwatch)) >>= fun _ => raise err
      | .error fault => throw fault
      | .ok (updated, payload, ttl, result) => do
        if ← ResponseStore.commit key ttl payload then return some (updated, result)
        else return none : Act (Option (StoredResponse N × α))).run.Follows P
      (fun _ _ => True) g := by
  rcases fault with err | _ | _
  · exact h.safe_unwatch (safe_ret _) g
  · trivial
  · trivial

theorem safe_transitionAttempt (h : Permits cfg P) {key : String} (hkey : IsRecordKey cfg key)
    (id : String) (prepare : StoredResponse N → String → Except Fault (StoredResponse N × α)) :
    Safe P (ResponseStore.transitionAttempt cfg S key id prepare).run := by
  refine Safe.except_bind (safe_storage (h.safe_send hkey)) fun _ => ?_
  refine Safe.except_bind (safe_storage (h.safe_send hkey)) fun raw => ?_
  rcases raw with _ | raw
  · exact h.safe_unwatch (safe_ret _)
  intro g
  simp only [follows_except_bind_iff, follows_outcome, ResponseStore.transitionValues,
    follows_ofExcept, follows_storage, follows_return, send, call, follows_cmd, follows_ret]
  rcases ResponseStore.decode S raw with fault | stored
  · exact h.safe_rejected key fault g
  dsimp only
  rcases prepare stored id with fault | ⟨updated, result⟩
  · exact h.safe_rejected key fault g
  dsimp only
  rcases ResponseStore.encode S updated with fault | payload
  · exact h.safe_rejected key fault g
  refine ⟨h.plain (c := .tx (.ttl key)) hkey g, fun ttl => ?_⟩
  rcases ttl with e | ttl
  · exact h.safe_unwatch (safe_ret _) _
  · simp only [Except.mapError]
    refine (h.commit g ttl payload hkey).mono ?_
    rintro g (fault | _) -
    · trivial
    · dsimp only
      split_ifs <;> trivial

theorem safe_reconcileStaleTransactionAttempt (h : Permits cfg P) {key : String}
    (hkey : IsRecordKey cfg key) (id : String) (now staleSeconds : Int64) :
    Safe P
      (ResponseStore.reconcileStaleTransactionAttempt cfg S key id now staleSeconds).run := by
  refine Safe.except_bind (safe_storage (h.safe_send hkey)) fun _ => ?_
  refine Safe.except_bind (safe_storage (h.safe_send hkey)) fun raw => ?_
  rcases raw with _ | raw
  · exact h.safe_unwatch (safe_ret _)
  dsimp only
  rcases StoredResponse.ofText S raw with e | stored
  · exact h.safe_unwatch (safe_ret _)
  dsimp only
  split_ifs
  · exact h.safe_unwatch (safe_ret _)
  rcases (applyStaleFailure stored id).toText S with e | payload
  · exact h.safe_unwatch (safe_ret _)
  intro g
  simp only [follows_except_bind_iff, follows_outcome, follows_storage, send, call, follows_cmd,
    follows_ret]
  refine ⟨h.plain (c := .tx (.ttl key)) hkey g, fun ttl => ?_⟩
  rcases ttl with e | ttl
  · exact h.safe_unwatch (p := throw (storageFault e)) (safe_ret _) _
  · simp only [Except.mapError, follows_except_bind_iff]
    refine (h.commit g ttl payload hkey).mono ?_
    rintro g (fault | _) -
    · trivial
    · dsimp only
      split_ifs <;> trivial

/-- A retry loop adds nothing to what its attempts send. -/
theorem safe_round (h : Permits cfg P) {attempt : Act (Option α)} {left : ℕ} {next : Act α}
    (hattempt : Safe P attempt.run) (hnext : Safe P next.run) :
    Safe P (ResponseStore.round attempt left next).run := by
  have hlocked : Safe P (ResponseStore.locked attempt).run := by
    refine Safe.except_bind (h.safe_ask trivial) fun _ => ?_
    refine Safe.except_bind (safe_ignore (h.safe_send trivial)) fun _ => ?_
    refine Safe.except_bind (safe_outcome hattempt) fun _ => ?_
    exact Safe.except_bind (h.safe_ask trivial) fun _ => safe_ret _
  have hreset : Safe P ResponseStore.resetTransactionConnection.run := by
    refine Safe.except_bind (safe_storage (h.safe_send trivial)) fun _ => ?_
    refine Safe.except_bind (h.safe_ask trivial) fun _ => ?_
    exact Safe.except_bind (h.safe_ask trivial) fun _ => h.safe_ask trivial
  refine Safe.except_bind hlocked fun result => ?_
  rcases result with fault | (_ | a)
  · rcases fault with (_ | _ | _ | _ | err | _) | _ | _
    case error.storage =>
      refine Safe.except_bind hreset fun _ => ?_
      split_ifs
      · exact safe_ret _
      · exact hnext
    all_goals exact safe_ret _
  · exact hnext
  · exact safe_ret _

theorem safe_transitionAtomic (h : Permits cfg P) (id : String)
    (prepare : StoredResponse N → String → Except Fault (StoredResponse N × α)) :
    Safe P (ResponseStore.transitionAtomic cfg S id prepare).run := by
  rw [ResponseStore.transitionAtomic]
  induction ResponseStore.maxAttempts with
  | zero => exact safe_ret _
  | succ left ih => exact h.safe_round (h.safe_transitionAttempt (isRecordKey cfg id) id prepare) ih

theorem safe_reconcileStaleResponse (h : Permits cfg P) (id : String) (stored : StoredResponse N)
    (staleSeconds : Int64) :
    Safe P (ResponseStore.reconcileStaleResponse cfg S id stored staleSeconds).run := by
  rw [ResponseStore.reconcileStaleResponse]
  split_ifs
  · exact safe_ret _
  refine Safe.except_bind (h.safe_ask trivial) fun now => ?_
  split_ifs
  · exact safe_ret _
  rw [ResponseStore.reconcileStaleAtomic]
  induction ResponseStore.maxAttempts with
  | zero =>
    refine Safe.except_bind (h.safe_load id) fun record => ?_
    rcases record with _ | record <;> exact safe_ret _
  | succ left ih =>
    exact h.safe_round
      (h.safe_reconcileStaleTransactionAttempt (isRecordKey cfg id) id now staleSeconds) ih

theorem safe_get (h : Permits cfg P) (id : String) (reconcileStale : Bool) :
    Safe P (ResponseStore.get cfg S id reconcileStale).run := by
  refine Safe.except_bind (h.safe_load id) fun record => ?_
  rcases record with _ | record
  · exact safe_ret _
  dsimp only
  split_ifs
  · exact safe_ret _
  · exact h.safe_reconcileStaleResponse id record cfg.staleSeconds
  · exact safe_ret _

theorem safe_deleteOrTombstone (h : Permits cfg P) (id : String) :
    Safe P (deleteOrTombstone cfg S id).run := by
  refine Safe.except_bind (safe_outcome (h.safe_get id false)) fun result => ?_
  have hdelete : Safe P (ResponseStore.delete cfg id).run :=
    safe_storage (h.safe_send (isRecordKey cfg id))
  rcases result with (err | _ | _) | stored
  · exact hdelete
  · exact safe_ret _
  · exact safe_ret _
  · dsimp only
    split_ifs
    · exact h.safe_store id _ none
    · exact hdelete

/-! ### The queue -/

theorem safe_acknowledge (h : Permits cfg P) (group streamId : String) :
    Safe P (BackgroundQueue.acknowledge group streamId).run := by
  refine Safe.except_bind (safe_storage (h.safe_send trivial)) fun acked => ?_
  split_ifs <;> exact safe_ret _

theorem safe_ensureConsumerGroup (h : Permits cfg P) (group startId : String) :
    Safe P (BackgroundQueue.ensureConsumerGroup group startId).run := by
  refine Safe.except_bind (safe_outcome (safe_storage (h.safe_send trivial))) fun result => ?_
  rcases result with ((_ | _ | _ | _ | err | _) | _ | _) | _
  case error.error.storage =>
    dsimp only
    split_ifs <;> exact safe_ret _
  all_goals exact safe_ret _

theorem safe_loadWithRetries (h : Permits cfg P) (id : String) :
    Safe P (BackgroundQueue.loadWithRetries cfg S id).run := by
  rw [BackgroundQueue.loadWithRetries]
  induction BackgroundQueue.loadRetryAttempts with
  | zero => exact safe_ret _
  | succ left ih =>
    refine Safe.except_bind (safe_outcome (h.safe_load id)) fun result => ?_
    rcases result with ((_ | _ | _ | _ | err | _) | _ | _) | record
    case error.error.storage =>
      dsimp only
      split_ifs
      · exact safe_ret _
      · exact Safe.except_bind (h.safe_ask trivial) fun _ => ih
    all_goals exact safe_ret _

theorem safe_jobsFromStreamIds (h : Permits cfg P) (group : String) (autoclaimed : Bool)
    (idleMs : Option ℕ) (entries : List EntryReply) (batch : ClaimBatchResult N) :
    Safe P (BackgroundQueue.jobsFromStreamIds cfg S group autoclaimed idleMs entries
      batch).run := by
  induction entries generalizing batch with
  | nil => exact safe_ret _
  | cons entry entries ih =>
    rw [BackgroundQueue.jobsFromStreamIds]
    rcases BackgroundQueue.entryField entry "response_id" with _ | id
    · exact ih batch
    have hdrop : Safe P (outcome (BackgroundQueue.acknowledge group entry.id) >>= fun _ =>
        BackgroundQueue.jobsFromStreamIds cfg S group autoclaimed idleMs entries batch).run :=
      Safe.except_bind (safe_outcome (h.safe_acknowledge group entry.id)) fun _ => ih batch
    refine Safe.except_bind (safe_outcome (h.safe_loadWithRetries id)) fun result => ?_
    rcases result with ((_ | _ | _ | _ | err | _) | _ | _) | (_ | record)
    case error.error.storage => exact ih _
    case error.error.serialization => exact hdrop
    case ok.none => exact hdrop
    case ok.some => exact ih _
    all_goals exact safe_ret _

theorem safe_readGroup (h : Permits cfg P) (group name : String) (count blockMs : ℕ) :
    Safe P (BackgroundQueue.readGroup group name count blockMs).run := by
  rw [BackgroundQueue.readGroup]
  split_ifs
  · exact Safe.except_bind (safe_storage (h.safe_send trivial)) fun _ => safe_ret _
  · refine Safe.except_bind (safe_storage (h.safe_send trivial)) fun _ => ?_
    exact Safe.except_bind (safe_storage (h.safe_send trivial)) fun _ => safe_ret _

theorem safe_claimNew (h : Permits cfg P) (options : ClaimOptions) (result : ClaimBatchResult N) :
    Safe P (BackgroundQueue.claimNew cfg S options result).run := by
  rw [BackgroundQueue.claimNew]
  split
  · refine Safe.except_bind (safe_outcome (h.safe_readGroup _ _ _ _)) fun ids => ?_
    rcases ids with (err | _ | _) | ids
    · dsimp only
      split_ifs <;> exact safe_ret _
    · exact safe_ret _
    · exact safe_ret _
    refine Safe.except_bind (safe_outcome (h.safe_jobsFromStreamIds _ _ _ ids _)) fun batch => ?_
    rcases batch with (err | _ | _) | batch
    · dsimp only
      split_ifs <;> exact safe_ret _
    all_goals exact safe_ret _
  · exact safe_ret _

theorem safe_countPages {pageSize : ℕ} {exclusive : Bool} {query : String → Act (List String)}
    {weigh : List String → UInt64} (hquery : ∀ start, Safe P (query start).run) (fuel : ℕ)
    (start : String) (total : UInt64) :
    Safe P (BackgroundQueue.countPages pageSize exclusive query weigh fuel start total).run := by
  induction fuel generalizing start total with
  | zero => exact safe_ret _
  | succ fuel ih =>
    refine Safe.except_bind (hquery start) fun ids => ?_
    dsimp only
    split
    · exact safe_ret _
    · split_ifs
      · exact safe_ret _
      · exact ih _ _

/-- The commands that count entries: what they need is a protocol that leaves these two free. -/
theorem safe_statsFromGroup
    (hxrange : ∀ start stop count g, P.allowed g (.stream (.xrange start stop count)))
    (hxpending : ∀ group start stop count g,
      P.allowed g (.stream (.xpending group start stop count)))
    (fuel : ℕ) (name : String) (group : Redis.GroupInfo) (exclusive : Bool) :
    Safe P (BackgroundQueue.statsFromGroup fuel name group exclusive).run := by
  have hrange : ∀ start count, Safe P (storage (send (.stream (.xrange start "+" count))) >>=
      fun ids => pure (ids.map EntryReply.id) : Act _).run := fun start count =>
    Safe.except_bind (safe_storage (safe_call (hxrange _ _ _))) fun _ => safe_ret _
  have hcount : Safe P
      (BackgroundQueue.countProcessableInProgress fuel name exclusive).run := by
    refine Safe.except_bind ?_ fun minId => ?_
    · exact Safe.except_bind (safe_storage (safe_call (hxrange _ _ _))) fun _ => safe_ret _
    · refine safe_countPages (fun start => ?_) fuel _ _
      exact safe_storage (safe_call (hxpending _ _ _ _))
  rw [BackgroundQueue.statsFromGroup]
  split
  · exact Safe.except_bind (safe_ret _) fun _ => Safe.except_bind hcount fun _ => safe_ret _
  · refine Safe.except_bind (safe_countPages (fun start => hrange start 1000) fuel _ _)
      fun pending => ?_
    exact Safe.except_bind hcount fun _ => safe_ret _

theorem safe_stats (h : Permits cfg P) (fuel : ℕ) (group : String) :
    Safe P (BackgroundQueue.stats cfg fuel group).run := by
  have hload : Safe P BackgroundQueue.loadStreamGroups.run := by
    refine Safe.except_bind (safe_outcome (safe_storage (h.safe_send trivial))) fun result => ?_
    rcases result with ((_ | _ | _ | _ | err | _) | _ | _) | _
    case error.error.storage =>
      dsimp only
      split_ifs <;> exact safe_ret _
    all_goals exact safe_ret _
  have hgroups : Safe P (BackgroundQueue.groupsForStats group).run := by
    refine Safe.except_bind hload fun info => ?_
    split_ifs
    · exact Safe.except_bind (h.safe_ensureConsumerGroup group "0-0") fun _ => hload
    · exact safe_ret _
  refine Safe.except_bind (safe_storage (h.safe_send trivial)) fun present => ?_
  split_ifs
  · exact safe_ret _
  refine Safe.except_bind hgroups fun info => ?_
  split
  · exact safe_ret _
  · exact Safe.except_bind (safe_storage (h.safe_send trivial)) fun capabilities =>
      safe_statsFromGroup (fun _ _ _ => h.plain trivial) (fun _ _ _ _ => h.plain trivial) fuel
        group _ _

/-! ### The requests -/

variable [DecidableEq N]

/-- **Every request but one is safe.** -/
theorem safe_serve (h : Permits cfg P) (fuel : ℕ) {request : Request}
    (hclaim : ∀ claim, request ≠ .claimBackgroundJobs claim) :
    Safe P (serve cfg S fuel request) := by
  cases request with
  | storeResponse record ttl =>
    refine Safe.except_bind (safe_ret _) fun record => Safe.except_bind (safe_ret _) fun core => ?_
    exact Safe.except_bind (safe_rpc (h.safe_store _ core _)) fun _ => safe_ret _
  | updateResponse record ttl =>
    refine Safe.except_bind (safe_ret _) fun record => Safe.except_bind (safe_ret _) fun core => ?_
    exact Safe.except_bind (safe_rpc (h.safe_update _ core _)) fun _ => safe_ret _
  | enqueueBackgroundJob record =>
    refine Safe.except_bind (safe_ret _) fun record => Safe.except_bind (safe_ret _) fun core => ?_
    refine Safe.except_bind (safe_rpc (h.safe_ask trivial)) fun now => ?_
    refine Safe.except_bind (safe_rpc (h.safe_store _ _ none)) fun _ => ?_
    refine Safe.except_bind (safe_rpc ?_) fun _ => safe_ret _
    exact safe_storage (h.safe_send trivial)
  | deleteResponse id =>
    show Safe P (deleteResponse cfg S id).run
    rw [deleteResponse]
    split_ifs
    · exact safe_ret _
    · exact Safe.except_bind (safe_rpc (h.safe_deleteOrTombstone id)) fun _ => safe_ret _
  | getResponse id reconcileStale =>
    show Safe P (getResponse cfg S id reconcileStale).run
    rw [getResponse]
    split_ifs
    · exact safe_ret _
    · refine Safe.except_bind (safe_rpc (h.safe_get id _)) fun record => ?_
      exact Safe.except_bind (safe_ret _) fun _ => safe_ret _
  | reconcileStaleResponse id staleSeconds =>
    show Safe P (reconcileStaleResponse cfg S id staleSeconds).run
    rw [reconcileStaleResponse]
    split_ifs
    · exact safe_ret _
    · refine Safe.except_bind (safe_rpc (h.safe_get id false)) fun existing => ?_
      refine Safe.except_bind (safe_rpc (h.safe_reconcileStaleResponse id existing _)) fun _ => ?_
      exact Safe.except_bind (safe_ret _) fun _ => safe_ret _
  | claimBackgroundResponse id =>
    show Safe P (claimBackgroundResponse cfg S id).run
    rw [claimBackgroundResponse]
    split_ifs
    · exact safe_ret _
    · refine Safe.except_bind (safe_rpc (h.safe_transitionAtomic id _)) fun x => ?_
      refine Safe.except_bind (safe_ret _) fun _ => ?_
      exact Safe.except_bind (safe_ret _) fun _ => safe_ret _
  | completeBackgroundResponse id json =>
    show Safe P (completeBackgroundResponse cfg S id json).run
    rw [completeBackgroundResponse]
    split_ifs
    · exact safe_ret _
    · exact safe_ret _
    · refine Safe.except_bind (safe_ret _) fun completed => ?_
      split_ifs
      · exact safe_ret _
      · refine Safe.except_bind (safe_rpc ?_) fun record => ?_
        · exact Safe.except_bind (h.safe_transitionAtomic id _) fun _ => safe_ret _
        · exact Safe.except_bind (safe_ret _) fun _ => safe_ret _
  | failBackgroundResponse id message =>
    show Safe P (failBackgroundResponse cfg S id message).run
    rw [failBackgroundResponse]
    split_ifs
    · exact safe_ret _
    · exact safe_ret _
    · refine Safe.except_bind (safe_rpc ?_) fun record => ?_
      · exact Safe.except_bind (h.safe_transitionAtomic id _) fun _ => safe_ret _
      · exact Safe.except_bind (safe_ret _) fun _ => safe_ret _
  | claimBackgroundJobs claim => exact absurd rfl (hclaim claim)
  | acknowledgeBackgroundJob streamId group =>
    show Safe P (acknowledgeBackgroundJob streamId group).run
    rw [acknowledgeBackgroundJob]
    split_ifs
    · exact safe_ret _
    · exact Safe.except_bind (safe_rpc (h.safe_acknowledge group streamId)) fun _ => safe_ret _
  | ensureConsumerGroup group startId =>
    show Safe P (ensureConsumerGroup group startId).run
    rw [ensureConsumerGroup]
    split_ifs
    · exact safe_ret _
    · exact Safe.except_bind (safe_rpc (h.safe_ensureConsumerGroup group _)) fun _ => safe_ret _
    · exact Safe.except_bind (safe_rpc (h.safe_ensureConsumerGroup group _)) fun _ => safe_ret _
  | getBackgroundQueueStats group =>
    show Safe P (getBackgroundQueueStats cfg fuel group).run
    rw [getBackgroundQueueStats]
    split_ifs
    · exact safe_ret _
    · exact Safe.except_bind (safe_rpc (h.safe_stats fuel group)) fun _ => safe_ret _
  | health =>
    refine Safe.except_bind (safe_rpc (safe_outcome (safe_storage (h.safe_send trivial))))
      fun ping => ?_
    rcases ping with e | _
    · exact safe_ret _
    refine Safe.except_bind (safe_rpc (safe_outcome (safe_storage (h.safe_send trivial))))
      fun info => ?_
    rcases info with e | info <;> exact safe_ret _

end Permits

end ResponsesApiStore
