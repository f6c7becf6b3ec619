import ResponsesApiStore.System.Execution

/-!
# What becomes of the entries of a claim

A claim of jobs is handed entries by `XAUTOCLAIM` and by `XREADGROUP` and loads the record of
each, up to three times. `Handled` is what happened to one entry: the replies its loads got decide
its fate, a job, an entry that is acknowledged and dropped, or one that is left pending. The
transcript of a claim that returns is that of its entries, one after another, and the three lists
of its answer are the entries by their fate (`claim_batch_partition`).
-/

namespace ResponsesApiStore

open Json (Serde)
open Redis (Error EntryReply)
open Interaction (Program)
open Interaction.Program

variable {N : Type}

/-! ### Reading a transcript -/

/-- The key and the reply of a load. -/
def loadsIn : sig.Exchange → List (String × Except Error (Option String))
  | ⟨.get key, reply⟩ => [(key, reply)]
  | _ => []

/-- The group and the identifier of an `XACK`. -/
def acksIn : sig.Exchange → List (String × String)
  | ⟨.stream (.xack group id), _⟩ => [(group, id)]
  | _ => []

/-- The entries a reply hands out, and whether they come from `XAUTOCLAIM`. -/
def entriesIn : sig.Exchange → List (Bool × EntryReply)
  | ⟨.stream (.xautoclaim ..), .ok reply⟩ => reply.claimed.map (true, ·)
  | ⟨.stream (.xreadgroup ..), .ok (some entries)⟩ => entries.map (false, ·)
  | _ => []

/-- The loads, acknowledgements and entries of a transcript. -/
structure Reads (es : List sig.Exchange) (loads : List (String × Except Error (Option String)))
    (acks : List (String × String)) (entries : List (Bool × EntryReply)) : Prop where
  loads : es.flatMap loadsIn = loads
  acks : es.flatMap acksIn = acks
  entries : es.flatMap entriesIn = entries

theorem reads_nil : Reads [] [] [] [] := ⟨rfl, rfl, rfl⟩

theorem Reads.append {es es' : List sig.Exchange}
    {loads loads' : List (String × Except Error (Option String))}
    {acks acks' : List (String × String)} {entries entries' : List (Bool × EntryReply)}
    (h : Reads es loads acks entries) (h' : Reads es' loads' acks' entries') :
    Reads (es ++ es') (loads ++ loads') (acks ++ acks') (entries ++ entries') := by
  refine ⟨?_, ?_, ?_⟩ <;> rw [List.flatMap_append]
  · rw [h.loads, h'.loads]
  · rw [h.acks, h'.acks]
  · rw [h.entries, h'.entries]

/-! ### What happens to an entry -/

/-- What becomes of an entry. -/
inductive Fate (N : Type)
  | job (record : StoredResponse N)
  | dropped
  | deferred

/-- An entry that carries a response, and the replies its loads got. -/
structure Handled where
  autoclaimed : Bool
  entry : EntryReply
  responseId : String
  replies : List (Except Error (Option String))

namespace Handled

variable (S : Serde N) (h : Handled)

/-- The fate of an entry is decided by the last reply: a record, no record or one that cannot be
read, or a storage error. -/
def fate : Fate N :=
  match h.replies.getLast? with
  | some (.ok (some text)) => match StoredResponse.ofText S text with
    | .ok record => .job record
    | .error _ => .dropped
  | some (.ok none) => .dropped
  | _ => .deferred

/-- The idle time reported with an entry. -/
def idleMs (minIdleMs : ℕ) : Option ℕ := if h.autoclaimed then some minIdleMs else none

/-- The job of an entry whose record was loaded. -/
def job? (minIdleMs : ℕ) : Option (BackgroundJob N) :=
  match h.fate S with
  | .job record => some ⟨h.entry.id, h.responseId, record, h.autoclaimed, h.idleMs minIdleMs⟩
  | _ => none

/-- The entry that is left pending. -/
def pending? (minIdleMs : ℕ) : Option PendingBackgroundJob :=
  match h.fate S with
  | .deferred => some ⟨h.entry.id, h.responseId, h.autoclaimed, h.idleMs minIdleMs⟩
  | _ => none

/-- The acknowledgement of an entry that is dropped. -/
def ack? (group : String) : Option (String × String) :=
  match h.fate S with
  | .dropped => some (group, h.entry.id)
  | _ => none

/-- The loads of an entry: storage errors, and then a reply that is none, unless all three attempts
have failed. -/
structure Loaded : Prop where
  field : BackgroundQueue.entryField h.entry "response_id" = some h.responseId
  attempts : ∃ failed last, h.replies = failed ++ [last] ∧ (∀ r ∈ failed, ∃ err, r = .error err) ∧
    failed.length ≤ 2 ∧ ((∃ text, last = .ok text) ∨ failed.length = 2)

/-- The loads as the transcript shows them. -/
def loads (cfg : StoreConfig) : List (String × Except Error (Option String)) :=
  h.replies.map (ResponseStore.key cfg h.responseId, ·)

end Handled

/-- What the transcript of a batch shows of the entries it handles. -/
structure HandledIn (cfg : StoreConfig) (S : Serde N) (group : String) (es : List sig.Exchange)
    (entries : List (Bool × EntryReply)) (handled : List Handled) : Prop where
  loaded : ∀ h ∈ handled, h.Loaded
  reads : Reads es (handled.flatMap (Handled.loads · cfg))
    (handled.filterMap (Handled.ack? S · group))
    entries

/-- What is assumed of Redis, with `delivered` the entries handed out before: `XAUTOCLAIM` returns
at most as many entries as were asked for, distinct ones among those; `XREADGROUP` likewise, of the
others. -/
structure RedisReplies (delivered : String → Prop) (es : List sig.Exchange) : Prop where
  autoclaim : ∀ group consumer minIdle start count reply,
    ⟨.stream (.xautoclaim group consumer minIdle start count), .ok reply⟩ ∈ es →
    reply.claimed.length ≤ count ∧ (reply.claimed.map EntryReply.id).Nodup ∧
      ∀ entry ∈ reply.claimed, delivered entry.id
  readgroup : ∀ group consumer count block entries,
    ⟨.stream (.xreadgroup group consumer count block), .ok (some entries)⟩ ∈ es →
    entries.length ≤ count ∧ (entries.map EntryReply.id).Nodup ∧
      ∀ entry ∈ entries, ¬delivered entry.id

theorem RedisReplies.mono {delivered : String → Prop} {es es' : List sig.Exchange}
    (h : RedisReplies delivered es') (hsub : ∀ e ∈ es, e ∈ es') : RedisReplies delivered es :=
  ⟨fun _ _ _ _ _ _ hmem => h.autoclaim _ _ _ _ _ _ (hsub _ hmem),
    fun _ _ _ _ _ hmem => h.readgroup _ _ _ _ _ (hsub _ hmem)⟩

/-- The identifiers of the entries. -/
def idsOf (entries : List (Bool × EntryReply)) : List String := entries.map fun e => e.2.id

theorem idsOf_map (autoclaimed : Bool) (entries : List EntryReply) :
    idsOf (entries.map (autoclaimed, ·)) = entries.map EntryReply.id := by
  rw [idsOf, List.map_map]
  rfl

/-- The entries that carry a response. -/
def carrying (entries : List (Bool × EntryReply)) : List (Bool × EntryReply) :=
  entries.filter fun e => (BackgroundQueue.entryField e.2 "response_id").isSome

/-- The three lists made of the entries handled. -/
def batchOf (S : Serde N) (minIdleMs : ℕ) (handled : List Handled) : ClaimBatchResult N :=
  ⟨handled.filterMap (Handled.job? S · minIdleMs),
    (handled.filterMap (Handled.pending? S · minIdleMs)).map PendingBackgroundJob.streamId,
    handled.filterMap (Handled.pending? S · minIdleMs)⟩

section Loads

variable {cfg : StoreConfig} {S : Serde N} {id : String} {es : List sig.Exchange}

/-- One attempt: it is the last, or it has met a storage error and goes on after a pause. -/
theorem returns_loadAttempts_succ {left : ℕ} {x : Except Fault (Option (StoredResponse N))}
    (h : (BackgroundQueue.loadAttempts cfg S id (left + 1)).run.Returns es x) :
    ∃ reply es', es = ⟨.get (ResponseStore.key cfg id), reply⟩ :: es' ∧
      (((∃ text, reply = .ok text) ∨ left = 0) ∧ es' = [] ∧ x = ResponseStore.loadResult S reply ∨
        (∃ err, reply = .error err) ∧ left ≠ 0 ∧ ∃ es'', es' = ⟨.sleep, ()⟩ :: es'' ∧
          (BackgroundQueue.loadAttempts cfg S id left).run.Returns es'' x) := by
  obtain ⟨es₁, es₂, r, rfl, hload, hrest⟩ := returns_outcome_bind_iff.mp h
  obtain ⟨reply, rfl, rfl⟩ := ResponseStore.returns_load hload
  refine ⟨reply, es₂, rfl, ?_⟩
  -- only a storage error is tried again; no record, or an unreadable one, is final
  rcases reply with err | _ | text
  · replace hrest : (if left = 0 then raise (.storage err) else
        ask .sleep >>= fun _ => BackgroundQueue.loadAttempts cfg S id left :
          Act (Option (StoredResponse N))).run.Returns es₂ x := hrest
    split_ifs at hrest with hleft
    · obtain ⟨rfl, rfl⟩ := returns_throw.mp hrest
      exact .inl ⟨.inr hleft, rfl, rfl⟩
    · refine .inr ⟨⟨err, rfl⟩, hleft, ?_⟩
      rw [returns_except_bind_iff, ask] at hrest
      simp only [returns_lift] at hrest
      rcases hrest with ⟨es₁, es₃, -, rfl, ⟨u, hsleep, -⟩, hrest⟩ | ⟨e, ⟨u, -, heq⟩, -⟩
      · obtain rfl := returns_call.mp hsleep
        exact ⟨es₃, rfl, hrest⟩
      · cases heq
  · obtain ⟨rfl, rfl⟩ := returns_return.mp hrest
    exact .inl ⟨.inl ⟨none, rfl⟩, rfl, rfl⟩
  · refine .inl ⟨.inl ⟨some text, rfl⟩, ?_⟩
    simp only [ResponseStore.loadResult, ResponseStore.decode] at hrest ⊢
    cases hread : StoredResponse.ofText S text with
    | error e =>
      rw [hread] at hrest
      exact returns_throw.mp hrest
    | ok record =>
      rw [hread] at hrest
      exact returns_return.mp hrest

/-- The attempts to load a record. -/
theorem returns_loadAttempts {left : ℕ} {x : Except Fault (Option (StoredResponse N))}
    (h : (BackgroundQueue.loadAttempts cfg S id (left + 1)).run.Returns es x) :
    ∃ failed last, Reads es ((failed ++ [last]).map (ResponseStore.key cfg id, ·)) [] [] ∧
      (∀ r ∈ failed, ∃ err, r = .error err) ∧ failed.length ≤ left ∧
      ((∃ text, last = .ok text) ∨ failed.length = left) ∧ x = ResponseStore.loadResult S last := by
  induction left generalizing es with
  | zero =>
    obtain ⟨reply, es', rfl, ⟨-, rfl, rfl⟩ | ⟨-, hne, -⟩⟩ := returns_loadAttempts_succ h
    · exact ⟨[], reply, ⟨rfl, rfl, rfl⟩, by simp, le_rfl, .inr rfl, rfl⟩
    · exact absurd rfl hne
  | succ left ih =>
    obtain ⟨reply, es', rfl, ⟨hlast, rfl, rfl⟩ | ⟨⟨err, rfl⟩, -, es'', rfl, hrest⟩⟩ :=
      returns_loadAttempts_succ h
    · exact ⟨[], reply, ⟨rfl, rfl, rfl⟩, by simp, Nat.zero_le _,
        .inl (hlast.resolve_right (Nat.succ_ne_zero left)), rfl⟩
    · obtain ⟨failed, last, hreads, hfailed, hlength, hlast, rfl⟩ := ih hrest
      refine ⟨.error err :: failed, last, ?_, ?_, Nat.succ_le_succ hlength, ?_, rfl⟩
      · exact ⟨congrArg _ hreads.loads, hreads.acks, hreads.entries⟩
      · intro r hr
        rcases List.mem_cons.mp hr with rfl | hr
        · exact ⟨err, rfl⟩
        · exact hfailed r hr
      · exact hlast.imp_right fun heq => by rw [List.length_cons, heq]

end Loads

section Batches

variable {cfg : StoreConfig} {S : Serde N} {group : String} {es : List sig.Exchange} {minIdle : ℕ}
  {delivered : String → Prop}

theorem returns_acknowledge {id : String} {x : Except Fault Unit}
    (h : (BackgroundQueue.acknowledge group id).run.Returns es x) :
    Reads es [] [(group, id)] [] := by
  rw [BackgroundQueue.acknowledge, returns_except_bind_iff] at h
  simp only [returns_storage] at h
  rcases h with ⟨es₁, es₂, acked, rfl, ⟨reply, hreply, -⟩, hrest⟩ | ⟨e, ⟨reply, hreply, -⟩, -⟩
  · obtain rfl := returns_call.mp hreply
    have hnil : es₂ = [] := by
      split_ifs at hrest
      · exact (returns_throw.mp hrest).1
      · exact (returns_return.mp hrest).1
    rw [hnil]
    exact ⟨rfl, rfl, rfl⟩
  · obtain rfl := returns_call.mp hreply
    exact ⟨rfl, rfl, rfl⟩

/-- What a load returned decides the fate of the entry. -/
theorem fate_of_loadResult (h : Handled) {failed : List (Except Error (Option String))}
    {last : Except Error (Option String)} (hreplies : h.replies = failed ++ [last]) :
    (∃ record, ResponseStore.loadResult S last = .ok (some record) ∧ h.fate S = .job record) ∨
      ((ResponseStore.loadResult S last = .ok none ∨
          ∃ e, ResponseStore.loadResult S last = .error (.error (.serialization e))) ∧
        h.fate S = .dropped) ∨
      ∃ err, ResponseStore.loadResult S last = .error (storageFault err) ∧
        h.fate S = .deferred := by
  rw [Handled.fate, hreplies, List.getLast?_append_cons, List.getLast?_singleton]
  rcases last with err | _ | text
  · exact .inr (.inr ⟨err, rfl, rfl⟩)
  · exact .inr (.inl ⟨.inl rfl, rfl⟩)
  · simp only [ResponseStore.loadResult, ResponseStore.decode]
    cases hread : StoredResponse.ofText S text with
    | error e => exact .inr (.inl ⟨.inr ⟨e, rfl⟩, rfl⟩)
    | ok record => exact .inl ⟨record, rfl, rfl⟩

theorem filterMap_cons_toList {α β : Type} (f : α → Option β) (a : α) (l : List α) :
    (a :: l).filterMap f = (f a).toList ++ l.filterMap f := by
  rw [List.filterMap_cons]
  cases f a <;> rfl

theorem handledIn_nil : HandledIn cfg S group [] [] [] := ⟨by simp, reads_nil⟩

/-- One more entry: its loads come first, then its acknowledgement if it is dropped. -/
theorem HandledIn.cons {h : Handled} {handled : List Handled} {es₁ es₂ es₃ : List sig.Exchange}
    (hloaded : h.Loaded) (hloads : Reads es₁ (h.loads cfg) [] [])
    (hacks : Reads es₂ [] (h.ack? S group).toList [])
    (hrest : HandledIn cfg S group es₃ [] handled) :
    HandledIn cfg S group (es₁ ++ (es₂ ++ es₃)) [] (h :: handled) := by
  refine ⟨fun h' hh' => ?_, ?_⟩
  · rcases List.mem_cons.mp hh' with rfl | hh'
    · exact hloaded
    · exact hrest.loaded h' hh'
  · have hreads := hloads.append (hacks.append hrest.reads)
    rw [List.flatMap_cons, filterMap_cons_toList]
    simpa using hreads

/-- One more entry that is not dropped. -/
theorem HandledIn.cons_kept {h : Handled} {handled : List Handled} {es₁ es₃ : List sig.Exchange}
    (hloaded : h.Loaded) (hloads : Reads es₁ (h.loads cfg) [] []) (hkept : h.ack? S group = none)
    (hrest : HandledIn cfg S group es₃ [] handled) :
    HandledIn cfg S group (es₁ ++ es₃) [] (h :: handled) := by
  have hacks : Reads [] [] (h.ack? S group).toList [] := by
    rw [hkept]
    exact reads_nil
  exact hrest.cons hloaded hloads hacks

theorem returns_jobsFromStreamIds (autoclaimed : Bool) (minIdle : ℕ) {entries : List EntryReply}
    {batch : ClaimBatchResult N} {x : Except Fault (ClaimBatchResult N)}
    (h : (BackgroundQueue.jobsFromStreamIds cfg S group autoclaimed
      (if autoclaimed then some minIdle else none) entries batch).run.Returns es x) :
    ∃ handled : List Handled,
      handled.map (fun h => (h.autoclaimed, h.entry)) = carrying (entries.map (autoclaimed, ·)) ∧
      HandledIn cfg S group es [] handled ∧ x = .ok (batch.extend (batchOf S minIdle handled)) := by
  induction entries generalizing batch es with
  | nil =>
    obtain ⟨rfl, rfl⟩ := returns_return.mp h
    exact ⟨[], rfl, handledIn_nil, by simp [ClaimBatchResult.extend, batchOf]⟩
  | cons entry entries ih =>
    rw [BackgroundQueue.jobsFromStreamIds] at h
    cases hfield : BackgroundQueue.entryField entry "response_id" with
    -- an entry without a response id is skipped, and stays pending
    | none =>
      rw [hfield] at h
      obtain ⟨handled, hentries, hin, rfl⟩ := ih h
      exact ⟨handled, by simpa [carrying, hfield] using hentries, hin, rfl⟩
    | some responseId =>
      rw [hfield] at h
      obtain ⟨es₁, es₂, r, rfl, hload, hrest⟩ := returns_outcome_bind_iff.mp h
      obtain ⟨failed, last, hreads, hfailed, hlength, hlast, rfl⟩ := returns_loadAttempts hload
      have hloaded : (⟨autoclaimed, entry, responseId, failed ++ [last]⟩ : Handled).Loaded :=
        ⟨hfield, failed, last, rfl, hfailed, hlength, hlast⟩
      have hcarrying : ∀ handled : List Handled,
          handled.map (fun h => (h.autoclaimed, h.entry)) =
            carrying (entries.map (autoclaimed, ·)) →
          (⟨autoclaimed, entry, responseId, failed ++ [last]⟩ :: handled).map
            (fun h => (h.autoclaimed, h.entry)) =
            carrying ((entry :: entries).map (autoclaimed, ·)) := by
        intro handled hentries
        simpa [carrying, hfield] using hentries
      -- loaded: a job; lost or unreadable: acknowledged; not loaded: pending
      rcases fate_of_loadResult (S := S) ⟨autoclaimed, entry, responseId, failed ++ [last]⟩ rfl with
        ⟨record, hresult, hfate⟩ | ⟨hresult, hfate⟩ | ⟨err, hresult, hfate⟩
      · rw [hresult] at hrest
        obtain ⟨handled, hentries, hin, rfl⟩ := ih hrest
        refine ⟨_, hcarrying handled hentries, hin.cons_kept hloaded hreads ?_, ?_⟩
        · rw [Handled.ack?, hfate]
        · simp [ClaimBatchResult.extend, batchOf, Handled.job?, Handled.pending?, Handled.idleMs,
            hfate]
      · have hrest' : (outcome (BackgroundQueue.acknowledge group entry.id) >>= fun _ =>
            BackgroundQueue.jobsFromStreamIds cfg S group autoclaimed
              (if autoclaimed then some minIdle else none) entries batch).run.Returns es₂ x := by
          rcases hresult with hresult | ⟨e, hresult⟩
          · rw [hresult] at hrest
            exact hrest
          · rw [hresult] at hrest
            exact hrest
        obtain ⟨es₃, es₄, r, rfl, hack, hrest'⟩ := returns_outcome_bind_iff.mp hrest'
        obtain ⟨handled, hentries, hin, rfl⟩ := ih hrest'
        refine ⟨_, hcarrying handled hentries, hin.cons hloaded hreads ?_, ?_⟩
        · rw [Handled.ack?, hfate]
          exact returns_acknowledge hack
        · simp [ClaimBatchResult.extend, batchOf, Handled.job?, Handled.pending?, hfate]
      · rw [hresult] at hrest
        obtain ⟨handled, hentries, hin, rfl⟩ := ih hrest
        refine ⟨_, hcarrying handled hentries, hin.cons_kept hloaded hreads ?_, ?_⟩
        · rw [Handled.ack?, hfate]
        · simp [ClaimBatchResult.extend, batchOf, Handled.job?, Handled.pending?, Handled.idleMs,
            hfate]

/-- The entries a batch reports. -/
def claimedCount (batch : ClaimBatchResult N) : ℕ := batch.jobs.length + batch.pendingJobs.length

theorem claimedCount_batchOf (handled : List Handled) :
    claimedCount (batchOf S minIdle handled) ≤ handled.length := by
  induction handled with
  | nil => exact le_rfl
  | cons h handled ih =>
    have hone : (h.job? S minIdle).toList.length + (h.pending? S minIdle).toList.length ≤ 1 := by
      rw [Handled.job?, Handled.pending?]
      rcases h.fate S with record | _ | _ <;> simp
    simp only [claimedCount, batchOf, filterMap_cons_toList, List.length_append,
      List.length_cons] at ih ⊢
    omega

/-- What one half of a claim does: the entries it is handed, and what becomes of them. -/
structure Half (cfg : StoreConfig) (S : Serde N) (group : String) (es : List sig.Exchange)
    (entries : List (Bool × EntryReply)) (handled : List Handled) : Prop where
  handledIn : HandledIn cfg S group es entries handled
  entries : handled.map (fun h => (h.autoclaimed, h.entry)) = carrying entries

theorem Half.length_le {entries : List (Bool × EntryReply)} {handled : List Handled}
    (h : Half cfg S group es entries handled) : handled.length ≤ entries.length := by
  have hlength := congrArg List.length h.entries
  rw [List.length_map] at hlength
  rw [hlength]
  exact List.length_filter_le _ _

theorem half_nil {es : List sig.Exchange} (h : Reads es [] [] []) : Half cfg S group es [] [] :=
  ⟨⟨by simp, h⟩, rfl⟩

/-- A half that reads entries and then handles them. -/
theorem half_of_reads {es' : List sig.Exchange} {entries : List (Bool × EntryReply)}
    {handled : List Handled} (hreads : Reads es [] [] entries)
    (hentries : handled.map (fun h => (h.autoclaimed, h.entry)) = carrying entries)
    (hin : HandledIn cfg S group es' [] handled) :
    Half cfg S group (es ++ es') entries handled := by
  refine ⟨⟨hin.loaded, ?_⟩, hentries⟩
  simpa using hreads.append hin.reads

/-- **The first half.** -/
theorem returns_claimIdle (delivered : String → Prop) {options : ClaimOptions}
    {cursor cursor' : String} {batch : ClaimBatchResult N}
    (h : (BackgroundQueue.claimIdle cfg S options cursor).run.Returns es (.ok (batch, cursor'))) :
    ∃ entries handled, Half cfg S options.consumerGroup es entries handled ∧
      batch = batchOf S options.autoclaimMinIdleMs handled ∧
      (RedisReplies delivered es → claimedCount batch ≤ options.count ∧
        (idsOf entries).Nodup ∧ ∀ id ∈ idsOf entries, delivered id) := by
  rw [BackgroundQueue.claimIdle] at h
  split_ifs at h
  · obtain ⟨es₁, es₂, reply, rfl, hautoclaim, hrest⟩ := h.bind_ok
    obtain ⟨r, hr, heq⟩ := returns_storage.mp hautoclaim
    obtain rfl := returns_call.mp hr
    obtain rfl : r = .ok reply := mapError_eq_ok_iff.mp heq.symm
    obtain ⟨es₃, es₄, batch', rfl, hjobs, hreturn⟩ := hrest.bind_ok
    obtain ⟨rfl, hbatch⟩ := returns_return.mp hreturn
    obtain ⟨rfl, -⟩ := Prod.mk.inj (Except.ok.inj hbatch)
    obtain ⟨handled, hentries, hin, hx⟩ :=
      returns_jobsFromStreamIds true options.autoclaimMinIdleMs hjobs
    have hbatch : batch = batchOf S options.autoclaimMinIdleMs handled := by
      rw [Except.ok.inj hx]
      simp [ClaimBatchResult.extend, ClaimBatchResult.empty]
    rw [List.append_nil]
    -- the scan hands out what it has taken over, and reads nothing else
    have hreads : Reads [(⟨.stream (.xautoclaim options.consumerGroup options.consumerName
        options.autoclaimMinIdleMs cursor options.count), .ok reply⟩ : sig.Exchange)] [] []
        (reply.claimed.map (true, ·)) := ⟨rfl, rfl, by simp [entriesIn]⟩
    have hhalf := half_of_reads hreads hentries hin
    refine ⟨_, handled, hhalf, hbatch, fun hredis => ?_⟩
    obtain ⟨hle, hnodup, hdelivered⟩ :=
      hredis.autoclaim _ _ _ _ _ reply (List.mem_append_left _ (List.mem_singleton.mpr rfl))
    rw [hbatch, idsOf_map, List.forall_mem_map]
    refine ⟨(claimedCount_batchOf handled).trans (hhalf.length_le.trans ?_), hnodup, hdelivered⟩
    rwa [List.length_map]
  · obtain ⟨rfl, heq⟩ := returns_return.mp h
    obtain ⟨rfl, -⟩ := Prod.mk.inj (Except.ok.inj heq)
    exact ⟨[], [], half_nil reads_nil, rfl,
      fun _ => ⟨Nat.zero_le _, List.nodup_nil, by simp [idsOf]⟩⟩

/-- Reading new entries. -/
theorem returns_readGroup {name : String} {count blockMs : ℕ}
    {x : Except Fault (List EntryReply)}
    (h : (BackgroundQueue.readGroup group name count blockMs).run.Returns es x) :
    (∃ entries, x = .ok entries ∧ Reads es [] [] (entries.map (false, ·)) ∧
      (RedisReplies delivered es → entries.length ≤ count ∧ (entries.map EntryReply.id).Nodup ∧
        ∀ entry ∈ entries, ¬delivered entry.id)) ∨
      (∃ err, x = .error (storageFault err)) ∧ Reads es [] [] [] := by
  -- with or without blocking, the one command that matters is `XREADGROUP`
  have hread : ∀ block es, (storage (send (.stream (.xreadgroup group name count block))) >>=
      fun replies => pure (replies.getD []) : Act (List EntryReply)).run.Returns es x →
      (∃ entries, x = .ok entries ∧ Reads es [] [] (entries.map (false, ·)) ∧
        (RedisReplies delivered es → entries.length ≤ count ∧ (entries.map EntryReply.id).Nodup ∧
          ∀ entry ∈ entries, ¬delivered entry.id)) ∨
        (∃ err, x = .error (storageFault err)) ∧ Reads es [] [] [] := by
    intro block es h
    rw [returns_except_bind_iff] at h
    simp only [returns_storage] at h
    rcases h with ⟨es₁, es₂, replies, rfl, ⟨r, hr, heq⟩, hrest⟩ | ⟨e, ⟨r, hr, heq⟩, rfl⟩
    · obtain rfl := returns_call.mp hr
      obtain rfl : r = .ok replies := mapError_eq_ok_iff.mp heq.symm
      obtain ⟨rfl, rfl⟩ := returns_return.mp hrest
      refine .inl ⟨replies.getD [], rfl, ?_, fun hredis => ?_⟩
      · cases replies <;> exact ⟨rfl, rfl, by simp [entriesIn]⟩
      · cases replies with
        | none => exact ⟨Nat.zero_le _, List.nodup_nil, by simp⟩
        | some entries => exact hredis.readgroup _ _ _ _ _ (List.mem_singleton.mpr rfl)
    · obtain rfl := returns_call.mp hr
      rcases r with err | replies
      · obtain rfl := Except.error.inj heq
        exact .inr ⟨⟨err, rfl⟩, rfl, rfl, rfl⟩
      · cases heq
  rw [BackgroundQueue.readGroup] at h
  split_ifs at h
  · exact hread none es h
  · rw [returns_except_bind_iff] at h
    simp only [returns_storage] at h
    rcases h with ⟨es₁, es₂, -, rfl, ⟨r, hr, -⟩, hrest⟩ | ⟨e, ⟨r, hr, heq⟩, rfl⟩
    · obtain rfl := returns_call.mp hr
      -- the blocking read opens a connection of its own first
      have hopen : Reads [(⟨.openBlocking, r⟩ : sig.Exchange)] [] [] [] := ⟨rfl, rfl, rfl⟩
      rcases hread _ _ hrest with ⟨entries, hx, hreads, hle⟩ | ⟨herror, hreads⟩
      · refine .inl ⟨entries, hx, hopen.append hreads, fun hredis => hle ?_⟩
        exact hredis.mono fun e he => List.mem_append_right _ he
      · exact .inr ⟨herror, hopen.append hreads⟩
    · obtain rfl := returns_call.mp hr
      rcases r with err | _
      · obtain rfl := Except.error.inj heq
        exact .inr ⟨⟨err, rfl⟩, rfl, rfl, rfl⟩
      · cases heq

/-- **The second half.** -/
theorem returns_claimNew (delivered : String → Prop) (minIdle : ℕ) {options : ClaimOptions}
    {result result' : ClaimBatchResult N}
    (h : (BackgroundQueue.claimNew cfg S options result).run.Returns es (.ok result')) :
    ∃ entries handled, Half cfg S options.consumerGroup es entries handled ∧
      result' = result.extend (batchOf S minIdle handled) ∧
      (RedisReplies delivered es →
        (claimedCount result ≤ options.count → claimedCount result' ≤ options.count) ∧
        (idsOf entries).Nodup ∧ ∀ id ∈ idsOf entries, ¬delivered id) := by
  -- a half that reads nothing changes nothing
  have hsame : ∀ {es : List sig.Exchange}, Reads es [] [] [] → result' = result →
      ∃ entries handled, Half cfg S options.consumerGroup es entries handled ∧
        result' = result.extend (batchOf S minIdle handled) ∧
        (RedisReplies delivered es →
          (claimedCount result ≤ options.count → claimedCount result' ≤ options.count) ∧
          (idsOf entries).Nodup ∧ ∀ id ∈ idsOf entries, ¬delivered id) := by
    rintro es hreads rfl
    exact ⟨[], [], half_nil hreads, by simp [ClaimBatchResult.extend, batchOf],
      fun _ => ⟨id, List.nodup_nil, by simp [idsOf]⟩⟩
  rw [BackgroundQueue.claimNew] at h
  dsimp only at h
  by_cases hremaining : 0 < options.count - (result.jobs.length + result.pendingJobs.length)
  · rw [if_pos hremaining] at h
    obtain ⟨es₁, es₂, r, rfl, hread, hrest⟩ := returns_outcome_bind_iff.mp h
    rcases returns_readGroup hread with ⟨entries, rfl, hreads, hle⟩ | ⟨⟨err, rfl⟩, hreads⟩
    · obtain ⟨es₃, es₄, r, rfl, hjobs, hrest⟩ := returns_outcome_bind_iff.mp hrest
      obtain ⟨handled, hentries, hin, rfl⟩ := returns_jobsFromStreamIds false minIdle hjobs
      obtain ⟨rfl, heq⟩ := returns_return.mp hrest
      have hresult : result' = result.extend (batchOf S minIdle handled) := by
        rw [Except.ok.inj heq]
        simp [ClaimBatchResult.extend, ClaimBatchResult.empty]
      have hhalf := half_of_reads hreads hentries hin
      refine ⟨_, handled, by rwa [List.append_nil], hresult, fun hredis => ?_⟩
      obtain ⟨hentries, hnodup, hnew⟩ := hle (hredis.mono fun e he => List.mem_append_left _ he)
      rw [idsOf_map, List.forall_mem_map]
      refine ⟨fun hcount => ?_, hnodup, hnew⟩
      -- at most as many as were asked for, which is what the first half left
      have hlength : claimedCount (batchOf S minIdle handled) ≤ entries.length :=
        (claimedCount_batchOf handled).trans (hhalf.length_le.trans_eq (List.length_map _))
      rw [hresult]
      simp only [claimedCount, ClaimBatchResult.extend, List.length_append] at hcount hlength ⊢
      omega
    · replace hrest : (if result.hasClaimedEntries then return result else raise (.storage err) :
        Act (ClaimBatchResult N)).run.Returns es₂ (.ok result') := hrest
      split_ifs at hrest
      · obtain ⟨rfl, heq⟩ := returns_return.mp hrest
        exact hsame (by rwa [List.append_nil]) (Except.ok.inj heq)
      · cases (returns_throw.mp hrest).2
  · rw [if_neg hremaining] at h
    obtain ⟨rfl, heq⟩ := returns_return.mp h
    exact hsame reads_nil (Except.ok.inj heq)

/-- The two halves of a claim, one after the other. -/
theorem Half.append {es' : List sig.Exchange} {entries entries' : List (Bool × EntryReply)}
    {handled handled' : List Handled} (h : Half cfg S group es entries handled)
    (h' : Half cfg S group es' entries' handled') :
    Half cfg S group (es ++ es') (entries ++ entries') (handled ++ handled') := by
  refine ⟨⟨fun e he => ?_, ?_⟩, ?_⟩
  · rcases List.mem_append.mp he with he | he
    · exact h.handledIn.loaded e he
    · exact h'.handledIn.loaded e he
  · rw [List.flatMap_append, List.filterMap_append]
    exact h.handledIn.reads.append h'.handledIn.reads
  · rw [List.map_append, h.entries, h'.entries, carrying, carrying, carrying, List.filter_append]

theorem batchOf_append (handled handled' : List Handled) :
    (batchOf S minIdle handled).extend (batchOf S minIdle handled') =
      batchOf S minIdle (handled ++ handled') := by
  simp [ClaimBatchResult.extend, batchOf]

/-- **Both halves.** -/
theorem returns_claimJobs (delivered : String → Prop) {options : ClaimOptions}
    {cursor cursor' : String} {batch : ClaimBatchResult N}
    (h : (BackgroundQueue.claimJobs cfg S options cursor).run.Returns es (.ok (batch, cursor'))) :
    ∃ entries handled, Half cfg S options.consumerGroup es entries handled ∧
      batch = batchOf S options.autoclaimMinIdleMs handled ∧
      (RedisReplies delivered es →
        claimedCount batch ≤ options.count ∧ (idsOf entries).Nodup) := by
  rw [BackgroundQueue.claimJobs] at h
  obtain ⟨es₁, es₂, ⟨idle, cursor₁⟩, rfl, hidle, hrest⟩ := h.bind_ok
  obtain ⟨es₃, es₄, batch', rfl, hnew, hreturn⟩ := hrest.bind_ok
  obtain ⟨rfl, heq⟩ := returns_return.mp hreturn
  obtain ⟨rfl, -⟩ := Prod.mk.inj (Except.ok.inj heq)
  rw [List.append_nil]
  obtain ⟨entries, handled, hhalf, rfl, hredis⟩ := returns_claimIdle delivered hidle
  obtain ⟨entries', handled', hhalf', rfl, hredis'⟩ :=
    returns_claimNew delivered options.autoclaimMinIdleMs hnew
  refine ⟨_, _, hhalf.append hhalf', batchOf_append handled handled', fun hassumed => ?_⟩
  obtain ⟨hcount, hnodup, hdelivered⟩ :=
    hredis (hassumed.mono fun e he => List.mem_append_left _ he)
  obtain ⟨hcount', hnodup', hfresh⟩ :=
    hredis' (hassumed.mono fun e he => List.mem_append_right _ he)
  refine ⟨hcount' hcount, ?_⟩
  rw [idsOf, List.map_append]
  exact List.nodup_append'.mpr
    ⟨hnodup, hnodup', fun id hid hid' => hfresh id hid' (hdelivered id hid)⟩

end Batches

/-! ### The answer of a claim -/

section Answers

variable {cfg : StoreConfig} {S : Serde N} {minIdle : ℕ}

/-- What the answer says of an entry besides its record. -/
def report (minIdleMs : ℕ) (e : Bool × EntryReply) : String × Bool × Option ℕ :=
  (e.2.id, e.1, if e.1 then some minIdleMs else none)

def ProtoBackgroundJob.report (job : ProtoBackgroundJob) : String × Bool × Option ℕ :=
  (job.streamId, job.autoclaimed, job.idleMs)

def PendingBackgroundJob.report (job : PendingBackgroundJob) : String × Bool × Option ℕ :=
  (job.streamId, job.autoclaimed, job.idleMs)

/-- The load of the entry found no record, or one that cannot be read. -/
def Handled.Unreadable (S : Serde N) (h : Handled) : Prop :=
  h.replies.getLast? = some (.ok none) ∨
    ∃ text e, h.replies.getLast? = some (.ok (some text)) ∧ StoredResponse.ofText S text = .error e

/-- All three attempts to load the entry met a storage error. -/
def Handled.Unloaded (h : Handled) : Prop :=
  h.replies.length = 3 ∧ ∀ r ∈ h.replies, ∃ err, r = .error err

theorem Handled.fate_eq_dropped_iff (h : Handled) : h.fate S = .dropped ↔ h.Unreadable S := by
  rw [Handled.fate, Handled.Unreadable]
  rcases h.replies.getLast? with _ | err | _ | text
  · simp
  · simp
  · simp
  · cases hread : StoredResponse.ofText S text <;> simp [hread]

theorem Handled.Loaded.fate_eq_deferred_iff {h : Handled} (hloaded : h.Loaded) :
    h.fate S = .deferred ↔ h.Unloaded := by
  obtain ⟨failed, last, hreplies, hfailed, hlength, hlast⟩ := hloaded.attempts
  rw [Handled.fate, Handled.Unloaded, hreplies, List.getLast?_append_cons, List.getLast?_singleton]
  rcases last with err | text
  · have htwo : failed.length = 2 := hlast.resolve_left fun ⟨_, h⟩ => nomatch h
    simp only [true_iff]
    refine ⟨by simp [htwo], fun r hr => ?_⟩
    rcases List.mem_append.mp hr with hr | hr
    · exact hfailed r hr
    · exact ⟨err, List.mem_singleton.mp hr⟩
  · constructor
    · intro hfate
      rcases text with _ | text
      · cases hfate
      · cases hread : StoredResponse.ofText S text <;> simp [hread] at hfate
    · rintro ⟨-, hall⟩
      obtain ⟨err, h⟩ := hall (.ok text) (by simp)
      cases h

/-- Where an entry ends up: in exactly one of the three places, which the replies of its loads
decide. -/
structure EntryPlaced (S : Serde N) (group : String) (es : List sig.Exchange)
    (jobs : List ProtoBackgroundJob) (pendingJobs : List PendingBackgroundJob) (h : Handled) :
    Prop where
  job : h.entry.id ∈ jobs.map ProtoBackgroundJob.streamId ↔ ¬h.Unreadable S ∧ ¬h.Unloaded
  acknowledged : (group, h.entry.id) ∈ es.flatMap acksIn ↔ h.Unreadable S
  pending : h.entry.id ∈ pendingJobs.map PendingBackgroundJob.streamId ↔ h.Unloaded
  once : ¬(h.Unreadable S ∧ h.Unloaded)

/-- A claim that returns these lists has partitioned what it was handed. -/
structure ClaimPartition (cfg : StoreConfig) (S : Serde N) (claim : ClaimBackgroundJobsRequest)
    (es : List sig.Exchange) (jobs : List ProtoBackgroundJob) (pendingStreamIds : List String)
    (pendingJobs : List PendingBackgroundJob) (handled : List Handled) : Prop where
  entries : handled.map (fun h => (h.autoclaimed, h.entry)) = carrying (es.flatMap entriesIn)
  loaded : ∀ h ∈ handled, h.Loaded
  loads : es.flatMap loadsIn = handled.flatMap (Handled.loads · cfg)
  placed : ∀ h ∈ handled, EntryPlaced S claim.consumerGroup es jobs pendingJobs h
  jobOrder : (jobs.map ProtoBackgroundJob.report).Sublist
    ((es.flatMap entriesIn).map (report claim.autoclaimMinIdleMs.toNat))
  pendingOrder : (pendingJobs.map PendingBackgroundJob.report).Sublist
    ((es.flatMap entriesIn).map (report claim.autoclaimMinIdleMs.toNat))
  distinct : (jobs.map ProtoBackgroundJob.streamId ++
    pendingJobs.map PendingBackgroundJob.streamId).Nodup
  pendingIds : pendingStreamIds = pendingJobs.map PendingBackgroundJob.streamId
  count : jobs.length + pendingJobs.length ≤ min (max claim.count.toNat 1) 100

section Selection

variable {α β γ : Type} {f : α → Option β} {g : β → γ} {k : α → γ}

/-- What is selected from a list keeps its order. -/
theorem map_filterMap_sublist (hf : ∀ a b, f a = some b → g b = k a) (l : List α) :
    ((l.filterMap f).map g).Sublist (l.map k) := by
  induction l with
  | nil => exact List.Sublist.slnil
  | cons a l ih =>
    rw [List.map_cons, List.filterMap_cons]
    cases ha : f a with
    | none => exact ih.cons _
    | some b =>
      rw [List.map_cons, hf a b ha]
      exact ih.cons_cons _

/-- In a list of distinct items, an item is found among the selected ones if it was selected. -/
theorem mem_map_filterMap_iff (hf : ∀ a b, f a = some b → g b = k a) {l : List α}
    (hnodup : (l.map k).Nodup) {a : α} (ha : a ∈ l) :
    k a ∈ (l.filterMap f).map g ↔ (f a).isSome := by
  rw [List.mem_map]
  constructor
  · rintro ⟨b, hb, heq⟩
    obtain ⟨a', ha', hsome⟩ := List.mem_filterMap.mp hb
    obtain rfl := List.inj_on_of_nodup_map hnodup ha' ha ((hf a' b hsome).symm.trans heq)
    rw [hsome]
    rfl
  · intro hsome
    obtain ⟨b, hb⟩ := Option.isSome_iff_exists.mp hsome
    exact ⟨b, List.mem_filterMap.mpr ⟨a, ha, hb⟩, hf a b hb⟩

end Selection

theorem report_of_mapM {js : List (BackgroundJob N)} {jobs : List ProtoBackgroundJob}
    (h : js.mapM (coreJobToProto S) = .ok jobs) :
    jobs.map ProtoBackgroundJob.report =
      js.map fun job => (job.streamId, job.autoclaimed, job.idleMs) := by
  induction js generalizing jobs with
  | nil =>
    obtain rfl := Except.ok.inj h
    rfl
  | cons job js ih =>
    rw [List.mapM_cons] at h
    obtain ⟨proto, hproto, h⟩ := bind_eq_ok_iff.mp h
    obtain ⟨protos, hprotos, h⟩ := bind_eq_ok_iff.mp h
    obtain rfl := Except.ok.inj h
    obtain ⟨record, -, hrecord⟩ := bind_eq_ok_iff.mp hproto
    obtain rfl := Except.ok.inj hrecord
    rw [List.map_cons, List.map_cons, ih hprotos]
    rfl

theorem job?_report {h : Handled} {job : BackgroundJob N} (hjob : h.job? S minIdle = some job) :
    (job.streamId, job.autoclaimed, job.idleMs) = report minIdle (h.autoclaimed, h.entry) := by
  rw [Handled.job?] at hjob
  split at hjob
  · obtain rfl := Option.some.inj hjob
    rfl
  · cases hjob

theorem pending?_report {h : Handled} {job : PendingBackgroundJob}
    (hjob : h.pending? S minIdle = some job) :
    job.report = report minIdle (h.autoclaimed, h.entry) := by
  rw [Handled.pending?] at hjob
  split at hjob
  · obtain rfl := Option.some.inj hjob
    rfl
  · cases hjob

theorem ack?_eq_some {h : Handled} {group : String} {ack : String × String}
    (hack : h.ack? S group = some ack) : ack.2 = h.entry.id ∧ ack.1 = group := by
  rw [Handled.ack?] at hack
  split at hack
  · obtain rfl := Option.some.inj hack
    exact ⟨rfl, rfl⟩
  · cases hack

theorem Handled.isSome_ack?_iff (h : Handled) (group : String) :
    (h.ack? S group).isSome ↔ h.Unreadable S := by
  rw [← h.fate_eq_dropped_iff, Handled.ack?]
  cases h.fate S <;> simp

theorem Handled.Loaded.isSome_pending?_iff {h : Handled} (hloaded : h.Loaded) (minIdle : ℕ) :
    (h.pending? S minIdle).isSome ↔ h.Unloaded := by
  rw [← hloaded.fate_eq_deferred_iff (S := S), Handled.pending?]
  cases h.fate S <;> simp

theorem Handled.Loaded.isSome_job?_iff {h : Handled} (hloaded : h.Loaded) (minIdle : ℕ) :
    (h.job? S minIdle).isSome ↔ ¬h.Unreadable S ∧ ¬h.Unloaded := by
  rw [← hloaded.fate_eq_deferred_iff (S := S), ← h.fate_eq_dropped_iff, Handled.job?]
  cases h.fate S <;> simp

theorem streamIds_of_mapM {js : List (BackgroundJob N)} {jobs : List ProtoBackgroundJob}
    (h : js.mapM (coreJobToProto S) = .ok jobs) :
    jobs.map ProtoBackgroundJob.streamId = js.map BackgroundJob.streamId := by
  have hfst := congrArg (List.map Prod.fst) (report_of_mapM h)
  rw [List.map_map, List.map_map] at hfst
  exact hfst

section Lists

variable {group : String} {es : List sig.Exchange} {entries : List (Bool × EntryReply)}
  {handled : List Handled}

/-- What is said of the entries handled is said of the entries, in their order. -/
theorem Half.map_sublist {α : Type} (h : Half cfg S group es entries handled)
    (k : Bool × EntryReply → α) :
    (handled.map fun h => k (h.autoclaimed, h.entry)).Sublist (entries.map k) := by
  have heq : handled.map (fun h => k (h.autoclaimed, h.entry)) = (carrying entries).map k := by
    rw [← h.entries, List.map_map]
    rfl
  rw [heq]
  exact List.filter_sublist.map k

theorem Half.nodup (h : Half cfg S group es entries handled) (hdistinct : (idsOf entries).Nodup) :
    (handled.map fun h => h.entry.id).Nodup :=
  (h.map_sublist fun e => e.2.id).nodup hdistinct

variable {jobs : List ProtoBackgroundJob}

/-- **Every entry has its place.** -/
theorem Half.placed (h : Half cfg S group es entries handled) (hdistinct : (idsOf entries).Nodup)
    (hjobs : (handled.filterMap (Handled.job? S · minIdle)).mapM (coreJobToProto S) = .ok jobs)
    {e : Handled} (he : e ∈ handled) :
    EntryPlaced S group es jobs (handled.filterMap (Handled.pending? S · minIdle)) e where
  job := by
    rw [streamIds_of_mapM hjobs, ← (h.handledIn.loaded e he).isSome_job?_iff minIdle]
    exact mem_map_filterMap_iff (fun _ _ hsome => congrArg Prod.fst (job?_report hsome))
      (h.nodup hdistinct) he
  acknowledged := by
    rw [h.handledIn.reads.acks, ← e.isSome_ack?_iff group]
    have hacks := mem_map_filterMap_iff (f := (Handled.ack? S · group)) (g := id)
      (k := fun h => (group, h.entry.id))
      (fun _ _ hsome => Prod.ext (ack?_eq_some hsome).2 (ack?_eq_some hsome).1) ?_ he
    · rwa [List.map_id] at hacks
    · have hinj : Function.Injective fun id : String => (group, id) := fun _ _ h =>
        (Prod.mk.inj h).2
      have hmap := (h.nodup hdistinct).map hinj
      rwa [List.map_map] at hmap
  pending := by
    rw [← (h.handledIn.loaded e he).isSome_pending?_iff (S := S) minIdle]
    exact mem_map_filterMap_iff (fun _ _ hsome => congrArg Prod.fst (pending?_report hsome))
      (h.nodup hdistinct) he
  once := by
    rw [← (h.handledIn.loaded e he).fate_eq_deferred_iff (S := S), ← e.fate_eq_dropped_iff]
    rintro ⟨hdropped, hdeferred⟩
    rw [hdropped] at hdeferred
    cases hdeferred

/-- No identifier is reported twice. -/
theorem Half.distinct (h : Half cfg S group es entries handled)
    (hdistinct : (idsOf entries).Nodup)
    (hjobs : (handled.filterMap (Handled.job? S · minIdle)).mapM (coreJobToProto S) = .ok jobs) :
    (jobs.map ProtoBackgroundJob.streamId ++
      (handled.filterMap (Handled.pending? S · minIdle)).map
        PendingBackgroundJob.streamId).Nodup := by
  have hnodup := h.nodup hdistinct
  have hjobIds : (jobs.map ProtoBackgroundJob.streamId).Sublist
      (handled.map fun h => h.entry.id) := by
    rw [streamIds_of_mapM hjobs]
    exact map_filterMap_sublist (fun _ _ hsome => congrArg Prod.fst (job?_report hsome)) handled
  have hpendingIds : ((handled.filterMap (Handled.pending? S · minIdle)).map
      PendingBackgroundJob.streamId).Sublist (handled.map fun h => h.entry.id) :=
    map_filterMap_sublist (fun _ _ hsome => congrArg Prod.fst (pending?_report hsome)) handled
  refine List.nodup_append'.mpr ⟨hjobIds.nodup hnodup, hpendingIds.nodup hnodup, ?_⟩
  intro id hjob hpending
  obtain ⟨e, he, rfl⟩ := List.mem_map.mp (hjobIds.subset hjob)
  have hplaced := h.placed hdistinct hjobs he
  exact (hplaced.job.mp hjob).2 (hplaced.pending.mp hpending)

end Lists

/-- A claim that returns its lists: the cursor is read, both halves run, the cursor is written. -/
theorem returns_claimBackgroundJobs {claim : ClaimBackgroundJobsRequest} {es : List sig.Exchange}
    {jobs : List ProtoBackgroundJob} {pendingStreamIds : List String}
    {pendingJobs : List PendingBackgroundJob}
    (h : (claimBackgroundJobs cfg S claim).run.Returns es
      (.ok (.claimedJobs jobs pendingStreamIds pendingJobs))) :
    ∃ es₁ es₂ es₃ cursor cursor' batch, es = es₁ ++ (es₂ ++ es₃) ∧ Reads es₁ [] [] [] ∧
      (BackgroundQueue.claimJobs cfg S ⟨claim.consumerGroup, claim.consumerName,
        min (max claim.count.toNat 1) maxClaimCount, claim.blockMs.toNat,
        claim.autoclaimMinIdleMs.toNat⟩ cursor).run.Returns es₂ (.ok (batch, cursor')) ∧
      Reads es₃ [] [] [] ∧ batch.jobs.mapM (coreJobToProto S) = .ok jobs ∧
      pendingStreamIds = batch.pendingStreamIds ∧ pendingJobs = batch.pendingJobs := by
  rw [claimBackgroundJobs] at h
  split_ifs at h
  · cases (returns_ret.mp h).2
  · dsimp only at h
    -- the cursor, the two halves, the cursor again, the answer
    obtain ⟨es₁, es₂, cursor, rfl, hread, hrest⟩ := h.bind_ok
    obtain ⟨r, hget, hr⟩ := returns_rpc.mp hread
    obtain rfl := mapError_eq_ok_iff.mp hr.symm
    obtain ⟨es₂, es₃, ⟨batch, cursor'⟩, rfl, hjobs, hrest'⟩ := hrest.bind_ok
    obtain ⟨r, hclaim, hr⟩ := returns_rpc.mp hjobs
    obtain rfl := mapError_eq_ok_iff.mp hr.symm
    obtain ⟨es₃, es₄, written, rfl, hwrite, hanswer⟩ := hrest'.bind_ok
    obtain ⟨r, hset, -⟩ := returns_rpc.mp hwrite
    obtain ⟨es₄, es₅, jobs', rfl, hprint, hreturn⟩ := hanswer.bind_ok
    obtain ⟨rfl, hmap⟩ := returns_ret.mp hprint
    obtain ⟨rfl, heq⟩ := returns_ret.mp hreturn
    obtain ⟨rfl, rfl, rfl⟩ := Response.claimedJobs.inj (Except.ok.inj heq)
    refine ⟨es₁, es₂, es₃, cursor, cursor', batch, by simp, ?_, hclaim, ?_,
      mapError_eq_ok_iff.mp hmap.symm, rfl, rfl⟩
    · rw [BackgroundQueue.getAutoclaimCursor] at hget
      obtain ⟨es₁, es₂, text, rfl, hget, hrest⟩ := hget.bind_ok
      obtain ⟨r, hget, -⟩ := returns_storage.mp hget
      obtain rfl := returns_call.mp hget
      obtain ⟨rfl, -⟩ := returns_return.mp hrest
      exact ⟨rfl, rfl, rfl⟩
    · obtain ⟨r', hset, -⟩ := returns_outcome.mp hset
      rw [BackgroundQueue.setAutoclaimCursor] at hset
      obtain ⟨r'', hset, -⟩ := returns_storage.mp hset
      obtain rfl := returns_call.mp hset
      exact ⟨rfl, rfl, rfl⟩

/-- **A claim partitions what it was handed.** Each entry that carries a response is in one place:
among the jobs, among the pending jobs if all its loads failed, or acknowledged if it has no
readable record. The lists keep the order of the replies, name no identifier twice and are no
longer than what was asked for. -/
theorem claim_batch_partition [DecidableEq N] {delivered : String → Prop} {fuel : ℕ}
    {claim : ClaimBackgroundJobsRequest} {es : List sig.Exchange} {jobs : List ProtoBackgroundJob}
    {pendingStreamIds : List String} {pendingJobs : List PendingBackgroundJob}
    (h : (serve cfg S fuel (.claimBackgroundJobs claim)).Returns es
      (.ok (.claimedJobs jobs pendingStreamIds pendingJobs)))
    (hredis : RedisReplies delivered es) :
    ∃ handled, ClaimPartition cfg S claim es jobs pendingStreamIds pendingJobs handled := by
  obtain ⟨es₁, es₂, es₃, cursor, cursor', batch, rfl, hbefore, hclaim, hafter, hjobs, rfl, rfl⟩ :=
    returns_claimBackgroundJobs h
  obtain ⟨entries, handled, hhalf, rfl, hassumed⟩ := returns_claimJobs delivered hclaim
  obtain ⟨hcount, hdistinct⟩ := hassumed
    (hredis.mono fun e he => List.mem_append_right _ (List.mem_append_left _ he))
  -- the commands about the cursor carry no entries
  have hwhole : Half cfg S claim.consumerGroup (es₁ ++ (es₂ ++ es₃)) entries handled := by
    have happend := (half_nil hbefore).append (hhalf.append (half_nil hafter))
    rwa [List.append_nil, List.append_nil] at happend
  have hentries := hwhole.handledIn.reads.entries
  refine ⟨handled, ?_⟩
  exact
    { entries := hentries ▸ hwhole.entries
      loaded := hwhole.handledIn.loaded
      loads := hwhole.handledIn.reads.loads
      placed := fun e he => hwhole.placed hdistinct hjobs he
      jobOrder := by
        rw [hentries, report_of_mapM hjobs]
        exact (map_filterMap_sublist (fun _ _ hsome => job?_report hsome) handled).trans
          (hwhole.map_sublist _)
      pendingOrder := by
        rw [hentries]
        exact (map_filterMap_sublist (fun _ _ hsome => pending?_report hsome) handled).trans
          (hwhole.map_sublist _)
      distinct := hwhole.distinct hdistinct hjobs
      pendingIds := rfl
      -- the answer has one job for each job of the batch
      count := by
        have hlength := congrArg List.length (report_of_mapM hjobs)
        rw [List.length_map, List.length_map] at hlength
        rw [hlength]
        exact hcount }

end Answers

namespace Sample

/-- A claim of up to four jobs, those idle for a minute first. -/
def claimFour : ClaimBackgroundJobsRequest := ⟨"workers", "w", 4, 0, 60000⟩

/-- A claim that is handed three entries: the record of the first is there, that of the second is
gone, and that of the third cannot be loaded. -/
def claimTranscript : List sig.Exchange :=
  let failed : sig.Exchange := ⟨.get (ResponseStore.key config "resp_3"), .error (.reply "down")⟩
  [⟨.getCursor (autoclaimCursorKey config.streamKey "workers"), .ok none⟩,
    ⟨.stream (.xautoclaim "workers" "w" 60000 "0-0" 4),
      .ok ⟨"0-0", [⟨"1-0", [("response_id", "resp_1")]⟩, ⟨"2-0", [("response_id", "resp_2")]⟩]⟩⟩,
    ⟨.get key, .ok (some queuedText)⟩,
    ⟨.get (ResponseStore.key config "resp_2"), .ok none⟩,
    ⟨.stream (.xack "workers" "2-0"), .ok 1⟩,
    ⟨.stream (.xreadgroup "workers" "w" 3 none), .ok (some [⟨"3-0", [("response_id", "resp_3")]⟩])⟩,
    failed, ⟨.sleep, ()⟩, failed, ⟨.sleep, ()⟩, failed,
    ⟨.cursorScript (autoclaimCursorKey config.streamKey "workers") "0-0", .ok ()⟩]

theorem redisReplies_claimTranscript :
    RedisReplies (· ∈ ["1-0", "2-0"]) claimTranscript := by
  constructor
  · intro group consumer minIdle start count reply hmem
    simp only [claimTranscript, List.mem_cons, List.not_mem_nil, or_false, Sigma.mk.injEq,
      reduceCtorEq, false_and, false_or, Cmd.stream.injEq] at hmem
    obtain ⟨hcmd, hreply⟩ := hmem
    obtain ⟨-, -, -, -, rfl⟩ := Redis.StreamCmd.xautoclaim.inj hcmd
    obtain rfl := Except.ok.inj (eq_of_heq hreply)
    decide
  · intro group consumer count block entries hmem
    simp only [claimTranscript, List.mem_cons, List.not_mem_nil, or_false, Sigma.mk.injEq,
      reduceCtorEq, false_and, false_or, Cmd.stream.injEq] at hmem
    obtain ⟨hcmd, hreply⟩ := hmem
    obtain ⟨-, -, rfl, -⟩ := Redis.StreamCmd.xreadgroup.inj hcmd
    obtain rfl := Option.some.inj (Except.ok.inj (eq_of_heq hreply))
    decide

/-- The first is a job, the second is acknowledged and the third stays pending. -/
def claimReplay : (serve config serde 8 (.claimBackgroundJobs claimFour)).Replay where
  transcript := claimTranscript
  result := .ok (.claimedJobs [⟨"1-0", "resp_1", queuedRecord, true, some 60000⟩] ["3-0"]
    [⟨"3-0", "resp_3", false, none⟩])
  replays := by decide +kernel

end Sample

theorem claim_batch_partition_three :
    RedisReplies (· ∈ ["1-0", "2-0"]) Sample.claimTranscript ∧
      ∃ handled, ClaimPartition Sample.config Sample.serde Sample.claimFour Sample.claimTranscript
        [⟨"1-0", "resp_1", Sample.queuedRecord, true, some 60000⟩] ["3-0"]
        [⟨"3-0", "resp_3", false, none⟩] handled :=
  ⟨Sample.redisReplies_claimTranscript,
    claim_batch_partition Sample.claimReplay.returns Sample.redisReplies_claimTranscript⟩

end ResponsesApiStore
