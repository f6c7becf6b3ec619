import ResponsesApiStore.System.Conformance

/-!
# The evidence behind an answer

What an answer says about a record, and which exchanges of the request say so. The protocol
`recorded` permits everything and keeps the transcript; a procedure that comes back with a record
has read it at the key, or has written it there with a transaction that went through (`Shown`), and
one that finds nothing has read that nothing is there (`ReadIn`).

There is one lemma for each procedure. Evidence grows with the transcript, so the lemmas hold from
every transcript on, which is what makes the retry loops plain inductions.
-/

namespace ResponsesApiStore

open Json (Value Serde)
open Redis (Error EntryReply)
open Interaction (Program Protocol)
open Interaction.Program

variable {N : Type}

/-- The protocol that keeps the transcript and permits everything. -/
def recorded : Protocol sig (List sig.Exchange) := .ofTranscript fun _ _ => True

/-! ### Evidence -/

section Evidence

variable (cfg : StoreConfig) (S : Serde N) (id : String)

/-- A read of the key of `id` found `text`. -/
def ReadIn (es : List sig.Exchange) (text : Option String) : Prop :=
  (⟨.get (ResponseStore.key cfg id), .ok text⟩ : sig.Exchange) ∈ es ∨
    (⟨.tx (.get (ResponseStore.key cfg id)), .ok text⟩ : sig.Exchange) ∈ es

/-- A transaction with the one write of `payload` to the key of `id` went through. -/
def WroteIn (es : List sig.Exchange) (payload : String) : Prop :=
  ∃ es₁ es₂ ttl n, es = es₁ ++
    (⟨.tx (.setEx (ResponseStore.key cfg id) ttl payload), .ok ()⟩ : sig.Exchange) ::
      ⟨.tx .exec, .ok (some n)⟩ :: es₂

/-- A readable record was read at the key of `id`. -/
def FoundIn (es : List sig.Exchange) (stored : StoredResponse N) : Prop :=
  ∃ text, ReadIn cfg id es (some text) ∧ StoredResponse.ofText S text = .ok stored

/-- The record was read at the key of `id`, or was written there. -/
def Shown (es : List sig.Exchange) (stored : StoredResponse N) : Prop :=
  FoundIn cfg S id es stored ∨ ∃ payload, WroteIn cfg id es payload ∧ stored.toText S = .ok payload

end Evidence

variable {cfg : StoreConfig} {S : Serde N} {id : String} {es : List sig.Exchange} {α : Type}

theorem ReadIn.append {text : Option String} (h : ReadIn cfg id es text)
    (es' : List sig.Exchange) : ReadIn cfg id (es ++ es') text :=
  h.imp (List.mem_append_left es') (List.mem_append_left es')

theorem WroteIn.append {payload : String} (h : WroteIn cfg id es payload)
    (es' : List sig.Exchange) : WroteIn cfg id (es ++ es') payload := by
  obtain ⟨es₁, es₂, ttl, n, rfl⟩ := h
  exact ⟨es₁, es₂ ++ es', ttl, n, by simp⟩

theorem FoundIn.append {stored : StoredResponse N} (h : FoundIn cfg S id es stored)
    (es' : List sig.Exchange) : FoundIn cfg S id (es ++ es') stored := by
  obtain ⟨text, hread, htext⟩ := h
  exact ⟨text, hread.append es', htext⟩

theorem Shown.append {stored : StoredResponse N} (h : Shown cfg S id es stored)
    (es' : List sig.Exchange) : Shown cfg S id (es ++ es') stored := by
  rcases h with hfound | ⟨payload, hwrote, hpayload⟩
  · exact .inl (hfound.append es')
  · exact .inr ⟨payload, hwrote.append es', hpayload⟩

theorem readIn_get (es : List sig.Exchange) (text : Option String) :
    ReadIn cfg id (es ++ [⟨.get (ResponseStore.key cfg id), .ok text⟩]) text := by
  simp [ReadIn]

theorem readIn_txGet (es : List sig.Exchange) (text : Option String) :
    ReadIn cfg id (es ++ [⟨.tx (.get (ResponseStore.key cfg id)), .ok text⟩]) text := by
  simp [ReadIn]

/-! ### Retry loops -/

/-- A postcondition that stays true when the transcript grows. -/
def Grows (Q : List sig.Exchange → α → Prop) : Prop :=
  ∀ es es' a, Q es a → Q (es ++ es') a

/-- The outcome of one attempt: a value, a lost race, or an error; a storage error is retried and
says nothing. -/
def Attempt (Q : List sig.Exchange → Except Fault α → Prop) (es : List sig.Exchange) :
    Except Fault (Option α) → Prop
  | .ok (some a) => Q es (.ok a)
  | .ok none => True
  | .error (.error (.storage _)) => True
  | .error fault => Q es (.error fault)

theorem Attempt.append {Q : List sig.Exchange → Except Fault α → Prop} (hQ : Grows Q)
    {r : Except Fault (Option α)} (h : Attempt Q es r) (es' : List sig.Exchange) :
    Attempt Q (es ++ es') r := by
  rcases r with (err | message | _) | (_ | a)
  · cases err with
    | storage err => trivial
    | _ => exact hQ _ _ _ h
  · exact hQ _ _ _ h
  · exact hQ _ _ _ h
  · trivial
  · exact hQ _ _ _ h

/-- The rule of a retry loop. -/
theorem recorded_round {attempt : Act (Option α)} {left : ℕ} {next : Act α}
    {Q : List sig.Exchange → Except Fault α → Prop} (hQ : Grows Q)
    (hstorage : ∀ es err, Q es (.error (.error (.storage err))))
    (hattempt : ∀ es, attempt.run.Follows recorded (Attempt Q) es)
    (hnext : ∀ es, next.run.Follows recorded Q es) (es : List sig.Exchange) :
    (ResponseStore.round attempt left next).run.Follows recorded Q es := by
  simp only [ResponseStore.round, ResponseStore.locked, follows_except_bind_iff, ask, follows_lift,
    follows_ignore, follows_outcome, follows_return, send, call, follows_cmd, follows_ret]
  refine ⟨trivial, fun _ => ⟨trivial, fun _ => ?_⟩⟩
  refine (hattempt _).mono fun es' r hr => ⟨trivial, fun _ => ?_⟩
  replace hr := hr.append hQ [(⟨.unlock, ()⟩ : sig.Exchange)]
  rcases r with (err | message | _) | (_ | a)
  · cases err with
    | storage err =>
      simp only [ResponseStore.resetTransactionConnection, follows_except_bind_iff,
        follows_storage, ask, follows_lift, send, call, follows_cmd, follows_ret]
      refine ⟨trivial, fun reply => ?_⟩
      rcases reply with e | _
      · exact hstorage _ e
      refine ⟨trivial, fun _ => ⟨trivial, fun _ => ⟨trivial, fun _ => ?_⟩⟩⟩
      split_ifs
      · exact hstorage _ err
      · exact hnext _
    | _ => exact hr
  · exact hr
  · exact hr
  · exact hnext _
  · exact hr

/-- The end of a transaction: if it says that it went through, the write is in the transcript. -/
theorem recorded_commit {ttl : UInt64} {payload : String}
    {Q : List sig.Exchange → Except Fault Bool → Prop} (es : List sig.Exchange)
    (hwon : ∀ es', WroteIn cfg id (es ++ es') payload → Q (es ++ es') (.ok true))
    (hlost : ∀ es', Q (es ++ es') (.ok false))
    (herror : ∀ es' err, Q (es ++ es') (.error (storageFault err))) :
    (ResponseStore.commit (ResponseStore.key cfg id) ttl payload).run.Follows recorded Q es := by
  simp only [ResponseStore.commit, follows_except_bind_iff, follows_storage, follows_return,
    send, call, follows_cmd, follows_ret]
  refine ⟨trivial, fun multi => ?_⟩
  rcases multi with e | _
  · exact herror _ e
  refine ⟨trivial, fun setEx => ?_⟩
  rcases setEx with e | _
  · show Q (es ++ [_] ++ [_]) _
    rw [List.append_assoc]
    exact herror _ e
  refine ⟨trivial, fun exec => ?_⟩
  rcases exec with e | (_ | n)
  · show Q (es ++ [_] ++ [_] ++ [_]) _
    rw [List.append_assoc, List.append_assoc]
    exact herror _ e
  · show Q (es ++ [_] ++ [_] ++ [_]) _
    rw [List.append_assoc, List.append_assoc]
    exact hlost _
  · show Q (es ++ [_] ++ [_] ++ [_]) _
    rw [List.append_assoc, List.append_assoc]
    exact hwon _ ⟨es ++ [⟨.tx .multi, .ok ()⟩], [], ttl, n, by simp⟩

/-! ### Transitions -/

/-- What is behind an error: `id` is not found where nothing was read, or a record that is
`missing`; a precondition fails of a record that `refuses` with this message. -/
def Justified (cfg : StoreConfig) (S : Serde N) (id : String) (missing : StoredResponse N → Prop)
    (refuses : StoredResponse N → String → Prop) (es : List sig.Exchange) : Fault → Prop
  | .error (.notFound id') => id' = id ∧
    (ReadIn cfg id es none ∨ ∃ stored, FoundIn cfg S id es stored ∧ missing stored)
  | .error (.failedPrecondition message) =>
    ∃ stored, FoundIn cfg S id es stored ∧ refuses stored message
  | _ => True

/-- What is behind the result of a procedure that hands out a record of `id`. -/
def Backed (cfg : StoreConfig) (S : Serde N) (id : String) (missing : StoredResponse N → Prop)
    (refuses : StoredResponse N → String → Prop) (record : α → StoredResponse N)
    (es : List sig.Exchange) : Except Fault α → Prop
  | .ok a => Shown cfg S id es (record a)
  | .error fault => Justified cfg S id missing refuses es fault

section Backed

variable {missing : StoredResponse N → Prop} {refuses : StoredResponse N → String → Prop}
  {record : α → StoredResponse N}

theorem Justified.append {fault : Fault} (h : Justified cfg S id missing refuses es fault)
    (es' : List sig.Exchange) : Justified cfg S id missing refuses (es ++ es') fault := by
  rcases fault with (_ | _ | _ | _ | _ | _) | _ | _
  case error.notFound =>
    obtain ⟨rfl, hread | ⟨stored, hfound, hmissing⟩⟩ := h
    · exact ⟨rfl, .inl (hread.append es')⟩
    · exact ⟨rfl, .inr ⟨stored, hfound.append es', hmissing⟩⟩
  case error.failedPrecondition =>
    obtain ⟨stored, hfound, hrefuses⟩ := h
    exact ⟨stored, hfound.append es', hrefuses⟩
  all_goals trivial

theorem grows_backed : Grows (Backed cfg S id missing refuses record) := by
  rintro es es' (fault | a) h
  · exact Justified.append h es'
  · exact Shown.append h es'

/-- An error that an attempt does not retry is the error of the loop. -/
theorem attempt_error {fault : Fault} (h : Justified cfg S id missing refuses es fault) :
    Attempt (Backed cfg S id missing refuses record) es (.error fault) := by
  rcases fault with (_ | _ | _ | _ | _ | _) | _ | _
  case error.storage => trivial
  all_goals exact h

end Backed

/-- The refusals of a transition. -/
def RefusedBy {T : Type} (id : String)
    (prepare : StoredResponse N → String → Except Fault (StoredResponse N × T))
    (stored : StoredResponse N) (message : String) : Prop :=
  prepare stored id = .error (.error (.failedPrecondition message))

section Transition

variable {T : Type} {prepare : StoredResponse N → String → Except Fault (StoredResponse N × T)}

theorem recorded_transitionValues {raw : String}
    {Q : List sig.Exchange → Except Fault (StoredResponse N × String × UInt64 × T) → Prop}
    (hprepare : ∀ stored message, prepare stored id ≠ .error (.error (.notFound message)))
    (hread : ReadIn cfg id es (some raw))
    (hok : ∀ es' updated payload ttl result, updated.toText S = .ok payload →
      Q (es ++ es') (.ok (updated, payload, ttl, result)))
    (herror : ∀ es' fault,
      Justified cfg S id (fun _ => False) (RefusedBy id prepare) (es ++ es') fault →
      Q (es ++ es') (.error fault)) :
    (ResponseStore.transitionValues cfg S (ResponseStore.key cfg id) id raw prepare).run.Follows
      recorded Q es := by
  have herror' : ∀ fault, Justified cfg S id (fun _ => False) (RefusedBy id prepare) es fault →
      Q es (.error fault) := by
    intro fault h
    have herr := herror [] fault (h.append [])
    rwa [List.append_nil] at herr
  simp only [ResponseStore.transitionValues, follows_except_bind_iff, follows_ofExcept,
    follows_storage, follows_return, send, call, follows_cmd, follows_ret]
  rcases hstored : StoredResponse.ofText S raw with message | stored
  · simp only [ResponseStore.decode, hstored, Except.mapError]
    exact herror' _ trivial
  simp only [ResponseStore.decode, hstored, Except.mapError]
  rcases hprep : prepare stored id with fault | ⟨updated, result⟩
  · refine herror' fault ?_
    rcases fault with (_ | _ | message | _ | _ | _) | _ | _
    case error.notFound => exact absurd hprep (hprepare stored _)
    case error.failedPrecondition => exact ⟨stored, ⟨raw, hread, hstored⟩, hprep⟩
    all_goals trivial
  dsimp only
  rcases hpayload : updated.toText S with message | payload
  · simp only [ResponseStore.encode, hpayload, Except.mapError]
    exact herror' _ trivial
  simp only [ResponseStore.encode, hpayload, Except.mapError]
  refine ⟨trivial, fun ttl => ?_⟩
  rcases ttl with e | ttl
  · exact herror _ _ trivial
  · exact hok _ _ _ _ _ hpayload

theorem recorded_transitionAttempt
    (hprepare : ∀ stored message, prepare stored id ≠ .error (.error (.notFound message)))
    (es : List sig.Exchange) :
    (ResponseStore.transitionAttempt cfg S (ResponseStore.key cfg id) id prepare).run.Follows
      recorded (Attempt (Backed cfg S id (fun _ => False) (RefusedBy id prepare) Prod.fst))
      es := by
  simp only [ResponseStore.transitionAttempt, follows_except_bind_iff, follows_storage, send,
    call, follows_cmd, follows_ret]
  refine ⟨trivial, fun watch => ?_⟩
  rcases watch with e | _
  · trivial
  refine ⟨trivial, fun get => ?_⟩
  rcases get with e | (_ | raw)
  · trivial
  · simp only [Except.mapError, follows_except_bind_iff, follows_ignore, follows_raise]
    exact ⟨trivial, fun _ => ⟨rfl, .inl ((readIn_txGet _ _).append _)⟩⟩
  simp only [Except.mapError, follows_except_bind_iff, follows_outcome]
  refine recorded_transitionValues hprepare (readIn_txGet _ raw) ?_ ?_
  · intro es' updated payload ttl result hpayload
    simp only [follows_except_bind_iff]
    refine recorded_commit _ ?_ ?_ ?_
    · exact fun es'' hwrote => .inr ⟨payload, hwrote, hpayload⟩
    · exact fun es'' => trivial
    · exact fun es'' err => trivial
  · rintro es' (err | message | _) h
    · simp only [follows_except_bind_iff, follows_ignore, follows_raise]
      exact ⟨trivial, fun _ => attempt_error (h.append _)⟩
    · exact h
    · exact h

theorem recorded_transitionAtomic
    (hprepare : ∀ stored message, prepare stored id ≠ .error (.error (.notFound message)))
    (es : List sig.Exchange) :
    (ResponseStore.transitionAtomic cfg S id prepare).run.Follows recorded
      (Backed cfg S id (fun _ => False) (RefusedBy id prepare) Prod.fst) es := by
  rw [ResponseStore.transitionAtomic]
  induction ResponseStore.maxAttempts generalizing es with
  | zero => trivial
  | succ left ih =>
    rw [ResponseStore.transitionAttempts]
    exact recorded_round grows_backed (fun _ _ => trivial) (recorded_transitionAttempt hprepare)
      ih es

end Transition

/-! ### Reads and the stale reconcile -/

/-- What is behind the result of a read by id. A tombstone counts as missing. -/
abbrev BackedRead (cfg : StoreConfig) (S : Serde N) (id : String) :
    List sig.Exchange → Except Fault (StoredResponse N) → Prop :=
  Backed cfg S id (isDeletedTombstone · = true) (fun _ _ => False) fun record => record

theorem recorded_reconcileStaleTransactionAttempt {now staleSeconds : Int64}
    (es : List sig.Exchange) :
    (ResponseStore.reconcileStaleTransactionAttempt cfg S (ResponseStore.key cfg id) id now
      staleSeconds).run.Follows recorded (Attempt (BackedRead cfg S id)) es := by
  simp only [ResponseStore.reconcileStaleTransactionAttempt, follows_except_bind_iff,
    follows_storage, send, call, follows_cmd, follows_ret]
  refine ⟨trivial, fun watch => ?_⟩
  rcases watch with e | _
  · trivial
  refine ⟨trivial, fun get => ?_⟩
  rcases get with e | (_ | raw)
  · trivial
  · simp only [Except.mapError, follows_except_bind_iff, follows_ignore, follows_raise]
    exact ⟨trivial, fun _ => ⟨rfl, .inl ((readIn_txGet _ _).append _)⟩⟩
  simp only [Except.mapError]
  rcases hstored : StoredResponse.ofText S raw with e | stored
  · simp only [follows_except_bind_iff, follows_ignore, follows_raise]
    exact ⟨trivial, fun _ => trivial⟩
  dsimp only
  split_ifs with hskip
  · simp only [follows_except_bind_iff, follows_ignore, follows_return]
    exact ⟨trivial, fun _ => .inl ⟨raw, (readIn_txGet _ _).append _, hstored⟩⟩
  rcases hpayload : (applyStaleFailure stored id).toText S with e | payload
  · simp only [follows_except_bind_iff, follows_ignore, follows_raise]
    exact ⟨trivial, fun _ => trivial⟩
  simp only [follows_except_bind_iff, follows_outcome, follows_storage, follows_cmd, follows_ret]
  refine ⟨trivial, fun ttl => ?_⟩
  rcases ttl with e | ttl
  · simp only [Except.mapError, follows_except_bind_iff, follows_ignore, follows_throw]
    exact ⟨trivial, fun _ => trivial⟩
  simp only [Except.mapError, follows_except_bind_iff]
  refine recorded_commit _ ?_ ?_ ?_
  · exact fun es' hwrote => .inr ⟨payload, hwrote, hpayload⟩
  · exact fun es' => trivial
  · exact fun es' err => trivial

theorem recorded_reconcileStaleAtomic {now staleSeconds : Int64} (es : List sig.Exchange) :
    (ResponseStore.reconcileStaleAtomic cfg S id now staleSeconds).run.Follows recorded
      (BackedRead cfg S id) es := by
  rw [ResponseStore.reconcileStaleAtomic]
  induction ResponseStore.maxAttempts generalizing es with
  | zero =>
    rw [ResponseStore.reconcileStaleAttempts, follows_except_bind_iff, follows_load_iff]
    refine ⟨trivial, fun reply => ?_⟩
    rcases reply with e | (_ | text)
    · trivial
    · exact ⟨rfl, .inl (readIn_get _ _)⟩
    · rcases hstored : StoredResponse.ofText S text with e | stored
      · simp only [ResponseStore.decode, hstored, Except.mapError, Except.map]
        trivial
      · simp only [ResponseStore.decode, hstored, Except.mapError, Except.map]
        exact .inl ⟨text, readIn_get _ _, hstored⟩
  | succ left ih =>
    rw [ResponseStore.reconcileStaleAttempts]
    exact recorded_round grows_backed (fun _ _ => trivial)
      recorded_reconcileStaleTransactionAttempt ih es

theorem recorded_reconcileStaleResponse {stored : StoredResponse N} {staleSeconds : Int64}
    (hfound : FoundIn cfg S id es stored) :
    (ResponseStore.reconcileStaleResponse cfg S id stored staleSeconds).run.Follows recorded
      (BackedRead cfg S id) es := by
  rw [ResponseStore.reconcileStaleResponse]
  split_ifs
  · exact .inl hfound
  simp only [follows_except_bind_iff, ask, follows_lift, send, call, follows_cmd, follows_ret]
  refine ⟨trivial, fun now => ?_⟩
  split_ifs
  · exact .inl (hfound.append _)
  · exact recorded_reconcileStaleAtomic _

/-- The first read of a request by id. -/
theorem recorded_found {α : Type} {id : String} {es : List sig.Exchange}
    {Q : List sig.Exchange → Except Fault α → Prop} {next : StoredResponse N → Act α}
    (hnext : ∀ es stored, FoundIn cfg S id es stored → isDeletedTombstone stored = false →
      (next stored).run.Follows recorded Q es)
    (herror : ∀ es err, Justified cfg S id (isDeletedTombstone · = true) (fun _ _ => False) es
      (.error err) → Q es (.error (.error err))) :
    (ResponseStore.load cfg S id >>= fun
      | none => raise (.notFound id)
      | some stored =>
        if isDeletedTombstone stored then raise (.notFound id) else next stored).run.Follows
      recorded Q es := by
  rw [follows_except_bind_iff, follows_load_iff]
  refine ⟨trivial, fun reply => ?_⟩
  rcases reply with e | (_ | text)
  · exact herror _ _ trivial
  · exact herror _ _ ⟨rfl, .inl (readIn_get _ _)⟩
  rcases hstored : StoredResponse.ofText S text with e | stored
  · simp only [ResponseStore.decode, hstored, Except.mapError, Except.map]
    exact herror _ _ trivial
  simp only [ResponseStore.decode, hstored, Except.mapError, Except.map]
  have hfound : FoundIn cfg S id (es ++ [⟨.get (ResponseStore.key cfg id), .ok (some text)⟩])
      stored := ⟨text, readIn_get _ _, hstored⟩
  split_ifs with hdeleted
  · exact herror _ _ ⟨rfl, .inr ⟨stored, hfound, hdeleted⟩⟩
  · exact hnext _ stored hfound (by simpa using hdeleted)

/-- A read by id. -/
theorem recorded_get {reconcileStale : Bool} {es : List sig.Exchange} :
    (ResponseStore.get cfg S id reconcileStale).run.Follows recorded (BackedRead cfg S id) es := by
  rw [ResponseStore.get]
  refine recorded_found (fun es' stored hfound _ => ?_) fun es' err h => h
  split_ifs
  · exact recorded_reconcileStaleResponse hfound
  · exact .inl hfound

/-- A read by id that does not reconcile. -/
theorem recorded_get_plain {es : List sig.Exchange} :
    (ResponseStore.get cfg S id false).run.Follows recorded (fun es r => match r with
      | .ok stored => FoundIn cfg S id es stored
      | .error fault =>
        Justified cfg S id (isDeletedTombstone · = true) (fun _ _ => False) es fault) es := by
  rw [ResponseStore.get]
  exact recorded_found (fun es' stored hfound _ => hfound) fun es' err h => h

/-! ### Batches -/

/-- Every job of a batch carries a record that was found under its id. -/
def JobsFound (cfg : StoreConfig) (S : Serde N) (es : List sig.Exchange)
    (batch : ClaimBatchResult N) : Prop :=
  ∀ job ∈ batch.jobs, FoundIn cfg S job.responseId es job.record

theorem JobsFound.append {batch : ClaimBatchResult N} (h : JobsFound cfg S es batch)
    (es' : List sig.Exchange) : JobsFound cfg S (es ++ es') batch :=
  fun job hjob => (h job hjob).append es'

theorem jobsFound_empty (es : List sig.Exchange) : JobsFound cfg S es .empty := by
  intro job hjob
  cases hjob

theorem recorded_loadWithRetries {P : List sig.Exchange → Prop}
    (hP : ∀ es es', P es → P (es ++ es')) (hes : P es) :
    (BackgroundQueue.loadWithRetries cfg S id).run.Follows recorded (fun es r => P es ∧
      ∀ record, r = .ok (some record) → FoundIn cfg S id es record) es := by
  rw [BackgroundQueue.loadWithRetries]
  induction BackgroundQueue.loadRetryAttempts generalizing es with
  | zero => exact ⟨hes, fun record h => by cases h⟩
  | succ left ih =>
    rw [BackgroundQueue.loadAttempts, follows_except_bind_iff, follows_outcome, follows_load_iff]
    refine ⟨trivial, fun reply => ?_⟩
    rcases reply with e | (_ | text)
    · simp only [storageFault]
      split_ifs
      · exact ⟨hP _ _ hes, fun record h => by cases h⟩
      · simp only [follows_except_bind_iff, ask, follows_lift, send, call, follows_cmd,
          follows_ret]
        exact ⟨trivial, fun _ => ih (hP _ _ (hP _ _ hes))⟩
    · exact ⟨hP _ _ hes, fun record h => by cases h⟩
    · rcases hstored : StoredResponse.ofText S text with e | stored
      · simp only [ResponseStore.decode, hstored, Except.mapError, Except.map]
        exact ⟨hP _ _ hes, fun record h => by cases h⟩
      · simp only [ResponseStore.decode, hstored, Except.mapError, Except.map]
        refine ⟨hP _ _ hes, ?_⟩
        rintro record ⟨⟩
        exact ⟨text, readIn_get _ _, hstored⟩

/-- Loading a batch: every job that is added was found. -/
theorem recorded_jobsFromStreamIds {group : String} {autoclaimed : Bool} {idleMs : Option ℕ}
    {entries : List EntryReply} {batch : ClaimBatchResult N} {P : List sig.Exchange → Prop}
    (hP : ∀ es es', P es → P (es ++ es')) (hes : P es) (hbatch : JobsFound cfg S es batch) :
    (BackgroundQueue.jobsFromStreamIds cfg S group autoclaimed idleMs entries batch).run.Follows
      recorded (fun es r => P es ∧ ∀ batch, r = .ok batch → JobsFound cfg S es batch) es := by
  induction entries generalizing es batch with
  | nil =>
    refine ⟨hes, ?_⟩
    rintro batch ⟨⟩
    exact hbatch
  | cons entry entries ih =>
    rw [BackgroundQueue.jobsFromStreamIds]
    rcases BackgroundQueue.entryField entry "response_id" with _ | id
    · exact ih hes hbatch
    simp only [follows_except_bind_iff, follows_outcome]
    refine (recorded_loadWithRetries (P := fun es => P es ∧ JobsFound cfg S es batch)
      (fun es es' h => ⟨hP es es' h.1, h.2.append es'⟩) ⟨hes, hbatch⟩).mono ?_
    rintro es' r ⟨⟨hes', hbatch'⟩, hr⟩
    -- an entry that is dropped leaves the batch as it is, whatever the acknowledgement says
    have hdrop : (outcome (BackgroundQueue.acknowledge group entry.id) >>= fun _ =>
        BackgroundQueue.jobsFromStreamIds cfg S group autoclaimed idleMs entries batch).run.Follows
        recorded (fun es r => P es ∧ ∀ batch, r = .ok batch → JobsFound cfg S es batch) es' := by
      simp only [BackgroundQueue.acknowledge, follows_except_bind_iff, follows_outcome,
        follows_storage, send, call, follows_cmd, follows_ret]
      refine ⟨trivial, fun reply => ?_⟩
      rcases reply with e | acked
      · exact ih (hP _ _ hes') (hbatch'.append _)
      · simp only [Except.mapError]
        split_ifs <;> exact ih (hP _ _ hes') (hbatch'.append _)
    rcases r with ((_ | _ | _ | _ | _ | _) | _ | _) | (_ | record)
    case error.error.storage => exact ih hes' hbatch'
    case error.error.serialization => exact hdrop
    case ok.none => exact hdrop
    case ok.some =>
      refine ih hes' fun job hjob => ?_
      rcases List.mem_append.mp hjob with hjob | hjob
      · exact hbatch' job hjob
      · obtain rfl := List.mem_singleton.mp hjob
        exact hr record rfl
    all_goals exact ⟨hes', fun batch h => by cases h⟩

theorem recorded_claimIdle {options : ClaimOptions} {cursor : String} (es : List sig.Exchange) :
    (BackgroundQueue.claimIdle cfg S options cursor).run.Follows recorded
      (fun es r => ∀ x, r = .ok x → JobsFound cfg S es x.1) es := by
  rw [BackgroundQueue.claimIdle]
  split_ifs
  · simp only [BackgroundQueue.autoclaim, follows_except_bind_iff, follows_storage, send, call,
      follows_cmd, follows_ret]
    refine ⟨trivial, fun reply => ?_⟩
    rcases reply with e | reply
    · rintro x ⟨⟩
    · refine (recorded_jobsFromStreamIds (P := fun _ => True) (fun _ _ h => h) trivial
        (jobsFound_empty _)).mono ?_
      rintro es' (fault | batch) ⟨-, hbatch⟩
      · rintro x ⟨⟩
      · rintro x ⟨⟩
        exact hbatch batch rfl
  · rintro x ⟨⟩
    exact jobsFound_empty es

theorem recorded_readGroup {group name : String} {count blockMs : ℕ}
    {Q : List sig.Exchange → Except Fault (List EntryReply) → Prop} (es : List sig.Exchange)
    (hQ : ∀ es' r, Q (es ++ es') r) :
    (BackgroundQueue.readGroup group name count blockMs).run.Follows recorded Q es := by
  have hread : ∀ es', ∀ block, (storage (send (.stream (.xreadgroup group name count block))) >>=
      fun replies => pure (replies.getD [])).run.Follows recorded Q (es ++ es') := by
    intro es' block
    simp only [follows_except_bind_iff, follows_storage, send, call, follows_cmd, follows_ret]
    refine ⟨trivial, fun reply => ?_⟩
    rcases reply with e | entries
    · show Q (es ++ es' ++ [_]) _
      rw [List.append_assoc]
      exact hQ _ _
    · show Q (es ++ es' ++ [_]) _
      rw [List.append_assoc]
      exact hQ _ _
  rw [BackgroundQueue.readGroup]
  split_ifs
  · have h := hread [] none
    rwa [List.append_nil] at h
  · rw [follows_except_bind_iff]
    simp only [follows_storage, send, call, follows_cmd, follows_ret]
    refine ⟨trivial, fun reply => ?_⟩
    rcases reply with e | _
    · exact hQ _ _
    · exact hread _ _

theorem recorded_claimNew {options : ClaimOptions} {result : ClaimBatchResult N}
    (hresult : JobsFound cfg S es result) :
    (BackgroundQueue.claimNew cfg S options result).run.Follows recorded
      (fun es r => ∀ batch, r = .ok batch → JobsFound cfg S es batch) es := by
  rw [BackgroundQueue.claimNew]
  split
  swap
  · rintro batch ⟨⟩
    exact hresult
  rw [follows_except_bind_iff, follows_outcome]
  refine recorded_readGroup es ?_
  rintro es' ((err | _ | _) | entries)
  · dsimp only
    split_ifs
    · rintro batch ⟨⟩
      exact hresult.append es'
    · rintro batch ⟨⟩
  · rintro batch ⟨⟩
  · rintro batch ⟨⟩
  simp only [follows_except_bind_iff, follows_outcome]
  refine (recorded_jobsFromStreamIds (P := fun es => JobsFound cfg S es result)
    (fun _ es' h => h.append es') (hresult.append es') (jobsFound_empty _)).mono ?_
  rintro es'' ((err | _ | _) | batch) ⟨hresult', hbatch⟩
  · dsimp only
    split_ifs
    · rintro batch ⟨⟩
      exact hresult'
    · rintro batch ⟨⟩
  · rintro batch ⟨⟩
  · rintro batch ⟨⟩
  · rintro batch' ⟨⟩
    intro job hjob
    rcases List.mem_append.mp hjob with hjob | hjob
    · exact hresult' job hjob
    · exact hbatch batch rfl job hjob

theorem recorded_claimJobs {options : ClaimOptions} {cursor : String} (es : List sig.Exchange) :
    (BackgroundQueue.claimJobs cfg S options cursor).run.Follows recorded
      (fun es r => ∀ x, r = .ok x → JobsFound cfg S es x.1) es := by
  rw [BackgroundQueue.claimJobs, follows_except_bind_iff]
  refine (recorded_claimIdle es).mono ?_
  rintro es' (fault | ⟨result, cursor'⟩) hidle
  · rintro x ⟨⟩
  · simp only [follows_except_bind_iff]
    refine (recorded_claimNew (hidle _ rfl)).mono ?_
    rintro es'' (fault | batch) hnew
    · rintro x ⟨⟩
    · rintro x ⟨⟩
      exact hnew batch rfl

end ResponsesApiStore
