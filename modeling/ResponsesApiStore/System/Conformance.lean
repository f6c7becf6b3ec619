import ResponsesApiStore.System.Discipline

/-!
# The service keeps the discipline

One lemma for each procedure, from the commands up to `serve_follows`. A lemma about a
transaction starts where the mutex has been taken and gives the knowledge at the end of the
attempt; the retry loops are inductions on the attempts left, whose invariant is that nothing
has been committed so far.
-/

namespace ResponsesApiStore

open Json (Value Serde)
open Redis (Error TxCmd StreamCmd EntryReply)
open Interaction (Program Protocol)
open Interaction.Program

variable {N : Type} {cfg : StoreConfig} {S : Serde N} {request : Request} {g : Knowledge}
  {α : Type}

/-! ### Past the screening -/

/-- A request that does not reconcile, or that has read the clock. -/
def Past (cfg : StoreConfig) (request : Request) (g : Knowledge) : Prop :=
  reconciles cfg request = none ∨ g.now ≠ none

/-- Past the screening, anything else decides whether a command is allowed. -/
theorem Past.screened (h : Past cfg request g) {g' : Knowledge} (c : Cmd)
    (hnow : g'.now = g.now) : Screened cfg S request g' c := by
  intro id staleSeconds hrec hnone
  rcases h with h | h
  · rw [h] at hrec
    cases hrec
  · exact absurd (hnow ▸ hnone) h

theorem Past.of_now {g' : Knowledge} (h : Past cfg request g)
    (hnow : g'.now = g.now) : Past cfg request g' :=
  h.imp_right fun hne => hnow ▸ hne

/-! ### Reads and writes of the store -/

/-- What a load does, under any protocol. -/
theorem follows_load_iff {G : Type} {P : Protocol sig G} {γ : G} {id : String}
    {Q : G → Except Fault (Option (StoredResponse N)) → Prop} :
    (ResponseStore.load cfg S id).run.Follows P Q γ ↔
      P.allowed γ (.get (ResponseStore.key cfg id)) ∧
        ∀ reply : Except Error (Option String),
          Q (P.next γ (.get (ResponseStore.key cfg id)) reply) (match reply with
            | .error e => .error (storageFault e)
            | .ok none => .ok none
            | .ok (some text) => (ResponseStore.decode S text).map some) := by
  simp only [ResponseStore.load, follows_except_bind_iff, follows_storage, send, call,
    follows_cmd, follows_ret]
  refine and_congr Iff.rfl (forall_congr' fun reply => ?_)
  rcases reply with e | (_ | text)
  · rfl
  · rfl
  · simp only [Except.mapError]
    rcases ResponseStore.decode S text with e | r <;> rfl

theorem follows_load {id : String}
    {Q : Knowledge → Except Fault (Option (StoredResponse N)) → Prop} :
    (ResponseStore.load cfg S id).run.Follows (discipline cfg S request) Q g ↔
      Allowed cfg S request g (.get (ResponseStore.key cfg id)) ∧
        ∀ reply : Except Error (Option String),
          Q (g.sawAt (ResponseStore.key cfg id) reply) (match reply with
            | .error e => .error (storageFault e)
            | .ok none => .ok none
            | .ok (some text) => (ResponseStore.decode S text).map some) :=
  follows_load_iff

theorem decode_eq_ok_iff {text : String} {stored : StoredResponse N} :
    ResponseStore.decode S text = .ok stored ↔ StoredResponse.ofText S text = .ok stored :=
  mapError_eq_ok_iff

theorem encode_eq_ok_iff {record : StoredResponse N} {payload : String} :
    ResponseStore.encode S record = .ok payload ↔ record.toText S = .ok payload :=
  mapError_eq_ok_iff

/-- A store fails before it sends anything, or sends the one write. -/
theorem follows_store {id : String} {record : StoredResponse N} {ttl : Option UInt64}
    {Q : Knowledge → Except Fault Unit → Prop}
    (hallowed : ∀ ttl payload, record.toText S = .ok payload →
      Allowed cfg S request g (.setEx (ResponseStore.key cfg id) ttl payload))
    (hok : Q { g with wrote := true } (.ok ())) (herror : ∀ fault, Q g (.error fault)) :
    (ResponseStore.store cfg S id record ttl).run.Follows (discipline cfg S request) Q g := by
  rw [ResponseStore.store]
  split_ifs
  · exact herror _
  · rw [follows_except_bind_iff, follows_ofExcept]
    rcases hpayload : ResponseStore.encode S record with fault | payload
    · exact herror fault
    · simp only [follows_storage, send, call, follows_cmd, follows_ret]
      refine ⟨hallowed _ _ (encode_eq_ok_iff.mp hpayload), fun reply => ?_⟩
      rcases reply with e | _
      · exact herror _
      · exact hok

/-! ### Transactions -/

theorem follows_resetTransactionConnection {Q : Knowledge → Except Fault Unit → Prop}
    (hpast : Past cfg request g) (hidle : g.phase = .idle) (hok : Q g (.ok ()))
    (herror : ∀ fault, Q g (.error fault)) :
    ResponseStore.resetTransactionConnection.run.Follows (discipline cfg S request) Q g := by
  simp only [ResponseStore.resetTransactionConnection, follows_except_bind_iff, follows_storage,
    ask, follows_lift, send, call, follows_cmd, follows_ret]
  refine ⟨⟨hpast.screened _ rfl, hidle⟩, fun reply => ?_⟩
  rcases reply with e | _
  · exact herror _
  · have hback : { g with phase := .idle } = g := by rw [← hidle]
    refine ⟨⟨hpast.screened _ rfl, hidle⟩, fun _ => ⟨⟨hpast.screened _ rfl, rfl⟩, fun _ =>
      ⟨⟨hpast.screened _ rfl, Phase.noConfusion⟩, fun _ => ?_⟩⟩⟩
    exact hback ▸ hok

/-- One attempt: from the mutex taken to the mutex given back. -/
theorem follows_locked {attempt : Act α} {Q : Knowledge → Except Fault (Except Fault α) → Prop}
    (hpast : Past cfg request g) (hidle : g.phase = .idle)
    (hattempt : attempt.run.Follows (discipline cfg S request)
      (fun g' r => g'.phase ≠ .idle ∧ g'.now = g.now ∧ Q { g' with phase := .idle } (.ok r))
      { g with phase := .held }) :
    (ResponseStore.locked attempt).run.Follows (discipline cfg S request) Q g := by
  simp only [ResponseStore.locked, follows_except_bind_iff, ask, follows_lift, follows_ignore,
    follows_outcome, follows_return, send, call, follows_cmd, follows_ret]
  refine ⟨⟨hpast.screened _ rfl, hidle⟩, fun _ => ⟨⟨hpast.screened _ rfl, rfl⟩, fun _ => ?_⟩⟩
  refine hattempt.mono fun g' r h => ?_
  exact ⟨⟨hpast.screened _ h.2.1, h.1⟩, fun _ => h.2.2⟩

/-- What is known at the end of an attempt: either it went through, or nothing was
committed. -/
def Attempted (Won : Knowledge → α → Prop) (now : Option Int64) (g : Knowledge)
    (r : Except Fault (Option α)) : Prop :=
  g.phase ≠ .idle ∧ g.now = now ∧ match r with
    | .ok (some a) => Won { g with phase := .idle } a
    | _ => g.committed = none

/-- What is known at the end of a retry loop. -/
def Settled (Won : Knowledge → α → Prop) (now : Option Int64) (g : Knowledge)
    (r : Except Fault α) : Prop :=
  g.phase = .idle ∧ g.now = now ∧ match r with
    | .ok a => Won g a
    | .error _ => g.committed = none

/-- The rule of a retry loop: the attempt starts with the mutex taken, and what comes next
starts with nothing committed. -/
theorem follows_round {attempt : Act (Option α)} {left : ℕ} {next : Act α}
    {Won : Knowledge → α → Prop} (hpast : Past cfg request g) (hidle : g.phase = .idle)
    (hattempt : attempt.run.Follows (discipline cfg S request) (Attempted Won g.now)
      { g with phase := .held })
    (hnext : ∀ g', g'.phase = .idle → g'.now = g.now → g'.committed = none →
      next.run.Follows (discipline cfg S request) (Settled Won g.now) g') :
    (ResponseStore.round attempt left next).run.Follows (discipline cfg S request)
      (Settled Won g.now) g := by
  rw [ResponseStore.round, follows_except_bind_iff]
  refine follows_locked hpast hidle (hattempt.mono fun g' r ⟨hphase, hnow, hr⟩ =>
    ⟨hphase, hnow, ?_⟩)
  rcases r with fault | (_ | a)
  · rcases fault with (_ | _ | _ | _ | err | _) | _ | _
    case error.storage =>
      simp only [follows_except_bind_iff]
      refine follows_resetTransactionConnection (hpast.of_now hnow) rfl ?_ ?_
      · dsimp only
        split_ifs
        · exact ⟨rfl, hnow, hr⟩
        · exact hnext _ rfl hnow hr
      · exact fun fault => ⟨rfl, hnow, hr⟩
    all_goals exact ⟨rfl, hnow, hr⟩
  · exact hnext _ rfl hnow hr
  · exact ⟨rfl, hnow, hr⟩

/-- The write of an attempt, once the key was read under the watch. -/
theorem follows_commit {key v payload : String} {ttl : UInt64}
    {Q : Knowledge → Except Fault Bool → Prop} (hpast : Past cfg request g)
    (hphase : g.phase = .guarding) (hseen : g.seen = some (key, some v))
    (htransition : Transition cfg S request g.now key v payload)
    (hwon : Q { g with phase := .held, committed := some v } (.ok true))
    (hlost : Q { g with phase := .held } (.ok false))
    (herror : ∀ fault, Q { g with phase := .held } (.error fault)) :
    (ResponseStore.commit key ttl payload).run.Follows (discipline cfg S request) Q g := by
  simp only [ResponseStore.commit, follows_except_bind_iff, follows_storage, follows_return,
    send, call, follows_cmd, follows_ret]
  refine ⟨⟨hpast.screened _ rfl, hphase⟩, fun multi => ?_⟩
  rcases multi with e | _
  · exact herror _
  refine ⟨⟨hpast.screened _ rfl, rfl, v, hseen, htransition⟩, fun setEx => ?_⟩
  rcases setEx with e | _
  · exact herror _
  refine ⟨⟨hpast.screened _ rfl, ttl, payload, rfl⟩, fun exec => ?_⟩
  rcases exec with e | (_ | n)
  · exact herror _
  · exact hlost
  · have htext : g.text = some v := by rw [Knowledge.text, hseen]; rfl
    rw [← htext] at hwon
    exact hwon

/-- The record and the result of a transition that went through come from the text it
replaced. -/
def Replaced (S : Serde N) (id : String)
    (prepare : StoredResponse N → String → Except Fault (StoredResponse N × α))
    (g : Knowledge) (x : StoredResponse N × α) : Prop :=
  ∃ v stored, g.committed = some v ∧ StoredResponse.ofText S v = .ok stored ∧
    prepare stored id = .ok x

theorem follows_transitionValues {id raw : String}
    {prepare : StoredResponse N → String → Except Fault (StoredResponse N × α)}
    {Q : Knowledge → Except Fault (StoredResponse N × String × UInt64 × α) → Prop}
    (hpast : Past cfg request g) (hphase : g.phase = .guarding)
    (hok : ∀ {stored updated : StoredResponse N} {result : α} {payload : String} {ttl : ℤ},
      StoredResponse.ofText S raw = .ok stored → prepare stored id = .ok (updated, result) →
      updated.toText S = .ok payload →
      Q { g with phase := .guarding, ttl := some ttl }
        (.ok (updated, payload, reconcileWriteTtl ttl cfg.ttlSeconds, result)))
    (hrefused : ∀ fault, Q g (.error fault))
    (herror : ∀ fault, Q { g with phase := .held, ttl := none } (.error fault)) :
    (ResponseStore.transitionValues cfg S (ResponseStore.key cfg id) id raw prepare).run.Follows
      (discipline cfg S request) Q g := by
  simp only [ResponseStore.transitionValues, follows_except_bind_iff, follows_ofExcept,
    follows_storage, follows_return, send, call, follows_cmd, follows_ret]
  rcases hstored : ResponseStore.decode S raw with fault | stored
  · exact hrefused fault
  dsimp only
  rcases hprepare : prepare stored id with fault | ⟨updated, result⟩
  · exact hrefused fault
  dsimp only
  rcases hpayload : ResponseStore.encode S updated with fault | payload
  · exact hrefused fault
  refine ⟨⟨hpast.screened _ rfl, hphase⟩, fun ttl => ?_⟩
  rcases ttl with e | ttl
  · exact herror _
  · exact hok (decode_eq_ok_iff.mp hstored) hprepare (encode_eq_ok_iff.mp hpayload)

theorem follows_transitionAttempt {id : String}
    {prepare : StoredResponse N → String → Except Fault (StoredResponse N × α)}
    (hprepare : ∀ {v payload : String} {stored updated : StoredResponse N} {result : α},
      StoredResponse.ofText S v = .ok stored → prepare stored id = .ok (updated, result) →
      updated.toText S = .ok payload →
      Transition cfg S request g.now (ResponseStore.key cfg id) v payload)
    (hpast : Past cfg request g) (hheld : g.phase = .held) (hnone : g.committed = none) :
    (ResponseStore.transitionAttempt cfg S (ResponseStore.key cfg id) id prepare).run.Follows
      (discipline cfg S request) (Attempted (Replaced S id prepare) g.now) g := by
  simp only [ResponseStore.transitionAttempt, follows_except_bind_iff, follows_storage, send,
    call, follows_cmd, follows_ret]
  refine ⟨⟨hpast.screened _ rfl, hheld⟩, fun watch => ?_⟩
  rcases watch with e | _
  · exact ⟨Phase.noConfusion, rfl, hnone⟩
  refine ⟨⟨hpast.screened _ rfl, rfl⟩, fun get => ?_⟩
  rcases get with e | (_ | raw)
  · exact ⟨Phase.noConfusion, rfl, hnone⟩
  · simp only [Except.mapError, follows_except_bind_iff, follows_ignore, follows_raise]
    exact ⟨⟨hpast.screened _ rfl, Phase.noConfusion⟩, fun _ => ⟨Phase.noConfusion, rfl, hnone⟩⟩
  simp only [Except.mapError, follows_except_bind_iff, follows_outcome]
  refine follows_transitionValues (hpast.of_now rfl) rfl ?_ ?_ ?_
  · intro stored updated result payload ttl hstored hprep hpayload
    simp only [follows_except_bind_iff]
    refine follows_commit (hpast.of_now rfl) rfl rfl (hprepare hstored hprep hpayload) ?_ ?_ ?_
    · exact ⟨Phase.noConfusion, rfl, raw, stored, rfl, hstored, hprep⟩
    · exact ⟨Phase.noConfusion, rfl, hnone⟩
    · exact fun fault => ⟨Phase.noConfusion, rfl, hnone⟩
  · rintro (err | message | _)
    · simp only [follows_except_bind_iff, follows_ignore, follows_raise]
      exact ⟨⟨hpast.screened _ rfl, Phase.noConfusion⟩, fun _ => ⟨Phase.noConfusion, rfl, hnone⟩⟩
    · exact ⟨Phase.noConfusion, rfl, hnone⟩
    · exact ⟨Phase.noConfusion, rfl, hnone⟩
  · rintro (err | message | _)
    · simp only [follows_except_bind_iff, follows_ignore, follows_raise]
      exact ⟨⟨hpast.screened _ rfl, Phase.noConfusion⟩, fun _ => ⟨Phase.noConfusion, rfl, hnone⟩⟩
    · exact ⟨Phase.noConfusion, rfl, hnone⟩
    · exact ⟨Phase.noConfusion, rfl, hnone⟩

theorem follows_transitionAtomic {id : String}
    {prepare : StoredResponse N → String → Except Fault (StoredResponse N × α)}
    (hprepare : ∀ {v payload : String} {stored updated : StoredResponse N} {result : α},
      StoredResponse.ofText S v = .ok stored → prepare stored id = .ok (updated, result) →
      updated.toText S = .ok payload →
      Transition cfg S request g.now (ResponseStore.key cfg id) v payload)
    (hpast : Past cfg request g) (hidle : g.phase = .idle) (hnone : g.committed = none) :
    (ResponseStore.transitionAtomic cfg S id prepare).run.Follows (discipline cfg S request)
      (Settled (Replaced S id prepare) g.now) g := by
  rw [ResponseStore.transitionAtomic]
  induction ResponseStore.maxAttempts generalizing g with
  | zero => exact ⟨hidle, rfl, hnone⟩
  | succ left ih =>
    rw [ResponseStore.transitionAttempts]
    refine follows_round hpast hidle ?_ fun g' hidle' hnow hnone' => ?_
    · exact follows_transitionAttempt hprepare (hpast.of_now rfl) rfl hnone
    · rw [← hnow] at hprepare ⊢
      exact ih hprepare (hpast.of_now hnow) hidle' hnone'

/-! ### Reconciling -/

/-- The record a reconcile comes back with: no tombstone, or whatever it has read. -/
def Reread (cfg : StoreConfig) (S : Serde N) (id : String) (g : Knowledge)
    (record : StoredResponse N) : Prop :=
  isDeletedTombstone record = false ∨ g.Found cfg S id record

theorem isDeletedTombstone_applyStaleFailure (stored : StoredResponse N) (id : String) :
    isDeletedTombstone (applyStaleFailure stored id) = false := by
  simp [isDeletedTombstone]

theorem follows_reconcileStaleTransactionAttempt {id : String} {now staleSeconds : Int64}
    (hrequest : reconciles cfg request = some (id, staleSeconds)) (hnow : g.now = some now)
    (hheld : g.phase = .held) (hnone : g.committed = none) :
    (ResponseStore.reconcileStaleTransactionAttempt cfg S (ResponseStore.key cfg id) id now
      staleSeconds).run.Follows (discipline cfg S request)
      (Attempted (Reread cfg S id) g.now) g := by
  have hpast : Past cfg request g := .inr (by simp [hnow])
  simp only [ResponseStore.reconcileStaleTransactionAttempt, follows_except_bind_iff,
    follows_storage, send, call, follows_cmd, follows_ret]
  refine ⟨⟨hpast.screened _ rfl, hheld⟩, fun watch => ?_⟩
  rcases watch with e | _
  · exact ⟨Phase.noConfusion, rfl, hnone⟩
  refine ⟨⟨hpast.screened _ rfl, rfl⟩, fun get => ?_⟩
  rcases get with e | (_ | raw)
  · exact ⟨Phase.noConfusion, rfl, hnone⟩
  · simp only [Except.mapError, follows_except_bind_iff, follows_ignore, follows_raise]
    exact ⟨⟨hpast.screened _ rfl, Phase.noConfusion⟩, fun _ => ⟨Phase.noConfusion, rfl, hnone⟩⟩
  simp only [Except.mapError]
  rcases hstored : StoredResponse.ofText S raw with e | stored
  · simp only [follows_except_bind_iff, follows_ignore, follows_raise]
    exact ⟨⟨hpast.screened _ rfl, Phase.noConfusion⟩, fun _ => ⟨Phase.noConfusion, rfl, hnone⟩⟩
  dsimp only
  split_ifs with hskip
  · simp only [follows_except_bind_iff, follows_ignore, follows_return]
    exact ⟨⟨hpast.screened _ rfl, Phase.noConfusion⟩, fun _ =>
      ⟨Phase.noConfusion, rfl, .inr ⟨raw, rfl, hstored⟩⟩⟩
  rcases hpayload : (applyStaleFailure stored id).toText S with e | payload
  · simp only [follows_except_bind_iff, follows_ignore, follows_raise]
    exact ⟨⟨hpast.screened _ rfl, Phase.noConfusion⟩, fun _ => ⟨Phase.noConfusion, rfl, hnone⟩⟩
  simp only [follows_except_bind_iff, follows_outcome, follows_storage, follows_cmd, follows_ret]
  refine ⟨⟨hpast.screened _ rfl, rfl⟩, fun ttl => ?_⟩
  rcases ttl with e | ttl
  · simp only [Except.mapError, follows_except_bind_iff, follows_ignore, follows_throw]
    exact ⟨⟨hpast.screened _ rfl, Phase.noConfusion⟩, fun _ => ⟨Phase.noConfusion, rfl, hnone⟩⟩
  simp only [Except.mapError, follows_except_bind_iff]
  have hguard : shouldReconcileStale stored = true ∧
      isStaleEnqueued stored.enqueuedAt now staleSeconds = true := by
    simpa using hskip
  have htransition : Transition cfg S request g.now (ResponseStore.key cfg id) raw payload :=
    hnow ▸ .stale hrequest hstored hguard.1 hguard.2 hpayload
  refine follows_commit (hpast.of_now rfl) rfl rfl htransition ?_ ?_ ?_
  · exact ⟨Phase.noConfusion, rfl, .inl (isDeletedTombstone_applyStaleFailure stored id)⟩
  · exact ⟨Phase.noConfusion, rfl, hnone⟩
  · exact fun fault => ⟨Phase.noConfusion, rfl, hnone⟩

theorem follows_reconcileStaleAtomic {id : String} {now staleSeconds : Int64}
    (hrequest : reconciles cfg request = some (id, staleSeconds)) (hnow : g.now = some now)
    (hidle : g.phase = .idle) (hnone : g.committed = none) :
    (ResponseStore.reconcileStaleAtomic cfg S id now staleSeconds).run.Follows
      (discipline cfg S request) (Settled (Reread cfg S id) g.now) g := by
  rw [ResponseStore.reconcileStaleAtomic]
  induction ResponseStore.maxAttempts generalizing g with
  | zero =>
    rw [ResponseStore.reconcileStaleAttempts, follows_except_bind_iff, follows_load]
    have hpast : Past cfg request g := .inr (by simp [hnow])
    refine ⟨⟨hpast.screened _ rfl, hidle⟩, fun reply => ?_⟩
    rcases reply with e | (_ | text)
    · exact ⟨hidle, rfl, hnone⟩
    · exact ⟨hidle, rfl, hnone⟩
    · rcases htext : ResponseStore.decode S text with fault | stored
      · simp only [htext]
        exact ⟨hidle, rfl, hnone⟩
      · simp only [htext]
        exact ⟨hidle, rfl, .inr ⟨text, rfl, decode_eq_ok_iff.mp htext⟩⟩
  | succ left ih =>
    rw [ResponseStore.reconcileStaleAttempts]
    refine follows_round (.inr (by simp [hnow])) hidle ?_ fun g' hidle' hnow' hnone' => ?_
    · exact follows_reconcileStaleTransactionAttempt hrequest hnow rfl hnone
    · rw [← hnow']
      exact ih (hnow'.trans hnow) hidle' hnone'

/-- What a request that may have reconciled hands out. -/
def HandsOut (cfg : StoreConfig) (S : Serde N) (id : String) (g : Knowledge)
    (r : Except Fault (StoredResponse N)) : Prop :=
  g.phase = .idle ∧ ∀ record, r = .ok record →
    isDeletedTombstone record = false ∨ (g.now.isSome ∧ g.Found cfg S id record)

theorem follows_reconcileStaleResponse {id : String} {stored : StoredResponse N}
    {staleSeconds : Int64} (hrequest : reconciles cfg request = some (id, staleSeconds))
    (hfound : g.Found cfg S id stored) (hlive : isDeletedTombstone stored = false)
    (hidle : g.phase = .idle) (hnone : g.committed = none) :
    (ResponseStore.reconcileStaleResponse cfg S id stored staleSeconds).run.Follows
      (discipline cfg S request) (HandsOut cfg S id) g := by
  have hback : ∀ record, (.ok stored : Except Fault (StoredResponse N)) = .ok record →
      isDeletedTombstone record = false := by
    rintro record ⟨⟩
    exact hlive
  rw [ResponseStore.reconcileStaleResponse]
  split_ifs
  · exact ⟨hidle, fun record h => .inl (hback record h)⟩
  simp only [follows_except_bind_iff, ask, follows_lift, send, call, follows_cmd, follows_ret]
  refine ⟨⟨fun id' staleSeconds' h _ => ?_, hidle⟩, fun now => ?_⟩
  · obtain ⟨rfl, -⟩ := Prod.mk.inj (Option.some.inj (hrequest.symm.trans h))
    exact .inr ⟨rfl, stored, hfound, hlive⟩
  split_ifs
  · exact ⟨hidle, fun record h => .inl (hback record h)⟩
  · refine (follows_reconcileStaleAtomic (g := { g with now := some now }) hrequest rfl hidle
      hnone).mono ?_
    rintro g' r ⟨hidle', hnow', hr⟩
    refine ⟨hidle', fun record h => ?_⟩
    subst h
    exact hr.imp_right fun h => ⟨by rw [hnow']; rfl, h⟩

/-- A read by id: a record that is no tombstone is passed on, anything else is an error. -/
theorem follows_get {id : String} {reconcileStale : Bool}
    {Q : Knowledge → Except Fault (StoredResponse N) → Prop}
    (hallowed : Allowed cfg S request g (.get (ResponseStore.key cfg id)))
    (hfound : ∀ text stored, StoredResponse.ofText S text = .ok stored →
      isDeletedTombstone stored = false →
      (if reconcileStale then
        ResponseStore.reconcileStaleResponse cfg S id stored cfg.staleSeconds
      else pure stored).run.Follows (discipline cfg S request) Q
        (g.sawAt (ResponseStore.key cfg id) (.ok (some text))))
    (herror : ∀ reply err, (∀ stored : StoredResponse N,
      (g.sawAt (ResponseStore.key cfg id) reply).Found cfg S id stored →
        isDeletedTombstone stored = true) →
      Q (g.sawAt (ResponseStore.key cfg id) reply) (.error (.error err))) :
    (ResponseStore.get cfg S id reconcileStale).run.Follows (discipline cfg S request) Q g := by
  rw [ResponseStore.get, follows_except_bind_iff, follows_load]
  refine ⟨hallowed, fun reply => ?_⟩
  rcases reply with e | (_ | text)
  · refine herror _ _ ?_
    rintro stored ⟨text, hseen, -⟩
    cases hseen
  · refine herror _ _ ?_
    rintro stored ⟨text, hseen, -⟩
    cases hseen
  · rcases hstored : StoredResponse.ofText S text with e | stored
    · simp only [ResponseStore.decode, hstored, Except.mapError, Except.map]
      refine herror _ _ ?_
      rintro stored ⟨text', ⟨⟩, hstored'⟩
      rw [hstored] at hstored'
      cases hstored'
    · simp only [ResponseStore.decode, hstored, Except.mapError, Except.map]
      by_cases hlive : isDeletedTombstone stored = true
      · rw [if_pos hlive]
        refine herror _ _ ?_
        rintro stored' ⟨text', ⟨⟩, hstored'⟩
        rw [hstored] at hstored'
        exact Except.ok.inj hstored' ▸ hlive
      · rw [if_neg hlive]
        have hnext := hfound text stored hstored (by simpa using hlive)
        split_ifs with hflag
        · rwa [if_pos hflag] at hnext
        · rwa [if_neg hflag] at hnext

/-! ### The queue -/

/-- The record of `id` was looked for, and is missing or unreadable. -/
def Lost (cfg : StoreConfig) (S : Serde N) (id : String) (g : Knowledge) : Prop :=
  ∃ text, g.seen = some (ResponseStore.key cfg id, text) ∧
    ∀ t (stored : StoredResponse N), text = some t → StoredResponse.ofText S t ≠ .ok stored

/-- A load with retries ends without a record only if the record is lost. -/
def Looked (cfg : StoreConfig) (S : Serde N) (id : String) (delivered : List EntryReply)
    (g : Knowledge) (r : Except Fault (Option (StoredResponse N))) : Prop :=
  g.phase = .idle ∧ g.delivered = delivered ∧ match r with
    | .ok none | .error (.error (.serialization _)) => Lost cfg S id g
    | _ => True

theorem follows_loadWithRetries {id : String} (hpast : Past cfg request g)
    (hidle : g.phase = .idle) :
    (BackgroundQueue.loadWithRetries cfg S id).run.Follows (discipline cfg S request)
      (Looked cfg S id g.delivered) g := by
  rw [BackgroundQueue.loadWithRetries]
  induction BackgroundQueue.loadRetryAttempts generalizing g with
  | zero => exact ⟨hidle, rfl, trivial⟩
  | succ left ih =>
    rw [BackgroundQueue.loadAttempts, follows_except_bind_iff, follows_outcome, follows_load]
    refine ⟨⟨hpast.screened _ rfl, hidle⟩, fun reply => ?_⟩
    rcases reply with e | (_ | text)
    · simp only [storageFault]
      split_ifs
      · exact ⟨hidle, rfl, trivial⟩
      · simp only [follows_except_bind_iff, ask, follows_lift, send, call, follows_cmd,
          follows_ret]
        exact ⟨⟨hpast.screened _ rfl, hidle⟩, fun _ =>
          ih (g := g.sawAt _ (.error e)) (hpast.of_now rfl) hidle⟩
    · exact ⟨hidle, rfl, none, rfl, fun t stored h => by cases h⟩
    · rcases htext : StoredResponse.ofText S text with e | stored
      · simp only [ResponseStore.decode, htext, Except.mapError, Except.map]
        refine ⟨hidle, rfl, some text, rfl, fun t stored h hstored => ?_⟩
        rw [← Option.some.inj h, htext] at hstored
        cases hstored
      · simp only [ResponseStore.decode, htext, Except.mapError, Except.map]
        exact ⟨hidle, rfl, trivial⟩

theorem follows_acknowledge {group streamId : String} (hpast : Past cfg request g)
    (hidle : g.phase = .idle) (hack : Acknowledges cfg S g request group streamId) :
    (BackgroundQueue.acknowledge group streamId).run.Follows (discipline cfg S request)
      (fun g' _ => g' = g) g := by
  simp only [BackgroundQueue.acknowledge, follows_except_bind_iff, follows_storage, send, call,
    follows_cmd, follows_ret]
  refine ⟨⟨hpast.screened _ rfl, hidle, hack⟩, fun reply => ?_⟩
  rcases reply with e | acked
  · rfl
  · simp only [Except.mapError]
    split_ifs <;> rfl

/-- Loading a batch: every acknowledgement it sends is for an entry of the batch whose record
is lost. -/
theorem follows_jobsFromStreamIds {claim : ClaimBackgroundJobsRequest} {autoclaimed : Bool}
    {idleMs : Option ℕ} {entries : List EntryReply} {batch : ClaimBatchResult N}
    (hrequest : request = .claimBackgroundJobs claim) (hidle : g.phase = .idle)
    (hentries : ∀ entry ∈ entries, entry ∈ g.delivered) :
    (BackgroundQueue.jobsFromStreamIds cfg S claim.consumerGroup autoclaimed idleMs entries
      batch).run.Follows (discipline cfg S request)
      (fun g' _ => g'.phase = .idle) g := by
  subst hrequest
  have hpast : ∀ g, Past cfg (.claimBackgroundJobs claim) g := fun g => .inl rfl
  induction entries generalizing g batch with
  | nil => exact hidle
  | cons entry entries ih =>
    obtain ⟨hentry, htail⟩ := List.forall_mem_cons.mp hentries
    rw [BackgroundQueue.jobsFromStreamIds]
    rcases hid : BackgroundQueue.entryField entry "response_id" with _ | id
    · exact ih hidle htail
    simp only [follows_except_bind_iff, follows_outcome]
    refine (follows_loadWithRetries (hpast g) hidle).mono ?_
    rintro g' r ⟨hidle', hdelivered, hr⟩
    have hrest : ∀ entry ∈ entries, entry ∈ g'.delivered := fun e he => hdelivered ▸ htail e he
    have hdrop : Lost cfg S id g' →
        (BackgroundQueue.acknowledge claim.consumerGroup entry.id).run.Follows
          (discipline cfg S (.claimBackgroundJobs claim)) (fun g'' _ => g'' = g') g' := by
      rintro ⟨text, hseen, hlost⟩
      exact follows_acknowledge (hpast g') hidle' (.dropped (hdelivered ▸ hentry) hid hseen hlost)
    rcases r with ((_ | _ | _ | _ | _ | _) | _ | _) | (_ | record)
    case error.error.storage => exact ih hidle' hrest
    case error.error.serialization =>
      simp only [follows_except_bind_iff, follows_outcome]
      refine (hdrop hr).mono ?_
      rintro _ r rfl
      exact ih hidle' hrest
    case ok.none =>
      simp only [follows_except_bind_iff, follows_outcome]
      refine (hdrop hr).mono ?_
      rintro _ r rfl
      exact ih hidle' hrest
    case ok.some => exact ih hidle' hrest
    all_goals exact hidle'

theorem follows_claimIdle {claim : ClaimBackgroundJobsRequest} {options : ClaimOptions}
    {cursor : String} (hrequest : request = .claimBackgroundJobs claim)
    (hgroup : options.consumerGroup = claim.consumerGroup) (hidle : g.phase = .idle) :
    (BackgroundQueue.claimIdle cfg S options cursor).run.Follows (discipline cfg S request)
      (fun g' _ => g'.phase = .idle) g := by
  have hpast : Past cfg request g := .inl (by rw [hrequest]; rfl)
  rw [BackgroundQueue.claimIdle]
  split_ifs
  · simp only [BackgroundQueue.autoclaim, follows_except_bind_iff, follows_storage, send, call,
      follows_cmd, follows_ret]
    refine ⟨⟨hpast.screened _ rfl, hidle, claim, hrequest, hgroup.symm⟩, fun reply => ?_⟩
    rcases reply with e | reply
    · exact hidle
    · simp only [Except.mapError, hgroup]
      refine (follows_jobsFromStreamIds (g := g.handed reply.claimed) hrequest hidle ?_).mono ?_
      · exact fun entry he => List.mem_append_right _ he
      · rintro g' (fault | batch) hidle' <;> exact hidle'
  · exact hidle

theorem follows_readGroup {claim : ClaimBackgroundJobsRequest} {name : String} {count blockMs : ℕ}
    {Q : Knowledge → Except Fault (List EntryReply) → Prop}
    (hrequest : request = .claimBackgroundJobs claim) (hidle : g.phase = .idle)
    (hok : ∀ entries, Q (g.handed entries) (.ok entries)) (hnil : Q g (.ok []))
    (herror : ∀ fault, Q g (.error fault)) :
    (BackgroundQueue.readGroup claim.consumerGroup name count blockMs).run.Follows
      (discipline cfg S request) Q g := by
  have hpast : Past cfg request g := .inl (by rw [hrequest]; rfl)
  have hread : ∀ block,
      (storage (send (.stream (.xreadgroup claim.consumerGroup name count block))) >>=
        fun replies => pure (replies.getD [])).run.Follows (discipline cfg S request) Q g := by
    intro block
    simp only [follows_except_bind_iff, follows_storage, send, call, follows_cmd, follows_ret]
    refine ⟨⟨hpast.screened _ rfl, hidle, claim, hrequest, rfl⟩, fun reply => ?_⟩
    rcases reply with e | (_ | entries)
    · exact herror _
    · exact hnil
    · exact hok entries
  rw [BackgroundQueue.readGroup]
  split_ifs
  · exact hread none
  · rw [follows_except_bind_iff]
    simp only [follows_storage, send, call, follows_cmd, follows_ret]
    refine ⟨⟨hpast.screened _ rfl, hidle⟩, fun reply => ?_⟩
    rcases reply with e | _
    · exact herror _
    · exact hread (some blockMs)

/-- Whatever comes back from loading a batch, the claim ends holding nothing. -/
theorem follows_claimNewBatch {claim : ClaimBackgroundJobsRequest} {entries : List EntryReply}
    {result : ClaimBatchResult N} (hrequest : request = .claimBackgroundJobs claim)
    (hidle : g.phase = .idle) (hentries : ∀ entry ∈ entries, entry ∈ g.delivered) :
    (outcome (BackgroundQueue.jobsFromStreamIds cfg S claim.consumerGroup false none entries
      .empty) >>= fun
      | .ok batch => pure (result.extend batch)
      | .error (.error err) => if result.hasClaimedEntries then pure result else raise err
      | .error fault => throw fault : Act _).run.Follows (discipline cfg S request)
      (fun g' _ => g'.phase = .idle) g := by
  rw [follows_except_bind_iff, follows_outcome]
  refine (follows_jobsFromStreamIds hrequest hidle hentries).mono ?_
  rintro g' ((err | _ | _) | batch) hidle'
  case error.error =>
    dsimp only
    split_ifs <;> exact hidle'
  all_goals exact hidle'

theorem follows_claimNew {claim : ClaimBackgroundJobsRequest} {options : ClaimOptions}
    {result : ClaimBatchResult N} (hrequest : request = .claimBackgroundJobs claim)
    (hgroup : options.consumerGroup = claim.consumerGroup) (hidle : g.phase = .idle) :
    (BackgroundQueue.claimNew cfg S options result).run.Follows (discipline cfg S request)
      (fun g' _ => g'.phase = .idle) g := by
  rw [BackgroundQueue.claimNew]
  split
  · rw [follows_except_bind_iff, follows_outcome, hgroup]
    refine follows_readGroup hrequest hidle ?_ ?_ ?_
    · intro entries
      exact follows_claimNewBatch hrequest hidle fun entry he => List.mem_append_right _ he
    · exact follows_claimNewBatch hrequest hidle (by simp)
    · rintro (err | _ | _)
      · dsimp only
        split_ifs <;> exact hidle
      · exact hidle
      · exact hidle
  · exact hidle

/-! ### Statistics -/

theorem follows_countPages {pageSize : ℕ} {exclusive : Bool} {query : String → Act (List String)}
    {weigh : List String → UInt64} {fuel : ℕ} {start : String} {total : UInt64}
    (hquery : ∀ start, (query start).run.Follows (discipline cfg S request)
      (fun g' _ => g' = g) g) :
    (BackgroundQueue.countPages pageSize exclusive query weigh fuel start total).run.Follows
      (discipline cfg S request) (fun g' _ => g' = g) g := by
  induction fuel generalizing start total with
  | zero => rfl
  | succ fuel ih =>
    rw [BackgroundQueue.countPages, follows_except_bind_iff]
    refine (hquery start).mono ?_
    rintro g' (fault | ids) rfl
    · rfl
    · dsimp only
      split
      · rfl
      · split
        · rfl
        · exact ih

theorem follows_ensureConsumerGroup {group startId : String} (hpast : Past cfg request g)
    (hidle : g.phase = .idle) :
    (BackgroundQueue.ensureConsumerGroup group startId).run.Follows (discipline cfg S request)
      (fun g' _ => g' = g) g := by
  simp only [BackgroundQueue.ensureConsumerGroup, follows_except_bind_iff, follows_outcome,
    follows_storage, send, call, follows_cmd, follows_ret]
  refine ⟨⟨hpast.screened _ rfl, hidle, trivial⟩, fun reply => ?_⟩
  rcases reply with e | _
  · simp only [Except.mapError, storageFault]
    split_ifs <;> rfl
  · rfl

theorem follows_loadStreamGroups (hpast : Past cfg request g) (hidle : g.phase = .idle) :
    BackgroundQueue.loadStreamGroups.run.Follows (discipline cfg S request)
      (fun g' _ => g' = g) g := by
  simp only [BackgroundQueue.loadStreamGroups, follows_except_bind_iff, follows_outcome,
    follows_storage, send, call, follows_cmd, follows_ret]
  refine ⟨⟨hpast.screened _ rfl, hidle, trivial⟩, fun reply => ?_⟩
  rcases reply with e | info
  · simp only [Except.mapError, storageFault]
    split_ifs <;> rfl
  · rfl

theorem follows_groupsForStats {group : String} (hpast : Past cfg request g)
    (hidle : g.phase = .idle) :
    (BackgroundQueue.groupsForStats group).run.Follows (discipline cfg S request)
      (fun g' _ => g' = g) g := by
  rw [BackgroundQueue.groupsForStats, follows_except_bind_iff]
  refine (follows_loadStreamGroups hpast hidle).mono ?_
  rintro g' (fault | info) rfl
  · rfl
  · dsimp only
    split
    · rw [follows_except_bind_iff]
      refine (follows_ensureConsumerGroup hpast hidle).mono ?_
      rintro g'' (fault | created) rfl
      · rfl
      · exact follows_loadStreamGroups hpast hidle
    · rfl

theorem follows_statsFromGroup {fuel : ℕ} {group : String} {info : Redis.GroupInfo}
    {exclusive : Bool} (hpast : Past cfg request g) (hidle : g.phase = .idle) :
    (BackgroundQueue.statsFromGroup fuel group info exclusive).run.Follows
      (discipline cfg S request) (fun g' _ => g' = g) g := by
  have hrange : ∀ start count, (storage (send (.stream (.xrange start "+" count))) >>=
      fun ids => pure (ids.map EntryReply.id) : Act _).run.Follows (discipline cfg S request)
      (fun g' _ => g' = g) g := by
    intro start count
    rw [follows_except_bind_iff]
    simp only [follows_storage, send, call, follows_cmd, follows_ret]
    refine ⟨⟨hpast.screened _ rfl, hidle, trivial⟩, fun reply => ?_⟩
    rcases reply with e | ids <;> rfl
  have hcount : (BackgroundQueue.countProcessableInProgress fuel group exclusive).run.Follows
      (discipline cfg S request) (fun g' _ => g' = g) g := by
    simp only [BackgroundQueue.countProcessableInProgress, BackgroundQueue.getStreamMinId,
      follows_except_bind_iff, follows_storage, send, call, follows_cmd, follows_ret]
    refine ⟨⟨hpast.screened _ rfl, hidle, trivial⟩, fun reply => ?_⟩
    rcases reply with e | ids
    · rfl
    · refine follows_countPages fun start => ?_
      simp only [follows_storage, follows_cmd, follows_ret]
      refine ⟨⟨hpast.screened _ rfl, hidle, trivial⟩, fun reply => rfl⟩
  have hrest : ∀ pending, (BackgroundQueue.countProcessableInProgress fuel group exclusive >>=
      fun inProgress => pure (⟨pending, inProgress, BackgroundQueue.saturatingAdd pending
        inProgress⟩ : BackgroundQueueStats)).run.Follows (discipline cfg S request)
      (fun g' _ => g' = g) g := by
    intro pending
    rw [follows_except_bind_iff]
    refine hcount.mono ?_
    rintro g' (fault | count) h <;> exact h
  rw [BackgroundQueue.statsFromGroup]
  split
  · exact hrest _
  · rw [follows_except_bind_iff]
    refine (follows_countPages fun start => hrange start 1000).mono ?_
    rintro g' (fault | pending) rfl
    · rfl
    · exact hrest pending

theorem follows_stats {fuel : ℕ} {group : String} (hpast : Past cfg request g)
    (hidle : g.phase = .idle) :
    (BackgroundQueue.stats cfg fuel group).run.Follows (discipline cfg S request)
      (fun g' _ => g' = g) g := by
  rw [BackgroundQueue.stats, follows_except_bind_iff]
  simp only [follows_storage, send, call, follows_cmd, follows_ret]
  refine ⟨⟨hpast.screened _ rfl, hidle, trivial⟩, fun reply => ?_⟩
  rcases reply with e | present
  · rfl
  simp only [Except.mapError]
  split
  · rfl
  rw [follows_except_bind_iff]
  refine (follows_groupsForStats (hpast.of_now rfl) hidle).mono ?_
  rintro g' (fault | info) hg'
  · exact hg'
  dsimp only
  split
  · exact hg'
  subst hg'
  rw [follows_except_bind_iff]
  simp only [follows_storage, follows_cmd, follows_ret]
  refine ⟨⟨hpast.screened _ rfl, hidle⟩, fun reply => ?_⟩
  rcases reply with e | capabilities
  · rfl
  · exact follows_statsFromGroup (hpast.of_now rfl) hidle

end ResponsesApiStore
