import ResponsesApiStore.System.OneKeyspace

/-!
# An enqueue that fails

An enqueue is two writes to different keys: the record is stored with `SETEX`, then published with
`XADD`, and nothing takes the first back when the second fails. `failed_enqueue_trace` says what
is left when a call has returned an error, whichever of its commands failed without running: the
stream is as it was; the record too, unless the `XADD` failed after the `SETEX` had replaced
another text; and then the key holds exactly the record sent, with the time of the enqueue.
-/

namespace ResponsesApiStore

open Json (Serde)
open Redis (Error Keyspace Stream)
open Interaction (Machine World Label Program)
open Interaction.Program

variable {N : Type}

/-- What an enqueue meets: the clock it reads, and the errors of the `SETEX` and of the `XADD`,
if they fail without running. -/
structure Fates where
  now : Int64
  store : Option Error
  publish : Option Error

/-- How the commands of an enqueue are answered, from the text at its key and the stream. -/
def EnqueueAnswered (key : String) (fates : Fates) (s : Option String × Option Stream) :
    (c : Cmd) → Option String × Option Stream → c.Reply → Prop
  | .now, s', r => s' = s ∧ r = fates.now
  | .setEx k ttl payload, s', r => k = key ∧ match fates.store with
    | some err => s' = s ∧ r = .error err
    | none =>
      if Keyspace.ValidTtl ttl then s' = (some payload, s.2) ∧ r = .ok ()
      else s' = s ∧ ∃ err, r = .error err
  | .stream (.xadd ..), s', r => match fates.publish with
    | some err => s' = s ∧ r = .error err
    | none => s'.1 = s.1 ∧ r = .ok ()
  | _, _, _ => False

/-- The text of the record that an enqueue stores at time `now`. -/
def enqueuedText (S : Serde N) (record : Option ProtoStoredResponse) (now : Int64) :
    Option String :=
  match requireRecord record with
  | .error _ => none
  | .ok proto => match protoToCore S proto with
    | .error _ => none
    | .ok core => ({ core with enqueuedAt := some now }.toText S).toOption

/-- The key of the record of an enqueue. -/
def enqueuedKey (cfg : StoreConfig) (record : Option ProtoStoredResponse) : String :=
  ResponseStore.key cfg (record.elim "" ProtoStoredResponse.responseId)

/-- The enqueue stores its record: it is accepted, it can be printed, and the `SETEX` runs. -/
def EnqueueStores (cfg : StoreConfig) (S : Serde N) (record : Option ProtoStoredResponse)
    (fates : Fates) (payload : String) : Prop :=
  enqueuedText S record fates.now = some payload ∧ fates.store = none ∧
    Keyspace.ValidTtl cfg.ttlSeconds

section Procedure

variable {cfg : StoreConfig} {S : Serde N} {record : Option ProtoStoredResponse} {fates : Fates}
  {s : Option String × Option Stream}

/-- What is left when the call returns an error: the stream is as it was, and so is the key
unless the record was stored, which leaves exactly the record. -/
def Leaves (cfg : StoreConfig) (S : Serde N) (record : Option ProtoStoredResponse) (fates : Fates)
    (s s' : Option String × Option Stream) : Prop :=
  s'.2 = s.2 ∧ ((¬∃ payload, EnqueueStores cfg S record fates payload) → s'.1 = s.1) ∧
    ∀ payload, EnqueueStores cfg S record fates payload →
      s'.1 = some payload ∧ fates.publish.isSome = true

theorem leaves_of_not_stores (h : ¬∃ payload, EnqueueStores cfg S record fates payload) :
    Leaves cfg S record fates s s :=
  ⟨rfl, fun _ => rfl, fun payload hpayload => absurd ⟨payload, hpayload⟩ h⟩

/-- The first write: it stores the text of the record, or fails and leaves everything. -/
theorem ensures_enqueueStore {id : String} {core : StoredResponse N} :
    (ResponseStore.store cfg S id core none).run.Ensures
      (EnqueueAnswered (ResponseStore.key cfg id) fates) (fun s' r =>
        (∃ payload, core.toText S = .ok payload ∧ fates.store = none ∧
          Keyspace.ValidTtl cfg.ttlSeconds ∧ s' = (some payload, s.2) ∧ r = .ok ()) ∨
        ((∃ fault, r = .error fault) ∧ s' = s ∧ ¬∃ payload, core.toText S = .ok payload ∧
          fates.store = none ∧ Keyspace.ValidTtl cfg.ttlSeconds)) s := by
  rw [ResponseStore.store, Option.getD_none]
  split_ifs with hzero
  · refine .inr ⟨⟨_, rfl⟩, rfl, ?_⟩
    rintro ⟨payload, -, -, httl⟩
    rw [hzero] at httl
    exact absurd httl (by decide)
  rw [ensures_except_bind_iff, ResponseStore.encode]
  cases hprint : core.toText S with
  | error e =>
    refine .inr ⟨⟨_, rfl⟩, rfl, ?_⟩
    rintro ⟨payload, ⟨⟩, -⟩
  | ok payload =>
    change (storage (send (.setEx _ cfg.ttlSeconds payload))).run.Ensures _ _ _
    rw [ensures_storage]
    rcases hstore : fates.store with _ | err
    · by_cases httl : Keyspace.ValidTtl cfg.ttlSeconds
      · have hans : ∀ s' r, EnqueueAnswered (ResponseStore.key cfg id) fates s
            (.setEx (ResponseStore.key cfg id) cfg.ttlSeconds payload) s' r ↔
              s' = (some payload, s.2) ∧ r = .ok () := by
          simp [EnqueueAnswered, hstore, httl]
        refine ⟨⟨_, _, (hans _ _).mpr ⟨rfl, rfl⟩⟩, fun s' r hr => ?_⟩
        obtain ⟨rfl, rfl⟩ := (hans s' r).mp hr
        exact .inl ⟨payload, rfl, rfl, httl, rfl, rfl⟩
      · have hans : ∀ s' r, EnqueueAnswered (ResponseStore.key cfg id) fates s
            (.setEx (ResponseStore.key cfg id) cfg.ttlSeconds payload) s' r ↔
              s' = s ∧ ∃ err, r = .error err := by
          simp [EnqueueAnswered, hstore, httl]
        refine ⟨⟨_, _, (hans _ _).mpr ⟨rfl, .reply "", rfl⟩⟩, fun s' r hr => ?_⟩
        obtain ⟨rfl, err, rfl⟩ := (hans s' r).mp hr
        refine .inr ⟨⟨_, rfl⟩, rfl, ?_⟩
        rintro ⟨-, -, -, hvalid⟩
        exact httl hvalid
    · have hans : ∀ s' r, EnqueueAnswered (ResponseStore.key cfg id) fates s
          (.setEx (ResponseStore.key cfg id) cfg.ttlSeconds payload) s' r ↔
            s' = s ∧ r = .error err := by
        simp [EnqueueAnswered, hstore]
      refine ⟨⟨_, _, (hans _ _).mpr ⟨rfl, rfl⟩⟩, fun s' r hr => ?_⟩
      obtain ⟨rfl, rfl⟩ := (hans s' r).mp hr
      refine .inr ⟨⟨_, rfl⟩, rfl, ?_⟩
      rintro ⟨-, -, ⟨⟩, -⟩

/-- The second write: it is answered, or fails and leaves everything. -/
theorem ensures_enqueuePublish {id key : String} :
    (BackgroundQueue.enqueue cfg id).run.Ensures (EnqueueAnswered key fates)
      (fun s' r => r = .ok () ∨ ((∃ fault, r = .error fault) ∧ fates.publish.isSome = true ∧
        s' = s)) s := by
  rw [BackgroundQueue.enqueue, ensures_storage]
  rcases hpublish : fates.publish with _ | err
  · have hans : ∀ s' maxlen fields (r : Except Error Unit), EnqueueAnswered key fates s
        (.stream (.xadd maxlen fields)) s' r ↔ s'.1 = s.1 ∧ r = .ok () := by
      simp [EnqueueAnswered, hpublish]
    refine ⟨⟨s, .ok (), (hans _ _ _ _).mpr ⟨rfl, rfl⟩⟩, fun s' r hr => ?_⟩
    obtain ⟨-, rfl⟩ := (hans _ _ _ _).mp hr
    exact .inl rfl
  · have hans : ∀ s' maxlen fields (r : Except Error Unit), EnqueueAnswered key fates s
        (.stream (.xadd maxlen fields)) s' r ↔ s' = s ∧ r = .error err := by
      simp [EnqueueAnswered, hpublish]
    refine ⟨⟨s, .error err, (hans _ _ _ _).mpr ⟨rfl, rfl⟩⟩, fun s' r hr => ?_⟩
    obtain ⟨rfl, rfl⟩ := (hans _ _ _ _).mp hr
    exact .inr ⟨⟨_, rfl⟩, rfl, rfl⟩

/-- **An enqueue**, whatever its commands meet. -/
theorem ensures_enqueueBackgroundJob :
    (enqueueBackgroundJob cfg S record).run.Ensures
      (EnqueueAnswered (enqueuedKey cfg record) fates)
      (fun s' r => ∀ e, r = .error e → Leaves cfg S record fates s s') s := by
  rw [enqueueBackgroundJob, ensures_except_bind_iff]
  cases hrequire : requireRecord record with
  | error status =>
    intro e _
    refine leaves_of_not_stores ?_
    rintro ⟨payload, htext, -⟩
    simp [enqueuedText, hrequire] at htext
  | ok proto =>
    have hkey : enqueuedKey cfg record = ResponseStore.key cfg proto.responseId := by
      rw [requireRecord] at hrequire
      cases hfilter : record.filter fun record => !record.responseId.isEmpty with
      | none =>
        rw [hfilter] at hrequire
        cases hrequire
      | some proto' =>
        rw [hfilter] at hrequire
        obtain rfl := Except.ok.inj hrequire
        rw [(Option.filter_eq_some_iff.mp hfilter).1, enqueuedKey, Option.elim_some]
    change (ofStatus (protoToCore S proto) >>= _ : Rpc Response).run.Ensures _ _ _
    rw [ensures_except_bind_iff]
    cases hcore : protoToCore S proto with
    | error status =>
      intro e _
      refine leaves_of_not_stores ?_
      rintro ⟨payload, htext, -⟩
      simp [enqueuedText, hrequire, hcore] at htext
    | ok core =>
      change (rpc (ask .now) >>= _ : Rpc Response).run.Ensures _ _ _
      rw [ensures_except_bind_iff, ensures_rpc, ask, ensures_lift]
      refine ⟨⟨s, fates.now, rfl, rfl⟩, ?_⟩
      rintro s' now ⟨rfl, rfl⟩
      change (rpc (ResponseStore.store cfg S proto.responseId
        { core with enqueuedAt := some fates.now } none) >>= _ : Rpc Response).run.Ensures _ _ _
      have hstores : ∀ payload, EnqueueStores cfg S record fates payload ↔
          { core with enqueuedAt := some fates.now }.toText S = .ok payload ∧
            fates.store = none ∧ Keyspace.ValidTtl cfg.ttlSeconds := by
        intro payload
        rw [EnqueueStores, enqueuedText, hrequire]
        cases hprint : { core with enqueuedAt := some fates.now }.toText S with
        | error e => simp [hcore, hprint, Except.toOption]
        | ok text => simp [hcore, hprint, Except.toOption]
      rw [ensures_except_bind_iff, ensures_rpc, hkey]
      refine ensures_enqueueStore.mono ?_
      rintro s₁ r (⟨payload, hprint, hfate, httl, rfl, rfl⟩ | ⟨⟨fault, rfl⟩, rfl, hnot⟩)
      · change (rpc (BackgroundQueue.enqueue cfg proto.responseId) >>= _ :
          Rpc Response).run.Ensures _ _ _
        rw [ensures_except_bind_iff, ensures_rpc]
        refine ensures_enqueuePublish.mono ?_
        rintro s₂ r (rfl | ⟨⟨fault, rfl⟩, hpublish, rfl⟩)
        · intro e he
          cases he
        · intro e _
          have hstored := (hstores payload).mpr ⟨hprint, hfate, httl⟩
          refine ⟨rfl, fun hnone => absurd ⟨payload, hstored⟩ hnone, fun payload' h => ?_⟩
          have heq := Option.some.inj (hstored.1.symm.trans h.1)
          exact ⟨by rw [heq], hpublish⟩
      · intro e _
        refine leaves_of_not_stores ?_
        rintro ⟨payload, hpayload⟩
        exact hnot ⟨payload, (hstores payload).mp hpayload⟩

end Procedure

section Calls

variable [DecidableEq N] {cfg : StoreConfig} {S : Serde N} {fuel : ℕ}

/-- A request is answered, or fails with the error without having run. -/
def Delivery.Meets : Delivery → Option Error → Prop
  | .replied, fate => fate = none
  | .failed err ran _, fate => ran = false ∧ fate = some err

instance : (d : Delivery) → (fate : Option Error) → Decidable (d.Meets fate)
  | .replied, fate => inferInstanceAs (Decidable (fate = none))
  | .failed err ran _, fate => inferInstanceAs (Decidable (ran = false ∧ fate = some err))

/-- The commands of task `i` meet their fates, and nobody else changes the text at the key or the
stream. -/
structure MeetsFates (M : DMachine) (key : String) (i : ℕ) (fates : Fates) (w : DWorld)
    (l : DLabel) : Prop where
  fated : ∀ choice t c k, l = .act i choice → w.tasks i = some t → t.live = true →
    t.prog = .cmd c k → match c with
    | .now => w.shared.clock = fates.now
    | .setEx .. => choice.delivery.Meets fates.store
    | .stream _ => choice.delivery.Meets fates.publish
    | _ => True
  kept : ∀ w', M.step w l = some w' → (∀ choice, l ≠ .act i choice) →
    w'.shared.textAt key = w.shared.textAt key ∧ w'.shared.stream = w.shared.stream

/-- An `XADD` that runs succeeds. -/
theorem run_xadd_reply {s s' : Option Stream} {choice : Redis.StreamChoice} {maxlen : Option ℕ}
    {fields : List (String × String)} {r : Except Error Unit}
    (h : (Redis.StreamCmd.xadd maxlen fields).run s choice = some (s', r)) : r = .ok () := by
  simp only [Redis.StreamCmd.run] at h
  split at h
  · split at h
    · obtain ⟨-, hr⟩ := Prod.mk.inj (Option.some.inj h)
      exact hr.symm
    · cases h
  · cases h

/-- A task whose commands meet their fates is answered from the text at its key and the stream. -/
theorem isolates_enqueue {key : String} {i : ℕ} {fates : Fates} {call : Call} :
    (deployment cfg S fuel).Isolates (MeetsFates (deployment cfg S fuel) key i fates) i call
      (fun σ => (σ.textAt key, σ.stream)) (EnqueueAnswered key fates) := by
  constructor
  · intro x choice t c k σ r hok htask hlive hcall hprog hans hexec
    have hfated := hok.fated choice t c k rfl htask hlive hprog
    replace hexec : x.shared.exec i t.call.server choice c = some (σ, r) := hexec
    obtain ⟨s', r', hans⟩ := hans
    cases c with
    | now =>
      obtain ⟨rfl, rfl⟩ := Prod.mk.inj (Option.some.inj hexec)
      exact ⟨rfl, hfated⟩
    | setEx k ttl payload =>
      obtain ⟨rfl, -⟩ := hans
      obtain ⟨hσ, hr⟩ := Prod.mk.inj (Option.some.inj hexec)
      subst hσ hr
      refine ⟨rfl, ?_⟩
      rcases hdelivery : choice.delivery with _ | ⟨err, ran, reconnected⟩
      · rw [hdelivery] at hfated
        rw [show fates.store = none from hfated]
        by_cases httl : Keyspace.ValidTtl ttl
        · simp [httl, Shared.runIf, Delivery.ran, Delivery.reply, Shared.textAt, Keyspace.setEx]
        · simp [httl, Shared.runIf, Delivery.ran, Delivery.reply, Shared.textAt, Keyspace.setEx]
      · rw [hdelivery] at hfated
        obtain ⟨rfl, hstore⟩ := hfated
        rw [hstore]
        exact ⟨rfl, rfl⟩
    | stream c =>
      cases c with
      | xadd maxlen fields =>
        rcases hdelivery : choice.delivery with _ | ⟨err, ran, reconnected⟩
        · rw [hdelivery] at hfated
          simp only [Shared.exec, hdelivery] at hexec
          obtain ⟨⟨s'', r''⟩, hrun, heq⟩ := Option.map_eq_some_iff.mp hexec
          obtain ⟨rfl, rfl⟩ := Prod.mk.inj heq
          rw [EnqueueAnswered, show fates.publish = none from hfated]
          exact ⟨rfl, run_xadd_reply hrun⟩
        · rw [hdelivery] at hfated
          obtain ⟨rfl, hpublish⟩ := hfated
          simp only [Shared.exec, hdelivery] at hexec
          obtain ⟨rfl, rfl⟩ := Prod.mk.inj (Option.some.inj hexec)
          rw [EnqueueAnswered, hpublish]
          exact ⟨rfl, rfl⟩
      | _ => exact hans.elim
    | _ => exact hans.elim
  · intro x l y hok hother hs
    obtain ⟨htext, hstream⟩ := hok.kept y (Machine.step_eq_some_iff.mpr hs) hother
    exact Prod.ext htext hstream

/-- What meets its fates over one keyspace does in the deployment. -/
theorem meetsFates_deployment (hapart : KeysApart cfg) {key : String} {i : ℕ} {fates : Fates}
    {w w' : DWorld} {ls : List DLabel} (hw : Orderly cfg w)
    (hrun : (oneKeyspace cfg S fuel).RunIn (MeetsFates (oneKeyspace cfg S fuel) key i fates)
      w ls w') :
    (deployment cfg S fuel).RunIn (MeetsFates (deployment cfg S fuel) key i fates) w ls w' := by
  refine (agrees_oneKeyspace hapart).symm.runIn_imp (fun u l hu hleaves hok => ?_) hw
    (leavesQueue_of_run hrun) hrun
  refine ⟨hok.fated, fun v hv => hok.kept v ?_⟩
  exact (hu.step_eq hapart hleaves).symm.trans hv

/-- **What a failed enqueue leaves.** Under names that are apart, a call whose commands are
answered or fail without running, and which returns an error, leaves the stream as it was. It
leaves the record as it was exactly if it has not stored another text; and what it has stored is
then at the key, and the `XADD` has failed. -/
theorem failed_enqueue_trace {record : Option ProtoStoredResponse} {fates : Fates} {i n : ℕ}
    {w w' : DWorld} {ls : List DLabel} {t : DTask} {e : RpcFault} (hapart : KeysApart cfg)
    (hw : Orderly cfg w) (hcall : (oneKeyspace cfg S fuel).RunIn
      (MeetsFates (oneKeyspace cfg S fuel) (enqueuedKey cfg record) i fates) w
      (.spawn i ⟨n, .enqueueBackgroundJob record⟩ :: ls) w')
    (ht : w'.tasks i = some t) (herror : t.prog = .ret (.error e)) :
    w'.shared.stream = w.shared.stream ∧
      (w'.shared.textAt (enqueuedKey cfg record) = w.shared.textAt (enqueuedKey cfg record) ↔
        ∀ payload, EnqueueStores cfg S record fates payload →
          w.shared.textAt (enqueuedKey cfg record) = some payload) ∧
      ∀ payload, EnqueueStores cfg S record fates payload →
        w'.shared.textAt (enqueuedKey cfg record) = some payload ∧
          fates.publish.isSome = true := by
  obtain ⟨-, x, hx, hrun⟩ := meetsFates_deployment hapart hw hcall
  cases Machine.step_eq_some_iff.mp hx with
  | spawn hfree =>
    have henqueue : (enqueueBackgroundJob cfg S record).run.Ensures
        (EnqueueAnswered (enqueuedKey cfg record) fates) _
        (w.shared.textAt (enqueuedKey cfg record), w.shared.stream) := ensures_enqueueBackgroundJob
    obtain ⟨t', ht', -, hens⟩ :=
      isolates_enqueue.ensures hrun (World.put_tasks_self _ i _) rfl henqueue
    obtain rfl := Option.some.inj (ht'.symm.trans ht)
    rw [herror] at hens
    obtain ⟨hstream, hkept, hstored⟩ := hens e rfl
    refine ⟨hstream, ⟨fun hsame payload hpayload => ?_, fun hsame => ?_⟩, hstored⟩
    · rw [← hsame]
      exact (hstored payload hpayload).1
    · by_cases hstores : ∃ payload, EnqueueStores cfg S record fates payload
      · obtain ⟨payload, hpayload⟩ := hstores
        exact (hstored payload hpayload).1.trans (hsame payload hpayload).symm
      · exact hkept hstores

end Calls

section Runs

open Sample

/-- A completed response at time `100`. -/
def completedWorld : DWorld :=
  { start (some completedText) with
    shared := { (start (some completedText)).shared with clock := 100 } }

theorem orderly_completedWorld : Orderly config completedWorld := by
  have hsorted : Sorted config (start (some completedText)).shared :=
    (sortedStart_start (some completedText)).sorted
  refine ⟨⟨hsorted.db, hsorted.cursors⟩, fun i t ht => ?_⟩
  cases ht

/-- The step is a call, or a command of task `1` that meets its fate. -/
def meetsFates (fates : Fates) (w : DWorld) : DLabel → Bool
  | .act i choice => i = 1 && match awaits w 1 with
    | some .now => w.shared.clock = fates.now
    | some (.setEx ..) => choice.delivery.Meets fates.store
    | some (.stream _) => choice.delivery.Meets fates.publish
    | _ => true
  | .spawn .. => true
  | _ => false

theorem meetsFates_sound {fates : Fates} {w : DWorld} {l : DLabel}
    (h : meetsFates fates w l = true) : MeetsFates machineIn key 1 fates w l := by
  constructor
  · rintro choice t c k rfl ht hlive hprog
    have hawaits : awaits w 1 = some c := by simp [awaits, ht, hlive, hprog, Program.command?]
    simp only [meetsFates, hawaits, decide_true, Bool.true_and] at h
    cases c <;> simp_all
  · intro w' hstep hother
    cases Machine.step_eq_some_iff.mp hstep with
    | spawn hfree => exact ⟨rfl, rfl⟩
    | @act j choice =>
      simp only [meetsFates, Bool.and_eq_true, decide_eq_true_eq] at h
      exact absurd (by rw [h.1]) (hother choice)
    | _ => cases h

/-- The `SETEX` fails. -/
def storeFails : Fates := ⟨100, some (.reply "broken pipe"), none⟩

/-- The `XADD` fails. -/
def publishFails : Fates := ⟨100, none, some (.reply "broken pipe")⟩

/-- The answer of an enqueue whose command has failed. -/
def unavailable : RpcResult :=
  .error (.status ⟨.unavailable, "storage unavailable (other): broken pipe"⟩)

set_option maxRecDepth 100000 in
/-- A completed response is enqueued again, and the `SETEX` fails. -/
def enqueueUnstored : machineIn.Recording (meetsFates storeFails) completedWorld fun w =>
    returned w 1 = some unavailable :=
  ⟨.spawn 1 ⟨0, .enqueueBackgroundJob (some queuedRecord)⟩ :: [.act 1 answered, .act 1 refused],
    by decide +kernel⟩

/-- When the first write fails, the completed response stays. -/
theorem failed_enqueue_trace_unstored : ∃ w', machineIn.RunIn
    (MeetsFates machineIn key 1 storeFails) completedWorld enqueueUnstored.labels w' ∧
    returned w' 1 = some unavailable ∧ w'.shared.stream = completedWorld.shared.stream ∧
    w'.shared.textAt key = completedWorld.shared.textAt key := by
  obtain ⟨w', hrun, hreturned⟩ := enqueueUnstored.exists_runIn fun _ _ => meetsFates_sound
  obtain ⟨t, ht, hprog⟩ := returned_eq_some hreturned
  have hrun' : machineIn.RunIn (MeetsFates machineIn (enqueuedKey config (some queuedRecord)) 1
      storeFails) completedWorld (.spawn 1 ⟨0, .enqueueBackgroundJob (some queuedRecord)⟩ ::
        [.act 1 answered, .act 1 refused]) w' := hrun
  obtain ⟨hstream, htext, -⟩ := failed_enqueue_trace keysApart_config orderly_completedWorld
    hrun' ht hprog
  exact ⟨w', hrun, hreturned, hstream, htext.mpr fun payload hpayload => by cases hpayload.2.1⟩

set_option maxRecDepth 100000 in
/-- A completed response is enqueued again, and the `XADD` fails. -/
def enqueueUnpublished : machineIn.Recording (meetsFates publishFails) completedWorld fun w =>
    returned w 1 = some unavailable ∧ w.shared.textAt key = some queuedText ∧
      w.shared.stream.isNone = true ∧ completedWorld.shared.textAt key = some completedText :=
  ⟨.spawn 1 ⟨0, .enqueueBackgroundJob (some queuedRecord)⟩ ::
    [.act 1 answered, .act 1 answered, .act 1 refused], by decide +kernel⟩

/-- **A trace.** An enqueue returns an error, the completed response is lost, and in its place is
a queued job without an entry in the stream. -/
theorem failed_enqueue_leaves_job : ∃ w', machineIn.RunIn
    (MeetsFates machineIn key 1 publishFails) completedWorld enqueueUnpublished.labels w' ∧
    returned w' 1 = some unavailable ∧ completedWorld.shared.textAt key = some completedText ∧
    w'.shared.textAt key = some queuedText ∧ w'.shared.stream = none := by
  obtain ⟨w', hrun, hreturned, htext, hstream, hbefore⟩ :=
    enqueueUnpublished.exists_runIn fun _ _ => meetsFates_sound
  exact ⟨w', hrun, hreturned, hbefore, htext, Option.isNone_iff_eq_none.mp hstream⟩

end Runs

end ResponsesApiStore
