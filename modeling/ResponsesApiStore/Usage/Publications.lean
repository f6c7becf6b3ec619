import ResponsesApiStore.Interaction.Exchanges
import ResponsesApiStore.Usage.Answers
import ResponsesApiStore.Usage.Deliveries

/-!
# Where jobs come from

The enqueue is an outbox without a transaction: the record is stored at its key, then an entry
that names the response is added to the stream. Over a whole run under names that are apart,
whatever is lost, dropped or interleaved:

* the entries that are published and the enqueues that publish belong together one to one, and
  identifiers grow (`publications_one_to_one`); an enqueue that has returned has published
  (`enqueued_was_published`);
* a job that a claim hands out comes from the stream of the start, or from exactly one enqueue,
  which had stored the record of the job before it published the entry, and did so before the
  entry was handed out (`jobs_were_enqueued`).

The program of an enqueue comes to its `XADD` with one transcript only (`publishOnce`): the
clock, and the write of the record, answered.
-/

namespace ResponsesApiStore

open Json (Serde)
open Redis (Error StreamId StreamCmd StreamStep StreamEntry EntryReply entriesOf)
open Interaction (Machine World Label Program Protocol)
open Interaction.Program

variable {N : Type}

/-! ### The transcript of a publication -/

/-- **Before a publication.** With the exchanges `es` behind it, the request publishes `fields`:
it is an enqueue that has read the clock and whose record was stored with this time. -/
structure Prepares (cfg : StoreConfig) (S : Serde N) (request : Request) (es : List sig.Exchange)
    (fields : List (String × String)) (p : ProtoStoredResponse) (payload : String) : Prop where
  request : request = .enqueueBackgroundJob (some p)
  fields : fields = [("response_id", p.responseId)]
  transcript : ∃ now, es = [⟨.now, now⟩,
    ⟨.setEx (ResponseStore.key cfg p.responseId) cfg.ttlSeconds payload, .ok ()⟩] ∧
    ∃ core : StoredResponse N, protoToCore S p = .ok core ∧
      { core with enqueuedAt := some now }.toText S = .ok payload

/-- Publishing takes a transcript that prepares it. -/
def publishOnce (cfg : StoreConfig) (S : Serde N) (request : Request) :
    Protocol sig (List sig.Exchange) :=
  .ofTranscript fun es c => ∀ maxlen fields, c = .stream (.xadd maxlen fields) →
    ∃ p payload, Prepares cfg S request es fields p payload

section Programs

variable {cfg : StoreConfig} {S : Serde N} {fuel : ℕ}

theorem eq_of_requireRecord {record : Option ProtoStoredResponse} {p : ProtoStoredResponse}
    (h : requireRecord record = .ok p) : record = some p := by
  rw [requireRecord] at h
  split at h
  · rename_i q hq
    obtain rfl := Except.ok.inj h
    exact (Option.filter_eq_some_iff.mp hq).1
  · cases h

/-- An enqueue stands before its `XADD` with one transcript. -/
theorem publishOnce_enqueue (record : Option ProtoStoredResponse) :
    (enqueueBackgroundJob cfg S record).run.Follows
      (publishOnce cfg S (.enqueueBackgroundJob record)) (fun _ _ => True) [] := by
  simp only [enqueueBackgroundJob, follows_except_bind_iff, follows_ofStatus, follows_rpc]
  rcases hp : requireRecord record with status | p
  · trivial
  dsimp only [Except.mapError]
  rcases hcore : protoToCore S p with status | core
  · trivial
  simp only [ask, follows_lift, send, call, follows_cmd, follows_ret]
  refine ⟨fun _ _ h => (by cases h), fun now => ?_⟩
  rw [ResponseStore.store, Option.getD_none]
  split_ifs with hzero
  · trivial
  rw [follows_except_bind_iff, follows_ofExcept, ResponseStore.encode]
  rcases hprint :
    ({ core with enqueuedAt := some now } : StoredResponse N).toText S with e | payload
  · trivial
  simp only [Except.mapError, follows_storage, send, call, follows_cmd, follows_ret]
  refine ⟨fun _ _ h => (by cases h), fun reply => ?_⟩
  rcases reply with e | _
  · trivial
  simp only [Except.mapError, BackgroundQueue.enqueue, follows_storage, send, call, follows_cmd,
    follows_ret]
  refine ⟨?_, fun reply => ?_⟩
  · rintro maxlen fields ⟨⟩
    obtain rfl := eq_of_requireRecord hp
    exact ⟨p, payload, rfl, rfl, now, rfl, core, hcore, hprint⟩
  · rcases reply with e | _ <;> trivial

/-- **A publication is prepared.** -/
theorem publishOnce_serve [DecidableEq N] (request : Request) :
    (serve cfg S fuel request).Follows (publishOnce cfg S request) (fun _ _ => True) [] := by
  by_cases h : ∃ record, request = .enqueueBackgroundJob record
  · obtain ⟨record, rfl⟩ := h
    exact publishOnce_enqueue record
  -- the discipline lets nobody else publish
  · refine (serve_follows fuel request).safe (fun g c hallowed es => ?_) []
    rintro maxlen fields rfl
    obtain ⟨record, p, hrequest, -⟩ := hallowed.2.2
    exact absurd ⟨record, hrequest⟩ h

end Programs

/-! ### Publications of a run -/

/-- Step `l` publishes the entry `e` for task `i`. -/
def Publishes (i : ℕ) (e : StreamEntry) (w : DWorld) (l : DLabel) : Prop :=
  ∃ t maxlen choice, Runs w l i t (.stream (.xadd maxlen e.fields)) ∧ l = .act i choice ∧
    choice.stream.id = e.id

/-- The last identifier that the stream has given out. -/
def lastIdOf (w : DWorld) : StreamId := (w.shared.stream.getD .empty).lastId

/-- An `XADD` that runs adds one entry, with the identifier chosen, above all others. -/
theorem run_xadd {s s' : Option Redis.Stream} {choice : Redis.StreamChoice} {maxlen : Option ℕ}
    {fields : List (String × String)} {r : Except Error Unit}
    (h : (StreamCmd.xadd maxlen fields).run s choice = some (s', r)) :
    (s.getD .empty).lastId < choice.id ∧ (s'.getD .empty).lastId = choice.id ∧
      ∀ e ∈ entriesOf s', e ∈ entriesOf s ∨ e = ⟨choice.id, fields⟩ := by
  simp only [StreamCmd.run] at h
  split at h
  · rename_i hid
    split at h
    · obtain ⟨rfl, -⟩ := Prod.mk.inj (Option.some.inj h)
      refine ⟨hid, by split_ifs <;> rfl, fun e he => ?_⟩
      have hadded : e ∈ ((s.getD .empty).add choice.id fields hid).entries := by
        split_ifs at he
        · exact List.mem_of_mem_drop he
        · exact he
      rcases List.mem_append.mp hadded with hold | hnew
      · exact .inl hold
      · exact .inr (List.mem_singleton.mp hnew)
    · cases h
  · cases h

/-- A command on the stream that is executed runs with the choice made. -/
theorem run_of_exec {σ σ' : Shared} {i n : ℕ} {choice : Choice} {c : StreamCmd} {r : c.Reply}
    (h : σ.exec i n choice (.stream c) = some (σ', r)) (hran : choice.delivery.ran = true) :
    ∃ r', c.run σ.stream choice.stream = some (σ'.stream, r') := by
  simp only [Shared.exec] at h
  split at h
  · rename_i hlost
    rw [hlost] at hran
    cases hran
  · obtain ⟨⟨s', r'⟩, hrun, heq⟩ := Option.map_eq_some_iff.mp h
    obtain ⟨rfl, -⟩ := Prod.mk.inj heq
    exact ⟨r', hrun⟩

/-- The last identifier never goes back. -/
theorem lastId_mono {s s' : Option Redis.Stream} {c : StreamCmd} {handed : List EntryReply}
    (hstep : StreamStep s c s' handed) :
    (s.getD .empty).lastId ≤ (s'.getD .empty).lastId := by
  cases hstep with
  | same | created => exact le_rfl
  | added hid hlength | trimmed hid hlength => exact hid.le
  | acked hs | reassigned hs | delivered hs =>
    rw [hs]
    exact le_rfl

section Runs

variable [DecidableEq N] {cfg : StoreConfig} {S : Serde N} {fuel : ℕ}
  {ok : DWorld → DLabel → Prop} {w₀ w w' : DWorld} {ls : List DLabel} {l : DLabel} {i j : ℕ}
  {e e' : StreamEntry}

/-- A publication is above all that was given out before, and is given out afterwards. -/
theorem Publishes.lastId (h : Publishes i e w l) (hs : (deployment cfg S fuel).Stepped w l w') :
    lastIdOf w < e.id ∧ lastIdOf w' = e.id := by
  obtain ⟨t, maxlen, choice, hruns, rfl, hid⟩ := h
  obtain ⟨choice', k, σ, r, hlabel, hran, -, hexec, rfl⟩ := hruns.stepped hs
  obtain rfl := (Label.act.inj hlabel).2
  obtain ⟨r', hrun⟩ := run_of_exec hexec hran
  obtain ⟨hbefore, hafter, -⟩ := run_xadd hrun
  rw [← hid]
  exact ⟨hbefore, hafter⟩

theorem Sound.lastId_le (h : Sound cfg S w) (hs : (deployment cfg S fuel).Stepped w l w') :
    lastIdOf w ≤ lastIdOf w' := by
  rcases h.stream_step hs with hsame | ⟨j, t, c, handed, -, -, hstep⟩
  · rw [lastIdOf, lastIdOf, hsame]
  · exact lastId_mono hstep

/-- The task has sent an `XADD`. -/
def HasPublished (i : ℕ) (w : DWorld) : Prop :=
  ∃ t, w.tasks i = some t ∧ ∃ maxlen fields r, (⟨.stream (.xadd maxlen fields), r⟩ : sig.Exchange) ∈
    t.transcript

theorem HasPublished.step (h : HasPublished i w) (hs : (deployment cfg S fuel).Stepped w l w') :
    HasPublished i w' := by
  obtain ⟨t, htask, maxlen, fields, r, hmem⟩ := h
  rcases hs.task_next htask with hsame | ⟨c, k, r', σ, choice, -, -, -, -, hnext⟩ | ⟨-, hnext⟩
  · exact ⟨t, hsame, maxlen, fields, r, hmem⟩
  · exact ⟨_, hnext, maxlen, fields, r, List.mem_append_left _ hmem⟩
  · exact ⟨_, hnext, maxlen, fields, r, hmem⟩

theorem Publishes.hasPublished (h : Publishes i e w l)
    (hs : (deployment cfg S fuel).Stepped w l w') : HasPublished i w' := by
  obtain ⟨t, maxlen, choice, hruns, rfl, -⟩ := h
  obtain ⟨choice', k, σ, r, -, -, -, -, rfl⟩ := hruns.stepped hs
  exact ⟨_, World.put_tasks_self _ _ _, maxlen, e.fields, r, List.mem_append_right _ (by simp)⟩

/-- A task that publishes is an enqueue that has stored its record, and has not published yet. -/
theorem Publishes.prepared (hw : Initial w₀) (hrun : (deployment cfg S fuel).RunIn ok w₀ ls w)
    (h : Publishes i e w l) :
    ∃ t p payload, w.tasks i = some t ∧
      Prepares cfg S t.call.request t.transcript e.fields p payload := by
  obtain ⟨t, maxlen, choice, hruns, -, -⟩ := h
  obtain ⟨k, hprog⟩ := hruns.prog
  have hserve : (serve cfg S fuel t.call.request).Follows (publishOnce cfg S t.call.request)
      (fun _ _ => True) [] := publishOnce_serve t.call.request
  have hfollows := hserve.resume (hrun.transcribed hw.tasks i t hruns.task)
  rw [hprog, publishOnce, Protocol.after_ofTranscript, List.nil_append] at hfollows
  obtain ⟨p, payload, hprepares⟩ := hfollows.1 maxlen e.fields rfl
  exact ⟨t, p, payload, hruns.task, hprepares⟩

theorem Publishes.not_hasPublished (hw : Initial w₀)
    (hrun : (deployment cfg S fuel).RunIn ok w₀ ls w) (h : Publishes i e w l) :
    ¬HasPublished i w := by
  obtain ⟨t, p, payload, htask, -, -, now, htranscript, -⟩ := h.prepared hw hrun
  rintro ⟨t', htask', maxlen, fields, r, hmem⟩
  obtain rfl := Option.some.inj (htask.symm.trans htask')
  rw [htranscript] at hmem
  simp at hmem

/-- What a publication of the past has left behind. -/
theorem published_before (hw : Initial w₀) (hrun : (deployment cfg S fuel).RunIn ok w₀ ls w)
    (h : (deployment cfg S fuel).Takes ok (Publishes i e) w₀ ls w) :
    e.id ≤ lastIdOf w ∧ HasPublished i w := by
  obtain ⟨ls₁, l, ls₂, x, y, rfl, hx, -, hpublishes, hy, hrest⟩ := h
  have hs := Machine.step_eq_some_iff.mp hy
  have hsound : Sound cfg S y := (sound_of_run hw hx).step hs
  refine hsound.invariant (I := fun w => e.id ≤ lastIdOf w ∧ HasPublished i w)
    (fun u l v hu hI _ hs => ⟨hI.1.trans (hu.lastId_le hs), hI.2.step hs⟩) hrest ?_
  exact ⟨(hpublishes.lastId hs).2.ge, hpublishes.hasPublished hs⟩

/-- **Publications and enqueues, one to one.** In every run: two publications for one task, or of
one identifier, are the same. -/
theorem publications_one_to_one (hw : Initial w₀)
    (hrun : (deployment cfg S fuel).RunIn ok w₀ ls w)
    (h : (deployment cfg S fuel).Takes ok (Publishes i e) w₀ ls w)
    (h' : (deployment cfg S fuel).Takes ok (Publishes j e') w₀ ls w)
    (hsame : i = j ∨ e.id = e'.id) : i = j ∧ e = e' := by
  refine hrun.snoc_induction (motive := fun ls w => ∀ i j e e',
    (deployment cfg S fuel).Takes ok (Publishes i e) w₀ ls w →
    (deployment cfg S fuel).Takes ok (Publishes j e') w₀ ls w →
    i = j ∨ e.id = e'.id → i = j ∧ e = e') ?_ ?_ i j e e' h h' hsame
  · rintro i j e e' ⟨ls₁, l, ls₂, -, -, hnil, -⟩
    simp at hnil
  · intro ls x l y hx ih hok hs i j e e' h h' hsame
    -- a publication of the past is neither by the task of the last one, nor of its identifier
    have hapart : ∀ i j e e', (deployment cfg S fuel).Takes ok (Publishes i e) w₀ ls x →
        Publishes j e' x l → ¬(i = j ∨ e.id = e'.id) := by
      intro i j e e' hbefore hlast hsame
      obtain ⟨hle, hpublished⟩ := published_before hw hx hbefore
      rcases hsame with rfl | hid
      · exact hlast.not_hasPublished hw hx hpublished
      · exact absurd (hlast.lastId hs).1 (not_lt.mpr (hid ▸ hle))
    rcases h.of_snoc hx with hbefore | hlast <;> rcases h'.of_snoc hx with hbefore' | hlast'
    · exact ih i j e e' hbefore hbefore' hsame
    · exact absurd hsame (hapart i j e e' hbefore hlast')
    · have hsame' : j = i ∨ e'.id = e.id := hsame.imp Eq.symm Eq.symm
      exact absurd hsame' (hapart j i e' e hbefore' hlast)
    · -- one step is one publication
      obtain ⟨t, maxlen, choice, hruns, rfl, hid⟩ := hlast
      obtain ⟨t', maxlen', choice', hruns', hlabel, hid'⟩ := hlast'
      obtain ⟨rfl, rfl⟩ := Label.act.inj hlabel
      obtain rfl : t = t' := Option.some.inj (hruns.task.symm.trans hruns'.task)
      obtain ⟨k, hprog⟩ := hruns.prog
      obtain ⟨k', hprog'⟩ := hruns'.prog
      have hcommand := congrArg Program.command? (hprog.symm.trans hprog')
      have hfields : e.fields = e'.fields := by
        have hcmd := Cmd.stream.inj (Option.some.inj hcommand)
        exact (StreamCmd.xadd.inj hcmd).2
      refine ⟨rfl, ?_⟩
      cases e
      cases e'
      exact congrArg₂ StreamEntry.mk (hid.symm.trans hid') hfields

/-! ### The history of a job -/

/-- **The history of an enqueue.** In the run `ls`, task `i`, an enqueue of `p`, has left the text
of its record at the key of the record, and later it has published the entry `e`. -/
def EnqueuedBy (M : DMachine) (cfg : StoreConfig) (S : Serde N) (ok : DWorld → DLabel → Prop)
    (w₀ : DWorld) (ls : List DLabel) (i : ℕ) (p : ProtoStoredResponse) (e : StreamEntry) : Prop :=
  ∃ ls₁ l ls₂ x t payload, ls = ls₁ ++ l :: ls₂ ∧ M.RunIn ok w₀ ls₁ x ∧
    x.tasks i = some t ∧ Publishes i e x l ∧
    Prepares cfg S t.call.request t.transcript e.fields p payload ∧
    M.Takes ok (LeavesText M cfg i p.responseId (some payload)) w₀ ls₁ x

/-- What is published has been stored before. -/
theorem Publishes.enqueuedBy {ls₂ : List DLabel} (h : Publishes i e w l) (hw : Initial w₀)
    (hrun : (deployment cfg S fuel).RunIn ok w₀ ls w) {t : DTask} (htask : w.tasks i = some t) :
    ∃ p, t.call.request = .enqueueBackgroundJob (some p) ∧
      EnqueuedBy (deployment cfg S fuel) cfg S ok w₀ (ls ++ l :: ls₂) i p e := by
  obtain ⟨t', p, payload, htask', hprepares⟩ := h.prepared hw hrun
  obtain rfl : t = t' := Option.some.inj (htask.symm.trans htask')
  refine ⟨p, hprepares.request, ls, l, ls₂, w, t, payload, rfl, hrun, htask, h, hprepares, ?_⟩
  obtain ⟨now, htranscript, -⟩ := hprepares.transcript
  have hstored : t.transcript = [⟨.now, now⟩] ++
    ⟨.setEx (ResponseStore.key cfg p.responseId) cfg.ttlSeconds payload, .ok ()⟩ :: [] :=
      htranscript
  refine (hrun.takes_exchange hw.tasks htask hstored).imp ?_
  rintro - u l' - - ⟨σ, hexchange⟩
  obtain ⟨choice, v, hl, hs, rfl⟩ := hexchange.stepped
  obtain ⟨t', k, choice', -, -, -, -, -, -, hexec⟩ := hexchange
  replace hexec : u.shared.exec i t.call.server choice' (.setEx _ cfg.ttlSeconds payload) =
    some (v.shared, .ok ()) := hexec
  exact ⟨choice, v, hl, hs, exec_setEx_ok hexec⟩

/-- The history of an enqueue in the deployment is one over one keyspace. -/
theorem EnqueuedBy.oneKeyspace (hapart : KeysApart cfg) (hw : Orderly cfg w₀)
    (hleaves : ∀ l ∈ ls, LeavesQueue cfg l = true) {p : ProtoStoredResponse}
    (h : EnqueuedBy (deployment cfg S fuel) cfg S ok w₀ ls i p e) :
    EnqueuedBy (oneKeyspace cfg S fuel) cfg S ok w₀ ls i p e := by
  obtain ⟨ls₁, l, ls₂, x, t, payload, rfl, hx, htask, hpublishes, hprepares, htakes⟩ := h
  have hbefore := (List.forall_mem_append.mp hleaves).1
  refine ⟨ls₁, l, ls₂, x, t, payload, rfl, runIn_oneKeyspace hapart hw hbefore hx, htask,
    hpublishes, hprepares, ?_⟩
  refine (takes_oneKeyspace hapart hw hbefore htakes).imp ?_
  rintro ls' u l' hu - ⟨choice, y, rfl, hs, htext⟩
  have hstep := Machine.step_eq_some_iff.mpr hs
  refine ⟨choice, y, rfl, Machine.step_eq_some_iff.mp ?_, htext⟩
  exact ((hw.run hapart hu).step_eq hapart rfl).symm.trans hstep

/-- An entry of the stream was there at the start, or was published. -/
theorem entry_was_published (hw : Initial w₀) (hrun : (deployment cfg S fuel).RunIn ok w₀ ls w)
    (he : e ∈ entriesOf w.shared.stream) :
    e ∈ entriesOf w₀.shared.stream ∨
      ∃ i, (deployment cfg S fuel).Takes ok (Publishes i e) w₀ ls w := by
  refine hrun.snoc_induction (motive := fun ls w => ∀ e ∈ entriesOf w.shared.stream,
    e ∈ entriesOf w₀.shared.stream ∨
      ∃ i, (deployment cfg S fuel).Takes ok (Publishes i e) w₀ ls w) ?_ ?_ e he
  · exact fun e he => .inl he
  · intro ls x l y hx ih hok hs e he
    have hold : e ∈ entriesOf x.shared.stream → e ∈ entriesOf w₀.shared.stream ∨
        ∃ i, (deployment cfg S fuel).Takes ok (Publishes i e) w₀ (ls ++ [l]) y := fun he =>
      (ih e he).imp_right fun hi => hi.imp fun i htakes => htakes.snoc hok hs
    rcases (sound_of_run hw hx).stream_step hs with
      hsame | ⟨i, t, c, handed, hruns, -, hstep⟩
    · exact hold (hsame ▸ he)
    · rcases hstep.entries_cases he with he | ⟨maxlen, rfl⟩
      · exact hold he
      · obtain ⟨choice, k, σ, r, rfl, hran, -, hexec, rfl⟩ := hruns.stepped hs
        obtain ⟨r', hrun⟩ := run_of_exec hexec hran
        rcases (run_xadd hrun).2.2 e he with he | hnew
        · exact hold he
        · have hid : choice.stream.id = e.id := by rw [hnew]
          exact .inr ⟨i, hx.takes_last hok ⟨t, maxlen, choice, hruns, rfl, hid⟩ hs⟩

omit [DecidableEq N] in
/-- An enqueue that returns has had its `XADD` answered. -/
theorem returns_enqueued {record : Option ProtoStoredResponse} {es : List sig.Exchange}
    (h : (enqueueBackgroundJob cfg S record).run.Returns es (.ok .enqueued)) :
    ∃ es' maxlen fields, es = es' ++ [⟨.stream (.xadd maxlen fields), .ok ()⟩] := by
  rw [enqueueBackgroundJob] at h
  obtain ⟨es₁, es₂, p, rfl, -, h⟩ := h.bind_ok
  obtain ⟨es₂, es₃, core, rfl, -, h⟩ := h.bind_ok
  obtain ⟨es₃, es₄, now, rfl, -, h⟩ := h.bind_ok
  obtain ⟨es₄, es₅, ⟨⟩, rfl, -, h⟩ := h.bind_ok
  obtain ⟨es₅, es₆, ⟨⟩, rfl, hpublish, h⟩ := h.bind_ok
  obtain ⟨rfl, -⟩ := returns_ret.mp h
  obtain ⟨r, hpublish, hr⟩ := returns_rpc.mp hpublish
  obtain rfl := mapError_eq_ok_iff.mp hr.symm
  rw [BackgroundQueue.enqueue] at hpublish
  obtain ⟨reply, hsend, hreply⟩ := returns_storage.mp hpublish
  obtain rfl := mapError_eq_ok_iff.mp hreply.symm
  obtain rfl := returns_call.mp hsend
  refine ⟨es₁ ++ (es₂ ++ (es₃ ++ es₄)),
    if 0 < cfg.streamMaxlen then some cfg.streamMaxlen else none,
    [("response_id", p.responseId)], ?_⟩
  rw [List.append_nil, List.append_assoc, List.append_assoc, List.append_assoc]

/-- An `XADD` that was answered has run. -/
theorem ran_of_xadd {σ σ' : Shared} {n : ℕ} {choice : Choice} {maxlen : Option ℕ}
    {fields : List (String × String)}
    (h : σ.exec i n choice (.stream (.xadd maxlen fields)) = some (σ', .ok ())) :
    choice.delivery.ran = true := by
  simp only [Shared.exec] at h
  split at h
  · cases h
  · rename_i hran
    rcases hd : choice.delivery with _ | ⟨err, _ | _, reconnected⟩
    · rfl
    · exact absurd hd (hran err reconnected)
    · rfl

/-- **An enqueue publishes once.** In every run under names that are apart: an enqueue publishes one
entry at most, and no other task publishes under its identifier; when it has returned, it has stored
its record and then published. -/
theorem enqueue_publishes_once (hapart : KeysApart cfg) (hw : SortedStart cfg w₀)
    (hrun : (oneKeyspace cfg S fuel).RunIn ok w₀ ls w)
    {t : DTask} (htask : w.tasks i = some t) {record : Option ProtoStoredResponse}
    (hrequest : t.call.request = .enqueueBackgroundJob record) :
    (∀ j e e', (oneKeyspace cfg S fuel).Takes ok (Publishes i e) w₀ ls w →
      (oneKeyspace cfg S fuel).Takes ok (Publishes j e') w₀ ls w →
      i = j ∨ e.id = e'.id → i = j ∧ e = e') ∧
    (t.prog = .ret (.ok .enqueued) → ∃ e p, record = some p ∧
      EnqueuedBy (oneKeyspace cfg S fuel) cfg S ok w₀ ls i p e) := by
  have horderly : Orderly cfg w₀ := hw.orderly
  have hleaves := leavesQueue_of_run hrun
  replace hrun := runIn_deployment hapart horderly hrun
  replace hw : Initial w₀ := hw.toInitial
  refine ⟨fun j e e' h h' => publications_one_to_one hw hrun
    (takes_deployment hapart horderly hleaves h) (takes_deployment hapart horderly hleaves h'),
    fun hprog => ?_⟩
  have hreturns := returns_of_run hw hrun htask hprog
  rw [hrequest] at hreturns
  obtain ⟨es, maxlen, fields, htranscript⟩ := returns_enqueued hreturns
  obtain ⟨ls₁, l, ls₂, x, y, hls, hx, hok, hexchange, hy, hrest⟩ :=
    hrun.takes_exchange hw.tasks htask htranscript
  obtain ⟨σ, u, k, choice, hu, hlive, hcall, -, hprog', rfl, hexec⟩ := hexchange
  replace hexec : x.shared.exec i t.call.server choice (.stream (.xadd maxlen fields)) =
    some (σ, .ok ()) := hexec
  have hran := ran_of_xadd hexec
  have hruns : Runs x (.act i choice) i u (.stream (.xadd maxlen fields)) :=
    ⟨hu, hlive, ⟨k, hprog'⟩, choice, rfl, hran⟩
  have hpublishes : Publishes i ⟨choice.stream.id, fields⟩ x (.act i choice) :=
    ⟨u, maxlen, choice, hruns, rfl, rfl⟩
  obtain ⟨p, hrequest', henqueued⟩ := hpublishes.enqueuedBy hw hx hu
  have hrecord : record = some p := by
    rw [hcall, hrequest] at hrequest'
    exact Request.enqueueBackgroundJob.inj hrequest'
  replace henqueued : EnqueuedBy (deployment cfg S fuel) cfg S ok w₀ ls i p _ := hls ▸ henqueued
  exact ⟨_, p, hrecord, henqueued.oneKeyspace hapart horderly hleaves⟩

/-! ### Where the jobs of a claim come from -/

omit [DecidableEq N] in
/-- A list printed item by item keeps what the printing of an item keeps. -/
theorem map_of_mapM {α β γ ε : Type} {f : α → Except ε β} {g : β → γ} {k : α → γ} {as : List α}
    {bs : List β} (h : as.mapM f = .ok bs) (hf : ∀ a b, f a = .ok b → g b = k a) :
    bs.map g = as.map k := by
  induction as generalizing bs with
  | nil =>
    obtain rfl := Except.ok.inj h
    rfl
  | cons a as ih =>
    rw [List.mapM_cons] at h
    obtain ⟨b, hb, h⟩ := bind_eq_ok_iff.mp h
    obtain ⟨bs', hbs, h⟩ := bind_eq_ok_iff.mp h
    obtain rfl := Except.ok.inj h
    rw [List.map_cons, List.map_cons, ih hbs, hf a b hb]

/-- The entries that an answer of a claim names, with their responses. -/
def namedJobs (jobs : List ProtoBackgroundJob) (pendingJobs : List PendingBackgroundJob) :
    List (String × String) :=
  jobs.map (fun job => (job.streamId, job.responseId)) ++
    pendingJobs.map fun job => (job.streamId, job.responseId)

omit [DecidableEq N] in
/-- A claim names the responses that the entries it was handed carry. -/
theorem entry_of_named {claim : ClaimBackgroundJobsRequest} {es : List sig.Exchange}
    {jobs : List ProtoBackgroundJob} {pendingStreamIds : List String}
    {pendingJobs : List PendingBackgroundJob}
    (h : (claimBackgroundJobs cfg S claim).run.Returns es
      (.ok (.claimedJobs jobs pendingStreamIds pendingJobs)))
    {job : String × String} (hjob : job ∈ namedJobs jobs pendingJobs) :
    ∃ autoclaimed entry, (autoclaimed, entry) ∈ es.flatMap entriesIn ∧ entry.id = job.1 ∧
      BackgroundQueue.entryField entry "response_id" = some job.2 := by
  obtain ⟨es₁, es₂, es₃, cursor, cursor', batch, rfl, hbefore, hclaim, hafter, hjobs, -, rfl⟩ :=
    returns_claimBackgroundJobs h
  obtain ⟨entries, handled, hhalf, rfl, -⟩ := returns_claimJobs (fun _ => False) hclaim
  have hentries : (es₁ ++ (es₂ ++ es₃)).flatMap entriesIn = entries := by
    rw [List.flatMap_append, List.flatMap_append, hbefore.entries, hafter.entries,
      hhalf.handledIn.reads.entries, List.append_nil, List.nil_append]
  -- a job and a pending job are named by an entry that was handled
  have hnamed : ∃ e ∈ handled, (e.entry.id, e.responseId) = job := by
    rcases List.mem_append.mp hjob with hjob | hjob
    · rw [map_of_mapM (k := fun job => (job.streamId, job.responseId)) hjobs
        fun a b hb => ?_] at hjob
      · obtain ⟨j, hj, heq⟩ := List.mem_map.mp hjob
        obtain ⟨e, he, hsome⟩ := List.mem_filterMap.mp hj
        rw [Handled.job?] at hsome
        split at hsome
        · obtain rfl := Option.some.inj hsome
          exact ⟨e, he, heq⟩
        · cases hsome
      · obtain ⟨record, -, hb⟩ := bind_eq_ok_iff.mp hb
        rw [← Except.ok.inj hb]
    · obtain ⟨j, hj, heq⟩ := List.mem_map.mp hjob
      obtain ⟨e, he, hsome⟩ := List.mem_filterMap.mp hj
      rw [Handled.pending?] at hsome
      split at hsome
      · obtain rfl := Option.some.inj hsome
        exact ⟨e, he, heq⟩
      · cases hsome
  obtain ⟨e, he, rfl⟩ := hnamed
  have hcarrying : (e.autoclaimed, e.entry) ∈ carrying entries := by
    rw [← hhalf.entries]
    exact List.mem_map.mpr ⟨e, he, rfl⟩
  have hmem : (e.autoclaimed, e.entry) ∈ entries := (List.mem_filter.mp hcarrying).1
  exact ⟨e.autoclaimed, e.entry, hentries ▸ hmem, rfl, (hhalf.handledIn.loaded e he).field⟩

omit [DecidableEq N] in
/-- An entry in a reply was handed out by a command that takes entries. -/
theorem handed_of_entriesIn {ex : sig.Exchange} {autoclaimed : Bool} {entry : EntryReply}
    (h : (autoclaimed, entry) ∈ entriesIn ex) :
    ∃ sc r, ex = ⟨.stream sc, r⟩ ∧ entry ∈ sc.handed r := by
  obtain ⟨c, r⟩ := ex
  cases c with
  | stream sc =>
    cases sc with
    | xreadgroup group consumer count block =>
      rcases r with e | (_ | entries)
      · cases h
      · cases h
      · obtain ⟨entry', hmem, heq⟩ := List.mem_map.mp h
        obtain ⟨-, rfl⟩ := Prod.mk.inj heq
        exact ⟨_, _, rfl, hmem⟩
    | xautoclaim group consumer minIdle start count =>
      rcases r with e | reply
      · cases h
      · obtain ⟨entry', hmem, heq⟩ := List.mem_map.mp h
        obtain ⟨-, rfl⟩ := Prod.mk.inj heq
        exact ⟨_, _, rfl, hmem⟩
    | _ => cases h
  | _ => cases h

/-- **Jobs were enqueued.** In every run under names that are apart, for each job and pending job
that a claim has returned: a step of the claim took an entry that names it out of the stream. This
entry was there at the start of the run; or, before this step, one enqueue of the response, and no
other task, had stored the record of the response and then published the entry. -/
theorem jobs_were_enqueued (hapart : KeysApart cfg) (hw : SortedStart cfg w₀)
    (hrun : (oneKeyspace cfg S fuel).RunIn ok w₀ ls w) {t : DTask}
    {claim : ClaimBackgroundJobsRequest} {jobs : List ProtoBackgroundJob}
    {pendingStreamIds : List String} {pendingJobs : List PendingBackgroundJob}
    (htask : w.tasks i = some t) (hrequest : t.call.request = .claimBackgroundJobs claim)
    (hprog : t.prog = .ret (.ok (.claimedJobs jobs pendingStreamIds pendingJobs)))
    {job : String × String} (hjob : job ∈ namedJobs jobs pendingJobs) :
    ∃ ls₁ l ls₂ x e, ls = ls₁ ++ l :: ls₂ ∧ (oneKeyspace cfg S fuel).RunIn ok w₀ ls₁ x ∧
      (∃ choice, l = .act i choice) ∧ e ∈ entriesOf x.shared.stream ∧
      e.id.format = job.1 ∧ IsJobOf e job.2 ∧
      (e ∈ entriesOf w₀.shared.stream ∨ ∃ j p, p.responseId = job.2 ∧
        EnqueuedBy (oneKeyspace cfg S fuel) cfg S ok w₀ ls₁ j p e ∧
        ∀ j' e', (oneKeyspace cfg S fuel).Takes ok (Publishes j' e') w₀ ls w →
          e'.id = e.id → j' = j) := by
  have horderly : Orderly cfg w₀ := hw.orderly
  have hleaves := leavesQueue_of_run hrun
  replace hrun := runIn_deployment hapart horderly hrun
  replace hw : Initial w₀ := hw.toInitial
  have hreturns := returns_of_run hw hrun htask hprog
  rw [hrequest] at hreturns
  obtain ⟨autoclaimed, entry, hentry, hid, hfield⟩ := entry_of_named hreturns hjob
  obtain ⟨ex, hex, hin⟩ := List.mem_flatMap.mp hentry
  obtain ⟨sc, r, rfl, hhanded⟩ := handed_of_entriesIn hin
  obtain ⟨es, es', htranscript⟩ := List.append_of_mem hex
  obtain ⟨ls₁, l, ls₂, x, y, hls, hx, hok,
    ⟨σ, u, k, choice, hu, hlive, hcall, -, hprog', hl, hexec⟩,
    hy, hrest⟩ := hrun.takes_exchange hw.tasks htask htranscript
  replace hexec : x.shared.exec i t.call.server choice (.stream sc) = some (σ, r) := hexec
  obtain ⟨-, handed, hstep, hmem⟩ := exec_stream hexec
  obtain ⟨g, -, htakes, e, he, heq, -⟩ := hstep.handed_delivered (hmem entry hhanded)
  -- the command takes entries, so it adds none
  have hbefore : e ∈ entriesOf x.shared.stream := by
    rcases hstep.entries_cases he with hold | ⟨maxlen, rfl⟩
    · exact hold
    · cases htakes
  have hformat : e.id.format = job.1 := by
    rw [← hid, ← heq]
    rfl
  have hjobOf : IsJobOf e job.2 := by
    rw [IsJobOf, heq]
    exact hfield
  have hleaves₁ : ∀ l ∈ ls₁, LeavesQueue cfg l = true :=
    (List.forall_mem_append.mp (hls ▸ hleaves)).1
  refine ⟨ls₁, l, ls₂, x, e, hls, runIn_oneKeyspace hapart horderly hleaves₁ hx, ⟨choice, hl⟩,
    hbefore, hformat, hjobOf, ?_⟩
  refine (entry_was_published hw hx hbefore).imp_right ?_
  rintro ⟨j, htakes⟩
  have hall : (deployment cfg S fuel).Takes ok (Publishes j e) w₀ ls w := by
    obtain ⟨ls₃, l', ls₄, u', v, rfl, hu', hok', hpublishes, hv, hrest'⟩ := htakes
    refine ⟨ls₃, l', ls₄ ++ l :: ls₂, u', v, by simp [hls], hu', hok', hpublishes, hv, ?_⟩
    exact hrest'.append ⟨hok, y, hy, hrest⟩
  obtain ⟨ls₃, l', ls₄, u', v, rfl, hu', -, hpublishes, -, -⟩ := htakes
  obtain ⟨u'', p, payload, hu'', hprepares⟩ := hpublishes.prepared hw hu'
  obtain ⟨p', hp', henqueued⟩ := hpublishes.enqueuedBy hw hu' hu''
  obtain rfl : p = p' := by
    rw [hprepares.request] at hp'
    exact Option.some.inj (Request.enqueueBackgroundJob.inj hp')
  have hresponse : p.responseId = job.2 := by
    have hsome : BackgroundQueue.entryField ⟨e.id.format, e.fields⟩ "response_id" = some job.2 :=
      hjobOf
    rw [hprepares.fields] at hsome
    exact Option.some.inj hsome
  refine ⟨j, p, hresponse, henqueued.oneKeyspace hapart horderly hleaves₁,
    fun j' e' htakes' hsame => ?_⟩
  have hother := takes_deployment hapart horderly hleaves htakes'
  exact (publications_one_to_one hw hrun hother hall (.inr hsame)).1

end Runs

section Sample

open Sample

set_option maxRecDepth 100000 in
/-- A job is published by task `1` and claimed by task `3`. -/
def enqueuedAndClaimed : machineIn.Recording (fun _ _ => true) (start none) (fun w =>
    requestOf w 1 = some (.enqueueBackgroundJob (some queuedRecord)) ∧
    returned w 1 = some (.ok .enqueued) ∧
    requestOf w 3 = some (.claimBackgroundJobs claimOne) ∧
    returned w 3 =
      some (.ok (.claimedJobs [⟨"5-3", "resp_1", queuedRecord, false, none⟩] [] []))) :=
  ⟨enqueue ++ call 2 (.ensureConsumerGroup "g" "") 1 ++ call 3 (.claimBackgroundJobs claimOne) 4,
    by decide +kernel⟩

/-- The enqueue has stored its record, and then published. -/
theorem enqueue_publishes_once_one :
    ∃ w, machineIn.Run (start none) enqueuedAndClaimed.labels w ∧
      returned w 1 = some (.ok .enqueued) ∧ ∃ e p, some queuedRecord = some p ∧
        EnqueuedBy machineIn config serde (fun _ _ => True) (start none)
        enqueuedAndClaimed.labels 1 p e := by
  obtain ⟨w, hrun, hrequest, hreturned, -⟩ := enqueuedAndClaimed.exists_run
  obtain ⟨t, htask, hrequest, hprog⟩ := task_of_returned hrequest hreturned
  exact ⟨w, hrun, hreturned,
    (enqueue_publishes_once keysApart_config (sortedStart_start none) hrun htask hrequest).2 hprog⟩

/-- The job that was claimed comes from an enqueue. -/
theorem jobs_were_enqueued_one :
    ∃ w, machineIn.Run (start none) enqueuedAndClaimed.labels w ∧
      returned w 3 =
        some (.ok (.claimedJobs [⟨"5-3", "resp_1", queuedRecord, false, none⟩] [] [])) ∧
      ∃ ls₁ j p e, p.responseId = "resp_1" ∧ e.id.format = "5-3" ∧
        EnqueuedBy machineIn config serde (fun _ _ => True) (start none) ls₁ j p e := by
  obtain ⟨w, hrun, -, -, hrequest, hreturned⟩ := enqueuedAndClaimed.exists_run
  obtain ⟨t, htask, hrequest, hprog⟩ := task_of_returned hrequest hreturned
  have hjob : ("5-3", "resp_1") ∈
      namedJobs [⟨"5-3", "resp_1", queuedRecord, false, none⟩] [] := List.mem_cons_self
  obtain ⟨ls₁, l, ls₂, x, e, -, -, -, -, hid, -, hold | ⟨j, p, hp, henqueued, -⟩⟩ :=
    jobs_were_enqueued keysApart_config (sortedStart_start none) hrun htask hrequest hprog hjob
  · cases hold
  · exact ⟨w, hrun, hreturned, ls₁, j, p, e, hp, hid, henqueued⟩

end Sample

end ResponsesApiStore
