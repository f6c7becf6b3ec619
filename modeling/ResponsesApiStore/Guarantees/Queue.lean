import ResponsesApiStore.System.Jobs
import ResponsesApiStore.System.OneKeyspace

/-!
# No job is lost

Without trimming, every published entry stays in the stream, and for a group created at the
start of the stream it is at any time in exactly one of three places: not delivered yet,
pending, or acknowledged (`Placed`). It gets acknowledged for one of two reasons
(`AcknowledgedBecause`): a request names it, or a claim that holds it has loaded its record
after the delivery and found nothing that can be read.

An enqueue stores the record before it publishes the entry. So where the records stored by the
enqueues of a response stay readable (`StaysReadable`), a claim never drops an entry of it
(`not_dropped`).

All of it is said of the service over one keyspace, and for names that are apart: under the key
prefix `jobs` and the stream key `jobs:queue` the record of the response `queue` replaces the stream
(`job_lost_to_record`).
-/

namespace ResponsesApiStore

open Json (Serde)
open Redis (StreamCmd EntryReply StreamEntry StreamId Group entriesOf groupsOf)
open Interaction (Machine World Label Program)

variable {N : Type} {M : DMachine}

/-! ### Places -/

/-- The entry is in exactly one place: not delivered yet, pending, or acknowledged. -/
def Placed (g : Group) (id : StreamId) : Prop :=
  (g.lastDelivered < id ∧ (∀ p ∈ g.pel, p.id ≠ id) ∧ id ∉ g.acked) ∨
    (¬g.lastDelivered < id ∧ (∃ p ∈ g.pel, p.id = id) ∧ id ∉ g.acked) ∨
    (¬g.lastDelivered < id ∧ (∀ p ∈ g.pel, p.id ≠ id) ∧ id ∈ g.acked)

/-- In a stream whose books are in order, an entry after the start of a group is in one place. -/
theorem placed_of_accounts {stream : Redis.Stream} (h : stream.Accounts) {g : Group}
    (hg : g ∈ stream.groups) {e : StreamEntry} (he : e ∈ stream.entries)
    (hstart : g.start < e.id) : Placed g e.id := by
  have hbooks := h.groups g hg
  by_cases hnew : g.lastDelivered < e.id
  · refine .inl ⟨hnew, fun p hp heq => ?_, fun hacked => ?_⟩
    · exact absurd hnew (not_lt.mpr (heq ▸ g.pel_le p hp))
    · exact absurd hnew (not_lt.mpr (hbooks.acked_le _ hacked))
  · rcases hbooks.covered e he hstart (not_lt.mp hnew) with ⟨p, hp, heq⟩ | hacked
    · exact .inr (.inl ⟨hnew, ⟨p, hp, heq⟩, heq ▸ hbooks.disjoint p hp⟩)
    · exact .inr (.inr ⟨hnew, fun p hp heq => hbooks.disjoint p hp (heq ▸ hacked), hacked⟩)

/-! ### Reasons for an acknowledgement -/

/-- The group has acknowledged the identifier. -/
def AckedBy (w : DWorld) (group : String) (id : StreamId) : Prop :=
  ∃ g ∈ groupsOf w.shared.stream, g.name = group ∧ id ∈ g.acked

/-- Nothing that can be read is at `key`. -/
def Unreadable (S : Serde N) (w : DWorld) (key : String) : Prop :=
  ∀ text stored, w.shared.textAt key = some text → StoredResponse.ofText S text ≠ .ok stored

section Reasons

variable (M) (cfg : StoreConfig) (S : Serde N)

/-- **Why an entry gets acknowledged.** The step is an `XACK` of a task; its request names the
entry, or it is a claim that holds the entry and has, when the group had delivered it, loaded
the record of the entry and found nothing that can be read. -/
inductive AcknowledgedBecause (w₀ : DWorld) (ls : List DLabel) (w : DWorld) (l : DLabel)
    (group : String) (id : StreamId) : Prop
  | named {i : ℕ} {t : DTask} {text : String}
      (hruns : Runs w l i t (.stream (.xack group text)))
      (hid : StreamId.parse text = some id)
      (hrequest : t.call.request = .acknowledgeBackgroundJob text group)
  | dropped {i : ℕ} {t : DTask} {claim : ClaimBackgroundJobsRequest} {e : StreamEntry}
      {responseId : String} (hruns : Runs w l i t (.stream (.xack group e.id.format)))
      (hid : e.id = id) (hrequest : t.call.request = .claimBackgroundJobs claim)
      (hgroup : claim.consumerGroup = group) (hentry : e ∈ entriesOf w.shared.stream)
      (hresponse : BackgroundQueue.entryField e.reply "response_id" = some responseId)
      (hload : M.Takes (fun _ _ => True) (fun x l' => ∃ u,
        u.call = t.call ∧ ReadsKey x l' i u (ResponseStore.key cfg responseId) ∧
        DeliveredTo x group e.reply ∧ Unreadable S x (ResponseStore.key cfg responseId)) w₀ ls w)

variable [DecidableEq N] {cfg S} {fuel : ℕ}

/-- An identifier that is newly acknowledged is so for a reason. -/
theorem acknowledged_because (hmaxlen : cfg.streamMaxlen = 0) {w₀ w w' : DWorld}
    {ls : List DLabel} {l : DLabel} (hw : Initial w₀)
    (hrun : (deployment cfg S fuel).Run w₀ ls w) (hs : (deployment cfg S fuel).Stepped w l w')
    {group : String} {id : StreamId} (hbefore : ¬AckedBy w group id)
    (hafter : AckedBy w' group id) :
    AcknowledgedBecause (deployment cfg S fuel) cfg S w₀ ls w l group id := by
  obtain ⟨g', hg', rfl, hid⟩ := hafter
  rcases (sound_of_run hw hrun).stream_step hs with hsame |
    ⟨i, t, c, handed, hruns, hallowed, hstep⟩
  · exact absurd ⟨g', hsame ▸ hg', rfl, hid⟩ hbefore
  rcases hstep.acked_cases hg' hid with ⟨g, hg, hname, hacked⟩ | ⟨text, rfl, hparse⟩
  · exact absurd ⟨g, hg, hname, hacked⟩ hbefore
  generalize hrequest : t.call.request = request at hallowed
  generalize hgroup : g'.name = group at hallowed hruns ⊢
  replace hallowed : Acknowledges cfg S (knowledge t) request group text := hallowed
  cases hallowed with
  | named => exact .named hruns hparse hrequest
  | @dropped claim entry responseId seen hentry hresponse hseen hlost =>
    obtain ⟨-, -, -, e, he, rfl, -⟩ := delivered_of_run hmaxlen hw hrun hruns.task hrequest hentry
    have hparse' : e.id = id := Option.some.inj ((StreamId.parse_format e.id).symm.trans hparse)
    refine .dropped hruns hparse' hrequest rfl he hresponse ?_
    refine (takes_read hw hrun hruns.task hseen).imp fun ls' x l' hx _ => ?_
    rintro ⟨u, hcall, hreads, htext, hdelivered⟩
    refine ⟨u, hcall, hreads, ?_, ?_⟩
    · exact delivered_of_run hmaxlen hw hx hreads.1 (hcall ▸ hrequest) (hdelivered ▸ hentry)
    · exact fun text stored h => hlost text stored (htext.symm.trans h)

/-- A reason in the deployment is one over one keyspace. -/
theorem AcknowledgedBecause.oneKeyspace (hapart : KeysApart cfg) {w₀ w : DWorld}
    {ls : List DLabel} {l : DLabel} {group : String} {id : StreamId} (hw : Orderly cfg w₀)
    (hleaves : ∀ l ∈ ls, LeavesQueue cfg l = true)
    (h : AcknowledgedBecause (deployment cfg S fuel) cfg S w₀ ls w l group id) :
    AcknowledgedBecause (oneKeyspace cfg S fuel) cfg S w₀ ls w l group id := by
  cases h with
  | named hruns hid hrequest => exact .named hruns hid hrequest
  | dropped hruns hid hrequest hgroup hentry hresponse hload =>
    exact .dropped hruns hid hrequest hgroup hentry hresponse
      (takes_oneKeyspace hapart hw hleaves hload)

end Reasons

/-! ### Records before entries -/

section Records

variable (M) (cfg : StoreConfig) (S : Serde N)

/-- An enqueue of the response has stored its record. -/
def Prepared (w : DWorld) (id : String) : Prop :=
  ∃ i t record p, w.tasks i = some t ∧ t.call.request = .enqueueBackgroundJob record ∧
    requireRecord record = .ok p ∧ p.responseId = id ∧ (knowledge t).wrote = true

/-- What the enqueues of the response have stored is not deleted, does not expire and is not
replaced by something that cannot be read, and what they store can be read. -/
def StaysReadable (id : String) (w : DWorld) (l : DLabel) : Prop :=
  ∀ w', M.step w l = some w' →
    (Prepared w id → ¬Unreadable S w (ResponseStore.key cfg id) →
      ¬Unreadable S w' (ResponseStore.key cfg id)) ∧
    ∀ i t record payload, Stores w l i t (ResponseStore.key cfg id) payload →
      t.call.request = .enqueueBackgroundJob record → ¬Unreadable S w' (ResponseStore.key cfg id)

/-- The entry is a job of the response. -/
def IsJobOf (e : StreamEntry) (id : String) : Prop :=
  BackgroundQueue.entryField e.reply "response_id" = some id

/-- The record of a prepared response can be read, and only jobs of prepared responses are
published. -/
structure PublishedReadable (id : String) (w : DWorld) : Prop where
  readable : Prepared w id → ¬Unreadable S w (ResponseStore.key cfg id)
  prepared : ∀ e ∈ entriesOf w.shared.stream, IsJobOf e id → Prepared w id

variable [DecidableEq N] {cfg S} {fuel : ℕ} {id : String} {w w' : DWorld} {l : DLabel}

theorem wrote_after_of_wrote {g : Knowledge} (h : g.wrote = true) (c : Cmd) (r : c.Reply) :
    (g.after c r).wrote = true := by
  cases c with
  | setEx key ttl text | del key =>
    rcases r with e | _
    · exact h
    · rfl
  | tx c =>
    cases c with
    | exec => rcases r with e | (_ | n) <;> exact h
    | _ => exact h
  | stream c =>
    cases c with
    | xreadgroup => rcases r with e | (_ | entries) <;> exact h
    | xautoclaim => rcases r with e | reply <;> exact h
    | _ => exact h
  | _ => exact h

theorem Prepared.step (h : Prepared w id) (hs : (deployment cfg S fuel).Stepped w l w') :
    Prepared w' id := by
  obtain ⟨i, t, record, p, htask, hrequest, hp, hid, hwrote⟩ := h
  rcases hs.task_next htask with htask' | ⟨c, k, r, σ, choice, -, -, -, -, htask'⟩ | ⟨-, htask'⟩
  · exact ⟨i, t, record, p, htask', hrequest, hp, hid, hwrote⟩
  · refine ⟨i, _, record, p, htask', hrequest, hp, hid, ?_⟩
    rw [knowledge_advance]
    exact wrote_after_of_wrote hwrote c r
  · exact ⟨i, _, record, p, htask', hrequest, hp, hid, hwrote⟩

/-- A response becomes prepared at the step that stores the record of its enqueue. -/
theorem Prepared.before (h : Sound cfg S w) (hs : (deployment cfg S fuel).Stepped w l w')
    (hafter : Prepared w' id) :
    Prepared w id ∨ ∃ i t record payload, Stores w l i t (ResponseStore.key cfg id) payload ∧
      t.call.request = .enqueueBackgroundJob record := by
  obtain ⟨i, t, record, p, htask, hrequest, hp, rfl, hwrote⟩ := hafter
  rcases hs.task_cases htask with ⟨ht, -⟩ | ⟨call, -, rfl⟩ |
    ⟨u, c, k, r, σ, choice, rfl, hu, hlive, hprog, hexec, -, rfl⟩ | ⟨u, -, hu, rfl⟩
  · exact .inl ⟨i, t, record, p, ht, hrequest, hp, rfl, hwrote⟩
  · cases hwrote
  · replace hexec : w.shared.exec i u.call.server choice c = some (σ, r) := hexec
    replace hrequest : u.call.request = .enqueueBackgroundJob record := hrequest
    rw [knowledge_advance] at hwrote
    rcases wrote_after hwrote with hbefore | ⟨key, ttl, payload, heq⟩ | ⟨key, heq⟩
    · exact .inl ⟨i, u, record, p, hu, hrequest, hp, rfl, hbefore⟩
    · cases heq
      obtain ⟨hvalid, hreplied⟩ := validTtl_of_exec hexec
      have hruns : Runs w (.act i choice) i u (.setEx key ttl payload) :=
        ⟨hu, hlive, ⟨k, hprog⟩, choice, rfl, by rw [hreplied]; rfl⟩
      obtain ⟨-, -, stored, -, hwrites⟩ := h.allowed hruns
      have hkey : key = ResponseStore.key cfg p.responseId := by
        rw [hrequest] at hwrites
        rcases hwrites.client_or_tombstone with hwrite | ⟨_, _, hdelete, -⟩
        · generalize (knowledge u).now = now at hwrite
          cases hwrite with
          | enqueue hrecord => rw [Except.ok.inj (hrecord.symm.trans hp)]
        · cases hdelete
      exact .inr ⟨i, u, record, payload, ⟨ttl, hvalid, hkey ▸ hruns⟩, hrequest⟩
    · cases heq
      obtain ⟨-, -, id', hdelete, -⟩ := h.allowed_of_prog hu hprog
      rw [hrequest] at hdelete
      cases hdelete
  · exact .inl ⟨i, u, record, p, hu, hrequest, hp, rfl, hwrote⟩

/-- **One step.** -/
theorem PublishedReadable.step (hI : PublishedReadable cfg S id w) (h : Sound cfg S w)
    (hok : StaysReadable (deployment cfg S fuel) cfg S id w l)
    (hs : (deployment cfg S fuel).Stepped w l w') :
    PublishedReadable cfg S id w' := by
  obtain ⟨hkept, hstored⟩ := hok w' (Machine.step_eq_some_iff.mpr hs)
  constructor
  · intro hprepared
    rcases hprepared.before h hs with hbefore | ⟨i, t, record, payload, hstores, hrequest⟩
    · exact hkept hbefore (hI.readable hbefore)
    · exact hstored i t record payload hstores hrequest
  · intro e he hjob
    rcases h.stream_step hs with hsame | ⟨i, t, c, handed, hruns, hallowed, hstep⟩
    · exact (hI.prepared e (hsame ▸ he) hjob).step hs
    rcases hstep.entries_cases he with hbefore | ⟨maxlen, rfl⟩
    · exact (hI.prepared e hbefore hjob).step hs
    · obtain ⟨record, p, hrequest, hp, hwrote, hfields, -⟩ := hallowed
      have hid : p.responseId = id := by
        simpa [IsJobOf, StreamEntry.reply, hfields] using hjob
      exact Prepared.step ⟨i, t, record, p, hruns.task, hrequest, hp, hid, hwrote⟩ hs

theorem publishedReadable_of_run {w₀ : DWorld} {ls : List DLabel} (hw : Initial w₀)
    (hstream : w₀.shared.stream = none)
    (hrun : (deployment cfg S fuel).RunIn
      (StaysReadable (deployment cfg S fuel) cfg S id) w₀ ls w) :
    PublishedReadable cfg S id w := by
  refine hw.sound.invariant (fun u l v hu hI hok hs => hI.step hu hok hs) hrun ⟨?_, ?_⟩
  · rintro ⟨i, t, record, p, htask, -⟩
    rw [hw.tasks i] at htask
    cases htask
  · intro e he
    rw [hstream] at he
    cases he

/-- **A claim drops no readable job.** Where the record of a response stays readable, no claim
ever comes to stand before acknowledging a job of it. -/
theorem not_dropped (hmaxlen : cfg.streamMaxlen = 0) {w₀ : DWorld} {ls : List DLabel}
    (hw : Initial w₀) (hstream : w₀.shared.stream = none)
    (hrun : (deployment cfg S fuel).RunIn (StaysReadable (deployment cfg S fuel) cfg S id) w₀ ls w)
    {i : ℕ} {t : DTask} {claim : ClaimBackgroundJobsRequest} {group text : String}
    {k : (Cmd.stream (.xack group text)).Reply → Program sig RpcResult} {e : StreamEntry}
    (htask : w.tasks i = some t) (hrequest : t.call.request = .claimBackgroundJobs claim)
    (hprog : t.prog = .cmd (.stream (.xack group text)) k)
    (he : e ∈ entriesOf w.shared.stream) (hid : StreamId.parse text = some e.id) :
    ¬IsJobOf e id := by
  intro hjob
  have hallowed : Acknowledges cfg S (knowledge t) t.call.request group text :=
    ((sound_of_run hw hrun).allowed_of_prog htask hprog).2.2
  rw [hrequest] at hallowed
  cases hallowed with
  | @dropped _ entry responseId seen hentry hresponse hseen hlost =>
    obtain ⟨-, -, -, e', he', rfl, -⟩ := delivered_of_run hmaxlen hw hrun htask hrequest hentry
    have hsame : e'.id = e.id := Option.some.inj ((StreamId.parse_format e'.id).symm.trans hid)
    obtain rfl : e' = e := Redis.entry_unique he' he hsame
    obtain rfl : responseId = id := Option.some.inj (hresponse.symm.trans hjob)
    obtain ⟨ls₁, l, ls₂, x, y, -, hx, -, ⟨u, hcall, hreads, htext, hdelivered⟩, -⟩ :=
      takes_read hw hrun htask hseen
    have hpublished := publishedReadable_of_run hw hstream hx
    obtain ⟨-, -, -, e', he', heq, -⟩ := delivered_of_run hmaxlen hw hx hreads.1
      (hcall ▸ hrequest) (hdelivered ▸ hentry)
    refine hpublished.readable (hpublished.prepared e' he' ?_) fun text stored h =>
      hlost text stored (htext.symm.trans h)
    rw [IsJobOf, heq]
    exact hjob

end Records

/-! ### The service over one keyspace -/

section OneKeyspace

variable [DecidableEq N] {cfg : StoreConfig} {S : Serde N} {fuel : ℕ} {w₀ w w' : DWorld}
  {ls ls' : List DLabel}

/-- Without trimming an entry stays in the stream. -/
theorem entry_stays (hmaxlen : cfg.streamMaxlen = 0) (hw : Initial w₀)
    (hrun : (deployment cfg S fuel).Run w₀ ls w) (hrun' : (deployment cfg S fuel).Run w ls' w')
    {e : StreamEntry} (he : e ∈ entriesOf w.shared.stream) : e ∈ entriesOf w'.shared.stream :=
  (sound_of_run hw hrun).invariant (fun _ _ _ hu hI _ hs => hu.entries_subset hmaxlen hs hI)
    hrun' he

/-- A group stays a group, and its start is what it was. -/
theorem group_stays (hw : Initial w₀) (hrun : (deployment cfg S fuel).Run w₀ ls w)
    (hrun' : (deployment cfg S fuel).Run w ls' w') {g : Group}
    (hg : g ∈ groupsOf w.shared.stream) :
    ∃ g' ∈ groupsOf w'.shared.stream, g'.name = g.name ∧ g'.start = g.start := by
  refine (sound_of_run hw hrun).invariant (I := fun w' => ∃ g' ∈ groupsOf w'.shared.stream,
    g'.name = g.name ∧ g'.start = g.start) (fun u l v hu hI _ hs => ?_) hrun' ⟨g, hg, rfl, rfl⟩
  obtain ⟨g', hg', hname, hstart⟩ := hI
  obtain ⟨g'', hg'', hname', hstart', -⟩ := hu.groups_mono hs hg'
  exact ⟨g'', hg'', hname'.trans hname, hstart'.trans hstart⟩

/-- Where the records of a response stay readable over one keyspace, they do in the deployment. -/
theorem staysReadable_deployment (hapart : KeysApart cfg) {id : String} (hw : Orderly cfg w₀)
    (hrun : (oneKeyspace cfg S fuel).RunIn
      (StaysReadable (oneKeyspace cfg S fuel) cfg S id) w₀ ls w) :
    (deployment cfg S fuel).RunIn (StaysReadable (deployment cfg S fuel) cfg S id) w₀ ls w := by
  refine (agrees_oneKeyspace hapart).symm.runIn_imp (fun u l hu hleaves hok v hv => ?_) hw
    (leavesQueue_of_run hrun) hrun
  exact hok v ((hu.step_eq hapart hleaves).symm.trans hv)

end OneKeyspace

/-- **No job is lost.** Under names that are apart and without trimming, in every run from an empty
stream:

* a published entry stays in the stream and a group stays a group, and at any time every entry
  is, for a group created at the start of the stream, in exactly one place;
* an entry gets acknowledged by a request that names it, or by a claim whose load of its record
  was made after the delivery and found nothing that can be read;
* while what the enqueues of a response have stored stays readable, no claim drops a job of it. -/
theorem no_job_lost [DecidableEq N] {cfg : StoreConfig} {S : Serde N} {fuel : ℕ} {w₀ : DWorld}
    (hapart : KeysApart cfg) (hmaxlen : cfg.streamMaxlen = 0) (hw : SortedStart cfg w₀)
    (hstream : w₀.shared.stream = none) :
    (∀ ls w ls' w', (oneKeyspace cfg S fuel).Run w₀ ls w →
      (oneKeyspace cfg S fuel).Run w ls' w' →
      (∀ e ∈ entriesOf w.shared.stream, e ∈ entriesOf w'.shared.stream) ∧
      (∀ g ∈ groupsOf w.shared.stream, ∃ g' ∈ groupsOf w'.shared.stream,
        g'.name = g.name ∧ g'.start = g.start) ∧
      ∀ g ∈ groupsOf w'.shared.stream, g.start = .zero → ∀ e ∈ entriesOf w'.shared.stream,
        Placed g e.id) ∧
    (∀ ls w l w' group id, (oneKeyspace cfg S fuel).Run w₀ ls w →
      (oneKeyspace cfg S fuel).step w l = some w' → ¬AckedBy w group id → AckedBy w' group id →
      AcknowledgedBecause (oneKeyspace cfg S fuel) cfg S w₀ ls w l group id) ∧
    ∀ id ls w i t claim group text k e,
      (oneKeyspace cfg S fuel).RunIn (StaysReadable (oneKeyspace cfg S fuel) cfg S id) w₀ ls w →
      w.tasks i = some t → t.call.request = .claimBackgroundJobs claim →
      t.prog = .cmd (.stream (.xack group text)) k → e ∈ entriesOf w.shared.stream →
      StreamId.parse text = some e.id → ¬IsJobOf e id := by
  have hinitial : Initial w₀ := hw.toInitial
  refine ⟨fun ls w ls' w' hrun hrun' => ?_, fun ls w l w' group id hrun hstep => ?_, ?_⟩
  · have hafter : (deployment cfg S fuel).Run w ls' w' :=
      runIn_deployment hapart (hw.orderly.run hapart hrun) hrun'
    replace hrun := runIn_deployment hapart hw.orderly hrun
    refine ⟨fun e he => entry_stays hmaxlen hinitial hrun hafter he, fun g hg => group_stays
      hinitial hrun hafter hg, fun g hg hzero e he => ?_⟩
    have haccounts : (w'.shared.stream.getD .empty).Accounts :=
      (accounts_of_run hinitial (by simp [hstream, Redis.Accounts]) (hrun.append hafter)).getD
    exact placed_of_accounts haccounts hg he (hzero ▸ haccounts.positive e he)
  · intro hbefore hacked
    have hs : (deployment cfg S fuel).Stepped w l w' :=
      Machine.step_eq_some_iff.mp (step_deployment hapart (hw.orderly.run hapart hrun) hstep)
    have hbecause := acknowledged_because hmaxlen hinitial
      (runIn_deployment hapart hw.orderly hrun) hs hbefore hacked
    exact hbecause.oneKeyspace hapart hw.orderly (leavesQueue_of_run hrun)
  · intro id ls w i t claim group text k e hrun htask hrequest hprog he hid
    exact not_dropped hmaxlen hinitial hstream (staysReadable_deployment hapart hw.orderly hrun)
      htask hrequest hprog he hid

section Runs

open Sample

set_option maxRecDepth 100000 in
/-- A job is published and claimed. -/
def publishedAndClaimed : machineIn.Recording (fun _ _ => true) (start none) (fun w =>
    (groupsOf w.shared.stream).map Group.start = [.zero] ∧
    (entriesOf w.shared.stream).map StreamEntry.id = [⟨5, 3⟩]) :=
  ⟨enqueue ++ call 2 (.ensureConsumerGroup "g" "") 1 ++
    call 3 (.claimBackgroundJobs ⟨"g", "c", 1, 0, 0⟩) 4, by decide +kernel⟩

/-- A job that is published and claimed is in one place for its group. -/
theorem no_job_lost_enqueued : ∃ w,
    machineIn.Run (start none) (enqueue ++ call 2 (.ensureConsumerGroup "g" "") 1 ++
      call 3 (.claimBackgroundJobs ⟨"g", "c", 1, 0, 0⟩) 4) w ∧
    (groupsOf w.shared.stream).map Group.start = [.zero] ∧
    (entriesOf w.shared.stream).map StreamEntry.id = [⟨5, 3⟩] ∧
    ∀ g ∈ groupsOf w.shared.stream, g.start = .zero → ∀ e ∈ entriesOf w.shared.stream,
      Placed g e.id := by
  obtain ⟨w, hrun, hgroups, hentries⟩ := publishedAndClaimed.exists_run
  obtain ⟨-, -, hplaced⟩ := (no_job_lost (S := serde) keysApart_config
    (show config.streamMaxlen = 0 from rfl) (sortedStart_start none) rfl).1 _ w [] w hrun rfl
  exact ⟨w, hrun, hgroups, hentries, hplaced⟩

/-- A configuration whose stream key is a record key: the one of the response `queue`. -/
def jobsConfig : StoreConfig := ⟨"jobs", 86400, "jobs:queue", 3600, 0⟩

/-- The job of the response `queue`. -/
def queueRecord : ProtoStoredResponse := { queuedRecord with responseId := "queue" }

/-- The record of the response `queue` replaces the stream. -/
def replaceStream : List DLabel :=
  .spawn 3 ⟨0, .enqueueBackgroundJob (some queueRecord)⟩ :: List.replicate 2 (.act 3 published)

set_option maxRecDepth 100000 in
/-- A job is published and a group created, and then the job of the response `queue` is stored. -/
def streamReplaced : (oneKeyspace jobsConfig serde 8).Recording (fun _ _ => true) (start none)
    (fun w => (groupsOf w.shared.stream).map (fun g => (g.name, g.start)) = [("g", .zero)] ∧
      (entriesOf w.shared.stream).map StreamEntry.id = [⟨5, 3⟩] ∧
      ((oneKeyspace jobsConfig serde 8).execIn? (fun _ _ => true) w replaceStream).any
        (fun w' => w'.shared.stream.isNone) = true) :=
  ⟨enqueue ++ call 2 (.ensureConsumerGroup "g" "") 1, by decide +kernel⟩

/-- **A record replaces the stream.** Where names overlap, a published entry need not stay in one of
the three places: there is no group any more. -/
theorem job_lost_to_record : ¬∀ ls w ls' w',
    (oneKeyspace jobsConfig serde 8).Run (start none) ls w →
    (oneKeyspace jobsConfig serde 8).Run w ls' w' →
    ∀ g ∈ groupsOf w.shared.stream, g.start = .zero → ∀ e ∈ entriesOf w.shared.stream,
      ∃ g' ∈ groupsOf w'.shared.stream, g'.name = g.name ∧ Placed g' e.id := by
  intro hclaim
  obtain ⟨w, hrun, hgroups, hentries, hreplaced⟩ := streamReplaced.exists_run
  obtain ⟨w', hexec, hnone⟩ := (Option.any_eq_true _ _).mp hreplaced
  have hrun' : (oneKeyspace jobsConfig serde 8).Run w replaceStream w' :=
    Machine.runIn_of_execIn? (fun _ _ _ => trivial) hexec
  obtain ⟨g, hg, hpair⟩ := List.mem_map.mp (hgroups ▸ List.mem_singleton_self _)
  obtain ⟨e, he, -⟩ := List.mem_map.mp (hentries ▸ List.mem_singleton_self _)
  have hstart : g.start = .zero := congrArg Prod.snd hpair
  obtain ⟨g', hg', -⟩ := hclaim _ w _ w' hrun hrun' g hg hstart e he
  rw [Option.isNone_iff_eq_none.mp hnone] at hg'
  cases hg'

end Runs

end ResponsesApiStore
