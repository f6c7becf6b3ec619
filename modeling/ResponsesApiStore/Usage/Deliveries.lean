import ResponsesApiStore.Guarantees.Batches
import ResponsesApiStore.Guarantees.Queue
import ResponsesApiStore.Redis.Redelivery

/-!
# Each job is new once

What the answers of `ClaimBackgroundJobs` say about one another. A claim reports an entry as new,
or as taken over from a consumer that left it idle. Over a whole run under names that are apart,
with any number of servers and consumers, lost replies and dropped requests:

* what is handed out as new later has a greater identifier (`new_jobs_in_order`);
* an entry is reported as new by one claim of a group at most (`new_job_to_one_claim`);
* once an acknowledgement has returned, no later claim of the group reports the entry, neither as
  new nor as taken over (`acknowledged_job_stays_away`).
-/

namespace ResponsesApiStore

open Json (Serde)
open Redis (Error StreamId StreamCmd StreamStep EntryReply Group groupsOf)
open Interaction (Machine World Label)
open Interaction.Program

variable {N : Type} {cfg : StoreConfig} {S : Serde N} {fuel : ℕ}

/-! ### What a claim was handed -/

/-- The identifiers handed out as new in a transcript. -/
def newIds (es : List sig.Exchange) : List String :=
  (es.flatMap entriesIn).filterMap fun e => if e.1 then none else some e.2.id

/-- The identifiers handed out in a transcript. -/
def handedIds (es : List sig.Exchange) : List String := (es.flatMap entriesIn).map fun e => e.2.id

theorem newIds_append (es es' : List sig.Exchange) :
    newIds (es ++ es') = newIds es ++ newIds es' := by
  rw [newIds, List.flatMap_append, List.filterMap_append]
  rfl

theorem handedIds_append (es es' : List sig.Exchange) :
    handedIds (es ++ es') = handedIds es ++ handedIds es' := by
  rw [handedIds, List.flatMap_append, List.map_append]
  rfl

/-- Where new entries come from. -/
theorem mem_newIds_single {c : Cmd} {r : c.Reply} {text : String}
    (h : text ∈ newIds [⟨c, r⟩]) :
    ∃ group consumer count block r', (⟨c, r⟩ : sig.Exchange) =
        ⟨.stream (.xreadgroup group consumer count block), r'⟩ ∧
      ∃ entry ∈ (StreamCmd.xreadgroup group consumer count block).handed r', entry.id = text := by
  obtain ⟨⟨autoclaimed, entry⟩, hentry, htext⟩ := List.mem_filterMap.mp h
  rw [List.flatMap_singleton] at hentry
  split_ifs at htext with hauto
  obtain rfl := Option.some.inj htext
  cases c with
  | stream sc =>
    cases sc with
    | xreadgroup group consumer count block =>
      rcases r with e | (_ | entries)
      · cases hentry
      · cases hentry
      · obtain ⟨entry', hmem, heq⟩ := List.mem_map.mp hentry
        obtain ⟨-, rfl⟩ := Prod.mk.inj heq
        exact ⟨group, consumer, count, block, _, rfl, entry', hmem, rfl⟩
    | xautoclaim group consumer minIdle start count =>
      rcases r with e | reply
      · cases hentry
      · obtain ⟨entry', -, heq⟩ := List.mem_map.mp hentry
        exact absurd (Prod.mk.inj heq).1.symm hauto
    | _ => cases hentry
  | _ => cases hentry

/-- Where entries come from. -/
theorem mem_handedIds_single {c : Cmd} {r : c.Reply} {text : String}
    (h : text ∈ handedIds [⟨c, r⟩]) :
    ∃ sc r', (⟨c, r⟩ : sig.Exchange) = ⟨.stream sc, r'⟩ ∧
      ∃ entry ∈ sc.handed r', entry.id = text := by
  obtain ⟨⟨autoclaimed, entry⟩, hentry, rfl⟩ := List.mem_map.mp h
  rw [List.flatMap_singleton] at hentry
  cases c with
  | stream sc =>
    cases sc with
    | xreadgroup group consumer count block =>
      rcases r with e | (_ | entries)
      · cases hentry
      · cases hentry
      · obtain ⟨entry', hmem, heq⟩ := List.mem_map.mp hentry
        obtain ⟨-, rfl⟩ := Prod.mk.inj heq
        exact ⟨_, _, rfl, entry', hmem, rfl⟩
    | xautoclaim group consumer minIdle start count =>
      rcases r with e | reply
      · cases hentry
      · obtain ⟨entry', hmem, heq⟩ := List.mem_map.mp hentry
        obtain ⟨-, rfl⟩ := Prod.mk.inj heq
        exact ⟨_, _, rfl, entry', hmem, rfl⟩
    | _ => cases hentry
  | _ => cases hentry

/-- What the answer of a claim reports about its jobs: the stream identifier, whether it was taken
over, and for how long it was idle. -/
def reportsOf (jobs : List ProtoBackgroundJob) (pendingJobs : List PendingBackgroundJob) :
    List (String × Bool × Option ℕ) :=
  jobs.map ProtoBackgroundJob.report ++ pendingJobs.map PendingBackgroundJob.report

/-- A claim reports what it was handed. -/
theorem mem_entriesIn_of_reported {claim : ClaimBackgroundJobsRequest} {es : List sig.Exchange}
    {jobs : List ProtoBackgroundJob} {pendingStreamIds : List String}
    {pendingJobs : List PendingBackgroundJob}
    (h : (claimBackgroundJobs cfg S claim).run.Returns es
      (.ok (.claimedJobs jobs pendingStreamIds pendingJobs)))
    {text : String} {autoclaimed : Bool} {idleMs : Option ℕ}
    (hjob : (text, autoclaimed, idleMs) ∈ reportsOf jobs pendingJobs) :
    ∃ entry, (autoclaimed, entry) ∈ es.flatMap entriesIn ∧ entry.id = text := by
  obtain ⟨es₁, es₂, es₃, cursor, cursor', batch, rfl, hbefore, hclaim, hafter, hjobs, -, rfl⟩ :=
    returns_claimBackgroundJobs h
  obtain ⟨entries, handled, hhalf, rfl, -⟩ := returns_claimJobs (fun _ => False) hclaim
  have hentries : (es₁ ++ (es₂ ++ es₃)).flatMap entriesIn = entries := by
    rw [List.flatMap_append, List.flatMap_append, hbefore.entries, hafter.entries,
      hhalf.handledIn.reads.entries, List.append_nil, List.nil_append]
  have hreports :
    ∀ x ∈ reportsOf jobs (batchOf S claim.autoclaimMinIdleMs.toNat handled).pendingJobs,
      x ∈ entries.map (report claim.autoclaimMinIdleMs.toNat) := by
    intro x hx
    refine (hhalf.map_sublist (report claim.autoclaimMinIdleMs.toNat)).subset ?_
    rcases List.mem_append.mp hx with hx | hx
    · rw [report_of_mapM hjobs] at hx
      exact (map_filterMap_sublist (fun _ _ hsome => job?_report hsome) handled).subset hx
    · exact (map_filterMap_sublist (fun _ _ hsome => pending?_report hsome) handled).subset hx
  obtain ⟨⟨autoclaimed', entry⟩, hentry, heq⟩ := List.mem_map.mp (hreports _ hjob)
  obtain ⟨htext, hrest⟩ := Prod.mk.inj heq
  obtain ⟨hauto, -⟩ := Prod.mk.inj hrest
  exact ⟨entry, hauto ▸ hentries ▸ hentry, htext⟩

/-! ### What a command hands to a claim -/

/-- A command of a claim on the stream is for the group of the claim, if it takes entries. -/
theorem takesFor_of_allowed {claim : ClaimBackgroundJobsRequest} {g : Knowledge} {sc : StreamCmd}
    {name : String}
    (h : AllowedStream cfg S (.claimBackgroundJobs claim) g sc) (htakes : sc.takesFor = some name) :
    name = claim.consumerGroup := by
  cases sc with
  | xautoclaim group | xreadgroup group =>
    obtain ⟨claim', heq, rfl⟩ := h
    cases heq
    exact (Option.some.inj htakes).symm
  | _ => cases htakes

/-- What is handed to a claim as new is above all that its group has delivered before. -/
theorem Sound.new_fresh {w : DWorld} (h : Sound cfg S w)
    (haccounts : Redis.Accounts w.shared.stream)
    {i : ℕ} {t : DTask} {c : Cmd} {k : c.Reply → Interaction.Program sig RpcResult} {r : c.Reply}
    {σ : Shared} {choice : Choice} {claim : ClaimBackgroundJobsRequest}
    (htask : w.tasks i = some t) (hprog : t.prog = .cmd c k)
    (hexec : w.shared.exec i t.call.server choice c = some (σ, r))
    (hrequest : t.call.request = .claimBackgroundJobs claim) {text : String}
    (htext : text ∈ newIds [⟨c, r⟩]) :
    ∃ id : StreamId, text = id.format ∧
      (∃ g ∈ groupsOf σ.stream, g.name = claim.consumerGroup ∧ id ≤ g.lastDelivered) ∧
      ∀ g ∈ groupsOf w.shared.stream, g.name = claim.consumerGroup → g.lastDelivered < id := by
  obtain ⟨group, consumer, count, block, r', heq, entry, hentry, rfl⟩ := mem_newIds_single htext
  cases heq
  obtain ⟨-, handed, hstep, hhanded⟩ := exec_stream hexec
  have hallowed := (h.allowed_of_prog htask hprog).2.2
  rw [hrequest] at hallowed
  obtain rfl : group = claim.consumerGroup := takesFor_of_allowed hallowed rfl
  exact hstep.fresh haccounts (hhanded entry hentry)

/-- What is handed to a claim has not been acknowledged for its group. -/
theorem Sound.handed_unacked {w : DWorld} (h : Sound cfg S w)
    (haccounts : Redis.Accounts w.shared.stream) {i : ℕ} {t : DTask} {c : Cmd}
    {k : c.Reply → Interaction.Program sig RpcResult} {r : c.Reply} {σ : Shared} {choice : Choice}
    {claim : ClaimBackgroundJobsRequest} (htask : w.tasks i = some t) (hprog : t.prog = .cmd c k)
    (hexec : w.shared.exec i t.call.server choice c = some (σ, r))
    (hrequest : t.call.request = .claimBackgroundJobs claim) {text : String}
    (htext : text ∈ handedIds [⟨c, r⟩]) :
    ∃ id : StreamId, text = id.format ∧
      ∀ g ∈ groupsOf w.shared.stream, g.name = claim.consumerGroup → id ∉ g.acked := by
  obtain ⟨sc, r', heq, entry, hentry, rfl⟩ := mem_handedIds_single htext
  cases heq
  obtain ⟨-, handed, hstep, hhanded⟩ := exec_stream hexec
  have hallowed := (h.allowed_of_prog htask hprog).2.2
  rw [hrequest] at hallowed
  obtain ⟨g', -, htakes, -⟩ := hstep.handed_delivered (hhanded entry hentry)
  have hgroup := takesFor_of_allowed hallowed htakes
  obtain ⟨id, hid, hacked⟩ := hstep.handed_not_acked haccounts (hhanded entry hentry)
  exact ⟨id, hid, fun g hg hname => hacked g hg (by rw [htakes, hgroup, hname])⟩

/-! ### New entries over a run -/

variable [DecidableEq N]

/-- The group has delivered the identifier. -/
def Delivered (w : DWorld) (group text : String) : Prop :=
  ∃ g ∈ groupsOf w.shared.stream, g.name = group ∧
    ∃ id : StreamId, text = id.format ∧ id ≤ g.lastDelivered

theorem Delivered.step {w w' : DWorld} {l : DLabel} {group text : String}
    (hI : Delivered w group text) (h : Sound cfg S w)
    (hs : (deployment cfg S fuel).Stepped w l w') : Delivered w' group text := by
  obtain ⟨g, hg, hname, id, hid, hle⟩ := hI
  obtain ⟨g', hg', hname', -, hmono⟩ := h.groups_mono hs hg
  exact ⟨g', hg', hname'.trans hname, id, hid, hle.trans hmono⟩

/-- **The invariant of new entries.** What a claim was handed as new its group has delivered, and
no two claims of a group were handed the same entry as new. -/
structure NewOnce (w : DWorld) : Prop where
  delivered : ∀ i t claim, w.tasks i = some t → t.call.request = .claimBackgroundJobs claim →
    ∀ text ∈ newIds t.transcript, Delivered w claim.consumerGroup text
  apart : ∀ i j t u claim claim', w.tasks i = some t → w.tasks j = some u →
    t.call.request = .claimBackgroundJobs claim → u.call.request = .claimBackgroundJobs claim' →
    claim.consumerGroup = claim'.consumerGroup → i ≠ j →
    ∀ text ∈ newIds t.transcript, text ∉ newIds u.transcript

/-- Where the new entries of a task come from: it has them from before the step, or the step has
handed them to it. -/
theorem Sound.newIds_cases {w w' : DWorld} {l : DLabel} (h : Sound cfg S w)
    (haccounts : Redis.Accounts w.shared.stream) (hs : (deployment cfg S fuel).Stepped w l w')
    {i : ℕ} {t : DTask} {claim : ClaimBackgroundJobsRequest} (htask : w'.tasks i = some t)
    (hrequest : t.call.request = .claimBackgroundJobs claim) {text : String}
    (htext : text ∈ newIds t.transcript) :
    (∃ t', w.tasks i = some t' ∧ t'.call = t.call ∧ text ∈ newIds t'.transcript) ∨
      ((∃ choice, l = .act i choice) ∧ ∃ id : StreamId, text = id.format ∧
        (∃ g ∈ groupsOf w'.shared.stream, g.name = claim.consumerGroup ∧ id ≤ g.lastDelivered) ∧
        ∀ g ∈ groupsOf w.shared.stream, g.name = claim.consumerGroup → g.lastDelivered < id) := by
  rcases hs.task_cases htask with ⟨ht, -⟩ | ⟨call, -, rfl⟩ |
    ⟨t', c, k, r, σ, choice, rfl, ht', hlive, hprog, hexec, rfl, rfl⟩ | ⟨t', -, ht', rfl⟩
  · exact .inl ⟨t, ht, rfl, htext⟩
  · cases htext
  · rw [Interaction.Task.advance_transcript, newIds_append] at htext
    rcases List.mem_append.mp htext with htext | htext
    · exact .inl ⟨t', ht', rfl, htext⟩
    · exact .inr ⟨⟨choice, rfl⟩, h.new_fresh haccounts ht' hprog hexec hrequest htext⟩
  · exact .inl ⟨t', ht', rfl, htext⟩

/-- **One step.** -/
theorem NewOnce.step {w w' : DWorld} {l : DLabel} (hI : NewOnce w) (h : Sound cfg S w)
    (haccounts : Redis.Accounts w.shared.stream) (hs : (deployment cfg S fuel).Stepped w l w') :
    NewOnce w' := by
  have hfresh : ∀ i t claim text (id : StreamId), w.tasks i = some t →
      t.call.request = .claimBackgroundJobs claim → text ∈ newIds t.transcript →
      text = id.format → ¬∀ g ∈ groupsOf w.shared.stream, g.name = claim.consumerGroup →
        g.lastDelivered < id := by
    intro i t claim text id htask hrequest htext hid hnew
    obtain ⟨g, hg, hname, id', hid', hle⟩ := hI.delivered i t claim htask hrequest text htext
    obtain rfl : id = id' := StreamId.format_injective (hid.symm.trans hid')
    exact absurd (hnew g hg hname) (not_lt.mpr hle)
  refine ⟨fun i t claim htask hrequest text htext => ?_, ?_⟩
  · rcases h.newIds_cases haccounts hs htask hrequest htext with
      ⟨t', ht', hcall, hold⟩ | ⟨-, id, hid, ⟨g, hg, hname, hle⟩, -⟩
    · exact (hI.delivered i t' claim ht' (by rw [hcall]; exact hrequest) text hold).step h hs
    · exact ⟨g, hg, hname, id, hid, hle⟩
  · intro i j t u claim claim' htask hu hrequest hrequest' hgroup hne text htext htext'
    rcases h.newIds_cases haccounts hs htask hrequest htext with
        ⟨t', ht', hcall, hold⟩ | ⟨⟨choice, hact⟩, id, hid, -, hnew⟩ <;>
      rcases h.newIds_cases haccounts hs hu hrequest' htext' with
        ⟨u', hu', hcall', hold'⟩ | ⟨⟨choice', hact'⟩, id', hid', -, hnew'⟩
    · exact hI.apart i j t' u' claim claim' ht' hu' (by rw [hcall]; exact hrequest)
        (by rw [hcall']; exact hrequest') hgroup hne text hold hold'
    · exact hfresh i t' claim text id' ht' (by rw [hcall]; exact hrequest) hold hid'
        (hgroup ▸ hnew')
    · exact hfresh j u' claim' text id hu' (by rw [hcall']; exact hrequest') hold' hid
        (hgroup ▸ hnew)
    · -- one step is the step of one task
      rw [hact] at hact'
      exact hne (Label.act.inj hact').1

theorem Sound.accounts_step {w w' : DWorld} {l : DLabel} (h : Sound cfg S w)
    (haccounts : Redis.Accounts w.shared.stream) (hs : (deployment cfg S fuel).Stepped w l w') :
    Redis.Accounts w'.shared.stream := by
  rcases h.stream_step hs with hsame | ⟨i, t, c, handed, -, -, hstep⟩
  · exact hsame ▸ haccounts
  · exact hstep.accounts haccounts

theorem newOnce_of_run {w₀ w : DWorld} {ls : List DLabel} (hw : Initial w₀)
    (hstream : Redis.Accounts w₀.shared.stream) (hrun : (deployment cfg S fuel).Run w₀ ls w) :
    NewOnce w := by
  refine (hw.sound.invariant (I := fun w => Redis.Accounts w.shared.stream ∧ NewOnce w)
    (fun u l v hu hI _ hs => ⟨hu.accounts_step hI.1 hs, hI.2.step hu hI.1 hs⟩) hrun
    ⟨hstream, ?_⟩).2
  constructor
  · intro i t claim htask
    rw [hw.tasks i] at htask
    cases htask
  · intro i j t u claim claim' htask
    rw [hw.tasks i] at htask
    cases htask

/-- **New jobs come in order.** Whatever a claim is handed as new after some moment has a greater
stream identifier than everything a claim of its group was handed as new before. -/
theorem new_jobs_in_order {w₀ w w' : DWorld} {ls ls' : List DLabel} (hapart : KeysApart cfg)
    (hw : SortedStart cfg w₀) (hstream : Redis.Accounts w₀.shared.stream)
    (hrun : (oneKeyspace cfg S fuel).Run w₀ ls w)
    (hrun' : (oneKeyspace cfg S fuel).Run w ls' w') {i j : ℕ} {t u : DTask}
    {claim claim' : ClaimBackgroundJobsRequest} (htask : w.tasks i = some t)
    (hu : w'.tasks j = some u) (hrequest : t.call.request = .claimBackgroundJobs claim)
    (hrequest' : u.call.request = .claimBackgroundJobs claim')
    (hgroup : claim.consumerGroup = claim'.consumerGroup) {a b : StreamId}
    (ha : a.format ∈ newIds t.transcript) (hb : b.format ∈ newIds u.transcript)
    (hlater : ∀ u₀, w.tasks j = some u₀ → b.format ∉ newIds u₀.transcript) : a < b := by
  replace hrun' := runIn_deployment hapart (hw.orderly.run hapart hrun) hrun'
  replace hrun := runIn_deployment hapart hw.orderly hrun
  replace hw : Initial w₀ := hw.toInitial
  obtain ⟨g, hg, hname, id, hid, hle⟩ :=
    (newOnce_of_run hw hstream hrun).delivered i t claim htask hrequest _ ha
  obtain rfl : a = id := StreamId.format_injective hid
  -- from now on the group is past `a`, and what is handed out is past the group
  have hpast : ∀ j u claim', w'.tasks j = some u →
      u.call.request = .claimBackgroundJobs claim' → claim'.consumerGroup = claim.consumerGroup →
      b.format ∈ newIds u.transcript →
      (∃ u₀, w.tasks j = some u₀ ∧ b.format ∈ newIds u₀.transcript) ∨ a < b := by
    refine ((sound_of_run hw hrun).invariant (I := fun w' =>
      (Redis.Accounts w'.shared.stream ∧ ∃ g ∈ groupsOf w'.shared.stream,
        g.name = claim.consumerGroup ∧ a ≤ g.lastDelivered) ∧
      ∀ j u claim', w'.tasks j = some u → u.call.request = .claimBackgroundJobs claim' →
        claim'.consumerGroup = claim.consumerGroup → b.format ∈ newIds u.transcript →
        (∃ u₀, w.tasks j = some u₀ ∧ b.format ∈ newIds u₀.transcript) ∨ a < b)
      (fun x l y hx hI _ hs => ?_) hrun'
      ⟨⟨accounts_of_run hw hstream hrun, g, hg, hname, hle⟩, ?_⟩).2
    · obtain ⟨⟨haccounts, g, hg, hname, hle⟩, hold⟩ := hI
      obtain ⟨g', hg', hname', -, hmono⟩ := hx.groups_mono hs hg
      refine ⟨⟨hx.accounts_step haccounts hs, g', hg', hname'.trans hname, hle.trans hmono⟩, ?_⟩
      intro j u claim' hu hrequest' hgroup' hb
      rcases hx.newIds_cases haccounts hs hu hrequest' hb with
        ⟨u', hu', hcall, hb'⟩ | ⟨-, id, hid, -, hnew⟩
      · exact hold j u' claim' hu' (by rw [hcall]; exact hrequest') hgroup' hb'
      · obtain rfl : b = id := StreamId.format_injective hid
        exact .inr (hle.trans_lt (hnew g hg (hname.trans hgroup'.symm)))
    · exact fun j u claim' hu _ _ hb => .inl ⟨u, hu, hb⟩
  rcases hpast j u claim' hu hrequest' hgroup.symm hb with ⟨u₀, hu₀, hb₀⟩ | hlt
  · exact absurd hb₀ (hlater u₀ hu₀)
  · exact hlt

/-- The answer of a claim, for a task that has returned it. -/
theorem reported_of_returned {w : DWorld} (h : (deployment cfg S fuel).Transcribed w) {i : ℕ}
    {t : DTask} {claim : ClaimBackgroundJobsRequest} {jobs : List ProtoBackgroundJob}
    {pendingStreamIds : List String} {pendingJobs : List PendingBackgroundJob}
    (htask : w.tasks i = some t) (hrequest : t.call.request = .claimBackgroundJobs claim)
    (hreturned : t.prog = .ret (.ok (.claimedJobs jobs pendingStreamIds pendingJobs)))
    {text : String} {autoclaimed : Bool} {idleMs : Option ℕ}
    (hjob : (text, autoclaimed, idleMs) ∈ reportsOf jobs pendingJobs) :
    text ∈ handedIds t.transcript ∧ (autoclaimed = false → text ∈ newIds t.transcript) := by
  have hreturns := h i t htask
  rw [hreturned] at hreturns
  replace hreturns : (serve cfg S fuel t.call.request).Returns t.transcript _ := hreturns
  rw [hrequest] at hreturns
  replace hreturns : (claimBackgroundJobs cfg S claim).run.Returns t.transcript _ := hreturns
  obtain ⟨entry, hentry, rfl⟩ := mem_entriesIn_of_reported hreturns hjob
  refine ⟨List.mem_map.mpr ⟨_, hentry, rfl⟩, ?_⟩
  rintro rfl
  exact List.mem_filterMap.mpr ⟨_, hentry, rfl⟩

/-- **A job is new to one claim.** Two claims of a group that have returned never both report a
stream entry as new, among the jobs or among the pending jobs. -/
theorem new_job_to_one_claim {w₀ w : DWorld} {ls : List DLabel} (hapart : KeysApart cfg)
    (hw : SortedStart cfg w₀) (hstream : Redis.Accounts w₀.shared.stream)
    (hrun : (oneKeyspace cfg S fuel).Run w₀ ls w)
    {i j : ℕ} {t u : DTask} {claim claim' : ClaimBackgroundJobsRequest}
    {jobs jobs' : List ProtoBackgroundJob} {pendingStreamIds pendingStreamIds' : List String}
    {pendingJobs pendingJobs' : List PendingBackgroundJob} (hne : i ≠ j)
    (htask : w.tasks i = some t) (hu : w.tasks j = some u)
    (hrequest : t.call.request = .claimBackgroundJobs claim)
    (hrequest' : u.call.request = .claimBackgroundJobs claim')
    (hgroup : claim.consumerGroup = claim'.consumerGroup)
    (hreturned : t.prog = .ret (.ok (.claimedJobs jobs pendingStreamIds pendingJobs)))
    (hreturned' : u.prog = .ret (.ok (.claimedJobs jobs' pendingStreamIds' pendingJobs'))) :
    ∀ x ∈ reportsOf jobs pendingJobs, ∀ y ∈ reportsOf jobs' pendingJobs',
      x.2.1 = false → y.2.1 = false → x.1 ≠ y.1 := by
  replace hrun := runIn_deployment hapart hw.orderly hrun
  replace hw : Initial w₀ := hw.toInitial
  rintro ⟨text, autoclaimed, idleMs⟩ hx ⟨text', autoclaimed', idleMs'⟩ hy hnew hnew' heq
  have htranscribed := hrun.transcribed hw.tasks
  have hi := (reported_of_returned htranscribed htask hrequest hreturned hx).2 hnew
  have hj := (reported_of_returned htranscribed hu hrequest' hreturned' hy).2 hnew'
  have heq' : text = text' := heq
  exact (newOnce_of_run hw hstream hrun).apart i j t u claim claim' htask hu hrequest hrequest'
    hgroup hne text hi (heq' ▸ hj)

/-! ### Acknowledged entries over a run -/

omit [DecidableEq N] in
/-- An acknowledgement that returned has had an entry counted. -/
theorem returns_acknowledged {streamId group : String} {es : List sig.Exchange}
    (h : (acknowledgeBackgroundJob streamId group).run.Returns es (.ok .acknowledged)) :
    ∃ n, n ≠ 0 ∧ (⟨.stream (.xack group streamId), .ok n⟩ : sig.Exchange) ∈ es := by
  rw [acknowledgeBackgroundJob] at h
  split_ifs at h
  · cases (returns_ret.mp h).2
  · obtain ⟨es₁, es₂, acked, rfl, hack, -⟩ := h.bind_ok
    obtain ⟨r, hack, hr⟩ := returns_rpc.mp hack
    obtain rfl : r = .ok _ := mapError_eq_ok_iff.mp hr.symm
    rw [BackgroundQueue.acknowledge] at hack
    obtain ⟨es₃, es₄, n, rfl, hsend, hrest⟩ := hack.bind_ok
    obtain ⟨reply, hsend, hreply⟩ := returns_storage.mp hsend
    obtain rfl : reply = .ok n := mapError_eq_ok_iff.mp hreply.symm
    obtain rfl := returns_call.mp hsend
    split_ifs at hrest with hzero
    · cases (returns_throw.mp hrest).2
    · exact ⟨n, hzero, by simp⟩

omit [DecidableEq N] in
/-- An `XACK` that was answered has run. -/
theorem run_of_xack {σ σ' : Shared} {i n : ℕ} {choice : Choice} {group text : String} {count : ℕ}
    (h : σ.exec i n choice (.stream (.xack group text)) = some (σ', .ok count)) :
    ∃ sc, (StreamCmd.xack group text).run σ.stream sc = some (σ'.stream, .ok count) := by
  simp only [Shared.exec] at h
  split at h
  · cases h
  · rename_i delivery hran
    obtain ⟨⟨s', r'⟩, hrun, heq⟩ := Option.map_eq_some_iff.mp h
    obtain ⟨rfl, hr⟩ := Prod.mk.inj heq
    rcases hd : choice.delivery with _ | ⟨err, ran, reconnected⟩
    · rw [hd] at hr
      exact ⟨choice.stream, hr ▸ hrun⟩
    · rw [hd] at hr
      cases hr

theorem AckedBy.step {w w' : DWorld} {l : DLabel} {group : String} {id : StreamId}
    (hI : AckedBy w group id) (h : Sound cfg S w)
    (hs : (deployment cfg S fuel).Stepped w l w') : AckedBy w' group id := by
  obtain ⟨g, hg, hname, hid⟩ := hI
  rcases h.stream_step hs with hsame | ⟨i, t, c, handed, -, -, hstep⟩
  · exact ⟨g, hsame ▸ hg, hname, hid⟩
  · obtain ⟨g', hg', hname', hid'⟩ := hstep.acked_mono hg hid
    exact ⟨g', hg', hname'.trans hname, hid'⟩

/-- An `XACK` in the transcript of a task that counted an entry has acknowledged it. -/
theorem acked_of_transcript {w₀ w : DWorld} {ls : List DLabel} (hw : Initial w₀)
    (hrun : (deployment cfg S fuel).Run w₀ ls w) {i : ℕ} {t : DTask} (htask : w.tasks i = some t)
    {group text : String} {n : ℕ} (hn : n ≠ 0)
    (hmem : (⟨.stream (.xack group text), .ok n⟩ : sig.Exchange) ∈ t.transcript) :
    ∃ id, StreamId.parse text = some id ∧ AckedBy w group id := by
  refine hw.sound.invariant (I := fun w => ∀ i t, w.tasks i = some t →
    (⟨.stream (.xack group text), .ok n⟩ : sig.Exchange) ∈ t.transcript →
    ∃ id, StreamId.parse text = some id ∧ AckedBy w group id)
    (fun u l v hu hI _ hs => ?_) hrun ?_ i t htask hmem
  · intro i t htask hmem
    have hold : ∀ t', u.tasks i = some t' →
        (⟨.stream (.xack group text), .ok n⟩ : sig.Exchange) ∈ t'.transcript →
        ∃ id, StreamId.parse text = some id ∧ AckedBy v group id := by
      intro t' ht' hmem'
      obtain ⟨id, hid, hacked⟩ := hI i t' ht' hmem'
      exact ⟨id, hid, hacked.step hu hs⟩
    rcases hs.task_cases htask with ⟨ht, -⟩ | ⟨call, -, rfl⟩ |
      ⟨t', c, k, r, σ, choice, rfl, ht', hlive, hprog, hexec, rfl, rfl⟩ | ⟨t', -, ht', rfl⟩
    · exact hold t ht hmem
    · cases hmem
    · rcases List.mem_append.mp hmem with hmem | hmem
      · exact hold t' ht' hmem
      · have heq := List.mem_singleton.mp hmem
        cases heq
        replace hexec : u.shared.exec i t'.call.server choice (.stream (.xack group text)) =
          some (v.shared, .ok n) := hexec
        obtain ⟨sc, hack⟩ := run_of_xack hexec
        exact Redis.acked_of_run hack hn
    · exact hold t' ht' hmem
  · intro i t htask
    rw [hw.tasks i] at htask
    cases htask

/-- **An acknowledged job stays away.** After an acknowledgement has returned, no claim of the
group that is started later reports the entry, neither as new nor as taken over. -/
theorem acknowledged_job_stays_away {w₀ w w' : DWorld} {ls ls' : List DLabel}
    (hapart : KeysApart cfg) (hw : SortedStart cfg w₀)
    (hstream : Redis.Accounts w₀.shared.stream) (hrun : (oneKeyspace cfg S fuel).Run w₀ ls w)
    (hrun' : (oneKeyspace cfg S fuel).Run w ls' w') {i j : ℕ} {t u : DTask}
    {streamId : String} {claim : ClaimBackgroundJobsRequest} {jobs : List ProtoBackgroundJob}
    {pendingStreamIds : List String} {pendingJobs : List PendingBackgroundJob}
    (htask : w.tasks i = some t)
    (hrequest : t.call.request = .acknowledgeBackgroundJob streamId claim.consumerGroup)
    (hacknowledged : t.prog = .ret (.ok .acknowledged)) (hlater : w.tasks j = none)
    (hu : w'.tasks j = some u) (hrequest' : u.call.request = .claimBackgroundJobs claim)
    (hreturned : u.prog = .ret (.ok (.claimedJobs jobs pendingStreamIds pendingJobs))) :
    ∃ id, StreamId.parse streamId = some id ∧
      ∀ x ∈ reportsOf jobs pendingJobs, StreamId.parse x.1 ≠ some id := by
  replace hrun' := runIn_deployment hapart (hw.orderly.run hapart hrun) hrun'
  replace hrun := runIn_deployment hapart hw.orderly hrun
  replace hw : Initial w₀ := hw.toInitial
  have hreturns := hrun.transcribed hw.tasks i t htask
  rw [hacknowledged] at hreturns
  replace hreturns : (serve cfg S fuel t.call.request).Returns t.transcript _ := hreturns
  rw [hrequest] at hreturns
  obtain ⟨n, hn, hmem⟩ := returns_acknowledged hreturns
  obtain ⟨id, hid, hacked⟩ := acked_of_transcript hw hrun htask hn hmem
  refine ⟨id, hid, ?_⟩
  rintro ⟨text, autoclaimed, idleMs⟩ hx hparse
  have htext := (reported_of_returned ((hrun.append hrun').transcribed hw.tasks) hu hrequest'
    hreturned hx).1
  -- task `j` has not been handed the entry, since it is acknowledged from `w` on
  have hnever : ∀ u, w'.tasks j = some u → u.call.request = .claimBackgroundJobs claim →
      ∀ text ∈ handedIds u.transcript, StreamId.parse text ≠ some id := by
    refine ((sound_of_run hw hrun).invariant (I := fun w' =>
      (Redis.Accounts w'.shared.stream ∧ AckedBy w' claim.consumerGroup id) ∧
      ∀ u, w'.tasks j = some u → u.call.request = .claimBackgroundJobs claim →
        ∀ text ∈ handedIds u.transcript, StreamId.parse text ≠ some id)
      (fun x l y hx hI _ hs => ⟨⟨hx.accounts_step hI.1.1 hs, hI.1.2.step hx hs⟩, ?_⟩) hrun'
      ⟨⟨accounts_of_run hw hstream hrun, hacked⟩, ?_⟩).2
    · obtain ⟨⟨haccounts, g, hg, hname, hid⟩, hold⟩ := hI
      intro u hu hrequest' text htext
      rcases hs.task_cases hu with ⟨hu', -⟩ | ⟨call, -, rfl⟩ |
        ⟨u', c, k, r, σ, choice, rfl, hu', hlive, hprog, hexec, rfl, rfl⟩ | ⟨u', -, hu', rfl⟩
      · exact hold u hu' hrequest' text htext
      · cases htext
      · rw [Interaction.Task.advance_transcript, handedIds_append] at htext
        rcases List.mem_append.mp htext with htext | htext
        · exact hold u' hu' hrequest' text htext
        · obtain ⟨id', rfl, hunacked⟩ :=
            hx.handed_unacked haccounts hu' hprog hexec hrequest' htext
          rw [StreamId.parse_format]
          rintro ⟨⟩
          exact hunacked g hg hname hid
      · exact hold u' hu' hrequest' text htext
    · intro u hu
      rw [hlater] at hu
      cases hu
  exact hnever u hu hrequest' text htext hparse

/-! ### Two jobs -/

namespace Sample

/-- A claim of one job for the group `g`. -/
def claimOne : ClaimBackgroundJobsRequest := ⟨"g", "c", 1, 0, 0⟩

/-- A job is published as `5-3`, claimed by task `3` and acknowledged by task `4`. -/
def firstJob : List DLabel :=
  enqueue ++ call 2 (.ensureConsumerGroup "g" "") 1 ++ call 3 (.claimBackgroundJobs claimOne) 4 ++
    call 4 (.acknowledgeBackgroundJob "5-3" "g") 1

/-- The step is answered; if it is an `XADD`, the entry is `6-0`. -/
def publishedLater : Choice := { answered with stream := { answered.stream with id := ⟨6, 0⟩ } }

/-- A job is published as `6-0` and claimed by task `6`. -/
def secondJob : List DLabel :=
  .spawn 5 ⟨0, .enqueueBackgroundJob (some queuedRecord)⟩ ::
    List.replicate 3 (.act 5 publishedLater) ++ call 6 (.claimBackgroundJobs claimOne) 4

/-- The identifiers task `i` was handed as new. -/
def newIdsOf (w : DWorld) (i : ℕ) : Option (List String) :=
  (w.tasks i).map fun t => newIds t.transcript

set_option maxRecDepth 100000 in
/-- Both jobs, one after the other. -/
def bothJobs : machineIn.Recording (fun _ _ => true) (start none) (fun w =>
    requestOf w 3 = some (.claimBackgroundJobs claimOne) ∧
    returned w 3 = some (.ok (.claimedJobs [⟨"5-3", "resp_1", queuedRecord, false, none⟩] [] [])) ∧
    newIdsOf w 3 = some ["5-3"] ∧
    requestOf w 4 = some (.acknowledgeBackgroundJob "5-3" "g") ∧
    returned w 4 = some (.ok .acknowledged) ∧ (w.tasks 6).isNone = true ∧
    (machineIn.execIn? (fun _ _ => true) w secondJob).any (fun w' =>
      requestOf w' 3 = some (.claimBackgroundJobs claimOne) ∧
      returned w' 3 =
        some (.ok (.claimedJobs [⟨"5-3", "resp_1", queuedRecord, false, none⟩] [] [])) ∧
      requestOf w' 6 = some (.claimBackgroundJobs claimOne) ∧
      returned w' 6 =
        some (.ok (.claimedJobs [⟨"6-0", "resp_1", queuedRecord, false, none⟩] [] [])) ∧
      newIdsOf w' 6 = some ["6-0"]) = true) :=
  ⟨firstJob, by decide +kernel⟩

theorem accounts_start (text : Option String) : Redis.Accounts (start text).shared.stream := by
  rintro stream ⟨⟩

/-- A task that has returned, with its request. -/
theorem task_of_returned {w : DWorld} {i : ℕ} {request : Request} {result : RpcResult}
    (hrequest : requestOf w i = some request) (hreturned : returned w i = some result) :
    ∃ t, w.tasks i = some t ∧ t.call.request = request ∧ t.prog = .ret result := by
  obtain ⟨t, htask, hprog⟩ := returned_eq_some hreturned
  refine ⟨t, htask, ?_, hprog⟩
  simpa [requestOf, htask] using hrequest

end Sample

open Sample

/-- The first job is handed out as new before the second. -/
theorem new_jobs_in_order_two : ∃ ls w w' t u, machineIn.Run (start none) ls w ∧
    machineIn.Run w secondJob w' ∧ w.tasks 3 = some t ∧ w'.tasks 6 = some u ∧
    newIds t.transcript = ["5-3"] ∧ newIds u.transcript = ["6-0"] ∧
    (⟨5, 3⟩ : StreamId) < ⟨6, 0⟩ := by
  obtain ⟨w, hrun, hclaim, hreturned, hnew, -, -, hnone, hlater⟩ := bothJobs.exists_run
  obtain ⟨w', hrun', -, -, hclaim', hreturned', hnew'⟩ := Machine.exists_run hlater
  obtain ⟨t, htask, hrequest, -⟩ := task_of_returned hclaim hreturned
  obtain ⟨u, hu, hrequest', -⟩ := task_of_returned hclaim' hreturned'
  have ht : newIds t.transcript = ["5-3"] := by simpa [newIdsOf, htask] using hnew
  have hu' : newIds u.transcript = ["6-0"] := by simpa [newIdsOf, hu] using hnew'
  have hfive : (⟨5, 3⟩ : StreamId).format ∈ newIds t.transcript := by rw [ht]; decide
  have hsix : (⟨6, 0⟩ : StreamId).format ∈ newIds u.transcript := by rw [hu']; decide
  refine ⟨_, w, w', t, u, hrun, hrun', htask, hu, ht, hu', ?_⟩
  refine new_jobs_in_order keysApart_config (sortedStart_start none) (accounts_start none) hrun
    hrun' htask hu hrequest
    hrequest' rfl hfive hsix fun u₀ hu₀ => ?_
  rw [Option.isNone_iff_eq_none.mp hnone] at hu₀
  cases hu₀

/-- Two claims, each with a job that is new to it. -/
theorem new_job_to_one_claim_two : ∃ ls w, machineIn.Run (start none) ls w ∧
    returned w 3 = some (.ok (.claimedJobs [⟨"5-3", "resp_1", queuedRecord, false, none⟩] [] [])) ∧
    returned w 6 = some (.ok (.claimedJobs [⟨"6-0", "resp_1", queuedRecord, false, none⟩] [] [])) ∧
    ∀ x ∈ reportsOf [⟨"5-3", "resp_1", queuedRecord, false, none⟩] [],
      ∀ y ∈ reportsOf [⟨"6-0", "resp_1", queuedRecord, false, none⟩] [],
      x.2.1 = false → y.2.1 = false → x.1 ≠ y.1 := by
  obtain ⟨w, hrun, -, -, -, -, -, -, hlater⟩ := bothJobs.exists_run
  obtain ⟨w', hrun', hclaim, hreturned, hclaim', hreturned', -⟩ := Machine.exists_run hlater
  obtain ⟨t, htask, hrequest, hprog⟩ := task_of_returned hclaim hreturned
  obtain ⟨u, hu, hrequest', hprog'⟩ := task_of_returned hclaim' hreturned'
  exact ⟨_, w', hrun.append hrun', hreturned, hreturned',
    new_job_to_one_claim keysApart_config (sortedStart_start none) (accounts_start none)
    (hrun.append hrun')
      (show 3 ≠ 6 by decide) htask hu hrequest hrequest' rfl hprog hprog'⟩

/-- The first job is acknowledged, and the next claim reports the second one. -/
theorem acknowledged_job_stays_away_two : ∃ ls w w', machineIn.Run (start none) ls w ∧
    returned w 4 = some (.ok .acknowledged) ∧ machineIn.Run w secondJob w' ∧
    returned w' 6 = some (.ok (.claimedJobs [⟨"6-0", "resp_1", queuedRecord, false, none⟩] [] [])) ∧
    ∃ id, StreamId.parse "5-3" = some id ∧
      ∀ x ∈ reportsOf [⟨"6-0", "resp_1", queuedRecord, false, none⟩] [],
        StreamId.parse x.1 ≠ some id := by
  obtain ⟨w, hrun, -, -, -, hack, hacked, hnone, hlater⟩ := bothJobs.exists_run
  obtain ⟨w', hrun', -, -, hclaim', hreturned', -⟩ := Machine.exists_run hlater
  obtain ⟨t, htask, hrequest, hprog⟩ := task_of_returned hack hacked
  obtain ⟨u, hu, hrequest', hprog'⟩ := task_of_returned hclaim' hreturned'
  exact ⟨_, w, w', hrun, hacked, hrun', hreturned',
    acknowledged_job_stays_away keysApart_config (sortedStart_start none) (accounts_start none)
    hrun hrun' htask
      (show t.call.request = .acknowledgeBackgroundJob "5-3" claimOne.consumerGroup from hrequest)
      hprog (Option.isNone_iff_eq_none.mp hnone) hu hrequest' hprog'⟩

end ResponsesApiStore
