import ResponsesApiStore.Guarantees.Statistics
import ResponsesApiStore.System.OneKeyspace

/-!
# Statistics and consumer groups

A request for statistics looks whether the stream exists, reads its groups, and creates the group
it was asked for if there is none at all; it creates nothing else (`grouping`). What it has read
may be out of date when it creates: two requests for different groups can both read that there is
none (`stats_create_second_group`). As long as no other group is created between such a reading
and the creation that follows it (`CreatesAlone`), a request for statistics creates a group only
if the stream exists and has none. And one that reads other groups, but not its own, returns that
it is not found (`stats_create_first_group`).
-/

namespace ResponsesApiStore

open Json (Serde)
open Redis (Error GroupInfo Stream groupsOf)
open Interaction (Machine World Label Program Protocol)
open Interaction.Program

variable {N : Type}

/-! ### What a request for statistics sends about groups -/

/-- What a request for statistics has learnt: whether the stream exists, and its groups as they
were last read, unless it has created one since. No groups are read if the stream is reported
missing. -/
structure GroupsView where
  exist : Bool
  read : Option (List GroupInfo)

def GroupsView.init : GroupsView := ⟨false, none⟩

/-- The view after an exchange. -/
def GroupsView.after (g : GroupsView) : (c : Cmd) → c.Reply → GroupsView
  | .stream .exist, .ok exist => { g with exist }
  | .stream .xinfoGroups, .ok info => { g with read := some info }
  | .stream .xinfoGroups, .error err =>
    if isMissingStream err then { g with read := some [] } else g
  | .stream (.xgroupCreate ..), _ => { g with read := none }
  | _, _ => g

/-- Other groups were read, but not this one. -/
def GroupsView.Denied (g : GroupsView) (group : String) : Prop :=
  ∃ info, g.read = some info ∧ info ≠ [] ∧ BackgroundQueue.findGroup info group = none

/-- What a request for the statistics of `group` sends about groups: when it has read that there
are none, it creates one; when it has read others only, it sends nothing at all. -/
def grouping (group : String) : Protocol sig GroupsView where
  allowed g c := ¬g.Denied group ∧ match c with
    | .stream (.xgroupCreate _ _) => g.exist = true ∧ g.read = some []
    | .stream .xinfoGroups => g.exist = true ∧ g.read ≠ some []
    | _ => g.read ≠ some []
  next := GroupsView.after

/-- The answer for a group that is not there. -/
def groupNotFound (cfg : StoreConfig) (group : String) : RpcResult :=
  .error (.status ⟨.notFound,
    "consumer group " ++ group ++ " not found for stream " ++ cfg.streamKey⟩)

section Program

variable {cfg : StoreConfig} {group : String}

theorem not_denied_unread {exist : Bool} : ¬GroupsView.Denied ⟨exist, none⟩ group := by
  rintro ⟨info, ⟨⟩, -⟩

theorem grouping_loadStreamGroups {post : GroupsView → Except Fault (List GroupInfo) → Prop}
    (hread : ∀ info, post ⟨true, some info⟩ (.ok info))
    (herror : ∀ fault, post ⟨true, none⟩ (.error fault)) :
    BackgroundQueue.loadStreamGroups.run.Follows (grouping group) post ⟨true, none⟩ := by
  rw [BackgroundQueue.loadStreamGroups, follows_except_bind_iff, follows_outcome, follows_storage]
  refine ⟨⟨not_denied_unread, rfl, (Option.some_ne_none _).symm⟩, fun reply => ?_⟩
  rcases reply with err | info
  · change (if isMissingStream err then return [] else raise (.storage err) :
      Act (List GroupInfo)).run.Follows (grouping group) post
        (if isMissingStream err then _ else _)
    split_ifs
    · exact hread []
    · exact herror _
  · exact hread info

/-- The commands that are not about groups. -/
def Cmd.Ungrouped : Cmd → Prop
  | .stream .exist | .stream .xinfoGroups | .stream (.xgroupCreate _ _) => False
  | _ => True

theorem Cmd.Ungrouped.inert {g : GroupsView} (hg : ¬g.Denied group) (hread : g.read ≠ some [])
    (c : Cmd) (hc : c.Ungrouped) : (grouping group).allowed g c ∧ ∀ r, g.after c r = g := by
  cases c with
  | stream c =>
    cases c with
    | exist | xinfoGroups | xgroupCreate => exact hc.elim
    | _ => exact ⟨⟨hg, hread⟩, fun _ => rfl⟩
  | _ => exact ⟨⟨hg, hread⟩, fun _ => rfl⟩

/-- The groups a request for statistics goes by: its own among them, or it has read others. -/
theorem grouping_groupsForStats :
    (BackgroundQueue.groupsForStats group).run.Follows (grouping group)
      (fun g r => (∃ fault, r = .error fault ∧ ¬g.Denied group) ∨
        ∃ info, r = .ok info ∧ g.read = some info) ⟨true, none⟩ := by
  have hempty : ¬GroupsView.Denied ⟨true, some []⟩ group := by
    rintro ⟨info, ⟨⟩, hne, -⟩
    exact hne rfl
  rw [BackgroundQueue.groupsForStats, follows_except_bind_iff]
  refine grouping_loadStreamGroups (fun info => ?_)
    fun fault => .inl ⟨fault, rfl, not_denied_unread⟩
  dsimp only
  split_ifs with hcreate
  · obtain rfl : info = [] := by simpa using (Bool.and_eq_true_iff.mp hcreate).2
    rw [follows_except_bind_iff, BackgroundQueue.ensureConsumerGroup, follows_except_bind_iff,
      follows_outcome, follows_storage]
    refine ⟨⟨hempty, rfl, rfl⟩, fun reply => ?_⟩
    have hload : BackgroundQueue.loadStreamGroups.run.Follows (grouping group)
        (fun g r => (∃ fault, r = .error fault ∧ ¬g.Denied group) ∨
          ∃ info, r = .ok info ∧ g.read = some info) ⟨true, none⟩ :=
      grouping_loadStreamGroups (fun info => .inr ⟨info, rfl, rfl⟩)
        fun fault => .inl ⟨fault, rfl, not_denied_unread⟩
    rcases reply with err | _
    · change (if isBusygroup err then return false else raise (.storage err) :
        Act Bool).run.Follows (grouping group) _ _
      split_ifs
      · exact hload
      · exact .inl ⟨_, rfl, not_denied_unread⟩
    · exact hload
  · exact .inr ⟨info, rfl, rfl⟩

variable [DecidableEq N] {S : Serde N}

/-- **What a request for statistics does about groups.** -/
theorem grouping_serve (fuel : ℕ) (group : String) :
    (serve cfg S fuel (.getBackgroundQueueStats group)).Follows (grouping group)
      (fun g r => g.Denied group → r = groupNotFound cfg group) .init := by
  show (getBackgroundQueueStats cfg fuel group).run.Follows _ _ _
  rw [getBackgroundQueueStats]
  split_ifs
  · exact fun hdenied => absurd hdenied not_denied_unread
  rw [follows_except_bind_iff, follows_rpc, BackgroundQueue.stats, follows_except_bind_iff,
    follows_storage]
  refine ⟨⟨not_denied_unread, (Option.some_ne_none _).symm⟩, fun reply => ?_⟩
  rcases reply with err | exist
  · exact fun hdenied => absurd hdenied not_denied_unread
  cases exist with
  | false => exact fun hdenied => absurd hdenied not_denied_unread
  | true =>
    change (BackgroundQueue.groupsForStats group >>= _ : Act _).run.Follows (grouping group) _
      (GroupsView.mk true none)
    rw [follows_except_bind_iff]
    refine grouping_groupsForStats.mono ?_
    rintro g r (⟨fault, rfl, hg⟩ | ⟨info, rfl, hread⟩)
    · exact fun hdenied => absurd hdenied hg
    dsimp only
    cases hfind : BackgroundQueue.findGroup info group with
    | none =>
      intro _
      show (.error (.status (storeErrorToStatus (.notFound _))) : RpcResult) = _
      rw [storeErrorToStatus_unknown]
      rfl
    | some found =>
      have hg : ¬g.Denied group := by
        rintro ⟨info', hread', -, hnone⟩
        obtain rfl := Option.some.inj (hread.symm.trans hread')
        rw [hfind] at hnone
        cases hnone
      have hne : g.read ≠ some [] := by
        intro hempty
        obtain rfl := Option.some.inj (hread.symm.trans hempty)
        cases hfind
      have hsafe : Safe (.only Cmd.Ungrouped) (storage (send .capabilities) >>= fun capabilities =>
          BackgroundQueue.statsFromGroup fuel group found
            capabilities.exclusiveRangeSupported : Act _).run := by
        refine Safe.except_bind (safe_storage (safe_call fun _ => trivial)) fun capabilities => ?_
        exact Permits.safe_statsFromGroup (fun _ _ _ _ => trivial)
          (fun _ _ _ _ _ => trivial) _ _ _ _
      refine (hsafe.inert (Cmd.Ungrouped.inert hg hne)).mono ?_
      rintro g' (fault | stats) rfl <;> exact fun hdenied => absurd hdenied hg

end Program

/-! ### What is read stays true -/

/-- What a request for statistics has learnt. -/
def groupsView (t : DTask) : GroupsView := t.transcript.foldl (fun g e => g.after e.1 e.2) .init

@[simp]
theorem groupsView_advance (t : DTask) (c : Cmd) (k : c.Reply → Program sig RpcResult)
    (r : c.Reply) :
    groupsView (t.advance (S := sig) c k r) = (groupsView t).after c r := by
  simp [groupsView]

/-- That the stream exists is learnt from `EXISTS`. -/
theorem exist_of_after {g : GroupsView} {c : Cmd} {r : c.Reply}
    (h : (g.after c r).exist = true) :
    g.exist = true ∨ c = .stream .exist ∧ HEq r (.ok true : Except Error Bool) := by
  cases c with
  | stream c =>
    cases c with
    | exist =>
      rcases r with err | exist
      · exact .inl h
      · obtain rfl : exist = true := h
        exact .inr ⟨rfl, .rfl⟩
    | xinfoGroups =>
      rcases r with err | info
      · rw [GroupsView.after] at h
        split_ifs at h <;> exact .inl h
      · exact .inl h
    | _ => exact .inl h
  | _ => exact .inl h

/-- The task is about to create a group. -/
def AwaitsCreate (t : DTask) : Prop :=
  ∃ name start k, t.prog = .cmd (.stream (.xgroupCreate name start)) k

/-- While a request for statistics is about to create a group, nobody else creates one. -/
def CreatesAlone (w : DWorld) (l : DLabel) : Prop :=
  ∀ i t group, w.tasks i = some t → t.live = true →
    t.call.request = .getBackgroundQueueStats group → AwaitsCreate t →
    ∀ j u name start, Runs w l j u (.stream (.xgroupCreate name start)) → j = i

/-- A reading of the groups that fails on the way is not reported as a missing stream. -/
def ReportsTruly (w : DWorld) (l : DLabel) : Prop :=
  ∀ i choice err ran reconnected, l = .act i choice →
    awaits w i = some (.stream .xinfoGroups) → choice.delivery = .failed err ran reconnected →
    isMissingStream err = false

/-- What a request for statistics goes by is true. -/
structure GroupsKnown (w : DWorld) (t : DTask) : Prop where
  exist : (groupsView t).exist = true → w.shared.stream.isSome = true
  unread : AwaitsCreate t → groupsOf w.shared.stream = []

section Steps

open Redis (StreamStep StreamCmd)

/-- A stream does not vanish. -/
theorem isSome_of_streamStep {s s' : Option Stream} {c : StreamCmd}
    {handed : List Redis.EntryReply} (h : StreamStep s c s' handed) (hs : s.isSome = true) :
    s'.isSome = true := by
  cases h with
  | same => exact hs
  | _ => rfl

/-- Groups come by `XGROUP CREATE` alone. -/
theorem groupsOf_eq_nil_of_streamStep {s s' : Option Stream} {c : StreamCmd}
    {handed : List Redis.EntryReply} (h : StreamStep s c s' handed) (hs : groupsOf s = [])
    (hc : ∀ group start, c ≠ .xgroupCreate group start) : groupsOf s' = [] := by
  cases h with
  | same | added | trimmed => exact hs
  | created => exact absurd rfl (hc _ _)
  | acked hsome | reassigned hsome | delivered hsome =>
    subst hsome
    exact List.map_eq_nil_iff.mpr hs

/-- A stream that was reported is there. -/
theorem exec_exist {σ σ' : Shared} {i n : ℕ} {choice : Choice} {r : Except Error Bool}
    (h : σ.exec i n choice (.stream .exist) = some (σ', r)) (hr : r = .ok true) :
    σ.stream.isSome = true := by
  simp only [Shared.exec] at h
  rcases hd : choice.delivery with _ | ⟨err, _ | _, reconnected⟩
  · rw [hd] at h
    obtain ⟨-, heq⟩ := Prod.mk.inj (Option.some.inj h)
    exact Except.ok.inj (heq.trans hr)
  · rw [hd] at h
    obtain ⟨-, heq⟩ := Prod.mk.inj (Option.some.inj h)
    cases heq.trans hr
  · rw [hd] at h
    obtain ⟨-, heq⟩ := Prod.mk.inj (Option.some.inj h)
    cases heq.trans hr

/-- No groups are read of a stream that has none. -/
theorem exec_xinfoGroups {σ σ' : Shared} {i n : ℕ} {choice : Choice}
    {r : Except Error (List GroupInfo)} {g : GroupsView}
    (h : σ.exec i n choice (.stream .xinfoGroups) = some (σ', r)) (hg : g.read ≠ some [])
    (hread : (g.after (.stream .xinfoGroups) r).read = some [])
    (hexist : σ.stream.isSome = true)
    (htrue : ∀ err ran reconnected, choice.delivery = .failed err ran reconnected →
      isMissingStream err = false) : groupsOf σ'.stream = [] := by
  obtain ⟨stream, hstream⟩ := Option.isSome_iff_exists.mp hexist
  have herror : ∀ err, r = .error err → isMissingStream err = true := by
    rintro err rfl
    by_contra hmissing
    rw [GroupsView.after, if_neg hmissing] at hread
    exact hg hread
  simp only [Shared.exec, hstream] at h
  rcases hd : choice.delivery with _ | ⟨err, _ | _, reconnected⟩
  · rw [hd] at h
    obtain ⟨rfl, rfl⟩ := Prod.mk.inj (Option.some.inj h)
    have hempty := Option.some.inj (show some _ = some _ from hread)
    exact List.map_eq_nil_iff.mp hempty
  · rw [hd] at h
    obtain ⟨-, heq⟩ := Prod.mk.inj (Option.some.inj h)
    have hmissing := herror err heq.symm
    rw [htrue err _ _ hd] at hmissing
    cases hmissing
  · rw [hd] at h
    obtain ⟨-, heq⟩ := Prod.mk.inj (Option.some.inj h)
    have hmissing := herror err heq.symm
    rw [htrue err _ _ hd] at hmissing
    cases hmissing

variable [DecidableEq N] {cfg : StoreConfig} {S : Serde N} {fuel : ℕ} {w w' : DWorld} {l : DLabel}

/-- A request for statistics follows its protocol. -/
theorem grouping_of_task (htr : (deployment cfg S fuel).Transcribed w) {i : ℕ} {t : DTask}
    {group : String} (htask : w.tasks i = some t)
    (hrequest : t.call.request = .getBackgroundQueueStats group) :
    t.prog.Follows (grouping group) (fun g r => g.Denied group → r = groupNotFound cfg group)
      (groupsView t) := by
  have hresumes : (serve cfg S fuel t.call.request).Resumes t.transcript t.prog := htr i t htask
  rw [hrequest] at hresumes
  exact (grouping_serve fuel group).resume hresumes

/-- A stream stays. -/
theorem stream_isSome_step (h : Sound cfg S w) (hs : (deployment cfg S fuel).Stepped w l w')
    (hsome : w.shared.stream.isSome = true) : w'.shared.stream.isSome = true := by
  rcases h.stream_step hs with hsame | ⟨-, -, c, handed, -, -, hstep⟩
  · rwa [hsame]
  · exact isSome_of_streamStep hstep hsome

/-- When a request for statistics comes to create a group, it has just read that there is
none. -/
theorem just_read_groups (htr : (deployment cfg S fuel).Transcribed w) {i : ℕ} {t : DTask}
    {group : String} {c : Cmd} {k : c.Reply → Program sig RpcResult} {r : c.Reply}
    (htask : w.tasks i = some t) (hrequest : t.call.request = .getBackgroundQueueStats group)
    (hprog : t.prog = .cmd c k) (hawaits : AwaitsCreate (t.advance (S := sig) c k r)) :
    c = .stream .xinfoGroups ∧ (groupsView t).exist = true ∧ (groupsView t).read ≠ some [] ∧
      ((groupsView t).after c r).read = some [] := by
  have hfollows := grouping_of_task htr htask hrequest
  rw [hprog] at hfollows
  obtain ⟨⟨hdenied, hallowed⟩, hnext⟩ := hfollows
  obtain ⟨name, start, k', hcreate⟩ := hawaits
  replace hnext : (k r).Follows _ _ ((groupsView t).after c r) := hnext r
  rw [show k r = .cmd (.stream (.xgroupCreate name start)) k' from hcreate] at hnext
  obtain ⟨⟨-, -, hread⟩, -⟩ := hnext
  cases c with
  | stream c =>
    cases c with
    | xinfoGroups => exact ⟨rfl, hallowed.1, hallowed.2, hread⟩
    | xgroupCreate => cases hread
    | exist =>
      rcases r with err | exist
      · exact absurd hread hallowed
      · exact absurd hread hallowed
    | _ => exact absurd hread hallowed
  | _ => exact absurd hread hallowed

/-- What requests for statistics go by is true of every world. -/
def GroupsAllKnown (w : DWorld) : Prop :=
  ∀ i t group, w.tasks i = some t → t.live = true →
    t.call.request = .getBackgroundQueueStats group → GroupsKnown w t

theorem GroupsAllKnown.step (hI : GroupsAllKnown w) (h : Sound cfg S w)
    (htr : (deployment cfg S fuel).Transcribed w) (halone : CreatesAlone w l)
    (htruly : ReportsTruly w l) (hs : (deployment cfg S fuel).Stepped w l w') :
    GroupsAllKnown w' := by
  intro i t group ht hlive hrequest
  rcases hs.task_cases ht with ⟨hkept, hother⟩ | ⟨call, hl, rfl⟩ |
    ⟨u, c, k, r, σ, choice, rfl, hu, hulive, hprog, hexec, hσ, rfl⟩ | ⟨u, -, -, rfl⟩
  · have hknown := hI i t group hkept hlive hrequest
    refine ⟨fun hexist => stream_isSome_step h hs (hknown.exist hexist), fun hawaits => ?_⟩
    rcases h.stream_step hs with hsame | ⟨j, u, c, handed, hruns, -, hstep⟩
    · rw [hsame]
      exact hknown.unread hawaits
    · refine groupsOf_eq_nil_of_streamStep hstep (hknown.unread hawaits) ?_
      rintro name start rfl
      obtain rfl := halone i t group hkept hlive hrequest hawaits j u name start hruns
      obtain ⟨choice, hlabel, -⟩ := hruns.label
      exact hother choice hlabel
  · refine ⟨nofun, fun hawaits => ?_⟩
    have hfollows : (serve cfg S fuel (.getBackgroundQueueStats group)).Follows _ _ _ :=
      grouping_serve fuel group
    obtain ⟨name, start, k, hprog⟩ := hawaits
    rw [show serve cfg S fuel (.getBackgroundQueueStats group) = .cmd _ k from
      hrequest ▸ hprog] at hfollows
    exact nomatch hfollows.1.2.2
  · have hknown := hI i u group hu hulive hrequest
    subst hσ
    replace hexec : w.shared.exec i u.call.server choice c = some (w'.shared, r) := hexec
    refine ⟨fun hexist => stream_isSome_step h hs ?_, fun hawaits => ?_⟩
    · rw [groupsView_advance] at hexist
      rcases exist_of_after hexist with hexist | ⟨rfl, hr⟩
      · exact hknown.exist hexist
      · exact exec_exist hexec (eq_of_heq hr)
    · obtain ⟨rfl, hexist, hunread, hread⟩ := just_read_groups htr hu hrequest hprog hawaits
      refine exec_xinfoGroups hexec hunread hread (hknown.exist hexist) ?_
      intro err ran reconnected hd
      refine htruly i choice err ran reconnected rfl ?_ hd
      simp [awaits, hu, hulive, hprog, Program.command?]
  · cases hlive

/-- **The first group.** Under names that are apart, in every run in which nobody else creates a
group while a request for statistics is about to: a request for statistics creates a group only
when the stream exists and has no group; and one that finds groups of other names only returns that
its group is not found, and leaves the stream as it is. -/
theorem stats_create_first_group {w₀ : DWorld} {ls : List DLabel} (hapart : KeysApart cfg)
    (hw : SortedStart cfg w₀)
    (hrun : (oneKeyspace cfg S fuel).RunIn (fun w l => CreatesAlone w l ∧ ReportsTruly w l) w₀ ls w)
    {i : ℕ} {t : DTask} {group : String} (htask : w.tasks i = some t)
    (hrequest : t.call.request = .getBackgroundQueueStats group) :
    (∀ l name start, Runs w l i t (.stream (.xgroupCreate name start)) →
      w.shared.stream.isSome = true ∧ groupsOf w.shared.stream = []) ∧
    ∀ stream choice w', w.shared.stream = some stream → stream.groups ≠ [] →
      stream.group? group = none → awaits w i = some (.stream .xinfoGroups) →
      choice.delivery = .replied → (oneKeyspace cfg S fuel).step w (.act i choice) = some w' →
      w'.shared.stream = w.shared.stream ∧ returned w' i = some (groupNotFound cfg group) := by
  have horderly : Orderly cfg w := hw.orderly.run hapart hrun
  replace hrun := runIn_deployment hapart hw.orderly hrun
  have hI : GroupsAllKnown w := by
    refine hw.toInitial.invariant hrun
      (fun u l v hu htr hI hok hs => hI.step hu htr hok.1 hok.2 hs) ?_
    intro j u _ hu
    rw [hw.tasks j] at hu
    cases hu
  have htr := hrun.transcribed hw.tasks
  have hfollows := grouping_of_task htr htask hrequest
  refine ⟨fun l name start hruns => ?_, fun stream choice w' hstream hgroups hunknown hawaits
    hreplied hstep => ?_⟩
  · obtain ⟨k, hprog⟩ := hruns.prog
    have hknown := hI i t group htask hruns.live hrequest
    rw [hprog] at hfollows
    exact ⟨hknown.exist hfollows.1.2.1, hknown.unread ⟨name, start, k, hprog⟩⟩
  · obtain ⟨t', k, ht', hlive, hprog⟩ := awaits_eq_some hawaits
    obtain rfl := Option.some.inj (htask.symm.trans ht')
    cases Machine.step_eq_some_iff.mp (step_deployment hapart horderly hstep) with
    | @act _ _ u c k' σ r hu _ hprog' hexec =>
      obtain rfl := Option.some.inj (htask.symm.trans hu)
      obtain ⟨rfl, hk⟩ := Program.cmd.inj (hprog.symm.trans hprog')
      obtain rfl := eq_of_heq hk
      replace hexec : w.shared.exec i t.call.server choice (.stream .xinfoGroups) = some (σ, r) :=
        hexec
      simp only [Shared.exec, hreplied, hstream] at hexec
      obtain ⟨rfl, rfl⟩ := Prod.mk.inj (Option.some.inj hexec)
      refine ⟨hstream.symm ▸ rfl, ?_⟩
      rw [hprog] at hfollows
      have hrest : (k (.ok (stream.groups.map (infoOf stream choice.stream)))).Follows
          (grouping group) _ _ := hfollows.2 _
      have hdenied : GroupsView.Denied
          { groupsView t with read := some (stream.groups.map (infoOf stream choice.stream)) }
          group := by
        refine ⟨_, rfl, fun hnil => hgroups (List.map_eq_nil_iff.mp hnil), ?_⟩
        rw [findGroup_infoOf, hunknown]
        rfl
      have hresult : k (.ok (stream.groups.map (infoOf stream choice.stream))) =
          .ret (groupNotFound cfg group) := by
        generalize k (.ok (stream.groups.map (infoOf stream choice.stream))) = rest at hrest
        cases rest with
        | ret r => exact congrArg _ (hrest hdenied)
        | cmd c k => exact absurd hdenied hrest.1.1
      rw [returned, World.put_tasks_self, Option.bind_some]
      exact congrArg Program.result? hresult

end Steps

section Runs

open Sample

/-- The step creates no group, and no request fails. -/
def noCreate (w : DWorld) : DLabel → Bool
  | .act i choice =>
    (match choice.delivery with
      | .replied => true
      | .failed .. => false) &&
    match awaits w i with
    | some (.stream (.xgroupCreate ..)) => false
    | _ => true
  | _ => true

theorem createsAlone_of_noCreate {w : DWorld} {l : DLabel} (h : noCreate w l = true) :
    CreatesAlone w l ∧ ReportsTruly w l := by
  refine ⟨fun i t group _ _ _ _ j u name start hruns => ?_, ?_⟩
  · obtain ⟨choice, rfl, -⟩ := hruns.label
    simp [noCreate, hruns.awaits] at h
  · rintro i choice err ran reconnected rfl - hd
    simp [noCreate, hd] at h

set_option maxRecDepth 100000 in
/-- A job is enqueued, and the statistics for the group of the workers are asked for. -/
def statsFirst : machineIn.Recording noCreate (start none) (fun w =>
    awaits w 2 = some (.stream (.xgroupCreate "workers" "0-0")) ∧
      requestOf w 2 = some (.getBackgroundQueueStats "workers")) :=
  ⟨enqueue ++ call 2 (.getBackgroundQueueStats "workers") 2, by decide +kernel⟩

/-- On a cold start, the statistics create the first group. -/
theorem stats_create_first_group_coldStart : ∃ w t,
    machineIn.Run (start none) statsFirst.labels w ∧
    Runs w (.act 2 answered) 2 t (.stream (.xgroupCreate "workers" "0-0")) ∧
    w.shared.stream.isSome = true ∧ groupsOf w.shared.stream = [] := by
  obtain ⟨w, hrun, hawaits, hrequest⟩ := statsFirst.exists_runIn fun _ _ => createsAlone_of_noCreate
  obtain ⟨t, hruns⟩ := runs_of_awaits hawaits (show answered.delivery.ran = true from rfl)
  rw [requestOf, hruns.task, Option.map_some] at hrequest
  exact ⟨w, t, hrun.run, hruns, (stats_create_first_group keysApart_config
    (sortedStart_start _) hrun hruns.task
    (Option.some.inj hrequest)).1 _ _ _ hruns⟩

set_option maxRecDepth 100000 in
/-- The statistics of two groups are asked for; both requests read that there is no group, and
one creates the group of the workers. -/
def statsRace : machineIn.Recording (fun _ _ => true) (start none) (fun w =>
    awaits w 3 = some (.stream (.xgroupCreate "typo" "0-0")) ∧
      requestOf w 3 = some (.getBackgroundQueueStats "typo") ∧
      (groupsOf w.shared.stream).map Redis.Group.name = ["workers"]) :=
  ⟨enqueue ++ call 2 (.getBackgroundQueueStats "workers") 2 ++
    call 3 (.getBackgroundQueueStats "typo") 2 ++ turns 2 1, by decide +kernel⟩

/-- **An orphan.** A request for the statistics of a mistyped group creates it, when the group of
the workers is there. -/
theorem stats_create_second_group : ∃ w t,
    machineIn.Run (start none) statsRace.labels w ∧
    Runs w (.act 3 answered) 3 t (.stream (.xgroupCreate "typo" "0-0")) ∧
    t.call.request = .getBackgroundQueueStats "typo" ∧
    (groupsOf w.shared.stream).map Redis.Group.name = ["workers"] := by
  obtain ⟨w, hrun, hawaits, hrequest, hgroups⟩ := statsRace.exists_run
  obtain ⟨t, hruns⟩ := runs_of_awaits hawaits (show answered.delivery.ran = true from rfl)
  rw [requestOf, hruns.task, Option.map_some] at hrequest
  exact ⟨w, t, hrun, hruns, Option.some.inj hrequest, hgroups⟩

end Runs

end ResponsesApiStore
