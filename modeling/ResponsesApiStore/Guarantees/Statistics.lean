import ResponsesApiStore.System.OneKeyspace
import ResponsesApiStore.System.Statistics

/-!
# The statistics are exact

A request for statistics, in any reachable state of the queue under names that are apart, answers
with what is in the stream, provided that nobody else changes the stream meanwhile and its commands
are answered (`Undisturbed`). The condition on the state is `StatsCountable`: on a server that
cannot exclude the start of a range, the successor of an identifier is needed where a count
continues, and it is computed without regard for overflow; a server that can refuses to exclude the
greatest identifier of all.
-/

namespace ResponsesApiStore

open Json (Serde)
open Redis (Stream StreamChoice groupsOf)
open Interaction (Machine World Label Program)

/-- Task `i` of server `n` is not disturbed: its commands are answered, the lags of the groups
being reported if `lagKnown`; nobody else changes the stream; and what the server has found out
about Redis, if anything, is that it can exclude the start of a range if `exclusive`. -/
structure Undisturbed (M : DMachine) (i n : ℕ) (exclusive lagKnown : Bool) (w : DWorld)
    (l : DLabel) : Prop where
  answered : ∀ choice, l = .act i choice → choice.delivery = .replied ∧
    (lagKnown = true → groupsOf w.shared.stream = [] ∨ choice.stream.lagKnown = true)
  stream : ∀ w', M.step w l = some w' → (∀ choice, l ≠ .act i choice) →
    w'.shared.stream = w.shared.stream
  known : ∀ w' known, M.step w l = some w' → w'.shared.capabilities n = some known →
    known.exclusiveRangeSupported = exclusive

variable {N : Type} {cfg : StoreConfig} {S : Serde N} {fuel : ℕ} {exclusive lagKnown : Bool}
  {i n : ℕ} {request : Request}

/-- Looking up the capabilities: afterwards the server knows them. -/
theorem exec_capabilities (σ : Shared) (i n : ℕ) {choice : Choice}
    (hreplied : choice.delivery = .replied) :
    ∃ σ' known, σ.exec i n choice .capabilities = some (σ', .ok known) ∧
      σ'.stream = σ.stream ∧ σ'.capabilities n = some known ∧
      (σ.capabilities n = some known ∨ known = capabilitiesOfInfo choice.info) := by
  rcases hknown : σ.capabilities n with _ | known
  · refine ⟨{ σ with capabilities :=
        Function.update σ.capabilities n (some (capabilitiesOfInfo choice.info)) },
      capabilitiesOfInfo choice.info, ?_, rfl, ?_, .inr rfl⟩
    · simp only [Shared.exec, hknown, hreplied]
    · simp
  · exact ⟨σ, known, by simp only [Shared.exec, hknown], rfl, hknown, .inl rfl⟩

variable [DecidableEq N]

/-- An undisturbed task is answered from one stream. -/
theorem isolates_stream :
    (deployment cfg S fuel).Isolates (Undisturbed (deployment cfg S fuel) i n exclusive lagKnown) i
      ⟨n, request⟩ Shared.stream (Answered exclusive lagKnown) := by
  constructor
  · intro x choice t c k σ r hok htask hlive hcall hprog hans hexec
    have hserver : t.call.server = n := by rw [hcall]
    obtain ⟨hreplied, hlag⟩ := hok.answered choice rfl
    have hstep := Machine.step_eq_some_iff.mpr (.act htask hlive hprog hexec)
    replace hexec : x.shared.exec i t.call.server choice c = some (σ, r) := hexec
    obtain ⟨s', r', hans⟩ := hans
    cases c with
    | stream c =>
      simp only [Shared.exec, hreplied] at hexec
      obtain ⟨⟨s'', r''⟩, hrun, heq⟩ := Option.map_eq_some_iff.mp hexec
      obtain ⟨rfl, rfl⟩ := Prod.mk.inj heq
      exact ⟨choice.stream, hrun, hlag⟩
    | capabilities =>
      obtain ⟨σ', known, hexec', hstream, hknown, -⟩ :=
        exec_capabilities x.shared i t.call.server hreplied
      obtain ⟨rfl, rfl⟩ := Prod.mk.inj (Option.some.inj (hexec'.symm.trans hexec))
      exact ⟨hstream, known, rfl, hok.known _ known hstep (hserver ▸ hknown)⟩
    | _ => exact hans.elim
  · intro x l y hok hother hs
    exact hok.stream y (Machine.step_eq_some_iff.mpr hs) hother

/-- What the server has found out about Redis agrees with `exclusive`. -/
def KnowsExclusive (n : ℕ) (exclusive : Bool) (σ : Shared) : Prop :=
  ∀ known, σ.capabilities n = some known → known.exclusiveRangeSupported = exclusive

/-- What an answered command of the task leaves decides whether it was undisturbed. -/
theorem Undisturbed.of_exec {x : DWorld} {t : DTask} {c : Cmd}
    {k : c.Reply → Program sig RpcResult} {choice : Choice} {σ : Shared} {r : c.Reply}
    (htask : x.tasks i = some t) (hlive : t.live = true) (hprog : t.prog = .cmd c k)
    (hreplied : choice.delivery = .replied)
    (hlag : lagKnown = true → groupsOf x.shared.stream = [] ∨ choice.stream.lagKnown = true)
    (hexec : (deployment cfg S fuel).exec x.shared i t.call c choice = some (σ, r))
    (hσ : KnowsExclusive n exclusive σ) :
    Undisturbed (deployment cfg S fuel) i n exclusive lagKnown x (.act i choice) where
  answered := by
    rintro choice' ⟨⟩
    exact ⟨hreplied, hlag⟩
  stream _ _ hother := absurd rfl (hother choice)
  known := by
    intro w' known hstep
    rw [Machine.step_eq_some_iff.mpr (.act htask hlive hprog hexec)] at hstep
    obtain rfl := Option.some.inj hstep
    exact hσ known

/-- The text in which a server tells that it can, or cannot, exclude the start of a range. -/
def infoText (exclusive : Bool) : String :=
  if exclusive then "redis_version:7.0.0" else "redis_version:6.0.0"

/-- Everything is answered, in that text where it matters. -/
def answering (exclusive : Bool) : Choice :=
  ⟨.replied, ⟨.zero, 0, 0, fun _ => false, true⟩, infoText exclusive⟩

theorem capabilitiesOfInfo_infoText (exclusive : Bool) :
    (capabilitiesOfInfo (infoText exclusive)).exclusiveRangeSupported = exclusive := by
  cases exclusive <;> decide

/-- The task is undisturbed, and other clients leave the keys of the queue alone. -/
abbrev Quietly (cfg : StoreConfig) (S : Serde N) (fuel i n : ℕ) (exclusive lagKnown : Bool)
    (w : DWorld) (l : DLabel) : Prop :=
  Undisturbed (deployment cfg S fuel) i n exclusive lagKnown w l ∧ LeavesQueue cfg l = true

/-- An answer from one stream can be given. -/
theorem answer_ready {x : DWorld} {t : DTask} {c : Cmd} {k : c.Reply → Program sig RpcResult}
    {s' : Option Stream} {r : c.Reply} (hx : KnowsExclusive n exclusive x.shared)
    (htask : x.tasks i = some t) (hlive : t.live = true) (hcall : t.call = ⟨n, request⟩)
    (hprog : t.prog = .cmd c k) (hans : Answered exclusive lagKnown x.shared.stream c s' r) :
    ∃ choice σ r', Quietly cfg S fuel i n exclusive lagKnown x (.act i choice) ∧
      (deployment cfg S fuel).exec x.shared i t.call c choice = some (σ, r') ∧
      KnowsExclusive n exclusive σ := by
  cases c with
  | stream c =>
    obtain ⟨choice, hrun, hlag⟩ := hans
    have hexec : (deployment cfg S fuel).exec x.shared i t.call (.stream c)
        ⟨.replied, choice, ""⟩ = some ({ x.shared with stream := s' }, r) := by
      simp only [deployment, Shared.exec, hrun, Option.map_some]
      rfl
    exact ⟨_, _, _, ⟨.of_exec htask hlive hprog rfl hlag hexec hx, rfl⟩, hexec, hx⟩
  | capabilities =>
    obtain ⟨σ, known, hexec, -, hknown, hold⟩ := exec_capabilities x.shared i t.call.server
      (show (answering exclusive).delivery = .replied from rfl)
    replace hexec : (deployment cfg S fuel).exec x.shared i t.call .capabilities
      (answering exclusive) = some (σ, .ok known) := hexec
    have hσ : KnowsExclusive n exclusive σ := by
      intro known' hknown'
      rw [hcall] at hknown hold
      obtain rfl := Option.some.inj (hknown.symm.trans hknown')
      rcases hold with hold | rfl
      · exact hx known hold
      · exact capabilitiesOfInfo_infoText exclusive
    refine ⟨_, σ, _, ⟨?_, rfl⟩, hexec, hσ⟩
    exact .of_exec htask hlive hprog rfl (fun _ => .inr rfl) hexec hσ
  | _ => exact hans.elim

/-- Where the machines agree, a task that is undisturbed in the one is so in the other. -/
theorem Undisturbed.of_step_eq {M M' : DMachine} {w : DWorld} {l : DLabel}
    (hstep : M.step w l = M'.step w l) (h : Undisturbed M i n exclusive lagKnown w l) :
    Undisturbed M' i n exclusive lagKnown w l where
  answered := h.answered
  stream w' hs := h.stream w' (hstep.trans hs)
  known w' known hs := h.known w' known (hstep.trans hs)

/-- **The statistics are exact.** Under names that are apart, in every state reached by a run from
an empty stream: if the identifiers from which the counts continue can be followed, a request for
statistics that is not disturbed has, when it has returned, answered what it should and left the
stream as it should; and from wherever it has come to, it can be brought to its end. -/
theorem stats_exact {w₀ w w' : DWorld} {ls ls' : List DLabel} {group : String}
    (hapart : KeysApart cfg) (hw : SortedStart cfg w₀) (hstream : w₀.shared.stream = none)
    (hrun : (oneKeyspace cfg S fuel).Run w₀ ls w) (hgroup : group.isEmpty = false)
    (hfuel : StatsFuel fuel w.shared.stream group)
    (hcountable : StatsCountable exclusive lagKnown w.shared.stream group)
    (hcall : (oneKeyspace cfg S fuel).RunIn
      (Undisturbed (oneKeyspace cfg S fuel) i n exclusive lagKnown) w
      (.spawn i ⟨n, .getBackgroundQueueStats group⟩ :: ls') w') :
    ∃ t, w'.tasks i = some t ∧
      (∀ r, t.prog = .ret r → StatsAnswer cfg group w.shared.stream w'.shared.stream r) ∧
      (t.live = true → ∃ ls'' w'' t' r,
        (oneKeyspace cfg S fuel).RunIn
          (Undisturbed (oneKeyspace cfg S fuel) i n exclusive lagKnown) w' ls'' w'' ∧
        w''.tasks i = some t' ∧ t'.prog = .ret r) := by
  have horderly : Orderly cfg w := hw.orderly.run hapart hrun
  have horderly' : Orderly cfg w' := horderly.run hapart hcall
  -- the run of the call is one of the deployment, undisturbed there, too
  replace hcall : (deployment cfg S fuel).RunIn (Quietly cfg S fuel i n exclusive lagKnown) w
      (.spawn i ⟨n, .getBackgroundQueueStats group⟩ :: ls') w' :=
    (agrees_oneKeyspace hapart).symm.runIn_imp
      (fun u l hu hleaves hok => ⟨hok.of_step_eq (hu.step_eq hapart hleaves).symm, hleaves⟩)
      horderly (leavesQueue_of_run hcall) hcall
  replace hrun := runIn_deployment hapart hw.orderly hrun
  have hisolates : (deployment cfg S fuel).Isolates (Quietly cfg S fuel i n exclusive lagKnown) i
      ⟨n, .getBackgroundQueueStats group⟩ Shared.stream (Answered exclusive lagKnown) :=
    isolates_stream.mono fun _ _ hok => hok.1
  obtain ⟨hok, x, hx, hrun'⟩ := hcall
  have hknows : KnowsExclusive n exclusive w'.shared :=
    hrun'.invariant (I := fun w => KnowsExclusive n exclusive w.shared)
      (fun u l v _ hok hs known => hok.1.known v known (Machine.step_eq_some_iff.mpr hs))
      fun known => hok.1.known x known hx
  cases Machine.step_eq_some_iff.mp hx with
  | spawn hfree =>
    have haccounts : Redis.Accounts w.shared.stream :=
      accounts_of_run hw.toInitial (by simp [hstream, Redis.Accounts]) hrun
    have hstats : (getBackgroundQueueStats cfg fuel group).run.Ensures _ _ w.shared.stream :=
      ensures_stats haccounts hgroup hfuel hcountable
    obtain ⟨t, ht, hcall, hens⟩ :=
      hisolates.ensures hrun' (World.put_tasks_self _ i _) rfl hstats
    refine ⟨t, ht, fun r hr => ?_, fun hlive => ?_⟩
    · rw [hr] at hens
      exact hens
    · obtain ⟨ls'', w'', t', r, hrun'', ht', hr⟩ :=
        hisolates.completes _ answer_ready hknows ht hlive hcall hens
      refine ⟨ls'', w'', t', r, ?_, ht', hr⟩
      refine (agrees_oneKeyspace hapart).runIn_imp
        (fun u l hu hleaves hok => hok.1.of_step_eq (hu.step_eq hapart hleaves)) horderly'
        (hrun''.forall_labels fun _ _ _ hok _ => hok.2) hrun''

section Runs

open Sample

/-- The step is the call of task `i` or one of its commands; a command is answered, with the
lags if `lagKnown`; and afterwards the server knows nothing, or that it can exclude the start of
a range if `exclusive`. -/
def undisturbed (i : ℕ) (exclusive lagKnown : Bool) (w : DWorld) (l : DLabel) : Bool :=
  (match l with
    | .act j choice => j = i && (!lagKnown || choice.stream.lagKnown) &&
      match choice.delivery with
      | .replied => true
      | .failed .. => false
    | .spawn .. => true
    | _ => false) &&
  (machineIn.step w l).all fun w' =>
    (w'.shared.capabilities 0).all fun known => known.exclusiveRangeSupported = exclusive

theorem undisturbed_of_check {i : ℕ} {exclusive lagKnown : Bool} {w : DWorld} {l : DLabel}
    (h : undisturbed i exclusive lagKnown w l = true) :
    Undisturbed machineIn i 0 exclusive lagKnown w l := by
  obtain ⟨hlabel, hafter⟩ := Bool.and_eq_true_iff.mp h
  refine ⟨?_, ?_, ?_⟩
  · rintro choice rfl
    simp only [Bool.and_eq_true] at hlabel
    obtain ⟨⟨-, hlag⟩, hdelivery⟩ := hlabel
    refine ⟨?_, fun hknown => .inr ?_⟩
    · split at hdelivery
      · assumption
      · cases hdelivery
    · simpa [hknown] using hlag
  · intro w' hstep hother
    cases l with
    | spawn j call =>
      cases Machine.step_eq_some_iff.mp hstep
      rfl
    | act j choice =>
      simp only [Bool.and_eq_true, decide_eq_true_eq] at hlabel
      exact absurd (hlabel.1.1 ▸ rfl) (hother choice)
    | drop => cases hlabel
    | env => cases hlabel
  · intro w' known hstep hknown
    rw [hstep] at hafter
    simpa [hknown] using hafter

/-- The stream is short enough for the loops of a request for statistics. -/
def fewEntries (fuel : ℕ) (s : Option Stream) (group : String) : Bool :=
  s.all fun stream => (statsStream stream group).entries.length < fuel &&
    ((statsStream stream group).group? group).all fun g => g.pel.length < fuel

/-- Of a few entries no page is full. -/
theorem statsCountable_of_fewEntries {exclusive : Bool} {s : Option Stream} {group : String}
    (h : fewEntries 8 s group = true) : StatsCountable exclusive true s group := by
  rintro stream g rfl hg
  refine ⟨.inl rfl, pageEndsFollow_of_length_lt ?_⟩
  have hfew : g.pel.length < 8 := by
    simp only [fewEntries, Option.all_some, hg, Bool.and_eq_true, decide_eq_true_eq] at h
    exact h.2
  rw [List.length_map]
  omega

theorem statsFuel_of_fewEntries {fuel : ℕ} {s : Option Stream} {group : String}
    (h : fewEntries fuel s group = true) : StatsFuel fuel s group := by
  rintro stream g rfl hg
  simpa [fewEntries, hg] using h

set_option maxRecDepth 100000 in
/-- A job is published, and the statistics are asked for. -/
def publishedAndCounted : machineIn.Recording (fun _ _ => true) (start none) (fun x =>
    fewEntries 8 x.shared.stream "g" = true ∧
    (machineIn.execIn? (undisturbed 2 true true) x
      (.spawn 2 ⟨0, .getBackgroundQueueStats "g"⟩ ::
        List.replicate 7 (.act 2 (answering true)))).any (fun w =>
      returned w 2 = some (.ok (.queueStats ⟨1, 0, 1⟩))) = true) :=
  ⟨enqueue, by decide +kernel⟩

/-- Of one job that is published, one waits. -/
theorem stats_exact_published : ∃ w w',
    machineIn.Run (start none) enqueue w ∧
    machineIn.RunIn (Undisturbed machineIn 2 0 true true) w
      (.spawn 2 ⟨0, .getBackgroundQueueStats "g"⟩ ::
        List.replicate 7 (.act 2 (answering true))) w' ∧
    returned w' 2 = some (.ok (.queueStats ⟨1, 0, 1⟩)) ∧
    StatsAnswer config "g" w.shared.stream w'.shared.stream (.ok (.queueStats ⟨1, 0, 1⟩)) := by
  obtain ⟨w, hrun, hfew, hrest⟩ := publishedAndCounted.exists_run
  obtain ⟨w', hcall, hreturned⟩ := Machine.exists_runIn (fun _ _ h => undisturbed_of_check h) hrest
  obtain ⟨t, ht, hanswer, -⟩ :=
    stats_exact keysApart_config (sortedStart_start none) rfl hrun (by decide)
      (statsFuel_of_fewEntries hfew) (statsCountable_of_fewEntries hfew) hcall
  obtain ⟨t', ht', hprog⟩ := returned_eq_some hreturned
  obtain rfl := Option.some.inj (ht.symm.trans ht')
  exact ⟨w, w', hrun, hcall, hreturned, hanswer _ hprog⟩

/-- The step is answered by a server that cannot exclude the start of a range and does not
report lags. -/
def answeredByOld : Choice := { answered with info := "redis_version:6.0.16" }

set_option maxRecDepth 100000 in
/-- A job is published, a group is created after it, and the statistics are asked for. -/
def skippedAndCounted : machineIn.Recording (fun _ _ => true) (start none) (fun x =>
    fewEntries 8 x.shared.stream "g" = true ∧
    x.shared.stream.all (fun s => s.groups ≠ [] ∧
      (s.group? "g").all (fun g => s.waiting g = []) = true) = true ∧
    (machineIn.execIn? (undisturbed 3 false false) x
      (.spawn 3 ⟨0, .getBackgroundQueueStats "g"⟩ ::
        List.replicate 6 (.act 3 answeredByOld))).any (fun w =>
      returned w 3 = some (.ok (.queueStats ⟨1, 0, 1⟩))) = true) :=
  ⟨enqueue ++ call 2 (.ensureConsumerGroup "g" "5-18446744073709551615") 1, by decide +kernel⟩

/-- **An identifier without a successor.** A group is created at the largest identifier of a
millisecond, after the only entry. A server that cannot exclude the start of a range is asked for
what follows from the smallest identifier of the same millisecond on, and the entry is counted
as waiting. -/
theorem stats_counts_delivered :
    ¬∀ (w₀ w w' : DWorld) (ls ls' : List DLabel) (i n : ℕ) (exclusive lagKnown : Bool)
      (group : String) (t : DTask) (r : RpcResult), SortedStart config w₀ →
      w₀.shared.stream = none → machineIn.Run w₀ ls w → group.isEmpty = false →
      StatsFuel 8 w.shared.stream group →
      machineIn.RunIn (Undisturbed machineIn i n exclusive lagKnown) w
        (.spawn i ⟨n, .getBackgroundQueueStats group⟩ :: ls') w' →
      w'.tasks i = some t → t.prog = .ret r →
      StatsAnswer config group w.shared.stream w'.shared.stream r := by
  intro hclaim
  obtain ⟨w, hrun, hfew, hwaiting, hrest⟩ := skippedAndCounted.exists_run
  obtain ⟨w', hcall, hreturned⟩ := Machine.exists_runIn (fun _ _ h => undisturbed_of_check h) hrest
  obtain ⟨t, ht, hprog⟩ := returned_eq_some hreturned
  have hanswer :=
    hclaim _ w w' _ _ 3 0 false false "g" t _ (sortedStart_start none) rfl hrun (by decide)
    (statsFuel_of_fewEntries hfew) hcall ht hprog
  generalize w.shared.stream = s at hanswer hwaiting
  generalize w'.shared.stream = s' at hanswer
  generalize hstats : (⟨1, 0, 1⟩ : BackgroundQueueStats) = stats at hanswer
  cases hanswer with
  | absent => cases hstats
  | created hgroups => simp [hgroups] at hwaiting
  | found hg hexact =>
    have hpending := hexact.pending
    rw [← hstats] at hpending
    simp [hg] at hwaiting
    simp [hwaiting.2] at hpending

end Runs

end ResponsesApiStore
