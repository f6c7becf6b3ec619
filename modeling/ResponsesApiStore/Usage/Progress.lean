import ResponsesApiStore.Interaction.Draining
import ResponsesApiStore.System.Execution
import ResponsesApiStore.System.Events
import ResponsesApiStore.Usage.Contract

/-!
# No request waits for ever

The transaction connection of a server is behind a mutex, and a request may stop at any await.
The converse of `Sound.holds` closes the circle: who holds the mutex of a server is a live task of
that server that stands between its `lock` and its `unlock` (`Held`), also when tasks are
dropped in there. Such a task never waits for a mutex, so there are no chains of waiting tasks
(`no_waiting_chain`), and from every state that can be reached all requests can be brought to
their end, after which every mutex is free (`requests_drain`).

Nothing bounds the loops that count pages for the statistics. In the model they have fuel, and what
it means that they have run out of it is stated: they have read as many full pages
(`fullPages_of_returns`).
-/

namespace ResponsesApiStore

open Json (Serde)
open Redis (TxCmd StreamCmd StreamChoice Stream)
open Interaction (Machine World Label Program)
open Interaction.Program

variable {N : Type} {cfg : StoreConfig} {S : Serde N} {fuel : ℕ}

/-! ### Who holds a mutex -/

/-- With every reply on the transaction connection a task is inside a transaction. -/
theorem phase_afterTx (g : Knowledge) (c : TxCmd) (r : c.Reply) :
    (g.afterTx c r).phase ≠ .idle := by
  cases c with
  | discard | unwatch => exact Phase.noConfusion
  | ttl key => rcases r with e | _ <;> exact Phase.noConfusion
  | watch key | get key | multi | setEx key ttl payload =>
    rcases r with e | _ <;> exact Phase.noConfusion
  | exec => rcases r with e | (_ | n) <;> exact Phase.noConfusion

/-- **The converse of mutual exclusion.** The holder of a mutex is a live task of that server, and
it is inside a transaction. -/
def Held (w : DWorld) : Prop :=
  ∀ n i, w.shared.holder n = some i →
    ∃ t, w.tasks i = some t ∧ t.live = true ∧ t.call.server = n ∧ (knowledge t).phase ≠ .idle

/-- A command of task `i`, seen from the holder of a mutex. -/
theorem Held.act {w : DWorld} (hI : Held w) {i : ℕ} {t : DTask} {c : Cmd}
    {σ : Shared} {r : c.Reply} {choice : Choice} (htask : w.tasks i = some t)
    (hallowed : Allowed cfg S t.call.request (knowledge t) c)
    (hexec : w.shared.exec i t.call.server choice c = some (σ, r)) {n j : ℕ}
    (hj : σ.holder n = some j) :
    (j = i ∧ n = t.call.server ∧ ((knowledge t).after c r).phase ≠ .idle) ∨
      (j ≠ i ∧ w.shared.holder n = some j) := by
  have heffect := exec_effect hexec
  -- where the mutex is as before, it is enough that `i` does not leave its own
  have hsame : σ.holder = w.shared.holder → ((knowledge t).phase ≠ .idle →
      ((knowledge t).after c r).phase ≠ .idle) →
      (j = i ∧ n = t.call.server ∧ ((knowledge t).after c r).phase ≠ .idle) ∨
        (j ≠ i ∧ w.shared.holder n = some j) := by
    intro hholder hstays
    rw [hholder] at hj
    by_cases hji : j = i
    · subst hji
      obtain ⟨t', htask', -, hserver, hphase⟩ := hI n j hj
      obtain rfl : t = t' := Option.some.inj (htask.symm.trans htask')
      exact .inl ⟨rfl, hserver.symm, hstays hphase⟩
    · exact .inr ⟨hji, hj⟩
  rcases phase_of_allowed hallowed with ⟨hidle, htx, hinstall, hunlock⟩ |
    ⟨-, ⟨tx, rfl, -⟩ | rfl | rfl⟩
  · by_cases hlock : c = .lock
    · subst hlock
      cases heffect with
      | plain hplain => exact hplain.elim
      | lock hfree =>
        by_cases hn : n = t.call.server
        · subst hn
          rw [Shared.setHolder_holder_self] at hj
          obtain rfl := Option.some.inj hj
          exact .inl ⟨rfl, rfl, Phase.noConfusion⟩
        · rw [Shared.setHolder_holder_of_ne _ _ hn] at hj
          refine .inr ⟨?_, hj⟩
          rintro rfl
          obtain ⟨t', htask', -, hserver, -⟩ := hI n j hj
          obtain rfl : t = t' := Option.some.inj (htask.symm.trans htask')
          exact hn hserver.symm
    · exact hsame (heffect.holder hlock hunlock) fun hphase => absurd hidle hphase
  · exact hsame (heffect.holder Cmd.noConfusion Cmd.noConfusion) fun _ => phase_afterTx _ tx r
  · exact hsame (heffect.holder Cmd.noConfusion Cmd.noConfusion) fun _ => Phase.noConfusion
  · cases heffect with
    | plain hplain => exact hplain.elim
    | unlock =>
      by_cases hn : n = t.call.server
      · subst hn
        rw [Shared.setHolder_holder_self] at hj
        cases hj
      · rw [Shared.setHolder_holder_of_ne _ _ hn] at hj
        refine .inr ⟨?_, hj⟩
        rintro rfl
        obtain ⟨t', htask', -, hserver, -⟩ := hI n j hj
        obtain rfl : t = t' := Option.some.inj (htask.symm.trans htask')
        exact hn hserver.symm

variable [DecidableEq N]

/-- **One step.** -/
theorem Held.step {w w' : DWorld} {l : DLabel} (hI : Held w) (h : Sound cfg S w)
    (hs : (deployment cfg S fuel).Stepped w l w') : Held w' := by
  intro n j hj
  cases hs with
  | @spawn i call hfree =>
    obtain ⟨t, htask, hrest⟩ := hI n j hj
    have hne : j ≠ i := by
      rintro rfl
      rw [hfree] at htask
      cases htask
    exact ⟨t, by rwa [World.put_tasks_of_ne _ _ hne], hrest⟩
  | @act i choice t c k σ r htask hlive hprog hexec =>
    rcases hI.act htask (h.allowed_of_prog htask hprog) hexec hj with
      ⟨rfl, rfl, hphase⟩ | ⟨hne, hholder⟩
    · exact ⟨_, World.put_tasks_self _ _ _, hlive, rfl, by rwa [knowledge_advance]⟩
    · obtain ⟨u, hu, hrest⟩ := hI n j hholder
      exact ⟨u, by rwa [World.put_tasks_of_ne _ _ hne], hrest⟩
  | @drop i t htask hlive =>
    replace hj : (w.shared.release i t.call.server).holder n = some j := hj
    rw [Shared.release] at hj
    by_cases hji : j = i
    · -- the mutex of the dropped task is released, and it holds no other
      subst hji
      split_ifs at hj with hholds
      · by_cases hn : n = t.call.server
        · rw [hn, Shared.setHolder_holder_self] at hj
          cases hj
        · rw [Shared.setHolder_holder_of_ne _ _ hn] at hj
          obtain ⟨t', htask', -, hserver, -⟩ := hI n j hj
          obtain rfl : t = t' := Option.some.inj (htask.symm.trans htask')
          exact absurd hserver.symm hn
      · obtain ⟨t', htask', -, rfl, -⟩ := hI n j hj
        obtain rfl : t = t' := Option.some.inj (htask.symm.trans htask')
        exact absurd hj hholds
    · have hholder : w.shared.holder n = some j := by
        split_ifs at hj with hholds
        · by_cases hn : n = t.call.server
          · rw [hn, Shared.setHolder_holder_self] at hj
            cases hj
          · rwa [Shared.setHolder_holder_of_ne _ _ hn] at hj
        · exact hj
      obtain ⟨u, hu, hrest⟩ := hI n j hholder
      exact ⟨u, by rwa [World.put_tasks_of_ne _ _ hji], hrest⟩
  | env henv => exact hI n j ((env_undisturbed henv 0).2 ▸ hj)

theorem held_of_run {ok : DWorld → DLabel → Prop} {w₀ w : DWorld} {ls : List DLabel}
    (hw : Initial w₀) (hrun : (deployment cfg S fuel).RunIn ok w₀ ls w) : Held w := by
  refine hw.sound.invariant (fun u l v hu hI _ hs => hI.step hu hs) hrun ?_
  intro n i hi
  rw [hw.holder n] at hi
  cases hi

/-! ### Every command can be answered -/

omit [DecidableEq N] in
/-- A command on the stream other than `XADD` has an answer, whatever the stream. -/
theorem exists_stream_run (s : Option Stream) (c : StreamCmd)
    (hc : ∀ maxlen fields, c ≠ .xadd maxlen fields) :
    ∃ (choice : StreamChoice) (out : _), c.run s choice = some out := by
  -- the choice that scans nothing and knows nothing
  refine ⟨⟨.zero, 0, 0, fun _ => false, false⟩, ?_⟩
  cases c with
  | xadd maxlen fields => exact absurd rfl (hc maxlen fields)
  | exist => exact ⟨_, rfl⟩
  | xautoclaim group consumer minIdle start count =>
    simp only [StreamCmd.run, Redis.autoclaimScan, List.take_zero, List.filter_nil]
    split
    · split
      · exact ⟨_, rfl⟩
      · exact ⟨_, if_pos (Nat.zero_le _)⟩
    · exact ⟨_, rfl⟩
    · exact ⟨_, rfl⟩
  | _ =>
    simp only [StreamCmd.run]
    repeat' split
    all_goals exact ⟨_, rfl⟩

/-- The step answers the command of a task, or it is an `XADD`, which a full stream refuses. -/
def AnswersOrPublishes (w : DWorld) (l : DLabel) : Prop :=
  ∃ i choice, l = .act i choice ∧ (choice.delivery = .replied ∨
    ∃ maxlen fields, awaits w i = some (.stream (.xadd maxlen fields)))

omit [DecidableEq N] in
/-- Every command but a `lock` can be executed at any time. -/
theorem exists_exec (σ : Shared) (i n : ℕ) (c : Cmd) (hlock : c = .lock → σ.holder n = none) :
    ∃ (choice : Choice) (out : _), σ.exec i n choice c = some out ∧
      (choice.delivery = .replied ∨ ∃ maxlen fields, c = .stream (.xadd maxlen fields)) := by
  cases c with
  | lock =>
    exact ⟨Sample.answered,
      (σ.setHolder n (some i), ()), by simp [Shared.exec, hlock rfl], .inl rfl⟩
  | capabilities =>
    refine ⟨Sample.answered, ?_⟩
    simp only [Shared.exec]
    split
    · exact ⟨_, rfl, .inl rfl⟩
    · exact ⟨_, rfl, .inl rfl⟩
  | cursorScript key cursor =>
    refine ⟨Sample.answered, ?_⟩
    simp only [Shared.exec]
    split
    · exact ⟨_, rfl, .inl rfl⟩
    · exact ⟨_, rfl, .inl rfl⟩
  | stream c =>
    by_cases hadd : ∃ maxlen fields, c = .xadd maxlen fields
    · obtain ⟨maxlen, fields, rfl⟩ := hadd
      exact ⟨Sample.refused, _, rfl, .inr ⟨maxlen, fields, rfl⟩⟩
    · obtain ⟨choice, out, hrun⟩ := exists_stream_run σ.stream c
        fun maxlen fields heq => hadd ⟨maxlen, fields, heq⟩
      refine ⟨{ Sample.answered with stream := choice }, ({ σ with stream := out.1 }, out.2), ?_,
        .inl rfl⟩
      simp only [Shared.exec, Sample.answered, hrun, Option.map_some, Delivery.reply]
  | _ => exact ⟨Sample.answered, _, rfl, .inl rfl⟩

/-- Task `i` can have its command executed. -/
def CanAct (cfg : StoreConfig) (S : Serde N) (fuel : ℕ) (w : DWorld) (i : ℕ) : Prop :=
  ∃ choice w', (deployment cfg S fuel).Stepped w (.act i choice) w' ∧
    AnswersOrPublishes w (.act i choice)

/-- A live task has returned, or can have its command executed, or waits for the mutex of its
server. -/
theorem canAct_cases (cfg : StoreConfig) (S : Serde N) (fuel : ℕ) {w : DWorld} {i : ℕ} {t : DTask}
    (htask : w.tasks i = some t) (hlive : t.live = true) :
    (∃ result, t.prog = .ret result) ∨ CanAct cfg S fuel w i ∨
      (awaits w i = some .lock ∧ ∃ j, w.shared.holder t.call.server = some j) := by
  rcases hprog : t.prog with result | ⟨c, k⟩
  · exact .inl ⟨result, rfl⟩
  have hawaits : awaits w i = some c := by simp [awaits, htask, hlive, hprog, Program.command?]
  by_cases hwaits : c = .lock ∧ ∃ j, w.shared.holder t.call.server = some j
  · obtain ⟨rfl, hholder⟩ := hwaits
    exact .inr (.inr ⟨hawaits, hholder⟩)
  · obtain ⟨choice, out, hexec, hanswer⟩ := exists_exec w.shared i t.call.server c fun hc => by
      rcases hholder : w.shared.holder t.call.server with _ | j
      · rfl
      · exact absurd ⟨hc, j, hholder⟩ hwaits
    refine .inr (.inl ⟨choice, _, .act htask hlive hprog hexec, i, choice, rfl, ?_⟩)
    rcases hanswer with hreplied | ⟨maxlen, fields, rfl⟩
    · exact .inl hreplied
    · exact .inr ⟨maxlen, fields, hawaits⟩

/-- The holder of a mutex is not waiting for one, nor has it returned. -/
theorem Held.canAct {w : DWorld} (hI : Held w) (h : Sound cfg S w) {n j : ℕ}
    (hj : w.shared.holder n = some j) : CanAct cfg S fuel w j := by
  obtain ⟨u, hu, hlive, -, hphase⟩ := hI n j hj
  rcases canAct_cases cfg S fuel hu hlive with ⟨result, hret⟩ | hact | ⟨hawaits, -⟩
  · -- a task that has returned holds nothing
    have hdone := h.follows j u hu
    rw [hret] at hdone
    exact absurd hdone.1 hphase
  · exact hact
  · obtain ⟨u', k, hu', -, hprog⟩ := awaits_eq_some hawaits
    obtain rfl : u = u' := Option.some.inj (hu.symm.trans hu')
    have hallowed := h.allowed_of_prog hu hprog
    exact absurd hallowed.2 hphase

/-! ### Pages -/

/-- A full page was read, of the stream or of what a group has pending. -/
inductive IsFullPage : sig.Exchange → Prop
  | entries {start : String} {entries : List Redis.EntryReply} (hfull : 1000 ≤ entries.length) :
    IsFullPage ⟨.stream (.xrange start "+" 1000), .ok entries⟩
  | pending {group start : String} {ids : List String} (hfull : 100 ≤ ids.length) :
    IsFullPage ⟨.stream (.xpending group start "+" 100), .ok ids⟩

/-- The last `n` exchanges of a transcript have read full pages. -/
def FullPages (n : ℕ) (es : List sig.Exchange) : Prop :=
  ∃ es₁ es₂, es = es₁ ++ es₂ ∧ es₂.length = n ∧ ∀ ex ∈ es₂, IsFullPage ex

section Pages

omit [DecidableEq N]

variable {es : List sig.Exchange}

theorem FullPages.append_left {n : ℕ} (h : FullPages n es) (es' : List sig.Exchange) :
    FullPages n (es' ++ es) := by
  obtain ⟨es₁, es₂, rfl, hes⟩ := h
  exact ⟨es' ++ es₁, es₂, (List.append_assoc _ _ _).symm, hes⟩

theorem errs_storage_fuel {α : Type} {p : Program sig (Except Redis.Error α)} :
    Errs (· ≠ .outOfFuel) (storage p) :=
  errs_storage fun _ => Fault.noConfusion

/-- A procedure whose errors are coded does not run out of fuel. -/
theorem ne_outOfFuel_of_coded {codes : List Code} {fault : Fault} (h : Coded codes fault) :
    fault ≠ .outOfFuel := by
  rintro rfl
  exact h

/-- A count that runs out of fuel has read a full page for each unit of it. -/
theorem fullPages_countPages {pageSize : ℕ} {exclusive : Bool} {query : String → Act (List String)}
    {weigh : List String → UInt64} {start : String} {total : UInt64}
    (herrs : ∀ start, Errs (· ≠ .outOfFuel) (query start))
    (hquery : ∀ start es ids, (query start).run.Returns es (.ok ids) → pageSize ≤ ids.length →
      ∃ ex, es = [ex] ∧ IsFullPage ex)
    (h : (BackgroundQueue.countPages pageSize exclusive query weigh fuel start total).run.Returns es
      (.error .outOfFuel)) : es.length = fuel ∧ ∀ ex ∈ es, IsFullPage ex := by
  induction fuel generalizing start total es with
  | zero =>
    obtain ⟨rfl, -⟩ := returns_throw.mp h
    simp
  | succ fuel ih =>
    rw [BackgroundQueue.countPages] at h
    rcases returns_except_bind_iff.mp h with ⟨es₁, es₂, ids, rfl, hpage, hrest⟩ | ⟨e, hpage, heq⟩
    · dsimp only at hrest
      split at hrest
      · cases (returns_ret.mp hrest).2
      · split_ifs at hrest with hshort
        · cases (returns_ret.mp hrest).2
        · obtain ⟨ex, rfl, hfull⟩ := hquery start es₁ ids hpage (not_lt.mp hshort)
          obtain ⟨hlength, hpages⟩ := ih hrest
          exact ⟨by simp [hlength], List.forall_mem_cons.mpr ⟨hfull, hpages⟩⟩
    · obtain rfl := Except.error.inj heq
      exact absurd rfl (herrs start es _ hpage)

theorem fullPages_countPendingFallback {lastDelivered : String} {exclusive : Bool}
    (h : (BackgroundQueue.countPendingFallback fuel lastDelivered exclusive).run.Returns es
      (.error .outOfFuel)) : FullPages fuel es := by
  refine ⟨[], es, rfl,
    fullPages_countPages (fun start => ?_) (fun start es ids hpage hfull => ?_) h⟩
  · exact errs_storage_fuel.bind fun ids => errs_pure _
  · obtain ⟨es₁, es₂, entries, rfl, hread, hrest⟩ := hpage.bind_ok
    obtain ⟨rfl, hids⟩ := returns_ret.mp hrest
    obtain ⟨reply, hsend, hreply⟩ := returns_storage.mp hread
    obtain rfl := mapError_eq_ok_iff.mp hreply.symm
    obtain rfl := returns_call.mp hsend
    obtain rfl := Except.ok.inj hids
    exact ⟨_, rfl, .entries (by simpa using hfull)⟩

theorem fullPages_countProcessableInProgress {group : String} {exclusive : Bool}
    (h : (BackgroundQueue.countProcessableInProgress fuel group exclusive).run.Returns es
      (.error .outOfFuel)) : FullPages fuel es := by
  rcases returns_except_bind_iff.mp h with ⟨es₁, es₂, minId, rfl, -, hcount⟩ | ⟨e, hmin, heq⟩
  · refine .append_left ⟨[], es₂, rfl, fullPages_countPages (fun start => errs_storage_fuel)
      (fun start es ids hpage hfull => ?_) hcount⟩ es₁
    obtain ⟨reply, hsend, hreply⟩ := returns_storage.mp hpage
    obtain rfl := mapError_eq_ok_iff.mp hreply.symm
    obtain rfl := returns_call.mp hsend
    exact ⟨_, rfl, .pending hfull⟩
  · obtain rfl := Except.error.inj heq
    exact absurd rfl ((errs_storage_fuel.bind fun ids => errs_pure _) es _ hmin)

theorem fullPages_statsFromGroup {name : String} {group : Redis.GroupInfo} {exclusive : Bool}
    (h : (BackgroundQueue.statsFromGroup fuel name group exclusive).run.Returns es
      (.error .outOfFuel)) : FullPages fuel es := by
  rw [BackgroundQueue.statsFromGroup] at h
  have hcount : ∀ {pending : UInt64} {es : List sig.Exchange},
      (BackgroundQueue.countProcessableInProgress fuel name exclusive >>= fun inProgress =>
        return ⟨pending, inProgress, BackgroundQueue.saturatingAdd pending inProgress⟩ :
        Act BackgroundQueueStats).run.Returns es (.error .outOfFuel) → FullPages fuel es := by
    intro pending es h
    rcases returns_except_bind_iff.mp h with ⟨es₁, es₂, n, rfl, -, hrest⟩ | ⟨e, hcount, heq⟩
    · cases (returns_ret.mp hrest).2
    · obtain rfl := Except.error.inj heq
      exact fullPages_countProcessableInProgress hcount
  split at h
  · exact hcount h
  · rcases returns_except_bind_iff.mp h with ⟨es₁, es₂, pending, rfl, -, hrest⟩ | ⟨e, hpending, heq⟩
    · exact (hcount hrest).append_left es₁
    · obtain rfl := Except.error.inj heq
      exact fullPages_countPendingFallback hpending

theorem fullPages_stats {group : String}
    (h : (BackgroundQueue.stats cfg fuel group).run.Returns es (.error .outOfFuel)) :
    FullPages fuel es := by
  rcases returns_except_bind_iff.mp h with ⟨es₁, es₂, present, rfl, -, h⟩ | ⟨e, hexist, heq⟩
  swap
  · obtain rfl := Except.error.inj heq
    exact absurd rfl (errs_storage_fuel es _ hexist)
  refine .append_left ?_ es₁
  split_ifs at h
  · cases (returns_ret.mp h).2
  rcases returns_except_bind_iff.mp h with ⟨es₃, es₄, info, rfl, -, h⟩ | ⟨e, hgroups, heq⟩
  swap
  · obtain rfl := Except.error.inj heq
    have hunavailable : .unavailable ∈ statsCodes := by decide
    have hcoded := BackgroundQueue.errs_groupsForStats hunavailable es₂ _ hgroups
    exact absurd rfl (ne_outOfFuel_of_coded hcoded)
  refine .append_left ?_ es₃
  split at h
  · cases (returns_ret.mp h).2
  rcases returns_except_bind_iff.mp h with ⟨es₅, es₆, found, rfl, -, h⟩ | ⟨e, hfound, heq⟩
  · exact (fullPages_statsFromGroup h).append_left es₅
  · obtain rfl := Except.error.inj heq
    exact absurd rfl (errs_storage_fuel es₄ _ hfound)

end Pages

/-- **What it takes to run out of fuel.** A request does so only for statistics, and after it has
read that many full pages. -/
theorem fullPages_of_returns {request : Request} {es : List sig.Exchange}
    (h : (serve cfg S fuel request).Returns es (.error .outOfFuel)) :
    ∃ group, request = .getBackgroundQueueStats group ∧ FullPages fuel es := by
  obtain ⟨-, group, rfl⟩ | hanswers := errs_handle fuel request es _ h
  swap
  · exact hanswers.elim
  refine ⟨group, rfl, ?_⟩
  replace h : (getBackgroundQueueStats cfg fuel group).run.Returns es (.error .outOfFuel) := h
  rw [getBackgroundQueueStats] at h
  split_ifs at h
  · cases (returns_ret.mp h).2
  rcases returns_except_bind_iff.mp h with ⟨es₁, es₂, stats, rfl, -, hrest⟩ | ⟨e, hstats, heq⟩
  · cases (returns_ret.mp hrest).2
  · obtain rfl := Except.error.inj heq
    obtain ⟨r, hr, hfault⟩ := returns_rpc.mp hstats
    rcases r with (err | _ | _) | stats
    · cases hfault
    · cases hfault
    · exact fullPages_stats hr
    · cases hfault

/-! ### Progress -/

/-- **No chain of waiting tasks.** In every state that can be reached, whatever was dropped and
whatever has failed: the mutex of a server is held exactly by the live task of that server that
is inside a transaction; and a live task has returned, or can go on at once, or it waits for the
mutex of its server and the task that holds it can go on at once. -/
theorem no_waiting_chain {w₀ w : DWorld} {ls : List DLabel} (hw : Initial w₀)
    (hrun : (deployment cfg S fuel).Run w₀ ls w) :
    (∀ n i, w.shared.holder n = some i ↔ ∃ t, w.tasks i = some t ∧ t.live = true ∧
      t.call.server = n ∧ (knowledge t).phase ≠ .idle) ∧
    ∀ i t, w.tasks i = some t → t.live = true →
      (∃ result, t.prog = .ret result) ∨ CanAct cfg S fuel w i ∨
      (awaits w i = some .lock ∧ ∃ j, j ≠ i ∧ w.shared.holder t.call.server = some j ∧
        CanAct cfg S fuel w j) := by
  have hsound : Sound cfg S w := sound_of_run hw hrun
  have hheld : Held w := held_of_run hw hrun
  refine ⟨fun n i => ⟨hheld n i, ?_⟩, fun i t htask hlive => ?_⟩
  · rintro ⟨t, htask, hlive, rfl, hphase⟩
    exact hsound.holds i t htask hlive hphase
  rcases canAct_cases cfg S fuel htask hlive with hret | hact | ⟨hawaits, j, hj⟩
  · exact .inl hret
  · exact .inr (.inl hact)
  · refine .inr (.inr ⟨hawaits, j, ?_, hj, hheld.canAct hsound hj⟩)
    rintro rfl
    -- a task that waits for the mutex is outside of a transaction
    obtain ⟨u, hu, -, -, hphase⟩ := hheld _ j hj
    obtain ⟨u', k, hu', -, hprog⟩ := awaits_eq_some hawaits
    obtain rfl : u = u' := Option.some.inj (hu.symm.trans hu')
    exact hphase (hsound.allowed_of_prog hu hprog).2

/-- **All requests can be brought to their end.** From every state that can be reached, if Redis
answers from now on, the requests that are under way can be run until each of them has returned;
only the statistics may instead have read `fuel` full pages, whatever `fuel` is. Then no mutex is
held. -/
theorem requests_drain {w₀ w : DWorld} {ls : List DLabel} (hw : Initial w₀)
    (hrun : (deployment cfg S fuel).Run w₀ ls w) :
    ∃ ls' w', (deployment cfg S fuel).RunIn AnswersOrPublishes w ls' w' ∧
      (∀ i t, w'.tasks i = some t → t.live = true → ∃ result, t.prog = .ret result ∧
        (result = .error .outOfFuel → ∃ group, t.call.request = .getBackgroundQueueStats group ∧
          FullPages fuel t.transcript)) ∧
      ∀ n, w'.shared.holder n = none := by
  have hprogress : ∀ u : DWorld, Sound cfg S u ∧ Held u → ¬u.Settled → ∃ i choice,
      AnswersOrPublishes u (.act i choice) ∧
        ∃ v, (deployment cfg S fuel).Stepped u (.act i choice) v := by
    rintro u ⟨hu, hheld⟩ hunsettled
    simp only [World.Settled, not_forall] at hunsettled
    obtain ⟨i, t, htask, hlive, hunfinished⟩ := hunsettled
    rcases canAct_cases cfg S fuel htask hlive with hret | ⟨choice, v, hs, hanswers⟩ | ⟨-, j, hj⟩
    · exact absurd hret hunfinished
    · exact ⟨i, choice, hanswers, v, hs⟩
    · obtain ⟨choice, v, hs, hanswers⟩ : CanAct cfg S fuel u j := hheld.canAct hu hj
      exact ⟨j, choice, hanswers, v, hs⟩
  obtain ⟨m, hm⟩ := hrun.exists_within (n := 0) fun i _ => hw.tasks i
  obtain ⟨ls', w', hrun', ⟨hsound, hheld⟩, hsettled⟩ :=
    Machine.exists_settled (fun u l v hu hs => ⟨hu.1.step hs, hu.2.step hu.1 hs⟩) hprogress
      ⟨sound_of_run hw hrun, held_of_run hw hrun⟩ hm
  refine ⟨ls', w', hrun', fun i t htask hlive => ?_, fun n => ?_⟩
  · obtain ⟨result, hret⟩ := hsettled i t htask hlive
    refine ⟨result, hret, ?_⟩
    rintro rfl
    have hreturns := (hrun.append hrun'.run).transcribed hw.tasks i t htask
    rw [hret] at hreturns
    exact fullPages_of_returns hreturns
  rcases hn : w'.shared.holder n with _ | i
  · rfl
  -- the holder would be a task that has returned
  obtain ⟨t, htask, hlive, -, hphase⟩ := hheld n i hn
  obtain ⟨result, hret⟩ := hsettled i t htask hlive
  have hdone := hsound.follows i t htask
  rw [hret] at hdone
  exact absurd hdone.1 hphase

namespace Sample

set_option maxRecDepth 100000 in
/-- Two claims: the first is dropped inside its transaction, a third waits for the second. -/
def waitingClaims : machine.Recording (fun _ _ => true) (start (some queuedText))
    (fun w => awaits w 3 = some .lock ∧ w.shared.holder 0 = some 2) :=
  ⟨call 1 (.claimBackgroundResponse "resp_1") 6 ++ .drop 1 ::
    call 2 (.claimBackgroundResponse "resp_1") 3 ++ call 3 (.claimBackgroundResponse "resp_1") 0,
    by decide +kernel⟩

end Sample

open Sample

/-- A claim was dropped inside its transaction, one holds the mutex, and one waits for it. -/
theorem no_waiting_chain_claims : ∃ ls w t, machine.Run (start (some queuedText)) ls w ∧
    awaits w 3 = some .lock ∧ w.tasks 2 = some t ∧ t.live = true ∧ (knowledge t).phase ≠ .idle := by
  obtain ⟨w, hrun, hawaits, hholder⟩ := waitingClaims.exists_run
  obtain ⟨t, htask, hlive, -, hphase⟩ :=
    ((no_waiting_chain (initial_start _) hrun).1 0 2).mp hholder
  exact ⟨_, w, t, hrun, hawaits, htask, hlive, hphase⟩

/-- From there all three come to their end. -/
theorem requests_drain_claims : ∃ ls w ls' w', machine.Run (start (some queuedText)) ls w ∧
    awaits w 3 = some .lock ∧ w.shared.holder 0 = some 2 ∧
    machine.RunIn AnswersOrPublishes w ls' w' ∧ w'.shared.holder 0 = none := by
  obtain ⟨w, hrun, hawaits, hholder⟩ := waitingClaims.exists_run
  obtain ⟨ls', w', hrun', -, hfree⟩ := requests_drain (initial_start _) hrun
  exact ⟨_, w, ls', w', hrun, hawaits, hholder, hrun', hfree 0⟩

end ResponsesApiStore
