import ResponsesApiStore.System.Execution

/-!
# Lifecycle safety

Without client writes to an id, the value of its key moves along the lifecycle only
(`LifecycleStep`), a finished record stays as it is until it is deleted or expires, and once a
delete has been answered the key is absent or a tombstone for good (`lifecycle_safety`).

The last part is the inductive one. A delete decides on what it read and writes later, so
transitions and other deletes may come between; what is kept is that absence and tombstones
are absorbing (`Gone.step`), and that a delete whose write was answered has passed through
them (`DeletedGone`).
-/

namespace ResponsesApiStore

open Json (Serde)
open Interaction (Machine World Label)

variable {N : Type}

/-- The changes of a key that the lifecycle permits. -/
inductive LifecycleStep (S : Serde N) (before after : Option String) : Prop
  | claimed (hbefore : Holds S before "queued") (hafter : Holds S after "in_progress")
  | failedQueued (hbefore : Holds S before "queued") (hafter : Holds S after "failed")
  | completed (hbefore : Holds S before "in_progress") (hafter : Holds S after "completed")
  | failed (hbefore : Holds S before "in_progress") (hafter : Holds S after "failed")
  | tombstoned (hafter : Holds S after "deleted")
  | removed (hbefore : before ≠ none) (hafter : after = none)

section Steps

variable {cfg : StoreConfig} {S : Serde N}

/-- The changes left when no client writes: a transition, a tombstone, or the removal of the
key by a delete or by expiry. -/
theorem Change.cases_of_noClientWrite {w : DWorld} {l : DLabel} {key : String}
    {text : Option String} (hchange : Change cfg S w l key text)
    (hok : NoClientWrite cfg S key w l) :
    (∃ i t v payload, text = some payload ∧ w.shared.textAt key = some v ∧
        Commits w l i t key payload ∧
        Transition cfg S t.call.request (knowledge t).now key v payload) ∨
      (∃ id, key = ResponseStore.key cfg id ∧ DeletesId w l id ∧
        (Holds S text "deleted" ∨ text = none)) ∨
      (text = none ∧ l = .env (.expire key)) := by
  cases hchange with
  | transition hcommits hv htransition =>
    exact .inl ⟨_, _, _, _, rfl, hv, hcommits, htransition⟩
  | @stored i t record payload hstores hpayload hwrites =>
    obtain ⟨ttl, hvalid, hruns⟩ := hstores.runs
    obtain ⟨choice, hlabel, -⟩ := hruns.label
    generalize hrequest : t.call.request = request at hwrites
    cases hwrites with
    | client hwrite hfound =>
      exact absurd ⟨i, t, payload, hstores, hpayload, hrequest ▸ hwrite⟩ (hok.1 record)
    | @tombstone id stored hfound hlive hflight =>
      refine .inr (.inl ⟨id, rfl, ⟨i, t, choice, hlabel, hruns.task, hrequest⟩, .inl ?_⟩)
      exact holds_of_toText hpayload (storedResponseStatus_tombstoneOf stored id)
  | @removed i t id hruns hrequest hkey =>
    obtain ⟨choice, hlabel, -⟩ := hruns.label
    exact .inr (.inl ⟨id, hkey, ⟨i, t, choice, hlabel, hruns.task, hrequest⟩, .inr rfl⟩)
  | expired hlabel => exact .inr (.inr ⟨rfl, hlabel⟩)
  | @foreignSet entry hlabel => exact absurd (.inl ⟨entry, hlabel⟩) hok.2
  | foreignDel hlabel => exact absurd (.inr hlabel) hok.2

/-- A transition is a step of the lifecycle. -/
theorem Transition.lifecycleStep {request : Request} {now : Option Int64}
    {key v payload : String} (h : Transition cfg S request now key v payload) :
    LifecycleStep S (some v) (some payload) := by
  obtain ⟨stored, updated, hv, hpayload, hmoves⟩ := h.moves
  cases hmoves with
  | claims hfrom hpending hto =>
    exact .claimed (holds_of_ofText hv hfrom) (holds_of_toText hpayload hto)
  | completes hfrom hto =>
    exact .completed (holds_of_ofText hv hfrom) (holds_of_toText hpayload hto)
  | fails hfrom hto =>
    rcases hfrom with hfrom | hfrom
    · exact .failedQueued (holds_of_ofText hv hfrom) (holds_of_toText hpayload hto)
    · exact .failed (holds_of_ofText hv hfrom) (holds_of_toText hpayload hto)

/-- A text with a finished status is replaced by no transition. -/
theorem Transition.not_finished {request : Request} {now : Option Int64} {key v payload : String}
    (h : Transition cfg S request now key v payload) {status : String}
    (hstatus : HasStatus S v status) : status = "queued" ∨ status = "in_progress" := by
  obtain ⟨stored, updated, hv, -, hmoves⟩ := h.moves
  have hstored := hstatus.of_encodes (.inl hv)
  cases hmoves with
  | claims hfrom => exact .inl (Option.some.inj (hstored.symm.trans hfrom))
  | completes hfrom => exact .inr (Option.some.inj (hstored.symm.trans hfrom))
  | fails hfrom =>
    rcases hfrom with hfrom | hfrom
    · exact .inl (Option.some.inj (hstored.symm.trans hfrom))
    · exact .inr (Option.some.inj (hstored.symm.trans hfrom))

/-- The answered write of a delete leaves the key absent or a tombstone. -/
theorem gone_of_wrote {t : DTask} {i : ℕ} {id : String} {c : Cmd} {choice : Choice}
    {σ σ' : Shared} {r : c.Reply} (hrequest : t.call.request = .deleteResponse id)
    (hallowed : Allowed cfg S t.call.request (knowledge t) c)
    (hexec : σ.exec i t.call.server choice c = some (σ', r))
    (hbefore : (knowledge t).wrote = false) (hwrote : ((knowledge t).after c r).wrote = true) :
    Gone S (σ'.textAt (ResponseStore.key cfg id)) := by
  rw [hrequest] at hallowed
  rcases wrote_after hwrote with hwrote | ⟨key, ttl, payload, heq⟩ | ⟨key, heq⟩
  · rw [hbefore] at hwrote
    cases hwrote
  · cases heq
    obtain ⟨-, -, record, hpayload, hwrites⟩ := hallowed
    cases hwrites with
    | client hwrite => cases hwrite
    | @tombstone _ stored hfound hlive hflight =>
      rw [exec_setEx_ok hexec]
      exact .inr (holds_of_toText hpayload (storedResponseStatus_tombstoneOf stored id))
  · cases heq
    obtain ⟨-, -, id', hrequest', hkey, -⟩ := hallowed
    obtain rfl : id = id' := Request.deleteResponse.inj hrequest'
    exact .inl (hkey ▸ exec_del_ok hexec)

variable [DecidableEq N] {fuel : ℕ}

/-- Without client writes every change of a key is a step of its lifecycle. -/
theorem Sound.lifecycleStep {w w' : DWorld} {l : DLabel} {key : String} (h : Sound cfg S w)
    (hok : NoClientWrite cfg S key w l) (hs : (deployment cfg S fuel).Stepped w l w') :
    w'.shared.textAt key = w.shared.textAt key ∨
      LifecycleStep S (w.shared.textAt key) (w'.shared.textAt key) := by
  by_cases hsame : w'.shared.textAt key = w.shared.textAt key
  · exact .inl hsame
  right
  have hchange := (h.change hs key).resolve_left hsame
  rcases hchange.cases_of_noClientWrite hok with
    ⟨i, t, v, payload, htext, hv, -, htransition⟩ | ⟨id, -, -, hdeleted | hnone⟩ | ⟨hnone, -⟩
  · rw [htext, hv]
    exact htransition.lifecycleStep
  · exact .tombstoned hdeleted
  · exact .removed (fun h => hsame (hnone.trans h.symm)) hnone
  · exact .removed (fun h => hsame (hnone.trans h.symm)) hnone

/-- A finished record changes only by a delete or by expiry. -/
theorem Sound.finished {w w' : DWorld} {l : DLabel} {key v status : String} (h : Sound cfg S w)
    (hok : NoClientWrite cfg S key w l) (hs : (deployment cfg S fuel).Stepped w l w')
    (hv : w.shared.textAt key = some v) (hstatus : HasStatus S v status)
    (hfinished : status ≠ "queued" ∧ status ≠ "in_progress") :
    w'.shared.textAt key = some v ∨
      (∃ id, key = ResponseStore.key cfg id ∧ DeletesId w l id) ∨ l = .env (.expire key) := by
  rcases h.change hs key with hsame | hchange
  · exact .inl (hsame.trans hv)
  rcases hchange.cases_of_noClientWrite hok with
    ⟨i, t, v', payload, -, hv', -, htransition⟩ | ⟨id, hkey, hdeletes, -⟩ | ⟨-, hlabel⟩
  · obtain rfl : v = v' := Option.some.inj (hv.symm.trans hv')
    rcases htransition.not_finished hstatus with h | h
    · exact absurd h hfinished.1
    · exact absurd h hfinished.2
  · exact .inr (.inl ⟨id, hkey, hdeletes⟩)
  · exact .inr (.inr hlabel)

/-- **Absence and tombstones are absorbing.** -/
theorem Gone.step {w w' : DWorld} {l : DLabel} {key : String} (hgone : Gone S (w.shared.textAt key))
    (h : Sound cfg S w) (hok : NoClientWrite cfg S key w l)
    (hs : (deployment cfg S fuel).Stepped w l w') : Gone S (w'.shared.textAt key) := by
  rcases h.change hs key with hsame | hchange
  · exact hsame ▸ hgone
  rcases hchange.cases_of_noClientWrite hok with
    ⟨i, t, v, payload, -, hv, -, htransition⟩ | ⟨id, -, -, hdeleted | hnone⟩ | ⟨hnone, -⟩
  · rcases hgone with hgone | ⟨v', hv', hstatus⟩
    · rw [hv] at hgone
      cases hgone
    · obtain rfl : v = v' := Option.some.inj (hv.symm.trans hv')
      rcases htransition.not_finished hstatus with h | h <;> exact absurd h (by decide)
  · exact .inr hdeleted
  · exact .inl hnone
  · exact .inl hnone

/-- Every delete whose write was answered has left its key absent or a tombstone. -/
def DeletedGone (cfg : StoreConfig) (S : Serde N) (id : String) (w : DWorld) : Prop :=
  ∀ i t, w.tasks i = some t → t.call.request = .deleteResponse id →
    (knowledge t).wrote = true → Gone S (w.shared.textAt (ResponseStore.key cfg id))

/-- **A delete that was answered stays effective.** -/
theorem DeletedGone.step {w w' : DWorld} {l : DLabel} {id : String} (hI : DeletedGone cfg S id w)
    (h : Sound cfg S w) (hok : NoClientWrite cfg S (ResponseStore.key cfg id) w l)
    (hs : (deployment cfg S fuel).Stepped w l w') : DeletedGone cfg S id w' := by
  intro j u hu hrequest hwrote
  have hkept : ∀ t, w.tasks j = some t → t.call.request = .deleteResponse id →
      (knowledge t).wrote = true → Gone S (w'.shared.textAt (ResponseStore.key cfg id)) :=
    fun t ht hrequest hwrote => (hI j t ht hrequest hwrote).step h hok hs
  rcases hs.task_cases hu with ⟨hu, -⟩ | ⟨call, -, rfl⟩ |
    ⟨t, c, k, r, σ, choice, -, htask, -, hprog, hexec, rfl, rfl⟩ | ⟨t, -, htask, rfl⟩
  · exact hkept u hu hrequest hwrote
  · cases hwrote
  · by_cases hbefore : (knowledge t).wrote = true
    · exact hkept t htask hrequest hbefore
    · rw [knowledge_advance] at hwrote
      exact gone_of_wrote (t := t) hrequest (h.allowed_of_prog htask hprog) hexec
        (by simpa using hbefore) hwrote
  · exact hkept t htask hrequest hwrote

/-- **Lifecycle safety.** In every run in which nobody but the worker transitions, the
reconciles, the deletes and the expiry write the key of `id`: every step leaves its text as it
is or takes a step of the lifecycle; a step that changes a completed, failed or cancelled
record is the expiry of the key or a command of a delete of `id`; and from the moment a delete
of `id` has been answered with success, the key is absent or a tombstone. -/
theorem lifecycle_safety {w₀ w : DWorld} {ls : List DLabel} {id : String} (hw : Initial w₀)
    (hrun : (deployment cfg S fuel).RunIn (NoClientWrite cfg S (ResponseStore.key cfg id))
      w₀ ls w) :
    (∀ l w', NoClientWrite cfg S (ResponseStore.key cfg id) w l →
      (deployment cfg S fuel).step w l = some w' →
      (w'.shared.textAt (ResponseStore.key cfg id) = w.shared.textAt (ResponseStore.key cfg id) ∨
        LifecycleStep S (w.shared.textAt (ResponseStore.key cfg id))
          (w'.shared.textAt (ResponseStore.key cfg id))) ∧
      (∀ v status, w.shared.textAt (ResponseStore.key cfg id) = some v → HasStatus S v status →
        status = "completed" ∨ status = "failed" ∨ status = "cancelled" →
        w'.shared.textAt (ResponseStore.key cfg id) = some v ∨ DeletesId w l id ∨
          l = .env (.expire (ResponseStore.key cfg id)))) ∧
    ∀ i t response, w.tasks i = some t → t.call.request = .deleteResponse id →
      t.prog = .ret (.ok response) →
      Gone S (w.shared.textAt (ResponseStore.key cfg id)) := by
  have hsound : Sound cfg S w := sound_of_run hw hrun
  refine ⟨fun l w' hok hstep => ⟨?_, ?_⟩, ?_⟩
  · exact hsound.lifecycleStep hok (Machine.step_eq_some_iff.mp hstep)
  · intro v status hv hstatus hfinished
    have hother : status ≠ "queued" ∧ status ≠ "in_progress" := by
      rcases hfinished with rfl | rfl | rfl <;> decide
    rcases hsound.finished hok (Machine.step_eq_some_iff.mp hstep) hv hstatus hother with
      hsame | ⟨id', hkey, hdeletes⟩ | hlabel
    · exact .inl hsame
    · obtain rfl : id = id' := responseStoreKey_inj.mp hkey
      exact .inr (.inl hdeletes)
    · exact .inr (.inr hlabel)
  · intro i t response ht hrequest hprog
    have hstart : DeletedGone cfg S id w₀ := by
      intro j u hu
      rw [hw.tasks j] at hu
      cases hu
    have hgone : DeletedGone cfg S id w :=
      hw.sound.invariant (fun u l v hu hI hok hs => hI.step hu hok hs) hrun hstart
    have hanswer := hsound.answer_of_prog ht hprog
    rw [hrequest] at hanswer
    exact hgone i t ht hrequest hanswer

end Steps

section Runs

open Sample

set_option maxRecDepth 100000 in
/-- A job is completed and then deleted. -/
def completedAndDeleted : machine.Recording noSetEx (start (some claimedText)) (fun w =>
    returned w 2 = some (.ok .deleted) ∧ requestOf w 2 = some (.deleteResponse "resp_1")) :=
  ⟨call 1 (.completeBackgroundResponse "resp_1" "\x7b\x7d") 9 ++
    call 2 (.deleteResponse "resp_1") 2, by decide +kernel⟩

/-- In the end nothing is left of the job. -/
theorem lifecycle_safety_deleted : ∃ w,
    machine.RunIn (NoClientWrite config serde key) (start (some claimedText))
      (call 1 (.completeBackgroundResponse "resp_1" "\x7b\x7d") 9 ++
        call 2 (.deleteResponse "resp_1") 2) w ∧
    returned w 2 = some (.ok .deleted) ∧ Gone serde (w.shared.textAt key) := by
  obtain ⟨w, hrun, hreturned, hrequest⟩ :=
    completedAndDeleted.exists_runIn fun _ _ h => noClientWrite_of_noSetEx h key
  obtain ⟨t, ht, hprog⟩ := returned_eq_some hreturned
  have hrequest : t.call.request = .deleteResponse "resp_1" := by
    simpa [requestOf, ht] using hrequest
  exact ⟨w, hrun, hreturned,
    (lifecycle_safety (initial_start _) hrun).2 2 t .deleted ht hrequest hprog⟩

end Runs

end ResponsesApiStore
