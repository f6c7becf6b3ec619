import ResponsesApiStore.System.Execution

/-!
# Deletions and jobs in flight

A delete reads the record first: a job in flight is replaced by a tombstone, anything else is
removed with `DEL`. Two things can make it remove a job in flight all the same. It takes every
failure of the read for "not in flight": a storage error, a text that cannot be read, and a
tombstone that still carries a request. And nothing keeps the key as it was between the read
and the `DEL`. As long as neither happens (`ReadsPlainly`, `StoresRemovable`), every `DEL` is
executed on a key that is absent or holds a record that is not in flight
(`delete_spares_jobs`). The worker transitions need no condition: they act on jobs in flight
only.
-/

namespace ResponsesApiStore

open Json (Serde)
open Interaction (Machine World Label)

variable {N : Type}

/-- There is no text, or a record that is not in flight. -/
def Removable (S : Serde N) (text : Option String) : Prop :=
  text = none ∨ ∃ v stored, text = some v ∧ StoredResponse.ofText S v = .ok stored ∧
    isInFlightBackground stored = false

/-- The task is a delete of `id` that has decided to remove the key. -/
structure AwaitsDelete (id : String) (t : DTask) : Prop where
  request : t.call.request = .deleteResponse id
  live : t.live = true
  prog : ∃ key k, t.prog = .cmd (.del key) k

/-- The read of a delete of `id` is answered with a record that is no tombstone, unless the key
may be removed anyway. -/
def ReadsPlainly (cfg : StoreConfig) (S : Serde N) (id : String) (w : DWorld) (l : DLabel) :
    Prop :=
  ∀ i t k choice, l = .act i choice → w.tasks i = some t →
    t.call.request = .deleteResponse id →
    t.prog = .cmd (.get (ResponseStore.key cfg id)) k →
    Removable S (w.shared.textAt (ResponseStore.key cfg id)) ∨
      (choice.delivery = .replied ∧ ∃ v stored,
        w.shared.textAt (ResponseStore.key cfg id) = some v ∧
        StoredResponse.ofText S v = .ok stored ∧ isDeletedTombstone stored = false)

/-- While a delete of `id` is about to remove the key, nothing in flight is stored there. -/
def StoresRemovable (cfg : StoreConfig) (S : Serde N) (id : String) (w : DWorld) (l : DLabel) :
    Prop :=
  ∀ j u, w.tasks j = some u → AwaitsDelete id u → ∀ i t payload,
    Stores w l i t (ResponseStore.key cfg id) payload → Removable S (some payload)

/-- While a delete of `id` is about to remove the key, the key may be removed. -/
def DeletesRemovable (cfg : StoreConfig) (S : Serde N) (id : String) (w : DWorld) : Prop :=
  ∀ j u, w.tasks j = some u → AwaitsDelete id u →
    Removable S (w.shared.textAt (ResponseStore.key cfg id))

section Steps

variable {cfg : StoreConfig} {S : Serde N} {id : String}

/-- A record that moves is in flight. -/
theorem Moves.inFlight {stored updated : StoredResponse N} (h : Moves stored updated) :
    isInFlightBackground stored = true := by
  rw [isInFlightBackground]
  cases h with
  | claims hfrom => simp [hfrom]
  | completes hfrom => simp [hfrom]
  | fails hfrom => rcases hfrom with h | h <;> simp [h]

/-- No transition replaces what may be removed. -/
theorem Transition.not_removable {request : Request} {now : Option Int64}
    {key v payload : String} (h : Transition cfg S request now key v payload) :
    ¬Removable S (some v) := by
  obtain ⟨stored, updated, hstored, -, hmoves⟩ := h.moves
  rintro (hnone | ⟨v', stored', hv', hstored', hidle⟩)
  · cases hnone
  · obtain rfl := Option.some.inj hv'
    obtain rfl := Except.ok.inj (hstored.symm.trans hstored')
    rw [hmoves.inFlight] at hidle
    cases hidle

variable [DecidableEq N] {fuel : ℕ} {w w' : DWorld} {l : DLabel}

theorem DeletesRemovable.step (hI : DeletesRemovable cfg S id w) (h : Sound cfg S w)
    (htr : (deployment cfg S fuel).Transcribed w)
    (hforeign : ¬Foreign (ResponseStore.key cfg id) l) (hreads : ReadsPlainly cfg S id w l)
    (hstores : StoresRemovable cfg S id w l) (hs : (deployment cfg S fuel).Stepped w l w') :
    DeletesRemovable cfg S id w' := by
  intro j u hu hawaits
  obtain ⟨key, k, hprog⟩ := hawaits.prog
  have hid : writesTo u.call.request = some id := by rw [hawaits.request, writesTo]
  rcases just_read (htr.step hs) hs hu hid hprog trivial with
    ⟨hkept, -⟩ | hdropped | ⟨t, k', choice, hlabel, htask, -, hcall, hprog', hσ, hseen⟩
  · have hbefore := hI j u hkept hawaits
    rcases h.change hs (ResponseStore.key cfg id) with hsame | hchange
    · rwa [hsame]
    generalize w'.shared.textAt (ResponseStore.key cfg id) = text at hchange
    cases hchange with
    | transition hcommits hv htransition =>
      rw [hv] at hbefore
      exact absurd hbefore htransition.not_removable
    | stored hstores' => exact hstores j u hkept hawaits _ _ _ hstores'
    | removed | expired => exact .inl rfl
    | foreignSet hlabel => exact absurd (.inl ⟨_, hlabel⟩) hforeign
    | foreignDel hlabel => exact absurd (.inr hlabel) hforeign
  · rw [hawaits.live] at hdropped
    cases hdropped
  · rw [hσ]
    rcases hreads j t k' choice hlabel htask (hcall ▸ hawaits.request) hprog' with
      hremovable | ⟨hreplied, v, stored, hv, hstored, hlive⟩
    · exact hremovable
    · -- the delete has chosen `DEL` on a readable live record, so it is not in flight
      obtain ⟨-, -, id', hrequest, -, hkeep⟩ := (h.step hs).allowed_of_prog hu hprog
      obtain rfl : id = id' := Request.deleteResponse.inj (hawaits.request.symm.trans hrequest)
      have hfound : (knowledge u).Found cfg S id stored :=
        ⟨v, by rw [hseen.1 hreplied, hv], hstored⟩
      rcases hkeep stored hfound with hdeleted | hidle
      · rw [hlive] at hdeleted
        cases hdeleted
      · exact .inr ⟨v, stored, hv, hstored, hidle⟩

/-- **A job in flight is not removed.** In every run in which each delete of `id` is answered
its read with a record that is no tombstone, or finds a key that may be removed anyway, and in
which nothing in flight is stored between such a read and the `DEL` that follows it: a `DEL`
for `id` is executed only when the key is absent or holds a record that is not in flight. -/
theorem delete_spares_jobs {w₀ : DWorld} {ls : List DLabel} (hw : Initial w₀)
    (hrun : (deployment cfg S fuel).RunIn (fun w l => ¬Foreign (ResponseStore.key cfg id) l ∧
      ReadsPlainly cfg S id w l ∧ StoresRemovable cfg S id w l) w₀ ls w)
    {i : ℕ} {t : DTask} (hruns : Runs w l i t (.del (ResponseStore.key cfg id))) :
    Removable S (w.shared.textAt (ResponseStore.key cfg id)) := by
  have hI : DeletesRemovable cfg S id w := by
    refine hw.invariant hrun (fun u l v hu htr hI hok hs => ?_) ?_
    · exact hI.step hu htr hok.1 hok.2.1 hok.2.2 hs
    · intro j u hu
      rw [hw.tasks j] at hu
      cases hu
  obtain ⟨k, hprog⟩ := hruns.prog
  obtain ⟨-, -, id', hrequest, hkey, -⟩ := (sound_of_run hw hrun).allowed hruns
  obtain rfl : id = id' := responseStoreKey_inj.mp hkey
  exact hI i t hruns.task ⟨hrequest, hruns.live, _, k, hprog⟩

end Steps

section Runs

open Sample

/-- The step stores nothing, and whoever reads the key finds the completed record. -/
def findsCompleted (w : DWorld) (l : DLabel) : Bool :=
  noSetEx w l && decide (w.shared.textAt key = some completedText)

set_option maxRecDepth 100000 in
/-- The delete of a completed response has come to its `DEL`. -/
def deleteCompleted : machine.Recording findsCompleted (start (some completedText)) (fun w =>
    awaits w 1 = some (.del key)) :=
  ⟨call 1 (.deleteResponse "resp_1") 1, by decide +kernel⟩

/-- A delete of a completed response removes a record that is not in flight. -/
theorem delete_spares_jobs_completed : ∃ w t,
    machine.Run (start (some completedText)) (call 1 (.deleteResponse "resp_1") 1) w ∧
    Runs w (.act 1 answered) 1 t (.del key) ∧ Removable serde (w.shared.textAt key) := by
  have hcompleted : Removable serde (some completedText) :=
    .inr ⟨completedText, _, rfl, ofText_completedText, by decide +kernel⟩
  have hcheck : ∀ w l, findsCompleted w l = true → ¬Foreign key l ∧
      ReadsPlainly config serde "resp_1" w l ∧ StoresRemovable config serde "resp_1" w l := by
    intro w l h
    obtain ⟨hplain, hfinds⟩ := Bool.and_eq_true_iff.mp h
    have hfinds : w.shared.textAt key = some completedText := of_decide_eq_true hfinds
    refine ⟨not_foreign_of_noSetEx hplain key, fun _ _ _ _ _ _ _ _ => ?_, ?_⟩
    · exact .inl (hfinds.symm ▸ hcompleted)
    · exact fun _ _ _ _ _ _ _ hstores => absurd hstores (not_stores_of_noSetEx hplain)
  obtain ⟨w, hrun, hawaits⟩ := deleteCompleted.exists_runIn hcheck
  obtain ⟨t, hruns⟩ := runs_of_awaits hawaits (show answered.delivery.ran = true from rfl)
  exact ⟨w, t, hrun.run, hruns, delete_spares_jobs (initial_start _) hrun hruns⟩

set_option maxRecDepth 100000 in
/-- The delete of a queued job, whose read has failed, has come to its `DEL`. -/
def deleteUnread : machine.Recording noForeign (start (some queuedText)) (fun w =>
    awaits w 1 = some (.del key) ∧ w.shared.textAt key = some queuedText) :=
  ⟨[.spawn 1 ⟨0, .deleteResponse "resp_1"⟩, .act 1 refused], by decide +kernel⟩

/-- **A read that fails.** The read of a delete fails, and the queued job is removed. -/
theorem delete_removes_job :
    ¬∀ (w₀ w : DWorld) (ls : List DLabel) (l : DLabel) (i : ℕ) (t : DTask) (id : String),
      Initial w₀ → machine.RunIn (fun _ l => ¬Foreign (ResponseStore.key config id) l) w₀ ls w →
      Runs w l i t (.del (ResponseStore.key config id)) →
      Removable serde (w.shared.textAt (ResponseStore.key config id)) := by
  intro hclaim
  obtain ⟨w, hrun, hawaits, htext⟩ :=
    deleteUnread.exists_runIn fun _ _ h => not_foreign_of_noForeign h key
  obtain ⟨t, hruns⟩ := runs_of_awaits hawaits (show answered.delivery.ran = true from rfl)
  rcases htext ▸ hclaim _ w _ _ 1 t "resp_1" (initial_start _) hrun hruns with
    hnone | ⟨v, stored, hv, hstored, hidle⟩
  · cases hnone
  · obtain rfl := Option.some.inj hv
    obtain rfl := Except.ok.inj (ofText_queuedText.symm.trans hstored)
    exact absurd hidle (by decide +kernel)

end Runs

end ResponsesApiStore
