import ResponsesApiStore.System.Execution

/-!
# Updates and deletions

An update is meant to change a response that exists. It checks that by a read, and writes
afterwards whatever has become of the key in the meantime: a delete, a tombstone or an expiry
between the two is undone by the write. This module proves that nothing else can bring a
deleted response back: in every run in which no update stands between its check and its write
at the moment the response is erased, a key that is absent or a tombstone stays so, and every
update that has been answered with success has replaced a live record (`update_respects_delete`).
-/

namespace ResponsesApiStore

open Json (Serde)
open Interaction (Machine World Label)

variable {N : Type}

/-- The task is an update of `id` that has checked and is about to write. -/
structure AwaitsWrite (id : String) (t : DTask) : Prop where
  request : ∃ record ttl, t.call.request = .updateResponse record ttl
  id : writesTo t.call.request = some id
  live : t.live = true
  prog : ∃ key ttl payload k, t.prog = .cmd (.setEx key ttl payload) k

/-- Step `l` removes the key or stores a tombstone there. -/
inductive Erases (S : Serde N) (key : String) (w : DWorld) (l : DLabel) : Prop
  | expires (h : l = .env (.expire key))
  | deletes {i : ℕ} {t : DTask} (h : Runs w l i t (.del key))
  | tombstones {i : ℕ} {t : DTask} {payload : String} (h : Stores w l i t key payload)
      (hpayload : HasStatus S payload "deleted")

/-- Nobody outside writes the key, and no client stores or enqueues at it. -/
def NoStore (key : String) (w : DWorld) (l : DLabel) : Prop :=
  ¬Foreign key l ∧ ∀ i t payload, Stores w l i t key payload →
    (∀ record ttl, t.call.request ≠ .storeResponse record ttl) ∧
    ∀ record, t.call.request ≠ .enqueueBackgroundJob record

/-- When the response is erased, no update of it is about to write, other than the one whose
write this is. -/
def ErasesUnwatched (cfg : StoreConfig) (S : Serde N) (id : String) (w : DWorld) (l : DLabel) :
    Prop :=
  Erases S (ResponseStore.key cfg id) w l → ∀ j u, w.tasks j = some u → AwaitsWrite id u →
    ∃ choice, l = .act j choice

/-- While an update of `id` is about to write, the response is there. -/
def UpdatesLive (cfg : StoreConfig) (S : Serde N) (id : String) (w : DWorld) : Prop :=
  ∀ j u, w.tasks j = some u → AwaitsWrite id u →
    ¬Gone S (w.shared.textAt (ResponseStore.key cfg id))

section Steps

variable {cfg : StoreConfig} {S : Serde N} {id : String}

/-- What replaces the text of a key erases it or is live. -/
theorem Change.erases_or {w : DWorld} {l : DLabel} {key : String} {text : Option String}
    (h : Change cfg S w l key text) (hforeign : ¬Foreign key l) :
    Erases S key w l ∨ ¬Gone S text := by
  rcases h.text_cases hforeign with
    ⟨-, hlabel | ⟨i, t, hruns⟩⟩ | ⟨i, t, payload, rfl, hstores⟩ |
    ⟨payload, status, rfl, hstatus, hlive⟩
  · exact .inl (.expires hlabel)
  · exact .inl (.deletes hruns)
  · by_cases hdeleted : HasStatus S payload "deleted"
    · exact .inl (.tombstones hstores hdeleted)
    · right
      rintro (hnone | ⟨t, htext, hstatus⟩)
      · cases hnone
      · exact hdeleted (Option.some.inj htext ▸ hstatus)
  · exact .inr (not_gone_of_hasStatus hstatus hlive)

/-- An update writes at the key of its record. -/
theorem Stores.key_of_update {w : DWorld} {l : DLabel} {i : ℕ} {t : DTask} {key payload : String}
    {record : Option ProtoStoredResponse} {ttl : UInt64} (hstores : Stores w l i t key payload)
    (h : Sound cfg S w) (hrequest : t.call.request = .updateResponse record ttl)
    (hid : writesTo t.call.request = some id) : ResponseStore.key cfg id = key := by
  obtain ⟨ttl', -, hruns⟩ := hstores.runs
  obtain ⟨-, -, core, -, hwrites⟩ := h.allowed hruns
  rw [hrequest] at hwrites hid
  cases hwrites with
  | client hwrite hfound =>
    generalize (knowledge t).now = now at hwrite
    cases hwrite with
    | @update _ p _ _ _ hrecord hcore =>
      rw [writesTo, hrecord] at hid
      rw [← Option.some.inj hid]

/-- The write of an update is about to happen when it happens. -/
theorem AwaitsWrite.of_stores {w : DWorld} {l : DLabel} {i : ℕ} {t : DTask} {payload : String}
    {record : Option ProtoStoredResponse} {ttl : UInt64} (h : Sound cfg S w)
    (hstores : Stores w l i t (ResponseStore.key cfg id) payload)
    (hrequest : t.call.request = .updateResponse record ttl) : AwaitsWrite id t := by
  obtain ⟨ttl', -, hruns⟩ := hstores.runs
  obtain ⟨k, hprog⟩ := hruns.prog
  refine ⟨⟨record, ttl, hrequest⟩, ?_, hruns.live, _, _, _, k, hprog⟩
  obtain ⟨-, -, core, -, hwrites⟩ := h.allowed hruns
  rw [hrequest] at hwrites ⊢
  generalize hkey : ResponseStore.key cfg id = key at hwrites
  cases hwrites with
  | client hwrite hfound =>
    generalize (knowledge t).now = now at hwrite
    cases hwrite with
    | @update _ p _ _ _ hrecord hcore =>
      obtain rfl : id = p.responseId := responseStoreKey_inj.mp hkey
      rw [writesTo, hrecord]
      rfl

/-- An update writes only what it has reason to: it has found a live record. -/
theorem Writes.found_of_update {g : Knowledge} {record : Option ProtoStoredResponse}
    {ttl : UInt64} {key : String} {core : StoredResponse N}
    (h : Writes cfg S g (.updateResponse record ttl) key core)
    (hid : writesTo (.updateResponse record ttl) = some id) :
    ∃ existing : StoredResponse N, g.Found cfg S id existing ∧
      isDeletedTombstone existing = false := by
  rw [writesTo] at hid
  rcases hp : requireRecord record with status | p
  · rw [hp] at hid
    cases hid
  rw [hp] at hid
  obtain rfl : p.responseId = id := Option.some.inj hid
  cases h with
  | client hwrite hfound => exact hfound record ttl p rfl hp

variable [DecidableEq N] {fuel : ℕ} {w w' : DWorld} {l : DLabel}

/-- An update that is about to write has found a live record. -/
theorem UpdatesLive.step (hI : UpdatesLive cfg S id w) (h : Sound cfg S w)
    (htr : (deployment cfg S fuel).Transcribed w)
    (hok : NoStore (ResponseStore.key cfg id) w l ∧ ErasesUnwatched cfg S id w l)
    (hs : (deployment cfg S fuel).Stepped w l w') : UpdatesLive cfg S id w' := by
  intro j u hu hawaits
  obtain ⟨key, ttl, payload, k, hprog⟩ := hawaits.prog
  rcases just_read (htr.step hs) hs hu hawaits.id hprog trivial with
    ⟨hkept, hother⟩ | hdropped | ⟨t, k', choice, rfl, htask, hlive, hcall, hprog', hσ, hseen⟩
  · have hbefore := hI j u hkept hawaits
    rcases h.change hs (ResponseStore.key cfg id) with hsame | hchange
    · rwa [hsame]
    · refine (hchange.erases_or hok.1.1).resolve_left fun herases => ?_
      obtain ⟨choice, hlabel⟩ := hok.2 herases j u hkept hawaits
      exact hother choice hlabel
  · rw [hawaits.live] at hdropped
    cases hdropped
  · obtain ⟨record, ttl', hrequest⟩ := hawaits.request
    obtain ⟨-, -, core, -, hwrites⟩ := (h.step hs).allowed_of_prog hu hprog
    have hid := hawaits.id
    rw [hrequest] at hwrites hid
    obtain ⟨existing, ⟨text, hfound, hexisting⟩, hlive⟩ := hwrites.found_of_update hid
    have hreplied : choice.delivery = .replied := by
      by_contra hfailed
      rw [hseen.2 hfailed] at hfound
      cases hfound
    rw [hseen.1 hreplied] at hfound
    obtain ⟨-, htext⟩ := Prod.mk.inj (Option.some.inj hfound)
    rw [hσ, htext]
    exact not_gone_of_ofText hexisting hlive

/-- Without stores, and while updates find the response where they write, what is gone stays
gone. -/
theorem UpdatesLive.gone_step (hI : UpdatesLive cfg S id w) (h : Sound cfg S w)
    (hok : NoStore (ResponseStore.key cfg id) w l)
    (hs : (deployment cfg S fuel).Stepped w l w')
    (hgone : Gone S (w.shared.textAt (ResponseStore.key cfg id))) :
    Gone S (w'.shared.textAt (ResponseStore.key cfg id)) := by
  rcases h.change hs (ResponseStore.key cfg id) with hsame | hchange
  · rwa [hsame]
  generalize w'.shared.textAt (ResponseStore.key cfg id) = text at hchange
  cases hchange with
  | transition hcommits hv htransition =>
    obtain ⟨stored, updated, hstored, -, hmoves⟩ := htransition.moves
    rw [hv] at hgone
    refine absurd hgone (not_gone_of_ofText hstored ?_)
    exact (Bool.or_eq_false_iff.mp hmoves.not_terminal).1
  | @stored i t record payload hstores hpayload hwrites =>
    rcases hwrites.client_or_tombstone with hwrite | ⟨id', stored, -, -, rfl⟩
    · obtain ⟨hstore, henqueue⟩ := hok.2 i t payload hstores
      rcases hwrite.request_cases with ⟨p, ttl, hp⟩ | ⟨p, ttl, hp⟩ | ⟨p, hp⟩
      · exact absurd hp (hstore p ttl)
      · have hawaits : AwaitsWrite id t := .of_stores h hstores hp
        obtain ⟨ttl, -, hruns⟩ := hstores.runs
        exact absurd hgone (hI i t hruns.task hawaits)
      · exact absurd hp (henqueue p)
    · exact .inr (holds_of_toText hpayload (storedResponseStatus_tombstoneOf stored id'))
  | removed | expired => exact .inl rfl
  | foreignSet hlabel => exact absurd (.inl ⟨_, hlabel⟩) hok.1
  | foreignDel hlabel => exact .inl rfl

/-- **Only a write that was already decided brings a deleted response back.** In every run
without stores and enqueues at the key of `id`, in which no update of `id` is about to write
when the response is erased: what is absent or a tombstone stays so, and an update that has
been answered with success has written at a moment when the key held a record that was no
tombstone. -/
theorem update_respects_delete {w₀ : DWorld} {ls : List DLabel} (hw : Initial w₀)
    (hrun : (deployment cfg S fuel).RunIn (fun w l =>
      NoStore (ResponseStore.key cfg id) w l ∧ ErasesUnwatched cfg S id w l) w₀ ls w) :
    (∀ l w', NoStore (ResponseStore.key cfg id) w l → ErasesUnwatched cfg S id w l →
      (deployment cfg S fuel).step w l = some w' →
      Gone S (w.shared.textAt (ResponseStore.key cfg id)) →
      Gone S (w'.shared.textAt (ResponseStore.key cfg id))) ∧
    ∀ i t record ttl response, w.tasks i = some t →
      t.call.request = .updateResponse record ttl → writesTo t.call.request = some id →
      t.prog = .ret (.ok response) →
      (deployment cfg S fuel).Takes (fun w l =>
        NoStore (ResponseStore.key cfg id) w l ∧ ErasesUnwatched cfg S id w l)
        (fun x l => ∃ u payload, Stores x l i u (ResponseStore.key cfg id) payload ∧
          ¬Gone S (x.shared.textAt (ResponseStore.key cfg id))) w₀ ls w := by
  have hlive : ∀ {ls x}, (deployment cfg S fuel).RunIn (fun w l =>
      NoStore (ResponseStore.key cfg id) w l ∧ ErasesUnwatched cfg S id w l) w₀ ls x →
      Sound cfg S x ∧ UpdatesLive cfg S id x := by
    intro ls x hx
    refine ⟨sound_of_run hw hx, hw.invariant hx (fun u l v hu htr hI hok hs => ?_) ?_⟩
    · exact hI.step hu htr hok hs
    · intro j u hu
      rw [hw.tasks j] at hu
      cases hu
  refine ⟨fun l w' hstore herases hstep hgone => ?_, ?_⟩
  · exact (hlive hrun).2.gone_step (hlive hrun).1 hstore (Machine.step_eq_some_iff.mp hstep) hgone
  · intro i t record ttl response htask hrequest hid hprog
    have hanswer := (sound_of_run hw hrun).answer_of_prog htask hprog
    rw [hrequest] at hanswer
    refine (takes_wrote hw hrun htask hanswer).imp ?_
    rintro ls x l hx - ⟨u, key, hcall, ⟨payload, hstores⟩ | hruns⟩
    · obtain rfl := hstores.key_of_update (hlive hx).1 (hcall ▸ hrequest) (hcall ▸ hid)
      have hawaits : AwaitsWrite id u := .of_stores (hlive hx).1 hstores (hcall ▸ hrequest)
      obtain ⟨ttl', -, hruns⟩ := hstores.runs
      exact ⟨u, payload, hstores, (hlive hx).2 i u hruns.task hawaits⟩
    · obtain ⟨-, -, id', hdelete, -⟩ := (hlive hx).1.allowed hruns
      rw [hcall, hrequest] at hdelete
      cases hdelete

end Steps

section Runs

open Sample

/-- The completed record as a client sends it. -/
def completedRecord : ProtoStoredResponse :=
  ⟨"resp_1", "openai", "\x7b\"background\":true,\"id\":\"resp_1\",\"status\":\"completed\"\x7d",
    [], none, none, some 100⟩

/-- The step writes the completed record for an update, if it writes at all. -/
def writesCompleted (w : DWorld) : DLabel → Bool
  | .act i _ => match awaits w i with
    | some (.setEx _ _ payload) => payload = completedText ∧
        requestOf w i = some (.updateResponse (some completedRecord) 0)
    | some (.del _) => false
    | _ => true
  | .env _ => false
  | _ => true

theorem noStore_of_writesCompleted {w : DWorld} {l : DLabel} (h : writesCompleted w l = true) :
    NoStore key w l ∧ ErasesUnwatched config serde "resp_1" w l := by
  have hstores : ∀ i t k payload, Stores w l i t k payload → payload = completedText ∧
      t.call.request = .updateResponse (some completedRecord) 0 := by
    rintro i t k payload ⟨ttl, -, hruns⟩
    obtain ⟨choice, rfl, -⟩ := hruns.label
    simpa [writesCompleted, hruns.awaits, requestOf, hruns.task] using h
  refine ⟨⟨?_, fun i t payload hstore => ?_⟩, fun herases => ?_⟩
  · rintro (⟨entry, rfl⟩ | rfl) <;> cases h
  · rw [(hstores i t key payload hstore).2]
    exact ⟨fun _ _ h => Request.noConfusion h, fun _ h => Request.noConfusion h⟩
  · exfalso
    cases herases with
    | expires hlabel =>
      subst hlabel
      cases h
    | deletes hruns =>
      obtain ⟨choice, rfl, -⟩ := hruns.label
      simp [writesCompleted, hruns.awaits] at h
    | tombstones hstore hdeleted =>
      rw [(hstores _ _ _ _ hstore).1] at hdeleted
      exact not_gone_of_ofText ofText_completedText (by decide +kernel) (.inr ⟨_, rfl, hdeleted⟩)

set_option maxRecDepth 100000 in
/-- A completed record is updated. -/
def updateAlone : machine.Recording writesCompleted (start (some completedText)) (fun w =>
    returned w 1 = some (.ok .updated) ∧
    requestOf w 1 = some (.updateResponse (some completedRecord) 0)) :=
  ⟨call 1 (.updateResponse (some completedRecord) 0) 2, by decide +kernel⟩

/-- An update that nothing comes between replaces a live record. -/
theorem update_respects_delete_alone : ∃ w,
    machine.Run (start (some completedText))
      (call 1 (.updateResponse (some completedRecord) 0) 2) w ∧
    returned w 1 = some (.ok .updated) ∧
    machine.Takes (fun w l => NoStore key w l ∧ ErasesUnwatched config serde "resp_1" w l)
      (fun x l => ∃ u payload, Stores x l 1 u key payload ∧ ¬Gone serde (x.shared.textAt key))
      (start (some completedText)) (call 1 (.updateResponse (some completedRecord) 0) 2) w := by
  obtain ⟨w, hrun, hreturned, hrequest⟩ :=
    updateAlone.exists_runIn fun _ _ h => noStore_of_writesCompleted h
  obtain ⟨t, ht, hprog⟩ := returned_eq_some hreturned
  have hrequest : t.call.request = .updateResponse (some completedRecord) 0 := by
    simpa [requestOf, ht] using hrequest
  exact ⟨w, hrun.run, hreturned, (update_respects_delete (initial_start _) hrun).2 1 t _ 0 _ ht
    hrequest (by rw [hrequest]; decide) hprog⟩

/-- The step stores for an update, if it stores at all. -/
def onlyUpdates (w : DWorld) : DLabel → Bool
  | .act i _ => match awaits w i with
    | some (.setEx ..) => requestOf w i = some (.updateResponse (some completedRecord) 0)
    | _ => true
  | .env _ => false
  | _ => true

theorem noStore_of_onlyUpdates {w : DWorld} {l : DLabel} (h : onlyUpdates w l = true) :
    NoStore key w l := by
  refine ⟨?_, ?_⟩
  · rintro (⟨entry, rfl⟩ | rfl) <;> cases h
  · rintro i t payload ⟨ttl, -, hruns⟩
    obtain ⟨choice, rfl, -⟩ := hruns.label
    have hrequest : t.call.request = .updateResponse (some completedRecord) 0 := by
      simpa [onlyUpdates, hruns.awaits, requestOf, hruns.task] using h
    rw [hrequest]
    exact ⟨fun _ _ h => Request.noConfusion h, fun _ h => Request.noConfusion h⟩

set_option maxRecDepth 100000 in
/-- An update has checked, the response is deleted, and the update is about to write. -/
def updateAfterDelete : machine.Recording onlyUpdates (start (some completedText)) (fun x =>
    x.shared.textAt key = none ∧ onlyUpdates x (.act 1 answered) = true ∧
    (machine.step x (.act 1 answered)).any (fun w =>
      w.shared.textAt key = some completedText) = true) :=
  ⟨call 1 (.updateResponse (some completedRecord) 0) 1 ++ call 2 (.deleteResponse "resp_1") 2,
    by decide +kernel⟩

/-- **A delete in between.** An update checks, a delete removes the response, and the update
writes it again. -/
theorem update_revives :
    ¬∀ (w₀ w w' : DWorld) (ls : List DLabel) (l : DLabel), Initial w₀ →
      machine.RunIn (NoStore key) w₀ ls w → NoStore key w l → machine.step w l = some w' →
      Gone serde (w.shared.textAt key) → Gone serde (w'.shared.textAt key) := by
  intro hclaim
  obtain ⟨x, hx, hnone, hcheck, hstep⟩ :=
    updateAfterDelete.exists_runIn fun _ _ h => noStore_of_onlyUpdates h
  obtain ⟨w, hw, htext⟩ := (Option.any_eq_true _ _).mp hstep
  have htext : w.shared.textAt key = some completedText := of_decide_eq_true htext
  refine not_gone_of_ofText ofText_completedText (by decide +kernel) (htext ▸ ?_)
  exact hclaim _ x w _ _ (initial_start _) hx (noStore_of_onlyUpdates hcheck) hw (.inl hnone)

end Runs

end ResponsesApiStore
