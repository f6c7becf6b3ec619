import ResponsesApiStore.System.Execution

/-!
# Reads and tombstones

A deleted response is not to be served. `GetResponse` and `ReconcileStaleResponse` look for a
tombstone in the first record they load, and are refused if it is one. A call that goes on to
reconcile reads the key again, under `WATCH` and after its attempts are exhausted, and hands
out what it finds there without a second look. So a tombstone is served exactly through those
later reads: as long as no tombstone is stored at the key while such a call is between its
first read and its end (`NotBuried`), what is served is no tombstone (`tombstones_not_served`).
-/

namespace ResponsesApiStore

open Json (Serde)
open Redis (Error TxCmd)
open Interaction (Machine World Label Program Protocol)
open Interaction.Program

variable {N : Type}

/-- The requests that hand out the record of `id`. -/
def ReadsId (id : String) (request : Request) : Prop :=
  (∃ reconcileStale, request = .getResponse id reconcileStale) ∨
    ∃ staleSeconds, request = .reconcileStaleResponse id staleSeconds

/-- The task reconciles `id`, has been answered its first read, and has not come to its end. -/
structure Reconciling (cfg : StoreConfig) (id : String) (t : DTask) : Prop where
  request : ∃ staleSeconds, reconciles cfg t.call.request = some (id, staleSeconds)
  live : t.live = true
  hasRead : (knowledge t).seen ≠ none ∨ (knowledge t).now ≠ none
  pending : ∃ c k, t.prog = .cmd c k

/-- While a call reconciles `id`, no tombstone is stored at its key. -/
def NotBuried (cfg : StoreConfig) (S : Serde N) (id : String) (w : DWorld) (l : DLabel) : Prop :=
  ∀ j u, w.tasks j = some u → Reconciling cfg id u → ∀ i t payload,
    Stores w l i t (ResponseStore.key cfg id) payload → ¬HasStatus S payload "deleted"

/-- What a call that reconciles `id` has found and may find again is no tombstone. -/
def Unburied (cfg : StoreConfig) (S : Serde N) (id : String) (w : DWorld) : Prop :=
  ∀ j u, w.tasks j = some u → (∃ staleSeconds, reconciles cfg u.call.request =
      some (id, staleSeconds)) →
    ((knowledge u).now ≠ none → ∀ text,
      (knowledge u).seen = some (ResponseStore.key cfg id, some text) →
      ¬HasStatus S text "deleted") ∧
    (Reconciling cfg id u → ¬Holds S (w.shared.textAt (ResponseStore.key cfg id)) "deleted")

section Steps

variable {cfg : StoreConfig} {S : Serde N} {id : String}

/-- The record on the wire determines the status. -/
theorem storedResponseStatus_of_coreToProto {stored stored' : StoredResponse N}
    {record : ProtoStoredResponse} (h : coreToProto S id stored = .ok record)
    (h' : coreToProto S id stored' = .ok record) :
    storedResponseStatus stored = storedResponseStatus stored' := by
  have hprint : ∀ {stored : StoredResponse N}, coreToProto S id stored = .ok record →
      S.toString stored.response.1 = .ok record.responseJson := by
    intro stored h
    obtain ⟨json, hjson, h⟩ := bind_eq_ok_iff.mp h
    obtain ⟨input, -, h⟩ := bind_eq_ok_iff.mp h
    obtain ⟨pending, -, h⟩ := bind_eq_ok_iff.mp h
    rw [← Except.ok.inj h]
    exact mapError_eq_ok_iff.mp hjson
  have hresponse : stored.response = stored'.response :=
    Subtype.ext (S.toString_inj (hprint h) (hprint h'))
  rw [storedResponseStatus, hresponse, storedResponseStatus]

/-! ### The first read -/

/-- All that was exchanged is a read of the key that found a tombstone. -/
def FoundTombstone (S : Serde N) (key : String) (es : List sig.Exchange) : Prop :=
  ∃ text stored, es = [⟨.get key, .ok (some text)⟩] ∧ StoredResponse.ofText S text = .ok stored ∧
    isDeletedTombstone stored = true

/-- Nothing is sent after a tombstone was found first. -/
def stopsAtTombstone (S : Serde N) (key : String) : Protocol sig (List sig.Exchange) :=
  .ofTranscript fun es _ => ¬FoundTombstone S key es

/-- Past the first read, anything may be sent. -/
theorem follows_past_first {α : Type} {key : String} {p : Program sig α}
    {Q : List sig.Exchange → α → Prop} {es : List sig.Exchange}
    (hQ : ∀ es a, es ≠ [] → ¬FoundTombstone S key es → Q es a) (hne : es ≠ [])
    (hes : ¬FoundTombstone S key es) : p.Follows (stopsAtTombstone S key) Q es := by
  induction p generalizing es with
  | ret a => exact hQ es a hne hes
  | cmd c k ih =>
    refine ⟨hes, fun r => ih r (by simp [stopsAtTombstone, Protocol.ofTranscript]) ?_⟩
    rintro ⟨text, stored, heq, -⟩
    have happend : es ++ [⟨c, r⟩] = [] ++ [⟨.get key, .ok (some text)⟩] := heq
    exact hne (List.append_inj' happend rfl).1

theorem not_foundTombstone_nil {key : String} : ¬FoundTombstone S key [] := by
  rintro ⟨text, stored, heq, -⟩
  cases heq

/-- A read by id that finds a tombstone first is not found. -/
theorem get_stopsAtTombstone (reconcileStale : Bool) :
    (ResponseStore.get cfg S id reconcileStale).run.Follows
      (stopsAtTombstone S (ResponseStore.key cfg id)) (fun es r => es ≠ [] ∧
        (FoundTombstone S (ResponseStore.key cfg id) es →
          r = .error (.error (.notFound id)))) [] := by
  rw [ResponseStore.get, follows_except_bind_iff, follows_load_iff]
  refine ⟨not_foundTombstone_nil, fun reply => ?_⟩
  rcases reply with e | (_ | text)
  · refine ⟨by simp [stopsAtTombstone, Protocol.ofTranscript], ?_⟩
    rintro ⟨text, stored, heq, -⟩
    cases heq
  · exact ⟨by simp [stopsAtTombstone, Protocol.ofTranscript], fun _ => rfl⟩
  rcases hstored : StoredResponse.ofText S text with e | stored
  · simp only [ResponseStore.decode, hstored, Except.mapError, Except.map]
    refine ⟨by simp [stopsAtTombstone, Protocol.ofTranscript], ?_⟩
    rintro ⟨text', stored, heq, hstored', -⟩
    cases heq
    rw [hstored] at hstored'
    cases hstored'
  simp only [ResponseStore.decode, hstored, Except.mapError, Except.map]
  by_cases hdeleted : isDeletedTombstone stored = true
  · rw [if_pos hdeleted]
    exact ⟨by simp [stopsAtTombstone, Protocol.ofTranscript], fun _ => rfl⟩
  · rw [if_neg hdeleted]
    refine follows_past_first (fun es a hne hes => ⟨hne, fun h => absurd h hes⟩)
      (by simp [stopsAtTombstone, Protocol.ofTranscript]) ?_
    rintro ⟨text', stored', heq, hstored', hdeleted'⟩
    cases heq
    exact hdeleted (Except.ok.inj (hstored.symm.trans hstored') ▸ hdeleted')

/-- **A tombstone found first is not found.** -/
theorem serve_stopsAtTombstone [DecidableEq N] {fuel : ℕ} {request : Request}
    (h : ReadsId id request) :
    (serve cfg S fuel request).Follows (stopsAtTombstone S (ResponseStore.key cfg id))
      (fun es result => FoundTombstone S (ResponseStore.key cfg id) es →
        ∃ message, result = .error (.status ⟨.notFound, message⟩)) [] := by
  have hnotFound : ∃ message, storeErrorToStatus (.notFound id) = ⟨.notFound, message⟩ := by
    rw [storeErrorToStatus]
    split_ifs <;> exact ⟨_, rfl⟩
  obtain ⟨message, hmessage⟩ := hnotFound
  rcases h with ⟨reconcileStale, rfl⟩ | ⟨staleSeconds, rfl⟩
  · show (getResponse cfg S id reconcileStale).run.Follows _ _ _
    rw [getResponse]
    split_ifs
    · exact fun h => absurd h not_foundTombstone_nil
    rw [follows_except_bind_iff, follows_rpc]
    refine (get_stopsAtTombstone reconcileStale).mono ?_
    rintro es (fault | record) ⟨hne, hes⟩
    · intro hfound
      cases hes hfound
      exact ⟨message, by rw [← hmessage]; rfl⟩
    · exact follows_past_first (fun es a _ hes h => absurd h hes) hne fun h => by cases hes h
  · show (reconcileStaleResponse cfg S id staleSeconds).run.Follows _ _ _
    rw [reconcileStaleResponse]
    split_ifs
    · exact fun h => absurd h not_foundTombstone_nil
    rw [follows_except_bind_iff, follows_rpc]
    refine (get_stopsAtTombstone false).mono ?_
    rintro es (fault | record) ⟨hne, hes⟩
    · intro hfound
      cases hes hfound
      exact ⟨message, by rw [← hmessage]; rfl⟩
    · exact follows_past_first (fun es a _ hes h => absurd h hes) hne fun h => by cases hes h

/-- A call that has found a tombstone first has been told so. -/
theorem not_found_of_tombstone [DecidableEq N] {fuel : ℕ} {w : DWorld}
    (hw : (deployment cfg S fuel).Transcribed w) {i : ℕ} {t : DTask} (htask : w.tasks i = some t)
    (hrequest : ReadsId id t.call.request)
    (hfound : FoundTombstone S (ResponseStore.key cfg id) t.transcript) :
    ∃ message, t.prog = .ret (.error (.status ⟨.notFound, message⟩)) := by
  have hserve : (serve cfg S fuel t.call.request).Follows
      (stopsAtTombstone S (ResponseStore.key cfg id)) _ [] := serve_stopsAtTombstone hrequest
  have hfollows := hserve.resume (hw i t htask)
  rw [stopsAtTombstone, Protocol.after_ofTranscript, List.nil_append] at hfollows
  generalize t.prog = p at hfollows
  cases p with
  | ret result =>
    obtain ⟨message, rfl⟩ := hfollows hfound
    exact ⟨message, rfl⟩
  | cmd c k => exact absurd hfound hfollows.1

variable [DecidableEq N] {fuel : ℕ} {w w' : DWorld} {l : DLabel}

/-! ### The later reads -/

/-- While no tombstone is stored, none comes to be there. -/
theorem not_holds_deleted_step (h : Sound cfg S w) (hs : (deployment cfg S fuel).Stepped w l w')
    {key : String} (hforeign : ¬Foreign key l)
    (hstores : ∀ i t payload, Stores w l i t key payload → ¬HasStatus S payload "deleted")
    (hbefore : ¬Holds S (w.shared.textAt key) "deleted") :
    ¬Holds S (w'.shared.textAt key) "deleted" := by
  rcases h.change hs key with hsame | hchange
  · rwa [hsame]
  rintro ⟨text, htext, hdeleted⟩
  rcases hchange.text_cases hforeign with
    ⟨hnone, -⟩ | ⟨i, t, payload, hpayload, hstored⟩ | ⟨payload, status, hpayload, hstatus, hlive⟩
  · rw [hnone] at htext
    cases htext
  · obtain rfl := Option.some.inj (hpayload.symm.trans htext)
    exact hstores i t payload hstored hdeleted
  · obtain rfl := Option.some.inj (hpayload.symm.trans htext)
    exact hlive (hstatus.unique hdeleted)

/-- A call that reconciles has found a live record in its first read. -/
theorem Unburied.step (hI : Unburied cfg S id w) (h : Sound cfg S w)
    (hforeign : ¬Foreign (ResponseStore.key cfg id) l) (hburied : NotBuried cfg S id w l)
    (hs : (deployment cfg S fuel).Stepped w l w') : Unburied cfg S id w' := by
  have hkept : ∀ j t, w.tasks j = some t → Reconciling cfg id t →
      ¬Holds S (w'.shared.textAt (ResponseStore.key cfg id)) "deleted" := by
    intro j t ht hrec
    exact not_holds_deleted_step h hs hforeign (hburied j t ht hrec)
      ((hI j t ht hrec.request).2 hrec)
  intro j u hu hrequest
  rcases hs.task_cases hu with ⟨hu', -⟩ | ⟨call, -, rfl⟩ |
    ⟨t, c, k, r, σ, choice, rfl, htask, hlive, hprog, hexec, hσ, rfl⟩ | ⟨t, -, htask, rfl⟩
  · exact ⟨(hI j u hu' hrequest).1, hkept j u hu'⟩
  · refine ⟨fun hnow => absurd rfl hnow, fun hrec => ?_⟩
    rcases hrec.hasRead with hread | hread <;> exact absurd rfl hread
  · obtain ⟨staleSeconds, hreconciles⟩ := hrequest
    have hscreened := (h.allowed_of_prog htask hprog).1 id staleSeconds hreconciles
    by_cases hread : (knowledge t).seen ≠ none ∨ (knowledge t).now ≠ none
    · have hrec : Reconciling cfg id t := ⟨⟨staleSeconds, hreconciles⟩, hlive, hread, c, k, hprog⟩
      obtain ⟨hfound, hheld⟩ := hI j t htask hrec.request
      refine ⟨fun _ text hseen hdeleted => ?_, fun _ => hkept j t htask hrec⟩
      rw [knowledge_advance] at hseen
      rcases h.seen_current htask hlive hprog hexec hseen with hsame | hcurrent
      · by_cases hnow : (knowledge t).now = none
        · rcases hscreened hnow with ⟨-, hnone⟩ | ⟨-, stored, ⟨text', hseen', hstored⟩, hlive⟩
          · rw [hsame] at hnone
            cases hnone
          · obtain ⟨-, htext⟩ := Prod.mk.inj (Option.some.inj (hsame.symm.trans hseen'))
            obtain rfl := Option.some.inj htext
            exact not_gone_of_ofText hstored hlive (.inr ⟨text, rfl, hdeleted⟩)
        · exact hfound hnow text hsame hdeleted
      · exact hheld hrec ⟨text, hcurrent, hdeleted⟩
    · obtain ⟨hseen, hnow⟩ : (knowledge t).seen = none ∧ (knowledge t).now = none := by
        simpa using hread
      rcases hscreened hnow with ⟨rfl, -⟩ | ⟨-, stored, ⟨text, hfound, -⟩, -⟩
      swap
      · rw [hseen] at hfound
        cases hfound
      have hnow' : (knowledge (t.advance (S := sig) _ k r)).now = none := by
        rw [knowledge_advance]
        exact hnow
      refine ⟨fun h => absurd hnow' h, fun hrec => ?_⟩
      obtain ⟨c, k', hprog'⟩ := hrec.pending
      rcases ((h.step hs).allowed_of_prog hu hprog').1 id staleSeconds hreconciles hnow' with
        ⟨-, hnone⟩ | ⟨-, stored, ⟨text, hfound, hstored⟩, hlive'⟩
      · rcases hrec.hasRead with hread | hread
        · exact absurd hnone hread
        · exact absurd hnow' hread
      · rw [knowledge_advance] at hfound
        rcases h.seen_current htask hlive hprog hexec hfound with hsame | hcurrent
        · rw [hseen] at hsame
          cases hsame
        · obtain ⟨rfl, -⟩ := Prod.mk.inj (Option.some.inj hexec)
          rw [hσ, hcurrent]
          exact fun hheld => not_gone_of_ofText hstored hlive' (.inr hheld)
  · refine ⟨(hI j t htask hrequest).1, fun hrec => ?_⟩
    cases hrec.live

/-- **Deleted responses are not served.** In every run in which no tombstone is stored at the
key of `id` while a call that reconciles `id` is between its first read and its end: a
`GetResponse` or `ReconcileStaleResponse` of `id` that has been answered with success carries
no tombstone, and one whose first read has found a tombstone has been answered with
`not_found`. -/
theorem tombstones_not_served {w₀ : DWorld} {ls : List DLabel} (hw : Initial w₀)
    (hrun : (deployment cfg S fuel).RunIn (fun w l => ¬Foreign (ResponseStore.key cfg id) l ∧
      NotBuried cfg S id w l) w₀ ls w) {i : ℕ} {t : DTask} (htask : w.tasks i = some t)
    (hrequest : ReadsId id t.call.request) :
    (∀ response, t.prog = .ret (.ok response) →
      ∃ record, (response = .got record ∨ ∃ flag, response = .reconciled record flag) ∧
        ∀ stored : StoredResponse N, coreToProto S id stored = .ok record →
          isDeletedTombstone stored = false) ∧
    (FoundTombstone S (ResponseStore.key cfg id) t.transcript →
      ∃ message, t.prog = .ret (.error (.status ⟨.notFound, message⟩))) := by
  refine ⟨fun response hprog => ?_, fun hfound => ?_⟩
  swap
  · exact not_found_of_tombstone (hrun.transcribed hw.tasks) htask hrequest hfound
  have hI : Unburied cfg S id w := by
    refine hw.sound.invariant (fun u l v hu hI hok hs => hI.step hu hok.1 hok.2 hs) hrun ?_
    intro j u hu
    rw [hw.tasks j] at hu
    cases hu
  have hanswer := (sound_of_run hw hrun).answer_of_prog htask hprog
  -- what a reconciling call has found last is no tombstone, so neither is what it hands out
  have hserved : ∀ {record}, ((knowledge t).now.isSome →
      ∃ staleSeconds, reconciles cfg t.call.request = some (id, staleSeconds)) →
      Served cfg S (knowledge t) id record → ∀ stored : StoredResponse N,
      coreToProto S id stored = .ok record → isDeletedTombstone stored = false := by
    rintro record hreconciles ⟨served, hproto, hlive⟩ stored hstored
    rw [isDeletedTombstone, storedResponseStatus_of_coreToProto hstored hproto]
    rcases hlive with hlive | ⟨hnow, text, hseen, htext⟩
    · exact hlive
    · refine decide_eq_false fun hdeleted => ?_
      refine (hI i t htask (hreconciles hnow)).1 ?_ text hseen ⟨served, .inl htext, hdeleted⟩
      rw [Option.isSome_iff_ne_none] at hnow
      exact hnow
  rcases hrequest with ⟨reconcileStale, hrequest⟩ | ⟨staleSeconds, hrequest⟩
  · rw [hrequest] at hanswer
    obtain ⟨record, rfl, hrecord, hplain⟩ := hanswer
    refine ⟨record, .inl rfl, hserved (fun hnow => ?_) hrecord⟩
    cases reconcileStale
    · rw [hplain rfl] at hnow
      cases hnow
    · exact ⟨cfg.staleSeconds, by rw [hrequest, reconciles]⟩
  · rw [hrequest] at hanswer
    obtain ⟨record, flag, rfl, hrecord⟩ := hanswer
    refine ⟨record, .inr ⟨flag, rfl⟩, hserved (fun _ => ?_) hrecord⟩
    exact ⟨_, by rw [hrequest, reconciles]⟩

end Steps

section Runs

open Sample

/-- The tombstone as it is handed out. -/
def tombstoneRecord : ProtoStoredResponse :=
  ⟨"resp_1", "openai", "\x7b\"background\":true,\"deleted\":true,\"id\":\"resp_1\"," ++
    "\"object\":\"response\",\"status\":\"deleted\"\x7d", [], none, none, some 100⟩

set_option maxRecDepth 100000 in
/-- A job that is queued and not stale is read. -/
def readQueued : machine.Recording noSetEx (start (some queuedText)) (fun w =>
    returned w 1 = some (.ok (.got queuedRecord)) ∧
    requestOf w 1 = some (.getResponse "resp_1" true)) :=
  ⟨call 1 (.getResponse "resp_1" true) 2, by decide +kernel⟩

/-- A job that is queued is handed out, and is no tombstone. -/
theorem tombstones_not_served_queued : ∃ w,
    machine.Run (start (some queuedText)) (call 1 (.getResponse "resp_1" true) 2) w ∧
    returned w 1 = some (.ok (.got queuedRecord)) ∧
    ∀ stored : StoredResponse Int64, coreToProto serde "resp_1" stored = .ok queuedRecord →
      isDeletedTombstone stored = false := by
  have hcheck : ∀ w l, noSetEx w l = true →
      ¬Foreign key l ∧ NotBuried config serde "resp_1" w l := fun w l h =>
    ⟨not_foreign_of_noSetEx h key,
      fun _ _ _ _ _ _ _ hstores => absurd hstores (not_stores_of_noSetEx h)⟩
  obtain ⟨w, hrun, hreturned, hrequest⟩ := readQueued.exists_runIn hcheck
  obtain ⟨t, ht, hprog⟩ := returned_eq_some hreturned
  have hrequest : t.call.request = .getResponse "resp_1" true := by
    simpa [requestOf, ht] using hrequest
  obtain ⟨record, hrecord | ⟨flag, hrecord⟩, hserved⟩ :=
    (tombstones_not_served (initial_start _) hrun ht (.inl ⟨true, hrequest⟩)).1 _ hprog
  · cases hrecord
    exact ⟨w, hrun.run, hreturned, hserved⟩
  · cases hrecord

set_option maxRecDepth 100000 in
/-- A stale job is read, and deleted before it is read again. -/
def readDeleted : machine.Recording noForeign (start (some queuedText)) (fun w =>
    returned w 1 = some (.ok (.got tombstoneRecord)) ∧
    requestOf w 1 = some (.getResponse "resp_1" true)) :=
  ⟨.env (.clock 5000) :: call 1 (.getResponse "resp_1" true) 4 ++
    call 2 (.deleteResponse "resp_1") 2 ++ turns 1 4, by decide +kernel⟩

/-- **A delete before the second read.** A read that is to reconcile has found a queued job and
watches its key; a delete puts the tombstone there; the read finds it when it looks again, and
hands it out. -/
theorem tombstone_served :
    ¬∀ (w₀ w : DWorld) (ls : List DLabel) (i : ℕ) (t : DTask) (id : String)
      (record : ProtoStoredResponse) (stored : StoredResponse Int64), Initial w₀ →
      machine.RunIn (fun _ l => ¬Foreign (ResponseStore.key config id) l) w₀ ls w →
      w.tasks i = some t → t.call.request = .getResponse id true →
      t.prog = .ret (.ok (.got record)) → coreToProto serde id stored = .ok record →
      isDeletedTombstone stored = false := by
  intro hclaim
  obtain ⟨w, hrun, hreturned, hrequest⟩ :=
    readDeleted.exists_runIn fun _ _ h => not_foreign_of_noForeign h key
  obtain ⟨t, ht, hprog⟩ := returned_eq_some hreturned
  have hrequest : t.call.request = .getResponse "resp_1" true := by
    simpa [requestOf, ht] using hrequest
  have hproto : coreToProto serde "resp_1" (tombstoneOf queued "resp_1") = .ok tombstoneRecord := by
    decide +kernel
  have hlive := hclaim _ w _ 1 t "resp_1" _ _ (initial_start _) hrun ht hrequest hprog hproto
  exact absurd hlive (by decide +kernel)

end Runs

end ResponsesApiStore
