import ResponsesApiStore.Core.Nesting
import ResponsesApiStore.Redis.Delivery
import ResponsesApiStore.System.OneKeyspace

/-!
# Readable records

The texts of a request are read as documents of their own, and what is stored is read back
inside a record, which adds one level to the response and two to each input item. So a request
can be accepted whose record cannot be read again: a response nested as deep as the reader
allows. Such a record can be written by a client or by a completion only (`Transition.readable_iff`,
`readable_iff_fits`). While neither happens, what is stored stays readable and no job is dropped
as corrupted, if the names keep the keys apart (`accepted_writes_readable`).
-/

namespace ResponsesApiStore

open Json (Value Serde)
open Redis (Group groupsOf)
open Interaction (Machine World Label)

variable {N : Type} {cfg : StoreConfig} {S : Serde N} {fuel limit : ℕ}

/-! ### What a step writes -/

/-- A completion by the request leaves room for the record. -/
def CompletionFits (S : Serde N) (limit : ℕ) (request : Request) : Prop :=
  ∀ id json completed, request = .completeBackgroundResponse id json →
    readJson S "response_json" id json = .ok completed → FitsStamped limit completed

/-- **Transitions and the limit.** What a transition writes is readable exactly if it is no
completion with an object that is nested too deep. -/
theorem Transition.readable_iff (hS : S.Limited limit) (hlimit : 3 ≤ limit) {request : Request}
    {now : Option Int64} {key v payload : String}
    (h : Transition cfg S request now key v payload) :
    Readable S payload ↔ CompletionFits S limit request := by
  have htwo : 2 ≤ limit := by omega
  cases h with
  | claim hv hprepare hpayload =>
    rw [readable_iff_fits hS htwo hpayload]
    refine iff_of_true ((fits_of_ofText hS hv).claim htwo hprepare) ?_
    rintro _ _ _ ⟨⟩
  | @complete id json _ _ _ completed _ _ hjson hv hprepare hpayload =>
    rw [readable_iff_fits hS htwo hpayload, (fits_of_ofText hS hv).complete_iff htwo hprepare]
    constructor
    · rintro hfits id' json' completed' hrequest hjson'
      obtain ⟨rfl, rfl⟩ := Request.completeBackgroundResponse.inj hrequest
      obtain rfl : completed = completed' := Except.ok.inj (hjson.symm.trans hjson')
      exact hfits
    · intro hfits
      exact hfits id json completed rfl hjson
  | @fail id message _ _ _ stored updated hv hprepare hpayload =>
    rw [readable_iff_fits hS htwo hpayload]
    rw [prepareFailBackground] at hprepare
    split_ifs at hprepare
    obtain ⟨rfl, -⟩ := Prod.mk.inj (Except.ok.inj hprepare)
    refine iff_of_true ((fits_of_ofText hS hv).fail hlimit id message) ?_
    rintro _ _ _ ⟨⟩
  | @stale request id _ _ _ _ stored hrequest hv hqueued hstale hpayload =>
    rw [readable_iff_fits hS htwo hpayload]
    refine iff_of_true ((fits_of_ofText hS hv).fail hlimit id _) ?_
    rintro id json completed rfl
    cases hrequest

/-- What is written at `key` at this step leaves room for the record. -/
structure WritesFit (cfg : StoreConfig) (S : Serde N) (limit : ℕ) (key : String) (w : DWorld)
    (l : DLabel) : Prop where
  client : ∀ record, ClientStores cfg S w l key record → Fits limit record
  completion : ∀ i t payload, Commits w l i t key payload → CompletionFits S limit t.call.request

/-- The text at `key`, if there is one, is readable. -/
def ReadableAt (S : Serde N) (key : String) (w : DWorld) : Prop :=
  ∀ v, w.shared.textAt key = some v → Readable S v

section Steps

variable {w w' : DWorld} {l : DLabel} {key : String}

/-- A key is readable after a write exactly if what was written is. -/
theorem readableAt_iff_of_textAt {payload : String} (h : w.shared.textAt key = some payload) :
    ReadableAt S key w ↔ Readable S payload := by
  constructor
  · intro hkey
    exact hkey payload h
  · intro hpayload v hv
    exact Option.some.inj (h.symm.trans hv) ▸ hpayload

/-- **One step.** What is written within the limit is readable. -/
theorem readable_of_change (hS : S.Limited limit) (hlimit : 3 ≤ limit) (hforeign : ¬Foreign key l)
    (hfits : WritesFit cfg S limit key w l) {v : String} (h : Change cfg S w l key (some v)) :
    Readable S v := by
  have htwo : 2 ≤ limit := by omega
  cases h with
  | transition hcommits hread htransition =>
    exact (htransition.readable_iff hS hlimit).mpr (hfits.completion _ _ _ hcommits)
  | @stored i t record _ hstores hpayload hwrites =>
    rw [readable_iff_fits hS htwo hpayload]
    generalize hrequest : t.call.request = request at hwrites
    cases hwrites with
    | client hwrite hfound =>
      exact hfits.client record ⟨i, t, v, hstores, hpayload, hrequest ▸ hwrite⟩
    | tombstone hfound hlive hflight =>
      obtain ⟨text, -, hread⟩ := hfound
      exact (fits_of_ofText hS hread).tombstone htwo _
  | foreignSet hlabel => exact absurd (.inl ⟨_, hlabel⟩) hforeign

/-- A load of the key finds nothing or a text that it can read, whoever has written it. -/
def LoadableAt (cfg : StoreConfig) (S : Serde N) (key : String) (w : DWorld) : Prop :=
  ∃ found, w.shared.stringAt cfg key = .ok found ∧ ∀ v, found = some v → Readable S v

/-- In a sorted state a load of a record finds what is stored there. -/
theorem loadableAt_iff (h : Sorted cfg w.shared) (hkey : ¬QueueKey cfg key) :
    LoadableAt cfg S key w ↔ ReadableAt S key w := by
  rw [LoadableAt, h.stringAt_of_not_queueKey hkey]
  constructor
  · rintro ⟨found, hfound, hread⟩
    obtain rfl := Except.ok.inj hfound
    exact hread
  · intro hread
    exact ⟨_, rfl, hread⟩

variable [DecidableEq N]

/-- **Accepted writes are readable, but for the nesting.** With names that are apart and a reader
that stops at a limit:

* in every run in which what clients store and what completions bring in leaves room for the
  record around it, what is stored for a response is readable at all times, and no claim of jobs
  acknowledges an entry for a record that it has found but could not read;
* in every reachable world, what a client stores is readable exactly if it leaves that room, and
  what a transition stores exactly if it is no completion that does not. -/
theorem accepted_writes_readable {w₀ : DWorld} (hS : S.Limited limit) (hlimit : 3 ≤ limit)
    (hapart : KeysApart cfg) (hw : SortedStart cfg w₀) (id : String) :
    (LoadableAt cfg S (ResponseStore.key cfg id) w₀ → ∀ ls w,
      (oneKeyspace cfg S fuel).RunIn (fun w l => ¬Foreign (ResponseStore.key cfg id) l ∧
        WritesFit cfg S limit (ResponseStore.key cfg id) w l) w₀ ls w →
      LoadableAt cfg S (ResponseStore.key cfg id) w ∧
      ∀ i t claim group streamId k, w.tasks i = some t →
        t.call.request = .claimBackgroundJobs claim →
        t.prog = .cmd (.stream (.xack group streamId)) k →
        ∀ v, (knowledge t).seen ≠ some (ResponseStore.key cfg id, some v)) ∧
    ∀ ls w l w', (oneKeyspace cfg S fuel).Run w₀ ls w →
      (oneKeyspace cfg S fuel).step w l = some w' →
      (∀ record, ClientStores cfg S w l (ResponseStore.key cfg id) record →
        (LoadableAt cfg S (ResponseStore.key cfg id) w' ↔ Fits limit record)) ∧
      ∀ i t payload, Commits w l i t (ResponseStore.key cfg id) payload →
        (LoadableAt cfg S (ResponseStore.key cfg id) w' ↔
          CompletionFits S limit t.call.request) := by
  have htwo : 2 ≤ limit := by omega
  have hkey : ¬QueueKey cfg (ResponseStore.key cfg id) := hapart.not_queueKey (isRecordKey cfg id)
  refine ⟨fun hstart ls w hrun => ?_, fun ls w l w' hrun hstep => ?_⟩
  · have hsorted : Sorted cfg w.shared := (hw.orderly.run hapart hrun).sorted
    rw [loadableAt_iff hw.sorted hkey] at hstart
    rw [loadableAt_iff hsorted hkey]
    replace hrun := runIn_deployment hapart hw.orderly hrun
    have hreadable : AllTexts (ResponseStore.key cfg id) (Readable S) w := by
      refine hw.sound.invariant (fun u l v hu hI hok hs => ?_) hrun (hw.allTexts hstart)
      exact hI.step hu hs fun v _ hv => readable_of_change hS hlimit hok.1 hok.2 hv
    refine ⟨hreadable.stored, fun i t claim group streamId k htask hrequest hprog v hseen => ?_⟩
    have hallowed : Acknowledges cfg S (knowledge t) t.call.request group streamId :=
      ((sound_of_run hw.toInitial hrun).allowed_of_prog htask hprog).2.2
    rw [hrequest] at hallowed
    cases hallowed with
    | dropped hentry hid hread hlost =>
      obtain ⟨-, rfl⟩ := Prod.mk.inj (Option.some.inj (hread.symm.trans hseen))
      obtain ⟨stored, hstored⟩ := hreadable.seen i t v htask hseen
      exact hlost v stored rfl hstored
  · have horderly : Orderly cfg w := hw.orderly.run hapart hrun
    have hsound : Sound cfg S w :=
      sound_of_run hw.toInitial (runIn_deployment hapart hw.orderly hrun)
    have hs := Machine.step_eq_some_iff.mp (step_deployment hapart horderly hstep)
    have hsorted : Sorted cfg w'.shared :=
      (horderly.step hapart (leavesQueue_of_step hstep) hs).sorted
    rw [loadableAt_iff hsorted hkey]
    constructor
    · rintro record ⟨i, t, payload, hstores, hpayload, -⟩
      rw [readableAt_iff_of_textAt (hstores.writes hs), readable_iff_fits hS htwo hpayload]
    · intro i t payload hcommits
      obtain ⟨v, -, -, -, htransition, -⟩ := hsound.commit_reads hcommits
      rw [readableAt_iff_of_textAt (hsound.commit_writes hcommits hs),
        htransition.readable_iff hS hlimit]

end Steps

/-! ### Runs -/

namespace Sample

/-- Nobody outside writes, what is stored on the shared connection is readable, and nothing is
completed. -/
def storesReadable (S : Serde Int64) (w : DWorld) : DLabel → Bool
  | .act i _ => match awaits w i with
    | some (.setEx _ _ payload) => match StoredResponse.ofText S payload with
      | .ok _ => true
      | .error _ => false
    | some (.tx .exec) => match requestOf w i with
      | some (.completeBackgroundResponse ..) => false
      | _ => true
    | _ => true
  | .env (.foreignSet ..) | .env (.foreignDel _) => false
  | _ => true

theorem completionFits_of_storesReadable {S : Serde Int64} {w : DWorld} {l : DLabel}
    (h : storesReadable S w l = true) {i : ℕ} {t : DTask} {key payload : String}
    (hcommits : Commits w l i t key payload) {S' : Serde Int64} :
    CompletionFits S' limit t.call.request := by
  intro id json completed hrequest
  obtain ⟨choice, rfl, -⟩ := hcommits.runs.label
  simp [storesReadable, hcommits.runs.awaits, requestOf, hcommits.runs.task, hrequest] at h

theorem writesFit_of_storesReadable {S : Serde Int64} (hS : S.Limited limit) (hlimit : 2 ≤ limit)
    {w : DWorld} {l : DLabel} (h : storesReadable S w l = true) (key : String) :
    ¬Foreign key l ∧ WritesFit cfg S limit key w l := by
  refine ⟨?_, ?_, ?_⟩
  · rintro (⟨entry, rfl⟩ | rfl) <;> cases h
  · rintro record ⟨i, t, payload, hstores, hpayload, -⟩
    obtain ⟨ttl, -, hruns⟩ := hstores.runs
    obtain ⟨choice, rfl, -⟩ := hruns.label
    simp only [storesReadable, hruns.awaits] at h
    refine (readable_iff_fits hS hlimit hpayload).mp ?_
    rcases hstored : StoredResponse.ofText S payload with e | stored
    · simp [hstored] at h
    · exact ⟨stored, hstored⟩
  · intro i t payload hcommits
    exact completionFits_of_storesReadable h hcommits

/-- The codec of the small deployment, with the limit of the source's reader. -/
def limitedSerde : Serde Int64 := serde.bounded 127

theorem limited_limitedSerde : limitedSerde.Limited 127 :=
  Json.Serde.limited_ofTable 127

/-- A document of `n + 1` arrays. -/
def nested : ℕ → Json Int64
  | 0 => .array []
  | n + 1 => .array [nested n]

/-- A queued response with one member that is nested. -/
def nestedResponse : Value Int64 :=
  .ofFields [("metadata", .ofTree (nested 125)), ("status", .str "queued")]

/-- The record of the nested response. -/
def nestedStored : StoredResponse Int64 := ⟨"openai", nestedResponse, [], none, none, some 100⟩

def nestedResponseText : String :=
  "\x7b\"metadata\":" ++ String.ofList (List.replicate 126 '[' ++ List.replicate 126 ']') ++
    ",\"status\":\"queued\"\x7d"

def nestedText : String :=
  "\x7b\"upstream\":\"openai\",\"response\":" ++ nestedResponseText ++
    ",\"input\":[],\"enqueued_at\":100\x7d"

/-- The texts of the nested response, with the limit of the source's reader. -/
def nestedSerde : Serde Int64 :=
  (Serde.ofTable [(nestedResponse.1, nestedResponseText), (nestedStored.toTree blank, nestedText)]
    (by decide +kernel) id some Serde.some_id).bounded 127

theorem limited_nestedSerde : nestedSerde.Limited 127 :=
  Json.Serde.limited_ofTable 127

/-- The nested response as a client sends it. -/
def nestedRecord : ProtoStoredResponse :=
  ⟨"resp_1", "openai", nestedResponseText, [], none, none, none⟩

set_option maxRecDepth 100000 in
/-- A job is stored, published and claimed. -/
def enqueuedAndClaimed : (oneKeyspace config limitedSerde 8).Recording
    (storesReadable limitedSerde) (start none) (fun w => w.shared.textAt key = some claimedText) :=
  ⟨enqueue ++ call 2 (.claimBackgroundResponse "resp_1") 9, by decide +kernel⟩

set_option maxRecDepth 100000 in
/-- A job is stored and published, and dropped by the claim it is delivered to. -/
def enqueuedAndDropped : (oneKeyspace config nestedSerde 8).Recording (fun _ _ => true) (start none)
    (fun w => returned w 1 = some (.ok .enqueued) ∧
      returned w 3 = some (.ok (.claimedJobs [] [] [])) ∧
      (groupsOf w.shared.stream).map Group.acked = [[⟨5, 3⟩]] ∧
      w.shared.stringAt config key = .ok (some nestedText) ∧
      StoredResponse.ofText nestedSerde nestedText = .error "recursion limit exceeded") :=
  ⟨.env (.clock 100) :: .spawn 1 ⟨0, .enqueueBackgroundJob (some nestedRecord)⟩ ::
    List.replicate 3 (.act 1 published) ++ call 2 (.ensureConsumerGroup "g" "") 1 ++
    call 3 (.claimBackgroundJobs ⟨"g", "c", 1, 0, 0⟩) 5, by decide +kernel⟩

end Sample

open Sample

/-- A job of the usual kind stays readable when it is claimed. -/
theorem accepted_writes_readable_claimed : ∃ w,
    (oneKeyspace config limitedSerde 8).RunIn (fun w l =>
      ¬Foreign key l ∧ WritesFit config limitedSerde 127 key w l) (start none)
      (enqueue ++ call 2 (.claimBackgroundResponse "resp_1") 9) w ∧
    w.shared.textAt key = some claimedText ∧ LoadableAt config limitedSerde key w := by
  obtain ⟨w, hrun, htext⟩ := enqueuedAndClaimed.exists_runIn fun w l h =>
    writesFit_of_storesReadable limited_limitedSerde (by decide) h key
  have hstart : LoadableAt config limitedSerde key (start none) := by
    refine ⟨none, ?_, fun v hv => by cases hv⟩
    decide +kernel
  exact ⟨w, hrun, htext, ((accepted_writes_readable limited_limitedSerde (by decide)
    keysApart_config (sortedStart_start none) "resp_1").1 hstart _ w hrun).1⟩

/-- An enqueue is accepted, its record cannot be read, and the claim that the job is delivered
to drops it. -/
theorem accepted_write_unreadable : ∃ ls w, nestedSerde.Limited 127 ∧
    (oneKeyspace config nestedSerde 8).Run (start none) ls w ∧
    returned w 1 = some (.ok .enqueued) ∧ returned w 3 = some (.ok (.claimedJobs [] [] [])) ∧
    (groupsOf w.shared.stream).map Group.acked = [[⟨5, 3⟩]] ∧
    ¬LoadableAt config nestedSerde key w := by
  obtain ⟨w, hrun, henqueued, hclaimed, hacked, htext, hread⟩ := enqueuedAndDropped.exists_run
  refine ⟨_, w, limited_nestedSerde, hrun, henqueued, hclaimed, hacked, ?_⟩
  rintro ⟨found, hfound, hreadable⟩
  obtain ⟨stored, hstored⟩ := hreadable nestedText (Except.ok.inj (hfound.symm.trans htext))
  rw [hread] at hstored
  cases hstored

end ResponsesApiStore
