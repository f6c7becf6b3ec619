import ResponsesApiStore.System.Execution

/-!
# What transitions leave alone

Claims, completions, failures, reconciles and tombstones change the response object of a record
and its upstream request, and keep upstream, input and enqueue time (`Framed`). The guarded
transitions are computed from the text they replace, so for them the frame is a fact about one
step. A tombstone is computed from what its delete has read, which may be an older text; it is
framed because every text that was ever read at the key is (`AllTexts`).
-/

namespace ResponsesApiStore

open Json (Value Serde)
open Interaction (Machine World Label)

variable {N : Type}

/-- The record carries the upstream, the input and the enqueue time that were written. -/
structure Framed (written stored : StoredResponse N) : Prop where
  upstream : stored.upstream = written.upstream
  input : stored.input = written.input
  enqueuedAt : stored.enqueuedAt = written.enqueuedAt

/-- The response object names the response and is flagged as a background response. -/
structure Marked (id : String) (response : Value N) : Prop where
  id : response.get "id" = some (.str id)
  background : response.get "background" = some (.ofBool true)

section Records

variable {written stored updated : StoredResponse N}

theorem Framed.refl (stored : StoredResponse N) : Framed stored stored := ⟨rfl, rfl, rfl⟩

theorem Framed.trans (h : Framed written stored) (h' : Framed stored updated) :
    Framed written updated :=
  ⟨h'.upstream.trans h.upstream, h'.input.trans h.input, h'.enqueuedAt.trans h.enqueuedAt⟩

/-- The frame of a record that was written and read. -/
theorem Framed.reread (S : Serde N) (h : Framed written stored) :
    Framed (written.reread S) (stored.reread S) :=
  ⟨h.upstream, congrArg (List.map (Value.mapNumbers S.reread)) h.input, h.enqueuedAt⟩

theorem Stamped.marked {id status : String} {v v' : Value N} (h : Stamped id status v v') :
    Marked id v' := ⟨h.id, h.background⟩

theorem marked_failedResponse (id message : String) :
    Marked id (failedResponse id message : Value N) := by
  constructor <;> simp [failedResponse, Value.get_ofFields]

theorem marked_tombstoneOf (stored : StoredResponse N) (id : String) :
    Marked id (tombstoneOf stored id).response := by
  constructor <;> simp [tombstoneOf, Value.get_ofFields]

end Records

variable {cfg : StoreConfig} {S : Serde N} {fuel : ℕ}

/-- What a transition makes of the record that was stored: `Replaces request id stored updated`
says what is kept, and what becomes of the response object. -/
structure Replaces (S : Serde N) (request : Request) (id : String)
    (stored updated : StoredResponse N) : Prop where
  framed : Framed stored updated
  marked : Marked id updated.response
  claim : request = .claimBackgroundResponse id →
    Stamped id "in_progress" stored.response updated.response
  complete : ∀ json, request = .completeBackgroundResponse id json →
    ∃ completed, readJson S "response_json" id json = .ok completed ∧
      Stamped id "completed" completed updated.response

/-- **The frame of a transition.** -/
theorem Transition.replaces {request : Request} {now : Option Int64} {key v payload : String}
    (h : Transition cfg S request now key v payload) :
    ∃ id stored updated, addressedTo request = some id ∧ key = ResponseStore.key cfg id ∧
      StoredResponse.ofText S v = .ok stored ∧ updated.toText S = .ok payload ∧
      Replaces S request id stored updated := by
  cases h with
  | @claim id _ _ _ stored updated _ hv hprepare hpayload =>
    obtain ⟨hupdated, hstamped⟩ := prepareClaimBackground_stamps hprepare
    refine ⟨id, stored, updated, rfl, rfl, hv, hpayload, ?_, hstamped.marked, fun _ => hstamped,
      ?_⟩
    · rw [hupdated]
      exact ⟨rfl, rfl, rfl⟩
    · rintro _ ⟨⟩
  | @complete id json _ _ _ completed stored updated hjson hv hprepare hpayload =>
    obtain ⟨hupdated, hstamped⟩ := prepareCompleteBackground_stamps hprepare
    refine ⟨id, stored, updated, rfl, rfl, hv, hpayload, ?_, hstamped.marked, ?_, ?_⟩
    · rw [hupdated]
      exact ⟨rfl, rfl, rfl⟩
    · rintro ⟨⟩
    · intro json' hrequest
      obtain ⟨-, rfl⟩ := Request.completeBackgroundResponse.inj hrequest
      exact ⟨completed, hjson, hstamped⟩
  | @fail id message _ _ _ stored updated hv hprepare hpayload =>
    rw [prepareFailBackground] at hprepare
    split_ifs at hprepare
    obtain ⟨rfl, -⟩ := Prod.mk.inj (Except.ok.inj hprepare)
    refine ⟨id, stored, _, rfl, rfl, hv, hpayload, ⟨rfl, rfl, rfl⟩,
      marked_failedResponse id message, ?_, ?_⟩
    · rintro ⟨⟩
    · rintro _ ⟨⟩
  | @stale request id _ _ _ _ stored hrequest hv hqueued hstale hpayload =>
    obtain ⟨id', hid, hkey⟩ :=
      (Transition.stale hrequest hv hqueued hstale hpayload).key_eq
    obtain rfl : id = id' := responseStoreKey_inj.mp hkey
    refine ⟨id, stored, _, hid, rfl, hv, hpayload, ⟨rfl, rfl, rfl⟩,
      marked_failedResponse id _, ?_, ?_⟩
    · rintro rfl
      cases hrequest
    · rintro json rfl
      cases hrequest

/-- The text is that of a record with the frame that `written` has after some number of writes and
reads. -/
def FramedText (S : Serde N) (written : StoredResponse N) (text : String) : Prop :=
  ∃ stored n, stored.toText S = .ok text ∧ Framed ((StoredResponse.reread S)^[n] written) stored

/-- The text is that of a record with the frame of `written`. -/
def FramedExactly (S : Serde N) (written : StoredResponse N) (text : String) : Prop :=
  ∃ stored, stored.toText S = .ok text ∧ Framed written stored

theorem FramedText.of_read {written stored : StoredResponse N} {text : String}
    (h : FramedText S written text) (hread : StoredResponse.ofText S text = .ok stored) :
    ∃ n, Framed ((StoredResponse.reread S)^[n] written) stored := by
  obtain ⟨printed, n, hprinted, hframed⟩ := h
  refine ⟨n + 1, ?_⟩
  rw [StoredResponse.ofText_toText hprinted hread, Function.iterate_succ_apply']
  exact hframed.reread S

/-- An input whose numbers read back as they were keeps its frame. -/
theorem FramedText.exactly {written : StoredResponse N} {text : String}
    (h : FramedText S written text)
    (hexact : ∀ item ∈ written.input, item.mapNumbers S.reread = item) :
    FramedExactly S written text := by
  obtain ⟨stored, n, hprinted, hframed⟩ := h
  obtain ⟨hupstream, hinput, -, henqueued⟩ := StoredResponse.iterate_reread S n written
  have hsame : written.input.map (Value.mapNumbers S.reread)^[n] = written.input := by
    refine (List.map_congr_left fun item hitem => ?_).trans (List.map_id _)
    exact Function.iterate_fixed (hexact item hitem) n
  exact ⟨stored, hprinted, hframed.upstream.trans hupstream,
    hframed.input.trans (hinput.trans hsame), hframed.enqueuedAt.trans henqueued⟩

section Steps

variable {w w' : DWorld} {l : DLabel} {key : String} {written : StoredResponse N}

/-- **One step.** While the texts at a key are framed, so is what is written there. -/
theorem framedText_of_change (hI : AllTexts key (FramedText S written) w)
    (hok : NoClientWrite cfg S key w l) {v : String} (h : Change cfg S w l key (some v)) :
    FramedText S written v := by
  cases h with
  | transition hcommits hread htransition =>
    obtain ⟨id, stored, updated, -, -, hstored, hpayload, hreplaces⟩ := htransition.replaces
    obtain ⟨n, hframed⟩ := (hI.stored _ hread).of_read hstored
    exact ⟨updated, n, hpayload, hframed.trans hreplaces.framed⟩
  | @stored i t record _ hstores hpayload hwrites =>
    generalize hrequest : t.call.request = request at hwrites
    cases hwrites with
    | client hwrite hfound =>
      exact absurd ⟨i, t, v, hstores, hpayload, hrequest ▸ hwrite⟩ (hok.1 record)
    | tombstone hfound hlive hflight =>
      obtain ⟨text, hseen, hread⟩ := hfound
      obtain ⟨ttl, -, hruns⟩ := hstores.runs
      obtain ⟨n, hframed⟩ := (hI.seen i t text hruns.task hseen).of_read hread
      exact ⟨_, n, hpayload, hframed.upstream, hframed.input, hframed.enqueuedAt⟩
  | foreignSet hlabel => exact absurd (.inl ⟨_, hlabel⟩) hok.2

/-- Where there is no text, nothing is written but by a client. -/
theorem not_change_of_absent (hI : AllTexts key (fun _ => False) w)
    (hok : NoClientWrite cfg S key w l) (v : String) : ¬Change cfg S w l key (some v) := by
  intro h
  cases h with
  | transition hcommits hread htransition => exact hI.stored _ hread
  | @stored i t record _ hstores hpayload hwrites =>
    generalize hrequest : t.call.request = request at hwrites
    cases hwrites with
    | client hwrite hfound =>
      exact hok.1 record ⟨i, t, v, hstores, hpayload, hrequest ▸ hwrite⟩
    | tombstone hfound hlive hflight =>
      obtain ⟨text, hseen, -⟩ := hfound
      obtain ⟨ttl, -, hruns⟩ := hstores.runs
      exact hI.seen i t text hruns.task hseen
  | foreignSet hlabel => exact hok.2 (.inl ⟨_, hlabel⟩)

end Steps

variable [DecidableEq N]

/-- **The frame of a record over its whole life.**

* From the first write of a client at a key to the next, every text stored there is that of a
  record with the upstream, the input and the enqueue time that were written, except that numbers
  in the input are as they read back after some number of writes and reads; if they read back as
  they were, the input is the one that was written.
* In every reachable world, a transition replaces the record that is stored: a claim changes
  three members of the response object, a completion stores the client's object with these three
  set, and after every transition the object carries the id of the call and the background flag.
  The object of a tombstone carries them, too. -/
theorem fields_framed {w₀ : DWorld} (hw : Initial w₀) (key : String) :
    (w₀.shared.textAt key = none → ∀ a x l y b z record,
      (deployment cfg S fuel).RunIn (NoClientWrite cfg S key) w₀ a x →
      ClientStores cfg S x l key record → (deployment cfg S fuel).step x l = some y →
      (deployment cfg S fuel).RunIn (NoClientWrite cfg S key) y b z →
      ∀ v, z.shared.textAt key = some v → FramedText S record v ∧
        ((∀ item ∈ record.input, item.mapNumbers S.reread = item) →
          FramedExactly S record v)) ∧
    ∀ ls w l w', (deployment cfg S fuel).Run w₀ ls w →
      (deployment cfg S fuel).step w l = some w' →
      (∀ i t payload, Commits w l i t key payload → ∃ id v stored updated,
        addressedTo t.call.request = some id ∧ key = ResponseStore.key cfg id ∧
        w.shared.textAt key = some v ∧ StoredResponse.ofText S v = .ok stored ∧
        w'.shared.textAt key = some payload ∧ updated.toText S = .ok payload ∧
        Replaces S t.call.request id stored updated) ∧
      ∀ i t payload id, Stores w l i t key payload → t.call.request = .deleteResponse id →
        ∃ tombstone : StoredResponse N, key = ResponseStore.key cfg id ∧
          w'.shared.textAt key = some payload ∧ tombstone.toText S = .ok payload ∧
          Marked id tombstone.response := by
  refine ⟨fun hnone a x l y b z record ha hclient hstep hb => ?_, fun ls w l w' hrun hstep => ?_⟩
  · have hs := Machine.step_eq_some_iff.mp hstep
    have hx : Sound cfg S x := sound_of_run hw ha
    have habsent : AllTexts key (fun _ => False) x := by
      refine hw.sound.invariant (fun u l v hu hI hok hs => ?_) ha (hw.allTexts ?_)
      · exact hI.step hu hs fun v _ hv => not_change_of_absent hI hok v hv
      · intro v hv
        rw [hnone] at hv
        cases hv
    obtain ⟨i, t, payload, hstores, hpayload, -⟩ := hclient
    have hwritten : AllTexts key (FramedText S record) y := by
      have hkept : AllTexts key (FramedText S record) x :=
        ⟨fun v hv => (habsent.stored v hv).elim, fun i t v ht hv => (habsent.seen i t v ht hv).elim⟩
      refine hkept.step hx hs fun v hv _ => ?_
      obtain rfl : payload = v := Option.some.inj ((hstores.writes hs).symm.trans hv)
      exact ⟨record, 0, hpayload, .refl record⟩
    have hframed := ((hx.step hs).invariant (fun u l v hu hI hok hs => hI.step hu hs fun v _ hv =>
      framedText_of_change hI hok hv) hb hwritten).stored
    exact fun v hv => ⟨hframed v hv, (hframed v hv).exactly⟩
  · have hsound : Sound cfg S w := sound_of_run hw hrun
    have hs := Machine.step_eq_some_iff.mp hstep
    constructor
    · intro i t payload hcommits
      obtain ⟨v, -, -, hv, htransition, -⟩ := hsound.commit_reads hcommits
      obtain ⟨id, stored, updated, hid, hkey, hstored, hpayload, hreplaces⟩ :=
        htransition.replaces
      exact ⟨id, v, stored, updated, hid, hkey, hv, hstored, hsound.commit_writes hcommits hs,
        hpayload, hreplaces⟩
    · intro i t payload id hstores hrequest
      obtain ⟨ttl, -, hruns⟩ := hstores.runs
      obtain ⟨-, -, record, hpayload, hwrites⟩ := hsound.allowed hruns
      rw [hrequest] at hwrites
      rcases hwrites.client_or_tombstone with hclient | ⟨id', stored, hid, hkey, rfl⟩
      · cases hclient
      · obtain rfl := Request.deleteResponse.inj hid
        exact ⟨_, hkey, hstores.writes hs, hpayload, marked_tombstoneOf stored id⟩

section Runs

open Sample

set_option maxRecDepth 100000 in
/-- An enqueue is about to store its record; the job it stores is claimed. -/
def storedAndClaimed : machine.Recording noSetEx (start none) (fun x =>
    requestOf x 1 = some (.enqueueBackgroundJob (some queuedRecord)) ∧
    awaits x 1 = some (.setEx key 86400 queuedText) ∧
    ((machine.step x (.act 1 published)).bind fun y =>
      machine.execIn? noSetEx y publishAndClaim).any
        (fun z => z.shared.textAt key = some claimedText) = true) :=
  ⟨.env (.clock 100) :: .spawn 1 ⟨0, .enqueueBackgroundJob (some queuedRecord)⟩ ::
    [.act 1 published], by decide +kernel⟩

/-- A job that is claimed keeps the frame it was enqueued with. -/
theorem fields_framed_claimed : ∃ x y z record,
    machine.RunIn (NoClientWrite config serde key) (start none) storedAndClaimed.labels x ∧
    ClientStores config serde x (.act 1 published) key record ∧
    machine.step x (.act 1 published) = some y ∧
    machine.RunIn (NoClientWrite config serde key) y publishAndClaim z ∧
    z.shared.textAt key = some claimedText ∧ FramedExactly serde record claimedText := by
  have hcheck : ∀ w l, noSetEx w l = true → NoClientWrite config serde key w l :=
    fun w l h => noClientWrite_of_noSetEx h key
  obtain ⟨x, ha, hrequest, hawaits, hrest⟩ := storedAndClaimed.exists_runIn hcheck
  obtain ⟨z, hz, htext⟩ := (Option.any_eq_true _ _).mp hrest
  obtain ⟨y, hstep, hz⟩ := Option.bind_eq_some_iff.mp hz
  have hb := Machine.runIn_of_execIn? hcheck hz
  have htext := of_decide_eq_true htext
  obtain ⟨t, hruns⟩ := runs_of_awaits hawaits (show published.delivery.ran = true from rfl)
  obtain ⟨-, -, record, hpayload, hwrites⟩ :=
    (sound_of_run (initial_start none) ha).allowed hruns
  have hclient : ClientStores config serde x (.act 1 published) key record := by
    rcases hwrites.client_or_tombstone with hclient | ⟨id, stored, hdelete, -⟩
    · exact ⟨1, t, _, ⟨_, by decide, hruns⟩, hpayload, hclient⟩
    · simp [requestOf, hruns.task, hdelete] at hrequest
  have hexact : ∀ item ∈ record.input, item.mapNumbers serde.reread = item :=
    fun item _ => Value.mapNumbers_of_fixed _ (fun _ => rfl) item
  exact ⟨x, y, z, record, ha, hclient, hstep, hb, htext,
    ((fields_framed (initial_start none) key).1 (textAt_start none) _ x _ y _ z record ha hclient
      hstep hb _ htext).2 hexact⟩

/-- **A number in the input drifts.** The claim stores another float than the client has. -/
theorem input_number_drifts :
    ¬∀ (a : List DLabel) (x : DWorld) (l : DLabel) (y : DWorld) (b : List DLabel) (z : DWorld)
      (record : StoredResponse JsonNumber),
      (deployment config numberSerde 8).RunIn (NoClientWrite config numberSerde key) (start none)
        a x → ClientStores config numberSerde x l key record →
      (deployment config numberSerde 8).step x l = some y →
      (deployment config numberSerde 8).RunIn (NoClientWrite config numberSerde key) y b z →
      ∀ v, z.shared.textAt key = some v → FramedExactly numberSerde record v := by
  intro hclaim
  obtain ⟨a, x, y, b, z, record, ha, hclient, hstep, hb, hrecord, htext⟩ := number_drifts
  obtain ⟨stored, hprinted, hframed⟩ :=
    hclaim a x _ y b z record ha hclient hstep hb _ htext
  have hclaimed : (numberJob inProgressResponse misread).toText numberSerde =
      .ok numberClaimedText := by decide +kernel
  have hstored := StoredResponse.dropNull_eq_of_toText hprinted hclaimed
  have hbefore : record.input = [.ofTree (.number written)] :=
    congrArg StoredResponse.input hrecord
  have hafter : stored.input = [.ofTree (.number misread)] := congrArg StoredResponse.input hstored
  have hsame := hframed.input
  rw [hbefore, hafter] at hsame
  exact absurd hsame (by decide +kernel)

end Runs

end ResponsesApiStore
