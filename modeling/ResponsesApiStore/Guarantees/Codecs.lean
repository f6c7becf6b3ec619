import ResponsesApiStore.Client.Convert
import ResponsesApiStore.Core.Nesting

/-!
# The record codecs

A record is converted three times on its way: to the wire and back by the server and by each
client, and to text and back by the store.

On the wire, `encodeRecord` and `decodeRecord` are the codec that the server and the Rust client
both implement, with errors of their own (`conversions_agree`): what was encoded decodes to the
same record, and what was decoded encodes to the same wire record up to the spelling of its JSON.
The Go client carries a wire record through unchanged except for an authorization that is present
and empty, which it drops (`go_round_trip`).

In the store, an upstream request that is JSON `null` is taken for an absent one when it is read
back, and this is the only loss (`store_load_inverse`).
-/

namespace ResponsesApiStore

open Json (Value Serde)
open Codec

variable {N : Type}

/-! ### The codec of the wire -/

section Wire

variable (S : Serde N)

/-- A record on the wire, if its values can be printed. -/
def encodeRecord (responseId : String) (r : StoredResponse N) : Option ProtoStoredResponse := do
  let responseJson ← (S.valueToString r.response).toOption
  let inputJson ← r.input.mapM fun v => (S.valueToString v).toOption
  let pendingJson ← r.pendingUpstreamRequest.mapM fun v => (S.valueToString v).toOption
  return ⟨responseId, r.upstream, responseJson, inputJson, pendingJson, r.upstreamAuthorization,
    r.enqueuedAt⟩

/-- The record of a wire record, if its texts can be read. -/
def decodeRecord (p : ProtoStoredResponse) : Option (StoredResponse N) := do
  let response ← (S.valueFromStr p.responseJson).toOption
  let input ← p.inputJson.mapM fun text => (S.valueFromStr text).toOption
  let pending ← (p.pendingUpstreamRequestJson.filter fun text => !text.isEmpty).mapM fun text =>
    (S.valueFromStr text).toOption
  return ⟨p.upstream, response, input, pending, p.upstreamAuthorization, p.enqueuedAt⟩

/-- A JSON text printed again from its value. -/
def reprint (text : String) : Option String := do
  (S.valueToString (← (S.valueFromStr text).toOption)).toOption

/-- The wire record with its JSON texts printed again, an empty pending request being absent. -/
def ProtoStoredResponse.normalise (p : ProtoStoredResponse) : Option ProtoStoredResponse := do
  let responseJson ← reprint S p.responseJson
  let inputJson ← p.inputJson.mapM (reprint S)
  let pendingJson ← (p.pendingUpstreamRequestJson.filter fun text => !text.isEmpty).mapM (reprint S)
  return { p with responseJson, inputJson, pendingUpstreamRequestJson := pendingJson }

variable {S}

theorem toOption_coreToProto (responseId : String) (r : StoredResponse N) :
    (coreToProto S responseId r).toOption = encodeRecord S responseId r := by
  simp only [coreToProto, encodeRecord, ResponsesApiStore.printJson, toOption_bind,
    toOption_mapError, toOption_mapM, toOption_mapM_option, toOption_pure, Option.pure_def]

theorem toOption_toProtoRecord (responseId : String) (r : StoredResponse N) :
    (RustClient.toProtoRecord S responseId r).toOption = encodeRecord S responseId r := by
  simp only [RustClient.toProtoRecord, encodeRecord, RustClient.printJson, toOption_bind,
    toOption_mapError, toOption_mapM, toOption_mapM_option, toOption_pure, Option.pure_def]

theorem toOption_protoToCore (p : ProtoStoredResponse) :
    (protoToCore S p).toOption = decodeRecord S p := by
  simp only [protoToCore, decodeRecord, ResponsesApiStore.readJson, toOption_bind,
    toOption_mapError, toOption_mapM, toOption_mapM_option, toOption_pure, Option.pure_def]

theorem toOption_fromProtoRecord (p : ProtoStoredResponse) (responseId : String) :
    (RustClient.fromProtoRecord S (some p) responseId).toOption = decodeRecord S p := by
  simp only [RustClient.fromProtoRecord, decodeRecord, RustClient.readJson, toOption_bind,
    toOption_mapError, toOption_mapM, toOption_mapM_option, toOption_pure, Option.pure_def]

theorem map_fixed_iff {f : Value N → Value N} {l : List (Value N)} :
    l.map f = l ↔ ∀ v ∈ l, f v = v := by
  induction l with
  | nil => simp
  | cons v l ih => simp [ih]

/-- The JSON values of a record. -/
def StoredResponse.values (r : StoredResponse N) : List (Value N) :=
  r.response :: r.input ++ r.pendingUpstreamRequest.toList

variable (S) in
/-- The text of a value is not empty and reads back as the value. -/
def ReadsBack (v : Value N) : Prop :=
  ∀ text, S.valueToString v = .ok text → text ≠ "" ∧ S.valueFromStr text = .ok v

theorem ReadsBack.toOption {v : Value N} (h : ReadsBack S v) {text : String}
    (htext : (S.valueToString v).toOption = some text) :
    text.isEmpty = false ∧ (S.valueFromStr text).toOption = some v := by
  obtain ⟨hne, hread⟩ := h text (toOption_eq_some.mp htext)
  exact ⟨by simpa using hne, by rw [hread]; rfl⟩

/-- **Encoded records decode.** -/
theorem decodeRecord_encodeRecord {responseId : String} {r : StoredResponse N}
    {p : ProtoStoredResponse} (hback : ∀ v ∈ r.values, ReadsBack S v)
    (h : encodeRecord S responseId r = some p) : decodeRecord S p = some r := by
  obtain ⟨responseJson, hresponse, h⟩ := Option.bind_eq_some_iff.mp h
  obtain ⟨inputJson, hinput, h⟩ := Option.bind_eq_some_iff.mp h
  obtain ⟨pendingJson, hpending, h⟩ := Option.bind_eq_some_iff.mp h
  obtain rfl := Option.some.inj h
  have hresponse' := ((hback _ (by simp [StoredResponse.values])).toOption hresponse).2
  have hinput' : (inputJson.mapM fun text => (S.valueFromStr text).toOption) = some r.input :=
    mapM_roundtrip (fun v hv text htext =>
      ((hback v (by simp [StoredResponse.values, hv])).toOption htext).2) hinput
  have hpending' : ((pendingJson.filter fun text => !text.isEmpty).mapM fun text =>
      (S.valueFromStr text).toOption) = some r.pendingUpstreamRequest := by
    rcases mapM_option_eq_some hpending with ⟨hnone, rfl⟩ | ⟨v, text, hsome, rfl, htext⟩
    · rw [hnone]
      rfl
    · obtain ⟨hne, hread⟩ := (hback v (by simp [StoredResponse.values, hsome])).toOption htext
      simp [hsome, Option.filter, hne, hread]
  simp only [decodeRecord, hresponse', hinput', hpending', Option.pure_def, Option.bind_eq_bind,
    Option.bind_some]

/-- **Decoded records encode**, to the wire record they come from up to the spelling of its
JSON. -/
theorem encodeRecord_decodeRecord {r : StoredResponse N} {p : ProtoStoredResponse}
    (h : decodeRecord S p = some r) : encodeRecord S p.responseId r = p.normalise S := by
  obtain ⟨response, hresponse, h⟩ := Option.bind_eq_some_iff.mp h
  obtain ⟨input, hinput, h⟩ := Option.bind_eq_some_iff.mp h
  obtain ⟨pending, hpending, h⟩ := Option.bind_eq_some_iff.mp h
  obtain rfl := Option.some.inj h
  have hresponse' : reprint S p.responseJson = (S.valueToString response).toOption := by
    rw [reprint, hresponse]
    rfl
  have hinput' : (input.mapM fun v => (S.valueToString v).toOption) =
      p.inputJson.mapM (reprint S) := mapM_then _ hinput
  have hpending' : (pending.mapM fun v => (S.valueToString v).toOption) =
      (p.pendingUpstreamRequestJson.filter fun text => !text.isEmpty).mapM (reprint S) := by
    rcases mapM_option_eq_some hpending with ⟨hnone, rfl⟩ | ⟨text, v, hsome, rfl, htext⟩
    · rw [hnone]
      rfl
    · rw [hsome]
      simp [reprint, htext]
  simp only [encodeRecord, ProtoStoredResponse.normalise, hresponse', hinput', hpending']

theorem eq_of_mapM_texts {l l' : List (Value N)} {texts : List String}
    (h : (l.mapM fun v => (S.valueToString v).toOption) = some texts)
    (h' : (texts.mapM fun text => (S.valueFromStr text).toOption) = some l') :
    l' = l.map (Value.mapNumbers S.reread) := by
  rw [mapM_then _ h] at h'
  have hback := mapM_eq_map (Value.mapNumbers S.reread) (fun v _ v' hv' => by
    obtain ⟨text, htext, hread⟩ := Option.bind_eq_some_iff.mp hv'
    exact S.valueFromStr_valueToString (toOption_eq_some.mp htext) (toOption_eq_some.mp hread)) h'
  exact hback

/-- A record that was encoded and decoded has its numbers reread, and is the same otherwise, up to
its pending request, which may be lost. -/
theorem decodeRecord_of_encodeRecord {responseId : String} {r r' : StoredResponse N}
    {p : ProtoStoredResponse} (h : encodeRecord S responseId r = some p)
    (h' : decodeRecord S p = some r') :
    r' = { r with
      response := r.response.mapNumbers S.reread
      input := r.input.map (Value.mapNumbers S.reread)
      pendingUpstreamRequest := r'.pendingUpstreamRequest } ∧
      (r'.pendingUpstreamRequest = r.pendingUpstreamRequest.map (Value.mapNumbers S.reread) ∨
        r'.pendingUpstreamRequest = none) := by
  obtain ⟨responseJson, hresponse, h⟩ := Option.bind_eq_some_iff.mp h
  obtain ⟨inputJson, hinput, h⟩ := Option.bind_eq_some_iff.mp h
  obtain ⟨pendingJson, hpending, h⟩ := Option.bind_eq_some_iff.mp h
  obtain rfl := Option.some.inj h
  obtain ⟨response, hresponse', h'⟩ := Option.bind_eq_some_iff.mp h'
  obtain ⟨input, hinput', h'⟩ := Option.bind_eq_some_iff.mp h'
  obtain ⟨pending, hpending', h'⟩ := Option.bind_eq_some_iff.mp h'
  obtain rfl := Option.some.inj h'
  obtain rfl : response = r.response.mapNumbers S.reread := S.valueFromStr_valueToString
    (toOption_eq_some.mp hresponse) (toOption_eq_some.mp hresponse')
  obtain rfl : input = r.input.map (Value.mapNumbers S.reread) := eq_of_mapM_texts hinput hinput'
  refine ⟨rfl, ?_⟩
  rcases mapM_option_eq_some hpending' with ⟨-, rfl⟩ | ⟨text, v, hsome, rfl, htext⟩
  · exact .inr rfl
  · obtain ⟨htext', -⟩ := Option.filter_eq_some_iff.mp hsome
    rcases mapM_option_eq_some hpending with ⟨-, rfl⟩ | ⟨v', text', hsome', rfl, hprint⟩
    · cases htext'
    · obtain rfl := Option.some.inj htext'
      rw [S.valueFromStr_valueToString (toOption_eq_some.mp hprint) (toOption_eq_some.mp htext),
        hsome']
      exact .inl rfl

/-- **The server and the Rust client have one codec, and it is lossless.**

* Of every record they make the same wire record.
* If the values of the record read back, both make the record of it again.
* Of every wire record they make the same record, or both none.
* That record is encoded as the wire record with its JSON texts printed again and an empty
  pending request made absent. -/
theorem conversions_agree :
    (∀ (id : String) (r : StoredResponse N),
      (coreToProto S id r).toOption = (RustClient.toProtoRecord S id r).toOption) ∧
    (∀ (id id' : String) (r : StoredResponse N) (p : ProtoStoredResponse),
      (∀ v ∈ r.values, ReadsBack S v) → coreToProto S id r = .ok p →
      protoToCore S p = .ok r ∧ RustClient.fromProtoRecord S (some p) id' = .ok r) ∧
    (∀ (id : String) (p : ProtoStoredResponse),
      (protoToCore S p).toOption = (RustClient.fromProtoRecord S (some p) id).toOption) ∧
    ∀ (r : StoredResponse N) (p : ProtoStoredResponse), protoToCore S p = .ok r →
      (coreToProto S p.responseId r).toOption = p.normalise S ∧
      (RustClient.toProtoRecord S p.responseId r).toOption = p.normalise S := by
  refine ⟨fun id r => ?_, fun id id' r p hback h => ?_, fun id p => ?_, fun r p h => ?_⟩
  · rw [toOption_coreToProto, toOption_toProtoRecord]
  · rw [← toOption_eq_some, toOption_coreToProto] at h
    have hdecode := decodeRecord_encodeRecord hback h
    refine ⟨toOption_eq_some.mp ?_, toOption_eq_some.mp ?_⟩
    · rw [toOption_protoToCore, hdecode]
    · rw [toOption_fromProtoRecord, hdecode]
  · rw [toOption_protoToCore, toOption_fromProtoRecord]
  · rw [← toOption_eq_some, toOption_protoToCore] at h
    rw [toOption_coreToProto, toOption_toProtoRecord, encodeRecord_decodeRecord h]
    exact ⟨rfl, rfl⟩

/-! ### Through the Go client -/

/-- An optional string is rebuilt unless it is present and empty. -/
theorem optionalString_getD {o : Option String} :
    GoClient.optionalString (o.getD "") = o ↔ o ≠ some "" := by
  rcases o with _ | s
  · simp [GoClient.optionalString]
  · by_cases hs : s = "" <;> simp [GoClient.optionalString, hs]

/-- A pending request that is not empty is rebuilt. -/
theorem goClient_round_trip {id : String} {p : ProtoStoredResponse} (hid : p.responseId = id)
    (hpending : p.pendingUpstreamRequestJson ≠ some "") :
    ∃ q, GoClient.fromProtoRecord (some p) = .ok q ∧ GoClient.toProtoRecord id q =
      { p with upstreamAuthorization :=
          GoClient.optionalString (p.upstreamAuthorization.getD "") } := by
  obtain ⟨responseId, upstream, response, input, pending, auth, enqueued⟩ := p
  obtain rfl : responseId = id := hid
  refine ⟨_, rfl, ?_⟩
  rcases pending with _ | text
  · rfl
  · have hne : text ≠ "" := fun h => hpending (h ▸ rfl)
    have hsize : 0 < text.utf8ByteSize := Nat.pos_of_ne_zero fun h =>
      hne (String.utf8ByteSize_eq_zero_iff.mp h)
    simp [GoClient.toProtoRecord, GoClient.optionalString, hne, hsize]

/-- Reading takes a value that is not nested too deep back to itself exactly if it does so with its
numbers. -/
theorem readsBack_iff {limit : ℕ} (hS : S.Limited limit)
    (hprints : ∀ (j : Json N) (s : String), S.toString j = .ok s → s ≠ "") {v : Value N}
    {text : String} (htext : S.valueToString v = .ok text) (hdepth : v.depth ≤ limit) :
    ReadsBack S v ↔ v.mapNumbers S.reread = v := by
  obtain ⟨j, hj⟩ := (hS.reads_iff htext).mpr hdepth
  have hread : S.valueFromStr text = .ok (v.mapNumbers S.reread) := by
    rw [Serde.valueFromStr, hj, S.fromStr_toString htext hj]
    exact congrArg Except.ok (Value.ofTree_mapNumbers S.reread v)
  constructor
  · intro h
    exact Except.ok.inj (hread.symm.trans (h text htext).2)
  · intro h text' htext'
    obtain rfl := Except.ok.inj (htext.symm.trans htext')
    exact ⟨hprints _ _ htext, by rw [hread, h]⟩

/-- The values of a record that is encoded are printed. -/
theorem printed_of_encodeRecord {responseId : String} {r : StoredResponse N}
    {p : ProtoStoredResponse} (h : encodeRecord S responseId r = some p) :
    ∀ v ∈ r.values, ∃ text, S.valueToString v = .ok text := by
  obtain ⟨responseJson, hresponse, h⟩ := Option.bind_eq_some_iff.mp h
  obtain ⟨inputJson, hinput, h⟩ := Option.bind_eq_some_iff.mp h
  obtain ⟨pendingJson, hpending, -⟩ := Option.bind_eq_some_iff.mp h
  intro v hv
  rcases List.mem_append.mp hv with hv | hv
  · rcases List.mem_cons.mp hv with rfl | hv
    · exact ⟨responseJson, toOption_eq_some.mp hresponse⟩
    · obtain ⟨text, htext⟩ := exists_of_mapM hinput hv
      exact ⟨text, toOption_eq_some.mp htext⟩
  · rcases mapM_option_eq_some hpending with ⟨hnone, -⟩ | ⟨v', text, hsome, -, htext⟩
    · simp [hnone] at hv
    · obtain rfl : v = v' := by simpa [hsome] using hv
      exact ⟨text, toOption_eq_some.mp htext⟩

/-- A record that was encoded and decodes to itself has values that read back. -/
theorem fixed_of_roundtrip {responseId : String} {r : StoredResponse N} {p : ProtoStoredResponse}
    (h : encodeRecord S responseId r = some p) (h' : decodeRecord S p = some r) :
    ∀ v ∈ r.values, v.mapNumbers S.reread = v := by
  obtain ⟨hsame, hpending⟩ := decodeRecord_of_encodeRecord h h'
  have hresponse : r.response = r.response.mapNumbers S.reread :=
    congrArg StoredResponse.response hsame
  have hinput : r.input = r.input.map (Value.mapNumbers S.reread) :=
    congrArg StoredResponse.input hsame
  intro v hv
  rcases List.mem_append.mp hv with hv | hv
  · rcases List.mem_cons.mp hv with rfl | hv
    · exact hresponse.symm
    · exact map_fixed_iff.mp hinput.symm v hv
  · have hsome : r.pendingUpstreamRequest = some v := by simpa using hv
    rcases hpending with hkept | hlost
    · rw [hsome] at hkept
      exact (Option.some.inj hkept).symm
    · rw [hsome] at hlost
      cases hlost

/-- A wire record is written back unchanged by the Go client, and it leaves the stored record as it
was. -/
def GoLossless (S : Serde N) (id : String) (r : StoredResponse N)
    (p : ProtoStoredResponse) : Prop :=
  ∃ q, GoClient.fromProtoRecord (some p) = .ok q ∧ GoClient.toProtoRecord id q = p ∧
    protoToCore S (GoClient.toProtoRecord id q) = .ok r

/-- The same for the Rust client. -/
def RustLossless (S : Serde N) (id : String) (r : StoredResponse N) (p : ProtoStoredResponse) :
    Prop :=
  ∃ q, RustClient.fromProtoRecord S (some p) id = .ok q ∧ RustClient.toProtoRecord S id q = .ok p ∧
    protoToCore S p = .ok r

/-- **Reading and writing back through the clients.** A record that is stored is sent to a client,
which writes it back.

* The Go client writes back the wire record that it was sent exactly if the record has no
  authorization that is present and empty.
* Both clients write back what they were sent and leave the stored record as it was exactly if,
  besides, the numbers of the record read back as they are printed. -/
theorem go_round_trip {limit : ℕ} (hS : S.Limited limit)
    (hprints : ∀ (j : Json N) (s : String), S.toString j = .ok s → s ≠ "") {text id : String}
    {r : StoredResponse N} {p : ProtoStoredResponse}
    (hstored : StoredResponse.ofText S text = .ok r)
    (h : coreToProto S id r = .ok p) :
    ((∃ q, GoClient.fromProtoRecord (some p) = .ok q ∧ GoClient.toProtoRecord id q = p) ↔
      r.upstreamAuthorization ≠ some "") ∧
    (GoLossless S id r p ∧ RustLossless S id r p ↔
      r.upstreamAuthorization ≠ some "" ∧ ∀ v ∈ r.values, v.mapNumbers S.reread = v) := by
  have hproto := h
  rw [← toOption_eq_some, toOption_coreToProto] at h
  have hprinted := printed_of_encodeRecord h
  -- the Go client takes an empty text for an absent one; no value is printed as empty
  obtain ⟨hid, hauth, hpending⟩ : p.responseId = id ∧
      p.upstreamAuthorization = r.upstreamAuthorization ∧
      p.pendingUpstreamRequestJson ≠ some "" := by
    obtain ⟨responseJson, -, h⟩ := Option.bind_eq_some_iff.mp h
    obtain ⟨inputJson, -, h⟩ := Option.bind_eq_some_iff.mp h
    obtain ⟨pendingJson, hpending, h⟩ := Option.bind_eq_some_iff.mp h
    obtain rfl := Option.some.inj h
    refine ⟨rfl, rfl, ?_⟩
    rintro rfl
    rcases mapM_option_eq_some hpending with ⟨-, ⟨⟩⟩ | ⟨v, text, -, ⟨⟩, htext⟩
    exact hprints _ _ (toOption_eq_some.mp htext) rfl
  obtain ⟨q, hq, hback⟩ := goClient_round_trip hid hpending
  have hgo : GoClient.toProtoRecord id q = p ↔ r.upstreamAuthorization ≠ some "" := by
    rw [← hauth, ← optionalString_getD, hback]
    constructor
    · exact fun hsame => congrArg ProtoStoredResponse.upstreamAuthorization hsame
    · intro hsame
      rw [hsame]
  have hfits := fits_of_ofText hS hstored
  have hdepth : ∀ v ∈ r.values, v.depth ≤ limit := by
    intro v hv
    have hresponse := hfits.response
    rcases List.mem_append.mp hv with hv | hv
    · rcases List.mem_cons.mp hv with rfl | hv
      · omega
      · have hitem := hfits.input v hv
        omega
    · have hrequest := hfits.request v (by simpa using hv)
      omega
  refine ⟨⟨?_, fun hne => ⟨q, hq, hgo.mpr hne⟩⟩, ⟨?_, ?_⟩⟩
  · rintro ⟨q', hq', hsame⟩
    obtain rfl := Except.ok.inj (hq.symm.trans hq')
    exact hgo.mp hsame
  · rintro ⟨⟨q', hq', hsame, hcore⟩, -⟩
    obtain rfl := Except.ok.inj (hq.symm.trans hq')
    refine ⟨hgo.mp hsame, fixed_of_roundtrip h ?_⟩
    rw [← toOption_protoToCore, ← hsame, hcore]
    rfl
  · rintro ⟨hne, hfixed⟩
    have hreads : ∀ v ∈ r.values, ReadsBack S v := by
      intro v hv
      obtain ⟨text, htext⟩ := hprinted v hv
      exact (readsBack_iff hS hprints htext (hdepth v hv)).mpr (hfixed v hv)
    have hdecode := decodeRecord_encodeRecord hreads h
    have hcore : protoToCore S p = .ok r :=
      toOption_eq_some.mp (by rw [toOption_protoToCore, hdecode])
    refine ⟨⟨q, hq, hgo.mpr hne, ?_⟩, r, toOption_eq_some.mp ?_, toOption_eq_some.mp ?_, hcore⟩
    · rw [hgo.mpr hne, hcore]
    · rw [toOption_fromProtoRecord, hdecode]
    · rw [toOption_toProtoRecord, h]

end Wire

/-! ### The codec of the store -/

/-- The upstream request of a record is JSON `null`. -/
def HasNullRequest (r : StoredResponse N) : Prop :=
  ∃ v, r.pendingUpstreamRequest = some v ∧ v.1 = .null

/-- A record whose numbers read back as they were printed. -/
theorem reread_of_fixed {S : Serde N} {r : StoredResponse N}
    (h : ∀ v ∈ r.values, v.mapNumbers S.reread = v) : r.reread S = r.dropNull := by
  have hresponse : r.response.mapNumbers S.reread = r.response :=
    h _ (by simp [StoredResponse.values])
  have hinput : r.input.map (Value.mapNumbers S.reread) = r.input :=
    map_fixed_iff.mpr fun v hv => h v (by simp [StoredResponse.values, hv])
  have hrequest : r.dropNull.pendingUpstreamRequest.map (Value.mapNumbers S.reread) =
      r.dropNull.pendingUpstreamRequest := by
    rcases hsome : r.dropNull.pendingUpstreamRequest with _ | v
    · rfl
    · obtain ⟨hmem, -⟩ := Option.filter_eq_some_iff.mp hsome
      exact congrArg some (h v (by simp [StoredResponse.values, hmem]))
  rw [StoredResponse.reread, hresponse, hinput, hrequest]
  rfl

theorem dropNull_eq_self_iff {r : StoredResponse N} : r.dropNull = r ↔ ¬HasNullRequest r := by
  obtain ⟨upstream, response, input, pending, auth, enqueued⟩ := r
  rcases pending with _ | ⟨j, hj⟩
  · simp [StoredResponse.dropNull, HasNullRequest]
  · cases j <;> simp [StoredResponse.dropNull, HasNullRequest, Option.filter]

/-- **Storing and loading are inverse, except for a `null` request.** The numbers of a record read
back as they were printed. Then, when the text stored for the record is read back, it gives the
record itself, with the same optional members present, the same lifecycle predicates and the same
wire record, exactly if the upstream request of the record is not JSON `null`. -/
theorem store_load_inverse {S : Serde N} {r r' : StoredResponse N} {text : String}
    (hexact : ∀ v ∈ r.values, v.mapNumbers S.reread = v)
    (h : ResponseStore.encode S r = .ok text) (h' : ResponseStore.decode S text = .ok r') :
    (r' = r ∧ r'.pendingUpstreamRequest.isSome = r.pendingUpstreamRequest.isSome ∧
      r'.upstreamAuthorization.isSome = r.upstreamAuthorization.isSome ∧
      r'.enqueuedAt.isSome = r.enqueuedAt.isSome ∧
      isClaimableBackground r' = isClaimableBackground r ∧
      isInFlightBackground r' = isInFlightBackground r ∧
      ∀ id, coreToProto S id r' = coreToProto S id r) ↔ ¬HasNullRequest r := by
  have hread : r' = r.dropNull :=
    (StoredResponse.ofText_toText (mapError_eq_ok_iff.mp h) (mapError_eq_ok_iff.mp h')).trans
      (reread_of_fixed hexact)
  rw [← dropNull_eq_self_iff, ← hread]
  constructor
  · exact And.left
  · rintro rfl
    exact ⟨rfl, rfl, rfl, rfl, rfl, rfl, fun _ => rfl⟩

/-! ### Concrete records -/

section Samples

/-- A record without a request. -/
def plainRecord : StoredResponse Int64 where
  upstream := "openai"
  response := .ofFields [("status", .str "queued")]
  input := []
  pendingUpstreamRequest := none
  upstreamAuthorization := none
  enqueuedAt := none

/-- The record with a request that is JSON `null`. -/
def nullRequest : StoredResponse Int64 :=
  { plainRecord with pendingUpstreamRequest := some (.ofTree .null) }

/-- The record with an item, a `null` request and an authorization that is empty. -/
def emptyAuthorization : StoredResponse Int64 :=
  { nullRequest with input := [.str "hi"], upstreamAuthorization := some "" }

/-- Integers for numbers, and no text at all. -/
private def noTexts : Serde Int64 := .ofTable [] List.nodup_nil id some Serde.some_id

def statusText : String := "\x7b\"status\":\"queued\"\x7d"

def nullRequestText : String :=
  "\x7b\"upstream\":\"openai\",\"response\":\x7b\"status\":\"queued\"\x7d,\"input\":[]," ++
    "\"pending_upstream_request\":null\x7d"

def plainText : String :=
  "\x7b\"upstream\":\"openai\",\"response\":\x7b\"status\":\"queued\"\x7d,\"input\":[]\x7d"

/-- The record with an authorization that is empty. -/
def bareAuthorization : StoredResponse Int64 :=
  { plainRecord with upstreamAuthorization := some "" }

def bareAuthorizationText : String :=
  "\x7b\"upstream\":\"openai\",\"response\":\x7b\"status\":\"queued\"\x7d,\"input\":[]," ++
    "\"upstream_authorization\":\"\"\x7d"

/-- The documents of the records above and their texts. -/
def smallTable : List (Json Int64 × String) :=
  [(bareAuthorization.toTree noTexts, bareAuthorizationText),
    (plainRecord.response.1, statusText), (.string "hi", "\"hi\""), (.null, "null"),
    (nullRequest.toTree noTexts, nullRequestText), (plainRecord.toTree noTexts, plainText)]

theorem nodup_smallTable : (smallTable.map Prod.snd).Nodup := by decide +kernel

/-- The codec of the records above. -/
def smallSerde : Serde Int64 := .ofTable smallTable nodup_smallTable id some Serde.some_id

/-- The codec of the records above, with the limit of the source's reader. -/
def smallLimited : Serde Int64 := smallSerde.bounded 127

theorem limited_smallLimited : smallLimited.Limited 127 := Serde.limited_ofTable 127

theorem ne_empty_of_smallLimited (j : Json Int64) (s : String)
    (h : smallLimited.toString j = .ok s) : s ≠ "" := by
  have hprinted : (Serde.ofTable smallTable nodup_smallTable id some Serde.some_id).toString j =
      .ok s := h
  have hrow : (j, s) ∈ smallTable := List.mem_of_find?_eq_some (Serde.mem_table hprinted)
  have hrows : ∀ p ∈ smallTable, p.2 ≠ "" := by decide +kernel
  exact hrows _ hrow

/-- The wire record of a record without request and input. -/
def wireOf (authorization : Option String) : ProtoStoredResponse :=
  ⟨"resp_1", "openai", statusText, [], none, authorization, none⟩

/-- The wire record of the record with an empty authorization. -/
def emptyAuthorizationWire : ProtoStoredResponse :=
  ⟨"resp_1", "openai", statusText, ["\"hi\""], some "null", some "", none⟩

theorem readsBack_of_text {S : Serde N} {v : Value N} (text : String)
    (hprint : S.valueToString v = .ok text) (hne : text ≠ "")
    (hread : S.valueFromStr text = .ok v) : ReadsBack S v := by
  intro text' htext'
  obtain rfl := Except.ok.inj (hprint.symm.trans htext')
  exact ⟨hne, hread⟩

theorem readsBack_emptyAuthorization :
    ∀ v ∈ emptyAuthorization.values, ReadsBack smallSerde v := by
  intro v hv
  rcases List.mem_cons.mp hv with rfl | hv
  · exact readsBack_of_text statusText (by decide +kernel) (by decide) (by decide +kernel)
  rcases List.mem_cons.mp hv with rfl | hv
  · exact readsBack_of_text "\"hi\"" (by decide +kernel) (by decide) (by decide +kernel)
  · obtain rfl := List.mem_singleton.mp hv
    exact readsBack_of_text "null" (by decide +kernel) (by decide) (by decide +kernel)

/-- A `null` request and an empty authorization survive the wire. -/
theorem conversions_agree_emptyAuthorization :
    coreToProto smallSerde "resp_1" emptyAuthorization = .ok emptyAuthorizationWire ∧
    protoToCore smallSerde emptyAuthorizationWire = .ok emptyAuthorization ∧
    RustClient.fromProtoRecord smallSerde (some emptyAuthorizationWire) "resp_1" =
      .ok emptyAuthorization := by
  have hencode : coreToProto smallSerde "resp_1" emptyAuthorization =
    .ok emptyAuthorizationWire := by decide +kernel
  exact ⟨hencode, conversions_agree.2.1 "resp_1" "resp_1" _ _ readsBack_emptyAuthorization hencode⟩

/-- A record without authorization passes through both clients, one with an empty authorization
is changed by the Go client. -/
theorem go_round_trip_emptyAuthorization :
    GoLossless smallLimited "resp_1" plainRecord (wireOf none) ∧
    RustLossless smallLimited "resp_1" plainRecord (wireOf none) ∧
    ¬∃ q, GoClient.fromProtoRecord (some (wireOf (some ""))) = .ok q ∧
      GoClient.toProtoRecord "resp_1" q = wireOf (some "") := by
  have hplain : StoredResponse.ofText smallLimited plainText = .ok plainRecord := by
    decide +kernel
  have hbare : StoredResponse.ofText smallLimited bareAuthorizationText =
      .ok bareAuthorization := by decide +kernel
  have hexact : ∀ v ∈ plainRecord.values, v.mapNumbers smallLimited.reread = v :=
    fun v _ => Value.mapNumbers_of_fixed _ (fun _ => rfl) v
  have hsent : coreToProto smallLimited "resp_1" plainRecord = .ok (wireOf none) := by
    decide +kernel
  have hsent' : coreToProto smallLimited "resp_1" bareAuthorization = .ok (wireOf (some "")) := by
    decide +kernel
  obtain ⟨-, hlossless⟩ :=
    go_round_trip limited_smallLimited ne_empty_of_smallLimited hplain hsent
  obtain ⟨hsame, -⟩ := go_round_trip limited_smallLimited ne_empty_of_smallLimited hbare hsent'
  obtain ⟨hgo, hrust⟩ := hlossless.mpr ⟨by decide, hexact⟩
  exact ⟨hgo, hrust, fun hback => hsame.mp hback rfl⟩

/-- **An empty authorization is dropped.** The Go client does not write back what it was sent. -/
theorem go_drops_emptyAuthorization :
    ¬∀ (id : String) (r : StoredResponse Int64) (p : ProtoStoredResponse)
      (q : GoClient.StoredResponse), (∀ v ∈ r.values, ReadsBack smallSerde v) →
      coreToProto smallSerde id r = .ok p → GoClient.fromProtoRecord (some p) = .ok q →
      GoClient.toProtoRecord id q = p := by
  intro hclaim
  have hsame := hclaim "resp_1" _ emptyAuthorizationWire _ readsBack_emptyAuthorization
    (by decide +kernel) rfl
  exact absurd hsame (by decide)

/-- A record without a request is loaded as it was stored. -/
theorem store_load_inverse_plain : ∃ text r',
    ResponseStore.encode smallSerde plainRecord = .ok text ∧
    ResponseStore.decode smallSerde text = .ok r' ∧ r' = plainRecord ∧
    isClaimableBackground r' = isClaimableBackground plainRecord := by
  have hencode : ResponseStore.encode smallSerde plainRecord = .ok plainText := by decide +kernel
  have hdecode : ResponseStore.decode smallSerde plainText = .ok plainRecord := by decide +kernel
  have hnull : ¬HasNullRequest plainRecord := by
    rintro ⟨v, hv, -⟩
    cases hv
  have hexact : ∀ v ∈ plainRecord.values, v.mapNumbers smallSerde.reread = v :=
    fun v _ => Value.mapNumbers_of_fixed _ (fun _ => rfl) v
  obtain ⟨hsame, -, -, -, hclaimable, -⟩ := (store_load_inverse hexact hencode hdecode).mpr hnull
  exact ⟨plainText, plainRecord, hencode, hdecode, hsame, hclaimable⟩

/-- **A `null` request is lost.** A client sends a job whose request is JSON `null`; when it is
loaded, it has no request. -/
theorem null_request_lost :
    ¬∀ (p : ProtoStoredResponse) (r r' : StoredResponse Int64) (text : String),
      protoToCore smallSerde p = .ok r → ResponseStore.encode smallSerde r = .ok text →
      ResponseStore.decode smallSerde text = .ok r' → r' = r := by
  intro hclaim
  have hsame := hclaim ⟨"resp_1", "openai", statusText, [], some "null", none, none⟩ nullRequest
    plainRecord nullRequestText (by decide +kernel) (by decide +kernel) (by decide +kernel)
  exact absurd hsame (by decide +kernel)

end Samples

end ResponsesApiStore
