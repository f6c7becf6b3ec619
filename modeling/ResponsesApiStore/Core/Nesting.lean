import ResponsesApiStore.Json.Depth
import ResponsesApiStore.Core.Lifecycle

/-!
# The nesting of a record

A record is stored as one document, so its response and its request stand one level deep in it
and its input items two. With a reader that stops at a limit, a record can be read back exactly
if its members are that much below the limit (`readable_iff_fits`). A record that was read
fits, and of the transitions only a completion can break this: it brings in a document of its
own.
-/

namespace ResponsesApiStore

open Json (Value Serde)

variable {N : Type}

/-- The text can be read as a record. -/
def Readable (S : Serde N) (text : String) : Prop :=
  ∃ record, StoredResponse.ofText S text = .ok record

/-- The members of the record leave room for the levels of the record itself. -/
structure Fits (limit : ℕ) (record : StoredResponse N) : Prop where
  response : record.response.depth + 1 ≤ limit
  input : ∀ item ∈ record.input, item.depth + 2 ≤ limit
  request : ∀ request ∈ record.pendingUpstreamRequest, request.depth + 1 ≤ limit

variable {S : Serde N} {limit : ℕ}

/-! ### Records and their texts -/

theorem forall_mem_toList_map {α β : Type} {p : β → Prop} {f : α → β} {o : Option α} :
    (∀ b ∈ (o.map f).toList, p b) ↔ ∀ a ∈ o, p (f a) := by
  cases o <;> simp

/-- How deep the document of a record is. -/
theorem depth_toTree_le_iff (hlimit : 2 ≤ limit) {record : StoredResponse N} :
    (record.toTree S).depth ≤ limit ↔ Fits limit record := by
  have hinput : (Json.array (record.input.map Subtype.val)).depth + 1 ≤ limit ↔
      ∀ item ∈ record.input, item.depth + 2 ≤ limit := by
    obtain ⟨n, rfl⟩ : ∃ n, limit = n + 1 := ⟨limit - 1, by omega⟩
    rw [Nat.succ_le_succ_iff, Json.depth_array_le_iff, List.forall_mem_map]
    constructor
    · intro h item hitem
      exact Nat.succ_le_succ (h.2 item hitem)
    · intro h
      exact ⟨by omega, fun item hitem => Nat.le_of_succ_le_succ (h item hitem)⟩
  have hstring : ∀ s : String, (Json.string s : Json N).depth + 1 ≤ limit := fun _ => by
    simp only [Json.depth]
    omega
  have hnumber : ∀ n : N, (Json.number n).depth + 1 ≤ limit := fun _ => by
    simp only [Json.depth]
    omega
  rw [StoredResponse.toTree, Json.depth_object_le_iff]
  simp only [List.forall_mem_append, List.forall_mem_cons, forall_mem_toList_map, hinput, hstring,
    hnumber, implies_true, true_and, and_true]
  constructor
  · rintro ⟨-, ⟨hresponse, hitems, -⟩, hrequest⟩
    exact ⟨hresponse, hitems, hrequest⟩
  · intro h
    exact ⟨by omega, ⟨h.response, h.input, List.forall_mem_nil _⟩, h.request⟩

/-- **What can be read back.** The text of a record is readable exactly if the record fits. -/
theorem readable_iff_fits (hS : S.Limited limit) (hlimit : 2 ≤ limit)
    {record : StoredResponse N} {text : String} (h : record.toText S = .ok text) :
    Readable S text ↔ Fits limit record := by
  rw [← depth_toTree_le_iff (S := S) hlimit, ← StoredResponse.keepFields_toTree,
    ← hS.structs_iff h]
  constructor
  · rintro ⟨r, hr⟩
    obtain ⟨j, hj, -⟩ := bind_eq_ok_iff.mp hr
    exact ⟨j, hj⟩
  · rintro ⟨j, hj⟩
    have hread : StoredResponse.ofTree S j = .ok (record.reread S) := by
      rw [S.fromStruct_toString h hj, StoredResponse.mapNumbers_toTree,
        StoredResponse.keepFields_toTree, StoredResponse.ofTree_toTree,
        StoredResponse.dropNull_mapNumbers]
    exact ⟨record.reread S, bind_eq_ok_iff.mpr ⟨j, hj, hread⟩⟩

theorem mem_of_member {name : String} {fields : List (String × Json N)} {j : Json N}
    (h : StoredResponse.member name fields = .ok (some j)) : (name, j) ∈ fields := by
  rw [StoredResponse.member] at h
  split at h
  · cases h
  · rename_i f hf
    obtain rfl := Option.some.inj (Except.ok.inj h)
    have hmem : f ∈ fields.filter fun f => f.1 = name := by
      rw [hf]
      exact List.mem_singleton_self f
    obtain ⟨hfields, hname⟩ := List.mem_filter.mp hmem
    rw [← of_decide_eq_true hname]
    exact hfields
  · cases h

/-- What the reader of a record makes of the members of a document. -/
theorem fits_of_ofFields {fields : List (String × Json N)} {record : StoredResponse N}
    (hfields : ∀ f ∈ fields, f.2.depth + 1 ≤ limit)
    (h : StoredResponse.ofFields S fields = .ok record) : Fits limit record := by
  have hvalue : ∀ {name j}, StoredResponse.member name fields = .ok (some j) →
      (Value.ofTree j).depth + 1 ≤ limit := fun hj =>
    (Nat.succ_le_succ (Value.depth_ofTree_le _)).trans (hfields _ (mem_of_member hj))
  -- the reader takes the fields one after the other; three of them carry values
  obtain ⟨o, -, h⟩ := bind_eq_ok_iff.mp h
  obtain ⟨upstream, -, h⟩ := bind_eq_ok_iff.mp h
  obtain ⟨o₁, ho₁, h⟩ := bind_eq_ok_iff.mp h
  obtain ⟨response, hresponse, h⟩ := bind_eq_ok_iff.mp h
  obtain ⟨o₂, ho₂, h⟩ := bind_eq_ok_iff.mp h
  obtain ⟨input, hinput, h⟩ := bind_eq_ok_iff.mp h
  obtain ⟨o₃, ho₃, h⟩ := bind_eq_ok_iff.mp h
  obtain ⟨request, hrequest, h⟩ := bind_eq_ok_iff.mp h
  obtain ⟨o₄, -, h⟩ := bind_eq_ok_iff.mp h
  obtain ⟨authorization, -, h⟩ := bind_eq_ok_iff.mp h
  obtain ⟨o₅, -, h⟩ := bind_eq_ok_iff.mp h
  obtain ⟨enqueuedAt, -, h⟩ := bind_eq_ok_iff.mp h
  obtain rfl := Except.ok.inj h
  refine ⟨?_, ?_, ?_⟩
  · rcases o₁ with _ | j
    · cases hresponse
    · obtain rfl := Except.ok.inj hresponse
      exact hvalue ho₁
  · rcases o₂ with _ | j
    · cases hinput
    cases j with
    | array items =>
      obtain rfl := Except.ok.inj hinput
      intro item hitem
      -- an item is two levels below the document: the object and the array
      obtain ⟨j, hj, rfl⟩ := List.mem_map.mp hitem
      have harray := hfields _ (mem_of_member ho₂)
      obtain ⟨n, rfl⟩ : ∃ n, limit = n + 1 := ⟨limit - 1, by omega⟩
      have hdepth := (Json.depth_array_le_iff.mp (Nat.le_of_succ_le_succ harray)).2 j hj
      have hread := Value.depth_ofTree_le j
      omega
    | _ => cases hinput
  · intro v hv
    rcases o₃ with _ | j
    · obtain rfl := Except.ok.inj hrequest
      cases hv
    · have hj : v = Value.ofTree j := by
        cases j <;> obtain rfl := Except.ok.inj hrequest <;> cases hv <;> rfl
      exact hj ▸ hvalue ho₃

/-- **What was read fits.** -/
theorem fits_of_ofText (hS : S.Limited limit) {text : String} {record : StoredResponse N}
    (h : StoredResponse.ofText S text = .ok record) : Fits limit record := by
  obtain ⟨j, hj, h⟩ := bind_eq_ok_iff.mp h
  have hdepth := hS.accepts_struct hj
  cases j with
  | object fields => exact fits_of_ofFields (Json.depth_object_le_iff.mp hdepth).2 h
  | array items =>
    rw [StoredResponse.ofTree] at h
    split_ifs at h
    refine fits_of_ofFields (fun f hf => ?_) h
    exact (Json.depth_array_le_iff.mp hdepth).2 f.2 (List.of_mem_zip hf).2
  | _ => cases h

/-! ### Transitions -/

/-- Apart from the members that will be stamped, the members of an object leave room for the
object and for the record around it. -/
def FitsStamped (limit : ℕ) (response : Value N) : Prop :=
  ∀ k x, k ∉ stampedMembers → response.get k = some x → x.depth + 2 ≤ limit

/-- An object leaves room for a record around it if its members do. -/
theorem depth_of_isObject (hlimit : 2 ≤ limit) {v : Value N} (hv : v.isObject = true) :
    v.depth + 1 ≤ limit ↔ ∀ k x, v.get k = some x → x.depth + 2 ≤ limit := by
  obtain ⟨n, rfl⟩ : ∃ n, limit = n + 2 := ⟨limit - 2, by omega⟩
  simp only [Nat.add_le_add_iff_right]
  exact Value.depth_le_succ_iff hv

/-- The members that are stamped do not count. -/
theorem Stamped.depth_iff (hlimit : 2 ≤ limit) {id status : String} {v v' : Value N}
    (h : Stamped id status v v') : v'.depth + 1 ≤ limit ↔ FitsStamped limit v := by
  rw [depth_of_isObject hlimit h.isObject]
  constructor
  · intro hdepth k x hk hx
    exact hdepth k x ((h.kept k hk).trans hx)
  · intro hfits k x hx
    by_cases hk : k ∈ stampedMembers
    · have hflat : x.depth = 0 := by
        simp only [stampedMembers, List.mem_cons, List.not_mem_nil, or_false] at hk
        rcases hk with rfl | rfl | rfl
        · exact (Option.some.inj (h.id.symm.trans hx)) ▸ rfl
        · exact (Option.some.inj (h.status.symm.trans hx)) ▸ rfl
        · exact (Option.some.inj (h.background.symm.trans hx)) ▸ rfl
      omega
    · exact hfits k x hk ((h.kept k hk).symm.trans hx)

/-- Stamping a response keeps it within the limit. -/
theorem Fits.stamped (hlimit : 2 ≤ limit) {stored : StoredResponse N} {id status : String}
    {response : Value N} (hfits : Fits limit stored)
    (h : Stamped id status stored.response response) : response.depth + 1 ≤ limit := by
  refine (h.depth_iff hlimit).mpr fun k x _ hx => ?_
  exact (depth_of_isObject hlimit (Value.isObject_of_get hx)).mp hfits.response k x hx

/-- A claim keeps a record within the limit. -/
theorem Fits.claim (hlimit : 2 ≤ limit) {stored updated : StoredResponse N} {id : String}
    {payload : ClaimBackgroundPayload N} (hfits : Fits limit stored)
    (h : prepareClaimBackground stored id = .ok (updated, payload)) : Fits limit updated := by
  obtain ⟨hupdated, hstamped⟩ := prepareClaimBackground_stamps h
  rw [hupdated]
  exact ⟨hfits.stamped hlimit hstamped, hfits.input, hfits.request⟩

/-- A record that ends with a given response is within the limit if the response is. -/
theorem Fits.finish_iff {stored : StoredResponse N} {response : Value N}
    (hfits : Fits limit stored) :
    Fits limit { stored with
      response, pendingUpstreamRequest := none, upstreamAuthorization := none } ↔
      response.depth + 1 ≤ limit :=
  ⟨Fits.response, fun h => ⟨h, hfits.input, nofun⟩⟩

/-- A completion keeps a record within the limit exactly if the client's object fits. -/
theorem Fits.complete_iff (hlimit : 2 ≤ limit) {completed : Value N}
    {stored updated : StoredResponse N} {id : String} (hfits : Fits limit stored)
    (h : prepareCompleteBackground completed stored id = .ok (updated, ())) :
    Fits limit updated ↔ FitsStamped limit completed := by
  obtain ⟨hupdated, hstamped⟩ := prepareCompleteBackground_stamps h
  rw [hupdated, hfits.finish_iff]
  exact hstamped.depth_iff hlimit

theorem depth_failedResponse_le (id message : String) :
    (failedResponse id message : Value N).depth ≤ 2 := by
  have herror : (Value.ofFields [("message", .str message), ("type", .str "server_error")] :
      Value N).depth ≤ 1 :=
    Value.depth_ofFields_le (by simp [Value.depth, Value.str, Json.depth])
  refine Value.depth_ofFields_le ?_
  simp only [List.forall_mem_cons, herror, true_and]
  simp [Value.depth, Value.str, Value.ofBool, Json.depth]

/-- A failure keeps a record within the limit. -/
theorem Fits.fail (hlimit : 3 ≤ limit) {stored : StoredResponse N} (hfits : Fits limit stored)
    (id message : String) :
    Fits limit { stored with
      response := failedResponse id message
      pendingUpstreamRequest := none
      upstreamAuthorization := none } :=
  hfits.finish_iff.mpr ((Nat.succ_le_succ (depth_failedResponse_le id message)).trans hlimit)

/-- A tombstone is within the limit if the record it replaces is. -/
theorem Fits.tombstone (hlimit : 2 ≤ limit) {stored : StoredResponse N}
    (hfits : Fits limit stored) (id : String) : Fits limit (tombstoneOf stored id) := by
  refine hfits.finish_iff.mpr
    ((Nat.succ_le_succ (Value.depth_ofFields_le (n := 0) ?_)).trans hlimit)
  simp [Value.depth, Value.str, Value.ofBool, Json.depth]

end ResponsesApiStore
