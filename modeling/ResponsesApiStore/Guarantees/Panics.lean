import ResponsesApiStore.Core.Lifecycle

/-!
# Index assignments that cannot fail

An index assignment panics on a value that is neither an object nor `null`, and a claim expects
the request to be there. The transitions make these assignments on responses that can be any
value. What saves them is that a status is read by looking up a member, which only an object has
(`isObject_of_status`): a record that passes a guard has an object for its response.
-/

namespace ResponsesApiStore

open Json (Value Serde)

variable {N α : Type}

/-- A transition ends with an error or with a record whose response is an object: it does not
panic. -/
def Safely (x : Except Fault (StoredResponse N × α)) : Prop :=
  (∃ err, x = .error (.error err)) ∨
    ∃ updated a, x = .ok (updated, a) ∧ updated.response.isObject = true

/-- A response with a status is an object. -/
theorem isObject_of_status {stored : StoredResponse N} {status : String}
    (h : storedResponseStatus stored = some status) : stored.response.isObject = true := by
  obtain ⟨x, hx, -⟩ := Option.bind_eq_some_iff.mp h
  exact Value.isObject_of_get hx

/-- An object takes any assignment, and stays an object. -/
theorem exists_assign {v : Value N} (h : v.isObject = true) (key : String) (x : Value N) :
    ∃ v', assign v key x = .ok v' ∧ v'.isObject = true := by
  obtain ⟨v', hv'⟩ := Value.exists_set_of_isObject h key x
  exact ⟨v', mapError_eq_ok_iff.mpr hv', Value.isObject_of_set hv'⟩

/-- What is built from members is an object. -/
theorem isObject_ofFields (fields : List (String × Value N)) :
    (Value.ofFields fields).isObject = true := rfl

theorem safely_prepareClaimBackground (stored : StoredResponse N) (id : String) :
    Safely (prepareClaimBackground stored id) := by
  rw [prepareClaimBackground]
  split_ifs with hterminal hprogress hclaimable
  · exact .inl ⟨_, rfl⟩
  · exact .inl ⟨_, rfl⟩
  · exact .inl ⟨_, rfl⟩
  obtain ⟨hpending, hqueued⟩ := isClaimableBackground_iff.mp (by simpa using hclaimable)
  obtain ⟨request, hrequest⟩ := Option.isSome_iff_exists.mp hpending
  obtain ⟨r₁, h₁, hobject₁⟩ := exists_assign (isObject_of_status hqueued) "status"
    (.str "in_progress")
  obtain ⟨r₂, h₂, hobject₂⟩ := exists_assign hobject₁ "id" (.str id)
  obtain ⟨r₃, h₃, hobject₃⟩ := exists_assign hobject₂ "background" (.ofBool true)
  rw [hrequest]
  refine .inr ⟨{ stored with response := r₃, pendingUpstreamRequest := some request },
    ⟨stored.upstream, request, stored.upstreamAuthorization⟩,
    bind_eq_ok_iff.mpr ⟨r₁, h₁, ?_⟩, hobject₃⟩
  exact bind_eq_ok_iff.mpr ⟨r₂, h₂, bind_eq_ok_iff.mpr ⟨r₃, h₃, rfl⟩⟩

theorem safely_prepareCompleteBackground (completed : Value N) (stored : StoredResponse N)
    (id : String) : Safely (prepareCompleteBackground completed stored id) := by
  rw [prepareCompleteBackground]
  split_ifs with hobject hterminal hprogress
  · exact .inl ⟨_, rfl⟩
  · exact .inl ⟨_, rfl⟩
  · exact .inl ⟨_, rfl⟩
  obtain ⟨r₁, h₁, hobject₁⟩ := exists_assign (by simpa using hobject) "id" (.str id)
  obtain ⟨r₂, h₂, hobject₂⟩ := exists_assign hobject₁ "status" (.str "completed")
  obtain ⟨r₃, h₃, hobject₃⟩ := exists_assign hobject₂ "background" (.ofBool true)
  refine .inr ⟨{ stored with
    response := r₃, pendingUpstreamRequest := none, upstreamAuthorization := none }, (),
    bind_eq_ok_iff.mpr ⟨r₁, h₁, ?_⟩, hobject₃⟩
  exact bind_eq_ok_iff.mpr ⟨r₂, h₂, bind_eq_ok_iff.mpr ⟨r₃, h₃, rfl⟩⟩

theorem safely_prepareFailBackground (message : String) (stored : StoredResponse N)
    (id : String) : Safely (prepareFailBackground message stored id) := by
  rw [prepareFailBackground]
  split_ifs
  · exact .inl ⟨_, rfl⟩
  · exact .inl ⟨_, rfl⟩
  · exact .inr ⟨_, _, rfl, isObject_ofFields _⟩

/-- **No transition panics.** Whatever record is stored, whatever a worker completes or fails
it with: a claim, a completion and a failure end with an error or with a record whose response
is an object, and the stale failure and the tombstone are such records. -/
theorem transitions_never_panic (stored : StoredResponse N) (id message : String)
    (completed : Value N) :
    Safely (prepareClaimBackground stored id) ∧
      Safely (prepareCompleteBackground completed stored id) ∧
      Safely (prepareFailBackground message stored id) ∧
      (applyStaleFailure stored id).response.isObject = true ∧
      (tombstoneOf stored id).response.isObject = true :=
  ⟨safely_prepareClaimBackground stored id, safely_prepareCompleteBackground completed stored id,
    safely_prepareFailBackground message stored id, isObject_ofFields _, isObject_ofFields _⟩

end ResponsesApiStore
