import ResponsesApiStore.Core.Store

/-!
# The lifecycle of a record

What the decisions of `Core/Store.lean` do to a record, one lemma for each, and the status of
a *text*. A text is read back as the record it was printed from whenever it is read back at
all, up to a `null` upstream request and what becomes of numbers, so the records that a text
encodes have one status (`Encodes.status_eq`), whether or not the reader accepts it.

`Moves` is the lifecycle as a relation on records: the moves that guarded transitions make.
-/

namespace ResponsesApiStore

open Json (Value Serde)

variable {N : Type}

/-! ### The decisions -/

theorem get_of_assign {v v' x : Value N} {key : String} (h : assign v key x = .ok v')
    (k : String) : v'.get k = if k = key then some x else v.get k :=
  Value.get_of_set (mapError_eq_ok_iff.mp h) k

theorem isClaimableBackground_iff {stored : StoredResponse N} :
    isClaimableBackground stored = true ↔
      stored.pendingUpstreamRequest.isSome ∧ storedResponseStatus stored = some "queued" := by
  simp [isClaimableBackground]

theorem isInProgressBackground_iff {stored : StoredResponse N} :
    isInProgressBackground stored = true ↔ storedResponseStatus stored = some "in_progress" := by
  simp [isInProgressBackground]

theorem isTerminalBackgroundStatus_iff {stored : StoredResponse N} :
    isTerminalBackgroundStatus stored = true ↔ storedResponseStatus stored = some "deleted" ∨
      storedResponseStatus stored = some "cancelled" ∨
      storedResponseStatus stored = some "completed" ∨
      storedResponseStatus stored = some "failed" := by
  simp [isTerminalBackgroundStatus, isDeletedTombstone, or_assoc]

theorem isDeletedTombstone_iff {stored : StoredResponse N} :
    isDeletedTombstone stored = true ↔ storedResponseStatus stored = some "deleted" := by
  simp [isDeletedTombstone]

/-- A saturated age passes a positive threshold exactly if the age does. -/
theorem isStaleEnqueued_iff {enqueuedAt now staleSeconds : Int64} (hpos : 0 < staleSeconds) :
    isStaleEnqueued (some enqueuedAt) now staleSeconds = true ↔
      staleSeconds.toInt ≤ now.toInt - enqueuedAt.toInt := by
  have hpos' : 0 < staleSeconds.toInt := by simpa [Int64.lt_iff_toInt_lt] using hpos
  have hmax := staleSeconds.toInt_le
  have hmin : Int64.minValue.toInt < 0 := by decide
  simp only [isStaleEnqueued, decide_eq_true_eq, Int64.le_iff_toInt_le, saturatingSub]
  by_cases hl : Int64.minValue.toInt ≤ now.toInt - enqueuedAt.toInt
  · by_cases hr : now.toInt - enqueuedAt.toInt ≤ Int64.maxValue.toInt
    · rw [Int64.toInt_ofIntClamp hl hr]
    · rw [Int64.ofIntClamp, dif_pos hl, dif_neg hr]
      omega
  · rw [Int64.ofIntClamp, dif_neg hl]
    omega

/-- What a claim does: the record was queued with a request, it is in progress afterwards, the
request and the authorization are kept, and the worker is given them. -/
theorem prepareClaimBackground_eq_ok {stored updated : StoredResponse N} {id : String}
    {payload : ClaimBackgroundPayload N}
    (h : prepareClaimBackground stored id = .ok (updated, payload)) :
    storedResponseStatus stored = some "queued" ∧
      stored.pendingUpstreamRequest = some payload.pendingUpstreamRequest ∧
      storedResponseStatus updated = some "in_progress" ∧
      updated.pendingUpstreamRequest = stored.pendingUpstreamRequest ∧
      updated.upstreamAuthorization = stored.upstreamAuthorization ∧
      payload.upstream = stored.upstream ∧
      payload.upstreamAuthorization = stored.upstreamAuthorization := by
  rw [prepareClaimBackground] at h
  split_ifs at h with hterminal hprogress hclaimable
  have hqueued := (isClaimableBackground_iff.mp (by simpa using hclaimable)).2
  rcases hpending : stored.pendingUpstreamRequest with _ | request
  · rw [hpending] at h
    cases h
  rw [hpending] at h
  -- the three assignments of the source, none of which may panic
  obtain ⟨r₁, h₁, h⟩ := bind_eq_ok_iff.mp h
  obtain ⟨r₂, h₂, h⟩ := bind_eq_ok_iff.mp h
  obtain ⟨r₃, h₃, h⟩ := bind_eq_ok_iff.mp h
  obtain ⟨rfl, rfl⟩ := Prod.mk.inj (Except.ok.inj h)
  have hstatus : r₃.get "status" = some (.str "in_progress") := by
    rw [get_of_assign h₃, get_of_assign h₂, get_of_assign h₁]
    simp
  exact ⟨hqueued, rfl, by simp [storedResponseStatus, hstatus, Value.asStr, Value.str], rfl,
    rfl, rfl, rfl⟩

/-- What a completion does: the record was in progress, it is completed afterwards, and
neither request nor authorization is left. -/
theorem prepareCompleteBackground_eq_ok {completed : Value N} {stored updated : StoredResponse N}
    {id : String} (h : prepareCompleteBackground completed stored id = .ok (updated, ())) :
    storedResponseStatus stored = some "in_progress" ∧
      storedResponseStatus updated = some "completed" ∧
      updated.pendingUpstreamRequest = none ∧ updated.upstreamAuthorization = none := by
  rw [prepareCompleteBackground] at h
  split_ifs at h with hobject hterminal hprogress
  have hstored := isInProgressBackground_iff.mp (by simpa using hprogress)
  obtain ⟨r₁, h₁, h⟩ := bind_eq_ok_iff.mp h
  obtain ⟨r₂, h₂, h⟩ := bind_eq_ok_iff.mp h
  obtain ⟨r₃, h₃, h⟩ := bind_eq_ok_iff.mp h
  obtain ⟨rfl, -⟩ := Prod.mk.inj (Except.ok.inj h)
  have hstatus : r₃.get "status" = some (.str "completed") := by
    rw [get_of_assign h₃, get_of_assign h₂]
    simp
  exact ⟨hstored, by simp [storedResponseStatus, hstatus, Value.asStr, Value.str], rfl, rfl⟩

theorem storedResponseStatus_failedResponse (stored : StoredResponse N) (id message : String) :
    storedResponseStatus { stored with
      response := failedResponse id message
      pendingUpstreamRequest := none
      upstreamAuthorization := none } = some "failed" := by
  simp [storedResponseStatus, failedResponse, Value.get_ofFields, Value.asStr, Value.str]

/-- What a failure does: the record was claimable or in progress, it is failed afterwards, and
neither request nor authorization is left. -/
theorem prepareFailBackground_eq_ok {message : String} {stored updated : StoredResponse N}
    {id : String} (h : prepareFailBackground message stored id = .ok (updated, ())) :
    (storedResponseStatus stored = some "queued" ∨
        storedResponseStatus stored = some "in_progress") ∧
      storedResponseStatus updated = some "failed" ∧
      updated.pendingUpstreamRequest = none ∧ updated.upstreamAuthorization = none := by
  rw [prepareFailBackground] at h
  split_ifs at h with hterminal hneither
  obtain ⟨rfl, -⟩ := Prod.mk.inj (Except.ok.inj h)
  refine ⟨?_, storedResponseStatus_failedResponse stored id message, rfl, rfl⟩
  by_cases hclaimable : isClaimableBackground stored = true
  · exact .inl (isClaimableBackground_iff.mp hclaimable).2
  · exact .inr (isInProgressBackground_iff.mp (by simpa [hclaimable] using hneither))

/-! ### The response object of a transition -/

/-- The members that a claim and a completion set. -/
def stampedMembers : List String := ["id", "status", "background"]

/-- The object `v'` is `v` with id, status and background flag set. -/
structure Stamped (id status : String) (v v' : Value N) : Prop where
  isObject : v'.isObject = true
  id : v'.get "id" = some (.str id)
  status : v'.get "status" = some (.str status)
  background : v'.get "background" = some (.ofBool true)
  kept : ∀ k, k ∉ stampedMembers → v'.get k = v.get k

/-- A claim stamps the response of the record and changes nothing else. -/
theorem prepareClaimBackground_stamps {stored updated : StoredResponse N} {id : String}
    {payload : ClaimBackgroundPayload N}
    (h : prepareClaimBackground stored id = .ok (updated, payload)) :
    updated = { stored with response := updated.response } ∧
      Stamped id "in_progress" stored.response updated.response := by
  rw [prepareClaimBackground] at h
  split_ifs at h
  rcases hpending : stored.pendingUpstreamRequest with _ | request
  · rw [hpending] at h
    cases h
  rw [hpending] at h
  obtain ⟨r₁, h₁, h⟩ := bind_eq_ok_iff.mp h
  obtain ⟨r₂, h₂, h⟩ := bind_eq_ok_iff.mp h
  obtain ⟨r₃, h₃, h⟩ := bind_eq_ok_iff.mp h
  obtain ⟨rfl, -⟩ := Prod.mk.inj (Except.ok.inj h)
  have hget : ∀ k, r₃.get k = if k = "background" then some (.ofBool true) else
      if k = "id" then some (.str id) else
      if k = "status" then some (.str "in_progress") else stored.response.get k := by
    intro k
    rw [get_of_assign h₃, get_of_assign h₂, get_of_assign h₁]
  refine ⟨by rw [← hpending], Value.isObject_of_set (mapError_eq_ok_iff.mp h₃), ?_, ?_, ?_, ?_⟩
  · simp [hget]
  · simp [hget]
  · simp [hget]
  · intro k hk
    simp only [stampedMembers, List.mem_cons, List.not_mem_nil, or_false, not_or] at hk
    simp [hget, hk]

/-- A completion stamps the client's object and drops request and authorization. -/
theorem prepareCompleteBackground_stamps {completed : Value N} {stored updated : StoredResponse N}
    {id : String} (h : prepareCompleteBackground completed stored id = .ok (updated, ())) :
    updated = { stored with
      response := updated.response
      pendingUpstreamRequest := none
      upstreamAuthorization := none } ∧ Stamped id "completed" completed updated.response := by
  rw [prepareCompleteBackground] at h
  split_ifs at h
  obtain ⟨r₁, h₁, h⟩ := bind_eq_ok_iff.mp h
  obtain ⟨r₂, h₂, h⟩ := bind_eq_ok_iff.mp h
  obtain ⟨r₃, h₃, h⟩ := bind_eq_ok_iff.mp h
  obtain ⟨rfl, -⟩ := Prod.mk.inj (Except.ok.inj h)
  have hget : ∀ k, r₃.get k = if k = "background" then some (.ofBool true) else
      if k = "status" then some (.str "completed") else
      if k = "id" then some (.str id) else completed.get k := by
    intro k
    rw [get_of_assign h₃, get_of_assign h₂, get_of_assign h₁]
  refine ⟨rfl, Value.isObject_of_set (mapError_eq_ok_iff.mp h₃), ?_, ?_, ?_, ?_⟩
  · simp [hget]
  · simp [hget]
  · simp [hget]
  · intro k hk
    simp only [stampedMembers, List.mem_cons, List.not_mem_nil, or_false, not_or] at hk
    simp [hget, hk]

/-- A cancellation stamps the response of the record. -/
theorem buildCancelledResponse_stamps {stored : StoredResponse N} {id : String}
    {response : Value N} (h : buildCancelledResponse stored id = .ok response) :
    Stamped id "cancelled" stored.response response := by
  obtain ⟨r₁, h₁, h⟩ := bind_eq_ok_iff.mp h
  obtain ⟨r₂, h₂, h₃⟩ := bind_eq_ok_iff.mp h
  have hget : ∀ k, response.get k = if k = "background" then some (.ofBool true) else
      if k = "status" then some (.str "cancelled") else
      if k = "id" then some (.str id) else stored.response.get k := by
    intro k
    rw [get_of_assign h₃, get_of_assign h₂, get_of_assign h₁]
  refine ⟨Value.isObject_of_set (mapError_eq_ok_iff.mp h₃), ?_, ?_, ?_, ?_⟩
  · simp [hget]
  · simp [hget]
  · simp [hget]
  · intro k hk
    simp only [stampedMembers, List.mem_cons, List.not_mem_nil, or_false, not_or] at hk
    simp [hget, hk]

/-- **The lifecycle.** The moves of the guarded transitions: a queued record is taken into
progress with its request and authorization kept; a record in progress completes; a record
queued or in progress fails; and finishing leaves neither request nor authorization. -/
inductive Moves (stored updated : StoredResponse N) : Prop
  | claims (hfrom : storedResponseStatus stored = some "queued")
      (hpending : stored.pendingUpstreamRequest.isSome)
      (hto : storedResponseStatus updated = some "in_progress")
      (hrequest : updated.pendingUpstreamRequest = stored.pendingUpstreamRequest)
      (hauth : updated.upstreamAuthorization = stored.upstreamAuthorization) :
      Moves stored updated
  | completes (hfrom : storedResponseStatus stored = some "in_progress")
      (hto : storedResponseStatus updated = some "completed")
      (hrequest : updated.pendingUpstreamRequest = none)
      (hauth : updated.upstreamAuthorization = none) : Moves stored updated
  | fails (hfrom : storedResponseStatus stored = some "queued" ∨
        storedResponseStatus stored = some "in_progress")
      (hto : storedResponseStatus updated = some "failed")
      (hrequest : updated.pendingUpstreamRequest = none)
      (hauth : updated.upstreamAuthorization = none) : Moves stored updated

/-- A record that moves was not terminal. -/
theorem Moves.not_terminal {stored updated : StoredResponse N} (h : Moves stored updated) :
    isTerminalBackgroundStatus stored = false := by
  rw [Bool.eq_false_iff, ne_eq, isTerminalBackgroundStatus_iff]
  cases h with
  | claims hfrom => simp [hfrom]
  | completes hfrom => simp [hfrom]
  | fails hfrom => rcases hfrom with h | h <;> simp [h]

/-! ### The status of a text -/

/-- A text is read as the record, or was printed from it. -/
def Encodes (S : Serde N) (text : String) (record : StoredResponse N) : Prop :=
  StoredResponse.ofText S text = .ok record ∨ record.toText S = .ok text

/-- Whatever record a text encodes, its status is the same. -/
theorem Encodes.status_eq {S : Serde N} {text : String} {r r' : StoredResponse N}
    (h : Encodes S text r) (h' : Encodes S text r') :
    storedResponseStatus r = storedResponseStatus r' := by
  rcases h with h | h <;> rcases h' with h' | h'
  · rw [Except.ok.inj (h.symm.trans h')]
  · rw [StoredResponse.ofText_toText h' h, storedResponseStatus_reread]
  · rw [StoredResponse.ofText_toText h h', storedResponseStatus_reread]
  · have hsame := congrArg storedResponseStatus (StoredResponse.dropNull_eq_of_toText h h')
    rwa [storedResponseStatus_dropNull, storedResponseStatus_dropNull] at hsame

/-- The text carries a status. -/
def HasStatus (S : Serde N) (text status : String) : Prop :=
  ∃ record : StoredResponse N, Encodes S text record ∧ storedResponseStatus record = some status

theorem HasStatus.of_encodes {S : Serde N} {text status : String} {r : StoredResponse N}
    (h : HasStatus S text status) (hr : Encodes S text r) :
    storedResponseStatus r = some status := by
  obtain ⟨r', hr', hstatus⟩ := h
  rw [hr.status_eq hr', hstatus]

/-- A text carries at most one status. -/
theorem HasStatus.unique {S : Serde N} {text status status' : String}
    (h : HasStatus S text status) (h' : HasStatus S text status') : status = status' := by
  obtain ⟨r, hr, hstatus⟩ := h
  exact Option.some.inj (hstatus.symm.trans (h'.of_encodes hr))

/-- There is a text and it carries a status. -/
def Holds (S : Serde N) (text : Option String) (status : String) : Prop :=
  ∃ t, text = some t ∧ HasStatus S t status

/-- There is no text, or a tombstone. -/
def Gone (S : Serde N) (text : Option String) : Prop := text = none ∨ Holds S text "deleted"

theorem holds_of_ofText {S : Serde N} {v status : String} {stored : StoredResponse N}
    (h : StoredResponse.ofText S v = .ok stored)
    (hstatus : storedResponseStatus stored = some status) : Holds S (some v) status :=
  ⟨v, rfl, stored, .inl h, hstatus⟩

theorem holds_of_toText {S : Serde N} {payload status : String} {record : StoredResponse N}
    (h : record.toText S = .ok payload)
    (hstatus : storedResponseStatus record = some status) : Holds S (some payload) status :=
  ⟨payload, rfl, record, .inr h, hstatus⟩

theorem not_gone_of_hasStatus {S : Serde N} {text status : String} (h : HasStatus S text status)
    (hstatus : status ≠ "deleted") : ¬Gone S (some text) := by
  rintro (hnone | ⟨t, htext, hdeleted⟩)
  · cases hnone
  · obtain rfl := Option.some.inj htext
    exact hstatus (h.unique hdeleted)

/-- A record that can be read and is no tombstone is not gone. -/
theorem not_gone_of_ofText {S : Serde N} {text : String} {stored : StoredResponse N}
    (h : StoredResponse.ofText S text = .ok stored) (hlive : isDeletedTombstone stored = false) :
    ¬Gone S (some text) := by
  rintro (hnone | ⟨t, htext, hdeleted⟩)
  · cases hnone
  · obtain rfl := Option.some.inj htext
    rw [isDeletedTombstone_iff.mpr (hdeleted.of_encodes (.inl h))] at hlive
    cases hlive

end ResponsesApiStore
