import ResponsesApiStore.System.Statistics

/-!
# The two ways to start a range

The statistics read a range from after an identifier. A server that can exclude the start of a
range is given the identifier itself, another one its successor, computed from the sequence
number alone. The two select the same entries exactly if the sequence number is not the largest
(`range_starts_agree`): the successor of `5-18446744073709551615` wraps around to `5-0`, and the
range takes in entries it is to come after (`range_start_wraps`).
-/

namespace ResponsesApiStore

open Redis (StreamId inRange parseRangeStart)

/-- The identifiers that a range from `start` to the end selects; none if it cannot be read. -/
def selects (start : String) (ids : List StreamId) : Option (List StreamId) :=
  (parseRangeStart start).toOption.map fun range => ids.filter (inRange range)

/-- What is asked of the starts after an identifier: whatever entries there are, both ways to
write it select those after the identifier; the successor is computed without overflow; and
identifiers are compared in their order. Entries are above `0-0`. -/
structure RangeStartsAgree (id : StreamId) (afterDelivered : Bool) : Prop where
  exclusive : ∀ ids : List StreamId, (∀ x ∈ ids, .zero < x) →
    selects (streamRangeStartAfter id.format true afterDelivered) ids =
      some (ids.filter fun x => id < x)
  inclusive : ∀ ids : List StreamId, (∀ x ∈ ids, .zero < x) →
    selects (streamRangeStartAfter id.format false afterDelivered) ids =
      selects (streamRangeStartAfter id.format true afterDelivered) ids
  successor : (id.seq + 1).toNat = id.seq.toNat + 1
  order : ∀ other : StreamId, streamIdLessThan id.format other.format = decide (id < other) ∧
    streamIdLessThan other.format id.format = decide (other < id)

/-- A start that can be read as a range of what comes after an identifier. -/
theorem selects_after {id : StreamId} {exclusive afterDelivered : Bool}
    (hnext : id.HasNext) {ids : List StreamId} (hids : ∀ x ∈ ids, .zero < x) :
    selects (streamRangeStartAfter id.format exclusive afterDelivered) ids =
      some (ids.filter fun x => id < x) := by
  obtain ⟨range, hrange, hin⟩ : ∃ range,
      parseRangeStart (streamRangeStartAfter id.format exclusive afterDelivered) = .ok range ∧
        ∀ x, .zero < x → inRange range x = decide (id < x) := by
    cases afterDelivered with
    | false => exact parseRangeStart_waiting (.inl hnext)
    | true =>
      obtain ⟨range, hrange, hin⟩ := parseRangeStart_after (.inl hnext)
      exact ⟨range, hrange, fun x _ => hin x⟩
  rw [selects, hrange, Except.toOption, Option.map_some]
  exact congrArg some (List.filter_congr fun x hx => hin x (hids x hx))

/-- Without a successor, the start with the next sequence number takes in the identifier
itself. -/
theorem mem_selects_of_not_hasNext {id : StreamId} (h : ¬id.HasNext) (afterDelivered : Bool) :
    selects (streamRangeStartAfter id.format false afterDelivered) [id] = some [id] := by
  have hseq : id.seq.toNat = 2 ^ 64 - 1 := by
    have hlt := id.seq.toNat_lt
    rw [StreamId.HasNext] at h
    omega
  have hformat : id.format ≠ "0-0" := by
    intro heq
    have hzero : id = .zero :=
      StreamId.format_injective (heq.trans (by decide : "0-0" = StreamId.zero.format))
    rw [hzero] at hseq
    exact absurd hseq (by decide)
  have hdash : id.format ≠ "-" := by
    intro heq
    have hparse := StreamId.parse_format id
    rw [heq, show StreamId.parse "-" = none by decide] at hparse
    cases hparse
  have hwraps : id.next ≤ id := by
    rw [StreamId.le_iff_toNat]
    have hzero : (id.seq + 1).toNat = 0 := by
      rw [UInt64.toNat_add, hseq]
      decide
    change id.ms.toNat * 2 ^ 64 + (id.seq + 1).toNat ≤ id.ms.toNat * 2 ^ 64 + id.seq.toNat
    omega
  have hstart : streamRangeStartAfter id.format false afterDelivered = id.next.format := by
    rw [streamRangeStartAfter]
    simp [hformat, hdash, streamIdAfter_format]
  rw [selects, hstart, Redis.parseRangeStart_format, Except.toOption, Option.map_some,
    List.filter_singleton]
  simp [inRange, hwraps]

/-- **When the two starts agree.** -/
theorem range_starts_agree (id : StreamId) (afterDelivered : Bool) :
    RangeStartsAgree id afterDelivered ↔ id.HasNext := by
  constructor
  · intro h
    by_contra hnext
    have hpositive : ∀ x ∈ [id], StreamId.zero < x := by
      intro x hx
      rw [List.mem_singleton.mp hx, StreamId.lt_iff_toNat]
      rw [StreamId.HasNext] at hnext
      simp only [StreamId.toNat, StreamId.zero]
      have hpos : 0 < id.seq.toNat := by omega
      simp only [UInt64.toNat_zero]
      omega
    have hinclusive := h.inclusive [id] hpositive
    rw [mem_selects_of_not_hasNext hnext, h.exclusive [id] hpositive] at hinclusive
    simp at hinclusive
  · intro hnext
    refine ⟨fun ids hids => selects_after hnext hids, fun ids hids => ?_, ?_, fun other => ?_⟩
    · rw [selects_after hnext hids, selects_after hnext hids]
    · rw [UInt64.toNat_add]
      exact Nat.mod_eq_of_lt hnext
    · exact ⟨streamIdLessThan_format id other, streamIdLessThan_format other id⟩

/-- **A start wraps around.** After `5-18446744073709551615` comes nothing of `5-3`, but a
server that is given the successor selects it. -/
theorem range_start_wraps :
    selects (streamRangeStartAfter "5-18446744073709551615" true true) [⟨5, 3⟩] = some [] ∧
      selects (streamRangeStartAfter "5-18446744073709551615" false true) [⟨5, 3⟩] =
        some [⟨5, 3⟩] := by
  decide +kernel

end ResponsesApiStore
