import ResponsesApiStore.Redis.Delivery

/-!
# The backlog of a group, and reading it page by page

What a group still has to do: the entries waiting to be delivered and the pending ones that are
still in the stream. Together they are the entries after its start that it has not acknowledged
(`Group.Accounts.backlog`).

A long list of identifiers is read in pages, each from a start that excludes the last identifier
of the page before. Of an ordered list, what comes after the last identifier of a page is what
the page left over (`filter_after_page`); a start excludes an identifier by being written with
`(`, or by being its successor, which exists unless the sequence number is the largest
(`StreamId.next_le_iff`).
-/

namespace Redis

/-! ### The backlog -/

namespace Stream

/-- The entries a group has not been delivered yet. -/
def waiting (s : Stream) (g : Group) : List StreamEntry :=
  s.entries.filter fun e => g.lastDelivered < e.id

/-- The pending entries of a group that are still in the stream. -/
def inProgress (s : Stream) (g : Group) : List Pending :=
  g.pel.filter fun p => (s.findEntry p.id).isSome

/-- The entries after the start of a group that it has not acknowledged. -/
def unacknowledged (s : Stream) (g : Group) : List StreamEntry :=
  s.entries.filter fun e => g.start < e.id ∧ e.id ∉ g.acked

variable {s : Stream} {g : Group}

theorem isSome_findEntry {id : StreamId} :
    (s.findEntry id).isSome ↔ ∃ e ∈ s.entries, e.id = id := by
  simp [findEntry, List.find?_isSome]

/-- The pending entries still in the stream, as entries. -/
theorem length_inProgress (s : Stream) (g : Group) :
    (s.inProgress g).length = (s.entries.filter fun e => ∃ p ∈ g.pel, p.id = e.id).length := by
  have hpending : ((s.inProgress g).map Pending.id).Nodup :=
    List.pairwise_map.mpr ((g.pel_sorted.filter _).imp fun hlt => hlt.ne)
  have hentries : ((s.entries.filter fun e => ∃ p ∈ g.pel, p.id = e.id).map
      StreamEntry.id).Nodup :=
    List.pairwise_map.mpr ((s.sorted.filter _).imp fun hlt => hlt.ne)
  rw [← List.length_map (f := Pending.id), ← List.length_map (f := StreamEntry.id)]
  refine ((List.perm_ext_iff_of_nodup hpending hentries).mpr fun id => ?_).length_eq
  simp only [inProgress, List.mem_map, List.mem_filter, isSome_findEntry, decide_eq_true_eq]
  constructor
  · rintro ⟨p, ⟨hp, e, he, heq⟩, rfl⟩
    exact ⟨e, ⟨he, p, hp, heq.symm⟩, heq⟩
  · rintro ⟨e, ⟨he, p, hp, heq⟩, rfl⟩
    exact ⟨p, ⟨hp, e, he, heq.symm⟩, heq⟩

end Stream

/-- **The backlog.** What waits and what is in progress is what is not acknowledged. -/
theorem Group.Accounts.backlog {s : Stream} {g : Group} (h : g.Accounts s.entries s.lastId) :
    (s.waiting g).length + (s.inProgress g).length = (s.unacknowledged g).length := by
  rw [s.length_inProgress g]
  simp only [Stream.waiting, Stream.unacknowledged, ← List.countP_eq_length_filter]
  rw [List.countP_eq_countP_filter_add s.entries
    (fun e => decide (g.start < e.id ∧ e.id ∉ g.acked)) fun e => decide (g.lastDelivered < e.id),
    List.countP_filter, List.countP_filter]
  congr 1
  · refine List.countP_congr fun e he => ?_
    simp only [decide_eq_true_eq, Bool.and_eq_true]
    refine ⟨fun hnew => ⟨⟨h.start_le.trans_lt hnew, fun hacked => ?_⟩, hnew⟩, fun hboth => hboth.2⟩
    exact absurd hnew (not_lt.mpr (h.acked_le _ hacked))
  · refine List.countP_congr fun e he => ?_
    simp only [decide_eq_true_eq, Bool.and_eq_true, Bool.not_eq_true', decide_eq_false_iff_not,
      not_lt]
    constructor
    · rintro ⟨p, hp, heq⟩
      refine ⟨⟨heq ▸ (h.known p hp).1, heq ▸ h.disjoint p hp⟩, heq ▸ g.pel_le p hp⟩
    · rintro ⟨⟨hstart, hacked⟩, hle⟩
      exact (h.covered e he hstart hle).resolve_right hacked

/-! ### Pages -/

/-- What an ordered list has after the last element of its first page is the rest of it. -/
theorem filter_after_page {ids : List StreamId} (hsorted : ids.Pairwise (· < ·)) {n : ℕ}
    {last : StreamId} (hlast : (ids.take n).getLast? = some last) :
    (ids.filter fun id => last < id) = ids.drop n := by
  have hpage := hsorted
  rw [← List.take_append_drop n ids] at hpage
  obtain ⟨htake, -, hacross⟩ := List.pairwise_append.mp hpage
  obtain ⟨init, hinit⟩ := List.getLast?_eq_some_iff.mp hlast
  have hmem : last ∈ ids.take n := List.mem_of_getLast? hlast
  calc ids.filter (fun id => last < id)
      = (ids.take n).filter (fun id => last < id) ++ (ids.drop n).filter fun id => last < id := by
        rw [← List.filter_append, List.take_append_drop]
    _ = [] ++ ids.drop n := by
        congr 1
        · refine List.filter_eq_nil_iff.mpr fun id hid => ?_
          rw [hinit] at hid htake
          rcases List.mem_append.mp hid with hid | hid
          · have hlt := (List.pairwise_append.mp htake).2.2 id hid last (by simp)
            simpa using hlt.le
          · simp [List.mem_singleton.mp hid]
        · exact List.filter_eq_self.mpr fun id hid => by simpa using hacross last hmem id hid
    _ = ids.drop n := List.nil_append _

namespace StreamId

theorem lt_iff_lex {a b : StreamId} : a < b ↔ a.ms < b.ms ∨ (a.ms = b.ms ∧ a.seq < b.seq) := by
  have ha := a.seq.toNat_lt
  have hb := b.seq.toNat_lt
  rw [lt_iff_toNat, toNat, toNat, UInt64.lt_iff_toNat_lt, UInt64.lt_iff_toNat_lt,
    ← UInt64.toNat_inj]
  omega

/-- The identifier with the next sequence number, which wraps around. -/
def next (id : StreamId) : StreamId := ⟨id.ms, id.seq + 1⟩

/-- The sequence number is not the largest. -/
def HasNext (id : StreamId) : Prop := id.seq.toNat + 1 < 2 ^ 64

instance (id : StreamId) : Decidable id.HasNext := inferInstanceAs (Decidable (_ < _))

/-- A range can start after the identifier: it has a successor, or it can be excluded. -/
def CanFollow (exclusive : Bool) (id : StreamId) : Prop :=
  id.HasNext ∨ (exclusive = true ∧ id ≠ .max)

theorem HasNext.ne_max {id : StreamId} (h : id.HasNext) : id ≠ .max := by
  rintro rfl
  exact absurd h (by decide)

theorem CanFollow.ne_max {exclusive : Bool} {id : StreamId} (h : id.CanFollow exclusive) :
    id ≠ .max :=
  h.elim HasNext.ne_max And.right

theorem next_le_iff {a b : StreamId} (h : a.HasNext) : a.next ≤ b ↔ a < b := by
  have hseq : (a.seq + 1).toNat = a.seq.toNat + 1 := by
    rw [UInt64.toNat_add]
    exact Nat.mod_eq_of_lt h
  simp only [le_iff_toNat, lt_iff_toNat, toNat, next, hseq]
  omega

theorem paren_notMem_format (id : StreamId) : '(' ∉ id.format.toList := by
  have hdigits : ∀ n : ℕ, '(' ∉ Nat.toDigits 10 n := by
    intro n h
    exact absurd (Nat.isDigit_of_mem_toDigits (by decide) (by decide) h) (by decide)
  rw [toList_format]
  simp [hdigits]

end StreamId

/-- The largest identifier cannot be excluded. -/
theorem parseRangeStart_exclusive (id : StreamId) :
    parseRangeStart ("(" ++ id.format) =
      if id = .max then .error invalidStart else .ok (true, id) := by
  have hlist : ("(" ++ id.format).toList = '(' :: id.format.toList := by simp
  have hne : "(" ++ id.format ≠ "-" := by
    intro h
    have := congrArg String.toList h
    rw [hlist] at this
    cases this
  rw [parseRangeStart, if_neg hne, hlist]
  simp

theorem parseRangeStart_format (id : StreamId) :
    parseRangeStart id.format = .ok (false, id) := by
  have hne : id.format ≠ "-" := by
    intro h
    have hparse := StreamId.parse_format id
    rw [h, show StreamId.parse "-" = none by decide] at hparse
    cases hparse
  rw [parseRangeStart, if_neg hne]
  split
  · rename_i cs hcs
    exact absurd (hcs ▸ List.mem_cons_self) id.paren_notMem_format
  · rw [StreamId.parse_format]

end Redis
