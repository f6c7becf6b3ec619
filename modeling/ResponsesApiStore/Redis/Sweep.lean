import ResponsesApiStore.Redis.Autoclaim

/-!
# A sweep over the pending entries

One `XAUTOCLAIM` looks at a piece of the pending entries list, and its cursor says where the next
piece begins: at the first entry it has not looked at, or at the start if there is none. So it
has looked at everything from where it started up to its cursor, and to the very end if the cursor
is the start (`mem_scanned_of_end`).

`Covers` says so of the entries up to a fixed bound, beyond which others may have become pending
since; it is kept by every command (`StreamStep.covers`).
-/

namespace Redis

variable {g : Group} {start : StreamId} {scan : ℕ}

/-- A scan that returns to the start has come to the end: it has looked at everything. -/
theorem mem_scanned_of_end (hpositive : ∀ p ∈ g.pel, StreamId.zero < p.id) {p : Pending}
    (hp : p ∈ g.pel) (hstart : start ≤ p.id) (hend : (autoclaimScan g start scan).next = .zero) :
    p ∈ (autoclaimScan g start scan).scanned := by
  have htail : p ∈ g.pel.filter fun p => start ≤ p.id :=
    List.mem_filter.mpr ⟨hp, decide_eq_true hstart⟩
  have hrest : (g.pel.filter fun p => start ≤ p.id).drop scan = [] := by
    rcases hdrop : (g.pel.filter fun p => start ≤ p.id).drop scan with _ | ⟨q, rest⟩
    · exact hdrop
    · have hq : q ∈ (g.pel.filter fun p => start ≤ p.id).drop scan := by
        rw [hdrop]
        exact List.mem_cons_self
      have hpos := hpositive q (List.mem_of_mem_filter (List.mem_of_mem_drop hq))
      have hzero : q.id = .zero := by
        simpa [autoclaimScan, hdrop] using hend
      exact absurd hpos (by rw [hzero]; exact lt_irrefl _)
  rw [← List.take_append_drop scan (g.pel.filter fun p => start ≤ p.id), hrest,
    List.append_nil] at htail
  exact htail

/-- **What a scan has covered.** Of the group's pending entries up to `bound`, which has been
delivered, those from `start` up to `next`, or to the end if `next` is `0-0`, are among `ids`. -/
def Covers (s : Option Stream) (name : String) (start next bound : StreamId)
    (ids : List StreamId) : Prop :=
  ∃ g, groupAt s name = some g ∧ bound ≤ g.lastDelivered ∧ ∀ p ∈ g.pel, p.id ≤ bound →
    start ≤ p.id → p.id < next ∨ next = .zero → p.id ∈ ids

/-- A scan covers its range. -/
theorem covers_scan {s : Option Stream} {name : String} {bound : StreamId}
    (hg : groupAt s name = some g) (hpositive : ∀ p ∈ g.pel, StreamId.zero < p.id)
    (hbound : bound ≤ g.lastDelivered) :
    Covers s name start (autoclaimScan g start scan).next bound
      ((autoclaimScan g start scan).scanned.map Pending.id) := by
  refine ⟨g, hg, hbound, fun p hp _ hstart hnext => ?_⟩
  rcases hnext with hlt | hend
  · exact List.mem_map_of_mem (mem_scanned hp hstart hlt)
  · exact List.mem_map_of_mem (mem_scanned_of_end hpositive hp hstart hend)

variable {s s' : Option Stream} {c : StreamCmd} {handed : List EntryReply} {name : String}

/-- What a group has pending up to a bound that has been delivered, it had pending before. -/
theorem StreamStep.pending_before (hstep : StreamStep s c s' handed)
    (hg : groupAt s name = some g) {g' : Group} (hg' : groupAt s' name = some g') {p : Pending}
    (hp : p ∈ g'.pel) (hle : p.id ≤ g.lastDelivered) : ∃ q ∈ g.pel, q.id = p.id := by
  obtain ⟨g'', hg'', -, hpel⟩ := hstep.pel_cases hg
  obtain rfl : g' = g'' := Option.some.inj (hg'.symm.trans hg'')
  exact (hpel p hp).resolve_right (not_lt.mpr hle)

/-- What is covered stays covered. -/
theorem StreamStep.covers (hstep : StreamStep s c s' handed) {start next bound : StreamId}
    {ids : List StreamId} (h : Covers s name start next bound ids) :
    Covers s' name start next bound ids := by
  obtain ⟨g, hg, hbound, hcovered⟩ := h
  obtain ⟨g', hg', hmono, -⟩ := hstep.pel_cases hg
  refine ⟨g', hg', hbound.trans hmono, fun p hp hle hstart hnext => ?_⟩
  obtain ⟨q, hq, heq⟩ := hstep.pending_before hg hg' hp (hle.trans hbound)
  rw [← heq] at hle hstart hnext ⊢
  exact hcovered q hq hle hstart hnext

/-- An entry looked at that is idle for long enough and still in the stream belongs to the consumer
afterwards. -/
theorem owned_of_scanned {stream : Stream} {choice : StreamChoice} {group consumer : String}
    {minIdle count : ℕ} {r : Except Error AutoclaimReply} {id : StreamId}
    (hrun : (StreamCmd.xautoclaim group consumer minIdle start.format count).run (some stream)
      choice = some (s', r))
    (hg : stream.group? group = some g)
    (hid : id ∈ (autoclaimScan g start choice.scan).scanned.map Pending.id)
    (hidle : choice.idle id = true) (hentry : (stream.findEntry id).isSome = true) :
    ∃ g', groupAt s' group = some g' ∧ ⟨id, consumer⟩ ∈ g'.pel := by
  obtain ⟨p, hp, rfl⟩ := List.mem_map.mp hid
  have hpel : p ∈ g.pel := List.mem_of_mem_filter (List.mem_of_mem_take hp)
  have hclaimed : p ∈ (autoclaimScan g start choice.scan).scanned.filter fun p =>
      choice.idle p.id && (stream.findEntry p.id).isSome := by
    refine List.mem_filter.mpr ⟨hp, ?_⟩
    rw [hidle, hentry]
    rfl
  simp only [StreamCmd.run, StreamId.parse_format, hg] at hrun
  split_ifs at hrun
  obtain ⟨rfl, -⟩ := Prod.mk.inj (Option.some.inj hrun)
  refine ⟨_, groupAt_updateGroup (show groupAt (some stream) group = some g from hg)
    fun _ => rfl, ?_⟩
  have hname : g.name = group := (Stream.group?_eq_some hg).2
  rw [if_pos hname]
  refine List.mem_map.mpr ⟨p, List.mem_filter.mpr ⟨hpel, ?_⟩, ?_⟩
  · rw [Option.isNone_eq_false_iff.mpr hentry]
    simp
  · rw [if_pos (decide_eq_true (List.mem_map_of_mem hclaimed))]

end Redis
