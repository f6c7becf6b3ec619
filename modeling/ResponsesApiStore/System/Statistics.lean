import ResponsesApiStore.System.Jobs
import ResponsesApiStore.Redis.Backlog

/-!
# The statistics procedure

What `GetBackgroundQueueStats` computes when its commands are answered from one stream
(`Answered`): `ensures_stats`. The procedure asks for the groups, then counts what waits and
what is in progress by paging. Both loops are one: of an ordered list of identifiers, each page
starts after the last identifier of the page before (`ensures_countPages`).

A server that cannot exclude the start of a range is asked for the successor of the last
identifier instead, computed without regard for overflow, and one that can refuses to exclude the
greatest identifier of all. `Countable` says that neither is asked for: of the last delivered
identifier of the group where its lag is not reported, and of the last identifier of every full
page.

The pending entries that are still in the stream are told from the others by comparing with the
first entry. This is right because a stream only loses its oldest entries
(`not_tombstoned_iff`).
-/

namespace ResponsesApiStore

open Json (Serde)
open Redis (Error StreamCmd StreamChoice EntryReply StreamEntry StreamId Stream Group Pending
  GroupInfo groupsOf inRange parseRangeStart)
open Interaction (Program)
open Interaction.Program

/-! ### Answers from one stream -/

/-- How the commands of the procedure are answered: the stream executes the command, the lags
being reported if `lagKnown`, and the capabilities are those of a server that can exclude the
start of a range if `exclusive`. -/
def Answered (exclusive lagKnown : Bool) (s : Option Stream) :
    (c : Cmd) → Option Stream → c.Reply → Prop
  | .stream c, s', r => ∃ choice, c.run s choice = some (s', r) ∧
      (lagKnown = true → groupsOf s = [] ∨ choice.lagKnown = true)
  | .capabilities, s', r => s' = s ∧
      ∃ known, r = .ok known ∧ known.exclusiveRangeSupported = exclusive
  | _, _, _ => False

variable {exclusive lagKnown : Bool} {s : Option Stream} {α : Type}

/-- A command that the stream can execute whatever it chooses. -/
theorem ensures_query {c : StreamCmd} {s' : Option Stream} {reply : StreamChoice → c.Reply}
    (hrun : ∀ choice, c.run s choice = some (s', reply choice))
    {post : Option Stream → c.Reply → Prop}
    (hpost : ∀ choice, (lagKnown = true → groupsOf s = [] ∨ choice.lagKnown = true) →
      post s' (reply choice)) :
    (send (.stream c)).Ensures (Answered exclusive lagKnown) post s := by
  refine ⟨⟨s', reply ⟨.zero, 0, 0, fun _ => false, true⟩, _, hrun _, fun _ => .inr rfl⟩, ?_⟩
  rintro s'' r ⟨choice, hr, hlag⟩
  obtain ⟨rfl, rfl⟩ := Prod.mk.inj (Option.some.inj ((hrun choice).symm.trans hr))
  exact hpost choice hlag

/-! ### Identifiers as the client reads them -/

theorem parseU64_repr (n : UInt64) : parseU64 n.toNat.repr.toList = some n := by
  have hplus : '+' ∉ n.toNat.repr.toList := by
    intro h
    rw [Nat.toList_repr] at h
    exact absurd (Nat.isDigit_of_mem_toDigits (by decide) (by decide) h) (by decide)
  rw [parseU64, Redis.digits64_repr]
  exact fun cs hcs => hplus (hcs ▸ List.mem_cons_self)

theorem parseStreamId_format (id : StreamId) : parseStreamId id.format = some (id.ms, id.seq) := by
  rw [parseStreamId, StreamId.splitOnce_format]
  simp only [parseU64_repr]

theorem streamIdAfter_format (id : StreamId) : streamIdAfter id.format = some id.next.format := by
  rw [streamIdAfter, parseStreamId_format]
  rfl

theorem streamIdLessThan_format (a b : StreamId) :
    streamIdLessThan a.format b.format = decide (a < b) := by
  rw [streamIdLessThan, parseStreamId_format, parseStreamId_format, Bool.eq_iff_iff]
  simp [StreamId.lt_iff_lex]

/-- The start of a range after an identifier, as it is written. -/
theorem streamRangeStartAfter_true (id : StreamId) :
    streamRangeStartAfter id.format exclusive true =
      if exclusive then "(" ++ id.format else id.next.format := by
  rw [streamRangeStartAfter]
  simp [streamIdAfter_format]

/-- If the start of a range after an identifier is accepted, it is the start of what comes after
it. -/
theorem inRange_after {last : StreamId} {range : Bool × StreamId}
    (hnext : exclusive = true ∨ last.HasNext)
    (hrange : parseRangeStart (streamRangeStartAfter last.format exclusive true) = .ok range)
    (id : StreamId) : inRange range id = decide (last < id) := by
  rw [streamRangeStartAfter_true] at hrange
  rcases exclusive with _ | _
  · rw [if_neg (by simp), Redis.parseRangeStart_format] at hrange
    obtain rfl := Except.ok.inj hrange
    rw [inRange, if_neg (by simp)]
    exact decide_eq_decide.mpr (StreamId.next_le_iff (hnext.resolve_left (by decide)))
  · rw [if_pos rfl, Redis.parseRangeStart_exclusive] at hrange
    split_ifs at hrange
    obtain rfl := Except.ok.inj hrange
    exact if_pos rfl

/-- The start of a range after an identifier that can be followed is accepted. -/
theorem parseRangeStart_after {last : StreamId} (hnext : last.CanFollow exclusive) :
    ∃ range, parseRangeStart (streamRangeStartAfter last.format exclusive true) = .ok range ∧
      ∀ id, inRange range id = decide (last < id) := by
  obtain ⟨range, hrange⟩ : ∃ range,
      parseRangeStart (streamRangeStartAfter last.format exclusive true) = .ok range := by
    rw [streamRangeStartAfter_true]
    split_ifs
    · exact ⟨_, (Redis.parseRangeStart_exclusive last).trans (if_neg hnext.ne_max)⟩
    · exact ⟨_, Redis.parseRangeStart_format _⟩
  exact ⟨range, hrange, inRange_after (hnext.elim .inr fun h => .inl h.1) hrange⟩

/-- The start of the range of what waits: after the last delivered identifier, and at the start
of the stream if that is zero. -/
theorem streamRangeStartAfter_false (last : StreamId) :
    streamRangeStartAfter last.format exclusive false =
      if last = .zero then "-" else streamRangeStartAfter last.format exclusive true := by
  split_ifs with hzero
  · subst hzero
    cases exclusive <;> decide
  · have hformat : last.format ≠ "0-0" := fun h =>
      hzero (StreamId.format_injective (h.trans (by decide : "0-0" = StreamId.zero.format)))
    have hdash : last.format ≠ "-" := by
      intro h
      have hparse := StreamId.parse_format last
      rw [h, show StreamId.parse "-" = none by decide] at hparse
      cases hparse
    rw [streamRangeStartAfter, streamRangeStartAfter]
    simp [hformat, hdash]

theorem parseRangeStart_dash : parseRangeStart "-" = .ok (false, .zero) := by
  simp [parseRangeStart]

/-- If the start of the range of what waits is accepted, it is the start of what comes after the
last delivered identifier. -/
theorem inRange_waiting {last : StreamId} {range : Bool × StreamId}
    (hnext : exclusive = true ∨ last.HasNext)
    (hrange : parseRangeStart (streamRangeStartAfter last.format exclusive false) = .ok range)
    (id : StreamId) (hid : StreamId.zero < id) : inRange range id = decide (last < id) := by
  rw [streamRangeStartAfter_false] at hrange
  split_ifs at hrange with hzero
  · rw [parseRangeStart_dash] at hrange
    obtain rfl := Except.ok.inj hrange
    simp [inRange, hzero, hid, hid.le]
  · exact inRange_after hnext hrange id

theorem parseRangeStart_waiting {last : StreamId} (hnext : last.CanFollow exclusive) :
    ∃ range, parseRangeStart (streamRangeStartAfter last.format exclusive false) = .ok range ∧
      ∀ id, StreamId.zero < id → inRange range id = decide (last < id) := by
  obtain ⟨range, hrange⟩ : ∃ range,
      parseRangeStart (streamRangeStartAfter last.format exclusive false) = .ok range := by
    rw [streamRangeStartAfter_false]
    split_ifs
    · exact ⟨_, parseRangeStart_dash⟩
    · exact (parseRangeStart_after hnext).imp fun _ h => h.1
  exact ⟨range, hrange, inRange_waiting (hnext.elim .inr fun h => .inl h.1) hrange⟩

/-! ### Counting by pages -/

/-- A range can start after the last identifier of every full page. -/
def PageEndsFollow (exclusive : Bool) (pageSize : ℕ) (ids : List StreamId) : Prop :=
  ∀ k id, ids[(k + 1) * pageSize - 1]? = some id → id.CanFollow exclusive

/-- There is no full page. -/
theorem pageEndsFollow_of_length_lt {pageSize : ℕ} {ids : List StreamId}
    (h : ids.length < pageSize) : PageEndsFollow exclusive pageSize ids := by
  intro k id hid
  have hlt := (List.getElem?_eq_some_iff.mp hid).1
  have hle : pageSize ≤ (k + 1) * pageSize := Nat.le_mul_of_pos_left _ (Nat.succ_pos k)
  omega

theorem inRange_mono {range : Bool × StreamId} {a b : StreamId} (ha : inRange range a = true)
    (hab : a < b) : inRange range b = true := by
  rcases range with ⟨_ | _, start⟩
  · simp only [inRange, Bool.false_eq_true, if_false, decide_eq_true_eq] at ha ⊢
    exact ha.trans hab.le
  · simp only [inRange, if_true, decide_eq_true_eq] at ha ⊢
    exact ha.trans hab

/-- What a range has after the last identifier of its first page. -/
theorem filter_inRange_after {ids : List StreamId} (hsorted : ids.Pairwise (· < ·))
    {range : Bool × StreamId} {n : ℕ} {last : StreamId}
    (hlast : ((ids.filter (inRange range)).take n).getLast? = some last) :
    (ids.filter fun id => last < id) = (ids.filter (inRange range)).drop n := by
  rw [← Redis.filter_after_page (hsorted.filter _) hlast, List.filter_filter]
  refine List.filter_congr fun id _ => ?_
  have hin : inRange range last = true :=
    (List.mem_filter.mp (List.mem_of_mem_take (List.mem_of_getLast? hlast))).2
  rcases hlt : decide (last < id) with _ | _
  · rfl
  · simp [inRange_mono hin (of_decide_eq_true hlt)]

/-- **Counting by pages.** If a query answers with the first identifiers of a range, the loop
counts the identifiers of the range that satisfy `P`. -/
theorem ensures_countPages {ids : List StreamId} (hsorted : ids.Pairwise (· < ·)) {pageSize : ℕ}
    (hpos : 0 < pageSize) {query : String → Act (List String)} {weigh : List String → UInt64}
    {P : StreamId → Bool}
    (hquery : ∀ start range, parseRangeStart start = .ok range →
      (query start).run.Ensures (Answered exclusive lagKnown) (fun s' r => s' = s ∧
        r = .ok (((ids.filter (inRange range)).take pageSize).map StreamId.format)) s)
    (hweigh : ∀ page : List StreamId, (∀ id ∈ page, id ∈ ids) →
      weigh (page.map StreamId.format) = UInt64.ofNat (page.countP P))
    {fuel : ℕ} {start : String} {range : Bool × StreamId} {total : UInt64}
    (hstart : parseRangeStart start = .ok range)
    (hnext : PageEndsFollow exclusive pageSize (ids.filter (inRange range)))
    (hfuel : (ids.filter (inRange range)).length < fuel) :
    (BackgroundQueue.countPages pageSize exclusive query weigh fuel start total).run.Ensures
      (Answered exclusive lagKnown) (fun s' r => s' = s ∧
        r = .ok (total + UInt64.ofNat ((ids.filter (inRange range)).countP P))) s := by
  induction fuel generalizing start range total with
  | zero => exact absurd hfuel (Nat.not_lt_zero _)
  | succ fuel ih =>
    rw [BackgroundQueue.countPages, ensures_except_bind_iff]
    refine (hquery start range hstart).mono ?_
    rintro s' r ⟨rfl, rfl⟩
    generalize hrest : ids.filter (inRange range) = rest at *
    have hmem : ∀ id ∈ rest.take pageSize, id ∈ ids := fun id hid =>
      List.mem_of_mem_filter (hrest ▸ List.mem_of_mem_take hid)
    dsimp only
    rw [List.getLast?_map]
    rcases hlast : (rest.take pageSize).getLast? with _ | last
    · -- an empty page: nothing is left
      have hnil : rest = [] := by
        rw [List.getLast?_eq_none_iff, List.take_eq_nil_iff] at hlast
        exact hlast.resolve_left hpos.ne'
      subst hnil
      exact ⟨rfl, by simp⟩
    simp only [Option.map_some]
    rw [hweigh _ hmem, List.length_map]
    split_ifs with hshort
    · -- a short page: it is all that is left
      have hall : rest.take pageSize = rest := by
        refine List.take_of_length_le ?_
        rw [List.length_take] at hshort
        omega
      rw [hall]
      exact ⟨rfl, rfl⟩
    · have hfull : pageSize ≤ rest.length := by
        rw [List.length_take] at hshort
        omega
      have hlastNext : last.CanFollow exclusive := by
        refine hnext 0 last ?_
        rw [List.getLast?_eq_getElem?, List.length_take, Nat.min_eq_left hfull,
          List.getElem?_take_of_lt (by omega)] at hlast
        rwa [Nat.zero_add, Nat.one_mul]
      obtain ⟨range', hrange', hin⟩ := parseRangeStart_after hlastNext
      have hdrop : ids.filter (inRange range') = rest.drop pageSize := by
        rw [← hrest] at hlast ⊢
        rw [← filter_inRange_after hsorted hlast]
        exact List.filter_congr fun id _ => hin id
      have hcount : rest.countP P =
        (rest.take pageSize).countP P + (rest.drop pageSize).countP P := by
        rw [← List.countP_append, List.take_append_drop]
      rw [hcount, UInt64.ofNat_add, ← UInt64.add_assoc, ← hdrop]
      refine ih hrange' ?_ ?_ <;> rw [hdrop]
      · intro k id hid
        refine hnext (k + 1) id ?_
        rw [List.getElem?_drop] at hid
        rw [← hid]
        congr 1
        have hmul : (k + 1 + 1) * pageSize = pageSize + (k + 1) * pageSize := by
          rw [Nat.succ_mul, Nat.add_comm]
        have hle : pageSize ≤ (k + 1) * pageSize := Nat.le_mul_of_pos_left _ (Nat.succ_pos k)
        omega
      · rw [List.length_drop]
        omega

/-! ### What waits and what is in progress -/

variable {stream : Stream} {g : Group}

theorem run_xrange {start : String} {range : Bool × StreamId}
    (hstart : parseRangeStart start = .ok range) (count : ℕ) (choice : StreamChoice) :
    (StreamCmd.xrange start "+" count).run (some stream) choice =
      some (some stream, .ok (((stream.entries.filter fun e => inRange range e.id).take count).map
        StreamEntry.reply)) := by
  simp [StreamCmd.run, hstart, Redis.parseRangeStop]

theorem run_xpending {group start : String} {range : Bool × StreamId}
    (hg : stream.group? group = some g) (hstart : parseRangeStart start = .ok range) (count : ℕ)
    (choice : StreamChoice) :
    (StreamCmd.xpending group start "+" count).run (some stream) choice =
      some (some stream, .ok (((g.pel.filter fun p => inRange range p.id).take count).map fun p =>
        p.id.format)) := by
  simp [StreamCmd.run, hg, hstart, Redis.parseRangeStop]

theorem filter_inRange_zero (ids : List StreamId) : ids.filter (inRange (false, .zero)) = ids :=
  List.filter_eq_self.mpr fun id _ => by simp [inRange, StreamId.zero_le]

/-- Counting what comes after an identifier. -/
theorem ensures_countPendingFallback {fuel : ℕ} {last : StreamId}
    (hpositive : ∀ e ∈ stream.entries, .zero < e.id) (hfuel : stream.entries.length < fuel)
    (hnext : last.CanFollow exclusive)
    (hpages : PageEndsFollow exclusive 1000
      ((stream.entries.filter fun e => last < e.id).map StreamEntry.id)) :
    (BackgroundQueue.countPendingFallback fuel last.format exclusive).run.Ensures
      (Answered exclusive lagKnown) (fun s' r => s' = some stream ∧
        r = .ok (UInt64.ofNat (stream.entries.filter fun e => last < e.id).length))
      (some stream) := by
  obtain ⟨range, hrange, hin⟩ := parseRangeStart_waiting hnext
  have hwaiting : (stream.entries.map StreamEntry.id).filter (inRange range) =
      (stream.entries.filter fun e => last < e.id).map StreamEntry.id := by
    rw [List.filter_map]
    congr 1
    exact List.filter_congr fun e he => hin e.id (hpositive e he)
  rw [BackgroundQueue.countPendingFallback]
  refine (ensures_countPages (P := fun _ => true) (List.pairwise_map.mpr stream.sorted)
    (by decide) (fun start range' hstart => ?_) (fun page _ => by simp) hrange ?_ ?_).mono ?_
  · rw [ensures_except_bind_iff, ensures_storage]
    refine ensures_query (run_xrange hstart 1000) fun choice _ => ?_
    refine ⟨rfl, congrArg Except.ok ?_⟩
    rw [List.filter_map, ← List.map_take, List.map_map, List.map_map]
    rfl
  · rw [hwaiting]
    exact hpages
  · rw [hwaiting, List.length_map]
    exact (List.length_filter_le _ _).trans_lt hfuel
  · rintro s' r ⟨rfl, rfl⟩
    rw [hwaiting]
    simp

/-- **The comparison is right.** A pending entry is not before the first entry of the stream
exactly when it is in the stream. -/
theorem not_tombstoned_iff (hs : stream.Accounts) (hg : g ∈ stream.groups) {p : Pending}
    (hp : p ∈ g.pel) :
    (!isTombstonedPelEntry p.id.format (stream.entries.head?.map fun e => e.id.format)) =
      (stream.findEntry p.id).isSome := by
  rw [Bool.eq_iff_iff, Stream.isSome_findEntry]
  rcases hentries : stream.entries with _ | ⟨first, rest⟩
  · simp [isTombstonedPelEntry]
  have hsorted := stream.sorted
  rw [hentries, List.pairwise_cons] at hsorted
  simp only [isTombstonedPelEntry, List.head?_cons, Option.map_some, streamIdLessThan_format,
    Bool.not_eq_true', decide_eq_false_iff_not, not_lt]
  constructor
  · intro hle
    rcases ((hs.groups g hg).known p hp).2.2 with hin | hbelow
    · exact hentries ▸ hin
    · exact absurd (hbelow first (by simp [hentries])) (not_lt.mpr hle)
  · rintro ⟨e, he, heq⟩
    rcases List.mem_cons.mp he with rfl | he
    · exact heq.le
    · exact heq ▸ (hsorted.1 e he).le

/-- Counting what is in progress. -/
theorem ensures_countProcessableInProgress {fuel : ℕ} {group : String} (hs : stream.Accounts)
    (hg : stream.group? group = some g) (hfuel : g.pel.length < fuel)
    (hnext : PageEndsFollow exclusive 100 (g.pel.map Pending.id)) :
    (BackgroundQueue.countProcessableInProgress fuel group exclusive).run.Ensures
      (Answered exclusive lagKnown) (fun s' r => s' = some stream ∧
        r = .ok (UInt64.ofNat (stream.inProgress g).length)) (some stream) := by
  have hmem := (Stream.group?_eq_some hg).1
  have hmin : BackgroundQueue.getStreamMinId.run.Ensures (Answered exclusive lagKnown)
      (fun s' r => s' = some stream ∧
        r = .ok (stream.entries.head?.map fun e => e.id.format)) (some stream) := by
    rw [BackgroundQueue.getStreamMinId, ensures_except_bind_iff, ensures_storage]
    refine ensures_query (run_xrange parseRangeStart_dash 1) fun choice _ => ?_
    refine ⟨rfl, congrArg Except.ok ?_⟩
    have hall : (stream.entries.filter fun e => inRange (false, .zero) e.id) = stream.entries :=
      List.filter_eq_self.mpr fun e _ => by simp [inRange, StreamId.zero_le]
    rw [hall]
    rcases stream.entries with _ | ⟨first, rest⟩ <;> rfl
  rw [BackgroundQueue.countProcessableInProgress, ensures_except_bind_iff]
  refine hmin.mono ?_
  rintro s' r ⟨rfl, rfl⟩
  refine (ensures_countPages (P := fun id => (stream.findEntry id).isSome)
    (List.pairwise_map.mpr g.pel_sorted) (by decide) (fun start range hstart => ?_)
    (fun page hpage => ?_) parseRangeStart_dash ?_ ?_).mono ?_
  · rw [ensures_storage]
    refine ensures_query (run_xpending hg hstart 100) fun choice _ => ?_
    refine ⟨rfl, congrArg Except.ok ?_⟩
    rw [List.filter_map, ← List.map_take, List.map_map]
    rfl
  · rw [List.countP_eq_length_filter, List.filter_map, List.length_map]
    congr 2
    refine List.filter_congr fun id hid => ?_
    obtain ⟨p, hp, rfl⟩ := List.mem_map.mp (hpage id hid)
    exact not_tombstoned_iff hs hmem hp
  · rw [filter_inRange_zero]
    exact hnext
  · rw [filter_inRange_zero, List.length_map]
    exact hfuel
  · rintro s' r ⟨rfl, rfl⟩
    rw [filter_inRange_zero, List.countP_map, List.countP_eq_length_filter, UInt64.zero_add]
    exact ⟨rfl, rfl⟩

/-! ### The procedure -/

/-- The statistics are exact: the entries that wait, the pending entries still in the stream,
and, as their sum, the entries not acknowledged. -/
structure ExactStats (stream : Stream) (g : Group) (stats : BackgroundQueueStats) : Prop where
  pending : stats.pending.toNat = (stream.waiting g).length
  inProgress : stats.inProgress.toNat = (stream.inProgress g).length
  workload : stats.workload.toNat = (stream.waiting g).length + (stream.inProgress g).length
  unacknowledged : stats.workload.toNat = (stream.unacknowledged g).length

/-- A range can start after all identifiers from which a count continues. -/
def Countable (exclusive lagKnown : Bool) (stream : Stream) (g : Group) : Prop :=
  (lagKnown = true ∨ (g.lastDelivered.CanFollow exclusive ∧
    PageEndsFollow exclusive 1000 ((stream.waiting g).map StreamEntry.id))) ∧
  PageEndsFollow exclusive 100 (g.pel.map Pending.id)

theorem toNat_saturatingAdd {a b : UInt64} (h : a.toNat + b.toNat < 2 ^ 64) :
    (BackgroundQueue.saturatingAdd a b).toNat = a.toNat + b.toNat := by
  rw [BackgroundQueue.saturatingAdd, if_pos h, UInt64.toNat_add]
  exact Nat.mod_eq_of_lt h

/-- The two counts make exact statistics; they are far from the largest number. -/
theorem exactStats (hs : stream.Accounts) (hg : g ∈ stream.groups) :
    ExactStats stream g ⟨UInt64.ofNat (stream.waiting g).length,
      UInt64.ofNat (stream.inProgress g).length,
      BackgroundQueue.saturatingAdd (UInt64.ofNat (stream.waiting g).length)
        (UInt64.ofNat (stream.inProgress g).length)⟩ := by
  have hbacklog := (hs.groups g hg).backlog
  have hle : (stream.unacknowledged g).length ≤ stream.entries.length := List.length_filter_le _ _
  have hlength := hs.length
  have hwaiting : (UInt64.ofNat (stream.waiting g).length).toNat = (stream.waiting g).length := by
    rw [UInt64.toNat_ofNat', Nat.mod_eq_of_lt (by omega)]
  have hprogress : (UInt64.ofNat (stream.inProgress g).length).toNat =
      (stream.inProgress g).length := by
    rw [UInt64.toNat_ofNat', Nat.mod_eq_of_lt (by omega)]
  have hsum : (BackgroundQueue.saturatingAdd (UInt64.ofNat (stream.waiting g).length)
      (UInt64.ofNat (stream.inProgress g).length)).toNat =
      (stream.waiting g).length + (stream.inProgress g).length := by
    rw [toNat_saturatingAdd (by rw [hwaiting, hprogress]; omega), hwaiting, hprogress]
  exact ⟨hwaiting, hprogress, hsum, hsum.trans hbacklog⟩

/-- A group as the stream reports it. -/
def infoOf (stream : Stream) (choice : StreamChoice) (g : Group) : GroupInfo :=
  ⟨g.name, g.lastDelivered.format,
    if choice.lagKnown then some (stream.waiting g).length else none⟩

theorem findGroup_infoOf (stream : Stream) (choice : StreamChoice) (group : String) :
    BackgroundQueue.findGroup (stream.groups.map (infoOf stream choice)) group =
      (stream.group? group).map (infoOf stream choice) := by
  rw [BackgroundQueue.findGroup, List.find?_map]
  rfl

theorem ensures_loadStreamGroups (stream : Stream) :
    BackgroundQueue.loadStreamGroups.run.Ensures (Answered exclusive lagKnown)
      (fun s' r => s' = some stream ∧ ∃ choice : StreamChoice,
        r = .ok (stream.groups.map (infoOf stream choice)) ∧
        (lagKnown = true → stream.groups = [] ∨ choice.lagKnown = true)) (some stream) := by
  rw [BackgroundQueue.loadStreamGroups, ensures_except_bind_iff, ensures_outcome, ensures_storage]
  refine ensures_query (c := .xinfoGroups) (fun choice => rfl) fun choice hlag => ?_
  exact ⟨rfl, choice, rfl, hlag⟩

/-- The statistics of a group, from what the stream reports about it. -/
theorem ensures_statsFromGroup {fuel : ℕ} {group : String} {choice : StreamChoice}
    (hs : stream.Accounts) (hg : stream.group? group = some g)
    (hlag : lagKnown = true → choice.lagKnown = true)
    (hfuel : stream.entries.length < fuel ∧ g.pel.length < fuel)
    (hcountable : Countable exclusive lagKnown stream g) :
    (BackgroundQueue.statsFromGroup fuel group (infoOf stream choice g) exclusive).run.Ensures
      (Answered exclusive lagKnown) (fun s' r => s' = some stream ∧
        ∃ stats, r = .ok stats ∧ ExactStats stream g stats) (some stream) := by
  have hrest : (do
      let inProgress ← BackgroundQueue.countProcessableInProgress fuel group exclusive
      return ⟨UInt64.ofNat (stream.waiting g).length, inProgress,
        BackgroundQueue.saturatingAdd (UInt64.ofNat (stream.waiting g).length) inProgress⟩ :
      Act BackgroundQueueStats).run.Ensures (Answered exclusive lagKnown) (fun s' r =>
        s' = some stream ∧ ∃ stats, r = .ok stats ∧ ExactStats stream g stats) (some stream) := by
    rw [ensures_except_bind_iff]
    refine (ensures_countProcessableInProgress hs hg hfuel.2 hcountable.2).mono ?_
    rintro s' r ⟨rfl, rfl⟩
    exact ⟨rfl, _, rfl, exactStats hs (Stream.group?_eq_some hg).1⟩
  rw [BackgroundQueue.statsFromGroup]
  rcases hknown : choice.lagKnown with _ | _
  · simp only [infoOf, hknown, Bool.false_eq_true, if_false]
    obtain ⟨hlast, hpages⟩ : g.lastDelivered.CanFollow exclusive ∧
        PageEndsFollow exclusive 1000 ((stream.waiting g).map StreamEntry.id) := by
      refine hcountable.1.resolve_left fun hlagKnown => ?_
      rw [hlag hlagKnown] at hknown
      cases hknown
    rw [ensures_except_bind_iff]
    refine (ensures_countPendingFallback hs.positive hfuel.1 hlast hpages).mono ?_
    rintro s' r ⟨rfl, rfl⟩
    exact hrest
  · simp only [infoOf, hknown, if_true]
    exact hrest

/-- The stream after the first group of it was created. -/
def withFirstGroup (stream : Stream) (group : String) : Stream :=
  { stream with groups := [.create group .zero] }

theorem ensures_ensureConsumerGroup {group : String} (hgroups : stream.groups = []) :
    (BackgroundQueue.ensureConsumerGroup group "0-0").run.Ensures (Answered exclusive lagKnown)
      (fun s' r => s' = some (withFirstGroup stream group) ∧ r = .ok true) (some stream) := by
  have hrun : ∀ choice, (StreamCmd.xgroupCreate group "0-0").run (some stream) choice =
      some (some (withFirstGroup stream group), .ok ()) := by
    intro choice
    have hstart : Redis.parseGroupStart stream "0-0" = some .zero := by
      rw [Redis.parseGroupStart, if_neg (by decide)]
      decide
    simp [StreamCmd.run, hstart, Stream.group?, hgroups, withFirstGroup]
  rw [BackgroundQueue.ensureConsumerGroup, ensures_except_bind_iff, ensures_outcome,
    ensures_storage]
  exact ensures_query hrun fun choice _ => ⟨rfl, rfl⟩

/-- The stream a request for statistics counts in. -/
def statsStream (stream : Stream) (group : String) : Stream :=
  if stream.groups.isEmpty then withFirstGroup stream group else stream

/-- The groups as they are reported; a stream without any is given the one asked for. -/
theorem ensures_groupsForStats {group : String} :
    (BackgroundQueue.groupsForStats group).run.Ensures (Answered exclusive lagKnown)
      (fun s' r => s' = some (statsStream stream group) ∧ ∃ choice : StreamChoice,
        r = .ok ((statsStream stream group).groups.map
          (infoOf (statsStream stream group) choice)) ∧
        (lagKnown = true → (statsStream stream group).groups = [] ∨ choice.lagKnown = true))
      (some stream) := by
  rw [BackgroundQueue.groupsForStats, ensures_except_bind_iff]
  refine (ensures_loadStreamGroups stream).mono ?_
  rintro s' r ⟨rfl, choice, rfl, hlag⟩
  dsimp only
  rw [findGroup_infoOf]
  rcases hempty : stream.groups with _ | ⟨g, gs⟩
  · have hstream : statsStream stream group = withFirstGroup stream group := by
      rw [statsStream, hempty, if_pos (by simp)]
    rw [if_pos (by simp [Stream.group?, hempty]), ensures_except_bind_iff, hstream]
    refine (ensures_ensureConsumerGroup hempty).mono ?_
    rintro s' r ⟨rfl, rfl⟩
    exact ensures_loadStreamGroups (withFirstGroup stream group)
  · have hstream : statsStream stream group = stream := by
      rw [statsStream, hempty, if_neg (by simp)]
    rw [if_neg (by simp), hstream, ← hempty]
    exact ⟨rfl, choice, rfl, hlag⟩

/-- What a request for statistics returns and leaves: nothing is known of an absent stream; a
stream without groups is given the one asked for; otherwise the stream is left as it is, and
the group is found or not. -/
inductive StatsAnswer (cfg : StoreConfig) (group : String) :
    Option Stream → Option Stream → RpcResult → Prop
  | absent : StatsAnswer cfg group none none (.ok (.queueStats ⟨0, 0, 0⟩))
  | unknown {stream : Stream} (hgroups : stream.groups ≠ [])
      (hg : stream.group? group = none) :
      StatsAnswer cfg group (some stream) (some stream) (.error (.status ⟨.notFound,
        "consumer group " ++ group ++ " not found for stream " ++ cfg.streamKey⟩))
  | created {stream : Stream} {stats : BackgroundQueueStats} (hgroups : stream.groups = [])
      (hstats : ExactStats stream (.create group .zero) stats) :
      StatsAnswer cfg group (some stream) (some (withFirstGroup stream group))
        (.ok (.queueStats stats))
  | found {stream : Stream} {g : Group} {stats : BackgroundQueueStats}
      (hg : stream.group? group = some g) (hstats : ExactStats stream g stats) :
      StatsAnswer cfg group (some stream) (some stream) (.ok (.queueStats stats))

/-- The condition of a request for statistics on the stream it finds. -/
def StatsCountable (exclusive lagKnown : Bool) (s : Option Stream) (group : String) : Prop :=
  ∀ stream g, s = some stream → (statsStream stream group).group? group = some g →
    Countable exclusive lagKnown (statsStream stream group) g

/-- The loops of a request for statistics have fuel enough. -/
def StatsFuel (fuel : ℕ) (s : Option Stream) (group : String) : Prop :=
  ∀ stream g, s = some stream → (statsStream stream group).group? group = some g →
    (statsStream stream group).entries.length < fuel ∧ g.pel.length < fuel

variable {cfg : StoreConfig} {fuel : ℕ} {group : String}

theorem accounts_statsStream (hs : stream.Accounts) : (statsStream stream group).Accounts := by
  rw [statsStream]
  split_ifs with hempty
  · have hnew : stream.group? group = none := by simp_all [Stream.group?]
    have hcreated := hs.createGroup hnew .zero
    rwa [List.isEmpty_iff.mp hempty] at hcreated
  · exact hs

/-- The answer of a request for statistics, by what it finds in the stream it counts in. -/
theorem StatsAnswer.of_found {stats : BackgroundQueueStats}
    (hg : (statsStream stream group).group? group = some g)
    (hstats : ExactStats (statsStream stream group) g stats) :
    StatsAnswer cfg group (some stream) (some (statsStream stream group))
      (.ok (.queueStats stats)) := by
  rw [statsStream] at hg hstats ⊢
  split_ifs at hg hstats ⊢ with hempty
  · obtain rfl : Group.create group .zero = g := by
      simpa [withFirstGroup, Stream.group?, Group.create] using hg
    exact .created (List.isEmpty_iff.mp hempty)
      ⟨hstats.pending, hstats.inProgress, hstats.workload, hstats.unacknowledged⟩
  · exact .found hg hstats

/-- The error for a group that is not there keeps its text. -/
theorem storeErrorToStatus_unknown (group streamKey : String) :
    storeErrorToStatus (.notFound ("consumer group " ++ group ++ " not found for stream " ++
      streamKey)) =
      ⟨.notFound, "consumer group " ++ group ++ " not found for stream " ++ streamKey⟩ := by
  have hmessage : containsText ("consumer group " ++ group ++ " not found for stream " ++
      streamKey) "consumer group" = true := by
    refine List.any_eq_true.mpr ⟨_, (List.mem_tails _ _).mpr List.suffix_rfl, ?_⟩
    simp
  rw [storeErrorToStatus, if_pos hmessage]

theorem StatsAnswer.of_unknown (hg : (statsStream stream group).group? group = none) :
    StatsAnswer cfg group (some stream) (some (statsStream stream group)) (.error (.status
      ⟨.notFound, "consumer group " ++ group ++ " not found for stream " ++ cfg.streamKey⟩)) := by
  rw [statsStream] at hg ⊢
  split_ifs at hg ⊢ with hempty
  · simp [withFirstGroup, Stream.group?, Group.create] at hg
  · exact .unknown (by simpa using hempty) hg

/-- **The procedure.** From a stream whose books are in order, with fuel enough and identifiers
that can be followed where they are needed, the answer is as it should be. -/
theorem ensures_stats (hs : Redis.Accounts s) (hgroup : group.isEmpty = false)
    (hfuel : StatsFuel fuel s group) (hcountable : StatsCountable exclusive lagKnown s group) :
    (getBackgroundQueueStats cfg fuel group).run.Ensures (Answered exclusive lagKnown)
      (StatsAnswer cfg group s) s := by
  rw [getBackgroundQueueStats, if_neg (by simp [hgroup]), ensures_except_bind_iff, ensures_rpc,
    BackgroundQueue.stats, ensures_except_bind_iff, ensures_storage]
  refine ensures_query (fun choice => rfl) fun choice _ => ?_
  rcases s with _ | stream
  · exact .absent
  have haccounts : (statsStream stream group).Accounts := accounts_statsStream (hs stream rfl)
  dsimp only [Option.isSome_some, Except.mapError]
  rw [if_neg (by simp), ensures_except_bind_iff]
  refine ensures_groupsForStats.mono ?_
  rintro s' r ⟨rfl, choice, rfl, hlag⟩
  dsimp only
  rw [findGroup_infoOf]
  rcases hg : (statsStream stream group).group? group with _ | g
  · show StatsAnswer cfg group (some stream) (some (statsStream stream group))
      (.error (.status (storeErrorToStatus (.notFound _))))
    rw [storeErrorToStatus_unknown]
    exact .of_unknown hg
  · have hknown : lagKnown = true → choice.lagKnown = true := fun h => (hlag h).resolve_left
      (List.ne_nil_of_mem (Stream.group?_eq_some hg).1)
    simp only [Option.map_some]
    rw [ensures_except_bind_iff, ensures_storage]
    refine ⟨⟨_, .ok ⟨"", lagKnown, exclusive⟩, rfl, _, rfl, rfl⟩, ?_⟩
    rintro s' r ⟨rfl, known, rfl, rfl⟩
    refine (ensures_statsFromGroup haccounts hg hknown (hfuel stream g rfl hg)
      (hcountable stream g rfl hg)).mono ?_
    rintro s' r ⟨rfl, stats, rfl, hstats⟩
    exact .of_found hg hstats

end ResponsesApiStore
