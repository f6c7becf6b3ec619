import ResponsesApiStore.System.Statistics

/-!
# Counting a stream that moves

The count of what waits reads the stream page by page, and the stream may change between two
pages. Whatever happens to it meanwhile, the identifiers read are increasing, so none is counted
twice, and a page that is not full is all there is after the page before, so an entry that is in
the stream at every reading is counted (`paged_count_exact`). On a stream that stays as it is,
the loop comes to its end with the number of entries.
-/

namespace ResponsesApiStore

open Redis (Stream StreamCmd StreamEntry StreamId EntryReply inRange parseRangeStart)
open Interaction (Program)
open Interaction.Program

/-- The command of an exchange is answered from a stream that it leaves as it is. -/
def ReadFrom (e : sig.Exchange) (stream : Stream) : Prop :=
  Answered false false (some stream) e.1 (some stream) e.2

/-- The identifiers of the page that an exchange reads. -/
def pageIds : sig.Exchange → List String
  | ⟨.stream (.xrange ..), .ok entries⟩ => entries.map EntryReply.id
  | _ => []

/-- What the pages read make of a count that starts after `last` with `total`. -/
structure Counts (last : StreamId) (es : List sig.Exchange) (streams : List Stream)
    (total n : UInt64) (ids : List StreamId) : Prop where
  pages : es.flatMap pageIds = ids.map StreamId.format
  increasing : ids.Pairwise (· < ·)
  after : ∀ id ∈ ids, last < id
  total : n = total + UInt64.ofNat ids.length
  complete : ∀ id, last < id → (∀ stream ∈ streams, ∃ e ∈ stream.entries, e.id = id) → id ∈ ids

/-- A text that starts the range of what comes after an identifier, if it is accepted. -/
def StartsAfter (start : String) (last : StreamId) : Prop :=
  ∀ range, parseRangeStart start = .ok range →
    ∀ id, .zero < id → inRange range id = decide (last < id)

section Page

variable {pageSize : ℕ} {start : String} {last : StreamId} {stream : Stream}
  {entries : List EntryReply}

/-- The identifiers of the first page after an identifier. -/
def firstPage (pageSize : ℕ) (stream : Stream) (last : StreamId) : List StreamId :=
  ((stream.entries.map StreamEntry.id).filter fun id => last < id).take pageSize

/-- A page is read from the stream as it is. -/
theorem page_of_readFrom
    (hread : ReadFrom ⟨.stream (.xrange start "+" pageSize), .ok entries⟩ stream)
    (hstart : StartsAfter start last) (hpositive : ∀ e ∈ stream.entries, .zero < e.id) :
    entries.map EntryReply.id = (firstPage pageSize stream last).map StreamId.format := by
  obtain ⟨choice, hrun, -⟩ := hread
  rcases hrange : parseRangeStart start with err | range
  · simp [StreamCmd.run, hrange] at hrun
  have hin := hstart range hrange
  rw [run_xrange hrange] at hrun
  obtain ⟨-, hreply⟩ := Prod.mk.inj (Option.some.inj hrun)
  have hfilter : (stream.entries.filter fun e => inRange range e.id) =
      stream.entries.filter fun e => decide (last < e.id) :=
    List.filter_congr fun e he => hin e.id (hpositive e he)
  rw [← Except.ok.inj hreply, hfilter, firstPage, List.filter_map, ← List.map_take, List.map_map,
    List.map_map]
  rfl

theorem firstPage_increasing (pageSize : ℕ) (stream : Stream) (last : StreamId) :
    (firstPage pageSize stream last).Pairwise (· < ·) :=
  ((List.pairwise_map.mpr stream.sorted).filter _).sublist (List.take_sublist _ _)

theorem lt_of_mem_firstPage {id : StreamId} (h : id ∈ firstPage pageSize stream last) : last < id :=
  of_decide_eq_true (List.mem_filter.mp (List.mem_of_mem_take h)).2

theorem mem_entries_of_firstPage {id : StreamId} (h : id ∈ firstPage pageSize stream last) :
    ∃ e ∈ stream.entries, e.id = id :=
  List.mem_map.mp (List.mem_filter.mp (List.mem_of_mem_take h)).1

/-- What comes after an identifier is on the page, or the page is full and it comes after its
end. -/
theorem mem_firstPage_or (pageSize : ℕ) {id : StreamId} (hlast : last < id)
    (hentry : ∃ e ∈ stream.entries, e.id = id) :
    id ∈ firstPage pageSize stream last ∨ (firstPage pageSize stream last).length = pageSize ∧
      ∀ x ∈ firstPage pageSize stream last, x < id := by
  have hmem : id ∈ (stream.entries.map StreamEntry.id).filter fun id => last < id :=
    List.mem_filter.mpr ⟨List.mem_map.mpr hentry, decide_eq_true hlast⟩
  have hsorted : ((stream.entries.map StreamEntry.id).filter fun id => last < id).Pairwise
      (· < ·) := (List.pairwise_map.mpr stream.sorted).filter _
  rw [firstPage]
  generalize (stream.entries.map StreamEntry.id).filter (fun id => last < id) = rest at hmem hsorted
  rw [← List.take_append_drop pageSize rest, List.mem_append] at hmem
  rw [← List.take_append_drop pageSize rest, List.pairwise_append] at hsorted
  rcases hmem with hmem | hmem
  · exact .inl hmem
  · refine .inr ⟨?_, fun x hx => hsorted.2.2 x hx id hmem⟩
    have hlength := List.length_pos_of_mem hmem
    rw [List.length_drop] at hlength
    rw [List.length_take]
    omega

end Page

/-- What the streams read are: entries are above `0-0` and, unless the server can exclude the
start of a range, have successors. -/
def EntriesCountable (exclusive : Bool) (streams : List Stream) : Prop :=
  ∀ stream ∈ streams, ∀ e ∈ stream.entries, .zero < e.id ∧ (exclusive = true ∨ e.id.HasNext)

section Loop

variable {exclusive : Bool} {pageSize : ℕ} {start : String} {last : StreamId}
  {entries : List EntryReply} {total n : UInt64} {stream : Stream} {streams : List Stream}

/-- The query of the loop. -/
def readPage (pageSize : ℕ) (start : String) : Act (List String) := do
  let ids ← storage (send (.stream (.xrange start "+" pageSize)))
  return ids.map EntryReply.id

/-- The exchange in which a page is read. -/
def pageExchange (pageSize : ℕ) (start : String) (entries : List EntryReply) : sig.Exchange :=
  ⟨.stream (.xrange start "+" pageSize), .ok entries⟩

/-- The reading of a page fails, or the rest goes on with its identifiers. -/
theorem follows_readPage {rest : List String → Act UInt64}
    {post : List sig.Exchange → Except Fault UInt64 → Prop} {es : List sig.Exchange}
    (herror : ∀ err, post (es ++ [⟨.stream (.xrange start "+" pageSize), .error err⟩])
      (.error (storageFault err)))
    (hrest : ∀ entries, (rest (entries.map EntryReply.id)).run.Follows
      (.ofTranscript fun _ _ => True) post (es ++ [pageExchange pageSize start entries])) :
    (readPage pageSize start >>= rest).run.Follows (.ofTranscript fun _ _ => True) post es := by
  rw [follows_except_bind_iff, readPage, follows_except_bind_iff, follows_storage]
  refine ⟨trivial, fun reply => ?_⟩
  rcases reply with err | entries
  · exact herror err
  · exact hrest entries

/-- A page that is not full ends the count. -/
theorem counts_last (total : UInt64) (hread : ReadFrom (pageExchange pageSize start entries) stream)
    (hstart : StartsAfter start last) (hcountable : EntriesCountable exclusive [stream])
    (hshort : (entries.map EntryReply.id).length < pageSize) :
    Counts last [pageExchange pageSize start entries] [stream] total
      (total + UInt64.ofNat (entries.map EntryReply.id).length)
      (firstPage pageSize stream last) := by
  have hpage := page_of_readFrom hread hstart fun e he => (hcountable stream (by simp) e he).1
  refine ⟨?_, firstPage_increasing _ _ _, fun id => lt_of_mem_firstPage, ?_, fun id hid hall => ?_⟩
  · simpa [pageExchange, pageIds] using hpage
  · rw [hpage, List.length_map]
  · rcases mem_firstPage_or pageSize hid (hall stream (by simp)) with hmem | ⟨hfull, -⟩
    · exact hmem
    · rw [hpage, List.length_map, hfull] at hshort
      exact absurd hshort (lt_irrefl _)

/-- A full page goes on after its end. -/
theorem counts_cons {es : List sig.Exchange} {ids : List StreamId} {edge : StreamId}
    (hread : ReadFrom (pageExchange pageSize start entries) stream)
    (hstart : StartsAfter start last)
    (hcountable : EntriesCountable exclusive (stream :: streams))
    (hend : (firstPage pageSize stream last).getLast? = some edge)
    (hrest : Counts edge es streams
      (total + UInt64.ofNat (entries.map EntryReply.id).length) n ids) :
    Counts last (pageExchange pageSize start entries :: es) (stream :: streams) total n
      (firstPage pageSize stream last ++ ids) := by
  have hpage := page_of_readFrom hread hstart fun e he => (hcountable stream (by simp) e he).1
  have hmem : edge ∈ firstPage pageSize stream last := List.mem_of_getLast? hend
  have hle : ∀ id ∈ firstPage pageSize stream last, id ≤ edge := by
    intro id hid
    obtain ⟨front, hfront⟩ := List.getLast?_eq_some_iff.mp hend
    have hsorted := firstPage_increasing pageSize stream last
    rw [hfront] at hid hsorted
    rcases List.mem_append.mp hid with hid | hid
    · exact ((List.pairwise_append.mp hsorted).2.2 id hid edge (by simp)).le
    · exact (List.mem_singleton.mp hid).le
  refine ⟨?_, ?_, fun id hid => ?_, ?_, fun id hid hall => ?_⟩
  · rw [List.flatMap_cons, hrest.pages, List.map_append, ← hpage]
    rfl
  · refine List.pairwise_append.mpr ⟨firstPage_increasing _ _ _, hrest.increasing, ?_⟩
    exact fun a ha b hb => (hle a ha).trans_lt (hrest.after b hb)
  · rcases List.mem_append.mp hid with hid | hid
    · exact lt_of_mem_firstPage hid
    · exact (lt_of_mem_firstPage hmem).trans (hrest.after id hid)
  · rw [hrest.total, hpage, List.length_map, List.length_append, UInt64.ofNat_add,
      UInt64.add_assoc]
  · rcases mem_firstPage_or pageSize hid (hall stream (by simp)) with hfirst | ⟨-, hlt⟩
    · exact List.mem_append_left _ hfirst
    · refine List.mem_append_right _ (hrest.complete id (hlt edge hmem) fun other hother => ?_)
      exact hall other (List.mem_cons_of_mem _ hother)

/-- **The loop.** Whatever it is answered, if its pages are read from streams, it counts them. -/
theorem counts_countPages (hpos : 0 < pageSize) (fuel : ℕ) (start : String) (total : UInt64)
    (es₀ : List sig.Exchange) :
    (BackgroundQueue.countPages pageSize exclusive (readPage pageSize)
      (fun ids => UInt64.ofNat ids.length) fuel start total).run.Follows
      (.ofTranscript fun _ _ => True)
      (fun es r => ∃ es', es = es₀ ++ es' ∧ ∀ n last streams, r = .ok n → StartsAfter start last →
        EntriesCountable exclusive streams → List.Forall₂ ReadFrom es' streams →
        ∃ ids, Counts last es' streams total n ids) es₀ := by
  induction fuel generalizing start total es₀ with
  | zero =>
    refine ⟨[], by simp, ?_⟩
    rintro _ _ _ ⟨⟩
  | succ fuel ih =>
    rw [BackgroundQueue.countPages]
    refine follows_readPage (fun err => ⟨_, rfl, ?_⟩) fun entries => ?_
    · rintro _ _ _ ⟨⟩
    dsimp only
    rcases hlast : (entries.map EntryReply.id).getLast? with _ | lastId
    · -- an empty page is a short one
      refine ⟨[pageExchange pageSize start entries], rfl, ?_⟩
      intro n last streams hn hstart hcountable hread
      obtain rfl := Except.ok.inj hn
      cases hread with
      | cons hread hnil =>
        cases hnil
        have hempty : entries.map EntryReply.id = [] := List.getLast?_eq_none_iff.mp hlast
        have hcounts := counts_last total hread hstart hcountable (by simpa [hempty])
        rw [hempty] at hcounts
        exact ⟨_, by simpa using hcounts⟩
    dsimp only
    split_ifs with hshort
    · refine ⟨[pageExchange pageSize start entries], rfl, ?_⟩
      intro n last streams hn hstart hcountable hread
      obtain rfl := Except.ok.inj hn
      cases hread with
      | cons hread hnil =>
        cases hnil
        exact ⟨_, counts_last _ hread hstart hcountable hshort⟩
    · refine (ih _ _ _).mono ?_
      rintro es r ⟨es', rfl, hrest⟩
      refine ⟨pageExchange pageSize start entries :: es', by simp, ?_⟩
      intro n last streams hn hstart hcountable hread
      cases hread with
      | @cons _ stream _ streams hread hreads =>
        have hpage := page_of_readFrom hread hstart fun e he => (hcountable stream (by simp) e he).1
        rw [hpage, List.getLast?_map] at hlast
        obtain ⟨edge, hedge, rfl⟩ := Option.map_eq_some_iff.mp hlast
        obtain ⟨e, he, rfl⟩ := mem_entries_of_firstPage (List.mem_of_getLast? hedge)
        have hafter : StartsAfter (streamRangeStartAfter e.id.format exclusive true) e.id :=
          fun range hrange id _ => inRange_after (hcountable stream (by simp) e he).2 hrange id
        obtain ⟨ids, hids⟩ := hrest n e.id streams hn hafter
          (fun other hother => hcountable other (List.mem_cons_of_mem _ hother)) hreads
        exact ⟨_, counts_cons hread hstart hcountable hedge hids⟩

end Loop

/-- **The paged count is exact.** However the stream changes between two pages: if the count
after an identifier returns `n`, the identifiers read are `n` different ones, all after it, and
every entry after it that is in the stream at all readings is among them. On a stream that stays
as it is, the count returns the number of entries after the identifier, unless it has to exclude
the greatest identifier of all. The result is a 64-bit number. -/
theorem paged_count_exact (last : StreamId) (exclusive : Bool)
    (hlast : exclusive = true ∨ last.HasNext) :
    (∀ fuel es streams n, EntriesCountable exclusive streams →
      (BackgroundQueue.countPendingFallback fuel last.format exclusive).run.Resumes es
        (.ret (.ok n)) →
      List.Forall₂ ReadFrom es streams → ∃ ids : List StreamId,
        es.flatMap pageIds = ids.map StreamId.format ∧ ids.Nodup ∧
        n = UInt64.ofNat ids.length ∧ (∀ id ∈ ids, last < id) ∧
        ∀ id, last < id → (∀ stream ∈ streams, ∃ e ∈ stream.entries, e.id = id) → id ∈ ids) ∧
    ∀ fuel stream, EntriesCountable exclusive [stream] → stream.entries.length < fuel →
      last ≠ .max → (∀ e ∈ stream.entries, e.id ≠ .max) →
      (BackgroundQueue.countPendingFallback fuel last.format exclusive).run.Ensures
        (Answered exclusive false) (fun s' r => s' = some stream ∧
          r = .ok (UInt64.ofNat (stream.entries.filter fun e => last < e.id).length))
        (some stream) := by
  refine ⟨fun fuel es streams n hcountable hresumes hread => ?_,
    fun fuel stream hcountable hfuel hmax hentries => ?_⟩
  · have hfollows : (BackgroundQueue.countPendingFallback fuel last.format exclusive).run.Follows
        _ _ [] := counts_countPages (by decide) fuel _ 0 []
    obtain ⟨es', hes, hcounts⟩ := hfollows.resume hresumes
    obtain rfl : es = es' := by simpa using hes
    have hstart : StartsAfter (streamRangeStartAfter last.format exclusive false) last :=
      fun range hrange id hid => inRange_waiting hlast hrange id hid
    obtain ⟨ids, hids⟩ := hcounts n last streams rfl hstart hcountable hread
    refine ⟨ids, hids.pages, hids.increasing.imp fun h => h.ne, ?_, hids.after, hids.complete⟩
    rw [hids.total, UInt64.zero_add]
  · have hfollow : ∀ id : StreamId, (exclusive = true ∨ id.HasNext) → id ≠ .max →
        id.CanFollow exclusive := fun id hnext hne => hnext.symm.imp_right fun h => ⟨h, hne⟩
    refine ensures_countPendingFallback (fun e he => (hcountable stream (by simp) e he).1) hfuel
      (hfollow last hlast hmax) fun k id hid => ?_
    obtain ⟨e, he, rfl⟩ := List.mem_map.mp (List.mem_of_getElem? hid)
    have hmem : e ∈ stream.entries := List.mem_of_mem_filter he
    exact hfollow e.id (hcountable stream (by simp) e hmem).2 (hentries e hmem)

/-! ### A stream that moves -/

section Numbered

/-- The identifiers of a stream that gets one entry a millisecond. -/
def numberedId (k : ℕ) : StreamId := ⟨UInt64.ofNat k, 0⟩

theorem numberedId_lt {k l : ℕ} (hlt : k < l) (hl : l < 2 ^ 64) : numberedId k < numberedId l := by
  have hk : (UInt64.ofNat k).toNat = k := UInt64.toNat_ofNat_of_lt' (hlt.trans hl)
  have hl' : (UInt64.ofNat l).toNat = l := UInt64.toNat_ofNat_of_lt' hl
  simp only [StreamId.lt_iff_toNat, StreamId.toNat, numberedId, hk, hl']
  omega

/-- Its entries of `n` milliseconds. -/
def numbered (first n : ℕ) : List StreamEntry :=
  (List.range' first n).map fun k => ⟨numberedId k, []⟩

theorem mem_numbered {first n : ℕ} {e : StreamEntry} (h : e ∈ numbered first n) :
    ∃ k, first ≤ k ∧ k < first + n ∧ e.id = numberedId k := by
  obtain ⟨k, hk, rfl⟩ := List.mem_map.mp h
  obtain ⟨hle, hlt⟩ := List.mem_range'_1.mp hk
  exact ⟨k, hle, hlt, rfl⟩

/-- The stream with these entries. -/
def numberedStream (first n : ℕ) (h : first + n < 2 ^ 64) : Stream where
  entries := numbered first n
  lastId := numberedId (first + n)
  groups := []
  sorted := by
    refine List.pairwise_map.mpr (List.Pairwise.imp_of_mem ?_ List.pairwise_lt_range')
    intro a b _ hb hlt
    exact numberedId_lt hlt ((List.mem_range'_1.mp hb).2.trans h)
  bounded := by
    intro e he
    obtain ⟨k, -, hlt, hid⟩ := mem_numbered he
    exact hid ▸ (numberedId_lt hlt h).le

theorem entries_numberedStream_positive {first n : ℕ} (h : first + n < 2 ^ 64)
    (hfirst : 0 < first) : ∀ e ∈ (numberedStream first n h).entries, StreamId.zero < e.id := by
  intro e he
  obtain ⟨k, hle, hlt, hid⟩ := mem_numbered he
  exact hid ▸ numberedId_lt (hfirst.trans_le hle) (hlt.trans h)

/-- A page that reads `skip` entries on, if they are all that fit. -/
theorem readFrom_numberedStream (first skip n : ℕ) (range : Bool × StreamId) {pageSize : ℕ}
    {start : String} (h : first + (skip + n) < 2 ^ 64) (hn : n ≤ pageSize)
    (hstart : parseRangeStart start = .ok range)
    (hrange : ∀ k, first ≤ k → k < first + (skip + n) →
      (inRange range (numberedId k) = true ↔ first + skip ≤ k)) :
    ReadFrom (pageExchange pageSize start ((numbered (first + skip) n).map StreamEntry.reply))
      (numberedStream first (skip + n) h) := by
  have hsplit : numbered first (skip + n) = numbered first skip ++ numbered (first + skip) n := by
    rw [numbered, ← List.range'_append_1, List.map_append]
    rfl
  have hbefore : (numbered first skip).filter (fun e => inRange range e.id) = [] := by
    refine List.filter_eq_nil_iff.mpr fun e he hin => ?_
    obtain ⟨k, hle, hlt, hid⟩ := mem_numbered he
    rw [hid, hrange k hle (by omega)] at hin
    omega
  have hafter : (numbered (first + skip) n).filter (fun e => inRange range e.id) =
      numbered (first + skip) n := by
    refine List.filter_eq_self.mpr fun e he => ?_
    obtain ⟨k, hle, hlt, hid⟩ := mem_numbered he
    exact hid ▸ (hrange k (by omega) (by omega)).mpr hle
  have hlength : (numbered (first + skip) n).length ≤ pageSize := by simpa [numbered] using hn
  refine ⟨⟨.zero, 0, 0, fun _ => false, false⟩, ?_, fun h => absurd h (by decide)⟩
  show (StreamCmd.xrange start "+" pageSize).run _ _ = _
  rw [run_xrange hstart]
  simp only [numberedStream, hsplit, List.filter_append, hbefore, hafter, List.nil_append,
    List.take_of_length_le hlength]
  rfl

/-- The loop goes on after a full page. -/
theorem returns_countPages_full {exclusive : Bool} {pageSize fuel : ℕ} {start lastId : String}
    {total : UInt64} {entries : List EntryReply} {es : List sig.Exchange}
    {r : Except Fault UInt64} (hlast : (entries.map EntryReply.id).getLast? = some lastId)
    (hfull : (entries.map EntryReply.id).length = pageSize)
    (hrest : (BackgroundQueue.countPages pageSize exclusive (readPage pageSize)
      (fun ids => UInt64.ofNat ids.length) fuel (streamRangeStartAfter lastId exclusive true)
      (total + UInt64.ofNat pageSize)).run.Returns es r) :
    (BackgroundQueue.countPages pageSize exclusive (readPage pageSize)
      (fun ids => UInt64.ofNat ids.length) (fuel + 1) start total).run.Returns
        (pageExchange pageSize start entries :: es) r := by
  rw [BackgroundQueue.countPages]
  refine returns_except_bind_iff.mpr (.inl ⟨[pageExchange pageSize start entries], es,
    entries.map EntryReply.id, rfl, ⟨_, rfl, rfl⟩, ?_⟩)
  dsimp only
  rw [hlast]
  dsimp only
  rw [if_neg (by omega), hfull]
  exact hrest

end Numbered

/-- The thousand entries of the first page. -/
def firstRead : sig.Exchange := pageExchange 1000 "-" ((numbered 1 1000).map StreamEntry.reply)

/-- What has come after it when the second page is read. -/
def secondRead : sig.Exchange :=
  pageExchange 1000 "(1000-0" ((numbered 1001 2).map StreamEntry.reply)

theorem returns_two_pages : (BackgroundQueue.countPendingFallback 2 "0-0" true).run.Returns
    [firstRead, secondRead] (.ok 1002) := by
  have hlast : (((numbered 1 1000).map StreamEntry.reply).map EntryReply.id).getLast? =
      some "1000-0" := by
    simp only [numbered, List.map_map, List.getLast?_map, List.getLast?_range']
    decide
  have hlength : (((numbered 1 1000).map StreamEntry.reply).map EntryReply.id).length = 1000 := by
    simp only [numbered, List.length_map, List.length_range']
  exact returns_countPages_full hlast hlength ⟨_, rfl, rfl⟩

/-- While a thousand entries are counted, the oldest one is trimmed and two are added: a thousand
and two have been counted, the trimmed one and the new ones among them. -/
theorem paged_count_exact_two : ∃ ids : List StreamId,
    [firstRead, secondRead].flatMap pageIds = ids.map StreamId.format ∧ ids.Nodup ∧
      1002 = UInt64.ofNat ids.length ∧ numberedId 2 ∈ ids := by
  have hfirst : ReadFrom firstRead (numberedStream 1 1000 (by decide)) :=
    readFrom_numberedStream 1 0 1000 _ (by decide) le_rfl parseRangeStart_dash
      fun k hk _ => by simpa [inRange, StreamId.zero_le] using hk
  have hsecond : ReadFrom secondRead (numberedStream 2 1001 (by decide)) := by
    refine readFrom_numberedStream 2 999 2 (true, ⟨1000, 0⟩) (by decide) (by decide) (by decide)
      fun k _ hk => ?_
    have hiff : numberedId 1000 < numberedId k ↔ 1000 < k := by
      constructor
      · intro hlt
        by_contra hle
        rcases Nat.lt_or_eq_of_le (Nat.not_lt.mp hle) with hlt' | rfl
        · exact lt_asymm hlt (numberedId_lt hlt' (by decide))
        · exact lt_irrefl _ hlt
      · intro hlt
        exact numberedId_lt hlt (by omega)
    rw [inRange, if_pos rfl, decide_eq_true_iff]
    exact hiff
  have hcountable : EntriesCountable true
      [numberedStream 1 1000 (by decide), numberedStream 2 1001 (by decide)] := by
    intro stream hstream e he
    rcases List.mem_pair.mp hstream with rfl | rfl
    · exact ⟨entries_numberedStream_positive _ (by decide) e he, .inl rfl⟩
    · exact ⟨entries_numberedStream_positive _ (by decide) e he, .inl rfl⟩
  obtain ⟨ids, hpages, hnodup, hn, -, hcomplete⟩ := (paged_count_exact .zero true (.inl rfl)).1 2
    [firstRead, secondRead] _ 1002 hcountable returns_two_pages
    (.cons hfirst (.cons hsecond .nil))
  refine ⟨ids, hpages, hnodup, hn, hcomplete _ (by decide) fun stream hstream => ?_⟩
  have hmem : ∀ first n (h : first + n < 2 ^ 64), first ≤ 2 → 2 < first + n →
      ∃ e ∈ (numberedStream first n h).entries, e.id = numberedId 2 := fun first n _ hle hlt =>
    ⟨_, List.mem_map.mpr ⟨2, List.mem_range'_1.mpr ⟨hle, hlt⟩, rfl⟩, rfl⟩
  rcases List.mem_pair.mp hstream with rfl | rfl
  · exact hmem _ _ _ (by decide) (by decide)
  · exact hmem _ _ _ (by decide) (by decide)

end ResponsesApiStore
