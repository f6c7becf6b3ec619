import Mathlib.Data.List.TakeWhile
import ResponsesApiStore.Server.Metrics

/-!
# Labels of the exposition

The escape of a consumer group is three replacements over the whole text, one after another. Read
with the grammar of label values it gives the group back and stands inside its quotes
(`label_escaping_injective`): `scanLabel` reads a label value as far as the grammar goes, so what
follows the closing quote is read as if the group were not there. The body a scrape gets has three
samples, and they say of this group what the other handler answers.
-/

namespace ResponsesApiStore

open Interaction.Program

/-! ### The grammar -/

/-- Read a label value as far as the grammar goes: what was read, and the text left. The escapes
are a backslash before a backslash, an `n` or a quote; reading stops at a raw quote, at a raw
newline and at a backslash that begins no escape. -/
def scanLabel : List Char → List Char × List Char
  | [] => ([], [])
  | '\\' :: '\\' :: rest => ('\\' :: (scanLabel rest).1, (scanLabel rest).2)
  | '\\' :: 'n' :: rest => ('\n' :: (scanLabel rest).1, (scanLabel rest).2)
  | '\\' :: '"' :: rest => ('"' :: (scanLabel rest).1, (scanLabel rest).2)
  | c :: rest =>
    if c = '\\' ∨ c = '\n' ∨ c = '"' then ([], c :: rest)
    else (c :: (scanLabel rest).1, (scanLabel rest).2)

/-- Read the line of a sample: the name of the metric, the value of its label `consumer_group`, and
the text of the number. A comment is no sample. -/
def readSample (line : List Char) : Option (List Char × List Char × List Char) := do
  let label ← "\x7bconsumer_group=\"".toList.isPrefixOf? (line.dropWhile (· != '\x7b'))
  let value ← "\"\x7d ".toList.isPrefixOf? (scanLabel label).2
  return (line.takeWhile (· != '\x7b'), (scanLabel label).1, value)

/-- Whether the character after a text is escaped: a backslash that is not escaped escapes it. -/
def escapesNext (text : List Char) : Bool :=
  text.foldl (fun escaped c => !escaped && c == '\\') false

/-- What the escape makes of one character. -/
def escapeChar (c : Char) : List Char :=
  if c = '\\' then ['\\', '\\']
  else if c = '\n' then ['\\', 'n']
  else if c = '"' then ['\\', '"']
  else [c]

/-! ### The three replacements -/

/-- The replacements work on one character at a time: the later ones leave the backslashes
alone that the earlier ones put in. -/
theorem toList_escapePrometheusLabelValue (s : String) :
    (escapePrometheusLabelValue s).toList = s.toList.flatMap escapeChar := by
  simp only [escapePrometheusLabelValue, replaceChar, String.toList_ofList, List.flatMap_assoc]
  refine List.flatMap_congr fun c _ => ?_
  rw [escapeChar]
  split_ifs <;> simp_all

theorem scanLabel_escapeChar (c : Char) (rest : List Char) :
    scanLabel (escapeChar c ++ rest) = (c :: (scanLabel rest).1, (scanLabel rest).2) := by
  rw [escapeChar]
  split_ifs with hslash hnewline hquote
  · rw [hslash]
    rfl
  · rw [hnewline]
    rfl
  · rw [hquote]
    rfl
  · rw [List.singleton_append, scanLabel.eq_5 c rest (by simp_all) (by simp_all) (by simp_all),
      if_neg (by simp_all)]

/-- **Reading an escaped text.** It is read to its end, and what comes after it as it would be
alone. -/
theorem scanLabel_escaped (s rest : List Char) :
    scanLabel (s.flatMap escapeChar ++ rest) = (s ++ (scanLabel rest).1, (scanLabel rest).2) := by
  induction s with
  | nil => rfl
  | cons c s ih =>
    rw [List.flatMap_cons, List.append_assoc, scanLabel_escapeChar, ih]
    rfl

theorem newline_notMem_escapeChar (c : Char) : '\n' ∉ escapeChar c := by
  rw [escapeChar]
  split_ifs with hslash hnewline hquote <;> simp_all [eq_comm]

/-- The escape of a character ends outside an escape. -/
theorem foldl_escapeChar (c : Char) :
    (escapeChar c).foldl (fun escaped c => !escaped && c == '\\') false = false := by
  rw [escapeChar]
  split_ifs with hslash hnewline hquote
  · rfl
  · rfl
  · rfl
  · simpa using hslash

/-- A quote in the escape of a character is escaped. -/
theorem escapesNext_of_escapeChar {c : Char} {before after : List Char}
    (h : escapeChar c = before ++ '"' :: after) : escapesNext before = true := by
  rw [escapeChar] at h
  match before with
  | [] =>
    rw [List.nil_append] at h
    split_ifs at h with hslash hnewline hquote <;> simp_all
  | [b] =>
    split_ifs at h with hslash hnewline hquote <;> simp_all [escapesNext, eq_comm]
  | b :: d :: before =>
    have hlength := congrArg List.length h
    simp only [List.length_append, List.length_cons] at hlength
    split_ifs at hlength <;> simp at hlength <;> omega

theorem escapesNext_of_escaped {s before after : List Char}
    (h : s.flatMap escapeChar = before ++ '"' :: after) : escapesNext before = true := by
  induction s generalizing before with
  | nil => simp at h
  | cons c s ih =>
    rw [List.flatMap_cons] at h
    -- The quote stands in the escape of the first character, or after it.
    rcases List.append_eq_append_iff.mp h with ⟨between, rfl, hrest⟩ | ⟨between, hchar, hrest⟩
    · have hescaped := ih hrest
      rw [escapesNext, List.foldl_append, foldl_escapeChar]
      exact hescaped
    · cases between with
      | nil =>
        have hescaped : escapesNext [] = true := ih hrest.symm
        exact absurd hescaped (by decide)
      | cons d between =>
        rw [List.cons_append, List.cons.injEq] at hrest
        obtain ⟨rfl, -⟩ := hrest
        exact escapesNext_of_escapeChar hchar

/-! ### The lines of the body -/

/-- Of a text that is written out, the characters are looked at without its encoding. -/
theorem notMem_ofList {c : Char} {text : List Char} (h : c ∉ text) :
    c ∉ (String.ofList text).toList := by
  rwa [String.toList_ofList]

theorem newline_notMem_sampleLine {metric : String} (h : '\n' ∉ metric.toList) (group : String)
    (value : UInt64) :
    '\n' ∉ (sampleLine metric (escapePrometheusLabelValue group) value).toList := by
  have hvalue : '\n' ∉ value.toNat.repr.toList := by
    intro hmem
    rw [Nat.toList_repr] at hmem
    have hdigit := Nat.isDigit_of_mem_toDigits (by decide) (by decide) hmem
    exact absurd hdigit (by decide)
  have hgroup : '\n' ∉ (escapePrometheusLabelValue group).toList := by
    rw [toList_escapePrometheusLabelValue, List.mem_flatMap]
    rintro ⟨c, -, hc⟩
    exact newline_notMem_escapeChar c hc
  simp only [sampleLine, String.toList_append, List.mem_append, not_or]
  exact ⟨⟨⟨⟨h, by decide⟩, hgroup⟩, by decide⟩, hvalue⟩

/-- No line of the exposition has a newline in it. -/
theorem newline_notMem_prometheusLines (group : String) (stats : BackgroundQueueStats) :
    ∀ line ∈ prometheusLines (escapePrometheusLabelValue group) stats, '\n' ∉ line.toList := by
  rw [prometheusLines]
  simp only [List.forall_mem_cons]
  refine ⟨?_, ?_, newline_notMem_sampleLine ?_ _ _, ?_, ?_, newline_notMem_sampleLine ?_ _ _, ?_,
    ?_, newline_notMem_sampleLine ?_ _ _, fun _ h => absurd h List.not_mem_nil⟩
  all_goals exact notMem_ofList (by decide +kernel)

theorem bne_of_notMem {c : Char} {text : List Char} (h : c ∉ text) :
    ∀ d ∈ text, (d != c) = true := by
  intro d hd
  rw [bne_iff_ne]
  rintro rfl
  exact h hd

/-- **A sample reads back.** The name of the metric, the group as it was before the escape, and
the number. -/
theorem readSample_sampleLine {metric : String} (h : '\x7b' ∉ metric.toList) (group : String)
    (value : UInt64) :
    readSample (sampleLine metric (escapePrometheusLabelValue group) value).toList =
      some (metric.toList, group.toList, value.toNat.repr.toList) := by
  have hline : (sampleLine metric (escapePrometheusLabelValue group) value).toList =
      metric.toList ++ '\x7b' :: ("consumer_group=\"".toList ++
        (group.toList.flatMap escapeChar ++ '"' :: '\x7d' :: ' ' :: value.toNat.repr.toList)) := by
    simp [sampleLine, toList_escapePrometheusLabelValue]
  have hname := bne_of_notMem h
  -- The label starts at the first brace, since the name of the metric has none.
  rw [hline, readSample, List.dropWhile_append_of_pos hname, List.takeWhile_append_of_pos hname]
  generalize value.toNat.repr.toList = digits
  have hscan := scanLabel_escaped group.toList ('"' :: '\x7d' :: ' ' :: digits)
  simp [List.isPrefixOf?, hscan, scanLabel]

/-- The lines of a metric have one sample: the two before it are comments. -/
theorem samples_of_metric {help kind metric : String} (hhelp : '\x7b' ∉ help.toList)
    (hkind : '\x7b' ∉ kind.toList) (hmetric : '\x7b' ∉ metric.toList) (group : String)
    (value : UInt64) (lines : List String) :
    (help :: kind :: sampleLine metric (escapePrometheusLabelValue group) value ::
        lines).filterMap (fun line => readSample line.toList) =
      (metric.toList, group.toList, value.toNat.repr.toList) ::
        lines.filterMap fun line => readSample line.toList := by
  have hcomment : ∀ line : String, '\x7b' ∉ line.toList → readSample line.toList = none := by
    intro line h
    rw [readSample, List.dropWhile_eq_nil_iff.mpr (bne_of_notMem h)]
    rfl
  simp only [List.filterMap_cons, hcomment help hhelp, hcomment kind hkind,
    readSample_sampleLine hmetric]

/-- The samples of the exposition. -/
theorem readSample_prometheusLines (group : String) (stats : BackgroundQueueStats) :
    (prometheusLines (escapePrometheusLabelValue group) stats).filterMap
        (fun line => readSample line.toList) =
      [("responses_api_store_background_queue_workload", stats.workload),
        ("responses_api_store_background_queue_pending", stats.pending),
        ("responses_api_store_background_queue_in_progress", stats.inProgress)].map
          fun sample => (sample.1.toList, group.toList, sample.2.toNat.repr.toList) := by
  rw [prometheusLines]
  refine (samples_of_metric ?_ ?_ ?_ _ _ _).trans (congrArg _ ((samples_of_metric ?_ ?_ ?_ _ _
    _).trans (congrArg _ (samples_of_metric ?_ ?_ ?_ _ _ _))))
  all_goals exact notMem_ofList (by decide +kernel)

/-- Lines without a newline, each ended by one, are read back as those lines. -/
theorem splitOn_join_lines {lines : List String} (h : ∀ line ∈ lines, '\n' ∉ line.toList) :
    (String.join (lines.map (· ++ "\n"))).toList.splitOn '\n' =
      lines.map String.toList ++ [[]] := by
  induction lines with
  | nil => rfl
  | cons line lines ih =>
    have hline := h line List.mem_cons_self
    rw [List.map_cons, String.toList_join, List.flatMap_cons, ← String.toList_join,
      String.toList_append, List.append_assoc]
    rw [show "\n".toList = ['\n'] from rfl, List.singleton_append,
      List.splitOn_append_cons_self_of_not_mem hline,
      ih fun other hother => h other (List.mem_cons_of_mem _ hother)]
    rfl

/-! ### The handlers -/

/-- A query that succeeds gives back its group and what the queue said of it. -/
theorem stats_of_returns {cfg : StoreConfig} {fuel : ℕ} {s : String} {es : List sig.Exchange}
    {answer : String × BackgroundQueueStats}
    (h : (statsForQuery cfg fuel (some s)).run.Returns es (.ok answer)) :
    answer.1 = s ∧ (BackgroundQueue.stats cfg fuel s).run.Returns es (.ok answer.2) := by
  rw [statsForQuery] at h
  split_ifs at h with hempty
  · obtain ⟨-, habsurd⟩ := returns_ret.mp h
    cases habsurd
  · obtain ⟨es₁, es₂, r, rfl, hstats, hr⟩ := returns_bind_iff.mp h
    obtain ⟨rfl, hanswer⟩ := returns_ret.mp hr
    cases r with
    | error err => cases hanswer
    | ok stats =>
      obtain rfl : answer = (s, stats) := Except.ok.inj hanswer
      rw [List.append_nil]
      exact ⟨rfl, hstats⟩

/-- A body the handler answers with is that of the statistics it read. -/
theorem body_of_returns {cfg : StoreConfig} {fuel : ℕ} {s body : String} {es : List sig.Exchange}
    (h : (backgroundQueuePrometheus cfg fuel (some s)).run.Returns es (.ok body)) :
    ∃ stats, (BackgroundQueue.stats cfg fuel s).run.Returns es (.ok stats) ∧
      body = prometheusBody s stats ∧
      (backgroundQueueJson cfg fuel (some s)).run.Returns es
        (.ok ⟨s, stats.pending, stats.inProgress, stats.workload⟩) := by
  rw [backgroundQueuePrometheus] at h
  obtain ⟨es₁, es₂, ⟨group, stats⟩, rfl, hquery, hret⟩ := h.bind_ok
  obtain ⟨rfl, hbody⟩ := returns_ret.mp hret
  obtain ⟨rfl, hstats⟩ := stats_of_returns hquery
  rw [List.append_nil]
  refine ⟨stats, hstats, Except.ok.inj hbody, ?_⟩
  rw [backgroundQueueJson]
  exact returns_except_bind_iff.mpr
    (.inl ⟨es₁, [], (_, stats), (List.append_nil es₁).symm, hquery, returns_ret.mpr ⟨rfl, rfl⟩⟩)

/-- **The escape of a label.** For every group: the escaped text is read to its end and gives the
group; put between quotes, reading stops at the closing one; it has no newline and no quote that
is not escaped; the body has the lines of the exposition and no other, and its samples are three,
of this group; two groups with one label are one group; and a body the handler answers with is
that of the statistics the queue gave for this group, with which the other handler answers. -/
theorem label_escaping_injective (s : String) :
    scanLabel (escapePrometheusLabelValue s).toList = (s.toList, []) ∧
      (∀ rest, scanLabel ((escapePrometheusLabelValue s).toList ++ '"' :: rest) =
        (s.toList, '"' :: rest)) ∧
      '\n' ∉ (escapePrometheusLabelValue s).toList ∧
      (∀ before after, (escapePrometheusLabelValue s).toList = before ++ '"' :: after →
        escapesNext before = true) ∧
      (∀ stats,
        (prometheusBody s stats).toList.splitOn '\n' =
            (prometheusLines (escapePrometheusLabelValue s) stats).map String.toList ++ [[]] ∧
          ((prometheusBody s stats).toList.splitOn '\n').filterMap readSample =
            [("responses_api_store_background_queue_workload", stats.workload),
              ("responses_api_store_background_queue_pending", stats.pending),
              ("responses_api_store_background_queue_in_progress", stats.inProgress)].map
                fun sample => (sample.1.toList, s.toList, sample.2.toNat.repr.toList)) ∧
      (∀ t, escapePrometheusLabelValue t = escapePrometheusLabelValue s → t = s) ∧
      ∀ cfg fuel es body, (backgroundQueuePrometheus cfg fuel (some s)).run.Returns es (.ok body) →
        ∃ stats, (BackgroundQueue.stats cfg fuel s).run.Returns es (.ok stats) ∧
          body = prometheusBody s stats ∧
          (backgroundQueueJson cfg fuel (some s)).run.Returns es
            (.ok ⟨s, stats.pending, stats.inProgress, stats.workload⟩) := by
  have hscan : ∀ (t : String) rest, scanLabel ((escapePrometheusLabelValue t).toList ++ rest) =
      (t.toList ++ (scanLabel rest).1, (scanLabel rest).2) := by
    intro t rest
    rw [toList_escapePrometheusLabelValue, scanLabel_escaped]
  refine ⟨?_, fun rest => ?_, ?_, fun before after h => ?_, fun stats => ?_, fun t h => ?_,
    fun cfg fuel es body h => body_of_returns h⟩
  · simpa [scanLabel] using hscan s []
  · simpa [scanLabel] using hscan s ('"' :: rest)
  · rw [toList_escapePrometheusLabelValue, List.mem_flatMap]
    rintro ⟨c, -, hc⟩
    exact newline_notMem_escapeChar c hc
  · rw [toList_escapePrometheusLabelValue] at h
    exact escapesNext_of_escaped h
  · have hlines : (prometheusBody s stats).toList.splitOn '\n' =
        (prometheusLines (escapePrometheusLabelValue s) stats).map String.toList ++ [[]] := by
      rw [prometheusBody]
      exact splitOn_join_lines (newline_notMem_prometheusLines s stats)
    refine ⟨hlines, ?_⟩
    rw [hlines, List.filterMap_append, List.filterMap_map, ← readSample_prometheusLines s stats]
    exact List.append_nil _
  · have heq := (hscan t []).symm.trans ((congrArg _ (by rw [h])).trans (hscan s []))
    simpa [scanLabel, String.toList_inj] using heq

end ResponsesApiStore
