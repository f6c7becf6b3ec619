import ResponsesApiStore.Redis.Delivery

/-!
# What `XAUTOCLAIM` examines

An `XAUTOCLAIM` looks at the pending entries from its start on and returns the first one it has
not looked at, or `0-0` at the end. So it has looked at every pending entry from its start up to
what it returns (`mem_scanned`), and since new entries become pending only above everything
delivered before, this is still so later: whatever is pending in that range then was looked at
(`Examined`, `StreamStep.examined`).
-/

namespace Redis

variable {g : Group} {start : StreamId} {scan : ℕ}

/-- Every pending entry from the start up to the next cursor is scanned. -/
theorem mem_scanned {p : Pending} (hp : p ∈ g.pel) (hstart : start ≤ p.id)
    (hnext : p.id < (autoclaimScan g start scan).next) :
    p ∈ (autoclaimScan g start scan).scanned := by
  have htail : p ∈ g.pel.filter fun p => start ≤ p.id :=
    List.mem_filter.mpr ⟨hp, decide_eq_true hstart⟩
  have hsorted := g.pel_sorted.filter fun p => start ≤ p.id
  simp only [autoclaimScan] at hnext ⊢
  generalize (g.pel.filter fun p => start ≤ p.id) = tail at htail hsorted hnext ⊢
  rw [← List.take_append_drop scan tail] at htail hsorted
  rcases List.mem_append.mp htail with htake | hdrop
  · exact htake
  -- an entry not scanned is not below the first of them
  exfalso
  rcases hrest : tail.drop scan with _ | ⟨q, rest⟩
  · rw [hrest] at hdrop
    cases hdrop
  · rw [hrest] at hnext hdrop hsorted
    simp only [List.head?_cons, Option.map_some, Option.getD_some] at hnext
    rcases List.mem_cons.mp hdrop with rfl | hmem
    · exact lt_irrefl _ hnext
    · have hlt := List.rel_of_pairwise_cons (List.pairwise_append.mp hsorted).2.1 hmem
      exact lt_asymm hlt hnext

/-- The next cursor is not above what was delivered. -/
theorem next_le_lastDelivered : (autoclaimScan g start scan).next ≤ g.lastDelivered := by
  simp only [autoclaimScan]
  rcases hrest : (g.pel.filter fun p => start ≤ p.id).drop scan with _ | ⟨q, rest⟩
  · rw [hrest, List.head?_nil, Option.map_none, Option.getD_none]
    exact StreamId.zero_le _
  · have hmem : q ∈ (g.pel.filter fun p => start ≤ p.id).drop scan := by
      rw [hrest]
      exact List.mem_cons_self
    rw [hrest, List.head?_cons, Option.map_some, Option.getD_some]
    exact g.pel_le q (List.mem_of_mem_filter (List.mem_of_mem_drop hmem))

/-- The group of a given name, of a stream that may not exist. -/
def groupAt (s : Option Stream) (name : String) : Option Group := (s.getD .empty).group? name

/-- An `XAUTOCLAIM` that succeeds has scanned its group. -/
theorem run_xautoclaim {s s' : Option Stream} {choice : StreamChoice}
    {group consumer text : String} {minIdle count : ℕ} {reply : AutoclaimReply}
    (hrun : (StreamCmd.xautoclaim group consumer minIdle text count).run s choice =
      some (s', .ok reply)) :
    ∃ start g, StreamId.parse text = some start ∧ groupAt s group = some g ∧
      reply.nextStreamId = (autoclaimScan g start choice.scan).next.format := by
  simp only [StreamCmd.run] at hrun
  split at hrun
  · rename_i stream start hstart
    split at hrun
    · cases (Prod.mk.inj (Option.some.inj hrun)).2
    · rename_i g hg
      split_ifs at hrun
      obtain ⟨-, hreply⟩ := Prod.mk.inj (Option.some.inj hrun)
      obtain rfl := Except.ok.inj hreply
      exact ⟨start, g, hstart, hg, rfl⟩
  · cases (Prod.mk.inj (Option.some.inj hrun)).2
  · cases (Prod.mk.inj (Option.some.inj hrun)).2

/-! ### What is pending later -/

theorem groupAt_updateGroup {stream : Stream} {name name' : String} {f : Group → Group} {g : Group}
    (hg : groupAt (some stream) name = some g) (hf : ∀ g, (f g).name = g.name) :
    groupAt (some (stream.updateGroup name' f)) name =
      some (if g.name = name' then f g else g) := by
  have hnames : ((fun g : Group => decide (g.name = name)) ∘
      fun g => if g.name = name' then f g else g) = fun g => decide (g.name = name) := by
    funext g
    simp only [Function.comp_apply]
    split_ifs
    · rw [hf]
    · rfl
  rw [groupAt, Option.getD_some, Stream.group?] at hg ⊢
  rw [Stream.updateGroup, List.find?_map, hnames, hg]
  rfl

/-- A group stays, more may be delivered to it, and what is newly pending is above all that was
delivered before. -/
theorem StreamStep.pel_cases {s s' : Option Stream} {c : StreamCmd} {handed : List EntryReply}
    (hstep : StreamStep s c s' handed) {name : String} (hg : groupAt s name = some g) :
    ∃ g', groupAt s' name = some g' ∧ g.lastDelivered ≤ g'.lastDelivered ∧
      ∀ p ∈ g'.pel, (∃ q ∈ g.pel, q.id = p.id) ∨ g.lastDelivered < p.id := by
  have hkept : ∀ p ∈ g.pel, (∃ q ∈ g.pel, q.id = p.id) ∨ g.lastDelivered < p.id :=
    fun p hp => .inl ⟨p, hp, rfl⟩
  cases hstep with
  | same | added | trimmed => exact ⟨g, hg, le_rfl, hkept⟩
  | created hstart hnew =>
    refine ⟨g, ?_, le_rfl, hkept⟩
    rw [groupAt, Stream.group?] at hg
    rw [groupAt, Option.getD_some, Stream.group?, List.find?_append, hg]
    rfl
  | acked hs =>
    subst hs
    refine ⟨_, groupAt_updateGroup hg fun _ => rfl, ?_⟩
    split_ifs
    · exact ⟨le_rfl, fun p hp => .inl ⟨p, List.mem_of_mem_filter hp, rfl⟩⟩
    · exact ⟨le_rfl, hkept⟩
  | reassigned hs =>
    subst hs
    refine ⟨_, groupAt_updateGroup hg fun _ => rfl, ?_⟩
    split_ifs
    · refine ⟨le_rfl, fun p hp => .inl ?_⟩
      obtain ⟨q, hq, rfl⟩ := List.mem_map.mp hp
      refine ⟨q, List.mem_of_mem_filter hq, ?_⟩
      split_ifs <;> rfl
    · exact ⟨le_rfl, hkept⟩
  | delivered hs =>
    subst hs
    refine ⟨_, groupAt_updateGroup hg fun _ => rfl, ?_⟩
    split_ifs
    · refine ⟨Stream.le_lastOf_start fun e he => (Stream.mem_undelivered he).2, fun p hp => ?_⟩
      rcases List.mem_append.mp hp with hp | hp
      · exact .inl ⟨p, hp, rfl⟩
      · obtain ⟨e, he, rfl⟩ := List.mem_map.mp hp
        exact .inr (Stream.mem_undelivered he).2
    · exact ⟨le_rfl, hkept⟩

/-- Whatever a group has pending from `start` up to `next` is among `ids`, and will be: `next`
has been delivered. -/
def Examined (s : Option Stream) (name : String) (start next : StreamId) (ids : List StreamId) :
    Prop :=
  ∃ g, groupAt s name = some g ∧ next ≤ g.lastDelivered ∧
    ∀ p ∈ g.pel, start ≤ p.id → p.id < next → p.id ∈ ids

/-- A scan examines its range. -/
theorem examined_scan {s : Option Stream} {name : String} (hg : groupAt s name = some g) :
    Examined s name start (autoclaimScan g start scan).next
      ((autoclaimScan g start scan).scanned.map Pending.id) :=
  ⟨g, hg, next_le_lastDelivered, fun _ hp hstart hnext =>
    List.mem_map_of_mem (mem_scanned hp hstart hnext)⟩

/-- What is examined stays examined. -/
theorem StreamStep.examined {s s' : Option Stream} {c : StreamCmd} {handed : List EntryReply}
    (hstep : StreamStep s c s' handed) {name : String} {start next : StreamId}
    {ids : List StreamId} (h : Examined s name start next ids) :
    Examined s' name start next ids := by
  obtain ⟨g, hg, hle, hpending⟩ := h
  obtain ⟨g', hg', hmono, hpel⟩ := hstep.pel_cases hg
  refine ⟨g', hg', hle.trans hmono, fun p hp hstart hnext => ?_⟩
  rcases hpel p hp with ⟨q, hq, heq⟩ | habove
  · rw [← heq] at hstart hnext ⊢
    exact hpending q hq hstart hnext
  · exact absurd (hle.trans_lt habove) (lt_asymm hnext)

end Redis
