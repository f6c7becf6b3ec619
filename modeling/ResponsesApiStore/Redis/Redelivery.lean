import ResponsesApiStore.Redis.Delivery

/-!
# What is handed out again

Two ways lead from a stream to a consumer. `XREADGROUP` hands out what is new to the group, and
with it moves the last delivered identifier of the group up, so nothing is new twice
(`StreamStep.fresh`). `XAUTOCLAIM` hands out what is pending. Neither hands out what the group
has acknowledged (`StreamStep.handed_not_acked`), and an acknowledgement is for good
(`StreamStep.acked_mono`).
-/

namespace Redis

variable {s s' : Option Stream} {c : StreamCmd} {handed : List EntryReply}

/-- **Nothing is new twice.** What `XREADGROUP` hands out is above everything its group has
delivered before, and is delivered afterwards. -/
theorem StreamStep.fresh {group consumer : String} {count : ℕ} {block : Option ℕ}
    (hstep : StreamStep s (.xreadgroup group consumer count block) s' handed) (h : Accounts s)
    {entry : EntryReply} (hentry : entry ∈ handed) :
    ∃ id : StreamId, entry.id = id.format ∧
      (∃ g' ∈ groupsOf s', g'.name = group ∧ id ≤ g'.lastDelivered) ∧
      ∀ g ∈ groupsOf s, g.name = group → g.lastDelivered < id := by
  cases hstep with
  | same => cases hentry
  | @delivered stream g _ _ _ _ hs hg =>
    obtain ⟨hmem, hname⟩ := Stream.group?_eq_some hg
    obtain ⟨e, he, rfl⟩ := List.mem_map.mp hentry
    refine ⟨e.id, rfl, ⟨_, Stream.mem_updateGroup hmem, ?_⟩, fun g' hg' hname' => ?_⟩
    · rw [if_pos hname]
      exact ⟨hname, Stream.le_lastOf (stream.undelivered_sorted g count) he⟩
    · subst hs
      obtain rfl := (h stream rfl).eq_of_group? hg hg' hname'
      exact (Stream.mem_undelivered he).2

/-- **What is acknowledged is not handed out.** -/
theorem StreamStep.handed_not_acked (hstep : StreamStep s c s' handed) (h : Accounts s)
    {entry : EntryReply} (hentry : entry ∈ handed) :
    ∃ id : StreamId, entry.id = id.format ∧
      ∀ g ∈ groupsOf s, c.takesFor = some g.name → id ∉ g.acked := by
  cases hstep with
  | same | added | trimmed | created | acked => cases hentry
  | @reassigned stream g group _ _ _ _ keep take _ hs hg hkeep hhanded =>
    obtain ⟨p, hp, e, he, heq, rfl⟩ := hhanded entry hentry
    refine ⟨e.id, rfl, fun g' hg' hname => ?_⟩
    subst hs
    have haccounts : stream.Accounts := h stream rfl
    obtain rfl := haccounts.eq_of_group? hg hg' (Option.some.inj hname).symm
    exact heq ▸ (haccounts.groups g' hg').disjoint p hp
  | @delivered stream g group consumer count block hs hg =>
    obtain ⟨e, he, rfl⟩ := List.mem_map.mp hentry
    refine ⟨e.id, rfl, fun g' hg' hname hacked => ?_⟩
    subst hs
    have haccounts : stream.Accounts := h stream rfl
    obtain rfl := haccounts.eq_of_group? hg hg' (Option.some.inj hname).symm
    -- what is acknowledged has been delivered, and this is new
    have hle := (haccounts.groups g' hg').acked_le e.id hacked
    exact absurd (Stream.mem_undelivered he).2 (not_lt.mpr hle)

/-- What is acknowledged stays acknowledged. -/
theorem StreamStep.acked_mono (hstep : StreamStep s c s' handed) {g : Group}
    (hg : g ∈ groupsOf s) {id : StreamId} (hid : id ∈ g.acked) :
    ∃ g' ∈ groupsOf s', g'.name = g.name ∧ id ∈ g'.acked := by
  cases hstep with
  | same | added | trimmed => exact ⟨g, hg, rfl, hid⟩
  | created hstart hnew => exact ⟨g, List.mem_append_left _ hg, rfl, hid⟩
  | acked hs =>
    subst hs
    refine ⟨_, Stream.mem_updateGroup hg, ?_, ?_⟩ <;> split_ifs
    · rfl
    · rfl
    · exact List.mem_cons_of_mem _ hid
    · exact hid
  | reassigned hs | delivered hs =>
    subst hs
    refine ⟨_, Stream.mem_updateGroup hg, ?_, ?_⟩ <;> split_ifs
    · rfl
    · rfl
    · exact hid
    · exact hid

/-- An `XACK` that counts an entry has acknowledged the one it names. -/
theorem acked_of_run {group text : String} {choice : StreamChoice} {n : ℕ}
    (hrun : (StreamCmd.xack group text).run s choice = some (s', .ok n)) (hn : n ≠ 0) :
    ∃ id, StreamId.parse text = some id ∧ ∃ g ∈ groupsOf s', g.name = group ∧ id ∈ g.acked := by
  simp only [StreamCmd.run] at hrun
  split at hrun
  · cases hrun
  · rename_i id hid
    split at hrun
    · cases hrun
      exact absurd rfl hn
    · rename_i g hg
      split_ifs at hrun with hpending
      · rcases s with _ | stream
        · cases hg
        obtain ⟨hmem, hname⟩ := Stream.group?_eq_some hg
        cases hrun
        refine ⟨id, hid, _, Stream.mem_updateGroup hmem, ?_⟩
        rw [if_pos hname]
        exact ⟨hname, List.mem_cons_self⟩
      · cases hrun
        exact absurd rfl hn

end Redis
