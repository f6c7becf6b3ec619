import ResponsesApiStore.Redis.Stream
import Mathlib.Data.List.Nodup

/-!
# Where the entries of a stream are

For a consumer group, every entry after the start of the group is in one of three places: not
yet delivered, pending, or acknowledged. `Stream.Accounts` is the invariant behind this, kept by
every command (`StreamStep.accounts`). It also says that a stream only ever loses its oldest
entries, so a pending identifier is that of an entry or below all entries (`Group.Accounts.known`).

`StreamStep` lists what a command can do to a stream; all that follows is read off the list.
Entries stay unless the stream is trimmed (`StreamStep.entries_subset`), an identifier is
acknowledged by `XACK` alone (`StreamStep.acked_cases`), and what is handed to a consumer is an
entry that has been delivered (`StreamStep.handed_delivered`).
-/

namespace Redis

/-- The books of a group are in order: identifiers are acknowledged after they were delivered,
none is pending and acknowledged, every entry delivered since the start is pending or
acknowledged, and a pending identifier is that of an entry or older than all entries. -/
structure Group.Accounts (g : Group) (entries : List StreamEntry) (lastId : StreamId) : Prop where
  start_le : g.start ≤ g.lastDelivered
  delivered_le : g.lastDelivered = g.start ∨ g.lastDelivered ≤ lastId
  acked_le : ∀ id ∈ g.acked, id ≤ g.lastDelivered
  disjoint : ∀ p ∈ g.pel, p.id ∉ g.acked
  covered : ∀ e ∈ entries, g.start < e.id → e.id ≤ g.lastDelivered →
    (∃ p ∈ g.pel, p.id = e.id) ∨ e.id ∈ g.acked
  known : ∀ p ∈ g.pel, g.start < p.id ∧ p.id ≤ lastId ∧
    ((∃ e ∈ entries, e.id = p.id) ∨ ∀ e ∈ entries, p.id < e.id)

/-- The books of a stream are in order. -/
structure Stream.Accounts (s : Stream) : Prop where
  groups : ∀ g ∈ s.groups, g.Accounts s.entries s.lastId
  names : (s.groups.map Group.name).Nodup
  positive : ∀ e ∈ s.entries, StreamId.zero < e.id
  length : s.entries.length < 2 ^ 64

/-! ### Groups -/

namespace Group.Accounts

variable {g : Group} {entries : List StreamEntry} {lastId : StreamId}

theorem create (name : String) (start : StreamId) (entries : List StreamEntry)
    (lastId : StreamId) : (Group.create name start).Accounts entries lastId where
  start_le := le_rfl
  delivered_le := .inl rfl
  acked_le := by simp [Group.create]
  disjoint := by simp [Group.create]
  covered e _ hstart hle := absurd hstart (not_lt.mpr hle)
  known := by simp [Group.create]

/-- A later entry leaves the books in order. -/
theorem add (h : g.Accounts entries lastId) {id : StreamId} (hid : lastId < id)
    (fields : List (String × String)) : g.Accounts (entries ++ [⟨id, fields⟩]) id where
  start_le := h.start_le
  delivered_le := h.delivered_le.imp_right fun hle => (hle.trans_lt hid).le
  acked_le := h.acked_le
  disjoint := h.disjoint
  covered := by
    intro e he hstart hle
    rcases List.mem_append.mp he with he | he
    · exact h.covered e he hstart hle
    · -- the new entry is above everything delivered
      obtain rfl := List.mem_singleton.mp he
      rcases h.delivered_le with heq | hdelivered
      · exact absurd hstart (not_lt.mpr (heq ▸ hle))
      · exact absurd (hle.trans hdelivered) (not_le.mpr hid)
  known := by
    intro p hp
    obtain ⟨hstart, hle, hentry⟩ := h.known p hp
    refine ⟨hstart, (hle.trans_lt hid).le, ?_⟩
    rcases hentry with ⟨e, he, heq⟩ | hbelow
    · exact .inl ⟨e, List.mem_append_left _ he, heq⟩
    · refine .inr fun e he => ?_
      rcases List.mem_append.mp he with he | he
      · exact hbelow e he
      · exact (List.mem_singleton.mp he) ▸ hle.trans_lt hid

/-- Dropping the oldest entries leaves the books in order. -/
theorem trim (h : g.Accounts entries lastId)
    (hsorted : entries.Pairwise fun a b => a.id < b.id) (n : ℕ) :
    g.Accounts (entries.drop n) lastId where
  start_le := h.start_le
  delivered_le := h.delivered_le
  acked_le := h.acked_le
  disjoint := h.disjoint
  covered e he := h.covered e (List.mem_of_mem_drop he)
  known := by
    intro p hp
    obtain ⟨hstart, hle, hentry⟩ := h.known p hp
    refine ⟨hstart, hle, ?_⟩
    rcases hentry with ⟨e, he, heq⟩ | hbelow
    · rw [← List.take_append_drop n entries] at he hsorted
      rcases List.mem_append.mp he with he | he
      · exact .inr fun e' he' => heq ▸ (List.pairwise_append.mp hsorted).2.2 e he e' he'
      · exact .inl ⟨e, he, heq⟩
    · exact .inr fun e he => hbelow e (List.mem_of_mem_drop he)

/-- Acknowledging a pending entry leaves the books in order. -/
theorem ack (h : g.Accounts entries lastId) {id : StreamId} (hid : ∃ p ∈ g.pel, p.id = id) :
    (g.ack id).Accounts entries lastId where
  start_le := h.start_le
  delivered_le := h.delivered_le
  acked_le := by
    intro id' hid'
    rcases List.mem_cons.mp hid' with rfl | hid'
    · obtain ⟨p, hp, rfl⟩ := hid
      exact g.pel_le p hp
    · exact h.acked_le id' hid'
  disjoint := by
    intro p hp hacked
    obtain ⟨hp, hne⟩ := List.mem_filter.mp hp
    rcases List.mem_cons.mp hacked with heq | hacked
    · simp [heq] at hne
    · exact h.disjoint p hp hacked
  covered := by
    intro e he hstart hle
    by_cases heq : e.id = id
    · exact .inr (heq ▸ List.mem_cons_self)
    rcases h.covered e he hstart hle with ⟨p, hp, hpe⟩ | hacked
    · exact .inl ⟨p, List.mem_filter.mpr ⟨hp, by simp [hpe, heq]⟩, hpe⟩
    · exact .inr (List.mem_cons_of_mem _ hacked)
  known p hp := h.known p (List.mem_of_mem_filter hp)

/-- Forgetting pending identifiers that name no entry leaves the books in order. -/
theorem filterPel (h : g.Accounts entries lastId) {keep : Pending → Bool}
    (hkeep : ∀ p, keep p = false → ∀ e ∈ entries, e.id ≠ p.id) :
    (g.filterPel keep).Accounts entries lastId where
  start_le := h.start_le
  delivered_le := h.delivered_le
  acked_le := h.acked_le
  disjoint p hp := h.disjoint p (List.mem_of_mem_filter hp)
  covered := by
    intro e he hstart hle
    rcases h.covered e he hstart hle with ⟨p, hp, hpe⟩ | hacked
    · refine .inl ⟨p, List.mem_filter.mpr ⟨hp, ?_⟩, hpe⟩
      by_contra hdropped
      exact hkeep p (by simpa using hdropped) e he hpe.symm
    · exact .inr hacked
  known p hp := h.known p (List.mem_of_mem_filter hp)

/-- Handing pending entries to another consumer leaves the books in order. -/
theorem reassign (h : g.Accounts entries lastId) (take : Pending → Bool) (consumer : String) :
    (g.reassign take consumer).Accounts entries lastId := by
  have hids : ∀ p ∈ (g.reassign take consumer).pel, ∃ q ∈ g.pel, p.id = q.id := by
    intro p hp
    obtain ⟨q, hq, rfl⟩ := List.mem_map.mp hp
    exact ⟨q, hq, by split_ifs <;> rfl⟩
  refine ⟨h.start_le, h.delivered_le, h.acked_le, ?_, ?_, ?_⟩
  · intro p hp
    obtain ⟨q, hq, heq⟩ := hids p hp
    exact heq ▸ h.disjoint q hq
  · intro e he hstart hle
    rcases h.covered e he hstart hle with ⟨p, hp, hpe⟩ | hacked
    · exact .inl ⟨_, List.mem_map_of_mem hp, by split_ifs <;> exact hpe⟩
    · exact .inr hacked
  · intro p hp
    obtain ⟨q, hq, heq⟩ := hids p hp
    exact heq ▸ h.known q hq

end Group.Accounts

/-! ### Streams -/

namespace Stream

variable {s : Stream} {g : Group}

theorem lastOf_cases (id : StreamId) (es : List StreamEntry) :
    lastOf id es = id ∨ ∃ e ∈ es, lastOf id es = e.id := by
  rcases hlast : es.getLast? with _ | e
  · exact .inl (by simp [lastOf, hlast])
  · exact .inr ⟨e, List.mem_of_getLast? hlast, by simp [lastOf, hlast]⟩

/-- An undelivered entry up to the last one handed out is among those handed out. -/
theorem mem_undelivered_of_le {count : ℕ} {e : StreamEntry} (he : e ∈ s.entries)
    (hnew : g.lastDelivered < e.id)
    (hle : e.id ≤ lastOf g.lastDelivered (s.undelivered g count)) :
    e ∈ s.undelivered g count := by
  have hmem : e ∈ s.entries.filter fun e => g.lastDelivered < e.id :=
    List.mem_filter.mpr ⟨he, by simpa using hnew⟩
  have hsorted := s.sorted.filter fun e => g.lastDelivered < e.id
  rw [← List.take_append_drop count (s.entries.filter _)] at hmem hsorted
  rcases List.mem_append.mp hmem with hmem | hmem
  · exact hmem
  · rcases lastOf_cases g.lastDelivered (s.undelivered g count) with heq | ⟨e', he', heq⟩
    · exact absurd hnew (not_lt.mpr (heq ▸ hle))
    · have hlt := (List.pairwise_append.mp hsorted).2.2 e' he' e hmem
      exact absurd hlt (not_lt.mpr (heq ▸ hle))

/-- Delivering new entries leaves the books in order. -/
theorem accounts_deliver (h : g.Accounts s.entries s.lastId) (count : ℕ) (consumer : String) :
    (s.deliver count consumer g).Accounts s.entries s.lastId where
  start_le := h.start_le.trans (le_lastOf_start fun e he => (mem_undelivered he).2)
  delivered_le := by
    rcases lastOf_cases g.lastDelivered (s.undelivered g count) with heq | ⟨e, he, heq⟩
    · exact h.delivered_le.imp (fun h => heq.trans h) fun h => (le_of_eq heq).trans h
    · exact .inr ((le_of_eq heq).trans (s.bounded e (mem_undelivered he).1))
  acked_le id hid := (h.acked_le id hid).trans (le_lastOf_start fun e he => (mem_undelivered he).2)
  disjoint := by
    intro p hp hacked
    rcases List.mem_append.mp hp with hp | hp
    · exact h.disjoint p hp hacked
    · obtain ⟨e, he, rfl⟩ := List.mem_map.mp hp
      exact absurd (mem_undelivered he).2 (not_lt.mpr (h.acked_le _ hacked))
  covered := by
    intro e he hstart hle
    by_cases hold : e.id ≤ g.lastDelivered
    · rcases h.covered e he hstart hold with ⟨p, hp, hpe⟩ | hacked
      · exact .inl ⟨p, List.mem_append_left _ hp, hpe⟩
      · exact .inr hacked
    · have hmem := mem_undelivered_of_le he (not_le.mp hold) hle
      exact .inl ⟨_, List.mem_append_right _ (List.mem_map_of_mem hmem), rfl⟩
  known := by
    intro p hp
    rcases List.mem_append.mp hp with hp | hp
    · exact h.known p hp
    · obtain ⟨e, he, rfl⟩ := List.mem_map.mp hp
      obtain ⟨hentry, hnew⟩ := mem_undelivered he
      exact ⟨h.start_le.trans_lt hnew, s.bounded e hentry, .inl ⟨e, hentry, rfl⟩⟩

theorem group?_eq_some {name : String} (h : s.group? name = some g) :
    g ∈ s.groups ∧ g.name = name :=
  ⟨List.mem_of_find?_eq_some h, by simpa using List.find?_some h⟩

/-- With distinct names, the group found is the only one of its name. -/
theorem Accounts.eq_of_group? (h : s.Accounts) {name : String} (hg : s.group? name = some g)
    {g' : Group} (hg' : g' ∈ s.groups) (hname : g'.name = name) : g' = g := by
  obtain ⟨hmem, hgname⟩ := group?_eq_some hg
  exact List.inj_on_of_nodup_map h.names hg' hmem (hname.trans hgname.symm)

theorem Accounts.empty : Stream.empty.Accounts where
  groups := by simp [Stream.empty]
  names := by simp [Stream.empty]
  positive := by simp [Stream.empty]
  length := by simp [Stream.empty]

theorem Accounts.add (h : s.Accounts) {id : StreamId} (fields : List (String × String))
    (hid : s.lastId < id) (hlength : (s.add id fields hid).entries.length < 2 ^ 64) :
    (s.add id fields hid).Accounts where
  groups g hg := (h.groups g hg).add hid fields
  names := h.names
  positive := by
    intro e he
    rcases List.mem_append.mp he with he | he
    · exact h.positive e he
    · exact (List.mem_singleton.mp he) ▸ (StreamId.zero_le s.lastId).trans_lt hid
  length := hlength

theorem Accounts.trim (h : s.Accounts) (n : ℕ) : (s.trim n).Accounts where
  groups g hg := (h.groups g hg).trim s.sorted n
  names := h.names
  positive e he := h.positive e (List.mem_of_mem_drop he)
  length := (List.drop_sublist n s.entries).length_le.trans_lt h.length

theorem Accounts.createGroup (h : s.Accounts) {name : String} (hnew : s.group? name = none)
    (start : StreamId) :
    Stream.Accounts { s with groups := s.groups ++ [.create name start] } where
  groups := by
    intro g hg
    rcases List.mem_append.mp hg with hg | hg
    · exact h.groups g hg
    · exact (List.mem_singleton.mp hg) ▸ .create name start s.entries s.lastId
  names := by
    rw [List.map_append, List.nodup_append]
    refine ⟨h.names, List.nodup_singleton _, fun a ha b hb => ?_⟩
    obtain ⟨g, hg, rfl⟩ := List.mem_map.mp ha
    obtain rfl := List.mem_singleton.mp hb
    simpa using List.find?_eq_none.mp hnew g hg
  positive := h.positive
  length := h.length

theorem Accounts.updateGroup (h : s.Accounts) {name : String} {f : Group → Group}
    (hname : ∀ g, (f g).name = g.name)
    (hf : ∀ g ∈ s.groups, g.name = name → (f g).Accounts s.entries s.lastId) :
    (s.updateGroup name f).Accounts where
  groups := by
    intro g hg
    obtain ⟨g', hg', rfl⟩ := List.mem_map.mp hg
    split_ifs with heq
    · exact hf g' hg' heq
    · exact h.groups g' hg'
  names := by
    have hnames : (s.updateGroup name f).groups.map Group.name = s.groups.map Group.name := by
      rw [Stream.updateGroup, List.map_map]
      refine List.map_congr_left fun g _ => ?_
      simp only [Function.comp]
      split_ifs
      · exact hname g
      · rfl
    exact hnames ▸ h.names
  positive := h.positive
  length := h.length

end Stream

/-! ### Commands -/

/-- The entries a reply hands to a consumer. -/
def StreamCmd.handed : (c : StreamCmd) → c.Reply → List EntryReply
  | .xreadgroup .., reply => match reply with
    | .ok (some entries) => entries
    | _ => []
  | .xautoclaim .., reply => match reply with
    | .ok reply => reply.claimed
    | .error _ => []
  | _, _ => []

/-- **What a command can do to a stream.** `StreamStep s c s' handed`: command `c` takes the
stream from `s` to `s'` and hands out the entries `handed`. -/
inductive StreamStep (s : Option Stream) : StreamCmd → Option Stream → List EntryReply → Prop
  | same (c : StreamCmd) : StreamStep s c s []
  | added {maxlen : Option ℕ} {fields : List (String × String)} {id : StreamId}
      (hid : (s.getD .empty).lastId < id)
      (hlength : ((s.getD .empty).add id fields hid).entries.length < 2 ^ 64) :
      StreamStep s (.xadd maxlen fields) (some ((s.getD .empty).add id fields hid)) []
  | trimmed {maxlen n : ℕ} {fields : List (String × String)} {id : StreamId}
      (hid : (s.getD .empty).lastId < id)
      (hlength : ((s.getD .empty).add id fields hid).entries.length < 2 ^ 64) :
      StreamStep s (.xadd (some maxlen) fields)
        (some (((s.getD .empty).add id fields hid).trim n)) []
  | created {group start : String} {id : StreamId}
      (hstart : parseGroupStart (s.getD .empty) start = some id)
      (hnew : (s.getD .empty).group? group = none) :
      StreamStep s (.xgroupCreate group start)
        (some { s.getD .empty with groups := (s.getD .empty).groups ++ [.create group id] }) []
  | acked {stream : Stream} {g : Group} {group text : String} {id : StreamId}
      (hs : s = some stream) (hid : StreamId.parse text = some id)
      (hg : stream.group? group = some g) (hpending : ∃ p ∈ g.pel, p.id = id) :
      StreamStep s (.xack group text) (some (stream.updateGroup group fun g => g.ack id)) []
  | reassigned {stream : Stream} {g : Group} {group consumer start : String}
      {minIdle count : ℕ} {keep take : Pending → Bool} {handed : List EntryReply}
      (hs : s = some stream) (hg : stream.group? group = some g)
      (hkeep : ∀ p, keep p = false → ∀ e ∈ stream.entries, e.id ≠ p.id)
      (hhanded : ∀ entry ∈ handed, ∃ p ∈ g.pel, ∃ e ∈ stream.entries,
        e.id = p.id ∧ e.reply = entry) :
      StreamStep s (.xautoclaim group consumer minIdle start count)
        (some (stream.updateGroup group fun g => (g.filterPel keep).reassign take consumer)) handed
  | delivered {stream : Stream} {g : Group} {group consumer : String} {count : ℕ}
      {block : Option ℕ} (hs : s = some stream) (hg : stream.group? group = some g) :
      StreamStep s (.xreadgroup group consumer count block)
        (some (stream.updateGroup group (stream.deliver count consumer)))
        ((stream.undelivered g count).map StreamEntry.reply)

variable {s s' : Option Stream} {choice : StreamChoice} {c : StreamCmd} {r : c.Reply}

theorem Stream.findEntry_eq_some {stream : Stream} {id : StreamId} {e : StreamEntry}
    (h : stream.findEntry id = some e) : e ∈ stream.entries ∧ e.id = id :=
  ⟨List.mem_of_find?_eq_some h, by simpa using List.find?_some h⟩

/-- **The list is complete.** -/
theorem StreamCmd.run_step (hrun : c.run s choice = some (s', r)) :
    StreamStep s c s' (c.handed r) := by
  cases c with
  | exist =>
    obtain ⟨rfl, -⟩ := Prod.mk.inj (Option.some.inj hrun)
    exact .same _
  | xadd maxlen fields =>
    simp only [StreamCmd.run] at hrun
    split_ifs at hrun with hid hlength hmaxlen
    all_goals obtain ⟨rfl, -⟩ := Prod.mk.inj (Option.some.inj hrun)
    · obtain ⟨maxlen, rfl⟩ := Option.isSome_iff_exists.mp hmaxlen
      exact .trimmed hid hlength
    · exact .added hid hlength
  | xgroupCreate group start =>
    simp only [StreamCmd.run] at hrun
    split at hrun
    · obtain ⟨rfl, -⟩ := Prod.mk.inj (Option.some.inj hrun)
      exact .same _
    · split at hrun
      · rename_i g hg
        obtain ⟨rfl, -⟩ := Prod.mk.inj (Option.some.inj hrun)
        -- a group of that name is there, so the stream is
        rcases s with _ | stream
        · cases hg
        · exact .same _
      · obtain ⟨rfl, -⟩ := Prod.mk.inj (Option.some.inj hrun)
        exact .created ‹_› ‹_›
  | xinfoGroups =>
    simp only [StreamCmd.run] at hrun
    split at hrun <;>
    · obtain ⟨rfl, -⟩ := Prod.mk.inj (Option.some.inj hrun)
      exact .same _
  | xrange start stop count =>
    simp only [StreamCmd.run] at hrun
    split at hrun <;>
    · obtain ⟨rfl, -⟩ := Prod.mk.inj (Option.some.inj hrun)
      exact .same _
  | xpending group start stop count =>
    simp only [StreamCmd.run] at hrun
    repeat' split at hrun
    all_goals
      obtain ⟨rfl, -⟩ := Prod.mk.inj (Option.some.inj hrun)
      exact .same _
  | xack group text =>
    simp only [StreamCmd.run] at hrun
    split at hrun
    · obtain ⟨rfl, -⟩ := Prod.mk.inj (Option.some.inj hrun)
      exact .same _
    · rename_i id hid
      split at hrun
      · obtain ⟨rfl, -⟩ := Prod.mk.inj (Option.some.inj hrun)
        exact .same _
      · rename_i g hg
        split_ifs at hrun with hpending
        all_goals obtain ⟨rfl, -⟩ := Prod.mk.inj (Option.some.inj hrun)
        · rcases s with _ | stream
          · cases hg
          · exact .acked rfl hid hg (by simpa using hpending)
        · exact .same _
  | xautoclaim group consumer minIdle start count =>
    simp only [StreamCmd.run] at hrun
    split at hrun
    · rename_i stream start hstart
      split at hrun
      · obtain ⟨rfl, rfl⟩ := Prod.mk.inj (Option.some.inj hrun)
        exact .same _
      · rename_i g hg
        split_ifs at hrun
        obtain ⟨rfl, rfl⟩ := Prod.mk.inj (Option.some.inj hrun)
        refine .reassigned rfl hg (fun p hp e he heq => ?_) (fun entry hentry => ?_)
        · have hnone : stream.findEntry p.id = none := by simp_all
          exact absurd heq (by simpa using List.find?_eq_none.mp hnone e he)
        · obtain ⟨p, hp, hmap⟩ := List.mem_filterMap.mp hentry
          obtain ⟨e, he, rfl⟩ := Option.map_eq_some_iff.mp hmap
          obtain ⟨hmem, heq⟩ := Stream.findEntry_eq_some he
          have hscanned := List.mem_of_mem_take (List.mem_of_mem_filter hp)
          exact ⟨p, List.mem_of_mem_filter hscanned, e, hmem, heq, rfl⟩
    all_goals
      obtain ⟨rfl, rfl⟩ := Prod.mk.inj (Option.some.inj hrun)
      exact .same _
  | xreadgroup group consumer count block =>
    simp only [StreamCmd.run] at hrun
    split at hrun
    · obtain ⟨rfl, rfl⟩ := Prod.mk.inj (Option.some.inj hrun)
      exact .same _
    · split at hrun
      · obtain ⟨rfl, rfl⟩ := Prod.mk.inj (Option.some.inj hrun)
        exact .same _
      · rename_i stream g hg
        split at hrun
        all_goals obtain ⟨rfl, rfl⟩ := Prod.mk.inj (Option.some.inj hrun)
        · exact .same _
        · exact .delivered rfl hg

/-! ### The invariant -/

/-- The books of a stream that may not exist. -/
def Accounts (s : Option Stream) : Prop := ∀ stream, s = some stream → stream.Accounts

theorem Accounts.getD (h : Accounts s) : (s.getD .empty).Accounts := by
  rcases s with _ | stream
  · exact .empty
  · exact h stream rfl

theorem accounts_some {stream : Stream} (h : stream.Accounts) : Accounts (some stream) :=
  fun _ heq => Option.some.inj heq ▸ h

/-- **Every command leaves the books in order.** -/
theorem StreamStep.accounts {handed : List EntryReply} (hstep : StreamStep s c s' handed)
    (h : Accounts s) : Accounts s' := by
  cases hstep with
  | same => exact h
  | added hid hlength => exact accounts_some (h.getD.add _ hid hlength)
  | trimmed hid hlength => exact accounts_some ((h.getD.add _ hid hlength).trim _)
  | created hstart hnew => exact accounts_some (h.getD.createGroup hnew _)
  | @acked stream g group text id hs hid hg hpending =>
    have haccounts : stream.Accounts := h stream hs
    refine accounts_some (haccounts.updateGroup (fun _ => rfl) fun g' hg' hname => ?_)
    obtain rfl := haccounts.eq_of_group? hg hg' hname
    exact (haccounts.groups g' hg').ack hpending
  | @reassigned stream g group consumer start minIdle count keep take handed hs hg hkeep =>
    have haccounts : stream.Accounts := h stream hs
    exact accounts_some (haccounts.updateGroup (fun _ => rfl) fun g' hg' _ =>
      ((haccounts.groups g' hg').filterPel hkeep).reassign take consumer)
  | @delivered stream g group consumer count block hs hg =>
    have haccounts : stream.Accounts := h stream hs
    exact accounts_some (haccounts.updateGroup (fun _ => rfl) fun g' hg' _ =>
      Stream.accounts_deliver (haccounts.groups g' hg') count consumer)

/-! ### What one command changes -/

/-- The entries of a stream that may not exist. -/
def entriesOf (s : Option Stream) : List StreamEntry := (s.getD .empty).entries

/-- The groups of a stream that may not exist. -/
def groupsOf (s : Option Stream) : List Group := (s.getD .empty).groups

/-- An identifier names one entry. -/
theorem entry_unique {e e' : StreamEntry} (he : e ∈ entriesOf s) (he' : e' ∈ entriesOf s)
    (hid : e.id = e'.id) : e = e' := by
  have hnodup : ((entriesOf s).map StreamEntry.id).Nodup :=
    List.pairwise_map.mpr ((s.getD .empty).sorted.imp fun hlt => hlt.ne)
  exact List.inj_on_of_nodup_map hnodup he he' hid

variable {handed : List EntryReply}

/-- A new entry is one that `XADD` was given. -/
theorem StreamStep.entries_cases (hstep : StreamStep s c s' handed) {e : StreamEntry}
    (he : e ∈ entriesOf s') : e ∈ entriesOf s ∨ ∃ maxlen, c = .xadd maxlen e.fields := by
  cases hstep with
  | same | created => exact .inl he
  | added hid hlength =>
    rcases List.mem_append.mp he with he | he
    · exact .inl he
    · obtain rfl := List.mem_singleton.mp he
      exact .inr ⟨_, rfl⟩
  | trimmed hid hlength =>
    rcases List.mem_append.mp (List.mem_of_mem_drop he) with he | he
    · exact .inl he
    · obtain rfl := List.mem_singleton.mp he
      exact .inr ⟨_, rfl⟩
  | acked hs | reassigned hs | delivered hs => exact .inl (hs ▸ he)

/-- Entries stay, unless the stream is trimmed. -/
theorem StreamStep.entries_subset (hstep : StreamStep s c s' handed)
    (htrim : ∀ n fields, c ≠ .xadd (some n) fields) {e : StreamEntry} (he : e ∈ entriesOf s) :
    e ∈ entriesOf s' := by
  cases hstep with
  | same | created => exact he
  | added hid hlength => exact List.mem_append_left _ he
  | trimmed hid hlength => exact absurd rfl (htrim _ _)
  | acked hs | reassigned hs | delivered hs =>
    subst hs
    exact he

theorem Stream.mem_updateGroup {stream : Stream} {name : String} {f : Group → Group} {g : Group}
    (hg : g ∈ stream.groups) :
    (if g.name = name then f g else g) ∈ (stream.updateGroup name f).groups :=
  List.mem_map_of_mem hg

/-- Groups stay, under their names, and what they have delivered stays delivered. -/
theorem StreamStep.groups_mono (hstep : StreamStep s c s' handed) {g : Group}
    (hg : g ∈ groupsOf s) :
    ∃ g' ∈ groupsOf s', g'.name = g.name ∧ g'.start = g.start ∧
      g.lastDelivered ≤ g'.lastDelivered := by
  cases hstep with
  | same | added | trimmed => exact ⟨g, hg, rfl, rfl, le_rfl⟩
  | created hstart hnew => exact ⟨g, List.mem_append_left _ hg, rfl, rfl, le_rfl⟩
  | acked hs | reassigned hs =>
    subst hs
    refine ⟨_, Stream.mem_updateGroup hg, ?_, ?_, ?_⟩ <;> split_ifs
    all_goals rfl
  | delivered hs =>
    subst hs
    refine ⟨_, Stream.mem_updateGroup hg, ?_, ?_, ?_⟩ <;> split_ifs
    all_goals first
      | rfl
      | exact Stream.le_lastOf_start fun e he => (Stream.mem_undelivered he).2

/-- **Acknowledged by `XACK` alone.** -/
theorem StreamStep.acked_cases (hstep : StreamStep s c s' handed) {g' : Group} {id : StreamId}
    (hg' : g' ∈ groupsOf s') (hid : id ∈ g'.acked) :
    (∃ g ∈ groupsOf s, g.name = g'.name ∧ id ∈ g.acked) ∨
      ∃ text, c = .xack g'.name text ∧ StreamId.parse text = some id := by
  cases hstep with
  | same | added | trimmed => exact .inl ⟨g', hg', rfl, hid⟩
  | created hstart hnew =>
    rcases List.mem_append.mp hg' with hg' | hg'
    · exact .inl ⟨g', hg', rfl, hid⟩
    · obtain rfl := List.mem_singleton.mp hg'
      simp [Group.create] at hid
  | @acked stream _ group text id' hs hparse =>
    subst hs
    obtain ⟨g, hg, rfl⟩ := List.mem_map.mp hg'
    split_ifs at hid ⊢ with hname
    · rcases List.mem_cons.mp hid with rfl | hid
      · exact .inr ⟨text, by rw [← hname]; rfl, hparse⟩
      · exact .inl ⟨g, hg, rfl, hid⟩
    · exact .inl ⟨g, hg, rfl, hid⟩
  | reassigned hs | delivered hs =>
    subst hs
    obtain ⟨g, hg, rfl⟩ := List.mem_map.mp hg'
    refine .inl ⟨g, hg, ?_, ?_⟩
    · split_ifs <;> rfl
    · split_ifs at hid <;> exact hid

/-- The group a command takes entries for. -/
def StreamCmd.takesFor : StreamCmd → Option String
  | .xautoclaim group _ _ _ _ | .xreadgroup group _ _ _ => some group
  | _ => none

/-- **What is handed out is delivered.** An entry handed to a consumer is an entry of the
stream, and its group has delivered it. -/
theorem StreamStep.handed_delivered (hstep : StreamStep s c s' handed) {entry : EntryReply}
    (hentry : entry ∈ handed) :
    ∃ g ∈ groupsOf s', c.takesFor = some g.name ∧
      ∃ e ∈ entriesOf s', e.reply = entry ∧ e.id ≤ g.lastDelivered := by
  cases hstep with
  | same | added | trimmed | created | acked => cases hentry
  | @reassigned stream g group _ _ _ _ keep take _ hs hg hkeep hhanded =>
    obtain ⟨hmem, hname⟩ := Stream.group?_eq_some hg
    obtain ⟨p, hp, e, he, heq, rfl⟩ := hhanded entry hentry
    refine ⟨_, Stream.mem_updateGroup hmem, ?_, e, he, rfl, ?_⟩ <;> rw [if_pos hname]
    · exact congrArg some hname.symm
    · exact heq ▸ g.pel_le p hp
  | @delivered stream g group consumer count block hs hg =>
    obtain ⟨hmem, hname⟩ := Stream.group?_eq_some hg
    obtain ⟨e, he, rfl⟩ := List.mem_map.mp hentry
    refine ⟨_, Stream.mem_updateGroup hmem, ?_, e, (Stream.mem_undelivered he).1, rfl, ?_⟩ <;>
      rw [if_pos hname]
    · exact congrArg some hname.symm
    · exact Stream.le_lastOf (stream.undelivered_sorted g count) he

end Redis
