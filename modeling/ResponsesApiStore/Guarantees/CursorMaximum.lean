import ResponsesApiStore.System.Execution
import ResponsesApiStore.Core.Cursor

/-!
# The cursor as a running maximum

Calls of `set_autoclaim_cursor` one after the other leave the greatest cursor they were given, and
`0-0` starts anew: what counts is what was given from the last `0-0` on, or, if there was none, all
that was given and what was stored before (`considered`). Any servers make the calls; their
commands are executed, and a reply may be lost.
-/

namespace ResponsesApiStore

open Redis (StreamId)
open Interaction.Program

/-- A command of task `i` of server `n` is executed; its reply may be lost. -/
def ExecutedAt (i n : ℕ) (σ : Shared) (c : Cmd) (σ' : Shared) (r : c.Reply) : Prop :=
  ∃ choice : Choice, choice.delivery.ran = true ∧ σ.exec i n choice c = some (σ', r)

/-- The cursor of the group is set to `ids`, in one call after the other. -/
def SetsCursor (cfg : StoreConfig) (group : String) : Shared → List StreamId → Shared → Prop
  | σ, [], σ' => σ = σ'
  | σ, id :: ids, σ' => ∃ i n ρ result,
      (BackgroundQueue.setAutoclaimCursor cfg group id.format).run.EndsIn (ExecutedAt i n) σ ρ
        result ∧
      SetsCursor cfg group ρ ids σ'

/-- The part of a list that begins with its last `0-0`. -/
def fromReset : List StreamId → Option (List StreamId)
  | [] => none
  | id :: ids => (fromReset ids).or (if id = .zero then some (id :: ids) else none)

/-- The cursors among which the stored one is the greatest. -/
def considered (initial : Option StreamId) (ids : List StreamId) : List StreamId :=
  (fromReset ids).getD (initial.toList ++ ids)

/-- The parts of an identifier are exact as doubles. -/
def Exact (id : StreamId) : Prop := id.ms.toNat < 2 ^ 53 ∧ id.seq.toNat < 2 ^ 53

theorem fromReset_eq_none {ids : List StreamId} (h : .zero ∉ ids) : fromReset ids = none := by
  induction ids with
  | nil => rfl
  | cons id ids ih =>
    obtain ⟨hne, hrest⟩ := not_or.mp (List.mem_cons.not.mp h)
    rw [fromReset, ih hrest, if_neg (Ne.symm hne)]
    rfl

/-- The cursor after one script. -/
def afterScript (initial : Option StreamId) (id : StreamId) : StreamId :=
  if id = .zero then id else (initial.map fun old => max old id).getD id

/-- One script, then the others. -/
theorem max?_considered_cons (initial : Option StreamId) (id : StreamId) (ids : List StreamId) :
    (considered initial (id :: ids)).max? =
      (considered (some (afterScript initial id)) ids).max? := by
  rw [considered, considered, fromReset, afterScript]
  rcases fromReset ids with _ | rest
  · rw [Option.none_or, Option.getD_none]
    split_ifs with hzero
    · rw [Option.getD_some, Option.toList_some, List.singleton_append]
    · rcases initial with _ | old
      · rw [Option.getD_none, Option.map_none, Option.getD_none, Option.toList_none,
          Option.toList_some, List.nil_append, List.singleton_append]
      · rw [Option.getD_none, Option.map_some, Option.getD_some, Option.toList_some,
          Option.toList_some, List.singleton_append, List.singleton_append, List.max?_cons',
          List.max?_cons', List.foldl_cons]
  · rw [Option.some_or, Option.getD_some, Option.getD_some]

section Calls

variable {cfg : StoreConfig} {group : String} {σ : Shared}

/-- **One call** stores what is considered. It always ends. -/
theorem ensures_setAutoclaimCursor {i n : ℕ} {id : StreamId} {initial : Option StreamId}
    (hinitial : σ.cursors (autoclaimCursorKey cfg.streamKey group) = initial.map StreamId.format)
    (hexact : Exact id) :
    (BackgroundQueue.setAutoclaimCursor cfg group id.format).run.Ensures (ExecutedAt i n)
      (fun ρ _ => ρ.cursors (autoclaimCursorKey cfg.streamKey group) =
        some (afterScript initial id).format) σ := by
  have hscript : BackgroundQueue.autoclaimCursorScript
      (σ.cursors (autoclaimCursorKey cfg.streamKey group)) id.format =
      .ok (some (afterScript initial id).format) := by
    rw [hinitial, afterScript]
    split_ifs with hzero
    · rw [hzero]
      exact BackgroundQueue.autoclaimCursorScript_zero _
    · rcases initial with _ | old
      · rw [Option.map_none, Option.map_none, Option.getD_none]
        exact BackgroundQueue.autoclaimCursorScript_none id
      · rw [Option.map_some, Option.map_some, Option.getD_some]
        exact BackgroundQueue.autoclaimCursorScript_max hzero hexact.1 hexact.2
  rw [BackgroundQueue.setAutoclaimCursor, ensures_storage]
  constructor
  · obtain ⟨ρ, reply, hexec⟩ : ∃ ρ reply, σ.exec i n Sample.answered
        (.cursorScript (autoclaimCursorKey cfg.streamKey group) id.format) = some (ρ, reply) := by
      simp only [Shared.exec, hscript]
      exact ⟨_, _, rfl⟩
    exact ⟨ρ, reply, Sample.answered, rfl, hexec⟩
  · rintro ρ reply ⟨choice, hran, hexec⟩
    simp only [Shared.exec, hscript, Shared.runIf, hran, if_true] at hexec
    obtain ⟨rfl, -⟩ := Prod.mk.inj (Option.some.inj hexec)
    exact Function.update_self ..

/-- Calls one after the other store the greatest cursor considered. -/
theorem SetsCursor.cursors_eq {σ' : Shared} {ids : List StreamId}
    (h : SetsCursor cfg group σ ids σ') {initial : Option StreamId}
    (hinitial : σ.cursors (autoclaimCursorKey cfg.streamKey group) = initial.map StreamId.format)
    (hexact : ∀ id ∈ ids, Exact id) :
    σ'.cursors (autoclaimCursorKey cfg.streamKey group) =
      (considered initial ids).max?.map StreamId.format := by
  induction ids generalizing σ initial with
  | nil =>
    obtain rfl : σ = σ' := h
    rw [hinitial]
    rcases initial with _ | old <;> rfl
  | cons id ids ih =>
    obtain ⟨i, n, ρ, result, hends, hrest⟩ := h
    obtain ⟨hid, hids⟩ := List.forall_mem_cons.mp hexact
    rw [max?_considered_cons]
    exact ih hrest ((ensures_setAutoclaimCursor hinitial hid).endsIn.2 ρ result hends) hids

/-- The cursor can always be set. -/
theorem exists_setsCursor {ids : List StreamId} {initial : Option StreamId}
    (hinitial : σ.cursors (autoclaimCursorKey cfg.streamKey group) = initial.map StreamId.format)
    (hexact : ∀ id ∈ ids, Exact id) : ∃ σ', SetsCursor cfg group σ ids σ' := by
  induction ids generalizing σ initial with
  | nil => exact ⟨σ, rfl⟩
  | cons id ids ih =>
    obtain ⟨hid, hids⟩ := List.forall_mem_cons.mp hexact
    obtain ⟨⟨ρ, result, hends⟩, hstores⟩ :=
      (ensures_setAutoclaimCursor (i := 0) (n := 0) hinitial hid).endsIn
    have hstored : ρ.cursors (autoclaimCursorKey cfg.streamKey group) =
        (some (afterScript initial id)).map StreamId.format := hstores ρ result hends
    obtain ⟨σ', hrest⟩ := ih hstored hids
    exact ⟨σ', 0, 0, ρ, result, hends, hrest⟩

end Calls

theorem considered_eq_append {initial : Option StreamId} {ids : List StreamId}
    (h : .zero ∉ ids) : considered initial ids = initial.toList ++ ids := by
  rw [considered, fromReset_eq_none h, Option.getD_none]

/-- The greatest element of a list is that of any reordering. -/
theorem max?_perm {xs ys : List StreamId} (h : xs.Perm ys) : xs.max? = ys.max? := by
  rcases hx : xs.max? with _ | m
  · rw [List.max?_eq_none_iff] at hx
    rw [hx] at h
    rw [List.nil_perm.mp h, List.max?_nil]
  · obtain ⟨hmem, hle⟩ := List.max?_eq_some_iff.mp hx
    refine (List.max?_eq_some_iff.mpr ⟨h.mem_iff.mp hmem, fun b hb => ?_⟩).symm
    exact hle b (h.mem_iff.mpr hb)

/-- **A running maximum with reset.** Whatever cursor is stored, or none: after calls of
`set_autoclaim_cursor` with identifiers whose parts are exact as doubles, the stored cursor is the
greatest of those given from the last `0-0` on, or, if none was `0-0`, the greatest of all that were
given and the one stored at first. So as long as `0-0` is not given the cursor does not go back, and
the order in which cursors are given does not matter. -/
theorem cursor_running_maximum {cfg : StoreConfig} {group : String} {σ : Shared}
    {initial : Option StreamId} {ids : List StreamId}
    (hinitial : σ.cursors (autoclaimCursorKey cfg.streamKey group) = initial.map StreamId.format)
    (hexact : ∀ id ∈ ids, Exact id) :
    (∃ σ', SetsCursor cfg group σ ids σ') ∧
      (∀ σ', SetsCursor cfg group σ ids σ' →
        σ'.cursors (autoclaimCursorKey cfg.streamKey group) =
          (considered initial ids).max?.map StreamId.format) ∧
      (∀ earlier later σ₁ σ₂, ids = earlier ++ later → SetsCursor cfg group σ earlier σ₁ →
        SetsCursor cfg group σ₁ later σ₂ → .zero ∉ later →
        cursorId (σ₁.cursors (autoclaimCursorKey cfg.streamKey group)) ≤
          cursorId (σ₂.cursors (autoclaimCursorKey cfg.streamKey group))) ∧
      ∀ ids' σ₁ σ₂, ids.Perm ids' → .zero ∉ ids → SetsCursor cfg group σ ids σ₁ →
        SetsCursor cfg group σ ids' σ₂ →
        σ₁.cursors (autoclaimCursorKey cfg.streamKey group) =
          σ₂.cursors (autoclaimCursorKey cfg.streamKey group) := by
  refine ⟨exists_setsCursor hinitial hexact, fun σ' h => h.cursors_eq hinitial hexact, ?_, ?_⟩
  · rintro earlier later σ₁ σ₂ rfl hearlier hlater hzero
    obtain ⟨hexact₁, hexact₂⟩ := List.forall_mem_append.mp hexact
    have hstored₁ := hearlier.cursors_eq hinitial hexact₁
    have hstored₂ := hlater.cursors_eq hstored₁ hexact₂
    rw [considered_eq_append hzero] at hstored₂
    rw [hstored₁, hstored₂]
    generalize (considered initial earlier).max? = reached
    rcases reached with _ | m
    · exact StreamId.zero_le _
    · rw [Option.toList_some, List.singleton_append, Option.map_some, cursorId_format]
      obtain ⟨n, hn⟩ : ∃ n, (m :: later).max? = some n := ⟨_, List.max?_cons'⟩
      rw [hn, Option.map_some, cursorId_format]
      exact (List.max?_eq_some_iff.mp hn).2 m List.mem_cons_self
  · intro ids' σ₁ σ₂ hperm hzero h₁ h₂
    have hzero' : .zero ∉ ids' := fun hmem => hzero (hperm.mem_iff.mpr hmem)
    have hexact' : ∀ id ∈ ids', Exact id := fun id hid => hexact id (hperm.mem_iff.mpr hid)
    rw [h₁.cursors_eq hinitial hexact, h₂.cursors_eq hinitial hexact', considered_eq_append hzero,
      considered_eq_append hzero', max?_perm (hperm.append_left initial.toList)]

/-- After `7-0`, `0-0`, `6-0` and `5-3` the cursor is `6-0`. -/
theorem cursor_running_maximum_reset : ∃ σ',
    SetsCursor Sample.config "g" (Sample.start none).shared [⟨7, 0⟩, .zero, ⟨6, 0⟩, ⟨5, 3⟩] σ' ∧
      σ'.cursors (autoclaimCursorKey Sample.config.streamKey "g") = some "6-0" := by
  have hexact : ∀ id ∈ [(⟨7, 0⟩ : StreamId), .zero, ⟨6, 0⟩, ⟨5, 3⟩], Exact id := by
    simp [Exact, StreamId.zero]
  have hinitial : (Sample.start none).shared.cursors
      (autoclaimCursorKey Sample.config.streamKey "g") =
        (none : Option StreamId).map StreamId.format := rfl
  have hmaximum := cursor_running_maximum hinitial hexact
  obtain ⟨σ', hcalls⟩ := hmaximum.1
  refine ⟨σ', hcalls, ?_⟩
  rw [hmaximum.2.1 σ' hcalls]
  decide

end ResponsesApiStore
