import ResponsesApiStore.System.Execution

/-!
# Repeated deletes

What a delete makes of the text at its key when nobody else changes it and no request to Redis
fails (`afterDelete`): a job in flight is replaced by its tombstone, anything else is removed, a
text that cannot be read and a tombstone included. So a second delete removes the tombstone of
the first. Repeating a delete changes nothing exactly if the record was not in flight, or a
tombstone already (`deletes_idempotent`).
-/

namespace ResponsesApiStore

open Json (Serde)
open Redis (Keyspace)
open Interaction (Machine World Label Program)
open Interaction.Program

variable {N : Type}

/-! ### One key, answered from its text -/

/-- How the commands on a key are answered from the text at it. -/
def KeyAnswered (key : String) (text : Option String) : (c : Cmd) → Option String → c.Reply → Prop
  | .get k, text', r => k = key ∧ text' = text ∧ r = .ok text
  | .setEx k ttl payload, text', r =>
    k = key ∧ Keyspace.ValidTtl ttl ∧ text' = some payload ∧ r = .ok ()
  | .del k, text', r => k = key ∧ text' = none ∧ r = .ok ()
  | _, _, _ => False

section Procedure

variable {cfg : StoreConfig} {S : Serde N} {id : String} {text : Option String}

/-- What a delete makes of the text at its key. -/
def afterDelete (S : Serde N) (id : String) (text : Option String) : Option String :=
  text.bind fun v => match StoredResponse.ofText S v with
    | .ok stored =>
      if isDeletedTombstone stored || !isInFlightBackground stored then none
      else match (tombstoneOf stored id).toText S with
        | .ok payload => some payload
        | .error _ => some v
    | .error _ => none

theorem ensures_load {post : Option String → Except Fault (Option (StoredResponse N)) → Prop}
    (hnone : text = none → post text (.ok none))
    (hsome : ∀ v, text = some v → post text ((ResponseStore.decode S v).map some)) :
    (ResponseStore.load cfg S id).run.Ensures (KeyAnswered (ResponseStore.key cfg id)) post
      text := by
  rw [ResponseStore.load, ensures_except_bind_iff, ensures_storage]
  refine ⟨⟨text, .ok text, rfl, rfl, rfl⟩, ?_⟩
  rintro text' r ⟨-, rfl, rfl⟩
  cases text' with
  | none => exact hnone rfl
  | some v =>
    change (some <$> ofExcept (ResponseStore.decode S v) : Act _).run.Ensures _ post _
    have hpost := hsome v rfl
    cases hdecode : ResponseStore.decode S v with
    | error fault =>
      rw [hdecode] at hpost
      exact hpost
    | ok stored =>
      rw [hdecode] at hpost
      exact hpost

/-- The read of a delete: the record, unless it is a tombstone. -/
theorem ensures_get {post : Option String → Except Fault (StoredResponse N) → Prop}
    (hlive : ∀ v stored, text = some v → StoredResponse.ofText S v = .ok stored →
      isDeletedTombstone stored = false → post text (.ok stored))
    (herror : (∀ v stored, text = some v → StoredResponse.ofText S v = .ok stored →
      isDeletedTombstone stored = true) → ∀ err, post text (.error (.error err))) :
    (ResponseStore.get cfg S id false).run.Ensures (KeyAnswered (ResponseStore.key cfg id)) post
      text := by
  rw [ResponseStore.get, ensures_except_bind_iff]
  refine ensures_load (fun hnone => herror ?_ _) fun v hv => ?_
  · intro v stored hv
    rw [hnone] at hv
    cases hv
  · rw [ResponseStore.decode]
    cases hread : StoredResponse.ofText S v with
    | error e =>
      refine herror ?_ _
      intro v' stored hv' hstored
      obtain rfl := Option.some.inj (hv.symm.trans hv')
      rw [hread] at hstored
      cases hstored
    | ok stored =>
      change (if isDeletedTombstone stored then raise (.notFound id)
        else return stored : Act (StoredResponse N)).run.Ensures _ post text
      split_ifs with hdeleted
      · refine herror ?_ _
        intro v' stored' hv' hstored'
        obtain rfl := Option.some.inj (hv.symm.trans hv')
        obtain rfl := Except.ok.inj (hread.symm.trans hstored')
        exact hdeleted
      · exact hlive v stored hv hread (Bool.eq_false_iff.mpr hdeleted)

/-- **One delete.** -/
theorem ensures_deleteResponse (hid : id.isEmpty = false)
    (httl : Keyspace.ValidTtl cfg.ttlSeconds) :
    (deleteResponse cfg S id).run.Ensures (KeyAnswered (ResponseStore.key cfg id))
      (fun text' _ => text' = afterDelete S id text) text := by
  have hdel : ∀ text : Option String, (ResponseStore.delete cfg id).run.Ensures
      (KeyAnswered (ResponseStore.key cfg id)) (fun text' _ => text' = none) text := by
    intro text
    rw [ResponseStore.delete, ensures_storage]
    refine ⟨⟨none, .ok (), rfl, rfl, rfl⟩, ?_⟩
    rintro text' r ⟨-, rfl, -⟩
    rfl
  have hpositive : cfg.ttlSeconds ≠ 0 := by
    intro hzero
    have hlt := httl.1
    rw [hzero] at hlt
    exact absurd hlt (by decide)
  have hbody : (deleteOrTombstone cfg S id).run.Ensures (KeyAnswered (ResponseStore.key cfg id))
      (fun text' _ => text' = afterDelete S id text) text := by
    rw [deleteOrTombstone, ensures_except_bind_iff, ensures_outcome]
    refine ensures_get (fun v stored hv hread hlive => ?_) fun hnone err => ?_
    · rw [hv]
      change (if isInFlightBackground stored then
        ResponseStore.tombstoneDeletedBackground cfg S id stored
        else ResponseStore.delete cfg id : Act Unit).run.Ensures _ _ _
      split_ifs with hflight
      · rw [ResponseStore.tombstoneDeletedBackground, ResponseStore.store, Option.getD_none,
          if_neg hpositive, ensures_except_bind_iff, ResponseStore.encode]
        have hafter : afterDelete S id (some v) = match (tombstoneOf stored id).toText S with
            | .ok payload => some payload
            | .error _ => some v := by
          simp [afterDelete, hread, hlive, hflight]
        rw [hafter]
        cases hprint : (tombstoneOf stored id).toText S with
        | error e => rfl
        | ok payload =>
          change (storage (send (.setEx _ cfg.ttlSeconds payload))).run.Ensures _ _ _
          rw [ensures_storage]
          refine ⟨⟨some payload, .ok (), rfl, httl, rfl, rfl⟩, ?_⟩
          rintro text' r ⟨-, -, rfl, -⟩
          rfl
      · have hafter : afterDelete S id (some v) = none := by simp [afterDelete, hread, hflight]
        rw [hafter]
        exact hdel _
    · have hafter : afterDelete S id text = none := by
        rw [afterDelete, Option.bind_eq_none_iff]
        intro v hv
        cases hread : StoredResponse.ofText S v with
        | error e => rfl
        | ok stored => simp [hnone v stored hv hread]
      rw [hafter]
      exact hdel _
  rw [deleteResponse, hid, if_neg Bool.false_ne_true, ensures_except_bind_iff, ensures_rpc]
  refine hbody.mono ?_
  rintro text' (fault | a) htext <;> exact htext

end Procedure

section Calls

variable [DecidableEq N] (cfg : StoreConfig) (S : Serde N) (fuel : ℕ)

/-- Task `i` is alone with the key: its requests to Redis are answered, and nobody else changes
the text at the key. -/
structure AloneAt (key : String) (i : ℕ) (w : DWorld) (l : DLabel) : Prop where
  answered : ∀ choice, l = .act i choice → choice.delivery = .replied
  kept : ∀ w', (deployment cfg S fuel).step w l = some w' → (∀ choice, l ≠ .act i choice) →
    w'.shared.textAt key = w.shared.textAt key

/-- A delete of `id` is called and answered between two worlds, alone with the key. -/
def Deletes (id : String) (w w' : DWorld) : Prop :=
  ∃ i n ls t r, (deployment cfg S fuel).RunIn (AloneAt cfg S fuel (ResponseStore.key cfg id) i) w
    (.spawn i ⟨n, .deleteResponse id⟩ :: ls) w' ∧ w'.tasks i = some t ∧ t.prog = .ret r

/-- A number of deletes of `id`, one after another. -/
def DeletesTimes (id : String) : ℕ → DWorld → DWorld → Prop
  | 0, w, w' => w = w'
  | n + 1, w, w' => ∃ v, Deletes cfg S fuel id w v ∧ DeletesTimes id n v w'

variable {cfg S fuel} {id : String}

/-- A task that is alone with a key is answered from its text. -/
theorem isolates_key {key : String} {i : ℕ} {call : Call} :
    (deployment cfg S fuel).Isolates (AloneAt cfg S fuel key i) i call
      (fun σ => σ.textAt key) (KeyAnswered key) := by
  constructor
  · intro x choice t c k σ r hok htask hlive hcall hprog hans hexec
    have hreplied := hok.answered choice rfl
    replace hexec : x.shared.exec i t.call.server choice c = some (σ, r) := hexec
    obtain ⟨s', r', hans⟩ := hans
    cases c with
    | get k =>
      obtain ⟨hσ, hr⟩ := Prod.mk.inj (Option.some.inj hexec)
      subst hσ hr
      obtain ⟨rfl, -, -⟩ := hans
      refine ⟨rfl, rfl, ?_⟩
      rw [hreplied]
      rfl
    | setEx k ttl payload =>
      obtain ⟨rfl, httl, -, -⟩ := hans
      obtain ⟨hσ, hr⟩ := Prod.mk.inj (Option.some.inj hexec)
      subst hσ hr
      refine ⟨rfl, httl, ?_, ?_⟩
      · simp [hreplied, Shared.runIf, Delivery.ran, Shared.textAt, Keyspace.setEx, httl]
      · simp [hreplied, Delivery.reply, Keyspace.setEx, httl]
    | del k =>
      obtain ⟨rfl, -, -⟩ := hans
      obtain ⟨hσ, hr⟩ := Prod.mk.inj (Option.some.inj hexec)
      subst hσ hr
      refine ⟨rfl, ?_, ?_⟩
      · simp only [hreplied, Shared.runIf, Delivery.ran, if_true, Shared.textAt, Keyspace.del]
        split
        · simp
        · rename_i hnone
          simp [Keyspace.textAt, hnone]
      · rw [hreplied]
        rfl
    | _ => exact hans.elim
  · intro x l y hok hother hs
    exact hok.kept y (Machine.step_eq_some_iff.mpr hs) hother

/-- What a delete makes of the key. -/
theorem Deletes.textAt {w w' : DWorld} (h : Deletes cfg S fuel id w w')
    (hid : id.isEmpty = false) (httl : Keyspace.ValidTtl cfg.ttlSeconds) :
    w'.shared.textAt (ResponseStore.key cfg id) =
      afterDelete S id (w.shared.textAt (ResponseStore.key cfg id)) := by
  obtain ⟨i, n, ls, t, r, ⟨hok, x, hx, hrun⟩, ht, hr⟩ := h
  cases Machine.step_eq_some_iff.mp hx with
  | spawn hfree =>
    have hdelete : (deleteResponse cfg S id).run.Ensures _ _
        (w.shared.textAt (ResponseStore.key cfg id)) := ensures_deleteResponse hid httl
    obtain ⟨t', ht', -, hens⟩ :=
      isolates_key.ensures hrun (World.put_tasks_self _ i _) rfl hdelete
    obtain rfl := Option.some.inj (ht'.symm.trans ht)
    rw [hr] at hens
    exact hens

/-- Once the key is gone, deletes leave it so. -/
theorem DeletesTimes.gone {n : ℕ} {w w' : DWorld} (h : DeletesTimes cfg S fuel id n w w')
    (hid : id.isEmpty = false) (httl : Keyspace.ValidTtl cfg.ttlSeconds)
    (hgone : w.shared.textAt (ResponseStore.key cfg id) = none) :
    w'.shared.textAt (ResponseStore.key cfg id) = none := by
  induction n generalizing w with
  | zero => exact h ▸ hgone
  | succ n ih =>
    obtain ⟨v, hdelete, hrest⟩ := h
    refine ih hrest ?_
    rw [hdelete.textAt hid httl, hgone]
    rfl

omit [DecidableEq N] in
/-- A second delete removes what a first one has left of a job in flight. -/
theorem afterDelete_tombstone {stored : StoredResponse N} {payload : String}
    (hprint : (tombstoneOf stored id).toText S = .ok payload) :
    afterDelete S id (some payload) = none := by
  rw [afterDelete, Option.bind_some]
  cases hread : StoredResponse.ofText S payload with
  | error e => rfl
  | ok read =>
    have hdeleted : isDeletedTombstone read = true := by
      rw [StoredResponse.ofText_toText hprint hread, isDeletedTombstone,
        storedResponseStatus_reread, storedResponseStatus_tombstoneOf]
      rfl
    simp [hdeleted]

/-- **Repeated deletes.** After a delete of a stored record, `n` more deletes change the key
unless there are none, or the record was a tombstone, or not in flight. -/
theorem deletes_idempotent {w₀ w₁ w₂ : DWorld} {n : ℕ} {v : String} {stored : StoredResponse N}
    (hid : id.isEmpty = false) (httl : Keyspace.ValidTtl cfg.ttlSeconds)
    (hv : w₀.shared.textAt (ResponseStore.key cfg id) = some v)
    (hstored : StoredResponse.ofText S v = .ok stored)
    (hprints : ∃ payload, (tombstoneOf stored id).toText S = .ok payload)
    (hfirst : Deletes cfg S fuel id w₀ w₁) (hmore : DeletesTimes cfg S fuel id n w₁ w₂) :
    w₂.shared.textAt (ResponseStore.key cfg id) = w₁.shared.textAt (ResponseStore.key cfg id) ↔
      n = 0 ∨ isDeletedTombstone stored = true ∨ isInFlightBackground stored = false := by
  have htext := hfirst.textAt hid httl
  rw [hv, afterDelete, Option.bind_some, hstored] at htext
  obtain ⟨payload, hprint⟩ := hprints
  by_cases hplain : isDeletedTombstone stored = true ∨ isInFlightBackground stored = false
  · have hgone : w₁.shared.textAt (ResponseStore.key cfg id) = none := by
      rw [htext]
      rcases hplain with hdeleted | hidle
      · simp [hdeleted]
      · simp [hidle]
    rw [hgone, hmore.gone hid httl hgone]
    simp [hplain]
  · have hlive : isDeletedTombstone stored = false :=
      Bool.eq_false_iff.mpr fun h => hplain (.inl h)
    have hflight : isInFlightBackground stored = true :=
      Bool.not_eq_false _ ▸ fun h => hplain (.inr h)
    simp only [hlive, hflight, hprint, Bool.not_true, Bool.or_self, Bool.false_eq_true,
      if_false] at htext
    cases n with
    | zero =>
      obtain rfl : w₁ = w₂ := hmore
      simp
    | succ n =>
      obtain ⟨u, hsecond, hrest⟩ := hmore
      have hgone : u.shared.textAt (ResponseStore.key cfg id) = none := by
        rw [hsecond.textAt hid httl, htext]
        exact afterDelete_tombstone hprint
      rw [DeletesTimes.gone hrest hid httl hgone, htext]
      simp [hlive, hflight]

end Calls

section Runs

open Sample

/-- The step is a call, or an answered command of task `i`. -/
def answeredTo (i : ℕ) (_ : DWorld) : DLabel → Bool
  | .act j choice => j = i && match choice.delivery with
    | .replied => true
    | .failed .. => false
  | .spawn .. => true
  | _ => false

theorem aloneAt_of_answeredTo {i : ℕ} {w : DWorld} {l : DLabel} (h : answeredTo i w l = true) :
    AloneAt config serde 8 key i w l := by
  constructor
  · rintro choice rfl
    rcases hdelivery : choice.delivery with _ | ⟨err, ran, reconnected⟩
    · rfl
    · simp [answeredTo, hdelivery] at h
  · intro w' hstep hother
    cases Machine.step_eq_some_iff.mp hstep with
    | spawn hfree => rfl
    | @act j choice =>
      simp only [answeredTo, Bool.and_eq_true, decide_eq_true_eq] at h
      exact absurd (by rw [h.1]) (hother choice)
    | _ => cases h

/-- A delete that executes and returns is a delete. -/
theorem deletes_of_runIn {i n : ℕ} {w w' : DWorld} {r : RpcResult}
    (hrun : machine.RunIn (AloneAt config serde 8 key i) w
      (call i (.deleteResponse "resp_1") n) w') (hr : returned w' i = some r) :
    Deletes config serde 8 "resp_1" w w' := by
  obtain ⟨t, ht, hprog⟩ := returned_eq_some hr
  exact ⟨i, 0, turns i n, t, r, hrun, ht, hprog⟩

/-- The world after the second delete, if it goes through. -/
def secondDelete (w : DWorld) : Option DWorld :=
  machine.execIn? (answeredTo 2) w (call 2 (.deleteResponse "resp_1") 2)

/-- Two deletes, if the first has led to a world from which the second goes through. -/
theorem deletes_twice {P : DWorld → DWorld → Bool} {text : Option String}
    (r : machine.Recording (answeredTo 1) (start text) fun w₁ => (returned w₁ 1).isSome = true ∧
      (secondDelete w₁).any (fun w₂ => (returned w₂ 2).isSome && P w₁ w₂) = true)
    {n : ℕ} (hlabels : r.labels = call 1 (.deleteResponse "resp_1") n) :
    ∃ w₁ w₂, Deletes config serde 8 "resp_1" (start text) w₁ ∧
      Deletes config serde 8 "resp_1" w₁ w₂ ∧ P w₁ w₂ = true := by
  obtain ⟨w₁, hrun, hfirst, hsecond⟩ := r.exists_runIn fun _ _ => aloneAt_of_answeredTo
  rw [hlabels] at hrun
  obtain ⟨w₂, hexec, hP⟩ := (Option.any_eq_true _ _).mp hsecond
  obtain ⟨hreturned, hP⟩ := Bool.and_eq_true_iff.mp hP
  obtain ⟨r₁, hr₁⟩ := Option.isSome_iff_exists.mp hfirst
  obtain ⟨r₂, hr₂⟩ := Option.isSome_iff_exists.mp hreturned
  exact ⟨w₁, w₂, deletes_of_runIn hrun hr₁,
    deletes_of_runIn (Machine.runIn_of_execIn? (fun _ _ => aloneAt_of_answeredTo) hexec) hr₂, hP⟩

set_option maxRecDepth 100000 in
/-- A completed response is deleted twice. -/
def deleteCompletedTwice : machine.Recording (answeredTo 1) (start (some completedText))
    fun w₁ => (returned w₁ 1).isSome = true ∧
      (secondDelete w₁).any (fun w₂ => (returned w₂ 2).isSome && true) = true :=
  ⟨call 1 (.deleteResponse "resp_1") 2, by decide +kernel⟩

/-- Deleting a completed response twice leaves what deleting it once does. -/
theorem deletes_idempotent_completed : ∃ w₁ w₂,
    Deletes config serde 8 "resp_1" (start (some completedText)) w₁ ∧
    DeletesTimes config serde 8 "resp_1" 1 w₁ w₂ ∧
    w₂.shared.textAt key = w₁.shared.textAt key := by
  obtain ⟨w₁, w₂, hfirst, hsecond, -⟩ :=
    deletes_twice (P := fun _ _ => true) deleteCompletedTwice rfl
  have hmore : DeletesTimes config serde 8 "resp_1" 1 w₁ w₂ := ⟨w₂, hsecond, rfl⟩
  refine ⟨w₁, w₂, hfirst, hmore, ?_⟩
  exact (deletes_idempotent (by decide) (by decide) (textAt_start _) ofText_completedText
    ⟨tombstoneText, by decide +kernel⟩ hfirst hmore).mpr (.inr (.inr (by decide +kernel)))

/-- After the second delete, the worker's result is refused as for a response never seen. -/
def refusedAsMissing (w : DWorld) : Bool :=
  (machine.execIn? (fun _ _ => true) w
    (call 3 (.completeBackgroundResponse "resp_1" "\x7b\x7d") 6)).any fun w' =>
      decide (returned w' 3 = some (.error (.status ⟨.notFound, "response not found: resp_1"⟩)))

set_option maxRecDepth 100000 in
/-- A queued job is deleted twice. -/
def deleteQueuedTwice : machine.Recording (answeredTo 1) (start (some queuedText)) fun w₁ =>
    (returned w₁ 1).isSome = true ∧ (secondDelete w₁).any (fun w₂ => (returned w₂ 2).isSome &&
      (w₁.shared.textAt key = some tombstoneText && w₂.shared.textAt key = none &&
        refusedAsMissing w₂)) = true :=
  ⟨call 1 (.deleteResponse "resp_1") 2, by decide +kernel⟩

/-- **A tombstone is deleted.** A first delete replaces a queued job by its tombstone, a second
one removes the tombstone, and the result of the worker is then not found. -/
theorem second_delete_removes_tombstone : ∃ w₁ w₂ w₃ ls,
    Deletes config serde 8 "resp_1" (start (some queuedText)) w₁ ∧
    Deletes config serde 8 "resp_1" w₁ w₂ ∧
    w₁.shared.textAt key = some tombstoneText ∧ w₂.shared.textAt key = none ∧
    machine.Run w₂ (.spawn 3 ⟨0, .completeBackgroundResponse "resp_1" "\x7b\x7d"⟩ :: ls) w₃ ∧
    returned w₃ 3 = some (.error (.status ⟨.notFound, "response not found: resp_1"⟩)) := by
  obtain ⟨w₁, w₂, hfirst, hsecond, hP⟩ := deletes_twice deleteQueuedTwice rfl
  simp only [Bool.and_eq_true, decide_eq_true_eq] at hP
  obtain ⟨⟨htombstone, hgone⟩, hmissing⟩ := hP
  obtain ⟨w₃, hrun, hreturned⟩ := Machine.exists_run hmissing
  exact ⟨w₁, w₂, w₃, _, hfirst, hsecond, htombstone, hgone, hrun, hreturned⟩

end Runs

end ResponsesApiStore
