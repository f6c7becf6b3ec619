import ResponsesApiStore.Transcripts.Locality
import ResponsesApiStore.Usage.Uninterrupted

/-!
# Histories of requests that take turns

When the requests about records take turns, on any of the servers, and time passes in between
(the clock moves, keys grow older and expire), the service is the table of records: the answers
and what is left in Redis are those of the functions of the requests, one after another
(`TakesTurns.replays`). Each of these functions stays at the key of its response
(`local_perform`). So responses are independent: the answers to the requests about one response,
and what is left of it, are what they would be if nobody had asked for any other
(`records_are_independent`).
-/

namespace ResponsesApiStore

open Json (Value Serde)
open Redis (Entry Keyspace)
open Redis.Keyspace (Expiring)
open Interaction (Machine World Label Local local_pure local_get local_put replay replay_filter)

variable {N α : Type} {cfg : StoreConfig} {S : Serde N}

/-! ### The functions of the requests are local -/

section Locality

open Table

theorem local_read (key : String) : Local key (read key).run :=
  local_get fun e : Option Entry => (Except.ok (e.map Entry.text) : Except Fault _)

theorem local_put_entry (key : String) (e : Option Entry) : Local key (put key e).run :=
  local_put (fun _ => (Except.ok () : Except Fault Unit)) fun _ => e

theorem local_rewrite (key text : String) : Local key (rewrite key text).run :=
  local_put (fun _ => (Except.ok () : Except Fault Unit)) fun entry : Option Entry =>
    entry.map fun e => ⟨text, e.ttl.map (max 1)⟩

theorem local_setEx (key : String) (ttl : UInt64) (text : String) :
    Local key (setEx key ttl text).run := by
  rw [setEx]
  split_ifs
  · exact local_put_entry key _
  · exact local_pure _

theorem local_store (id : String) (record : StoredResponse N) (ttl : Option UInt64) :
    Local (ResponseStore.key cfg id) (store cfg S id record ttl).run := by
  rw [store]
  split_ifs
  · exact local_pure _
  · exact (local_pure _).except_bind fun text => local_setEx _ _ text

theorem local_load (id : String) : Local (ResponseStore.key cfg id) (load cfg S id).run := by
  refine (local_read _).except_bind fun text => ?_
  rcases text with _ | text
  · exact local_pure _
  · exact (local_pure _).except_bind fun stored => local_pure _

theorem local_find (id : String) : Local (ResponseStore.key cfg id) (find cfg S id).run := by
  refine (local_load id).except_bind fun stored => ?_
  rcases stored with _ | stored
  · exact local_pure _
  · dsimp only
    split_ifs <;> exact local_pure _

theorem local_update (id : String) (record : StoredResponse N) (ttl : Option UInt64) :
    Local (ResponseStore.key cfg id) (update cfg S id record ttl).run :=
  (local_find id).except_bind fun _ => local_store id record ttl

theorem local_delete (id : String) : Local (ResponseStore.key cfg id) (delete cfg S id).run := by
  have hlift : Local (ResponseStore.key cfg id)
      (ExceptT.lift (find cfg S id).run : OnTable Fault _).run := by
    rw [ExceptT.run_lift, ← bind_pure_comp]
    exact (local_find id).bind fun _ => local_pure _
  refine hlift.except_bind fun found => ?_
  rcases found with fault | stored
  · rcases fault with err | message | _
    · exact local_put_entry _ _
    · exact local_pure _
    · exact local_pure _
  · dsimp only
    split_ifs
    · exact local_store id _ _
    · exact local_put_entry _ _

theorem local_transition {T : Type} (id : String)
    (prepare : StoredResponse N → String → Except Fault (StoredResponse N × T)) :
    Local (ResponseStore.key cfg id) (transition cfg S id prepare).run := by
  refine (local_read _).except_bind fun text => ?_
  rcases text with _ | text
  · exact local_pure _
  refine (local_pure _).except_bind fun x => ?_
  obtain ⟨updated, payload, result⟩ := x
  exact (local_rewrite _ payload).except_bind fun _ => local_pure _

theorem local_reconcile (id : String) (stored : StoredResponse N) (now staleSeconds : Int64) :
    Local (ResponseStore.key cfg id) (reconcile cfg S id stored now staleSeconds).run := by
  rw [reconcile]
  split_ifs
  · exact (local_pure _).except_bind fun text =>
      (local_rewrite _ text).except_bind fun _ => local_pure _
  · exact local_pure _

theorem local_get_record (id : String) (now : Int64) (reconcileStale : Bool) :
    Local (ResponseStore.key cfg id) (get cfg S id now reconcileStale).run := by
  refine (local_find id).except_bind fun stored => ?_
  split_ifs
  · exact local_reconcile id stored now _
  · exact local_pure _

theorem local_answer {key : String} {p : OnTable Fault α} (h : Local key p.run) :
    Local key (answer p).run :=
  h.bind fun _ => local_pure _

theorem local_ofStatus {key : String} {β : Type} {x : Except Status β} {f : β → OnTable RpcFault α}
    (h : ∀ b, x = .ok b → Local key (f b).run) : Local key (Table.ofStatus x >>= f).run := by
  rcases x with status | b
  · exact local_pure _
  · exact h b rfl

/-- The key that a request is about. -/
def keyOf (cfg : StoreConfig) (request : Request) : String :=
  ResponseStore.key cfg ((addressedTo request).getD "")

variable [DecidableEq N]

/-- **The function of a request stays at its key.** -/
theorem local_perform {now : Int64} {request : Request} {op : OnTable RpcFault Response}
    (h : perform cfg S now request = some op) : Local (keyOf cfg request) op.run := by
  have hrecord : ∀ (key id : String) (record : StoredResponse N)
      (f : ProtoStoredResponse → Response), Local key ((do
        let p ← Table.ofStatus (coreToProto S id record)
        return f p : OnTable RpcFault Response)).run :=
    fun key id record f => (local_pure _).except_bind fun p => local_pure _
  cases request with
  | storeResponse record ttl =>
    obtain rfl := Option.some.inj h
    refine local_ofStatus fun p hp => local_ofStatus fun core _ => ?_
    have hkey : keyOf cfg (.storeResponse record ttl) = ResponseStore.key cfg p.responseId := by
      simp [keyOf, addressedTo, hp, Except.toOption]
    rw [hkey]
    exact (local_answer (local_store _ core _)).except_bind fun _ => local_pure _
  | updateResponse record ttl =>
    obtain rfl := Option.some.inj h
    refine local_ofStatus fun p hp => local_ofStatus fun core _ => ?_
    have hkey : keyOf cfg (.updateResponse record ttl) = ResponseStore.key cfg p.responseId := by
      simp [keyOf, addressedTo, hp, Except.toOption]
    rw [hkey]
    exact (local_answer (local_update _ core _)).except_bind fun _ => local_pure _
  | getResponse id reconcileStale =>
    obtain rfl := Option.some.inj h
    show Local (ResponseStore.key cfg id) _
    split_ifs
    · exact local_pure _
    · exact (local_answer (local_get_record id now reconcileStale)).except_bind
        fun record => hrecord _ id record _
  | deleteResponse id =>
    obtain rfl := Option.some.inj h
    show Local (ResponseStore.key cfg id) _
    split_ifs
    · exact local_pure _
    · exact (local_answer (local_delete id)).except_bind fun _ => local_pure _
  | claimBackgroundResponse id =>
    obtain rfl := Option.some.inj h
    show Local (ResponseStore.key cfg id) _
    split_ifs
    · exact local_pure _
    · refine (local_answer (local_transition id _)).except_bind fun x => ?_
      exact (local_pure _).except_bind fun json => hrecord _ id x.1 _
  | completeBackgroundResponse id json =>
    obtain rfl := Option.some.inj h
    show Local (ResponseStore.key cfg id) _
    split_ifs
    · exact local_pure _
    · exact local_pure _
    · refine (local_pure _).except_bind fun completed => ?_
      split_ifs
      · exact local_pure _
      · exact (local_answer ((local_transition id _).except_map _)).except_bind
          fun record => hrecord _ id record _
  | failBackgroundResponse id message =>
    obtain rfl := Option.some.inj h
    show Local (ResponseStore.key cfg id) _
    split_ifs
    · exact local_pure _
    · exact local_pure _
    · exact (local_answer ((local_transition id _).except_map _)).except_bind
        fun record => hrecord _ id record _
  | reconcileStaleResponse id staleSeconds =>
    obtain rfl := Option.some.inj h
    show Local (ResponseStore.key cfg id) _
    split_ifs
    · exact local_pure _
    · refine (local_answer (local_find id)).except_bind fun existing => ?_
      exact (local_answer (local_reconcile id existing now _)).except_bind
        fun updated => hrecord _ id updated _
  | _ => cases h

end Locality

/-! ### Taking turns -/

/-- One thing at a time: a request to one of the servers; or time passes, on the clock of the
servers, for the time to live of a key, or until a key expires. -/
inductive Turn
  | request (request : Request)
  | clock (now : Int64)
  | age (key : String) (seconds : ℕ)
  | expire (key : String)

/-- What came of each turn that is about a key; for a request, what it was answered. -/
abbrev Outcomes : Type := List (String × Option RpcResult)

/-- The time to live of a key drops to `seconds`. -/
def ageEntry (seconds : ℕ) (e : Option Entry) : Option Entry :=
  e.map fun e => { e with ttl := e.ttl.map fun _ => seconds }

/-- Whether a turn is about a key. Every turn of the clock is. -/
def Turn.about (cfg : StoreConfig) (key : String) : Turn → Bool
  | .request asked => keyOf cfg asked = key
  | .clock _ => true
  | .age k _ => k = key
  | .expire k => k = key

section TakingTurns

variable [DecidableEq N] (cfg : StoreConfig) (S : Serde N) (fuel : ℕ)

/-- **Taking turns.** From `w` to `w'`, each turn was over before the next one began, the requests
were about records and not interrupted, and `outcomes` are what came of the turns. -/
inductive TakesTurns : DWorld → List Turn → Outcomes → DWorld → Prop
  | nil (w : DWorld) : TakesTurns w [] [] w
  | request {w w₁ w₂ w₃ : DWorld} {i n : ℕ} {request : Request} {ls : List DLabel} {t : DTask}
      {result : RpcResult} {turns : List Turn} {outcomes : Outcomes}
      {op : OnTable RpcFault Response}
      (hrecord : Table.perform cfg S w.shared.clock request = some op)
      (hspawn : (deployment cfg S fuel).step w (.spawn i ⟨n, request⟩) = some w₁)
      (hrun : (deployment cfg S fuel).RunIn (Alone i) w₁ ls w₂) (htask : w₂.tasks i = some t)
      (hprog : t.prog = .ret result) (hrest : TakesTurns w₂ turns outcomes w₃) :
      TakesTurns w (.request request :: turns) ((keyOf cfg request, some result) :: outcomes) w₃
  | clock {w w₁ w₂ : DWorld} {now : Int64} {turns : List Turn} {outcomes : Outcomes}
      (hstep : (deployment cfg S fuel).step w (.env (.clock now)) = some w₁)
      (hrest : TakesTurns w₁ turns outcomes w₂) : TakesTurns w (.clock now :: turns) outcomes w₂
  | age {w w₁ w₂ : DWorld} {key : String} {seconds : ℕ} {turns : List Turn} {outcomes : Outcomes}
      (hstep : (deployment cfg S fuel).step w (.env (.age key seconds)) = some w₁)
      (hrest : TakesTurns w₁ turns outcomes w₂) :
      TakesTurns w (.age key seconds :: turns) ((key, none) :: outcomes) w₂
  | expire {w w₁ w₂ : DWorld} {key : String} {turns : List Turn} {outcomes : Outcomes}
      (hstep : (deployment cfg S fuel).step w (.env (.expire key)) = some w₁)
      (hrest : TakesTurns w₁ turns outcomes w₂) :
      TakesTurns w (.expire key :: turns) ((key, none) :: outcomes) w₂

/-- The turns as computations on the table, each with its key. -/
def tableSteps : Int64 → List Turn → List (String × StateM Table (Option RpcResult))
  | _, [] => []
  | now, .request request :: turns =>
    match Table.perform cfg S now request with
    | some op => (keyOf cfg request, op.run >>= fun result => pure (some result)) ::
        tableSteps now turns
    | none => tableSteps now turns
  | _, .clock now :: turns => tableSteps now turns
  | now, .age key seconds :: turns =>
    (key, fun table => (none, Function.update table key (ageEntry seconds (table key)))) ::
      tableSteps now turns
  | now, .expire key :: turns =>
    (key, fun table => (none, Function.update table key none)) :: tableSteps now turns

/-- Every turn stays at its key. -/
theorem local_tableSteps (now : Int64) (turns : List Turn) :
    ∀ x ∈ tableSteps cfg S now turns, Local x.1 x.2 := by
  induction turns generalizing now with
  | nil =>
    intro x hx
    cases hx
  | cons turn turns ih =>
    intro x hx
    cases turn with
    | request request =>
      rw [tableSteps] at hx
      split at hx
      · rename_i op hop
        rcases List.mem_cons.mp hx with rfl | hx
        · exact (local_perform hop).bind fun _ => local_pure _
        · exact ih now x hx
      · exact ih now x hx
    | clock now' => exact ih now' x hx
    | age key seconds =>
      rcases List.mem_cons.mp hx with rfl | hx
      · exact local_put (fun _ => none) (ageEntry seconds)
      · exact ih now x hx
    | expire key =>
      rcases List.mem_cons.mp hx with rfl | hx
      · exact local_put (fun _ => none) fun _ => none
      · exact ih now x hx

variable {cfg S fuel}

/-- The turns about a key are computed at that key. -/
theorem tableSteps_filter (key : String) (now : Int64) (turns : List Turn) :
    (tableSteps cfg S now turns).filter (fun x => x.1 = key) =
      tableSteps cfg S now (turns.filter (Turn.about cfg key)) := by
  induction turns generalizing now with
  | nil => rfl
  | cons turn turns ih =>
    cases turn with
    | request request =>
      by_cases hkey : keyOf cfg request = key
      · rw [List.filter_cons_of_pos (by simp [Turn.about, hkey]), tableSteps, tableSteps]
        cases Table.perform cfg S now request with
        | none => exact ih now
        | some op =>
          dsimp only
          rw [List.filter_cons_of_pos (by simp [hkey]), ih now]
      · rw [List.filter_cons_of_neg (by simp [Turn.about, hkey]), tableSteps]
        cases Table.perform cfg S now request with
        | none => exact ih now
        | some op =>
          dsimp only
          rw [List.filter_cons_of_neg (by simp [hkey]), ih now]
    | clock now' => exact ih now'
    | age k seconds =>
      by_cases hkey : k = key
      · rw [List.filter_cons_of_pos (by simp [Turn.about, hkey]), tableSteps, tableSteps,
          List.filter_cons_of_pos (by simp [hkey]), ih now]
      · rw [List.filter_cons_of_neg (by simp [Turn.about, hkey]), tableSteps,
          List.filter_cons_of_neg (by simp [hkey]), ih now]
    | expire k =>
      by_cases hkey : k = key
      · rw [List.filter_cons_of_pos (by simp [Turn.about, hkey]), tableSteps, tableSteps,
          List.filter_cons_of_pos (by simp [hkey]), ih now]
      · rw [List.filter_cons_of_neg (by simp [Turn.about, hkey]), tableSteps,
          List.filter_cons_of_neg (by simp [hkey]), ih now]

/-- What time does to a key of the table. -/
theorem age_strings {db db' : Keyspace} {key : String} {seconds : ℕ}
    (h : db.age key seconds = some db') :
    db'.strings = Function.update db.strings key (ageEntry seconds (db.strings key)) := by
  rw [Keyspace.age] at h
  split at h
  · rename_i text m hkey
    split_ifs at h
    obtain rfl := Option.some.inj h
    rw [hkey]
    rfl
  · cases h

/-- **The service is the table.** While the requests take turns, what comes of them and what is in
Redis at the end is what their functions make of the table. -/
theorem TakesTurns.replays {w w' : DWorld} {turns : List Turn} {outcomes : Outcomes}
    (h : TakesTurns cfg S fuel w turns outcomes w') (hfree : ∀ n, w.shared.holder n = none)
    (hexpiring : Expiring (IsRecordKey cfg) w.shared.db) :
    replay (tableSteps cfg S w.shared.clock turns) (tableOf w.shared) =
      (outcomes, tableOf w'.shared) := by
  induction h with
  | nil w => rfl
  | @request w w₁ w₂ w₃ i n request ls t result turns outcomes op hrecord hspawn hrun htask hprog
      hrest ih =>
    obtain ⟨hcomputes, hexpiring', db, hdb⟩ :=
      alone_computes hrecord (hfree n) hexpiring hspawn hrun htask hprog
    have hclock : w₂.shared.clock = w.shared.clock := by rw [hdb]
    have hfree' : ∀ n, w₂.shared.holder n = none := by
      rw [hdb]
      exact hfree
    have hreplay := ih hfree' hexpiring'
    rw [hclock] at hreplay
    have hrun' : (op.run >>= fun result => pure (some result) : StateM Table _).run
        (tableOf w.shared) = (some result, tableOf w₂.shared) := by
      show (some (op.run.run (tableOf w.shared)).1, (op.run.run (tableOf w.shared)).2) = _
      rw [hcomputes]
    simp only [tableSteps, hrecord, replay, hrun', hreplay]
  | @clock w w₁ w₂ now turns outcomes hstep hrest ih =>
    cases Machine.step_eq_some_iff.mp hstep with
    | env henv =>
      obtain rfl := Option.some.inj henv
      exact ih hfree hexpiring
  | @age w w₁ w₂ key seconds turns outcomes hstep hrest ih =>
    cases Machine.step_eq_some_iff.mp hstep with
    | env henv =>
      obtain ⟨db, hdb, rfl⟩ := Option.map_eq_some_iff.mp henv
      have hreplay := ih hfree (hexpiring.age hdb)
      have htable : (db.strings : Table) = Function.update (tableOf w.shared) key
          (ageEntry seconds (tableOf w.shared key)) := age_strings hdb
      simp only [tableOf] at hreplay htable
      simp only [tableSteps, replay, StateT.run, tableOf]
      rw [← htable, hreplay]
  | @expire w w₁ w₂ key turns outcomes hstep hrest ih =>
    cases Machine.step_eq_some_iff.mp hstep with
    | env henv =>
      obtain ⟨db, hdb, rfl⟩ := Option.map_eq_some_iff.mp henv
      have hreplay := ih hfree (hexpiring.expire hdb)
      have htable : (db.strings : Table) = Function.update (tableOf w.shared) key none := by
        rw [Keyspace.expire_eq_some hdb]
        rfl
      simp only [tableOf] at hreplay htable
      simp only [tableSteps, replay, StateT.run, tableOf]
      rw [← htable, hreplay]

/-- **Records are independent.** Two histories in which requests take turns, on any servers, agree
on the turns about a key and begin with the same value there, at the same time. Then the requests
about that key are answered the same, and the same value is left there. -/
theorem records_are_independent {u u' w w' : DWorld} {turns turns' : List Turn}
    {outcomes outcomes' : Outcomes} {key : String}
    (h : TakesTurns cfg S fuel u turns outcomes w)
    (h' : TakesTurns cfg S fuel u' turns' outcomes' w')
    (hfree : ∀ n, u.shared.holder n = none) (hfree' : ∀ n, u'.shared.holder n = none)
    (hexpiring : Expiring (IsRecordKey cfg) u.shared.db)
    (hexpiring' : Expiring (IsRecordKey cfg) u'.shared.db)
    (hclock : u.shared.clock = u'.shared.clock)
    (hkey : u.shared.db.strings key = u'.shared.db.strings key)
    (hturns : turns.filter (Turn.about cfg key) = turns'.filter (Turn.about cfg key)) :
    outcomes.filter (fun x => x.1 = key) = outcomes'.filter (fun x => x.1 = key) ∧
      w.shared.db.strings key = w'.shared.db.strings key := by
  have hstart : tableOf u'.shared key = tableOf u.shared key := hkey.symm
  have hreplay := replay_filter key (local_tableSteps cfg S u.shared.clock turns)
    (Eq.refl (tableOf u.shared key))
  have hreplay' := replay_filter key (local_tableSteps cfg S u'.shared.clock turns') hstart
  rw [tableSteps_filter, h.replays hfree hexpiring] at hreplay
  rw [tableSteps_filter, h'.replays hfree' hexpiring', ← hclock, ← hturns] at hreplay'
  exact ⟨hreplay.1.trans hreplay'.1.symm, hreplay.2.trans hreplay'.2.symm⟩

/-- **Requests can always take turns.** Where nobody holds a mutex, requests about records can be
served one after another. -/
theorem exists_takesTurns {requests : List Request} {w : DWorld} {i : ℕ}
    (hrecord : ∀ request ∈ requests, ∀ now, (Table.perform cfg S now request).isSome = true)
    (hnew : ∀ j, i ≤ j → w.tasks j = none) (hfree : ∀ n, w.shared.holder n = none)
    (hexpiring : Expiring (IsRecordKey cfg) w.shared.db) :
    ∃ outcomes w', TakesTurns cfg S fuel w (requests.map .request) outcomes w' := by
  induction requests generalizing w i with
  | nil => exact ⟨[], w, .nil w⟩
  | cons request requests ih =>
    obtain ⟨op, hop⟩ := Option.isSome_iff_exists.mp
      (hrecord request List.mem_cons_self w.shared.clock)
    have hspawn : (deployment cfg S fuel).step w (.spawn i ⟨0, request⟩) =
        some (w.put i ((deployment cfg S fuel).start ⟨0, request⟩)) :=
      Machine.step_eq_some_iff.mpr (.spawn (hnew i le_rfl))
    obtain ⟨ls, w₁, t, result, hrun, ht, hprog⟩ := alone_completes hop (hfree 0) hexpiring hspawn
    obtain ⟨-, hexpiring', db, hdb⟩ := alone_computes hop (hfree 0) hexpiring hspawn hrun ht hprog
    have hnew' : ∀ j, i + 1 ≤ j → w₁.tasks j = none := by
      intro j hj
      have hne : j ≠ i := by omega
      refine hrun.invariant (I := fun x => x.tasks j = none) ?_
        ((World.put_tasks_of_ne w _ hne).trans (hnew j (by omega)))
      rintro x l y hx ⟨choice, rfl, -⟩ hstep
      cases hstep with
      | act htask hlive hprog hexec => exact (World.put_tasks_of_ne _ _ hne).trans hx
    have hfree' : ∀ n, w₁.shared.holder n = none := by
      rw [hdb]
      exact hfree
    obtain ⟨outcomes, w', hrest⟩ := ih
      (fun request hmem => hrecord request (List.mem_cons_of_mem _ hmem)) hnew' hfree' hexpiring'
    exact ⟨_, w', .request hop hspawn hrun ht hprog hrest⟩

end TakingTurns

open Sample

theorem expiring_start (text : Option String) :
    Expiring (IsRecordKey config) (start text).shared.db := by
  intro k e _ he
  replace he : (if k = key then text.map fun text => (⟨text, some 600⟩ : Entry) else none) =
    some e := he
  split_ifs at he
  obtain ⟨text, -, rfl⟩ := Option.map_eq_some_iff.mp he
  exact ⟨600, rfl, by decide⟩

/-- What a delete of another response does is not seen by the claim of a job. -/
theorem records_are_independent_claim : ∃ outcomes outcomes' w w',
    TakesTurns config serde 8 (start (some queuedText))
      [.request (.deleteResponse "resp_2"), .request (.claimBackgroundResponse "resp_1")]
      outcomes w ∧
    TakesTurns config serde 8 (start (some queuedText))
      [.request (.claimBackgroundResponse "resp_1")] outcomes' w' ∧
    outcomes.filter (fun x => x.1 = key) = outcomes'.filter (fun x => x.1 = key) ∧
    w.shared.db.strings key = w'.shared.db.strings key := by
  have hrecord : ∀ request ∈ [Request.deleteResponse "resp_2", .claimBackgroundResponse "resp_1"],
      ∀ now, (Table.perform config serde now request).isSome = true := by
    intro request hmem now
    rcases List.mem_cons.mp hmem with rfl | hmem
    · rfl
    · obtain rfl := List.mem_singleton.mp hmem
      rfl
  obtain ⟨outcomes, w, h⟩ : ∃ outcomes w, TakesTurns config serde 8 (start (some queuedText))
      [.request (.deleteResponse "resp_2"), .request (.claimBackgroundResponse "resp_1")]
      outcomes w :=
    exists_takesTurns (i := 0) hrecord (fun _ _ => rfl) (fun _ => rfl) (expiring_start _)
  obtain ⟨outcomes', w', h'⟩ : ∃ outcomes w, TakesTurns config serde 8 (start (some queuedText))
      [.request (.claimBackgroundResponse "resp_1")] outcomes w :=
    exists_takesTurns (i := 0) (fun request hmem => hrecord request (List.mem_cons_of_mem _ hmem))
      (fun _ _ => rfl) (fun _ => rfl) (expiring_start _)
  refine ⟨outcomes, outcomes', w, w', h, h', ?_⟩
  have hother : Turn.about config key (.request (.deleteResponse "resp_2")) = false := by
    decide +kernel
  refine records_are_independent h h' (fun _ => rfl) (fun _ => rfl) (expiring_start _)
    (expiring_start _) rfl rfl ?_
  rw [List.filter_cons_of_neg (by rw [hother]; exact Bool.false_ne_true)]

end ResponsesApiStore
