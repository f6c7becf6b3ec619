import ResponsesApiStore.System.Execution

/-!
# Guarded transitions are linearizable

Whatever is interleaved with it, cancelled or lost, a transaction connection writes in one way
only: an `EXEC` on a clean transaction performs the single `SETEX` of the call that issued it,
computed by the call's own transition from the very text it replaces (`exec_linearizable`).
-/

namespace ResponsesApiStore

open Json (Serde)
open Redis (TxCmd)
open Interaction (Machine World Label)

variable {N : Type} [DecidableEq N] {cfg : StoreConfig} {S : Serde N} {fuel : ℕ}

/-- **Linearizability at `EXEC`.** In every run, a command that a task sends over its server's
transaction connection writes nothing, unless it is an `EXEC` that runs on a clean transaction.
Such an `EXEC` performs exactly one `SETEX`: it is on the key of the task's call, its payload is
the encoding of the call's transition of the record stored at that moment, and the guard of the
transition holds of that record. -/
theorem exec_linearizable {w₀ w w' : DWorld} {ls : List DLabel} (hw : Initial w₀)
    (hrun : (deployment cfg S fuel).Run w₀ ls w) {i : ℕ} {t : DTask} {choice : Choice} {c : TxCmd}
    {k : c.Reply → Interaction.Program sig RpcResult} (htask : w.tasks i = some t)
    (hprog : t.prog = .cmd (.tx c) k)
    (hstep : (deployment cfg S fuel).step w (.act i choice) = some w') :
    (choice.delivery.ran = true ∧ c = .exec ∧ Clean w t →
      ∃ key v ttl payload,
        (w.shared.db.sessions t.call.server).queue = [.setEx key ttl payload] ∧
        w.shared.textAt key = some v ∧
        Transition cfg S t.call.request (knowledge t).now key v payload ∧
        w'.shared.db.strings = (w.shared.db.setEx key ttl payload).1.strings) ∧
      (¬(choice.delivery.ran = true ∧ c = .exec ∧ Clean w t) →
        w'.shared.db.strings = w.shared.db.strings) := by
  have hsound : Sound cfg S w := sound_of_run hw hrun
  cases Machine.step_eq_some_iff.mp hstep with
  | @act _ _ t' c' k' σ r htask' hlive hprog' hexec =>
    obtain rfl : t = t' := Option.some.inj (htask.symm.trans htask')
    obtain ⟨rfl, -⟩ : Cmd.tx c = c' ∧ HEq k k' := by
      rw [hprog] at hprog'
      cases hprog'
      exact ⟨rfl, HEq.rfl⟩
    replace hexec : w.shared.exec i t.call.server choice (.tx c) = some (σ, r) := hexec
    have hstrings : σ.db.strings =
        if choice.delivery.ran then (c.run w.shared.db t.call.server).1.strings
        else w.shared.db.strings := by
      cases exec_effect hexec with
      | plain hplain => exact hplain.elim
      | tx => exact afterTx_strings w.shared t.call.server choice.delivery c
    have hallowed : AllowedTx cfg S t.call.request (knowledge t) c :=
      (hsound.allowed_of_prog htask hprog).2
    rcases (hsound.session i t htask hlive).run_strings hallowed with
      ⟨hsame, hdirty⟩ | ⟨rfl, hmulti, hdirty, key, v, ttl, payload, hqueue, hv, htransition, hrun⟩
    · refine ⟨?_, fun _ => ?_⟩
      · rintro ⟨-, rfl, -, hclean⟩
        rw [hdirty rfl] at hclean
        cases hclean
      · rw [hsame, ite_self] at hstrings
        exact hstrings
    · refine ⟨?_, fun hnot => ?_⟩
      · rintro ⟨hran, -, -⟩
        refine ⟨key, v, ttl, payload, hqueue, hv, htransition, ?_⟩
        rw [if_pos hran, hrun] at hstrings
        refine Eq.trans hstrings ?_
        rcases Redis.Keyspace.setEx_cases (w.shared.db.setSession t.call.server .fresh) key ttl
          payload with ⟨hvalid, hset⟩ | ⟨hinvalid, e, hset⟩
        · rw [hset, Redis.Keyspace.setEx, if_pos hvalid]
          rfl
        · rw [hset, Redis.Keyspace.setEx, if_neg hinvalid]
          rfl
      · have hran : ¬choice.delivery.ran = true := fun hran => hnot ⟨hran, rfl, hmulti, hdirty⟩
        rw [if_neg hran] at hstrings
        exact hstrings

section Runs

open Sample

set_option maxRecDepth 100000 in
/-- A claim of a queued job has come to its `EXEC`. -/
def claimAtExec : machine.Recording (fun _ _ => true) (start (some queuedText)) (fun w =>
    awaits w 1 = some (.tx .exec) ∧ (w.tasks 1).map (fun t => t.call.server) = some 0 ∧
    ((w.shared.db.sessions 0).inMulti = true ∧ (w.shared.db.sessions 0).dirty = false) ∧
    (machine.step w (.act 1 answered)).isSome = true) :=
  ⟨call 1 (.claimBackgroundResponse "resp_1") 7, by decide +kernel⟩

/-- A claim of a queued job at its `EXEC`. -/
theorem exec_linearizable_claim : ∃ w w' t key v ttl payload,
    machine.Run (start (some queuedText)) (call 1 (.claimBackgroundResponse "resp_1") 7) w ∧
    w.tasks 1 = some t ∧ machine.step w (.act 1 answered) = some w' ∧
    (w.shared.db.sessions 0).queue = [.setEx key ttl payload] ∧
    Transition config serde t.call.request (knowledge t).now key v payload ∧
    w'.shared.db.strings = (w.shared.db.setEx key ttl payload).1.strings := by
  obtain ⟨w, hrun, hawaits, hcall, hclean, hstep⟩ := claimAtExec.exists_run
  obtain ⟨w', hw'⟩ := Option.isSome_iff_exists.mp hstep
  obtain ⟨t, k, ht, hlive, hprog⟩ := awaits_eq_some hawaits
  have hserver : t.call.server = 0 := by simpa [ht] using hcall
  obtain ⟨key, v, ttl, payload, hqueue, -, htransition, hwrite⟩ :=
    (exec_linearizable (initial_start _) hrun ht hprog hw').1
      ⟨rfl, rfl, by rw [Clean, hserver]; exact hclean⟩
  exact ⟨w, w', t, key, v, ttl, payload, hrun, ht, hw', hserver ▸ hqueue, htransition, hwrite⟩

end Runs

end ResponsesApiStore
