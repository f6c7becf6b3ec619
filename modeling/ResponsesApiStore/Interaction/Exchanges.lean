import ResponsesApiStore.Interaction.Machine

/-!
# When an exchange took place

The transcript of a task lists its exchanges without their times. Each of them was a step of the
run, taken by the task when its transcript was the part before the exchange
(`RunIn.takes_exchange`). So what is read off a transcript can be taken back to the state of the
machine at the moment of the exchange.
-/

namespace Interaction

namespace Machine

variable {S : Signature} {Shared Call Result Choice Env : Type}
  {M : Machine S Shared Call Result Choice Env}
  {ok : World S Shared Call Result → Label Call Choice Env → Prop}

/-- Step `l` of `w` is the exchange `e` of task `i`, which serves `call` and has had the exchanges
`before`; the shared state is `σ` afterwards. -/
def Exchanges (M : Machine S Shared Call Result Choice Env) (i : ℕ) (call : Call)
    (before : List S.Exchange) (e : S.Exchange) (w : World S Shared Call Result)
    (l : Label Call Choice Env) (σ : Shared) : Prop :=
  ∃ t k choice, w.tasks i = some t ∧ t.live = true ∧ t.call = call ∧ t.transcript = before ∧
    t.prog = .cmd e.1 k ∧ l = .act i choice ∧ M.exec w.shared i call e.1 choice = some (σ, e.2)

/-- An exchange is a step. -/
theorem Exchanges.stepped {i : ℕ} {call : Call} {before : List S.Exchange} {e : S.Exchange}
    {w : World S Shared Call Result} {l : Label Call Choice Env} {σ : Shared}
    (h : M.Exchanges i call before e w l σ) :
    ∃ choice w', l = .act i choice ∧ M.Stepped w l w' ∧ w'.shared = σ := by
  obtain ⟨t, k, choice, htask, hlive, rfl, -, hprog, rfl, hexec⟩ := h
  exact ⟨choice, _, rfl, .act htask hlive hprog hexec, rfl⟩

/-- **Every exchange of a transcript was a step.** -/
theorem RunIn.takes_exchange {u w : World S Shared Call Result}
    {ls : List (Label Call Choice Env)} (h : M.RunIn ok u ls w) (h0 : ∀ i, u.tasks i = none)
    {i : ℕ} {t : Task S Call Result} (ht : w.tasks i = some t) {es es' : List S.Exchange}
    {e : S.Exchange} (htranscript : t.transcript = es ++ e :: es') :
    M.Takes ok (fun x l => ∃ σ, M.Exchanges i t.call es e x l σ) u ls w := by
  refine h.snoc_induction (motive := fun ls w => ∀ t es', w.tasks i = some t →
    t.transcript = es ++ e :: es' →
    M.Takes ok (fun x l => ∃ σ, M.Exchanges i t.call es e x l σ) u ls w) ?_ ?_ t es' ht htranscript
  · intro t es' ht
    rw [h0 i] at ht
    cases ht
  · intro ls x l y hx ih hok hs t es' ht htranscript
    rcases hs.task_cases ht with ⟨ht', -⟩ | ⟨call, -, rfl⟩ |
      ⟨t', c, k, r, σ, choice, rfl, ht', hlive, hprog, hexec, -, rfl⟩ | ⟨t', -, ht', rfl⟩
    · exact (ih t es' ht' htranscript).snoc hok hs
    · exact absurd htranscript.symm (by simp [start])
    · rw [Task.advance_transcript] at htranscript
      rcases List.eq_nil_or_concat es' with rfl | ⟨es', e', rfl⟩
      · -- the exchange is the last one
        obtain ⟨hbefore, he⟩ := List.append_inj' htranscript rfl
        obtain rfl := List.singleton_inj.mp he
        exact hx.takes_last hok
          ⟨σ, t', k, choice, ht', hlive, rfl, hbefore, hprog, rfl, hexec⟩ hs
      · rw [List.concat_eq_append, ← List.cons_append, ← List.append_assoc] at htranscript
        obtain ⟨hbefore, -⟩ := List.append_inj' htranscript rfl
        exact (ih t' es' ht' hbefore).snoc hok hs
    · exact (ih t' es' ht' htranscript).snoc hok hs

end Machine

end Interaction
