import ResponsesApiStore.Interaction.Machine
import Mathlib.Logic.Hydra
import Mathlib.Algebra.Order.Group.Multiset

/-!
# Draining a pool

When no task is spawned any more, every task has only so many commands left, and each answer
takes it to a smaller program. So a pool of finitely many tasks cannot be scheduled for ever
(`wellFounded_acted`), and if none of the worlds it can come to is stuck, it can be run until
every live task has returned (`RunIn.exists_settled`). That no world is stuck is the part which
depends on the machine.
-/

namespace Interaction

variable {S : Signature} {Shared Call Result Choice Env : Type}

/-- One slot of the pool after its task has had a command answered. -/
def Advanced (o' o : Option (Task S Call Result)) : Prop :=
  ∃ t c k r, o = some t ∧ t.prog = .cmd c k ∧ o' = some (t.advance c k r)

theorem wellFounded_advanced : WellFounded (@Advanced S Call Result) := by
  have hsome : ∀ (p : Program S Result) (t : Task S Call Result), t.prog = p →
      Acc Advanced (some t) := by
    intro p
    induction p with
    | ret a =>
      rintro t ht
      refine ⟨_, ?_⟩
      rintro _ ⟨t', c, k, r, heq, hprog, -⟩
      obtain rfl := Option.some.inj heq
      rw [ht] at hprog
      cases hprog
    | cmd c k ih =>
      rintro t ht
      refine ⟨_, ?_⟩
      rintro _ ⟨t', c', k', r, heq, hprog, rfl⟩
      obtain rfl := Option.some.inj heq
      rw [ht] at hprog
      cases hprog
      exact ih r _ rfl
  refine ⟨fun o => ?_⟩
  rcases o with _ | t
  · refine ⟨_, ?_⟩
    rintro _ ⟨t, c, k, r, heq, -⟩
    cases heq
  · exact hsome t.prog t rfl

namespace World

/-- The slots from `n` on are free. -/
def Within (w : World S Shared Call Result) (n : ℕ) : Prop := ∀ i, n ≤ i → w.tasks i = none

/-- Every live task has returned. -/
def Settled (w : World S Shared Call Result) : Prop :=
  ∀ i t, w.tasks i = some t → t.live = true → ∃ a, t.prog = .ret a

/-- The first `n` slots, without their order. -/
def slots (n : ℕ) (w : World S Shared Call Result) : Multiset (Option (Task S Call Result)) :=
  (Multiset.range n).map w.tasks

/-- The slots with one of them singled out. -/
theorem slots_eq {n i : ℕ} (hi : i < n) (w : World S Shared Call Result) :
    w.slots n = ((Multiset.range n).erase i).map w.tasks + {w.tasks i} := by
  rw [slots, ← Multiset.cons_erase (Multiset.mem_range.mpr hi), Multiset.map_cons,
    Multiset.erase_cons_head, ← Multiset.singleton_add, add_comm]

end World

namespace Machine

variable {M : Machine S Shared Call Result Choice Env}

/-- A command of some task was answered. -/
def Acted (M : Machine S Shared Call Result Choice Env) (n : ℕ)
    (v u : World S Shared Call Result) : Prop :=
  u.Within n ∧ ∃ i choice, M.Stepped u (.act i choice) v

theorem Acted.within {n : ℕ} {u v : World S Shared Call Result} (h : M.Acted n v u) :
    v.Within n := by
  obtain ⟨hu, i, choice, hs⟩ := h
  intro j hj
  cases hs with
  | act htask hlive hprog hexec =>
    have hne : j ≠ i := by
      rintro rfl
      rw [hu j hj] at htask
      cases htask
    rw [World.put_tasks_of_ne _ _ hne]
    exact hu j hj

/-- **No schedule goes on for ever.** -/
theorem wellFounded_acted (n : ℕ) : WellFounded (M.Acted n) := by
  -- the slots shrink in the order in which one element gives way to a smaller one
  refine Subrelation.wf ?_ (InvImage.wf (World.slots n) wellFounded_advanced.cutExpand)
  rintro v u ⟨hu, i, choice, hs⟩
  cases hs with
  | @act _ _ t c k σ r htask hlive hprog hexec =>
    have hi : i < n := by
      by_contra hge
      rw [hu i (not_lt.mp hge)] at htask
      cases htask
    have hrest : ((Multiset.range n).erase i).map
        (World.tasks ({ u with shared := σ }.put i (t.advance c k r))) =
        ((Multiset.range n).erase i).map u.tasks := by
      refine Multiset.map_congr rfl fun j hj => World.put_tasks_of_ne _ _ ?_
      exact ((Multiset.nodup_range n).mem_erase_iff.mp hj).1
    show Relation.CutExpand Advanced (World.slots n _) (World.slots n u)
    rw [World.slots_eq hi, World.slots_eq hi u, hrest, World.put_tasks_self, htask]
    exact Relation.cutExpand_add_single _ ⟨t, c, k, r, rfl, hprog, rfl⟩

variable {ok : World S Shared Call Result → Label Call Choice Env → Prop}

/-- A run spawns finitely many tasks. -/
theorem RunIn.exists_within {u w : World S Shared Call Result}
    {ls : List (Label Call Choice Env)} (h : M.RunIn ok u ls w) {n : ℕ} (hu : u.Within n) :
    ∃ m, w.Within m := by
  refine h.invariant (I := fun w => ∃ m, w.Within m) (fun x l y hx _ hs => ?_) ⟨n, hu⟩
  obtain ⟨m, hm⟩ := hx
  cases hs with
  | @spawn i call hfree =>
    refine ⟨max m (i + 1), fun j hj => ?_⟩
    rw [World.put_tasks_of_ne _ _ (by omega)]
    exact hm j (by omega)
  | @act i choice t c k σ r htask hlive hprog hexec =>
    exact ⟨m, Acted.within (M := M) ⟨hm, i, choice, .act htask hlive hprog hexec⟩⟩
  | @drop i t htask hlive =>
    refine ⟨m, fun j hj => ?_⟩
    have hne : j ≠ i := by
      rintro rfl
      rw [hm j hj] at htask
      cases htask
    rw [World.put_tasks_of_ne _ _ hne]
    exact hm j hj
  | env henv => exact ⟨m, hm⟩

/-- **Draining.** If a property is kept, and a world with it that is not settled has a permitted
command to answer, then from every world with it a settled one is reached. -/
theorem exists_settled {I : World S Shared Call Result → Prop}
    (hkeep : ∀ u l v, I u → M.Stepped u l v → I v)
    (hprogress : ∀ u, I u → ¬u.Settled → ∃ i choice, ok u (.act i choice) ∧
      ∃ v, M.Stepped u (.act i choice) v)
    {w : World S Shared Call Result} {n : ℕ} (hw : I w) (hn : w.Within n) :
    ∃ ls w', M.RunIn ok w ls w' ∧ I w' ∧ w'.Settled := by
  induction w using (wellFounded_acted (M := M) n).induction with
  | _ w ih =>
    by_cases hsettled : w.Settled
    · exact ⟨[], w, rfl, hw, hsettled⟩
    · obtain ⟨i, choice, hok, v, hs⟩ := hprogress w hw hsettled
      have hacted : M.Acted n v w := ⟨hn, i, choice, hs⟩
      obtain ⟨ls, w', hrun, hw'⟩ := ih v hacted (hkeep w _ v hw hs) hacted.within
      exact ⟨.act i choice :: ls, w', ⟨hok, v, step_eq_some_iff.mpr hs, hrun⟩, hw'⟩

end Machine

end Interaction
