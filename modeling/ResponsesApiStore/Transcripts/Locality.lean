import Mathlib.Data.List.Basic
import Mathlib.Logic.Function.Basic
import Mathlib.Tactic.Common

/-!
# Computations at one key

A computation on a map may read and change it at one key only. Such computations compose
(`Local.bind`, `Local.except_bind`), and they do not see one another at different keys: of a
sequence of computations, each local at a key of its own, those at one key give the results, and
leave at their key the value, that they would without the others (`replay_filter`).
-/

namespace Interaction

variable {κ V α β ε : Type} {key : κ}

/-- **Locality.** The computation reads and changes the map at `key` only. -/
structure Local (key : κ) (p : StateM (κ → V) α) : Prop where
  reads : ∀ m m', m key = m' key →
    (p.run m).1 = (p.run m').1 ∧ (p.run m).2 key = (p.run m').2 key
  keeps : ∀ m k, k ≠ key → (p.run m).2 k = m k

theorem local_pure (a : α) : Local key (pure a : StateM (κ → V) α) :=
  ⟨fun _ _ h => ⟨rfl, h⟩, fun _ _ _ => rfl⟩

/-- A computation that only looks at the value at the key. -/
theorem local_get (f : V → α) : Local key ((fun m => (f (m key), m)) : StateM (κ → V) α) :=
  ⟨fun _ _ h => ⟨congrArg f h, h⟩, fun _ _ _ => rfl⟩

/-- A computation that replaces the value at the key. -/
theorem local_put [DecidableEq κ] (f : V → α) (g : V → V) :
    Local key ((fun m => (f (m key), Function.update m key (g (m key)))) : StateM (κ → V) α) := by
  refine ⟨fun m m' h => ⟨congrArg f h, ?_⟩, fun m k hk => Function.update_of_ne hk _ _⟩
  show Function.update m key _ key = Function.update m' key _ key
  rw [Function.update_self, Function.update_self, h]

theorem Local.bind {p : StateM (κ → V) α} {f : α → StateM (κ → V) β} (hp : Local key p)
    (hf : ∀ a, Local key (f a)) : Local key (p >>= f) := by
  constructor
  · intro m m' h
    obtain ⟨ha, hkey⟩ := hp.reads m m' h
    show ((f (p.run m).1).run (p.run m).2).1 = ((f (p.run m').1).run (p.run m').2).1 ∧
      ((f (p.run m).1).run (p.run m).2).2 key = ((f (p.run m').1).run (p.run m').2).2 key
    rw [ha]
    exact (hf _).reads _ _ hkey
  · intro m k hk
    show ((f (p.run m).1).run (p.run m).2).2 k = m k
    rw [(hf _).keeps _ k hk, hp.keeps m k hk]

theorem Local.except_bind {p : ExceptT ε (StateM (κ → V)) α}
    {f : α → ExceptT ε (StateM (κ → V)) β} (hp : Local key p.run)
    (hf : ∀ a, Local key (f a).run) : Local key (p >>= f).run := by
  rw [ExceptT.run_bind]
  refine hp.bind fun r => ?_
  rcases r with e | a
  · exact local_pure _
  · exact hf a

theorem Local.except_map {p : ExceptT ε (StateM (κ → V)) α} (hp : Local key p.run) (m : α → β) :
    Local key (m <$> p).run := by
  rw [ExceptT.run_map, ← bind_pure_comp]
  exact hp.bind fun r => local_pure _

/-! ### Sequences -/

/-- Take the computations in turn; the results, each with its key, and the map at the end. -/
def replay : List (κ × StateM (κ → V) α) → (κ → V) → List (κ × α) × (κ → V)
  | [], m => ([], m)
  | (k, p) :: ps, m =>
    ((k, (p.run m).1) :: (replay ps (p.run m).2).1, (replay ps (p.run m).2).2)

/-- **Other keys do not matter.** -/
theorem replay_filter [DecidableEq κ] (key : κ) {ps : List (κ × StateM (κ → V) α)}
    (hlocal : ∀ x ∈ ps, Local x.1 x.2) {m m' : κ → V} (hm : m key = m' key) :
    (replay ps m).1.filter (fun x => x.1 = key) =
        (replay (ps.filter fun x => x.1 = key) m').1 ∧
      (replay ps m).2 key = (replay (ps.filter fun x => x.1 = key) m').2 key := by
  induction ps generalizing m m' with
  | nil => exact ⟨rfl, hm⟩
  | cons x ps ih =>
    obtain ⟨k, p⟩ := x
    have hp : Local k p := hlocal (k, p) List.mem_cons_self
    have hrest : ∀ x ∈ ps, Local x.1 x.2 := fun x hx => hlocal x (List.mem_cons_of_mem _ hx)
    by_cases hk : k = key
    · subst hk
      obtain ⟨ha, hkey⟩ := hp.reads m m' hm
      obtain ⟨hanswers, hlast⟩ := ih hrest hkey
      rw [List.filter_cons_of_pos (by simp)]
      simp only [replay]
      rw [List.filter_cons_of_pos (by simp), hanswers, ha]
      exact ⟨rfl, hlast⟩
    · have hkept : (p.run m).2 key = m' key := (hp.keeps m key (Ne.symm hk)).trans hm
      obtain ⟨hanswers, hlast⟩ := ih hrest hkept
      rw [List.filter_cons_of_neg (by simp [hk])]
      simp only [replay]
      rw [List.filter_cons_of_neg (by simp [hk]), hanswers]
      exact ⟨rfl, hlast⟩

end Interaction
