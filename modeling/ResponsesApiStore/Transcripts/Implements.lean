import ResponsesApiStore.Interaction.Ensures

/-!
# Programs that implement a function on an abstract state

`Program.Ensures` relates a program to a postcondition. Often what a program computes is known
exactly: seen through an abstraction of the state, it does what a function in the state monad
does. `Program.Implements` says so of one state, and that a state that is ready is left. So
implementations compose as the functions do (`Implements.bind`, `Implements.except_bind`); what
the function has computed so far is known to the rest.
-/

namespace Interaction.Program

variable {S : Signature} {State A α β ε : Type}
  {ans : State → (c : S.Cmd) → State → S.Reply c → Prop} {ready : State → Prop} {abs : State → A}
  {s : State}

/-- **Implementation.** From state `s` the program comes to its end in a ready state, and its
result and the abstraction of that state are those of `f`. -/
def Implements (ans : State → (c : S.Cmd) → State → S.Reply c → Prop) (ready : State → Prop)
    (abs : State → A) (p : Program S α) (f : StateM A α) (s : State) : Prop :=
  p.Ensures ans (fun s' a => ready s' ∧ f.run (abs s) = (a, abs s')) s

theorem implements_ret {a : α} (hs : ready s) :
    Implements ans ready abs (ret a : Program S α) (pure a) s := ⟨hs, rfl⟩

/-- The sequencing rule. -/
theorem Implements.bind {p : Program S α} {q : α → Program S β} {f : StateM A α}
    {g : α → StateM A β} (hp : Implements ans ready abs p f s)
    (hq : ∀ s' a, ready s' → f.run (abs s) = (a, abs s') →
      Implements ans ready abs (q a) (g a) s') :
    Implements ans ready abs (p >>= q) (f >>= g) s := by
  refine ensures_bind_iff.mpr (hp.mono ?_)
  rintro s' a ⟨hs', heq⟩
  refine (hq s' a hs' heq).mono ?_
  rintro s'' b ⟨hs'', heq'⟩
  refine ⟨hs'', ?_⟩
  show (g (f.run (abs s)).1).run (f.run (abs s)).2 = _
  rw [heq]
  exact heq'

/-- The sequencing rule for fallible programs: the rest runs on a success, and an error is the
result of the whole on both sides. -/
theorem Implements.except_bind {p : ExceptT ε (Program S) α}
    {q : α → ExceptT ε (Program S) β} {f : ExceptT ε (StateM A) α}
    {g : α → ExceptT ε (StateM A) β} (hp : Implements ans ready abs p.run f.run s)
    (hq : ∀ s' a, ready s' → f.run.run (abs s) = (.ok a, abs s') →
      Implements ans ready abs (q a).run (g a).run s') :
    Implements ans ready abs (p >>= q).run (f >>= g).run s := by
  rw [ExceptT.run_bind, ExceptT.run_bind]
  refine hp.bind fun s' r hs' heq => ?_
  rcases r with e | a
  · exact implements_ret hs'
  · exact hq s' a hs' heq

/-- A result that is computed from the one of a program. -/
theorem Implements.then_pure {p : Program S α} {f : StateM A α} (m : α → β)
    (hp : Implements ans ready abs p f s) :
    Implements ans ready abs (p >>= fun a => pure (m a)) (f >>= fun a => pure (m a)) s :=
  hp.bind fun _ _ hs' _ => implements_ret hs'

theorem Implements.except_map {p : ExceptT ε (Program S) α} {f : ExceptT ε (StateM A) α} (m : α → β)
    (hp : Implements ans ready abs p.run f.run s) :
    Implements ans ready abs (m <$> p).run (m <$> f).run s := by
  rw [ExceptT.run_map, ExceptT.run_map, ← bind_pure_comp, ← bind_pure_comp]
  exact hp.then_pure (Except.map m)

end Interaction.Program
