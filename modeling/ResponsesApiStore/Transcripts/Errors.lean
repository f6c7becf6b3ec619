import ResponsesApiStore.Interaction.Transcript

/-!
# What every transcript shows

A property of all complete transcripts of a procedure is proved along its structure. `Errs E p`:
whatever it is answered, `p` fails only with errors of `E`. The errors of a composite are those of
its parts (`Errs.bind`); where the second part relies on what the first has returned, `Errs.bind_of`
hands that on.

Between transcripts and protocols there is a way in both directions (`Follows.of_returns`,
`follows_of_returns`).
-/

namespace Interaction

namespace Program

variable {S : Signature} {α β ε : Type}

/-- What a program that keeps a protocol has established when it returns. -/
theorem Follows.of_returns {G : Type} {P : Protocol S G} {p : Program S α} {post : G → α → Prop}
    {g : G} {es : List S.Exchange} {a : α} (h : p.Follows P post g) (hreturns : p.Returns es a) :
    post (P.after g es) a := h.resume hreturns

/-- Under a protocol that permits everything, a program establishes what all its transcripts
show. -/
theorem follows_of_returns {G : Type} {P : Protocol S G} {p : Program S α} {post : G → α → Prop}
    {g : G} (hallowed : ∀ g c, P.allowed g c)
    (h : ∀ es a, p.Returns es a → post (P.after g es) a) : p.Follows P post g := by
  induction p generalizing g with
  | ret a => exact h [] a (returns_ret.mpr ⟨rfl, rfl⟩)
  | cmd c k ih =>
    refine ⟨hallowed g c, fun r => ih r fun es a hreturns => ?_⟩
    exact h (⟨c, r⟩ :: es) a (returns_cmd.mpr ⟨r, es, rfl, hreturns⟩)

/-- A success that is computed from the one of another procedure. -/
theorem Returns.map_ok {p : ExceptT ε (Program S) α} {m : α → β} {es : List S.Exchange} {b : β}
    (h : (m <$> p).run.Returns es (.ok b)) : ∃ a, p.run.Returns es (.ok a) ∧ b = m a := by
  rw [ExceptT.run_map, ← bind_pure_comp, returns_bind_iff] at h
  obtain ⟨es₁, es₂, e | a, rfl, hp, hret⟩ := h
  · cases (returns_pure.mp hret).2
  · obtain ⟨rfl, heq⟩ := returns_pure.mp hret
    exact ⟨a, by rwa [List.append_nil], Except.ok.inj heq⟩

/-! ### The errors a procedure can end with -/

/-- Whatever it is answered, the procedure fails only with errors of `E`. -/
def Errs (E : ε → Prop) (p : ExceptT ε (Program S) α) : Prop :=
  ∀ es e, p.run.Returns es (.error e) → E e

section Errs

variable {E E' : ε → Prop} {p : ExceptT ε (Program S) α}

theorem errs_pure (a : α) : Errs E (pure a : ExceptT ε (Program S) α) := by
  intro es e h
  cases (returns_ret.mp h).2

theorem errs_throw {e : ε} (he : E e) : Errs E (throw e : ExceptT ε (Program S) α) := by
  intro es e' h
  obtain rfl := Except.error.inj (returns_ret.mp h).2
  exact he

theorem errs_lift (p : Program S α) : Errs E (ExceptT.lift p : ExceptT ε (Program S) α) := by
  intro es e h
  rw [ExceptT.run_lift, ← bind_pure_comp, returns_bind_iff] at h
  obtain ⟨es₁, es₂, a, -, -, hret⟩ := h
  cases (returns_pure.mp hret).2

/-- A composite fails with an error of its first part, or of the rest. -/
theorem Errs.bind (hp : Errs E p) {f : α → ExceptT ε (Program S) β} (hf : ∀ a, Errs E (f a)) :
    Errs E (p >>= f) := by
  intro es e h
  rcases returns_except_bind_iff.mp h with ⟨es₁, es₂, a, -, -, hrest⟩ | ⟨e', hfail, heq⟩
  · exact hf a es₂ e hrest
  · obtain rfl := Except.error.inj heq
    exact hp es e hfail

/-- A composite whose second part may rely on the result of the first. -/
theorem Errs.bind_of (hp : Errs E p) (post : α → Prop)
    (hpost : ∀ es a, p.run.Returns es (.ok a) → post a) {f : α → ExceptT ε (Program S) β}
    (hf : ∀ a, post a → Errs E (f a)) : Errs E (p >>= f) := by
  intro es e h
  rcases returns_except_bind_iff.mp h with ⟨es₁, es₂, a, -, hfirst, hrest⟩ | ⟨e', hfail, heq⟩
  · exact hf a (hpost es₁ a hfirst) es₂ e hrest
  · obtain rfl := Except.error.inj heq
    exact hp es e hfail

theorem Errs.mono (hp : Errs E p) (hE : ∀ e, E e → E' e) : Errs E' p := by
  intro es e h
  exact hE e (hp es e h)

theorem Errs.map (hp : Errs E p) (f : α → β) : Errs E (f <$> p) := by
  rw [← bind_pure_comp]
  exact hp.bind fun a => errs_pure (f a)

end Errs

end Program

end Interaction
