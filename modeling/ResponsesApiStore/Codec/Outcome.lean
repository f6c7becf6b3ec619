import Mathlib.Data.Option.Basic

/-!
# Outcomes of computations that fail in different ways

Two computations with different error types can only be compared in what they produce:
`Except.toOption` forgets the error. It commutes with everything a converter is built from, so
that two converters written with different errors have the same outcome as soon as their parts
have (`toOption_bind`, `toOption_mapM`).

`mapM_roundtrip` and `mapM_then` are about converting a list item by item: back again, and
through two converters in a row.
-/

namespace Codec

variable {ε ε' α β γ : Type}

/-! ### Forgetting the error -/

theorem toOption_eq_some {x : Except ε α} {a : α} : x.toOption = some a ↔ x = .ok a := by
  cases x <;> simp [Except.toOption]

@[simp]
theorem toOption_ok (a : α) : (Except.ok a : Except ε α).toOption = some a := rfl

@[simp]
theorem toOption_pure (a : α) : (pure a : Except ε α).toOption = some a := rfl

@[simp]
theorem toOption_mapError (f : ε → ε') (x : Except ε α) :
    (x.mapError f).toOption = x.toOption := by
  cases x <;> rfl

@[simp]
theorem toOption_bind (x : Except ε α) (f : α → Except ε β) :
    (x >>= f).toOption = x.toOption >>= fun a => (f a).toOption := by
  cases x <;> rfl

@[simp]
theorem toOption_mapM (f : α → Except ε β) (l : List α) :
    (l.mapM f).toOption = l.mapM fun a => (f a).toOption := by
  induction l with
  | nil => rfl
  | cons a l ih => simp only [List.mapM_cons, toOption_bind, ih, toOption_pure, Option.pure_def]

@[simp]
theorem toOption_mapM_option (f : α → Except ε β) (o : Option α) :
    (o.mapM f).toOption = o.mapM fun a => (f a).toOption := by
  rcases o with _ | a
  · rfl
  · show (some <$> f a).toOption = some <$> (f a).toOption
    rcases f a with e | b <;> rfl

/-! ### Item by item -/

theorem mapM_option_eq_some {f : α → Option β} {o : Option α} {o' : Option β}
    (h : o.mapM f = some o') :
    (o = none ∧ o' = none) ∨ ∃ a b, o = some a ∧ o' = some b ∧ f a = some b := by
  rcases o with _ | a
  · exact .inl ⟨rfl, (Option.some.inj h).symm⟩
  · obtain ⟨b, hb, rfl⟩ := Option.map_eq_some_iff.mp h
    exact .inr ⟨a, b, rfl, rfl, hb⟩

/-- What was converted item by item is converted back item by item. -/
theorem mapM_roundtrip {f : α → Option β} {g : β → Option α} {l : List α} {l' : List β}
    (hback : ∀ a ∈ l, ∀ b, f a = some b → g b = some a) (h : l.mapM f = some l') :
    l'.mapM g = some l := by
  induction l generalizing l' with
  | nil =>
    obtain rfl := Option.some.inj h
    rfl
  | cons a l ih =>
    rw [List.mapM_cons] at h
    obtain ⟨b, hb, h⟩ := Option.bind_eq_some_iff.mp h
    obtain ⟨bs, hbs, h⟩ := Option.bind_eq_some_iff.mp h
    obtain rfl := Option.some.inj h
    have htail := ih (fun a ha => hback a (List.mem_cons_of_mem _ ha)) hbs
    rw [List.mapM_cons, hback a List.mem_cons_self b hb, htail]
    rfl

/-- What a conversion that can only give `m a` gives item by item. -/
theorem mapM_eq_map {f : α → Option β} (m : α → β) {l : List α} {l' : List β}
    (hm : ∀ a ∈ l, ∀ b, f a = some b → b = m a) (h : l.mapM f = some l') : l' = l.map m := by
  induction l generalizing l' with
  | nil => exact (Option.some.inj h).symm
  | cons a l ih =>
    rw [List.mapM_cons] at h
    obtain ⟨b, hb, h⟩ := Option.bind_eq_some_iff.mp h
    obtain ⟨bs, hbs, h⟩ := Option.bind_eq_some_iff.mp h
    obtain rfl := Option.some.inj h
    rw [List.map_cons, hm a List.mem_cons_self b hb,
      ih (fun a ha => hm a (List.mem_cons_of_mem _ ha)) hbs]

/-- Every item was converted. -/
theorem exists_of_mapM {f : α → Option β} {l : List α} {l' : List β} (h : l.mapM f = some l')
    {a : α} (ha : a ∈ l) : ∃ b, f a = some b := by
  induction l generalizing l' with
  | nil => cases ha
  | cons a' l ih =>
    rw [List.mapM_cons] at h
    obtain ⟨b, hb, h⟩ := Option.bind_eq_some_iff.mp h
    obtain ⟨bs, hbs, -⟩ := Option.bind_eq_some_iff.mp h
    rcases List.mem_cons.mp ha with rfl | ha
    · exact ⟨b, hb⟩
    · exact ih hbs ha

/-- Two converters in a row are one, once the first has succeeded. -/
theorem mapM_then {f : α → Option β} (g : β → Option γ) {l : List α} {l' : List β}
    (h : l.mapM f = some l') : l'.mapM g = l.mapM fun a => f a >>= g := by
  induction l generalizing l' with
  | nil =>
    obtain rfl := Option.some.inj h
    rfl
  | cons a l ih =>
    rw [List.mapM_cons] at h
    obtain ⟨b, hb, h⟩ := Option.bind_eq_some_iff.mp h
    obtain ⟨bs, hbs, h⟩ := Option.bind_eq_some_iff.mp h
    obtain rfl := Option.some.inj h
    rw [List.mapM_cons, List.mapM_cons, ih hbs, hb]
    rfl

end Codec
