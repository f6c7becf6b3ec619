import ResponsesApiStore.Interaction.Program

/-!
# Complete transcripts

`p.Returns es a`: answered as recorded in `es`, the program comes to its end with result `a`. The
transcript of a composite is the transcript of its first part followed by that of the rest
(`returns_bind_iff`), so what a program does can be read off its transcript part by part.
-/

namespace Interaction

namespace Program

variable {S : Signature} {α β ε : Type}

/-- Answered as recorded in `es`, the program returns `a`. -/
def Returns (p : Program S α) (es : List S.Exchange) (a : α) : Prop := p.Resumes es (ret a)

@[simp]
theorem returns_ret {a b : α} {es : List S.Exchange} :
    (ret a : Program S α).Returns es b ↔ es = [] ∧ b = a := by
  cases es with
  | nil => simp [Returns, Resumes, eq_comm]
  | cons e es => simp [Returns, Resumes]

@[simp]
theorem returns_pure {a b : α} {es : List S.Exchange} :
    (pure a : Program S α).Returns es b ↔ es = [] ∧ b = a := returns_ret

/-- A program that issues a command has the exchange first. -/
theorem returns_cmd {c : S.Cmd} {k : S.Reply c → Program S α} {es : List S.Exchange} {a : α} :
    (cmd c k).Returns es a ↔ ∃ r es', es = ⟨c, r⟩ :: es' ∧ (k r).Returns es' a := by
  constructor
  · intro h
    cases es with
    | nil => cases h
    | cons e es =>
      obtain ⟨k', heq, h⟩ := h
      obtain ⟨c', r⟩ := e
      obtain ⟨rfl, hk⟩ := cmd.inj heq
      obtain rfl := eq_of_heq hk
      exact ⟨r, es, rfl, h⟩
  · rintro ⟨r, es', rfl, h⟩
    exact ⟨k, rfl, h⟩

@[simp]
theorem returns_call {c : S.Cmd} {es : List S.Exchange} {r : S.Reply c} :
    (call c).Returns es r ↔ es = [⟨c, r⟩] := by
  rw [call, returns_cmd]
  constructor
  · rintro ⟨r', es', rfl, h⟩
    obtain ⟨rfl, rfl⟩ := returns_ret.mp h
    rfl
  · rintro rfl
    exact ⟨r, [], rfl, returns_ret.mpr ⟨rfl, rfl⟩⟩

/-- The transcript of a composite. -/
theorem returns_bind_iff {p : Program S α} {f : α → Program S β} {es : List S.Exchange} {b : β} :
    (p >>= f).Returns es b ↔
      ∃ es₁ es₂ a, es = es₁ ++ es₂ ∧ p.Returns es₁ a ∧ (f a).Returns es₂ b := by
  induction p generalizing es with
  | ret a =>
    constructor
    · exact fun h => ⟨[], es, a, rfl, returns_ret.mpr ⟨rfl, rfl⟩, h⟩
    · rintro ⟨es₁, es₂, a', rfl, h₁, h₂⟩
      obtain ⟨rfl, rfl⟩ := returns_ret.mp h₁
      exact h₂
  | cmd c k ih =>
    simp only [cmd_bind, returns_cmd, ih]
    constructor
    · rintro ⟨r, _, rfl, es₁, es₂, a, rfl, h₁, h₂⟩
      exact ⟨_, es₂, a, rfl, ⟨r, es₁, rfl, h₁⟩, h₂⟩
    · rintro ⟨_, es₂, a, rfl, ⟨r, es₁, rfl, h₁⟩, h₂⟩
      exact ⟨r, _, rfl, es₁, es₂, a, rfl, h₁, h₂⟩

/-- The transcript of a fallible composite: an error ends it. -/
theorem returns_except_bind_iff {p : ExceptT ε (Program S) α} {f : α → ExceptT ε (Program S) β}
    {es : List S.Exchange} {x : Except ε β} :
    (p >>= f).run.Returns es x ↔
      (∃ es₁ es₂ a, es = es₁ ++ es₂ ∧ p.run.Returns es₁ (.ok a) ∧ (f a).run.Returns es₂ x) ∨
        ∃ e, p.run.Returns es (.error e) ∧ x = .error e := by
  rw [ExceptT.run_bind, returns_bind_iff]
  constructor
  · rintro ⟨es₁, es₂, e | a, rfl, h₁, h₂⟩
    · obtain ⟨rfl, rfl⟩ := returns_ret.mp h₂
      exact .inr ⟨e, by rwa [List.append_nil], rfl⟩
    · exact .inl ⟨es₁, es₂, a, rfl, h₁, h₂⟩
  · rintro (⟨es₁, es₂, a, rfl, h₁, h₂⟩ | ⟨e, h₁, rfl⟩)
    · exact ⟨es₁, es₂, .ok a, rfl, h₁, h₂⟩
    · exact ⟨es, [], .error e, (List.append_nil es).symm, h₁, returns_ret.mpr ⟨rfl, rfl⟩⟩

/-- A fallible composite that succeeds: both parts do. -/
theorem Returns.bind_ok {p : ExceptT ε (Program S) α} {f : α → ExceptT ε (Program S) β}
    {es : List S.Exchange} {b : β} (h : (p >>= f).run.Returns es (.ok b)) :
    ∃ es₁ es₂ a, es = es₁ ++ es₂ ∧ p.run.Returns es₁ (.ok a) ∧ (f a).run.Returns es₂ (.ok b) := by
  rcases returns_except_bind_iff.mp h with hok | ⟨e, -, herror⟩
  · exact hok
  · cases herror

/-- Answer a program from a transcript; its result, if the transcript is the whole of it. -/
def replay? [DecidableEq S.Cmd] : Program S α → List S.Exchange → Option α
  | ret a, [] => some a
  | ret _, _ :: _ => none
  | cmd _ _, [] => none
  | cmd c k, ⟨c', r⟩ :: es => if h : c' = c then replay? (k (h ▸ r)) es else none

theorem returns_of_replay? [DecidableEq S.Cmd] {p : Program S α} {es : List S.Exchange} {a : α}
    (h : p.replay? es = some a) : p.Returns es a := by
  induction p generalizing es with
  | ret b =>
    cases es with
    | nil => exact returns_ret.mpr ⟨rfl, (Option.some.inj h).symm⟩
    | cons e es => cases h
  | cmd c k ih =>
    cases es with
    | nil => cases h
    | cons e es =>
      obtain ⟨c', r⟩ := e
      rw [replay?] at h
      split_ifs at h with hc
      subst hc
      exact returns_cmd.mpr ⟨r, es, rfl, ih r h⟩

/-- A transcript of a program that has been checked. -/
structure Replay [DecidableEq S.Cmd] (p : Program S α) where
  transcript : List S.Exchange
  result : α
  replays : p.replay? transcript = some result

theorem Replay.returns [DecidableEq S.Cmd] {p : Program S α} (r : p.Replay) :
    p.Returns r.transcript r.result := returns_of_replay? r.replays

end Program

end Interaction
