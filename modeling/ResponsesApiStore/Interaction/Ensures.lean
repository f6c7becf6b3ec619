import ResponsesApiStore.Interaction.Machine

/-!
# Total correctness of one program among many

`Program.Ensures` is about a program that is answered from a state: a relation says how a
command may be answered in a state and which state it leaves. The program is never stuck, and
whatever the answers are, its result satisfies a postcondition in the state it ends in. Since
programs are well-founded trees, this is total correctness.

A machine gives a task such a state when, as far as a *view* of the shared state goes, nobody
but the task changes it (`Machine.Isolates`). Then the property is carried along every run
(`Isolates.ensures`), and from every world the task can be brought to its end
(`Isolates.completes`).
-/

namespace Interaction

namespace Program

variable {S : Signature} {State α β ε : Type}
  {ans : State → (c : S.Cmd) → State → S.Reply c → Prop} {s : State}

/-- **Total correctness.** Answered from state `s` as `ans` permits, the program always gets an
answer, and its result satisfies `post` in the state it ends in. -/
def Ensures (ans : State → (c : S.Cmd) → State → S.Reply c → Prop) (post : State → α → Prop) :
    Program S α → State → Prop
  | ret a, s => post s a
  | cmd c k, s => (∃ s' r, ans s c s' r) ∧ ∀ s' r, ans s c s' r → (k r).Ensures ans post s'

@[simp]
theorem ensures_ret {post : State → α → Prop} {a : α} :
    (ret a : Program S α).Ensures ans post s ↔ post s a := Iff.rfl

@[simp]
theorem ensures_pure {post : State → α → Prop} {a : α} :
    (pure a : Program S α).Ensures ans post s ↔ post s a := Iff.rfl

@[simp]
theorem ensures_call {c : S.Cmd} {post : State → S.Reply c → Prop} :
    (call c).Ensures ans post s ↔ (∃ s' r, ans s c s' r) ∧ ∀ s' r, ans s c s' r → post s' r :=
  Iff.rfl

/-- The sequencing rule. -/
theorem ensures_bind_iff {p : Program S α} {f : α → Program S β} {post : State → β → Prop} :
    (p >>= f).Ensures ans post s ↔ p.Ensures ans (fun s a => (f a).Ensures ans post s) s := by
  induction p generalizing s with
  | ret a => rfl
  | cmd c k ih => simp only [cmd_bind, Ensures, ih]

/-- The consequence rule. -/
theorem Ensures.mono {p : Program S α} {post post' : State → α → Prop}
    (h : p.Ensures ans post s) (hpost : ∀ s a, post s a → post' s a) : p.Ensures ans post' s := by
  induction p generalizing s with
  | ret a => exact hpost s a h
  | cmd c k ih => exact ⟨h.1, fun s' r hans => ih r (h.2 s' r hans)⟩

/-- Answered from state `s` as `ans` permits, the program may end with `a` in state `s'`. -/
def EndsIn (ans : State → (c : S.Cmd) → State → S.Reply c → Prop) :
    Program S α → State → State → α → Prop
  | ret a, s, s', b => s' = s ∧ b = a
  | cmd c k, s, s', b => ∃ t r, ans s c t r ∧ (k r).EndsIn ans t s' b

/-- A program that is totally correct can end, and only as it should. -/
theorem Ensures.endsIn {p : Program S α} {post : State → α → Prop} (h : p.Ensures ans post s) :
    (∃ s' a, p.EndsIn ans s s' a) ∧ ∀ s' a, p.EndsIn ans s s' a → post s' a := by
  induction p generalizing s with
  | ret a =>
    refine ⟨⟨s, a, rfl, rfl⟩, ?_⟩
    rintro _ _ ⟨rfl, rfl⟩
    exact h
  | cmd c k ih =>
    constructor
    · obtain ⟨t, r, hans⟩ := h.1
      obtain ⟨s', a, hends⟩ := (ih r (h.2 t r hans)).1
      exact ⟨s', a, t, r, hans, hends⟩
    · rintro s' a ⟨t, r, hans, hends⟩
      exact (ih r (h.2 t r hans)).2 s' a hends

/-- The sequencing rule for fallible programs. -/
theorem ensures_except_bind_iff {p : ExceptT ε (Program S) α} {f : α → ExceptT ε (Program S) β}
    {post : State → Except ε β → Prop} :
    (p >>= f).run.Ensures ans post s ↔
      p.run.Ensures ans (fun s a => match a with
        | .ok a => (f a).run.Ensures ans post s
        | .error e => post s (.error e)) s := by
  rw [ExceptT.run_bind, ensures_bind_iff]
  constructor <;> intro h <;> refine h.mono ?_ <;> rintro s (e | a) ha <;> exact ha

end Program

namespace Machine

variable {S : Signature} {Shared Call Result Choice Env State : Type}
  {M : Machine S Shared Call Result Choice Env}
  {ok : World S Shared Call Result → Label Call Choice Env → Prop} {i : ℕ}
  {view : Shared → State} {ans : State → (c : S.Cmd) → State → S.Reply c → Prop}
  {post : State → Result → Prop}

/-- In runs permitted by `ok`, the commands of task `i`, which serves `call`, are answered as
`ans` says if it says anything about them, and nobody else changes what `view` shows of the
shared state. -/
structure Isolates (M : Machine S Shared Call Result Choice Env)
    (ok : World S Shared Call Result → Label Call Choice Env → Prop) (i : ℕ) (call : Call)
    (view : Shared → State) (ans : State → (c : S.Cmd) → State → S.Reply c → Prop) : Prop where
  act : ∀ {x choice t c k σ r}, ok x (.act i choice) → x.tasks i = some t → t.live = true →
    t.call = call → t.prog = .cmd c k → (∃ s' r', ans (view x.shared) c s' r') →
    M.exec x.shared i t.call c choice = some (σ, r) → ans (view x.shared) c (view σ) r
  other : ∀ {x l y}, ok x l → (∀ choice, l ≠ .act i choice) → M.Stepped x l y →
    view y.shared = view x.shared

variable {call : Call}

theorem Isolates.mono {ok' : World S Shared Call Result → Label Call Choice Env → Prop}
    (h : M.Isolates ok i call view ans) (himp : ∀ w l, ok' w l → ok w l) :
    M.Isolates ok' i call view ans where
  act hok := h.act (himp _ _ hok)
  other hok := h.other (himp _ _ hok)

/-- **Along a run.** What the program of the task ensures, its rest ensures in every world. -/
theorem Isolates.ensures (h : M.Isolates ok i call view ans) {u w : World S Shared Call Result}
    {ls : List (Label Call Choice Env)} (hrun : M.RunIn ok u ls w) {t : Task S Call Result}
    (ht : u.tasks i = some t) (hcall : t.call = call)
    (hens : t.prog.Ensures ans post (view u.shared)) :
    ∃ t', w.tasks i = some t' ∧ t'.call = call ∧ t'.prog.Ensures ans post (view w.shared) := by
  refine hrun.invariant (I := fun w => ∃ t', w.tasks i = some t' ∧ t'.call = call ∧
    t'.prog.Ensures ans post (view w.shared)) (fun x l y hI hok hs => ?_) ⟨t, ht, hcall, hens⟩
  obtain ⟨t', ht', hcall', hens'⟩ := hI
  by_cases hact : ∃ choice, l = .act i choice
  · obtain ⟨choice, rfl⟩ := hact
    cases hs with
    | @act _ _ u c k σ r htask hlive hprog hexec =>
      obtain rfl : t' = u := Option.some.inj (ht'.symm.trans htask)
      rw [hprog] at hens'
      exact ⟨_, World.put_tasks_self _ i _, hcall',
        hens'.2 _ r (h.act hok htask hlive hcall' hprog hens'.1 hexec)⟩
  · have hother : ∀ choice, l ≠ .act i choice := fun choice heq => hact ⟨choice, heq⟩
    rw [h.other hok hother hs]
    rcases hs.task_next ht' with hsame | ⟨c, k, r, σ, choice, heq, -⟩ | ⟨-, hdropped⟩
    · exact ⟨t', hsame, hcall', hens'⟩
    · exact absurd heq (hother choice)
    · exact ⟨_, hdropped, hcall', hens'⟩

/-- **To the end.** If in every world that is `ready` some answer can be given to a command of
the task that has one, and the world stays ready, then the task can be brought to its end. -/
theorem Isolates.completes (h : M.Isolates ok i call view ans) (ready : Shared → Prop)
    (hready : ∀ {x t c k s' r}, ready x.shared → x.tasks i = some t → t.live = true →
      t.call = call → t.prog = .cmd c k → ans (view x.shared) c s' r →
      ∃ choice σ r', ok x (.act i choice) ∧
        M.exec x.shared i t.call c choice = some (σ, r') ∧ ready σ)
    {u : World S Shared Call Result} {t : Task S Call Result} (hu : ready u.shared)
    (ht : u.tasks i = some t) (hlive : t.live = true) (hcall : t.call = call)
    (hens : t.prog.Ensures ans post (view u.shared)) :
    ∃ ls w t' a, M.RunIn ok u ls w ∧ w.tasks i = some t' ∧ t'.prog = .ret a := by
  generalize hp : t.prog = p at hens
  induction p generalizing u t with
  | ret a => exact ⟨[], u, t, a, rfl, ht, hp⟩
  | cmd c k ih =>
    obtain ⟨⟨s', r, hans⟩, hnext⟩ := hens
    obtain ⟨choice, σ, r', hok, hexec, hσ⟩ := hready hu ht hlive hcall hp hans
    have hstep := step_eq_some_iff.mpr (.act ht hlive hp hexec)
    obtain ⟨ls, w, t', a, hrun, ht', ha⟩ := ih r'
      (u := { u with shared := σ }.put i (t.advance c k r')) (t := t.advance c k r') hσ
      (World.put_tasks_self _ i _) hlive hcall rfl
      (hnext _ r' (h.act hok ht hlive hcall hp ⟨s', r, hans⟩ hexec))
    exact ⟨.act i choice :: ls, w, t', a, ⟨hok, _, hstep, hrun⟩, ht', ha⟩

end Machine

end Interaction
