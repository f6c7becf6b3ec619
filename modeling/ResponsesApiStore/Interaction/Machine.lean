import ResponsesApiStore.Interaction.Program
import Mathlib.Data.List.Induction

/-!
# Pools of concurrent programs

A `Machine` runs any number of programs over one signature against one shared state. A
*world* is the shared state and the pool of tasks; a step spawns a task, lets one task
execute the command it is waiting on, drops a task at its current suspension point, or lets
the environment act. The nondeterminism of a step is resolved by its label, so `step` is a
partial function and a concrete run can be evaluated.

A task keeps the transcript of its exchanges. Since the transcript determines the residual
program, the ghost state of any `Protocol` is a function of it, and conformance of the
programs a machine can spawn (`Program.Follows`) holds of every task of every reachable
world (`RunIn.follows`). Invariants of the shared state are proved with `RunIn.invariant`,
one case for each constructor of `Stepped`.
-/

namespace Interaction

variable {S : Signature} {Shared Call Result Choice Env : Type}

/-- A machine: the program of each call, the effect of a command on the shared state (partial:
a disabled command has none), the moves of the environment, and what dropping a task
releases. -/
structure Machine (S : Signature) (Shared Call Result Choice Env : Type) where
  main : Call → Program S Result
  exec : Shared → ℕ → Call → (c : S.Cmd) → Choice → Option (Shared × S.Reply c)
  env : Shared → Env → Option Shared
  release : Shared → ℕ → Call → Shared

/-- A task: the call it serves, what is left of its program, the exchanges it has had, and
whether it is still scheduled. -/
structure Task (S : Signature) (Call Result : Type) where
  call : Call
  prog : Program S Result
  transcript : List S.Exchange
  live : Bool

/-- The task after its pending command `c` was answered by `r`. -/
def Task.advance (t : Task S Call Result) (c : S.Cmd) (k : S.Reply c → Program S Result)
    (r : S.Reply c) : Task S Call Result :=
  { t with prog := k r, transcript := t.transcript ++ [⟨c, r⟩] }

@[simp]
theorem Task.advance_call (t : Task S Call Result) (c : S.Cmd)
    (k : S.Reply c → Program S Result) (r : S.Reply c) : (t.advance c k r).call = t.call := rfl

@[simp]
theorem Task.advance_prog (t : Task S Call Result) (c : S.Cmd)
    (k : S.Reply c → Program S Result) (r : S.Reply c) : (t.advance c k r).prog = k r := rfl

@[simp]
theorem Task.advance_transcript (t : Task S Call Result) (c : S.Cmd)
    (k : S.Reply c → Program S Result) (r : S.Reply c) :
    (t.advance c k r).transcript = t.transcript ++ [⟨c, r⟩] := rfl

@[simp]
theorem Task.advance_live (t : Task S Call Result) (c : S.Cmd)
    (k : S.Reply c → Program S Result) (r : S.Reply c) : (t.advance c k r).live = t.live := rfl

/-- A world: the shared state and the pool of tasks. -/
structure World (S : Signature) (Shared Call Result : Type) where
  shared : Shared
  tasks : ℕ → Option (Task S Call Result)

/-- Replace one task of the pool. -/
def World.put (w : World S Shared Call Result) (i : ℕ) (t : Task S Call Result) :
    World S Shared Call Result :=
  { w with tasks := Function.update w.tasks i (some t) }

@[simp]
theorem World.put_shared (w : World S Shared Call Result) (i : ℕ) (t : Task S Call Result) :
    (w.put i t).shared = w.shared := rfl

@[simp]
theorem World.put_tasks_self (w : World S Shared Call Result) (i : ℕ)
    (t : Task S Call Result) : (w.put i t).tasks i = some t := by
  simp [World.put]

theorem World.put_tasks_of_ne (w : World S Shared Call Result) {i j : ℕ}
    (t : Task S Call Result) (h : j ≠ i) : (w.put i t).tasks j = w.tasks j := by
  simp [World.put, h]

theorem World.put_tasks_eq_some {w : World S Shared Call Result} {i j : ℕ}
    {t u : Task S Call Result} (h : (w.put i t).tasks j = some u) :
    (j = i ∧ u = t) ∨ (j ≠ i ∧ w.tasks j = some u) := by
  by_cases hj : j = i
  · subst hj
    exact .inl ⟨rfl, by simpa [eq_comm] using h⟩
  · exact .inr ⟨hj, by rwa [World.put_tasks_of_ne _ _ hj] at h⟩

/-- What can happen next, with every choice made. -/
inductive Label (Call Choice Env : Type)
  | spawn (i : ℕ) (call : Call)
  | act (i : ℕ) (choice : Choice)
  | drop (i : ℕ)
  | env (e : Env)

namespace Machine

variable (M : Machine S Shared Call Result Choice Env)

/-- The freshly spawned task of a call. -/
def start (call : Call) : Task S Call Result := ⟨call, M.main call, [], true⟩

/-- One step of the machine; `none` when the label is not enabled. -/
def step (w : World S Shared Call Result) :
    Label Call Choice Env → Option (World S Shared Call Result)
  | .spawn i call =>
    match w.tasks i with
    | none => some (w.put i (M.start call))
    | some _ => none
  | .act i choice =>
    match w.tasks i with
    | some t =>
      match t.live, t.prog with
      | true, .cmd c k =>
        (M.exec w.shared i t.call c choice).map fun x =>
          { w with shared := x.1 }.put i (t.advance c k x.2)
      | _, _ => none
    | none => none
  | .drop i =>
    match w.tasks i with
    | some t =>
      match t.live with
      | true => some ({ w with shared := M.release w.shared i t.call }.put i
          { t with live := false })
      | false => none
    | none => none
  | .env e => (M.env w.shared e).map fun σ => { w with shared := σ }

/-- The view of a step by its four kinds. -/
inductive Stepped (w : World S Shared Call Result) :
    Label Call Choice Env → World S Shared Call Result → Prop
  | spawn {i : ℕ} {call : Call} (hfree : w.tasks i = none) :
      Stepped w (.spawn i call) (w.put i (M.start call))
  | act {i : ℕ} {choice : Choice} {t : Task S Call Result} {c : S.Cmd}
      {k : S.Reply c → Program S Result} {σ : Shared} {r : S.Reply c}
      (htask : w.tasks i = some t) (hlive : t.live = true) (hprog : t.prog = .cmd c k)
      (hexec : M.exec w.shared i t.call c choice = some (σ, r)) :
      Stepped w (.act i choice) ({ w with shared := σ }.put i (t.advance c k r))
  | drop {i : ℕ} {t : Task S Call Result} (htask : w.tasks i = some t)
      (hlive : t.live = true) :
      Stepped w (.drop i)
        ({ w with shared := M.release w.shared i t.call }.put i { t with live := false })
  | env {e : Env} {σ : Shared} (henv : M.env w.shared e = some σ) :
      Stepped w (.env e) { w with shared := σ }

variable {M}

theorem step_eq_some_iff {w w' : World S Shared Call Result} {l : Label Call Choice Env} :
    M.step w l = some w' ↔ M.Stepped w l w' := by
  constructor
  · intro h
    cases l with
    | spawn i call =>
      simp only [step] at h
      split at h
      · cases h; exact .spawn ‹_›
      · cases h
    | act i choice =>
      simp only [step] at h
      split at h
      · split at h
        · obtain ⟨⟨σ, r⟩, hx, rfl⟩ := Option.map_eq_some_iff.mp h
          exact .act ‹_› ‹_› ‹_› hx
        · cases h
      · cases h
    | drop i =>
      simp only [step] at h
      split at h
      · split at h
        · cases h; exact .drop ‹_› ‹_›
        · cases h
      · cases h
    | env e =>
      obtain ⟨σ, hσ, rfl⟩ := Option.map_eq_some_iff.mp h
      exact .env hσ
  · intro h
    cases h with
    | spawn hfree => simp only [step, hfree]
    | act htask hlive hprog hexec => simp only [step, htask, hlive, hprog, hexec, Option.map_some]
    | drop htask hlive => simp only [step, htask, hlive]
    | env henv => simp only [step, henv, Option.map_some]

/-- **Where a task comes from.** A task of the world after a step was there before, unchanged
or with one more exchange or dropped, or has just been spawned. -/
theorem Stepped.task_cases {w w' : World S Shared Call Result} {l : Label Call Choice Env}
    (hs : M.Stepped w l w') {j : ℕ} {u : Task S Call Result} (hu : w'.tasks j = some u) :
    (w.tasks j = some u ∧ ∀ choice, l ≠ .act j choice) ∨
      (∃ call, l = .spawn j call ∧ u = M.start call) ∨
      (∃ t c k r σ choice, l = .act j choice ∧ w.tasks j = some t ∧ t.live = true ∧
        t.prog = .cmd c k ∧ M.exec w.shared j t.call c choice = some (σ, r) ∧
        w'.shared = σ ∧ u = t.advance c k r) ∨
      ∃ t, l = .drop j ∧ w.tasks j = some t ∧ u = { t with live := false } := by
  cases hs with
  | @spawn i call hfree =>
    rcases World.put_tasks_eq_some hu with ⟨rfl, rfl⟩ | ⟨-, hu⟩
    · exact .inr (.inl ⟨call, rfl, rfl⟩)
    · exact .inl ⟨hu, by simp⟩
  | @act i choice t c k σ r htask hlive hprog hexec =>
    rcases World.put_tasks_eq_some hu with ⟨rfl, rfl⟩ | ⟨hne, hu⟩
    · exact .inr (.inr (.inl ⟨t, c, k, r, σ, choice, rfl, htask, hlive, hprog, hexec, rfl, rfl⟩))
    · exact .inl ⟨hu, fun _ h => hne (Label.act.inj h).1.symm⟩
  | @drop i t htask hlive =>
    rcases World.put_tasks_eq_some hu with ⟨rfl, rfl⟩ | ⟨-, hu⟩
    · exact .inr (.inr (.inr ⟨t, rfl, htask, rfl⟩))
    · exact .inl ⟨hu, by simp⟩
  | env henv => exact .inl ⟨hu, by simp⟩

/-- **Where a task goes.** A task is still there after a step, unchanged or with one more
exchange or dropped. -/
theorem Stepped.task_next {w w' : World S Shared Call Result} {l : Label Call Choice Env}
    (hs : M.Stepped w l w') {j : ℕ} {t : Task S Call Result} (ht : w.tasks j = some t) :
    w'.tasks j = some t ∨
      (∃ c k r σ choice, l = .act j choice ∧ t.live = true ∧ t.prog = .cmd c k ∧
        M.exec w.shared j t.call c choice = some (σ, r) ∧ w'.tasks j = some (t.advance c k r)) ∨
      (l = .drop j ∧ w'.tasks j = some { t with live := false }) := by
  cases hs with
  | @spawn i call hfree =>
    by_cases hj : j = i
    · rw [hj, hfree] at ht
      cases ht
    · exact .inl (by rwa [World.put_tasks_of_ne _ _ hj])
  | @act i choice t' c k σ r htask hlive hprog hexec =>
    by_cases hj : j = i
    · subst hj
      obtain rfl : t = t' := Option.some.inj (ht.symm.trans htask)
      exact .inr (.inl ⟨c, k, r, σ, choice, rfl, hlive, hprog, hexec, by simp⟩)
    · exact .inl (by rwa [World.put_tasks_of_ne _ _ hj])
  | @drop i t' htask hlive =>
    by_cases hj : j = i
    · subst hj
      obtain rfl : t = t' := Option.some.inj (ht.symm.trans htask)
      exact .inr (.inr ⟨rfl, by simp⟩)
    · exact .inl (by rwa [World.put_tasks_of_ne _ _ hj])
  | env henv => exact .inl ht

/-! ### Runs -/

variable (M)

/-- `M.RunIn ok w ls w'`: the labels `ls` lead from `w` to `w'`, and every step taken is
permitted by `ok`, a condition on the world before the step and its label. -/
def RunIn (ok : World S Shared Call Result → Label Call Choice Env → Prop) :
    World S Shared Call Result → List (Label Call Choice Env) →
      World S Shared Call Result → Prop
  | w, [], w' => w = w'
  | w, l :: ls, w' => ok w l ∧ ∃ u, M.step w l = some u ∧ RunIn ok u ls w'

/-- Unrestricted runs. -/
def Run : World S Shared Call Result → List (Label Call Choice Env) →
    World S Shared Call Result → Prop :=
  M.RunIn fun _ _ => True

/-- Execute a list of labels, checking each step before it is taken. -/
def execIn? (check : World S Shared Call Result → Label Call Choice Env → Bool) :
    World S Shared Call Result → List (Label Call Choice Env) → Option (World S Shared Call Result)
  | w, [] => some w
  | w, l :: ls => if check w l then (M.step w l).bind fun u => execIn? check u ls else none

variable {M} {ok : World S Shared Call Result → Label Call Choice Env → Prop}

theorem RunIn.append {u v w : World S Shared Call Result} {ls ls' : List (Label Call Choice Env)}
    (h : M.RunIn ok u ls v) (h' : M.RunIn ok v ls' w) : M.RunIn ok u (ls ++ ls') w := by
  induction ls generalizing u with
  | nil => exact h ▸ h'
  | cons l ls ih =>
    obtain ⟨hok, x, hx, hr⟩ := h
    exact ⟨hok, x, hx, ih hr⟩

theorem RunIn.unique {ok' : World S Shared Call Result → Label Call Choice Env → Prop}
    {u w w' : World S Shared Call Result} {ls : List (Label Call Choice Env)}
    (h : M.RunIn ok u ls w) (h' : M.RunIn ok' u ls w') : w = w' := by
  induction ls generalizing u with
  | nil => exact h.symm.trans h'
  | cons l ls ih =>
    obtain ⟨-, x, hx, hr⟩ := h
    obtain ⟨-, y, hy, hr'⟩ := h'
    obtain rfl : x = y := Option.some.inj (hx.symm.trans hy)
    exact ih hr hr'

theorem RunIn.of_append {u w : World S Shared Call Result} {ls ls' : List (Label Call Choice Env)}
    (h : M.RunIn ok u (ls ++ ls') w) : ∃ v, M.RunIn ok u ls v ∧ M.RunIn ok v ls' w := by
  induction ls generalizing u with
  | nil => exact ⟨u, rfl, h⟩
  | cons l ls ih =>
    obtain ⟨hok, x, hx, hr⟩ := h
    obtain ⟨v, hv, hw⟩ := ih hr
    exact ⟨v, ⟨hok, x, hx, hv⟩, hw⟩

theorem RunIn.single {u v : World S Shared Call Result} {l : Label Call Choice Env}
    (hok : ok u l) (h : M.step u l = some v) : M.RunIn ok u [l] v :=
  ⟨hok, v, h, rfl⟩

theorem RunIn.mono {ok' : World S Shared Call Result → Label Call Choice Env → Prop}
    (himp : ∀ w l, ok w l → ok' w l) {u w : World S Shared Call Result}
    {ls : List (Label Call Choice Env)} (h : M.RunIn ok u ls w) : M.RunIn ok' u ls w := by
  induction ls generalizing u with
  | nil => exact h
  | cons l ls ih =>
    obtain ⟨hok, x, hx, hr⟩ := h
    exact ⟨himp u l hok, x, hx, ih hr⟩

theorem RunIn.run {u w : World S Shared Call Result} {ls : List (Label Call Choice Env)}
    (h : M.RunIn ok u ls w) : M.Run u ls w :=
  h.mono fun _ _ _ => trivial

/-- A list of labels that executes under a sound check is a run. -/
theorem runIn_of_execIn? {check : World S Shared Call Result → Label Call Choice Env → Bool}
    (hcheck : ∀ w l, check w l = true → ok w l) {u w : World S Shared Call Result}
    {ls : List (Label Call Choice Env)} (h : M.execIn? check u ls = some w) :
    M.RunIn ok u ls w := by
  induction ls generalizing u with
  | nil => exact Option.some.inj h
  | cons l ls ih =>
    rw [execIn?] at h
    split_ifs at h with hl
    obtain ⟨x, hx, hr⟩ := Option.bind_eq_some_iff.mp h
    exact ⟨hcheck u l hl, x, hx, ih hr⟩

/-- A list of labels that executes to a world with a property is a run to such a world. -/
theorem exists_runIn {check : World S Shared Call Result → Label Call Choice Env → Bool}
    (hcheck : ∀ w l, check w l = true → ok w l) {P : World S Shared Call Result → Prop}
    [DecidablePred P] {u : World S Shared Call Result} {ls : List (Label Call Choice Env)}
    (h : (M.execIn? check u ls).any (fun w => P w) = true) : ∃ w, M.RunIn ok u ls w ∧ P w := by
  obtain ⟨w, hw, hP⟩ := (Option.any_eq_true _ _).mp h
  exact ⟨w, runIn_of_execIn? hcheck hw, of_decide_eq_true hP⟩

theorem exists_run {P : World S Shared Call Result → Prop} [DecidablePred P]
    {u : World S Shared Call Result} {ls : List (Label Call Choice Env)}
    (h : (M.execIn? (fun _ _ => true) u ls).any (fun w => P w) = true) :
    ∃ w, M.Run u ls w ∧ P w :=
  exists_runIn (fun _ _ _ => trivial) h

variable (M) in
/-- A recorded execution: labels that can be executed from `u`, every step of which passes
`check`, and which lead to a world with property `P`. -/
structure Recording (check : World S Shared Call Result → Label Call Choice Env → Bool)
    (u : World S Shared Call Result) (P : World S Shared Call Result → Prop) [DecidablePred P] where
  labels : List (Label Call Choice Env)
  executes : (M.execIn? check u labels).any (fun w => P w) = true

/-- What is recorded is a run. -/
theorem Recording.exists_runIn {check : World S Shared Call Result → Label Call Choice Env → Bool}
    {u : World S Shared Call Result} {P : World S Shared Call Result → Prop} [DecidablePred P]
    (r : M.Recording check u P) (hcheck : ∀ w l, check w l = true → ok w l) :
    ∃ w, M.RunIn ok u r.labels w ∧ P w :=
  Machine.exists_runIn hcheck r.executes

theorem Recording.exists_run {u : World S Shared Call Result}
    {P : World S Shared Call Result → Prop} [DecidablePred P]
    (r : M.Recording (fun _ _ => true) u P) : ∃ w, M.Run u r.labels w ∧ P w :=
  r.exists_runIn fun _ _ _ => trivial

/-- **The invariant rule.** What holds at the start and is kept by every permitted step holds
at the end of every run. -/
theorem RunIn.invariant {I : World S Shared Call Result → Prop}
    (hstep : ∀ u l v, I u → ok u l → M.Stepped u l v → I v)
    {u w : World S Shared Call Result} {ls : List (Label Call Choice Env)}
    (h : M.RunIn ok u ls w) (h0 : I u) : I w := by
  induction ls generalizing u with
  | nil => exact h ▸ h0
  | cons l ls ih =>
    obtain ⟨hok, x, hx, hr⟩ := h
    exact ih hr (hstep u l x h0 hok (step_eq_some_iff.mp hx))

/-- The invariant rule with the past in view: what holds of the empty run and is kept when a
permitted step is added at the end holds of every run. -/
theorem RunIn.snoc_induction {u : World S Shared Call Result}
    {motive : List (Label Call Choice Env) → World S Shared Call Result → Prop}
    (nil : motive [] u)
    (snoc : ∀ ls w l v, M.RunIn ok u ls w → motive ls w → ok w l → M.Stepped w l v →
      motive (ls ++ [l]) v)
    {w : World S Shared Call Result} {ls : List (Label Call Choice Env)}
    (h : M.RunIn ok u ls w) : motive ls w := by
  induction ls using List.reverseRecOn generalizing w with
  | nil =>
    obtain rfl : u = w := h
    exact nil
  | append_singleton ls l ih =>
    obtain ⟨v, hv, hok, x, hx, hxw⟩ := h.of_append
    obtain rfl : x = w := hxw
    exact snoc ls v l x hv (ih hv) hok (step_eq_some_iff.mp hx)

variable (M) (ok) in
/-- The run `ls` from `u` to `w` takes a step of the kind `p`. -/
def Takes (p : World S Shared Call Result → Label Call Choice Env → Prop)
    (u : World S Shared Call Result) (ls : List (Label Call Choice Env))
    (w : World S Shared Call Result) : Prop :=
  ∃ ls₁ l ls₂ x y, ls = ls₁ ++ l :: ls₂ ∧ M.RunIn ok u ls₁ x ∧ ok x l ∧ p x l ∧
    M.step x l = some y ∧ M.RunIn ok y ls₂ w

variable {p : World S Shared Call Result → Label Call Choice Env → Prop}

/-- Either a run avoids the steps of a kind, or it takes one. -/
theorem RunIn.avoids_or_takes (p : World S Shared Call Result → Label Call Choice Env → Prop)
    {u w : World S Shared Call Result} {ls : List (Label Call Choice Env)}
    (h : M.RunIn ok u ls w) :
    M.RunIn (fun x l => ok x l ∧ ¬p x l) u ls w ∨ M.Takes ok p u ls w := by
  induction ls generalizing u with
  | nil => exact .inl h
  | cons l ls ih =>
    obtain ⟨hok, x, hx, hr⟩ := h
    by_cases hp : p u l
    · exact .inr ⟨[], l, ls, u, x, rfl, rfl, hok, hp, hx, hr⟩
    · rcases ih hr with hr' | ⟨ls₁, l', ls₂, y, z, rfl, hy, hok', hp', hz, hr'⟩
      · exact .inl ⟨⟨hok, hp⟩, x, hx, hr'⟩
      · exact .inr ⟨l :: ls₁, l', ls₂, y, z, rfl, ⟨hok, x, hx, hy⟩, hok', hp', hz, hr'⟩

/-- A run none of whose steps is of a kind takes no step of it. -/
theorem RunIn.not_takes {ok' : World S Shared Call Result → Label Call Choice Env → Prop}
    {u w : World S Shared Call Result} {ls : List (Label Call Choice Env)}
    (h : M.RunIn ok u ls w) (hok : ∀ x l, ok x l → ¬p x l) : ¬M.Takes ok' p u ls w := by
  rintro ⟨ls₁, l, ls₂, x, y, rfl, hx, -, hp, -⟩
  obtain ⟨x', hx', hl, -⟩ := h.of_append
  obtain rfl : x' = x := hx'.unique hx
  exact hok x' l hl hp

/-- A step of one kind taken is one of another kind, if it is in every world the run passes. -/
theorem Takes.imp {q : World S Shared Call Result → Label Call Choice Env → Prop}
    {u w : World S Shared Call Result} {ls : List (Label Call Choice Env)}
    (h : M.Takes ok p u ls w)
    (himp : ∀ ls x l, M.RunIn ok u ls x → ok x l → p x l → q x l) : M.Takes ok q u ls w := by
  obtain ⟨ls₁, l, ls₂, x, y, hls, hx, hok, hp, hy, hr⟩ := h
  exact ⟨ls₁, l, ls₂, x, y, hls, hx, hok, himp ls₁ x l hx hok hp, hy, hr⟩

/-- A run that ends in a step of a kind takes it. -/
theorem RunIn.takes_last {u w v : World S Shared Call Result}
    {ls : List (Label Call Choice Env)} {l : Label Call Choice Env} (h : M.RunIn ok u ls w)
    (hok : ok w l) (hp : p w l) (hs : M.Stepped w l v) : M.Takes ok p u (ls ++ [l]) v :=
  ⟨ls, l, [], w, v, rfl, h, hok, hp, step_eq_some_iff.mpr hs, rfl⟩

/-- A step taken earlier stays taken. -/
theorem Takes.snoc {u w v : World S Shared Call Result} {ls : List (Label Call Choice Env)}
    {l : Label Call Choice Env} (h : M.Takes ok p u ls w) (hok : ok w l)
    (hs : M.Stepped w l v) : M.Takes ok p u (ls ++ [l]) v := by
  obtain ⟨ls₁, l', ls₂, x, y, rfl, hx, hok', hp, hy, hr⟩ := h
  exact ⟨ls₁, l', ls₂ ++ [l], x, y, by simp, hx, hok', hp, hy,
    hr.append (.single hok (step_eq_some_iff.mpr hs))⟩

/-- A step of a run of one step more was taken before, or is the last. -/
theorem Takes.of_snoc {u w v : World S Shared Call Result} {ls : List (Label Call Choice Env)}
    {l : Label Call Choice Env} (h : M.Takes ok p u (ls ++ [l]) v) (hr : M.RunIn ok u ls w) :
    M.Takes ok p u ls w ∨ p w l := by
  obtain ⟨ls₁, l', ls₂, x, y, heq, hx, hok, hp, hy, hr'⟩ := h
  rcases List.eq_nil_or_concat ls₂ with rfl | ⟨ls₂, l'', rfl⟩
  · obtain ⟨rfl, hl⟩ := List.append_inj' heq rfl
    obtain rfl : l = l' := List.singleton_inj.mp hl
    exact .inr (hr.unique hx ▸ hp)
  · rw [List.concat_eq_append, ← List.cons_append, ← List.append_assoc] at heq
    obtain ⟨rfl, -⟩ := List.append_inj' heq rfl
    obtain ⟨x', hx', -, y', hy', hw⟩ := hr.of_append
    obtain rfl : x' = x := hx'.unique hx
    obtain rfl : y' = y := Option.some.inj (hy'.symm.trans hy)
    exact .inl ⟨ls₁, l', ls₂, x', y', rfl, hx, hok, hp, hy, hw⟩

/-- A task that no label of a run spawns is not there at its end. -/
theorem RunIn.tasks_eq_none {u w : World S Shared Call Result} {ls : List (Label Call Choice Env)}
    (h : M.RunIn ok u ls w) {i : ℕ} (hi : u.tasks i = none)
    (hspawn : ∀ call, .spawn i call ∉ ls) : w.tasks i = none := by
  induction ls generalizing u with
  | nil =>
    obtain rfl : u = w := h
    exact hi
  | cons l ls ih =>
    obtain ⟨-, x, hx, hr⟩ := h
    refine ih hr ?_ fun call hmem => hspawn call (List.mem_cons_of_mem l hmem)
    rcases hxi : x.tasks i with _ | t
    · rfl
    rcases (step_eq_some_iff.mp hx).task_cases hxi with ⟨ht, -⟩ | ⟨call, rfl, -⟩ |
      ⟨t', _, _, _, _, _, -, ht, -⟩ | ⟨t', -, ht, -⟩
    · rw [hi] at ht
      cases ht
    · exact absurd List.mem_cons_self (hspawn call)
    · rw [hi] at ht
      cases ht
    · rw [hi] at ht
      cases ht

/-! ### Transcripts determine residual programs -/

/-- Every task of the world is the residual of its call's program along its transcript. -/
def Transcribed (M : Machine S Shared Call Result Choice Env)
    (w : World S Shared Call Result) : Prop :=
  ∀ i t, w.tasks i = some t → (M.main t.call).Resumes t.transcript t.prog

theorem Transcribed.step {u v : World S Shared Call Result} {l : Label Call Choice Env}
    (h : Transcribed M u) (hs : M.Stepped u l v) : Transcribed M v := by
  intro i t ht
  cases hs with
  | spawn hfree =>
    obtain ⟨-, rfl⟩ | ⟨-, ht⟩ := World.put_tasks_eq_some ht
    · rfl
    · exact h i t ht
  | act htask hlive hprog hexec =>
    obtain ⟨-, rfl⟩ | ⟨-, ht⟩ := World.put_tasks_eq_some ht
    · exact (hprog ▸ h _ _ htask).snoc _
    · exact h i t ht
  | drop htask hlive =>
    obtain ⟨-, rfl⟩ | ⟨-, ht⟩ := World.put_tasks_eq_some ht
    · have hres := h _ _ htask
      exact hres
    · exact h i t ht
  | env henv => exact h i t ht

theorem RunIn.transcribed {u w : World S Shared Call Result} {ls : List (Label Call Choice Env)}
    (h : M.RunIn ok u ls w) (h0 : ∀ i, u.tasks i = none) : Transcribed M w :=
  h.invariant (fun _ _ _ hI _ hs => hI.step hs) fun i t ht => by simp [h0 i] at ht

/-- **Conformance of every task.** If the program of every call follows its protocol, then in
every reachable world every task follows it from the ghost state of its transcript. -/
theorem RunIn.follows {G : Type} {P : Call → Protocol S G} {post : Call → G → Result → Prop}
    {g : Call → G} (hmain : ∀ c, (M.main c).Follows (P c) (post c) (g c))
    {u w : World S Shared Call Result} {ls : List (Label Call Choice Env)}
    (h : M.RunIn ok u ls w) (h0 : ∀ i, u.tasks i = none) {i : ℕ} {t : Task S Call Result}
    (ht : w.tasks i = some t) :
    t.prog.Follows (P t.call) (post t.call) ((P t.call).after (g t.call) t.transcript) :=
  (hmain t.call).resume (h.transcribed h0 i t ht)

end Machine

end Interaction
