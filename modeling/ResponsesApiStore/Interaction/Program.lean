import Mathlib.Logic.Function.Basic
import Mathlib.Tactic.Common

/-!
# Programs over a command signature

A `Program S α` is the tree of what an asynchronous procedure does: issue a command of the
signature `S`, wait for its reply, continue with a program that depends on the reply, and
finally return. Every suspension point of the procedure is a `cmd` node, so a scheduler can
stop it, interleave it or drop it exactly there.

The program logic is a typestate discipline. A `Protocol` runs a *ghost state* along the
command/reply exchanges of one program and says which commands are permitted in which ghost
state; `Program.Follows` says that a program only issues permitted commands, whatever it is
answered, and that its result satisfies a postcondition in the ghost state reached. The
rules (`follows_bind_iff`, `follows_except_bind_iff`, `Follows.mono`) peel a program apart
along its own structure, and `Follows.resume` carries the property along any exchange, which
is what the concurrent layer (`Interaction/Machine.lean`) consumes.
-/

namespace Interaction

/-- A command signature: the commands and, for each, the type of its reply. -/
structure Signature where
  Cmd : Type
  Reply : Cmd → Type

/-- One exchange: a command together with the reply it got. -/
abbrev Signature.Exchange (S : Signature) : Type := (c : S.Cmd) × S.Reply c

/-- Programs over the signature `S` with results in `α`. -/
inductive Program (S : Signature) (α : Type) : Type
  | ret (a : α)
  | cmd (c : S.Cmd) (k : S.Reply c → Program S α)

namespace Program

variable {S : Signature} {α β γ ε : Type}

/-- Sequential composition: graft the continuation onto every leaf. -/
protected def bind : Program S α → (α → Program S β) → Program S β
  | ret a, f => f a
  | cmd c k, f => cmd c fun r => (k r).bind f

instance : Monad (Program S) where
  pure := ret
  bind := Program.bind

/-- The program that issues one command and returns its reply. -/
def call (c : S.Cmd) : Program S (S.Reply c) := cmd c ret

/-- The result of a program that has returned. -/
def result? : Program S α → Option α
  | ret a => some a
  | cmd _ _ => none

/-- The command a program is waiting on. -/
def command? : Program S α → Option S.Cmd
  | ret _ => none
  | cmd c _ => some c

theorem result?_eq_some {p : Program S α} {a : α} : p.result? = some a ↔ p = ret a := by
  cases p <;> simp [result?]

theorem command?_eq_some {p : Program S α} {c : S.Cmd} :
    p.command? = some c ↔ ∃ k, p = cmd c k := by
  cases p with
  | ret a => simp [command?]
  | cmd c' k =>
    constructor
    · intro h
      obtain rfl := Option.some.inj h
      exact ⟨k, rfl⟩
    · rintro ⟨k', h⟩
      cases h
      rfl

@[simp]
theorem ret_bind (a : α) (f : α → Program S β) : ret a >>= f = f a := rfl

@[simp]
theorem cmd_bind (c : S.Cmd) (k : S.Reply c → Program S α) (f : α → Program S β) :
    cmd c k >>= f = cmd c fun r => k r >>= f := rfl

theorem bind_ret_comp (p : Program S α) : p >>= ret = p := by
  induction p with
  | ret a => rfl
  | cmd c k ih => simp only [cmd_bind, ih]

theorem bind_bind (p : Program S α) (f : α → Program S β) (g : β → Program S γ) :
    (p >>= f) >>= g = p >>= fun a => f a >>= g := by
  induction p with
  | ret a => rfl
  | cmd c k ih => simp only [cmd_bind, ih]

instance : LawfulMonad (Program S) :=
  LawfulMonad.mk' _ bind_ret_comp (fun _ _ => rfl) bind_bind

/-! ### Resuming a program along an exchange -/

/-- `p.Resumes es q`: answering the commands of `p` as recorded in `es` leaves `q`. -/
def Resumes (p : Program S α) : List S.Exchange → Program S α → Prop
  | [], q => p = q
  | e :: es, q => ∃ k, p = cmd e.1 k ∧ (k e.2).Resumes es q

theorem Resumes.snoc {p : Program S α} {es : List S.Exchange} {c : S.Cmd}
    {k : S.Reply c → Program S α} (h : p.Resumes es (cmd c k)) (r : S.Reply c) :
    p.Resumes (es ++ [⟨c, r⟩]) (k r) := by
  induction es generalizing p with
  | nil => exact ⟨k, h, rfl⟩
  | cons e es ih =>
    obtain ⟨k', hp, hk'⟩ := h
    exact ⟨k', hp, ih hk'⟩

end Program

/-! ### Protocols and conformance -/

/-- A typestate discipline on one program: the commands permitted in each ghost state, and
the ghost state after each exchange. -/
structure Protocol (S : Signature) (G : Type) where
  allowed : G → S.Cmd → Prop
  next : G → (c : S.Cmd) → S.Reply c → G

namespace Protocol

variable {S : Signature} {G : Type}

/-- The ghost state reached from `g` along recorded exchanges. -/
def after (P : Protocol S G) (g : G) (es : List S.Exchange) : G :=
  es.foldl (fun g e => P.next g e.1 e.2) g

@[simp]
theorem after_nil (P : Protocol S G) (g : G) : P.after g [] = g := rfl

@[simp]
theorem after_cons (P : Protocol S G) (g : G) (e : S.Exchange) (es : List S.Exchange) :
    P.after g (e :: es) = P.after (P.next g e.1 e.2) es := rfl

@[simp]
theorem after_snoc (P : Protocol S G) (g : G) (es : List S.Exchange) (e : S.Exchange) :
    P.after g (es ++ [e]) = P.next (P.after g es) e.1 e.2 := by
  simp [after]

/-- The protocol whose ghost state is the transcript itself. -/
def ofTranscript (allowed : List S.Exchange → S.Cmd → Prop) : Protocol S (List S.Exchange) where
  allowed := allowed
  next es c r := es ++ [⟨c, r⟩]

/-- The protocol without ghost state that permits the commands `A`. -/
def only (A : S.Cmd → Prop) : Protocol S Unit where
  allowed _ := A
  next _ _ _ := ()

@[simp]
theorem after_ofTranscript (allowed : List S.Exchange → S.Cmd → Prop)
    (es es' : List S.Exchange) : (ofTranscript allowed).after es es' = es ++ es' := by
  induction es' generalizing es with
  | nil => simp
  | cons e es' ih => rw [after_cons, ih, ofTranscript, List.append_assoc, List.singleton_append]

end Protocol

namespace Program

variable {S : Signature} {G α β ε : Type} {P : Protocol S G}

/-- **Conformance.** Started in ghost state `g`, the program only issues permitted commands,
and its result satisfies `post` in the ghost state it ends in. -/
def Follows (P : Protocol S G) (post : G → α → Prop) : Program S α → G → Prop
  | ret a, g => post g a
  | cmd c k, g => P.allowed g c ∧ ∀ r, (k r).Follows P post (P.next g c r)

@[simp]
theorem follows_ret {post : G → α → Prop} {a : α} {g : G} :
    (ret a : Program S α).Follows P post g ↔ post g a := Iff.rfl

@[simp]
theorem follows_pure {post : G → α → Prop} {a : α} {g : G} :
    (pure a : Program S α).Follows P post g ↔ post g a := Iff.rfl

theorem follows_cmd {post : G → α → Prop} {c : S.Cmd} {k : S.Reply c → Program S α} {g : G} :
    (cmd c k).Follows P post g ↔
      P.allowed g c ∧ ∀ r, (k r).Follows P post (P.next g c r) := Iff.rfl

@[simp]
theorem follows_call {c : S.Cmd} {post : G → S.Reply c → Prop} {g : G} :
    (call c).Follows P post g ↔ P.allowed g c ∧ ∀ r, post (P.next g c r) r := Iff.rfl

/-- The sequencing rule: a composite conforms exactly when its first part conforms with the
rest as postcondition. -/
theorem follows_bind_iff {p : Program S α} {f : α → Program S β} {post : G → β → Prop} {g : G} :
    (p >>= f).Follows P post g ↔ p.Follows P (fun g a => (f a).Follows P post g) g := by
  induction p generalizing g with
  | ret a => rfl
  | cmd c k ih => simp only [cmd_bind, follows_cmd, ih]

/-- The consequence rule. -/
theorem Follows.mono {p : Program S α} {post post' : G → α → Prop} {g : G}
    (h : p.Follows P post g) (hpost : ∀ g a, post g a → post' g a) : p.Follows P post' g := by
  induction p generalizing g with
  | ret a => exact hpost g a h
  | cmd c k ih => exact ⟨h.1, fun r => ih r (h.2 r)⟩

/-- The sequencing rule for fallible programs: the continuation runs on a success, and an
error is the result of the whole. -/
theorem follows_except_bind_iff {p : ExceptT ε (Program S) α} {f : α → ExceptT ε (Program S) β}
    {post : G → Except ε β → Prop} {g : G} :
    (p >>= f).run.Follows P post g ↔
      p.run.Follows P (fun g a => match a with
        | .ok a => (f a).run.Follows P post g
        | .error e => post g (.error e)) g := by
  rw [ExceptT.run_bind, follows_bind_iff]
  constructor <;> intro h <;> refine h.mono ?_ <;> rintro g (e | a) ha <;> exact ha

/-- Conformance is carried along any exchange. -/
theorem Follows.resume {p q : Program S α} {post : G → α → Prop} {g : G}
    {es : List S.Exchange} (h : p.Follows P post g) (hq : p.Resumes es q) :
    q.Follows P post (P.after g es) := by
  induction es generalizing p g with
  | nil => exact hq ▸ h
  | cons e es ih =>
    obtain ⟨k, rfl, hk⟩ := hq
    exact ih (h.2 e.2) hk

/-! ### Conformance from every ghost state -/

variable {G' : Type} {P' : Protocol S G'}

/-- The program only issues permitted commands, whatever the ghost state it is started in. -/
def Safe (P : Protocol S G) (p : Program S α) : Prop := ∀ g, p.Follows P (fun _ _ => True) g

theorem safe_ret (a : α) : Safe P (ret a : Program S α) := fun _ => trivial

theorem safe_call {c : S.Cmd} (hfree : ∀ g, P.allowed g c) : Safe P (call c) := fun g =>
  ⟨hfree g, fun _ => trivial⟩

theorem Safe.bind {p : Program S α} {f : α → Program S β} (hp : Safe P p)
    (hf : ∀ a, Safe P (f a)) : Safe P (p >>= f) := fun g =>
  follows_bind_iff.mpr ((hp g).mono fun g a _ => hf a g)

theorem Safe.except_bind {p : ExceptT ε (Program S) α} {f : α → ExceptT ε (Program S) β}
    (hp : Safe P p.run) (hf : ∀ a, Safe P (f a).run) : Safe P (p >>= f).run := by
  intro g
  refine follows_except_bind_iff.mpr ((hp g).mono fun g r _ => ?_)
  rcases r with e | a
  · trivial
  · exact hf a g

/-- A program that only issues commands that leave the ghost state alone ends in the ghost state
it started in. -/
theorem Safe.inert {A : S.Cmd → Prop} {p : Program S α} (h : Safe (.only A) p) {g : G}
    (hA : ∀ c, A c → P.allowed g c ∧ ∀ r, P.next g c r = g) :
    p.Follows P (fun g' _ => g' = g) g := by
  have hp : p.Follows (.only A) (fun _ _ => True) () := h ()
  clear h
  induction p with
  | ret a => rfl
  | cmd c k ih =>
    obtain ⟨hallowed, hnext⟩ := hA c hp.1
    refine ⟨hallowed, fun r => ?_⟩
    rw [hnext r]
    exact ih r (hp.2 r)

/-- What a program may do under one protocol bounds what it does under another. -/
theorem Follows.safe {p : Program S α} {post : G → α → Prop} {g : G} (h : p.Follows P post g)
    (himp : ∀ g c, P.allowed g c → ∀ g', P'.allowed g' c) : Safe P' p := by
  intro g'
  induction p generalizing g g' with
  | ret a => trivial
  | cmd c k ih => exact ⟨himp g c h.1 g', fun r => ih r (h.2 r) _⟩

end Program

end Interaction
