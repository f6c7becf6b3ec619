import ResponsesApiStore.System.Deployment
import ResponsesApiStore.System.Requests

/-!
# The mutex and the transaction connection

The invariant that makes the transactions of one server safe. The knowledge of a task is a
function of its transcript, so the invariant needs no extra state:

* a live task that is past `lock` holds the mutex of its server, so at most one task at a
  time stands inside a transaction (`Sound.holds`);
* the session on the Redis side is what that task believes it to be (`Matches`): the key it
  read is watched and, unless the session is dirty, still holds what was read; `MULTI` is open
  when it should be; and the queue holds exactly its one write.

A task that is dropped, or whose command fails, leaves a session behind about which nothing
is claimed. The next task starts with `DISCARD`, of which nothing is claimed either: what
counts is that `WATCH` is refused inside `MULTI`, so a task that gets past its `WATCH` is
outside of any transaction left open, with its key watched.
-/

namespace ResponsesApiStore

open Json (Serde)
open Redis (Error Keyspace TxCmd)
open Redis.Keyspace (Undisturbed Guards)
open Interaction (Machine World Label)

variable {N : Type}

/-! ### Knowledge of a task -/

/-- What a task knows, read off its transcript. -/
def knowledge (t : DTask) : Knowledge :=
  t.transcript.foldl (fun g e => g.after e.1 e.2) .init

@[simp]
theorem knowledge_advance (t : DTask) (c : Cmd) (k : c.Reply → Interaction.Program sig RpcResult)
    (r : c.Reply) : knowledge (t.advance (S := sig) c k r) = (knowledge t).after c r := by
  simp [knowledge]

/-! ### What commands do to keys, sessions and mutexes -/

/-- A command that touches neither keys nor sessions nor mutexes. -/
def Plain : Cmd → Prop
  | .setEx .. | .del _ | .tx _ | .lock | .unlock | .install => False
  | _ => True

/-- The state after a transaction command, whatever its fate. -/
def Shared.afterTx (σ : Shared) (n : ℕ) (d : Delivery) (c : TxCmd) : Shared :=
  let ran := σ.runIf d { σ with db := (c.run σ.db n).1 }
  if d.reconnected then ran.renew n else ran

/-- What a command of task `i` of server `n` does to keys, sessions and mutexes. -/
inductive Effect (σ : Shared) (i n : ℕ) (d : Delivery) : Cmd → Shared → Prop
  | plain {c : Cmd} {σ' : Shared} (hplain : Plain c) (hdb : σ'.db = σ.db)
      (hholder : σ'.holder = σ.holder) : Effect σ i n d c σ'
  | setEx {key text : String} {ttl : UInt64} :
      Effect σ i n d (.setEx key ttl text)
        (σ.runIf d { σ with db := (σ.db.setEx key ttl text).1 })
  | del {key : String} :
      Effect σ i n d (.del key) (σ.runIf d { σ with db := σ.db.del key })
  | tx {c : TxCmd} : Effect σ i n d (.tx c) (σ.afterTx n d c)
  | lock (hfree : σ.holder n = none) : Effect σ i n d .lock (σ.setHolder n (some i))
  | unlock : Effect σ i n d .unlock (σ.setHolder n none)
  | install : Effect σ i n d .install (σ.renew n)

variable {σ σ' : Shared} {i n : ℕ} {choice : Choice} {d : Delivery}

theorem exec_effect {c : Cmd} {r : c.Reply} (h : σ.exec i n choice c = some (σ', r)) :
    Effect σ i n choice.delivery c σ' := by
  cases c with
  | lock =>
    simp only [Shared.exec] at h
    split at h
    · obtain ⟨rfl, -⟩ := Prod.mk.inj (Option.some.inj h)
      exact .lock ‹_›
    · cases h
  | capabilities =>
    simp only [Shared.exec] at h
    repeat' split at h
    all_goals
      obtain ⟨rfl, -⟩ := Prod.mk.inj (Option.some.inj h)
      exact .plain trivial rfl rfl
  | cursorScript key cursor =>
    simp only [Shared.exec, Shared.runIf] at h
    split at h
    · obtain ⟨rfl, -⟩ := Prod.mk.inj (Option.some.inj h)
      split_ifs <;> exact .plain trivial rfl rfl
    · obtain ⟨rfl, -⟩ := Prod.mk.inj (Option.some.inj h)
      exact .plain trivial rfl rfl
  | stream c =>
    simp only [Shared.exec] at h
    split at h
    · obtain ⟨rfl, -⟩ := Prod.mk.inj (Option.some.inj h)
      exact .plain trivial rfl rfl
    · obtain ⟨x, -, hx⟩ := Option.map_eq_some_iff.mp h
      obtain ⟨rfl, -⟩ := Prod.mk.inj hx
      exact .plain trivial rfl rfl
  | setEx key ttl text =>
    obtain ⟨rfl, -⟩ := Prod.mk.inj (Option.some.inj h)
    exact .setEx
  | del key =>
    obtain ⟨rfl, -⟩ := Prod.mk.inj (Option.some.inj h)
    exact .del
  | tx c =>
    obtain ⟨rfl, -⟩ := Prod.mk.inj (Option.some.inj h)
    exact .tx
  | unlock =>
    obtain ⟨rfl, -⟩ := Prod.mk.inj (Option.some.inj h)
    exact .unlock
  | install =>
    obtain ⟨rfl, -⟩ := Prod.mk.inj (Option.some.inj h)
    exact .install
  | _ =>
    obtain ⟨rfl, -⟩ := Prod.mk.inj (Option.some.inj h)
    exact .plain trivial rfl rfl

/-- Only the transaction commands of a server and the installation of a new connection
disturb its session. -/
theorem Effect.undisturbed {c : Cmd} (h : Effect σ i n d c σ') {m : ℕ}
    (hm : m ≠ n ∨ ((∀ tx, c ≠ .tx tx) ∧ c ≠ .install)) : Undisturbed m σ.db σ'.db := by
  have hrunIf : ∀ {ran : Shared}, Undisturbed m σ.db ran.db →
      Undisturbed m σ.db (σ.runIf d ran).db := by
    intro ran hran
    rw [Shared.runIf]
    split_ifs
    · exact hran
    · exact .refl m σ.db
  cases h with
  | plain hplain hdb hholder => exact hdb ▸ .refl m σ.db
  | setEx => exact hrunIf (.setEx m σ.db _ _ _)
  | del => exact hrunIf (.del m σ.db _)
  | @tx c =>
    have hne : m ≠ n := hm.resolve_right fun h => h.1 c rfl
    have hran : Undisturbed m σ.db (σ.runIf d { σ with db := (c.run σ.db n).1 }).db :=
      hrunIf (.run hne σ.db c)
    rw [Shared.afterTx]
    split_ifs
    · exact hran.trans (.setSession hne _ .fresh)
    · exact hran
  | lock hfree => exact .refl m σ.db
  | unlock => exact .refl m σ.db
  | install =>
    have hne : m ≠ n := hm.resolve_right fun h => h.2 rfl
    exact .setSession hne σ.db .fresh

/-- Only `lock` and `unlock` change who holds a mutex. -/
theorem Effect.holder {c : Cmd} (h : Effect σ i n d c σ') (hlock : c ≠ .lock)
    (hunlock : c ≠ .unlock) : σ'.holder = σ.holder := by
  have hrunIf : ∀ {ran : Shared}, ran.holder = σ.holder →
      (σ.runIf d ran).holder = σ.holder := by
    intro ran hran
    rw [Shared.runIf]
    split_ifs
    · exact hran
    · rfl
  cases h with
  | plain hplain hdb hholder => exact hholder
  | setEx => exact hrunIf rfl
  | del => exact hrunIf rfl
  | tx =>
    rw [Shared.afterTx]
    split_ifs <;> exact hrunIf rfl
  | lock hfree => exact absurd rfl hlock
  | unlock => exact absurd rfl hunlock
  | install => rfl

/-- A transaction command is answered by the server, or its caller is told an error. -/
theorem exec_tx {c : TxCmd} {r : c.Reply} (h : σ.exec i n choice (.tx c) = some (σ', r)) :
    (choice.delivery = .replied ∧ σ' = { σ with db := (c.run σ.db n).1 } ∧
      r = (c.run σ.db n).2) ∨ (choice.delivery ≠ .replied ∧ ∃ err, r = c.fail err) := by
  obtain ⟨hσ, hr⟩ := Prod.mk.inj (Option.some.inj h)
  rcases hd : choice.delivery with _ | ⟨err, ran, reconnected⟩
  · simp only [hd, Delivery.reconnected, Shared.runIf, Delivery.ran, Delivery.reply,
      Bool.false_eq_true, if_true, if_false] at hσ hr
    exact .inl ⟨rfl, hσ.symm, hr.symm⟩
  · simp only [hd, Delivery.reply] at hr
    exact .inr ⟨Delivery.noConfusion, err, hr.symm⟩

/-! ### What a task believes about its session -/

section Matches

variable (cfg : StoreConfig) (S : Serde N)

/-- The session of server `n` is what a request with the knowledge `g` believes it to be. -/
def Matches (request : Request) (n : ℕ) (g : Knowledge) (db : Keyspace) : Prop :=
  match g.phase with
  | .idle | .held => True
  | .watching key => (db.sessions n).inMulti = false ∧ key ∈ (db.sessions n).watched
  | .guarding => (db.sessions n).inMulti = false ∧
      ∃ key text, g.seen = some (key, text) ∧ db.Guards n key text
  | .opened => (db.sessions n).inMulti = true ∧ (db.sessions n).queue = [] ∧
      ∃ key text, g.seen = some (key, text) ∧ db.Guards n key text
  | .queued ttl payload => (db.sessions n).inMulti = true ∧
      ∃ key v, g.seen = some (key, some v) ∧
        (db.sessions n).queue = [.setEx key ttl payload] ∧ db.Guards n key (some v) ∧
        Transition cfg S request g.now key v payload

variable {cfg S} {request : Request} {g : Knowledge} {db db' : Keyspace}

theorem matches_of_held (h : g.phase = .held) : Matches cfg S request n g db := by
  rw [Matches, h]
  trivial

theorem matches_of_idle (h : g.phase = .idle) : Matches cfg S request n g db := by
  rw [Matches, h]
  trivial

theorem Matches.undisturbed (h : Matches cfg S request n g db) (hu : Undisturbed n db db') :
    Matches cfg S request n g db' := by
  rw [Matches] at h ⊢
  split
  · trivial
  · trivial
  · rename_i hphase
    simp only [hphase] at h
    exact ⟨hu.inMulti ▸ h.1, hu.watched ▸ h.2⟩
  · rename_i hphase
    simp only [hphase] at h
    obtain ⟨hmulti, key, text, hseen, hguards⟩ := h
    exact ⟨hu.inMulti ▸ hmulti, key, text, hseen, hu.guards hguards⟩
  · rename_i hphase
    simp only [hphase] at h
    obtain ⟨hmulti, hqueue, key, text, hseen, hguards⟩ := h
    exact ⟨hu.inMulti ▸ hmulti, hu.queue ▸ hqueue, key, text, hseen, hu.guards hguards⟩
  · rename_i hphase
    simp only [hphase] at h
    obtain ⟨hmulti, key, v, hseen, hqueue, hguards, htransition⟩ := h
    exact ⟨hu.inMulti ▸ hmulti, key, v, hseen, hu.queue ▸ hqueue, hu.guards hguards, htransition⟩

/-- A transaction command that failed leaves its caller with nothing but the mutex. -/
theorem afterTx_fail (g : Knowledge) (c : TxCmd) (err : Error) :
    (g.afterTx c (c.fail err)).phase = .held := by
  cases c <;> rfl

/-- **The session follows the program.** A transaction command that is allowed and answered
keeps the session what its caller believes it to be. -/
theorem Matches.run (h : Matches cfg S request n g db) {c : TxCmd}
    (hallowed : AllowedTx cfg S request g c) :
    Matches cfg S request n (g.afterTx c (c.run db n).2) (c.run db n).1 := by
  cases c with
  | discard => exact matches_of_held rfl
  | unwatch => exact matches_of_held rfl
  | watch key =>
    rw [TxCmd.run]
    split_ifs with hmulti
    · exact matches_of_held rfl
    · exact ⟨by simpa using hmulti, by simp⟩
  | get key =>
    have hphase : g.phase = .watching key := hallowed
    rw [Matches, hphase] at h
    rw [TxCmd.run, if_neg (by simp [h.1])]
    exact ⟨h.1, key, db.textAt key, rfl, h.2, fun _ => rfl⟩
  | ttl key =>
    have hphase : g.phase = .guarding := hallowed
    rw [Matches, hphase] at h
    rw [TxCmd.run, if_neg (by simp [h.1])]
    exact h
  | multi =>
    have hphase : g.phase = .guarding := hallowed
    rw [Matches, hphase] at h
    obtain ⟨hmulti, key, text, hseen, hguards⟩ := h
    rw [TxCmd.run, if_neg (by simp [hmulti])]
    refine ⟨by simp, by simp, key, text, hseen, hguards.setSession hguards.watched rfl⟩
  | setEx key ttl payload =>
    obtain ⟨hphase, v, hseen, htransition⟩ := hallowed
    rw [Matches, hphase] at h
    obtain ⟨hmulti, hqueue, key', text, hseen', hguards⟩ := h
    obtain ⟨rfl, rfl⟩ := Prod.mk.inj (Option.some.inj (hseen'.symm.trans hseen))
    rw [TxCmd.run, if_pos hmulti]
    refine ⟨by simpa [Redis.Session.enqueue] using hmulti, key', v, hseen, ?_,
      hguards.setSession hguards.watched rfl, htransition⟩
    simp [Redis.Session.enqueue, hqueue]
  | exec =>
    refine matches_of_held ?_
    simp only [Knowledge.afterTx]
    split <;> rfl

end Matches

/-! ### The invariant -/

section Sound

variable {cfg : StoreConfig} {S : Serde N} {fuel : ℕ}

/-- **The invariant of the deployment.** Every task keeps its discipline; a live task that is
inside a transaction holds its server's mutex; and the session of that server is what the task
believes it to be. -/
structure Sound (cfg : StoreConfig) (S : Serde N) (w : DWorld) : Prop where
  follows : ∀ i t, w.tasks i = some t →
    t.prog.Follows (discipline cfg S t.call.request) (Done cfg S t.call.request) (knowledge t)
  holds : ∀ i t, w.tasks i = some t → t.live = true → (knowledge t).phase ≠ .idle →
    w.shared.holder t.call.server = some i
  session : ∀ i t, w.tasks i = some t → t.live = true →
    Matches cfg S t.call.request t.call.server (knowledge t) w.shared.db

theorem Initial.sound {w : DWorld} (h : Initial w) : Sound cfg S w := by
  constructor <;>
    · intro i t ht
      rw [h.tasks i] at ht
      cases ht

/-- The next command of a task is allowed by its discipline. -/
theorem Sound.allowed_of_prog {w : DWorld} (h : Sound cfg S w) {i : ℕ} {t : DTask} {c : Cmd}
    {k : c.Reply → Interaction.Program sig RpcResult} (ht : w.tasks i = some t)
    (hprog : t.prog = .cmd c k) : Allowed cfg S t.call.request (knowledge t) c := by
  have hfollows := h.follows i t ht
  rw [hprog] at hfollows
  exact hfollows.1

/-- A task that has returned gives a proper answer. -/
theorem Sound.answer_of_prog {w : DWorld} (h : Sound cfg S w) {i : ℕ} {t : DTask}
    {result : RpcResult} (ht : w.tasks i = some t) (hprog : t.prog = .ret result) :
    Answer cfg S (knowledge t) t.call.request result := by
  have hfollows := h.follows i t ht
  rw [hprog] at hfollows
  exact hfollows.2

/-- Two tasks inside a transaction of one server are the same task. -/
theorem Sound.exclusive {w : DWorld} (h : Sound cfg S w) {i j : ℕ} {t u : DTask}
    (ht : w.tasks i = some t) (hu : w.tasks j = some u) (hlt : t.live = true)
    (hlu : u.live = true) (hpt : (knowledge t).phase ≠ .idle) (hpu : (knowledge u).phase ≠ .idle)
    (hserver : t.call.server = u.call.server) : i = j := by
  have hi := h.holds i t ht hlt hpt
  have hj := h.holds j u hu hlu hpu
  rw [hserver, hj] at hi
  exact (Option.some.inj hi).symm

/-- What an allowed command requires of the phase of its program. -/
theorem phase_of_allowed {request : Request} {g : Knowledge} {c : Cmd}
    (h : Allowed cfg S request g c) :
    (g.phase = .idle ∧ (∀ tx, c ≠ .tx tx) ∧ c ≠ .install ∧ c ≠ .unlock) ∨
      (g.phase ≠ .idle ∧ ((∃ tx, c = .tx tx ∧ AllowedTx cfg S request g tx) ∨ c = .install ∨
        c = .unlock)) := by
  obtain ⟨-, h⟩ := h
  cases c with
  | tx tx =>
    refine .inr ⟨?_, .inl ⟨tx, rfl, h⟩⟩
    cases tx with
    | get key => simp [show g.phase = .watching key from h]
    | discard | watch key => simp [show g.phase = .held from h]
    | ttl key | multi => simp [show g.phase = .guarding from h]
    | unwatch => exact h
    | setEx key ttl payload => simp [show g.phase = .opened from h.1]
    | exec =>
      obtain ⟨ttl, payload, h⟩ := h
      simp [h]
  | install => exact .inr ⟨by simp [show g.phase = .held from h], .inr (.inl rfl)⟩
  | unlock => exact .inr ⟨h, .inr (.inr rfl)⟩
  | setEx key ttl payload | del key | stream c =>
    exact .inl ⟨h.1, by simp, Cmd.noConfusion, Cmd.noConfusion⟩
  | _ => exact .inl ⟨h, by simp, Cmd.noConfusion, Cmd.noConfusion⟩

/-- Outside a transaction a command other than `lock` stays outside. -/
theorem phase_after_of_idle {g : Knowledge} {c : Cmd} (hidle : g.phase = .idle)
    (htx : ∀ tx, c ≠ .tx tx) (hinstall : c ≠ .install) (r : c.Reply) :
    (g.after c r).phase = .idle ∨ (c = .lock ∧ (g.after c r).phase = .held) := by
  cases c with
  | tx tx => exact absurd rfl (htx tx)
  | install => exact absurd rfl hinstall
  | lock => exact .inr ⟨rfl, rfl⟩
  | setEx key ttl payload | del key =>
    left
    rcases r with e | _ <;> exact hidle
  | stream c =>
    left
    cases c with
    | xreadgroup => rcases r with e | (_ | entries) <;> exact hidle
    | xautoclaim => rcases r with e | reply <;> exact hidle
    | _ => exact hidle
  | unlock => exact .inl rfl
  | _ => exact .inl hidle

/-- Knowledge at the next suspension point agrees with the session and the mutex. -/
theorem Sound.act_self {w : DWorld} (h : Sound cfg S w) {i : ℕ} {t : DTask} {c : Cmd}
    {σ : Shared} {r : c.Reply} {choice : Choice} (ht : w.tasks i = some t)
    (hlive : t.live = true) (hallowed : Allowed cfg S t.call.request (knowledge t) c)
    (hexec : w.shared.exec i t.call.server choice c = some (σ, r)) :
    ((((knowledge t).after c r).phase ≠ .idle → σ.holder t.call.server = some i)) ∧
      Matches cfg S t.call.request t.call.server ((knowledge t).after c r) σ.db := by
  have heffect := exec_effect hexec
  rcases phase_of_allowed hallowed with ⟨hidle, htx, hinstall, hunlock⟩ | ⟨hphase, hc⟩
  · rcases phase_after_of_idle hidle htx hinstall r with hafter | ⟨rfl, hafter⟩
    · exact ⟨fun hne => absurd hafter hne, matches_of_idle hafter⟩
    · refine ⟨fun _ => ?_, matches_of_held hafter⟩
      cases heffect with
      | plain hplain => exact hplain.elim
      | lock hfree => simp
  · have hholder := h.holds i t ht hlive hphase
    rcases hc with ⟨tx, rfl, htx⟩ | rfl | rfl
    · refine ⟨fun _ => ?_, ?_⟩
      · rw [heffect.holder Cmd.noConfusion Cmd.noConfusion]
        exact hholder
      · rcases exec_tx hexec with ⟨-, rfl, rfl⟩ | ⟨-, err, rfl⟩
        · exact (h.session i t ht hlive).run htx
        · exact matches_of_held (afterTx_fail _ tx err)
    · refine ⟨fun _ => ?_, matches_of_held rfl⟩
      rw [heffect.holder Cmd.noConfusion Cmd.noConfusion]
      exact hholder
    · exact ⟨fun hne => absurd rfl hne, matches_of_idle rfl⟩

/-- A command leaves the session of another task alone that is inside a transaction. -/
theorem Sound.act_undisturbed {w : DWorld} (h : Sound cfg S w) {i j : ℕ} {t u : DTask} {c : Cmd}
    {σ : Shared} {d : Delivery} (ht : w.tasks i = some t) (hlive : t.live = true)
    (hallowed : Allowed cfg S t.call.request (knowledge t) c)
    (heffect : Effect w.shared i t.call.server d c σ) (hu : w.tasks j = some u)
    (hlu : u.live = true) (hne : j ≠ i) (hpu : (knowledge u).phase ≠ .idle) :
    Undisturbed u.call.server w.shared.db σ.db := by
  rcases phase_of_allowed hallowed with ⟨-, htx, hinstall, -⟩ | ⟨hphase, -⟩
  · exact heffect.undisturbed (.inr ⟨htx, hinstall⟩)
  · -- two tasks inside a transaction belong to different servers
    exact heffect.undisturbed (.inl fun heq =>
      hne (h.exclusive hu ht hlu hlive hpu hphase heq))

/-- Another task is left alone by a command. -/
theorem Sound.act_other {w : DWorld} (h : Sound cfg S w) {i j : ℕ} {t u : DTask} {c : Cmd}
    {σ : Shared} {r : c.Reply} {choice : Choice} (ht : w.tasks i = some t)
    (hlive : t.live = true) (hallowed : Allowed cfg S t.call.request (knowledge t) c)
    (hexec : w.shared.exec i t.call.server choice c = some (σ, r)) (hu : w.tasks j = some u)
    (hlu : u.live = true) (hne : j ≠ i) :
    ((knowledge u).phase ≠ .idle → σ.holder u.call.server = some j) ∧
      Matches cfg S u.call.request u.call.server (knowledge u) σ.db := by
  have heffect := exec_effect hexec
  have hmatch := h.session j u hu hlu
  by_cases hpu : (knowledge u).phase = .idle
  · exact ⟨fun hne => absurd hpu hne, matches_of_idle hpu⟩
  have hholder := h.holds j u hu hlu hpu
  refine ⟨fun _ => ?_,
    hmatch.undisturbed (h.act_undisturbed ht hlive hallowed heffect hu hlu hne hpu)⟩
  rcases phase_of_allowed hallowed with ⟨hidle, htx, hinstall, hunlock⟩ | ⟨hphase, hc⟩
  · by_cases hlock : c = .lock
    · subst hlock
      cases heffect with
      | plain hplain => exact hplain.elim
      | lock hfree =>
        have hserver : u.call.server ≠ t.call.server := by
          intro heq
          rw [heq, hfree] at hholder
          cases hholder
        rw [Shared.setHolder_holder_of_ne _ _ hserver]
        exact hholder
    · rw [heffect.holder hlock hunlock]
      exact hholder
  · have hserver : u.call.server ≠ t.call.server := fun heq =>
      hne (h.exclusive hu ht hlu hlive hpu hphase heq)
    rcases hc with ⟨tx, rfl, -⟩ | rfl | rfl
    · rw [heffect.holder Cmd.noConfusion Cmd.noConfusion]
      exact hholder
    · rw [heffect.holder Cmd.noConfusion Cmd.noConfusion]
      exact hholder
    · cases heffect with
      | plain hplain => exact hplain.elim
      | unlock =>
        rw [Shared.setHolder_holder_of_ne _ _ hserver]
        exact hholder

theorem env_undisturbed {e : Env} (h : σ.env e = some σ') (m : ℕ) :
    Undisturbed m σ.db σ'.db ∧ σ'.holder = σ.holder := by
  cases e with
  | expire key =>
    obtain ⟨db, hdb, rfl⟩ := Option.map_eq_some_iff.mp h
    exact ⟨.expire hdb m, rfl⟩
  | age key seconds =>
    obtain ⟨db, hdb, rfl⟩ := Option.map_eq_some_iff.mp h
    exact ⟨.age hdb m, rfl⟩
  | foreignSet key entry =>
    obtain rfl := Option.some.inj h
    exact ⟨.write m σ.db key _, rfl⟩
  | foreignDel key =>
    obtain rfl := Option.some.inj h
    exact ⟨.del m σ.db key, rfl⟩
  | clock now =>
    obtain rfl := Option.some.inj h
    exact ⟨.refl m σ.db, rfl⟩

variable [DecidableEq N]

/-- **The invariant is kept.** -/
theorem Sound.step {w w' : DWorld} {l : DLabel} (h : Sound cfg S w)
    (hs : (deployment cfg S fuel).Stepped w l w') : Sound cfg S w' := by
  cases hs with
  | @spawn i call hfree =>
    constructor
    · intro j u hu
      rcases World.put_tasks_eq_some hu with ⟨-, rfl⟩ | ⟨-, hu⟩
      · exact serve_follows fuel call.request
      · exact h.follows j u hu
    · intro j u hu hlive hphase
      rcases World.put_tasks_eq_some hu with ⟨-, rfl⟩ | ⟨-, hu⟩
      · exact absurd rfl hphase
      · exact h.holds j u hu hlive hphase
    · intro j u hu hlive
      rcases World.put_tasks_eq_some hu with ⟨-, rfl⟩ | ⟨-, hu⟩
      · exact matches_of_idle rfl
      · exact h.session j u hu hlive
  | @act i choice t c k σ r htask hlive hprog hexec =>
    have hfollows := h.follows i t htask
    rw [hprog] at hfollows
    constructor
    · intro j u hu
      rcases World.put_tasks_eq_some hu with ⟨-, rfl⟩ | ⟨-, hu⟩
      · have hnext := hfollows.2 r
        rwa [Interaction.Task.advance_prog, knowledge_advance]
      · exact h.follows j u hu
    · intro j u hu hlu hphase
      rcases World.put_tasks_eq_some hu with ⟨rfl, rfl⟩ | ⟨hne, hu⟩
      · rw [knowledge_advance] at hphase
        exact (h.act_self htask hlive hfollows.1 hexec).1 hphase
      · exact (h.act_other htask hlive hfollows.1 hexec hu hlu hne).1 hphase
    · intro j u hu hlu
      rcases World.put_tasks_eq_some hu with ⟨rfl, rfl⟩ | ⟨hne, hu⟩
      · rw [knowledge_advance]
        exact (h.act_self htask hlive hfollows.1 hexec).2
      · exact (h.act_other htask hlive hfollows.1 hexec hu hlu hne).2
  | @drop i t htask hlive =>
    constructor
    · intro j u hu
      rcases World.put_tasks_eq_some hu with ⟨-, rfl⟩ | ⟨-, hu⟩
      · exact h.follows i t htask
      · exact h.follows j u hu
    · intro j u hu hlu hphase
      rcases World.put_tasks_eq_some hu with ⟨-, rfl⟩ | ⟨hne, hu⟩
      · cases hlu
      · have hholder := h.holds j u hu hlu hphase
        show (w.shared.release i t.call.server).holder u.call.server = some j
        rw [Shared.release]
        split_ifs with hi
        · have hserver : u.call.server ≠ t.call.server := by
            intro heq
            rw [heq, hi] at hholder
            exact hne (Option.some.inj hholder).symm
          rw [Shared.setHolder_holder_of_ne _ _ hserver]
          exact hholder
        · exact hholder
    · intro j u hu hlu
      rcases World.put_tasks_eq_some hu with ⟨-, rfl⟩ | ⟨-, hu⟩
      · cases hlu
      · show Matches cfg S _ _ _ (w.shared.release i t.call.server).db
        rw [Shared.release_db]
        exact h.session j u hu hlu
  | env henv =>
    refine ⟨h.follows, fun j u hu hlu hphase => ?_, fun j u hu hlu => ?_⟩
    · exact (env_undisturbed henv 0).2 ▸ h.holds j u hu hlu hphase
    · exact (h.session j u hu hlu).undisturbed (env_undisturbed henv _).1

/-- The invariant rule of the deployment: a step may assume that the world is sound. -/
theorem Sound.invariant {I : DWorld → Prop} {ok : DWorld → DLabel → Prop} {w w' : DWorld}
    {ls : List DLabel}
    (hstep : ∀ u l v, Sound cfg S u → I u → ok u l → (deployment cfg S fuel).Stepped u l v → I v)
    (h : Sound cfg S w) (hrun : (deployment cfg S fuel).RunIn ok w ls w') (h0 : I w) : I w' :=
  (hrun.invariant (I := fun w => Sound cfg S w ∧ I w)
    (fun u l v hI hok hs => ⟨hI.1.step hs, hstep u l v hI.1 hI.2 hok hs⟩) ⟨h, h0⟩).2

theorem Sound.run {w w' : DWorld} {ls : List DLabel} {ok : DWorld → DLabel → Prop}
    (h : Sound cfg S w) (hrun : (deployment cfg S fuel).RunIn ok w ls w') : Sound cfg S w' :=
  hrun.invariant (fun _ _ _ hI _ hs => hI.step hs) h

theorem sound_of_run {w w' : DWorld} {ls : List DLabel} {ok : DWorld → DLabel → Prop}
    (hw : Initial w) (hrun : (deployment cfg S fuel).RunIn ok w ls w') : Sound cfg S w' :=
  hw.sound.run hrun

/-- The invariant rule from a start without tasks: a step may also assume that every task is
what its transcript has made of its program. -/
theorem Initial.invariant {I : DWorld → Prop} {ok : DWorld → DLabel → Prop} {w w' : DWorld}
    {ls : List DLabel} (hw : Initial w) (hrun : (deployment cfg S fuel).RunIn ok w ls w')
    (hstep : ∀ u l v, Sound cfg S u → (deployment cfg S fuel).Transcribed u → I u → ok u l →
      (deployment cfg S fuel).Stepped u l v → I v) (h0 : I w) : I w' := by
  have hstart : (deployment cfg S fuel).Transcribed w := by
    intro i t ht
    rw [hw.tasks i] at ht
    cases ht
  refine (hw.sound.invariant (I := fun w => (deployment cfg S fuel).Transcribed w ∧ I w)
    (fun u l v hu hI hok hs => ?_) hrun ⟨hstart, h0⟩).2
  exact ⟨hI.1.step hs, hstep u l v hu hI.1 hI.2 hok hs⟩

end Sound

end ResponsesApiStore
