import ResponsesApiStore.Interaction.Agreement
import ResponsesApiStore.Redis.Avoids
import ResponsesApiStore.System.Cursors
import ResponsesApiStore.System.Execution

/-!
# One keyspace

The deployment keeps records, cursors and the stream in three maps, but Redis has one keyspace, and
the names of the configuration may let a record share its key with the queue. `oneKeyspace` is the
deployment with that taken into account: a key has one value, which is a string or the stream; a
string is read whoever has written it; a `SETEX`, a `DEL` or the `SET` of the cursor script replaces
whatever is at the key; and a command that meets a value of another type is answered with an error.

Under a configuration that keeps the keys apart (`KeysApart`) none of this can happen. From a state
in which each key holds what it is for (`Sorted`) the two machines have the same runs
(`agrees_oneKeyspace`), so what is proved of the runs of the deployment holds of those of
`oneKeyspace`.
-/

namespace ResponsesApiStore

open Json (Serde)
open Redis (Error Keyspace Session Queued TxCmd Stream StreamCmd)
open Redis.Keyspace (ValidTtl)
open Interaction (Machine World Label Program)
open Interaction.Program

variable {N : Type} {cfg : StoreConfig}

/-! ### Keys that are concatenations -/

/-- What every record key begins with. -/
def recordPrefix (cfg : StoreConfig) : String := cfg.keyPrefix ++ ":"

/-- What every cursor key begins with. -/
def cursorPrefix (cfg : StoreConfig) : String := cfg.streamKey ++ ":meta:autoclaim:"

/-- Neither constant part begins with the other. -/
def KeysApart (cfg : StoreConfig) : Prop :=
  ¬(recordPrefix cfg).toList <+: (cursorPrefix cfg).toList ∧
    ¬(cursorPrefix cfg).toList <+: (recordPrefix cfg).toList

instance (cfg : StoreConfig) : Decidable (KeysApart cfg) :=
  inferInstanceAs (Decidable (_ ∧ _))

theorem key_eq (cfg : StoreConfig) (id : String) :
    ResponseStore.key cfg id = recordPrefix cfg ++ id := rfl

theorem cursorKey_eq (cfg : StoreConfig) (group : String) :
    autoclaimCursorKey cfg.streamKey group = cursorPrefix cfg ++ group := rfl

/-- A continuation of a prefix is continued by some text. -/
theorem exists_append_of_prefix {a b : String} (h : a.toList <+: b.toList) : ∃ c, b = a ++ c := by
  obtain ⟨c, hc⟩ := h
  refine ⟨String.ofList c, String.toList_inj.mp ?_⟩
  rw [String.toList_append, String.toList_ofList, hc]

theorem prefix_of_append {a b c d : String} (h : a ++ b = c ++ d) :
    a.toList <+: c.toList ∨ c.toList <+: a.toList := by
  have hlist : a.toList ++ b.toList = c.toList ++ d.toList := by
    rw [← String.toList_append, ← String.toList_append, h]
  have ha : a.toList <+: c.toList ++ d.toList := hlist ▸ List.prefix_append _ _
  exact List.prefix_or_prefix_of_prefix ha (List.prefix_append _ _)

/-- A configuration that keeps the keys apart has no record key that is the stream key. -/
theorem KeysApart.key_ne_streamKey {cfg : StoreConfig} (h : KeysApart cfg) (id : String) :
    ResponseStore.key cfg id ≠ cfg.streamKey := by
  intro heq
  refine h.1 ?_
  rw [cursorPrefix, ← heq, key_eq]
  simp only [String.toList_append, List.append_assoc]
  exact List.prefix_append _ _

theorem KeysApart.key_ne_cursorKey {cfg : StoreConfig} (h : KeysApart cfg) (id group : String) :
    ResponseStore.key cfg id ≠ autoclaimCursorKey cfg.streamKey group := by
  intro heq
  rw [key_eq, cursorKey_eq] at heq
  rcases prefix_of_append heq with hp | hp
  · exact h.1 hp
  · exact h.2 hp

/-- Where one constant part begins with the other, an id and a group share a key. -/
theorem keysApart_of_ne {cfg : StoreConfig}
    (h : ∀ id group, id ≠ "" → group ≠ "" →
      ResponseStore.key cfg id ≠ autoclaimCursorKey cfg.streamKey group) : KeysApart cfg := by
  refine ⟨fun hp => ?_, fun hp => ?_⟩
  · obtain ⟨c, hc⟩ := exists_append_of_prefix hp
    refine h (c ++ "g") "g" (by simp) (by decide) ?_
    rw [key_eq, cursorKey_eq, hc, String.append_assoc]
  · obtain ⟨c, hc⟩ := exists_append_of_prefix hp
    refine h "i" (c ++ "i") (by decide) (by simp) ?_
    rw [key_eq, cursorKey_eq, hc, String.append_assoc]

/-! ### The semantics -/

/-- A key under which the queue keeps something: the stream or a cursor. -/
def QueueKey (cfg : StoreConfig) (key : String) : Prop :=
  key = cfg.streamKey ∨ (cursorPrefix cfg).toList <+: key.toList

instance (cfg : StoreConfig) (key : String) : Decidable (QueueKey cfg key) :=
  inferInstanceAs (Decidable (_ ∨ _))

/-- What a command is told that meets a value of another type. -/
def wrongType : Error :=
  .reply "WRONGTYPE: Operation against a key holding the wrong kind of value"

/-- The key that a queued command sets when the transaction is executed. -/
def setsKey : Queued → Option String
  | .setEx key ttl _ => if ValidTtl ttl then some key else none
  | .read => none

/-- The keys that a command of a session sets. -/
def txSets (s : Session) : TxCmd → List String
  | .setEx key ttl text => if s.inMulti then [] else (setsKey (.setEx key ttl text)).toList
  | .exec => if s.inMulti && !s.dirty then s.queue.filterMap setsKey else []
  | _ => []

/-- The reply of a stream command that meets a string. -/
def replyToString : (c : StreamCmd) → c.Reply
  | .exist => .ok true
  | c => c.fail wrongType

namespace Shared

variable (cfg : StoreConfig) (σ : Shared)

/-- The stream is at the key. -/
def streamAt (key : String) : Bool := key = cfg.streamKey && σ.stream.isSome

/-- The string at a key, be it a record or a cursor. -/
def stringAt (key : String) : Except Error (Option String) :=
  if σ.streamAt cfg key then .error wrongType
  else .ok ((σ.db.textAt key).or (σ.cursors key))

/-- What the queue had at the key is gone. -/
def dropQueue (key : String) : Shared :=
  { σ with
    cursors := Function.update σ.cursors key none
    stream := if key = cfg.streamKey then none else σ.stream }

/-- The reply of a command of the session of server `n`. -/
def txReply (n : ℕ) : (c : TxCmd) → c.Reply
  | .get key =>
    if (σ.db.sessions n).inMulti then (TxCmd.run σ.db n (.get key)).2 else σ.stringAt cfg key
  | .ttl key =>
    -- neither the stream nor a cursor has an expiry
    if !(σ.db.sessions n).inMulti && (σ.streamAt cfg key || (σ.cursors key).isSome) then .ok (-1)
    else (TxCmd.run σ.db n (.ttl key)).2
  | c => (c.run σ.db n).2

/-- Execute a command of task `i` of server `n` where a key has one value. -/
def execIn (i n : ℕ) (choice : Choice) : (c : Cmd) → Option (Shared × c.Reply)
  | .get key => some (σ, choice.delivery.reply (σ.stringAt cfg key) .error)
  | .setEx key ttl text =>
    let ran := { σ with db := (σ.db.setEx key ttl text).1 }
    some (σ.runIf choice.delivery (if ValidTtl ttl then ran.dropQueue cfg key else ran),
      choice.delivery.reply (σ.db.setEx key ttl text).2 .error)
  | .del key =>
    -- whoever watches the key is told when something is deleted
    let db := if σ.streamAt cfg key || (σ.cursors key).isSome then σ.db.write key none
      else σ.db.del key
    some (σ.runIf choice.delivery ({ σ with db }.dropQueue cfg key),
      choice.delivery.reply (.ok ()) .error)
  | .tx c =>
    let ran := σ.runIf choice.delivery
      ((txSets (σ.db.sessions n) c).foldl (dropQueue cfg) { σ with db := (c.run σ.db n).1 })
    some (if choice.delivery.reconnected then ran.renew n else ran,
      choice.delivery.reply (σ.txReply cfg n c) c.fail)
  | .getCursor key => some (σ, choice.delivery.reply (σ.stringAt cfg key) .error)
  | .cursorScript key cursor =>
    match σ.stringAt cfg key with
    | .error err => some (σ, choice.delivery.reply (.error err) .error)
    | .ok old =>
      match BackgroundQueue.autoclaimCursorScript old cursor with
      | .ok stored =>
        -- the script sets the key only for a cursor that is greater, or `0-0`
        let ran := if cursor = "0-0" ∨ stored ≠ old then
            { σ with
              db := σ.db.write key none
              cursors := Function.update σ.cursors key stored }
          else σ
        some (σ.runIf choice.delivery ran, choice.delivery.reply (.ok ()) .error)
      | .error err => some (σ, choice.delivery.reply (.error err) .error)
  | .stream c =>
    if ((σ.db.textAt cfg.streamKey).or (σ.cursors cfg.streamKey)).isSome then
      -- a string is at the key of the stream
      some (σ, choice.delivery.reply (replyToString c) c.fail)
    else
      (σ.exec i n choice (.stream c)).map fun x =>
        -- an entry that is added, or the stream that is made, is told to whoever watches the key
        (if x.1.stream.map Stream.lastId = σ.stream.map Stream.lastId then x.1
          else { x.1 with db := x.1.db.write cfg.streamKey none }, x.2)
  | c => σ.exec i n choice c

/-- A move of the environment: other clients of Redis leave the keys of the queue alone. -/
def envIn : Env → Option Shared
  | .foreignSet key entry => if QueueKey cfg key then none else σ.env (.foreignSet key entry)
  | .foreignDel key => if QueueKey cfg key then none else σ.env (.foreignDel key)
  | e => σ.env e

end Shared

/-- The deployment over one keyspace. -/
def oneKeyspace [DecidableEq N] (cfg : StoreConfig) (S : Serde N) (fuel : ℕ) :
    DMachine :=
  { deployment cfg S fuel with
    exec := fun σ i call c choice => σ.execIn cfg i call.server choice c
    env := Shared.envIn cfg }

/-! ### The keys of commands -/

/-- The command is about a key of its kind: a record key, or the cursor key of a group. -/
def Cmd.Keyed (cfg : StoreConfig) : Cmd → Prop
  | .get key | .setEx key .. | .del key | .tx (.watch key) | .tx (.get key) | .tx (.ttl key)
  | .tx (.setEx key ..) => IsRecordKey cfg key
  | .getCursor key | .cursorScript key _ => ∃ group, key = autoclaimCursorKey cfg.streamKey group
  | _ => True

section Programs

variable {S : Serde N}

theorem permits_keyed : Permits cfg (.only (Cmd.Keyed cfg)) := by
  refine ⟨fun {c} hc _ => ?_, fun hkey _ _ => hkey, fun _ key reported payload hkey => ?_⟩
  · cases c with
    | getCursor | cursorScript | setEx => exact hc.elim
    | tx c =>
      cases c with
      | setEx => exact hc.elim
      | watch | get | ttl => exact hc
      | _ => trivial
    | get | del => exact hc
    | _ => trivial
  · simp only [ResponseStore.commit, follows_except_bind_iff, follows_storage, follows_return,
      send, call, follows_cmd, follows_ret]
    refine ⟨trivial, fun multi => ?_⟩
    rcases multi with e | _
    · trivial
    refine ⟨hkey, fun setEx => ?_⟩
    rcases setEx with e | _
    · trivial
    refine ⟨trivial, fun exec => ?_⟩
    rcases exec with e | n <;> trivial

theorem keyed_claimJobs (options : ClaimOptions) (cursor : String) :
    Safe (.only (Cmd.Keyed cfg)) (BackgroundQueue.claimJobs cfg S options cursor).run := by
  have hidle : Safe (.only (Cmd.Keyed cfg))
      (BackgroundQueue.claimIdle cfg S options cursor).run := by
    rw [BackgroundQueue.claimIdle]
    split_ifs
    · refine Safe.except_bind (safe_storage (safe_call fun _ => trivial)) fun reply => ?_
      exact Safe.except_bind (permits_keyed.safe_jobsFromStreamIds _ _ _ _ _) fun _ => safe_ret _
    · exact safe_ret _
  refine Safe.except_bind hidle fun x => ?_
  exact Safe.except_bind (permits_keyed.safe_claimNew _ _) fun _ => safe_ret _

variable [DecidableEq N]

/-- **Every command is about a key of its kind.** -/
theorem keyed_serve (fuel : ℕ) (request : Request) :
    Safe (.only (Cmd.Keyed cfg)) (serve cfg S fuel request) := by
  by_cases hclaim : ∃ claim, request = .claimBackgroundJobs claim
  swap
  · exact permits_keyed.safe_serve fuel (not_exists.mp hclaim)
  obtain ⟨claim, rfl⟩ := hclaim
  have hcursor : Safe (.only (Cmd.Keyed cfg))
      (BackgroundQueue.getAutoclaimCursor cfg claim.consumerGroup).run :=
    Safe.except_bind (safe_storage (safe_call fun _ => ⟨_, rfl⟩)) fun _ => safe_ret _
  show Safe (.only (Cmd.Keyed cfg)) (claimBackgroundJobs cfg S claim).run
  rw [claimBackgroundJobs]
  split_ifs
  · exact safe_ret _
  refine Safe.except_bind (safe_rpc hcursor) fun cursor => ?_
  refine Safe.except_bind (safe_rpc (keyed_claimJobs _ cursor)) fun x => ?_
  refine Safe.except_bind (safe_rpc (safe_outcome (safe_storage (safe_call fun _ => ⟨_, rfl⟩))))
    fun _ => ?_
  exact Safe.except_bind (safe_ret _) fun _ => safe_ret _

end Programs

/-! ### Where the machines agree -/

/-- The stream key is no cursor key. -/
theorem streamKey_not_cursor (cfg : StoreConfig) :
    ¬(cursorPrefix cfg).toList <+: cfg.streamKey.toList := by
  intro hprefix
  have hle := hprefix.length_le
  rw [cursorPrefix, String.toList_append, List.length_append] at hle
  have hpos : 0 < ":meta:autoclaim:".toList.length := by decide
  omega

theorem cursorKey_continues (cfg : StoreConfig) (group : String) :
    (cursorPrefix cfg).toList <+: (autoclaimCursorKey cfg.streamKey group).toList := by
  rw [cursorKey_eq, String.toList_append]
  exact List.prefix_append _ _

/-- A configuration that keeps the keys apart has no record key among the keys of the queue. -/
theorem KeysApart.not_queueKey (h : KeysApart cfg) {key : String} (hkey : IsRecordKey cfg key) :
    ¬QueueKey cfg key := by
  obtain ⟨id, rfl⟩ := hkey
  rintro (heq | hprefix)
  · exact h.key_ne_streamKey id heq
  · rw [key_eq, String.toList_append] at hprefix
    rcases List.prefix_or_prefix_of_prefix hprefix (List.prefix_append _ _) with hp | hp
    · exact h.2 hp
    · exact h.1 hp

/-- Each key holds what it is for: the keys of the queue hold no strings but cursors, nobody is
about to write one there, and cursors are at cursor keys. -/
structure Sorted (cfg : StoreConfig) (σ : Shared) : Prop where
  db : σ.db.Avoids (QueueKey cfg)
  cursors : ∀ key, ¬(cursorPrefix cfg).toList <+: key.toList → σ.cursors key = none

section Sorted

variable {σ σ' : Shared} {i n : ℕ} {choice : Choice} {key : String}

theorem Sorted.cursors_streamKey (h : Sorted cfg σ) : σ.cursors cfg.streamKey = none :=
  h.cursors _ (streamKey_not_cursor cfg)

theorem Sorted.cursors_of_not_queueKey (h : Sorted cfg σ) (hkey : ¬QueueKey cfg key) :
    σ.cursors key = none :=
  h.cursors key fun hprefix => hkey (.inr hprefix)

/-- At a key that is not the queue's there is neither the stream nor a cursor. -/
theorem Sorted.streamAt_eq_false (hkey : ¬QueueKey cfg key) : σ.streamAt cfg key = false := by
  have hne : key ≠ cfg.streamKey := fun heq => hkey (.inl heq)
  simp [Shared.streamAt, hne]

theorem Sorted.stringAt_of_not_queueKey (h : Sorted cfg σ) (hkey : ¬QueueKey cfg key) :
    σ.stringAt cfg key = .ok (σ.db.textAt key) := by
  rw [Shared.stringAt, Sorted.streamAt_eq_false hkey, if_neg (by simp),
    h.cursors_of_not_queueKey hkey, Option.or_none]

theorem Sorted.stringAt_cursorKey (h : Sorted cfg σ) (group : String) :
    σ.stringAt cfg (autoclaimCursorKey cfg.streamKey group) =
      .ok (σ.cursors (autoclaimCursorKey cfg.streamKey group)) := by
  have hne : autoclaimCursorKey cfg.streamKey group ≠ cfg.streamKey := fun heq =>
    streamKey_not_cursor cfg (heq ▸ cursorKey_continues cfg group)
  rw [Shared.stringAt, Shared.streamAt, h.db.textAt (.inr (cursorKey_continues cfg group))]
  simp [hne]

theorem Sorted.dropQueue_eq (h : Sorted cfg σ) (hkey : ¬QueueKey cfg key) :
    σ.dropQueue cfg key = σ := by
  have hcursors : Function.update σ.cursors key none = σ.cursors :=
    Function.update_eq_self_iff.mpr (h.cursors_of_not_queueKey hkey).symm
  rw [Shared.dropQueue, hcursors, if_neg fun heq => hkey (.inl heq)]

theorem Sorted.foldl_dropQueue_eq (h : Sorted cfg σ) {keys : List String}
    (hkeys : ∀ key ∈ keys, ¬QueueKey cfg key) :
    keys.foldl (Shared.dropQueue cfg) σ = σ := by
  induction keys with
  | nil => rfl
  | cons key keys ih =>
    obtain ⟨hkey, hrest⟩ := List.forall_mem_cons.mp hkeys
    rw [List.foldl_cons, h.dropQueue_eq hkey, ih hrest]

theorem mem_setsKey {q : Queued} (h : setsKey q = some key) :
    ∃ ttl text, q = .setEx key ttl text := by
  cases q with
  | setEx key' ttl text =>
    rw [setsKey] at h
    split_ifs at h
    obtain rfl := Option.some.inj h
    exact ⟨ttl, text, rfl⟩
  | read => cases h

/-- The keys that a command of a session sets are not those of the queue. -/
theorem Sorted.txSets_not_queueKey (h : Sorted cfg σ) (n : ℕ) {c : TxCmd}
    (hc : c.Spares (QueueKey cfg)) : ∀ key ∈ txSets (σ.db.sessions n) c, ¬QueueKey cfg key := by
  intro key hkey
  cases c with
  | setEx key' ttl text =>
    rw [txSets] at hkey
    split_ifs at hkey
    · cases hkey
    · obtain ⟨_, _, heq⟩ := mem_setsKey (Option.mem_toList.mp hkey)
      obtain ⟨rfl, -⟩ := Queued.setEx.inj heq
      exact hc
  | exec =>
    rw [txSets] at hkey
    split_ifs at hkey
    · obtain ⟨q, hq, hset⟩ := List.mem_filterMap.mp hkey
      obtain ⟨ttl, text, rfl⟩ := mem_setsKey hset
      exact (h.db.sessions n).queued key ttl text hq
    · cases hkey
  | _ => cases hkey

theorem Sorted.txReply_eq (h : Sorted cfg σ) (n : ℕ) {c : TxCmd}
    (hc : c.Spares (QueueKey cfg)) : σ.txReply cfg n c = (c.run σ.db n).2 := by
  cases c with
  | get key =>
    rw [Shared.txReply, h.stringAt_of_not_queueKey hc]
    split_ifs with hmulti
    · rfl
    · rw [TxCmd.run, if_neg hmulti]
  | ttl key =>
    rw [Shared.txReply, Sorted.streamAt_eq_false hc, h.cursors_of_not_queueKey hc]
    simp
  | _ => rfl

/-- A sorted state whose keyspace is changed so that it still avoids the keys of the queue. -/
theorem Sorted.with_db (h : Sorted cfg σ) {db : Keyspace} (hdb : db.Avoids (QueueKey cfg)) :
    Sorted cfg { σ with db } := ⟨hdb, h.cursors⟩

theorem spares_of_keyed (hapart : KeysApart cfg) {c : TxCmd} (hc : (Cmd.tx c).Keyed cfg) :
    c.Spares (QueueKey cfg) := by
  cases c with
  | watch | get | ttl | setEx => exact hapart.not_queueKey hc
  | _ => trivial

/-- **One command.** In a sorted state a command about keys of its kind does the same. -/
theorem Sorted.execIn_eq (h : Sorted cfg σ) (hapart : KeysApart cfg) {c : Cmd}
    (hc : c.Keyed cfg) : σ.execIn cfg i n choice c = σ.exec i n choice c := by
  cases c with
  | get key =>
    rw [Shared.execIn, h.stringAt_of_not_queueKey (hapart.not_queueKey hc), Shared.exec]
  | setEx key ttl text =>
    have hkey := hapart.not_queueKey hc
    have hran := (h.with_db (h.db.setEx hkey ttl text)).dropQueue_eq hkey
    simp only [Shared.execIn, Shared.exec, hran, ite_self]
  | del key =>
    have hkey := hapart.not_queueKey hc
    have hran := (h.with_db (h.db.del key)).dropQueue_eq hkey
    simp only [Shared.execIn, Shared.exec, Sorted.streamAt_eq_false hkey,
      h.cursors_of_not_queueKey hkey, Option.isSome_none, Bool.or_self, Bool.false_eq_true,
      if_false, hran]
  | tx c =>
    have hspares := spares_of_keyed hapart hc
    have hran := (h.with_db (h.db.run n hspares)).foldl_dropQueue_eq
      (h.txSets_not_queueKey n hspares)
    simp only [Shared.execIn, Shared.exec, hran, h.txReply_eq n hspares]
  | getCursor key =>
    obtain ⟨group, rfl⟩ := hc
    rw [Shared.execIn, h.stringAt_cursorKey, Shared.exec]
  | cursorScript key cursor =>
    obtain ⟨group, rfl⟩ := hc
    have hkey : QueueKey cfg (autoclaimCursorKey cfg.streamKey group) :=
      .inr (cursorKey_continues cfg group)
    rw [Shared.execIn, h.stringAt_cursorKey, Shared.exec]
    dsimp only
    rw [h.db.write_none hkey]
    rcases BackgroundQueue.autoclaimCursorScript _ cursor with err | stored
    · rfl
    dsimp only
    split_ifs with hset
    · rfl
    · -- what the script does not set stays as it is
      obtain ⟨-, hsame⟩ := not_or.mp hset
      rw [not_not.mp hsame, Function.update_eq_self]
  | stream c =>
    rw [Shared.execIn, h.db.textAt (.inl rfl), h.cursors_streamKey, Option.or_none,
      Option.isSome_none, if_neg (by simp)]
    rcases hexec : σ.exec i n choice (.stream c) with _ | ⟨ran, reply⟩
    · rfl
    · have hdb : ran.db = σ.db := by
        cases exec_effect hexec with
        | plain hplain hdb hholder => exact hdb
      rw [Option.map_some]
      dsimp only
      rw [hdb, h.db.write_none (.inl rfl), ← hdb, ite_self]
  | _ => rfl

/-- What such a command leaves is sorted. -/
theorem Sorted.exec (h : Sorted cfg σ) (hapart : KeysApart cfg) {c : Cmd} {r : c.Reply}
    (hc : c.Keyed cfg) (hexec : σ.exec i n choice c = some (σ', r)) : Sorted cfg σ' := by
  have hrunIf : ∀ ran : Shared, ran.db.Avoids (QueueKey cfg) →
      (σ.runIf choice.delivery ran).db.Avoids (QueueKey cfg) := by
    intro ran hran
    rw [Shared.runIf]
    split_ifs
    · exact hran
    · exact h.db
  constructor
  · cases exec_effect hexec with
    | plain hplain hdb hholder => exact hdb ▸ h.db
    | setEx => exact hrunIf _ (h.db.setEx (hapart.not_queueKey hc) _ _)
    | del => exact hrunIf _ (h.db.del _)
    | tx =>
      rw [Shared.afterTx]
      have hran := hrunIf { σ with db := (TxCmd.run σ.db n _).1 }
        (h.db.run n (spares_of_keyed hapart hc))
      split_ifs
      · exact hran.setSession n Session.fresh_avoids
      · exact hran
    | lock | unlock => exact h.db
    | install => exact h.db.setSession n Session.fresh_avoids
  · intro key hkey
    rcases exec_cursors hexec with hsame | ⟨key', cursor, stored, rfl, -, -, hcursors⟩
    · rw [hsame, h.cursors key hkey]
    · obtain ⟨group, rfl⟩ := hc
      have hne : key ≠ autoclaimCursorKey cfg.streamKey group := fun heq =>
        hkey (heq ▸ cursorKey_continues cfg group)
      rw [hcursors, Function.update_of_ne hne, h.cursors key hkey]

/-- Other clients leave the keys of the queue alone. -/
def LeavesQueue (cfg : StoreConfig) : DLabel → Bool
  | .env (.foreignSet key _) | .env (.foreignDel key) => !decide (QueueKey cfg key)
  | _ => true

theorem Shared.envIn_eq {e : Env} (h : LeavesQueue cfg (.env e) = true) :
    σ.envIn cfg e = σ.env e := by
  cases e with
  | foreignSet key | foreignDel key =>
    rw [Shared.envIn, if_neg (by simpa [LeavesQueue] using h)]
  | _ => rfl

theorem leavesQueue_of_envIn {e : Env} (h : σ.envIn cfg e = some σ') :
    LeavesQueue cfg (.env e) = true := by
  cases e with
  | foreignSet key | foreignDel key =>
    rw [Shared.envIn] at h
    split_ifs at h with hkey
    simp [LeavesQueue, hkey]
  | _ => rfl

theorem Sorted.env (h : Sorted cfg σ) {e : Env} (hleaves : LeavesQueue cfg (.env e) = true)
    (henv : σ.env e = some σ') : Sorted cfg σ' := by
  refine ⟨?_, fun key hkey => by rw [env_cursors henv, h.cursors key hkey]⟩
  cases e with
  | expire key =>
    obtain ⟨db, hdb, rfl⟩ := Option.map_eq_some_iff.mp henv
    exact h.db.expire hdb
  | age key seconds =>
    obtain ⟨db, hdb, rfl⟩ := Option.map_eq_some_iff.mp henv
    exact h.db.age hdb
  | foreignSet key entry =>
    obtain rfl := Option.some.inj henv
    exact h.db.write (by simpa [LeavesQueue] using hleaves) _
  | foreignDel key =>
    obtain rfl := Option.some.inj henv
    exact h.db.del key
  | clock now =>
    obtain rfl := Option.some.inj henv
    exact h.db

end Sorted

/-! ### The same runs -/

/-- The state is sorted, and the tasks send commands about keys of their kinds. -/
structure Orderly (cfg : StoreConfig) (w : DWorld) : Prop where
  sorted : Sorted cfg w.shared
  keyed : ∀ i t, w.tasks i = some t → Safe (.only (Cmd.Keyed cfg)) t.prog

/-- A world without tasks, in a sorted state. -/
structure SortedStart (cfg : StoreConfig) (w : DWorld) : Prop extends Initial w where
  sorted : Sorted cfg w.shared

theorem SortedStart.orderly {w : DWorld} (hw : SortedStart cfg w) : Orderly cfg w := by
  refine ⟨hw.sorted, fun i t ht => ?_⟩
  rw [hw.tasks i] at ht
  cases ht

section Runs

variable [DecidableEq N] {S : Serde N} {fuel : ℕ} {w w' : DWorld} {l : DLabel}

theorem Orderly.step_eq (h : Orderly cfg w) (hapart : KeysApart cfg)
    (hleaves : LeavesQueue cfg l = true) :
    (deployment cfg S fuel).step w l = (oneKeyspace cfg S fuel).step w l := by
  cases l with
  | spawn i call => rfl
  | drop i => rfl
  | env e =>
    have henv : w.shared.envIn cfg e = w.shared.env e := Shared.envIn_eq hleaves
    simp only [Machine.step, oneKeyspace, deployment, henv]
  | act i choice =>
    rcases htask : w.tasks i with _ | t
    · simp only [Machine.step, htask]
    simp only [Machine.step, htask]
    rcases hlive : t.live with _ | _
    · rfl
    rcases hprog : t.prog with result | ⟨c, k⟩
    · rfl
    have hc : c.Keyed cfg := by
      have hsafe := h.keyed i t htask ()
      rw [hprog] at hsafe
      exact hsafe.1
    have hexec : w.shared.execIn cfg i t.call.server choice c =
        w.shared.exec i t.call.server choice c := h.sorted.execIn_eq hapart hc
    simp only [oneKeyspace, deployment, hexec]

theorem Orderly.step (h : Orderly cfg w) (hapart : KeysApart cfg)
    (hleaves : LeavesQueue cfg l = true) (hs : (deployment cfg S fuel).Stepped w l w') :
    Orderly cfg w' := by
  constructor
  · cases hs with
    | spawn hfree => exact h.sorted
    | @act i choice t c k σ r htask hlive hprog hexec =>
      have hsafe := h.keyed i t htask ()
      rw [hprog] at hsafe
      exact h.sorted.exec hapart hsafe.1 hexec
    | @drop i t htask hlive =>
      refine ⟨?_, fun key hkey => ?_⟩
      · show (w.shared.release i t.call.server).db.Avoids _
        rw [Shared.release_db]
        exact h.sorted.db
      · show (w.shared.release i t.call.server).cursors key = none
        rw [Shared.release_cursors]
        exact h.sorted.cursors key hkey
    | env henv => exact h.sorted.env hleaves henv
  · intro j u hu
    rcases hs.task_cases hu with ⟨hu, -⟩ | ⟨call, -, rfl⟩ |
      ⟨t, c, k, r, σ, choice, -, ht, -, hprog, -, -, rfl⟩ | ⟨t, -, ht, rfl⟩
    · exact h.keyed j u hu
    · exact keyed_serve fuel call.request
    · intro g
      have hsafe := h.keyed j t ht g
      rw [hprog] at hsafe
      exact hsafe.2 r
    · exact h.keyed j t ht

/-- **Agreement.** Where the configuration keeps the keys apart, the three maps of the deployment
are as good as one keyspace. -/
theorem agrees_oneKeyspace (hapart : KeysApart cfg) :
    Machine.Agrees (deployment cfg S fuel) (oneKeyspace cfg S fuel) (Orderly cfg)
      (fun l => LeavesQueue cfg l = true) where
  step _ _ h hleaves := h.step_eq hapart hleaves
  keeps _ _ _ h hleaves hs := h.step hapart hleaves (Machine.step_eq_some_iff.mp hs)

/-- Over one keyspace other clients leave the keys of the queue alone. -/
theorem leavesQueue_of_step (h : (oneKeyspace cfg S fuel).step w l = some w') :
    LeavesQueue cfg l = true := by
  cases l with
  | env e =>
    obtain ⟨σ, hσ, -⟩ := Option.map_eq_some_iff.mp h
    exact leavesQueue_of_envIn hσ
  | _ => rfl

variable {ok ok' : DWorld → DLabel → Prop} {ls : List DLabel}

/-- **A step over one keyspace** is a step of the deployment. -/
theorem step_deployment (hapart : KeysApart cfg) (h : Orderly cfg w)
    (hstep : (oneKeyspace cfg S fuel).step w l = some w') :
    (deployment cfg S fuel).step w l = some w' :=
  (h.step_eq hapart (leavesQueue_of_step hstep)).trans hstep

theorem leavesQueue_of_run (hrun : (oneKeyspace cfg S fuel).RunIn ok w ls w') :
    ∀ l ∈ ls, LeavesQueue cfg l = true :=
  hrun.forall_labels fun _ _ _ _ hs => leavesQueue_of_step hs

/-- **A run over one keyspace** is a run of the deployment. -/
theorem runIn_deployment (hapart : KeysApart cfg) (h : Orderly cfg w)
    (hrun : (oneKeyspace cfg S fuel).RunIn ok w ls w') : (deployment cfg S fuel).RunIn ok w ls w' :=
  (agrees_oneKeyspace hapart).symm.runIn h (leavesQueue_of_run hrun) hrun

/-- What a run over one keyspace leads to. -/
theorem Orderly.run (hapart : KeysApart cfg) (h : Orderly cfg w)
    (hrun : (oneKeyspace cfg S fuel).RunIn ok w ls w') : Orderly cfg w' :=
  (agrees_oneKeyspace hapart).symm.keeps_run h (leavesQueue_of_run hrun) hrun

/-- A run of the deployment in which other clients leave the keys of the queue alone is a run over
one keyspace. -/
theorem runIn_oneKeyspace (hapart : KeysApart cfg) (h : Orderly cfg w)
    (hleaves : ∀ l ∈ ls, LeavesQueue cfg l = true)
    (hrun : (deployment cfg S fuel).RunIn ok w ls w') : (oneKeyspace cfg S fuel).RunIn ok w ls w' :=
  (agrees_oneKeyspace hapart).runIn h hleaves hrun

/-- A step of a kind that a run of the deployment takes is taken over one keyspace too. -/
theorem takes_oneKeyspace {p : DWorld → DLabel → Prop} (hapart : KeysApart cfg)
    (h : Orderly cfg w) (hleaves : ∀ l ∈ ls, LeavesQueue cfg l = true)
    (htakes : (deployment cfg S fuel).Takes ok p w ls w') :
    (oneKeyspace cfg S fuel).Takes ok p w ls w' :=
  (agrees_oneKeyspace hapart).takes h hleaves htakes

theorem takes_deployment {p : DWorld → DLabel → Prop} (hapart : KeysApart cfg)
    (h : Orderly cfg w) (hleaves : ∀ l ∈ ls, LeavesQueue cfg l = true)
    (htakes : (oneKeyspace cfg S fuel).Takes ok p w ls w') :
    (deployment cfg S fuel).Takes ok p w ls w' :=
  (agrees_oneKeyspace hapart).symm.takes h hleaves htakes

end Runs

/-! ### The small deployment -/

namespace Sample

/-- The small deployment over one keyspace. -/
abbrev machineIn : DMachine := oneKeyspace config serde 8

theorem keysApart_config : KeysApart config := by decide

theorem sortedStart_start (text : Option String) : SortedStart config (start text) where
  toInitial := initial_start text
  sorted := by
    have hkey : ¬QueueKey config key := by decide
    refine ⟨⟨fun k hk => ?_, fun n => Session.fresh_avoids⟩, fun _ _ => rfl⟩
    refine if_neg ?_
    rintro rfl
    exact hkey hk

end Sample

end ResponsesApiStore
