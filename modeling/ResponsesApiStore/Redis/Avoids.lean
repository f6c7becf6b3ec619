import ResponsesApiStore.Redis.Transaction

/-!
# Keys that strings keep away from

A keyspace avoids the keys of a kind `K` if it has no string there and no connection watches such a
key or has a write to it in its queue (`Keyspace.Avoids`). Commands about other keys keep it so
(`Avoids.run`), and to remove a string at a key that is avoided does nothing (`Avoids.write_none`).
-/

namespace Redis

/-- The connection has neither a watch on a key of the kind nor a write to one in its queue. -/
structure Session.Avoids (K : String → Prop) (s : Session) : Prop where
  watched : ∀ key ∈ s.watched, ¬K key
  queued : ∀ key ttl text, .setEx key ttl text ∈ s.queue → ¬K key

/-- There are no strings at keys of the kind, and no connection is about to write one. -/
structure Keyspace.Avoids (K : String → Prop) (db : Keyspace) : Prop where
  strings : ∀ key, K key → db.strings key = none
  sessions : ∀ n, (db.sessions n).Avoids K

/-- The command is about no key of the kind. -/
def TxCmd.Spares (K : String → Prop) : TxCmd → Prop
  | .watch key | .get key | .ttl key | .setEx key .. => ¬K key
  | _ => True

variable {K : String → Prop}

theorem Session.fresh_avoids : Session.fresh.Avoids K := ⟨by simp [fresh], by simp [fresh]⟩

theorem Session.Avoids.enqueue {s : Session} (h : s.Avoids K) {q : Queued}
    (hq : ∀ key ttl text, q = .setEx key ttl text → ¬K key) : (s.enqueue q).Avoids K := by
  refine ⟨h.watched, fun key ttl text hmem => ?_⟩
  rcases List.mem_append.mp hmem with hmem | hmem
  · exact h.queued key ttl text hmem
  · exact hq key ttl text (List.mem_singleton.mp hmem).symm

namespace Keyspace.Avoids

variable {db : Keyspace} {n : ℕ} {key : String}

theorem textAt (h : db.Avoids K) (hkey : K key) : db.textAt key = none := by
  rw [Keyspace.textAt, h.strings key hkey, Option.map_none]

/-- To remove a string at a key that is avoided does nothing. -/
theorem write_none (h : db.Avoids K) (hkey : K key) : db.write key none = db := by
  have hstrings : Function.update db.strings key none = db.strings :=
    Function.update_eq_self_iff.mpr (h.strings key hkey).symm
  have hsessions : (fun n => if key ∈ (db.sessions n).watched then
      { db.sessions n with dirty := true } else db.sessions n) = db.sessions :=
    funext fun n => if_neg fun hmem => (h.sessions n).watched key hmem hkey
  rw [Keyspace.write, hstrings, hsessions]

theorem write (h : db.Avoids K) (hkey : ¬K key) (e : Option Entry) :
    (db.write key e).Avoids K := by
  refine ⟨fun k hk => ?_, fun n => ⟨?_, ?_⟩⟩
  · have hne : k ≠ key := fun heq => hkey (heq ▸ hk)
    rw [write_strings_of_ne db e hne, h.strings k hk]
  · rw [write_sessions_watched]
    exact (h.sessions n).watched
  · rw [write_sessions_queue]
    exact (h.sessions n).queued

theorem setSession (h : db.Avoids K) (n : ℕ) {s : Session} (hs : s.Avoids K) :
    (db.setSession n s).Avoids K := by
  refine ⟨h.strings, fun m => ?_⟩
  by_cases hm : m = n
  · subst hm
    rwa [setSession_sessions_self]
  · rw [setSession_sessions_of_ne db s hm]
    exact h.sessions m

theorem setEx (h : db.Avoids K) (hkey : ¬K key) (ttl : UInt64) (text : String) :
    (db.setEx key ttl text).1.Avoids K := by
  rw [Keyspace.setEx]
  split_ifs
  · exact h.write hkey _
  · exact h

theorem del (h : db.Avoids K) (key : String) : (db.del key).Avoids K := by
  rw [Keyspace.del]
  rcases hkey : db.strings key with _ | e
  · exact h
  · refine h.write (fun hK => ?_) none
    rw [h.strings key hK] at hkey
    cases hkey

theorem expire (h : db.Avoids K) {db' : Keyspace} (hexpire : db.expire key = some db') :
    db'.Avoids K := by
  rw [Keyspace.expire] at hexpire
  split at hexpire
  · rename_i hkey
    obtain rfl := Option.some.inj hexpire
    refine h.write (fun hK => ?_) none
    rw [h.strings key hK] at hkey
    cases hkey
  · cases hexpire

theorem age (h : db.Avoids K) {seconds : ℕ} {db' : Keyspace}
    (hage : db.age key seconds = some db') : db'.Avoids K := by
  refine ⟨fun k hk => ?_, fun n => ?_⟩
  · have htext : db'.textAt k = none := (age_textAt hage k).trans (h.textAt hk)
    exact Option.map_eq_none_iff.mp htext
  · rw [age_sessions hage]
    exact h.sessions n

theorem runQueue (h : db.Avoids K) {queue : List Queued}
    (hqueue : ∀ key ttl text, .setEx key ttl text ∈ queue → ¬K key) :
    (db.runQueue queue).1.Avoids K := by
  induction queue generalizing db with
  | nil => exact h
  | cons q queue ih =>
    have hrest : ∀ key ttl text, .setEx key ttl text ∈ queue → ¬K key := fun key ttl text hmem =>
      hqueue key ttl text (List.mem_cons_of_mem _ hmem)
    cases q with
    | setEx key ttl text =>
      exact ih (h.setEx (hqueue key ttl text List.mem_cons_self) ttl text) hrest
    | read => exact ih h hrest

/-- **The commands of a session.** -/
theorem run (h : db.Avoids K) (n : ℕ) {c : TxCmd} (hc : c.Spares K) :
    (c.run db n).1.Avoids K := by
  have hread : ((db.sessions n).enqueue .read).Avoids K :=
    (h.sessions n).enqueue fun key ttl text heq => by cases heq
  cases c with
  | discard =>
    rw [TxCmd.run]
    split_ifs
    · exact h.setSession n Session.fresh_avoids
    · exact h
  | watch key =>
    rw [TxCmd.run]
    split_ifs
    · exact h
    · refine h.setSession n ⟨fun k hk => ?_, (h.sessions n).queued⟩
      rcases List.mem_cons.mp hk with rfl | hk
      · exact hc
      · exact (h.sessions n).watched k hk
  | get | ttl =>
    rw [TxCmd.run]
    split_ifs
    · exact h.setSession n hread
    · exact h
  | unwatch =>
    rw [TxCmd.run]
    split_ifs
    · exact h.setSession n hread
    · exact h.setSession n ⟨by simp, (h.sessions n).queued⟩
  | multi =>
    rw [TxCmd.run]
    split_ifs
    · exact h
    · exact h.setSession n ⟨(h.sessions n).watched, by simp⟩
  | setEx key ttl text =>
    rw [TxCmd.run]
    split_ifs
    · refine h.setSession n ((h.sessions n).enqueue fun k t x heq => ?_)
      obtain ⟨rfl, -⟩ := Queued.setEx.inj heq
      exact hc
    · exact h.setEx hc ttl text
  | exec =>
    rw [TxCmd.run]
    split_ifs
    · exact h.setSession n Session.fresh_avoids
    · exact (h.setSession n Session.fresh_avoids).runQueue (h.sessions n).queued
    · exact h

end Keyspace.Avoids

end Redis
