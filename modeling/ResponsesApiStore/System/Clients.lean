import ResponsesApiStore.System.Records

/-!
# Updates and deletes: a read, then a write

An update and a delete decide on one read of the key and then write, without anything that
ties the write to what was read. This module says so about their programs (`readFirst`): a
write is preceded by exactly one exchange, the read of the same key. So at the moment such a
call comes to stand before its write it has just read the key (`Written.just_read`), and what
happens between the two is up to everybody else.
-/

namespace ResponsesApiStore

open Json (Serde)
open Redis (Error)
open Interaction (Machine World Label Program Protocol)
open Interaction.Program

variable {N : Type}

/-- Writes on the shared connection come right after one read of `key`. -/
def readFirst (key : String) : Protocol sig (List sig.Exchange) :=
  .ofTranscript fun es c => match c with
    | .setEx .. | .del _ => ∃ reply, es = [⟨.get key, reply⟩]
    | _ => True

/-- The id that an update or a delete is about. -/
def writesTo : Request → Option String
  | .updateResponse record _ => (requireRecord record).toOption.map ProtoStoredResponse.responseId
  | .deleteResponse id => some id
  | _ => none

section Programs

variable {cfg : StoreConfig} {S : Serde N}

/-- After the read, a store sends at most its one write. -/
theorem readFirst_store {id : String} {record : StoredResponse N} {ttl : Option UInt64}
    {reply : Except Error (Option String)} :
    (ResponseStore.store cfg S id record ttl).run.Follows (readFirst (ResponseStore.key cfg id))
      (fun _ _ => True) [⟨.get (ResponseStore.key cfg id), reply⟩] := by
  rw [ResponseStore.store]
  split_ifs
  · trivial
  rw [follows_except_bind_iff, follows_ofExcept]
  rcases ResponseStore.encode S record with fault | payload
  · trivial
  · simp only [follows_storage, send, call, follows_cmd, follows_ret]
    exact ⟨⟨reply, rfl⟩, fun _ => trivial⟩

theorem readFirst_delete {id : String} {reply : Except Error (Option String)} :
    (ResponseStore.delete cfg id).run.Follows (readFirst (ResponseStore.key cfg id))
      (fun _ _ => True) [⟨.get (ResponseStore.key cfg id), reply⟩] := by
  simp only [ResponseStore.delete, follows_storage, send, call, follows_cmd, follows_ret]
  exact ⟨⟨reply, rfl⟩, fun _ => trivial⟩

theorem readFirst_update {id : String} {record : StoredResponse N} {ttl : Option UInt64} :
    (ResponseStore.update cfg S id record ttl).run.Follows (readFirst (ResponseStore.key cfg id))
      (fun _ _ => True) [] := by
  rw [ResponseStore.update, follows_except_bind_iff, follows_load_iff]
  refine ⟨trivial, fun reply => ?_⟩
  rcases reply with e | (_ | text)
  · trivial
  · trivial
  rcases hstored : StoredResponse.ofText S text with e | stored
  · simp only [ResponseStore.decode, hstored, Except.mapError, Except.map]
  simp only [ResponseStore.decode, hstored, Except.mapError, Except.map]
  split_ifs
  · trivial
  · exact readFirst_store

theorem readFirst_deleteOrTombstone {id : String} :
    (deleteOrTombstone cfg S id).run.Follows (readFirst (ResponseStore.key cfg id))
      (fun _ _ => True) [] := by
  rw [deleteOrTombstone, follows_except_bind_iff, follows_outcome, ResponseStore.get,
    follows_except_bind_iff, follows_load_iff]
  refine ⟨trivial, fun reply => ?_⟩
  rcases reply with e | (_ | text)
  · exact readFirst_delete
  · exact readFirst_delete
  rcases hstored : StoredResponse.ofText S text with e | stored
  · simp only [ResponseStore.decode, hstored, Except.mapError, Except.map]
    exact readFirst_delete
  simp only [ResponseStore.decode, hstored, Except.mapError, Except.map, Bool.false_eq_true,
    if_false]
  split_ifs with hdeleted
  · exact readFirst_delete
  · rw [follows_return]
    dsimp only
    split_ifs
    · exact readFirst_store
    · exact readFirst_delete

variable [DecidableEq N] {fuel : ℕ}

/-- **A read, then a write.** -/
theorem readFirst_serve {request : Request} {id : String} (h : writesTo request = some id) :
    (serve cfg S fuel request).Follows (readFirst (ResponseStore.key cfg id)) (fun _ _ => True)
      [] := by
  cases request with
  | updateResponse record ttl =>
    rw [writesTo] at h
    show (updateResponse cfg S record ttl).run.Follows _ _ _
    simp only [updateResponse, follows_except_bind_iff, follows_ofStatus, follows_rpc]
    rcases hp : requireRecord record with status | p
    · trivial
    rw [hp] at h
    obtain rfl : p.responseId = id := Option.some.inj h
    simp only [Except.mapError]
    rcases protoToCore S p with status | core
    · trivial
    · refine readFirst_update.mono ?_
      rintro es (fault | _) - <;> trivial
  | deleteResponse id' =>
    obtain rfl : id' = id := Option.some.inj h
    show (deleteResponse cfg S id').run.Follows _ _ _
    rw [deleteResponse]
    split_ifs
    · trivial
    rw [follows_except_bind_iff, follows_rpc]
    refine readFirst_deleteOrTombstone.mono ?_
    rintro es (fault | _) - <;> trivial
  | _ => cases h

/-- How a program comes to know that it has written: it has. -/
theorem takes_wrote {ok : DWorld → DLabel → Prop} {w₀ w : DWorld} {ls : List DLabel}
    (hw : Initial w₀) (hrun : (deployment cfg S fuel).RunIn ok w₀ ls w) {i : ℕ} {t : DTask}
    (htask : w.tasks i = some t) (hwrote : (knowledge t).wrote = true) :
    (deployment cfg S fuel).Takes ok (fun x l => ∃ u key, u.call = t.call ∧
      ((∃ payload, Stores x l i u key payload) ∨ Runs x l i u (.del key))) w₀ ls w := by
  refine hrun.snoc_induction (motive := fun ls w => ∀ t, w.tasks i = some t →
    (knowledge t).wrote = true → (deployment cfg S fuel).Takes ok (fun x l => ∃ u key,
      u.call = t.call ∧
      ((∃ payload, Stores x l i u key payload) ∨ Runs x l i u (.del key))) w₀ ls w)
    ?_ ?_ t htask hwrote
  · intro t htask
    rw [hw.tasks i] at htask
    cases htask
  · intro ls x l y hx ih hok hs t htask hwrote
    rcases hs.task_cases htask with ⟨ht, -⟩ | ⟨call, -, rfl⟩ |
      ⟨u, c, k, r, σ, choice, rfl, hu, hlive, hprog, hexec, -, rfl⟩ | ⟨u, -, hu, rfl⟩
    · exact (ih t ht hwrote).snoc hok hs
    · cases hwrote
    · replace hexec : x.shared.exec i u.call.server choice c = some (σ, r) := hexec
      rw [knowledge_advance] at hwrote
      rcases wrote_after hwrote with hbefore | ⟨key, ttl, payload, heq⟩ | ⟨key, heq⟩
      · exact (ih u hu hbefore).snoc hok hs
      · cases heq
        obtain ⟨hvalid, hreplied⟩ := validTtl_of_exec hexec
        have hruns : Runs x (.act i choice) i u (.setEx key ttl payload) :=
          ⟨hu, hlive, ⟨k, hprog⟩, choice, rfl, by rw [hreplied]; rfl⟩
        exact hx.takes_last hok ⟨u, key, rfl, .inl ⟨payload, ttl, hvalid, hruns⟩⟩ hs
      · cases heq
        have hreplied : choice.delivery = .replied := replied_of_del hexec
        have hruns : Runs x (.act i choice) i u (.del key) :=
          ⟨hu, hlive, ⟨k, hprog⟩, choice, rfl, by rw [hreplied]; rfl⟩
        exact hx.takes_last hok ⟨u, key, rfl, .inr hruns⟩ hs
    · exact (ih u hu hwrote).snoc hok hs

/-- A command that writes on the shared connection. -/
def IsWrite : Cmd → Prop
  | .setEx .. | .del _ => True
  | _ => False

/-- An update or a delete that stands before its write has read the key, and nothing else. -/
theorem transcript_of_write {w : DWorld} (h : (deployment cfg S fuel).Transcribed w) {i : ℕ}
    {t : DTask} {id : String} {c : Cmd} {k : c.Reply → Program sig RpcResult}
    (htask : w.tasks i = some t) (hid : writesTo t.call.request = some id)
    (hprog : t.prog = .cmd c k) (hwrite : IsWrite c) :
    ∃ reply, t.transcript = [⟨.get (ResponseStore.key cfg id), reply⟩] := by
  have hserve : (serve cfg S fuel t.call.request).Follows (readFirst (ResponseStore.key cfg id))
      (fun _ _ => True) [] := readFirst_serve hid
  have hfollows := hserve.resume (h i t htask)
  rw [hprog, readFirst, Protocol.after_ofTranscript, List.nil_append] at hfollows
  cases c <;> first | exact hfollows.1 | cases hwrite

/-- **The read comes just before.** An update or a delete that stands before its write after a
step stood there already, or was dropped there, or has just read the key. -/
theorem just_read {w w' : DWorld} {l : DLabel} (hw' : (deployment cfg S fuel).Transcribed w')
    (hs : (deployment cfg S fuel).Stepped w l w') {j : ℕ} {u : DTask} {id : String} {c : Cmd}
    {k : c.Reply → Program sig RpcResult} (hu : w'.tasks j = some u)
    (hid : writesTo u.call.request = some id) (hprog : u.prog = .cmd c k) (hwrite : IsWrite c) :
    (w.tasks j = some u ∧ ∀ choice, l ≠ .act j choice) ∨ u.live = false ∨
      ∃ t k choice, l = .act j choice ∧ w.tasks j = some t ∧ t.live = true ∧ t.call = u.call ∧
        t.prog = .cmd (.get (ResponseStore.key cfg id)) k ∧ w'.shared = w.shared ∧
        (choice.delivery = .replied → (knowledge u).seen =
          some (ResponseStore.key cfg id, w.shared.textAt (ResponseStore.key cfg id))) ∧
        (choice.delivery ≠ .replied → (knowledge u).seen = none) := by
  obtain ⟨reply, htranscript⟩ := transcript_of_write hw' hu hid hprog hwrite
  rcases hs.task_cases hu with hkept | ⟨call, -, rfl⟩ |
    ⟨t, c', k', r, σ, choice, rfl, htask, hlive, hprog', hexec, hσ, rfl⟩ | ⟨t, -, -, rfl⟩
  · exact .inl hkept
  · cases htranscript
  · have happend : t.transcript ++ [⟨c', r⟩] = [] ++ [⟨.get (ResponseStore.key cfg id), reply⟩] :=
      htranscript
    cases List.singleton_inj.mp (List.append_inj' happend rfl).2
    obtain ⟨rfl, rfl⟩ := Prod.mk.inj (Option.some.inj hexec)
    refine .inr (.inr ⟨t, k', choice, rfl, htask, hlive, rfl, hprog', hσ, ?_⟩)
    rw [knowledge, htranscript]
    rcases choice.delivery with _ | ⟨err, ran, reconnected⟩
    · exact ⟨fun _ => rfl, fun h => absurd rfl h⟩
    · refine ⟨fun h => ?_, fun _ => rfl⟩
      cases h
  · exact .inr (.inl rfl)

end Programs

end ResponsesApiStore
