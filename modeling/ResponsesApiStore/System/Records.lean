import ResponsesApiStore.System.Events

/-!
# Commits and the records they store

A commit seen from its world and from its task: it replaces the text its transition was
computed from (`Sound.commit_reads`, `Sound.commit_writes`), an `EXEC` that is answered with
success has committed (`Sound.commits_of_exec`), and a commit that is answered at all is answered
with success (`Commits.replied`). `AllStored.step` is the rule by which properties of the stored
records are kept.
-/

namespace ResponsesApiStore

open Json (Serde)
open Redis (Error Keyspace TxCmd)
open Redis.Keyspace (ValidTtl)
open Interaction (Machine World Label Program)

variable {N : Type} {cfg : StoreConfig} {S : Serde N} {fuel : ℕ}

/-! ### Commits -/

/-- How a program comes to know that it has committed. -/
theorem committed_after (g : Knowledge) (c : Cmd) (r : c.Reply) :
    (g.after c r).committed = g.committed ∨
      ∃ n, (⟨c, r⟩ : sig.Exchange) = ⟨.tx .exec, .ok (some n)⟩ ∧
        (g.after c r).committed = g.text := by
  cases c with
  | setEx key ttl text | del key => rcases r with e | _ <;> exact .inl rfl
  | tx c =>
    cases c with
    | exec =>
      rcases r with e | (_ | n)
      · exact .inl rfl
      · exact .inl rfl
      · exact .inr ⟨n, rfl, rfl⟩
    | _ => exact .inl rfl
  | stream c =>
    cases c with
    | xreadgroup => rcases r with e | (_ | entries) <;> exact .inl rfl
    | xautoclaim => rcases r with e | reply <;> exact .inl rfl
    | _ => exact .inl rfl
  | _ => exact .inl rfl

/-- An `EXEC` that is answered with success has committed, and what it replaced is what its
task read last. -/
theorem Sound.commits_of_exec {w : DWorld} {i : ℕ} {t : DTask} {choice : Choice} {σ : Shared}
    {n : ℕ} {k : TxCmd.exec.Reply → Interaction.Program sig RpcResult} (h : Sound cfg S w)
    (htask : w.tasks i = some t) (hlive : t.live = true) (hprog : t.prog = .cmd (.tx .exec) k)
    (hexec : w.shared.exec i t.call.server choice (.tx .exec) = some (σ, .ok (some n))) :
    ∃ key v payload, Commits w (.act i choice) i t key payload ∧ (knowledge t).text = some v ∧
      w.shared.textAt key = some v ∧
      Transition cfg S t.call.request (knowledge t).now key v payload := by
  obtain ⟨ttl, payload, hphase⟩ := (h.allowed_of_prog htask hprog).2
  have hsession := h.session i t htask hlive
  rw [Matches, hphase] at hsession
  obtain ⟨hmulti, key, v, hseen, hqueue, hguards, htransition⟩ := hsession
  rcases exec_tx hexec with ⟨hreplied, -, hreply⟩ | ⟨-, err, herr⟩
  swap
  · cases herr
  rcases hdirty : (w.shared.db.sessions t.call.server).dirty with _ | _
  swap
  · rw [TxCmd.run, if_pos hmulti, if_pos hdirty] at hreply
    cases hreply
  have hvalid : ValidTtl ttl := by
    by_contra hinvalid
    simp [TxCmd.run, hmulti, hdirty, hqueue, Keyspace.runQueue, Keyspace.setEx, hinvalid]
      at hreply
  have hran : choice.delivery.ran = true := by
    rw [hreplied]
    rfl
  exact ⟨key, v, payload, ⟨⟨htask, hlive, ⟨k, hprog⟩, choice, rfl, hran⟩, ⟨hmulti, hdirty⟩,
    ttl, hvalid, hqueue⟩, by simp [Knowledge.text, hseen], hguards.clean hdirty, htransition⟩

/-- A commit that is answered is answered with success. -/
theorem Commits.replied {w : DWorld} {i : ℕ} {t : DTask} {choice : Choice} {key payload : String}
    {σ : Shared} {r : Cmd.Reply (.tx .exec)} (h : Commits w (.act i choice) i t key payload)
    (hreplied : choice.delivery = .replied)
    (hexec : w.shared.exec i t.call.server choice (.tx .exec) = some (σ, r)) :
    r = .ok (some 1) := by
  obtain ⟨ttl, hvalid, hqueue⟩ := h.queue
  obtain ⟨hmulti, hdirty⟩ := h.clean
  rcases exec_tx hexec with ⟨-, -, hreply⟩ | ⟨hfailed, -⟩
  · rw [hreply]
    simp [TxCmd.run, hmulti, hdirty, hqueue, Keyspace.runQueue, Keyspace.setEx, hvalid]
  · exact absurd hreplied hfailed

/-- **What a commit has read.** The text its transition was computed from is still there. -/
theorem Sound.commit_reads {w : DWorld} {l : DLabel} {i : ℕ} {t : DTask} {key payload : String}
    (h : Sound cfg S w) (hcommits : Commits w l i t key payload) :
    ∃ v ttl, ValidTtl ttl ∧ w.shared.textAt key = some v ∧
      Transition cfg S t.call.request (knowledge t).now key v payload ∧
      (TxCmd.exec.run w.shared.db t.call.server).1 =
        ((w.shared.db.setSession t.call.server .fresh).setEx key ttl payload).1 := by
  obtain ⟨ttl, hvalid, hqueue⟩ := hcommits.queue
  have hruns := hcommits.runs
  have hsession := h.session i t hruns.task hruns.live
  rcases hsession.run_strings (h.allowedTx hruns) with
    ⟨-, hdirty⟩ | ⟨-, -, -, key', v, ttl', payload', hqueue', hv, htransition, hrun⟩
  · have hclean := hcommits.clean.2
    rw [hdirty rfl] at hclean
    cases hclean
  rw [hqueue] at hqueue'
  obtain ⟨rfl, rfl, rfl⟩ : key = key' ∧ ttl = ttl' ∧ payload = payload' := by
    simpa using hqueue'
  exact ⟨v, ttl, hvalid, hv, htransition, hrun⟩

/-- **What a commit has written.** -/
theorem Sound.commit_writes [DecidableEq N] {w w' : DWorld} {l : DLabel} {i : ℕ} {t : DTask}
    {key payload : String} (h : Sound cfg S w) (hcommits : Commits w l i t key payload)
    (hs : (deployment cfg S fuel).Stepped w l w') : w'.shared.textAt key = some payload := by
  obtain ⟨v, ttl, hvalid, -, -, hrun⟩ := h.commit_reads hcommits
  obtain ⟨choice, k, σ, r, -, hran, -, hexec, rfl⟩ := hcommits.runs.stepped hs
  cases exec_effect hexec with
  | plain hplain => exact hplain.elim
  | tx =>
    have hstrings := afterTx_strings w.shared t.call.server choice.delivery .exec
    rw [if_pos hran, hrun, Keyspace.setEx, if_pos hvalid] at hstrings
    show Option.map Redis.Entry.text ((w.shared.afterTx _ _ _).db.strings key) = some payload
    rw [hstrings, Keyspace.write_strings_self]
    rfl

/-- **Reads are current.** What a read is answered is the text that is there. -/
theorem Sound.read_current {w : DWorld} (h : Sound cfg S w) {i : ℕ} {t : DTask} {c : Cmd}
    {k : c.Reply → Program sig RpcResult} {choice : Choice} {σ : Shared} {r : c.Reply}
    (htask : w.tasks i = some t) (hlive : t.live = true) (hprog : t.prog = .cmd c k)
    (hexec : w.shared.exec i t.call.server choice c = some (σ, r)) {key : String}
    {text : Option String} (hread : (⟨c, r⟩ : sig.Exchange) = ⟨.get key, .ok text⟩ ∨
      (⟨c, r⟩ : sig.Exchange) = ⟨.tx (.get key), .ok text⟩) : w.shared.textAt key = text := by
  rcases hread with heq | heq
  · cases heq
    obtain ⟨-, hr⟩ := Prod.mk.inj (Option.some.inj hexec)
    rcases hd : choice.delivery with _ | ⟨err, ran, reconnected⟩
    · rw [hd] at hr
      exact Except.ok.inj hr
    · rw [hd] at hr
      cases hr
  · cases heq
    have hphase : (knowledge t).phase = .watching key := (h.allowed_of_prog htask hprog).2
    have hsession := h.session i t htask hlive
    rw [Matches, hphase] at hsession
    rcases exec_tx hexec with ⟨-, -, hr⟩ | ⟨-, err, hr⟩
    · rw [TxCmd.run, if_neg (by simp [hsession.1])] at hr
      exact (Except.ok.inj hr).symm
    · cases hr

/-- What a task comes to have seen of a key is the text that is there. -/
theorem Sound.seen_current {w : DWorld} (h : Sound cfg S w) {i : ℕ} {t : DTask} {c : Cmd}
    {k : c.Reply → Program sig RpcResult} {choice : Choice} {σ : Shared} {r : c.Reply}
    (htask : w.tasks i = some t) (hlive : t.live = true) (hprog : t.prog = .cmd c k)
    (hexec : w.shared.exec i t.call.server choice c = some (σ, r)) {key : String}
    {text : Option String} (hseen : ((knowledge t).after c r).seen = some (key, text)) :
    (knowledge t).seen = some (key, text) ∨ w.shared.textAt key = text := by
  rcases seen_after (knowledge t) c r with hsame | hnone | ⟨key', text', hread, heq⟩
  · exact .inl (hsame ▸ hseen)
  · rw [hnone] at hseen
    cases hseen
  · obtain ⟨rfl, rfl⟩ := Prod.mk.inj (Option.some.inj (hread.symm.trans hseen))
    exact .inr (h.read_current htask hlive hprog hexec heq)

/-! ### What is stored -/

/-- What a change leaves at the key: nothing, what was stored on the shared connection, or the
outcome of a transition, which is no tombstone. -/
theorem Change.text_cases {w : DWorld} {l : DLabel} {key : String} {text : Option String}
    (h : Change cfg S w l key text) (hforeign : ¬Foreign key l) :
    (text = none ∧ (l = .env (.expire key) ∨ ∃ i t, Runs w l i t (.del key))) ∨
      (∃ i t payload, text = some payload ∧ Stores w l i t key payload) ∨
      ∃ payload status, text = some payload ∧ HasStatus S payload status ∧ status ≠ "deleted" := by
  cases h with
  | @transition i t v payload hcommits hv htransition =>
    obtain ⟨stored, updated, -, hpayload, hmoves⟩ := htransition.moves
    refine .inr (.inr ⟨payload, ?_⟩)
    cases hmoves with
    | claims hfrom hpending hto =>
      exact ⟨"in_progress", rfl, ⟨updated, .inr hpayload, hto⟩, by decide⟩
    | completes hfrom hto => exact ⟨"completed", rfl, ⟨updated, .inr hpayload, hto⟩, by decide⟩
    | fails hfrom hto => exact ⟨"failed", rfl, ⟨updated, .inr hpayload, hto⟩, by decide⟩
  | stored hstores => exact .inr (.inl ⟨_, _, _, rfl, hstores⟩)
  | removed hruns => exact .inl ⟨rfl, .inr ⟨_, _, hruns⟩⟩
  | expired hlabel => exact .inl ⟨rfl, .inl hlabel⟩
  | foreignSet hlabel => exact absurd (.inl ⟨_, hlabel⟩) hforeign
  | foreignDel hlabel => exact absurd (.inr hlabel) hforeign

/-- Every text that is stored at `key`, and every text that a task has read there, satisfies
`P`. -/
structure AllTexts (key : String) (P : String → Prop) (w : DWorld) : Prop where
  stored : ∀ v, w.shared.textAt key = some v → P v
  seen : ∀ i t v, w.tasks i = some t → (knowledge t).seen = some (key, some v) → P v

theorem Initial.allTexts {key : String} {P : String → Prop} {w : DWorld} (hw : Initial w)
    (h : ∀ v, w.shared.textAt key = some v → P v) : AllTexts key P w := by
  refine ⟨h, fun i t v ht => ?_⟩
  rw [hw.tasks i] at ht
  cases ht

/-- **The rule for texts.** A property of all texts is kept by a step that leaves no text
without it: what a task comes to read is what is stored. -/
theorem AllTexts.step [DecidableEq N] {P : String → Prop} {key : String} {w w' : DWorld}
    {l : DLabel} (hI : AllTexts key P w) (h : Sound cfg S w)
    (hs : (deployment cfg S fuel).Stepped w l w')
    (hnew : ∀ v, w'.shared.textAt key = some v → Change cfg S w l key (some v) → P v) :
    AllTexts key P w' := by
  constructor
  · intro v hv
    rcases h.change hs key with hsame | hchange
    · exact hI.stored v (hsame ▸ hv)
    · exact hnew v hv (hv ▸ hchange)
  · intro j u v hu hseen
    rcases hs.task_cases hu with ⟨ht, -⟩ | ⟨call, -, rfl⟩ |
      ⟨t, c, k, r, σ, choice, rfl, ht, hlive, hprog, hexec, -, rfl⟩ | ⟨t, -, ht, rfl⟩
    · exact hI.seen j u v ht hseen
    · cases hseen
    · rw [knowledge_advance] at hseen
      rcases h.seen_current ht hlive hprog hexec hseen with hbefore | hcurrent
      · exact hI.seen j t v ht hbefore
      · exact hI.stored v hcurrent
    · exact hI.seen j t v ht hseen

/-- Every record that can be read at `key` satisfies `P`. -/
def AllStored (S : Serde N) (key : String) (P : StoredResponse N → Prop) (w : DWorld) : Prop :=
  ∀ v stored, w.shared.textAt key = some v → StoredResponse.ofText S v = .ok stored → P stored

theorem AllStored.of_toText {key payload : String} {record : StoredResponse N}
    {P : StoredResponse N → Prop} {w : DWorld} (htext : w.shared.textAt key = some payload)
    (hpayload : record.toText S = .ok payload) (hrecord : P (record.reread S)) :
    AllStored S key P w := by
  intro v stored hv hstored
  obtain rfl : payload = v := Option.some.inj (htext.symm.trans hv)
  rw [StoredResponse.ofText_toText hpayload hstored]
  exact hrecord

theorem AllStored.of_absent {key : String} {P : StoredResponse N → Prop} {w : DWorld}
    (htext : w.shared.textAt key = none) : AllStored S key P w := by
  intro v stored hv
  rw [htext] at hv
  cases hv

/-- What is stored on the shared connection is there afterwards, with an expiry. -/
theorem Stores.strings [DecidableEq N] {w w' : DWorld} {l : DLabel} {i : ℕ} {t : DTask}
    {key payload : String} (h : Stores w l i t key payload)
    (hs : (deployment cfg S fuel).Stepped w l w') : ∃ ttl : UInt64, ValidTtl ttl ∧
      w'.shared.db.strings key = some ⟨payload, some ttl.toNat⟩ := by
  obtain ⟨ttl, hvalid, hruns⟩ := h.runs
  obtain ⟨choice, k, σ, r, -, hran, -, hexec, rfl⟩ := hruns.stepped hs
  cases exec_effect hexec with
  | plain hplain => exact hplain.elim
  | setEx =>
    refine ⟨ttl, hvalid, ?_⟩
    show (w.shared.runIf _ _).db.strings key = _
    rw [Shared.runIf, if_pos hran, Keyspace.setEx, if_pos hvalid]
    exact w.shared.db.write_strings_self key _

theorem Stores.writes [DecidableEq N] {w w' : DWorld} {l : DLabel} {i : ℕ} {t : DTask}
    {key payload : String} (h : Stores w l i t key payload)
    (hs : (deployment cfg S fuel).Stepped w l w') : w'.shared.textAt key = some payload := by
  obtain ⟨ttl, -, hstrings⟩ := h.strings hs
  show (w'.shared.db.strings key).map Redis.Entry.text = some payload
  rw [hstrings]
  rfl

/-- **The rule for records.** A property that the lifecycle preserves, that tombstones have and
that the records written by clients have, is kept by every step that is not somebody else's
write. -/
theorem AllStored.step [DecidableEq N] {P : StoredResponse N → Prop} {key : String}
    {w w' : DWorld} {l : DLabel}
    (hI : AllStored S key P w) (h : Sound cfg S w)
    (hs : (deployment cfg S fuel).Stepped w l w') (hforeign : ¬Foreign key l)
    (hmoves : ∀ stored updated, stored.dropNull = stored → P stored → Moves stored updated →
      P (updated.reread S))
    (htombstone : ∀ stored id, P ((tombstoneOf stored id).reread S))
    (hclient : ∀ record, ClientStores cfg S w l key record → P (record.reread S)) :
    AllStored S key P w' := by
  rcases h.change hs key with hsame | hchange
  · intro v stored hv
    exact hI v stored (hsame ▸ hv)
  generalize htext : w'.shared.textAt key = text at hchange
  cases hchange with
  | transition hcommits hv htransition =>
    obtain ⟨stored, updated, hstored, hpayload, hmove⟩ := htransition.moves
    exact .of_toText htext hpayload (hmoves stored updated
      (StoredResponse.dropNull_of_ofText hstored) (hI _ stored hv hstored) hmove)
  | @stored i t record payload hstores hpayload hwrites =>
    generalize hrequest : t.call.request = request at hwrites
    cases hwrites with
    | client hwrite hfound =>
      exact .of_toText htext hpayload
        (hclient record ⟨i, t, payload, hstores, hpayload, hrequest ▸ hwrite⟩)
    | tombstone hfound hlive hflight => exact .of_toText htext hpayload (htombstone _ _)
  | removed | expired => exact .of_absent htext
  | foreignSet hlabel => exact absurd (.inl ⟨_, hlabel⟩) hforeign
  | foreignDel hlabel => exact absurd (.inr hlabel) hforeign

end ResponsesApiStore
