import ResponsesApiStore.System.Execution

/-!
# The reconciled flag

A reconcile request answers with a record and with a flag. The flag is computed by comparing the
record it read first with the record it returns, so it also tells of what others have done to
the record in between: a reconcile that finds the job claimed answers that it has reconciled it
(`flag_without_commit`). While no other client puts another record in its place, the flag is set
exactly if the request has itself committed the stale failure (`reconciled_iff_commits`).

`Reading` is what the program has read of the key: first; last, which an `EXEC` invalidates; and
what a successful `EXEC` has replaced. `Settles` says how the record that is returned comes from
it.
-/

namespace ResponsesApiStore

open Json (Value Serde)
open Redis (Error)
open Interaction (Machine World Label Program Protocol)
open Interaction.Program

variable {N : Type}

/-! ### What the program goes by -/

/-- What was read of a key: the first time, if at all; the last time since the last `EXEC`; and
what a successful `EXEC` replaced. -/
structure Reading where
  first : Option (Option String)
  last : Option String
  committed : Option String

/-- A read of the key was answered. -/
def Reading.read (g : Reading) (text : Option String) : Reading :=
  { g with first := g.first.or (some text), last := text }

/-- The reading after an exchange. -/
def nextReading (key : String) (g : Reading) : (c : Cmd) → c.Reply → Reading
  | .get k, reply | .tx (.get k), reply => if k = key then g.read reply.toOption.join else g
  | .tx .exec, .ok (some _) => { g with last := none, committed := g.last }
  | .tx .exec, _ => { g with last := none }
  | _, _ => g

/-- The protocol that follows the reading of a key and permits everything. -/
def readings (key : String) : Protocol sig Reading := ⟨fun _ _ => True, nextReading key⟩

@[simp]
theorem nextReading_get (key : String) (g : Reading) (reply : Except Error (Option String)) :
    nextReading key g (.get key) reply = g.read reply.toOption.join := by
  simp only [nextReading, if_true]

@[simp]
theorem nextReading_txGet (key : String) (g : Reading) (reply : Except Error (Option String)) :
    nextReading key g (.tx (.get key)) reply = g.read reply.toOption.join := by
  simp only [nextReading, if_true]

/-- After the first read, nothing is replaced yet. -/
structure Begun (text : Option String) (g : Reading) : Prop where
  first : g.first = some text
  committed : g.committed = none

theorem Begun.read {text : Option String} {g : Reading} (h : Begun text g)
    (text' : Option String) : Begun text (g.read text') := by
  refine ⟨?_, h.committed⟩
  rw [Reading.read, h.first]
  rfl

section Programs

variable {cfg : StoreConfig} {S : Serde N} {id : String} {g : Reading} {first : Option String}

/-- How a record comes from what was read: it was read last and nothing was replaced, or it is
the stale failure of the record that was replaced. -/
def Settles (S : Serde N) (id : String) (g : Reading) (record : StoredResponse N) : Prop :=
  (g.committed = none ∧ ∃ v, g.last = some v ∧ StoredResponse.ofText S v = .ok record) ∨
    ∃ v stored, g.committed = some v ∧ StoredResponse.ofText S v = .ok stored ∧
      record = applyStaleFailure stored id

/-- What is known at the end of an attempt. -/
def SettlesAttempt (S : Serde N) (id : String) (first : Option String) (g : Reading)
    (r : Except Fault (Option (StoredResponse N))) : Prop :=
  match r with
  | .ok (some record) => g.first = some first ∧ Settles S id g record
  | _ => Begun first g

/-- What is known at the end of a reconcile. -/
def SettlesResult (S : Serde N) (id : String) (first : Option String) (g : Reading)
    (r : Except Fault (StoredResponse N)) : Prop :=
  ∀ record, r = .ok record → g.first = some first ∧ Settles S id g record

theorem settlesResult_error {fault : Fault} : SettlesResult S id first g (.error fault) := by
  rintro record ⟨⟩

theorem settles_commit {key raw payload : String} {ttl : UInt64} {stored : StoredResponse N}
    (hraw : StoredResponse.ofText S raw = .ok stored) (hlast : g.last = some raw)
    (hg : Begun first g) :
    (ResponseStore.commit key ttl payload >>= fun won =>
      if won then pure (some (applyStaleFailure stored id)) else pure none :
        Act (Option (StoredResponse N))).run.Follows (readings key)
          (SettlesAttempt S id first) g := by
  simp only [ResponseStore.commit, follows_except_bind_iff, follows_storage, follows_return,
    send, call, follows_cmd, follows_ret]
  refine ⟨trivial, fun multi => ?_⟩
  rcases multi with e | _
  · exact hg
  refine ⟨trivial, fun setEx => ?_⟩
  rcases setEx with e | _
  · exact hg
  refine ⟨trivial, fun exec => ?_⟩
  rcases exec with e | (_ | n)
  · exact ⟨hg.first, hg.committed⟩
  · exact ⟨hg.first, hg.committed⟩
  · exact ⟨hg.first, .inr ⟨raw, stored, hlast, hraw, rfl⟩⟩

theorem settles_attempt {now staleSeconds : Int64} (hg : Begun first g) :
    (ResponseStore.reconcileStaleTransactionAttempt cfg S (ResponseStore.key cfg id) id now
      staleSeconds).run.Follows (readings (ResponseStore.key cfg id))
        (SettlesAttempt S id first) g := by
  simp only [ResponseStore.reconcileStaleTransactionAttempt, follows_except_bind_iff,
    follows_storage, send, call, follows_cmd, follows_ret]
  refine ⟨trivial, fun watch => ?_⟩
  rcases watch with e | _
  · exact hg
  refine ⟨trivial, fun get => ?_⟩
  have hread : Begun first (nextReading (ResponseStore.key cfg id) g
      (.tx (.get (ResponseStore.key cfg id))) get) := by
    rw [nextReading_txGet]
    exact hg.read _
  rcases get with e | (_ | raw)
  · exact hread
  · simp only [Except.mapError, follows_except_bind_iff, follows_ignore, follows_raise]
    exact ⟨trivial, fun _ => hread⟩
  have hlast : (nextReading (ResponseStore.key cfg id) g (.tx (.get (ResponseStore.key cfg id)))
      (.ok (some raw))).last = some raw := by
    rw [nextReading_txGet]
    rfl
  simp only [Except.mapError]
  rcases hstored : StoredResponse.ofText S raw with e | stored
  · simp only [follows_except_bind_iff, follows_ignore, follows_raise]
    exact ⟨trivial, fun _ => hread⟩
  dsimp only
  split_ifs
  · simp only [follows_except_bind_iff, follows_ignore, follows_return]
    exact ⟨trivial, fun _ => ⟨hread.first, .inl ⟨hread.committed, raw, hlast, hstored⟩⟩⟩
  rcases (applyStaleFailure stored id).toText S with e | payload
  · simp only [follows_except_bind_iff, follows_ignore, follows_raise]
    exact ⟨trivial, fun _ => hread⟩
  rw [follows_except_bind_iff]
  simp only [follows_outcome, follows_storage, follows_cmd, follows_ret]
  refine ⟨trivial, fun ttl => ?_⟩
  rcases ttl with e | ttl
  · simp only [Except.mapError, follows_except_bind_iff, follows_ignore, follows_throw]
    exact ⟨trivial, fun _ => hread⟩
  · exact settles_commit hstored hlast hread

/-- A retry loop goes on from an attempt that has replaced nothing, and its own commands are
not about the key. -/
theorem settles_round {key : String} {attempt : Act (Option (StoredResponse N))} {left : ℕ}
    {next : Act (StoredResponse N)}
    (hattempt : attempt.run.Follows (readings key) (SettlesAttempt S id first) g)
    (hnext : ∀ g', Begun first g' →
      next.run.Follows (readings key) (SettlesResult S id first) g') :
    (ResponseStore.round attempt left next).run.Follows (readings key)
      (SettlesResult S id first) g := by
  simp only [ResponseStore.round, ResponseStore.locked, follows_except_bind_iff, ask,
    follows_lift, follows_ignore, follows_outcome, follows_return, send, call, follows_cmd,
    follows_ret]
  refine ⟨trivial, fun _ => ⟨trivial, fun _ => hattempt.mono fun g' r hr => ⟨trivial, fun _ => ?_⟩⟩⟩
  rcases r with fault | (_ | record)
  · rcases fault with (_ | _ | _ | _ | err | _) | _ | _
    case error.storage =>
      simp only [ResponseStore.resetTransactionConnection, follows_except_bind_iff,
        follows_storage, ask, follows_lift, send, call, follows_cmd, follows_ret]
      refine ⟨trivial, fun reply => ?_⟩
      rcases reply with e | _
      · exact settlesResult_error
      refine ⟨trivial, fun _ => ⟨trivial, fun _ => ⟨trivial, fun _ => ?_⟩⟩⟩
      split_ifs
      · exact settlesResult_error
      · exact hnext _ hr
    all_goals exact settlesResult_error
  · exact hnext _ hr
  · rintro record' ⟨⟩
    exact hr

theorem settles_reconcileStaleAtomic {now staleSeconds : Int64} (hg : Begun first g) :
    (ResponseStore.reconcileStaleAtomic cfg S id now staleSeconds).run.Follows
      (readings (ResponseStore.key cfg id)) (SettlesResult S id first) g := by
  rw [ResponseStore.reconcileStaleAtomic]
  induction ResponseStore.maxAttempts generalizing g with
  | zero =>
    rw [ResponseStore.reconcileStaleAttempts, follows_except_bind_iff, follows_load_iff]
    refine ⟨trivial, fun reply => ?_⟩
    have hread := hg.read reply.toOption.join
    rcases reply with e | (_ | text)
    · exact settlesResult_error
    · exact settlesResult_error
    rcases hstored : StoredResponse.ofText S text with e | stored
    · simp only [ResponseStore.decode, hstored, Except.mapError, Except.map]
      exact settlesResult_error
    simp only [ResponseStore.decode, hstored, Except.mapError, Except.map]
    rintro record ⟨⟩
    have hstep : (readings (ResponseStore.key cfg id)).next g (.get (ResponseStore.key cfg id))
        (.ok (some text)) = g.read (some text) := nextReading_get _ g _
    rw [hstep]
    exact ⟨hread.first, .inl ⟨hread.committed, text, rfl, hstored⟩⟩
  | succ left ih =>
    rw [ResponseStore.reconcileStaleAttempts]
    exact settles_round (settles_attempt hg) fun g' hg' => ih hg'

/-- A reconcile that starts with the record it is given as the last one read. -/
theorem settles_reconcileStaleResponse {text : String} {stored : StoredResponse N}
    {staleSeconds : Int64} (hg : Begun (some text) g) (hlast : g.last = some text)
    (hstored : StoredResponse.ofText S text = .ok stored) :
    (ResponseStore.reconcileStaleResponse cfg S id stored staleSeconds).run.Follows
      (readings (ResponseStore.key cfg id)) (SettlesResult S id (some text)) g := by
  have hback : SettlesResult S id (some text) g (.ok stored) := by
    rintro record ⟨⟩
    exact ⟨hg.first, .inl ⟨hg.committed, text, hlast, hstored⟩⟩
  rw [ResponseStore.reconcileStaleResponse]
  split_ifs
  · exact hback
  simp only [follows_except_bind_iff, ask, follows_lift, send, call, follows_cmd, follows_ret]
  refine ⟨trivial, fun now => ?_⟩
  split_ifs
  · exact hback
  · exact settles_reconcileStaleAtomic hg

/-- What the answer of a reconcile request says about what it has read. -/
def Flagged (S : Serde N) [DecidableEq N] (id : String) (g : Reading) (result : RpcResult) :
    Prop :=
  ∀ record flag, result = .ok (.reconciled record flag) →
    ∃ text existing updated, g.first = some (some text) ∧
      StoredResponse.ofText S text = .ok existing ∧ flag = decide (existing ≠ updated) ∧
      Settles S id g updated

theorem flagged_error [DecidableEq N] {fault : RpcFault} : Flagged S id g (.error fault) := by
  rintro record flag ⟨⟩

/-- **What a reconcile request goes by.** Its answer compares what it read first with what it
came to read or to write. -/
theorem serve_flagged [DecidableEq N] {fuel : ℕ} {seconds : Int64} :
    (serve cfg S fuel (.reconcileStaleResponse id seconds)).Follows
      (readings (ResponseStore.key cfg id)) (Flagged S id) ⟨none, none, none⟩ := by
  show (reconcileStaleResponse cfg S id seconds).run.Follows _ _ _
  rw [reconcileStaleResponse]
  split_ifs
  · exact flagged_error
  rw [follows_except_bind_iff, follows_rpc, ResponseStore.get, follows_except_bind_iff,
    follows_load_iff]
  refine ⟨trivial, fun reply => ?_⟩
  rcases reply with e | (_ | text)
  · exact flagged_error
  · exact flagged_error
  rcases hexisting : StoredResponse.ofText S text with e | existing
  · simp only [ResponseStore.decode, hexisting, Except.mapError, Except.map]
    exact flagged_error
  simp only [ResponseStore.decode, hexisting, Except.mapError, Except.map, Bool.false_eq_true,
    if_false]
  split_ifs
  · exact flagged_error
  have hstep : (readings (ResponseStore.key cfg id)).next ⟨none, none, none⟩
      (.get (ResponseStore.key cfg id)) (.ok (some text)) =
      ⟨some (some text), some text, none⟩ := nextReading_get _ _ _
  rw [hstep, follows_return]
  simp only [follows_except_bind_iff, follows_rpc, follows_ofStatus, follows_answer]
  refine (settles_reconcileStaleResponse ⟨rfl, rfl⟩ rfl hexisting).mono ?_
  rintro g (fault | updated) hresult
  · exact flagged_error
  obtain ⟨hfirst, hsettles⟩ := hresult updated rfl
  simp only [Except.mapError]
  rcases coreToProto S id updated with status | record
  · exact flagged_error
  · rintro record' flag ⟨⟩
    exact ⟨text, existing, updated, hfirst, hexisting, rfl, hsettles⟩

end Programs

/-! ### The reading of a task -/

/-- What a task has read of a key. -/
def reading (key : String) (t : DTask) : Reading :=
  t.transcript.foldl (fun g e => nextReading key g e.1 e.2) ⟨none, none, none⟩

@[simp]
theorem reading_advance (key : String) (t : DTask) (c : Cmd)
    (k : c.Reply → Program sig RpcResult) (r : c.Reply) :
    reading key (t.advance (S := sig) c k r) = nextReading key (reading key t) c r := by
  simp [reading]

/-- What an exchange does to the reading: nothing, or it is a read, or an `EXEC`. -/
theorem nextReading_cases (key : String) (g : Reading) (c : Cmd) (r : c.Reply) :
    nextReading key g c r = g ∨
      (∃ text, nextReading key g c r = g.read text ∧ (text = none ∨
        (⟨c, r⟩ : sig.Exchange) = ⟨.get key, .ok text⟩ ∨
        (⟨c, r⟩ : sig.Exchange) = ⟨.tx (.get key), .ok text⟩)) ∨
      nextReading key g c r = { g with last := none } ∨
      ∃ n, (⟨c, r⟩ : sig.Exchange) = ⟨.tx .exec, .ok (some n)⟩ ∧
        nextReading key g c r = { g with last := none, committed := g.last } := by
  cases c with
  | get k =>
    by_cases hk : k = key
    · subst hk
      rw [nextReading_get]
      rcases r with e | text
      · exact .inr (.inl ⟨none, rfl, .inl rfl⟩)
      · exact .inr (.inl ⟨text, rfl, .inr (.inl rfl)⟩)
    · exact .inl (if_neg hk)
  | tx c =>
    cases c with
    | get k =>
      by_cases hk : k = key
      · subst hk
        rw [nextReading_txGet]
        rcases r with e | text
        · exact .inr (.inl ⟨none, rfl, .inl rfl⟩)
        · exact .inr (.inl ⟨text, rfl, .inr (.inr rfl)⟩)
      · exact .inl (if_neg hk)
    | exec =>
      rcases r with e | (_ | n)
      · exact .inr (.inr (.inl rfl))
      · exact .inr (.inr (.inl rfl))
      · exact .inr (.inr (.inr ⟨n, rfl, rfl⟩))
    | _ => exact .inl rfl
  | _ => exact .inl rfl

/-- The first reading stays the first. -/
theorem first_nextReading (key : String) {g : Reading} {text : Option String}
    (h : g.first = some text) (c : Cmd) (r : c.Reply) :
    (nextReading key g c r).first = some text := by
  rcases nextReading_cases key g c r with hsame | ⟨text', hread, -⟩ | hlast | ⟨n, -, hexec⟩
  · rw [hsame, h]
  · rw [hread, Reading.read, h]
    rfl
  · rw [hlast]
    exact h
  · rw [hexec]
    exact h

/-- Before the first reading nothing is known of the key. -/
theorem reading_of_first_none {key : String} {t : DTask} (h : (reading key t).first = none) :
    reading key t = ⟨none, none, none⟩ ∧ ∀ text, (knowledge t).seen ≠ some (key, text) := by
  rw [reading] at h ⊢
  rw [knowledge]
  generalize t.transcript = transcript at h ⊢
  induction transcript using List.reverseRecOn with
  | nil =>
    refine ⟨rfl, fun text h => ?_⟩
    cases h
  | append_singleton es e ih =>
    rw [List.foldl_concat] at h ⊢
    rw [List.foldl_concat]
    obtain ⟨c, r⟩ := e
    have hbefore : (es.foldl (fun g e => nextReading key g e.1 e.2) ⟨none, none, none⟩).first =
        none := by
      by_contra hsome
      obtain ⟨text, htext⟩ := Option.ne_none_iff_exists'.mp hsome
      rw [first_nextReading key htext] at h
      cases h
    obtain ⟨hnone, hseen⟩ := ih hbefore
    rw [hnone] at h ⊢
    refine ⟨?_, fun text htext => ?_⟩
    · rcases nextReading_cases key ⟨none, none, none⟩ c r with hsame | ⟨text, hread, -⟩ | hlast |
        ⟨n, -, hexec⟩
      · exact hsame
      · rw [hread] at h
        cases h
      · exact hlast
      · exact hexec
    · rcases seen_after (es.foldl (fun g (e : sig.Exchange) => g.after e.1 e.2) .init) c r with
        hsame | hlost | ⟨key', text', hread, heq⟩
      · exact hseen text (hsame ▸ htext)
      · rw [hlost] at htext
        cases htext
      · obtain ⟨rfl, rfl⟩ := Prod.mk.inj (Option.some.inj (hread.symm.trans htext))
        rcases heq with heq | heq
        · cases heq
          rw [nextReading_get] at h
          cases h
        · cases heq
          rw [nextReading_txGet] at h
          cases h

/-! ### Steps -/

section Steps

variable {cfg : StoreConfig} {S : Serde N} {fuel : ℕ} {w w' : DWorld} {l : DLabel} {i : ℕ}
  {t : DTask} {id : String} {seconds : Int64}

/-- Step `l` commits at the key of `id` for task `i`. -/
def CommitsAs (cfg : StoreConfig) (i : ℕ) (id : String) (w : DWorld) (l : DLabel) : Prop :=
  ∃ t payload, Commits w l i t (ResponseStore.key cfg id) payload

theorem CommitsAs.label (h : CommitsAs cfg i id w l) : ∃ choice, l = .act i choice := by
  obtain ⟨t, payload, hcommits⟩ := h
  obtain ⟨choice, hl, -⟩ := hcommits.runs.label
  exact ⟨choice, hl⟩

/-- What a reconcile request replaces, and by what. -/
theorem CommitsAs.reads (h : Sound cfg S w) (hcommits : CommitsAs cfg i id w l)
    (htask : w.tasks i = some t)
    (hrequest : t.call.request = .reconcileStaleResponse id seconds) :
    ∃ v payload stored, Commits w l i t (ResponseStore.key cfg id) payload ∧
      w.shared.textAt (ResponseStore.key cfg id) = some v ∧
      StoredResponse.ofText S v = .ok stored ∧ shouldReconcileStale stored = true ∧
      (applyStaleFailure stored id).toText S = .ok payload := by
  obtain ⟨t', payload, hcommits⟩ := hcommits
  obtain rfl : t = t' := Option.some.inj (htask.symm.trans hcommits.runs.task)
  obtain ⟨v, -, -, hv, htransition, -⟩ := h.commit_reads hcommits
  rw [hrequest] at htransition
  generalize hkey : ResponseStore.key cfg id = key at htransition hv hcommits
  generalize (knowledge t).now = now at htransition
  cases htransition with
  | @stale _ id' _ _ _ _ stored hreconciles hstored hqueued hstale hpayload =>
    obtain rfl : id = id' := responseStoreKey_inj.mp hkey
    exact ⟨v, payload, stored, hcommits, hv, hstored, hqueued, hpayload⟩

/-- The stale failure of a record is not stale. -/
theorem not_shouldReconcileStale_of_payload {stored stored' : StoredResponse N} {payload : String}
    (hpayload : (applyStaleFailure stored id).toText S = .ok payload)
    (hread : StoredResponse.ofText S payload = .ok stored') :
    shouldReconcileStale stored' = false ∧ storedResponseStatus stored' = some "failed" := by
  have hstatus : storedResponseStatus stored' = some "failed" := by
    rw [StoredResponse.ofText_toText hpayload hread, storedResponseStatus_reread]
    exact storedResponseStatus_applyStaleFailure stored id
  exact ⟨by simp [shouldReconcileStale, hstatus], hstatus⟩

variable [DecidableEq N]

/-- A step of a reconcile request that does not commit leaves the text of the key alone, and
what it reads is that text. -/
theorem own_step {choice : Choice} {c : Cmd} {k : c.Reply → Program sig RpcResult} {σ : Shared}
    {r : c.Reply} (h : Sound cfg S w) (hs : (deployment cfg S fuel).Stepped w (.act i choice) w')
    (htask : w.tasks i = some t) (hlive : t.live = true) (hprog : t.prog = .cmd c k)
    (hexec : w.shared.exec i t.call.server choice c = some (σ, r))
    (hrequest : t.call.request = .reconcileStaleResponse id seconds)
    (hnot : ¬CommitsAs cfg i id w (.act i choice)) :
    w'.shared.textAt (ResponseStore.key cfg id) = w.shared.textAt (ResponseStore.key cfg id) ∧
      (nextReading (ResponseStore.key cfg id) (reading (ResponseStore.key cfg id) t) c
        r).committed = (reading (ResponseStore.key cfg id) t).committed ∧
      ∀ v, (nextReading (ResponseStore.key cfg id) (reading (ResponseStore.key cfg id) t) c
        r).last = some v → (reading (ResponseStore.key cfg id) t).last = some v ∨
          w.shared.textAt (ResponseStore.key cfg id) = some v := by
  have hown : ∀ {j u c'}, Runs w (.act i choice) j u c' → j = i ∧ u = t := by
    intro j u c' hruns
    obtain ⟨choice', hlabel, -⟩ := hruns.label
    obtain ⟨rfl, -⟩ := Label.act.inj hlabel
    exact ⟨rfl, Option.some.inj (hruns.task.symm.trans htask)⟩
  constructor
  · rcases h.change hs (ResponseStore.key cfg id) with hsame | hchange
    · exact hsame
    generalize w'.shared.textAt (ResponseStore.key cfg id) = text at hchange
    cases hchange with
    | @transition j u v payload hcommits =>
      obtain ⟨rfl, rfl⟩ := hown hcommits.runs
      exact absurd ⟨u, payload, hcommits⟩ hnot
    | @stored j u record payload hstores hpayload hwrites =>
      obtain ⟨ttl, -, hruns⟩ := hstores.runs
      obtain ⟨rfl, rfl⟩ := hown hruns
      rw [hrequest] at hwrites
      rcases hwrites.client_or_tombstone with hclient | ⟨_, _, hdelete, -⟩
      · cases hclient
      · cases hdelete
    | @removed j u id' hruns hdelete =>
      obtain ⟨rfl, rfl⟩ := hown hruns
      rw [hrequest] at hdelete
      cases hdelete
    | expired hlabel | foreignSet hlabel | foreignDel hlabel => cases hlabel
  · rcases nextReading_cases (ResponseStore.key cfg id) (reading (ResponseStore.key cfg id) t) c r
      with hsame | ⟨text, hread, htext⟩ | hlast | ⟨n, heq, -⟩
    · rw [hsame]
      exact ⟨rfl, fun v hv => .inl hv⟩
    · rw [hread]
      refine ⟨rfl, fun v hv => .inr ?_⟩
      obtain rfl : text = some v := hv
      exact h.read_current htask hlive hprog hexec (htext.resolve_left nofun)
    · rw [hlast]
      exact ⟨rfl, nofun⟩
    · cases heq
      obtain ⟨key, v, payload, hcommits, -, -, htransition⟩ :=
        h.commits_of_exec htask hlive hprog hexec
      obtain ⟨id', hid, rfl⟩ := htransition.key_eq
      rw [hrequest] at hid
      obtain rfl : id = id' := Option.some.inj hid
      exact absurd ⟨t, payload, hcommits⟩ hnot

/-- While the call of task `i` is running and has read the key, a step of anybody else leaves the
text of the key alone or removes it. -/
def OthersKeep (cfg : StoreConfig) (S : Serde N) (fuel i : ℕ) (key : String) (w : DWorld)
    (l : DLabel) : Prop :=
  ∀ t, w.tasks i = some t → (reading key t).first ≠ none → (∃ c k, t.prog = .cmd c k) →
    (∀ choice, l ≠ .act i choice) → ∀ w', (deployment cfg S fuel).step w l = some w' →
      w'.shared.textAt key = w.shared.textAt key ∨ w'.shared.textAt key = none

/-- What is at the key while the call is running, and what it has read, as long as it has not
replaced the text that it read first. -/
structure BeforeCommit (key text : String) (t : DTask) (w : DWorld) : Prop where
  committed : (reading key t).committed = none
  last : ∀ v, (reading key t).last = some v → v = text
  stored : (∃ c k, t.prog = .cmd c k) →
    w.shared.textAt key = none ∨ w.shared.textAt key = some text

/-- The same once the call has replaced that text by `payload`. -/
structure AfterCommit (key text payload : String) (t : DTask) (w : DWorld) : Prop where
  committed : ∀ v, (reading key t).committed = some v → v = text
  last : ∀ v, (reading key t).last = some v → v = payload
  stored : (∃ c k, t.prog = .cmd c k) →
    w.shared.textAt key = none ∨ w.shared.textAt key = some payload

/-- The text at a key after a step of somebody else. -/
theorem OthersKeep.stored {key text : String} (hok : OthersKeep cfg S fuel i key w l)
    (hs : (deployment cfg S fuel).Stepped w l w') (htask : w.tasks i = some t)
    (hfirst : (reading key t).first ≠ none) (hother : ∀ choice, l ≠ .act i choice)
    (h : (∃ c k, t.prog = .cmd c k) →
      w.shared.textAt key = none ∨ w.shared.textAt key = some text)
    (hrunning : ∃ c k, t.prog = .cmd c k) :
    w'.shared.textAt key = none ∨ w'.shared.textAt key = some text := by
  rcases hok t htask hfirst hrunning hother w' (Machine.step_eq_some_iff.mpr hs) with hsame | hnone
  · rw [hsame]
    exact h hrunning
  · exact .inl hnone

/-- **The run so far, seen from a reconcile request.** Before its first read it has not
committed; after it, the text it read first is still what there is, or the request has committed
the stale failure of it. -/
def Accounted (cfg : StoreConfig) (S : Serde N) (id : String) (took : Prop) (t : DTask)
    (w : DWorld) : Prop :=
  ((reading (ResponseStore.key cfg id) t).first = none → ¬took) ∧
  ∀ text existing, (reading (ResponseStore.key cfg id) t).first = some (some text) →
    StoredResponse.ofText S text = .ok existing →
    (¬took ∧ BeforeCommit (ResponseStore.key cfg id) text t w) ∨
    (took ∧ shouldReconcileStale existing = true ∧ ∃ payload,
      (applyStaleFailure existing id).toText S = .ok payload ∧
      AfterCommit (ResponseStore.key cfg id) text payload t w)

/-- A step of somebody else, or the one that drops the call. -/
theorem Accounted.other {took : Prop} {u : DTask} (hI : Accounted cfg S id took t w)
    (hok : OthersKeep cfg S fuel i (ResponseStore.key cfg id) w l)
    (hs : (deployment cfg S fuel).Stepped w l w') (htask : w.tasks i = some t)
    (hother : ∀ choice, l ≠ .act i choice) (hprog : u.prog = t.prog)
    (hreading : reading (ResponseStore.key cfg id) u = reading (ResponseStore.key cfg id) t) :
    Accounted cfg S id took u w' := by
  refine ⟨fun hnone => hI.1 (hreading ▸ hnone), fun text existing hfirst hexisting => ?_⟩
  rw [hreading] at hfirst
  have hread : (reading (ResponseStore.key cfg id) t).first ≠ none := by simp [hfirst]
  rcases hI.2 text existing hfirst hexisting with ⟨hnot, hbefore⟩ | ⟨htook, hqueued, payload,
    hpayload, hafter⟩
  · refine .inl ⟨hnot, hreading ▸ hbefore.committed, hreading ▸ hbefore.last, ?_⟩
    rw [hprog]
    exact hok.stored hs htask hread hother hbefore.stored
  · refine .inr ⟨htook, hqueued, payload, hpayload, hreading ▸ hafter.committed,
      hreading ▸ hafter.last, ?_⟩
    rw [hprog]
    exact hok.stored hs htask hread hother hafter.stored

/-- A step of the request itself that does not commit. -/
theorem Accounted.own {took : Prop} {choice : Choice} {c : Cmd}
    {k : c.Reply → Program sig RpcResult} {σ : Shared} {r : c.Reply}
    (hI : Accounted cfg S id took t w) (h : Sound cfg S w)
    (hs : (deployment cfg S fuel).Stepped w (.act i choice) w') (htask : w.tasks i = some t)
    (hlive : t.live = true) (hprog : t.prog = .cmd c k)
    (hexec : w.shared.exec i t.call.server choice c = some (σ, r))
    (hrequest : t.call.request = .reconcileStaleResponse id seconds)
    (hnot : ¬CommitsAs cfg i id w (.act i choice)) :
    Accounted cfg S id took (t.advance c k r) w' := by
  obtain ⟨hsame, hcommitted, hlast⟩ := own_step h hs htask hlive hprog hexec hrequest hnot
  have hrunning : ∃ c k, t.prog = .cmd c k := ⟨c, k, hprog⟩
  rcases hfirst : (reading (ResponseStore.key cfg id) t).first with _ | first
  · obtain ⟨hnone, -⟩ := reading_of_first_none hfirst
    rw [hnone] at hcommitted hlast
    refine ⟨fun _ => hI.1 hfirst, fun text existing hread hexisting => .inl ⟨hI.1 hfirst, ?_⟩⟩
    rw [reading_advance, hnone] at hread
    have hlast' : (nextReading (ResponseStore.key cfg id) ⟨none, none, none⟩ c r).last =
        some text := by
      rcases nextReading_cases (ResponseStore.key cfg id) ⟨none, none, none⟩ c r with hkept |
        ⟨text', hkept, -⟩ | hkept | ⟨n, -, hkept⟩ <;> rw [hkept] at hread ⊢
      · cases hread
      · exact Option.some.inj hread
      · cases hread
      · cases hread
    have htext : w.shared.textAt (ResponseStore.key cfg id) = some text :=
      (hlast text hlast').resolve_left nofun
    refine ⟨?_, ?_, fun _ => .inr (hsame.trans htext)⟩ <;> rw [reading_advance, hnone]
    · exact hcommitted
    · intro v hv
      exact Option.some.inj (hv.symm.trans hlast')
  · have hkept := first_nextReading (ResponseStore.key cfg id) hfirst c r
    refine ⟨fun hread => ?_, fun text existing hread hexisting => ?_⟩
    · rw [reading_advance, hkept] at hread
      cases hread
    obtain rfl : first = some text := by
      rw [reading_advance, hkept] at hread
      exact Option.some.inj hread
    rcases hI.2 text existing hfirst hexisting with ⟨hnot, hbefore⟩ | ⟨htook, hqueued, payload,
      hpayload, hafter⟩
    · refine .inl ⟨hnot, ?_, fun v hv => ?_, fun _ => hsame ▸ hbefore.stored hrunning⟩
      · rw [reading_advance, hcommitted, hbefore.committed]
      · rw [reading_advance] at hv
        rcases hlast v hv with hv | hv
        · exact hbefore.last v hv
        · rcases hbefore.stored hrunning with hnone | hsome
          · rw [hnone] at hv
            cases hv
          · exact Option.some.inj (hv.symm.trans hsome)
    · refine .inr ⟨htook, hqueued, payload, hpayload, ?_, fun v hv => ?_,
        fun _ => hsame ▸ hafter.stored hrunning⟩
      · rw [reading_advance, hcommitted]
        exact hafter.committed
      · rw [reading_advance] at hv
        rcases hlast v hv with hv | hv
        · exact hafter.last v hv
        · rcases hafter.stored hrunning with hnone | hsome
          · rw [hnone] at hv
            cases hv
          · exact Option.some.inj (hv.symm.trans hsome)

/-- A step of the request that commits: it was the first to do so. -/
theorem Accounted.commits {took : Prop} {choice : Choice} {c : Cmd}
    {k : c.Reply → Program sig RpcResult} {r : c.Reply}
    (hI : Accounted cfg S id took t w) (h : Sound cfg S w)
    (hs : (deployment cfg S fuel).Stepped w (.act i choice) w') (htask : w.tasks i = some t)
    (hprog : t.prog = .cmd c k)
    (hrequest : t.call.request = .reconcileStaleResponse id seconds)
    (hcommits : CommitsAs cfg i id w (.act i choice)) :
    Accounted cfg S id True (t.advance c k r) w' := by
  obtain ⟨v, payload, stored, hcommits, hv, hstored, hqueued, hpayload⟩ :=
    hcommits.reads h htask hrequest
  have hrunning : ∃ c k, t.prog = .cmd c k := ⟨c, k, hprog⟩
  obtain ⟨k', hexecs⟩ := hcommits.runs.prog
  rw [hprog] at hexecs
  cases hexecs
  have hread : (reading (ResponseStore.key cfg id) t).first ≠ none := by
    intro hnone
    obtain ⟨ttl, payload', hphase⟩ := h.allowedTx hcommits.runs
    have hsession := h.session i t htask hcommits.runs.live
    rw [Matches, hphase] at hsession
    obtain ⟨-, key, text, hseen, hqueue, -⟩ := hsession
    obtain ⟨ttl', -, hqueue'⟩ := hcommits.queue
    rw [hqueue'] at hqueue
    obtain ⟨rfl, -⟩ := Redis.Queued.setEx.inj (List.singleton_inj.mp hqueue)
    exact (reading_of_first_none hnone).2 _ hseen
  obtain ⟨first, hfirst⟩ := Option.ne_none_iff_exists'.mp hread
  have hkept := first_nextReading (ResponseStore.key cfg id) hfirst (.tx .exec) r
  refine ⟨fun hnone => ?_, fun text existing htext hexisting => ?_⟩
  · rw [reading_advance, hkept] at hnone
    cases hnone
  obtain rfl : first = some text := by
    rw [reading_advance, hkept] at htext
    exact Option.some.inj htext
  rcases hI.2 text existing hfirst hexisting with ⟨-, hbefore⟩ | ⟨-, -, payload', hpayload',
    hafter⟩
  · obtain rfl : v = text := by
      rcases hbefore.stored hrunning with hnone | hsome
      · rw [hnone] at hv
        cases hv
      · exact Option.some.inj (hv.symm.trans hsome)
    obtain rfl : stored = existing := Except.ok.inj (hstored.symm.trans hexisting)
    refine .inr ⟨trivial, hqueued, payload, hpayload, fun v' hv' => ?_, fun v' hv' => ?_,
      fun _ => .inr (h.commit_writes hcommits hs)⟩
    · rw [reading_advance] at hv'
      rcases r with e | (_ | n)
      · cases hbefore.committed.symm.trans hv'
      · cases hbefore.committed.symm.trans hv'
      · exact hbefore.last v' hv'
    · rw [reading_advance] at hv'
      rcases r with e | (_ | n) <;> cases hv'
  · -- the text is the stale failure already, which no reconcile replaces
    obtain rfl : v = payload' := by
      rcases hafter.stored hrunning with hnone | hsome
      · rw [hnone] at hv
        cases hv
      · exact Option.some.inj (hv.symm.trans hsome)
    rw [(not_shouldReconcileStale_of_payload hpayload' hstored).1] at hqueued
    cases hqueued

end Steps

/-! ### The guarantee -/

variable [DecidableEq N] {cfg : StoreConfig} {S : Serde N} {fuel : ℕ}

/-- In the run `ls` from `w₀` to `w`, task `i` has committed at the key of `id`. -/
def Committed (cfg : StoreConfig) (S : Serde N) (fuel i : ℕ) (id : String) (w₀ : DWorld)
    (ls : List DLabel) (w : DWorld) : Prop :=
  (deployment cfg S fuel).Takes (fun _ _ => True) (CommitsAs cfg i id) w₀ ls w

/-- The run so far is accounted for. -/
theorem accounted_of_run {w₀ w : DWorld} {ls : List DLabel} {i : ℕ} {id : String}
    {seconds : Int64} (hw : Initial w₀)
    (hrun : (deployment cfg S fuel).RunIn (OthersKeep cfg S fuel i (ResponseStore.key cfg id))
      w₀ ls w) {t : DTask} (htask : w.tasks i = some t)
    (hrequest : t.call.request = .reconcileStaleResponse id seconds) :
    Accounted cfg S id (Committed cfg S fuel i id w₀ ls w) t w := by
  refine (hrun.snoc_induction (motive := fun ls w =>
    (w.tasks i = none → ¬Committed cfg S fuel i id w₀ ls w) ∧
    ∀ t, w.tasks i = some t → t.call.request = .reconcileStaleResponse id seconds →
      Accounted cfg S id (Committed cfg S fuel i id w₀ ls w) t w) ?_ ?_).2 t htask hrequest
  · refine ⟨fun _ => ?_, fun t ht => ?_⟩
    · rintro ⟨ls₁, l, ls₂, x, y, hls, -⟩
      simp at hls
    · rw [hw.tasks i] at ht
      cases ht
  · intro ls x l y hx ih hok hs
    have hsound : Sound cfg S x := sound_of_run hw hx
    -- a step that does not commit for task `i` changes nothing about whether it has
    have hkept : ¬CommitsAs cfg i id x l →
        Committed cfg S fuel i id w₀ (ls ++ [l]) y = Committed cfg S fuel i id w₀ ls x :=
      fun hnot => propext ⟨fun h => (h.of_snoc hx.run).resolve_right hnot,
        fun h => h.snoc trivial hs⟩
    refine ⟨fun hnone => ?_, fun t ht hrequest => ?_⟩
    · have hbefore : x.tasks i = none := by
        by_contra hsome
        obtain ⟨t, ht⟩ := Option.ne_none_iff_exists'.mp hsome
        rcases hs.task_next ht with hy | ⟨_, _, _, _, _, -, -, -, -, hy⟩ | ⟨-, hy⟩ <;>
          rw [hnone] at hy <;> cases hy
      have hnot : ¬CommitsAs cfg i id x l := by
        rintro ⟨t, payload, hcommits⟩
        have htask := hcommits.runs.task
        rw [hbefore] at htask
        cases htask
      rw [hkept hnot]
      exact ih.1 hbefore
    · rcases hs.task_cases ht with ⟨hx', hother⟩ | ⟨call, rfl, rfl⟩ |
        ⟨u, c, k, r, σ, choice, rfl, hu, hlive, hprog, hexec, -, rfl⟩ | ⟨u, rfl, hu, rfl⟩
      · rw [hkept fun h => (h.label.elim fun choice hl => hother choice hl)]
        exact (ih.2 t hx' hrequest).other hok hs hx' hother rfl rfl
      · have hfree : x.tasks i = none := by
          cases hs with
          | spawn hfree => exact hfree
        rw [hkept fun h => (h.label.elim fun choice hl => by cases hl)]
        exact ⟨fun _ => ih.1 hfree, nofun⟩
      · by_cases hcommits : CommitsAs cfg i id x (.act i choice)
        · have htrue : Committed cfg S fuel i id w₀ (ls ++ [.act i choice]) y = True :=
            eq_true (hx.run.takes_last trivial hcommits hs)
          rw [htrue]
          exact (ih.2 u hu hrequest).commits hsound hs hu hprog hrequest hcommits
        · rw [hkept hcommits]
          exact (ih.2 u hu hrequest).own hsound hs hu hlive hprog hexec hrequest hcommits
      · rw [hkept fun h => (h.label.elim fun choice hl => by cases hl)]
        exact (ih.2 u hu hrequest).other hok hs hu nofun rfl rfl

/-- **The flag tells the truth while nobody interferes.** In every run in which, from the first
read of the call of task `i` to its end, nobody else puts another text at its key, an answer of
the call is flagged as reconciled exactly if the call has committed the stale failure. -/
theorem reconciled_iff_commits {w₀ w : DWorld} {ls : List DLabel} {i : ℕ} {id : String}
    {seconds : Int64} {t : DTask} {record : ProtoStoredResponse} {flag : Bool} (hw : Initial w₀)
    (hrun : (deployment cfg S fuel).RunIn (OthersKeep cfg S fuel i (ResponseStore.key cfg id))
      w₀ ls w) (htask : w.tasks i = some t)
    (hrequest : t.call.request = .reconcileStaleResponse id seconds)
    (hanswer : t.prog = .ret (.ok (.reconciled record flag))) :
    flag = true ↔ Committed cfg S fuel i id w₀ ls w := by
  have hserve : (serve cfg S fuel t.call.request).Follows (readings (ResponseStore.key cfg id))
      (Flagged S id) ⟨none, none, none⟩ := by
    rw [hrequest]
    exact serve_flagged
  have hfollows := hserve.resume (hrun.transcribed hw.tasks i t htask)
  rw [hanswer] at hfollows
  obtain ⟨text, existing, updated, hfirst, hexisting, rfl, hsettles⟩ := hfollows record flag rfl
  rw [decide_eq_true_iff]
  rcases (accounted_of_run hw hrun htask hrequest).2 text existing hfirst hexisting with
    ⟨hnot, hbefore⟩ | ⟨htook, hqueued, payload, hpayload, hafter⟩
  · refine iff_of_false (fun hne => hne ?_) hnot
    rcases hsettles with ⟨-, v, hlast, hupdated⟩ | ⟨v, stored, hcommitted, -⟩
    · obtain rfl : v = text := hbefore.last v hlast
      exact Except.ok.inj (hexisting.symm.trans hupdated)
    · exact absurd (hbefore.committed.symm.trans hcommitted) nofun
  · refine iff_of_true (fun heq => ?_) htook
    subst heq
    have hstatus : storedResponseStatus existing = some "queued" := by
      simp only [shouldReconcileStale, Bool.and_eq_true, decide_eq_true_eq] at hqueued
      exact hqueued.2
    rcases hsettles with ⟨-, v, hlast, hupdated⟩ | ⟨v, stored, -, -, hupdated⟩
    · obtain rfl : v = payload := hafter.last v hlast
      rw [(not_shouldReconcileStale_of_payload hpayload hupdated).2] at hstatus
      simp at hstatus
    · rw [hupdated, storedResponseStatus_applyStaleFailure] at hstatus
      simp at hstatus

/-! ### Runs -/

namespace Sample

/-- The response object of the stale failure. -/
def staleResponseText : String :=
  "\x7b\"background\":true,\"error\":\x7b\"message\":\"background response stale\"," ++
    "\"type\":\"server_error\"\x7d,\"id\":\"resp_1\",\"object\":\"response\"," ++
    "\"status\":\"failed\"\x7d"

def staleText : String :=
  "\x7b\"upstream\":\"openai\",\"response\":" ++ staleResponseText ++
    ",\"input\":[],\"enqueued_at\":100\x7d"

/-- The codec of the small deployment, with the texts of the stale failure. -/
def staleSerde : Serde Int64 := .ofTable (table ++
  [((applyStaleFailure queued "resp_1").toTree blank, staleText),
    ((applyStaleFailure queued "resp_1").response.1, staleResponseText)])
  (by decide +kernel) id some Serde.some_id

/-- The stale failure as it is handed out. -/
def staleRecord : ProtoStoredResponse :=
  ⟨"resp_1", "openai", staleResponseText, [], none, none, some 100⟩

/-- Only task `i` takes steps. -/
def onlyTask (i : ℕ) (_ : DWorld) : DLabel → Bool
  | .act j _ => j = i
  | .spawn .. => true
  | _ => false

theorem othersKeep_of_onlyTask {cfg : StoreConfig} {S : Serde Int64} {fuel i : ℕ} {w : DWorld}
    {l : DLabel} (h : onlyTask i w l = true) (key : String) : OthersKeep cfg S fuel i key w l := by
  intro t htask hfirst hrunning hother w' hstep
  cases Machine.step_eq_some_iff.mp hstep with
  | spawn hfree => exact .inl rfl
  | @act j choice =>
    obtain rfl : j = i := by simpa [onlyTask] using h
    exact absurd rfl (hother choice)
  | drop => cases h
  | env => cases h

/-- Task `i` sends no `EXEC`. -/
def noExec (i : ℕ) (w : DWorld) : DLabel → Bool
  | .act j _ => j ≠ i || awaits w i ≠ some (.tx .exec)
  | _ => true

theorem not_commitsAs_of_noExec {cfg : StoreConfig} {i : ℕ} {id : String} {w : DWorld} {l : DLabel}
    (h : noExec i w l = true) : ¬CommitsAs cfg i id w l := by
  rintro ⟨t, payload, hcommits⟩
  obtain ⟨choice, rfl, -⟩ := hcommits.runs.label
  simp [noExec, hcommits.runs.awaits] at h

set_option maxRecDepth 100000 in
/-- A stale job is reconciled. -/
def reconciledAlone : (deployment config staleSerde 8).Recording (onlyTask 1)
    (start (some queuedText)) (fun w =>
      requestOf w 1 = some (.reconcileStaleResponse "resp_1" 50) ∧
      returned w 1 = some (.ok (.reconciled staleRecord true))) :=
  ⟨call 1 (.reconcileStaleResponse "resp_1" 50) 11, by decide +kernel⟩

/-- The job as it is handed out once it is claimed. -/
def claimedRecord : ProtoStoredResponse :=
  ⟨"resp_1", "openai", "\x7b\"background\":true,\"id\":\"resp_1\",\"status\":\"in_progress\"\x7d",
    [], some "\x7b\"model\":\"m\"\x7d", none, some 100⟩

set_option maxRecDepth 100000 in
/-- A job is claimed between the two reads of a reconcile request. -/
def reconciledClaimed : machine.Recording (noExec 1) (start (some queuedText)) (fun w =>
    requestOf w 1 = some (.reconcileStaleResponse "resp_1" 50) ∧
    returned w 1 = some (.ok (.reconciled claimedRecord true))) :=
  ⟨call 1 (.reconcileStaleResponse "resp_1" 50) 2 ++ call 2 (.claimBackgroundResponse "resp_1") 9 ++
    turns 1 6, by decide +kernel⟩

end Sample

open Sample

/-- A reconcile request that is alone with a stale job reconciles it, and says so. -/
theorem reconciled_iff_commits_alone : ∃ w t,
    (deployment config staleSerde 8).RunIn (OthersKeep config staleSerde 8 1 key)
      (start (some queuedText)) (call 1 (.reconcileStaleResponse "resp_1" 50) 11) w ∧
    w.tasks 1 = some t ∧ t.prog = .ret (.ok (.reconciled staleRecord true)) ∧
    Committed config staleSerde 8 1 "resp_1" (start (some queuedText))
      (call 1 (.reconcileStaleResponse "resp_1" 50) 11) w := by
  have hcheck : ∀ w l, onlyTask 1 w l = true → OthersKeep config staleSerde 8 1 key w l :=
    fun w l h => othersKeep_of_onlyTask h key
  obtain ⟨w, hrun, hrequest, hreturned⟩ := reconciledAlone.exists_runIn hcheck
  obtain ⟨t, htask, hanswer⟩ := returned_eq_some hreturned
  have hrequest : t.call.request = .reconcileStaleResponse "resp_1" 50 := by
    simpa [requestOf, htask] using hrequest
  exact ⟨w, t, hrun, htask, hanswer,
    (reconciled_iff_commits (initial_start _) hrun htask hrequest hanswer).mp rfl⟩

/-- **A flag without a commit.** The job is claimed by somebody else, and the answer is that the
request has reconciled it. -/
theorem flag_without_commit : ∃ ls w t record, machine.Run (start (some queuedText)) ls w ∧
    w.tasks 1 = some t ∧ t.call.request = .reconcileStaleResponse "resp_1" 50 ∧
    t.prog = .ret (.ok (.reconciled record true)) ∧
    ¬Committed config serde 8 1 "resp_1" (start (some queuedText)) ls w := by
  have hcheck : ∀ w l, noExec 1 w l = true → ¬CommitsAs config 1 "resp_1" w l :=
    fun w l h => not_commitsAs_of_noExec h
  obtain ⟨w, hrun, hrequest, hreturned⟩ := reconciledClaimed.exists_runIn hcheck
  obtain ⟨t, htask, hanswer⟩ := returned_eq_some hreturned
  refine ⟨_, w, t, claimedRecord, hrun.run, htask, ?_, hanswer,
    hrun.not_takes fun _ _ h => h⟩
  simpa [requestOf, htask] using hrequest

end ResponsesApiStore
