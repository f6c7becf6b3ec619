import ResponsesApiStore.System.Records
import ResponsesApiStore.Redis.Delivery

/-!
# The job stream

Every step of the deployment, seen from the stream. It leaves the stream alone, or it executes
a command of a task on it, and then the discipline of the task says which command that can be
(`Sound.stream_step`). So the books of the stream stay in order (`accounts_of_run`).

A claim collects entries: whatever a reply handed to it is an entry its group has delivered
(`delivered_of_run`), and what it has seen of a key it has read after the last entries were
handed to it (`takes_read`).
-/

namespace ResponsesApiStore

open Json (Serde)
open Redis (Error StreamCmd StreamStep EntryReply StreamEntry Group entriesOf groupsOf)
open Interaction (Machine World Label)

variable {N : Type} {cfg : StoreConfig} {S : Serde N} {fuel : ℕ}

/-! ### Commands on the stream -/

theorem handed_fail (c : StreamCmd) (err : Error) : c.handed (c.fail err) = [] := by
  cases c <;> rfl

/-- A command on the stream runs, or leaves the stream alone; what is handed to the requester
was handed out. -/
theorem exec_stream {σ σ' : Shared} {i n : ℕ} {choice : Choice} {c : StreamCmd} {r : c.Reply}
    (h : σ.exec i n choice (.stream c) = some (σ', r)) :
    (σ'.stream = σ.stream ∨ choice.delivery.ran = true) ∧
      ∃ handed, StreamStep σ.stream c σ'.stream handed ∧ ∀ entry ∈ c.handed r, entry ∈ handed := by
  simp only [Shared.exec] at h
  split at h
  · obtain ⟨rfl, rfl⟩ := Prod.mk.inj (Option.some.inj h)
    exact ⟨.inl rfl, [], .same c, by simp [handed_fail]⟩
  · rename_i delivery hran
    obtain ⟨⟨s', r'⟩, hrun, heq⟩ := Option.map_eq_some_iff.mp h
    obtain ⟨rfl, rfl⟩ := Prod.mk.inj heq
    refine ⟨.inr ?_, c.handed r', StreamCmd.run_step hrun, ?_⟩
    · rcases hd : choice.delivery with _ | ⟨err, _ | _, reconnected⟩
      · rfl
      · exact absurd hd (hran err reconnected)
      · rfl
    · intro entry hentry
      rcases hd : choice.delivery with _ | ⟨err, ran, reconnected⟩ <;> rw [hd] at hentry
      · exact hentry
      · simp [Delivery.reply, handed_fail] at hentry

/-- Other commands leave the stream alone. -/
theorem exec_stream_same {σ σ' : Shared} {i n : ℕ} {choice : Choice} {c : Cmd} {r : c.Reply}
    (h : σ.exec i n choice c = some (σ', r)) (hc : ∀ sc, c ≠ .stream sc) :
    σ'.stream = σ.stream := by
  cases c with
  | stream sc => exact absurd rfl (hc sc)
  | setEx key ttl text | del key =>
    obtain ⟨rfl, -⟩ := Prod.mk.inj (Option.some.inj h)
    simp only [Shared.runIf]
    split_ifs <;> rfl
  | tx c =>
    obtain ⟨rfl, -⟩ := Prod.mk.inj (Option.some.inj h)
    simp only [Shared.runIf]
    split_ifs <;> rfl
  | lock =>
    simp only [Shared.exec] at h
    split at h <;> cases h
    rfl
  | capabilities =>
    simp only [Shared.exec] at h
    repeat' split at h
    all_goals
      cases h
      rfl
  | cursorScript key cursor =>
    simp only [Shared.exec] at h
    split at h <;> cases h
    · simp only [Shared.runIf]
      split_ifs <;> rfl
    · rfl
  | _ =>
    obtain ⟨rfl, -⟩ := Prod.mk.inj (Option.some.inj h)
    rfl

theorem env_stream {σ σ' : Shared} {e : Env} (h : σ.env e = some σ') :
    σ'.stream = σ.stream := by
  cases e with
  | expire key | age key seconds =>
    obtain ⟨db, -, rfl⟩ := Option.map_eq_some_iff.mp h
    rfl
  | foreignSet key entry | foreignDel key | clock now =>
    obtain rfl := Option.some.inj h
    rfl

variable [DecidableEq N]

/-- **Seen from the stream.** A step leaves the stream alone, or a task has a command executed
on it that its discipline allows. -/
theorem Sound.stream_step {w w' : DWorld} {l : DLabel} (h : Sound cfg S w)
    (hs : (deployment cfg S fuel).Stepped w l w') :
    w'.shared.stream = w.shared.stream ∨ ∃ i t c handed, Runs w l i t (.stream c) ∧
      AllowedStream cfg S t.call.request (knowledge t) c ∧
      StreamStep w.shared.stream c w'.shared.stream handed := by
  cases hs with
  | spawn hfree => exact .inl rfl
  | @act i choice t c k σ r htask hlive hprog hexec =>
    replace hexec : w.shared.exec i t.call.server choice c = some (σ, r) := hexec
    by_cases hc : ∃ sc, c = .stream sc
    · obtain ⟨sc, rfl⟩ := hc
      obtain ⟨hsame | hran, handed, hstep, -⟩ := exec_stream hexec
      · exact .inl hsame
      · exact .inr ⟨i, t, sc, handed, ⟨htask, hlive, ⟨k, hprog⟩, choice, rfl, hran⟩,
          (h.allowed_of_prog htask hprog).2.2, hstep⟩
    · exact .inl (exec_stream_same hexec fun sc heq => hc ⟨sc, heq⟩)
  | @drop i t htask hlive =>
    exact .inl (w.shared.release_stream i t.call.server)
  | env henv => exact .inl (env_stream henv)

/-- The books stay in order. -/
theorem accounts_of_run {ok : DWorld → DLabel → Prop} {w₀ w : DWorld} {ls : List DLabel}
    (hw : Initial w₀) (hstream : Redis.Accounts w₀.shared.stream)
    (hrun : (deployment cfg S fuel).RunIn ok w₀ ls w) : Redis.Accounts w.shared.stream := by
  refine hw.sound.invariant (I := fun w => Redis.Accounts w.shared.stream)
    (fun u l v hu hI _ hs => ?_) hrun hstream
  rcases hu.stream_step hs with hsame | ⟨i, t, c, handed, -, -, hstep⟩
  · exact hsame ▸ hI
  · exact hstep.accounts hI

/-! ### What a claim holds -/

/-- How entries come to a program: handed out by the stream, which makes it forget what it has
read. -/
theorem delivered_after (g : Knowledge) (c : Cmd) (r : c.Reply) :
    (g.after c r).delivered = g.delivered ∨
      (g.after c r).seen = none ∧ ∃ sc r', (⟨c, r⟩ : sig.Exchange) = ⟨.stream sc, r'⟩ ∧
        (g.after c r).delivered = g.delivered ++ sc.handed r' := by
  cases c with
  | setEx key ttl text | del key => rcases r with e | _ <;> exact .inl rfl
  | tx c =>
    cases c with
    | exec => rcases r with e | (_ | n) <;> exact .inl rfl
    | _ => exact .inl rfl
  | stream c =>
    cases c with
    | xreadgroup =>
      rcases r with e | (_ | entries)
      · exact .inl rfl
      · exact .inl rfl
      · exact .inr ⟨rfl, _, _, rfl, rfl⟩
    | xautoclaim =>
      rcases r with e | reply
      · exact .inl rfl
      · exact .inr ⟨rfl, _, _, rfl, rfl⟩
    | _ => exact .inl rfl
  | _ => exact .inl rfl

/-- The group has delivered the entry. -/
def DeliveredTo (w : DWorld) (group : String) (entry : EntryReply) : Prop :=
  ∃ g ∈ groupsOf w.shared.stream, g.name = group ∧
    ∃ e ∈ entriesOf w.shared.stream, e.reply = entry ∧ e.id ≤ g.lastDelivered

/-- Without trimming, entries stay. -/
theorem Sound.entries_subset {w w' : DWorld} {l : DLabel} (h : Sound cfg S w)
    (hmaxlen : cfg.streamMaxlen = 0) (hs : (deployment cfg S fuel).Stepped w l w')
    {e : StreamEntry} (he : e ∈ entriesOf w.shared.stream) : e ∈ entriesOf w'.shared.stream := by
  rcases h.stream_step hs with hsame | ⟨i, t, c, handed, -, hallowed, hstep⟩
  · exact hsame ▸ he
  · refine hstep.entries_subset (fun n fields hc => ?_) he
    subst hc
    obtain ⟨record, p, -, -, -, -, hnone⟩ := hallowed
    simp [hmaxlen] at hnone

/-- Groups stay. -/
theorem Sound.groups_mono {w w' : DWorld} {l : DLabel} (h : Sound cfg S w)
    (hs : (deployment cfg S fuel).Stepped w l w') {g : Group} (hg : g ∈ groupsOf w.shared.stream) :
    ∃ g' ∈ groupsOf w'.shared.stream, g'.name = g.name ∧ g'.start = g.start ∧
      g.lastDelivered ≤ g'.lastDelivered := by
  rcases h.stream_step hs with hsame | ⟨i, t, c, handed, -, -, hstep⟩
  · exact ⟨g, hsame ▸ hg, rfl, rfl, le_rfl⟩
  · exact hstep.groups_mono hg

/-- What is delivered stays delivered. -/
theorem DeliveredTo.step {w w' : DWorld} {l : DLabel} {group : String} {entry : EntryReply}
    (hentry : DeliveredTo w group entry) (h : Sound cfg S w) (hmaxlen : cfg.streamMaxlen = 0)
    (hs : (deployment cfg S fuel).Stepped w l w') : DeliveredTo w' group entry := by
  obtain ⟨g, hg, rfl, e, he, rfl, hle⟩ := hentry
  obtain ⟨g', hg', hname, -, hmono⟩ := h.groups_mono hs hg
  exact ⟨g', hg', hname, e, h.entries_subset hmaxlen hs he, rfl, hle.trans hmono⟩

/-- **What a claim holds is delivered.** -/
theorem delivered_of_run {ok : DWorld → DLabel → Prop} {w₀ w : DWorld} {ls : List DLabel}
    (hmaxlen : cfg.streamMaxlen = 0) (hw : Initial w₀)
    (hrun : (deployment cfg S fuel).RunIn ok w₀ ls w) {i : ℕ} {t : DTask}
    {claim : ClaimBackgroundJobsRequest} (htask : w.tasks i = some t)
    (hrequest : t.call.request = .claimBackgroundJobs claim) {entry : EntryReply}
    (hentry : entry ∈ (knowledge t).delivered) : DeliveredTo w claim.consumerGroup entry := by
  refine hw.sound.invariant (I := fun w => ∀ i t claim, w.tasks i = some t →
      t.call.request = .claimBackgroundJobs claim → ∀ entry ∈ (knowledge t).delivered,
      DeliveredTo w claim.consumerGroup entry)
    (fun u l v hu hI _ hs => ?_) hrun ?_ i t claim htask hrequest entry hentry
  · intro i t claim htask hrequest entry hentry
    rcases hs.task_cases htask with ⟨ht, -⟩ | ⟨call, -, rfl⟩ |
      ⟨t', c, k, r, σ, choice, rfl, ht', hlive, hprog, hexec, hσ, rfl⟩ | ⟨t', -, ht', rfl⟩
    · exact (hI i t claim ht hrequest entry hentry).step hu hmaxlen hs
    · cases hentry
    · replace hexec : u.shared.exec i t'.call.server choice c = some (σ, r) := hexec
      rw [knowledge_advance] at hentry
      rcases delivered_after (knowledge t') c r with hsame | ⟨-, sc, r', heq, happend⟩
      · exact (hI i t' claim ht' hrequest entry (hsame ▸ hentry)).step hu hmaxlen hs
      rw [happend] at hentry
      rcases List.mem_append.mp hentry with hentry | hentry
      · exact (hI i t' claim ht' hrequest entry hentry).step hu hmaxlen hs
      cases heq
      obtain ⟨-, handed, hstep, hhanded⟩ := exec_stream hexec
      obtain ⟨g, hg, htakes, hdelivered⟩ := hstep.handed_delivered (hhanded entry hentry)
      have hallowed := (hu.allowed_of_prog ht' hprog).2.2
      -- only a claim takes entries, and for the group it names
      have hname : g.name = claim.consumerGroup := by
        replace hrequest : t'.call.request = .claimBackgroundJobs claim := hrequest
        cases sc with
        | xautoclaim group | xreadgroup group =>
          obtain ⟨claim', hrequest', rfl⟩ := hallowed
          rw [hrequest] at hrequest'
          cases hrequest'
          exact (Option.some.inj htakes).symm
        | _ => cases htakes
      exact ⟨g, hσ ▸ hg, hname, hσ ▸ hdelivered⟩
    · exact (hI i t' claim ht' hrequest entry hentry).step hu hmaxlen hs
  · intro i t claim htask
    rw [hw.tasks i] at htask
    cases htask

/-- Step `l` answers a read of `key` by task `i`. -/
def ReadsKey (w : DWorld) (l : DLabel) (i : ℕ) (t : DTask) (key : String) : Prop :=
  w.tasks i = some t ∧ t.live = true ∧
    (∃ choice, l = .act i choice ∧ choice.delivery = .replied) ∧
    ∃ c k, t.prog = .cmd c k ∧ (c = .get key ∨ c = .tx (.get key))

omit [DecidableEq N] in
/-- A read that came back was answered. -/
theorem replied_of_read {σ σ' : Shared} {i n : ℕ} {choice : Choice} {c : Cmd} {r : c.Reply}
    {key : String} {text : Option String} (h : σ.exec i n choice c = some (σ', r))
    (hread : (⟨c, r⟩ : sig.Exchange) = ⟨.get key, .ok text⟩ ∨
      (⟨c, r⟩ : sig.Exchange) = ⟨.tx (.get key), .ok text⟩) : choice.delivery = .replied := by
  rcases hread with heq | heq
  · cases heq
    obtain ⟨-, hr⟩ := Prod.mk.inj (Option.some.inj h)
    rcases hd : choice.delivery with _ | ⟨err, ran, reconnected⟩
    · rfl
    · rw [hd] at hr
      cases hr
  · cases heq
    rcases exec_tx h with ⟨hreplied, -⟩ | ⟨-, err, hr⟩
    · exact hreplied
    · cases hr

/-- **How a program has come to see what it has seen.** It has read it, and since then no
entries were handed to it. -/
theorem takes_read {ok : DWorld → DLabel → Prop} {w₀ w : DWorld} {ls : List DLabel}
    (hw : Initial w₀) (hrun : (deployment cfg S fuel).RunIn ok w₀ ls w) {i : ℕ} {t : DTask}
    (htask : w.tasks i = some t) {key : String} {text : Option String}
    (hseen : (knowledge t).seen = some (key, text)) :
    (deployment cfg S fuel).Takes ok (fun x l => ∃ u, u.call = t.call ∧ ReadsKey x l i u key ∧
      x.shared.textAt key = text ∧ (knowledge u).delivered = (knowledge t).delivered) w₀ ls w := by
  refine hrun.snoc_induction (motive := fun ls w => ∀ t, w.tasks i = some t →
    (knowledge t).seen = some (key, text) → (deployment cfg S fuel).Takes ok (fun x l => ∃ u,
      u.call = t.call ∧ ReadsKey x l i u key ∧ x.shared.textAt key = text ∧
      (knowledge u).delivered = (knowledge t).delivered) w₀ ls w) ?_ ?_ t htask hseen
  · intro t htask
    rw [hw.tasks i] at htask
    cases htask
  · intro ls x l y hx ih hok hs t htask hseen
    rcases hs.task_cases htask with ⟨ht, -⟩ | ⟨call, -, rfl⟩ |
      ⟨u, c, k, r, σ, choice, rfl, hu, hlive, hprog, hexec, -, rfl⟩ | ⟨u, -, hu, rfl⟩
    · exact (ih t ht hseen).snoc hok hs
    · cases hseen
    · replace hexec : x.shared.exec i u.call.server choice c = some (σ, r) := hexec
      rw [knowledge_advance] at hseen
      have hdelivered : ((knowledge u).after c r).delivered = (knowledge u).delivered := by
        rcases delivered_after (knowledge u) c r with hsame | ⟨hnone, -⟩
        · exact hsame
        · rw [hnone] at hseen
          cases hseen
      rw [knowledge_advance, hdelivered]
      rcases seen_after (knowledge u) c r with hsame | hnone | ⟨key', text', hread, heq⟩
      · exact (ih u hu (hsame ▸ hseen)).snoc hok hs
      · rw [hnone] at hseen
        cases hseen
      obtain ⟨rfl, rfl⟩ := Prod.mk.inj (Option.some.inj (hread.symm.trans hseen))
      rcases (sound_of_run hw hx).seen_current hu hlive hprog hexec hseen with hbefore | hcurrent
      · exact (ih u hu hbefore).snoc hok hs
      · refine hx.takes_last hok ⟨u, rfl, ⟨hu, hlive,
          ⟨choice, rfl, replied_of_read hexec heq⟩, c, k, hprog, ?_⟩, hcurrent, rfl⟩ hs
        exact heq.imp (fun h => congrArg Sigma.fst h) fun h => congrArg Sigma.fst h
    · exact (ih u hu hseen).snoc hok hs

end ResponsesApiStore
