import ResponsesApiStore.System.Execution

/-!
# Handing over and finishing

A queued job is handed to at most one worker, and finished at most once, for every time a
client writes it (`handed_over_and_finished_once`). Both halves are one argument: what a commit
leaves behind does not satisfy the guard of a second commit of its kind, and of all steps only
a client's write can make the stored record satisfy it again (`AllStored.step`), so between two
commits there is such a write.

What a worker is given comes from the record its commit replaced. The reply that carries it is
computed from what the worker's own call remembers, and the call remembers it because it has
committed (`takes_commit`).
-/

namespace ResponsesApiStore

open Json (Serde)
open Interaction (Machine World Label)

variable {N : Type}

/-- Nobody but the servers writes the key, though it may expire. -/
def NotForeign (key : String) (_ : DWorld) (l : DLabel) : Prop := ¬Foreign key l

/-- The requests whose transition finishes a job. -/
def Finishes (cfg : StoreConfig) : Request → Prop
  | .completeBackgroundResponse .. | .failBackgroundResponse .. => True
  | request => (reconciles cfg request).isSome

/-- The requests that claim a job. -/
def IsClaim (request : Request) : Prop := ∃ id, request = .claimBackgroundResponse id

/-- Step `l` commits at `key` the transition of a request of the kind `p`. -/
def CommitsOf (p : Request → Prop) (key : String) (w : DWorld) (l : DLabel) : Prop :=
  ∃ i t payload, Commits w l i t key payload ∧ p t.call.request

/-- A client stores a record that can be claimed, as it will be read. -/
def StoresClaimable (cfg : StoreConfig) (S : Serde N) (key : String) (w : DWorld) (l : DLabel) :
    Prop :=
  ∃ record, ClientStores cfg S w l key record ∧ isClaimableBackground record.dropNull = true

/-- A client stores a record that is not finished. -/
def StoresUnfinished (cfg : StoreConfig) (S : Serde N) (key : String) (w : DWorld) (l : DLabel) :
    Prop :=
  ∃ record, ClientStores cfg S w l key record ∧ isTerminalBackgroundStatus record = false

section Commits

variable {cfg : StoreConfig} {S : Serde N}

theorem Transition.key_eq_of_claim {id key v payload : String} {now : Option Int64}
    (h : Transition cfg S (.claimBackgroundResponse id) now key v payload) :
    ResponseStore.key cfg id = key := by
  cases h with
  | claim => rfl
  | stale hrequest => cases hrequest

/-- A claim takes a claimable record to one that is not claimable. -/
theorem Transition.claimed {request : Request} {key v payload : String} {now : Option Int64}
    (h : Transition cfg S request now key v payload) (hclaim : IsClaim request) :
    ∃ stored updated : StoredResponse N, StoredResponse.ofText S v = .ok stored ∧
      updated.toText S = .ok payload ∧ isClaimableBackground stored = true ∧
      isClaimableBackground updated.dropNull = false := by
  obtain ⟨id, rfl⟩ := hclaim
  cases h with
  | @claim _ _ _ _ stored updated result hv hprepare hpayload =>
    obtain ⟨hfrom, hpending, hto, -⟩ := prepareClaimBackground_eq_ok hprepare
    refine ⟨stored, updated, hv, hpayload, ?_, ?_⟩
    · exact isClaimableBackground_iff.mpr ⟨by simp [hpending], hfrom⟩
    · rw [Bool.eq_false_iff, ne_eq, isClaimableBackground_iff, storedResponseStatus_dropNull, hto]
      simp
  | stale hrequest => cases hrequest

/-- A finishing transition takes an unfinished record to a finished one. -/
theorem Transition.finished {request : Request} {key v payload : String} {now : Option Int64}
    (h : Transition cfg S request now key v payload) (hfinishes : Finishes cfg request) :
    ∃ stored updated : StoredResponse N, StoredResponse.ofText S v = .ok stored ∧
      updated.toText S = .ok payload ∧ isTerminalBackgroundStatus stored = false ∧
      isTerminalBackgroundStatus updated = true := by
  obtain ⟨stored, updated, hv, hpayload, hmoves⟩ := h.moves
  refine ⟨stored, updated, hv, hpayload, hmoves.not_terminal, isTerminalBackgroundStatus_iff.mpr ?_⟩
  have hstatus : HasStatus S payload "completed" ∨ HasStatus S payload "failed" := by
    cases h with
    | claim => cases hfinishes
    | complete hjson hv' hprepare hpayload' =>
      exact .inl ⟨_, .inr hpayload', (prepareCompleteBackground_eq_ok hprepare).2.1⟩
    | fail hv' hprepare hpayload' =>
      exact .inr ⟨_, .inr hpayload', (prepareFailBackground_eq_ok hprepare).2.1⟩
    | stale hrequest hv' hqueued hstale hpayload' =>
      exact .inr ⟨_, .inr hpayload', storedResponseStatus_applyStaleFailure _ _⟩
  rcases hstatus with hstatus | hstatus
  · exact .inr (.inr (.inl (hstatus.of_encodes (.inr hpayload))))
  · exact .inr (.inr (.inr (hstatus.of_encodes (.inr hpayload))))

variable [DecidableEq N] {fuel : ℕ} {key : String} {w w' : DWorld} {ls : List DLabel}

/-- Between a commit that leaves no claimable record and a moment at which one can be read, a
client has stored one. -/
theorem takes_storesClaimable (hw : Sound cfg S w)
    (hrun : (deployment cfg S fuel).RunIn (NotForeign key) w ls w')
    (hbefore : AllStored S key (fun stored => isClaimableBackground stored = false) w)
    {v : String} {stored : StoredResponse N} (hv : w'.shared.textAt key = some v)
    (hstored : StoredResponse.ofText S v = .ok stored)
    (hclaimable : isClaimableBackground stored = true) :
    (deployment cfg S fuel).Takes (NotForeign key) (StoresClaimable cfg S key) w ls w' := by
  refine (hrun.avoids_or_takes (StoresClaimable cfg S key)).resolve_left fun havoids => ?_
  have hafter : AllStored S key (fun stored => isClaimableBackground stored = false) w' := by
    refine hw.invariant (fun x l y hx hI hok hs => hI.step hx hs hok.1 ?_ ?_ ?_) havoids hbefore
    · intro stored updated _ _ hmoves
      rw [Bool.eq_false_iff, ne_eq, isClaimableBackground_iff, storedResponseStatus_reread]
      cases hmoves with
      | claims hfrom hpending hto => simp [hto]
      | completes hfrom hto => simp [hto]
      | fails hfrom hto => simp [hto]
    · intro stored id
      rw [Bool.eq_false_iff, ne_eq, isClaimableBackground_iff]
      simp
    · intro record hrecord
      rw [isClaimableBackground_reread]
      exact Bool.eq_false_iff.mpr fun hclaimable => hok.2 ⟨record, hrecord, hclaimable⟩
  rw [hafter v stored hv hstored] at hclaimable
  cases hclaimable

/-- Between a commit that leaves a finished record and a moment at which an unfinished one can
be read, a client has stored one. -/
theorem takes_storesUnfinished (hw : Sound cfg S w)
    (hrun : (deployment cfg S fuel).RunIn (NotForeign key) w ls w')
    (hbefore : AllStored S key (fun stored => isTerminalBackgroundStatus stored = true) w)
    {v : String} {stored : StoredResponse N} (hv : w'.shared.textAt key = some v)
    (hstored : StoredResponse.ofText S v = .ok stored)
    (hunfinished : isTerminalBackgroundStatus stored = false) :
    (deployment cfg S fuel).Takes (NotForeign key) (StoresUnfinished cfg S key) w ls w' := by
  refine (hrun.avoids_or_takes (StoresUnfinished cfg S key)).resolve_left fun havoids => ?_
  have hafter : AllStored S key (fun stored => isTerminalBackgroundStatus stored = true) w' := by
    refine hw.invariant (fun x l y hx hI hok hs => hI.step hx hs hok.1 ?_ ?_ ?_) havoids hbefore
    · intro stored updated _ hterminal hmoves
      rw [hmoves.not_terminal] at hterminal
      cases hterminal
    · intro stored id
      rw [isTerminalBackgroundStatus_iff, storedResponseStatus_reread]
      exact .inl (storedResponseStatus_tombstoneOf stored id)
    · intro record hrecord
      rw [isTerminalBackgroundStatus_reread]
      by_contra hterminal
      exact hok.2 ⟨record, hrecord, Bool.eq_false_iff.mpr hterminal⟩
  rw [hafter v stored hv hstored] at hunfinished
  cases hunfinished

/-- **A call that knows it has committed has committed.** -/
theorem takes_commit {ok : DWorld → DLabel → Prop} {w₀ : DWorld} (hw : Initial w₀)
    (hrun : (deployment cfg S fuel).RunIn ok w₀ ls w) {i : ℕ} {t : DTask} {v : String}
    (htask : w.tasks i = some t) (hcommitted : (knowledge t).committed = some v) :
    (deployment cfg S fuel).Takes ok (fun x l => ∃ u key payload, u.call = t.call ∧
      Commits x l i u key payload ∧ x.shared.textAt key = some v ∧
      Transition cfg S t.call.request (knowledge u).now key v payload) w₀ ls w := by
  refine hrun.snoc_induction (motive := fun ls w => ∀ t, w.tasks i = some t →
    (knowledge t).committed = some v → (deployment cfg S fuel).Takes ok (fun x l =>
      ∃ u key payload, u.call = t.call ∧ Commits x l i u key payload ∧
        x.shared.textAt key = some v ∧
        Transition cfg S t.call.request (knowledge u).now key v payload) w₀ ls w)
    ?_ ?_ t htask hcommitted
  · intro t htask
    rw [hw.tasks i] at htask
    cases htask
  · intro ls x l y hx ih hok hs t htask hcommitted
    rcases hs.task_cases htask with ⟨ht, -⟩ | ⟨call, -, rfl⟩ |
      ⟨u, c, k, r, σ, choice, rfl, hu, hlive, hprog, hexec, -, rfl⟩ | ⟨u, -, hu, rfl⟩
    · exact (ih t ht hcommitted).snoc hok hs
    · cases hcommitted
    · rw [knowledge_advance] at hcommitted
      rcases committed_after (knowledge u) c r with hsame | ⟨n, heq, hnew⟩
      · exact (ih u hu (hsame ▸ hcommitted)).snoc hok hs
      · cases heq
        obtain ⟨key, v', payload, hcommits, htext, hv, htransition⟩ :=
          (sound_of_run hw hx).commits_of_exec hu hlive hprog hexec
        obtain rfl : v' = v := Option.some.inj (htext.symm.trans (hnew.symm.trans hcommitted))
        exact hx.takes_last hok ⟨u, key, payload, rfl, hcommits, hv, htransition⟩ hs
    · exact (ih u hu hcommitted).snoc hok hs

/-- **At most one worker, at most one end.** For every key, in every run of the deployment:
between two commits of claims a client has stored a claimable record; between two commits of
finishing transitions a client has stored an unfinished record; and a claim that has been
answered with success has committed, its answer carrying the upstream, the request and the
authorization of the record stored immediately before the commit. -/
theorem handed_over_and_finished_once {w₀ : DWorld} (hw : Initial w₀) (key : String) :
    (∀ a x₁ l₁ y₁ b x₂ l₂, (deployment cfg S fuel).RunIn (NotForeign key) w₀ a x₁ →
      CommitsOf IsClaim key x₁ l₁ → (deployment cfg S fuel).step x₁ l₁ = some y₁ →
      (deployment cfg S fuel).RunIn (NotForeign key) y₁ b x₂ → CommitsOf IsClaim key x₂ l₂ →
      (deployment cfg S fuel).Takes (NotForeign key) (StoresClaimable cfg S key) y₁ b x₂) ∧
    (∀ a x₁ l₁ y₁ b x₂ l₂, (deployment cfg S fuel).RunIn (NotForeign key) w₀ a x₁ →
      CommitsOf (Finishes cfg) key x₁ l₁ → (deployment cfg S fuel).step x₁ l₁ = some y₁ →
      (deployment cfg S fuel).RunIn (NotForeign key) y₁ b x₂ →
      CommitsOf (Finishes cfg) key x₂ l₂ →
      (deployment cfg S fuel).Takes (NotForeign key) (StoresUnfinished cfg S key) y₁ b x₂) ∧
    ∀ ls w i t id response, (deployment cfg S fuel).RunIn (NotForeign key) w₀ ls w →
      w.tasks i = some t → t.call.request = .claimBackgroundResponse id →
      t.prog = .ret (.ok response) →
      ∃ (stored : StoredResponse N) (request : Json.Value N) (record : ProtoStoredResponse)
        (json : String), stored.pendingUpstreamRequest = some request ∧
        printJson S "pending_upstream_request" id request = .ok json ∧
        response = .claimed record stored.upstream json stored.upstreamAuthorization ∧
        (deployment cfg S fuel).Takes (NotForeign key) (fun x l => ∃ u v payload,
          Commits x l i u (ResponseStore.key cfg id) payload ∧
          x.shared.textAt (ResponseStore.key cfg id) = some v ∧
          StoredResponse.ofText S v = .ok stored) w₀ ls w := by
  refine ⟨?_, ?_, ?_⟩
  · rintro a x₁ l₁ y₁ b x₂ l₂ ha ⟨i, t, p, hcommits, hclaim⟩ hstep hb ⟨j, u, q, hcommits', hclaim'⟩
    have hs := Machine.step_eq_some_iff.mp hstep
    have hx₁ : Sound cfg S x₁ := sound_of_run hw ha
    obtain ⟨v, -, -, -, htransition, -⟩ := hx₁.commit_reads hcommits
    obtain ⟨v', -, -, hv', htransition', -⟩ := ((hx₁.step hs).run hb).commit_reads hcommits'
    obtain ⟨-, updated, -, hp, -, hupdated⟩ := htransition.claimed hclaim
    obtain ⟨stored, -, hstored, -, hclaimable, -⟩ := htransition'.claimed hclaim'
    rw [← isClaimableBackground_reread S] at hupdated
    exact takes_storesClaimable (hx₁.step hs) hb
      (.of_toText (hx₁.commit_writes hcommits hs) hp hupdated) hv' hstored hclaimable
  · rintro a x₁ l₁ y₁ b x₂ l₂ ha ⟨i, t, p, hcommits, hends⟩ hstep hb ⟨j, u, q, hcommits', hends'⟩
    have hs := Machine.step_eq_some_iff.mp hstep
    have hx₁ : Sound cfg S x₁ := sound_of_run hw ha
    obtain ⟨v, -, -, -, htransition, -⟩ := hx₁.commit_reads hcommits
    obtain ⟨v', -, -, hv', htransition', -⟩ := ((hx₁.step hs).run hb).commit_reads hcommits'
    obtain ⟨-, updated, -, hp, -, hupdated⟩ := htransition.finished hends
    obtain ⟨stored, -, hstored, -, hunfinished, -⟩ := htransition'.finished hends'
    rw [← isTerminalBackgroundStatus_reread S] at hupdated
    exact takes_storesUnfinished (hx₁.step hs) hb
      (.of_toText (hx₁.commit_writes hcommits hs) hp hupdated) hv' hstored hunfinished
  · intro ls w i t id response hrun htask hrequest hprog
    have hanswer := (sound_of_run hw hrun).answer_of_prog htask hprog
    rw [hrequest] at hanswer
    obtain ⟨v, stored, updated, payload, record, json, hcommitted, hstored, hprepare, hjson,
      hresponse⟩ := hanswer
    obtain ⟨-, hpending, -, -, -, hupstream, hauth⟩ := prepareClaimBackground_eq_ok hprepare
    refine ⟨stored, payload.pendingUpstreamRequest, record, json, hpending, hjson, ?_, ?_⟩
    · rw [hresponse, hupstream, hauth]
    · refine (takes_commit hw hrun htask hcommitted).imp ?_
      rintro - x l - - ⟨u, key', p, -, hcommits, hv, htransition⟩
      rw [hrequest] at htransition
      obtain rfl := htransition.key_eq_of_claim
      exact ⟨u, v, p, hcommits, hv, hstored⟩

end Commits

section Runs

open Sample

set_option maxRecDepth 100000 in
/-- A queued job is claimed. -/
def claimAnswered : machine.Recording noSetEx (start (some queuedText)) (fun w =>
    returned w 1 = some (.ok (.claimed ⟨"resp_1", "openai",
      "\x7b\"background\":true,\"id\":\"resp_1\",\"status\":\"in_progress\"\x7d", [],
      some "\x7b\"model\":\"m\"\x7d", none, some 100⟩ "openai" "\x7b\"model\":\"m\"\x7d" none)) ∧
    requestOf w 1 = some (.claimBackgroundResponse "resp_1")) :=
  ⟨call 1 (.claimBackgroundResponse "resp_1") 9, by decide +kernel⟩

/-- The claim is answered with what it has found before its commit. -/
theorem handed_over_claim : ∃ w record json, ∃ stored : StoredResponse Int64,
    machine.RunIn (NotForeign key) (start (some queuedText))
      (call 1 (.claimBackgroundResponse "resp_1") 9) w ∧
    returned w 1 = some (.ok (.claimed record stored.upstream json stored.upstreamAuthorization)) ∧
    machine.Takes (NotForeign key) (fun x l => ∃ u v payload, Commits x l 1 u key payload ∧
      x.shared.textAt key = some v ∧ StoredResponse.ofText serde v = .ok stored)
      (start (some queuedText)) (call 1 (.claimBackgroundResponse "resp_1") 9) w := by
  obtain ⟨w, hrun, hreturned, hrequest⟩ :=
    claimAnswered.exists_runIn fun _ _ h => not_foreign_of_noSetEx h key
  obtain ⟨t, ht, hprog⟩ := returned_eq_some hreturned
  have hrequest : t.call.request = .claimBackgroundResponse "resp_1" := by
    simpa [requestOf, ht] using hrequest
  obtain ⟨stored, request, record, json, -, -, hresponse, htakes⟩ :=
    (handed_over_and_finished_once (initial_start _) key).2.2 _ w 1 t "resp_1" _ hrun ht
    hrequest hprog
  exact ⟨w, record, json, stored, hrun, hresponse ▸ hreturned, htakes⟩

end Runs

end ResponsesApiStore
