import ResponsesApiStore.System.Execution

/-!
# What a refusal says

A worker that is told `failed_precondition`, `not_found`, `invalid_argument` or `unavailable`
should be able to conclude that its own call has changed nothing. The transition loop retries
after every storage error, an error of `EXEC` included, so a commit whose reply was lost is
followed by an attempt that is refused on account of that very commit. This is the only way:
as long as no commit of the call loses its reply, a refusal means that the call has written
nothing (`refused_wrote_nothing`).
-/

namespace ResponsesApiStore

open Json (Serde)
open Interaction (Machine World Label)

variable {N : Type}

/-- The requests for a guarded transition of a worker. -/
def IsTransition : Request → Prop
  | .claimBackgroundResponse _ | .completeBackgroundResponse .. | .failBackgroundResponse .. => True
  | _ => False

/-- The codes with which a worker is refused. -/
def Code.IsRefusal (code : Code) : Prop :=
  code = .failedPrecondition ∨ code = .notFound ∨ code = .invalidArgument ∨ code = .unavailable

/-- At step `l` task `i` writes: it commits, it stores, or it deletes. -/
inductive OwnWrite (w : DWorld) (l : DLabel) (i : ℕ) : Prop
  | commits {t : DTask} {key payload : String} (h : Commits w l i t key payload)
  | stores {t : DTask} {key payload : String} (h : Stores w l i t key payload)
  | deletes {t : DTask} {key : String} (h : Runs w l i t (.del key))

/-- At step `l` a commit of task `i` loses its reply. -/
def LosesCommit (i : ℕ) (w : DWorld) (l : DLabel) : Prop :=
  ∃ t key payload choice, Commits w l i t key payload ∧ l = .act i choice ∧
    choice.delivery ≠ .replied

/-- The call of task `i`, if it is for a transition, knows that it has committed. -/
def KnowsCommit (i : ℕ) (w : DWorld) : Prop :=
  ∃ t, w.tasks i = some t ∧ (IsTransition t.call.request → (knowledge t).committed ≠ none)

section Refusals

variable {cfg : StoreConfig} {S : Serde N}

/-- The writes of a client are not those of a call for a transition. -/
theorem ClientWrite.not_isTransition {request : Request} {now : Option Int64} {key : String}
    {record : StoredResponse N} (h : ClientWrite cfg S request now key record) :
    ¬IsTransition request := by
  cases h <;> exact id

/-- A call for a guarded transition writes by committing only. -/
theorem Sound.commits_of_ownWrite {w : DWorld} {l : DLabel} {i : ℕ} (h : Sound cfg S w)
    (hwrite : OwnWrite w l i) :
    ∃ t c, Runs w l i t c ∧
      ((∃ key payload, Commits w l i t key payload) ∨ ¬IsTransition t.call.request) := by
  cases hwrite with
  | @commits t key payload hcommits =>
    exact ⟨t, _, hcommits.runs, .inl ⟨key, payload, hcommits⟩⟩
  | @stores t key payload hstores =>
    obtain ⟨ttl, -, hruns⟩ := hstores.runs
    obtain ⟨-, -, record, -, hwrites⟩ := h.allowed hruns
    refine ⟨t, _, hruns, .inr ?_⟩
    generalize t.call.request = request at hwrites
    cases hwrites with
    | client hwrite => exact hwrite.not_isTransition
    | tombstone => exact id
  | @deletes t key hruns =>
    obtain ⟨-, -, id, hrequest, -⟩ := h.allowed hruns
    refine ⟨t, _, hruns, .inr fun htransition => ?_⟩
    rw [hrequest] at htransition
    cases htransition

variable [DecidableEq N] {fuel : ℕ} {w w' : DWorld} {l : DLabel} {i : ℕ}

/-- A call for a transition that writes knows it, unless the reply to its commit is lost. -/
theorem OwnWrite.knowsCommit (hwrite : OwnWrite w l i) (h : Sound cfg S w)
    (hkept : ¬LosesCommit i w l) (hs : (deployment cfg S fuel).Stepped w l w') :
    KnowsCommit i w' := by
  obtain ⟨t, c, hruns, hcommits⟩ := h.commits_of_ownWrite hwrite
  rcases hcommits with ⟨key, payload, hcommits⟩ | hother
  · obtain ⟨choice, k, σ, r, rfl, -, hprog, hexec, rfl⟩ := hcommits.runs.stepped hs
    have hreplied : choice.delivery = .replied := by
      by_contra hlost
      exact hkept ⟨t, key, payload, choice, hcommits, rfl, hlost⟩
    obtain rfl := hcommits.replied hreplied hexec
    obtain ⟨-, v, -, -, htext, -⟩ :=
      h.commits_of_exec hcommits.runs.task hcommits.runs.live hprog hexec
    refine ⟨_, World.put_tasks_self _ i _, fun _ => ?_⟩
    rw [knowledge_advance]
    show (knowledge t).text ≠ none
    simp [htext]
  · obtain ⟨choice, k, σ, r, rfl, -, -, -, rfl⟩ := hruns.stepped hs
    exact ⟨_, World.put_tasks_self _ i _, fun htransition => absurd htransition hother⟩

/-- What a call knows to have committed it does not forget. -/
theorem KnowsCommit.step (hI : KnowsCommit i w) (h : Sound cfg S w)
    (hs : (deployment cfg S fuel).Stepped w l w') : KnowsCommit i w' := by
  obtain ⟨t, htask, hknown⟩ := hI
  rcases hs.task_next htask with hu | ⟨c, k, r, σ, choice, -, hlive, hprog, hexec, hu⟩ | ⟨-, hu⟩
  · exact ⟨t, hu, hknown⟩
  · refine ⟨_, hu, fun htransition => ?_⟩
    rw [knowledge_advance]
    rcases committed_after (knowledge t) c r with hsame | ⟨n, heq, hnew⟩
    · rw [hsame]
      exact hknown htransition
    · cases heq
      obtain ⟨-, v, -, -, htext, -⟩ := h.commits_of_exec htask hlive hprog hexec
      simp [hnew, htext]
  · exact ⟨_, hu, hknown⟩

/-- In a run that loses no commit of task `i`, a call for a transition that has written knows
that it has committed. -/
theorem knowsCommit_of_takes {w₀ : DWorld} {ls : List DLabel} (hw : Initial w₀)
    (hrun : (deployment cfg S fuel).RunIn (fun w l => ¬LosesCommit i w l) w₀ ls w)
    (htakes : (deployment cfg S fuel).Takes (fun w l => ¬LosesCommit i w l)
      (fun x l => OwnWrite x l i) w₀ ls w) : KnowsCommit i w := by
  refine hrun.snoc_induction (motive := fun ls w => (deployment cfg S fuel).Takes
    (fun w l => ¬LosesCommit i w l) (fun x l => OwnWrite x l i) w₀ ls w → KnowsCommit i w)
    ?_ ?_ htakes
  · rintro ⟨ls₁, l, ls₂, x, y, hls, -⟩
    simp at hls
  · intro ls x l y hx ih hok hs htakes
    have hsound : Sound cfg S x := sound_of_run hw hx
    rcases htakes.of_snoc hx with hbefore | hwrite
    · exact (ih hbefore).step hsound hs
    · exact hwrite.knowsCommit hsound hok hs

/-- **A refusal means that nothing was written.** In every run in which no commit of the call
loses its reply, a claim, completion or failure that has been answered with
`failed_precondition`, `not_found`, `invalid_argument` or `unavailable` has not written. -/
theorem refused_wrote_nothing {w₀ : DWorld} {ls : List DLabel} {t : DTask} {status : Status}
    (hw : Initial w₀)
    (hrun : (deployment cfg S fuel).RunIn (fun w l => ¬LosesCommit i w l) w₀ ls w)
    (htask : w.tasks i = some t) (htransition : IsTransition t.call.request)
    (hprog : t.prog = .ret (.error (.status status))) (hrefusal : status.code.IsRefusal) :
    ¬(deployment cfg S fuel).Takes (fun w l => ¬LosesCommit i w l)
      (fun x l => OwnWrite x l i) w₀ ls w := by
  intro htakes
  obtain ⟨u, hu, hknown⟩ := knowsCommit_of_takes hw hrun htakes
  obtain rfl : t = u := Option.some.inj (htask.symm.trans hu)
  have hinternal : status.code ≠ .internal := by
    rcases hrefusal with h | h | h | h <;> rw [h] <;> decide
  have hanswer := (sound_of_run hw hrun).answer_of_prog htask hprog
  refine hknown htransition ?_
  generalize t.call.request = request at htransition hanswer
  cases request with
  | claimBackgroundResponse id => exact hanswer hinternal
  | completeBackgroundResponse id json => exact hanswer hinternal
  | failBackgroundResponse id message => exact hanswer hinternal
  | _ => cases htransition

end Refusals

section Runs

open Sample

/-- The step is answered, if it is a command. -/
def isAnswered (_ : DWorld) : DLabel → Bool
  | .act _ choice => match choice.delivery with
    | .replied => true
    | .failed .. => false
  | _ => true

theorem not_losesCommit_of_isAnswered {w : DWorld} {l : DLabel} (h : isAnswered w l = true)
    (i : ℕ) : ¬LosesCommit i w l := by
  rintro ⟨t, key, payload, choice, -, rfl, hlost⟩
  simp only [isAnswered] at h
  split at h
  · exact hlost ‹_›
  · cases h

set_option maxRecDepth 100000 in
/-- A job is claimed twice. -/
def claimedTwice : machine.Recording isAnswered (start (some queuedText)) (fun w =>
    returned w 2 = some (.error (.status
      ⟨.failedPrecondition, "response resp_1 is already in progress"⟩)) ∧
    requestOf w 2 = some (.claimBackgroundResponse "resp_1")) :=
  ⟨call 1 (.claimBackgroundResponse "resp_1") 9 ++ call 2 (.claimBackgroundResponse "resp_1") 6,
    by decide +kernel⟩

/-- The second claim of a job is refused, and has written nothing. -/
theorem refused_second_claim : ∃ w,
    machine.RunIn (fun w l => ¬LosesCommit 2 w l) (start (some queuedText))
      (call 1 (.claimBackgroundResponse "resp_1") 9 ++
        call 2 (.claimBackgroundResponse "resp_1") 6) w ∧
    returned w 2 = some (.error (.status
      ⟨.failedPrecondition, "response resp_1 is already in progress"⟩)) ∧
    ¬machine.Takes (fun w l => ¬LosesCommit 2 w l) (fun x l => OwnWrite x l 2)
      (start (some queuedText)) (call 1 (.claimBackgroundResponse "resp_1") 9 ++
        call 2 (.claimBackgroundResponse "resp_1") 6) w := by
  obtain ⟨w, hrun, hreturned, hrequest⟩ :=
    claimedTwice.exists_runIn fun _ _ h => not_losesCommit_of_isAnswered h 2
  obtain ⟨t, ht, hprog⟩ := returned_eq_some hreturned
  have hrequest : t.call.request = .claimBackgroundResponse "resp_1" := by
    simpa [requestOf, ht] using hrequest
  exact ⟨w, hrun, hreturned, refused_wrote_nothing (initial_start _) hrun ht
    (by rw [hrequest]; trivial) hprog (.inl rfl)⟩

set_option maxRecDepth 100000 in
/-- A claim has come to its `EXEC`, whose reply is going to be lost. -/
def claimUnanswered : machine.Recording (fun _ _ => true) (start (some queuedText)) (fun x =>
    awaits x 1 = some (.tx .exec) ∧ (x.tasks 1).map (fun t => t.call.server) = some 0 ∧
    (x.shared.db.sessions 0).inMulti = true ∧ (x.shared.db.sessions 0).dirty = false ∧
    (x.shared.db.sessions 0).queue = [.setEx key 600 claimedText] ∧
    (machine.execIn? (fun _ _ => true) x (.act 1 lost :: turns 1 11)).any (fun w =>
      returned w 1 = some (.error (.status
        ⟨.failedPrecondition, "response resp_1 is already in progress"⟩)) ∧
      requestOf w 1 = some (.claimBackgroundResponse "resp_1")) = true) :=
  ⟨call 1 (.claimBackgroundResponse "resp_1") 7, by decide +kernel⟩

/-- **A lost reply.** A claim commits, the reply of its `EXEC` is lost, and its next attempt
finds the job in progress: the call is refused, though it has itself claimed the job. -/
theorem refused_after_lost_reply :
    ¬∀ (w₀ w : DWorld) (ls : List DLabel) (i : ℕ) (t : DTask) (status : Status), Initial w₀ →
      machine.Run w₀ ls w → w.tasks i = some t → IsTransition t.call.request →
      t.prog = .ret (.error (.status status)) → status.code.IsRefusal →
      ¬machine.Takes (fun _ _ => True) (fun x l => OwnWrite x l i) w₀ ls w := by
  intro hclaim
  obtain ⟨x, hx, hawaits, hserver, hmulti, hclean, hqueue, hrest⟩ := claimUnanswered.exists_run
  obtain ⟨w, hrun, hreturned, hrequest⟩ := Machine.exists_run hrest
  obtain ⟨u, hruns⟩ := runs_of_awaits hawaits (show lost.delivery.ran = true from rfl)
  have hserver : u.call.server = 0 := by simpa [hruns.task] using hserver
  have hcommits : Commits x (.act 1 lost) 1 u key claimedText :=
    ⟨hruns, by rw [Clean, hserver]; exact ⟨hmulti, hclean⟩, 600, by decide, hserver ▸ hqueue⟩
  obtain ⟨t, ht, hprog⟩ := returned_eq_some hreturned
  have hrequest : t.call.request = .claimBackgroundResponse "resp_1" := by
    simpa [requestOf, ht] using hrequest
  have hall := hx.append hrun
  obtain ⟨-, y, hy, hw⟩ := hrun
  refine hclaim _ w _ 1 t _ (initial_start _) hall ht
    (by rw [hrequest]; trivial) hprog (.inl rfl) ?_
  exact ⟨_, _, _, x, y, rfl, hx, trivial, .commits hcommits, hy, hw⟩

end Runs

end ResponsesApiStore
