import ResponsesApiStore.Interaction.Machine

/-!
# Machines that agree

Two machines over the same worlds may have the same steps where an invariant of one of them holds
and the labels are of a certain kind. Then they have the same runs from there (`RunIn.agree`).
-/

namespace Interaction

namespace Machine

variable {S : Signature} {Shared Call Result Choice Env : Type}
  {M M' : Machine S Shared Call Result Choice Env}
  {I : World S Shared Call Result → Prop} {p : Label Call Choice Env → Prop}
  {ok ok' : World S Shared Call Result → Label Call Choice Env → Prop}

/-- Where `I` holds, the machines have the same steps under labels that satisfy `p`, and these
keep `I`. -/
structure Agrees (M M' : Machine S Shared Call Result Choice Env)
    (I : World S Shared Call Result → Prop) (p : Label Call Choice Env → Prop) : Prop where
  step : ∀ w l, I w → p l → M.step w l = M'.step w l
  keeps : ∀ w l w', I w → p l → M.step w l = some w' → I w'

theorem Agrees.symm (h : Agrees M M' I p) : Agrees M' M I p where
  step w l hI hp := (h.step w l hI hp).symm
  keeps w l w' hI hp hs := h.keeps w l w' hI hp ((h.step w l hI hp).trans hs)

/-- **The same runs.** The condition on the steps may be another one, if it follows there. -/
theorem Agrees.runIn_imp (h : Agrees M M' I p)
    (hok : ∀ w l, I w → p l → ok w l → ok' w l) {w w' : World S Shared Call Result}
    {ls : List (Label Call Choice Env)} (hI : I w) (hp : ∀ l ∈ ls, p l)
    (hrun : M.RunIn ok w ls w') : M'.RunIn ok' w ls w' := by
  induction ls generalizing w with
  | nil => exact hrun
  | cons l ls ih =>
    obtain ⟨hl, hls⟩ := List.forall_mem_cons.mp hp
    obtain ⟨hw, u, hu, hrest⟩ := hrun
    exact ⟨hok w l hI hl hw, u, (h.step w l hI hl) ▸ hu, ih (h.keeps w l u hI hl hu) hls hrest⟩

theorem Agrees.runIn (h : Agrees M M' I p) {w w' : World S Shared Call Result}
    {ls : List (Label Call Choice Env)} (hI : I w) (hp : ∀ l ∈ ls, p l)
    (hrun : M.RunIn ok w ls w') : M'.RunIn ok w ls w' :=
  h.runIn_imp (fun _ _ _ _ hok => hok) hI hp hrun

/-- What holds at the start of a run holds at its end. -/
theorem Agrees.keeps_run (h : Agrees M M' I p) {w w' : World S Shared Call Result}
    {ls : List (Label Call Choice Env)} (hI : I w) (hp : ∀ l ∈ ls, p l)
    (hrun : M.RunIn ok w ls w') : I w' := by
  induction ls generalizing w with
  | nil => exact hrun ▸ hI
  | cons l ls ih =>
    obtain ⟨hl, hls⟩ := List.forall_mem_cons.mp hp
    obtain ⟨-, u, hu, hrest⟩ := hrun
    exact ih (h.keeps w l u hI hl hu) hls hrest

/-- A step of a kind that the one takes the other takes too. -/
theorem Agrees.takes (h : Agrees M M' I p)
    {q : World S Shared Call Result → Label Call Choice Env → Prop}
    {w w' : World S Shared Call Result} {ls : List (Label Call Choice Env)} (hI : I w)
    (hp : ∀ l ∈ ls, p l) (htakes : M.Takes ok q w ls w') : M'.Takes ok q w ls w' := by
  obtain ⟨ls₁, l, ls₂, x, y, rfl, hx, hok, hq, hy, hrest⟩ := htakes
  obtain ⟨hp₁, hp₂⟩ := List.forall_mem_append.mp hp
  obtain ⟨hl, hp₂⟩ := List.forall_mem_cons.mp hp₂
  have hIx : I x := h.keeps_run hI hp₁ hx
  exact ⟨ls₁, l, ls₂, x, y, rfl, h.runIn hI hp₁ hx, hok, hq, (h.step x l hIx hl) ▸ hy,
    h.runIn (h.keeps x l y hIx hl hy) hp₂ hrest⟩

/-- Every label of a run satisfies what every label that can be taken satisfies. -/
theorem RunIn.forall_labels {w w' : World S Shared Call Result}
    {ls : List (Label Call Choice Env)} (htaken : ∀ u l v, ok u l → M.step u l = some v → p l)
    (hrun : M.RunIn ok w ls w') : ∀ l ∈ ls, p l := by
  induction ls generalizing w with
  | nil => simp
  | cons l ls ih =>
    obtain ⟨hok, u, hu, hrest⟩ := hrun
    exact List.forall_mem_cons.mpr ⟨htaken w l u hok hu, ih hrest⟩

end Machine

end Interaction
