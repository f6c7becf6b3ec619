import ResponsesApiStore.System.Records
import ResponsesApiStore.Server.Permits

/-!
# Times to live

Every write chooses the time to live of its record: a store takes the one of the request or the
configured one and refuses zero, and a transition goes by what `TTL` has reported for the key
since its `WATCH` (`reportedTtl`). That all programs do so is one more protocol, `timed`.

The invariant `Timed` adds what the server side makes of it. Every record has an expiry; and if
`TTL` reported a key as missing, the key was missing while it was watched. A transaction that
has read the key before, under the same watch, is then dirty and does not commit.
-/

namespace ResponsesApiStore

open Json (Value Serde)
open Redis (Error Keyspace TxCmd)
open Redis.Keyspace (ValidTtl Guards Undisturbed)
open Interaction (Machine World Label Program Protocol)
open Interaction.Program

variable {N : Type}

/-! ### The protocol -/

/-- What `TTL` has reported, and for which key, after an exchange: the report is kept while the
transaction that asked for it is prepared. -/
def nextReport (report : Option (String × ℤ)) : (c : Cmd) → c.Reply → Option (String × ℤ)
  | .tx (.ttl key), reply => reply.toOption.map fun ttl => (key, ttl)
  | .tx .multi, .ok _ | .tx (.setEx ..), .ok _ => report
  | _, _ => none

/-- Every write has a time to live: on the shared connection one that is not zero, in a
transaction the one that follows from the report on the key. -/
def timed (cfg : StoreConfig) : Protocol sig (Option (String × ℤ)) where
  allowed report c := match c with
    | .setEx _ ttl _ => ttl ≠ 0
    | .tx (.setEx key ttl _) =>
      ∃ reported, report = some (key, reported) ∧ ttl = reconcileWriteTtl reported cfg.ttlSeconds
    | _ => True
  next := nextReport

section Programs

variable {cfg : StoreConfig} {S : Serde N} {α : Type}

/-- The write of a transaction, once `TTL` has been answered. -/
theorem timed_commit {key payload : String} {reported : ℤ} :
    (ResponseStore.commit key (reconcileWriteTtl reported cfg.ttlSeconds) payload).run.Follows
      (timed cfg) (fun _ _ => True) (some (key, reported)) := by
  simp only [ResponseStore.commit, follows_except_bind_iff, follows_storage, follows_return,
    send, call, follows_cmd, follows_ret]
  refine ⟨trivial, fun multi => ?_⟩
  rcases multi with e | _
  · trivial
  refine ⟨⟨reported, rfl, rfl⟩, fun setEx => ?_⟩
  rcases setEx with e | _
  · trivial
  refine ⟨trivial, fun exec => ?_⟩
  rcases exec with e | n <;> trivial

theorem permits_timed : Permits cfg (timed cfg) := by
  refine ⟨fun {c} hc report => ?_, fun _ hzero _ => hzero, fun _ _ _ _ _ => timed_commit⟩
  cases c with
  | setEx => exact hc.elim
  | tx c =>
    cases c with
    | setEx => exact hc.elim
    | _ => trivial
  | _ => trivial

variable [DecidableEq N]

/-- **Every write has a time to live.** A claim of jobs, by its discipline, sends no write at
all. -/
theorem timed_serve (fuel : ℕ) (request : Request) :
    Safe (timed cfg) (serve cfg S fuel request) := by
  by_cases hclaim : ∃ claim, request = .claimBackgroundJobs claim
  swap
  · exact permits_timed.safe_serve fuel (not_exists.mp hclaim)
  obtain ⟨claim, rfl⟩ := hclaim
  refine (serve_follows fuel (.claimBackgroundJobs claim)).safe fun g c hc report => ?_
  cases c with
  | setEx key ttl payload =>
    obtain ⟨-, -, record, -, h⟩ := hc
    rcases h.client_or_tombstone with h | ⟨id, stored, h, -⟩
    · cases h
    · cases h
  | tx c =>
    cases c with
    | setEx key ttl payload =>
      obtain ⟨-, -, v, -, h⟩ := hc
      generalize g.now = now at h
      cases h with
      | stale hrequest => cases hrequest
    | _ => trivial
  | _ => trivial

end Programs

/-! ### Reports and knowledge -/

/-- What `TTL` has reported to a task for the transaction it is preparing. -/
def reportedTtl (t : DTask) : Option (String × ℤ) :=
  t.transcript.foldl (fun report e => nextReport report e.1 e.2) none

theorem reportedTtl_advance (t : DTask) (c : Cmd) (k : c.Reply → Program sig RpcResult)
    (r : c.Reply) :
    reportedTtl (t.advance (S := sig) c k r) = nextReport (reportedTtl t) c r := by
  simp [reportedTtl]

/-- The exchanges after which there is a report: `TTL` was answered, or the transaction went on
from there. -/
theorem nextReport_eq_some {report : Option (String × ℤ)} {c : Cmd} {r : c.Reply} {key : String}
    {reported : ℤ} (h : nextReport report c r = some (key, reported)) :
    (⟨c, r⟩ : sig.Exchange) = ⟨.tx (.ttl key), .ok reported⟩ ∨
      (report = some (key, reported) ∧
        ((⟨c, r⟩ : sig.Exchange) = ⟨.tx .multi, .ok ()⟩ ∨
          ∃ k ttl payload, (⟨c, r⟩ : sig.Exchange) = ⟨.tx (.setEx k ttl payload), .ok ()⟩)) := by
  cases c with
  | tx c =>
    cases c with
    | ttl k =>
      rcases r with e | ttl
      · cases h
      · obtain ⟨rfl, rfl⟩ := Prod.mk.inj (Option.some.inj h)
        exact .inl rfl
    | multi =>
      rcases r with e | _
      · cases h
      · exact .inr ⟨h, .inl rfl⟩
    | setEx k ttl payload =>
      rcases r with e | _
      · cases h
      · exact .inr ⟨h, .inr ⟨k, ttl, payload, rfl⟩⟩
    | _ => cases h
  | _ => cases h

/-- A task with a report is inside a transaction. -/
theorem phase_of_reportedTtl {t : DTask} {key : String} {reported : ℤ}
    (h : reportedTtl t = some (key, reported)) : (knowledge t).phase ≠ .idle := by
  rcases List.eq_nil_or_concat t.transcript with hnil | ⟨es, e, hes⟩
  · rw [reportedTtl, hnil] at h
    cases h
  · rw [reportedTtl, hes, List.concat_eq_append, List.foldl_concat] at h
    rw [knowledge, hes, List.concat_eq_append, List.foldl_concat]
    obtain ⟨c, r⟩ := e
    rcases nextReport_eq_some h with heq | ⟨-, heq | ⟨k, ttl, payload, heq⟩⟩ <;> cases heq <;>
      exact Phase.noConfusion

end ResponsesApiStore
