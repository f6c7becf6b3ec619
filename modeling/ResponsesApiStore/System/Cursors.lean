import ResponsesApiStore.System.Jobs
import ResponsesApiStore.Redis.Autoclaim
import ResponsesApiStore.Server.Permits
import ResponsesApiStore.Core.Cursor

/-!
# The autoclaim cursor

A claim of jobs reads the cursor of its group, may run `XAUTOCLAIM` from there, and runs the
cursor script with the cursor it has come to; nothing else is about the cursor. `CursorView` is
how far a claim has come, and `cursored` the protocol that says so: the script is run once, with
what `XAUTOCLAIM` returned, or, if the request asks for no idle entries, with the cursor as it
was read. Every other request sends nothing about the cursor at all
(`cursored_of_prog`).

On the side of Redis, the cursors change by scripts that run (`exec_cursors`), and an
`XAUTOCLAIM` examines every pending entry between its start and the cursor it returns
(`Examines`).
-/

namespace ResponsesApiStore

open Json (Serde)
open Redis (Error StreamId Group Pending autoclaimScan groupAt Examined)
open Interaction (Machine World Label Program Protocol)
open Interaction.Program

variable {N : Type}

/-! ### The protocol -/

/-- How far a claim has come: the cursor it has read, the cursors its `XAUTOCLAIM` started from
and returned, and whether it has run the script. -/
structure CursorView where
  read : Option String
  scan : Option (String × String)
  done : Bool

/-- Nothing is done yet. -/
def CursorView.init : CursorView := ⟨none, none, false⟩

/-- The view after an exchange. -/
def nextView (g : CursorView) : (c : Cmd) → c.Reply → CursorView
  | .getCursor _, .ok cursor => { g with read := some (cursor.getD "0-0") }
  | .stream (.xautoclaim _ _ _ start _), .ok reply =>
    { g with scan := some (start, reply.nextStreamId) }
  | .cursorScript .., _ => { g with done := true }
  | _, _ => g

/-- Where a claim may have come from to run the script with `cursor`. -/
inductive CursorView.Yields (claim : ClaimBackgroundJobsRequest) (cursor : String) :
    CursorView → Prop
  | unscanned (hidle : claim.autoclaimMinIdleMs = 0) :
    Yields claim cursor ⟨some cursor, none, false⟩
  | scanned {start : String} (hidle : claim.autoclaimMinIdleMs ≠ 0) :
      Yields claim cursor ⟨some start, some (start, cursor), false⟩

/-- What a claim sends about the cursor. -/
def cursored (cfg : StoreConfig) (claim : ClaimBackgroundJobsRequest) :
    Protocol sig CursorView where
  allowed g c := match c with
    | .getCursor key =>
      key = autoclaimCursorKey cfg.streamKey claim.consumerGroup ∧ g = .init
    | .stream (.xautoclaim group _ _ start _) => group = claim.consumerGroup ∧
        g = ⟨some start, none, false⟩
    | .cursorScript key cursor =>
      key = autoclaimCursorKey cfg.streamKey claim.consumerGroup ∧ g.Yields claim cursor
    | _ => True
  next := nextView

/-- The commands that are not about the cursor. -/
def Cmd.Uncursored : Cmd → Prop
  | .getCursor _ | .cursorScript .. | .stream (.xautoclaim ..) => False
  | _ => True

section Programs

variable {cfg : StoreConfig} {S : Serde N}

theorem permits_uncursored : Permits cfg (.only Cmd.Uncursored) := by
  refine ⟨fun {c} hc _ => ?_, fun _ _ _ => trivial, fun _ key reported payload _ => ?_⟩
  · cases c with
    | getCursor | cursorScript => exact hc.elim
    | stream c =>
      cases c with
      | xautoclaim => exact hc.elim
      | _ => trivial
    | _ => trivial
  · simp only [ResponseStore.commit, follows_except_bind_iff, follows_storage, follows_return,
      send, call, follows_cmd, follows_ret]
    refine ⟨trivial, fun multi => ?_⟩
    rcases multi with e | _
    · trivial
    refine ⟨trivial, fun setEx => ?_⟩
    rcases setEx with e | _
    · trivial
    refine ⟨trivial, fun exec => ?_⟩
    rcases exec with e | n <;> trivial

/-- What is not about the cursor leaves the view as it is. -/
theorem Cmd.Uncursored.inert {claim : ClaimBackgroundJobsRequest} (g : CursorView) (c : Cmd)
    (hc : c.Uncursored) : (cursored cfg claim).allowed g c ∧ ∀ r, nextView g c r = g := by
  cases c with
  | getCursor | cursorScript => exact hc.elim
  | stream c =>
    cases c with
    | xautoclaim => exact hc.elim
    | _ => exact ⟨trivial, fun _ => rfl⟩
  | _ => exact ⟨trivial, fun _ => rfl⟩

theorem cursored_claimIdle {claim : ClaimBackgroundJobsRequest} {options : ClaimOptions}
    {cursor : String} (hgroup : options.consumerGroup = claim.consumerGroup)
    (hidle : options.autoclaimMinIdleMs = claim.autoclaimMinIdleMs.toNat)
    (hcount : 0 < options.count) :
    (BackgroundQueue.claimIdle cfg S options cursor).run.Follows (cursored cfg claim)
      (fun g r => ∀ batch cursor', r = .ok (batch, cursor') → g.Yields claim cursor')
      ⟨some cursor, none, false⟩ := by
  rw [BackgroundQueue.claimIdle]
  split_ifs with hscan
  · have hne : claim.autoclaimMinIdleMs ≠ 0 := by
      intro hzero
      rw [hidle, hzero] at hscan
      exact absurd hscan.1 (by decide)
    simp only [BackgroundQueue.autoclaim, follows_except_bind_iff, follows_storage, send, call,
      follows_cmd, follows_ret]
    refine ⟨⟨hgroup, rfl⟩, fun reply => ?_⟩
    rcases reply with e | reply
    · rintro _ _ ⟨⟩
    refine ((permits_uncursored.safe_jobsFromStreamIds _ _ _ _ _).inert
      (Cmd.Uncursored.inert _)).mono ?_
    rintro g (fault | batch) rfl
    · rintro _ _ ⟨⟩
    · rintro _ _ ⟨⟩
      exact .scanned hne
  · rintro _ _ ⟨⟩
    refine .unscanned (UInt32.toNat_inj.mp ?_)
    rw [hidle] at hscan
    exact Nat.eq_zero_of_not_pos fun hpos => hscan ⟨hpos, hcount⟩

variable [DecidableEq N]

/-- **What a claim does to the cursor.** -/
theorem cursored_serve (fuel : ℕ) (claim : ClaimBackgroundJobsRequest) :
    (serve cfg S fuel (.claimBackgroundJobs claim)).Follows (cursored cfg claim)
      (fun _ _ => True) .init := by
  show (claimBackgroundJobs cfg S claim).run.Follows _ _ _
  rw [claimBackgroundJobs]
  split_ifs
  · trivial
  simp only [BackgroundQueue.getAutoclaimCursor, BackgroundQueue.claimJobs,
    BackgroundQueue.setAutoclaimCursor, follows_except_bind_iff, follows_rpc, follows_ofStatus,
    follows_outcome, follows_storage, follows_return, send, call, follows_cmd, follows_ret]
  refine ⟨⟨rfl, rfl⟩, fun reply => ?_⟩
  rcases reply with e | cursor
  · trivial
  have hcount : 0 < min (max claim.count.toNat 1) maxClaimCount := by
    simp [maxClaimCount]
  refine (cursored_claimIdle rfl rfl hcount).mono ?_
  rintro g (fault | ⟨result, cursor'⟩) hyields
  · trivial
  refine ((permits_uncursored.safe_claimNew _ _).inert (Cmd.Uncursored.inert g)).mono ?_
  rintro g' (fault | result') rfl
  · trivial
  refine ⟨⟨rfl, hyields _ _ rfl⟩, fun reply => ?_⟩
  simp only [Except.mapError]
  rcases result'.jobs.mapM (coreJobToProto S) with status | jobs <;> trivial

end Programs

/-! ### The view of a task -/

/-- How far a task has come with the cursor. -/
def cursorView (t : DTask) : CursorView :=
  t.transcript.foldl (fun g e => nextView g e.1 e.2) .init

@[simp]
theorem cursorView_advance (t : DTask) (c : Cmd) (k : c.Reply → Program sig RpcResult)
    (r : c.Reply) :
    cursorView (t.advance (S := sig) c k r) = nextView (cursorView t) c r := by
  simp [cursorView]

/-- What an exchange does to the view. -/
theorem nextView_cases (g : CursorView) (c : Cmd) (r : c.Reply) :
    nextView g c r = g ∨
      (∃ key cursor, (⟨c, r⟩ : sig.Exchange) = ⟨.getCursor key, .ok cursor⟩ ∧
        nextView g c r = { g with read := some (cursor.getD "0-0") }) ∨
      (∃ group consumer minIdle start count reply, (⟨c, r⟩ : sig.Exchange) =
          ⟨.stream (.xautoclaim group consumer minIdle start count), .ok reply⟩ ∧
        nextView g c r = { g with scan := some (start, reply.nextStreamId) }) ∨
      ∃ key cursor, c = .cursorScript key cursor ∧ nextView g c r = { g with done := true } := by
  cases c with
  | getCursor key =>
    rcases r with e | cursor
    · exact .inl rfl
    · exact .inr (.inl ⟨key, cursor, rfl, rfl⟩)
  | cursorScript key cursor => exact .inr (.inr (.inr ⟨key, cursor, rfl, rfl⟩))
  | stream c =>
    cases c with
    | xautoclaim group consumer minIdle start count =>
      rcases r with e | reply
      · exact .inl rfl
      · exact .inr (.inr (.inl ⟨group, consumer, minIdle, start, count, reply, rfl, rfl⟩))
    | _ => exact .inl rfl
  | _ => exact .inl rfl

variable {cfg : StoreConfig} {S : Serde N} {fuel : ℕ}

/-- **Who sends what about the cursor.** A command about the cursor is that of a claim, and its
protocol allows it. -/
theorem cursored_of_prog [DecidableEq N] {w : DWorld}
    (h : (deployment cfg S fuel).Transcribed w) {i : ℕ} {t : DTask} {c : Cmd}
    {k : c.Reply → Program sig RpcResult} (htask : w.tasks i = some t) (hprog : t.prog = .cmd c k) :
    c.Uncursored ∨ ∃ claim, t.call.request = .claimBackgroundJobs claim ∧
      (cursored cfg claim).allowed (cursorView t) c := by
  have hresumes : (serve cfg S fuel t.call.request).Resumes t.transcript t.prog := h i t htask
  by_cases hclaim : ∃ claim, t.call.request = .claimBackgroundJobs claim
  · obtain ⟨claim, hrequest⟩ := hclaim
    rw [hrequest] at hresumes
    have hfollows := (cursored_serve fuel claim).resume hresumes
    rw [hprog] at hfollows
    exact .inr ⟨claim, hrequest, hfollows.1⟩
  · have hsafe : Safe (.only Cmd.Uncursored) (serve cfg S fuel t.call.request) :=
      permits_uncursored.safe_serve fuel (not_exists.mp hclaim)
    have hfollows := (hsafe ()).resume hresumes
    rw [hprog] at hfollows
    exact .inl hfollows.1

/-! ### On the side of Redis -/

/-- The cursors change by a script that runs. -/
theorem exec_cursors {σ σ' : Shared} {i n : ℕ} {choice : Choice} {c : Cmd} {r : c.Reply}
    (h : σ.exec i n choice c = some (σ', r)) :
    σ'.cursors = σ.cursors ∨ ∃ key cursor stored, c = .cursorScript key cursor ∧
      choice.delivery.ran = true ∧
      BackgroundQueue.autoclaimCursorScript (σ.cursors key) cursor = .ok stored ∧
      σ'.cursors = Function.update σ.cursors key stored := by
  cases c with
  | cursorScript key cursor =>
    simp only [Shared.exec, Shared.runIf] at h
    split at h
    · rename_i stored hstored
      obtain ⟨rfl, -⟩ := Prod.mk.inj (Option.some.inj h)
      split_ifs with hran
      · exact .inr ⟨key, cursor, stored, rfl, hran, hstored, rfl⟩
      · exact .inl rfl
    · obtain ⟨rfl, -⟩ := Prod.mk.inj (Option.some.inj h)
      exact .inl rfl
  | stream c =>
    simp only [Shared.exec] at h
    split at h
    · obtain ⟨rfl, -⟩ := Prod.mk.inj (Option.some.inj h)
      exact .inl rfl
    · obtain ⟨x, -, hx⟩ := Option.map_eq_some_iff.mp h
      obtain ⟨rfl, -⟩ := Prod.mk.inj hx
      exact .inl rfl
  | lock =>
    simp only [Shared.exec] at h
    split at h <;> cases h
    exact .inl rfl
  | capabilities =>
    simp only [Shared.exec] at h
    repeat' split at h
    all_goals
      cases h
      exact .inl rfl
  | setEx | del | tx =>
    obtain ⟨rfl, -⟩ := Prod.mk.inj (Option.some.inj h)
    simp only [Shared.runIf]
    split_ifs <;> exact .inl rfl
  | _ =>
    obtain ⟨rfl, -⟩ := Prod.mk.inj (Option.some.inj h)
    exact .inl rfl

theorem env_cursors {σ σ' : Shared} {e : Env} (h : σ.env e = some σ') :
    σ'.cursors = σ.cursors := by
  cases e with
  | expire key | age key seconds =>
    obtain ⟨db, -, rfl⟩ := Option.map_eq_some_iff.mp h
    rfl
  | foreignSet key entry | foreignDel key | clock now =>
    obtain rfl := Option.some.inj h
    rfl

/-- A cursor read is the one stored. -/
theorem exec_getCursor {σ σ' : Shared} {i n : ℕ} {choice : Choice} {key : String}
    {cursor : Option String}
    (h : σ.exec i n choice (.getCursor key) = some (σ', .ok cursor)) :
    σ' = σ ∧ cursor = σ.cursors key := by
  obtain ⟨rfl, hreply⟩ := Prod.mk.inj (Option.some.inj h)
  rcases hd : choice.delivery with _ | ⟨err, ran, reconnected⟩ <;> rw [hd] at hreply
  · exact ⟨rfl, (Except.ok.inj hreply).symm⟩
  · cases hreply

/-- Step `l` is the `XAUTOCLAIM` of task `i` for a group; it starts from `start`, returns `next`,
and has looked at the pending entries `ids`. -/
structure Examines (w : DWorld) (l : DLabel) (i : ℕ) (group : String) (start next : StreamId)
    (ids : List StreamId) : Prop where
  runs : ∃ t consumer minIdle count,
    Runs w l i t (.stream (.xautoclaim group consumer minIdle start.format count))
  scans : ∃ choice g, l = .act i choice ∧ groupAt w.shared.stream group = some g ∧
    (autoclaimScan g start choice.stream.scan).next = next ∧
    (autoclaimScan g start choice.stream.scan).scanned.map Pending.id = ids

/-- An `XAUTOCLAIM` that is answered has examined the entries up to the cursor it returns. -/
theorem exec_xautoclaim {w : DWorld} {σ : Shared} {i : ℕ} {t : DTask} {choice : Choice}
    {group consumer : String} {minIdle count : ℕ} {start : StreamId}
    {reply : Redis.AutoclaimReply} {k : Except Error Redis.AutoclaimReply → Program sig RpcResult}
    (htask : w.tasks i = some t) (hlive : t.live = true)
    (hprog : t.prog =
      .cmd (.stream (.xautoclaim group consumer minIdle start.format count)) k)
    (hexec : w.shared.exec i t.call.server choice
      (.stream (.xautoclaim group consumer minIdle start.format count)) = some (σ, .ok reply)) :
    ∃ next ids, reply.nextStreamId = next.format ∧
      Examines w (.act i choice) i group start next ids ∧
      Examined σ.stream group start next ids := by
  have hreplied : choice.delivery = .replied := by
    simp only [Shared.exec] at hexec
    rcases hd : choice.delivery with _ | ⟨err, _ | _, reconnected⟩
    · rfl
    · rw [hd] at hexec
      cases (Prod.mk.inj (Option.some.inj hexec)).2
    · rw [hd] at hexec
      obtain ⟨x, -, hx⟩ := Option.map_eq_some_iff.mp hexec
      cases (Prod.mk.inj hx).2
  simp only [Shared.exec, hreplied] at hexec
  obtain ⟨⟨s', r⟩, hrun, hx⟩ := Option.map_eq_some_iff.mp hexec
  obtain ⟨rfl, rfl⟩ := Prod.mk.inj hx
  obtain ⟨start', g, hstart, hg, hnext⟩ := Redis.run_xautoclaim hrun
  rw [StreamId.parse_format] at hstart
  obtain rfl := Option.some.inj hstart
  refine ⟨_, _, hnext, ⟨⟨t, consumer, minIdle, count, htask, hlive, ⟨k, hprog⟩, choice, rfl, ?_⟩,
    choice, g, rfl, hg, rfl, rfl⟩, ?_⟩
  · rw [hreplied]
    rfl
  · exact (Redis.StreamCmd.run_step hrun).examined (Redis.examined_scan hg)

end ResponsesApiStore
