import ResponsesApiStore.Guarantees.Cursor
import ResponsesApiStore.Redis.Sweep
import ResponsesApiStore.Usage.Publications

/-!
# A full turn of the cursor

The claims of a group sweep its pending entries together: each starts its `XAUTOCLAIM` where the
stored cursor is, moves the cursor on to where it has come to, and back to `0-0` at the end. What
the sweep is for is stated over a whole turn of the cursor, from one moment at which it goes back
to `0-0` to another: every entry that was delivered by the first and is still pending at the
second has been looked at in between, and if it was idle for long enough then, the consumer of the
claim that looked owned it (`full_turn_looks_at_all`). So no job of a worker that is gone stays
behind.

This holds under the condition under which the cursor passes nothing unexamined (`KeepsCursor`), and
for names under which nobody else writes the key of the cursor.
A claim that moves the cursor has scanned from it or before (`cursor_moves`); when the cursor goes
back, no claim carries an older one (`no_carrier_after_wrap`). From there on what is below the
cursor has been looked at, and what a claim carries from its scan covers what it has passed
(`Swept`).
-/

namespace ResponsesApiStore

open Json (Serde)
open Redis (Error StreamId Group Pending StreamEntry autoclaimScan groupAt groupsOf
  entriesOf Covers)
open Interaction (Machine World Label Program)

variable {N : Type} [DecidableEq N] {cfg : StoreConfig} {S : Serde N} {fuel : ℕ}
  {w₀ u w w' : DWorld} {ls₀ ls : List DLabel} {l : DLabel}

/-! ### Who moves the cursor -/

/-- No cursor that is carried is ahead. -/
theorem current_of_run (hw : Initial w₀) (hstored : ∀ key, IsCursor (w₀.shared.cursors key))
    (hrun : (deployment cfg S fuel).RunIn (KeepsCursor cfg) w₀ ls w) :
    Current cfg w := by
  refine (hw.invariant hrun (I := fun w => CursorsWritten w ∧ Current cfg w) ?_ ?_).2
  · exact fun u l v _ ht hI hok hs => ⟨hI.1.step ht hs, Current.step hI.2 hI.1 ht hok hs⟩
  · refine ⟨hw.cursorsWritten hstored, ?_⟩
    rintro j key claim start ⟨⟨u, hu, -⟩, -⟩
    rw [hw.tasks j] at hu
    cases hu

/-- **Who moves the cursor.** Step `l` moves the cursor at `key` to `new`: it is the script of task
`i`, a claim of the group that carries the cursor `start` and has scanned from there to `new`. -/
structure Sweeps (cfg : StoreConfig) (w : DWorld) (l : DLabel) (key : String) (i : ℕ)
    (claim : ClaimBackgroundJobsRequest) (start new : StreamId) : Prop where
  runs : ∃ t, Runs w l i t (.cursorScript key new.format) ∧
    (cursorView t).scan = some (start.format, new.format)
  carries : CarriesCursor cfg w i key claim start.format

/-- Only a scan moves the cursor. -/
theorem cursor_moves (hw : Initial w₀) (hstored : ∀ key, IsCursor (w₀.shared.cursors key))
    (hrun : (deployment cfg S fuel).RunIn (KeepsCursor cfg) w₀ ls w) (hok : KeepsCursor cfg w l)
    (hs : (deployment cfg S fuel).Stepped w l w') {key : String}
    (hmoves : cursorId (w'.shared.cursors key) ≠ cursorId (w.shared.cursors key)) :
    ∃ i claim start, Sweeps cfg w l key i claim start (cursorId (w'.shared.cursors key)) := by
  have htranscribed : (deployment cfg S fuel).Transcribed w := hrun.transcribed hw.tasks
  have hwritten : CursorsWritten w := cursorsWritten_of_run hw hstored hrun
  have hcurrent : Current cfg w := current_of_run hw hstored hrun
  cases hs with
  | spawn hfree => exact absurd rfl hmoves
  | @act i choice t c k σ r htask hlive hprog hexec =>
    replace hexec : w.shared.exec i t.call.server choice c = some (σ, r) := hexec
    replace hmoves : cursorId (σ.cursors key) ≠ cursorId (w.shared.cursors key) := hmoves
    show ∃ i' claim start,
      Sweeps cfg w (.act i choice) key i' claim start (cursorId (σ.cursors key))
    rcases exec_cursors hexec with hsame | ⟨key', cursor, stored, rfl, hran, hscript, hcursors⟩
    · exact absurd (by rw [hsame]) hmoves
    obtain rfl : key = key' := by
      by_contra hne
      rw [hcursors, Function.update_of_ne hne] at hmoves
      exact hmoves rfl
    obtain hfree | ⟨claim, hrequest, hkey, hyields⟩ := cursored_of_prog htranscribed htask hprog
    · exact hfree.elim
    obtain ⟨new, rfl⟩ := hwritten.yields htask hyields
    have hruns : Runs w (.act i choice) i t (.cursorScript key new.format) :=
      ⟨htask, hlive, ⟨k, hprog⟩, choice, rfl, hran⟩
    obtain ⟨hcases, hzero, hlt⟩ :=
      BackgroundQueue.autoclaimCursorScript_eq_ok (hwritten.stored key) hscript
    rw [hcursors, Function.update_self] at hmoves ⊢
    have hnew : stored = some new.format :=
      hcases.resolve_left fun hsame => hmoves (by rw [hsame])
    rw [hnew, cursorId_format] at hmoves ⊢
    have hcarries : ∀ start, (cursorView t).read = some start → (cursorView t).done = false →
        CarriesCursor cfg w i key claim start := fun start hread hdone =>
      ⟨⟨t, htask, hlive, hrequest, hread, hdone⟩, hkey⟩
    rcases hview : cursorView t with ⟨read, scan, done⟩
    rw [hview] at hyields hcarries
    cases hyields with
    | unscanned hidle =>
      -- such a claim leaves the cursor where it is
      obtain ⟨hle, hfresh⟩ := hcurrent (hcarries new.format rfl rfl)
      rw [cursorId_format] at hle
      by_cases hback : new = .zero
      · have hold := hfresh hidle (format_eq_zero_iff.mpr hback)
        exact absurd (hback.trans hold.symm) hmoves
      · have hcomparable := hok.comparable hruns
        rw [cursorId_format] at hcomparable
        rcases hlt hback hcomparable with hkept | hlt
        · rw [← hkept, hnew, cursorId_format] at hmoves
          exact absurd rfl hmoves
        · exact absurd hlt (not_lt.mpr hle)
    | @scanned start hidle =>
      obtain ⟨s, rfl⟩ : ∃ s : StreamId, start = s.format :=
        hwritten.read i t htask start (by rw [hview]; rfl)
      exact ⟨i, claim, s, ⟨t, hruns, by rw [hview]⟩, hcarries s.format rfl rfl⟩
  | @drop i t htask hlive =>
    replace hmoves : cursorId ((w.shared.release i t.call.server).cursors key) ≠
      cursorId (w.shared.cursors key) := hmoves
    rw [Shared.release_cursors] at hmoves
    exact absurd rfl hmoves
  | env henv =>
    rw [env_cursors henv] at hmoves
    exact absurd rfl hmoves

/-- When the cursor goes back to `0-0`, no claim carries one. -/
theorem no_carrier_after_wrap (hw : Initial w₀) (hstored : ∀ key, IsCursor (w₀.shared.cursors key))
    (hrun : (deployment cfg S fuel).RunIn (KeepsCursor cfg) w₀ ls w) (hok : KeepsCursor cfg w l)
    (hs : (deployment cfg S fuel).Stepped w l w') {key : String}
    (hahead : cursorId (w.shared.cursors key) ≠ .zero)
    (hback : cursorId (w'.shared.cursors key) = .zero) {j : ℕ} {claim : ClaimBackgroundJobsRequest}
    {start : String} : ¬CarriesCursor cfg w' j key claim start := by
  intro hcarries
  have hmoves : cursorId (w'.shared.cursors key) ≠ cursorId (w.shared.cursors key) := by
    rw [hback]
    exact hahead.symm
  obtain ⟨i, claim', start', ⟨⟨t, hruns, -⟩, -⟩⟩ := cursor_moves hw hstored hrun hok hs hmoves
  rw [hback, format_zero] at hruns
  obtain ⟨choice, k, σ, r, rfl, -, -, -, rfl⟩ := hruns.stepped hs
  by_cases hji : j = i
  · subst hji
    exact (hcarries.of_view hruns.task hruns.live).1 key "0-0" rfl
  · obtain ⟨⟨v, hv, hrest⟩, hkey⟩ := hcarries
    rw [World.put_tasks_of_ne _ _ hji] at hv
    have hbefore : CarriesCursor cfg w j key claim start := ⟨⟨v, hv, hrest⟩, hkey⟩
    exact hahead (hok.wrap hruns hji hbefore)

/-! ### What is looked at -/

/-- Step `l` is an `XAUTOCLAIM` of `consumer` for the group, with the choice made, that looks at the
pending entry `id`. -/
def ScansFor (group consumer : String) (id : StreamId) (choice : Choice) (w : DWorld)
    (l : DLabel) : Prop :=
  ∃ i t minIdle start count g,
    Runs w l i t (.stream (.xautoclaim group consumer minIdle (StreamId.format start) count)) ∧
    l = .act i choice ∧ groupAt w.shared.stream group = some g ∧
    id ∈ (autoclaimScan g start choice.stream.scan).scanned.map Pending.id

/-- Step `l` is an `XAUTOCLAIM` for the group that looks at its pending entry `id`; if this is
idle for long enough and still in the stream, the consumer of the `XAUTOCLAIM` owns it then. -/
def LooksAt (M : DMachine) (group : String) (id : StreamId) (w : DWorld) (l : DLabel) : Prop :=
  ∃ consumer choice, ScansFor group consumer id choice w l ∧
    ∀ w', M.step w l = some w' → choice.stream.idle id = true →
      (∃ e ∈ entriesOf w.shared.stream, e.id = id) →
      ∃ g, groupAt w'.shared.stream group = some g ∧ ⟨id, consumer⟩ ∈ g.pel

/-- An entry that is examined is looked at. -/
theorem looksAt_of_examines {i : ℕ} {group : String} {start next id : StreamId}
    {ids : List StreamId} (h : Examines w l i group start next ids) (hid : id ∈ ids) :
    LooksAt (deployment cfg S fuel) group id w l := by
  obtain ⟨t, consumer, minIdle, count, hruns⟩ := h.runs
  obtain ⟨choice, g, hl, hg, hnext, hids⟩ := h.scans
  rw [← hids] at hid
  refine ⟨consumer, choice, ⟨i, t, minIdle, start, count, g, hruns, hl, hg, hid⟩,
    fun w' hstep hidle hentry => ?_⟩
  obtain ⟨choice', k, σ, r, hlabel, hran, -, hexec, rfl⟩ :=
    hruns.stepped (Machine.step_eq_some_iff.mp hstep)
  obtain rfl : choice' = choice := (Label.act.inj (hlabel.symm.trans hl)).2
  obtain ⟨r', hrun⟩ := run_of_exec hexec hran
  rcases hstream : w.shared.stream with _ | stream
  · rw [hstream] at hentry
    obtain ⟨e, he, -⟩ := hentry
    cases he
  · rw [hstream] at hrun hg hentry
    have hfound : (stream.findEntry id).isSome = true := by
      obtain ⟨e, he, heq⟩ := hentry
      exact List.find?_isSome.mpr ⟨e, he, decide_eq_true heq⟩
    exact Redis.owned_of_scanned hrun hg hid hidle hfound

/-- What a run of the deployment has looked at, the same run over one keyspace has. -/
theorem looked_oneKeyspace (hapart : KeysApart cfg) (hu : Orderly cfg u)
    (hleaves : ∀ l ∈ ls, LeavesQueue cfg l = true) {group : String} {id : StreamId}
    (h : (deployment cfg S fuel).Takes (KeepsCursor cfg)
      (LooksAt (deployment cfg S fuel) group id) u ls w) :
    (oneKeyspace cfg S fuel).Takes (KeepsCursor cfg) (LooksAt (oneKeyspace cfg S fuel) group id)
      u ls w := by
  refine (takes_oneKeyspace hapart hu hleaves h).imp ?_
  rintro ls' x l hx - ⟨consumer, choice, hscans, howned⟩
  refine ⟨consumer, choice, hscans, fun w' hstep => howned w' ?_⟩
  exact step_deployment hapart (hu.run hapart hx) hstep

/-! ### The sweep of one turn -/

/-- **What a turn has swept.** In the run `ls` from `u` to `w`, with `bound` delivered to the group
at `u`: what is pending up to `bound` and below the cursor has been looked at; and what a claim
carries from its scan covers what it has passed, all of it looked at. -/
structure Swept (cfg : StoreConfig) (S : Serde N) (fuel : ℕ) (group : String) (bound : StreamId)
    (u : DWorld) (ls : List DLabel) (w : DWorld) : Prop where
  delivered : ∃ g, groupAt w.shared.stream group = some g ∧ bound ≤ g.lastDelivered
  passed : ∀ g, groupAt w.shared.stream group = some g → ∀ p ∈ g.pel, p.id ≤ bound →
    p.id < cursorId (w.shared.cursors (autoclaimCursorKey cfg.streamKey group)) →
    (deployment cfg S fuel).Takes (KeepsCursor cfg)
      (LooksAt (deployment cfg S fuel) group p.id) u ls w
  scanned : ∀ i t claim start next, w.tasks i = some t → claim.consumerGroup = group →
    CarriesCursor cfg w i (autoclaimCursorKey cfg.streamKey group) claim start →
    (cursorView t).scan = some (start, next) →
    ∃ (s n : StreamId) (ids : List StreamId), start = s.format ∧ next = n.format ∧
      (∀ id ∈ ids, (deployment cfg S fuel).Takes (KeepsCursor cfg)
        (LooksAt (deployment cfg S fuel) group id) u ls w) ∧
      Covers w.shared.stream group s n bound ids

/-- The books say that nothing pending is `0-0`. -/
theorem pending_positive {stream : Option Redis.Stream} (h : Redis.Accounts stream) {group : String}
    {g : Group} (hg : groupAt stream group = some g) {p : Pending} (hp : p ∈ g.pel) :
    StreamId.zero < p.id := by
  obtain ⟨hmem, -⟩ := Redis.Stream.group?_eq_some hg
  have hknown := ((h.getD).groups g hmem).known p hp
  exact (StreamId.zero_le g.start).trans_lt hknown.1

theorem Sound.covers_step (h : Sound cfg S w) (hs : (deployment cfg S fuel).Stepped w l w')
    {group : String} {start next bound : StreamId} {ids : List StreamId}
    (hcovers : Covers w.shared.stream group start next bound ids) :
    Covers w'.shared.stream group start next bound ids := by
  rcases h.stream_step hs with hsame | ⟨i, t, c, handed, -, -, hstep⟩
  · rw [hsame]
    exact hcovers
  · exact hstep.covers hcovers

/-- What a group has pending up to what was delivered, it had pending before the step. -/
theorem Sound.pending_before (h : Sound cfg S w) (hs : (deployment cfg S fuel).Stepped w l w')
    {group : String} {g g' : Group} (hg : groupAt w.shared.stream group = some g)
    (hg' : groupAt w'.shared.stream group = some g') {p : Pending} (hp : p ∈ g'.pel)
    (hle : p.id ≤ g.lastDelivered) : ∃ q ∈ g.pel, q.id = p.id := by
  rcases h.stream_step hs with hsame | ⟨i, t, c, handed, -, -, hstep⟩
  · rw [hsame] at hg'
    obtain rfl : g = g' := Option.some.inj (hg.symm.trans hg')
    exact ⟨p, hp, rfl⟩
  · exact hstep.pending_before hg hg' hp hle

section Steps

variable {group : String} {bound : StreamId}

/-- Where the cursor moves to, everything before it has been looked at; all of it, if it goes back
to `0-0`. -/
theorem Swept.looked_at (hI : Swept cfg S fuel group bound u ls w) (hw : Initial w₀)
    (hstored : ∀ key, IsCursor (w₀.shared.cursors key))
    (hrun : (deployment cfg S fuel).RunIn (KeepsCursor cfg) w₀ ls₀ w) {i : ℕ}
    {claim : ClaimBackgroundJobsRequest} {start new : StreamId}
    (hsweeps : Sweeps cfg w l (autoclaimCursorKey cfg.streamKey group) i claim start new)
    {g : Group}
    (hg : groupAt w.shared.stream group = some g) {p : Pending} (hp : p ∈ g.pel)
    (hle : p.id ≤ bound) (hbelow : p.id < new ∨ new = .zero) :
    (deployment cfg S fuel).Takes (KeepsCursor cfg)
      (LooksAt (deployment cfg S fuel) group p.id) u ls w := by
  by_cases hpassed : p.id < cursorId (w.shared.cursors (autoclaimCursorKey cfg.streamKey group))
  · exact hI.passed g hg p hp hle hpassed
  -- the scan started at the stored cursor or before
  have hstart := (current_of_run hw hstored hrun hsweeps.carries).1
  rw [cursorId_format] at hstart
  have hfrom : start ≤ p.id := hstart.trans (not_lt.mp hpassed)
  have hgroup : claim.consumerGroup = group := autoclaimCursorKey_inj.mp hsweeps.carries.key.symm
  obtain ⟨t, hruns, hscan⟩ := hsweeps.runs
  obtain ⟨s, n, ids, hs, hn, hlooked, g', hg', -, hcovered⟩ :=
    hI.scanned i t claim _ _ hruns.task hgroup hsweeps.carries hscan
  obtain rfl := StreamId.format_injective hs
  obtain rfl := StreamId.format_injective hn
  obtain rfl : g = g' := Option.some.inj (hg.symm.trans hg')
  exact hlooked p.id (hcovered p hp hle hfrom hbelow)

/-- What a claim carries from its scan after a step. -/
theorem Swept.scanned_step (hI : Swept cfg S fuel group bound u ls w) (hw : Initial w₀)
    (haccounts : Redis.Accounts w₀.shared.stream)
    (hstored : ∀ key, IsCursor (w₀.shared.cursors key))
    (hrun : (deployment cfg S fuel).RunIn (KeepsCursor cfg) w₀ ls₀ w)
    (hr : (deployment cfg S fuel).RunIn (KeepsCursor cfg) u ls w) (hok : KeepsCursor cfg w l)
    (hs : (deployment cfg S fuel).Stepped w l w') {i : ℕ} {t : DTask}
    {claim : ClaimBackgroundJobsRequest} {start next : String}
    (htask : w'.tasks i = some t) (hgroup : claim.consumerGroup = group)
    (hcarries : CarriesCursor cfg w' i (autoclaimCursorKey cfg.streamKey group) claim start)
    (hscan : (cursorView t).scan = some (start, next)) :
    ∃ (s n : StreamId) (ids : List StreamId), start = s.format ∧ next = n.format ∧
      (∀ id ∈ ids, (deployment cfg S fuel).Takes (KeepsCursor cfg)
        (LooksAt (deployment cfg S fuel) group id) u (ls ++ [l]) w') ∧
      Covers w'.shared.stream group s n bound ids := by
  have hsound : Sound cfg S w := sound_of_run hw hrun
  have htranscribed : (deployment cfg S fuel).Transcribed w := hrun.transcribed hw.tasks
  have hwritten : CursorsWritten w := cursorsWritten_of_run hw hstored hrun
  -- what it carried before it still carries
  have hearlier : ∀ t', w.tasks i = some t' →
      CarriesCursor cfg w i (autoclaimCursorKey cfg.streamKey group) claim start →
      (cursorView t').scan = some (start, next) →
      ∃ (s n : StreamId) (ids : List StreamId), start = s.format ∧ next = n.format ∧
        (∀ id ∈ ids, (deployment cfg S fuel).Takes (KeepsCursor cfg)
          (LooksAt (deployment cfg S fuel) group id) u (ls ++ [l]) w') ∧
        Covers w'.shared.stream group s n bound ids := by
    intro t' ht' hcarries' hscan'
    obtain ⟨s, n, ids, hstart, hnext, hlooked, hcovers⟩ :=
      hI.scanned i t' claim start next ht' hgroup hcarries' hscan'
    exact ⟨s, n, ids, hstart, hnext, fun id hid => (hlooked id hid).snoc hok hs,
      hsound.covers_step hs hcovers⟩
  obtain ⟨⟨v, hv, hlive, hrequest, hread, hdone⟩, hkey⟩ := hcarries
  obtain rfl : t = v := Option.some.inj (htask.symm.trans hv)
  rcases hs.task_cases htask with ⟨ht, -⟩ | ⟨call, -, rfl⟩ |
    ⟨t', c, k, r, σ, choice, rfl, ht', hlive', hprog, hexec, hσ, rfl⟩ | ⟨t', -, -, rfl⟩
  · exact hearlier t ht ⟨⟨t, ht, hlive, hrequest, hread, hdone⟩, hkey⟩ hscan
  · cases hscan
  · replace hexec : w.shared.exec i t'.call.server choice c = some (σ, r) := hexec
    replace hrequest : t'.call.request = .claimBackgroundJobs claim := hrequest
    rw [cursorView_advance] at hread hdone hscan
    have hallowed := cursored_of_prog htranscribed ht' hprog
    rcases nextView_cases (cursorView t') c r with hsame | ⟨key', cursor, heq, hnext⟩ |
      ⟨group', consumer, minIdle, start', count, reply, heq, hnext⟩ | ⟨key', cursor, rfl, hnext⟩
    · rw [hsame] at hread hdone hscan
      exact hearlier t' ht' ⟨⟨t', ht', hlive', hrequest, hread, hdone⟩, hkey⟩ hscan
    · -- the cursor is read before the scan
      cases heq
      obtain hfree | ⟨claim', -, -, hinit⟩ := hallowed
      · exact hfree.elim
      rw [hnext, hinit] at hscan
      cases hscan
    · cases heq
      obtain hfree | ⟨claim', hrequest', hgroup', hview⟩ := hallowed
      · exact hfree.elim
      rw [hrequest] at hrequest'
      cases hrequest'
      rw [hnext] at hscan
      obtain ⟨rfl, rfl⟩ := Prod.mk.inj (Option.some.inj hscan)
      obtain ⟨s, rfl⟩ := hwritten.read i t' ht' start' (by rw [hview]; rfl)
      obtain ⟨n, ids, hreply, hexamines, -⟩ := exec_xautoclaim ht' hlive' hprog hexec
      rw [hgroup', hgroup] at hexamines
      refine ⟨s, n, ids, rfl, hreply, fun id hid => ?_, ?_⟩
      · exact hr.takes_last hok (looksAt_of_examines hexamines hid) hs
      · obtain ⟨choice', g, -, hg, hn, hids⟩ := hexamines.scans
        obtain ⟨g', hg', hbound⟩ := hI.delivered
        obtain rfl : g = g' := Option.some.inj (hg.symm.trans hg')
        have hpositive : ∀ p ∈ g.pel, StreamId.zero < p.id := fun p hp =>
          pending_positive (accounts_of_run hw haccounts hrun) hg hp
        have hcovers : Redis.Covers _ _ s (Redis.autoclaimScan g s choice'.stream.scan).next bound
            ((Redis.autoclaimScan g s choice'.stream.scan).scanned.map Redis.Pending.id) :=
          Redis.covers_scan hg hpositive hbound
        rw [hn, hids] at hcovers
        exact hsound.covers_step hs hcovers
    · rw [hnext] at hdone
      cases hdone
  · cases hlive

/-- **One step of a turn.** -/
theorem Swept.step (hI : Swept cfg S fuel group bound u ls w) (hw : Initial w₀)
    (haccounts : Redis.Accounts w₀.shared.stream)
    (hstored : ∀ key, IsCursor (w₀.shared.cursors key))
    (hrun : (deployment cfg S fuel).RunIn (KeepsCursor cfg) w₀ ls₀ w)
    (hr : (deployment cfg S fuel).RunIn (KeepsCursor cfg) u ls w) (hok : KeepsCursor cfg w l)
    (hs : (deployment cfg S fuel).Stepped w l w') :
    Swept cfg S fuel group bound u (ls ++ [l]) w' := by
  have hsound : Sound cfg S w := sound_of_run hw hrun
  obtain ⟨g, hg, hbound⟩ := hI.delivered
  refine ⟨?_, fun g' hg' p hp hle hbelow => ?_, ?_⟩
  · rcases hsound.stream_step hs with hsame | ⟨i, t, c, handed, -, -, hstep⟩
    · exact ⟨g, hsame ▸ hg, hbound⟩
    · obtain ⟨g', hg', hmono, -⟩ := hstep.pel_cases hg
      exact ⟨g', hg', hbound.trans hmono⟩
  · obtain ⟨q, hq, heq⟩ := hsound.pending_before hs hg hg' hp (hle.trans hbound)
    rw [← heq] at hle hbelow ⊢
    by_cases hsame : cursorId (w'.shared.cursors (autoclaimCursorKey cfg.streamKey group)) =
        cursorId (w.shared.cursors (autoclaimCursorKey cfg.streamKey group))
    · rw [hsame] at hbelow
      exact (hI.passed g hg q hq hle hbelow).snoc hok hs
    · obtain ⟨i, claim, start, hsweeps⟩ := cursor_moves hw hstored hrun hok hs hsame
      exact (hI.looked_at hw hstored hrun hsweeps hg hq hle (.inl hbelow)).snoc hok hs
  · intro i t claim start next htask hgroup hcarries hscan
    exact hI.scanned_step hw haccounts hstored hrun hr hok hs htask hgroup hcarries hscan

end Steps

/-- **A full turn of the cursor looks at everything.** Under names that are apart, in every run that
keeps the cursors that are carried: when the cursor of a group goes back to `0-0` at step `l`, and
again at step `l'`, every entry that the group had been delivered at the first moment and has
pending at the second was looked at by an `XAUTOCLAIM` of the group in between; and if it was idle
for long enough then, and still in the stream, the consumer that looked owned it afterwards. -/
theorem full_turn_looks_at_all {x y v : DWorld} {l' : DLabel} {group : String} {g g' : Group}
    {p : Pending} (hapart : KeysApart cfg)
    (hw : SortedStart cfg w₀) (haccounts : Redis.Accounts w₀.shared.stream)
    (hstored : ∀ key, IsCursor (w₀.shared.cursors key))
    (hrun : (oneKeyspace cfg S fuel).RunIn (KeepsCursor cfg) w₀ ls₀ x)
    (hwrap : (oneKeyspace cfg S fuel).RunIn (KeepsCursor cfg) x [l] u)
    (hturn : (oneKeyspace cfg S fuel).RunIn (KeepsCursor cfg) u ls y)
    (hwrap' : (oneKeyspace cfg S fuel).RunIn (KeepsCursor cfg) y [l'] v)
    (hahead : cursorId (x.shared.cursors (autoclaimCursorKey cfg.streamKey group)) ≠ .zero)
    (hback : cursorId (u.shared.cursors (autoclaimCursorKey cfg.streamKey group)) = .zero)
    (hahead' : cursorId (y.shared.cursors (autoclaimCursorKey cfg.streamKey group)) ≠ .zero)
    (hback' : cursorId (v.shared.cursors (autoclaimCursorKey cfg.streamKey group)) = .zero)
    (hg : groupAt u.shared.stream group = some g) (hg' : groupAt v.shared.stream group = some g')
    (hp : p ∈ g'.pel) (hdelivered : p.id ≤ g.lastDelivered) :
    (oneKeyspace cfg S fuel).Takes (KeepsCursor cfg)
      (LooksAt (oneKeyspace cfg S fuel) group p.id) u ls y := by
  have hx : Orderly cfg x := hw.orderly.run hapart hrun
  have horderly : Orderly cfg u := hx.run hapart hwrap
  refine looked_oneKeyspace hapart horderly (leavesQueue_of_run hturn) ?_
  replace hwrap' := runIn_deployment hapart (horderly.run hapart hturn) hwrap'
  replace hturn := runIn_deployment hapart horderly hturn
  replace hwrap := runIn_deployment hapart hx hwrap
  replace hrun := runIn_deployment hapart hw.orderly hrun
  replace hw : Initial w₀ := hw.toInitial
  obtain ⟨hok, u', hu, rfl⟩ := hwrap
  obtain ⟨hok', v', hv, rfl⟩ := hwrap'
  have hs := Machine.step_eq_some_iff.mp hu
  have hs' := Machine.step_eq_some_iff.mp hv
  have hrunU : (deployment cfg S fuel).RunIn (KeepsCursor cfg) w₀ (ls₀ ++ [l]) u' :=
    hrun.append (.single hok hu)
  -- the turn begins: nothing is below the cursor, and no claim carries one
  have hbegin : Swept cfg S fuel group g.lastDelivered u' [] u' := by
    refine ⟨⟨g, hg, le_rfl⟩, fun _ _ p _ _ hbelow => ?_, ?_⟩
    · rw [hback] at hbelow
      exact absurd hbelow (not_lt.mpr (StreamId.zero_le p.id))
    · intro i t claim start next _ _ hcarries
      exact absurd hcarries (no_carrier_after_wrap hw hstored hrun hok hs hahead hback)
  have hend : Swept cfg S fuel group g.lastDelivered u' ls y :=
    Machine.RunIn.snoc_induction hbegin (fun ls w l v hr ih hok hs =>
      ih.step hw haccounts hstored (hrunU.append hr) hr hok hs) hturn
  -- the turn ends: the last scan has come to the end
  have hrunY := hrunU.append hturn
  obtain ⟨gy, hgy, hbound⟩ := hend.delivered
  obtain ⟨q, hq, heq⟩ :=
    (sound_of_run hw hrunY).pending_before hs' hgy hg' hp (hdelivered.trans hbound)
  have hmoves : cursorId (v'.shared.cursors (autoclaimCursorKey cfg.streamKey group)) ≠
      cursorId (y.shared.cursors (autoclaimCursorKey cfg.streamKey group)) := by
    rw [hback']
    exact hahead'.symm
  obtain ⟨i, claim, start, hsweeps⟩ := cursor_moves hw hstored hrunY hok' hs' hmoves
  rw [hback'] at hsweeps
  rw [← heq] at hdelivered ⊢
  exact hend.looked_at hw hstored hrunY hsweeps hgy hq hdelivered (.inr rfl)

/-! ### A turn -/

namespace Sample

/-- A script runs only while no other of the first ten tasks is a claim under way; no further task
is spawned. -/
def alone (w : DWorld) : DLabel → Bool
  | .spawn i _ => decide (i < 10)
  | .act i _ => match awaits w i with
    | some (.cursorScript key cursor) =>
      ((List.range 10).all fun j => j = i || !underWay w j) &&
        decide ((cursorId (w.shared.cursors key)).ms.toNat < 2 ^ 53 ∨
          (cursorId (some cursor)).ms.toNat < 2 ^ 53)
    | _ => true
  | _ => true

/-- Such a step keeps the cursors, if there are no further tasks. -/
theorem keepsCursor_of_alone_check {w : DWorld} {l : DLabel} (h : alone w l = true)
    (hnone : ∀ j, 10 ≤ j → w.tasks j = none) : KeepsCursor config w l := by
  have hscript : ∀ {i t key cursor}, Runs w l i t (.cursorScript key cursor) →
      (∀ j ≠ i, underWay w j = false) ∧
        Comparable (cursorId (w.shared.cursors key)) (cursorId (some cursor)) := by
    intro i t key cursor hruns
    obtain ⟨choice, rfl, -⟩ := hruns.label
    simp only [alone, hruns.awaits, Bool.and_eq_true, decide_eq_true_eq] at h
    refine ⟨fun j hne => ?_, h.2⟩
    by_cases hj : j < 10
    · have hidle := List.all_eq_true.mp h.1 j (List.mem_range.mpr hj)
      simpa [hne] using hidle
    · simp [underWay, hnone j (not_lt.mp hj)]
  constructor
  · intro i t key j claim start hruns hne hcarries
    have hunder := hcarries.underWay
    rw [(hscript hruns).1 j hne] at hunder
    cases hunder
  · intro i t key cursor j claim hruns hne hcarries
    have hunder := hcarries.underWay
    rw [(hscript hruns).1 j hne] at hunder
    cases hunder
  · exact fun hruns => (hscript hruns).2

theorem keepsCursor_of_alone_run {u w : DWorld} {ls : List DLabel}
    (h : machineIn.RunIn (fun w l => alone w l = true) u ls w)
    (hnone : ∀ j, 10 ≤ j → u.tasks j = none) :
    machineIn.RunIn (KeepsCursor config) u ls w ∧ ∀ j, 10 ≤ j → w.tasks j = none := by
  induction ls generalizing u with
  | nil => exact ⟨h, fun j hj => (h : u = w) ▸ hnone j hj⟩
  | cons l ls ih =>
    obtain ⟨hok, x, hx, hr⟩ := h
    have hnone' : ∀ j, 10 ≤ j → x.tasks j = none := by
      intro j hj
      rcases hxj : x.tasks j with _ | t
      · rfl
      rcases (Machine.step_eq_some_iff.mp hx).task_cases hxj with ⟨ht, -⟩ | ⟨call, rfl, -⟩ |
        ⟨t', c, k, r, σ, choice, -, ht, -⟩ | ⟨t', -, ht, -⟩
      · rw [hnone j hj] at ht
        cases ht
      · rw [alone, decide_eq_true_eq] at hok
        exact absurd hok (not_lt.mpr hj)
      · rw [hnone j hj] at ht
        cases ht
      · rw [hnone j hj] at ht
        cases ht
    obtain ⟨hrest, hlast⟩ := ih hr hnone'
    exact ⟨⟨keepsCursor_of_alone_check hok hnone, x, hx, hrest⟩, hlast⟩

/-- Claim `i` of `g` looks at the entries that `scan` says, none of them idle for long enough, and
stands before its script. -/
def sweep (i : ℕ) (scan : Choice) : List DLabel :=
  [.spawn i ⟨0, .claimBackgroundJobs ⟨"g", "c", 2, 0, 60000⟩⟩, .act i answered, .act i scan,
    .act i answered]

/-- The step is answered; an `XAUTOCLAIM` looks at `n` pending entries, all idle for long enough. -/
def takes (n : ℕ) : Choice :=
  { answered with stream := { answered.stream with scan := n, idle := fun _ => true } }

/-- Claim `i` of `g` for the consumer `d` takes over the entry it looks at, and has taken `n` steps
then. -/
def takeOver (i scan n : ℕ) : List DLabel :=
  .spawn i ⟨0, .claimBackgroundJobs ⟨"g", "d", 2, 0, 60000⟩⟩ ::
    List.replicate n (.act i (takes scan))

/-- The claims `5` and `6` lead the cursor to `6-0` and back, the claims `7` and `8` likewise. -/
def secondTurn : List DLabel := takeOver 7 1 5 ++ takeOver 8 9 4

/-- What is looked at in the second turn is idle for long enough. -/
theorem idle_of_secondTurn {i : ℕ} {choice : Choice} (h : .act i choice ∈ secondTurn) :
    choice.stream.idle ⟨5, 3⟩ = true := by
  have hidle : ∀ l ∈ secondTurn, ∀ i choice, l = .act i choice →
      choice.stream.idle = fun _ => true := by
    simp [secondTurn, takeOver, takes]
  rw [hidle _ h i choice rfl]

/-- Where the cursor is. -/
def cursorOf (w : DWorld) : StreamId := cursorId (w.shared.cursors cursorKey)

set_option maxRecDepth 100000 in
/-- Two turns of the cursor. The entry `5-3` is pending all the time, first for the consumer `c` and
then for `d`. -/
def twoTurns : machineIn.Recording alone (start none) (fun x => cursorOf x ≠ .zero ∧
    (machineIn.execIn? alone x [.act 6 answered]).any (fun u => cursorOf u = .zero ∧
      (groupAt u.shared.stream "g").any (fun g => decide ((⟨5, 3⟩ : StreamId) ≤ g.lastDelivered)) ∧
      (⟨5, 3⟩ : StreamId) ∈ (entriesOf u.shared.stream).map StreamEntry.id ∧
      (machineIn.execIn? alone u secondTurn).any (fun y => cursorOf y ≠ .zero ∧
        (machineIn.execIn? alone y [.act 8 answered]).any (fun v => cursorOf v = .zero ∧
          (groupAt v.shared.stream "g").any fun g =>
            g.pel.any fun p => decide (p.id = ⟨5, 3⟩ ∧ p.consumer = "d"))))) :=
  ⟨delivered ++ sweep 5 scansOne ++ [.act 5 answered] ++ sweep 6 scansAll, by decide +kernel⟩

end Sample

open Sample

/-- In the second turn the entry is looked at, and it is taken over. -/
theorem full_turn_looks_at_all_two : ∃ ls u y,
    machineIn.RunIn (KeepsCursor config) (start none) ls u ∧
    machineIn.RunIn (KeepsCursor config) u secondTurn y ∧
    machineIn.Takes (KeepsCursor config) (fun w l => ∃ consumer choice,
      ScansFor "g" consumer ⟨5, 3⟩ choice w l ∧ ∀ w', machineIn.step w l = some w' →
        ∃ g, groupAt w'.shared.stream "g" = some g ∧ ⟨⟨5, 3⟩, consumer⟩ ∈ g.pel) u
        secondTurn y := by
  obtain ⟨x, hrun, hahead, hrest⟩ := twoTurns.exists_runIn fun _ _ h => h
  obtain ⟨u, hwrap, hback, hgroup, hentry, hrest⟩ := Machine.exists_runIn (fun _ _ h => h) hrest
  obtain ⟨y, hturn, hahead', hrest⟩ := Machine.exists_runIn (fun _ _ h => h) hrest
  obtain ⟨v, hwrap', hback', hgroup'⟩ := Machine.exists_runIn (fun _ _ h => h) hrest
  obtain ⟨hrun, hx⟩ := keepsCursor_of_alone_run hrun fun j _ => rfl
  obtain ⟨hwrap, hu⟩ := keepsCursor_of_alone_run hwrap hx
  obtain ⟨hturn, hy⟩ := keepsCursor_of_alone_run hturn hu
  obtain ⟨hwrap', -⟩ := keepsCursor_of_alone_run hwrap' hy
  obtain ⟨g, hg, hdelivered⟩ := (Option.any_eq_true _ _).mp hgroup
  obtain ⟨g', hg', hpending⟩ := (Option.any_eq_true _ _).mp hgroup'
  obtain ⟨p, hp, hid⟩ := List.any_eq_true.mp hpending
  obtain ⟨hid, -⟩ := of_decide_eq_true hid
  have hstart : SortedStart config (start none) := sortedStart_start none
  have hlooked := full_turn_looks_at_all (p := p) keysApart_config hstart (accounts_start none)
    (fun _ => isCursor_none) hrun hwrap hturn hwrap' hahead hback hahead' hback' hg hg' hp
    (hid ▸ of_decide_eq_true hdelivered)
  rw [hid] at hlooked
  obtain ⟨ls₁, l, ls₂, a, b, hls, ha, hok, ⟨consumer, choice, hscans, howned⟩, hb, hlater⟩ :=
    hlooked
  refine ⟨_, u, y, hrun.append hwrap, hturn, ls₁, l, ls₂, a, b, hls, ha, hok,
    ⟨consumer, choice, hscans, fun w' hstep => howned w' hstep ?_ ?_⟩, hb, hlater⟩
  · obtain ⟨i, -, -, -, -, -, -, rfl, -⟩ := hscans
    exact idle_of_secondTurn (hls ▸ List.mem_append_right _ List.mem_cons_self)
  · -- nothing is trimmed, so the entry is in the stream still
    obtain ⟨e, he, hid⟩ := List.mem_map.mp hentry
    have hbegun : (deployment config serde 8).Run (start none) _ u :=
      runIn_deployment keysApart_config hstart.orderly (hrun.append hwrap).run
    have hlasting : (deployment config serde 8).Run u ls₁ a := runIn_deployment keysApart_config
      (hstart.orderly.run keysApart_config (hrun.append hwrap)) ha.run
    exact ⟨e, entry_stays (show config.streamMaxlen = 0 from rfl) hstart.toInitial hbegun hlasting
      he, hid⟩

end ResponsesApiStore
