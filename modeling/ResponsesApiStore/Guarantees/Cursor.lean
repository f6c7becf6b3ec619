import ResponsesApiStore.System.Cursors
import ResponsesApiStore.System.OneKeyspace

/-!
# What the cursor has passed

The cursor of a group is to pass only what has been examined: a script that moves it forward
carries what an `XAUTOCLAIM` of the same claim has returned, which started from where the cursor
is, or before. The script compares magnitudes, and this rests on the cursor not going back while
a claim carries a cursor it has read. But the cursor does go back, to `0-0`, whenever an
`XAUTOCLAIM` comes to the end: a claim that has read the cursor before then sets it forward again
without having examined anything (`cursor_moved_unscanned`).

While no script takes the cursor back under a claim that carries one (`KeepsCursor`), nothing is
passed unexamined (`cursor_passes_examined`): no cursor that is carried is ahead of the stored
one (`Current`). This is for names under which nothing but the script writes the key of a cursor.
-/

namespace ResponsesApiStore

open Json (Serde)
open Redis (Error StreamId Pending groupAt Examined)
open Interaction (Machine World Label Program)

variable {N : Type} {cfg : StoreConfig} {S : Serde N} {fuel : ℕ}

/-! ### Cursors are identifiers -/

/-- The cursors are as the server writes them: those in Redis, those read and those returned. -/
structure CursorsWritten (w : DWorld) : Prop where
  stored : ∀ key, IsCursor (w.shared.cursors key)
  read : ∀ i t, w.tasks i = some t → IsCursor (cursorView t).read
  scan : ∀ i t start next, w.tasks i = some t → (cursorView t).scan = some (start, next) →
    IsCursor (some next)

/-- The cursor of a script is an identifier. -/
theorem CursorsWritten.yields {w : DWorld} (h : CursorsWritten w) {i : ℕ} {t : DTask}
    (htask : w.tasks i = some t) {claim : ClaimBackgroundJobsRequest} {cursor : String}
    (hyields : (cursorView t).Yields claim cursor) : ∃ new : StreamId, cursor = new.format := by
  have hread := h.read i t htask
  have hscan := h.scan i t
  generalize cursorView t = g at hread hscan hyields
  cases hyields with
  | unscanned => exact hread cursor rfl
  | @scanned start => exact hscan start cursor htask rfl cursor rfl

variable [DecidableEq N]

/-- What a task knows of cursors after a command of its own: a cursor that is read is one that was
stored, and a scan that starts at an identifier returns one. -/
theorem CursorsWritten.nextView {w : DWorld} {i : ℕ} {t : DTask} {choice : Choice} {c : Cmd}
    {k : c.Reply → Program sig RpcResult} {σ : Shared} {r : c.Reply} (h : CursorsWritten w)
    (htranscribed : (deployment cfg S fuel).Transcribed w) (htask : w.tasks i = some t)
    (hlive : t.live = true) (hprog : t.prog = .cmd c k)
    (hexec : w.shared.exec i t.call.server choice c = some (σ, r)) :
    IsCursor (nextView (cursorView t) c r).read ∧ ∀ start next,
      (nextView (cursorView t) c r).scan = some (start, next) → IsCursor (some next) := by
  have hread := h.read i t htask
  have hscan := fun start next => h.scan i t start next htask
  rcases nextView_cases (cursorView t) c r with hsame | ⟨key, cursor, heq, hnext⟩ |
    ⟨group, consumer, minIdle, start, count, reply, heq, hnext⟩ | ⟨key, cursor, rfl, hnext⟩
  · rw [hsame]
    exact ⟨hread, hscan⟩
  · rw [hnext]
    refine ⟨?_, hscan⟩
    cases heq
    obtain ⟨-, rfl⟩ := exec_getCursor hexec
    exact (h.stored key).getD
  · rw [hnext]
    refine ⟨hread, ?_⟩
    rintro start' next ⟨⟩
    cases heq
    -- a claim scans from the cursor that it has read
    obtain hfree | ⟨claim, -, -, hview⟩ := cursored_of_prog htranscribed htask hprog
    · exact hfree.elim
    rw [hview] at hread
    obtain ⟨id, rfl⟩ := hread start rfl
    obtain ⟨next, ids, hreply, -⟩ := exec_xautoclaim htask hlive hprog hexec
    rw [hreply]
    exact isCursor_format next
  · rw [hnext]
    exact ⟨hread, hscan⟩

/-- What is stored after a command of a claim: the cursor it ran its script with, or the one that
was there. -/
theorem CursorsWritten.stored_act {w : DWorld} {i : ℕ} {t : DTask} {choice : Choice} {c : Cmd}
    {k : c.Reply → Program sig RpcResult} {σ : Shared} {r : c.Reply} (h : CursorsWritten w)
    (htranscribed : (deployment cfg S fuel).Transcribed w) (htask : w.tasks i = some t)
    (hprog : t.prog = .cmd c k) (hexec : w.shared.exec i t.call.server choice c = some (σ, r))
    (key : String) : IsCursor (σ.cursors key) := by
  rcases exec_cursors hexec with hsame | ⟨key', cursor, stored, rfl, -, hstored, hcursors⟩
  · rw [hsame]
    exact h.stored key
  obtain hfree | ⟨claim, -, -, hyields⟩ := cursored_of_prog htranscribed htask hprog
  · exact hfree.elim
  obtain ⟨new, rfl⟩ := h.yields htask hyields
  obtain ⟨hcases, -⟩ := BackgroundQueue.autoclaimCursorScript_eq_ok (h.stored key') hstored
  rw [hcursors]
  by_cases hkey : key = key'
  · rw [hkey, Function.update_self]
    rcases hcases with rfl | rfl
    · exact h.stored key'
    · exact isCursor_format new
  · rw [Function.update_of_ne hkey]
    exact h.stored key

theorem CursorsWritten.step {w w' : DWorld} {l : DLabel} (h : CursorsWritten w)
    (htranscribed : (deployment cfg S fuel).Transcribed w)
    (hs : (deployment cfg S fuel).Stepped w l w') : CursorsWritten w' := by
  cases hs with
  | @spawn i call hfree =>
    refine ⟨h.stored, fun j u hu => ?_, fun j u start next hu => ?_⟩
    · rcases World.put_tasks_eq_some hu with ⟨-, rfl⟩ | ⟨-, hu⟩
      · exact isCursor_none
      · exact h.read j u hu
    · rcases World.put_tasks_eq_some hu with ⟨-, rfl⟩ | ⟨-, hu⟩
      · exact nofun
      · exact h.scan j u start next hu
  | @act i choice t c k σ r htask hlive hprog hexec =>
    replace hexec : w.shared.exec i t.call.server choice c = some (σ, r) := hexec
    have hview := h.nextView htranscribed htask hlive hprog hexec
    refine ⟨h.stored_act htranscribed htask hprog hexec, fun j u hu => ?_,
      fun j u start next hu => ?_⟩
    · rcases World.put_tasks_eq_some hu with ⟨-, rfl⟩ | ⟨-, hu⟩
      · rw [cursorView_advance]
        exact hview.1
      · exact h.read j u hu
    · rcases World.put_tasks_eq_some hu with ⟨-, rfl⟩ | ⟨-, hu⟩
      · rw [cursorView_advance]
        exact hview.2 start next
      · exact h.scan j u start next hu
  | @drop i t htask hlive =>
    refine ⟨fun key => ?_, fun j u hu => ?_, fun j u start next hu => ?_⟩
    · show IsCursor ((w.shared.release i t.call.server).cursors key)
      rw [Shared.release_cursors]
      exact h.stored key
    · rcases World.put_tasks_eq_some hu with ⟨-, rfl⟩ | ⟨-, hu⟩
      · exact h.read i t htask
      · exact h.read j u hu
    · rcases World.put_tasks_eq_some hu with ⟨-, rfl⟩ | ⟨-, hu⟩
      · exact h.scan i t start next htask
      · exact h.scan j u start next hu
  | env henv =>
    refine ⟨fun key => ?_, h.read, h.scan⟩
    rw [env_cursors henv]
    exact h.stored key

/-! ### Cursors that are carried -/

/-- Task `j` is a live claim that has read the cursor `start` and has not run the script yet. -/
structure CarriesCursor (cfg : StoreConfig) (w : DWorld) (j : ℕ) (key : String)
    (claim : ClaimBackgroundJobsRequest) (start : String) : Prop where
  task : ∃ u, w.tasks j = some u ∧ u.live = true ∧
    u.call.request = .claimBackgroundJobs claim ∧ (cursorView u).read = some start ∧
    (cursorView u).done = false
  key : key = autoclaimCursorKey cfg.streamKey claim.consumerGroup

/-- **The condition.** While a claim carries a cursor, no script of another one takes the stored
cursor back to `0-0`; while a claim that asks for no idle entries carries `0-0`, no script of
another one stores anything else. And of two cursors that a script compares, one has fewer than
`2 ^ 53` milliseconds. -/
structure KeepsCursor (cfg : StoreConfig) (w : DWorld) (l : DLabel) : Prop where
  wrap : ∀ {i t key j claim start}, Runs w l i t (.cursorScript key "0-0") → j ≠ i →
    CarriesCursor cfg w j key claim start → cursorId (w.shared.cursors key) = .zero
  unscanned : ∀ {i t key cursor j claim}, Runs w l i t (.cursorScript key cursor) → j ≠ i →
    CarriesCursor cfg w j key claim "0-0" → claim.autoclaimMinIdleMs = 0 → cursor = "0-0"
  comparable : ∀ {i t key cursor}, Runs w l i t (.cursorScript key cursor) →
    Comparable (cursorId (w.shared.cursors key)) (cursorId (some cursor))

/-- No cursor that is carried is ahead of the stored one; and where a claim that asks for no
idle entries carries `0-0`, this is what is stored. -/
def Current (cfg : StoreConfig) (w : DWorld) : Prop :=
  ∀ {j key claim start}, CarriesCursor cfg w j key claim start →
    cursorId (some start) ≤ cursorId (w.shared.cursors key) ∧
      (claim.autoclaimMinIdleMs = 0 → start = "0-0" →
        cursorId (w.shared.cursors key) = .zero)

/-- The script of another task leaves a carried cursor behind the stored one. -/
theorem Current.script {w : DWorld} {l : DLabel} {i j : ℕ} {t : DTask} {key key' : String}
    {new : StreamId} {stored : Option String} {claim : ClaimBackgroundJobsRequest}
    {start : String} (h : Current cfg w) (hwritten : CursorsWritten w) (hok : KeepsCursor cfg w l)
    (hruns : Runs w l i t (.cursorScript key' new.format)) (hne : j ≠ i)
    (hstored : BackgroundQueue.autoclaimCursorScript (w.shared.cursors key') new.format =
      .ok stored)
    (hcarries : CarriesCursor cfg w j key claim start) :
    cursorId (some start) ≤ cursorId (Function.update w.shared.cursors key' stored key) ∧
      (claim.autoclaimMinIdleMs = 0 → start = "0-0" →
        cursorId (Function.update w.shared.cursors key' stored key) = .zero) := by
  obtain ⟨hle, hstart⟩ := h hcarries
  by_cases hkey : key = key'
  swap
  · rw [Function.update_of_ne hkey]
    exact ⟨hle, hstart⟩
  subst hkey
  obtain ⟨hcases, hzero, hlt⟩ :=
    BackgroundQueue.autoclaimCursorScript_eq_ok (hwritten.stored key) hstored
  rw [Function.update_self]
  by_cases hnew : new = .zero
  · rw [hnew, format_zero] at hruns
    have hback := hok.wrap hruns hne hcarries
    rw [hzero hnew, hnew, cursorId_format]
    rw [hback] at hle
    exact ⟨hle, fun _ _ => rfl⟩
  · refine ⟨?_, fun hidle hread => ?_⟩
    · have hcomparable := hok.comparable hruns
      rw [cursorId_format] at hcomparable
      rcases hcases with rfl | rfl
      · exact hle
      rcases hlt hnew hcomparable with hsame | hlt
      · rw [hsame]
        exact hle
      · rw [cursorId_format]
        exact hle.trans hlt.le
    · subst hread
      exact absurd (format_eq_zero_iff.mp (hok.unscanned hruns hne hcarries hidle)) hnew

/-- A task that carries a cursor after an exchange carried it before, or has just read it. -/
theorem CarriesCursor.of_view {w : DWorld} {i : ℕ} {t : DTask} {c : Cmd}
    {k : c.Reply → Program sig RpcResult} {r : c.Reply} {σ : Shared} {key start : String}
    {claim : ClaimBackgroundJobsRequest} (htask : w.tasks i = some t) (hlive : t.live = true)
    (h : CarriesCursor cfg ({ w with shared := σ }.put i (t.advance (S := sig) c k r)) i key claim
      start) :
    (∀ k c', c ≠ .cursorScript k c') ∧ t.call.request = .claimBackgroundJobs claim ∧
      (CarriesCursor cfg w i key claim start ∨
        ∃ key' cursor, (⟨c, r⟩ : sig.Exchange) = ⟨.getCursor key', .ok cursor⟩ ∧
          start = cursor.getD "0-0") := by
  obtain ⟨⟨u, hu, -, hrequest, hread, hdone⟩, hkey⟩ := h
  obtain rfl : u = t.advance (S := sig) c k r := by
    rw [World.put_tasks_self] at hu
    exact (Option.some.inj hu).symm
  rw [cursorView_advance] at hread hdone
  have hbefore : (cursorView t).read = some start → (cursorView t).done = false →
      CarriesCursor cfg w i key claim start := fun hread hdone =>
    ⟨⟨t, htask, hlive, hrequest, hread, hdone⟩, hkey⟩
  rcases nextView_cases (cursorView t) c r with hsame | ⟨key', cursor, heq, hnext⟩ |
    ⟨group, consumer, minIdle, s, count, reply, heq, hnext⟩ | ⟨key', cursor, rfl, hnext⟩
  · rw [hsame] at hread hdone
    refine ⟨?_, hrequest, .inl (hbefore hread hdone)⟩
    rintro key' cursor rfl
    rw [← hsame] at hdone
    cases hdone
  · rw [hnext] at hread
    refine ⟨?_, hrequest, .inr ⟨key', cursor, heq, (Option.some.inj hread).symm⟩⟩
    rintro k' c' rfl
    cases heq
  · rw [hnext] at hread hdone
    refine ⟨?_, hrequest, .inl (hbefore hread hdone)⟩
    rintro k' c' rfl
    cases heq
  · rw [hnext] at hdone
    cases hdone

theorem Current.step {w w' : DWorld} {l : DLabel} (h : Current cfg w) (hwritten : CursorsWritten w)
    (htranscribed : (deployment cfg S fuel).Transcribed w) (hok : KeepsCursor cfg w l)
    (hs : (deployment cfg S fuel).Stepped w l w') : Current cfg w' := by
  intro j key claim start hcarries
  cases hs with
  | @spawn i call hfree =>
    obtain ⟨⟨u, hu, hlu, hrequest, hread, hdone⟩, hkey⟩ := hcarries
    rcases World.put_tasks_eq_some hu with ⟨-, rfl⟩ | ⟨-, hu⟩
    · cases hread
    · exact h ⟨⟨u, hu, hlu, hrequest, hread, hdone⟩, hkey⟩
  | @act i choice t c k σ r htask hlive hprog hexec =>
    replace hexec : w.shared.exec i t.call.server choice c = some (σ, r) := hexec
    show cursorId (some start) ≤ cursorId (σ.cursors key) ∧
      (claim.autoclaimMinIdleMs = 0 → start = "0-0" → cursorId (σ.cursors key) = .zero)
    by_cases hji : j = i
    · subst hji
      obtain ⟨hscript, hrequest, hbefore⟩ := hcarries.of_view htask hlive
      have hsame : σ.cursors = w.shared.cursors := by
        rcases exec_cursors hexec with hsame | ⟨key', cursor, -, rfl, -⟩
        · exact hsame
        · exact absurd rfl (hscript key' cursor)
      rw [hsame]
      rcases hbefore with hbefore | ⟨key', cursor, heq, rfl⟩
      · exact h hbefore
      · cases heq
        obtain hfree | ⟨claim', hrequest', hkey', -⟩ := cursored_of_prog htranscribed htask hprog
        · exact hfree.elim
        rw [hrequest] at hrequest'
        cases hrequest'
        obtain rfl : key = key' := hcarries.key.trans hkey'.symm
        obtain ⟨-, rfl⟩ := exec_getCursor hexec
        rw [← cursorId_getD (w.shared.cursors key)]
        refine ⟨le_rfl, fun _ hzero => ?_⟩
        rw [hzero, ← format_zero, cursorId_format]
    · have hbefore : CarriesCursor cfg w j key claim start := by
        obtain ⟨⟨u, hu, hrest⟩, hkey⟩ := hcarries
        rw [World.put_tasks_of_ne _ _ hji] at hu
        exact ⟨⟨u, hu, hrest⟩, hkey⟩
      rcases exec_cursors hexec with hsame | ⟨key', cursor, stored, rfl, hran, hstored, hcursors⟩
      · rw [hsame]
        exact h hbefore
      obtain hfree | ⟨claim', -, -, hyields⟩ := cursored_of_prog htranscribed htask hprog
      · exact hfree.elim
      obtain ⟨new, rfl⟩ := hwritten.yields htask hyields
      rw [hcursors]
      exact h.script hwritten hok ⟨htask, hlive, ⟨k, hprog⟩, choice, rfl, hran⟩ hji hstored hbefore
  | @drop i t htask hlive =>
    show cursorId (some start) ≤ cursorId ((w.shared.release i t.call.server).cursors key) ∧
      (claim.autoclaimMinIdleMs = 0 → start = "0-0" →
        cursorId ((w.shared.release i t.call.server).cursors key) = .zero)
    rw [Shared.release_cursors]
    obtain ⟨⟨u, hu, hlu, hrequest, hread, hdone⟩, hkey⟩ := hcarries
    rcases World.put_tasks_eq_some hu with ⟨-, rfl⟩ | ⟨-, hu⟩
    · cases hlu
    · exact h ⟨⟨u, hu, hlu, hrequest, hread, hdone⟩, hkey⟩
  | env henv =>
    rw [env_cursors henv]
    exact h ⟨hcarries.task, hcarries.key⟩

/-! ### What a claim has examined -/

theorem Initial.cursorsWritten {w : DWorld} (hw : Initial w)
    (hstored : ∀ key, IsCursor (w.shared.cursors key)) : CursorsWritten w := by
  refine ⟨hstored, fun i t ht => ?_, fun i t start next ht => ?_⟩
  all_goals
    rw [hw.tasks i] at ht
    cases ht

theorem cursorsWritten_of_run {ok : DWorld → DLabel → Prop} {w₀ w : DWorld} {ls : List DLabel}
    (hw : Initial w₀) (hstored : ∀ key, IsCursor (w₀.shared.cursors key))
    (hrun : (deployment cfg S fuel).RunIn ok w₀ ls w) : CursorsWritten w :=
  hw.invariant hrun (fun _ _ _ _ ht hI _ hs => hI.step ht hs) (hw.cursorsWritten hstored)

/-- What is examined stays examined. -/
theorem Sound.examined_step {w w' : DWorld} {l : DLabel} (h : Sound cfg S w)
    (hs : (deployment cfg S fuel).Stepped w l w') {group : String} {start next : StreamId}
    {ids : List StreamId} (hexamined : Examined w.shared.stream group start next ids) :
    Examined w'.shared.stream group start next ids := by
  rcases h.stream_step hs with hsame | ⟨i, t, c, handed, -, -, hstep⟩
  · rw [hsame]
    exact hexamined
  · exact hstep.examined hexamined

/-- A claim that holds what `XAUTOCLAIM` returned has run it, and what is pending up to there
now was examined by it. -/
theorem examined_of_scan {ok : DWorld → DLabel → Prop} {w₀ w : DWorld} {ls : List DLabel}
    (hw : Initial w₀) (hstored : ∀ key, IsCursor (w₀.shared.cursors key))
    (hrun : (deployment cfg S fuel).RunIn ok w₀ ls w) :
    ∀ i t claim start next, w.tasks i = some t → t.call.request = .claimBackgroundJobs claim →
      (cursorView t).scan = some (start, next) → ∃ (s n : StreamId) (ids : List StreamId),
        start = s.format ∧ next = n.format ∧
        (deployment cfg S fuel).Takes ok
          (fun v l => Examines v l i claim.consumerGroup s n ids) w₀ ls w ∧
        Examined w.shared.stream claim.consumerGroup s n ids := by
  refine Machine.RunIn.snoc_induction (motive := fun ls w => ∀ i t claim start next,
    w.tasks i = some t → t.call.request = .claimBackgroundJobs claim →
      (cursorView t).scan = some (start, next) → ∃ (s n : StreamId) (ids : List StreamId),
        start = s.format ∧ next = n.format ∧
        (deployment cfg S fuel).Takes ok
          (fun v l => Examines v l i claim.consumerGroup s n ids) w₀ ls w ∧
        Examined w.shared.stream claim.consumerGroup s n ids) ?_ ?_ hrun
  · intro i t claim start next ht
    rw [hw.tasks i] at ht
    cases ht
  intro ls w l v hr ih hok hs i u claim start next hu hrequest hscan
  have hsound : Sound cfg S w := sound_of_run hw hr
  have htranscribed : (deployment cfg S fuel).Transcribed w := hr.transcribed hw.tasks
  have hwritten : CursorsWritten w := cursorsWritten_of_run hw hstored hr
  have hearlier : ∀ t, w.tasks i = some t → t.call.request = .claimBackgroundJobs claim →
      (cursorView t).scan = some (start, next) → ∃ (s n : StreamId) (ids : List StreamId),
        start = s.format ∧ next = n.format ∧
        (deployment cfg S fuel).Takes ok
          (fun v l => Examines v l i claim.consumerGroup s n ids) w₀ (ls ++ [l]) v ∧
        Examined v.shared.stream claim.consumerGroup s n ids := by
    intro t ht hrequest hscan
    obtain ⟨s, n, ids, hs', hn, htakes, hexamined⟩ := ih i t claim start next ht hrequest hscan
    exact ⟨s, n, ids, hs', hn, htakes.snoc hok hs, hsound.examined_step hs hexamined⟩
  rcases hs.task_cases hu with ⟨ht, -⟩ | ⟨call, -, rfl⟩ |
    ⟨t, c, k, r, σ, choice, rfl, ht, hlive, hprog, hexec, hshared, rfl⟩ | ⟨t, -, ht, rfl⟩
  · exact hearlier u ht hrequest hscan
  · cases hscan
  · replace hexec : w.shared.exec i t.call.server choice c = some (σ, r) := hexec
    rw [cursorView_advance] at hscan
    rcases nextView_cases (cursorView t) c r with hsame | ⟨key, cursor, -, hnext⟩ |
      ⟨group, consumer, minIdle, start', count, reply, heq, hnext⟩ | ⟨key, cursor, -, hnext⟩
    · rw [hsame] at hscan
      exact hearlier t ht hrequest hscan
    · rw [hnext] at hscan
      exact hearlier t ht hrequest hscan
    · rw [hnext] at hscan
      obtain ⟨rfl, rfl⟩ := Prod.mk.inj (Option.some.inj hscan)
      cases heq
      obtain hfree | ⟨claim', hrequest', hgroup, hview⟩ :=
        cursored_of_prog htranscribed ht hprog
      · exact hfree.elim
      rw [Interaction.Task.advance_call, hrequest'] at hrequest
      cases hrequest
      have hread := hwritten.read i t ht
      rw [hview] at hread
      obtain ⟨s, rfl⟩ := hread start' rfl
      obtain ⟨n, ids, hreply, hexamines, hexamined⟩ := exec_xautoclaim ht hlive hprog hexec
      rw [← hgroup, hshared]
      exact ⟨s, n, ids, rfl, hreply, hr.takes_last hok hexamines hs, hexamined⟩
    · rw [hnext] at hscan
      exact hearlier t ht hrequest hscan
  · exact hearlier t ht hrequest hscan

/-- **The cursor passes only what was examined.** Under names that are apart, in every run that
keeps the cursors carried, from a store whose cursors are identifiers, the script of a claim that
replaces a stored cursor by a greater one was preceded by an `XAUTOCLAIM` of the same call, which
started at or before the stored cursor and returned the new one: whatever the group has pending
from the one up to the other was examined by it. The script of a claim that asks for no idle
entries leaves the cursor where it is. -/
theorem cursor_passes_examined {w₀ w w' : DWorld} {ls : List DLabel} {l : DLabel} {i : ℕ}
    {t : DTask} {key cursor : String} (hapart : KeysApart cfg) (hw : SortedStart cfg w₀)
    (hstored : ∀ key, IsCursor (w₀.shared.cursors key))
    (hrun : (oneKeyspace cfg S fuel).RunIn (KeepsCursor cfg) w₀ ls w) (hok : KeepsCursor cfg w l)
    (hruns : Runs w l i t (.cursorScript key cursor))
    (hstep : (oneKeyspace cfg S fuel).step w l = some w') :
    ∃ claim, t.call.request = .claimBackgroundJobs claim ∧
      key = autoclaimCursorKey cfg.streamKey claim.consumerGroup ∧
      (cursorId (w.shared.cursors key) < cursorId (w'.shared.cursors key) →
        ∃ start ids, start ≤ cursorId (w.shared.cursors key) ∧
          (oneKeyspace cfg S fuel).Takes (KeepsCursor cfg) (fun v l => Examines v l i
            claim.consumerGroup start (cursorId (w'.shared.cursors key)) ids) w₀ ls w ∧
          ∀ g, groupAt w.shared.stream claim.consumerGroup = some g → ∀ p ∈ g.pel,
            cursorId (w.shared.cursors key) ≤ p.id → p.id < cursorId (w'.shared.cursors key) →
            p.id ∈ ids) ∧
      (claim.autoclaimMinIdleMs = 0 →
        cursorId (w'.shared.cursors key) = cursorId (w.shared.cursors key)) := by
  have hleaves := leavesQueue_of_run hrun
  replace hstep := step_deployment hapart (hw.orderly.run hapart hrun) hstep
  replace hrun := runIn_deployment hapart hw.orderly hrun
  have hinitial : Initial w₀ := hw.toInitial
  have htranscribed : (deployment cfg S fuel).Transcribed w := hrun.transcribed hw.tasks
  have hwritten : CursorsWritten w := cursorsWritten_of_run hinitial hstored hrun
  have hcurrent : Current cfg w := by
    refine (hinitial.invariant hrun (I := fun w => CursorsWritten w ∧ Current cfg w) ?_ ?_).2
    · exact fun u l v _ ht hI hok hs => ⟨hI.1.step ht hs, Current.step hI.2 hI.1 ht hok hs⟩
    · refine ⟨hinitial.cursorsWritten hstored, ?_⟩
      rintro j key claim start ⟨⟨u, hu, -⟩, -⟩
      rw [hw.tasks j] at hu
      cases hu
  obtain ⟨k, hprog⟩ := hruns.prog
  obtain ⟨choice, rfl, -⟩ := hruns.label
  obtain hfree | ⟨claim, hrequest, hkey, hyields⟩ := cursored_of_prog htranscribed hruns.task hprog
  · exact hfree.elim
  obtain ⟨new, rfl⟩ := hwritten.yields hruns.task hyields
  -- the claim carries the cursor it has read until this step
  have hcarried : ∀ start, (cursorView t).read = some start →
    CarriesCursor cfg w i key claim start := by
    refine fun start hread => ⟨⟨t, hruns.task, hruns.live, hrequest, hread, ?_⟩, hkey⟩
    generalize cursorView t = g at hyields
    cases hyields <;> rfl
  have hafter : w'.shared.cursors key = w.shared.cursors key ∨
      BackgroundQueue.autoclaimCursorScript (w.shared.cursors key) new.format =
        .ok (w'.shared.cursors key) := by
    rcases Machine.step_eq_some_iff.mp hstep with _ | ⟨htask, hlive, hprog', hexec⟩
    obtain rfl := Option.some.inj (hruns.task.symm.trans htask)
    rw [hprog] at hprog'
    cases hprog'
    replace hexec : w.shared.exec i t.call.server choice (.cursorScript key new.format) =
      some (_, _) := hexec
    rcases exec_cursors hexec with hsame | ⟨key', cursor, stored, heq, -, hscript, hcursors⟩
    · exact .inl (congrFun hsame key)
    · cases heq
      refine .inr ?_
      rw [World.put_shared, hcursors, Function.update_self]
      exact hscript
  refine ⟨claim, hrequest, hkey, fun hlt => ?_, fun hidle => ?_⟩
  · obtain hsame | hscript := hafter
    · rw [hsame] at hlt
      exact absurd hlt (lt_irrefl _)
    obtain ⟨hkept | hreplaced, -⟩ :=
      BackgroundQueue.autoclaimCursorScript_eq_ok (hwritten.stored key) hscript
    · rw [hkept] at hlt
      exact absurd hlt (lt_irrefl _)
    rw [hreplaced, cursorId_format] at hlt ⊢
    rcases hview : cursorView t with ⟨read, scan, done⟩
    rw [hview] at hyields hcarried
    cases hyields with
    | unscanned hidle =>
      have hle := (hcurrent (hcarried new.format rfl)).1
      rw [cursorId_format] at hle
      exact absurd hlt (not_lt.mpr hle)
    | @scanned start hidle =>
      obtain ⟨s, n, ids, rfl, hnext, htakes, hexamined⟩ :=
        examined_of_scan hinitial hstored hrun i t claim start new.format hruns.task hrequest
          (by rw [hview])
      obtain rfl := StreamId.format_injective hnext
      have hle := (hcurrent (hcarried s.format rfl)).1
      rw [cursorId_format] at hle
      refine ⟨s, ids, hle, takes_oneKeyspace hapart hw.orderly hleaves htakes,
        fun g hg p hp hold hbelow => ?_⟩
      obtain ⟨g', hg', -, hpending⟩ := hexamined
      obtain rfl : g = g' := Option.some.inj (hg.symm.trans hg')
      exact hpending p hp (hle.trans hold) hbelow
  · obtain hsame | hscript := hafter
    · rw [hsame]
    have hread : (cursorView t).read = some new.format := by
      generalize cursorView t = g at hyields
      cases hyields with
      | unscanned => rfl
      | scanned hne => exact absurd hidle hne
    obtain ⟨hle, hfresh⟩ := hcurrent (hcarried new.format hread)
    obtain ⟨-, hzero, hlt⟩ :=
      BackgroundQueue.autoclaimCursorScript_eq_ok (hwritten.stored key) hscript
    by_cases hnew : new = .zero
    · rw [hzero hnew, hfresh hidle (format_eq_zero_iff.mpr hnew), hnew, cursorId_format]
    · have hcomparable := hok.comparable hruns
      rw [cursorId_format] at hcomparable hle
      rcases hlt hnew hcomparable with hkept | hlt
      · rw [hkept]
      · exact absurd hlt (not_lt.mpr hle)

section Runs

open Sample

/-- The cursor of the group `g`. -/
def cursorKey : String := autoclaimCursorKey config.streamKey "g"

/-- Two jobs are published, the group `g` is created, and a first claim of it is handed both. -/
def delivered : List DLabel :=
  enqueue ++ .spawn 4 ⟨0, .enqueueBackgroundJob (some queuedRecord)⟩ ::
    List.replicate 3 (.act 4 { answered with stream := { answered.stream with id := ⟨6, 0⟩ } }) ++
    call 2 (.ensureConsumerGroup "g" "0-0") 1 ++
    call 3 (.claimBackgroundJobs ⟨"g", "c", 2, 0, 60000⟩) 6

/-- An `XAUTOCLAIM` looks at one pending entry; it is not idle long enough. -/
def scansOne : Choice := { answered with stream := { answered.stream with scan := 1 } }

/-- An `XAUTOCLAIM` looks at all pending entries; none is idle long enough. -/
def scansAll : Choice := { answered with stream := { answered.stream with scan := 9 } }

/-- A second claim of `g` looks at one entry. -/
def scanned : List DLabel :=
  .spawn 5 ⟨0, .claimBackgroundJobs ⟨"g", "c", 2, 0, 60000⟩⟩ ::
    [.act 5 answered, .act 5 scansOne, .act 5 answered]

set_option maxRecDepth 100000 in
/-- The second claim stores `6-0`. A third one, which asks for no idle entries, reads it; a
fourth one comes to the end and stores `0-0`; then the third runs its script. -/
def storesBack : machineIn.Recording (fun _ _ => true) (start none) (fun w =>
    awaits w 6 = some (.cursorScript cursorKey "6-0") ∧
    requestOf w 6 = some (.claimBackgroundJobs ⟨"g", "c", 2, 0, 0⟩) ∧
    cursorId (w.shared.cursors cursorKey) = .zero ∧
    (machineIn.step w (.act 6 answered)).map (fun w' => cursorId (w'.shared.cursors cursorKey)) =
      some ⟨6, 0⟩) :=
  ⟨delivered ++ scanned ++ .act 5 answered ::
    call 6 (.claimBackgroundJobs ⟨"g", "c", 2, 0, 0⟩) 1 ++
    call 7 (.claimBackgroundJobs ⟨"g", "c", 2, 0, 60000⟩) 1 ++
    .act 7 scansAll :: turns 7 2 ++ turns 6 1, by decide +kernel⟩

/-- **A claim that runs no `XAUTOCLAIM` moves the cursor forward.** -/
theorem cursor_moved_unscanned : ∃ w w' t,
    machineIn.Run (start none) storesBack.labels w ∧
    Runs w (.act 6 answered) 6 t (.cursorScript cursorKey "6-0") ∧
    t.call.request = .claimBackgroundJobs ⟨"g", "c", 2, 0, 0⟩ ∧
    machineIn.step w (.act 6 answered) = some w' ∧
    cursorId (w.shared.cursors cursorKey) = .zero ∧
    cursorId (w'.shared.cursors cursorKey) = ⟨6, 0⟩ := by
  obtain ⟨w, hrun, hawaits, hrequest, hbefore, hafter⟩ := storesBack.exists_run
  obtain ⟨t, hruns⟩ := runs_of_awaits hawaits (show answered.delivery.ran = true from rfl)
  obtain ⟨w', hstep, hcursor⟩ := Option.map_eq_some_iff.mp hafter
  have hrequest : t.call.request = .claimBackgroundJobs ⟨"g", "c", 2, 0, 0⟩ := by
    simpa [requestOf, hruns.task] using hrequest
  exact ⟨w, w', t, hrun, hruns, hrequest, hstep, hbefore, hcursor⟩

/-- A script runs only to store `0-0` where the cursor is that already. -/
def cursorsRest (w : DWorld) : DLabel → Bool
  | .act i _ => match awaits w i with
    | some (.cursorScript key cursor) =>
      decide (cursor = "0-0" ∧ cursorId (w.shared.cursors key) = .zero)
    | _ => true
  | _ => true

theorem keepsCursor_of_cursorsRest (cfg : StoreConfig) {w : DWorld} {l : DLabel}
    (h : cursorsRest w l = true) : KeepsCursor cfg w l := by
  have hrest : ∀ {i t key cursor}, Runs w l i t (.cursorScript key cursor) →
      cursor = "0-0" ∧ cursorId (w.shared.cursors key) = .zero := by
    intro i t key cursor hruns
    obtain ⟨choice, rfl, -⟩ := hruns.label
    simpa [cursorsRest, hruns.awaits] using h
  refine ⟨fun hruns _ _ => (hrest hruns).2, fun hruns _ _ _ => (hrest hruns).1, fun hruns => ?_⟩
  rw [(hrest hruns).2]
  exact .inl (by decide)

/-- Whether task `j` is a claim that has not run its script. -/
def underWay (w : DWorld) (j : ℕ) : Bool :=
  (w.tasks j).any fun u => match u.call.request with
    | .claimBackgroundJobs _ => !(cursorView u).done
    | _ => false

theorem CarriesCursor.underWay {w : DWorld} {j : ℕ} {key start : String}
    {claim : ClaimBackgroundJobsRequest} (h : CarriesCursor cfg w j key claim start) :
    underWay w j = true := by
  obtain ⟨u, hu, -, hrequest, -, hdone⟩ := h.task
  simp [ResponsesApiStore.underWay, hu, hrequest, hdone]

/-- A script keeps the cursor if no other claim is under way. -/
theorem keepsCursor_of_alone {w : DWorld} {l : DLabel} {i : ℕ} {t : DTask} {key cursor : String}
    (hruns : Runs w l i t (.cursorScript key cursor)) (halone : ∀ j ≠ i, underWay w j = false)
    (hcomparable : Comparable (cursorId (w.shared.cursors key)) (cursorId (some cursor))) :
    KeepsCursor cfg w l := by
  have hown : ∀ {i' t' key' cursor'}, Runs w l i' t' (.cursorScript key' cursor') →
      i' = i ∧ key' = key ∧ cursor' = cursor := by
    intro i' t' key' cursor' hruns'
    obtain ⟨choice, rfl, -⟩ := hruns.label
    obtain ⟨choice', hlabel, -⟩ := hruns'.label
    obtain ⟨rfl, -⟩ := Label.act.inj hlabel
    have heq : Cmd.cursorScript key' cursor' = .cursorScript key cursor :=
      Option.some.inj (hruns'.awaits.symm.trans hruns.awaits)
    exact ⟨rfl, Cmd.cursorScript.inj heq⟩
  have hnone : ∀ {i' t' key' cursor' j key'' claim start},
      Runs w l i' t' (.cursorScript key' cursor') → j ≠ i' →
      ¬CarriesCursor cfg w j key'' claim start := by
    intro i' t' key' cursor' j key'' claim start hruns' hne hcarries
    obtain ⟨rfl, -⟩ := hown hruns'
    have hunder := hcarries.underWay
    rw [halone j hne] at hunder
    cases hunder
  refine ⟨fun hruns' hne hcarries => absurd hcarries (hnone hruns' hne),
    fun hruns' hne hcarries => absurd hcarries (hnone hruns' hne), fun hruns' => ?_⟩
  obtain ⟨-, rfl, rfl⟩ := hown hruns'
  exact hcomparable

set_option maxRecDepth 100000 in
/-- The second claim is about to run its script; the first has run its own. -/
def movesOn : machineIn.Recording cursorsRest (start none) (fun w =>
    awaits w 5 = some (.cursorScript cursorKey "6-0") ∧
    ([1, 2, 3, 4].all fun j => !underWay w j) = true ∧
    cursorId (w.shared.cursors cursorKey) = .zero ∧
    (machineIn.step w (.act 5 answered)).map (fun w' => cursorId (w'.shared.cursors cursorKey)) =
      some ⟨6, 0⟩) :=
  ⟨delivered ++ scanned, by decide +kernel⟩

/-- The second claim moves the cursor to `6-0`, and has examined what is pending before. -/
theorem cursor_passes_examined_scanned : ∃ w w' t origin ids,
    machineIn.RunIn (KeepsCursor config) (start none) movesOn.labels w ∧
    Runs w (.act 5 answered) 5 t (.cursorScript cursorKey "6-0") ∧
    machineIn.step w (.act 5 answered) = some w' ∧
    cursorId (w.shared.cursors cursorKey) = .zero ∧
    cursorId (w'.shared.cursors cursorKey) = ⟨6, 0⟩ ∧ origin ≤ .zero ∧
    machineIn.Takes (KeepsCursor config) (fun v l => Examines v l 5 "g" origin ⟨6, 0⟩ ids)
      (start none) movesOn.labels w := by
  obtain ⟨w, hrun, hawaits, hidle, hbefore, hafter⟩ :=
    movesOn.exists_runIn fun _ _ => keepsCursor_of_cursorsRest config
  obtain ⟨t, hruns⟩ := runs_of_awaits hawaits (show answered.delivery.ran = true from rfl)
  obtain ⟨w', hstep, hcursor⟩ := Option.map_eq_some_iff.mp hafter
  have halone : ∀ j ≠ 5, underWay w j = false := by
    intro j hne
    by_cases hj : j ∈ [1, 2, 3, 4]
    · simpa using List.all_eq_true.mp hidle j hj
    · have hnone : w.tasks j = none := by
        refine hrun.tasks_eq_none rfl fun call hmem => ?_
        simp [movesOn, delivered, scanned, enqueue, Sample.call, turns] at hmem hj
        omega
      simp [underWay, hnone]
  have hcomparable :
    Comparable (cursorId (w.shared.cursors cursorKey)) (cursorId (some "6-0")) := by
    rw [hbefore]
    exact .inl (by decide)
  obtain ⟨claim, hrequest, hkey, hexamined, -⟩ := cursor_passes_examined keysApart_config
    (sortedStart_start none) (fun _ => isCursor_none) hrun
    (keepsCursor_of_alone hruns halone hcomparable) hruns hstep
  obtain ⟨origin, ids, hle, htakes, -⟩ := hexamined (by rw [hbefore, hcursor]; decide)
  have hgroup : claim.consumerGroup = "g" := autoclaimCursorKey_inj.mp hkey.symm
  rw [hbefore] at hle
  rw [hgroup, hcursor] at htakes
  exact ⟨w, w', t, origin, ids, hrun, hruns, hstep, hbefore, hcursor, hle, htakes⟩

end Runs

end ResponsesApiStore
