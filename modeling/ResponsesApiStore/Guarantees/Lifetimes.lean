import ResponsesApiStore.System.Lifetimes
import ResponsesApiStore.System.OneKeyspace

/-!
# The lifetimes of records

From a store without records, every record has an expiry at all times, every write gives one of
at least a second, and a transition that commits gives its record the time to live it had left
(`lifetimes_bounded`). The two branches of `reconcileWriteTtl` that would start the lifetime
anew are for a record without expiry, which there is none of, and for a record that is missing,
which is not there to be replaced.

This is said of the service over one keyspace, and for names that are apart. Where the key of a
record is that of a cursor, the cursor script leaves there what does not expire
(`cursor_without_expiry`), although the configuration passes its check.
-/

namespace ResponsesApiStore

open Json (Serde)
open Redis (Error Keyspace TxCmd)
open Redis.Keyspace (ValidTtl Guards Undisturbed Expiring maxTtl)
open Interaction (Machine World Label Program)
open Interaction.Program

variable {N : Type} {cfg : StoreConfig} {S : Serde N} {fuel : ℕ}

/-- The report on a record is within the range of expiries, and if it says that the record is
missing, then it was missing while it was watched. -/
def Reported (cfg : StoreConfig) (n : ℕ) (report : Option (String × ℤ)) (db : Keyspace) : Prop :=
  ∀ key reported, IsRecordKey cfg key → report = some (key, reported) → reported ≤ maxTtl ∧
    (reported < 0 → key ∈ (db.sessions n).watched → db.Guards n key none)

/-- The write that is queued has the time to live that follows from the report. -/
def QueuedTtl (cfg : StoreConfig) (t : DTask) : Prop :=
  ∀ ttl payload, (knowledge t).phase = .queued ttl payload → ∃ key text reported,
    (knowledge t).seen = some (key, text) ∧ reportedTtl t = some (key, reported) ∧
    ttl = reconcileWriteTtl reported cfg.ttlSeconds

/-- **The invariant of lifetimes.** -/
structure Timed (cfg : StoreConfig) (w : DWorld) : Prop where
  expiring : Expiring (IsRecordKey cfg) w.shared.db
  reported : ∀ i t, w.tasks i = some t → t.live = true →
    Reported cfg t.call.server (reportedTtl t) w.shared.db
  queued : ∀ i t, w.tasks i = some t → QueuedTtl cfg t

/-! ### Steps -/

theorem Reported.undisturbed {n : ℕ} {report : Option (String × ℤ)} {db db' : Keyspace}
    (h : Reported cfg n report db) (hu : Undisturbed n db db') : Reported cfg n report db' := by
  intro key reported hkey hreport
  obtain ⟨hmax, hmissing⟩ := h key reported hkey hreport
  exact ⟨hmax, fun hneg hwatched => hu.guards (hmissing hneg (hu.watched ▸ hwatched))⟩

/-- A command of a task keeps the records expiring. -/
theorem expiring_of_effect {K : String → Prop} {σ σ' : Shared} {i n : ℕ} {d : Delivery} {c : Cmd}
    (h : Expiring K σ.db) (heffect : Effect σ i n d c σ') : Expiring K σ'.db := by
  have hrunIf : ∀ {ran : Shared}, Expiring K ran.db → Expiring K (σ.runIf d ran).db := by
    intro ran hran
    rw [Shared.runIf]
    split_ifs
    · exact hran
    · exact h
  cases heffect with
  | plain hplain hdb hholder => exact hdb ▸ h
  | setEx => exact hrunIf (h.setEx _ _ _)
  | del => exact hrunIf (h.del _)
  | @tx c =>
    rw [Shared.afterTx]
    split_ifs
    · exact (hrunIf (h.run n c)).congr rfl
    · exact hrunIf (h.run n c)
  | lock hfree => exact h
  | unlock => exact h
  | install => exact h.congr rfl

/-- A move of the environment that writes no key of a kind keeps the kind expiring. -/
theorem expiring_of_env {K : String → Prop} {σ σ' : Shared} {e : Env} (h : Expiring K σ.db)
    (henv : σ.env e = some σ') (hforeign : ∀ key, K key → ¬Foreign key (.env e)) :
    Expiring K σ'.db := by
  cases e with
  | expire key =>
    obtain ⟨db, hdb, rfl⟩ := Option.map_eq_some_iff.mp henv
    exact h.expire hdb
  | age key seconds =>
    obtain ⟨db, hdb, rfl⟩ := Option.map_eq_some_iff.mp henv
    exact h.age hdb
  | foreignSet key entry =>
    obtain rfl := Option.some.inj henv
    refine h.write fun x hkey _ => ?_
    exact absurd (.inl ⟨entry, rfl⟩) (hforeign key hkey)
  | foreignDel key =>
    obtain rfl := Option.some.inj henv
    exact h.del key
  | clock now =>
    obtain rfl := Option.some.inj henv
    exact h

/-- The report a task has after a command of its own. -/
theorem Reported.act {σ σ' : Shared} {i n : ℕ} {choice : Choice} {c : Cmd} {r : c.Reply}
    {report : Option (String × ℤ)} (h : Reported cfg n report σ.db)
    (hexpiring : Expiring (IsRecordKey cfg) σ.db)
    (hexec : σ.exec i n choice c = some (σ', r)) :
    Reported cfg n (nextReport report c r) σ'.db := by
  intro key reported hkey hreport
  rcases nextReport_eq_some hreport with heq | ⟨hbefore, heq | ⟨k, ttl, payload, heq⟩⟩
  · cases heq
    rcases exec_tx hexec with ⟨-, rfl, hr⟩ | ⟨-, err, hr⟩
    · by_cases hmulti : (σ.db.sessions n).inMulti = true
      · rw [TxCmd.run, if_pos hmulti] at hr
        cases hr
      · rw [TxCmd.run, if_neg hmulti] at hr
        obtain rfl : reported = σ.db.ttlReply key := Except.ok.inj hr
        obtain ⟨hmax, hmissing⟩ := hexpiring.ttlReply hkey
        simp only [TxCmd.run, if_neg hmulti]
        exact ⟨hmax, fun hneg hwatched => ⟨hwatched, fun _ => hmissing hneg⟩⟩
    · cases hr
  · cases heq
    obtain ⟨hmax, hmissing⟩ := h key reported hkey hbefore
    refine ⟨hmax, fun hneg => ?_⟩
    rcases exec_tx hexec with ⟨-, rfl, hr⟩ | ⟨-, err, hr⟩
    · by_cases hmulti : (σ.db.sessions n).inMulti = true
      · rw [TxCmd.run, if_pos hmulti] at hr
        cases hr
      · simp only [TxCmd.run, if_neg hmulti]
        intro hwatched
        rw [Keyspace.setSession_sessions_self] at hwatched
        exact (hmissing hneg hwatched).setSession hwatched rfl
    · cases hr
  · cases heq
    obtain ⟨hmax, hmissing⟩ := h key reported hkey hbefore
    refine ⟨hmax, fun hneg => ?_⟩
    rcases exec_tx hexec with ⟨-, rfl, hr⟩ | ⟨-, err, hr⟩
    · by_cases hmulti : (σ.db.sessions n).inMulti = true
      · simp only [TxCmd.run, if_pos hmulti]
        intro hwatched
        rw [Keyspace.setSession_sessions_self] at hwatched
        exact (hmissing hneg hwatched).setSession hwatched rfl
      · simp only [TxCmd.run, if_neg hmulti]
        intro hwatched
        have hu := Undisturbed.setEx n σ.db k ttl payload
        exact hu.guards (hmissing hneg (hu.watched ▸ hwatched))
    · cases hr

/-- How a write comes to be queued. -/
theorem queued_after {request : Request} {g : Knowledge} {c : Cmd} {r : c.Reply} {ttl : UInt64}
    {payload : String} (hallowed : Allowed cfg S request g c)
    (h : (g.after c r).phase = .queued ttl payload) :
    ∃ key, (⟨c, r⟩ : sig.Exchange) = ⟨.tx (.setEx key ttl payload), .ok ()⟩ := by
  rcases phase_of_allowed hallowed with ⟨hidle, htx, hinstall, -⟩ | ⟨-, ⟨tx, rfl, -⟩ | rfl | rfl⟩
  · rcases phase_after_of_idle hidle htx hinstall r with hafter | ⟨-, hafter⟩
    · rw [hafter] at h
      cases h
    · rw [hafter] at h
      cases h
  · cases tx with
    | setEx key ttl' payload' =>
      rcases r with e | _
      · cases h
      · obtain ⟨rfl, rfl⟩ := Phase.queued.inj h
        exact ⟨key, rfl⟩
    | exec => rcases r with e | (_ | n) <;> cases h
    | discard | unwatch => cases h
    | watch | get | ttl | multi => rcases r with e | _ <;> cases h
  · cases h
  · cases h

variable [DecidableEq N]

/-- A task keeps to the protocol of lifetimes. -/
theorem timed_of_prog {w : DWorld} (h : (deployment cfg S fuel).Transcribed w) {i : ℕ} {t : DTask}
    {c : Cmd} {k : c.Reply → Program sig RpcResult} (htask : w.tasks i = some t)
    (hprog : t.prog = .cmd c k) : (timed cfg).allowed (reportedTtl t) c := by
  have hserve : (serve cfg S fuel t.call.request).Follows (timed cfg) (fun _ _ => True) none :=
    timed_serve fuel t.call.request none
  have hfollows := hserve.resume (h i t htask)
  rw [hprog] at hfollows
  exact hfollows.1

/-- **One step.** -/
theorem Timed.step {w w' : DWorld} {l : DLabel} (hI : Timed cfg w) (h : Sound cfg S w)
    (htranscribed : (deployment cfg S fuel).Transcribed w)
    (hforeign : ∀ id, ¬Foreign (ResponseStore.key cfg id) l)
    (hs : (deployment cfg S fuel).Stepped w l w') : Timed cfg w' := by
  cases hs with
  | @spawn i call hfree =>
    refine ⟨hI.expiring, fun j u hu hlu => ?_, fun j u hu => ?_⟩
    · rcases World.put_tasks_eq_some hu with ⟨-, rfl⟩ | ⟨-, hu⟩
      · exact nofun
      · exact hI.reported j u hu hlu
    · rcases World.put_tasks_eq_some hu with ⟨-, rfl⟩ | ⟨-, hu⟩
      · exact nofun
      · exact hI.queued j u hu
  | @act i choice t c k σ r htask hlive hprog hexec =>
    have hallowed := h.allowed_of_prog htask hprog
    have heffect := exec_effect hexec
    refine ⟨expiring_of_effect hI.expiring heffect, fun j u hu hlu => ?_, fun j u hu => ?_⟩
    · rcases World.put_tasks_eq_some hu with ⟨rfl, rfl⟩ | ⟨hne, hu⟩
      · rw [reportedTtl_advance]
        exact (hI.reported j t htask hlive).act hI.expiring hexec
      · rcases hreport : reportedTtl u with _ | ⟨key, reported⟩
        · exact nofun
        · rw [← hreport]
          exact (hI.reported j u hu hlu).undisturbed (h.act_undisturbed htask hlive hallowed
            heffect hu hlu hne (phase_of_reportedTtl hreport))
    · rcases World.put_tasks_eq_some hu with ⟨rfl, rfl⟩ | ⟨hne, hu⟩
      · intro ttl payload hphase
        rw [knowledge_advance] at hphase
        obtain ⟨key, heq⟩ := queued_after hallowed hphase
        cases heq
        obtain ⟨reported, hreport, httl⟩ := timed_of_prog htranscribed htask hprog
        obtain ⟨-, -, v, hseen, -⟩ := hallowed
        refine ⟨key, some v, reported, ?_, ?_, httl⟩
        · rw [knowledge_advance]
          exact hseen
        · rw [reportedTtl_advance]
          exact hreport
      · exact hI.queued j u hu
  | @drop i t htask hlive =>
    have hdb := w.shared.release_db i t.call.server
    refine ⟨hI.expiring.congr (congrArg Keyspace.strings hdb),
      fun j u hu hlu => ?_, fun j u hu => ?_⟩
    · rcases World.put_tasks_eq_some hu with ⟨-, rfl⟩ | ⟨-, hu⟩
      · cases hlu
      · show Reported cfg _ _ (w.shared.release i t.call.server).db
        rw [hdb]
        exact hI.reported j u hu hlu
    · rcases World.put_tasks_eq_some hu with ⟨-, rfl⟩ | ⟨-, hu⟩
      · exact hI.queued i t htask
      · exact hI.queued j u hu
  | env henv =>
    have hexpiring := expiring_of_env hI.expiring henv fun key ⟨id, hkey⟩ => hkey ▸ hforeign id
    refine ⟨hexpiring, fun j u hu hlu => ?_, hI.queued⟩
    exact (hI.reported j u hu hlu).undisturbed (env_undisturbed henv _).1

/-- The time to live of a command that stores a record. -/
def Cmd.writeTtl : Cmd → Option UInt64
  | .setEx _ ttl _ | .tx (.setEx _ ttl _) => some ttl
  | _ => none

/-- What a transition writes with after a report that the key is there. -/
theorem reconcileWriteTtl_eq {reported : ℤ} {ttl : UInt64} (hreported : 0 ≤ reported)
    (hmax : reported ≤ maxTtl) : ((reconcileWriteTtl reported ttl).toNat : ℤ) = max 1 reported := by
  rw [reconcileWriteTtl]
  split_ifs with hzero hnone hpositive
  · subst hzero
    rfl
  · omega
  · have hlt : reported.toNat < 2 ^ 64 := by
      simp only [maxTtl] at hmax
      omega
    rw [UInt64.toNat_ofNat_of_lt' hlt]
    omega
  · omega

/-- Whatever is reported, a transition writes with a positive time to live. -/
theorem reconcileWriteTtl_ne_zero {reported : ℤ} {ttl : UInt64} (hmax : reported ≤ maxTtl)
    (httl : ttl ≠ 0) : reconcileWriteTtl reported ttl ≠ 0 := by
  by_cases hreported : 0 ≤ reported
  · intro hzero
    have heq : ((reconcileWriteTtl reported ttl).toNat : ℤ) = max 1 reported :=
      reconcileWriteTtl_eq hreported hmax
    rw [hzero] at heq
    simp at heq
    omega
  · rw [reconcileWriteTtl, if_neg (by omega), if_neg (by omega : ¬0 < reported)]
    split_ifs <;> exact httl

/-- What is at the key, whoever has written it, has an expiry. -/
structure Expires (cfg : StoreConfig) (σ : Shared) (key : String) : Prop where
  stream : σ.streamAt cfg key = false
  cursor : σ.cursors key = none
  record : ∀ entry, σ.db.strings key = some entry → entry.ttl.isSome

/-- **Lifetimes are bounded and not renewed.** Under a configuration that passes its check and keeps
the keys apart, in every run from a store without records in which nobody outside writes a record:

* what is at the key of a response has an expiry;
* every write, on either kind of connection, gives a time to live of at least a second;
* a transition that commits has been told by `TTL`, in this attempt, how long the record has
  left, and writes with exactly that, or a second if it is less. -/
theorem lifetimes_bounded {w₀ w : DWorld} {ls : List DLabel} (hcfg : cfg.validate = .ok ())
    (hapart : KeysApart cfg) (hw : SortedStart cfg w₀)
    (hempty : ∀ id, w₀.shared.textAt (ResponseStore.key cfg id) = none)
    (hrun : (oneKeyspace cfg S fuel).RunIn
      (fun _ l => ∀ id, ¬Foreign (ResponseStore.key cfg id) l) w₀ ls w) :
    (∀ id, Expires cfg w.shared (ResponseStore.key cfg id)) ∧
    (∀ i t c k ttl, w.tasks i = some t → t.live = true → t.prog = .cmd c k →
      c.writeTtl = some ttl → 1 ≤ ttl.toNat) ∧
    ∀ l i t key payload, Commits w l i t key payload → ∃ reported ttl,
      reportedTtl t = some (key, reported) ∧ 0 ≤ reported ∧
      (w.shared.db.sessions t.call.server).queue = [.setEx key ttl payload] ∧
      (ttl.toNat : ℤ) = max 1 reported := by
  have hsorted : Sorted cfg w.shared := (hw.orderly.run hapart hrun).sorted
  replace hrun := runIn_deployment hapart hw.orderly hrun
  have hsound : Sound cfg S w := sound_of_run hw.toInitial hrun
  have htranscribed : (deployment cfg S fuel).Transcribed w := hrun.transcribed hw.tasks
  have hI : Timed cfg w := by
    refine hw.toInitial.invariant hrun (fun u l v hu ht hI hok hs => hI.step hu ht hok hs)
      ⟨?_, ?_, ?_⟩
    · rintro key e ⟨id, rfl⟩ he
      have htext := hempty id
      rw [Shared.textAt, Keyspace.textAt, he] at htext
      cases htext
    · intro i t ht
      rw [hw.tasks i] at ht
      cases ht
    · intro i t ht
      rw [hw.tasks i] at ht
      cases ht
  have httl : cfg.ttlSeconds ≠ 0 := by
    intro hzero
    rw [StoreConfig.validate, if_pos hzero] at hcfg
    cases hcfg
  refine ⟨fun id => ?_, fun i t c k ttl htask hlive hprog hc => ?_, ?_⟩
  · have hkey : ¬QueueKey cfg (ResponseStore.key cfg id) := hapart.not_queueKey (isRecordKey cfg id)
    refine ⟨Sorted.streamAt_eq_false hkey, hsorted.cursors_of_not_queueKey hkey,
      fun entry hentry => ?_⟩
    obtain ⟨n, hn, -⟩ := hI.expiring _ entry ⟨id, rfl⟩ hentry
    simp [hn]
  · have htimed := timed_of_prog htranscribed htask hprog
    have hne : ttl ≠ 0 := by
      cases c with
      | setEx key ttl' text => exact Option.some.inj hc ▸ htimed
      | tx c =>
        cases c with
        | setEx key ttl' text =>
          obtain rfl : ttl' = ttl := Option.some.inj hc
          obtain ⟨reported, hreport, rfl⟩ := htimed
          obtain ⟨-, -, v, -, htransition⟩ := hsound.allowed_of_prog htask hprog
          obtain ⟨id, -, hkey⟩ := htransition.key_eq
          obtain ⟨hmax, -⟩ := hI.reported i t htask hlive key reported ⟨id, hkey⟩ hreport
          exact reconcileWriteTtl_ne_zero hmax httl
        | _ => cases hc
      | _ => cases hc
    exact Nat.one_le_iff_ne_zero.mpr fun hzero => hne (UInt64.toNat_inj.mp hzero)
  · intro l i t key payload hcommits
    have hruns := hcommits.runs
    obtain ⟨ttl, hvalid, hqueue⟩ := hcommits.queue
    obtain ⟨ttl', payload', hphase⟩ := hsound.allowedTx hruns
    have hsession := hsound.session i t hruns.task hruns.live
    rw [Matches, hphase] at hsession
    obtain ⟨-, key', v, hseen, hqueue', hguards, htransition⟩ := hsession
    rw [hqueue] at hqueue'
    obtain ⟨rfl, rfl, rfl⟩ : key = key' ∧ ttl = ttl' ∧ payload = payload' := by
      simpa using hqueue'
    obtain ⟨key', text, reported, hseen', hreport, rfl⟩ := hI.queued i t hruns.task _ _ hphase
    obtain ⟨rfl, -⟩ := Prod.mk.inj (Option.some.inj (hseen.symm.trans hseen'))
    obtain ⟨id, -, hkey⟩ := htransition.key_eq
    obtain ⟨hmax, hmissing⟩ :=
      hI.reported i t hruns.task hruns.live key reported ⟨id, hkey⟩ hreport
    have hthere : 0 ≤ reported := by
      by_contra hneg
      have habsent := (hmissing (by omega) hguards.watched).clean hcommits.clean.2
      rw [hguards.clean hcommits.clean.2] at habsent
      cases habsent
    exact ⟨reported, _, hreport, hthere, hqueue, reconcileWriteTtl_eq hthere hmax⟩

section Runs

open Sample

set_option maxRecDepth 100000 in
/-- A job is enqueued, has five minutes left, and is about to be claimed. -/
def claimCommits : machineIn.Recording noForeign (start none) (fun w =>
    awaits w 2 = some (.tx .exec) ∧ (w.tasks 2).map (fun t => t.call.server) = some 0 ∧
    w.shared.db.sessions 0 = ⟨[key], false, true, [.setEx key 300 claimedText]⟩) :=
  ⟨enqueue ++ .env (.age key 300) :: call 2 (.claimBackgroundResponse "resp_1") 7,
    by decide +kernel⟩

/-- A claim of a job that has five minutes left writes with five minutes. -/
theorem lifetimes_bounded_claim : ∃ w t,
    machineIn.RunIn (fun _ l => ∀ id, ¬Foreign (ResponseStore.key config id) l) (start none)
      claimCommits.labels w ∧
    Commits w (.act 2 answered) 2 t key claimedText ∧ reportedTtl t = some (key, 300) := by
  have hcheck : ∀ w l, noForeign w l = true → ∀ id, ¬Foreign (ResponseStore.key config id) l :=
    fun _ _ h id => not_foreign_of_noForeign h _
  obtain ⟨w, hrun, hawaits, hserver, hsession⟩ := claimCommits.exists_runIn hcheck
  obtain ⟨t, hruns⟩ := runs_of_awaits hawaits (show answered.delivery.ran = true from rfl)
  have hserver : t.call.server = 0 := by simpa [hruns.task] using hserver
  have hcommits : Commits w (.act 2 answered) 2 t key claimedText := by
    refine ⟨hruns, ?_, 300, by decide, ?_⟩
    · rw [Clean, hserver, hsession]
      exact ⟨rfl, rfl⟩
    · rw [hserver, hsession]
  have hempty : ∀ id, (start none).shared.textAt (ResponseStore.key config id) = none := by
    intro id
    simp [start, Shared.textAt, Keyspace.textAt]
  obtain ⟨reported, ttl, hreport, hthere, hqueue, httl⟩ :=
    (lifetimes_bounded (show config.validate = .ok () from rfl) keysApart_config
      (sortedStart_start none) hempty hrun).2.2 _ 2 t key claimedText hcommits
  rw [hserver, hsession] at hqueue
  obtain rfl : (300 : UInt64) = ttl := by simpa using hqueue
  have hthree : max 1 reported = 300 := httl.symm
  obtain rfl : reported = 300 := by omega
  exact ⟨w, t, hrun, hcommits, hreport⟩

/-- A configuration under which the record of the response `g` and the cursor of the group `g` share
their key. -/
def sharedConfig : StoreConfig := ⟨"s:meta:autoclaim", 86400, "s", 3600, 0⟩

set_option maxRecDepth 100000 in
/-- A job is published and claimed, and the claim leaves its cursor. -/
def cursorStored : (oneKeyspace sharedConfig serde 8).Recording noForeign (start none)
    (fun w => w.shared.cursors (ResponseStore.key sharedConfig "g") = some "0-0") :=
  ⟨enqueue ++ call 2 (.ensureConsumerGroup "g" "") 1 ++
    call 3 (.claimBackgroundJobs ⟨"g", "c", 1, 0, 0⟩) 4, by decide +kernel⟩

/-- **A key without expiry.** The check of a configuration does not compare the names, and a cursor
at the key of a response does not expire. -/
theorem cursor_without_expiry : ¬∀ cfg : StoreConfig, cfg.validate = .ok () → ∀ ls w,
    (oneKeyspace cfg serde 8).RunIn (fun _ l => ∀ id, ¬Foreign (ResponseStore.key cfg id) l)
      (start none) ls w → ∀ id, Expires cfg w.shared (ResponseStore.key cfg id) := by
  intro hclaim
  have hcheck : ∀ w l, noForeign w l = true →
      ∀ id, ¬Foreign (ResponseStore.key sharedConfig id) l :=
    fun _ _ h id => not_foreign_of_noForeign h _
  obtain ⟨w, hrun, hcursor⟩ := cursorStored.exists_runIn hcheck
  have hexpires := hclaim sharedConfig rfl _ w hrun "g"
  rw [hexpires.cursor] at hcursor
  cases hcursor

end Runs

end ResponsesApiStore
