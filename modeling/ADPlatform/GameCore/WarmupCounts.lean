import ADPlatform.Lib.Transcript
import ADPlatform.GameCore.WarmupRuns

/-! # What a warmup counts

The thread of `Warmup.runPuts` comes back with a verdict on all targets. While the context of the
warmup is alive the successes it counts are the targets whose flag was put; a warmup that was cut
short before any put failed counts none. -/

namespace ADPlatform.GameCore
open Concurrent Text WorkerPool WarmupProc

/-! ## The thread of the warmup -/

section Main
variable {cfg : WarmupConfig} {targets : List CheckerTarget} {next workers : Nat}
  {jobs : List PutJob}

theorem startPut_plays : (putRoles targets).Plays (start workers) (.opening 0) fun _ new =>
    new = .opening workers := by
  refine mainPut_plays trivial (fun _ => rfl) (fun _ => rfl) ?_ fun hnone => ?_
  · intro s t tries rest input r hs hsem
    cases hsem
    cases hs with
    | opening hfresh hrest htries =>
      refine ⟨rfl, _, .opening ⟨hfresh.slot, hfresh.closed, ?_, hfresh.failures⟩ hrest htries, rfl⟩
      show s.pending + workers = workers
      rw [hfresh.pending, zero_add]
    | warming h => exact False.elim h.fits
  · cases hnone {}

/-- The workers start. -/
theorem forkPuts_plays (hworkers : 0 < workers) :
    (putRoles targets).Plays (Proc.forkAll workers fun _ =>
      Warmup.worker cfg targets (targets.length + 1))
      (.opening workers) fun _ new => new = .handing 0 := by
  have hfork : ∀ (s : LoggedWarmup) (stages : List PutStage) (i : Nat), stages[i]? =
    some (.opening workers) →
      PutInv targets s stages → PutInv targets s (stages.set i (.handing 0) ++
        List.ofFn fun _ : Fin workers => .idle (targets.length + 1)) := by
    intro s stages i hi hs
    obtain ⟨rfl, rest, rfl⟩ := hs.stages.main_first hi trivial
    refine ⟨?_, hs.ended⟩
    rw [List.set_cons_zero, List.cons_append, List.ofFn_const]
    have hstages := hs.stages
    cases hstages with
    | opening hfresh hrest htries =>
      rw [htries]
      exact .warming (.opened hworkers hfresh hrest)
    | warming h => exact False.elim h.fits
  refine .forkAll hfork (fun j => putWorker_plays.weaken fun _ stage h => ?_) rfl
  rw [h]
  trivial

/-- An index is handed out, or the context has ended. -/
theorem offer_plays (hnext : next < targets.length) :
    (putRoles targets).Plays (offer next) (.handing next) fun r new =>
      new = if r then .handing (next + 1) else .stopping next := by
  refine mainPut_plays trivial (fun _ => rfl) (fun _ => rfl) ?_ fun {s} hnone => ?_
  · intro s t tries rest input r hs hsem
    cases hs with
    | warming h =>
      simp only [warmupSem] at hsem
      split at hsem
      · obtain ⟨err, herr, heq⟩ := Option.map_eq_some_iff.mp hsem
        cases heq
        exact ⟨rfl, _, .warming (h.stop (by rw [herr]; simp)), rfl⟩
      · split at hsem
        · cases hsem
        · rename_i hslot
          cases hsem
          exact ⟨rfl, _, .warming (h.send (by simpa using hslot) hnext), rfl⟩
  · have hblocked := hnone {}
    simp only [warmupSem] at hblocked
    intro hslot
    rw [hslot] at hblocked
    cases hblocked

theorem closePut_plays {stage : PutStage}
    (hstage : stage = .handing next ∧ targets.length ≤ next ∨ stage = .stopping next) :
    (putRoles targets).Plays close stage fun _ new => new = .waiting next := by
  have hmain : stage.IsMain := by obtain ⟨rfl, -⟩ | rfl := hstage <;> trivial
  refine mainPut_plays hmain (fun _ => rfl) (fun _ => rfl) ?_ fun hnone => ?_
  · intro s t tries rest input r hs hsem
    cases hsem
    cases hs with
    | opening => obtain ⟨hne, -⟩ | hne := hstage <;> cases hne
    | warming h => exact ⟨rfl, _, .warming (h.close hstage), rfl⟩
  · cases hnone {}

/-- The loop that hands out the indices, by induction on how many are left. -/
theorem produce_plays {count : Nat} (hcount : next + count = targets.length) :
    (putRoles targets).Plays (Warmup.produce (List.range' next count)) (.handing next) fun _ new =>
      ∃ next', new = .waiting next' := by
  induction count generalizing next with
  | zero => exact (closePut_plays (.inl ⟨rfl, by omega⟩)).weaken fun _ _ h => ⟨next, h⟩
  | succ count ih =>
    refine .bind (offer_plays (by omega)) ?_
    rintro r _ rfl
    cases r with
    | true => exact ih (by omega)
    | false => exact (closePut_plays (.inr rfl)).weaken fun _ _ h => ⟨next, h⟩

theorem waitPut_plays : (putRoles targets).Plays wait (.waiting next) fun _ new =>
    ∃ jobs, new = .closing jobs := by
  refine mainPut_plays trivial (fun _ => rfl) (fun _ => rfl) ?_ fun {s} hnone => ?_
  · intro s t tries rest input r hs hsem
    cases hs with
    | warming h =>
      simp only [warmupSem] at hsem
      split at hsem
      · cases hsem
        exact ⟨rfl, _, .warming (h.wait ‹_›), _, rfl⟩
      · cases hsem
  · have hblocked := hnone {}
    simp only [warmupSem] at hblocked
    intro hpending
    rw [if_pos hpending] at hblocked
    cases hblocked

theorem failures_plays : (putRoles targets).Plays failures (.closing jobs) fun failures new =>
    new = .closing jobs ∧ failures.length = jobs.countP (!·.succeeded) := by
  refine mainPut_plays trivial (fun _ => rfl) (fun _ => rfl) ?_ fun hnone => ?_
  · intro s t tries rest input r hs hsem
    cases hsem
    cases hs with
    | warming h =>
      obtain ⟨rfl, -⟩ := h.fits
      exact ⟨rfl, _, .warming h, rfl, h.failures⟩
  · cases hnone {}

theorem lookPut_plays : (putRoles targets).Plays contextErr (.closing jobs) fun err new =>
    new = .looked jobs err := by
  refine mainPut_plays trivial (fun _ => rfl) (fun _ => rfl) ?_ fun hnone => ?_
  · intro s t tries rest input r hs hsem
    cases hsem
    cases hs with
    | warming h => exact ⟨rfl, _, .warming h.look, rfl⟩
  · cases hnone {}

theorem putParallelism_pos (htargets : targets ≠ []) : 0 < Warmup.parallelism cfg targets := by
  have hlength := List.length_pos_iff.mpr htargets
  unfold Warmup.parallelism
  dsimp only
  split <;> split <;> omega

/-- What a warmup returns with. -/
def WarmupEnd (cfg : WarmupConfig) (targets : List CheckerTarget) (result : GameWarmupResult)
    (r : GameWarmupResult) (stage : PutStage) : Prop :=
  ∃ jobs err failures completedAt, stage = .looked jobs err ∧
    failures.length = jobs.countP (!·.succeeded) ∧
    r = GameCoreServer.warmupVerdict cfg.warmupMinSuccess
      { result with totalTargets := targets.length }
      completedAt failures (err.map (·.text))

theorem runPuts_plays {result : GameWarmupResult} (htargets : targets ≠ []) :
    (putRoles targets).Plays (Warmup.runPuts cfg result targets) (.opening 0)
      (WarmupEnd cfg targets result) := by
  refine .bind startPut_plays ?_
  rintro _ _ rfl
  refine .bind (forkPuts_plays (putParallelism_pos htargets)) ?_
  rintro _ _ rfl
  rw [List.range_eq_range']
  refine .bind (produce_plays (Nat.zero_add _)) ?_
  rintro _ _ ⟨next, rfl⟩
  refine .bind waitPut_plays ?_
  rintro _ _ ⟨jobs, rfl⟩
  refine .bind clockPut_plays ?_
  rintro completedAt _ rfl
  refine .bind failures_plays ?_
  rintro failures _ ⟨rfl, hfailures⟩
  refine .bind lookPut_plays ?_
  rintro err _ rfl
  exact .pure ⟨jobs, err, failures, completedAt, rfl, hfailures, rfl⟩

end Main

/-! ## The verdict -/

section Verdict
variable {minSuccess : ℚ} {result : GameWarmupResult} {completedAt : Time}
  {failures : List GameWarmupFailure} {contextError : Option String}

variable (minSuccess result completedAt contextError) in
/-- The numbers of a verdict, however it comes out. -/
theorem warmupVerdict_numbers (hle : failures.length ≤ result.totalTargets) :
    let r := GameCoreServer.warmupVerdict minSuccess result completedAt failures contextError
    r.totalTargets = result.totalTargets ∧ r.putSuccess + r.putFailed = r.totalTargets ∧
      (r.status = .passed → minSuccess ≤ r.putSuccess / r.totalTargets) := by
  have hsum : result.totalTargets - failures.length + failures.length = result.totalTargets :=
    Nat.sub_add_cancel hle
  unfold GameCoreServer.warmupVerdict
  dsimp only
  split
  · split
    · rename_i hmin
      exact ⟨rfl, Nat.zero_add _, fun _ => by simpa using hmin⟩
    · exact ⟨rfl, Nat.zero_add _, fun h => nomatch h⟩
  · split
    · rename_i hmin
      exact ⟨rfl, hsum, fun _ => hmin⟩
    · exact ⟨rfl, hsum, fun h => nomatch h⟩

theorem warmupVerdict_alive :
    (GameCoreServer.warmupVerdict minSuccess result completedAt failures none).putSuccess =
      result.totalTargets - failures.length := by
  unfold GameCoreServer.warmupVerdict
  dsimp only
  split <;> rfl

theorem warmupVerdict_aborted (reason : String) :
    (GameCoreServer.warmupVerdict minSuccess result completedAt [] (some reason)).putSuccess =
      0 := by
  unfold GameCoreServer.warmupVerdict
  dsimp only
  split <;> rfl

end Verdict

/-! ## Runs -/

/-- The jobs behind a log: different targets, and no put was tried beside them. -/
structure PutJobsOf (targets : List CheckerTarget) (log : WarmupLog)
    (jobs : List PutJob) : Prop where
  nodup : (jobs.map (·.index)).Nodup
  complete : ∀ job ∈ jobs, targets[job.index]? = some job.target
  tried : (log.map WarmupLog.tried).sum = (jobs.map PutJob.tried).sum

/-- What a warmup has counted when it returns. `err` is what it found of its context behind the
workers. -/
inductive WarmupCounts (cfg : WarmupConfig) (targets : List CheckerTarget) (log : WarmupLog)
    (r : GameWarmupResult) : Prop
  | counted {jobs : List PutJob} {err : Option CtxError} (hjobs : PutJobsOf targets log jobs)
      (herr : err ≠ none → log.Fired) (htotal : r.totalTargets = targets.length)
      (hsum : r.putSuccess + r.putFailed = r.totalTargets)
      (hpassed : r.status = .passed → cfg.warmupMinSuccess ≤ r.putSuccess / r.totalTargets)
      (halive : err = none → r.putSuccess = jobs.countP (·.succeeded))
      (haborted : err ≠ none → (∀ job ∈ jobs, job.succeeded = true) → r.putSuccess = 0)

section Runs
variable {cfg : WarmupConfig} {targets : List CheckerTarget}

theorem Warming.jobsOf {s : WarmupShared} {log : WarmupLog} {next : Nat} {jobs jobs' : List PutJob}
    {skipped : Multiset Nat} {err : Option CtxError} {rest : List PutStage}
    (h : Warming targets s next jobs skipped (log.map WarmupLog.tried).sum
      (.looked jobs' err) rest) :
    PutJobsOf targets log jobs ∧ jobs.length ≤ targets.length := by
  obtain ⟨-, hpending, -⟩ := h.fits
  have hle : ((jobs.map (·.index) : List Nat) : Multiset Nat) ≤ Multiset.range next :=
    (hpending ▸ h.accounts).settled ▸ Multiset.le_add_right ..
  have hzero : (rest.map PutStage.tried).sum = 0 := by
    refine List.sum_eq_zero fun x hx => ?_
    obtain ⟨stage, hstage, rfl⟩ := List.mem_map.mp hx
    cases stage with
    | running fuel job =>
      have hwork := h.accounts.pending_pos (List.mem_map_of_mem (f := PutStage.place) hstage) rfl
      exact absurd hpending hwork.ne'
    | _ => rfl
  refine ⟨⟨Multiset.coe_nodup.mp (Multiset.nodup_of_le hle (Multiset.nodup_range next)),
    h.complete, ?_⟩, ?_⟩
  · rw [h.tried, hzero, zero_add]
  · have hcard := Multiset.card_le_card hle
    rw [Multiset.coe_card, List.length_map, Multiset.card_range] at hcard
    exact hcard.trans h.accounts.bound

theorem PutInv.counts {s : LoggedWarmup} {stages : List PutStage} {i : Nat} {stage : PutStage}
    {result r : GameWarmupResult} (hs : PutInv targets s stages) (hi : stages[i]? = some stage)
    (hend : WarmupEnd cfg targets result r stage) : i = 0 ∧ WarmupCounts cfg targets s.log r := by
  obtain ⟨jobs, err, failures, completedAt, rfl, hfailures, rfl⟩ := hend
  obtain ⟨rfl, rest, rfl⟩ := hs.stages.main_first hi trivial
  refine ⟨rfl, ?_⟩
  have hstages := hs.stages
  cases hstages with
  | warming h =>
    obtain ⟨rfl, -, hended, hall⟩ := h.fits
    obtain ⟨hjobs, hlength⟩ := h.jobsOf
    have hsplit : jobs.length = jobs.countP (·.succeeded) + jobs.countP (!·.succeeded) := by
      simpa using List.length_eq_countP_add_countP (l := jobs) (·.succeeded)
    have hle : failures.length ≤ targets.length := by
      rw [hfailures]
      exact (List.countP_le_length).trans hlength
    obtain ⟨htotal, hsum, hpassed⟩ := warmupVerdict_numbers cfg.warmupMinSuccess
      { result with totalTargets := targets.length } completedAt (err.map (·.text)) hle
    refine .counted hjobs (fun herr => hs.ended.mp (hended herr)) htotal hsum hpassed ?_ ?_
    · rintro rfl
      rw [Option.map_none, warmupVerdict_alive]
      dsimp only
      rw [hfailures, ← hall rfl]
      omega
    · intro herr hsucceeded
      obtain ⟨e, rfl⟩ := Option.ne_none_iff_exists'.mp herr
      have hnone : failures = [] := by
        rw [← List.length_eq_zero_iff, hfailures, List.countP_eq_zero]
        intro job hjob
        rw [hsucceeded job hjob]
        simp
      rw [hnone, Option.map_some, warmupVerdict_aborted]

/-- A thread that ends the context of the warmup. -/
def cancelWarmup (err : CtxError) : Thread WarmupOp WarmupOp.Res :=
  (Proc.perform (WarmupOp.contextCancel err) : WarmupProc Unit).toThread

theorem contextCancelPut_plays {err : CtxError} :
    (putRoles targets).Plays (Proc.perform (.contextCancel err)) .cancelling fun _ =>
      PutStage.Ended := by
  refine .perform (fun s stages i hi hs input t r _ hsem => ?_) fun s stages i hi hs hnone => ?_
  · have hstep : warmupSem.logged input (.contextCancel err) s = some (t, r) := hsem
    obtain ⟨hsem, hlog⟩ := logged_eq_some hstep
    have hstate : t.state = { s.state with ended := s.state.ended.or (some err) } :=
      (Prod.mk.inj (Option.some.inj hsem)).1.symm
    have hended : t.state.ended ≠ none := by
      rw [hstate]
      cases s.state.ended <;> simp
    have hzero : WarmupLog.tried ⟨.contextCancel err, r⟩ = 0 := rfl
    refine ⟨.cancelling, ⟨?_, iff_of_true hended ?_⟩, trivial⟩
    · rw [set_same hi, hlog, List.map_append, List.sum_append, List.map_singleton,
        List.sum_singleton, hzero,
        add_zero, hstate]
      have hstages := hs.stages
      cases hstages with
      | opening hfresh hrest htries =>
        exact .opening ⟨hfresh.slot, hfresh.closed, hfresh.pending, hfresh.failures⟩ hrest htries
      | warming h => exact .warming (h.cancel err)
    · rw [hlog]
      exact ⟨_, List.mem_append_right _ (.head _), rfl⟩
  · have hblocked : warmupSem.logged {} (.contextCancel err) s = none := hnone {}
    cases logged_eq_none.mp hblocked

theorem cancelWarmup_admits {exit : Thread WarmupOp WarmupOp.Res → PutStage → Prop} :
    (putRoles targets).Admits exit cancelWarmup := by
  intro err s stages hs
  refine ⟨.cancelling, ⟨?_, hs.ended⟩, contextCancelPut_plays.toThread⟩
  have hstages := hs.stages
  cases hstages with
  | opening hfresh hrest htries =>
    refine .opening hfresh (fun stage hstage => ?_) htries
    exact (List.mem_append.mp hstage).elim (hrest stage) List.mem_singleton.mp
  | @warming next jobs skipped stage rest h =>
    rw [List.cons_append]
    refine .warming { h with helps := ?_, accounts := ?_, tried := ?_ }
    · intro stage hstage
      rcases List.mem_append.mp hstage with hstage | hstage
      · exact h.helps stage hstage
      · rw [List.mem_singleton.mp hstage]
        trivial
    · rw [List.map_append]
      exact h.accounts.append_other
    · have hnone : PutStage.cancelling.tried = 0 := rfl
      rw [h.tried, List.map_append, List.sum_append, List.map_singleton, List.sum_singleton,
        hnone, add_zero]

/-- A warmup that has listed its targets; `k` is what happens with its result. -/
def warmupMachine (cfg : WarmupConfig) (codec : FlagCodec) (result : GameWarmupResult)
    (targets : List CheckerTarget) (k : GameWarmupResult → Thread WarmupOp WarmupOp.Res) :
    Machine LoggedWarmup WarmupOp WarmupOp.Res :=
  ⟨⟨{ codec }, []⟩, [Warmup.runPuts cfg result targets k]⟩

/-- A warmup comes by its result, or can go on; no warmup goes on forever. -/
theorem warmup_counts (cfg : WarmupConfig) (codec : FlagCodec) (result : GameWarmupResult)
    (targets : List CheckerTarget) (htargets : targets ≠ [])
    (k : GameWarmupResult → Thread WarmupOp WarmupOp.Res) :
    (∀ ls : List (Label CtxError WarmupInput),
      (∃ ls₁ ls₂ r, ls = ls₁ ++ ls₂ ∧
        ((warmupMachine cfg codec result targets k).run warmupSem.logged cancelWarmup
          ls₁).threads[0]? =
          some (k r) ∧
        WarmupCounts cfg targets
          ((warmupMachine cfg codec result targets k).run warmupSem.logged cancelWarmup
            ls₁).shared.log r) ∨
      ∃ m', ((warmupMachine cfg codec result targets k).run warmupSem.logged cancelWarmup ls).Moves
        warmupSem.logged m') ∧
    WellFounded fun m' m : Machine LoggedWarmup WarmupOp WarmupOp.Res =>
      m.Moves warmupSem.logged m' := by
  have hstaged :
      (putRoles targets).Staged (fun t stage => ∃ r, t = k r ∧ WarmupEnd cfg targets result r stage)
      (warmupMachine cfg codec result targets k) [.opening 0] := by
    refine ⟨⟨.opening ⟨rfl, rfl, rfl, rfl⟩ (by simp) rfl, ?_⟩, .cons ?_ .nil⟩
    · simp [WarmupLog.Fired, warmupMachine]
    · exact runPuts_plays htargets _ k fun r stage hend => Roles.follows_of_exit ⟨r, rfl, hend⟩
  refine ⟨fun ls => ?_, Machine.moves_wellFounded _⟩
  refine (hstaged.exits_or_moves cancelWarmup_admits (fun s stages hs => hs.stages.not_at_rest)
    (Machine.runAllowed_of_forall (fun _ _ _ => trivial) ls)).imp ?_ id
  rintro ⟨ls₁, ls₂, stages, rfl, hstaged, i, t, stage, ht, hi, r, rfl, hend⟩
  obtain ⟨rfl, hcounts⟩ := hstaged.inv.counts hi hend
  exact ⟨ls₁, ls₂, r, rfl, ht, hcounts⟩

end Runs

/-! ### A warmup that is cut short -/

/-- A target of the warmup. -/
def flaggedTarget (challengeID : Int) : CheckerTarget :=
  { teamID := 1, teamName := "Alpha", challengeID, challengeName := "banking",
    checkerImage := "checker"
    target := "10.80.1.1:8080" }

/-- The default settings. -/
def plainWarmup : WarmupConfig where
  crypto := { hmac := fun _ _ => [], sha256 := fun _ => [] }

/-- A thread that ends unless the warmup has counted one success. -/
def unlessOne (r : GameWarmupResult) : Thread WarmupOp WarmupOp.Res :=
  if r.putSuccess = 1 then .call .clock fun _ => .done else .done

/-- The warmup and its worker take turns; the context ends after `n` of them. -/
def cutShortAt (n : Nat) : List (Label CtxError WarmupInput) :=
  turns n ++ [.arrive .deadlineExceeded, .step 2 {}] ++ turns 40
where
  turns (n : Nat) : List (Label CtxError WarmupInput) :=
    (List.range n).map fun turn => .step (turn % 2) {}

/-- All threads end, and the warmup has its result. -/
theorem warmup_counts_cutShort :
    let m :=
      (warmupMachine plainWarmup (.new "secret" "PLAYIT") {} [flaggedTarget 1, flaggedTarget 2]
      unlessOne).run warmupSem.logged cancelWarmup
    ∃ ls₁ ls₂ r, cutShortAt 14 = ls₁ ++ ls₂ ∧ (m ls₁).threads[0]? = some (unlessOne r) ∧
      WarmupCounts plainWarmup [flaggedTarget 1, flaggedTarget 2] (m ls₁).shared.log r :=
  ((warmup_counts plainWarmup (.new "secret" "PLAYIT") {} [flaggedTarget 1,
    flaggedTarget 2] (by simp)
    unlessOne).1 (cutShortAt 14)).resolve_right (Machine.not_moves_of_isDone (by decide +kernel))

/-- The context ends behind the put of the first target: the warmup counts no success. -/
theorem success_not_counted :
    ¬ ∀ (cfg : WarmupConfig) (codec : FlagCodec) (result : GameWarmupResult)
      (targets : List CheckerTarget)
      (k : GameWarmupResult → Thread WarmupOp WarmupOp.Res)
      (ls : List (Label CtxError WarmupInput)),
      targets ≠ [] →
      let m := (warmupMachine cfg codec result targets k).run warmupSem.logged cancelWarmup ls
      (∃ r, m.threads[0]? = some (k r)) → ∃ r, m.threads[0]? = some (k r) ∧
        (∀ jobs, PutJobsOf targets m.shared.log jobs → r.putSuccess = jobs.countP (·.succeeded)) ∧
        r.putSuccess + r.putFailed = r.totalTargets ∧
        (r.status = .passed → cfg.warmupMinSuccess ≤ r.putSuccess / r.totalTargets) := by
  intro h
  have hdone :
      ((warmupMachine plainWarmup (.new "secret" "PLAYIT") {} [flaggedTarget 1, flaggedTarget 2]
      unlessOne).run warmupSem.logged cancelWarmup (cutShortAt 14)).threads[0]?.map (·.isDone) =
        some true := by
    decide +kernel
  have htried :
      (((warmupMachine plainWarmup (.new "secret" "PLAYIT") {} [flaggedTarget 1, flaggedTarget 2]
      unlessOne).run warmupSem.logged cancelWarmup (cutShortAt 14)).shared.log.map
        WarmupLog.tried).sum =
        {(flaggedTarget 1, .ok { status := "success" })} := by decide +kernel
  obtain ⟨t, ht, hisDone⟩ := Option.map_eq_some_iff.mp hdone
  obtain rfl := Thread.eq_done_of_isDone hisDone
  obtain ⟨r, hr, hsuccess, -⟩ :=
    h plainWarmup (.new "secret" "PLAYIT") {} [flaggedTarget 1, flaggedTarget 2]
    unlessOne (cutShortAt 14) (by simp) ⟨{}, ht⟩
  have hcount : [(⟨0, flaggedTarget 1, [.ok { status := "success" }]⟩ : PutJob)].countP
      (·.succeeded) = 1 := by
    decide +kernel
  have hone : r.putSuccess = 1 :=
    (hsuccess _ ⟨by simp, by simp, htried.trans (by decide)⟩).trans hcount
  rw [unlessOne, if_pos hone] at hr
  cases ht.symm.trans hr

end ADPlatform.GameCore
