import ADPlatform.GameCore.TickAdvance
import ADPlatform.GameCore.TargetTranscripts

/-! # The totals of a tick

A tick runs with its workers while contexts may end at any time: the deadline of the checker runs
fires, or whoever asked for the tick goes away. While its store does not fail it comes to an end,
and the totals that it is completed with are the sums over all targets; none of them lacks its runs
unless a context has ended. -/

namespace ADPlatform.GameCore
open Concurrent Text ServerProc Server WorkerPool

variable {σ : Type} {ι : Type v} {cfg : ServerConfig} {sem : StoreSem σ ι}

/-! ## Contexts that end -/

/-- A context ends: the request of the tick is gone, or a deadline is over. -/
structure ContextEnd where
  ctx : Nat
  err : CtxError

/-- The code that ends the context. -/
def ContextEnd.handler (e : ContextEnd) : Thread ServerOp ServerOp.Res :=
  (contextCancel e.ctx e.err).toThread

theorem contextCancel_plays [Nonempty ι] {role : TickRole} {ctx : Nat} {err : CtxError}
    (hstage : role.stage = .cancelling) :
    (tickRoles cfg sem).Plays (contextCancel ctx err) role fun _ role' =>
      role'.stage = .cancelling := by
  refine .perform (fun s roles i hi hs input t r hal hsem => ?_) fun s roles i hi hs hnone => ?_
  · have hstep : (serverSem sem).logged input (.contextCancel ctx err) s = some (t, r) := hsem
    obtain ⟨hsem, hlog⟩ := logged_eq_some hstep
    have hstate : t.state = if (s.state.contextErr ctx).isSome then s.state
        else { s.state with done := (ctx, err) :: s.state.done } :=
      (Prod.mk.inj (Option.some.inj hsem)).1.symm
    have hdone : t.state.done ≠ [] := by
      rw [hstate]
      split
      · rename_i herr
        obtain ⟨err', herr'⟩ := Option.isSome_iff_exists.mp herr
        exact done_ne_nil herr'
      · exact List.cons_ne_nil _ _
    have hquiet : Quiet s t ⟨.contextCancel ctx err, r⟩ := by
      refine ⟨?_, ?_, hlog, rfl, rfl⟩
      all_goals
        rw [hstate]
        split <;> rfl
    refine ⟨role, ⟨knows_set hs.knows hlog ?_, iff_of_true hdone ?_, ?_⟩, hstage⟩
    · rw [hlog]
      exact role.knows.stable (hs.knows role (List.mem_of_getElem? hi))
    · rw [hlog]
      exact ⟨_, List.mem_append_right _ (.head _), rfl⟩
    · rw [set_same hi]
      exact hs.stages.quiet hquiet fun _ => hdone
  · obtain ⟨input⟩ := ‹Nonempty ι›
    have hblocked : (serverSem sem).logged { store := input } (.contextCancel ctx err) s = none :=
      hnone { store := input }
    cases logged_eq_none.mp hblocked

/-- A thread that ends a context counts for nothing in the pool. -/
theorem Stages.append_cancelling {s : LoggedServer σ} {stages : List TickStage}
    (h : Stages cfg s stages) :
    Stages cfg s (stages ++ [.cancelling]) := by
  cases h with
  | opening hcontexts hpools hrest hstarted hrecorded =>
    rw [List.cons_append]
    refine .opening hcontexts hpools (fun stage hstage => ?_) hstarted hrecorded
    rcases List.mem_append.mp hstage with hstage | hstage
    · exact hrest stage hstage
    · exact List.mem_singleton.mp hstage
  | @pooling plan pool next jobs skipped stage rest hcontexts hpools h =>
    rw [List.cons_append]
    refine .pooling hcontexts hpools
      { h with helps := ?_, accounts := ?_, started := ?_, recorded := ?_ }
    · intro stage hstage
      rcases List.mem_append.mp hstage with hstage | hstage
      · exact h.helps stage hstage
      · rw [List.mem_singleton.mp hstage]
        trivial
    · rw [List.map_append]
      exact h.accounts.append_other
    · have hnone : TickStage.cancelling.started = 0 := rfl
      rw [h.started, List.map_append, List.sum_append, List.map_singleton,
        List.sum_singleton, hnone,
        add_zero]
    · have hnone : TickStage.cancelling.recorded = 0 := rfl
      rw [h.recorded, List.map_append, List.sum_append, List.map_singleton,
        List.sum_singleton, hnone,
        add_zero]

theorem contextEnd_admits [Nonempty ι] {exit : Thread ServerOp ServerOp.Res → TickRole → Prop} :
    (tickRoles cfg sem).Admits exit ContextEnd.handler := by
  intro e s roles hs
  refine ⟨{ stage := .cancelling }, ⟨fun role hrole => ?_, hs.done, ?_⟩, ?_⟩
  · rcases List.mem_append.mp hrole with hrole | hrole
    · exact hs.knows role hrole
    · rw [List.mem_singleton.mp hrole]
      trivial
  · rw [List.map_append]
    exact hs.stages.append_cancelling
  · refine Roles.Plays.toThread ((contextCancel_plays rfl).weaken fun _ role h => ?_)
    show role.stage.Ended
    rw [h]
    trivial

/-! ## The jobs of a tick, target by target -/

/-- Things with different keys below `n`, in the order of their keys. -/
theorem perm_filterMap_find {α : Type} {l : List α} {key : α → Nat} {n : Nat}
    (hnodup : (l.map key).Nodup) (hlt : ∀ a ∈ l, key a < n) :
    l.Perm ((List.range n).filterMap fun i => l.find? fun a => key a = i) := by
  have hfind : ∀ {i : Nat} {a : α}, (l.find? fun a => key a = i) = some a → a ∈ l ∧ key a = i :=
    fun h => ⟨List.mem_of_find?_eq_some h, by simpa using List.find?_some h⟩
  refine (List.perm_ext_iff_of_nodup hnodup.of_map ?_).mpr fun a => ?_
  · refine (List.nodup_range).filterMap fun i j a hi hj => ?_
    exact (hfind hi).2.symm.trans (hfind hj).2
  · rw [List.mem_filterMap]
    constructor
    · intro ha
      refine ⟨key a, List.mem_range.mpr (hlt a ha), ?_⟩
      have hsome : (l.find? fun b => key b = key a).isSome = true :=
        List.find?_isSome.mpr ⟨a, ha, by simp⟩
      obtain ⟨b, hb⟩ := Option.isSome_iff_exists.mp hsome
      rw [hb, List.inj_on_of_nodup_map hnodup (hfind hb).1 ha (hfind hb).2]
    · rintro ⟨i, -, hi⟩
      exact (hfind hi).1

/-- The runs of every target; a target without a job has none. -/
def runsOf (n : Nat) (jobs : List Job) : List (List CheckerRunRecord) :=
  (List.range n).map fun index => ((jobs.find? (·.index = index)).map Job.runs).getD []

theorem resultsOf_eq (n : Nat) (jobs : List Job) :
    resultsOf n jobs = (runsOf n jobs).map countRuns := by
  rw [runsOf, List.map_map, resultsOf]
  refine List.map_congr_left fun index _ => ?_
  rw [Function.comp_apply]
  cases jobs.find? (·.index = index) <;> rfl

/-- The runs of the jobs are those of the targets. -/
theorem flatMap_runs_perm {n : Nat} {jobs : List Job} (hnodup : (jobs.map (·.index)).Nodup)
    (hlt : ∀ job ∈ jobs, job.index < n) : (jobs.flatMap (·.runs)).Perm (runsOf n jobs).flatten := by
  refine ((perm_filterMap_find hnodup hlt).flatMap_right _).trans (.of_eq ?_)
  rw [runsOf]
  induction List.range n with
  | nil => rfl
  | cons index indices ih =>
    rw [List.map_cons, List.flatten_cons, ← ih, List.filterMap_cons]
    cases jobs.find? (·.index = index) with
    | none => rfl
    | some job => rw [List.flatMap_cons]; rfl

/-! ## What a tick leaves behind -/

/-- The jobs behind a log: different targets of the plan, with one run for each phase, and nothing
else was started or recorded. A target has none only when a context ended before its batch. -/
structure JobsOf (cfg : ServerConfig) (log : ServerLog) (plan : TickPlan)
    (jobs : List Job) : Prop where
  nodup : (jobs.map (·.index)).Nodup
  complete : ∀ job ∈ jobs, plan.targets[job.index]? = some job.target ∧
    PhaseRuns plan.tickID job.target job.batch cfg.checkerPhases false job.runs
  all : log.Fired ∨ ∀ index < plan.targets.length, ∃ job ∈ jobs, job.index = index
  started : (log.map ServerLog.started).sum = (jobs.map fun job => (job.target, job.batch) : List _)
  recorded : (log.map ServerLog.recorded).sum = (jobs.flatMap (·.runs) : List _)

/-- The totals of the completed tick: what the tick was started with and the sums over all
targets. -/
structure TotalsOf (tick completed : GameTickStatus)
    (runs : List (List CheckerRunRecord)) : Prop where
  total : completed.totalCheckerRuns = tick.totalCheckerRuns + (runs.map (·.length)).sum
  successful : completed.successfulCheckerRuns =
    tick.successfulCheckerRuns + (runs.map (·.countP (·.status = "success"))).sum
  skipped : completed.skippedCheckerRuns =
    tick.skippedCheckerRuns + (runs.map (·.countP (·.status = "skipped"))).sum
  failed : completed.failedCheckerRuns =
    tick.failedCheckerRuns + (runs.map (·.countP (·.status = "failed"))).sum

/-- A tick that has returned, by its log. -/
inductive TickResult (cfg : ServerConfig) (log : ServerLog) :
    Except StoreError GameTickStatus → Prop
  /-- the match is not running -/
  | refused {e : StoreError} (hstatus : log.NotRunning cfg e)
      (hrecorded : (log.map ServerLog.recorded).sum = 0) : TickResult cfg log (.error e)
  | completed {startedAt completedAt : Time} {tick completed answer : GameTickStatus}
      {listed : List CheckerTarget} {plan : TickPlan} {jobs : List Job} {err : Option CtxError}
      (hstart : log.Stored (.startNextTick startedAt) tick)
      (hlist : log.Stored .listCheckerTargets listed)
      (hplan : plan = ⟨tick.id, rotateCheckerTargets listed tick.id⟩)
      (hjobs : JobsOf cfg log plan jobs)
      (hrecorded : (log.map ServerLog.recorded).sum =
        ((runsOf plan.targets.length jobs).flatten : List _))
      (hlook : ⟨.contextErr (runContext cfg), err⟩ ∈ log)
      (hfinished : completed =
        finishedTick cfg tick plan.targets (resultsOf plan.targets.length jobs) completedAt err)
      (hcompleted : log.Stored (.completeTick completed) answer)
      (htotals : TotalsOf tick completed (runsOf plan.targets.length jobs)) :
        TickResult cfg log (.ok answer)

theorem totalsOf_completedTick {tick : GameTickStatus} {completedAt : Time} {targets phases : Nat}
    {timedOut : Bool} {runs : List (List CheckerRunRecord)}
    (hstatuses : ∀ rs ∈ runs, ∀ run ∈ rs, run.status ∈ runStatuses) :
    TotalsOf tick
      (completedTick tick (runs.map countRuns) completedAt targets phases timedOut) runs := by
  have hsum : ∀ (count : CheckerTargetTickResult → Nat) (of : List CheckerRunRecord → Nat),
      (∀ rs ∈ runs, count (countRuns rs) = of rs) →
      ((runs.map countRuns).map count).sum = (runs.map of).sum := by
    intro count of h
    rw [List.map_map]
    exact congrArg List.sum (List.map_congr_left h)
  constructor
  · show tick.totalCheckerRuns + _ = _
    rw [hsum (·.total) (·.length) fun rs hrs => by rw [countRuns_eq rs (hstatuses rs hrs)]]
  · show tick.successfulCheckerRuns + _ = _
    rw [hsum (·.success) (·.countP (·.status = "success")) fun rs hrs => by
      rw [countRuns_eq rs (hstatuses rs hrs)]]
  · show tick.skippedCheckerRuns + _ = _
    rw [hsum (·.skipped) (·.countP (·.status = "skipped")) fun rs hrs => by
      rw [countRuns_eq rs (hstatuses rs hrs)]]
  · show tick.failedCheckerRuns + _ = _
    rw [hsum (·.failed) (·.countP (·.status = "failed")) fun rs hrs => by
      rw [countRuns_eq rs (hstatuses rs hrs)]]

section Settled
variable {plan plan' : TickPlan} {pool : Pool} {next : Nat} {jobs jobs' : List Job}
  {skipped : Multiset Nat}
  {fired : Prop} {batches : Multiset (CheckerTarget × Except String (List CheckerPhaseResult))}
  {runs : Multiset CheckerRunRecord} {rest : List TickStage}

/-- Behind its workers no thread has a batch or a run of its own. -/
theorem Pooling.none_running
    (h : Pooling cfg plan pool next jobs skipped fired batches runs (.closing plan' jobs') rest) :
    ∀ stage ∈ rest, stage.started = 0 ∧ stage.recorded = 0 := by
  intro stage hstage
  cases stage with
  | running plan'' fuel job =>
    have hpending := h.accounts.pending_pos (List.mem_map_of_mem (f := TickStage.place) hstage) rfl
    exact absurd h.fits.2.2.1 hpending.ne'
  | opening | handing | waiting | closing | idle | holding | leaving | left | cancelling =>
    exact ⟨rfl, rfl⟩

theorem Pooling.started_closing
    (h : Pooling cfg plan pool next jobs skipped fired batches runs (.closing plan' jobs') rest) :
    batches = (jobs.map fun job => (job.target, job.batch) : List _) := by
  have hzero : (rest.map TickStage.started).sum = 0 := by
    refine List.sum_eq_zero fun x hx => ?_
    obtain ⟨stage, hstage, rfl⟩ := List.mem_map.mp hx
    exact (h.none_running stage hstage).1
  rw [h.started, hzero, zero_add]

theorem Pooling.recorded_closing
    (h : Pooling cfg plan pool next jobs skipped fired batches runs (.closing plan' jobs') rest) :
    runs = (jobs.flatMap (·.runs) : List _) := by
  have hzero : (rest.map TickStage.recorded).sum = 0 := by
    refine List.sum_eq_zero fun x hx => ?_
    obtain ⟨stage, hstage, rfl⟩ := List.mem_map.mp hx
    exact (h.none_running stage hstage).2
  rw [h.recorded, hzero, zero_add]

/-- Behind its workers a tick has the jobs of all targets, unless a context has ended. -/
theorem Pooling.jobsOf {log : ServerLog}
    (h : Pooling cfg plan pool next jobs skipped log.Fired (log.map ServerLog.started).sum
      (log.map ServerLog.recorded).sum (.closing plan' jobs') rest) : JobsOf cfg log plan jobs := by
  obtain ⟨-, -, hpending, hstop⟩ := h.fits
  have hsettled := (hpending ▸ h.accounts).settled
  have hle : ((jobs.map (·.index) : List Nat) : Multiset Nat) ≤ Multiset.range next :=
    hsettled ▸ Multiset.le_add_right ..
  refine ⟨Multiset.coe_nodup.mp (Multiset.nodup_of_le hle (Multiset.nodup_range next)),
    h.complete, ?_,
    h.started_closing, h.recorded_closing⟩
  refine or_iff_not_imp_left.mpr fun hfired index hindex => ?_
  have hskipped : skipped = 0 := not_not.mp fun hne => hfired (h.cut hne)
  have hnext : plan.targets.length ≤ next := Nat.le_of_not_lt fun hlt => hfired (hstop hlt)
  have hmem : index ∈ Multiset.range next := Multiset.mem_range.mpr (hindex.trans_le hnext)
  rw [← hsettled, hskipped, add_zero] at hmem
  exact List.mem_map.mp (Multiset.mem_coe.mp hmem)

end Settled

theorem JobsOf.index_lt {log : ServerLog} {plan : TickPlan} {jobs : List Job}
    (h : JobsOf cfg log plan jobs) :
    ∀ job ∈ jobs, job.index < plan.targets.length :=
  fun job hjob => (List.getElem?_eq_some_iff.mp (h.complete job hjob).1).1

theorem JobsOf.statuses {log : ServerLog} {plan : TickPlan} {jobs : List Job}
    (h : JobsOf cfg log plan jobs) :
    ∀ runs ∈ runsOf plan.targets.length jobs, ∀ run ∈ runs, run.status ∈ runStatuses := by
  intro runs hruns
  obtain ⟨index, -, rfl⟩ := List.mem_map.mp hruns
  cases hfind : jobs.find? (·.index = index) with
  | none => simp
  | some job => exact (h.complete job (List.mem_of_find?_eq_some hfind)).2.pattern.statuses

/-- What a tick has left behind when it returns. -/
theorem TickInv.result {s : LoggedServer σ} {roles : List TickRole} {i : Nat} {role : TickRole}
    {r : Except StoreError GameTickStatus} (hs : TickInv cfg s roles) (hi : roles[i]? = some role)
    (hend : TickEnd cfg role r) : i = 0 ∧ TickResult cfg s.log r := by
  have hknows := hs.knows role (List.mem_of_getElem? hi)
  cases hend with
  | refused hstage hstatus =>
    obtain ⟨rfl, rest, rfl⟩ := hs.main_first hi (by rw [hstage]; trivial)
    have hstages := hs.stages
    rw [List.map_cons, hstage] at hstages
    refine ⟨rfl, ?_⟩
    cases hstages with
    | opening _ _ _ _ hrecorded => exact .refused (hstatus _ hknows) hrecorded
    | pooling _ _ h => exact False.elim h.fits
  | @completed startedAt completedAt tick answer targets jobs err hstage hstart htargets hlook
      hcomplete =>
    obtain ⟨rfl, rest, rfl⟩ := hs.main_first hi (by rw [hstage]; trivial)
    have hstages := hs.stages
    rw [List.map_cons, hstage] at hstages
    refine ⟨rfl, ?_⟩
    cases hstages with
    | @pooling plan pool next jobs' skipped _ _ _ _ h =>
      obtain ⟨rfl, rfl, -, -⟩ := h.fits
      have hfired : (s.state.done ≠ []) = ServerLog.Fired s.log := propext hs.done
      rw [hfired] at h
      have hjobs := h.jobsOf
      have htotals : TotalsOf tick (finishedTick cfg tick (rotateCheckerTargets targets tick.id)
          (resultsOf (rotateCheckerTargets targets tick.id).length jobs) completedAt err)
          (runsOf (rotateCheckerTargets targets tick.id).length jobs) := by
        rw [resultsOf_eq]
        exact totalsOf_completedTick hjobs.statuses
      refine .completed (hstart _ hknows) (htargets _ hknows) rfl hjobs ?_ (hlook _ hknows) rfl
        (hcomplete _ hknows) htotals
      rw [hjobs.recorded]
      exact Multiset.coe_eq_coe.mpr (flatMap_runs_perm hjobs.nodup hjobs.index_lt)

/-! ## Runs of a tick -/

/-- A server on which one tick has begun; `k` is what happens with its answer. -/
def tickMachine (cfg : ServerConfig) (store : σ) (codec : FlagCodec)
    (k : Except StoreError GameTickStatus → Thread ServerOp ServerOp.Res) :
    Machine (LoggedServer σ) ServerOp ServerOp.Res :=
  ⟨⟨{ store, codec, contexts := [[0]] }, []⟩, [advanceTick cfg 0 k]⟩

section Runs
variable {store : σ} {codec : FlagCodec}
  {k : Except StoreError GameTickStatus → Thread ServerOp ServerOp.Res}

theorem tickMachine_staged [Nonempty ι] :
    (tickRoles cfg sem).Staged (fun t role => ∃ r, t = k r ∧ TickEnd cfg role r)
      (tickMachine cfg store codec k) [{ stage := .opening [[0]] [] }] := by
  refine ⟨⟨by simp [Knowledge.none], ?_, ?_⟩, .cons ?_ .nil⟩
  · simp [DoneLogged, ServerLog.Fired, tickMachine]
  · exact .opening rfl rfl (by simp) rfl rfl
  · exact advanceTick_plays rfl _ k fun r role hend => Roles.follows_of_exit ⟨r, rfl, hend⟩

/-- A run in which no store call fails comes by the answer of the tick, or can go on. -/
theorem tick_returns_or_moves [Nonempty ι] {ls : List (Label ContextEnd (ServerInput ι))}
    (hls : (tickMachine cfg store codec k).RunAllowed (serverSem sem).logged ContextEnd.handler
      (Succeeds sem) ls) :
    (∃ ls₁ ls₂ r, ls = ls₁ ++ ls₂ ∧
      ((tickMachine cfg store codec k).run (serverSem sem).logged ContextEnd.handler
        ls₁).threads[0]? =
        some (k r) ∧
      TickResult cfg
        ((tickMachine cfg store codec k).run (serverSem sem).logged ContextEnd.handler
          ls₁).shared.log r) ∨
    ∃ m', ((tickMachine cfg store codec k).run (serverSem sem).logged ContextEnd.handler ls).Moves
      (serverSem sem).logged m' := by
  refine (tickMachine_staged.exits_or_moves contextEnd_admits (fun s roles hs =>
    hs.not_at_rest) hls).imp ?_ id
  rintro ⟨ls₁, ls₂, roles, rfl, hstaged, i, t, role, ht, hi, r, rfl, hend⟩
  obtain ⟨rfl, hresult⟩ := hstaged.inv.result hi hend
  exact ⟨ls₁, ls₂, r, rfl, ht, hresult⟩

end Runs

/-- Whatever the checkers answer, a target is recorded as `TargetOutcome` says; and a tick among
ends of contexts comes to its answer, with totals that are the sums over all targets. -/
theorem checker_runs_accounted [Nonempty ι] (cfg : ServerConfig) (sem : StoreSem σ ι) :
    (∀ (ctx : Nat) (tickID : Int) (target : CheckerTarget),
      (runCheckerTarget cfg ctx tickID target).Returns (fun e : ServerEntry σ =>
        e.answers = true) fun r es =>
        ∃ flagValue batch before after,
          (⟨before, .executeBatch ctx tickID target flagValue, batch, after⟩ : ServerEntry σ) ∈ es ∧
            TargetOutcome cfg.checkerPhases batch (es.map Entry.op) r) ∧
    (∀ (store : σ) (codec : FlagCodec) (k : Except StoreError GameTickStatus →
      Thread ServerOp ServerOp.Res)
      (ls : List (Label ContextEnd (ServerInput ι))),
      (tickMachine cfg store codec k).RunAllowed (serverSem sem).logged ContextEnd.handler
        (Succeeds sem) ls →
      (∃ ls₁ ls₂ r, ls = ls₁ ++ ls₂ ∧
        ((tickMachine cfg store codec k).run (serverSem sem).logged ContextEnd.handler
          ls₁).threads[0]? =
          some (k r) ∧
        TickResult cfg
          ((tickMachine cfg store codec k).run (serverSem sem).logged ContextEnd.handler
            ls₁).shared.log r) ∨
      ∃ m', ((tickMachine cfg store codec k).run (serverSem sem).logged ContextEnd.handler ls).Moves
        (serverSem sem).logged m') ∧
    WellFounded fun m' m : Machine (LoggedServer σ) ServerOp ServerOp.Res =>
      m.Moves (serverSem sem).logged m' :=
  ⟨fun _ _ _ => runCheckerTarget_outcome, fun _ _ _ _ hls => tick_returns_or_moves hls,
    Machine.moves_wellFounded _⟩

/-- A running match of one team with two services. -/
def runningMatch : MemoryGameStore ℚ :=
  { MemoryGameStore.new [target 1 "banking", target 2 "mail"]
    (Go.Map.fill (·.1) (·.2) [((1 : Int), "Alpha")] ∅)
      (Go.Map.fill (·.1) (·.2) [((1 : Int), { name := "banking" }), (2, { name := "mail" })] ∅) with
    matchStatus := { state := .running, acceptingSubmissions := true } }
where
  target (challengeID : Int) (challengeName : String) : CheckerTarget :=
    { teamID := 1, teamName := "Alpha", challengeID, challengeName, checkerImage := "checker"
      target := "10.80.1.1:8080" }

/-- Settings with two workers. -/
def twoWorkers : ServerConfig := { plainConfig with checkerParallelism := 2 }

/-- The tick and its two workers, one after the other. Every service stores its flag and loses
it. -/
def roundRobin : List (Label ContextEnd (ServerInput Go.Runtime)) :=
  (List.range 100).map fun step => .step (step % 3) { store := .inOrder, batch := lost }
where
  lost : Except String (List CheckerPhaseResult) :=
    .ok [{ phase := "put", status := "success" }, { phase := "get", status := "failed" }]

/-- All threads end, and the tick has its answer. -/
theorem checker_runs_accounted_roundRobin :
    let sem := memorySem squareMath plainConfig.crypto
    let m :=
      (tickMachine twoWorkers runningMatch plainCodec fun _ => .done).run (serverSem sem).logged
      ContextEnd.handler
    ∃ ls₁ ls₂ r, roundRobin = ls₁ ++ ls₂ ∧ (m ls₁).threads[0]? = some .done ∧
      TickResult twoWorkers (m ls₁).shared.log r :=
  have : Nonempty Go.Runtime := ⟨.inOrder⟩
  ((checker_runs_accounted twoWorkers (memorySem squareMath plainConfig.crypto)).2.1
    runningMatch plainCodec
    (fun _ => .done) roundRobin (by decide +kernel)).resolve_right
      (Machine.not_moves_of_isDone (by decide +kernel))

end ADPlatform.GameCore
