import ADPlatform.GameCore.TickRuns

/-! # The thread of `advanceTick`

The tick's own thread opens a pool, hands out the targets, waits for the workers and completes the
tick. `advanceTick_plays` says what it knows about the log when it returns. -/

namespace ADPlatform.GameCore
open Concurrent Text ServerProc Server WorkerPool

variable {σ : Type} {ι : Type v}

/-- The thread knows that `P` holds of the log, now and later. -/
def TickRole.Knows (role : TickRole) (P : ServerLog → Prop) : Prop :=
  ∀ log, role.knows.holds log → P log

section Main
variable {cfg : ServerConfig} {sem : StoreSem σ ι} {role : TickRole} {plan : TickPlan}
  {contexts : List (List Nat)} {pools : List Pool} {next ctx : Nat} {jobs : List Job}

/-- An operation of the tick's own thread that starts and records nothing. -/
theorem mainOp_plays {op : ServerOp} {Q : op.Res → TickRole → Prop} (hmain : role.stage.IsMain)
    (hcancels : ∀ r, ServerLog.cancels ⟨op, r⟩ = false)
    (hstarted : ∀ r, ServerLog.started ⟨op, r⟩ = 0)
    (hrecorded : ∀ r, ServerLog.recorded ⟨op, r⟩ = 0)
    (hstep : ∀ {s : LoggedServer σ} {rest : List TickStage} {input : ServerInput ι}
      {t : ServerShared σ}
      {r : op.Res}, role.knows.holds s.log → DoneLogged s → Stages cfg s (role.stage :: rest) →
      serverSem sem input op s.state = some (t, r) →
      t.done = s.state.done ∧ ∃ new, Stages cfg ⟨t, s.log⟩ (new :: rest) ∧
        Q r ⟨new, role.knows.learn op r⟩)
    (hwait : ∀ {s : LoggedServer σ} {rest : List TickStage}, Stages cfg s (role.stage :: rest) →
      (∀ input, serverSem sem input op s.state = none) → role.stage.Waits s) :
    (tickRoles cfg sem).Plays (Proc.perform op) role Q := by
  refine .perform (fun s roles i hi hs input t r hal hsem => ?_) fun s roles i hi hs hnone => ?_
  · obtain ⟨rfl, rest, rfl⟩ := hs.main_first hi hmain
    obtain ⟨hsem, hlog⟩ := logged_eq_some hsem
    obtain ⟨hdone, new, hstages, hQ⟩ := hstep (hs.knows role (.head _)) hs.done hs.stages hsem
    refine ⟨_, ⟨knows_set hs.knows hlog ?_, hs.done.same hdone hlog (hcancels r), ?_⟩, hQ⟩
    · rw [hlog]
      exact learn_holds hi hs
    · rw [List.set_cons_zero, List.map_cons]
      have hquiet : Quiet ⟨t.state, s.log⟩ t ⟨op, r⟩ := ⟨rfl, rfl, hlog, hstarted r, hrecorded r⟩
      exact hstages.quiet hquiet id
  · obtain ⟨rfl, rest, rfl⟩ := hs.main_first hi hmain
    exact hwait hs.stages fun input => logged_eq_none.mp (hnone input)

/-- A context that is derived from another. -/
theorem contextNew_plays [Nonempty ι] (hstage : role.stage = .opening contexts pools) :
    (tickRoles cfg sem).Plays (contextNew (some ctx)) role fun r role' => r = contexts.length ∧
      role'.stage = .opening (contexts ++ [contexts.length :: contexts.getD ctx []]) pools ∧
      role'.Knows role.knows.holds := by
  refine mainOp_plays (by rw [hstage]; trivial) (fun _ => rfl) (fun _ => rfl) (fun _ => rfl) ?_ ?_
  · intro s rest input t r _ _ hstages hsem
    rw [hstage] at hstages
    cases hsem
    cases hstages with
    | opening hcontexts hpools hrest hstarted hrecorded =>
      subst hcontexts
      exact ⟨rfl, _, .opening rfl hpools hrest hstarted hrecorded, rfl, rfl, fun log h => h.1⟩
    | pooling _ _ h => exact False.elim h.fits
  · intro s rest _ hnone
    obtain ⟨input⟩ := ‹Nonempty ι›
    have hblocked := hnone { store := input }
    cases hblocked

theorem poolNew_plays [Nonempty ι] {workers targets : Nat}
    (hstage : role.stage = .opening contexts pools) :
    (tickRoles cfg sem).Plays (poolNew workers targets) role fun r role' => r = pools.length ∧
      role'.stage = .opening contexts
        (pools ++ [{ pending := workers, results := .replicate targets {} }]) ∧
      role'.Knows role.knows.holds := by
  refine mainOp_plays (by rw [hstage]; trivial) (fun _ => rfl) (fun _ => rfl) (fun _ => rfl) ?_ ?_
  · intro s rest input t r _ _ hstages hsem
    rw [hstage] at hstages
    cases hsem
    cases hstages with
    | opening hcontexts hpools hrest hstarted hrecorded =>
      subst hpools
      exact ⟨rfl, _, .opening hcontexts rfl hrest hstarted hrecorded, rfl, rfl, fun log h => h.1⟩
    | pooling _ _ h => exact False.elim h.fits
  · intro s rest _ hnone
    obtain ⟨input⟩ := ‹Nonempty ι›
    have hblocked := hnone { store := input }
    cases hblocked

variable (plan) in
/-- The workers start. -/
theorem forkWorkers_plays [Nonempty ι] {workers : Nat} (hworkers : 0 < workers)
    (hstage : role.stage = .opening (tickContexts cfg)
      [{ pending := workers, results := .replicate plan.targets.length {} }]) :
    (tickRoles cfg sem).Plays (Proc.forkAll workers fun _ =>
        worker cfg 0 ctx plan.tickID plan.targets (plan.targets.length + 1)) role
      fun _ role' => role' = { role with stage := .handing plan 0 } := by
  have hfork : ∀ (s : LoggedServer σ) (roles : List TickRole) (i : Nat), roles[i]? = some role →
      TickInv cfg s roles → TickInv cfg s (roles.set i { role with stage := .handing plan 0 } ++
        List.ofFn fun _ : Fin workers => { stage := .idle plan (plan.targets.length + 1) }) := by
    intro s roles i hi hs
    obtain ⟨rfl, rest, rfl⟩ := hs.main_first hi (by rw [hstage]; trivial)
    have hstages := hs.stages
    rw [List.map_cons, hstage] at hstages
    rw [List.set_cons_zero, List.cons_append, List.ofFn_const]
    refine ⟨?_, hs.done, ?_⟩
    · intro role' hrole'
      rcases List.mem_cons.mp hrole' with rfl | hrole'
      · exact hs.knows role (.head _)
      rcases List.mem_append.mp hrole' with hrole' | hrole'
      · exact hs.knows role' (.tail _ hrole')
      · rw [List.eq_of_mem_replicate hrole']
        trivial
    · rw [List.map_cons, List.map_append, List.map_replicate]
      cases hstages with
      | opening hcontexts hpools hrest hstarted hrecorded =>
        have hopened : Pooling cfg plan
            { pending := workers, results := .replicate plan.targets.length {} } 0 [] 0
            (s.state.done ≠ []) (s.log.map ServerLog.started).sum (s.log.map ServerLog.recorded).sum
            (.handing plan 0) (rest.map TickRole.stage ++
              List.replicate workers (.idle plan (plan.targets.length + 1))) := by
          rw [hstarted, hrecorded]
          exact .opened hworkers hrest
        exact .pooling hcontexts hpools hopened
      | pooling _ _ h => exact False.elim h.fits
  refine .forkAll hfork (fun j => (worker_plays rfl).weaken fun _ role' h => ?_) rfl
  show role'.stage.Ended
  rw [h]
  trivial

/-- The tick finds that its context has ended, and knows it from then on. -/
theorem mainContextErr_plays [Nonempty ι] :
    (tickRoles cfg sem).Plays (contextErr ctx) role fun r role' => role'.stage = role.stage ∧
      role'.Knows role.knows.holds ∧ (r ≠ none → role'.Knows ServerLog.Fired) := by
  have hop : LeavesPool (.contextErr ctx) := trivial
  refine quiet_plays hop ?_
  intro s roles i input t r hi hs _ hsem
  cases hsem
  have hlater : role.knows.holds (s.log ++ [⟨.contextErr ctx, s.state.contextErr ctx⟩]) :=
    role.knows.stable (hs.knows role (List.mem_of_getElem? hi))
  cases herr : s.state.contextErr ctx with
  | none => exact ⟨role.knows, herr ▸ hlater, rfl, fun _ h => h, fun hne => absurd rfl hne⟩
  | some err =>
    obtain ⟨e, he, hcancels⟩ := hs.done.mp (done_ne_nil herr)
    refine ⟨⟨fun log => role.knows.holds log ∧ ServerLog.Fired log, ?_⟩,
      ⟨herr ▸ hlater, e, List.mem_append_left _ he, hcancels⟩, rfl, fun _ h =>
        h.1, fun _ _ h => h.2⟩
    rintro log e ⟨hknows, e', he', hcancels'⟩
    exact ⟨role.knows.stable hknows, e', List.mem_append_left _ he', hcancels'⟩

/-- The next index goes into the channel. -/
theorem poolSend_plays [Nonempty ι] (hstage : role.stage = .handing plan next)
    (hnext : next < plan.targets.length) :
    (tickRoles cfg sem).Plays (poolSend 0 next) role fun _ role' =>
      role'.stage = .handing plan (next + 1) ∧ role'.Knows role.knows.holds := by
  refine mainOp_plays (by rw [hstage]; trivial) (fun _ => rfl) (fun _ => rfl) (fun _ => rfl) ?_ ?_
  · intro s rest input t r _ _ hstages hsem
    rw [hstage] at hstages
    cases hstages with
    | @pooling plan' pool _ _ _ _ _ hcontexts hpools h =>
      obtain rfl : plan = plan' := h.fits.1
      simp only [serverSem, hpools, List.getElem?_cons_zero, Option.bind_eq_bind, Option.bind_some,
        Pool.send] at hsem
      cases hslot : pool.slot with
      | some index =>
        rw [hslot] at hsem
        cases hsem
      | none =>
        rw [hslot] at hsem
        cases hsem
        exact ⟨rfl, _, .pooling hcontexts rfl (h.send hslot hnext), rfl, fun log h => h.1⟩
  · intro s rest hstages hnone
    rw [hstage] at hstages ⊢
    intro pool hpools hslot
    obtain ⟨input⟩ := ‹Nonempty ι›
    have hblocked := hnone { store := input }
    simp only [serverSem, hpools, List.getElem?_cons_zero, Option.bind_eq_bind, Option.bind_some,
      Pool.send, hslot] at hblocked
    cases hblocked

/-- The channel is closed when every index has been handed out, or a context has ended. -/
theorem poolClose_plays [Nonempty ι] (hstage : role.stage = .handing plan next)
    (hstop : next < plan.targets.length → role.Knows ServerLog.Fired) :
    (tickRoles cfg sem).Plays (poolClose 0) role fun _ role' =>
      role'.stage = .waiting plan next ∧ role'.Knows role.knows.holds := by
  refine mainOp_plays (by rw [hstage]; trivial) (fun _ => rfl) (fun _ => rfl) (fun _ => rfl) ?_ ?_
  · intro s rest input t r hknows hdone hstages hsem
    rw [hstage] at hstages
    cases hstages with
    | @pooling plan' pool _ _ _ _ _ hcontexts hpools h =>
      obtain rfl : plan = plan' := h.fits.1
      simp only [serverSem, hpools, List.getElem?_cons_zero, Option.bind_eq_bind, Option.bind_some]
        at hsem
      cases hsem
      refine ⟨rfl, _, .pooling hcontexts rfl (h.close fun hnext => ?_), rfl, fun log h => h.1⟩
      exact hdone.mpr (hstop hnext _ hknows)
  · intro s rest hstages hnone
    rw [hstage] at hstages
    cases hstages with
    | pooling _ hpools _ =>
      obtain ⟨input⟩ := ‹Nonempty ι›
      have hblocked := hnone { store := input }
      simp only [serverSem, hpools, List.getElem?_cons_zero, Option.bind_eq_bind, Option.bind_some]
        at hblocked
      cases hblocked

/-- The loop that hands out the indices, by induction on how many are left. -/
theorem handOut_plays [Nonempty ι] {count : Nat} (hcount : next + count = plan.targets.length)
    (hstage : role.stage = .handing plan next) :
    (tickRoles cfg sem).Plays (handOut 0 ctx (List.range' next count)) role fun _ role' =>
      ∃ next', role'.stage = .waiting plan next' ∧ role'.Knows role.knows.holds := by
  induction count generalizing next role with
  | zero =>
    refine (poolClose_plays hstage fun hnext => ?_).weaken fun _ role' h => ⟨next, h⟩
    omega
  | succ count ih =>
    refine .bind mainContextErr_plays ?_
    rintro r role₁ ⟨hstage₁, hknows₁, hfired⟩
    rw [hstage] at hstage₁
    cases r with
    | some err =>
      refine (poolClose_plays hstage₁ fun _ => hfired (by simp)).weaken ?_
      rintro _ role' ⟨hstage', hknows'⟩
      exact ⟨next, hstage', fun log h => hknows₁ log (hknows' log h)⟩
    | none =>
      refine .bind (poolSend_plays hstage₁ (by omega)) ?_
      rintro _ role₂ ⟨hstage₂, hknows₂⟩
      refine (ih (by omega) hstage₂).weaken ?_
      rintro _ role' ⟨next', hstage', hknows'⟩
      exact ⟨next', hstage', fun log h => hknows₁ log (hknows₂ log (hknows' log h))⟩

/-- The workers have left, and their results are those of the jobs they did. -/
theorem poolWait_plays [Nonempty ι] (hstage : role.stage = .waiting plan next) :
    (tickRoles cfg sem).Plays (poolWait 0) role fun r role' => ∃ jobs,
      r = (resultsOf plan.targets.length jobs, none) ∧ role'.stage = .closing plan jobs ∧
        role'.Knows role.knows.holds := by
  refine mainOp_plays (by rw [hstage]; trivial) (fun _ => rfl) (fun _ => rfl) (fun _ => rfl) ?_ ?_
  · intro s rest input t r _ _ hstages hsem
    rw [hstage] at hstages
    cases hstages with
    | @pooling plan' pool _ jobs _ _ _ hcontexts hpools h =>
      obtain rfl : plan = plan' := h.fits.1
      simp only [serverSem, hpools, List.getElem?_cons_zero, Option.bind_eq_bind, Option.bind_some]
        at hsem
      split at hsem
      · rename_i hpending
        cases hsem
        refine ⟨rfl, _, .pooling hcontexts hpools (h.wait hpending), jobs, ?_, rfl,
          fun log h => h.1⟩
        rw [h.results, h.firstErr]
      · cases hsem
  · intro s rest hstages hnone
    rw [hstage] at hstages ⊢
    intro pool hpools hpending
    obtain ⟨input⟩ := ‹Nonempty ι›
    have hblocked := hnone { store := input }
    simp only [serverSem, hpools, List.getElem?_cons_zero, Option.bind_eq_bind, Option.bind_some,
      hpending] at hblocked
    cases hblocked

theorem parallelism_pos (targets : List CheckerTarget) : 0 < parallelism cfg targets := by
  have hpos : 0 < if cfg.checkerParallelism ≤ 0 then 1 else cfg.checkerParallelism.toNat := by
    split <;> omega
  unfold parallelism
  generalize (if cfg.checkerParallelism ≤ 0 then 1 else cfg.checkerParallelism.toNat) =
    workers at hpos
  dsimp only
  split
  · rename_i h
    simp only [Bool.and_eq_true, decide_eq_true_eq] at h
    exact h.2
  · exact hpos

/-- The checker runs of all targets. -/
theorem runCheckerTargets_plays [Nonempty ι] {tickID : Int} {targets : List CheckerTarget}
    (hcontexts : contexts ++ [contexts.length :: contexts.getD ctx []] = tickContexts cfg)
    (hstage : role.stage = .opening contexts []) :
    (tickRoles cfg sem).Plays (runCheckerTargets cfg ctx tickID targets) role fun r role' =>
      ∃ jobs, r = .ok (resultsOf targets.length jobs) ∧
        role'.stage = .closing ⟨tickID, targets⟩ jobs ∧ role'.Knows role.knows.holds := by
  refine .bind (contextNew_plays hstage) ?_
  rintro _ role₁ ⟨rfl, hstage₁, hknows₁⟩
  rw [hcontexts] at hstage₁
  refine .bind (poolNew_plays hstage₁) ?_
  rintro _ role₂ ⟨rfl, hstage₂, hknows₂⟩
  refine .bind (forkWorkers_plays ⟨tickID, targets⟩ (parallelism_pos targets) hstage₂) ?_
  rintro _ _ rfl
  rw [List.range_eq_range']
  refine .bind (handOut_plays (Nat.zero_add _) rfl) ?_
  rintro _ role₃ ⟨next', hstage₃, hknows₃⟩
  refine .bind (poolWait_plays hstage₃) ?_
  rintro _ role₄ ⟨jobs, rfl, hstage₄, hknows₄⟩
  exact .pure ⟨jobs, rfl, hstage₄, fun log h =>
    hknows₁ log (hknows₂ log (hknows₃ log (hknows₄ log h)))⟩

/-! ## The way out of the tick -/

/-- A store call that the log has, with its answer. -/
def ServerLog.Stored (log : ServerLog) (call : StoreOp) (answer : call.Answer) : Prop :=
  ⟨.store 0 call, (.ok answer : Except StoreError call.Answer)⟩ ∈ log

theorem mainStore_plays [Nonempty ι] {call : StoreOp} (hcall : LeavesPool (.store 0 call)) :
    (tickRoles cfg sem).Plays (store 0 call) role fun r role' => ∃ answer, r = .ok answer ∧
      role'.stage = role.stage ∧
      role'.Knows fun log => role.knows.holds log ∧ ServerLog.Stored log call answer :=
  store_plays hcall fun answer => ⟨answer, rfl, rfl, fun _ h => h⟩

/-- The match status that the log has is one of a match that is not running. -/
def ServerLog.NotRunning (cfg : ServerConfig) (log : ServerLog) (e : StoreError) : Prop :=
  ∃ status now, log.Stored .matchStatus status ∧
    notRunning (applyMatchWindow cfg.window now status).state = some e

/-- The tick that is completed behind its workers, when the context of the checker runs has the
error `err`. -/
def finishedTick (cfg : ServerConfig) (tick : GameTickStatus) (targets : List CheckerTarget)
    (results : List CheckerTargetTickResult) (completedAt : Time) (err : Option CtxError) :
      GameTickStatus :=
  completedTick tick results completedAt targets.length cfg.checkerPhases.length
    (cfg.tickTimeout && err = some .deadlineExceeded)

/-- How a tick can end when its store calls succeed. -/
inductive TickEnd (cfg : ServerConfig) (role : TickRole) : Except StoreError GameTickStatus → Prop
  /-- the match is not running -/
  | refused {e : StoreError} {contexts : List (List Nat)} {pools : List Pool}
      (hstage : role.stage = .opening contexts pools)
      (hstatus : role.Knows fun log => log.NotRunning cfg e) : TickEnd cfg role (.error e)
  | completed {startedAt completedAt : Time} {tick answer : GameTickStatus}
      {targets : List CheckerTarget} {jobs : List Job} {err : Option CtxError}
      (hstage : role.stage = .closing ⟨tick.id, rotateCheckerTargets targets tick.id⟩ jobs)
      (hstart : role.Knows fun log => log.Stored (.startNextTick startedAt) tick)
      (htargets : role.Knows fun log => log.Stored .listCheckerTargets targets)
      (hlook : role.Knows fun log => ⟨.contextErr (runContext cfg), err⟩ ∈ log)
      (hcomplete : role.Knows fun log => log.Stored (.completeTick (finishedTick cfg tick
        (rotateCheckerTargets targets tick.id)
        (resultsOf (rotateCheckerTargets targets tick.id).length jobs) completedAt err)) answer) :
      TickEnd cfg role (.ok answer)

/-- The tick looks at a context. -/
theorem look_plays [Nonempty ι] :
    (tickRoles cfg sem).Plays (contextErr ctx) role fun err role' => role'.stage = role.stage ∧
      role'.Knows fun log => role.knows.holds log ∧ ⟨.contextErr ctx, err⟩ ∈ log := by
  have hop : LeavesPool (.contextErr ctx) := trivial
  exact quiet_plays hop fun hi hs _ _ => ⟨_, learn_holds hi hs, rfl, fun _ h => h⟩

theorem finishTick_plays [Nonempty ι] {tick : GameTickStatus} {targets : List CheckerTarget}
    {results : List CheckerTargetTickResult} :
    (tickRoles cfg sem).Plays (finishTick cfg 0 ctx tick targets results) role fun r role' =>
      ∃ completedAt answer err, r = .ok answer ∧ role'.stage = role.stage ∧
        role'.Knows fun log => role.knows.holds log ∧ ⟨.contextErr ctx, err⟩ ∈ log ∧
          log.Stored (.completeTick (finishedTick cfg tick targets results completedAt err))
            answer := by
  refine .bind (stay_plays trivial) ?_
  rintro completedAt _ rfl
  refine .bind look_plays ?_
  rintro err role₁ ⟨hstage₁, hknows₁⟩
  refine .bind (mainStore_plays trivial) ?_
  rintro _ role₂ ⟨answer, rfl, hstage₂, hknows₂⟩
  refine .bind (mainStore_plays trivial) ?_
  rintro _ role₃ ⟨⟨⟩, rfl, hstage₃, hknows₃⟩
  refine .bind (stay_plays trivial) ?_
  rintro _ _ rfl
  refine .pure ⟨completedAt, answer, err, rfl, ?_, fun log h => ?_⟩
  · rw [hstage₃, hstage₂, hstage₁]
  · obtain ⟨hbefore, hstored⟩ := hknows₂ log (hknows₃ log h).1
    obtain ⟨hrole, hlook⟩ := hknows₁ log hbefore
    exact ⟨hrole, hlook, hstored⟩

/-- The context of the checker runs is the first or the second of the tick. -/
theorem tickContext_plays [Nonempty ι] (hstage : role.stage = .opening [[0]] []) :
    (tickRoles cfg sem).Plays (tickContext cfg 0) role fun runCtx role' =>
      runCtx = runContext cfg ∧ ∃ contexts,
      contexts ++ [contexts.length :: contexts.getD runCtx []] = tickContexts cfg ∧
        role'.stage = .opening contexts [] ∧ role'.Knows role.knows.holds := by
  unfold tickContext tickContexts runContext
  refine .ite (fun htimeout => ?_) fun htimeout => .pure ⟨?_, [[0]], ?_, hstage, fun _ h => h⟩
  · refine (contextNew_plays hstage).weaken ?_
    rintro runCtx role' ⟨rfl, hstage', hknows⟩
    exact ⟨by rw [if_pos htimeout]; rfl, _, by rw [if_pos htimeout]; rfl, hstage', hknows⟩
  · rw [if_neg htimeout]
  · rw [if_neg htimeout]
    rfl

/-- `advanceTick` behind `StartNextTick`. -/
theorem runTick_plays [Nonempty ι] {tick : GameTickStatus}
    (hstage : role.stage = .opening [[0]] []) :
    (tickRoles cfg sem).Plays (runTick cfg 0 tick) role fun r role' =>
      ∃ targets jobs completedAt answer err, r = .ok answer ∧
        role'.stage = .closing ⟨tick.id, rotateCheckerTargets targets tick.id⟩ jobs ∧
        role'.Knows fun log => role.knows.holds log ∧ log.Stored .listCheckerTargets targets ∧
          ⟨.contextErr (runContext cfg), err⟩ ∈ log ∧
          log.Stored (.completeTick (finishedTick cfg tick (rotateCheckerTargets targets tick.id)
            (resultsOf (rotateCheckerTargets targets tick.id).length jobs) completedAt err))
              answer := by
  refine .bind (mainStore_plays trivial) ?_
  rintro _ role₁ ⟨targets, rfl, hstage₁, hknows₁⟩
  rw [hstage] at hstage₁
  refine .bind (tickContext_plays hstage₁) ?_
  rintro _ role₂ ⟨rfl, contexts, hcontexts, hstage₂, hknows₂⟩
  refine .bind (runCheckerTargets_plays hcontexts hstage₂) ?_
  rintro _ role₃ ⟨jobs, rfl, hstage₃, hknows₃⟩
  refine (finishTick_plays).weaken ?_
  rintro _ role₄ ⟨completedAt, answer, err, rfl, hstage₄, hknows₄⟩
  refine ⟨targets, jobs, completedAt, answer, err, rfl, hstage₄.trans hstage₃, fun log h => ?_⟩
  obtain ⟨hbefore, hlook, hcompleted⟩ := hknows₄ log h
  obtain ⟨hrole, htargets⟩ := hknows₁ log (hknows₂ log (hknows₃ log hbefore))
  exact ⟨hrole, htargets, hlook, hcompleted⟩

/-- A whole tick: it is refused, or it runs all of its targets and is completed. -/
theorem advanceTick_plays [Nonempty ι] (hstage : role.stage = .opening [[0]] []) :
    (tickRoles cfg sem).Plays (advanceTick cfg 0) role fun r role' => TickEnd cfg role' r := by
  have hstatus : (tickRoles cfg sem).Plays (Server.matchStatus cfg 0) role fun r role' =>
      ∃ status now, r = .ok (applyMatchWindow cfg.window now status) ∧ role'.stage = role.stage ∧
        role'.Knows fun log => log.Stored .matchStatus status := by
    refine .bind (mainStore_plays trivial) ?_
    rintro _ role₁ ⟨status, rfl, hstage₁, hknows₁⟩
    refine .bind (stay_plays trivial) ?_
    rintro now _ rfl
    exact .pure ⟨status, now, rfl, hstage₁, fun log h => (hknows₁ log h).2⟩
  refine .bind hstatus ?_
  rintro _ role₁ ⟨status, now, rfl, hstage₁, hknows₁⟩
  rw [hstage] at hstage₁
  dsimp only
  cases hrunning : notRunning (applyMatchWindow cfg.window now status).state with
  | some e => exact .pure (.refused hstage₁ fun log h => ⟨status, now, hknows₁ log h, hrunning⟩)
  | none =>
    refine .bind (stay_plays trivial) ?_
    rintro startedAt _ rfl
    refine .bind (mainStore_plays trivial) ?_
    rintro _ role₂ ⟨tick, rfl, hstage₂, hknows₂⟩
    rw [hstage₁] at hstage₂
    refine .bind (runTick_plays hstage₂) ?_
    rintro _ role₃ ⟨targets, jobs, completedAt, answer, err, rfl, hstage₃, hknows₃⟩
    refine .bind (stay_plays trivial) ?_
    rintro _ _ rfl
    exact .pure (.completed hstage₃ (fun log h => (hknows₂ log (hknows₃ log h).1).2)
      (fun log h => (hknows₃ log h).2.1) (fun log h => (hknows₃ log h).2.2.1)
      fun log h => (hknows₃ log h).2.2.2)

end Main

end ADPlatform.GameCore
