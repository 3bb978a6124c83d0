import ADPlatform.Lib.WorkerPool
import ADPlatform.GameCore.CheckerTargets

/-! # The workers of a tick

The roles of the threads behind one `advanceTick`: the thread that hands out the targets and waits,
the workers, and those that end a context. `TickInv` is the invariant that ties them to the pool, to
the contexts and to what the log says was started and recorded. -/

namespace ADPlatform.GameCore
open Concurrent Text ServerProc Server WorkerPool

/-- The operations so far with what they answered. -/
abbrev ServerLog := List ((op : ServerOp) × op.Res)

/-- The shared state with the operations so far. -/
abbrev LoggedServer (σ : Type) := Logged (ServerShared σ) ServerOp ServerOp.Res

/-- What a worker does for one target: the answer of the batch, and the runs it has recorded. -/
structure Job where
  index : Nat
  target : CheckerTarget
  batch : Except String (List CheckerPhaseResult)
  runs : List CheckerRunRecord

/-- The counts of recorded runs. -/
def countRuns (runs : List CheckerRunRecord) : CheckerTargetTickResult :=
  runs.foldl (fun counts run => counts.count run.status) {}

/-- The results of a tick with these jobs done. A target without a job keeps the zero result. -/
def resultsOf (n : Nat) (jobs : List Job) : List CheckerTargetTickResult :=
  (List.range n).map fun index =>
    ((jobs.find? (·.index = index)).map fun job => countRuns job.runs).getD {}

theorem resultsOf_nil (n : Nat) : resultsOf n [] = List.replicate n {} := by
  induction n with
  | zero => rfl
  | succ n ih =>
    rw [List.replicate_succ', ← ih, resultsOf, List.range_succ, List.map_append]
    rfl

/-- A worker hands in its result at the index of its job. -/
theorem resultsOf_cons (n : Nat) (job : Job) (jobs : List Job) :
    (resultsOf n jobs).set job.index (countRuns job.runs) = resultsOf n (job :: jobs) := by
  refine List.ext_getElem? fun index => ?_
  simp only [resultsOf, List.getElem?_set, List.getElem?_map, List.length_map, List.length_range,
    List.find?_cons]
  rcases Nat.lt_or_ge index n with hlt | hge
  · rw [List.getElem?_range hlt, Option.map_some, Option.map_some]
    by_cases hindex : job.index = index
    · subst hindex
      rw [if_pos rfl, if_pos hlt, decide_eq_true rfl]
      rfl
    · rw [if_neg hindex, decide_eq_false hindex]
  · rw [List.getElem?_eq_none (by simpa using hge), Option.map_none, Option.map_none]
    split
    · rename_i hindex
      rw [if_neg (by omega)]
    · rfl

/-! ## What the log tells -/

namespace ServerLog

/-- A batch that was started, with its answer. -/
def started : ((op : ServerOp) × op.Res) →
    Multiset (CheckerTarget × Except String (List CheckerPhaseResult))
  | ⟨.executeBatch _ _ target _, batch⟩ => {(target, batch)}
  | _ => 0

/-- A run that was recorded. -/
def recorded : ((op : ServerOp) × op.Res) → Multiset CheckerRunRecord
  | ⟨.store _ (.recordCheckerRun run), answer⟩ =>
    match (answer : Except StoreError GameCheckerRun) with
    | .ok _ => {run}
    | .error _ => 0
  | _ => 0

/-- A context was ended. -/
def cancels : ((op : ServerOp) × op.Res) → Bool
  | ⟨.contextCancel .., _⟩ => true
  | _ => false

/-- Some context was ended: that of the checker runs at their deadline, or the tick's own. -/
def Fired (log : ServerLog) : Prop := ∃ e ∈ log, cancels e = true

end ServerLog

open ServerLog

/-! ## Roles -/

/-- A tick with its targets. -/
structure TickPlan where
  tickID : Int
  targets : List CheckerTarget

/-- Where a thread stands. -/
inductive TickStage where
  /-- `advanceTick` before the workers, with the contexts and pools so far -/
  | opening (contexts : List (List Nat)) (pools : List Pool)
  | handing (plan : TickPlan) (next : Nat)
  | waiting (plan : TickPlan) (next : Nat)
  /-- `advanceTick` behind the workers -/
  | closing (plan : TickPlan) (jobs : List Job)
  | idle (plan : TickPlan) (fuel : Nat)
  | holding (plan : TickPlan) (fuel index : Nat)
  | running (plan : TickPlan) (fuel : Nat) (job : Job)
  | leaving (plan : TickPlan)
  | left (plan : TickPlan)
  /-- a thread that ends a context -/
  | cancelling

/-- A thread: where it stands, and what it remembers. -/
structure TickRole where
  stage : TickStage
  knows : Knowledge ServerOp ServerOp.Res := .none

namespace TickStage

/-- Where the thread stands in the pool. -/
def place : TickStage → Place
  | idle _ fuel => .idle fuel
  | holding _ fuel index => .holding fuel index
  | running _ fuel job => .holding fuel job.index
  | leaving _ => .leaving
  | left _ => .left
  | _ => .other

/-- The batch that a worker has started and not finished. -/
def started : TickStage → Multiset (CheckerTarget × Except String (List CheckerPhaseResult))
  | running _ _ job => {(job.target, job.batch)}
  | _ => 0

/-- The runs of the target at hand that are recorded already. -/
def recorded : TickStage → Multiset CheckerRunRecord
  | running _ _ job => job.runs
  | _ => 0

/-- A worker of the plan, or a thread that ends a context. -/
def Helps (plan : TickPlan) : TickStage → Prop
  | idle plan' _ | holding plan' _ _ | leaving plan' | left plan' => plan' = plan
  | running plan' _ job => plan' = plan ∧ plan.targets[job.index]? = some job.target
  | cancelling => True
  | _ => False

end TickStage

/-! ## The invariant -/

section Contexts
variable (cfg : ServerConfig)

/-- The context of the checker runs. The tick itself has the context 0. -/
def runContext : Nat := if cfg.tickTimeout then 1 else 0

/-- The contexts of the tick, of the checker runs where these have a deadline, and of the
workers. -/
def tickContexts : List (List Nat) :=
  if cfg.tickTimeout then [[0], [1, 0], [2, 1, 0]] else [[0], [1, 0]]

end Contexts

variable {σ : Type} {ι : Type v}

/-- The log tells when a context has ended. -/
def DoneLogged (s : LoggedServer σ) : Prop := s.state.done ≠ [] ↔ Fired s.log

/-- What the stage of the tick's own thread says about the pool. -/
def StageFits (plan : TickPlan) (pool : Pool) (next : Nat) (jobs : List Job) (fired : Prop) :
    TickStage → Prop
  | .handing plan' next' => plan' = plan ∧ next' = next ∧ pool.closed = false
  | .waiting plan' next' =>
    plan' = plan ∧ next' = next ∧ pool.closed = true ∧ (next < plan.targets.length → fired)
  | .closing plan' jobs' =>
    plan' = plan ∧ jobs' = jobs ∧ pool.pending = 0 ∧ (next < plan.targets.length → fired)
  | _ => False

/-- The tick with its workers: the jobs that are done and the indices that were skipped, with the
batches and runs of the log. `fired` says that a context has ended. -/
structure Pooling (cfg : ServerConfig) (plan : TickPlan) (pool : Pool) (next : Nat)
    (jobs : List Job)
    (skipped : Multiset Nat) (fired : Prop)
    (batches : Multiset (CheckerTarget × Except String (List CheckerPhaseResult)))
    (runs : Multiset CheckerRunRecord) (stage : TickStage) (rest : List TickStage) : Prop where
  fits : StageFits plan pool next jobs fired stage
  helps : ∀ stage ∈ rest, stage.Helps plan
  accounts : Accounts plan.targets.length next pool.slot pool.closed pool.pending
    (rest.map TickStage.place) (jobs.map (·.index)) skipped
  firstErr : pool.firstErr = none
  results : pool.results = resultsOf plan.targets.length jobs
  started : batches =
    (rest.map TickStage.started).sum + (jobs.map fun job => (job.target, job.batch) : List _)
  recorded : runs = (rest.map TickStage.recorded).sum + (jobs.flatMap (·.runs) : List _)
  complete : ∀ job ∈ jobs, plan.targets[job.index]? = some job.target ∧
    PhaseRuns plan.tickID job.target job.batch cfg.checkerPhases false job.runs
  cut : skipped ≠ 0 → fired

/-- What the stages of all threads say about the state. The tick's own thread is the first. -/
inductive Stages (cfg : ServerConfig) (s : LoggedServer σ) : List TickStage → Prop
  | opening {contexts : List (List Nat)} {pools : List Pool} {rest : List TickStage}
      (hcontexts : s.state.contexts = contexts) (hpools : s.state.pools = pools)
      (hrest : ∀ stage ∈ rest, stage = .cancelling) (hstarted : (s.log.map started).sum = 0)
      (hrecorded : (s.log.map recorded).sum = 0) : Stages cfg s (.opening contexts pools :: rest)
  | pooling {plan : TickPlan} {pool : Pool} {next : Nat} {jobs : List Job} {skipped : Multiset Nat}
      {stage : TickStage} {rest : List TickStage} (hcontexts : s.state.contexts = tickContexts cfg)
      (hpools : s.state.pools = [pool])
      (h : Pooling cfg plan pool next jobs skipped (s.state.done ≠ []) (s.log.map started).sum
        (s.log.map recorded).sum stage rest) : Stages cfg s (stage :: rest)

/-- The invariant: what the threads remember is so, the log tells when a context ended, and the
stages account for the batches and runs of the log. -/
structure TickInv (cfg : ServerConfig) (s : LoggedServer σ) (roles : List TickRole) : Prop where
  knows : ∀ role ∈ roles, role.knows.holds s.log
  done : DoneLogged s
  stages : Stages cfg s (roles.map TickRole.stage)

/-! ## Steps that leave the pool alone -/

section Steps
variable {cfg : ServerConfig} {plan : TickPlan} {pool : Pool} {next i : Nat} {jobs : List Job}
  {skipped : Multiset Nat} {fired : Prop} {stage : TickStage} {rest : List TickStage}
  {batches : Multiset (CheckerTarget × Except String (List CheckerPhaseResult))}
  {runs : Multiset CheckerRunRecord} {s t : LoggedServer σ} {roles : List TickRole}
  {role role' : TickRole} {e : (op : ServerOp) × op.Res}

theorem StageFits.mono {fired' : Prop} (h : StageFits plan pool next jobs fired stage)
    (hfired : fired → fired') : StageFits plan pool next jobs fired' stage := by
  cases stage with
  | handing => exact h
  | waiting | closing => exact ⟨h.1, h.2.1, h.2.2.1, fun hnext => hfired (h.2.2.2 hnext)⟩
  | opening | idle | holding | running | leaving | left | cancelling => exact False.elim h

theorem StageFits.same {pool' : Pool} (h : StageFits plan pool next jobs fired stage)
    (hclosed : pool'.closed = pool.closed) (hpending : pool'.pending = pool.pending) :
    StageFits plan pool' next jobs fired stage := by
  cases stage with
  | handing => exact ⟨h.1, h.2.1, hclosed.trans h.2.2⟩
  | waiting => exact ⟨h.1, h.2.1, hclosed.trans h.2.2.1, h.2.2.2⟩
  | closing => exact ⟨h.1, h.2.1, hpending.trans h.2.2.1, h.2.2.2⟩
  | opening | idle | holding | running | leaving | left | cancelling => exact False.elim h

theorem Pooling.mono {fired' : Prop}
    (h : Pooling cfg plan pool next jobs skipped fired batches runs stage rest)
    (hfired : fired → fired') :
    Pooling cfg plan pool next jobs skipped fired' batches runs stage rest :=
  { h with fits := h.fits.mono hfired, cut := fun hskipped => hfired (h.cut hskipped) }

/-- A step that starts no batch and records no run, and leaves contexts and pools alone. -/
structure Quiet (s t : LoggedServer σ) (e : (op : ServerOp) × op.Res) : Prop where
  contexts : t.state.contexts = s.state.contexts
  pools : t.state.pools = s.state.pools
  log : t.log = s.log ++ [e]
  started : started e = 0
  recorded : recorded e = 0

theorem Quiet.started_eq (h : Quiet s t e) :
    (t.log.map ServerLog.started).sum = (s.log.map ServerLog.started).sum := by
  rw [h.log, List.map_append, List.sum_append, List.map_singleton, List.sum_singleton, h.started,
    add_zero]

theorem Quiet.recorded_eq (h : Quiet s t e) :
    (t.log.map ServerLog.recorded).sum = (s.log.map ServerLog.recorded).sum := by
  rw [h.log, List.map_append, List.sum_append, List.map_singleton, List.sum_singleton, h.recorded,
    add_zero]

theorem Stages.quiet {stages : List TickStage} (h : Stages cfg s stages) (hquiet : Quiet s t e)
    (hdone : s.state.done ≠ [] → t.state.done ≠ []) : Stages cfg t stages := by
  cases h with
  | opening hcontexts hpools hrest hstarted hrecorded =>
    exact .opening (hquiet.contexts.trans hcontexts) (hquiet.pools.trans hpools) hrest
      (hquiet.started_eq.trans hstarted) (hquiet.recorded_eq.trans hrecorded)
  | pooling hcontexts hpools h =>
    have h' := h.mono hdone
    rw [← hquiet.started_eq, ← hquiet.recorded_eq] at h'
    exact .pooling (hquiet.contexts.trans hcontexts) (hquiet.pools.trans hpools) h'

theorem DoneLogged.same (h : DoneLogged s) (hdone : t.state.done = s.state.done)
    (hlog : t.log = s.log ++ [e]) (he : cancels e = false) : DoneLogged t := by
  unfold DoneLogged Fired at h ⊢
  rw [hdone, h, hlog]
  simp [List.mem_append, or_and_right, exists_or, he]

/-- The knowledge of the other threads is not taken back. -/
theorem knows_set (h : ∀ role ∈ roles, role.knows.holds s.log) (hlog : t.log = s.log ++ [e])
    (hrole : role'.knows.holds t.log) : ∀ role ∈ roles.set i role', role.knows.holds t.log := by
  intro role hmem
  rcases List.mem_or_eq_of_mem_set hmem with hmem | rfl
  · rw [hlog]
    exact role.knows.stable (h role hmem)
  · exact hrole

/-- A quiet step of a thread that stays at its stage. -/
theorem TickInv.quiet (h : TickInv cfg s roles) (hi : roles[i]? = some role)
    (hstage : role'.stage = role.stage) (hquiet : Quiet s t e) (hdone : t.state.done = s.state.done)
    (he : cancels e = false) (hknows : role'.knows.holds t.log) :
    TickInv cfg t (roles.set i role') := by
  refine ⟨knows_set h.knows hquiet.log hknows, h.done.same hdone hquiet.log he, ?_⟩
  rw [map_set_of_eq TickRole.stage hi hstage]
  exact h.stages.quiet hquiet fun hne => hdone ▸ hne

/-! ## Steps of the pool -/

/-- The workers start. -/
theorem Pooling.opened {workers : Nat} (hworkers : 0 < workers)
    (hrest : ∀ stage ∈ rest, stage = .cancelling) :
    Pooling cfg plan { pending := workers, results := .replicate plan.targets.length {} }
      0 [] 0 fired
      0 0 (.handing plan 0)
      (rest ++ List.replicate workers (.idle plan (plan.targets.length + 1))) := by
  have hzero : ∀ {M : Type} [AddCommMonoid M] (f : TickStage → M), f .cancelling = 0 →
      f (.idle plan (plan.targets.length + 1)) = 0 →
      ((rest ++ List.replicate workers (TickStage.idle plan (plan.targets.length + 1))).map f).sum =
        0 := by
    intro M _ f hdeadline hidle
    refine List.sum_eq_zero fun x hx => ?_
    obtain ⟨stage, hstage, rfl⟩ := List.mem_map.mp hx
    rcases List.mem_append.mp hstage with hstage | hstage
    · rw [hrest stage hstage, hdeadline]
    · rw [List.eq_of_mem_replicate hstage, hidle]
  refine ⟨⟨rfl, rfl, rfl⟩, fun stage hstage => ?_, ?_, rfl, (resultsOf_nil _).symm, ?_, ?_, by
    simp, by simp⟩
  · rcases List.mem_append.mp hstage with hstage | hstage
    · rw [hrest stage hstage]
      trivial
    · rw [List.eq_of_mem_replicate hstage]
      rfl
  · rw [List.map_append, List.map_replicate]
    refine .start hworkers fun place hplace => ?_
    obtain ⟨stage, hstage, rfl⟩ := List.mem_map.mp hplace
    rw [hrest stage hstage]
    rfl
  · rw [hzero _ rfl rfl]
    rfl
  · rw [hzero _ rfl rfl]
    rfl

/-- The next index goes into the channel. -/
theorem Pooling.send {plan' : TickPlan} {next' : Nat}
    (h : Pooling cfg plan pool next jobs skipped fired batches runs (.handing plan' next') rest)
    (hslot : pool.slot = none) (hnext : next' < plan.targets.length) :
    Pooling cfg plan { pool with slot := some next' } (next + 1) jobs skipped fired batches runs
      (.handing plan' (next' + 1)) rest := by
  obtain ⟨rfl, rfl, hclosed⟩ := h.fits
  have haccounts := h.accounts
  rw [hslot, hclosed] at haccounts
  exact { h with
    fits := ⟨rfl, rfl, hclosed⟩
    accounts := by
      rw [hclosed]
      exact haccounts.send hnext }

theorem Pooling.close {plan' : TickPlan} {next' : Nat}
    (h : Pooling cfg plan pool next jobs skipped fired batches runs (.handing plan' next') rest)
    (hstop : next' < plan.targets.length → fired) :
    Pooling cfg plan { pool with closed := true } next jobs skipped fired batches runs
      (.waiting plan' next') rest := by
  obtain ⟨rfl, rfl, hclosed⟩ := h.fits
  exact { h with fits := ⟨rfl, rfl, rfl, hstop⟩, accounts := h.accounts.close }

theorem Pooling.wait {plan' : TickPlan} {next' : Nat}
    (h : Pooling cfg plan pool next jobs skipped fired batches runs (.waiting plan' next') rest)
    (hpending : pool.pending = 0) :
    Pooling cfg plan pool next jobs skipped fired batches runs (.closing plan' jobs) rest := by
  obtain ⟨rfl, rfl, -, hstop⟩ := h.fits
  exact { h with fits := ⟨rfl, rfl, hpending, hstop⟩ }

section Work
variable {j fuel index : Nat} {plan' : TickPlan} {job : Job}

theorem getElem?_place {old : TickStage} (hj : rest[j]? = some old) :
    (rest.map TickStage.place)[j]? = some old.place := by
  rw [List.getElem?_map, hj]
  rfl

/-- The plan that a worker works by is that of the tick. -/
theorem Pooling.helps_at (h : Pooling cfg plan pool next jobs skipped fired batches runs stage rest)
    {old : TickStage} (hj : rest[j]? = some old) : old.Helps plan :=
  h.helps old (List.mem_of_getElem? hj)

theorem helps_set {new : TickStage} (h : ∀ stage ∈ rest, stage.Helps plan) (hnew : new.Helps plan) :
    ∀ stage ∈ rest.set j new, stage.Helps plan := by
  intro stage hmem
  rcases List.mem_or_eq_of_mem_set hmem with hmem | rfl
  · exact h stage hmem
  · exact hnew

/-- A worker moves on without a new batch or run. -/
theorem Pooling.move {old new : TickStage} {pool' : Pool} {skipped' : Multiset Nat}
    (h : Pooling cfg plan pool next jobs skipped fired batches runs stage rest)
    (hj : rest[j]? = some old) (hhelps : new.Helps plan) (hstarted : new.started = old.started)
    (hrecorded : new.recorded = old.recorded)
    (haccounts : Accounts plan.targets.length next pool'.slot pool'.closed pool'.pending
      ((rest.map TickStage.place).set j new.place) (jobs.map (·.index)) skipped')
    (hfits : StageFits plan pool' next jobs fired stage) (hfirst : pool'.firstErr = pool.firstErr)
    (hresults : pool'.results = pool.results) (hcut : skipped' ≠ 0 → fired) :
    Pooling cfg plan pool' next jobs skipped' fired batches runs stage (rest.set j new) where
  fits := hfits
  helps := helps_set h.helps hhelps
  accounts := by rwa [List.map_set]
  firstErr := hfirst.trans h.firstErr
  results := hresults.trans h.results
  started := by rw [map_set_of_eq TickStage.started hj hstarted, h.started]
  recorded := by rw [map_set_of_eq TickStage.recorded hj hrecorded, h.recorded]
  complete := h.complete
  cut := hcut

/-- A worker takes an index out of the channel. -/
theorem Pooling.receive
    (h : Pooling cfg plan pool next jobs skipped fired batches runs stage rest)
    (hj : rest[j]? = some (.idle plan' (fuel + 1))) (hslot : pool.slot = some index) :
    Pooling cfg plan { pool with slot := none } next jobs skipped fired batches runs stage
      (rest.set j (.holding plan' fuel index)) := by
  have haccounts := h.accounts
  rw [hslot] at haccounts
  exact h.move hj (h.helps_at hj :) rfl rfl (haccounts.receive (getElem?_place hj))
    (h.fits.same rfl rfl) rfl rfl h.cut

/-- A worker finds the channel closed and empty. -/
theorem Pooling.leave
    (h : Pooling cfg plan pool next jobs skipped fired batches runs stage rest)
    (hj : rest[j]? = some (.idle plan' fuel)) (hslot : pool.slot = none)
    (hclosed : pool.closed = true) :
    Pooling cfg plan pool next jobs skipped fired batches runs stage
      (rest.set j (.leaving plan')) := by
  have haccounts := h.accounts
  rw [hslot, hclosed] at haccounts
  refine h.move hj (h.helps_at hj :) rfl rfl ?_ h.fits rfl rfl h.cut
  rw [hslot, hclosed]
  exact haccounts.leave (getElem?_place hj)

/-- A worker passes over an index when its context has ended. -/
theorem Pooling.skip
    (h : Pooling cfg plan pool next jobs skipped fired batches runs stage rest)
    (hj : rest[j]? = some (.holding plan' fuel index)) (hfired : fired) :
    Pooling cfg plan pool next jobs (index ::ₘ skipped) fired batches runs stage
      (rest.set j (.idle plan' fuel)) :=
  h.move hj (h.helps_at hj :) rfl rfl (h.accounts.skip (getElem?_place hj)) h.fits rfl rfl
    fun _ => hfired

/-- A worker has left. -/
theorem Pooling.done
    (h : Pooling cfg plan pool next jobs skipped fired batches runs stage rest)
    (hj : rest[j]? = some (.leaving plan')) :
    Pooling cfg plan { pool with pending := pool.pending - 1 } next jobs skipped fired batches runs
      stage (rest.set j (.left plan')) := by
  refine h.move hj (h.helps_at hj :) rfl rfl (h.accounts.done (getElem?_place hj)) ?_ rfl rfl h.cut
  cases stage with
  | closing => exact ⟨h.fits.1, h.fits.2.1, by dsimp only; rw [h.fits.2.2.1], h.fits.2.2.2⟩
  | _ => exact h.fits

/-- A worker has started the batch of a target. -/
theorem Pooling.start {target : CheckerTarget} {batch : Except String (List CheckerPhaseResult)}
    (h : Pooling cfg plan pool next jobs skipped fired batches runs stage rest)
    (hj : rest[j]? = some (.holding plan' fuel index))
    (htarget : plan'.targets[index]? = some target) :
    Pooling cfg plan pool next jobs skipped fired (batches + {(target, batch)}) runs stage
      (rest.set j (.running plan' fuel ⟨index, target, batch, []⟩)) := by
  obtain rfl : plan' = plan := h.helps_at hj
  have hsum := sum_map_set TickStage.started hj (.running plan' fuel ⟨index, target, batch, []⟩)
  simp only [TickStage.started, zero_add] at hsum
  have hplace : (TickStage.running plan' fuel ⟨index, target, batch, []⟩).place =
    (TickStage.holding plan' fuel index).place := rfl
  have hrecorded : (TickStage.running plan' fuel ⟨index, target, batch, []⟩).recorded =
    (TickStage.holding plan' fuel index).recorded := rfl
  exact { h with
    helps := helps_set h.helps ⟨rfl, htarget⟩
    accounts := by
      rw [map_set_of_eq TickStage.place hj hplace]
      exact h.accounts
    started := by
      rw [hsum, h.started]
      abel
    recorded := by rw [map_set_of_eq TickStage.recorded hj hrecorded, h.recorded] }

theorem Pooling.record {run : CheckerRunRecord}
    (h : Pooling cfg plan pool next jobs skipped fired batches runs stage rest)
    (hj : rest[j]? = some (.running plan' fuel job)) :
    Pooling cfg plan pool next jobs skipped fired batches (runs + {run}) stage
      (rest.set j (.running plan' fuel { job with runs := job.runs ++ [run] })) := by
  have hhelps : plan' = plan ∧ plan.targets[job.index]? = some job.target := h.helps_at hj
  have hsum := sum_map_set TickStage.recorded hj
    (.running plan' fuel { job with runs := job.runs ++ [run] })
  simp only [TickStage.recorded] at hsum
  have hplace : (TickStage.running plan' fuel { job with runs := job.runs ++ [run] }).place =
    (TickStage.running plan' fuel job).place := rfl
  have hstarted : (TickStage.running plan' fuel { job with runs := job.runs ++ [run] }).started =
    (TickStage.running plan' fuel job).started := rfl
  exact { h with
    helps := helps_set h.helps hhelps
    accounts := by
      rw [map_set_of_eq TickStage.place hj hplace]
      exact h.accounts
    started := by rw [map_set_of_eq TickStage.started hj hstarted, h.started]
    recorded := by
      refine add_left_cancel (a := (job.runs : Multiset CheckerRunRecord)) ?_
      rw [← add_assoc _ _ (Multiset.ofList (jobs.flatMap _)), hsum, h.recorded, ← Multiset.coe_add,
        Multiset.coe_singleton]
      abel }

/-- A worker hands in a complete job. -/
theorem Pooling.finish
    (h : Pooling cfg plan pool next jobs skipped fired batches runs stage rest)
    (hj : rest[j]? = some (.running plan' fuel job))
    (hcomplete : PhaseRuns plan'.tickID job.target job.batch cfg.checkerPhases false job.runs) :
    Pooling cfg plan (pool.result job.index (countRuns job.runs) none) next (job :: jobs)
      skipped fired
      batches runs stage (rest.set j (.idle plan' fuel)) := by
  obtain ⟨rfl, htarget⟩ : plan' = plan ∧ plan.targets[job.index]? = some job.target := h.helps_at hj
  have hstarted := sum_map_set TickStage.started hj (.idle plan' fuel)
  have hrecorded := sum_map_set TickStage.recorded hj (.idle plan' fuel)
  simp only [TickStage.started, TickStage.recorded, zero_add] at hstarted hrecorded
  exact {
    fits := by
      cases stage with
      | handing | waiting => exact h.fits
      | closing =>
        -- the worker is still at work
        have hpending := h.accounts.pending_pos (List.mem_of_getElem? (getElem?_place hj)) rfl
        exact absurd h.fits.2.2.1 hpending.ne'
      | opening | idle | holding | running | leaving | left | cancelling => exact False.elim h.fits
    helps := helps_set h.helps rfl
    accounts := by
      rw [List.map_set]
      exact h.accounts.finish (getElem?_place hj)
    firstErr := by rw [Pool.result, h.firstErr]; rfl
    results := by rw [Pool.result, h.results, resultsOf_cons]
    started := by
      rw [h.started, ← hstarted, List.map_cons, ← Multiset.cons_coe, ← Multiset.singleton_add]
      abel
    recorded := by
      rw [h.recorded, ← hrecorded, List.flatMap_cons, ← Multiset.coe_add]
      abel
    complete := List.forall_mem_cons.mpr ⟨⟨htarget, hcomplete⟩, h.complete⟩
    cut := h.cut }

end Work

end Steps

end ADPlatform.GameCore
