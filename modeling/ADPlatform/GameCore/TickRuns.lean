import ADPlatform.GameCore.TickPool

/-! # Runs of `advanceTick`

Every program behind a tick plays its role: `advanceTick` leaves behind its workers in the stage
`closing`, with what it knows about the log. The store calls of a run are assumed to succeed. -/

namespace ADPlatform.GameCore
open Concurrent Text ServerProc Server WorkerPool

variable {σ : Type} {ι : Type v}

/-- A store call answers without an error. -/
def Succeeds (sem : StoreSem σ ι) (input : ServerInput ι) : ServerOp → LoggedServer σ → Prop
  | .store ctx call, s =>
    (sem input.store (s.state.contextErr ctx) s.state.store call).2.isOk = true
  | _, _ => True

theorem Succeeds.answer {sem : StoreSem σ ι} {input : ServerInput ι} {ctx : Nat} {call : StoreOp}
    {s : LoggedServer σ} (h : Succeeds sem input (.store ctx call) s) :
    ∃ answer, (sem input.store (s.state.contextErr ctx) s.state.store call).2 = .ok answer := by
  have hok : (sem input.store (s.state.contextErr ctx) s.state.store call).2.isOk = true := h
  generalize (sem input.store (s.state.contextErr ctx) s.state.store call).2 = r at hok
  cases r with
  | ok answer => exact ⟨answer, rfl⟩
  | error => cases hok

instance decidableSucceeds {sem : StoreSem σ ι} {input : ServerInput ι} {s : LoggedServer σ} :
    (op : ServerOp) → Decidable (Succeeds sem input op s)
  | .store ctx call => inferInstanceAs
      (Decidable ((sem input.store (s.state.contextErr ctx) s.state.store call).2.isOk = true))
  | .clock | .loadCodec | .reloadFlagFormat _ | .executeBatch .. | .contextNew _ | .contextCancel ..
  | .contextErr _ | .poolNew .. | .poolSend .. | .poolClose _ | .poolReceive _ | .poolResult ..
  | .poolDone _ | .poolWait _ | .scheduleScoreboardRecompute | .reconcileAccess _
  | .tickReturned _ =>
    isTrue trivial

namespace TickStage

/-- Where a thread may have to wait for another. -/
def Waits (s : LoggedServer σ) : TickStage → Prop
  | handing .. => ∀ pool, s.state.pools = [pool] → pool.slot ≠ none
  | waiting .. => ∀ pool, s.state.pools = [pool] → pool.pending ≠ 0
  | idle .. => ∀ pool, s.state.pools = [pool] → pool.slot = none ∧ pool.closed = false
  | _ => False

/-- The thread has nothing left to do. -/
def Ended : TickStage → Prop
  | left _ | cancelling => True
  | _ => False

/-- A stage of the tick's own thread. -/
def IsMain : TickStage → Prop
  | opening .. | handing .. | waiting .. | closing .. => True
  | _ => False

/-- A stage of a worker. -/
def IsWorker : TickStage → Prop
  | idle .. | holding .. | running .. | leaving _ => True
  | _ => False

end TickStage

/-- The roles of a tick whose store calls succeed. -/
def tickRoles (cfg : ServerConfig) (sem : StoreSem σ ι) :
    Roles (LoggedServer σ) (ServerInput ι) ServerOp ServerOp.Res TickRole where
  sem := (serverSem sem).logged
  inv := TickInv cfg
  allowed := Succeeds sem
  waits role s := role.stage.Waits s
  ended role := role.stage.Ended

section Views
variable {cfg : ServerConfig} {s : LoggedServer σ} {roles : List TickRole}
  {role : TickRole} {i : Nat}

/-- A thread that plays the tick's own part is the first. -/
theorem TickInv.main_first (h : TickInv cfg s roles) (hi : roles[i]? = some role)
    (hmain : role.stage.IsMain) : i = 0 ∧ ∃ rest, roles = role :: rest := by
  cases roles with
  | nil => cases hi
  | cons first rest =>
    cases i with
    | zero =>
      obtain rfl := Option.some.inj hi
      exact ⟨rfl, rest, rfl⟩
    | succ j =>
      exfalso
      have hmem : role.stage ∈ rest.map TickRole.stage :=
        List.mem_map_of_mem (List.mem_of_getElem? hi)
      have hstages := h.stages
      rw [List.map_cons] at hstages
      generalize first.stage = stage at hstages
      cases hstages with
      | opening _ _ hrest =>
        rw [hrest _ hmem] at hmain
        exact hmain
      | pooling _ _ hpooling =>
        have hhelps := hpooling.helps _ hmem
        cases hstage : role.stage with
        | opening | handing | waiting | closing =>
          rw [hstage] at hhelps
          exact hhelps
        | idle | holding | running | leaving | left | cancelling =>
          rw [hstage] at hmain
          exact hmain

/-- A worker is one of the other threads, and there is a pool. -/
theorem TickInv.worker_later (h : TickInv cfg s roles) (hi : roles[i]? = some role)
    (hworker : role.stage.IsWorker) : ∃ j first rest plan pool next jobs skipped, i = j + 1 ∧
      roles = first :: rest ∧ (rest.map TickRole.stage)[j]? = some role.stage ∧
      s.state.contexts = tickContexts cfg ∧ s.state.pools = [pool] ∧
      Pooling cfg plan pool next jobs skipped (s.state.done ≠ []) (s.log.map ServerLog.started).sum
        (s.log.map ServerLog.recorded).sum first.stage (rest.map TickRole.stage) := by
  cases roles with
  | nil => cases hi
  | cons first rest =>
    have hstages := h.stages
    rw [List.map_cons] at hstages
    generalize hfirst : first.stage = stage at hstages
    cases i with
    | zero =>
      obtain rfl := Option.some.inj hi
      exfalso
      rw [hfirst] at hworker
      cases hstages with
      | opening => exact hworker
      | pooling _ _ hpooling =>
        have hfits := hpooling.fits
        cases stage with
        | idle | holding | running | leaving => exact hfits
        | opening | handing | waiting | closing | left | cancelling => exact hworker
    | succ j =>
      have hj : (rest.map TickRole.stage)[j]? = some role.stage := by
        rw [List.getElem?_map, show rest[j]? = some role from hi]
        rfl
      cases hstages with
      | opening _ _ hrest =>
        rw [hrest _ (List.mem_of_getElem? hj)] at hworker
        exact False.elim hworker
      | @pooling plan pool next jobs skipped _ _ hcontexts hpools hpooling =>
        exact ⟨j, first, rest, plan, pool, next, jobs, skipped, rfl, rfl, hj, hcontexts, hpools,
          hfirst ▸ hpooling⟩

/-- Some thread of a tick can always move, while the tick has not returned. -/
theorem TickInv.not_at_rest (h : TickInv cfg s roles) :
    ¬∀ role ∈ roles, role.stage.Ended ∨ role.stage.Waits s := by
  intro hrest
  have hall : ∀ stage ∈ roles.map TickRole.stage, stage.Ended ∨ stage.Waits s := by
    intro stage hstage
    obtain ⟨role, hrole, rfl⟩ := List.mem_map.mp hstage
    exact hrest role hrole
  have hstages := h.stages
  generalize roles.map TickRole.stage = stages at hstages hall
  cases hstages with
  | opening => exact (hall _ (.head _)).elim id id
  | @pooling plan pool next jobs skipped stage rest _ hpools hpooling =>
    -- a worker at work is idle at best, and then finds the channel full or closed
    have hwork : pool.slot ≠ none ∨ pool.pending ≠ 0 ∧ pool.closed = true → False := by
      intro hwork
      obtain ⟨place, hplace, hactive⟩ := hpooling.accounts.exists_active (hwork.imp id And.left)
      obtain ⟨worker, hworker, rfl⟩ := List.mem_map.mp hplace
      have hmove := hall worker (.tail _ hworker)
      cases worker with
      | idle =>
        obtain ⟨hslot, hclosed⟩ := hmove.resolve_left id pool hpools
        rcases hwork with hne | ⟨-, htrue⟩
        · exact hne hslot
        · rw [hclosed] at htrue
          cases htrue
      | holding | running | leaving => exact hmove.elim id id
      | opening | handing | waiting | closing | left | cancelling => cases hactive
    have hfits := hpooling.fits
    have hmain := hall stage (.head _)
    cases stage with
    | handing => exact hwork (.inl (hmain.resolve_left id pool hpools))
    | waiting => exact hwork (.inr ⟨hmain.resolve_left id pool hpools, hfits.2.2.1⟩)
    | closing => exact hmain.elim id id
    | opening | idle | holding | running | leaving | left | cancelling => exact hfits

end Views

/-! ## Operations that leave the pool alone -/

/-- The operations of a tick that leave contexts and pools alone and start or record nothing. -/
def LeavesPool : ServerOp → Prop
  | .clock | .loadCodec | .contextErr _ | .scheduleScoreboardRecompute | .reconcileAccess _
  | .tickReturned _ => True
  | .store _ (.recordCheckerRun _) => False
  | .store .. => True
  | _ => False

section Plays
variable {cfg : ServerConfig} {sem : StoreSem σ ι} {role : TickRole} {ctx : Nat}

theorem quiet_of_leavesPool {op : ServerOp} (hop : LeavesPool op) {input : ServerInput ι}
    {s t : LoggedServer σ} {r : op.Res} (h : (serverSem sem).logged input op s = some (t, r)) :
    Quiet s t ⟨op, r⟩ ∧ t.state.done = s.state.done ∧ ServerLog.cancels ⟨op, r⟩ = false := by
  obtain ⟨hsem, hlog⟩ := logged_eq_some h
  cases op with
  | clock | loadCodec | contextErr | scheduleScoreboardRecompute | reconcileAccess | tickReturned =>
    obtain ⟨hstate, -⟩ := Prod.mk.inj (Option.some.inj hsem)
    rw [← hstate]
    exact ⟨⟨by rw [← hstate], by rw [← hstate], hlog, rfl, rfl⟩, rfl, rfl⟩
  | store ctx call =>
    obtain ⟨hstate, -⟩ := Prod.mk.inj (Option.some.inj hsem)
    rw [← hstate]
    refine ⟨⟨by rw [← hstate], by rw [← hstate], hlog, rfl, ?_⟩, rfl, rfl⟩
    cases call with
    | recordCheckerRun => exact False.elim hop
    | _ => rfl
  | reloadFlagFormat | executeBatch | contextNew | contextCancel | poolNew | poolSend | poolClose
  | poolReceive | poolResult | poolDone | poolWait => exact False.elim hop

/-- An operation that leaves the pool alone: its thread stays at its stage and learns from it. -/
theorem quiet_plays [Nonempty ι] {op : ServerOp} (hop : LeavesPool op)
    {Q : op.Res → TickRole → Prop}
    (hQ : ∀ {s : LoggedServer σ} {roles : List TickRole} {i : Nat} {input : ServerInput ι}
      {t : ServerShared σ} {r : op.Res}, roles[i]? = some role → TickInv cfg s roles →
      Succeeds sem input op s → serverSem sem input op s.state = some (t, r) →
      ∃ knows : Knowledge ServerOp ServerOp.Res, knows.holds (s.log ++ [⟨op, r⟩]) ∧
        Q r { role with knows }) :
    (tickRoles cfg sem).Plays (Proc.perform op) role Q := by
  refine .perform (fun s roles i hi hs input t r hal hsem => ?_) fun s roles i hi hs hnone => ?_
  · obtain ⟨hquiet, hdone, hcancels⟩ := quiet_of_leavesPool hop hsem
    obtain ⟨knows, hknows, hQ⟩ := hQ hi hs hal (logged_eq_some hsem).1
    exact ⟨{ role with knows }, hs.quiet hi rfl hquiet hdone hcancels (hquiet.log ▸ hknows), hQ⟩
  · obtain ⟨input⟩ := ‹Nonempty ι›
    have hblocked := logged_eq_none.mp (hnone { store := input })
    cases op with
    | clock | loadCodec | contextErr | scheduleScoreboardRecompute | reconcileAccess | tickReturned
    | store => cases hblocked
    | reloadFlagFormat | executeBatch | contextNew | contextCancel | poolNew | poolSend | poolClose
    | poolReceive | poolResult | poolDone | poolWait => exact False.elim hop

theorem learn_holds {s : LoggedServer σ} {roles : List TickRole} {i : Nat} {op : ServerOp}
    {r : op.Res}
    (hi : roles[i]? = some role) (hs : TickInv cfg s roles) :
    (role.knows.learn op r).holds (s.log ++ [⟨op, r⟩]) :=
  Knowledge.holds_learn (hs.knows role (List.mem_of_getElem? hi))

/-- A store call that succeeds. -/
theorem store_plays [Nonempty ι] {call : StoreOp} (hcall : LeavesPool (.store ctx call))
    {Q : Except StoreError call.Answer → TickRole → Prop}
    (hQ : ∀ answer, Q (.ok answer) { role with
      knows := role.knows.learn (.store ctx call) (.ok answer : Except StoreError call.Answer) }) :
    (tickRoles cfg sem).Plays (store ctx call) role Q := by
  refine .bind (Q := fun (r : Except StoreError call.Answer) role' => (∃ answer, r = .ok answer) ∧
    Q r role') (quiet_plays hcall ?_) ?_
  · intro s roles i input t r hi hs hal hsem
    obtain ⟨answer, hanswer⟩ := hal.answer
    have hr : r = Except.ok answer := ((Prod.mk.inj (Option.some.inj hsem)).2.symm).trans hanswer
    subst hr
    exact ⟨_, learn_holds hi hs, ⟨answer, rfl⟩, hQ answer⟩
  · rintro r role' ⟨⟨answer, rfl⟩, hQ'⟩
    exact .pure hQ'

end Plays

/-! ## Workers -/

section Workers
variable {cfg : ServerConfig} {sem : StoreSem σ ι} {role : TickRole} {plan : TickPlan}
  {fuel index ctx : Nat} {job : Job} {s : LoggedServer σ} {t : ServerShared σ}

/-- What a step of a worker makes of the pool and of its own stage. -/
inductive WorkerStep (cfg : ServerConfig) (plan : TickPlan) (next : Nat) (stage : TickStage)
    (rest : List TickStage) (j : Nat) (s t : ServerShared σ)
    (batches : Multiset (CheckerTarget × Except String (List CheckerPhaseResult)))
    (runs : Multiset CheckerRunRecord) (new : TickStage) : Prop
  | step {pool : Pool} {jobs : List Job} {skipped : Multiset Nat}
      (hcontexts : t.contexts = s.contexts)
      (hdone : t.done = s.done) (hpools : t.pools = [pool])
      (hpooling : Pooling cfg plan pool next jobs skipped (s.done ≠ []) batches runs stage
        (rest.set j new)) : WorkerStep cfg plan next stage rest j s t batches runs new

section
variable {next j : Nat} {stage new : TickStage} {rest : List TickStage} {s t : ServerShared σ}
  {batches : Multiset (CheckerTarget × Except String (List CheckerPhaseResult))}
  {runs : Multiset CheckerRunRecord} {e : (op : ServerOp) × op.Res}

theorem WorkerStep.quiet (h : WorkerStep cfg plan next stage rest j s t batches runs new)
    (hstarted : ServerLog.started e = 0) (hrecorded : ServerLog.recorded e = 0) :
    WorkerStep cfg plan next stage rest j s t (batches + ServerLog.started e)
      (runs + ServerLog.recorded e) new := by
  rwa [hstarted, hrecorded, add_zero, add_zero]

theorem WorkerStep.starts {batch : CheckerTarget × Except String (List CheckerPhaseResult)}
    (h : WorkerStep cfg plan next stage rest j s t (batches + {batch}) runs new)
    (hstarted : ServerLog.started e = {batch}) (hrecorded : ServerLog.recorded e = 0) :
    WorkerStep cfg plan next stage rest j s t (batches + ServerLog.started e)
      (runs + ServerLog.recorded e) new := by
  rwa [hstarted, hrecorded, add_zero]

theorem WorkerStep.records {run : CheckerRunRecord}
    (h : WorkerStep cfg plan next stage rest j s t batches (runs + {run}) new)
    (hstarted : ServerLog.started e = 0) (hrecorded : ServerLog.recorded e = {run}) :
    WorkerStep cfg plan next stage rest j s t (batches + ServerLog.started e)
      (runs + ServerLog.recorded e) new := by
  rwa [hstarted, hrecorded, add_zero]

end

/-- An operation of a worker. -/
theorem workerOp_plays {op : ServerOp} {Q : op.Res → TickRole → Prop}
    (hworker : role.stage.IsWorker)
    (hcancels : ∀ r, ServerLog.cancels ⟨op, r⟩ = false)
    (hstep : ∀ {s : LoggedServer σ} {stage : TickStage} {rest : List TickStage} {j : Nat}
      {plan : TickPlan} {pool : Pool} {next : Nat} {jobs : List Job} {skipped : Multiset Nat}
      {batches : Multiset (CheckerTarget × Except String (List CheckerPhaseResult))}
      {runs : Multiset CheckerRunRecord} {input : ServerInput ι} {t : ServerShared σ} {r : op.Res},
      s.state.contexts = tickContexts cfg → s.state.pools = [pool] →
      Pooling cfg plan pool next jobs skipped (s.state.done ≠ []) batches runs stage rest →
      rest[j]? = some role.stage → Succeeds sem input op s →
      serverSem sem input op s.state = some (t, r) →
      ∃ new, WorkerStep cfg plan next stage rest j s.state t (batches + ServerLog.started ⟨op, r⟩)
        (runs + ServerLog.recorded ⟨op, r⟩) new ∧ Q r { role with stage := new })
    (hwait : ∀ {s : LoggedServer σ} {pool : Pool}, s.state.pools = [pool] →
      (∀ input, serverSem sem input op s.state = none) → role.stage.Waits s) :
    (tickRoles cfg sem).Plays (Proc.perform op) role Q := by
  refine .perform (fun s roles i hi hs input t r hal hsem => ?_) fun s roles i hi hs hnone => ?_
  · obtain ⟨j, first, rest, plan, pool, next, jobs, skipped, rfl, rfl, hj, hcontexts, hpools, h⟩ :=
      hs.worker_later hi hworker
    obtain ⟨hsem, hlog⟩ := logged_eq_some hsem
    obtain ⟨new, @⟨pool', jobs', skipped', hcontexts', hdone, hpools', h'⟩, hQ⟩ :=
      hstep hcontexts hpools h hj hal hsem
    refine ⟨{ role with stage := new }, ⟨?_, hs.done.same hdone hlog (hcancels r), ?_⟩, hQ⟩
    · refine knows_set hs.knows hlog ?_
      rw [hlog]
      exact role.knows.stable (hs.knows role (List.mem_of_getElem? hi))
    · rw [List.set_cons_succ, List.map_cons, List.map_set]
      have hpooling : Pooling cfg plan pool' next jobs' skipped' (t.state.done ≠ [])
          (t.log.map ServerLog.started).sum (t.log.map ServerLog.recorded).sum first.stage
          ((rest.map TickRole.stage).set j new) := by
        rw [hlog, hdone]
        simpa only [List.map_append, List.sum_append, List.map_singleton,
          List.sum_singleton] using h'
      exact .pooling (hcontexts'.trans hcontexts) hpools' hpooling
  · obtain ⟨j, first, rest, plan, pool, next, jobs, skipped, rfl, rfl, hj, hcontexts, hpools, h⟩ :=
      hs.worker_later hi hworker
    exact hwait hpools fun input => logged_eq_none.mp (hnone input)

theorem poolReceive_plays [Nonempty ι] (hstage : role.stage = .idle plan (fuel + 1)) :
    (tickRoles cfg sem).Plays (poolReceive 0) role fun r role' =>
      role' = { role with stage :=
        match r with
        | some index => .holding plan fuel index
        | none => .leaving plan } := by
  refine workerOp_plays (by rw [hstage]; trivial) (fun _ => rfl) ?_ ?_
  · intro s stage rest j plan' pool next jobs skipped batches runs input t r _ hpools h hj _ hsem
    rw [hstage] at hj
    simp only [serverSem, hpools, List.getElem?_cons_zero, Option.bind_eq_bind,
      Option.bind_some] at hsem
    refine ⟨_, .quiet ?_ rfl rfl, rfl⟩
    cases hslot : pool.slot with
    | some index =>
      simp only [Pool.receive, hslot, Option.bind_some] at hsem
      cases hsem
      exact .step rfl rfl rfl (h.receive hj hslot)
    | none =>
      simp only [Pool.receive, hslot] at hsem
      split at hsem
      · cases hsem
        exact .step rfl rfl rfl (h.leave hj hslot ‹_›)
      · cases hsem
  · intro s pool hpools hnone
    obtain ⟨input⟩ := ‹Nonempty ι›
    have hblocked := hnone { store := input }
    simp only [serverSem, hpools, List.getElem?_cons_zero, Option.bind_eq_bind,
      Option.bind_some] at hblocked
    rw [hstage]
    intro pool' hpools'
    obtain rfl : pool = pool' := List.head_eq_of_cons_eq (hpools.symm.trans hpools')
    cases hslot : pool.slot with
    | some index =>
      simp only [Pool.receive, hslot] at hblocked
      cases hblocked
    | none =>
      simp only [Pool.receive, hslot] at hblocked
      split at hblocked
      · cases hblocked
      · exact ⟨rfl, eq_false_of_ne_true ‹_›⟩

theorem poolDone_plays [Nonempty ι] (hstage : role.stage = .leaving plan) :
    (tickRoles cfg sem).Plays (poolDone 0) role fun _ role' => role'.stage = .left plan := by
  refine workerOp_plays (by rw [hstage]; trivial) (fun _ => rfl) ?_ ?_
  · intro s stage rest j plan' pool next jobs skipped batches runs input t r _ hpools h hj _ hsem
    rw [hstage] at hj
    simp only [serverSem, hpools, List.getElem?_cons_zero, Option.bind_eq_bind,
      Option.bind_some] at hsem
    cases hsem
    refine ⟨_, .quiet ?_ rfl rfl, rfl⟩
    exact .step rfl rfl rfl (h.done hj)
  · intro s pool hpools hnone
    obtain ⟨input⟩ := ‹Nonempty ι›
    have hblocked := hnone { store := input }
    simp only [serverSem, hpools, List.getElem?_cons_zero, Option.bind_eq_bind,
      Option.bind_some] at hblocked
    cases hblocked

/-- A worker never runs out of indices to take. -/
theorem poolDone_idle [Nonempty ι] {Q : Unit → TickRole → Prop}
    (hstage : role.stage = .idle plan 0) :
    (tickRoles cfg sem).Plays (poolDone 0) role Q := by
  refine workerOp_plays (by rw [hstage]; trivial) (fun _ => rfl) ?_ ?_
  · intro s stage rest j plan' pool next jobs skipped batches runs input t r _ _ h hj _ _
    rw [hstage] at hj
    exact absurd (h.accounts.fuel_pos (getElem?_place hj)) (lt_irrefl 0)
  · intro s pool hpools hnone
    obtain ⟨input⟩ := ‹Nonempty ι›
    have hblocked := hnone { store := input }
    simp only [serverSem, hpools, List.getElem?_cons_zero, Option.bind_eq_bind,
      Option.bind_some] at hblocked
    cases hblocked

/-- Where a context has an error, some context has ended. -/
theorem done_ne_nil {s : ServerShared σ} {err : CtxError} (h : s.contextErr ctx = some err) :
    s.done ≠ [] := by
  intro hdone
  obtain ⟨id, -, hid⟩ := List.exists_of_findSome?_eq_some h
  rw [hdone] at hid
  cases hid

/-- A worker that finds its context ended passes over its index. -/
theorem contextErr_plays [Nonempty ι] (hstage : role.stage = .holding plan fuel index) :
    (tickRoles cfg sem).Plays (contextErr ctx) role fun r role' =>
      index < plan.targets.length ∧ role' = { role with stage :=
        match r with
        | none => .holding plan fuel index
        | some _ => .idle plan fuel } := by
  refine workerOp_plays (by rw [hstage]; trivial) (fun _ => rfl) ?_ ?_
  · intro s stage rest j plan' pool next jobs skipped batches runs input t r _ hpools h hj _ hsem
    rw [hstage] at hj
    obtain rfl : plan = plan' := h.helps_at hj
    have hindex := (h.accounts.index_lt (getElem?_place hj)).1
    cases hsem
    refine ⟨_, .quiet ?_ rfl rfl, hindex, rfl⟩
    cases herr : s.state.contextErr ctx with
    | none =>
      have h' := h
      rw [← set_same hj] at h'
      exact .step rfl rfl hpools h'
    | some err => exact .step rfl rfl hpools (h.skip hj (done_ne_nil herr))
  · intro s pool hpools hnone
    obtain ⟨input⟩ := ‹Nonempty ι›
    have hblocked := hnone { store := input }
    cases hblocked

/-- A worker starts the batch of its target. -/
theorem executeBatch_plays [Nonempty ι] {tickID : Int} {target : CheckerTarget} {flag : String}
    (hstage : role.stage = .holding plan fuel index)
    (htarget : plan.targets[index]? = some target) :
    (tickRoles cfg sem).Plays (executeBatch ctx tickID target flag) role fun batch role' =>
      role' = { role with stage := .running plan fuel ⟨index, target, batch, []⟩ } := by
  refine workerOp_plays (by rw [hstage]; trivial) (fun _ => rfl) ?_ ?_
  · intro s stage rest j plan' pool next jobs skipped batches runs input t r _ hpools h hj _ hsem
    rw [hstage] at hj
    cases hsem
    refine ⟨_, .starts ?_ rfl rfl, rfl⟩
    exact .step rfl rfl hpools (h.start hj htarget)
  · intro s pool hpools hnone
    obtain ⟨input⟩ := ‹Nonempty ι›
    have hblocked := hnone { store := input }
    cases hblocked

/-- A worker records a run. -/
theorem recordRun_plays [Nonempty ι] {run : CheckerRunRecord}
    (hstage : role.stage = .running plan fuel job) :
    (tickRoles cfg sem).Plays (store ctx (.recordCheckerRun run)) role fun r role' =>
      (∃ answer, r = .ok answer) ∧
        role' =
          { role with stage := .running plan fuel { job with runs := job.runs ++ [run] } } := by
  refine .bind (Q := fun (r : Except StoreError GameCheckerRun) role' =>
    (∃ answer, r = .ok answer) ∧
    role' = { role with stage := .running plan fuel { job with runs := job.runs ++ [run] } })
      (workerOp_plays (by rw [hstage]; trivial) (fun _ => rfl) ?_ ?_) ?_
  · intro s stage rest j plan' pool next jobs skipped batches runs input t r _ hpools h hj hal hsem
    rw [hstage] at hj
    obtain ⟨answer, hanswer⟩ := hal.answer
    obtain ⟨hstate, hr⟩ := Prod.mk.inj (Option.some.inj hsem)
    have hr' : r = (Except.ok answer : Except StoreError GameCheckerRun) := hr.symm.trans hanswer
    subst hr' hstate
    refine ⟨_, .records ?_ rfl rfl, ⟨answer, rfl⟩, rfl⟩
    exact .step rfl rfl hpools (h.record hj)
  · intro s pool hpools hnone
    obtain ⟨input⟩ := ‹Nonempty ι›
    have hblocked := hnone { store := input }
    cases hblocked
  · rintro r role' ⟨⟨answer, rfl⟩, rfl⟩
    exact .pure ⟨⟨answer, rfl⟩, rfl⟩

/-- A worker hands in the result of a complete job. -/
theorem poolResult_plays [Nonempty ι] (hstage : role.stage = .running plan fuel job)
    (hcomplete : PhaseRuns plan.tickID job.target job.batch cfg.checkerPhases false job.runs) :
    (tickRoles cfg sem).Plays (poolResult 0 job.index (countRuns job.runs) none) role fun r role' =>
      r = false ∧ role' = { role with stage := .idle plan fuel } := by
  refine workerOp_plays (by rw [hstage]; trivial) (fun _ => rfl) ?_ ?_
  · intro s stage rest j plan' pool next jobs skipped batches runs input t r _ hpools h hj _ hsem
    rw [hstage] at hj
    simp only [serverSem, hpools, List.getElem?_cons_zero, Option.bind_eq_bind,
      Option.bind_some] at hsem
    cases hsem
    refine ⟨_, .quiet ?_ rfl rfl, ?_, rfl⟩
    · exact .step rfl rfl rfl (h.finish hj hcomplete)
    · rw [h.firstErr]
      rfl
  · intro s pool hpools hnone
    obtain ⟨input⟩ := ‹Nonempty ι›
    have hblocked := hnone { store := input }
    simp only [serverSem, hpools, List.getElem?_cons_zero, Option.bind_eq_bind,
      Option.bind_some] at hblocked
    cases hblocked

theorem countRuns_concat (runs : List CheckerRunRecord) (run : CheckerRunRecord) :
    countRuns (runs ++ [run]) = (countRuns runs).count run.status := by
  rw [countRuns, List.foldl_append]
  rfl

/-- The clock and the codec tell a worker nothing. -/
theorem stay_plays [Nonempty ι] {op : ServerOp} (hop : LeavesPool op)  :
    (tickRoles cfg sem).Plays (Proc.perform op) role fun _ role' => role' = role :=
  quiet_plays hop fun hi hs _ _ =>
    ⟨role.knows, role.knows.stable (hs.knows role (List.mem_of_getElem? hi)), rfl⟩

theorem issueStoredFlag_plays [Nonempty ι] {tickID : Int} {target : CheckerTarget}
    {flagValue : String}
    {run : CheckerRunRecord} :
      (tickRoles cfg sem).Plays (issueStoredFlag ctx tickID target flagValue run)
      role fun r role' => r = .ok () ∧ role'.stage = role.stage := by
  refine .ite (fun _ => ?_) fun _ => .pure ⟨rfl, rfl⟩
  have hop :
      LeavesPool (.store ctx (.issueFlag (issuedFlag tickID target flagValue run.checkedAt))) :=
    trivial
  exact store_plays hop fun _ => ⟨rfl, rfl⟩

/-- The phase loop of a worker, by induction on the phases that are left. -/
theorem runPhases_plays [Nonempty ι] {flagValue : String} {phases : List String} {halted : Bool}
    (hstage : role.stage = .running plan fuel job) :
    (tickRoles cfg sem).Plays
      (runPhases ctx plan.tickID job.target flagValue job.batch phases halted
        (countRuns job.runs)) role fun r role' =>
      ∃ runs, PhaseRuns plan.tickID job.target job.batch phases halted runs ∧
        r = (countRuns (job.runs ++ runs), none) ∧
        role'.stage = .running plan fuel { job with runs := job.runs ++ runs } := by
  induction phases generalizing role job halted with
  | nil =>
    refine .pure ⟨[], .nil, ?_, ?_⟩
    · rw [List.append_nil]
    · rw [hstage, List.append_nil]
  | cons phase phases ih =>
    refine .bind (stay_plays trivial) ?_
    rintro runTime _ rfl
    generalize hrun : phaseRun plan.tickID job.target job.batch halted runTime phase = out
    obtain ⟨run, halted'⟩ := out
    refine .bind (recordRun_plays hstage) ?_
    rintro _ _ ⟨⟨answer, rfl⟩, rfl⟩
    refine .bind issueStoredFlag_plays ?_
    rintro _ role₂ ⟨rfl, hstage₂⟩
    dsimp only at hstage₂ ⊢
    rw [← countRuns_concat]
    refine (ih hstage₂).weaken ?_
    rintro r role' ⟨runs, hruns, hr, hstage'⟩
    refine ⟨run :: runs, .cons hrun hruns, ?_, ?_⟩
    · rw [hr, List.append_assoc, List.singleton_append]
    · rw [hstage', List.append_assoc, List.singleton_append]

theorem runCheckerTarget_plays [Nonempty ι] {target : CheckerTarget}
    (hstage : role.stage = .holding plan fuel index)
    (htarget : plan.targets[index]? = some target) :
    (tickRoles cfg sem).Plays (runCheckerTarget cfg ctx plan.tickID target) role fun r role' =>
      ∃ job, job.index = index ∧ r = (countRuns job.runs, none) ∧
      role'.stage = .running plan fuel job ∧
        PhaseRuns plan.tickID job.target job.batch cfg.checkerPhases false job.runs := by
  refine .bind (stay_plays trivial) ?_
  rintro codec _ rfl
  refine .bind (executeBatch_plays hstage htarget) ?_
  rintro batch role₂ h₂
  have hstage₂ : role₂.stage = .running plan fuel ⟨index, target, batch, []⟩ := by rw [h₂]
  refine (runPhases_plays hstage₂).weaken ?_
  rintro r role' ⟨runs, hruns, rfl, hstage'⟩
  exact ⟨_, rfl, rfl, hstage', hruns⟩

/-- A worker, by induction on the indices that it can take. -/
theorem worker_plays [Nonempty ι] (hstage : role.stage = .idle plan fuel) :
    (tickRoles cfg sem).Plays (worker cfg 0 ctx plan.tickID plan.targets fuel) role fun _ role' =>
      role'.stage = .left plan := by
  induction fuel generalizing role with
  | zero => exact poolDone_idle hstage
  | succ fuel ih =>
    refine .bind (poolReceive_plays hstage) ?_
    rintro (_ | index) _ rfl
    · exact poolDone_plays rfl
    · refine .bind (contextErr_plays rfl) ?_
      rintro err _ ⟨hindex, rfl⟩
      cases err with
      | some err => exact ih rfl
      | none =>
        dsimp only
        rw [List.getElem?_eq_getElem hindex]
        refine .bind (runCheckerTarget_plays rfl (List.getElem?_eq_getElem hindex)) ?_
        rintro _ role₂ ⟨job, rfl, rfl, hstage₂, hcomplete⟩
        refine .bind (.bind (poolResult_plays hstage₂ hcomplete) ?_) fun _ role' h => ih h
        rintro _ _ ⟨rfl, rfl⟩
        exact .pure rfl

end Workers

end ADPlatform.GameCore
