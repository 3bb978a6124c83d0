import ADPlatform.GameCore.TickTotals

/-! # Ticks that run into their timeout

The deadline that cuts off the checkers of a tick is the deadline of the context by which their runs
are recorded. `timeout_kept` says what a tick leaves behind when no run is recorded behind the
deadline; a worker that is inside a target at that time makes the whole tick fail
(`timeout_lost`). -/

namespace ADPlatform.GameCore
open Concurrent Text ServerProc Server

variable {σ : Type} {ι : Type v}

/-! ## Steps -/

/-- A store call fails exactly when its context has ended. -/
def FailsWhenDone (sem : StoreSem σ ι) (input : ServerInput ι) : ServerOp → LoggedServer σ → Prop
  | .store ctx call, s =>
    (sem input.store (s.state.contextErr ctx) s.state.store call).2.isOk = true ↔
      s.state.contextErr ctx = none
  | _, _ => True

/-- A store call finds its context alive, and the look that the tick takes at the context of its
checker runs comes behind the deadline. -/
def OnTime (cfg : ServerConfig) : ServerOp → LoggedServer σ → Prop
  | .store ctx _, s => s.state.contextErr ctx = none
  | .contextErr ctx, s => ctx = runContext cfg → s.state.contextErr ctx = some .deadlineExceeded
  | _, _ => True

instance decidableFailsWhenDone {sem : StoreSem σ ι} {input : ServerInput ι} {s : LoggedServer σ} :
    (op : ServerOp) → Decidable (FailsWhenDone sem input op s)
  | .store ctx call => inferInstanceAs
      (Decidable ((sem input.store (s.state.contextErr ctx) s.state.store call).2.isOk = true ↔
        s.state.contextErr ctx = none))
  | .clock | .loadCodec | .reloadFlagFormat _ | .executeBatch .. | .contextNew _ | .contextCancel ..
  | .contextErr _ | .poolNew .. | .poolSend .. | .poolClose _ | .poolReceive _ | .poolResult ..
  | .poolDone _ | .poolWait _ | .scheduleScoreboardRecompute | .reconcileAccess _
  | .tickReturned _ =>
    isTrue trivial

instance decidableOnTime {cfg : ServerConfig} {s : LoggedServer σ} :
    (op : ServerOp) → Decidable (OnTime cfg op s)
  | .store ctx _ => inferInstanceAs (Decidable (s.state.contextErr ctx = none))
  | .contextErr ctx => inferInstanceAs
      (Decidable (ctx = runContext cfg → s.state.contextErr ctx = some .deadlineExceeded))
  | .clock | .loadCodec | .reloadFlagFormat _ | .executeBatch .. | .contextNew _ | .contextCancel ..
  | .poolNew .. | .poolSend .. | .poolClose _ | .poolReceive _ | .poolResult .. | .poolDone _
  | .poolWait _ | .scheduleScoreboardRecompute | .reconcileAccess _ | .tickReturned _ =>
    isTrue trivial

variable {cfg : ServerConfig} {sem : StoreSem σ ι}

theorem Succeeds.of_onTime {input : ServerInput ι} {op : ServerOp} {s : LoggedServer σ}
    (hstore : FailsWhenDone sem input op s) (htime : OnTime cfg op s) :
      Succeeds sem input op s := by
  cases op with
  | store => exact hstore.mpr htime
  | _ => trivial

/-! ## What a tick keeps -/

/-- The targets that have runs. -/
def coveredTargets (plan : TickPlan) (jobs : List Job) : Nat :=
  (runsOf plan.targets.length jobs).countP (· ≠ [])

/-- The tick is completed with the message of its timeout. Every target whose batch was started has
a run for each phase; where the batch was cut off, the first failed and the others are skipped. -/
inductive TimeoutKept (cfg : ServerConfig) (log : ServerLog) :
    Except StoreError GameTickStatus → Prop
  | kept {completed answer : GameTickStatus} {plan : TickPlan} {jobs : List Job}
      (hcompleted : log.Stored (.completeTick completed) answer)
      (hstatus : completed.status = .completed)
      (hmessage : completed.message =
        s!"tick timed out after covering {coveredTargets plan jobs} of {plan.targets.length} targets ({cfg.checkerPhases.length} phases configured)")
      (hjobs : JobsOf cfg log plan jobs)
      (hcut : ∀ job ∈ jobs, ∀ e, job.batch = .error e → job.runs.map (·.status) =
        ("failed" :: .replicate cfg.checkerPhases.length "skipped").take cfg.checkerPhases.length) :
      TimeoutKept cfg log (.ok answer)

theorem reachedStatuses_error (e : String) (phases : List String) :
    reachedStatuses (.error e) phases =
    ("failed" :: .replicate phases.length "skipped").take phases.length := by
  cases phases with
  | nil => rfl
  | cons phase phases =>
    have hfailed : phaseStatus (.error e) phase = some "failed" := rfl
    rw [reachedStatuses, hfailed]
    simp [List.map_const']

theorem JobsOf.covered {log : ServerLog} {plan : TickPlan} {jobs : List Job}
    (h : JobsOf cfg log plan jobs) :
    (resultsOf plan.targets.length jobs).countP (0 < ·.total) = coveredTargets plan jobs := by
  rw [resultsOf_eq, List.countP_map]
  refine List.countP_congr fun runs hruns => ?_
  rw [Function.comp_apply, countRuns_eq runs (h.statuses runs hruns)]
  simp [List.length_pos_iff]

/-- A tick that found its deadline over. -/
theorem TickResult.after_deadline {log : ServerLog} {r : Except StoreError GameTickStatus}
    (htimeout : cfg.tickTimeout = true)
    (hlook : ∀ err : Option CtxError, ⟨.contextErr (runContext cfg), err⟩ ∈ log →
      err = some .deadlineExceeded)
    (h : TickResult cfg log r) : TimeoutKept cfg log r ∨ ∃ e, r = .error e ∧
      log.NotRunning cfg e := by
  cases h with
  | refused hstatus => exact .inr ⟨_, rfl, hstatus⟩
  | @completed startedAt completedAt tick completed answer listed plan jobs err _ _ _ hjobs _
      herr hfinished
      hcompleted =>
    obtain rfl := hlook err herr
    subst hfinished
    refine .inl (.kept hcompleted rfl ?_ hjobs fun job hjob e he => ?_)
    · rw [← hjobs.covered]
      show ite _ _ _ = _
      rw [htimeout]
      rfl
    · rw [(hjobs.complete job hjob).2.statuses, he]
      exact reachedStatuses_error e cfg.checkerPhases

/-- In a run whose steps are on time, a tick keeps what it promises. -/
theorem timeout_kept [Nonempty ι] (cfg : ServerConfig) (htimeout : cfg.tickTimeout = true)
    (sem : StoreSem σ ι) (store : σ) (codec : FlagCodec)
    (k : Except StoreError GameTickStatus → Thread ServerOp ServerOp.Res)
    (ls : List (Label ContextEnd (ServerInput ι)))
    (hls : (tickMachine cfg store codec k).RunAllowed (serverSem sem).logged ContextEnd.handler
      (fun input op s => FailsWhenDone sem input op s ∧ OnTime cfg op s) ls) :
    (∃ ls₁ ls₂ r, ls = ls₁ ++ ls₂ ∧
      ((tickMachine cfg store codec k).run (serverSem sem).logged ContextEnd.handler
        ls₁).threads[0]? =
        some (k r) ∧
      let log := ((tickMachine cfg store codec k).run (serverSem sem).logged ContextEnd.handler
        ls₁).shared.log
      (TimeoutKept cfg log r ∨ ∃ e, r = .error e ∧ ServerLog.NotRunning cfg log e)) ∨
    ∃ m', ((tickMachine cfg store codec k).run (serverSem sem).logged ContextEnd.handler ls).Moves
      (serverSem sem).logged m' := by
  refine (tick_returns_or_moves (hls.mono fun _ _ _ h => Succeeds.of_onTime h.1 h.2)).imp ?_ id
  rintro ⟨ls₁, ls₂, r, rfl, hthread, hresult⟩
  refine ⟨ls₁, ls₂, r, rfl, hthread, hresult.after_deadline htimeout fun err herr => ?_⟩
  let P (e : (op : ServerOp) × op.Res) : Prop :=
    ∀ err : Option CtxError, e = ⟨.contextErr (runContext cfg), err⟩ → err = some .deadlineExceeded
  have hlog := log_run (P := P) ?_ hls.append_left fun e he => nomatch he
  · exact hlog _ herr err rfl
  · rintro input op s t r ⟨-, htime⟩ hsem err heq
    cases heq
    obtain ⟨-, rfl⟩ := Prod.mk.inj (Option.some.inj hsem)
    exact htime rfl

/-! ### A deadline between two targets, and inside one -/

/-- The in-memory store behind calls that fail once their context has ended. -/
def contextStore : StoreSem (MemoryGameStore ℚ) Go.Runtime := fun rt err s call =>
  match err with
  | none => s.exec rt squareMath plainConfig.crypto call
  | some err => (s, .error (.failure err.text))

/-- The tick and its worker take turns. -/
def turns (n : Nat) (batch : Except String (List CheckerPhaseResult)) :
    List (Label ContextEnd (ServerInput Go.Runtime)) :=
  (List.range n).map fun turn => .step (turn % 2) { store := .inOrder, batch }

/-- The deadline is over after `n` turns. -/
def deadlineAt (n : Nat) : List (Label ContextEnd (ServerInput Go.Runtime)) :=
  turns n (.ok []) ++ [.arrive ⟨1, .deadlineExceeded⟩, .step 2 { store := .inOrder }] ++
    turns 60 (.error "context deadline exceeded")

/-- A thread that ends where the tick has an error, and goes on where it has an answer. -/
def unlessError : Except StoreError GameTickStatus → Thread ServerOp ServerOp.Res
  | .ok _ => .call .clock fun _ => .done
  | .error _ => .done

/-- All threads end, and the tick has its answer. -/
theorem timeout_kept_betweenTargets :
    let m := (tickMachine plainConfig runningMatch plainCodec unlessError).run
      (serverSem contextStore).logged
      ContextEnd.handler
    ∃ ls₁ ls₂ r, deadlineAt 42 = ls₁ ++ ls₂ ∧ (m ls₁).threads[0]? = some (unlessError r) ∧
      (TimeoutKept plainConfig (m ls₁).shared.log r ∨
        ∃ e, r = .error e ∧ ServerLog.NotRunning plainConfig (m ls₁).shared.log e) :=
  have : Nonempty Go.Runtime := ⟨.inOrder⟩
  (timeout_kept plainConfig rfl contextStore runningMatch plainCodec unlessError (deadlineAt 42)
    (by decide +kernel)).resolve_right (Machine.not_moves_of_isDone (by decide +kernel))

/-- A tick has been started. -/
def ServerLog.Begun (log : ServerLog) : Prop :=
  ∃ e ∈ log, ∃ now, e.1 = .store 0 (.startNextTick now)

instance (log : ServerLog) : Decidable log.Begun :=
  decidable_of_iff (log.any fun e => match e.1 with
    | .store 0 (.startNextTick _) => true
    | _ => false) (by
      rw [List.any_eq_true]
      refine exists_congr fun e => and_congr_right fun _ => ?_
      split
      · rename_i now hop
        exact iff_of_true rfl ⟨now, hop⟩
      · rename_i hne
        exact iff_of_false Bool.false_ne_true fun ⟨now, hop⟩ => hne now hop)

/-- The worker is inside the batch of its first target when the deadline is over. -/
theorem timeout_lost :
    ¬ ∀ (cfg : ServerConfig) (sem : StoreSem (MemoryGameStore ℚ) Go.Runtime)
      (store : MemoryGameStore ℚ)
      (codec : FlagCodec) (k : Except StoreError GameTickStatus → Thread ServerOp ServerOp.Res)
      (ls : List (Label ContextEnd (ServerInput Go.Runtime))),
      cfg.tickTimeout = true → (∀ e, .arrive e ∈ ls → e = ⟨1, .deadlineExceeded⟩) →
      (tickMachine cfg store codec k).RunAllowed (serverSem sem).logged ContextEnd.handler
        (FailsWhenDone sem) ls →
      let m := (tickMachine cfg store codec k).run (serverSem sem).logged ContextEnd.handler ls
      ServerLog.Begun m.shared.log → ServerLog.Fired m.shared.log →
      (∃ r, m.threads[0]? = some (k r)) →
        ∃ r, m.threads[0]? = some (k r) ∧ TimeoutKept cfg m.shared.log r := by
  intro h
  have hdone : ((tickMachine plainConfig runningMatch plainCodec unlessError).run
    (serverSem contextStore).logged
      ContextEnd.handler (deadlineAt 26)).threads[0]?.map (·.isDone) = some true := by
    decide +kernel
  have hfired : ((tickMachine plainConfig runningMatch plainCodec unlessError).run
      (serverSem contextStore).logged ContextEnd.handler (deadlineAt 26)).shared.log.any
        ServerLog.cancels = true := by decide +kernel
  have harrive : ∀ e, .arrive e ∈ deadlineAt 26 → e = ⟨1, .deadlineExceeded⟩ := by
    intro e he
    simpa [deadlineAt, turns] using he
  obtain ⟨t, ht, hisDone⟩ := Option.map_eq_some_iff.mp hdone
  obtain rfl := Thread.eq_done_of_isDone hisDone
  obtain ⟨r, hr, hkept⟩ :=
    h plainConfig contextStore runningMatch plainCodec unlessError (deadlineAt 26) rfl
    harrive (by decide) (by
      decide +kernel) (List.any_eq_true.mp hfired) ⟨.error .noRows, ht⟩
  cases hkept with
  | kept => cases Option.some.inj (ht.symm.trans hr)

end ADPlatform.GameCore
