import ADPlatform.GameCore.CycleSummary

/-! # The backfill of the service states

Migration 0020 computes the states of past ticks with aggregates over `checker_runs`, where the
server folds the runs one by one. Both read the same three facts about each phase (`flags_foldl`),
which no order of the runs changes. -/

namespace ADPlatform.GameCore
open Text

/-! ## The migration -/

/-- `MAX(CASE WHEN … THEN 1 ELSE 0 END)`. -/
def maxCase (p : GameCheckerRun → Bool) (runs : List GameCheckerRun) : Nat :=
  (runs.map fun run => if p run then 1 else 0).foldr max 0

/-- `MAX(CASE WHEN phase = … THEN NULLIF(message, '') END)`; `maxText` is the maximum of texts in
the order of the database. -/
def maxMessage (maxText : List String → Option String) (phase : String)
    (runs : List GameCheckerRun) :
    Option String :=
  maxText ((runs.filter fun run => run.phase = phase && run.message ≠ "").map (·.message))

/-- The row that the migration inserts for the runs of a key. -/
def backfillRow (maxText : List String → Option String) (key : CheckerRunGroupKey)
    (runs : List GameCheckerRun) : ServiceStateRow :=
  let putOK := maxCase (fun run => run.phase = "put" && run.status = "success") runs
  let getOK := maxCase (fun run => run.phase = "get" && run.status = "success") runs
  let checkOK := maxCase (fun run => run.phase = "check" && run.status = "success") runs
  let putFailed := maxCase (fun run => run.phase = "put" && run.status ≠ "success") runs
  let getFailed := maxCase (fun run => run.phase = "get" && run.status ≠ "success") runs
  let checkFailed := maxCase (fun run => run.phase = "check" && run.status ≠ "success") runs
  let putMessage := maxMessage maxText "put" runs
  let getMessage := maxMessage maxText "get" runs
  let checkMessage := maxMessage maxText "check" runs
  { key
    serviceState :=
      if putOK = 1 && getOK = 1 && checkOK = 1 then "ok"
      else if putOK = 0 && getOK = 1 && checkOK = 1 then "recovering"
      else if putOK = 1 && getOK = 0 then "flag_not_found"
      else if putOK = 1 && getOK = 1 && checkOK = 0 then "faulty"
      else "down"
    statePhase :=
      if putOK = 1 && getOK = 1 && checkOK = 1 then "check"
      else if putOK = 0 && getOK = 1 && checkOK = 1 then "put"
      else if putOK = 1 && getOK = 0 then "get"
      else if putOK = 1 && getOK = 1 && checkOK = 0 then "check"
      else if putFailed = 1 then "put"
      else if getFailed = 1 then "get"
      else if checkFailed = 1 then "check"
      else ""
    stateMessage :=
      if putOK = 1 && getOK = 1 && checkOK = 1 then
        "service passed storage, retrieval, and functionality checks"
      else if putOK = 0 && getOK = 1 && checkOK = 1 then
        putMessage.getD "flag storage failed but retrieval and functionality still passed"
      else if putOK = 1 && getOK = 0 then
        getMessage.getD "checker could not retrieve the stored flag"
      else if putOK = 1 && getOK = 1 && checkOK = 0 then
        checkMessage.getD "service functionality check failed"
      else if putFailed = 1 then putMessage.getD "service did not complete the latest checker cycle"
      else if getFailed = 1 then getMessage.getD "service did not complete the latest checker cycle"
      else if checkFailed = 1 then
        checkMessage.getD "service did not complete the latest checker cycle"
      else "service did not complete the latest checker cycle" }

/-- The rows that migration 0020 inserts, one for each key that has no row yet. -/
def backfillRows (maxText : List String → Option String) (checkerRuns : List GameCheckerRun) :
    List ServiceStateRow :=
  (checkerRuns.map (·.key)).dedup.map fun key =>
    backfillRow maxText key (checkerRuns.filter (·.key = key))

theorem maxCase_eq (p : GameCheckerRun → Bool) (runs : List GameCheckerRun) :
    maxCase p runs = if runs.any p then 1 else 0 := by
  induction runs with
  | nil => rfl
  | cons run runs ih =>
    have hcons : maxCase p (run :: runs) = max (if p run then 1 else 0) (maxCase p runs) := rfl
    rw [hcons, ih, List.any_cons]
    cases p run <;> cases runs.any p <;> rfl

/-! ## What the summary reads -/

/-- What the status and the phase of a summary depend on: whether the phase has a run, one that
succeeded, and one that failed. -/
def TickPhaseState.flags (state : TickPhaseState) : Bool × Bool × Bool :=
  (state.run.isSome, state.success, state.failed)

theorem flags_update (state : TickPhaseState) (run : GameCheckerRun) :
    (state.update run).flags = (true, state.success || toLower (trimSpace run.status) = "success",
      state.failed || toLower (trimSpace run.status) = "failed") := by
  have hrun : (if shouldReplacePhaseRun state.run run then
      { state with run := some run } else state).run.isSome = true := by
    cases hstate : state.run with
    | none => rfl
    | some old =>
      split
      · rfl
      · rw [hstate]
        rfl
  generalize hreplaced : (if shouldReplacePhaseRun state.run run then
    { state with run := some run } else state) = replaced at hrun
  have hsuccess : replaced.success = state.success := by
    rw [← hreplaced]
    split <;> rfl
  have hfailed : replaced.failed = state.failed := by
    rw [← hreplaced]
    split <;> rfl
  unfold TickPhaseState.update TickPhaseState.flags
  rw [hreplaced]
  dsimp only
  split
  · rename_i hstatus
    simp [hstatus, hrun, hfailed]
  · rename_i hstatus
    simp [hstatus, hrun, hsuccess]
  · rename_i hsuccess' hfailed'
    have hnone : replaced.run.isNone = false := by
      rw [← Option.not_isSome, hrun]
      rfl
    rw [hnone, if_neg Bool.false_ne_true, hrun, hsuccess, hfailed, decide_eq_false hsuccess',
      decide_eq_false hfailed', Bool.or_false, Bool.or_false]

/-- The flags of a phase, from those of its runs. -/
theorem flags_foldl (runs : List GameCheckerRun) (state : TickPhaseState) :
    (runs.foldl TickPhaseState.update state).flags =
      (state.run.isSome || !runs.isEmpty,
        state.success || runs.any fun run => toLower (trimSpace run.status) = "success",
        state.failed || runs.any fun run => toLower (trimSpace run.status) = "failed") := by
  induction runs generalizing state with
  | nil => simp [TickPhaseState.flags]
  | cons run runs ih =>
    obtain ⟨hsome, hsuccess, hfailed⟩ : _ ∧ _ ∧ _ := by
      simpa only [TickPhaseState.flags, Prod.mk.injEq] using flags_update state run
    rw [List.foldl_cons, ih, hsome, hsuccess, hfailed]
    simp only [List.isEmpty_cons, Bool.not_false, Bool.or_true, Bool.true_or, List.any_cons,
      Bool.or_assoc]

theorem flags_collect (runs : List GameCheckerRun) {phase : String}
    (hphase : phase ∈ checkerPhaseOrder) :
    ((collectTickPhaseStates runs).at phase).flags =
      (runs.any fun run => toLower (trimSpace run.phase) = phase,
        runs.any fun run => toLower (trimSpace run.phase) = phase &&
          toLower (trimSpace run.status) = "success",
        runs.any fun run => toLower (trimSpace run.phase) = phase &&
          toLower (trimSpace run.status) = "failed") := by
  rw [collectTickPhaseStates_at runs (toLower_checkerPhaseOrder phase hphase).2, flags_foldl]
  simp only [List.any_filter, Bool.false_or, Option.isSome_none]
  congr 1
  rw [Bool.eq_iff_iff]
  simp [List.filter_eq_nil_iff]

theorem orUnavailable_phase (summary : GameServiceStateSummary) :
    summary.orUnavailable.phase = summary.phase := by
  unfold GameServiceStateSummary.orUnavailable
  split <;> rfl

/-- Phases with the same flags have summaries with the same status and phase. -/
theorem cycleSummary_congr {phases phases' : TickPhases} (tickID : Int)
    (h : ∀ phase ∈ checkerPhaseOrder, (phases.at phase).flags = (phases'.at phase).flags) :
    (cycleSummary phases tickID).status = (cycleSummary phases' tickID).status ∧
      (cycleSummary phases tickID).phase = (cycleSummary phases' tickID).phase := by
  have hflags : ∀ phase ∈ checkerPhaseOrder,
      (phases.at phase).run.isSome = (phases'.at phase).run.isSome ∧
        (phases.at phase).success = (phases'.at phase).success ∧
        (phases.at phase).failed = (phases'.at phase).failed := by
    simpa only [TickPhaseState.flags, Prod.mk.injEq] using h
  simp only [checkerPhaseOrder, List.forall_mem_cons, List.not_mem_nil, IsEmpty.forall_iff,
    implies_true, and_true] at hflags
  obtain ⟨⟨hput, hputOK, hputFailed⟩, ⟨hget, hgetOK, hgetFailed⟩, hcheck, hcheckOK, hcheckFailed⟩ :=
    hflags
  have hrunning : checkerCycleStillRunning phases = checkerCycleStillRunning phases' := by
    simp only [checkerCycleStillRunning, checkerCycleStillRunning.go, checkerPhaseOrder,
      TickPhaseState.broken, ← Option.not_isSome, hput, hputOK, hputFailed, hget,
      hgetOK, hgetFailed,
      hcheck, hcheckOK, hcheckFailed]
  have hmissing : nextMissingCheckerPhase phases = nextMissingCheckerPhase phases' := by
    simp only [nextMissingCheckerPhase, checkerPhaseOrder, List.find?_cons, List.find?_nil,
      ← Option.not_isSome, hput, hget, hcheck]
  have hdominant : dominantFailurePhase phases = dominantFailurePhase phases' := by
    simp only [dominantFailurePhase, checkerPhaseOrder, List.find?_cons, List.find?_nil,
      TickPhaseState.broken, hput, hputOK, hputFailed, hget, hgetOK, hgetFailed, hcheck, hcheckOK,
      hcheckFailed]
  unfold cycleSummary
  rw [hrunning, hmissing, hdominant, hputOK, hgetOK, hcheckOK]
  dsimp only
  constructor
  · split_ifs <;> rfl
  · split_ifs <;> rfl

/-- A completed cycle: every phase has a run, and the runs of the phases have a phase and a status
of `runCheckerTarget`, as it writes them. -/
structure CompletedCycle (runs : List GameCheckerRun) : Prop where
  recorded : ∀ phase ∈ checkerPhaseOrder, ∃ run ∈ runs, run.phase = phase
  plain : ∀ run ∈ runs, toLower (trimSpace run.phase) ∈ checkerPhaseOrder →
    run.phase ∈ checkerPhaseOrder ∧ run.status ∈ runStatuses

namespace CompletedCycle
variable {runs : List GameCheckerRun}

theorem any_success (h : CompletedCycle runs) {phase : String}
    (hphase : phase ∈ checkerPhaseOrder) :
    (runs.any fun run => toLower (trimSpace run.phase) = phase &&
      toLower (trimSpace run.status) = "success") =
      runs.any fun run => run.phase = phase && run.status = "success" := by
  rw [Bool.eq_iff_iff, List.any_eq_true, List.any_eq_true]
  refine exists_congr fun run => and_congr_right fun hrun => ?_
  simp only [Bool.and_eq_true, decide_eq_true_eq]
  constructor
  · rintro ⟨hlower, hstatus⟩
    obtain ⟨hplain, hplain'⟩ := h.plain run hrun (hlower ▸ hphase)
    rw [(toLower_checkerPhaseOrder _ hplain).1] at hlower
    rw [toLower_runStatuses _ hplain'] at hstatus
    exact ⟨hlower, hstatus⟩
  · rintro ⟨rfl, hstatus⟩
    rw [(toLower_checkerPhaseOrder _ hphase).1, hstatus]
    exact ⟨rfl, by decide +kernel⟩

theorem success_eq (h : CompletedCycle runs) {phase : String} (hphase : phase ∈ checkerPhaseOrder) :
    ((collectTickPhaseStates runs).at phase).success =
      runs.any fun run => run.phase = phase && run.status = "success" := by
  have hflags := congrArg (fun flags => flags.2.1) (flags_collect runs hphase)
  exact hflags.trans (h.any_success hphase)

/-- A completed cycle is not running any more. -/
theorem not_running (h : CompletedCycle runs) :
    checkerCycleStillRunning (collectTickPhaseStates runs) = false := by
  have hsome : ∀ phase ∈ checkerPhaseOrder,
      ((collectTickPhaseStates runs).at phase).run.isNone = false := by
    intro phase hphase
    have hflags := congrArg (fun flags => flags.1) (flags_collect runs hphase)
    obtain ⟨run, hrun, rfl⟩ := h.recorded phase hphase
    rw [← Option.not_isSome, Bool.not_eq_false']
    refine hflags.trans (List.any_eq_true.mpr ⟨run, hrun, ?_⟩)
    rw [(toLower_checkerPhaseOrder _ hphase).1]
    exact decide_eq_true rfl
  simp only [checkerCycleStillRunning, checkerCycleStillRunning.go, checkerPhaseOrder,
    hsome "put" (by decide), hsome "get" (by decide), hsome "check" (by decide), Bool.false_eq_true,
    if_false, ite_self]

/-- The state that the migration computes is the one of the summary. -/
theorem backfillRow_serviceState (h : CompletedCycle runs) (maxText : List String → Option String)
    (key : CheckerRunGroupKey) : (backfillRow maxText key runs).serviceState =
      (summarizeCheckerRunsForTick runs key.tickID).status := by
  have hne : runs ≠ [] := by
    rintro rfl
    obtain ⟨run, hrun, -⟩ := h.recorded "put" (by decide)
    cases hrun
  rw [summarize_eq hne, orUnavailable_status]
  unfold cycleSummary backfillRow
  rw [h.not_running, if_neg Bool.false_ne_true, h.success_eq (by decide), h.success_eq (by decide),
    h.success_eq (by decide)]
  dsimp only
  rw [maxCase_eq, maxCase_eq, maxCase_eq]
  cases runs.any fun run => run.phase = "put" && run.status = "success" <;>
    cases runs.any fun run => run.phase = "get" && run.status = "success" <;>
      cases runs.any fun run => run.phase = "check" && run.status = "success" <;> rfl

end CompletedCycle

theorem summary_perm {runs runs' : List GameCheckerRun} (h : runs.Perm runs') (tickID : Int) :
    (summarizeCheckerRunsForTick runs tickID).status =
        (summarizeCheckerRunsForTick runs' tickID).status ∧
      (summarizeCheckerRunsForTick runs tickID).phase =
        (summarizeCheckerRunsForTick runs' tickID).phase := by
  by_cases hne : runs = []
  · subst hne
    rw [List.nil_perm.mp h]
    exact ⟨rfl, rfl⟩
  have hne' : runs' ≠ [] := fun h' => hne (List.perm_nil.mp (h' ▸ h))
  have hany (p : GameCheckerRun → Bool) : runs.any p = runs'.any p := by
    rw [Bool.eq_iff_iff, List.any_eq_true, List.any_eq_true]
    exact exists_congr fun run => and_congr_left' h.mem_iff
  rw [summarize_eq hne, summarize_eq hne', orUnavailable_status, orUnavailable_status,
    orUnavailable_phase, orUnavailable_phase]
  refine cycleSummary_congr tickID fun phase hphase => ?_
  rw [flags_collect runs hphase, flags_collect runs' hphase, hany, hany, hany]

/-- The status and the phase of a summary do not depend on the order of the runs, and the migration
selects the same state for every completed cycle. -/
theorem summary_order_and_backfill (maxText : List String → Option String) :
    (∀ (runs runs' : List GameCheckerRun) (tickID : Int), runs.Perm runs' →
      (summarizeCheckerRunsForTick runs tickID).status =
          (summarizeCheckerRunsForTick runs' tickID).status ∧
        (summarizeCheckerRunsForTick runs tickID).phase =
          (summarizeCheckerRunsForTick runs' tickID).phase) ∧
    ∀ (checkerRuns : List GameCheckerRun) (key : CheckerRunGroupKey),
      CompletedCycle (checkerRuns.filter (·.key = key)) →
        ((backfillRows maxText checkerRuns).find? (·.key = key)).map (·.serviceState) =
          some
            (summarizeCheckerRunsForTick (checkerRuns.filter (·.key = key)) key.tickID).status := by
  refine ⟨fun runs runs' tickID h => summary_perm h tickID, fun checkerRuns key h => ?_⟩
  obtain ⟨run, hrun, -⟩ := h.recorded "put" (by decide)
  have hkey : key ∈ (checkerRuns.map (·.key)).dedup := by
    obtain ⟨hmem, hkey⟩ := List.mem_filter.mp hrun
    exact List.mem_dedup.mpr (List.mem_map.mpr ⟨run, hmem, of_decide_eq_true hkey⟩)
  have hfind : ∀ keys : List CheckerRunGroupKey, key ∈ keys →
      (keys.map fun key => backfillRow maxText key (checkerRuns.filter (·.key = key))).find?
        (·.key = key) = some (backfillRow maxText key (checkerRuns.filter (·.key = key))) := by
    intro keys hmem
    induction keys with
    | nil => cases hmem
    | cons first keys ih =>
      by_cases hfirst : first = key
      · subst hfirst
        exact List.find?_cons_of_pos (decide_eq_true rfl)
      · rw [List.map_cons, List.find?_cons_of_neg (by simpa [backfillRow] using hfirst)]
        exact ih ((List.mem_cons.mp hmem).resolve_left (Ne.symm hfirst))
  rw [backfillRows, hfind _ hkey, Option.map_some, h.backfillRow_serviceState]

/-- A run of the first tick. -/
def tickRun (phase status : String) : GameCheckerRun where
  id := 1
  tickID := 1
  teamID := 101
  teamName := ""
  challengeID := 1
  challengeName := ""
  phase
  target := ""
  checkerImage := ""
  status
  exitCode := 0
  message := ""
  output := ""
  checkedAt := none

/-- A put that failed at first, and a check that is skipped. -/
def retriedCycle : List GameCheckerRun :=
  [tickRun "put" "failed", tickRun "put" "success", tickRun "get" "success",
    tickRun "check" "skipped"]

theorem summary_order_and_backfill_retried :
    ((summarizeCheckerRunsForTick retriedCycle 1).status =
        (summarizeCheckerRunsForTick retriedCycle.reverse 1).status ∧
      (summarizeCheckerRunsForTick retriedCycle 1).phase =
        (summarizeCheckerRunsForTick retriedCycle.reverse 1).phase) ∧
    ((backfillRows List.max? retriedCycle).find? (·.key = ⟨1, 101, 1⟩)).map (·.serviceState) =
      some (summarizeCheckerRunsForTick (retriedCycle.filter (·.key = ⟨1, 101, 1⟩)) 1).status := by
  have hcycle : CompletedCycle (retriedCycle.filter (·.key = ⟨1, 101, 1⟩)) :=
    ⟨by decide, by decide +kernel⟩
  exact ⟨(summary_order_and_backfill List.max?).1 _ _ 1 retriedCycle.reverse_perm.symm,
    (summary_order_and_backfill List.max?).2 _ _ hcycle⟩

end ADPlatform.GameCore
