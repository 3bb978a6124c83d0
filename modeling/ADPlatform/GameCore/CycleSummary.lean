import ADPlatform.GameCore.CheckerTargets

/-! # The service state behind the checkers of a target

The stores keep the state of a service at a run that is skipped, instead of summarising the runs
again. The two agree unless the skipped run is the one that the summary was still waiting for: then
the stored state goes on saying that the cycle is running. -/

namespace ADPlatform.GameCore
open Concurrent Text ServerProc Server

/-! ## The summary of a cycle -/

/-- The state of a phase is what its own runs make of it. -/
theorem collectTickPhaseStates_at (runs : List GameCheckerRun) {phase : String}
    (hphase : phase ≠ "") :
    (collectTickPhaseStates runs).at phase =
      (runs.filter fun run => toLower (trimSpace run.phase) = phase).foldl
        TickPhaseState.update {} := by
  suffices ∀ phases : TickPhases,
      TickPhases.at (runs.foldl collectTickPhaseStates.collect phases) phase =
        (runs.filter fun run => toLower (trimSpace run.phase) = phase).foldl
          TickPhaseState.update (phases.at phase) from this ∅
  induction runs with
  | nil => exact fun _ => rfl
  | cons run runs ih =>
    intro phases
    rw [List.foldl_cons, ih, List.filter_cons]
    by_cases hrun : toLower (trimSpace run.phase) = phase
    · rw [if_pos (decide_eq_true hrun), collect_eq, hrun, if_neg hphase, TickPhases.at_insert,
        if_pos rfl, List.foldl_cons]
    · rw [if_neg (by simpa using hrun), collect_eq]
      split
      · rfl
      · rw [TickPhases.at_insert, if_neg (Ne.symm hrun)]

/-- The state of a phase with one run. -/
def TickPhaseState.ofRun (run : GameCheckerRun) : TickPhaseState :=
  { run := some run, success := run.status = "success", failed := run.status = "failed" }

theorem toLower_runStatuses : ∀ status ∈ runStatuses, toLower (trimSpace status) = status := by
  decide +kernel

theorem toLower_checkerPhaseOrder :
    ∀ phase ∈ checkerPhaseOrder, toLower (trimSpace phase) = phase ∧ phase ≠ "" := by
  decide +kernel

theorem update_one {run : GameCheckerRun} (hrun : run.status ∈ runStatuses) :
    ({} : TickPhaseState).update run = .ofRun run := by
  have hreplace : shouldReplacePhaseRun ({} : TickPhaseState).run run = true := rfl
  unfold TickPhaseState.update TickPhaseState.ofRun
  rw [hreplace, if_pos rfl, toLower_runStatuses _ hrun]
  simp only [runStatuses, List.mem_cons, List.not_mem_nil, or_false] at hrun
  rcases hrun with h | h | h <;> simp [h]

/-- The states of the three phases behind the runs of a put, a get and a check, some of which are
still to come. -/
structure CycleStates (runs : List GameCheckerRun) (put get check : Option GameCheckerRun) :
    Prop where
  put : (collectTickPhaseStates runs).at "put" = (put.map TickPhaseState.ofRun).getD {}
  get : (collectTickPhaseStates runs).at "get" = (get.map TickPhaseState.ofRun).getD {}
  check : (collectTickPhaseStates runs).at "check" = (check.map TickPhaseState.ofRun).getD {}

/-- The states of a phase with at most one run. -/
theorem collect_at_of_filter {runs : List GameCheckerRun} {phase : String}
    {run : Option GameCheckerRun}
    (hphase : phase ∈ checkerPhaseOrder) (hrun : ∀ x ∈ run, x.status ∈ runStatuses)
    (h : (runs.filter fun x => toLower (trimSpace x.phase) = phase) = run.toList) :
    (collectTickPhaseStates runs).at phase = (run.map TickPhaseState.ofRun).getD {} := by
  rw [collectTickPhaseStates_at runs (toLower_checkerPhaseOrder phase hphase).2, h]
  cases run with
  | none => rfl
  | some x => exact update_one (hrun x rfl)

/-- A run of a phase. -/
structure IsRun (phase : String) (run : GameCheckerRun) : Prop where
  phase : toLower (trimSpace run.phase) = phase
  status : run.status ∈ runStatuses

section cycle
variable {put get check : GameCheckerRun} (hput : IsRun "put" put) (hget : IsRun "get" get)
  (hcheck : IsRun "check" check)
include hput

theorem cycleStates_put : CycleStates [put] (some put) none none := by
  constructor <;> refine collect_at_of_filter (by decide) ?_ ?_ <;>
    simp [hput.phase, hput.status]

include hget in
theorem cycleStates_get : CycleStates [get, put] (some put) (some get) none := by
  constructor <;> refine collect_at_of_filter (by decide) ?_ ?_ <;>
    simp [hput.phase, hput.status, hget.phase, hget.status]

include hget hcheck in
theorem cycleStates_check : CycleStates [check, get, put] (some put) (some get) (some check) := by
  constructor <;> refine collect_at_of_filter (by decide) ?_ ?_ <;>
    simp [hput.phase, hput.status, hget.phase, hget.status, hcheck.phase, hcheck.status]

end cycle

/-- The summary of the phase states, before a message that is blank is replaced. -/
def cycleSummary (phases : TickPhases) (tickID : Int) : GameServiceStateSummary :=
  let putOK := (phases.at "put").success
  let getOK := (phases.at "get").success
  let checkOK := (phases.at "check").success
  if checkerCycleStillRunning phases then
    { status := "unknown", phase := nextMissingCheckerPhase phases, tickID
      message := "checker cycle is still running" }
  else if putOK && getOK && checkOK then
    { status := "ok", phase := "check", tickID
      message := "service passed storage, retrieval, and functionality checks" }
  else if !putOK && getOK && checkOK then
    { status := "recovering", phase := "put", tickID
      message := phaseMessage (phases.at "put")
        "flag storage failed but retrieval and functionality still passed" }
  else if putOK && !getOK then
    { status := "flag_not_found", phase := "get", tickID
      message := phaseMessage (phases.at "get") "checker could not retrieve the stored flag" }
  else if putOK && getOK && !checkOK then
    { status := "faulty", phase := "check", tickID
      message := phaseMessage (phases.at "check") "service functionality check failed" }
  else
    { status := "down", phase := dominantFailurePhase phases, tickID
      message := dominantFailureMessage phases }

/-- A summary without a message says that none is available. -/
def GameServiceStateSummary.orUnavailable (summary : GameServiceStateSummary) :
    GameServiceStateSummary :=
  if trimSpace summary.message = "" then
    { summary with message := "service state unavailable for the latest checker tick" }
  else summary

theorem orUnavailable_status (summary : GameServiceStateSummary) :
    summary.orUnavailable.status = summary.status := by
  unfold GameServiceStateSummary.orUnavailable
  split <;> rfl

theorem summarize_eq {runs : List GameCheckerRun} (hne : runs ≠ []) (tickID : Int) :
    summarizeCheckerRunsForTick runs tickID =
      (cycleSummary (collectTickPhaseStates runs) tickID).orUnavailable := by
  rw [summarizeCheckerRunsForTick, List.isEmpty_eq_false_iff.mpr hne, if_neg Bool.false_ne_true]
  rfl

theorem ofRun_success (run : GameCheckerRun) :
    (TickPhaseState.ofRun run).success = decide (run.status = "success") := rfl

theorem ofRun_isNone (run : GameCheckerRun) : (TickPhaseState.ofRun run).run.isNone = false := rfl

theorem ofRun_broken (run : GameCheckerRun) :
    (TickPhaseState.ofRun run).broken = decide (run.status ≠ "success") := by
  by_cases h : run.status = "success"
  · simp [TickPhaseState.ofRun, TickPhaseState.broken, h]
  · simp [TickPhaseState.ofRun, TickPhaseState.broken, h]

theorem broken_empty : ({} : TickPhaseState).broken = false := rfl

namespace CycleStates
variable {runs : List GameCheckerRun} {put get check : GameCheckerRun}
  {get' check' : Option GameCheckerRun}

/-- Behind a put that did not succeed and no check that did, the summary is about the put. -/
theorem summary_put (h : CycleStates runs (some put) get' check') (hput : put.status ≠ "success")
    (hcheck : ∀ x ∈ check', x.status ≠ "success") (tickID : Int) :
    cycleSummary (collectTickPhaseStates runs) tickID =
      { status := "down", phase := "put", tickID
        message :=
          phaseMessage (.ofRun put) "service did not complete the latest checker cycle" } := by
  have hp : (collectTickPhaseStates runs).at "put" = .ofRun put := h.put
  have hc : ((collectTickPhaseStates runs).at "check").success = false := by
    rw [h.check]
    cases check' with
    | none => rfl
    | some x => exact decide_eq_false (hcheck x rfl)
  have hbroken : (TickPhaseState.ofRun put).broken = true := by
    rw [ofRun_broken]
    exact decide_eq_true hput
  simp [cycleSummary, checkerCycleStillRunning, checkerCycleStillRunning.go, checkerPhaseOrder,
    dominantFailurePhase, dominantFailureMessage, hp, hc, hbroken, ofRun_success, hput]

/-- Behind a put that succeeded and a get that did not, the summary is about the get. -/
theorem summary_get (h : CycleStates runs (some put) (some get) check')
    (hput : put.status = "success") (hget : get.status ≠ "success") (tickID : Int) :
    cycleSummary (collectTickPhaseStates runs) tickID =
      { status := "flag_not_found", phase := "get", tickID
        message := phaseMessage (.ofRun get) "checker could not retrieve the stored flag" } := by
  have hp : (collectTickPhaseStates runs).at "put" = .ofRun put := h.put
  have hg : (collectTickPhaseStates runs).at "get" = .ofRun get := h.get
  simp [cycleSummary, checkerCycleStillRunning, checkerCycleStillRunning.go, checkerPhaseOrder, hp,
    hg, ofRun_broken, ofRun_isNone, ofRun_success, hput, hget]

/-- Behind a put that succeeded, with nothing more, the cycle is still running. -/
theorem summary_put_open (h : CycleStates runs (some put) none check')
    (hput : put.status = "success") (tickID : Int) :
    (cycleSummary (collectTickPhaseStates runs) tickID).status = "unknown" := by
  have hp : (collectTickPhaseStates runs).at "put" = .ofRun put := h.put
  have hg : (collectTickPhaseStates runs).at "get" = {} := h.get
  simp [cycleSummary, checkerCycleStillRunning, checkerCycleStillRunning.go, checkerPhaseOrder, hp,
    hg, ofRun_broken, ofRun_isNone, hput, broken_empty]

/-- Behind a put and a get that succeeded, with nothing more, the cycle is still running. -/
theorem summary_get_open (h : CycleStates runs (some put) (some get) none)
    (hput : put.status = "success") (hget : get.status = "success") (tickID : Int) :
    (cycleSummary (collectTickPhaseStates runs) tickID).status = "unknown" := by
  have hp : (collectTickPhaseStates runs).at "put" = .ofRun put := h.put
  have hg : (collectTickPhaseStates runs).at "get" = .ofRun get := h.get
  have hc : (collectTickPhaseStates runs).at "check" = {} := h.check
  simp [cycleSummary, checkerCycleStillRunning, checkerCycleStillRunning.go, checkerPhaseOrder, hp,
    hg, hc, ofRun_broken, ofRun_isNone, hput, hget, broken_empty]

/-- Behind a check that did not succeed the service is faulty. -/
theorem summary_check (h : CycleStates runs (some put) (some get) (some check))
    (hput : put.status = "success") (hget : get.status = "success")
    (hcheck : check.status ≠ "success") (tickID : Int) :
    (cycleSummary (collectTickPhaseStates runs) tickID).status = "faulty" := by
  have hp : (collectTickPhaseStates runs).at "put" = .ofRun put := h.put
  have hg : (collectTickPhaseStates runs).at "get" = .ofRun get := h.get
  have hc : (collectTickPhaseStates runs).at "check" = .ofRun check := h.check
  simp [cycleSummary, checkerCycleStillRunning, checkerCycleStillRunning.go, checkerPhaseOrder, hp,
    hg, hc, ofRun_broken, ofRun_isNone, ofRun_success, hput, hget, hcheck]

end CycleStates

/-! ## The state behind the last run -/

/-- A run of a phase for which the checker reported no state. -/
structure PlainRun (tickID : Int) (phase : String) (run : CheckerRunRecord) : Prop where
  tick : run.tickID = tickID
  phase : run.phase = phase
  status : run.status ∈ runStatuses
  reported : run.reportedServiceState = ""

namespace PlainRun
variable {tickID : Int} {phase : String} {run : CheckerRunRecord}

theorem isRun (h : PlainRun tickID phase run) (hphase : phase ∈ checkerPhaseOrder) :
    IsRun phase (run.stored 0) where
  phase := by
    have hrun : (run.stored 0).phase = phase := h.phase
    rw [hrun, (toLower_checkerPhaseOrder phase hphase).1]
  status := h.status

theorem reports_eq (h : PlainRun tickID phase run) : run.reports = false := by
  have hblank : normalizeServiceStateStatus "" = "" := by decide +kernel
  simp [CheckerRunRecord.reports, h.reported, hblank]

theorem memory_keeps (h : PlainRun tickID phase run) :
    MemoryGameStore.keepsState run = decide (run.status = "skipped") := by
  have hblank : trimSpace "" = "" := by decide
  simp [MemoryGameStore.keepsState, h.reported, hblank]

theorem postgres_keeps (h : PlainRun tickID phase run) :
    CheckerTables.keepsState run = decide (run.status = "skipped") := by
  simp [CheckerTables.keepsState, h.reports_eq]

end PlainRun

/-- The put succeeded, and what follows it ends in a skipped check without a failed get. -/
def LeftOpen (put get check : CheckerRunRecord) : Prop :=
  put.status = "success" ∧ get.status ≠ "failed" ∧ check.status = "skipped"

section cycle
variable {tickID : Int} {put get check : CheckerRunRecord} (hput : PlainRun tickID "put" put)
  (hget : PlainRun tickID "get" get) (hcheck : PlainRun tickID "check" check)
include hput hget hcheck

/-- The state behind the last run: the one inferred at the last run that was not skipped. -/
theorem stateAfter_cycle {keeps : CheckerRunRecord → Bool}
    (hkeeps : ∀ run ∈ [put, get, check], keeps run = decide (run.status = "skipped")) :
    stateAfter keeps [check, get, put] = some (
      if check.status ≠ "skipped" then inferredSummary tickID [check, get, put]
      else if get.status ≠ "skipped" then inferredSummary tickID [get, put]
      else inferredSummary tickID [put]) := by
  simp only [List.mem_cons, List.not_mem_nil, or_false, forall_eq_or_imp, forall_eq] at hkeeps
  obtain ⟨hkp, hkg, hkc⟩ := hkeeps
  have h₁ : stateAfter keeps [put] = some (inferredSummary tickID [put]) := by
    simp [stateAfter, hput.reports_eq, hput.tick]
  have h₂ : stateAfter keeps [get, put] = some (if get.status ≠ "skipped" then
      inferredSummary tickID [get, put] else inferredSummary tickID [put]) := by
    rw [stateAfter, h₁, hget.reports_eq, hkg, hget.tick]
    by_cases h : get.status = "skipped" <;> simp [h]
  rw [stateAfter, h₂, hcheck.reports_eq, hkc, hcheck.tick]
  by_cases h : check.status = "skipped" <;> simp [h]

/-- The state behind the last run is the summary of all runs exactly when the cycle was not left
open. -/
theorem stateAfter_cycle_iff {keeps : CheckerRunRecord → Bool}
    (hkeeps : ∀ run ∈ [put, get, check], keeps run = decide (run.status = "skipped")) :
    stateAfter keeps [check, get, put] = some (inferredSummary tickID [check, get, put]) ↔
      ¬LeftOpen put get check := by
  rw [stateAfter_cycle hput hget hcheck hkeeps, Option.some_inj]
  have hp := hput.isRun (by decide)
  have hg := hget.isRun (by decide)
  have hc := hcheck.isRun (by decide)
  have h₁ := cycleStates_put hp
  have h₂ := cycleStates_get hp hg
  have h₃ := cycleStates_check hp hg hc
  have hsum : ∀ runs : List CheckerRunRecord, runs ≠ [] → inferredSummary tickID runs =
      (cycleSummary (collectTickPhaseStates (runs.map (·.stored 0))) tickID).orUnavailable :=
    fun runs hne => summarize_eq (by simpa using hne) tickID
  rw [hsum _ (by simp), hsum _ (by simp), hsum _ (by simp)]
  simp only [List.map_cons, List.map_nil]
  by_cases hskip : check.status = "skipped"
  swap
  · simp [hskip, LeftOpen]
  have hcheckS : check.status ≠ "success" := by rw [hskip]; decide
  rw [if_neg (not_not.mpr hskip)]
  by_cases hputS : put.status = "success"
  swap
  · -- the put did not succeed, and every later summary is still about it
    have e₁ := h₁.summary_put hputS nofun tickID
    have e₂ := h₂.summary_put hputS nofun tickID
    have e₃ := h₃.summary_put hputS (by rintro _ ⟨⟩; exact hcheckS) tickID
    simp [e₁, e₂, e₃, LeftOpen, hputS]
  by_cases hgetF : get.status = "failed"
  · -- the get failed, and the check says nothing more
    have hgetS : get.status ≠ "success" := by rw [hgetF]; decide
    have hgetK : get.status ≠ "skipped" := by rw [hgetF]; decide
    have e₂ := h₂.summary_get hputS hgetS tickID
    have e₃ := h₃.summary_get hputS hgetS tickID
    simp [e₂, e₃, LeftOpen, hgetF]
  · -- the stored state still waits for a phase
    refine iff_of_false (fun heq => ?_) (not_not.mpr ⟨hputS, hgetF, hskip⟩)
    have hstatus := congrArg GameServiceStateSummary.status heq
    by_cases hgetK : get.status = "skipped"
    · have hgetS : get.status ≠ "success" := by rw [hgetK]; decide
      rw [if_neg (not_not.mpr hgetK), orUnavailable_status, orUnavailable_status,
        h₁.summary_put_open hputS, h₃.summary_get hputS hgetS] at hstatus
      exact absurd hstatus (by simp)
    · have hgetS : get.status = "success" := by
        have hmem := hget.status
        simp only [runStatuses, List.mem_cons, List.not_mem_nil, or_false, hgetF, hgetK] at hmem
        exact hmem
      rw [if_pos hgetK, orUnavailable_status, orUnavailable_status,
        h₂.summary_get_open hputS hgetS, h₃.summary_check hputS hgetS hcheckS] at hstatus
      exact absurd hstatus (by decide)

end cycle

/-! ## Batches that leave the cycle open -/

/-- No result of a batch carries a canonical service state. -/
def NoReports (batch : Except String (List CheckerPhaseResult)) : Prop :=
  ∀ results, batch = .ok results →
    ∀ result ∈ results, normalizeServiceStateStatus result.serviceState = ""

/-- A batch whose put succeeds, whose get does not fail, and that ends without a verdict on the
check: it has no get, no check, or a skipped one. -/
def CycleLeftOpen (batch : Except String (List CheckerPhaseResult)) : Prop :=
  phaseStatus batch "put" = some "success" ∧ phaseStatus batch "get" ≠ some "failed" ∧
    (phaseStatus batch "get" = none ∨ phaseStatus batch "check" = none ∨
      phaseStatus batch "check" = some "skipped")

/-- The tick, team and challenge of a target. -/
def targetKey (tickID : Int) (target : CheckerTarget) : CheckerRunGroupKey :=
  { tickID, teamID := target.teamID, challengeID := target.challengeID }

section batch
variable (tickID : Int) (target : CheckerTarget) {batch : Except String (List CheckerPhaseResult)}

theorem phaseRun_plain (hbatch : NoReports batch) (halted : Bool) (runTime : Time)
    (phase : String) : PlainRun tickID phase (phaseRun tickID target batch halted runTime phase).1 ∧
      (phaseRun tickID target batch halted runTime phase).1.key = targetKey tickID target := by
  unfold phaseRun
  dsimp only
  split
  · exact ⟨⟨rfl, rfl, by simp [runStatuses], rfl⟩, rfl⟩
  split
  · exact ⟨⟨rfl, rfl, by simp [runStatuses], rfl⟩, rfl⟩
  rename_i results
  split
  · exact ⟨⟨rfl, rfl, by simp [runStatuses], rfl⟩, rfl⟩
  rename_i result hresult
  exact ⟨⟨rfl, rfl, normalizedCheckerRunStatus_mem _,
    hbatch results rfl result (mem_of_lookup_results hresult)⟩, rfl⟩

variable {tickID target} in
/-- The three runs of a target, and when they leave the cycle open. -/
theorem phaseRuns_cycle (hbatch : NoReports batch) {runs : List CheckerRunRecord}
    (h : PhaseRuns tickID target batch ["put", "get", "check"] false runs) :
    ∃ put get check, runs = [put, get, check] ∧ PlainRun tickID "put" put ∧
      PlainRun tickID "get" get ∧ PlainRun tickID "check" check ∧
      (LeftOpen put get check ↔ CycleLeftOpen batch) := by
  cases h with
  | @cons _ _ _ halted₁ put _ time₁ hput h =>
  cases h with
  | @cons _ _ _ halted₂ get _ time₂ hget h =>
  cases h with
  | @cons _ _ _ halted₃ check _ time₃ hcheck h =>
  cases h with
  | nil =>
  have hp := (phaseRun_plain tickID target hbatch false time₁ "put").1
  have hg := (phaseRun_plain tickID target hbatch halted₁ time₂ "get").1
  have hc := (phaseRun_plain tickID target hbatch halted₂ time₃ "check").1
  obtain ⟨hpstatus, hphalt⟩ := phaseRun_reached tickID target batch time₁ "put"
  rw [hput] at hp hpstatus hphalt
  rw [hget] at hg
  rw [hcheck] at hc
  refine ⟨put, get, check, rfl, hp, hg, hc, ?_⟩
  unfold LeftOpen CycleLeftOpen
  rw [hpstatus]
  by_cases hputS : phaseStatus batch "put" = some "success"
  swap
  · refine iff_of_false (fun hopen => hputS ?_) fun hopen => hputS hopen.1
    cases hps : phaseStatus batch "put" with
    | none => simp [hps] at hopen
    | some status => simpa [hps] using hopen.1
  obtain rfl : halted₁ = false := by simpa [hputS] using hphalt
  obtain ⟨hgstatus, hghalt⟩ := phaseRun_reached tickID target batch time₂ "get"
  rw [hget] at hgstatus hghalt
  rw [hgstatus]
  cases hgs : phaseStatus batch "get" with
  | none =>
    -- the batch ends behind the put
    obtain rfl : halted₂ = true := by simpa [hgs] using hghalt
    have hcstatus : check.status = "skipped" := congrArg (·.1.status) hcheck.symm
    simp [hputS, hcstatus]
  | some status =>
    by_cases hfailed : status = "failed"
    · simp [hfailed]
    obtain rfl : halted₂ = false := by simpa [hgs, hfailed] using hghalt
    have hcstatus := (phaseRun_reached tickID target batch time₃ "check").1
    rw [hcheck] at hcstatus
    rw [hcstatus]
    cases hcs : phaseStatus batch "check" with
    | none => simp [hputS, hfailed]
    | some status' => simp [hputS, hfailed]

variable {tickID target} in
/-- The state behind the runs of a target is the summary of these runs exactly when the batch does
not leave the cycle open. -/
theorem stateAfter_phaseRuns_iff (hbatch : NoReports batch) {runs : List CheckerRunRecord}
    (hruns : PhaseRuns tickID target batch ["put", "get", "check"] false runs)
    {keeps : CheckerRunRecord → Bool}
    (hkeeps : ∀ {phase run}, PlainRun tickID phase run →
      keeps run = decide (run.status = "skipped")) {group : List GameCheckerRun}
    (hgroup : group.map GameCheckerRun.outcome =
      (runs.reverse ++ []).map fun (run : CheckerRunRecord) => (run.stored 0).outcome) :
    stateAfter keeps (runs.reverse ++ []) = some (summarizeCheckerRunsForTick group tickID) ↔
      ¬CycleLeftOpen batch := by
  obtain ⟨put, get, check, rfl, hput, hget, hcheck, hopen⟩ := phaseRuns_cycle hbatch hruns
  have hsummary : summarizeCheckerRunsForTick group tickID =
      inferredSummary tickID [check, get, put] :=
    summarize_congr (hgroup.trans (by simp)) tickID
  rw [hsummary, ← hopen]
  refine stateAfter_cycle_iff hput hget hcheck fun run hrun => ?_
  simp only [List.mem_cons, List.not_mem_nil, or_false] at hrun
  rcases hrun with rfl | rfl | rfl
  · exact hkeeps hput
  · exact hkeeps hget
  · exact hkeeps hcheck

end batch

/-! ## The two stores behind a target -/

/-- The runs that the checkers of a target may record. -/
def IsPhaseRun (tickID : Int) (target : CheckerTarget)
    (batch : Except String (List CheckerPhaseResult)) (run : CheckerRunRecord) : Prop :=
  ∃ halted runTime phase, run = (phaseRun tickID target batch halted runTime phase).1

/-- An execution on the in-memory store, among others that leave the runs and the state of the key
alone, with a given outcome of the batch. -/
def memoryTarget {K : Type} [Field K] [LinearOrder K] (M : FaustMath K) (crypto : Crypto)
    (key : CheckerRunGroupKey) (batch : Except String (List CheckerPhaseResult)) :
    Surroundings (ServerShared (MemoryGameStore K)) (ServerInput Go.Runtime) ServerOp
      ServerOp.Res where
  sem := serverSem (memorySem M crypto)
  rely s t := t.store.runs.filter (·.key = key) = s.store.runs.filter (·.key = key) ∧
    t.store.serviceStates.lookup key = s.store.serviceStates.lookup key
  input input := input.batch = batch

theorem memoryTarget_recording {K : Type} [Field K] [LinearOrder K] (M : FaustMath K)
    (crypto : Crypto) {tickID : Int} {target : CheckerTarget}
    {batch : Except String (List CheckerPhaseResult)} (hbatch : NoReports batch) :
    RecordingStore (memoryTarget M crypto (targetKey tickID target) batch)
      (memorySem M crypto) batch
      (IsPhaseRun tickID target batch)
      fun history s => s.Tracks (targetKey tickID target) history where
  sem_eq := rfl
  batch_eq _ hinput := hinput
  rely_tracks hrely h := ⟨by rw [hrely.1, h.runs], by rw [hrely.2, h.state]⟩
  record := by
    rintro history input err s _ hinput h ⟨halted, runTime, phase, rfl⟩
    have hnew := h.recordCheckerRun (phaseRun tickID target batch halted runTime phase).1
    rw [if_pos (phaseRun_plain tickID target hbatch halted runTime phase).2] at hnew
    exact ⟨_, _, rfl, hnew⟩
  issue := fun _ h => ⟨_, rfl, h.runs, h.state⟩

/-- The calls of `runCheckerTarget` on the tables; the environment answers the others. -/
def checkerSem : StoreSem CheckerTables ((op : StoreOp) → Except StoreError op.Answer) :=
  fun answer _ db op =>
    match op with
    | .recordCheckerRun run => db.recordCheckerRun run
    | op => (db, answer op)

/-- An environment in which every flag is stored. -/
def flagsStored : (op : StoreOp) → Except StoreError op.Answer
  | .issueFlag _ => .ok ()
  | _ => .error .noRows

/-- Transactions of others that leave the runs and the state of a key alone. -/
structure CheckerTables.KeepsKey (key : CheckerRunGroupKey) (db db' : CheckerTables) : Prop where
  rejection : ∀ run, db.rejection run = none → db'.rejection run = none
  numbered : db.Numbered → db'.Numbered
  runs : db'.checkerRuns.filter (·.key = key) = db.checkerRuns.filter (·.key = key)
  state : db'.selectState key = db.selectState key

/-- An execution on the tables, among others that leave the runs and the state of the key alone,
with a given outcome of the batch; the flag of a successful put is stored. -/
def postgresTarget (key : CheckerRunGroupKey) (batch : Except String (List CheckerPhaseResult)) :
    Surroundings (ServerShared CheckerTables)
      (ServerInput ((op : StoreOp) → Except StoreError op.Answer)) ServerOp ServerOp.Res where
  sem := serverSem checkerSem
  rely s t := s.store.KeepsKey key t.store
  input input := input.batch = batch ∧ ∀ flag, input.store (.issueFlag flag) = .ok ()

theorem postgresTarget_recording {tickID : Int} {target : CheckerTarget}
    {batch : Except String (List CheckerPhaseResult)} (hbatch : NoReports batch) :
    RecordingStore (postgresTarget (targetKey tickID target) batch) checkerSem batch
      (IsPhaseRun tickID target batch) fun history db =>
        db.Tracks (targetKey tickID target) history ∧
          ∀ run, IsPhaseRun tickID target batch run → db.rejection run = none where
  sem_eq := rfl
  batch_eq _ hinput := hinput.1
  rely_tracks hrely h :=
    ⟨⟨hrely.numbered h.1.numbered, by rw [hrely.runs, h.1.runs], by rw [hrely.state, h.1.state]⟩,
      fun run hrun => hrely.rejection run (h.2 run hrun)⟩
  record := by
    rintro history input err db run hinput ⟨h, hrecorded⟩ hrun
    have hnew := h.recordCheckerRun (hrecorded run hrun)
    have hkey : run.key = targetKey tickID target := by
      obtain ⟨halted, runTime, phase, rfl⟩ := hrun
      exact (phaseRun_plain tickID target hbatch halted runTime phase).2
    rw [if_pos hkey] at hnew
    refine ⟨(db.recordCheckerRun run).1, run.stored db.nextRunID,
      CheckerTables.recordCheckerRun_ok (hrecorded run hrun), hnew, fun run' hrun' => ?_⟩
    rw [CheckerTables.recordCheckerRun_rejection]
    exact hrecorded run' hrun'
  issue := fun {_ input _ db flag} hinput h =>
    have hissue : input.store (.issueFlag flag) = .ok () := hinput.2 flag
    ⟨db, by rw [← hissue]; rfl, h⟩

/-- Behind every execution of the checkers of a target on which nothing was recorded yet, with the
phases put, get and check and no reported state: the stored state is the summary of all runs of
the target exactly when the batch does not leave the cycle open, in either store. -/
theorem stored_state_summary_iff {K : Type} [Field K] [LinearOrder K] (M : FaustMath K)
    (cfg : ServerConfig) (hphases : cfg.checkerPhases = ["put", "get", "check"]) (ctx : Nat)
    (tickID : Int) (target : CheckerTarget) (batch : Except String (List CheckerPhaseResult))
    (hbatch : NoReports batch) :
    let key := targetKey tickID target
    let thread := (runCheckerTarget cfg ctx tickID target).toThread
    (∀ s : ServerShared (MemoryGameStore K), s.store.runs.filter (·.key = key) = [] →
      s.store.serviceStates.lookup key = none →
      (∃ ops t, Execution (memoryTarget M cfg.crypto key batch) thread s ops t) ∧
      ∀ ops t, Execution (memoryTarget M cfg.crypto key batch) thread s ops t →
        (t.store.serviceStates.lookup key =
            some (summarizeCheckerRunsForTick (t.store.runs.filter (·.key = key)) tickID) ↔
          ¬CycleLeftOpen batch)) ∧
    (∀ s : ServerShared CheckerTables, s.store.Numbered →
      s.store.checkerRuns.filter (·.key = key) = [] → s.store.selectState key = none →
      (∀ run, IsPhaseRun tickID target batch run → s.store.rejection run = none) →
      (∃ ops t, Execution (postgresTarget key batch) thread s ops t) ∧
      ∀ ops t, Execution (postgresTarget key batch) thread s ops t →
        ((t.store.selectState key).map ServiceStateRow.summary =
            some (summarizeCheckerRunsForTick (t.store.selectRuns key) tickID) ↔
          ¬CycleLeftOpen batch)) := by
  intro key thread
  have hrecords : ∀ halted runTime, ∀ phase ∈ cfg.checkerPhases,
      IsPhaseRun tickID target batch (phaseRun tickID target batch halted runTime phase).1 :=
    fun halted runTime phase _ => ⟨halted, runTime, phase, rfl⟩
  refine ⟨fun s hruns hstate => ⟨?_, fun ops t hrun => ?_⟩,
    fun s hnumbered hruns hstate hrecorded => ⟨?_, fun ops t hrun => ?_⟩⟩
  · have hrefl : ∀ s, (memoryTarget M cfg.crypto key batch).rely s s := fun s => ⟨rfl, rfl⟩
    exact (RecordingStore.runCheckerTarget_terminates (memorySem M cfg.crypto) rfl
      ⟨{ batch, store := .inOrder }, rfl⟩ hrefl).toThread hrefl s
  · have hfresh : s.store.Tracks key [] := ⟨by rw [hruns]; rfl, hstate⟩
    have H : RecordingStore (memoryTarget M cfg.crypto key batch) _ batch _ _ :=
      memoryTarget_recording M cfg.crypto hbatch
    obtain ⟨_, s', ⟨-, flagValue, runs, hphaseRuns, -, htracks⟩, hrely⟩ :=
      (H.runCheckerTarget_after hrecords hfresh).toThread hrun
    have h := H.rely_tracks hrely htracks
    rw [hphases] at hphaseRuns
    rw [h.state]
    exact stateAfter_phaseRuns_iff hbatch hphaseRuns (fun h => h.memory_keeps) h.runs
  · have hrefl : ∀ s, (postgresTarget key batch).rely s s :=
      fun s => ⟨fun _ h => h, id, rfl, rfl⟩
    have hinput : (postgresTarget key batch).input { batch, store := flagsStored } :=
      ⟨rfl, fun _ => rfl⟩
    exact (RecordingStore.runCheckerTarget_terminates checkerSem rfl ⟨_, hinput⟩ hrefl).toThread
      hrefl s
  · have hfresh : s.store.Tracks key [] ∧
        ∀ run, IsPhaseRun tickID target batch run → s.store.rejection run = none :=
      ⟨⟨hnumbered, by rw [hruns]; rfl, by rw [hstate]; rfl⟩, hrecorded⟩
    have H : RecordingStore (postgresTarget key batch) _ batch _ _ :=
      postgresTarget_recording hbatch
    obtain ⟨_, s', ⟨-, flagValue, runs, hphaseRuns, -, htracks⟩, hrely⟩ :=
      (H.runCheckerTarget_after hrecords hfresh).toThread hrun
    have h := (H.rely_tracks hrely htracks).1
    rw [hphases] at hphaseRuns
    rw [h.state]
    exact stateAfter_phaseRuns_iff hbatch hphaseRuns (fun h => h.postgres_keeps)
      ((CheckerTables.selectRuns_outcome h.numbered key).trans h.runs)

/-- The first team's service, and a batch that stores and retrieves the flag and then stops. -/
def firstTarget : CheckerTarget :=
  { teamID := 1, teamName := "Alpha", challengeID := 1, challengeName := "banking"
    checkerImage := "banking-checker", target := "10.80.1.1:8080" }

/-- The checker answers for put and get, but not for check. -/
def withoutCheck : Except String (List CheckerPhaseResult) :=
  .ok [{ phase := "put", status := "success" }, { phase := "get", status := "success" }]

/-- The default settings. -/
def firstConfig : ServerConfig := { crypto := ⟨fun _ _ => [], fun _ => []⟩ }

/-- A core that has just been started. -/
def firstShared : ServerShared (MemoryGameStore ℚ) :=
  { store := MemoryGameStore.new [] ∅ ∅, codec := .new "flag" "secret" }

theorem stored_state_summary_iff_withoutCheck :
    CycleLeftOpen withoutCheck ∧ ∃ ops t, Execution
      (memoryTarget squareMath firstConfig.crypto (targetKey 1 firstTarget) withoutCheck)
      (runCheckerTarget firstConfig 0 1 firstTarget).toThread firstShared ops t ∧
      (t.store.serviceStates.lookup (targetKey 1 firstTarget) = some (summarizeCheckerRunsForTick
          (t.store.runs.filter (·.key = targetKey 1 firstTarget)) 1) ↔
        ¬CycleLeftOpen withoutCheck) := by
  have hbatch : NoReports withoutCheck := by
    rintro results ⟨⟩
    decide +kernel
  obtain ⟨⟨ops, t, hrun⟩, h⟩ :=
    (stored_state_summary_iff squareMath firstConfig rfl 0 1 firstTarget withoutCheck hbatch).1
      firstShared rfl rfl
  refine ⟨?_, ops, t, hrun, h ops t hrun⟩
  unfold CycleLeftOpen
  decide +kernel

/-- The batch has no check. Its run is recorded as skipped, and the stored state stays the one
behind the get, while the summary of the three runs calls the service faulty. -/
theorem skipped_check_left_open :
    let m := (⟨firstShared, [(runCheckerTarget firstConfig 0 1 firstTarget).toThread]⟩ :
      Machine (ServerShared (MemoryGameStore ℚ)) ServerOp ServerOp.Res).run
        (serverSem (memorySem squareMath firstConfig.crypto)) (ServerRequest.handler firstConfig)
        (.replicate 9 (.step 0 { batch := withoutCheck, store := .inOrder }))
    let runs := m.shared.store.runs.filter (·.key = targetKey 1 firstTarget)
    let stored := m.shared.store.serviceStates.lookup (targetKey 1 firstTarget)
    runs.map (fun run => (run.phase, run.status)) =
        [("check", "skipped"), ("get", "success"), ("put", "success")] ∧
      stored.map (fun summary => (summary.status, summary.message)) =
        some ("unknown", "checker cycle is still running") ∧
      (summarizeCheckerRunsForTick runs 1).status = "faulty" ∧
      stored ≠ some (summarizeCheckerRunsForTick runs 1) := by
  decide +kernel

end ADPlatform.GameCore
