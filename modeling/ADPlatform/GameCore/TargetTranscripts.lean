import ADPlatform.GameCore.CheckerTargets
import ADPlatform.GameCore.SubmissionBatches
import ADPlatform.GameCore.TickRuns

/-! # Transcripts of `runCheckerTarget`

Over a store that does not fail, a target has one run for each configured phase, whatever the
checker answers: a run that failed, or whose phase the answer does not have, halts the target, and
the later ones are skipped (`RunPattern`). `runCheckerTarget_leads` says which operations record
them. -/

namespace ADPlatform.GameCore
open Concurrent Text ServerProc Server

/-! ## The pattern of the runs -/

/-- The checker answered, and its answer has no result for the phase. -/
def PhaseAbsent (batch : Except String (List CheckerPhaseResult)) (phase : String) : Prop :=
  ∃ results, batch = .ok results ∧ phase ∉ results.map (·.phase)

/-- One run for each phase in order, of which at most one failed; behind one that failed, or whose
phase is absent, the runs are skipped. -/
structure RunPattern (batch : Except String (List CheckerPhaseResult)) (phases : List String)
    (runs : List CheckerRunRecord) : Prop where
  phases_eq : runs.map (·.phase) = phases
  statuses : ∀ run ∈ runs, run.status ∈ runStatuses
  failed_le : runs.countP (·.status = "failed") ≤ 1
  halted : runs.Pairwise fun run later =>
    run.status = "failed" ∨ PhaseAbsent batch run.phase → later.status = "skipped"

variable {batch : Except String (List CheckerPhaseResult)} {tickID : Int} {target : CheckerTarget}
  {phases : List String} {runs : List CheckerRunRecord}

theorem phaseStatus_eq_none {phase : String} :
    phaseStatus batch phase = none ↔ PhaseAbsent batch phase := by
  unfold phaseStatus PhaseAbsent
  cases batch with
  | error => simp
  | ok results =>
    have hlookup : ¬((Go.Map.fill (·.phase) id results ∅ : Go.Map String CheckerPhaseResult).lookup
        phase).isSome ↔ phase ∉ results.map (·.phase) := by
      rw [Go.Map.isSome_lookup_fill, AList.lookup_empty]
      simp
    rw [Option.map_eq_none_iff, ← Option.not_isSome_iff_eq_none, hlookup]
    simp

theorem skipped_of_halted (h : PhaseRuns tickID target batch phases true runs) :
    ∀ run ∈ runs, run.status = "skipped" := by
  intro run hrun
  have hstatus := List.mem_map_of_mem (f := (·.status)) hrun
  rw [h.halted_statuses] at hstatus
  obtain ⟨_, -, hstatus⟩ := List.mem_map.mp hstatus
  exact hstatus.symm

theorem phaseStatus_mem {phase status : String} (h : phaseStatus batch phase = some status) :
    status ∈ runStatuses := by
  unfold phaseStatus at h
  cases batch with
  | error =>
    cases h
    decide
  | ok results =>
    obtain ⟨result, -, rfl⟩ := Option.map_eq_some_iff.mp h
    exact normalizedCheckerRunStatus_mem _

/-- Runs that are all skipped behind one run. -/
theorem RunPattern.of_skipped {run : CheckerRunRecord}
    (hphases : (run :: runs).map (·.phase) = phases)
    (hstatus : run.status ∈ runStatuses) (hskipped : ∀ later ∈ runs, later.status = "skipped") :
    RunPattern batch phases (run :: runs) := by
  have hnone : runs.countP (·.status = "failed") = 0 := by
    refine List.countP_eq_zero.mpr fun later hlater => ?_
    rw [hskipped later hlater]
    decide
  refine ⟨hphases, ?_, ?_, ?_⟩
  · intro later hlater
    rcases List.mem_cons.mp hlater with rfl | hlater
    · exact hstatus
    · rw [hskipped later hlater]
      decide
  · rw [List.countP_cons, hnone]
    split <;> omega
  · exact .cons (fun later hlater _ => hskipped later hlater)
      (List.pairwise_of_forall_mem_list fun _ _ later hlater _ => hskipped later hlater)

/-- By induction on the phases that are reached. -/
theorem PhaseRuns.pattern (h : PhaseRuns tickID target batch phases false runs) :
    RunPattern batch phases runs := by
  generalize hhalted : false = halted at h
  induction h with
  | nil => exact ⟨rfl, by simp, by simp, .nil⟩
  | @cons phase phases halted halted' run runs runTime hrun hrest ih =>
    subst hhalted
    obtain ⟨hstatus, hhalt⟩ := phaseRun_reached tickID target batch runTime phase
    have hphase : (phaseRun tickID target batch false runTime phase).1.phase = phase :=
      phaseRun_phase false runTime phase
    rw [hrun] at hstatus hhalt hphase
    dsimp only at hstatus hhalt hphase
    have hmem : run.status ∈ runStatuses := by
      rw [hstatus]
      cases hsome : phaseStatus batch phase with
      | none => decide
      | some status => exact phaseStatus_mem hsome
    cases halted' with
    | true =>
      have hphases : (run :: runs).map (·.phase) = phase :: phases := by
        rw [List.map_cons, hphase, hrest.phases_eq]
      exact .of_skipped hphases hmem (skipped_of_halted hrest)
    | false =>
      have hnot : ¬(phaseStatus batch phase = none ∨ phaseStatus batch phase = some "failed") :=
        fun hor => Bool.false_ne_true (hhalt.mpr hor)
      obtain ⟨hnone, hfailed⟩ := not_or.mp hnot
      obtain ⟨status, hsome⟩ := Option.ne_none_iff_exists'.mp hnone
      rw [hsome, Option.getD_some] at hstatus
      rw [hsome, Option.some_inj] at hfailed
      obtain ⟨hphases, hstatuses, hle, hlater⟩ := ih rfl
      refine ⟨by rw [List.map_cons, hphase, hphases],
        List.forall_mem_cons.mpr ⟨hmem, hstatuses⟩, ?_, .cons (fun later _ hhalts => ?_) hlater⟩
      · rw [List.countP_cons, hstatus, if_neg (by simpa using hfailed)]
        exact hle
      · rcases hhalts with hrunFailed | habsent
        · exact absurd (hstatus ▸ hrunFailed) hfailed
        · rw [hphase] at habsent
          exact absurd (phaseStatus_eq_none.mpr habsent) hnone

/-! ## The counts -/

/-- The counts of a target are those of its runs. -/
theorem countRuns_eq (runs : List CheckerRunRecord)
    (hstatuses : ∀ run ∈ runs, run.status ∈ runStatuses) :
    countRuns runs =
      { total := runs.length
        success := runs.countP (·.status = "success")
        skipped := runs.countP (·.status = "skipped")
        failed := runs.countP (·.status = "failed") } := by
  induction runs using List.reverseRecOn with
  | nil => rfl
  | append_singleton runs run ih =>
    rw [countRuns_concat, ih fun run' hrun' => hstatuses run' (List.mem_append_left _ hrun')]
    have hstatus := hstatuses run (by simp)
    simp only [runStatuses, List.mem_cons, List.not_mem_nil, or_false] at hstatus
    rcases hstatus with hstatus | hstatus | hstatus
    all_goals simp [CheckerTargetTickResult.count, hstatus]

/-- No run is lost between the counts. -/
theorem countP_statuses (runs : List CheckerRunRecord)
    (hstatuses : ∀ run ∈ runs, run.status ∈ runStatuses) :
    runs.countP (·.status = "success") + runs.countP (·.status = "failed") +
      runs.countP (·.status = "skipped") = runs.length := by
  induction runs with
  | nil => rfl
  | cons run runs ih =>
    have hrest := ih fun run' hrun' => hstatuses run' (.tail _ hrun')
    have hstatus := hstatuses run (.head _)
    simp only [runStatuses, List.mem_cons, List.not_mem_nil, or_false] at hstatus
    simp only [List.countP_cons, List.length_cons]
    rcases hstatus with hstatus | hstatus | hstatus
    all_goals
      simp only [hstatus]
      simp
      omega

/-! ## The transcripts -/

/-- A store call answers without an error. -/
def ServerEntry.answers {σ : Type} : ServerEntry σ → Bool
  | ⟨_, .store _ op, answer, _⟩ =>
    match (answer : Except StoreError op.Answer) with
    | .ok _ => true
    | .error _ => false
  | _ => true

section Leads
variable {σ : Type} {cfg : ServerConfig} {ctx : Nat} {flagValue : String}

theorem answered_leads {call : StoreOp} :
    Proc.Leads (fun e : ServerEntry σ => e.answers = true) (store ctx call) fun r es =>
      (∃ answer, r = .ok answer) ∧ es.map Entry.op = [.store ctx call] := by
  refine .bind (Q := fun (r : Except StoreError call.Answer) es => (∃ answer, r = .ok answer) ∧
    es.map Entry.op = [.store ctx call]) (.perform fun before answer after hanswers => ?_) ?_
  · cases answer with
    | ok answer => exact ⟨⟨answer, rfl⟩, rfl⟩
    | error e => cases hanswers
  · rintro r es ⟨⟨answer, rfl⟩, hes⟩
    exact .pure ⟨⟨answer, rfl⟩, by rwa [List.append_nil]⟩

theorem issueStoredFlag_leads (run : CheckerRunRecord) :
    Proc.Leads (fun e : ServerEntry σ =>
      e.answers = true) (issueStoredFlag ctx tickID target flagValue run)
      fun r es => r = .ok () ∧ .clock :: .store ctx (.recordCheckerRun run) :: es.map Entry.op =
        phaseOps tickID target ctx flagValue run := by
  refine .ite (fun hput => ?_) fun hput => .pure ⟨rfl, by rw [phaseOps, if_neg hput, List.map_nil]⟩
  refine answered_leads.weaken ?_
  rintro r es ⟨⟨answer, rfl⟩, hes⟩
  exact ⟨rfl, by rw [phaseOps, if_pos hput, hes]⟩

/-- The phase loop, by induction on the phases that are left. -/
theorem runPhases_leads {halted : Bool} {counts : CheckerTargetTickResult} :
    Proc.Leads (fun e : ServerEntry σ => e.answers = true)
      (runPhases ctx tickID target flagValue batch phases halted counts) fun r es =>
        ∃ runs, PhaseRuns tickID target batch phases halted runs ∧
          r = (runs.foldl (fun counts run => counts.count run.status) counts, none) ∧
          es.map Entry.op = runs.flatMap (phaseOps tickID target ctx flagValue) := by
  induction phases generalizing halted counts with
  | nil => exact .pure ⟨[], .nil, rfl, rfl⟩
  | cons phase phases ih =>
    have hclock : Proc.Leads (fun e : ServerEntry σ => e.answers = true) clock fun _ es =>
        es.map Entry.op = [.clock] := .perform fun _ _ _ _ => rfl
    refine .bind hclock fun runTime es₁ hes₁ => ?_
    generalize hrun : phaseRun tickID target batch halted runTime phase = out
    obtain ⟨run, halted'⟩ := out
    refine .bind answered_leads ?_
    rintro _ es₂ ⟨⟨answer, rfl⟩, hes₂⟩
    refine .bind (issueStoredFlag_leads run) ?_
    rintro _ es₃ ⟨rfl, hes₃⟩
    refine ih.weaken ?_
    rintro r es₄ ⟨runs, hruns, hr, hes₄⟩
    refine ⟨run :: runs, .cons hrun hruns, hr, ?_⟩
    rw [List.map_append, List.map_append, List.map_append, hes₁, hes₂, hes₄,
      List.flatMap_cons, ← hes₃]
    rfl

/-- Every way through `runCheckerTarget`. -/
theorem runCheckerTarget_leads :
    Proc.Leads (fun e : ServerEntry σ => e.answers = true) (runCheckerTarget cfg ctx tickID target)
      fun r es =>
        ∃ flagValue batch runs, PhaseRuns tickID target batch cfg.checkerPhases false runs ∧
        r = (countRuns runs, none) ∧
        (∃ e ∈ es, ∃ before after,
          e = ⟨before, .executeBatch ctx tickID target flagValue, batch, after⟩) ∧
        es.map Entry.op = .loadCodec :: .executeBatch ctx tickID target flagValue ::
          runs.flatMap (phaseOps tickID target ctx flagValue) := by
  have hload : Proc.Leads (fun e : ServerEntry σ => e.answers = true) loadCodec fun _ es =>
      es.map Entry.op = [.loadCodec] := .perform fun _ _ _ _ => rfl
  have hexecute : ∀ flagValue, Proc.Leads (fun e : ServerEntry σ => e.answers = true)
      (executeBatch ctx tickID target flagValue) fun batch es => ∃ before after,
        es = [⟨before, .executeBatch ctx tickID target flagValue, batch, after⟩] :=
    fun _ => .perform fun before _ after _ => ⟨before, after, rfl⟩
  refine .bind hload fun codec es₁ hes₁ => ?_
  refine .bind (hexecute _) ?_
  rintro batch _ ⟨before, after, rfl⟩
  refine runPhases_leads.weaken ?_
  rintro r es₃ ⟨runs, hruns, hr, hes₃⟩
  refine ⟨codec.issue cfg.crypto.hmac target.teamID target.challengeID tickID tickID, batch,
    runs, hruns,
    hr, ⟨_, ?_, before, after, rfl⟩, ?_⟩
  · exact List.mem_append_right _ (List.mem_append_left _ (List.mem_singleton_self _))
  · rw [List.map_append, List.map_append, hes₁, hes₃]
    rfl

/-- What a target comes to, by the operations behind it: its runs follow the pattern, its counts are
theirs and add up to the phases, and the flag is stored exactly when a put succeeded. -/
structure TargetOutcome (phases : List String) (batch : Except String (List CheckerPhaseResult))
    (ops : List ServerOp) (r : CheckerTargetTickResult × Option StoreError) : Prop where
  pattern : RunPattern batch phases (recordedRuns ops)
  answered : r.2 = none
  success : r.1.success = (recordedRuns ops).countP (·.status = "success")
  skipped : r.1.skipped = (recordedRuns ops).countP (·.status = "skipped")
  failed : r.1.failed = (recordedRuns ops).countP (·.status = "failed")
  total : r.1.total = phases.length
  total_eq : r.1.total = r.1.success + r.1.failed + r.1.skipped
  flag : flagIssued ops = true ↔ ∃ run ∈ recordedRuns ops, run.phase = "put" ∧
    run.status = "success"

theorem runCheckerTarget_outcome :
    (runCheckerTarget cfg ctx tickID target).Returns (fun e : ServerEntry σ =>
      e.answers = true) fun r es =>
      ∃ flagValue batch before after,
        (⟨before, .executeBatch ctx tickID target flagValue, batch, after⟩ : ServerEntry σ) ∈ es ∧
          TargetOutcome cfg.checkerPhases batch (es.map Entry.op) r := by
  have : Nonempty ServerOp := ⟨.clock⟩
  refine (runCheckerTarget_leads.weaken ?_).returns
  rintro r es ⟨flagValue, batch, runs, hruns, rfl, ⟨_, he, before, after, rfl⟩, hops⟩
  refine ⟨flagValue, batch, before, after, he, ?_⟩
  have hrecorded : recordedRuns (es.map Entry.op) = runs := by
    rw [hops]
    exact recordedRuns_flatMap runs
  have hflag : flagIssued (es.map Entry.op) = runs.any fun run =>
      run.phase = "put" && run.status = "success" := by
    rw [hops]
    exact flagIssued_flatMap runs
  have hpattern := hruns.pattern
  have hcounts := countRuns_eq runs hpattern.statuses
  have hsum := countP_statuses runs hpattern.statuses
  rw [hcounts]
  refine ⟨hrecorded ▸ hpattern, rfl, by
    rw [hrecorded], by rw [hrecorded], by rw [hrecorded], ?_, hsum.symm, ?_⟩
  · rw [← hpattern.phases_eq, List.length_map]
  · rw [hflag, hrecorded]
    simp

end Leads

end ADPlatform.GameCore
