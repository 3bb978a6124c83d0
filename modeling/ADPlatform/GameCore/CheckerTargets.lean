import ADPlatform.Lib.Execution
import ADPlatform.GameCore.ReportedStates
import ADPlatform.GameCore.Submissions

/-! # What the checkers of a target leave behind

`runCheckerTarget` records one run for each configured phase, whatever the batch came back with,
and stores the flag behind a put that succeeded. `RecordingStore.runCheckerTarget_after` says which
runs and flags these are, in every execution among other requests. -/

namespace ADPlatform.GameCore
open Concurrent Text ServerProc Server

/-! ## The runs of a target -/

section runs
variable (tickID : Int) (target : CheckerTarget) (batch : Except String (List CheckerPhaseResult))

/-- The runs that the phase loop records, at some reading of the clock for each phase. -/
inductive PhaseRuns : List String → Bool → List CheckerRunRecord → Prop
  | nil {halted : Bool} : PhaseRuns [] halted []
  | cons {phase : String} {phases : List String} {halted halted' : Bool} {run : CheckerRunRecord}
      {runs : List CheckerRunRecord} {runTime : Time}
      (hrun : phaseRun tickID target batch halted runTime phase = (run, halted'))
      (hrest : PhaseRuns phases halted' runs) : PhaseRuns (phase :: phases) halted (run :: runs)

/-- The operations of one phase that records `run`. -/
def phaseOps (ctx : Nat) (flagValue : String) (run : CheckerRunRecord) : List ServerOp :=
  .clock :: .store ctx (.recordCheckerRun run) ::
    if run.phase = "put" && run.status = "success" then
      [.store ctx (.issueFlag (issuedFlag tickID target flagValue run.checkedAt))]
    else []

end runs

variable {σ : Type} {ι : Type v}

/-- A store in which the runs of a target are recorded: `tracks` says that it holds the runs of
the target so far, the newest first. -/
structure RecordingStore (E : Surroundings (ServerShared σ) (ServerInput ι) ServerOp ServerOp.Res)
    (sem : StoreSem σ ι) (batch : Except String (List CheckerPhaseResult))
    (records : CheckerRunRecord → Prop) (tracks : List CheckerRunRecord → σ → Prop) : Prop where
  sem_eq : E.sem = serverSem sem
  batch_eq : ∀ input, E.input input → input.batch = batch
  rely_tracks : ∀ {history s t}, E.rely s t → tracks history s.store → tracks history t.store
  record : ∀ {history input err s run}, E.input input → tracks history s → records run →
    ∃ s' record, sem input.store err s (.recordCheckerRun run) = (s', .ok record) ∧
      tracks (run :: history) s'
  issue : ∀ {history input err s flag}, E.input input → tracks history s →
    ∃ s', sem input.store err s (.issueFlag flag) = (s', .ok ()) ∧ tracks history s'

namespace RecordingStore
variable {E : Surroundings (ServerShared σ) (ServerInput ι) ServerOp ServerOp.Res}
  {sem : StoreSem σ ι} {batch : Except String (List CheckerPhaseResult)}
  {records : CheckerRunRecord → Prop} {tracks : List CheckerRunRecord → σ → Prop}
  {s : ServerShared σ} {history : List CheckerRunRecord} {ctx : Nat} {tickID : Int}
  {target : CheckerTarget} {flagValue : String}

/-- A store call that answers without an error. -/
theorem store_after (H : RecordingStore E sem batch records tracks) {op : StoreOp}
    (history' : List CheckerRunRecord) (htracks : tracks history s.store)
    (hcall : ∀ {input err s}, E.input input → tracks history s →
      ∃ s' r, sem input.store err s op = (s', .ok r) ∧ tracks history' s') :
    Proc.After E (store ctx op) s fun r ops s' =>
      (∃ answer, r = .ok answer) ∧ ops = [.store ctx op] ∧ tracks history' s'.store := by
  refine Proc.After.bind (Q := fun (r : Except StoreError op.Answer) ops s' =>
    (∃ answer, r = .ok answer) ∧ ops = [.store ctx op] ∧ tracks history' s'.store) ?_ ?_
  · refine .perform fun s₁ input s₂ r hrely hinput hsem => ?_
    obtain ⟨store', answer, hstore, hnew⟩ :=
      @hcall input (s₁.contextErr ctx) s₁.store hinput (H.rely_tracks hrely htracks)
    rw [H.sem_eq] at hsem
    simp only [serverSem, hstore] at hsem
    cases hsem
    exact ⟨⟨answer, rfl⟩, rfl, hnew⟩
  · rintro r ops s' ⟨⟨answer, rfl⟩, rfl, hnew⟩
    exact .pure ⟨⟨answer, rfl⟩, by simp, hnew⟩

theorem clock_after (H : RecordingStore E sem batch records tracks)
    (htracks : tracks history s.store) :
    Proc.After E clock s fun _ ops s' => ops = [.clock] ∧ tracks history s'.store := by
  refine .perform fun s₁ input s₂ r hrely hinput hsem => ?_
  rw [H.sem_eq] at hsem
  cases hsem
  exact ⟨rfl, H.rely_tracks hrely htracks⟩

theorem issueStoredFlag_after (H : RecordingStore E sem batch records tracks)
    (htracks : tracks history s.store) (run : CheckerRunRecord) :
    Proc.After E (issueStoredFlag ctx tickID target flagValue run) s fun r ops s' =>
      r = .ok () ∧ tracks history s'.store ∧
        .clock :: .store ctx (.recordCheckerRun run) :: ops =
          phaseOps tickID target ctx flagValue run := by
  refine .ite (fun hput => ?_) fun hput => ?_
  · refine (H.store_after history htracks fun hinput h => ?_).weaken ?_
    · obtain ⟨s', hsem, h'⟩ := H.issue hinput h
      exact ⟨s', (), hsem, h'⟩
    · rintro r ops s' ⟨⟨_, rfl⟩, rfl, h'⟩
      exact ⟨rfl, h', by rw [phaseOps, if_pos hput]⟩
  · exact .pure ⟨rfl, htracks, by rw [phaseOps, if_neg hput]⟩

/-- The phase loop, by induction on the phases that are left. -/
theorem runPhases_after (H : RecordingStore E sem batch records tracks) {phases : List String}
    (hrecords : ∀ halted runTime, ∀ phase ∈ phases,
      records (phaseRun tickID target batch halted runTime phase).1)
    {halted : Bool} {counts : CheckerTargetTickResult} (htracks : tracks history s.store) :
    Proc.After E (runPhases ctx tickID target flagValue batch phases halted counts) s
      fun r ops s' => r.2 = none ∧ ∃ runs, PhaseRuns tickID target batch phases halted runs ∧
        ops = runs.flatMap (phaseOps tickID target ctx flagValue) ∧
        tracks (runs.reverse ++ history) s'.store := by
  induction phases generalizing s history halted counts with
  | nil => exact .pure ⟨rfl, [], .nil, rfl, htracks⟩
  | cons phase phases ih =>
    refine .bind (H.clock_after htracks) ?_
    rintro runTime _ s₁ ⟨rfl, htracks₁⟩
    have hrecord := hrecords halted runTime phase (.head _)
    generalize hrun : phaseRun tickID target batch halted runTime phase = out at hrecord ⊢
    obtain ⟨run, halted'⟩ := out
    refine .bind (H.store_after (run :: history) htracks₁ fun hinput h =>
      H.record hinput h hrecord) ?_
    rintro _ _ s₂ ⟨⟨record, rfl⟩, rfl, htracks₂⟩
    refine .bind (H.issueStoredFlag_after htracks₂ _) ?_
    rintro _ ops₃ s₃ ⟨rfl, htracks₃, hops⟩
    refine (ih (fun halted runTime phase hphase => hrecords halted runTime phase (.tail _ hphase))
      htracks₃).weaken ?_
    rintro r ops s' ⟨hr, runs, hruns, rfl, htracks'⟩
    refine ⟨hr, _, .cons hrun hruns, ?_, ?_⟩
    · rw [List.flatMap_cons, ← hops]
      rfl
    · rw [List.reverse_cons, List.append_assoc]
      exact htracks'

/-- Every execution of `runCheckerTarget` records the runs of its phases, and nothing else. -/
theorem runCheckerTarget_after (H : RecordingStore E sem batch records tracks)
    {cfg : ServerConfig} (hrecords : ∀ halted runTime, ∀ phase ∈ cfg.checkerPhases,
      records (phaseRun tickID target batch halted runTime phase).1)
    (htracks : tracks history s.store) :
    Proc.After E (runCheckerTarget cfg ctx tickID target) s fun r ops s' =>
      r.2 = none ∧ ∃ flagValue runs, PhaseRuns tickID target batch cfg.checkerPhases false runs ∧
        ops = .loadCodec :: .executeBatch ctx tickID target flagValue ::
          runs.flatMap (phaseOps tickID target ctx flagValue) ∧
        tracks (runs.reverse ++ history) s'.store := by
  have hload : Proc.After E loadCodec s fun _ ops s' =>
      ops = [.loadCodec] ∧ tracks history s'.store := by
    refine .perform fun s₁ input s₂ r hrely hinput hsem => ?_
    rw [H.sem_eq] at hsem
    cases hsem
    exact ⟨rfl, H.rely_tracks hrely htracks⟩
  refine .bind hload ?_
  rintro codec _ s₁ ⟨rfl, htracks₁⟩
  have hexecute : ∀ flagValue, Proc.After E (executeBatch ctx tickID target flagValue) s₁
      fun r ops s' => r = batch ∧ ops = [.executeBatch ctx tickID target flagValue] ∧
        tracks history s'.store := by
    refine fun flagValue => .perform fun s₂ input s₃ r hrely hinput hsem => ?_
    rw [H.sem_eq] at hsem
    cases hsem
    exact ⟨H.batch_eq input hinput, rfl, H.rely_tracks hrely htracks₁⟩
  refine .bind (hexecute _) ?_
  rintro _ _ s₂ ⟨rfl, rfl, htracks₂⟩
  refine (H.runPhases_after hrecords htracks₂).weaken ?_
  rintro r ops s' ⟨hr, runs, hruns, rfl, htracks'⟩
  exact ⟨hr, _, runs, hruns, rfl, htracks'⟩

/-! ### The loop comes to an end -/

theorem store_terminates (hsem : E.sem = serverSem sem) (hinput : ∃ input, E.input input)
    (hrefl : ∀ s, E.rely s s) {op : StoreOp} : Proc.Terminates E (store ctx op) := by
  obtain ⟨input, hinput⟩ := hinput
  refine .bind (.perform fun s => ⟨s, input, _, _, hrefl s, hinput, by rw [hsem]; rfl⟩) fun r => ?_
  match r with
  | .ok _ => exact .pure
  | .error .panic => exact .abort hrefl
  | .error .noRows | .error .tickInProgress | .error .contestNotStarted | .error .contestPaused
  | .error .contestOver | .error .flagNoLongerValid | .error (.failure _) => exact .pure

theorem runPhases_terminates (hsem : E.sem = serverSem sem) (hinput : ∃ input, E.input input)
    (hrefl : ∀ s, E.rely s s) {batch' : Except String (List CheckerPhaseResult)}
    {phases : List String} {halted : Bool} {counts : CheckerTargetTickResult} :
    Proc.Terminates E (runPhases ctx tickID target flagValue batch' phases halted counts) := by
  induction phases generalizing halted counts with
  | nil => exact .pure
  | cons phase phases ih =>
    have hclock : Proc.Terminates E clock := by
      obtain ⟨input, hinput⟩ := hinput
      exact .perform fun s => ⟨s, input, _, _, hrefl s, hinput, by rw [hsem]; rfl⟩
    refine .bind hclock fun runTime => ?_
    generalize phaseRun tickID target batch' halted runTime phase = out
    obtain ⟨run, halted'⟩ := out
    refine .bind (store_terminates hsem hinput hrefl) fun r => ?_
    match r with
    | .error _ => exact .pure
    | .ok _ =>
      have hissue : Proc.Terminates E (issueStoredFlag ctx tickID target flagValue run) :=
        .ite (fun _ => store_terminates hsem hinput hrefl) fun _ => .pure
      refine .bind hissue fun r => ?_
      match r with
      | .error _ => exact .pure
      | .ok () => exact ih

theorem runCheckerTarget_terminates (sem : StoreSem σ ι) (hsem : E.sem = serverSem sem)
    (hinput : ∃ input, E.input input) (hrefl : ∀ s, E.rely s s) {cfg : ServerConfig} :
    Proc.Terminates E (runCheckerTarget cfg ctx tickID target) := by
  have hrun := hinput
  obtain ⟨input, hinput⟩ := hinput
  have hperform : ∀ op, (∀ s, ∃ s' r, serverSem sem input op s = some (s', r)) →
      Proc.Terminates E (Proc.perform op) := fun op hop => .perform fun s => by
    obtain ⟨s', r, hr⟩ := hop s
    exact ⟨s, input, s', r, hrefl s, hinput, by rw [hsem]; exact hr⟩
  refine .bind (hperform _ fun s => ⟨_, _, rfl⟩) fun codec => ?_
  refine .bind (hperform _ fun s => ⟨_, _, rfl⟩) fun batch' => ?_
  exact runPhases_terminates hsem hrun hrefl

end RecordingStore

/-! ## The runs of a batch -/

/-- The statuses that `runCheckerTarget` records. -/
def runStatuses : List String := ["success", "failed", "skipped"]

/-- The status that a batch gives to a phase that is reached; `none` where it has no result. -/
def phaseStatus (batch : Except String (List CheckerPhaseResult)) (phase : String) :
    Option String :=
  match batch with
  | .error _ => some "failed"
  | .ok results =>
    ((Go.Map.fill (·.phase) id results ∅ : Go.Map String CheckerPhaseResult).lookup phase).map
      fun result => normalizedCheckerRunStatus result.status

theorem normalizedCheckerRunStatus_mem (status : String) :
    normalizedCheckerRunStatus status ∈ runStatuses := by
  unfold normalizedCheckerRunStatus
  split <;> simp [runStatuses]

theorem mem_of_lookup_results {results : List CheckerPhaseResult} {phase : String}
    {result : CheckerPhaseResult}
    (h : (Go.Map.fill (·.phase) id results ∅ : Go.Map String CheckerPhaseResult).lookup phase =
      some result) : result ∈ results := by
  suffices ∀ m : Go.Map String CheckerPhaseResult,
      (Go.Map.fill (·.phase) id results m).lookup phase = some result →
        result ∈ results ∨ m.lookup phase = some result by
    rcases this ∅ h with hmem | hempty
    · exact hmem
    · cases hempty
  clear h
  induction results with
  | nil => exact fun m hm => .inr hm
  | cons x results ih =>
    intro m hm
    rcases ih _ hm with hmem | hlookup
    · exact .inl (.tail _ hmem)
    · by_cases hphase : phase = x.phase
      · rw [hphase, AList.lookup_insert, id, Option.some_inj] at hlookup
        exact .inl (hlookup ▸ .head _)
      · rw [AList.lookup_insert_ne hphase] at hlookup
        exact .inr hlookup

/-- A phase that is reached has the status of its result, and halts the target if it failed or
has none. -/
theorem phaseRun_reached (tickID : Int) (target : CheckerTarget)
    (batch : Except String (List CheckerPhaseResult)) (runTime : Time) (phase : String) :
    (phaseRun tickID target batch false runTime phase).1.status =
        (phaseStatus batch phase).getD "skipped" ∧
      ((phaseRun tickID target batch false runTime phase).2 = true ↔
        phaseStatus batch phase = none ∨ phaseStatus batch phase = some "failed") := by
  unfold phaseRun phaseStatus
  cases batch with
  | error => simp
  | ok results =>
    dsimp only
    cases (Go.Map.fill (·.phase) id results ∅ : Go.Map String CheckerPhaseResult).lookup phase with
    | none => simp
    | some result => simp

/-! ## The statuses of a target -/

section Statuses
variable (batch : Except String (List CheckerPhaseResult))

/-- The statuses that `runCheckerTarget` records for phases, from a phase on that it reaches. -/
def reachedStatuses : List String → List String
  | [] => []
  | phase :: phases =>
    match phaseStatus batch phase with
    | none => "skipped" :: phases.map fun _ => "skipped"
    | some "failed" => "failed" :: phases.map fun _ => "skipped"
    | some status => status :: reachedStatuses phases

variable {batch} {tickID : Int} {target : CheckerTarget} {phases : List String}
  {runs : List CheckerRunRecord}

theorem phaseRun_phase (halted : Bool) (runTime : Time) (phase : String) :
    (phaseRun tickID target batch halted runTime phase).1.phase = phase := by
  unfold phaseRun
  split
  · rfl
  · split
    · rfl
    · split <;> rfl

theorem PhaseRuns.phases_eq {halted : Bool} (h : PhaseRuns tickID target batch phases halted runs) :
    runs.map (·.phase) = phases := by
  induction h with
  | nil => rfl
  | @cons phase phases halted halted' run runs runTime hrun _ ih =>
    have hphase : (phaseRun tickID target batch halted runTime phase).1.phase = phase :=
      phaseRun_phase halted runTime phase
    rw [hrun] at hphase
    rw [List.map_cons, ih, hphase]

theorem PhaseRuns.halted_statuses (h : PhaseRuns tickID target batch phases true runs) :
    runs.map (·.status) = phases.map fun _ => "skipped" := by
  generalize hhalted : true = halted at h
  induction h with
  | nil => rfl
  | cons hrun _ ih =>
    subst hhalted
    cases hrun
    rw [List.map_cons, List.map_cons, ih rfl]

theorem PhaseRuns.statuses (h : PhaseRuns tickID target batch phases false runs) :
    runs.map (·.status) = reachedStatuses batch phases := by
  generalize hhalted : false = halted at h
  induction h with
  | nil => rfl
  | @cons phase phases halted halted' run runs runTime hrun hrest ih =>
    subst hhalted
    obtain ⟨hstatus, hhalt⟩ := phaseRun_reached tickID target batch runTime phase
    rw [hrun] at hstatus hhalt
    rw [List.map_cons, hstatus, reachedStatuses]
    dsimp only at hhalt
    split
    · rename_i hnone
      obtain rfl : halted' = true := hhalt.mpr (.inl hnone)
      rw [hnone, Option.getD_none, hrest.halted_statuses]
    · rename_i hfailed
      obtain rfl : halted' = true := hhalt.mpr (.inr hfailed)
      rw [hfailed, Option.getD_some, hrest.halted_statuses]
    · rename_i status hne hsome
      obtain rfl : halted' = false := by
        rw [← Bool.not_eq_true, hhalt, hsome]
        simpa using hne
      rw [hsome, Option.getD_some, ih rfl]

end Statuses

/-! ## What the operations of a target recorded -/

/-- The runs that are recorded by operations. -/
def recordedRuns (ops : List ServerOp) : List CheckerRunRecord :=
  ops.filterMap fun
    | .store _ (.recordCheckerRun run) => some run
    | _ => none

/-- A flag is stored among the operations. -/
def flagIssued (ops : List ServerOp) : Bool :=
  ops.any fun
    | .store _ (.issueFlag _) => true
    | _ => false

section Ops
variable {tickID : Int} {target : CheckerTarget} {ctx : Nat} {flagValue : String}

theorem recordedRuns_phaseOps (run : CheckerRunRecord) :
    recordedRuns (phaseOps tickID target ctx flagValue run) = [run] := by
  unfold phaseOps
  split <;> rfl

theorem flagIssued_phaseOps (run : CheckerRunRecord) :
    flagIssued (phaseOps tickID target ctx flagValue run) =
      (run.phase = "put" && run.status = "success") := by
  unfold phaseOps
  split
  · rename_i h
    rw [h]
    rfl
  · rename_i h
    rw [Bool.not_eq_true] at h
    rw [h]
    rfl

theorem recordedRuns_flatMap (runs : List CheckerRunRecord) :
    recordedRuns (runs.flatMap (phaseOps tickID target ctx flagValue)) = runs := by
  induction runs with
  | nil => rfl
  | cons run runs ih =>
    have happend : ∀ ops ops' : List ServerOp,
        recordedRuns (ops ++ ops') = recordedRuns ops ++ recordedRuns ops' :=
      fun ops ops' => List.filterMap_append
    rw [List.flatMap_cons, happend, recordedRuns_phaseOps, ih, List.singleton_append]

theorem flagIssued_flatMap (runs : List CheckerRunRecord) :
    flagIssued (runs.flatMap (phaseOps tickID target ctx flagValue)) =
      runs.any fun run => run.phase = "put" && run.status = "success" := by
  induction runs with
  | nil => rfl
  | cons run runs ih =>
    have happend : ∀ ops ops' : List ServerOp,
        flagIssued (ops ++ ops') = (flagIssued ops || flagIssued ops') :=
      fun ops ops' => List.any_append
    rw [List.flatMap_cons, happend, flagIssued_phaseOps, ih, List.any_cons]

end Ops

end ADPlatform.GameCore
