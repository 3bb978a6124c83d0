import ADPlatform.GameCore.Server
import ADPlatform.GameCore.Tables

/-! # Checker runs and the service state they leave

`RecordCheckerRun` stores a run and refreshes the state of its tick, team and challenge. Both
stores are compared with `stateAfter`, the state as a function of the runs recorded so far: a
report is taken as it is, a run that is skipped keeps what is there, and every other run
summarises all of them again. -/

namespace ADPlatform.GameCore
open Text

/-! ## What a summary depends on -/

/-- What a summary reads of a run. -/
def GameCheckerRun.outcome (run : GameCheckerRun) : String × String × String :=
  (run.phase, run.status, run.message)

/-- What a summary reads of the state of a phase. -/
def TickPhaseState.view (state : TickPhaseState) : Option (String × String) × Bool × Bool :=
  (state.run.map fun run => (run.status, run.message), state.success, state.failed)

/-- The loop of `collectTickPhaseStates`, at the state of the phase of a run. -/
def TickPhaseState.update (state : TickPhaseState) (run : GameCheckerRun) : TickPhaseState :=
  let state := if shouldReplacePhaseRun state.run run then { state with run := some run } else state
  match toLower (trimSpace run.status) with
  | "success" => { state with success := true }
  | "failed" => { state with failed := true }
  | _ => if state.run.isNone then { state with run := some run } else state

theorem collect_eq (phases : TickPhases) (run : GameCheckerRun) :
    collectTickPhaseStates.collect phases run =
      if toLower (trimSpace run.phase) = "" then phases
      else phases.insert (toLower (trimSpace run.phase))
        ((phases.at (toLower (trimSpace run.phase))).update run) := rfl

theorem TickPhases.at_insert (phases : TickPhases) (phase phase' : String)
    (state : TickPhaseState) :
    TickPhases.at (phases.insert phase state) phase' =
      if phase' = phase then state else phases.at phase' :=
  Go.Map.get_insert phases phase phase' state {}

namespace TickPhaseState
variable {state state' : TickPhaseState} {run run' : GameCheckerRun}

theorem view_isNone (h : state.view = state'.view) : state.run.isNone = state'.run.isNone := by
  have := congrArg (fun v => v.1.isNone) h
  simpa [view] using this

theorem view_isSome (h : state.view = state'.view) : state.run.isSome = state'.run.isSome := by
  have := congrArg (fun v => v.1.isSome) h
  simpa [view] using this

theorem view_success (h : state.view = state'.view) : state.success = state'.success :=
  congrArg (fun v => v.2.1) h

theorem view_broken (h : state.view = state'.view) : state.broken = state'.broken := by
  have hfailed : state.failed = state'.failed := congrArg (fun v => v.2.2) h
  simp only [broken, hfailed, view_success h, view_isSome h]

theorem view_message (h : state.view = state'.view) (fallback : String) :
    phaseMessage state fallback = phaseMessage state' fallback := by
  have hrun : (state.run.map fun run => (run.status, run.message)) =
      state'.run.map fun run => (run.status, run.message) := congrArg (fun v => v.1) h
  unfold phaseMessage
  cases hs : state.run with
  | none =>
    rw [hs] at hrun
    rw [Option.map_eq_none_iff.mp hrun.symm]
  | some run =>
    rw [hs] at hrun
    obtain ⟨run', hrun', heq⟩ := Option.map_eq_some_iff.mp hrun.symm
    have hmessage : run'.message = run.message := congrArg (fun v => v.2) heq
    simp only [hrun', hmessage]

theorem view_replace (h : state.view = state'.view) (hrun : run.outcome = run'.outcome) :
    shouldReplacePhaseRun state.run run = shouldReplacePhaseRun state'.run run' := by
  have hstatus : run.status = run'.status := congrArg (fun o => o.2.1) hrun
  have hold : (state.run.map fun run => (run.status, run.message)) =
      state'.run.map fun run => (run.status, run.message) := congrArg (fun v => v.1) h
  unfold shouldReplacePhaseRun
  cases hs : state.run with
  | none =>
    rw [hs] at hold
    rw [Option.map_eq_none_iff.mp hold.symm]
  | some old =>
    rw [hs] at hold
    obtain ⟨old', hold', heq⟩ := Option.map_eq_some_iff.mp hold.symm
    have hrank : old'.status = old.status := congrArg (fun v => v.1) heq
    simp only [hold', hrank, hstatus]

theorem view_update (h : state.view = state'.view) (hrun : run.outcome = run'.outcome) :
    (state.update run).view = (state'.update run').view := by
  have hstatus : run.status = run'.status := congrArg (fun o => o.2.1) hrun
  have hmessage : run.message = run'.message := congrArg (fun o => o.2.2) hrun
  have hreplaced : (if shouldReplacePhaseRun state.run run then
        { state with run := some run } else state).view =
      (if shouldReplacePhaseRun state'.run run' then
        { state' with run := some run' } else state').view := by
    rw [view_replace h hrun]
    split
    · have hbits : state.view.2 = state'.view.2 := congrArg (fun v => v.2) h
      simpa [view, hstatus, hmessage] using hbits
    · exact h
  unfold update
  generalize (if shouldReplacePhaseRun state.run run then
    { state with run := some run } else state) = x at hreplaced ⊢
  generalize (if shouldReplacePhaseRun state'.run run' then
    { state' with run := some run' } else state') = y at hreplaced ⊢
  have hnone := view_isNone hreplaced
  dsimp only
  rw [hstatus, hnone]
  simp only [view, Prod.mk.injEq] at hreplaced ⊢
  obtain ⟨hr, hs, hf⟩ := hreplaced
  split
  · exact ⟨hr, rfl, hf⟩
  · exact ⟨hr, hs, rfl⟩
  · split
    · exact ⟨by simp [hstatus, hmessage], hs, hf⟩
    · exact ⟨hr, hs, hf⟩

end TickPhaseState

/-- The phase states of two collections look alike. -/
def TickPhases.Alike (phases phases' : TickPhases) : Prop :=
  ∀ phase, (phases.at phase).view = (phases'.at phase).view

theorem collect_alike {phases phases' : TickPhases} (h : phases.Alike phases')
    {run run' : GameCheckerRun} (hrun : run.outcome = run'.outcome) :
    TickPhases.Alike (collectTickPhaseStates.collect phases run)
      (collectTickPhaseStates.collect phases' run') := by
  have hphase : run.phase = run'.phase := congrArg (fun o => o.1) hrun
  rw [collect_eq, collect_eq, hphase]
  split
  · exact h
  · intro phase
    rw [TickPhases.at_insert, TickPhases.at_insert]
    split
    · exact TickPhaseState.view_update (h _) hrun
    · exact h phase

theorem collectTickPhaseStates_alike {runs runs' : List GameCheckerRun}
    (h : runs.map GameCheckerRun.outcome = runs'.map GameCheckerRun.outcome) :
    (collectTickPhaseStates runs).Alike (collectTickPhaseStates runs') := by
  suffices ∀ phases phases' : TickPhases, phases.Alike phases' →
      TickPhases.Alike (runs.foldl collectTickPhaseStates.collect phases)
        (runs'.foldl collectTickPhaseStates.collect phases') from
    this ∅ ∅ fun _ => rfl
  induction runs generalizing runs' with
  | nil =>
    intro phases phases' halike
    rw [List.map_eq_nil_iff.mp h.symm]
    exact halike
  | cons run runs ih =>
    intro phases phases' halike
    obtain ⟨run', rest', rfl, hrun, hrest⟩ := List.map_eq_cons_iff.mp h.symm
    exact ih hrest.symm _ _ (collect_alike halike hrun.symm)

/-- A summary depends on the phases, statuses and messages of the runs only. -/
theorem summarize_congr {runs runs' : List GameCheckerRun}
    (h : runs.map GameCheckerRun.outcome = runs'.map GameCheckerRun.outcome) (tickID : Int) :
    summarizeCheckerRunsForTick runs tickID = summarizeCheckerRunsForTick runs' tickID := by
  have halike := collectTickPhaseStates_alike h
  have hempty : runs.isEmpty = runs'.isEmpty := by
    simpa using congrArg List.isEmpty h
  have hbroken : ∀ phase, _ := fun phase => TickPhaseState.view_broken (halike phase)
  have hnone : ∀ phase, _ := fun phase => TickPhaseState.view_isNone (halike phase)
  have hsome : ∀ phase, _ := fun phase => TickPhaseState.view_isSome (halike phase)
  have hsuccess : ∀ phase, _ := fun phase => TickPhaseState.view_success (halike phase)
  have hmessage : ∀ phase fallback, _ := fun phase => TickPhaseState.view_message (halike phase)
  have hrunning : checkerCycleStillRunning (collectTickPhaseStates runs) =
      checkerCycleStillRunning (collectTickPhaseStates runs') := by
    simp only [checkerCycleStillRunning, checkerCycleStillRunning.go, checkerPhaseOrder, hbroken,
      hnone]
  have hmissing : nextMissingCheckerPhase (collectTickPhaseStates runs) =
      nextMissingCheckerPhase (collectTickPhaseStates runs') := by
    simp only [nextMissingCheckerPhase, hnone]
  have hdominant : dominantFailurePhase (collectTickPhaseStates runs) =
      dominantFailurePhase (collectTickPhaseStates runs') := by
    simp only [dominantFailurePhase, hbroken, hsome]
  have hfailure : dominantFailureMessage (collectTickPhaseStates runs) =
      dominantFailureMessage (collectTickPhaseStates runs') := by
    simp only [dominantFailureMessage, hbroken, hmessage]
  simp only [summarizeCheckerRunsForTick, hempty, hrunning, hmissing, hdominant, hfailure,
    hsuccess, hmessage]

/-! ## The state after a run of reports -/

namespace CheckerRunRecord

/-- The service and tick that the run is about. -/
def key (run : CheckerRunRecord) : CheckerRunGroupKey :=
  { tickID := run.tickID, teamID := run.teamID, challengeID := run.challengeID }

/-- The run as a store keeps it under an id. -/
def stored (run : CheckerRunRecord) (id : Int) : GameCheckerRun :=
  { id, tickID := run.tickID, teamID := run.teamID, teamName := run.teamName
    challengeID := run.challengeID, challengeName := run.challengeName, phase := run.phase
    target := run.target, checkerImage := run.checkerImage, status := run.status
    exitCode := run.exitCode, message := run.message, output := run.output
    checkedAt := run.checkedAt.formatRFC3339 }

/-- The run carries a canonical state. -/
def reports (run : CheckerRunRecord) : Bool :=
  normalizeServiceStateStatus run.reportedServiceState ≠ ""

/-- The state that a run reports. -/
def reportedSummary (run : CheckerRunRecord) : GameServiceStateSummary :=
  let normalized := normalizeServiceStateStatus run.reportedServiceState
  { status := normalized, phase := inferReportedStatePhase normalized, tickID := run.tickID
    message := fallbackReportedStateMessage normalized run.reportedStateMessage }

end CheckerRunRecord

/-- The state inferred from the runs of one tick, team and challenge, the newest first. -/
def inferredSummary (tickID : Int) (runs : List CheckerRunRecord) : GameServiceStateSummary :=
  summarizeCheckerRunsForTick (runs.map (·.stored 0)) tickID

/-- The state after the runs of one tick, team and challenge, the newest first, in a store that
leaves the state as it is at the runs that `keeps` picks out. -/
def stateAfter (keeps : CheckerRunRecord → Bool) :
    List CheckerRunRecord → Option GameServiceStateSummary
  | [] => none
  | run :: earlier =>
    if run.reports then some run.reportedSummary
    else if keeps run && (stateAfter keeps earlier).isSome then stateAfter keeps earlier
    else some (inferredSummary run.tickID (run :: earlier))

/-! ## The tables of the checker runs -/

/-- The service and tick that the record is about. -/
def GameCheckerRun.key (run : GameCheckerRun) : CheckerRunGroupKey :=
  { tickID := run.tickID, teamID := run.teamID, challengeID := run.challengeID }

/-- A row of `checker_service_states`, with all its columns. -/
structure ServiceStateRow where
  key : CheckerRunGroupKey
  serviceState : String
  statePhase : String
  stateMessage : String
  deriving DecidableEq, Repr

/-- The summary that `loadCheckerRunSummaries` scans from a row. -/
def ServiceStateRow.summary (row : ServiceStateRow) : GameServiceStateSummary :=
  { status := row.serviceState, phase := row.statePhase, tickID := row.key.tickID
    message := row.stateMessage }

/-- The tables that `postgresGameStore.RecordCheckerRun` reads and writes: the keys that its rows
refer to, the runs, the sequence of their ids, and the states. -/
structure CheckerTables where
  tickIDs : List Int := []
  teamIDs : List Int := []
  challengeIDs : List Int := []
  checkerRuns : List GameCheckerRun := []
  nextRunID : Int := 1
  checkerServiceStates : List ServiceStateRow := []

namespace CheckerTables
variable (db : CheckerTables)

/-- The columns that the store scans; the others stay at their zero values. -/
def scanned (row : GameCheckerRun) : GameCheckerRun :=
  { id := 0, tickID := row.tickID, teamID := row.teamID, teamName := "",
    challengeID := row.challengeID
    challengeName := "", phase := row.phase, target := "", checkerImage := "", status := row.status
    exitCode := 0, message := row.message, output := "", checkedAt := row.checkedAt }

/-- `SELECT … FROM checker_runs WHERE … ORDER BY id DESC`. -/
def selectRuns (key : CheckerRunGroupKey) : List GameCheckerRun :=
  ((db.checkerRuns.filter (·.key = key)).insertionSort fun x y => y.id ≤ x.id).map scanned

/-- `SELECT … FROM checker_service_states WHERE …`. -/
def selectState (key : CheckerRunGroupKey) : Option ServiceStateRow :=
  db.checkerServiceStates.find? (·.key = key)

/-- The upsert of a summary. -/
def saveState (run : CheckerRunRecord) (summary : GameServiceStateSummary) : CheckerTables :=
  let row : ServiceStateRow :=
    { key := run.key, serviceState := summary.status, statePhase := summary.phase
      stateMessage := summary.message }
  { db with checkerServiceStates := Table.upsert (·.key) row db.checkerServiceStates }

/-- `refreshPostgresServiceStateTx`: a report is stored, a skipped run leaves a stored state, and
any other run has the state inferred. -/
def refreshPostgresServiceStateTx (run : CheckerRunRecord) : CheckerTables :=
  if normalizeServiceStateStatus run.reportedServiceState ≠ "" then
    db.saveState run run.reportedSummary
  else if run.status = "skipped" &&
      (db.selectState run.key).any fun row => trimSpace row.serviceState ≠ "" then db
  else db.saveState run (summarizeCheckerRunsForTick (db.selectRuns run.key) run.tickID)

/-- The texts that the statements for a run bind. -/
def boundTexts (run : CheckerRunRecord) : List String :=
  [run.teamName, run.challengeName, run.phase, run.target, run.checkerImage, run.status,
    run.message, run.output] ++ if run.reports then [run.reportedSummary.message] else []

/-- Why the database rejects a run: a text with a NUL character, or a foreign key. -/
def rejection (run : CheckerRunRecord) : Option String :=
  if (boundTexts run).any (·.toList.contains (Char.ofNat 0)) then
    some "invalid byte sequence for encoding \"UTF8\": 0x00"
  else if run.tickID ∉ db.tickIDs then some "checker_runs_tick_id_fkey"
  else if run.teamID ∉ db.teamIDs then some "checker_runs_team_id_fkey"
  else if run.challengeID ∉ db.challengeIDs then some "checker_runs_challenge_id_fkey"
  else none

theorem rejection_eq_none {db : CheckerTables} {run : CheckerRunRecord} :
    db.rejection run = none ↔
      (∀ text ∈ boundTexts run, ¬text.toList.contains (Char.ofNat 0)) ∧ run.tickID ∈ db.tickIDs ∧
        run.teamID ∈ db.teamIDs ∧ run.challengeID ∈ db.challengeIDs := by
  rw [← List.any_eq_false, rejection]
  cases (boundTexts run).any fun text => text.toList.contains (Char.ofNat 0) with
  | true => simp
  | false =>
    simp only [Bool.false_eq_true, if_false]
    split_ifs <;> simp_all

/-- The runs of a list that the database takes. -/
def taken (runs : List CheckerRunRecord) : List CheckerRunRecord :=
  runs.filter fun run => (db.rejection run).isNone

/-- The `INSERT` of a run. -/
def insertRun (run : CheckerRunRecord) : CheckerTables :=
  { db with
    checkerRuns := run.stored db.nextRunID :: db.checkerRuns
    nextRunID := db.nextRunID + 1 }

/-- `postgresGameStore.RecordCheckerRun`, one transaction. When it fails, only the sequence of the
ids has moved. -/
def recordCheckerRun (run : CheckerRunRecord) : CheckerTables × Except StoreError GameCheckerRun :=
  match db.rejection run with
  | some reason => ({ db with nextRunID := db.nextRunID + 1 }, .error (.failure reason))
  | none => ((db.insertRun run).refreshPostgresServiceStateTx run, .ok (run.stored db.nextRunID))

end CheckerTables

/-! ## The two stores against `stateAfter` -/

/-- The runs at which the in-memory store keeps the state that is there. -/
def MemoryGameStore.keepsState (run : CheckerRunRecord) : Bool :=
  run.status = "skipped" && trimSpace run.reportedServiceState = ""

/-- The runs at which the postgres store keeps the state that is there. -/
def CheckerTables.keepsState (run : CheckerRunRecord) : Bool :=
  run.status = "skipped" && !run.reports

theorem normalizeServiceStateStatus_blank {value : String} (h : trimSpace value = "") :
    normalizeServiceStateStatus value = "" := by
  have hlower : toLower "" = "" := by decide +kernel
  rw [normalizeServiceStateStatus, h, hlower]
  rfl

/-- The states that a store ever holds. -/
def canonicalStates : List String :=
  ["ok", "recovering", "flag_not_found", "faulty", "down", "unknown"]

theorem canonicalStates_ne_blank : ∀ status ∈ canonicalStates, trimSpace status ≠ "" := by
  decide

theorem normalizeServiceStateStatus_mem {value : String}
    (h : normalizeServiceStateStatus value ≠ "") :
    normalizeServiceStateStatus value ∈ canonicalStates := by
  unfold normalizeServiceStateStatus at h ⊢
  split at h <;> first | exact absurd rfl h | simp [canonicalStates]

theorem summarize_status_mem (runs : List GameCheckerRun) (tickID : Int) :
    (summarizeCheckerRunsForTick runs tickID).status ∈ canonicalStates := by
  unfold summarizeCheckerRunsForTick
  split
  · simp [canonicalStates]
  dsimp only
  generalize hsummary : (if checkerCycleStillRunning (collectTickPhaseStates runs) = true then
    _ else _ : GameServiceStateSummary) = summary
  have hstatus : summary.status ∈ canonicalStates := by
    rw [← hsummary]
    split_ifs <;> simp [canonicalStates]
  split <;> exact hstatus

theorem stateAfter_mem {keeps : CheckerRunRecord → Bool} {runs : List CheckerRunRecord}
    {summary : GameServiceStateSummary} (h : stateAfter keeps runs = some summary) :
    summary.status ∈ canonicalStates := by
  induction runs with
  | nil => cases h
  | cons run earlier ih =>
    unfold stateAfter at h
    split at h
    · rename_i hreports
      obtain rfl := Option.some.inj h
      exact normalizeServiceStateStatus_mem (of_decide_eq_true hreports)
    · split at h
      · exact ih h
      · obtain rfl := Option.some.inj h
        exact summarize_status_mem _ _

/-- The runs of a key after one more run. -/
theorem filter_stored {key : CheckerRunGroupKey} {runs : List GameCheckerRun}
    {history : List CheckerRunRecord}
    (h : (runs.filter (·.key = key)).map GameCheckerRun.outcome =
      history.map fun run => (run.stored 0).outcome) (run : CheckerRunRecord) (id : Int) :
    ((run.stored id :: runs).filter (·.key = key)).map GameCheckerRun.outcome =
      (if run.key = key then run :: history else history).map fun run =>
        (run.stored 0).outcome := by
  have hkey : (run.stored id).key = run.key := rfl
  rw [List.filter_cons, hkey]
  split
  · rename_i heq
    rw [if_pos (of_decide_eq_true heq), List.map_cons, List.map_cons, h]
    rfl
  · rename_i hne
    rw [if_neg (by simpa using hne), h]

/-- The store after a sequence of recorded runs. -/
def MemoryGameStore.recordRuns {K : Type} (s : MemoryGameStore K) (runs : List CheckerRunRecord) :
    MemoryGameStore K :=
  runs.foldl (fun s run => (s.recordCheckerRun run).1) s

/-- The database after these runs. -/
def CheckerTables.recordRuns (db : CheckerTables) (runs : List CheckerRunRecord) : CheckerTables :=
  runs.foldl (fun db run => (db.recordCheckerRun run).1) db

/-- The store holds the runs of a key, the newest first, and the state after them. -/
structure MemoryGameStore.Tracks {K : Type} (key : CheckerRunGroupKey)
    (history : List CheckerRunRecord) (s : MemoryGameStore K) : Prop where
  runs : (s.runs.filter (·.key = key)).map GameCheckerRun.outcome =
    history.map fun run => (run.stored 0).outcome
  state : s.serviceStates.lookup key = stateAfter MemoryGameStore.keepsState history

namespace MemoryGameStore
variable {K : Type} {s : MemoryGameStore K} {key : CheckerRunGroupKey}
  {history : List CheckerRunRecord} {run : CheckerRunRecord}

theorem filter_columns (runs : List GameCheckerRun) (run : CheckerRunRecord) :
    (runs.filter fun x => x.tickID = run.tickID && x.teamID = run.teamID &&
      x.challengeID = run.challengeID) = runs.filter (·.key = run.key) := by
  refine List.filter_congr fun x _ => ?_
  simp [GameCheckerRun.key, CheckerRunRecord.key, Bool.and_assoc]

theorem recordCheckerRun_runs (s : MemoryGameStore K) (run : CheckerRunRecord) :
    (s.recordCheckerRun run).1.runs = run.stored s.nextRun :: s.runs := by
  unfold recordCheckerRun refreshMemoryServiceState
  dsimp only
  split <;> rfl

/-- What a recorded run does to the states. -/
theorem recordCheckerRun_states (s : MemoryGameStore K) (run : CheckerRunRecord) :
    (s.recordCheckerRun run).1.serviceStates =
      if run.reports then s.serviceStates.insert run.key run.reportedSummary
      else if keepsState run && (s.serviceStates.lookup run.key).isSome then s.serviceStates
      else s.serviceStates.insert run.key (summarizeCheckerRunsForTick
        ((run.stored s.nextRun :: s.runs).filter (·.key = run.key)) run.tickID) := by
  rw [← filter_columns]
  unfold recordCheckerRun refreshMemoryServiceState
  dsimp only
  by_cases hkeep : (s.serviceStates.lookup run.key).isSome && run.status = "skipped" &&
      trimSpace run.reportedServiceState = ""
  · have hkept : (keepsState run && (s.serviceStates.lookup run.key).isSome) = true := by
      simp only [keepsState, Bool.and_eq_true] at hkeep ⊢
      exact ⟨⟨hkeep.1.2, hkeep.2⟩, hkeep.1.1⟩
    have hblank : trimSpace run.reportedServiceState = "" := by
      simp only [Bool.and_eq_true, decide_eq_true_eq] at hkeep
      exact hkeep.2
    have hreports : run.reports = false := by
      simp [CheckerRunRecord.reports, normalizeServiceStateStatus_blank hblank]
    rw [hreports, if_neg Bool.false_ne_true, if_pos hkept]
    exact (congrArg MemoryGameStore.serviceStates (if_pos hkeep)).trans rfl
  · have hkept : ¬(keepsState run && (s.serviceStates.lookup run.key).isSome) = true := by
      simp only [keepsState, Bool.and_eq_true] at hkeep ⊢
      exact fun h => hkeep ⟨⟨h.2, h.1.1⟩, h.1.2⟩
    rw [if_neg hkept]
    refine (congrArg MemoryGameStore.serviceStates (if_neg hkeep)).trans ?_
    by_cases hreports : normalizeServiceStateStatus run.reportedServiceState ≠ ""
    · rw [if_pos (show run.reports = true from decide_eq_true hreports)]
      exact congrArg (AList.insert run.key · s.serviceStates) (if_pos hreports)
    · rw [if_neg (show ¬run.reports = true by simpa [CheckerRunRecord.reports] using hreports)]
      exact congrArg (AList.insert run.key · s.serviceStates) (if_neg hreports)

/-- A recorded run extends the history of its own key and of no other. -/
theorem Tracks.recordCheckerRun (h : Tracks key history s) (run : CheckerRunRecord) :
    Tracks key (if run.key = key then run :: history else history) (s.recordCheckerRun run).1 := by
  have hfilter := filter_stored h.runs run s.nextRun
  refine ⟨by rw [recordCheckerRun_runs]; exact hfilter, ?_⟩
  rw [recordCheckerRun_states]
  by_cases hkey : run.key = key
  · subst hkey
    simp only [if_true] at hfilter ⊢
    have hinferred : summarizeCheckerRunsForTick
        ((run.stored s.nextRun :: s.runs).filter (·.key = run.key)) run.tickID =
          inferredSummary run.tickID (run :: history) :=
      summarize_congr (by rw [hfilter, List.map_map]; rfl) _
    rw [stateAfter, ← h.state, hinferred]
    split_ifs <;> simp [*]
  · rw [if_neg hkey]
    split_ifs <;> simp [h.state, AList.lookup_insert_ne (Ne.symm hkey)]

/-- No run has been recorded. -/
def NoRuns (s : MemoryGameStore K) : Prop := s.runs = [] ∧ s.serviceStates = ∅

theorem NoRuns.tracks (h : NoRuns s) (key : CheckerRunGroupKey) : Tracks key [] s where
  runs := by rw [h.1]; rfl
  state := by rw [h.2]; rfl

/-- The state of a key is the one after the runs recorded for it. -/
theorem Tracks.recordRuns (h : Tracks key history s) (runs : List CheckerRunRecord) :
    Tracks key ((runs.filter (·.key = key)).reverse ++ history) (s.recordRuns runs) := by
  induction runs generalizing s history with
  | nil => exact h
  | cons run runs ih =>
    have hrest := ih (h.recordCheckerRun run)
    rw [List.filter_cons]
    split at hrest
    · rename_i hkey
      rwa [if_pos (decide_eq_true hkey), List.reverse_cons, List.append_assoc]
    · rename_i hkey
      rwa [if_neg (by simpa using hkey)]

end MemoryGameStore

namespace CheckerTables
variable {db : CheckerTables} {key : CheckerRunGroupKey} {history : List CheckerRunRecord}

/-- The ids of the runs come from the sequence. -/
structure Numbered (db : CheckerTables) : Prop where
  newest : db.checkerRuns.Pairwise fun x y => y.id < x.id
  next : ∀ run ∈ db.checkerRuns, run.id < db.nextRunID

/-- The tables hold the runs of a key, the newest first, and the state after them. -/
structure Tracks (key : CheckerRunGroupKey) (history : List CheckerRunRecord)
    (db : CheckerTables) : Prop where
  numbered : db.Numbered
  runs : (db.checkerRuns.filter (·.key = key)).map GameCheckerRun.outcome =
    history.map fun run => (run.stored 0).outcome
  state : (db.selectState key).map ServiceStateRow.summary = stateAfter keepsState history

theorem Numbered.insertRun (h : db.Numbered) (run : CheckerRunRecord) :
    (db.insertRun run).Numbered where
  newest := List.pairwise_cons.mpr ⟨h.next, h.newest⟩
  next x hx := by
    rcases List.mem_cons.mp hx with rfl | hx
    · exact Int.lt_succ _
    · exact (h.next x hx).trans (Int.lt_succ _)

/-- A selection comes out in the order in which the runs were recorded. -/
theorem selectRuns_outcome (h : db.Numbered) (key : CheckerRunGroupKey) :
    (db.selectRuns key).map GameCheckerRun.outcome =
      (db.checkerRuns.filter (·.key = key)).map GameCheckerRun.outcome := by
  have hsorted : (db.checkerRuns.filter (·.key = key)).Pairwise fun x y => y.id ≤ x.id :=
    (h.newest.sublist List.filter_sublist).imp le_of_lt
  rw [selectRuns, hsorted.insertionSort_eq, List.map_map]
  rfl

theorem selectState_saveState (db : CheckerTables) (run : CheckerRunRecord)
    (summary : GameServiceStateSummary) (key : CheckerRunGroupKey)
    (htick : summary.tickID = run.tickID) :
    ((db.saveState run summary).selectState key).map ServiceStateRow.summary =
      if run.key = key then some summary else (db.selectState key).map ServiceStateRow.summary := by
  rw [saveState, selectState, Table.find?_upsert]
  split
  · rename_i hkey
    obtain ⟨status, phase, tickID, message⟩ := summary
    obtain rfl : tickID = run.tickID := htick
    rfl
  · rfl

theorem summarize_tickID (runs : List GameCheckerRun) (tickID : Int) :
    (summarizeCheckerRunsForTick runs tickID).tickID = tickID := by
  unfold summarizeCheckerRunsForTick
  split
  · rfl
  dsimp only
  generalize hsummary : (if checkerCycleStillRunning (collectTickPhaseStates runs) = true then
    _ else _ : GameServiceStateSummary) = summary
  have htick : summary.tickID = tickID := by
    rw [← hsummary]
    split_ifs <;> rfl
  split <;> exact htick

theorem refresh_runs (db : CheckerTables) (run : CheckerRunRecord) :
    (db.refreshPostgresServiceStateTx run).checkerRuns = db.checkerRuns ∧
      (db.refreshPostgresServiceStateTx run).nextRunID = db.nextRunID := by
  unfold refreshPostgresServiceStateTx
  split
  · exact ⟨rfl, rfl⟩
  split <;> exact ⟨rfl, rfl⟩

/-- A recorded run extends the history of its own key and of no other. -/
theorem Tracks.recordCheckerRun (h : Tracks key history db) {run : CheckerRunRecord}
    (hrun : db.rejection run = none) :
    Tracks key (if run.key = key then run :: history else history) (db.recordCheckerRun run).1 := by
  simp only [CheckerTables.recordCheckerRun, hrun]
  have hnumbered := h.numbered.insertRun run
  have hfilter := filter_stored h.runs run db.nextRunID
  obtain ⟨hruns, hnext⟩ := (db.insertRun run).refresh_runs run
  refine ⟨⟨hruns ▸ hnumbered.newest, by rw [hruns, hnext]; exact hnumbered.next⟩,
    by rw [hruns]; exact hfilter, ?_⟩
  have hselect : ((db.insertRun run).selectState key).map ServiceStateRow.summary =
      stateAfter keepsState history := h.state
  by_cases hkey : run.key = key
  · subst hkey
    rw [if_pos rfl] at hfilter ⊢
    have hinferred :
        summarizeCheckerRunsForTick ((db.insertRun run).selectRuns run.key) run.tickID =
        inferredSummary run.tickID (run :: history) :=
      summarize_congr ((selectRuns_outcome hnumbered _).trans
        (hfilter.trans (by rw [List.map_map]; rfl))) _
    -- a stored state is never blank, so the test for one is the test for a row
    have hany : ((db.insertRun run).selectState run.key).any
        (fun row => trimSpace row.serviceState ≠ "") = (stateAfter keepsState history).isSome := by
      rw [← hselect]
      cases hrow : (db.insertRun run).selectState run.key with
      | none => rfl
      | some row =>
        rw [hrow] at hselect
        have hne := canonicalStates_ne_blank _ (stateAfter_mem hselect.symm)
        exact decide_eq_true hne
    unfold refreshPostgresServiceStateTx
    rw [stateAfter, hany, hinferred]
    by_cases hreports : run.reports
    · rw [if_pos hreports, if_pos (of_decide_eq_true hreports),
        selectState_saveState _ _ _ _ rfl, if_pos rfl]
    · rw [if_neg hreports, if_neg (by simpa [CheckerRunRecord.reports] using hreports)]
      have hkeeps : keepsState run = decide (run.status = "skipped") := by
        simp [keepsState, hreports]
      rw [hkeeps]
      split
      · exact hselect
      · rw [selectState_saveState _ _ (inferredSummary ..) _ (summarize_tickID _ _), if_pos rfl]
  · rw [if_neg hkey]
    unfold refreshPostgresServiceStateTx
    split
    · rw [selectState_saveState _ _ _ _ rfl, if_neg hkey, hselect]
    split
    · exact hselect
    · rw [selectState_saveState _ _ _ _ (summarize_tickID _ _), if_neg hkey, hselect]

theorem recordCheckerRun_ok {run : CheckerRunRecord} (hrun : db.rejection run = none) :
    db.recordCheckerRun run =
      ((db.recordCheckerRun run).1, .ok (run.stored db.nextRunID)) := by
  simp only [recordCheckerRun, hrun]

/-- Recording runs changes no key that they refer to. -/
theorem recordCheckerRun_rejection (db : CheckerTables) (run run' : CheckerRunRecord) :
    (db.recordCheckerRun run).1.rejection run' = db.rejection run' := by
  unfold recordCheckerRun
  split
  · rfl
  unfold refreshPostgresServiceStateTx
  split
  · rfl
  split <;> rfl

/-- No run has been recorded. -/
def NoRuns (db : CheckerTables) : Prop := db.checkerRuns = [] ∧ db.checkerServiceStates = []

theorem NoRuns.tracks (h : NoRuns db) (key : CheckerRunGroupKey) : Tracks key [] db where
  numbered := ⟨by rw [h.1]; exact .nil, by rw [h.1]; nofun⟩
  runs := by rw [h.1]; rfl
  state := by rw [selectState, h.2]; rfl

theorem recordCheckerRun_taken (db : CheckerTables) (run : CheckerRunRecord) :
    (db.recordCheckerRun run).1.taken = db.taken :=
  funext fun _ => List.filter_congr fun run' _ => by rw [recordCheckerRun_rejection]

/-- A rejected run leaves no trace but a number of the sequence. -/
theorem Tracks.rejected (h : Tracks key history db) {run : CheckerRunRecord} {reason : String}
    (hrun : db.rejection run = some reason) : Tracks key history (db.recordCheckerRun run).1 := by
  simp only [CheckerTables.recordCheckerRun, hrun]
  exact ⟨⟨h.numbered.newest, fun run hmem => (h.numbered.next run hmem).trans (Int.lt_succ _)⟩,
    h.runs, h.state⟩

/-- The state of a key is the one after the runs for it that the database has taken. -/
theorem Tracks.recordRuns (h : Tracks key history db) (runs : List CheckerRunRecord) :
    Tracks key (((db.taken runs).filter (·.key = key)).reverse ++ history)
      (db.recordRuns runs) := by
  induction runs generalizing db history with
  | nil => exact h
  | cons run runs ih =>
    cases hrun : db.rejection run with
    | some reason =>
      have hrest := ih (h.rejected hrun)
      rw [recordCheckerRun_taken] at hrest
      rwa [taken, List.filter_cons_of_neg (by simp [hrun])]
    | none =>
      have hrest := ih (h.recordCheckerRun hrun)
      rw [recordCheckerRun_taken] at hrest
      rw [taken, List.filter_cons_of_pos (by simp [hrun]), List.filter_cons]
      split at hrest
      · rename_i hkey
        rwa [if_pos (decide_eq_true hkey), List.reverse_cons, List.append_assoc]
      · rename_i hkey
        rwa [if_neg (by simpa using hkey)]

/-! ## The tables that the scores read -/

/-- The tables agree with those of the scores. -/
structure Views {K : Type} (db : CheckerTables) (scores : Database K) : Prop where
  tickIDs : db.tickIDs = scores.tickIDs
  teamIDs : db.teamIDs = scores.teamIDs
  challengeIDs : db.challengeIDs = scores.challengeIDs
  states : db.checkerServiceStates.map (fun row => ⟨row.key, row.serviceState⟩) =
    scores.checkerServiceStates

theorem Views.saveState {K : Type} {scores : Database K} (h : db.Views scores)
    {run : CheckerRunRecord} (hrun : db.rejection run = none) (summary : GameServiceStateSummary) :
    (db.saveState run summary).Views (scores.saveServiceState ⟨run.key, summary.status⟩) := by
  have hrefs : run.key.teamID ∈ scores.teamIDs ∧ run.key.challengeID ∈ scores.challengeIDs ∧
      run.key.tickID ∈ scores.tickIDs := by
    obtain ⟨-, htick, hteam, hchallenge⟩ := rejection_eq_none.mp hrun
    rw [← h.teamIDs, ← h.challengeIDs, ← h.tickIDs]
    exact ⟨hteam, hchallenge, htick⟩
  rw [Database.saveServiceState, if_pos hrefs]
  refine ⟨h.tickIDs, h.teamIDs, h.challengeIDs, ?_⟩
  simp only [CheckerTables.saveState, Table.upsert, ← h.states, List.map_append, List.filter_map,
    List.map_cons, List.map_nil]
  rfl

/-- For the scores, a checker run is one upsert of a service state, or nothing. -/
theorem Views.recordCheckerRun {K : Type} {scores : Database K} (h : db.Views scores)
    (run : CheckerRunRecord) :
    (db.recordCheckerRun run).1.Views scores ∨
      ∃ status, (db.recordCheckerRun run).1.Views (scores.saveServiceState ⟨run.key, status⟩) := by
  unfold CheckerTables.recordCheckerRun
  split
  · exact .inl ⟨h.tickIDs, h.teamIDs, h.challengeIDs, h.states⟩
  rename_i hrun
  have hinserted : (db.insertRun run).Views scores :=
    ⟨h.tickIDs, h.teamIDs, h.challengeIDs, h.states⟩
  have hrun' : (db.insertRun run).rejection run = none := hrun
  dsimp only
  unfold refreshPostgresServiceStateTx
  split
  · exact .inr ⟨_, hinserted.saveState hrun' _⟩
  split
  · exact .inl hinserted
  · exact .inr ⟨_, hinserted.saveState hrun' _⟩

end CheckerTables

end ADPlatform.GameCore
