import ADPlatform.GameCore.CheckerRuns

/-! # Reported and inferred service states

The two stores leave the same states behind the same runs, as far as the database takes them. In
both, a state that a checker reports holds only until the next run that is not skipped: that run
summarises the phases again, and what it infers replaces the report. -/

namespace ADPlatform.GameCore
open Text

theorem stateAfter_congr {keeps keeps' : CheckerRunRecord → Bool} {runs : List CheckerRunRecord}
    (h : ∀ run ∈ runs, keeps run = keeps' run) :
      stateAfter keeps runs = stateAfter keeps' runs := by
  induction runs with
  | nil => rfl
  | cons run earlier ih =>
    simp only [stateAfter, ih fun x hx => h x (.tail _ hx), h run (.head _)]

theorem normalizeServiceStateStatus_canonical :
    ∀ status ∈ canonicalStates, normalizeServiceStateStatus status = status := by
  decide +kernel

/-- Normalised reports are blank or canonical, so the two tests for a kept state are one. -/
theorem keepsState_eq {run : CheckerRunRecord} {raw : String}
    (h : run.reportedServiceState = normalizeServiceStateStatus raw) :
    MemoryGameStore.keepsState run = CheckerTables.keepsState run := by
  have hreports : decide (trimSpace run.reportedServiceState = "") = !run.reports := by
    unfold CheckerRunRecord.reports
    by_cases hraw : normalizeServiceStateStatus raw = ""
    · have hblank : trimSpace "" = "" := by decide
      rw [h, hraw, hblank, normalizeServiceStateStatus_blank hblank]
      rfl
    · have hmem := normalizeServiceStateStatus_mem hraw
      rw [← h] at hmem hraw
      rw [normalizeServiceStateStatus_canonical _ hmem]
      simp [canonicalStates_ne_blank _ hmem, hraw]
  rw [MemoryGameStore.keepsState, CheckerTables.keepsState, hreports]

/-- A run of the first team on the first service. -/
def firstRun (phase status reportedServiceState : String) : CheckerRunRecord :=
  { tickID := 1, teamID := 1, teamName := "Alpha", challengeID := 1, challengeName := "banking"
    phase, target := "10.80.1.1:8080", checkerImage := "banking-checker", status
    reportedServiceState, checkedAt := 0 }

/-- The tables in which the first team, service and tick exist. -/
def firstTables : CheckerTables := { tickIDs := [1], teamIDs := [1], challengeIDs := [1] }

/-- The run, with another message beside its report. -/
def CheckerRunRecord.withMessage (run : CheckerRunRecord) (message : String) : CheckerRunRecord :=
  { run with reportedStateMessage := message }

theorem fallbackReportedStateMessage_eq (status : String) {message : String}
    (h : trimSpace message ≠ "") :
    fallbackReportedStateMessage status message = trimSpace message := by
  unfold fallbackReportedStateMessage
  simp only [h, ne_eq, not_false_eq_true, if_true]

theorem reportedSummary_message (run : CheckerRunRecord) {message : String} (hne : message ≠ "")
    (htrim : trimSpace message = message) :
    (run.withMessage message).reportedSummary.message = message := by
  have hshown : trimSpace message ≠ "" := by rwa [htrim]
  simp only [CheckerRunRecord.reportedSummary, CheckerRunRecord.withMessage]
  rw [fallbackReportedStateMessage_eq _ hshown, htrim]

theorem stateAfter_isSome {keeps : CheckerRunRecord → Bool} {run : CheckerRunRecord}
    {earlier : List CheckerRunRecord} : (stateAfter keeps (run :: earlier)).isSome := by
  rw [stateAfter]
  split
  · rfl
  split
  · rename_i hkeep
    exact (Bool.and_eq_true_iff.mp hkeep).2
  · rfl

/-- No summary of the phases reads the message of a report. -/
theorem inferredSummary_withMessage (tickID : Int) (report : CheckerRunRecord)
    (earlier later : List CheckerRunRecord) (message : String) :
    inferredSummary tickID (later ++ report.withMessage message :: earlier) =
      inferredSummary tickID (later ++ report :: earlier) := by
  rw [inferredSummary, inferredSummary, List.map_append, List.map_append]
  rfl

/-- The state is the last report, whatever its message, exactly when all later runs are kept. -/
theorem stateAfter_report_iff {keeps : CheckerRunRecord → Bool} {report : CheckerRunRecord}
    {earlier later : List CheckerRunRecord} (allowed : String → Prop) (hreport : report.reports)
    (hlater : ∀ run ∈ later, ¬run.reports) (ha : allowed "a") (hb : allowed "b") :
    (∀ message, allowed message →
      stateAfter keeps (later ++ report.withMessage message :: earlier) =
      some (report.withMessage message).reportedSummary) ↔ ∀ run ∈ later, keeps run := by
  induction later with
  | nil =>
    have hreports : ∀ message, (report.withMessage message).reports = true := fun _ => hreport
    simp [stateAfter, hreports]
  | cons run later ih =>
    have hsome : ∀ message,
        (stateAfter keeps (later ++ report.withMessage message :: earlier)).isSome := by
      cases later <;> exact fun _ => stateAfter_isSome
    simp only [List.cons_append, stateAfter, if_neg (hlater run (.head _)), hsome, Bool.and_true,
      List.forall_mem_cons]
    cases keeps run with
    | true => simpa using ih fun x hx => hlater x (.tail _ hx)
    | false =>
      refine iff_of_false (fun hstands => ?_) (by simp)
      -- one summary cannot be the report of two messages
      have hinferred := fun message => inferredSummary_withMessage run.tickID report earlier
        (run :: later) message
      have hsame : (report.withMessage "a").reportedSummary =
          (report.withMessage "b").reportedSummary := by
        have hstands : ∀ message, allowed message →
            inferredSummary run.tickID (run :: later ++ report.withMessage message :: earlier) =
              (report.withMessage message).reportedSummary := by simpa using hstands
        rw [← hstands "a" ha, ← hstands "b" hb, hinferred, hinferred]
      have hmessage := congrArg GameServiceStateSummary.message hsame
      rw [reportedSummary_message report (by decide) (by decide),
        reportedSummary_message report (by decide) (by decide)] at hmessage
      exact absurd hmessage (by decide)

/-- The database takes a run with another message, if there is no NUL character in it. -/
theorem rejection_withMessage {db : CheckerTables} {report : CheckerRunRecord} {message : String}
    (hreport : db.rejection report = none) (hne : message ≠ "")
    (htrim : trimSpace message = message)
    (hnul : ¬message.toList.contains (Char.ofNat 0)) :
    db.rejection (report.withMessage message) = none := by
  obtain ⟨htexts, hkeys⟩ := CheckerTables.rejection_eq_none.mp hreport
  refine CheckerTables.rejection_eq_none.mpr ⟨fun text htext => ?_, hkeys⟩
  rcases List.mem_append.mp htext with hcolumn | hstate
  · exact htexts text (List.mem_append_left _ hcolumn)
  · rw [reportedSummary_message report hne htrim] at hstate
    split at hstate
    · rwa [List.mem_singleton.mp hstate]
    · cases hstate

/-- After the runs of one tick, team and challenge, the stored state is the one reported last,
whatever the message of the report, exactly when every run behind the report is skipped: in the
memory store with a blank report, in the postgres store as far as the database takes it. -/
theorem reported_state_stored_iff {K : Type} (s : MemoryGameStore K) (db : CheckerTables)
    (hs : s.NoRuns) (hdb : db.NoRuns) (key : CheckerRunGroupKey)
    (earlier : List CheckerRunRecord) (report : CheckerRunRecord) (later : List CheckerRunRecord)
    (hkey : ∀ run ∈ earlier ++ report :: later, run.key = key) (hreport : report.reports)
    (hlater : ∀ run ∈ later, ¬run.reports) (hrecorded : db.rejection report = none) :
    ((∀ message,
      (s.recordRuns (earlier ++ report.withMessage message :: later)).serviceStates.lookup
        key = some (report.withMessage message).reportedSummary) ↔
      ∀ run ∈ later, run.status = "skipped" ∧ trimSpace run.reportedServiceState = "") ∧
    ((∀ message, db.rejection (report.withMessage message) = none →
        ((db.recordRuns (earlier ++ report.withMessage message :: later)).selectState key).map
          ServiceStateRow.summary = some (report.withMessage message).reportedSummary) ↔
      ∀ run ∈ later, db.rejection run = none → run.status = "skipped") := by
  have hreportKey : ∀ message, (report.withMessage message).key = key := fun _ =>
    hkey report (by simp)
  -- all runs are of the key, also where the database has taken only some of them
  have hfilter : ∀ {runs : List CheckerRunRecord}, runs ⊆ earlier ++ later →
      runs.filter (·.key = key) = runs := fun hruns =>
    List.filter_eq_self.mpr fun run hrun => decide_eq_true <| hkey run <| by
      rcases List.mem_append.mp (hruns hrun) with hmem | hmem <;> simp [hmem]
  constructor
  · have hhistory : ∀ message, ((earlier ++ report.withMessage message :: later).filter
        (·.key = key)).reverse ++ [] =
          later.reverse ++ report.withMessage message :: earlier.reverse := fun message => by
      simp [hreportKey, hfilter (List.subset_append_left earlier later),
        hfilter (List.subset_append_right earlier later)]
    have hstands : (∀ message, True → stateAfter MemoryGameStore.keepsState
        (later.reverse ++ report.withMessage message :: earlier.reverse) =
          some (report.withMessage message).reportedSummary) ↔
        ∀ run ∈ later.reverse, MemoryGameStore.keepsState run :=
      stateAfter_report_iff _ hreport (fun run hrun => hlater run (List.mem_reverse.mp hrun))
        trivial trivial
    simp only [((hs.tracks key).recordRuns _).state, hhistory]
    simpa [MemoryGameStore.keepsState] using hstands
  · have hhistory : ∀ message, db.rejection (report.withMessage message) = none →
        ((db.taken (earlier ++ report.withMessage message :: later)).filter (·.key =
          key)).reverse ++
          [] = (db.taken later).reverse ++ report.withMessage message ::
            (db.taken earlier).reverse :=
        fun message hmessage => by
      have htaken : ∀ runs, db.taken runs ⊆ runs := fun _ => List.filter_subset_self _
      have hbefore := hfilter (List.Subset.trans (htaken earlier)
        (List.subset_append_left earlier later))
      have hbehind := hfilter (List.Subset.trans (htaken later)
        (List.subset_append_right earlier later))
      simp only [CheckerTables.taken] at hbefore hbehind ⊢
      simp [hmessage, hreportKey, hbefore, hbehind]
    have hmem : ∀ {run}, run ∈ (db.taken later).reverse ↔
        run ∈ later ∧ db.rejection run = none := by
      simp [CheckerTables.taken]
    have hstands : (∀ message, db.rejection (report.withMessage message) = none →
        stateAfter CheckerTables.keepsState ((db.taken later).reverse ++
          report.withMessage message :: (db.taken earlier).reverse) =
            some (report.withMessage message).reportedSummary) ↔
        ∀ run ∈ (db.taken later).reverse, CheckerTables.keepsState run :=
      stateAfter_report_iff _ hreport (fun run hrun => hlater run (hmem.mp hrun).1)
        (rejection_withMessage hrecorded (by decide) (by decide) (by decide))
        (rejection_withMessage hrecorded (by decide) (by decide) (by decide))
    simp only [((hdb.tracks key).recordRuns _).state]
    refine (forall₂_congr fun message hmessage => by rw [hhistory message hmessage]).trans
      (hstands.trans ?_)
    constructor
    · intro h run hrun hrejection
      have hkeeps := h run (hmem.mpr ⟨hrun, hrejection⟩)
      simp only [CheckerTables.keepsState, Bool.and_eq_true, decide_eq_true_eq] at hkeeps
      exact hkeeps.1
    · intro h run hrun
      obtain ⟨hrun, hrejection⟩ := hmem.mp hrun
      simp [CheckerTables.keepsState, h run hrun hrejection, hlater run hrun]

/-- A check that reports a recovering service, behind which the other phases are skipped. -/
theorem reported_state_stored_iff_skipped :
    let report := firstRun "check" "success" "recovering"
    let runs := [report, firstRun "put" "skipped" "", firstRun "get" "skipped" ""]
    ((MemoryGameStore.new [] ∅ ∅ : MemoryGameStore ℚ).recordRuns runs).serviceStates.lookup
        report.key = some report.reportedSummary ∧
      ((firstTables.recordRuns runs).selectState report.key).map ServiceStateRow.summary =
        some report.reportedSummary := by
  have hstands := reported_state_stored_iff (MemoryGameStore.new [] ∅ ∅ : MemoryGameStore ℚ)
    firstTables ⟨rfl, rfl⟩ ⟨rfl, rfl⟩ (firstRun "check" "" "").key [] (firstRun "check" "success"
      "recovering") [firstRun "put" "skipped" "", firstRun "get" "skipped" ""]
    (by decide) (by decide +kernel) (by decide +kernel) (by decide +kernel)
  exact ⟨hstands.1.mpr (by decide) "",
    hstands.2.mpr (by decide +kernel) "" (by decide +kernel)⟩

/-- The check comes first and reports a recovering service; the put and the get behind it report
nothing and succeed, and the inferred state replaces the report. -/
theorem inferred_state_replaces_report :
    let report := firstRun "check" "success" "recovering"
    let runs := [report, firstRun "put" "success" "", firstRun "get" "success" ""]
    let memory := ((MemoryGameStore.new [] ∅ ∅ : MemoryGameStore ℚ).recordRuns
      runs).serviceStates.lookup report.key
    let postgres :=
      ((firstTables.recordRuns runs).selectState report.key).map ServiceStateRow.summary
    report.reports ∧ report.reportedSummary.status = "recovering" ∧
      memory.map (·.status) = some "ok" ∧ memory ≠ some report.reportedSummary ∧
      postgres.map (·.status) = some "ok" ∧ postgres ≠ some report.reportedSummary := by
  decide +kernel

end ADPlatform.GameCore
