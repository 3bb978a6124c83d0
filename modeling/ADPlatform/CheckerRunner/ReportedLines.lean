import ADPlatform.CheckerRunner.Output

/-! # The lines that report a service state

A checker and the service that it checks write to one stream. The first valid line decides what is
reported, so that nothing behind it matters, and the output keeps every line but the empty and the
valid ones. -/

namespace ADPlatform.CheckerRunner
open ByteString
open Text (bytes)
open GameCore (normalizeServiceStateStatus)

section lines
variable (unmarshal : List UInt8 → Option CheckerReportedServiceState)

/-- A line with the marker, and the text behind it. -/
def MarkedLine (line raw : List UInt8) : Prop :=
  ∃ rest, trimSpace line = serviceStatePrefix ++ rest ∧ raw = trimSpace rest

/-- A marker with nothing behind it. -/
def EmptyStateLine (line : List UInt8) : Prop := MarkedLine line []

/-- A line that carries a state, as a JSON object or as a plain word. -/
def ValidStateLine (line : List UInt8) (status : String) (message : List UInt8) : Prop :=
  ∃ raw payload, MarkedLine line raw ∧ raw ≠ [] ∧
    (if raw.head? = some 123 then unmarshal raw else some { status := raw }) = some payload ∧
    normalizeServiceStateStatus (text payload.status) = status ∧ status ≠ "" ∧
    trimSpace payload.message = message

variable {unmarshal} {line : List UInt8}

theorem markedLine_iff {raw : List UInt8} : MarkedLine line raw ↔
    serviceStatePrefix.isPrefixOf (trimSpace line) = true ∧
      raw = trimSpace ((trimSpace line).drop serviceStatePrefix.length) := by
  constructor
  · rintro ⟨rest, hline, hraw⟩
    rw [hraw, hline, List.isPrefixOf_iff_prefix, List.drop_left]
    exact ⟨List.prefix_append .., rfl⟩
  · rintro ⟨hfront, hraw⟩
    obtain ⟨rest, hline⟩ := List.isPrefixOf_iff_prefix.mp hfront
    exact ⟨rest, hline.symm, by rw [hraw, ← hline, List.drop_left]⟩

theorem stateLine_unmarked (h : ¬ ∃ raw, MarkedLine line raw) :
    stateLine unmarshal line = .kept := by
  have hfront : serviceStatePrefix.isPrefixOf (trimSpace line) = false := by
    rw [← Bool.not_eq_true]
    exact fun hfront => h ⟨_, markedLine_iff.mpr ⟨hfront, rfl⟩⟩
  rw [stateLine, hfront]
  rfl

theorem stateLine_marked {raw : List UInt8} (h : MarkedLine line raw) : stateLine unmarshal line =
    if raw = [] then .dropped
    else
      match if raw.head? = some 123 then unmarshal raw else some { status := raw } with
      | none => .kept
      | some payload =>
        match normalizeServiceStateStatus (text payload.status) with
        | "" => .kept
        | status => .reported status (trimSpace payload.message) := by
  obtain ⟨hfront, hraw⟩ := markedLine_iff.mp h
  rw [stateLine, hfront, hraw]
  refine (if_neg Bool.false_ne_true).trans ?_
  rfl

theorem MarkedLine.unique {raw raw' : List UInt8} (h : MarkedLine line raw)
    (h' : MarkedLine line raw') :
    raw = raw' :=
  (markedLine_iff.mp h).2.trans (markedLine_iff.mp h').2.symm

theorem stateLine_dropped_iff : stateLine unmarshal line = .dropped ↔ EmptyStateLine line := by
  constructor
  · intro h
    by_cases hmarked : ∃ raw, MarkedLine line raw
    · obtain ⟨raw, hmarked⟩ := hmarked
      rw [stateLine_marked hmarked] at h
      split at h
      · rename_i hraw
        subst hraw
        exact hmarked
      · split at h
        · cases h
        · split at h <;> cases h
    · rw [stateLine_unmarked hmarked] at h
      cases h
  · intro h
    rw [stateLine_marked h, if_pos rfl]

theorem stateLine_reported_iff {status : String} {message : List UInt8} :
    stateLine unmarshal line = .reported status message ↔
      ValidStateLine unmarshal line status message := by
  constructor
  · intro h
    by_cases hmarked : ∃ raw, MarkedLine line raw
    · obtain ⟨raw, hmarked⟩ := hmarked
      rw [stateLine_marked hmarked] at h
      split at h
      · cases h
      · rename_i hraw
        split at h
        · cases h
        · rename_i payload hpayload
          split at h
          · cases h
          · rename_i hstatus
            cases h
            exact ⟨raw, payload, hmarked, hraw, hpayload, rfl, hstatus, rfl⟩
    · rw [stateLine_unmarked hmarked] at h
      cases h
  · rintro ⟨raw, payload, hmarked, hraw, hpayload, rfl, hstatus, rfl⟩
    rw [stateLine_marked hmarked, if_neg hraw, hpayload]
    dsimp only
    split
    · rename_i hempty
      exact absurd hempty hstatus
    · rfl

end lines

/-! ## The output -/

section output
variable {unmarshal : List UInt8 → Option CheckerReportedServiceState} {allow : Bool}
  {out : ServiceStateOutput} {lines : List (List UInt8)}

/-- A line is kept unless it is an empty or a valid one. -/
def keeps (unmarshal : List UInt8 → Option CheckerReportedServiceState)
    (line : List UInt8) : Bool :=
  match stateLine unmarshal line with
  | .kept => true
  | .dropped | .reported .. => false

theorem keeps_iff {line : List UInt8} : keeps unmarshal line = true ↔
    ¬ EmptyStateLine line ∧ ¬ ∃ status message, ValidStateLine unmarshal line status message := by
  simp only [← @stateLine_dropped_iff unmarshal, ← stateLine_reported_iff]
  unfold keeps
  cases stateLine unmarshal line with
  | kept => simp
  | dropped => simp
  | reported status message => simp

theorem filtered_foldl (lines : List (List UInt8)) (out : ServiceStateOutput) :
    (lines.foldl (ServiceStateOutput.add unmarshal allow) out).filtered =
      out.filtered ++ lines.filter (keeps unmarshal) := by
  induction lines generalizing out with
  | nil => exact (List.append_nil _).symm
  | cons line lines ih =>
    have hline : (out.add unmarshal allow line).filtered =
        out.filtered ++ [line].filter (keeps unmarshal) := by
      rw [List.filter_singleton, ServiceStateOutput.add, keeps]
      cases stateLine unmarshal line with
      | kept => rfl
      | dropped => exact (List.append_nil _).symm
      | reported status message =>
        dsimp only
        split <;> exact (List.append_nil _).symm
    rw [List.foldl_cons, ih, hline, List.append_assoc, ← List.filter_append, List.singleton_append]

theorem reported_forbidden (lines : List (List UInt8)) (out : ServiceStateOutput) :
    (lines.foldl (ServiceStateOutput.add unmarshal false) out).reportedStatus = out.reportedStatus ∧
      (lines.foldl (ServiceStateOutput.add unmarshal false) out).reportedMessage =
        out.reportedMessage := by
  induction lines generalizing out with
  | nil => exact ⟨rfl, rfl⟩
  | cons line lines ih =>
    have hline : (out.add unmarshal false line).reportedStatus = out.reportedStatus ∧
        (out.add unmarshal false line).reportedMessage = out.reportedMessage := by
      unfold ServiceStateOutput.add
      cases stateLine unmarshal line <;> exact ⟨rfl, rfl⟩
    rw [List.foldl_cons, (ih _).1, (ih _).2]
    exact hline

/-- Once a state has been reported, no line changes it. -/
theorem reported_settled (h : out.reportedStatus ≠ "") (lines : List (List UInt8)) :
    (lines.foldl (ServiceStateOutput.add unmarshal allow) out).reportedStatus = out.reportedStatus ∧
      (lines.foldl (ServiceStateOutput.add unmarshal allow) out).reportedMessage =
        out.reportedMessage := by
  induction lines generalizing out with
  | nil => exact ⟨rfl, rfl⟩
  | cons line lines ih =>
    have hline : (out.add unmarshal allow line).reportedStatus = out.reportedStatus ∧
        (out.add unmarshal allow line).reportedMessage = out.reportedMessage := by
      unfold ServiceStateOutput.add
      cases stateLine unmarshal line with
      | kept => exact ⟨rfl, rfl⟩
      | dropped => exact ⟨rfl, rfl⟩
      | reported status message =>
        dsimp only
        rw [decide_eq_false h, Bool.and_false, if_neg Bool.false_ne_true]
        exact ⟨rfl, rfl⟩
    rw [List.foldl_cons, (ih (hline.1 ▸ h)).1, (ih (hline.1 ▸ h)).2]
    exact hline

/-- A valid line among the lines settles the report. -/
theorem reported_of_valid {line : List UInt8} {status : String} {message : List UInt8}
    (hmem : line ∈ lines) (h : ValidStateLine unmarshal line status message)
    (out : ServiceStateOutput) :
    (lines.foldl (ServiceStateOutput.add unmarshal true) out).reportedStatus ≠ "" := by
  induction lines generalizing out with
  | nil => cases hmem
  | cons first lines ih =>
    rw [List.foldl_cons]
    rcases List.mem_cons.mp hmem with rfl | hmem
    · have hstatus : (out.add unmarshal true line).reportedStatus ≠ "" := by
        unfold ServiceStateOutput.add
        rw [stateLine_reported_iff.mpr h]
        dsimp only
        obtain ⟨_, _, -, -, -, -, hne, -⟩ := h
        split
        · exact hne
        · rename_i hsettled
          simpa using hsettled
      rw [(reported_settled hstatus lines).1]
      exact hstatus
    · exact ih hmem _

end output

/-- Behind a valid line nothing changes what is reported; nothing is reported where it is not
allowed; and the output keeps exactly the lines that are neither empty nor valid state lines, in
their order. -/
theorem reported_state_settled (unmarshal : List UInt8 → Option CheckerReportedServiceState) :
    (∀ (output more : List UInt8),
      (∃ line ∈ output.splitOn 10, ∃ status message, ValidStateLine unmarshal line status message) →
        (parseCheckerServiceStateOutput unmarshal (output ++ 10 :: more) true).2 =
          (parseCheckerServiceStateOutput unmarshal output true).2) ∧
    (∀ output, (parseCheckerServiceStateOutput unmarshal output false).2 = ("", [])) ∧
    ∀ (output : List UInt8) (allow : Bool), ∃ kept : List UInt8 → Bool,
      (∀ line, kept line = true ↔ ¬ EmptyStateLine line ∧
        ¬ ∃ status message, ValidStateLine unmarshal line status message) ∧
      (parseCheckerServiceStateOutput unmarshal output allow).1 =
        trimSpace ([10].intercalate ((output.splitOn 10).filter kept)) := by
  refine ⟨fun output more h => ?_, fun output => ?_, fun output allow => ?_⟩
  · obtain ⟨line, hmem, status, message, hvalid⟩ := h
    have hsettled := reported_of_valid hmem hvalid {}
    unfold parseCheckerServiceStateOutput
    rw [List.splitOn_append_cons_self, List.foldl_append]
    dsimp only
    rw [(reported_settled hsettled _).1, (reported_settled hsettled _).2]
  · unfold parseCheckerServiceStateOutput
    dsimp only
    rw [(reported_forbidden _ _).1, (reported_forbidden _ _).2]
  · refine ⟨keeps unmarshal, fun line => keeps_iff, ?_⟩
    unfold parseCheckerServiceStateOutput
    dsimp only
    rw [filtered_foldl, List.nil_append]

/-- A checker reports that the service is fine, and the service that it is down. -/
theorem reported_state_settled_first :
    (parseCheckerServiceStateOutput (fun _ => none)
      (bytes "ADPLATFORM_SERVICE_STATE=ok" ++ 10 :: bytes "ADPLATFORM_SERVICE_STATE=down") true).2 =
      (parseCheckerServiceStateOutput (fun _ => none)
        (bytes "ADPLATFORM_SERVICE_STATE=ok") true).2 := by
  have hmarked : MarkedLine (bytes "ADPLATFORM_SERVICE_STATE=ok") (bytes "ok") :=
    ⟨bytes "ok", by decide, by decide⟩
  have hvalid : ValidStateLine (fun _ => none) (bytes "ADPLATFORM_SERVICE_STATE=ok") "ok" [] :=
    ⟨bytes "ok", { status := bytes "ok" }, hmarked, by decide,
      by rw [if_neg (by decide)], by decide +kernel, by decide, rfl⟩
  exact (reported_state_settled fun _ => none).1 _ _ ⟨_, by decide, _, _, hvalid⟩

end ADPlatform.CheckerRunner
