import ADPlatform.Lib.Csv
import ADPlatform.Lib.JSString

/-! # Teams as comma-separated values

`toCsv` neutralizes every cell, so that a spreadsheet takes none for a formula, and quotes it where
it has to be. `readRows_toCsv` says that a reader of RFC 4180 takes the cells back one by one: no
text starts a formula or reaches into another cell. -/

namespace ADPlatform.Web
open JSString

/-- The quote. -/
def quote : UInt16 := 34

/-- The comma. -/
def comma : UInt16 := 44

/-- The characters of the class in `formulaTriggerPattern`. -/
def formulaTriggers : List UInt16 := [61, 43, 45, 64, 9, 13]

/-- `formulaTriggerPattern`: white space, then a trigger. -/
def formulaTriggerPattern : JSString → Bool
  | [] => false
  | c :: rest => c ∈ formulaTriggers || (isWhiteSpace c && formulaTriggerPattern rest)

/-- `(\.\d+)?$`. -/
def fractionPattern : JSString → Bool
  | [] => true
  | c :: digits => c = 46 && !digits.isEmpty && digits.all isDigit

/-- `\d+(\.\d+)?$`. -/
def unsignedPattern (value : JSString) : Bool :=
  !(value.takeWhile isDigit).isEmpty && fractionPattern (value.dropWhile isDigit)

/-- `plainNumberPattern`: a sign, digits and a fraction. -/
def plainNumberPattern (value : JSString) : Bool :=
  match value with
  | c :: rest => unsignedPattern (if c = 43 || c = 45 then rest else value)
  | [] => false

/-- `neutralizeFormula`: what a spreadsheet would calculate gets an apostrophe in front. -/
def neutralizeFormula (value : JSString) : JSString :=
  if plainNumberPattern value || !formulaTriggerPattern value then value else 39 :: value

/-- `value.replaceAll('"', '""')`. -/
def doubleQuotes (value : JSString) : JSString :=
  value.flatMap fun c => if c = quote then [quote, quote] else [c]

/-- A cell as it is written. -/
def csvCell (cell : JSString) : JSString :=
  let value := neutralizeFormula cell
  if value.any fun c =>
    c ∈ [quote, comma, 13, 10] then quote :: (doubleQuotes value ++ [quote]) else value

/-- `toCsv`: rows joined by line feeds, cells by commas. -/
def toCsv (rows : List (List JSString)) : JSString :=
  [10].intercalate (rows.map fun row => [comma].intercalate (row.map csvCell))

/-! ## What the cells look like -/

/-- White space and then one of the characters that start a formula. -/
def StartsFormula (cell : JSString) : Prop :=
  ∃ white c rest, cell = white ++ c :: rest ∧ (∀ d ∈ white, isWhiteSpace d = true) ∧
    c ∈ formulaTriggers

/-- A sign at most, digits, and a fraction at most. -/
def PlainNumber (cell : JSString) : Prop :=
  ∃ sign whole fraction, cell = sign ++ whole ++ fraction ∧
  (sign = [] ∨ sign = [43] ∨ sign = [45]) ∧
    whole ≠ [] ∧ (∀ c ∈ whole, isDigit c = true) ∧
    (fraction = [] ∨ ∃ digits, fraction = 46 :: digits ∧ digits ≠ [] ∧ ∀ c ∈ digits,
      isDigit c = true)

theorem formulaTriggerPattern_iff {cell : JSString} :
    formulaTriggerPattern cell = true ↔ StartsFormula cell := by
  induction cell with
  | nil =>
    refine iff_of_false (by simp [formulaTriggerPattern]) ?_
    rintro ⟨white, c, rest, hcell, -⟩
    cases white <;> cases hcell
  | cons c cell ih =>
    rw [formulaTriggerPattern, Bool.or_eq_true, Bool.and_eq_true, ih, decide_eq_true_eq]
    constructor
    · rintro (htrigger | ⟨hspace, white, d, rest, rfl, hwhite, htrigger⟩)
      · exact ⟨[], c, cell, rfl, by simp, htrigger⟩
      · exact ⟨c :: white, d, rest, rfl, List.forall_mem_cons.mpr ⟨hspace, hwhite⟩, htrigger⟩
    · rintro ⟨white, d, rest, hcell, hwhite, htrigger⟩
      cases white with
      | nil =>
        obtain ⟨rfl, rfl⟩ := List.cons.inj hcell
        exact .inl htrigger
      | cons b white =>
        obtain ⟨rfl, rfl⟩ := List.cons.inj hcell
        exact .inr ⟨hwhite _ (.head _), white, d, rest, rfl, fun x hx =>
          hwhite x (.tail _ hx), htrigger⟩

theorem fractionPattern_iff {value : JSString} : fractionPattern value = true ↔
    value = [] ∨ ∃ digits, value = 46 :: digits ∧ digits ≠ [] ∧ ∀ c ∈ digits, isDigit c = true := by
  cases value with
  | nil => simp [fractionPattern]
  | cons c digits =>
    simp only [fractionPattern, Bool.and_eq_true, decide_eq_true_eq, Bool.not_eq_true',
      List.isEmpty_eq_false_iff,
      List.all_eq_true, List.cons.injEq, reduceCtorEq, false_or]
    constructor
    · rintro ⟨⟨rfl, hne⟩, hdigits⟩
      exact ⟨digits, ⟨rfl, rfl⟩, hne, hdigits⟩
    · rintro ⟨digits', ⟨rfl, rfl⟩, hne, hdigits⟩
      exact ⟨⟨rfl, hne⟩, hdigits⟩

theorem unsignedPattern_iff {value : JSString} : unsignedPattern value = true ↔
    ∃ whole fraction, value = whole ++ fraction ∧ whole ≠ [] ∧ (∀ c ∈ whole, isDigit c = true) ∧
      (fraction = [] ∨ ∃ digits, fraction = 46 :: digits ∧ digits ≠ [] ∧
        ∀ c ∈ digits, isDigit c = true) := by
  rw [unsignedPattern, Bool.and_eq_true, Bool.not_eq_true', List.isEmpty_eq_false_iff,
    fractionPattern_iff]
  constructor
  · rintro ⟨hne, hfraction⟩
    exact ⟨_, _, (List.takeWhile_append_dropWhile ..).symm, hne, fun c hc =>
      List.mem_takeWhile_imp hc,
      hfraction⟩
  · rintro ⟨whole, fraction, rfl, hne, hwhole, hfraction⟩
    have hend : fraction.takeWhile isDigit = [] ∧ fraction.dropWhile isDigit = fraction := by
      rcases hfraction with rfl | ⟨digits, rfl, -⟩
      · exact ⟨rfl, rfl⟩
      · exact ⟨rfl, rfl⟩
    rw [List.takeWhile_append_of_pos hwhole, List.dropWhile_append_of_pos hwhole, hend.1, hend.2,
      List.append_nil]
    exact ⟨hne, hfraction⟩

theorem plainNumberPattern_iff {cell : JSString} :
    plainNumberPattern cell = true ↔ PlainNumber cell := by
  have hsign : ∀ c : UInt16, isDigit c = true → c ≠ 43 ∧ c ≠ 45 := by
    rintro c hc
    constructor
    · rintro rfl
      cases hc
    · rintro rfl
      cases hc
  cases cell with
  | nil =>
    refine iff_of_false (by simp [plainNumberPattern]) ?_
    rintro ⟨sign, whole, fraction, hcell, -, hne, -⟩
    simp [hne] at hcell
  | cons c rest =>
    rw [plainNumberPattern]
    by_cases hc : c = 43 ∨ c = 45
    · rw [if_pos (by simpa using hc), unsignedPattern_iff]
      constructor
      · rintro ⟨whole, fraction, rfl, h⟩
        exact ⟨[c], whole, fraction, rfl, .inr (by simpa using hc), h⟩
      · rintro ⟨sign, whole, fraction, hcell, hsigns, hne, hwhole, hfraction⟩
        rcases hsigns with rfl | rfl | rfl
        · obtain ⟨d, whole', rfl⟩ := List.exists_cons_of_ne_nil hne
          obtain ⟨rfl, -⟩ := List.cons.inj hcell
          exact absurd hc (not_or.mpr (hsign _ (hwhole _ (.head _))))
        · exact ⟨whole, fraction, (List.cons.inj hcell).2, hne, hwhole, hfraction⟩
        · exact ⟨whole, fraction, (List.cons.inj hcell).2, hne, hwhole, hfraction⟩
    · rw [if_neg (by simpa using hc), unsignedPattern_iff]
      constructor
      · rintro ⟨whole, fraction, hcell, h⟩
        exact ⟨[], whole, fraction, hcell, .inl rfl, h⟩
      · rintro ⟨sign, whole, fraction, hcell, hsigns, h⟩
        rcases hsigns with rfl | rfl | rfl
        · exact ⟨whole, fraction, hcell, h⟩
        · exact absurd (.inl (List.cons.inj hcell).1) hc
        · exact absurd (.inr (List.cons.inj hcell).1) hc

/-- A neutralized cell is a number or starts no formula. -/
theorem neutralizeFormula_safe (cell : JSString) :
    PlainNumber (neutralizeFormula cell) ∨ ¬StartsFormula (neutralizeFormula cell) := by
  unfold neutralizeFormula
  split
  · rename_i h
    rw [Bool.or_eq_true, plainNumberPattern_iff, Bool.not_eq_true', ← Bool.not_eq_true,
      formulaTriggerPattern_iff] at h
    exact h
  · refine .inr fun h => ?_
    -- an apostrophe is neither white space nor a trigger
    rw [← formulaTriggerPattern_iff, formulaTriggerPattern] at h
    simp [formulaTriggers, isWhiteSpace] at h

/-! ## The cells are read back -/

/-- The separators of `toCsv`. -/
def rfc4180 : Csv.Dialect UInt16 where
  quote := quote
  comma := comma
  lineFeed := 10
  carriageReturn := 13
  quote_ne_comma := by decide
  quote_ne_lineFeed := by decide
  comma_ne_lineFeed := by decide

theorem csvCell_renders (cell : JSString) :
    Csv.Renders rfc4180 (neutralizeFormula cell) (csvCell cell) := by
  rw [csvCell]
  split
  · exact .quoted
  · rename_i h
    refine .plain fun c hc hspecial => h (List.any_eq_true.mpr ⟨c, hc, ?_⟩)
    rcases hspecial with rfl | rfl | rfl | rfl <;> decide

theorem toCsv_eq (rows : List (List JSString)) : toCsv rows =
    [rfc4180.lineFeed].intercalate (rows.map fun row =>
      [rfc4180.comma].intercalate (row.map csvCell)) := rfl

/-- A reader takes the neutralized cells back, and none of them starts a formula. -/
theorem readRows_toCsv (rows : List (List JSString)) (hne : rows ≠ [])
    (hrows : ∀ row ∈ rows, row ≠ []) :
    Csv.readRows rfc4180 (toCsv rows) = some (rows.map fun row => row.map neutralizeFormula) ∧
      ∀ row ∈ rows.map fun row => row.map neutralizeFormula, ∀ cell ∈ row,
        PlainNumber cell ∨ ¬StartsFormula cell := by
  constructor
  · rw [toCsv_eq]
    exact Csv.readRows_intercalate csvCell_renders hne hrows
  · intro row hrow cell hcell
    obtain ⟨row, -, rfl⟩ := List.mem_map.mp hrow
    obtain ⟨cell, -, rfl⟩ := List.mem_map.mp hcell
    exact neutralizeFormula_safe cell

/-- A formula behind white space, a quote, a separator and a line break, a signed number and
nothing. -/
def trickyRows : List (List JSString) :=
  [[ascii " =1+1", ascii "a\"b"], [ascii "\t-1,2", ascii "x\r\ny"], [ascii "-1.5"], [[]]]

theorem readRows_trickyRows :
    Csv.readRows rfc4180 (toCsv trickyRows) =
        some [[ascii "' =1+1", ascii "a\"b"], [ascii "'\t-1,2", ascii "x\r\ny"],
          [ascii "-1.5"], [[]]] ∧
      ∀ row ∈ trickyRows.map fun row => row.map neutralizeFormula, ∀ cell ∈ row,
        PlainNumber cell ∨ ¬StartsFormula cell :=
  readRows_toCsv trickyRows (by decide) (by decide)

end ADPlatform.Web
