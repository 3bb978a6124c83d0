import Mathlib.Data.List.Basic

/-! # Comma-separated values

The reader of RFC 4180 over any alphabet, with a line feed between records: a quoted cell has any
characters, a doubled quote stands for one, and a plain cell has none of the special characters.
`readRows_intercalate` says that it reads back whatever is written with each cell rendered in one of
the two ways. -/

namespace Csv

/-- The four characters that a table is written with. -/
structure Dialect (α : Type u) where
  quote : α
  comma : α
  lineFeed : α
  carriageReturn : α
  quote_ne_comma : quote ≠ comma
  quote_ne_lineFeed : quote ≠ lineFeed
  comma_ne_lineFeed : comma ≠ lineFeed

/-- Where the reader stands in a cell. -/
inductive Mode where
  | start | plain | quoted
  /-- behind a quote in a quoted cell -/
  | closed
  deriving DecidableEq

variable {α : Type u} [DecidableEq α] (D : Dialect α)

/-- The reader, with the cell and the row so far. It has no answer for a text that is not well
formed. -/
def read : Mode → List α → List (List α) → List α → Option (List (List (List α)))
  | .quoted, _, _, [] => none
  | _, cell, row, [] => some [row ++ [cell]]
  | .quoted, cell, row, c :: text =>
    if c = D.quote then read .closed cell row text else read .quoted (cell ++ [c]) row text
  | mode, cell, row, c :: text =>
    if c = D.comma then read .start [] (row ++ [cell]) text
    else if c = D.lineFeed then (read .start [] [] text).map ((row ++ [cell]) :: ·)
    else if c = D.quote then
      match mode with
      | .start => read .quoted cell row text
      | .closed => read .quoted (cell ++ [c]) row text
      | _ => none
    else if c = D.carriageReturn || mode = .closed then none
    else read .plain (cell ++ [c]) row text

/-- The rows of a text, if it is a table. -/
def readRows (text : List α) : Option (List (List (List α))) := read D .start [] [] text

/-! ## Cells -/

/-- The characters for which a cell has to be quoted. -/
def Dialect.Special (c : α) : Prop :=
  c = D.quote ∨ c = D.comma ∨ c = D.lineFeed ∨ c = D.carriageReturn

/-- The quotes of a text doubled. -/
def double (cell : List α) : List α :=
  cell.flatMap fun c => if c = D.quote then [D.quote, D.quote] else [c]

/-- The texts for a cell. -/
inductive Renders (cell : List α) : List α → Prop
  | plain (h : ∀ c ∈ cell, ¬D.Special c) : Renders cell cell
  | quoted : Renders cell (D.quote :: (double D cell ++ [D.quote]))

/-- A cell ends here. -/
def Ends (rest : List α) : Prop :=
  ∀ c ∈ rest.head?, c = D.comma ∨ c = D.lineFeed

variable {D} {cell text rest : List α} {row : List (List α)} {mode : Mode}

attribute [local simp] read

/-- At its end, the cell is what was read so far. -/
theorem read_ends (h : Ends D rest) (hmode : mode ≠ .quoted) :
    read D mode cell row rest = read D .plain cell row rest := by
  cases mode with
  | quoted => exact absurd rfl hmode
  | start | plain | closed =>
    cases rest with
    | nil => rfl
    | cons c rest => rcases h c rfl with rfl | rfl <;> simp [read]

theorem read_quoted (content : List α) :
    read D .quoted cell row (double D content ++ D.quote :: rest) =
      read D .closed (cell ++ content) row rest := by
  induction content generalizing cell with
  | nil => simp [double, read]
  | cons c content ih =>
    have hdouble : double D (c :: content) =
        (if c = D.quote then [D.quote, D.quote] else [c]) ++ double D content := rfl
    by_cases hc : c = D.quote
    · subst hc
      rw [hdouble, if_pos rfl]
      simp [read, D.quote_ne_comma, D.quote_ne_lineFeed, ih]
    · rw [hdouble, if_neg hc]
      simp [read, hc, ih]

theorem read_plain (h : ∀ c ∈ cell, ¬D.Special c) (hrest : Ends D rest)
    (hmode : mode = .start ∨ mode = .plain) {before : List α} :
    read D mode before row (cell ++ rest) = read D .plain (before ++ cell) row rest := by
  induction cell generalizing before mode with
  | nil =>
    rw [List.nil_append, List.append_nil]
    exact read_ends hrest (by rintro rfl; simp at hmode)
  | cons c cell ih =>
    have hc := h c (.head _)
    simp only [Dialect.Special, not_or] at hc
    obtain ⟨hquote, hcomma, hfeed, hreturn⟩ := hc
    have hnext : read D .plain (before ++ [c]) row (cell ++ rest) = _ :=
      ih (fun d hd => h d (.tail _ hd)) (.inr rfl)
    rcases hmode with rfl | rfl
    · simp [read, hquote, hcomma, hfeed, hreturn, hnext]
    · simp [read, hquote, hcomma, hfeed, hreturn, hnext]

/-- The reader takes a cell back from any of its texts. -/
theorem Renders.read_eq (h : Renders D cell text) (hrest : Ends D rest) :
    read D .start [] row (text ++ rest) = read D .plain cell row rest := by
  cases h with
  | plain hplain => exact read_plain hplain hrest (.inl rfl)
  | quoted =>
    have hopen : read D .start [] row (D.quote :: (double D cell ++ [D.quote]) ++ rest) =
        read D .quoted [] row (double D cell ++ D.quote :: rest) := by
      simp [read, D.quote_ne_comma, D.quote_ne_lineFeed]
    rw [hopen, read_quoted, List.nil_append]
    exact read_ends hrest (by decide)

/-! ## Rows -/

section Rows
variable {β : Type v} {view write : β → List α}

/-- The last cell of a row is left for what follows the row. -/
theorem read_row (hwrite : ∀ b, Renders D (view b) (write b)) {cells : List β} (hne : cells ≠ [])
    (hrest : Ends D rest) :
    read D .start [] row ([D.comma].intercalate (cells.map write) ++ rest) =
      read D .plain (view (cells.getLast hne)) (row ++ cells.dropLast.map view) rest := by
  induction cells generalizing row with
  | nil => exact absurd rfl hne
  | cons cell cells ih =>
    cases cells with
    | nil =>
      rw [List.map_singleton, List.intercalate_singleton, (hwrite cell).read_eq hrest]
      simp
    | cons next cells =>
      have hcomma :
          Ends D ([D.comma] ++ ([D.comma].intercalate ((next :: cells).map write) ++ rest)) := by
        rintro c ⟨⟩
        exact .inl rfl
      rw [List.map_cons, List.map_cons, List.intercalate_cons_cons, List.append_assoc,
        List.append_assoc, ← List.map_cons, (hwrite cell).read_eq hcomma]
      have hnext : read D .start [] (row ++ [view cell]) _ = _ := ih (List.cons_ne_nil _ _)
      rw [List.singleton_append]
      simp only [read, if_true]
      rw [hnext]
      simp

/-- Whatever the cells are, they are read back in their rows. -/
theorem readRows_intercalate (hwrite : ∀ b, Renders D (view b) (write b)) {rows : List (List β)}
    (hne : rows ≠ []) (hrows : ∀ row ∈ rows, row ≠ []) :
    readRows D ([D.lineFeed].intercalate (rows.map fun row =>
      [D.comma].intercalate (row.map write))) =
      some (rows.map fun row => row.map view) := by
  rw [readRows]
  induction rows with
  | nil => exact absurd rfl hne
  | cons row rows ih =>
    have hrow := hrows row (.head _)
    have hlast : (row.map view).dropLast ++ [view (row.getLast hrow)] = row.map view := by
      rw [← List.map_dropLast, ← List.map_singleton (f := view), ← List.map_append,
        List.dropLast_concat_getLast hrow]
    cases rows with
    | nil =>
      have hend : read D .start [] [] (_ ++ []) = _ := read_row hwrite hrow (by simp [Ends])
      rw [List.map_singleton, List.intercalate_singleton]
      rw [List.append_nil] at hend
      rw [hend]
      simp [read, hlast]
    | cons next rows =>
      have htail := ih (List.cons_ne_nil _ _) fun row hmem => hrows row (.tail _ hmem)
      rw [List.map_cons] at htail
      rw [List.map_cons, List.map_cons, List.intercalate_cons_cons, List.append_assoc,
        read_row hwrite hrow]
      · rw [List.singleton_append]
        simp [read, D.comma_ne_lineFeed.symm, htail, hlast]
      · rintro c ⟨⟩
        exact .inr rfl

end Rows

end Csv
