import Mathlib.Data.List.TakeWhile
import ADPlatform.Lib.Encoding

/-! # Configuration files

A file of blank lines, comments, headings in brackets and settings `key = value`. A grammar says
what a heading and a setting add to what has been read. A file is read line by line, so a text that
is written behind another one is read from where that one ends (`Grammar.read_cons`). -/

namespace ConfigFile
open Text

/-- White space off both ends. -/
def trim (l : List Char) : List Char := ((l.dropWhile isSpace).reverse.dropWhile isSpace).reverse

theorem toList_trimSpace (s : String) : (trimSpace s).toList = trim s.toList := String.toList_ofList

theorem trim_blank {l : List Char} (h : ∀ c ∈ l, isSpace c = true) : trim l = [] := by
  have hdrop : l.dropWhile isSpace = [] := List.dropWhile_eq_nil_iff.mpr h
  rw [trim, hdrop]
  rfl

theorem trim_append_blank {l m : List Char} (h : ∀ c ∈ m, isSpace c = true) :
    trim (l ++ m) = trim l := by
  rw [trim, trim, List.dropWhile_append]
  split
  · rename_i hl
    rw [List.isEmpty_iff.mp hl, List.dropWhile_eq_nil_iff.mpr h]
  · rw [List.reverse_append, List.dropWhile_append_of_pos (by simpa using h)]

/-- A text that begins with no white space loses none there. -/
theorem trim_cons {c : Char} {l : List Char} (hc : isSpace c = false) :
    ∃ m, trim (c :: l) = c :: m := by
  have hlast : (l.reverse ++ [c]).dropWhile isSpace =
      if l.reverse.dropWhile isSpace = [] then [c] else l.reverse.dropWhile isSpace ++ [c] := by
    rw [List.dropWhile_append]
    simp [hc]
  rw [trim, List.dropWhile_cons_of_neg (by simp [hc]), List.reverse_cons, hlast]
  split
  · exact ⟨[], rfl⟩
  · exact ⟨(l.reverse.dropWhile isSpace).reverse, by rw [List.reverse_append]; rfl⟩

theorem mem_of_mem_trim {c : Char} {l : List Char} (h : c ∈ trim l) : c ∈ l := by
  have h := (List.dropWhile_sublist _).mem (List.mem_reverse.mp h)
  exact (List.dropWhile_sublist _).mem (List.mem_reverse.mp h)

/-- Only white space is lost. -/
theorem filter_trim (l : List Char) :
    (trim l).filter (fun c => !isSpace c) = l.filter fun c => !isSpace c := by
  have hdrop (l : List Char) :
      (l.dropWhile isSpace).filter (fun c => !isSpace c) = l.filter fun c => !isSpace c := by
    induction l with
    | nil => rfl
    | cons c l ih =>
      by_cases hc : isSpace c = true
      · rw [List.dropWhile_cons_of_pos hc, ih, List.filter_cons_of_neg (by simp [hc])]
      · rw [List.dropWhile_cons_of_neg hc]
  rw [trim, List.filter_reverse, hdrop, List.filter_reverse, List.reverse_reverse, hdrop]

/-! ## Lines -/

/-- What stands in a line. -/
inductive Line where
  | blank
  | heading (name : String)
  | setting (key value : String)
  deriving DecidableEq, Repr

/-- What a line says, if it says anything. -/
def readLine (line : List Char) : Option Line :=
  match trim line with
  | [] | '#' :: _ => some .blank
  | '[' :: rest =>
    if rest.getLast? = some ']' then some (.heading (String.ofList rest.dropLast)) else none
  | _ =>
    if '=' ∈ line then
      let key := line.takeWhile (· ≠ '=')
      let value := (line.dropWhile (· ≠ '=')).drop 1
      some (.setting (String.ofList (trim key)) (String.ofList (trim value)))
    else none

theorem readLine_blank {line : List Char} (h : ∀ c ∈ line, isSpace c = true) :
    readLine line = some .blank := by
  rw [readLine, trim_blank h]

theorem readLine_comment (text : List Char) : readLine ('#' :: text) = some .blank := by
  obtain ⟨m, hm⟩ := trim_cons (c := '#') (l := text) (by decide)
  unfold readLine
  rw [hm]
  rfl

/-- A line of something else. -/
theorem readLine_junk {line : List Char} (h : '=' ∉ line) (hhash : '#' ∉ line)
    (hbracket : '[' ∉ line)
    (hne : ∃ c ∈ line, isSpace c = false) : readLine line = none := by
  unfold readLine
  split
  · rename_i htrim
    obtain ⟨c, hc, hspace⟩ := hne
    have hmem : c ∈ (trim line).filter fun c => !isSpace c := by
      rw [filter_trim]
      exact List.mem_filter.mpr ⟨hc, by simp [hspace]⟩
    rw [htrim] at hmem
    cases hmem
  · rename_i htrim
    exact absurd (mem_of_mem_trim (htrim ▸ List.mem_cons_self)) hhash
  · rename_i htrim
    exact absurd (mem_of_mem_trim (htrim ▸ List.mem_cons_self)) hbracket
  · exact if_neg h

/-- A key is a word of letters. -/
def IsKey (key : List Char) : Prop := key ≠ [] ∧ ∀ c ∈ key, c.isAlpha = true

instance (key : List Char) : Decidable (IsKey key) :=
  decidable_of_iff (key ≠ [] ∧ key.all Char.isAlpha = true) (by rw [IsKey, List.all_eq_true])

theorem isSpace_of_isAlpha {c : Char} (h : c.isAlpha = true) : isSpace c = false := by
  have hall : ∀ n < 123, 33 ≤ n → isSpace (.ofNat n) = false := by decide
  have hrange : 65 ≤ c.toNat ∧ c.toNat ≤ 122 := by
    rcases (Bool.or_eq_true ..).mp h with hupper | hlower
    · obtain ⟨hge, hle⟩ := of_decide_eq_true hupper
      exact ⟨UInt32.le_iff_toNat_le.mp hge, (UInt32.le_iff_toNat_le.mp hle).trans (by decide)⟩
    · obtain ⟨hge, hle⟩ := (Bool.and_eq_true ..).mp hlower
      have hge : 97 ≤ c.toNat := UInt32.le_iff_toNat_le.mp (of_decide_eq_true hge)
      exact ⟨by omega, UInt32.le_iff_toNat_le.mp (of_decide_eq_true hle)⟩
  rw [← Char.ofNat_toNat c]
  exact hall _ (by omega) (by omega)

theorem readLine_setting {key : List Char} (hkey : IsKey key) (value : List Char) :
    readLine (key ++ ' ' :: '=' :: ' ' :: value) =
      some (.setting (String.ofList key) (String.ofList (trim value))) := by
  obtain ⟨c, key', rfl⟩ := List.exists_cons_of_ne_nil hkey.1
  have hc := hkey.2 c List.mem_cons_self
  obtain ⟨m, hm⟩ := trim_cons (l := key' ++ ' ' :: '=' :: ' ' :: value) (isSpace_of_isAlpha hc)
  have hequals : ∀ d ∈ (c :: key') ++ [' '], d ≠ '=' := by
    intro d hd heq
    rcases List.mem_append.mp hd with hd | hd
    · exact absurd (hkey.2 d hd) (by rw [heq]; decide)
    · rw [heq] at hd
      exact absurd hd (by decide)
  have htake :
      ((c :: key') ++ ' ' :: '=' :: ' ' :: value).takeWhile (· ≠ '=') = (c :: key') ++ [' '] := by
    rw [List.append_cons, List.takeWhile_append_of_pos (by simpa using hequals)]
    simp
  have hdrop :
      ((c :: key') ++ ' ' :: '=' :: ' ' :: value).dropWhile (· ≠ '=') = '=' :: ' ' :: value := by
    rw [List.append_cons, List.dropWhile_append_of_pos (by simpa using hequals)]
    simp
  have htrim : trim ((c :: key') ++ [' ']) = c :: key' := by
    have hlast : ∀ d ∈ c :: key', isSpace d = false := fun d hd => isSpace_of_isAlpha (hkey.2 d hd)
    have hself : (c :: key').reverse.dropWhile isSpace = (c :: key').reverse := by
      obtain ⟨d, rest, heq⟩ := List.exists_cons_of_ne_nil
        (List.reverse_ne_nil_iff.mpr (List.cons_ne_nil c key'))
      have hd : d ∈ c :: key' := List.mem_reverse.mp (heq ▸ List.mem_cons_self)
      rw [heq, List.dropWhile_cons_of_neg (by simp [hlast d hd])]
    rw [trim, List.cons_append, List.dropWhile_cons_of_neg (by simp [hlast c List.mem_cons_self]),
      ← List.cons_append, List.reverse_append, List.reverse_singleton, List.singleton_append,
      List.dropWhile_cons_of_pos (by decide), hself, List.reverse_reverse]
  unfold readLine
  rw [List.cons_append, hm]
  split
  · rename_i heq
    cases heq
  · rename_i heq
    cases heq
    exact absurd hc (by decide)
  · rename_i heq
    cases heq
    exact absurd hc (by decide)
  · rw [← List.cons_append, if_pos (by simp), htake, hdrop]
    dsimp only
    rw [htrim]
    rfl

/-! ## Grammars -/

/-- What headings and settings add to what has been read. -/
structure Grammar (σ : Type) where
  heading : σ → String → Option σ
  setting : σ → String → String → Option σ

namespace Grammar
variable {σ : Type} (g : Grammar σ)

/-- The reader after a line. -/
def step (s : σ) (line : List Char) : Option σ :=
  match readLine line with
  | none => none
  | some .blank => some s
  | some (.heading name) => g.heading s name
  | some (.setting key value) => g.setting s key value

/-- The reader after a text. -/
def read (s : σ) (text : List Char) : Option σ := (text.splitOn '\n').foldlM g.step s

variable {g} {s : σ}

theorem read_cons (text rest : List Char) :
    g.read s (text ++ '\n' :: rest) = (g.read s text).bind fun s => g.read s rest := by
  rw [read, List.splitOn_append_cons_self, List.foldlM_append]
  rfl

theorem read_line {line : List Char} (h : '\n' ∉ line) : g.read s line = g.step s line := by
  rw [read, List.splitOn_eq_singleton h, List.foldlM_cons]
  exact bind_pure _

theorem step_blank {line : List Char} (h : readLine line = some .blank) :
    g.step s line = some s := by
  rw [step, h]

/-- Blank lines are passed over. -/
theorem read_blank {text : List Char} (h : ∀ c ∈ text, isSpace c = true) :
    g.read s text = some s := by
  have hlines : ∀ line ∈ text.splitOn '\n', g.step s line = some s := fun line hline =>
    step_blank (readLine_blank fun c hc => h c (mem_of_mem_splitOn hline hc))
  unfold read
  generalize text.splitOn '\n' = lines at hlines
  induction lines with
  | nil => rfl
  | cons line lines ih =>
    rw [List.foldlM_cons, hlines line List.mem_cons_self]
    exact ih fun line' hline' => hlines line' (List.mem_cons_of_mem _ hline')

/-- A setting on one line. -/
theorem read_setting {key value : List Char} (hkey : IsKey key) (hvalue : '\n' ∉ value) :
    g.read s (key ++ ' ' :: '=' :: ' ' :: value) =
      g.setting s (String.ofList key) (String.ofList (trim value)) := by
  have hline : '\n' ∉ key ++ ' ' :: '=' :: ' ' :: value := by
    intro h
    rcases List.mem_append.mp h with h | h
    · exact absurd (hkey.2 _ h) (by decide)
    · simp only [List.mem_cons] at h
      rcases h with h | h | h | h
      iterate 3 exact absurd h (by decide)
      exact hvalue h
  rw [read_line hline, step, readLine_setting hkey]

/-- A setting whose value goes on in further lines. -/
theorem read_setting_cons {key value : List Char} (hkey : IsKey key) (hvalue : '\n' ∉ value)
    (rest : List Char) : g.read s (key ++ ' ' :: '=' :: ' ' :: (value ++ '\n' :: rest)) =
      (g.setting s (String.ofList key) (String.ofList (trim value))).bind fun s =>
        g.read s rest := by
  rw [← List.cons_append, ← List.cons_append, ← List.cons_append, ← List.append_assoc, read_cons,
    read_setting hkey hvalue]

end Grammar

end ConfigFile
