import Mathlib.Data.List.DropRight
import Mathlib.Data.UInt

/-! # Strings of JavaScript

A string is the sequence of its UTF-16 code units, surrogates without a partner included. -/

/-- A string as its UTF-16 code units. -/
abbrev JSString := List UInt16

namespace JSString

/-- A constant of ASCII characters. -/
def ascii (s : String) : JSString := s.toList.map fun c => .ofNat c.toNat

/-- The code units that `\s` matches and that `trim` cuts off. -/
def isWhiteSpace (c : UInt16) : Bool :=
  c ∈ [9, 10, 11, 12, 13, 32, 0xa0, 0x1680, 0x2028, 0x2029, 0x202f, 0x205f, 0x3000, 0xfeff] ||
    (0x2000 ≤ c && c ≤ 0x200a)

/-- A decimal digit. -/
def isDigit (c : UInt16) : Bool := 48 ≤ c && c ≤ 57

/-- White space is cut off on both sides. -/
def trim (s : JSString) : JSString := (s.dropWhile isWhiteSpace).rdropWhile isWhiteSpace

variable {s : JSString} {c : UInt16}

/-- No white space stands at the ends. -/
def Trimmed (s : JSString) : Prop :=
  (∀ c ∈ s.head?, isWhiteSpace c = false) ∧ ∀ c ∈ s.getLast?, isWhiteSpace c = false

theorem trim_eq_self_iff : trim s = s ↔ Trimmed s := by
  constructor
  · intro h
    obtain ⟨rest, hrest⟩ := List.rdropWhile_prefix isWhiteSpace (s.dropWhile isWhiteSpace)
    constructor
    · intro c hc
      have hnot := List.head?_dropWhile_not isWhiteSpace s
      rw [← hrest, ← trim, h, List.head?_append, hc] at hnot
      simpa using hnot
    · intro c hc
      have hne : trim s ≠ [] := by
        rintro hnil
        rw [h] at hnil
        rw [hnil] at hc
        cases hc
      have hnot := List.rdropWhile_last_not isWhiteSpace (s.dropWhile isWhiteSpace) hne
      have hlast : some ((trim s).getLast hne) = some c :=
        calc some ((trim s).getLast hne)
          _ = (trim s).getLast? := (List.getLast?_eq_some_getLast hne).symm
          _ = s.getLast? := by rw [h]
          _ = some c := hc
      obtain rfl := Option.some.inj hlast
      simpa [trim] using hnot
  · rintro ⟨hhead, hlast⟩
    have hfront : s.dropWhile isWhiteSpace = s := by
      cases s with
      | nil => rfl
      | cons c s => rw [List.dropWhile_cons_of_neg (by simp [hhead c rfl])]
    rw [trim, hfront, List.rdropWhile_eq_self_iff]
    intro hne
    simp [hlast _ (List.getLast?_eq_some_getLast hne)]

end JSString
