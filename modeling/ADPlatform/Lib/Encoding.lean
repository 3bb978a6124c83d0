import Mathlib.Data.List.Basic
import Mathlib.Data.List.DropRight

/-! # Texts and their encodings

Trimming, case folding, decimal numbers, hexadecimal, unpadded URL-safe and padded base64, as the
Go standard library defines them. What carries the proofs is that decimal numbers avoid the
separators of a format (`Decimal.not_mem`), that a text falls apart at a separator in one way
(`Text.split_first_inj`, `Text.split_last_inj`) and that base64 loses nothing
(`Base64.encode_inj`). -/

namespace Text

theorem exists_of_bind_eq_ok {ε α β : Type} {x : Except ε α} {f : α → Except ε β} {b : β}
    (h : x >>= f = .ok b) : ∃ a, x = .ok a ∧ f a = .ok b := by
  cases x with
  | error e => cases h
  | ok a => exact ⟨a, rfl, h⟩

theorem append_cons_inj_of_notMem_left {c : α} {l l' m m' : List α} (hl : c ∉ l) (hl' : c ∉ l')
    (h : l ++ c :: m = l' ++ c :: m') : l = l' ∧ m = m' := by
  induction l generalizing l' with
  | nil =>
    cases l' with
    | nil => exact ⟨rfl, by simpa using h⟩
    | cons a' l' => exact absurd (List.cons.inj h).1 fun h => hl' (h ▸ .head _)
  | cons a l ih =>
    cases l' with
    | nil => exact absurd (List.cons.inj h).1 fun h => hl (h ▸ .head _)
    | cons a' l' =>
      simp only [List.cons_append, List.cons.injEq] at h
      obtain ⟨rfl, rfl⟩ := ih (fun h => hl (.tail _ h)) (fun h => hl' (.tail _ h)) h.2
      exact ⟨by rw [h.1], rfl⟩

/-- A text falls apart at the first separator in one way. -/
theorem split_first_inj {s s' t t' : String} {c : Char} (hs : c ∉ s.toList) (hs' : c ∉ s'.toList)
    (h : s ++ String.singleton c ++ t = s' ++ String.singleton c ++ t') : s = s' ∧ t = t' := by
  have h := congrArg String.toList h
  simp only [String.toList_append, String.toList_singleton, List.append_assoc,
    List.singleton_append] at h
  obtain ⟨h₁, h₂⟩ := append_cons_inj_of_notMem_left hs hs' h
  exact ⟨String.toList_inj.mp h₁, String.toList_inj.mp h₂⟩

/-- A text falls apart at the last separator in one way. -/
theorem split_last_inj {s s' t t' : String} {c : Char} (ht : c ∉ t.toList) (ht' : c ∉ t'.toList)
    (h : s ++ String.singleton c ++ t = s' ++ String.singleton c ++ t') : s = s' ∧ t = t' := by
  have h := congrArg (fun s => s.toList.reverse) h
  simp only [String.toList_append, String.toList_singleton, List.append_assoc,
    List.singleton_append, List.reverse_append, List.reverse_cons] at h
  obtain ⟨h₁, h₂⟩ := append_cons_inj_of_notMem_left (by simpa using ht) (by simpa using ht') h
  exact ⟨String.toList_inj.mp (List.reverse_inj.mp h₂),
    String.toList_inj.mp (List.reverse_inj.mp h₁)⟩

theorem notMem_of_mem_splitOn [BEq α] [LawfulBEq α] {l part : List α} {c : α}
    (h : part ∈ l.splitOn c) : c ∉ part := by
  induction l generalizing part with
  | nil =>
    rw [List.splitOn_nil, List.mem_singleton] at h
    exact h ▸ List.not_mem_nil
  | cons x l ih =>
    rw [List.splitOn_cons_eq_if_modifyHead] at h
    split at h
    · rcases List.mem_cons.mp h with rfl | h
      · exact List.not_mem_nil
      · exact ih h
    rename_i hne
    obtain ⟨first, rest, hparts⟩ := List.exists_cons_of_ne_nil (List.splitOn_ne_nil c l)
    rw [hparts, List.modifyHead_cons] at h
    rw [hparts] at ih
    rcases List.mem_cons.mp h with rfl | h
    · intro hmem
      rcases List.mem_cons.mp hmem with rfl | hmem
      · exact hne (beq_self_eq_true _)
      · exact ih List.mem_cons_self hmem
    · exact ih (List.mem_cons_of_mem _ h)

theorem mem_of_mem_splitOn [BEq α] {c d : α} {text line : List α} (hline : line ∈ text.splitOn d)
    (hc : c ∈ line) : c ∈ text := by
  induction text generalizing line with
  | nil =>
    rw [List.splitOn_nil, List.mem_singleton] at hline
    exact hline ▸ hc
  | cons x text ih =>
    rw [List.splitOn_cons_eq_if_modifyHead] at hline
    split at hline
    · rcases List.mem_cons.mp hline with rfl | hline
      · cases hc
      · exact List.mem_cons_of_mem _ (ih hline hc)
    obtain ⟨first, rest, hlines⟩ := List.exists_cons_of_ne_nil (List.splitOn_ne_nil d text)
    rw [hlines, List.modifyHead_cons] at hline
    rw [hlines] at ih
    rcases List.mem_cons.mp hline with rfl | hline
    · rcases List.mem_cons.mp hc with rfl | hc
      · exact List.mem_cons_self
      · exact List.mem_cons_of_mem _ (ih List.mem_cons_self hc)
    · exact List.mem_cons_of_mem _ (ih (List.mem_cons_of_mem _ hline) hc)

/-- A text in two parts. -/
theorem splitOn_eq_pair [BEq α] [LawfulBEq α] {l a b : List α} {c : α} :
    l.splitOn c = [a, b] ↔ c ∉ a ∧ c ∉ b ∧ l = a ++ c :: b := by
  constructor
  · intro h
    have hjoin : [c].intercalate (l.splitOn c) = l := List.intercalate_splitOn c
    rw [h] at hjoin
    refine ⟨notMem_of_mem_splitOn (l := l) (by simp [h]),
      notMem_of_mem_splitOn (l := l) (by simp [h]), ?_⟩
    simpa using hjoin.symm
  · rintro ⟨ha, hb, rfl⟩
    rw [List.splitOn_append_cons_self_of_not_mem ha, List.splitOn_eq_singleton hb]

/-- `unicode.IsSpace`. -/
def isSpace (c : Char) : Bool :=
  c ∈ ['\t', '\n', '\x0b', '\x0c', '\r', ' ', '\u0085', '\u00a0', '\u1680', '\u2028', '\u2029',
    '\u202f', '\u205f', '\u3000'] || ('\u2000' ≤ c && c ≤ '\u200a')

/-- `strings.TrimSpace`. -/
def trimSpace (s : String) : String :=
  String.ofList (((s.toList.dropWhile isSpace).reverse.dropWhile isSpace).reverse)

theorem toNat_of_isDigit {c : Char} (h : c.isDigit) : 48 ≤ c.toNat ∧ c.toNat ≤ 57 := by
  simp only [Char.isDigit, Bool.and_eq_true, decide_eq_true_eq] at h
  exact ⟨UInt32.le_iff_toNat_le.mp h.1, UInt32.le_iff_toNat_le.mp h.2⟩

theorem isSpace_of_isDigit {c : Char} (h : c.isDigit) : isSpace c = false := by
  obtain ⟨hge, hle⟩ := toNat_of_isDigit h
  have hrange : ¬ '\u2000' ≤ c := by
    intro hc
    have : 8192 ≤ c.toNat := UInt32.le_iff_toNat_le.mp hc
    omega
  simp only [isSpace, hrange, decide_false, Bool.false_and, Bool.or_false,
    decide_eq_false_iff_not, List.mem_cons, List.not_mem_nil, or_false]
  rintro (rfl | rfl | rfl | rfl | rfl | rfl | rfl | rfl | rfl | rfl | rfl | rfl | rfl | rfl)
  all_goals first | exact absurd hge (by decide) | exact absurd hle (by decide)

theorem trimSpace_eq_self {s : String} (h : ∀ c ∈ s.toList, isSpace c = false) :
    trimSpace s = s := by
  have hdrop : ∀ l : List Char, (∀ c ∈ l, isSpace c = false) → l.dropWhile isSpace = l := by
    intro l hl
    cases l with
    | nil => rfl
    | cons c l => rw [List.dropWhile_cons_of_neg (by simp [hl c (by simp)])]
  rw [trimSpace, hdrop _ h, hdrop _ (by simpa using h), List.reverse_reverse, String.ofList_toList]

/-- A trimmed text has no white space at its front. -/
theorem head_trimSpace {s : String} {c : Char} (h : (trimSpace s).toList.head? = some c) :
    isSpace c = false := by
  have hfront : (trimSpace s).toList <+: s.toList.dropWhile isSpace := by
    rw [trimSpace, String.toList_ofList]
    exact List.rdropWhile_prefix _ _
  obtain ⟨rest, hrest⟩ := hfront
  have hhead : (s.toList.dropWhile isSpace).head? = some c := by
    rw [← hrest, List.head?_append, h]
    rfl
  have hnot := List.head?_dropWhile_not isSpace s.toList
  rw [hhead] at hnot
  simpa using hnot

/-- White space around a text that has none at its ends is cut off. -/
theorem trimSpace_pad {before s after : String} (hbefore : ∀ c ∈ before.toList, isSpace c = true)
    (hafter : ∀ c ∈ after.toList, isSpace c = true)
    (hhead : ∃ c, s.toList.head? = some c ∧ isSpace c = false)
    (hlast : ∃ c, s.toList.getLast? = some c ∧ isSpace c = false) :
    trimSpace (before ++ s ++ after) = s := by
  have hdrop : ∀ l m : List Char, (∀ c ∈ l, isSpace c = true) →
      (∃ c, m.head? = some c ∧ isSpace c = false) → (l ++ m).dropWhile isSpace = m := by
    rintro l m hl ⟨c, hc, hspace⟩
    rw [List.dropWhile_append_of_pos hl]
    cases m with
    | nil => rfl
    | cons d m =>
      obtain rfl : d = c := Option.some.inj hc
      rw [List.dropWhile_cons_of_neg (by simp [hspace])]
  obtain ⟨c, hc, hspace⟩ := hhead
  have hfront : (s.toList ++ after.toList).head? = some c := by
    rw [List.head?_append, hc]
    rfl
  rw [trimSpace, String.toList_append, String.toList_append, List.append_assoc,
    hdrop _ _ hbefore ⟨c, hfront, hspace⟩, List.reverse_append,
    hdrop _ _ (by simpa using hafter) (by simpa using hlast), List.reverse_reverse,
    String.ofList_toList]

/-- `unicode.ToLower`, exact wherever the result is an ASCII character. -/
def lowerChar (c : Char) : Char :=
  if c = '\u212a' then 'k' else if c = '\u0130' then 'i' else c.toLower

/-- `strings.ToLower`, for comparing with ASCII words. -/
def toLower (s : String) : String := s.map lowerChar

/-- Case mappings: `unicode.ToLower` and a representative of `unicode.SimpleFold`, character by
character, and the `LOWER` of a database. -/
structure CaseTable where
  lower : Char → Char
  fold : Char → Char
  sqlLower : String → String

namespace CaseTable

/-- The mappings of ASCII letters. -/
def ascii : CaseTable := ⟨Char.toLower, Char.toLower, String.map Char.toLower⟩

/-- `strings.ToLower`. -/
def toLower (T : CaseTable) (s : String) : String := s.map T.lower

/-- `strings.EqualFold`. -/
def equalFold (T : CaseTable) (s t : String) : Bool := s.map T.fold = t.map T.fold

variable {T : CaseTable} {s t : String}

theorem equalFold_eq_false : T.equalFold s t = false ↔ s.map T.fold ≠ t.map T.fold :=
  decide_eq_false_iff_not

/-- Of the ASCII characters only the two cases of a letter are folded into one. -/
def FoldsASCII (T : CaseTable) : Prop :=
  ∀ a b : Char, a.toNat < 128 → b.toNat < 128 → (T.fold a = T.fold b ↔ a.toLower = b.toLower)

theorem FoldsASCII.map_iff (hT : T.FoldsASCII) {l l' : List Char} (hl : ∀ c ∈ l, c.toNat < 128)
    (hl' : ∀ c ∈ l', c.toNat < 128) :
    l.map T.fold = l'.map T.fold ↔ l.map Char.toLower = l'.map Char.toLower := by
  induction l generalizing l' with
  | nil => simp
  | cons c l ih =>
    cases l' with
    | nil => simp
    | cons c' l' =>
      simp only [List.mem_cons, forall_eq_or_imp] at hl hl'
      simp only [List.map_cons, List.cons.injEq, hT c c' hl.1 hl'.1, ih hl.2 hl'.2]

/-- On ASCII texts all tables agree. -/
theorem FoldsASCII.equalFold_eq (hT : T.FoldsASCII) (hs : ∀ c ∈ s.toList, c.toNat < 128)
    (ht : ∀ c ∈ t.toList, c.toNat < 128) : T.equalFold s t = ascii.equalFold s t := by
  refine decide_eq_decide.mpr ?_
  rw [← String.toList_inj, ← String.toList_inj, String.toList_map, String.toList_map,
    String.toList_map, String.toList_map]
  exact hT.map_iff hs ht

end CaseTable

/-- The bytes of a text. -/
def bytes (s : String) : List UInt8 := s.toByteArray.data.toList

theorem bytes_inj {s t : String} : bytes s = bytes t ↔ s = t := by
  refine ⟨fun h => ?_, congrArg bytes⟩
  exact String.toByteArray_inj.mp (ByteArray.ext (Array.toList_inj.mp h))

theorem bytes_append (s t : String) : bytes (s ++ t) = bytes s ++ bytes t := by
  simp [bytes]

theorem bytes_of_isDigit {cs : List Char} (h : ∀ c ∈ cs, c.isDigit) :
    bytes (String.ofList cs) = cs.map fun c => UInt8.ofNat c.toNat := by
  have hbytes : bytes (String.ofList cs) = cs.flatMap String.utf8EncodeChar := by
    simp [bytes, List.utf8Encode]
  rw [hbytes, List.map_eq_flatMap]
  refine List.flatMap_congr fun c hc => ?_
  have hascii : c.val.toNat ≤ 127 := Nat.le_trans (toNat_of_isDigit (h c hc)).2 (by decide)
  simp only [String.utf8EncodeChar, hascii, if_true]
  rfl

/-- `hex.EncodeToString`. -/
def hexEncode (bs : List UInt8) : String :=
  String.ofList (bs.flatMap fun b => [(b.toNat / 16).digitChar, (b.toNat % 16).digitChar])

theorem not_mem_hexEncode {c : Char} (hc : ∀ n < 16, Nat.digitChar n ≠ c) (bs : List UInt8) :
    c ∉ (hexEncode bs).toList := by
  simp only [hexEncode, String.toList_ofList, List.mem_flatMap, not_exists, not_and]
  intro b _ h
  have hb := b.toNat_lt
  simp only [List.mem_cons, List.not_mem_nil, or_false] at h
  rcases h with h | h
  · exact hc _ (by omega) h.symm
  · exact hc _ (by omega) h.symm

theorem digitChar_inj : ∀ m < 16, ∀ n < 16, Nat.digitChar m = Nat.digitChar n → m = n := by decide

theorem hexEncode_inj {bs bs' : List UInt8} (h : hexEncode bs = hexEncode bs') : bs = bs' := by
  rw [hexEncode, hexEncode, String.ofList_inj] at h
  induction bs generalizing bs' with
  | nil =>
    cases bs' with
    | nil => rfl
    | cons => cases h
  | cons b bs ih =>
    cases bs' with
    | nil => cases h
    | cons b' bs' =>
      have hb := b.toNat_lt
      have hb' := b'.toNat_lt
      simp only [List.flatMap_cons, List.cons_append, List.nil_append, List.cons.injEq] at h
      have hhigh := digitChar_inj _ (by omega) _ (by omega) h.1
      have hlow := digitChar_inj _ (by omega) _ (by omega) h.2.1
      rw [ih h.2.2, UInt8.toNat_inj.mp (by omega : b.toNat = b'.toNat)]

end Text

namespace Decimal

/-- A decimal number has no characters but its digits and its sign. -/
theorem not_mem {c : Char} (hdigit : c.isDigit = false) (hsign : c ≠ '-') (n : Int) :
    c ∉ n.repr.toList := by
  have hnat : ∀ m : Nat, c ∉ m.repr.toList := by
    intro m h
    rw [Nat.toList_repr] at h
    simp [Nat.isDigit_of_mem_toDigits (by decide) (by decide) h] at hdigit
  rw [Int.repr_eq_if]
  split
  · exact hnat _
  · rw [String.toList_append]
    exact fun h => (List.mem_append.mp h).elim (fun h => hsign (by simpa using h)) (hnat _)

/-- `strconv.Atoi` with 64-bit integers, on the bytes of a text. -/
def atoi (field : List UInt8) : Option Int :=
  match field with
  | 43 :: digits => inRange (digitsValue digits)
  | 45 :: digits => inRange ((digitsValue digits).map (- ·))
  | digits => inRange (digitsValue digits)
where
  digitsValue (digits : List UInt8) : Option Int :=
    if digits.isEmpty || !digits.all fun b => 48 ≤ b.toNat && b.toNat ≤ 57 then none
    else some (digits.foldl (fun n b => n * 10 + (b.toNat - 48)) 0)
  inRange (n : Option Int) : Option Int := n.filter fun n =>
    -9223372036854775808 ≤ n && n < 9223372036854775808

open Text

theorem digitsValue_of_isDigit {cs : List Char} (hne : cs ≠ []) (h : ∀ c ∈ cs, c.isDigit) :
    atoi.digitsValue (cs.map fun c => UInt8.ofNat c.toNat) =
      some (Nat.ofDigitChars 10 cs 0 : Int) := by
  have hbyte : ∀ c ∈ cs, (UInt8.ofNat c.toNat).toNat = c.toNat := by
    intro c hc
    have := toNat_of_isDigit (h c hc)
    rw [UInt8.toNat_ofNat']
    omega
  have hfold : ∀ n : Nat, (cs.map fun c => UInt8.ofNat c.toNat).foldl
      (fun n b => n * 10 + ((b.toNat : Int) - 48))
      (n : Int) = (Nat.ofDigitChars 10 cs n : Int) := by
    clear hne
    induction cs with
    | nil => exact fun n => rfl
    | cons c cs ih =>
      intro n
      have hc := toNat_of_isDigit (h c (by simp))
      have hstep : (n : Int) * 10 + ((UInt8.ofNat c.toNat).toNat - 48 : Int) =
          ((10 * n + (c.toNat - '0'.toNat) : Nat) : Int) := by
        rw [hbyte c (by simp), show '0'.toNat = 48 from rfl]
        omega
      rw [List.map_cons, List.foldl_cons, hstep,
        ih (fun d hd => h d (by simp [hd])) (fun d hd => hbyte d (by simp [hd]))]
      rfl
  have hall :
      ((cs.map fun c => UInt8.ofNat c.toNat).all fun b => 48 ≤ b.toNat && b.toNat ≤ 57) := by
    simp only [List.all_map, List.all_eq_true, Function.comp_apply, Bool.and_eq_true,
      decide_eq_true_eq]
    intro c hc
    rw [hbyte c hc]
    exact toNat_of_isDigit (h c hc)
  have hempty : (cs.map fun c => UInt8.ofNat c.toNat).isEmpty = false := by simpa using hne
  rw [atoi.digitsValue, hempty, hall]
  simpa using hfold 0

/-- The bytes of a number: a sign, if it is negative, and digits. -/
theorem bytes_repr (n : Int) : ∃ digits : List Char, digits ≠ [] ∧ (∀ c ∈ digits, c.isDigit) ∧
    Nat.ofDigitChars 10 digits 0 = n.natAbs ∧
    bytes n.repr = (if n < 0 then [45] else []) ++ digits.map fun c => UInt8.ofNat c.toNat := by
  have hdigits : ∀ c ∈ Nat.toDigits 10 n.natAbs, c.isDigit := fun c hc =>
    Nat.isDigit_of_mem_toDigits (by decide) (by decide) hc
  refine ⟨Nat.toDigits 10 n.natAbs, Nat.toDigits_ne_nil, hdigits, Nat.ofDigitChars_ten_toDigits,
    ?_⟩
  have hbytes := bytes_of_isDigit hdigits
  rw [Int.repr_eq_if]
  split
  · rename_i hpos
    rw [if_neg (by omega), List.nil_append, ← hbytes, Nat.repr, show n.toNat = n.natAbs by omega]
  · rename_i hneg
    rw [if_pos (by omega), bytes_append, Nat.repr, show (-n).toNat = n.natAbs by omega, hbytes]
    rfl

theorem notMem_bytes_repr {b : UInt8} (hb : b.toNat < 45 ∨ 57 < b.toNat) (n : Int) :
    b ∉ bytes n.repr := by
  obtain ⟨digits, -, hdigits, -, hbytes⟩ := bytes_repr n
  rw [hbytes, List.mem_append, not_or]
  constructor
  · intro h
    split at h
    · rw [List.mem_singleton.mp h] at hb
      exact absurd hb (by decide)
    · cases h
  · intro h
    obtain ⟨c, hc, rfl⟩ := List.mem_map.mp h
    have := toNat_of_isDigit (hdigits c hc)
    rw [UInt8.toNat_ofNat'] at hb
    omega

/-- A 64-bit number is read back from its decimal text. -/
theorem atoi_int {n : Int} (hlow : -9223372036854775808 ≤ n) (hhigh : n < 9223372036854775808) :
    atoi (bytes n.repr) = some n := by
  obtain ⟨digits, hne, hdigits, habs, hbytes⟩ := bytes_repr n
  have hvalue := digitsValue_of_isDigit hne hdigits
  rw [habs] at hvalue
  have hsign : ∀ b ∈ digits.map fun c => UInt8.ofNat c.toNat, b ≠ 43 ∧ b ≠ 45 := by
    intro b hb
    obtain ⟨c, hc, rfl⟩ := List.mem_map.mp hb
    have := toNat_of_isDigit (hdigits c hc)
    rw [Ne, Ne, ← UInt8.toNat_inj, ← UInt8.toNat_inj, UInt8.toNat_ofNat']
    constructor
    · change ¬ c.toNat % 256 = 43
      omega
    · change ¬ c.toNat % 256 = 45
      omega
  rw [hbytes]
  split
  · rename_i hneg
    have hminus : -(n.natAbs : Int) = n := by omega
    rw [List.singleton_append, atoi, hvalue, Option.map_some, hminus, atoi.inRange,
      Option.filter_some, if_pos (by simp [hlow, hhigh])]
  · rename_i hpos
    have hplus : (n.natAbs : Int) = n := by omega
    rw [List.nil_append, atoi, hvalue, hplus, atoi.inRange, Option.filter_some,
      if_pos (by simp [hlow, hhigh])]
    · exact fun rest heq => (hsign 43 (heq ▸ List.mem_cons_self)).1 rfl
    · exact fun rest heq => (hsign 45 (heq ▸ List.mem_cons_self)).2 rfl

theorem atoi_repr {n : Nat} (h : n < 9223372036854775808) : atoi (bytes n.repr) = some (n : Int) :=
  atoi_int (n := n) (by omega) (by omega)

end Decimal

namespace Base64

/-- The URL-safe alphabet. -/
def alphabet : List Char :=
  "ABCDEFGHIJKLMNOPQRSTUVWXYZabcdefghijklmnopqrstuvwxyz0123456789-_".toList

/-- The character of a group of six bits. -/
def digit (n : Nat) : Char := alphabet.getD n 'A'

/-- The group of a character. -/
def digitValue (c : Char) : Option Nat := alphabet.idxOf? c

/-- The sextets of a byte string, the last one filled up with zero bits. -/
def sextets : List UInt8 → List Nat
  | [] => []
  | [a] => [a.toNat / 4, a.toNat % 4 * 16]
  | [a, b] => [a.toNat / 4, a.toNat % 4 * 16 + b.toNat / 16, b.toNat % 16 * 4]
  | a :: b :: c :: rest =>
    a.toNat / 4 :: (a.toNat % 4 * 16 + b.toNat / 16) :: (b.toNat % 16 * 4 + c.toNat / 64) ::
      c.toNat % 64 :: sextets rest

/-- The bytes of a sequence of sextets; left-over bits are dropped. -/
def octets : List Nat → Option (List UInt8)
  | [] => some []
  | [_] => none
  | [a, b] => some [.ofNat (a * 4 + b / 16)]
  | [a, b, c] => some [.ofNat (a * 4 + b / 16), .ofNat (b % 16 * 16 + c / 4)]
  | a :: b :: c :: d :: rest => (octets rest).map fun bs =>
    .ofNat (a * 4 + b / 16) :: .ofNat (b % 16 * 16 + c / 4) :: .ofNat (c % 4 * 64 + d) :: bs

/-- `base64.RawURLEncoding.EncodeToString`. -/
def encode (bs : List UInt8) : String := String.ofList ((sextets bs).map digit)

/-- `base64.RawURLEncoding.DecodeString`, which skips line breaks. -/
def decode (s : List Char) : Option (List UInt8) :=
  ((s.filter fun c => c ≠ '\r' && c ≠ '\n').mapM digitValue).bind octets

theorem ofNat_toNat_eq {n : Nat} {b : UInt8} (h : n = b.toNat) : UInt8.ofNat n = b := by
  rw [h, UInt8.ofNat_toNat]

theorem sextets_lt (bs : List UInt8) : ∀ n ∈ sextets bs, n < 64 := by
  fun_induction sextets bs with
  | case1 => simp
  | case2 a =>
    have ha := a.toNat_lt
    simp only [List.mem_cons, List.not_mem_nil, or_false]
    omega
  | case3 a b =>
    have ha := a.toNat_lt
    have hb := b.toNat_lt
    simp only [List.mem_cons, List.not_mem_nil, or_false]
    omega
  | case4 a b c rest ih =>
    have ha := a.toNat_lt
    have hb := b.toNat_lt
    have hc := c.toNat_lt
    simp only [List.mem_cons]
    rintro n (rfl | rfl | rfl | rfl | hn)
    iterate 4 omega
    exact ih n hn

theorem octets_sextets (bs : List UInt8) : octets (sextets bs) = some bs := by
  fun_induction sextets bs with
  | case1 => rfl
  | case2 a =>
    have ha := a.toNat_lt
    simp only [octets, Option.some.injEq, List.cons.injEq, and_true]
    exact ofNat_toNat_eq (by omega)
  | case3 a b =>
    have ha := a.toNat_lt
    have hb := b.toNat_lt
    simp only [octets, Option.some.injEq, List.cons.injEq, and_true]
    exact ⟨ofNat_toNat_eq (by omega), ofNat_toNat_eq (by omega)⟩
  | case4 a b c rest ih =>
    have ha := a.toNat_lt
    have hb := b.toNat_lt
    have hc := c.toNat_lt
    simp only [octets, ih, Option.map_some, Option.some.injEq, List.cons.injEq, and_true]
    exact ⟨ofNat_toNat_eq (by omega), ofNat_toNat_eq (by omega), ofNat_toNat_eq (by omega)⟩

theorem digitValue_digit : ∀ n < 64, digitValue (digit n) = some n := by decide

theorem digit_mem : ∀ n < 64, digit n ∈ alphabet := by decide

theorem no_line_break : ∀ c ∈ alphabet, (c ≠ '\r' && c ≠ '\n') = true :=
  List.all_eq_true.mp (by decide)

theorem mem_alphabet_of_mem_encode {c : Char} {bs : List UInt8} (h : c ∈ (encode bs).toList) :
    c ∈ alphabet := by
  simp only [encode, String.toList_ofList, List.mem_map] at h
  obtain ⟨n, hn, rfl⟩ := h
  exact digit_mem n (sextets_lt bs n hn)

theorem dot_notMem_alphabet : '.' ∉ alphabet := by decide

theorem dot_notMem_encode (bs : List UInt8) : '.' ∉ (encode bs).toList :=
  fun h => dot_notMem_alphabet (mem_alphabet_of_mem_encode h)

theorem brace_notMem_alphabet : '\x7b' ∉ alphabet := by decide

theorem brace_notMem_encode (bs : List UInt8) : '\x7b' ∉ (encode bs).toList :=
  fun h => brace_notMem_alphabet (mem_alphabet_of_mem_encode h)

/-- Decoding takes an encoded byte string back. -/
theorem decode_encode (bs : List UInt8) : decode (encode bs).toList = some bs := by
  have hfilter :
      (encode bs).toList.filter (fun c => c ≠ '\r' && c ≠ '\n') = (encode bs).toList := by
    refine List.filter_eq_self.mpr fun c hc => ?_
    exact no_line_break c (mem_alphabet_of_mem_encode hc)
  have hdigits : ((sextets bs).map digit).mapM digitValue = some (sextets bs) := by
    rw [List.mapM_map]
    have hlt := sextets_lt bs
    generalize sextets bs = ns at hlt
    induction ns with
    | nil => rfl
    | cons n ns ih =>
      simp only [List.mapM_cons, Function.comp_apply, digitValue_digit n (hlt n (by simp)),
        ih fun m hm => hlt m (by simp [hm])]
      rfl
  rw [decode, hfilter, encode, String.toList_ofList, hdigits]
  exact octets_sextets bs

theorem encode_inj {bs bs' : List UInt8} (h : encode bs = encode bs') : bs = bs' := by
  have h' := decode_encode bs
  rw [h, decode_encode bs'] at h'
  exact (Option.some.inj h').symm

/-- The alphabet of the standard encoding. -/
def stdAlphabet : List Char :=
  "ABCDEFGHIJKLMNOPQRSTUVWXYZabcdefghijklmnopqrstuvwxyz0123456789+/".toList

/-- `base64.StdEncoding.EncodeToString`: the last group of four is filled up. -/
def stdEncode (bs : List UInt8) : String :=
  let digits := (sextets bs).map fun n => stdAlphabet.getD n 'A'
  String.ofList (digits ++ List.replicate ((4 - digits.length % 4) % 4) '=')

/-- `base64.StdEncoding.DecodeString`, which skips line breaks. Only the last two characters of
the last group may be padding. -/
def stdDecode (s : List Char) : Option (List UInt8) :=
  let s := s.filter fun c => c ≠ '\r' && c ≠ '\n'
  let digits := match s.reverse with
    | '=' :: '=' :: rest | '=' :: rest | rest => rest.reverse
  if s.length % 4 ≠ 0 then none else (digits.mapM stdAlphabet.idxOf?).bind octets

theorem stdDigits (ns : List Nat) (h : ∀ n ∈ ns, n < 64) :
    (ns.map fun n => stdAlphabet.getD n 'A').mapM stdAlphabet.idxOf? = some ns := by
  have hdigit : ∀ n < 64, stdAlphabet.idxOf? (stdAlphabet.getD n 'A') = some n := by decide
  induction ns with
  | nil => rfl
  | cons n ns ih =>
    rw [List.map_cons, List.mapM_cons, hdigit n (h n (by simp)), ih fun m hm => h m (by simp [hm])]
    rfl

theorem stdDigit_mem {n : Nat} (h : n < 64) : stdAlphabet.getD n 'A' ∈ stdAlphabet := by
  have hlength : n < stdAlphabet.length := h
  rw [List.getD_eq_getElem?_getD, List.getElem?_eq_getElem hlength, Option.getD_some]
  exact List.getElem_mem _

/-- The digits and the padding are plain characters. -/
theorem mem_stdEncode {c : Char} {bs : List UInt8} (h : c ∈ (stdEncode bs).toList) :
    c ∈ stdAlphabet ∨ c = '=' := by
  simp only [stdEncode, String.toList_ofList, List.mem_append, List.mem_map] at h
  rcases h with ⟨n, hn, rfl⟩ | h
  · exact .inl (stdDigit_mem (sextets_lt bs n hn))
  · exact .inr (List.eq_of_mem_replicate h)

theorem trimSpace_stdEncode (bs : List UInt8) : Text.trimSpace (stdEncode bs) = stdEncode bs := by
  have hplain : ∀ c ∈ stdAlphabet, Text.isSpace c = false :=
    List.forall_iff_forall_mem.mp (by decide)
  refine Text.trimSpace_eq_self fun c hc => ?_
  rcases mem_stdEncode hc with hc | rfl
  · exact hplain c hc
  · decide

theorem sextets_length (bs : List UInt8) : (sextets bs).length % 4 ≠ 1 := by
  fun_induction sextets bs with
  | case1 => decide
  | case2 a => simp
  | case3 a b => simp
  | case4 a b c rest ih =>
    simp only [List.length_cons]
    omega

/-- Decoding takes an encoded byte string back. -/
theorem stdDecode_stdEncode (bs : List UInt8) : stdDecode (stdEncode bs).toList = some bs := by
  have hplain : ∀ c ∈ stdAlphabet, (c ≠ '\r' && c ≠ '\n') = true ∧ c ≠ '=' :=
    List.forall_iff_forall_mem.mp (by decide)
  have hfilter : (stdEncode bs).toList.filter (fun c => c ≠ '\r' && c ≠ '\n') =
      (stdEncode bs).toList := by
    refine List.filter_eq_self.mpr fun c hc => ?_
    rcases mem_stdEncode hc with hc | rfl
    · exact (hplain c hc).1
    · decide
  have hdigits := stdDigits (sextets bs) (sextets_lt bs)
  have hlength := sextets_length bs
  have hlast : ∀ c ∈ (sextets bs).map fun n => stdAlphabet.getD n 'A', c ≠ '=' := by
    intro c hc
    obtain ⟨n, hn, rfl⟩ := List.mem_map.mp hc
    exact (hplain _ (stdDigit_mem (sextets_lt bs n hn))).2
  have hoctets := octets_sextets bs
  have hdigs : ((sextets bs).map fun n => stdAlphabet.getD n 'A').length = (sextets bs).length :=
    List.length_map ..
  rw [stdDecode, hfilter, stdEncode, String.toList_ofList]
  rw [← hdigs] at hlength
  generalize (sextets bs).map (fun n => stdAlphabet.getD n 'A') = digits at *
  have hpad : (digits ++ List.replicate ((4 - digits.length % 4) % 4) '=').length % 4 = 0 := by
    rw [List.length_append, List.length_replicate]
    omega
  have hk : (4 - digits.length % 4) % 4 ≤ 2 := by omega
  generalize (4 - digits.length % 4) % 4 = k at *
  have hrest : ∀ rest, digits.reverse ≠ '=' :: rest := by
    intro rest hrev
    refine hlast '=' ?_ rfl
    rw [← List.mem_reverse, hrev]
    exact List.mem_cons_self
  rw [if_neg (by rw [hpad]; decide), List.reverse_append, List.reverse_replicate]
  obtain rfl | rfl | rfl : k = 0 ∨ k = 1 ∨ k = 2 := by omega
  · split
    · rename_i rest heq
      exact absurd heq (hrest _)
    · rename_i rest _ heq
      exact absurd heq (hrest _)
    · rw [List.replicate_zero, List.nil_append, List.reverse_reverse, hdigits]
      exact hoctets
  · split
    · rename_i rest heq
      exact absurd (List.cons.inj heq).2 (hrest _)
    · rename_i rest _ heq
      have hrest : digits.reverse = rest := (List.cons.inj heq).2
      rw [← hrest, List.reverse_reverse, hdigits]
      exact hoctets
    · rename_i hnone
      exact absurd rfl (hnone _)
  · split
    · rename_i rest heq
      have hrest : digits.reverse = rest := (List.cons.inj (List.cons.inj heq).2).2
      rw [← hrest, List.reverse_reverse, hdigits]
      exact hoctets
    · rename_i rest hnone heq
      exact absurd (List.cons.inj heq).2.symm (hnone digits.reverse)
    · rename_i hnone _
      exact absurd rfl (hnone _)

theorem octets_length {ns : List Nat} {bs : List UInt8} (h : octets ns = some bs) :
    bs.length = ns.length * 6 / 8 := by
  fun_induction octets ns generalizing bs with
  | case1 =>
    cases h
    rfl
  | case2 => cases h
  | case3 | case4 =>
    cases h
    simp
  | case5 a b c d rest ih =>
    obtain ⟨bs', hrest, rfl⟩ := Option.map_eq_some_iff.mp h
    have := ih hrest
    simp only [List.length_cons]
    omega

theorem mapM_eq_some {f : α → Option β} {l : List α} {l' : List β} (h : l.mapM f = some l') :
    l'.length = l.length ∧ ∀ a ∈ l, (f a).isSome := by
  induction l generalizing l' with
  | nil =>
    cases h
    exact ⟨rfl, nofun⟩
  | cons a l ih =>
    rw [List.mapM_cons] at h
    obtain ⟨b, hb, h⟩ := Option.bind_eq_some_iff.mp h
    obtain ⟨l', hl, h⟩ := Option.bind_eq_some_iff.mp h
    cases h
    obtain ⟨hlength, hall⟩ := ih hl
    exact ⟨by simp [hlength], List.forall_mem_cons.mpr ⟨by simp [hb], hall⟩⟩

/-- A character outside the alphabet that is no line break cannot be decoded. -/
theorem decode_eq_none {s : List Char} {c : Char} (hc : c ∈ s) (halphabet : c ∉ alphabet)
    (hbreak : (c ≠ '\r' && c ≠ '\n') = true) : decode s = none := by
  rw [decode, Option.bind_eq_none_iff]
  intro digits hdigits
  have hsome := (mapM_eq_some hdigits).2 c (List.mem_filter.mpr ⟨hc, hbreak⟩)
  rw [digitValue, List.isSome_idxOf?] at hsome
  exact absurd hsome halphabet

/-- What decodes to a key are 44 characters, apart from line breaks. -/
theorem stdDecode_key {s : List Char} {bs : List UInt8} (h : stdDecode s = some bs)
    (hlength : bs.length = 32) : (s.filter fun c => c ≠ '\r' && c ≠ '\n').length = 44 ∧
      ∀ c ∈ s.filter (fun c => c ≠ '\r' && c ≠ '\n'), c ∈ stdAlphabet ∨ c = '=' := by
  unfold stdDecode at h
  generalize s.filter (fun c => c ≠ '\r' && c ≠ '\n') = core at *
  have hdigits {digits : List Char} (hd : (digits.mapM stdAlphabet.idxOf?).bind octets = some bs) :
      digits.length = 43 ∧ ∀ c ∈ digits, c ∈ stdAlphabet := by
    obtain ⟨ns, hns, hbs⟩ := Option.bind_eq_some_iff.mp hd
    obtain ⟨hlen, hall⟩ := mapM_eq_some hns
    have := octets_length hbs
    refine ⟨by omega, fun c hc => ?_⟩
    have hc := hall c hc
    rwa [List.isSome_idxOf?] at hc
  dsimp only at h
  split at h
  · cases h
  rename_i hmod
  rw [not_not] at hmod
  split at h
  · rename_i rest hrev
    obtain ⟨hlen, hmem⟩ := hdigits h
    have := congrArg List.length hrev
    simp only [List.length_reverse, List.length_cons] at this hlen
    omega
  · rename_i rest _ hrev
    obtain ⟨hlen, hmem⟩ := hdigits h
    have := congrArg List.length hrev
    simp only [List.length_reverse, List.length_cons] at this hlen
    refine ⟨by omega, fun c hc => ?_⟩
    rw [← List.mem_reverse, hrev, List.mem_cons] at hc
    exact hc.symm.imp_left fun hc => hmem c (List.mem_reverse.mpr hc)
  · obtain ⟨hlen, hmem⟩ := hdigits h
    simp only [List.length_reverse] at hlen
    omega

end Base64
