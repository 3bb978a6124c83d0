import ADPlatform.Lib.Encoding

/-! # Strings of bytes

A Go string is a sequence of bytes that need not be UTF-8. Here are the functions of the packages
`strings` and `unicode/utf8` on such sequences: a sequence falls into runes, and a byte that starts
no valid encoding is a rune of its own without a character. A text whose runes are valid up to some
byte has a valid part that ends less than four bytes behind it (`exists_validString_take`). -/

namespace ByteString
open Text

/-- A byte that goes on with a character. -/
def isTail (b : UInt8) : Bool := 0x80 ≤ b && b ≤ 0xBF

/-- The first two bytes of an encoding in three bytes. -/
def opensThree (a b : UInt8) : Bool :=
  (a == 0xE0 && 0xA0 ≤ b && b ≤ 0xBF) || (a == 0xED && 0x80 ≤ b && b ≤ 0x9F) ||
    (((0xE1 ≤ a && a ≤ 0xEC) || a == 0xEE || a == 0xEF) && isTail b)

/-- The first two bytes of an encoding in four bytes. -/
def opensFour (a b : UInt8) : Bool :=
  (a == 0xF0 && 0x90 ≤ b && b ≤ 0xBF) || (a == 0xF4 && 0x80 ≤ b && b ≤ 0x8F) ||
    (0xF1 ≤ a && a ≤ 0xF3 && isTail b)

/-- `utf8.DecodeRuneInString`: the character at the front, if there is a valid one, and the number
of bytes that it takes. -/
def decodeRune : List UInt8 → Option Char × Nat
  | [] => (none, 0)
  | a :: rest =>
    if a < 0x80 then (some (.ofNat a.toNat), 1)
    else
      match rest with
      | [] => (none, 1)
      | b :: rest =>
        if 0xC2 ≤ a && a ≤ 0xDF && isTail b then
          (some (.ofNat (a.toNat % 32 * 64 + b.toNat % 64)), 2)
        else
          match rest with
          | [] => (none, 1)
          | c :: rest =>
            if opensThree a b && isTail c then
              (some (.ofNat (a.toNat % 16 * 4096 + b.toNat % 64 * 64 + c.toNat % 64)), 3)
            else
              match rest with
              | [] => (none, 1)
              | d :: _ =>
                if opensFour a b && isTail c && isTail d then
                  (some (.ofNat (a.toNat % 8 * 262144 + b.toNat % 64 * 4096 + c.toNat % 64 * 64 +
                    d.toNat % 64)), 4)
                else (none, 1)

/-- A character with its bytes, or a byte that belongs to none. -/
structure Rune where
  char : Option Char
  bytes : List UInt8

/-- The runes behind the next `skip` bytes, which belong to the rune before them. -/
def runesFrom : Nat → List UInt8 → List Rune
  | _, [] => []
  | skip + 1, _ :: bs => runesFrom skip bs
  | 0, b :: bs =>
    let (char, width) := decodeRune (b :: bs)
    ⟨char, (b :: bs).take width⟩ :: runesFrom (width - 1) bs

/-- The characters of a string, as a loop over it meets them. -/
def runes (bs : List UInt8) : List Rune := runesFrom 0 bs

/-- The bytes of the characters. -/
def ofRunes (rs : List Rune) : List UInt8 := rs.flatMap Rune.bytes

/-- Is the character white space? -/
def Rune.isSpace (r : Rune) : Bool := r.char.any Text.isSpace

/-- `strings.Fields`. -/
def fields (bs : List UInt8) : List (List UInt8) :=
  (((runes bs).splitOnP Rune.isSpace).filter (· ≠ [] : List Rune → Prop)).map ofRunes

/-- `strings.TrimSpace`. -/
def trimSpace (bs : List UInt8) : List UInt8 :=
  ofRunes ((((runes bs).dropWhile Rune.isSpace).reverse.dropWhile Rune.isSpace).reverse)

/-- The characters of a string, with U+FFFD for a byte that belongs to none. -/
def text (bs : List UInt8) : String :=
  String.ofList ((runes bs).map fun r => r.char.getD '\ufffd')

/-- `strings.ToLower`, by a mapping of characters. -/
def toLower (lower : Char → Char) (bs : List UInt8) : List UInt8 :=
  bytes (String.ofList ((runes bs).map fun r => lower (r.char.getD '\ufffd')))

/-- `utf8.ValidString`. -/
def validString (bs : List UInt8) : Bool := (runes bs).all (·.char.isSome)

/-! ## Words of printable ASCII -/

section words
variable {w bs : List UInt8} {b : UInt8}

/-- A byte below 128 is a character of its own. -/
def asciiRune (b : UInt8) : Rune := ⟨some (.ofNat b.toNat), [b]⟩

theorem runes_cons_ascii (hb : b < 0x80) : runes (b :: bs) = asciiRune b :: runes bs := by
  simp [runes, runesFrom, decodeRune, hb, asciiRune]

/-- A byte below 128 is a rune of its own. -/
theorem runes_append_ascii (h : ∀ b ∈ w, b < 0x80) :
    runes (w ++ bs) = w.map asciiRune ++ runes bs := by
  induction w with
  | nil => rfl
  | cons b w ih =>
    rw [List.cons_append, runes_cons_ascii (h b (by simp)), ih fun c hc => h c (by simp [hc])]
    rfl

theorem ofRunes_map_asciiRune : ofRunes (w.map asciiRune) = w := by
  rw [ofRunes, List.flatMap_map]
  exact List.flatMap_singleton' w

/-- The bytes are printable, and none of them is white space. -/
def IsWord (w : List UInt8) : Prop := w ≠ [] ∧ ∀ b ∈ w, 33 ≤ b.toNat ∧ b.toNat ≤ 126

instance : Decidable (IsWord w) := inferInstanceAs (Decidable (_ ∧ _))

theorem IsWord.ascii (h : IsWord w) : ∀ b ∈ w, b < 0x80 := by
  intro b hb
  have := (h.2 b hb).2
  rw [UInt8.lt_iff_toNat_lt]
  exact Nat.lt_of_le_of_lt this (by decide)

theorem IsWord.not_isSpace (h : IsWord w) : ∀ r ∈ w.map asciiRune, r.isSpace = false := by
  intro r hr
  obtain ⟨b, hb, rfl⟩ := List.mem_map.mp hr
  have hall : ∀ n < 127, 33 ≤ n → Text.isSpace (.ofNat n) = false := by decide
  obtain ⟨hlow, hhigh⟩ := h.2 b hb
  simp [asciiRune, Rune.isSpace, hall b.toNat (by omega) hlow]

theorem fields_word (h : IsWord w) : fields w = [w] := by
  have hrunes : runes w = w.map asciiRune := by
    have happend : runes (w ++ []) = w.map asciiRune ++ runes [] := runes_append_ascii h.ascii
    simpa [runes, runesFrom] using happend
  have hne : w.map asciiRune ≠ [] := by simpa using h.1
  rw [fields, hrunes, List.splitOnP_eq_singleton h.not_isSpace]
  simp [hne, ofRunes_map_asciiRune]

/-- A word in front of a blank is the first field. -/
theorem fields_cons (h : IsWord w) : fields (w ++ 32 :: bs) = w :: fields bs := by
  have hne : w.map asciiRune ≠ [] := by simpa using h.1
  rw [fields, runes_append_ascii h.ascii, runes_cons_ascii (by decide),
    List.splitOnP_append_cons_of_forall_mem h.not_isSpace (asciiRune 32) (by decide)]
  simp [hne, ofRunes_map_asciiRune, fields]

end words

/-! ## Runes and lower case in front of ASCII -/

/-- The text is empty or begins with a byte below 128. -/
def OpensASCII (bs : List UInt8) : Prop := ∀ b ∈ bs.head?, b < 0x80

theorem not_isTail {b : UInt8} (hb : b < 0x80) : isTail b = false := by
  have : ¬ (0x80 ≤ b) := UInt8.not_le.mpr hb
  simp [isTail, this]

theorem not_opensThree {a b : UInt8} (hb : b < 0x80) : opensThree a b = false := by
  have h1 : ¬ (0x80 ≤ b) := UInt8.not_le.mpr hb
  have h2 : ¬ (0xA0 ≤ b) := UInt8.not_le.mpr (UInt8.lt_of_lt_of_le hb (by decide))
  simp [opensThree, isTail, h1, h2]

theorem not_opensFour {a b : UInt8} (hb : b < 0x80) : opensFour a b = false := by
  have h1 : ¬ (0x80 ≤ b) := UInt8.not_le.mpr hb
  have h2 : ¬ (0x90 ≤ b) := UInt8.not_le.mpr (UInt8.lt_of_lt_of_le hb (by decide))
  simp [opensFour, isTail, h1, h2]

/-- A byte below 128 does not continue the rune in front of it. -/
theorem decodeRune_append {a b : UInt8} {w bs : List UInt8} (hb : b < 0x80) :
    decodeRune (a :: (w ++ b :: bs)) = decodeRune (a :: w) := by
  match w with
  | [] =>
    cases bs with
    | nil => simp [decodeRune, not_isTail hb]
    | cons c bs =>
      cases bs <;> simp [decodeRune, not_isTail hb, not_opensThree hb, not_opensFour hb]
  | [c] =>
    cases bs <;> simp [decodeRune, not_isTail hb]
  | [c, d] => simp [decodeRune, not_isTail hb]
  | c :: d :: e :: w => simp [decodeRune]

theorem ofNat_range {n : Nat} (h : n < 0xD800 ∨ 0xDFFF < n ∧ n < 0x110000) :
    (Char.ofNat n).toNat = n := by
  rw [Char.ofNat, dif_pos h]
  rfl

theorem decodeRune_ascii {a : UInt8} (ha : a < 0x80) (bs : List UInt8) :
    decodeRune (a :: bs) = (some (.ofNat a.toNat), 1) := by
  rw [decodeRune.eq_def]
  exact if_pos ha

/-- A rune that starts with a byte from 128 on has no character or one from 128 on. -/
theorem decodeRune_wide {a : UInt8} (ha : 0x80 ≤ a) (bs : List UInt8) :
    ∃ width, 1 ≤ width ∧ width ≤ bs.length + 1 ∧ (decodeRune (a :: bs) = (none, width) ∨
      ∃ c, 128 ≤ c.toNat ∧ decodeRune (a :: bs) = (some c, width)) := by
  have hascii : ¬ a < 0x80 := UInt8.not_lt.mpr ha
  have hnone : 1 ≤ bs.length + 1 := Nat.le_add_left 1 _
  rw [decodeRune.eq_def]
  dsimp only
  rw [if_neg hascii]
  cases bs with
  | nil => exact ⟨1, le_rfl, hnone, .inl rfl⟩
  | cons b bs =>
    dsimp only
    split
    · rename_i htwo
      simp only [Bool.and_eq_true, decide_eq_true_eq, UInt8.le_iff_toNat_le, isTail] at htwo
      simp only [UInt8.reduceToNat] at htwo
      refine ⟨2, by decide, by simp, .inr ⟨_, ?_, rfl⟩⟩
      rw [ofNat_range (by omega)]
      omega
    cases bs with
    | nil => exact ⟨1, le_rfl, hnone, .inl rfl⟩
    | cons c bs =>
      dsimp only
      split
      · rename_i hthree
        simp only [Bool.and_eq_true, Bool.or_eq_true, decide_eq_true_eq, UInt8.le_iff_toNat_le,
          isTail, opensThree, beq_iff_eq, ← UInt8.toNat_inj, UInt8.reduceToNat] at hthree
        refine ⟨3, by decide, by simp, .inr ⟨_, ?_, rfl⟩⟩
        rw [ofNat_range (by omega)]
        omega
      cases bs with
      | nil => exact ⟨1, le_rfl, hnone, .inl rfl⟩
      | cons d bs =>
        dsimp only
        split
        · rename_i hfour
          simp only [Bool.and_eq_true, Bool.or_eq_true, decide_eq_true_eq, UInt8.le_iff_toNat_le,
            isTail, opensFour, beq_iff_eq, ← UInt8.toNat_inj, UInt8.reduceToNat] at hfour
          refine ⟨4, by decide, by simp, .inr ⟨_, ?_, rfl⟩⟩
          rw [ofNat_range (by omega)]
          omega
        · exact ⟨1, le_rfl, hnone, .inl rfl⟩

theorem decodeRune_width (a : UInt8) (bs : List UInt8) :
    1 ≤ (decodeRune (a :: bs)).2 ∧ (decodeRune (a :: bs)).2 ≤ bs.length + 1 := by
  by_cases ha : a < 0x80
  · rw [decodeRune_ascii ha]
    exact ⟨le_rfl, Nat.le_add_left ..⟩
  · obtain ⟨width, hlow, hhigh, h | ⟨c, -, h⟩⟩ := decodeRune_wide (UInt8.not_lt.mp ha) bs
    · rw [h]
      exact ⟨hlow, hhigh⟩
    · rw [h]
      exact ⟨hlow, hhigh⟩

theorem runesFrom_eq (skip : Nat) (bs : List UInt8) : runesFrom skip bs = runes (bs.drop skip) := by
  induction skip generalizing bs with
  | zero => rfl
  | succ skip ih =>
    cases bs with
    | nil => rfl
    | cons b bs => exact ih bs

theorem runes_cons (b : UInt8) (bs : List UInt8) : runes (b :: bs) =
    ⟨(decodeRune (b :: bs)).1, (b :: bs).take (decodeRune (b :: bs)).2⟩ ::
      runes ((b :: bs).drop (decodeRune (b :: bs)).2) := by
  obtain ⟨hwidth, -⟩ := decodeRune_width b bs
  obtain ⟨width, hwidth⟩ := Nat.exists_eq_add_of_le' hwidth
  rw [runes, runesFrom]
  dsimp only
  rw [runesFrom_eq, hwidth, Nat.add_sub_cancel, List.drop_succ_cons]

/-- In front of a byte below 128 a text falls apart into runes. -/
theorem runes_append {bs : List UInt8} (hbs : OpensASCII bs) (pre : List UInt8) :
    runes (pre ++ bs) = runes pre ++ runes bs := by
  cases bs with
  | nil => simp [runes, runesFrom]
  | cons b bs =>
    have hb : b < 0x80 := hbs b rfl
    induction hn : pre.length using Nat.strong_induction_on generalizing pre with
    | _ n ih =>
      cases pre with
      | nil => rfl
      | cons a pre =>
        obtain ⟨hlow, hhigh⟩ := decodeRune_width a pre
        have hrune : decodeRune (a :: (pre ++ b :: bs)) = decodeRune (a :: pre) :=
          decodeRune_append hb
        rw [List.cons_append, runes_cons, runes_cons a pre, hrune, ← List.cons_append,
          List.take_append_of_le_length hhigh, List.drop_append_of_le_length hhigh,
          ih _ ?_ _ rfl]
        · rfl
        · rw [← hn, List.length_drop, List.length_cons]
          omega

theorem toLower_eq (lower : Char → Char) (bs : List UInt8) : toLower lower bs =
    (runes bs).flatMap fun r => String.utf8EncodeChar (lower (r.char.getD '\ufffd')) := by
  rw [toLower]
  simp [bytes, List.utf8Encode, List.flatMap_map]

theorem toLower_append {bs : List UInt8} (hbs : OpensASCII bs) (lower : Char → Char)
    (pre : List UInt8) : toLower lower (pre ++ bs) = toLower lower pre ++ toLower lower bs := by
  rw [toLower_eq, toLower_eq, toLower_eq, runes_append hbs, List.flatMap_append]

/-- The lower case of an ASCII byte. -/
def lowerByte (b : UInt8) : UInt8 := if 65 ≤ b && b ≤ 90 then b + 32 else b

/-- As `unicode.ToLower`: it takes two characters other than ASCII to ASCII letters. -/
structure LowersASCII (lower : Char → Char) : Prop where
  ascii : ∀ c : Char, c.toNat < 128 → lower c = c.toLower
  only : ∀ c : Char, 128 ≤ c.toNat → (lower c).toNat < 128 → lower c = 'k' ∨ lower c = 'i'

theorem lowersASCII_lowerChar : LowersASCII Text.lowerChar where
  ascii := by
    intro c hc
    have hkelvin : c ≠ '\u212a' := by
      rintro rfl
      exact absurd hc (by decide)
    have hdotted : c ≠ '\u0130' := by
      rintro rfl
      exact absurd hc (by decide)
    rw [Text.lowerChar, if_neg hkelvin, if_neg hdotted]
  only := by
    intro c hwide hlow
    rw [Text.lowerChar] at hlow ⊢
    split
    · exact .inl rfl
    · rename_i hkelvin
      rw [if_neg hkelvin] at hlow
      split
      · exact .inr rfl
      · rename_i hdotted
        have hupper : ¬ (c.val ≥ 65 ∧ c.val ≤ 90) := by
          intro h
          have hle : c.toNat ≤ 90 := UInt32.le_iff_toNat_le.mp h.2
          omega
        have hsame : c.toLower = c := dif_neg hupper
        rw [if_neg hdotted, hsame] at hlow
        omega

theorem utf8_ascii {c : Char} (h : c.toNat < 128) :
    String.utf8EncodeChar c = [UInt8.ofNat c.toNat] := by
  have hascii : c.val.toNat ≤ 127 := Nat.le_of_lt_succ h
  simp only [String.utf8EncodeChar, hascii, if_true]
  rfl

/-- The bytes of a character that is not ASCII are none of ASCII. -/
theorem utf8_wide {c : Char} (h : 128 ≤ c.toNat) : String.utf8EncodeChar c ≠ [] ∧
    ∀ b ∈ String.utf8EncodeChar c, ¬ b < 0x80 := by
  have hwide : ¬ c.val.toNat ≤ 127 := Nat.not_le_of_lt h
  have hmax : c.val.toNat < 1114112 :=
    c.valid.elim (fun h => Nat.lt_trans h (by decide)) fun h => h.2
  have hbyte : ∀ n, 128 ≤ n → n < 256 → ¬ UInt8.ofNat n < 0x80 := by
    intro n hlow hhigh
    rw [UInt8.lt_iff_toNat_lt, UInt8.toNat_ofNat']
    change ¬ n % 256 < 128
    omega
  simp only [String.utf8EncodeChar, hwide, if_false]
  split
  · refine ⟨List.cons_ne_nil _ _, fun b hb => ?_⟩
    simp only [List.mem_cons, List.not_mem_nil, or_false] at hb
    rcases hb with rfl | rfl
    all_goals exact hbyte _ (by omega) (by omega)
  · split
    · refine ⟨List.cons_ne_nil _ _, fun b hb => ?_⟩
      simp only [List.mem_cons, List.not_mem_nil, or_false] at hb
      rcases hb with rfl | rfl | rfl
      all_goals exact hbyte _ (by omega) (by omega)
    · refine ⟨List.cons_ne_nil _ _, fun b hb => ?_⟩
      simp only [List.mem_cons, List.not_mem_nil, or_false] at hb
      rcases hb with rfl | rfl | rfl | rfl
      all_goals exact hbyte _ (by omega) (by omega)

section lower
variable {lower : Char → Char} (hlower : LowersASCII lower)
include hlower

theorem toLower_cons {b : UInt8} (hb : b < 0x80) (bs : List UInt8) :
    toLower lower (b :: bs) = lowerByte b :: toLower lower bs := by
  have hall : ∀ n < 128, (Char.ofNat n).toNat < 128 ∧ (Char.ofNat n).toLower.toNat < 128 ∧
      UInt8.ofNat (Char.ofNat n).toLower.toNat = lowerByte (UInt8.ofNat n) := by decide
  obtain ⟨hascii, hlow, hbyte⟩ := hall b.toNat (UInt8.lt_iff_toNat_lt.mp hb)
  rw [UInt8.ofNat_toNat] at hbyte
  rw [toLower_eq, toLower_eq, runes_cons_ascii hb, List.flatMap_cons, asciiRune, Option.getD_some,
    hlower.ascii _ hascii, utf8_ascii hlow, hbyte, List.singleton_append]

theorem toLower_ascii_append {w : List UInt8} (hw : ∀ b ∈ w, b < 0x80) (bs : List UInt8) :
    toLower lower (w ++ bs) = w.map lowerByte ++ toLower lower bs := by
  induction w with
  | nil => rfl
  | cons b w ih =>
    rw [List.cons_append, toLower_cons hlower (hw b List.mem_cons_self),
      ih fun c hc => hw c (List.mem_cons_of_mem _ hc)]
    rfl

theorem toLower_ascii {bs : List UInt8} (h : ∀ b ∈ bs, b < 0x80) :
    toLower lower bs = bs.map lowerByte := by
  have hlow := toLower_ascii_append hlower h []
  have hnil : toLower lower [] = [] := rfl
  rwa [List.append_nil, hnil, List.append_nil] at hlow

/-- A lower-case text that begins with an ASCII byte comes from one rune and the text behind it;
apart from two letters the rune is that letter. -/
theorem of_cons_prefix_toLower {a : UInt8} {p bs : List UInt8} (ha : a < 0x80)
    (h : a :: p <+: toLower lower bs) : ∃ w rest, bs = w ++ rest ∧ w ≠ [] ∧
      p <+: toLower lower rest ∧ (a ≠ 107 → a ≠ 105 →
        ∃ b, w = [b] ∧ b < 0x80 ∧ lowerByte b = a) := by
  cases bs with
  | nil => exact absurd (List.prefix_nil.mp h) (List.cons_ne_nil _ _)
  | cons b bs =>
    by_cases hb : b < 0x80
    · rw [toLower_cons hlower hb, List.cons_prefix_cons] at h
      exact ⟨[b], bs, rfl, List.cons_ne_nil _ _, h.2, fun _ _ => ⟨b, rfl, hb, h.1.symm⟩⟩
    · obtain ⟨hwidth, -⟩ := decodeRune_width b bs
      have hchar : 128 ≤ ((decodeRune (b :: bs)).1.getD '\ufffd').toNat := by
        obtain ⟨width, -, -, h | ⟨c, hc, h⟩⟩ := decodeRune_wide (UInt8.not_lt.mp hb) bs
        · rw [h]
          exact (by decide : 128 ≤ ( '\ufffd').toNat)
        · rw [h]
          exact hc
      refine ⟨(b :: bs).take (decodeRune (b :: bs)).2, (b :: bs).drop (decodeRune (b :: bs)).2,
        (List.take_append_drop ..).symm, ?_, ?_⟩
      · rw [Ne, List.take_eq_nil_iff, not_or]
        exact ⟨by omega, List.cons_ne_nil _ _⟩
      rw [toLower_eq, runes_cons, List.flatMap_cons, ← toLower_eq] at h
      dsimp only at h
      by_cases hlow : (lower ((decodeRune (b :: bs)).1.getD '\ufffd')).toNat < 128
      · rw [utf8_ascii hlow, List.singleton_append, List.cons_prefix_cons] at h
        refine ⟨h.2, fun hk hi => ?_⟩
        rcases hlower.only _ hchar hlow with hchar | hchar
        · exact absurd (h.1.trans (by rw [hchar]; rfl)) hk
        · exact absurd (h.1.trans (by rw [hchar]; rfl)) hi
      · obtain ⟨hne, hwide⟩ := utf8_wide (Nat.le_of_not_lt hlow)
        obtain ⟨x, xs, hx⟩ := List.exists_cons_of_ne_nil hne
        rw [hx, List.cons_append, List.cons_prefix_cons] at h
        exact absurd (h.1 ▸ ha) (hwide x (hx ▸ List.mem_cons_self))

end lower

/-- `strings.Index`. -/
def index (pattern : List UInt8) : List UInt8 → Option Nat
  | [] => if pattern = [] then some 0 else none
  | b :: bs =>
    if pattern.isPrefixOf (b :: bs) then some 0 else (index pattern bs).map (· + 1)

theorem index_eq_some {pattern bs : List UInt8} {n : Nat} (hne : pattern ≠ [])
    (h : index pattern bs = some n) :
    pattern <+: bs.drop n ∧ ∀ m < n, ¬ pattern <+: bs.drop m := by
  induction bs generalizing n with
  | nil =>
    rw [index, if_neg hne] at h
    cases h
  | cons b bs ih =>
    rw [index] at h
    split at h
    · rename_i hfront
      cases h
      exact ⟨List.isPrefixOf_iff_prefix.mp hfront, fun m hm => absurd hm (Nat.not_lt_zero m)⟩
    · rename_i hfront
      obtain ⟨k, hk, rfl⟩ := Option.map_eq_some_iff.mp h
      obtain ⟨hfound, hfirst⟩ := ih hk
      refine ⟨hfound, fun m hm => ?_⟩
      cases m with
      | zero => exact fun hm => hfront (List.isPrefixOf_iff_prefix.mpr hm)
      | succ m => exact hfirst m (Nat.lt_of_succ_lt_succ hm)

theorem index_eq_none {pattern bs : List UInt8} (hne : pattern ≠ [])
    (h : index pattern bs = none) (n : Nat) : ¬ pattern <+: bs.drop n := by
  induction bs generalizing n with
  | nil =>
    rw [List.drop_nil, List.prefix_nil]
    exact hne
  | cons b bs ih =>
    rw [index] at h
    split at h
    · cases h
    · rename_i hfront
      cases n with
      | zero => exact fun hn => hfront (List.isPrefixOf_iff_prefix.mpr hn)
      | succ n => exact ih (Option.map_eq_none_iff.mp h) n

/-! ## Valid encodings -/

/-- A character that is decoded has its one to four bytes at the front, and nothing behind them
matters. -/
theorem exists_of_decodeRune {bs : List UInt8} {c : Char} {width : Nat}
    (h : decodeRune bs = (some c, width)) : ∃ front back, bs = front ++ back ∧
    front.length = width ∧
      0 < width ∧ width ≤ 4 ∧ ∀ rest, decodeRune (front ++ rest) = (some c, width) := by
  rw [decodeRune.eq_def] at h
  match bs with
  | [] => cases h
  | a :: bs =>
    dsimp only at h
    split at h
    · rename_i hone
      cases h
      exact ⟨[a], bs, rfl, rfl, by decide, by decide, fun rest => decodeRune_ascii hone rest⟩
    rename_i hone
    match bs with
    | [] => cases h
    | b :: bs =>
      dsimp only at h
      split at h
      · rename_i htwo
        cases h
        refine ⟨[a, b], bs, rfl, rfl, by decide, by decide, fun rest => ?_⟩
        simp only [List.cons_append, List.nil_append, decodeRune, if_neg hone, if_pos htwo]
      rename_i htwo
      match bs with
      | [] => cases h
      | c :: bs =>
        dsimp only at h
        split at h
        · rename_i hthree
          cases h
          refine ⟨[a, b, c], bs, rfl, rfl, by decide, by decide, fun rest => ?_⟩
          simp only [List.cons_append, List.nil_append, decodeRune, if_neg hone, if_neg htwo,
            if_pos hthree]
        rename_i hthree
        match bs with
        | [] => cases h
        | d :: bs =>
          dsimp only at h
          split at h
          · rename_i hfour
            cases h
            refine ⟨[a, b, c, d], bs, rfl, rfl, by decide, by decide, fun rest => ?_⟩
            simp only [List.cons_append, List.nil_append, decodeRune, if_neg hone, if_neg htwo,
              if_neg hthree, if_pos hfour]
          · cases h

/-- The character at the front is the first rune. -/
theorem runes_front {front : List UInt8} {c : Char}
    (hdecode : ∀ rest, decodeRune (front ++ rest) = (some c, front.length))
    (hpos : 0 < front.length)
    (rest : List UInt8) : runes (front ++ rest) = ⟨some c, front⟩ :: runes rest := by
  obtain ⟨a, bs, rfl⟩ := List.exists_cons_of_length_pos hpos
  rw [List.cons_append, runes_cons, ← List.cons_append, hdecode, List.take_left, List.drop_left]

theorem validString_nil : validString [] = true := rfl

/-- A valid text begins with a character. -/
theorem exists_of_validString {bs : List UInt8} (h : validString bs = true) (hne : bs ≠ []) :
    ∃ front back c, bs = front ++ back ∧ 0 < front.length ∧
      (∀ rest, decodeRune (front ++ rest) = (some c, front.length)) ∧ validString back = true := by
  obtain ⟨a, bs, rfl⟩ := List.exists_cons_of_ne_nil hne
  cases hrune : decodeRune (a :: bs) with
  | mk char width =>
    rw [validString, runes_cons, hrune, List.all_cons, Bool.and_eq_true] at h
    obtain ⟨c, rfl⟩ := Option.isSome_iff_exists.mp h.1
    obtain ⟨front, back, hsplit, rfl, hpos, -, hdecode⟩ := exists_of_decodeRune hrune
    rw [hsplit, List.drop_left] at h
    exact ⟨front, back, c, hsplit, hpos, hdecode, h.2⟩

/-- The runes that begin in the first `n` bytes have a character each. -/
def validBefore : Nat → List Rune → Bool
  | _, [] => true
  | 0, _ :: _ => true
  | n + 1, r :: rs => r.char.isSome && validBefore (n + 1 - r.bytes.length) rs

theorem validBefore_zero (rs : List Rune) : validBefore 0 rs = true := by
  cases rs <;> rfl

/-- No rune that begins within a valid text is without a character, whatever is behind the text. -/
theorem validBefore_append {front : List UInt8} (h : validString front = true) {n : Nat}
    (hn : n ≤ front.length) (rest : List UInt8) : validBefore n (runes (front ++ rest)) = true := by
  induction hlength : front.length using Nat.strong_induction_on generalizing front n with
  | _ length ih =>
    cases n with
    | zero => exact validBefore_zero _
    | succ n =>
      have hne : front ≠ [] := List.ne_nil_of_length_pos (Nat.zero_lt_of_lt hn)
      obtain ⟨first, back, c, rfl, hpos, hdecode, hback⟩ := exists_of_validString h hne
      rw [List.length_append] at hn hlength
      rw [List.append_assoc, runes_front hdecode hpos, validBefore]
      dsimp only
      exact ih back.length (by omega) hback (by omega) rfl

/-- Of a text whose first bytes are valid, a part that ends with a character, up to three bytes
behind them, is valid. -/
theorem exists_validString_take {n : Nat} {bs : List UInt8} (hn : n ≤ bs.length)
    (h : validBefore n (runes bs) = true) :
    ∃ m, n ≤ m ∧ m ≤ n + 3 ∧ m ≤ bs.length ∧ validString (bs.take m) = true := by
  induction n using Nat.strong_induction_on generalizing bs with
  | _ n ih =>
    cases n with
    | zero => exact ⟨0, le_rfl, Nat.zero_le _, Nat.zero_le _, validString_nil⟩
    | succ n =>
      obtain ⟨a, bs, rfl⟩ := List.exists_cons_of_length_pos (Nat.zero_lt_of_lt hn)
      cases hrune : decodeRune (a :: bs) with
      | mk char width =>
        rw [runes_cons, hrune, validBefore, Bool.and_eq_true] at h
        obtain ⟨c, rfl⟩ := Option.isSome_iff_exists.mp h.1
        obtain ⟨front, back, hsplit, rfl, hpos, hwidth, hdecode⟩ := exists_of_decodeRune hrune
        rw [hsplit, List.take_left, List.drop_left] at h
        rw [hsplit, List.length_append] at hn ⊢
        dsimp only at h
        -- the next character ends behind the `n` bytes, or there are bytes left to go
        rcases Nat.lt_or_ge front.length (n + 1) with hlt | hge
        · obtain ⟨m, hlow, hhigh, hlength, hvalid⟩ := ih _ (by omega) (by omega) h.2
          refine ⟨front.length + m, by omega, by omega, by omega, ?_⟩
          rw [List.take_length_add_append, validString, runes_front hdecode hpos, List.all_cons]
          exact hvalid
        · refine ⟨front.length, hge, by omega, by omega, ?_⟩
          have hfront : runes (front ++ []) = ⟨some c, front⟩ :: runes [] :=
            runes_front hdecode hpos []
          rw [List.append_nil] at hfront
          rw [List.take_left, validString, hfront]
          rfl

end ByteString
