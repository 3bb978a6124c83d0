import ADPlatform.CheckerRunner.Output
import Mathlib.Data.List.Infix

/-! # Secrets in failure messages

`redactCheckerSecretMaterial` cuts a text at the place where its lower-case copy has a marker. It is
right where lower case has changed no lengths in front of the markers (`redacts_of_inPlace`);
elsewhere it may panic (`not_redacts`). A text is looked at word by word: what a pass does to a word
depends on the words in front of it by their `growth` only, and a search finds a marker as far from
its place as the text in front of it has grown (`Scan.index`). -/

namespace ADPlatform.CheckerRunner
open ByteString
open Text (bytes)

/-- The white space at which a token ends. -/
def isGap (b : UInt8) : Bool := b == 32 || b == 10 || b == 9 || b == 13

/-- What a secret is replaced by. -/
def mask : List UInt8 := bytes "[redacted]"

/-- The text begins with the mask, and white space or nothing stands behind it. -/
def Masked (bs : List UInt8) : Prop :=
  ∃ rest, bs = mask ++ rest ∧ ∀ b ∈ rest.head?, isGap b = true

/-- Every occurrence of the marker, in upper or lower case, is followed by the mask. -/
def Redacted (marker text : List UInt8) : Prop :=
  ∀ before found behind, text = before ++ found ++ behind →
    found.map lowerByte = marker.map lowerByte → Masked behind

/-! ## Markers in place -/

/-- What stands in front of the first marker. -/
def unmarked (lower : Char → Char) (marker : List UInt8) : List UInt8 → List UInt8
  | [] => []
  | b :: bs =>
    if toLower lower marker <+: toLower lower (b :: bs) then [] else b :: unmarked lower marker bs

/-- The number of bytes that a text gains in lower case. -/
def growth (lower : Char → Char) (text : List UInt8) : Int :=
  (toLower lower text).length - text.length

/-- Where a word has the marker, the words up to there, each up to its first marker, have gained as
many bytes in lower case as they have lost. -/
def inPlace (lower : Char → Char) (marker : List UInt8) : Int → List (List UInt8) → Bool
  | _, [] => true
  | gained, word :: words =>
    let front := unmarked lower marker word
    (front = word || gained + growth lower front = 0) &&
      inPlace lower marker (gained + growth lower front) words

/-- Each marker is in place in the words, of which the markers before it have left the fronts. -/
def markersInPlace (lower : Char → Char) : List SecretMarker → List (List UInt8) → Bool
  | [], _ => true
  | marker :: markers, words => inPlace lower marker.text 0 words &&
      markersInPlace lower markers (words.map (unmarked lower marker.text))

/-! ## Occurrences -/

section occurrences
variable {lower : Char → Char} {marker : List UInt8}

/-- The marker stands at the front of the text. -/
def Opens (lower : Char → Char) (marker bs : List UInt8) : Prop :=
  toLower lower marker <+: toLower lower bs

theorem unmarked_of_opens {bs : List UInt8} (h : Opens lower marker bs) :
    unmarked lower marker bs = [] := by
  cases bs with
  | nil => rfl
  | cons b bs => exact if_pos h

theorem unmarked_cons {b : UInt8} {bs : List UInt8} (h : ¬ Opens lower marker (b :: bs)) :
    unmarked lower marker (b :: bs) = b :: unmarked lower marker bs := if_neg h

variable (lower marker) in
/-- The front and the rest of a text, which begins with the marker if there is one. -/
theorem exists_unmarked_append (bs : List UInt8) : ∃ found,
    bs = unmarked lower marker bs ++ found ∧ (found = [] ∨ Opens lower marker found) ∧
      ∀ front back, unmarked lower marker bs = front ++ back → back ≠ [] →
        ¬ Opens lower marker (back ++ found) := by
  induction bs with
  | nil =>
    refine ⟨[], rfl, .inl rfl, fun front back h hne => ?_⟩
    exact absurd (List.append_eq_nil_iff.mp h.symm).2 hne
  | cons b bs ih =>
    by_cases hopens : Opens lower marker (b :: bs)
    · rw [unmarked_of_opens hopens]
      refine ⟨b :: bs, rfl, .inr hopens, fun front back h hne => ?_⟩
      exact absurd (List.append_eq_nil_iff.mp h.symm).2 hne
    · obtain ⟨found, hsplit, hfound, hnone⟩ := ih
      rw [unmarked_cons hopens]
      refine ⟨found, congrArg _ hsplit, hfound, fun front back h hne => ?_⟩
      cases front with
      | nil =>
        obtain rfl : b :: unmarked lower marker bs = back := h
        rw [List.cons_append, ← hsplit]
        exact hopens
      | cons c front => exact hnone front back (List.cons.inj h).2 hne

/-- A marker that begins in `front` ends there, too, whatever is in front. -/
def EndsBefore (lower : Char → Char) (marker behind : List UInt8) : Prop :=
  ∀ front, front ≠ [] → (Opens lower marker (front ++ behind) ↔ Opens lower marker front)

theorem unmarked_append {behind : List UInt8} (h : EndsBefore lower marker behind)
    (front : List UInt8) : unmarked lower marker (front ++ behind) =
      if unmarked lower marker front = front then front ++ unmarked lower marker behind
      else unmarked lower marker front := by
  induction front with
  | nil => rfl
  | cons b front ih =>
    have hiff := h (b :: front) (List.cons_ne_nil _ _)
    rw [List.cons_append] at hiff ⊢
    by_cases hopens : Opens lower marker (b :: front)
    · rw [unmarked_of_opens hopens, unmarked_of_opens (hiff.mpr hopens),
        if_neg (List.cons_ne_nil _ _).symm]
    · rw [unmarked_cons hopens, unmarked_cons (fun h => hopens (hiff.mp h)), ih]
      by_cases hfront : unmarked lower marker front = front
      · rw [if_pos hfront, if_pos (congrArg _ hfront)]
        rfl
      · rw [if_neg hfront, if_neg fun heq => hfront (List.cons.inj heq).2]

end occurrences

/-! ## Markers -/

/-- The bytes of markers and masks: ASCII without white space. -/
def Plain (bs : List UInt8) : Prop := ∀ b ∈ bs, b < 0x80 ∧ isGap b = false

theorem lowerByte_plain (b : UInt8) :
    isGap (lowerByte b) = isGap b ∧ (lowerByte b < 0x80 ↔ b < 0x80) := by
  have hall : ∀ n < 256, isGap (lowerByte (.ofNat n)) = isGap (.ofNat n) ∧
      (lowerByte (.ofNat n) < 0x80 ↔ UInt8.ofNat n < 0x80) := by decide +kernel
  have hb := hall b.toNat b.toNat_lt
  rwa [UInt8.ofNat_toNat] at hb

theorem Plain.map_lowerByte {bs : List UInt8} (h : Plain bs) : Plain (bs.map lowerByte) := by
  intro b hb
  obtain ⟨c, hc, rfl⟩ := List.mem_map.mp hb
  exact ⟨(lowerByte_plain c).2.mpr (h c hc).1, (lowerByte_plain c).1.trans (h c hc).2⟩

/-- A marker is plain and begins with an `A`. -/
structure IsMarker (marker : List UInt8) : Prop where
  plain : Plain marker
  opens : (marker.map lowerByte).head? = some 97

theorem isMarker_secretMarkers : ∀ marker ∈ secretMarkers, IsMarker marker.text := by
  have hall : ∀ marker ∈ secretMarkers, (∀ b ∈ marker.text, b < 0x80 ∧ isGap b = false) ∧
      (marker.text.map lowerByte).head? = some 97 := by decide +kernel
  exact fun marker hmem => ⟨(hall marker hmem).1, (hall marker hmem).2⟩

section markers
variable {lower : Char → Char} (hlower : LowersASCII lower) {marker : List UInt8}
include hlower

theorem toLower_plain {bs : List UInt8} (h : Plain bs) : toLower lower bs = bs.map lowerByte :=
  toLower_ascii hlower fun b hb => (h b hb).1

variable (hmarker : IsMarker marker)
include hmarker

theorem exists_toLower_marker : ∃ p, toLower lower marker = 97 :: p := by
  rw [toLower_plain hlower hmarker.plain]
  obtain ⟨b, p, hp⟩ := List.exists_cons_of_ne_nil (l := marker.map lowerByte) fun h => by
    have hopens := hmarker.opens
    rw [h] at hopens
    cases hopens
  have hopens := hmarker.opens
  rw [hp, List.head?_cons] at hopens
  exact ⟨p, by rw [hp, Option.some.inj hopens]⟩

/-- Where a marker stands there is an ASCII letter, and the text is not shorter than the marker. -/
theorem Opens.front {bs : List UInt8} (h : Opens lower marker bs) :
    OpensASCII bs ∧ marker.length ≤ bs.length := by
  have hlength : ∀ p bs : List UInt8, (∀ b ∈ p, b < 0x80) → p <+: toLower lower bs →
      p.length ≤ bs.length := by
    intro p
    induction p with
    | nil => exact fun bs _ _ => Nat.zero_le _
    | cons a p ih =>
      intro bs hp hfront
      obtain ⟨w, rest, rfl, hw, hrest, -⟩ :=
        of_cons_prefix_toLower hlower (hp a List.mem_cons_self) hfront
      have hlen := ih rest (fun b hb => hp b (List.mem_cons_of_mem _ hb)) hrest
      have hpos := List.length_pos_of_ne_nil hw
      rw [List.length_cons, List.length_append]
      omega
  constructor
  · obtain ⟨p, hp⟩ := exists_toLower_marker hlower hmarker
    rw [Opens, hp] at h
    obtain ⟨w, rest, rfl, -, -, hw⟩ := of_cons_prefix_toLower hlower (by decide) h
    obtain ⟨b, rfl, hb, -⟩ := hw (by decide) (by decide)
    intro c hc
    obtain rfl : b = c := Option.some.inj hc
    exact hb
  · rw [Opens, toLower_plain hlower hmarker.plain] at h
    have hle := hlength _ bs (fun b hb => ?_) h
    · rwa [List.length_map] at hle
    · obtain ⟨c, hc, rfl⟩ := List.mem_map.mp hb
      exact (lowerByte_plain c).2.mpr (hmarker.plain c hc).1

/-- A marker in the lower-case copy comes from one in the text. -/
theorem exists_opens_of_prefix_drop {bs : List UInt8} {n : Nat}
    (h : toLower lower marker <+: (toLower lower bs).drop n) :
    ∃ front back, bs = front ++ back ∧ Opens lower marker back ∧
      n = (toLower lower front).length := by
  obtain ⟨p, hp⟩ := exists_toLower_marker hlower hmarker
  induction hlength : bs.length using Nat.strong_induction_on generalizing bs n with
  | _ length ih =>
    cases n with
    | zero => exact ⟨[], bs, rfl, h, rfl⟩
    | succ n =>
      cases bs with
      | nil =>
        rw [hp] at h
        exact absurd (List.prefix_nil.mp h) (List.cons_ne_nil _ _)
      | cons b bs =>
        obtain ⟨hwidth, hbound⟩ := decodeRune_width b bs
        have hrune : toLower lower (b :: bs) =
            String.utf8EncodeChar (lower ((decodeRune (b :: bs)).1.getD '\ufffd')) ++
              toLower lower ((b :: bs).drop (decodeRune (b :: bs)).2) := by
          rw [toLower_eq, runes_cons, List.flatMap_cons, ← toLower_eq]
        have hshort : ((b :: bs).drop (decodeRune (b :: bs)).2).length < length := by
          rw [← hlength, List.length_drop, List.length_cons]
          omega
        have hsplit := List.take_append_drop (decodeRune (b :: bs)).2 (b :: bs)
        generalize (b :: bs).take (decodeRune (b :: bs)).2 = w at hsplit
        generalize (b :: bs).drop (decodeRune (b :: bs)).2 = rest at hrune hshort hsplit
        rw [hrune] at h
        have hbehind :
            (String.utf8EncodeChar (lower ((decodeRune (b :: bs)).1.getD '\ufffd'))).length ≤
            n + 1 := by
          by_contra hinside
          rw [List.drop_append_of_le_length (Nat.le_of_not_le hinside), hp] at h
          generalize lower ((decodeRune (b :: bs)).1.getD '\ufffd') = c at h hinside
          rcases Nat.lt_or_ge c.toNat 128 with hc | hc
          · rw [utf8_ascii hc, List.length_singleton] at hinside
            omega
          · have hlength := List.length_drop (i := n + 1) (l := String.utf8EncodeChar c)
            obtain ⟨x, xs, hx⟩ :=
              List.exists_cons_of_length_pos (l := (String.utf8EncodeChar c).drop (n + 1))
              (by omega)
            rw [hx, List.cons_append, List.cons_prefix_cons] at h
            refine (utf8_wide hc).2 x (List.mem_of_mem_drop (hx ▸ List.mem_cons_self)) ?_
            rw [← h.1]
            decide
        generalize String.utf8EncodeChar (lower ((decodeRune (b :: bs)).1.getD '\ufffd')) = enc at *
        rw [List.drop_append, List.drop_eq_nil_of_le hbehind, List.nil_append] at h
        obtain ⟨front, back, rfl, hback, hn⟩ := ih _ hshort h rfl
        refine ⟨w ++ front, back, by rw [← hsplit, List.append_assoc], hback, ?_⟩
        have hascii := (hback.front hlower hmarker).1
        rw [← hsplit, ← List.append_assoc, ByteString.toLower_append hascii,
          ByteString.toLower_append hascii] at hrune
        have hlengths := congrArg List.length hrune
        simp only [List.length_append] at hlengths
        omega

/-- A text falls apart where its marker begins, in lower case, too. -/
theorem exists_toLower_unmarked_append (bs : List UInt8) : ∃ found,
    bs = unmarked lower marker bs ++ found ∧ (found = [] ∨ Opens lower marker found) ∧
      toLower lower bs = toLower lower (unmarked lower marker bs) ++ toLower lower found := by
  obtain ⟨found, hsplit, hfound, -⟩ := exists_unmarked_append lower marker bs
  refine ⟨found, hsplit, hfound, ?_⟩
  have hascii : OpensASCII found := by
    rcases hfound with rfl | hfound
    · exact nofun
    · exact (hfound.front hlower hmarker).1
  rw [← ByteString.toLower_append hascii, ← hsplit]

/-- A search in the lower-case copy finds the first marker, behind the lower-case copy of what
stands in front of it. -/
theorem index_toLower (bs : List UInt8) : index (toLower lower marker) (toLower lower bs) =
    if unmarked lower marker bs = bs then none
    else some (toLower lower (unmarked lower marker bs)).length := by
  obtain ⟨p, hp⟩ := exists_toLower_marker hlower hmarker
  have hne : toLower lower marker ≠ [] := by
    rw [hp]
    exact List.cons_ne_nil _ _
  obtain ⟨found, hsplit, hfound, hnone⟩ := exists_unmarked_append lower marker bs
  generalize unmarked lower marker bs = front at *
  have hopens : ∀ {back}, Opens lower marker back → back ≠ [] := by
    rintro back hback rfl
    rw [Opens, hp] at hback
    exact absurd (List.prefix_nil.mp hback) (List.cons_ne_nil _ _)
  have hfirst : ∀ {n}, toLower lower marker <+: (toLower lower bs).drop n →
      found ≠ [] ∧ (toLower lower front).length ≤ n := by
    intro n h
    obtain ⟨front', back, hbs, hback, rfl⟩ := exists_opens_of_prefix_drop hlower hmarker h
    rw [hsplit] at hbs
    rcases List.append_eq_append_iff.mp hbs with ⟨w, rfl, rfl⟩ | ⟨w, rfl, rfl⟩
    · have hascii : OpensASCII w := by
        intro b hb
        rcases hfound with hnil | hfound
        · exact absurd (List.append_eq_nil_iff.mp hnil).2 (hopens hback)
        · exact (hfound.front hlower hmarker).1 b (by
            rw [List.head?_append, Option.mem_def.mp hb]; rfl)
      rw [ByteString.toLower_append hascii, List.length_append]
      exact ⟨List.append_ne_nil_of_right_ne_nil _ (hopens hback), Nat.le_add_right ..⟩
    · obtain rfl : w = [] := by
        by_contra hw
        exact hnone front' w rfl hw hback
      rw [List.append_nil]
      exact ⟨hopens hback, le_rfl⟩
  cases hindex : index (toLower lower marker) (toLower lower bs) with
  | none =>
    rw [if_pos]
    by_contra hmarked
    have hfound' : Opens lower marker found := by
      refine hfound.resolve_left fun hnil => hmarked ?_
      rw [hsplit, hnil, List.append_nil]
    refine index_eq_none hne hindex (toLower lower front).length ?_
    rw [hsplit, ByteString.toLower_append (hfound'.front hlower hmarker).1, List.drop_left]
    exact hfound'
  | some n =>
    obtain ⟨hn, hbefore⟩ := index_eq_some hne hindex
    obtain ⟨hmarked, hle⟩ := hfirst hn
    have hfound' := hfound.resolve_left hmarked
    rw [if_neg]
    · refine congrArg some (Nat.le_antisymm (Nat.le_of_not_lt fun hlt => hbefore _ hlt ?_) hle)
      rw [hsplit, ByteString.toLower_append (hfound'.front hlower hmarker).1, List.drop_left]
      exact hfound'
    · intro heq
      rw [hsplit] at heq
      exact hmarked (List.append_right_eq_self.mp heq.symm)

end markers

/-! ## What stands behind a word -/

/-- White space or nothing stands here. -/
def OpensGap (bs : List UInt8) : Prop := ∀ b ∈ bs.head?, isGap b = true

theorem gap_ascii {b : UInt8} (h : isGap b = true) : b < 0x80 ∧ lowerByte b = b := by
  simp only [isGap, Bool.or_eq_true, beq_iff_eq] at h
  rcases h with ((rfl | rfl) | rfl) | rfl
  all_goals decide

theorem OpensGap.opensASCII {bs : List UInt8} (h : OpensGap bs) : OpensASCII bs :=
  fun b hb => (gap_ascii (h b hb)).1

/-- No white space stands in the word. -/
def Gapless (w : List UInt8) : Prop := ∀ b ∈ w, isGap b = false

theorem prefix_append_cases {p front behind : List UInt8} (h : p <+: front ++ behind) :
    p <+: front ∨ ∃ q, q ≠ [] ∧ p = front ++ q ∧ q <+: behind := by
  obtain ⟨rest, h⟩ := h
  rcases List.append_eq_append_iff.mp h with ⟨w, rfl, -⟩ | ⟨w, rfl, rfl⟩
  · exact .inl (List.prefix_append ..)
  · cases w with
    | nil =>
      rw [List.append_nil]
      exact .inl (List.prefix_refl _)
    | cons b w => exact .inr ⟨b :: w, List.cons_ne_nil _ _, rfl, List.prefix_append ..⟩

section behind
variable {lower : Char → Char} (hlower : LowersASCII lower) {marker : List UInt8}
  (hmarker : IsMarker marker)
include hlower hmarker

/-- A marker does not reach over white space. -/
theorem endsBefore_gap {behind : List UInt8} (h : OpensGap behind) :
    EndsBefore lower marker behind := by
  intro front _
  rw [Opens, Opens, ByteString.toLower_append h.opensASCII]
  refine ⟨fun hopens => ?_, fun hopens => hopens.trans (List.prefix_append ..)⟩
  rcases prefix_append_cases hopens with hopens | ⟨q, hq, hp, hbehind⟩
  · exact hopens
  cases behind with
  | nil => exact absurd (List.prefix_nil.mp hbehind) hq
  | cons g behind =>
    obtain ⟨hascii, hlow⟩ := gap_ascii (h g rfl)
    rw [toLower_cons hlower hascii, hlow] at hbehind
    obtain ⟨b, q, rfl⟩ := List.exists_cons_of_ne_nil hq
    have hplain : Plain (toLower lower marker) := by
      rw [toLower_plain hlower hmarker.plain]
      exact hmarker.plain.map_lowerByte
    have hgap := (hplain b (hp ▸ List.mem_append_right _ List.mem_cons_self)).2
    rw [(List.cons_prefix_cons.mp hbehind).1, h g rfl] at hgap
    cases hgap

theorem not_opens_gap {g : UInt8} (h : isGap g = true) (behind : List UInt8) :
    ¬ Opens lower marker (g :: behind) := by
  intro hopens
  obtain ⟨p, hp⟩ := exists_toLower_marker hlower hmarker
  obtain ⟨hascii, hlow⟩ := gap_ascii h
  rw [Opens, hp, toLower_cons hlower hascii, hlow, List.cons_prefix_cons] at hopens
  rw [← hopens.1] at h
  cases h

theorem unmarked_gap {g : UInt8} (h : isGap g = true) (behind : List UInt8) :
    unmarked lower marker (g :: behind) = g :: unmarked lower marker behind :=
  unmarked_cons (not_opens_gap hlower hmarker h behind)

end behind

/-! ## Words -/

/-- The words of a text, and the white space in front of all but the first. -/
def assemble (w : List UInt8) (ws : List (UInt8 × List UInt8)) : List UInt8 :=
  w ++ ws.flatMap fun p => p.1 :: p.2

/-- A word with the mask behind its first marker. -/
def maskWord (lower : Char → Char) (marker w : List UInt8) : List UInt8 :=
  if unmarked lower marker w = w then w else unmarked lower marker w ++ (marker ++ mask)

/-- A text between words that were masked and words that are still to be looked through: `done` is
what is masked, and `skip` has no marker. -/
structure Scan (lower : Char → Char) (marker done skip : List UInt8) : Prop where
  length : (toLower lower done).length = done.length
  joins : ∀ bs, toLower lower (done ++ (skip ++ bs)) =
    toLower lower done ++ toLower lower (skip ++ bs)
  lowers : ∀ bs, toLower lower (skip ++ bs) = toLower lower skip ++ toLower lower bs
  passes : ∀ bs, unmarked lower marker (skip ++ bs) = skip ++ unmarked lower marker bs

theorem opensGap_flatMap {ws : List (UInt8 × List UInt8)} (hws : ∀ p ∈ ws, isGap p.1 = true) :
    OpensGap (ws.flatMap fun p => p.1 :: p.2) := by
  cases ws with
  | nil => exact nofun
  | cons p ws =>
    intro b hb
    obtain rfl : p.1 = b := Option.some.inj hb
    exact hws p List.mem_cons_self

theorem mask_plain : Plain mask := by
  have hall : mask.Forall fun b => b < 0x80 ∧ isGap b = false := by decide
  exact List.forall_iff_forall_mem.mp hall

theorem tokenEnd_eq (s : List UInt8) (start : Nat) :
    tokenEnd s start = start + ((s.drop start).takeWhile fun b => !isGap b).length := by
  rw [tokenEnd]
  congr 3
  funext b
  rw [isGap]
  simp only [Bool.not_or, ← bne_iff_ne, Bool.decide_eq_true]
  rfl

/-- The end of the token, where a word stands that is not shorter than the marker. -/
theorem tokenEnd_append {front found tail : List UInt8} {n : Nat} (hn : n ≤ found.length)
    (hfound : Gapless found) (htail : OpensGap tail) :
    tokenEnd (front ++ (found ++ tail)) (front.length + n) = front.length + found.length := by
  have hall : ∀ b ∈ found.drop n, (!isGap b) = true := by
    intro b hb
    rw [hfound b (List.mem_of_mem_drop hb)]
    rfl
  have hstop : tail.takeWhile (fun b => !isGap b) = [] := by
    cases tail with
    | nil => rfl
    | cons g tail =>
      rw [List.takeWhile_cons_of_neg]
      simp [htail g rfl]
  rw [tokenEnd_eq, List.drop_length_add_append, List.drop_append_of_le_length hn,
    List.takeWhile_append_of_pos hall, hstop, List.append_nil, List.length_drop]
  omega

theorem scan_start {lower : Char → Char} {marker : List UInt8} : Scan lower marker [] [] :=
  ⟨rfl, fun _ => rfl, fun _ => rfl, fun _ => rfl⟩

theorem growth_append {lower : Char → Char} {front bs : List UInt8}
    (h : toLower lower (front ++ bs) = toLower lower front ++ toLower lower bs) :
    growth lower (front ++ bs) = growth lower front + growth lower bs := by
  rw [growth, growth, growth, h, List.length_append, List.length_append]
  omega

section words
variable {lower : Char → Char} (hlower : LowersASCII lower)
include hlower

theorem growth_ascii {bs : List UInt8} (h : ∀ b ∈ bs, b < 0x80) : growth lower bs = 0 := by
  rw [growth, toLower_ascii hlower h, List.length_map]
  omega

variable {marker : List UInt8} (hmarker : IsMarker marker)
include hmarker

/-- A word without a marker, and the white space behind it. -/
theorem Scan.pass {done skip w : List UInt8} {g : UInt8} (h : Scan lower marker done skip)
    (hw : unmarked lower marker w = w) (hg : isGap g = true) :
    Scan lower marker done (skip ++ (w ++ [g])) := by
  have hgap : ∀ bs, OpensGap ([g] ++ bs) := fun bs b hb => by
    obtain rfl : g = b := Option.some.inj hb
    exact hg
  have hascii : ∀ b ∈ [g], b < 0x80 := fun b hb => by
    obtain rfl := List.mem_singleton.mp hb
    exact (gap_ascii hg).1
  have hword :
      ∀ bs, toLower lower (w ++ [g] ++ bs) = toLower lower (w ++ [g]) ++ toLower lower bs := by
    intro bs
    have hself : OpensASCII [g] := (hgap []).opensASCII
    rw [List.append_assoc, ByteString.toLower_append (hgap bs).opensASCII,
      ByteString.toLower_append hself, toLower_ascii_append hlower hascii,
      toLower_ascii hlower hascii, List.append_assoc]
  refine ⟨h.length, fun bs => ?_, fun bs => ?_, fun bs => ?_⟩
  · rw [List.append_assoc]
    exact h.joins _
  · rw [List.append_assoc, h.lowers, h.lowers, hword, List.append_assoc]
  · rw [List.append_assoc, h.passes, List.append_assoc,
      unmarked_append (endsBefore_gap hlower hmarker (hgap bs)), if_pos hw, List.singleton_append,
      unmarked_gap hlower hmarker hg]
    simp

/-- What is masked, and the white space behind it. -/
theorem scan_masked {done : List UInt8} {g : UInt8}
    (hlength : (toLower lower done).length = done.length)
    (hg : isGap g = true) : Scan lower marker done [g] := by
  have hword : Scan lower marker [] ([] ++ ([] ++ [g])) := scan_start.pass hlower hmarker rfl hg
  refine ⟨hlength, fun bs => ByteString.toLower_append (fun b hb => ?_) lower done, hword.lowers,
    hword.passes⟩
  obtain rfl : g = b := Option.some.inj hb
  exact (gap_ascii hg).1

/-- A search finds the first marker of the word, moved by what lower case has added in front of
it. -/
theorem Scan.index {done skip : List UInt8} (h : Scan lower marker done skip) (bs : List UInt8) :
    index (toLower lower marker) ((toLower lower (done ++ (skip ++ bs))).drop done.length) =
      if unmarked lower marker bs = bs then none
      else some (toLower lower (skip ++ unmarked lower marker bs)).length := by
  rw [h.joins, ← h.length, List.drop_left, index_toLower hlower hmarker, h.passes]
  simp only [List.append_cancel_left_eq]

omit hmarker in
theorem growth_gap {front : List UInt8} {g : UInt8} (hg : isGap g = true) :
    growth lower (front ++ [g]) = growth lower front := by
  have hascii : ∀ b ∈ [g], b < 0x80 := fun b hb => by
    obtain rfl := List.mem_singleton.mp hb
    exact (gap_ascii hg).1
  rw [growth_append (ByteString.toLower_append (fun b hb =>
    hascii b (List.mem_of_mem_head? hb)) ..),
    growth_ascii hlower hascii, Int.add_zero]

omit hmarker in
theorem growth_masked (front : List UInt8) {marker : List UInt8} (hmarker : IsMarker marker) :
    growth lower (front ++ (marker ++ mask)) = growth lower front := by
  have hascii : ∀ b ∈ marker ++ mask, b < 0x80 := fun b hb =>
    (List.mem_append.mp hb).elim (fun hb => (hmarker.plain b hb).1) fun hb => (mask_plain b hb).1
  rw [growth_append (ByteString.toLower_append (fun b hb =>
    hascii b (List.mem_of_mem_head? hb)) ..),
    growth_ascii hlower hascii, Int.add_zero]

end words

section loop
variable {lower : Char → Char} (hlower : LowersASCII lower) {marker : SecretMarker}
  (hmarker : IsMarker marker.text)
include hlower hmarker

/-- The last turn of the loop. -/
theorem redactMarker_last {done skip bs : List UInt8} (h : Scan lower marker.text done skip)
    (hbs : unmarked lower marker.text bs = bs) :
    redactMarker lower marker (done ++ (skip ++ bs)) done.length = some (done ++ (skip ++ bs)) := by
  have hshort : ¬ (toLower lower (done ++ (skip ++ bs))).length < done.length := by
    rw [h.joins, List.length_append, h.length]
    omega
  rw [redactMarker, if_neg hshort, h.index hlower hmarker, if_pos hbs]

/-- One turn of the loop, where the marker is found at its place. -/
theorem redactMarker_cut {done skip front found tail : List UInt8}
    (h : Scan lower marker.text done skip)
    (hfront : unmarked lower marker.text (front ++ found) = front)
    (hopens : Opens lower marker.text found) (hfound : Gapless found) (htail : OpensGap tail)
    (hplace : growth lower (skip ++ front) = 0) :
    redactMarker lower marker (done ++ (skip ++ (front ++ found ++ tail))) done.length =
      redactMarker lower marker (done ++ (skip ++ (front ++ (marker.text ++ mask))) ++ tail)
        (done ++ (skip ++ (front ++ (marker.text ++ mask)))).length := by
  have hlong : marker.text.length ≤ found.length := (hopens.front hlower hmarker).2
  have hpos := List.length_pos_of_ne_nil marker.text_ne
  have hne : ∀ bs, front ≠ front ++ (found ++ bs) := by
    intro bs heq
    have hlength := congrArg List.length (List.append_right_eq_self.mp heq.symm)
    simp only [List.length_append, List.length_nil] at hlength
    omega
  have hmarked : unmarked lower marker.text (front ++ found ++ tail) = front := by
    have hfound := hne []
    rw [List.append_nil] at hfound
    rw [unmarked_append (endsBefore_gap hlower hmarker htail), hfront, if_neg hfound]
  have hsearch := h.index hlower hmarker (front ++ found ++ tail)
  have hlength : (toLower lower (skip ++ front)).length = (skip ++ front).length := by
    rw [growth] at hplace
    omega
  rw [hmarked, if_neg (List.append_assoc .. ▸ hne tail), hlength] at hsearch
  have hshort :
      ¬ (toLower lower (done ++ (skip ++ (front ++ found ++ tail)))).length < done.length := by
    rw [h.joins, List.length_append, h.length]
    omega
  have htext :
      done ++ (skip ++ (front ++ found ++ tail)) = done ++ (skip ++ front) ++ (found ++ tail) := by
    simp only [List.append_assoc]
  have hend : tokenEnd (done ++ (skip ++ (front ++ found ++ tail)))
      (done.length + (skip ++ front).length + marker.text.length) =
        (done ++ (skip ++ front)).length + found.length := by
    rw [htext, ← List.length_append, tokenEnd_append hlong hfound htail]
  rw [redactMarker, if_neg hshort, hsearch]
  dsimp only
  rw [hend, dif_neg (by simp only [List.length_append]; omega)]
  congr 1
  · rw [htext, ← List.length_append, List.take_left, List.drop_length_add_append, List.drop_left]
    simp only [List.append_assoc]
    rfl
  · simp only [List.length_append]
    rw [show (bytes "[redacted]").length = mask.length from rfl]
    omega

/-- One turn of the loop masks the word that has the first marker, if the marker is in place. -/
theorem redactMarker_masks {done skip w : List UInt8} (tail : List UInt8)
    (h : Scan lower marker.text done skip) (hw : Gapless w) (htail : OpensGap tail) (hmarked : unmarked lower marker.text w ≠ w)
    (hplace : growth lower skip + growth lower (unmarked lower marker.text w) = 0) :
    redactMarker lower marker (done ++ (skip ++ (w ++ tail))) done.length =
        redactMarker lower marker (done ++ (skip ++ maskWord lower marker.text w) ++ tail)
          (done ++ (skip ++ maskWord lower marker.text w)).length ∧
      (toLower lower (done ++ (skip ++ maskWord lower marker.text w))).length =
        (done ++ (skip ++ maskWord lower marker.text w)).length := by
  rw [maskWord, if_neg hmarked]
  constructor
  · obtain ⟨found, hsplit, hfound, -⟩ := exists_toLower_unmarked_append hlower hmarker w
    rw [← growth_append (h.lowers _)] at hplace
    generalize hfront : unmarked lower marker.text w = front at *
    have hopens : Opens lower marker.text found := by
      refine hfound.resolve_left fun hnil => hmarked ?_
      rw [hsplit, hnil, List.append_nil]
    rw [hsplit] at hfront hw ⊢
    exact redactMarker_cut hlower hmarker h hfront hopens (fun b hb =>
      hw b (List.mem_append_right _ hb))
      htail hplace
  · have hmasked := growth_masked hlower (unmarked lower marker.text w) hmarker
    have hsum := growth_append (h.lowers (unmarked lower marker.text w ++ (marker.text ++ mask)))
    rw [h.joins, List.length_append, List.length_append, h.length]
    rw [hmasked, hplace, growth] at hsum
    omega

/-- The loop behind a mask at the end. -/
theorem redactMarker_end {done : List UInt8} (h : (toLower lower done).length = done.length) :
    redactMarker lower marker done done.length = some done := by
  obtain ⟨p, hp⟩ := exists_toLower_marker hlower hmarker
  have hnone :
      index (toLower lower marker.text) ((toLower lower done).drop done.length) = none := by
    rw [← h, List.drop_length, hp]
    rfl
  rw [redactMarker, if_neg (Nat.not_lt_of_le h.ge), hnone]

/-- The loop for a marker that is in place masks it in all words. -/
theorem redactMarker_words (ws : List (UInt8 × List UInt8)) {done skip w : List UInt8}
    (h : Scan lower marker.text done skip) (hw : Gapless w)
    (hws : ∀ p ∈ ws, isGap p.1 = true ∧ Gapless p.2)
    (hplace : inPlace lower marker.text (growth lower skip) (w :: ws.map (·.2)) = true) :
    redactMarker lower marker (done ++ (skip ++ assemble w ws)) done.length =
      some (done ++ (skip ++ assemble (maskWord lower marker.text w)
        (ws.map fun p => (p.1, maskWord lower marker.text p.2)))) := by
  induction ws generalizing done skip w with
  | nil =>
    rw [inPlace, Bool.and_eq_true, Bool.or_eq_true, decide_eq_true_eq, decide_eq_true_eq] at hplace
    rw [assemble, assemble, List.map_nil, List.flatMap_nil, List.append_nil, List.append_nil]
    by_cases hmarked : unmarked lower marker.text w = w
    · rw [maskWord, if_pos hmarked]
      exact redactMarker_last hlower hmarker h hmarked
    · obtain ⟨hstep, hlength⟩ := redactMarker_masks hlower hmarker [] h hw nofun hmarked
        (hplace.1.resolve_left hmarked)
      rw [List.append_nil, List.append_nil] at hstep
      exact hstep.trans (redactMarker_end hlower hmarker hlength)
  | cons p ws ih =>
    rw [List.map_cons, inPlace, Bool.and_eq_true, Bool.or_eq_true, decide_eq_true_eq,
      decide_eq_true_eq] at hplace
    obtain ⟨hfront, hrest⟩ := hplace
    obtain ⟨hp, hp'⟩ := hws p List.mem_cons_self
    have hws' : ∀ p ∈ ws, isGap p.1 = true ∧ Gapless p.2 :=
      fun p hp => hws p (List.mem_cons_of_mem _ hp)
    by_cases hmarked : unmarked lower marker.text w = w
    · rw [hmarked] at hrest
      have hstep := ih (h.pass hlower hmarker hmarked hp) hp' hws' (by
        rwa [growth_append (h.lowers _), growth_gap hlower hp])
      rw [maskWord, if_pos hmarked]
      simp only [assemble, List.flatMap_cons, List.map_cons, List.append_assoc, List.cons_append,
        List.nil_append] at hstep ⊢
      exact hstep
    · have hzero := hfront.resolve_left hmarked
      rw [hzero] at hrest
      have htail : OpensGap ((p :: ws).flatMap fun p => p.1 :: p.2) :=
        opensGap_flatMap fun p hp => (hws p hp).1
      obtain ⟨hstep, hlength⟩ := redactMarker_masks hlower hmarker _ h hw htail hmarked hzero
      have hnext := ih (scan_masked hlower hmarker hlength hp) hp' hws' (by
        rwa [← List.nil_append [p.1], growth_gap hlower hp])
      rw [assemble, hstep]
      simp only [assemble, List.flatMap_cons, List.map_cons, List.append_assoc, List.cons_append,
        List.nil_append] at hnext ⊢
      exact hnext

end loop

/-! ## Masks in words -/

section masks
variable {lower : Char → Char} (hlower : LowersASCII lower)

/-- A text is unmarked if the marker stands nowhere in it. -/
theorem unmarked_eq_self_iff {marker bs : List UInt8} : unmarked lower marker bs = bs ↔
    ∀ front back, bs = front ++ back → back ≠ [] → ¬ Opens lower marker back := by
  obtain ⟨found, hsplit, hfound, hnone⟩ := exists_unmarked_append lower marker bs
  constructor
  · intro h front back hbs hne
    rw [h] at hsplit hnone
    have hback := hnone front back hbs hne
    rwa [List.append_right_eq_self.mp hsplit.symm, List.append_nil] at hback
  · intro h
    rcases hfound with rfl | hfound
    · rw [List.append_nil] at hsplit
      exact hsplit.symm
    · by_cases hnil : found = []
      · rw [hnil, List.append_nil] at hsplit
        exact hsplit.symm
      · exact absurd hfound (h _ _ hsplit hnil)

theorem plain_masked {marker : List UInt8} (hmarker : IsMarker marker) : Plain (marker ++ mask) :=
  fun b hb => (List.mem_append.mp hb).elim (hmarker.plain b) (mask_plain b)

/-- No part of a marker stands at the front of a masked one, and a masked one has no other
marker. -/
theorem not_prefix_masked : ∀ marker ∈ secretMarkers, ∀ other ∈ secretMarkers,
    (∀ q ∈ (marker.text.map lowerByte).tail.tails, q ≠ [] →
      ¬ q <+: (other.text ++ mask).map lowerByte) ∧
    ∀ t ∈ (other.text ++ mask).tails, marker.text.map lowerByte <+: t.map lowerByte →
      marker.text = other.text ∧ t = other.text ++ mask := by
  decide

variable (lower) in
theorem toLower_ne_nil {bs : List UInt8} (h : bs ≠ []) : toLower lower bs ≠ [] := by
  obtain ⟨b, bs, rfl⟩ := List.exists_cons_of_ne_nil h
  rw [toLower_eq, runes_cons, List.flatMap_cons]
  refine List.append_ne_nil_of_left_ne_nil (List.ne_nil_of_length_pos ?_) _
  exact String.length_utf8EncodeChar _ ▸ Char.utf8Size_pos _

include hlower

variable {marker other : SecretMarker} (hmarker : marker ∈ secretMarkers)
  (hother : other ∈ secretMarkers)
include hmarker hother

theorem endsBefore_masked : EndsBefore lower marker.text (other.text ++ mask) := by
  intro front hne
  have hplain := plain_masked (isMarker_secretMarkers other hother)
  rw [Opens, Opens, ByteString.toLower_append (fun b hb => (hplain b (List.mem_of_mem_head? hb)).1)]
  refine ⟨fun hopens => ?_, fun hopens => hopens.trans (List.prefix_append ..)⟩
  rcases prefix_append_cases hopens with hopens | ⟨q, hq, hp, hbehind⟩
  · exact hopens
  · obtain ⟨b, bs, hfront⟩ := List.exists_cons_of_ne_nil (toLower_ne_nil lower hne)
    rw [toLower_plain hlower (isMarker_secretMarkers marker hmarker).plain, hfront] at hp
    rw [toLower_plain hlower hplain] at hbehind
    refine absurd hbehind ((not_prefix_masked marker hmarker other hother).1 q ?_ hq)
    rw [hp, List.cons_append, List.tail_cons]
    exact (List.mem_tails ..).mpr (List.suffix_append ..)

theorem unmarked_masked (hne : marker.text ≠ other.text) :
    unmarked lower marker.text (other.text ++ mask) = other.text ++ mask := by
  have hplain := plain_masked (isMarker_secretMarkers other hother)
  refine unmarked_eq_self_iff.mpr fun front back hsplit _ hopens => hne ?_
  have hback : Plain back := fun b hb => hplain b (hsplit ▸ List.mem_append_right _ hb)
  rw [Opens, toLower_plain hlower (isMarker_secretMarkers marker hmarker).plain,
    toLower_plain hlower hback] at hopens
  exact ((not_prefix_masked marker hmarker other hother).2 back
    ((List.mem_tails ..).mpr ⟨front, hsplit.symm⟩) hopens).1

end masks

/-- A word that the passes of some markers have left: none of them stands in its front, and one of
them may stand behind it, with its mask. -/
structure MaskedBy (lower : Char → Char) (markers : List SecretMarker)
    (front w : List UInt8) : Prop where
  clear : ∀ marker ∈ markers, unmarked lower marker.text front = front
  behind : w = front ∨ ∃ marker ∈ markers, w = front ++ (marker.text ++ mask)

section passes
variable {lower : Char → Char} (hlower : LowersASCII lower)
include hlower

/-- What stands in front of a marker has none of those that the text has not. -/
theorem unmarked_unmarked {marker other bs : List UInt8} (hmarker : IsMarker marker)
    (h : other = marker ∨ unmarked lower other bs = bs) :
    unmarked lower other (unmarked lower marker bs) = unmarked lower marker bs := by
  obtain ⟨found, hsplit, hfound, hnone⟩ := exists_unmarked_append lower marker bs
  have hascii : OpensASCII found := by
    rcases hfound with rfl | hfound
    · exact nofun
    · exact (hfound.front hlower hmarker).1
  refine unmarked_eq_self_iff.mpr fun front back hback hne hopens => ?_
  have hlong : Opens lower other (back ++ found) := by
    rw [Opens, ByteString.toLower_append hascii]
    exact List.IsPrefix.trans hopens (List.prefix_append ..)
  rcases h with rfl | h
  · exact hnone front back hback hne hlong
  · rw [hback, List.append_assoc] at hsplit
    exact unmarked_eq_self_iff.mp h _ _ hsplit (List.append_ne_nil_of_left_ne_nil hne _) hlong

variable {marker : SecretMarker} (hmarker : marker ∈ secretMarkers) {past : List SecretMarker}
  (hpast : ∀ other ∈ past, other ∈ secretMarkers ∧ marker.text ≠ other.text) {front w : List UInt8}
include hmarker hpast

theorem MaskedBy.unmarked_eq (h : MaskedBy lower past front w) : unmarked lower marker.text w =
    if unmarked lower marker.text front = front then w else unmarked lower marker.text front := by
  rcases h.behind with rfl | ⟨other, hother, rfl⟩
  · split
    · assumption
    · rfl
  · obtain ⟨hsecret, hne⟩ := hpast other hother
    rw [unmarked_append (endsBefore_masked hlower hmarker hsecret),
      unmarked_masked hlower hmarker hsecret hne]

theorem MaskedBy.clear_iff (h : MaskedBy lower past front w) :
    unmarked lower marker.text w = w ↔ unmarked lower marker.text front = front := by
  rw [h.unmarked_eq hlower hmarker hpast]
  split
  · rename_i hclear
    exact iff_of_true rfl hclear
  · rename_i hmarked
    refine iff_of_false (fun heq => hmarked ?_) hmarked
    obtain ⟨found, hsplit, -⟩ := exists_unmarked_append lower marker.text front
    rcases h.behind with rfl | ⟨other, -, rfl⟩
    · exact heq
    · have hlength := congrArg List.length heq
      have hlength' := congrArg List.length hsplit
      simp only [List.length_append] at hlength hlength'
      have hnil : found = [] := List.length_eq_zero_iff.mp (by omega)
      rw [hnil, List.append_nil] at hsplit
      exact hsplit.symm

theorem MaskedBy.growth_eq (h : MaskedBy lower past front w) :
    growth lower (unmarked lower marker.text w) =
      growth lower (unmarked lower marker.text front) := by
  rw [h.unmarked_eq hlower hmarker hpast]
  split
  · rename_i hclear
    rw [hclear]
    rcases h.behind with rfl | ⟨other, hother, rfl⟩
    · rfl
    · exact growth_masked hlower _ (isMarker_secretMarkers other (hpast other hother).1)
  · rfl

/-- The pass of a marker leaves a word as it should. -/
theorem MaskedBy.maskWord (h : MaskedBy lower past front w) :
    MaskedBy lower (past ++ [marker]) (unmarked lower marker.text front)
      (maskWord lower marker.text w) where
  clear other hother := by
    refine unmarked_unmarked hlower (isMarker_secretMarkers marker hmarker) ?_
    rcases List.mem_append.mp hother with hother | hother
    · exact .inr (h.clear other hother)
    · exact .inl (congrArg SecretMarker.text (List.mem_singleton.mp hother))
  behind := by
    rw [CheckerRunner.maskWord]
    split
    · rename_i hclear
      rw [(h.clear_iff hlower hmarker hpast).mp hclear]
      exact h.behind.imp_right fun ⟨other, hother, hw⟩ => ⟨other, List.mem_append_left _ hother, hw⟩
    · rename_i hmarked
      rw [h.unmarked_eq hlower hmarker hpast,
        if_neg fun hclear => hmarked ((h.clear_iff hlower hmarker hpast).mpr hclear)]
      exact .inr ⟨marker, List.mem_append_right _ List.mem_cons_self, rfl⟩

theorem inPlace_eq {fronts words : List (List UInt8)} {gained : Int}
    (h : List.Forall₂ (MaskedBy lower past) fronts words) :
    inPlace lower marker.text gained words = inPlace lower marker.text gained fronts := by
  induction h generalizing gained with
  | nil => rfl
  | cons hword _ ih =>
    rw [inPlace, inPlace, hword.growth_eq hlower hmarker hpast, ih,
      decide_eq_decide.mpr (hword.clear_iff hlower hmarker hpast)]

end passes

theorem Plain.of_map_eq {marker found : List UInt8} (hmarker : Plain marker)
    (h : found.map lowerByte = marker.map lowerByte) : Plain found := by
  intro b hb
  have hlow : lowerByte b ∈ marker.map lowerByte := h ▸ List.mem_map_of_mem hb
  obtain ⟨hascii, hgap⟩ := hmarker.map_lowerByte _ hlow
  exact ⟨(lowerByte_plain b).2.mp hascii, (lowerByte_plain b).1 ▸ hgap⟩

/-- A text without white space stands in the first word, or behind it. -/
theorem exists_of_word_append {w tail before found behind : List UInt8} (hfound : Plain found)
    (hne : found ≠ []) (htail : OpensGap tail) (h : w ++ tail = before ++ (found ++ behind)) :
    (∃ back, w = before ++ (found ++ back) ∧ behind = back ++ tail) ∨
      ∃ front, front ≠ [] ∧ before = w ++ front ∧ tail = front ++ (found ++ behind) := by
  have hinside : ∀ {part}, part ≠ [] → part <+: tail → part ⊆ found → False := by
    rintro part hpart ⟨rest, rfl⟩ hfound'
    obtain ⟨b, part, rfl⟩ := List.exists_cons_of_ne_nil hpart
    have hgap := (hfound b (hfound' List.mem_cons_self)).2
    rw [htail b rfl] at hgap
    cases hgap
  rcases List.append_eq_append_iff.mp h with ⟨front, hbefore, hrest⟩ | ⟨back, hw, hrest⟩
  · refine .inr ⟨front, ?_, hbefore, hrest⟩
    rintro rfl
    exact hinside hne ⟨behind, hrest.symm⟩ (List.Subset.refl _)
  · rcases List.append_eq_append_iff.mp hrest with ⟨part, rfl, hbehind⟩ | ⟨part, rfl, htail'⟩
    · exact .inl ⟨part, hw, hbehind⟩
    · by_cases hnil : part = []
      · subst hnil
        exact .inl ⟨[], by rw [hw, List.append_nil, List.append_nil], htail'.symm⟩
      · exact (hinside hnil ⟨behind, htail'.symm⟩ (List.subset_append_right ..)).elim

section messages
variable {lower : Char → Char} (hlower : LowersASCII lower)

theorem gapless_maskWord {marker w : List UInt8} (hmarker : IsMarker marker) (hw : Gapless w) :
    Gapless (maskWord lower marker w) := by
  rw [maskWord]
  split
  · exact hw
  · obtain ⟨found, hsplit, -⟩ := exists_unmarked_append lower marker w
    intro b hb
    rcases List.mem_append.mp hb with hb | hb
    · exact hw b (hsplit ▸ List.mem_append_left _ hb)
    · exact (plain_masked hmarker b hb).2

include hlower

/-- The passes one after the other. -/
theorem redact_passes (markers past : List SecretMarker)
    (hmarkers : ∀ marker ∈ past ++ markers, marker ∈ secretMarkers)
    (hapart : (past ++ markers).Pairwise fun a b => b.text ≠ a.text)
    {fronts : List (List UInt8)} {w : List UInt8} {ws : List (UInt8 × List UInt8)}
    (h : List.Forall₂ (MaskedBy lower past) fronts (w :: ws.map (·.2)))
    (hw : Gapless w) (hws : ∀ p ∈ ws, isGap p.1 = true ∧ Gapless p.2)
    (hplace : markersInPlace lower markers fronts = true) :
    ∃ fronts' w' ws', markers.foldlM (fun redacted marker => redactMarker lower marker redacted 0)
        (assemble w ws) = some (assemble w' ws') ∧ (∀ p ∈ ws', isGap p.1 = true) ∧
      List.Forall₂ (MaskedBy lower (past ++ markers)) fronts' (w' :: ws'.map (·.2)) := by
  induction markers generalizing past fronts w ws with
  | nil => 
    rw [List.append_nil]
    exact ⟨fronts, w, ws, rfl, fun p hp => (hws p hp).1, h⟩
  | cons marker markers ih =>
    rw [markersInPlace, Bool.and_eq_true] at hplace
    have hmem : marker ∈ past ++ marker :: markers := List.mem_append_right _ List.mem_cons_self
    have hmarker := hmarkers marker hmem
    have hpast : ∀ other ∈ past, other ∈ secretMarkers ∧ marker.text ≠ other.text :=
      fun other hother =>
      ⟨hmarkers other (List.mem_append_left _ hother),
        (List.pairwise_append.mp hapart).2.2 other hother marker List.mem_cons_self⟩
    have hplace' := hplace.1
    rw [← inPlace_eq hlower hmarker hpast h] at hplace'
    have hpass : redactMarker lower marker (assemble w ws) 0 =
        some (assemble (maskWord lower marker.text w)
          (ws.map fun p => (p.1, maskWord lower marker.text p.2))) :=
      redactMarker_words hlower (isMarker_secretMarkers marker hmarker) ws scan_start hw hws hplace'
    have hnext : List.Forall₂ (MaskedBy lower (past ++ [marker]))
        (fronts.map (unmarked lower marker.text)) (maskWord lower marker.text w ::
          (ws.map fun p => (p.1, maskWord lower marker.text p.2)).map (·.2)) := by
      have hwords : maskWord lower marker.text w ::
          (ws.map fun p => (p.1, maskWord lower marker.text p.2)).map (·.2) =
            (w :: ws.map (·.2)).map (maskWord lower marker.text) := by
        simp [Function.comp_def]
      rw [hwords, List.forall₂_map_left_iff, List.forall₂_map_right_iff]
      exact h.imp fun _ _ hword => hword.maskWord hlower hmarker hpast
    have hgapless : ∀ p ∈ ws.map fun p => (p.1, maskWord lower marker.text p.2),
        isGap p.1 = true ∧ Gapless p.2 := by
      intro p hp
      obtain ⟨q, hq, rfl⟩ := List.mem_map.mp hp
      exact ⟨(hws q hq).1, gapless_maskWord (isMarker_secretMarkers marker hmarker) (hws q hq).2⟩
    rw [List.append_cons] at hmarkers hapart ⊢
    rw [List.foldlM_cons, hpass]
    exact ih (past ++ [marker]) hmarkers hapart hnext
      (gapless_maskWord (isMarker_secretMarkers marker hmarker) hw) hgapless hplace.2

variable {marker : SecretMarker} (hmarker : marker ∈ secretMarkers) {found : List UInt8}
  (hfound : found.map lowerByte = marker.text.map lowerByte)
include hmarker hfound

theorem opens_found (behind : List UInt8) : Opens lower marker.text (found ++ behind) := by
  have hplain := (isMarker_secretMarkers marker hmarker).plain
  rw [Opens, toLower_ascii_append hlower (fun b hb => (hplain.of_map_eq hfound b hb).1), hfound,
    toLower_plain hlower hplain]
  exact List.prefix_append ..

/-- In a word that all passes have left, a marker is followed by the mask, and that is all. -/
theorem MaskedBy.behind_found {front w before behind : List UInt8}
    (h : MaskedBy lower secretMarkers front w) (hw : w = before ++ (found ++ behind)) :
    behind = mask := by
  have hplain := (isMarker_secretMarkers marker hmarker).plain.of_map_eq hfound
  have hopens := opens_found hlower hmarker hfound behind
  have hne : found ≠ [] := by
    rintro rfl
    exact marker.text_ne (List.map_eq_nil_iff.mp hfound.symm)
  have hclear := unmarked_eq_self_iff.mp (h.clear marker hmarker)
  rcases h.behind with rfl | ⟨other, hother, rfl⟩
  · exact absurd hopens (hclear before _ hw (List.append_ne_nil_of_left_ne_nil hne _))
  have hmasked : ∀ skip, other.text ++ mask = skip ++ (found ++ behind) → behind = mask := by
    intro skip hskip
    have hfront : marker.text.map lowerByte <+: (found ++ behind).map lowerByte := by
      rw [List.map_append, hfound]
      exact List.prefix_append ..
    obtain ⟨hsame, htext⟩ := (not_prefix_masked marker hmarker other hother).2 _
      ((List.mem_tails ..).mpr ⟨skip, hskip.symm⟩) hfront
    have hlength := congrArg List.length hfound
    rw [List.length_map, List.length_map, hsame] at hlength
    exact (List.append_inj htext hlength).2
  rcases List.append_eq_append_iff.mp hw with ⟨skip, -, hskip⟩ | ⟨back, hfront, hback⟩
  · exact hmasked skip hskip
  · by_cases hnil : back = []
    · rw [hnil, List.nil_append] at hback
      exact hmasked [] hback.symm
    · rw [hback, endsBefore_masked hlower hmarker hother back hnil] at hopens
      exact absurd hopens (hclear before back hfront hnil)

/-- In the words that all passes have left, every marker is followed by the mask. -/
theorem masked_assemble (ws : List (UInt8 × List UInt8)) (hws : ∀ p ∈ ws, isGap p.1 = true)
    {w before behind : List UInt8} {fronts : List (List UInt8)}
    (h : List.Forall₂ (MaskedBy lower secretMarkers) fronts (w :: ws.map (·.2)))
    (htext : assemble w ws = before ++ (found ++ behind)) : Masked behind := by
  have hplain := (isMarker_secretMarkers marker hmarker).plain.of_map_eq hfound
  have hne : found ≠ [] := by
    rintro rfl
    exact marker.text_ne (List.map_eq_nil_iff.mp hfound.symm)
  induction ws generalizing w before fronts with
  | nil =>
    obtain ⟨front, _, hword, -, rfl⟩ := List.forall₂_cons_right_iff.mp h
    have hempty : OpensGap (List.flatMap (fun p : UInt8 × List UInt8 => p.1 :: p.2) []) := nofun
    rcases exists_of_word_append hplain hne hempty htext with
      ⟨back, hw, rfl⟩ | ⟨front, hfront, -, htail⟩
    · exact ⟨[], by rw [hword.behind_found hlower hmarker hfound hw]; rfl, nofun⟩
    · exact absurd (List.append_eq_nil_iff.mp htail.symm).1 hfront
  | cons p ws ih =>
    obtain ⟨front, fronts, hword, hrest, rfl⟩ := List.forall₂_cons_right_iff.mp h
    have htail : OpensGap ((p :: ws).flatMap fun p => p.1 :: p.2) := opensGap_flatMap hws
    rcases exists_of_word_append hplain hne htail htext with
      ⟨back, hw, rfl⟩ | ⟨front, hfront, -, hnext⟩
    · exact ⟨_, by rw [hword.behind_found hlower hmarker hfound hw], htail⟩
    · obtain ⟨b, front, rfl⟩ := List.exists_cons_of_ne_nil hfront
      rw [List.flatMap_cons, List.cons_append, List.cons_append] at hnext
      exact ih (fun q hq => hws q (List.mem_cons_of_mem _ hq)) hrest (List.cons.inj hnext).2

end messages

/-! ## Messages -/

theorem exists_assemble (bs : List UInt8) : ∃ w ws, bs = assemble w ws ∧ Gapless w ∧
    (∀ p ∈ ws, isGap p.1 = true ∧ Gapless p.2) ∧ bs.splitOnP isGap = w :: ws.map (·.2) := by
  induction bs with
  | nil => exact ⟨[], [], rfl, nofun, nofun, rfl⟩
  | cons b bs ih =>
    obtain ⟨w, ws, rfl, hw, hws, hsplit⟩ := ih
    cases hb : isGap b with
    | true =>
      refine ⟨[], (b, w) :: ws, rfl, nofun, List.forall_mem_cons.mpr ⟨⟨hb, hw⟩, hws⟩, ?_⟩
      rw [List.splitOnP_cons_eq_if_modifyHead, if_pos hb, hsplit]
      rfl
    | false =>
      refine ⟨b :: w, ws, rfl, List.forall_mem_cons.mpr ⟨hb, hw⟩, hws, ?_⟩
      rw [List.splitOnP_cons_eq_if_modifyHead,
        if_neg (by rw [hb]; exact Bool.false_ne_true), hsplit]
      rfl

/-- Where the markers are in place, the redaction cuts inside of the text, and every marker in its
result is followed by the mask. -/
theorem redacts_of_inPlace {lower : Char → Char} (hlower : LowersASCII lower) (message : List UInt8)
    (hplace : markersInPlace lower secretMarkers (message.splitOnP isGap) = true) :
    ∃ result, redactCheckerSecretMaterial lower message = some result ∧
      ∀ marker ∈ secretMarkers, Redacted marker.text result := by
  rw [redactCheckerSecretMaterial]
  split
  · rename_i hempty
    refine ⟨message, rfl, fun marker _ before found behind htext hfound => ?_⟩
    rw [hempty] at htext
    obtain rfl := (List.append_eq_nil_iff.mp (List.append_eq_nil_iff.mp htext.symm).1).2
    exact absurd (List.map_eq_nil_iff.mp hfound.symm) marker.text_ne
  · obtain ⟨w, ws, rfl, hw, hws, hsplit⟩ := exists_assemble message
    rw [hsplit] at hplace
    have hstart : List.Forall₂ (MaskedBy lower []) (w :: ws.map (·.2)) (w :: ws.map (·.2)) :=
      List.forall₂_same.mpr fun _ _ => ⟨nofun, .inl rfl⟩
    obtain ⟨fronts, w', ws', hresult, hgaps, hdone⟩ := redact_passes hlower secretMarkers []
      (fun _ hmem => hmem) (by decide) hstart hw hws hplace
    refine ⟨assemble w' ws', hresult, fun marker hmarker before found behind htext hfound => ?_⟩
    rw [List.append_assoc] at htext
    exact masked_assemble hlower hmarker hfound ws' hgaps hdone htext

/-- The first secret has a byte of no character, the second one is found nevertheless. -/
theorem redacts_of_inPlace_secrets :
    ∃ result, redactCheckerSecretMaterial Text.lowerChar
        (bytes "put failed: ad_flag=" ++ 255 :: bytes "x\nAD_METADATA=7:3") = some result ∧
      ∀ marker ∈ secretMarkers, Redacted marker.text result :=
  redacts_of_inPlace lowersASCII_lowerChar _ (by decide)

/-- A byte that belongs to no character takes three bytes in lower case. -/
theorem not_redacts : ¬ ∃ result, redactCheckerSecretMaterial Text.lowerChar
      (255 :: bytes "AD_FLAG=x") = some result ∧
    ∀ marker ∈ secretMarkers, Redacted marker.text result := by
  rintro ⟨result, hresult, -⟩
  have hpanic :
      redactMarker Text.lowerChar ⟨bytes "AD_FLAG=", by decide⟩ (255 :: bytes "AD_FLAG=x") 0 =
      none := by
    have hindex : index (toLower Text.lowerChar (bytes "AD_FLAG="))
        ((toLower Text.lowerChar (255 :: bytes "AD_FLAG=x")).drop 0) = some 3 := by decide
    rw [redactMarker, if_neg (Nat.not_lt_zero _), hindex]
    exact dif_pos (by decide)
  rw [redactCheckerSecretMaterial, if_neg (List.cons_ne_nil _ _), secretMarkers, List.foldlM_cons,
    hpanic] at hresult
  cases hresult

end ADPlatform.CheckerRunner
