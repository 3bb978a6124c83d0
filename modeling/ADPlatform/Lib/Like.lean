import Mathlib

/-! # The patterns of SQL

`LIKE` reads a pattern as tokens: a percent sign stands for any text, an underscore for any
character, and a backslash takes the character behind it literally. Between two percent signs, a `g`
with none of the three in it matches the texts that contain `g` (`like_plain`), and any other `g`
matches a text that does not (`like_contains_sampled`). -/

namespace Like

/-- What a pattern is made of. -/
inductive Token where
  | any
  | one
  | char (c : Char)
  deriving DecidableEq, Repr

/-- The characters that a pattern gives a meaning. -/
def isMeta (c : Char) : Bool := c = '%' || c = '_' || c = '\\'

/-- No tokens for a backslash with nothing behind it, which the server refuses. -/
def tokens : List Char → Option (List Token)
  | [] => some []
  | ['\\'] => none
  | '\\' :: c :: cs => (tokens cs).map (.char c :: ·)
  | '%' :: cs => (tokens cs).map (.any :: ·)
  | '_' :: cs => (tokens cs).map (.one :: ·)
  | c :: cs => (tokens cs).map (.char c :: ·)

/-- The pattern fits the whole text. -/
def accepts : List Token → List Char → Bool
  | [], s => s.isEmpty
  | .any :: ts, s => s.tails.any (accepts ts)
  | .one :: _, [] => false
  | .one :: ts, _ :: s => accepts ts s
  | .char _ :: _, [] => false
  | .char c :: ts, d :: s => c = d && accepts ts s

/-- `s LIKE pattern` -/
def like (pattern s : List Char) : Bool := (tokens pattern).any (accepts · s)

/-- The pattern for the texts with `g` in them, when `g` is taken as it is. -/
def contains (g : List Char) : List Char := '%' :: (g ++ ['%'])

variable {c : Char} {g s : List Char} {ts : List Token}

theorem tokens_of_not_isMeta (hc : isMeta c = false) :
    tokens (c :: g) = (tokens g).map (.char c :: ·) := by
  simp only [isMeta, Bool.or_eq_false_iff, decide_eq_false_iff_not] at hc
  rw [tokens.eq_def]
  split <;> simp_all

theorem isMeta_eq_false_of_isAlpha (hc : c.isAlpha) : isMeta c = false := by
  rw [Bool.eq_false_iff]
  intro hmeta
  simp only [isMeta, Bool.or_eq_true, decide_eq_true_eq] at hmeta
  rcases hmeta with (rfl | rfl) | rfl <;> exact absurd hc (by decide)

theorem accepts_any : accepts (.any :: ts) s ↔ ∃ t, t <:+ s ∧ accepts ts t := by
  simp [accepts]

/-! ## A text without the three -/

theorem tokens_plain (hg : ∀ c ∈ g, isMeta c = false) :
    tokens (g ++ ['%']) = some (g.map .char ++ [.any]) := by
  induction g with
  | nil => rfl
  | cons c g ih =>
    rw [List.cons_append, tokens_of_not_isMeta (hg c List.mem_cons_self),
      ih fun d hd => hg d (List.mem_cons_of_mem _ hd)]
    rfl

theorem accepts_prefix : accepts (g.map .char ++ [.any]) s ↔ g <+: s := by
  induction g generalizing s with
  | nil => exact iff_of_true (accepts_any.mpr ⟨[], List.nil_suffix, rfl⟩) List.nil_prefix
  | cons c g ih =>
    cases s with
    | nil => simp [accepts]
    | cons d s => simp [accepts, ih, List.cons_prefix_cons]

theorem like_plain (hg : ∀ c ∈ g, isMeta c = false) : like (contains g) s ↔ g <:+: s := by
  have htokens : tokens (contains g) = some (.any :: (g.map .char ++ [.any])) := by
    simp [contains, tokens, tokens_plain hg]
  rw [like, htokens, Option.any_some, accepts_any, List.infix_iff_prefix_suffix]
  constructor
  · rintro ⟨t, hsuffix, hfront⟩
    exact ⟨t, accepts_prefix.mp hfront, hsuffix⟩
  · rintro ⟨t, hfront, hsuffix⟩
    exact ⟨t, hsuffix, accepts_prefix.mpr hfront⟩

/-! ## The shortest text -/

/-- A shortest text that the tokens accept. -/
def sample : List Token → List Char
  | [] => []
  | .any :: ts => sample ts
  | .one :: ts => '%' :: sample ts
  | .char c :: ts => c :: sample ts

theorem accepts_sample : accepts ts (sample ts) := by
  induction ts with
  | nil => rfl
  | cons t ts ih =>
    cases t with
    | any => exact accepts_any.mpr ⟨_, List.suffix_refl _, ih⟩
    | one => exact ih
    | char c => simpa [sample, accepts] using ih

/-- What the shortest text for `g` and a percent sign is like: it has no other characters than `g`
and percent signs, it is no longer than `g`, and it is `g` only when `g` is taken literally. -/
structure Sampled (g : List Char) (ts : List Token) : Prop where
  mem : ∀ c ∈ sample ts, c ∈ g ∨ c = '%'
  length_le : (sample ts).length ≤ g.length
  plain : sample ts = g → ∀ c ∈ g, isMeta c = false

/-- A text shorter than `g` is not `g`. -/
theorem Sampled.of_lt (hmem : ∀ c ∈ sample ts, c ∈ g ∨ c = '%')
    (hlt : (sample ts).length < g.length) : Sampled g ts where
  mem := hmem
  length_le := hlt.le
  plain heq := absurd (congrArg List.length heq) hlt.ne

theorem Sampled.char (h : Sampled g ts) (hc : isMeta c = false) :
    Sampled (c :: g) (.char c :: ts) where
  mem d hd := by
    rcases List.mem_cons.mp hd with rfl | hd
    · exact .inl List.mem_cons_self
    · exact (h.mem d hd).imp_left (List.mem_cons_of_mem _)
  length_le := Nat.succ_le_succ h.length_le
  plain heq d hd := by
    rcases List.mem_cons.mp hd with rfl | hd
    · exact hc
    · exact h.plain (List.cons.inj heq).2 d hd

theorem tokens_sampled (g : List Char) : ∃ ts, tokens (g ++ ['%']) = some ts ∧ Sampled g ts := by
  induction g using tokens.induct with
  | case1 => exact ⟨[.any], rfl, by simp [sample], by simp [sample], by simp⟩
  | case2 =>
    -- the backslash takes the percent sign that was to close the pattern
    exact ⟨[.char '%'], rfl, by simp [sample], by simp [sample], by simp [sample]⟩
  | case3 c g ih =>
    obtain ⟨ts, hts, h⟩ := ih
    refine ⟨.char c :: ts, by simp [tokens, hts], .of_lt ?_ ?_⟩
    · intro d hd
      rcases List.mem_cons.mp hd with rfl | hd
      · simp
      · exact (h.mem d hd).imp_left fun hd => List.mem_cons_of_mem _ (List.mem_cons_of_mem _ hd)
    · exact Nat.succ_lt_succ (Nat.lt_succ_of_le h.length_le)
  | case4 g ih =>
    obtain ⟨ts, hts, h⟩ := ih
    refine ⟨.any :: ts, by simp [tokens, hts], .of_lt ?_ (Nat.lt_succ_of_le h.length_le)⟩
    exact fun d hd => (h.mem d hd).imp_left (List.mem_cons_of_mem _)
  | case5 g ih =>
    obtain ⟨ts, hts, h⟩ := ih
    refine ⟨.one :: ts, by simp [tokens, hts], ?_, Nat.succ_le_succ h.length_le, ?_⟩
    · intro d hd
      rcases List.mem_cons.mp hd with rfl | hd
      · exact .inr rfl
      · exact (h.mem d hd).imp_left (List.mem_cons_of_mem _)
    · intro heq
      have hhead := (List.cons.inj heq).1
      exact absurd hhead (by decide)
  | case6 c g hlone hescape hany hone ih =>
    obtain ⟨ts, hts, h⟩ := ih
    have hc : isMeta c = false := by
      simp only [isMeta, Bool.or_eq_false_iff, decide_eq_false_iff_not]
      refine ⟨⟨hany, hone⟩, fun hc => ?_⟩
      cases g with
      | nil => exact hlone hc rfl
      | cons d g => exact hescape d g hc rfl
    refine ⟨.char c :: ts, ?_, h.char hc⟩
    rw [List.cons_append, tokens_of_not_isMeta hc, hts]
    rfl

/-! ## When the wildcards do no harm -/

theorem like_contains_sampled (g : List Char) :
    ∃ s, like (contains g) s ∧ (∀ c ∈ s, c ∈ g ∨ c = '%') ∧
      (g <:+: s → ∀ c ∈ g, isMeta c = false) := by
  obtain ⟨ts, hts, h⟩ := tokens_sampled g
  refine ⟨sample ts, ?_, h.mem, fun hsub => h.plain ?_⟩
  · have htokens : tokens (contains g) = some (.any :: ts) := by simp [contains, tokens, hts]
    rw [like, htokens, Option.any_some, accepts_any]
    exact ⟨_, List.suffix_refl _, accepts_sample⟩
  · exact (hsub.eq_of_length (Nat.le_antisymm hsub.length_le h.length_le)).symm

/-- A folding of letters that leaves the three alone. -/
structure Folding where
  lower : Char → Char
  lower_lower (c : Char) : lower (lower c) = lower c
  isMeta_lower (c : Char) : isMeta (lower c) = isMeta c
  lower_percent : lower '%' = '%'

namespace Folding
variable (F : Folding)

/-- `s ILIKE pattern` -/
def ilike (pattern s : List Char) : Bool := like (pattern.map F.lower) (s.map F.lower)

theorem map_contains : (contains g).map F.lower = contains (g.map F.lower) := by
  simp [contains, F.lower_percent]

theorem isMeta_map : (∀ c ∈ g.map F.lower, isMeta c = false) ↔ ∀ c ∈ g, isMeta c = false := by
  simp [F.isMeta_lower]

theorem ilike_plain (hg : ∀ c ∈ g, isMeta c = false) :
    F.ilike (contains g) s ↔ g.map F.lower <:+: s.map F.lower := by
  rw [ilike, map_contains]
  exact like_plain (F.isMeta_map.mpr hg)

theorem ilike_sampled (g : List Char) : ∃ s, F.ilike (contains g) s ∧
    (g.map F.lower <:+: s.map F.lower → ∀ c ∈ g, isMeta c = false) := by
  obtain ⟨s, hs, hmem, hplain⟩ := like_contains_sampled (g.map F.lower)
  have hlower : s.map F.lower = s := by
    refine List.map_congr_left (g := id) (fun c hc => ?_) |>.trans (List.map_id s)
    rcases hmem c hc with hc | rfl
    · obtain ⟨d, -, rfl⟩ := List.mem_map.mp hc
      exact F.lower_lower d
    · exact F.lower_percent
  refine ⟨s, ?_, fun h => F.isMeta_map.mp (hplain (hlower ▸ h))⟩
  rw [ilike, map_contains, hlower]
  exact hs

end Folding

/-- The folding of the letters from A to Z. -/
def ascii : Folding where
  lower := Char.toLower
  lower_lower := Char.toLower_toLower_eq_toLower
  isMeta_lower c := by
    by_cases hc : c.isUpper
    · have halpha : c.isAlpha := by simp [Char.isAlpha, hc]
      rw [isMeta_eq_false_of_isAlpha halpha,
        isMeta_eq_false_of_isAlpha ((Char.isAlpha_toLower_eq_isAlpha c).trans halpha)]
    · rw [Char.toLower_eq_of_not_isUpper hc]
  lower_percent := by decide

end Like
