import ADPlatform.CheckerRunner.Output

/-! # Outputs that are too long

`truncateOutput` cuts an output at a limit and takes bytes off the end of what is left until all of
it is valid. That is a matter of at most three bytes where the cut is inside of a character; but a
byte that belongs to no character is only gone when everything behind it is, so that an output with
such a byte in front of the limit loses more (`keepsOutput_iff`). -/

namespace ADPlatform.CheckerRunner
open ByteString
open Text (bytes)

variable {s : List UInt8} {limit : Nat}

/-- All but the last three bytes in front of the limit are kept, and the marker is behind them. -/
def KeepsOutput (s : List UInt8) (limit : Nat) : Prop :=
  ∃ kept, truncateOutput s limit = kept ++ bytes "\n... [truncated]" ∧ kept <+: s ∧
    limit - 3 ≤ kept.length ∧ kept.length ≤ limit ∧ (validString s = true → validString kept = true)

/-- The loop stops at the longest part that is valid. -/
theorem cut_eq (res : List UInt8) (n : Nat) : ∃ m ≤ n, truncateOutput.cut res n = res.take m ∧
    validString (res.take m) = true ∧ ∀ k ≤ n, validString (res.take k) = true → k ≤ m := by
  induction n with
  | zero => exact ⟨0, le_rfl, rfl, rfl, fun k hk _ => hk⟩
  | succ n ih =>
    rw [truncateOutput.cut]
    split
    · rename_i hvalid
      exact ⟨n + 1, le_rfl, rfl, hvalid, fun k hk _ => hk⟩
    · rename_i hinvalid
      obtain ⟨m, hm, hcut, hvalid, hlongest⟩ := ih
      refine ⟨m, Nat.le_succ_of_le hm, hcut, hvalid, fun k hk hk' => hlongest k ?_ hk'⟩
      refine Nat.le_of_lt_succ (Nat.lt_of_le_of_ne hk ?_)
      rintro rfl
      exact hinvalid hk'

/-- What is kept of an output beyond the limit. -/
theorem truncateOutput_eq (hlong : limit < s.length) : ∃ m ≤ limit,
    truncateOutput s limit = s.take m ++ bytes "\n... [truncated]" ∧ validString (s.take m) = true ∧
      ∀ k ≤ limit, validString (s.take k) = true → k ≤ m := by
  have htake : ∀ {k}, k ≤ limit → (s.take limit).take k = s.take k := fun hk => by
    rw [List.take_take, Nat.min_eq_left hk]
  obtain ⟨m, hm, hcut, hvalid, hlongest⟩ := cut_eq (s.take limit) limit
  rw [htake hm] at hcut hvalid
  refine ⟨m, hm, by
    rw [truncateOutput, if_neg (Nat.not_le_of_lt hlong), hcut], hvalid, fun k hk hk' => ?_⟩
  exact hlongest k hk (by rwa [htake hk])

/-- All but three bytes are kept exactly if no byte in front of them begins an invalid encoding. -/
theorem keepsOutput_iff (hlong : limit < s.length) :
    KeepsOutput s limit ↔ validBefore (limit - 3) (runes s) = true := by
  obtain ⟨m, hm, htruncated, hvalid, hlongest⟩ := truncateOutput_eq hlong
  constructor
  · rintro ⟨kept, hkept, -, hlow, -, -⟩
    obtain rfl : s.take m = kept := List.append_cancel_right (htruncated.symm.trans hkept)
    have hsound := validBefore_append hvalid hlow (s.drop m)
    rwa [List.take_append_drop] at hsound
  · intro hsound
    have hlow : limit - 3 ≤ m := by
      rcases Nat.lt_or_ge limit 3 with hsmall | hlarge
      · omega
      · obtain ⟨k, hlow, hhigh, -, hk⟩ := exists_validString_take (by omega) hsound
        exact hlow.trans (hlongest k (by omega) hk)
    refine ⟨s.take m, htruncated, List.take_prefix m s, ?_, ?_, fun _ => hvalid⟩
    · rw [List.length_take]
      omega
    · rw [List.length_take]
      omega

/-- The limit lies within the first of two characters of three bytes. -/
theorem keepsOutput_euros : KeepsOutput (bytes "prices\u20ac\u20ac") 8 :=
  (keepsOutput_iff (by decide)).mpr (by decide)

theorem decodeRune_bad (bs : List UInt8) : decodeRune (0xFF :: bs) = (none, 1) := by
  match bs with
  | [] => rfl
  | [b] => simp [decodeRune]
  | [b, c] => simp [decodeRune, opensThree]
  | b :: c :: d :: bs => simp [decodeRune, opensThree, opensFour]

/-- An output that is one byte too long and begins with a byte of no character. -/
def badOutput : List UInt8 := 0xFF :: List.replicate 65536 97

/-- Nothing of the output is kept. -/
theorem badOutput_lost : 3 ≤ 65536 ∧ 65536 < badOutput.length ∧
    truncateOutput badOutput 65536 = bytes "\n... [truncated]" ∧ ¬KeepsOutput badOutput 65536 := by
  have hlong : 65536 < badOutput.length := by
    rw [badOutput, List.length_cons, List.length_replicate]
    exact Nat.lt_succ_self _
  obtain ⟨m, hm, htruncated, hvalid, -⟩ := truncateOutput_eq hlong
  have hnone : m = 0 := by
    cases m with
    | zero => rfl
    | succ m =>
      rw [badOutput, List.take_succ_cons, validString, runes_cons, decodeRune_bad,
        List.all_cons] at hvalid
      cases hvalid
  rw [hnone, List.take_zero, List.nil_append] at htruncated
  refine ⟨by decide, hlong, htruncated, ?_⟩
  rintro ⟨kept, hkept, -, hlow, -, -⟩
  have hlength := congrArg List.length (htruncated.symm.trans hkept)
  rw [List.length_append] at hlength
  omega

end ADPlatform.CheckerRunner
