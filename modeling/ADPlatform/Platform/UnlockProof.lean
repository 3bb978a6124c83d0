import ADPlatform.GameCore.Flags

/-! # Unlock proofs

A proof names a challenge and a team, and its signature covers the epoch. `payload_inj` carries
`verify_issue_iff`: the signed text of the first epoch has one colon, that of a later one has
two. -/

namespace ADPlatform.Platform.UnlockProof
open GameCore (MAC)
open Text

/-- `proofPrefix`. -/
def proofPrefix : String := "ADU1"

/-- `normalizeEpoch`: epochs count from 1. -/
def normalizeEpoch (epoch : Int) : Int := if epoch < 1 then 1 else epoch

/-- The signed text. The first epoch keeps the one from before the rotation of epochs. -/
def payload (teamID challengeID epoch : Int) : String :=
  if epoch ≤ 1 then challengeID.repr ++ ":" ++ teamID.repr
  else challengeID.repr ++ ":" ++ teamID.repr ++ ":" ++ epoch.repr

variable (hmac : MAC)

/-- `Issue`. -/
def issue (secret : String) (teamID challengeID epoch : Int) : String :=
  let signature :=
    hexEncode (hmac (trimSpace secret) (payload teamID challengeID (normalizeEpoch epoch)))
  proofPrefix ++ "." ++ challengeID.repr ++ "." ++ teamID.repr ++ "." ++ signature

/-- `Verify`: neither a blank proof nor a blank secret passes. -/
def verify (secret : String) (teamID challengeID epoch : Int) (proof : String) : Bool :=
  let trimmed := trimSpace proof
  if trimmed = "" || trimSpace secret = "" then false
  else
    let expected := issue hmac secret teamID challengeID epoch
    if (bytes trimmed).length ≠ (bytes expected).length then false
    else bytes trimmed = bytes expected

variable {hmac} {secret proof : String} {t c e t' c' e' : Int}

theorem normalizeEpoch_eq_max (epoch : Int) : normalizeEpoch epoch = max epoch 1 := by
  unfold normalizeEpoch
  split <;> omega

/-! ## The parts of a proof -/

theorem notMem_repr {d : Char} (hdigit : d.isDigit = false) (hsign : d ≠ '-') (n : Int) :
    d ∉ n.repr.toList := Decimal.not_mem hdigit hsign n

/-- The signed texts of two proofs for one challenge and team tell their epochs apart. -/
theorem payload_inj (he : 1 ≤ e) (he' : 1 ≤ e') (h : payload t c e = payload t c e') : e = e' := by
  have hcolon : ∀ epoch : Int, ':' ∉ epoch.repr.toList := notMem_repr rfl (by decide)
  -- without an epoch, the text behind the first colon has no colon
  have hlegacy :
      ∀ epoch : Int, c.repr ++ ":" ++ t.repr ≠ c.repr ++ ":" ++ t.repr ++ ":" ++ epoch.repr := by
    intro epoch heq
    have hright : c.repr ++ ":" ++ t.repr ++ ":" ++ epoch.repr =
        c.repr ++ ":" ++ (t.repr ++ ":" ++ epoch.repr) := by simp only [String.append_assoc]
    rw [hright] at heq
    obtain ⟨-, hrest⟩ := split_first_inj (hcolon c) (hcolon c) heq
    refine hcolon t ?_
    rw [hrest]
    simp
  unfold payload at h
  split at h
  · split at h
    · omega
    · exact absurd h (hlegacy e')
  · split at h
    · exact absurd h.symm (hlegacy e)
    · exact Int.repr_injective (split_last_inj (hcolon e) (hcolon e') h).2

/-- A proof with its signature set apart. -/
theorem issue_eq (secret : String) (t c e : Int) : issue hmac secret t c e =
    proofPrefix ++ "." ++ (c.repr ++ "." ++ (t.repr ++ "." ++
      hexEncode (hmac (trimSpace secret) (payload t c (normalizeEpoch e))))) := by
  simp only [issue, String.append_assoc]

theorem issue_inj (h : issue hmac secret t c e = issue hmac secret t' c' e') : t = t' ∧ c = c' ∧
    hexEncode (hmac (trimSpace secret) (payload t c (normalizeEpoch e))) =
      hexEncode (hmac (trimSpace secret) (payload t' c' (normalizeEpoch e'))) := by
  have hdot : ∀ n : Int, '.' ∉ n.repr.toList := notMem_repr rfl (by decide)
  have hfront : '.' ∉ proofPrefix.toList := by decide
  rw [issue_eq, issue_eq] at h
  obtain ⟨-, h⟩ := split_first_inj hfront hfront h
  obtain ⟨hc, h⟩ := split_first_inj (hdot c) (hdot c') h
  obtain ⟨ht, h⟩ := split_first_inj (hdot t) (hdot t') h
  exact ⟨Int.repr_injective ht, Int.repr_injective hc, h⟩

/-! ## Verification -/

theorem ne_of_isSpace {d : Char} (h : isSpace d = true) : d ≠ '-' ∧ d ≠ '.' ∧ d.isDigit = false ∧
    (∀ n < 16, Nat.digitChar n ≠ d) ∧ d ∉ proofPrefix.toList := by
  refine ⟨?_, ?_, ?_, ?_, ?_⟩
  · rintro rfl
    cases h
  · rintro rfl
    cases h
  · cases hdigit : d.isDigit with
    | false => rfl
    | true =>
      rw [isSpace_of_isDigit hdigit] at h
      cases h
  · have hhex : ∀ n < 16, isSpace (Nat.digitChar n) = false := by decide
    rintro n hn rfl
    rw [hhex n hn] at h
    cases h
  · have hfront : ∀ d ∈ proofPrefix.toList, isSpace d = false :=
      List.forall_iff_forall_mem.mp (by decide)
    intro hd
    rw [hfront d hd] at h
    cases h

/-- A proof has no white space in it. -/
theorem isSpace_of_mem_issue {d : Char} (h : d ∈ (issue hmac secret t c e).toList) :
    isSpace d = false := by
  refine eq_false_of_ne_true fun hspace => ?_
  obtain ⟨hsign, hdot, hdigit, hhex, hfront⟩ := ne_of_isSpace hspace
  have hseparator : d ∉ ".".toList := fun hd => hdot (List.mem_singleton.mp hd)
  simp only [issue, String.toList_append, List.mem_append] at h
  rcases h with (((((h | h) | h) | h) | h) | h) | h
  · exact hfront h
  · exact hseparator h
  · exact notMem_repr hdigit hsign c h
  · exact hseparator h
  · exact notMem_repr hdigit hsign t h
  · exact hseparator h
  · exact not_mem_hexEncode hhex _ h

theorem issue_ne_nil : (issue hmac secret t c e).toList ≠ [] := by
  rw [issue_eq, String.toList_append, String.toList_append]
  simp [proofPrefix]

theorem trimSpace_issue {before after : String} (hbefore : ∀ d ∈ before.toList, isSpace d = true)
    (hafter : ∀ d ∈ after.toList, isSpace d = true) :
    trimSpace (before ++ issue hmac secret t c e ++ after) = issue hmac secret t c e := by
  have hne : (issue hmac secret t c e).toList ≠ [] := issue_ne_nil
  refine trimSpace_pad hbefore hafter ⟨_, List.head?_eq_some_head hne, ?_⟩
    ⟨_, List.getLast?_eq_some_getLast hne, ?_⟩
  · exact isSpace_of_mem_issue (List.head_mem hne)
  · exact isSpace_of_mem_issue (List.getLast_mem hne)

theorem verify_iff (hsecret : trimSpace secret ≠ "") : verify hmac secret t c e proof = true ↔
    trimSpace proof = issue hmac secret t c e := by
  have hne : issue hmac secret t c e ≠ "" := mt String.toList_eq_nil_iff.mpr issue_ne_nil
  simp only [verify, hsecret, decide_false, Bool.or_false]
  constructor
  · intro h
    split at h
    · cases h
    · split at h
      · cases h
      · exact bytes_inj.mp (of_decide_eq_true h)
  · intro h
    rw [h]
    simp [hne]

/-- A proof is verified for the team, the challenge and the epoch that it was issued for, and for no
others. -/
theorem verify_issue_iff (hmac : MAC) (secret : String) (hsecret : trimSpace secret ≠ "")
    (t c e t' c' e' : Int)
    (hcollision : hmac (trimSpace secret) (payload t c (normalizeEpoch e)) =
        hmac (trimSpace secret) (payload t' c' (normalizeEpoch e')) →
      payload t c (normalizeEpoch e) = payload t' c' (normalizeEpoch e'))
    (before after : String) (hbefore : ∀ d ∈ before.toList, isSpace d = true)
    (hafter : ∀ d ∈ after.toList, isSpace d = true) :
    verify hmac secret t c e (before ++ issue hmac secret t' c' e' ++ after) = true ↔
      t = t' ∧ c = c' ∧ max e 1 = max e' 1 := by
  rw [verify_iff hsecret, trimSpace_issue hbefore hafter]
  constructor
  · intro h
    obtain ⟨rfl, rfl, hsignature⟩ := issue_inj h
    have hpayload := hcollision (hexEncode_inj hsignature).symm
    rw [normalizeEpoch_eq_max, normalizeEpoch_eq_max] at hpayload
    exact ⟨rfl, rfl, payload_inj (le_max_right _ _) (le_max_right _ _) hpayload⟩
  · rintro ⟨rfl, rfl, he⟩
    rw [issue, issue, normalizeEpoch_eq_max, normalizeEpoch_eq_max, he]

/-- The signatures of two epochs under the secret of the local set-up. -/
def localSignature : MAC := fun secret text =>
  if secret = "dev-unlock-secret" ∧ text = "2:101" then
    [243, 30, 95, 215, 244, 162, 114, 248, 57, 156, 22, 73, 135, 114, 38, 145, 7, 205, 113,
      93, 171, 159, 48, 178, 235, 164, 113, 89, 96, 139, 146, 211]
  else if secret = "dev-unlock-secret" ∧ text = "2:101:2" then
    [67, 91, 65, 104, 155, 235, 199, 48, 13, 150, 22, 176, 161, 78, 135, 21, 120, 244, 172,
      228, 83, 63, 76, 205, 5, 68, 88, 202, 179, 191, 144, 100]
  else List.replicate 32 0

/-- The epochs 0 and 1 are one, the epoch 2 is another. -/
theorem verify_issue_rotated :
    verify localSignature " dev-unlock-secret" 101 2 1
      ("\t " ++ issue localSignature " dev-unlock-secret" 101 2 0 ++ "\r\n") = true ∧
    ¬verify localSignature " dev-unlock-secret" 101 2 2
      ("\t " ++ issue localSignature " dev-unlock-secret" 101 2 1 ++ "\r\n") = true := by
  have hsecret : trimSpace " dev-unlock-secret" ≠ "" := by decide
  have hbefore : ∀ d ∈ "\t ".toList, isSpace d = true := List.all_eq_true.mp (by decide)
  have hafter : ∀ d ∈ "\r\n".toList, isSpace d = true := List.all_eq_true.mp (by decide)
  constructor
  · exact (verify_issue_iff localSignature _ hsecret 101 2 1 101 2 0 (fun _ => by
      decide) _ _
      hbefore hafter).mpr ⟨rfl, rfl, by decide⟩
  · rw [verify_issue_iff localSignature _ hsecret 101 2 2 101 2 1 (by
      decide) _ _ hbefore hafter]
    decide

end ADPlatform.Platform.UnlockProof
