import Mathlib
import ADPlatform.Lib.Encoding

/-! # Flags

The flag codec: a flag carries its owner, challenge and ticks in a base64 payload, signed with an
HMAC. The HMAC is a parameter, a function of the secret and the signed text. -/

namespace ADPlatform.GameCore
open Text

/-- `hmac secret text` is the HMAC-SHA256 of `text`. -/
abbrev MAC := String → String → List UInt8

/-- `defaultFlagFormatPrefix`. -/
def defaultFlagFormatPrefix : String := "PLAYIT"

/-- What a flag says of itself. -/
structure FlagClaims where
  value : String
  ownerTeamID : Int
  challengeID : Int
  issuedTick : Int
  expiresTick : Int
  deriving DecidableEq, Repr

/-- `flagCodec`: the secret, and the text in front of the brace. -/
structure FlagCodec where
  secret : String
  flagPrefix : String
  deriving DecidableEq, Repr

/-- `newFlagCodec`. -/
def FlagCodec.new (secret flagPrefix : String) : FlagCodec :=
  let trimmed := trimSpace flagPrefix
  { secret := trimSpace secret
    flagPrefix := if trimmed = "" then defaultFlagFormatPrefix else trimmed }

namespace FlagCodec

/-- `withPrefix`: the same secret under another prefix. -/
def withPrefix (c : FlagCodec) (flagPrefix : String) : FlagCodec := .new c.secret flagPrefix

/-- The signed text of a flag. -/
def payload (ownerTeamID challengeID issuedTick expiresTick : Int) : String :=
  ownerTeamID.repr ++ ":" ++ challengeID.repr ++ ":" ++ issuedTick.repr ++ ":" ++ expiresTick.repr

variable (hmac : MAC) (c : FlagCodec)

/-- `issue`. -/
def issue (ownerTeamID challengeID issuedTick expiresTick : Int) : String :=
  let encodedPayload :=
    Base64.encode (bytes (payload ownerTeamID challengeID issuedTick expiresTick))
  let signature := hexEncode (hmac c.secret encodedPayload)
  c.flagPrefix ++ "\x7b" ++ encodedPayload ++ "." ++ signature ++ "\x7d"

/-- The claims in a payload. -/
def parsePayload (value : String) (fields : List UInt8) : Option FlagClaims :=
  match fields.splitOn 58 with
  | [owner, challenge, issued, expires] => do
    let ownerTeamID ← Decimal.atoi owner
    let challengeID ← Decimal.atoi challenge
    let issuedTick ← Decimal.atoi issued
    let expiresTick ← Decimal.atoi expires
    return { value, ownerTeamID, challengeID, issuedTick, expiresTick }
  | _ => none

/-- `parse`: no claims unless the signature is that of the payload. -/
def parse (value : String) : Option FlagClaims :=
  let trimmed := trimSpace value
  let expectedPrefix := c.flagPrefix ++ "\x7b"
  if !expectedPrefix.toList.isPrefixOf trimmed.toList || trimmed.toList.getLast? ≠ some '\x7d' then
    none
  else
    let body := (trimmed.toList.drop expectedPrefix.toList.length).dropLast
    match body.splitOn '.' with
    | [encodedPayload, signature] =>
      if String.ofList signature ≠ hexEncode (hmac c.secret (String.ofList encodedPayload)) then
        none
      else (Base64.decode encodedPayload).bind (parsePayload trimmed)
    | _ => none

/-- A payload has one reading. -/
theorem payload_inj {o c i e o' c' i' e' : Int} (h : payload o c i e = payload o' c' i' e') :
    o = o' ∧ c = c' ∧ i = i' ∧ e = e' := by
  have hfree : ∀ n : Int, ':' ∉ n.repr.toList := Decimal.not_mem rfl (by decide)
  obtain ⟨h, he⟩ := split_last_inj (hfree _) (hfree _) h
  obtain ⟨h, hi⟩ := split_last_inj (hfree _) (hfree _) h
  obtain ⟨ho, hc⟩ := split_last_inj (hfree _) (hfree _) h
  exact ⟨Int.repr_injective ho, Int.repr_injective hc, Int.repr_injective hi,
    Int.repr_injective he⟩

variable {hmac : MAC} {codec codec' : FlagCodec}

/-- A flag, with the part behind its last opening brace set apart. -/
theorem issue_eq (o c i e : Int) : codec.issue hmac o c i e =
    codec.flagPrefix ++ "\x7b" ++ (Base64.encode (bytes (payload o c i e)) ++ "." ++
      (hexEncode (hmac codec.secret (Base64.encode (bytes (payload o c i e)))) ++ "\x7d")) := by
  simp only [issue, String.append_assoc]

/-- Flags with different contents are different texts, whatever the two codecs. -/
theorem issue_inj {o c i e o' c' i' e' : Int}
    (h : codec.issue hmac o c i e = codec'.issue hmac o' c' i' e') :
    o = o' ∧ c = c' ∧ i = i' ∧ e = e' := by
  have hhex : ∀ bs, '\x7b' ∉ (hexEncode bs).toList := not_mem_hexEncode (by decide)
  have hbody :
      ∀ bs sig, '\x7b' ∉ (Base64.encode bs ++ "." ++ (hexEncode sig ++ "\x7d")).toList := by
    intro bs sig
    simp only [String.toList_append, List.mem_append, not_or]
    exact ⟨⟨Base64.brace_notMem_encode bs, by decide⟩, hhex sig, by decide⟩
  rw [issue_eq, issue_eq] at h
  obtain ⟨-, h⟩ := split_last_inj (hbody _ _) (hbody _ _) h
  obtain ⟨h, -⟩ :=
    split_first_inj (Base64.dot_notMem_encode _) (Base64.dot_notMem_encode _) h
  exact payload_inj (bytes_inj.mp (Base64.encode_inj h))

end FlagCodec

end ADPlatform.GameCore
