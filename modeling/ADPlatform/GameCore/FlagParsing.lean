import ADPlatform.GameCore.Flags

/-! # Reading flags back

`FlagCodec.parse_eq_some_iff` says which texts are read as a flag: behind the prefix stand an
encoded payload, a dot and the payload's signature. A payload that can be decoded has no brace, so
the prefix reaches to the last opening brace, whatever characters it has itself. -/

namespace ADPlatform.GameCore
open Text

namespace FlagCodec

variable {hmac : MAC} {codec : FlagCodec} {value : String} {claims : FlagClaims}

/-- The texts that get as far as the cut. -/
def opens (codec : FlagCodec) (value : String) : Bool :=
  (codec.flagPrefix ++ "\x7b").toList.isPrefixOf (trimSpace value).toList &&
    (trimSpace value).toList.getLast? == some '\x7d'

/-- `trimmed[len(expectedPrefix) : len(trimmed)-1]`, without a value where the bounds are out of
order. -/
def sliceBody (codec : FlagCodec) (value : String) : Option (List UInt8) :=
  let trimmed := bytes (trimSpace value)
  let low := (bytes (codec.flagPrefix ++ "\x7b")).length
  let high := (trimmed.length : Int) - 1
  if low ≤ high then some ((trimmed.take high.toNat).drop low) else none

/-- What `parse` makes of the body. -/
def parseBody (hmac : MAC) (codec : FlagCodec) (trimmed : String) (body : List Char) :
    Option FlagClaims :=
  match body.splitOn '.' with
  | [encodedPayload, signature] =>
    if String.ofList signature ≠ hexEncode (hmac codec.secret (String.ofList encodedPayload)) then
      none
    else (Base64.decode encodedPayload).bind (parsePayload trimmed)
  | _ => none

/-- The text of a flag with its prefix and its closing brace. -/
theorem toList_framed (body : String) :
    (codec.flagPrefix ++ "\x7b" ++ body ++ "\x7d").toList =
      (codec.flagPrefix ++ "\x7b").toList ++ (body.toList ++ ['\x7d']) := by
  rw [String.toList_append, String.toList_append (s := codec.flagPrefix ++ "\x7b"),
    List.append_assoc]
  rfl

/-- The two braces differ, so that they are not one and the same character of the text. -/
theorem opens_iff : codec.opens value = true ↔
    ∃ body, trimSpace value = codec.flagPrefix ++ "\x7b" ++ body ++ "\x7d" := by
  rw [opens, Bool.and_eq_true, List.isPrefixOf_iff_prefix, beq_iff_eq]
  constructor
  · rintro ⟨⟨rest, hrest⟩, hlast⟩
    rw [← hrest] at hlast
    rcases List.eq_nil_or_concat rest with rfl | ⟨body, c, rfl⟩
    · rw [List.append_nil, String.toList_append, List.getLast?_append] at hlast
      cases hlast
    · rw [List.concat_eq_append, ← List.append_assoc, List.getLast?_concat] at hlast
      obtain rfl : c = '\x7d' := Option.some.inj hlast
      refine ⟨String.ofList body, String.toList_inj.mp ?_⟩
      rw [← hrest, toList_framed, String.toList_ofList, List.concat_eq_append]
  · rintro ⟨body, hbody⟩
    rw [hbody, toList_framed]
    refine ⟨List.prefix_append _ _, ?_⟩
    rw [← List.append_assoc, List.getLast?_concat]

theorem parse_of_not_opens (h : codec.opens value = false) : codec.parse hmac value = none := by
  refine if_pos ?_
  rw [opens, Bool.and_eq_false_iff] at h
  rw [Bool.or_eq_true, Bool.not_eq_true', decide_eq_true_eq]
  exact h.imp_right fun h => by simpa using h

theorem parse_of_body {body : String}
    (h : trimSpace value = codec.flagPrefix ++ "\x7b" ++ body ++ "\x7d") :
    codec.parse hmac value = codec.parseBody hmac (trimSpace value) body.toList := by
  have hopens : codec.opens value = true := opens_iff.mpr ⟨body, h⟩
  rw [opens, Bool.and_eq_true, beq_iff_eq] at hopens
  have hcut : ((trimSpace value).toList.drop (codec.flagPrefix ++ "\x7b").toList.length).dropLast =
      body.toList := by
    rw [h, toList_framed, List.drop_left, List.dropLast_concat]
  have hguard : ¬ (!(codec.flagPrefix ++ "\x7b").toList.isPrefixOf (trimSpace value).toList ||
      (trimSpace value).toList.getLast? ≠ some '\x7d') = true := by
    rw [hopens.1, hopens.2]
    decide
  rw [parse, if_neg hguard, hcut]
  rfl

/-- The texts that are read as flags: a signed payload behind the prefix. -/
theorem parse_eq_some_iff : codec.parse hmac value = some claims ↔
    ∃ encoded : String, '.' ∉ encoded.toList ∧
      trimSpace value = codec.flagPrefix ++ "\x7b" ++
        (encoded ++ "." ++ hexEncode (hmac codec.secret encoded)) ++ "\x7d" ∧
      (Base64.decode encoded.toList).bind (parsePayload (trimSpace value)) = some claims := by
  constructor
  · intro h
    cases hopens : codec.opens value with
    | false =>
      rw [parse_of_not_opens hopens] at h
      cases h
    | true =>
      obtain ⟨body, hbody⟩ := opens_iff.mp hopens
      rw [parse_of_body hbody, parseBody] at h
      split at h
      · rename_i encoded signature hparts
        obtain ⟨hdot, -, hparts⟩ := splitOn_eq_pair.mp hparts
        split at h
        · cases h
        rename_i hsign
        rw [not_not] at hsign
        refine ⟨String.ofList encoded, by rwa [String.toList_ofList], ?_, ?_⟩
        · rw [hbody, ← hsign]
          congr 2
          rw [← String.toList_inj, hparts]
          simp
        · rwa [String.toList_ofList]
      · cases h
  · rintro ⟨encoded, hdot, htext, hclaims⟩
    have hparts : (encoded ++ "." ++ hexEncode (hmac codec.secret encoded)).toList.splitOn '.' =
        [encoded.toList, (hexEncode (hmac codec.secret encoded)).toList] := by
      refine splitOn_eq_pair.mpr ⟨hdot, not_mem_hexEncode (by decide) _, ?_⟩
      rw [String.toList_append, String.toList_append, List.append_assoc]
      rfl
    rw [parse_of_body htext, parseBody, hparts]
    dsimp only
    rw [String.ofList_toList, String.ofList_toList, if_neg (not_not.mpr rfl)]
    exact hclaims

/-- The slice of the bytes is in range and holds what the body's characters are written with. -/
theorem sliceBody_eq {body : String}
    (h : trimSpace value = codec.flagPrefix ++ "\x7b" ++ body ++ "\x7d") :
    codec.sliceBody value = some (bytes body) := by
  have hbytes : bytes (trimSpace value) =
      bytes (codec.flagPrefix ++ "\x7b") ++ bytes body ++ [125] := by
    rw [h, bytes_append, bytes_append]
    rfl
  have hlength : ((bytes (trimSpace value)).length : Int) - 1 =
      ((bytes (codec.flagPrefix ++ "\x7b") ++ bytes body).length : Nat) := by
    rw [hbytes, List.length_append, List.length_singleton]
    omega
  have hrange : ((bytes (codec.flagPrefix ++ "\x7b")).length : Int) ≤
      ((bytes (codec.flagPrefix ++ "\x7b") ++ bytes body).length : Nat) := by
    rw [List.length_append]
    omega
  rw [sliceBody, hlength, if_pos hrange, Int.toNat_natCast, hbytes, List.take_left, List.drop_left]

/-- The numbers of a flag, read back from its payload. -/
theorem parsePayload_payload (value : String) (o c i e : Int64) :
    parsePayload value (bytes (payload o.toInt c.toInt i.toInt e.toInt)) =
      some ⟨value, o.toInt, c.toInt, i.toInt, e.toInt⟩ := by
  have hcolon : ∀ n : Int64, (58 : UInt8) ∉ bytes n.toInt.repr := fun n =>
    Decimal.notMem_bytes_repr (.inr (by decide)) _
  have hatoi : ∀ n : Int64, Decimal.atoi (bytes n.toInt.repr) = some n.toInt := fun n =>
    Decimal.atoi_int n.le_toInt n.toInt_lt
  have hfields : (bytes (payload o.toInt c.toInt i.toInt e.toInt)).splitOn 58 =
      [bytes o.toInt.repr, bytes c.toInt.repr, bytes i.toInt.repr, bytes e.toInt.repr] := by
    have hbytes : bytes (payload o.toInt c.toInt i.toInt e.toInt) = bytes o.toInt.repr ++ 58 ::
        (bytes c.toInt.repr ++ 58 :: (bytes i.toInt.repr ++ 58 :: bytes e.toInt.repr)) := by
      simp only [payload, bytes_append, List.append_assoc]
      rfl
    rw [hbytes, List.splitOn_append_cons_self_of_not_mem (hcolon o),
      List.splitOn_append_cons_self_of_not_mem (hcolon c),
      List.splitOn_append_cons_self_of_not_mem (hcolon i), List.splitOn_eq_singleton (hcolon e)]
  rw [parsePayload, hfields]
  simp only [hatoi]
  rfl

/-- What a text with a signature in it has at that place was signed: nobody else makes a text's
signature. -/
def Unforgeable (hmac : MAC) (secret : String) (signed : Set String) (value : String) : Prop :=
  ∀ text : String, (text ++ "." ++ hexEncode (hmac secret text)).toList <:+: value.toList →
    text ∈ signed

theorem infix_trimSpace (s : String) : (trimSpace s).toList <:+: s.toList := by
  rw [trimSpace, String.toList_ofList]
  exact (List.rdropWhile_prefix _ _).isInfix.trans (List.dropWhile_suffix _).isInfix

/-- A prefix set by the organizers has no white space at its front. -/
theorem head_new (secret flagPrefix : String) :
    ∃ c, (FlagCodec.new secret flagPrefix).flagPrefix.toList.head? = some c ∧
      isSpace c = false := by
  rw [FlagCodec.new]
  dsimp only
  split
  · exact ⟨'P', rfl, rfl⟩
  · rename_i hne
    obtain ⟨c, rest, htext⟩ := List.exists_cons_of_ne_nil (mt String.toList_eq_nil_iff.mp hne)
    have hhead : (trimSpace flagPrefix).toList.head? = some c := by rw [htext, List.head?_cons]
    exact ⟨c, hhead, head_trimSpace hhead⟩

theorem trimSpace_issue {secret flagPrefix before after : String} (o c i e : Int)
    (hbefore : ∀ c ∈ before.toList, isSpace c = true)
    (hafter : ∀ c ∈ after.toList, isSpace c = true) :
    trimSpace (before ++ (FlagCodec.new secret flagPrefix).issue hmac o c i e ++ after) =
      (FlagCodec.new secret flagPrefix).issue hmac o c i e := by
  refine trimSpace_pad hbefore hafter ?_ ⟨'\x7d', ?_, by decide⟩
  · obtain ⟨c, hhead, hspace⟩ := head_new secret flagPrefix
    refine ⟨c, ?_, hspace⟩
    rw [issue_eq, String.append_assoc, String.toList_append, List.head?_append, hhead]
    rfl
  · rw [issue, String.toList_append]
    exact List.getLast?_concat

/-- A text that is decoded has no brace. -/
theorem brace_notMem_of_decode {s : List Char} {bs : List UInt8}
    (h : Base64.decode s = some bs) : '\x7b' ∉ s := by
  intro hmem
  rw [Base64.decode_eq_none hmem Base64.brace_notMem_alphabet rfl] at h
  cases h

/-- A flag is read with the prefix it was issued with. -/
theorem prefix_eq_of_parse {codec' : FlagCodec} {o c i e : Int}
    (htrim : trimSpace value = codec'.issue hmac o c i e)
    (h : codec.parse hmac value = some claims) : codec'.flagPrefix = codec.flagPrefix := by
  obtain ⟨encoded, hdot, htext, hclaims⟩ := parse_eq_some_iff.mp h
  obtain ⟨fields, hdecode, -⟩ := Option.bind_eq_some_iff.mp hclaims
  rw [htrim, issue_eq] at htext
  have hbrace : ∀ (text : String) (sig : List UInt8), '\x7b' ∉ text.toList →
      '\x7b' ∉ (text ++ "." ++ (hexEncode sig ++ "\x7d")).toList := by
    intro text sig htext
    simp only [String.toList_append, List.mem_append, not_or]
    exact ⟨⟨htext, by decide⟩, not_mem_hexEncode (by decide) sig, by decide⟩
  have hbehind : codec.flagPrefix ++ "\x7b" ++
      (encoded ++ "." ++ hexEncode (hmac codec.secret encoded)) ++ "\x7d" = codec.flagPrefix ++
      "\x7b" ++ (encoded ++ "." ++ (hexEncode (hmac codec.secret encoded) ++ "\x7d")) := by
    simp only [String.append_assoc]
  rw [hbehind] at htext
  exact (split_last_inj (hbrace _ _ (Base64.brace_notMem_encode _))
    (hbrace _ _ (brace_notMem_of_decode hdecode))
    htext).1

/-- What is issued with one prefix and read with another is the flag again, or nothing. -/
theorem parse_issue (hmac : MAC) (secret p q : String) {before after : String}
    (hbefore : ∀ c ∈ before.toList, isSpace c = true)
    (hafter : ∀ c ∈ after.toList, isSpace c = true) (o c i e : Int64) :
    (FlagCodec.new secret q).parse hmac
        (before ++ (FlagCodec.new secret p).issue hmac o.toInt c.toInt i.toInt e.toInt ++ after) =
      if (FlagCodec.new secret p).flagPrefix = (FlagCodec.new secret q).flagPrefix then
        some ⟨(FlagCodec.new secret p).issue hmac o.toInt c.toInt i.toInt e.toInt, o.toInt, c.toInt,
          i.toInt, e.toInt⟩
      else none := by
  have htrim := @trimSpace_issue hmac secret p _ _ o.toInt c.toInt i.toInt e.toInt hbefore hafter
  split
  · rename_i hfront
    refine parse_eq_some_iff.mpr
      ⟨Base64.encode (bytes (payload o.toInt c.toInt i.toInt e.toInt)), ?_, htrim.trans ?_, ?_⟩
    · exact Base64.dot_notMem_encode _
    · rw [issue, hfront]
      simp only [FlagCodec.new, String.append_assoc]
    · rw [Base64.decode_encode, Option.bind_some, htrim, parsePayload_payload]
  · rename_i hfront
    refine Option.eq_none_iff_forall_ne_some.mpr fun claims h => hfront ?_
    exact prefix_eq_of_parse htrim h

/-- The payloads of issued flags, as they are signed. -/
def signedPayloads (issued : Set (Int64 × Int64 × Int64 × Int64)) : Set String :=
  (fun (o, c, i, e) => Base64.encode (bytes (payload o.toInt c.toInt i.toInt e.toInt))) '' issued

/-- What is read as a flag has a payload that was signed. -/
theorem parse_signed {issued : Set (Int64 × Int64 × Int64 × Int64)}
    (hsigned : Unforgeable hmac codec.secret (signedPayloads issued) value)
    (h : codec.parse hmac value = some claims) : ∃ o c i e : Int64, (o, c, i, e) ∈ issued ∧
      claims = ⟨trimSpace value, o.toInt, c.toInt, i.toInt, e.toInt⟩ := by
  obtain ⟨encoded, hdot, htext, hclaims⟩ := parse_eq_some_iff.mp h
  have hfound : (encoded ++ "." ++ hexEncode (hmac codec.secret encoded)).toList <:+:
      value.toList := by
    refine List.IsInfix.trans ?_ (infix_trimSpace value)
    rw [htext, toList_framed]
    exact ⟨_, _, List.append_assoc ..⟩
  obtain ⟨⟨o, c, i, e⟩, hissued, hencoded⟩ := hsigned encoded hfound
  dsimp only at hencoded
  rw [← hencoded, Base64.decode_encode, Option.bind_some, parsePayload_payload] at hclaims
  exact ⟨o, c, i, e, hissued, (Option.some.inj hclaims).symm⟩

/-- Flags are read back with the prefix they were issued with and with no other; no text is sliced
out of range; and what is accepted carries a payload that was signed with the secret. -/
theorem flags_read_back (hmac : MAC) (secret : String) :
    (∀ p q before after : String, (∀ c ∈ before.toList, isSpace c = true) →
      (∀ c ∈ after.toList, isSpace c = true) → ∀ o c i e : Int64,
      (FlagCodec.new secret q).parse hmac
          (before ++ (FlagCodec.new secret p).issue hmac o.toInt c.toInt i.toInt e.toInt ++ after) =
        if (FlagCodec.new secret p).flagPrefix = (FlagCodec.new secret q).flagPrefix then
          some ⟨(FlagCodec.new secret p).issue hmac o.toInt c.toInt i.toInt e.toInt, o.toInt,
            c.toInt, i.toInt, e.toInt⟩
        else none) ∧
    (∀ (codec : FlagCodec) (value : String),
      if codec.opens value then ∃ body : String, codec.sliceBody value = some (bytes body) ∧
        codec.parse hmac value = codec.parseBody hmac (trimSpace value) body.toList
      else codec.parse hmac value = none) ∧
    (∀ (q value : String) (issued : Set (Int64 × Int64 × Int64 × Int64)) (claims : FlagClaims),
      Unforgeable hmac (FlagCodec.new secret q).secret (signedPayloads issued) value →
      (FlagCodec.new secret q).parse hmac value = some claims →
      ∃ o c i e : Int64, (o, c, i, e) ∈ issued ∧
        claims = ⟨trimSpace value, o.toInt, c.toInt, i.toInt, e.toInt⟩) := by
  refine ⟨fun p q before after hbefore hafter => parse_issue hmac secret p q hbefore hafter, ?_,
    fun q value issued claims => parse_signed⟩
  intro codec value
  split
  · rename_i hopens
    obtain ⟨body, hbody⟩ := opens_iff.mp hopens
    exact ⟨body, sliceBody_eq hbody, parse_of_body hbody⟩
  · rename_i hopens
    exact parse_of_not_opens (Bool.eq_false_iff.mpr hopens)

/-- The signature of one payload under the secret of the local set-up. -/
def localSignature : MAC := fun secret text =>
  if secret = "dev-flag-secret" ∧ text = "NzozOjQyOjQ3" then
    [169, 218, 20, 159, 250, 185, 255, 231, 95, 192, 137, 26, 106, 189, 50, 132, 220, 204, 210, 118,
      225, 38, 133, 233, 7, 8, 38, 5, 85, 143, 202, 122]
  else List.replicate 32 0

/-- The flag of team 7 for challenge 3, with a prefix that has a brace and a dot in it. -/
theorem flags_read_back_braces :
    (FlagCodec.new " dev-flag-secret" "CTF\x7b.x\n").parse localSignature
        ("\t\r\n " ++ (FlagCodec.new " dev-flag-secret" "CTF\x7b.x").issue localSignature
          7 3 42 47 ++
          "\t\r\n ") =
      some ⟨(FlagCodec.new " dev-flag-secret" "CTF\x7b.x").issue localSignature 7 3 42 47, 7, 3, 42,
        47⟩ ∧
    (FlagCodec.new " dev-flag-secret" "CTF").parse localSignature
        ("\t\r\n " ++ (FlagCodec.new " dev-flag-secret" "CTF\x7b.x").issue localSignature
          7 3 42 47 ++
          "\t\r\n ") = none ∧
    ∃ o c i e : Int64, (o, c, i, e) ∈ ({(7, 3, 42, 47)} : Set (Int64 × Int64 × Int64 × Int64)) ∧
      (⟨(FlagCodec.new " dev-flag-secret" "CTF").issue localSignature 7 3 42 47, 7, 3, 42, 47⟩ :
        FlagClaims) = ⟨trimSpace ((FlagCodec.new " dev-flag-secret" "CTF").issue localSignature 7 3
          42 47), o.toInt, c.toInt, i.toInt, e.toInt⟩ := by
  obtain ⟨hread, -, hsigned⟩ := flags_read_back localSignature " dev-flag-secret"
  have hspaces : ∀ c ∈ "\t\r\n ".toList, isSpace c = true := List.all_eq_true.mp (by decide)
  refine ⟨?_, ?_, ?_⟩
  · have hsame := hread "CTF\x7b.x" "CTF\x7b.x\n" "\t\r\n " "\t\r\n " hspaces hspaces 7 3 42 47
    rwa [if_pos (by decide)] at hsame
  · have hother := hread "CTF\x7b.x" "CTF" "\t\r\n " "\t\r\n " hspaces hspaces 7 3 42 47
    rwa [if_neg (by decide)] at hother
  · refine hsigned "CTF" _ {(7, 3, 42, 47)} _ ?_ (by decide +kernel)
    intro text hfound
    by_cases htext : text = "NzozOjQyOjQ3"
    · exact ⟨_, rfl, htext ▸ by decide +kernel⟩
    · have hzero : localSignature (FlagCodec.new " dev-flag-secret" "CTF").secret text =
          List.replicate 32 0 := if_neg fun h => htext h.2
      rw [hzero, String.toList_append] at hfound
      have hzeros := (List.suffix_append _ _).isInfix.trans hfound
      exact absurd hzeros (by decide +kernel)

end FlagCodec

end ADPlatform.GameCore
