import ADPlatform.APIGateway.Sessions
import ADPlatform.GameCore.Flags

/-! # Tokens of participants

`issueTeamJWT` and `verifyTeamJWT` on the texts of tokens. A role is the text that it is in the
source. The tokens of the sessions are what is read from these texts (`claimsOf_ofSession`,
`checkClaims_ofSession`). -/

namespace ADPlatform.APIGateway.TeamToken
open GameCore (MAC Time)
open Text

/-- `authenticatedPlayer`. -/
structure Player where
  playerID : Int
  teamID : Int
  teamName : String
  teamContactEmail : String
  displayName : String
  email : String
  role : String
  sessionVersion : Int
  deriving DecidableEq, Repr

/-- `teamTokenClaims`. -/
structure Claims where
  teamID : Int
  playerID : Int
  teamName : String
  teamContactEmail : String
  displayName : String
  email : String
  role : String
  sessionVersion : Int
  issuedAt : Int
  expiresAt : Int
  deriving DecidableEq, Repr

/-- `encoding/json`, on the header and on the claims of a token. -/
structure JSON where
  marshalHeader : List (String × String) → List UInt8
  marshalClaims : Claims → List UInt8
  unmarshalHeader : List UInt8 → Option (List (String × String))
  unmarshalClaims : List UInt8 → Option Claims

/-- The algorithm and the type of a token, with its keys in order. -/
def header : List (String × String) := [("alg", "HS256"), ("typ", "JWT")]

/-- Is this an organizer's role, in any case? -/
def isOrganizer (T : CaseTable) (role : String) : Bool := T.equalFold (trimSpace role) "organizer"

/-- `canonicalSessionPlayer`: an organizer belongs to no team. -/
def canonicalSessionPlayer (T : CaseTable) (player : Player) : Player :=
  if isOrganizer T player.role then
    { player with teamID := 0, teamName := "Organizer", teamContactEmail := "" }
  else player

/-- The claims of a player's token. -/
def claimsOf (T : CaseTable) (player : Player) (now : Time) : Claims :=
  let player := canonicalSessionPlayer T player
  { teamID := player.teamID
    playerID := player.playerID
    teamName := player.teamName
    teamContactEmail := player.teamContactEmail
    displayName := player.displayName
    email := player.email
    role := player.role
    sessionVersion := if player.sessionVersion < 1 then 1 else player.sessionVersion
    issuedAt := unix now
    expiresAt := unix (now + hours 24) }

variable (T : CaseTable) (json : JSON) (hmac : MAC) (secret : String)

/-- Header and claims, as they are signed. -/
def signingInput (player : Player) (now : Time) : String :=
  Base64.encode (json.marshalHeader header) ++ "." ++
    Base64.encode (json.marshalClaims (claimsOf T player now))

/-- Without a secret no token is issued. -/
def issueTeamJWT (player : Player) (now : Time) : Option String :=
  if trimSpace secret = "" then none
  else
    let signed := signingInput T json player now
    some (signed ++ "." ++ Base64.encode (hmac secret signed))

/-- The value of a key, blank if it is missing. -/
def get (entries : List (String × String)) (key : String) : String := (entries.lookup key).getD ""

/-- What `verifyTeamJWT` checks last. -/
def checkClaims (claims : Claims) (now : Time) : Option Claims :=
  if claims.playerID ≤ 0 ∨ claims.sessionVersion < 1 ∨ claims.expiresAt ≤ unix now then none
  else if isOrganizer T claims.role then
    if claims.teamID ≠ 0 then none else some claims
  else some claims

/-- Every way to fail is `ErrInvalidTeamToken`. -/
def verifyTeamJWT (token : String) (now : Time) : Option Claims :=
  if trimSpace secret = "" then none
  else match token.toList.splitOn '.' with
  | [headerPart, claimsPart, signaturePart] => do
    let signed := String.ofList headerPart ++ "." ++ String.ofList claimsPart
    let providedSignature ← Base64.decode signaturePart
    if providedSignature ≠ hmac secret signed then none
    let headerBytes ← Base64.decode headerPart
    let entries ← json.unmarshalHeader headerBytes
    if get entries "alg" ≠ "HS256" ∨ get entries "typ" ≠ "JWT" then none
    let payloadBytes ← Base64.decode claimsPart
    let claims ← json.unmarshalClaims payloadBytes
    checkClaims T claims now
  | _ => none

variable {T json hmac secret} {player : Player} {now later : Time} {token : String}
  {claims : Claims}

/-- The claims are accepted at the time. -/
def Accepts (T : CaseTable) (now : Time) (claims : Claims) : Prop :=
  0 < claims.playerID ∧ 1 ≤ claims.sessionVersion ∧ unix now < claims.expiresAt ∧
    (isOrganizer T claims.role = true → claims.teamID = 0)

theorem checkClaims_eq_some_iff {claims' : Claims} :
    checkClaims T claims now = some claims' ↔ claims = claims' ∧ Accepts T now claims := by
  unfold checkClaims
  split
  · rename_i h
    refine iff_of_false nofun ?_
    rintro ⟨-, hplayer, hversion, hexpires, -⟩
    omega
  rename_i h
  simp only [not_or, not_le, not_lt] at h
  have hrest : Accepts T now claims ↔ (isOrganizer T claims.role = true → claims.teamID = 0) :=
    ⟨fun h => h.2.2.2, fun hteam => ⟨h.1, h.2.1, h.2.2, hteam⟩⟩
  rw [hrest]
  split
  · rename_i horganizer
    split
    · rename_i hteam
      simp [horganizer, hteam]
    · rename_i hteam
      simp [not_not.mp hteam]
  · rename_i hother
    simp [hother]

/-- The three parts of a token. -/
theorem splitOn_eq_triple {α : Type} [BEq α] [LawfulBEq α] {l a b c : List α} {d : α} :
    l.splitOn d = [a, b, c] ↔ d ∉ a ∧ d ∉ b ∧ d ∉ c ∧ l = a ++ d :: (b ++ d :: c) := by
  constructor
  · intro h
    have hjoin : [d].intercalate (l.splitOn d) = l := List.intercalate_splitOn d
    rw [h] at hjoin
    refine ⟨notMem_of_mem_splitOn (l := l) (by simp [h]),
      notMem_of_mem_splitOn (l := l) (by simp [h]),
      notMem_of_mem_splitOn (l := l) (by simp [h]), ?_⟩
    simpa using hjoin.symm
  · rintro ⟨ha, hb, hc, rfl⟩
    rw [List.splitOn_append_cons_self_of_not_mem ha, splitOn_eq_pair.mpr ⟨hb, hc, rfl⟩]

/-- Which tokens are read, and as what. -/
theorem verifyTeamJWT_eq_some_iff (hsecret : trimSpace secret ≠ "") :
    verifyTeamJWT T json hmac secret token now = some claims ↔
      ∃ headerPart claimsPart signaturePart, token.toList.splitOn '.' =
        [headerPart, claimsPart, signaturePart] ∧
        Base64.decode signaturePart =
          some (hmac secret (String.ofList headerPart ++ "." ++ String.ofList claimsPart)) ∧
        (∃ entries, (Base64.decode headerPart).bind json.unmarshalHeader = some entries ∧
          get entries "alg" = "HS256" ∧ get entries "typ" = "JWT") ∧
        (Base64.decode claimsPart).bind json.unmarshalClaims = some claims ∧
          Accepts T now claims := by
  rw [verifyTeamJWT, if_neg hsecret]
  constructor
  · intro h
    split at h
    · rename_i headerPart claimsPart signaturePart hparts
      obtain ⟨provided, hprovided, h⟩ := Option.bind_eq_some_iff.mp h
      split at h
      · cases h
      rename_i hsigned
      rw [not_not] at hsigned
      obtain ⟨headerBytes, hheader, h⟩ := Option.bind_eq_some_iff.mp h
      obtain ⟨entries, hentries, h⟩ := Option.bind_eq_some_iff.mp h
      split at h
      · cases h
      rename_i hkeys
      obtain ⟨halg, htyp⟩ := not_or.mp hkeys
      obtain ⟨payloadBytes, hpayload, h⟩ := Option.bind_eq_some_iff.mp h
      obtain ⟨claims', hclaims, h⟩ := Option.bind_eq_some_iff.mp h
      obtain ⟨rfl, haccepts⟩ := checkClaims_eq_some_iff.mp h
      refine ⟨headerPart, claimsPart, signaturePart, hparts, hsigned ▸ hprovided, ⟨entries, ?_,
        not_not.mp halg, not_not.mp htyp⟩, ?_, haccepts⟩
      · rw [hheader]
        exact hentries
      · rw [hpayload]
        exact hclaims
    · cases h
  · rintro ⟨headerPart, claimsPart, signaturePart, hparts, hsigned, ⟨entries, hentries, halg, htyp⟩,
      hclaims, haccepts⟩
    obtain ⟨headerBytes, hheader, hentries⟩ := Option.bind_eq_some_iff.mp hentries
    obtain ⟨payloadBytes, hpayload, hclaims⟩ := Option.bind_eq_some_iff.mp hclaims
    have hcheck := checkClaims_eq_some_iff.mpr ⟨rfl, haccepts⟩
    simp [hparts, hsigned, hheader, hentries, halg, htyp, hpayload, hclaims, hcheck]

/-! ## Issued tokens -/

/-- The header and these claims can be read back. -/
structure JSON.RoundTrips (json : JSON) (claims : Claims) : Prop where
  header : json.unmarshalHeader (json.marshalHeader header) = some header
  claims : json.unmarshalClaims (json.marshalClaims claims) = some claims

theorem unix_day (now : Time) : unix (now + hours 24) = unix now + 86400 := by
  unfold unix hours
  omega

theorem accepts_claimsOf :
    Accepts T later (claimsOf T player now) ↔
      0 < player.playerID ∧ unix later < unix now + 86400 := by
  have hplayer : (canonicalSessionPlayer T player).playerID = player.playerID := by
    unfold canonicalSessionPlayer
    split <;> rfl
  have hteam : isOrganizer T (canonicalSessionPlayer T player).role = true →
      (canonicalSessionPlayer T player).teamID = 0 := by
    unfold canonicalSessionPlayer
    split
    · exact fun _ => rfl
    · exact fun h => absurd h ‹_›
  have hversion : 1 ≤ (claimsOf T player now).sessionVersion := by
    simp only [claimsOf]
    omega
  constructor
  · rintro ⟨hid, -, hexpires, -⟩
    exact ⟨hplayer ▸ hid, unix_day now ▸ hexpires⟩
  · rintro ⟨hid, hexpires⟩
    exact ⟨hid.trans_eq hplayer.symm, hversion, hexpires.trans_eq (unix_day now).symm, hteam⟩

/-- The canonical player's fields, and the times of a token that is issued now. -/
theorem claimsOf_eq (T : CaseTable) (player : Player) (now : Time) :
    let canonical := canonicalSessionPlayer T player
    claimsOf T player now = {
      teamID := canonical.teamID
      playerID := canonical.playerID
      teamName := canonical.teamName
      teamContactEmail := canonical.teamContactEmail
      displayName := canonical.displayName
      email := canonical.email
      role := canonical.role
      sessionVersion := max player.sessionVersion 1
      issuedAt := unix now
      expiresAt := unix now + 86400 } := by
  have hversion : (canonicalSessionPlayer T player).sessionVersion = player.sessionVersion := by
    unfold canonicalSessionPlayer
    split <;> rfl
  have hmax : (if player.sessionVersion < 1 then 1 else player.sessionVersion) =
      max player.sessionVersion 1 := by
    omega
  simp only [claimsOf, unix_day, hversion, hmax]

/-- The parts of an issued token. -/
theorem splitOn_issued (h : issueTeamJWT T json hmac secret player now = some token) :
    token.toList.splitOn '.' = [(Base64.encode (json.marshalHeader header)).toList,
      (Base64.encode (json.marshalClaims (claimsOf T player now))).toList,
      (Base64.encode (hmac secret (signingInput T json player now))).toList] := by
  unfold issueTeamJWT at h
  split at h
  · cases h
  cases h
  refine splitOn_eq_triple.mpr ⟨Base64.dot_notMem_encode _, Base64.dot_notMem_encode _,
    Base64.dot_notMem_encode _, ?_⟩
  simp [signingInput, String.toList_append]

theorem verify_issued (hsecret : trimSpace secret ≠ "")
    (hjson : json.RoundTrips (claimsOf T player now))
    (h : issueTeamJWT T json hmac secret player now = some token) :
    verifyTeamJWT T json hmac secret token later = some claims ↔
      0 < player.playerID ∧ unix later < unix now + 86400 ∧ claims = claimsOf T player now := by
  have hsplit := splitOn_issued h
  rw [verifyTeamJWT_eq_some_iff hsecret]
  have hclaims :
      (Base64.decode (Base64.encode (json.marshalClaims (claimsOf T player now))).toList).bind
      json.unmarshalClaims = some (claimsOf T player now) := by
    rw [Base64.decode_encode, Option.bind_some, hjson.claims]
  constructor
  · rintro ⟨headerPart, claimsPart, signaturePart, hparts, -, -, hread, haccepts⟩
    rw [hsplit] at hparts
    cases hparts
    rw [hclaims] at hread
    obtain rfl := Option.some.inj hread
    obtain ⟨hplayer, hexpires⟩ := accepts_claimsOf.mp haccepts
    exact ⟨hplayer, hexpires, rfl⟩
  · rintro ⟨hplayer, hexpires, rfl⟩
    refine ⟨_, _, _, hsplit, ?_, ⟨header, ?_, rfl, rfl⟩, hclaims,
      accepts_claimsOf.mpr ⟨hplayer, hexpires⟩⟩
    · rw [Base64.decode_encode, String.ofList_toList, String.ofList_toList]
      rfl
    · rw [Base64.decode_encode, Option.bind_some, hjson.header]

/-! ## Forged tokens -/

/-- Whatever a token has a signature of was signed: nobody else makes one. -/
def Unforgeable (hmac : MAC) (secret : String) (signed : Set String) (token : String) : Prop :=
  ∀ text signature : String, token = text ++ "." ++ signature →
    Base64.decode signature.toList = some (hmac secret text) → text ∈ signed

/-- What is signed with the secret are tokens. -/
def signedTexts (T : CaseTable) (json : JSON) : Set String :=
  {text | ∃ player now, text = signingInput T json player now}

theorem issued_of_verified (hsecret : trimSpace secret ≠ "")
    (hforge : Unforgeable hmac secret (signedTexts T json) token)
    (h : verifyTeamJWT T json hmac secret token later = some claims) :
    ∃ player now issued headerPart claimsPart signature signature',
      issueTeamJWT T json hmac secret player now = some issued ∧
      token.toList.splitOn '.' = [headerPart, claimsPart, signature] ∧
      issued.toList.splitOn '.' = [headerPart, claimsPart, signature'] := by
  obtain ⟨headerPart, claimsPart, signaturePart, hparts, hsigned, -⟩ :=
    (verifyTeamJWT_eq_some_iff hsecret).mp h
  obtain ⟨hheader, hclaims, -, htoken⟩ := splitOn_eq_triple.mp hparts
  have htext := hforge (String.ofList headerPart ++ "." ++ String.ofList claimsPart)
    (String.ofList signaturePart) ?_ ?_
  · obtain ⟨player, now, htext⟩ := htext
    obtain ⟨issued, hissue⟩ : ∃ issued, issueTeamJWT T json hmac secret player now = some issued :=
      ⟨_, if_neg hsecret⟩
    have hissued := splitOn_issued hissue
    obtain ⟨hheaderPart, hclaimsPart⟩ :=
      split_first_inj (by rwa [String.toList_ofList]) (Base64.dot_notMem_encode _) htext
    rw [← hheaderPart, ← hclaimsPart, String.toList_ofList, String.toList_ofList] at hissued
    exact ⟨player, now, issued, _, _, _, _, hissue, hparts, hissued⟩
  · rw [← String.toList_inj, htoken]
    simp
  · rw [String.toList_ofList]
    exact hsigned

/-- An issued token has one signature in it, behind its last dot. -/
theorem unforgeable_issued (h : issueTeamJWT T json hmac secret player now = some token) :
    Unforgeable hmac secret (signedTexts T json) token := by
  intro text signature htoken hsignature
  unfold issueTeamJWT at h
  split at h
  · cases h
  have hdot : '.' ∉ signature.toList := by
    intro hmem
    rw [Base64.decode_eq_none hmem Base64.dot_notMem_alphabet (by decide)] at hsignature
    cases hsignature
  obtain ⟨htext, -⟩ :=
    split_last_inj hdot (Base64.dot_notMem_encode _) (htoken.symm.trans (Option.some.inj h).symm)
  exact ⟨player, now, htext⟩

/-- A token is accepted for a day, as what it was issued for; and what is accepted was issued. -/
theorem verifyTeamJWT_issued_iff (T : CaseTable) (json : JSON) (hmac : MAC) (secret : String)
    (hsecret : trimSpace secret ≠ "") :
    (∀ player t₀ t, json.RoundTrips (claimsOf T player t₀) →
      ∃ token, issueTeamJWT T json hmac secret player t₀ = some token ∧
        ∀ claims, verifyTeamJWT T json hmac secret token t = some claims ↔
          0 < player.playerID ∧ unix t < unix t₀ + 86400 ∧
          let canonical := canonicalSessionPlayer T player
          claims = {
            teamID := canonical.teamID
            playerID := canonical.playerID
            teamName := canonical.teamName
            teamContactEmail := canonical.teamContactEmail
            displayName := canonical.displayName
            email := canonical.email
            role := canonical.role
            sessionVersion := max player.sessionVersion 1
            issuedAt := unix t₀
            expiresAt := unix t₀ + 86400 }) ∧
    ∀ token t claims, Unforgeable hmac secret (signedTexts T json) token →
      verifyTeamJWT T json hmac secret token t = some claims →
      ∃ player t₀ issued headerPart claimsPart signature signature',
        issueTeamJWT T json hmac secret player t₀ = some issued ∧
        token.toList.splitOn '.' = [headerPart, claimsPart, signature] ∧
        issued.toList.splitOn '.' = [headerPart, claimsPart, signature'] := by
  refine ⟨fun player t₀ t hjson => ⟨_, if_neg hsecret, fun claims => ?_⟩,
    fun token t claims hforge h => issued_of_verified hsecret hforge h⟩
  rw [verify_issued hsecret hjson (if_neg hsecret)]
  dsimp only
  rw [claimsOf_eq]

/-- An organizer, with a team and a role as another store might have left them. -/
def organizer : Player :=
  ⟨7, 104, "Blue", "blue@example.com", "Ada", "ada@example.com", " Organizer", 0⟩

/-- The claims of the organizer's token. -/
def organizerClaims : Claims :=
  ⟨0, 7, "Organizer", "", "Ada", "ada@example.com", " Organizer", 1, 1700000000, 1700086400⟩

/-- What is written for texts that need no escapes, and is read back for the organizer. -/
def plainJSON : JSON where
  marshalHeader _ := bytes "\x7b\"alg\":\"HS256\",\"typ\":\"JWT\"\x7d"
  marshalClaims := written
  unmarshalHeader bs :=
    if bs = bytes "\x7b\"alg\":\"HS256\",\"typ\":\"JWT\"\x7d" then some header else none
  unmarshalClaims bs := if bs = written organizerClaims then some organizerClaims else none
where
  written (claims : Claims) : List UInt8 := bytes <|
    "\x7b\"team_id\":" ++ claims.teamID.repr ++ ",\"player_id\":" ++ claims.playerID.repr ++
    ",\"team_name\":\"" ++ claims.teamName ++ "\",\"team_contact_email\":\"" ++
    claims.teamContactEmail ++
    "\",\"display_name\":\"" ++ claims.displayName ++ "\",\"email\":\"" ++ claims.email ++
    "\",\"role\":\"" ++ claims.role ++ "\",\"session_version\":" ++ claims.sessionVersion.repr ++
    ",\"iat\":" ++ claims.issuedAt.repr ++ ",\"exp\":" ++ claims.expiresAt.repr ++ "\x7d"

/-- The signature of the organizer's token under the secret of the local set-up. -/
def organizerMAC : MAC := fun secret text =>
  if secret = "dev-team-secret" ∧ text = "eyJhbGciOiJIUzI1NiIsInR5cCI6IkpXVCJ9." ++
      "eyJ0ZWFtX2lkIjowLCJwbGF5ZXJfaWQiOjcsInRlYW1fbmFtZSI6Ik9yZ2FuaXplciIsInRlYW1fY29udGFjdF9lbWFpbCI6" ++
      "IiIsImRpc3BsYXlfbmFtZSI6IkFkYSIsImVtYWlsIjoiYWRhQGV4YW1wbGUuY29tIiwicm9sZSI6IiBPcmdhbml6ZXIiLCJz" ++
      "ZXNzaW9uX3ZlcnNpb24iOjEsImlhdCI6MTcwMDAwMDAwMCwiZXhwIjoxNzAwMDg2NDAwfQ" then
    [234, 201, 167, 21, 36, 238, 75, 192, 21, 72, 132, 148, 203, 83, 36, 240, 85, 221,
    164, 61, 28, 62,
      119, 22, 80, 239, 147, 40, 40, 246, 56, 233]
  else List.replicate 32 0

/-- The token is accepted up to its last second, and it carries the parts of an issued one. -/
theorem verifyTeamJWT_issued_iff_organizer : ∃ token,
    issueTeamJWT .ascii plainJSON organizerMAC "dev-team-secret" organizer 1700000000999999999 =
      some token ∧
    verifyTeamJWT .ascii plainJSON organizerMAC "dev-team-secret" token 1700086399999999999 =
      some organizerClaims ∧
    ∃ player t₀ issued headerPart claimsPart signature signature',
      issueTeamJWT .ascii plainJSON organizerMAC "dev-team-secret" player t₀ = some issued ∧
      token.toList.splitOn '.' = [headerPart, claimsPart, signature] ∧
      issued.toList.splitOn '.' = [headerPart, claimsPart, signature'] := by
  obtain ⟨hissued, hforged⟩ :=
    verifyTeamJWT_issued_iff .ascii plainJSON organizerMAC "dev-team-secret" (by decide)
  obtain ⟨token, htoken, hverify⟩ := hissued organizer 1700000000999999999 1700086399999999999
    ⟨by decide, by decide +kernel⟩
  have hclaims := (hverify organizerClaims).mpr ⟨by decide, by decide, by decide +kernel⟩
  exact ⟨token, htoken, hclaims, hforged token _ _ (unforgeable_issued htoken) hclaims⟩

/-! ## The tokens of sessions -/

/-- The role's text in a token. -/
def roleText : Role → String
  | .organizer => "organizer"
  | .captain => "captain"
  | .member => "member"

/-- A session's player in the token code's terms. -/
def Player.ofSession (player : AuthenticatedPlayer) : Player :=
  ⟨player.playerID, player.teamID, player.teamName, player.teamContactEmail, player.displayName,
    player.email, roleText player.role, player.sessionVersion⟩

/-- A session's claims in the token code's terms. -/
def Claims.ofSession (claims : TeamTokenClaims) : Claims :=
  ⟨claims.teamID, claims.playerID, claims.teamName, claims.teamContactEmail, claims.displayName,
    claims.email, roleText claims.role, claims.sessionVersion, claims.issuedAt, claims.expiresAt⟩

theorem isOrganizer_roleText (hT : T.FoldsASCII) (role : Role) :
    isOrganizer T (roleText role) = decide (role = .organizer) := by
  have hascii : ∀ role : Role, ∀ c ∈ (trimSpace (roleText role)).toList, c.toNat < 128 := by
    intro role
    cases role
    all_goals exact List.forall_iff_forall_mem.mp (by decide)
  rw [isOrganizer, hT.equalFold_eq (hascii role) (List.forall_iff_forall_mem.mp (by decide))]
  cases role
  all_goals decide +kernel

theorem canonicalSessionPlayer_ofSession (hT : T.FoldsASCII) (player : AuthenticatedPlayer) :
    canonicalSessionPlayer T (.ofSession player) =
      .ofSession (APIGateway.canonicalSessionPlayer player) := by
  have hrole : isOrganizer T (Player.ofSession player).role = decide (player.role = .organizer) :=
    isOrganizer_roleText hT player.role
  unfold canonicalSessionPlayer APIGateway.canonicalSessionPlayer
  by_cases h : player.role = .organizer
  · rw [if_pos (hrole.trans (decide_eq_true h)), if_pos h]
    rfl
  · rw [if_neg (by simp [hrole, h]), if_neg h]

theorem claimsOf_ofSession (hT : T.FoldsASCII) (player : AuthenticatedPlayer) (now : Time) :
    claimsOf T (.ofSession player) now = .ofSession (APIGateway.issueTeamJWT player now) := by
  rw [claimsOf, canonicalSessionPlayer_ofSession hT]
  rfl

theorem checkClaims_ofSession (hT : T.FoldsASCII) (claims : TeamTokenClaims) (now : Time) :
    (checkClaims T (.ofSession claims) now).isSome = APIGateway.verifyTeamJWT claims now := by
  have hrole := isOrganizer_roleText hT claims.role
  simp only [checkClaims, APIGateway.verifyTeamJWT, Claims.ofSession, hrole]
  split
  · rename_i h
    have hrefused : (!(decide (claims.playerID ≤ 0) || decide (claims.sessionVersion < 1) ||
        decide (claims.expiresAt ≤ unix now))) = false := by
      rw [Bool.not_eq_false', Bool.or_eq_true, Bool.or_eq_true, decide_eq_true_eq,
        decide_eq_true_eq,
        decide_eq_true_eq, or_assoc]
      exact h
    rw [hrefused]
    rfl
  · rename_i h
    simp only [not_or] at h
    by_cases horganizer : claims.role = .organizer
    · by_cases hteam : claims.teamID = 0
      · simp [h, horganizer, hteam]
      · simp [h, horganizer, hteam]
    · simp [h, horganizer]

end ADPlatform.APIGateway.TeamToken
