import ADPlatform.APIGateway.Store

/-! # WireGuard peers

How the API gateway issues the WireGuard peer of a player. -/

namespace ADPlatform.APIGateway
open Text

/-- What the environment says about the WireGuard server. -/
structure WireGuardServerProfile where
  endpoint : String
  publicKey : String
  allowedIPs : String := "10.70.0.0/16,10.80.0.0/16"
  dns : String := "1.1.1.1"
  deriving DecidableEq, Repr

/-- The surroundings of a call that issues a peer: the public keys of X25519, and the profile of
the server, or what is wrong with the environment. -/
structure WireGuardInput extends StoreInput where
  x25519 : List UInt8 → List UInt8 := id
  profile : Except String WireGuardServerProfile

/-- `renderWireGuardConfig`: the file a player loads. -/
def renderWireGuardConfig (state : WireGuardPeerState) : String :=
  "# AD Platform WireGuard peer: " ++ state.wireGuardPeer ++
  "\n# Player: " ++ state.displayName ++ " (" ++ state.teamName ++
  ")\n[Interface]\nPrivateKey = " ++ state.clientPrivateKey ++
  "\nAddress = " ++ state.address ++
  "/32\nDNS = " ++ state.dns ++
  "\n\n[Peer]\nPublicKey = " ++ state.serverPublicKey ++
  "\nPresharedKey = " ++ state.presharedKey ++
  "\nAllowedIPs = " ++ state.allowedIPs ++
  "\nEndpoint = " ++ state.serverEndpoint ++
  "\nPersistentKeepalive = 25\n"

namespace WireGuardInput
variable (input : WireGuardInput)

/-- `generateX25519Keypair`, at the `i`-th read of the random source. -/
def generateX25519Keypair (i : Nat) : Except StoreError (String × String) :=
  match input.random i with
  | .ok raw => .ok (Base64.stdEncode raw, Base64.stdEncode (input.x25519 raw))
  | .error message => .error (.failure message)

/-- `generateWireGuardSecret`. -/
def generateWireGuardSecret (i : Nat) : Except StoreError String :=
  match input.random i with
  | .ok raw => .ok (Base64.stdEncode raw)
  | .error message => .error (.failure message)

/-- `currentWireGuardServerProfile`. -/
def currentWireGuardServerProfile : Except StoreError WireGuardServerProfile :=
  match input.profile with
  | .ok profile => .ok profile
  | .error message => .error (.failure message)

/-- The peer is rendered once its keys are in place. -/
def newWireGuardPeerState (playerID teamID : Int) (teamName displayName wireGuardPeer : String)
    (address : String) : Except StoreError WireGuardPeerState :=
  if trimSpace address = "" then .error .playerAddressPool
  else do
    let (clientPrivateKey, clientPublicKey) ← input.generateX25519Keypair 0
    let presharedKey ← input.generateWireGuardSecret 1
    let profile ← input.currentWireGuardServerProfile
    let state : WireGuardPeerState := {
      playerID, teamID, teamName, displayName, wireGuardPeer, address
      status := .active
      serverEndpoint := profile.endpoint
      serverPublicKey := profile.publicKey
      clientPrivateKey, clientPublicKey, presharedKey
      allowedIPs := profile.allowedIPs
      dns := profile.dns
      issuedAt := input.now.formatRFC3339 }
    return { state with config := renderWireGuardConfig state }

/-- The peer with the profile that the environment has now. -/
def refreshWireGuardPeerState (state : WireGuardPeerState) :
    Except StoreError WireGuardPeerState := do
  let profile ← input.currentWireGuardServerProfile
  let updated := { state with
    serverEndpoint := profile.endpoint
    serverPublicKey := profile.publicKey
    allowedIPs := profile.allowedIPs
    dns := profile.dns }
  return { updated with config := renderWireGuardConfig updated }

variable {input}

/-- A new peer has the address that was asked for, and its status is `active`. -/
theorem newWireGuardPeerState_ok {playerID teamID : Int}
    {teamName displayName peer address : String}
    {state : WireGuardPeerState}
    (h : input.newWireGuardPeerState playerID teamID teamName displayName peer address =
      .ok state) :
    state.address = address ∧ state.status = .active := by
  simp only [newWireGuardPeerState] at h
  split at h
  · cases h
  · cases hkeys : input.generateX25519Keypair
      0 <;> cases hsecret : input.generateWireGuardSecret 1 <;>
      cases hprofile : input.currentWireGuardServerProfile <;>
      simp only [hkeys, hsecret, hprofile, bind, Except.bind, pure, Except.pure, reduceCtorEq,
        Except.ok.injEq] at h
    rw [← h]
    exact ⟨rfl, rfl⟩

end WireGuardInput

/-! ## Addresses -/

/-- `wireGuardPeerAddressPoolSize`. -/
def wireGuardPeerAddressPoolSize : Nat := 50800

/-- `wireGuardPeerAddressAt`: 200 addresses of every third octet. -/
def wireGuardPeerAddressAt (index : Nat) : String :=
  "10.70." ++ (index / 200 + 1).repr ++ "." ++ (index % 200 + 20).repr

/-! ## The answer to an organizer -/

/-- The loop of `sanitizeWireGuardDownloadStem`: a run of separators keeps its first one, and other
characters separate like a dash. -/
def stemChars : (started previousSeparator : Bool) → List Char → List Char
  | _, _, [] => []
  | started, previousSeparator, c :: cs =>
    if ('a' ≤ c ∧ c ≤ 'z') ∨ ('0' ≤ c ∧ c ≤ '9') then c :: stemChars true false cs
    else if started && !previousSeparator then
      (if c ∈ ['-', '_', '.'] then c else '-') :: stemChars true true cs
    else stemChars started previousSeparator cs

/-- `sanitizeWireGuardDownloadStem`. -/
def sanitizeWireGuardDownloadStem (value : String) : String :=
  let isSeparator : Char → Bool := (· ∈ ['-', '_', '.'])
  let stem := (stemChars false false (toLower (trimSpace value)).toList).dropWhile isSeparator
  String.ofList (stem.reverse.dropWhile isSeparator).reverse

/-- `wireGuardDownloadName`: the part of the email before the at sign, or the fallback. -/
def wireGuardDownloadName (usernameSource fallback : String) : String :=
  let username := String.ofList ((trimSpace usernameSource).toList.takeWhile (· ≠ '@'))
  let stem := sanitizeWireGuardDownloadStem username
  let stem := if stem = "" then sanitizeWireGuardDownloadStem fallback else stem
  (if stem = "" then "wireguard" else stem) ++ ".conf"

/-- The peer as an organizer sees it, without its private keys. -/
structure AdminWireGuardPeer where
  playerID : Int
  teamID : Int
  teamName : String
  displayName : String
  email : String
  wireGuardPeer : String
  address : String
  status : WireGuardPeerStatus
  serverEndpoint : String
  serverPublicKey : String
  clientPublicKey : String
  allowedIPs : String
  dns : String
  config : String
  downloadName : String
  issuedAt : GameCore.Stamp
  revokedAt : GameCore.Stamp
  deriving DecidableEq, Repr

/-- The peer as organizers see it. -/
def wireGuardAdminView (state : WireGuardPeerState) (email : String) : AdminWireGuardPeer where
  playerID := state.playerID
  teamID := state.teamID
  teamName := state.teamName
  displayName := state.displayName
  email
  wireGuardPeer := state.wireGuardPeer
  address := state.address
  status := state.status
  serverEndpoint := state.serverEndpoint
  serverPublicKey := state.serverPublicKey
  clientPublicKey := state.clientPublicKey
  allowedIPs := state.allowedIPs
  dns := state.dns
  config := state.config
  downloadName := wireGuardDownloadName email state.wireGuardPeer
  issuedAt := state.issuedAt
  revokedAt := state.revokedAt

end ADPlatform.APIGateway
