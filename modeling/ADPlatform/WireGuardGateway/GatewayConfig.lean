import ADPlatform.WireGuardGateway.SyncConf

/-! # The configuration of the WireGuard gateway

The gateway writes one section for each peer that has passed its checks. What `wg syncconf` reads
from such a section depends on the peer alone (`linePeer`), so that the file says what it should
exactly if every section does (`carries_iff`). -/

namespace ADPlatform.WireGuardGateway
open APIGateway Net Text ConfigFile

/-! ## Rendering -/

/-- The settings of the server's interface. -/
structure WireGuardServerSettings where
  privateKey : String
  address : String
  listenPort : Int
  deriving DecidableEq, Repr

/-- The first `n` bytes of a text. The bytes of a character that is cut through are no text. -/
def cutBytes : Nat → List Char → List Char
  | _, [] => []
  | n, c :: cs =>
    if c.utf8Size ≤ n then c :: cutBytes (n - c.utf8Size) cs else List.replicate n '\ufffd'

/-- `sanitizeConfigComment`: one line of at most 96 bytes. -/
def sanitizeConfigComment (value : String) : String :=
  let cleaned :=
    trimSpace (value.map fun c => if c = '\n' || c = '\r' || isControl c then ' ' else c)
  if 96 < cleaned.utf8ByteSize then String.ofList (cutBytes 96 cleaned.toList) else cleaned

/-- What is written for one peer. -/
def renderPeer (peer : WireGuardGatewayPeer) : String :=
  "\n[Peer]\n" ++
  ("# " ++ sanitizeConfigComment peer.wireGuardPeer ++ " | " ++
  sanitizeConfigComment peer.displayName ++
    " | " ++ sanitizeConfigComment peer.teamName ++ "\n") ++
  ("PublicKey = " ++ peer.clientPublicKey ++ "\n") ++
  ("PresharedKey = " ++ peer.presharedKey ++ "\n") ++
  ("AllowedIPs = " ++ peer.address ++ "/32\n")

/-- What is written before the peers. -/
def renderHeader (settings : WireGuardServerSettings) (activePeers : Nat) : String :=
  "# AD Platform WireGuard gateway\n" ++ ("# Active peers: " ++ activePeers.repr ++ "\n") ++
  (if trimSpace settings.address ≠ "" then
    "# Interface address managed outside wg syncconf: " ++ settings.address ++ "\n" else "") ++
  "[Interface]\n" ++ ("PrivateKey = " ++ settings.privateKey ++ "\n") ++
  ("ListenPort = " ++ settings.listenPort.repr ++ "\n")

/-- `renderWireGuardGatewayConfig`. -/
def renderWireGuardGatewayConfig (settings : WireGuardServerSettings)
    (peers : List WireGuardGatewayPeer) : String :=
  peers.foldl (fun config peer => config ++ renderPeer peer) (renderHeader settings peers.length)

/-! ## What is meant -/

/-- The peer of the gateway, as a peer of WireGuard. -/
def syncPeer (peer : WireGuardGatewayPeer) : SyncPeer where
  publicKey := Base64.stdDecode (trimSpace peer.clientPublicKey).toList
  presharedKey :=
    if peer.presharedKey = "" then none else Base64.stdDecode (trimSpace peer.presharedKey).toList
  allowedIPs := ((parseIP (trimSpace peer.address)).bind to4).toList.map fun ip => (.v4 ip, 32)

/-- The file says what is meant, and nothing else. -/
def Carries (settings : WireGuardServerSettings) (peers : List WireGuardGatewayPeer) : Prop :=
  parseSyncConf (renderWireGuardGatewayConfig settings (activeWireGuardPeers peers)) =
    some { privateKey := Base64.stdDecode (trimSpace settings.privateKey).toList
           listenPort := some settings.listenPort.toNat
           peers := (activeWireGuardPeers peers).map syncPeer }

/-- The texts of the peer are canonical where it matters, and it has a preshared key. -/
structure PlainPeer (peer : WireGuardGatewayPeer) : Prop where
  publicKey : KeyLine peer.clientPublicKey
  presharedKey : peer.presharedKey ≠ ""
  presharedLine : KeyLine peer.presharedKey
  address : AddressLine peer.address

instance (settings : WireGuardServerSettings) (peers : List WireGuardGatewayPeer) :
    Decidable (Carries settings peers) := inferInstanceAs (Decidable (_ = _))

instance (peer : WireGuardGatewayPeer) : Decidable (PlainPeer peer) :=
  decidable_of_iff (KeyLine peer.clientPublicKey ∧ peer.presharedKey ≠ "" ∧
  KeyLine peer.presharedKey ∧
    AddressLine peer.address)
    ⟨fun h => ⟨h.1, h.2.1, h.2.2.1, h.2.2.2⟩, fun h => ⟨h.1, h.2, h.3, h.4⟩⟩

/-! ## Comments -/

theorem notMem_cutBytes {cs : List Char} (h : '\n' ∉ cs) (n : Nat) : '\n' ∉ cutBytes n cs := by
  induction cs generalizing n with
  | nil => exact List.not_mem_nil
  | cons c cs ih =>
    rw [List.mem_cons, not_or] at h
    rw [cutBytes]
    split
    · rw [List.mem_cons, not_or]
      exact ⟨h.1, ih h.2 _⟩
    · exact fun hmem => absurd (List.eq_of_mem_replicate hmem) (by decide)

/-- Whatever a name is, its comment is one line. -/
theorem notMem_sanitizeConfigComment (value : String) :
    '\n' ∉ (sanitizeConfigComment value).toList := by
  have hcleaned : '\n' ∉ (trimSpace (value.map fun c =>
      if c = '\n' || c = '\r' || isControl c then ' ' else c)).toList := by
    rw [toList_trimSpace]
    intro h
    have h := mem_of_mem_trim h
    rw [String.toList_map, List.mem_map] at h
    obtain ⟨c, -, hc⟩ := h
    split at hc
    · cases hc
    · rename_i hcontrol
      exact hcontrol (by simp [hc])
  unfold sanitizeConfigComment
  dsimp only
  split
  · rw [String.toList_ofList]
    exact notMem_cutBytes hcleaned 96
  · exact hcleaned

/-! ## Reading a peer -/

/-- What is read from the section of a peer. -/
def linePeer (peer : WireGuardGatewayPeer) : Option SyncPeer :=
  (lineKey peer.clientPublicKey).bind fun publicKey =>
    (lineKey peer.presharedKey).bind fun presharedKey =>
      (lineAddress peer.address).map fun ip =>
        { publicKey := some publicKey, presharedKey := some presharedKey, allowedIPs := [(ip, 32)] }

/-- The peer has passed the checks of the gateway. -/
structure ValidPeer (peer : WireGuardGatewayPeer) : Prop where
  publicKey : isValidWireGuardPublicKey peer.clientPublicKey = true
  presharedKey : peer.presharedKey = "" ∨ isValidWireGuardPublicKey peer.presharedKey = true
  address : isValidIP peer.address = true

theorem validPeer_of_mem {peers : List WireGuardGatewayPeer} {peer : WireGuardGatewayPeer}
    (h : peer ∈ activeWireGuardPeers peers) : ValidPeer peer := by
  have hchecks := (List.mem_filter.mp h).2
  simp only [Bool.and_eq_true, Bool.or_eq_true, decide_eq_true_eq] at hchecks
  obtain ⟨⟨⟨-, hpublic⟩, hshared⟩, haddress⟩ := hchecks
  exact ⟨hpublic, hshared, haddress⟩

theorem toList_renderPeer (peer : WireGuardGatewayPeer) : ∃ comment : List Char, '\n' ∉ comment ∧
    ∀ rest, (renderPeer peer).toList ++ rest =
      [] ++ '\n' :: ("[Peer]".toList ++ '\n' :: ('#' :: comment ++ '\n' ::
      (("PublicKey".toList ++ ' ' :: '=' :: ' ' :: peer.clientPublicKey.toList) ++ '\n' ::
      (("PresharedKey".toList ++ ' ' :: '=' :: ' ' :: peer.presharedKey.toList) ++ '\n' ::
      (("AllowedIPs".toList ++ ' ' :: '=' :: ' ' :: (peer.address.toList ++ "/32".toList)) ++
        '\n' :: rest))))) := by
  refine ⟨' ' :: (sanitizeConfigComment peer.wireGuardPeer ++ " | " ++
    sanitizeConfigComment peer.displayName ++ " | " ++ sanitizeConfigComment peer.teamName).toList,
    ?_, fun rest => by simp [renderPeer]⟩
  have hbar : '\n' ∉ " | ".toList := by decide
  simp only [List.mem_cons, String.toList_append, List.mem_append,
    notMem_sanitizeConfigComment, hbar,
    or_false]
  decide

/-- A section adds the peer that is read from it, whatever has been read before. -/
theorem read_renderPeer {peer : WireGuardGatewayPeer} (h : ValidPeer peer) (r : SyncReader)
    (rest : List Char) : syncConf.read r ((renderPeer peer).toList ++ rest) =
      (linePeer peer).bind fun p => syncConf.read (r.enter (.peer p)) rest := by
  obtain ⟨comment, hcomment, hrender⟩ := toList_renderPeer peer
  have hempty : syncConf.read r [] = some r := Grammar.read_blank nofun
  have hheading : syncConf.read r "[Peer]".toList = some (r.enter (.peer {})) := by
    rw [Grammar.read_line (by decide)]
    rfl
  have hnames (r : SyncReader) : syncConf.read r ('#' :: comment) = some r := by
    rw [Grammar.read_line (by simpa using hcomment)]
    exact Grammar.step_blank (readLine_comment comment)
  have hkeys : IsKey "PublicKey".toList ∧ IsKey "PresharedKey".toList ∧
      IsKey "AllowedIPs".toList := by
    decide
  have hpublic (p : SyncPeer) : syncConf.read (r.enter (.peer p))
      ("PublicKey".toList ++ ' ' :: '=' :: ' ' :: peer.clientPublicKey.toList) =
      (lineKey peer.clientPublicKey).map fun k => r.enter (.peer { p with publicKey := some k }) :=
    read_keyLine hkeys.1 _ (fun value => Option.map_map ..) (.inr h.publicKey)
  have hshared (p : SyncPeer) : syncConf.read (r.enter (.peer p))
      ("PresharedKey".toList ++ ' ' :: '=' :: ' ' :: peer.presharedKey.toList) =
      (lineKey peer.presharedKey).map fun k => r.enter (.peer { p with presharedKey := some k }) :=
    read_keyLine hkeys.2.1 _ (fun value => Option.map_map ..) h.presharedKey
  have haddress (p : SyncPeer) : syncConf.read (r.enter (.peer p))
      ("AllowedIPs".toList ++ ' ' :: '=' :: ' ' :: (peer.address.toList ++ "/32".toList)) =
      (lineAddress peer.address).map fun ip =>
        r.enter (.peer { p with allowedIPs := p.allowedIPs ++ [(ip, 32)] }) :=
    read_addressLine hkeys.2.2 (fun ips =>
      r.enter (.peer { p with allowedIPs := p.allowedIPs ++ ips }))
      (fun value => Option.map_map ..) h.address
  rw [hrender, Grammar.read_cons, hempty, Option.bind_some, Grammar.read_cons, hheading,
    Option.bind_some, Grammar.read_cons, hnames, Option.bind_some, Grammar.read_cons,
      hpublic, linePeer]
  cases lineKey peer.clientPublicKey with
  | none => rfl
  | some publicKey =>
    rw [Option.map_some, Option.bind_some, Option.bind_some, Grammar.read_cons, hshared]
    cases lineKey peer.presharedKey with
    | none => rfl
    | some presharedKey =>
      rw [Option.map_some, Option.bind_some, Option.bind_some, Grammar.read_cons, haddress]
      cases lineAddress peer.address with
      | none => rfl
      | some ip => rfl

/-- What is read from the section is what is meant exactly if its texts are plain. -/
theorem linePeer_eq_some {peer : WireGuardGatewayPeer} (h : ValidPeer peer) :
    linePeer peer = some (syncPeer peer) ↔ PlainPeer peer := by
  obtain ⟨publicKey, hpublic, hpublic32⟩ := isValidWireGuardPublicKey_iff.mp h.publicKey
  obtain ⟨ip, hip⟩ := isValidIP_to4 h.address
  have hpeer : syncPeer peer =
      { publicKey := some publicKey
        presharedKey :=
          if peer.presharedKey = "" then none else Base64.stdDecode (trim peer.presharedKey.toList)
        allowedIPs := [(.v4 ip, 32)] } := by
    rw [syncPeer, toList_trimSpace, toList_trimSpace, hpublic, hip]
    rfl
  have hread : linePeer peer = some (syncPeer peer) ↔
    lineKey peer.clientPublicKey = some publicKey ∧
      (∃ shared, lineKey peer.presharedKey = some shared ∧ (if peer.presharedKey = "" then none
        else Base64.stdDecode (trim peer.presharedKey.toList)) = some shared) ∧
      lineAddress peer.address = some (.v4 ip) := by
    rw [hpeer, linePeer]
    generalize (if peer.presharedKey = "" then none
      else Base64.stdDecode (trim peer.presharedKey.toList)) = meant
    cases lineKey peer.clientPublicKey with
    | none => simp
    | some k =>
      cases lineKey peer.presharedKey with
      | none => simp
      | some shared =>
        cases lineAddress peer.address with
        | none => simp
        | some read => simp [@eq_comm _ (some shared) meant]
  rw [hread, lineKey_eq_some hpublic hpublic32, lineAddress_eq_some hip]
  constructor
  · rintro ⟨hkey, ⟨shared, hline, hshared⟩, haddress⟩
    split at hshared
    · cases hshared
    rename_i hne
    exact ⟨hkey, hne, keyLine_of_lineKey (h.presharedKey.resolve_left hne) hline, haddress⟩
  · intro hplain
    have hvalid := h.presharedKey.resolve_left hplain.presharedKey
    obtain ⟨shared, hshared, hshared32⟩ := isValidWireGuardPublicKey_iff.mp hvalid
    refine ⟨hplain.publicKey, ⟨shared, ?_, ?_⟩, hplain.address⟩
    · exact (lineKey_eq_some hshared hshared32).mpr hplain.presharedLine
    · rw [if_neg hplain.presharedKey, hshared]

/-! ## Reading the file -/

theorem conf_foldl_enter (ps : List SyncPeer) (r : SyncReader) :
    (ps.foldl (fun r p => r.enter (.peer p)) r).conf =
      { r.conf with peers := r.conf.peers ++ ps } := by
  induction ps generalizing r with
  | nil => simp
  | cons p ps ih =>
    rw [List.foldl_cons, ih]
    simp [SyncReader.enter, SyncReader.conf, SyncSection.peers]

/-- The sections are read one after the other. -/
theorem read_renderPeers {peers : List WireGuardGatewayPeer} (h : ∀ peer ∈ peers, ValidPeer peer)
    (r : SyncReader) : syncConf.read r (peers.flatMap fun peer => (renderPeer peer).toList) =
      (peers.mapM linePeer).map fun ps => ps.foldl (fun r p => r.enter (.peer p)) r := by
  induction peers generalizing r with
  | nil => exact Grammar.read_blank nofun
  | cons peer peers ih =>
    rw [List.flatMap_cons, read_renderPeer (h peer List.mem_cons_self), List.mapM_cons]
    cases linePeer peer with
    | none => rfl
    | some p =>
      rw [Option.bind_some, ih fun peer hpeer => h peer (List.mem_cons_of_mem _ hpeer)]
      cases peers.mapM linePeer with
      | none => rfl
      | some ps => rfl

theorem toList_foldl_render (peers : List WireGuardGatewayPeer) (header : String) :
    (peers.foldl (fun config peer => config ++ renderPeer peer) header).toList =
      header.toList ++ peers.flatMap fun peer => (renderPeer peer).toList := by
  induction peers generalizing header with
  | nil => simp
  | cons peer peers ih =>
    rw [List.foldl_cons, ih, String.toList_append, List.flatMap_cons, List.append_assoc]

theorem parseNumber_repr (n : Nat) : parseNumber n.repr.toList = some n := by
  have hdigits : (Nat.toDigits 10 n).all Char.isDigit = true :=
    List.all_eq_true.mpr fun c hc => Nat.isDigit_of_mem_toDigits (by decide) (by decide) hc
  rw [parseNumber, Nat.toList_repr, if_pos ⟨Nat.toDigits_ne_nil, hdigits⟩,
    Nat.ofDigitChars_ten_toDigits]

theorem parsePort_repr (port : Int) :
    parsePort port.repr = if 0 ≤ port ∧ port ≤ 65535 then some port.toNat else none := by
  rw [parsePort, Int.repr_eq_if]
  by_cases hsign : 0 ≤ port
  · rw [if_pos hsign, parseNumber_repr]
    by_cases hlimit : port ≤ 65535
    · have : port.toNat ≤ 65535 := by omega
      simp [hsign, hlimit, this]
    · have : ¬ port.toNat ≤ 65535 := by omega
      rw [if_neg fun h => hlimit h.2]
      exact if_neg (by simpa using this)
  · have hminus : parseNumber ("-" ++ (-port).toNat.repr).toList = none := by
      have hdash : "-".toList = ['-'] := by decide
      rw [parseNumber, String.toList_append, hdash]
      exact if_neg fun h => absurd (List.all_eq_true.mp h.2 '-' List.mem_cons_self) (by decide)
    rw [if_neg hsign, hminus]
    simp [hsign]

theorem read_comment {comment : List Char} (h : '\n' ∉ comment) (r : SyncReader)
    (rest : List Char) :
    syncConf.read r ('#' :: comment ++ '\n' :: rest) = syncConf.read r rest := by
  have hline : '\n' ∉ '#' :: comment := by simpa using h
  rw [Grammar.read_cons, Grammar.read_line hline, Grammar.step_blank (readLine_comment comment)]
  rfl

theorem toList_renderHeader (settings : WireGuardServerSettings) (activePeers : Nat)
    (rest : List Char) : (renderHeader settings activePeers).toList ++ rest =
      '#' :: " AD Platform WireGuard gateway".toList ++ '\n' ::
      ('#' :: (" Active peers: ".toList ++ activePeers.repr.toList) ++ '\n' ::
      ((if trimSpace settings.address ≠ "" then
        '#' :: (" Interface address managed outside wg syncconf: ".toList ++
          settings.address.toList) ++ ['\n']
        else []) ++ ("[Interface]".toList ++ '\n' ::
      (("PrivateKey".toList ++ ' ' :: '=' :: ' ' :: settings.privateKey.toList) ++ '\n' ::
      (("ListenPort".toList ++ ' ' :: '=' :: ' ' :: settings.listenPort.repr.toList) ++
        '\n' :: rest))))) := by
  unfold renderHeader
  split
  · simp
  · simp

/-- What is read before the sections of the peers. -/
theorem read_renderHeader {settings : WireGuardServerSettings}
    (hkey : isValidWireGuardPublicKey settings.privateKey = true)
    (haddress : '\n' ∉ settings.address.toList) (activePeers : Nat) (rest : List Char) :
    syncConf.read {} ((renderHeader settings activePeers).toList ++ rest) =
      (lineKey settings.privateKey).bind fun privateKey =>
        (parsePort settings.listenPort.repr).bind fun listenPort =>
          syncConf.read
            ⟨{ privateKey := some privateKey, listenPort := some listenPort }, .interface⟩
            rest := by
  have hcount : '\n' ∉ " Active peers: ".toList ++ activePeers.repr.toList := by
    intro h
    rcases List.mem_append.mp h with h | h
    · exact absurd h (by decide)
    · rw [Nat.toList_repr] at h
      exact absurd (Nat.isDigit_of_mem_toDigits (by decide) (by decide) h) (by decide)
  have hmanaged (rest : List Char) : syncConf.read {} ((if trimSpace settings.address ≠ "" then
      '#' :: (" Interface address managed outside wg syncconf: ".toList ++
        settings.address.toList) ++ ['\n']
      else []) ++ rest) = syncConf.read {} rest := by
    split
    · rw [List.append_assoc]
      refine read_comment (fun h => ?_) {} rest
      rcases List.mem_append.mp h with h | h
      · exact absurd h (by decide)
      · exact haddress h
    · rfl
  have hheading : syncConf.read {} "[Interface]".toList = some ⟨{}, .interface⟩ := by
    rw [Grammar.read_line (by decide)]
    rfl
  have hkeys : IsKey "PrivateKey".toList ∧ IsKey "ListenPort".toList := by decide
  have hprivate : syncConf.read ⟨{}, .interface⟩
      ("PrivateKey".toList ++ ' ' :: '=' :: ' ' :: settings.privateKey.toList) =
      (lineKey settings.privateKey).map fun k => ⟨{ privateKey := some k }, .interface⟩ :=
    read_keyLine hkeys.1 _ (fun value => Option.map_map ..) (.inr hkey)
  have hdigits : '\n' ∉ settings.listenPort.repr.toList :=
    Decimal.not_mem (by decide) (by decide) settings.listenPort
  have htrim : trim settings.listenPort.repr.toList = settings.listenPort.repr.toList := by
    rw [← toList_trimSpace, trimSpace_eq_self fun c hc => ?_]
    rcases MemoryStore.mem_repr hc with hdigit | rfl
    · exact isSpace_of_isDigit hdigit
    · decide
  have hport (done : SyncConf) : syncConf.read ⟨done, .interface⟩
      ("ListenPort".toList ++ ' ' :: '=' :: ' ' :: settings.listenPort.repr.toList) =
      (parsePort settings.listenPort.repr).map fun n =>
        ⟨{ done with listenPort := some n }, .interface⟩ := by
    rw [Grammar.read_setting hkeys.2 hdigits, htrim, String.ofList_toList, String.ofList_toList]
    exact Option.map_map ..
  rw [toList_renderHeader, read_comment (by decide), read_comment hcount, hmanaged,
    Grammar.read_cons,
    hheading, Option.bind_some, Grammar.read_cons, hprivate]
  cases lineKey settings.privateKey with
  | none => rfl
  | some privateKey =>
    rw [Option.map_some, Option.bind_some, Option.bind_some, Grammar.read_cons, hport]
    cases parsePort settings.listenPort.repr with
    | none => rfl
    | some listenPort => rfl

theorem mapM_eq_map_iff {f : α → Option β} {g : α → β} {l : List α} :
    l.mapM f = some (l.map g) ↔ ∀ a ∈ l, f a = some (g a) := by
  induction l with
  | nil => simp
  | cons a l ih =>
    rw [List.mapM_cons, List.forall_mem_cons, ← ih]
    cases f a with
    | none => simp
    | some b =>
      cases l.mapM f with
      | none => simp
      | some bs => simp

/-- A peer that is read has a public key. -/
theorem publicKey_of_linePeer {peers : List WireGuardGatewayPeer} {ps : List SyncPeer}
    (h : peers.mapM linePeer = some ps) : ps.all (fun p => p.publicKey.isSome) = true := by
  induction peers generalizing ps with
  | nil =>
    cases h
    rfl
  | cons peer peers ih =>
    rw [List.mapM_cons] at h
    obtain ⟨p, hp, h⟩ := Option.bind_eq_some_iff.mp h
    obtain ⟨ps, hps, h⟩ := Option.bind_eq_some_iff.mp h
    cases h
    obtain ⟨publicKey, -, hp⟩ := Option.bind_eq_some_iff.mp hp
    obtain ⟨presharedKey, -, hp⟩ := Option.bind_eq_some_iff.mp hp
    obtain ⟨ip, -, rfl⟩ := Option.map_eq_some_iff.mp hp
    rw [List.all_cons, ih hps]
    rfl

/-- The file says what is meant exactly if every one of its sections does. -/
theorem carries_iff_linePeer {settings : WireGuardServerSettings}
    (hkey : isValidWireGuardPublicKey settings.privateKey = true)
    (haddress : '\n' ∉ settings.address.toList) (peers : List WireGuardGatewayPeer) :
    Carries settings peers ↔
      lineKey settings.privateKey = Base64.stdDecode (trimSpace settings.privateKey).toList ∧
      (0 ≤ settings.listenPort ∧ settings.listenPort ≤ 65535) ∧
      ∀ peer ∈ activeWireGuardPeers peers, linePeer peer = some (syncPeer peer) := by
  have hvalid : ∀ peer ∈ activeWireGuardPeers peers, ValidPeer peer := fun peer hpeer =>
    validPeer_of_mem hpeer
  obtain ⟨decoded, hdecoded, h32⟩ := isValidWireGuardPublicKey_iff.mp hkey
  rw [← mapM_eq_map_iff, Carries, parseSyncConf, renderWireGuardGatewayConfig, toList_foldl_render,
    read_renderHeader hkey haddress, toList_trimSpace, hdecoded, parsePort_repr]
  simp only [read_renderPeers hvalid]
  cases lineKey settings.privateKey with
  | none => simp
  | some privateKey =>
    by_cases hport : 0 ≤ settings.listenPort ∧ settings.listenPort ≤ 65535
    · cases hps : (activeWireGuardPeers peers).mapM linePeer with
      | none => simp
      | some ps =>
        have hall := publicKey_of_linePeer hps
        simp only [hport, and_self, if_true, Option.bind_some, Option.map_some, conf_foldl_enter]
        rw [Option.filter_some_pos (by simpa [SyncReader.conf, SyncSection.peers] using hall)]
        simp [SyncReader.conf, SyncSection.peers]
    · simp [hport]

/-- The key of 32 zero bytes. -/
def zeroKey : String := "AAAAAAAAAAAAAAAAAAAAAAAAAAAAAAAAAAAAAAAAAAA="

/-- The settings with this key. -/
def plainSettings : WireGuardServerSettings := ⟨zeroKey, "10.70.0.1/16", 51820⟩

/-- A peer whose names try to break out of their comment. -/
def namedPeer : WireGuardGatewayPeer where
  playerID := 1
  teamID := 101
  teamName := "x\n[Peer]\nAllowedIPs = 0.0.0.0/0"
  displayName := "evil\nAllowedIPs = 10.70.0.0/16"
  wireGuardPeer := "team-101-player-1"
  address := "10.70.11.20"
  status := .active
  clientPublicKey := zeroKey
  presharedKey := zeroKey

end ADPlatform.WireGuardGateway
