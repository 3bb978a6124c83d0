import ADPlatform.Lib.PacketFilter
import ADPlatform.WireGuardGateway.GatewayConfig

/-! # The firewall of the WireGuard gateway

The rules file of the gateway with what its rules match. A new packet of the interface is forwarded
exactly if it comes from an active peer and goes to an allowed network (`nftablesRules_enforce`). -/

namespace ADPlatform.WireGuardGateway
open APIGateway Net
open Text (trimSpace mem_of_mem_splitOn)
open ConfigFile (mem_of_mem_trim toList_trimSpace)
open PacketFilter
  (Protocol CtState Verdict Rule verdict verdict_cons verdict_append verdict_singleton)

/-! ## Networks -/

/-- The network of an address and the length of its prefix. -/
structure CIDR where
  address : IPv4
  bits : Nat
  bits_le : bits ≤ 32
  deriving DecidableEq, Repr

/-- The address as a number of 32 bits. -/
def addressNumber (ip : IPv4) : Nat := ((ip.a * 256 + ip.b) * 256 + ip.c) * 256 + ip.d

/-- The address shares the prefix of the network. -/
def CIDR.Contains (cidr : CIDR) (ip : IPv4) : Prop :=
  addressNumber ip / 2 ^ (32 - cidr.bits) = addressNumber cidr.address / 2 ^ (32 - cidr.bits)

instance (cidr : CIDR) (ip : IPv4) : Decidable (cidr.Contains ip) :=
  inferInstanceAs (Decidable (_ = _))

/-- `net.ParseCIDR` of an IPv4 network. -/
def parseIPv4CIDR (s : String) : Option CIDR :=
  match s.toList.splitOn '/' with
  | [address, mask] => do
    let ip ← IPv4.parseChars address
    let bits ← parseNumber mask
    if h : bits ≤ 32 then some ⟨ip, bits, h⟩ else none
  | _ => none

/-- `net.ParseCIDR` takes the text, and the network has an IPv4 address: it is one of IPv4, or one
of IPv6 that lies in the IPv4 addresses. -/
def isIPv4CIDR (s : String) : Bool :=
  match s.toList.splitOn '/' with
  | [address, mask] =>
    match parseIP (String.ofList address), parseNumber mask with
    | some (.v4 _), some bits => bits ≤ 32
    | some (.v6 bytes), some bits =>
      bytes.take 12 = List.replicate 10 0 ++ [255, 255] && 96 ≤ bits && bits ≤ 128
    | _, _ => false
  | _ => false

/-- A bare address becomes a network of one address. -/
def forwardCIDR (part : String) : String :=
  let trimmed := trimSpace part
  if isValidIP trimmed && '/' ∉ trimmed.toList then trimmed ++ "/32" else trimmed

/-- One part of the list. A blank one, one that is no network and one that is there already are
skipped. -/
def addCIDR (cidrs : List String) (part : String) : List String :=
  if trimSpace part = "" ∨ !isIPv4CIDR (forwardCIDR part) ∨ forwardCIDR part ∈ cidrs then cidrs
  else cidrs ++ [forwardCIDR part]

/-- `parseIPv4CIDRList`. -/
def parseIPv4CIDRList (raw : String) : List String :=
  if trimSpace raw = "" then []
  else ((raw.toList.splitOn ',').map String.ofList).foldl addCIDR []

/-- What the environment says, by the two variables that are read. -/
def wireGuardForwardAllowedCIDRs (forwardAllowed serverAllowed : String) : List String :=
  let raw := trimSpace forwardAllowed
  parseIPv4CIDRList (if raw = "" then trimSpace serverAllowed else raw)

/-! ## The rules file -/

/-- What a rule of the table looks at. -/
inductive NftMatch where
  | iifname (name : String)
  /-- the source is in the set of the active peers -/
  | saddrActive
  | saddrInactive
  | daddr (address : String)
  | daddrIn (cidrs : List String)
  | icmpEchoRequest
  | tcpDportIn (ports : List Nat)
  | ctEstablished
  deriving DecidableEq, Repr

/-- A rule of the table. -/
structure NftRule where
  criteria : List NftMatch
  verdict : Verdict
  deriving DecidableEq, Repr

/-- The table of the gateway. Both chains have the policy `accept`. -/
structure NftTable where
  name : String
  activePeers : List String
  input : List NftRule
  forward : List NftRule
  deriving DecidableEq, Repr

/-- An IPv4 packet, as far as the chains look at it. -/
structure IPv4Packet where
  iif : String
  saddr : IPv4
  daddr : IPv4
  protocol : Protocol
  icmpType : Nat
  dport : Nat
  ct : CtState
  deriving DecidableEq, Repr

namespace NftMatch

/-- The criterion as nft reads it. -/
def text : NftMatch → String
  | iifname name => "iifname \"" ++ name ++ "\""
  | saddrActive => "ip saddr @active_peers"
  | saddrInactive => "ip saddr != @active_peers"
  | daddr address => "ip daddr " ++ address
  | daddrIn cidrs => "ip daddr \x7b " ++ ", ".intercalate cidrs ++ " \x7d"
  | icmpEchoRequest => "icmp type echo-request"
  | tcpDportIn ports => "tcp dport \x7b " ++ ", ".intercalate (ports.map (·.repr)) ++ " \x7d"
  | ctEstablished => "ct state established,related"

/-- The words of the match are addresses and networks. -/
def Valid : NftMatch → Prop
  | daddr address => (IPv4.parse address).isSome
  | daddrIn cidrs => cidrs ≠ [] ∧ ∀ cidr ∈ cidrs, (parseIPv4CIDR cidr).isSome
  | _ => True

/-- Does the packet meet the criterion? -/
def test (activePeers : List String) (p : IPv4Packet) : NftMatch → Bool
  | iifname name => p.iif = name
  | saddrActive => p.saddr.text ∈ activePeers
  | saddrInactive => p.saddr.text ∉ activePeers
  | daddr address => IPv4.parse address = some p.daddr
  | daddrIn cidrs =>
    cidrs.any fun cidr => (parseIPv4CIDR cidr).any fun cidr => cidr.Contains p.daddr
  | icmpEchoRequest => p.protocol = .icmp && p.icmpType = 8
  | tcpDportIn ports => p.protocol = .tcp && p.dport ∈ ports
  | ctEstablished => p.ct = .established || p.ct = .related

variable {activePeers : List String} {p : IPv4Packet}

@[simp] theorem test_iifname : (iifname name).test activePeers p = decide (p.iif = name) := rfl

@[simp] theorem test_saddrActive :
    saddrActive.test activePeers p = decide (p.saddr.text ∈ activePeers) := rfl

@[simp] theorem test_saddrInactive :
    saddrInactive.test activePeers p = decide (p.saddr.text ∉ activePeers) := rfl

end NftMatch

namespace NftRule

/-- The rule's line in the file. -/
def text (r : NftRule) : String :=
  "    " ++ " ".intercalate (r.criteria.map (·.text)) ++
    (match r.verdict with | .accept => " accept\n" | .drop => " drop\n")

/-- The rule as one of a chain. -/
def rule (activePeers : List String) (r : NftRule) : Rule IPv4Packet where
  test p := r.criteria.all (·.test activePeers p)
  verdict := r.verdict

@[simp] theorem rule_test (r : NftRule) :
    (r.rule activePeers).test p = r.criteria.all (·.test activePeers p) := rfl

@[simp] theorem rule_verdict (r : NftRule) : (r.rule activePeers).verdict = r.verdict := rfl

end NftRule

namespace NftTable

/-- The table's file. -/
def text (t : NftTable) : String :=
  "table inet " ++ t.name ++ " \x7b\n  set active_peers \x7b\n    type ipv4_addr\n" ++
  (if t.activePeers = [] then ""
    else "    elements = \x7b " ++ ", ".intercalate t.activePeers ++ " \x7d\n") ++
  "  \x7d\n\n  chain input \x7b\n    type filter hook input priority filter;\n    policy accept;\n" ++
  String.join (t.input.map (·.text)) ++
  "  \x7d\n\n  chain forward \x7b\n    type filter hook forward priority filter;\n    policy accept;\n" ++
  String.join (t.forward.map (·.text)) ++ "  \x7d\n\x7d\n"

/-- Every word of the file is what its place asks for. -/
structure Loads (t : NftTable) : Prop where
  activePeers : ∀ address ∈ t.activePeers, (IPv4.parse address).isSome
  input : ∀ r ∈ t.input, ∀ c ∈ r.criteria, c.Valid
  forward : ∀ r ∈ t.forward, ∀ c ∈ r.criteria, c.Valid

/-- A packet that no rule matches is accepted. -/
def AcceptsInput (t : NftTable) (p : IPv4Packet) : Prop :=
  (verdict (t.input.map (·.rule t.activePeers)) p).getD .accept = .accept

/-- The forward chain lets the packet pass. -/
def AcceptsForward (t : NftTable) (p : IPv4Packet) : Prop :=
  (verdict (t.forward.map (·.rule t.activePeers)) p).getD .accept = .accept

instance (t : NftTable) (p : IPv4Packet) : Decidable (t.AcceptsInput p) :=
  inferInstanceAs (Decidable (_ = _))

instance (t : NftTable) (p : IPv4Packet) : Decidable (t.AcceptsForward p) :=
  inferInstanceAs (Decidable (_ = _))

end NftTable

/-- What a peer may send to the server itself, where the server has an address. -/
def serverRules (interfaceName serverIP : String) : List NftRule :=
  if trimSpace serverIP ≠ "" then
    [⟨[.iifname interfaceName, .saddrActive, .daddr serverIP, .icmpEchoRequest], .accept⟩,
      ⟨[.iifname interfaceName, .saddrActive, .daddr serverIP, .tcpDportIn [80, 443]], .accept⟩,
      ⟨[.iifname interfaceName, .saddrActive], .drop⟩]
  else []

/-- `renderNftablesRulesWithForwardCIDRs`. -/
def renderNftablesRulesWithForwardCIDRs (tableName interfaceName serverIP : String)
    (peers : List WireGuardGatewayPeer) (forwardCIDRs : List String) : NftTable where
  name := tableName
  activePeers := peers.map (·.address)
  input := serverRules interfaceName serverIP ++ [⟨[.iifname interfaceName, .saddrInactive], .drop⟩]
  forward :=
    [⟨[.ctEstablished], .accept⟩, ⟨[.iifname interfaceName, .saddrInactive], .drop⟩] ++
    (if forwardCIDRs.length > 0 then
      [⟨[.iifname interfaceName, .saddrActive, .daddrIn forwardCIDRs], .accept⟩] else []) ++
    [⟨[.iifname interfaceName], .drop⟩]

/-- `renderNftablesRules`. -/
def renderNftablesRules (tableName interfaceName serverIP : String)
    (peers : List WireGuardGatewayPeer)
    (forwardAllowed serverAllowed : String) : NftTable :=
  renderNftablesRulesWithForwardCIDRs tableName interfaceName serverIP peers
    (wireGuardForwardAllowedCIDRs forwardAllowed serverAllowed)

/-! ## What the rules let pass -/

/-- The address is that of a peer. -/
def FromPeer (peers : List WireGuardGatewayPeer) (p : IPv4Packet) : Prop :=
  ∃ peer ∈ peers, peer.address = p.saddr.text

/-- The packet goes into one of the networks. -/
def ToAllowed (cidrs : List String) (p : IPv4Packet) : Prop :=
  ∃ text ∈ cidrs, ∃ cidr, parseIPv4CIDR text = some cidr ∧ cidr.Contains p.daddr

/-- An ICMP echo request, or a TCP packet for a web server. -/
def PingOrWeb (p : IPv4Packet) : Prop :=
  p.protocol = .icmp ∧ p.icmpType = 8 ∨ p.protocol = .tcp ∧ (p.dport = 80 ∨ p.dport = 443)

/-- The packet belongs to no connection that the gateway has let through. -/
def Untracked (p : IPv4Packet) : Prop := p.ct ≠ .established ∧ p.ct ≠ .related

/-- What the table does with the packets of an interface. -/
structure Enforces (t : NftTable) (interfaceName serverIP : String)
    (active : List WireGuardGatewayPeer)
    (forwardCIDRs : List String) : Prop where
  loads : t.Loads
  forward : ∀ p, p.iif = interfaceName → Untracked p →
    (t.AcceptsForward p ↔ FromPeer active p ∧ ToAllowed forwardCIDRs p)
  input_other : ∀ p, p.iif = interfaceName → ¬FromPeer active p → ¬t.AcceptsInput p
  input_server : ∀ p, p.iif = interfaceName → trimSpace serverIP ≠ "" → FromPeer active p →
    (t.AcceptsInput p ↔ p.daddr.text = serverIP ∧ PingOrWeb p)

section
variable {tableName interfaceName serverIP : String} {active : List WireGuardGatewayPeer}
  {forwardCIDRs : List String} {p : IPv4Packet}

theorem fromPeer_iff : FromPeer active p ↔ p.saddr.text ∈ active.map (·.address) := by
  rw [FromPeer, List.mem_map]

theorem test_daddrIn (activePeers : List String) :
    (NftMatch.daddrIn forwardCIDRs).test activePeers p = true ↔ ToAllowed forwardCIDRs p := by
  simp [ToAllowed, NftMatch.test, Option.any_eq_true]

theorem test_daddr (activePeers : List String) :
    (NftMatch.daddr serverIP).test activePeers p = true ↔ p.daddr.text = serverIP := by
  rw [NftMatch.test, decide_eq_true_eq, IPv4.parse_eq_some]
  exact eq_comm

theorem pingOrWeb_iff (activePeers : List String) :
    PingOrWeb p ↔ NftMatch.icmpEchoRequest.test activePeers p = true ∨
      (NftMatch.tcpDportIn [80, 443]).test activePeers p = true := by
  simp [PingOrWeb, NftMatch.test]

/-- The rules of the input chain for packets of the interface. -/
theorem acceptsInput_iff (hiif : p.iif = interfaceName) :
    (renderNftablesRulesWithForwardCIDRs tableName interfaceName serverIP active
      forwardCIDRs).AcceptsInput
      p ↔
        FromPeer active p ∧ (trimSpace serverIP ≠ "" → p.daddr.text = serverIP ∧ PingOrWeb p) := by
  rw [fromPeer_iff, ← test_daddr (active.map (·.address)),
    pingOrWeb_iff (active.map (·.address)), NftTable.AcceptsInput]
  simp only [renderNftablesRulesWithForwardCIDRs, List.map_append, verdict_append]
  generalize active.map (·.address) = addresses
  by_cases hpeer : p.saddr.text ∈ addresses
  · have hlast :
        verdict [NftRule.rule addresses ⟨[.iifname interfaceName, .saddrInactive], .drop⟩] p =
        none := by
      simp [verdict_singleton, hpeer]
    simp only [List.map_cons, List.map_nil, hlast, Option.or_none]
    rw [serverRules]
    by_cases hserver : trimSpace serverIP = ""
    · simp [hserver, hpeer]
    cases hdaddr : (NftMatch.daddr serverIP).test addresses p with
    | false => simp [hserver, verdict_cons, hiif, hpeer, hdaddr]
    | true =>
      cases hicmp : NftMatch.icmpEchoRequest.test addresses p with
      | true => simp [hserver, verdict_cons, hiif, hpeer, hdaddr, hicmp]
      | false =>
        cases hweb : (NftMatch.tcpDportIn [80, 443]).test addresses p with
        | true => simp [hserver, verdict_cons, hiif, hpeer, hdaddr, hicmp, hweb]
        | false => simp [hserver, verdict_cons, hiif, hpeer, hdaddr, hicmp, hweb]
  · -- the rules for the server ask for a peer
    have hserver :
        verdict ((serverRules interfaceName serverIP).map (·.rule addresses)) p = none := by
      rw [serverRules]
      split
      · simp [verdict_cons, hpeer]
      · rfl
    rw [hserver, Option.none_or]
    simp [verdict_singleton, hiif, hpeer]

theorem acceptsForward_iff (hiif : p.iif = interfaceName) (hct : Untracked p) :
    (renderNftablesRulesWithForwardCIDRs tableName interfaceName serverIP active
      forwardCIDRs).AcceptsForward
      p ↔ FromPeer active p ∧ ToAllowed forwardCIDRs p := by
  rw [fromPeer_iff, ← test_daddrIn (active.map (·.address)), NftTable.AcceptsForward]
  simp only [renderNftablesRulesWithForwardCIDRs, List.map_append, verdict_append]
  generalize active.map (·.address) = addresses
  have htracked : NftMatch.ctEstablished.test addresses p = false := by
    simp [NftMatch.test, hct.1, hct.2]
  by_cases hpeer : p.saddr.text ∈ addresses
  · cases hcidrs : (NftMatch.daddrIn forwardCIDRs).test addresses p with
    | false =>
      split <;> simp [verdict_cons, htracked, hiif, hpeer, hcidrs]
    | true =>
      have hne : forwardCIDRs.length > 0 := by
        obtain ⟨text, htext, -⟩ := (test_daddrIn _).mp hcidrs
        exact List.length_pos_of_mem htext
      simp [hne, verdict_cons, htracked, hiif, hpeer, hcidrs]
  · simp [verdict_cons, htracked, hiif, hpeer]

theorem isSome_parse {s : String} (h : ∃ ip : IPv4, s = ip.text) : (IPv4.parse s).isSome := by
  obtain ⟨ip, rfl⟩ := h
  rw [IPv4.parse_text]
  rfl

theorem loads_renderNftablesRules (hactive : ∀ peer ∈ active, ∃ ip : IPv4, peer.address = ip.text)
    (hserver : trimSpace serverIP = "" ∨ ∃ ip : IPv4, serverIP = ip.text)
    (hcidrs : ∀ cidr ∈ forwardCIDRs, (parseIPv4CIDR cidr).isSome) :
    (renderNftablesRulesWithForwardCIDRs tableName interfaceName serverIP active
      forwardCIDRs).Loads where
  activePeers := by
    intro address haddress
    obtain ⟨peer, hpeer, rfl⟩ := List.mem_map.mp haddress
    exact isSome_parse (hactive peer hpeer)
  input := by
    simp only [renderNftablesRulesWithForwardCIDRs, serverRules]
    split
    · rename_i hne
      have hvalid := isSome_parse (hserver.resolve_left hne)
      simp [NftMatch.Valid, hvalid]
    · simp [NftMatch.Valid]
  forward := by
    simp only [renderNftablesRulesWithForwardCIDRs]
    split
    · rename_i hne
      simp only [List.cons_append, List.nil_append, List.forall_mem_cons, NftMatch.Valid, true_and,
        List.not_mem_nil, false_imp_iff, implies_true, and_true]
      exact ⟨List.length_pos_iff.mp hne, hcidrs⟩
    · simp [NftMatch.Valid]

theorem enforces_renderNftablesRules
    (hactive : ∀ peer ∈ active, ∃ ip : IPv4, peer.address = ip.text)
    (hserver : trimSpace serverIP = "" ∨ ∃ ip : IPv4, serverIP = ip.text)
    (hcidrs : ∀ cidr ∈ forwardCIDRs, (parseIPv4CIDR cidr).isSome) :
    Enforces
      (renderNftablesRulesWithForwardCIDRs tableName interfaceName serverIP active forwardCIDRs)
      interfaceName serverIP active forwardCIDRs where
  loads := loads_renderNftablesRules hactive hserver hcidrs
  forward _ hiif hct := acceptsForward_iff hiif hct
  input_other _ hiif hpeer haccepts := hpeer ((acceptsInput_iff hiif).mp haccepts).1
  input_server _ hiif hserver hpeer := by
    rw [acceptsInput_iff hiif]
    exact ⟨fun h => h.2 hserver, fun h => ⟨hpeer, fun _ => h⟩⟩

end

/-- A packet from no active peer opens no connection. -/
theorem Enforces.opens_none {t : NftTable} {interfaceName serverIP : String}
    {active : List WireGuardGatewayPeer} {forwardCIDRs : List String}
    (h : Enforces t interfaceName serverIP active forwardCIDRs) {p : IPv4Packet}
    (hiif : p.iif = interfaceName) (hpeer : ¬FromPeer active p) :
    ¬t.AcceptsInput p ∧ (Untracked p → ¬t.AcceptsForward p) :=
  ⟨h.input_other p hiif hpeer, fun hct haccepts => hpeer ((h.forward p hiif hct).mp haccepts).1⟩

/-- What the gateway enforces with its active peers. A revoked peer is none of them. -/
theorem nftablesRules_enforce (tableName interfaceName serverIP : String)
    (peers : List WireGuardGatewayPeer) (forwardCIDRs : List String)
    (hpeers : ∀ peer ∈ activeWireGuardPeers peers, ∃ ip : IPv4, peer.address = ip.text)
    (hserver : trimSpace serverIP = "" ∨ ∃ ip : IPv4, serverIP = ip.text)
    (hcidrs : ∀ cidr ∈ forwardCIDRs, (parseIPv4CIDR cidr).isSome) :
    let t := renderNftablesRulesWithForwardCIDRs tableName interfaceName serverIP
      (activeWireGuardPeers peers) forwardCIDRs
    Enforces t interfaceName serverIP (activeWireGuardPeers peers) forwardCIDRs ∧
      ∀ peer ∈ peers, peer.status = .revoked →
        peer ∉ activeWireGuardPeers peers ∧
        ∀ p, p.iif = interfaceName → p.saddr.text = peer.address →
          (∀ other ∈ activeWireGuardPeers peers, other.address ≠ peer.address) →
          ¬t.AcceptsInput p ∧ (Untracked p → ¬t.AcceptsForward p) := by
  intro t
  have henforces : Enforces t interfaceName serverIP (activeWireGuardPeers peers) forwardCIDRs :=
    enforces_renderNftablesRules hpeers hserver hcidrs
  refine ⟨henforces, fun peer _ hrevoked => ⟨?_, fun p hiif hsaddr hother => ?_⟩⟩
  · simp [activeWireGuardPeers, hrevoked]
  · refine henforces.opens_none hiif ?_
    rintro ⟨other, hmem, haddress⟩
    exact hother other hmem (haddress.trans hsaddr)

/-- An active peer and a revoked one. -/
def twoPeers : List WireGuardGatewayPeer :=
  [namedPeer, { namedPeer with playerID := 2, address := "10.70.12.21", status := .revoked }]

/-- The table for two peers. -/
def twoPeersTable : NftTable :=
  renderNftablesRulesWithForwardCIDRs "adplatform_wireguard" "wg0" "10.70.0.1"
    (activeWireGuardPeers twoPeers) ["10.70.0.0/16", "10.80.0.0/16"]

theorem nftablesRules_enforce_twoPeers :
    Enforces twoPeersTable "wg0" "10.70.0.1" (activeWireGuardPeers twoPeers)
      ["10.70.0.0/16", "10.80.0.0/16"] ∧
    ∀ peer ∈ twoPeers, peer.status = .revoked →
      peer ∉ activeWireGuardPeers twoPeers ∧
      ∀ p : IPv4Packet, p.iif = "wg0" → p.saddr.text = peer.address →
        (∀ other ∈ activeWireGuardPeers twoPeers, other.address ≠ peer.address) →
        ¬twoPeersTable.AcceptsInput p ∧ (Untracked p → ¬twoPeersTable.AcceptsForward p) :=
  have hactive : activeWireGuardPeers twoPeers = [namedPeer] := by decide +kernel
  nftablesRules_enforce "adplatform_wireguard" "wg0" "10.70.0.1" twoPeers ["10.70.0.0/16",
    "10.80.0.0/16"]
    (by
      rw [hactive, List.forall_mem_singleton]
      exact ⟨⟨10, 70, 11, 20⟩, by decide +kernel⟩)
    (.inr ⟨⟨10, 70, 0, 1⟩, by decide +kernel⟩) (by decide +kernel)

example : twoPeersTable.text =
    "table inet adplatform_wireguard \x7b\n  set active_peers \x7b\n    type ipv4_addr\n" ++
    "    elements = \x7b 10.70.11.20 \x7d\n  \x7d\n\n  chain input \x7b\n" ++
    "    type filter hook input priority filter;\n    policy accept;\n" ++
    "    iifname \"wg0\" ip saddr @active_peers ip daddr 10.70.0.1 icmp type echo-request accept\n" ++
    "    iifname \"wg0\" ip saddr @active_peers ip daddr 10.70.0.1 tcp dport \x7b 80, 443 \x7d accept\n" ++
    "    iifname \"wg0\" ip saddr @active_peers drop\n" ++
    "    iifname \"wg0\" ip saddr != @active_peers drop\n  \x7d\n\n  chain forward \x7b\n" ++
    "    type filter hook forward priority filter;\n    policy accept;\n" ++
    "    ct state established,related accept\n    iifname \"wg0\" ip saddr != @active_peers drop\n" ++
    "    iifname \"wg0\" ip saddr @active_peers ip daddr \x7b 10.70.0.0/16, 10.80.0.0/16 \x7d accept\n" ++
    "    iifname \"wg0\" drop\n  \x7d\n\x7d\n" := by
  decide +kernel

/-! ## The networks of the environment -/

section
variable {raw cidr : String}

theorem mem_addCIDR {cidrs : List String} {part : String} : cidr ∈ addCIDR cidrs part ↔
    cidr ∈ cidrs ∨ trimSpace part ≠ "" ∧ isIPv4CIDR (forwardCIDR part) = true ∧
      cidr = forwardCIDR part := by
  rw [addCIDR]
  split
  · rename_i hskip
    refine ⟨.inl, fun h => h.elim id ?_⟩
    rintro ⟨hne, hvalid, hcidr⟩
    rw [hcidr]
    simpa [hne, hvalid] using hskip
  · rename_i hkeep
    simp only [not_or, Bool.not_eq_true, Bool.not_eq_false'] at hkeep
    simp [hkeep.1, hkeep.2.1]

theorem mem_foldl_addCIDR {cidrs parts : List String} : cidr ∈ parts.foldl addCIDR cidrs ↔
    cidr ∈ cidrs ∨ ∃ part ∈ parts, trimSpace part ≠ "" ∧ isIPv4CIDR (forwardCIDR part) = true ∧
      cidr = forwardCIDR part := by
  induction parts generalizing cidrs with
  | nil => simp
  | cons part parts ih => rw [List.foldl_cons, ih, mem_addCIDR, List.exists_mem_cons_iff, or_assoc]

theorem mem_parseIPv4CIDRList : cidr ∈ parseIPv4CIDRList raw ↔ trimSpace raw ≠ "" ∧
    ∃ part ∈ raw.toList.splitOn ',', trimSpace (String.ofList part) ≠ "" ∧
      isIPv4CIDR (forwardCIDR (String.ofList part)) = true ∧
        cidr = forwardCIDR (String.ofList part) := by
  rw [parseIPv4CIDRList]
  split
  · rename_i hraw
    simp [hraw]
  · rename_i hraw
    simp [mem_foldl_addCIDR, hraw]

/-- A text without a colon is no network of IPv6. -/
theorem isSome_parseIPv4CIDR (h : isIPv4CIDR cidr = true) (hcolon : ':' ∉ cidr.toList) :
    (parseIPv4CIDR cidr).isSome := by
  unfold isIPv4CIDR at h
  split at h
  · rename_i address mask hsplit
    split at h
    · rename_i ip bits hip hbits
      have haddress : IPv4.parseChars address = some ip := by
        rw [← IPv4.parse_eq_some.mpr (parseIP_eq_v4.mp hip), IPv4.parse, String.toList_ofList]
      simp [parseIPv4CIDR, hsplit, haddress, hbits, of_decide_eq_true h]
    · rename_i bytes bits hip hbits
      refine absurd ?_ hcolon
      unfold parseIP at hip
      split at hip
      · cases hip
      split at hip
      · simp at hip
      · rename_i hfind
        rw [String.toList_ofList] at hfind
        have haddress : address ∈ cidr.toList.splitOn '/' := by
          rw [hsplit]
          exact List.mem_cons_self
        exact mem_of_mem_splitOn haddress (List.mem_of_find?_eq_some hfind)
      · cases hip
    · cases h
  · cases h

theorem notMem_forwardCIDR {part : String} (h : ':' ∉ part.toList) :
    ':' ∉ (forwardCIDR part).toList := by
  have htrim : ':' ∉ (trimSpace part).toList := by
    rw [toList_trimSpace]
    exact fun hmem => h (mem_of_mem_trim hmem)
  unfold forwardCIDR
  dsimp only
  split
  · rw [String.toList_append, List.mem_append, not_or]
    exact ⟨htrim, by decide⟩
  · exact htrim

/-- Every network that a list without colons allows is one of IPv4. -/
theorem valid_parseIPv4CIDRList (hcolon : ':' ∉ raw.toList) :
    ∀ cidr ∈ parseIPv4CIDRList raw, (parseIPv4CIDR cidr).isSome := by
  intro cidr hcidr
  obtain ⟨-, part, hpart, -, hvalid, hcidr⟩ := mem_parseIPv4CIDRList.mp hcidr
  rw [hcidr]
  refine isSome_parseIPv4CIDR hvalid (notMem_forwardCIDR ?_)
  rw [String.toList_ofList]
  exact fun hmem => hcolon (mem_of_mem_splitOn hpart hmem)

end

/-- The rules that the gateway writes from its environment enforce the lists there. -/
theorem renderNftablesRules_enforces {tableName interfaceName serverIP : String}
    {active : List WireGuardGatewayPeer} (forwardAllowed serverAllowed : String)
    (hactive : ∀ peer ∈ active, ∃ ip : IPv4, peer.address = ip.text)
    (hserver : trimSpace serverIP = "" ∨ ∃ ip : IPv4, serverIP = ip.text)
    (hforward : ':' ∉ forwardAllowed.toList) (hdefault : ':' ∉ serverAllowed.toList) :
    Enforces
      (renderNftablesRules tableName interfaceName serverIP active forwardAllowed serverAllowed)
      interfaceName serverIP active
        (wireGuardForwardAllowedCIDRs forwardAllowed serverAllowed) := by
  refine enforces_renderNftablesRules hactive hserver (valid_parseIPv4CIDRList ?_)
  have htrim : ∀ {s : String}, ':' ∉ s.toList → ':' ∉ (trimSpace s).toList := by
    intro s hs
    rw [toList_trimSpace]
    exact fun hmem => hs (mem_of_mem_trim hmem)
  split
  · exact htrim hdefault
  · exact htrim hforward

example : parseIPv4CIDRList "10.80.0.0/16, not-a-cidr, 2001:db8::/32, 10.70.0.1" =
    ["10.80.0.0/16", "10.70.0.1/32"] := by
  decide +kernel

end ADPlatform.WireGuardGateway
