import ADPlatform.APIGateway.Types
import ADPlatform.Lib.PacketFilter

/-! # The rules of the service access firewall

The controller compiles a list of access policies twice: `renderControllerAccessRules` writes an
nftables table, `applyDockerUserRules` appends rules to an iptables chain. Both languages are
embedded with their texts and with what their rules match. Each language has a wildcard of its own
at the end of an interface name, and reads that of the other as a plain character; a rule with an
address that is no dotted quad matches nothing. -/

namespace ADPlatform.Controller
open APIGateway (ControllerServiceAccessPolicy)
open PacketFilter Net
open Text (trimSpace)

/-- `isValidIP`. -/
def isValidIP (ip : String) : Bool := (parseIP (trimSpace ip)).isSome

/-- The connection is established, or related to one that is. -/
def tracked (p : Packet) : Bool := p.ct = .established || p.ct = .related

/-- A TCP packet to the port. -/
def tcpTo (p : Packet) (port : Int) : Bool := p.protocol = .tcp && port = p.dport

/-- A TCP packet from the port. -/
def tcpFrom (p : Packet) (port : Int) : Bool := p.protocol = .tcp && port = p.sport

/-- The name ends in the wildcard of neither language. -/
def NoWildcard (name : String) : Prop :=
  name.toList.getLast? ≠ some '+' ∧ name.toList.getLast? ≠ some '*'

instance : Decidable (NoWildcard name) := inferInstanceAs (Decidable (_ ∧ _))

/-! ## nftables -/

/-- What `iifname` and `oifname` match: the interface of that name or, where the name ends in an
asterisk, every interface that begins with the rest of it. A backslash takes the asterisk as it
stands. (`nft` refuses a file with an asterisk alone.) -/
def nftNames (name interface : String) : Bool :=
  let stem := name.toList.dropLast
  if name.toList.getLast? ≠ some '*' then interface = name
  else if stem.getLast? = some '\\' then interface.toList = stem.dropLast ++ ['*']
  else stem.isPrefixOf interface.toList

theorem nftNames_of_noWildcard (h : NoWildcard name) :
    nftNames name interface = decide (interface = name) := if_pos h.2

/-- One condition of an nftables rule. -/
inductive NftMatch where
  | iifname (name : String)
  | oifname (name : String)
  | ipSaddr (address : String)
  | ipSaddrIn (addresses : List String)
  | ipDaddr (address : String)
  | tcpSport (port : Int)
  | tcpDport (port : Int)
  | ctEstablished
  deriving DecidableEq, Repr

/-- A rule of an nft chain. -/
structure NftRule where
  criteria : List NftMatch
  verdict : Verdict
  deriving DecidableEq, Repr

/-- The table of the controller. Both of its chains have the policy `accept`. -/
structure NftTable where
  name : String
  forward : List NftRule
  output : List NftRule
  deriving DecidableEq, Repr

/-- The address that a word of a rules file stands for; the blanks around it mean nothing. -/
def nftAddress (word : String) : Option IP := (IPv4.parse (trimSpace word)).map .v4

namespace NftMatch

/-- The criterion as nft reads it. -/
def text : NftMatch → String
  | iifname name => "iifname \"" ++ name ++ "\""
  | oifname name => "oifname \"" ++ name ++ "\""
  | ipSaddr address => "ip saddr " ++ address
  | ipSaddrIn addresses => "ip saddr \x7b " ++ ", ".intercalate addresses ++ " \x7d"
  | ipDaddr address => "ip daddr " ++ address
  | tcpSport port => "tcp sport " ++ port.repr
  | tcpDport port => "tcp dport " ++ port.repr
  | ctEstablished => "ct state established,related"

/-- Does the packet meet the criterion? -/
def test (p : Packet) : NftMatch → Bool
  | iifname name => nftNames name p.iif
  | oifname name => nftNames name p.oif
  | ipSaddr address => nftAddress address = some p.saddr
  | ipSaddrIn addresses => addresses.any fun address => nftAddress address = some p.saddr
  | ipDaddr address => nftAddress address = some p.daddr
  | tcpSport port => tcpFrom p port
  | tcpDport port => tcpTo p port
  | ctEstablished => tracked p

variable {p : Packet}

@[simp] theorem test_iifname : (iifname name).test p = nftNames name p.iif := rfl
@[simp] theorem test_oifname : (oifname name).test p = nftNames name p.oif := rfl
@[simp] theorem test_tcpSport : (tcpSport port).test p = tcpFrom p port := rfl
@[simp] theorem test_tcpDport : (tcpDport port).test p = tcpTo p port := rfl
@[simp] theorem test_ctEstablished : ctEstablished.test p = tracked p := rfl

end NftMatch

namespace NftRule

/-- The rule's line in the file. -/
def text (r : NftRule) : String :=
  "    " ++ " ".intercalate (r.criteria.map (·.text)) ++
    (match r.verdict with | .accept => " accept\n" | .drop => " drop\n")

/-- The rule as one of a chain. -/
def rule (r : NftRule) : Rule Packet where
  test p := r.criteria.all (·.test p)
  verdict := r.verdict

@[simp] theorem rule_test (r : NftRule) : r.rule.test p = r.criteria.all (·.test p) := rfl
@[simp] theorem rule_verdict (r : NftRule) : r.rule.verdict = r.verdict := rfl

end NftRule

/-- The rules file of a table. -/
def NftTable.text (t : NftTable) : String :=
  "table inet " ++ t.name ++ " \x7b\n" ++
  "  chain forward \x7b\n    type filter hook forward priority filter;\n    policy accept;\n" ++
  String.join (t.forward.map (·.text)) ++ "  \x7d\n" ++
  "  chain output \x7b\n    type filter hook output priority filter;\n    policy accept;\n" ++
  String.join (t.output.map (·.text)) ++ "  \x7d\n\x7d\n"

/-- The two chains that policies are written to. -/
inductive ChainKind where
  | forward | output
  deriving DecidableEq, Repr

/-- The rules that `appendClosedNetworkRules` writes for one policy. -/
def closedNetworkRules (interfaceName : String) (policy : ControllerServiceAccessPolicy) :
    List NftRule :=
  if !policy.networkClosed || !isValidIP policy.serviceIP then []
  else
    let wgIF := trimSpace interfaceName
    let validPeers := policy.allowedPeerAddresses.filter isValidIP
    (if validPeers.length > 0 then
      [⟨[.ipSaddrIn validPeers, .ipDaddr policy.serviceIP], .accept⟩] else []) ++
    if wgIF ≠ "" then [⟨[.iifname wgIF, .ipDaddr policy.serviceIP], .drop⟩]
    else [⟨[.ipDaddr policy.serviceIP], .drop⟩]

/-- `appendClosedNetworkRules`. -/
def appendClosedNetworkRules (interfaceName : String)
    (policies : List ControllerServiceAccessPolicy) : List NftRule :=
  policies.flatMap (closedNetworkRules interfaceName)

/-- The rules that `appendControllerAccessPolicyRules` writes for one policy. -/
def controllerAccessPolicyRules (interfaceName internetInterface : String) (chainKind : ChainKind)
    (policy : ControllerServiceAccessPolicy) : List NftRule :=
  if !isValidIP policy.serviceIP then []
  else
    let ip := policy.serviceIP
    (if !policy.egressEnabled && trimSpace internetInterface ≠ "" && chainKind = .forward then
      [⟨[.oifname internetInterface, .ipSaddr ip], .drop⟩] else []) ++
    if policy.networkClosed then []
    else
      let named := chainKind = .forward && trimSpace interfaceName ≠ ""
      -- a rule with its prefix, written only where there is one
      let ingress (rest : List NftMatch) (v : Verdict) : List NftRule :=
        if named then [⟨.iifname interfaceName :: rest, v⟩] else []
      let egress (rest : List NftMatch) (v : Verdict) : List NftRule :=
        if named then [⟨.oifname interfaceName :: rest, v⟩] else []
      let both (rest : List NftMatch) (v : Verdict) : List NftRule := ingress rest v ++ [⟨rest, v⟩]
      let validPeers := policy.allowedPeerAddresses.filter isValidIP
      (if policy.servicePort > 0 then
        both [.ipDaddr ip, .tcpDport policy.servicePort] .accept ++
        (if chainKind = .forward then
          egress [.ipSaddr ip, .tcpSport policy.servicePort] .accept ++
          egress [.ipSaddr ip, .ctEstablished] .accept else []) else []) ++
      (if policy.sshUnlocked && policy.allowedPeerAddresses.length > 0 then
        if validPeers.length > 0 then
          both [.ipDaddr ip, .tcpDport policy.sshPort, .ipSaddrIn validPeers] .accept
        else [] else []) ++
      (if policy.sshPort > 0 then both [.ipDaddr ip, .tcpDport policy.sshPort] .drop else []) ++
      (if chainKind = .forward then ingress [.ipDaddr ip] .drop else [])

/-- `appendControllerAccessPolicyRules`. -/
def appendControllerAccessPolicyRules (interfaceName internetInterface : String)
    (policies : List ControllerServiceAccessPolicy) (chainKind : ChainKind) : List NftRule :=
  policies.flatMap (controllerAccessPolicyRules interfaceName internetInterface chainKind)

/-- `renderControllerAccessRules`: the drops of closed networks stand first. -/
def renderControllerAccessRules (tableName interfaceName internetInterface : String)
    (policies : List ControllerServiceAccessPolicy) : NftTable where
  name := tableName
  forward :=
    appendClosedNetworkRules interfaceName policies ++
    ⟨[.ctEstablished], .accept⟩ ::
    appendControllerAccessPolicyRules interfaceName internetInterface policies .forward
  output :=
    ⟨[.ctEstablished], .accept⟩ ::
    appendControllerAccessPolicyRules "" internetInterface policies .output

/-! ## iptables -/

/-- What `-i` and `-o` match: the interface of that name or, where the name ends in a plus sign,
every interface that begins with the rest of it. An empty name restricts nothing. -/
def iptNames (name interface : String) : Bool :=
  if name = "" then true
  else if name.toList.getLast? = some '+' then name.toList.dropLast.isPrefixOf interface.toList
  else interface = name

theorem iptNames_of_noWildcard (hname : name ≠ "") (h : NoWildcard name) :
    iptNames name interface = decide (interface = name) := by
  rw [iptNames, if_neg hname, if_neg h.1]

/-- `source` is `-s address`, `sourceCIDR` and `destinationCIDR` append `/32` to the address. -/
inductive IptMatch where
  | inInterface (name : String)
  | outInterface (name : String)
  | source (address : String)
  | sourceCIDR (address : String)
  | destinationCIDR (address : String)
  | tcpSport (port : Int)
  | tcpDport (port : Int)
  | ctEstablished
  deriving DecidableEq, Repr

/-- A rule of an iptables chain. -/
structure IptRule where
  criteria : List IptMatch
  verdict : Verdict
  deriving DecidableEq, Repr

/-- The address of an argument. -/
def iptAddress (argument : String) : Option IP := (IPv4.parse argument).map .v4

namespace IptMatch

/-- The criterion as arguments of iptables. -/
def args : IptMatch → List String
  | inInterface name => ["-i", name]
  | outInterface name => ["-o", name]
  | source address => ["-s", address]
  | sourceCIDR address => ["-s", address ++ "/32"]
  | destinationCIDR address => ["-d", address ++ "/32"]
  | tcpSport port => ["-p", "tcp", "--sport", port.repr]
  | tcpDport port => ["-p", "tcp", "--dport", port.repr]
  | ctEstablished => ["-m", "conntrack", "--ctstate", "ESTABLISHED,RELATED"]

/-- Does the packet meet the criterion? -/
def test (p : Packet) : IptMatch → Bool
  | inInterface name => iptNames name p.iif
  | outInterface name => iptNames name p.oif
  | source address | sourceCIDR address => iptAddress address = some p.saddr
  | destinationCIDR address => iptAddress address = some p.daddr
  | tcpSport port => tcpFrom p port
  | tcpDport port => tcpTo p port
  | ctEstablished => tracked p

variable {p : Packet}

@[simp] theorem test_inInterface : (inInterface name).test p = iptNames name p.iif := rfl
@[simp] theorem test_outInterface : (outInterface name).test p = iptNames name p.oif := rfl
@[simp] theorem test_tcpSport : (tcpSport port).test p = tcpFrom p port := rfl
@[simp] theorem test_tcpDport : (tcpDport port).test p = tcpTo p port := rfl
@[simp] theorem test_ctEstablished : ctEstablished.test p = tracked p := rfl

end IptMatch

namespace IptRule

/-- The rule as arguments of iptables. -/
def args (r : IptRule) : List String :=
  r.criteria.flatMap (·.args) ++
    ["-j", match r.verdict with | .accept => "ACCEPT" | .drop => "DROP"]

/-- The rule as one of a chain. -/
def rule (r : IptRule) : Rule Packet where
  test p := r.criteria.all (·.test p)
  verdict := r.verdict

@[simp] theorem rule_test (r : IptRule) : r.rule.test p = r.criteria.all (·.test p) := rfl
@[simp] theorem rule_verdict (r : IptRule) : r.rule.verdict = r.verdict := rfl

end IptRule

/-- The rules of `applyDockerRawRules` for one policy. -/
def dockerRawRules (interfaceName : String) (policy : ControllerServiceAccessPolicy) :
    List IptRule :=
  if !isValidIP policy.serviceIP then []
  else if trimSpace interfaceName ≠ "" then
    [⟨[.inInterface interfaceName, .destinationCIDR policy.serviceIP], .accept⟩]
  else [⟨[.destinationCIDR policy.serviceIP], .accept⟩]

/-- The first loop of `applyDockerUserRules`, for one policy. -/
def dockerUserClosedRules (interfaceName : String) (policy : ControllerServiceAccessPolicy) :
    List IptRule :=
  if !policy.networkClosed || !isValidIP policy.serviceIP then []
  else
    let ip := policy.serviceIP
    (policy.allowedPeerAddresses.flatMap fun peer =>
      if !isValidIP peer then []
      else
        (if trimSpace interfaceName ≠ "" then
          [⟨[.inInterface interfaceName, .source peer, .destinationCIDR ip], .accept⟩] else []) ++
        [⟨[.source peer, .destinationCIDR ip], .accept⟩]) ++
    if trimSpace interfaceName ≠ "" then
      [⟨[.inInterface interfaceName, .destinationCIDR ip], .drop⟩]
    else [⟨[.destinationCIDR ip], .drop⟩]

/-- The second loop of `applyDockerUserRules`, for one policy. -/
def dockerUserPolicyRules (interfaceName internetInterface : String)
    (policy : ControllerServiceAccessPolicy) : List IptRule :=
  if !isValidIP policy.serviceIP then []
  else
    let ip := policy.serviceIP
    (if !policy.egressEnabled && trimSpace internetInterface ≠ "" then
      [⟨[.outInterface internetInterface, .sourceCIDR ip], .drop⟩] else []) ++
    if policy.networkClosed then []
    else
      [⟨[.inInterface interfaceName, .destinationCIDR ip, .tcpDport policy.servicePort], .accept⟩,
        ⟨[.destinationCIDR ip, .tcpDport policy.servicePort], .accept⟩,
        ⟨[.outInterface interfaceName, .sourceCIDR ip, .tcpSport policy.servicePort], .accept⟩,
        ⟨[.outInterface interfaceName, .sourceCIDR ip, .ctEstablished], .accept⟩] ++
      (if policy.sshUnlocked && policy.allowedPeerAddresses.length > 0 then
        policy.allowedPeerAddresses.flatMap fun peer =>
          if !isValidIP peer then []
          else
            [⟨[.inInterface interfaceName, .source peer, .destinationCIDR ip,
                .tcpDport policy.sshPort], .accept⟩,
              ⟨[.source peer, .destinationCIDR ip, .tcpDport policy.sshPort], .accept⟩] else []) ++
      [⟨[.inInterface interfaceName, .destinationCIDR ip, .tcpDport policy.sshPort], .drop⟩,
        ⟨[.destinationCIDR ip, .tcpDport policy.sshPort], .drop⟩] ++
      if trimSpace interfaceName ≠ "" then
        [⟨[.inInterface interfaceName, .destinationCIDR ip], .drop⟩] else []

/-- The rules that `applyDockerUserRules` appends, in its order. -/
def dockerUserRules (interfaceName internetInterface : String)
    (policies : List ControllerServiceAccessPolicy) : List IptRule :=
  policies.flatMap (dockerUserClosedRules interfaceName) ++
  ⟨[.ctEstablished], .accept⟩ ::
  policies.flatMap (dockerUserPolicyRules interfaceName internetInterface)

/-! ## The settings of the executor -/

/-- The two firewalls that the executor can write to. -/
inductive FirewallBackend where
  | nftables | iptables
  deriving DecidableEq, Repr

/-- A `hostServiceAccessExecutor`, as `newServiceAccessExecutor` makes it: the names of the
interfaces have been trimmed. Every backend but `nftables` is treated as `iptables`. -/
structure HostServiceAccessExecutor where
  interfaceName : String
  internetInterface : String
  firewallBackend : FirewallBackend
  firewallTable : String
  nftBinary : String := "nft"
  iptablesBinary : String := "iptables"
  interfaceName_trimmed : trimSpace interfaceName = interfaceName
  internetInterface_trimmed : trimSpace internetInterface = internetInterface

namespace HostServiceAccessExecutor

/-- The settings of an environment that sets none of them. -/
def defaults : HostServiceAccessExecutor where
  interfaceName := "wg0"
  internetInterface := "eth0"
  firewallBackend := .nftables
  firewallTable := "adplatform_service_access"
  interfaceName_trimmed := by decide
  internetInterface_trimmed := by decide

variable (e : HostServiceAccessExecutor) (policies : List ControllerServiceAccessPolicy)

/-- The rules file of a policy list. -/
def rules : NftTable :=
  renderControllerAccessRules e.firewallTable e.interfaceName e.internetInterface policies

/-- The forward chain of the rules file. -/
def nftForward : List (Rule Packet) := (e.rules policies).forward.map (·.rule)

/-- The chain that `applyDockerUserRules` installs. -/
def servicesChain : List (Rule Packet) :=
  (dockerUserRules e.interfaceName e.internetInterface policies).map (·.rule)

end HostServiceAccessExecutor

end ADPlatform.Controller
