import ADPlatform.Controller.AccessRules
import Mathlib.Data.List.Nodup

/-! # What the access firewall does to a packet

`closedVerdict` and `openVerdict` say what the rules of one policy are for. Both compilations give
every packet that verdict, policy by policy: `nft_closed`, `nft_open` for the rules file and
`ipt_closed`, `ipt_open` for the chain. So the two firewalls agree, and the verdict on a packet to
a service is read off its policy as long as no two policies share an address. -/

namespace ADPlatform.Controller
open APIGateway (ControllerServiceAccessPolicy)
open PacketFilter Net
open Text (trimSpace)

/-- The text is the dotted quad of an address. -/
def DottedQuad (s : String) : Prop := ∃ ip : IPv4, s = ip.text

namespace DottedQuad
variable {s : String}

theorem trimSpace (h : DottedQuad s) : Text.trimSpace s = s := by
  obtain ⟨ip, rfl⟩ := h
  exact trimSpace_text ip

theorem isValidIP (h : DottedQuad s) : isValidIP s = true := by
  rw [Controller.isValidIP, h.trimSpace]
  obtain ⟨ip, rfl⟩ := h
  rw [parseIP_text]
  rfl

theorem nftAddress (h : DottedQuad s) : nftAddress s = parseIP s := by
  rw [Controller.nftAddress, h.trimSpace]
  obtain ⟨ip, rfl⟩ := h
  rw [parseIP_text, IPv4.parse_text]
  rfl

theorem iptAddress (h : DottedQuad s) : iptAddress s = parseIP s := by
  rw [Controller.iptAddress]
  obtain ⟨ip, rfl⟩ := h
  rw [parseIP_text, IPv4.parse_text]
  rfl

end DottedQuad

/-! ## The meaning of a policy -/

/-! How the rules of a policy read the names of interfaces is a parameter of their meaning: it is
`nftNames` or `iptNames`. -/

section Meaning
variable (names : String → String → Bool) (policy : ControllerServiceAccessPolicy) (p : Packet)

/-- The packet goes to the service. -/
def toService : Bool := parseIP policy.serviceIP = some p.daddr

/-- The packet comes from the service. -/
def fromService : Bool := parseIP policy.serviceIP = some p.saddr

/-- The packet comes from one of the valid allowed peers. -/
def fromAllowedPeer : Bool :=
  policy.allowedPeerAddresses.any fun peer => parseIP (trimSpace peer) = some p.saddr

/-- Before the connection is looked at: a closed service is open to its allowed peers only. -/
def closedVerdict (wg : String) : Option Verdict :=
  if !policy.networkClosed || !toService policy p then none
  else if fromAllowedPeer policy p then some .accept
  else if names wg p.iif then some .drop
  else none

/-- After the connection has been looked at. -/
def openVerdict (wg internet : String) : Option Verdict :=
  if !policy.egressEnabled && internet ≠ "" && names internet p.oif && fromService policy p then
    some .drop
  else if policy.networkClosed then none
  else if toService policy p && tcpTo p policy.servicePort then some .accept
  else if names wg p.oif && fromService policy p && (tcpFrom p policy.servicePort || tracked p) then
    some .accept
  else if toService policy p && tcpTo p policy.sshPort then
    if policy.sshUnlocked && fromAllowedPeer policy p then some .accept else some .drop
  else if names wg p.iif && toService policy p then some .drop
  else none

end Meaning

/-- A packet to a dotted quad comes from one. -/
theorem nftAddress_eq_saddr {p : Packet} {s : String} (hs : DottedQuad s)
    (hd : parseIP s = some p.daddr) (peer : String) :
    nftAddress peer = some p.saddr ↔ parseIP (trimSpace peer) = some p.saddr := by
  obtain ⟨ip, rfl⟩ := hs
  rw [parseIP_text] at hd
  have hf := p.sameFamily
  rw [← Option.some.inj hd] at hf
  cases hsrc : p.saddr with
  | v4 src =>
    rw [parseIP_eq_v4, ← IPv4.parse_eq_some, nftAddress]
    simp
  | v6 => simp [hsrc, IP.isV4] at hf

/-! ## The rules file -/

section Nft
variable {policy : ControllerServiceAccessPolicy} {p : Packet} {wg internet : String}

theorem nft_test_daddr (hip : DottedQuad policy.serviceIP) :
    (NftMatch.ipDaddr policy.serviceIP).test p = toService policy p := by
  simp only [NftMatch.test, toService, hip.nftAddress]

theorem nft_test_saddr (hip : DottedQuad policy.serviceIP) :
    (NftMatch.ipSaddr policy.serviceIP).test p = fromService policy p := by
  simp only [NftMatch.test, fromService, hip.nftAddress]

/-- The set of the valid peers, in a rule for packets to the service. -/
theorem nft_test_peers (hip : DottedQuad policy.serviceIP) (hd : toService policy p) :
    (NftMatch.ipSaddrIn (policy.allowedPeerAddresses.filter isValidIP)).test p =
      fromAllowedPeer policy p := by
  have hd : parseIP policy.serviceIP = some p.daddr := by simpa [toService] using hd
  rw [NftMatch.test, List.any_filter, fromAllowedPeer]
  refine congrArg policy.allowedPeerAddresses.any (funext fun peer => ?_)
  by_cases h : parseIP (trimSpace peer) = some p.saddr
  · simp [h, isValidIP, nftAddress_eq_saddr hip hd]
  · simp [h, nftAddress_eq_saddr hip hd]

theorem fromAllowedPeer_eq_false
    (hpeers : ¬(policy.allowedPeerAddresses.filter isValidIP).length > 0) :
    fromAllowedPeer policy p = false := by
  simp only [fromAllowedPeer, List.any_eq_false, decide_eq_true_eq]
  intro peer hpeer h
  have hmem : peer ∈ policy.allowedPeerAddresses.filter isValidIP :=
    List.mem_filter.mpr ⟨hpeer, by simp [isValidIP, h]⟩
  exact hpeers (List.length_pos_of_mem hmem)

/-- A rule for the interface and the same rule for all of them. -/
theorem nft_both (ms : List NftMatch) (v : Verdict) (rest : List (Rule Packet)) :
    verdict (NftRule.rule ⟨.iifname wg :: ms, v⟩ :: NftRule.rule ⟨ms, v⟩ :: rest) p =
      if ms.all (·.test p) then some v else verdict rest p := by
  simp only [verdict_cons, NftRule.rule_test, NftRule.rule_verdict, List.all_cons]
  by_cases h : ms.all (·.test p)
  · simp [h]
  · simp [h]

/-- The accept rule of a closed service, which is written only where there are valid peers. -/
theorem nft_closed_peers (hip : DottedQuad policy.serviceIP) :
    verdict ((if (policy.allowedPeerAddresses.filter isValidIP).length > 0 then
      [⟨[.ipSaddrIn (policy.allowedPeerAddresses.filter isValidIP),
        .ipDaddr policy.serviceIP], .accept⟩] else [] : List NftRule).map (·.rule)) p =
    if toService policy p && fromAllowedPeer policy p then some .accept else none := by
  split
  next =>
    simp only [List.map_cons, List.map_nil, verdict_singleton, NftRule.rule_test, List.all_cons,
      List.all_nil, Bool.and_true, nft_test_daddr hip, NftRule.rule_verdict]
    cases hd : toService policy p with
    | false => simp
    | true => simp [nft_test_peers hip hd]
  next hpeers => simp [fromAllowedPeer_eq_false hpeers]

/-- The accept rules of the SSH port. -/
theorem nft_ssh (hip : DottedQuad policy.serviceIP) :
    verdict ((if policy.sshUnlocked && decide (0 < policy.allowedPeerAddresses.length) then
      if 0 < (policy.allowedPeerAddresses.filter isValidIP).length then
        [⟨[.iifname wg, .ipDaddr policy.serviceIP, .tcpDport policy.sshPort,
            .ipSaddrIn (policy.allowedPeerAddresses.filter isValidIP)], .accept⟩,
          ⟨[.ipDaddr policy.serviceIP, .tcpDport policy.sshPort,
            .ipSaddrIn (policy.allowedPeerAddresses.filter isValidIP)], .accept⟩]
      else [] else [] : List NftRule).map (·.rule)) p =
    if toService policy p && tcpTo p policy.sshPort && (policy.sshUnlocked &&
      fromAllowedPeer policy p) then some .accept else none := by
  cases hu : policy.sshUnlocked with
  | false => simp
  | true =>
    split
    next =>
      split
      next =>
        simp only [List.map_cons, List.map_nil, nft_both, verdict_nil, List.all_cons, List.all_nil,
          Bool.and_true, Bool.true_and, nft_test_daddr hip, NftMatch.test_tcpDport, Bool.and_assoc]
        cases hd : toService policy p with
        | false => simp
        | true => simp [nft_test_peers hip hd]
      next hpeers => simp [fromAllowedPeer_eq_false hpeers]
    next hpeers =>
      have : policy.allowedPeerAddresses = [] := by simpa using hpeers
      simp [fromAllowedPeer, this]

theorem nft_closed (htrim : trimSpace wg = wg) (hwg : wg ≠ "") (hip : DottedQuad policy.serviceIP) :
    verdict ((closedNetworkRules wg policy).map (·.rule)) p =
      closedVerdict nftNames policy p wg := by
  cases hc : policy.networkClosed with
  | false => simp [closedNetworkRules, closedVerdict, hc]
  | true =>
    simp only [closedNetworkRules, closedVerdict, hc, hip.isValidIP, htrim, List.map_append,
      verdict_append, Bool.not_true, Bool.or_self, Bool.false_eq_true, if_false,
      nft_closed_peers hip]
    cases hd : toService policy p with
    | false => simp [hwg, verdict_singleton, nft_test_daddr hip, hd]
    | true =>
      cases fromAllowedPeer policy p <;> simp [hwg, verdict_singleton, nft_test_daddr hip, hd]

theorem nft_egress (hip : DottedQuad policy.serviceIP) :
    verdict ((if !policy.egressEnabled && decide (internet ≠ "") then
      [⟨[.oifname internet, .ipSaddr policy.serviceIP], .drop⟩] else [] : List NftRule).map
        (·.rule)) p =
    if !policy.egressEnabled && internet ≠ "" && nftNames internet p.oif &&
      fromService policy p then
      some .drop
    else none := by
  simp only [verdict_map_ite, List.map_cons, List.map_nil, verdict_singleton, NftRule.rule_test,
    List.all_cons, List.all_nil, Bool.and_true, nft_test_saddr hip, NftMatch.test_oifname,
    NftRule.rule_verdict]
  cases !policy.egressEnabled && decide (internet ≠ "") <;> simp

/-- The rules for the packets that the service sends to the interface. -/
theorem nft_replies (hip : DottedQuad policy.serviceIP) :
    verdict [NftRule.rule ⟨[.oifname wg, .ipSaddr policy.serviceIP,
          .tcpSport policy.servicePort], .accept⟩,
        NftRule.rule ⟨[.oifname wg, .ipSaddr policy.serviceIP, .ctEstablished], .accept⟩] p =
      if nftNames wg p.oif && fromService policy p &&
        (tcpFrom p policy.servicePort || tracked p) then
        some .accept
      else none := by
  simp only [verdict_cons, NftRule.rule_test, NftRule.rule_verdict, List.all_cons, List.all_nil,
    Bool.and_true, nft_test_saddr hip, NftMatch.test_oifname, NftMatch.test_tcpSport,
    NftMatch.test_ctEstablished, verdict_nil]
  cases nftNames wg p.oif <;> cases fromService policy p <;>
    cases tcpFrom p policy.servicePort <;> simp

theorem nft_open (hwgtrim : trimSpace wg = wg) (hwg : wg ≠ "")
    (htrim : trimSpace internet = internet)
    (hip : DottedQuad policy.serviceIP) (hport : 0 < policy.servicePort)
    (hssh : 0 < policy.sshPort) :
    verdict ((controllerAccessPolicyRules wg internet .forward policy).map (·.rule)) p =
      openVerdict nftNames policy p wg internet := by
  simp only [controllerAccessPolicyRules, hip.isValidIP, htrim, Bool.not_true, Bool.false_eq_true,
    if_false, decide_true, Bool.and_true, List.map_append, verdict_append, nft_egress hip, guard_or,
    Option.none_or, openVerdict]
  congr 1
  cases hc : policy.networkClosed with
  | true => rfl
  | false =>
    simp only [hwgtrim, hwg, hport, hssh, gt_iff_lt, Bool.false_eq_true, if_false, if_true,
      decide_true, Bool.and_true, ne_eq, not_false_eq_true, List.map_append, verdict_append,
      List.singleton_append, List.map_cons, List.map_nil, nft_both, verdict_nil, nft_replies hip,
      nft_ssh hip,
      guard_or, Option.none_or, List.all_cons, List.all_nil, nft_test_daddr hip,
      NftMatch.test_tcpDport, verdict_singleton, NftRule.rule_test, NftRule.rule_verdict,
      NftMatch.test_iifname]
    cases toService policy p && tcpTo p policy.sshPort <;> simp

end Nft

/-! ## The iptables chain -/

section Ipt
variable {policy : ControllerServiceAccessPolicy} {p : Packet} {wg internet : String}

theorem ipt_test_daddr (hip : DottedQuad policy.serviceIP) :
    (IptMatch.destinationCIDR policy.serviceIP).test p = toService policy p := by
  simp only [IptMatch.test, toService, hip.iptAddress]

theorem ipt_test_saddr (hip : DottedQuad policy.serviceIP) :
    (IptMatch.sourceCIDR policy.serviceIP).test p = fromService policy p := by
  simp only [IptMatch.test, fromService, hip.iptAddress]

/-- A rule for the interface and the same rule for all of them. -/
theorem ipt_both (ms : List IptMatch) (v : Verdict) (rest : List (Rule Packet)) :
    verdict (IptRule.rule ⟨.inInterface wg :: ms, v⟩ :: IptRule.rule ⟨ms, v⟩ :: rest) p =
      if ms.all (·.test p) then some v else verdict rest p := by
  simp only [verdict_cons, IptRule.rule_test, IptRule.rule_verdict, List.all_cons]
  by_cases h : ms.all (·.test p)
  · simp [h]
  · simp [h]

/-- The accept rules of every peer, all of which match `rest` as well. -/
theorem ipt_peers (hpeers : ∀ peer ∈ policy.allowedPeerAddresses, DottedQuad peer)
    (rest : List IptMatch) :
    verdict ((policy.allowedPeerAddresses.flatMap fun peer =>
      if !isValidIP peer then []
      else [⟨.inInterface wg :: .source peer :: rest, .accept⟩,
        ⟨.source peer :: rest, .accept⟩] : List IptRule).map (·.rule)) p =
    if rest.all (·.test p) && fromAllowedPeer policy p then some .accept else none := by
  rw [List.map_flatMap, verdict_flatMap_any (f := fun peer =>
    decide (parseIP (trimSpace peer) = some p.saddr) && rest.all (·.test p)) (v := .accept)]
  · cases rest.all (·.test p) with
    | false => simp
    | true => simp [fromAllowedPeer]
  · intro peer hpeer
    have hq := hpeers peer hpeer
    have htest : (IptMatch.source peer).test p = decide (parseIP peer = some p.saddr) := by
      simp only [IptMatch.test, hq.iptAddress]
    simp only [hq.isValidIP, Bool.not_true, Bool.false_eq_true, if_false, List.map_cons,
      List.map_nil, ipt_both, verdict_nil, List.all_cons, hq.trimSpace, htest]

theorem ipt_closed (htrim : trimSpace wg = wg) (hwg : wg ≠ "") (hip : DottedQuad policy.serviceIP)
    (hpeers : ∀ peer ∈ policy.allowedPeerAddresses, DottedQuad peer) :
    verdict ((dockerUserClosedRules wg policy).map (·.rule)) p =
      closedVerdict iptNames policy p wg := by
  cases hc : policy.networkClosed with
  | false => simp [dockerUserClosedRules, closedVerdict, hc]
  | true =>
    simp only [dockerUserClosedRules, closedVerdict, hc, hip.isValidIP, htrim, hwg, ne_eq,
      not_false_eq_true, if_true, List.map_append, verdict_append, Bool.not_true, Bool.or_self,
      Bool.false_eq_true, if_false, List.singleton_append, ipt_peers hpeers, guard_or,
      Option.none_or]
    cases hd : toService policy p with
    | false => simp [verdict_singleton, ipt_test_daddr hip, hd]
    | true => simp [verdict_singleton, ipt_test_daddr hip, hd]

theorem ipt_egress (hip : DottedQuad policy.serviceIP) :
    verdict ((if !policy.egressEnabled && decide (internet ≠ "") then
      [⟨[.outInterface internet, .sourceCIDR policy.serviceIP], .drop⟩] else [] :
        List IptRule).map (·.rule)) p =
    if !policy.egressEnabled && internet ≠ "" && iptNames internet p.oif &&
      fromService policy p then
      some .drop
    else none := by
  simp only [verdict_map_ite, List.map_cons, List.map_nil, verdict_singleton, IptRule.rule_test,
    List.all_cons, List.all_nil, Bool.and_true, ipt_test_saddr hip, IptMatch.test_outInterface,
    IptRule.rule_verdict]
  cases !policy.egressEnabled && decide (internet ≠ "") <;> simp

/-- The rules for the packets that the service sends to the interface. -/
theorem ipt_replies (hip : DottedQuad policy.serviceIP) :
    verdict [IptRule.rule ⟨[.outInterface wg, .sourceCIDR policy.serviceIP,
          .tcpSport policy.servicePort], .accept⟩,
        IptRule.rule ⟨[.outInterface wg, .sourceCIDR policy.serviceIP, .ctEstablished],
          .accept⟩] p =
      if iptNames wg p.oif && fromService policy p &&
        (tcpFrom p policy.servicePort || tracked p) then
        some .accept
      else none := by
  simp only [verdict_cons, IptRule.rule_test, IptRule.rule_verdict, List.all_cons, List.all_nil,
    Bool.and_true, ipt_test_saddr hip, IptMatch.test_outInterface, IptMatch.test_tcpSport,
    IptMatch.test_ctEstablished, verdict_nil]
  cases iptNames wg p.oif <;> cases fromService policy p <;>
    cases tcpFrom p policy.servicePort <;> simp

/-- The accept rules of the SSH port. -/
theorem ipt_ssh (hip : DottedQuad policy.serviceIP)
    (hpeers : ∀ peer ∈ policy.allowedPeerAddresses, DottedQuad peer) :
    verdict ((if policy.sshUnlocked && decide (policy.allowedPeerAddresses.length > 0) then
      policy.allowedPeerAddresses.flatMap fun peer =>
        if !isValidIP peer then []
        else [⟨[.inInterface wg, .source peer, .destinationCIDR policy.serviceIP,
            .tcpDport policy.sshPort], .accept⟩,
          ⟨[.source peer, .destinationCIDR policy.serviceIP, .tcpDport policy.sshPort], .accept⟩]
      else [] : List IptRule).map (·.rule)) p =
    if toService policy p && tcpTo p policy.sshPort && (policy.sshUnlocked &&
      fromAllowedPeer policy p) then some .accept else none := by
  rw [verdict_map_ite, ipt_peers hpeers]
  simp only [List.all_cons, List.all_nil, Bool.and_true, ipt_test_daddr hip,
    IptMatch.test_tcpDport]
  cases hu : policy.sshUnlocked with
  | false => simp
  | true =>
    cases ha : policy.allowedPeerAddresses with
    | nil => simp [fromAllowedPeer, ha]
    | cons peer peers => simp

theorem ipt_open (hwgtrim : trimSpace wg = wg) (hwg : wg ≠ "")
    (htrim : trimSpace internet = internet)
    (hip : DottedQuad policy.serviceIP)
    (hpeers : ∀ peer ∈ policy.allowedPeerAddresses, DottedQuad peer) :
    verdict ((dockerUserPolicyRules wg internet policy).map (·.rule)) p =
      openVerdict iptNames policy p wg internet := by
  simp only [dockerUserPolicyRules, hip.isValidIP, htrim, Bool.not_true, Bool.false_eq_true,
    if_false, List.map_append, verdict_append, ipt_egress hip, guard_or, Option.none_or,
    openVerdict]
  congr 1
  cases hc : policy.networkClosed with
  | true => rfl
  | false =>
    simp only [hwgtrim, hwg, Bool.false_eq_true, if_false, if_true, ne_eq, not_false_eq_true,
      List.map_append, verdict_append, List.map_cons, List.map_nil, ipt_both, verdict_nil,
      ipt_replies hip, ipt_ssh hip hpeers, guard_or, Option.none_or, List.all_cons,
      List.all_nil, Bool.and_true, ipt_test_daddr hip, IptMatch.test_tcpDport, verdict_singleton,
      IptRule.rule_test, IptRule.rule_verdict, IptMatch.test_inInterface]
    cases toService policy p && tcpTo p policy.sshPort <;> simp

end Ipt

/-! ## The two firewalls agree -/

section Names
variable {policy : ControllerServiceAccessPolicy} {p : Packet} {wg internet : String}

/-- Both languages read a name without a wildcard alike. -/
theorem nftNames_eq_iptNames {name interface : String} (hname : name ≠ "") (h : NoWildcard name) :
    nftNames name interface = iptNames name interface := by
  rw [nftNames_of_noWildcard h, iptNames_of_noWildcard hname h]

theorem closedVerdict_names (hwg : wg ≠ "") (h : NoWildcard wg) :
    closedVerdict nftNames policy p wg = closedVerdict iptNames policy p wg := by
  rw [closedVerdict, closedVerdict, nftNames_eq_iptNames hwg h]

theorem openVerdict_names (hwg : wg ≠ "") (h : NoWildcard wg) (hinternet : NoWildcard internet) :
    openVerdict nftNames policy p wg internet = openVerdict iptNames policy p wg internet := by
  simp only [openVerdict, nftNames_eq_iptNames hwg h]
  -- without a name for the internet interface there is no rule for it
  by_cases hname : internet = ""
  · simp [hname]
  · rw [nftNames_eq_iptNames hname hinternet]

end Names

namespace HostServiceAccessExecutor
variable (e : HostServiceAccessExecutor) {policies : List ControllerServiceAccessPolicy}
  {p : Packet}

/-- The verdict of the forward chain of the rules file. Its policy is `accept`. -/
def forwardVerdict (policies : List ControllerServiceAccessPolicy) (p : Packet) : Verdict :=
  (verdict (e.nftForward policies) p).getD .accept

/-- The verdict of a chain that is made of the closed rules of every policy, the rule for tracked
connections and the other rules of every policy. -/
def policyVerdict (policies : List ControllerServiceAccessPolicy) (p : Packet)
    (closed opened : ControllerServiceAccessPolicy → List (Rule Packet)) : Option Verdict :=
  (verdict (policies.flatMap closed) p).or
    (if tracked p then some .accept else verdict (policies.flatMap opened) p)

theorem verdict_nftForward : verdict (e.nftForward policies) p =
    policyVerdict policies p
      (fun policy => (closedNetworkRules e.interfaceName policy).map (·.rule))
      (fun policy => (controllerAccessPolicyRules e.interfaceName e.internetInterface .forward
        policy).map (·.rule)) := by
  simp only [nftForward, rules, renderControllerAccessRules, appendClosedNetworkRules,
    appendControllerAccessPolicyRules, List.map_append, List.map_flatMap, List.map_cons,
    verdict_append, verdict_cons, NftRule.rule_test, NftRule.rule_verdict, List.all_cons,
    List.all_nil, NftMatch.test_ctEstablished, Bool.and_true, policyVerdict]

theorem verdict_servicesChain : verdict (e.servicesChain policies) p =
    policyVerdict policies p
      (fun policy => (dockerUserClosedRules e.interfaceName policy).map (·.rule))
      (fun policy => (dockerUserPolicyRules e.interfaceName e.internetInterface policy).map
        (·.rule)) := by
  simp only [servicesChain, dockerUserRules, List.map_append, List.map_flatMap, List.map_cons,
    verdict_append, verdict_cons, IptRule.rule_test, IptRule.rule_verdict, List.all_cons,
    List.all_nil, IptMatch.test_ctEstablished, Bool.and_true, policyVerdict]

end HostServiceAccessExecutor

/-- What the two firewalls need to agree on a policy. -/
structure Enforceable (policy : ControllerServiceAccessPolicy) : Prop where
  serviceIP : DottedQuad policy.serviceIP
  peers : ∀ peer ∈ policy.allowedPeerAddresses, DottedQuad peer
  servicePort : 0 < policy.servicePort
  sshPort : 0 < policy.sshPort

namespace HostServiceAccessExecutor
variable (e : HostServiceAccessExecutor) {policies : List ControllerServiceAccessPolicy}

theorem verdict_eq (hwg : e.interfaceName ≠ "") (hname : NoWildcard e.interfaceName)
    (hinternet : NoWildcard e.internetInterface) (h : ∀ policy ∈ policies, Enforceable policy)
    (p : Packet) :
    verdict (e.nftForward policies) p = verdict (e.servicesChain policies) p := by
  have hclosed : ∀ policy ∈ policies,
      verdict ((closedNetworkRules e.interfaceName policy).map (·.rule)) p =
        verdict ((dockerUserClosedRules e.interfaceName policy).map (·.rule)) p := by
    intro policy hmem
    have hpolicy := h policy hmem
    rw [nft_closed e.interfaceName_trimmed hwg hpolicy.serviceIP,
      ipt_closed e.interfaceName_trimmed hwg hpolicy.serviceIP hpolicy.peers,
      closedVerdict_names hwg hname]
  have hopen : ∀ policy ∈ policies,
      verdict ((controllerAccessPolicyRules e.interfaceName e.internetInterface .forward
        policy).map (·.rule)) p =
        verdict ((dockerUserPolicyRules e.interfaceName e.internetInterface policy).map
          (·.rule)) p := by
    intro policy hmem
    have hpolicy := h policy hmem
    rw [nft_open e.interfaceName_trimmed hwg e.internetInterface_trimmed hpolicy.serviceIP
        hpolicy.servicePort hpolicy.sshPort,
      ipt_open e.interfaceName_trimmed hwg e.internetInterface_trimmed hpolicy.serviceIP
        hpolicy.peers,
      openVerdict_names hwg hname hinternet]
  rw [verdict_nftForward, verdict_servicesChain, policyVerdict, policyVerdict,
    verdict_flatMap_congr hclosed, verdict_flatMap_congr hopen]

/-- The rules file and the iptables chain drop the same packets, where no interface name ends in a
wildcard. -/
theorem nftForward_drops_iff (hwg : e.interfaceName ≠ "") (hname : NoWildcard e.interfaceName)
    (hinternet : NoWildcard e.internetInterface) (h : ∀ policy ∈ policies, Enforceable policy)
    (p : Packet) : Drops (e.nftForward policies) p ↔ Drops (e.servicesChain policies) p := by
  rw [Drops, Drops, e.verdict_eq hwg hname hinternet h p]

/-- An open service with SSH unlocked for one peer. -/
def banking : ControllerServiceAccessPolicy where
  teamID := 101
  teamName := "Alpha"
  challengeID := 1
  challengeName := "banking"
  serviceIP := "10.80.1.11"
  servicePort := 10001
  sshPort := 22
  sshUnlocked := true
  allowedPeerAddresses := ["10.70.11.20"]
  egressEnabled := true
  networkClosed := false

/-- A packet from a WireGuard peer to the service of `banking`. -/
def toBanking (peer : Net.IPv4) (port : Nat) : Packet where
  iif := "wg0"
  oif := "br-services"
  saddr := .v4 peer
  daddr := .v4 ⟨10, 80, 1, 11⟩
  protocol := .tcp
  sport := 40000
  dport := port
  ct := .new

theorem banking_enforceable : Enforceable banking where
  serviceIP := ⟨⟨10, 80, 1, 11⟩, by decide⟩
  peers := by
    intro peer hpeer
    rw [List.mem_singleton.mp hpeer]
    exact ⟨⟨10, 70, 11, 20⟩, by decide⟩
  servicePort := by decide
  sshPort := by decide

theorem nftForward_drops_iff_banking :
    (Drops (defaults.nftForward [banking]) (toBanking ⟨10, 70, 12, 5⟩ 22) ↔
      Drops (defaults.servicesChain [banking]) (toBanking ⟨10, 70, 12, 5⟩ 22)) ∧
    Drops (defaults.servicesChain [banking]) (toBanking ⟨10, 70, 12, 5⟩ 22) :=
  ⟨nftForward_drops_iff defaults (by decide) (by decide) (by decide)
    (by simpa using banking_enforceable) _, by decide⟩

/-- The default settings, with `wg+` for the WireGuard interface. -/
def allWireGuard : HostServiceAccessExecutor :=
  { defaults with interfaceName := "wg+", interfaceName_trimmed := by decide }

/-- To iptables `wg+` is every interface that begins with `wg`, to nftables one of that name. -/
theorem allWireGuard_drops_apart :
    allWireGuard.interfaceName ≠ "" ∧ allWireGuard.internetInterface ≠ "" ∧
      (∀ policy ∈ [banking], Enforceable policy) ∧
      Drops (allWireGuard.servicesChain [banking]) (toBanking ⟨10, 70, 12, 5⟩ 8080) ∧
      ¬Drops (allWireGuard.nftForward [banking]) (toBanking ⟨10, 70, 12, 5⟩ 8080) :=
  ⟨by decide, by decide, by simpa using banking_enforceable, by decide, by decide⟩

/-! ## The verdict on a packet to a service -/

section Verdicts
variable (hip : ∀ policy ∈ policies, DottedQuad policy.serviceIP)
  (hdistinct : (policies.map (·.serviceIP)).Nodup)
include hip hdistinct

/-- A packet goes to the service of one policy only. -/
theorem toService_eq_false {policy other : ControllerServiceAccessPolicy} {p : Packet}
    (hmem : policy ∈ policies) (hto : toService policy p) (hother : other ∈ policies)
    (hne : other ≠ policy) : toService other p = false := by
  by_contra h
  simp only [toService, decide_eq_true_eq, Bool.not_eq_false] at hto h
  refine hne (List.inj_on_of_nodup_map hdistinct hother hmem ?_)
  obtain ⟨ip, hp⟩ := hip policy hmem
  obtain ⟨ip', hp'⟩ := hip other hother
  rw [hp, parseIP_text] at hto
  rw [hp', parseIP_text, ← hto] at h
  rw [hp, hp', IP.v4.inj (Option.some.inj h)]

/-- The closed rules of all policies say of such a packet what those of its policy say. -/
theorem verdict_closed (hwg : e.interfaceName ≠ "") {policy : ControllerServiceAccessPolicy}
    {p : Packet} (hmem : policy ∈ policies) (hto : toService policy p) :
    verdict (policies.flatMap fun policy =>
        (closedNetworkRules e.interfaceName policy).map (·.rule)) p =
      closedVerdict nftNames policy p e.interfaceName := by
  rw [verdict_flatMap_of_unique hmem, nft_closed e.interfaceName_trimmed hwg (hip policy hmem)]
  intro other hother hne
  rw [nft_closed e.interfaceName_trimmed hwg (hip other hother)]
  simp [closedVerdict, toService_eq_false hip hdistinct hmem hto hother hne]

/-- So do the other rules, for a packet that leaves by neither of the two interfaces. -/
theorem verdict_open (hwg : e.interfaceName ≠ "")
    (hports : ∀ policy ∈ policies, 0 < policy.servicePort ∧ 0 < policy.sshPort)
    {policy : ControllerServiceAccessPolicy} {p : Packet} (hmem : policy ∈ policies)
    (hto : toService policy p) (hwgOut : nftNames e.interfaceName p.oif = false)
    (hinternetOut : nftNames e.internetInterface p.oif = false) :
    verdict (policies.flatMap fun policy => (controllerAccessPolicyRules e.interfaceName
        e.internetInterface .forward policy).map (·.rule)) p =
      openVerdict nftNames policy p e.interfaceName e.internetInterface := by
  have hnft : ∀ policy ∈ policies, verdict ((controllerAccessPolicyRules e.interfaceName
      e.internetInterface .forward policy).map (·.rule)) p =
        openVerdict nftNames policy p e.interfaceName e.internetInterface := fun policy hmem =>
    nft_open e.interfaceName_trimmed hwg e.internetInterface_trimmed (hip policy hmem)
      (hports policy hmem).1 (hports policy hmem).2
  rw [verdict_flatMap_of_unique hmem, hnft policy hmem]
  intro other hother hne
  rw [hnft other hother]
  simp [openVerdict, toService_eq_false hip hdistinct hmem hto hother hne, hwgOut, hinternetOut]

/-- What the rules file makes of a packet to a service: one that comes in by the WireGuard
interface reaches a closed service from its allowed peers only, a new connection reaches the SSH
port of an open one only when SSH is unlocked and from its allowed peers, and nothing new but its
two ports is reached by the WireGuard interface. -/
theorem forwardVerdict_toService (hwg : e.interfaceName ≠ "")
    (hports : ∀ policy ∈ policies, 0 < policy.servicePort ∧ 0 < policy.sshPort ∧
      policy.sshPort ≠ policy.servicePort)
    {policy : ControllerServiceAccessPolicy} {p : Packet} (hmem : policy ∈ policies)
    (hto : toService policy p) :
    (policy.networkClosed = true → nftNames e.interfaceName p.iif →
      (e.forwardVerdict policies p = .accept ↔ fromAllowedPeer policy p = true)) ∧
    (policy.networkClosed = false → p.ct = .new → tcpTo p policy.sshPort →
      nftNames e.interfaceName p.oif = false → nftNames e.internetInterface p.oif = false →
      (e.forwardVerdict policies p = .accept ↔
        policy.sshUnlocked = true ∧ fromAllowedPeer policy p = true)) ∧
    (policy.networkClosed = false → p.ct = .new → nftNames e.interfaceName p.iif →
      nftNames e.interfaceName p.oif = false → nftNames e.internetInterface p.oif = false →
      ¬tcpTo p policy.servicePort → ¬tcpTo p policy.sshPort →
      e.forwardVerdict policies p = .drop) := by
  have hports' : ∀ policy ∈ policies, 0 < policy.servicePort ∧ 0 < policy.sshPort :=
    fun policy hmem => ⟨(hports policy hmem).1, (hports policy hmem).2.1⟩
  have hclosed := e.verdict_closed hip hdistinct hwg hmem hto
  rw [forwardVerdict, verdict_nftForward, policyVerdict, hclosed, closedVerdict, hto]
  refine ⟨fun hc hiif => ?_, fun hc hct hssh hout hout' => ?_,
    fun hc hct hiif hout hout' hservice hssh => ?_⟩
  · cases fromAllowedPeer policy p <;> simp [hc, hiif]
  · have hservice : tcpTo p policy.servicePort = false := by
      simp only [tcpTo, Bool.and_eq_true, decide_eq_true_eq] at hssh
      simp [tcpTo, ← hssh.2, (hports policy hmem).2.2.symm]
    rw [e.verdict_open hip hdistinct hwg hports' hmem hto hout hout', openVerdict]
    cases policy.sshUnlocked <;> cases fromAllowedPeer policy p <;>
      simp [hc, hct, tracked, hout, hout', hto, hservice, hssh]
  · rw [e.verdict_open hip hdistinct hwg hports' hmem hto hout hout', openVerdict]
    simp [hc, hct, tracked, hout, hout', hto, hservice, hssh, hiif]

end Verdicts

theorem forwardVerdict_banking :
    defaults.forwardVerdict [banking] (toBanking ⟨10, 70, 11, 20⟩ 22) = .accept ∧
      defaults.forwardVerdict [banking] (toBanking ⟨10, 70, 11, 20⟩ 8080) = .drop := by
  have hip : ∀ policy ∈ [banking], DottedQuad policy.serviceIP := by
    simpa using banking_enforceable.serviceIP
  have hports : ∀ policy ∈ [banking], 0 < policy.servicePort ∧ 0 < policy.sshPort ∧
      policy.sshPort ≠ policy.servicePort := by decide
  have hto (port : Nat) : toService banking (toBanking ⟨10, 70, 11, 20⟩ port) = true := by
    simp only [toService, decide_eq_true_eq]
    exact (@parseIP_eq_v4 _ ⟨10, 80, 1, 11⟩).mpr (by decide)
  have hwg : defaults.interfaceName ≠ "" := by decide
  constructor
  · refine ((forwardVerdict_toService defaults hip (by simp) hwg hports (by simp) (hto 22)).2.1
      rfl rfl (by decide) (by decide) (by decide)).mpr ⟨rfl, ?_⟩
    decide
  · exact (forwardVerdict_toService defaults hip (by simp) hwg hports (by simp) (hto 8080)).2.2
      rfl rfl (by decide) (by decide) (by decide) (by decide) (by decide)

end HostServiceAccessExecutor

end ADPlatform.Controller
