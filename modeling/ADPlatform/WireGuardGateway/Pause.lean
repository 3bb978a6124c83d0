import ADPlatform.WireGuardGateway.Firewall

/-! # The gateway while the match is paused

While the match is paused, the host applier keeps the peers of the team "Organizer" only. The
in-memory store lists an organizer without a team under this name, and every other player under the
name of the team. -/

namespace ADPlatform.WireGuardGateway
open APIGateway Net

/-- The peers that the rules file is made of. -/
def hostPeers (matchPaused : Bool) (peers : List WireGuardGatewayPeer) :
    List WireGuardGatewayPeer :=
  if matchPaused then peers.filter (·.teamName = "Organizer") else peers

/-- The rules file of the host applier. -/
def hostRules (nftTable interfaceName serverIP : String) (matchPaused : Bool)
    (peers : List WireGuardGatewayPeer) (forwardCIDRs : List String) : NftTable :=
  renderNftablesRulesWithForwardCIDRs nftTable interfaceName serverIP
    (activeWireGuardPeers (hostPeers matchPaused peers)) forwardCIDRs

theorem mem_activeWireGuardPeers_hostPeers {peers : List WireGuardGatewayPeer}
    {peer : WireGuardGatewayPeer} : peer ∈ activeWireGuardPeers (hostPeers true peers) ↔
      peer ∈ activeWireGuardPeers peers ∧ peer.teamName = "Organizer" := by
  simp only [activeWireGuardPeers, hostPeers, if_true, List.mem_filter, decide_eq_true_eq]
  tauto

end ADPlatform.WireGuardGateway

namespace ADPlatform.APIGateway.MemoryStore
open Net Text WireGuardGateway
variable {T : CaseTable} {s s₀ : MemoryStore} {p : Int} {record : AdminPlayerRecord}

/-- The gateway lets the player through while the match is paused. -/
structure Exempt (s : MemoryStore) (p : Int) (record : AdminPlayerRecord) : Prop where
  listed : s.peerListed p record.player = true
  status : record.wireGuard.status ≠ .revoked
  teamName : s.peerTeamName record.player = "Organizer"

/-- Where no team has the name, these are the active organizers without a team. -/
theorem exempt_iff (hnames : ∀ id name, s.teamNames.lookup id = some name → name ≠ "Organizer") :
    s.Exempt p record ↔ s.playerDeactivated p = false ∧ record.player.role = .organizer ∧
      record.player.teamID = 0 ∧ record.wireGuard.status ≠ .revoked := by
  have hteam : s.teamNameForID record.player.teamID ≠ "Organizer" := by
    unfold teamNameForID
    cases hname : s.teamNames.lookup record.player.teamID with
    | some name => exact hnames _ _ hname
    | none =>
      intro heq
      have hhead := congrArg (fun name : String => name.toList.head?) heq
      simp [String.toList_append] at hhead
  constructor
  · rintro ⟨hlisted, hstatus, hname⟩
    rw [peerTeamName] at hname
    split at hname
    next h =>
      simp only [peerListed, Bool.and_eq_true, Bool.not_eq_true'] at hlisted
      exact ⟨hlisted.1.1, h.1, h.2, hstatus⟩
    next => exact absurd hname hteam
  · rintro ⟨hactive, hrole, hzero, hstatus⟩
    refine ⟨?_, hstatus, if_pos ⟨hrole, hzero⟩⟩
    simp [peerListed, AdminPlayer.hasPeer, hactive, hrole]

theorem addressed_initial (h : s.InitialKeys32) : s.roster.Addressed := by
  rcases h with rfl | ⟨teamID, now, input, hkeys, h⟩
  · exact addressed_empty
  have hpool :
      ∀ account ∈ seedAccounts, (max (account.1 - 1) 0).toNat < wireGuardPeerAddressPoolSize := by
    decide
  have hapart : ∀ a ∈ seedAccounts, ∀ b ∈ seedAccounts,
      (max (a.1 - 1) 0).toNat = (max (b.1 - 1) 0).toNat → a.1 = b.1 := by decide
  have hat {p : Int} {record : AdminPlayerRecord} (hp : s.players.lookup p = some record) :
      record.wireGuard.address = wireGuardPeerAddressAt (max (record.player.id - 1) 0).toNat ∧
        (record.player.id, record.player.teamID, record.player.email) ∈ seedAccounts ∧
        record.player.id = p := by
    obtain ⟨hseeded, hid⟩ := seeded_newMemoryStore h hp
    obtain ⟨created, teamName, displayName, peer, hstate⟩ := hseeded.peer
    have hkeys : { input record.player.id with now := created }.Keys32 := hkeys record.player.id
    exact ⟨(WireGuardInput.newWireGuardPeerState_keys hkeys hstate).2.1, hseeded.account, hid⟩
  constructor
  · intro p record hp _
    obtain ⟨haddress, haccount, -⟩ := hat hp
    exact ⟨_, hpool _ haccount, haddress⟩
  · intro p q record other hp hq _ heq
    obtain ⟨haddress, haccount, rfl⟩ := hat hp
    obtain ⟨haddress', haccount', rfl⟩ := hat hq
    rw [haddress, haddress'] at heq
    exact hapart _ haccount _ haccount'
      (wireGuardPeerAddressAt_inj (hpool _ haccount) (hpool _ haccount') heq)

/-- What the calls keep of the peers. -/
theorem peers_run (hs : s₀.InitialKeys32) {calls : List MemoryCall}
    (hkeys : ∀ call ∈ calls, call.Keys32) :
    (Runs.run (exec T) s₀ calls).roster.Provisioned ∧
      (Runs.run (exec T) s₀ calls).roster.Addressed := by
  induction calls using List.reverseRecOn with
  | nil => exact ⟨fun p record hp => .inr (issued_initial hs hp), addressed_initial hs⟩
  | append_singleton calls call ih =>
    obtain ⟨hprovisioned, haddressed⟩ :=
      ih fun call hcall => hkeys call (List.mem_append_left _ hcall)
    rw [Runs.run_append]
    exact ⟨provisioned_step (hkeys call (by simp)) hprovisioned (rosterStep_exec T call _),
      addressed_exec T call haddressed⟩

/-- The peers that are listed and taken are those with an address, but for the revoked ones. -/
theorem mem_active_iff (hs : s.roster.Provisioned) {rt : Go.Runtime}
    {peers : List WireGuardGatewayPeer}
    (h : (s.listWireGuardGatewayPeers rt).result = .ok peers) {peer : WireGuardGatewayPeer} :
    peer ∈ activeWireGuardPeers peers ↔ ∃ p record, s.players.lookup p = some record ∧
      s.peerListed p record.player = true ∧ record.wireGuard.status ≠ .revoked ∧
      record.wireGuard.address ≠ "" ∧ s.gatewayPeer record = peer := by
  rw [activeWireGuardPeers, List.mem_filter, mem_listWireGuardGatewayPeers h]
  constructor
  · rintro ⟨⟨p, record, hp, hlisted, rfl⟩, hvalid⟩
    simp only [gatewayPeer, Bool.and_eq_true] at hvalid
    refine ⟨p, record, hp, hlisted, of_decide_eq_true hvalid.1.1.1, fun hblank => ?_, rfl⟩
    rw [hblank] at hvalid
    exact absurd hvalid.2 (by decide)
  · rintro ⟨p, record, hp, hlisted, hstatus, haddress, rfl⟩
    have hissued : record.wireGuard.Issued :=
      (hs p record hp).resolve_left fun hblank => haddress hblank.1.address
    exact ⟨⟨p, record, hp, hlisted, rfl⟩, by
      simp [gatewayPeer, hstatus, hissued.publicKey, hissued.presharedKey, hissued.address]⟩

/-- In every state of a run of calls on a new store, the rules of a pause load and let a new packet
of the interface through exactly if it comes from the address of an exempt player and goes to an
allowed network. The host takes no packet from the address of any other player, and forwards no new
one: the connections that were open before the pause go on. Where no team is called like the
organizers, the exempt players are the active organizers without a team. -/
theorem paused_rules_enforce (T : CaseTable) (hs : s₀.InitialKeys32) {calls : List MemoryCall}
    (hkeys : ∀ call ∈ calls, call.Keys32) {rt : Go.Runtime} {peers : List WireGuardGatewayPeer}
    (hpeers : ((Runs.run (exec T) s₀ calls).listWireGuardGatewayPeers rt).result = .ok peers)
    (nftTable interfaceName : String) {serverIP : String} {forwardCIDRs : List String}
    (hserver : trimSpace serverIP = "" ∨ ∃ ip : IPv4, serverIP = ip.text)
    (hcidrs : ∀ cidr ∈ forwardCIDRs, (parseIPv4CIDR cidr).isSome) :
    let s := Runs.run (exec T) s₀ calls
    let t := hostRules nftTable interfaceName serverIP true peers forwardCIDRs
    t.Loads ∧
    (∀ packet : IPv4Packet, packet.iif = interfaceName → Untracked packet →
      (t.AcceptsForward packet ↔ (∃ p record, s.players.lookup p = some record ∧ s.Exempt p record ∧
        record.wireGuard.address = packet.saddr.text) ∧ ToAllowed forwardCIDRs packet)) ∧
    (∀ packet : IPv4Packet, packet.iif = interfaceName →
    ∀ p record, s.players.lookup p = some record →
      record.wireGuard.address = packet.saddr.text → ¬s.Exempt p record →
      ¬t.AcceptsInput packet ∧ (Untracked packet → ¬t.AcceptsForward packet)) ∧
    ((∀ id name, s.teamNames.lookup id = some name → name ≠ "Organizer") →
      ∀ p record, s.Exempt p record ↔ s.playerDeactivated p = false ∧
      record.player.role = .organizer ∧
        record.player.teamID = 0 ∧ record.wireGuard.status ≠ .revoked) := by
  intro s t
  obtain ⟨hprovisioned, haddressed⟩ := peers_run (T := T) hs hkeys
  have htext {peer : WireGuardGatewayPeer} (hpeer : peer ∈
    activeWireGuardPeers (hostPeers true peers)) :
      ∃ ip : IPv4, peer.address = ip.text := by
    obtain ⟨hactive, -⟩ := mem_activeWireGuardPeers_hostPeers.mp hpeer
    obtain ⟨p, record, hp, -, -, haddress, rfl⟩ := (mem_active_iff hprovisioned hpeers).mp hactive
    obtain ⟨index, hindex, hat⟩ := haddressed.pool hp haddress
    obtain ⟨ip, -, -, -, -, hip⟩ := wireGuardPeerAddressAt_text hindex
    exact ⟨ip, hat.trans hip⟩
  have hfrom (packet : IPv4Packet) : FromPeer (activeWireGuardPeers (hostPeers true peers)) packet ↔
      ∃ p record, s.players.lookup p = some record ∧ s.Exempt p record ∧
        record.wireGuard.address = packet.saddr.text := by
    constructor
    · rintro ⟨peer, hpeer, haddress⟩
      obtain ⟨hactive, hname⟩ := mem_activeWireGuardPeers_hostPeers.mp hpeer
      obtain ⟨p, record, hp, hlisted, hstatus, -, rfl⟩ :=
        (mem_active_iff hprovisioned hpeers).mp hactive
      exact ⟨p, record, hp, ⟨hlisted, hstatus, hname⟩, haddress⟩
    · rintro ⟨p, record, hp, ⟨hlisted, hstatus, hname⟩, haddress⟩
      have hne : record.wireGuard.address ≠ "" := by
        rw [haddress]
        exact fun hblank => absurd (isValidIP_text packet.saddr) (by rw [hblank]; decide)
      exact ⟨s.gatewayPeer record, mem_activeWireGuardPeers_hostPeers.mpr
        ⟨(mem_active_iff hprovisioned hpeers).mpr ⟨p, record, hp, hlisted, hstatus, hne, rfl⟩,
          hname⟩, haddress⟩
  have henforces : Enforces t interfaceName serverIP (activeWireGuardPeers (hostPeers true peers))
      forwardCIDRs :=
    enforces_renderNftablesRules (fun _ => htext) hserver hcidrs
  refine ⟨henforces.loads, fun packet hiif hct =>
    ?_, fun packet hiif p record hp haddress hexempt => ?_,
    fun hnames p record => exempt_iff hnames⟩
  · rw [henforces.forward packet hiif hct, hfrom]
  · refine henforces.opens_none hiif fun hpeer => ?_
    obtain ⟨q, other, hq, hother, haddress'⟩ := (hfrom packet).mp hpeer
    have hne : record.wireGuard.address ≠ "" := by
      rw [haddress]
      exact fun hblank => absurd (isValidIP_text packet.saddr) (by rw [hblank]; decide)
    obtain rfl : p = q := haddressed.unique hp hq hne (haddress.trans haddress'.symm)
    obtain rfl : record = other := Option.some.inj (hp.symm.trans hq)
    exact hexempt hother

/-- An organizer and a player of a team are created. -/
def pausedPlayers : List MemoryCall :=
  [.createAdminTeam { name := "Blue", contactEmail := "blue@example.com" } {},
   .createAdminPlayer { displayName := "Ann", email := "ann@example.com", password := "longpassword"
                        role := "organizer" } testKeys,
   .createAdminPlayer { teamID := 101, displayName := "Bob", email := "bob@example.com"
                        password := "longpassword", role := "member" } testKeys]

/-- A new connection to the web server of a service. -/
def newConnection (saddr : IPv4) : IPv4Packet :=
  ⟨"wg0", saddr, ⟨10, 80, 5, 11⟩, .tcp, 0, 80, .new⟩

/-- While the match is paused, the organizer gets to a service, and the player gets nowhere. -/
theorem paused_rules_enforce_pausedPlayers : ∃ peers,
    ((Runs.run (exec .ascii) {} pausedPlayers).listWireGuardGatewayPeers .inOrder).result =
      .ok peers ∧
    let t := hostRules "adtick" "wg0" "10.70.0.1" true peers ["10.80.0.0/16"]
    t.Loads ∧ t.AcceptsForward (newConnection ⟨10, 70, 1, 20⟩) ∧
      ¬ t.AcceptsInput (newConnection ⟨10, 70, 1, 21⟩) ∧
      ¬ t.AcceptsForward (newConnection ⟨10, 70, 1, 21⟩) := by
  have hkeys : ∀ call ∈ pausedPlayers, call.Keys32 := by
    intro call hcall
    rw [pausedPlayers, List.mem_cons, List.mem_cons, List.mem_singleton] at hcall
    rcases hcall with rfl | rfl | rfl
    · trivial
    · exact testKeys_keys32
    · exact testKeys_keys32
  have hcidrs : ∀ cidr ∈ ["10.80.0.0/16"], (parseIPv4CIDR cidr).isSome := by decide
  have hpeers :
      ((Runs.run (exec .ascii) {} pausedPlayers).listWireGuardGatewayPeers .inOrder).result =
      .ok _ := rfl
  have horganizer : ((Runs.run (exec .ascii) {} pausedPlayers).players.lookup 1).any (fun record =>
      decide ((Runs.run (exec .ascii) {} pausedPlayers).peerListed 1 record.player = true ∧
        record.wireGuard.status ≠ .revoked ∧
        (Runs.run (exec .ascii) {} pausedPlayers).peerTeamName record.player = "Organizer" ∧
        record.wireGuard.address = (IPv4.mk 10 70 1 20).text)) = true := by
    decide +kernel
  have hplayer : ((Runs.run (exec .ascii) {} pausedPlayers).players.lookup 2).any (fun record =>
      decide ((Runs.run (exec .ascii) {} pausedPlayers).peerTeamName record.player ≠ "Organizer" ∧
        record.wireGuard.address = (IPv4.mk 10 70 1 21).text)) = true := by
    decide +kernel
  have hallowed : ToAllowed ["10.80.0.0/16"] (newConnection ⟨10, 70, 1, 20⟩) := by
    refine (test_daddrIn []).mp ?_
    decide
  obtain ⟨ann, hann, hann'⟩ := (Option.any_eq_true ..).mp horganizer
  obtain ⟨hlisted, hstatus, hname, haddress⟩ := of_decide_eq_true hann'
  obtain ⟨bob, hbob, hbob'⟩ := (Option.any_eq_true ..).mp hplayer
  obtain ⟨hother, haddress'⟩ := of_decide_eq_true hbob'
  have huntracked (saddr : IPv4) : Untracked (newConnection saddr) := ⟨nofun, nofun⟩
  have hserver : ∃ ip : IPv4, "10.70.0.1" = ip.text := ⟨⟨10, 70, 0, 1⟩, by decide⟩
  obtain ⟨hloads, hforward, hothers, -⟩ := paused_rules_enforce .ascii (.inl rfl) hkeys hpeers
    "adtick" "wg0" (.inr hserver) hcidrs
  obtain ⟨hinput, hforward'⟩ := hothers (newConnection ⟨10, 70, 1, 21⟩) rfl 2 bob hbob haddress'
    fun hexempt => hother hexempt.teamName
  exact ⟨_, hpeers, hloads, (hforward _ rfl (huntracked _)).mpr
    ⟨⟨1, ann, hann, ⟨hlisted, hstatus, hname⟩, haddress⟩,
      hallowed⟩, hinput, hforward' (huntracked _)⟩

end ADPlatform.APIGateway.MemoryStore
