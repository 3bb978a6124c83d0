import ADPlatform.APIGateway.MemoryAddresses

/-! # The peers of the WireGuard gateway

The gateway drops a peer whose keys or address are not well formed. The in-memory store issues them
when a player joins a team or is created as an organizer; a player who becomes an organizer later
has none. -/

namespace ADPlatform.WireGuardGateway
open APIGateway Net Text

/-! ## The gateway -/

/-- `isValidWireGuardPublicKey`: 32 bytes in base64. -/
def isValidWireGuardPublicKey (key : String) : Bool :=
  (Base64.stdDecode (trimSpace key).toList).any fun decoded => decoded.length = 32

/-- `To4` takes an IPv4 address, also one that is written in an IPv6 address. -/
def isValidIP (ip : String) : Bool :=
  match parseIP (trimSpace ip) with
  | none => false
  | some (.v4 _) => true
  | some (.v6 bytes) => bytes.take 12 = List.replicate 10 0 ++ [255, 255]

/-- `activeWireGuardPeers`: neither revoked nor with a broken key. -/
def activeWireGuardPeers (peers : List WireGuardGatewayPeer) : List WireGuardGatewayPeer :=
  peers.filter fun peer =>
    peer.status ≠ .revoked && isValidWireGuardPublicKey peer.clientPublicKey &&
    (peer.presharedKey = "" || isValidWireGuardPublicKey peer.presharedKey) &&
      isValidIP peer.address

theorem isValidWireGuardPublicKey_stdEncode {bs : List UInt8} (h : bs.length = 32) :
    isValidWireGuardPublicKey (Base64.stdEncode bs) = true := by
  rw [isValidWireGuardPublicKey, Base64.trimSpace_stdEncode, Base64.stdDecode_stdEncode]
  simpa using h

theorem isValidIP_text (ip : IPv4) : isValidIP ip.text = true := by
  rw [isValidIP, trimSpace_text, parseIP_text]

end ADPlatform.WireGuardGateway

namespace ADPlatform.APIGateway
open Net Text WireGuardGateway

/-! ## Issued peers -/

namespace WireGuardPeerState

/-- The gateway takes the peer. -/
structure Issued (peer : WireGuardPeerState) : Prop where
  publicKey : isValidWireGuardPublicKey peer.clientPublicKey = true
  presharedKey : isValidWireGuardPublicKey peer.presharedKey = true
  address : isValidIP peer.address = true

/-- The peer has never been issued. -/
structure Blank (peer : WireGuardPeerState) : Prop where
  publicKey : peer.clientPublicKey = ""
  presharedKey : peer.presharedKey = ""
  address : peer.address = ""

variable {a b : WireGuardPeerState}

theorem SameKeys.issued (h : a.SameKeys b) (hb : b.Issued) : a.Issued where
  publicKey := h.2.2.1 ▸ hb.publicKey
  presharedKey := h.2.2.2 ▸ hb.presharedKey
  address := h.1 ▸ hb.address

theorem SameKeys.blank (h : a.SameKeys b) (hb : b.Blank) : a.Blank where
  publicKey := h.2.2.1.trans hb.publicKey
  presharedKey := h.2.2.2.trans hb.presharedKey
  address := h.1.trans hb.address

theorem Issued.address_ne (h : a.Issued) : a.address ≠ "" := by
  intro hblank
  have hvalid := h.address
  rw [hblank] at hvalid
  exact absurd hvalid (by decide)

end WireGuardPeerState

/-- Private keys, public keys and shared secrets are 32 bytes long. -/
def WireGuardInput.Keys32 (input : WireGuardInput) : Prop :=
  (∀ i raw, input.random i = .ok raw → raw.length = 32) ∧
    ∀ raw, raw.length = 32 → (input.x25519 raw).length = 32

/-- What the call reads from its surroundings are keys. -/
def MemoryCall.Keys32 : MemoryCall → Prop
  | createAdminPlayer _ input | joinExistingPlayerTeam _ _ input
  | getAdminPlayerWireGuardConfig _ input | rotateAdminPlayerWireGuardConfig _ input => input.Keys32
  | _ => True

namespace WireGuardInput
variable {input : WireGuardInput}

/-- A new peer has keys, at the address that was asked for. -/
theorem newWireGuardPeerState_keys (hkeys : input.Keys32) {playerID teamID : Int}
    {teamName displayName peer address : String} {state : WireGuardPeerState}
    (h : input.newWireGuardPeerState playerID teamID teamName displayName peer address =
      .ok state) :
    trimSpace address ≠ "" ∧ state.address = address ∧
      isValidWireGuardPublicKey state.clientPublicKey = true ∧
      isValidWireGuardPublicKey state.presharedKey = true := by
  unfold newWireGuardPeerState at h
  split at h
  · cases h
  rename_i haddress
  obtain ⟨⟨privateKey, publicKey⟩, hpair, h⟩ := exists_of_bind_eq_ok h
  obtain ⟨presharedKey, hsecret, h⟩ := exists_of_bind_eq_ok h
  obtain ⟨profile, -, h⟩ := exists_of_bind_eq_ok h
  cases h
  refine ⟨haddress, rfl, ?_, ?_⟩
  · unfold generateX25519Keypair at hpair
    split at hpair
    · rename_i raw hraw
      cases hpair
      exact isValidWireGuardPublicKey_stdEncode (hkeys.2 raw (hkeys.1 _ raw hraw))
    · cases hpair
  · unfold generateWireGuardSecret at hsecret
    split at hsecret
    · rename_i raw hraw
      cases hsecret
      exact isValidWireGuardPublicKey_stdEncode (hkeys.1 _ raw hraw)
    · cases hsecret

end WireGuardInput

namespace Roster
variable {r r' : Roster} {p : Int} {record old : AdminPlayerRecord}

/-- A peer is issued or blank, and the members of a team have one. -/
def Provisioned (r : Roster) : Prop :=
  ∀ p record, r.players.lookup p = some record →
    (record.wireGuard.Blank ∧ record.player.teamID ≤ 0) ∨ record.wireGuard.Issued

/-- The gateway takes the peer of every active organizer, unless it is revoked. -/
def Served (r : Roster) : Prop :=
  ∀ p record, r.players.lookup p = some record → r.active p = true →
  record.player.role = .organizer →
    record.wireGuard.address = "" → record.wireGuard.status = .revoked

/-- A peer that was blank is blank, and one that was issued is issued. -/
def KeepsPeer (old record : AdminPlayerRecord) : Prop :=
  (old.wireGuard.Issued → record.wireGuard.Issued) ∧
    (old.wireGuard.Blank → record.wireGuard.Blank) ∧ record.player.teamID = old.player.teamID

theorem KeepsPeer.of_sameKeys (h : record.wireGuard.SameKeys old.wireGuard)
    (hteam : record.player.teamID = old.player.teamID) : KeepsPeer old record :=
  ⟨h.issued, h.blank, hteam⟩

theorem Provisioned.changes (h : r.Provisioned) (hr : Changes KeepsPeer r r') : r'.Provisioned := by
  intro p record hp
  obtain ⟨old, hold, hissued, hblank, hteam⟩ := hr p record hp
  rcases h p old hold with ⟨holdBlank, holdTeam⟩ | holdIssued
  · exact .inl ⟨hblank holdBlank, hteam ▸ holdTeam⟩
  · exact .inr (hissued holdIssued)

theorem KeepsPeer.refl (record : AdminPlayerRecord) : KeepsPeer record record := ⟨id, id, rfl⟩

theorem Provisioned.keep (h : r.Provisioned) (hold : r.players.lookup p = some old)
    (hkeeps : KeepsPeer old record) : (r.setPlayer p record).Provisioned :=
  h.changes (.setPlayer KeepsPeer.refl hold hkeeps)

theorem Provisioned.setPlayer (h : r.Provisioned)
    (hrecord : (record.wireGuard.Blank ∧ record.player.teamID ≤ 0) ∨ record.wireGuard.Issued) :
    (r.setPlayer p record).Provisioned := by
  intro q other hq
  rw [lookup_setPlayer] at hq
  split at hq
  · cases hq
    exact hrecord
  · exact h q other hq

theorem Served.changes (h : r.Served)
    (hr : Changes (fun old record => record.player.role = old.player.role ∧
      record.wireGuard.address = old.wireGuard.address ∧
      record.wireGuard.status = old.wireGuard.status) r r')
    (hactive : ∀ p, r'.active p = true → r.active p = true) : r'.Served := by
  intro p record hp hp' hrole haddress
  obtain ⟨old, hold, hrole', haddress', hstatus⟩ := hr p record hp
  rw [hstatus]
  exact h p old hold (hactive p hp') (hrole' ▸ hrole) (haddress' ▸ haddress)

/-- A new version of a player is served exactly if it is no active organizer without a peer. -/
theorem served_setPlayer (h : r.Served) : (r.setPlayer p record).Served ↔
    (r.active p = true → record.player.role = .organizer → record.wireGuard.address = "" →
      record.wireGuard.status = .revoked) := by
  constructor
  · exact fun h' => h' p record (by rw [lookup_setPlayer, if_pos rfl])
  · intro hrecord q other hq
    rw [lookup_setPlayer] at hq
    split at hq
    · rename_i heq
      cases hq
      rw [heq]
      exact hrecord
    · exact h q other hq

/-- A player who gets the role of a captain or a member is served. -/
theorem served_withRole (h : r.Served) {role : Role} (hrole : role ≠ .organizer) :
    (r.setPlayer p (record.withRole role)).Served :=
  (served_setPlayer h).mpr fun _ hrole' => absurd hrole' hrole

/-- The players stay as they are, and one more is active. -/
theorem served_reactivate (h : r.Served) (hold : r.players.lookup p = some old) :
    Served { r with deactivated := r.deactivated.erase p } ↔
      (old.player.role = .organizer → old.wireGuard.address = "" →
        old.wireGuard.status = .revoked) := by
  constructor
  · exact fun h' => h' p old hold (by simp [active, Go.Map.get_erase])
  · intro hp q other hq hactive
    by_cases hne : q = p
    · obtain rfl : old = other := Option.some.inj (hold.symm.trans (hne ▸ hq))
      exact hp
    · refine h q other hq ?_
      simpa [active, Go.Map.get_erase, hne] using hactive

end Roster

namespace MemoryStore
variable {T : CaseTable} {s : MemoryStore} {p : Int} {record : AdminPlayerRecord}

/-- The gateway takes every peer that the store hands to it, but for the revoked ones. -/
def PeersServed (s : MemoryStore) : Prop :=
  ∀ rt peers, (s.listWireGuardGatewayPeers rt).result = .ok peers →
    activeWireGuardPeers peers = peers.filter fun peer => peer.status ≠ .revoked

/-- The calls that make no active organizer of a player without a peer. -/
def servedAllowed (call : MemoryCall) (s : MemoryStore) : Prop :=
  match call with
  | .updateAdminPlayer p request => normalizedRole request.role = .organizer →
    s.playerDeactivated p = false → ∀ record, s.players.lookup p = some record →
      record.wireGuard.address = "" → record.wireGuard.status = .revoked
  | .setPlayerActive p true => ∀ record, s.players.lookup p = some record →
    record.player.role = .organizer → record.wireGuard.address = "" →
      record.wireGuard.status = .revoked
  | _ => True

theorem servedAllowed_of_grants {call : MemoryCall} (h : call.grants = false) :
    servedAllowed call s := by
  cases call with
  | updateAdminPlayer | setPlayerActive => cases h
  | _ => trivial

theorem mem_listWireGuardGatewayPeers {rt : Go.Runtime} {peers : List WireGuardGatewayPeer}
    (h : (s.listWireGuardGatewayPeers rt).result = .ok peers) {peer : WireGuardGatewayPeer} :
    peer ∈ peers ↔ ∃ p record, s.players.lookup p = some record ∧
      s.peerListed p record.player = true ∧ s.gatewayPeer record = peer := by
  cases h
  simp only [List.mem_map, List.mem_filter, Prod.exists, (rt.sortSlice_perm _ _).mem_iff,
    (rt.range_perm _ _).mem_iff, Go.Map.mem_pairs, and_assoc]

/-- Where all peers are issued or blank, the gateway misses those of organizers without one. -/
theorem peersServed_iff (hs : s.roster.Provisioned) : s.PeersServed ↔ s.roster.Served := by
  constructor
  · intro h p record hp hactive hrole haddress
    by_contra hstatus
    obtain ⟨peers, hpeers⟩ : ∃ peers, (s.listWireGuardGatewayPeers .inOrder).result = .ok peers :=
      ⟨_, rfl⟩
    have hlisted : s.peerListed p record.player = true := by
      simp [peerListed, AdminPlayer.hasPeer, hrole, active_roster.mp hactive]
    have hmem := (mem_listWireGuardGatewayPeers hpeers).mpr ⟨p, record, hp, hlisted, rfl⟩
    have hkept : s.gatewayPeer record ∈ activeWireGuardPeers peers := by
      rw [h .inOrder peers hpeers]
      exact List.mem_filter.mpr ⟨hmem, decide_eq_true hstatus⟩
    have hvalid := (List.mem_filter.mp hkept).2
    simp only [gatewayPeer, haddress, Bool.and_eq_true] at hvalid
    exact absurd hvalid.2 (by decide)
  · intro h rt peers hpeers
    refine List.filter_congr fun peer hmem => ?_
    obtain ⟨p, record, hp, hlisted, rfl⟩ := (mem_listWireGuardGatewayPeers hpeers).mp hmem
    by_cases hstatus : record.wireGuard.status = .revoked
    · simp [gatewayPeer, hstatus]
    · have hissued : record.wireGuard.Issued := by
        refine (hs p record hp).resolve_left fun hblank => hstatus ?_
        simp only [peerListed, AdminPlayer.hasPeer, Bool.and_eq_true, Bool.or_eq_true,
          Bool.not_eq_true', decide_eq_true_eq] at hlisted
        have hrole := hlisted.1.2.resolve_left (not_lt.mpr hblank.2)
        exact h p record hp (active_roster.mpr hlisted.1.1) hrole hblank.1.address
      simp [gatewayPeer, hstatus, hissued.publicKey, hissued.presharedKey, hissued.address]

/-! ## Runs -/

/-- A peer that has just been issued is well formed. -/
theorem issued_of_issuePeer {input : WireGuardInput} (hkeys : input.Keys32)
    {issued : AdminPlayerRecord}
    (h : s.issuePeer input p record = .ok issued) : issued.wireGuard.Issued := by
  obtain ⟨address, state, haddress, hstate, rfl⟩ := issuePeer_ok h
  obtain ⟨index, hindex, rfl⟩ := allocateWireGuardPeerAddress_pool haddress
  obtain ⟨-, hat, hpublic, hshared⟩ := WireGuardInput.newWireGuardPeerState_keys hkeys hstate
  obtain ⟨ip, -, -, -, -, hip⟩ := wireGuardPeerAddressAt_text hindex
  refine ⟨hpublic, hshared, ?_⟩
  rw [show (record.setPeer state).wireGuard.address = ip.text from hat.trans hip]
  exact isValidIP_text ip

theorem created_provisioned {request : AdminCreatePlayerRequest} {input : WireGuardInput}
    (hkeys : input.Keys32) (h : s.Created T request input record) :
    (record.wireGuard.Blank ∧ record.player.teamID ≤ 0 ∧ record.player.role ≠ .organizer) ∨
      record.wireGuard.Issued := by
  unfold Created at h
  dsimp only at h
  split at h
  · exact .inr (issued_of_issuePeer hkeys h)
  · rename_i hpeer
    rw [h]
    simp only [AdminPlayer.hasPeer, Bool.or_eq_true, decide_eq_true_eq, not_or] at hpeer
    exact .inl ⟨⟨rfl, rfl, rfl⟩, not_lt.mp hpeer.1, hpeer.2⟩

/-- Rotating works on an issued peer, and issues it again. -/
theorem rotated_provisioned {input : WireGuardInput} (hkeys : input.Keys32)
    {old : AdminPlayerRecord}
    {teamName : String} {state : WireGuardPeerState}
    (hs : (old.wireGuard.Blank ∧ old.player.teamID ≤ 0) ∨ old.wireGuard.Issued)
    (h : input.newWireGuardPeerState old.player.id old.player.teamID teamName old.player.displayName
      old.player.wireGuardPeer old.wireGuard.address = .ok state) :
    (old.setPeer state).wireGuard.Issued := by
  obtain ⟨hne, hat, hpublic, hshared⟩ := WireGuardInput.newWireGuardPeerState_keys hkeys h
  have hissued : old.wireGuard.Issued := by
    refine hs.resolve_left fun hblank => hne ?_
    rw [hblank.1.address]
    decide
  refine ⟨hpublic, hshared, ?_⟩
  rw [show (old.setPeer state).wireGuard.address = old.wireGuard.address from hat]
  exact hissued.address

theorem provisioned_step {call : MemoryCall} {r : Roster} (hkeys : call.Keys32)
    (hs : s.roster.Provisioned) (h : RosterStep T s call r) : r.Provisioned := by
  cases h with
  | unchanged | createRejected | joinRejected | updateMissing | activateMissing | numbered
  | deactivated | reactivated => exact hs
  | registered _ record hplayer hpeer =>
    refine hs.setPlayer (.inl ?_)
    rw [hplayer, hpeer]
    exact ⟨⟨rfl, rfl, rfl⟩, le_refl 0⟩
  | created _ _ _ hrecord =>
    refine hs.setPlayer ((created_provisioned hkeys hrecord).imp_left fun h => ⟨h.1, h.2.1⟩)
  | profile hold =>
    exact hs.keep hold
      (.of_sameKeys (updatedProfile_player ..).2.2.2.2 (updatedProfile_player ..).2.1)
  | promoted _ hold => exact hs.keep hold (.of_sameKeys ⟨rfl, rfl, rfl, rfl⟩ rfl)
  | joined _ _ _ _ _ hissued => exact hs.setPlayer (.inr (issued_of_issuePeer hkeys hissued))
  | @transferred p q captain target hcaptain _ _ _ hne htarget =>
    have hq : (s.roster.setPlayer p (captain.withRole .member)).players.lookup q = some target := by
      rw [Roster.lookup_setPlayer, if_neg hne]
      exact htarget
    have hp : (s.roster.setPlayer p (captain.withRole .member)).Provisioned :=
      hs.keep hcaptain (.of_sameKeys ⟨rfl, rfl, rfl, rfl⟩ rfl)
    exact hp.keep hq (.of_sameKeys ⟨rfl, rfl, rfl, rfl⟩ rfl)
  | configured hold hpeer => exact hs.keep hold (.of_sameKeys hpeer rfl)
  | rotated hold hstate =>
    exact hs.setPlayer (.inr (rotated_provisioned hkeys (hs _ _ hold) hstate))
  | revoked hold record hpeer hplayer =>
    refine hs.keep hold ⟨fun h => ?_, fun h => ?_, by rw [hplayer]⟩
    · rw [hpeer]
      exact ⟨h.publicKey, h.presharedKey, h.address⟩
    · rw [hpeer]
      exact ⟨h.publicKey, h.presharedKey, h.address⟩
  | listed teamName =>
    refine hs.changes fun p record hp => ?_
    rw [Go.Map.lookup_mapValues, Option.map_eq_some_iff] at hp
    obtain ⟨old, hold, rfl⟩ := hp
    exact ⟨old, hold, .of_sameKeys ⟨rfl, rfl, rfl, rfl⟩ rfl⟩
  | deleted => exact hs.changes (.of_sub Roster.KeepsPeer.refl fun _ _ => Go.Map.lookup_of_erase)
  | teamDeleted =>
    exact hs.changes (.of_sub Roster.KeepsPeer.refl fun _ _ => Go.Map.lookup_of_filterKeys)
  | updated hold => exact hs.keep hold (.of_sameKeys ⟨rfl, rfl, rfl, rfl⟩ rfl)
  | demoted hold =>
    exact hs.changes (.setPlayer Roster.KeepsPeer.refl hold (.of_sameKeys ⟨rfl, rfl, rfl, rfl⟩ rfl))

theorem served_step {call : MemoryCall} {r : Roster} (hkeys : call.Keys32)
    (hs : s.roster.Provisioned) (hserved : s.roster.Served) (h : RosterStep T s call r) :
    r.Served ↔ servedAllowed call s := by
  cases h with
  | unchanged h => exact iff_of_true hserved (servedAllowed_of_grants h)
  | createRejected | joinRejected | numbered => exact iff_of_true hserved trivial
  | registered _ record hplayer =>
    refine iff_of_true ((Roster.served_setPlayer hserved).mpr fun _ hrole => ?_) trivial
    rw [hplayer] at hrole
    cases hrole
  | created _ _ _ hrecord =>
    refine iff_of_true ((Roster.served_setPlayer hserved).mpr fun _ hrole haddress => ?_) trivial
    rcases created_provisioned hkeys hrecord with hblank | hissued
    · exact absurd hrole hblank.2.2
    · exact absurd haddress hissued.address_ne
  | profile hold hrole =>
    refine iff_of_true ((Roster.served_setPlayer hserved).mpr fun _ hrole' => ?_) trivial
    rw [(updatedProfile_player ..).2.2.1] at hrole'
    exact absurd hrole' hrole
  | @promoted p teamKey input old team _ hold _ hrole =>
    refine iff_of_true ((Roster.served_setPlayer hserved).mpr fun _ hrole' => ?_) trivial
    simp only [promoted] at hrole'
    split at hrole'
    · exact absurd hrole' hrole
    · cases hrole'
  | joined _ _ _ _ _ hissued =>
    refine iff_of_true ((Roster.served_setPlayer hserved).mpr fun _ _ haddress => ?_) trivial
    exact absurd haddress (issued_of_issuePeer hkeys hissued).address_ne
  | transferred =>
    exact iff_of_true
      (Roster.served_withRole (Roster.served_withRole hserved (by decide)) (by decide))
      trivial
  | @configured p input old peer hold hpeer =>
    refine iff_of_true
      ((Roster.served_setPlayer hserved).mpr fun hactive hrole haddress => ?_) trivial
    exact hpeer.2.1.trans (hserved p old hold hactive hrole (hpeer.1.symm.trans haddress))
  | rotated hold hstate =>
    refine iff_of_true ((Roster.served_setPlayer hserved).mpr fun _ _ haddress => ?_) trivial
    exact absurd haddress (rotated_provisioned hkeys (hs _ _ hold) hstate).address_ne
  | revoked hold record hpeer =>
    refine iff_of_true ((Roster.served_setPlayer hserved).mpr fun _ _ _ => ?_) trivial
    rw [hpeer]
  | listed teamName =>
    refine iff_of_true (hserved.changes (fun p record hp => ?_) fun _ h => h) trivial
    rw [Go.Map.lookup_mapValues, Option.map_eq_some_iff] at hp
    obtain ⟨old, hold, rfl⟩ := hp
    exact ⟨old, hold, rfl, rfl, rfl⟩
  | deleted =>
    exact iff_of_true (hserved.changes
      (.of_sub (fun _ => ⟨rfl, rfl, rfl⟩) fun _ _ => Go.Map.lookup_of_erase) fun _ h => h) trivial
  | teamDeleted =>
    exact iff_of_true (hserved.changes
      (.of_sub (fun _ => ⟨rfl, rfl, rfl⟩) fun _ _ =>
        Go.Map.lookup_of_filterKeys) fun _ h => h) trivial
  | updateMissing h =>
    refine iff_of_true hserved fun _ _ record hrecord => ?_
    rw [h] at hrecord
    cases hrecord
  | @updated p request old hold =>
    rw [Roster.served_setPlayer hserved, active_roster]
    simp only [servedAllowed, hold, Option.some.injEq, forall_eq']
    exact forall_comm
  | @activateMissing p active h =>
    refine iff_of_true hserved ?_
    cases active with
    | true =>
      intro record hrecord
      rw [h] at hrecord
      cases hrecord
    | false => trivial
  | deactivated =>
    refine iff_of_true (hserved.changes (.of_sub (fun _ => ⟨rfl, rfl, rfl⟩) fun _ _ h => h)
      fun q hq => ?_) trivial
    simp only [Roster.active, Go.Map.get_insert] at hq
    split at hq
    · cases hq
    · exact hq
  | reactivated hold =>
    simp only [servedAllowed, hold, Option.some.injEq, forall_eq']
    exact Roster.served_reactivate hserved hold
  | @demoted p old hold hsuperseded =>
    have hcaptain : old.player.role ≠ .organizer := by
      rw [hsuperseded.1]
      decide
    have hback : Roster.Served { s.roster with deactivated := s.deactivatedPlayers.erase p } :=
      (Roster.served_reactivate hserved hold).mpr fun hrole => absurd hrole hcaptain
    refine iff_of_true (Roster.served_withRole hback (by decide)) ?_
    simp only [servedAllowed, hold, Option.some.injEq, forall_eq']
    exact fun hrole => absurd hrole hcaptain

/-- A new store, whose first peers have keys. -/
def InitialKeys32 (s : MemoryStore) : Prop :=
  s = {} ∨ ∃ teamID now input, (∀ id, (input id).Keys32) ∧ newMemoryStore teamID now input = .ok s

theorem issued_initial (h : s.InitialKeys32) (hp : s.players.lookup p = some record) :
    record.wireGuard.Issued := by
  rcases h with rfl | ⟨teamID, now, input, hkeys, h⟩
  · cases hp
  obtain ⟨hseeded, -⟩ := seeded_newMemoryStore h hp
  obtain ⟨created, teamName, displayName, peer, hstate⟩ := hseeded.peer
  have hplace : (max (record.player.id - 1) 0).toNat < wireGuardPeerAddressPoolSize := by
    have hids : ∀ account ∈ seedAccounts,
        (max (account.1 - 1) 0).toNat < wireGuardPeerAddressPoolSize := by decide
    exact hids _ hseeded.account
  have hkeys : { input record.player.id with now := created }.Keys32 := hkeys record.player.id
  obtain ⟨-, hat, hpublic, hshared⟩ := WireGuardInput.newWireGuardPeerState_keys hkeys hstate
  obtain ⟨ip, -, -, -, -, hip⟩ := wireGuardPeerAddressAt_text hplace
  refine ⟨hpublic, hshared, ?_⟩
  rw [hat, hip]
  exact isValidIP_text ip

/-- In a run of calls on a new store, the gateway takes every peer that is not revoked, in every
state reached, exactly if no call makes an active organizer of a player whose peer has never been
issued and is not revoked. -/
theorem peers_served_iff (T : CaseTable) (hs : s.InitialKeys32) (calls : List MemoryCall)
    (hkeys : ∀ call ∈ calls, call.Keys32) :
    Runs.Always (exec T) PeersServed s calls ↔ Runs.EachCall (exec T) servedAllowed s calls := by
  have hprovisioned : s.roster.Provisioned := fun p record hp => .inr (issued_initial hs hp)
  have hserved : s.roster.Served := fun p record hp _ _ haddress =>
    absurd haddress (issued_initial hs hp).address_ne
  refine Runs.always_iff_eachCall_of (I := fun s => s.roster.Provisioned) hkeys hprovisioned
    ((peersServed_iff hprovisioned).mpr hserved)
    (fun call s hkeys h => ?_) fun call s hkeys h hP => ?_
  · exact provisioned_step hkeys h (rosterStep_exec T call s)
  · have hnext := provisioned_step hkeys h (rosterStep_exec T call s)
    rw [peersServed_iff hnext]
    exact served_step hkeys h ((peersServed_iff h).mp hP) (rosterStep_exec T call s)

/-- An organizer is created. -/
def createdOrganizer : List MemoryCall :=
  [.createAdminPlayer { displayName := "Ann", email := "ann@example.com", password := "longpassword"
                        role := "organizer" } testKeys]

theorem testKeys_keys32 : testKeys.Keys32 := by
  refine ⟨fun i raw hraw => ?_, fun raw hraw => hraw⟩
  cases hraw
  exact List.length_replicate

theorem peers_served_iff_createdOrganizer :
    ((Runs.run (exec .ascii) {} createdOrganizer).players.pairs.map fun x =>
      x.2.wireGuard.address) = ["10.70.1.20"] ∧
    Runs.Always (exec .ascii) PeersServed {} createdOrganizer := by
  have hkeys : ∀ call ∈ createdOrganizer, call.Keys32 := by
    intro call hcall
    rw [createdOrganizer, List.mem_singleton] at hcall
    rw [hcall]
    exact testKeys_keys32
  refine ⟨by decide +kernel, (peers_served_iff .ascii (.inl rfl) createdOrganizer hkeys).mpr ?_⟩
  exact Runs.eachCall_cons.mpr ⟨trivial, Runs.eachCall_nil⟩

/-- A player registers and is made an organizer. -/
def registeredOrganizer : List MemoryCall :=
  [.registerPlayer { displayName := "Ann", email := "ann@example.com",
                     password := "longpassword" } 0,
   .updateAdminPlayer 1 { role := "organizer" }]

theorem organizer_without_peer : ¬ ∀ (T : CaseTable) (s : MemoryStore) (calls : List MemoryCall),
    s.InitialKeys32 → (∀ call ∈ calls, call.Keys32) → Runs.Always (exec T) PeersServed s calls := by
  intro h
  have hkeys : ∀ call ∈ registeredOrganizer, call.Keys32 := by
    intro call hcall
    rw [registeredOrganizer, List.mem_cons, List.mem_singleton] at hcall
    rcases hcall with rfl | rfl
    · trivial
    · trivial
  have hserved := (h .ascii {} registeredOrganizer (.inl rfl) hkeys).last .inOrder _ rfl
  exact absurd (congrArg List.length hserved) (by decide +kernel)

end MemoryStore

end ADPlatform.APIGateway
