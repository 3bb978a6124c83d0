import ADPlatform.APIGateway.Roster
import ADPlatform.Lib.IPAddress

/-! # Addresses in the in-memory store

Players get their addresses from one network and services from another. No two players have the same
address, and the allocator finds the first one that is free. -/

namespace ADPlatform.APIGateway
open GameCore (Time)
open Net Text

/-! ## The two networks -/

theorem wireGuardPeerAddressAt_text {index : Nat} (h : index < wireGuardPeerAddressPoolSize) :
    ∃ ip : IPv4, ip.a = 10 ∧ ip.b = 70 ∧ ip.c.val = index / 200 + 1 ∧ ip.d.val = index % 200 + 20 ∧
      wireGuardPeerAddressAt index = ip.text := by
  have hc : index / 200 + 1 < 256 := by
    unfold wireGuardPeerAddressPoolSize at h
    omega
  have hd : index % 200 + 20 < 256 := by omega
  refine ⟨⟨10, 70, ⟨_, hc⟩, ⟨_, hd⟩⟩, rfl, rfl, rfl, rfl, ?_⟩
  have hnet : "10.70." = (10 : Fin 256).val.repr ++ "." ++ (70 : Fin 256).val.repr ++ "." := by
    decide
  rw [IPv4.text_eq, wireGuardPeerAddressAt, hnet]

/-- No two places of the pool have the same address. -/
theorem wireGuardPeerAddressAt_inj {i j : Nat} (hi : i < wireGuardPeerAddressPoolSize)
    (hj : j < wireGuardPeerAddressPoolSize)
    (h : wireGuardPeerAddressAt i = wireGuardPeerAddressAt j) : i = j := by
  obtain ⟨ip, -, -, hc, hd, hip⟩ := wireGuardPeerAddressAt_text hi
  obtain ⟨ip', -, -, hc', hd', hip'⟩ := wireGuardPeerAddressAt_text hj
  obtain rfl : ip = ip' := IPv4.text_inj.mp (hip.symm.trans (h.trans hip'))
  omega

/-- The address of a peer is not blank, and no blanks are around it. -/
theorem trimSpace_wireGuardPeerAddressAt {index : Nat} (h : index < wireGuardPeerAddressPoolSize) :
    trimSpace (wireGuardPeerAddressAt index) = wireGuardPeerAddressAt index ∧
      wireGuardPeerAddressAt index ≠ "" := by
  obtain ⟨ip, -, -, -, -, hip⟩ := wireGuardPeerAddressAt_text h
  rw [hip]
  refine ⟨trimSpace_text ip, fun hempty => ?_⟩
  have hlist := congrArg String.toList hempty
  rw [IPv4.toList_text] at hlist
  simp at hlist

theorem repr_of_nonneg {n : Int} (h : 0 ≤ n) : n.repr = n.toNat.repr := by
  rw [Int.repr_eq_if, if_pos h]

/-- A service with valid octets has an address, and the octets can be read off it. -/
theorem serviceIP_text {subnetOctet teamID : Int} (hoctet : 0 < subnetOctet ∧ subnetOctet ≤ 254)
    (hteam : 101 ≤ teamID ∧ teamID ≤ 344) :
    ∃ ip : IPv4, ip.a = 10 ∧ ip.b = 80 ∧ ip.c.val = subnetOctet.toNat ∧
      ip.d.val = (teamID - 90).toNat ∧ serviceIP subnetOctet teamID = ip.text := by
  have hc : subnetOctet.toNat < 256 := by omega
  have hd : (teamID - 90).toNat < 256 := by omega
  refine ⟨⟨10, 80, ⟨_, hc⟩, ⟨_, hd⟩⟩, rfl, rfl, rfl, rfl, ?_⟩
  have hnet : "10.80." = (10 : Fin 256).val.repr ++ "." ++ (80 : Fin 256).val.repr ++ "." := by
    decide
  rw [IPv4.text_eq, serviceIP, teamServiceOctet, if_pos hteam, repr_of_nonneg (by omega),
    repr_of_nonneg (by omega), hnet]

namespace Roster
variable {r r' : Roster} {p : Int} {record old : AdminPlayerRecord}

/-- Some player has this address. -/
def Uses (r : Roster) (address : String) : Prop :=
  ∃ p record, r.players.lookup p = some record ∧ record.wireGuard.address = address

/-- The addresses of the peers come from the pool, and no two of them are equal. -/
structure Addressed (r : Roster) : Prop where
  pool : ∀ {p record}, r.players.lookup p = some record → record.wireGuard.address ≠ "" →
    ∃ index < wireGuardPeerAddressPoolSize, record.wireGuard.address = wireGuardPeerAddressAt index
  unique : ∀ {p q record other}, r.players.lookup p = some record →
    r.players.lookup q = some other →
    record.wireGuard.address ≠ "" → record.wireGuard.address = other.wireGuard.address → p = q

/-- The record keeps its address. -/
def SameAddress (old record : AdminPlayerRecord) : Prop :=
  record.wireGuard.address = old.wireGuard.address

theorem Addressed.changes (h : r.Addressed) (hr : Changes SameAddress r r') : r'.Addressed where
  pool hp := by
    obtain ⟨old, hold, haddress⟩ := hr _ _ hp
    rw [haddress]
    exact h.pool hold
  unique hp hq hne heq := by
    obtain ⟨old, hold, haddress⟩ := hr _ _ hp
    obtain ⟨old', hold', haddress'⟩ := hr _ _ hq
    rw [haddress, haddress'] at heq
    exact h.unique hold hold' (haddress ▸ hne) heq

theorem Addressed.keep (h : r.Addressed) (hold : r.players.lookup p = some old)
    (haddress : record.wireGuard.address = old.wireGuard.address) :
      (r.setPlayer p record).Addressed :=
  h.changes (.setPlayer (fun _ => rfl) hold haddress)

/-- A player gets an address that nobody has, or none. -/
theorem Addressed.setPlayer (h : r.Addressed) (hfresh : record.wireGuard.address ≠ "" →
    (∃ index < wireGuardPeerAddressPoolSize,
      record.wireGuard.address = wireGuardPeerAddressAt index) ∧
        ¬ r.Uses record.wireGuard.address) :
    (r.setPlayer p record).Addressed where
  pool {q other} hq := by
    rw [lookup_setPlayer] at hq
    split at hq
    · cases hq
      exact fun hne => (hfresh hne).1
    · exact h.pool hq
  unique {q q' one other} hq hq' hne heq := by
    rw [lookup_setPlayer] at hq hq'
    split at hq <;> split at hq'
    · rename_i h₁ h₂
      rw [h₁, h₂]
    · cases hq
      exact absurd ⟨q', other, hq', heq.symm⟩ (hfresh hne).2
    · cases hq'
      exact absurd ⟨q, one, hq, heq⟩ (hfresh (heq ▸ hne)).2
    · exact h.unique hq hq' hne heq

theorem Addressed.add (h : r.Addressed) (hfresh : record.wireGuard.address ≠ "" →
    (∃ index < wireGuardPeerAddressPoolSize,
      record.wireGuard.address = wireGuardPeerAddressAt index) ∧
        ¬ r.Uses record.wireGuard.address) :
    (r.add record).Addressed :=
  have hset := h.setPlayer (p := r.nextID) hfresh
  ⟨hset.pool, hset.unique⟩

end Roster

namespace MemoryStore
variable {T : CaseTable} {s : MemoryStore}

/-! ## The pool -/

/-- The loop of the allocator passes over the address. -/
theorem mem_used_iff {index : Nat} (h : index < wireGuardPeerAddressPoolSize) :
    wireGuardPeerAddressAt index ∈ (s.players.pairs.map fun (_, record) =>
      trimSpace record.wireGuard.address).filter (· ≠ "") ↔
    ∃ p record, s.players.lookup p = some record ∧
      trimSpace record.wireGuard.address = wireGuardPeerAddressAt index := by
  simp only [List.mem_filter, List.mem_map, Prod.exists, Go.Map.mem_pairs, decide_eq_true_eq]
  exact and_iff_left (trimSpace_wireGuardPeerAddressAt h).2

/-- Where every address is one of the pool, the allocator sees what is in use. -/
theorem uses_iff (hs : s.roster.Addressed) {index : Nat}
    (h : index < wireGuardPeerAddressPoolSize) :
    (∃ p record, s.players.lookup p = some record ∧
      trimSpace record.wireGuard.address = wireGuardPeerAddressAt index) ↔
    s.roster.Uses (wireGuardPeerAddressAt index) := by
  obtain ⟨htrim, hne⟩ := trimSpace_wireGuardPeerAddressAt h
  constructor
  · rintro ⟨p, record, hp, haddress⟩
    refine ⟨p, record, hp, ?_⟩
    by_cases hblank : record.wireGuard.address = ""
    · rw [hblank] at haddress
      exact absurd haddress.symm hne
    · obtain ⟨place, hplace, heq⟩ := hs.pool hp hblank
      rw [heq, (trimSpace_wireGuardPeerAddressAt hplace).1] at haddress
      exact heq.trans haddress
  · rintro ⟨p, record, hp, haddress⟩
    exact ⟨p, record, hp, by rw [haddress, htrim]⟩

/-- The allocator looks for the first place of the pool whose address nobody has. -/
theorem allocateWireGuardPeerAddress_eq : s.allocateWireGuardPeerAddress =
    match (List.range wireGuardPeerAddressPoolSize).find? fun index =>
        wireGuardPeerAddressAt index ∉ (s.players.pairs.map fun (_, record) =>
          trimSpace record.wireGuard.address).filter (· ≠ "") with
    | some index => .ok (wireGuardPeerAddressAt index)
    | none => .error .playerAddressPool := by
  unfold allocateWireGuardPeerAddress
  simp only [List.find?_map, Function.comp_def]
  generalize List.find? _ (List.range wireGuardPeerAddressPoolSize) = found
  cases found with
  | none => rfl
  | some index => rfl

theorem allocateWireGuardPeerAddress_pool {address : String}
    (h : s.allocateWireGuardPeerAddress = .ok address) :
    ∃ index < wireGuardPeerAddressPoolSize, address = wireGuardPeerAddressAt index := by
  rw [allocateWireGuardPeerAddress_eq] at h
  split at h
  · rename_i index hfind
    cases h
    exact ⟨index, List.mem_range.mp (List.find?_range_eq_some.mp hfind).2.1, rfl⟩
  · cases h

/-- The allocator gives the free address of the least place. -/
theorem allocateWireGuardPeerAddress_ok_iff (hs : s.roster.Addressed) {address : String} :
    s.allocateWireGuardPeerAddress = .ok address ↔ ∃ index < wireGuardPeerAddressPoolSize,
      address = wireGuardPeerAddressAt index ∧ ¬ s.roster.Uses (wireGuardPeerAddressAt index) ∧
        ∀ place < index, s.roster.Uses (wireGuardPeerAddressAt place) := by
  have hfree : ∀ {index}, index < wireGuardPeerAddressPoolSize →
      (wireGuardPeerAddressAt index ∈ (s.players.pairs.map fun (_, record) =>
        trimSpace record.wireGuard.address).filter (· ≠ "") ↔
          s.roster.Uses (wireGuardPeerAddressAt index)) :=
    fun h => (mem_used_iff h).trans (uses_iff hs h)
  rw [allocateWireGuardPeerAddress_eq]
  constructor
  · intro h
    split at h
    · rename_i index hfind
      cases h
      obtain ⟨hindex, hmem, hbefore⟩ := List.find?_range_eq_some.mp hfind
      rw [List.mem_range] at hmem
      refine ⟨index, hmem, rfl, ?_, fun place hplace => ?_⟩
      · rw [← hfree hmem]
        exact of_decide_eq_true hindex
      · rw [← hfree (hplace.trans hmem)]
        simpa using hbefore place hplace
    · cases h
  · rintro ⟨index, hindex, rfl, hnone, hbefore⟩
    have hfind : (List.range wireGuardPeerAddressPoolSize).find? (fun index =>
        wireGuardPeerAddressAt index ∉ (s.players.pairs.map fun (_, record) =>
          trimSpace record.wireGuard.address).filter (· ≠ "")) = some index := by
      refine List.find?_range_eq_some.mpr ⟨?_, List.mem_range.mpr hindex, fun place hplace => ?_⟩
      · refine decide_eq_true fun hmem => ?_
        exact hnone ((hfree hindex).mp hmem)
      · have hmem := (hfree (hplace.trans hindex)).mpr (hbefore place hplace)
        simpa using hmem
    rw [hfind]

/-- The allocator fails exactly if every address of the pool is in use. -/
theorem allocateWireGuardPeerAddress_error_iff (hs : s.roster.Addressed) :
    (∃ e, s.allocateWireGuardPeerAddress = .error e) ↔
      ∀ index < wireGuardPeerAddressPoolSize, s.roster.Uses (wireGuardPeerAddressAt index) := by
  constructor
  · rintro ⟨e, h⟩ index hindex
    rw [allocateWireGuardPeerAddress_eq] at h
    split at h
    · cases h
    · rename_i hfind
      have hmem := List.find?_eq_none.mp hfind index (List.mem_range.mpr hindex)
      rw [decide_eq_true_eq, not_not] at hmem
      exact (uses_iff hs hindex).mp ((mem_used_iff hindex).mp hmem)
  · intro hall
    cases h : s.allocateWireGuardPeerAddress with
    | error e => exact ⟨e, rfl⟩
    | ok address =>
      obtain ⟨index, hindex, -, hnone, -⟩ := (allocateWireGuardPeerAddress_ok_iff hs).mp h
      exact absurd (hall index hindex) hnone

/-! ## Runs -/

/-- A peer that has just been issued has an address of its own. -/
theorem fresh_of_issuePeer (hs : s.roster.Addressed) {input : WireGuardInput} {p : Int}
    {record issued : AdminPlayerRecord} (h : s.issuePeer input p record = .ok issued) :
    (∃ index < wireGuardPeerAddressPoolSize,
      issued.wireGuard.address = wireGuardPeerAddressAt index) ∧
      ¬ s.roster.Uses issued.wireGuard.address := by
  obtain ⟨address, state, haddress, hstate, rfl⟩ := issuePeer_ok h
  obtain ⟨index, hindex, rfl, hnone, -⟩ := (allocateWireGuardPeerAddress_ok_iff hs).mp haddress
  have hissued : (record.setPeer state).wireGuard.address = wireGuardPeerAddressAt index :=
    (WireGuardInput.newWireGuardPeerState_ok hstate).1
  rw [hissued]
  exact ⟨⟨index, hindex, rfl⟩, hnone⟩

theorem addressed_step {call : MemoryCall} {r : Roster} (hs : s.roster.Addressed)
    (h : RosterStep T s call r) : r.Addressed := by
  cases h with
  | unchanged | createRejected | joinRejected | updateMissing | activateMissing => exact hs
  | numbered | deactivated | reactivated => exact ⟨hs.pool, hs.unique⟩
  | registered _ record _ hpeer =>
    refine hs.add fun hne => absurd ?_ hne
    rw [hpeer]
  | created _ _ _ hrecord =>
    refine hs.add fun hne => ?_
    unfold Created at hrecord
    dsimp only at hrecord
    split at hrecord
    · exact fresh_of_issuePeer hs hrecord
    · rw [hrecord] at hne
      exact absurd rfl hne
  | profile hold => exact hs.keep hold (updatedProfile_player ..).2.2.2.2.1
  | promoted _ hold => exact hs.keep hold rfl
  | joined _ _ _ _ _ hissued => exact hs.setPlayer fun _ => fresh_of_issuePeer hs hissued
  | @transferred p q captain target hcaptain _ _ _ hne htarget =>
    have hq : (s.roster.setPlayer p (captain.withRole .member)).players.lookup q = some target := by
      rw [Roster.lookup_setPlayer, if_neg hne]
      exact htarget
    have hp : (s.roster.setPlayer p (captain.withRole .member)).Addressed := hs.keep hcaptain rfl
    exact hp.keep hq rfl
  | configured hold hpeer => exact hs.keep hold hpeer.1
  | rotated hold hstate => exact hs.keep hold (WireGuardInput.newWireGuardPeerState_ok hstate).1
  | revoked hold record hpeer =>
    refine hs.keep hold ?_
    rw [hpeer]
  | listed teamName =>
    refine hs.changes fun p record hp => ?_
    rw [Go.Map.lookup_mapValues, Option.map_eq_some_iff] at hp
    obtain ⟨old, hold, rfl⟩ := hp
    exact ⟨old, hold, rfl⟩
  | deleted => exact hs.changes (.of_sub (fun _ => rfl) fun _ _ => Go.Map.lookup_of_erase)
  | teamDeleted => exact hs.changes (.of_sub (fun _ => rfl) fun _ _ => Go.Map.lookup_of_filterKeys)
  | updated hold => exact hs.keep hold rfl
  | demoted hold => exact hs.changes (.setPlayer (fun _ => rfl) hold rfl)

theorem addressed_exec (T : CaseTable) (call : MemoryCall) (hs : s.roster.Addressed) :
    (s.exec T call).roster.Addressed := addressed_step hs (rosterStep_exec T call s)

theorem addressed_empty : ({} : MemoryStore).roster.Addressed := ⟨nofun, nofun⟩

/-- In every state of a run of calls on an empty store, the addresses of the players come from the
pool and no two of them are equal; the allocator gives the free address of the least place, and
fails exactly if all are in use. The addresses of the pool are valid, and no two places have the
same. -/
theorem peer_addresses (T : CaseTable) (calls : List MemoryCall) :
    Runs.Always (exec T) (fun s => s.roster.Addressed ∧
      (∀ address, s.allocateWireGuardPeerAddress = .ok address ↔
        ∃ index < wireGuardPeerAddressPoolSize, address = wireGuardPeerAddressAt index ∧
          ¬ s.roster.Uses (wireGuardPeerAddressAt index) ∧
          ∀ place < index, s.roster.Uses (wireGuardPeerAddressAt place)) ∧
      ((∃ e, s.allocateWireGuardPeerAddress = .error e) ↔
        ∀ index < wireGuardPeerAddressPoolSize,
          s.roster.Uses (wireGuardPeerAddressAt index))) {} calls ∧
    (∀ index < wireGuardPeerAddressPoolSize,
      ∃ ip : IPv4, IPv4.parse (wireGuardPeerAddressAt index) = some ip) ∧
    ∀ i < wireGuardPeerAddressPoolSize, ∀ j < wireGuardPeerAddressPoolSize,
      wireGuardPeerAddressAt i = wireGuardPeerAddressAt j → i = j := by
  refine ⟨fun before after _ => ?_, fun index hindex => ?_, fun i hi j hj => ?_⟩
  · have hs : (Runs.run (exec T) {} before).roster.Addressed :=
      Runs.run_invariant (P := fun s : MemoryStore =>
        s.roster.Addressed) addressed_empty fun call _ h =>
        addressed_exec T call h
    exact ⟨hs, fun _ => allocateWireGuardPeerAddress_ok_iff hs,
      allocateWireGuardPeerAddress_error_iff hs⟩
  · obtain ⟨ip, -, -, -, -, hip⟩ := wireGuardPeerAddressAt_text hindex
    exact ⟨ip, IPv4.parse_eq_some.mpr hip⟩
  · exact wireGuardPeerAddressAt_inj hi hj

end MemoryStore

end ADPlatform.APIGateway
