import ADPlatform.Controller.AccessApply

/-! # An interrupted change of the access rules

What the host drops while `Apply` replaces the rules of one policy list by those of another, and
what it still drops where `Apply` is cut short. With nftables the new table is in place before the
chain of the old rules is flushed. With iptables alone there is only that chain. -/

namespace ADPlatform.Controller
open APIGateway (ControllerServiceAccessPolicy)
open GameCore (Stamp)
open PacketFilter Concurrent
open HostServiceAccessExecutor (defaults allWireGuard banking toBanking banking_enforceable)

/-! ## Programs that keep a property of the state -/

section Stays
variable {inv K : Host → Prop} {last : Thread AccessOp AccessOp.Res → Host → Prop}

/-- `Apply` by itself: every operation may fail. -/
def anyOutcome (inv : Host → Prop) : Solo Host Outcome AccessOp AccessOp.Res where
  sem := hostSem
  inv

/-- Operation `op` keeps `K` where it has its effect. -/
def Preserves (K : Host → Prop) (op : HostOp) : Prop :=
  ∀ s h, K s → op.exec s = some h → K (s.effect op h)

theorem meets_runHost {op : HostOp} {s : Host} {R : Option String → Host → Prop}
    (hs : inv s) (hfail : ∀ err, R (some err) s)
    (heffect : ∀ h, op.exec s = some h → R none (s.effect op h)) :
    (anyOutcome inv).Meets last (runHost op) s R := by
  refine .perform trivial hs fun o s' r _ hsem => ?_
  have hstep : hostStep o op s = (s', r) := Option.some.inj hsem
  rcases hostStep_cases o op s with ⟨h, -⟩ | ⟨-, h', hexec, h⟩
  · obtain ⟨rfl, rfl⟩ := Prod.mk.inj (h.symm.trans hstep)
    exact hfail _
  · obtain ⟨rfl, rfl⟩ := Prod.mk.inj (h.symm.trans hstep)
    exact heffect h' hexec

theorem stays_runHost (hinv : ∀ s, K s → inv s) {op : HostOp} (hop : Preserves K op) :
    (anyOutcome inv).Stays last K (runHost op) :=
  fun s hs => meets_runHost (hinv s hs) (fun _ => hs) fun h hexec => hop s h hs hexec

theorem stays_orReturn {p q : AccessProc (Option String)}
    (hp : (anyOutcome inv).Stays last K p) (hq : (anyOutcome inv).Stays last K q) :
    (anyOutcome inv).Stays last K (orReturn p q) := by
  refine hp.bind fun err => ?_
  cases err with
  | some err => exact .pure _
  | none => exact hq

theorem stays_runAll (hinv : ∀ s, K s → inv s) {ops : List HostOp}
    (hops : ∀ op ∈ ops, Preserves K op) : (anyOutcome inv).Stays last K (runAll ops) := by
  induction ops with
  | nil => exact .pure _
  | cons op ops ih =>
    exact stays_orReturn (stays_runHost hinv (hops op (by simp)))
      (ih fun op' hop' => hops op' (by simp [hop']))

theorem stays_firstListing (hinv : ∀ s, K s → inv s)
    (hop : ∀ binary chain, Preserves K (.iptables binary (.listRules .filter chain)))
    (tries : List (String × IptChain)) : (anyOutcome inv).Stays last K (firstListing tries) := by
  induction tries with
  | nil => exact .pure _
  | cons candidate tries ih =>
    refine (stays_runHost hinv (hop _ _)).bind fun err => ?_
    cases err with
    | none => exact .pure _
    | some err => exact ih

theorem stays_selectIptablesBinary (hinv : ∀ s, K s → inv s)
    (hop : ∀ binary chain, Preserves K (.iptables binary (.listRules .filter chain)))
    (e : HostServiceAccessExecutor) :
    (anyOutcome inv).Stays last K e.selectIptablesBinary := by
  refine (stays_firstListing hinv hop _).bind fun binary => ?_
  cases binary with
  | some binary => exact .pure _
  | none => exact stays_firstListing hinv hop _

theorem stays_ensureIptablesChain (hinv : ∀ s, K s → inv s) {binary : String} {table : IptTable}
    {chain : IptChain} (hnew : Preserves K (.iptables binary (.newChain table chain)))
    (hlist : Preserves K (.iptables binary (.listRules table chain))) :
    (anyOutcome inv).Stays last K (ensureIptablesChain binary table chain) := by
  refine (stays_runHost hinv hnew).bind fun err => ?_
  cases err with
  | none => exact .pure _
  | some err => exact stays_runHost hinv hlist

theorem stays_ensureJump (hinv : ∀ s, K s → inv s) {binary : String} {table : IptTable}
    {chain target : IptChain}
    (hcheck : Preserves K (.iptables binary (.check table chain (.jump target))))
    (hinsert : Preserves K (.iptables binary (.insertFirst table chain (.jump target)))) :
    (anyOutcome inv).Stays last K (ensureJump binary table chain target) := by
  refine (stays_runHost hinv hcheck).bind fun err => ?_
  cases err with
  | none => exact .pure _
  | some err => exact stays_runHost hinv hinsert

/-- Where the first program succeeds, the second one goes on from `R`. -/
theorem meets_orReturn {C : Solo Host Outcome AccessOp AccessOp.Res}
    {p q : AccessProc (Option String)} {s : Host} {R : Host → Prop}
    {Q : Option String → Host → Prop}
    (hp : C.Meets last p s fun err t => (err = none → R t) ∧ (err ≠ none → Q err t))
    (hq : ∀ t, R t → C.Meets last q t Q) : C.Meets last (orReturn p q) s Q := by
  refine hp.bind fun err t ht => ?_
  cases err with
  | some err => exact .pure (ht.2 (by simp))
  | none => exact hq t (ht.1 rfl)

end Stays

/-- `K`, with the rules file written. -/
def Written (K : Host → Prop) (table : NftTable) (s : Host) : Prop :=
  K s ∧ s.rulesFile = some table

/-- `Apply` keeps the invariant when the old state `K` lasts until the rules are changed, and
changing them leads to the states `K'`. -/
theorem along_apply {inv K K' : Host → Prop} {e : HostServiceAccessExecutor}
    {Q : List ControllerServiceAccessPolicy} {now : Stamp} {s : Host}
    (hKK' : ∀ s, K s → K' s) (hinv : ∀ s, K' s → inv s)
    (hwrite : ∀ table, Preserves K (.writeRules table))
    (hstatus : ∀ status, Preserves K (.writeStatus status))
    (hstatus' : ∀ status, Preserves K' (.writeStatus status))
    (hlist : ∀ binary chain, Preserves K (.iptables binary (.listRules .filter chain)))
    (hrules : ∀ binary t, Written K (e.rules Q) t →
      (anyOutcome inv).Meets (fun t s => t = .done ∧ inv s) (e.applyRules Q binary) t
        fun _ u => K' u) (hs : K s) :
    (anyOutcome inv).Along (fun t s => t = .done ∧ inv s) (e.apply Q now).toThread s := by
  have hKinv : ∀ s, K s → inv s := fun s hs => hinv s (hKK' s hs)
  have hfail (status : ControllerAccessStatus) (err : String) :
      (anyOutcome inv).Stays (fun t s => t = .done ∧ inv s) K'
        (HostServiceAccessExecutor.returnError status err) :=
    (stays_runHost hinv (hstatus' _)).bind fun _ => .pure _
  have hKQ (status : ControllerAccessStatus) :
      Preserves (Written K (e.rules Q)) (.writeStatus status) := by
    rintro s h ⟨hs, hfile⟩ hexec
    refine ⟨hstatus status s h hs hexec, ?_⟩
    obtain rfl := Option.some.inj hexec
    exact hfile
  have hKQlist (binary : String) (chain : IptChain) :
      Preserves (Written K (e.rules Q)) (.iptables binary (.listRules .filter chain)) := by
    rintro s h ⟨hs, hfile⟩ hexec
    refine ⟨hlist binary chain s h hs hexec, ?_⟩
    simp only [HostOp.exec] at hexec
    split at hexec
    · obtain ⟨T, -, rfl⟩ := Option.map_eq_some_iff.mp hexec
      exact hfile
    · cases hexec
  have hselect : (anyOutcome inv).Stays (fun t s => t = .done ∧ inv s) (Written K (e.rules Q))
      e.selectIptablesBinary :=
    stays_selectIptablesBinary (fun s hs => hKinv s hs.1) hKQlist e
  have hartifacts : (anyOutcome inv).Meets (fun t s => t = .done ∧ inv s)
      (runAll [.writeRules (e.rules Q), .writeStatus (buildControllerAccessStatus Q now)]) s
      fun err t => K t ∧ (err = none → Written K (e.rules Q) t) := by
    refine meets_orReturn (R := Written K (e.rules Q)) ?_ fun t ht => ?_
    · refine meets_runHost (hKinv s hs) (fun err => ?_) fun h hexec => ?_
      · exact ⟨by simp, fun _ => ⟨hs, by simp⟩⟩
      · refine ⟨fun _ => ⟨hwrite _ s h hs hexec, ?_⟩, fun h => absurd rfl h⟩
        obtain rfl := Option.some.inj hexec
        rfl
    · refine (stays_runAll (fun s hs => hKinv s hs.1) ?_ t ht).weaken
        fun _ _ hu => ⟨hu.1, fun _ => hu⟩
      simpa using hKQ _
  refine Solo.Meets.toThread (Q := fun _ t => K' t) ?_ fun _ t ht => ⟨rfl, hinv t ht⟩
  refine hartifacts.bind fun err t ht => ?_
  cases err with
  | some err => exact hfail _ _ t (hKK' t ht.1)
  | none =>
    generalize e.selectIptablesBinary = select at hselect
    refine (hselect t (ht.2 rfl)).bind fun binary u hu => ?_
    cases binary with
    | none => exact hfail _ _ u (hKK' u hu.1)
    | some binary =>
      refine (hrules binary u hu).bind fun err v hv => ?_
      cases err with
      | some err => exact hfail _ _ v hv
      | none =>
        refine (stays_runHost hinv (hstatus' _) v hv).bind fun err w hw => ?_
        cases err with
        | some err => exact .pure hw
        | none => exact .pure hw

/-! ## What a command leaves alone -/

section Commands
variable {T T' : IptTables} {c : IptCommand} {table : IptTable} {chain dest : IptChain}

@[simp] theorem IptTables.set_self (entries : List IptEntry) :
    T.set table chain entries table chain = some entries := by
  simp [IptTables.set]

theorem IptTables.set_other {entries : List IptEntry} {t : IptTable} {c : IptChain}
    (h : (table, chain) ≠ (t, c)) : T.set table chain entries t c = T t c := by
  simp only [IptTables.set, ite_eq_right_iff, and_imp]
  rintro rfl rfl
  exact absurd rfl h

/-- The chain whose entries a command changes. -/
def IptCommand.writes : IptCommand → Option (IptTable × IptChain)
  | insertFirst table chain _ | flush table chain | append table chain _ => some (table, chain)
  | newChain _ _ | listRules _ _ | check _ _ _ => none

/-- A chain that exists is changed by the commands that write it only. -/
theorem IptCommand.exec_kept (h : c.exec T = some T') (hc : c.writes ≠ some (table, chain))
    {entries : List IptEntry} (hentries : T table chain = some entries) :
    T' table chain = some entries := by
  cases c with
  | newChain t c =>
    simp only [exec] at h
    split at h
    next => cases h
    next hnone =>
      have hne : (t, c) ≠ (table, chain) := by
        rintro ⟨⟩
        simp [hentries] at hnone
      rw [← Option.some.inj h, IptTables.set_other hne, hentries]
  | listRules =>
    simp only [exec] at h
    split at h
    · rw [← Option.some.inj h, hentries]
    · cases h
  | check =>
    simp only [exec] at h
    split at h
    · split at h
      · rw [← Option.some.inj h, hentries]
      · cases h
    · cases h
  | insertFirst | flush | append =>
    obtain ⟨_, _, rfl⟩ := Option.map_eq_some_iff.mp h
    rw [IptTables.set_other (by simpa [writes] using hc), hentries]

/-- Only a flush removes a jump. -/
theorem IptCommand.exec_hasJump (h : c.exec T = some T') (hc : c ≠ .flush table chain)
    (hjump : T.HasJump table chain dest) : T'.HasJump table chain dest := by
  obtain ⟨entries, hentries, hmem⟩ := hjump
  by_cases hw : c.writes = some (table, chain)
  · cases c with
    | newChain | listRules | check => cases hw
    | insertFirst table chain entry =>
      obtain ⟨rfl, rfl⟩ := Prod.mk.inj (Option.some.inj hw)
      simp only [exec, hentries, Option.map_some, Option.some.injEq] at h
      exact ⟨entry :: entries, by rw [← h, IptTables.set_self], by simp [hmem]⟩
    | flush =>
      obtain ⟨rfl, rfl⟩ := Prod.mk.inj (Option.some.inj hw)
      exact absurd rfl hc
    | append table chain entry =>
      obtain ⟨rfl, rfl⟩ := Prod.mk.inj (Option.some.inj hw)
      simp only [exec, hentries, Option.map_some, Option.some.injEq] at h
      exact ⟨entries ++ [entry], by rw [← h, IptTables.set_self], by simp [hmem]⟩
  · exact ⟨entries, exec_kept h hw hentries, hmem⟩

/-- A command of iptables changes the chains, and nothing else. -/
theorem exec_iptables {h h' : Host} {binary : String}
    (hexec : (HostOp.iptables binary c).exec h = some h') :
    ∃ T, c.exec h.iptables = some T ∧ h' = { h with iptables := T } := by
  simp only [HostOp.exec] at hexec
  split at hexec
  · obtain ⟨T, hT, rfl⟩ := Option.map_eq_some_iff.mp hexec
    exact ⟨T, hT, rfl⟩
  · cases hexec

end Commands

/-! ## With nftables -/

section Nftables
variable {e : HostServiceAccessExecutor} {P Q : List ControllerServiceAccessPolicy}
  {last : Thread AccessOp AccessOp.Res → Host → Prop} {inv : Host → Prop}

/-- The chain still has the old rules. -/
structure OldChain (e : HostServiceAccessExecutor) (P : List ControllerServiceAccessPolicy)
    (s : Host) : Prop where
  jump : s.iptables.HasJump .filter .forward .wgServices
  services : s.iptables .filter .wgServices = some (e.servicesEntries P)
  nft : s.nft = some (e.rules P) ∨ s.nft = none

/-- The table has the new rules, after the old ones where it could not be deleted. -/
def NewTable (e : HostServiceAccessExecutor) (P Q : List ControllerServiceAccessPolicy)
    (s : Host) : Prop :=
  ∃ t, s.nft = some t ∧ (t.forward = (e.rules Q).forward ∨
    t.forward = (e.rules P).forward ++ (e.rules Q).forward)

theorem OldChain.drops {s : Host} (h : OldChain e P s) {p : Packet}
    (hp : Drops (e.servicesChain P) p) : s.DropsForwarded p :=
  .inr ⟨h.jump, _, h.services, by rwa [rules_servicesEntries]⟩

theorem NewTable.drops {s : Host} (h : NewTable e P Q s) {p : Packet}
    (hp : Drops (e.nftForward P) p) (hq : Drops (e.nftForward Q) p) :
    s.DropsForwarded p := by
  obtain ⟨t, ht, hfwd | hfwd⟩ := h
  · exact .inl ⟨t, ht, by rw [hfwd]; exact hq⟩
  · refine .inl ⟨t, ht, ?_⟩
    rw [hfwd, List.map_append]
    exact Drops.append hp

theorem OldChain.listRules {binary : String} {chain : IptChain} :
    Preserves (OldChain e P) (.iptables binary (.listRules .filter chain)) := by
  intro s h hs hexec
  obtain ⟨T, hT, rfl⟩ := exec_iptables hexec
  exact ⟨IptCommand.exec_hasJump hT (by simp) hs.jump,
    IptCommand.exec_kept hT (by simp [IptCommand.writes]) hs.services, hs.nft⟩

theorem OldChain.writeRules {table : NftTable} :
    Preserves (OldChain e P) (.writeRules table) := by
  intro s h hs hexec
  obtain rfl := Option.some.inj hexec
  exact ⟨hs.jump, hs.services, hs.nft⟩

/-- The first command of `Apply` may delete the table. -/
theorem OldChain.nftDelete {table : NftTable} {binary : String} :
    Preserves (Written (OldChain e P) table) (.nftDelete binary) := by
  rintro s h ⟨hs, hfile⟩ hexec
  simp only [HostOp.exec] at hexec
  split at hexec
  · obtain rfl := Option.some.inj hexec
    exact ⟨⟨hs.jump, hs.services, .inr rfl⟩, hfile⟩
  · cases hexec

/-- Loading the rules file puts the new rules in place. -/
theorem OldChain.nftLoad {s : Host} {binary : String} {h : Host}
    (hs : Written (OldChain e P) (e.rules Q) s)
    (hexec : (HostOp.nftLoad binary).exec s = some h) :
    NewTable e P Q (s.effect (.nftLoad binary) h) := by
  obtain ⟨hs, hfile⟩ := hs
  simp only [HostOp.exec, hfile, Option.map_some] at hexec
  split at hexec
  · obtain rfl := Option.some.inj hexec
    refine ⟨_, rfl, ?_⟩
    rcases hs.nft with hnft | hnft
    · exact .inr (by rw [hnft]; rfl)
    · exact .inl (by rw [hnft]; rfl)
  · cases hexec

theorem NewTable.iptables {binary : String} {c : IptCommand} :
    Preserves (NewTable e P Q) (.iptables binary c) := by
  intro s h hs hexec
  obtain ⟨T, -, rfl⟩ := exec_iptables hexec
  exact hs

theorem NewTable.writeStatus {status : ControllerAccessStatus} :
    Preserves (NewTable e P Q) (.writeStatus status) := by
  intro s h hs hexec
  obtain rfl := Option.some.inj hexec
  exact hs

theorem OldChain.writeStatus {status : ControllerAccessStatus} :
    Preserves (OldChain e P) (.writeStatus status) := by
  intro s h hs hexec
  obtain rfl := Option.some.inj hexec
  exact ⟨hs.jump, hs.services, hs.nft⟩

/-- The steps of `Apply` after the table has been loaded. -/
theorem NewTable.stays (hinv : ∀ s, NewTable e P Q s → inv s) (binary : String) :
    (anyOutcome inv).Stays last (NewTable e P Q)
      (orReturn (e.applyDockerRawRules Q binary) (e.applyDockerUserRules Q binary)) := by
  have happend (table : IptTable) (chain : IptChain) (entries : List IptEntry) :
      ∀ op ∈ entries.map fun entry => HostOp.iptables binary (.append table chain entry),
        Preserves (NewTable e P Q) op := by
    intro op hop
    obtain ⟨entry, -, rfl⟩ := List.mem_map.mp hop
    exact NewTable.iptables
  have hchain (table : IptTable) (chain : IptChain) :
      (anyOutcome inv).Stays last (NewTable e P Q) (ensureIptablesChain binary table chain) :=
    stays_ensureIptablesChain hinv NewTable.iptables NewTable.iptables
  have hjump (table : IptTable) (chain target : IptChain) :
      (anyOutcome inv).Stays last (NewTable e P Q) (ensureJump binary table chain target) :=
    stays_ensureJump hinv NewTable.iptables NewTable.iptables
  have hflush (table : IptTable) (chain : IptChain) : (anyOutcome inv).Stays last
      (NewTable e P Q) (runHost (.iptables binary (.flush table chain))) :=
    stays_runHost hinv NewTable.iptables
  refine stays_orReturn ?_ ?_
  · refine stays_orReturn (hchain _ _) (stays_orReturn (hjump _ _ _) ?_)
    exact stays_orReturn (hflush _ _) (stays_runAll hinv (happend _ _ _))
  · refine stays_orReturn (hchain _ _) (stays_orReturn (hjump _ _ _) ?_)
    refine stays_orReturn (hchain _ _) (stays_orReturn (hflush _ _) ?_)
    refine stays_orReturn (hjump _ _ _) (stays_orReturn (hjump _ _ _) ?_)
    exact stays_runAll hinv (happend _ _ _)

theorem OldChain.meets_applyRules (hb : e.firewallBackend = .nftables)
    (hold : ∀ s, OldChain e P s → inv s) (hnew : ∀ s, NewTable e P Q s → inv s) {s : Host}
    (hs : Written (OldChain e P) (e.rules Q) s) (binary : String) :
    (anyOutcome inv).Meets last (e.applyRules Q binary) s
      fun _ t => OldChain e P t ∨ NewTable e P Q t := by
  have hdelete : (anyOutcome inv).Stays last (Written (OldChain e P) (e.rules Q))
      (runHost (.nftDelete e.nftBinary)) :=
    stays_runHost (fun s hs => hold s hs.1) OldChain.nftDelete
  refine (hdelete s hs).bind fun _ t ht => ?_
  rw [hb]
  refine meets_orReturn (R := NewTable e P Q) ?_ fun u hu => ?_
  · refine meets_runHost (hold t ht.1) (fun err => ?_) fun h hexec => ?_
    · exact ⟨by simp, fun _ => .inl ht.1⟩
    · exact ⟨fun _ => OldChain.nftLoad ht hexec, fun h => absurd rfl h⟩
  · exact (NewTable.stays hnew binary u hu).weaken fun _ v hv => .inr hv

/-- At every point of `Apply`, wherever it stops, the host drops what both the old and the new
rules drop, where no interface name ends in a wildcard. -/
theorem apply_nftables_drops (hb : e.firewallBackend = .nftables) (hwg : e.interfaceName ≠ "")
    (hname : NoWildcard e.interfaceName) (hinternet : NoWildcard e.internetInterface)
    (hP : ∀ policy ∈ P, Enforceable policy) (hQ : ∀ policy ∈ Q, Enforceable policy)
    {s : Host} (hs : Installed e P s) (now : Stamp) (outcomes : List Outcome)
    {p : Packet} (hp : Drops (e.servicesChain P) p) (hq : Drops (e.servicesChain Q) p) :
    ((e.apply Q now).toThread.exec hostSem outcomes s).2.DropsForwarded p := by
  let inv : Host → Prop := fun s => s.DropsForwarded p
  have hold : ∀ s, OldChain e P s → inv s := fun s hs => hs.drops hp
  have hnew : ∀ s, NewTable e P Q s → inv s := by
    intro s hs
    refine hs.drops ?_ ?_
    · rwa [Drops, e.verdict_eq hwg hname hinternet hP]
    · rwa [Drops, e.verdict_eq hwg hname hinternet hQ]
  have halong := @along_apply inv (OldChain e P) (fun s => OldChain e P s ∨ NewTable e P Q s)
    e Q now s (fun s hs => .inl hs)
    (fun s hs => hs.elim (hold s) (hnew s)) (fun _ => OldChain.writeRules)
    (fun _ => OldChain.writeStatus) ?_ (fun _ _ => OldChain.listRules)
    (fun binary t ht => OldChain.meets_applyRules hb hold hnew ht binary)
    ⟨hs.forwardJump, hs.services, .inl (by rw [hs.nft, hb])⟩
  · exact Solo.Along.exec (fun _ _ _ => trivial) halong outcomes
  · rintro status s h (hs | hs) hexec
    · exact .inl (OldChain.writeStatus s h hs hexec)
    · exact .inr (NewTable.writeStatus s h hs hexec)

/-- The table has been deleted and the new one could not be loaded. -/
theorem apply_nftables_drops_banking :
    let p := toBanking ⟨10, 70, 12, 5⟩ 22
    let h := installedHost defaults [banking]
    Drops (defaults.servicesChain [banking]) p ∧
    ((defaults.apply [banking] none).toThread.exec hostSem
      (List.replicate 5 .ok ++ [.failed]) h).2.DropsForwarded p := by
  have henforceable : ∀ policy ∈ [banking], Enforceable policy := by
    simpa using banking_enforceable
  have hdrops : Drops (defaults.servicesChain [banking]) (toBanking ⟨10, 70, 12, 5⟩ 22) := by
    decide
  refine ⟨hdrops, ?_⟩
  exact apply_nftables_drops rfl (by decide) (by decide) (by decide) henforceable
    henforceable (installed_installedHost _ _) none _
    hdrops hdrops

/-- With `wg+` for the WireGuard interface: the chain has been flushed, and the new table does not
know the interface of the packet. -/
theorem apply_nftables_allWireGuard :
    let h := installedHost allWireGuard [banking]
    let left := ((allWireGuard.apply [banking] none).toThread.exec hostSem
      (List.replicate 17 .ok ++ List.replicate 10 .failed) h).2
    let p := toBanking ⟨10, 70, 12, 5⟩ 8080
    allWireGuard.firewallBackend = .nftables ∧ allWireGuard.interfaceName ≠ "" ∧
      allWireGuard.internetInterface ≠ "" ∧ (∀ policy ∈ [banking], Enforceable policy) ∧
      Installed allWireGuard [banking] h ∧ Drops (allWireGuard.servicesChain [banking]) p ∧
      ¬left.DropsForwarded p := by
  intro h left p
  have hnft : left.nft = some (allWireGuard.rules [banking]) := by decide
  have hchain : left.iptables .filter .wgServices = some [] := by decide
  refine ⟨rfl, by decide, by decide, by simpa using banking_enforceable,
    installed_installedHost _ _, by decide, ?_⟩
  rintro (⟨t, ht, hp⟩ | ⟨-, entries, hentries, hp⟩)
  · obtain rfl := Option.some.inj (hnft.symm.trans ht)
    exact absurd hp (by decide)
  · rw [← Option.some.inj (hchain.symm.trans hentries)] at hp
    cases hp

end Nftables

/-! ## With iptables alone -/

/-- The operation changes the chain of the services. -/
def HostOp.rewrites : HostOp → Bool
  | .iptables _ c => c.writes = some (.filter, .wgServices)
  | _ => false

/-- How often the chain of the services has been changed: `Apply` flushes it first and appends a
rule each time after that. -/
def Host.rewrites (h : Host) : Nat := h.log.countP (·.rewrites)

section Iptables
variable {e : HostServiceAccessExecutor} {P Q : List ControllerServiceAccessPolicy}
  {last : Thread AccessOp AccessOp.Res → Host → Prop} {inv : Host → Prop}
  {entries : List IptEntry} {n : Nat}

/-- The chain of the services has these entries after `n` changes, and there is no table. -/
structure Holds (entries : List IptEntry) (n : Nat) (s : Host) : Prop where
  jump : s.iptables.HasJump .filter .forward .wgServices
  services : s.iptables .filter .wgServices = some entries
  nft : s.nft = none
  rewrites : s.rewrites = n

theorem rewrites_effect (s : Host) (op : HostOp) (h : Host) :
    (s.effect op h).rewrites = s.rewrites + if op.rewrites then 1 else 0 := by
  simp [Host.effect, Host.rewrites, List.countP_append]

theorem Holds.iptables {binary : String} {c : IptCommand}
    (hw : c.writes ≠ some (.filter, .wgServices)) (hc : c ≠ .flush .filter .forward) :
    Preserves (Holds entries n) (.iptables binary c) := by
  intro s h hs hexec
  obtain ⟨T, hT, rfl⟩ := exec_iptables hexec
  refine ⟨IptCommand.exec_hasJump hT hc hs.jump, IptCommand.exec_kept hT hw hs.services, hs.nft, ?_⟩
  rw [rewrites_effect, hs.rewrites]
  simp [HostOp.rewrites, hw]

theorem Holds.writeStatus {status : ControllerAccessStatus} :
    Preserves (Holds entries n) (.writeStatus status) := by
  intro s h hs hexec
  obtain rfl := Option.some.inj hexec
  exact ⟨hs.jump, hs.services, hs.nft, by rw [rewrites_effect, hs.rewrites]; rfl⟩

theorem Holds.writeRules {table : NftTable} :
    Preserves (Holds entries n) (.writeRules table) := by
  intro s h hs hexec
  obtain rfl := Option.some.inj hexec
  exact ⟨hs.jump, hs.services, hs.nft, by rw [rewrites_effect, hs.rewrites]; rfl⟩

/-- There is no table to delete. -/
theorem Holds.nftDelete {binary : String} : Preserves (Holds entries n) (.nftDelete binary) := by
  intro s h hs hexec
  simp [HostOp.exec, hs.nft] at hexec

/-- A flush takes the entries away. -/
theorem Holds.flush {s : Host} {binary : String} {h : Host} (hs : Holds entries n s)
    (hexec : (HostOp.iptables binary (.flush .filter .wgServices)).exec s = some h) :
    Holds [] (n + 1) (s.effect (.iptables binary (.flush .filter .wgServices)) h) := by
  obtain ⟨T, hT, rfl⟩ := exec_iptables hexec
  refine ⟨IptCommand.exec_hasJump hT (by simp) hs.jump, ?_, hs.nft, ?_⟩
  · obtain ⟨_, _, rfl⟩ := Option.map_eq_some_iff.mp hT
    simp [Host.effect]
  · rw [rewrites_effect, hs.rewrites]
    rfl

/-- An append brings one entry more. -/
theorem Holds.append {s : Host} {binary : String} {entry : IptEntry} {h : Host}
    (hs : Holds entries n s)
    (hexec : (HostOp.iptables binary (.append .filter .wgServices entry)).exec s = some h) :
    Holds (entries ++ [entry]) (n + 1)
      (s.effect (.iptables binary (.append .filter .wgServices entry)) h) := by
  obtain ⟨T, hT, rfl⟩ := exec_iptables hexec
  refine ⟨IptCommand.exec_hasJump hT (by simp) hs.jump, ?_, hs.nft, ?_⟩
  · simp only [IptCommand.exec, hs.services, Option.map_some, Option.some.injEq] at hT
    subst hT
    simp [Host.effect]
  · rw [rewrites_effect, hs.rewrites]
    rfl

/-- Before the flush the chain has the old rules, after it the first few of the new ones. -/
def Replacing (e : HostServiceAccessExecutor) (P Q : List ControllerServiceAccessPolicy)
    (s : Host) : Prop :=
  Holds (e.servicesEntries P) 0 s ∨ ∃ n, Holds ((e.servicesEntries Q).take n) (n + 1) s

theorem meets_appends (hinv : ∀ s, Replacing e P Q s → inv s) (binary : String)
    {done rest : List IptEntry} (hQ : e.servicesEntries Q = done ++ rest) {s : Host}
    (hs : Holds done (done.length + 1) s) :
    (anyOutcome inv).Meets last (runAll (rest.map fun entry =>
      .iptables binary (.append .filter .wgServices entry))) s fun _ t => Replacing e P Q t := by
  have hreplacing {done rest : List IptEntry} (hQ : e.servicesEntries Q = done ++ rest)
      {t : Host} (ht : Holds done (done.length + 1) t) : Replacing e P Q t :=
    .inr ⟨done.length, by rwa [hQ, List.take_left]⟩
  induction rest generalizing done s with
  | nil => exact .pure (hreplacing hQ hs)
  | cons entry rest ih =>
    have hQ' : e.servicesEntries Q = (done ++ [entry]) ++ rest := by simp [hQ]
    refine meets_orReturn (R := Holds (done ++ [entry]) ((done ++ [entry]).length + 1)) ?_
      fun t ht => ih hQ' ht
    refine meets_runHost (hinv s (hreplacing hQ hs)) (fun err => ?_) fun h hexec => ?_
    · exact ⟨by simp, fun _ => hreplacing hQ hs⟩
    · exact ⟨fun _ => by simpa using hs.append hexec, fun h => absurd rfl h⟩

/-- The commands that `Apply` runs on chains other than that of the services. -/
theorem stays_rawRules (hinv : ∀ s, Holds entries n s → inv s) (binary : String) :
    (anyOutcome inv).Stays last (Holds entries n) (e.applyDockerRawRules Q binary) := by
  refine stays_orReturn (stays_ensureIptablesChain hinv ?_ ?_)
    (stays_orReturn (stays_ensureJump hinv ?_ ?_)
      (stays_orReturn (stays_runHost hinv ?_) (stays_runAll hinv fun op hop => ?_)))
  iterate 5 exact Holds.iptables (by simp [IptCommand.writes]) (by simp)
  obtain ⟨entry, -, rfl⟩ := List.mem_map.mp hop
  exact Holds.iptables (by simp [IptCommand.writes]) (by simp)

theorem meets_userRules (hinv : ∀ s, Replacing e P Q s → inv s) (binary : String)
    {s : Host} (hs : Holds (e.servicesEntries P) 0 s) :
    (anyOutcome inv).Meets last (e.applyDockerUserRules Q binary) s
      fun _ t => Replacing e P Q t := by
  have hold : ∀ s, Holds (e.servicesEntries P) 0 s → inv s := fun s hs => hinv s (.inl hs)
  have hnew : ∀ s, Holds [] 1 s → inv s := fun s hs => hinv s (.inr ⟨0, by simpa using hs⟩)
  have hchain (chain : IptChain) : (anyOutcome inv).Stays last
      (Holds (e.servicesEntries P) 0) (ensureIptablesChain binary .filter chain) :=
    stays_ensureIptablesChain hold (Holds.iptables (by simp [IptCommand.writes]) (by simp))
      (Holds.iptables (by simp [IptCommand.writes]) (by simp))
  have hjump {entries : List IptEntry} {n : Nat} (hinv : ∀ s, Holds entries n s → inv s)
      {chain : IptChain} (hne : chain ≠ .wgServices) (target : IptChain) :
      (anyOutcome inv).Stays last (Holds entries n) (ensureJump binary .filter chain target) :=
    stays_ensureJump hinv (Holds.iptables (by simp [IptCommand.writes]) (by simp))
      (Holds.iptables (by simp [IptCommand.writes, hne]) (by simp))
  -- a program that keeps the old rules, or an error that leaves them
  have hseq {p q : AccessProc (Option String)} {entries : List IptEntry} {n : Nat}
      (hK : ∀ t, Holds entries n t → Replacing e P Q t)
      (hp : (anyOutcome inv).Stays last (Holds entries n) p)
      (hq : ∀ t, Holds entries n t →
        (anyOutcome inv).Meets last q t fun _ t => Replacing e P Q t)
      (t : Host) (ht : Holds entries n t) :
      (anyOutcome inv).Meets last (orReturn p q) t fun _ t => Replacing e P Q t :=
    meets_orReturn ((hp t ht).weaken fun _ u hu => ⟨fun _ => hu, fun _ => hK u hu⟩) hq
  have hflushed : ∀ t, Holds [] 1 t → Replacing e P Q t :=
    fun t ht => .inr ⟨0, by simpa using ht⟩
  refine hseq (fun _ => .inl) (hchain _) ?_ s hs
  refine hseq (fun _ => .inl) (hjump hold (by simp) _) ?_
  refine hseq (fun _ => .inl) (hchain _) fun t ht => ?_
  refine meets_orReturn (R := Holds [] 1) ?_ ?_
  · refine meets_runHost (hold t ht) (fun err => ?_) fun h hexec => ?_
    · exact ⟨by simp, fun _ => .inl ht⟩
    · exact ⟨fun _ => ht.flush hexec, fun h => absurd rfl h⟩
  refine hseq hflushed (hjump hnew (by simp) _) ?_
  refine hseq hflushed (hjump hnew (by simp) _) fun u hu => ?_
  exact meets_appends hinv binary (List.nil_append _).symm hu

theorem replacing_drops {s : Host} (hs : Replacing e P Q s) :
    (∀ p, Drops (e.servicesChain P) p → Drops (e.servicesChain Q) p → s.DropsForwarded p) ↔
      (s.rewrites = 0 ∨ ∀ p i, Drops (e.servicesChain P) p → Drops (e.servicesChain Q) p →
        decidingRule (e.servicesChain Q) p = some i → i + 1 < s.rewrites) := by
  have hdrops {entries : List IptEntry} {n : Nat} (h : Holds entries n s) (p : Packet) :
      s.DropsForwarded p ↔ Drops (IptEntry.rules entries) p := by
    constructor
    · rintro (⟨t, ht, -⟩ | ⟨-, entries', hentries', hp⟩)
      · simp [h.nft] at ht
      · rwa [← Option.some.inj (h.services.symm.trans hentries')] at hp
    · exact fun hp => .inr ⟨h.jump, entries, h.services, hp⟩
  rcases hs with h | ⟨n, h⟩
  · refine ⟨fun _ => .inl h.rewrites, fun _ p hp _ => ?_⟩
    rwa [hdrops h, rules_servicesEntries]
  · have htake : IptEntry.rules ((e.servicesEntries Q).take n) = (e.servicesChain Q).take n := by
      rw [← rules_servicesEntries]
      simp only [IptEntry.rules, HostServiceAccessExecutor.servicesEntries, ← List.map_take,
        List.filterMap_map]
      exact congrFun List.filterMap_eq_map' _ |>.trans (by simp [List.map_take])
    simp only [hdrops h, htake, drops_take_iff, h.rewrites]
    constructor
    · exact fun hall => .inr fun p i hp hq hi => by have := (hall p hp hq).2 i hi; omega
    · rintro (h0 | hall) p hp hq
      · cases h0
      · exact ⟨hq, fun i hi => by have := hall p i hp hq hi; omega⟩

/-- The host still drops what both the old and the new rules drop exactly if `Apply` has stopped
before the chain was flushed, or the rules that are back include every one by which the new rules
drop a packet that the old ones drop too. -/
theorem apply_iptables_drops_iff (hb : e.firewallBackend = .iptables) {s : Host}
    (hs : Installed e P s) (hlog : s.log = []) (now : Stamp) (outcomes : List Outcome) :
    let left := ((e.apply Q now).toThread.exec hostSem outcomes s).2
    (∀ p, Drops (e.servicesChain P) p → Drops (e.servicesChain Q) p → left.DropsForwarded p) ↔
      (left.rewrites = 0 ∨ ∀ p i, Drops (e.servicesChain P) p → Drops (e.servicesChain Q) p →
        decidingRule (e.servicesChain Q) p = some i → i + 1 < left.rewrites) := by
  have hrewrites : s.rewrites = 0 := by simp [Host.rewrites, hlog]
  refine replacing_drops (Solo.Along.exec (C := anyOutcome (Replacing e P Q))
    (fun _ _ _ => trivial) ?_ outcomes)
  refine @along_apply _ (Holds (e.servicesEntries P) 0) (Replacing e P Q) _ _ _ _
    (fun _ => .inl) (fun _ => id) (fun _ => Holds.writeRules) (fun _ => Holds.writeStatus) ?_
    (fun _ _ => Holds.iptables (by simp [IptCommand.writes]) (by simp)) ?_
    ⟨hs.forwardJump, hs.services, by rw [hs.nft, hb], hrewrites⟩
  · rintro status t h (ht | ⟨n, ht⟩) hexec
    · exact .inl (Holds.writeStatus t h ht hexec)
    · exact .inr ⟨n, Holds.writeStatus t h ht hexec⟩
  · intro binary t ht
    have hdelete : (anyOutcome (Replacing e P Q)).Stays (fun t s => t = .done ∧ Replacing e P Q s)
        (Holds (e.servicesEntries P) 0) (runHost (.nftDelete e.nftBinary)) :=
      stays_runHost (fun _ => .inl) Holds.nftDelete
    refine (hdelete t ht.1).bind fun _ u hu => ?_
    rw [hb]
    refine meets_orReturn (R := Holds (e.servicesEntries P) 0) ?_
      fun v hv => meets_userRules (fun _ => id) binary hv
    exact (stays_rawRules (fun _ => .inl) binary u hu).weaken
      fun _ v hv => ⟨fun _ => hv, fun _ => .inl hv⟩

/-- `Apply` stops before the flush. -/
theorem apply_iptables_drops_before_flush :
    let e := { defaults with firewallBackend := .iptables }
    let h := installedHost e [banking]
    let left := ((e.apply [banking] none).toThread.exec hostSem
      (List.replicate 15 .ok ++ [.failed]) h).2
    left.rewrites = 0 ∧ ∀ p, Drops (e.servicesChain [banking]) p →
      Drops (e.servicesChain [banking]) p → left.DropsForwarded p :=
  ⟨by decide, (apply_iptables_drops_iff rfl
    (installed_installedHost _ _) rfl none _).mpr (.inl (by decide))⟩

/-- `Apply` stops right after the flush: the chain is empty, and the SSH port of the service is
open to everyone. -/
theorem apply_iptables_after_flush :
    let e := { defaults with firewallBackend := .iptables }
    let h := installedHost e [banking]
    let left := ((e.apply [banking] none).toThread.exec hostSem
      (List.replicate 16 .ok ++ List.replicate 10 .failed) h).2
    let p := toBanking ⟨10, 70, 12, 5⟩ 22
    Installed e [banking] h ∧ Drops (e.servicesChain [banking]) p ∧
      ¬left.DropsForwarded p := by
  intro e h left p
  have hnft : left.nft = none := by decide
  have hchain : left.iptables .filter .wgServices = some [] := by decide
  refine ⟨installed_installedHost _ _, by decide, ?_⟩
  rintro (⟨t, ht, -⟩ | ⟨-, entries, hentries, hp⟩)
  · rw [hnft] at ht
    cases ht
  · rw [← Option.some.inj (hchain.symm.trans hentries)] at hp
    cases hp

end Iptables

end ADPlatform.Controller
