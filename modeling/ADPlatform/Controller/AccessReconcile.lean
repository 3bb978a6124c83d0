import ADPlatform.Controller.AccessInterrupted

/-! # Concurrent access reconciles

Several handlers of the controller read the policies and apply them, and nothing keeps them apart.
A reconcile that nobody disturbs installs what it has read (`installs_apply`). So do reconciles
that take turns, from the reading of the policies to the last command. -/

namespace ADPlatform.Controller
open APIGateway (ControllerServiceAccessPolicy)
open GameCore (Stamp)
open PacketFilter Concurrent
open HostServiceAccessExecutor (defaults banking)

/-! ## An apply that is not disturbed -/

/-- `Apply` by itself, where the environment makes nothing fail. -/
def smooth : Solo Host Outcome AccessOp AccessOp.Res where
  sem := hostSem
  allowed o _ _ := o.fails = false
  own op := ∃ hostOp, op = .host hostOp

/-- From `K`, the program succeeds and leads to `K'`. -/
def Leads (last : Thread AccessOp AccessOp.Res → Host → Prop) (p : AccessProc (Option String))
    (K K' : Host → Prop) : Prop :=
  ∀ h, K h → smooth.Meets last p h fun err t => err = none ∧ K' t

section Leads
variable {last : Thread AccessOp AccessOp.Res → Host → Prop} {K K' K'' : Host → Prop} {h h' : Host}
  {op : HostOp} {R : Option String → Host → Prop} {p q : AccessProc (Option String)}

theorem smooth_runHost (hexec : ∀ h', op.exec h = some h' → R none (h.effect op h'))
    (hnone : op.exec h = none → ∀ err, R (some err) h) : smooth.Meets last (runHost op) h R := by
  refine .perform ⟨op, rfl⟩ trivial fun o t r hal hsem => ?_
  have hstep : hostStep o op h = (t, r) := Option.some.inj hsem
  rcases hostStep_cases o op h with ⟨heq, hexec'⟩ | ⟨-, h', hexec', heq⟩
  · obtain ⟨rfl, rfl⟩ := Prod.mk.inj (heq.symm.trans hstep)
    exact hnone (hexec' hal) _
  · obtain ⟨rfl, rfl⟩ := Prod.mk.inj (heq.symm.trans hstep)
    exact hexec h' hexec'

theorem Leads.runHost (hop : ∀ h, K h → ∃ h', op.exec h = some h' ∧ K' (h.effect op h')) :
    Leads last (runHost op) K K' := by
  intro h hK
  obtain ⟨h', hexec, hK'⟩ := hop h hK
  refine smooth_runHost (fun t ht => ?_) fun hnone => ?_
  · obtain rfl := Option.some.inj (hexec.symm.trans ht)
    exact ⟨rfl, hK'⟩
  · rw [hexec] at hnone
    cases hnone

theorem Leads.orReturn (hp : Leads last p K K') (hq : Leads last q K' K'') :
    Leads last (orReturn p q) K K'' := by
  intro h hK
  refine (hp h hK).bind fun err t ht => ?_
  obtain ⟨rfl, hK'⟩ := ht
  exact hq t hK'

end Leads

/-- The chain exists. -/
def Exists (table : IptTable) (chain : IptChain) (h : Host) : Prop :=
  (h.iptables table chain).isSome

section Commands
variable {binary : String} {c : IptCommand} {table : IptTable} {chain dest : IptChain}
  {entries : List IptEntry}

theorem preserves_exists : Preserves (Exists table chain) (.iptables binary c) := by
  intro h h' hs hexec
  obtain ⟨T, hT, rfl⟩ := exec_iptables hexec
  obtain ⟨old, hold⟩ := Option.isSome_iff_exists.mp hs
  by_cases hw : c.writes = some (table, chain)
  · cases c with
    | newChain | listRules | check => cases hw
    | insertFirst | flush | append =>
      obtain ⟨rfl, rfl⟩ := Prod.mk.inj (Option.some.inj hw)
      obtain ⟨_, _, rfl⟩ := Option.map_eq_some_iff.mp hT
      simp [Exists, Host.effect]
  · have := IptCommand.exec_kept hT hw hold
    simp [Exists, Host.effect, this]

theorem preserves_entries (hw : c.writes ≠ some (table, chain)) :
    Preserves (fun h => h.iptables table chain = some entries) (.iptables binary c) := by
  intro h h' hs hexec
  obtain ⟨T, hT, rfl⟩ := exec_iptables hexec
  exact IptCommand.exec_kept hT hw hs

theorem preserves_jump (hc : c ≠ .flush table chain) :
    Preserves (fun h => h.iptables.HasJump table chain dest) (.iptables binary c) := by
  intro h h' hs hexec
  obtain ⟨T, hT, rfl⟩ := exec_iptables hexec
  exact IptCommand.exec_hasJump hT hc hs

theorem preserves_nft {t : Option NftTable} :
    Preserves (fun h => h.nft = t) (.iptables binary c) := by
  intro h h' hs hexec
  obtain ⟨T, hT, rfl⟩ := exec_iptables hexec
  exact hs

theorem preserves_installed {name : String} :
    Preserves (fun h => h.installed name = true) (.iptables binary c) := by
  intro h h' hs hexec
  obtain ⟨T, hT, rfl⟩ := exec_iptables hexec
  exact hs

theorem Preserves.and {K K' : Host → Prop} {op : HostOp} (hK : Preserves K op)
    (hK' : Preserves K' op) : Preserves (fun h => K h ∧ K' h) op :=
  fun h h' hs hexec => ⟨hK h h' hs.1 hexec, hK' h h' hs.2 hexec⟩

end Commands

section Programs
variable {last : Thread AccessOp AccessOp.Res → Host → Prop} {K : Host → Prop} {binary : String}
  {table : IptTable} {chain dest : IptChain} (hbin : ∀ h, K h → h.installed binary = true)
include hbin

theorem leads_ensureIptablesChain
    (hnew : Preserves K (.iptables binary (.newChain table chain)))
    (hlist : Preserves K (.iptables binary (.listRules table chain))) :
    Leads last (ensureIptablesChain binary table chain) K fun h => K h ∧ Exists table chain h := by
  intro h hK
  have hmake : smooth.Meets last (runHost (.iptables binary (.newChain table chain))) h
      fun _ t => K t ∧ Exists table chain t := by
    refine smooth_runHost (fun h' hexec => ?_) fun hnone err => ⟨hK, ?_⟩
    · refine ⟨hnew h h' hK hexec, ?_⟩
      obtain ⟨T, hT, rfl⟩ := exec_iptables hexec
      simp only [IptCommand.exec] at hT
      split at hT
      · cases hT
      · simp [Exists, Host.effect, ← Option.some.inj hT]
    · -- the chain could not be made because it is there
      simp only [HostOp.exec, hbin h hK, if_true, IptCommand.exec, Option.map_eq_none_iff] at hnone
      split at hnone
      next hsome => exact hsome
      next => cases hnone
  refine hmake.bind fun err t ht => ?_
  cases err with
  | none => exact .pure ⟨rfl, ht⟩
  | some err =>
    have hexec : (HostOp.iptables binary (.listRules table chain)).exec t = some t := by
      have : (t.iptables table chain).isSome := ht.2
      simp [HostOp.exec, IptCommand.exec, hbin t ht.1, this]
    refine Leads.runHost (K := fun h => h = t) (fun _ heq => ?_) t rfl
    subst heq
    exact ⟨_, hexec, hlist _ _ ht.1 hexec, preserves_exists _ _ ht.2 hexec⟩

theorem leads_ensureJump (hexists : ∀ h, K h → Exists table chain h)
    (hcheck : Preserves K (.iptables binary (.check table chain (.jump dest))))
    (hinsert : Preserves K (.iptables binary (.insertFirst table chain (.jump dest)))) :
    Leads last (ensureJump binary table chain dest) K
      fun h => K h ∧ h.iptables.HasJump table chain dest := by
  intro h hK
  have hask : smooth.Meets last (runHost (.iptables binary (.check table chain (.jump dest)))) h
      fun err t => K t ∧ (err = none → t.iptables.HasJump table chain dest) := by
    refine smooth_runHost (fun h' hexec => ?_) fun hnone err => ⟨hK, by simp⟩
    refine ⟨hcheck h h' hK hexec, fun _ => ?_⟩
    obtain ⟨T, hT, rfl⟩ := exec_iptables hexec
    simp only [IptCommand.exec] at hT
    split at hT
    next entries hentries =>
      split at hT
      next hmem => exact ⟨entries, by simp [Host.effect, ← Option.some.inj hT, hentries], hmem⟩
      next => cases hT
    next => cases hT
  refine hask.bind fun err t ht => ?_
  cases err with
  | none => exact .pure ⟨rfl, ht.1, ht.2 rfl⟩
  | some err =>
    obtain ⟨entries, hentries⟩ := Option.isSome_iff_exists.mp (hexists t ht.1)
    have hexec : (HostOp.iptables binary (.insertFirst table chain (.jump dest))).exec t =
        some { t with iptables := t.iptables.set table chain (.jump dest :: entries) } := by
      simp [HostOp.exec, IptCommand.exec, hbin t ht.1, hentries]
    refine Leads.runHost (K := fun h => h = t) (fun _ heq => ?_) t rfl
    subst heq
    refine ⟨_, hexec, hinsert _ _ ht.1 hexec, .jump dest :: entries, ?_, by simp⟩
    simp [Host.effect]

theorem leads_flush (hexists : ∀ h, K h → Exists table chain h)
    (hflush : Preserves K (.iptables binary (.flush table chain))) :
    Leads last (runHost (.iptables binary (.flush table chain))) K
      fun h => K h ∧ h.iptables table chain = some [] := by
  refine Leads.runHost fun h hK => ?_
  obtain ⟨entries, hentries⟩ := Option.isSome_iff_exists.mp (hexists h hK)
  have hexec : (HostOp.iptables binary (.flush table chain)).exec h =
      some { h with iptables := h.iptables.set table chain [] } := by
    simp [HostOp.exec, IptCommand.exec, hbin h hK, hentries]
  exact ⟨_, hexec, hflush _ _ hK hexec, by simp [Host.effect]⟩

theorem leads_appends
    (happend : ∀ entry, Preserves K (.iptables binary (.append table chain entry)))
    (start entries : List IptEntry) :
    Leads last (runAll (entries.map fun entry => .iptables binary (.append table chain entry)))
      (fun h => K h ∧ h.iptables table chain = some start)
      fun h => K h ∧ h.iptables table chain = some (start ++ entries) := by
  induction entries generalizing start with
  | nil => exact fun h hK => .pure ⟨rfl, by simpa using hK⟩
  | cons entry entries ih =>
    have hrest := ih (start ++ [entry])
    rw [List.append_assoc, List.singleton_append] at hrest
    refine Leads.orReturn (Leads.runHost fun h hK => ?_) hrest
    have hexec : (HostOp.iptables binary (.append table chain entry)).exec h =
        some { h with iptables := h.iptables.set table chain (start ++ [entry]) } := by
      simp [HostOp.exec, IptCommand.exec, hbin h hK.1, hK.2]
    exact ⟨_, hexec, happend entry _ _ hK.1 hexec, by simp [Host.effect]⟩

end Programs

section Apply
variable {e : HostServiceAccessExecutor} {P : List ControllerServiceAccessPolicy}
  {last : Thread AccessOp AccessOp.Res → Host → Prop} {K : Host → Prop} {binary : String}

/-- The chain of the raw table is in place. -/
def RawInstalled (e : HostServiceAccessExecutor) (P : List ControllerServiceAccessPolicy)
    (h : Host) : Prop :=
  h.iptables.HasJump .raw .prerouting .wgRaw ∧ h.iptables .raw .wgRaw = some (e.rawEntries P)

/-- The chain of the services is in place. -/
def ServicesInstalled (e : HostServiceAccessExecutor) (P : List ControllerServiceAccessPolicy)
    (h : Host) : Prop :=
  (h.iptables.HasJump .filter .forward .dockerUser ∧
    h.iptables.HasJump .filter .dockerUser .wgServices ∧
    h.iptables.HasJump .filter .forward .wgServices) ∧
  h.iptables .filter .wgServices = some (e.servicesEntries P)

theorem leads_applyDockerRawRules (hbin : ∀ h, K h → h.installed binary = true)
    (hprerouting : ∀ h, K h → Exists .raw .prerouting h)
    (hK : ∀ c, Preserves K (.iptables binary c)) :
    Leads last (e.applyDockerRawRules P binary) K fun h => K h ∧ RawInstalled e P h := by
  let K₁ : Host → Prop := fun h => K h ∧ Exists .raw .wgRaw h
  let K₂ : Host → Prop := fun h => K₁ h ∧ h.iptables.HasJump .raw .prerouting .wgRaw
  have hchain : Leads last (ensureIptablesChain binary .raw .wgRaw) K K₁ :=
    leads_ensureIptablesChain hbin (hK _) (hK _)
  have hjump : Leads last (ensureJump binary .raw .prerouting .wgRaw) K₁ K₂ :=
    leads_ensureJump (fun h hh => hbin h hh.1) (fun h hh => hprerouting h hh.1)
      ((hK _).and preserves_exists) ((hK _).and preserves_exists)
  have hflush : Leads last (runHost (.iptables binary (.flush .raw .wgRaw))) K₂
      fun h => K₂ h ∧ h.iptables .raw .wgRaw = some [] :=
    leads_flush (fun h hh => hbin h hh.1.1) (fun h hh => hh.1.2)
      (((hK _).and preserves_exists).and (preserves_jump (by simp)))
  have happends : Leads last (runAll ((e.rawEntries P).map fun entry =>
      .iptables binary (.append .raw .wgRaw entry)))
      (fun h => K₂ h ∧ h.iptables .raw .wgRaw = some [])
      fun h => K₂ h ∧ h.iptables .raw .wgRaw = some (e.rawEntries P) :=
    leads_appends (fun h hh => hbin h hh.1.1)
      (fun _ => ((hK _).and preserves_exists).and (preserves_jump (by simp))) [] (e.rawEntries P)
  intro h hh
  refine (((hchain.orReturn (hjump.orReturn (hflush.orReturn happends))) h hh)).weaken ?_
  rintro err t ⟨herr, ⟨⟨hK, -⟩, hj⟩, hentries⟩
  exact ⟨herr, hK, hj, hentries⟩

theorem leads_applyDockerUserRules (hbin : ∀ h, K h → h.installed binary = true)
    (hforward : ∀ h, K h → Exists .filter .forward h)
    (hK : ∀ c, (∀ chain, c.writes ≠ some (.raw, chain)) → Preserves K (.iptables binary c)) :
    Leads last (e.applyDockerUserRules P binary) K fun h => K h ∧ ServicesInstalled e P h := by
  -- the stages between the commands, each with one fact more
  let K₁ : Host → Prop := fun h => K h ∧ Exists .filter .dockerUser h
  let K₂ : Host → Prop := fun h => K₁ h ∧ h.iptables.HasJump .filter .forward .dockerUser
  let K₃ : Host → Prop := fun h => K₂ h ∧ Exists .filter .wgServices h
  let K₄ : Host → Prop := fun h => K₃ h ∧ h.iptables .filter .wgServices = some []
  let K₅ : Host → Prop := fun h => K₄ h ∧ h.iptables.HasJump .filter .dockerUser .wgServices
  let K₆ : Host → Prop := fun h => K₃ h ∧ h.iptables.HasJump .filter .dockerUser .wgServices ∧
    h.iptables.HasJump .filter .forward .wgServices
  have hK₃ {c : IptCommand} (hw : ∀ chain, c.writes ≠ some (.raw, chain))
      (hc : c ≠ .flush .filter .forward) : Preserves K₃ (.iptables binary c) :=
    (((hK c hw).and preserves_exists).and (preserves_jump hc)).and preserves_exists
  have hjumpDockerUser {dest : IptChain} {c : IptCommand} (hc : c ≠ .flush .filter .dockerUser) :
      Preserves (fun h => h.iptables.HasJump .filter .dockerUser dest) (.iptables binary c) :=
    preserves_jump hc
  have h₁ : Leads last (ensureIptablesChain binary .filter .dockerUser) K K₁ :=
    leads_ensureIptablesChain hbin (hK _ (by simp [IptCommand.writes]))
      (hK _ (by simp [IptCommand.writes]))
  have h₂ : Leads last (ensureJump binary .filter .forward .dockerUser) K₁ K₂ :=
    leads_ensureJump (fun h hh => hbin h hh.1) (fun h hh => hforward h hh.1)
      ((hK _ (by simp [IptCommand.writes])).and preserves_exists)
      ((hK _ (by simp [IptCommand.writes])).and preserves_exists)
  have h₃ : Leads last (ensureIptablesChain binary .filter .wgServices) K₂ K₃ :=
    leads_ensureIptablesChain (fun h hh => hbin h hh.1.1)
      (((hK _ (by simp [IptCommand.writes])).and preserves_exists).and (preserves_jump (by simp)))
      (((hK _ (by simp [IptCommand.writes])).and preserves_exists).and (preserves_jump (by simp)))
  have h₄ : Leads last (runHost (.iptables binary (.flush .filter .wgServices))) K₃ K₄ :=
    leads_flush (fun h hh => hbin h hh.1.1.1) (fun h hh => hh.2)
      (hK₃ (by simp [IptCommand.writes]) (by simp))
  have h₅ : Leads last (ensureJump binary .filter .dockerUser .wgServices) K₄ K₅ :=
    leads_ensureJump (fun h hh => hbin h hh.1.1.1.1) (fun h hh => hh.1.1.1.2)
      ((hK₃ (by simp [IptCommand.writes]) (by simp)).and
        (preserves_entries (by simp [IptCommand.writes])))
      ((hK₃ (by simp [IptCommand.writes]) (by simp)).and
        (preserves_entries (by simp [IptCommand.writes])))
  have h₆ : Leads last (ensureJump binary .filter .forward .wgServices) K₅
      fun h => K₅ h ∧ h.iptables.HasJump .filter .forward .wgServices :=
    leads_ensureJump (fun h hh => hbin h hh.1.1.1.1.1) (fun h hh => hforward h hh.1.1.1.1.1)
      (((hK₃ (by simp [IptCommand.writes]) (by simp)).and
        (preserves_entries (by simp [IptCommand.writes]))).and (hjumpDockerUser (by simp)))
      (((hK₃ (by simp [IptCommand.writes]) (by simp)).and
        (preserves_entries (by simp [IptCommand.writes]))).and (hjumpDockerUser (by simp)))
  have h₇ : Leads last (runAll ((e.servicesEntries P).map fun entry =>
      .iptables binary (.append .filter .wgServices entry)))
      (fun h => K₆ h ∧ h.iptables .filter .wgServices = some [])
      fun h => K₆ h ∧ h.iptables .filter .wgServices = some (e.servicesEntries P) :=
    leads_appends (fun h hh => hbin h hh.1.1.1.1)
      (fun _ => (hK₃ (by simp [IptCommand.writes]) (by simp)).and
        ((hjumpDockerUser (by simp)).and (preserves_jump (by simp)))) [] (e.servicesEntries P)
  have h₆' : Leads last (ensureJump binary .filter .forward .wgServices) K₅
      fun h => K₆ h ∧ h.iptables .filter .wgServices = some [] := by
    intro h hh
    refine (h₆ h hh).weaken ?_
    rintro err t ⟨herr, ⟨⟨hK₃, hempty⟩, hj⟩, hj'⟩
    exact ⟨herr, ⟨hK₃, hj, hj'⟩, hempty⟩
  intro h hh
  refine ((h₁.orReturn (h₂.orReturn (h₃.orReturn (h₄.orReturn (h₅.orReturn
    (h₆'.orReturn h₇)))))) h hh).weaken ?_
  rintro err t ⟨herr, ⟨⟨⟨⟨hK, -⟩, hj⟩, -⟩, hj', hj''⟩, hentries⟩
  exact ⟨herr, hK, ⟨hj, hj', hj''⟩, hentries⟩

/-- A host that `Apply` can work on: the built-in chains are there, and so are the tools. -/
structure Usable (e : HostServiceAccessExecutor) (h : Host) : Prop where
  forward : Exists .filter .forward h
  prerouting : Exists .raw .prerouting h
  iptables : ∃ candidate ∈ e.candidates, h.installed candidate = true
  nft : h.installed e.nftBinary = true ∨ e.firewallBackend = .iptables ∧ h.nft = none

theorem smooth_firstListing (hlist : ∀ binary chain,
    Preserves K (.iptables binary (.listRules .filter chain)))
    (tries : List (String × IptChain)) {h : Host} (hK : K h) :
    smooth.Meets last (firstListing tries) h fun found t =>
      (∃ binary, found = some binary ∧ t.installed binary = true ∧ K t) ∨
      (found = none ∧ t = h ∧ ∀ x ∈ tries, ¬(h.installed x.1 = true ∧ Exists .filter x.2 h)) := by
  induction tries with
  | nil => exact .pure (.inr ⟨rfl, rfl, by simp⟩)
  | cons x tries ih =>
    obtain ⟨candidate, chain⟩ := x
    refine (smooth_runHost (R := fun err t =>
      (err = none ∧ t.installed candidate = true ∧ K t) ∨
      (err ≠ none ∧ t = h ∧ ¬(h.installed candidate = true ∧ Exists .filter chain h)))
      (fun h' hexec => .inl ⟨rfl, ?_, hlist _ _ h h' hK hexec⟩)
      fun hnone err => .inr ⟨by simp, rfl, ?_⟩).bind fun err t ht => ?_
    · simp only [HostOp.exec] at hexec
      split at hexec
      next hinst =>
        obtain ⟨T, -, rfl⟩ := Option.map_eq_some_iff.mp hexec
        exact hinst
      next => cases hexec
    · rintro ⟨hinst, hchain⟩
      have hchain : (h.iptables .filter chain).isSome := hchain
      simp [HostOp.exec, IptCommand.exec, hinst, hchain] at hnone
    · rcases ht with ⟨rfl, hinst, hKt⟩ | ⟨herr, rfl, hno⟩
      · exact .pure (.inl ⟨candidate, rfl, hinst, hKt⟩)
      · obtain ⟨err, rfl⟩ := Option.ne_none_iff_exists'.mp herr
        refine ih.weaken ?_
        rintro found u (hu | ⟨hfound, hu, hrest⟩)
        · exact .inl hu
        · refine .inr ⟨hfound, hu, ?_⟩
          intro y hy
          rcases List.mem_cons.mp hy with rfl | hy
          · exact hno
          · exact hrest y hy

theorem smooth_selectIptablesBinary (hlist : ∀ binary chain,
    Preserves K (.iptables binary (.listRules .filter chain))) {h : Host} (hK : K h)
    (hforward : Exists .filter .forward h)
    (hiptables : ∃ candidate ∈ e.candidates, h.installed candidate = true) :
    smooth.Meets last e.selectIptablesBinary h fun found t =>
      ∃ binary, found = some binary ∧ t.installed binary = true ∧ K t := by
  refine (smooth_firstListing hlist _ hK).bind fun found t ht => ?_
  rcases ht with ⟨binary, rfl, hinst, hKt⟩ | ⟨rfl, rfl, -⟩
  · exact .pure ⟨binary, rfl, hinst, hKt⟩
  · refine (smooth_firstListing hlist _ hK).weaken ?_
    rintro found u (hu | ⟨-, -, hno⟩)
    · exact hu
    · obtain ⟨candidate, hmem, hinst⟩ := hiptables
      exact absurd ⟨hinst, hforward⟩ (hno (candidate, .forward) (List.mem_map_of_mem hmem))

/-- What the commands of `Apply` on iptables do not change, with the binary that runs them. -/
def Base (e : HostServiceAccessExecutor) (t : Option NftTable) (binary : String)
    (h : Host) : Prop :=
  h.installed binary = true ∧ Exists .filter .forward h ∧ Exists .raw .prerouting h ∧ h.nft = t ∧
    (∃ candidate ∈ e.candidates, h.installed candidate = true) ∧
    (h.installed e.nftBinary = true ∨ e.firewallBackend = .iptables)

theorem preserves_base {t : Option NftTable} (c : IptCommand) :
    Preserves (Base e t binary) (.iptables binary c) := by
  rintro h h' ⟨hbin, hforward, hprerouting, hnft, htools⟩ hexec
  refine ⟨preserves_installed h h' hbin hexec, preserves_exists h h' hforward hexec,
    preserves_exists h h' hprerouting hexec, preserves_nft h h' hnft hexec, ?_⟩
  obtain ⟨T, -, rfl⟩ := exec_iptables hexec
  exact htools

/-- The commands on iptables, after the table has been taken care of. -/
theorem leads_iptables {t : Option NftTable} :
    Leads last (orReturn (e.applyDockerRawRules P binary) (e.applyDockerUserRules P binary))
      (Base e t binary)
      fun h => (Base e t binary h ∧ RawInstalled e P h) ∧ ServicesInstalled e P h := by
  refine Leads.orReturn (leads_applyDockerRawRules (fun h hh => hh.1) (fun h hh => hh.2.2.1)
    preserves_base) ?_
  refine leads_applyDockerUserRules (fun h hh => hh.1.1) (fun h hh => hh.1.2.1) fun c hw => ?_
  refine (preserves_base c).and (Preserves.and (preserves_jump ?_) (preserves_entries (hw _)))
  rintro rfl
  exact hw .prerouting rfl

/-- Whatever was there before, the rules of `P` are on the host after `Apply`. -/
theorem leads_applyRules : Leads last (e.applyRules P binary)
    (fun h => Usable e h ∧ h.rulesFile = some (e.rules P) ∧ h.installed binary = true)
    fun h => Usable e h ∧ Installed e P h := by
  rintro h ⟨husable, hfile, hbin⟩
  have hdone {t : Option NftTable} (hloaded : e.firewallBackend = .nftables → t = some (e.rules P))
      (hempty : e.firewallBackend = .iptables → t = none) {h : Host}
      (hh : (Base e t binary h ∧ RawInstalled e P h) ∧ ServicesInstalled e P h) :
      Usable e h ∧ Installed e P h := by
    obtain ⟨⟨⟨_, hf, hp, hnft, hi, hn⟩, hraw⟩, hservices⟩ := hh
    refine ⟨⟨hf, hp, hi, ?_⟩, ⟨?_, hraw.2, hservices.2, hraw.1, hservices.1.2.1,
      hservices.1.2.2, hservices.1.1⟩⟩
    · rcases hn with hn | hn
      · exact .inl hn
      · exact .inr ⟨hn, hnft.trans (hempty hn)⟩
    · cases hb : e.firewallBackend with
      | nftables => exact hnft.trans (hloaded hb)
      | iptables => exact hnft.trans (hempty hb)
  have hdelete : smooth.Meets last (runHost (.nftDelete e.nftBinary)) h fun _ t =>
      Base e none binary t ∧ t.rulesFile = some (e.rules P) := by
    have htools : h.installed e.nftBinary = true ∨ e.firewallBackend = .iptables :=
      husable.nft.imp id And.left
    refine smooth_runHost (fun h' hexec => ?_) fun hnone err => ?_
    · simp only [HostOp.exec] at hexec
      split at hexec
      · obtain rfl := Option.some.inj hexec
        exact ⟨⟨hbin, husable.forward, husable.prerouting, rfl, husable.iptables, htools⟩, hfile⟩
      · cases hexec
    · refine ⟨⟨hbin, husable.forward, husable.prerouting, ?_, husable.iptables, htools⟩, hfile⟩
      rcases husable.nft with hn | hn
      · simp only [HostOp.exec, hn, Bool.true_and] at hnone
        split at hnone
        next => cases hnone
        next hno => simpa using hno
      · exact hn.2
  refine hdelete.bind fun _ t ht => ?_
  cases hb : e.firewallBackend with
  | iptables =>
    have hnot : e.firewallBackend ≠ .nftables := by simp [hb]
    exact (leads_iptables t ht.1).weaken fun err u hu =>
      ⟨hu.1, hdone (absurd · hnot) (fun _ => rfl) hu.2⟩
  | nftables =>
    have hload : Leads last (runHost (.nftLoad e.nftBinary))
        (fun h => Base e none binary h ∧ h.rulesFile = some (e.rules P))
        (Base e (some (e.rules P)) binary) := by
      refine Leads.runHost fun h hh => ?_
      obtain ⟨⟨hbin, hf, hp, hnft, hi, hn⟩, hfile⟩ := hh
      have hinst : h.installed e.nftBinary = true := by simpa [hb] using hn
      exact ⟨{ h with nft := some (e.rules P) },
        by simp [HostOp.exec, hinst, hfile, hnft, NftTable.load],
        hbin, hf, hp, rfl, hi, .inl hinst⟩
    have hnot : e.firewallBackend ≠ .iptables := by simp [hb]
    exact ((hload.orReturn leads_iptables) t ht).weaken fun err u hu =>
      ⟨hu.1, hdone (fun _ => rfl) (absurd · hnot) hu.2⟩

/-- An `Apply` that is not disturbed installs the rules. -/
theorem installs_apply {now : Stamp} {h : Host} (hh : Usable e h) :
    smooth.Meets last (e.apply P now) h fun _ t => Usable e t ∧ Installed e P t := by
  have hwrites : Leads last (runAll [.writeRules (e.rules P),
      .writeStatus (buildControllerAccessStatus P now)]) (Usable e)
        (Written (Usable e) (e.rules P)) := by
    have hfile : Leads last (runHost (.writeRules (e.rules P))) (Usable e)
        (Written (Usable e) (e.rules P)) :=
      Leads.runHost fun h hh =>
        ⟨_, rfl, ⟨hh.forward, hh.prerouting, hh.iptables, hh.nft⟩, rfl⟩
    have hstatus : Leads last (runHost (.writeStatus (buildControllerAccessStatus P now)))
        (Written (Usable e) (e.rules P)) (Written (Usable e) (e.rules P)) :=
      Leads.runHost fun h hh =>
        ⟨_, rfl, ⟨hh.1.forward, hh.1.prerouting, hh.1.iptables, hh.1.nft⟩, hh.2⟩
    exact hfile.orReturn (hstatus.orReturn fun h hh => .pure ⟨rfl, hh⟩)
  have hlist (binary : String) (chain : IptChain) :
      Preserves (Written (Usable e) (e.rules P))
        (.iptables binary (.listRules .filter chain)) := by
    rintro h h' ⟨hh, hfile⟩ hexec
    have hf := preserves_exists h h' hh.forward hexec
    have hp := preserves_exists h h' hh.prerouting hexec
    obtain ⟨T, -, rfl⟩ := exec_iptables hexec
    exact ⟨⟨hf, hp, hh.iptables, hh.nft⟩, hfile⟩
  have hselect (t : Host) (ht : Written (Usable e) (e.rules P) t) :
      smooth.Meets last e.selectIptablesBinary t fun found u =>
        ∃ binary, found = some binary ∧ u.installed binary = true ∧
          Written (Usable e) (e.rules P) u :=
    @smooth_selectIptablesBinary e last _ hlist t ht ht.1.forward ht.1.iptables
  refine (hwrites h hh).bind fun err t ht => ?_
  obtain ⟨rfl, hKQ⟩ := ht
  generalize e.selectIptablesBinary = select at hselect
  refine (hselect t hKQ).bind fun found u hu => ?_
  obtain ⟨binary, rfl, hbin, hu⟩ := hu
  refine (leads_applyRules u ⟨hu.1, hu.2, hbin⟩).bind fun err v hv => ?_
  obtain ⟨rfl, hv⟩ := hv
  have hstatus : Leads last (runHost (.writeStatus (buildControllerAccessStatus P now)))
      (fun h => Usable e h ∧ Installed e P h) fun h => Usable e h ∧ Installed e P h :=
    Leads.runHost fun h hh =>
      ⟨_, rfl, ⟨hh.1.forward, hh.1.prerouting, hh.1.iptables, hh.1.nft⟩,
        ⟨hh.2.nft, hh.2.raw, hh.2.services, hh.2.preroutingJump, hh.2.dockerUserJump,
          hh.2.forwardJump, hh.2.forwardJump'⟩⟩
  refine (hstatus v hv).bind fun err w hw => ?_
  obtain ⟨rfl, hw⟩ := hw
  exact .pure hw

end Apply

/-! ## Reconciles in parallel -/

/-- The store, of which only the policies count here, and the host. `running` reconciles have
started and not finished, `applying` of them have read their policies. -/
structure AccessState where
  host : Host
  policies : List ControllerServiceAccessPolicy
  starts : Nat := 0
  running : Nat := 0
  applying : Nat := 0
  /-- the policies that were read since the last start -/
  reads : List (List ControllerServiceAccessPolicy) := []

/-- The operations on the host, where every call may fail. -/
def accessSem : Semantics AccessState Outcome AccessOp AccessOp.Res
  | _, .start, s =>
    some ({ s with starts := s.starts + 1, running := s.running + 1, reads := [] }, ())
  | o, .get _ _, s => some (s, if o.fails then some o.message else none)
  | o, .list, s =>
    if o.fails then some (s, .error o.message)
    else some ({ s with applying := s.applying + 1, reads := s.reads ++ [s.policies] },
      .ok s.policies)
  | o, .host op, s => some ({ s with host := (hostStep o op s.host).1 }, (hostStep o op s.host).2)
  | _, .finish listed, s => some ({ s with
      running := s.running - 1
      applying := if listed then s.applying - 1 else s.applying }, ())
  | _, .publish policies, s => some ({ s with policies }, ())

namespace HostServiceAccessExecutor
variable (e : HostServiceAccessExecutor)

/-- `policies, err := ListControllerServiceAccessPolicies(ctx)`, and `Apply` if there are any. -/
def listAndApply (now : Stamp) : AccessProc Unit := do
  match ← Proc.perform AccessOp.list with
  | .error _ => Proc.perform (AccessOp.finish false)
  | .ok policies =>
    let _ ← e.apply policies now
    Proc.perform (AccessOp.finish true)

/-- The body of `handleReconcileAccessPolicies`, and the access phase of `ReconcileWithOptions`.
The WireGuard gateway, which is told afterwards, does not touch these rules. -/
def reconcileAccess (now : Stamp) : AccessProc Unit := do
  let _ ← Proc.perform AccessOp.start
  e.listAndApply now

/-- `handleReconcileServiceAccess`: the policy of the service has to exist. -/
def reconcileServiceAccess (teamID challengeID : Int) (now : Stamp) : AccessProc Unit := do
  match ← Proc.perform (AccessOp.get teamID challengeID) with
  | some _ => pure ()
  | none => e.reconcileAccess now

end HostServiceAccessExecutor

/-- The requests that write access rules, and the gateway's new policies. -/
inductive AccessRequest where
  | reconcileAccessPolicies (now : Stamp)
  | reconcileDeployments (now : Stamp)
  | reconcileServiceAccess (teamID challengeID : Int) (now : Stamp)
  | publish (policies : List ControllerServiceAccessPolicy)

/-- The code that serves a request. -/
def AccessRequest.handler (e : HostServiceAccessExecutor) :
    AccessRequest → Thread AccessOp AccessOp.Res
  | reconcileAccessPolicies now | reconcileDeployments now => (e.reconcileAccess now).toThread
  | reconcileServiceAccess teamID challengeID now =>
    (e.reconcileServiceAccess teamID challengeID now).toThread
  | publish policies => .call (.publish policies) fun _ => .done

/-- Reconciles take turns: one reads its policies while no other is applying what it has read. And
the host does what it is told. -/
def takesTurns (o : Outcome) : AccessOp → AccessState → Prop
  | .list, s => o.fails = false ∧ s.applying = 0
  | .host _, _ => o.fails = false
  | _, _ => True

instance (o : Outcome) : (op : AccessOp) → (s : AccessState) → Decidable (takesTurns o op s)
  | .list, s => inferInstanceAs (Decidable (o.fails = false ∧ s.applying = 0))
  | .host _, _ => inferInstanceAs (Decidable (o.fails = false))
  | .start, _ | .get _ _, _ | .finish _, _ | .publish _, _ => isTrue trivial

/-- The reconcile has installed its policies and only has to finish. -/
def Finishing (e : HostServiceAccessExecutor) (P : List ControllerServiceAccessPolicy)
    (t : Thread AccessOp AccessOp.Res) (h : Host) : Prop :=
  t = .call (.finish true) (fun _ => .done) ∧ Usable e h ∧ Installed e P h

/-- Threads that are not applying anything. -/
def Idle (e : HostServiceAccessExecutor) : Thread AccessOp AccessOp.Res → Prop
  | .done => True
  | .call (.publish _) k => k () = .done
  | .call (.get _ _) k => ∀ err, k err = .done ∨ ∃ now, k err = (e.reconcileAccess now).toThread
  | .call .start k => ∃ now, k () = (e.listAndApply now).toThread
  | .call .list k => ∃ now, .call .list k = (e.listAndApply now).toThread
  | _ => False

/-- The thread has started a reconcile and not finished it. -/
def reconciling : Thread AccessOp AccessOp.Res → Nat
  | .call .list _ | .call (.host _) _ | .call (.finish _) _ => 1
  | _ => 0

theorem idle_handler (e : HostServiceAccessExecutor) (request : AccessRequest) :
    Idle e (request.handler e) := by
  cases request with
  | reconcileAccessPolicies now => exact ⟨now, rfl⟩
  | reconcileDeployments now => exact ⟨now, rfl⟩
  | reconcileServiceAccess teamID challengeID now =>
    intro err
    cases err with
    | none => exact .inr ⟨now, rfl⟩
    | some _ => exact .inl rfl
  | publish policies => exact rfl

-- From here on the threads are taken apart, operation by operation.
attribute [local semireducible] Solo.Along

/-- A thread that runs to the end of `Apply` is a reconcile. -/
theorem reconciling_of_along {e : HostServiceAccessExecutor}
    {P : List ControllerServiceAccessPolicy}
    {t : Thread AccessOp AccessOp.Res} {h : Host} (ht : smooth.Along (Finishing e P) t h) :
    reconciling t = 1 := by
  cases t with
  | done => cases ht.1
  | fork => cases ht.1
  | call op k =>
    rcases ht with ⟨ht, -⟩ | ⟨⟨⟨hostOp, rfl⟩, -⟩, -⟩
    · rw [ht]
      rfl
    · rfl

/-- The thread is about to read the policies `P`. -/
theorem along_list {e : HostServiceAccessExecutor} {now : Stamp} {h : Host} {k}
    (hk : .call .list k = (e.listAndApply now).toThread) (hh : Usable e h)
    (P : List ControllerServiceAccessPolicy) :
    smooth.Along (Finishing e P) (k (.ok P)) h := by
  obtain rfl : k = _ := eq_of_heq (Thread.call.inj hk).2
  refine installs_apply hh _ fun _ t ht => .of_last ⟨rfl, ht⟩

/-- The section from the reading of the policies to the end of `Apply`. -/
def applySection (e : HostServiceAccessExecutor) :
    CriticalSection accessSem (AccessRequest.handler e) takesTurns where
  outside := Idle e
  inside t s := s.applying = 1 ∧ ∃ P, smooth.Along (Finishing e P) t s.host ∧
    (s.running ≤ 1 → P ∈ s.reads)
  free s := s.applying = 0 ∧ Usable e s.host ∧
    (0 < s.starts → s.running = 0 → ∃ P ∈ s.reads, Installed e P s.host)
  weight := reconciling
  tally := AccessState.running
  outside_handler := idle_handler e
  weight_handler request := by cases request <;> rfl
  outside_fork _ _ _ h := h
  inside_fork _ _ _ _ h := nomatch h.2.choose_spec.1.1
  step_free {op k s o s' r} hout hfree hweight hal hsem := by
    obtain ⟨happlying, husable, hinstalled⟩ := hfree
    cases op with
    | start =>
      obtain ⟨now, hk⟩ := hout
      obtain ⟨rfl, rfl⟩ := Prod.mk.inj (Option.some.inj hsem)
      refine ⟨by rw [hk]; rfl, .inl ⟨by rw [hk]; exact ⟨now, rfl⟩, happlying, husable, ?_⟩⟩
      intro _ hrun
      cases hrun
    | get =>
      obtain ⟨rfl, rfl⟩ := Prod.mk.inj (Option.some.inj hsem)
      refine ⟨?_, .inl ⟨?_, happlying, husable, hinstalled⟩⟩
      all_goals rcases hout (if o.fails then some o.message else none) with hk | ⟨now, hk⟩
      all_goals rw [hk]
      · rfl
      · rfl
      · trivial
      · exact ⟨now, rfl⟩
    | list =>
      obtain ⟨now, hk⟩ := hout
      have hsem : some _ = some (s', r) := (if_neg (by simp [hal.1])).symm.trans hsem
      obtain ⟨rfl, rfl⟩ := Prod.mk.inj (Option.some.inj hsem)
      have halong := along_list hk husable s.policies
      refine ⟨?_, .inr ⟨by simp [hal.2], s.policies, halong, fun _ => by simp⟩⟩
      rw [reconciling_of_along halong]
      rfl
    | host | finish => exact hout.elim
    | publish policies =>
      obtain ⟨rfl, rfl⟩ := Prod.mk.inj (Option.some.inj hsem)
      rw [show k () = .done from hout]
      exact ⟨rfl, .inl ⟨trivial, happlying, husable, hinstalled⟩⟩
  step_busy {op k s o s' r t} hout hin hweight hal hsem := by
    obtain ⟨happlying, P, halong, hread⟩ := hin
    rw [reconciling_of_along halong] at hweight
    cases op with
    | start =>
      obtain ⟨now, hk⟩ := hout
      obtain ⟨rfl, rfl⟩ := Prod.mk.inj (Option.some.inj hsem)
      refine ⟨by rw [hk]; rfl, by rw [hk]; exact ⟨now, rfl⟩, happlying, P, halong, fun hrun => ?_⟩
      have : s.running + 1 ≤ 1 := hrun
      omega
    | get =>
      obtain ⟨rfl, rfl⟩ := Prod.mk.inj (Option.some.inj hsem)
      refine ⟨?_, ?_, happlying, P, halong, hread⟩
      all_goals rcases hout (if o.fails then some o.message else none) with hk | ⟨now, hk⟩
      all_goals rw [hk]
      · rfl
      · rfl
      · trivial
      · exact ⟨now, rfl⟩
    | list =>
      have := hal.2
      omega
    | host | finish => exact hout.elim
    | publish policies =>
      obtain ⟨rfl, rfl⟩ := Prod.mk.inj (Option.some.inj hsem)
      rw [show k () = .done from hout]
      exact ⟨rfl, trivial, happlying, P, halong, hread⟩
  step_inside {op k s o s' r} hin hweight hal hsem := by
    obtain ⟨happlying, P, halong, hread⟩ := hin
    rcases halong with ⟨hlast, husable, hinstalled⟩ | ⟨⟨⟨hostOp, rfl⟩, -⟩, halong⟩
    · obtain ⟨rfl, hk⟩ := Thread.call.inj hlast
      obtain rfl := eq_of_heq hk
      obtain ⟨rfl, rfl⟩ := Prod.mk.inj (Option.some.inj hsem)
      have hrun : 1 ≤ s.running := hweight
      refine ⟨Nat.sub_add_cancel hrun, .inr ⟨trivial, by simp [happlying], husable, ?_⟩⟩
      intro _ hzero
      have : s.running - 1 = 0 := hzero
      exact ⟨P, hread (by omega), hinstalled⟩
    · obtain ⟨rfl, rfl⟩ := Prod.mk.inj (Option.some.inj hsem)
      have halong := halong o (hostStep o hostOp s.host).1 (hostStep o hostOp s.host).2 hal rfl
      refine ⟨?_, .inl ⟨happlying, P, halong, hread⟩⟩
      rw [reconciling_of_along halong]
      rfl

/-- Reconciles that take turns: once all are done, the host has the rules of one list of policies,
which was read after the last of them had started. -/
theorem reconciles_install {e : HostServiceAccessExecutor} {s : AccessState} (hs : Usable e s.host)
    (hidle : s.starts = 0 ∧ s.running = 0 ∧ s.applying = 0)
    {ls : List (Label AccessRequest Outcome)}
    (hls : (Machine.boot s).RunAllowed accessSem (AccessRequest.handler e) takesTurns ls) :
    let m := (Machine.boot s).run accessSem (AccessRequest.handler e) ls
    0 < m.shared.starts → (∀ t ∈ m.threads, t = .done) →
      ∃ P ∈ m.shared.reads, Installed e P m.shared.host := by
  intro m hstarts hdone
  have hboot : (applySection e).Good (.boot s) :=
    .boot (C := applySection e) ⟨hidle.2.2, hs, fun h => by omega⟩ hidle.2.1
  have hgood : (applySection e).Good m := hboot.run hls
  rcases hgood.place with ⟨⟨-, -, hinstalled⟩, -⟩ | ⟨i, t, hi, ⟨-, P, halong, -⟩, -⟩
  · refine hinstalled hstarts (hgood.tally.trans (List.sum_eq_zero fun n hn => ?_))
    obtain ⟨t, ht, rfl⟩ := List.mem_map.mp hn
    rw [hdone t ht]
    rfl
  · have := reconciling_of_along halong
    rw [hdone t (List.mem_of_getElem? hi)] at this
    cases this

/-- The policies of the store are `[banking]`, and the rules of an empty list are installed. -/
def beforeReconciles : AccessState where
  host := installedHost defaults []
  policies := [banking]

theorem usable_beforeReconciles : Usable defaults beforeReconciles.host where
  forward := rfl
  prerouting := rfl
  iptables := ⟨"iptables", by decide, rfl⟩
  nft := .inl rfl

/-- Both reconciles start at once, and the first is done before the second reads. -/
theorem reconciles_install_two :
    let ls : List (Label AccessRequest Outcome) :=
      [.arrive (.reconcileAccessPolicies none), .arrive (.reconcileDeployments none),
        .step 0 .ok, .step 1 .ok] ++ List.replicate 40 (.step 0 .ok) ++
      List.replicate 40 (.step 1 .ok)
    let m := (Machine.boot beforeReconciles).run accessSem (AccessRequest.handler defaults) ls
    0 < m.shared.starts ∧ ∃ P ∈ m.shared.reads, Installed defaults P m.shared.host := by
  intro ls
  have hturns : (Machine.boot beforeReconciles).RunAllowed accessSem
    (AccessRequest.handler defaults) takesTurns ls := by decide
  dsimp only
  refine ⟨?_, reconciles_install usable_beforeReconciles ⟨rfl, rfl, rfl⟩ hturns ?_ ?_⟩
  all_goals decide

/-- The first reconcile has read `[banking]` when the policy is withdrawn. The second one starts,
reads the empty list and installs it, and then the first one installs what it has read. -/
theorem reconciles_install_outdated :
    let ls : List (Label AccessRequest Outcome) :=
      [.arrive (.reconcileAccessPolicies none), .arrive (.publish []),
        .arrive (.reconcileAccessPolicies none), .step 0 .ok, .step 0 .ok, .step 1 .ok] ++
      List.replicate 40 (.step 2 .ok) ++ List.replicate 40 (.step 0 .ok)
    let m := (Machine.boot beforeReconciles).run accessSem (AccessRequest.handler defaults) ls
    0 < m.shared.starts ∧ (∀ t ∈ m.threads, t = .done) ∧
      ¬∃ P ∈ m.shared.reads, Installed defaults P m.shared.host := by
  intro ls m
  refine ⟨by decide +kernel, by decide +kernel, ?_⟩
  have hreads : m.shared.reads = [[]] := by decide +kernel
  have hnft : m.shared.host.nft = some (defaults.rules [banking]) := by decide +kernel
  rintro ⟨P, hP, hinstalled⟩
  obtain rfl : P = [] := by simpa [hreads] using hP
  have : some (defaults.rules [banking]) = some (defaults.rules []) :=
    hnft.symm.trans hinstalled.nft
  exact absurd this (by decide)

end ADPlatform.Controller
