import ADPlatform.Controller.AccessVerdicts
import ADPlatform.GameCore.Match
import ADPlatform.Lib.Exclusive

/-! # How the access rules get onto the host

`hostServiceAccessExecutor.Apply` writes the rules file and then changes the firewall one command
at a time. The host is the rules file, the table of the controller in nftables and the chains of
iptables; a command fails by itself where the state of the host makes it fail, and the environment
may let any operation fail without an effect. -/

namespace ADPlatform.Controller
open APIGateway (ControllerServiceAccessPolicy)
open GameCore (Stamp)
open PacketFilter Concurrent
open Text (trimSpace)

/-! ## The host -/

/-- The tables of iptables that the executor writes to. -/
inductive IptTable where
  | filter | raw
  deriving DecidableEq, Repr

/-- The chains `FORWARD`, `PREROUTING`, `DOCKER`, `DOCKER-USER`, `ADPLATFORM-WG-SERVICES` and
`ADPLATFORM-WG-RAW`. -/
inductive IptChain where
  | forward | prerouting | docker | dockerUser | wgServices | wgRaw
  deriving DecidableEq, Repr

/-- An entry of a chain. -/
inductive IptEntry where
  | rule (r : IptRule)
  | jump (chain : IptChain)
  deriving DecidableEq, Repr

/-- The entries of every chain that exists. -/
abbrev IptTables := IptTable → IptChain → Option (List IptEntry)

/-- The chain's entries replaced. -/
def IptTables.set (T : IptTables) (table : IptTable) (chain : IptChain) (entries : List IptEntry) :
    IptTables :=
  fun t c => if t = table ∧ c = chain then some entries else T t c

/-- The commands `-N`, `-S`, `-C`, `-I chain 1`, `-F` and `-A`. -/
inductive IptCommand where
  | newChain (table : IptTable) (chain : IptChain)
  | listRules (table : IptTable) (chain : IptChain)
  | check (table : IptTable) (chain : IptChain) (entry : IptEntry)
  | insertFirst (table : IptTable) (chain : IptChain) (entry : IptEntry)
  | flush (table : IptTable) (chain : IptChain)
  | append (table : IptTable) (chain : IptChain) (entry : IptEntry)
  deriving DecidableEq, Repr

/-- What a command makes of the tables, `none` where it fails. -/
def IptCommand.exec (T : IptTables) : IptCommand → Option IptTables
  | newChain table chain => if (T table chain).isSome then none else some (T.set table chain [])
  | listRules table chain => if (T table chain).isSome then some T else none
  | check table chain entry =>
    match T table chain with
    | some entries => if entry ∈ entries then some T else none
    | none => none
  | insertFirst table chain entry =>
    (T table chain).map fun entries => T.set table chain (entry :: entries)
  | flush table chain => (T table chain).map fun _ => T.set table chain []
  | append table chain entry =>
    (T table chain).map fun entries => T.set table chain (entries ++ [entry])

/-- The status that `Apply` returns and writes to its status file, without the settings it
repeats and the digest of the rules. -/
structure ControllerAccessStatus where
  state : String
  policiesTotal : Nat
  sshOpenServices : Nat
  sshLockedServices : Nat
  egressDisabledServices : Nat
  allowedPeersTotal : Nat
  appliedAt : Stamp
  lastError : String := ""
  deriving DecidableEq, Repr

/-- `buildControllerAccessStatus`. -/
def buildControllerAccessStatus (policies : List ControllerServiceAccessPolicy) (now : Stamp) :
    ControllerAccessStatus :=
  let sshOpen := policies.countP (·.sshUnlocked)
  { state := "applied"
    policiesTotal := policies.length
    sshOpenServices := sshOpen
    sshLockedServices := policies.length - sshOpen
    egressDisabledServices := policies.countP (!·.egressEnabled)
    allowedPeersTotal := (policies.flatMap (·.allowedPeerAddresses)).eraseDups.length
    appliedAt := now }

/-- An operation of `Apply` on the host. A command carries the name of its binary; all binaries
of iptables work on the same tables. -/
inductive HostOp where
  | writeRules (table : NftTable)
  | writeStatus (status : ControllerAccessStatus)
  | nftDelete (binary : String)
  | nftLoad (binary : String)
  | iptables (binary : String) (command : IptCommand)
  deriving DecidableEq, Repr

/-- The host, with the operations that have had their effect. `nft` is the table of the
controller. -/
structure Host where
  rulesFile : Option NftTable := none
  statusFile : Option ControllerAccessStatus := none
  nft : Option NftTable := none
  iptables : IptTables
  installed : String → Bool
  log : List HostOp := []

/-- Loading a rules file adds its rules to the chains of a table that exists. -/
def NftTable.load (file : NftTable) : Option NftTable → NftTable
  | none => file
  | some t => { t with forward := t.forward ++ file.forward, output := t.output ++ file.output }

/-- What an operation makes of the host, `none` where it fails. -/
def HostOp.exec (h : Host) : HostOp → Option Host
  | writeRules table => some { h with rulesFile := some table }
  | writeStatus status => some { h with statusFile := some status }
  | nftDelete binary =>
    if h.installed binary && h.nft.isSome then some { h with nft := none } else none
  | nftLoad binary =>
    if h.installed binary then
      h.rulesFile.map fun file => { h with nft := some (file.load h.nft) }
    else none
  | iptables binary command =>
    if h.installed binary then
      (command.exec h.iptables).map fun tables => { h with iptables := tables }
    else none

/-! ## The program -/

/-- `get` and `list` ask the store for the policy of a service and for all policies, `start` and
`finish` mark the ends of a reconcile, and `publish` is a change of the store. -/
inductive AccessOp where
  | start
  | get (teamID challengeID : Int)
  | list
  | host (op : HostOp)
  | finish (listed : Bool)
  | publish (policies : List ControllerServiceAccessPolicy)

/-- What each operation answers. -/
def AccessOp.Res : AccessOp → Type
  | start | finish _ | publish _ => Unit
  | list => Except String (List ControllerServiceAccessPolicy)
  | get _ _ | host _ => Option String

/-- The executor's code over these operations. -/
abbrev AccessProc := Proc AccessOp AccessOp.Res

/-- `runner.Run` and the writes of files: the text of an error, if there is one. -/
def runHost (op : HostOp) : AccessProc (Option String) := Proc.perform (AccessOp.host op)

/-- `if err := p; err != nil { return err }; return q`. -/
def orReturn (p q : AccessProc (Option String)) : AccessProc (Option String) := do
  match ← p with
  | some err => pure (some err)
  | none => q

/-- The operations one after the other, up to the first error. -/
def runAll : List HostOp → AccessProc (Option String)
  | [] => pure none
  | op :: ops => orReturn (runHost op) (runAll ops)

/-- The first candidate that lists the chain it is tried with. -/
def firstListing : List (String × IptChain) → AccessProc (Option String)
  | [] => pure none
  | (candidate, chain) :: rest => do
    match ← runHost (.iptables candidate (.listRules .filter chain)) with
    | none => pure (some candidate)
    | some _ => firstListing rest

namespace HostServiceAccessExecutor
variable (e : HostServiceAccessExecutor)

/-- The names that `selectIptablesBinary` tries. -/
def candidates : List String :=
  ([e.iptablesBinary, "iptables", "iptables-legacy", "iptables-nft"].map trimSpace).filter (· ≠ "")

/-- `selectIptablesBinary`: the first candidate that can list Docker's chain, or else the forward
chain. -/
def selectIptablesBinary : AccessProc (Option String) := do
  match ← firstListing (e.candidates.eraseDups.flatMap fun candidate =>
      [(candidate, .docker), (candidate, .dockerUser)]) with
  | some binary => pure (some binary)
  | none => firstListing (e.candidates.map fun candidate => (candidate, .forward))

end HostServiceAccessExecutor

/-- `ensureIptablesChain`: a chain that cannot be made may be there already. -/
def ensureIptablesChain (binary : String) (table : IptTable) (chain : IptChain) :
    AccessProc (Option String) := do
  match ← runHost (.iptables binary (.newChain table chain)) with
  | none => pure none
  | some _ => runHost (.iptables binary (.listRules table chain))

/-- A jump that is inserted where it is missing. -/
def ensureJump (binary : String) (table : IptTable) (chain target : IptChain) :
    AccessProc (Option String) := do
  match ← runHost (.iptables binary (.check table chain (.jump target))) with
  | none => pure none
  | some _ => runHost (.iptables binary (.insertFirst table chain (.jump target)))

namespace HostServiceAccessExecutor
variable (e : HostServiceAccessExecutor) (policies : List ControllerServiceAccessPolicy)

/-- The entries of the chain `ADPLATFORM-WG-RAW`. -/
def rawEntries : List IptEntry := (policies.flatMap (dockerRawRules e.interfaceName)).map .rule

/-- The entries of the chain `ADPLATFORM-WG-SERVICES`. -/
def servicesEntries : List IptEntry :=
  (dockerUserRules e.interfaceName e.internetInterface policies).map .rule

/-- `applyDockerRawRules`. -/
def applyDockerRawRules (binary : String) : AccessProc (Option String) :=
  orReturn (ensureIptablesChain binary .raw .wgRaw) <|
  orReturn (ensureJump binary .raw .prerouting .wgRaw) <|
  orReturn (runHost (.iptables binary (.flush .raw .wgRaw))) <|
  runAll ((e.rawEntries policies).map fun entry => .iptables binary (.append .raw .wgRaw entry))

/-- `applyDockerUserRules`. -/
def applyDockerUserRules (binary : String) : AccessProc (Option String) :=
  orReturn (ensureIptablesChain binary .filter .dockerUser) <|
  orReturn (ensureJump binary .filter .forward .dockerUser) <|
  orReturn (ensureIptablesChain binary .filter .wgServices) <|
  orReturn (runHost (.iptables binary (.flush .filter .wgServices))) <|
  orReturn (ensureJump binary .filter .dockerUser .wgServices) <|
  orReturn (ensureJump binary .filter .forward .wgServices) <|
  runAll ((e.servicesEntries policies).map fun entry =>
    .iptables binary (.append .filter .wgServices entry))

/-- The commands of `Apply`, once a binary has been found. An error of the first one, which
deletes the table, is ignored. -/
def applyRules (binary : String) : AccessProc (Option String) := do
  let _ ← runHost (.nftDelete e.nftBinary)
  match e.firewallBackend with
  | .nftables =>
    orReturn (runHost (.nftLoad e.nftBinary)) <|
    orReturn (e.applyDockerRawRules policies binary) <|
    e.applyDockerUserRules policies binary
  | .iptables =>
    orReturn (e.applyDockerRawRules policies binary) <|
    e.applyDockerUserRules policies binary

/-- The error is recorded in the status, whose write may fail in turn. -/
def returnError (status : ControllerAccessStatus) (err : String) :
    AccessProc (ControllerAccessStatus × Option String) := do
  let status := { status with state := "error", lastError := err }
  let _ ← runHost (.writeStatus status)
  pure (status, some err)

/-- `hostServiceAccessExecutor.Apply`. -/
def apply (now : Stamp) : AccessProc (ControllerAccessStatus × Option String) := do
  let status := buildControllerAccessStatus policies now
  match ← runAll [.writeRules (e.rules policies), .writeStatus status] with
  | some err => returnError status err
  | none =>
    match ← e.selectIptablesBinary with
    | none =>
      returnError status "no usable iptables backend found for controller access enforcement"
    | some binary =>
      match ← e.applyRules policies binary with
      | some err => returnError status err
      | none =>
        match ← runHost (.writeStatus status) with
        | some err => pure ({ status with state := "error", lastError := err }, some err)
        | none => pure (status, none)

end HostServiceAccessExecutor

/-! ## What the operations do -/

/-- What the environment does to an operation: it may fail, and an error has a text. -/
structure Outcome where
  fails : Bool
  message : String
  deriving DecidableEq, Repr

/-- The environment lets the operation be. -/
def Outcome.ok : Outcome := ⟨false, ""⟩

/-- A call that runs into its deadline. -/
def Outcome.failed : Outcome := ⟨true, "context deadline exceeded"⟩

/-- The operation has had its effect on the host. -/
def Host.effect (h : Host) (op : HostOp) (h' : Host) : Host := { h' with log := h.log ++ [op] }

/-- What becomes of the host, and what `Apply` gets to see. -/
def hostStep (o : Outcome) (op : HostOp) (h : Host) : Host × Option String :=
  if o.fails then (h, some o.message)
  else match op.exec h with
    | some h' => (h.effect op h', none)
    | none => (h, some o.message)

/-- `Apply` by itself. -/
def hostSem : Semantics Host Outcome AccessOp AccessOp.Res
  | o, .host op, h => some (hostStep o op h)
  | _, .start, _ | _, .get _ _, _ | _, .list, _ | _, .finish _, _ | _, .publish _, _ => none

/-- An operation on the host fails without an effect or has its effect. -/
theorem hostStep_cases (o : Outcome) (op : HostOp) (h : Host) :
    (hostStep o op h = (h, some o.message) ∧ (o.fails = false → op.exec h = none)) ∨
      (o.fails = false ∧ ∃ h', op.exec h = some h' ∧ hostStep o op h = (h.effect op h', none)) := by
  rw [hostStep]
  split
  next hf => exact .inl ⟨rfl, by simp [hf]⟩
  next hf =>
    split
    next h' hop => exact .inr ⟨by simpa using hf, h', hop, rfl⟩
    next hop => exact .inl ⟨rfl, fun _ => hop⟩

/-- The chain jumps to the target. -/
def IptTables.HasJump (T : IptTables) (table : IptTable) (chain target : IptChain) : Prop :=
  ∃ entries, T table chain = some entries ∧ .jump target ∈ entries

/-- The rules of a chain. -/
def IptEntry.rules (entries : List IptEntry) : List (Rule Packet) :=
  entries.filterMap fun
    | .rule r => some r.rule
    | .jump _ => none

namespace Host

/-- The table of nftables drops the forwarded packet. -/
def NftDrops (h : Host) (p : Packet) : Prop :=
  ∃ t, h.nft = some t ∧ Drops (t.forward.map (·.rule)) p

/-- The chain of the services, which forwarded packets have to pass, drops the packet. -/
def ChainDrops (h : Host) (p : Packet) : Prop :=
  h.iptables.HasJump .filter .forward .wgServices ∧
    ∃ entries, h.iptables .filter .wgServices = some entries ∧ Drops (IptEntry.rules entries) p

/-- The host drops the forwarded packet. -/
def DropsForwarded (h : Host) (p : Packet) : Prop := h.NftDrops p ∨ h.ChainDrops p

end Host

/-- The rules of a policy list are on the host, and nothing else of the controller. -/
structure Installed (e : HostServiceAccessExecutor)
    (policies : List ControllerServiceAccessPolicy) (h : Host) : Prop where
  nft : h.nft = match e.firewallBackend with
    | .nftables => some (e.rules policies)
    | .iptables => none
  raw : h.iptables .raw .wgRaw = some (e.rawEntries policies)
  services : h.iptables .filter .wgServices = some (e.servicesEntries policies)
  preroutingJump : h.iptables.HasJump .raw .prerouting .wgRaw
  dockerUserJump : h.iptables.HasJump .filter .dockerUser .wgServices
  forwardJump : h.iptables.HasJump .filter .forward .wgServices
  forwardJump' : h.iptables.HasJump .filter .forward .dockerUser

/-- A host with the rules of a policy list and no rules of anyone else. -/
def installedHost (e : HostServiceAccessExecutor) (policies : List ControllerServiceAccessPolicy) :
    Host where
  nft := match e.firewallBackend with
    | .nftables => some (e.rules policies)
    | .iptables => none
  iptables
    | .raw, .prerouting => some [.jump .wgRaw]
    | .raw, .wgRaw => some (e.rawEntries policies)
    | .filter, .forward => some [.jump .wgServices, .jump .dockerUser]
    | .filter, .dockerUser => some [.jump .wgServices]
    | .filter, .wgServices => some (e.servicesEntries policies)
    | _, _ => none
  installed _ := true

theorem installed_installedHost (e : HostServiceAccessExecutor)
    (policies : List ControllerServiceAccessPolicy) :
    Installed e policies (installedHost e policies) where
  nft := rfl
  raw := rfl
  services := rfl
  preroutingJump := ⟨_, rfl, by simp⟩
  dockerUserJump := ⟨_, rfl, by simp⟩
  forwardJump := ⟨_, rfl, by simp⟩
  forwardJump' := ⟨_, rfl, by simp⟩

theorem rules_servicesEntries (e : HostServiceAccessExecutor)
    (policies : List ControllerServiceAccessPolicy) :
    IptEntry.rules (e.servicesEntries policies) = e.servicesChain policies := by
  simp only [IptEntry.rules, HostServiceAccessExecutor.servicesEntries,
    HostServiceAccessExecutor.servicesChain, List.filterMap_map]
  exact congrFun List.filterMap_eq_map' _

end ADPlatform.Controller
