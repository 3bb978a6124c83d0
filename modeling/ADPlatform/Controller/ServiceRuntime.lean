import ADPlatform.APIGateway.ContainerNames
import ADPlatform.Lib.Execution

/-! # The docker runtime of the controller

`dockerCLIExecutor` brings up the container of a service by running one docker command after the
other. What docker answers is open; `Within` is about the commands themselves. -/

namespace ADPlatform.Controller
open Concurrent APIGateway Text

/-- `dockerNetworkPlan`: the network that a service's address belongs to. -/
structure DockerNetworkPlan where
  name : String
  layout : String
  subnet : String

/-- `dockerRunSecurity`: the limits that containers are started with; a blank one is left out. -/
structure DockerRunSecurity where
  capDrop : List String := []
  capAdd : List String := []
  securityOpt : List String := []
  pidsLimit : String := ""
  memory : String := ""
  cpus : String := ""

/-- `dockerArgs`: the limits as arguments of `docker run`. -/
def DockerRunSecurity.dockerArgs (s : DockerRunSecurity) : List String :=
  let given (flag value : String) : List String := if value ≠ "" then [flag, value] else []
  s.capDrop.flatMap (fun capability => ["--cap-drop", capability]) ++
    s.capAdd.flatMap (fun capability => ["--cap-add", capability]) ++
    s.securityOpt.flatMap (fun option => ["--security-opt", option]) ++
    given "--pids-limit" s.pidsLimit ++ given "--memory" s.memory ++ given "--cpus" s.cpus

/-- The executor: its configuration, `gamenet.PlanDockerNetwork` and `unlockproof.Issue` at its
settings, and how often it asks a container for its SSH contract before the time of a call is up. -/
structure DockerExecutor where
  stateMountPath : String
  serviceSecurity : DockerRunSecurity
  sshContractMode : String
  planDockerNetwork : String → Except String DockerNetworkPlan
  issueUnlockProof : Int → Int → Int → String
  probes : Nat

/-- A command of the docker binary, or half a second of waiting. -/
inductive DockerOp where
  | execDocker (args : List String)
  | wait

/-- A command prints its output or fails; waiting ends early if the time of the call is up. -/
def DockerOp.Res : DockerOp → Type
  | execDocker _ => Except String String
  | wait => Bool

/-- The executor's code over these operations. -/
abbrev DockerProc := Proc DockerOp DockerOp.Res

/-- `execDocker`: the command's output, or the text of its error. -/
def execDocker (args : List String) : DockerProc (Except String String) :=
  Proc.perform (DockerOp.execDocker args)

/-- The only result that matters is the error. -/
def execDocker_ (args : List String) : DockerProc (Option String) := do
  match ← execDocker args with
  | .error e => pure (some e)
  | .ok _ => pure none

/-- The pause between two probes; `false` if the context ends first. -/
def wait : DockerProc Bool := Proc.perform DockerOp.wait

/-- `strings.Contains`. -/
def contains (s substr : String) : Bool :=
  s.toList.tails.any fun rest => substr.toList.isPrefixOf rest

/-- The name is one of the lines that a command has printed. -/
def listed (output name : String) : Bool :=
  ((trimSpace output).splitOn "\n").any fun line => trimSpace line = name

/-! ## Containers and volumes -/

/-- `containerExists`: the name is matched by the filter and once more in the output. -/
def containerExists (containerName : String) : DockerProc (Except String Bool) := do
  match ← execDocker ["ps", "-a", "--filter", "name=^/" ++ containerName ++ "$", "--format",
    "\x7b\x7b.Names\x7d\x7d"] with
  | .error e => pure (.error e)
  | .ok output => pure (.ok (listed output containerName))

/-- `removeContainerIfExists`. -/
def removeContainerIfExists (containerName : String) : DockerProc (Option String) := do
  match ← containerExists containerName with
  | .error e => pure (some e)
  | .ok false => pure none
  | .ok true => execDocker_ ["rm", "-f", containerName]

/-- `removeVolumeIfExists`. -/
def removeVolumeIfExists (volumeName : String) : DockerProc (Option String) :=
  if trimSpace volumeName = "" then pure none
  else do
    match ← execDocker ["volume", "ls", "--filter", "name=^" ++ volumeName ++ "$", "--format",
      "\x7b\x7b.Name\x7d\x7d"] with
    | .error e => pure (some e)
    | .ok output =>
      if listed output volumeName then execDocker_ ["volume", "rm", "-f", volumeName]
      else pure none

/-! ## A fresh container -/

/-- The image is pulled; if that fails, a local one has to do. -/
def pullServiceImage (image : String) : DockerProc (Option String) := do
  match ← execDocker ["pull", image] with
  | .ok _ => pure none
  | .error e =>
    match ← execDocker ["image", "inspect", image] with
    | .ok _ => pure none
    | .error inspectErr => pure (some ("docker pull failed: " ++ e ++
        " (local fallback inspect also failed: " ++ inspectErr ++ ")"))

/-- `refreshServiceImage`: a local image has to be there, any other is pulled. -/
def refreshServiceImage (baselineImage : String) : DockerProc (Option String) :=
  let image := trimSpace baselineImage
  if image = "" then pure none
  else if "local/".toList.isPrefixOf image.toList then do
    match ← execDocker ["image", "inspect", image] with
    | .ok _ => pure none
    | .error _ => pullServiceImage image
  else pullServiceImage image

/-- `ensureNetwork`: created if it cannot be inspected. -/
def ensureNetwork (plan : DockerNetworkPlan) : DockerProc (Option String) :=
  if trimSpace plan.name = "" then pure none
  else do
    match ← execDocker ["network", "inspect", plan.name] with
    | .ok _ => pure none
    | .error _ =>
      execDocker_ (["network", "create", "--label", "adplatform.game_network=true", "--label",
        "adplatform.network_layout=" ++ plan.layout] ++
        (if trimSpace plan.subnet ≠ "" then ["--subnet", plan.subnet] else []) ++ [plan.name])

/-- The address and the port of a task, from its endpoint where they are missing. -/
def taskAddress (task : ControllerRuntimeTask) : String × Int :=
  let serviceIP := trimSpace task.sshHost
  let (endpointHost, endpointPort) := parseEndpoint task.endpoint
  (if serviceIP = "" then endpointHost else serviceIP,
    if task.servicePort = 0 then endpointPort else task.servicePort)

/-- `buildDockerRunArgs`. -/
def buildDockerRunArgs (e : DockerExecutor) (network : String) (task : ControllerRuntimeTask) :
    List String :=
  let (serviceIP, servicePort) := taskAddress task
  ["run", "-d", "--init", "--restart", "unless-stopped"] ++ e.serviceSecurity.dockerArgs ++
    ["--name", task.containerName,
     "--hostname", task.containerName,
     "--label", "adplatform.team_id=" ++ task.teamID.repr,
     "--label", "adplatform.challenge_id=" ++ task.challengeID.repr,
     "--label", "adplatform.deployment_job_id=" ++ task.deploymentJobID.repr,
     "--label", "adplatform.service_ip=" ++ serviceIP,
     "--label", "adplatform.service_port=" ++ servicePort.repr,
     "--label", "adplatform.state_volume=" ++ task.stateVolume,
     "-e", "AD_PLATFORM_TEAM_ID=" ++ task.teamID.repr,
     "-e", "AD_PLATFORM_CHALLENGE_ID=" ++ task.challengeID.repr,
     "-e", "AD_PLATFORM_SERVICE_IP=" ++ serviceIP,
     "-e", "AD_PLATFORM_SERVICE_PORT=" ++ servicePort.repr,
     "-e", "AD_PLATFORM_ENDPOINT=" ++ task.endpoint,
     "-e", "AD_PLATFORM_UNLOCK_PROOF=" ++
       e.issueUnlockProof task.teamID task.challengeID task.unlockProofEpoch,
     "-e", "AD_CHECKER_TOKEN=" ++ task.checkerToken,
     "-e", "PORT=" ++ servicePort.repr] ++
    (if trimSpace task.stateVolume ≠ "" ∧ trimSpace e.stateMountPath ≠ "" then
      ["--mount", "type=volume,src=" ++ task.stateVolume ++ ",dst=" ++ e.stateMountPath] else []) ++
    (if trimSpace network ≠ "" then
      ["--network", network] ++
        (if trimSpace serviceIP ≠ "" then ["--ip", serviceIP] else []) else []) ++
    [task.baselineImage]

/-- The attempts to run the container. One that is in the way of its name is removed. -/
def runAttempts (e : DockerExecutor) (network : String) (task : ControllerRuntimeTask) :
    Nat → Option String → DockerProc (Option String)
  | 0, runErr => pure runErr
  | attempts + 1, _ => do
    match ← execDocker (buildDockerRunArgs e network task) with
    | .ok _ => pure none
    | .error message =>
      if !contains (toLower message) "conflict" then pure (some message)
      else do
        let _ ← removeContainerIfExists task.containerName
        if ← wait then pure (some ("timeout waiting for container name release: " ++ message))
        else runAttempts e network task attempts (some message)

/-- `runFreshContainer`: the image, the network and then the container. -/
def runFreshContainer (e : DockerExecutor) (task : ControllerRuntimeTask) :
    DockerProc (Option String) :=
  let serviceIP := trimSpace task.sshHost
  let endpointHost := (parseEndpoint task.endpoint).1
  match e.planDockerNetwork
      (if serviceIP = "" ∧ endpointHost ≠ "" then endpointHost else serviceIP) with
  | .error message => pure (some message)
  | .ok plan => do
    match ← refreshServiceImage task.baselineImage with
    | some message => pure (some message)
    | none =>
      match ← ensureNetwork plan with
      | some message => pure (some message)
      | none => runAttempts e plan.name task 3 none

/-- `buildDockerSSHContractProbeArgs`. -/
def buildDockerSSHContractProbeArgs (task : ControllerRuntimeTask) : List String :=
  ["exec", task.containerName, "/bin/sh", "-lc",
   "set -eu\nif command -v sshd >/dev/null 2>&1 || [ -x /usr/sbin/sshd ] " ++
     "|| command -v dropbear >/dev/null 2>&1 || [ -x /usr/sbin/dropbear ]; then\n  :\n" ++
     "else\n  echo 'missing ssh daemon binary inside container' >&2\n  exit 1\nfi\n" ++
     "if command -v chpasswd >/dev/null 2>&1 || command -v passwd >/dev/null 2>&1; then\n  :\n" ++
     "else\n  echo 'missing supported password setter inside container' >&2\n  exit 1\n\t\tfi"]

/-- `isTransientDockerExecState`: a failure that the next probe may not meet. -/
def isTransientDockerExecState (message : String) : Bool :=
  ["is restarting", "is not running", "container is restarting", "container is not running"].any
    fun text => contains (toLower message) text

/-- The time of the call is up before the container is. -/
def notReady (task : ControllerRuntimeTask) (lastErr : String) : String :=
  "container " ++ task.containerName ++
    " did not become ready for SSH contract verification: " ++ lastErr

/-- The probe is repeated while the container is on its way up. -/
def probeSSHContract (task : ControllerRuntimeTask) : Nat → String → DockerProc (Option String)
  | 0, lastErr => pure (some (notReady task lastErr))
  | probes + 1, _ => do
    match ← execDocker (buildDockerSSHContractProbeArgs task) with
    | .ok _ => pure none
    | .error message =>
      if !isTransientDockerExecState message then pure (some message)
      else if ← wait then pure (some (notReady task message))
      else probeSSHContract task probes message

/-- `verifySSHContract`. -/
def verifySSHContract (e : DockerExecutor) (task : ControllerRuntimeTask) :
    DockerProc (Option String) :=
  if e.sshContractMode = "disabled" then pure none else probeSSHContract task e.probes ""

/-! ## The calls -/

/-- The runtime is not docker. -/
def unsupported (task : ControllerRuntimeTask) : Bool :=
  task.runtimeKind ≠ "" && task.runtimeKind ≠ "docker"

/-- The error for a task that is not for Docker. -/
def unsupportedRuntime (task : ControllerRuntimeTask) : String :=
  "unsupported runtime kind " ++ task.runtimeKind.quote ++ " for " ++ task.containerName

/-- `EnsureService`: a container that fails its probe is removed again. -/
def ensureService (e : DockerExecutor) (task : ControllerRuntimeTask) :
    DockerProc (Option String) :=
  let run : DockerProc (Option String) := do
    match ← runFreshContainer e task with
    | some message =>
      let _ ← removeContainerIfExists task.containerName
      pure (some message)
    | none => verifySSHContract e task
  if unsupported task then pure (some (unsupportedRuntime task))
  else do
    match ← containerExists task.containerName with
    | .error message => pure (some message)
    | .ok false => run
    | .ok true =>
      match ← removeContainerIfExists task.containerName with
      | some message => pure (some message)
      | none => run

/-- `FactoryResetService`: the container and its volume are removed first. -/
def factoryResetService (e : DockerExecutor) (task : ControllerRuntimeTask) :
    DockerProc (Option String) :=
  if unsupported task then pure (some (unsupportedRuntime task))
  else do
    match ← removeContainerIfExists task.containerName with
    | some message => pure (some message)
    | none =>
      match ← removeVolumeIfExists task.stateVolume with
      | some message => pure (some message)
      | none =>
        match ← runFreshContainer e task with
        | some message => pure (some message)
        | none => verifySSHContract e task

/-! ## What the calls remove -/

/-- The container that a command removes. -/
def DockerOp.removedContainer : DockerOp → Option String
  | .execDocker ["rm", "-f", name] => some name
  | _ => none

/-- The volume that a command removes. -/
def DockerOp.removedVolume : DockerOp → Option String
  | .execDocker ["volume", "rm", "-f", name] => some name
  | _ => none

/-- The command removes nothing but the container and the volume of the task. -/
structure Within (task : ControllerRuntimeTask) (op : DockerOp) : Prop where
  container : ∀ name, op.removedContainer = some name → name = task.containerName
  volume : ∀ name, op.removedVolume = some name → name = task.stateVolume

section within
variable {task : ControllerRuntimeTask} {args : List String} {command : String}

theorem removedContainer_eq_some {op : DockerOp} {name : String} :
    op.removedContainer = some name ↔ op = .execDocker ["rm", "-f", name] := by
  constructor
  · intro h
    unfold DockerOp.removedContainer at h
    split at h
    · cases h
      rfl
    · cases h
  · rintro rfl
    rfl

theorem removedVolume_eq_some {op : DockerOp} {name : String} :
    op.removedVolume = some name ↔ op = .execDocker ["volume", "rm", "-f", name] := by
  constructor
  · intro h
    unfold DockerOp.removedVolume at h
    split at h
    · cases h
      rfl
    · cases h
  · rintro rfl
    rfl

/-- A command of another kind. -/
theorem Within.of_command (hrm : command ≠ "rm") (hvolume : command ≠ "volume") :
    Within task (.execDocker (command :: args)) where
  container name h := by
    cases removedContainer_eq_some.mp h
    exact absurd rfl hrm
  volume name h := by
    cases removedVolume_eq_some.mp h
    exact absurd rfl hvolume

theorem Within.wait : Within task .wait := ⟨nofun, nofun⟩

theorem only_execDocker_ (h : Within task (.execDocker args)) :
    Proc.Only (Within task) (execDocker_ args) := by
  refine .bind (.perform h) fun r => ?_
  cases r with
  | error => exact .pure
  | ok => exact .pure

theorem only_containerExists (name : String) : Proc.Only (Within task) (containerExists name) := by
  refine .bind (.perform (.of_command (by decide) (by decide))) fun r => ?_
  cases r with
  | error => exact .pure
  | ok => exact .pure

theorem only_removeContainer :
    Proc.Only (Within task) (removeContainerIfExists task.containerName) := by
  refine .bind (only_containerExists _) fun r => ?_
  match r with
  | .error _ | .ok false => exact .pure
  | .ok true =>
    refine only_execDocker_ ⟨fun name h => ?_, nofun⟩
    cases h
    rfl

theorem only_removeVolume : Proc.Only (Within task) (removeVolumeIfExists task.stateVolume) := by
  refine .ite .pure (.bind (.perform ⟨nofun, nofun⟩) fun r => ?_)
  cases r with
  | error => exact .pure
  | ok output =>
    refine .ite (only_execDocker_ ⟨nofun, fun name h => ?_⟩) .pure
    cases h
    rfl

theorem only_pullServiceImage (image : String) :
    Proc.Only (Within task) (pullServiceImage image) := by
  refine .bind (.perform (.of_command (by decide) (by decide))) fun r => ?_
  cases r with
  | ok => exact .pure
  | error =>
    refine .bind (.perform (.of_command (by decide) (by decide))) fun r => ?_
    cases r with
    | ok => exact .pure
    | error => exact .pure

theorem only_refreshServiceImage (image : String) :
    Proc.Only (Within task) (refreshServiceImage image) := by
  refine .ite .pure (.ite (.bind (.perform (.of_command (by decide) (by decide))) fun r => ?_)
    (only_pullServiceImage _))
  cases r with
  | ok => exact .pure
  | error => exact only_pullServiceImage _

theorem only_ensureNetwork (plan : DockerNetworkPlan) :
    Proc.Only (Within task) (ensureNetwork plan) := by
  refine .ite .pure (.bind (.perform (.of_command (by decide) (by decide))) fun r => ?_)
  cases r with
  | ok => exact .pure
  | error => exact only_execDocker_ (.of_command (by decide) (by decide))

theorem only_runAttempts (e : DockerExecutor) (network : String) (attempts : Nat)
    (runErr : Option String) : Proc.Only (Within task)
    (runAttempts e network task attempts runErr) := by
  induction attempts generalizing runErr with
  | zero => exact .pure
  | succ attempts ih =>
    refine .bind (.perform (.of_command (by decide) (by decide))) fun r => ?_
    cases r with
    | ok => exact .pure
    | error message =>
      refine .ite .pure (.bind only_removeContainer fun _ => .bind (.perform .wait) fun late => ?_)
      exact .ite .pure (ih _)

theorem only_runFreshContainer (e : DockerExecutor) :
    Proc.Only (Within task) (runFreshContainer e task) := by
  unfold runFreshContainer
  dsimp only
  split
  · exact .pure
  refine .bind (only_refreshServiceImage _) fun r => ?_
  cases r with
  | some => exact .pure
  | none =>
    refine .bind (only_ensureNetwork _) fun r => ?_
    cases r with
    | some => exact .pure
    | none => exact only_runAttempts e _ 3 none

theorem only_probeSSHContract (probes : Nat) (lastErr : String) :
    Proc.Only (Within task) (probeSSHContract task probes lastErr) := by
  induction probes generalizing lastErr with
  | zero => exact .pure
  | succ probes ih =>
    refine .bind (.perform (.of_command (by decide) (by decide))) fun r => ?_
    cases r with
    | ok => exact .pure
    | error message => exact .ite .pure (.bind (.perform .wait) fun _ => .ite .pure (ih _))

theorem only_verifySSHContract (e : DockerExecutor) :
    Proc.Only (Within task) (verifySSHContract e task) :=
  .ite .pure (only_probeSSHContract _ _)

theorem only_ensureService (e : DockerExecutor) :
    Proc.Only (Within task) (ensureService e task) := by
  have hrun : Proc.Only (Within task) (do
      match ← runFreshContainer e task with
      | some message =>
        let _ ← removeContainerIfExists task.containerName
        pure (some message)
      | none => verifySSHContract e task) := by
    refine .bind (only_runFreshContainer e) fun r => ?_
    cases r with
    | some => exact .bind only_removeContainer fun _ => .pure
    | none => exact only_verifySSHContract e
  refine .ite .pure (.bind (only_containerExists _) fun r => ?_)
  match r with
  | .error _ => exact .pure
  | .ok false => exact hrun
  | .ok true =>
    refine .bind only_removeContainer fun r => ?_
    cases r with
    | some => exact .pure
    | none => exact hrun

theorem only_factoryResetService (e : DockerExecutor) :
    Proc.Only (Within task) (factoryResetService e task) := by
  refine .ite .pure (.bind only_removeContainer fun r => ?_)
  cases r with
  | some => exact .pure
  | none =>
    refine .bind only_removeVolume fun r => ?_
    cases r with
    | some => exact .pure
    | none =>
      refine .bind (only_runFreshContainer e) fun r => ?_
      cases r with
      | some => exact .pure
      | none => exact only_verifySSHContract e

end within

/-- Whatever docker answers, and whatever else happens to it, the call removes neither the container
nor the volume of this instance. -/
def Spares (call : DockerProc (Option String)) (other : ServiceInstanceRecord) : Prop :=
  ∀ {σ ι : Type} (E : Surroundings σ ι DockerOp DockerOp.Res) (s t : σ) (ops : List DockerOp),
    Execution E call.toThread s ops t → ∀ op ∈ ops,
      op.removedContainer ≠ some other.containerName ∧ op.removedVolume ≠ some other.stateVolume

theorem spares_of_only {task : ControllerRuntimeTask} {call : DockerProc (Option String)}
    {other : ServiceInstanceRecord} (h : Proc.Only (Within task) call)
    (hcontainer : task.containerName ≠ other.containerName)
    (hvolume : task.stateVolume ≠ other.stateVolume) : Spares call other := by
  intro σ ι E s t ops hrun op hop
  have hwithin := hrun.only h.toThread op hop
  exact ⟨fun h => hcontainer (hwithin.container _ h).symm, fun h =>
    hvolume (hwithin.volume _ h).symm⟩

/-- No service takes the container or the volume of another one away. -/
def RuntimeSpares (s : MemoryStore) : Prop :=
  ∀ (e : DockerExecutor) k k' i i', s.instances.lookup k = some i →
  s.instances.lookup k' = some i' →
    k ≠ k' → Spares (ensureService e (s.controllerRuntimeTask k i)) i' ∧
      Spares (factoryResetService e (s.controllerRuntimeTask k i)) i'

theorem runtimeSpares_of_namesApart {s : MemoryStore} (h : s.NamesApart) : RuntimeSpares s := by
  intro e k k' i i' hi hi' hne
  obtain ⟨hcontainer, hvolume⟩ := h k k' i i' hi hi' hne
  exact ⟨spares_of_only (only_ensureService e) hcontainer hvolume,
    spares_of_only (only_factoryResetService e) hcontainer hvolume⟩

/-- In every state of a run the instances have names of their own, and none of them is removed for
another one, exactly if every new instance gets a slug that its team does not have yet. -/
theorem services_keep_apart_iff (T : CaseTable) {s : MemoryStore} (hs : s.Initial)
    (calls : List MemoryCall) :
    Runs.Always (MemoryStore.exec T) (fun s => s.NamesApart ∧ RuntimeSpares s) s calls ↔
      Runs.EachCall (MemoryStore.exec T) (fun call s => s.slugFree T call) s calls := by
  rw [← MemoryStore.namesApart_runs_iff T hs]
  constructor
  · intro h before after heq
    exact (h before after heq).1
  · intro h before after heq
    exact ⟨h before after heq, runtimeSpares_of_namesApart (h before after heq)⟩

/-- One team with two challenges. -/
def twoServices (first second : String) : List MemoryCall :=
  [.createAdminTeam { name := "Blue", contactEmail := "blue@example.com" } {},
   .createAdminChallenge { name := first } {},
   .createAdminChallenge { name := second } {},
   .deployAdminChallenge 1 {},
   .deployAdminChallenge 2 {}]

theorem services_keep_apart_iff_twoServices :
    ((Runs.run (MemoryStore.exec .ascii) {}
      (twoServices "banking" "chat")).instances.pairs.map fun x =>
      (x.1, x.2.containerName)) =
        [((101, 2), "svc-chat-team-101"), ((101, 1), "svc-banking-team-101")] ∧
    Runs.Always (MemoryStore.exec .ascii) (fun s => s.NamesApart ∧ RuntimeSpares s) {}
      (twoServices "banking" "chat") := by
  refine ⟨by decide +kernel, (services_keep_apart_iff .ascii (.inl rfl) _).mpr ?_⟩
  -- beside a new instance the team has none of the same slug
  have hother : ∀ {s : MemoryStore} {c : Int} (name : String),
      (s.challenges.lookup c).map (·.name) = some name →
      (∀ x ∈ s.instances.pairs, slugName x.2.challengeName ≠ slugName name) →
      s.slugFree .ascii (.deployAdminChallenge c {}) := by
    intro s c name hname hslugs challenge m hc _ team _ c' i _ hi
    rw [hc] at hname
    cases hname
    have hslug := hslugs ((team, c'), i) (Go.Map.mem_pairs.mpr hi)
    exact hslug
  refine Runs.eachCall_cons.mpr ⟨fun _ _ m _ _ e he => ?_, Runs.eachCall_cons.mpr ⟨trivial,
    Runs.eachCall_cons.mpr ⟨trivial, Runs.eachCall_cons.mpr ⟨?_, Runs.eachCall_cons.mpr ⟨?_,
      Runs.eachCall_nil⟩⟩⟩⟩⟩
  · have hnone : MemoryStore.publishedChallenges {} .inOrder = [] := by decide
    rw [hnone, List.take_nil] at he
    cases he
  · exact hother "banking" (by decide +kernel) (by decide +kernel)
  · exact hother "chat" (by decide +kernel) (by decide +kernel)

theorem shared_container :
    ¬ ∀ (T : CaseTable) (s : MemoryStore) (calls : List MemoryCall), s.Initial →
    Runs.Always (MemoryStore.exec T) (fun s => s.NamesApart ∧ RuntimeSpares s) s calls := by
  intro h
  have hapart := (h .ascii {} (twoServices "a b" "a-b") (.inl rfl)).last.1
  have hnames : ∀ c ∈ [(1 : Int), 2],
      ((Runs.run (MemoryStore.exec .ascii) {} (twoServices "a b" "a-b")).instances.lookup
        (101, c)).map
        (·.containerName) = some "svc-a-b-team-101" := by
    decide +kernel
  obtain ⟨i, hi, hname⟩ := Option.map_eq_some_iff.mp (hnames 1 (by decide))
  obtain ⟨i', hi', hname'⟩ := Option.map_eq_some_iff.mp (hnames 2 (by decide))
  exact (hapart (101, 1) (101, 2) i i' hi hi' (by decide)).1 (hname.trans hname'.symm)

end ADPlatform.Controller
