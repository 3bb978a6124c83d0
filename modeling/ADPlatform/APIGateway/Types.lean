import ADPlatform.GameCore.Match
import ADPlatform.Lib.Encoding

/-! # The records of the API gateway's stores -/

namespace ADPlatform.APIGateway
open GameCore (Stamp)
open Text

/-- A service: the ids of its team and of its challenge. -/
abbrev ServiceKey := Int × Int

/-- The runtime status of a service. -/
inductive RuntimeStatus where
  | queued | ready | stopped
  deriving DecidableEq, Repr

/-- The status of a deployment job. -/
inductive DeploymentStatus where
  | queued | running | completed | superseded
  deriving DecidableEq, Repr

/-- `status IN ('queued', 'running')`. -/
def DeploymentStatus.isActive : DeploymentStatus → Bool
  | queued | running => true
  | completed | superseded => false

/-- A team as organizers see it. -/
structure AdminTeam where
  id : Int
  name : String
  contactEmail : String
  joinKey : String
  playerCount : Nat := 0
  deployedChallenges : Nat := 0
  active : Bool := false
  deactivatedAt : Stamp := none
  playFromTick : Int := 0
  deriving DecidableEq, Repr

/-- What an organizer sends to create a team. -/
structure AdminCreateTeamRequest where
  name : String
  contactEmail : String
  deriving DecidableEq, Repr

/-- What an organizer sends to change a team; a blank field keeps its value. -/
structure AdminUpdateTeamRequest where
  name : String := ""
  contactEmail : String := ""
  deriving DecidableEq, Repr

/-- A challenge as organizers see it. -/
structure AdminChallenge where
  id : Int
  name : String
  baselineImage : String := ""
  checkerImage : String := ""
  servicePort : Int := 0
  serviceSubnetOctet : Int := 0
  published : Bool := false
  unlockProofEpoch : Int := 0
  deployedTeams : Nat := 0
  totalTeams : Nat := 0
  runtimeStatus : String := ""
  queuedTeams : Nat := 0
  readyTeams : Nat := 0
  egressEnabled : Bool := false
  maintenance : Bool := false
  maintenanceAt : Stamp := none
  playFromTick : Int := 0
  createdAt : Stamp := none
  deriving DecidableEq, Repr

/-- What an organizer sends to create a challenge. -/
structure AdminCreateChallengeRequest where
  name : String
  baselineImage : String := ""
  checkerImage : String := ""
  servicePort : Int := 0
  serviceSubnetOctet : Int := 0
  egressEnabled : Option Bool := none
  deriving DecidableEq, Repr

/-- What an organizer sends to change a challenge; a blank field keeps its value. -/
structure AdminUpdateChallengeRequest where
  name : String := ""
  baselineImage : String := ""
  checkerImage : String := ""
  egressEnabled : Option Bool := none
  deriving DecidableEq, Repr

/-- The state of a team's service as participants see it. -/
structure ServiceState where
  challengeID : Int
  teamID : Int
  name : String := ""
  endpoint : String
  status : String
  checker : String
  unlocked : Bool := false
  sshHint : String
  lastEvent : String
  resetCooldown : String
  slaStatus : String := ""
  slaMessage : String := ""
  deriving DecidableEq, Repr

/-- The instance of a service. It belongs to no deployment job where `deploymentJobID` is `0`, or
in a database row `NULL`. A row leaves the name and the port to a join with the challenges. -/
structure ServiceInstanceRecord where
  teamID : Int
  challengeID : Int
  challengeName : String := ""
  runtimeKind : String
  runtimeStatus : RuntimeStatus
  deploymentJobID : Option Int := none
  containerName : String
  stateVolume : String
  baselineImage : String
  checkerImage : String
  checkerToken : String
  endpoint : String
  sshHost : String
  servicePort : Int := 0
  updatedAt : Stamp
  deriving DecidableEq, Repr

/-- A deployment of a challenge to all teams, with its counts. -/
structure AdminDeploymentJob where
  id : Int
  challengeID : Int
  challengeName : String
  status : DeploymentStatus
  targetTeamCount : Nat
  queuedTeamCount : Nat
  readyTeamCount : Nat
  createdAt : Stamp
  completedAt : Stamp := none
  deriving DecidableEq, Repr

/-- What `DeployAdminChallenge` answers. -/
structure AdminDeployment where
  jobID : Int
  challengeID : Int
  challengeName : String
  status : DeploymentStatus
  published : Bool
  deployedTeamCount : Nat
  totalTeamCount : Nat
  queuedTeamCount : Nat
  readyTeamCount : Nat
  createdAt : Stamp
  deriving DecidableEq, Repr

/-- What a reconcile has done. -/
structure AdminReconcileResult where
  processedJobs : Nat := 0
  processedInstances : Nat := 0
  completedJobs : Nat := 0
  deriving DecidableEq, Repr

/-- All that the controller needs to run a service. -/
structure ControllerRuntimeTask where
  deploymentJobID : Int
  teamID : Int
  challengeID : Int
  challengeName : String
  runtimeKind : String
  containerName : String
  stateVolume : String
  baselineImage : String
  checkerToken : String
  endpoint : String
  sshHost : String
  servicePort : Int
  unlockProofEpoch : Int
  deriving DecidableEq, Repr

/-- What the firewall lets through to the service of a team. While the network of the service is
closed, the allowed peers are those of the organizers. -/
structure ControllerServiceAccessPolicy where
  teamID : Int
  teamName : String
  challengeID : Int
  challengeName : String
  serviceIP : String
  servicePort : Int
  sshPort : Int
  sshUnlocked : Bool
  allowedPeerAddresses : List String
  egressEnabled : Bool
  networkClosed : Bool
  deriving DecidableEq, Repr

/-! ## Players -/

/-- The roles of players. -/
inductive Role where
  | organizer | captain | member
  deriving DecidableEq, Repr

/-- `normalizedRole`: whatever is neither an organizer nor a captain is a member. -/
def normalizedRole (role : String) : Role :=
  let trimmed := toLower (trimSpace role)
  if trimmed = "organizer" ∨ trimmed = "admin" then .organizer
  else if trimmed = "captain" then .captain
  else .member

/-- The status of a WireGuard peer; a player without one has the empty text. -/
inductive WireGuardPeerStatus where
  | unset | active | revoked
  deriving DecidableEq, Repr

/-- A player's tunnel peer with its keys. -/
structure WireGuardPeerState where
  playerID : Int := 0
  teamID : Int := 0
  teamName : String := ""
  displayName : String := ""
  wireGuardPeer : String := ""
  address : String := ""
  status : WireGuardPeerStatus := .unset
  serverEndpoint : String := ""
  serverPublicKey : String := ""
  clientPrivateKey : String := ""
  clientPublicKey : String := ""
  presharedKey : String := ""
  allowedIPs : String := ""
  dns : String := ""
  config : String := ""
  issuedAt : Stamp := none
  revokedAt : Stamp := none
  deriving DecidableEq, Repr

/-- A player as organizers see them. -/
structure AdminPlayer where
  id : Int
  teamID : Int
  teamName : String
  displayName : String
  email : String
  role : Role
  wireGuardPeer : String
  wireGuardAddress : String := ""
  wireGuardStatus : WireGuardPeerStatus := .unset
  wireGuardIssuedAt : Stamp := none
  wireGuardRevokedAt : Stamp := none
  active : Bool := false
  deactivatedAt : Stamp := none
  createdAt : Stamp
  deriving DecidableEq, Repr

/-- A player with the peer and the version that their sessions have to carry. -/
structure AdminPlayerRecord where
  player : AdminPlayer
  wireGuard : WireGuardPeerState := {}
  sessionVersion : Int := 0
  deriving DecidableEq, Repr

/-- A player who has logged in. -/
structure AuthenticatedPlayer where
  playerID : Int
  teamID : Int
  teamName : String
  teamContactEmail : String := ""
  displayName : String
  email : String
  role : Role
  sessionVersion : Int
  deriving DecidableEq, Repr

/-- What a player sends to register. -/
structure ParticipantRegisterRequest where
  displayName : String
  email : String
  password : String
  deriving DecidableEq, Repr

/-- What a player sends to change their profile. -/
structure ParticipantUpdateProfileRequest where
  displayName : String
  email : String
  teamName : String := ""
  teamContactEmail : String := ""
  deriving DecidableEq, Repr

/-- What an organizer sends to create a player. -/
structure AdminCreatePlayerRequest where
  teamID : Int := 0
  displayName : String
  email : String
  password : String
  role : String := ""
  deriving DecidableEq, Repr

/-- What an organizer sends to change a player. -/
structure AdminUpdatePlayerRequest where
  displayName : String := ""
  email : String := ""
  role : String
  deriving DecidableEq, Repr

/-- The settings that organizers can change. -/
structure AdminPlatformSettings where
  flagFormatPrefix : String := ""
  flagFormatActive : String := ""
  maxTeamMembers : Int := 0
  updatedAt : Stamp := none
  updatedBy : String := ""
  deriving DecidableEq, Repr

/-- What an organizer sends to change the settings. -/
structure AdminUpdatePlatformSettingsRequest where
  flagFormatPrefix : String
  maxTeamMembers : Option Int := none
  deriving DecidableEq, Repr

/-- A WireGuard peer as the gateway of the network gets it. -/
structure WireGuardGatewayPeer where
  playerID : Int
  teamID : Int
  teamName : String
  displayName : String
  wireGuardPeer : String
  address : String
  status : WireGuardPeerStatus
  clientPublicKey : String
  presharedKey : String
  deriving DecidableEq, Repr

/-- `minimumPasswordLength`. -/
def minimumPasswordLength : Nat := 8

/-- `validPassword`: long enough in bytes, and not blank. -/
def validPassword (value : String) : Bool :=
  value.utf8ByteSize ≥ minimumPasswordLength && trimSpace value ≠ ""

/-- `wireguardPeerName`: organizers have no team in it. -/
def wireguardPeerName (teamID playerID : Int) : String :=
  if teamID = 0 then "organizer-player-" ++ playerID.repr
  else "team-" ++ teamID.repr ++ "-player-" ++ playerID.repr

/-! ## Tasks and errors -/

/-- The service a task is for. -/
def ControllerRuntimeTask.key (task : ControllerRuntimeTask) : ServiceKey :=
  (task.teamID, task.challengeID)

/-- The order of a task list: by job, then by challenge, then by team. -/
def ControllerRuntimeTask.before (a b : ControllerRuntimeTask) : Bool :=
  if a.deploymentJobID ≠ b.deploymentJobID then a.deploymentJobID < b.deploymentJobID
  else if a.challengeID ≠ b.challengeID then a.challengeID < b.challengeID
  else a.teamID < b.teamID

/-- The errors of a store call. -/
inductive StoreError where
  | challengeNotFound | challengeMaintenance | challengeDeferred
  | matchNotStarted | matchPaused
  | deploymentActive | deploymentNotFound
  | serviceLocked | serviceUnavailable
  | teamNotFound | playerNotFound
  | duplicateResource | invalidCredentials | accountDeactivated
  | teamMemberLimit | teamAddressPool | playerAddressPool
  | notTeamCaptain | invalidCaptainTransfer
  /-- an invalid runtime configuration, and what is wrong with it -/
  | invalidRuntimeConfig (detail : String)
  /-- the call failed for a reason of its own, with this text -/
  | failure (message : String)
  deriving DecidableEq, Repr

/-- The texts of the store's errors. -/
def StoreError.text : StoreError → String
  | challengeNotFound => "challenge not found"
  | challengeMaintenance => "challenge under maintenance"
  | challengeDeferred => "challenge resumes next tick"
  | matchNotStarted => "contest has not started yet"
  | matchPaused => "contest is temporarily paused"
  | deploymentActive => "deployment job is still active"
  | deploymentNotFound => "deployment job not found"
  | serviceLocked => "service locked"
  | serviceUnavailable => "service unavailable"
  | teamNotFound => "team not found"
  | playerNotFound => "player not found"
  | duplicateResource => "duplicate resource"
  | invalidCredentials => "invalid credentials"
  | accountDeactivated => "account deactivated"
  | teamMemberLimit => "team member limit reached"
  | teamAddressPool => "team network address pool exhausted"
  | playerAddressPool => "player network address pool exhausted"
  | notTeamCaptain => "team captain privileges required"
  | invalidCaptainTransfer => "invalid captain transfer"
  | invalidRuntimeConfig detail => "invalid runtime config: " ++ detail
  | failure message => message

/-! ## Names and addresses of a service -/

/-- `minimumTeamNetworkID` to `maximumTeamNetworkID`. -/
def teamNetworkIDs : List Int := (List.range 244).map fun n => 101 + n

/-- `teamServiceOctet`: 0 if the team's id is outside the network's range. -/
def teamServiceOctet (teamID : Int) : Int :=
  if 101 ≤ teamID ∧ teamID ≤ 344 then teamID - 90 else if teamID = 0 then 1 else 0

/-- `serviceIP`. -/
def serviceIP (subnetOctet teamID : Int) : String :=
  "10.80." ++ subnetOctet.repr ++ "." ++ (teamServiceOctet teamID).repr

/-- `serviceEndpointFor`. -/
def serviceEndpointFor (subnetOctet servicePort teamID : Int) : String :=
  serviceIP subnetOctet teamID ++ ":" ++ servicePort.repr

/-- The loop of `slugName`: a run of other characters becomes one dash. -/
def slugChars : Bool → List Char → List Char
  | _, [] => []
  | lastDash, c :: cs =>
    if ('a' ≤ c ∧ c ≤ 'z') ∨ ('0' ≤ c ∧ c ≤ '9') then c :: slugChars false cs
    else if lastDash then slugChars true cs
    else '-' :: slugChars true cs

/-- `slugName`: lower case, with single dashes between the words. -/
def slugName (value : String) : String :=
  let trimmed := trimSpace (toLower value)
  if trimmed = "" then "service"
  else
    let isDash : Char → Bool := (· = '-')
    let slug :=
      (slugChars false trimmed.toList).dropWhile isDash |>.reverse.dropWhile isDash |>.reverse
    if slug = [] then "service" else String.ofList slug

/-- `serviceContainerName`. -/
def serviceContainerName (challengeName : String) (teamID : Int) : String :=
  "svc-" ++ slugName challengeName ++ "-team-" ++ teamID.repr

/-- `serviceStateVolumeName`. -/
def serviceStateVolumeName (challengeName : String) (teamID : Int) : String :=
  "svc-" ++ slugName challengeName ++ "-team-" ++ teamID.repr ++ "-state"

/-- `defaultServicePort`. -/
def defaultServicePort (challengeID : Int) : Int := 10000 + challengeID

/-- `defaultServiceSubnetOctet`. -/
def defaultServiceSubnetOctet (challengeID : Int) : Int :=
  if challengeID ≤ 0 then 1 else challengeID

/-- `validateChallengeRuntimeConfig`. -/
def validateChallengeRuntimeConfig (servicePort serviceSubnetOctet : Int) :
    Except StoreError Unit :=
  if servicePort ≤ 0 ∨ servicePort > 65535 then
    .error (.invalidRuntimeConfig "service_port must be between 1 and 65535")
  else if serviceSubnetOctet ≤ 0 ∨ serviceSubnetOctet > 254 then
    .error (.invalidRuntimeConfig "service_subnet_octet must be between 1 and 254")
  else .ok ()

/-- `strings.Cut` at a colon. -/
def cutColon (s : List Char) : List Char × Option (List Char) :=
  (s.takeWhile (· ≠ ':'), (s.dropWhile (· ≠ ':')).tail?)

/-- `parseEndpoint`: the port is 0 if there is none. -/
def parseEndpoint (endpoint : String) : String × Int :=
  match cutColon (trimSpace endpoint).toList with
  | (_, none) => (trimSpace endpoint, 0)
  | (host, some portText) =>
    let host := trimSpace (String.ofList host)
    (host, (Decimal.atoi (bytes (trimSpace (String.ofList portText)))).getD 0)

/-- A degraded service has to warm up again. -/
def demoteStatus (current : String) : String := if current = "degraded" then "warming" else current

/-- `defaultServiceStateForConfig`: the state of a service that no checker has seen. -/
def defaultServiceStateForConfig (challengeID teamID : Int) (challengeName : String)
    (servicePort serviceSubnetOctet : Int) : ServiceState where
  challengeID
  teamID
  name := challengeName
  endpoint := serviceEndpointFor serviceSubnetOctet servicePort teamID
  status := "stable"
  checker := "passing"
  sshHint := "solve service to generate SSH credential"
  lastEvent := "no patch applied yet"
  resetCooldown := "ready"
  slaStatus := "ok"
  slaMessage := "checker passing; service state detail unavailable"

/-- The images of a challenge that is created without them. -/
def defaultChallengeImages (name : String) : String × String :=
  ("registry.local/" ++ slugName name ++ ":baseline",
    "registry.local/" ++ slugName name ++ "-checker:latest")

/-- `challengeRuntimeStatus`: what the counts of a challenge's services come to. -/
def challengeRuntimeStatus (published : Bool) (totalTeams readyTeams queuedTeams : Nat) : String :=
  if !published then "draft"
  else if queuedTeams > 0 then "deploying"
  else if totalTeams > 0 ∧ readyTeams ≥ totalTeams then "ready"
  else "partial"

/-! ## What the calls of a store do to an instance and to its service state -/

/-- The configuration of a challenge that its instances are made from. -/
structure RuntimeConfig where
  challengeID : Int
  name : String
  baselineImage : String
  checkerImage : String
  servicePort : Int
  serviceSubnetOctet : Int
  deriving DecidableEq, Repr

/-- A new instance of a challenge for a team. -/
def RuntimeConfig.instanceFor (c : RuntimeConfig) (teamID : Int) (job : Option Int)
    (checkerToken : String) (now : Stamp) : ServiceInstanceRecord where
  teamID
  challengeID := c.challengeID
  challengeName := c.name
  runtimeKind := "docker"
  runtimeStatus := .queued
  deploymentJobID := job
  containerName := serviceContainerName c.name teamID
  stateVolume := serviceStateVolumeName c.name teamID
  baselineImage := c.baselineImage
  checkerImage := c.checkerImage
  checkerToken
  endpoint := serviceEndpointFor c.serviceSubnetOctet c.servicePort teamID
  sshHost := serviceIP c.serviceSubnetOctet teamID
  servicePort := c.servicePort
  updatedAt := now

/-- The service state of an instance that waits for its deployment; a database row has no name. -/
def RuntimeConfig.provisioningState (c : RuntimeConfig) (teamID : Int) (lastEvent : String) :
    ServiceState where
  challengeID := c.challengeID
  teamID
  name := c.name
  endpoint := serviceEndpointFor c.serviceSubnetOctet c.servicePort teamID
  status := "provisioning"
  checker := "pending"
  sshHint := "deployment queued; wait for controller reconciliation before unlock"
  lastEvent
  resetCooldown := "deploying"

/-- The service that the row is about. -/
def ServiceInstanceRecord.key (i : ServiceInstanceRecord) : ServiceKey := (i.teamID, i.challengeID)

/-- The row of a service that the controller has started. -/
def ServiceInstanceRecord.markReady (now : Stamp) (i : ServiceInstanceRecord) :
    ServiceInstanceRecord :=
  { i with runtimeStatus := .ready, updatedAt := now }

/-- The instance waits without a deployment job. -/
def ServiceInstanceRecord.standalone (i : ServiceInstanceRecord) : Bool :=
  i.deploymentJobID = none && i.runtimeStatus = .queued

/-- The instance waits for this deployment job. -/
def AdminDeploymentJob.covers (job : AdminDeploymentJob) (k : ServiceKey)
    (i : ServiceInstanceRecord) : Bool :=
  k.2 = job.challengeID && i.deploymentJobID = some job.id && i.runtimeStatus = .queued

/-- The service that the state is about. -/
def ServiceState.key (state : ServiceState) : ServiceKey := (state.teamID, state.challengeID)

/-- A reconcile has deployed the service. -/
def ServiceState.deployed (state : ServiceState) : ServiceState :=
  { state with
    status := "stable"
    checker := "passing"
    sshHint := "solve service to generate SSH credential"
    lastEvent := "baseline deployed by controller reconcile"
    resetCooldown := "ready" }

/-- The service has been queued again. -/
def ServiceState.requeued (lastEvent : String) (state : ServiceState) : ServiceState :=
  { state with
    status := "provisioning"
    checker := "pending"
    unlocked := false
    lastEvent
    resetCooldown := "deploying" }

end ADPlatform.APIGateway
