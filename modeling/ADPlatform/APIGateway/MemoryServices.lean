import ADPlatform.APIGateway.MemoryPlayers

/-! # Services and challenges of the in-memory store

The calls of `memoryStore` that change challenges and the states of services, and the access
policies that it builds for the firewall. A participant's call on a service is checked first
(`validateServiceAction`) and takes the mutex a second time for what it does; the second part is
the function named `…Locked`. -/

namespace ADPlatform.APIGateway
open GameCore (Time Stamp)
open Text

/-- What `UnlockService` answers. -/
structure UnlockData where
  challengeID : Int
  teamID : Int
  unlocked : Bool
  deriving DecidableEq, Repr

/-- What a participant needs to log in to a service. -/
structure SSHSessionData where
  challengeID : Int
  host : String
  port : Int := 22
  username : String := "root"
  passwordMode : String := "stable"
  connectionHint : String
  deriving DecidableEq, Repr

/-- The answer to a reset or a restart. -/
structure ResetData where
  challengeID : Int
  teamID : Int
  action : String
  unlockPreserved : Bool := false
  deriving DecidableEq, Repr

/-- A participant has unlocked the service. -/
def ServiceState.unlock (state : ServiceState) : ServiceState :=
  { state with
    unlocked := true
    status := demoteStatus state.status
    sshHint := "unlock accepted; use SSH Access to view the team credential"
    lastEvent := "unlock granted via participant API" }

/-- The challenge of the service is under maintenance. -/
def ServiceState.maintained (state : ServiceState) : ServiceState :=
  { state with
    status := "degraded"
    checker := "pending"
    unlocked := false
    lastEvent := "challenge under organizer maintenance; unlock proofs rotated"
    resetCooldown := "maintenance" }

/-- The unlock proofs of the challenge have been rotated. -/
def ServiceState.relocked (state : ServiceState) : ServiceState :=
  { state with unlocked := false, lastEvent := "unlock proofs rotated by organizer" }

/-- The epoch after the next rotation. -/
def nextEpoch (epoch : Int) : Int := (if epoch < 1 then 1 else epoch) + 1

namespace MemoryStore

/-- The service's state replaced. -/
def setState (s : MemoryStore) (k : ServiceKey) (state : ServiceState) : MemoryStore :=
  { s with teamStates := s.teamStates.insert k state }

/-- A match counts as started until the game core says otherwise. -/
def isMatchStarted (s : MemoryStore) : Bool := s.matchStarted.getD true

/-- A match counts as running until the game core says otherwise. -/
def isMatchPaused (s : MemoryStore) : Bool := s.matchPaused.getD false

/-! ## What a participant does to a service -/

/-- `validateServiceActionLocked`: the gates that every action on a service goes through. -/
def validateServiceAction (k : ServiceKey) (s : MemoryStore) : Except StoreError Unit :=
  if !s.isMatchStarted then .error .matchNotStarted
  else if s.isMatchPaused then .error .matchPaused
  else if (s.teamStates.lookup k).isNone then .error .challengeNotFound
  else if s.teamDeactivated k.1 then .error .teamNotFound
  else if (s.teams.lookup k.1).any (·.playFromTick > 0) then .error .challengeDeferred
  else match s.challenges.lookup k.2 with
  | none => .error .challengeNotFound
  | some challenge =>
    if !challenge.published then .error .challengeNotFound
    else if challenge.maintenance then .error .challengeMaintenance
    else if challenge.playFromTick > 0 then .error .challengeDeferred
    else match s.instances.lookup k with
    | none => .error .challengeNotFound
    | some i => if i.runtimeStatus ≠ .ready then .error .serviceUnavailable else .ok ()

/-- The call `act` on a service that has passed its check. -/
def validated (k : ServiceKey) (act : MemoryStore → Change MemoryStore α) (s : MemoryStore) :
    Change MemoryStore α :=
  match s.validateServiceAction k with
  | .error e => { store := s, result := .error e }
  | .ok () => act s

/-- The state and the instance of a service that a participant may act on. -/
def readyService (k : ServiceKey) (s : MemoryStore) :
    Except StoreError (ServiceState × ServiceInstanceRecord) :=
  match s.teamStates.lookup k with
  | none => .error .challengeNotFound
  | some state =>
    if (s.challenges.lookup k.2).all fun challenge => !challenge.published then
      .error .challengeNotFound
    else match s.instances.lookup k with
    | none => .error .challengeNotFound
    | some i => if i.runtimeStatus ≠ .ready then .error .serviceUnavailable else .ok (state, i)

/-- `UnlockService` behind the gates. -/
def unlockServiceLocked (k : ServiceKey) (s : MemoryStore) : Change MemoryStore UnlockData :=
  match s.teamStates.lookup k with
  | none => { store := s, result := .error .challengeNotFound }
  | some state =>
    match s.challenges.lookup k.2 with
    | none => { store := s, result := .error .challengeNotFound }
    | some challenge =>
      if challenge.maintenance then { store := s, result := .error .challengeMaintenance }
      else if challenge.playFromTick > 0 then { store := s, result := .error .challengeDeferred }
      else if !challenge.published then { store := s, result := .error .challengeNotFound }
      else match s.instances.lookup k with
      | none => { store := s, result := .error .challengeNotFound }
      | some i =>
        if i.runtimeStatus ≠ .ready then { store := s, result := .error .serviceUnavailable }
        else
          { store := s.setState k state.unlock
            result := .ok { challengeID := k.2, teamID := k.1, unlocked := true } }

/-- `UnlockService`. -/
def unlockService (k : ServiceKey) : MemoryStore → Change MemoryStore UnlockData :=
  validated k (unlockServiceLocked k)

/-- `CreateSSHSession` behind the gates: only for an unlocked service. -/
def createSSHSessionLocked (k : ServiceKey) (s : MemoryStore) : Change MemoryStore SSHSessionData :=
  match s.readyService k with
  | .error e => { store := s, result := .error e }
  | .ok (state, _) =>
    if !state.unlocked then { store := s, result := .error .serviceLocked }
    else
      let host := (parseEndpoint state.endpoint).1
      let connectionHint := "ssh root@" ++ host
      { store := s.setState k { state with
          sshHint := connectionHint, lastEvent := "team ssh credential retrieved" }
        result := .ok { challengeID := k.2, host, connectionHint } }

/-- `CreateSSHSession`. -/
def createSSHSession (k : ServiceKey) : MemoryStore → Change MemoryStore SSHSessionData :=
  validated k (createSSHSessionLocked k)

/-- A call that only needs the state of the service to be there. -/
def updateState (k : ServiceKey) (f : ServiceState → ServiceState) (answer : ServiceState → α)
    (s : MemoryStore) : Change MemoryStore α :=
  match s.teamStates.lookup k with
  | none => { store := s, result := .error .challengeNotFound }
  | some state => { store := s.setState k (f state), result := .ok (answer state) }

/-- `MarkSSHSessionApplyFailure`. -/
def markSSHSessionApplyFailure (k : ServiceKey) : MemoryStore → Change MemoryStore Unit :=
  updateState k (fun state => { state with
    sshHint := "credential apply failed; open SSH Access to retry applying the team credential"
    lastEvent := "ssh credential apply failed" }) fun _ => ()

/-- `PrepareFactoryResetService` behind the gates: the checker's token is renewed. -/
def prepareFactoryResetServiceLocked (k : ServiceKey) (input : StoreInput) (s : MemoryStore) :
    Change MemoryStore ResetData :=
  match s.readyService k with
  | .error e => { store := s, result := .error e }
  | .ok (state, i) =>
    match input.newCheckerToken 0 with
    | .error e => { store := s, result := .error e }
    | .ok checkerToken =>
      { store := s.setService k { i with checkerToken } { state with
          status := "resetting"
          checker := "warning"
          lastEvent := "factory reset started via participant API"
          resetCooldown := "resetting" }
        result := .ok { challengeID := k.2, teamID := k.1, action := "factory_reset"
                        unlockPreserved := state.unlocked } }

/-- `PrepareFactoryResetService`. -/
def prepareFactoryResetService (k : ServiceKey) (input : StoreInput) :
    MemoryStore → Change MemoryStore ResetData :=
  validated k (prepareFactoryResetServiceLocked k input)

/-- `CompleteFactoryResetService`. -/
def completeFactoryResetService (k : ServiceKey) : MemoryStore → Change MemoryStore ResetData :=
  updateState k (fun state => { state with
      status := "warming"
      checker := "warning"
      lastEvent := "factory reset completed; waiting for checker verification"
      resetCooldown := "cooldown: 90s"
      sshHint := if state.unlocked then
        "unlock preserved; open SSH Access to reapply the team credential" else state.sshHint })
    fun state => { challengeID := k.2, teamID := k.1, action := "factory_reset"
                   unlockPreserved := state.unlocked }

/-- `MarkFactoryResetFailure`. -/
def markFactoryResetFailure (k : ServiceKey) : MemoryStore → Change MemoryStore Unit :=
  updateState k (fun state => { state with
    status := "degraded"
    checker := "warning"
    lastEvent := "factory reset runtime failed"
    resetCooldown := "ready" }) fun _ => ()

/-- `RestartService` behind the gates. -/
def restartServiceLocked (k : ServiceKey) (s : MemoryStore) : Change MemoryStore ResetData :=
  match s.readyService k with
  | .error e => { store := s, result := .error e }
  | .ok (state, _) =>
    { store := s.setState k { state with
        status := "warming"
        checker := "warning"
        lastEvent := "service restart completed; waiting for checker verification"
        resetCooldown := "cooldown: 30s" }
      result := .ok { challengeID := k.2, teamID := k.1, action := "restart" } }

/-- `RestartService`. -/
def restartService (k : ServiceKey) : MemoryStore → Change MemoryStore ResetData :=
  validated k (restartServiceLocked k)

/-! ## Challenges -/

/-- The challenge id is used up even where the call fails later. -/
def createAdminChallenge (T : CaseTable) (request : AdminCreateChallengeRequest)
    (input : StoreInput)
    (s : MemoryStore) : Change MemoryStore AdminChallenge :=
  let name := trimSpace request.name
  if name = "" then { store := s, result := .error .duplicateResource }
  else if s.challenges.pairs.any fun (_, challenge) => T.equalFold challenge.name name then
    { store := s, result := .error .duplicateResource }
  else
    let images := defaultChallengeImages name
    let baselineImage := trimSpace request.baselineImage
    let checkerImage := trimSpace request.checkerImage
    let id := s.nextChallengeID
    let numbered := { s with nextChallengeID := id + 1 }
    let servicePort :=
      if request.servicePort ≤ 0 then defaultServicePort id else request.servicePort
    let serviceSubnetOctet := if request.serviceSubnetOctet ≤ 0 then defaultServiceSubnetOctet id
      else request.serviceSubnetOctet
    match validateChallengeRuntimeConfig servicePort serviceSubnetOctet with
    | .error e => { store := numbered, result := .error e }
    | .ok () =>
      match (input.rt.range 0 s.challenges.pairs).find? fun (existingID, challenge) =>
          existingID ≠ id && challenge.serviceSubnetOctet = serviceSubnetOctet with
      | some (_, taken) =>
        { store := numbered
          result :=
            .error (.invalidRuntimeConfig ("service_subnet_octet " ++ serviceSubnetOctet.repr ++
            " is already assigned to challenge " ++ taken.id.repr)) }
      | none =>
        let challenge : AdminChallenge := {
          id, name
          baselineImage := if baselineImage = "" then images.1 else baselineImage
          checkerImage := if checkerImage = "" then images.2 else checkerImage
          servicePort, serviceSubnetOctet
          egressEnabled := request.egressEnabled.getD true
          published := false
          unlockProofEpoch := 1
          totalTeams := s.teams.pairs.length
          runtimeStatus := "draft"
          createdAt := input.now.formatRFC3339 }
        { store := { numbered with challenges := s.challenges.insert id challenge }
          result := .ok challenge }

/-- `UpdateAdminChallenge`: a blank field keeps its value. -/
def updateAdminChallenge (challengeID : Int) (request : AdminUpdateChallengeRequest)
    (s : MemoryStore) : Change MemoryStore AdminChallenge :=
  match s.challenges.lookup challengeID with
  | none => { store := s, result := .error .challengeNotFound }
  | some challenge =>
    let given (value current : String) := if trimSpace value ≠ "" then trimSpace value else current
    let updated := { challenge with
      name := given request.name challenge.name
      baselineImage := given request.baselineImage challenge.baselineImage
      checkerImage := given request.checkerImage challenge.checkerImage
      egressEnabled := request.egressEnabled.getD challenge.egressEnabled }
    { store := { s with challenges := s.challenges.insert challengeID updated }
      result := .ok updated }

/-- `DeleteAdminChallenge`: the services of the challenge go with it. -/
def deleteAdminChallenge (challengeID : Int) (s : MemoryStore) : Change MemoryStore Unit :=
  match s.challenges.lookup challengeID with
  | none => { store := s, result := .error .challengeNotFound }
  | some _ =>
    { store := { s with
        challenges := s.challenges.erase challengeID
        teamStates := s.teamStates.filterKeys fun k => k.2 ≠ challengeID
        instances := s.instances.filterKeys fun k => k.2 ≠ challengeID }
      result := .ok () }

/-- `DeleteAdminDeployment`: refused while a service of the job is queued; the others lose the
job. -/
def deleteAdminDeployment (deploymentID : Int) (s : MemoryStore) : Change MemoryStore Unit :=
  let belongs (i : ServiceInstanceRecord) : Bool := i.deploymentJobID = some deploymentID
  if (s.deployments.lookup deploymentID).isNone then
    { store := s, result := .error .deploymentNotFound }
  else if s.instances.pairs.any fun (_, i) => belongs i && i.runtimeStatus = .queued then
    { store := s, result := .error .deploymentActive }
  else
    { store := { s with
        deployments := s.deployments.erase deploymentID
        instances := s.instances.mapValues fun _ i =>
          if belongs i then { i with deploymentJobID := none } else i }
      result := .ok () }

/-- The challenge with its counts, as it goes into the store and into the answer. -/
def counted (s : MemoryStore) (challengeID : Int) (challenge : AdminChallenge) : AdminChallenge :=
  let totalTeams := s.teams.pairs.length
  let readyTeams := s.teamsForChallenge challengeID (· = .ready)
  let queuedTeams := s.teamsForChallenge challengeID (· = .queued)
  { challenge with
    totalTeams, readyTeams, queuedTeams
    deployedTeams := s.teamsForChallenge challengeID fun _ => true
    runtimeStatus := challengeRuntimeStatus challenge.published totalTeams readyTeams queuedTeams }

/-- A new version of a challenge, and its answer. -/
def putChallenge (s : MemoryStore) (challengeID : Int) (challenge : AdminChallenge) :
    Change MemoryStore AdminChallenge where
  store :=
    { s with challenges := s.challenges.insert challengeID (s.counted challengeID challenge) }
  result := .ok (s.counted challengeID challenge)

/-- The states of the services of a challenge after `f`. -/
def mapStates (challengeID : Int) (f : ServiceState → ServiceState) (s : MemoryStore) :
    MemoryStore :=
  { s with teamStates := s.teamStates.mapValues fun k state =>
      if k.2 = challengeID then f state else state }

/-- `SetChallengeMaintenance`: a return to the game starts with the next tick. -/
def setChallengeMaintenance (challengeID : Int) (maintenance : Bool) (now : Time)
    (s : MemoryStore) :
    Change MemoryStore AdminChallenge :=
  match s.challenges.lookup challengeID with
  | none => { store := s, result := .error .challengeNotFound }
  | some challenge =>
    if maintenance then
      let stopped := { s with instances := s.instances.mapValues fun k i =>
        if k.2 = challengeID then
          { i with runtimeStatus := .stopped, updatedAt := now.formatRFC3339 }
        else i }
      (stopped.mapStates challengeID ServiceState.maintained).putChallenge challengeID
        { challenge with
          maintenance
          maintenanceAt := now.formatRFC3339
          playFromTick := 0
          unlockProofEpoch := nextEpoch challenge.unlockProofEpoch }
    else
      s.putChallenge challengeID
        { challenge with maintenance, maintenanceAt := none, playFromTick := 0 }

/-- `GetChallengeUnlockProofEpoch`: an epoch below 1 counts as 1. -/
def getChallengeUnlockProofEpoch (challengeID : Int) (s : MemoryStore) : Except StoreError Int :=
  match s.challenges.lookup challengeID with
  | none => .error .challengeNotFound
  | some challenge => .ok (if challenge.unlockProofEpoch < 1 then 1 else challenge.unlockProofEpoch)

/-- `RotateChallengeUnlockProof`: every team has to unlock again. -/
def rotateChallengeUnlockProof (challengeID : Int) (s : MemoryStore) :
    Change MemoryStore AdminChallenge :=
  match s.challenges.lookup challengeID with
  | none => { store := s, result := .error .challengeNotFound }
  | some challenge =>
    (s.mapStates challengeID ServiceState.relocked).putChallenge challengeID
      { challenge with unlockProofEpoch := nextEpoch challenge.unlockProofEpoch }

/-! ## Access policies -/

/-- No participant reaches the service. -/
def networkClosed (s : MemoryStore) (k : ServiceKey) : Bool :=
  s.teamDeactivated k.1 || !s.isMatchStarted || s.isMatchPaused ||
    (s.teams.lookup k.1).any (·.playFromTick > 0) ||
    (s.challenges.lookup k.2).any fun challenge =>
      challenge.maintenance || challenge.playFromTick > 0

/-- The firewall lets the peer of this player through to the SSH port of the service. -/
def peerAllowed (s : MemoryStore) (k : ServiceKey) (state : ServiceState)
    (record : AdminPlayerRecord) : Bool :=
  record.wireGuard.status ≠ .revoked && !s.playerDeactivated record.player.id &&
    (record.player.role = .organizer ||
      (!s.networkClosed k && record.player.teamID = k.1 && state.unlocked))

/-- `buildAccessPolicyLocked`: who may reach the service, in the order of their addresses. -/
def buildAccessPolicy (rt : Go.Runtime) (s : MemoryStore) (k : ServiceKey) (state : ServiceState) :
    ControllerServiceAccessPolicy :=
  let (serviceIP, servicePort) := parseEndpoint state.endpoint
  let peers := (rt.range 0 s.players.pairs).filter fun (_, record) => s.peerAllowed k state record
  let allowed := (rt.sortSlice (fun a b => a < b)
    (peers.map fun (_, record) => record.wireGuard.address)).destutter (· ≠ ·)
  let closed := s.networkClosed k
  { teamID := k.1
    teamName := s.teamNameForID k.1
    challengeID := k.2
    challengeName := state.name
    serviceIP, servicePort
    sshPort := 22
    sshUnlocked := (state.unlocked && !closed) || (closed && allowed.length > 0)
    allowedPeerAddresses := allowed
    egressEnabled := ((s.challenges.lookup k.2).map (·.egressEnabled)).getD true
    networkClosed := closed }

/-- `ListControllerServiceAccessPolicies`: ordered by challenge and team. -/
def listControllerServiceAccessPolicies (rt : Go.Runtime) (s : MemoryStore) :
    List ControllerServiceAccessPolicy :=
  let before (a b : ControllerServiceAccessPolicy) : Bool :=
    if a.challengeID ≠ b.challengeID then a.challengeID < b.challengeID else a.teamID < b.teamID
  rt.sortSlice before ((rt.range 0 s.teamStates.pairs).map fun (k, state) =>
    s.buildAccessPolicy rt k state)

end MemoryStore

end ADPlatform.APIGateway
