import ADPlatform.APIGateway.MemoryServices
import ADPlatform.Lib.Runs

/-! # Runs of the in-memory store

`NewMemoryStore`, and every call that changes a store. A call holds the mutex from start to end, so
what happens to a store is a list of calls. Of a participant's call on a service only the part
behind its check is one: the check only reads, and other calls may come between the two. -/

namespace ADPlatform.APIGateway
open GameCore (Time Stamp)
open Text

/-! ## The first store -/

/-- `mustNewAdminPlayerRecord`; an error is a panic. -/
def mustNewAdminPlayerRecord (id teamID : Int) (teamName displayName email : String) (role : Role)
    (createdAt : Time) (input : WireGuardInput) : Except StoreError AdminPlayerRecord := do
  let wireGuardPeer := wireguardPeerName teamID id
  let wireGuard ← { input with now := createdAt }.newWireGuardPeerState id teamID
    teamName displayName
    wireGuardPeer (wireGuardPeerAddressAt (max (id - 1) 0).toNat)
  let player : AdminPlayer := {
    id, teamID, teamName, displayName, email, role, wireGuardPeer
    createdAt := createdAt.formatRFC3339 }
  return AdminPlayerRecord.setPeer { player, sessionVersion := 1 } wireGuard

/-- The four teams of the demo. -/
def seedTeams : List AdminTeam :=
  [{ id := 101, name := "Team Alpha", contactEmail := "team-alpha@example.com"
     joinKey := "TEAM-ALPHA-JOIN" },
   { id := 102, name := "Team Delta", contactEmail := "team-delta@example.com"
     joinKey := "TEAM-DELTA-JOIN" },
   { id := 103, name := "Team Sigma", contactEmail := "team-sigma@example.com"
     joinKey := "TEAM-SIGMA-JOIN" },
   { id := 104, name := "Team Orchid", contactEmail := "team-orchid@example.com"
     joinKey := "TEAM-ORCHID-JOIN" }]

/-- The team of the configuration, where it is none of the seeded ones. -/
def configuredTeam (teamID : Int) : AdminTeam where
  id := teamID
  name := "Team " ++ teamID.repr
  contactEmail := "team-" ++ teamID.repr ++ "@example.com"
  joinKey := "TEAM-" ++ teamID.repr ++ "-JOIN"

/-- The demo's teams, and the configured one if it is another. -/
def firstTeams (teamID : Int) : List AdminTeam :=
  if teamID ∈ seedTeams.map (·.id) then seedTeams else seedTeams ++ [configuredTeam teamID]

/-- Hours, in the unit of the clock. -/
def hours (n : Int) : Time := n * 3600 * 1000000000

/-- The captains of the seeded teams. -/
def seedPlayers (now : Time) (input : Int → WireGuardInput) :
    Except StoreError (List AdminPlayerRecord) := do
  let alpha ← mustNewAdminPlayerRecord 1 101 "Team Alpha" "Alpha Captain"
    "alpha.captain@example.com"
    .captain (now - hours 72) (input 1)
  let delta ← mustNewAdminPlayerRecord 2 102 "Team Delta" "Delta Captain"
    "delta.captain@example.com"
    .captain (now - hours 71) (input 2)
  let sigma ← mustNewAdminPlayerRecord 3 103 "Team Sigma" "Sigma Captain"
    "sigma.captain@example.com"
    .captain (now - hours 70) (input 3)
  let orchid ← mustNewAdminPlayerRecord 4 104 "Team Orchid" "Orchid Captain"
    "orchid.captain@example.com" .captain (now - hours 69) (input 4)
  return [alpha, delta, sigma, orchid]

/-- A seeded challenge with the settings that all of them share. -/
def seedChallenge (id : Int) (name baselineImage checkerImage : String) (createdAt : Time) :
    AdminChallenge where
  id
  name
  baselineImage
  checkerImage
  servicePort := defaultServicePort id
  serviceSubnetOctet := defaultServiceSubnetOctet id
  egressEnabled := true
  published := true
  unlockProofEpoch := 1
  createdAt := createdAt.formatRFC3339

/-- The three challenges of the demo. -/
def seedChallenges (now : Time) : List AdminChallenge :=
  [seedChallenge 1 "banking" "registry.local/banking:baseline"
    "registry.local/banking-checker:latest"
     (now - hours 48),
   seedChallenge 2 "chat" "registry.local/chat:baseline" "registry.local/chat-checker:latest"
     (now - hours 47),
   seedChallenge 3 "storage" "registry.local/storage:baseline"
     "registry.local/storage-checker:latest"
     (now - hours 46)]

/-- A service of the first store is deployed already. -/
def seedInstance (now : Time) (teamID : Int) (c : AdminChallenge) : ServiceInstanceRecord :=
  { (c.runtimeConfig c.id).instanceFor teamID none
      ("dev-checker-token-" ++ teamID.repr ++ "-" ++ c.id.repr) now.formatRFC3339 with
    runtimeStatus := .ready }

namespace MemoryStore

/-- `NewMemoryStore`: the store a gateway without a database starts with. -/
def newMemoryStore (teamID : Int) (now : Time) (input : Int → WireGuardInput) :
    Except StoreError MemoryStore := do
  let players ← seedPlayers now input
  let teams := firstTeams teamID
  let services := teams.flatMap fun team => (seedChallenges now).map fun c => (team.id, c)
  let row (delta : String) (i : Nat) (team : AdminTeam) : ScoreRow :=
    { rank := i + 1, team := team.name, delta }
  return {
    teamNames := Go.Map.fill (·.id) (·.name) teams ∅
    teams := Go.Map.fill (·.id) id teams ∅
    players := Go.Map.fill (·.player.id) id players ∅
    challenges := Go.Map.fill (·.id) id (seedChallenges now) ∅
    teamStates := Go.Map.fill (fun (t, c) => (t, c.id)) (fun (t, c) =>
      defaultServiceStateForConfig c.id t c.name c.servicePort c.serviceSubnetOctet) services ∅
    instances :=
      Go.Map.fill (fun (t, c) => (t, c.id)) (fun (t, c) => seedInstance now t c) services ∅
    scoreboard :=
      teams.mapIdx fun i team => row (if i < seedTeams.length then "0" else "new") i team
    platformSettings :=
      { flagFormatPrefix := "PLAYIT", flagFormatActive := "PLAYIT", maxTeamMembers := 3
        updatedBy := "system" }
    nextPlayerID := 5
    nextChallengeID := 4
    nextDeploymentID := 1 }

/-- The id, the team and the email of each seeded player. -/
def seedAccounts : List (Int × Int × String) :=
  [(1, 101, "alpha.captain@example.com"), (2, 102, "delta.captain@example.com"),
   (3, 103, "sigma.captain@example.com"), (4, 104, "orchid.captain@example.com")]

theorem mustNewAdminPlayerRecord_ok {id teamID : Int} {teamName displayName email : String}
    {role : Role} {createdAt : Time} {input : WireGuardInput} {record : AdminPlayerRecord}
    (h : mustNewAdminPlayerRecord id teamID teamName displayName email role createdAt input
      = .ok record) :
    record.player.id = id ∧ record.player.teamID = teamID ∧ record.player.email = email ∧
      record.player.role = role ∧ { input with now := createdAt }.newWireGuardPeerState id teamID
        teamName displayName (wireguardPeerName teamID id)
        (wireGuardPeerAddressAt (max (id - 1) 0).toNat) = .ok record.wireGuard := by
  obtain ⟨state, hstate, h⟩ := exists_of_bind_eq_ok h
  cases h
  exact ⟨rfl, rfl, rfl, rfl, hstate⟩

/-- What `NewMemoryStore` says about a seeded player. -/
structure Seeded (input : Int → WireGuardInput) (record : AdminPlayerRecord) : Prop where
  account : (record.player.id, record.player.teamID, record.player.email) ∈ seedAccounts
  role : record.player.role = .captain
  peer : ∃ (now : Time) (teamName displayName peer : String),
    { input record.player.id with now }.newWireGuardPeerState record.player.id record.player.teamID
      teamName displayName peer (wireGuardPeerAddressAt (max (record.player.id - 1) 0).toNat)
        = .ok record.wireGuard

theorem Seeded.of_ok {input : Int → WireGuardInput} {id teamID : Int}
    {teamName displayName email : String} {createdAt : Time} {record : AdminPlayerRecord}
    (h : mustNewAdminPlayerRecord id teamID teamName displayName email .captain createdAt (input id)
      = .ok record) (haccount : (id, teamID, email) ∈ seedAccounts) : Seeded input record := by
  obtain ⟨hid, hteam, hemail, hrole, hpeer⟩ := mustNewAdminPlayerRecord_ok h
  refine ⟨?_, hrole, ?_⟩
  · rw [hid, hteam, hemail]
    exact haccount
  · rw [hid, hteam]
    exact ⟨createdAt, teamName, displayName, _, hpeer⟩

theorem seedPlayers_ok {now : Time} {input : Int → WireGuardInput}
    {players : List AdminPlayerRecord}
    (h : seedPlayers now input = .ok players) : ∀ record ∈ players, Seeded input record := by
  unfold seedPlayers at h
  obtain ⟨alpha, halpha, h⟩ := exists_of_bind_eq_ok h
  obtain ⟨delta, hdelta, h⟩ := exists_of_bind_eq_ok h
  obtain ⟨sigma, hsigma, h⟩ := exists_of_bind_eq_ok h
  obtain ⟨orchid, horchid, h⟩ := exists_of_bind_eq_ok h
  cases h
  intro record hrecord
  simp only [List.mem_cons, List.not_mem_nil, or_false] at hrecord
  rcases hrecord with rfl | rfl | rfl | rfl
  · exact .of_ok halpha (by simp [seedAccounts])
  · exact .of_ok hdelta (by simp [seedAccounts])
  · exact .of_ok hsigma (by simp [seedAccounts])
  · exact .of_ok horchid (by simp [seedAccounts])

/-- The players of a first store are the seeded ones. -/
theorem seeded_newMemoryStore {teamID : Int} {now : Time} {input : Int → WireGuardInput}
    {s : MemoryStore} (h : newMemoryStore teamID now input = .ok s) {p : Int}
    {record : AdminPlayerRecord} (hp : s.players.lookup p = some record) :
    Seeded input record ∧ record.player.id = p := by
  obtain ⟨players, hplayers, h⟩ := exists_of_bind_eq_ok h
  cases h
  rcases Go.Map.exists_of_lookup_fill hp with ⟨record, hrecord, rfl, rfl⟩ | hp
  · exact ⟨seedPlayers_ok hplayers record hrecord, rfl⟩
  · cases hp

/-- A store before its first call: an empty one, or one that `NewMemoryStore` has made. -/
def Initial (s : MemoryStore) : Prop :=
  s = {} ∨ ∃ teamID now input, newMemoryStore teamID now input = .ok s

/-! ## The calls -/

/-- `SetActiveFlagFormat`: a blank format means the prefix. -/
def setActiveFlagFormat (format : String) (now : Time) (s : MemoryStore) :
    Change MemoryStore AdminPlatformSettings :=
  let active := trimSpace format
  let settings := { s.platformSettings with
    flagFormatActive := if active = "" then s.platformSettings.flagFormatPrefix else active
    updatedAt := now.formatRFC3339 }
  { store := { s with platformSettings := settings }, result := .ok settings }

end MemoryStore

/-- A call on the store, with what its surroundings decide about it. -/
inductive MemoryCall where
  | registerPlayer (request : ParticipantRegisterRequest) (now : Time)
  | updateParticipantProfile (playerID : Int) (request : ParticipantUpdateProfileRequest)
  | createAdminPlayer (request : AdminCreatePlayerRequest) (input : WireGuardInput)
  | joinExistingPlayerTeam (playerID : Int) (teamKey : String) (input : WireGuardInput)
  | transferTeamCaptain (captainPlayerID targetPlayerID : Int)
  | getAdminPlayerWireGuardConfig (playerID : Int) (input : WireGuardInput)
  | rotateAdminPlayerWireGuardConfig (playerID : Int) (input : WireGuardInput)
  | revokeAdminPlayerWireGuardConfig (playerID : Int) (now : Time)
  | listWireGuardGatewayPeers (rt : Go.Runtime)
  | deleteAdminPlayer (playerID : Int)
  | updateAdminPlayer (playerID : Int) (request : AdminUpdatePlayerRequest)
  | setPlayerActive (playerID : Int) (active : Bool)
  | createAdminTeam (request : AdminCreateTeamRequest) (input : StoreInput)
  | deleteAdminTeam (teamID : Int)
  | updateAdminTeam (teamID : Int) (request : AdminUpdateTeamRequest)
  | setTeamActive (teamID : Int) (active : Bool)
  | createAdminChallenge (request : AdminCreateChallengeRequest) (input : StoreInput)
  | updateAdminChallenge (challengeID : Int) (request : AdminUpdateChallengeRequest)
  | deleteAdminChallenge (challengeID : Int)
  | setChallengeMaintenance (challengeID : Int) (maintenance : Bool) (now : Time)
  | rotateChallengeUnlockProof (challengeID : Int)
  | deployAdminChallenge (challengeID : Int) (input : StoreInput)
  | deleteAdminDeployment (deploymentID : Int)
  | reconcileAdminDeployments (input : StoreInput)
  | requeueTeamServices (teamID : Int) (input : StoreInput)
  | requeueChallengeServices (challengeID : Int) (input : StoreInput)
  | unlockService (k : ServiceKey)
  | createSSHSession (k : ServiceKey)
  | markSSHSessionApplyFailure (k : ServiceKey)
  | prepareFactoryResetService (k : ServiceKey) (input : StoreInput)
  | completeFactoryResetService (k : ServiceKey)
  | markFactoryResetFailure (k : ServiceKey)
  | restartService (k : ServiceKey)
  | updatePlatformSettings (request : AdminUpdatePlatformSettingsRequest) (actor : String)
      (now : Time)
  | setActiveFlagFormat (format : String) (now : Time)
  | setMatchStarted (started : Bool)
  | setMatchPaused (paused : Bool)

namespace MemoryStore

/-- The store after a call. -/
def exec (T : CaseTable) (call : MemoryCall) (s : MemoryStore) : MemoryStore :=
  match call with
  | .registerPlayer request now => (s.registerPlayer T request now).store
  | .updateParticipantProfile playerID request =>
    (s.updateParticipantProfile T playerID request).store
  | .createAdminPlayer request input => (s.createAdminPlayer T request input).store
  | .joinExistingPlayerTeam playerID teamKey input =>
    (s.joinExistingPlayerTeam T playerID teamKey input).store
  | .transferTeamCaptain captainPlayerID targetPlayerID =>
    (s.transferTeamCaptain captainPlayerID targetPlayerID).store
  | .getAdminPlayerWireGuardConfig playerID input =>
    (s.getAdminPlayerWireGuardConfig playerID input).store
  | .rotateAdminPlayerWireGuardConfig playerID input =>
    (s.rotateAdminPlayerWireGuardConfig playerID input).store
  | .revokeAdminPlayerWireGuardConfig playerID now =>
    (s.revokeAdminPlayerWireGuardConfig playerID now).store
  | .listWireGuardGatewayPeers rt => (s.listWireGuardGatewayPeers rt).store
  | .deleteAdminPlayer playerID => (s.deleteAdminPlayer playerID).store
  | .updateAdminPlayer playerID request => (s.updateAdminPlayer T playerID request).store
  | .setPlayerActive playerID active => (s.setPlayerActive playerID active).store
  | .createAdminTeam request input => (s.createAdminTeam T request input).store
  | .deleteAdminTeam teamID => (s.deleteAdminTeam teamID).store
  | .updateAdminTeam teamID request => (s.updateAdminTeam T teamID request).store
  | .setTeamActive teamID active => (s.setTeamActive teamID active).store
  | .createAdminChallenge request input => (s.createAdminChallenge T request input).store
  | .updateAdminChallenge challengeID request => (s.updateAdminChallenge challengeID request).store
  | .deleteAdminChallenge challengeID => (s.deleteAdminChallenge challengeID).store
  | .setChallengeMaintenance challengeID maintenance now =>
    (s.setChallengeMaintenance challengeID maintenance now).store
  | .rotateChallengeUnlockProof challengeID => (s.rotateChallengeUnlockProof challengeID).store
  | .deployAdminChallenge challengeID input => (s.deployAdminChallenge challengeID input).store
  | .deleteAdminDeployment deploymentID => (s.deleteAdminDeployment deploymentID).store
  | .reconcileAdminDeployments input => (s.reconcileAdminDeployments input).store
  | .requeueTeamServices teamID input => (s.requeueTeamServices teamID input).store
  | .requeueChallengeServices challengeID input =>
    (s.requeueChallengeServices challengeID input).store
  | .unlockService k => (s.unlockServiceLocked k).store
  | .createSSHSession k => (s.createSSHSessionLocked k).store
  | .markSSHSessionApplyFailure k => (s.markSSHSessionApplyFailure k).store
  | .prepareFactoryResetService k input => (s.prepareFactoryResetServiceLocked k input).store
  | .completeFactoryResetService k => (s.completeFactoryResetService k).store
  | .markFactoryResetFailure k => (s.markFactoryResetFailure k).store
  | .restartService k => (s.restartServiceLocked k).store
  | .updatePlatformSettings request actor now => (s.updatePlatformSettings request actor now).store
  | .setActiveFlagFormat format now => (s.setActiveFlagFormat format now).store
  | .setMatchStarted started => s.setMatchStarted started
  | .setMatchPaused paused => s.setMatchPaused paused

end MemoryStore

/-! ## Calls that leave teams and players alone -/

/-- The call changes challenges, services, deployments or settings only. -/
def MemoryCall.onServices : MemoryCall → Bool
  | registerPlayer .. | updateParticipantProfile .. | createAdminPlayer ..
  | joinExistingPlayerTeam ..
  | transferTeamCaptain .. | getAdminPlayerWireGuardConfig .. | rotateAdminPlayerWireGuardConfig ..
  | revokeAdminPlayerWireGuardConfig .. | listWireGuardGatewayPeers .. | deleteAdminPlayer ..
  | updateAdminPlayer .. | setPlayerActive .. | createAdminTeam .. | deleteAdminTeam ..
  | updateAdminTeam .. | setTeamActive .. => false
  | _ => true

/-- What a store holds about teams and players. -/
structure Accounts where
  teamNames : Go.Map Int String
  teams : Go.Map Int AdminTeam
  players : Go.Map Int AdminPlayerRecord
  deactivatedTeams : Go.Map Int Bool
  deactivatedPlayers : Go.Map Int Bool
  scoreboard : List ScoreRow
  nextPlayerID : Int

namespace MemoryStore
variable {s : MemoryStore}

/-- The part of the store that holds the accounts. -/
def accounts (s : MemoryStore) : Accounts :=
  ⟨s.teamNames, s.teams, s.players, s.deactivatedTeams, s.deactivatedPlayers, s.scoreboard,
    s.nextPlayerID⟩

theorem accounts_deployTeams {config : RuntimeConfig} {jobID : Int} {input : StoreInput} {n : Nat}
    {teams : List Int} {done : List ServiceKey} :
    (deployTeams config jobID input n teams s done).store.accounts = s.accounts := by
  induction teams generalizing n s done with
  | nil => rfl
  | cons team teams ih =>
    unfold deployTeams
    split
    · rfl
    · rw [ih]
      rfl

theorem accounts_deployAdminChallenge {challengeID : Int} {input : StoreInput} :
    (s.deployAdminChallenge challengeID input).store.accounts = s.accounts := by
  unfold deployAdminChallenge
  split
  · rfl
  · dsimp only
    split
    · refine accounts_deployTeams.trans ?_
      split <;> rfl
    · refine Eq.trans (b := accounts (Change.store _)) rfl (accounts_deployTeams.trans ?_)
      split <;> rfl

theorem accounts_joinChallenges {teamID : Int} {input : StoreInput} {n : Nat}
    {challenges : List (Int × AdminChallenge)} {done : List ServiceKey} :
    (joinChallenges teamID input n challenges s done).store.accounts = s.accounts := by
  induction challenges generalizing n s done with
  | nil => rfl
  | cons entry challenges ih =>
    unfold joinChallenges
    dsimp only
    split
    · rfl
    · rw [ih]
      rfl

theorem accounts_refreshAll {challengeIDs : List Int} :
    (challengeIDs.foldl (fun s c => s.refreshChallenge c) s).accounts = s.accounts := by
  induction challengeIDs generalizing s with
  | nil => rfl
  | cons c challengeIDs ih => exact ih

theorem accounts_reconcileJobs {now : Stamp} {jobs : List (Int × AdminDeploymentJob)}
    {acc : MemoryStore × AdminReconcileResult} :
    (jobs.foldl (reconcileJob now) acc).1.accounts = acc.1.accounts := by
  induction jobs generalizing acc with
  | nil => rfl
  | cons job jobs ih => exact ih

theorem accounts_reconcileAdminDeployments {input : StoreInput} :
    (s.reconcileAdminDeployments input).store.accounts = s.accounts :=
  accounts_refreshAll.trans accounts_reconcileJobs

/-- A call on services, challenges, deployments or settings leaves teams and players alone. -/
theorem accounts_exec {T : CaseTable} {call : MemoryCall} (h : call.onServices = true) :
    (s.exec T call).accounts = s.accounts := by
  cases call with
  | registerPlayer | updateParticipantProfile | createAdminPlayer | joinExistingPlayerTeam
  | transferTeamCaptain | getAdminPlayerWireGuardConfig | rotateAdminPlayerWireGuardConfig
  | revokeAdminPlayerWireGuardConfig | listWireGuardGatewayPeers | deleteAdminPlayer
  | updateAdminPlayer | setPlayerActive | createAdminTeam | deleteAdminTeam | updateAdminTeam
  | setTeamActive => cases h
  | deployAdminChallenge => exact accounts_deployAdminChallenge
  | reconcileAdminDeployments => exact accounts_reconcileAdminDeployments
  | requeueTeamServices | setActiveFlagFormat | setMatchStarted | setMatchPaused => rfl
  | createAdminChallenge request input =>
    simp only [exec, createAdminChallenge]
    repeat' split
    all_goals rfl
  | updateAdminChallenge challengeID =>
    simp only [exec, updateAdminChallenge]
    split <;> rfl
  | deleteAdminChallenge challengeID =>
    simp only [exec, deleteAdminChallenge]
    split <;> rfl
  | setChallengeMaintenance challengeID maintenance =>
    simp only [exec, setChallengeMaintenance]
    repeat' split
    all_goals rfl
  | rotateChallengeUnlockProof challengeID =>
    simp only [exec, rotateChallengeUnlockProof]
    split <;> rfl
  | deleteAdminDeployment deploymentID =>
    simp only [exec, deleteAdminDeployment]
    repeat' split
    all_goals rfl
  | requeueChallengeServices challengeID =>
    simp only [exec, requeueChallengeServices]
    split <;> rfl
  | unlockService k =>
    simp only [exec, unlockServiceLocked]
    repeat' split
    all_goals rfl
  | createSSHSession k =>
    simp only [exec, createSSHSessionLocked]
    repeat' split
    all_goals rfl
  | prepareFactoryResetService k =>
    simp only [exec, prepareFactoryResetServiceLocked]
    repeat' split
    all_goals rfl
  | restartService k =>
    simp only [exec, restartServiceLocked]
    split <;> rfl
  | markSSHSessionApplyFailure k =>
    simp only [exec, markSSHSessionApplyFailure, updateState]
    split <;> rfl
  | completeFactoryResetService k =>
    simp only [exec, completeFactoryResetService, updateState]
    split <;> rfl
  | markFactoryResetFailure k =>
    simp only [exec, markFactoryResetFailure, updateState]
    split <;> rfl
  | updatePlatformSettings request =>
    simp only [exec, updatePlatformSettings]
    repeat' split
    all_goals rfl

end MemoryStore

end ADPlatform.APIGateway
