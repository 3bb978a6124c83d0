import ADPlatform.APIGateway.MemoryStore
import ADPlatform.APIGateway.WireGuard

/-! # Players and teams of the in-memory store

The calls of `memoryStore` that change players, teams and their WireGuard peers. Passwords are only
checked for their length here: nothing that the store decides about access reads their hashes. -/

namespace ADPlatform.APIGateway
open GameCore (Time Stamp)
open Text

/-- `max(version, 1)`. -/
def AdminPlayerRecord.version (record : AdminPlayerRecord) : Int := max record.sessionVersion 1

/-- The identity that a call answers with. -/
def AdminPlayerRecord.authenticated (record : AdminPlayerRecord) (teamName contactEmail : String) :
    AuthenticatedPlayer where
  playerID := record.player.id
  teamID := record.player.teamID
  teamName
  teamContactEmail := contactEmail
  displayName := record.player.displayName
  email := record.player.email
  role := record.player.role
  sessionVersion := record.version

/-- The player belongs to a team, or is an organizer: others have no WireGuard peer. -/
def AdminPlayer.hasPeer (player : AdminPlayer) : Bool :=
  player.teamID > 0 || player.role = .organizer

/-- The peer and its copy in the record of the player. -/
def AdminPlayerRecord.setPeer (record : AdminPlayerRecord) (state : WireGuardPeerState) :
    AdminPlayerRecord :=
  { record with
    wireGuard := state
    player := { record.player with
      wireGuardAddress := state.address
      wireGuardStatus := state.status
      wireGuardIssuedAt := state.issuedAt
      wireGuardRevokedAt := state.revokedAt } }

/-- A change of role ends the sessions of the player. -/
def AdminPlayerRecord.withRole (record : AdminPlayerRecord) (role : Role) : AdminPlayerRecord :=
  { record with player := { record.player with role }, sessionVersion := record.version + 1 }

/-- The record in a team: the id, the team's name and the peer's name change together. -/
def AdminPlayerRecord.ofTeam (record : AdminPlayerRecord) (team : AdminTeam) (playerID : Int) :
    AdminPlayerRecord :=
  { record with player := { record.player with
      teamID := team.id, teamName := team.name, wireGuardPeer :=
        wireguardPeerName team.id playerID } }

namespace MemoryStore

/-- The team's name, or one made of its id. -/
def teamNameForID (s : MemoryStore) (teamID : Int) : String :=
  (s.teamNames.lookup teamID).getD ("Team " ++ teamID.repr)

/-- Is the team in the set of deactivated teams? -/
def teamDeactivated (s : MemoryStore) (teamID : Int) : Bool := s.deactivatedTeams.get teamID false

/-- Is the player in the set of deactivated players? -/
def playerDeactivated (s : MemoryStore) (playerID : Int) : Bool :=
  s.deactivatedPlayers.get playerID false

/-- The contact email of the team, if there is such a team. -/
def teamContactEmail (s : MemoryStore) (teamID : Int) : String :=
  ((s.teams.lookup teamID).map (·.contactEmail)).getD ""

/-- `playerCountForTeamLocked`. -/
def playerCountForTeam (s : MemoryStore) (teamID : Int) : Nat :=
  s.players.pairs.countP fun (_, record) => record.player.teamID = teamID

/-- The number of the team's services. -/
def deployedChallenges (s : MemoryStore) (teamID : Int) : Nat :=
  s.teamStates.pairs.countP fun (k, _) => k.1 = teamID

/-- `teamMemberLimitReachedLocked`: neither organizers nor an absent limit count. -/
def teamMemberLimitReached (s : MemoryStore) (teamID : Int) : Bool :=
  let limit := s.platformSettings.maxTeamMembers
  if teamID ≤ 0 ∨ limit ≤ 0 then false else s.playerCountForTeam teamID ≥ limit

/-- `teamHasOtherActiveCaptainLocked`. -/
def teamHasOtherActiveCaptain (s : MemoryStore) (teamID excludePlayerID : Int) : Bool :=
  teamID > 0 && s.players.pairs.any fun (_, record) =>
    record.player.id ≠ excludePlayerID && record.player.teamID = teamID &&
      !s.playerDeactivated record.player.id && record.player.role = .captain

/-- Player ids are positive, so `-1` excludes nobody. -/
def teamHasActiveCaptain (s : MemoryStore) (teamID : Int) : Bool :=
  s.teamHasOtherActiveCaptain teamID (-1)

/-- The first address of the pool that no player has. -/
def allocateWireGuardPeerAddress (s : MemoryStore) : Except StoreError String :=
  let used :=
    (s.players.pairs.map fun (_, record) => trimSpace record.wireGuard.address).filter (· ≠ "")
  match ((List.range wireGuardPeerAddressPoolSize).map wireGuardPeerAddressAt).find? fun address =>
      address ∉ used with
  | some address => .ok address
  | none => .error .playerAddressPool

/-- The player's record replaced. -/
def setPlayer (s : MemoryStore) (playerID : Int) (record : AdminPlayerRecord) : MemoryStore :=
  { s with players := s.players.insert playerID record }

/-- The email is that of a player other than `playerID`. -/
def emailTaken (s : MemoryStore) (T : CaseTable) (email : String) (playerID : Option Int) : Bool :=
  s.players.pairs.any fun (id, record) =>
    some id ≠ playerID && T.equalFold record.player.email email

/-! ## Registration and profile -/

/-- `RegisterPlayer`: a player without a team and without a peer. -/
def registerPlayer (T : CaseTable) (request : ParticipantRegisterRequest) (now : Time)
    (s : MemoryStore) : Change MemoryStore AuthenticatedPlayer :=
  let displayName := trimSpace request.displayName
  let email := trimSpace (T.toLower request.email)
  if displayName = "" ∨ email = "" ∨ !validPassword request.password then
    { store := s, result := .error .duplicateResource }
  else if s.emailTaken T email none then { store := s, result := .error .duplicateResource }
  else
    let id := s.nextPlayerID
    let record : AdminPlayerRecord := {
      player := {
        id, teamID := 0, teamName := "", displayName, email, role := .member
        wireGuardPeer := wireguardPeerName 0 id
        createdAt := now.formatRFC3339 }
      sessionVersion := 1 }
    { store := { s with nextPlayerID := id + 1, players := s.players.insert id record }
      result := .ok (record.authenticated "" "") }

/-- The name and the contact of a team, in the tables and in the scoreboard. -/
def renameTeam (team : AdminTeam) (teamID : Int) (name contactEmail : String) (s : MemoryStore) :
    MemoryStore :=
  { s with
    teams := s.teams.insert teamID { team with name, contactEmail }
    teamNames := s.teamNames.insert team.id name
    scoreboard := s.scoreboard.map fun row => if row.team = team.name then { row with team := name }
      else row }

/-- The part of `UpdateParticipantProfile` about the team: a captain renames it. -/
def updateTeamProfile (T : CaseTable) (player : AdminPlayer)
    (request : ParticipantUpdateProfileRequest)
    (s : MemoryStore) : Except StoreError MemoryStore :=
  if player.teamID ≤ 0 then .ok s
  else match s.teams.lookup player.teamID with
  | none => .error .teamNotFound
  | some team =>
    if player.role ≠ .captain then .ok s
    else
      let teamName := trimSpace request.teamName
      let contactEmail := trimSpace (T.toLower request.teamContactEmail)
      if teamName = "" ∨ contactEmail = "" then .error .duplicateResource
      else if s.teams.pairs.any fun (id, candidate) => id ≠ player.teamID &&
          (T.equalFold candidate.name teamName ||
            T.equalFold candidate.contactEmail contactEmail) then
        .error .duplicateResource
      else .ok (s.renameTeam team player.teamID teamName contactEmail)

/-- The record of a player after the profile has been updated. -/
def updatedProfile (s : MemoryStore) (displayName email : String) (record : AdminPlayerRecord) :
    AdminPlayerRecord :=
  if record.player.teamID > 0 then
    let teamName := s.teamNameForID record.player.teamID
    let peer := { record.wireGuard with teamName, displayName }
    { record with
      player := { record.player with displayName, email, teamName }
      wireGuard := if record.wireGuard.wireGuardPeer = "" then record.wireGuard
        else { peer with config := renderWireGuardConfig peer } }
  else { record with player := { record.player with displayName, email, teamName := "" } }

/-- `UpdateParticipantProfile`: the peer's display name follows the player's. -/
def updateParticipantProfile (T : CaseTable) (playerID : Int)
    (request : ParticipantUpdateProfileRequest) (s : MemoryStore) :
    Change MemoryStore AuthenticatedPlayer :=
  match s.players.lookup playerID with
  | none => { store := s, result := .error .invalidCredentials }
  | some record =>
    let displayName := trimSpace request.displayName
    let email := trimSpace (T.toLower request.email)
    if record.player.role = .organizer then { store := s, result := .error .invalidCredentials }
    else if displayName = "" ∨ email = "" then { store := s, result := .error .duplicateResource }
    else if s.emailTaken T email (some playerID) then
      { store := s, result := .error .duplicateResource }
    else match s.updateTeamProfile T record.player request with
    | .error e => { store := s, result := .error e }
    | .ok renamed =>
      let record := renamed.updatedProfile displayName email record
      { store := renamed.setPlayer playerID record
        result := .ok (record.authenticated record.player.teamName
          (renamed.teamContactEmail record.player.teamID)) }

/-! ## Members of a team -/

/-- A new peer for the player of a record, at an address that no player has. -/
def issuePeer (input : WireGuardInput) (playerID : Int) (record : AdminPlayerRecord)
    (s : MemoryStore) :
    Except StoreError AdminPlayerRecord :=
  match s.allocateWireGuardPeerAddress with
  | .error e => .error e
  | .ok address =>
    match input.newWireGuardPeerState playerID record.player.teamID record.player.teamName
        record.player.displayName record.player.wireGuardPeer address with
    | .error e => .error e
    | .ok state => .ok (record.setPeer state)

/-- The record of a player that an organizer creates. A member is made captain of a team without
one. -/
def createdPlayer (T : CaseTable) (request : AdminCreatePlayerRequest) (now : Time)
    (s : MemoryStore) : AdminPlayerRecord where
  player := {
    id := s.nextPlayerID
    teamID := request.teamID
    teamName := if request.teamID ≠ 0 then s.teamNameForID request.teamID
      else if normalizedRole request.role = .organizer then "Organizer" else ""
    displayName := trimSpace request.displayName
    email := trimSpace (T.toLower request.email)
    role := if request.teamID ≠ 0 ∧ normalizedRole request.role = .member ∧
        !s.teamHasActiveCaptain request.teamID then .captain
      else normalizedRole request.role
    wireGuardPeer := wireguardPeerName request.teamID s.nextPlayerID
    createdAt := now.formatRFC3339 }
  sessionVersion := 1

/-- The player id is used up even where the call fails later. -/
def createAdminPlayer (T : CaseTable) (request : AdminCreatePlayerRequest) (input : WireGuardInput)
    (s : MemoryStore) : Change MemoryStore AdminPlayer :=
  if !validPassword request.password then { store := s, result := .error .invalidCredentials }
  else if request.teamID ≠ 0 ∧ (s.teams.lookup request.teamID).isNone then
    { store := s, result := .error .teamNotFound }
  else if request.teamID ≠ 0 ∧ s.teamMemberLimitReached request.teamID then
    { store := s, result := .error .teamMemberLimit }
  else if s.emailTaken T (trimSpace (T.toLower request.email)) none then
    { store := s, result := .error .duplicateResource }
  else
    let id := s.nextPlayerID
    let numbered := { s with nextPlayerID := id + 1 }
    let record := s.createdPlayer T request input.now
    if record.player.hasPeer then
      match s.issuePeer input id record with
      | .error e => { store := numbered, result := .error e }
      | .ok issued => { store := numbered.setPlayer id issued, result := .ok issued.player }
    else { store := numbered.setPlayer id record, result := .ok record.player }

/-- A player who joins a team without an active captain becomes its captain. -/
def promoted (s : MemoryStore) (team : AdminTeam) (record : AdminPlayerRecord) :
    AdminPlayerRecord :=
  { record with player := { record.player with
      role := if s.teamHasActiveCaptain team.id then record.player.role else .captain } }

/-- The promotion stays even if no address is left for the peer. -/
def joinExistingPlayerTeam (T : CaseTable) (playerID : Int) (teamKey : String)
    (input : WireGuardInput) (s : MemoryStore) : Change MemoryStore AuthenticatedPlayer :=
  match s.players.lookup playerID with
  | none => { store := s, result := .error .invalidCredentials }
  | some record =>
    if record.player.role = .organizer ∨ record.player.teamID > 0 then
      { store := s, result := .error .duplicateResource }
    else match (input.rt.range 0 s.teams.pairs).find? fun (_, candidate) =>
        T.equalFold candidate.joinKey (trimSpace teamKey) with
    | none => { store := s, result := .error .invalidCredentials }
    | some (_, team) =>
      if s.teamMemberLimitReached team.id then { store := s, result := .error .teamMemberLimit }
      else
        let record := s.promoted team record
        match s.issuePeer input playerID (record.ofTeam team playerID) with
        | .error e => { store := s.setPlayer playerID record, result := .error e }
        | .ok joined =>
          { store := s.setPlayer playerID joined
            result := .ok { joined.authenticated team.name team.contactEmail with playerID } }

/-- `TransferTeamCaptain`: both roles change in one call. -/
def transferTeamCaptain (captainPlayerID targetPlayerID : Int) (s : MemoryStore) :
    Change MemoryStore AuthenticatedPlayer :=
  match s.players.lookup captainPlayerID with
  | none => { store := s, result := .error .playerNotFound }
  | some captain =>
    if captain.player.role ≠ .captain ∨ captain.player.teamID ≤ 0 then
      { store := s, result := .error .notTeamCaptain }
    else if s.playerDeactivated captainPlayerID then
      { store := s, result := .error .accountDeactivated }
    else if targetPlayerID = captainPlayerID then
      { store := s, result := .error .invalidCaptainTransfer }
    else match s.players.lookup targetPlayerID with
    | none => { store := s, result := .error .playerNotFound }
    | some target =>
      if target.player.teamID ≠ captain.player.teamID ∨ s.playerDeactivated targetPlayerID ∨
          target.player.role = .organizer then
        { store := s, result := .error .invalidCaptainTransfer }
      else
        let captain := captain.withRole .member
        let team := s.teams.lookup captain.player.teamID
        { store := (s.setPlayer captainPlayerID captain).setPlayer targetPlayerID
            (target.withRole .captain)
          result := .ok (captain.authenticated ((team.map (·.name)).getD captain.player.teamName)
            (s.teamContactEmail captain.player.teamID)) }

/-! ## WireGuard peers -/

/-- The name that stands for the team of a peer. -/
def peerTeamName (s : MemoryStore) (player : AdminPlayer) : String :=
  if player.role = .organizer ∧ player.teamID = 0 then "Organizer"
  else s.teamNameForID player.teamID

/-- `GetAdminPlayerWireGuardConfig`. -/
def getAdminPlayerWireGuardConfig (playerID : Int) (input : WireGuardInput) (s : MemoryStore) :
    Change MemoryStore AdminWireGuardPeer :=
  match s.players.lookup playerID with
  | none => { store := s, result := .error .playerNotFound }
  | some record =>
    if !record.player.hasPeer then { store := s, result := .error .playerNotFound }
    else
      let named := { record.wireGuard with teamName := s.peerTeamName record.player }
      match input.refreshWireGuardPeerState named with
      | .error e =>
        { store := s.setPlayer playerID { record with wireGuard := named }, result := .error e }
      | .ok refreshed =>
        { store := s.setPlayer playerID { record with wireGuard := refreshed }
          result := .ok (wireGuardAdminView refreshed record.player.email) }

/-- `RotateAdminPlayerWireGuardConfig`: new keys under the old address. -/
def rotateAdminPlayerWireGuardConfig (playerID : Int) (input : WireGuardInput) (s : MemoryStore) :
    Change MemoryStore AdminWireGuardPeer :=
  match s.players.lookup playerID with
  | none => { store := s, result := .error .playerNotFound }
  | some record =>
    if !record.player.hasPeer then { store := s, result := .error .playerNotFound }
    else match input.newWireGuardPeerState record.player.id record.player.teamID
        (s.peerTeamName record.player) record.player.displayName record.player.wireGuardPeer
        record.wireGuard.address with
    | .error e => { store := s, result := .error e }
    | .ok state =>
      { store := s.setPlayer playerID (record.setPeer state)
        result := .ok (wireGuardAdminView state record.player.email) }

/-- `RevokeAdminPlayerWireGuardConfig`: the address stays with the revoked peer. -/
def revokeAdminPlayerWireGuardConfig (playerID : Int) (now : Time) (s : MemoryStore) :
    Change MemoryStore AdminWireGuardPeer :=
  match s.players.lookup playerID with
  | none => { store := s, result := .error .playerNotFound }
  | some record =>
    if !record.player.hasPeer then { store := s, result := .error .playerNotFound }
    else
      let revokedAt := now.formatRFC3339
      let revoked := { record.wireGuard with status := .revoked, revokedAt }
      { store := s.setPlayer playerID { record with
          wireGuard := revoked
          player :=
            { record.player with wireGuardStatus := .revoked, wireGuardRevokedAt := revokedAt } }
        result := .ok (wireGuardAdminView revoked record.player.email) }

/-- The peer of this player goes to the gateway of the network. -/
def peerListed (s : MemoryStore) (playerID : Int) (player : AdminPlayer) : Bool :=
  !s.playerDeactivated playerID && player.hasPeer &&
    (player.role = .organizer || !s.teamDeactivated player.teamID)

/-- The peer as the gateway is told of it. -/
def gatewayPeer (s : MemoryStore) (record : AdminPlayerRecord) : WireGuardGatewayPeer where
  playerID := record.player.id
  teamID := record.player.teamID
  teamName := s.peerTeamName record.player
  displayName := record.player.displayName
  wireGuardPeer := record.player.wireGuardPeer
  address := record.wireGuard.address
  status := record.wireGuard.status
  clientPublicKey := record.wireGuard.clientPublicKey
  presharedKey := record.wireGuard.presharedKey

/-- The name of the team is written into each peer on the way. -/
def listWireGuardGatewayPeers (rt : Go.Runtime) (s : MemoryStore) :
    Change MemoryStore (List WireGuardGatewayPeer) :=
  let sorted := rt.sortSlice (fun a b => a.1 < b.1) (rt.range 0 s.players.pairs)
  let listed := sorted.filter fun (playerID, record) => s.peerListed playerID record.player
  let named (playerID : Int) (record : AdminPlayerRecord) : AdminPlayerRecord :=
    if s.peerListed playerID record.player then
      { record with wireGuard :=
        { record.wireGuard with teamName := s.peerTeamName record.player } }
    else record
  { store := { s with players := s.players.mapValues named }
    result := .ok (listed.map fun (_, record) => s.gatewayPeer record) }

/-! ## Organizer calls -/

/-- `DeleteAdminPlayer`: the deactivation mark stays behind. -/
def deleteAdminPlayer (playerID : Int) (s : MemoryStore) : Change MemoryStore Unit :=
  match s.players.lookup playerID with
  | none => { store := s, result := .error .playerNotFound }
  | some _ => { store := { s with players := s.players.erase playerID }, result := .ok () }

/-- The first row of the scoreboard with the name of the team goes. -/
def deleteAdminTeam (teamID : Int) (s : MemoryStore) : Change MemoryStore Unit :=
  match s.teams.lookup teamID with
  | none => { store := s, result := .error .teamNotFound }
  | some team =>
    { store := { s with
        teams := s.teams.erase teamID
        teamNames := s.teamNames.erase teamID
        teamStates := s.teamStates.filterKeys fun k => k.1 ≠ teamID
        instances := s.instances.filterKeys fun k => k.1 ≠ teamID
        players := s.players.filterKeys fun id =>
          (s.players.lookup id).all fun record => record.player.teamID ≠ teamID
        scoreboard := s.scoreboard.eraseP fun row => row.team = team.name }
      result := .ok () }

/-- `UpdateAdminTeam`. -/
def updateAdminTeam (T : CaseTable) (teamID : Int) (request : AdminUpdateTeamRequest)
    (s : MemoryStore) : Change MemoryStore AdminTeam :=
  match s.teams.lookup teamID with
  | none => { store := s, result := .error .teamNotFound }
  | some team =>
    let name := trimSpace request.name
    let email := trimSpace request.contactEmail
    let updated := { team with
      name := if name ≠ "" then name else team.name
      contactEmail := if email ≠ "" then T.toLower email else team.contactEmail }
    { store := { s with
        teams := s.teams.insert teamID updated
        teamNames := if name ≠ "" then s.teamNames.insert teamID name else s.teamNames }
      result := .ok updated }

/-- `SetTeamActive`: a return to the game starts with the next tick. -/
def setTeamActive (teamID : Int) (active : Bool) (s : MemoryStore) : Change MemoryStore AdminTeam :=
  match s.teams.lookup teamID with
  | none => { store := s, result := .error .teamNotFound }
  | some team =>
    let updated := if active then { team with active, deactivatedAt := none, playFromTick := 0 }
      else { team with active, playFromTick := 0 }
    { store := { s with
        teams := s.teams.insert teamID updated
        deactivatedTeams := if active then s.deactivatedTeams.erase teamID
          else s.deactivatedTeams.insert teamID true
        scoreboard := if active then s.scoreboard
          else s.scoreboard.filter fun row => row.team ≠ team.name }
      result := .ok { updated with
        playerCount := s.playerCountForTeam teamID
        deployedChallenges := s.deployedChallenges teamID } }

/-- `UpdateAdminPlayer`: any role is taken as it comes. -/
def updateAdminPlayer (T : CaseTable) (playerID : Int) (request : AdminUpdatePlayerRequest)
    (s : MemoryStore) : Change MemoryStore AdminPlayer :=
  match s.players.lookup playerID with
  | none => { store := s, result := .error .playerNotFound }
  | some record =>
    let name := trimSpace request.displayName
    let email := trimSpace request.email
    let player := { record.player with
      displayName := if name ≠ "" then name else record.player.displayName
      email := if email ≠ "" then T.toLower email else record.player.email
      role := normalizedRole request.role }
    { store := s.setPlayer playerID { record with player }, result := .ok player }

/-- A captain who comes back to a team with another active captain becomes a member. -/
def setPlayerActive (playerID : Int) (active : Bool) (s : MemoryStore) :
    Change MemoryStore AdminPlayer :=
  match s.players.lookup playerID with
  | none => { store := s, result := .error .playerNotFound }
  | some record =>
    if active then
      let reactivated := { s with deactivatedPlayers := s.deactivatedPlayers.erase playerID }
      if record.player.role = .captain ∧ record.player.teamID > 0 ∧
          reactivated.teamHasOtherActiveCaptain record.player.teamID playerID then
        let demoted := record.withRole .member
        { store := reactivated.setPlayer playerID demoted
          result := .ok { demoted.player with active, deactivatedAt := none } }
      else
        { store := reactivated, result := .ok { record.player with active, deactivatedAt := none } }
    else
      { store := { s with deactivatedPlayers := s.deactivatedPlayers.insert playerID true }
        result := .ok { record.player with active } }

/-- `UpdatePlatformSettings`. -/
def updatePlatformSettings (request : AdminUpdatePlatformSettingsRequest) (actor : String)
    (now : Time) (s : MemoryStore) : Change MemoryStore AdminPlatformSettings :=
  let flagFormatPrefix := trimSpace request.flagFormatPrefix
  if flagFormatPrefix = "" then
    { store := s, result := .error (.failure "flag_format_prefix must not be empty") }
  else if request.maxTeamMembers.any (· < 0) then
    { store := s, result := .error (.failure "max_team_members must not be negative") }
  else
    let settings := { s.platformSettings with
      flagFormatPrefix
      maxTeamMembers := request.maxTeamMembers.getD s.platformSettings.maxTeamMembers
      updatedAt := now.formatRFC3339
      updatedBy := trimSpace actor }
    { store := { s with platformSettings := settings }, result := .ok settings }

/-- The match state that the game core last reported. -/
def setMatchStarted (started : Bool) (s : MemoryStore) : MemoryStore :=
  { s with matchStarted := some started }

/-- The pause that the game core last reported. -/
def setMatchPaused (paused : Bool) (s : MemoryStore) : MemoryStore :=
  { s with matchPaused := some paused }

end MemoryStore

end ADPlatform.APIGateway
