import ADPlatform.APIGateway.Store
import Mathlib.Data.Rat.Defs

/-! # The in-memory store of the API gateway

The calls of `memoryStore` that create, queue and deploy service instances. Each holds the store's
mutex from start to end, so it is one atomic function; a call that fails half way leaves what it
has written. The nested maps from teams to challenges are maps from services here. -/

namespace ADPlatform.APIGateway
open GameCore (Time Stamp)
open Text

/-- A row of the scoreboard. -/
structure ScoreRow where
  rank : Nat
  team : String
  attack : ℚ := 0
  defense : ℚ := 0
  sla : ℚ := 0
  total : ℚ := 0
  delta : String
  deriving DecidableEq, Repr

/-- `memoryStore`: everything under the gateway's one lock. -/
structure MemoryStore where
  teamNames : Go.Map Int String := ∅
  teams : Go.Map Int AdminTeam := ∅
  players : Go.Map Int AdminPlayerRecord := ∅
  /-- Teams and players are active unless they are in one of these two sets. -/
  deactivatedTeams : Go.Map Int Bool := ∅
  deactivatedPlayers : Go.Map Int Bool := ∅
  matchStarted : Option Bool := none
  matchPaused : Option Bool := none
  challenges : Go.Map Int AdminChallenge := ∅
  teamStates : Go.Map ServiceKey ServiceState := ∅
  instances : Go.Map ServiceKey ServiceInstanceRecord := ∅
  deployments : Go.Map Int AdminDeploymentJob := ∅
  scoreboard : List ScoreRow := []
  platformSettings : AdminPlatformSettings := {}
  nextPlayerID : Int := 1
  nextChallengeID : Int := 1
  nextDeploymentID : Int := 1

/-- The settings a container is started with. -/
def AdminChallenge.runtimeConfig (c : AdminChallenge) (challengeID : Int) : RuntimeConfig where
  challengeID
  name := c.name
  baselineImage := c.baselineImage
  checkerImage := c.checkerImage
  servicePort := c.servicePort
  serviceSubnetOctet := c.serviceSubnetOctet

namespace MemoryStore

/-- The runtime status of a service, if it has a row. -/
def runtimeStatus (s : MemoryStore) (k : ServiceKey) : Option RuntimeStatus :=
  (s.instances.lookup k).map (·.runtimeStatus)

/-- `deployedTeamsForChallengeLocked`, and with a status its two siblings. -/
def teamsForChallenge (s : MemoryStore) (challengeID : Int) (status : RuntimeStatus → Bool) : Nat :=
  s.instances.pairs.countP fun (k, i) => k.2 = challengeID && status i.runtimeStatus

/-- The counts of a challenge, after a reconcile. -/
def refreshChallenge (challengeID : Int) (s : MemoryStore) : MemoryStore :=
  let readyTeams := s.teamsForChallenge challengeID (· = .ready)
  let queuedTeams := s.teamsForChallenge challengeID (· = .queued)
  { s with challenges := s.challenges.mapValues fun id challenge =>
      if id = challengeID then { challenge with
        deployedTeams := s.teamsForChallenge challengeID fun _ => true
        readyTeams, queuedTeams
        runtimeStatus := challengeRuntimeStatus challenge.published s.teams.pairs.length
          readyTeams queuedTeams }
      else challenge }

/-! ## Listing -/

/-- The task that the controller reads for a queued service. -/
def controllerRuntimeTask (s : MemoryStore) (k : ServiceKey) (i : ServiceInstanceRecord) :
    ControllerRuntimeTask where
  deploymentJobID := i.deploymentJobID.getD 0
  teamID := k.1
  challengeID := k.2
  challengeName := i.challengeName
  runtimeKind := i.runtimeKind
  containerName := i.containerName
  stateVolume := i.stateVolume
  baselineImage := i.baselineImage
  checkerToken := i.checkerToken
  endpoint := i.endpoint
  sshHost := i.sshHost
  servicePort := i.servicePort
  unlockProofEpoch := match s.challenges.lookup k.2 with
    | some challenge => if challenge.unlockProofEpoch > 0 then challenge.unlockProofEpoch else 1
    | none => 1

/-- `ListControllerRuntimeTasks`: the queued services, sorted. -/
def listControllerRuntimeTasks (input : StoreInput) (s : MemoryStore) :
    List ControllerRuntimeTask :=
  input.rt.sortSlice ControllerRuntimeTask.before
    (((input.rt.range 0 s.instances.pairs).filter fun (_, i) => i.runtimeStatus = .queued).map
      fun (k, i) => s.controllerRuntimeTask k i)

/-! ## Queueing -/

/-- The two rows of a service replaced together. -/
def setService (k : ServiceKey) (i : ServiceInstanceRecord) (state : ServiceState)
    (s : MemoryStore) : MemoryStore :=
  { s with instances := s.instances.insert k i, teamStates := s.teamStates.insert k state }

/-- The loop of `DeployAdminChallenge` over the teams; `done` are the services it has queued. -/
def deployTeams (config : RuntimeConfig) (jobID : Int) (input : StoreInput) :
    Nat → List Int → MemoryStore → List ServiceKey → Change MemoryStore Unit
  | _, [], s, done => { store := s, queued := done, result := .ok () }
  | n, teamID :: rest, s, done =>
    match input.newCheckerToken n with
    | .error e => { store := s, queued := done, result := .error e }
    | .ok token =>
      let k := (teamID, config.challengeID)
      let s := s.setService k (config.instanceFor teamID (some jobID) token input.now.formatRFC3339)
        (config.provisioningState teamID "baseline deployment queued by organizer")
      deployTeams config jobID input (n + 1) rest s (done ++ [k])

/-- What `DeployAdminChallenge` does to the job of an earlier deployment. -/
def supersede (challengeID jobID : Int) (now : Stamp) (job : AdminDeploymentJob) :
    AdminDeploymentJob :=
  if job.challengeID = challengeID ∧ job.id ≠ jobID ∧ job.status.isActive then
    { job with status := .superseded, queuedTeamCount := 0, completedAt := now }
  else job

/-- `DeployAdminChallenge`: one job for the services of all teams. -/
def deployAdminChallenge (challengeID : Int) (input : StoreInput) (s : MemoryStore) :
    Change MemoryStore AdminDeployment :=
  match s.challenges.lookup challengeID with
  | none => { store := s, result := .error .challengeNotFound }
  | some challenge =>
    let teams := (input.rt.range 0 s.teams.pairs).map (·.1)
    let createdAt := input.now.formatRFC3339
    let jobID := if teams = [] then 0 else s.nextDeploymentID
    let numbered := if teams = [] then s else { s with nextDeploymentID := s.nextDeploymentID + 1 }
    let c := deployTeams (challenge.runtimeConfig challengeID) jobID input 0 teams numbered []
    match c.result with
    | .error e => { store := c.store, queued := c.queued, result := .error e }
    | .ok () =>
      let deployed := { challenge with
        published := true
        totalTeams := teams.length
        deployedTeams := c.store.teamsForChallenge challengeID fun _ => true
        readyTeams := 0
        queuedTeams := teams.length
        runtimeStatus := challengeRuntimeStatus true teams.length 0 teams.length }
      let superseded := c.store.deployments.mapValues fun _ => supersede challengeID jobID createdAt
      let status : DeploymentStatus := if teams = [] then .completed else .queued
      let job : AdminDeploymentJob := {
        id := jobID, challengeID, challengeName := challenge.name, status
        targetTeamCount := teams.length, queuedTeamCount := teams.length, readyTeamCount := 0
        createdAt }
      { store := { c.store with
          challenges := c.store.challenges.insert challengeID deployed
          deployments := if teams = [] then superseded else superseded.insert jobID job }
        queued := c.queued
        result := .ok {
          jobID, challengeID, challengeName := challenge.name, status, published := true
          deployedTeamCount := teams.length, totalTeamCount := teams.length
          queuedTeamCount := teams.length, readyTeamCount := 0, createdAt } }

/-- A service is queued again: an instance keeps its deployment job. -/
def requeue (which : ServiceKey → Bool) (lastEvent : String) (now : Stamp) (s : MemoryStore) :
    Change MemoryStore Unit where
  store := { s with
    instances := s.instances.mapValues fun k i =>
      if which k then { i with runtimeStatus := .queued, updatedAt := now } else i
    teamStates := s.teamStates.mapValues fun k state =>
      if which k then state.requeued lastEvent else state }
  queued := s.instances.keys.filter which
  result := .ok ()

/-- `RequeueTeamServices`. -/
def requeueTeamServices (teamID : Int) (input : StoreInput) (s : MemoryStore) :
    Change MemoryStore Unit :=
  s.requeue (fun k => k.1 = teamID) "redeploy queued by organizer reactivation"
    input.now.formatRFC3339

/-- `RequeueChallengeServices`. -/
def requeueChallengeServices (challengeID : Int) (input : StoreInput) (s : MemoryStore) :
    Change MemoryStore Unit :=
  match s.challenges.lookup challengeID with
  | none => { store := s, result := .error .challengeNotFound }
  | some _ => s.requeue (fun k => k.2 = challengeID)
      "redeploy queued after challenge maintenance resume" input.now.formatRFC3339

/-- The loop of `CreateAdminTeam` over the published challenges. The service state of a challenge
is in place before its checker token is drawn. -/
def joinChallenges (teamID : Int) (input : StoreInput) :
    Nat → List (Int × AdminChallenge) → MemoryStore → List ServiceKey → Change MemoryStore Unit
  | _, [], s, done => { store := s, queued := done, result := .ok () }
  | n, (challengeID, challenge) :: rest, s, done =>
    let k := (teamID, challengeID)
    let state := { defaultServiceStateForConfig challengeID teamID challenge.name
        challenge.servicePort challenge.serviceSubnetOctet with
      status := "provisioning"
      checker := "pending"
      sshHint := "deployment queued; wait for controller reconciliation before unlock"
      lastEvent := "baseline deployment queued by team join"
      resetCooldown := "deploying" }
    match input.newCheckerToken n with
    | .error e =>
      { store := { s with teamStates := s.teamStates.insert k state }, queued := done
        result := .error e }
    | .ok token =>
      let i := (challenge.runtimeConfig challengeID).instanceFor teamID none token
        input.now.formatRFC3339
      joinChallenges teamID input (n + 1) rest (s.setService k i state) (done ++ [k])

/-- `CreateAdminTeam`: the team with a service for every published challenge. -/
def createAdminTeam (T : CaseTable) (request : AdminCreateTeamRequest) (input : StoreInput)
    (s : MemoryStore) : Change MemoryStore AdminTeam :=
  let name := trimSpace request.name
  let contactEmail := trimSpace (T.toLower request.contactEmail)
  if name = "" ∨ contactEmail = "" then { store := s, result := .error .duplicateResource }
  else if s.teams.pairs.any fun (_, team) =>
      T.equalFold team.name name || T.equalFold team.contactEmail contactEmail then
    { store := s, result := .error .duplicateResource }
  else match teamNetworkIDs.find? fun id => (s.teams.lookup id).isNone with
  | none => { store := s, result := .error .teamAddressPool }
  | some id =>
    match input.newTeamJoinKey 0 with
    | .error e => { store := s, result := .error e }
    | .ok joinKey =>
      let created := { s with
        teams := s.teams.insert id { id, name, contactEmail, joinKey }
        teamNames := s.teamNames.insert id name
        teamStates := s.teamStates.filterKeys fun k => k.1 ≠ id
        instances := s.instances.filterKeys fun k => k.1 ≠ id }
      let published := (input.rt.range 0 s.challenges.pairs).filter fun (_, c) => c.published
      let c := joinChallenges id input 1 published created []
      match c.result with
      | .error e => { store := c.store, queued := c.queued, result := .error e }
      | .ok () =>
        let row := { rank := c.store.scoreboard.length + 1, team := name, delta := "new" }
        { store := { c.store with scoreboard := c.store.scoreboard ++ [row] }
          queued := c.queued
          result := .ok { id, name, contactEmail, joinKey, deployedChallenges := published.length
                          active := true } }

/-! ## Reconciling -/

/-- The instances that satisfy `marked` are deployed. -/
def markReady (marked : ServiceKey → ServiceInstanceRecord → Bool) (now : Stamp) (s : MemoryStore) :
    MemoryStore :=
  { s with
    instances := s.instances.mapValues fun k i => if marked k i then i.markReady now else i
    teamStates := s.teamStates.mapValues fun k state =>
      if (s.instances.lookup k).any (marked k) then state.deployed else state }

/-- The turn of one deployment job. -/
def reconcileJob (now : Stamp) (acc : MemoryStore × AdminReconcileResult)
    (entry : Int × AdminDeploymentJob) : MemoryStore × AdminReconcileResult :=
  let (s, result) := acc
  let (id, job) := entry
  let ready := s.instances.pairs.countP fun (k, i) => job.covers k i
  let marked := s.markReady job.covers now
  let completed := { job with
    status := .completed
    queuedTeamCount := job.queuedTeamCount - ready
    readyTeamCount := job.readyTeamCount + ready
    completedAt := now }
  (refreshChallenge job.challengeID
    { marked with deployments := marked.deployments.insert id completed },
   { processedJobs := result.processedJobs + 1
     processedInstances := result.processedInstances + ready
     completedJobs := result.completedJobs + 1 })

/-- The deployment jobs that are queued or running. -/
def activeJobs (s : MemoryStore) : List (Int × AdminDeploymentJob) :=
  s.deployments.pairs.filter fun entry => entry.2.status.isActive

/-- `ReconcileAdminDeployments`: every active job is closed by what its services came to. -/
def reconcileAdminDeployments (input : StoreInput) (s : MemoryStore) :
    Change MemoryStore AdminReconcileResult :=
  let now := input.now.formatRFC3339
  let deployments := input.rt.sortSlice (fun a b => a.2.id < b.2.id) s.activeJobs
  let (s, result) := deployments.foldl (reconcileJob now) (s, {})
  let alone := s.instances.pairs.filter fun (_, i) => i.standalone
  -- each visit refreshes the counts of its challenge, and the last of them decides
  { store := (alone.map fun (k, _) => k.2).foldl (fun s challengeID =>
    s.refreshChallenge challengeID)
      (s.markReady (fun _ i => i.standalone) now)
    result := .ok { result with processedInstances := result.processedInstances + alone.length } }

/-- The service is one that the next reconcile deploys. -/
def awaits (s : MemoryStore) (k : ServiceKey) : Bool :=
  (s.instances.lookup k).any fun i => i.standalone || s.activeJobs.any fun entry =>
    entry.2.covers k i

/-! ## What each call does to the instances -/

section reconcile
variable {s : MemoryStore} {k : ServiceKey} {now : Stamp} {input : StoreInput}

@[simp] theorem instances_refreshChallenge (c : Int) :
    (s.refreshChallenge c).instances = s.instances := rfl

@[simp] theorem deployments_refreshChallenge (c : Int) :
    (s.refreshChallenge c).deployments = s.deployments := rfl

theorem refreshAll_frame (cs : List Int) (s : MemoryStore) :
    let t := cs.foldl (fun s c => s.refreshChallenge c) s
    t.instances = s.instances ∧ t.deployments = s.deployments ∧
      t.nextDeploymentID = s.nextDeploymentID := by
  induction cs generalizing s with
  | nil => exact ⟨rfl, rfl, rfl⟩
  | cons c cs ih => exact ih (s.refreshChallenge c)

theorem lookup_markReady (marked : ServiceKey → ServiceInstanceRecord → Bool) :
    (s.markReady marked now).instances.lookup k =
      (s.instances.lookup k).map fun i => if marked k i then i.markReady now else i :=
  Go.Map.lookup_mapValues _ _ _

/-- The turns of several jobs mark the instances that one of them covers. -/
theorem lookup_reconcileJobs (jobs : List (Int × AdminDeploymentJob))
    (acc : MemoryStore × AdminReconcileResult) :
    (jobs.foldl (reconcileJob now) acc).1.instances.lookup k =
      (acc.1.instances.lookup k).map fun i =>
        if jobs.any fun entry => entry.2.covers k i then i.markReady now else i := by
  induction jobs generalizing acc with
  | nil => simp
  | cons entry jobs ih =>
    rw [List.foldl_cons, ih]
    have hstep : (reconcileJob now acc entry).1.instances.lookup k =
        (acc.1.instances.lookup k).map fun i =>
          if entry.2.covers k i then i.markReady now else i := lookup_markReady _
    rw [hstep, Option.map_map]
    refine Option.map_congr fun i _ => ?_
    by_cases h : entry.2.covers k i
    · -- a marked instance is not queued any more, so no later job covers it
      have hnone : ∀ job : AdminDeploymentJob, job.covers k (i.markReady now) = false :=
        fun job => by
        simp [AdminDeploymentJob.covers, ServiceInstanceRecord.markReady]
      simp [h, hnone]
    · rw [Bool.not_eq_true] at h
      simp only [Function.comp_apply, h, Bool.false_eq_true, if_false, List.any_cons,
        Bool.false_or]

/-- No turn activates a job. -/
theorem activeJobs_reconcileJobs (now : Stamp) (jobs : List (Int × AdminDeploymentJob))
    (acc : MemoryStore × AdminReconcileResult) :
    (jobs.foldl (reconcileJob now) acc).1.activeJobs ⊆ acc.1.activeJobs := by
  induction jobs generalizing acc with
  | nil => exact List.Subset.refl _
  | cons entry jobs ih =>
    refine List.Subset.trans (ih _) fun ⟨id, job⟩ h => ?_
    obtain ⟨hmem, hactive⟩ := List.mem_filter.mp h
    have hlookup := Go.Map.mem_pairs.mp hmem
    simp only [reconcileJob, deployments_refreshChallenge] at hlookup
    by_cases hid : id = entry.1
    · rw [hid, AList.lookup_insert] at hlookup
      cases hlookup
      cases hactive
    · rw [AList.lookup_insert_ne hid] at hlookup
      exact List.mem_filter.mpr ⟨Go.Map.mem_pairs.mpr hlookup, hactive⟩

/-- A reconcile marks the instances that wait for it, and no others. -/
theorem lookup_reconcileAdminDeployments :
    (s.reconcileAdminDeployments input).store.instances.lookup k =
      (s.instances.lookup k).map fun i =>
        if s.awaits k then i.markReady input.now.formatRFC3339 else i := by
  have hany : ∀ i, (input.rt.sortSlice (fun a b => a.2.id < b.2.id) s.activeJobs).any
      (fun entry => entry.2.covers k i) = s.activeJobs.any fun entry => entry.2.covers k i :=
    fun i => (input.rt.sortSlice_perm _ _).any_eq
  simp only [reconcileAdminDeployments, refreshAll_frame, lookup_markReady, lookup_reconcileJobs,
    Option.map_map, hany]
  refine Option.map_congr fun i hi => ?_
  simp only [awaits, hi, Option.any_some, Function.comp_apply]
  by_cases h : s.activeJobs.any fun entry => entry.2.covers k i
  · have hmarked : (i.markReady input.now.formatRFC3339).standalone = false := by
      simp [ServiceInstanceRecord.standalone, ServiceInstanceRecord.markReady]
    simp only [h, if_true, hmarked, Bool.false_eq_true, if_false, Bool.or_true]
  · rw [Bool.not_eq_true] at h
    simp only [h, Bool.false_eq_true, if_false, Bool.or_false]

theorem activeJobs_reconcileAdminDeployments :
    (s.reconcileAdminDeployments input).store.activeJobs ⊆ s.activeJobs := by
  refine List.Subset.trans ?_ (activeJobs_reconcileJobs input.now.formatRFC3339
    (input.rt.sortSlice (fun a b => a.2.id < b.2.id) s.activeJobs) (s, {}))
  simp only [activeJobs, reconcileAdminDeployments, refreshAll_frame]
  exact List.Subset.refl _

theorem nextDeploymentID_reconcileJobs (jobs : List (Int × AdminDeploymentJob))
    (acc : MemoryStore × AdminReconcileResult) :
    (jobs.foldl (reconcileJob now) acc).1.nextDeploymentID = acc.1.nextDeploymentID := by
  induction jobs generalizing acc with
  | nil => rfl
  | cons entry jobs ih => exact ih _

theorem nextDeploymentID_reconcileAdminDeployments :
    (s.reconcileAdminDeployments input).store.nextDeploymentID = s.nextDeploymentID := by
  simp only [reconcileAdminDeployments, refreshAll_frame]
  exact nextDeploymentID_reconcileJobs _ _

end reconcile

/-- The numbers of the jobs that instances belong to have been given out. -/
def Valid (s : MemoryStore) : Prop :=
  ∀ k i job, s.instances.lookup k = some i → i.deploymentJobID = some job → job < s.nextDeploymentID

section calls
variable {s t : MemoryStore} {k : ServiceKey}

theorem awaits_iff : s.awaits k ↔ ∃ i, s.instances.lookup k = some i ∧ i.runtimeStatus = .queued ∧
    (i.deploymentJobID = none ∨
      ∃ e ∈ s.activeJobs, k.2 = e.2.challengeID ∧ i.deploymentJobID = some e.2.id) := by
  unfold awaits
  cases s.instances.lookup k with
  | none => simp
  | some i =>
    simp only [Option.any_some, ServiceInstanceRecord.standalone, AdminDeploymentJob.covers,
      Bool.or_eq_true,
      Bool.and_eq_true, decide_eq_true_eq, List.any_eq_true, Option.some.injEq]
    constructor
    · rintro (⟨hnone, hqueued⟩ | ⟨e, he, ⟨hchallenge, hjob⟩, hqueued⟩)
      · exact ⟨i, rfl, hqueued, .inl hnone⟩
      · exact ⟨i, rfl, hqueued, .inr ⟨e, he, hchallenge, hjob⟩⟩
    · rintro ⟨_, rfl, hqueued, hnone | ⟨e, he, hchallenge, hjob⟩⟩
      · exact .inl ⟨hnone, hqueued⟩
      · exact .inr ⟨e, he, ⟨hchallenge, hjob⟩, hqueued⟩

/-- An instance that a call leaves alone awaits a reconcile only if it did before: a job with a
number that was given out does not become active. -/
theorem awaits_of_lookup_eq (hs : s.Valid) (hk : t.instances.lookup k = s.instances.lookup k)
    (hjobs : ∀ e ∈ t.activeJobs, e.2.id < s.nextDeploymentID → e ∈ s.activeJobs)
    (h : t.awaits k) : s.awaits k := by
  obtain ⟨i, hi, hqueued, hjob⟩ := awaits_iff.mp h
  rw [hk] at hi
  refine awaits_iff.mpr ⟨i, hi, hqueued, hjob.imp_right ?_⟩
  rintro ⟨e, he, hchallenge, hjob⟩
  exact ⟨e, hjobs e he (hs k i _ hi hjob), hchallenge, hjob⟩

/-- What a loop that queues services one by one has done so far: the rest is as it was. -/
structure Queued (s : MemoryStore) (c : Change MemoryStore α) (job : Option Int) : Prop where
  queued : ∀ k ∈ c.queued, ∃ i, c.store.instances.lookup k = some i ∧
    i.runtimeStatus = .queued ∧ i.deploymentJobID = job
  others : ∀ k ∉ c.queued, c.store.instances.lookup k = s.instances.lookup k
  deployments : c.store.deployments = s.deployments
  nextDeploymentID : c.store.nextDeploymentID = s.nextDeploymentID

theorem Queued.setService {done : List ServiceKey} {r : Except StoreError α} {job : Option Int}
    (h : Queued s { store := t, queued := done, result := r } job) {i : ServiceInstanceRecord}
    (hi : i.runtimeStatus = .queued) (hjob : i.deploymentJobID = job) (state : ServiceState) :
    Queued s { store := t.setService k i state, queued := done ++ [k], result := r } job := by
  refine ⟨fun k' hk' => ?_, fun k' hk' => ?_, h.deployments, h.nextDeploymentID⟩
  · by_cases heq : k' = k
    · exact ⟨i, by rw [heq]; exact AList.lookup_insert _, hi, hjob⟩
    · obtain ⟨i', hi'⟩ := h.queued k' (by simpa [heq] using hk')
      exact ⟨i', (AList.lookup_insert_ne heq).trans hi'.1, hi'.2⟩
  · simp only [List.mem_append, List.mem_singleton, not_or] at hk'
    exact (AList.lookup_insert_ne hk'.2).trans (h.others k' hk'.1)

theorem deployTeams_queued (config : RuntimeConfig) (jobID : Int) (input : StoreInput)
    (n : Nat) (teams : List Int) (done : List ServiceKey)
    (h : Queued s { store := t, queued := done, result := .ok () } (some jobID)) :
    Queued s (deployTeams config jobID input n teams t done) (some jobID) := by
  induction teams generalizing n t done with
  | nil => exact h
  | cons teamID rest ih =>
    unfold deployTeams
    cases input.newCheckerToken n with
    | error e => exact ⟨h.queued, h.others, h.deployments, h.nextDeploymentID⟩
    | ok token => exact ih _ _ (h.setService rfl rfl _)

theorem joinChallenges_queued (teamID : Int) (input : StoreInput) (n : Nat)
    (challenges : List (Int × AdminChallenge)) (done : List ServiceKey)
    (h : Queued s { store := t, queued := done, result := .ok () } none) :
    Queued s (joinChallenges teamID input n challenges t done) none := by
  induction challenges generalizing n t done with
  | nil => exact h
  | cons c rest ih =>
    unfold joinChallenges
    cases input.newCheckerToken n with
    | error e => exact ⟨h.queued, h.others, h.deployments, h.nextDeploymentID⟩
    | ok token => exact ih _ _ (h.setService rfl rfl _)

end calls

/-- The in-memory store as a backend. -/
def store (T : CaseTable) : Store MemoryStore where
  valid := Valid
  runtimeStatus := runtimeStatus
  awaits := awaits
  listControllerRuntimeTasks input s := .ok (s.listControllerRuntimeTasks input)
  reconcileAdminDeployments := reconcileAdminDeployments
  deployAdminChallenge := deployAdminChallenge
  requeueTeamServices := requeueTeamServices
  requeueChallengeServices := requeueChallengeServices
  createAdminTeam := createAdminTeam T

section lawful
variable {T : CaseTable} {s : MemoryStore} {α : Type}

theorem runtimeStatus_eq {k : ServiceKey} {status : RuntimeStatus} :
    s.runtimeStatus k = some status ↔ ∃ i, s.instances.lookup k = some i ∧
      i.runtimeStatus = status := by
  simp [runtimeStatus]

/-- A call that sets some instances to `queued` and leaves or removes the others. -/
theorem queues_of {c : Change MemoryStore α} (hs : s.Valid)
    (hqueued : ∀ k ∈ c.queued, ∃ i, c.store.instances.lookup k = some i ∧
      i.runtimeStatus = .queued ∧ ∀ job, i.deploymentJobID = some job →
        job < c.store.nextDeploymentID)
    (hothers : ∀ k ∉ c.queued,
      c.store.instances.lookup k = s.instances.lookup k ∨ c.store.instances.lookup k = none)
    (hnext : s.nextDeploymentID ≤ c.store.nextDeploymentID)
    (hjobs : ∀ e ∈ c.store.activeJobs, e.2.id < s.nextDeploymentID → e ∈ s.activeJobs) :
    (store T).Queues s c where
  valid k i job hi hjob := by
    by_cases hk : k ∈ c.queued
    · obtain ⟨i', hi', -, hlt⟩ := hqueued k hk
      cases hi.symm.trans hi'
      exact hlt job hjob
    · rcases hothers k hk with heq | hnone
      · exact (hs k i job (heq ▸ hi) hjob).trans_le hnext
      · cases hi.symm.trans hnone
  awaits k h := by
    by_cases hk : k ∈ c.queued
    · exact .inl hk
    · rcases hothers k hk with heq | hnone
      · exact .inr (awaits_of_lookup_eq hs heq hjobs h)
      · obtain ⟨i, hi, -⟩ := awaits_iff.mp h
        cases hi.symm.trans hnone
  queued k hk := by
    obtain ⟨i, hi, hstatus, -⟩ := hqueued k hk
    exact runtimeStatus_eq.mpr ⟨i, hi, hstatus⟩
  ready k h h' := by
    obtain ⟨i, hi, hstatus⟩ := runtimeStatus_eq.mp h'
    by_cases hk : k ∈ c.queued
    · obtain ⟨i', hi', hstatus', -⟩ := hqueued k hk
      cases hi.symm.trans hi'
      cases hstatus.symm.trans hstatus'
    · rcases hothers k hk with heq | hnone
      · obtain ⟨i', hi', hstatus'⟩ := runtimeStatus_eq.mp h
        cases hi.symm.trans (heq.trans hi')
        cases hstatus.symm.trans hstatus'
      · cases hi.symm.trans hnone

/-- A call that changes nothing. -/
theorem queues_refl (hs : s.Valid) (r : Except StoreError α) :
    (store T).Queues s { store := s, result := r } :=
  queues_of hs nofun (fun _ _ => .inl rfl) le_rfl fun _ h _ => h

theorem requeue_queues (hs : s.Valid) (which : ServiceKey → Bool) (lastEvent : String)
    (now : Stamp) : (store T).Queues s (s.requeue which lastEvent now) := by
  refine queues_of hs (fun k hk => ?_) (fun k hk => .inl ?_) le_rfl fun _ h _ => h
  · obtain ⟨hmem, hwhich⟩ := List.mem_filter.mp hk
    obtain ⟨i, hi⟩ := Option.isSome_iff_exists.mp (Go.Map.mem_keys.mp hmem)
    refine ⟨{ i with runtimeStatus := .queued, updatedAt := now }, ?_, rfl,
      fun job hjob => hs k i job hi hjob⟩
    rw [requeue, Go.Map.lookup_mapValues, hi, Option.map_some, if_pos hwhich]
  · rw [requeue, Go.Map.lookup_mapValues]
    cases hi : s.instances.lookup k with
    | none => rfl
    | some i =>
      have hwhich : ¬which k = true := fun hwhich =>
        hk (List.mem_filter.mpr ⟨Go.Map.mem_keys.mpr (by rw [hi]; rfl), hwhich⟩)
      rw [Option.map_some, if_neg hwhich]

/-- Superseding activates no job. -/
theorem supersede_active {challengeID jobID : Int} {now : Stamp} {job : AdminDeploymentJob}
    (h : (supersede challengeID jobID now job).status.isActive) :
    supersede challengeID jobID now job = job := by
  unfold supersede at *
  split at h
  · cases h
  · exact if_neg ‹_›

theorem mem_activeJobs_of_supersede {t : MemoryStore} {challengeID jobID : Int} {now : Stamp}
    (ht : t.deployments = s.deployments.mapValues fun _ => supersede challengeID jobID now)
    {e : Int × AdminDeploymentJob} (he : e ∈ t.activeJobs) : e ∈ s.activeJobs := by
  obtain ⟨hmem, hactive⟩ := List.mem_filter.mp he
  rw [ht] at hmem
  have hlookup := Go.Map.mem_pairs.mp hmem
  rw [Go.Map.lookup_mapValues] at hlookup
  obtain ⟨job, hjob, heq⟩ := Option.map_eq_some_iff.mp hlookup
  refine List.mem_filter.mpr ⟨Go.Map.mem_pairs.mpr ?_, hactive⟩
  rw [← heq] at hactive
  rw [hjob, ← heq, supersede_active hactive]

theorem deployAdminChallenge_queues (hs : s.Valid) (challengeID : Int) (input : StoreInput) :
    (store T).Queues s (s.deployAdminChallenge challengeID input) := by
  unfold deployAdminChallenge
  cases s.challenges.lookup challengeID with
  | none => exact queues_refl hs _
  | some challenge =>
    dsimp only
    generalize (input.rt.range 0 s.teams.pairs).map (·.1) = teams
    by_cases hteams : teams = []
    · subst hteams
      exact queues_of hs nofun (fun _ _ => .inl rfl) le_rfl fun e he _ =>
        mem_activeJobs_of_supersede rfl he
    · simp only [if_neg hteams]
      -- whatever the loop has done, its instances belong to the new job
      have hloop := deployTeams_queued (challenge.runtimeConfig challengeID) s.nextDeploymentID
        input 0 teams [] (s := { s with nextDeploymentID := s.nextDeploymentID + 1 })
        ⟨nofun, fun _ _ => rfl, rfl, rfl⟩
      generalize deployTeams (challenge.runtimeConfig challengeID) s.nextDeploymentID input 0 teams
        { s with nextDeploymentID := s.nextDeploymentID + 1 } [] = c at hloop
      have hnew : ∀ k ∈ c.queued, ∃ i, c.store.instances.lookup k = some i ∧
          i.runtimeStatus = .queued ∧
          ∀ job, i.deploymentJobID = some job → job < c.store.nextDeploymentID := by
        intro k hk
        obtain ⟨i, hi, hstatus, hjob⟩ := hloop.queued k hk
        refine ⟨i, hi, hstatus, fun job h => ?_⟩
        rw [hloop.nextDeploymentID, ← Option.some.inj (hjob.symm.trans h)]
        exact Int.lt_succ _
      have hnext : s.nextDeploymentID ≤ c.store.nextDeploymentID := by
        rw [hloop.nextDeploymentID]
        exact Int.le_add_one le_rfl
      cases hc : c.result with
      | error e =>
        refine queues_of hs hnew (fun k hk => .inl (hloop.others k hk)) hnext fun e he _ => ?_
        rwa [activeJobs, hloop.deployments] at he
      | ok =>
        refine queues_of hs hnew (fun k hk => .inl (hloop.others k hk)) hnext fun e he hid => ?_
        obtain ⟨hmem, hactive⟩ := List.mem_filter.mp he
        have hlookup := Go.Map.mem_pairs.mp hmem
        by_cases hkey : e.1 = s.nextDeploymentID
        · rw [hkey, AList.lookup_insert, Option.some.injEq] at hlookup
          rw [← hlookup] at hid
          exact absurd hid (lt_irrefl _)
        · rw [AList.lookup_insert_ne hkey, hloop.deployments] at hlookup
          exact mem_activeJobs_of_supersede (t := { s with
            deployments := s.deployments.mapValues fun _ => supersede challengeID _ _ }) rfl
            (List.mem_filter.mpr ⟨Go.Map.mem_pairs.mpr hlookup, hactive⟩)

theorem createAdminTeam_queues (hs : s.Valid) (request : AdminCreateTeamRequest)
    (input : StoreInput) : (store T).Queues s (s.createAdminTeam T request input) := by
  unfold createAdminTeam
  dsimp only
  split
  · exact queues_refl hs _
  split
  · exact queues_refl hs _
  split
  · exact queues_refl hs _
  rename_i id _
  split
  · exact queues_refl hs _
  rename_i joinKey _
  generalize hcreated : ({ s with
    teams := s.teams.insert id _, teamNames := s.teamNames.insert id _
    teamStates := s.teamStates.filterKeys _
    instances := s.instances.filterKeys _ } : MemoryStore) = created
  have hloop := joinChallenges_queued id input 1
    ((input.rt.range 0 s.challenges.pairs).filter fun (_, c) => c.published) [] (s := created)
    ⟨nofun, fun _ _ => rfl, rfl, rfl⟩
  generalize joinChallenges id input 1 _ created [] = c at hloop
  have hothers : ∀ k ∉ c.queued, c.store.instances.lookup k = s.instances.lookup k ∨
      c.store.instances.lookup k = none := by
    intro k hk
    rw [hloop.others k hk, ← hcreated, Go.Map.lookup_filterKeys]
    split
    · exact .inl rfl
    · exact .inr rfl
  have hnew : ∀ k ∈ c.queued, ∃ i, c.store.instances.lookup k = some i ∧
      i.runtimeStatus = .queued ∧
      ∀ job, i.deploymentJobID = some job → job < c.store.nextDeploymentID := by
    intro k hk
    obtain ⟨i, hi, hstatus, hjob⟩ := hloop.queued k hk
    exact ⟨i, hi, hstatus, fun job h => nomatch hjob.symm.trans h⟩
  have hnext : c.store.nextDeploymentID = s.nextDeploymentID := by
    rw [hloop.nextDeploymentID, ← hcreated]
  have hjobs : c.store.deployments = s.deployments := by rw [hloop.deployments, ← hcreated]
  cases c.result with
  | error e =>
    exact queues_of hs hnew hothers hnext.ge fun e he _ => by rwa [activeJobs, hjobs] at he
  | ok => exact queues_of hs hnew hothers hnext.ge fun e he _ => by rwa [activeJobs, hjobs] at he

theorem listControllerRuntimeTasks_covers {input : StoreInput} {k : ServiceKey} (h : s.awaits k) :
    k ∈ (s.listControllerRuntimeTasks input).map (·.key) := by
  obtain ⟨i, hi, hqueued, -⟩ := awaits_iff.mp h
  refine List.mem_map.mpr ⟨s.controllerRuntimeTask k i, ?_, rfl⟩
  rw [listControllerRuntimeTasks, (input.rt.sortSlice_perm _ _).mem_iff]
  refine List.mem_map.mpr ⟨(k, i), List.mem_filter.mpr ⟨?_, by simpa using hqueued⟩, rfl⟩
  rw [(input.rt.range_perm _ _).mem_iff]
  exact Go.Map.mem_pairs.mpr hi

theorem reconcileAdminDeployments_keeps (hs : s.Valid) (input : StoreInput) :
    (store T).Keeps s (s.reconcileAdminDeployments input) where
  valid k i job hi hjob := by
    rw [lookup_reconcileAdminDeployments] at hi
    obtain ⟨i', hi', rfl⟩ := Option.map_eq_some_iff.mp hi
    rw [nextDeploymentID_reconcileAdminDeployments]
    refine hs k i' job hi' ?_
    split at hjob <;> exact hjob
  awaits k h := by
    by_contra hk
    have hnot : ¬s.awaits k = true := fun h => hk (.inr h)
    refine hnot (awaits_of_lookup_eq hs ?_ (fun e he _ =>
      activeJobs_reconcileAdminDeployments he) h)
    rw [lookup_reconcileAdminDeployments]
    simp only [hnot, Bool.false_eq_true, if_false, Option.map_id']

theorem lawful (T : CaseTable) : (store T).Lawful where
  listControllerRuntimeTasks := by
    rintro input s tasks - ⟨⟩ k h
    exact listControllerRuntimeTasks_covers h
  reconcileAdminDeployments input _ hs := reconcileAdminDeployments_keeps hs input
  reconcileAdminDeployments_ready := by
    intro input s k hqueued hready
    obtain ⟨i, hi, hstatus⟩ := runtimeStatus_eq.mp hqueued
    obtain ⟨i', hi', hstatus'⟩ := runtimeStatus_eq.mp hready
    by_contra hk
    have hnot : ¬s.awaits k = true := hk
    obtain rfl : i = i' := by
      have hlookup := (lookup_reconcileAdminDeployments (s := s) (k := k)).symm.trans hi'
      simpa only [hi, hnot, Bool.false_eq_true, if_false, Option.map_some, Option.some.injEq]
        using hlookup
    cases hstatus.symm.trans hstatus'
  deployAdminChallenge challengeID input _ hs := deployAdminChallenge_queues hs challengeID input
  requeueTeamServices teamID input _ hs := requeue_queues hs _ _ _
  requeueChallengeServices challengeID input s hs := by
    change (store T).Queues s (s.requeueChallengeServices challengeID input)
    unfold requeueChallengeServices
    split
    · exact queues_refl hs _
    · exact requeue_queues hs _ _ _
  createAdminTeam request input _ hs := createAdminTeam_queues hs request input

end lawful

end MemoryStore

end ADPlatform.APIGateway
