import ADPlatform.APIGateway.Store
import ADPlatform.Lib.Table
import Mathlib.Data.List.Sort

/-! # The postgres store of the API gateway

The transactions of `postgresStore` that create, queue and deploy service instances. A transaction
is one step, at its last statement: the rows that it has written or locked before cannot have
changed since. Rows committed by others after its `SELECT` are the ones its input calls unseen. A
failed transaction is rolled back. -/

namespace ADPlatform.APIGateway
open GameCore (Time Stamp)
open Text

/-- A row of `scoreboard_entries`. -/
structure ScoreboardEntry where
  teamID : Int
  rank : Int
  teamName : String
  delta : String
  deriving DecidableEq, Repr

/-- The gateway's tables, a list of rows each. -/
structure PostgresStore where
  teams : List AdminTeam := []
  challenges : List AdminChallenge := []
  teamServiceStates : List ServiceState := []
  serviceInstances : List ServiceInstanceRecord := []
  deploymentJobs : List AdminDeploymentJob := []
  scoreboardEntries : List ScoreboardEntry := []
  deploymentJobsSeq : Int := 1
  scoreboardRankSeq : Int := 1

/-- The configuration columns of a challenge, with their defaults. -/
def AdminChallenge.configColumns (c : AdminChallenge) : RuntimeConfig where
  challengeID := c.id
  name := c.name
  baselineImage := c.baselineImage
  checkerImage := c.checkerImage
  servicePort := if c.servicePort = 0 then 10000 + c.id else c.servicePort
  serviceSubnetOctet := if c.serviceSubnetOctet = 0 then c.id else c.serviceSubnetOctet

/-- The row of `service_instances` that a deployment inserts. -/
def RuntimeConfig.instanceRow (c : RuntimeConfig) (teamID : Int) (job : Option Int)
    (checkerToken : String) (now : Stamp) : ServiceInstanceRecord :=
  { c.instanceFor teamID job checkerToken now with challengeName := "", servicePort := 0 }

/-- The row of `team_service_states` that a deployment inserts. -/
def RuntimeConfig.stateRow (c : RuntimeConfig) (teamID : Int) (lastEvent : String) : ServiceState :=
  { c.provisioningState teamID lastEvent with name := "" }

namespace PostgresStore

/-- The row of a service. -/
def instance? (s : PostgresStore) (k : ServiceKey) : Option ServiceInstanceRecord :=
  s.serviceInstances.find? (·.key = k)

/-- The runtime status of a service, if it has a row. -/
def runtimeStatus (s : PostgresStore) (k : ServiceKey) : Option RuntimeStatus :=
  (s.instance? k).map (·.runtimeStatus)

/-- The deployment jobs that are not closed. -/
def activeJobs (s : PostgresStore) : List AdminDeploymentJob :=
  s.deploymentJobs.filter (·.status.isActive)

/-- The service is one that a reconcile that sees every job deploys. -/
def awaits (s : PostgresStore) (k : ServiceKey) : Bool :=
  (s.instance? k).any fun i => i.standalone || s.activeJobs.any (·.covers k i)

/-! ## Listing -/

/-- `LEFT JOIN deployment_jobs`. -/
def joinJobs (s : PostgresStore) (job : Option Int) : List (Option AdminDeploymentJob) :=
  match s.deploymentJobs.filter fun dj => some dj.id = job with
  | [] => [none]
  | dj :: rest => (dj :: rest).map some

/-- The task that the controller reads: a service's row joined with its challenge. -/
def controllerRuntimeTask (si : ServiceInstanceRecord) (c : AdminChallenge) :
    ControllerRuntimeTask where
  deploymentJobID := si.deploymentJobID.getD 0
  teamID := si.teamID
  challengeID := si.challengeID
  challengeName := c.name
  runtimeKind := si.runtimeKind
  containerName := si.containerName
  stateVolume := si.stateVolume
  baselineImage := si.baselineImage
  checkerToken := si.checkerToken
  endpoint := si.endpoint
  sshHost := si.sshHost
  servicePort := c.servicePort
  unlockProofEpoch := if c.unlockProofEpoch < 1 then 1 else c.unlockProofEpoch

/-- `ORDER BY si.deployment_job_id, …`: a row without a job comes last. -/
def taskOrder (a b : ControllerRuntimeTask) : Bool :=
  if a.deploymentJobID = b.deploymentJobID then ¬ b.before a
  else if a.deploymentJobID = 0 then false
  else b.deploymentJobID = 0 || a.deploymentJobID < b.deploymentJobID

/-- `ListControllerRuntimeTasks`: one query, ordered. -/
def listControllerRuntimeTasks (input : StoreInput) (s : PostgresStore) :
    Except StoreError (List ControllerRuntimeTask) :=
  match input.fails with
  | some message => .error (.failure message)
  | none => .ok <| .insertionSort (fun a b => taskOrder a b) <|
      s.serviceInstances.flatMap fun si =>
        (s.challenges.filter (·.id = si.challengeID)).flatMap fun c =>
          (s.joinJobs si.deploymentJobID).filterMap fun dj =>
            if si.runtimeStatus = .queued ∧ (dj.elim .queued (·.status)).isActive then
              some (controllerRuntimeTask si c)
            else none

/-! ## Queueing -/

/-- The jobs of earlier deployments of a challenge are superseded. -/
def supersede (challengeID : Int) (jobID : Option Int) (now : Stamp) (job : AdminDeploymentJob) :
    AdminDeploymentJob :=
  if job.challengeID = challengeID ∧ some job.id ≠ jobID ∧ job.status.isActive then
    { job with status := .superseded, queuedTeamCount := 0, completedAt := now }
  else job

/-- `DeployAdminChallenge` as a transaction. -/
def deployAdminChallenge (challengeID : Int) (input : StoreInput) (s : PostgresStore) :
    Change PostgresStore AdminDeployment :=
  match input.fails with
  | some message => { store := s, result := .error (.failure message) }
  | none =>
  match s.challenges.find? (·.id = challengeID) with
  | none => { store := s, result := .error .challengeNotFound }
  | some challenge =>
    let config := challenge.configColumns
    let teamIDs := ((s.teams.map (·.id)).filter (· ∉ input.unseenTeams)).insertionSort (· ≤ ·)
    let createdAt := input.now.formatRFC3339
    match input.withTokens 0 teamIDs with
    | .error e => { store := s, result := .error e }
    | .ok tokens =>
      let nextval := s.deploymentJobsSeq + input.skipped
      let jobID := if teamIDs = [] then none else some nextval
      let status : DeploymentStatus := if teamIDs = [] then .completed else .queued
      let job : AdminDeploymentJob := {
        id := nextval, challengeID, challengeName := challenge.name, status := .queued
        targetTeamCount := teamIDs.length, queuedTeamCount := teamIDs.length, readyTeamCount := 0
        createdAt }
      let rows := tokens.map fun (teamID, token) => config.instanceRow teamID jobID token createdAt
      let states := teamIDs.map (config.stateRow · "baseline deployment queued by organizer")
      let superseded := s.deploymentJobs.map (supersede challengeID jobID createdAt)
      { store := { s with
          challenges := s.challenges.map fun c =>
            if c.id = challengeID then { c with published := true } else c
          teamServiceStates :=
            states.foldl (fun l r => Table.upsert ServiceState.key r l) s.teamServiceStates
          serviceInstances :=
            rows.foldl (fun l r => Table.upsert ServiceInstanceRecord.key r l) s.serviceInstances
          deploymentJobs := if teamIDs = [] then superseded else superseded ++ [job]
          deploymentJobsSeq := nextval + 1 }
        queued := rows.map (·.key)
        result := .ok {
          jobID := jobID.getD 0, challengeID, challengeName := challenge.name, status
          published := true, deployedTeamCount := teamIDs.length, totalTeamCount := teamIDs.length
          queuedTeamCount := teamIDs.length, readyTeamCount := 0, createdAt } }

/-- A requeued row loses its job. -/
def requeueRow (which : ServiceKey → Bool) (now : Stamp) (i : ServiceInstanceRecord) :
    ServiceInstanceRecord :=
  if which i.key then { i with runtimeStatus := .queued, deploymentJobID := none, updatedAt := now }
  else i

/-- Services are queued again, as rows without a deployment job. -/
def requeue (which : ServiceKey → Bool) (lastEvent : String) (input : StoreInput)
    (s : PostgresStore) : Change PostgresStore Unit :=
  match input.fails with
  | some message => { store := s, result := .error (.failure message) }
  | none =>
    { store := { s with
        serviceInstances := s.serviceInstances.map (requeueRow which input.now.formatRFC3339)
        teamServiceStates := s.teamServiceStates.map fun state =>
          if which state.key then state.requeued lastEvent else state }
      queued := (s.serviceInstances.map (·.key)).filter which
      result := .ok () }

/-- `RequeueTeamServices`; rows inserted meanwhile are not seen. -/
def requeueTeamServices (teamID : Int) (input : StoreInput) :
    PostgresStore → Change PostgresStore Unit :=
  requeue (fun k => k.1 = teamID && k.2 ∉ input.unseenChallenges)
    "redeploy queued by organizer reactivation" input

/-- `RequeueChallengeServices`; rows inserted meanwhile are not seen. -/
def requeueChallengeServices (challengeID : Int) (input : StoreInput) :
    PostgresStore → Change PostgresStore Unit :=
  requeue (fun k => k.2 = challengeID && k.1 ∉ input.unseenTeams)
    "redeploy queued after challenge maintenance resume" input

/-- `CreateAdminTeam` as a transaction. -/
def createAdminTeam (T : CaseTable) (request : AdminCreateTeamRequest) (input : StoreInput)
    (s : PostgresStore) : Change PostgresStore AdminTeam :=
  let name := trimSpace request.name
  let contactEmail := trimSpace (T.toLower request.contactEmail)
  if name = "" ∨ contactEmail = "" then { store := s, result := .error .duplicateResource }
  else match input.fails with
  | some message => { store := s, result := .error (.failure message) }
  | none =>
  if s.teams.any fun team => team.id ∉ input.unseenTeams &&
      (T.sqlLower team.name = T.sqlLower name ||
        T.sqlLower team.contactEmail = T.sqlLower contactEmail)
    then { store := s, result := .error .duplicateResource }
  else match teamNetworkIDs.find? fun id => id ∉ s.teams.map (·.id) with
  | none => { store := s, result := .error .teamAddressPool }
  | some id =>
    match input.newTeamJoinKey 0 with
    | .error e => { store := s, result := .error e }
    | .ok joinKey =>
      if s.teams.any fun team => team.contactEmail = contactEmail || team.joinKey = joinKey then
        { store := s, result := .error (.failure "insert team: duplicate key value") }
      else
      let challenges := s.challenges.filter fun c => c.published && c.id ∉ input.unseenChallenges
      match input.withTokens 1 (challenges.insertionSort fun a b => a.id ≤ b.id) with
      | .error e => { store := s, result := .error e }
      | .ok tokens =>
        let now := input.now.formatRFC3339
        let rows := tokens.map fun (c, token) => c.configColumns.instanceRow id none token now
        let states := tokens.map fun (c, _) =>
          c.configColumns.stateRow id "baseline deployment queued by team join"
        if (s.serviceInstances.map (·.key)).any fun k => k ∈ rows.map (·.key) then
          { store := s
            result := .error (.failure "insert service instance: duplicate key value") }
        else
          let rank := s.scoreboardRankSeq + input.skipped
          { store := { s with
              teams := s.teams ++ [{ id, name, contactEmail, joinKey }]
              scoreboardEntries :=
                s.scoreboardEntries ++ [{ teamID := id, rank, teamName := name, delta := "new" }]
              teamServiceStates := s.teamServiceStates ++ states
              serviceInstances := s.serviceInstances ++ rows
              scoreboardRankSeq := rank + 1 }
            queued := rows.map (·.key)
            result := .ok { id, name, contactEmail, joinKey, deployedChallenges := tokens.length } }

/-! ## Reconciling -/

/-- The instances that satisfy `marked` are deployed. -/
def markReady (marked : ServiceInstanceRecord → Bool) (now : Stamp) (s : PostgresStore) :
    PostgresStore :=
  let keys := (s.serviceInstances.filter marked).map (·.key)
  { s with
    serviceInstances := s.serviceInstances.map fun i => if marked i then i.markReady now else i
    teamServiceStates := s.teamServiceStates.map fun state =>
      if state.key ∈ keys then state.deployed else state }

/-- The turn of one deployment job. -/
def reconcileJob (now : Stamp) (acc : PostgresStore × AdminReconcileResult)
    (job : AdminDeploymentJob) : PostgresStore × AdminReconcileResult :=
  let (s, result) := acc
  let ready := s.serviceInstances.countP fun i => job.covers i.key i
  let marked := s.markReady (fun i => job.covers i.key i) now
  ({ marked with deploymentJobs := marked.deploymentJobs.map fun dj =>
       if dj.id = job.id then { dj with
         status := .completed
         queuedTeamCount := 0
         readyTeamCount := dj.readyTeamCount + ready
         completedAt := now }
       else dj },
   { processedJobs := result.processedJobs + 1
     processedInstances := result.processedInstances + ready
     completedJobs := result.completedJobs + 1 })

/-- `ReconcileAdminDeployments` as a transaction. -/
def reconcileAdminDeployments (input : StoreInput) (s : PostgresStore) :
    Change PostgresStore AdminReconcileResult :=
  match input.fails with
  | some message => { store := s, result := .error (.failure message) }
  | none =>
    let now := input.now.formatRFC3339
    let deployments :=
      (s.activeJobs.filter (·.id ∉ input.unseenJobs)).insertionSort fun a b => a.id ≤ b.id
    let (s, result) := deployments.foldl (reconcileJob now) (s, {})
    { store := s.markReady (·.standalone) now
      result := .ok { result with
        processedInstances :=
          result.processedInstances + s.serviceInstances.countP (·.standalone) } }

/-! ## What each call does to the instances -/

section reconcile
variable {s : PostgresStore} {k : ServiceKey} {now : Stamp} {input : StoreInput}

/-- The turns of several jobs mark the instances that one of them covers. -/
theorem serviceInstances_reconcileJobs (jobs : List AdminDeploymentJob)
    (acc : PostgresStore × AdminReconcileResult) :
    (jobs.foldl (reconcileJob now) acc).1.serviceInstances =
      acc.1.serviceInstances.map fun i =>
        if jobs.any fun job => job.covers i.key i then i.markReady now else i := by
  induction jobs generalizing acc with
  | nil => simp
  | cons job jobs ih =>
    rw [List.foldl_cons, ih]
    have hstep : (reconcileJob now acc job).1.serviceInstances =
        acc.1.serviceInstances.map fun i =>
          if job.covers i.key i then i.markReady now else i := rfl
    rw [hstep, List.map_map]
    refine List.map_congr_left fun i _ => ?_
    by_cases h : job.covers i.key i
    · have hnone : ∀ (job : AdminDeploymentJob) k, job.covers k (i.markReady now) = false :=
        fun job k => by simp [AdminDeploymentJob.covers, ServiceInstanceRecord.markReady]
      simp [h, hnone]
    · rw [Bool.not_eq_true] at h
      simp only [Function.comp_apply, h, Bool.false_eq_true, if_false, List.any_cons,
        Bool.false_or]

/-- The instance is one that the reconcile deploys. -/
def deploys (input : StoreInput) (s : PostgresStore) (i : ServiceInstanceRecord) : Bool :=
  i.standalone || (s.activeJobs.filter (·.id ∉ input.unseenJobs)).any fun job => job.covers i.key i

theorem serviceInstances_reconcileAdminDeployments (hfails : input.fails = none) :
    (s.reconcileAdminDeployments input).store.serviceInstances =
      s.serviceInstances.map fun i =>
        if s.deploys input i then i.markReady input.now.formatRFC3339 else i := by
  have hany : ∀ i, ((s.activeJobs.filter (·.id ∉ input.unseenJobs)).insertionSort
      fun a b => a.id ≤ b.id).any (fun job => job.covers i.key i) =
      (s.activeJobs.filter (·.id ∉ input.unseenJobs)).any fun job => job.covers i.key i :=
    fun i => (List.perm_insertionSort _ _).any_eq
  simp only [reconcileAdminDeployments, hfails, markReady, serviceInstances_reconcileJobs,
    List.map_map, hany]
  refine List.map_congr_left fun i _ => ?_
  simp only [deploys, Function.comp_apply]
  by_cases h : (s.activeJobs.filter (·.id ∉ input.unseenJobs)).any fun job => job.covers i.key i
  · have hmarked : (i.markReady input.now.formatRFC3339).standalone = false := by
      simp [ServiceInstanceRecord.standalone, ServiceInstanceRecord.markReady]
    simp only [h, if_true, hmarked, Bool.false_eq_true, if_false, Bool.or_true]
  · rw [Bool.not_eq_true] at h
    simp only [h, Bool.false_eq_true, if_false, Bool.or_false]

/-- No turn activates a job. -/
theorem reconcileJobs_frame (now : Stamp) (jobs : List AdminDeploymentJob)
    (acc : PostgresStore × AdminReconcileResult) :
    let t := (jobs.foldl (reconcileJob now) acc).1
    t.activeJobs ⊆ acc.1.activeJobs ∧ t.challenges = acc.1.challenges ∧
      t.deploymentJobsSeq = acc.1.deploymentJobsSeq := by
  induction jobs generalizing acc with
  | nil => exact ⟨List.Subset.refl _, rfl, rfl⟩
  | cons job jobs ih =>
    obtain ⟨hactive, hchallenges, hseq⟩ := ih (reconcileJob now acc job)
    refine ⟨List.Subset.trans hactive fun dj h => ?_, hchallenges, hseq⟩
    obtain ⟨hmem, hstatus⟩ := List.mem_filter.mp h
    obtain ⟨dj', hdj', rfl⟩ := List.mem_map.mp hmem
    split at hstatus
    · cases hstatus
    · rw [if_neg ‹_›]
      exact List.mem_filter.mpr ⟨hdj', hstatus⟩

end reconcile

/-- The references of the instances: to a challenge, and to a job that the sequence has passed. -/
structure Valid (s : PostgresStore) : Prop where
  challenge_ref : ∀ i ∈ s.serviceInstances, i.challengeID ∈ s.challenges.map (·.id)
  job_lt : ∀ i ∈ s.serviceInstances, ∀ job, i.deploymentJobID = some job → job < s.deploymentJobsSeq

/-- The postgres store as a backend. -/
def store (T : CaseTable) : Store PostgresStore where
  valid := Valid
  runtimeStatus := runtimeStatus
  awaits := awaits
  listControllerRuntimeTasks := listControllerRuntimeTasks
  reconcileAdminDeployments := reconcileAdminDeployments
  deployAdminChallenge := deployAdminChallenge
  requeueTeamServices := requeueTeamServices
  requeueChallengeServices := requeueChallengeServices
  createAdminTeam := createAdminTeam T

section lawful
variable {T : CaseTable} {s t : PostgresStore} {k : ServiceKey} {α : Type}

theorem mem_of_instance? {i : ServiceInstanceRecord} (h : s.instance? k = some i) :
    i ∈ s.serviceInstances ∧ i.key = k :=
  ⟨List.mem_of_find?_eq_some h, by simpa using List.find?_some h⟩

theorem runtimeStatus_eq {status : RuntimeStatus} :
    s.runtimeStatus k = some status ↔ ∃ i, s.instance? k = some i ∧ i.runtimeStatus = status := by
  simp [runtimeStatus]

theorem awaits_iff : s.awaits k ↔ ∃ i, s.instance? k = some i ∧ i.runtimeStatus = .queued ∧
    (i.deploymentJobID = none ∨
      ∃ job ∈ s.activeJobs, k.2 = job.challengeID ∧ i.deploymentJobID = some job.id) := by
  unfold awaits
  cases s.instance? k with
  | none => simp
  | some i =>
    simp only [Option.any_some, ServiceInstanceRecord.standalone, AdminDeploymentJob.covers,
      Bool.or_eq_true, Bool.and_eq_true, decide_eq_true_eq, List.any_eq_true, Option.some.injEq]
    constructor
    · rintro (⟨hnone, hqueued⟩ | ⟨job, hmem, ⟨hchallenge, hjob⟩, hqueued⟩)
      · exact ⟨i, rfl, hqueued, .inl hnone⟩
      · exact ⟨i, rfl, hqueued, .inr ⟨job, hmem, hchallenge, hjob⟩⟩
    · rintro ⟨_, rfl, hqueued, hnone | ⟨job, hmem, hchallenge, hjob⟩⟩
      · exact .inl ⟨hnone, hqueued⟩
      · exact .inr ⟨job, hmem, ⟨hchallenge, hjob⟩, hqueued⟩

theorem awaits_of_instance?_eq (hs : s.Valid) (hk : t.instance? k = s.instance? k)
    (hjobs : ∀ job ∈ t.activeJobs, job.id < s.deploymentJobsSeq → job ∈ s.activeJobs)
    (h : t.awaits k) : s.awaits k := by
  obtain ⟨i, hi, hqueued, hjob⟩ := awaits_iff.mp h
  rw [hk] at hi
  refine awaits_iff.mpr ⟨i, hi, hqueued, hjob.imp_right ?_⟩
  rintro ⟨job, hmem, hchallenge, hjob⟩
  have hlt := hs.job_lt i (mem_of_instance? hi).1 _ hjob
  exact ⟨job, hjobs job hmem hlt, hchallenge, hjob⟩

/-- A call that sets some instances to `queued` and leaves the others. -/
theorem queues_of {c : Change PostgresStore α} (hs : s.Valid) (hc : c.store.Valid)
    (hqueued : ∀ k ∈ c.queued, c.store.runtimeStatus k = some .queued)
    (hothers : ∀ k ∉ c.queued, c.store.instance? k = s.instance? k)
    (hjobs : ∀ job ∈ c.store.activeJobs, job.id < s.deploymentJobsSeq → job ∈ s.activeJobs) :
    (store T).Queues s c where
  valid := hc
  awaits k h := by
    by_cases hk : k ∈ c.queued
    · exact .inl hk
    · exact .inr (awaits_of_instance?_eq hs (hothers k hk) hjobs h)
  queued := hqueued
  ready k h h' := by
    by_cases hk : k ∈ c.queued
    · cases h'.symm.trans (hqueued k hk)
    · have heq : c.store.runtimeStatus k = s.runtimeStatus k := by
        rw [runtimeStatus, hothers k hk, runtimeStatus]
      cases h'.symm.trans (heq.trans h)

theorem queues_refl (hs : s.Valid) (r : Except StoreError α) :
    (store T).Queues s { store := s, result := r } :=
  queues_of hs hs nofun (fun _ _ => rfl) fun _ h _ => h

theorem requeueRow_key (which : ServiceKey → Bool) (now : Stamp) (i : ServiceInstanceRecord) :
    (requeueRow which now i).key = i.key := by
  unfold requeueRow
  split <;> rfl

theorem requeue_valid (hs : s.Valid) (which : ServiceKey → Bool) (now : Stamp) :
    Valid { s with serviceInstances := s.serviceInstances.map (requeueRow which now) } := by
  refine ⟨fun i hi => ?_, fun i hi job hjob => ?_⟩
  · obtain ⟨i', hi', rfl⟩ := List.mem_map.mp hi
    rw [show (requeueRow which now i').challengeID = i'.challengeID from
      congrArg Prod.snd (requeueRow_key which now i')]
    exact hs.challenge_ref i' hi'
  · obtain ⟨i', hi', rfl⟩ := List.mem_map.mp hi
    unfold requeueRow at hjob
    split at hjob
    · cases hjob
    · exact hs.job_lt i' hi' job hjob

theorem requeue_queues (hs : s.Valid) (which : ServiceKey → Bool) (lastEvent : String)
    (input : StoreInput) : (store T).Queues s (requeue which lastEvent input s) := by
  unfold requeue
  split
  · exact queues_refl hs _
  · have hfind (k : ServiceKey) := Table.find?_update (l := s.serviceInstances)
      (requeueRow_key which input.now.formatRFC3339) k
    have hvalid := requeue_valid hs which input.now.formatRFC3339
    refine queues_of hs ⟨hvalid.challenge_ref, hvalid.job_lt⟩ (fun k hk => ?_) (fun k hk => ?_)
      fun _ h _ => h
    · obtain ⟨hmem, hwhich⟩ := List.mem_filter.mp hk
      obtain ⟨i, -, hkey, hi⟩ := Table.find?_key_of_mem hmem
      refine runtimeStatus_eq.mpr ⟨_, (hfind k).trans (by rw [hi]; rfl), ?_⟩
      rw [requeueRow, hkey, if_pos hwhich]
    · refine (hfind k).trans ?_
      change (s.instance? k).map _ = s.instance? k
      cases hi : s.instance? k with
      | none => rfl
      | some i =>
        obtain ⟨hmem, hkey⟩ := mem_of_instance? hi
        have hwhich : ¬which i.key = true := fun hwhich =>
          hk (List.mem_filter.mpr ⟨hkey ▸ List.mem_map_of_mem hmem, hkey ▸ hwhich⟩)
        rw [Option.map_some, requeueRow, if_neg hwhich]

theorem supersede_active {challengeID : Int} {jobID : Option Int} {now : Stamp}
    {job : AdminDeploymentJob} (h : (supersede challengeID jobID now job).status.isActive) :
    supersede challengeID jobID now job = job := by
  unfold supersede at *
  split at h
  · cases h
  · exact if_neg ‹_›

theorem mem_activeJobs_of_supersede {challengeID : Int} {jobID : Option Int} {now : Stamp}
    {job : AdminDeploymentJob}
    (h : job ∈ (s.deploymentJobs.map (supersede challengeID jobID now)).filter
      (·.status.isActive)) :
    job ∈ s.activeJobs := by
  obtain ⟨hmem, hactive⟩ := List.mem_filter.mp h
  obtain ⟨job', hjob', rfl⟩ := List.mem_map.mp hmem
  have heq := supersede_active hactive
  rw [heq] at hactive ⊢
  exact List.mem_filter.mpr ⟨hjob', hactive⟩

theorem mem_published {challengeID id : Int} :
    id ∈ (s.challenges.map fun c => if c.id = challengeID then { c with published := true }
      else c).map (·.id) ↔ id ∈ s.challenges.map (·.id) := by
  rw [List.map_map]
  have hid : ((·.id) ∘ fun c : AdminChallenge =>
      if c.id = challengeID then { c with published := true } else c) = (·.id) := by
    funext c
    simp only [Function.comp_apply]
    split <;> rfl
  rw [hid]

theorem deployAdminChallenge_queues (hs : s.Valid) (challengeID : Int) (input : StoreInput) :
    (store T).Queues s (s.deployAdminChallenge challengeID input) := by
  unfold deployAdminChallenge
  split
  · exact queues_refl hs _
  split
  · exact queues_refl hs _
  rename_i challenge hchallenge
  dsimp only
  generalize ((s.teams.map (·.id)).filter (· ∉ input.unseenTeams)).insertionSort (· ≤ ·) = teamIDs
  split
  · exact queues_refl hs _
  rename_i tokens _
  generalize hjob :
      (if teamIDs = [] then none else some (s.deploymentJobsSeq + input.skipped)) = jobID
  generalize hrows : (tokens.map fun (teamID, token) =>
    challenge.configColumns.instanceRow teamID jobID token input.now.formatRFC3339) = rows
  have hrow : ∀ i ∈ rows, i.challengeID = challengeID ∧ i.runtimeStatus = .queued ∧
      i.deploymentJobID = jobID := by
    intro i hi
    rw [← hrows] at hi
    obtain ⟨⟨teamID, token⟩, -, rfl⟩ := List.mem_map.mp hi
    have hid : challenge.id = challengeID := by simpa using List.find?_some hchallenge
    exact ⟨hid, rfl, rfl⟩
  refine queues_of hs ⟨fun i hi => ?_, fun i hi job h => ?_⟩ (fun k hk => ?_) (fun k hk => ?_)
    fun job hmem hlt => ?_
  · refine mem_published.mpr ?_
    rcases Table.mem_foldl_upsert hi with hi | hi
    · exact hs.challenge_ref i hi
    · rw [(hrow i hi).1]
      refine List.mem_map.mpr ⟨challenge, List.mem_of_find?_eq_some hchallenge, ?_⟩
      simpa using List.find?_some hchallenge
  · change job < s.deploymentJobsSeq + input.skipped + 1
    rcases Table.mem_foldl_upsert hi with hi | hi
    · have hlt := hs.job_lt i hi job h
      omega
    · rw [(hrow i hi).2.2, ← hjob] at h
      split at h
      · cases h
      · cases h
        exact Int.lt_succ _
  · obtain ⟨i, hi, hfind⟩ := Table.find?_foldl_upsert_of_mem (l := s.serviceInstances) hk
    exact runtimeStatus_eq.mpr ⟨i, hfind, (hrow i hi).2.1⟩
  · exact Table.find?_foldl_upsert_of_notMem hk
  · obtain ⟨hmem, hactive⟩ := List.mem_filter.mp hmem
    dsimp only at hmem
    split at hmem
    · exact mem_activeJobs_of_supersede (List.mem_filter.mpr ⟨hmem, hactive⟩)
    · rcases List.mem_append.mp hmem with hmem | hmem
      · exact mem_activeJobs_of_supersede (List.mem_filter.mpr ⟨hmem, hactive⟩)
      · rw [List.mem_singleton.mp hmem] at hlt
        simp only at hlt
        omega

theorem createAdminTeam_queues (hs : s.Valid) (request : AdminCreateTeamRequest)
    (input : StoreInput) : (store T).Queues s (s.createAdminTeam T request input) := by
  unfold createAdminTeam
  dsimp only
  split
  · exact queues_refl hs _
  split
  · exact queues_refl hs _
  split
  · exact queues_refl hs _
  split
  · exact queues_refl hs _
  rename_i id _
  split
  · exact queues_refl hs _
  split
  · exact queues_refl hs _
  split
  · exact queues_refl hs _
  rename_i tokens htokens
  split
  · exact queues_refl hs _
  rename_i hfresh
  generalize hrows : (tokens.map fun (c, token) =>
    c.configColumns.instanceRow id none token input.now.formatRFC3339) = rows at hfresh ⊢
  have hrow : ∀ i ∈ rows, i.challengeID ∈ s.challenges.map (·.id) ∧ i.runtimeStatus = .queued ∧
      i.deploymentJobID = none := by
    intro i hi
    rw [← hrows] at hi
    obtain ⟨⟨c, token⟩, hc, rfl⟩ := List.mem_map.mp hi
    refine ⟨List.mem_map_of_mem (f := (·.id)) (a := c) ?_, rfl, rfl⟩
    have hmem := List.mem_map_of_mem (f := (·.1)) hc
    rw [StoreInput.map_fst_withTokens htokens, (List.perm_insertionSort _ _).mem_iff] at hmem
    exact (List.mem_filter.mp hmem).1
  have hnew : ∀ k ∈ rows.map (·.key), k ∉ s.serviceInstances.map (·.key) := by
    intro k hk hold
    exact hfresh (List.any_eq_true.mpr ⟨k, hold, decide_eq_true hk⟩)
  have hfind : ∀ k, (s.serviceInstances ++ rows).find? (fun i => i.key = k) =
      (s.instance? k).or (rows.find? fun i => i.key = k) := fun k => List.find?_append
  refine queues_of hs ⟨fun i hi => ?_, fun i hi job h => ?_⟩ (fun k hk => ?_) (fun k hk => ?_)
    fun _ h _ => h
  · rcases List.mem_append.mp hi with hi | hi
    · exact hs.challenge_ref i hi
    · exact (hrow i hi).1
  · rcases List.mem_append.mp hi with hi | hi
    · exact hs.job_lt i hi job h
    · cases (hrow i hi).2.2.symm.trans h
  · obtain ⟨i, hi, -, hk'⟩ := Table.find?_key_of_mem hk
    have hnone : s.instance? k = none := by
      refine List.find?_eq_none.mpr fun x hx hxk => hnew k hk ?_
      rw [← of_decide_eq_true hxk]
      exact List.mem_map_of_mem hx
    refine runtimeStatus_eq.mpr ⟨i, (hfind k).trans ?_, (hrow i hi).2.1⟩
    rw [hnone, Option.none_or, hk']
  · have hnone : rows.find? (fun i => i.key = k) = none := by
      refine List.find?_eq_none.mpr fun x hx hxk => hk ?_
      rw [← of_decide_eq_true hxk]
      exact List.mem_map_of_mem hx
    refine (hfind k).trans ?_
    rw [hnone, Option.or_none]

/-- An active job that a row points to shows in the join. -/
theorem exists_mem_joinJobs {job : Option Int}
    (h : job = none ∨ ∃ dj ∈ s.activeJobs, job = some dj.id) :
    ∃ dj ∈ s.joinJobs job, (dj.elim .queued (·.status) : DeploymentStatus).isActive := by
  unfold joinJobs
  cases hmatch : s.deploymentJobs.filter fun dj => some dj.id = job with
  | nil => exact ⟨none, .head _, rfl⟩
  | cons first rest =>
    obtain rfl | ⟨dj, hdj, rfl⟩ := h
    · have hfirst : first ∈ s.deploymentJobs.filter fun dj => some dj.id = none := by
        rw [hmatch]
        exact .head _
      simp at hfirst
    · obtain ⟨hmem, hactive⟩ := List.mem_filter.mp hdj
      refine ⟨some dj, List.mem_map_of_mem ?_, hactive⟩
      rw [← hmatch]
      exact List.mem_filter.mpr ⟨hmem, decide_eq_true rfl⟩

theorem listControllerRuntimeTasks_covers {input : StoreInput} {tasks : List ControllerRuntimeTask}
    (hs : s.Valid) (htasks : s.listControllerRuntimeTasks input = .ok tasks) (h : s.awaits k) :
    k ∈ tasks.map (·.key) := by
  unfold listControllerRuntimeTasks at htasks
  split at htasks
  · cases htasks
  cases htasks
  obtain ⟨i, hi, hqueued, hjob⟩ := awaits_iff.mp h
  obtain ⟨hmem, hkey⟩ := mem_of_instance? hi
  obtain ⟨c, hc, hid⟩ := List.mem_map.mp (hs.challenge_ref i hmem)
  obtain ⟨dj, hdj, hactive⟩ := exists_mem_joinJobs (s := s) (hjob.imp_right
    fun ⟨dj, hdj, _, hjob⟩ => ⟨dj, hdj, hjob⟩)
  refine List.mem_map.mpr ⟨controllerRuntimeTask i c, ?_, hkey⟩
  rw [(List.perm_insertionSort _ _).mem_iff]
  refine List.mem_flatMap.mpr ⟨i, hmem, List.mem_flatMap.mpr ⟨c, ?_, ?_⟩⟩
  · exact List.mem_filter.mpr ⟨hc, decide_eq_true hid⟩
  · exact List.mem_filterMap.mpr ⟨dj, hdj, if_pos ⟨hqueued, hactive⟩⟩

theorem instance?_reconcileAdminDeployments {input : StoreInput} (hfails : input.fails = none) :
    (s.reconcileAdminDeployments input).store.instance? k =
      (s.instance? k).map fun i =>
        if s.deploys input i then i.markReady input.now.formatRFC3339 else i := by
  rw [instance?, serviceInstances_reconcileAdminDeployments hfails]
  refine Table.find?_update (fun i => ?_) k
  split <;> rfl

/-- The jobs that a reconcile sees are active. -/
theorem awaits_of_deploys {input : StoreInput} {i : ServiceInstanceRecord}
    (hi : s.instance? k = some i) (h : s.deploys input i) : s.awaits k := by
  rw [awaits, hi, Option.any_some]
  obtain ⟨-, rfl⟩ := mem_of_instance? hi
  refine (Bool.or_eq_true _ _).mpr (((Bool.or_eq_true _ _).mp h).imp_right fun h => ?_)
  obtain ⟨job, hjob, hcovers⟩ := List.any_eq_true.mp h
  exact List.any_eq_true.mpr ⟨job, (List.mem_filter.mp hjob).1, hcovers⟩

theorem reconcileAdminDeployments_keeps (hs : s.Valid) (input : StoreInput) :
    (store T).Keeps s (s.reconcileAdminDeployments input) := by
  cases hfails : input.fails with
  | some message =>
    have heq : s.reconcileAdminDeployments input =
        { store := s, result := .error (.failure message) } := by
      rw [reconcileAdminDeployments, hfails]
    rw [heq]
    exact ⟨hs, fun k h => .inr h⟩
  | none =>
    have hrows := serviceInstances_reconcileAdminDeployments (s := s) hfails
    have hframe := reconcileJobs_frame input.now.formatRFC3339
      ((s.activeJobs.filter (·.id ∉ input.unseenJobs)).insertionSort fun a b => a.id ≤ b.id) (s, {})
    have hstore : (s.reconcileAdminDeployments input).store.activeJobs ⊆ s.activeJobs ∧
        (s.reconcileAdminDeployments input).store.challenges = s.challenges ∧
        (s.reconcileAdminDeployments input).store.deploymentJobsSeq = s.deploymentJobsSeq := by
      simp only [reconcileAdminDeployments, hfails]
      exact hframe
    obtain ⟨hactive, hchallenges, hseq⟩ := hstore
    refine ⟨⟨fun i hi => ?_, fun i hi job hjob => ?_⟩, fun k h => .inr ?_⟩
    · rw [hrows] at hi
      obtain ⟨i', hi', rfl⟩ := List.mem_map.mp hi
      rw [hchallenges]
      have hchallenge := hs.challenge_ref i' hi'
      split <;> exact hchallenge
    · rw [hrows] at hi
      obtain ⟨i', hi', rfl⟩ := List.mem_map.mp hi
      rw [hseq]
      refine hs.job_lt i' hi' job ?_
      split at hjob <;> exact hjob
    · obtain ⟨i, hi, hqueued, hjob⟩ := awaits_iff.mp h
      rw [instance?_reconcileAdminDeployments hfails] at hi
      obtain ⟨i', hi', rfl⟩ := Option.map_eq_some_iff.mp hi
      split at hqueued
      · cases hqueued
      · rename_i hnot
        rw [if_neg hnot] at hjob
        refine awaits_iff.mpr ⟨i', hi', hqueued, hjob.imp_right ?_⟩
        exact fun ⟨job, hmem, hcovers⟩ => ⟨job, hactive hmem, hcovers⟩

theorem reconcileAdminDeployments_ready {input : StoreInput}
    (hqueued : s.runtimeStatus k = some .queued)
    (hready : (s.reconcileAdminDeployments input).store.runtimeStatus k = some .ready) :
    s.awaits k := by
  cases hfails : input.fails with
  | some message =>
    rw [reconcileAdminDeployments, hfails] at hready
    cases hready.symm.trans hqueued
  | none =>
    obtain ⟨i, hi, hstatus⟩ := runtimeStatus_eq.mp hqueued
    obtain ⟨i', hi', hstatus'⟩ := runtimeStatus_eq.mp hready
    rw [instance?_reconcileAdminDeployments hfails, hi, Option.map_some, Option.some.injEq] at hi'
    by_cases hdeploys : s.deploys input i
    · exact awaits_of_deploys hi hdeploys
    · rw [if_neg hdeploys] at hi'
      cases (hi' ▸ hstatus').symm.trans hstatus

theorem lawful (T : CaseTable) : (store T).Lawful where
  listControllerRuntimeTasks hs htasks _ h := listControllerRuntimeTasks_covers hs htasks h
  reconcileAdminDeployments input _ hs := reconcileAdminDeployments_keeps hs input
  reconcileAdminDeployments_ready := reconcileAdminDeployments_ready
  deployAdminChallenge challengeID input _ hs := deployAdminChallenge_queues hs challengeID input
  requeueTeamServices teamID input _ hs :=
    requeue_queues hs (fun k => k.1 = teamID && k.2 ∉ input.unseenChallenges) _ input
  requeueChallengeServices challengeID input _ hs :=
    requeue_queues hs (fun k => k.2 = challengeID && k.1 ∉ input.unseenTeams) _ input
  createAdminTeam request input _ hs := createAdminTeam_queues hs request input

end lawful

end PostgresStore

end ADPlatform.APIGateway
