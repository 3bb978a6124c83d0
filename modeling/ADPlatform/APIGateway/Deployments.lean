import ADPlatform.APIGateway.Fleet

/-! # Deployment jobs of the in-memory store

A reconcile reaches an instance through a live deployment job of its challenge, or if the instance
has no job at all. `Settles` says that it reaches every instance that is queued and that the jobs
come out even; it is kept by exactly the calls that `keepsAwaited` admits. -/

namespace ADPlatform.APIGateway
open GameCore (Time Stamp)
open Text

namespace MemoryStore
variable {T : CaseTable} {s t : MemoryStore} {k : ServiceKey} {job : AdminDeploymentJob}

/-- After a reconcile `t` of `s` nothing waits: the tasks that the controller was given are
deployed, and the completed jobs have deployed no more than they were for, and left nothing
queued. -/
structure Settled (input : StoreInput) (s t : MemoryStore) : Prop where
  idle : ∀ k, t.runtimeStatus k ≠ some .queued
  ready : ∀ task ∈ s.listControllerRuntimeTasks input, t.runtimeStatus task.key = some .ready
  emptied : ∀ id job, t.deployments.lookup id = some job → job.status = .completed →
    job.queuedTeamCount = 0 ∧ job.readyTeamCount ≤ job.targetTeamCount

/-- A reconcile settles the store, in whatever order it goes through the maps. -/
def ReconcileSettles (s : MemoryStore) : Prop :=
  ∀ input, Settled input s (s.reconcileAdminDeployments input).store

/-- A live job waits for one of these services. -/
def jobWaits (s : MemoryStore) (which : ServiceKey → Prop) : Prop :=
  ∃ e ∈ s.activeJobs, ∃ k i, s.instances.lookup k = some i ∧ which k ∧ e.2.covers k i = true

/-- Each of these services has no job, or a live one. -/
def jobsLive (s : MemoryStore) (which : ServiceKey → Prop) : Prop :=
  ∀ k i, s.instances.lookup k = some i → which k →
    i.deploymentJobID = none ∨ ∃ e ∈ s.activeJobs, k.2 = e.2.challengeID ∧
      i.deploymentJobID = some e.2.id

/-- The call leaves no instance queued that a reconcile does not reach, and takes none from a job
that waits for it. -/
def keepsAwaited (s : MemoryStore) : MemoryCall → Prop
  | .requeueTeamServices id _ => s.jobsLive (·.1 = id)
  | .requeueChallengeServices c _ => (s.challenges.lookup c).isSome → s.jobsLive (·.2 = c)
  | .setChallengeMaintenance c maintenance _ =>
    maintenance = true → (s.challenges.lookup c).isSome → ¬ s.jobWaits (·.2 = c)
  | .deleteAdminChallenge c => (s.challenges.lookup c).isSome → ¬ s.jobWaits (·.2 = c)
  | .deleteAdminTeam id => (s.teams.lookup id).isSome → ¬ s.jobWaits (·.1 = id)
  | .deployAdminChallenge c input => (s.challenges.lookup c).isSome →
    (∃ message, input.random 0 = .error message) ∨
      ∀ i < s.teams.pairs.length, ∃ raw, input.random i = .ok raw
  | _ => True

/-! ## Jobs and the instances that belong to them -/

/-- The number of instances that wait for the job. -/
def covered (s : MemoryStore) (job : AdminDeploymentJob) : Nat := s.instances.count job.covers

/-- The number of instances of a job. -/
def owned (s : MemoryStore) (id : Int) : Nat :=
  s.instances.count fun _ i => i.deploymentJobID = some id

/-- The service is queued under the job, which is one of its challenge. -/
def Covers (s : MemoryStore) (job : AdminDeploymentJob) (k : ServiceKey) : Prop :=
  k.2 = job.challengeID ∧ ∃ p, s.place k = some p ∧ p.job = some job.id ∧ p.status = .queued

/-- A reconcile looks at the instance. -/
def Reached (s : MemoryStore) (k : ServiceKey) (p : Placement) : Prop :=
  p.job = none ∨ ∃ e ∈ s.activeJobs, k.2 = e.2.challengeID ∧ p.job = some e.2.id

theorem mem_activeJobs {e : Int × AdminDeploymentJob} :
    e ∈ s.activeJobs ↔ s.deployments.lookup e.1 = some e.2 ∧ e.2.status.isActive = true := by
  rw [activeJobs, List.mem_filter, ← Go.Map.mem_pairs]

theorem mem_covered : k ∈ s.instances.keysWith job.covers ↔ s.Covers job k := by
  rw [Go.Map.mem_keysWith]
  constructor
  · rintro ⟨i, hi, hcovers⟩
    simp only [AdminDeploymentJob.covers, Bool.and_eq_true, decide_eq_true_eq] at hcovers
    exact ⟨hcovers.1.1, i.placement, by rw [place, hi]; rfl, hcovers.1.2, hcovers.2⟩
  · rintro ⟨hc, p, hp, hjob, hqueued⟩
    obtain ⟨i, hi, rfl⟩ := Option.map_eq_some_iff.mp hp
    refine ⟨i, hi, ?_⟩
    simp only [AdminDeploymentJob.covers, Bool.and_eq_true, decide_eq_true_eq]
    exact ⟨⟨hc, hjob⟩, hqueued⟩

theorem mem_owned {id : Int} : k ∈ s.instances.keysWith (fun _ i => i.deploymentJobID = some id) ↔
    ∃ p, s.place k = some p ∧ p.job = some id := by
  rw [Go.Map.mem_keysWith]
  constructor
  · rintro ⟨i, hi, hjob⟩
    exact ⟨i.placement, by rw [place, hi]; rfl, of_decide_eq_true hjob⟩
  · rintro ⟨p, hp, hjob⟩
    obtain ⟨i, hi, rfl⟩ := Option.map_eq_some_iff.mp hp
    exact ⟨i, hi, decide_eq_true hjob⟩

theorem covered_le (h : ∀ k, s.Covers job k → t.Covers job k) : s.covered job ≤ t.covered job :=
  Go.Map.count_le_count fun k hk => mem_covered.mpr (h k (mem_covered.mp hk))

/-- An instance that is not covered any more lowers the count. -/
theorem covered_lt (h : ∀ k, t.Covers job k → s.Covers job k) (hk : s.Covers job k)
    (hnew : ¬ t.Covers job k) : t.covered job < s.covered job :=
  Go.Map.count_lt_count (fun k hk => mem_covered.mpr (h k (mem_covered.mp hk))) (mem_covered.mpr hk)
    fun hk => hnew (mem_covered.mp hk)

theorem exists_covers (h : 0 < s.covered job) : ∃ k, s.Covers job k := by
  obtain ⟨k, hk⟩ := Go.Map.count_pos h
  exact ⟨k, mem_covered.mp hk⟩

theorem owned_le {id : Int} (h : ∀ k p, t.place k = some p → p.job = some id →
    ∃ old, s.place k = some old ∧ old.job = some id) : t.owned id ≤ s.owned id := by
  refine Go.Map.count_le_count fun k hk => ?_
  obtain ⟨p, hp, hjob⟩ := mem_owned.mp hk
  exact mem_owned.mpr (h k p hp hjob)

theorem covered_le_owned : s.covered job ≤ s.owned job.id := by
  refine Go.Map.count_le_count fun k hk => ?_
  obtain ⟨-, p, hp, hjob, -⟩ := mem_covered.mp hk
  exact mem_owned.mpr ⟨p, hp, hjob⟩

theorem awaits_place : s.awaits k = true ↔
    ∃ p, s.place k = some p ∧ p.status = .queued ∧ s.Reached k p := by
  rw [awaits_iff]
  constructor
  · rintro ⟨i, hi, hqueued, hreached⟩
    exact ⟨i.placement, by rw [place, hi]; rfl, hqueued, hreached⟩
  · rintro ⟨p, hp, hqueued, hreached⟩
    obtain ⟨i, hi, rfl⟩ := Option.map_eq_some_iff.mp hp
    exact ⟨i, hi, hqueued, hreached⟩

theorem runtimeStatus_place : s.runtimeStatus k = (s.place k).map (·.status) := by
  rw [runtimeStatus, place, Option.map_map]
  rfl

theorem jobWaits_iff {which : ServiceKey → Prop} :
    s.jobWaits which ↔ ∃ e ∈ s.activeJobs, ∃ k, which k ∧ s.Covers e.2 k := by
  constructor
  · rintro ⟨e, he, k, i, hi, hk, hcovers⟩
    exact ⟨e, he, k, hk, mem_covered.mp (Go.Map.mem_keysWith.mpr ⟨i, hi, hcovers⟩)⟩
  · rintro ⟨e, he, k, hk, hcovers⟩
    obtain ⟨i, hi, hcovers⟩ := Go.Map.mem_keysWith.mp (mem_covered.mpr hcovers)
    exact ⟨e, he, k, i, hi, hk, hcovers⟩

theorem jobsLive_iff {which : ServiceKey → Prop} :
    s.jobsLive which ↔ ∀ k p, s.place k = some p → which k → s.Reached k p := by
  constructor
  · intro h k p hp hk
    obtain ⟨i, hi, rfl⟩ := Option.map_eq_some_iff.mp hp
    exact h k i hi hk
  · intro h k i hi hk
    exact h k i.placement (by rw [place, hi]; rfl) hk

/-! ## What a reconcile does to the jobs -/

/-- A job after its turn. -/
def completed (s : MemoryStore) (now : Stamp) (job : AdminDeploymentJob) : AdminDeploymentJob :=
  { job with
    status := .completed
    queuedTeamCount := job.queuedTeamCount - s.covered job
    readyTeamCount := job.readyTeamCount + s.covered job
    completedAt := now }

section reconcile
variable {now : Stamp} {jobs : List (Int × AdminDeploymentJob)}
  {acc : MemoryStore × AdminReconcileResult}
  {entry : Int × AdminDeploymentJob} {id : Int}

/-- The turn of one job marks no instance of another. -/
theorem covered_reconcileJob (hne : entry.2.id ≠ job.id) :
    (reconcileJob now acc entry).1.covered job = acc.1.covered job := by
  have hmarked : (reconcileJob now acc entry).1.covered job =
      (acc.1.instances.mapValues fun k i => if entry.2.covers k i then i.markReady now else i).count
        job.covers := rfl
  have hsame : (fun k i => job.covers k (if entry.2.covers k i then i.markReady now else i)) =
      job.covers := by
    funext k i
    split
    · rename_i hentry
      simp only [AdminDeploymentJob.covers, Bool.and_eq_true, decide_eq_true_eq] at hentry
      simp [AdminDeploymentJob.covers, ServiceInstanceRecord.markReady, hentry.1.2, hne]
    · rfl
  rw [hmarked, Go.Map.count_mapValues, hsame, covered]

theorem deployments_reconcileJobs_of_notMem (h : id ∉ jobs.map (·.1)) :
    (jobs.foldl (reconcileJob now) acc).1.deployments.lookup id = acc.1.deployments.lookup id := by
  induction jobs generalizing acc with
  | nil => rfl
  | cons entry jobs ih =>
    rw [List.map_cons, List.mem_cons, not_or] at h
    refine (ih h.2).trans ?_
    exact AList.lookup_insert_ne h.1

theorem deployments_reconcileJobs_of_mem (hkeys : (jobs.map (·.1)).Nodup)
    (hids : ∀ e ∈ jobs, e.2.id = e.1) (h : (id, job) ∈ jobs) :
    (jobs.foldl (reconcileJob now) acc).1.deployments.lookup id =
      some (acc.1.completed now job) := by
  induction jobs generalizing acc with
  | nil => cases h
  | cons entry jobs ih =>
    rw [List.map_cons, List.nodup_cons] at hkeys
    rw [List.forall_mem_cons] at hids
    rcases List.mem_cons.mp h with rfl | h
    · refine (deployments_reconcileJobs_of_notMem hkeys.1).trans ?_
      exact AList.lookup_insert _
    · -- the counts of this job are as they were before the first turn
      have hne : entry.2.id ≠ job.id := by
        rw [hids.1, hids.2 _ h]
        intro heq
        rw [heq] at hkeys
        exact hkeys.1 (List.mem_map_of_mem h)
      rw [List.foldl_cons, ih hkeys.2 hids.2 h, completed, covered_reconcileJob hne, completed]

/-- A reconcile completes the live jobs. -/
theorem deployments_reconcile (hids : ∀ id job, s.deployments.lookup id = some job → job.id = id)
    (input : StoreInput) (id : Int) :
    (s.reconcileAdminDeployments input).store.deployments.lookup id = (s.deployments.lookup id).map
      fun job => if job.status.isActive then s.completed input.now.formatRFC3339 job else job := by
  have hloop : (s.reconcileAdminDeployments input).store.deployments =
      ((input.rt.sortSlice (fun a b => a.2.id < b.2.id) s.activeJobs).foldl
        (reconcileJob input.now.formatRFC3339) (s, {})).1.deployments := by
    simp only [reconcileAdminDeployments, refreshAll_frame]
    rfl
  have hperm := input.rt.sortSlice_perm (fun a b => a.2.id < b.2.id) s.activeJobs
  have hkeys : ((input.rt.sortSlice (fun a b => a.2.id < b.2.id) s.activeJobs).map (·.1)).Nodup :=
    (hperm.map _).nodup_iff.mpr ((Go.Map.nodup_fst_pairs _).sublist (List.filter_sublist.map _))
  rw [hloop]
  by_cases hmem : id ∈ s.activeJobs.map (·.1)
  · obtain ⟨⟨id, job⟩, he, rfl⟩ := List.mem_map.mp hmem
    obtain ⟨hjob, hactive⟩ := mem_activeJobs.mp he
    rw [deployments_reconcileJobs_of_mem hkeys (fun e he => ?_) (hperm.mem_iff.mpr he), hjob,
      Option.map_some, if_pos hactive]
    exact hids e.1 e.2 (mem_activeJobs.mp (hperm.mem_iff.mp he)).1
  · rw [deployments_reconcileJobs_of_notMem (by rwa [(hperm.map _).mem_iff])]
    cases hjob : s.deployments.lookup id with
    | none => rfl
    | some job =>
      rw [Option.map_some, if_neg]
      exact fun hactive =>
        hmem (List.mem_map.mpr ⟨(id, job), mem_activeJobs.mpr ⟨hjob, hactive⟩, rfl⟩)

end reconcile

/-! ## The numbers of the jobs -/

/-- Jobs are numbered in order, a live one has all of its instances still to deploy, and no job has
more instances than it was made for. -/
structure JobsInOrder (s : MemoryStore) : Prop where
  given : ∀ k p job, s.place k = some p → p.job = some job → job < s.nextDeploymentID
  team : ∀ k p, s.place k = some p → s.hasTeam k.1 = true
  stored : ∀ id job, s.deployments.lookup id = some job → job.id = id ∧ id < s.nextDeploymentID
  ready : ∀ id job, s.deployments.lookup id = some job → job.readyTeamCount ≤ job.targetTeamCount
  live : ∀ id job, s.deployments.lookup id = some job → job.status.isActive = true →
    job.queuedTeamCount = job.targetTeamCount ∧ job.readyTeamCount = 0 ∧ 0 < job.targetTeamCount ∧
      s.owned id ≤ job.targetTeamCount

/-- The job is as it was, or it is over. -/
def Follows (old job : AdminDeploymentJob) : Prop :=
  job = old ∨ job.id = old.id ∧ job.status.isActive = false ∧
    job.readyTeamCount ≤ job.targetTeamCount

/-- A new job has all of its instances to deploy. -/
structure Fresh (t : MemoryStore) (id : Int) (job : AdminDeploymentJob) : Prop where
  number : job.id = id
  queued : job.queuedTeamCount = job.targetTeamCount
  ready : job.readyTeamCount = 0
  target : 0 < job.targetTeamCount
  owned : t.owned id ≤ job.targetTeamCount

/-- Only the next number is given out. -/
theorem JobsInOrder.of_step (h : s.JobsInOrder) (hnext : s.nextDeploymentID ≤ t.nextDeploymentID)
    (hplace : ∀ k p, t.place k = some p → t.hasTeam k.1 = true ∧ ∀ job, p.job = some job →
      (∃ old, s.place k = some old ∧ old.job = some job) ∨
      job = s.nextDeploymentID ∧ s.nextDeploymentID < t.nextDeploymentID)
    (hjobs : ∀ id job, t.deployments.lookup id = some job →
      (∃ old, s.deployments.lookup id = some old ∧ Follows old job) ∨
      id = s.nextDeploymentID ∧ s.nextDeploymentID < t.nextDeploymentID ∧ Fresh t id job) :
    t.JobsInOrder where
  given k p job hp hjob := by
    rcases (hplace k p hp).2 job hjob with ⟨old, hold, holdJob⟩ | ⟨rfl, hlt⟩
    · exact (h.given k old job hold holdJob).trans_le hnext
    · exact hlt
  team k p hp := (hplace k p hp).1
  stored id job hjob := by
    rcases hjobs id job hjob with ⟨old, hold, hfollows⟩ | ⟨rfl, hlt, hfresh⟩
    · obtain ⟨hid, hlt⟩ := h.stored id old hold
      refine ⟨?_, hlt.trans_le hnext⟩
      rcases hfollows with rfl | ⟨heq, -⟩
      · exact hid
      · exact heq.trans hid
    · exact ⟨hfresh.number, hlt⟩
  ready id job hjob := by
    rcases hjobs id job hjob with ⟨old, hold, rfl | ⟨-, -, hready⟩⟩ | ⟨-, -, hfresh⟩
    · exact h.ready id job hold
    · exact hready
    · rw [hfresh.ready]
      exact Nat.zero_le _
  live id job hjob hactive := by
    rcases hjobs id job hjob with ⟨old, hold, rfl | ⟨-, hover, -⟩⟩ | ⟨-, -, hfresh⟩
    · obtain ⟨hqueued, hready, htarget, howned⟩ := h.live id job hold hactive
      refine ⟨hqueued, hready, htarget, le_trans (owned_le fun k p hp hpjob => ?_) howned⟩
      rcases (hplace k p hp).2 id hpjob with hkept | ⟨heq, -⟩
      · exact hkept
      · exact absurd heq (h.stored id job hold).2.ne
    · rw [hover] at hactive
      cases hactive
    · exact ⟨hfresh.queued, hfresh.ready, hfresh.target, hfresh.owned⟩

theorem place_of_restatus {which : ServiceKey → Bool} {status : RuntimeStatus} {p : Placement}
    (h : s.restatus which status k = some p) : ∃ old, s.place k = some old ∧ p.job = old.job ∧
      p.status = if which k then status else old.status := by
  obtain ⟨old, hold, rfl⟩ := Option.map_eq_some_iff.mp h
  refine ⟨old, hold, ?_⟩
  split <;> exact ⟨rfl, rfl⟩

theorem place_of_without {which : ServiceKey → Bool} {p : Placement}
    (h : s.without which k = some p) : which k = false ∧ s.place k = some p := by
  unfold without at h
  split at h
  · cases h
  · exact ⟨Bool.eq_false_of_not_eq_true ‹_›, h⟩

theorem supersede_follows (c jobID : Int) (now : Stamp)
    (h : job.readyTeamCount ≤ job.targetTeamCount) : Follows job (supersede c jobID now job) := by
  unfold supersede
  split
  · exact .inr ⟨rfl, rfl, h⟩
  · exact .inl rfl

/-- Jobs of an earlier deployment come from `supersede`. -/
theorem follows_of_superseded (hs : s.JobsInOrder) {c jobID : Int} {now : Stamp} {id : Int}
    (h : (s.deployments.mapValues fun _ => supersede c jobID now).lookup id = some job) :
    ∃ old, s.deployments.lookup id = some old ∧ Follows old job := by
  rw [Go.Map.lookup_mapValues] at h
  obtain ⟨old, hold, rfl⟩ := Option.map_eq_some_iff.mp h
  exact ⟨old, hold, supersede_follows c jobID now (hs.ready id old hold)⟩

theorem JobsInOrder.covered_le (hs : s.JobsInOrder) {id : Int}
    (h : s.deployments.lookup id = some job) (hactive : job.status.isActive = true) :
    s.covered job ≤ job.targetTeamCount := by
  obtain ⟨-, -, -, howned⟩ := hs.live id job h hactive
  rw [← (hs.stored id job h).1] at howned
  exact covered_le_owned.trans howned

/-- The call changes no job, and gives no instance to another one. -/
theorem JobsInOrder.of_places (hs : s.JobsInOrder) (hjobs : t.deployments = s.deployments)
    (hnext : t.nextDeploymentID = s.nextDeploymentID)
    (hplace : ∀ k p, t.place k = some p → t.hasTeam k.1 = true ∧
      (p.job = none ∨ ∃ old, s.place k = some old ∧ p.job = old.job)) : t.JobsInOrder := by
  refine hs.of_step hnext.ge (fun k p hp => ?_) fun id job hjob =>
    .inl ⟨job, hjobs ▸ hjob, .inl rfl⟩
  obtain ⟨hteam, hold⟩ := hplace k p hp
  refine ⟨hteam, fun job hjob => .inl ?_⟩
  rcases hold with hnone | ⟨old, hold, heq⟩
  · cases hnone.symm.trans hjob
  · exact ⟨old, hold, heq.symm.trans hjob⟩

theorem fleet_ext {f : Fleet} (h : t.fleet = f) :
    t.place = f.place ∧ t.deployments = f.deployments ∧
    t.nextDeploymentID = f.nextDeploymentID ∧ t.hasTeam = f.hasTeam := by
  rw [← h]
  exact ⟨rfl, rfl, rfl, rfl⟩

theorem jobsInOrder_step {call : MemoryCall} {f : Fleet} (hs : s.JobsInOrder)
    (h : FleetStep T s call f) (hf : t.fleet = f) : t.JobsInOrder := by
  obtain ⟨hplace, hjobs, hnext, hteam⟩ := fleet_ext hf
  cases h with
  | unchanged | createRejected | deploymentKept =>
    refine hs.of_places hjobs hnext fun k p hp => ?_
    rw [hplace] at hp
    rw [hteam]
    exact ⟨hs.team k p hp, .inr ⟨p, hp, rfl⟩⟩
  | teamDeleted =>
    refine hs.of_places hjobs hnext fun k p hp => ?_
    rw [hplace] at hp
    dsimp only at hp
    obtain ⟨hk, hp⟩ := place_of_without hp
    rw [hteam]
    simp only [Bool.and_eq_true, decide_eq_true_eq]
    exact ⟨⟨of_decide_eq_false hk, hs.team k p hp⟩, .inr ⟨p, hp, rfl⟩⟩
  | challengeDeleted =>
    refine hs.of_places hjobs hnext fun k p hp => ?_
    rw [hplace] at hp
    dsimp only at hp
    obtain ⟨-, hp⟩ := place_of_without hp
    rw [hteam]
    exact ⟨hs.team k p hp, .inr ⟨p, hp, rfl⟩⟩
  | stopped | teamRequeued | challengeRequeued =>
    refine hs.of_places hjobs hnext fun k p hp => ?_
    rw [hplace] at hp
    dsimp only at hp
    obtain ⟨old, hold, hjob, -⟩ := place_of_restatus hp
    rw [hteam]
    exact ⟨hs.team k old hold, .inr ⟨old, hold, hjob⟩⟩
  | @created _ input id _ m place _ htokens hjoined hothers =>
    refine hs.of_places hjobs hnext fun k p hp => ?_
    rw [hplace] at hp
    rw [hteam]
    dsimp only at hp ⊢
    by_cases hk : k.1 = id
    · refine ⟨by rw [decide_eq_true hk, Bool.true_or], .inl ?_⟩
      by_cases hc : k.2 ∈ ((s.publishedChallenges input.rt).take m).map (·.1)
      · obtain ⟨e, he, heq⟩ := List.mem_map.mp hc
        have hnew := hjoined e he
        rw [heq, ← hk, hp] at hnew
        cases hnew
        rfl
      · rw [hothers k fun _ => hc, without, if_pos (decide_eq_true hk)] at hp
        cases hp
    · rw [hothers k fun h => absurd h hk, without, if_neg (by simpa using hk)] at hp
      exact ⟨by rw [hs.team k p hp, Bool.or_true], .inr ⟨p, hp, rfl⟩⟩
  | @deployed c input challenge h hteams htokens =>
    have hlt : s.nextDeploymentID < t.nextDeploymentID := hnext ▸ Int.lt_succ _
    refine hs.of_step hlt.le (fun k p hp => ?_) fun id job hjob => ?_
    · rw [hplace] at hp
      rw [hteam]
      dsimp only at hp
      split at hp
      · rename_i hk
        cases hp
        exact ⟨mem_teamOrder.mp hk.2, fun job hjob => .inr ⟨(Option.some.inj hjob).symm, hlt⟩⟩
      · exact ⟨hs.team k p hp, fun job hjob => .inl ⟨p, hp, hjob⟩⟩
    · rw [hjobs] at hjob
      dsimp only at hjob
      by_cases hid : id = s.nextDeploymentID
      · rw [hid, AList.lookup_insert] at hjob
        cases hjob
        have hlength := length_teamOrder s input.rt
        refine .inr ⟨hid, hlt, hid.symm, rfl, rfl, ?_, ?_⟩
        · rw [newJob, ← hlength]
          exact List.length_pos_iff.mpr hteams
        · -- the instances of the new job are at the services of this challenge
          have howned : t.owned id ≤ ((s.teamOrder input.rt).map fun team => (team, c)).length := by
            refine Go.Map.count_le_length fun k hk => ?_
            obtain ⟨p, hp, hpjob⟩ := mem_owned.mp hk
            rw [hplace] at hp
            dsimp only at hp
            split at hp
            · rename_i hk
              exact List.mem_map.mpr ⟨k.1, hk.2, Prod.ext rfl hk.1.symm⟩
            · exact absurd (hs.given k p id hp hpjob) (by rw [hid]; exact lt_irrefl _)
          rwa [List.length_map, hlength] at howned
      · rw [AList.lookup_insert_ne hid] at hjob
        exact .inl (follows_of_superseded hs hjob)
  | deployedNowhere h hteams =>
    refine hs.of_step hnext.ge (fun k p hp => ?_) fun id job hjob => ?_
    · rw [hplace] at hp
      rw [hteam]
      exact ⟨hs.team k p hp, fun job hjob => .inl ⟨p, hp, hjob⟩⟩
    · rw [hjobs] at hjob
      exact .inl (follows_of_superseded hs hjob)
  | @deployFailed c input challenge m h hm htokens =>
    have hlt : s.nextDeploymentID < t.nextDeploymentID := hnext ▸ Int.lt_succ _
    refine hs.of_step hlt.le (fun k p hp => ?_) fun id job hjob => .inl ?_
    · rw [hplace] at hp
      rw [hteam]
      dsimp only at hp
      split at hp
      · rename_i hk
        cases hp
        exact ⟨mem_teamOrder.mp (List.mem_of_mem_take hk.2), fun job hjob =>
          .inr ⟨(Option.some.inj hjob).symm, hlt⟩⟩
      · exact ⟨hs.team k p hp, fun job hjob => .inl ⟨p, hp, hjob⟩⟩
    · rw [hjobs] at hjob
      exact ⟨job, hjob, .inl rfl⟩
  | @deploymentDeleted id _ _ =>
    refine hs.of_step hnext.ge (fun k p hp => ?_) fun id' job hjob => ?_
    · rw [hplace] at hp
      obtain ⟨old, hold, rfl⟩ := Option.map_eq_some_iff.mp hp
      rw [hteam]
      refine ⟨hs.team k old hold, fun job hjob => .inl ⟨old, hold, ?_⟩⟩
      split at hjob
      · cases hjob
      · exact hjob
    · rw [hjobs] at hjob
      exact .inl ⟨job, Go.Map.lookup_of_erase hjob, .inl rfl⟩
  | @reconciled input =>
    refine hs.of_step hnext.ge (fun k p hp => ?_) fun id job hjob => .inl ?_
    · rw [hplace] at hp
      dsimp only at hp
      obtain ⟨old, hold, heq, -⟩ := place_of_restatus hp
      rw [hteam]
      exact ⟨hs.team k old hold, fun job hjob => .inl ⟨old, hold, heq.symm.trans hjob⟩⟩
    · rw [hjobs] at hjob
      dsimp only at hjob
      rw [deployments_reconcile fun id job h => (hs.stored id job h).1] at hjob
      obtain ⟨old, hold, rfl⟩ := Option.map_eq_some_iff.mp hjob
      refine ⟨old, hold, ?_⟩
      split
      · rename_i hactive
        refine .inr ⟨rfl, rfl, ?_⟩
        obtain ⟨-, hready, -⟩ := hs.live id old hold hactive
        rw [completed, hready, Nat.zero_add]
        exact hs.covered_le hold hactive
      · exact .inl rfl

theorem jobsInOrder_initial (h : s.Initial) : s.JobsInOrder := by
  obtain ⟨hjobs, hplaces⟩ := fleet_initial h
  have hnone : ∀ {id job}, s.deployments.lookup id ≠ some job := by
    intro id job hjob
    rw [hjobs, AList.lookup_empty] at hjob
    cases hjob
  refine ⟨fun k p job hp hjob => ?_, fun k p hp => (hplaces k p hp).1, fun _ _ h => absurd h hnone,
    fun _ _ h => absurd h hnone, fun _ _ h => absurd h hnone⟩
  obtain ⟨-, now, c, -, -, rfl⟩ := hplaces k p hp
  cases hjob

theorem jobsInOrder_exec (T : CaseTable) (call : MemoryCall) (h : s.JobsInOrder) :
    (s.exec T call).JobsInOrder :=
  jobsInOrder_step h (fleetStep_exec T call s) rfl

/-! ## What a reconcile settles -/

/-- Every queued instance is one that a reconcile reaches, a live job has its instances queued, and
a completed one has nothing left to do. -/
structure Settles (s : MemoryStore) : Prop where
  awaited : ∀ k p, s.place k = some p → p.status = .queued → s.Reached k p
  covered : ∀ e ∈ s.activeJobs, e.2.targetTeamCount ≤ s.covered e.2
  completed : ∀ id job, s.deployments.lookup id = some job → job.status = .completed →
    job.queuedTeamCount = 0

theorem place_reconcile (input : StoreInput) (s : MemoryStore) :
    (s.reconcileAdminDeployments input).store.place = s.restatus s.awaits .ready :=
  (fleet_ext (fleet_reconcile input)).1

theorem reconcileSettles_iff (hs : s.JobsInOrder) : ReconcileSettles s ↔ s.Settles := by
  have hids : ∀ id job, s.deployments.lookup id = some job → job.id = id := fun id job h =>
    (hs.stored id job h).1
  constructor
  · intro h
    obtain ⟨hidle, -, hemptied⟩ := h {}
    refine ⟨fun k p hp hqueued => ?_, fun e he => ?_, fun id job hjob hcompleted => ?_⟩
    · by_contra hnot
      have hawaits : s.awaits k = false := by
        rw [Bool.eq_false_iff, ne_eq, awaits_place]
        rintro ⟨p', hp', -, hreached⟩
        cases hp.symm.trans hp'
        exact hnot hreached
      refine hidle k ?_
      rw [runtimeStatus_place, place_reconcile, restatus, hp, hawaits]
      exact congrArg some hqueued
    · obtain ⟨hjob, hactive⟩ := mem_activeJobs.mp he
      have hlookup := deployments_reconcile hids {} e.1
      rw [hjob, Option.map_some, if_pos hactive] at hlookup
      obtain ⟨hzero, -⟩ := hemptied _ _ hlookup rfl
      rw [← (hs.live e.1 e.2 hjob hactive).1]
      exact Nat.sub_eq_zero_iff_le.mp hzero
    · have hlookup := deployments_reconcile hids {} id
      rw [hjob, Option.map_some, if_neg (by rw [hcompleted]; decide)] at hlookup
      exact (hemptied id job hlookup hcompleted).1
  · intro h input
    have hready : ∀ k p, s.place k = some p → p.status = .queued →
        (s.reconcileAdminDeployments input).store.runtimeStatus k = some .ready := by
      intro k p hp hqueued
      rw [runtimeStatus_place, place_reconcile, restatus, hp,
        awaits_place.mpr ⟨p, hp, hqueued, h.awaited k p hp hqueued⟩]
      rfl
    refine ⟨fun k hk => ?_, fun task htask => ?_, fun id job hjob hcompleted => ?_⟩
    · rw [runtimeStatus_place, place_reconcile] at hk
      obtain ⟨p, hp, hstatus⟩ := Option.map_eq_some_iff.mp hk
      obtain ⟨old, hold, -, heq⟩ := place_of_restatus hp
      split at heq
      · cases hstatus.symm.trans heq
      · have hqueued := heq.symm.trans hstatus
        have := hready k old hold hqueued
        rw [runtimeStatus_place, place_reconcile, hk] at this
        cases this
    · rw [listControllerRuntimeTasks, (input.rt.sortSlice_perm _ _).mem_iff] at htask
      obtain ⟨⟨k, i⟩, hmem, rfl⟩ := List.mem_map.mp htask
      obtain ⟨hmem, hqueued⟩ := List.mem_filter.mp hmem
      rw [(input.rt.range_perm _ _).mem_iff] at hmem
      exact hready k i.placement (by rw [place, Go.Map.mem_pairs.mp hmem]; rfl)
        (of_decide_eq_true hqueued)
    · rw [deployments_reconcile hids] at hjob
      obtain ⟨old, hold, rfl⟩ := Option.map_eq_some_iff.mp hjob
      split
      · rename_i hactive
        obtain ⟨hqueued, hzero, -⟩ := hs.live id old hold hactive
        have hcovered := h.covered (id, old) (mem_activeJobs.mpr ⟨hold, hactive⟩)
        refine ⟨?_, ?_⟩
        · rw [MemoryStore.completed, hqueued]
          exact Nat.sub_eq_zero_of_le hcovered
        · rw [MemoryStore.completed, hzero, Nat.zero_add]
          exact hs.covered_le hold hactive
      · rename_i hactive
        rw [if_neg hactive] at hcompleted
        exact ⟨h.completed id old hold hcompleted, hs.ready id old hold⟩

/-! ## Which calls keep it -/

theorem activeJobs_eq (h : t.deployments = s.deployments) : t.activeJobs = s.activeJobs := by
  rw [activeJobs, h, activeJobs]

theorem reached_eq (h : t.deployments = s.deployments) {p : Placement} :
    t.Reached k p ↔ s.Reached k p := by
  rw [Reached, activeJobs_eq h, Reached]

/-- No job has changed; what is queued was, or a reconcile reaches it; and no job has lost an
instance. -/
theorem Settles.of_places (h : s.Settles) (hjobs : t.deployments = s.deployments)
    (hqueued : ∀ k p, t.place k = some p → p.status = .queued → s.place k = some p ∨ s.Reached k p)
    (hcovers : ∀ e ∈ s.activeJobs, ∀ k, s.Covers e.2 k → t.Covers e.2 k) : t.Settles where
  awaited k p hp hstatus := by
    rw [reached_eq hjobs]
    exact (hqueued k p hp hstatus).elim (fun hold => h.awaited k p hold hstatus) id
  covered e he := by
    rw [activeJobs_eq hjobs] at he
    exact (h.covered e he).trans (covered_le (hcovers e he))
  completed id job hjob := h.completed id job (hjobs ▸ hjob)

/-- The services of `which` do not wait any more. -/
theorem settles_lost (hs : s.JobsInOrder) (h : s.Settles) {which : ServiceKey → Bool}
    (hjobs : t.deployments = s.deployments)
    (hqueued : ∀ k p, t.place k = some p → p.status = .queued → s.place k = some p)
    (hcovers : ∀ e ∈ s.activeJobs, ∀ k, t.Covers e.2 k ↔ s.Covers e.2 k ∧ which k = false) :
    t.Settles ↔ ¬ s.jobWaits fun k => which k = true := by
  rw [jobWaits_iff]
  constructor
  · rintro ht ⟨e, he, k, hk, hcovered⟩
    have hlt : t.covered e.2 < s.covered e.2 :=
      covered_lt (fun k hk => ((hcovers e he k).mp hk).1) hcovered fun hk' => by
        rw [((hcovers e he k).mp hk').2] at hk
        cases hk
    obtain ⟨hjob, hactive⟩ := mem_activeJobs.mp he
    have hge := ht.covered e (by rwa [activeJobs_eq hjobs])
    exact absurd (hs.covered_le hjob hactive) (not_le.mpr (hge.trans_lt hlt))
  · intro hnone
    refine h.of_places hjobs (fun k p hp hstatus =>
      .inl (hqueued k p hp hstatus)) fun e he k hk => ?_
    refine (hcovers e he k).mpr ⟨hk, ?_⟩
    rw [Bool.eq_false_iff]
    exact fun hwhich => hnone ⟨e, he, k, hwhich, hk⟩

theorem settles_without (hs : s.JobsInOrder) (h : s.Settles) {which : ServiceKey → Bool}
    (hjobs : t.deployments = s.deployments) (hplace : t.place = s.without which) :
    t.Settles ↔ ¬ s.jobWaits fun k => which k = true := by
  refine settles_lost hs h hjobs (fun k p hp _ => ?_) fun e _ k => ?_
  · rw [hplace] at hp
    exact (place_of_without hp).2
  · rw [Covers, hplace, without, Covers]
    cases which k <;> simp

theorem settles_stopped (hs : s.JobsInOrder) (h : s.Settles) {which : ServiceKey → Bool}
    (hjobs : t.deployments = s.deployments) (hplace : t.place = s.restatus which .stopped) :
    t.Settles ↔ ¬ s.jobWaits fun k => which k = true := by
  have hold : ∀ k p, t.place k = some p → p.status = .queued →
      s.place k = some p ∧ which k = false := by
    intro k p hp hstatus
    rw [hplace] at hp
    obtain ⟨old, hold, rfl⟩ := Option.map_eq_some_iff.mp hp
    cases hk : which k with
    | false => exact ⟨by simpa [hk] using hold, rfl⟩
    | true =>
      rw [hk] at hstatus
      cases hstatus
  refine settles_lost hs h hjobs (fun k p hp hstatus => (hold k p hp hstatus).1) fun e _ k => ?_
  constructor
  · rintro ⟨hc, p, hp, hjob, hstatus⟩
    obtain ⟨hsp, hk⟩ := hold k p hp hstatus
    exact ⟨⟨hc, p, hsp, hjob, hstatus⟩, hk⟩
  · rintro ⟨⟨hc, p, hp, hjob, hstatus⟩, hk⟩
    refine ⟨hc, p, ?_, hjob, hstatus⟩
    rw [hplace, restatus, hp, hk]
    rfl

theorem settles_requeued (h : s.Settles) {which : ServiceKey → Bool}
    (hjobs : t.deployments = s.deployments) (hplace : t.place = s.restatus which .queued) :
    t.Settles ↔ s.jobsLive fun k => which k = true := by
  rw [jobsLive_iff]
  constructor
  · intro ht k p hp hk
    have hqueued : t.place k = some { p with status := .queued } := by
      rw [hplace, restatus, hp, hk]
      rfl
    have hreached := ht.awaited k _ hqueued rfl
    rw [reached_eq hjobs] at hreached
    exact hreached
  · intro hlive
    refine h.of_places hjobs (fun k p hp hstatus => ?_) fun e _ k => ?_
    · rw [hplace] at hp
      obtain ⟨old, hold, rfl⟩ := Option.map_eq_some_iff.mp hp
      cases hk : which k with
      | false => exact .inl (by simpa [hk] using hold)
      | true =>
        have hreached := hlive k old hold hk
        exact .inr hreached
    · rintro ⟨hc, p, hp, hjob, hstatus⟩
      refine ⟨hc, if which k then { p with status := .queued } else p, ?_, ?_, ?_⟩
      · rw [hplace, restatus, hp]
        rfl
      · split <;> exact hjob
      · split
        · rfl
        · exact hstatus

/-- A job that `supersede` leaves alone, or that it ends. -/
theorem supersede_cases (c jobID : Int) (now : Stamp) (job : AdminDeploymentJob) :
    supersede c jobID now job = job ∧
      ¬(job.challengeID = c ∧ job.id ≠ jobID ∧ job.status.isActive) ∨
      (supersede c jobID now job).status = .superseded := by
  unfold supersede
  split
  · exact .inr rfl
  · exact .inl ⟨rfl, ‹_›⟩

theorem not_onFleet_keeps {call : MemoryCall} (h : s.onFleet call = false) :
    s.keepsAwaited call := by
  cases call with
  | requeueTeamServices => cases h
  | requeueChallengeServices c | deleteAdminChallenge c | deleteAdminTeam id
  | deployAdminChallenge c =>
    intro hsome
    rw [onFleet, hsome] at h
    cases h
  | setChallengeMaintenance c maintenance =>
    intro hon hsome
    rw [onFleet, hon, hsome] at h
    cases h
  | _ => trivial

theorem settles_deployed (hs : s.JobsInOrder) (h : s.Settles) {c : Int} {input : StoreInput}
    {challenge : AdminChallenge}
    (hplace : t.place = fun k => if k.2 = c ∧ k.1 ∈ s.teamOrder input.rt
      then some (challenge.placed k.1 (some s.nextDeploymentID)) else s.place k)
    (hjobs : t.deployments = (s.deployments.mapValues fun _ =>
      supersede c s.nextDeploymentID input.now.formatRFC3339).insert s.nextDeploymentID
        (s.newJob c challenge input)) : t.Settles := by
  have hnew : (s.nextDeploymentID, s.newJob c challenge input) ∈ t.activeJobs := by
    rw [mem_activeJobs, hjobs]
    exact ⟨AList.lookup_insert _, rfl⟩
  have hother : ∀ {id job}, id ≠ s.nextDeploymentID → (t.deployments.lookup id = some job ↔
      ∃ old, s.deployments.lookup id = some old ∧
        supersede c s.nextDeploymentID input.now.formatRFC3339 old = job) := by
    intro id job hid
    rw [hjobs, AList.lookup_insert_ne hid, Go.Map.lookup_mapValues, Option.map_eq_some_iff]
  -- the instances of the challenge are the new ones
  have hhere : ∀ k p, s.place k = some p → k.2 = c → k.1 ∈ s.teamOrder input.rt := fun k p hp _ =>
    mem_teamOrder.mpr (hs.team k p hp)
  refine ⟨fun k p hp hstatus => ?_, fun e he => ?_, fun id job hjob hcompleted => ?_⟩
  · rw [hplace] at hp
    dsimp only at hp
    split at hp
    · rename_i hk
      cases hp
      exact .inr ⟨_, hnew, hk.1, rfl⟩
    · rename_i hk
      rcases h.awaited k p hp hstatus with hnone | ⟨e, he, hc, hjob⟩
      · exact .inl hnone
      · obtain ⟨hlookup, hactive⟩ := mem_activeJobs.mp he
        have hne : ¬e.2.challengeID = c := fun heq => by
          rw [← hc] at heq
          exact hk ⟨heq, hhere k p hp heq⟩
        refine .inr ⟨e,
          mem_activeJobs.mpr ⟨(hother (hs.stored _ _ hlookup).2.ne).mpr ⟨e.2, hlookup, ?_⟩,
          hactive⟩, hc, hjob⟩
        exact if_neg fun hsup => hne hsup.1
  · obtain ⟨hlookup, hactive⟩ := mem_activeJobs.mp he
    by_cases hid : e.1 = s.nextDeploymentID
    · rw [hjobs, hid, AList.lookup_insert, Option.some.injEq] at hlookup
      have hlength : ((s.teamOrder input.rt).map fun team => ((team, c) : ServiceKey)).length =
          s.teams.pairs.length := by rw [List.length_map, length_teamOrder]
      rw [← hlookup, newJob, ← hlength]
      refine Go.Map.length_le_count ((nodup_teamOrder s input.rt).map fun a b hab =>
        ?_) fun k hk => ?_
      · exact congrArg Prod.fst hab
      · obtain ⟨team, hteam, rfl⟩ := List.mem_map.mp hk
        refine mem_covered.mpr ⟨rfl, challenge.placed team (some s.nextDeploymentID), ?_, rfl, rfl⟩
        rw [hplace]
        exact if_pos ⟨rfl, hteam⟩
    · obtain ⟨old, hold, hsup⟩ := (hother hid).mp hlookup
      obtain ⟨hid', hlt⟩ := hs.stored _ _ hold
      rcases supersede_cases c s.nextDeploymentID input.now.formatRFC3339 old with
        ⟨hsame, hcond⟩ | hover
      · rw [hsup] at hsame
        subst hsame
        have hne : ¬e.2.challengeID = c := fun heq => hcond ⟨heq, by rw [hid']; exact hid, hactive⟩
        refine (h.covered e (mem_activeJobs.mpr ⟨hold, hactive⟩)).trans (covered_le fun k hk => ?_)
        obtain ⟨hc, p, hp, hjob⟩ := hk
        refine ⟨hc, p, ?_, hjob⟩
        rw [hplace]
        exact (if_neg fun hk => hne (hc.symm.trans hk.1)).trans hp
      · rw [hsup] at hover
        rw [hover] at hactive
        cases hactive
  · by_cases hid : id = s.nextDeploymentID
    · rw [hjobs, hid, AList.lookup_insert, Option.some.injEq] at hjob
      rw [← hjob] at hcompleted
      cases hcompleted
    · obtain ⟨old, hold, hsup⟩ := (hother hid).mp hjob
      rcases supersede_cases c s.nextDeploymentID input.now.formatRFC3339 old with
        ⟨hsame, -⟩ | hover
      · rw [hsup] at hsame
        exact h.completed id job (hsame ▸ hold) hcompleted
      · rw [hsup, hcompleted] at hover
        cases hover

/-- A deployment that finds no team. -/
theorem settles_deployedNowhere (hs : s.JobsInOrder) (h : s.Settles) {c : Int} {input : StoreInput}
    (hteams : s.teamOrder input.rt = []) (hplace : t.place = s.place)
    (hjobs : t.deployments = s.deployments.mapValues fun _ =>
      supersede c 0 input.now.formatRFC3339) :
    t.Settles := by
  have hempty : ∀ k p, s.place k ≠ some p := by
    intro k p hp
    have hteam : k.1 ∈ s.teamOrder input.rt := mem_teamOrder.mpr (hs.team k p hp)
    rw [hteams] at hteam
    cases hteam
  refine ⟨fun k p hp => ?_, fun e he => ?_, fun id job hjob hcompleted => ?_⟩
  · rw [hplace] at hp
    exact absurd hp (hempty k p)
  · -- a live job would have instances
    have hmem := mem_activeJobs_of_supersede hjobs he
    obtain ⟨hlookup, hactive⟩ := mem_activeJobs.mp hmem
    obtain ⟨-, -, htarget, -⟩ := hs.live _ _ hlookup hactive
    obtain ⟨k, -, p, hp, -⟩ := exists_covers (htarget.trans_le (h.covered e hmem))
    exact absurd hp (hempty k p)
  · rw [hjobs, Go.Map.lookup_mapValues] at hjob
    obtain ⟨old, hold, hsup⟩ := Option.map_eq_some_iff.mp hjob
    rcases supersede_cases c 0 input.now.formatRFC3339 old with ⟨hsame, -⟩ | hover
    · rw [hsup] at hsame
      exact h.completed id job (hsame ▸ hold) hcompleted
    · rw [hsup, hcompleted] at hover
      cases hover

/-- A deployment that misses a token leaves the instances it has made without a job. -/
theorem settles_deployFailed (hs : s.JobsInOrder) (h : s.Settles) {c : Int} {input : StoreInput}
    {challenge : AdminChallenge} {m : Nat} (hm : m < (s.teamOrder input.rt).length)
    (htokens : input.TokensEnd 0 (s.teamOrder input.rt).length m)
    (hplace : t.place = fun k => if k.2 = c ∧ k.1 ∈ (s.teamOrder input.rt).take m
      then some (challenge.placed k.1 (some s.nextDeploymentID)) else s.place k)
    (hjobs : t.deployments = s.deployments) :
    t.Settles ↔ (∃ message, input.random 0 = .error message) ∨
      ∀ i < s.teams.pairs.length, ∃ raw, input.random i = .ok raw := by
  obtain ⟨message, hmessage⟩ := htokens.missing hm
  rw [Nat.zero_add] at hmessage
  cases m with
  | zero =>
    refine iff_of_true ?_ (.inl ⟨message, hmessage⟩)
    have hsame : t.place = s.place := by simp [hplace]
    refine h.of_places hjobs (fun k p hp _ => .inl (by rwa [hsame] at hp)) fun e _ k hk => ?_
    rwa [Covers, hsame]
  | succ m =>
    refine iff_of_false (fun ht => ?_) ?_
    · obtain ⟨team, hteam⟩ : ∃ team, team ∈ (s.teamOrder input.rt).take (m + 1) :=
        List.exists_mem_of_length_pos (by rw [List.length_take]; omega)
      have hreached := ht.awaited (team, c) (challenge.placed team (some s.nextDeploymentID))
        (by rw [hplace]; exact if_pos ⟨rfl, hteam⟩) rfl
      rcases hreached with hnone | ⟨e, he, -, hjob⟩
      · cases hnone
      · rw [activeJobs_eq hjobs] at he
        obtain ⟨hid, hlt⟩ := hs.stored _ _ (mem_activeJobs.mp he).1
        have heq : s.nextDeploymentID = e.2.id := Option.some.inj hjob
        rw [heq, hid] at hlt
        exact lt_irrefl _ hlt
    · rintro (⟨message', hmessage'⟩ | hall)
      · obtain ⟨raw, hraw⟩ := htokens.drawn 0 (Nat.zero_lt_succ m)
        cases hraw.symm.trans hmessage'
      · obtain ⟨raw, hraw⟩ := hall (m + 1) (by rwa [← length_teamOrder s input.rt])
        cases hraw.symm.trans hmessage

theorem settles_reconcile (hs : s.JobsInOrder) (h : s.Settles) (input : StoreInput) :
    (s.reconcileAdminDeployments input).store.Settles := by
  obtain ⟨hidle, -, hemptied⟩ := (reconcileSettles_iff hs).mpr h input
  refine ⟨fun k p hp hqueued => ?_, fun e he => ?_, fun id job hjob hcompleted => ?_⟩
  · refine absurd ?_ (hidle k)
    rw [runtimeStatus_place, hp, ← hqueued]
    rfl
  · obtain ⟨hlookup, hactive⟩ := mem_activeJobs.mp he
    rw [deployments_reconcile fun id job h => (hs.stored id job h).1] at hlookup
    obtain ⟨old, -, heq⟩ := Option.map_eq_some_iff.mp hlookup
    split at heq
    · rw [← heq] at hactive
      cases hactive
    · rename_i hover
      rw [heq] at hover
      exact absurd hactive hover
  · exact (hemptied id job hjob hcompleted).1

theorem settles_deploymentDeleted (hs : s.JobsInOrder) (h : s.Settles) {id : Int}
    (hidle : ∀ k p, s.place k = some p → p.job = some id → p.status ≠ .queued)
    (hplace : t.place = fun k => (s.place k).map fun p =>
      if p.job = some id then { p with job := none }
      else p) (hjobs : t.deployments = s.deployments.erase id) : t.Settles := by
  have hold : ∀ k p, t.place k = some p → p.status = .queued → s.place k = some p := by
    intro k p hp hstatus
    rw [hplace] at hp
    obtain ⟨old, hold, rfl⟩ := Option.map_eq_some_iff.mp hp
    split
    · rename_i hjob
      rw [if_pos hjob] at hstatus
      exact absurd hstatus (hidle k old hold hjob)
    · exact hold
  have hkept : ∀ e, e ∈ t.activeJobs ↔ e ∈ s.activeJobs ∧ e.1 ≠ id := by
    intro e
    rw [mem_activeJobs, hjobs, mem_activeJobs]
    by_cases hid : e.1 = id
    · rw [hid, AList.lookup_erase]
      simp
    · rw [AList.lookup_erase_ne hid]
      simp [hid]
  have hnumber : ∀ {e}, e ∈ s.activeJobs → e.2.id = e.1 := fun he =>
    (hs.stored _ _ (mem_activeJobs.mp he).1).1
  refine ⟨fun k p hp hstatus => ?_, fun e he => ?_, fun id' job hjob => ?_⟩
  · have hsp := hold k p hp hstatus
    refine (h.awaited k p hsp hstatus).imp_right ?_
    rintro ⟨e, he, hc, hjob⟩
    refine ⟨e, (hkept e).mpr ⟨he, ?_⟩, hc, hjob⟩
    rintro rfl
    rw [hnumber he] at hjob
    exact hidle k p hsp hjob hstatus
  · obtain ⟨he, hid⟩ := (hkept e).mp he
    refine (h.covered e he).trans (covered_le ?_)
    rintro k ⟨hc, p, hp, hjob, hstatus⟩
    refine ⟨hc, p, ?_, hjob, hstatus⟩
    rw [hplace]
    dsimp only
    rw [hp, Option.map_some, if_neg]
    rw [hjob, Option.some.injEq, hnumber he]
    exact hid
  · rw [hjobs] at hjob
    exact h.completed id' job (Go.Map.lookup_of_erase hjob)

theorem settles_created (hs : s.JobsInOrder) (h : s.Settles) {id : Int}
    {input : StoreInput} {m : Nat}
    (hnew : s.teams.lookup id = none)
    (hjoined : ∀ e ∈ (s.publishedChallenges input.rt).take m,
      t.place (id, e.1) = some (e.2.placed id none))
    (hothers : ∀ k, (k.1 = id → k.2 ∉ ((s.publishedChallenges input.rt).take m).map (·.1)) →
      t.place k = s.without (·.1 = id) k) (hjobs : t.deployments = s.deployments) : t.Settles := by
  refine h.of_places hjobs (fun k p hp _ => ?_) ?_
  · by_cases hk : k.1 = id → k.2 ∉ ((s.publishedChallenges input.rt).take m).map (·.1)
    · rw [hothers k hk] at hp
      exact .inl (place_of_without hp).2
    · rw [Classical.not_imp, not_not] at hk
      obtain ⟨e, he, heq⟩ := List.mem_map.mp hk.2
      have hplaced := hjoined e he
      rw [heq, ← hk.1, hp] at hplaced
      cases hplaced
      exact .inr (.inl rfl)
  · rintro e - k ⟨hc, p, hp, hjob⟩
    have hne : k.1 ≠ id := by
      intro heq
      have hteam := hs.team k p hp
      rw [hasTeam, heq, hnew] at hteam
      cases hteam
    refine ⟨hc, p, ?_, hjob⟩
    rw [hothers k fun heq => absurd heq hne, without, if_neg (by simpa using hne)]
    exact hp

/-- The calls that keep what a reconcile settles. -/
theorem settles_exec (T : CaseTable) (hs : s.JobsInOrder) (h : s.Settles) (call : MemoryCall) :
    (s.exec T call).Settles ↔ s.keepsAwaited call := by
  have hstep := fleetStep_exec T call s
  generalize hf : (s.exec T call).fleet = f at hstep
  obtain ⟨hplace, hjobs, -, -⟩ := fleet_ext hf
  have hsame : (s.exec T call).fleet = s.fleet → (s.exec T call).Settles := by
    intro heq
    obtain ⟨hplace, hjobs, -, -⟩ := fleet_ext heq
    refine h.of_places hjobs (fun k p hp _ => .inl ?_) fun e _ k hk => ?_
    · rw [hplace] at hp
      exact hp
    · rw [Covers, hplace]
      exact hk
  cases hstep with
  | unchanged hcall => exact iff_of_true (hsame hf) (not_onFleet_keeps hcall)
  | createRejected | deploymentKept => exact iff_of_true (hsame hf) trivial
  | created hcreate htokens hjoined hothers =>
    dsimp only at hplace
    rw [← hplace] at hjoined hothers
    exact iff_of_true (settles_created hs h hcreate.new hjoined hothers hjobs) trivial
  | teamDeleted hsome =>
    refine (settles_without hs h hjobs hplace).trans ?_
    simp only [keepsAwaited, hsome, forall_const, decide_eq_true_eq]
  | stopped hsome =>
    refine (settles_stopped hs h hjobs hplace).trans ?_
    simp only [keepsAwaited, hsome, forall_const, decide_eq_true_eq]
  | challengeDeleted hsome =>
    refine (settles_without hs h hjobs hplace).trans ?_
    simp only [keepsAwaited, hsome, forall_const, decide_eq_true_eq]
  | deployed hc hteams htokens =>
    refine iff_of_true (settles_deployed hs h hplace hjobs) fun _ => .inr fun i hi => ?_
    obtain ⟨raw, hraw⟩ := htokens.drawn i (by rwa [length_teamOrder])
    exact ⟨raw, by rwa [Nat.zero_add] at hraw⟩
  | @deployedNowhere c input challenge hc hteams =>
    refine iff_of_true (settles_deployedNowhere hs h hteams hplace hjobs) fun _ =>
      .inr fun i hi => ?_
    rw [← length_teamOrder s input.rt, hteams] at hi
    exact absurd hi (Nat.not_lt_zero i)
  | deployFailed hc hm htokens =>
    refine (settles_deployFailed hs h hm htokens hplace hjobs).trans ?_
    simp only [keepsAwaited, hc, Option.isSome_some, forall_const]
  | deploymentDeleted hsome hidle =>
    exact iff_of_true (settles_deploymentDeleted hs h hidle hplace hjobs) trivial
  | @reconciled input => exact iff_of_true (settles_reconcile hs h input) trivial
  | teamRequeued =>
    refine (settles_requeued h hjobs hplace).trans ?_
    simp only [keepsAwaited, decide_eq_true_eq]
  | challengeRequeued hsome =>
    refine (settles_requeued h hjobs hplace).trans ?_
    simp only [keepsAwaited, hsome, forall_const, decide_eq_true_eq]

theorem settles_initial (h : s.Initial) : s.Settles := by
  obtain ⟨hjobs, hplaces⟩ := fleet_initial h
  have hnone : ∀ {id job}, s.deployments.lookup id ≠ some job := by
    intro id job hjob
    rw [hjobs, AList.lookup_empty] at hjob
    cases hjob
  refine ⟨fun k p hp hqueued => ?_, fun e he => absurd (mem_activeJobs.mp he).1 hnone,
    fun _ _ h => absurd h hnone⟩
  obtain ⟨-, now, c, -, -, rfl⟩ := hplaces k p hp
  cases hqueued

/-- In every state of a run a reconcile settles everything, exactly if every call of the run keeps
what it settles. -/
theorem reconcile_settles_iff (T : CaseTable) (hs : s.Initial) (calls : List MemoryCall) :
    Runs.Always (exec T) ReconcileSettles s calls ↔
      Runs.EachCall (exec T) (fun call s => s.keepsAwaited call) s calls := by
  have horder := jobsInOrder_initial hs
  refine Runs.always_iff_eachCall horder ((reconcileSettles_iff horder).mpr (settles_initial hs))
    (fun call s => jobsInOrder_exec T call) fun call s hs h => ?_
  rw [reconcileSettles_iff (jobsInOrder_exec T call hs)]
  exact settles_exec T hs ((reconcileSettles_iff hs).mp h) call

/-- One team, one challenge, and its deployment. -/
def deployedChallenge : List MemoryCall :=
  [.createAdminTeam { name := "Blue", contactEmail := "blue@example.com" } {},
   .createAdminChallenge { name := "banking" } {},
   .deployAdminChallenge 1 {},
   .reconcileAdminDeployments {}]

theorem reconcile_settles_iff_deployedChallenge :
    (((Runs.run (exec .ascii) {} deployedChallenge).deployments.lookup 1).map fun job =>
      (job.status, job.targetTeamCount, job.queuedTeamCount, job.readyTeamCount)) =
        some (.completed, 1, 0, 1) ∧
    Runs.Always (exec .ascii) ReconcileSettles {} deployedChallenge := by
  refine ⟨by decide +kernel, (reconcile_settles_iff .ascii (.inl rfl) deployedChallenge).mpr ?_⟩
  refine Runs.eachCall_cons.mpr ⟨trivial, Runs.eachCall_cons.mpr ⟨trivial, Runs.eachCall_cons.mpr
    ⟨fun _ => .inr fun _ _ => ⟨[], rfl⟩, Runs.eachCall_cons.mpr ⟨trivial, Runs.eachCall_nil⟩⟩⟩⟩

/-- An organizer reactivates the team once its service is deployed. -/
def requeuedTeam : List MemoryCall := deployedChallenge ++ [.requeueTeamServices 101 {}]

theorem stays_queued : ¬ ∀ (T : CaseTable) (s : MemoryStore) (calls : List MemoryCall), s.Initial →
    Runs.Always (exec T) ReconcileSettles s calls := by
  intro h
  have hsettled := (h .ascii {} requeuedTeam (.inl rfl)).last {}
  refine hsettled.idle (101, 1) ?_
  decide +kernel

end MemoryStore

end ADPlatform.APIGateway
