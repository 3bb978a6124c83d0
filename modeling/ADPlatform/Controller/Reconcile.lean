import ADPlatform.Lib.Concurrent
import ADPlatform.APIGateway.MemoryStore
import ADPlatform.APIGateway.PostgresStore

/-! # Controller reconciles and the services they deploy

The runtime phase of a controller reconcile lists the tasks, ensures the service of each, and then
lets the store mark what is queued. Other requests queue services at any moment in between. The
shared state has the store and a log of the moments at which services were queued or ensured. -/

namespace ADPlatform.Controller
open Concurrent APIGateway

/-- What has happened to services. -/
inductive Event where
  /-- a call has set these services to `queued` -/
  | queued (keys : List ServiceKey)
  /-- `EnsureService` has succeeded for the service -/
  | ensured (k : ServiceKey)
  deriving DecidableEq, Repr

/-- The store with the log of what has happened. -/
structure Shared (σ : Type) where
  store : σ
  log : List Event := []

/-- `EnsureService` has succeeded for the service after it was last queued. -/
def EnsuredSinceQueued (log : List Event) (k : ServiceKey) : Prop :=
  ∃ before after, log = before ++ .ensured k :: after ∧ ∀ keys, .queued keys ∈ after → k ∉ keys

/-- The service has been queued after the first `n` events of the log. -/
def QueuedSince (log : List Event) (n : Nat) (k : ServiceKey) : Prop :=
  ∃ keys, .queued keys ∈ log.drop n ∧ k ∈ keys

/-- `listed` is the length of the log when the caller has read its task list. -/
inductive ControllerOp where
  | listControllerRuntimeTasks
  | ensureService (task : ControllerRuntimeTask)
  | reconcileDeployments (listed : Nat)
  | deployAdminChallenge (challengeID : Int)
  | requeueTeamServices (teamID : Int)
  | requeueChallengeServices (challengeID : Int)
  | createAdminTeam (request : AdminCreateTeamRequest)

/-- What each operation answers; a listing says too how long the log was. -/
def ControllerOp.Res : ControllerOp → Type
  | listControllerRuntimeTasks => Nat × Except StoreError (List ControllerRuntimeTask)
  | ensureService _ => Option String
  | reconcileDeployments _ => Except StoreError AdminReconcileResult
  | deployAdminChallenge _ => Except StoreError AdminDeployment
  | requeueTeamServices _ | requeueChallengeServices _ => Except StoreError Unit
  | createAdminTeam _ => Except StoreError AdminTeam

/-- `ensureError` is the error of an `EnsureService` call, if it fails. -/
structure ControllerInput extends StoreInput where
  ensureError : Option String := none

variable {σ : Type}

/-- What a call does to the shared state. -/
def Shared.apply {α : Type} (s : Shared σ) (c : Change σ α) : Shared σ × Except StoreError α :=
  ({ store := c.store, log := s.log ++ [.queued c.queued] }, c.result)

/-- The operations on the store and the log. -/
def controllerSem (S : Store σ) :
    Semantics (Shared σ) ControllerInput ControllerOp ControllerOp.Res
  | input, .listControllerRuntimeTasks, s =>
    some (s, s.log.length, S.listControllerRuntimeTasks input.toStoreInput s.store)
  | input, .ensureService task, s =>
    match input.ensureError with
    | none => some ({ s with log := s.log ++ [.ensured task.key] }, none)
    | some message => some (s, some message)
  | input, .reconcileDeployments _, s =>
    some (s.apply (S.reconcileAdminDeployments input.toStoreInput s.store))
  | input, .deployAdminChallenge challengeID, s =>
    some (s.apply (S.deployAdminChallenge challengeID input.toStoreInput s.store))
  | input, .requeueTeamServices teamID, s =>
    some (s.apply (S.requeueTeamServices teamID input.toStoreInput s.store))
  | input, .requeueChallengeServices challengeID, s =>
    some (s.apply (S.requeueChallengeServices challengeID input.toStoreInput s.store))
  | input, .createAdminTeam request, s =>
    some (s.apply (S.createAdminTeam request input.toStoreInput s.store))

/-- The controller's code over these operations. -/
abbrev ControllerProc := Proc ControllerOp ControllerOp.Res

namespace ControllerProc
open Proc

/-- The queued services, with the length of the log. -/
def listControllerRuntimeTasks :
    ControllerProc (Nat × Except StoreError (List ControllerRuntimeTask)) :=
  perform ControllerOp.listControllerRuntimeTasks

/-- The service's container is made, or is there already. -/
def ensureService (task : ControllerRuntimeTask) : ControllerProc (Option String) :=
  perform (ControllerOp.ensureService task)

/-- The store's reconcile, after a listing at this length of the log. -/
def reconcileDeployments (listed : Nat) : ControllerProc (Except StoreError AdminReconcileResult) :=
  perform (ControllerOp.reconcileDeployments listed)

end ControllerProc

/-- The loop of a reconcile over its tasks: the error at which it stops. -/
def ensureServices : List ControllerRuntimeTask → ControllerProc (Option String)
  | [] => pure none
  | task :: rest => do
    match ← ControllerProc.ensureService task with
    | none => ensureServices rest
    | some message => pure (some ("runtime reconcile failed for team " ++ task.teamID.repr ++
        " challenge " ++ task.challengeID.repr ++ ": " ++ message))

/-- The runtime phase of `ReconcileWithOptions`. -/
def reconcile : ControllerProc (Except String AdminReconcileResult) := do
  match ← ControllerProc.listControllerRuntimeTasks with
  | (_, .error e) => pure (.error e.text)
  | (listed, .ok tasks) =>
    match ← ensureServices tasks with
    | some message => pure (.error message)
    | none =>
      match ← ControllerProc.reconcileDeployments listed with
      | .error e => pure (.error e.text)
      | .ok result => pure (.ok result)

/-- The requests that touch runtime rows. -/
inductive Request where
  | reconcile
  | deployAdminChallenge (challengeID : Int)
  | requeueTeamServices (teamID : Int)
  | requeueChallengeServices (challengeID : Int)
  | createAdminTeam (request : AdminCreateTeamRequest)

/-- The code that serves a request. -/
def Request.handler : Request → Thread ControllerOp ControllerOp.Res
  | reconcile => Controller.reconcile.toThread
  | deployAdminChallenge challengeID => .call (.deployAdminChallenge challengeID) fun _ => .done
  | requeueTeamServices teamID => .call (.requeueTeamServices teamID) fun _ => .done
  | requeueChallengeServices challengeID =>
    .call (.requeueChallengeServices challengeID) fun _ => .done
  | createAdminTeam request => .call (.createAdminTeam request) fun _ => .done

/-! ## The contract -/

/-- The log grows, and a service that awaits a reconcile has awaited it or has been queued since. -/
def Progress (S : Store σ) (s t : Shared σ) : Prop :=
  ∃ events, t.log = s.log ++ events ∧
    ∀ k, S.awaits t.store k → (∃ keys, .queued keys ∈ events ∧ k ∈ keys) ∨ S.awaits s.store k

theorem Progress.refl (S : Store σ) (s : Shared σ) : Progress S s s :=
  ⟨[], by simp, fun _ h => .inr h⟩

theorem Progress.trans {S : Store σ} {s t u : Shared σ} (h : Progress S s t) (h' : Progress S t u) :
    Progress S s u := by
  obtain ⟨es, hlog, hawaits⟩ := h
  obtain ⟨es', hlog', hawaits'⟩ := h'
  refine ⟨es ++ es', by rw [hlog', hlog, List.append_assoc], fun k hk => ?_⟩
  rcases hawaits' k hk with ⟨keys, hmem, hkeys⟩ | hk
  · exact .inl ⟨keys, List.mem_append_right _ hmem, hkeys⟩
  · exact (hawaits k hk).imp_left fun ⟨keys, hmem, hkeys⟩ =>
      ⟨keys, List.mem_append_left _ hmem, hkeys⟩

/-- A service becomes ready only if it was ensured after it was last queued. -/
def ReadyEnsured (S : Store σ) (s t : Shared σ) : Prop :=
  ∀ k, S.runtimeStatus s.store k = some .queued → S.runtimeStatus t.store k = some .ready →
    EnsuredSinceQueued s.log k

/-- A reconcile marks no service that was queued after it has read its task list. -/
def MarksListed (S : Store σ) : ControllerOp → Shared σ → Prop
  | .reconcileDeployments listed, s => ∀ k, S.awaits s.store k → ¬QueuedSince s.log listed k
  | _, _ => True

/-- The contract of the deployments: no handler makes a service wait for a reconcile without logging
that it is queued, and what becomes ready has been ensured. -/
def deployment (S : Store σ) :
    Contract (Shared σ) ControllerInput ControllerOp ControllerOp.Res where
  sem := controllerSem S
  inv s := S.valid s.store
  guar s t := Progress S s t ∧ ReadyEnsured S s t
  rely := Progress S
  allowed _ := MarksListed S
  guar_refl s := ⟨.refl S s, fun _ h h' => nomatch h.symm.trans h'⟩
  rely_refl := .refl S
  rely_trans := Progress.trans
  guar_rely h := h.1

variable {S : Store σ} {s t : Shared σ}

/-- The tasks of `keys` were listed when the log had `n` entries, and those of `done` have been
ensured since. -/
structure Ensured (S : Store σ) (n : Nat) (keys done : List ServiceKey) (s : Shared σ) : Prop where
  listed : n ≤ s.log.length
  covers : ∀ k, S.awaits s.store k → k ∈ keys ∨ QueuedSince s.log n k
  ensured : ∀ k ∈ done, .ensured k ∈ s.log.drop n

theorem Ensured.rely {listed : Nat} {keys ensured : List ServiceKey} (hr : Progress S s t)
    (h : Ensured S listed keys ensured s) : Ensured S listed keys ensured t := by
  obtain ⟨events, hlog, hawaits⟩ := hr
  have hdrop : t.log.drop listed = s.log.drop listed ++ events := by
    rw [hlog, List.drop_append_of_le_length h.listed]
  refine ⟨?_, fun k hk => ?_, fun k hk => ?_⟩
  · rw [hlog, List.length_append]
    exact h.listed.trans (Nat.le_add_right _ _)
  · rcases hawaits k hk with ⟨ks, hmem, hk⟩ | hk
    · exact .inr ⟨ks, hdrop ▸ List.mem_append_right _ hmem, hk⟩
    · refine (h.covers k hk).imp_right fun ⟨ks, hmem, hk⟩ => ⟨ks, ?_, hk⟩
      exact hdrop ▸ List.mem_append_left _ hmem
  · exact hdrop ▸ List.mem_append_left _ (h.ensured k hk)

theorem ensuredSinceQueued_of_drop {log : List Event} {n : Nat} {k : ServiceKey}
    (hensured : .ensured k ∈ log.drop n) (hqueued : ¬QueuedSince log n k) :
    EnsuredSinceQueued log k := by
  obtain ⟨before, after, hsplit⟩ := List.append_of_mem hensured
  refine ⟨log.take n ++ before, after, ?_, fun keys hkeys hk => hqueued ⟨keys, ?_, hk⟩⟩
  · rw [List.append_assoc, ← hsplit, List.take_append_drop]
  · rw [hsplit]
    exact List.mem_append_right _ (.tail _ hkeys)

/-- The log entry of a call that queues nothing new. -/
theorem progress_apply {α : Type} {c : Change σ α} (h : S.Keeps s.store c) :
    Progress S s (s.apply c).1 := by
  refine ⟨[.queued c.queued], rfl, fun k hk => ?_⟩
  exact (h.awaits k hk).imp_left fun hk => ⟨c.queued, .head _, hk⟩

theorem queues_keeps {α : Type} {c : Change σ α} (h : S.Queues s.store c) :
    S.valid (s.apply c).1.store ∧ (deployment S).guar s (s.apply c).1 :=
  ⟨h.valid, progress_apply h.toKeeps, fun k hk hk' => absurd hk' (h.ready k hk)⟩

variable (H : S.Lawful)
include H

theorem deployment_list : (deployment S).Meets ControllerProc.listControllerRuntimeTasks s
    fun r t => ∀ tasks, r.2 = .ok tasks → Ensured S r.1 (tasks.map (·.key)) [] t := by
  refine .perform fun s' input t r _ hs' _ hsem => ?_
  cases hsem
  refine ⟨hs', (deployment S).guar_refl _, fun tasks htasks => ⟨le_rfl, fun k hk => .inl ?_, nofun⟩⟩
  exact H.listControllerRuntimeTasks hs' htasks k hk

omit H in
theorem deployment_ensureService {listed : Nat} {keys ensured : List ServiceKey}
    (task : ControllerRuntimeTask) (h : Ensured S listed keys ensured s) :
    (deployment S).Meets (ControllerProc.ensureService task) s
      fun r t => r = none → Ensured S listed keys (task.key :: ensured) t := by
  refine .perform fun s' input t r hr hs' _ hsem => ?_
  have h' := h.rely hr
  simp only [deployment, controllerSem] at hsem
  cases herror : input.ensureError with
  | some message =>
    rw [herror] at hsem
    cases hsem
    exact ⟨hs', (deployment S).guar_refl _, nofun⟩
  | none =>
    rw [herror] at hsem
    cases hsem
    have hprogress : Progress S s' { s' with log := s'.log ++ [.ensured task.key] } :=
      ⟨[.ensured task.key], rfl, fun _ hk => .inr hk⟩
    refine ⟨hs', ⟨hprogress, fun _ hk hk' => nomatch hk.symm.trans hk'⟩, fun _ => ?_⟩
    have h'' := h'.rely hprogress
    refine ⟨h''.listed, h''.covers, fun k hk => ?_⟩
    rcases List.mem_cons.mp hk with rfl | hk
    · rw [List.drop_append_of_le_length h'.listed]
      exact List.mem_append_right _ (.head _)
    · exact h''.ensured k hk

omit H in
/-- If the loop ends without an error it has ensured all of its tasks. -/
theorem deployment_ensureServices {listed : Nat} {keys ensured : List ServiceKey}
    (tasks : List ControllerRuntimeTask) (hs : S.valid s.store)
    (h : Ensured S listed keys ensured s) :
    (deployment S).Meets (ensureServices tasks) s
      fun r t => r = none → Ensured S listed keys ((tasks.map (·.key)).reverse ++ ensured) t := by
  induction tasks generalizing s ensured with
  | nil => exact .pure hs fun _ => h
  | cons task rest ih =>
    refine (deployment_ensureService task h).bind fun r t ht _ hr => ?_
    cases r with
    | some message => exact .pure ht nofun
    | none =>
      refine (ih ht (hr rfl)).weaken fun r u _ _ hu hnone => ?_
      have heq : ((task :: rest).map (·.key)).reverse ++ ensured =
          (rest.map (·.key)).reverse ++ task.key :: ensured := by simp
      rw [heq]
      exact hu hnone

theorem deployment_reconcileDeployments {listed : Nat} {keys : List ServiceKey}
    (h : Ensured S listed keys keys s) :
    (deployment S).Fine (ControllerProc.reconcileDeployments listed) s := by
  refine Contract.Meets.perform fun s' input t r hr hs' hal hsem => ?_
  have h' := h.rely hr
  obtain rfl : (s'.apply (S.reconcileAdminDeployments input.toStoreInput s'.store)).1 = t :=
    congrArg Prod.fst (Option.some.inj hsem)
  have hkeeps := H.reconcileAdminDeployments input.toStoreInput hs'
  refine ⟨hkeeps.valid, ⟨progress_apply hkeeps, fun k hqueued hready => ?_⟩, trivial⟩
  have hawaits := H.reconcileAdminDeployments_ready hqueued hready
  have hold : ¬QueuedSince s'.log listed k := hal k hawaits
  exact ensuredSinceQueued_of_drop (h'.ensured k ((h'.covers k hawaits).resolve_right hold)) hold

theorem deployment_reconcile : (deployment S).Fine reconcile s := by
  refine (deployment_list H).bind fun ⟨listed, r⟩ t ht _ hlist => ?_
  cases r with
  | error e => exact Contract.Fine.pure ht
  | ok tasks =>
    refine (deployment_ensureServices tasks ht (hlist tasks rfl)).bind fun r u hu _ hensured => ?_
    cases r with
    | some message => exact Contract.Fine.pure hu
    | none =>
      have hall : Ensured S listed (tasks.map (·.key)) (tasks.map (·.key)) u := by
        obtain ⟨hle, hcovers, hens⟩ := hensured rfl
        exact ⟨hle, hcovers, fun k hk => hens k (by simpa using hk)⟩
      refine Contract.Fine.bind (deployment_reconcileDeployments H hall) fun r v hv _ => ?_
      cases r with
      | error e => exact Contract.Fine.pure hv
      | ok result => exact Contract.Fine.pure hv

theorem deployment_handles : (deployment S).Handles Request.handler := by
  intro request s _
  cases request with
  | reconcile => exact (deployment_reconcile H).toThread
  | deployAdminChallenge challengeID =>
    refine (Contract.Fine.perform fun input s t r hs _ hsem => ?_).toThread
    cases hsem
    exact queues_keeps (H.deployAdminChallenge challengeID _ hs)
  | requeueTeamServices teamID =>
    refine (Contract.Fine.perform fun input s t r hs _ hsem => ?_).toThread
    cases hsem
    exact queues_keeps (H.requeueTeamServices teamID _ hs)
  | requeueChallengeServices challengeID =>
    refine (Contract.Fine.perform fun input s t r hs _ hsem => ?_).toThread
    cases hsem
    exact queues_keeps (H.requeueChallengeServices challengeID _ hs)
  | createAdminTeam request =>
    refine (Contract.Fine.perform fun input s t r hs _ hsem => ?_).toThread
    cases hsem
    exact queues_keeps (H.createAdminTeam request _ hs)

omit H

/-! ## The two backends -/

/-- `CONTROLLER_STATE_BACKEND`. -/
inductive Backend where
  | memory | postgres
  deriving DecidableEq, Repr

/-- What the store of either kind keeps. -/
def Backend.State : Backend → Type
  | memory => MemoryStore
  | postgres => PostgresStore

/-- The store of either kind. -/
def Backend.store (T : Text.CaseTable) : (b : Backend) → Store b.State
  | memory => MemoryStore.store T
  | postgres => PostgresStore.store T

theorem Backend.lawful (T : Text.CaseTable) (b : Backend) : (b.store T).Lawful := by
  cases b with
  | memory => exact MemoryStore.lawful T
  | postgres => exact PostgresStore.lawful T

/-- A service goes from `queued` to `ready` only if `EnsureService` succeeded for it after it was
last queued: in every run in which no reconcile marks a service that was queued after the reconcile
has read its task list. -/
theorem ready_after_ensure (T : Text.CaseTable) (b : Backend) (store : b.State)
    (hstore : (b.store T).valid store) (ls : List (Label Request ControllerInput))
    (l : Label Request ControllerInput)
    (hrun : (deployment (b.store T)).RunAllowed Request.handler (.boot { store }) (ls ++ [l]))
    (k : ServiceKey) :
    let s := ((Machine.boot { store }).run (controllerSem (b.store T)) Request.handler ls).shared
    let t :=
      ((Machine.boot { store }).run (controllerSem (b.store T)) Request.handler (ls ++ [l])).shared
    (b.store T).runtimeStatus s.store k = some .queued →
      (b.store T).runtimeStatus t.store k = some .ready → EnsuredSinceQueued s.log k := by
  intro s t hqueued hready
  have hguar := Contract.guar_step (deployment_handles (b.lawful T))
    (s := ({ store } : Shared b.State)) hstore hrun
  exact hguar.2 k hqueued hready

/-- One team with one service, ready. -/
def oneService : PostgresStore where
  teams := [{ id := 101, name := "a", contactEmail := "a@x", joinKey := "K" }]
  challenges := [{ id := 1, name := "c", published := true, unlockProofEpoch := 1 }]
  serviceInstances :=
    [{ (AdminChallenge.configColumns { id := 1, name := "c" }).instanceRow 101 none
    "" none with runtimeStatus := .ready }]

theorem oneService_valid : oneService.Valid := by
  refine ⟨?_, ?_⟩
  · decide
  · intro i hi job hjob
    cases List.mem_singleton.mp hi
    cases hjob

/-- The service is queued again, and a reconcile deploys it. -/
def requeueThenReconcile : List (Label Request ControllerInput) :=
  [.arrive (.requeueTeamServices 101), .step 0 {}, .arrive .reconcile, .step 1 {}, .step 1 {}]

theorem ready_after_ensure_in_turn :
    let S := Backend.postgres.store .ascii
    let s := ((Machine.boot { store := oneService }).run (controllerSem S) Request.handler
      requeueThenReconcile).shared
    let t := ((Machine.boot { store := oneService }).run (controllerSem S) Request.handler
      (requeueThenReconcile ++ [.step 1 {}])).shared
    S.runtimeStatus s.store (101, 1) = some .queued ∧
      S.runtimeStatus t.store (101, 1) = some .ready ∧ EnsuredSinceQueued s.log (101, 1) := by
  have hqueued : (Backend.postgres.store .ascii).runtimeStatus
      ((Machine.boot { store := oneService }).run (controllerSem (Backend.postgres.store .ascii))
        Request.handler requeueThenReconcile).shared.store (101, 1) = some .queued := by decide
  have hready : (Backend.postgres.store .ascii).runtimeStatus
      ((Machine.boot { store := oneService }).run (controllerSem (Backend.postgres.store .ascii))
        Request.handler (requeueThenReconcile ++ [.step 1 {}])).shared.store (101, 1) =
      some .ready := by decide
  refine ⟨hqueued, hready, ready_after_ensure .ascii .postgres oneService oneService_valid
    requeueThenReconcile (.step 1 {}) ?_ (101, 1) hqueued hready⟩
  refine ⟨trivial, ?_, trivial, ?_, ?_, ?_, trivial⟩ <;> rintro op k h - <;> cases h <;> try trivial
  rintro k - ⟨keys, hkeys, -⟩
  have hlog : Event.queued keys ∈ [Event.ensured (101, 1)] := hkeys
  simp at hlog

/-- Without the condition a service becomes ready that was never ensured: it was queued after the
reconcile has read its task list. -/
theorem ready_without_ensure :
    ¬ ∀ (T : Text.CaseTable) (b : Backend) (store : b.State), (b.store T).valid store →
      ∀ (ls : List (Label Request ControllerInput)) (l : Label Request ControllerInput)
        (k : ServiceKey),
      let s := ((Machine.boot { store }).run (controllerSem (b.store T)) Request.handler ls).shared
      let t := ((Machine.boot { store }).run (controllerSem (b.store T)) Request.handler
        (ls ++ [l])).shared
      (b.store T).runtimeStatus s.store k = some .queued →
        (b.store T).runtimeStatus t.store k = some .ready → EnsuredSinceQueued s.log k := by
  intro h
  obtain ⟨before, after, hlog, -⟩ := h .ascii .postgres oneService oneService_valid
    [.arrive .reconcile, .step 0 {}, .arrive (.requeueTeamServices 101), .step 1 {}] (.step 0 {})
    (101, 1) (by decide) (by decide)
  have hlog : [Event.queued [(101, 1)]] = before ++ .ensured (101, 1) :: after := hlog
  have hmem : Event.ensured (101, 1) ∈ [Event.queued [(101, 1)]] := by
    rw [hlog]
    exact List.mem_append_right _ (.head _)
  simp at hmem

end ADPlatform.Controller
