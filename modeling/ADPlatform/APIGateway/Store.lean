import ADPlatform.APIGateway.Types
import ADPlatform.Lib.GoMap

/-! # The store interface

The calls of `Store` that create, queue and deploy service instances, and what they have to keep of
a service that waits for its deployment, whatever the backend. -/

namespace ADPlatform.APIGateway
open Text

/-- What the surroundings decide about one call of a store: the map orders of the language runtime,
the clock, the random source (the bytes of each read, or a failure), and for a database its own
failures, how many numbers of its sequences rolled back transactions have used up, and the rows
that were committed between the `SELECT` of the call and its last statement. -/
structure StoreInput where
  rt : Go.Runtime := .inOrder
  now : GameCore.Time := 0
  random : Nat → Except String (List UInt8) := fun _ => .ok []
  fails : Option String := none
  skipped : Nat := 0
  unseenTeams : List Int := []
  unseenChallenges : List Int := []
  unseenJobs : List Int := []

/-- `newCheckerToken`, at the `i`-th read of the random source. -/
def StoreInput.newCheckerToken (input : StoreInput) (i : Nat) : Except StoreError String :=
  match input.random i with
  | .ok raw => .ok (hexEncode raw)
  | .error message => .error (.failure ("generate checker token: " ++ message))

/-- `newTeamJoinKey`: twelve random bytes in three groups of hexadecimal digits. -/
def StoreInput.newTeamJoinKey (input : StoreInput) (i : Nat) : Except StoreError String :=
  match input.random i with
  | .ok raw =>
    let part (bs : List UInt8) := (hexEncode bs).map Char.toUpper
    .ok ("TEAM-" ++ part (raw.take 4) ++ "-" ++ part ((raw.drop 4).take 4) ++ "-" ++
      part (raw.drop 8))
  | .error message => .error (.failure message)

/-- One checker token for each element of a list. -/
def StoreInput.withTokens (input : StoreInput) {α : Type} :
    Nat → List α → Except StoreError (List (α × String))
  | _, [] => .ok []
  | n, a :: rest =>
    match input.newCheckerToken n with
    | .error e => .error e
    | .ok token =>
      match input.withTokens (n + 1) rest with
      | .error e => .error e
      | .ok pairs => .ok ((a, token) :: pairs)

theorem StoreInput.map_fst_withTokens {input : StoreInput} {α : Type} {n : Nat} {l : List α}
    {pairs : List (α × String)} (h : input.withTokens n l = .ok pairs) : pairs.map (·.1) = l := by
  induction l generalizing n pairs with
  | nil =>
    cases h
    rfl
  | cons a rest ih =>
    unfold withTokens at h
    split at h
    · cases h
    · split at h
      · cases h
      · rename_i hrest
        cases h
        rw [List.map_cons, ih hrest]

/-- What a call has done: the store after it, the instances whose status it has set to `queued`,
and what it answers. -/
structure Change (σ α : Type) where
  store : σ
  queued : List ServiceKey := []
  result : Except StoreError α

/-- A backend: its states, which of them its schema admits, and its calls. A service `awaits` a
reconcile if `ReconcileAdminDeployments` would deploy it now. -/
structure Store (σ : Type) where
  valid : σ → Prop
  runtimeStatus : σ → ServiceKey → Option RuntimeStatus
  awaits : σ → ServiceKey → Bool
  listControllerRuntimeTasks : StoreInput → σ → Except StoreError (List ControllerRuntimeTask)
  reconcileAdminDeployments : StoreInput → σ → Change σ AdminReconcileResult
  deployAdminChallenge : Int → StoreInput → σ → Change σ AdminDeployment
  requeueTeamServices : Int → StoreInput → σ → Change σ Unit
  requeueChallengeServices : Int → StoreInput → σ → Change σ Unit
  createAdminTeam : AdminCreateTeamRequest → StoreInput → σ → Change σ AdminTeam

namespace Store
variable {σ α : Type}

/-- A call lets no service await a reconcile but those that it queues. -/
structure Keeps (S : Store σ) (s : σ) (c : Change σ α) : Prop where
  valid : S.valid c.store
  awaits : ∀ k, S.awaits c.store k → k ∈ c.queued ∨ S.awaits s k

/-- A call that queues services and deploys none. -/
structure Queues (S : Store σ) (s : σ) (c : Change σ α) : Prop extends S.Keeps s c where
  queued : ∀ k ∈ c.queued, S.runtimeStatus c.store k = some .queued
  ready : ∀ k, S.runtimeStatus s k = some .queued → S.runtimeStatus c.store k ≠ some .ready

/-- What the controller relies on. -/
structure Lawful (S : Store σ) : Prop where
  listControllerRuntimeTasks : ∀ {input s tasks}, S.valid s →
    S.listControllerRuntimeTasks input s = .ok tasks → ∀ k, S.awaits s k → k ∈ tasks.map (·.key)
  reconcileAdminDeployments : ∀ input {s}, S.valid s →
    S.Keeps s (S.reconcileAdminDeployments input s)
  reconcileAdminDeployments_ready : ∀ {input s k}, S.runtimeStatus s k = some .queued →
    S.runtimeStatus (S.reconcileAdminDeployments input s).store k = some .ready → S.awaits s k
  deployAdminChallenge : ∀ challengeID input {s}, S.valid s →
    S.Queues s (S.deployAdminChallenge challengeID input s)
  requeueTeamServices : ∀ teamID input {s}, S.valid s →
    S.Queues s (S.requeueTeamServices teamID input s)
  requeueChallengeServices : ∀ challengeID input {s}, S.valid s →
    S.Queues s (S.requeueChallengeServices challengeID input s)
  createAdminTeam : ∀ request input {s}, S.valid s → S.Queues s (S.createAdminTeam request input s)

end Store

end ADPlatform.APIGateway
