import ADPlatform.APIGateway.MemoryServices
import ADPlatform.APIGateway.ResumeRaces
import ADPlatform.Lib.Roles
import ADPlatform.Platform.UnlockProof

/-! # The requests that unlock and lock services

`handleUnlock` reads the epoch of the challenge, checks the proof against it and has the store
unlock the service. Organizers rotate the proofs in the meantime. The two stores share the handler
and the check of `UnlockService`; the memory store does the rest of a call in one locked section,
the postgres store in one statement after the other, outside a transaction. -/

namespace ADPlatform.APIGateway
open GameCore (Time MAC)
open Platform Concurrent Text

/-! ## What the requests do to a store -/

/-- A statement, or a section under the mutex of the memory store. -/
inductive UnlockStatement where
  | validateServiceAction (k : ServiceKey)
  | markSSHSessionApplyFailure (k : ServiceKey)
  /-- the memory store -/
  | rotateChallengeUnlockProof (challengeID : Int)
  | setChallengeMaintenance (challengeID : Int) (maintenance : Bool) (now : Time)
  /-- the postgres store -/
  | rotateEpoch (challengeID : Int)
  | clearUnlocks (challengeID : Int)
  | enterMaintenance (challengeID : Int) (now : Time)
  | markMaintenance (challengeID : Int)
  | resume (challengeID : Int) (playFromTick : Option Int)
  | markResumed (challengeID : Int)
  deriving DecidableEq, Repr

/-- The challenge whose epoch goes up. -/
def UnlockStatement.rotates : UnlockStatement → Option Int
  | rotateChallengeUnlockProof challengeID | setChallengeMaintenance challengeID true _
  | rotateEpoch challengeID | enterMaintenance challengeID _ => some challengeID
  | _ => none

/-- The challenge whose services are locked again. -/
def UnlockStatement.clears : UnlockStatement → Option Int
  | rotateChallengeUnlockProof challengeID | setChallengeMaintenance challengeID true _
  | clearUnlocks challengeID | markMaintenance challengeID => some challengeID
  | _ => none

/-- What is outside the stores: the rate limiter and the controller. -/
inductive OutsideCall where
  | allowRateLimit (k : ServiceKey)
  | reconcileServiceAccess (k : ServiceKey)
  | applySSHCredential (k : ServiceKey)

/-- The epoch is read together with the number of rotations so far, which the unlock brings back,
and `verified` notes a proof that has passed. Neither is in the source. -/
inductive UnlockOp where
  | statement (q : UnlockStatement)
  | getChallengeUnlockProofEpoch (challengeID : Int)
  | currentTick
  | unlock (k : ServiceKey) (seen : Nat)
  | verified (k : ServiceKey) (epoch : Int) (proof : String)
  | outside (call : OutsideCall)

/-- What each operation answers. -/
def UnlockOp.Res : UnlockOp → Type
  | statement _ | unlock _ _ => Except StoreError Unit
  | getChallengeUnlockProofEpoch _ => Except StoreError (Int × Nat)
  | currentTick => Except StoreError Int
  | verified _ _ _ => Unit
  | outside _ => Bool

/-- A handler's code over these operations. -/
abbrev UnlockProc := Proc UnlockOp UnlockOp.Res

/-! ## The handler -/

/-- What the handler writes to the participant. -/
inductive UnlockReply where
  | data (unlocked : UnlockData)
  | domainFailure (err : StoreError)
  | rateLimited
  | problem (status : Nat) (title detail : String)

open Proc in
/-- `UnlockService` of both stores. -/
def unlockService (k : ServiceKey) (seen : Nat) : UnlockProc (Except StoreError UnlockData) := do
  match ← perform (UnlockOp.statement (.validateServiceAction k)) with
  | .error err => pure (.error err)
  | .ok () =>
    match ← perform (UnlockOp.unlock k seen) with
    | .error err => pure (.error err)
    | .ok () => pure (.ok { challengeID := k.2, teamID := k.1, unlocked := true })

open Proc in
/-- `handleUnlock` for a team that is signed in. There is no proof where the body is none that the
handler can decode. -/
def handleUnlock (hmac : MAC) (secret : String) (k : ServiceKey) (proof : Option String) :
    UnlockProc UnlockReply := do
  match ← perform (UnlockOp.statement (.validateServiceAction k)) with
  | .error err => pure (.domainFailure err)
  | .ok () =>
    let allowed : Bool ← perform (UnlockOp.outside (.allowRateLimit k))
    if !allowed then pure .rateLimited
    else match proof.filter fun proof => trimSpace proof ≠ "" with
    | none => pure (.problem 400 "Invalid request" "unlock proof is invalid.")
    | some proof =>
      match ← perform (UnlockOp.getChallengeUnlockProofEpoch k.2) with
      | .error err => pure (.domainFailure err)
      | .ok (epoch, seen) =>
        if !UnlockProof.verify hmac secret k.1 k.2 epoch proof then
          pure (.problem 400 "Unlock rejected" "unlock proof is invalid.")
        else do
          perform (UnlockOp.verified k epoch proof)
          match ← unlockService k seen with
          | .error err => pure (.domainFailure err)
          | .ok data =>
            let reconciled : Bool ← perform (UnlockOp.outside (.reconcileServiceAccess k))
            if !reconciled then
              pure (.problem 502 "Unlock unavailable" "service unlock access reconcile failed.")
            else
              let applied : Bool ← perform (UnlockOp.outside (.applySSHCredential k))
              if !applied then do
                let _ ← perform (UnlockOp.statement (.markSSHSessionApplyFailure k))
                pure (.problem 502 "SSH access unavailable" "ssh credential runtime apply failed.")
              else pure (.data data)

/-! ## The stores -/

/-- A store: its tables, what a statement does to them, and the calls of the organizers. A statement
that belongs to the other store does nothing. `some message` is a failure of the database. -/
structure UnlockStore (σ : Type) where
  exec : Option String → UnlockStatement → σ → Option (σ × Except StoreError Unit)
  epoch : Option String → Int → σ → Except StoreError Int
  currentTick : Option String → σ → Except StoreError Int
  /-- what `UnlockService` does after its check, and whether it unlocks the service -/
  unlock : Option String → ServiceKey → σ → σ × Except StoreError Unit
  unlocks : Option String → ServiceKey → σ → Bool
  unlocked : ServiceKey → σ → Bool
  rotateChallengeUnlockProof : Int → UnlockProc (Except StoreError Unit)
  setChallengeMaintenance : Int → Bool → Time → UnlockProc (Except StoreError Unit)

namespace MemoryStore

/-- The statements of the memory store. -/
def execUnlock : UnlockStatement → MemoryStore → Option (MemoryStore × Except StoreError Unit)
  | .validateServiceAction k, s => some (s, s.validateServiceAction k)
  | .markSSHSessionApplyFailure k, s =>
    let change := s.markSSHSessionApplyFailure k
    some (change.store, change.result)
  | .rotateChallengeUnlockProof challengeID, s =>
    let change := s.rotateChallengeUnlockProof challengeID
    some (change.store, change.result.map fun _ => ())
  | .setChallengeMaintenance challengeID maintenance now, s =>
    let change := s.setChallengeMaintenance challengeID maintenance now
    some (change.store, change.result.map fun _ => ())
  | _, _ => none

/-- The service is one that the locked part of `UnlockService` unlocks. -/
def unlockable (k : ServiceKey) (s : MemoryStore) : Bool :=
  (s.teamStates.lookup k).isSome &&
    (s.challenges.lookup k.2).any (fun challenge =>
      challenge.published && !challenge.maintenance && challenge.playFromTick ≤ 0) &&
    (s.instances.lookup k).any (·.runtimeStatus = .ready)

/-- The memory store, which never fails and has no ticks. -/
def unlockStore : UnlockStore MemoryStore where
  exec _ := execUnlock
  epoch _ := getChallengeUnlockProofEpoch
  currentTick _ _ := .ok 0
  unlock _ k s :=
    let change := s.unlockServiceLocked k
    (change.store, change.result.map fun _ => ())
  unlocks _ := unlockable
  unlocked k s := (s.teamStates.lookup k).any (·.unlocked)
  rotateChallengeUnlockProof challengeID :=
    Proc.perform (UnlockOp.statement (.rotateChallengeUnlockProof challengeID))
  setChallengeMaintenance challengeID maintenance now :=
    Proc.perform (UnlockOp.statement (.setChallengeMaintenance challengeID maintenance now))

end MemoryStore

namespace PlayDatabase
variable (db : PlayDatabase)

/-- `UPDATE challenges SET unlock_proof_epoch = COALESCE(unlock_proof_epoch, 1) + 1 WHERE id =
…`. -/
def rotateEpoch (challengeID : Int) : PlayDatabase :=
  db.updateChallenges (fun c => if c.id = challengeID then
    { c with unlockProofEpoch := c.unlockProofEpoch + 1 } else c)
    fun c => by split <;> rfl

/-- `UPDATE team_service_states SET unlocked = FALSE … WHERE challenge_id = …`. -/
def clearUnlocks (challengeID : Int) : PlayDatabase :=
  db.updateStates (fun tss => if tss.challengeID = challengeID then
    { tss with
      unlocked := false
      lastEvent := "unlock proofs rotated by organizer"
      resetCooldown :=
        if tss.resetCooldown = "maintenance" then tss.resetCooldown else "ready" } else tss)
    fun tss => by split <;> rfl

/-- `UPDATE team_service_states SET ssh_hint = … WHERE team_id = … AND challenge_id = …`. -/
def markSSHSessionApplyFailure (k : ServiceKey) : PlayDatabase :=
  db.updateStates (fun tss => if tss.key = k then
    { tss with
      sshHint := "credential apply failed; open SSH Access to retry applying the team credential"
      lastEvent := "ssh credential apply failed" } else tss)
    fun tss => by split <;> rfl

/-- The `UPDATE` of `UnlockService`. -/
def unlockService (k : ServiceKey) : PlayDatabase :=
  db.updateStates (fun tss =>
    if tss.key = k && db.unlockable tss then PlayTables.unlockRow tss else tss)
    fun tss => by split <;> rfl

/-- `postgresStore.GetChallengeUnlockProofEpoch`. -/
def getChallengeUnlockProofEpoch (challengeID : Int) : Except StoreError Int :=
  match db.challenges.find? (·.id = challengeID) with
  | none => .error .challengeNotFound
  | some c => .ok (if c.unlockProofEpoch < 1 then 1 else c.unlockProofEpoch)

/-- An `UPDATE` of a challenge has no effect where the row is missing. -/
def updated (challengeID : Int) (db' : PlayDatabase) : PlayDatabase × Except StoreError Unit :=
  if db.hasTarget (.challenge challengeID) then (db', .ok ()) else (db, .error .challengeNotFound)

/-- The text before the error of a statement. -/
def errorText : UnlockStatement → String
  | .rotateEpoch _ => "rotate unlock proof epoch: "
  | .clearUnlocks _ => "clear unlocks after proof rotate: "
  | .enterMaintenance _ _ | .resume _ _ => "set challenge maintenance: "
  | .markMaintenance _ => "mark service states maintenance: "
  | .markResumed _ => "mark service states resume: "
  | _ => ""

/-- The statements of the database; a failing one changes nothing. -/
def execUnlock (failure : Option String) (q : UnlockStatement) :
    Option (PlayDatabase × Except StoreError Unit) :=
  match failure with
  | some message => some (db, .error (.failure (errorText q ++ message)))
  | none =>
    match q with
    | .validateServiceAction k =>
      some (db, match db.validateServiceAction k.1 k.2 with
        | some err => .error err
        | none => .ok ())
    | .markSSHSessionApplyFailure k =>
      some (if db.teamServiceStates.any (·.key = k) then (db.markSSHSessionApplyFailure k, .ok ())
        else (db, .error .challengeNotFound))
    | .rotateEpoch challengeID => some (db.updated challengeID (db.rotateEpoch challengeID))
    | .clearUnlocks challengeID => some (db.clearUnlocks challengeID, .ok ())
    | .enterMaintenance challengeID now =>
      some (db.updated challengeID (db.enterMaintenance challengeID now.formatRFC3339))
    | .markMaintenance challengeID => some (db.markMaintenance challengeID, .ok ())
    | .resume challengeID playFromTick =>
      some (db.updated challengeID (db.resumeChallenge challengeID playFromTick))
    | .markResumed challengeID => some (db.markResumed challengeID, .ok ())
    | .rotateChallengeUnlockProof _ | .setChallengeMaintenance _ _ _ => none

open Proc in
/-- `postgresStore.RotateChallengeUnlockProof`, without the listing at its end. -/
def rotateChallengeUnlockProof (challengeID : Int) : UnlockProc (Except StoreError Unit) := do
  match ← perform (UnlockOp.statement (.rotateEpoch challengeID)) with
  | .error err => pure (.error err)
  | .ok () => perform (UnlockOp.statement (.clearUnlocks challengeID))

open Proc in
/-- `postgresStore.SetChallengeMaintenance`, without the listing at its end. -/
def changeMaintenance (challengeID : Int) (maintenance : Bool) (now : Time) :
    UnlockProc (Except StoreError Unit) := do
  if maintenance then
    match ← perform (UnlockOp.statement (.enterMaintenance challengeID now)) with
    | .error err => pure (.error err)
    | .ok () => perform (UnlockOp.statement (.markMaintenance challengeID))
  else
    match ← perform UnlockOp.currentTick with
    | .error err => pure (.error err)
    | .ok currentTick =>
      let playFromTick := if currentTick > 0 then some (currentTick + 1) else none
      match ← perform (UnlockOp.statement (.resume challengeID playFromTick)) with
      | .error err => pure (.error err)
      | .ok () => perform (UnlockOp.statement (.markResumed challengeID))

/-- The database as an unlock store. -/
def unlockStore : UnlockStore PlayDatabase where
  exec failure q db := db.execUnlock failure q
  epoch failure challengeID db :=
    match failure with
    | some message => .error (.failure message)
    | none => db.getChallengeUnlockProofEpoch challengeID
  currentTick failure db :=
    match failure with
    | some message => .error (.failure ("lookup current tick for resume: " ++ message))
    | none => .ok db.maxTick
  unlock failure k db :=
    match failure with
    | some message => (db, .error (.failure message))
    | none => (db.unlockService k,
        if (db.unlockUpdate k.1 k.2).2 then .ok () else .error .challengeNotFound)
  unlocks failure k db := failure.isNone && (db.unlockUpdate k.1 k.2).2
  unlocked k db := db.teamServiceStates.any fun tss => tss.key = k && tss.unlocked
  rotateChallengeUnlockProof := rotateChallengeUnlockProof
  setChallengeMaintenance := changeMaintenance

end PlayDatabase

/-- The store that the gateway was started with. -/
inductive StoreKind where
  | memory
  | postgres

/-- What the store of either kind keeps. -/
abbrev StoreKind.Tables : StoreKind → Type
  | memory => MemoryStore
  | postgres => PlayDatabase

/-- The store of either kind. -/
def StoreKind.store : (kind : StoreKind) → UnlockStore kind.Tables
  | memory => MemoryStore.unlockStore
  | postgres => PlayDatabase.unlockStore

/-! ## The runs -/

/-- The requests around unlocking. -/
inductive UnlockRequest where
  | unlock (k : ServiceKey) (proof : Option String)
  | rotateChallengeUnlockProof (challengeID : Int)
  | setChallengeMaintenance (challengeID : Int) (maintenance : Bool) (now : Time)

/-- Whether the database fails, and what the rate limiter or the controller answers. -/
structure UnlockInput where
  failure : Option String := none
  answer : Bool := true

/-- The store, and what rotations and verifications have left for the statements below. -/
structure UnlockState (σ : Type) where
  store : σ
  /-- the challenges whose proofs were rotated, the last one first -/
  rotated : List Int := []
  /-- the proofs that have passed, each with its service and the epoch that was read for it -/
  verified : List (ServiceKey × Int × String) := []

/-- How often the proofs of a challenge have been rotated. -/
def UnlockState.rotations {σ : Type} (s : UnlockState σ) (challengeID : Int) : Nat :=
  s.rotated.count challengeID

namespace UnlockStore
variable {σ : Type} (st : UnlockStore σ)

/-- The code that serves a request. -/
def handler (hmac : MAC) (secret : String) : UnlockRequest → Thread UnlockOp UnlockOp.Res
  | .unlock k proof => (handleUnlock hmac secret k proof).toThread
  | .rotateChallengeUnlockProof challengeID => (st.rotateChallengeUnlockProof challengeID).toThread
  | .setChallengeMaintenance challengeID maintenance now =>
    (st.setChallengeMaintenance challengeID maintenance now).toThread

/-- The operations on the state. -/
def sem : Semantics (UnlockState σ) UnlockInput UnlockOp UnlockOp.Res
  | input, .statement q, s =>
    (st.exec input.failure q s.store).map fun out =>
      ({ s with
          store := out.1
          rotated := if out.2.isOk then q.rotates.toList ++ s.rotated else s.rotated }, out.2)
  | input, .getChallengeUnlockProofEpoch challengeID, s =>
    some (s, (st.epoch input.failure challengeID s.store).map fun epoch =>
      (epoch, s.rotations challengeID))
  | input, .currentTick, s => some (s, st.currentTick input.failure s.store)
  | input, .unlock k _, s =>
    let out := st.unlock input.failure k s.store
    some ({ s with store := out.1 }, out.2)
  | _, .verified k epoch proof, s =>
    some ({ s with verified := (k, epoch, proof) :: s.verified }, ())
  | input, .outside _, s => some (s, input.answer)

end UnlockStore

end ADPlatform.APIGateway
