import ADPlatform.APIGateway.PlayGates
import ADPlatform.Lib.Concurrent

/-! # Resuming play while ticks start

`SetChallengeMaintenance` and `SetTeamActive` of the postgres store read the newest tick in one
statement and defer the challenge or the team past it in another. Game core may start a tick in
between. `StartNextTick` locks the table of the ticks, so it is one step, and so is the transaction
of `SetTeamActive` from its `UPDATE` on. -/

namespace ADPlatform.APIGateway
open GameCore (Time Stamp TickTable GameTickStatus CheckerTarget)
open Concurrent

/-! ## The statements -/

namespace PlayDatabase

/-- The teams rewritten row by row, no id changed. -/
def updateTeams (db : PlayDatabase) (f : TeamRow → TeamRow) (hf : ∀ t, (f t).id = t.id) :
    PlayDatabase :=
  { db with
    teams := db.teams.map f
    teams_key := by simpa only [List.map_map, Function.comp_def, hf] using db.teams_key }

/-- The challenges rewritten row by row, no id changed. -/
def updateChallenges (db : PlayDatabase) (f : ChallengeRow → ChallengeRow)
    (hf : ∀ c, (f c).id = c.id) : PlayDatabase :=
  { db with
    challenges := db.challenges.map f
    challenges_key := by simpa only [List.map_map, Function.comp_def, hf] using db.challenges_key }

/-- The service states rewritten row by row, no key changed. -/
def updateStates (db : PlayDatabase) (f : ServiceState → ServiceState)
    (hf : ∀ tss, (f tss).key = tss.key) : PlayDatabase :=
  { db with
    teamServiceStates := db.teamServiceStates.map f
    teamServiceStates_key := by
      simpa only [List.map_map, Function.comp_def, hf] using db.teamServiceStates_key }

end PlayDatabase

/-- What is resumed. -/
inductive ResumeTarget where
  | challenge (challengeID : Int)
  | team (teamID : Int)
  deriving DecidableEq, Repr

/-- The checker target belongs to what is resumed. -/
def ResumeTarget.covers : ResumeTarget → CheckerTarget → Prop
  | challenge challengeID, target => target.challengeID = challengeID
  | team teamID, target => target.teamID = teamID

namespace PlayDatabase
variable (db : PlayDatabase)

/-- `UPDATE … SET maintenance = FALSE, maintenance_at = NULL, play_from_tick = … WHERE id = …`. -/
def resumeChallenge (challengeID : Int) (playFromTick : Option Int) : PlayDatabase :=
  db.updateChallenges (fun c => if c.id = challengeID then
    { c with maintenance := false, maintenanceAt := none, playFromTick } else c)
    fun c => by split <;> rfl

/-- `UPDATE … SET active = TRUE, deactivated_at = NULL, play_from_tick = … WHERE id = …`. -/
def resumeTeam (teamID : Int) (playFromTick : Option Int) : PlayDatabase :=
  db.updateTeams (fun t => if t.id = teamID then
    { t with active := true, deactivatedAt := none, playFromTick } else t)
    fun t => by split <;> rfl

/-- The resumption of either kind, from the tick that was read. -/
def resume : ResumeTarget → Option Int → PlayDatabase
  | .challenge challengeID => db.resumeChallenge challengeID
  | .team teamID => db.resumeTeam teamID

/-- The row is there. -/
def hasTarget : ResumeTarget → Bool
  | .challenge challengeID => db.challenges.any (·.id = challengeID)
  | .team teamID => db.teams.any (·.id = teamID)

/-- The `play_from_tick` of a row. -/
def playFromTick : ResumeTarget → Option Int
  | .challenge challengeID => (db.challenges.find? (·.id = challengeID)).bind (·.playFromTick)
  | .team teamID => (db.teams.find? (·.id = teamID)).bind (·.playFromTick)

/-- A challenge enters maintenance: its services are out of the game at once. -/
def enterMaintenance (challengeID : Int) (now : Stamp) : PlayDatabase :=
  db.updateChallenges (fun c => if c.id = challengeID then
    { c with
      maintenance := true
      maintenanceAt := now
      playFromTick := none
      unlockProofEpoch := c.unlockProofEpoch + 1 } else c)
    fun c => by split <;> rfl

/-- The service states of a challenge that enters maintenance. -/
def markMaintenance (challengeID : Int) : PlayDatabase :=
  db.updateStates (fun tss => if tss.challengeID = challengeID then
    { tss with
      status := "degraded"
      checker := "pending"
      unlocked := false
      lastEvent := "challenge under organizer maintenance; unlock proofs rotated"
      resetCooldown := "maintenance" } else tss)
    fun tss => by split <;> rfl

/-- The service states of a challenge that has been resumed. -/
def markResumed (challengeID : Int) : PlayDatabase :=
  db.updateStates (fun tss => if tss.challengeID = challengeID then
    { tss with
      lastEvent := if (db.playFromTick (.challenge challengeID)).isSome then
        "resumed; joins play on next tick" else "resumed after maintenance" } else tss)
    fun tss => by split <;> rfl

/-- The rows of the scoreboard, which the transaction removes too, are not kept here. -/
def deactivateTeam (teamID : Int) (now : Stamp) : PlayDatabase :=
  db.updateTeams (fun t => if t.id = teamID then
    { t with active := false, deactivatedAt := now, playFromTick := none } else t)
    fun t => by split <;> rfl

/-- `postgresGameStore.StartNextTick`. -/
def startNextTick (now : Time) : PlayDatabase × Except GameCore.StoreError GameTickStatus :=
  ({ db with
      gameTicks := (db.gameTicks.startNextTick now).1
      gameTicks_pos := by
        unfold TickTable.startNextTick
        split
        · exact db.gameTicks_pos
        · intro tick htick
          rcases List.mem_append.mp htick with htick | htick
          · exact db.gameTicks_pos tick htick
          · have := db.maxTick_nonneg
            rw [List.mem_singleton.mp htick]
            exact Int.lt_add_one_of_le this },
    (db.gameTicks.startNextTick now).2)

/-- `postgresGameStore.CompleteTick`. -/
def completeTick (tick : GameTickStatus) : PlayDatabase :=
  { db with
    gameTicks := (db.gameTicks.completeTick tick).1
    gameTicks_pos := by
      intro row hrow
      obtain ⟨old, hold, rfl⟩ := List.mem_map.mp hrow
      rw [TickTable.completeRow_id]
      exact db.gameTicks_pos old hold }

end PlayDatabase

/-! ## The programs -/

/-- `currentTick` answers with the newest tick and with the number of ticks that had been started
by then, which `resume` brings back. -/
inductive ResumeOp where
  | currentTick
  | resume (target : ResumeTarget) (playFromTick : Option Int) (seen : Nat)
  | markResumed (challengeID : Int)
  | enterMaintenance (challengeID : Int) (now : Stamp)
  | markMaintenance (challengeID : Int)
  | deactivateTeam (teamID : Int) (now : Stamp)
  | startNextTick (now : Time)
  | completeTick (tick : GameTickStatus)

/-- An update answers whether it has affected a row. -/
def ResumeOp.Res : ResumeOp → Type
  | currentTick => Except String (Int × Nat)
  | resume _ _ _ | enterMaintenance _ _ => Except String Bool
  | markResumed _ | markMaintenance _ | deactivateTeam _ _ | completeTick _ => Except String Unit
  | startNextTick _ => Except GameCore.StoreError GameTickStatus

/-- A handler's code over these operations. -/
abbrev ResumeProc := Proc ResumeOp ResumeOp.Res

open Proc in
/-- The branch of `SetChallengeMaintenance` and of `SetTeamActive` that resumes play, with the
texts that they put before an error of the query and of the update. -/
def resumePlay (target : ResumeTarget) (lookupText updateText : String) :
    ResumeProc (Except StoreError Bool) := do
  match ← perform ResumeOp.currentTick with
  | .error message => pure (.error (.failure (lookupText ++ message)))
  | .ok (currentTick, seen) =>
    let playFromTick := if currentTick > 0 then some (currentTick + 1) else none
    match ← perform (ResumeOp.resume target playFromTick seen) with
    | .error message => pure (.error (.failure (updateText ++ message)))
    | .ok affected => pure (.ok affected)

open Proc in
/-- `postgresStore.SetChallengeMaintenance`, without the listing at its end. -/
def setChallengeMaintenance (challengeID : Int) (maintenance : Bool) (now : Time) :
    ResumeProc (Except StoreError Unit) := do
  if maintenance then
    match ← perform (ResumeOp.enterMaintenance challengeID now.formatRFC3339) with
    | .error message => pure (.error (.failure ("set challenge maintenance: " ++ message)))
    | .ok false => pure (.error .challengeNotFound)
    | .ok true =>
      match ← perform (ResumeOp.markMaintenance challengeID) with
      | .error message => pure (.error (.failure ("mark service states maintenance: " ++ message)))
      | .ok () => pure (.ok ())
  else
    match ← resumePlay (.challenge challengeID) "lookup current tick for resume: "
        "set challenge maintenance: " with
    | .error err => pure (.error err)
    | .ok false => pure (.error .challengeNotFound)
    | .ok true =>
      match ← perform (ResumeOp.markResumed challengeID) with
      | .error message => pure (.error (.failure ("mark service states resume: " ++ message)))
      | .ok () => pure (.ok ())

open Proc in
/-- `postgresStore.SetTeamActive`, without the listing at its end. -/
def setTeamActive (teamID : Int) (active : Bool) (now : Time) :
    ResumeProc (Except StoreError Unit) := do
  if active then
    match ← resumePlay (.team teamID) "lookup current tick for team reactivate: "
        "reactivate team: " with
    | .error err => pure (.error err)
    | .ok _ => pure (.ok ())
  else
    match ← perform (ResumeOp.deactivateTeam teamID now.formatRFC3339) with
    | .error message => pure (.error (.failure ("deactivate team: " ++ message)))
    | .ok () => pure (.ok ())

/-- The requests that race: two resumptions, and the ticks they are scheduled by. -/
inductive ResumeRequest where
  | setChallengeMaintenance (challengeID : Int) (maintenance : Bool) (now : Time)
  | setTeamActive (teamID : Int) (active : Bool) (now : Time)
  | startNextTick (now : Time)
  | completeTick (tick : GameTickStatus)

/-- The code that serves a request. -/
def ResumeRequest.handler : ResumeRequest → Thread ResumeOp ResumeOp.Res
  | setChallengeMaintenance challengeID maintenance now =>
    (APIGateway.setChallengeMaintenance challengeID maintenance now).toThread
  | setTeamActive teamID active now => (APIGateway.setTeamActive teamID active now).toThread
  | startNextTick now => .call (.startNextTick now) fun _ => .done
  | completeTick tick => .call (.completeTick tick) fun _ => .done

/-! ## The runs -/

/-- A resume that has taken effect. -/
structure Resumed where
  target : ResumeTarget
  /-- the database right after the update -/
  db : PlayDatabase
  /-- a tick was started between the read and the update -/
  overtaken : Bool

/-- The database, the number of ticks started and what was resumed so far. -/
structure ResumeState where
  db : PlayDatabase
  /-- the number of ticks started so far -/
  started : Nat := 0
  resumed : List Resumed := []

/-- `some message` is a statement that the database fails. -/
def resumeSem : Semantics ResumeState (Option String) ResumeOp ResumeOp.Res
  | some message, .currentTick, s => some (s, .error message)
  | some message, .resume _ _ _, s | some message, .enterMaintenance _ _, s =>
    some (s, .error message)
  | some message, .markResumed _, s | some message, .markMaintenance _, s
  | some message, .deactivateTeam _ _, s | some message, .completeTick _, s =>
    some (s, .error message)
  | some message, .startNextTick _, s => some (s, .error (.failure message))
  | none, .currentTick, s => some (s, .ok (s.db.maxTick, s.started))
  | none, .resume target playFromTick seen, s =>
    if s.db.hasTarget target then
      let db := s.db.resume target playFromTick
      some ({ s with db, resumed := s.resumed ++ [⟨target, db, seen ≠ s.started⟩] }, .ok true)
    else some (s, .ok false)
  | none, .markResumed challengeID, s =>
    some ({ s with db := s.db.markResumed challengeID }, .ok ())
  | none, .enterMaintenance challengeID now, s =>
    some ({ s with db := s.db.enterMaintenance challengeID now },
      .ok (s.db.hasTarget (.challenge challengeID)))
  | none, .markMaintenance challengeID, s =>
    some ({ s with db := s.db.markMaintenance challengeID }, .ok ())
  | none, .deactivateTeam teamID now, s =>
    some ({ s with db := s.db.deactivateTeam teamID now }, .ok ())
  | none, .startNextTick now, s =>
    match s.db.startNextTick now with
    | (db, .ok tick) => some ({ s with db, started := s.started + 1 }, .ok tick)
    | (_, .error err) => some (s, .error err)
  | none, .completeTick tick, s => some ({ s with db := s.db.completeTick tick }, .ok ())

/-- Once there are ticks, what is resumed waits for one that has not started. -/
def Resumed.Defers (r : Resumed) : Prop :=
  r.db.gameTicks.ticks ≠ [] → ∃ tick, r.db.playFromTick r.target = some tick ∧ r.db.maxTick < tick

/-- Ticks are only added. -/
def Starts (s t : ResumeState) : Prop :=
  ∃ n : Nat, t.started = s.started + n ∧ t.db.maxTick = s.db.maxTick + n

theorem Starts.refl (s : ResumeState) : Starts s s := ⟨0, by simp⟩

theorem Starts.trans {s t u : ResumeState} (h : Starts s t) (h' : Starts t u) : Starts s u := by
  obtain ⟨n, hs, hmax⟩ := h
  obtain ⟨m, hs', hmax'⟩ := h'
  exact ⟨n + m, by omega, by omega⟩

/-- The contract of the resumptions: what is resumed defers play exactly if no tick started between
the read and the update. -/
def resuming : Contract ResumeState (Option String) ResumeOp ResumeOp.Res where
  sem := resumeSem
  inv s := ∀ r ∈ s.resumed, r.Defers ↔ r.overtaken = false
  guar := Starts
  rely := Starts
  guar_refl := .refl
  rely_refl := .refl
  rely_trans := .trans
  guar_rely h := h

/-! ## The update -/

namespace PlayDatabase
variable {db : PlayDatabase} {target : ResumeTarget} {playFromTick : Option Int}

theorem gameTicks_resume (db : PlayDatabase) (target : ResumeTarget) (playFromTick : Option Int) :
    (db.resume target playFromTick).gameTicks = db.gameTicks := by
  cases target <;> rfl

/-- The row that is updated. -/
theorem find?_update_row {α : Type} {k : α → Int} {f : α → α} {id : Int} {l : List α}
    (hkey : ∀ x, k (if k x = id then f x else x) = k x)
    (h : l.any (fun x => k x = id) = true) :
    ∃ x, (l.map fun x => if k x = id then f x else x).find? (fun x => k x = id) =
      some (f x) := by
  obtain ⟨y, hy, hid⟩ := List.any_eq_true.mp h
  obtain ⟨x, -, hx, hfind⟩ :=
    Table.find?_key_of_mem (List.mem_map.mpr ⟨y, hy, of_decide_eq_true hid⟩)
  exact ⟨x, by rw [Table.find?_update hkey, hfind, Option.map_some, if_pos hx]⟩

theorem playFromTick_resume (h : db.hasTarget target = true) :
    (db.resume target playFromTick).playFromTick target = playFromTick := by
  cases target with
  | challenge challengeID =>
    obtain ⟨c, hc⟩ := find?_update_row (k := ChallengeRow.id) (f := fun c =>
      { c with maintenance := false, maintenanceAt := none, playFromTick })
      (fun c => by split <;> rfl) h
    exact congrArg (Option.bind · ChallengeRow.playFromTick) hc
  | team teamID =>
    obtain ⟨t, ht⟩ := find?_update_row (k := TeamRow.id) (f := fun t =>
      { t with active := true, deactivatedAt := none, playFromTick })
      (fun t => by split <;> rfl) h
    exact congrArg (Option.bind · TeamRow.playFromTick) ht

/-- There are ticks as soon as the newest one is not `0`. -/
theorem ticks_ne_nil (db : PlayDatabase) : db.gameTicks.ticks ≠ [] ↔ 0 < db.maxTick := by
  rw [PlayTables.maxTick, TickTable.maxID]
  constructor
  · intro h
    obtain ⟨tick, htick⟩ := List.exists_mem_of_ne_nil _ h
    exact (db.gameTicks_pos tick htick).trans_le (TickTable.le_maxID htick)
  · intro h hnil
    simp [hnil] at h

/-- What an update defers past the tick `currentTick`, when `n` ticks have been started since. -/
theorem defers_resume {currentTick : Int} {n : Nat} (hmax : db.maxTick = currentTick + n)
    (htick : 0 ≤ currentTick) (h : db.hasTarget target = true) (overtaken : Bool) :
    (Resumed.mk target (db.resume target (if currentTick > 0 then some (currentTick + 1) else none))
      overtaken).Defers ↔ n = 0 := by
  have hticks :=
    gameTicks_resume db target (if currentTick > 0 then some (currentTick + 1) else none)
  simp only [Resumed.Defers, PlayTables.maxTick, hticks, playFromTick_resume h, ticks_ne_nil]
  rw [← PlayTables.maxTick, hmax]
  split
  next hpos =>
    simp only [Option.some.injEq, exists_eq_left', gt_iff_lt] at hpos ⊢
    omega
  next hpos =>
    simp only [reduceCtorEq, false_and, exists_false, imp_false]
    omega

/-- A deferred challenge or team is not checked. -/
theorem notMem_listCheckerTargets {tick : Int} (h : db.playFromTick target = some tick)
    (htick : db.maxTick < tick) : ∀ x ∈ db.listCheckerTargets, ¬target.covers x := by
  intro x hx hcovers
  obtain ⟨⟨tss, c, t⟩, hservice, hx⟩ := List.mem_flatMap.mp hx
  obtain ⟨si, -, heq⟩ := List.mem_filterMap.mp hx
  obtain ⟨-, hc, ht, -, -⟩ := PlayTables.mem_services.mp hservice
  split at heq
  next hplay =>
    obtain rfl := Option.some.inj heq
    simp only [Bool.and_eq_true, decide_eq_true_eq, and_assoc] at hplay
    obtain ⟨-, -, hcreached, -, htreached, -⟩ := hplay
    have hnot {playFromTick : Option Int} (hreached : db.reached playFromTick = true) :
        playFromTick ≠ some tick := by
      rintro rfl
      have : tick ≤ db.maxTick := by simpa [PlayTables.reached] using hreached
      omega
    cases target with
    | challenge challengeID =>
      obtain rfl : c.id = challengeID := hcovers
      rw [playFromTick, Table.find?_of_mem db.challenges_key hc] at h
      exact hnot hcreached h
    | team teamID =>
      obtain rfl : t.id = teamID := hcovers
      rw [playFromTick, Table.find?_of_mem db.teams_key ht] at h
      exact hnot htreached h
  next => cases heq

end PlayDatabase

/-! ## The contract -/

theorem maxTick_startNextTick {db db' : PlayDatabase} {now : Time} {tick : GameTickStatus}
    (h : db.startNextTick now = (db', .ok tick)) : db'.maxTick = db.maxTick + 1 := by
  obtain ⟨rfl, hok⟩ := Prod.mk.inj h
  change (db.gameTicks.startNextTick now).1.maxID = db.gameTicks.maxID + 1
  unfold TickTable.startNextTick at hok ⊢
  split at hok
  next => cases hok
  next hrunning =>
    rw [if_neg hrunning]
    exact db.gameTicks.maxID_next rfl

/-- Every statement but the update of a resume. -/
theorem resuming_keeps {op : ResumeOp} (hop : ∀ target playFromTick seen,
    op ≠ .resume target playFromTick seen) : resuming.Keeps op := by
  intro input s t r hs _ hsem
  have hsem : resumeSem input op s = some (t, r) := hsem
  cases op with
  | resume target playFromTick seen => exact absurd rfl (hop target playFromTick seen)
  | startNextTick now =>
    cases input with
    | some message =>
      obtain ⟨rfl, rfl⟩ := Prod.mk.inj (Option.some.inj hsem)
      exact ⟨hs, .refl s⟩
    | none =>
      rw [resumeSem] at hsem
      split at hsem
      next db tick hstart =>
        obtain ⟨rfl, rfl⟩ := Prod.mk.inj (Option.some.inj hsem)
        exact ⟨hs, 1, rfl, maxTick_startNextTick hstart⟩
      next =>
        obtain ⟨rfl, rfl⟩ := Prod.mk.inj (Option.some.inj hsem)
        exact ⟨hs, .refl s⟩
  | completeTick tick =>
    cases input with
    | some message =>
      obtain ⟨rfl, rfl⟩ := Prod.mk.inj (Option.some.inj hsem)
      exact ⟨hs, .refl s⟩
    | none =>
      obtain ⟨rfl, rfl⟩ := Prod.mk.inj (Option.some.inj hsem)
      refine ⟨hs, 0, rfl, ?_⟩
      rw [Int.natCast_zero, Int.add_zero]
      exact s.db.gameTicks.maxID_map (TickTable.completeRow_id tick)
  | currentTick | markResumed | enterMaintenance | markMaintenance | deactivateTeam =>
    cases input with
    | some message =>
      obtain ⟨rfl, rfl⟩ := Prod.mk.inj (Option.some.inj hsem)
      exact ⟨hs, .refl s⟩
    | none =>
      obtain ⟨rfl, rfl⟩ := Prod.mk.inj (Option.some.inj hsem)
      exact ⟨hs, 0, rfl, (Int.add_zero _).symm⟩

/-- The answer of `currentTick` is right at the moment of the read. -/
theorem currentTick_meets (s : ResumeState) :
    resuming.Meets (Proc.perform ResumeOp.currentTick) s fun r t =>
      ∀ currentTick seen, r = .ok (currentTick, seen) →
        currentTick = t.db.maxTick ∧ seen = t.started := by
  refine Contract.Meets.perform fun s' input t r _ hs' hal hsem => ?_
  obtain ⟨hinv, hguar⟩ := resuming_keeps (by simp) input s' t r hs' hal hsem
  refine ⟨hinv, hguar, fun currentTick seen hr => ?_⟩
  have hsem : resumeSem input .currentTick s' = some (t, r) := hsem
  subst hr
  cases input with
  | some message => cases (Prod.mk.inj (Option.some.inj hsem)).2
  | none =>
    obtain ⟨rfl, hr⟩ := Prod.mk.inj (Option.some.inj hsem)
    obtain ⟨rfl, rfl⟩ := Prod.mk.inj (Except.ok.inj hr)
    exact ⟨rfl, rfl⟩

/-- The update of a resume, some time after the read. -/
theorem resume_fine {s : ResumeState} (target : ResumeTarget) :
    resuming.Fine (Proc.perform (ResumeOp.resume target
      (if s.db.maxTick > 0 then some (s.db.maxTick + 1) else none) s.started)) s := by
  refine Contract.Meets.perform fun s' input t r hr hs' _ hsem => ?_
  obtain ⟨n, hstarted, hmax⟩ := hr
  have hsem : resumeSem input (.resume target _ s.started) s' = some (t, r) := hsem
  have hsame (ht : s' = t) : resuming.inv t ∧ Starts s' t ∧ True :=
    ⟨ht ▸ hs', ht ▸ .refl s', trivial⟩
  cases input with
  | some message => exact hsame (Prod.mk.inj (Option.some.inj hsem)).1
  | none =>
    rw [resumeSem] at hsem
    split at hsem
    next htarget =>
      obtain ⟨rfl, -⟩ := Prod.mk.inj (Option.some.inj hsem)
      refine ⟨fun r hr => ?_, ⟨0, rfl, ?_⟩, trivial⟩
      · rcases List.mem_append.mp hr with hr | hr
        · exact hs' r hr
        · rw [List.mem_singleton.mp hr, PlayDatabase.defers_resume hmax s.db.maxTick_nonneg htarget]
          simp only [decide_eq_false_iff_not, ne_eq, not_not]
          omega
      · rw [Int.natCast_zero, Int.add_zero]
        exact congrArg TickTable.maxID (PlayDatabase.gameTicks_resume s'.db target _)
    next => exact hsame (Prod.mk.inj (Option.some.inj hsem)).1

theorem resumePlay_fine (s : ResumeState) (target : ResumeTarget)
    (lookupText updateText : String) :
      resuming.Fine (resumePlay target lookupText updateText) s := by
  refine (currentTick_meets s).bind fun r t ht _ hr => ?_
  match r with
  | .error message => exact Contract.Fine.pure ht
  | .ok (currentTick, seen) =>
    obtain ⟨rfl, rfl⟩ := hr currentTick seen rfl
    refine (resume_fine target).bind fun r u hu _ => ?_
    match r with
    | .error _ | .ok _ => exact Contract.Fine.pure hu

theorem resuming_handles : resuming.Handles ResumeRequest.handler := by
  intro request s hs
  have hfine {op : ResumeOp} (hop : ∀ target playFromTick seen,
      op ≠ .resume target playFromTick seen) (s : ResumeState) :
      resuming.Fine (Proc.perform op) s := .perform (resuming_keeps hop)
  cases request with
  | startNextTick now => exact (hfine (by simp) s).toThread
  | completeTick tick => exact (hfine (by simp) s).toThread
  | setChallengeMaintenance challengeID maintenance now =>
    refine Contract.Meets.toThread (Q := fun _ _ => True) ?_
    cases maintenance with
    | true =>
      refine (hfine (by simp) s).bind fun r t ht _ => ?_
      match r with
      | .error _ | .ok false => exact .pure ht
      | .ok true =>
        refine (hfine (by simp) t).bind fun r u hu _ => ?_
        match r with
        | .error _ | .ok () => exact .pure hu
    | false =>
      refine (resumePlay_fine s _ _ _).bind fun r t ht _ => ?_
      match r with
      | .error _ | .ok false => exact .pure ht
      | .ok true =>
        refine (hfine (by simp) t).bind fun r u hu _ => ?_
        match r with
        | .error _ | .ok () => exact .pure hu
  | setTeamActive teamID active now =>
    refine Contract.Meets.toThread (Q := fun _ _ => True) ?_
    cases active with
    | true =>
      refine (resumePlay_fine s _ _ _).bind fun r t ht _ => ?_
      match r with
      | .error _ | .ok _ => exact .pure ht
    | false =>
      refine (hfine (by simp) s).bind fun r t ht _ => ?_
      match r with
      | .error _ | .ok () => exact .pure ht

/-- Whatever is resumed in a run waits for a tick that has not started exactly if no tick was
started between the read of the newest tick and the update; and then the checker leaves it alone
until that tick. -/
theorem resumed_defers_iff (db : PlayDatabase) (ls : List (Label ResumeRequest (Option String)))
    (r : Resumed)
    (hr : r ∈ ((Machine.boot { db }).run resumeSem ResumeRequest.handler ls).shared.resumed) :
    (r.Defers ↔ r.overtaken = false) ∧
    (r.overtaken = false → r.db.gameTicks.ticks ≠ [] →
      ∀ x ∈ r.db.listCheckerTargets, ¬r.target.covers x) := by
  have hinv : resuming.inv { db } := fun r hr => by cases hr
  have hdefers := resuming.inv_run resuming_handles hinv
    (Contract.runAllowed_of_forall (fun _ _ _ => trivial) ls) r hr
  refine ⟨hdefers, fun hnot hticks => ?_⟩
  obtain ⟨tick, htick, hlt⟩ := hdefers.mpr hnot hticks
  exact PlayDatabase.notMem_listCheckerTargets htick hlt

/-- The challenge is under maintenance while the second tick runs. -/
def underMaintenance : PlayDatabase := PlayDatabase.secondTick.enterMaintenance 1 none

/-- Nothing comes between the read and the update. -/
theorem resumed_defers_next :
    let m := (Machine.boot { db := underMaintenance }).run resumeSem ResumeRequest.handler
      [.arrive (.setChallengeMaintenance 1 false 0), .step 0 none, .step 0 none]
    ∃ r ∈ m.shared.resumed, r.db.gameTicks.ticks ≠ [] ∧ r.overtaken = false ∧ r.Defers := by
  intro m
  have hr : ⟨.challenge 1, underMaintenance.resume (.challenge 1) (some 3), false⟩ ∈
    m.shared.resumed := List.mem_singleton.mpr rfl
  exact ⟨_, hr, by decide, rfl, (resumed_defers_iff _ _ _ hr).1.mpr rfl⟩

/-- The third tick starts between the read and the update: the challenge is to play from tick 3,
which is in progress, and the checker has it among its targets. -/
theorem resumed_joins_running_tick :
    let m := (Machine.boot { db := underMaintenance }).run resumeSem ResumeRequest.handler
      [.arrive (.setChallengeMaintenance 1 false 0), .step 0 none,
        .arrive (.completeTick { id := 2, status := .completed }), .step 1 none,
        .arrive (.startNextTick 0), .step 2 none, .step 0 none]
    ∃ r ∈ m.shared.resumed, r.target = .challenge 1 ∧ ¬r.Defers ∧
      r.db.gameTicks.newest.map (·.status) = some .running ∧
      ∃ x ∈ r.db.listCheckerTargets, x.challengeID = 1 := by
  intro m
  let db := ((underMaintenance.completeTick { id := 2, status := .completed }).startNextTick 0).1
  have hr : ⟨.challenge 1, db.resume (.challenge 1) (some 3), true⟩ ∈ m.shared.resumed :=
    List.mem_singleton.mpr rfl
  refine ⟨_, hr, rfl, fun hdefers => ?_, by decide, by decide⟩
  obtain ⟨tick, htick, hlt⟩ := hdefers (by decide)
  have htick : some 3 = some tick := htick
  obtain rfl := Option.some.inj htick
  exact absurd hlt (by decide)

end ADPlatform.APIGateway
