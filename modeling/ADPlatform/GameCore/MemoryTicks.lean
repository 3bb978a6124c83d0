import ADPlatform.GameCore.Submissions

/-! # The ticks of the in-memory store

A tick id is a position: `StartNextTick` numbers a tick by how many there are, and no call removes
or renumbers one. Only the last tick may still be running, because a new one is started behind a
tick that is not, and a completion writes a status that is not `running`. -/

namespace ADPlatform.GameCore

/-- A completion writes a status other than `running`. -/
def StoreOp.Ends : StoreOp → Prop
  | completeTick tick => tick.status ≠ .running
  | _ => True

namespace MemoryGameStore
variable {K : Type} {s t : MemoryGameStore K}

/-- The store after a run of calls, each with the choices of the language runtime. -/
def runCalls [Field K] [LinearOrder K] (M : FaustMath K) (crypto : Crypto)
    (s : MemoryGameStore K) (calls : List (Go.Runtime × StoreOp)) : MemoryGameStore K :=
  calls.foldl (fun s call => (s.exec call.1 M crypto call.2).1) s

/-- Ticks are numbered from 1 by their place, and all but the last have ended. -/
structure TicksInOrder (ticks : List GameTickStatus) : Prop where
  ids : ticks.map (·.id) = (List.range ticks.length).map fun i => (i : Int) + 1
  running : ∀ i tick, ticks[i]? = some tick → tick.status = .running → i + 1 = ticks.length

theorem TicksInOrder.nil : TicksInOrder [] := ⟨rfl, nofun⟩

/-- The list after a change that renumbers nothing and restarts no tick. -/
theorem TicksInOrder.update {ticks ticks' : List GameTickStatus} (h : TicksInOrder ticks)
    (hids : ticks'.map (·.id) = ticks.map (·.id))
    (hstatus : ∀ (i : Nat) (tick' : GameTickStatus), ticks'[i]? = some tick' →
      tick'.status = .running → ∃ tick : GameTickStatus, ticks[i]? = some tick ∧
        tick.status = .running) : TicksInOrder ticks' := by
  have hlength : ticks'.length = ticks.length := by
    simpa using congrArg List.length hids
  refine ⟨by rw [hids, hlength, h.ids], fun i tick' hi hrunning => ?_⟩
  obtain ⟨tick, htick, hrun⟩ := hstatus i tick' hi hrunning
  rw [hlength]
  exact h.running i tick htick hrun

/-- A tick that is started behind an ended one gets the next number. -/
theorem TicksInOrder.concat {ticks : List GameTickStatus} {tick : GameTickStatus}
    (h : TicksInOrder ticks) (hended : ticks.getLast?.any (·.status = .running) = false)
    (hid : tick.id = (ticks.length : Int) + 1) : TicksInOrder (ticks ++ [tick]) := by
  refine ⟨by simp [h.ids, List.range_succ, hid], fun i x hi hrunning => ?_⟩
  rw [List.length_append, List.length_singleton]
  by_cases hlt : i < ticks.length
  · rw [List.getElem?_append_left hlt] at hi
    have hlast := h.running i x hi hrunning
    have hx : ticks.getLast? = some x := by
      rw [List.getLast?_eq_getElem?, ← hlast, Nat.add_sub_cancel]
      exact hi
    simp [hx, hrunning] at hended
  · have hle := (List.getElem?_eq_some_iff.mp hi).1
    simp only [List.length_append, List.length_singleton] at hle
    omega

theorem replaceTick_running {tick : GameTickStatus} (htick : tick.status ≠ .running)
    {ticks ticks' : List GameTickStatus} (h : replaceTick tick ticks = some ticks') (i : Nat)
    (x : GameTickStatus) (hx : ticks'[i]? = some x) (hrunning : x.status = .running) :
    ∃ y, ticks[i]? = some y ∧ y.status = .running := by
  induction ticks generalizing ticks' i with
  | nil => cases h
  | cons y ticks ih =>
    unfold replaceTick at h
    split at h
    · obtain ⟨rest, hrest, rfl⟩ := Option.map_eq_some_iff.mp h
      cases i with
      | zero => exact ⟨x, hx, hrunning⟩
      | succ i => exact ih hrest i hx
    · obtain rfl := Option.some.inj h
      cases i with
      | zero =>
        obtain rfl := Option.some.inj hx
        exact absurd hrunning htick
      | succ i => exact ⟨x, hx, hrunning⟩

section calls
variable [Field K] [LinearOrder K] (rt : Go.Runtime) (M : FaustMath K) (crypto : Crypto)

theorem recompute_ticks {rows : List (ScoreRow K)}
    (h : recomputeScoreboardLocked rt M s = some (t, rows)) : t.ticks = s.ticks := by
  simp only [recomputeScoreboardLocked, Option.bind_eq_bind, Option.bind_eq_some_iff,
    Option.pure_def, Option.some.injEq, Prod.mk.injEq] at h
  obtain ⟨_, _, _, _, _, _, _, _, rfl, rfl⟩ := h
  rfl

/-- What one call does to the ticks. -/
theorem exec_ticksInOrder (op : StoreOp) (hop : op.Ends) (h : TicksInOrder s.ticks) :
    TicksInOrder (s.exec rt M crypto op).1.ticks := by
  cases op with
  | startNextTick now =>
    simp only [exec, startNextTick]
    split
    · exact h
    · exact h.concat (Bool.eq_false_of_not_eq_true ‹_›) rfl
  | completeTick tick =>
    simp only [exec, completeTick]
    split
    · rename_i ticks hticks
      exact h.update (replaceTick_ids hticks) (replaceTick_running hop hticks)
    · exact h
  | reapRunningTicks now =>
    simp only [exec, reapRunningTicks]
    refine h.update ?_ fun i x hx hrunning => ?_
    · rw [List.map_map]
      refine List.map_congr_left fun tick _ => ?_
      simp only [Function.comp_apply, reapTick]
      split <;> rfl
    · -- a reaped tick has failed
      rw [List.getElem?_map] at hx
      obtain ⟨y, -, rfl⟩ := Option.map_eq_some_iff.mp hx
      unfold reapTick at hrunning
      split at hrunning
      · exact absurd hrunning ‹_›
      · cases hrunning
  | recordCheckerRun run =>
    simp only [exec, recordCheckerRun, refreshMemoryServiceState]
    split <;> exact h
  | acceptFlagSubmission submission =>
    simp only [exec, acceptFlagSubmission]
    split
    · exact h
    split
    · exact h
    split
    · rw [recompute_ticks rt M ‹_›]
      exact h
    · exact h
  | recomputeScoreboard =>
    simp only [exec, recomputeScoreboard]
    split
    · rw [recompute_ticks rt M ‹_›]
      exact h
    · exact h
  | startMatch now | pauseMatch | resumeMatch | stopMatch now =>
    simp only [exec, startMatch, pauseMatch, resumeMatch, stopMatch]
    split <;> exact h
  | setChallengeMaintenance challengeID maintenance | setChallengePlayFromTick challengeID tick =>
    simp only [exec, setChallengeMaintenance, setChallengePlayFromTick]
    split <;> exact h
  | matchStatus | gameStatus | listCheckerTargets | isChallengeInMaintenance | lookupTeamName
  | issueFlag | lookupIssuedFlag | updateMatchSchedule => exact h

theorem runCalls_ticksInOrder {calls : List (Go.Runtime × StoreOp)}
    (hcalls : ∀ call ∈ calls, call.2.Ends) (h : TicksInOrder s.ticks) :
    TicksInOrder (s.runCalls M crypto calls).ticks := by
  induction calls generalizing s with
  | nil => exact h
  | cons call calls ih =>
    exact ih (fun c hc => hcalls c (.tail _ hc))
      (exec_ticksInOrder call.1 M crypto call.2 (hcalls call (.head _)) h)

end calls

/-- In every run of calls on a fresh store, in any order, in which completions write a status
other than `running`: the ids of the ticks are 1, 2, … without gaps or repeats, and a running tick
is the last one. -/
theorem ticks_in_order [Field K] [LinearOrder K] (M : FaustMath K) (crypto : Crypto)
    (targets : List CheckerTarget) (teamNames : Go.Map Int String)
    (challenges : Go.Map Int MemoryChallenge) (calls : List (Go.Runtime × StoreOp))
    (hcalls : ∀ call ∈ calls, call.2.Ends) :
    let ticks :=
      ((new targets teamNames challenges : MemoryGameStore K).runCalls M crypto calls).ticks
    ticks.map (·.id) = (List.range ticks.length).map (fun i => (i : Int) + 1) ∧
      ∀ i tick, ticks[i]? = some tick → tick.status = .running → i + 1 = ticks.length :=
  let h := runCalls_ticksInOrder M crypto hcalls (s := new targets teamNames challenges) .nil
  ⟨h.ids, h.running⟩

/-- A tick is reaped, the next one is started, and then the first one's completion arrives. -/
def lateCompletion : List (Go.Runtime × StoreOp) :=
  [(.inOrder, .startNextTick 0), (.inOrder, .reapRunningTicks 1), (.inOrder, .startNextTick 2),
    (.inOrder, .completeTick { id := 1, status := .completed })]

theorem ticks_in_order_lateCompletion :
    let ticks := ((new [] ∅ ∅ : MemoryGameStore ℚ).runCalls squareMath
      ⟨fun _ _ => [], fun _ => []⟩ lateCompletion).ticks
    ticks.map (·.status) = [.completed, .running] ∧
      ticks.map (·.id) = (List.range ticks.length).map (fun i => (i : Int) + 1) ∧
      ∀ i tick, ticks[i]? = some tick → tick.status = .running → i + 1 = ticks.length := by
  refine ⟨by decide, ticks_in_order squareMath _ [] ∅ ∅ lateCompletion ?_⟩
  simp [lateCompletion, StoreOp.Ends]

end MemoryGameStore

end ADPlatform.GameCore
