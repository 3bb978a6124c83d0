import ADPlatform.GameCore.ServerRules

/-! # What the in-memory store holds about accepted submissions

`Sound` is the invariant of the in-memory store under the server: ticks are numbered from 1, every
stored flag was issued for the tick it is valid in, every accepted submission is of a stored flag
of another team and of the tick it was made in, and the attack feed shows each of them once. It
holds after every schedule of ticks, submissions and match transitions. -/

namespace ADPlatform.GameCore
open Concurrent ServerProc Server

/-- The calls that start no tick, store no flag and accept no submission. -/
def StoreOp.Quiet : StoreOp → Prop
  | startNextTick _ | issueFlag _ | acceptFlagSubmission _ => False
  | _ => True

namespace MemoryGameStore
variable {K : Type} {crypto : Crypto} {s t u : MemoryGameStore K}

/-- What holds of a stored flag. -/
structure SoundFlag (crypto : Crypto) (ticks : Nat) (key : String)
    (f : IssuedFlagRecord) : Prop where
  key : key = f.flag
  expires : f.expiresTick = f.issuedTick
  issued : 1 ≤ f.issuedTick ∧ f.issuedTick ≤ ticks
  text : ∃ codec : FlagCodec, f.flag = codec.issue crypto.hmac f.ownerTeamID f.challengeID
    f.issuedTick f.expiresTick

/-- What holds of an accepted submission. -/
structure SoundSubmission (flags : Go.Map String IssuedFlagRecord) (key : String)
    (x : AcceptedFlagSubmission) : Prop where
  key : key = acceptedSubmissionKey x.flag x.submittingTeam
  flag : ∃ f, flags.lookup x.flag = some f ∧ f.ownerTeamID ≠ x.submittingTeam ∧
    x.submissionTick = f.issuedTick

/-- The invariant of the store: ticks are numbered from 1, what is stored under a key belongs to it,
and the feed has an event for every accepted submission. -/
structure Sound (crypto : Crypto) (s : MemoryGameStore K) : Prop where
  ticks : s.ticks.map (·.id) = (List.range s.ticks.length).map fun (i : Nat) => (i : Int) + 1
  flags : ∀ key f, s.flags.lookup key = some f → SoundFlag crypto s.ticks.length key f
  accepted : ∀ key x, s.accepted.lookup key = some x → SoundSubmission s.flags key x
  feed : s.attackFeed.Perm (s.accepted.pairs.map fun (x : String × AcceptedFlagSubmission) =>
    attackEvent crypto x.2)

/-- Two records of one flag. -/
def SameFlag (f f' : IssuedFlagRecord) : Prop :=
  f'.ownerTeamID = f.ownerTeamID ∧ f'.challengeID = f.challengeID ∧
    f'.issuedTick = f.issuedTick ∧ f'.expiresTick = f.expiresTick

theorem SameFlag.trans {f f' f'' : IssuedFlagRecord} (h : SameFlag f f') (h' : SameFlag f' f'') :
    SameFlag f f'' := by
  obtain ⟨h₁, h₂, h₃, h₄⟩ := h
  obtain ⟨h₁', h₂', h₃', h₄'⟩ := h'
  exact ⟨h₁'.trans h₁, h₂'.trans h₂, h₃'.trans h₃, h₄'.trans h₄⟩

/-- What no step takes back. -/
structure Grows (s t : MemoryGameStore K) : Prop where
  ticks : s.ticks.length ≤ t.ticks.length
  flags : ∀ key f, s.flags.lookup key = some f →
    ∃ f', t.flags.lookup key = some f' ∧ SameFlag f f'
  accepted : ∀ key x, s.accepted.lookup key = some x → t.accepted.lookup key = some x

theorem Grows.refl (s : MemoryGameStore K) : Grows s s :=
  ⟨le_rfl, fun _ f h => ⟨f, h, rfl, rfl, rfl, rfl⟩, fun _ _ h => h⟩

theorem Grows.trans (h : Grows s t) (h' : Grows t u) : Grows s u := by
  refine ⟨h.ticks.trans h'.ticks, fun key f hf => ?_, fun key x hx =>
    h'.accepted _ _ (h.accepted _ _ hx)⟩
  obtain ⟨f', hf', hsame⟩ := h.flags key f hf
  obtain ⟨f'', hf'', hsame'⟩ := h'.flags key f' hf'
  exact ⟨f'', hf'', hsame.trans hsame'⟩

/-- A new submission is accepted only while the match is running. -/
def AcceptsRunning (s t : MemoryGameStore K) : Prop :=
  ∀ key, s.accepted.lookup key = none → t.accepted.lookup key ≠ none →
    s.matchStatus.state = .running

/-- A step that leaves ticks, flags and submissions alone. -/
structure Framed (s t : MemoryGameStore K) : Prop where
  ticks : t.ticks.map (·.id) = s.ticks.map (·.id)
  flags : t.flags = s.flags
  accepted : t.accepted = s.accepted
  feed : t.attackFeed = s.attackFeed

theorem Framed.refl (s : MemoryGameStore K) : Framed s s := ⟨rfl, rfl, rfl, rfl⟩

theorem Framed.length (h : Framed s t) : t.ticks.length = s.ticks.length := by
  simpa using congrArg List.length h.ticks

theorem Framed.sound (h : Framed s t) (hs : Sound crypto s) : Sound crypto t := by
  refine ⟨?_, ?_, ?_, ?_⟩
  · rw [h.ticks, hs.ticks, h.length]
  · rw [h.flags, h.length]
    exact hs.flags
  · intro key x hx
    rw [h.accepted] at hx
    obtain ⟨hkey, hflag⟩ := hs.accepted key x hx
    exact ⟨hkey, by rw [h.flags]; exact hflag⟩
  · rw [h.feed, h.accepted]
    exact hs.feed

theorem Framed.grows (h : Framed s t) : Grows s t := by
  refine ⟨h.length.ge, fun key f hf => ?_, fun key x hx => ?_⟩
  · exact ⟨f, by rw [h.flags]; exact hf, rfl, rfl, rfl, rfl⟩
  · rw [h.accepted]
    exact hx

theorem Framed.acceptsRunning (h : Framed s t) : AcceptsRunning s t := by
  intro key hnone hsome
  rw [h.accepted] at hsome
  exact absurd hnone hsome

/-! ## The calls of the store -/

section calls
variable [Field K] [LinearOrder K] (rt : Go.Runtime) (M : FaustMath K)

theorem recompute_framed {rows : List (ScoreRow K)}
    (h : recomputeScoreboardLocked rt M s = some (t, rows)) : Framed s t := by
  simp only [recomputeScoreboardLocked, Option.bind_eq_bind, Option.bind_eq_some_iff,
    Option.pure_def, Option.some.injEq, Prod.mk.injEq] at h
  obtain ⟨_, _, _, _, _, _, _, _, rfl, rfl⟩ := h
  exact ⟨rfl, rfl, rfl, rfl⟩

theorem replaceTick_ids {tick : GameTickStatus} {ticks ticks' : List GameTickStatus}
    (h : replaceTick tick ticks = some ticks') : ticks'.map (·.id) = ticks.map (·.id) := by
  induction ticks generalizing ticks' with
  | nil => cases h
  | cons x ticks ih =>
    unfold replaceTick at h
    split at h
    · obtain ⟨rest, hrest, rfl⟩ := Option.map_eq_some_iff.mp h
      rw [List.map_cons, List.map_cons, ih hrest]
    · rename_i hid
      obtain rfl := Option.some.inj h
      rw [List.map_cons, List.map_cons, not_not.mp hid]

/-- Every call but three leaves ticks, flags and submissions alone. -/
theorem exec_framed (op : StoreOp) (hop : op.Quiet) : Framed s (s.exec rt M crypto op).1 := by
  cases op with
  | startNextTick | issueFlag | acceptFlagSubmission => exact hop.elim
  | completeTick tick =>
    simp only [exec, completeTick]
    split
    · rename_i ticks hticks
      exact ⟨replaceTick_ids hticks, rfl, rfl, rfl⟩
    · exact .refl s
  | reapRunningTicks now =>
    refine ⟨?_, rfl, rfl, rfl⟩
    simp only [exec, reapRunningTicks, List.map_map]
    refine List.map_congr_left fun tick _ => ?_
    simp only [Function.comp_apply, reapTick]
    split <;> rfl
  | recordCheckerRun run =>
    simp only [exec, recordCheckerRun, refreshMemoryServiceState]
    split <;> exact ⟨rfl, rfl, rfl, rfl⟩
  | recomputeScoreboard =>
    simp only [exec, recomputeScoreboard]
    split
    · exact recompute_framed rt M ‹_›
    · exact .refl s
  | startMatch now =>
    simp only [exec, startMatch]
    split <;> exact ⟨rfl, rfl, rfl, rfl⟩
  | pauseMatch =>
    simp only [exec, pauseMatch]
    split <;> exact ⟨rfl, rfl, rfl, rfl⟩
  | resumeMatch =>
    simp only [exec, resumeMatch]
    split <;> exact ⟨rfl, rfl, rfl, rfl⟩
  | stopMatch now =>
    simp only [exec, stopMatch]
    split <;> exact ⟨rfl, rfl, rfl, rfl⟩
  | setChallengeMaintenance challengeID maintenance =>
    simp only [exec, setChallengeMaintenance]
    split <;> exact ⟨rfl, rfl, rfl, rfl⟩
  | setChallengePlayFromTick challengeID tick =>
    simp only [exec, setChallengePlayFromTick]
    split <;> exact ⟨rfl, rfl, rfl, rfl⟩
  | matchStatus | gameStatus | listCheckerTargets | isChallengeInMaintenance | lookupTeamName
  | lookupIssuedFlag | updateMatchSchedule => exact ⟨rfl, rfl, rfl, rfl⟩

end calls

theorem currentTick_eq (hs : Sound crypto s) : s.currentTick = s.ticks.length := by
  have hlast := congrArg List.getLast? hs.ticks
  rw [List.getLast?_map, List.getLast?_map, List.getLast?_range] at hlast
  rw [currentTick, hlast]
  split
  · simp_all
  · simp only [Option.map_some, Option.getD_some]
    omega

/-- A started tick is the last one. -/
theorem startNextTick_sound (hs : Sound crypto s) (now : Time) :
    Sound crypto (s.startNextTick now).1 ∧ Grows s (s.startNextTick now).1 ∧
      AcceptsRunning s (s.startNextTick now).1 ∧
      ∀ tick, (s.startNextTick now).2 = .ok tick →
        1 ≤ tick.id ∧ tick.id ≤ (s.startNextTick now).1.ticks.length := by
  unfold startNextTick
  split
  · exact ⟨hs, .refl s, (Framed.refl s).acceptsRunning, nofun⟩
  · dsimp only
    refine ⟨⟨?_, ?_, hs.accepted, hs.feed⟩, ⟨?_, ?_, fun _ _ h => h⟩, fun _ h h' => absurd h h', ?_⟩
    · simp only [List.map_append, List.map_cons, List.map_nil, hs.ticks, List.length_append,
        List.length_singleton, List.range_succ]
    · intro key f hf
      obtain ⟨hkey, hexp, hissued, htext⟩ := hs.flags key f hf
      refine ⟨hkey, hexp, ⟨hissued.1, hissued.2.trans ?_⟩, htext⟩
      simp
    · simp
    · exact (Grows.refl s).flags
    · intro tick htick
      obtain rfl := Except.ok.inj htick
      simp only [List.length_append, List.length_singleton, Nat.cast_add, Nat.cast_one]
      omega

/-- A flag that was issued for a tick that has started may be stored. -/
theorem issueFlag_sound (hs : Sound crypto s) {f : IssuedFlagRecord}
    (hf : SoundFlag crypto s.ticks.length f.flag f) :
    Sound crypto (s.issueFlag f) ∧ Grows s (s.issueFlag f) ∧ AcceptsRunning s (s.issueFlag f) := by
  -- a flag that is stored again is a record of the same flag, since its text says what it is
  have hsame : ∀ g, s.flags.lookup f.flag = some g → SameFlag g f := by
    intro g hg
    obtain ⟨hkey, -, -, codec, htext⟩ := hs.flags _ g hg
    obtain ⟨codec', htext'⟩ := hf.text
    obtain ⟨h₁, h₂, h₃, h₄⟩ := FlagCodec.issue_inj (htext'.symm.trans (hkey.trans htext))
    exact ⟨h₁, h₂, h₃, h₄⟩
  have hgrows : ∀ key g, s.flags.lookup key = some g →
      ∃ g', (s.flags.insert f.flag f).lookup key = some g' ∧ SameFlag g g' := by
    intro key g hg
    by_cases hkey : key = f.flag
    · subst hkey
      exact ⟨f, AList.lookup_insert _, hsame g hg⟩
    · exact ⟨g, (AList.lookup_insert_ne hkey).trans hg, rfl, rfl, rfl, rfl⟩
  refine ⟨⟨hs.ticks, fun key g hg => ?_, fun key x hx => ?_, hs.feed⟩,
    ⟨le_rfl, hgrows, fun _ _ h => h⟩, fun _ h h' => absurd h h'⟩
  · by_cases hkey : key = f.flag
    · subst hkey
      obtain rfl : f = g := Option.some.inj ((AList.lookup_insert _).symm.trans hg)
      exact hf
    · exact hs.flags key g ((AList.lookup_insert_ne hkey).symm.trans hg)
  · obtain ⟨hkey, g, hg, howner, htick⟩ := hs.accepted key x hx
    obtain ⟨g', hg', h₁, -, h₃, -⟩ := hgrows _ g hg
    exact ⟨hkey, g', hg', h₁ ▸ howner, htick.trans h₃.symm⟩

/-- The store right after an insertion, before its recompute. -/
theorem inserted_sound (hs : Sound crypto s) {x : AcceptedFlagSubmission} {f : IssuedFlagRecord}
    (hf : s.flags.lookup x.flag = some f) (howner : f.ownerTeamID ≠ x.submittingTeam)
    (htick : x.submissionTick = f.issuedTick)
    (hnew : s.accepted.lookup (acceptedSubmissionKey x.flag x.submittingTeam) = none)
    (hrunning : s.matchStatus.state = .running) {t : MemoryGameStore K}
    (ht : t = { s with
      accepted := s.accepted.insert (acceptedSubmissionKey x.flag x.submittingTeam) x
      attackFeed := attackEvent crypto x :: s.attackFeed }) :
    Sound crypto t ∧ Grows s t ∧ AcceptsRunning s t := by
  subst ht
  refine ⟨⟨hs.ticks, hs.flags, fun key y hy => ?_, ?_⟩,
    ⟨le_rfl, (Grows.refl s).flags, fun key y hy => ?_⟩, fun _ _ _ => hrunning⟩
  · by_cases hkey : key = acceptedSubmissionKey x.flag x.submittingTeam
    · subst hkey
      obtain rfl : x = y := Option.some.inj ((AList.lookup_insert _).symm.trans hy)
      exact ⟨rfl, f, hf, howner, htick⟩
    · exact hs.accepted key y ((AList.lookup_insert_ne hkey).symm.trans hy)
  · rw [Go.Map.pairs_insert hnew, List.map_cons]
    exact hs.feed.cons _
  · refine (AList.lookup_insert_ne fun hkey => ?_).trans hy
    rw [hkey, hnew] at hy
    cases hy

/-- Behind the claims of a stored flag of another team, a submission is accepted soundly. -/
theorem acceptFlagSubmission_sound [Field K] [LinearOrder K] (rt : Go.Runtime) (M : FaustMath K)
    (hs : Sound crypto s) {x : AcceptedFlagSubmission} {f : IssuedFlagRecord}
    (hf : s.flags.lookup x.flag = some f) (howner : f.ownerTeamID ≠ x.submittingTeam)
    (hexpires : x.expiresTick = f.expiresTick) :
    Sound crypto (s.acceptFlagSubmission rt M crypto x).1 ∧
      Grows s (s.acceptFlagSubmission rt M crypto x).1 ∧
      AcceptsRunning s (s.acceptFlagSubmission rt M crypto x).1 := by
  have hsame : Sound crypto s ∧ Grows s s ∧ AcceptsRunning s s :=
    ⟨hs, .refl s, (Framed.refl s).acceptsRunning⟩
  unfold acceptFlagSubmission
  split
  · exact hsame
  rename_i hnow
  simp only [acceptsNow, Bool.not_eq_true', Bool.not_eq_false, Bool.and_eq_true,
    decide_eq_true_eq] at hnow
  obtain ⟨⟨⟨⟨hrunning, -⟩, -⟩, hlast⟩, -⟩ := hnow
  -- the last tick is at most the flag's, which has started
  have htick : s.currentTick = f.issuedTick := by
    obtain ⟨-, hexp, hissued, -⟩ := hs.flags _ f hf
    have hcurrent := currentTick_eq hs
    omega
  dsimp only
  split
  · exact hsame
  rename_i hnew
  have hnew : s.accepted.lookup (acceptedSubmissionKey x.flag x.submittingTeam) = none := by
    simpa using hnew
  have hinserted := inserted_sound hs (x := { x with submissionTick := s.currentTick }) hf howner
    htick hnew hrunning rfl
  split
  · rename_i s' rows hrecompute
    have hframe := recompute_framed rt M hrecompute
    refine ⟨hframe.sound hinserted.1, hinserted.2.1.trans hframe.grows, fun key hnone hsome => ?_⟩
    rw [hframe.accepted] at hsome
    exact hinserted.2.2 key hnone hsome
  · exact hinserted

end MemoryGameStore

/-! ## The server over the in-memory store -/

section server
open MemoryGameStore
variable {K : Type} [Field K] [LinearOrder K] (M : FaustMath K) (crypto : Crypto)

/-- The in-memory store never looks at the context of a call. -/
def memorySem : StoreSem (MemoryGameStore K) Go.Runtime := fun rt _ s op => s.exec rt M crypto op

/-- The contract of fair play: the store stays sound, nothing is lost, and flags are accepted only
while the match runs. -/
def fairPlay : Contract (ServerShared (MemoryGameStore K)) (ServerInput Go.Runtime) ServerOp
    ServerOp.Res where
  sem := serverSem (memorySem M crypto)
  inv s := Sound crypto s.store
  guar s t := Grows s.store t.store ∧ AcceptsRunning s.store t.store
  rely s t := Grows s.store t.store
  guar_refl _ := ⟨.refl _, (Framed.refl _).acceptsRunning⟩
  rely_refl _ := .refl _
  rely_trans := Grows.trans
  guar_rely h := h.1

variable {M crypto} {s : ServerShared (MemoryGameStore K)}

theorem fairPlay_keeps (op : ServerOp) (hop : ∀ ctx o, op = .store ctx o → o.Quiet) :
    (fairPlay M crypto).Keeps op := by
  intro input s t r hs _ hsem
  have hframed : Framed s.store t.store := by
    by_cases hstore : ∃ ctx o, op = .store ctx o
    · obtain ⟨ctx, o, rfl⟩ := hstore
      cases hsem
      exact exec_framed _ M o (hop ctx o rfl)
    · have hsem : serverSem (memorySem M crypto) input op s = some (t, r) := hsem
      rw [(frame_of_serverSem (fun ctx o h => hstore ⟨ctx, o, h⟩) hsem).1]
      exact .refl _
  exact ⟨hframed.sound hs, hframed.grows, hframed.acceptsRunning⟩

/-- The store holds a record of the flag. -/
def Stored (key : String) (f : IssuedFlagRecord) (s : ServerShared (MemoryGameStore K)) : Prop :=
  ∃ f', s.store.flags.lookup key = some f' ∧ SameFlag f f'

theorem lookupIssuedFlag_meets {ctx : Nat} {flag : String} :
    (fairPlay M crypto).Meets (Proc.perform (.store ctx (.lookupIssuedFlag flag))) s
      fun (r : Except StoreError IssuedFlagRecord) t => ∀ f, r = .ok f → Stored flag f t := by
  refine .perform fun s' input t r _ hs' _ hsem => ?_
  cases hsem
  refine ⟨hs', (fairPlay M crypto).guar_refl s', fun f hf => ⟨f, ?_, rfl, rfl, rfl, rfl⟩⟩
  change lookupIssuedFlag s'.store flag = .ok f at hf
  change s'.store.flags.lookup flag = some f
  unfold lookupIssuedFlag at hf
  split at hf
  · rename_i record hrecord
    rw [hrecord, Except.ok.inj hf]
  · cases hf

theorem acceptFlagSubmission_fine {ctx : Nat} {x : AcceptedFlagSubmission} {f : IssuedFlagRecord}
    (h : Stored x.flag f s) (howner : f.ownerTeamID ≠ x.submittingTeam)
    (hexpires : x.expiresTick = f.expiresTick) :
    (fairPlay M crypto).Fine (Proc.perform (.store ctx (.acceptFlagSubmission x))) s := by
  refine Contract.Meets.perform fun s' input t r hr hs' _ hsem => ?_
  cases hsem
  obtain ⟨f', hf', h₁, -, -, h₄⟩ := h
  obtain ⟨f'', hf'', h₁', -, -, h₄'⟩ := hr.flags _ f' hf'
  obtain ⟨hsound, hgrows, haccepts⟩ := acceptFlagSubmission_sound input.store M hs' hf''
    (h₁'.trans h₁ ▸ howner) (hexpires.trans (h₄'.trans h₄).symm)
  exact ⟨hsound, ⟨hgrows, haccepts⟩, trivial⟩

theorem fairPlay_rules : ServerRules (fairPlay (K := K) M crypto) crypto.hmac
    (fun tickID s => 1 ≤ tickID ∧ tickID ≤ s.store.ticks.length) (fun _ _ => True) Stored
    (fun _ _ => True) where
  plain op hop := by
    refine fairPlay_keeps op ?_
    rintro ctx o rfl
    cases o <;> trivial
  clock s := Contract.Fine.perform (fairPlay_keeps _ (by rintro _ _ ⟨⟩))
  startNextTick ctx now s := by
    refine .perform fun s' input t r _ hs' _ hsem => ?_
    cases hsem
    obtain ⟨hsound, hgrows, haccepts, hstarted⟩ := startNextTick_sound hs' now
    exact ⟨hsound, ⟨hgrows, haccepts⟩, hstarted⟩
  completeTick ctx tick s _ _ := by
    refine Contract.Fine.perform (fairPlay_keeps _ ?_)
    rintro _ _ ⟨⟩
    trivial
  issueFlag ctx tickID codec target createdAt s hstarted := by
    refine Contract.Meets.perform fun s' input t r hr hs' _ hsem => ?_
    cases hsem
    have hticks : tickID ≤ s'.store.ticks.length := hstarted.2.trans (mod_cast hr.ticks)
    obtain ⟨hsound, hgrows, haccepts⟩ := issueFlag_sound hs' (f := issuedFlag tickID target
      (codec.issue crypto.hmac target.teamID target.challengeID tickID tickID) createdAt)
      ⟨rfl, rfl, ⟨hstarted.1, hticks⟩, codec, rfl⟩
    exact ⟨hsound, ⟨hgrows, haccepts⟩, trivial⟩
  tickReturned tickID s _ := .perform (fairPlay_keeps _ nofun)
  started_rely hr h := ⟨h.1, h.2.trans (mod_cast hr.ticks)⟩
  closed_rely _ h := h
  lookupIssuedFlag ctx flag s := lookupIssuedFlag_meets
  acceptFlagSubmission ctx x f s hstored howner hexpires _ :=
    acceptFlagSubmission_fine hstored howner hexpires
  stored_rely := by
    rintro key f s t hr ⟨f', hf', hsame⟩
    obtain ⟨f'', hf'', hsame'⟩ := hr.flags key f' hf'
    exact ⟨f'', hf'', hsame.trans hsame'⟩

/-! ### Every schedule -/

variable (M) (cfg : ServerConfig) (codec : FlagCodec) (store : MemoryGameStore K)

/-- The store after a schedule. -/
def played (ls : List (Label ServerRequest (ServerInput Go.Runtime))) : MemoryGameStore K :=
  ((Machine.boot { store, codec }).run (serverSem (memorySem M cfg.crypto))
    (ServerRequest.handler cfg) ls).shared.store

variable {M cfg codec store} {ls : List (Label ServerRequest (ServerInput Go.Runtime))}

omit [Field K] [LinearOrder K] in
theorem new_sound {targets : List CheckerTarget} {teamNames : Go.Map Int String}
    {challenges : Go.Map Int MemoryChallenge} :
    Sound crypto (.new targets teamNames challenges : MemoryGameStore K) :=
  ⟨rfl, nofun, nofun, .refl _⟩

theorem fairPlay_handles :
    (fairPlay (K := K) M cfg.crypto).Handles (ServerRequest.handler cfg) :=
  fairPlay_rules.handles rfl

theorem fairPlay_allowed {m : Machine (ServerShared (MemoryGameStore K)) ServerOp ServerOp.Res} :
    (fairPlay M cfg.crypto).RunAllowed (ServerRequest.handler cfg) m ls :=
  Contract.runAllowed_of_forall (fun _ _ _ => trivial) ls

theorem played_sound (h : Sound cfg.crypto store) :
    Sound cfg.crypto (played M cfg codec store ls) :=
  Contract.inv_run (C := fairPlay M cfg.crypto) fairPlay_handles (s := { store, codec }) h
    fairPlay_allowed

/-- An accepted submission was accepted in a step before which the match was running. -/
theorem played_accepted (h : Sound cfg.crypto store) {key : String} {x : AcceptedFlagSubmission}
    (hnew : store.accepted.lookup key = none)
    (hx : (played M cfg codec store ls).accepted.lookup key = some x) :
    ∃ ls₁ l ls₂, ls = ls₁ ++ l :: ls₂ ∧ (played M cfg codec store ls₁).accepted.lookup key = none ∧
      (played M cfg codec store (ls₁ ++ [l])).accepted.lookup key = some x ∧
      (played M cfg codec store ls₁).matchStatus.state = .running := by
  obtain ⟨ls₁, l, ls₂, rfl, hbefore, hafter⟩ := Machine.run_switch
    (P := fun s : ServerShared (MemoryGameStore K) => s.store.accepted.lookup key = some x)
    (by simp [Machine.boot, hnew]) hx
  obtain ⟨hgrows, haccepts⟩ := Contract.guar_step (C := fairPlay M cfg.crypto) fairPlay_handles
    (s := { store, codec }) h (l := l) fairPlay_allowed
  have hnone : (played M cfg codec store ls₁).accepted.lookup key = none := by
    by_contra hsome
    obtain ⟨y, hy⟩ := Option.ne_none_iff_exists'.mp hsome
    obtain rfl : y = x := Option.some.inj ((hgrows.accepted key y hy).symm.trans hafter)
    exact hbefore hy
  refine ⟨ls₁, l, ls₂, rfl, hnone, hafter, haccepts key hnone fun h => ?_⟩
  exact Option.some_ne_none x (hafter.symm.trans h)

/-- Every accepted submission of every schedule is fair: it is of a stored flag of another team,
made in the tick for which the flag was issued, and the only one of that flag by that team; it is
not of a warmup flag, it was accepted while the match was running, and the attack feed shows the
accepted submissions, each of them once. -/
theorem accepted_submissions_fair (M : FaustMath K) (cfg : ServerConfig) (codec : FlagCodec)
    (targets : List CheckerTarget) (teamNames : Go.Map Int String)
    (challenges : Go.Map Int MemoryChallenge)
    (ls : List (Label ServerRequest (ServerInput Go.Runtime))) :
    let store := played M cfg codec (.new targets teamNames challenges)
    (∀ key x, (store ls).accepted.lookup key = some x →
      (∃ f, (store ls).flags.lookup x.flag = some f ∧ f.flag = x.flag ∧
        f.ownerTeamID ≠ x.submittingTeam ∧ x.submissionTick = f.issuedTick ∧
        1 ≤ x.submissionTick) ∧
      (∀ key' y, (store ls).accepted.lookup key' = some y → y.flag = x.flag →
        y.submittingTeam = x.submittingTeam → key' = key ∧ y = x) ∧
      (∀ (codec' : FlagCodec) (owner challenge : Int),
        x.flag ≠ codec'.issue cfg.crypto.hmac owner challenge 0 0) ∧
      ∃ ls₁ l ls₂, ls = ls₁ ++ l :: ls₂ ∧ (store ls₁).accepted.lookup key = none ∧
        (store (ls₁ ++ [l])).accepted.lookup key = some x ∧
        (store ls₁).matchStatus.state = .running) ∧
    (store ls).attackFeed.Perm ((store ls).accepted.pairs.map fun
      (x : String × AcceptedFlagSubmission) => attackEvent cfg.crypto x.2) := by
  intro store
  have hsound : Sound cfg.crypto (store ls) := played_sound new_sound
  refine ⟨fun key x hx => ?_, hsound.feed⟩
  obtain ⟨hkey, f, hf, howner, htick⟩ := hsound.accepted key x hx
  obtain ⟨hflag, hexpires, hissued, flagCodec, htext⟩ := hsound.flags _ f hf
  refine ⟨⟨f, hf, hflag.symm, howner, htick, htick ▸ hissued.1⟩, fun key' y hy hyflag hyteam => ?_,
    fun codec' owner challenge hwarmup => ?_, played_accepted new_sound rfl hx⟩
  · have hkeys : key' = key := by rw [(hsound.accepted key' y hy).key, hkey, hyflag, hyteam]
    subst hkeys
    exact ⟨rfl, Option.some.inj (hy.symm.trans hx)⟩
  · -- the text of a flag says its tick
    obtain ⟨-, -, hzero, -⟩ := FlagCodec.issue_inj (htext.symm.trans (hflag.symm.trans hwarmup))
    omega

end server

end ADPlatform.GameCore
