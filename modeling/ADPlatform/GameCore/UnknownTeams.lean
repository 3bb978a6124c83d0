import ADPlatform.APIGateway.Types
import ADPlatform.GameCore.MemoryScoreboard
import ADPlatform.GameCore.Submissions

/-! # Submissions of teams that the store does not know

`submitFlags` makes up a name when `LookupTeamName` fails and goes on. A recompute looks up the
score of every team with an accepted submission, so one stored submission of an unknown team makes
it dereference a missing entry, then and ever after. Flags and service states are no danger: they
come from the targets of the store, whose teams and challenges it knows. -/

namespace ADPlatform.GameCore
open Concurrent ServerProc Server

/-- The calls that neither store a flag nor refresh a service state. -/
def StoreOp.Neutral : StoreOp → Prop
  | recordCheckerRun _ | issueFlag _ => False
  | _ => True

/-! ## A recompute over an unknown team -/

section foldlM
variable {α β : Type} {f : β → α → Option β} {P : β → Prop}

/-- A fold fails when one of its elements fails wherever the others lead. -/
theorem foldlM_eq_none {l : List α} {a : α} {b : β} (ha : a ∈ l) (hb : P b)
    (hkeep : ∀ x ∈ l, ∀ b b', P b → f b x = some b' → P b') (hfail : ∀ b, P b → f b a = none) :
    l.foldlM f b = none := by
  induction l generalizing b with
  | nil => cases ha
  | cons x l ih =>
    rw [List.foldlM_cons]
    cases hx : f b x with
    | none => rfl
    | some b' =>
      rcases List.mem_cons.mp ha with rfl | ha
      · rw [hfail b hb] at hx
        cases hx
      · exact ih ha (hkeep x (.head _) b b' hb hx) fun y hy => hkeep y (.tail _ hy)

/-- What every step of a fold keeps holds at its end. -/
theorem foldlM_keeps {l : List α} {b b' : β} (hb : P b) (h : l.foldlM f b = some b')
    (hkeep : ∀ x ∈ l, ∀ b b', P b → f b x = some b' → P b') : P b' := by
  induction l generalizing b with
  | nil =>
    cases h
    exact hb
  | cons x l ih =>
    rw [List.foldlM_cons] at h
    obtain ⟨b₁, hx, h⟩ := Option.bind_eq_some_iff.mp h
    exact ih (hkeep x (.head _) b b₁ hb hx) h fun y hy => hkeep y (.tail _ hy)

end foldlM

namespace Scores
variable {K : Type} {scores scores' : Scores K} {onTeam : TeamScore K → TeamScore K}
  {onService : ServiceScoreBreakdown K → ServiceScoreBreakdown K} {team other challenge : Int}

theorem credit_unknown (h : scores.lookup team = none) :
    credit onTeam onService team challenge scores = none := by
  simp [credit, h]

/-- Crediting a team adds no other. -/
theorem credit_keeps_unknown (h : scores.lookup other = none)
    (hcredit : credit onTeam onService team challenge scores = some scores') :
    scores'.lookup other = none := by
  simp only [credit, Option.bind_eq_bind, Option.bind_eq_some_iff, Option.pure_def,
    Option.some.injEq] at hcredit
  obtain ⟨score, hscore, service, -, rfl⟩ := hcredit
  refine (AList.lookup_insert_ne ?_).trans h
  rintro rfl
  rw [h] at hscore
  cases hscore

end Scores

namespace MemoryGameStore
variable {K : Type} [Field K] [LinearOrder K] {s t : MemoryGameStore K} {rt : Go.Runtime}
  {M : FaustMath K} {crypto : Crypto}

omit [LinearOrder K] in
theorem scoreCaptures_unknown {group : String × List AcceptedFlagSubmission}
    {x : AcceptedFlagSubmission} (hx : x ∈ group.2) {scores : Scores K}
    (h : scores.lookup x.submittingTeam = none) :
    scoreCaptures rt s.flags scores group = none := by
  refine foldlM_eq_none (P := fun scores => scores.lookup x.submittingTeam = none)
    ((rt.sortSlice_perm _ _).mem_iff.mpr hx) h ?_ fun scores h => Scores.credit_unknown h
  exact fun y _ scores scores' h hadd => Scores.credit_keeps_unknown h hadd

/-- A recompute fails on an accepted submission of an unknown team. -/
theorem recompute_unknown {key : String} {x : AcceptedFlagSubmission}
    (hx : s.accepted.lookup key = some x) (hteam : x.submittingTeam ∉ s.teamNames.keys) :
    recomputeScoreboardLocked rt M s = none := by
  have hvisited : x ∈ visited rt s := List.mem_map.mpr
    ⟨(key, x), (rt.range_perm 2 _).mem_iff.mpr (Go.Map.mem_pairs.mpr hx), rfl⟩
  have hgroup : (x.flag, (visited rt s).filter (·.flag = x.flag)) ∈
      rt.range 3 (acceptedByFlag (visited rt s)).pairs := by
    refine (rt.range_perm 3 _).mem_iff.mpr ((pairs_acceptedByFlag _).mem_iff.mpr ?_)
    exact List.mem_map.mpr
      ⟨x.flag, List.mem_dedup.mpr (List.mem_map_of_mem hvisited), rfl⟩
  have hnone := (books_nil (K := K) rt s).unknown x.submittingTeam
    (by rwa [Go.Map.mem_keys, Option.not_isSome_iff_eq_none] at hteam)
  have hkeep : ∀ group ∈ rt.range 3 (acceptedByFlag (visited rt s)).pairs, ∀ scores scores',
      scores.lookup x.submittingTeam = none →
      scoreCaptures (K := K) rt s.flags scores group = some scores' →
      scores'.lookup x.submittingTeam = none := by
    intro group _ scores scores' h hcaptures
    exact foldlM_keeps (P := fun scores => scores.lookup x.submittingTeam = none) h hcaptures
      fun y _ scores scores' h hadd => Scores.credit_keeps_unknown h hadd
  have hattack :=
    foldlM_eq_none (P := fun scores => scores.lookup x.submittingTeam = none) hgroup hnone
    hkeep fun scores h => scoreCaptures_unknown (List.mem_filter.mpr ⟨hvisited, by simp⟩) h
  rw [visited] at hattack
  simp only [recomputeScoreboardLocked, hattack, Option.bind_eq_bind, Option.bind_none]

/-! ## The store that the server starts with -/

/-- The teams of `newMemoryGameStore`. -/
def newTeams : List (Int × String) :=
  [(101, "Team Alpha"), (102, "Team Delta"), (103, "Team Sigma"), (104, "Team Orchid")]

/-- The challenges of `newMemoryGameStore`, with their checker images. -/
def newChallenges : List (Int × MemoryChallenge × String) :=
  [(1, "banking", "registry.local/banking-checker:latest"),
    (2, "chat", "registry.local/chat-checker:latest"),
    (3, "storage", "registry.local/storage-checker:latest")].map fun (id, name, checkerImage) =>
      (id, { name, servicePort := APIGateway.defaultServicePort id
             serviceSubnetOctet := APIGateway.defaultServiceSubnetOctet id }, checkerImage)

/-- A target of the demo. -/
def newCheckerTarget (team : Int × String) (challenge : Int × MemoryChallenge × String) :
    CheckerTarget where
  teamID := team.1
  teamName := team.2
  challengeID := challenge.1
  challengeName := challenge.2.1.name
  checkerImage := challenge.2.2
  checkerToken := s!"dev-checker-token-{team.1.repr}-{challenge.1.repr}"
  target := APIGateway.serviceEndpointFor challenge.2.1.serviceSubnetOctet
    challenge.2.1.servicePort team.1
  targetHost := APIGateway.serviceIP challenge.2.1.serviceSubnetOctet team.1
  targetIP := APIGateway.serviceIP challenge.2.1.serviceSubnetOctet team.1
  targetPort := challenge.2.1.servicePort

omit [Field K] [LinearOrder K] in
/-- `newMemoryGameStore`: the store of a core without a database. -/
def newMemoryGameStore : MemoryGameStore K :=
  .new (newTeams.flatMap fun team => newChallenges.map (newCheckerTarget team))
    (Go.Map.fill (·.1) (·.2) newTeams ∅) (Go.Map.fill (·.1) (·.2.1) newChallenges ∅)

/-! ## The calls of the store -/

/-- The store knows the team and the challenge. -/
def KnownService (s : MemoryGameStore K) (team challenge : Int) : Prop :=
  team ∈ s.teamNames.keys ∧ challenge ∈ s.challenges.keys

/-- No call adds or removes a target or a team, and none removes a challenge. -/
structure SameRoster (s t : MemoryGameStore K) : Prop where
  targets : t.targets = s.targets
  teamNames : t.teamNames = s.teamNames
  challenges : ∀ id ∈ s.challenges.keys, id ∈ t.challenges.keys

/-- A step that leaves flags and service states alone, too. -/
structure Unattributed (s t : MemoryGameStore K) : Prop extends SameRoster s t where
  flags : t.flags = s.flags
  states : t.serviceStates = s.serviceStates

/-- Targets, flags and service states are of known teams and challenges. -/
structure Attributed (s : MemoryGameStore K) : Prop where
  targets : ∀ target ∈ s.targets, KnownService s target.teamID target.challengeID
  flags : ∀ key f, s.flags.lookup key = some f → KnownService s f.ownerTeamID f.challengeID
  states : ∀ key x, s.serviceStates.lookup key = some x → KnownService s key.teamID key.challengeID

omit [Field K] [LinearOrder K] in
theorem SameRoster.refl (s : MemoryGameStore K) : SameRoster s s := ⟨rfl, rfl, fun _ h => h⟩

omit [Field K] [LinearOrder K] in
theorem SameRoster.trans {u : MemoryGameStore K} (h : SameRoster s t) (h' : SameRoster t u) :
    SameRoster s u :=
  ⟨h'.targets.trans h.targets, h'.teamNames.trans h.teamNames,
    fun id hid => h'.challenges id (h.challenges id hid)⟩

omit [Field K] [LinearOrder K] in
theorem SameRoster.known (h : SameRoster s t) {team challenge : Int}
    (hs : KnownService s team challenge) : KnownService t team challenge :=
  ⟨h.teamNames ▸ hs.1, h.challenges _ hs.2⟩

omit [Field K] [LinearOrder K] in
theorem Unattributed.refl (s : MemoryGameStore K) : Unattributed s s := ⟨.refl s, rfl, rfl⟩

omit [Field K] [LinearOrder K] in
theorem Unattributed.attributed (h : Unattributed s t) (hs : Attributed s) : Attributed t := by
  refine ⟨?_, ?_, ?_⟩
  · rw [h.targets]
    exact fun target htarget => h.known (hs.targets target htarget)
  · rw [h.flags]
    exact fun key f hf => h.known (hs.flags key f hf)
  · rw [h.states]
    exact fun key x hx => h.known (hs.states key x hx)

theorem recompute_eq_scoreboard {rows : List (ScoreRow K)}
    (h : recomputeScoreboardLocked rt M s = some (t, rows)) :
      t = { s with scoreboard := rows } := by
  simp only [recomputeScoreboardLocked, Option.bind_eq_bind, Option.bind_eq_some_iff,
    Option.pure_def, Option.some.injEq, Prod.mk.injEq] at h
  obtain ⟨_, _, _, _, _, _, _, _, rfl, rfl⟩ := h
  rfl

omit [Field K] [LinearOrder K] in
theorem setChallenge_unattributed {id : Int} {challenge challenge' : MemoryChallenge}
    (h : s.challenges.lookup id = some challenge) :
    Unattributed s { s with challenges := s.challenges.insert id challenge' } := by
  refine ⟨⟨rfl, rfl, fun id' hid => Go.Map.mem_keys.mpr ?_⟩, rfl, rfl⟩
  exact (Go.Map.isSome_lookup_insert (by rw [h]; rfl) _ id').trans (Go.Map.mem_keys.mp hid)

theorem acceptFlagSubmission_unattributed (x : AcceptedFlagSubmission) :
    Unattributed s (s.acceptFlagSubmission rt M crypto x).1 := by
  unfold acceptFlagSubmission
  split
  · exact .refl s
  dsimp only
  split
  · exact .refl s
  split
  · obtain rfl := recompute_eq_scoreboard ‹_›
    exact ⟨⟨rfl, rfl, fun _ h => h⟩, rfl, rfl⟩
  · exact ⟨⟨rfl, rfl, fun _ h => h⟩, rfl, rfl⟩

/-- Every call but two leaves flags and service states alone. -/
theorem exec_unattributed (op : StoreOp) (hop : op.Neutral) :
    Unattributed s (s.exec rt M crypto op).1 := by
  have hsame : ∀ t : MemoryGameStore K, t.targets = s.targets → t.teamNames = s.teamNames →
      t.challenges = s.challenges → t.flags = s.flags → t.serviceStates = s.serviceStates →
      Unattributed s t := fun t h₁ h₂ h₃ h₄ h₅ => ⟨⟨h₁, h₂, h₃ ▸ fun _ h => h⟩, h₄, h₅⟩
  cases op with
  | recordCheckerRun | issueFlag => exact hop.elim
  | acceptFlagSubmission x => exact acceptFlagSubmission_unattributed x
  | recomputeScoreboard =>
    simp only [exec, recomputeScoreboard]
    split
    · obtain rfl := recompute_eq_scoreboard ‹_›
      exact hsame _ rfl rfl rfl rfl rfl
    · exact .refl s
  | setChallengeMaintenance challengeID maintenance =>
    simp only [exec, setChallengeMaintenance]
    split
    · exact .refl s
    · exact setChallenge_unattributed ‹_›
  | setChallengePlayFromTick challengeID tick =>
    simp only [exec, setChallengePlayFromTick]
    split
    · exact .refl s
    · exact setChallenge_unattributed ‹_›
  | startNextTick now =>
    simp only [exec, startNextTick]
    split <;> exact hsame _ rfl rfl rfl rfl rfl
  | completeTick tick =>
    simp only [exec, completeTick]
    split <;> exact hsame _ rfl rfl rfl rfl rfl
  | startMatch now =>
    simp only [exec, startMatch]
    split <;> exact hsame _ rfl rfl rfl rfl rfl
  | pauseMatch =>
    simp only [exec, pauseMatch]
    split <;> exact hsame _ rfl rfl rfl rfl rfl
  | resumeMatch =>
    simp only [exec, resumeMatch]
    split <;> exact hsame _ rfl rfl rfl rfl rfl
  | stopMatch now =>
    simp only [exec, stopMatch]
    split <;> exact hsame _ rfl rfl rfl rfl rfl
  | matchStatus | gameStatus | listCheckerTargets | isChallengeInMaintenance | lookupTeamName
  | lookupIssuedFlag | reapRunningTicks | updateMatchSchedule =>
    exact hsame _ rfl rfl rfl rfl rfl

omit [Field K] [LinearOrder K] in
theorem recordCheckerRun_attributed (hs : Attributed s) {run : CheckerRunRecord}
    (hrun : KnownService s run.teamID run.challengeID) :
    Attributed (s.recordCheckerRun run).1 ∧ SameRoster s (s.recordCheckerRun run).1 := by
  simp only [recordCheckerRun, refreshMemoryServiceState]
  split
  · exact ⟨⟨hs.targets, hs.flags, hs.states⟩, rfl, rfl, fun _ h => h⟩
  refine ⟨⟨hs.targets, hs.flags, fun key x hx => ?_⟩, rfl, rfl, fun _ h => h⟩
  by_cases hkey : key =
    { tickID := run.tickID, teamID := run.teamID, challengeID := run.challengeID }
  · subst hkey
    exact hrun
  · exact hs.states key x ((AList.lookup_insert_ne hkey).symm.trans hx)

omit [Field K] [LinearOrder K] in
theorem issueFlag_attributed (hs : Attributed s) {f : IssuedFlagRecord}
    (hf : KnownService s f.ownerTeamID f.challengeID) :
    Attributed (s.issueFlag f) ∧ SameRoster s (s.issueFlag f) := by
  refine ⟨⟨hs.targets, fun key g hg => ?_, hs.states⟩, rfl, rfl, fun _ h => h⟩
  by_cases hkey : key = f.flag
  · subst hkey
    obtain rfl : f = g := Option.some.inj ((AList.lookup_insert _).symm.trans hg)
    exact hf
  · exact hs.flags key g ((AList.lookup_insert_ne hkey).symm.trans hg)

/-- The submissions of a call that accepts: those before it, and at most one more. -/
theorem exec_accepted (op : StoreOp) {key : String} {x : AcceptedFlagSubmission}
    (hx : (s.exec rt M crypto op).1.accepted.lookup key = some x) :
    s.accepted.lookup key = some x ∨ ∃ y, op = .acceptFlagSubmission y ∧
      s.acceptsNow y = true ∧ x = { y with submissionTick := s.currentTick } ∧
      s.accepted.lookup (acceptedSubmissionKey y.flag y.submittingTeam) = none := by
  by_cases hquiet : op.Quiet
  · rw [(exec_framed rt M op hquiet).accepted] at hx
    exact .inl hx
  cases op with
  | acceptFlagSubmission y =>
    simp only [exec, acceptFlagSubmission] at hx
    split at hx
    · exact .inl hx
    rename_i hnow
    split at hx
    · exact .inl hx
    rename_i hnew
    have hinsert : (s.accepted.insert (acceptedSubmissionKey y.flag y.submittingTeam)
        { y with submissionTick := s.currentTick }).lookup key = some x := by
      split at hx
      · obtain rfl := recompute_eq_scoreboard ‹_›
        exact hx
      · exact hx
    by_cases hkey : key = acceptedSubmissionKey y.flag y.submittingTeam
    · subst hkey
      rw [AList.lookup_insert] at hinsert
      exact .inr ⟨y, rfl, by simpa using hnow, (Option.some.inj hinsert).symm, by simpa using hnew⟩
    · exact .inl ((AList.lookup_insert_ne hkey).symm.trans hinsert)
  | startNextTick now =>
    simp only [exec, startNextTick] at hx
    split at hx <;> exact .inl hx
  | issueFlag => exact .inl hx
  | _ => exact absurd trivial hquiet

/-- A call that panics leaves a store on which a recompute fails. -/
theorem recompute_of_panic {op : StoreOp} (h : (s.exec rt M crypto op).2 = .error .panic) :
    recomputeScoreboardLocked rt M (s.exec rt M crypto op).1 = none := by
  cases op with
  | acceptFlagSubmission x =>
    simp only [exec, acceptFlagSubmission] at h ⊢
    split at h
    · cases h
    split at h
    · cases h
    split at h
    · cases h
    · simp_all
  | recomputeScoreboard =>
    simp only [exec, recomputeScoreboard] at h ⊢
    split at h
    · cases h
    · simp_all
  | lookupTeamName =>
    simp only [exec, lookupTeamName] at h
    split at h <;> cases h
  | lookupIssuedFlag =>
    simp only [exec, lookupIssuedFlag] at h
    split at h <;> cases h
  | startNextTick now =>
    simp only [exec, startNextTick] at h
    split at h <;> cases h
  | completeTick tick =>
    simp only [exec, completeTick] at h
    split at h <;> cases h
  | startMatch now =>
    simp only [exec, startMatch] at h
    split at h <;> cases h
  | pauseMatch =>
    simp only [exec, pauseMatch] at h
    split at h <;> cases h
  | resumeMatch =>
    simp only [exec, resumeMatch] at h
    split at h <;> cases h
  | stopMatch now =>
    simp only [exec, stopMatch] at h
    split at h <;> cases h
  | matchStatus | gameStatus | listCheckerTargets | isChallengeInMaintenance | reapRunningTicks
  | updateMatchSchedule | recordCheckerRun | issueFlag | setChallengeMaintenance
  | setChallengePlayFromTick => cases h

omit [Field K] [LinearOrder K] in
theorem newMemoryGameStore_attributed : Attributed (newMemoryGameStore (K := K)) := by
  refine ⟨fun target htarget => ?_, nofun, nofun⟩
  obtain ⟨team, hteam, hmem⟩ := List.mem_flatMap.mp htarget
  obtain ⟨challenge, hchallenge, rfl⟩ := List.mem_map.mp hmem
  refine ⟨Go.Map.mem_keys.mpr (Go.Map.isSome_lookup_fill.mpr (.inl ?_)),
    Go.Map.mem_keys.mpr (Go.Map.isSome_lookup_fill.mpr (.inl ?_))⟩
  · exact List.mem_map_of_mem hteam
  · exact List.mem_map_of_mem hchallenge

omit [Field K] [LinearOrder K] in
/-- With known services, stored flags and known teams behind its submissions, a store has good
references. -/
theorem Attributed.references (hs : Attributed s) (hsound : Sound crypto s)
    (hteams : ∀ key x, s.accepted.lookup key = some x → x.submittingTeam ∈ s.teamNames.keys) :
    References s := by
  refine ⟨fun key x hx => ⟨hteams key x hx, ?_⟩, hs.flags, hs.states⟩
  obtain ⟨f, hf, -, -⟩ := (hsound.accepted key x hx).flag
  rw [Go.Map.get, hf]
  exact (hs.flags _ f hf).2

omit [Field K] [LinearOrder K] in
/-- A stored flag that a known team hands in is a good reference. -/
theorem References.insert (hs : References s) {x : AcceptedFlagSubmission} {f : IssuedFlagRecord}
    (hf : s.flags.lookup x.flag = some f) (hteam : x.submittingTeam ∈ s.teamNames.keys)
    (key : String) (feed : List AttackEvent) :
    References { s with accepted := s.accepted.insert key x, attackFeed := feed } := by
  refine ⟨fun key' y hy => ?_, hs.flags, hs.states⟩
  by_cases hkey : key' = key
  · subst hkey
    obtain rfl : x = y := Option.some.inj ((AList.lookup_insert _).symm.trans hy)
    refine ⟨hteam, ?_⟩
    rw [Go.Map.get, hf]
    exact (hs.flags _ f hf).2
  · exact hs.submissions key' y ((AList.lookup_insert_ne hkey).symm.trans hy)

/-- In a state of the store, no recompute, no record of a run and no submission of a stored flag by
a known team dereferences a missing entry. -/
structure Usable (M : FaustMath K) (crypto : Crypto) (s : MemoryGameStore K) : Prop where
  recompute : ∀ rt, (s.exec rt M crypto .recomputeScoreboard).2 ≠ .error .panic
  record : ∀ rt run, (s.exec rt M crypto (.recordCheckerRun run)).2 ≠ .error .panic
  accept : ∀ rt (x : AcceptedFlagSubmission) f, s.flags.lookup x.flag = some f →
    x.submittingTeam ∈ s.teamNames.keys →
    (s.exec rt M crypto (.acceptFlagSubmission x)).2 ≠ .error .panic

theorem References.usable (hs : References s) : Usable M crypto s := by
  refine ⟨fun rt hpanic => ?_, fun rt run => nofun, fun rt x f hf hteam hpanic => ?_⟩
  · obtain ⟨rows, -, heq⟩ := recompute_eq rt M hs
    simp [exec, recomputeScoreboard, heq, Except.map] at hpanic
  · have hinserted := hs.insert (x := { x with submissionTick := s.currentTick }) hf hteam
      (acceptedSubmissionKey x.flag x.submittingTeam)
      (attackEvent crypto { x with submissionTick := s.currentTick } :: s.attackFeed)
    obtain ⟨rows, -, heq⟩ := recompute_eq rt M hinserted
    simp only [exec, acceptFlagSubmission, heq] at hpanic
    split at hpanic
    · cases hpanic
    · split at hpanic <;> cases hpanic

end MemoryGameStore

/-! ## The server -/

section server
open MemoryGameStore
variable {K : Type} [Field K] [LinearOrder K]

/-- The contract of every program: flags and states stay those of known services. -/
def attribution (M : FaustMath K) (crypto : Crypto) :
    Contract (ServerShared (MemoryGameStore K)) (ServerInput Go.Runtime) ServerOp ServerOp.Res where
  sem := serverSem (memorySem M crypto)
  inv s := Attributed s.store
  guar s t := SameRoster s.store t.store
  rely s t := SameRoster s.store t.store
  guar_refl _ := .refl _
  rely_refl _ := .refl _
  rely_trans := SameRoster.trans
  guar_rely h := h

variable {M : FaustMath K} {crypto : Crypto} {s : ServerShared (MemoryGameStore K)}

theorem attribution_keeps (op : ServerOp) (hop : ∀ ctx o, op = .store ctx o → o.Neutral) :
    (attribution M crypto).Keeps op := by
  intro input s t r hs _ hsem
  have hstep : Unattributed s.store t.store := by
    by_cases hstore : ∃ ctx o, op = .store ctx o
    · obtain ⟨ctx, o, rfl⟩ := hstore
      cases hsem
      exact exec_unattributed o (hop ctx o rfl)
    · have hsem : serverSem (memorySem M crypto) input op s = some (t, r) := hsem
      rw [(frame_of_serverSem (fun ctx o h => hstore ⟨ctx, o, h⟩) hsem).1]
      exact .refl _
  exact ⟨hstep.attributed hs, hstep.toSameRoster⟩

theorem phaseRun_service (tickID : Int) (target : CheckerTarget)
    (batch : Except String (List CheckerPhaseResult)) (halted : Bool) (runTime : Time)
    (phase : String) :
    (phaseRun tickID target batch halted runTime phase).1.teamID = target.teamID ∧
      (phaseRun tickID target batch halted runTime phase).1.challengeID = target.challengeID := by
  unfold phaseRun
  dsimp only
  split
  · exact ⟨rfl, rfl⟩
  split
  · exact ⟨rfl, rfl⟩
  · split <;> exact ⟨rfl, rfl⟩

theorem attribution_rules : TargetRules (attribution M crypto) crypto.hmac
    (fun target s => KnownService s.store target.teamID target.challengeID) (fun _ _ => True)
    (fun _ _ => True) (fun _ _ _ => True) (fun _ _ => True) where
  free op hop := by
    refine attribution_keeps op ?_
    rintro ctx o rfl
    cases o <;> trivial
  clock s := Contract.Fine.perform (attribution_keeps _ nofun)
  listCheckerTargets ctx s := by
    refine .perform fun s' input t r _ hs' _ hsem => ?_
    cases hsem
    refine ⟨hs', .refl _, ?_⟩
    rintro targets ⟨⟩ target htarget
    have hmem := (input.store.sortSlice_perm _ _).mem_iff.mp htarget
    exact hs'.targets target (List.mem_filter.mp hmem).1
  recordCheckerRun ctx tickID target batch halted runTime phase s hknown := by
    refine Contract.Meets.perform fun s' input t r hr hs' _ hsem => ?_
    cases hsem
    obtain ⟨hteam, hchallenge⟩ := phaseRun_service tickID target batch halted runTime phase
    obtain ⟨hattributed, hroster⟩ := recordCheckerRun_attributed hs'
      (hteam ▸ hchallenge ▸ hr.known hknown)
    exact ⟨hattributed, hroster, trivial⟩
  startNextTick ctx now s :=
    .weaken (Contract.Fine.perform (attribution_keeps (.store ctx (.startNextTick now))
      (by rintro _ _ ⟨⟩; trivial))) fun _ _ _ _ _ _ _ => trivial
  completeTick ctx tick s _ _ := Contract.Fine.perform
    (attribution_keeps (.store ctx (.completeTick tick)) (by rintro _ _ ⟨⟩; trivial))
  issueFlag ctx tickID codec target createdAt s hknown _ := by
    refine Contract.Meets.perform fun s' input t r hr hs' _ hsem => ?_
    cases hsem
    obtain ⟨hattributed, hroster⟩ := issueFlag_attributed (f := issuedFlag tickID target
      (codec.issue crypto.hmac target.teamID target.challengeID tickID tickID) createdAt) hs'
      (hr.known hknown)
    exact ⟨hattributed, hroster, trivial⟩
  tickReturned tickID s _ := .perform (attribution_keeps _ nofun)
  lookupIssuedFlag ctx flag s :=
    .weaken (Contract.Fine.perform (attribution_keeps (.store ctx (.lookupIssuedFlag flag))
      (by rintro _ _ ⟨⟩; trivial))) fun _ _ _ _ _ _ _ => trivial
  acceptFlagSubmission ctx x f s _ _ _ _ := .perform
    (attribution_keeps (.store ctx (.acceptFlagSubmission x)) (by rintro _ _ ⟨⟩; trivial))
  known_rely hr h := hr.known h
  started_rely _ h := h
  closed_rely _ h := h
  stored_rely _ h := h

/-! ### Runs -/

/-- The server over the memory store at some point of a run. -/
abbrev ServerMachine (K : Type) := Machine (ServerShared (MemoryGameStore K)) ServerOp ServerOp.Res

/-- The step of a label is a store call that panics. -/
def CallPanics (M : FaustMath K) (crypto : Crypto) (m : ServerMachine K) :
    Label ServerRequest (ServerInput Go.Runtime) → Prop
  | .arrive _ => False
  | .step i input => ∃ ctx op k, m.threads[i]? = some (.call (.store ctx op) k) ∧
      (m.shared.store.exec input.store M crypto op).2 = .error .panic

/-- The step of a label stores a new submission of a team that the store does not know. -/
def StoresUnknown (m : ServerMachine K) : Label ServerRequest (ServerInput Go.Runtime) → Prop
  | .arrive _ => False
  | .step i _ => ∃ ctx x k,
      m.threads[i]? = some (.call (.store ctx (.acceptFlagSubmission x)) k) ∧
      m.shared.store.acceptsNow x = true ∧
      m.shared.store.accepted.lookup (acceptedSubmissionKey x.flag x.submittingTeam) = none ∧
      x.submittingTeam ∉ m.shared.store.teamNames.keys

/-- A step is a call on the store, or it leaves the store alone. -/
theorem store_of_step (M : FaustMath K) (cfg : ServerConfig) (m : ServerMachine K)
    (l : Label ServerRequest (ServerInput Go.Runtime)) :
    (m.step (serverSem (memorySem M cfg.crypto)) (ServerRequest.handler cfg) l).shared.store =
        m.shared.store ∨
      ∃ i input ctx op k, l = .step i input ∧ m.threads[i]? = some (.call (.store ctx op) k) ∧
        (m.step (serverSem (memorySem M cfg.crypto)) (ServerRequest.handler cfg) l).shared.store =
          (m.shared.store.exec input.store M cfg.crypto op).1 := by
  cases l with
  | arrive request => exact .inl rfl
  | step i input =>
    cases hi : m.threads[i]? with
    | none => exact .inl (by simp [Machine.step, hi])
    | some thread =>
      cases thread with
      | done => exact .inl (by simp [Machine.step, hi])
      | fork n child k => exact .inl (by simp [Machine.step, hi])
      | call op k =>
        by_cases hstore : ∃ ctx o, op = .store ctx o
        · obtain ⟨ctx, o, rfl⟩ := hstore
          exact .inr ⟨i, input, ctx, o, k, rfl, hi, by
            simp [Machine.step, hi, serverSem, memorySem]⟩
        · cases hsem : serverSem (memorySem M cfg.crypto) input op m.shared with
          | none => exact .inl (by simp [Machine.step, hi, hsem])
          | some out =>
            refine .inl ?_
            simp only [Machine.step, hi, hsem]
            exact (frame_of_serverSem (fun ctx o h => hstore ⟨ctx, o, h⟩) hsem).1

/-- A new submission of an unknown team makes its own call panic. -/
theorem StoresUnknown.panics {m : ServerMachine K}
    {l : Label ServerRequest (ServerInput Go.Runtime)} (h : StoresUnknown m l) :
    CallPanics M crypto m l := by
  cases l with
  | arrive => exact h.elim
  | step i input =>
    obtain ⟨ctx, x, k, hi, hnow, hnew, hteam⟩ := h
    refine ⟨ctx, _, k, hi, ?_⟩
    have hnone : recomputeScoreboardLocked input.store M { m.shared.store with
        accepted := m.shared.store.accepted.insert (acceptedSubmissionKey x.flag x.submittingTeam)
          { x with submissionTick := m.shared.store.currentTick }
        attackFeed := attackEvent crypto { x with submissionTick := m.shared.store.currentTick } ::
          m.shared.store.attackFeed } = none :=
      recompute_unknown (AList.lookup_insert _) hteam
    simp only [exec, acceptFlagSubmission, hnow, hnew, hnone, Bool.not_true, Bool.false_eq_true,
      if_false, Option.isSome_none]
    rfl

section runs
variable {cfg : ServerConfig} {codec : FlagCodec} {store : MemoryGameStore K}
  {ls : List (Label ServerRequest (ServerInput Go.Runtime))}

/-- The machine after a schedule. -/
def served (M : FaustMath K) (cfg : ServerConfig) (codec : FlagCodec) (store : MemoryGameStore K)
    (ls : List (Label ServerRequest (ServerInput Go.Runtime))) : ServerMachine K :=
  (Machine.boot { store, codec }).run (serverSem (memorySem M cfg.crypto))
    (ServerRequest.handler cfg) ls

theorem served_concat (l : Label ServerRequest (ServerInput Go.Runtime)) :
    served M cfg codec store (ls ++ [l]) = (served M cfg codec store ls).step
      (serverSem (memorySem M cfg.crypto)) (ServerRequest.handler cfg) l :=
  Machine.run_concat _ _ _

theorem attribution_allowed {m : ServerMachine K} :
    (attribution (K := K) M cfg.crypto).RunAllowed (ServerRequest.handler cfg) m ls :=
  Contract.runAllowed_of_forall (fun _ _ _ => trivial) ls

theorem served_attributed (h : Attributed store) :
    Attributed (served M cfg codec store ls).shared.store :=
  Contract.inv_run (C := attribution M cfg.crypto) (attribution_rules.handles rfl)
    (s := { store, codec }) h attribution_allowed

theorem served_roster (h : Attributed store) (l : Label ServerRequest (ServerInput Go.Runtime)) :
    SameRoster (served M cfg codec store ls).shared.store
      (served M cfg codec store (ls ++ [l])).shared.store :=
  Contract.guar_step (C := attribution M cfg.crypto) (attribution_rules.handles rfl)
    (s := { store, codec }) h attribution_allowed

/-- As long as no submission of an unknown team is stored, the references of the store are good. -/
theorem served_references (hattributed : Attributed store) (hsound : Sound cfg.crypto store)
    (hteams : ∀ key x, store.accepted.lookup key = some x →
      x.submittingTeam ∈ store.teamNames.keys)
    (hknown : ∀ ls₁ l ls₂, ls = ls₁ ++ l :: ls₂ → ¬StoresUnknown (served M cfg codec store ls₁) l) :
    References (served M cfg codec store ls).shared.store := by
  refine (served_attributed hattributed).references (played_sound hsound) ?_
  induction ls using List.reverseRecOn with
  | nil => exact hteams
  | append_singleton ls l ih =>
    intro key x hx
    have ih := ih fun ls₁ l' ls₂ h => hknown ls₁ l' (ls₂ ++ [l]) (by simp [h])
    rw [(served_roster hattributed l).teamNames]
    rw [served_concat] at hx
    rcases store_of_step M cfg (served M cfg codec store ls) l with
      heq | ⟨i, input, ctx, op, k, rfl, hi, heq⟩
    · rw [heq] at hx
      exact ih key x hx
    rw [heq] at hx
    rcases exec_accepted op hx with hx | ⟨y, rfl, hnow, rfl, hnew⟩
    · exact ih key x hx
    · by_contra hteam
      exact hknown ls _ [] rfl ⟨ctx, y, k, hi, hnow, hnew, hteam⟩

end runs

/-- In every run of the server, no call of the store panics and every store on the way is usable, if
and only if no step stores a submission of a team that the store does not know. -/
theorem store_usable_iff (M : FaustMath K) (cfg : ServerConfig) (codec : FlagCodec)
    (ls : List (Label ServerRequest (ServerInput Go.Runtime))) :
    let after := served M cfg codec newMemoryGameStore
    ((∀ ls₁ l ls₂, ls = ls₁ ++ l :: ls₂ → ¬CallPanics M cfg.crypto (after ls₁) l) ∧
      ∀ ls₁ ls₂, ls = ls₁ ++ ls₂ → Usable M cfg.crypto (after ls₁).shared.store) ↔
    ∀ ls₁ l ls₂, ls = ls₁ ++ l :: ls₂ → ¬StoresUnknown (after ls₁) l := by
  intro after
  constructor
  · intro h ls₁ l ls₂ hls hunknown
    exact h.1 ls₁ l ls₂ hls hunknown.panics
  intro hknown
  have hreferences : ∀ ls₁ ls₂, ls = ls₁ ++ ls₂ → References (after ls₁).shared.store := by
    intro ls₁ ls₂ hls
    refine served_references newMemoryGameStore_attributed new_sound nofun fun ls₃ l ls₄ h => ?_
    exact hknown ls₃ l (ls₄ ++ ls₂) (by rw [hls, h, List.append_assoc, List.cons_append])
  refine ⟨fun ls₁ l ls₂ hls hpanic => ?_, fun ls₁ ls₂ hls => (hreferences ls₁ ls₂ hls).usable⟩
  cases l with
  | arrive => exact hpanic
  | step i input =>
    obtain ⟨ctx, op, k, hi, hpanic⟩ := hpanic
    -- the call leaves a store of the run, on which a recompute does not fail
    have hafter : (after (ls₁ ++ [.step i input])).shared.store =
        ((after ls₁).shared.store.exec input.store M cfg.crypto op).1 := by
      simp only [after, served_concat] at hi ⊢
      simp only [Machine.step, hi, serverSem, memorySem]
    obtain ⟨rows, -, heq⟩ := recompute_eq input.store M
      (hreferences (ls₁ ++ [.step i input]) ls₂ (by rw [hls, List.append_cons]))
    rw [hafter, recompute_of_panic hpanic] at heq
    cases heq

/-! ### A submission of an unknown team -/

/-- Settings with a put only and no deadline. -/
def openConfig : ServerConfig where
  crypto := { hmac := fun _ _ => [], sha256 := fun _ => [] }
  checkerPhases := ["put"]
  tickTimeout := false

/-- The codec of these settings. -/
def openCodec : FlagCodec := .new "secret" "PLAYIT"

/-- The flag that the first tick stores with the second service of the first team. -/
def firstFlag : String := openCodec.issue openConfig.crypto.hmac 101 2 1 1

/-- The match starts, and the first tick puts a flag into the second service of the first team. -/
def firstTick : List (Label ServerRequest (ServerInput Go.Runtime)) :=
  let put : CheckerPhaseResult := { phase := "put", status := "success", exitCode := 0 }
  let step i := .step i { batch := .ok [put], store := .inOrder }
  [.arrive (.startMatch 0), step 0, step 0, .arrive .advanceTick] ++ List.replicate 11 (step 1) ++
    List.replicate 7 (step 2)

/-- A team that the store does not know hands in the flag. -/
def strangerSubmits : List (Label ServerRequest (ServerInput Go.Runtime)) :=
  .arrive (.submitFlags 999 [firstFlag]) :: List.replicate 10 (.step 3 { store := .inOrder })

theorem store_poisoned :
    ¬ ∀ (M : FaustMath ℚ) (cfg : ServerConfig) (codec : FlagCodec)
      (ls : List (Label ServerRequest (ServerInput Go.Runtime))),
      let after := served M cfg codec newMemoryGameStore
      (∀ ls₁ l ls₂, ls = ls₁ ++ l :: ls₂ → ¬CallPanics M cfg.crypto (after ls₁) l) ∧
        ∀ ls₁ ls₂, ls = ls₁ ++ ls₂ → Usable M cfg.crypto (after ls₁).shared.store := by
  intro h
  have hlast := (h squareMath openConfig openCodec (firstTick ++ strangerSubmits)).2 _ []
    (List.append_nil _).symm
  have hnone :
      (recomputeScoreboardLocked .inOrder squareMath (served squareMath openConfig openCodec
      newMemoryGameStore (firstTick ++ strangerSubmits)).shared.store).isNone = true := by
    decide +kernel
  refine hlast.recompute .inOrder ?_
  simp only [exec, recomputeScoreboard, Option.isNone_iff_eq_none.mp hnone]
  rfl

end server

end ADPlatform.GameCore
