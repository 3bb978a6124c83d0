import ADPlatform.GameCore.MemoryTicks

/-! # The audit of the in-memory scoreboard

`AuditScoreboard` saves the stored rows, recomputes them in place and puts the saved ones back. It
holds the lock of the store in each of the three steps and in none of the two gaps. What another
call stores in a gap is gone once the saved rows are back; and an audit that saves in the second gap
of another one saves rows that nobody asked for. -/

namespace ADPlatform.GameCore

/-- A field in which the stored board differs from the replayed one. -/
structure ScoringAuditMismatch (K : Type) where
  team : String
  field : String
  stored : K
  replayed : K
  delta : K
  detail : String := ""
  deriving DecidableEq

/-- The audit's report. -/
structure ScoringAudit (K : Type) where
  status : String
  storedRows : Nat
  replayedRows : Nat
  mismatchCount : Nat
  mismatches : List (ScoringAuditMismatch K)
  deriving DecidableEq

section report
variable {K : Type} [Field K] [LinearOrder K]

/-- `scoreTolerance`. -/
def scoreTolerance : K := 1 / 1000000

/-- `appendScoreMismatch`. -/
def scoreMismatch (team field : String) (stored replayed : K) : List (ScoringAuditMismatch K) :=
  let delta := replayed - stored
  if max delta (-delta) ≤ scoreTolerance then []
  else [{ team, field, stored, replayed, delta }]

/-- A row that is on one side only. -/
def missingRow (team detail : String) : ScoringAuditMismatch K :=
  { team, field := "row", stored := 0, replayed := 0, delta := 0, detail }

/-- What is wrong with one replayed row. -/
def rowMismatches (storedByTeam : Go.Map String (ScoreRow K)) (row : ScoreRow K) :
    List (ScoringAuditMismatch K) :=
  match storedByTeam.lookup row.team with
  | none => [missingRow row.team "replayed row is missing from stored scoreboard"]
  | some storedRow =>
    scoreMismatch row.team "rank" (storedRow.rank : K) row.rank ++
      scoreMismatch row.team "attack" storedRow.attack row.attack ++
      scoreMismatch row.team "defense" storedRow.defense row.defense ++
      scoreMismatch row.team "sla" storedRow.sla row.sla ++
      scoreMismatch row.team "total" storedRow.total row.total

/-- `buildScoringAuditReport`. -/
def buildScoringAuditReport (stored replayed : List (ScoreRow K)) : ScoringAudit K :=
  let storedByTeam : Go.Map String (ScoreRow K) := Go.Map.fill (·.team) id stored ∅
  let replayedByTeam : Go.Map String (ScoreRow K) := Go.Map.fill (·.team) id replayed ∅
  let mismatches := replayed.flatMap (rowMismatches storedByTeam) ++
    (stored.filter fun row => (replayedByTeam.lookup row.team).isNone).map fun row =>
      missingRow row.team "stored row is missing from replayed scoreboard"
  { status := if mismatches.length > 0 then "mismatch" else "ok"
    storedRows := stored.length
    replayedRows := replayed.length
    mismatchCount := mismatches.length
    mismatches }

end report

/-- A call of `AuditScoreboard`, between its steps. -/
inductive Audit (K : Type) where
  | called
  | saved (stored : List (ScoreRow K))
  | replayed (stored replayed : List (ScoreRow K))
  | returned (report : ScoringAudit K)
  | panicked

namespace Audit
variable {K : Type}

/-- The rows that an audit is going to put back. -/
def held : Audit K → Option (List (ScoreRow K))
  | saved stored | replayed stored _ => some stored
  | called | returned _ | panicked => none

/-- Has the audit done nothing yet? -/
def isCalled : Audit K → Bool
  | called => true
  | saved _ | replayed .. | returned _ | panicked => false

/-- The audit has its own rows in the store. -/
def replaying : Audit K → Bool
  | replayed .. => true
  | called | saved _ | returned _ | panicked => false

end Audit

/-- A store, the audits on it, and as a history variable the rows that the last update, an accepted
submission or a recompute, has computed from the submissions and service states of its moment. -/
structure AuditedStore (K : Type) where
  store : MemoryGameStore K
  audits : List (Audit K) := []
  updated : List (ScoreRow K)

/-- A step: an audit is called, an audit takes its next step, or another call on the store. -/
inductive AuditStep where
  | auditScoreboard
  | audit (index : Nat) (rt : Go.Runtime)
  | call (rt : Go.Runtime) (op : StoreOp)

/-- The store whose submissions and service states a call scores, where the call is an update: a
recompute, or a submission that is accepted. -/
def MemoryGameStore.scored {K : Type} (crypto : Crypto) (s : MemoryGameStore K) :
    StoreOp → Option (MemoryGameStore K)
  | .recomputeScoreboard => some s
  | .acceptFlagSubmission x =>
    let x' := { x with submissionTick := s.currentTick }
    let key := acceptedSubmissionKey x.flag x.submittingTeam
    if s.acceptsNow x && (s.accepted.lookup key).isNone then
      some { s with
        accepted := s.accepted.insert key x', attackFeed := attackEvent crypto x' :: s.attackFeed }
    else none
  | _ => none

namespace AuditedStore
variable {K : Type} [Field K] [LinearOrder K] (M : FaustMath K) (crypto : Crypto)

/-- The next step of an audit. -/
def stepAudit (rt : Go.Runtime) (s : MemoryGameStore K) : Audit K → MemoryGameStore K × Audit K
  | .called => (s, .saved s.scoreboard)
  | .saved stored =>
    match s.recomputeScoreboard rt M with
    | (s', .ok replayed) => (s', .replayed stored replayed)
    | (s', .error _) => (s', .panicked)
  | .replayed stored replayed =>
    ({ s with scoreboard := stored }, .returned (buildScoringAuditReport stored replayed))
  | .returned report => (s, .returned report)
  | .panicked => (s, .panicked)

/-- One step; a step of an audit that there is not does nothing. -/
def step (m : AuditedStore K) : AuditStep → AuditedStore K
  | .auditScoreboard => { m with audits := m.audits ++ [.called] }
  | .audit index rt =>
    match m.audits[index]? with
    | none => m
    | some audit =>
      let (store, audit) := stepAudit M rt m.store audit
      { m with store, audits := m.audits.set index audit }
  | .call rt op =>
    let (store, _) := m.store.exec rt M crypto op
    let rows := (m.store.scored crypto op).bind (MemoryGameStore.recomputeScoreboardLocked rt M)
    { m with store, updated := rows.elim m.updated (·.2) }

/-- The store after these steps. -/
def run (m : AuditedStore K) (steps : List AuditStep) : AuditedStore K :=
  steps.foldl (step M crypto) m

/-- A step of the kind that no audit undoes: updates stay out of the time between the save and the
restore of an audit, and an audit does not save while another one has its own rows in the store. -/
def stepAllowed (crypto : Crypto) (m : AuditedStore K) : AuditStep → Bool
  | .auditScoreboard => true
  | .audit index _ => !m.audits[index]?.any Audit.isCalled || m.audits.all (!·.replaying)
  | .call _ op => (m.store.scored crypto op).isNone || m.audits.all (·.held.isNone)

/-- Every step is allowed when its turn comes. -/
def runAllowed (m : AuditedStore K) : List AuditStep → Bool
  | [] => true
  | label :: steps => m.stepAllowed crypto label && (m.step M crypto label).runAllowed steps

/-- What an audit puts back is what was stored last, and unless an audit has its own rows in the
store, that is what is stored. -/
structure Invariant (m : AuditedStore K) : Prop where
  held : ∀ audit ∈ m.audits, ∀ stored, audit.held = some stored → stored = m.updated
  stored : (∀ audit ∈ m.audits, audit.replaying = false) → m.store.scoreboard = m.updated

end AuditedStore

namespace MemoryGameStore
variable {K : Type} [Field K] [LinearOrder K] {s : MemoryGameStore K}

theorem recompute_scoreboard_eq (rt : Go.Runtime) (M : FaustMath K)
    {out : MemoryGameStore K × List (ScoreRow K)}
    (h : recomputeScoreboardLocked rt M s = some out) : out.1.scoreboard = out.2 := by
  simp only [recomputeScoreboardLocked, Option.bind_eq_bind, Option.bind_eq_some_iff,
    Option.pure_def, Option.some.injEq] at h
  obtain ⟨_, _, _, _, _, _, _, _, rfl⟩ := h
  rfl

/-- The scoreboard behind a call: what it has computed, or the one before. -/
theorem exec_scoreboard (rt : Go.Runtime) (M : FaustMath K) (crypto : Crypto) (op : StoreOp) :
    (s.exec rt M crypto op).1.scoreboard =
      ((s.scored crypto op).bind (recomputeScoreboardLocked rt M)).elim s.scoreboard (·.2) := by
  cases op with
  | recomputeScoreboard =>
    simp only [exec, recomputeScoreboard, scored, Option.bind_some]
    cases hrows : recomputeScoreboardLocked rt M s with
    | none => rfl
    | some out => exact recompute_scoreboard_eq rt M hrows
  | acceptFlagSubmission x =>
    simp only [exec, acceptFlagSubmission, scored]
    by_cases haccepts : s.acceptsNow x = true
    swap
    · simp [haccepts]
    by_cases hnew :
        (s.accepted.lookup (acceptedSubmissionKey x.flag x.submittingTeam)).isSome = true
    · have hnone : ¬(s.acceptsNow x &&
          (s.accepted.lookup (acceptedSubmissionKey x.flag x.submittingTeam)).isNone) = true := by
        simp [Option.isSome_iff_ne_none.mp hnew]
      rw [if_neg hnone]
      simp [haccepts, hnew]
    · have hnone : (s.acceptsNow x &&
          (s.accepted.lookup (acceptedSubmissionKey x.flag x.submittingTeam)).isNone) = true := by
        simpa [haccepts] using hnew
      rw [if_pos hnone, Option.bind_some]
      simp only [haccepts, Bool.not_true, Bool.false_eq_true, if_false, hnew]
      split
      · rename_i hrows
        rw [hrows]
        exact recompute_scoreboard_eq rt M hrows
      · rename_i hrows
        rw [hrows]
        rfl
  | startNextTick now | completeTick tick =>
    simp only [exec, startNextTick, completeTick]
    split <;> rfl
  | recordCheckerRun run =>
    simp only [exec, recordCheckerRun, refreshMemoryServiceState]
    split <;> rfl
  | startMatch now | pauseMatch | resumeMatch | stopMatch now =>
    simp only [exec, startMatch, pauseMatch, resumeMatch, stopMatch]
    split <;> rfl
  | setChallengeMaintenance challengeID maintenance | setChallengePlayFromTick challengeID tick =>
    simp only [exec, setChallengeMaintenance, setChallengePlayFromTick]
    split <;> rfl
  | matchStatus | gameStatus | listCheckerTargets | isChallengeInMaintenance | lookupTeamName
  | reapRunningTicks | issueFlag | lookupIssuedFlag | updateMatchSchedule => rfl

end MemoryGameStore

namespace AuditedStore
variable {K : Type} [Field K] [LinearOrder K] {M : FaustMath K} {crypto : Crypto}
  {m : AuditedStore K}

theorem Invariant.call (h : m.Invariant) {rt : Go.Runtime} {op : StoreOp}
    (hop : m.stepAllowed crypto (.call rt op)) : (m.step M crypto (.call rt op)).Invariant := by
  simp only [step]
  cases hscored : m.store.scored crypto op with
  | none =>
    refine ⟨h.held, fun hreplaying => ?_⟩
    dsimp only
    rw [MemoryGameStore.exec_scoreboard, hscored]
    exact h.stored hreplaying
  | some scored =>
    have hheld : ∀ audit ∈ m.audits, audit.held = none := by
      simpa [stepAllowed, hscored] using hop
    refine ⟨fun audit haudit stored hstored => ?_, fun hreplaying => ?_⟩
    · rw [hheld audit haudit] at hstored
      cases hstored
    · dsimp only
      rw [MemoryGameStore.exec_scoreboard, hscored, h.stored hreplaying]

omit [Field K] [LinearOrder K] in
/-- An audit that takes a step is replaced, and no other one is. -/
theorem mem_set_or_eq {audits : List (Audit K)} {index : Nat} {audit audit' other : Audit K}
    (h : audits[index]? = some audit) (hother : other ∈ audits) :
    other = audit ∨ other ∈ audits.set index audit' := by
  obtain ⟨i, hi⟩ := List.mem_iff_getElem?.mp hother
  by_cases heq : index = i
  · subst heq
    exact .inl (Option.some.inj (hi.symm.trans h))
  · refine .inr (List.mem_iff_getElem?.mpr ⟨i, ?_⟩)
    rw [List.getElem?_set_ne heq, hi]

theorem Invariant.audit (h : m.Invariant) {index : Nat} {rt : Go.Runtime}
    (hindex : m.stepAllowed crypto (.audit index rt)) :
    (m.step M crypto (.audit index rt)).Invariant := by
  simp only [step]
  cases haudit : m.audits[index]? with
  | none => exact h
  | some audit =>
    have hmem := List.mem_of_getElem? haudit
    have hnew : ∀ audit', audit' ∈ m.audits.set index audit' := fun audit' =>
      List.mem_set (List.getElem?_eq_some_iff.mp haudit).1 audit'
    -- an audit that holds nothing afterwards holds nothing wrong
    have hheld : ∀ audit' : Audit K, (∀ stored, audit'.held = some stored → stored = m.updated) →
        ∀ other ∈ m.audits.set index audit', ∀ stored, other.held = some stored →
          stored = m.updated := by
      intro audit' haudit' other hother stored hstored
      rcases List.mem_or_eq_of_mem_set hother with hold | rfl
      · exact h.held other hold stored hstored
      · exact haudit' stored hstored
    have hidle : ∀ audit' : Audit K, audit'.held = none →
        ∀ other ∈ m.audits.set index audit', ∀ stored, other.held = some stored →
          stored = m.updated := by
      intro audit' hnone
      refine hheld audit' fun stored hstored => ?_
      rw [hnone] at hstored
      cases hstored
    have hreplaying : ∀ audit' : Audit K, audit.replaying = false →
        (∀ other ∈ m.audits.set index audit', other.replaying = false) →
        m.store.scoreboard = m.updated := by
      intro audit' hcurrent hothers
      refine h.stored fun other hother => ?_
      rcases mem_set_or_eq haudit hother with rfl | hother
      · exact hcurrent
      · exact hothers other hother
    cases audit with
    | called =>
      have hscoreboard := h.stored (by
        simpa [stepAllowed, haudit, Audit.isCalled] using hindex)
      refine ⟨hheld _ fun stored hstored => ?_, fun _ => hscoreboard⟩
      rw [← hscoreboard, ← Option.some.inj hstored]
    | saved stored =>
      have hstored := h.held _ hmem stored rfl
      cases hrows : MemoryGameStore.recomputeScoreboardLocked rt M m.store with
      | some out =>
        simp only [stepAudit, MemoryGameStore.recomputeScoreboard, hrows]
        refine ⟨hheld _ fun x hx => ?_, fun hothers => ?_⟩
        · rw [← Option.some.inj hx, hstored]
        · cases hothers _ (hnew _)
      | none =>
        simp only [stepAudit, MemoryGameStore.recomputeScoreboard, hrows]
        exact ⟨hidle _ rfl, hreplaying _ rfl⟩
    | replayed stored replayed =>
      have hstored := h.held _ hmem stored rfl
      exact ⟨hidle _ rfl, fun _ => hstored⟩
    | returned report => exact ⟨hidle _ rfl, hreplaying _ rfl⟩
    | panicked => exact ⟨hidle _ rfl, hreplaying _ rfl⟩

theorem Invariant.run (h : m.Invariant) {steps : List AuditStep}
    (hsteps : m.runAllowed M crypto steps) : (m.run M crypto steps).Invariant := by
  induction steps generalizing m with
  | nil => exact h
  | cons label steps ih =>
    obtain ⟨hlabel, hrest⟩ := Bool.and_eq_true_iff.mp hsteps
    refine ih ?_ hrest
    cases label with
    | auditScoreboard =>
      refine ⟨fun audit haudit stored hstored => ?_, fun hothers => ?_⟩
      · rcases List.mem_append.mp haudit with hold | hcalled
        · exact h.held audit hold stored hstored
        · rw [List.mem_singleton.mp hcalled] at hstored
          cases hstored
      · exact h.stored fun audit haudit => hothers audit (List.mem_append_left _ haudit)
    | audit index rt => exact h.audit hlabel
    | call rt op => exact h.call hlabel

end AuditedStore

/-- In every run of allowed steps, once no audit is under way the stored scoreboard is the one that
the last accepted submission or recompute has computed. -/
theorem audited_scoreboard_kept {K : Type} [Field K] [LinearOrder K] (M : FaustMath K)
    (crypto : Crypto) (store : MemoryGameStore K) (steps : List AuditStep)
    (hsteps : AuditedStore.runAllowed M crypto { store, updated := store.scoreboard } steps) :
    let m := AuditedStore.run M crypto { store, updated := store.scoreboard } steps
    (∀ audit ∈ m.audits, audit.held = none) → m.store.scoreboard = m.updated := by
  intro m hdone
  have h : m.Invariant :=
    AuditedStore.Invariant.run ⟨fun _ haudit => (by cases haudit), fun _ => rfl⟩ hsteps
  refine h.stored fun audit haudit => ?_
  have hheld := hdone audit haudit
  cases audit with
  | replayed => cases hheld
  | called | saved | returned | panicked => rfl

/-- A running match in its first tick, with a flag of the second team to be captured. -/
def firstCapture : MemoryGameStore ℚ where
  teamNames := Go.Map.fill (·.1) (·.2) [((1 : Int), "Alpha"), (2, "Delta")] ∅
  challenges := Go.Map.fill (·.1) (·.2) [((1 : Int), { name := "banking" })] ∅
  ticks := [{ id := 1, status := .running }]
  flags := Go.Map.fill (·.flag) id
    [{ IssuedFlagRecord.zero with flag := "f", ownerTeamID := 2, challengeID := 1 }] ∅
  matchStatus := { state := .running, acceptingSubmissions := true }

/-- A capture of the first flag. -/
def captureOp : StoreOp := .acceptFlagSubmission
  { flag := "f", submittingTeam := 1, attackerName := "Alpha", victimName := "Delta"
    challengeName := "banking", challengeID := 1, submissionTick := 1, expiresTick := 1
    submittedAt := 0 }

/-- A crypto that signs everything alike. -/
def plainCrypto : Crypto := { hmac := fun _ _ => [], sha256 := fun _ => [] }

/-- The capture comes before the audit. -/
theorem audited_scoreboard_kept_captureFirst :
    let steps := [.call .inOrder captureOp, .auditScoreboard, .audit 0 .inOrder, .audit 0 .inOrder,
      .audit 0 .inOrder]
    let m := AuditedStore.run squareMath plainCrypto
      { store := firstCapture, updated := firstCapture.scoreboard } steps
    m.updated.map (·.attack) = [2, 0] ∧ m.store.scoreboard = m.updated := by
  refine ⟨?_, audited_scoreboard_kept squareMath plainCrypto firstCapture _ ?_ ?_⟩
  all_goals decide +kernel

/-- The capture falls between the save and the restore of an audit. -/
theorem audit_undoes_capture :
    let steps := [.auditScoreboard, .audit 0 .inOrder, .call .inOrder captureOp, .audit 0 .inOrder,
      .audit 0 .inOrder]
    let m := AuditedStore.run squareMath plainCrypto
      { store := firstCapture, updated := firstCapture.scoreboard } steps
    (m.audits.map Audit.held) = [none] ∧ m.updated.map (·.attack) = [2, 0] ∧
      m.store.scoreboard = [] ∧ m.store.scoreboard ≠ m.updated := by
  decide +kernel

end ADPlatform.GameCore
