import ADPlatform.Lib.Clock
import ADPlatform.GameCore.Submissions
import ADPlatform.GameCore.MatchStore
import ADPlatform.GameCore.MemoryScoreboard
import ADPlatform.GameCore.Tables

/-! # Submissions and the end of the match

`submitFlags` looks at the window once, before the first flag of a batch; behind it
`AcceptFlagSubmission` looks at the stored state alone. The server runs over either store and under
a clock that moves on by any amount before each step. -/

namespace ADPlatform.GameCore
open Concurrent ServerProc Server

variable {σ : Type} {ι : Type v}

/-- A game store as far as accepted submissions go: `submittedAt` is the `SubmittedAt` of the
submission that a team has made of a flag. -/
structure SubmissionStore (σ : Type) (ι : Type v) where
  sem : StoreSem σ ι
  matchStatus : σ → GameMatchStatus
  submittedAt : σ → String → Int → Option Time
  accepts : ∀ {input err s op flag teamID time},
    submittedAt (sem input err s op).1 flag teamID = some time →
      submittedAt s flag teamID = some time ∨ ∃ x, op = .acceptFlagSubmission x ∧
        x.submittedAt = time ∧ (matchStatus s).state = .running

/-! ## The in-memory store -/

namespace MemoryGameStore
variable {K : Type} [Field K] [LinearOrder K]

/-- When the team handed in the flag, if it was accepted. -/
def submittedAt (s : MemoryGameStore K) (flag : String) (teamID : Int) : Option Time :=
  (s.accepted.lookup (acceptedSubmissionKey flag teamID)).map (·.submittedAt)

theorem submittedAt_acceptFlagSubmission {rt : Go.Runtime} {M : FaustMath K} {crypto : Crypto}
    {s : MemoryGameStore K} {x : AcceptedFlagSubmission} {flag : String} {teamID : Int}
    {time : Time}
    (h : (s.acceptFlagSubmission rt M crypto x).1.submittedAt flag teamID = some time) :
    s.submittedAt flag teamID = some time ∨
      x.submittedAt = time ∧ s.matchStatus.state = .running := by
  unfold acceptFlagSubmission at h
  split at h
  · exact .inl h
  rename_i hnow
  simp only [acceptsNow, Bool.not_eq_true', Bool.not_eq_false, Bool.and_eq_true,
    decide_eq_true_eq] at hnow
  obtain ⟨⟨⟨⟨hrunning, -⟩, -⟩, -⟩, -⟩ := hnow
  dsimp only at h
  split at h
  · exact .inl h
  have hinserted : Option.map (·.submittedAt) ((s.accepted.insert
      (acceptedSubmissionKey x.flag x.submittingTeam)
      { x with submissionTick := s.currentTick }).lookup
        (acceptedSubmissionKey flag teamID)) = some time := by
    split at h
    · rename_i hrecompute
      rwa [submittedAt, (recompute_framed rt M hrecompute).accepted] at h
    · exact h
  by_cases hkey : acceptedSubmissionKey flag teamID = acceptedSubmissionKey x.flag x.submittingTeam
  · rw [hkey, AList.lookup_insert] at hinserted
    exact .inr ⟨Option.some.inj hinserted, hrunning⟩
  · rw [AList.lookup_insert_ne hkey] at hinserted
    exact .inl hinserted

end MemoryGameStore

/-- The memory store as one for submissions. -/
def memorySubmissions {K : Type} [Field K] [LinearOrder K] (M : FaustMath K) (crypto : Crypto) :
    SubmissionStore (MemoryGameStore K) Go.Runtime where
  sem := memorySem M crypto
  matchStatus s := s.matchStatus
  submittedAt := MemoryGameStore.submittedAt
  accepts {input err s op flag teamID time} h := by
    by_cases hop : ∃ x, op = .acceptFlagSubmission x
    · obtain ⟨x, rfl⟩ := hop
      rcases MemoryGameStore.submittedAt_acceptFlagSubmission h with h | ⟨htime, hrunning⟩
      · exact .inl h
      · exact .inr ⟨x, rfl, htime, hrunning⟩
    · left
      have haccepted : (s.exec input M crypto op).1.accepted = s.accepted := by
        cases op with
        | acceptFlagSubmission x => exact absurd ⟨x, rfl⟩ hop
        | startNextTick now =>
          simp only [MemoryGameStore.exec, MemoryGameStore.startNextTick]
          split <;> rfl
        | issueFlag => rfl
        | _ =>
          refine (MemoryGameStore.exec_framed input M _ ?_).accepted
          trivial
      rwa [memorySem, MemoryGameStore.submittedAt, haccepted] at h

/-! ## The tables -/

/-- The tables that `AcceptFlagSubmission` reads and writes, and the row of the match. -/
structure SubmissionTables (K : Type) where
  db : Database K
  row : Option MatchRow

/-- What the database decides about a call: whether it fails, and what a call that does not touch
`submitted_flags` answers and leaves in the other tables. -/
structure SubmissionTablesInput (K : Type) where
  fault : Option StoreError := none
  answer : (op : StoreOp) → Except StoreError op.Answer
  next : SubmissionTables K

namespace SubmissionTables
variable {K : Type}

/-- The tables with the match state that the row holds. -/
def current (s : SubmissionTables K) : Database K :=
  { s.db with matchState := s.row.map MatchRow.state }

/-- The calls on the tables; a done context or a lost connection changes nothing. -/
def sem (crypto : Crypto) : StoreSem (SubmissionTables K) (SubmissionTablesInput K) :=
  fun input err s op =>
    match err, input.fault with
    | some e, _ => (s, .error (.failure e.text))
    | none, some e => (s, .error e)
    | none, none =>
      match op with
      | .acceptFlagSubmission x =>
        let (db, r) := s.current.acceptFlagSubmission crypto x
        ({ s with db }, r)
      | op => ({ input.next with db.submittedFlags := s.db.submittedFlags }, input.answer op)

/-- When the team handed in the flag, if it was accepted. -/
def submittedAt (s : SubmissionTables K) (flag : String) (teamID : Int) : Option Time :=
  (s.db.submittedFlags.find? (·.key = (flag, teamID))).map (·.submittedAt)

theorem submittedAt_acceptFlagSubmission {db : Database K} {crypto : Crypto}
    {x : AcceptedFlagSubmission} {row : Option MatchRow} {flag : String} {teamID : Int}
    {time : Time}
    (h : submittedAt ⟨(db.acceptFlagSubmission crypto x).1, row⟩ flag teamID = some time) :
    submittedAt ⟨db, row⟩ flag teamID = some time ∨
      x.submittedAt = time ∧ db.matchState = some .running := by
  unfold Database.acceptFlagSubmission at h
  dsimp only at h
  split at h
  · exact .inl h
  rename_i hrunning
  split at h
  · exact .inl h
  split at h
  · exact .inl h
  split at h
  · exact .inl h
  split at h
  · exact .inl h
  split at h
  · exact .inl h
  rw [submittedAt, List.find?_append, Option.map_eq_some_iff] at h
  obtain ⟨found, hfound, htime⟩ := h
  rcases Option.or_eq_some_iff.mp hfound with hfound | ⟨-, hfound⟩
  · left
    rw [submittedAt, hfound, ← htime]
    rfl
  · right
    obtain rfl := List.mem_singleton.mp (List.mem_of_find?_eq_some hfound)
    exact ⟨htime, not_not.mp hrunning⟩

end SubmissionTables

/-- The postgres store as one for submissions. -/
def postgresSubmissions (K : Type) (crypto : Crypto) :
    SubmissionStore (SubmissionTables K) (SubmissionTablesInput K) where
  sem := SubmissionTables.sem crypto
  matchStatus s := MatchRow.toStatus s.row
  submittedAt := SubmissionTables.submittedAt
  accepts {input err s op flag teamID time} h := by
    unfold SubmissionTables.sem at h
    split at h
    · exact .inl h
    · exact .inl h
    split at h
    · rename_i x
      rcases SubmissionTables.submittedAt_acceptFlagSubmission h with h | ⟨htime, hrunning⟩
      · exact .inl h
      · refine .inr ⟨x, rfl, htime, ?_⟩
        have hrow : s.row.map MatchRow.state = some .running := hrunning
        rw [MatchRow.toStatus_state, storedState, hrow, Option.getD_some]
    · exact .inl h

/-! ## The server under a clock -/

/-- The clock value of an input. -/
def ServerInput.clock : ClockField (ServerInput ι) Time where
  get input := input.now
  set now input := { input with now }

/-- The window has ended the match, and the store does not say so yet. -/
def overdue (w : MatchWindow) (now : Time) (stored : GameMatchStatus) : Bool :=
  stored.state = .running && (applyMatchWindow w now stored).state ≠ .running

theorem overdue_eq {w : MatchWindow} {now : Time} {stored : GameMatchStatus}
    (h : stored.state = .running) : overdue w now stored = reached now (w.endAt stored) := by
  unfold overdue applyMatchWindow
  simp only [h]
  cases reached now (w.endAt stored) <;> simp

/-- A store call does to the store what the call says. -/
theorem store_of_serverSem {sem : StoreSem σ ι} {input : ServerInput ι} {ctx : Nat} {op : StoreOp}
    {s t : ServerShared σ} {r : Except StoreError op.Answer}
    (h : serverSem sem input (.store ctx op) s = some (t, r)) :
    t.store = (sem input.store (s.contextErr ctx) s.store op).1 := by
  cases h
  rfl

namespace SubmissionStore
variable (D : SubmissionStore σ ι)

/-- A flag is handed to `AcceptFlagSubmission` only where the store is up to date with the
window. -/
def onTime (w : MatchWindow) (input : ServerInput ι) (s : Clocked (ServerShared σ) Time) :
    ServerOp → Bool
  | .store _ (.acceptFlagSubmission _) =>
    !overdue w (s.advance ServerInput.clock input) (D.matchStatus s.shared.store)
  | _ => true

/-- No step takes back the clock, and a submission is accepted before the end in force. -/
def deadline (w : MatchWindow) : Contract (Clocked (ServerShared σ) Time) (ServerInput ι) ServerOp
    ServerOp.Res where
  sem := (serverSem D.sem).clocked ServerInput.clock
  inv _ := True
  guar s t := s.now ≤ t.now ∧ ∀ flag teamID time,
    D.submittedAt s.shared.store flag teamID ≠ some time →
    D.submittedAt t.shared.store flag teamID = some time →
    ∀ endAt, w.endAt (D.matchStatus s.shared.store) = some endAt → time < endAt
  rely s t := s.now ≤ t.now
  allowed input op s := D.onTime w input s op = true
  guar_refl _ := ⟨le_rfl, fun _ _ _ h h' => absurd h' h⟩
  rely_refl _ := le_rfl
  rely_trans := le_trans
  guar_rely h := h.1

instance (w : MatchWindow) (input : ServerInput ι) (op : ServerOp)
    (s : Clocked (ServerShared σ) Time) : Decidable ((D.deadline w).allowed input op s) :=
  inferInstanceAs (Decidable (D.onTime w input s op = true))

variable {D} {w : MatchWindow} {s : Clocked (ServerShared σ) Time}

/-- The `SubmittedAt` of a call lies in the past of the clock, and the window is still open. -/
theorem acceptFlagSubmission_fine {ctx : Nat} {x : AcceptedFlagSubmission}
    (hpast : x.submittedAt ≤ s.now) :
    (D.deadline w).Fine (Proc.perform (.store ctx (.acceptFlagSubmission x))) s := by
  refine Contract.Meets.perform fun s' input t r hr _ hal hsem => ?_
  have hsem : (serverSem D.sem).clocked ServerInput.clock input _ s' = some (t, r) := hsem
  obtain ⟨hstep, hnow⟩ := clocked_eq_some hsem
  refine ⟨trivial, ⟨now_le_of_clocked hsem, ?_⟩, trivial⟩
  intro flag teamID time hbefore hafter endAt hend
  rw [store_of_serverSem hstep] at hafter
  rcases D.accepts hafter with h | ⟨y, hy, htime, hrunning⟩
  · exact absurd h hbefore
  obtain rfl : x = y := StoreOp.acceptFlagSubmission.inj hy
  have hopen : reached t.now (w.endAt (D.matchStatus s'.shared.store)) = false := by
    rw [hnow, ← overdue_eq hrunning]
    exact (Bool.not_eq_true' _).mp hal
  have hlater : t.now < endAt := by simpa [reached, hend] using hopen
  calc time = x.submittedAt := htime.symm
    _ ≤ s.now := hpast
    _ ≤ s'.now := hr
    _ ≤ t.now := now_le_of_clocked hsem
    _ < endAt := hlater

theorem deadline_keeps (op : ServerOp) (hop : ∀ ctx x, op ≠ .store ctx (.acceptFlagSubmission x)) :
    (D.deadline w).Keeps op := by
  intro input s t r _ _ hsem
  have hsem : (serverSem D.sem).clocked ServerInput.clock input op s = some (t, r) := hsem
  refine ⟨trivial, now_le_of_clocked hsem, fun flag teamID time hbefore hafter => ?_⟩
  refine absurd ?_ hbefore
  obtain ⟨hstep, -⟩ := clocked_eq_some hsem
  by_cases hstore : ∃ ctx o, op = .store ctx o
  · obtain ⟨ctx, o, rfl⟩ := hstore
    rw [store_of_serverSem hstep] at hafter
    rcases D.accepts hafter with h | ⟨x, rfl, -, -⟩
    · exact h
    · exact absurd rfl (hop ctx x)
  · rwa [(frame_of_serverSem (fun ctx o h => hstore ⟨ctx, o, h⟩) hstep).1] at hafter

theorem deadline_rules (hmac : MAC) : ServerRules (D.deadline w) hmac (fun _ _ => True)
    (fun _ _ => True) (fun _ _ _ => True) (fun now s => now ≤ s.now) where
  plain op hop := by
    refine deadline_keeps op ?_
    rintro ctx x rfl
    exact hop
  clock s := by
    refine .perform fun s' input t r _ hs' hal hsem => ?_
    obtain ⟨hinv, hguar⟩ := deadline_keeps .clock nofun input s' t r hs' hal hsem
    refine ⟨hinv, hguar, ?_⟩
    have hsem : (serverSem D.sem).clocked ServerInput.clock input .clock s' = some (t, r) := hsem
    have hread : some (s'.shared, t.now) = some (t.shared, r) := (clocked_eq_some hsem).1
    exact (Prod.mk.inj (Option.some.inj hread)).2.ge
  startNextTick ctx now s :=
    .weaken (Contract.Fine.perform (deadline_keeps (.store ctx (.startNextTick now)) nofun))
      fun _ _ _ _ _ _ _ => trivial
  completeTick ctx tick s _ _ :=
    Contract.Fine.perform (deadline_keeps (.store ctx (.completeTick tick)) nofun)
  issueFlag ctx tickID codec target createdAt s _ :=
    .perform (deadline_keeps (.store ctx (.issueFlag _)) nofun)
  tickReturned tickID s _ := .perform (deadline_keeps (.tickReturned tickID) nofun)
  lookupIssuedFlag ctx flag s :=
    .weaken (Contract.Fine.perform (deadline_keeps (.store ctx (.lookupIssuedFlag flag)) nofun))
      fun _ _ _ _ _ _ _ => trivial
  acceptFlagSubmission ctx x f s _ _ _ := acceptFlagSubmission_fine
  started_rely _ h := h
  closed_rely _ h := h
  stored_rely _ h := h

variable (D)

/-- The store after a schedule, from a store and a clock value. -/
def served (cfg : ServerConfig) (codec : FlagCodec) (store : σ) (start : Time)
    (ls : List (Label ServerRequest (ServerInput ι))) : σ :=
  ((Machine.boot ⟨{ store, codec }, start⟩).run ((serverSem D.sem).clocked ServerInput.clock)
    (ServerRequest.handler cfg) ls).shared.shared.store

end SubmissionStore

/-- In every run in which no flag is handed to `AcceptFlagSubmission` while the store says running
and the window has ended the match, every submission is accepted with a `SubmittedAt` before the end
that is in force at its acceptance. -/
theorem accepted_before_end (D : SubmissionStore σ ι) (cfg : ServerConfig) (codec : FlagCodec)
    (store : σ) (start : Time) (ls : List (Label ServerRequest (ServerInput ι)))
    (hrun : (D.deadline cfg.window).RunAllowed (ServerRequest.handler cfg)
      (.boot ⟨{ store, codec }, start⟩) ls) :
    let served := D.served cfg codec store start
    ∀ ls₁ l ls₂, ls = ls₁ ++ l :: ls₂ → ∀ flag teamID time,
      D.submittedAt (served ls₁) flag teamID ≠ some time →
      D.submittedAt (served (ls₁ ++ [l])) flag teamID = some time →
      ∀ endAt, cfg.window.endAt (D.matchStatus (served ls₁)) = some endAt → time < endAt := by
  rintro served ls₁ l ls₂ rfl
  rw [List.append_cons] at hrun
  have hstep := Contract.guar_step ((D.deadline_rules cfg.crypto.hmac).handles rfl) trivial
    ((Contract.runAllowed_append (ls₁ ++ [l]) ls₂).mp hrun).1
  exact hstep.2

/-! ### A batch around the end of the match -/

/-- Settings with a crypto that signs everything alike. -/
def plainConfig : ServerConfig where
  crypto := { hmac := fun _ _ => [], sha256 := fun _ => [] }

/-- The codec of these settings. -/
def plainCodec : FlagCodec := .new "secret" "PLAYIT"

/-- The flag of the second team in the first tick. -/
def openFlag : String := plainCodec.issue plainConfig.crypto.hmac 2 1 1 1

/-- A running match in its first tick, scheduled to end after ten seconds. -/
def endingMatch : MemoryGameStore ℚ where
  teamNames := Go.Map.fill (·.1) (·.2) [((1 : Int), "Alpha"), (2, "Delta")] ∅
  challenges := Go.Map.fill (·.1) (·.2) [((1 : Int), { name := "banking" })] ∅
  ticks := [{ id := 1, status := .running }]
  flags := Go.Map.fill (·.flag) id
    [{ IssuedFlagRecord.zero with flag := openFlag, ownerTeamID := 2, challengeID := 1
                                  issuedTick := 1, expiresTick := 1 }] ∅
  matchStatus := { state := .running, scheduledEndAt := some 10, scheduleConfigured := true
                   acceptingSubmissions := true }

/-- The first team hands in the flag: its batch looks at the window at `opened` and reads the clock
for the flag at `submitted`. -/
def batchAt (opened submitted : Time) : List (Label ServerRequest (ServerInput Go.Runtime)) :=
  .arrive (.submitFlags 1 [openFlag]) ::
    (List.replicate 8 (.step 0 { now := opened, store := .inOrder }) ++
      [.step 0 { now := submitted, store := .inOrder }])

/-- The batch hands the flag to the store. -/
def handOver : Label ServerRequest (ServerInput Go.Runtime) := .step 0 { store := .inOrder }

/-- A flag that is handed in a second before the end. -/
theorem accepted_before_end_lastSecond :
    let D := memorySubmissions squareMath plainConfig.crypto
    D.submittedAt (D.served plainConfig plainCodec endingMatch 0
      (batchAt 8000000000 9000000000 ++ [handOver])) openFlag 1 = some 9000000000 ∧
      (9000000000 : Time) < 10000000000 := by
  intro D
  refine ⟨by decide +kernel, ?_⟩
  refine accepted_before_end D plainConfig plainCodec endingMatch 0
    (batchAt 8000000000 9000000000 ++ [handOver]) ?_ _ handOver [] rfl openFlag 1 _ ?_ ?_ _ ?_
  · exact Contract.runAllowed_of_checks (by decide +kernel)
  all_goals decide +kernel

/-- The end passes between the first look at the window and the flag, and no pass of the monitor has
stored it yet. -/
theorem accepted_after_end :
    ¬ ∀ (cfg : ServerConfig) (codec : FlagCodec) (store : MemoryGameStore ℚ) (start : Time)
      (ls : List (Label ServerRequest (ServerInput Go.Runtime))),
      let D := memorySubmissions squareMath cfg.crypto
      let served := D.served cfg codec store start
      ∀ ls₁ l ls₂, ls = ls₁ ++ l :: ls₂ → ∀ flag teamID time,
        D.submittedAt (served ls₁) flag teamID ≠ some time →
        D.submittedAt (served (ls₁ ++ [l])) flag teamID = some time →
        ∀ endAt, cfg.window.endAt (D.matchStatus (served ls₁)) = some endAt → time < endAt := by
  intro h
  have hlate :=
    h plainConfig plainCodec endingMatch 0 _ (batchAt 8000000000 11000000000) handOver []
    rfl openFlag 1 11000000000 (by decide +kernel) (by decide +kernel) 10000000000 (by
      decide +kernel)
  exact absurd hlate (by decide)

end ADPlatform.GameCore
