import ADPlatform.GameCore.MemoryScoreboard
import ADPlatform.GameCore.ScoreTotals

/-! # The two scoreboards agree

The in-memory store and the postgres store compute the scoreboard in different ways. Where the
tables hold the data of an in-memory store, both compute the rows of one `Contest`, and rows with
distinct names are ranked in one way. -/

namespace ADPlatform.GameCore
open Ledger

variable {K : Type}

/-- The tables hold the data of the in-memory store. -/
structure SameData (s : MemoryGameStore K) (db : Database K) : Prop where
  teams : (db.teams.map fun t => (t.id, t.name)).Perm s.teamNames.pairs
  challenges : (db.challenges.map fun c => (c.id, c.name)).Perm
    (s.challenges.pairs.map fun c => (c.1, c.2.name))
  issuedFlags : (db.issuedFlags.map fun f => (f.flag, f)).Perm s.flags.pairs
  submittedFlags : (db.submittedFlags.map SubmittedFlag.key).Perm
    (s.accepted.pairs.map fun x => (x.2.flag, x.2.submittingTeam))
  serviceStates : (db.checkerServiceStates.map fun x => (x.key, x.serviceState)).Perm
    (s.serviceStates.pairs.map fun x => (x.1, x.2.status))

/-- A state that normalisation leaves as it is. -/
def CanonicalState (state : String) : Prop := normalizeServiceStateStatus state = state

instance : DecidablePred CanonicalState := fun _ => inferInstanceAs (Decidable (_ = _))

theorem CanonicalState.cases {state : String} (h : CanonicalState state) :
    state ∈ ["ok", "recovering", "flag_not_found", "faulty", "down", "unknown", ""] := by
  rw [← h]
  unfold normalizeServiceStateStatus
  split <;> decide

/-- The query and the program value a canonical state alike. -/
theorem stateValue_eq [Field K] {x : CheckerServiceState} (h : CanonicalState x.serviceState) :
    (Database.stateValue x : K) = faustSLAValueForStatus x.serviceState := by
  have htrim : ∀ state ∈ ["ok", "recovering", "flag_not_found", "faulty", "down", "unknown", ""],
      Text.trimSpace (Text.toLower state) = state := by decide +kernel
  have hcases := h.cases
  unfold Database.stateValue faustSLAValueForStatus
  rw [htrim _ hcases]
  simp only [List.mem_cons, List.not_mem_nil, or_false] at hcases
  rcases hcases with h | h | h | h | h | h | h <;> rw [h] <;> rfl

namespace Contest
variable [Field K]

/-- Two contests that differ in the order of their records. -/
structure Same (c c' : Contest K) : Prop where
  teamCount : c.teamCount = c'.teamCount
  captures : c.captures.Perm c'.captures
  flags : c.flags.Perm c'.flags
  states : c.states.Perm c'.states

theorem Same.teamRow {c c' : Contest K} (h : c.Same c') (M : FaustMath K) (team : Int)
    (name : String) (challenges : List (Int × String)) :
    c.teamRow M team name challenges = c'.teamRow M team name challenges := by
  have hcount : ∀ flag, c.captureCount flag = c'.captureCount flag :=
    fun flag => h.captures.countP_eq _
  simp only [Contest.teamRow, serviceRow, attack, defense, sla, serviceAttack, serviceDefense,
    serviceSLA, hcount, h.teamCount, sumWhere_perm h.captures, sumWhere_perm h.flags,
    sumWhere_perm h.states]

end Contest

namespace Database
variable [Field K] (db : Database K)

/-- The contest that the tables record. -/
def contest : Contest K where
  teamCount := db.activeTeams.length
  captures := db.submittedFlags.map fun x =>
    { flag := x.flag, team := x.teamID, challenge := (db.issuedChallenge x.flag).getD 0 }
  flags := db.issuedFlags.map fun f =>
    { flag := f.flag, owner := f.ownerTeamID, challenge := f.challengeID }
  states := db.checkerServiceStates.map fun x =>
    { team := x.key.teamID, challenge := x.key.challengeID, value := stateValue x }

variable {db}

theorem captureCount_contest (flag : String) :
    db.contest.captureCount flag = db.captureCount flag := by
  simp only [Contest.captureCount, contest, List.countP_map]
  rfl

theorem serviceScore_eq (hdb : db.Constraints) (hissued : db.AllIssued) (M : FaustMath K)
    (team : Int) (challenge : Int × String) : (db.scoreQueries M).serviceScore team challenge
      = db.contest.serviceRow M team challenge.1 challenge.2 := by
  have hattack : ((db.scoreQueries M).serviceScore team challenge).attack
      = db.contest.serviceAttack team challenge.1 := by
    rw [serviceScore_attack M hdb, Contest.serviceAttack]
    simp only [captureCount_contest]
    rw [contest, sumWhere_map]
    refine sumWhere_congr fun x hx => ⟨?_, fun _ => rfl⟩
    obtain ⟨c, -, hc⟩ := exists_issuedChallenge hdb (hissued x hx)
    simp [hc]
  have hdefense : ((db.scoreQueries M).serviceScore team challenge).defense
      = db.contest.serviceDefense M team challenge.1 := by
    rw [serviceScore_defense, Contest.serviceDefense]
    simp only [captureCount_contest]
    rw [contest, sumWhere_map]
  have hsla : ((db.scoreQueries M).serviceScore team challenge).sla
      = db.contest.serviceSLA M team challenge.1 := by
    rw [serviceScore_sla, Contest.serviceSLA, contest, sumWhere_map, mul_comm]
  simp only [Contest.serviceRow, ← hattack, ← hdefense, ← hsla]
  rfl

/-- With all flags issued, a snapshot is the row of its team in the contest. -/
theorem snapshot_eq (hdb : db.Constraints) (hissued : db.AllIssued) (M : FaustMath K)
    (team : Int × String) : ((db.scoreQueries M).snapshot team).row
      = db.contest.teamRow M team.1 team.2 db.orderedChallenges := by
  have hattack : ((db.scoreQueries M).snapshot team).attack = db.contest.attack team.1 := by
    rw [snapshot_attack, Contest.attack]
    simp only [captureCount_contest]
    rw [contest, sumWhere_map]
    rfl
  have hdefense : ((db.scoreQueries M).snapshot team).defense = db.contest.defense M team.1 := by
    rw [snapshot_defense, Contest.defense]
    simp only [captureCount_contest]
    rw [contest, sumWhere_map]
  have hsla : ((db.scoreQueries M).snapshot team).sla = db.contest.sla M team.1 := by
    rw [snapshot_sla, Contest.sla, contest, sumWhere_map, mul_comm]
  simp only [Contest.teamRow, ← hattack, ← hdefense, ← hsla, ← serviceScore_eq hdb hissued]
  rfl

end Database

namespace SameData
variable {s : MemoryGameStore K} {db : Database K}

/-- A flag is found in the map and in the table alike. -/
theorem lookup_flags (h : SameData s db) (flag : String) :
    s.flags.lookup flag = db.issuedFlags.find? (·.flag = flag) := by
  have hmem : ∀ f, s.flags.lookup flag = some f ↔ f ∈ db.issuedFlags ∧ f.flag = flag := by
    intro f
    rw [← Go.Map.mem_pairs, ← h.issuedFlags.mem_iff]
    simp only [List.mem_map, Prod.mk.injEq]
    refine ⟨?_, fun hf => ⟨f, hf.1, hf.2, rfl⟩⟩
    rintro ⟨g, hg, hflag, rfl⟩
    exact ⟨hg, hflag⟩
  cases hfind : db.issuedFlags.find? (·.flag = flag) with
  | some f =>
    exact (hmem f).mpr ⟨List.mem_of_find?_eq_some hfind, by simpa using List.find?_some hfind⟩
  | none =>
    refine Option.eq_none_iff_forall_ne_some.mpr fun f hf => ?_
    obtain ⟨hf, hflag⟩ := (hmem f).mp hf
    exact List.find?_eq_none.mp hfind f hf (decide_eq_true hflag)

theorem challenge_of_flag (h : SameData s db) (flag : String) :
    (s.flags.get flag .zero).challengeID = (db.issuedChallenge flag).getD 0 := by
  rw [Go.Map.get, h.lookup_flags, Database.issuedChallenge]
  cases db.issuedFlags.find? (·.flag = flag) <;> rfl

theorem mem_teamNames (h : SameData s db) {team : Int} (hteam : team ∈ db.teamIDs) :
    team ∈ s.teamNames.keys := by
  rw [← Go.Map.map_fst_pairs, ← (h.teams.map Prod.fst).mem_iff, List.map_map]
  exact hteam

theorem mem_challenges (h : SameData s db) {challenge : Int}
    (hchallenge : challenge ∈ db.challengeIDs) : challenge ∈ s.challenges.keys := by
  have hmem : challenge ∈ (db.challenges.map fun c => (c.id, c.name)).map Prod.fst := by
    rw [List.map_map]
    exact hchallenge
  rw [(h.challenges.map Prod.fst).mem_iff, List.map_map] at hmem
  rw [← Go.Map.map_fst_pairs]
  exact hmem

/-- The foreign keys give the references of the in-memory store. -/
theorem references (h : SameData s db) (hdb : db.Constraints) (hissued : db.AllIssued) :
    s.References := by
  refine .of_pairs (fun x hx => ?_) (fun x hx => ?_) fun x hx => ?_
  · obtain ⟨y, hy, hkey⟩ := List.mem_map.mp
      (h.submittedFlags.mem_iff.mpr (List.mem_map_of_mem hx))
    obtain ⟨hflag, hteam⟩ := Prod.mk.inj hkey
    obtain ⟨c, hc, heq⟩ := Database.exists_issuedChallenge hdb (hissued y hy)
    rw [h.challenge_of_flag, ← hflag, heq, ← hteam]
    exact ⟨h.mem_teamNames (hdb.submittedFlag_ref y hy), h.mem_challenges hc⟩
  · obtain ⟨f, hf, rfl⟩ := List.mem_map.mp (h.issuedFlags.mem_iff.mpr hx)
    exact ⟨h.mem_teamNames (hdb.issuedFlag_ref f hf).1,
      h.mem_challenges (hdb.issuedFlag_ref f hf).2⟩
  · obtain ⟨y, hy, hkey⟩ := List.mem_map.mp
      (h.serviceStates.mem_iff.mpr (List.mem_map_of_mem hx))
    obtain ⟨hkey, -⟩ := Prod.mk.inj hkey
    rw [← hkey]
    exact ⟨h.mem_teamNames (hdb.serviceState_ref y hy).1,
      h.mem_challenges (hdb.serviceState_ref y hy).2⟩

theorem activeTeams (h : SameData s db) (hactive : ∀ team ∈ db.teams, team.active = true) :
    db.activeTeams.Perm s.teamNames.pairs := by
  have hall : db.teams.filter (·.active) = db.teams := List.filter_eq_self.mpr hactive
  rw [Database.activeTeams, hall]
  exact ((List.perm_insertionSort _ _).map _).trans h.teams

/-- Both lists of challenges are in the order of the ids. -/
theorem orderedChallenges (h : SameData s db) (hdb : db.Constraints) :
    db.orderedChallenges = s.challengeList := by
  have hids : (db.orderedChallenges.map (·.1)).Nodup :=
    Database.map_fst_orderedChallenges.nodup_iff.mpr hdb.challenges
  have hlist : (s.challenges.pairs.map fun c => (c.1, c.2.name)).Perm s.challengeList := by
    have hpairs : (s.challenges.pairs.map fun c => (c.1, c.2.name))
        = s.challenges.keys.map fun id => (id, (s.challenges.get id { name := "" }).name) := by
      rw [← Go.Map.map_fst_pairs, List.map_map]
      refine List.map_congr_left fun c hc => ?_
      rw [Function.comp_apply, Go.Map.get, Go.Map.mem_pairs.mp hc, Option.getD_some]
    rw [hpairs]
    exact (List.perm_insertionSort _ _).symm.map _
  have hsorted : db.orderedChallenges.Pairwise fun x y => x.1 ≤ y.1 :=
    List.pairwise_map.mpr (List.pairwise_insertionSort _ _)
  have hsorted' : s.challengeList.Pairwise fun x y => x.1 ≤ y.1 :=
    List.pairwise_map.mpr (List.pairwise_insertionSort _ _)
  exact Go.Runtime.eq_of_key_sorted
    (((List.perm_insertionSort _ _).map _).trans (h.challenges.trans hlist))
    (fun x hx y hy hkey => List.inj_on_of_nodup_map hids hx hy hkey) hsorted hsorted'

variable [Field K]

theorem contest (h : SameData s db) (hactive : ∀ team ∈ db.teams, team.active = true)
    (hcanonical : ∀ x ∈ db.checkerServiceStates, CanonicalState x.serviceState) :
    db.contest.Same s.contest := by
  refine ⟨(h.activeTeams hactive).length_eq, ?_, ?_, ?_⟩
  · have hperm := h.submittedFlags.map fun x : String × Int =>
      ({ flag := x.1, team := x.2, challenge := (db.issuedChallenge x.1).getD 0 } : Capture)
    simp only [List.map_map, Function.comp_def, SubmittedFlag.key] at hperm
    simp only [Database.contest, MemoryGameStore.contest, h.challenge_of_flag]
    exact hperm
  · have hperm := h.issuedFlags.map fun x : String × IssuedFlagRecord =>
      ({ flag := x.2.flag, owner := x.2.ownerTeamID, challenge := x.2.challengeID } : OwnedFlag)
    rw [List.map_map] at hperm
    exact hperm
  · have hperm := h.serviceStates.map fun x : CheckerRunGroupKey × String =>
      ({ team := x.1.teamID, challenge := x.1.challengeID
         value := faustSLAValueForStatus x.2 } : StateValue K)
    rw [List.map_map, List.map_map] at hperm
    have hvalues : db.contest.states = db.checkerServiceStates.map fun x =>
        { team := x.key.teamID, challenge := x.key.challengeID
          value := faustSLAValueForStatus x.serviceState } :=
      List.map_congr_left fun x hx => by rw [stateValue_eq (hcanonical x hx)]
    rw [hvalues]
    exact hperm

end SameData

/-- On the same data, with active teams of distinct names, every submitted flag issued and
canonical states, both stores compute the same ranked rows. -/
theorem scoreboards_agree [Field K] [LinearOrder K] (M : FaustMath K) (s : MemoryGameStore K)
    (db : Database K) (hdb : db.Constraints) (hsame : SameData s db)
    (hactive : ∀ team ∈ db.teams, team.active = true) (hnames : (db.teams.map (·.name)).Nodup)
    (hissued : ∀ x ∈ db.submittedFlags, x.flag ∈ db.issuedFlags.map (·.flag))
    (hcanonical : ∀ x ∈ db.checkerServiceStates, CanonicalState x.serviceState)
    (rt rt' : Go.Runtime) :
    ∃ rows, MemoryGameStore.recomputeScoreboardLocked rt M s
        = some ({ s with scoreboard := rows }, rows) ∧
      rows.map ScoreRow.undelta = (db.buildScoreboard rt' M).map ScoreRow.undelta := by
  have hs := hsame.references hdb hissued
  obtain ⟨rows, hrows, heq⟩ := MemoryGameStore.recompute_eq rt M hs
  refine ⟨_, heq, ?_⟩
  have hmemory := MemoryGameStore.placed_isScoreboard rt hrows
  have hpostgres := (db.scoreQueries M).result_isScoreboard rt'
  have hreference : (MemoryGameStore.referenceRows M s).Perm
      (db.activeTeams.map fun team => ((db.scoreQueries M).snapshot team).row) := by
    have hrow : ∀ team, ((db.scoreQueries M).snapshot team).row
        = s.contest.teamRow M team.1 team.2 s.challengeList := fun team => by
      rw [Database.snapshot_eq hdb hissued, hsame.orderedChallenges hdb,
        (hsame.contest hactive hcanonical).teamRow]
    simp only [hrow]
    exact ((hsame.activeTeams hactive).map _).symm
  refine hmemory.unique hpostgres hreference ?_
  have hteams :
      ((MemoryGameStore.referenceRows M s).map (·.team)) = s.teamNames.pairs.map (·.2) := by
    rw [MemoryGameStore.referenceRows, List.map_map]
    rfl
  rw [hteams, ← (hsame.teams.map Prod.snd).nodup_iff, List.map_map]
  exact hnames

/-- A capture, and a tick in which one service was up. -/
def playedTick : MemoryGameStore ℚ := { MemoryGameStore.oneCapture with
  serviceStates := Go.Map.fill (·.1) (·.2)
    [({ tickID := 1, teamID := 1, challengeID := 1 }, { status := "ok", tickID := 1 })] ∅ }

/-- The tables of `playedTick`. -/
def playedTables : Database ℚ where
  teams :=
    [{ id := 1, name := "Alpha" }, { id := 2, name := "Delta" }, { id := 3, name := "Sigma" },
    { id := 4, name := "Orchid" }]
  challenges := [{ id := 1, name := "banking" }, { id := 2, name := "chat" }]
  issuedFlags := [{ IssuedFlagRecord.zero with flag := "f", ownerTeamID := 2, challengeID := 1 }]
  submittedFlags := [{ flag := "f", teamID := 1, submittedAt := 0 }]
  checkerServiceStates :=
    [{ key := { tickID := 1, teamID := 1, challengeID := 1 }, serviceState := "ok" }]

theorem scoreboards_agree_playedTick :
    ∃ rows, MemoryGameStore.recomputeScoreboardLocked .inOrder squareMath playedTick
        = some ({ playedTick with scoreboard := rows }, rows) ∧
      rows.map ScoreRow.undelta
        = (playedTables.buildScoreboard .inOrder squareMath).map ScoreRow.undelta := by
  refine scoreboards_agree squareMath playedTick playedTables ?_ ?_ (by decide) (by decide)
    (by decide) ?_ _ _
  · constructor <;> decide
  · constructor <;> decide
  · intro x hx
    rw [List.mem_singleton.mp hx]
    decide +kernel

end ADPlatform.GameCore
