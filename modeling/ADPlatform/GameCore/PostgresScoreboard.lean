import ADPlatform.GameCore.Tables

/-! # The scoreboard of the postgres store

The queries of `buildScoreboard`, each a list of rows over the tables, and the rows that it makes
of their results. Team scores and service scores come from different queries: a team's attack score
counts its submitted flags, and the attack score of a service only those that are still issued. -/

namespace ADPlatform.GameCore
open Ledger

/-- A submitted flag with `COUNT(*) OVER (PARTITION BY sf.flag)`. -/
structure RankedSubmission where
  flag : String
  teamID : Int
  captureCount : Nat

/-- The results of the queries. -/
structure ScoreQueries (K : Type) where
  teams : List (Int × String) := []
  previousRanks : List (Int × Nat) := []
  attackByTeam : List (Int × K) := []
  defenseByTeam : List (Int × K) := []
  slaByTeam : List (Int × K) := []
  attackByTeamService : List ((Int × Int) × K) := []
  slaByTeamService : List ((Int × Int) × K) := []
  defenseByTeamService : List ((Int × Int) × K) := []
  challenges : List (Int × String) := []

namespace Database
variable {K : Type} (db : Database K)

/-- `SELECT id, name FROM teams WHERE active = TRUE ORDER BY id`. -/
def activeTeams : List (Int × String) :=
  ((db.teams.filter (·.active)).insertionSort fun a b => a.id ≤ b.id).map fun t => (t.id, t.name)

/-- `SELECT id, name FROM challenges ORDER BY id`. -/
def orderedChallenges : List (Int × String) :=
  (db.challenges.insertionSort fun a b => a.id ≤ b.id).map fun c => (c.id, c.name)

/-- `SELECT team_id, rank FROM scoreboard_entries`. -/
def storedRanks : List (Int × Nat) := db.scoreboardEntries.map fun x => (x.teamID, x.rank)

/-- How many teams have submitted the flag. -/
def captureCount (flag : String) : Nat := db.submittedFlags.countP (·.flag = flag)

/-- The submissions with their flags' counts. -/
def rankedSubmissions : List RankedSubmission :=
  db.submittedFlags.map fun x =>
    { flag := x.flag, teamID := x.teamID, captureCount := db.captureCount x.flag }

/-- `SELECT flag, COUNT(*) FROM submitted_flags GROUP BY flag`. -/
def captures : List (String × Nat) := groupSum (·.flag) (fun _ => 1) db.submittedFlags

/-- `rankedSubmissions JOIN issued_flags`. -/
def issuedSubmissions : List (RankedSubmission × IssuedFlagRecord) :=
  db.rankedSubmissions.flatMap fun x =>
    (db.issuedFlags.filter fun f => f.flag = x.flag).map fun f => (x, f)

variable [Field K] (M : FaustMath K)

/-- A flag is worth more the fewer teams have captured it. -/
def submissionValue (x : RankedSubmission) : K := 1 + 1 / (x.captureCount : K)

/-- The summand of an issued flag, from the row of `captures` that the join finds. -/
def lossValue (f : IssuedFlagRecord) : K :=
  match db.captures.find? (·.1 = f.flag) with
  | some (_, captureCount) => if captureCount > 0 then M.pow075 captureCount else 0
  | none => 0

/-- The query spells out the values of a service state, `0.5` for a recovering one. -/
def stateValue (x : CheckerServiceState) : K :=
  if x.serviceState = "ok" then 1
  else if x.serviceState = "recovering" then faustRecoveringValue
  else 0

/-- The query `attackByTeam`: every submission counts. -/
def attackByTeam : List (Int × K) := groupSum (·.teamID) submissionValue db.rankedSubmissions

/-- The query `defenseByTeam`. -/
def defenseByTeam : List (Int × K) :=
  (groupSum (·.ownerTeamID) (db.lossValue M) db.issuedFlags).map fun row => (row.1, -row.2)

/-- The query `slaByTeam`. -/
def slaByTeam (slaFactor : K) : List (Int × K) :=
  (groupSum (·.key.teamID) stateValue db.checkerServiceStates).map fun row =>
    (row.1, row.2 * slaFactor)

/-- The query `attackByTeamService`: only submissions of issued flags count. -/
def attackByTeamService : List ((Int × Int) × K) :=
  groupSum (fun (x, f) => (x.teamID, f.challengeID)) (fun (x, _) => submissionValue x)
    db.issuedSubmissions

/-- The query `slaByTeamService`. -/
def slaByTeamService (slaFactor : K) : List ((Int × Int) × K) :=
  (groupSum (fun x => (x.key.teamID, x.key.challengeID)) stateValue db.checkerServiceStates).map
    fun row => (row.1, row.2 * slaFactor)

/-- The query `defenseByTeamService`. -/
def defenseByTeamService : List ((Int × Int) × K) :=
  (groupSum (fun f => (f.ownerTeamID, f.challengeID)) (db.lossValue M) db.issuedFlags).map
    fun row => (row.1, -row.2)

/-- All queries at one state of the tables. -/
def scoreQueries : ScoreQueries K where
  teams := db.activeTeams
  previousRanks := db.storedRanks
  attackByTeam := db.attackByTeam
  defenseByTeam := db.defenseByTeam M
  slaByTeam := db.slaByTeam (faustSLAFactor M db.activeTeams.length)
  attackByTeamService := db.attackByTeamService
  slaByTeamService := db.slaByTeamService (faustSLAFactor M db.activeTeams.length)
  defenseByTeamService := db.defenseByTeamService M
  challenges := db.orderedChallenges

end Database

/-! ## The rows -/

/-- `teamScoreSnapshot`. -/
structure TeamScoreSnapshot (K : Type) where
  teamID : Int
  team : String
  attack : K
  defense : K
  sla : K
  services : List (ServiceScoreBreakdown K)

/-- The sum that the board is ordered by. -/
def TeamScoreSnapshot.total {K : Type} [Field K] (x : TeamScoreSnapshot K) : K :=
  x.attack + x.defense + x.sla

/-- `sumFloatByTeam`, behind its query. -/
def sumFloatByTeam {K : Type} (rows : List (Int × K)) : Go.Map Int K := .fill (·.1) (·.2) rows ∅

/-- `sumFloatByTeamAndChallenge`, behind its query. -/
def sumFloatByTeamAndChallenge {K : Type} (rows : List ((Int × Int) × K)) :
    Go.Map Int (Go.Map Int K) :=
  rows.foldl (fun result row =>
    result.insert row.1.1 ((result.get row.1.1 ∅).insert row.1.2 row.2)) ∅

/-- `nestedFloat`: 0 for what is missing. -/
def nestedFloat {K : Type} [Zero K] (values : Go.Map Int (Go.Map Int K))
    (teamID challengeID : Int) : K :=
  match values.lookup teamID with
  | some byChallenge => byChallenge.get challengeID 0
  | none => 0

namespace ScoreQueries
variable {K : Type} [Field K] (q : ScoreQueries K)

/-- The row of one service of a team. -/
def serviceScore (teamID : Int) (challenge : Int × String) : ServiceScoreBreakdown K :=
  let attack := nestedFloat (sumFloatByTeamAndChallenge q.attackByTeamService) teamID challenge.1
  let defense := nestedFloat (sumFloatByTeamAndChallenge q.defenseByTeamService) teamID challenge.1
  let sla := nestedFloat (sumFloatByTeamAndChallenge q.slaByTeamService) teamID challenge.1
  { challengeID := challenge.1, service := challenge.2, attack, defense, sla
    total := attack + defense + sla }

/-- The team's row of every query; a missing one is 0. -/
def snapshot (team : Int × String) : TeamScoreSnapshot K where
  teamID := team.1
  team := team.2
  attack := (sumFloatByTeam q.attackByTeam).get team.1 0
  defense := (sumFloatByTeam q.defenseByTeam).get team.1 0
  sla := (sumFloatByTeam q.slaByTeam).get team.1 0
  services := q.challenges.map (q.serviceScore team.1)

end ScoreQueries

/-- The part of a snapshot that the order looks at. -/
def TeamScoreSnapshot.standing {K : Type} [Field K] (x : TeamScoreSnapshot K) : Standing K :=
  { total := x.total, attack := x.attack, defense := x.defense, team := x.team }

/-- The row of a snapshot, before it is ranked. -/
def TeamScoreSnapshot.row {K : Type} [Field K] (x : TeamScoreSnapshot K) : ScoreRow K where
  rank := 0
  team := x.team
  attack := x.attack
  defense := x.defense
  sla := x.sla
  total := x.total
  delta := ""
  services := x.services

namespace ScoreQueries
variable {K : Type} [Field K] [LinearOrder K] (rt : Go.Runtime) (q : ScoreQueries K)

/-- The sorted scoreboard. -/
def scoreboard : List (TeamScoreSnapshot K) :=
  rt.sortSlice (fun x y => x.standing.before y.standing) (q.teams.map q.snapshot)

/-- The row of the snapshot at an index. -/
def resultRow (index : Nat) (x : TeamScoreSnapshot K) : ScoreRow K :=
  { x.row with
    rank := index + 1
    delta := rankDelta ((Go.Map.fill (·.1) (·.2) q.previousRanks ∅ : Go.Map Int Nat).get x.teamID 0)
      (index + 1) }

/-- The rows that are written back. -/
def result : List (ScoreRow K) := (q.scoreboard rt).mapIdx q.resultRow

/-- The entry of the snapshot at an index. -/
def entry (index : Nat) (x : TeamScoreSnapshot K) : ScoreboardEntry K :=
  let row := q.resultRow index x
  { teamID := x.teamID, rank := row.rank, teamName := row.team, attackPoints := row.attack
    defensePoints := row.defense, slaPoints := row.sla, totalPoints := row.total
    delta := row.delta }

/-- The entries of the write transaction. -/
def entries : List (ScoreboardEntry K) := (q.scoreboard rt).mapIdx q.entry

end ScoreQueries

/-- `buildScoreboard` while nothing else changes the tables. -/
def Database.buildScoreboard {K : Type} [Field K] [LinearOrder K] (rt : Go.Runtime)
    (M : FaustMath K) (db : Database K) : List (ScoreRow K) := (db.scoreQueries M).result rt

/-! ## What the queries sum up -/

theorem nestedFloat_insert {K : Type} [Zero K] (values : Go.Map Int (Go.Map Int K))
    (team challenge : Int) (value : K) (t c : Int) :
    nestedFloat (values.insert team ((values.get team ∅).insert challenge value)) t c
      = if (t, c) = (team, challenge) then value else nestedFloat values t c := by
  unfold nestedFloat
  by_cases ht : t = team
  · subst ht
    rw [AList.lookup_insert]
    dsimp only
    rw [Go.Map.get_insert]
    by_cases hc : c = challenge
    · simp [hc]
    · simp only [hc, if_false, Prod.mk.injEq, and_false]
      unfold Go.Map.get
      cases values.lookup t <;> rfl
  · rw [AList.lookup_insert_ne ht, if_neg fun h => ht (Prod.mk.inj h).1]

theorem nestedFloat_foldl {K : Type} [Zero K] {rows : List ((Int × Int) × K)}
    {result : Go.Map Int (Go.Map Int K)} {flat : Go.Map (Int × Int) K}
    (h : ∀ t c, nestedFloat result t c = flat.get (t, c) 0) (t c : Int) :
    nestedFloat (rows.foldl (fun result row =>
        result.insert row.1.1 ((result.get row.1.1 ∅).insert row.1.2 row.2)) result) t c
      = (Go.Map.fill (·.1) (·.2) rows flat).get (t, c) 0 := by
  induction rows generalizing result flat with
  | nil => exact h t c
  | cons row rows ih =>
    refine ih fun t c => ?_
    rw [nestedFloat_insert, Go.Map.get_insert, h]

variable {K : Type} [Field K]

/-- The nested map holds what a flat one would. -/
theorem nestedFloat_eq (rows : List ((Int × Int) × K)) (t c : Int) :
    nestedFloat (sumFloatByTeamAndChallenge rows) t c
      = (Go.Map.fill (·.1) (·.2) rows ∅ : Go.Map (Int × Int) K).get (t, c) 0 :=
  nestedFloat_foldl (fun _ _ => rfl) t c

namespace Database
variable (db : Database K) (M : FaustMath K)

/-- What a submission is worth. -/
def captureValue (x : SubmittedFlag) : K := 1 + 1 / (db.captureCount x.flag : K)

/-- The challenge of an issued flag. -/
def issuedChallenge (flag : String) : Option Int :=
  (db.issuedFlags.find? (·.flag = flag)).map (·.challengeID)

variable {db}

theorem snapshot_attack (team : Int × String) : ((db.scoreQueries M).snapshot team).attack
    = sumWhere db.submittedFlags (·.teamID = team.1) db.captureValue := by
  refine (get_fill_groupSum_id team.1).trans ?_
  rw [rankedSubmissions, sumWhere_map]
  rfl

omit [Field K] in
theorem captures_find (flag : String) : db.captures.find? (·.1 = flag)
    = if db.captureCount flag = 0 then none else some (flag, db.captureCount flag) := by
  have hmem : flag ∈ db.submittedFlags.map (·.flag) ↔ db.captureCount flag ≠ 0 := by
    simp [captureCount, List.countP_eq_zero]
  rw [captures, find?_groupSum, sumWhere_one]
  by_cases h : db.captureCount flag = 0
  · rw [if_neg fun hflag => hmem.mp hflag h, if_pos h]
  · rw [if_pos (hmem.mpr h), if_neg h, captureCount]

theorem lossValue_eq :
    db.lossValue M = fun f => faustDefensePenalty M (db.captureCount f.flag) := by
  funext f
  rw [lossValue, captures_find, faustDefensePenalty]
  by_cases h : db.captureCount f.flag = 0
  · simp [h]
  · simp [h, Nat.pos_of_ne_zero h]

theorem snapshot_defense (team : Int × String) : ((db.scoreQueries M).snapshot team).defense
    = -sumWhere db.issuedFlags (·.ownerTeamID = team.1) fun f =>
      faustDefensePenalty M (db.captureCount f.flag) := by
  refine (get_fill_groupSum neg_zero team.1).trans ?_
  rw [lossValue_eq]

theorem snapshot_sla (team : Int × String) : ((db.scoreQueries M).snapshot team).sla
    = sumWhere db.checkerServiceStates (·.key.teamID = team.1) stateValue
      * faustSLAFactor M db.activeTeams.length :=
  get_fill_groupSum (g := (· * faustSLAFactor M db.activeTeams.length)) (zero_mul _) team.1

theorem serviceScore_defense (team : Int) (challenge : Int × String) :
    ((db.scoreQueries M).serviceScore team challenge).defense
      = -sumWhere db.issuedFlags (fun f => f.ownerTeamID = team ∧ f.challengeID = challenge.1)
        fun f => faustDefensePenalty M (db.captureCount f.flag) := by
  refine (nestedFloat_eq _ _ _).trans ((get_fill_groupSum neg_zero _).trans ?_)
  simp only [lossValue_eq M, Prod.mk.injEq]

/-- The attack score of a service counts the submissions whose flag is issued for it. -/
theorem serviceScore_attack (hdb : db.Constraints) (team : Int) (challenge : Int × String) :
    ((db.scoreQueries M).serviceScore team challenge).attack
      = sumWhere db.submittedFlags
        (fun x =>
          x.teamID = team ∧ db.issuedChallenge x.flag = some challenge.1) db.captureValue := by
  refine (nestedFloat_eq _ _ _).trans ((get_fill_groupSum_id _).trans ?_)
  rw [issuedSubmissions, sumWhere_flatMap, rankedSubmissions, List.map_map]
  refine congrArg List.sum (List.map_congr_left fun x _ => ?_)
  simp only [Function.comp_apply, sumWhere_map, Table.filter_key_eq hdb.issuedFlags x.flag,
    issuedChallenge, Prod.mk.injEq]
  rcases Option.eq_none_or_eq_some (db.issuedFlags.find? (·.flag = x.flag)) with hf | ⟨f, hf⟩
  · simp [hf]
  · simp only [hf, Option.toList_some, sumWhere_cons, sumWhere_nil, add_zero, Option.map_some,
      Option.some.injEq]
    rfl

theorem serviceScore_sla (team : Int) (challenge : Int × String) :
    ((db.scoreQueries M).serviceScore team challenge).sla
      = sumWhere db.checkerServiceStates
          (fun x => x.key.teamID = team ∧ x.key.challengeID = challenge.1) stateValue
        * faustSLAFactor M db.activeTeams.length := by
  refine (nestedFloat_eq _ _ _).trans ((get_fill_groupSum
    (g := (· * faustSLAFactor M db.activeTeams.length)) (zero_mul _) _).trans ?_)
  simp only [Prod.mk.injEq]

end Database

end ADPlatform.GameCore
