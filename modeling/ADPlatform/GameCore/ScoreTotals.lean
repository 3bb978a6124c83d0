import ADPlatform.GameCore.PostgresScoreboard

/-! # Team totals and service rows of the postgres scoreboard

A team's defense and SLA scores are always the sums of its service rows. Its attack score is the
sum of its service rows just if every flag that it has submitted is still issued: the deletion of a
challenge, or of the team that owns a flag, removes the flag and keeps its submissions. -/

namespace ADPlatform.GameCore
open Ledger

variable {K : Type} [Field K]

namespace ScoreQueries

/-- The rows of a result are its snapshots, sorted and ranked. -/
theorem result_isScoreboard [LinearOrder K] (rt : Go.Runtime) (q : ScoreQueries K) :
    IsScoreboard (q.teams.map fun team => (q.snapshot team).row) (q.result rt) := by
  have h : IsScoreboard ((q.teams.map q.snapshot).map TeamScoreSnapshot.row)
      ((q.scoreboard rt).mapIdx q.resultRow) :=
    isScoreboard_mapIdx rt (fun _ _ => rfl) (fun _ _ => rfl) fun _ _ => rfl
  rw [List.map_map] at h
  exact h

end ScoreQueries

namespace Database
variable {db : Database K} (M : FaustMath K)

omit [Field K] in
theorem map_fst_orderedChallenges : (db.orderedChallenges.map (·.1)).Perm db.challengeIDs := by
  rw [orderedChallenges, List.map_map]
  exact (List.perm_insertionSort _ _).map _

/-- A sum over the rows of a table splits along the challenges. -/
theorem sum_orderedChallenges (hdb : db.Constraints) {ρ : Type} {l : List ρ} {p : ρ → Prop}
    [DecidablePred p] {k : ρ → Int} {v : ρ → K}
    (h : ∀ r ∈ l, p r → k r ∈ db.challengeIDs) :
    (db.orderedChallenges.map fun c => sumWhere l (fun r => p r ∧ k r = c.1) v).sum
      = sumWhere l p v := by
  have hids : (db.orderedChallenges.map (·.1)).Perm db.challengeIDs := map_fst_orderedChallenges
  rw [← sum_sumWhere (hids.nodup_iff.mpr hdb.challenges) fun r hr hp =>
    hids.mem_iff.mpr (h r hr hp),
    List.map_map]
  rfl

variable (team : Int × String)

theorem sum_services_defense (hdb : db.Constraints) :
    ((db.orderedChallenges.map ((db.scoreQueries M).serviceScore team.1)).map (·.defense)).sum
      = ((db.scoreQueries M).snapshot team).defense := by
  simp only [List.map_map, Function.comp_def, serviceScore_defense, snapshot_defense]
  rw [sum_map_neg, sum_orderedChallenges hdb fun f hf _ => (hdb.issuedFlag_ref f hf).2]

theorem sum_services_sla (hdb : db.Constraints) :
    ((db.orderedChallenges.map ((db.scoreQueries M).serviceScore team.1)).map (·.sla)).sum
      = ((db.scoreQueries M).snapshot team).sla := by
  simp only [List.map_map, Function.comp_def, serviceScore_sla, snapshot_sla]
  rw [List.sum_map_mul_right, sum_orderedChallenges hdb fun x hx _ => (hdb.serviceState_ref x hx).2]

omit [Field K] in
theorem exists_issuedChallenge (hdb : db.Constraints) {flag : String}
    (h : flag ∈ db.issuedFlags.map (·.flag)) :
    ∃ challenge ∈ db.challengeIDs, db.issuedChallenge flag = some challenge := by
  obtain ⟨f, hf, hflag⟩ := List.mem_map.mp h
  obtain ⟨g, hg⟩ : ∃ g, db.issuedFlags.find? (·.flag = flag) = some g :=
    Option.isSome_iff_exists.mp (List.find?_isSome.mpr ⟨f, hf, by simpa using hflag⟩)
  refine ⟨g.challengeID, (hdb.issuedFlag_ref g (List.mem_of_find?_eq_some hg)).2, ?_⟩
  rw [issuedChallenge, hg, Option.map_some]

omit [Field K] in
theorem issued_of_issuedChallenge {flag : String} {challenge : Int}
    (h : db.issuedChallenge flag = some challenge) : flag ∈ db.issuedFlags.map (·.flag) := by
  obtain ⟨f, hf, -⟩ := Option.map_eq_some_iff.mp h
  have hflag : f.flag = flag := by simpa using List.find?_some hf
  exact hflag ▸ List.mem_map_of_mem (List.mem_of_find?_eq_some hf)

/-- The service rows add up to the submissions of flags that are issued. -/
theorem sum_services_attack (hdb : db.Constraints) :
    ((db.orderedChallenges.map ((db.scoreQueries M).serviceScore team.1)).map (·.attack)).sum
      = sumWhere db.submittedFlags
        (fun x => x.teamID = team.1 ∧ x.flag ∈ db.issuedFlags.map (·.flag)) db.captureValue := by
  simp only [List.map_map, Function.comp_def, serviceScore_attack M hdb]
  rw [← sum_orderedChallenges hdb (k := fun x => (db.issuedChallenge x.flag).getD 0)]
  · refine congrArg List.sum (List.map_congr_left fun c _ => sumWhere_congr fun x _ => ⟨?_, ?_⟩)
    · constructor
      · rintro ⟨hteam, hc⟩
        exact ⟨⟨hteam, issued_of_issuedChallenge hc⟩, by rw [hc, Option.getD_some]⟩
      · rintro ⟨⟨hteam, hissued⟩, hc⟩
        obtain ⟨challenge, -, heq⟩ := exists_issuedChallenge hdb hissued
        exact ⟨hteam, by rw [heq, ← hc, heq, Option.getD_some]⟩
    · exact fun _ => rfl
  · rintro x - ⟨-, hissued⟩
    obtain ⟨challenge, hchallenge, heq⟩ := exists_issuedChallenge hdb hissued
    rw [heq, Option.getD_some]
    exact hchallenge

variable [LinearOrder K] [IsStrictOrderedRing K]

/-- A snapshot has the sums of its services just if all flags of its team are issued. -/
theorem snapshot_sums_iff (hdb : db.Constraints) :
    SumsServices ((db.scoreQueries M).snapshot team).row ↔
      ∀ x ∈ db.submittedFlags, x.teamID = team.1 → x.flag ∈ db.issuedFlags.map (·.flag) := by
  have hpos : ∀ x ∈ db.submittedFlags, 0 < db.captureValue x := fun x _ => by
    unfold captureValue
    positivity
  have hattack := sum_services_attack M team hdb
  have hdefense := sum_services_defense M team hdb
  have hsla := sum_services_sla M team hdb
  rw [← sumWhere_and_eq_iff hpos, ← hattack, ← snapshot_attack M team]
  constructor
  · exact fun h => h.attack.symm
  · intro h
    refine ⟨h.symm, hdefense.symm, hsla.symm, ?_⟩
    simp only [List.map_map] at h hdefense hsla
    calc ((db.scoreQueries M).snapshot team).total
        = _ := by rw [TeamScoreSnapshot.total, ← h, ← hdefense, ← hsla]
      _ = (db.orderedChallenges.map fun c =>
            ((db.scoreQueries M).serviceScore team.1 c).attack +
            ((db.scoreQueries M).serviceScore team.1 c).defense +
            ((db.scoreQueries M).serviceScore team.1 c).sla).sum := by
          rw [List.sum_map_add, List.sum_map_add]
          rfl
      _ = _ := by
          rw [show ((db.scoreQueries M).snapshot team).row.services
            = db.orderedChallenges.map ((db.scoreQueries M).serviceScore team.1) from rfl,
            List.map_map]
          rfl

variable {M}

/-- The totals of a scoreboard are the sums of its service rows just if every flag that an active
team has submitted is issued. -/
theorem buildScoreboard_sums_iff (rt : Go.Runtime) (hdb : db.Constraints) :
    (∀ row ∈ db.buildScoreboard rt M, SumsServices row) ↔
      ∀ x ∈ db.submittedFlags, x.teamID ∈ db.activeTeams.map (·.1) →
        x.flag ∈ db.issuedFlags.map (·.flag) := by
  have hboard := (db.scoreQueries M).result_isScoreboard rt
  rw [buildScoreboard, hboard.forall_sums, List.forall_mem_map]
  constructor
  · intro h x hx hteam
    obtain ⟨team, hteam, heq⟩ := List.mem_map.mp hteam
    exact (snapshot_sums_iff M team hdb).mp (h team hteam) x hx heq.symm
  · intro h team hteam
    refine (snapshot_sums_iff M team hdb).mpr fun x hx heq => h x hx ?_
    exact heq ▸ List.mem_map_of_mem hteam

end Database

/-! ## Runs of transactions -/

/-- The transaction leaves no submission behind without its flag: a deletion removes no flag that
has been submitted, and the flag of an accepted submission is issued. -/
def Transaction.Spares (db : Database K) : Transaction K → Prop
  | .deleteAdminTeam teamID => ∀ f ∈ db.issuedFlags, f.ownerTeamID = teamID →
      f.flag ∉ db.submittedFlags.map (·.flag)
  | .deleteAdminChallenge challengeID => ∀ f ∈ db.issuedFlags, f.challengeID = challengeID →
      f.flag ∉ db.submittedFlags.map (·.flag)
  | .acceptFlagSubmission x => x.flag ∈ db.issuedFlags.map (·.flag)
  | _ => True

namespace Database
variable {db : Database K} {crypto : Crypto}

/-- Every transaction of a run spares the submitted flags. -/
def RunSpares (crypto : Crypto) : Database K → List (Transaction K) → Prop
  | _, [] => True
  | db, t :: ts => t.Spares db ∧ RunSpares crypto (t.exec crypto db) ts

/-- Every submitted flag is issued. -/
def AllIssued (db : Database K) : Prop :=
  ∀ x ∈ db.submittedFlags, x.flag ∈ db.issuedFlags.map (·.flag)

theorem AllIssued.exec (h : db.AllIssued) (t : Transaction K) (ht : t.Spares db) :
    (t.exec crypto db).AllIssued := by
  cases t with
  | createAdminTeam teamID rank name =>
    simp only [Transaction.exec, createAdminTeam]
    split <;> exact h
  | createAdminChallenge challengeID name =>
    simp only [Transaction.exec, createAdminChallenge]
    split <;> exact h
  | deleteAdminTeam teamID =>
    intro x hx
    obtain ⟨f, hf, hflag⟩ := List.mem_map.mp (h x (List.mem_of_mem_filter hx))
    refine List.mem_map.mpr ⟨f, List.mem_filter.mpr ⟨hf, ?_⟩, hflag⟩
    have hmem := List.mem_map_of_mem (f := (·.flag)) (List.mem_of_mem_filter hx)
    simpa using fun howner => ht f hf howner (hflag ▸ hmem)
  | deleteAdminChallenge challengeID =>
    intro x hx
    obtain ⟨f, hf, hflag⟩ := List.mem_map.mp (h x hx)
    refine List.mem_map.mpr ⟨f, List.mem_filter.mpr ⟨hf, ?_⟩, hflag⟩
    have hmem := List.mem_map_of_mem (f := (·.flag)) hx
    simpa using fun hchallenge => ht f hf hchallenge (hflag ▸ hmem)
  | setTeamActive | updateChallengePlay | startNextTick | completeTick | saveMatchState => exact h
  | issueFlag flag =>
    simp only [Transaction.exec, issueFlag]
    split
    · intro x hx
      obtain ⟨f, hf, hflag⟩ := List.mem_map.mp (h x hx)
      exact List.mem_map.mpr ⟨f, Table.mem_insertNew_of_mem hf, hflag⟩
    · exact h
  | saveServiceState state =>
    simp only [Transaction.exec, saveServiceState]
    split <;> exact h
  | acceptFlagSubmission x =>
    simp only [Transaction.exec]
    rcases acceptFlagSubmission_cases db crypto x with heq | ⟨row, hflag, -, -, -, e, heq⟩
    · rw [heq]
      exact h
    · rw [heq]
      intro y hy
      rcases List.mem_append.mp hy with hy | hy
      · exact h y hy
      · rw [List.mem_singleton.mp hy, hflag]
        exact ht
  | saveScoreboard entries =>
    simp only [Transaction.exec, saveScoreboard]
    split <;> exact h

theorem AllIssued.run (h : db.AllIssued) {ts : List (Transaction K)}
    (hts : db.RunSpares crypto ts) : (db.run crypto ts).AllIssued := by
  induction ts generalizing db with
  | nil => exact h
  | cons t ts ih => exact ih (h.exec t hts.1) hts.2

omit [Field K] in
theorem empty_constraints : ({} : Database K).Constraints := by
  constructor <;> simp [teamIDs, challengeIDs]

end Database

/-- After every run of transactions, the totals of the scoreboard are the sums of its service rows
just if every flag that an active team has submitted is still issued; this is so in every run in
which no transaction removes or bypasses a submitted flag. -/
theorem totals_sum_services [LinearOrder K] [IsStrictOrderedRing K] (rt : Go.Runtime)
    (M : FaustMath K) (crypto : Crypto) (ts : List (Transaction K)) :
    let db := ({} : Database K).run crypto ts
    ((∀ row ∈ db.buildScoreboard rt M, SumsServices row) ↔
      ∀ x ∈ db.submittedFlags, x.teamID ∈ db.activeTeams.map (·.1) →
        x.flag ∈ db.issuedFlags.map (·.flag)) ∧
    (({} : Database K).RunSpares crypto ts →
      ∀ row ∈ db.buildScoreboard rt M, SumsServices row) := by
  intro db
  have hdb : db.Constraints := Database.empty_constraints.run ts
  have hiff := Database.buildScoreboard_sums_iff (M := M) rt hdb
  refine ⟨hiff, fun hts => hiff.mpr fun x hx _ => ?_⟩
  have hstart : ({} : Database K).AllIssued := nofun
  exact hstart.run hts x hx

/-- Four teams, a tick and a flag of the second team. -/
def issueRun : List (Transaction ℚ) :=
  [.createAdminTeam 1 1 "Alpha", .createAdminTeam 2 2 "Delta", .createAdminTeam 3 3 "Sigma",
    .createAdminTeam 4 4 "Orchid", .createAdminChallenge 1 "banking", .startNextTick 0,
    .issueFlag { IssuedFlagRecord.zero with
      flag := "f", ownerTeamID := 2, challengeID := 1, issuedTick := 1, expiresTick := 1 },
    .saveMatchState .running]

/-- The capture of the flag by the first team. -/
def captureFlag : AcceptedFlagSubmission where
  flag := "f"
  submittingTeam := 1
  attackerName := "Alpha"
  victimName := "Delta"
  challengeName := "banking"
  challengeID := 1
  submissionTick := 1
  expiresTick := 1
  submittedAt := 0

/-- A flag is issued and captured. -/
def captureRun : List (Transaction ℚ) := issueRun ++ [.acceptFlagSubmission captureFlag]

/-- A crypto that is never looked at. -/
def noCrypto : Crypto where
  hmac _ _ := []
  sha256 _ := []

theorem totals_sum_services_captureRun :
    ({} : Database ℚ).RunSpares noCrypto captureRun ∧
      ∀ row ∈ (({} : Database ℚ).run noCrypto captureRun).buildScoreboard .inOrder squareMath,
        SumsServices row := by
  have hrun : ({} : Database ℚ).RunSpares noCrypto captureRun :=
    ⟨trivial, trivial, trivial, trivial, trivial, trivial, trivial, trivial,
      List.mem_singleton_self "f", trivial⟩
  exact ⟨hrun, (totals_sum_services _ squareMath noCrypto captureRun).2 hrun⟩

/-- Without the condition the totals differ: the challenge of a captured flag is deleted. -/
theorem totals_differ_after_deletion :
    ¬ ∀ (rt : Go.Runtime) (crypto : Crypto) (ts : List (Transaction ℚ)),
      ∀ row ∈ (({} : Database ℚ).run crypto ts).buildScoreboard rt squareMath,
        SumsServices row := by
  intro h
  have hrows := h .inOrder noCrypto
    (captureRun ++ [.deleteAdminChallenge 1])
  have hattack := fun row hrow => (hrows row hrow).attack
  revert hattack
  decide +kernel

end ADPlatform.GameCore
