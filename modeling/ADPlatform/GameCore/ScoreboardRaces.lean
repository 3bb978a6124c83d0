import ADPlatform.GameCore.ScoreTotals
import ADPlatform.GameCore.ScoreboardRecompute

/-! # Races between recomputes, submissions and deactivations

A recompute writes what its queries have read. If recomputes write in the order in which they
began, the stored scoreboard has seen every submission that was committed before the last of them
began; if every team on a recompute's list is still active when it writes, the stored rows are
those of active teams. Neither is ensured by the write transaction. -/

namespace ADPlatform.GameCore
open Concurrent

variable {K : Type} [Field K]

/-! ## The write transaction -/

namespace Database
variable {db : Database K}

/-- The attack query over a list of submissions. -/
def attackOver (T : List SubmittedFlag) : List (Int × K) :=
  ({ submittedFlags := T } : Database K).attackByTeam

/-- The defense query over lists of issued flags and submissions. -/
def defenseOver (M : FaustMath K) (issued : List IssuedFlagRecord) (T : List SubmittedFlag) :
    List (Int × K) :=
  ({ issuedFlags := issued, submittedFlags := T } : Database K).defenseByTeam M

omit [Field K] in
theorem saveScoreboard_frame (entries : List (ScoreboardEntry K)) :
    (db.saveScoreboard entries).teams = db.teams ∧
      (db.saveScoreboard entries).issuedFlags = db.issuedFlags ∧
      (db.saveScoreboard entries).submittedFlags = db.submittedFlags := by
  unfold saveScoreboard
  split <;> exact ⟨rfl, rfl, rfl⟩

omit [Field K] in
theorem mem_activeTeams_fst {team : Int} :
    team ∈ db.activeTeams.map (·.1) ↔ ∃ t ∈ db.teams, t.active = true ∧ t.id = team := by
  simp [activeTeams, and_assoc]

omit [Field K] in
theorem activeTeams_nodup (h : db.teamIDs.Nodup) : (db.activeTeams.map (·.1)).Nodup := by
  rw [activeTeams, List.map_map, ((List.perm_insertionSort _ _).map _).nodup_iff]
  exact Table.nodup_filter h

omit [Field K] in
theorem activeTeams_subset : ∀ team ∈ db.activeTeams.map (·.1), team ∈ db.teamIDs := by
  intro team hteam
  obtain ⟨t, ht, -, rfl⟩ := mem_activeTeams_fst.mp hteam
  exact List.mem_map_of_mem ht

end Database

namespace ScoreQueries
variable [LinearOrder K] {rt : Go.Runtime} {q : ScoreQueries K}

theorem map_teamID_entries (rt : Go.Runtime) (q : ScoreQueries K) :
    ((q.entries rt).map (·.teamID)).Perm (q.teams.map (·.1)) := by
  have hids : (q.entries rt).map (·.teamID) = (q.scoreboard rt).map (·.teamID) :=
    map_mapIdx_of fun _ _ => rfl
  rw [hids, scoreboard]
  refine ((rt.sortSlice_perm _ _).map _).trans ?_
  rw [List.map_map]
  exact .refl _

/-- Every team has an entry with its scores. -/
theorem exists_entry {team : Int × String} (h : team ∈ q.teams) : ∃ e ∈ q.entries rt,
    e.teamID = team.1 ∧ e.attackPoints = (sumFloatByTeam q.attackByTeam).get team.1 0 ∧
      e.defensePoints = (sumFloatByTeam q.defenseByTeam).get team.1 0 := by
  have hmem : q.snapshot team ∈ q.scoreboard rt :=
    (rt.sortSlice_perm _ _).mem_iff.mpr (List.mem_map_of_mem h)
  obtain ⟨i, hi, heq⟩ := List.getElem_of_mem hmem
  refine ⟨q.entry i (q.snapshot team), ?_, rfl, rfl, rfl⟩
  exact List.mem_mapIdx.mpr ⟨i, hi, by rw [heq]⟩

end ScoreQueries

/-- What a write stores about the teams of its list. -/
theorem saveScoreboard_entries [LinearOrder K] (rt : Go.Runtime) {db : Database K}
    {q : ScoreQueries K} (hnodup : (q.teams.map (·.1)).Nodup)
    (hteams : ∀ team ∈ q.teams.map (·.1), team ∈ db.teamIDs) :
    (∀ e ∈ q.entries rt, e ∈ (db.saveScoreboard (q.entries rt)).scoreboardEntries) ∧
    (∀ team ∈ db.scoreboardEntries.map (·.teamID), team ∈ db.teamIDs →
      team ∈ (db.saveScoreboard (q.entries rt)).scoreboardEntries.map (·.teamID)) ∧
    ∀ e ∈ (db.saveScoreboard (q.entries rt)).scoreboardEntries,
      e ∈ db.scoreboardEntries ∨ e ∈ q.entries rt := by
  have hids : ((q.entries rt).map (·.teamID)).Perm (q.teams.map (·.1)) :=
    ScoreQueries.map_teamID_entries rt q
  have hall : (q.entries rt).all (·.teamID ∈ db.teamIDs) = true := by
    refine List.all_eq_true.mpr fun e he => decide_eq_true (hteams _ ?_)
    exact hids.mem_iff.mp (List.mem_map_of_mem he)
  rw [Database.saveScoreboard, if_pos hall]
  refine ⟨fun e he => ?_, fun team hteam hid => ?_, fun e he => ?_⟩
  · refine List.mem_filter.mpr
      ⟨Table.mem_foldl_upsert_of_mem (hids.nodup_iff.mpr hnodup) he, decide_eq_true ?_⟩
    exact hteams _ (hids.mem_iff.mp (List.mem_map_of_mem he))
  · obtain ⟨e, he, rfl⟩ := List.mem_map.mp (Table.mem_keys_foldl_upsert hteam)
    exact List.mem_map_of_mem (List.mem_filter.mpr ⟨he, decide_eq_true hid⟩)
  · exact Table.mem_foldl_upsert (List.mem_of_mem_filter he)

/-! ## Submissions -/

section submissions
variable (M : FaustMath K) {s t : ScoringShared K}

/-- The stored scoreboard reflects the first `k` submissions: the rows of the active teams were
computed from states of `submitted_flags` that had them. -/
def Reflects (db : Database K) (k : Nat) : Prop :=
  ∃ T T', T <+: db.submittedFlags ∧ k ≤ T.length ∧ T' <+: db.submittedFlags ∧ k ≤ T'.length ∧
    ∀ team ∈ db.activeTeams, ∃ e ∈ db.scoreboardEntries, e.teamID = team.1 ∧
      e.attackPoints = (sumFloatByTeam (Database.attackOver T)).get team.1 0 ∧
      e.defensePoints = (sumFloatByTeam (Database.defenseOver M db.issuedFlags T')).get team.1 0

/-- What submissions and recomputes leave alone. -/
structure Appends (s t : ScoringShared K) : Prop where
  teams : t.db.teams = s.db.teams
  issuedFlags : t.db.issuedFlags = s.db.issuedFlags
  submittedFlags : s.db.submittedFlags <+: t.db.submittedFlags
  recomputes : s.recomputes.map (·.submissions) <+: t.recomputes.map (·.submissions)

omit [Field K] in
theorem Appends.refl (s : ScoringShared K) : Appends s s :=
  ⟨rfl, rfl, List.prefix_rfl, List.prefix_rfl⟩

/-- The invariant: a finished recompute is not newer than the one that wrote last, and the stored
scoreboard reflects what that one had to see. -/
structure Fresh (s : ScoringShared K) : Prop where
  teams : s.db.teamIDs.Nodup
  finished : ∀ n r, s.recomputes[n]? = some r → r.finished = true →
    ∃ m, s.lastWrite = some m ∧ n ≤ m
  reflects : ∀ m, s.lastWrite = some m →
    ∃ k, (s.recomputes.map (·.submissions))[m]? = some k ∧ Reflects M s.db k

/-- A recompute writes only if none that began later has written. -/
def WritesInOrder : ScoreOp K → ScoringShared K → Prop
  | .saveScoreboard n _, s => ∀ m, s.lastWrite = some m → m ≤ n
  | _, _ => True

/-- The contract of the recomputes: submissions only grow, and the stored board reflects those that
its recompute had to see. -/
def freshness (crypto : Crypto) : Contract (ScoringShared K) Unit (ScoreOp K) ScoreOp.Res where
  sem := scoreSem M crypto
  inv := Fresh M
  guar := Appends
  rely := Appends
  allowed _ := WritesInOrder
  guar_refl := Appends.refl
  rely_refl := Appends.refl
  rely_trans h h' := ⟨h'.teams.trans h.teams, h'.issuedFlags.trans h.issuedFlags,
    h.submittedFlags.trans h'.submittedFlags, h.recomputes.trans h'.recomputes⟩
  guar_rely h := h

variable {M} {crypto : Crypto}

theorem Reflects.append {db : Database K} {k : Nat} (h : Reflects M db k)
    {x : SubmittedFlag} {e : AttackEvent} :
    Reflects M { db with
      submittedFlags := db.submittedFlags ++ [x], attackEvents := db.attackEvents ++ [e] } k := by
  obtain ⟨T, T', hT, hk, hT', hk', hrows⟩ := h
  exact ⟨T, T', hT.trans (List.prefix_append _ _), hk,
    hT'.trans (List.prefix_append _ _), hk', hrows⟩

theorem freshness_accept (x : AcceptedFlagSubmission) :
    (freshness M crypto).Keeps (.acceptFlagSubmission x) := by
  intro _ s t r hs _ hsem
  obtain rfl : { s with db := (s.db.acceptFlagSubmission crypto x).1 } = t :=
    congrArg Prod.fst (Option.some.inj hsem)
  rcases s.db.acceptFlagSubmission_cases crypto x with heq | ⟨row, -, -, -, -, e, heq⟩
  · rw [heq]
    exact ⟨hs, .refl s⟩
  · rw [heq]
    refine ⟨⟨hs.teams, hs.finished, fun m hm => ?_⟩, rfl, rfl, List.prefix_append _ _,
      List.prefix_rfl⟩
    obtain ⟨k, hk, hreflects⟩ := hs.reflects m hm
    exact ⟨k, hk, hreflects.append⟩

/-- A query changes nothing. -/
theorem freshness_query {op : ScoreOp K}
    (h : ∀ s, ∃ r, scoreSem M crypto () op s = some (s, r)) : (freshness M crypto).Keeps op := by
  rintro ⟨⟩ s t r hs - hsem
  obtain ⟨r', heq⟩ := h s
  cases heq.symm.trans hsem
  exact ⟨hs, .refl s⟩

/-- What a recompute knows from its first query on. -/
def Began (n : Nat) (teams : List (Int × String)) (s : ScoringShared K) : Prop :=
  teams = s.db.activeTeams ∧
    ∃ k, (s.recomputes.map (·.submissions))[n]? = some k ∧ k ≤ s.db.submittedFlags.length

omit [Field K] in
theorem Appends.getElem? (h : Appends s t) {n k : Nat}
    (hk : (s.recomputes.map (·.submissions))[n]? = some k) :
    (t.recomputes.map (·.submissions))[n]? = some k := by
  obtain ⟨hn, rfl⟩ := List.getElem?_eq_some_iff.mp hk
  exact List.prefix_iff_getElem?.mp h.recomputes n hn

omit [Field K] in
theorem Began.rely {n : Nat} {teams : List (Int × String)} (hr : Appends s t)
    (h : Began n teams s) : Began n teams t := by
  obtain ⟨hteams, k, hk, hle⟩ := h
  refine ⟨?_, k, hr.getElem? hk, hle.trans hr.submittedFlags.length_le⟩
  rw [hteams, Database.activeTeams, Database.activeTeams, hr.teams]

/-- The attack query has seen the submissions. -/
def AttackSeen (n : Nat) (rows : List (Int × K)) (s : ScoringShared K) : Prop :=
  ∃ k T, (s.recomputes.map (·.submissions))[n]? = some k ∧ k ≤ T.length ∧
    T <+: s.db.submittedFlags ∧ rows = Database.attackOver T

/-- The defense query has seen the submissions. -/
def DefenseSeen (M : FaustMath K) (n : Nat) (rows : List (Int × K)) (s : ScoringShared K) : Prop :=
  ∃ k T, (s.recomputes.map (·.submissions))[n]? = some k ∧ k ≤ T.length ∧
    T <+: s.db.submittedFlags ∧ rows = Database.defenseOver M s.db.issuedFlags T

theorem AttackSeen.rely {n : Nat} {rows : List (Int × K)} (hr : Appends s t)
    (h : AttackSeen n rows s) : AttackSeen n rows t := by
  obtain ⟨k, T, hk, hle, hT, rfl⟩ := h
  exact ⟨k, T, hr.getElem? hk, hle, hT.trans hr.submittedFlags, rfl⟩

theorem DefenseSeen.rely {n : Nat} {rows : List (Int × K)} (hr : Appends s t)
    (h : DefenseSeen M n rows s) : DefenseSeen M n rows t := by
  obtain ⟨k, T, hk, hle, hT, rfl⟩ := h
  exact ⟨k, T, hr.getElem? hk, hle, hT.trans hr.submittedFlags, by rw [hr.issuedFlags]⟩

theorem freshness_teams : (freshness M crypto).Meets (Proc.perform .teams) s
    fun (r : Nat × List (Int × String)) t => Began r.1 r.2 t := by
  refine .perform fun s' input t r _ hs' _ hsem => ?_
  cases hsem
  generalize hrecord : ({ submissions := s'.db.submittedFlags.length
                          steady := s'.db.activeTeams.map (·.1) } : RecomputeRecord) = record
  have happends : Appends s' { s' with recomputes := s'.recomputes ++ [record] } :=
    ⟨rfl, rfl, List.prefix_rfl, by rw [List.map_append]; exact List.prefix_append _ _⟩
  refine ⟨⟨hs'.teams, fun n r hr hfin => ?_, fun m hm => ?_⟩, happends, rfl,
    s'.db.submittedFlags.length, ?_, le_rfl⟩
  · by_cases hn : n < s'.recomputes.length
    · exact hs'.finished n r (by rwa [List.getElem?_append_left hn] at hr) hfin
    · -- the new recompute has not finished
      rw [List.getElem?_append_right (by omega), List.getElem?_singleton] at hr
      split at hr
      · cases hr
        rw [← hrecord] at hfin
        cases hfin
      · cases hr
  · obtain ⟨k, hk, hreflects⟩ := hs'.reflects m hm
    exact ⟨k, happends.getElem? hk, hreflects⟩
  · simp [← hrecord]

theorem map_submissions_finish (l : List RecomputeRecord) (n : Nat) :
    (l.modify n .finish).map (·.submissions) = l.map (·.submissions) := by
  refine List.ext_getElem? fun i => ?_
  rw [List.getElem?_map, List.getElem?_map, List.getElem?_modify]
  cases l[i]? with
  | none => rfl
  | some r =>
    simp only [Option.map_eq_map, Option.map_some]
    split <;> rfl

theorem freshness_save [LinearOrder K] {n : Nat} {rt : Go.Runtime} {q : ScoreQueries K}
    (hbegan : Began n q.teams s) (hattack : AttackSeen n q.attackByTeam s)
    (hdefense : DefenseSeen M n q.defenseByTeam s) :
    (freshness M crypto).Fine (Proc.perform (.saveScoreboard n (q.entries rt))) s := by
  refine Contract.Meets.perform fun s' input t r hr hs' hal hsem => ?_
  obtain rfl : { s' with
      db := s'.db.saveScoreboard (q.entries rt), recomputes := s'.recomputes.modify n .finish
      lastWrite := some n } = t := congrArg Prod.fst (Option.some.inj hsem)
  obtain ⟨hteams, hissued, hsubmitted⟩ := s'.db.saveScoreboard_frame (q.entries rt)
  have hactive : (s'.db.saveScoreboard (q.entries rt)).activeTeams = q.teams := by
    rw [(hbegan.rely hr).1, Database.activeTeams, Database.activeTeams, hteams]
  have hnodup : (q.teams.map (·.1)).Nodup := by
    rw [(hbegan.rely hr).1]
    exact Database.activeTeams_nodup hs'.teams
  have hsub : ∀ team ∈ q.teams.map (·.1), team ∈ s'.db.teamIDs := by
    rw [(hbegan.rely hr).1]
    exact Database.activeTeams_subset
  refine ⟨⟨?_, fun n' r hr' hfin => ?_, ?_⟩, ⟨hteams, hissued, ?_, ?_⟩, trivial⟩
  · rw [Database.teamIDs, hteams]
    exact hs'.teams
  · refine ⟨n, rfl, ?_⟩
    by_cases hn : n' = n
    · exact hn.le
    · rw [List.getElem?_modify_ne _ _ (Ne.symm hn)] at hr'
      obtain ⟨m, hm, hle⟩ := hs'.finished n' r hr' hfin
      exact hle.trans (hal m hm)
  · rintro m ⟨⟩
    obtain ⟨k, T, hk, hle, hT, hrows⟩ := hattack.rely hr
    obtain ⟨k', T', hk', hle', hT', hrows'⟩ := hdefense.rely hr
    obtain rfl : k = k' := Option.some.inj (hk.symm.trans hk')
    refine ⟨k, by rw [map_submissions_finish]; exact hk, T, T', hsubmitted ▸ hT, hle,
      hsubmitted ▸ hT', hle', fun team hteam => ?_⟩
    rw [hactive] at hteam
    obtain ⟨e, he, hid, hatt, hdef⟩ := ScoreQueries.exists_entry hteam
    refine ⟨e, (saveScoreboard_entries rt hnodup hsub).1 e he, hid, ?_, ?_⟩
    · rw [hatt, hrows]
    · rw [hdef, hrows', hissued]
  · rw [hsubmitted]
  · rw [map_submissions_finish]

theorem freshness_rules [LinearOrder K] :
    RecomputeRules (freshness M crypto) Began AttackSeen (DefenseSeen M) where
  teams _ := freshness_teams
  attackByTeam n teams s hbegan := by
    refine .perform fun s' input t r hr hs' _ hsem => ?_
    cases hsem
    obtain ⟨-, k, hk, hle⟩ := hbegan.rely hr
    exact ⟨hs', .refl _, k, _, hk, hle, List.prefix_rfl, rfl⟩
  defenseByTeam n teams s hbegan := by
    refine .perform fun s' input t r hr hs' _ hsem => ?_
    cases hsem
    obtain ⟨-, k, hk, hle⟩ := hbegan.rely hr
    exact ⟨hs', .refl _, k, _, hk, hle, List.prefix_rfl, rfl⟩
  previousRanks := freshness_query fun _ => ⟨_, rfl⟩
  slaByTeam _ := freshness_query fun _ => ⟨_, rfl⟩
  attackByTeamService := freshness_query fun _ => ⟨_, rfl⟩
  slaByTeamService _ := freshness_query fun _ => ⟨_, rfl⟩
  defenseByTeamService := freshness_query fun _ => ⟨_, rfl⟩
  challenges := freshness_query fun _ => ⟨_, rfl⟩
  saveScoreboard _ _ _ _ := freshness_save
  began_rely hr h := h.rely hr
  attack_rely hr h := h.rely hr
  defense_rely hr h := h.rely hr

theorem freshness_handles [LinearOrder K] :
    (freshness M crypto).Handles (SubmissionTraffic.handler M) := by
  intro request s _
  cases request with
  | acceptFlagSubmission x =>
    exact Contract.Meets.toThread (Contract.Fine.perform (freshness_accept x))
  | recomputeScoreboard rt => exact (freshness_rules.fine : (freshness M crypto).Fine _ s).toThread

end submissions

/-- The tables before the first capture. -/
def issuedTables : Database ℚ := ({} : Database ℚ).run noCrypto issueRun

/-- A submission, and a recompute from its start to its end. -/
def captureThenRecompute : List (Label SubmissionTraffic Unit) :=
  [.arrive (.acceptFlagSubmission captureFlag), .step 0 (),
    .arrive (.recomputeScoreboard .inOrder)] ++ List.replicate 10 (.step 1 ())

/-- A recompute reads, a flag is captured, and a second recompute runs to its end before the first
one writes. -/
def staleWrite : List (Label SubmissionTraffic Unit) :=
  .arrive (.recomputeScoreboard .inOrder) :: List.replicate 9 (.step 0 ()) ++
    [.arrive (.acceptFlagSubmission captureFlag), .step 1 (),
      .arrive (.recomputeScoreboard .inOrder)] ++ List.replicate 10 (.step 2 ()) ++ [.step 0 ()]

end ADPlatform.GameCore
