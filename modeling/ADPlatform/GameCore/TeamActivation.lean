import ADPlatform.GameCore.ScoreboardRaces

/-! # Recomputes and deactivated teams

A deactivation removes the row of its team, but a recompute that has read its list of teams before
writes the row again: the cleanup at the end of the write transaction keeps every team that
exists. -/

namespace ADPlatform.GameCore
open Concurrent

variable {K : Type} [Field K]

namespace Database
variable {db : Database K}

omit [Field K] in
/-- An active team stays active unless it is the one that is deactivated. -/
theorem mem_activeTeams_setTeamActive {teamID team : Int} {active : Bool}
    (h : team ∈ db.activeTeams.map (·.1)) (hteam : active = true ∨ team ≠ teamID) :
    team ∈ (db.setTeamActive teamID active).activeTeams.map (·.1) := by
  obtain ⟨x, hx, hactive, rfl⟩ := mem_activeTeams_fst.mp h
  refine mem_activeTeams_fst.mpr ⟨_, List.mem_map_of_mem hx, ?_⟩
  split
  · rename_i hid
    exact ⟨hteam.resolve_right (not_not.mpr hid), rfl⟩
  · exact ⟨hactive, rfl⟩

end Database

/-- The invariant: rows belong to active teams, and a team that has been active since a finished
recompute read its list has a row. -/
structure ActiveRows (s : ScoringShared K) : Prop where
  constraints : s.db.Constraints
  active : ∀ e ∈ s.db.scoreboardEntries, e.teamID ∈ s.db.activeTeams.map (·.1)
  steady : ∀ r ∈ s.recomputes, r.finished = true → ∀ team ∈ r.steady,
    team ∈ s.db.scoreboardEntries.map (·.teamID)

/-- What the others may do to a recompute: its list of steady teams shrinks. -/
structure Narrows (s t : ScoringShared K) : Prop where
  teamIDs : t.db.teamIDs = s.db.teamIDs
  steady : ∀ (n : Nat) (r : RecomputeRecord), s.recomputes[n]? = some r →
    ∃ r', t.recomputes[n]? = some r' ∧ r'.steady ⊆ r.steady

omit [Field K] in
theorem Narrows.refl (s : ScoringShared K) : Narrows s s :=
  ⟨rfl, fun _ r h => ⟨r, h, List.Subset.refl _⟩⟩

/-- A recompute writes only while every team of its list is active. -/
def WritesActive : ScoreOp K → ScoringShared K → Prop
  | .saveScoreboard _ entries, s => ∀ e ∈ entries, e.teamID ∈ s.db.activeTeams.map (·.1)
  | _, _ => True

/-- The contract of the active teams: rows are those of teams that were active at some recompute,
and deactivations only narrow them. -/
def activity (M : FaustMath K) (crypto : Crypto) :
    Contract (ScoringShared K) Unit (ScoreOp K) ScoreOp.Res where
  sem := scoreSem M crypto
  inv := ActiveRows
  guar := Narrows
  rely := Narrows
  allowed _ := WritesActive
  guar_refl := Narrows.refl
  rely_refl := Narrows.refl
  rely_trans h h' := by
    refine ⟨h'.teamIDs.trans h.teamIDs, fun n r hr => ?_⟩
    obtain ⟨r', hr', hsub⟩ := h.steady n r hr
    obtain ⟨r'', hr'', hsub'⟩ := h'.steady n r' hr'
    exact ⟨r'', hr'', List.Subset.trans hsub' hsub⟩
  guar_rely h := h

variable {M : FaustMath K} {crypto : Crypto} {s t : ScoringShared K}

theorem activity_query {op : ScoreOp K}
    (h : ∀ s, ∃ r, scoreSem M crypto () op s = some (s, r)) : (activity M crypto).Keeps op := by
  rintro ⟨⟩ s t r hs - hsem
  obtain ⟨r', heq⟩ := h s
  cases heq.symm.trans hsem
  exact ⟨hs, .refl s⟩

theorem activity_setTeamActive (teamID : Int) (active : Bool) :
    (activity M crypto).Keeps (.setTeamActive teamID active) := by
  intro _ s t r hs _ hsem
  obtain rfl : { s with
      db := s.db.setTeamActive teamID active
      recomputes := if active then s.recomputes else s.recomputes.map (.drop teamID) } = t :=
    congrArg Prod.fst (Option.some.inj hsem)
  cases active with
  | true =>
    refine ⟨⟨hs.constraints.setTeamActive, fun e he => ?_, hs.steady⟩,
      Database.teamIDs_setTeamActive, (Narrows.refl s).steady⟩
    exact Database.mem_activeTeams_setTeamActive (hs.active e he) (.inl rfl)
  | false =>
    refine ⟨⟨hs.constraints.setTeamActive, fun e he => ?_, fun r hr hfin team hteam => ?_⟩,
      Database.teamIDs_setTeamActive, fun n r hr => ⟨r.drop teamID, ?_, ?_⟩⟩
    · obtain ⟨he, hne⟩ := List.mem_filter.mp he
      exact Database.mem_activeTeams_setTeamActive (hs.active e he) (.inr (by simpa using hne))
    · obtain ⟨r', hr', rfl⟩ := List.mem_map.mp hr
      obtain ⟨hteam, hne⟩ := List.mem_filter.mp hteam
      exact Table.mem_keys_filter_ne.mpr ⟨hs.steady r' hr' hfin team hteam, by simpa using hne⟩
    · simp [hr]
    · exact fun team hteam => List.mem_of_mem_filter hteam

/-- What a recompute knows from its first query on: its list covers its steady teams. -/
structure Listed (n : Nat) (teams : List (Int × String)) (s : ScoringShared K) : Prop where
  nodup : (teams.map (·.1)).Nodup
  exist : ∀ team ∈ teams.map (·.1), team ∈ s.db.teamIDs
  covers : ∃ r, s.recomputes[n]? = some r ∧ r.steady ⊆ teams.map (·.1)

omit [Field K] in
theorem Listed.rely {n : Nat} {teams : List (Int × String)} (hr : Narrows s t)
    (h : Listed n teams s) : Listed n teams t := by
  obtain ⟨r, hn, hsub⟩ := h.covers
  obtain ⟨r', hn', hsub'⟩ := hr.steady n r hn
  exact ⟨h.nodup, hr.teamIDs ▸ h.exist, r', hn', List.Subset.trans hsub' hsub⟩

theorem activity_teams : (activity M crypto).Meets (Proc.perform .teams) s
    fun (r : Nat × List (Int × String)) t => Listed r.1 r.2 t := by
  refine .perform fun s' input t r _ hs' _ hsem => ?_
  cases hsem
  refine ⟨⟨hs'.constraints, hs'.active, fun r hr hfin => ?_⟩, ⟨rfl, fun n r hr => ?_⟩,
    Database.activeTeams_nodup hs'.constraints.teams, Database.activeTeams_subset, _,
    List.getElem?_concat_length, List.Subset.refl _⟩
  · rcases List.mem_append.mp hr with hr | hr
    · exact hs'.steady r hr hfin
    · rw [List.mem_singleton.mp hr] at hfin
      cases hfin
  · refine ⟨r, ?_, List.Subset.refl _⟩
    rw [List.getElem?_append_left (List.getElem?_eq_some_iff.mp hr).1]
    exact hr

theorem activity_save [LinearOrder K] {n : Nat} {rt : Go.Runtime} {q : ScoreQueries K}
    (hlisted : Listed n q.teams s) :
    (activity M crypto).Fine (Proc.perform (.saveScoreboard n (q.entries rt))) s := by
  refine Contract.Meets.perform fun s' input t r hr hs' hal hsem => ?_
  obtain rfl : { s' with
      db := s'.db.saveScoreboard (q.entries rt), recomputes := s'.recomputes.modify n .finish
      lastWrite := some n } = t := congrArg Prod.fst (Option.some.inj hsem)
  obtain ⟨hnodup, hexist, record, hrecord, hcovers⟩ := hlisted.rely hr
  obtain ⟨hnew, hkept, hrows⟩ := saveScoreboard_entries rt hnodup hexist
  obtain ⟨hteams, -, -⟩ := s'.db.saveScoreboard_frame (q.entries rt)
  have hactive : (s'.db.saveScoreboard (q.entries rt)).activeTeams = s'.db.activeTeams := by
    rw [Database.activeTeams, Database.activeTeams, hteams]
  refine ⟨⟨hs'.constraints.saveScoreboard, fun e he => ?_, fun r hr' hfin team hteam => ?_⟩,
    ⟨?_, fun i r hi => ?_⟩, trivial⟩
  · rw [hactive]
    exact (hrows e he).elim (hs'.active e) (hal e)
  · obtain ⟨i, hi⟩ := List.mem_iff_getElem?.mp hr'
    by_cases hn : n = i
    · subst hn
      rw [List.getElem?_modify_eq, hrecord] at hi
      cases hi
      obtain ⟨e, he, rfl⟩ := List.mem_map.mp
        ((ScoreQueries.map_teamID_entries rt q).mem_iff.mpr (hcovers hteam))
      exact List.mem_map_of_mem (hnew e he)
    · rw [List.getElem?_modify_ne _ _ hn] at hi
      have hold := hs'.steady r (List.mem_of_getElem? hi) hfin team hteam
      obtain ⟨e, he, rfl⟩ := List.mem_map.mp hold
      exact hkept _ hold (hs'.constraints.scoreboardEntry_ref e he)
  · rw [Database.teamIDs, hteams, Database.teamIDs]
  · by_cases hn : n = i
    · subst hn
      exact ⟨r.finish, by rw [List.getElem?_modify_eq, hi]; rfl, List.Subset.refl _⟩
    · exact ⟨r, by rw [List.getElem?_modify_ne _ _ hn]; exact hi, List.Subset.refl _⟩

theorem activity_rules [LinearOrder K] : RecomputeRules (activity M crypto) Listed
    (fun _ _ _ => True) (fun _ _ _ => True) where
  teams _ := activity_teams
  attackByTeam _ _ _ _ := Contract.Fine.perform (activity_query fun _ => ⟨_, rfl⟩)
  defenseByTeam _ _ _ _ := Contract.Fine.perform (activity_query fun _ => ⟨_, rfl⟩)
  previousRanks := activity_query fun _ => ⟨_, rfl⟩
  slaByTeam _ := activity_query fun _ => ⟨_, rfl⟩
  attackByTeamService := activity_query fun _ => ⟨_, rfl⟩
  slaByTeamService _ := activity_query fun _ => ⟨_, rfl⟩
  defenseByTeamService := activity_query fun _ => ⟨_, rfl⟩
  challenges := activity_query fun _ => ⟨_, rfl⟩
  saveScoreboard _ _ _ _ hlisted _ _ := activity_save hlisted
  began_rely hr h := h.rely hr
  attack_rely _ h := h
  defense_rely _ h := h

theorem activity_handles [LinearOrder K] :
    (activity M crypto).Handles (ActivationTraffic.handler M) := by
  intro request s _
  cases request with
  | setTeamActive teamID active =>
    exact Contract.Meets.toThread (Contract.Fine.perform (activity_setTeamActive teamID active))
  | recomputeScoreboard rt => exact (activity_rules.fine : (activity M crypto).Fine _ s).toThread

/-- The stored rows belong to active teams, and a team that has been active since a finished
recompute read its list has a row: in every run in which each write finds the teams of its list
active. -/
theorem scoreboard_rows_active [LinearOrder K] (M : FaustMath K) (crypto : Crypto)
    (db : Database K) (hdb : db.Constraints)
    (hactive : ∀ e ∈ db.scoreboardEntries, e.teamID ∈ db.activeTeams.map (·.1))
    (ls : List (Label ActivationTraffic Unit))
    (hrun : (activity M crypto).RunAllowed (ActivationTraffic.handler M) (.boot { db }) ls) :
    let s := ((Machine.boot { db }).run (scoreSem M crypto) (ActivationTraffic.handler M) ls).shared
    (∀ e ∈ s.db.scoreboardEntries, e.teamID ∈ s.db.activeTeams.map (·.1)) ∧
      ∀ r ∈ s.recomputes, r.finished = true →
        ∀ team ∈ r.steady, team ∈ s.db.scoreboardEntries.map (·.teamID) := by
  intro s
  have hstart : (activity M crypto).inv { db } := ⟨hdb, hactive, nofun⟩
  have hinv : ActiveRows s := Contract.inv_run activity_handles hstart hrun
  exact ⟨hinv.active, hinv.steady⟩

/-- A deactivation, and a recompute after it. -/
def deactivateThenRecompute : List (Label ActivationTraffic Unit) :=
  [.arrive (.setTeamActive 2 false), .step 0 (),
    .arrive (.recomputeScoreboard .inOrder)] ++ List.replicate 10 (.step 1 ())

theorem scoreboard_rows_active_in_turn :
    let s := ((Machine.boot { db := issuedTables }).run (scoreSem squareMath noCrypto)
      (ActivationTraffic.handler squareMath) deactivateThenRecompute).shared
    (∀ e ∈ s.db.scoreboardEntries, e.teamID ∈ s.db.activeTeams.map (·.1)) ∧
      ∀ r ∈ s.recomputes, r.finished = true →
        ∀ team ∈ r.steady, team ∈ s.db.scoreboardEntries.map (·.teamID) := by
  refine scoreboard_rows_active squareMath noCrypto issuedTables
    (Database.empty_constraints.run issueRun) (by decide) deactivateThenRecompute ?_
  refine ⟨trivial, ?_, trivial, ?_, ?_, ?_, ?_, ?_, ?_, ?_, ?_, ?_, ?_, trivial⟩ <;>
    rintro op k h - <;> cases h <;> try trivial
  change ∀ e ∈ _, _ ∈ _
  decide +kernel

/-- Without the condition the row of a deactivated team comes back: the recompute has read its
list of teams before the deactivation. -/
theorem deactivated_team_has_row :
    ¬ ∀ (crypto : Crypto) (db : Database ℚ), db.Constraints →
      (∀ e ∈ db.scoreboardEntries, e.teamID ∈ db.activeTeams.map (·.1)) →
      ∀ ls : List (Label ActivationTraffic Unit),
      let s := ((Machine.boot { db }).run (scoreSem squareMath crypto)
        (ActivationTraffic.handler squareMath) ls).shared
      (∀ r ∈ s.recomputes, r.finished = true) →
        ∀ e ∈ s.db.scoreboardEntries, e.teamID ∈ s.db.activeTeams.map (·.1) := by
  intro h
  have hrows := h noCrypto issuedTables (Database.empty_constraints.run issueRun)
    (by decide) (.arrive (.recomputeScoreboard .inOrder) :: .step 0 () ::
      .arrive (.setTeamActive 2 false) :: .step 1 () :: List.replicate 9 (.step 0 ()))
    (by decide)
  revert hrows
  decide +kernel

end ADPlatform.GameCore
