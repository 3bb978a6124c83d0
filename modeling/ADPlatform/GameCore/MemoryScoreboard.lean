import ADPlatform.GameCore.MemoryStore

/-! # The in-memory scoreboard follows the rule

`recomputeScoreboardLocked` fills its scores in several passes over maps. `Books` says that the
scores under way are the totals and subtotals of the postings made so far; each pass keeps it, and
after the last one the postings are those of the store's contest, whatever order the runtime chose
for the loops. -/

namespace ADPlatform.GameCore
open Ledger

/-- A booking on the scoreboard: team, challenge, component and value. -/
abbrev ScorePosting (K : Type) := Posting Int Int Component K

namespace MemoryGameStore
variable {K : Type} [Field K]

/-- The contest that a store records. -/
def contest (s : MemoryGameStore K) : Contest K where
  teamCount := s.teamNames.pairs.length
  captures := s.accepted.pairs.map fun (_, x) =>
    { flag := x.flag, team := x.submittingTeam
      challenge := (s.flags.get x.flag .zero).challengeID }
  flags := s.flags.pairs.map fun (_, f) =>
    { flag := f.flag, owner := f.ownerTeamID, challenge := f.challengeID }
  states := s.serviceStates.pairs.map fun (key, summary) =>
    { team := key.teamID, challenge := key.challengeID
      value := faustSLAValueForStatus summary.status }

/-- The challenges of a store in the order of their ids, with their names. -/
def challengeList (s : MemoryGameStore K) : List (Int × String) :=
  (s.challenges.keys.insertionSort (· ≤ ·)).map fun id =>
    (id, (s.challenges.get id { name := "" }).name)

/-- Flags, accepted submissions and service states refer to known teams and challenges. -/
structure References (s : MemoryGameStore K) : Prop where
  submissions : ∀ key x, s.accepted.lookup key = some x → x.submittingTeam ∈ s.teamNames.keys ∧
    (s.flags.get x.flag .zero).challengeID ∈ s.challenges.keys
  flags : ∀ key f, s.flags.lookup key = some f →
    f.ownerTeamID ∈ s.teamNames.keys ∧ f.challengeID ∈ s.challenges.keys
  states : ∀ key x, s.serviceStates.lookup key = some x →
    key.teamID ∈ s.teamNames.keys ∧ key.challengeID ∈ s.challenges.keys

variable {s : MemoryGameStore K} {scores : Scores K} {l l' : List (ScorePosting K)}

/-- The entry of a service after the postings `l`. -/
def bookedService (s : MemoryGameStore K) (l : List (ScorePosting K)) (team challenge : Int) :
    ServiceScoreBreakdown K where
  challengeID := challenge
  service := (s.challenges.get challenge { name := "" }).name
  attack := subtotal l team challenge .attack
  defense := subtotal l team challenge .defense
  sla := subtotal l team challenge .sla
  total := 0

/-- The score of a team after the postings `l`. -/
structure BookedScore (s : MemoryGameStore K) (l : List (ScorePosting K)) (team : Int)
    (name : String) (score : TeamScore K) : Prop where
  name : score.name = name
  attack : score.attack = total l team .attack
  defense : score.defense = total l team .defense
  sla : score.sla = total l team .sla
  services : ∀ challenge ∈ s.challenges.keys,
    score.services.lookup challenge = some (bookedService s l team challenge)

/-- The scores under way are the sums of the postings so far. -/
structure Books (s : MemoryGameStore K) (scores : Scores K) (l : List (ScorePosting K)) : Prop where
  known : ∀ team name, s.teamNames.lookup team = some name →
    ∃ score, scores.lookup team = some score ∧ BookedScore s l team name score
  unknown : ∀ team, s.teamNames.lookup team = none → scores.lookup team = none

/-- The part of a posting in a component. -/
def share (p : ScorePosting K) (k : Component) : K := if p.component = k then p.value else 0

theorem total_concat (l : List (ScorePosting K)) (p : ScorePosting K) (team : Int) (k : Component) :
    total (l ++ [p]) team k = total l team k + if p.account = team then share p k else 0 := by
  rw [total_append]
  simp only [total, share, sumWhere_cons, sumWhere_nil, add_zero, ite_and]

theorem subtotal_concat (l : List (ScorePosting K)) (p : ScorePosting K) (team challenge : Int)
    (k : Component) : subtotal (l ++ [p]) team challenge k = subtotal l team challenge k +
      if p.account = team ∧ p.service = challenge then share p k else 0 := by
  rw [subtotal_append]
  simp only [subtotal, share, sumWhere_cons, sumWhere_nil, add_zero]
  by_cases ha : p.account = team <;> by_cases hs : p.service = challenge <;> simp [ha, hs]

/-- Postings with the same sums are as good. -/
theorem Books.congr (hb : Books s scores l) (ht : ∀ team k, total l team k = total l' team k)
    (hs : ∀ team challenge k, subtotal l team challenge k = subtotal l' team challenge k) :
    Books s scores l' := by
  refine ⟨fun team name hname => ?_, hb.unknown⟩
  obtain ⟨score, hscore, h⟩ := hb.known team name hname
  refine ⟨score, hscore, h.name, ht team _ ▸ h.attack, ht team _ ▸ h.defense, ht team _ ▸ h.sla, ?_⟩
  intro challenge hc
  rw [h.services challenge hc]
  simp only [bookedService, hs]

theorem Books.perm (hb : Books s scores l) (h : l.Perm l') : Books s scores l' :=
  hb.congr (fun _ _ => sumWhere_perm h) fun _ _ _ => sumWhere_perm h

/-- A posting of nothing changes nothing. -/
theorem Books.skip (hb : Books s scores l) {p : ScorePosting K} (hp : p.value = 0) :
    Books s scores (l ++ [p]) := by
  have hshare : ∀ k, share p k = 0 := fun k => by simp [share, hp]
  exact hb.congr (fun team k => by simp [total_concat, hshare])
    fun team challenge k => by simp [subtotal_concat, hshare]

/-- Crediting a known team and service makes a posting. -/
theorem Books.credit (hb : Books s scores l) {p : ScorePosting K}
    {onTeam : TeamScore K → TeamScore K}
    {onService : ServiceScoreBreakdown K → ServiceScoreBreakdown K}
    (hteam : p.account ∈ s.teamNames.keys) (hchallenge : p.service ∈ s.challenges.keys)
    (ht : ∀ t, onTeam t = { t with
      attack := t.attack + share p .attack
      defense := t.defense + share p .defense
      sla := t.sla + share p .sla })
    (hs : ∀ x, onService x = { x with
      attack := x.attack + share p .attack
      defense := x.defense + share p .defense
      sla := x.sla + share p .sla }) :
    ∃ scores', scores.credit onTeam onService p.account p.service = some scores' ∧
      Books s scores' (l ++ [p]) := by
  obtain ⟨name, hname⟩ := Option.isSome_iff_exists.mp (Go.Map.mem_keys.mp hteam)
  obtain ⟨score, hscore, h⟩ := hb.known _ name hname
  have hcredit : scores.credit onTeam onService p.account p.service =
      some (scores.insert p.account { onTeam score with
        services := score.services.insert p.service
          (onService (bookedService s l p.account p.service)) }) := by
    simp [Scores.credit, hscore, h.services _ hchallenge]
  refine ⟨_, hcredit, fun team name' hname' => ?_, fun team hnone => ?_⟩
  · by_cases hteam : team = p.account
    · subst hteam
      obtain rfl : name' = name := Option.some.inj (hname'.symm.trans hname)
      refine ⟨_, AList.lookup_insert _, ?_⟩
      refine ⟨by simp [ht, h.name], by simp [ht, h.attack, total_concat],
        by simp [ht, h.defense, total_concat], by simp [ht, h.sla, total_concat], ?_⟩
      intro challenge hc
      by_cases hch : challenge = p.service
      · subst hch
        simp only [AList.lookup_insert, hs, bookedService, subtotal_concat, and_self, if_true]
      · simp only [AList.lookup_insert_ne hch, h.services challenge hc, bookedService,
          subtotal_concat, show ¬p.service = challenge from fun e => hch e.symm, and_false,
          if_false, add_zero]
    · obtain ⟨score', hscore', h'⟩ := hb.known team name' hname'
      have hne : p.account ≠ team := fun e => hteam e.symm
      refine ⟨score', (AList.lookup_insert_ne hteam).trans hscore', h'.name, ?_, ?_, ?_, ?_⟩
      · simp [h'.attack, total_concat, hne]
      · simp [h'.defense, total_concat, hne]
      · simp [h'.sla, total_concat, hne]
      · intro challenge hc
        simp only [h'.services challenge hc, bookedService, subtotal_concat, hne, false_and,
          if_false, add_zero]
  · have hne : team ≠ p.account := by
      rintro rfl
      rw [hname] at hnone
      cases hnone
    exact (AList.lookup_insert_ne hne).trans (hb.unknown team hnone)

/-- A pass whose every visit makes its postings makes them all. -/
theorem Books.foldlM {α : Type} {step : Scores K → α → Option (Scores K)}
    {post : α → List (ScorePosting K)} {visits : List α} (hb : Books s scores l)
    (hstep : ∀ a ∈ visits, ∀ scores l, Books s scores l →
      ∃ scores', step scores a = some scores' ∧ Books s scores' (l ++ post a)) :
    ∃ scores', visits.foldlM step scores = some scores' ∧
      Books s scores' (l ++ visits.flatMap post) := by
  induction visits generalizing scores l with
  | nil => exact ⟨scores, rfl, by simpa using hb⟩
  | cons a visits ih =>
    obtain ⟨scores', hscores', hb'⟩ := hstep a (.head _) scores l hb
    obtain ⟨scores'', hscores'', hb''⟩ := ih hb' fun b hb => hstep b (.tail _ hb)
    exact ⟨scores'', by simp [hscores', hscores''], by simpa using hb''⟩

/-! ## The passes -/

theorem sortedChallengeIDs_eq (rt : Go.Runtime) (challenges : Go.Map Int MemoryChallenge) :
    sortedChallengeIDs rt challenges = challenges.keys.insertionSort (· ≤ ·) := by
  have hperm : ((rt.range 0 challenges.pairs).map (·.1)).Perm challenges.keys := by
    rw [← Go.Map.map_fst_pairs]
    exact (rt.range_perm 0 _).map _
  refine List.Perm.eq_of_pairwise (fun (a b : Int) _ _ => le_antisymm)
    (List.pairwise_insertionSort (· ≤ ·) _) (List.pairwise_insertionSort (· ≤ ·) _) ?_
  exact (List.perm_insertionSort _ _).trans (hperm.trans (List.perm_insertionSort _ _).symm)

omit [Field K] in
theorem mem_sortedIDs {challenge : Int} :
    challenge ∈ s.challenges.keys.insertionSort (· ≤ ·) ↔ challenge ∈ s.challenges.keys :=
  (List.perm_insertionSort _ _).mem_iff

omit [Field K] in
theorem nodup_sortedIDs : (s.challenges.keys.insertionSort (· ≤ ·)).Nodup :=
  (List.perm_insertionSort _ _).nodup_iff.mpr s.challenges.keys_nodup

/-- The scores start out with nothing booked. -/
theorem books_nil (rt : Go.Runtime) (s : MemoryGameStore K) :
    Books s (Go.Map.fill (·.1) (fun (_, name) => newScore s.challenges
      (sortedChallengeIDs rt s.challenges) name) (rt.range 1 s.teamNames.pairs) ∅) [] := by
  have hperm := rt.range_perm 1 s.teamNames.pairs
  have hnodup : ((rt.range 1 s.teamNames.pairs).map (·.1)).Nodup :=
    (hperm.map _).nodup_iff.mpr (Go.Map.nodup_fst_pairs _)
  refine ⟨fun team name hname => ?_, fun team hnone => ?_⟩
  · have hmem : (team, name) ∈ rt.range 1 s.teamNames.pairs :=
      hperm.mem_iff.mpr (Go.Map.mem_pairs.mpr hname)
    refine ⟨_, Go.Map.lookup_fill_of_mem hnodup hmem, rfl, rfl, rfl, rfl, fun challenge hc => ?_⟩
    rw [← mem_sortedIDs, ← sortedChallengeIDs_eq rt] at hc
    have hids : ((sortedChallengeIDs rt s.challenges).map id).Nodup := by
      rw [List.map_id, sortedChallengeIDs_eq]
      exact nodup_sortedIDs
    exact Go.Map.lookup_fill_of_mem hids hc
  · refine Go.Map.lookup_fill_of_notMem fun hmem => ?_
    rw [(hperm.map _).mem_iff, Go.Map.map_fst_pairs, Go.Map.mem_keys, hnone] at hmem
    cases hmem

theorem filter_flag_eq_nil {subs : List AcceptedFlagSubmission} {flag : String}
    (h : flag ∉ subs.map (·.flag)) : subs.filter (·.flag = flag) = [] := by
  refine List.filter_eq_nil_iff.mpr fun y hy => ?_
  rw [decide_eq_true_eq]
  exact fun e => h (e ▸ List.mem_map_of_mem hy)

theorem lookup_acceptedByFlag (subs : List AcceptedFlagSubmission) (flag : String) :
    (acceptedByFlag subs).lookup flag =
      if flag ∈ subs.map (·.flag) then some (subs.filter (·.flag = flag)) else none := by
  induction subs using List.reverseRecOn with
  | nil => rfl
  | append_singleton subs x ih =>
    have hstep : acceptedByFlag (subs ++ [x]) = (acceptedByFlag subs).insert x.flag
        ((acceptedByFlag subs).get x.flag [] ++ [x]) := by simp [acceptedByFlag]
    rw [hstep]
    by_cases hflag : flag = x.flag
    · subst hflag
      have hget : (acceptedByFlag subs).get x.flag [] = subs.filter (·.flag = x.flag) := by
        by_cases hmem : x.flag ∈ subs.map (·.flag)
        · simp only [Go.Map.get, ih, if_pos hmem, Option.getD_some]
        · simp only [Go.Map.get, ih, if_neg hmem, Option.getD_none, filter_flag_eq_nil hmem]
      simp [AList.lookup_insert, hget]
    · rw [AList.lookup_insert_ne hflag, ih]
      simp [hflag, Ne.symm hflag]

theorem get_acceptedByFlag (subs : List AcceptedFlagSubmission) (flag : String) :
    (acceptedByFlag subs).get flag [] = subs.filter (·.flag = flag) := by
  by_cases hmem : flag ∈ subs.map (·.flag)
  · simp only [Go.Map.get, lookup_acceptedByFlag, if_pos hmem, Option.getD_some]
  · simp only [Go.Map.get, lookup_acceptedByFlag, if_neg hmem, Option.getD_none,
      filter_flag_eq_nil hmem]

theorem pairs_acceptedByFlag (subs : List AcceptedFlagSubmission) :
    (acceptedByFlag subs).pairs.Perm
      ((subs.map (·.flag)).dedup.map fun flag => (flag, subs.filter (·.flag = flag))) := by
  refine Go.Map.pairs_perm ?_ fun flag group => ?_
  · exact ((subs.map (·.flag)).nodup_dedup).map fun a b h => (Prod.mk.inj h).1
  · rw [lookup_acceptedByFlag]
    constructor
    · intro h
      obtain ⟨flag', hmem, heq⟩ := List.mem_map.mp h
      obtain ⟨rfl, rfl⟩ := Prod.mk.inj heq
      rw [if_pos (List.mem_dedup.mp hmem)]
    · intro h
      by_cases hmem : flag ∈ subs.map (·.flag)
      · rw [if_pos hmem] at h
        exact List.mem_map.mpr ⟨flag, List.mem_dedup.mpr hmem, by rw [Option.some.inj h]⟩
      · rw [if_neg hmem] at h
        cases h

/-- The submissions in the order in which the recompute meets them. -/
def visited (rt : Go.Runtime) (s : MemoryGameStore K) : List AcceptedFlagSubmission :=
  (rt.range 2 s.accepted.pairs).map (·.2)

theorem countP_visited (rt : Go.Runtime) (flag : String) :
    (visited rt s).countP (·.flag = flag) = s.contest.captureCount flag := by
  simp only [visited, Contest.captureCount, contest, List.countP_map]
  exact (rt.range_perm 2 s.accepted.pairs).countP_eq _

/-- What a submission is worth to its team. -/
def attackPosting (s : MemoryGameStore K) (x : AcceptedFlagSubmission) : ScorePosting K where
  account := x.submittingTeam
  service := (s.flags.get x.flag .zero).challengeID
  component := .attack
  value := faustAttackValue (s.contest.captureCount x.flag)

/-- What an issued flag costs its owner. -/
def defensePosting (M : FaustMath K) (s : MemoryGameStore K) (f : IssuedFlagRecord) :
    ScorePosting K where
  account := f.ownerTeamID
  service := f.challengeID
  component := .defense
  value := -faustDefensePenalty M (s.contest.captureCount f.flag)

/-- What a service state is worth, before the factor. -/
def slaPosting (x : CheckerRunGroupKey × GameServiceStateSummary) : ScorePosting K where
  account := x.1.teamID
  service := x.1.challengeID
  component := .sla
  value := faustSLAValueForStatus x.2.status

omit [Field K] in
theorem mem_visited {rt : Go.Runtime} {x : AcceptedFlagSubmission} (h : x ∈ visited rt s) :
    ∃ key, s.accepted.lookup key = some x := by
  obtain ⟨⟨key, x⟩, hmem, rfl⟩ := List.mem_map.mp h
  exact ⟨key, Go.Map.mem_pairs.mp ((rt.range_perm 2 _).mem_iff.mp hmem)⟩

theorem scoreCaptures_books (rt : Go.Runtime) (hs : References s) (flag : String)
    (hb : Books s scores l) :
    ∃ scores', scoreCaptures rt s.flags scores (flag, (visited rt s).filter (·.flag = flag))
        = some scores' ∧ Books s scores' (l ++ (rt.sortSlice AcceptedFlagSubmission.before
          ((visited rt s).filter (·.flag = flag))).flatMap fun x => [attackPosting s x]) := by
  refine hb.foldlM fun x hx scores l hb => ?_
  obtain ⟨hx, hflag⟩ := List.mem_filter.mp ((rt.sortSlice_perm _ _).mem_iff.mp hx)
  obtain ⟨key, hkey⟩ := mem_visited hx
  obtain ⟨hteam, hchallenge⟩ := hs.submissions key x hkey
  obtain rfl : x.flag = flag := of_decide_eq_true hflag
  have hcount : ((visited rt s).filter (·.flag = x.flag)).length
      = s.contest.captureCount x.flag := by
    rw [← List.countP_eq_length_filter, countP_visited]
  rw [hcount]
  refine hb.credit (p := attackPosting s x) hteam hchallenge (fun t => ?_) fun y => ?_ <;>
    simp [share, attackPosting]

/-- The attack pass books every submission once. -/
theorem attackPass_books (rt : Go.Runtime) (hs : References s) (hb : Books s scores l) :
    ∃ scores', (rt.range 3 (acceptedByFlag (visited rt s)).pairs).foldlM (scoreCaptures rt s.flags)
      scores = some scores' ∧ Books s scores' (l ++ (visited rt s).map (attackPosting s)) := by
  have hstep : ∀ group ∈ rt.range 3 (acceptedByFlag (visited rt s)).pairs, ∀ scores l,
      Books s scores l → ∃ scores', scoreCaptures rt s.flags scores group = some scores' ∧
        Books s scores' (l ++ (rt.sortSlice AcceptedFlagSubmission.before group.2).flatMap
          fun x => [attackPosting s x]) := by
    intro group h scores l hb
    have h := (pairs_acceptedByFlag _).mem_iff.mp ((rt.range_perm 3 _).mem_iff.mp h)
    obtain ⟨flag, -, rfl⟩ := List.mem_map.mp h
    exact scoreCaptures_books rt hs flag hb
  obtain ⟨scores', hfold, hb'⟩ := hb.foldlM hstep
  refine ⟨scores', hfold, hb'.perm (List.Perm.append_left l ?_)⟩
  simp only [← List.map_eq_flatMap, ← List.map_flatMap]
  refine List.Perm.map _ ?_
  -- the groups, however ordered and sorted, are the submissions of the distinct flags
  refine (List.Perm.flatMap (rt.range_perm 3 _) fun x _ => rt.sortSlice_perm _ x.2).trans ?_
  refine ((pairs_acceptedByFlag _).flatMap_right _).trans ?_
  rw [List.flatMap_map]
  refine flatMap_filter_perm (List.nodup_dedup _) fun x hx => ?_
  exact List.mem_dedup.mpr (List.mem_map_of_mem hx)

/-- The defense pass books every issued flag once. -/
theorem defensePass_books (rt : Go.Runtime) (M : FaustMath K) (hs : References s)
    (hb : Books s scores l) :
    ∃ scores', (rt.range 4 s.flags.pairs).foldlM (scoreLoss M (acceptedByFlag (visited rt s)))
      scores = some scores' ∧
        Books s scores' (l ++ s.flags.pairs.map fun x => defensePosting M s x.2) := by
  have hstep : ∀ entry ∈ rt.range 4 s.flags.pairs, ∀ scores l, Books s scores l →
      ∃ scores', scoreLoss M (acceptedByFlag (visited rt s)) scores entry = some scores' ∧
        Books s scores' (l ++ [defensePosting M s entry.2]) := by
    rintro ⟨key, f⟩ hx scores l hb
    obtain ⟨hteam, hchallenge⟩ :=
      hs.flags key f (Go.Map.mem_pairs.mp ((rt.range_perm 4 _).mem_iff.mp hx))
    have hcount : ((acceptedByFlag (visited rt s)).get f.flag []).length
        = s.contest.captureCount f.flag := by
      rw [get_acceptedByFlag, ← List.countP_eq_length_filter, countP_visited]
    simp only [scoreLoss, hcount]
    by_cases hzero : s.contest.captureCount f.flag = 0
    · rw [if_pos hzero]
      exact ⟨scores, rfl, hb.skip (by simp [defensePosting, faustDefensePenalty, hzero])⟩
    · rw [if_neg hzero]
      refine hb.credit (p := defensePosting M s f) hteam hchallenge (fun t => ?_) fun y => ?_ <;>
        simp [share, defensePosting, sub_eq_add_neg]
  obtain ⟨scores', hfold, hb'⟩ := hb.foldlM hstep
  refine ⟨scores', hfold, hb'.perm (List.Perm.append_left l ?_)⟩
  rw [← List.map_eq_flatMap]
  exact (rt.range_perm 4 _).map _

/-- The SLA pass books every service state once. -/
theorem slaPass_books (rt : Go.Runtime) (hs : References s) (hb : Books s scores l) :
    ∃ scores', (rt.range 5 s.serviceStates.pairs).foldlM scoreState scores = some scores' ∧
      Books s scores' (l ++ s.serviceStates.pairs.map slaPosting) := by
  have hstep : ∀ entry ∈ rt.range 5 s.serviceStates.pairs, ∀ scores l, Books s scores l →
      ∃ scores', scoreState scores entry = some scores' ∧
        Books s scores' (l ++ [slaPosting entry]) := by
    rintro ⟨key, x⟩ hx scores l hb
    obtain ⟨hteam, hchallenge⟩ :=
      hs.states key x (Go.Map.mem_pairs.mp ((rt.range_perm 5 _).mem_iff.mp hx))
    refine hb.credit (p := slaPosting (key, x)) hteam hchallenge (fun t => ?_) fun y => ?_ <;>
      simp [share, slaPosting]
  obtain ⟨scores', hfold, hb'⟩ := hb.foldlM hstep
  refine ⟨scores', hfold, hb'.perm (List.Perm.append_left l ?_)⟩
  rw [← List.map_eq_flatMap]
  exact (rt.range_perm 5 _).map _

/-- The effect of the SLA factor on a posting. -/
def scalePosting (factor : K) (p : ScorePosting K) : ScorePosting K :=
  { p with value := if p.component = .sla then p.value * factor else p.value }

theorem sumWhere_scale (factor : K) (l : List (ScorePosting K)) (P : ScorePosting K → Prop)
    [DecidablePred P] (hP : ∀ p, P (scalePosting factor p) ↔ P p) (k : Component)
    (hk : ∀ p, P p → p.component = k) :
    sumWhere (l.map (scalePosting factor)) P (·.value)
      = sumWhere l P (·.value) * if k = .sla then factor else 1 := by
  induction l with
  | nil => simp
  | cons p l ih =>
    simp only [List.map_cons, sumWhere_cons, ih, add_mul, hP]
    congr 1
    by_cases hp : P p
    · simp only [if_pos hp, scalePosting, hk p hp]
      split <;> simp
    · simp [if_neg hp]

theorem total_scale (factor : K) (l : List (ScorePosting K)) (team : Int) (k : Component) :
    total (l.map (scalePosting factor)) team k
      = total l team k * if k = .sla then factor else 1 :=
  sumWhere_scale factor l _ (fun _ => Iff.rfl) k fun _ h => h.2

theorem subtotal_scale (factor : K) (l : List (ScorePosting K)) (team challenge : Int)
    (k : Component) : subtotal (l.map (scalePosting factor)) team challenge k
      = subtotal l team challenge k * if k = .sla then factor else 1 :=
  sumWhere_scale factor l _ (fun _ => Iff.rfl) k fun _ h => h.1.2

/-- The last pass scales what the SLA pass booked. -/
theorem scaleSLA_books (rt : Go.Runtime) (factor : K) (hb : Books s scores l) :
    Books s (scaleSLA rt factor scores) (l.map (scalePosting factor)) := by
  have hnodup : ∀ {κ ν : Type} (site : Nat) (m : Go.Map κ ν),
      ((rt.range site m.pairs).map (·.1)).Nodup := fun site m =>
    ((rt.range_perm site _).map _).nodup_iff.mpr (Go.Map.nodup_fst_pairs m)
  have hmem : ∀ {κ ν : Type} [DecidableEq κ] {site : Nat} {m : Go.Map κ ν} {k : κ} {v : ν},
      m.lookup k = some v → (k, v) ∈ rt.range site m.pairs := fun h =>
    (rt.range_perm _ _).mem_iff.mpr (Go.Map.mem_pairs.mpr h)
  refine ⟨fun team name hname => ?_, fun team hnone => ?_⟩
  · obtain ⟨score, hscore, h⟩ := hb.known team name hname
    refine ⟨_, Go.Map.lookup_fill_of_mem (hnodup 6 scores) (hmem hscore), h.name, ?_, ?_, ?_, ?_⟩
    · simp [h.attack, total_scale]
    · simp [h.defense, total_scale]
    · simp [h.sla, total_scale]
    · intro challenge hc
      refine (Go.Map.lookup_fill_of_mem (hnodup 7 _) (hmem (h.services challenge hc))).trans ?_
      simp [bookedService, subtotal_scale]
  · refine (Go.Map.lookup_fill_of_notMem fun h => ?_).trans (hb.unknown team hnone)
    rw [((rt.range_perm 6 _).map _).mem_iff, Go.Map.map_fst_pairs, Go.Map.mem_keys,
      hb.unknown team hnone] at h
    cases h

/-! ## The rows -/

/-- All the postings of a store, before the factor. -/
def postings (M : FaustMath K) (s : MemoryGameStore K) : List (ScorePosting K) :=
  s.accepted.pairs.map (fun (x : String × AcceptedFlagSubmission) => attackPosting s x.2) ++
    s.flags.pairs.map (fun (x : String × IssuedFlagRecord) => defensePosting M s x.2) ++
    s.serviceStates.pairs.map slaPosting

theorem captureCount_ne_zero {x : String × AcceptedFlagSubmission} (h : x ∈ s.accepted.pairs) :
    s.contest.captureCount x.2.flag ≠ 0 := by
  rw [Contest.captureCount, ← Nat.pos_iff_ne_zero, List.countP_pos_iff]
  exact ⟨_, List.mem_map_of_mem h, decide_eq_true rfl⟩

section sums
variable (M : FaustMath K) (s) (P : Int → Int → Prop)
  [∀ team challenge, Decidable (P team challenge)]

/-- Only the postings under its own component count for a sum. -/
theorem sum_otherPostings {α : Type} {xs : List α} {f : α → ScorePosting K} {k : Component}
    (hf : ∀ a, (f a).component ≠ k) :
    sumWhere (xs.map f) (fun p => P p.account p.service ∧ p.component = k) (·.value) = 0 := by
  rw [sumWhere_map]
  exact sumWhere_eq_zero fun a _ h => absurd h.2 (hf a)

theorem sum_attackPostings :
    sumWhere (postings M s) (fun p => P p.account p.service ∧ p.component = .attack) (·.value)
      = sumWhere s.contest.captures (fun x => P x.team x.challenge) fun x =>
        1 + 1 / (s.contest.captureCount x.flag : K) := by
  have hdefense : ∀ x : String × IssuedFlagRecord,
      (defensePosting M s x.2).component ≠ .attack := fun _ => by simp [defensePosting]
  have hsla : ∀ x, (slaPosting x : ScorePosting K).component ≠ .attack := fun _ => by
    simp [slaPosting]
  rw [postings, sumWhere_append, sumWhere_append, sum_otherPostings P hdefense,
    sum_otherPostings P hsla, add_zero, add_zero, contest, sumWhere_map, sumWhere_map]
  refine sumWhere_congr fun x hx => ⟨by simp [attackPosting], fun _ => ?_⟩
  exact if_neg (captureCount_ne_zero hx)

theorem sum_defensePostings :
    sumWhere (postings M s) (fun p => P p.account p.service ∧ p.component = .defense) (·.value)
      = -sumWhere s.contest.flags (fun f => P f.owner f.challenge) fun f =>
        faustDefensePenalty M (s.contest.captureCount f.flag) := by
  have hattack : ∀ x : String × AcceptedFlagSubmission,
      (attackPosting s x.2).component ≠ .defense := fun _ => by simp [attackPosting]
  have hsla : ∀ x, (slaPosting x : ScorePosting K).component ≠ .defense := fun _ => by
    simp [slaPosting]
  rw [postings, sumWhere_append, sumWhere_append, sum_otherPostings P hattack,
    sum_otherPostings P hsla, zero_add, add_zero, ← sumWhere_neg, contest, sumWhere_map,
    sumWhere_map]
  exact sumWhere_congr fun x _ => ⟨by simp [defensePosting], fun _ => rfl⟩

theorem sum_slaPostings :
    sumWhere (postings M s) (fun p => P p.account p.service ∧ p.component = .sla) (·.value)
      = sumWhere s.contest.states (fun x => P x.team x.challenge) (·.value) := by
  have hattack : ∀ x : String × AcceptedFlagSubmission,
      (attackPosting s x.2).component ≠ .sla := fun _ => by simp [attackPosting]
  have hdefense : ∀ x : String × IssuedFlagRecord,
      (defensePosting M s x.2).component ≠ .sla := fun _ => by simp [defensePosting]
  rw [postings, sumWhere_append, sumWhere_append, sum_otherPostings P hattack,
    sum_otherPostings P hdefense, zero_add, zero_add, contest, sumWhere_map, sumWhere_map]
  exact sumWhere_congr fun x _ => ⟨by simp [slaPosting], fun _ => rfl⟩

end sums

/-- The books after the last pass. -/
def finalPostings (M : FaustMath K) (s : MemoryGameStore K) : List (ScorePosting K) :=
  (postings M s).map (scalePosting (faustSLAFactor M s.teamNames.pairs.length))

theorem subtotal_eq (l : List (ScorePosting K)) (team challenge : Int) (k : Component) :
    subtotal l team challenge k = sumWhere l
      (fun p => (p.account = team ∧ p.service = challenge) ∧ p.component = k) (·.value) :=
  sumWhere_congr fun _ _ => ⟨and_right_comm, fun _ => rfl⟩

/-- The scores of a team are those of the rule. -/
theorem BookedScore.contest {M : FaustMath K} {team : Int} {name : String} {score : TeamScore K}
    (h : BookedScore s (finalPostings M s) team name score) :
    score.attack = s.contest.attack team ∧ score.defense = s.contest.defense M team ∧
      score.sla = s.contest.sla M team := by
  refine ⟨?_, ?_, ?_⟩
  · rw [h.attack, finalPostings, total_scale, if_neg nofun, mul_one]
    exact sum_attackPostings s M fun a _ => a = team
  · rw [h.defense, finalPostings, total_scale, if_neg nofun, mul_one]
    exact sum_defensePostings s M fun a _ => a = team
  · rw [h.sla, finalPostings, total_scale, if_pos rfl, mul_comm]
    exact congrArg _ (sum_slaPostings s M fun a _ => a = team)

/-- So are the entries of its services. -/
theorem bookedService_contest (M : FaustMath K) (team challenge : Int) :
    bookedService s (finalPostings M s) team challenge =
      { s.contest.serviceRow M team challenge (s.challenges.get challenge { name := "" }).name with
        total := 0 } := by
  simp only [bookedService, Contest.serviceRow, finalPostings, subtotal_scale, reduceCtorEq,
    if_false, if_true, mul_one]
  simp only [subtotal_eq]
  congr 1
  · exact sum_attackPostings s M fun a b => a = team ∧ b = challenge
  · exact sum_defensePostings s M fun a b => a = team ∧ b = challenge
  · rw [mul_comm]
    exact congrArg _ (sum_slaPostings s M fun a b => a = team ∧ b = challenge)

/-- The row of a team is its reference row. -/
theorem scoreRow_eq {M : FaustMath K} {team : Int} {name : String} {score : TeamScore K}
    (h : BookedScore s (finalPostings M s) team name score) :
    scoreRow (s.challenges.keys.insertionSort (· ≤ ·)) score
      = some (s.contest.teamRow M team name s.challengeList) := by
  have hservices : (s.challenges.keys.insertionSort (· ≤ ·)).mapM (scoreService score)
      = some ((s.challenges.keys.insertionSort (· ≤ ·)).map fun challenge =>
        s.contest.serviceRow M team challenge
          (s.challenges.get challenge { name := "" }).name) := by
    refine Go.mapM_of_total fun challenge hc => ?_
    rw [scoreService, h.services challenge (mem_sortedIDs.mp hc), bookedService_contest]
    rfl
  obtain ⟨hattack, hdefense, hsla⟩ := h.contest
  simp only [scoreRow, hservices, hattack, hdefense, hsla, h.name, Contest.teamRow, challengeList,
    List.map_map]
  rfl

/-- The rows before sorting: the reference rows of all teams, in some order. -/
theorem rows_perm (rt : Go.Runtime) {M : FaustMath K} (hb : Books s scores (finalPostings M s)) :
    ∃ rows, (rt.range 8 scores.pairs).mapM (fun entry =>
        scoreRow (s.challenges.keys.insertionSort (· ≤ ·)) entry.2) = some rows ∧
      rows.Perm (s.teamNames.pairs.map fun (team, name) =>
        s.contest.teamRow M team name s.challengeList) := by
  have hknown : ∀ x ∈ rt.range 8 scores.pairs, ∃ name, s.teamNames.lookup x.1 = some name ∧
      BookedScore s (finalPostings M s) x.1 name x.2 := by
    intro x hx
    have hx := Go.Map.mem_pairs.mp ((rt.range_perm 8 _).mem_iff.mp hx)
    cases hname : s.teamNames.lookup x.1 with
    | none => rw [hb.unknown _ hname] at hx; cases hx
    | some name =>
      obtain ⟨score, hscore, h⟩ := hb.known _ name hname
      obtain rfl : score = x.2 := Option.some.inj (hscore.symm.trans hx)
      exact ⟨name, rfl, h⟩
  refine ⟨_, Go.mapM_of_total (g := fun x => s.contest.teamRow M x.1 (s.teamNames.get x.1 "")
    s.challengeList) fun x hx => ?_, ?_⟩
  · obtain ⟨name, hname, h⟩ := hknown x hx
    rw [scoreRow_eq h, Go.Map.get, hname, Option.getD_some]
  · have hkeys : ((rt.range 8 scores.pairs).map (·.1)).Perm s.teamNames.keys := by
      refine ((rt.range_perm 8 _).map _).trans ?_
      rw [Go.Map.map_fst_pairs]
      refine (List.perm_ext_iff_of_nodup scores.keys_nodup s.teamNames.keys_nodup).mpr
        fun team => ?_
      rw [Go.Map.mem_keys, Go.Map.mem_keys]
      cases hname : s.teamNames.lookup team with
      | none => simp [hb.unknown team hname]
      | some name =>
        obtain ⟨score, hscore, -⟩ := hb.known team name hname
        simp [hscore]
    have hrows : s.teamNames.pairs.map (fun (team, name) =>
        s.contest.teamRow M team name s.challengeList) = s.teamNames.keys.map fun team =>
          s.contest.teamRow M team (s.teamNames.get team "") s.challengeList := by
      rw [← Go.Map.map_fst_pairs, List.map_map]
      refine List.map_congr_left fun ⟨team, name⟩ hx => ?_
      simp [Go.Map.get, Go.Map.mem_pairs.mp hx]
    have h := hkeys.map fun team =>
      s.contest.teamRow M team (s.teamNames.get team "") s.challengeList
    rw [List.map_map] at h
    rw [hrows]
    exact h

/-- The reference rows of all teams. -/
def referenceRows (M : FaustMath K) (s : MemoryGameStore K) : List (ScoreRow K) :=
  s.teamNames.pairs.map fun (team, name) => s.contest.teamRow M team name s.challengeList

/-- The ranks on the stored board, by team. -/
def previousRanks (s : MemoryGameStore K) : Go.Map String Nat :=
  Go.Map.fill (·.team) (·.rank) s.scoreboard ∅

variable [LinearOrder K]

/-- The rows of a recompute, sorted and ranked. -/
def placed (rt : Go.Runtime) (s : MemoryGameStore K) (rows : List (ScoreRow K)) :
    List (ScoreRow K) :=
  rankRows s.previousRanks (rt.sortSlice (fun x y => x.standing.before y.standing) rows)

/-- A recompute never fails on a store with good references: it ranks the reference rows. -/
theorem recompute_eq (rt : Go.Runtime) (M : FaustMath K) (hs : References s) :
    ∃ rows, rows.Perm (referenceRows M s) ∧ recomputeScoreboardLocked rt M s =
      some ({ s with scoreboard := placed rt s rows }, placed rt s rows) := by
  obtain ⟨scores₁, h₁, hb₁⟩ := attackPass_books rt hs (books_nil rt s)
  obtain ⟨scores₂, h₂, hb₂⟩ := defensePass_books rt M hs hb₁
  obtain ⟨scores₃, h₃, hb₃⟩ := slaPass_books rt hs hb₂
  have hpostings : ([] ++ (visited rt s).map (attackPosting s) ++
      s.flags.pairs.map (fun (x : String × IssuedFlagRecord) => defensePosting M s x.2) ++
      s.serviceStates.pairs.map slaPosting).Perm (postings M s) := by
    refine List.Perm.append_right _ (List.Perm.append_right _ ?_)
    rw [List.nil_append, visited, List.map_map]
    exact (rt.range_perm 2 _).map _
  have hb₄ := scaleSLA_books rt (faustSLAFactor M s.teamNames.pairs.length) (hb₃.perm hpostings)
  obtain ⟨rows, hrows, hperm⟩ := rows_perm rt hb₄
  refine ⟨rows, hperm, ?_⟩
  rw [visited] at h₁ h₂
  simp only [recomputeScoreboardLocked, sortedChallengeIDs_eq] at h₁ ⊢
  simp only [h₁, h₂, h₃, hrows, Option.bind_eq_bind, Option.bind_some, Option.pure_def]
  rfl

/-! ## The scoreboard -/

omit [LinearOrder K] in
theorem covered (hs : References s) (team : Int) :
    s.contest.Covered team (s.challengeList.map (·.1)) := by
  have hmem : ∀ challenge ∈ s.challenges.keys, challenge ∈ s.challengeList.map (·.1) := by
    intro challenge h
    simpa [challengeList] using mem_sortedIDs.mpr h
  refine ⟨?_, ?_, ?_, ?_⟩
  · simpa [challengeList, Function.comp_def] using nodup_sortedIDs (s := s)
  · intro x hx _
    obtain ⟨⟨key, y⟩, hy, rfl⟩ := List.mem_map.mp hx
    exact hmem _ (hs.submissions key y (Go.Map.mem_pairs.mp hy)).2
  · intro f hf _
    obtain ⟨⟨key, y⟩, hy, rfl⟩ := List.mem_map.mp hf
    exact hmem _ (hs.flags key y (Go.Map.mem_pairs.mp hy)).2
  · intro x hx _
    obtain ⟨⟨key, y⟩, hy, rfl⟩ := List.mem_map.mp hx
    exact hmem _ (hs.states key y (Go.Map.mem_pairs.mp hy)).2

omit [LinearOrder K] in
theorem teamRow_sums (M : FaustMath K) (hs : References s) (team : Int) (name : String) :
    SumsServices (s.contest.teamRow M team name s.challengeList) := by
  have hc := covered hs team
  have hattack : (s.challengeList.map fun x => s.contest.serviceAttack team x.1).sum
      = s.contest.attack team := by
    rw [← hc.attack, List.map_map]
    rfl
  have hdefense : (s.challengeList.map fun x => s.contest.serviceDefense M team x.1).sum
      = s.contest.defense M team := by
    rw [← hc.defense, List.map_map]
    rfl
  have hsla : (s.challengeList.map fun x => s.contest.serviceSLA M team x.1).sum
      = s.contest.sla M team := by
    rw [← hc.sla, List.map_map]
    rfl
  refine ⟨?_, ?_, ?_, ?_⟩ <;>
    simp only [Contest.teamRow, List.map_map, Function.comp_def, Contest.serviceRow,
      List.sum_map_add, hattack, hdefense, hsla]

omit [LinearOrder K] in
theorem unranked_referenceRow {M : FaustMath K} {row : ScoreRow K} (h : row ∈ referenceRows M s) :
    row.unranked = row := by
  obtain ⟨⟨team, name⟩, -, rfl⟩ := List.mem_map.mp h
  rfl

/-- The rows of a recompute are a scoreboard of the reference rows. -/
theorem placed_isScoreboard (rt : Go.Runtime) {M : FaustMath K} {rows : List (ScoreRow K)}
    (hrows : rows.Perm (referenceRows M s)) :
      IsScoreboard (referenceRows M s) (placed rt s rows) := by
  have hunranked : rows.map ScoreRow.unranked = rows := by
    rw [List.map_congr_left fun row hrow => unranked_referenceRow (hrows.mem_iff.mp hrow),
      List.map_id']
  have hboard : IsScoreboard (rows.map ScoreRow.unranked) (placed rt s rows) :=
    isScoreboard_mapIdx rt (fun _ _ => rfl) (fun _ _ => rfl) fun _ _ => rfl
  rw [hunranked] at hboard
  exact hboard.of_perm hrows

omit [Field K] in
/-- The rank changes are determined by the rest of the rows. -/
theorem map_delta_placed (rt : Go.Runtime) (rows : List (ScoreRow K)) :
    ((placed rt s rows).map ScoreRow.undelta).map (fun row =>
      { row with delta := rankDelta (s.previousRanks.get row.team 0) row.rank })
        = placed rt s rows := by
  refine List.ext_getElem (by simp) fun i h₁ h₂ => ?_
  simp [placed, rankRows, ScoreRow.undelta]

/-- On a store whose flags, submissions and states refer to known teams and challenges, a
recompute yields the reference rows, ranked from 1 in the order of their standings; every score is
the sum of its breakdown. If the team names are distinct, the outcome is the same for every
runtime. -/
theorem recompute_scoreboard (M : FaustMath K) (s : MemoryGameStore K) (hs : References s) :
    (∀ rt, ∃ rows, recomputeScoreboardLocked rt M s = some ({ s with scoreboard := rows }, rows) ∧
      IsScoreboard (referenceRows M s) rows ∧ ∀ row ∈ rows, SumsServices row) ∧
    ((s.teamNames.pairs.map (·.2)).Nodup → ∀ rt rt',
      recomputeScoreboardLocked rt M s = recomputeScoreboardLocked rt' M s) := by
  constructor
  · intro rt
    obtain ⟨rows, hperm, heq⟩ := recompute_eq rt M hs
    have hboard := placed_isScoreboard rt hperm
    refine ⟨_, heq, hboard, hboard.forall_sums.mpr fun row hrow => ?_⟩
    obtain ⟨⟨team, name⟩, -, rfl⟩ := List.mem_map.mp hrow
    exact teamRow_sums M hs team name
  · intro hnames rt rt'
    obtain ⟨rows, hperm, heq⟩ := recompute_eq rt M hs
    obtain ⟨rows', hperm', heq'⟩ := recompute_eq rt' M hs
    have hnames' : ((referenceRows M s).map (·.team)).Nodup := by
      rw [referenceRows, List.map_map]
      exact hnames
    have hundelta := (placed_isScoreboard rt hperm).unique (placed_isScoreboard rt' hperm')
      (List.Perm.refl _) hnames'
    have hplaced : placed rt s rows = placed rt' s rows' := by
      rw [← map_delta_placed rt rows, hundelta, map_delta_placed]
    rw [heq, heq', hplaced]

omit [Field K] [LinearOrder K] in
theorem References.of_pairs
    (hsubmissions : ∀ x ∈ s.accepted.pairs, x.2.submittingTeam ∈ s.teamNames.keys ∧
      (s.flags.get x.2.flag .zero).challengeID ∈ s.challenges.keys)
    (hflags : ∀ x ∈ s.flags.pairs, x.2.ownerTeamID ∈ s.teamNames.keys ∧
      x.2.challengeID ∈ s.challenges.keys)
    (hstates : ∀ x ∈ s.serviceStates.pairs, x.1.teamID ∈ s.teamNames.keys ∧
      x.1.challengeID ∈ s.challenges.keys) : References s where
  submissions key x h := hsubmissions (key, x) (Go.Map.mem_pairs.mpr h)
  flags key x h := hflags (key, x) (Go.Map.mem_pairs.mpr h)
  states key x h := hstates (key, x) (Go.Map.mem_pairs.mpr h)

/-- Four teams and two services; the first team has captured a flag of the second. -/
def oneCapture : MemoryGameStore ℚ where
  teamNames := Go.Map.fill (·.1) (·.2)
    [((1 : Int), "Alpha"), (2, "Delta"), (3, "Sigma"), (4, "Orchid")] ∅
  challenges := Go.Map.fill (·.1) (·.2)
    [((1 : Int), { name := "banking" }), (2, { name := "chat" })] ∅
  flags := Go.Map.fill (·.flag) id
    [{ IssuedFlagRecord.zero with flag := "f", ownerTeamID := 2, challengeID := 1 }] ∅
  accepted := Go.Map.fill (fun x => acceptedSubmissionKey x.flag x.submittingTeam) id
    [{ flag := "f", submittingTeam := 1, attackerName := "Alpha", victimName := "Delta"
       challengeName := "banking", challengeID := 1, submissionTick := 1, expiresTick := 1
       submittedAt := 0 }] ∅

theorem recompute_scoreboard_oneCapture :
    (∀ rt, ∃ rows, recomputeScoreboardLocked rt squareMath oneCapture
        = some ({ oneCapture with scoreboard := rows }, rows) ∧
      IsScoreboard (referenceRows squareMath oneCapture) rows ∧ ∀ row ∈ rows, SumsServices row) ∧
    ∀ rt rt', recomputeScoreboardLocked rt squareMath oneCapture
      = recomputeScoreboardLocked rt' squareMath oneCapture := by
  have hs : References oneCapture := by refine References.of_pairs ?_ ?_ ?_ <;> decide
  have h := recompute_scoreboard squareMath oneCapture hs
  exact ⟨h.1, h.2 (by decide)⟩

/-- Two teams of one name, each with one good state, on different services. -/
def sameNames : MemoryGameStore ℚ where
  teamNames := Go.Map.fill (·.1) (·.2)
    [((1 : Int), "Alpha"), (2, "Alpha"), (3, "Sigma"), (4, "Orchid")] ∅
  challenges := Go.Map.fill (·.1) (·.2)
    [((1 : Int), { name := "banking" }), (2, { name := "chat" })] ∅
  serviceStates := Go.Map.fill (·.1) (·.2)
    [({ tickID := 1, teamID := 1, challengeID := 1 }, { status := "ok", tickID := 1 }),
      ({ tickID := 1, teamID := 2, challengeID := 2 }, { status := "ok", tickID := 1 })] ∅

/-- The tie-break by name does not tell teams of one name apart: which of them comes first, and
with it the breakdown in the first row, is up to the runtime. -/
theorem recompute_depends_on_range_order :
    ¬ ∀ (M : FaustMath ℚ) (s : MemoryGameStore ℚ), References s → ∀ rt rt',
      recomputeScoreboardLocked rt M s = recomputeScoreboardLocked rt' M s := by
  intro h
  have hs : References sameNames := by refine References.of_pairs ?_ ?_ ?_ <;> decide
  have heq := h squareMath sameNames hs (.insertion id List.Perm.refl)
    (.insertion List.reverse List.reverse_perm)
  have hfirst := congrArg (fun r => r.map fun x => x.2.map fun row => row.services.map (·.sla)) heq
  exact absurd hfirst (by decide +kernel)

end MemoryGameStore

end ADPlatform.GameCore
