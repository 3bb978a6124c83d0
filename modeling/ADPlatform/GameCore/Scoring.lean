import Mathlib.Algebra.BigOperators.Ring.List
import Mathlib.Algebra.Order.Field.Basic
import Mathlib.Data.Prod.Lex
import Mathlib.Data.String.Basic
import Mathlib.Order.Lex
import ADPlatform.Lib.Encoding
import ADPlatform.Lib.Ledger

/-! # The scoring rule

The values that a capture, a lost flag and a service state are worth, the rows of a scoreboard and
their order, and the rule itself as an abstract `Contest`: a list of captures, flags and states,
from which every score is a sum. The stores compute the same sums in their own ways. Scores live
in an ordered field; `FaustMath` supplies the two functions that leave it. -/

namespace ADPlatform.GameCore
open Text Ledger

/-- The functions of the scoring formula that are not rational: `n ^ 0.75` and `√n`. -/
structure FaustMath (K : Type) where
  pow075 : Nat → K
  sqrt : Nat → K

/-- Exact for a single capture and for a square number of teams. -/
def squareMath : FaustMath ℚ where
  pow075 n := n
  sqrt n := n.sqrt

section values
variable {K : Type} [Field K] (M : FaustMath K)

/-- `faustRecoveringValue`. -/
def faustRecoveringValue : K := 1 / 2

/-- `faustAttackValue`: the fewer teams have captured the flag, the more it is worth. -/
def faustAttackValue (captureCount : Nat) : K :=
  if captureCount = 0 then 0 else 1 + 1 / captureCount

/-- `faustDefensePenalty`. -/
def faustDefensePenalty (captureCount : Nat) : K :=
  if captureCount = 0 then 0 else M.pow075 captureCount

/-- `faustSLAValueForStatus`. -/
def faustSLAValueForStatus (status : String) : K :=
  match trimSpace (toLower status) with
  | "ok" => 1
  | "recovering" => faustRecoveringValue
  | _ => 0

/-- `faustSLAFactor`. -/
def faustSLAFactor (teamCount : Nat) : K :=
  if teamCount = 0 then 0 else M.sqrt teamCount

end values

/-- The scores of one service of a team. -/
structure ServiceScoreBreakdown (K : Type) where
  challengeID : Int
  service : String
  attack : K
  defense : K
  sla : K
  total : K
  deriving DecidableEq

/-- A row of the scoreboard. -/
structure ScoreRow (K : Type) where
  rank : Nat
  team : String
  attack : K
  defense : K
  sla : K
  total : K
  delta : String
  services : List (ServiceScoreBreakdown K)
  deriving DecidableEq

/-- `rankDelta`: how many places up. -/
def rankDelta (previousRank currentRank : Nat) : String :=
  if previousRank = 0 then "new"
  else
    let diff : Int := previousRank - currentRank
    if diff > 0 then "+" ++ diff.repr else if diff < 0 then diff.repr else "0"

/-! ## The order of a scoreboard -/

/-- What places a team on the scoreboard. -/
structure Standing (K : Type) where
  total : K
  attack : K
  defense : K
  team : String

section order
variable {K : Type}

/-- The comparison by which both stores sort. -/
def Standing.before [LinearOrder K] (x y : Standing K) : Bool :=
  if x.total ≠ y.total then x.total > y.total
  else if x.attack ≠ y.attack then x.attack > y.attack
  else if x.defense ≠ y.defense then x.defense > y.defense
  else x.team < y.team

/-- Total, attack and defense descending, then the name ascending. -/
def Standing.key (x : Standing K) : Kᵒᵈ ×ₗ Kᵒᵈ ×ₗ Kᵒᵈ ×ₗ String :=
  toLex (OrderDual.toDual x.total, toLex (OrderDual.toDual x.attack,
    toLex (OrderDual.toDual x.defense, x.team)))

theorem Standing.team_eq_of_key_eq {x y : Standing K} (h : x.key = y.key) : x.team = y.team := by
  simp only [key, EmbeddingLike.apply_eq_iff_eq, Prod.mk.injEq] at h
  exact h.2.2.2

variable [LinearOrder K]

theorem Standing.before_iff (x y : Standing K) : x.before y = true ↔ x.key < y.key := by
  simp only [key, Prod.Lex.toLex_lt_toLex, OrderDual.toDual_lt_toDual, OrderDual.toDual_inj]
  unfold before
  split_ifs with htotal hattack hdefense
  · simp [htotal]
  · simp [not_not.mp htotal, hattack]
  · simp [not_not.mp htotal, not_not.mp hattack, hdefense]
  · simp [not_not.mp htotal, not_not.mp hattack, not_not.mp hdefense]

/-- The part of a row that the order looks at. -/
def ScoreRow.standing (row : ScoreRow K) : Standing K :=
  { total := row.total, attack := row.attack, defense := row.defense, team := row.team }

end order

/-! ## Ranked scoreboards -/

/-- A row without its place. -/
def ScoreRow.unranked {K : Type} (row : ScoreRow K) : ScoreRow K :=
  { row with rank := 0, delta := "" }

/-- A row without its rank change. -/
def ScoreRow.undelta {K : Type} (row : ScoreRow K) : ScoreRow K := { row with delta := "" }

section ranked
variable {K : Type} [LinearOrder K]

/-- `rows` are the rows of `reference`, sorted and ranked from 1. -/
structure IsScoreboard (reference rows : List (ScoreRow K)) : Prop where
  perm : (rows.map ScoreRow.unranked).Perm reference
  ranks : rows.map (·.rank) = List.range' 1 rows.length
  sorted : rows.Pairwise fun x y => x.standing.key ≤ y.standing.key

omit [LinearOrder K] in
theorem map_mapIdx_of {α β γ : Type} {f : Nat → α → β} {h : β → γ} {g : α → γ} {l : List α}
    (hg : ∀ i a, h (f i a) = g a) : (l.mapIdx f).map h = l.map g :=
  List.ext_getElem (by simp) fun i _ _ => by simp [hg]

theorem range'_eq_map_mapIdx {α β : Type} {f : Nat → α → β} {rank : β → Nat} {l : List α}
    (hrank : ∀ i a, rank (f i a) = i + 1) :
    (l.mapIdx f).map rank = List.range' 1 (l.mapIdx f).length :=
  List.ext_getElem (by simp) fun i _ _ => by simp [hrank, Nat.add_comm]

/-- Sorting by standing and ranking in order makes a scoreboard. -/
theorem isScoreboard_mapIdx {α : Type} (rt : Go.Runtime) {less : α → α → Bool}
    {row : α → ScoreRow K} {ranked : Nat → α → ScoreRow K} {l : List α}
    (hless : ∀ a b, less a b = (row a).standing.before (row b).standing)
    (hranked : ∀ i a, (ranked i a).unranked = row a) (hrank : ∀ i a, (ranked i a).rank = i + 1) :
    IsScoreboard (l.map row) ((rt.sortSlice less l).mapIdx ranked) := by
  have hunranked := map_mapIdx_of (l := rt.sortSlice less l) hranked
  refine ⟨?_, range'_eq_map_mapIdx hrank, ?_⟩
  · rw [hunranked]
    exact (rt.sortSlice_perm less l).map row
  · have hkey : ∀ a b, less a b = true ↔ (row a).standing.key < (row b).standing.key :=
      fun a b => by rw [hless, Standing.before_iff]
    have hsorted := rt.sortSlice_key_sorted hkey l
    have hmap : (((rt.sortSlice less l).mapIdx ranked).map ScoreRow.unranked).Pairwise
        fun x y => x.standing.key ≤ y.standing.key := by
      rw [hunranked, List.pairwise_map]
      exact hsorted
    rw [List.pairwise_map] at hmap
    exact hmap

theorem IsScoreboard.of_perm {reference reference' rows : List (ScoreRow K)}
    (h : IsScoreboard reference rows) (hp : reference.Perm reference') :
    IsScoreboard reference' rows := ⟨h.perm.trans hp, h.ranks, h.sorted⟩

/-- Rows with distinct names are ranked in one way. -/
theorem IsScoreboard.unique {reference reference' rows rows' : List (ScoreRow K)}
    (h : IsScoreboard reference rows) (h' : IsScoreboard reference' rows')
    (hp : reference.Perm reference') (hnames : (reference.map (·.team)).Nodup) :
    rows.map ScoreRow.undelta = rows'.map ScoreRow.undelta := by
  have hperm : (rows.map ScoreRow.unranked).Perm (rows'.map ScoreRow.unranked) :=
    h.perm.trans (hp.trans h'.perm.symm)
  have hinj : ∀ x ∈ rows.map ScoreRow.unranked, ∀ y ∈ rows.map ScoreRow.unranked,
      x.standing.key = y.standing.key → x = y := by
    intro x hx y hy hkey
    exact List.inj_on_of_nodup_map hnames (h.perm.mem_iff.mp hx) (h.perm.mem_iff.mp hy)
      (Standing.team_eq_of_key_eq hkey)
  have hunranked : rows.map ScoreRow.unranked = rows'.map ScoreRow.unranked :=
    Go.Runtime.eq_of_key_sorted hperm hinj (List.pairwise_map.mpr h.sorted)
      (List.pairwise_map.mpr h'.sorted)
  have hranks : rows.map (·.rank) = rows'.map (·.rank) := by
    rw [h.ranks, h'.ranks, ← List.length_map (f := ScoreRow.unranked), hunranked, List.length_map]
  refine List.ext_getElem (by simpa using congrArg List.length hunranked) fun i h₁ h₂ => ?_
  have hi : i < rows.length := by simpa using h₁
  have hi' : i < rows'.length := by simpa using h₂
  have hrow : rows[i].unranked = rows'[i].unranked := by
    simpa [hi, hi'] using congrArg (·[i]?) hunranked
  have hrank : rows[i].rank = rows'[i].rank := by
    simpa [hi, hi'] using congrArg (·[i]?) hranks
  simp only [List.getElem_map, ScoreRow.undelta]
  simp only [ScoreRow.unranked, ScoreRow.mk.injEq] at hrow
  simp [hrow, hrank]

end ranked

/-- The scores of a row are the sums over its services. -/
structure SumsServices {K : Type} [AddCommMonoid K] (row : ScoreRow K) : Prop where
  attack : row.attack = (row.services.map (·.attack)).sum
  defense : row.defense = (row.services.map (·.defense)).sum
  sla : row.sla = (row.services.map (·.sla)).sum
  total : row.total = (row.services.map (·.total)).sum

/-- Whether the rows have the sums of their services is decided before they are ranked. -/
theorem IsScoreboard.forall_sums {K : Type} [LinearOrder K] [AddCommMonoid K]
    {reference rows : List (ScoreRow K)} (h : IsScoreboard reference rows) :
    (∀ row ∈ rows, SumsServices row) ↔ ∀ row ∈ reference, SumsServices row := by
  have hunranked : ∀ row : ScoreRow K, SumsServices row.unranked ↔ SumsServices row := fun row =>
    ⟨fun h => ⟨h.attack, h.defense, h.sla, h.total⟩, fun h => ⟨h.attack, h.defense, h.sla, h.total⟩⟩
  constructor
  · intro hrows row hrow
    obtain ⟨ranked, hranked, rfl⟩ := List.mem_map.mp (h.perm.mem_iff.mpr hrow)
    exact (hunranked ranked).mpr (hrows ranked hranked)
  · intro hrows row hrow
    exact (hunranked row).mp (hrows _ (h.perm.mem_iff.mp (List.mem_map_of_mem hrow)))

/-! ## The rule -/

/-- The three components of a score. -/
inductive Component where
  | attack | defense | sla
  deriving DecidableEq

/-- A flag that a team has captured. -/
structure Capture where
  flag : String
  team : Int
  challenge : Int

/-- A flag and whose it is. -/
structure OwnedFlag where
  flag : String
  owner : Int
  challenge : Int

/-- The value of the state of a team's service in one tick. -/
structure StateValue (K : Type) where
  team : Int
  challenge : Int
  value : K

/-- What the scores of a game depend on. -/
structure Contest (K : Type) where
  teamCount : Nat
  captures : List Capture
  flags : List OwnedFlag
  states : List (StateValue K)

namespace Contest
variable {K : Type}

/-- How many teams have captured a flag. -/
def captureCount (c : Contest K) (flag : String) : Nat := c.captures.countP (·.flag = flag)

variable [Field K] (M : FaustMath K) (c : Contest K) (team challenge : Int)

/-- The sum of `1 + 1 / captures` over the flags that the team has captured. -/
def attack : K :=
  sumWhere c.captures (·.team = team) fun x => 1 + 1 / (c.captureCount x.flag : K)

/-- Minus the sum of the penalties of the team's own flags. -/
def defense : K :=
  -sumWhere c.flags (·.owner = team) fun f => faustDefensePenalty M (c.captureCount f.flag)

/-- The sum of the values of the team's service states, times the factor of the team count. -/
def sla : K := faustSLAFactor M c.teamCount * sumWhere c.states (·.team = team) (·.value)

/-- The share of one service in `attack`. -/
def serviceAttack : K :=
  sumWhere c.captures (fun x => x.team = team ∧ x.challenge = challenge) fun x =>
    1 + 1 / (c.captureCount x.flag : K)

/-- The penalty for the captured flags of the service. -/
def serviceDefense : K :=
  -sumWhere c.flags (fun f => f.owner = team ∧ f.challenge = challenge) fun f =>
    faustDefensePenalty M (c.captureCount f.flag)

/-- The points for the states of the service. -/
def serviceSLA : K :=
  faustSLAFactor M c.teamCount *
    sumWhere c.states (fun x => x.team = team ∧ x.challenge = challenge) (·.value)

/-- The row of one service in a team's breakdown. -/
def serviceRow (service : String) : ServiceScoreBreakdown K where
  challengeID := challenge
  service
  attack := c.serviceAttack team challenge
  defense := c.serviceDefense M team challenge
  sla := c.serviceSLA M team challenge
  total := c.serviceAttack team challenge + c.serviceDefense M team challenge +
    c.serviceSLA M team challenge

/-- The row of a team, before it is ranked. -/
def teamRow (name : String) (challenges : List (Int × String)) : ScoreRow K where
  rank := 0
  team := name
  attack := c.attack team
  defense := c.defense M team
  sla := c.sla M team
  total := c.attack team + c.defense M team + c.sla M team
  delta := ""
  services := challenges.map fun (challenge, service) => c.serviceRow M team challenge service

/-- Every capture, flag and state of the team is at a challenge of the list. -/
structure Covered (challenges : List Int) : Prop where
  nodup : challenges.Nodup
  captures : ∀ x ∈ c.captures, x.team = team → x.challenge ∈ challenges
  flags : ∀ f ∈ c.flags, f.owner = team → f.challenge ∈ challenges
  states : ∀ x ∈ c.states, x.team = team → x.challenge ∈ challenges

variable {c team}

theorem Covered.attack {challenges : List Int} (h : c.Covered team challenges) :
    (challenges.map (c.serviceAttack team)).sum = c.attack team :=
  sum_sumWhere h.nodup h.captures

theorem Covered.defense {challenges : List Int} (h : c.Covered team challenges) :
    (challenges.map (c.serviceDefense M team)).sum = c.defense M team := by
  unfold serviceDefense
  rw [sum_map_neg, Contest.defense, sum_sumWhere h.nodup h.flags]

theorem Covered.sla {challenges : List Int} (h : c.Covered team challenges) :
    (challenges.map (c.serviceSLA M team)).sum = c.sla M team := by
  unfold serviceSLA
  rw [List.sum_map_mul_left, Contest.sla, sum_sumWhere h.nodup h.states]

end Contest

end ADPlatform.GameCore
