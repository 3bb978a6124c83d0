import ADPlatform.GameCore.Types
import ADPlatform.Lib.Like

/-! # The attack feed

The feed is listed by attacker, victim, service and ticks. The memory store looks for the filter in
the field; the database is given the filter between two percent signs as a pattern, and reads its
percent signs, underscores and backslashes as it reads those of any pattern. -/

namespace ADPlatform.GameCore
open Like

/-- What a client asks of the feed. -/
structure AttackFeedQuery where
  limit : Int := 0
  offset : Int := 0
  attacker : String := ""
  victim : String := ""
  service : String := ""
  tickFrom : Int := 0
  tickTo : Int := 0
  deriving DecidableEq, Repr

section
variable (F : Folding)

/-- `column ILIKE $n`, with `filter` between percent signs for the parameter. -/
def ilikeFilter (value filter : String) : Bool :=
  F.ilike ("%" ++ filter ++ "%").toList value.toList

/-- A predicate that is in the clause only when its filter is set. -/
def conditionIf (isSet : Bool) (condition : AttackEvent → Bool) : List (AttackEvent → Bool) :=
  if isSet then [condition] else []

/-- The predicates that are joined by `AND`. -/
def attackFeedConditions (query : AttackFeedQuery) : List (AttackEvent → Bool) :=
  (fun _ => true) ::
    conditionIf (query.attacker ≠ "") (fun event => ilikeFilter F event.attacker query.attacker) ++
    conditionIf (query.victim ≠ "") (fun event => ilikeFilter F event.victim query.victim) ++
    conditionIf (query.service ≠ "") (fun event => ilikeFilter F event.service query.service) ++
    conditionIf (0 < query.tickFrom) (fun event => query.tickFrom ≤ event.tick) ++
    conditionIf (0 < query.tickTo) (fun event => event.tick ≤ query.tickTo)

/-- The database's clause: every filter that is given has to match. -/
def whereClause (query : AttackFeedQuery) (event : AttackEvent) : Bool :=
  (attackFeedConditions F query).all (· event)

/-- `attackFeedFieldMatches`: part of the value, in any case. -/
def attackFeedFieldMatches (value filter : String) : Bool :=
  if filter = "" then true
  else decide (filter.toList.map F.lower <:+: value.toList.map F.lower)

/-- The body of the loop: no `continue` before the event is appended. -/
def keepsAttackEvent (query : AttackFeedQuery) (event : AttackEvent) : Bool :=
  attackFeedFieldMatches F event.attacker query.attacker &&
  attackFeedFieldMatches F event.victim query.victim &&
  attackFeedFieldMatches F event.service query.service &&
  !(0 < query.tickFrom && event.tick < query.tickFrom) &&
  !(0 < query.tickTo && query.tickTo < event.tick)

/-- `filterAttackFeedRows`. -/
def filterAttackFeedRows (events : List AttackEvent) (query : AttackFeedQuery) : List AttackEvent :=
  if query.attacker = "" ∧ query.victim = "" ∧ query.service = "" ∧
      query.tickFrom = 0 ∧ query.tickTo = 0 then events
  else events.filter (keepsAttackEvent F query)

end

/-! ## A field -/

/-- None of the three characters that a pattern gives a meaning. -/
def PlainFilter (filter : String) : Prop := ∀ c ∈ filter.toList, isMeta c = false

variable {F : Folding} {value filter : String} {query : AttackFeedQuery} {event : AttackEvent}

theorem ilikeFilter_eq :
    ilikeFilter F value filter = F.ilike (contains filter.toList) value.toList := by
  simp [ilikeFilter, contains]

theorem attackFeedFieldMatches_iff : attackFeedFieldMatches F value filter ↔
    filter ≠ "" → filter.toList.map F.lower <:+: value.toList.map F.lower := by
  unfold attackFeedFieldMatches
  split <;> simp_all

theorem PlainFilter.agree (h : PlainFilter filter) :
    (filter ≠ "" → ilikeFilter F value filter) ↔ attackFeedFieldMatches F value filter := by
  rw [attackFeedFieldMatches_iff, ilikeFilter_eq, F.ilike_plain h]

/-- A value that the database takes for the filter, and that has the filter in it only when that
is plain. -/
theorem ilikeFilter_sampled (filter : String) : ∃ value, ilikeFilter F value filter ∧
    (attackFeedFieldMatches F value filter → PlainFilter filter) := by
  obtain ⟨s, hs, hplain⟩ := F.ilike_sampled filter.toList
  refine ⟨String.ofList s, by simpa [ilikeFilter_eq] using hs, fun h => ?_⟩
  by_cases hempty : filter = ""
  · subst hempty
    exact nofun
  · have := attackFeedFieldMatches_iff.mp h hempty
    exact hplain (by simpa using this)

/-! ## An event -/

theorem all_conditionIf {isSet : Bool} {condition : AttackEvent → Bool} :
    (conditionIf isSet condition).all (· event) ↔ (isSet → condition event) := by
  cases isSet <;> simp [conditionIf]

theorem whereClause_iff : whereClause F query event ↔
    (query.attacker ≠ "" → ilikeFilter F event.attacker query.attacker) ∧
    (query.victim ≠ "" → ilikeFilter F event.victim query.victim) ∧
    (query.service ≠ "" → ilikeFilter F event.service query.service) ∧
    (0 < query.tickFrom → query.tickFrom ≤ event.tick) ∧
    (0 < query.tickTo → event.tick ≤ query.tickTo) := by
  simp only [whereClause, attackFeedConditions, List.cons_append, List.all_cons, List.all_append,
    Bool.and_eq_true, all_conditionIf, decide_eq_true_eq, true_and, and_assoc]

theorem keepsAttackEvent_iff : keepsAttackEvent F query event ↔
    attackFeedFieldMatches F event.attacker query.attacker ∧
    attackFeedFieldMatches F event.victim query.victim ∧
    attackFeedFieldMatches F event.service query.service ∧
    (0 < query.tickFrom → query.tickFrom ≤ event.tick) ∧
    (0 < query.tickTo → event.tick ≤ query.tickTo) := by
  simp only [keepsAttackEvent, Bool.and_eq_true, Bool.not_eq_true', Bool.and_eq_false_iff,
    decide_eq_false_iff_not, not_lt, and_assoc]
  simp only [← not_lt, ← imp_iff_not_or]

/-- A query with no filter is no special case. -/
theorem filterAttackFeedRows_eq {events : List AttackEvent} :
    filterAttackFeedRows F events query = events.filter (keepsAttackEvent F query) := by
  unfold filterAttackFeedRows
  split
  · rename_i hempty
    obtain ⟨hattacker, hvictim, hservice, hfrom, hto⟩ := hempty
    refine (List.filter_eq_self.mpr fun event _ => keepsAttackEvent_iff.mpr ?_).symm
    simp [attackFeedFieldMatches, hattacker, hvictim, hservice, hfrom, hto]
  · rfl

/-! ## The two selections -/

/-- No filter has a character that is special in a pattern. -/
def PlainQuery (query : AttackFeedQuery) : Prop :=
  PlainFilter query.attacker ∧ PlainFilter query.victim ∧ PlainFilter query.service

/-- No tick is in the range. -/
def EmptyRange (query : AttackFeedQuery) : Prop :=
  0 < query.tickFrom ∧ 0 < query.tickTo ∧ query.tickTo < query.tickFrom

theorem exists_tick (h : ¬EmptyRange query) : ∃ tick, (0 < query.tickFrom → query.tickFrom ≤ tick) ∧
    (0 < query.tickTo → tick ≤ query.tickTo) := by
  rw [EmptyRange] at h
  by_cases hfrom : 0 < query.tickFrom
  · exact ⟨query.tickFrom, fun _ => le_rfl, fun hto => by omega⟩
  · exact ⟨query.tickTo, fun h => absurd h hfrom, fun _ => le_rfl⟩

theorem PlainQuery.agree (h : PlainQuery query) :
    whereClause F query event = keepsAttackEvent F query event := by
  rw [Bool.eq_iff_iff, whereClause_iff, keepsAttackEvent_iff, h.1.agree, h.2.1.agree, h.2.2.agree]

theorem EmptyRange.agree (h : EmptyRange query) :
    whereClause F query event = keepsAttackEvent F query event := by
  obtain ⟨hfrom, hto, hlt⟩ := h
  have hno : ¬((0 < query.tickFrom → query.tickFrom ≤ event.tick) ∧
      (0 < query.tickTo → event.tick ≤ query.tickTo)) := by
    rintro ⟨hge, hle⟩
    have := hge hfrom
    have := hle hto
    omega
  rw [Bool.eq_iff_iff, whereClause_iff, keepsAttackEvent_iff]
  tauto

/-- Outside an empty range of ticks there is an event that the database selects, and that the
memory store selects only when no filter has one of the three characters. -/
theorem whereClause_sampled (h : ¬EmptyRange query) :
    ∃ event, whereClause F query event ∧ (keepsAttackEvent F query event → PlainQuery query) := by
  obtain ⟨attacker, hattacker, hplainAttacker⟩ := ilikeFilter_sampled (F := F) query.attacker
  obtain ⟨victim, hvictim, hplainVictim⟩ := ilikeFilter_sampled (F := F) query.victim
  obtain ⟨service, hservice, hplainService⟩ := ilikeFilter_sampled (F := F) query.service
  obtain ⟨tick, hfrom, hto⟩ := exists_tick h
  refine ⟨⟨"", attacker, victim, service, tick, "", 0⟩, ?_, fun hkeeps => ?_⟩
  · exact whereClause_iff.mpr
      ⟨fun _ => hattacker, fun _ => hvictim, fun _ => hservice, hfrom, hto⟩
  · obtain ⟨hattacker, hvictim, hservice, -⟩ := keepsAttackEvent_iff.mp hkeeps
    exact ⟨hplainAttacker hattacker, hplainVictim hvictim, hplainService hservice⟩

end ADPlatform.GameCore
