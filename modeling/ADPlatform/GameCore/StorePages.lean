import ADPlatform.Lib.Pages
import ADPlatform.GameCore.AttackFeed
import ADPlatform.GameCore.CheckerRuns

/-! # The lists of the in-memory store, page by page

Checker runs, attack events and scheduler events are filtered as a whole, and one page is cut out of
what is left. The three methods clamp limit and offset in the same way, so they are one pager with a
default of its own each. `pages_read_back` says that a reader who follows the pages of any of them
has read the filtered list, and that no limit and no offset makes a slice leave its list. -/

namespace ADPlatform.GameCore
open Like (Folding)
open Pages
open Text (CaseTable)

/-! ## The filters -/

/-- What a client asks of the checker runs; 0 and blank mean no filter. -/
structure GameCheckerRunQuery where
  limit : Int := 0
  offset : Int := 0
  tickID : Int := 0
  teamID : Int := 0
  challengeID : Int := 0
  phase : String := ""
  status : String := ""

/-- A checker run, as a page has it: with the state of the service that it belongs to. -/
structure ListedCheckerRun where
  run : GameCheckerRun
  serviceState : String := ""
  statePhase : String := ""
  stateMessage : String := ""
  deriving DecidableEq, Repr

/-- What a client asks of the scheduler's events. -/
structure GameSchedulerEventQuery where
  limit : Int := 0
  offset : Int := 0
  eventType : String := ""
  source : String := ""
  state : String := ""

/-- A number that is not positive asks for nothing. -/
def passesID (wanted id : Int) : Bool := !(0 < wanted && id ≠ wanted)

/-- An empty text asks for nothing. -/
def passesText (T : CaseTable) (wanted text : String) : Bool :=
  !(wanted ≠ "" && !T.equalFold text wanted)

/-- The body of the loop: no `continue` before the run is appended. -/
def keepsCheckerRun (T : CaseTable) (query : GameCheckerRunQuery) (run : GameCheckerRun) : Bool :=
  passesID query.tickID run.tickID && passesID query.teamID run.teamID &&
    passesID query.challengeID run.challengeID && passesText T query.phase run.phase &&
    passesText T query.status run.status

/-- Every filter that is given has to match. -/
def keepsSchedulerEvent (T : CaseTable) (query : GameSchedulerEventQuery)
    (event : GameSchedulerEvent) :
    Bool :=
  passesText T query.eventType event.eventType && passesText T query.source event.source &&
    passesText T query.state event.state

/-- The run with the state that the summary says. -/
def applyCheckerRunSummary (run : ListedCheckerRun) (summary : GameServiceStateSummary) :
    ListedCheckerRun :=
  { run with
    serviceState := summary.status, statePhase := summary.phase, stateMessage := summary.message }

namespace MemoryGameStore
variable {K : Type} (s : MemoryGameStore K) (T : CaseTable) (F : Folding)

/-- The run with the summary of its service, if there is one. -/
def listedRun (run : GameCheckerRun) : ListedCheckerRun :=
  match s.serviceStates.lookup run.key with
  | some summary => applyCheckerRunSummary { run } summary
  | none => { run }

/-- The runs that pass the filters, with their states. -/
def filteredCheckerRuns (query : GameCheckerRunQuery) : List ListedCheckerRun :=
  (s.runs.filter (keepsCheckerRun T query)).map s.listedRun

/-- The events that pass the filters. -/
def filteredSchedulerEvents (query : GameSchedulerEventQuery) : List GameSchedulerEvent :=
  s.events.filter (keepsSchedulerEvent T query)

/-! ## The pages -/

/-- `ListAttackFeed`: twelve events a page, if the client does not say. -/
def listAttackFeed (query : AttackFeedQuery) : Option (ListPage AttackEvent) :=
  pageOf 12 (filterAttackFeedRows F s.attackFeed query) query.limit query.offset

/-- `ListCheckerRuns`. -/
def listCheckerRuns (query : GameCheckerRunQuery) : Option (ListPage ListedCheckerRun) :=
  pageOf 25 (s.filteredCheckerRuns T query) query.limit query.offset

/-- `ListSchedulerEvents`. -/
def listSchedulerEvents (query : GameSchedulerEventQuery) : Option (ListPage GameSchedulerEvent) :=
  pageOf 25 (s.filteredSchedulerEvents T query) query.limit query.offset

/-- A reader who follows the pages from the start comes to an end and has the list, each item once
and in order. More pages than there are items, and one more, are never taken. -/
def ReadsBack {α : Type} (list : List α) (fetch : Nat → Option (ListPage α)) : Prop :=
  ∀ fuel, list.length < fuel → ∃ pages,
    followPages (fun offset => (fetch offset).map ListPage.toPage) fuel 0 = some pages ∧
      pages.flatten = list

theorem readsBack_pageOf {α : Type} {defaultLimit : Int} (hdefault : 0 < defaultLimit)
    (list : List α)
    (limit : Int) : ReadsBack list fun offset => pageOf defaultLimit list limit offset := by
  intro fuel hfuel
  obtain ⟨pages, hpages, hflatten⟩ : ∃ pages, followPages
      (fun offset => (pageOf defaultLimit list limit offset).map ListPage.toPage) fuel 0 =
        some pages ∧
      pages.flatten = list.drop 0 :=
    followPages_eq (pageOf_serves hdefault list limit) (by omega) (Nat.zero_le _)
  exact ⟨pages, hpages, by rw [hflatten, List.drop_zero]⟩

/-! ## What is left by the filters -/

theorem passesID_iff {wanted id : Int} : passesID wanted id ↔ wanted ≤ 0 ∨ id = wanted := by
  simp only [passesID, Bool.not_eq_true', Bool.and_eq_false_iff, decide_eq_false_iff_not,
    not_lt, not_not]

theorem passesText_iff {wanted text : String} :
    passesText T wanted text ↔ wanted = "" ∨ T.equalFold text wanted := by
  simp only [passesText, Bool.not_eq_true', Bool.and_eq_false_iff, decide_eq_false_iff_not, not_not,
    Bool.not_eq_false']

theorem filteredCheckerRuns_selected (query : GameCheckerRunQuery) :
    s.filteredCheckerRuns T query = (s.runs.filter fun run => decide <|
        (query.tickID ≤ 0 ∨ run.tickID = query.tickID) ∧
        (query.teamID ≤ 0 ∨ run.teamID = query.teamID) ∧
        (query.challengeID ≤ 0 ∨ run.challengeID = query.challengeID) ∧
        (query.phase = "" ∨ T.equalFold run.phase query.phase) ∧
        (query.status = "" ∨ T.equalFold run.status query.status)).map fun run =>
      match s.serviceStates.lookup run.key with
      | some summary => ⟨run, summary.status, summary.phase, summary.message⟩
      | none => ⟨run, "", "", ""⟩ := by
  rw [filteredCheckerRuns]
  congr 1
  refine List.filter_congr fun run _ => ?_
  rw [Bool.eq_iff_iff, decide_eq_true_iff, keepsCheckerRun]
  simp only [Bool.and_eq_true, passesID_iff, passesText_iff, and_assoc]

theorem filteredSchedulerEvents_selected (query : GameSchedulerEventQuery) :
    s.filteredSchedulerEvents T query = s.events.filter fun event => decide <|
      (query.eventType = "" ∨ T.equalFold event.eventType query.eventType) ∧
      (query.source = "" ∨ T.equalFold event.source query.source) ∧
      (query.state = "" ∨ T.equalFold event.state query.state) := by
  rw [filteredSchedulerEvents]
  refine List.filter_congr fun event _ => ?_
  rw [Bool.eq_iff_iff, decide_eq_true_iff, keepsSchedulerEvent]
  simp only [Bool.and_eq_true, passesText_iff, and_assoc]

theorem filterAttackFeedRows_selected (query : AttackFeedQuery) :
    filterAttackFeedRows F s.attackFeed query = s.attackFeed.filter fun event => decide <|
      (query.attacker = "" ∨ query.attacker.toList.map F.lower <:+:
        event.attacker.toList.map F.lower) ∧
      (query.victim = "" ∨ query.victim.toList.map F.lower <:+: event.victim.toList.map F.lower) ∧
      (query.service = "" ∨ query.service.toList.map F.lower <:+:
        event.service.toList.map F.lower) ∧
      (query.tickFrom ≤ 0 ∨ query.tickFrom ≤ event.tick) ∧
      (query.tickTo ≤ 0 ∨ event.tick ≤ query.tickTo) := by
  rw [filterAttackFeedRows_eq]
  refine List.filter_congr fun event _ => ?_
  rw [Bool.eq_iff_iff, decide_eq_true_iff, keepsAttackEvent_iff]
  simp only [attackFeedFieldMatches_iff, imp_iff_not_or, not_not, not_lt]

/-- Whatever is in the store and whatever is asked for, the pages put end to end are the items that
pass the query, in their order, and every page is there: its bounds are in range. A number that is
not positive and an empty text ask for nothing. -/
theorem pages_read_back :
    (∀ query : GameCheckerRunQuery, ReadsBack
        ((s.runs.filter fun run => decide <|
            (query.tickID ≤ 0 ∨ run.tickID = query.tickID) ∧
            (query.teamID ≤ 0 ∨ run.teamID = query.teamID) ∧
            (query.challengeID ≤ 0 ∨ run.challengeID = query.challengeID) ∧
            (query.phase = "" ∨ T.equalFold run.phase query.phase) ∧
            (query.status = "" ∨ T.equalFold run.status query.status)).map fun run =>
          match s.serviceStates.lookup run.key with
          | some summary => ⟨run, summary.status, summary.phase, summary.message⟩
          | none => ⟨run, "", "", ""⟩)
        (fun offset => s.listCheckerRuns T { query with offset }) ∧
      (s.listCheckerRuns T query).isSome = true) ∧
    (∀ query : AttackFeedQuery, ReadsBack
        (s.attackFeed.filter fun event => decide <|
          (query.attacker = "" ∨
            query.attacker.toList.map F.lower <:+: event.attacker.toList.map F.lower) ∧
          (query.victim = "" ∨ query.victim.toList.map F.lower <:+:
            event.victim.toList.map F.lower) ∧
          (query.service = "" ∨ query.service.toList.map F.lower <:+:
            event.service.toList.map F.lower) ∧
          (query.tickFrom ≤ 0 ∨ query.tickFrom ≤ event.tick) ∧
          (query.tickTo ≤ 0 ∨ event.tick ≤ query.tickTo))
        (fun offset => s.listAttackFeed F { query with offset }) ∧
      (s.listAttackFeed F query).isSome = true) ∧
    ∀ query : GameSchedulerEventQuery, ReadsBack
        (s.events.filter fun event => decide <|
          (query.eventType = "" ∨ T.equalFold event.eventType query.eventType) ∧
          (query.source = "" ∨ T.equalFold event.source query.source) ∧
          (query.state = "" ∨ T.equalFold event.state query.state))
        (fun offset => s.listSchedulerEvents T { query with offset }) ∧
      (s.listSchedulerEvents T query).isSome = true := by
  refine ⟨fun query => ⟨?_, ?_⟩, fun query => ⟨?_, ?_⟩, fun query => ⟨?_, ?_⟩⟩
  · rw [← filteredCheckerRuns_selected]
    exact readsBack_pageOf (by decide) _ _
  · rw [listCheckerRuns, pageOf_eq (by decide)]
    rfl
  · rw [← filterAttackFeedRows_selected]
    exact readsBack_pageOf (by decide) _ _
  · rw [listAttackFeed, pageOf_eq (by decide)]
    rfl
  · rw [← filteredSchedulerEvents_selected]
    exact readsBack_pageOf (by decide) _ _
  · rw [listSchedulerEvents, pageOf_eq (by decide)]
    rfl

/-- An attack at each of the ticks 3, 2 and 1. -/
def attackedThrice : MemoryGameStore Unit :=
  { attackFeed := [event 3, event 2, event 1] }
where event (tick : Int) : AttackEvent :=
  { id := "", attacker := "red", victim := "blue", service := "notes", tick
    verdict := "first valid submission accepted", createdAt := 60 * tick }

/-- Asks for the attacks from tick 2 on, one a page. -/
def fromTickTwo : AttackFeedQuery := { limit := 1, tickFrom := 2 }

/-- The two attacks are read from two pages. -/
theorem pages_read_back_twoPages : ∃ pages,
    followPages (fun offset => (attackedThrice.listAttackFeed Like.ascii
      { fromTickTwo with offset }).map ListPage.toPage) 3 0 = some pages ∧
    pages.flatten = [attackedThrice.event 3, attackedThrice.event 2] ∧ pages.length = 2 := by
  obtain ⟨pages, hpages, hflatten⟩ :=
    ((attackedThrice.pages_read_back .ascii Like.ascii).2.1 fromTickTwo).1 3 (by decide)
  beta_reduce at hpages
  have htwo : (followPages (fun offset => (attackedThrice.listAttackFeed Like.ascii
      { fromTickTwo with offset }).map ListPage.toPage) 3 0).map List.length = some 2 := by
    decide
  rw [hpages, Option.map_some] at htwo
  exact ⟨pages, hpages, hflatten.trans (by decide), Option.some.inj htwo⟩

end MemoryGameStore

end ADPlatform.GameCore
