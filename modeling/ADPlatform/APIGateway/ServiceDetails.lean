import ADPlatform.APIGateway.Types
import ADPlatform.GameCore.ServiceState
import ADPlatform.Lib.Pages
import Mathlib.Data.List.Infix

/-! # Checker results in the services of a team

What participants see of the last checks of their services. `enrichServiceStatesWithSLADetails`
reads the checker runs of the team page by page and stops as soon as it has met an older tick of
every challenge; each service gets the summary of all runs of its greatest tick
(`enrichServiceStates_eq`). -/

namespace ADPlatform.APIGateway
open GameCore (GameCheckerRun GameServiceStateSummary summarizeCheckerRunsForTick)
open Pages Text

/-- A service state with the fields that only the handler sets. -/
structure DetailedState extends ServiceState where
  slaPhase : String := ""
  slaTickID : Int := 0
  deriving DecidableEq, Repr

/-- A run with the state that the checker has reported itself. -/
structure ReportedRun extends GameCheckerRun where
  serviceState : String := ""
  statePhase : String := ""
  stateMessage : String := ""
  deriving DecidableEq, Repr

/-! ## Messages -/

/-- The texts that a participant is not to see in a message. -/
def sensitiveMarkers : List String :=
  ["ad_flag=", "ad_checker_token=", "ad_metadata=", "docker run", "playit\x7b", "--entrypoint",
    "checker_token"]

/-- The markers are ASCII texts. -/
def containsSensitiveCheckerDetail (message : String) : Bool :=
  sensitiveMarkers.any fun marker => marker.toList <:+: (toLower message).toList

/-- `sanitizeParticipantSLAMessage`: a message that names a secret gives way to the phase's own. -/
def sanitizeParticipantSLAMessage (summary : GameServiceStateSummary) : String :=
  let message := trimSpace summary.message
  if message ≠ "" ∧ !containsSensitiveCheckerDetail message then message
  else match toLower (trimSpace summary.phase) with
  | "put" => "checker could not store the flag in the service"
  | "get" => "checker could not retrieve the stored flag"
  | "check" => "service functionality check failed"
  | _ => match toLower (trimSpace summary.status) with
    | "ok" => "service passed storage, retrieval, and functionality checks"
    | "recovering" => "flag storage failed but retrieval and functionality still passed"
    | "flag_not_found" => "checker could not retrieve the stored flag"
    | "faulty" => "service functionality check failed"
    | "down" => "service did not complete the latest checker cycle"
    | _ => "service state detail unavailable"

/-- `fallbackSLAStatus`: what is shown without a summary. -/
def fallbackSLAStatus (T : CaseTable) (checker : String) : String :=
  if T.equalFold (trimSpace checker) "warning" then "down"
  else if trimSpace checker = "" then "unknown"
  else "ok"

/-- `fallbackSLAMessage`. -/
def fallbackSLAMessage (T : CaseTable) (checker : String) : String :=
  if T.equalFold (trimSpace checker) "warning" then
    "checker warning; service state detail unavailable"
  else if trimSpace checker = "" then "awaiting first checker run"
  else "checker passing; service state detail unavailable"

/-! ## Summaries -/

/-- A state that a checker has reported itself goes before the summary of the runs. -/
def summarizeSLARuns (runs : List ReportedRun) (tickID : Int) : GameServiceStateSummary :=
  match runs.find? fun run => trimSpace run.serviceState ≠ "" with
  | some run =>
    { status := trimSpace run.serviceState
      phase := trimSpace run.statePhase
      tickID
      message := trimSpace run.stateMessage }
  | none => summarizeCheckerRunsForTick (runs.map (·.toGameCheckerRun)) tickID

namespace DetailedState

/-- What a service shows before any run is known. -/
def withFallback (T : CaseTable) (state : DetailedState) : DetailedState :=
  { state with
    slaStatus := if trimSpace state.slaStatus = "" then fallbackSLAStatus T state.checker
      else state.slaStatus
    slaMessage := if trimSpace state.slaMessage = "" then fallbackSLAMessage T state.checker
      else state.slaMessage }

/-- The state with what the summary says of it. -/
def withSummary (state : DetailedState) (summary : GameServiceStateSummary) : DetailedState :=
  let state := { state with
    slaStatus := summary.status
    slaPhase := summary.phase
    slaTickID := summary.tickID
    slaMessage := sanitizeParticipantSLAMessage summary }
  match toLower (trimSpace summary.status) with
  | "ok" | "recovering" => { state with status := "stable", checker := "passing" }
  | "down" | "faulty" | "flag_not_found" =>
    { state with status := "degraded", checker := "warning" }
  | _ => state

theorem challengeID_withSummary (state : DetailedState) (summary : GameServiceStateSummary) :
    (state.withSummary summary).challengeID = state.challengeID := by
  unfold withSummary
  dsimp only
  split <;> rfl

end DetailedState

/-- The first state of the challenge gets the summary. -/
def applySLASummary : List DetailedState → Int → GameServiceStateSummary → List DetailedState
  | [], _, _ => []
  | state :: states, challengeID, summary =>
    if state.challengeID ≠ challengeID then state :: applySLASummary states challengeID summary
    else state.withSummary summary :: states

/-! ## The loop -/

/-- The newest tick seen of a challenge, with its runs. -/
structure LatestTickRuns where
  tickID : Int
  runs : List ReportedRun

/-- The loop's variables. -/
structure Enriching where
  states : List DetailedState
  /-- the challenges without a summary -/
  remaining : Go.Map Int Unit
  accumulators : Go.Map Int LatestTickRuns

namespace Enriching

/-- A run of a challenge belongs to the tick of the challenge's first run, or it ends that tick. -/
def visit (e : Enriching) (run : ReportedRun) : Enriching :=
  if (e.remaining.lookup run.challengeID).isNone then e
  else
    let accumulator := (e.accumulators.lookup run.challengeID).getD ⟨run.tickID, []⟩
    if run.tickID = accumulator.tickID then
      { e with accumulators :=
          e.accumulators.insert run.challengeID ⟨accumulator.tickID, accumulator.runs ++ [run]⟩ }
    else
      { e with
        states := applySLASummary e.states run.challengeID
          (summarizeSLARuns accumulator.runs accumulator.tickID)
        remaining := e.remaining.erase run.challengeID }

/-- The loop ends when no challenge is left without a summary. -/
def finished (e : Enriching) : Bool := e.remaining.keys.isEmpty

/-- What is left when the runs end. -/
def finish (e : Enriching) (rt : Go.Runtime) : List DetailedState :=
  (rt.range 0 e.remaining.keys).foldl (fun states challengeID =>
    match e.accumulators.lookup challengeID with
    | none => states
    | some accumulator =>
      if accumulator.runs = [] then states
      else applySLASummary states challengeID
        (summarizeSLARuns accumulator.runs accumulator.tickID))
    e.states

end Enriching

/-- `fetch` answers with the page behind an offset, of at most so many runs, unless the request
fails. The loop reads no more than `fuel` pages. -/
def enrichServiceStatesWithSLADetails (T : CaseTable) (rt : Go.Runtime)
    (fetch : Nat → Nat → Option (Page ReportedRun)) (fuel : Nat) (states : List DetailedState) :
    Option (List DetailedState) :=
  if states = [] then some states
  else
    let states := states.map (·.withFallback T)
    let remaining := Go.Map.fill (·.challengeID) (fun _ => ()) states ∅
    let limit := max (states.length * 3) 25
    match readPages (fetch limit) Enriching.visit Enriching.finished fuel 0
        ⟨states, remaining, ∅⟩ with
    | none => none
    | some (e, false) => some e.states
    | some (e, true) => some (e.finish rt)

/-! ## What the services should show -/

/-- The runs of the challenge, in their order. -/
def runsOf (runs : List ReportedRun) (challengeID : Int) : List ReportedRun :=
  runs.filter (·.challengeID = challengeID)

/-- The runs of a challenge that belong to its greatest tick. -/
def latestRuns (runs : List ReportedRun) (challengeID : Int) : List ReportedRun :=
  (runsOf runs challengeID).filter fun run =>
    (runsOf runs challengeID).all fun other => other.tickID ≤ run.tickID

/-- The summary of the runs of the greatest tick, or the fallback where the challenge has no run. -/
def DetailedState.summarized (T : CaseTable) (runs : List ReportedRun) (state : DetailedState) :
    DetailedState :=
  match latestRuns runs state.challengeID with
  | [] => state.withFallback T
  | run :: rest => (state.withFallback T).withSummary (summarizeSLARuns (run :: rest) run.tickID)

/-! ## The first tick of a list -/

section
variable {runs : List ReportedRun} {run first : ReportedRun} {challengeID : Int}

/-- The runs in front that have the tick of the first one. -/
def firstTick : List ReportedRun → List ReportedRun
  | [] => []
  | run :: runs => run :: runs.takeWhile (·.tickID = run.tickID)

/-- A list of one tick goes on, or ends with the first run of another tick. -/
theorem firstTick_concat (h : firstTick (first :: runs) = first :: runs) :
    firstTick (first :: runs ++ [run]) =
      if run.tickID = first.tickID then first :: runs ++ [run] else first :: runs := by
  have hall := List.takeWhile_eq_self_iff.mp (List.cons.inj h).2
  rw [List.cons_append, firstTick, List.takeWhile_append_of_pos hall, List.takeWhile_cons]
  split
  · rename_i htick
    rw [if_pos (of_decide_eq_true htick)]
    rfl
  · rename_i htick
    rw [if_neg (by simpa using htick), List.append_nil]

theorem firstTick_concat_of_ne (h : firstTick runs ≠ runs) :
    firstTick (runs ++ [run]) = firstTick runs ∧ firstTick (runs ++ [run]) ≠ runs ++ [run] := by
  cases runs with
  | nil => exact absurd rfl h
  | cons first runs =>
    have hother : ∃ other ∈ runs, ¬decide (other.tickID = first.tickID) = true := by
      by_contra hall
      refine h (congrArg (first :: ·) (List.takeWhile_eq_self_iff.mpr fun other hmem => ?_))
      exact not_not.mp fun hne => hall ⟨other, hmem, hne⟩
    have heq : (runs ++ [run]).takeWhile (·.tickID = first.tickID) =
        runs.takeWhile (·.tickID = first.tickID) := by
      rw [List.takeWhile_append, if_neg]
      intro hlength
      obtain ⟨other, hmem, htick⟩ := hother
      have hself :=
        (List.takeWhile_prefix (l := runs) (·.tickID = first.tickID)).eq_of_length hlength
      exact htick (List.takeWhile_eq_self_iff.mp hself other hmem)
    refine ⟨congrArg (first :: ·) heq, fun hself => ?_⟩
    rw [List.cons_append] at hself
    have hlength := congrArg List.length (List.cons.inj hself).2
    rw [heq, List.length_append, List.length_singleton] at hlength
    have := (List.takeWhile_prefix (l := runs) (·.tickID = first.tickID)).length_le
    omega

theorem filter_eq_takeWhile {tickID : Int} (h : runs.Pairwise fun a b => b.tickID ≤ a.tickID)
    (hle : ∀ run ∈ runs, run.tickID ≤ tickID) :
    runs.filter (·.tickID = tickID) = runs.takeWhile (·.tickID = tickID) := by
  induction runs with
  | nil => rfl
  | cons first runs ih =>
    obtain ⟨hfirst, hruns⟩ := List.pairwise_cons.mp h
    obtain ⟨hlefirst, hle⟩ := List.forall_mem_cons.mp hle
    by_cases htick : first.tickID = tickID
    · rw [List.filter_cons_of_pos (by simpa using htick),
        List.takeWhile_cons_of_pos (by simpa using htick),
        ih hruns hle]
    · -- what stands behind a smaller tick is smaller still
      have hnone : ∀ run ∈ runs, ¬decide (run.tickID = tickID) = true := by
        intro run hrun
        have := hfirst run hrun
        simp only [decide_eq_true_eq]
        omega
      rw [List.filter_cons_of_neg (by simpa using htick),
        List.takeWhile_cons_of_neg (by simpa using htick)]
      exact List.filter_eq_nil_iff.mpr hnone

/-- In a list by descending ticks, the first tick is the greatest one. -/
theorem latestRuns_eq (h : runs.Pairwise fun a b => b.tickID ≤ a.tickID) :
    latestRuns runs challengeID = firstTick (runsOf runs challengeID) := by
  have hmine : (runsOf runs challengeID).Pairwise fun a b => b.tickID ≤ a.tickID := h.filter _
  unfold latestRuns
  generalize runsOf runs challengeID = mine at hmine
  cases mine with
  | nil => rfl
  | cons first mine =>
    obtain ⟨hfirst, hrest⟩ := List.pairwise_cons.mp hmine
    have hgreatest : ∀ run ∈ first :: mine,
        ((first :: mine).all fun other => other.tickID ≤ run.tickID) =
          decide (run.tickID = first.tickID) := by
      intro run hrun
      have hle : run.tickID ≤ first.tickID := by
        rcases List.mem_cons.mp hrun with rfl | hrun
        · exact le_rfl
        · exact hfirst run hrun
      refine Bool.eq_iff_iff.mpr ?_
      rw [List.all_eq_true, decide_eq_true_eq]
      constructor
      · intro hall
        exact hle.antisymm (of_decide_eq_true (hall first List.mem_cons_self))
      · intro htick other hother
        rw [decide_eq_true_eq, htick]
        rcases List.mem_cons.mp hother with rfl | hother
        · exact le_rfl
        · exact hfirst other hother
    rw [List.filter_congr hgreatest, List.filter_cons_of_pos (by simp),
      filter_eq_takeWhile hrest hfirst]
    rfl

end

/-! ## The states along the loop -/

section
variable {T : CaseTable} {initial states : List DetailedState} {seen runs : List ReportedRun}
  {run : ReportedRun} {e : Enriching} {challengeID : Int}

/-- The summary of the first tick, once a run of another one has ended it. -/
def ended (runs : List ReportedRun) : Option GameServiceStateSummary :=
  match runs with
  | [] => none
  | run :: _ => if firstTick runs = runs then none
    else some (summarizeSLARuns (firstTick runs) run.tickID)

/-- The runs of a tick that has not ended. -/
def collected : List ReportedRun → Option LatestTickRuns
  | [] => none
  | run :: runs => some ⟨run.tickID, run :: runs⟩

theorem challengeID_elim (state : DetailedState) (summary : Option GameServiceStateSummary) :
    (summary.elim state state.withSummary).challengeID = state.challengeID := by
  cases summary with
  | none => rfl
  | some summary => exact state.challengeID_withSummary summary

/-- Each challenge stands where its own runs have brought it. -/
structure Progress (initial : List DetailedState) (seen : List ReportedRun)
    (e : Enriching) : Prop where
  states : e.states = initial.map fun state =>
    (ended (runsOf seen state.challengeID)).elim state state.withSummary
  remaining : ∀ c, (e.remaining.lookup c).isSome ↔
    c ∈ initial.map (·.challengeID) ∧ ended (runsOf seen c) = none
  accumulators : ∀ c, (e.remaining.lookup c).isSome →
    e.accumulators.lookup c = collected (runsOf seen c)

theorem Progress.nodup_ids (h : Progress initial seen e)
    (hids : (initial.map (·.challengeID)).Nodup) :
    (e.states.map (·.challengeID)).Nodup := by
  rw [h.states, List.map_map]
  refine (congrArg List.Nodup (List.map_congr_left fun state _ => ?_)).mpr hids
  exact challengeID_elim state _

/-- A summary goes to the one state of its challenge. -/
theorem applySLASummary_eq (h : (states.map (·.challengeID)).Nodup) (c : Int)
    (summary : GameServiceStateSummary) : applySLASummary states c summary =
      states.map fun state =>
        if state.challengeID = c then state.withSummary summary else state := by
  induction states with
  | nil => rfl
  | cons state states ih =>
    rw [List.map_cons, List.nodup_cons] at h
    rw [applySLASummary, List.map_cons]
    by_cases hc : state.challengeID = c
    · have hothers : ∀ other ∈ states, other.challengeID ≠ c := by
        intro other hother heq
        exact h.1 (hc.trans heq.symm ▸ List.mem_map_of_mem hother)
      rw [if_neg (not_not.mpr hc), if_pos hc]
      have hkeep : states.map (fun state =>
        if state.challengeID = c then state.withSummary summary else state) =
          states.map id :=
        List.map_congr_left fun other hother => if_neg (hothers other hother)
      rw [hkeep, List.map_id]
    · rw [if_pos hc, if_neg hc, ih h.2]

theorem runsOf_concat_self : runsOf (seen ++ [run]) run.challengeID =
    runsOf seen run.challengeID ++ [run] := by
  simp [runsOf]

theorem runsOf_concat_of_ne (h : challengeID ≠ run.challengeID) :
    runsOf (seen ++ [run]) challengeID = runsOf seen challengeID := by
  simp [runsOf, h.symm]

/-- What a run is compared with: the tick before it, or its own one. -/
def accumulator (runs : List ReportedRun) (run : ReportedRun) : LatestTickRuns :=
  (collected runs).getD ⟨run.tickID, []⟩

theorem collected_concat : collected (runs ++ [run]) =
    some ⟨(accumulator runs run).tickID, (accumulator runs run).runs ++ [run]⟩ := by
  cases runs <;> rfl

/-- A run goes to the tick of its challenge, or ends it. -/
theorem ended_concat (h : ended runs = none) : ended (runs ++ [run]) =
    if run.tickID = (accumulator runs run).tickID then none
    else some (summarizeSLARuns (accumulator runs run).runs (accumulator runs run).tickID) := by
  cases runs with
  | nil => simp [ended, firstTick, accumulator, collected]
  | cons first runs =>
    have hone : firstTick (first :: runs) = first :: runs := by
      by_contra hne
      simp [ended, hne] at h
    have hconcat : firstTick (first :: runs ++ [run]) = _ := firstTick_concat hone
    rw [List.cons_append] at hconcat ⊢
    have hbefore : accumulator (first :: runs) run = ⟨first.tickID, first :: runs⟩ := rfl
    rw [ended, hconcat, hbefore]
    by_cases htick : run.tickID = first.tickID
    · rw [if_pos htick, if_pos htick, if_pos rfl]
    · rw [if_neg htick, if_neg htick, if_neg]
      intro hself
      have hlength := congrArg List.length hself
      simp at hlength

theorem ended_concat_of_some {summary : GameServiceStateSummary} (h : ended runs = some summary) :
    ended (runs ++ [run]) = some summary := by
  cases runs with
  | nil => cases h
  | cons first runs =>
    have hne : firstTick (first :: runs) ≠ first :: runs := by
      intro hself
      simp [ended, hself] at h
    obtain ⟨hkeep, hlonger⟩ : firstTick (first :: runs ++ [run]) = _ ∧ _ :=
      firstTick_concat_of_ne hne
    rw [ended, if_neg hne] at h
    rw [List.cons_append] at hkeep hlonger ⊢
    rw [ended, if_neg hlonger, hkeep, h]

theorem progress_start (initial : List DetailedState) :
    Progress initial [] ⟨initial, Go.Map.fill (·.challengeID) (fun _ => ()) initial ∅, ∅⟩ where
  states := by simp [runsOf, ended]
  remaining c := by simp [Go.Map.isSome_lookup_fill, runsOf, ended]
  accumulators _ _ := rfl

namespace Progress

/-- The challenge of the run has its summary, or it is none of the team's. -/
theorem skip (h : Progress initial seen e) (hgone : e.remaining.lookup run.challengeID = none) :
    Progress initial (seen ++ [run]) e := by
  have hkeep : ∀ c ∈ initial.map (·.challengeID),
      ended (runsOf (seen ++ [run]) c) = ended (runsOf seen c) := by
    intro c hc
    by_cases hown : c = run.challengeID
    · have hsome : ended (runsOf seen c) ≠ none := by
        intro hnone
        have hthere := (h.remaining c).mpr ⟨hc, hnone⟩
        rw [hown, hgone] at hthere
        cases hthere
      obtain ⟨summary, hsummary⟩ := Option.ne_none_iff_exists'.mp hsome
      rw [hsummary, hown, runsOf_concat_self, ended_concat_of_some (hown ▸ hsummary)]
    · rw [runsOf_concat_of_ne hown]
  refine ⟨?_, fun c => ?_, fun c hc => ?_⟩
  · rw [h.states]
    exact List.map_congr_left fun state hstate => by rw [hkeep _ (List.mem_map_of_mem hstate)]
  · rw [h.remaining]
    exact and_congr_right fun hc => by rw [hkeep c hc]
  · have hother : c ≠ run.challengeID := by
      intro hown
      rw [hown, hgone] at hc
      cases hc
    rw [runsOf_concat_of_ne hother, h.accumulators c hc]

/-- A run of the tick that its challenge is at. -/
theorem collect (h : Progress initial seen e) (hopen : ended (runsOf seen run.challengeID) = none)
    (htick : run.tickID = (accumulator (runsOf seen run.challengeID) run).tickID) :
    Progress initial (seen ++ [run]) { e with
      accumulators := e.accumulators.insert run.challengeID
        ⟨(accumulator (runsOf seen run.challengeID) run).tickID,
          (accumulator (runsOf seen run.challengeID) run).runs ++ [run]⟩ } := by
  have hkeep : ∀ c, ended (runsOf (seen ++ [run]) c) = ended (runsOf seen c) := by
    intro c
    by_cases hc : c = run.challengeID
    · rw [hc, runsOf_concat_self, ended_concat hopen, if_pos htick, hopen]
    · rw [runsOf_concat_of_ne hc]
  refine ⟨?_, fun c => ?_, fun c hc => ?_⟩
  · simp only [hkeep, h.states]
  · simp only [hkeep, h.remaining]
  · by_cases hmine : c = run.challengeID
    · rw [hmine, AList.lookup_insert, runsOf_concat_self, collected_concat]
    · rw [AList.lookup_insert_ne hmine, runsOf_concat_of_ne hmine, h.accumulators c hc]

/-- A run of another tick ends the one before it. -/
theorem close (hids : (initial.map (·.challengeID)).Nodup) (h : Progress initial seen e)
    (hopen : ended (runsOf seen run.challengeID) = none)
    (htick : run.tickID ≠ (accumulator (runsOf seen run.challengeID) run).tickID) :
    Progress initial (seen ++ [run]) { e with
      states := applySLASummary e.states run.challengeID
        (summarizeSLARuns (accumulator (runsOf seen run.challengeID) run).runs
          (accumulator (runsOf seen run.challengeID) run).tickID)
      remaining := e.remaining.erase run.challengeID } := by
  have hended : ended (runsOf seen run.challengeID ++ [run]) = _ := ended_concat hopen
  rw [if_neg htick, ← runsOf_concat_self] at hended
  refine ⟨?_, fun c => ?_, fun c hc => ?_⟩
  · rw [applySLASummary_eq (h.nodup_ids hids), h.states, List.map_map]
    refine List.map_congr_left fun state _ => ?_
    rw [Function.comp_apply]
    by_cases hmine : state.challengeID = run.challengeID
    · rw [hmine, hopen, hended, Option.elim_none, if_pos hmine, Option.elim_some]
    · rw [challengeID_elim, if_neg hmine, runsOf_concat_of_ne hmine]
  · by_cases hmine : c = run.challengeID
    · rw [hmine, AList.lookup_erase, hended]
      simp
    · rw [AList.lookup_erase_ne hmine, runsOf_concat_of_ne hmine, h.remaining]
  · have hmine : c ≠ run.challengeID := by
      rintro rfl
      rw [AList.lookup_erase] at hc
      cases hc
    rw [AList.lookup_erase_ne hmine] at hc
    rw [runsOf_concat_of_ne hmine, h.accumulators c hc]

/-- A run changes the standing of its own challenge only. -/
theorem visit (hids : (initial.map (·.challengeID)).Nodup) (h : Progress initial seen e)
    (run : ReportedRun) : Progress initial (seen ++ [run]) (e.visit run) := by
  unfold Enriching.visit
  cases hthere : e.remaining.lookup run.challengeID with
  | none => exact h.skip hthere
  | some _ =>
    have hsome : (e.remaining.lookup run.challengeID).isSome := by rw [hthere]; rfl
    obtain ⟨-, hopen⟩ := (h.remaining _).mp hsome
    rw [h.accumulators _ hsome, ← accumulator]
    dsimp only [Option.isNone_some]
    rw [if_neg Bool.false_ne_true]
    split
    · rename_i htick
      exact h.collect hopen htick
    · rename_i htick
      exact h.close hids hopen htick

theorem foldl_visit (hids : (initial.map (·.challengeID)).Nodup) (h : Progress initial seen e) :
    Progress initial (seen ++ runs) (runs.foldl Enriching.visit e) := by
  induction runs generalizing seen e with
  | nil => rwa [List.append_nil]
  | cons run runs ih =>
    rw [List.append_cons]
    exact ih (h.visit hids run)

end Progress

/-! ## The end of the loop -/

theorem visit_of_finished (e : Enriching) (run : ReportedRun) (h : e.finished = true) :
    e.visit run = e := by
  have hnone : e.remaining.lookup run.challengeID = none := by
    rw [← Option.not_isSome_iff_eq_none, ← Go.Map.mem_keys, List.isEmpty_iff.mp h]
    exact List.not_mem_nil
  rw [Enriching.visit, hnone]
  rfl

/-- Summaries that go to different challenges do not meet. -/
theorem foldl_applySLASummary (summary : Int → Option GameServiceStateSummary) {keys : List Int}
    (hkeys : keys.Nodup) (h : (states.map (·.challengeID)).Nodup) :
    keys.foldl (fun states c => (summary c).elim states (applySLASummary states c)) states =
      states.map fun state => if state.challengeID ∈ keys then
        (summary state.challengeID).elim state state.withSummary else state := by
  induction keys generalizing states with
  | nil => simp
  | cons c keys ih =>
    obtain ⟨hc, hkeys⟩ := List.nodup_cons.mp hkeys
    have hstep : (summary c).elim states (applySLASummary states c) = states.map fun state =>
        if state.challengeID = c then (summary c).elim state state.withSummary else state := by
      cases summary c with
      | none => simp
      | some summary => exact applySLASummary_eq h c summary
    have hid : ∀ state : DetailedState, (if state.challengeID = c then
        (summary c).elim state state.withSummary else state).challengeID = state.challengeID := by
      intro state
      split
      · exact challengeID_elim state _
      · rfl
    rw [List.foldl_cons, hstep, ih hkeys, List.map_map]
    · refine List.map_congr_left fun state _ => ?_
      rw [Function.comp_apply, hid]
      by_cases hmine : state.challengeID = c
      · rw [hmine, if_neg hc, if_pos rfl, if_pos List.mem_cons_self]
      · simp only [if_neg hmine, List.mem_cons, or_iff_right hmine]
    · rw [List.map_map]
      exact (congrArg List.Nodup (List.map_congr_left fun state _ => hid state)).mpr h

/-- The summary of all runs of a challenge that has one tick only. -/
def leftover (e : Enriching) (challengeID : Int) : Option GameServiceStateSummary :=
  match e.accumulators.lookup challengeID with
  | none => none
  | some accumulator =>
    if accumulator.runs = [] then none
    else some (summarizeSLARuns accumulator.runs accumulator.tickID)

theorem finish_eq (rt : Go.Runtime) : e.finish rt = (rt.range 0 e.remaining.keys).foldl
    (fun states c => (leftover e c).elim states (applySLASummary states c)) e.states := by
  unfold Enriching.finish
  congr 1
  funext states c
  unfold leftover
  cases e.accumulators.lookup c with
  | none => rfl
  | some accumulator =>
    dsimp only
    split <;> rfl

/-- Once all runs are read, each challenge has the summary of its first tick. -/
theorem Progress.finish_eq_map (hids : (initial.map (·.challengeID)).Nodup)
    (h : Progress initial runs e)
    (rt : Go.Runtime) : e.finish rt = initial.map fun state =>
      match firstTick (runsOf runs state.challengeID) with
      | [] => state
      | run :: rest => state.withSummary (summarizeSLARuns (run :: rest) run.tickID) := by
  have hperm := rt.range_perm 0 e.remaining.keys
  rw [finish_eq,
    foldl_applySLASummary _ (hperm.nodup_iff.mpr e.remaining.keys_nodup) (h.nodup_ids hids),
    h.states, List.map_map]
  refine List.map_congr_left fun state hstate => ?_
  have hmem : ∀ summary : Option GameServiceStateSummary,
      (summary.elim state state.withSummary).challengeID ∈ rt.range 0 e.remaining.keys ↔
        (e.remaining.lookup state.challengeID).isSome := by
    intro summary
    rw [challengeID_elim, hperm.mem_iff, Go.Map.mem_keys]
  rw [Function.comp_apply]
  cases hended : ended (runsOf runs state.challengeID) with
  | some summary =>
    have hgone : ¬(e.remaining.lookup state.challengeID).isSome := by
      intro hthere
      rw [((h.remaining _).mp hthere).2] at hended
      cases hended
    rw [if_neg ((hmem _).not.mpr hgone), Option.elim_some]
    cases hmine : runsOf runs state.challengeID with
    | nil =>
      rw [hmine] at hended
      cases hended
    | cons first rest =>
      rw [hmine, ended] at hended
      split at hended
      · cases hended
      · exact congrArg state.withSummary (Option.some.inj hended).symm
  | none =>
    have hthere := (h.remaining _).mpr ⟨List.mem_map_of_mem hstate, hended⟩
    rw [if_pos ((hmem _).mpr hthere), Option.elim_none, leftover, h.accumulators _ hthere]
    cases hmine : runsOf runs state.challengeID with
    | nil => rfl
    | cons first rest =>
      rw [hmine, ended] at hended
      split at hended
      · rename_i hone
        rw [hone]
        rfl
      · cases hended

/-! ## Main results -/

/-- However the runs are cut into pages, each service gets the summary of all runs of the greatest
tick of its challenge, and the fallback where there is no run. -/
theorem enrichServiceStates_eq (T : CaseTable) (rt : Go.Runtime)
    (fetch : Nat → Nat → Option (Page ReportedRun))
    (fuel : Nat) (states : List DetailedState) (runs : List ReportedRun)
    (hids : (states.map (·.challengeID)).Nodup)
    (hticks : runs.Pairwise fun a b => b.tickID ≤ a.tickID)
    (hserves : ∀ limit, Serves runs (fetch limit)) (hfuel : runs.length < fuel) :
    enrichServiceStatesWithSLADetails T rt fetch fuel states =
      some (states.map (·.summarized T runs)) := by
  unfold enrichServiceStatesWithSLADetails
  split
  · rename_i hempty
    rw [hempty]
    rfl
  dsimp only
  have hids' : ((states.map (·.withFallback T)).map (·.challengeID)).Nodup := by
    rw [List.map_map]
    exact hids
  rw [readPages_eq (hserves _) visit_of_finished _ (by omega) (Nat.zero_le _), List.drop_zero]
  dsimp only
  have hread : Progress _ ([] ++ runs) _ :=
    (progress_start (states.map (·.withFallback T))).foldl_visit hids'
  rw [List.nil_append] at hread
  rw [hread.finish_eq_map hids' rt, List.map_map]
  refine congrArg some (List.map_congr_left fun state _ => ?_)
  rw [DetailedState.summarized, latestRuns_eq hticks]
  rfl

/-- The run of a phase. -/
def phaseRun (tickID challengeID : Int) (phase status : String) : ReportedRun where
  id := 0
  tickID
  teamID := 1
  teamName := "blue"
  challengeID
  challengeName := "notes"
  phase
  target := "10.0.0.2"
  checkerImage := "notes-checker"
  status
  exitCode := 0
  message := ""
  output := ""
  checkedAt := none

/-- A service state before any check. -/
def fresh (challengeID : Int) : DetailedState where
  challengeID
  teamID := 1
  endpoint := ""
  status := "stable"
  checker := ""
  sshHint := ""
  lastEvent := ""
  resetCooldown := ""

/-- Pages of two runs cut the last tick of a challenge in two. -/
def splitTick : List ReportedRun :=
  [phaseRun 5 1 "put" "failed", phaseRun 5 1 "get" "success", phaseRun 5 1 "check" "success",
    phaseRun 4 1 "put" "success"]

theorem enrichServiceStates_eq_splitTick :
    enrichServiceStatesWithSLADetails CaseTable.ascii Go.Runtime.inOrder
        (fun _ offset => some ⟨(splitTick.drop offset).take 2,
          offset + ((splitTick.drop offset).take 2).length < splitTick.length⟩) 5
            [fresh 1, fresh 2] =
      some ([fresh 1, fresh 2].map (·.summarized CaseTable.ascii splitTick)) ∧
    [fresh 1, fresh 2].map (fun state => (state.summarized CaseTable.ascii splitTick).slaStatus) =
      ["recovering", "unknown"] :=
  ⟨enrichServiceStates_eq CaseTable.ascii Go.Runtime.inOrder _ 5 _ splitTick (by decide) (by decide)
    (fun _ _ => ⟨2, fun _ => by decide, rfl⟩) (by decide), by decide +kernel⟩

end

end ADPlatform.APIGateway
