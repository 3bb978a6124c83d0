import ADPlatform.CheckerRunner.Frames
import ADPlatform.GameCore.CycleSummary

/-! # Batches that begin alike

Two containers may print the same frames first and part behind them. What the game core records
for the phases of these frames depends on what follows all the same: a batch fails closed. The
runner reads the frames of a container all or not at all, and a batch of which it reads none counts
as a failure of the first phase. -/

namespace ADPlatform.CheckerRunner
open GameCore ByteString Concurrent
open Text (bytes)

/-! ## The phases of a request -/

theorem normalizeCheckerPhase_self :
    ∀ phase ∈ ["put", "get", "check"], normalizeCheckerPhase phase = some phase := by
  decide +kernel

theorem normalizeCheckerPhase_mem {value phase : String}
    (h : normalizeCheckerPhase value = some phase) : phase ∈ ["put", "get", "check"] := by
  unfold normalizeCheckerPhase at h
  split at h <;> cases h <;> simp

/-- The phases that the game core asks for. -/
structure RequestedPhases (phases : List String) : Prop where
  ne_nil : phases ≠ []
  nodup : phases.Nodup
  normalized : ∀ phase ∈ phases, normalizeCheckerPhase phase = some phase

theorem requestedPhases (value : String) : RequestedPhases (parseCheckerPhases value) := by
  unfold parseCheckerPhases
  dsimp only
  split
  · exact ⟨by simp, by decide, normalizeCheckerPhase_self⟩
  · rename_i hne
    refine ⟨hne, List.nodup_reverse.mpr (List.nodup_dedup _), fun phase hphase => ?_⟩
    simp only [List.mem_reverse, List.mem_dedup, List.mem_filterMap] at hphase
    obtain ⟨value, -, hvalue⟩ := hphase
    exact normalizeCheckerPhase_self phase (normalizeCheckerPhase_mem hvalue)

theorem RequestedPhases.normalize {phases : List String} (h : RequestedPhases phases) :
    normalizeCheckerPhases phases = some phases := by
  have hmap : phases.mapM normalizeCheckerPhase = some phases := by
    rw [Go.mapM_of_total h.normalized, List.map_id']
  rw [normalizeCheckerPhases, if_neg h.ne_nil, hmap, Option.filter_some,
    if_pos (decide_eq_true h.nodup)]

/-- A request that is not refused is accepted as it is. -/
theorem RequestedPhases.accepted {phases : List String} (h : RequestedPhases phases)
    {env : RunnerEnv} {target : CheckerTarget} (hrefusal : refusal env phases target = none) :
    acceptedPhases phases target = some phases := by
  unfold refusal at hrefusal
  split at hrefusal
  · cases hrefusal
  rename_i haccepted
  unfold acceptedPhases at haccepted ⊢
  split
  · rename_i hinvalid
    rw [if_pos hinvalid] at haccepted
    exact (haccepted rfl).elim
  · exact h.normalize

/-! ## Containers whose frames are read -/

section Reads
variable (env : RunnerEnv)

/-- The message of the phase that failed, if one did, can be redacted. -/
def failureRedacts (frames : Frames) : List String → Bool
  | [] => true
  | phase :: phases =>
    match frames.lookup phase with
    | none => true
    | some frame =>
      if frame.exitCode = 0 then failureRedacts frames phases
      else (commandFailureMessage env.lower .phase
        (parseCheckerServiceStateOutput env.unmarshal frame.output false).1 frame.exitCode).isSome

/-- The output is whole, and so are the results that the runner makes of it. -/
def ContainerRun.readsBack (c : ContainerRun) (phases : List String) : Bool :=
  c.err.isNone && c.written.length ≤ maxCheckerProcessOutputBytes &&
    match parseCheckerBatchFrames c.written with
    | .error _ => false
    | .ok frames => failureRedacts env frames phases

/-- The output is whole: the command ended well within the limit, and what it wrote are frames. -/
def ContainerRun.whole (c : ContainerRun) : Bool :=
  c.err.isNone && c.written.length ≤ maxCheckerProcessOutputBytes &&
    match parseCheckerBatchFrames c.written with
    | .error _ => false
    | .ok _ => true

/-- The message of a phase that failed can be redacted. -/
def ContainerRun.redacts (c : ContainerRun) (phases : List String) : Prop :=
  ∀ frames, parseCheckerBatchFrames c.written = .ok frames → failureRedacts env frames phases = true

/-- The statuses that frames give to phases. -/
def frameStatuses (frames : Frames) : List String → List String
  | [] => []
  | phase :: phases =>
    match frames.lookup phase with
    | none => "skipped" :: phases.map fun _ => "skipped"
    | some frame =>
      if frame.exitCode = 0 then "success" :: frameStatuses frames phases
      else "failed" :: phases.map fun _ => "skipped"

end Reads

variable {env : RunnerEnv} {frames : Frames} {phases : List String}

theorem ContainerRun.redacts.readsBack_eq {c : ContainerRun} (h : c.redacts env phases) :
    c.readsBack env phases = c.whole := by
  unfold readsBack whole
  cases hparse : parseCheckerBatchFrames c.written with
  | error e => rfl
  | ok frames => simp only [h frames hparse]

theorem phaseResult_eq (env : RunnerEnv) (checkedAt : Stamp) (phase : String)
    (frame : CheckerBatchFrame)
    (h : frame.exitCode = 0 ∨ (commandFailureMessage env.lower .phase
      (parseCheckerServiceStateOutput env.unmarshal frame.output false).1
      frame.exitCode).isSome = true) :
    ∃ pr, phaseResult env checkedAt phase frame = some pr ∧ pr.phase = phase ∧
      pr.status = if frame.exitCode = 0 then "success" else "failed" := by
  by_cases hcode : frame.exitCode = 0
  · simp [phaseResult, hcode]
  · obtain ⟨message, hmessage⟩ := Option.isSome_iff_exists.mp (h.resolve_left hcode)
    simp [phaseResult, hcode, hmessage]

theorem phaseStatus_of_notMem {results : List CheckerPhaseResult} {phase : String}
    (h : phase ∉ results.map (·.phase)) : phaseStatus (.ok results) phase = none := by
  rw [phaseStatus, Go.Map.lookup_fill_of_notMem h]
  rfl

theorem phaseStatus_of_mem {results : List CheckerPhaseResult} {pr : CheckerPhaseResult}
    (hnodup : (results.map (·.phase)).Nodup) (h : pr ∈ results) :
    phaseStatus (.ok results) pr.phase = some (normalizedCheckerRunStatus pr.status) := by
  have hlookup : (Go.Map.fill (·.phase) id results ∅ : Go.Map String CheckerPhaseResult).lookup
      pr.phase = some pr := Go.Map.lookup_fill_of_mem hnodup h
  rw [phaseStatus, hlookup]
  rfl

theorem normalizedCheckerRunStatus_result : normalizedCheckerRunStatus "success" = "success" ∧
    normalizedCheckerRunStatus "failed" = "failed" := by
  decide +kernel

/-- The results of frames, behind those of phases before, and the statuses that they give. -/
theorem phaseResults_statuses (checkedAt : Stamp) (h : failureRedacts env frames phases = true)
    (before : List CheckerPhaseResult) (hnodup : (before.map (·.phase) ++ phases).Nodup) :
    ∃ results, phaseResults env checkedAt frames phases = some results ∧
      results.map (·.phase) <+: phases ∧
      reachedStatuses (.ok (before ++ results)) phases = frameStatuses frames phases := by
  induction phases generalizing before with
  | nil => exact ⟨[], rfl, List.nil_prefix, rfl⟩
  | cons phase phases ih =>
    have hphase : phase ∉ before.map (·.phase) := fun hmem =>
      (List.disjoint_of_nodup_append hnodup) hmem (.head _)
    cases hframe : frames.lookup phase with
    | none =>
      refine ⟨[], by simp [phaseResults, hframe], List.nil_prefix, ?_⟩
      have hstatus : phaseStatus (.ok before) phase = none := phaseStatus_of_notMem hphase
      simp [reachedStatuses, frameStatuses, hframe, hstatus]
    | some frame =>
      simp only [failureRedacts, hframe] at h
      by_cases hcode : frame.exitCode = 0
      · rw [if_pos hcode] at h
        obtain ⟨pr, hpr, rfl, hstatus⟩ := phaseResult_eq env checkedAt phase frame (.inl hcode)
        rw [if_pos hcode] at hstatus
        obtain ⟨results, hresults, hstarts, hstatuses⟩ :=
          ih h (before ++ [pr]) (by simpa using hnodup)
        have hnodup' : ((before ++ [pr] ++ results).map (·.phase)).Nodup := by
          refine hnodup.sublist ?_
          simpa using hstarts.sublist
        have hreached :
            phaseStatus (.ok (before ++ [pr] ++ results)) pr.phase = some "success" := by
          rw [phaseStatus_of_mem hnodup' (by simp), hstatus, normalizedCheckerRunStatus_result.1]
        refine ⟨pr :: results, by simp [phaseResults, hframe, hpr, hcode, hresults],
          by simpa using hstarts, ?_⟩
        rw [List.append_assoc, List.singleton_append] at hreached hstatuses
        simp [reachedStatuses, frameStatuses, hframe, hcode, hreached, hstatuses]
      · rw [if_neg hcode] at h
        obtain ⟨pr, hpr, rfl, hstatus⟩ := phaseResult_eq env checkedAt phase frame (.inr h)
        rw [if_neg hcode] at hstatus
        have hnodup' : ((before ++ [pr]).map (·.phase)).Nodup := by
          refine hnodup.sublist ?_
          simp
        have hreached : phaseStatus (.ok (before ++ [pr])) pr.phase = some "failed" := by
          rw [phaseStatus_of_mem hnodup' (by simp), hstatus, normalizedCheckerRunStatus_result.2]
        refine ⟨[pr], by simp [phaseResults, hframe, hpr, hcode], by simp, ?_⟩
        simp [reachedStatuses, frameStatuses, hframe, hcode, hreached]

/-- A message that cannot be redacted takes the results down with it. -/
theorem phaseResults_eq_none (checkedAt : Stamp) (h : failureRedacts env frames phases = false) :
    phaseResults env checkedAt frames phases = none := by
  induction phases with
  | nil => cases h
  | cons phase phases ih =>
    cases hframe : frames.lookup phase with
    | none => simp [failureRedacts, hframe] at h
    | some frame =>
      simp only [failureRedacts, hframe] at h
      by_cases hcode : frame.exitCode = 0
      · rw [if_pos hcode] at h
        simp [phaseResults, hframe, hcode, ih h]
      · rw [if_neg hcode, Option.isSome_eq_false_iff, Option.isNone_iff_eq_none] at h
        simp [phaseResults, phaseResult, hframe, hcode, h]

theorem execDocker_eq (c : ContainerRun) :
    execDocker c =
      if c.written.length ≤ maxCheckerProcessOutputBytes then
        match c.err with
        | none => (c.written, 0, none)
        | some (.exit code) => (c.written, code, some (.command (.exit code)))
        | some e => (c.written, -1, some (.command e))
      else (c.written.take maxCheckerProcessOutputBytes, -1, some .outputLimit) := by
  have hcapture : captureOutput maxCheckerProcessOutputBytes c.chunks =
      (c.written.take maxCheckerProcessOutputBytes,
        decide (maxCheckerProcessOutputBytes < c.written.length)) := captureOutput_eq _ _
  unfold execDocker
  rw [hcapture]
  dsimp only
  by_cases hlimit : c.written.length ≤ maxCheckerProcessOutputBytes
  · rw [if_neg (by simpa using hlimit), if_pos hlimit, List.take_of_length_le hlimit]
    cases c.err with
    | none => rfl
    | some e => cases e <;> rfl
  · rw [if_pos (by simpa using hlimit), if_neg hlimit]

/-- The statuses of a batch that fails as a whole. -/
def failedStatuses : List String → List String
  | [] => []
  | _ :: phases => "failed" :: phases.map fun _ => "skipped"

theorem reachedStatuses_error (message : String) (phases : List String) :
    reachedStatuses (.error message) phases = failedStatuses phases := by
  cases phases <;> rfl

theorem reachedStatuses_first {pr : CheckerPhaseResult} {phases : List String}
    (hphase : phases.head? = some pr.phase) (hstatus : pr.status = "failed") :
    reachedStatuses (.ok [pr]) phases = failedStatuses phases := by
  cases phases with
  | nil => rfl
  | cons phase phases =>
    obtain rfl : phase = pr.phase := Option.some.inj hphase
    have hreached : phaseStatus (.ok [pr]) pr.phase = some "failed" := by
      rw [phaseStatus_of_mem (by simp) (by simp), hstatus, normalizedCheckerRunStatus_result.2]
    simp [reachedStatuses, failedStatuses, hreached]

theorem batchFailure_statuses {checkedAt : Stamp} {message : List UInt8} {dropped : String} :
    reachedStatuses (match batchFailure checkedAt phases message with
      | some results => .ok results
      | none => .error dropped) phases = failedStatuses phases := by
  cases phases with
  | nil => rfl
  | cons phase phases => exact reachedStatuses_first rfl rfl

section Batch
variable {target : CheckerTarget} {c : ContainerRun} {now : Time}

theorem executeBatch_accepted (hphases : RequestedPhases phases)
    (hrefusal : refusal env phases target = none) :
    executeBatch env phases target c now =
      match executeCheckerBatch env phases c now.formatRFC3339 with
      | some results => .ok results
      | none => .error env.dropped := by
  cases hbatch : executeCheckerBatch env phases c now.formatRFC3339 with
  | some results => simp [executeBatch, hrefusal, hphases.accepted hrefusal, hbatch]
  | none => simp [executeBatch, hrefusal, hphases.accepted hrefusal, hbatch]

/-- A batch whose frames are read has the statuses of its frames. -/
theorem statuses_of_readsBack (hphases : RequestedPhases phases)
    (hrefusal : refusal env phases target = none) (h : c.readsBack env phases = true)
    (now : Time) :
    ∃ frames, parseCheckerBatchFrames c.written = .ok frames ∧
      reachedStatuses (executeBatch env phases target c now) phases =
        frameStatuses frames phases := by
  simp only [ContainerRun.readsBack, Bool.and_eq_true, decide_eq_true_eq,
    Option.isNone_iff_eq_none] at h
  obtain ⟨⟨herr, hlimit⟩, hparse⟩ := h
  split at hparse
  · cases hparse
  rename_i frames hframes
  refine ⟨frames, hframes, ?_⟩
  obtain ⟨results, hresults, -, hstatuses⟩ :=
    phaseResults_statuses now.formatRFC3339 hparse [] hphases.nodup
  have hexecute : executeCheckerBatch env phases c now.formatRFC3339 = some results := by
    simp only [executeCheckerBatch, execDocker_eq, if_pos hlimit, herr, hframes, hresults]
  rw [executeBatch_accepted hphases hrefusal, hexecute]
  exact hstatuses

/-- A batch that is refused, or whose frames are not read, fails as a whole. -/
theorem statuses_of_not_readsBack (hphases : RequestedPhases phases)
    (h : refusal env phases target ≠ none ∨ c.readsBack env phases = false) :
    reachedStatuses (executeBatch env phases target c now) phases = failedStatuses phases := by
  by_cases hrefusal : refusal env phases target = none
  swap
  · obtain ⟨reason, hreason⟩ := Option.ne_none_iff_exists'.mp hrefusal
    rw [executeBatch, hreason]
    exact reachedStatuses_error _ _
  replace h := h.resolve_left (not_not.mpr hrefusal)
  rw [executeBatch_accepted hphases hrefusal]
  have hmessage : ∀ err output, reachedStatuses
      (match (commandFailureMessage env.lower err output (-1)).bind
          (batchFailure now.formatRFC3339 phases) with
        | some results => .ok results
        | none => .error env.dropped) phases = failedStatuses phases := by
    intro err output
    cases commandFailureMessage env.lower err output (-1) with
    | none => exact reachedStatuses_error _ _
    | some message => exact batchFailure_statuses
  unfold executeCheckerBatch
  rw [execDocker_eq]
  by_cases hlimit : c.written.length ≤ maxCheckerProcessOutputBytes
  swap
  · rw [if_neg hlimit]
    exact hmessage _ _
  rw [if_pos hlimit]
  cases herr : c.err with
  | some e => cases e <;> exact hmessage _ _
  | none =>
    dsimp only
    cases hframes : parseCheckerBatchFrames c.written with
    | error e => exact batchFailure_statuses
    | ok frames =>
      have hredacts : failureRedacts env frames phases = false := by
        simpa [ContainerRun.readsBack, herr, hlimit, hframes] using h
      simp only [phaseResults_eq_none _ hredacts]
      exact reachedStatuses_error _ _

end Batch

/-! ## Batches with the same first frames -/

/-- The statuses that frames give to their own phases. -/
def ownStatuses : List (String × CheckerBatchFrame) → List String
  | [] => []
  | (_, frame) :: fs =>
    if frame.exitCode = 0 then "success" :: ownStatuses fs
    else "failed" :: fs.map fun _ => "skipped"

theorem take_skipped {α β : Type} (skipped : String) {xs : List α} {ys : List β}
    (h : xs.length ≤ ys.length) :
    (ys.map fun _ => skipped).take xs.length = xs.map fun _ => skipped := by
  rw [List.map_const', List.map_const', List.take_replicate, Nat.min_eq_left h]

theorem take_frameStatuses {fs : List (String × CheckerBatchFrame)}
    (hlookup : ∀ f ∈ fs, frames.lookup f.1 = some f.2) (horder : fs.map (·.1) <+: phases) :
    (frameStatuses frames phases).take fs.length = ownStatuses fs := by
  induction fs generalizing phases with
  | nil => rfl
  | cons f fs ih =>
    obtain ⟨rest, rfl⟩ := horder
    have hf := hlookup f (.head _)
    rw [List.map_cons, List.cons_append, frameStatuses, hf, ownStatuses]
    dsimp only
    split
    · rw [List.length_cons, List.take_succ_cons,
        ih (fun f hf => hlookup f (.tail _ hf)) (List.prefix_append _ _)]
    · rw [List.length_cons, List.take_succ_cons, take_skipped "skipped" (by simp)]

/-- Frames that begin with a failure have the statuses of a batch that fails as a whole. -/
theorem ownStatuses_of_failed {f : String × CheckerBatchFrame}
    {fs : List (String × CheckerBatchFrame)} (hcode : f.2.exitCode ≠ 0)
    (horder : (f :: fs).map (·.1) <+: phases) :
    ownStatuses (f :: fs) = (failedStatuses phases).take (f :: fs).length := by
  obtain ⟨rest, rfl⟩ := horder
  rw [ownStatuses, if_neg hcode, List.map_cons, List.cons_append, failedStatuses, List.length_cons,
    List.take_succ_cons, take_skipped "skipped" (by simp)]

/-- The same is recorded for the first `k` phases, and the flag is stored alike if a put is among
them. -/
def SameOnFirst (k : Nat) (phases : List String) (ops₁ ops₂ : List ServerOp) : Prop :=
  ((recordedRuns ops₁).take k).map (fun run => (run.phase, run.status)) =
      ((recordedRuns ops₂).take k).map (fun run => (run.phase, run.status)) ∧
    ("put" ∈ phases.take k → (flagIssued ops₁ = true ↔ flagIssued ops₂ = true))

section Ops
variable {runs runs₁ runs₂ : List CheckerRunRecord} {k : Nat}

theorem put_success_iff (hphases : runs.map (·.phase) = phases) (hnodup : phases.Nodup)
    (hput : "put" ∈ phases.take k) :
    (runs.any fun run => run.phase = "put" && run.status = "success") = true ↔
      ("put", "success") ∈ (runs.take k).map fun run => (run.phase, run.status) := by
  have hlater : "put" ∉ phases.drop k := fun hmem =>
    List.disjoint_of_nodup_append ((List.take_append_drop k phases).symm ▸ hnodup) hput hmem
  simp only [List.any_eq_true, Bool.and_eq_true, decide_eq_true_eq, List.mem_map, Prod.mk.injEq]
  constructor
  · rintro ⟨run, hrun, hphase, hstatus⟩
    rw [← List.take_append_drop k runs] at hrun
    rcases List.mem_append.mp hrun with hrun | hrun
    · exact ⟨run, hrun, hphase, hstatus⟩
    · refine (hlater ?_).elim
      rw [← hphases, ← List.map_drop, ← hphase]
      exact List.mem_map_of_mem hrun
  · rintro ⟨run, hrun, hphase, hstatus⟩
    exact ⟨run, List.mem_of_mem_take hrun, hphase, hstatus⟩

theorem take_map_pair (hphases : runs.map (·.phase) = phases) :
    (runs.take k).map (fun run => (run.phase, run.status)) =
      (phases.take k).zip ((runs.map (·.status)).take k) := by
  rw [← hphases, ← List.map_take, ← List.map_take, List.zip_map']

end Ops

/-- An execution of `runCheckerTarget` performs `ops`, with the batch that the runner makes of the
container, on a store that takes every run and flag. -/
def Performs.{v} (env : RunnerEnv) (cfg : ServerConfig) (ctx : Nat) (tickID : Int)
    (target : CheckerTarget) (c : ContainerRun) (ops : List ServerOp) : Prop :=
  ∃ (σ : Type) (ι : Type v) (sem : StoreSem σ ι)
    (E : Surroundings (ServerShared σ) (ServerInput ι) ServerOp ServerOp.Res)
    (tracks : List CheckerRunRecord → σ → Prop) (now : Time) (s t : ServerShared σ),
    RecordingStore E sem (executeBatch env cfg.checkerPhases target c now)
      (IsPhaseRun tickID target (executeBatch env cfg.checkerPhases target c now)) tracks ∧
    tracks [] s.store ∧
    Execution E (Server.runCheckerTarget cfg ctx tickID target).toThread s ops t

section Performs
universe v
variable {cfg : ServerConfig} {ctx : Nat} {tickID : Int} {target : CheckerTarget}
  {c c₁ c₂ : ContainerRun} {ops ops₁ ops₂ : List ServerOp}

theorem Performs.recorded (h : Performs.{v} env cfg ctx tickID target c ops) :
    ∃ now, (recordedRuns ops).map (·.phase) = cfg.checkerPhases ∧
      (recordedRuns ops).map (·.status) =
        reachedStatuses (executeBatch env cfg.checkerPhases target c now) cfg.checkerPhases ∧
      flagIssued ops =
        (recordedRuns ops).any fun run => run.phase = "put" && run.status = "success" := by
  obtain ⟨σ, ι, sem, E, tracks, now, s, t, H, htracks, hrun⟩ := h
  obtain ⟨r, s', ⟨-, flagValue, runs, hruns, rfl, -⟩, -⟩ :=
    (H.runCheckerTarget_after (fun halted runTime phase _ => ⟨halted, runTime, phase, rfl⟩)
      htracks).toThread hrun
  have hrecorded : recordedRuns (.loadCodec :: .executeBatch ctx tickID target flagValue ::
      runs.flatMap (phaseOps tickID target ctx flagValue)) = runs := recordedRuns_flatMap runs
  refine ⟨now, ?_, ?_, ?_⟩
  · rw [hrecorded, hruns.phases_eq]
  · rw [hrecorded, hruns.statuses]
  · rw [hrecorded]
    exact flagIssued_flatMap runs

/-- The same is recorded for the first phases exactly when the batches give them the same
statuses. -/
theorem Performs.same_iff (hnodup : cfg.checkerPhases.Nodup)
    (h₁ : Performs.{v} env cfg ctx tickID target c₁ ops₁)
    (h₂ : Performs.{v} env cfg ctx tickID target c₂ ops₂) (k : Nat) :
    ∃ now₁ now₂, SameOnFirst k cfg.checkerPhases ops₁ ops₂ ↔
      (reachedStatuses (executeBatch env cfg.checkerPhases target c₁ now₁)
        cfg.checkerPhases).take k =
      (reachedStatuses (executeBatch env cfg.checkerPhases target c₂ now₂)
        cfg.checkerPhases).take k := by
  obtain ⟨now₁, hphases₁, hstatuses₁, hflag₁⟩ := h₁.recorded
  obtain ⟨now₂, hphases₂, hstatuses₂, hflag₂⟩ := h₂.recorded
  refine ⟨now₁, now₂, ?_⟩
  rw [← hstatuses₁, ← hstatuses₂]
  refine ⟨fun hsame => ?_, fun hsame => ⟨?_, fun hput => ?_⟩⟩
  · have hsnd := congrArg (List.map Prod.snd) hsame.1
    simpa [List.map_take, Function.comp_def] using hsnd
  · rw [take_map_pair hphases₁, take_map_pair hphases₂, hsame]
  · rw [hflag₁, hflag₂, put_success_iff hphases₁ hnodup hput,
      put_success_iff hphases₂ hnodup hput, take_map_pair hphases₁, take_map_pair hphases₂, hsame]

end Performs

/-- The statuses of the phases of complete frames at the front of what a container wrote. -/
theorem take_statuses_of_framesOf (hphases : RequestedPhases phases) {target : CheckerTarget}
    (hrefusal : refusal env phases target = none) {p : List UInt8}
    {fs : List (String × CheckerBatchFrame)} (hp : FramesOf p fs)
    (horder : fs.map (·.1) <+: phases) {c : ContainerRun} (hshared : p <+: c.written)
    (hreads : c.readsBack env phases = true) (now : Time) :
    (reachedStatuses (executeBatch env phases target c now) phases).take fs.length =
      ownStatuses fs := by
  obtain ⟨frames, hparse, hstatuses⟩ := statuses_of_readsBack hphases hrefusal hreads now
  obtain ⟨later, hlater⟩ := hshared
  rw [hstatuses]
  refine take_frameStatuses ?_ horder
  unfold parseCheckerBatchFrames at hparse
  split at hparse
  · cases hparse
  rw [← hlater] at hparse
  have hnodup : (fs.map (·.1)).Nodup := hphases.nodup.sublist horder.sublist
  exact lookup_framesOf hp hnodup (fun _ _ => rfl) le_rfl hparse

/-- Two containers that print the same first frames: the phases of these frames are recorded alike
exactly when the first of them failed, no container was started, or the frames of both containers
are read or of none. -/
theorem same_iff_readsBack.{v} {cfg : ServerConfig} {value : String}
    (hphases : cfg.checkerPhases = parseCheckerPhases value) {ctx : Nat} {tickID : Int}
    {target : CheckerTarget} {p : List UInt8} {fs : List (String × CheckerBatchFrame)}
    (hp : FramesOf p fs) (horder : fs.map (·.1) <+: cfg.checkerPhases) {c₁ c₂ : ContainerRun}
    (hshared₁ : p <+: c₁.written) (hshared₂ : p <+: c₂.written) {ops₁ ops₂ : List ServerOp}
    (hops₁ : Performs.{v} env cfg ctx tickID target c₁ ops₁)
    (hops₂ : Performs.{v} env cfg ctx tickID target c₂ ops₂) :
    SameOnFirst fs.length cfg.checkerPhases ops₁ ops₂ ↔
      (∀ f ∈ fs.head?, f.2.exitCode ≠ 0) ∨ refusal env cfg.checkerPhases target ≠ none ∨
      c₁.readsBack env cfg.checkerPhases = c₂.readsBack env cfg.checkerPhases := by
  have hrequested : RequestedPhases cfg.checkerPhases := hphases ▸ requestedPhases value
  obtain ⟨now₁, now₂, hsame⟩ := hops₁.same_iff hrequested.nodup hops₂ fs.length
  rw [hsame]
  by_cases hrefusal : refusal env cfg.checkerPhases target = none
  swap
  · have hfailed : ∀ c now, reachedStatuses (executeBatch env cfg.checkerPhases target c now)
        cfg.checkerPhases = failedStatuses cfg.checkerPhases := fun c now =>
      statuses_of_not_readsBack hrequested (.inl hrefusal)
    simp [hfailed, hrefusal]
  -- the statuses of the shared phases depend on nothing but whether the frames are read
  have hstatuses : ∀ c now, p <+: c.written →
      (reachedStatuses (executeBatch env cfg.checkerPhases target c now)
          cfg.checkerPhases).take fs.length =
        if c.readsBack env cfg.checkerPhases then ownStatuses fs
        else (failedStatuses cfg.checkerPhases).take fs.length := by
    intro c now hshared
    split
    · rename_i hreads
      exact take_statuses_of_framesOf hrequested hrefusal hp horder hshared hreads now
    · rename_i hreads
      rw [statuses_of_not_readsBack hrequested (.inr (Bool.not_eq_true _ ▸ hreads))]
  rw [hstatuses c₁ now₁ hshared₁, hstatuses c₂ now₂ hshared₂]
  cases fs with
  | nil => simp [ownStatuses]
  | cons f fs =>
    by_cases hcode : f.2.exitCode = 0
    swap
    · simp [ownStatuses_of_failed hcode horder, hcode]
    have hdiffer : ownStatuses (f :: fs) ≠
        (failedStatuses cfg.checkerPhases).take (fs.length + 1) := by
      obtain ⟨rest, hrest⟩ := horder
      rw [ownStatuses, if_pos hcode, ← hrest, List.map_cons, List.cons_append, failedStatuses,
        List.take_succ_cons]
      intro heq
      exact absurd (List.cons.inj heq).1 (by decide)
    cases hreads₁ : c₁.readsBack env cfg.checkerPhases <;>
      cases hreads₂ : c₂.readsBack env cfg.checkerPhases <;>
      simp [hcode, hrefusal, hdiffer, hdiffer.symm]

/-- Whatever two containers print behind the same first frames, as long as failure messages can be
redacted: the phases of these frames are recorded alike exactly when the first of them failed, no
container was started, or the outputs of both containers are whole or of none. -/
theorem same_on_shared_frames_iff.{v} (env : RunnerEnv) (cfg : ServerConfig) (value : String)
    (hphases : cfg.checkerPhases = parseCheckerPhases value) (ctx : Nat) (tickID : Int)
    (target : CheckerTarget) (p : List UInt8) (fs : List (String × CheckerBatchFrame))
    (hp : FramesOf p fs) (horder : fs.map (·.1) <+: cfg.checkerPhases) (c₁ c₂ : ContainerRun)
    (hshared₁ : p <+: c₁.written) (hshared₂ : p <+: c₂.written)
    (hredacts₁ : c₁.redacts env cfg.checkerPhases) (hredacts₂ : c₂.redacts env cfg.checkerPhases)
    (ops₁ ops₂ : List ServerOp) (hops₁ : Performs.{v} env cfg ctx tickID target c₁ ops₁)
    (hops₂ : Performs.{v} env cfg ctx tickID target c₂ ops₂) :
    SameOnFirst fs.length cfg.checkerPhases ops₁ ops₂ ↔
      (∀ f ∈ fs.head?, f.2.exitCode ≠ 0) ∨ refusal env cfg.checkerPhases target ≠ none ∨
      c₁.whole = c₂.whole := by
  rw [same_iff_readsBack hphases hp horder hshared₁ hshared₂ hops₁ hops₂,
    hredacts₁.readsBack_eq, hredacts₂.readsBack_eq]

/-! ## A warning between two frames -/

/-- The frame of a put that passes. -/
def putFrame : List UInt8 := bytes "__ADP_PHASE_FRAME__ put 0 2\nok\n"

/-- A run with a frame for every phase. -/
def cleanRun : ContainerRun :=
  { chunks := [putFrame, bytes "__ADP_PHASE_FRAME__ get 0 0\n\n",
      bytes "__ADP_PHASE_FRAME__ check 0 0\n\n"] }

/-- The service answers the get with a NUL byte, and the shell warns about it. -/
def warnedRun : ContainerRun :=
  { chunks := [putFrame,
      bytes "sh: line 30: warning: command substitution: ignored null byte in input\n",
      bytes "__ADP_PHASE_FRAME__ get 0 0\n\n", bytes "__ADP_PHASE_FRAME__ check 0 0\n\n"] }

/-- A runner that plans no network. -/
def plainRunner : RunnerEnv :=
  { lower := Char.toLower, unmarshal := fun _ => none, planDockerNetwork := fun _ => none
    dropped := "EOF" }

/-- An execution on the in-memory store, among any others. -/
def acceptingMemory (crypto : Crypto) (batch : Except String (List CheckerPhaseResult)) :
    Surroundings (ServerShared (MemoryGameStore ℚ)) (ServerInput Go.Runtime) ServerOp
      ServerOp.Res where
  sem := serverSem (memorySem squareMath crypto)
  rely _ _ := True
  input input := input.batch = batch

/-- On the in-memory store the checkers of a target come to an end. -/
theorem exists_performs (env : RunnerEnv) (cfg : ServerConfig) (ctx : Nat) (tickID : Int)
    (target : CheckerTarget) (c : ContainerRun) :
    ∃ ops, Performs.{1} env cfg ctx tickID target c ops := by
  let E := acceptingMemory cfg.crypto (executeBatch env cfg.checkerPhases target c 0)
  have hrefl : ∀ s, E.rely s s := fun _ => trivial
  have hend : Proc.Terminates E (Server.runCheckerTarget cfg ctx tickID target) :=
    RecordingStore.runCheckerTarget_terminates (memorySem squareMath cfg.crypto) rfl
      ⟨{ batch := _, store := .inOrder }, rfl⟩ hrefl
  obtain ⟨ops, t, hrun⟩ := hend.toThread hrefl { store := {}, codec := .new "flag" "secret" }
  refine ⟨ops, _, _, memorySem squareMath cfg.crypto, E, fun _ _ => True, 0, _, t, ?_, trivial,
    hrun⟩
  exact {
    sem_eq := rfl
    batch_eq := fun _ h => h
    rely_tracks := fun _ _ => trivial
    record := fun _ _ _ => ⟨_, _, rfl, trivial⟩
    issue := fun _ _ => ⟨_, rfl, trivial⟩ }

theorem framesOf_putFrame : FramesOf putFrame [("put", ⟨bytes "ok", 0⟩)] := by
  have hnext : nextFrame (fun _ => false) putFrame = .ok ("put", ⟨bytes "ok", 0⟩, []) := by
    decide +kernel
  exact .cons hnext .nil

/-- All frames of the first container are read; of the second, none is. -/
theorem runs_parsed :
    (parseCheckerBatchFrames cleanRun.written).map
      (fun frames => (failureRedacts plainRunner frames firstConfig.checkerPhases,
        frameStatuses frames firstConfig.checkerPhases)) =
      .ok (true, ["success", "success", "success"]) ∧
    (parseCheckerBatchFrames warnedRun.written).isOk = false := by
  decide +kernel

theorem cleanRun_redacts : cleanRun.redacts plainRunner firstConfig.checkerPhases := by
  intro frames hframes
  have hall := runs_parsed.1
  rw [hframes] at hall
  exact congrArg Prod.fst (Except.ok.inj hall)

theorem warnedRun_redacts : warnedRun.redacts plainRunner firstConfig.checkerPhases := by
  intro frames hframes
  have hall := runs_parsed.2
  rw [hframes] at hall
  cases hall

theorem firstConfig_phases : firstConfig.checkerPhases = parseCheckerPhases "put,get,check" := by
  decide +kernel

theorem same_on_shared_frames_iff_warnedRun : ∃ ops₁ ops₂,
    Performs.{1} plainRunner firstConfig 0 1 firstTarget cleanRun ops₁ ∧
    Performs.{1} plainRunner firstConfig 0 1 firstTarget warnedRun ops₂ ∧
    (SameOnFirst 1 firstConfig.checkerPhases ops₁ ops₂ ↔
      (∀ f ∈ [("put", CheckerBatchFrame.mk (bytes "ok") 0)].head?, f.2.exitCode ≠ 0) ∨
      refusal plainRunner firstConfig.checkerPhases firstTarget ≠ none ∨
      cleanRun.whole = warnedRun.whole) := by
  obtain ⟨ops₁, h₁⟩ := exists_performs plainRunner firstConfig 0 1 firstTarget cleanRun
  obtain ⟨ops₂, h₂⟩ := exists_performs plainRunner firstConfig 0 1 firstTarget warnedRun
  refine ⟨ops₁, ops₂, h₁, h₂, ?_⟩
  exact same_on_shared_frames_iff plainRunner firstConfig "put,get,check" firstConfig_phases 0 1
    firstTarget putFrame _ framesOf_putFrame (by decide) cleanRun warnedRun (by decide) (by decide)
    cleanRun_redacts warnedRun_redacts ops₁ ops₂ h₁ h₂

/-- Both containers store the flag; of the second the game core records that the put failed. -/
theorem warning_fails_put : ∃ ops₁ ops₂,
    Performs.{1} plainRunner firstConfig 0 1 firstTarget cleanRun ops₁ ∧
    Performs.{1} plainRunner firstConfig 0 1 firstTarget warnedRun ops₂ ∧
    putFrame <+: cleanRun.written ∧ putFrame <+: warnedRun.written ∧
    (recordedRuns ops₁).map (·.status) = ["success", "success", "success"] ∧
    (recordedRuns ops₂).map (·.status) = ["failed", "skipped", "skipped"] ∧
    flagIssued ops₁ = true ∧ flagIssued ops₂ = false ∧
    ¬SameOnFirst 1 firstConfig.checkerPhases ops₁ ops₂ := by
  obtain ⟨ops₁, h₁⟩ := exists_performs plainRunner firstConfig 0 1 firstTarget cleanRun
  obtain ⟨ops₂, h₂⟩ := exists_performs plainRunner firstConfig 0 1 firstTarget warnedRun
  obtain ⟨now₁, hphases₁, hstatuses₁, hflag₁⟩ := h₁.recorded
  obtain ⟨now₂, hphases₂, hstatuses₂, hflag₂⟩ := h₂.recorded
  have hrequested : RequestedPhases firstConfig.checkerPhases :=
    firstConfig_phases ▸ requestedPhases "put,get,check"
  have hrefusal : refusal plainRunner firstConfig.checkerPhases firstTarget = none := by
    decide +kernel
  have hread : cleanRun.readsBack plainRunner firstConfig.checkerPhases = true := by
    decide +kernel
  obtain ⟨frames, hframes, hclean⟩ := statuses_of_readsBack hrequested hrefusal hread now₁
  have hparsed := runs_parsed.1
  rw [hframes] at hparsed
  have hsuccess : frameStatuses frames firstConfig.checkerPhases =
      ["success", "success", "success"] := congrArg Prod.snd (Except.ok.inj hparsed)
  rw [hclean, hsuccess] at hstatuses₁
  have hwarned : warnedRun.readsBack plainRunner firstConfig.checkerPhases = false := by
    decide +kernel
  rw [statuses_of_not_readsBack hrequested (.inr hwarned)] at hstatuses₂
  have hput : "put" ∈ firstConfig.checkerPhases.take 1 := by decide
  have hissued : flagIssued ops₁ = true := by
    rw [hflag₁, put_success_iff hphases₁ hrequested.nodup hput, take_map_pair hphases₁, hstatuses₁]
    decide
  have hnone : ¬flagIssued ops₂ = true := by
    rw [hflag₂, put_success_iff hphases₂ hrequested.nodup hput, take_map_pair hphases₂, hstatuses₂]
    decide
  refine ⟨ops₁, ops₂, h₁, h₂, by decide, by decide, hstatuses₁, hstatuses₂, hissued, by simpa using hnone,
    fun hsame => ?_⟩
  exact hnone ((hsame.2 hput).mp hissued)

end ADPlatform.CheckerRunner
