import ADPlatform.GameCore.Warmup

/-! # Runs of a warmup

The roles of the threads behind `Warmup.runPuts`, and the invariant that ties them to the channel,
to the failures and to the puts that the log has: a worker that has put its flag, or has recorded
why not, has done its job. -/

namespace ADPlatform.GameCore
open Concurrent Text WorkerPool WarmupProc

/-- The operations so far with what they answered. -/
abbrev WarmupLog := List ((op : WarmupOp) × op.Res)

/-- The warmup's state with the operations so far. -/
abbrev LoggedWarmup := Logged WarmupShared WarmupOp WarmupOp.Res

/-- The puts that were tried, with their answers. -/
abbrev Tries := Multiset (CheckerTarget × Except String PutAnswer)

namespace WarmupLog

/-- A put, with its answer. -/
def tried : ((op : WarmupOp) × op.Res) → Tries
  | ⟨.execute target _, answer⟩ => {(target, answer)}
  | _ => 0

/-- The operation ends the context. -/
def cancels : ((op : WarmupOp) × op.Res) → Bool
  | ⟨.contextCancel _, _⟩ => true
  | _ => false

/-- The context of the warmup has ended. -/
def Fired (log : WarmupLog) : Prop := ∃ e ∈ log, cancels e = true

end WarmupLog

/-- The puts on one target. -/
structure PutJob where
  index : Nat
  target : CheckerTarget
  attempts : List (Except String PutAnswer)

namespace PutJob

/-- An attempt has gone well. -/
def succeeded (job : PutJob) : Bool :=
  job.attempts.any fun answer => (Warmup.putError answer).isNone

/-- The attempts, as puts that were tried. -/
def tried (job : PutJob) : Tries := (job.attempts.map (job.target, ·) : List _)

/-- One more put. -/
def attempt (job : PutJob) (answer : Except String PutAnswer) : PutJob :=
  { job with attempts := job.attempts ++ [answer] }

theorem tried_attempt (job : PutJob) (answer : Except String PutAnswer) :
    (job.attempt answer).tried = job.tried + {(job.target, answer)} := by
  rw [tried, attempt, List.map_append, ← Multiset.coe_add]
  rfl

theorem succeeded_attempt (job : PutJob) (answer : Except String PutAnswer) :
    (job.attempt answer).succeeded = (job.succeeded || (Warmup.putError answer).isNone) := by
  rw [succeeded, attempt, List.any_append, List.any_cons, List.any_nil, Bool.or_false]
  rfl

end PutJob

/-! ## Roles -/

/-- Where a thread stands. -/
inductive PutStage where
  /-- the warmup before its workers, with the wait group so far -/
  | opening (workers : Nat)
  | handing (next : Nat)
  /-- the warmup has found its context ended -/
  | stopping (next : Nat)
  | waiting (next : Nat)
  | closing (jobs : List PutJob)
  /-- the warmup has looked at its context -/
  | looked (jobs : List PutJob) (err : Option CtxError)
  | idle (fuel : Nat)
  | holding (fuel index : Nat)
  | running (fuel : Nat) (job : PutJob)
  | leaving
  | left
  /-- a thread that ends the context -/
  | cancelling

namespace PutStage

/-- Where the thread stands in the pool. -/
def place : PutStage → Place
  | idle fuel => .idle fuel
  | holding fuel index => .holding fuel index
  | running fuel job => .holding fuel job.index
  | leaving => .leaving
  | left => .left
  | _ => .other

/-- The puts of a worker that has not done its job. -/
def tried : PutStage → Tries
  | running _ job => job.tried
  | _ => 0

/-- A stage of the warmup's own thread. -/
def IsMain : PutStage → Prop
  | opening _ | handing _ | stopping _ | waiting _ | closing _ | looked .. => True
  | _ => False

/-- A stage of a worker. -/
def IsWorker : PutStage → Prop
  | idle _ | holding .. | running .. | leaving => True
  | _ => False

/-- The thread has nothing left to do. -/
def Ended : PutStage → Prop
  | left | cancelling => True
  | _ => False

/-- Where a thread may have to wait for another. -/
def Waits (s : WarmupShared) : PutStage → Prop
  | handing _ => s.slot ≠ none
  | waiting _ => s.pending ≠ 0
  | idle _ => s.slot = none ∧ s.closed = false
  | _ => False

/-- A worker, or a thread that ends the context. -/
def Helps (targets : List CheckerTarget) : PutStage → Prop
  | running _ job => targets[job.index]? = some job.target ∧ job.succeeded = false
  | idle _ | holding .. | leaving | left | cancelling => True
  | _ => False

/-- What the stage of the warmup's own thread says about the state. -/
def Fits (n : Nat) (s : WarmupShared) (next : Nat) (jobs : List PutJob) : PutStage → Prop
  | handing next' => next' = next ∧ s.closed = false
  | stopping next' => next' = next ∧ s.closed = false ∧ s.ended ≠ none
  | waiting next' => next' = next ∧ s.closed = true ∧ (next < n → s.ended ≠ none)
  | closing jobs' => jobs' = jobs ∧ s.pending = 0 ∧ (next < n → s.ended ≠ none)
  | looked jobs' err => jobs' = jobs ∧ s.pending = 0 ∧ (err ≠ none → s.ended ≠ none) ∧
      (err = none → jobs.length = n)
  | _ => False

end PutStage

/-! ## The invariant -/

/-- The warmup with its workers: the jobs that are done and the indices that were skipped. -/
structure Warming (targets : List CheckerTarget) (s : WarmupShared) (next : Nat)
    (jobs : List PutJob)
    (skipped : Multiset Nat) (tries : Tries) (stage : PutStage) (rest : List PutStage) : Prop where
  fits : stage.Fits targets.length s next jobs
  helps : ∀ stage ∈ rest, stage.Helps targets
  accounts : Accounts targets.length next s.slot s.closed s.pending (rest.map PutStage.place)
    (jobs.map (·.index)) skipped
  tried : tries = (rest.map PutStage.tried).sum + (jobs.map PutJob.tried).sum
  failures : s.failures.length = jobs.countP (!·.succeeded)
  complete : ∀ job ∈ jobs, targets[job.index]? = some job.target
  cut : skipped ≠ 0 → s.ended ≠ none

/-- Nothing has been handed out yet. -/
structure Unstarted (s : WarmupShared) (workers : Nat) : Prop where
  slot : s.slot = none
  closed : s.closed = false
  pending : s.pending = workers
  failures : s.failures = []

/-- What the stages of all threads say about the state. The warmup's own thread is the first. -/
inductive PutStages (targets : List CheckerTarget) (s : WarmupShared) (tries : Tries) :
    List PutStage → Prop
  | opening {workers : Nat} {rest : List PutStage} (hfresh : Unstarted s workers)
      (hrest : ∀ stage ∈ rest, stage = .cancelling) (htries : tries = 0) :
      PutStages targets s tries (.opening workers :: rest)
  | warming {next : Nat} {jobs : List PutJob} {skipped : Multiset Nat} {stage : PutStage}
      {rest : List PutStage} (h : Warming targets s next jobs skipped tries stage rest) :
      PutStages targets s tries (stage :: rest)

/-- The invariant: the stages account for the puts of the log, and the log tells when the context
ended. -/
structure PutInv (targets : List CheckerTarget) (s : LoggedWarmup)
    (stages : List PutStage) : Prop where
  stages : PutStages targets s.state (s.log.map WarmupLog.tried).sum stages
  ended : s.state.ended ≠ none ↔ WarmupLog.Fired s.log

section Views
variable {targets : List CheckerTarget} {s : WarmupShared} {tries : Tries} {stages : List PutStage}
  {stage : PutStage} {i : Nat}

/-- A thread that plays the warmup's own part is the first. -/
theorem PutStages.main_first (h : PutStages targets s tries stages) (hi : stages[i]? = some stage)
    (hmain : stage.IsMain) : i = 0 ∧ ∃ rest, stages = stage :: rest := by
  have hlater : ∀ {j : Nat} {rest : List PutStage}, rest[j]? = some stage →
      (∀ stage ∈ rest, stage.Helps targets) → False := by
    intro j rest hj hhelps
    have hhelp := hhelps stage (List.mem_of_getElem? hj)
    cases stage with
    | opening | handing | stopping | waiting | closing | looked => exact hhelp
    | idle | holding | running | leaving | left | cancelling => exact hmain
  cases i with
  | zero =>
    cases h with
    | opening | warming =>
      obtain rfl := Option.some.inj hi
      exact ⟨rfl, _, rfl⟩
  | succ j =>
    exfalso
    cases h with
    | @opening workers rest _ hrest =>
      have hj : rest[j]? = some stage := hi
      refine hlater hj fun stage hstage => ?_
      rw [hrest stage hstage]
      trivial
    | @warming next jobs skipped first rest h =>
      have hj : rest[j]? = some stage := hi
      exact hlater hj h.helps

/-- A worker is one of the other threads. -/
theorem PutStages.worker_later (h : PutStages targets s tries stages) (hi : stages[i]? = some stage)
    (hworker : stage.IsWorker) : ∃ j first rest next jobs skipped, i = j + 1 ∧
    stages = first :: rest ∧
      rest[j]? = some stage ∧ Warming targets s next jobs skipped tries first rest := by
  cases h with
  | @opening workers rest _ hrest =>
    cases i with
    | zero =>
      obtain rfl := Option.some.inj hi
      exact False.elim hworker
    | succ j =>
      have hj : rest[j]? = some stage := hi
      rw [hrest stage (List.mem_of_getElem? hj)] at hworker
      exact False.elim hworker
  | @warming next jobs skipped first rest h =>
    cases i with
    | zero =>
      obtain rfl := Option.some.inj hi
      have hfits := h.fits
      cases first with
      | idle | holding | running | leaving => exact False.elim hfits
      | opening | handing | stopping | waiting | closing | looked | left | cancelling =>
        exact False.elim hworker
    | succ j => exact ⟨j, first, rest, next, jobs, skipped, rfl, rfl, hi, h⟩

/-- Some thread of a warmup can always move, while the warmup has not returned. -/
theorem PutStages.not_at_rest (h : PutStages targets s tries stages) :
    ¬∀ stage ∈ stages, stage.Ended ∨ stage.Waits s := by
  intro hrest
  cases h with
  | opening => exact (hrest _ (.head _)).elim id id
  | @warming next jobs skipped stage rest h =>
    -- a worker at work is idle at best, and then finds the channel full or closed
    have hwork : s.slot ≠ none ∨ s.pending ≠ 0 ∧ s.closed = true → False := by
      intro hwork
      obtain ⟨place, hplace, hactive⟩ := h.accounts.exists_active (hwork.imp id And.left)
      obtain ⟨worker, hworker, rfl⟩ := List.mem_map.mp hplace
      have hmove := hrest worker (.tail _ hworker)
      cases worker with
      | idle =>
        obtain ⟨hslot, hclosed⟩ := hmove.resolve_left id
        rcases hwork with hne | ⟨-, htrue⟩
        · exact hne hslot
        · rw [hclosed] at htrue
          cases htrue
      | holding | running | leaving => exact hmove.elim id id
      | opening | handing | stopping | waiting | closing | looked | left | cancelling =>
        cases hactive
    have hfits := h.fits
    have hmain := hrest stage (.head _)
    cases stage with
    | handing => exact hwork (.inl (hmain.resolve_left id))
    | waiting => exact hwork (.inr ⟨hmain.resolve_left id, hfits.2.1⟩)
    | stopping | closing | looked => exact hmain.elim id id
    | opening | idle | holding | running | leaving | left | cancelling => exact hfits

end Views

/-! ## Steps -/

section Steps
variable {targets : List CheckerTarget} {s : WarmupShared} {next j fuel index : Nat}
  {jobs : List PutJob}
  {skipped : Multiset Nat} {tries : Tries} {stage : PutStage} {rest : List PutStage} {job : PutJob}

/-- The context ends. -/
theorem Warming.cancel (h : Warming targets s next jobs skipped tries stage rest) (err : CtxError) :
    Warming targets { s with ended := s.ended.or (some err) } next jobs skipped tries
      stage rest := by
  have hended : s.ended.or (some err) ≠ none := by cases s.ended <;> simp
  have hfits : stage.Fits targets.length { s with ended := s.ended.or (some err) } next jobs := by
    have hold := h.fits
    cases stage with
    | handing => exact hold
    | stopping => exact ⟨hold.1, hold.2.1, hended⟩
    | waiting => exact ⟨hold.1, hold.2.1, fun _ => hended⟩
    | closing => exact ⟨hold.1, hold.2.1, fun _ => hended⟩
    | looked => exact ⟨hold.1, hold.2.1, fun _ => hended, hold.2.2.2⟩
    | opening | idle | holding | running | leaving | left | cancelling => exact False.elim hold
  exact { h with fits := hfits, cut := fun _ => hended }

/-- The workers start. -/
theorem Warming.opened {workers : Nat} (hworkers : 0 < workers) (hfresh : Unstarted s workers)
    (hrest : ∀ stage ∈ rest, stage = .cancelling) :
    Warming targets s 0 [] 0 0 (.handing 0) (rest ++
      .replicate workers (.idle (targets.length + 1))) := by
  have hcases : ∀ stage ∈ rest ++ List.replicate workers (PutStage.idle (targets.length + 1)),
      stage = .cancelling ∨ stage = .idle (targets.length + 1) := by
    intro stage hstage
    exact (List.mem_append.mp hstage).imp (hrest stage) List.eq_of_mem_replicate
  refine ⟨⟨rfl, hfresh.closed⟩, fun stage hstage => ?_, ?_, ?_, by
    rw [hfresh.failures]; rfl, by simp, by simp⟩
  · obtain rfl | rfl := hcases stage hstage <;> trivial
  · rw [hfresh.slot, hfresh.closed, hfresh.pending, List.map_append, List.map_replicate]
    refine .start hworkers fun place hplace => ?_
    obtain ⟨stage, hstage, rfl⟩ := List.mem_map.mp hplace
    rw [hrest stage hstage]
    rfl
  · rw [List.sum_eq_zero]
    · rfl
    intro x hx
    obtain ⟨stage, hstage, rfl⟩ := List.mem_map.mp hx
    obtain rfl | rfl := hcases stage hstage <;> rfl

/-- The next index goes into the channel. -/
theorem Warming.send (h : Warming targets s next jobs skipped tries (.handing index) rest)
    (hslot : s.slot = none) (hindex : index < targets.length) :
    Warming targets { s with slot := some index } (next + 1) jobs skipped tries
      (.handing (index + 1)) rest := by
  obtain ⟨rfl, hclosed⟩ := h.fits
  have haccounts := h.accounts
  rw [hslot, hclosed] at haccounts
  exact { h with
    fits := ⟨rfl, hclosed⟩
    accounts := by
      rw [hclosed]
      exact haccounts.send hindex }

/-- The warmup finds that its context has ended. -/
theorem Warming.stop (h : Warming targets s next jobs skipped tries (.handing index) rest)
    (hended : s.ended ≠ none) : Warming targets s next jobs skipped tries (.stopping index) rest :=
  { h with fits := ⟨h.fits.1, h.fits.2, hended⟩ }

/-- The channel is closed when every index has been handed out, or the context has ended. -/
theorem Warming.close (h : Warming targets s next jobs skipped tries stage rest)
    (hstage : stage = .handing index ∧ targets.length ≤ index ∨ stage = .stopping index) :
    Warming targets { s with closed := true } next jobs skipped tries (.waiting index) rest := by
  have hfits := h.fits
  obtain ⟨rfl, hindex⟩ | rfl := hstage
  · obtain ⟨rfl, -⟩ := hfits
    exact { h with
      fits := ⟨rfl, rfl, fun hlt => absurd hlt hindex.not_gt⟩, accounts := h.accounts.close }
  · obtain ⟨rfl, -, hended⟩ := hfits
    exact { h with fits := ⟨rfl, rfl, fun _ => hended⟩, accounts := h.accounts.close }

theorem Warming.wait (h : Warming targets s next jobs skipped tries (.waiting index) rest)
    (hpending : s.pending = 0) :
      Warming targets s next jobs skipped tries (.closing jobs) rest := by
  obtain ⟨rfl, -, hstop⟩ := h.fits
  exact { h with fits := ⟨rfl, hpending, hstop⟩ }

/-- Behind the workers, every target has its job unless the context has ended. -/
theorem Warming.jobs_length {jobs' : List PutJob}
    (h : Warming targets s next jobs skipped tries (.closing jobs') rest)
    (hended : s.ended = none) :
    jobs.length = targets.length := by
  obtain ⟨-, hpending, hstop⟩ := h.fits
  have hsettled := (hpending ▸ h.accounts).settled
  have hskipped : skipped = 0 := not_not.mp fun hne => h.cut hne hended
  have hnext : targets.length ≤ next := Nat.le_of_not_lt fun hlt => hstop hlt hended
  have hcard := congrArg Multiset.card hsettled
  rw [hskipped, add_zero, Multiset.coe_card, List.length_map, Multiset.card_range] at hcard
  exact hcard.trans (Nat.le_antisymm h.accounts.bound hnext)

/-- The warmup looks at its context. -/
theorem Warming.look {jobs' : List PutJob}
    (h : Warming targets s next jobs skipped tries (.closing jobs') rest) :
    Warming targets s next jobs skipped tries (.looked jobs' s.ended) rest := by
  have hlength := h.jobs_length
  obtain ⟨rfl, hpending, -⟩ := h.fits
  exact { h with fits := ⟨rfl, hpending, id, hlength⟩ }

theorem put_place {old : PutStage} (hj : rest[j]? = some old) :
    (rest.map PutStage.place)[j]? = some old.place := by
  rw [List.getElem?_map, hj]
  rfl

theorem puts_set {new : PutStage} (h : ∀ stage ∈ rest, stage.Helps targets)
    (hnew : new.Helps targets) :
    ∀ stage ∈ rest.set j new, stage.Helps targets := by
  intro stage hmem
  rcases List.mem_or_eq_of_mem_set hmem with hmem | rfl
  · exact h stage hmem
  · exact hnew

/-- A worker moves on without a put. -/
theorem Warming.move {old new : PutStage} {t : WarmupShared} {skipped' : Multiset Nat}
    (h : Warming targets s next jobs skipped tries stage rest) (hj : rest[j]? = some old)
    (hhelps : new.Helps targets) (htried : new.tried = old.tried)
    (hfits : stage.Fits targets.length t next jobs)
    (haccounts : Accounts targets.length next t.slot t.closed t.pending
      ((rest.map PutStage.place).set j new.place) (jobs.map (·.index)) skipped')
    (hfailures : t.failures = s.failures) (hcut : skipped' ≠ 0 → t.ended ≠ none) :
    Warming targets t next jobs skipped' tries stage (rest.set j new) where
  fits := hfits
  helps := puts_set h.helps hhelps
  accounts := by rwa [List.map_set]
  tried := by rw [map_set_of_eq PutStage.tried hj htried, h.tried]
  failures := by rw [hfailures, h.failures]
  complete := h.complete
  cut := hcut

/-- The parts of the state that the warmup's own thread looks at are the same. -/
theorem PutStage.Fits.same {n : Nat} {t : WarmupShared} (h : stage.Fits n s next jobs)
    (hclosed : t.closed = s.closed) (hpending : t.pending = s.pending)
    (hended : t.ended = s.ended) :
    stage.Fits n t next jobs := by
  cases stage with
  | handing => exact ⟨h.1, hclosed.trans h.2⟩
  | stopping => exact ⟨h.1, hclosed.trans h.2.1, hended ▸ h.2.2⟩
  | waiting => exact ⟨h.1, hclosed.trans h.2.1, hended ▸ h.2.2⟩
  | closing => exact ⟨h.1, hpending.trans h.2.1, hended ▸ h.2.2⟩
  | looked => exact ⟨h.1, hpending.trans h.2.1, hended ▸ h.2.2.1, h.2.2.2⟩
  | opening | idle | holding | running | leaving | left | cancelling => exact False.elim h

/-- A worker takes an index out of the channel. -/
theorem Warming.receive (h : Warming targets s next jobs skipped tries stage rest)
    (hj : rest[j]? = some (.idle (fuel + 1))) (hslot : s.slot = some index) :
    Warming targets { s with slot := none } next jobs skipped tries stage
      (rest.set j (.holding fuel index)) := by
  have haccounts := h.accounts
  rw [hslot] at haccounts
  exact h.move hj trivial rfl (h.fits.same rfl rfl rfl) (haccounts.receive (put_place hj)) rfl h.cut

/-- A worker finds the channel closed and empty. -/
theorem Warming.leave (h : Warming targets s next jobs skipped tries stage rest)
    (hj : rest[j]? = some (.idle fuel)) (hslot : s.slot = none) (hclosed : s.closed = true) :
    Warming targets s next jobs skipped tries stage (rest.set j .leaving) := by
  have haccounts := h.accounts
  rw [hslot, hclosed] at haccounts
  refine h.move hj trivial rfl h.fits ?_ rfl h.cut
  rw [hslot, hclosed]
  exact haccounts.leave (put_place hj)

/-- A worker passes over an index when the context has ended. -/
theorem Warming.skip (h : Warming targets s next jobs skipped tries stage rest)
    (hj : rest[j]? = some (.holding fuel index)) (hended : s.ended ≠ none) :
    Warming targets s next jobs (index ::ₘ skipped) tries stage (rest.set j (.idle fuel)) :=
  h.move hj trivial rfl h.fits (h.accounts.skip (put_place hj)) rfl fun _ => hended

/-- A worker begins with its target. -/
theorem Warming.begin {target : CheckerTarget}
    (h : Warming targets s next jobs skipped tries stage rest)
    (hj : rest[j]? = some (.holding fuel index)) (htarget : targets[index]? = some target) :
    Warming targets s next jobs skipped tries stage
      (rest.set j (.running fuel ⟨index, target, []⟩)) := by
  have hhelps : (PutStage.running fuel ⟨index, target, []⟩).Helps targets := ⟨htarget, rfl⟩
  refine h.move hj hhelps rfl h.fits ?_ rfl h.cut
  have hplace :
      (rest.map PutStage.place)[j]? = some (PutStage.running fuel ⟨index, target, []⟩).place :=
    (put_place hj :)
  rw [set_same hplace]
  exact h.accounts

/-- A worker has left. -/
theorem Warming.done (h : Warming targets s next jobs skipped tries stage rest)
    (hj : rest[j]? = some .leaving) :
    Warming targets { s with pending := s.pending - 1 } next jobs skipped tries stage
      (rest.set j .left) := by
  have hpending := h.accounts.pending_pos (List.mem_of_getElem? (put_place hj)) rfl
  refine h.move hj trivial rfl ?_ (h.accounts.done (put_place hj)) rfl h.cut
  have hfits := h.fits
  cases stage with
  | closing | looked => exact absurd hfits.2.1 hpending.ne'
  | _ => exact hfits

/-- A put that failed. -/
theorem Warming.attempt {answer : Except String PutAnswer}
    (h : Warming targets s next jobs skipped tries stage rest)
    (hj : rest[j]? = some (.running fuel job))
    (hanswer : Warmup.putError answer ≠ none) :
    Warming targets s next jobs skipped (tries + {(job.target, answer)}) stage
      (rest.set j (.running fuel (job.attempt answer))) := by
  obtain ⟨htarget, hfailed⟩ : targets[job.index]? = some job.target ∧ job.succeeded = false :=
    h.helps _ (List.mem_of_getElem? hj)
  have hsum := sum_map_set PutStage.tried hj (.running fuel (job.attempt answer))
  simp only [PutStage.tried, job.tried_attempt] at hsum
  have hplace :
      (PutStage.running fuel (job.attempt answer)).place = (PutStage.running fuel job).place := rfl
  exact { h with
    helps := by
      refine puts_set h.helps ⟨htarget, ?_⟩
      rw [job.succeeded_attempt, hfailed]
      cases hnone : Warmup.putError answer with
      | none => exact absurd hnone hanswer
      | some => rfl
    accounts := by
      rw [map_set_of_eq PutStage.place hj hplace]
      exact h.accounts
    tried := by
      refine add_left_cancel (a := job.tried) ?_
      rw [h.tried, ← add_assoc _ _ (jobs.map PutJob.tried).sum, hsum]
      abel }

/-- A worker has done its job: its put succeeded, or its failure is recorded. -/
theorem Warming.finish {t : WarmupShared} {job' : PutJob} {more : Tries}
    (h : Warming targets s next jobs skipped tries stage rest)
    (hj : rest[j]? = some (.running fuel job))
    (hindex : job'.index = job.index) (htarget : job'.target = job.target)
    (hmore : job'.tried = job.tried + more) (hslot : t.slot = s.slot)
    (hclosed : t.closed = s.closed)
    (hpending : t.pending = s.pending) (hended : t.ended = s.ended)
    (hfailures : t.failures.length = s.failures.length + if job'.succeeded then 0 else 1) :
    Warming targets t next (job' :: jobs) skipped (tries + more) stage
      (rest.set j (.idle fuel)) := by
  obtain ⟨hjob, -⟩ : targets[job.index]? = some job.target ∧ job.succeeded = false :=
    h.helps _ (List.mem_of_getElem? hj)
  have hwork := h.accounts.pending_pos (List.mem_of_getElem? (put_place hj)) rfl
  have hsum := sum_map_set PutStage.tried hj (.idle fuel)
  simp only [PutStage.tried, zero_add] at hsum
  refine ⟨?_, puts_set h.helps trivial, ?_, ?_, ?_, ?_, ?_⟩
  · have hfits := h.fits.same hclosed hpending hended
    cases stage with
    | handing | stopping | waiting => exact hfits
    | closing | looked => exact absurd h.fits.2.1 hwork.ne'
    | opening | idle | holding | running | leaving | left | cancelling => exact False.elim hfits
  · rw [hslot, hclosed, hpending, List.map_set, List.map_cons, hindex]
    exact h.accounts.finish (put_place hj)
  · rw [List.map_cons, List.sum_cons, hmore, h.tried, ← hsum]
    abel
  · rw [hfailures, h.failures, List.countP_cons]
    cases job'.succeeded <;> rfl
  · refine List.forall_mem_cons.mpr ⟨?_, h.complete⟩
    rw [hindex, htarget, hjob]
  · rw [hended]
    exact h.cut

end Steps

/-! ## Programs -/

/-- The roles of a warmup. -/
def putRoles (targets : List CheckerTarget) :
    Roles LoggedWarmup WarmupInput WarmupOp WarmupOp.Res PutStage where
  sem := warmupSem.logged
  inv := PutInv targets
  allowed _ _ _ := True
  waits stage s := stage.Waits s.state
  ended := PutStage.Ended

section Plays
variable {cfg : WarmupConfig} {targets : List CheckerTarget} {stage : PutStage}
  {next fuel index : Nat}
  {jobs : List PutJob} {job : PutJob}

/-- An operation that does not end the context. -/
theorem op_plays {op : WarmupOp} {Q : op.Res → PutStage → Prop}
    (hcancels : ∀ r, WarmupLog.cancels ⟨op, r⟩ = false)
    (hstep : ∀ {s t : WarmupShared} {tries : Tries} {stages : List PutStage} {i : Nat}
      {input : WarmupInput}
      {r : op.Res}, stages[i]? = some stage → PutStages targets s tries stages →
      warmupSem input op s = some (t, r) → t.ended = s.ended ∧ ∃ new,
        PutStages targets t (tries + WarmupLog.tried ⟨op, r⟩) (stages.set i new) ∧ Q r new)
    (hwait : ∀ {s : WarmupShared} {tries : Tries} {stages : List PutStage} {i : Nat},
      stages[i]? = some stage → PutStages targets s tries stages →
      (∀ input, warmupSem input op s = none) → stage.Waits s) :
    (putRoles targets).Plays (Proc.perform op) stage Q := by
  refine .perform (fun s stages i hi hs input t r _ hsem => ?_) fun s stages i hi hs hnone => ?_
  · obtain ⟨hsem, hlog⟩ := logged_eq_some hsem
    obtain ⟨hended, new, hstages, hQ⟩ := hstep hi hs.stages hsem
    refine ⟨new, ⟨?_, ?_⟩, hQ⟩
    · rw [hlog, List.map_append, List.sum_append, List.map_singleton, List.sum_singleton]
      exact hstages
    · rw [hended, hs.ended, hlog]
      unfold WarmupLog.Fired
      simp [List.mem_append, or_and_right, exists_or, hcancels]
  · exact hwait hi hs.stages fun input => logged_eq_none.mp (hnone input)

/-- An operation of the warmup's own thread. -/
theorem mainPut_plays {op : WarmupOp} {Q : op.Res → PutStage → Prop} (hmain : stage.IsMain)
    (hcancels : ∀ r, WarmupLog.cancels ⟨op, r⟩ = false) (htried : ∀ r, WarmupLog.tried ⟨op, r⟩ = 0)
    (hstep : ∀ {s t : WarmupShared} {tries : Tries} {rest : List PutStage} {input : WarmupInput}
      {r : op.Res},
      PutStages targets s tries (stage :: rest) → warmupSem input op s = some (t, r) →
      t.ended = s.ended ∧ ∃ new, PutStages targets t tries (new :: rest) ∧ Q r new)
    (hwait : ∀ {s : WarmupShared}, (∀ input, warmupSem input op s = none) → stage.Waits s) :
    (putRoles targets).Plays (Proc.perform op) stage Q := by
  refine op_plays hcancels ?_ fun _ _ hnone => hwait hnone
  intro s t tries stages i input r hi hs hsem
  obtain ⟨rfl, rest, rfl⟩ := hs.main_first hi hmain
  rw [htried, add_zero]
  exact hstep hs hsem

/-- An operation of a worker. -/
theorem workerPut_plays {op : WarmupOp} {Q : op.Res → PutStage → Prop} (hworker : stage.IsWorker)
    (hcancels : ∀ r, WarmupLog.cancels ⟨op, r⟩ = false)
    (hstep : ∀ {s t : WarmupShared} {next : Nat} {jobs : List PutJob} {skipped : Multiset Nat}
      {tries : Tries}
      {first : PutStage} {rest : List PutStage} {j : Nat} {input : WarmupInput} {r : op.Res},
      Warming targets s next jobs skipped tries first rest → rest[j]? = some stage →
      warmupSem input op s = some (t, r) → t.ended = s.ended ∧ ∃ jobs' skipped' new,
        Warming targets t next jobs' skipped' (tries + WarmupLog.tried ⟨op, r⟩) first
          (rest.set j new) ∧ Q r new)
    (hwait : ∀ {s : WarmupShared}, (∀ input, warmupSem input op s = none) → stage.Waits s) :
    (putRoles targets).Plays (Proc.perform op) stage Q := by
  refine op_plays hcancels ?_ fun _ _ hnone => hwait hnone
  intro s t tries stages i input r hi hs hsem
  obtain ⟨j, first, rest, next, jobs, skipped, rfl, rfl, hj, h⟩ := hs.worker_later hi hworker
  obtain ⟨hended, jobs', skipped', new, h', hQ⟩ := hstep h hj hsem
  exact ⟨hended, new, .warming h', hQ⟩

/-- An operation that reads: its thread stays where it is. -/
theorem readPut_plays {op : WarmupOp} (hcancels : ∀ r, WarmupLog.cancels ⟨op, r⟩ = false)
    (htried : ∀ r, WarmupLog.tried ⟨op, r⟩ = 0)
    (hread : ∀ {s t : WarmupShared} {input : WarmupInput} {r : op.Res},
      warmupSem input op s = some (t, r) → t = s)
    (hfree : ∀ s, ∃ input, warmupSem input op s ≠ none) :
    (putRoles targets).Plays (Proc.perform op) stage fun _ new => new = stage := by
  refine op_plays hcancels ?_ fun {s} _ _ _ _ _ hnone => ?_
  · intro s t tries stages i input r hi hs hsem
    obtain rfl := hread hsem
    refine ⟨rfl, stage, ?_, rfl⟩
    rw [set_same hi, htried, add_zero]
    exact hs
  · obtain ⟨input, hinput⟩ := hfree s
    exact absurd (hnone input) hinput

/-! ### Workers -/

theorem clockPut_plays : (putRoles targets).Plays clock stage fun _ new => new = stage :=
  readPut_plays (fun _ => rfl) (fun _ => rfl) (fun h => by cases h; rfl) fun _ =>
    ⟨{}, by simp [warmupSem]⟩

theorem loadCodecPut_plays : (putRoles targets).Plays loadCodec stage fun _ new => new = stage :=
  readPut_plays (fun _ => rfl) (fun _ => rfl) (fun h => by cases h; rfl) fun _ =>
    ⟨{}, by simp [warmupSem]⟩

theorem backoff_plays : (putRoles targets).Plays backoff stage fun _ new => new = stage := by
  refine readPut_plays (fun _ => rfl) (fun _ => rfl) (fun {s t input r} h => ?_)
    fun _ => ⟨{}, by simp [warmupSem]⟩
  simp only [warmupSem] at h
  split at h
  · obtain ⟨err, -, heq⟩ := Option.map_eq_some_iff.mp h
    exact (Prod.mk.inj heq).1.symm
  · exact (Prod.mk.inj (Option.some.inj h)).1.symm

theorem receivePut_plays : (putRoles targets).Plays receive (.idle (fuel + 1)) fun r new =>
    new = match r with
      | some index => .holding fuel index
      | none => .leaving := by
  refine workerPut_plays trivial (fun _ => rfl) ?_ fun {s} hnone => ?_
  · intro s t next jobs skipped tries first rest j input r h hj hsem
    have hzero : WarmupLog.tried ⟨.receive, r⟩ = 0 := rfl
    rw [hzero, add_zero]
    simp only [warmupSem] at hsem
    cases hslot : s.slot with
    | some index =>
      rw [hslot] at hsem
      cases hsem
      exact ⟨rfl, _, _, _, h.receive hj hslot, rfl⟩
    | none =>
      rw [hslot] at hsem
      dsimp only at hsem
      split at hsem
      · cases hsem
        exact ⟨rfl, _, _, _, h.leave hj hslot ‹_›, rfl⟩
      · cases hsem
  · have hblocked := hnone {}
    simp only [warmupSem] at hblocked
    cases hslot : s.slot with
    | some index =>
      rw [hslot] at hblocked
      cases hblocked
    | none =>
      rw [hslot] at hblocked
      dsimp only at hblocked
      split at hblocked
      · cases hblocked
      · exact ⟨hslot, eq_false_of_ne_true ‹_›⟩

/-- A worker looks at the context before it begins with a target. -/
theorem beginPut_plays : (putRoles targets).Plays contextErr (.holding fuel index) fun r new =>
    ∃ target, targets[index]? = some target ∧ new = match r with
      | none => .running fuel ⟨index, target, []⟩
      | some _ => .idle fuel := by
  refine workerPut_plays trivial (fun _ => rfl) ?_ fun hnone => ?_
  · intro s t next jobs skipped tries first rest j input r h hj hsem
    have hzero : WarmupLog.tried ⟨.contextErr, r⟩ = 0 := rfl
    rw [hzero, add_zero]
    have hindex := (h.accounts.index_lt (put_place hj)).1
    have htarget := List.getElem?_eq_getElem hindex
    cases hsem
    cases hended : s.ended with
    | none => exact ⟨rfl, _, _, _, h.begin hj htarget, _, htarget, rfl⟩
    | some err =>
      exact ⟨rfl, _, _, _, h.skip hj (by rw [hended]; simp), _, htarget, rfl⟩
  · cases hnone {}

theorem donePut_plays : (putRoles targets).Plays done .leaving fun _ new => new = .left := by
  refine workerPut_plays trivial (fun _ => rfl) ?_ fun hnone => ?_
  · intro s t next jobs skipped tries first rest j input r h hj hsem
    have hzero : WarmupLog.tried ⟨.done, r⟩ = 0 := rfl
    rw [hzero, add_zero]
    cases hsem
    exact ⟨rfl, _, _, _, h.done hj, rfl⟩
  · cases hnone {}

/-- A worker never runs out of indices to take. -/
theorem donePut_idle {Q : Unit → PutStage → Prop} : (putRoles targets).Plays done (.idle 0) Q := by
  refine workerPut_plays trivial (fun _ => rfl) ?_ fun hnone => ?_
  · intro s t next jobs skipped tries first rest j input r h hj _
    exact absurd (h.accounts.fuel_pos (put_place hj)) (lt_irrefl 0)
  · cases hnone {}

/-- Where a worker stands behind its puts on a target: it has done its job, or it has an error. -/
def PutStage.Behind (fuel : Nat) (target : CheckerTarget) : Option String → PutStage → Prop
  | none, new => new = .idle fuel
  | some _, new => ∃ job : PutJob, job.target = target ∧ new = .running fuel job

theorem attemptWarmupPut_plays {flag : String} :
    (putRoles targets).Plays (Warmup.attemptWarmupPut job.target flag) (.running fuel job)
      (PutStage.Behind fuel job.target) := by
  refine .bind (Q := fun answer new => (Warmup.putError answer = none → new = .idle fuel) ∧
    (Warmup.putError answer ≠ none → new = .running fuel (job.attempt answer)))
    (workerPut_plays trivial (fun _ => rfl) ?_ fun hnone => ?_) ?_
  · intro s t next jobs skipped tries first rest j input r h hj hsem
    cases hsem
    by_cases herror : Warmup.putError input.answer = none
    · have hsucceeded : (job.attempt input.answer).succeeded = true := by
        rw [job.succeeded_attempt, herror]
        exact Bool.or_true _
      have h' : Warming targets s next (job.attempt input.answer :: jobs) skipped
          (tries + {(job.target, input.answer)}) first (rest.set j (.idle fuel)) := by
        refine h.finish hj rfl rfl (job.tried_attempt _) rfl rfl rfl rfl ?_
        rw [hsucceeded]
        rfl
      exact ⟨rfl, _, _, _, h', fun _ => rfl, fun hne => absurd herror hne⟩
    · exact ⟨rfl, _, _, _, h.attempt hj herror, fun heq => absurd heq herror, fun _ => rfl⟩
  · cases hnone {}
  · rintro answer new ⟨hnone, hsome⟩
    refine .pure ?_
    cases herror : Warmup.putError answer with
    | none => exact hnone herror
    | some e => exact ⟨job.attempt answer, rfl, hsome (by simp [herror])⟩

/-- The further attempts, by induction on how many are left. -/
theorem retries_plays {flag lastErr : String} {n : Nat} :
    (putRoles targets).Plays (Warmup.retries job.target flag lastErr n) (.running fuel job)
      (PutStage.Behind fuel job.target) := by
  induction n generalizing job lastErr with
  | zero => exact .pure ⟨job, rfl, rfl⟩
  | succ n ih =>
    refine .bind backoff_plays ?_
    rintro (_ | err) _ rfl
    · refine .bind attemptWarmupPut_plays ?_
      rintro (_ | lastErr') new hnew
      · exact .pure hnew
      · obtain ⟨job', htarget, rfl⟩ := hnew
        dsimp only
        rw [← htarget]
        exact ih
    · exact .pure ⟨job, rfl, rfl⟩

theorem runWarmupForTarget_plays :
    (putRoles targets).Plays (Warmup.runWarmupForTarget cfg job.target) (.running fuel job)
      (PutStage.Behind fuel job.target) := by
  refine .bind loadCodecPut_plays ?_
  rintro codec _ rfl
  refine .bind attemptWarmupPut_plays ?_
  rintro (_ | lastErr) new hnew
  · exact .pure hnew
  · obtain ⟨job', htarget, rfl⟩ := hnew
    dsimp only
    rw [← htarget]
    exact retries_plays

/-- A worker records why it could not put the flag. -/
theorem recordFailure_plays {failure : GameWarmupFailure} :
    (putRoles targets).Plays (recordFailure failure) (.running fuel job) fun _ new =>
      new = .idle fuel := by
  refine workerPut_plays trivial (fun _ => rfl) ?_ fun hnone => ?_
  · intro s t next jobs skipped tries first rest j input r h hj hsem
    obtain ⟨-, hfailed⟩ : targets[job.index]? = some job.target ∧ job.succeeded = false :=
      h.helps _ (List.mem_of_getElem? hj)
    cases hsem
    have h' :
        Warming targets { s with failures := s.failures ++ [failure] } next (job :: jobs) skipped
        (tries + 0) first (rest.set j (.idle fuel)) := by
      refine h.finish hj rfl rfl (add_zero _).symm rfl rfl rfl rfl ?_
      rw [hfailed, List.length_append]
      rfl
    exact ⟨rfl, _, _, _, h', rfl⟩
  · cases hnone {}

/-- A worker, by induction on the indices that it can take. -/
theorem putWorker_plays : (putRoles targets).Plays (Warmup.worker cfg targets fuel) (.idle fuel)
    fun _ new => new = .left := by
  induction fuel with
  | zero => exact donePut_idle
  | succ fuel ih =>
    refine .bind receivePut_plays ?_
    rintro (_ | index) _ rfl
    · exact donePut_plays
    · refine .bind beginPut_plays ?_
      rintro err _ ⟨target, htarget, rfl⟩
      rw [htarget]
      cases err with
      | some err => exact ih
      | none =>
        have hruns (job : PutJob) :
            (putRoles targets).Plays (Warmup.runWarmupForTarget cfg job.target) (.running fuel job)
              (PutStage.Behind fuel job.target) := runWarmupForTarget_plays
        refine .bind (hruns ⟨index, target, []⟩) ?_
        rintro (_ | error) new hnew
        · obtain rfl : new = .idle fuel := hnew
          exact ih
        · obtain ⟨job, -, rfl⟩ := hnew
          refine .bind recordFailure_plays ?_
          rintro _ _ rfl
          exact ih

end Plays

end ADPlatform.GameCore
