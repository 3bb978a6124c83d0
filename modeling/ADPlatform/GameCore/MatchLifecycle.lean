import ADPlatform.GameCore.MatchServer

/-! # What holds of the match over every interleaving

Two properties of the stored match state, each as a contract that the programs of the match
endpoints keep at every statement: a finished match stays finished (`finality`) and, when warmups
are required, a match is first started behind a passed warmup (`warmupGate`). Both hold of the
runs whose steps meet the contract's condition, and both fail without it. -/

namespace ADPlatform.GameCore
open Concurrent MatchProc

section programs
variable {C : Contract MatchShared MatchInput MatchOp MatchOp.Res} {s : MatchShared}

/-- The operations that are neither a transition of the match nor the end of a warmup. -/
def MatchOp.Plain : MatchOp → Prop
  | .upsertMatch write _ => write.isSchedule = true
  | .warmupStore result => result.status ≠ .passed
  | _ => True

/-- A transition is within the contract wherever the rely leads from the state `t` of its read. -/
def Writes (C : Contract MatchShared MatchInput MatchOp MatchOp.Res) (write : MatchWrite)
    (t : MatchShared) : Prop :=
  ∀ u input v r, C.rely t u → C.inv u → C.allowed input (.upsertMatch write t.stops) u →
    matchSem input (.upsertMatch write t.stops) u = some (v, r) → C.inv v ∧ C.guar u v

/-- What a contract has to grant for the match endpoints to keep it. `ready` is what a start by
an operator may assume once the warmup gate is behind it. -/
structure MatchRules (C : Contract MatchShared MatchInput MatchOp MatchOp.Res)
    (ready : MatchShared → Prop) : Prop where
  sem : C.sem = matchSem
  plain : ∀ op, op.Plain → C.Keeps op
  warmupPassed : ∀ result, result.status = .passed → C.Keeps (.warmupStore result)
  startOperator : ∀ t now current, ready t → current.state = t.state →
    t.state = .notStarted ∨ t.state = .paused → Writes C (.start now current) t
  startMonitor : ∀ t input now current, C.allowed input (.selectMatch .monitor) t →
    current.state = t.state → t.state = .notStarted ∨ t.state = .paused →
    Writes C (.start now current) t
  pause : ∀ t current, current.state = t.state → t.state = .running → Writes C (.pause current) t
  resume : ∀ t current, current.state = t.state → t.state = .paused →
    Writes C (.resume current) t
  stop : ∀ t now current, Writes C (.stop now current) t
  ready_rely : ∀ {t u}, C.rely t u → ready t → ready u
  ready_last : ∀ {t}, C.inv t → t.lastWarmup.status = .passed → ready t

variable {ready : MatchShared → Prop} (H : MatchRules C ready)
include H

theorem clock_fine : C.Fine clock s := .perform (H.plain _ trivial)

/-- A status read sees the stored state, and changes nothing. -/
theorem selectMatch_meets (caller : Caller) :
    C.Meets (selectMatch caller) s fun r t => ∀ current seen, r = some (current, seen) →
      current.state = t.state ∧ seen = t.stops ∧
        ∃ input, C.allowed input (.selectMatch caller) t := by
  refine .perform fun s' input t r _ hs' hal hsem => ?_
  obtain ⟨ht, hg⟩ := H.plain (.selectMatch caller) trivial input s' t r hs' hal hsem
  rw [H.sem] at hsem
  refine ⟨ht, hg, fun current seen h => ?_⟩
  subst h
  cases hf : input.failure <;> simp [matchSem, hf] at hsem <;> cases hsem
  exact ⟨MatchRow.toStatus_state _, rfl, input, hal⟩

/-- The shape of every store call: read the status, then go on from what was read. -/
theorem afterRead_fine {body : GameMatchStatus → Nat → MatchProc α} {fail : α} (caller : Caller)
    (h : ∀ t input current, C.inv t → C.rely s t → C.allowed input (.selectMatch caller) t →
      current.state = t.state → C.Fine (body current t.stops) t) :
    C.Fine (selectMatch caller >>= fun
      | none => pure fail
      | some (current, seen) => body current seen) s := by
  refine (selectMatch_meets H caller).bind fun r t ht hr hq => ?_
  match r with
  | none => exact Contract.Fine.pure ht
  | some (current, seen) =>
    obtain ⟨hstate, rfl, input, hal⟩ := hq current seen rfl
    exact h t input current ht hr hal hstate

theorem upsertMatch_fine {write : MatchWrite} {t : MatchShared} {f : Option Unit → MatchProc α}
    (hw : Writes C write t) (hf : ∀ r u, C.inv u → C.Fine (f r) u) :
    C.Fine (upsertMatch write t.stops >>= f) t := by
  refine .bind (Contract.Meets.perform fun u input v r hr hu hal hsem => ?_)
    fun r u hu _ => hf r u hu
  obtain ⟨hv, hg⟩ := hw u input v r hr hu hal (H.sem ▸ hsem)
  exact ⟨hv, hg, trivial⟩

omit H in
theorem answer_fine {e v : α} (hs : C.inv s) (r : Option Unit) :
    C.Fine (match r with
      | none => pure e
      | some () => pure v) s := by
  cases r <;> exact Contract.Fine.pure hs

theorem startMatch_fine {caller : Caller} {now : Time}
    (hw : ∀ t input current, C.rely s t → C.allowed input (.selectMatch caller) t →
      current.state = t.state → t.state = .notStarted ∨ t.state = .paused →
      Writes C (.start now current) t) :
    C.Fine (PostgresGameStore.startMatch caller now) s := by
  refine afterRead_fine H caller fun t input current ht hr hal hstate => ?_
  have hw := hw t input current hr hal hstate
  rw [← hstate] at hw
  cases h : current.state with
  | running | finished => exact .pure ht
  | notStarted | paused =>
    exact upsertMatch_fine H (hw (by simp [h])) fun r u hu => answer_fine hu r

theorem startMatch_operator_fine {now : Time} (hs : ready s) :
    C.Fine (PostgresGameStore.startMatch .operator now) s :=
  startMatch_fine H fun t _ current hr _ => H.startOperator t now current (H.ready_rely hr hs)

theorem startMatch_monitor_fine {now : Time} :
    C.Fine (PostgresGameStore.startMatch .monitor now) s :=
  startMatch_fine H fun t input current _ => H.startMonitor t input now current

theorem pauseMatch_fine : C.Fine PostgresGameStore.pauseMatch s := by
  refine afterRead_fine H .operator fun t input current ht hr hal hstate => ?_
  cases h : current.state with
  | running =>
    exact upsertMatch_fine H (H.pause t current hstate (hstate ▸ h)) fun r u hu => answer_fine hu r
  | notStarted | paused | finished => exact .pure ht

theorem resumeMatch_fine : C.Fine PostgresGameStore.resumeMatch s := by
  refine afterRead_fine H .operator fun t input current ht hr hal hstate => ?_
  cases h : current.state with
  | paused =>
    exact upsertMatch_fine H (H.resume t current hstate (hstate ▸ h)) fun r u hu => answer_fine hu r
  | notStarted | running | finished => exact .pure ht

theorem stopMatch_fine {now : Time} : C.Fine (PostgresGameStore.stopMatch now) s := by
  refine afterRead_fine H .operator fun t input current ht hr hal hstate => ?_
  cases h : current.state with
  | finished => exact .pure ht
  | notStarted | running | paused =>
    exact upsertMatch_fine H (H.stop t now current) fun r u hu => answer_fine hu r

theorem storeStatus_fine : C.Fine PostgresGameStore.matchStatus s :=
  afterRead_fine H .operator fun _ _ _ ht _ _ _ => .pure ht

theorem updateMatchSchedule_fine {startAt endAt : Option Time} :
    C.Fine (PostgresGameStore.updateMatchSchedule startAt endAt) s := by
  refine .bind (.perform (H.plain _ rfl)) fun r t ht _ => ?_
  cases r with
  | none => exact .pure ht
  | some => exact storeStatus_fine H

theorem matchStatus_fine {cfg : MatchConfig} : C.Fine (GameCoreServer.matchStatus cfg) s := by
  refine .bind (storeStatus_fine H) fun r t ht _ => ?_
  cases r with
  | error => exact .pure ht
  | ok => exact .bind (clock_fine H) fun _ _ hu _ => .pure hu

/-- After a passed result has been stored, the gate is open. -/
theorem warmupStore_meets (result : GameWarmupResult) :
    C.Meets (warmupStore result) s fun _ t => result.status = .passed → ready t := by
  refine .perform fun s' input t r _ hs' hal hsem => ?_
  have hkeeps : C.Keeps (.warmupStore result) := by
    by_cases hp : result.status = .passed
    · exact H.warmupPassed result hp
    · exact H.plain _ hp
  obtain ⟨ht, hg⟩ := hkeeps input s' t r hs' hal hsem
  refine ⟨ht, hg, fun hp => H.ready_last ht ?_⟩
  rw [H.sem] at hsem
  cases hsem
  exact hp

/-- Another execution in flight answers the result stored last. -/
theorem warmupBegin_meets :
    C.Meets warmupBegin s fun r t => ∀ current, r = some current → current.status = .passed →
      ready t := by
  refine .perform fun s' input t r _ hs' hal hsem => ?_
  obtain ⟨ht, hg⟩ := H.plain .warmupBegin trivial input s' t r hs' hal hsem
  refine ⟨ht, hg, fun current hc hp => H.ready_last ht ?_⟩
  subst hc
  rw [H.sem] at hsem
  cases hf : s'.warmupInFlight <;> simp only [matchSem, hf] at hsem <;> cases hsem
  exact hp

theorem recordWarmup_meets (result : GameWarmupResult) (failed : Bool) :
    C.Meets (do warmupStore result; warmupEnd; return (result, failed)) s
      fun r t => r.1.status = .passed → ready t := by
  refine (warmupStore_meets H result).bind fun _ t ht _ hp => ?_
  refine Contract.Meets.bind (Contract.Fine.perform (H.plain .warmupEnd trivial)) ?_
  exact fun _ u hu hr _ => .pure hu fun h => H.ready_rely hr (hp h)

theorem recordWarmupFailure_meets (base : GameWarmupResult) (runErr : String) :
    C.Meets (GameCoreServer.recordWarmupFailure base runErr) s fun r _ => r.status = .failed := by
  refine Contract.Meets.bind (clock_fine H) fun _ t ht _ _ => ?_
  exact (warmupStore_meets H _).bind fun _ t ht _ _ => .pure ht rfl

/-- A warmup that answers `passed` leaves the gate open. -/
theorem runWarmup_meets {cfg : MatchConfig} :
    C.Meets (GameCoreServer.runWarmup cfg) s fun r t => r.1.status = .passed → ready t := by
  refine (warmupBegin_meets H).bind fun r t ht _ hcur => ?_
  cases r with
  | some current => exact .pure ht (hcur current rfl)
  | none =>
    refine Contract.Meets.bind (clock_fine H) fun startedAt t ht _ _ => ?_
    refine (warmupStore_meets H _).bind fun _ t ht _ _ => ?_
    refine Contract.Meets.bind (Contract.Fine.perform (H.plain .listCheckerTargets trivial)) ?_
    intro targets t ht _ _
    cases targets with
    | error =>
      refine (recordWarmupFailure_meets H _ _).bind fun r t ht _ hfailed => ?_
      refine Contract.Meets.bind (Contract.Fine.perform (H.plain .warmupEnd trivial)) ?_
      exact fun _ u hu _ _ => .pure hu fun hpassed =>
        absurd (hpassed.symm.trans hfailed) (by decide)
    | ok targets =>
      refine .ite (fun _ => ?_) fun _ => ?_
      · exact Contract.Meets.bind (clock_fine H) fun _ _ _ _ _ => recordWarmup_meets H _ _
      · refine Contract.Meets.bind (Contract.Fine.perform (H.plain (.runWarmupPuts _) trivial)) ?_
        intro puts t ht _ _
        exact Contract.Meets.bind (clock_fine H) fun _ _ _ _ _ => recordWarmup_meets H _ _

theorem startMatchNow_fine (hs : ready s) : C.Fine GameCoreServer.startMatchNow s := by
  refine .bind (clock_fine H) fun now t ht hr => ?_
  refine .bind (startMatch_operator_fine H (H.ready_rely hr hs)) fun r u hu _ => ?_
  rcases r with (_ | _ | _) | _ <;> exact .pure hu

theorem handleStartMatch_fine {cfg : MatchConfig}
    (hreq : cfg.warmupRequired = true ∨ ∀ t, ready t) :
    C.Fine (GameCoreServer.handleStartMatch cfg) s := by
  refine .bind (matchStatus_fine H) fun r t ht _ => ?_
  cases r with
  | error => exact .pure ht
  | ok current =>
    refine .ite (fun _ => .pure ht) fun _ => .ite (fun _ => .pure ht) fun _ => .ite (fun _ => ?_) ?_
    · refine (runWarmup_meets H).bind fun (warmup, failed) u hu _ hp => ?_
      refine .ite (fun _ => .pure hu trivial) fun _ => .ite (fun _ => .pure hu trivial) ?_
      exact fun hpass => startMatchNow_fine H (hp (not_not.mp hpass))
    · exact fun hfree => startMatchNow_fine H (hreq.resolve_left hfree t)

theorem handlePauseMatch_fine {cfg : MatchConfig} :
    C.Fine (GameCoreServer.handlePauseMatch cfg) s := by
  refine .bind (matchStatus_fine H) fun r t ht _ => ?_
  cases r with
  | error => exact .pure ht
  | ok current =>
    refine .ite (fun _ => .pure ht) fun _ => .ite (fun _ => .pure ht) fun _ => ?_
    refine .bind (pauseMatch_fine H) fun r u hu _ => ?_
    cases r <;> exact .pure hu

theorem handleResumeMatch_fine {cfg : MatchConfig} :
    C.Fine (GameCoreServer.handleResumeMatch cfg) s := by
  refine .bind (matchStatus_fine H) fun r t ht _ => ?_
  cases r with
  | error => exact .pure ht
  | ok current =>
    refine .ite (fun _ => .pure ht) fun _ => .ite (fun _ => ?_) fun _ => .pure ht
    refine .bind (resumeMatch_fine H) fun r u hu _ => ?_
    cases r <;> exact .pure hu

theorem handleStopMatch_fine {cfg : MatchConfig} :
    C.Fine (GameCoreServer.handleStopMatch cfg) s := by
  refine .bind (matchStatus_fine H) fun r t ht _ => ?_
  cases r with
  | error => exact .pure ht
  | ok current =>
    refine .ite (fun _ => .pure ht) fun _ => .bind (clock_fine H) fun _ _ _ _ => ?_
    refine .bind (stopMatch_fine H) fun r u hu _ => ?_
    cases r <;> exact .pure hu

theorem handleUpdateMatchSchedule_fine {startAt endAt : Option Time} (hs : C.inv s) :
    C.Fine (GameCoreServer.handleUpdateMatchSchedule startAt endAt) s := by
  refine .ite (fun _ => .pure hs) fun _ => .bind (updateMatchSchedule_fine H) fun r u hu _ => ?_
  cases r <;> exact .pure hu

theorem handleRunWarmup_fine {cfg : MatchConfig} :
    C.Fine (GameCoreServer.handleRunWarmup cfg) s := by
  refine (runWarmup_meets H).bind fun (result, failed) t ht _ _ => ?_
  exact .ite (fun _ => .pure ht trivial) fun _ => .pure ht trivial

theorem reconcilePendingAccess_fine {state : MatchState} :
    C.Fine (MatchWindowMonitor.reconcilePendingAccess state) s := by
  refine .bind (.perform (H.plain .accessLoad trivial)) fun access t ht _ => ?_
  refine .ite (fun _ => ?_) fun _ => .pure ht
  refine .bind (.perform (H.plain .reconcileAccess trivial)) fun r u hu _ => ?_
  cases r with
  | none => exact .pure hu
  | some =>
    exact .bind (.perform (H.plain (.accessSave _) trivial)) fun _ _ hv _ => .pure hv

theorem requestAccess_fine {state : MatchState} :
    C.Fine (MatchWindowMonitor.requestAccess state) s :=
  .bind (.perform (H.plain .accessLoad trivial)) fun _ _ _ _ =>
    .bind (.perform (H.plain (.accessSave _) trivial)) fun _ _ _ _ =>
      reconcilePendingAccess_fine H

theorem instantOrNow_fine {stamp : Stamp} (hs : C.inv s) :
    C.Fine (MatchWindowMonitor.instantOrNow stamp) s := by
  unfold MatchWindowMonitor.instantOrNow
  cases parseOptionalRFC3339 stamp with
  | some => exact .pure hs
  | none => exact clock_fine H

theorem startMissed_fine {current desired : GameMatchStatus} (hs : C.inv s) :
    C.Fine (MatchWindowMonitor.startMissed current desired) s := by
  unfold MatchWindowMonitor.startMissed
  split
  · refine .bind (startMatch_monitor_fine H) fun r t ht _ => ?_
    rcases r with (_ | _ | _) | _ <;> exact .pure ht
  · exact .pure hs

theorem finishMatch_fine {current desired : GameMatchStatus} (hs : C.inv s) :
    C.Fine (MatchWindowMonitor.finishMatch current desired) s := by
  refine .bind (startMissed_fine H hs) fun started t ht _ => ?_
  cases started with
  | error => exact .pure ht
  | ok =>
    refine .bind (instantOrNow_fine H ht) fun endAt u hu _ => ?_
    refine .bind (stopMatch_fine H) fun r v hv _ => ?_
    cases r with
    | error => exact .pure hv
    | ok => exact requestAccess_fine H

theorem reconcileMatchWindowState_fine {cfg : MatchConfig} :
    C.Fine (MatchWindowMonitor.reconcileMatchWindowState cfg) s := by
  refine .bind (storeStatus_fine H) fun r t ht _ => ?_
  cases r with
  | error => exact .pure ht
  | ok current =>
    refine .bind (clock_fine H) fun now u hu _ => .ite (fun _ => ?_) fun _ => ?_
    · refine .bind (.perform (H.plain .accessLoad trivial)) fun access v hv _ => ?_
      refine .ite (fun _ => ?_) fun _ => reconcilePendingAccess_fine H
      exact .bind (.perform (H.plain (.accessSave _) trivial)) fun _ _ _ _ =>
        reconcilePendingAccess_fine H
    · cases (applyMatchWindow cfg.window now current).state with
      | notStarted | paused => exact .pure hu
      | finished => exact finishMatch_fine H hu
      | running =>
        refine .bind (instantOrNow_fine H hu) fun startAt v _ _ => ?_
        refine .bind (startMatch_monitor_fine H) fun r w hw _ => ?_
        rcases r with (_ | _ | _) | _
        · exact .pure hw
        · exact .pure hw
        · exact requestAccess_fine H
        · exact requestAccess_fine H

/-- Every match endpoint and every pass of the monitor keeps the contract. -/
theorem MatchRequest.handles {cfg : MatchConfig}
    (hreq : cfg.warmupRequired = true ∨ ∀ t, ready t) :
    C.Handles (MatchRequest.handler cfg) := by
  intro request s hs
  cases request with
  | startMatch => exact (handleStartMatch_fine H hreq).toThread
  | pauseMatch => exact (handlePauseMatch_fine H).toThread
  | resumeMatch => exact (handleResumeMatch_fine H).toThread
  | stopMatch => exact (handleStopMatch_fine H).toThread
  | updateMatchSchedule => exact (handleUpdateMatchSchedule_fine H hs).toThread
  | runWarmup => exact (handleRunWarmup_fine H).toThread
  | monitorPass => exact (reconcileMatchWindowState_fine H).toThread

/-- Where an operator may always start, so does every call made straight on the store. -/
theorem StoreCall.handles (hfree : ∀ t, ready t) : C.Handles StoreCall.handler := by
  intro call s hs
  cases call with
  | startMatch => exact (startMatch_operator_fine H (hfree s)).toThread
  | pauseMatch => exact (pauseMatch_fine H).toThread
  | resumeMatch => exact (resumeMatch_fine H).toThread
  | stopMatch => exact (stopMatch_fine H).toThread

end programs

/-! ## The effect of an operation on the match state -/

/-- An upsert either fails without effect or leaves the state that it proposes. -/
theorem upsertMatch_cases {input : MatchInput} {write : MatchWrite} {seen : Nat}
    {u v : MatchShared} {r : Option Unit}
    (h : matchSem input (.upsertMatch write seen) u = some (v, r)) :
    v = u ∨ v = { u with row := some (write.upsert u.row),
                         stops := if write.isStop then u.stops + 1 else u.stops } := by
  cases hf : input.failure <;> simp [matchSem, hf] at h <;> cases h
  · exact .inr rfl
  · exact .inl rfl

/-- A plain operation moves neither the match state nor the histories. -/
theorem MatchOp.Plain.frame {input : MatchInput} {op : MatchOp} (hop : op.Plain)
    {u v : MatchShared} {r : op.Res} (h : matchSem input op u = some (v, r)) :
    v.state = u.state ∧ v.stops = u.stops ∧ v.passedWarmups = u.passedWarmups ∧
      (v.lastWarmup.status = .passed → u.lastWarmup.status = .passed) := by
  cases op with
  | upsertMatch write seen =>
    obtain ⟨startAt, endAt, rfl⟩ : ∃ startAt endAt, write = .schedule startAt endAt := by
      cases write <;> simp_all [MatchOp.Plain, MatchWrite.isSchedule]
    rcases upsertMatch_cases h with rfl | rfl
    · exact ⟨rfl, rfl, rfl, id⟩
    · exact ⟨MatchWrite.upsert_state _ _, rfl, rfl, id⟩
  | warmupStore result =>
    cases h
    have hne : result.status ≠ .passed := hop
    exact ⟨rfl, rfl, if_neg hne, fun hp => absurd hp hne⟩
  | warmupBegin =>
    cases hf : u.warmupInFlight <;> simp only [matchSem, hf] at h <;> cases h <;>
      exact ⟨rfl, rfl, rfl, id⟩
  | _ => cases h; exact ⟨rfl, rfl, rfl, id⟩

/-! ## A finished match stays finished -/

/-- What a step may do to a finished match; a step without a `stop` upsert finishes none. -/
def KeepsFinished (s t : MatchShared) : Prop :=
  (s.state = .finished → t.state = .finished) ∧ s.stops ≤ t.stops ∧
    (t.stops = s.stops → t.state = .finished → s.state = .finished)

theorem KeepsFinished.trans {s t u : MatchShared} (h : KeepsFinished s t)
    (h' : KeepsFinished t u) : KeepsFinished s u := by
  refine ⟨fun hs => h'.1 (h.1 hs), h.2.1.trans h'.2.1, fun hu hf => ?_⟩
  have hst := h.2.1
  have htu := h'.2.1
  exact h.2.2 (by omega) (h'.2.2 (by omega) hf)

/-- The condition: between the status read of a start, a pause or a resume and its upsert, no
`stop` upsert takes effect. -/
def finality : Contract MatchShared MatchInput MatchOp MatchOp.Res where
  sem := matchSem
  inv _ := True
  guar := KeepsFinished
  rely := KeepsFinished
  allowed
    | _, .upsertMatch write seen, s =>
      write.isStop = true ∨ write.isSchedule = true ∨ seen = s.stops
    | _, _, _ => True
  guar_refl _ := ⟨id, le_rfl, fun _ h => h⟩
  rely_refl _ := ⟨id, le_rfl, fun _ h => h⟩
  rely_trans := KeepsFinished.trans
  guar_rely h := h

/-- A transition to another state than `finished` is safe after a read of such a state. -/
theorem finality_writes {write : MatchWrite} {t : MatchShared} (hstop : write.isStop = false)
    (hschedule : write.isSchedule = false) (ht : t.state ≠ .finished) :
    Writes finality write t := by
  intro u input v r hr _ hal hsem
  have hseen : u.stops = t.stops := by
    rcases hal with h | h | h
    · simp [h] at hstop
    · simp [h] at hschedule
    · exact h.symm
  have hu : u.state ≠ .finished := fun h => ht (hr.2.2 hseen h)
  refine ⟨trivial, ?_⟩
  rcases upsertMatch_cases hsem with rfl | rfl
  · exact finality.guar_refl _
  · refine ⟨fun h => absurd h hu, by simp [hstop], fun _ hf => ?_⟩
    have hv := (MatchWrite.upsert_state write u.row).symm.trans hf
    rw [hschedule, if_neg Bool.false_ne_true, MatchWrite.proposed_finished, hstop] at hv
    cases hv

theorem finality_rules : MatchRules finality fun _ => True where
  sem := rfl
  plain op hop := by
    intro input s t r _ _ hsem
    obtain ⟨hstate, hstops, -⟩ := hop.frame hsem
    exact ⟨trivial, fun h => hstate.trans h, hstops.ge, fun _ h => hstate.symm.trans h⟩
  warmupPassed result _ := by
    intro input s t r _ _ hsem
    cases hsem
    exact ⟨trivial, finality.guar_refl _⟩
  startOperator t now current _ _ ht :=
    finality_writes rfl rfl (by rcases ht with h | h <;> simp [h])
  startMonitor t _ now current _ _ ht :=
    finality_writes rfl rfl (by rcases ht with h | h <;> simp [h])
  pause t current _ ht := finality_writes rfl rfl (by simp [ht])
  resume t current _ ht := finality_writes rfl rfl (by simp [ht])
  stop t now current := by
    intro u input v r _ _ _ hsem
    refine ⟨trivial, ?_⟩
    rcases upsertMatch_cases hsem with rfl | rfl
    · exact finality.guar_refl _
    · refine ⟨fun _ => MatchWrite.upsert_state _ _, Nat.le_succ _, fun h => ?_⟩
      exact absurd h (Nat.succ_ne_self _)
  ready_rely _ _ := trivial
  ready_last _ _ := trivial

/-- Calls on the store, the endpoints and the monitor, all at once. -/
def matchTraffic (cfg : MatchConfig) : StoreCall ⊕ MatchRequest → Thread MatchOp MatchOp.Res :=
  Sum.elim StoreCall.handler (MatchRequest.handler cfg)

theorem finality_handles (cfg : MatchConfig) : finality.Handles (matchTraffic cfg)
  | .inl call => StoreCall.handles finality_rules (fun _ => trivial) call
  | .inr request => MatchRequest.handles finality_rules (.inr fun _ => trivial) request

/-- In every run in which no `stop` upsert takes effect between the status read of a start, pause
or resume and its upsert, a match that is finished is finished in every later state. -/
theorem finished_stays_finished (cfg : MatchConfig) (start : MatchShared)
    (ls ls' : List (Label (StoreCall ⊕ MatchRequest) MatchInput))
    (hrun : finality.RunAllowed (matchTraffic cfg) (.boot start) (ls ++ ls'))
    (h : ((Machine.boot start).run matchSem (matchTraffic cfg) ls).shared.state = .finished) :
    ((Machine.boot start).run matchSem (matchTraffic cfg) (ls ++ ls')).shared.state
      = .finished := by
  obtain ⟨hpre, hpost⟩ := (Contract.runAllowed_append ls ls').mp hrun
  have hgood := (Contract.Good.run (finality_handles cfg) (Contract.Good.boot trivial) hpre).1
  have hkeep := (hgood.run (finality_handles cfg) hpost).2
  rw [Machine.run_append]
  exact hkeep.1 h

/-- A pause that reads a running match, a stop that runs to its end, and the pause's upsert. -/
def pauseAroundStop : List (Label (StoreCall ⊕ MatchRequest) MatchInput) :=
  [.arrive (.inl .pauseMatch), .arrive (.inl (.stopMatch 7)),
    .step 0 {}, .step 1 {}, .step 1 {}, .step 0 {}]

/-- Without the condition a finished match is paused again: no upsert re-checks the state. -/
theorem finished_match_paused :
    ¬ ∀ (cfg : MatchConfig) (start : MatchShared)
      (ls ls' : List (Label (StoreCall ⊕ MatchRequest) MatchInput)),
      ((Machine.boot start).run matchSem (matchTraffic cfg) ls).shared.state = .finished →
      ((Machine.boot start).run matchSem (matchTraffic cfg) (ls ++ ls')).shared.state
        = .finished := by
  intro h
  have hlast := h {} { row := some { state := .running } } (pauseAroundStop.take 5)
    (pauseAroundStop.drop 5) rfl
  exact absurd hlast (by decide)

/-- The condition is met when the pause reads after the stop. -/
theorem finished_stays_finished_in_turn :
    ((Machine.boot { row := some { state := .running } }).run matchSem (matchTraffic {})
      [.arrive (.inl (.stopMatch 7)), .step 0 {}, .step 0 {}, .arrive (.inl .pauseMatch),
        .step 1 {}]).shared.state = .finished := by
  refine finished_stays_finished {} _ [.arrive (.inl (.stopMatch 7)), .step 0 {}, .step 0 {}]
    [.arrive (.inl .pauseMatch), .step 1 {}] ?_ rfl
  refine ⟨trivial, ?_, ?_, trivial, ?_, trivial⟩ <;> rintro op k h - <;> cases h
  · trivial
  · exact .inl rfl
  · trivial

/-! ## The warmup gate -/

/-- Passed warmups add up, and a match that has left `notStarted` does not come back to it. -/
def Progresses (s t : MatchShared) : Prop :=
  s.passedWarmups ≤ t.passedWarmups ∧ (s.state ≠ .notStarted → t.state ≠ .notStarted)

theorem Progresses.refl (s : MatchShared) : Progresses s s := ⟨le_rfl, id⟩

/-- A passed warmup precedes the step if the step starts the match. -/
def StartsWarm (s t : MatchShared) : Prop :=
  s.state = .notStarted → t.state = .running → 0 < s.passedWarmups

theorem StartsWarm.refl (s : MatchShared) : StartsWarm s s := by
  intro h h'
  rw [h] at h'
  cases h'

/-- The condition: the monitor does not come to start a match before a warmup has passed. -/
def warmupGate : Contract MatchShared MatchInput MatchOp MatchOp.Res where
  sem := matchSem
  inv s := s.lastWarmup.status = .passed → 0 < s.passedWarmups
  guar s t := Progresses s t ∧ StartsWarm s t
  rely := Progresses
  allowed
    | _, .selectMatch .monitor, s => s.state = .notStarted → 0 < s.passedWarmups
    | _, _, _ => True
  guar_refl s := ⟨.refl s, .refl s⟩
  rely_refl := .refl
  rely_trans h h' := ⟨h.1.trans h'.1, fun hs => h'.2 (h.2 hs)⟩
  guar_rely h := h.1

instance (input : MatchInput) (op : MatchOp) (s : MatchShared) :
    Decidable (warmupGate.allowed input op s) :=
  match op with
  | .selectMatch .monitor =>
    inferInstanceAs (Decidable (s.state = .notStarted → 0 < s.passedWarmups))
  | .selectMatch .operator | .clock | .upsertMatch .. | .warmupBegin | .warmupStore _ | .warmupEnd
  | .listCheckerTargets | .runWarmupPuts _ | .accessLoad | .accessSave _ | .reconcileAccess =>
    isTrue trivial

/-- A transition is safe when it leaves `notStarted` and, should it start the match, a passed
warmup was there at its read or the match had been started by then. -/
theorem warmupGate_writes {write : MatchWrite} {t : MatchShared}
    (hschedule : write.isSchedule = false) (hstate : write.proposed.state ≠ .notStarted)
    (hwarm : write.proposed.state = .running → t.state = .notStarted → 0 < t.passedWarmups) :
    Writes warmupGate write t := by
  intro u input v r hr hu _ hsem
  rcases upsertMatch_cases hsem with rfl | rfl
  · exact ⟨hu, warmupGate.guar_refl _⟩
  · have hv := MatchWrite.upsert_state write u.row
    rw [hschedule, if_neg Bool.false_ne_true] at hv
    refine ⟨hu, ⟨le_rfl, fun _ h => hstate (hv.symm.trans h)⟩, fun hnot hrun => ?_⟩
    have ht : t.state = .notStarted := by
      by_contra hne
      exact hr.2 hne hnot
    exact (hwarm (hv.symm.trans hrun) ht).trans_le hr.1

theorem warmupGate_rules : MatchRules warmupGate fun t => 0 < t.passedWarmups where
  sem := rfl
  plain op hop := by
    intro input s t r hs _ hsem
    obtain ⟨hstate, -, hpassed, hlast⟩ := hop.frame hsem
    refine ⟨fun h => hpassed ▸ hs (hlast h), ⟨hpassed.ge, fun h => hstate ▸ h⟩, ?_⟩
    intro hnot hrun
    rw [hstate, hnot] at hrun
    cases hrun
  warmupPassed result hp := by
    intro input s t r _ _ hsem
    cases hsem
    simp only [if_pos hp]
    exact ⟨fun _ => Nat.succ_pos _, ⟨Nat.le_succ _, id⟩, StartsWarm.refl s⟩
  startOperator t now current ht _ _ := warmupGate_writes rfl nofun fun _ _ => ht
  startMonitor t _ now current hal _ _ := warmupGate_writes rfl nofun fun _ => hal
  pause t current _ _ := warmupGate_writes rfl nofun nofun
  resume t current _ ht := warmupGate_writes rfl nofun fun _ h => by simp [ht] at h
  stop t now current := warmupGate_writes rfl nofun nofun
  ready_rely h ht := ht.trans_le h.1
  ready_last ht hp := ht hp

/-- With warmups required, in every run in which the monitor does not come to start a match before
a warmup has passed, a step takes the match from `notStarted` to `running` only after a warmup
execution has ended with status `passed`. -/
theorem started_after_passed_warmup (cfg : MatchConfig) (hreq : cfg.warmupRequired = true)
    (row : Option MatchRow) (ls : List (Label MatchRequest MatchInput))
    (l : Label MatchRequest MatchInput)
    (hrun : warmupGate.RunAllowed (MatchRequest.handler cfg) (.boot { row }) (ls ++ [l]))
    (hbefore : ((Machine.boot { row }).run matchSem (MatchRequest.handler cfg) ls).shared.state
      = .notStarted)
    (hafter : ((Machine.boot { row }).run matchSem (MatchRequest.handler cfg)
      (ls ++ [l])).shared.state = .running) :
    0 <
      ((Machine.boot { row }).run matchSem (MatchRequest.handler cfg) ls).shared.passedWarmups := by
  have H := MatchRequest.handles warmupGate_rules (.inl hreq)
  have hstart : warmupGate.inv { row } := nofun
  exact (Contract.guar_step H hstart hrun).2 hbefore hafter

/-- The service of a team, as its checker reaches it. -/
def bankingTarget : CheckerTarget :=
  { teamID := 1, teamName := "Alpha", challengeID := 1, challengeName := "banking"
    checkerImage := "checker", target := "10.80.1.1:8080" }

/-- An operator's start request, with a warmup on its way in which the put on the target
succeeds. -/
theorem started_after_passed_warmup_by_operator :
    0 < ((Machine.boot {}).run matchSem (MatchRequest.handler {})
      (.arrive .startMatch ::
        .replicate 12 (.step 0 { targets := [bankingTarget] }))).shared.passedWarmups := by
  refine started_after_passed_warmup {} rfl none _ (.step 0 { targets := [bankingTarget] }) ?_
    (by decide +kernel) (by decide +kernel)
  exact Contract.runAllowed_of_checks (by decide +kernel)

/-- Without the condition the gate fails: a monitor pass on a reached scheduled start starts the
match, and no warmup has been run. -/
theorem started_without_warmup :
    ¬ ∀ (cfg : MatchConfig), cfg.warmupRequired = true → ∀ (row : Option MatchRow)
      (ls : List (Label MatchRequest MatchInput)) (l : Label MatchRequest MatchInput),
      ((Machine.boot { row }).run matchSem (MatchRequest.handler cfg) ls).shared.state
        = .notStarted →
      ((Machine.boot { row }).run matchSem (MatchRequest.handler cfg) (ls ++ [l])).shared.state
        = .running →
      0 < ((Machine.boot { row }).run matchSem (MatchRequest.handler cfg) ls).shared.passedWarmups
    := by
  intro h
  have hpassed := h { window := { matchStartAt := some 0 } } rfl none
    [.arrive .monitorPass, .step 0 {}, .step 0 { now := 1 }, .step 0 {}] (.step 0 {}) rfl rfl
  exact absurd hpassed (by decide)

end ADPlatform.GameCore
