import ADPlatform.GameCore.Server

/-! # Rely-guarantee rules for the server's programs

What a contract has to grant so that every program of the server keeps it. A tick is `started` once
`StartNextTick` has answered and `closed` once `CompleteTick` has been tried, a flag is `stored`
once `LookupIssuedFlag` has found it, and an instant is `past` once the clock has shown it; the four
are predicates of the contract's choice that the other threads cannot take back. -/

namespace ADPlatform.GameCore
open Concurrent ServerProc Server

variable {σ : Type} {ι : Type v}

/-- The operations that any program may perform at any time. -/
def ServerOp.Plain : ServerOp → Prop
  | store _ (.startNextTick _) | store _ (.completeTick _) | store _ (.issueFlag _)
  | store _ (.acceptFlagSubmission _) | tickReturned _ => False
  | _ => True

/-- Only a store call changes the store, and only the end of a tick the returned ticks. -/
theorem frame_of_serverSem {sem : StoreSem σ ι} {input : ServerInput ι} {op : ServerOp}
    {s t : ServerShared σ} {r : op.Res} (hop : ∀ ctx o, op ≠ .store ctx o)
    (h : serverSem sem input op s = some (t, r)) :
    t.store = s.store ∧ ((∀ id, op ≠ .tickReturned id) → t.returnedTicks = s.returnedTicks) := by
  cases op with
  | store ctx o => exact absurd rfl (hop ctx o)
  | tickReturned id =>
    cases h
    exact ⟨rfl, fun hid => absurd rfl (hid id)⟩
  | contextCancel ctx err =>
    cases h
    split <;> exact ⟨rfl, fun _ => rfl⟩
  | poolSend | poolReceive =>
    simp only [serverSem, Option.bind_eq_bind, Option.bind_eq_some_iff, Option.pure_def] at h
    obtain ⟨p, -, q, -, h⟩ := h
    cases h
    exact ⟨rfl, fun _ => rfl⟩
  | poolClose | poolResult | poolDone =>
    simp only [serverSem, Option.bind_eq_bind, Option.bind_eq_some_iff, Option.pure_def] at h
    obtain ⟨p, -, h⟩ := h
    cases h
    exact ⟨rfl, fun _ => rfl⟩
  | poolWait =>
    simp only [serverSem, Option.bind_eq_bind, Option.bind_eq_some_iff] at h
    obtain ⟨p, -, h⟩ := h
    split at h <;> cases h
    exact ⟨rfl, fun _ => rfl⟩
  | clock | loadCodec | reloadFlagFormat | executeBatch | contextNew | contextErr | poolNew
  | scheduleScoreboardRecompute | reconcileAccess =>
    cases h
    exact ⟨rfl, fun _ => rfl⟩

/-- What a store has to offer so that the server's code keeps a contract: a rule for each operation
that the argument looks at. -/
structure ServerRules {τ : Type u} (C : Contract τ ι ServerOp ServerOp.Res) (hmac : MAC)
    (started closed : Int → τ → Prop) (stored : String → IssuedFlagRecord → τ → Prop)
    (past : Time → τ → Prop) : Prop where
  plain : ∀ op, op.Plain → C.Keeps op
  clock : ∀ s, C.Meets (Proc.perform .clock) s fun (now : Time) t => past now t
  startNextTick : ∀ ctx now s, C.Meets (Proc.perform (.store ctx (.startNextTick now))) s
    fun (r : Except StoreError GameTickStatus) t => ∀ tick, r = .ok tick → started tick.id t
  completeTick : ∀ ctx tick s, tick.status ≠ .running → started tick.id s →
    C.Meets (Proc.perform (.store ctx (.completeTick tick))) s fun _ t => closed tick.id t
  issueFlag : ∀ ctx tickID codec target createdAt s, started tickID s →
    C.Fine (Proc.perform (.store ctx (.issueFlag (issuedFlag tickID target
      (FlagCodec.issue hmac codec target.teamID target.challengeID tickID tickID) createdAt)))) s
  tickReturned : ∀ tickID s, closed tickID s → C.Fine (Proc.perform (.tickReturned tickID)) s
  lookupIssuedFlag : ∀ ctx flag s, C.Meets (Proc.perform (.store ctx (.lookupIssuedFlag flag))) s
    fun (r : Except StoreError IssuedFlagRecord) t => ∀ f, r = .ok f → stored flag f t
  acceptFlagSubmission : ∀ ctx (x : AcceptedFlagSubmission) f s, stored x.flag f s →
    f.ownerTeamID ≠ x.submittingTeam → x.expiresTick = f.expiresTick → past x.submittedAt s →
    C.Fine (Proc.perform (.store ctx (.acceptFlagSubmission x))) s
  started_rely : ∀ {tickID s t}, C.rely s t → started tickID s → started tickID t
  closed_rely : ∀ {tickID s t}, C.rely s t → closed tickID s → closed tickID t
  stored_rely : ∀ {flag f s t}, C.rely s t → stored flag f s → stored flag f t

/-- The operations that any program may perform, whatever targets it was given. -/
def ServerOp.Free : ServerOp → Prop
  | store _ .listCheckerTargets | store _ (.recordCheckerRun _) => False
  | op => op.Plain

/-- The rules of a contract that looks at the targets of a tick: a target is `known` once
`ListCheckerTargets` has answered it. -/
structure TargetRules {τ : Type u} (C : Contract τ ι ServerOp ServerOp.Res) (hmac : MAC)
    (known : CheckerTarget → τ → Prop) (started closed : Int → τ → Prop)
    (stored : String → IssuedFlagRecord → τ → Prop) (past : Time → τ → Prop) : Prop where
  free : ∀ op, op.Free → C.Keeps op
  clock : ∀ s, C.Meets (Proc.perform .clock) s fun (now : Time) t => past now t
  listCheckerTargets : ∀ ctx s, C.Meets (Proc.perform (.store ctx .listCheckerTargets)) s
    fun (r : Except StoreError (List CheckerTarget)) t =>
      ∀ targets, r = .ok targets → ∀ target ∈ targets, known target t
  recordCheckerRun : ∀ ctx tickID target batch halted runTime phase s, known target s →
    C.Fine (Proc.perform (.store ctx
      (.recordCheckerRun (phaseRun tickID target batch halted runTime phase).1))) s
  startNextTick : ∀ ctx now s, C.Meets (Proc.perform (.store ctx (.startNextTick now))) s
    fun (r : Except StoreError GameTickStatus) t => ∀ tick, r = .ok tick → started tick.id t
  completeTick : ∀ ctx tick s, tick.status ≠ .running → started tick.id s →
    C.Meets (Proc.perform (.store ctx (.completeTick tick))) s fun _ t => closed tick.id t
  issueFlag : ∀ ctx tickID codec target createdAt s, known target s → started tickID s →
    C.Fine (Proc.perform (.store ctx (.issueFlag (issuedFlag tickID target
      (FlagCodec.issue hmac codec target.teamID target.challengeID tickID tickID) createdAt)))) s
  tickReturned : ∀ tickID s, closed tickID s → C.Fine (Proc.perform (.tickReturned tickID)) s
  lookupIssuedFlag : ∀ ctx flag s, C.Meets (Proc.perform (.store ctx (.lookupIssuedFlag flag))) s
    fun (r : Except StoreError IssuedFlagRecord) t => ∀ f, r = .ok f → stored flag f t
  acceptFlagSubmission : ∀ ctx (x : AcceptedFlagSubmission) f s, stored x.flag f s →
    f.ownerTeamID ≠ x.submittingTeam → x.expiresTick = f.expiresTick → past x.submittedAt s →
    C.Fine (Proc.perform (.store ctx (.acceptFlagSubmission x))) s
  known_rely : ∀ {target s t}, C.rely s t → known target s → known target t
  started_rely : ∀ {tickID s t}, C.rely s t → started tickID s → started tickID t
  closed_rely : ∀ {tickID s t}, C.rely s t → closed tickID s → closed tickID t
  stored_rely : ∀ {flag f s t}, C.rely s t → stored flag f s → stored flag f t

variable {τ : Type u} {C : Contract τ ι ServerOp ServerOp.Res} {s : τ}

/-- A contract that lets any program record any run knows every target. -/
theorem ServerRules.targetRules {hmac : MAC} {started closed : Int → τ → Prop}
    {stored : String → IssuedFlagRecord → τ → Prop} {past : Time → τ → Prop}
    (H : ServerRules C hmac started closed stored past) :
    TargetRules C hmac (fun _ _ => True) started closed stored past where
  free op hop := by
    refine H.plain op ?_
    unfold ServerOp.Free at hop
    split at hop
    · exact hop.elim
    · exact hop.elim
    · exact hop
  clock := H.clock
  listCheckerTargets ctx s :=
    Contract.Meets.weaken (Contract.Fine.perform (H.plain (.store ctx .listCheckerTargets) trivial))
      fun _ _ _ _ _ _ _ _ _ => trivial
  recordCheckerRun _ _ _ _ _ _ _ _ _ := Contract.Fine.perform (H.plain _ trivial)
  startNextTick := H.startNextTick
  completeTick := H.completeTick
  issueFlag ctx tickID codec target createdAt s _ := H.issueFlag ctx tickID codec target createdAt s
  tickReturned := H.tickReturned
  lookupIssuedFlag := H.lookupIssuedFlag
  acceptFlagSubmission := H.acceptFlagSubmission
  known_rely _ _ := trivial
  started_rely := H.started_rely
  closed_rely := H.closed_rely
  stored_rely := H.stored_rely

/-- A store call is its operation, up to a panic. -/
theorem store_meets {ctx : Nat} {op : StoreOp} {Q : Except StoreError op.Answer → τ → Prop}
    (h : C.Meets (Proc.perform (.store ctx op)) s Q) : C.Meets (store ctx op) s Q := by
  refine h.bind fun r t ht _ hq => ?_
  match r with
  | .ok _ => exact .pure ht hq
  | .error .panic => exact .abort
  | .error .noRows | .error .tickInProgress | .error .contestNotStarted | .error .contestPaused
  | .error .contestOver | .error .flagNoLongerValid | .error (.failure _) => exact .pure ht hq

theorem mem_rotateCheckerTargets {targets : List CheckerTarget} {tickID : Int}
    {target : CheckerTarget} (h : target ∈ rotateCheckerTargets targets tickID) :
    target ∈ targets := by
  unfold rotateCheckerTargets at h
  split at h
  · exact h
  dsimp only at h
  split at h
  · exact h
  · rcases List.mem_append.mp h with h | h
    · exact List.mem_of_mem_drop h
    · exact List.mem_of_mem_take h

section rules
variable {hmac : MAC} {known : CheckerTarget → τ → Prop} {started closed : Int → τ → Prop}
  {stored : String → IssuedFlagRecord → τ → Prop} {past : Time → τ → Prop}
  (H : TargetRules C hmac known started closed stored past)
include H

theorem plain_fine {op : ServerOp} (hop : op.Free) : C.Fine (Proc.perform op) s :=
  .perform (H.free op hop)

theorem store_fine {ctx : Nat} {op : StoreOp} (hop : (ServerOp.store ctx op).Free) :
    C.Fine (store ctx op) s := store_meets (plain_fine H hop)

theorem withContext_fine {p : Nat → ServerProc α} (hp : ∀ ctx t, C.inv t → C.Fine (p ctx) t) :
    C.Fine (withContext p) s :=
  .bind (plain_fine H trivial) fun ctx t ht _ => hp ctx t ht

theorem serverStatus_fine {cfg : ServerConfig} {ctx : Nat} : C.Fine (matchStatus cfg ctx) s := by
  refine .bind (store_fine H trivial) fun r t ht _ => ?_
  cases r with
  | error => exact .pure ht
  | ok => exact .bind (plain_fine H trivial) fun _ _ hu _ => .pure hu

theorem issueStoredFlag_fine {ctx : Nat} {tickID : Int} {codec : FlagCodec}
    {target : CheckerTarget} {run : CheckerRunRecord} (hs : C.inv s) (hknown : known target s)
    (hstart : started tickID s) :
    C.Fine (issueStoredFlag ctx tickID target
      (codec.issue hmac target.teamID target.challengeID tickID tickID) run) s :=
  .ite (fun _ => store_meets (H.issueFlag ctx tickID codec target run.checkedAt s hknown hstart))
    fun _ => .pure hs

/-- The phase loop, by induction on the phases that are left. -/
theorem runPhases_fine {ctx : Nat} {tickID : Int} {codec : FlagCodec} {target : CheckerTarget}
    {batch : Except String (List CheckerPhaseResult)} {phases : List String} {halted : Bool}
    {counts : CheckerTargetTickResult} (hs : C.inv s) (hknown : known target s)
    (hstart : started tickID s) :
    C.Fine (runPhases ctx tickID target
      (codec.issue hmac target.teamID target.challengeID tickID tickID) batch phases halted
        counts) s := by
  induction phases generalizing s halted counts with
  | nil => exact .pure hs
  | cons phase phases ih =>
    refine .bind (plain_fine H trivial) fun runTime t ht hr => ?_
    have hrecord := H.recordCheckerRun ctx tickID target batch halted runTime phase t
      (H.known_rely hr hknown)
    refine .bind (store_meets hrecord) fun r u hu hr' => ?_
    have hknown := H.known_rely (C.rely_trans hr hr') hknown
    have hstart := H.started_rely (C.rely_trans hr hr') hstart
    cases r with
    | error => exact .pure hu
    | ok =>
      refine .bind (issueStoredFlag_fine H hu hknown hstart) fun r v hv hr => ?_
      cases r with
      | error => exact .pure hv
      | ok => exact ih hv (H.known_rely hr hknown) (H.started_rely hr hstart)

/-! ### Ticks -/

variable {cfg : ServerConfig} (hcfg : cfg.crypto.hmac = hmac)
include hcfg

theorem runCheckerTarget_fine {ctx : Nat} {tickID : Int} {target : CheckerTarget}
    (hknown : known target s) (hstart : started tickID s) :
    C.Fine (runCheckerTarget cfg ctx tickID target) s := by
  subst hcfg
  refine .bind (plain_fine H trivial) fun codec t _ hr => ?_
  refine .bind (plain_fine H trivial) fun batch u hu hr' => ?_
  have hrely := C.rely_trans hr hr'
  exact runPhases_fine H hu (H.known_rely hrely hknown) (H.started_rely hrely hstart)

omit hcfg in
theorem handIn_fine {pool ctx index : Nat} {r : CheckerTargetTickResult × Option StoreError} :
    C.Fine (handIn pool ctx index r) s :=
  .bind (plain_fine H trivial) fun _ _ ht _ =>
    .ite (fun _ => plain_fine H trivial) fun _ => .pure ht

/-- A worker, by induction on the indices it may still take. -/
theorem worker_fine {pool ctx : Nat} {tickID : Int} {targets : List CheckerTarget} {n : Nat}
    (hknown : ∀ target ∈ targets, known target s) (hstart : started tickID s) :
    C.Fine (worker cfg pool ctx tickID targets n) s := by
  induction n generalizing s with
  | zero => exact (plain_fine H trivial : C.Fine (poolDone pool) s)
  | succ n ih =>
    refine .bind (plain_fine H trivial) fun received t _ hr => ?_
    cases received with
    | none => exact plain_fine H trivial
    | some index =>
      refine .bind (plain_fine H trivial) fun err u _ hr' => ?_
      have hrely := C.rely_trans hr hr'
      have hknown := fun target h => H.known_rely hrely (hknown target h)
      have hstart := H.started_rely hrely hstart
      cases err with
      | some => exact ih hknown hstart
      | none =>
        cases htarget : targets[index]? with
        | none => exact ih hknown hstart
        | some target =>
          have hmem := List.mem_of_getElem? htarget
          refine .bind (runCheckerTarget_fine H hcfg (hknown target hmem) hstart) fun r v _ hr => ?_
          refine .bind (handIn_fine H) fun _ w _ hr' => ?_
          have hrely := C.rely_trans hr hr'
          exact ih (fun target h => H.known_rely hrely (hknown target h))
            (H.started_rely hrely hstart)

omit hcfg in
theorem handOut_fine {pool ctx : Nat} {indices : List Nat} :
    C.Fine (handOut pool ctx indices) s := by
  induction indices generalizing s with
  | nil => exact (plain_fine H trivial : C.Fine (poolClose pool) s)
  | cons index indices ih =>
    refine .bind (plain_fine H trivial) fun err t _ _ => ?_
    cases err with
    | some => exact plain_fine H trivial
    | none => exact .bind (plain_fine H trivial) fun _ _ _ _ => ih

theorem runCheckerTargets_fine {ctx : Nat} {tickID : Int} {targets : List CheckerTarget}
    (hknown : ∀ target ∈ targets, known target s) (hstart : started tickID s) :
    C.Fine (runCheckerTargets cfg ctx tickID targets) s := by
  refine .bind (plain_fine H trivial) fun workerCtx t _ hr => ?_
  refine .bind (plain_fine H trivial) fun pool u hu hr' => ?_
  have hrely := C.rely_trans hr hr'
  have hknown := fun target h => H.known_rely hrely (hknown target h)
  have hstart := H.started_rely hrely hstart
  refine .bind (Contract.Meets.forkAll (fun _ => worker_fine H hcfg hknown hstart) hu trivial) ?_
  intro _ v _ _
  refine .bind (handOut_fine H) fun _ w _ _ => ?_
  refine .bind (plain_fine H trivial) fun r x hx _ => ?_
  rcases r with ⟨results, _ | e⟩ <;> exact .pure hx

omit hcfg in
theorem failTick_meets {ctx : Nat} {tick : GameTickStatus} {e : StoreError}
    (hstart : started tick.id s) : C.Meets (failTick ctx tick e) s fun _ t => closed tick.id t := by
  refine Contract.Meets.bind (plain_fine H trivial) fun completedAt t _ hr _ => ?_
  refine (store_meets (H.completeTick ctx
    { tick with status := .failed, completedAt := _, message := _ } t nofun
    (H.started_rely hr hstart))).bind fun _ u hu _ hclosed => ?_
  exact .pure hu hclosed

omit hcfg in
theorem finishTick_meets {ctx runCtx : Nat} {tick : GameTickStatus} {targets : List CheckerTarget}
    {results : List CheckerTargetTickResult} (hstart : started tick.id s) :
    C.Meets (finishTick cfg ctx runCtx tick targets results) s fun _ t => closed tick.id t := by
  refine Contract.Meets.bind (plain_fine H trivial) fun completedAt t _ hr _ => ?_
  refine Contract.Meets.bind (plain_fine H trivial) fun err u _ hr' _ => ?_
  have hcomplete := H.completeTick ctx (completedTick tick results completedAt targets.length
    cfg.checkerPhases.length (cfg.tickTimeout && err = some .deadlineExceeded)) u
    (by simp [completedTick]) (H.started_rely (C.rely_trans hr hr') hstart)
  refine (store_meets hcomplete).bind fun r v hv _ hclosed => ?_
  cases r with
  | error => exact .pure hv hclosed
  | ok =>
    refine Contract.Meets.bind (store_fine H trivial) fun r w hw hr _ => ?_
    have hclosed := H.closed_rely hr hclosed
    cases r with
    | error => exact .pure hw hclosed
    | ok =>
      refine Contract.Meets.bind (plain_fine H trivial) fun _ x hx hr _ => ?_
      exact .pure hx (H.closed_rely hr hclosed)

/-- However a tick ends, its completion has been tried. -/
theorem runTick_meets {ctx : Nat} {tick : GameTickStatus} (hstart : started tick.id s) :
    C.Meets (runTick cfg ctx tick) s fun _ t => closed tick.id t := by
  refine Contract.Meets.bind (store_meets (H.listCheckerTargets ctx s)) fun r t ht hr hlisted => ?_
  have hstart := H.started_rely hr hstart
  cases r with
  | error => exact failTick_meets H hstart
  | ok targets =>
    have hknown : ∀ target ∈ rotateCheckerTargets targets tick.id, known target t :=
      fun target h => hlisted targets rfl target (mem_rotateCheckerTargets h)
    have hctx : C.Fine (tickContext cfg ctx) t :=
      .ite (fun _ => plain_fine H trivial) fun _ => .pure ht
    refine Contract.Meets.bind hctx fun runCtx u _ hr _ => ?_
    have hknown := fun target h => H.known_rely hr (hknown target h)
    have hstart := H.started_rely hr hstart
    refine Contract.Meets.bind (runCheckerTargets_fine H hcfg hknown hstart) fun r v _ hr _ => ?_
    have hstart := H.started_rely hr hstart
    cases r with
    | error => exact failTick_meets H hstart
    | ok results => exact finishTick_meets H hstart

theorem advanceTick_fine {ctx : Nat} : C.Fine (advanceTick cfg ctx) s := by
  refine .bind (serverStatus_fine H) fun r t ht _ => ?_
  cases r with
  | error => exact .pure ht
  | ok current =>
    cases hstate : notRunning current.state with
    | some => simpa only [hstate] using .pure ht
    | none =>
      simp only [hstate]
      refine .bind (plain_fine H trivial) fun startedAt u _ _ => ?_
      refine Contract.Meets.bind (store_meets (H.startNextTick ctx startedAt u)) ?_
      intro r v hv _ hstart
      cases r with
      | error => exact .pure hv trivial
      | ok tick =>
        refine (runTick_meets H hcfg (hstart tick rfl)).bind fun r w _ _ hclosed => ?_
        refine .bind (H.tickReturned tick.id w hclosed) fun _ x hx _ _ => ?_
        exact .pure hx trivial

/-! ### Submissions -/

omit hcfg

section submissions
variable {ctx : Nat} {teamID currentTick : Int} {attackerName trimmed : String}
  {claims : FlagClaims} {issued : IssuedFlagRecord}

theorem acceptIssued_fine (h : stored trimmed issued s) (howner : issued.ownerTeamID ≠ teamID)
    (hexpires : claims.expiresTick = issued.expiresTick) :
    C.Fine (acceptIssued ctx teamID currentTick attackerName trimmed claims issued) s := by
  refine Contract.Meets.bind (H.clock s) fun submittedAt t _ hr hpast => ?_
  refine .bind (store_meets (H.acceptFlagSubmission ctx _ issued t (H.stored_rely hr h) howner
    hexpires hpast)) fun r u hu _ _ => ?_
  match r with
  | .ok true | .ok false => exact .pure hu trivial
  | .error .flagNoLongerValid => exact .pure hu trivial
  | .error .panic | .error .noRows | .error .tickInProgress | .error .contestNotStarted
  | .error .contestPaused | .error .contestOver | .error (.failure _) => exact .pure hu trivial

theorem submitIssued_fine (h : stored trimmed issued s) (howner : issued.ownerTeamID ≠ teamID)
    (hexpires : claims.expiresTick = issued.expiresTick) :
    C.Fine (submitIssued ctx teamID currentTick attackerName trimmed claims issued) s := by
  refine .bind (store_fine H trivial) fun r t ht hr => ?_
  match r with
  | .error _ => exact .pure ht
  | .ok true => exact .pure ht
  | .ok false => exact acceptIssued_fine H (H.stored_rely hr h) howner hexpires

theorem submitFlag_fine :
    C.Fine (submitFlag cfg ctx teamID currentTick attackerName trimmed) s := by
  refine .bind (plain_fine H trivial) fun codec t ht _ => ?_
  split
  · exact .pure ht
  rename_i claims _
  refine .ite (fun _ => .pure ht) fun hchecks => ?_
  simp only [Bool.or_eq_true, decide_eq_true_eq, not_or] at hchecks
  refine Contract.Meets.bind (store_meets (H.lookupIssuedFlag ctx trimmed t)) ?_
  intro r u hu _ hstored
  cases r with
  | error => exact .pure hu trivial
  | ok issued =>
    refine .ite (fun hclaims => ?_) fun _ => .pure hu trivial
    simp only [matchesClaims, Bool.and_eq_true, decide_eq_true_eq] at hclaims
    obtain ⟨⟨⟨howner, -⟩, -⟩, hexpires⟩ := hclaims
    exact submitIssued_fine H (hstored issued rfl) (howner ▸ hchecks.2) hexpires.symm

/-- The batch loop, by induction on the flags that are left. -/
theorem submitLoop_fine {flags seen : List String} {acceptedAny : Bool}
    {results : List SubmissionVerdict} (hs : C.inv s) :
    C.Fine (submitLoop cfg ctx teamID currentTick attackerName flags seen acceptedAny results)
      s := by
  induction flags generalizing s seen acceptedAny results with
  | nil =>
    refine .ite (fun _ => ?_) fun _ => .pure hs
    exact .bind (plain_fine H trivial) fun _ t ht _ => .pure ht
  | cons flag flags ih =>
    refine .ite (fun _ => ih hs) fun _ => .ite (fun _ => ih hs) fun _ => ?_
    refine .bind (submitFlag_fine H) fun r t ht _ => ?_
    cases r with
    | error => exact .pure ht
    | ok => exact ih ht

theorem submitFlags_fine {flags : List String} : C.Fine (submitFlags cfg ctx teamID flags) s := by
  refine .bind (serverStatus_fine H) fun r t ht _ => ?_
  cases r with
  | error => exact .pure ht
  | ok current =>
    cases hstate : notRunning current.state with
    | some => simpa only [hstate] using .pure ht
    | none =>
      simp only [hstate]
      refine .bind (store_fine H trivial) fun r u hu _ => ?_
      cases r with
      | error => exact .pure hu
      | ok => exact .bind (store_fine H trivial) fun name v hv _ => submitLoop_fine H hv

end submissions

/-- A contract with the rules covers every request. -/
theorem TargetRules.handles (hcfg : cfg.crypto.hmac = hmac) :
    C.Handles (ServerRequest.handler cfg) := by
  intro request s hs
  have hcall : ∀ op, (∀ ctx, (ServerOp.store ctx op).Free) →
      C.Safe (ServerRequest.handler.call op) s := fun op hop =>
    (withContext_fine H fun ctx t _ => store_fine H (hop ctx)).toThread
  have hperform : ∀ op : ServerOp, op.Free →
      C.Safe (Proc.perform op : ServerProc op.Res).toThread s :=
    fun op hop => Contract.Meets.toThread (plain_fine H hop)
  cases request with
  | submitFlags teamID flags =>
    exact (withContext_fine H fun ctx t _ => submitFlags_fine H).toThread
  | advanceTick => exact (withContext_fine H fun ctx t _ => advanceTick_fine H hcfg).toThread
  | reloadFlagFormat | endContext => exact hperform _ trivial
  | startMatch | pauseMatch | resumeMatch | stopMatch | updateMatchSchedule
  | setChallengeMaintenance | setChallengePlayFromTick | reapRunningTicks | recomputeScoreboard =>
    exact hcall _ fun _ => trivial

end rules

theorem ServerRules.handles {hmac : MAC} {started closed : Int → τ → Prop}
    {stored : String → IssuedFlagRecord → τ → Prop} {past : Time → τ → Prop}
    (H : ServerRules C hmac started closed stored past) {cfg : ServerConfig}
    (hcfg : cfg.crypto.hmac = hmac) : C.Handles (ServerRequest.handler cfg) :=
  H.targetRules.handles hcfg

end ADPlatform.GameCore
