import ADPlatform.Lib.Transcript
import ADPlatform.GameCore.SubmissionDeadline

/-! # The verdicts of a batch of flags

`submitFlags` judges a batch flag by flag, and every flag that the store accepts is committed before
the next one is looked at. `BatchRun` says which verdicts and which entries a batch comes to, in any
order among other requests; it splits the entries into one segment for each flag. -/

namespace ADPlatform.GameCore
open Concurrent Text ServerProc Server

/-- A step of the server in a transcript. -/
abbrev ServerEntry (σ : Type) := Entry (ServerShared σ) ServerOp ServerOp.Res

namespace ServerEntry
variable {σ : Type} {ι : Type v}

/-- The store has panicked. -/
def panics : ServerEntry σ → Bool
  | ⟨_, .store _ op, answer, _⟩ =>
    match (answer : Except StoreError op.Answer) with
    | .error .panic => true
    | _ => false
  | _ => false

/-- An operation behind which its thread goes on. -/
def Passes (sem : StoreSem σ ι) (e : ServerEntry σ) : Prop :=
  e.Happens (serverSem sem) ∧ e.panics = false

/-- The store has accepted a flag as new. -/
def accepts : ServerEntry σ → Bool
  | ⟨_, .store _ (.acceptFlagSubmission _), answer, _⟩ =>
    match (answer : Except StoreError Bool) with
    | .ok accepted => accepted
    | .error _ => false
  | _ => false

/-- The step asks for a recompute. -/
def schedules : ServerEntry σ → Bool
  | ⟨_, .scheduleScoreboardRecompute, _, _⟩ => true
  | _ => false

/-- The answer with which the store makes a batch end in an error. -/
def failsBatch : ServerEntry σ → Bool
  | ⟨_, .store _ (.isChallengeInMaintenance _), answer, _⟩ =>
    match (answer : Except StoreError Bool) with
    | .ok _ => false
    | .error _ => true
  | ⟨_, .store _ (.acceptFlagSubmission _), answer, _⟩ =>
    match (answer : Except StoreError Bool) with
    | .ok _ => false
    | .error e => e ≠ .flagNoLongerValid
  | _ => false

/-- The operations with which a batch only reads. -/
def Reads : ServerOp → Prop
  | .clock | .loadCodec | .store _ .matchStatus | .store _ .gameStatus
  | .store _ (.lookupTeamName _) | .store _ (.lookupIssuedFlag _)
  | .store _ (.isChallengeInMaintenance _) => True
  | _ => False

/-- A reading behind which the batch goes on. -/
def Idle (e : ServerEntry σ) : Prop := Reads e.op ∧ e.failsBatch = false

theorem Idle.not_accepts {e : ServerEntry σ} (h : Idle e) : e.accepts = false := by
  obtain ⟨before, op, answer, after⟩ := e
  cases op with
  | store ctx op =>
    cases op with
    | acceptFlagSubmission => exact False.elim h.1
    | _ => rfl
  | _ => rfl

theorem Idle.not_schedules {e : ServerEntry σ} (h : Idle e) : e.schedules = false := by
  obtain ⟨before, op, answer, after⟩ := e
  cases op with
  | scheduleScoreboardRecompute => exact False.elim h.1
  | _ => rfl

/-- Only a store call can make a batch fail. -/
theorem idle_of_reads {e : ServerEntry σ} (h : Reads e.op) (hop : ∀ ctx o, e.op ≠ .store ctx o) :
    Idle e := by
  obtain ⟨before, op, answer, after⟩ := e
  refine ⟨h, ?_⟩
  cases op with
  | store ctx o => exact absurd rfl (hop ctx o)
  | _ => rfl

end ServerEntry

namespace Server
open ServerEntry
variable {σ : Type} {ι : Type v} {sem : StoreSem σ ι} {cfg : ServerConfig} {ctx : Nat}
  {teamID currentTick : Int} {attackerName trimmed : String}

/-! ## One flag -/

/-- What becomes of the answer of `AcceptFlagSubmission`. -/
def verdictOf (trimmed : String) : Except StoreError Bool → Except StoreError SubmissionVerdict
  | .error .flagNoLongerValid => .ok (wrongOrExpired trimmed)
  | .error e => .error e
  | .ok false => .ok (alreadySubmitted trimmed)
  | .ok true => .ok { flag := trimmed, status := .accepted, detail := "flag is correct." }

/-- What a flag that is neither empty nor a repetition comes to, and the entries behind it. -/
inductive FlagRun (teamID : Int) (trimmed : String) :
    Except StoreError SubmissionVerdict → List (ServerEntry σ) → Prop
  | invalid {es : List (ServerEntry σ)} {detail : String} (hes : ∀ e ∈ es, Idle e) :
      FlagRun teamID trimmed (.ok { flag := trimmed, status := .invalid, detail }) es
  | maintenance {es : List (ServerEntry σ)} {ctx : Nat} {challengeID : Int}
      {before after : ServerShared σ} {err : StoreError} (hes : ∀ e ∈ es, Idle e) :
      FlagRun teamID trimmed (.error err)
        (es ++ [⟨before, .store ctx (.isChallengeInMaintenance challengeID), .error err, after⟩])
  | handedIn {es : List (ServerEntry σ)} {ctx : Nat} {x : AcceptedFlagSubmission}
      {before after : ServerShared σ} {answer : Except StoreError Bool} (hes : ∀ e ∈ es, Idle e)
      (hflag : x.flag = trimmed) (hteam : x.submittingTeam = teamID) :
      FlagRun teamID trimmed (verdictOf trimmed answer)
        (es ++ [⟨before, .store ctx (.acceptFlagSubmission x), answer, after⟩])

/-- A store call, as one entry. -/
theorem store_leads {op : StoreOp} {Q : Except StoreError op.Answer → List (ServerEntry σ) → Prop}
    (h : ∀ before answer after, Passes sem ⟨before, .store ctx op, answer, after⟩ →
      Q answer [⟨before, .store ctx op, answer, after⟩]) : Proc.Leads (Passes sem)
        (store ctx op) Q := by
  refine .bind (Q := fun (r : Except StoreError op.Answer) es => r ≠ .error .panic ∧ Q r es)
    (.perform fun before answer after hcan => ⟨?_, h before answer after hcan⟩) ?_
  · rintro rfl
    cases hcan.2
  rintro r es ⟨hr, hQ⟩
  rw [← List.append_nil es] at hQ
  rcases r with e | a
  · cases e with
    | panic => exact absurd rfl hr
    | _ => exact .pure hQ
  · exact .pure hQ

theorem perform_leads (op : ServerOp) (h : Reads op) (hop : ∀ ctx o, op ≠ .store ctx o) :
    Proc.Leads (Passes sem) (Proc.perform op : ServerProc op.Res) fun _ es => ∀ e ∈ es, Idle e := by
  refine .perform fun before answer after _ e he => ?_
  obtain rfl := List.mem_singleton.mp he
  exact idle_of_reads h hop

theorem acceptIssued_leads {claims : FlagClaims} {issued : IssuedFlagRecord} :
    Proc.Leads (Passes sem) (acceptIssued ctx teamID currentTick attackerName trimmed claims issued)
      (FlagRun (σ := σ) teamID trimmed) := by
  refine .bind (perform_leads .clock trivial (by simp)) fun submittedAt es hes => ?_
  refine .bind (Q := fun (r : Except StoreError Bool) es' =>
    FlagRun teamID trimmed (verdictOf trimmed r) (es ++ es'))
    (store_leads fun before answer after _ => .handedIn hes rfl rfl) ?_
  intro r es' hrun
  rcases r with e | accepted
  · cases e <;> exact .pure (by rw [List.append_nil]; exact hrun)
  · cases accepted <;> exact .pure (by rw [List.append_nil]; exact hrun)

theorem FlagRun.append {r : Except StoreError SubmissionVerdict} {es es' : List (ServerEntry σ)}
    (h : FlagRun teamID trimmed r es') (hes : ∀ e ∈ es, Idle e) :
    FlagRun teamID trimmed r (es ++ es') := by
  have happend : ∀ {es' : List (ServerEntry σ)}, (∀ e ∈ es', Idle e) → ∀ e ∈ es ++ es', Idle e :=
    fun hes' => List.forall_mem_append.mpr ⟨hes, hes'⟩
  cases h with
  | invalid hes' => exact .invalid (happend hes')
  | maintenance hes' =>
    rw [← List.append_assoc]
    exact .maintenance (happend hes')
  | handedIn hes' hflag hteam =>
    rw [← List.append_assoc]
    exact .handedIn (happend hes') hflag hteam

theorem submitIssued_leads {claims : FlagClaims} {issued : IssuedFlagRecord} :
    Proc.Leads (Passes sem) (submitIssued ctx teamID currentTick attackerName trimmed claims issued)
      (FlagRun (σ := σ) teamID trimmed) := by
  refine .bind (Q := fun (r : Except StoreError Bool) es =>
    ∃ before after, es =
      [⟨before, .store ctx (.isChallengeInMaintenance issued.challengeID), r, after⟩])
    (store_leads fun before answer after _ => ⟨before, after, rfl⟩) ?_
  rintro r _ ⟨before, after, rfl⟩
  rcases r with e | maintenance
  · have hnone : ∀ e ∈ ([] : List (ServerEntry σ)), Idle e := by simp
    exact .pure (.maintenance hnone)
  have hidle : ∀ e ∈ [(⟨before, .store ctx (.isChallengeInMaintenance issued.challengeID),
      Except.ok maintenance, after⟩ : ServerEntry σ)], Idle e := by
    intro e he
    obtain rfl := List.mem_singleton.mp he
    exact ⟨trivial, rfl⟩
  cases maintenance with
  | true => exact .pure (.invalid hidle)
  | false => exact acceptIssued_leads.weaken fun r es h => h.append hidle

/-- Every way through `submitFlag`. -/
theorem submitFlag_leads :
    Proc.Leads (Passes sem) (submitFlag cfg ctx teamID currentTick attackerName trimmed)
    (FlagRun (σ := σ) teamID trimmed) := by
  refine .bind (perform_leads .loadCodec trivial (by simp)) fun codec es hes => ?_
  have hinvalid : FlagRun teamID trimmed (.ok (wrongOrExpired trimmed)) (es ++ []) := by
    rw [List.append_nil]
    exact .invalid hes
  cases codec.parse cfg.crypto.hmac trimmed with
  | none => exact .pure hinvalid
  | some claims =>
    refine .ite (fun _ => .pure hinvalid) fun _ => ?_
    refine .bind (Q := fun (r : Except StoreError IssuedFlagRecord) es' => ∀ e ∈ es', Idle e)
      (store_leads fun before answer after _ e he => ?_) fun r es' hes' => ?_
    · obtain rfl := List.mem_singleton.mp he
      exact ⟨trivial, rfl⟩
    have hall : ∀ e ∈ es ++ es', Idle e := List.forall_mem_append.mpr ⟨hes, hes'⟩
    have hrejected : FlagRun teamID trimmed (.ok (wrongOrExpired trimmed)) (es ++ (es' ++ [])) := by
      rw [List.append_nil]
      exact .invalid hall
    rcases r with e | issued
    · exact .pure hrejected
    · refine .ite (fun _ => ?_) fun _ => .pure hrejected
      refine submitIssued_leads.weaken fun r es'' h => ?_
      rw [← List.append_assoc]
      exact h.append hall

/-! ## The whole batch -/

/-- What a batch comes to, behind the flags seen. There is one segment for each flag looked at. -/
inductive BatchRun (teamID : Int) : List String → List String →
    Except StoreError (List SubmissionVerdict) → List (List (ServerEntry σ)) → Prop
  | nil {seen : List String} : BatchRun teamID seen [] (.ok []) []
  | empty {seen flags : List String} {flag : String}
      {r : Except StoreError (List SubmissionVerdict)}
      {segments : List (List (ServerEntry σ))} (hempty : trimSpace flag = "")
      (hrest : BatchRun teamID seen flags r segments) :
      BatchRun teamID seen (flag :: flags) (r.map (wrongOrExpired flag :: ·)) ([] :: segments)
  | repeated {seen flags : List String} {flag : String}
      {r : Except StoreError (List SubmissionVerdict)} {segments : List (List (ServerEntry σ))}
      (hflag : trimSpace flag ≠ "") (hseen : trimSpace flag ∈ seen)
      (hrest : BatchRun teamID seen flags r segments) :
      BatchRun teamID seen (flag :: flags) (r.map (alreadySubmitted (trimSpace flag) :: ·))
        ([] :: segments)
  | failed {seen flags : List String} {flag : String} {e : StoreError} {es : List (ServerEntry σ)}
      (hrun : FlagRun teamID (trimSpace flag) (.error e) es) :
      BatchRun teamID seen (flag :: flags) (.error e) [es]
  | judged {seen flags : List String} {flag : String} {verdict : SubmissionVerdict}
      {es : List (ServerEntry σ)} {r : Except StoreError (List SubmissionVerdict)}
      {segments : List (List (ServerEntry σ))}
      (hflag : trimSpace flag ≠ "") (hseen : trimSpace flag ∉ seen)
      (hrun : FlagRun teamID (trimSpace flag) (.ok verdict) es)
      (hrest : BatchRun teamID (trimSpace flag :: seen) flags r segments) :
      BatchRun teamID seen (flag :: flags) (r.map (verdict :: ·)) (es :: segments)

/-- A batch with an accepted flag ends by scheduling a recompute, unless it ends in an error. -/
def Closes (acceptedAny : Bool) (r : Except StoreError (List SubmissionVerdict))
    (closing : List (ServerEntry σ)) : Prop :=
  match r with
  | .error _ => closing = []
  | .ok verdicts =>
    if acceptedAny || verdicts.any (·.status = .accepted) then
      ∃ e, closing = [e] ∧ e.op = .scheduleScoreboardRecompute
    else closing = []

theorem Closes.cons {acceptedAny : Bool} {verdict : SubmissionVerdict}
    {r : Except StoreError (List SubmissionVerdict)} {closing : List (ServerEntry σ)}
    (h : Closes (acceptedAny || verdict.status = .accepted) r closing) :
    Closes acceptedAny (r.map (verdict :: ·)) closing := by
  cases r with
  | error e => exact h
  | ok verdicts =>
    rw [Except.map, Closes, List.any_cons, ← Bool.or_assoc]
    exact h

theorem Closes.cons_of_ne {acceptedAny : Bool} {verdict : SubmissionVerdict}
    {r : Except StoreError (List SubmissionVerdict)} {closing : List (ServerEntry σ)}
    (h : Closes acceptedAny r closing) (hverdict : verdict.status ≠ .accepted) :
    Closes acceptedAny (r.map (verdict :: ·)) closing := by
  refine .cons ?_
  rwa [decide_eq_false hverdict, Bool.or_false]

/-- The loop, by induction on the flags that are left. -/
theorem submitLoop_leads {flags seen : List String} {acceptedAny : Bool}
    {results : List SubmissionVerdict} :
    Proc.Leads (Passes sem)
      (submitLoop cfg ctx teamID currentTick attackerName flags seen acceptedAny results)
      fun r es => ∃ (r' : Except StoreError (List SubmissionVerdict))
        (segments : List (List (ServerEntry σ))) (closing : List (ServerEntry σ)),
        r = r'.map (results ++ ·) ∧ BatchRun teamID seen flags r' segments ∧
          es = segments.flatten ++ closing ∧ Closes acceptedAny r' closing := by
  induction flags generalizing seen acceptedAny results with
  | nil =>
    have hresults :
        (Except.ok results : Except StoreError _) = (Except.ok []).map (results ++ ·) := by
      rw [Except.map, List.append_nil]
    refine .ite (fun hany => ?_) fun hany => ?_
    · refine .bind (Q := fun _ es => ∃ e, es = [e] ∧ e.op = .scheduleScoreboardRecompute)
        (.perform fun before answer after _ => ⟨_, rfl, rfl⟩) ?_
      rintro _ _ ⟨e, rfl, he⟩
      exact .pure ⟨_, [], _, hresults, .nil, rfl, by rw [hany]; exact ⟨e, rfl, he⟩⟩
    · rw [Bool.not_eq_true] at hany
      exact .pure ⟨_, [], [], hresults, .nil, rfl, by rw [hany]; rfl⟩
  | cons flag flags ih =>
    -- the verdict of the flag goes to the front of those of the rest
    have hresults :
        ∀ (verdict : SubmissionVerdict) (r : Except StoreError (List SubmissionVerdict)),
        r.map (results ++ [verdict] ++ ·) = (r.map (verdict :: ·)).map (results ++ ·) := by
      intro verdict r
      cases r with
      | error => rfl
      | ok verdicts => rw [Except.map, Except.map, Except.map, List.append_assoc]; rfl
    refine .ite (fun hempty => ?_) fun hflag => .ite (fun hseen => ?_) fun hseen => ?_
    · refine ih.weaken ?_
      rintro _ _ ⟨r', segments, closing, rfl, hrun, rfl, hclosing⟩
      exact ⟨_, _, closing, hresults _ r', .empty hempty hrun, rfl,
        hclosing.cons_of_ne (by simp [wrongOrExpired])⟩
    · refine ih.weaken ?_
      rintro _ _ ⟨r', segments, closing, rfl, hrun, rfl, hclosing⟩
      exact ⟨_, _, closing, hresults _ r', .repeated hflag hseen hrun, rfl,
        hclosing.cons_of_ne (by simp [alreadySubmitted])⟩
    · refine .bind submitFlag_leads fun r es hrun => ?_
      cases r with
      | error e =>
        refine .pure ⟨.error e, [es], [], rfl, .failed hrun, ?_, rfl⟩
        rw [List.flatten_singleton]
      | ok verdict =>
        refine ih.weaken ?_
        rintro _ _ ⟨r', segments, closing, rfl, hrest, rfl, hclosing⟩
        refine ⟨_, es :: segments, closing, hresults _ r', .judged hflag hseen hrun hrest, ?_,
          .cons hclosing⟩
        rw [List.flatten_cons, List.append_assoc]

theorem matchStatus_leads : Proc.Leads (Passes sem) (matchStatus cfg ctx)
    fun _ (es : List (ServerEntry σ)) => ∀ e ∈ es, Idle e := by
  refine .bind (Q := fun (r : Except StoreError GameMatchStatus) es => ∀ e ∈ es, Idle e)
    (store_leads fun before answer after _ e he => ?_) fun r es hes => ?_
  · obtain rfl := List.mem_singleton.mp he
    exact ⟨trivial, rfl⟩
  rcases r with e | status
  · exact .pure (by rwa [List.append_nil])
  · refine .bind (perform_leads .clock trivial (by simp)) fun now es' hes' => .pure ?_
    rw [List.append_nil]
    exact List.forall_mem_append.mpr ⟨hes, hes'⟩

/-- A whole batch: it is turned away before the first flag, or judged flag by flag. -/
theorem submitFlags_leads {flags : List String} :
    Proc.Leads (Passes sem) (submitFlags cfg ctx teamID flags) fun r es =>
      ((∃ e, r = .error e) ∧ ∀ e ∈ es, Idle e) ∨
      ∃ (opening closing : List (ServerEntry σ)) (segments : List (List (ServerEntry σ))),
        es = opening ++ (segments.flatten ++ closing) ∧ (∀ e ∈ opening, Idle e) ∧
          BatchRun teamID [] flags r segments ∧ Closes false r closing := by
  refine .bind matchStatus_leads fun r es hes => ?_
  have hturned : ∀ e ∈ es ++ [], Idle e := by rwa [List.append_nil]
  rcases r with e | current
  · exact .pure (.inl ⟨⟨e, rfl⟩, hturned⟩)
  dsimp only
  cases notRunning current.state with
  | some e => exact .pure (.inl ⟨⟨e, rfl⟩, hturned⟩)
  | none =>
    have hread : ∀ {op : StoreOp}, (∀ (r : Except StoreError op.Answer) before after,
        Idle (⟨before, .store ctx op, r, after⟩ : ServerEntry σ)) →
        Proc.Leads (Passes sem) (store ctx op) fun _ es => ∀ e ∈ es, Idle e := by
      refine fun hop => store_leads fun before answer after _ e he => ?_
      rw [List.mem_singleton.mp he]
      exact hop answer before after
    refine .bind (hread fun _ _ _ => ⟨trivial, rfl⟩) fun r es₁ hes₁ => ?_
    have hboth := List.forall_mem_append.mpr ⟨hes, hes₁⟩
    rcases r with e | status
    · exact .pure (.inl ⟨⟨e, rfl⟩, by rwa [List.append_nil]⟩)
    refine .bind (hread fun _ _ _ => ⟨trivial, rfl⟩) fun name es₂ hes₂ => ?_
    refine submitLoop_leads.weaken ?_
    rintro _ _ ⟨r', segments, closing, rfl, hrun, rfl, hclosing⟩
    have hr' : r'.map ([] ++ ·) = r' := by cases r' <;> rfl
    rw [hr']
    refine .inr ⟨es ++ es₁ ++ es₂, closing, segments, by simp only [List.append_assoc], ?_, hrun,
      hclosing⟩
    exact List.forall_mem_append.mpr ⟨hboth, hes₂⟩

/-! ## Acceptances and failures of a batch -/

theorem FlagRun.not_schedules {r : Except StoreError SubmissionVerdict} {es : List (ServerEntry σ)}
    (h : FlagRun teamID trimmed r es) : ∀ e ∈ es, e.schedules = false := by
  have hidle : ∀ {es : List (ServerEntry σ)} {e : ServerEntry σ}, (∀ e ∈ es, Idle e) →
      e.schedules = false → ∀ e' ∈ es ++ [e], e'.schedules = false := by
    refine fun hes he => List.forall_mem_append.mpr ⟨fun e h => (hes e h).not_schedules, ?_⟩
    exact List.forall_mem_singleton.mpr he
  cases h with
  | invalid hes => exact fun e he => (hes e he).not_schedules
  | maintenance hes => exact hidle hes rfl
  | handedIn hes => exact hidle hes rfl

/-- A flag with a verdict: the batch goes on, and the verdict tells whether the store accepted
it. -/
theorem FlagRun.ok {verdict : SubmissionVerdict} {es : List (ServerEntry σ)}
    (h : FlagRun teamID trimmed (.ok verdict) es) : (∀ e ∈ es, e.failsBatch = false) ∧
      (verdict.status = .accepted ↔ ∃ e ∈ es, e.accepts = true) := by
  generalize hr : (Except.ok verdict : Except StoreError SubmissionVerdict) = r at h
  cases h with
  | invalid hes =>
    cases hr
    refine ⟨fun e he => (hes e he).2, iff_of_false (by simp) ?_⟩
    rintro ⟨e, he, haccepts⟩
    exact absurd haccepts (by rw [(hes e he).not_accepts]; simp)
  | maintenance => cases hr
  | @handedIn es ctx x before after answer hes =>
    -- the verdict is that of the answer, and the other entries are idle
    have hanswer :
        (ServerEntry.failsBatch ⟨before, .store ctx (.acceptFlagSubmission x), answer, after⟩
          = false) ∧ (verdict.status = .accepted ↔
        ServerEntry.accepts ⟨before, .store ctx (.acceptFlagSubmission x), answer,
          after⟩ = true) := by
      rcases (answer : Except StoreError Bool) with e | accepted
      · cases e with
        | flagNoLongerValid =>
          cases hr
          exact ⟨rfl, by simp [accepts, wrongOrExpired]⟩
        | _ => cases hr
      · cases accepted with
        | false =>
          cases hr
          exact ⟨rfl, by simp [accepts, alreadySubmitted]⟩
        | true =>
          cases hr
          exact ⟨rfl, by simp [accepts]⟩
    refine ⟨List.forall_mem_append.mpr ⟨fun e he => (hes e he).2,
      List.forall_mem_singleton.mpr hanswer.1⟩, hanswer.2.trans ⟨fun h => ?_, ?_⟩⟩
    · exact ⟨_, List.mem_append_right _ (.head _), h⟩
    · rintro ⟨e, he, haccepts⟩
      rcases List.mem_append.mp he with he | he
      · exact absurd haccepts (by rw [(hes e he).not_accepts]; simp)
      · rwa [List.mem_singleton.mp he] at haccepts

/-- A flag at which the batch ends: its last entry is the one that failed. -/
theorem FlagRun.error {err : StoreError} {es : List (ServerEntry σ)}
    (h : FlagRun teamID trimmed (.error err) es) : ∃ es' e, es = es' ++ [e] ∧
      e.failsBatch = true ∧ e.accepts = false ∧ ∀ a ∈ es', Idle a := by
  generalize hr : (Except.error err : Except StoreError SubmissionVerdict) = r at h
  cases h with
  | invalid => cases hr
  | @maintenance es _ _ _ _ _ hes => exact ⟨es, _, rfl, rfl, rfl, hes⟩
  | @handedIn es ctx x before after answer hes =>
    refine ⟨es, _, rfl, ?_, ?_, hes⟩ <;> rcases (answer : Except StoreError Bool) with e | accepted
    · cases e with
      | flagNoLongerValid => cases hr
      | _ => rfl
    · cases accepted <;> cases hr
    · rfl
    · cases accepted <;> cases hr

section Batch
variable {seen flags : List String} {r : Except StoreError (List SubmissionVerdict)}
  {segments : List (List (ServerEntry σ))}

theorem BatchRun.not_schedules (h : BatchRun teamID seen flags r segments) :
    ∀ e ∈ segments.flatten, e.schedules = false := by
  induction h with
  | nil => simp
  | empty _ _ ih | repeated _ _ _ ih => exact ih
  | failed hrun =>
    rw [List.flatten_singleton]
    exact hrun.not_schedules
  | judged _ _ hrun _ ih =>
    rw [List.flatten_cons]
    exact List.forall_mem_append.mpr ⟨hrun.not_schedules, ih⟩

/-- A batch with verdicts: no call fails it, and one verdict tells of each acceptance. -/
theorem BatchRun.ok {verdicts : List SubmissionVerdict}
    (h : BatchRun teamID seen flags (.ok verdicts) segments) :
    (∀ e ∈ segments.flatten, e.failsBatch = false) ∧
      ((∃ verdict ∈ verdicts, verdict.status = .accepted) ↔
        ∃ e ∈ segments.flatten, e.accepts = true) := by
  generalize hr : (Except.ok verdicts : Except StoreError (List SubmissionVerdict)) = r at h
  induction h generalizing verdicts with
  | nil =>
    cases hr
    simp
  | @empty _ _ _ r _ _ _ ih | @repeated _ _ _ r _ _ _ _ ih =>
    cases r with
    | error => cases hr
    | ok rest =>
      cases hr
      obtain ⟨hfails, haccepts⟩ := ih rfl
      refine ⟨hfails, Iff.trans ?_ haccepts⟩
      simp [wrongOrExpired, alreadySubmitted]
  | failed => cases hr
  | @judged _ _ _ verdict es r _ _ _ hrun _ ih =>
    cases r with
    | error => cases hr
    | ok rest =>
      cases hr
      obtain ⟨hfails, haccepts⟩ := ih rfl
      obtain ⟨hfails', haccepts'⟩ := hrun.ok
      rw [List.flatten_cons]
      refine ⟨List.forall_mem_append.mpr ⟨hfails', hfails⟩, ?_⟩
      simp only [List.mem_cons, or_and_right, exists_or, exists_eq_left, haccepts, haccepts',
        List.mem_append]

/-- A batch that ends in an error: its last entry is the first that failed. -/
theorem BatchRun.error {err : StoreError} (h : BatchRun teamID seen flags (.error err) segments) :
    ∃ es e, segments.flatten = es ++ [e] ∧ e.failsBatch = true ∧ e.accepts = false ∧
      ∀ a ∈ es, a.failsBatch = false := by
  generalize hr : (Except.error err : Except StoreError (List SubmissionVerdict)) = r at h
  induction h with
  | nil => cases hr
  | @empty _ _ _ r _ _ _ ih | @repeated _ _ _ r _ _ _ _ ih =>
    cases r with
    | error => exact ih hr
    | ok => cases hr
  | failed hrun =>
    obtain ⟨es, e, rfl, hfails, haccepts, hes⟩ := hrun.error
    exact ⟨es, e, List.flatten_singleton, hfails, haccepts, fun a ha => (hes a ha).2⟩
  | @judged _ _ _ verdict es r segments _ _ hrun _ ih =>
    cases r with
    | ok => cases hr
    | error =>
      obtain ⟨es', e, hsegments, hfails, haccepts, hes'⟩ := ih hr
      refine ⟨es ++ es', e, ?_, hfails, haccepts, List.forall_mem_append.mpr ⟨hrun.ok.1, hes'⟩⟩
      rw [List.flatten_cons, hsegments, List.append_assoc]

end Batch

theorem schedules_of_op {e : ServerEntry σ} (h : e.op = .scheduleScoreboardRecompute) :
    e.schedules = true ∧ e.accepts = false ∧ e.failsBatch = false := by
  obtain ⟨before, op, answer, after⟩ := e
  subst h
  exact ⟨rfl, rfl, rfl⟩

/-- A batch with verdicts schedules a recompute behind an acceptance, and no call has failed it. -/
theorem BatchRun.scheduled {flags : List String} {verdicts : List SubmissionVerdict}
    {segments : List (List (ServerEntry σ))} {opening closing : List (ServerEntry σ)}
    (hopening : ∀ e ∈ opening, Idle e) (hrun : BatchRun teamID [] flags (.ok verdicts) segments)
    (hclosing : Closes false (.ok verdicts) closing) :
    (∀ e ∈ opening ++ (segments.flatten ++ closing), e.failsBatch = false) ∧
      ((∃ e ∈ opening ++ (segments.flatten ++ closing), e.accepts = true) →
        ∃ e ∈ opening ++ (segments.flatten ++ closing), e.schedules = true) := by
  obtain ⟨hfails, haccepts⟩ := hrun.ok
  rw [Closes, Bool.false_or] at hclosing
  split at hclosing
  · obtain ⟨e, rfl, hop⟩ := hclosing
    obtain ⟨hschedules, -, hfails'⟩ := schedules_of_op hop
    refine ⟨List.forall_mem_append.mpr ⟨fun a ha => (hopening a ha).2,
      List.forall_mem_append.mpr ⟨hfails, List.forall_mem_singleton.mpr hfails'⟩⟩, fun _ => ?_⟩
    exact ⟨e, List.mem_append_right _ (List.mem_append_right _ (.head _)), hschedules⟩
  · rename_i hnone
    rw [hclosing, List.append_nil]
    refine ⟨List.forall_mem_append.mpr ⟨fun a ha => (hopening a ha).2, hfails⟩, ?_⟩
    rintro ⟨a, ha, haccept⟩
    rcases List.mem_append.mp ha with ha | ha
    · exact absurd haccept (by rw [(hopening a ha).not_accepts]; simp)
    · obtain ⟨verdict, hverdict, haccepted⟩ := haccepts.mpr ⟨a, ha, haccept⟩
      exact absurd (List.any_eq_true.mpr ⟨verdict, hverdict, decide_eq_true haccepted⟩) hnone

/-- A batch in which a flag is accepted schedules a recompute exactly when, behind the first
accepted flag, the store fails neither a look at the maintenance of a challenge nor an
acceptance. -/
theorem recompute_scheduled_iff (sem : StoreSem σ ι) (cfg : ServerConfig) (ctx : Nat) (teamID : Int)
    (flags : List String) :
    (submitFlags cfg ctx teamID flags).Returns (Passes sem) fun _ (es : List (ServerEntry σ)) =>
      ((∃ e ∈ es, accepts e = true) → ∃ e ∈ es, schedules e = true) ↔
        es.Pairwise fun a b => accepts a = true → failsBatch b = false := by
  have : Nonempty ServerOp := ⟨.clock⟩
  refine (submitFlags_leads.weaken ?_).returns
  rintro r es (⟨-, hes⟩ | ⟨opening, closing, segments, rfl, hopening, hrun, hclosing⟩)
  · -- nothing is accepted and nothing fails
    refine iff_of_true ?_ (List.pairwise_of_forall_mem_list fun a _ b hb _ => (hes b hb).2)
    rintro ⟨e, he, haccepts⟩
    exact absurd haccepts (by rw [(hes e he).not_accepts]; simp)
  cases r with
  | ok verdicts =>
    obtain ⟨hfails, hscheduled⟩ := hrun.scheduled hopening hclosing
    exact iff_of_true hscheduled (List.pairwise_of_forall_mem_list fun _ _ b hb _ => hfails b hb)
  | error err =>
    -- nothing is scheduled, and the last entry is the failure
    obtain rfl : closing = [] := hclosing
    have hnone : ∀ e ∈ opening ++ (segments.flatten ++ []), e.schedules = false := by
      rw [List.append_nil]
      exact List.forall_mem_append.mpr ⟨fun e he =>
        (hopening e he).not_schedules, hrun.not_schedules⟩
    obtain ⟨es, e, hsegments, hfails, haccepts, -⟩ := hrun.error
    rw [List.append_nil, hsegments, ← List.append_assoc] at hnone ⊢
    refine ⟨fun h => List.pairwise_of_forall_mem_list fun a ha b _ haccept => ?_, ?_⟩
    · obtain ⟨e', he', hschedules⟩ := h ⟨a, ha, haccept⟩
      exact absurd hschedules (by rw [hnone e' he']; simp)
    · rintro h ⟨a, ha, haccept⟩
      rcases List.mem_append.mp ha with ha | ha
      · have hlast := (List.pairwise_append.mp h).2.2 a ha e (.head _) haccept
        rw [hfails] at hlast
        cases hlast
      · rw [List.mem_singleton.mp ha, haccepts] at haccept
        cases haccept

/-! ### A batch that ends in an error behind an accepted flag -/

/-- The flags of the second team for its two services in the first tick. -/
def serviceFlag (challengeID : Int) : String :=
  plainCodec.issue plainConfig.crypto.hmac 2 challengeID 1 1

/-- A running match in its first tick. -/
def firstTick : SubmissionTables ℚ where
  db := { teams := [{ id := 1, name := "Alpha" }, { id := 2, name := "Delta" }]
          challenges := [{ id := 1, name := "banking" }, { id := 2, name := "notes" }]
          gameTicks := { ticks := [{ id := 1, status := .running }] } }
  row := some { state := .running }

/-- What the tables of the first tick answer to readings. -/
def firstTickAnswer : (op : StoreOp) → Except StoreError op.Answer
  | .matchStatus => .ok { state := .running }
  | .gameStatus => .ok
      { matchStatus := { state := .running }, currentTick := some { id := 1, status := .running }
        totalTicks := 1, totalCheckerRuns := 0, successfulCheckerRuns := 0, failedCheckerRuns := 0
        skippedCheckerRuns := 0 }
  | .lookupTeamName _ => .ok "Alpha"
  | .lookupIssuedFlag flag =>
    .ok { IssuedFlagRecord.zero with flag, ownerTeamID := 2, issuedTick := 1, expiresTick := 1
                                     challengeID := if flag = serviceFlag 1 then 1 else 2 }
  | .isChallengeInMaintenance _ => .ok false
  | _ => .error .noRows

/-- The connection is lost at the second look at the maintenance of a challenge. -/
def lostConnection : List (ServerInput (SubmissionTablesInput ℚ)) :=
  .replicate 11 { store := { answer := firstTickAnswer, next := firstTick } } ++
    [{ store := { fault := some (.failure "driver: bad connection"), answer := firstTickAnswer
                  next := firstTick } }]

/-- A batch of two flags up to the lost connection. -/
def lostTranscript : List (ServerEntry (SubmissionTables ℚ)) × Thread ServerOp ServerOp.Res :=
  (submitFlags plainConfig 0 1 [serviceFlag 1, serviceFlag 2]).toThread.alone
    (serverSem (SubmissionTables.sem plainConfig.crypto)) lostConnection
    { store := firstTick, codec := plainCodec }

/-- The first flag of a batch is accepted and the second ends the batch, before the recompute. -/
theorem recompute_not_scheduled :
    ¬ ∀ (σ ι : Type) (sem : StoreSem σ ι) (cfg : ServerConfig) (ctx : Nat) (teamID : Int)
      (flags : List String),
      (submitFlags cfg ctx teamID flags).Returns (Passes sem) fun _ (es : List (ServerEntry σ)) =>
        (∃ e ∈ es, accepts e = true) → ∃ e ∈ es, schedules e = true := by
  intro h
  have hdone : lostTranscript.2 = .done := Thread.eq_done_of_isDone (by decide +kernel)
  obtain ⟨hpath, hhappens⟩ :
      (submitFlags plainConfig 0 1 [serviceFlag 1, serviceFlag 2]).toThread.Path
        lostTranscript.1 lostTranscript.2 ∧
      ∀ e ∈ lostTranscript.1, e.Happens (serverSem (SubmissionTables.sem plainConfig.crypto)) :=
    Thread.alone_path _
  have hpanics : lostTranscript.1.all (fun e => !panics e) = true := by decide +kernel
  have hpasses : ∀ e ∈ lostTranscript.1, Passes (SubmissionTables.sem plainConfig.crypto) e :=
    fun e he => ⟨hhappens e he, by simpa using List.all_eq_true.mp hpanics e he⟩
  obtain ⟨r, hyields, -⟩ := submitFlags_leads.answers hpasses (hdone ▸ hpath)
  have haccepts : lostTranscript.1.any accepts = true := by decide +kernel
  have hschedules : lostTranscript.1.any schedules = false := by decide +kernel
  have hany := h _ _ _ plainConfig 0 1 [serviceFlag 1, serviceFlag 2] _ r hpasses hyields
    (List.any_eq_true.mp haccepts)
  rw [← List.any_eq_true, hschedules] at hany
  cases hany

end Server
end ADPlatform.GameCore
