import ADPlatform.GameCore.SubmissionBatches

/-! # Verdicts and accepted records

Over the in-memory store, `submitFlags` returns one verdict for each flag of its batch, in order,
and calls a flag accepted exactly when its own call inserted the record of the flag and the team.
The other requests may change the store in any way between two calls of the batch. -/

namespace ADPlatform.GameCore
open Concurrent Text ServerProc Server ServerEntry

variable {K : Type}

namespace MemoryGameStore

/-- The accepted record of a flag and a team. -/
def acceptedRecord (s : MemoryGameStore K) (flag : String) (teamID : Int) :
    Option AcceptedFlagSubmission :=
  s.accepted.lookup (acceptedSubmissionKey flag teamID)

variable [Field K] [LinearOrder K] {rt : Go.Runtime} {M : FaustMath K} {crypto : Crypto}
  {s t : MemoryGameStore K} {x : AcceptedFlagSubmission}

/-- A submission that is answered as new: its record was missing, and it alone is inserted. -/
theorem acceptFlagSubmission_new (h : s.acceptFlagSubmission rt M crypto x = (t, .ok true)) :
    s.acceptedRecord x.flag x.submittingTeam = none ∧
      t.accepted = s.accepted.insert (acceptedSubmissionKey x.flag x.submittingTeam)
        { x with submissionTick := s.currentTick } := by
  unfold acceptFlagSubmission at h
  split at h
  · cases h
  dsimp only at h
  split at h
  · cases h
  rename_i hnew
  split at h
  · rename_i s' rows hrecompute
    obtain rfl : s' = t := (Prod.mk.inj h).1
    exact ⟨Option.not_isSome_iff_eq_none.mp hnew, (recompute_framed rt M hrecompute).accepted⟩
  · cases h

/-- A submission that is answered otherwise changes nothing, unless the call panics. -/
theorem acceptFlagSubmission_same {r : Except StoreError Bool}
    (h : s.acceptFlagSubmission rt M crypto x = (t, r)) (hnew : r ≠ .ok true)
    (hpanic : r ≠ .error .panic) :
    t = s ∧ (r = .ok false → s.acceptedRecord x.flag x.submittingTeam ≠ none) := by
  unfold acceptFlagSubmission at h
  split at h
  · cases h
    exact ⟨rfl, by simp⟩
  dsimp only at h
  split at h
  · rename_i hold
    cases h
    exact ⟨rfl, fun _ => Option.isSome_iff_ne_none.mp hold⟩
  split at h <;> cases h
  · exact absurd rfl hnew
  · exact absurd rfl hpanic

end MemoryGameStore

namespace Server

/-- The entry inserts an accepted record of the flag and the team. -/
def Inserts (teamID : Int) (flag : String) (e : ServerEntry (MemoryGameStore K)) : Prop :=
  e.before.store.acceptedRecord flag teamID = none ∧
    ∃ x, e.after.store.acceptedRecord flag teamID = some x ∧ x.flag = flag ∧
      x.submittingTeam = teamID

theorem not_inserts_of_store_eq {e : ServerEntry (MemoryGameStore K)}
    (h : e.after.store = e.before.store) (team : Int) (flag : String) : ¬Inserts team flag e := by
  rintro ⟨hnone, x, hsome, -⟩
  rw [h, hnone] at hsome
  cases hsome

/-- A verdict on a flag, against the entries behind it and the flags that came earlier. -/
structure FlagJudged (teamID : Int) (earlier : List String) (flag : String)
    (verdict : SubmissionVerdict) (es : List (ServerEntry (MemoryGameStore K))) : Prop where
  flag_eq : verdict.flag = if trimSpace flag = "" then flag else trimSpace flag
  accepted : verdict.status = .accepted ↔ ∃ e ∈ es, Inserts teamID (trimSpace flag) e
  first : verdict.status = .accepted → trimSpace flag ∉ earlier.map trimSpace
  duplicate : verdict.status = .duplicate → trimSpace flag ∈ earlier.map trimSpace ∨
    ∃ e ∈ es, e.before.store.acceptedRecord (trimSpace flag) teamID ≠ none
  only : ∀ e ∈ es, ∀ team text, Inserts team text e → team = teamID ∧ text = trimSpace flag

/-- The verdicts on the flags, one for each and in their order. -/
inductive AllJudged (teamID : Int) : List String → List String → List SubmissionVerdict →
    List (List (ServerEntry (MemoryGameStore K))) → Prop
  | nil {earlier : List String} : AllJudged teamID earlier [] [] []
  | cons {earlier flags : List String} {flag : String} {verdict : SubmissionVerdict}
      {verdicts : List SubmissionVerdict} {es : List (ServerEntry (MemoryGameStore K))}
      {segments : List (List (ServerEntry (MemoryGameStore K)))}
      (hflag : FlagJudged teamID earlier flag verdict es)
      (hrest : AllJudged teamID (earlier ++ [flag]) flags verdicts segments) :
      AllJudged teamID earlier (flag :: flags) (verdict :: verdicts) (es :: segments)

/-- A text is accepted at most once, and not at all behind an earlier flag that trims to it. -/
theorem AllJudged.countP_accepted {teamID : Int} {earlier flags : List String}
    {verdicts : List SubmissionVerdict}
    {segments : List (List (ServerEntry (MemoryGameStore K)))}
    (h : AllJudged teamID earlier flags verdicts segments) (text : String) :
    (flags.zip verdicts).countP (fun p => trimSpace p.1 = text ∧ p.2.status = .accepted) ≤
      if text ∈ earlier.map trimSpace then 0 else 1 := by
  induction h with
  | nil => exact Nat.zero_le _
  | @cons earlier flags flag verdict verdicts es segments hflag _ ih =>
    rw [List.zip_cons_cons, List.countP_cons]
    have hrest : text ∈ (earlier ++ [flag]).map trimSpace ↔
        text ∈ earlier.map trimSpace ∨ text = trimSpace flag := by
      rw [List.map_append, List.mem_append, List.map_singleton, List.mem_singleton]
    by_cases hhere : trimSpace flag = text ∧ verdict.status = .accepted
    · obtain ⟨rfl, haccepted⟩ := hhere
      rw [if_pos (hrest.mpr (.inr rfl))] at ih
      rw [if_neg (hflag.first haccepted), if_pos (decide_eq_true ⟨rfl, haccepted⟩)]
      omega
    · rw [if_neg (by simpa using hhere), Nat.add_zero]
      refine ih.trans ?_
      by_cases hearlier : text ∈ earlier.map trimSpace
      · rw [if_pos (hrest.mpr (.inl hearlier)), if_pos hearlier]
      · rw [if_neg hearlier]
        split <;> omega

variable [Field K] [LinearOrder K] {M : FaustMath K} {crypto : Crypto} {teamID : Int}
  {trimmed : String}

/-- Only a store call that does not read changes the store. -/
theorem store_eq_of_reads {e : ServerEntry (MemoryGameStore K)} (h : Passes (memorySem M crypto) e)
    (hop : Reads e.op ∨ e.op = .scheduleScoreboardRecompute) : e.after.store = e.before.store := by
  obtain ⟨before, op, answer, after⟩ := e
  obtain ⟨⟨input, hsem⟩, -⟩ := h
  dsimp only at hsem hop ⊢
  by_cases hstore : ∃ ctx o, op = .store ctx o
  · obtain ⟨ctx, o, rfl⟩ := hstore
    rw [store_of_serverSem hsem]
    rcases hop with hop | hop
    · cases o <;> first | rfl | exact False.elim hop
    · cases hop
  · exact (frame_of_serverSem (fun ctx o h => hstore ⟨ctx, o, h⟩) hsem).1

theorem acceptFlagSubmission_of_passes {ctx : Nat} {x : AcceptedFlagSubmission}
    {before after : ServerShared (MemoryGameStore K)} {answer : Except StoreError Bool}
    (h : Passes (memorySem M crypto) ⟨before, .store ctx (.acceptFlagSubmission x),
      answer, after⟩) :
    answer ≠ .error .panic ∧
      ∃ rt, before.store.acceptFlagSubmission rt M crypto x = (after.store, answer) := by
  obtain ⟨⟨input, hsem⟩, hpanics⟩ := h
  refine ⟨?_, input.store, ?_⟩
  · rintro rfl
    cases hpanics
  · obtain ⟨hafter, hanswer⟩ := Prod.mk.inj (Option.some.inj hsem)
    exact Prod.ext (congrArg ServerShared.store hafter) hanswer

/-- What the entry of an `AcceptFlagSubmission` says about the accepted records. -/
theorem inserts_iff {ctx : Nat} {x : AcceptedFlagSubmission}
    {before after : ServerShared (MemoryGameStore K)} {answer : Except StoreError Bool}
    (h : Passes (memorySem M crypto) ⟨before, .store ctx (.acceptFlagSubmission x), answer, after⟩)
    (team : Int) (flag : String) :
    Inserts team flag ⟨before, .store ctx (.acceptFlagSubmission x), answer, after⟩ ↔
      answer = .ok true ∧ team = x.submittingTeam ∧ flag = x.flag := by
  obtain ⟨hpanic, rt, hcall⟩ := acceptFlagSubmission_of_passes h
  by_cases hnew : answer = .ok true
  · obtain rfl := hnew
    obtain ⟨hnone, haccepted⟩ := MemoryGameStore.acceptFlagSubmission_new hcall
    refine ⟨?_, ?_⟩
    · rintro ⟨hbefore, y, hafter, -⟩
      have hkey :
          acceptedSubmissionKey flag team = acceptedSubmissionKey x.flag x.submittingTeam := by
        by_contra hne
        dsimp only at hbefore hafter
        rw [MemoryGameStore.acceptedRecord, haccepted, AList.lookup_insert_ne hne] at hafter
        rw [MemoryGameStore.acceptedRecord, hafter] at hbefore
        cases hbefore
      obtain ⟨hflag, hteam⟩ := acceptedSubmissionKey_inj hkey
      exact ⟨rfl, hteam, hflag⟩
    · rintro ⟨-, rfl, rfl⟩
      refine ⟨hnone, { x with submissionTick := before.store.currentTick }, ?_, rfl, rfl⟩
      dsimp only
      rw [MemoryGameStore.acceptedRecord, haccepted, AList.lookup_insert]
  · have hsame := (MemoryGameStore.acceptFlagSubmission_same hcall hnew hpanic).1
    exact iff_of_false (not_inserts_of_store_eq hsame team flag) fun h => hnew h.1

theorem not_inserts_of_idle {e : ServerEntry (MemoryGameStore K)} (h : Idle e)
    (hpass : Passes (memorySem M crypto) e) (team : Int) (flag : String) : ¬Inserts team flag e :=
  not_inserts_of_store_eq (store_eq_of_reads hpass (.inl h.1)) team flag

/-- What the entries of one flag say about its verdict. -/
theorem FlagRun.judged {verdict : SubmissionVerdict} {es : List (ServerEntry (MemoryGameStore K))}
    (h : FlagRun teamID trimmed (.ok verdict) es)
    (hes : ∀ e ∈ es, Passes (memorySem M crypto) e) : verdict.flag = trimmed ∧
      (verdict.status = .accepted ↔ ∃ e ∈ es, Inserts teamID trimmed e) ∧
      (verdict.status = .duplicate → ∃ e ∈ es,
        e.before.store.acceptedRecord trimmed teamID ≠ none) ∧
      ∀ e ∈ es, ∀ team text, Inserts team text e → team = teamID ∧ text = trimmed := by
  generalize hr : (Except.ok verdict : Except StoreError SubmissionVerdict) = r at h
  cases h with
  | invalid hidle =>
    cases hr
    have hnone : ∀ e ∈ es, ∀ team text, ¬Inserts team text e :=
      fun e he => not_inserts_of_idle (hidle e he) (hes e he)
    refine ⟨rfl, iff_of_false (by simp) ?_, by simp, fun e he team text h => ?_⟩
    · rintro ⟨e, he, h⟩
      exact hnone e he _ _ h
    · exact absurd h (hnone e he team text)
  | maintenance => cases hr
  | @handedIn es ctx x before after answer hidle hflag hteam =>
    obtain ⟨hes, hlast⟩ := List.forall_mem_append.mp hes
    have hpass := hlast _ (.head _)
    have hnone : ∀ e ∈ es, ∀ team text, ¬Inserts team text e :=
      fun e he => not_inserts_of_idle (hidle e he) (hes e he)
    have honly : ∀ e ∈ es ++ [⟨before, .store ctx (.acceptFlagSubmission x), answer, after⟩],
        ∀ team text, Inserts team text e → team = teamID ∧ text = trimmed := by
      intro e he team text h
      rcases List.mem_append.mp he with he | he
      · exact absurd h (hnone e he team text)
      · rw [List.mem_singleton.mp he, inserts_iff hpass] at h
        exact ⟨h.2.1.trans hteam, h.2.2.trans hflag⟩
    have hinserts : (∃ e ∈ es ++ [⟨before, .store ctx (.acceptFlagSubmission x), answer, after⟩],
        Inserts teamID trimmed e) ↔ answer = .ok true := by
      refine ⟨?_, fun h => ⟨_, List.mem_append_right _ (.head _), ?_⟩⟩
      · rintro ⟨e, he, h⟩
        rcases List.mem_append.mp he with he | he
        · exact absurd h (hnone e he _ _)
        · rw [List.mem_singleton.mp he, inserts_iff hpass] at h
          exact h.1
      · exact (inserts_iff hpass _ _).mpr ⟨h, hteam.symm, hflag.symm⟩
    rw [hinserts]
    rcases (answer : Except StoreError Bool) with e | accepted
    · cases e with
      | flagNoLongerValid =>
        cases hr
        exact ⟨rfl, by simp [wrongOrExpired], by simp [wrongOrExpired], honly⟩
      | _ => cases hr
    · cases accepted with
      | true =>
        cases hr
        exact ⟨rfl, by simp, by simp, honly⟩
      | false =>
        cases hr
        refine ⟨rfl, by
          simp [alreadySubmitted], fun _ => ⟨_, List.mem_append_right _ (.head _), ?_⟩,
          honly⟩
        obtain ⟨-, rt, hcall⟩ := acceptFlagSubmission_of_passes hpass
        rw [← hflag, ← hteam]
        exact (MemoryGameStore.acceptFlagSubmission_same hcall (by simp) (by simp)).2 rfl

/-- The whole batch, by induction on its run; the flags seen are the earlier ones. -/
theorem BatchRun.allJudged {seen earlier flags : List String} {verdicts : List SubmissionVerdict}
    {segments : List (List (ServerEntry (MemoryGameStore K)))}
    (h : BatchRun teamID seen flags (.ok verdicts) segments)
    (hseen : ∀ text, text ≠ "" → (text ∈ seen ↔ text ∈ earlier.map trimSpace))
    (hes : ∀ e ∈ segments.flatten, Passes (memorySem M crypto) e) :
    AllJudged teamID earlier flags verdicts segments := by
  generalize hr : (Except.ok verdicts : Except StoreError (List SubmissionVerdict)) = r at h
  induction h generalizing verdicts earlier with
  | nil =>
    cases hr
    exact .nil
  | @empty seen flags flag r segments hempty _ ih =>
    cases r with
    | error => cases hr
    | ok rest =>
      cases hr
      have hseen' :
          ∀ text, text ≠ "" → (text ∈ seen ↔ text ∈ (earlier ++ [flag]).map trimSpace) := by
        intro text htext
        rw [hseen text htext, List.map_append, List.mem_append, List.map_singleton,
          List.mem_singleton, hempty, or_iff_left htext]
      refine .cons ⟨(if_pos hempty).symm, ?_, ?_, ?_, ?_⟩ (ih hseen' hes rfl) <;>
        simp [wrongOrExpired]
  | @repeated seen flags flag r segments hflag hmem _ ih =>
    cases r with
    | error => cases hr
    | ok rest =>
      cases hr
      have hold := (hseen _ hflag).mp hmem
      have hseen' :
          ∀ text, text ≠ "" → (text ∈ seen ↔ text ∈ (earlier ++ [flag]).map trimSpace) := by
        intro text htext
        rw [hseen text htext, List.map_append, List.mem_append, List.map_singleton,
          List.mem_singleton, or_iff_left_of_imp]
        rintro rfl
        exact hold
      refine .cons ⟨(if_neg hflag).symm, ?_, ?_, fun _ => .inl hold, ?_⟩ (ih hseen' hes rfl) <;>
        simp [alreadySubmitted]
  | failed => cases hr
  | @judged seen flags flag verdict es r segments hflag hnew hrun _ ih =>
    cases r with
    | error => cases hr
    | ok rest =>
      cases hr
      rw [List.flatten_cons] at hes
      obtain ⟨hes, hrest⟩ := List.forall_mem_append.mp hes
      have hseen' : ∀ text, text ≠ "" →
          (text ∈ trimSpace flag :: seen ↔ text ∈ (earlier ++ [flag]).map trimSpace) := by
        intro text htext
        rw [List.mem_cons, hseen text htext, List.map_append, List.mem_append, List.map_singleton,
          List.mem_singleton, or_comm]
      obtain ⟨hflag', haccepted, hduplicate, honly⟩ := hrun.judged hes
      refine .cons ⟨?_, haccepted, fun _ => ?_, fun h => .inr (hduplicate h), honly⟩
        (ih hseen' hrest rfl)
      · rw [hflag', if_neg hflag]
      · rwa [← hseen _ hflag]

/-- For every batch, whatever the store holds and the others change between two of its calls: one
verdict for each flag in order, an accepted one exactly for a record that the call inserted, a text
accepted at most once, and a duplicate only behind an earlier flag or an older record. -/
theorem submitFlags_judges (M : FaustMath K) (crypto : Crypto) (cfg : ServerConfig) (ctx : Nat)
    (teamID : Int) (flags : List String) :
    (submitFlags cfg ctx teamID flags).Returns (Passes (memorySem M crypto))
      fun r (es : List (ServerEntry (MemoryGameStore K))) => ∀ verdicts, r = .ok verdicts →
        (∃ opening segments closing, es = opening ++ (segments.flatten ++ closing) ∧
          AllJudged teamID [] flags verdicts segments ∧
          ∀ e ∈ opening ++ closing, ∀ team text, ¬Inserts team text e) ∧
        ∀ text, (flags.zip verdicts).countP
          (fun p => trimSpace p.1 = text ∧ p.2.status = .accepted) ≤ 1 := by
  have : Nonempty ServerOp := ⟨.clock⟩
  intro es r hes hyields verdicts hr
  subst hr
  rcases submitFlags_leads.returns es _ hes hyields with ⟨⟨e, he⟩, -⟩ |
    ⟨opening, closing, segments, rfl, hopening, hrun, hclosing⟩
  · cases he
  obtain ⟨hes₁, hes₂⟩ := List.forall_mem_append.mp hes
  obtain ⟨hes₂, hes₃⟩ := List.forall_mem_append.mp hes₂
  have hjudged : AllJudged teamID [] flags verdicts segments :=
    hrun.allJudged (by simp) hes₂
  refine ⟨⟨opening, segments, closing, rfl, hjudged, ?_⟩, hjudged.countP_accepted⟩
  refine List.forall_mem_append.mpr ⟨fun e he =>
    not_inserts_of_idle (hopening e he) (hes₁ e he), ?_⟩
  rw [Closes] at hclosing
  split at hclosing
  · obtain ⟨e, rfl, hop⟩ := hclosing
    have hstore := store_eq_of_reads (hes₃ e (.head _)) (.inr hop)
    exact List.forall_mem_singleton.mpr (not_inserts_of_store_eq hstore)
  · rw [hclosing]
    simp

/-- The first team hands in a flag, and once more with white space around it. -/
def sameFlag : List String := [openFlag, " " ++ openFlag ++ "\n"]

/-- The answer that accepts a flag once. -/
def acceptedOnce : Except StoreError (List SubmissionVerdict) → Bool
  | .ok verdicts => verdicts.map (·.status) = [.accepted, .duplicate]
  | .error _ => false

/-- The batch from its first step to its answer. -/
def sameFlagTranscript : List (ServerEntry (MemoryGameStore ℚ)) × Thread ServerOp ServerOp.Res :=
  (submitFlags plainConfig 0 1 sameFlag fun r =>
    if acceptedOnce r then .done else .repeated .clock 100).alone
    (serverSem (memorySem squareMath plainConfig.crypto)) (.replicate 20 { store := .inOrder })
    { store := endingMatch, codec := plainCodec }

/-- One record is inserted, and the repetition is called a duplicate. -/
theorem submitFlags_judges_sameFlag :
    ∃ (es : List (ServerEntry (MemoryGameStore ℚ))) (verdicts : List SubmissionVerdict),
      (∀ e ∈ es, Passes (memorySem squareMath plainConfig.crypto) e) ∧
      (submitFlags plainConfig 0 1 sameFlag).Yields es (.ok verdicts) ∧
      verdicts.map (·.status) = [.accepted, .duplicate] ∧
      ∃ opening segments closing, es = opening ++ (segments.flatten ++ closing) ∧
        AllJudged 1 [] sameFlag verdicts segments ∧
        ∀ e ∈ opening ++ closing, ∀ team text, ¬Inserts team text e := by
  have hdone : sameFlagTranscript.2 = .done := Thread.eq_done_of_isDone (by decide +kernel)
  obtain ⟨hpath, hhappens⟩ : (submitFlags plainConfig 0 1 sameFlag fun r =>
        if acceptedOnce r then .done else .repeated .clock 100).Path
        sameFlagTranscript.1 sameFlagTranscript.2 ∧
      ∀ e ∈ sameFlagTranscript.1, e.Happens (serverSem (memorySem squareMath plainConfig.crypto)) :=
    Thread.alone_path _
  have hpanics : sameFlagTranscript.1.all (fun e => !panics e) = true := by decide +kernel
  have hpasses : ∀ e ∈ sameFlagTranscript.1, Passes (memorySem squareMath plainConfig.crypto) e :=
    fun e he => ⟨hhappens e he, by simpa using List.all_eq_true.mp hpanics e he⟩
  have hlength : sameFlagTranscript.1.length < 100 := by decide +kernel
  obtain ⟨r, hr, hyields, -⟩ := submitFlags_leads.answers_of hpasses hlength (hdone ▸ hpath)
  cases r with
  | error => cases hr
  | ok verdicts =>
    have hjudged :=
      submitFlags_judges squareMath plainConfig.crypto plainConfig 0 1 sameFlag _ _ hpasses
      hyields verdicts rfl
    exact ⟨_, verdicts, hpasses, hyields, of_decide_eq_true hr, hjudged.1⟩

end Server

end ADPlatform.GameCore
