import ADPlatform.APIGateway.UnlockRequests
import ADPlatform.Lib.WorkerPool

/-! # Unlocking while the proofs are rotated

While no request is in progress, a service is unlocked only if a proof of the current epoch of its
challenge has passed for it, unless a rotation came between the read of the epoch and the unlock or
left the unlocks of the old epoch behind. A request carries in its role the epoch that it has read,
and an organizer's the challenge whose services are still to be locked. -/

namespace ADPlatform.APIGateway
open GameCore (Time MAC)
open Platform Concurrent Text

/-! ## Sound states -/

namespace UnlockStore
variable {σ : Type} (st : UnlockStore σ) (hmac : MAC) (secret : String)

/-- A proof of the current epoch of the challenge has passed for the service. -/
def Proven (s : UnlockState σ) (k : ServiceKey) : Prop :=
  ∃ epoch proof, st.epoch none k.2 s.store = .ok epoch ∧ (k, epoch, proof) ∈ s.verified ∧
    UnlockProof.verify hmac secret k.1 k.2 epoch proof = true

/-- Every unlocked service has a proof that passed for its current epoch. -/
def Sound (s : UnlockState σ) : Prop :=
  ∀ k, st.unlocked k s.store = true → st.Proven hmac secret s k

/-- No service is unlocked after the proofs of its challenge have been rotated since the epoch was
read, and a rotation that has begun locks the services. -/
def NotOvertaken : UnlockInput → UnlockOp → UnlockState σ → Prop
  | input, .unlock k seen, s => st.unlocks input.failure k s.store = true → s.rotations k.2 = seen
  | input, .statement q, _ => q.rotates = none → q.clears.isSome → input.failure = none
  | _, _, _ => True

instance (input : UnlockInput) : (op : UnlockOp) → (s : UnlockState σ) →
    Decidable (st.NotOvertaken input op s)
  | .unlock k seen, s =>
    inferInstanceAs (Decidable (st.unlocks input.failure k s.store = true → s.rotations k.2 = seen))
  | .statement q, _ =>
    inferInstanceAs (Decidable (q.rotates = none → q.clears.isSome → input.failure = none))
  | .getChallengeUnlockProofEpoch _, _ | .currentTick, _ | .verified _ _ _, _ | .outside _, _ =>
    isTrue trivial

/-- What a statement does: it unlocks nothing, and what it does not rotate keeps its epoch. -/
structure Does (q : UnlockStatement) (s t : σ) (r : Except StoreError Unit) : Prop where
  unlocked : ∀ k, st.unlocked k t = true → st.unlocked k s = true ∧
    (r = .ok () → q.clears ≠ some k.2)
  epoch : ∀ c, q.rotates ≠ some c → st.epoch none c t = st.epoch none c s
  error : ∀ err, r = .error err → t = s

/-- What the argument needs of a store. -/
structure Lawful : Prop where
  exec : ∀ {failure q s t r}, st.exec failure q s = some (t, r) → st.Does q s t r
  clears_ok : ∀ {q s t r c}, st.exec none q s = some (t, r) → q.rotates = none →
    q.clears = some c → r = .ok ()
  unlock_unlocked : ∀ {failure k s k'}, st.unlocked k' (st.unlock failure k s).1 = true →
    st.unlocked k' s = true ∨ k' = k ∧ st.unlocks failure k s = true
  unlock_epoch : ∀ {failure k s c}, st.epoch none c (st.unlock failure k s).1 = st.epoch none c s
  epoch_ok : ∀ {failure c s epoch}, st.epoch failure c s = .ok epoch → st.epoch none c s = .ok epoch

end UnlockStore

/-! ## Roles -/

/-- What a request knows, or still has to do. -/
inductive UnlockStage where
  | idle
  | read (k : ServiceKey) (epoch : Int) (seen : Nat)
  | verified (k : ServiceKey) (epoch : Int) (seen : Nat)
  | clearing (challengeID : Int)
  deriving DecidableEq

namespace UnlockStore
variable {σ : Type} (st : UnlockStore σ) (hmac : MAC) (secret : String)

/-- The epoch is the one of the challenge until its proofs are rotated again. -/
def Current (s : UnlockState σ) (k : ServiceKey) (epoch : Int) (seen : Nat) : Prop :=
  seen ≤ s.rotations k.2 ∧ (s.rotations k.2 = seen → st.epoch none k.2 s.store = .ok epoch)

/-- What a handler knows of the state at each stage. -/
def Holds (s : UnlockState σ) : UnlockStage → Prop
  | .idle | .clearing _ => True
  | .read k epoch seen => st.Current s k epoch seen
  | .verified k epoch seen => st.Current s k epoch seen ∧
    ∃ proof, (k, epoch, proof) ∈ s.verified ∧
      UnlockProof.verify hmac secret k.1 k.2 epoch proof = true

/-- Sound but for the services that a rotation has still to lock. -/
structure Watched (s : UnlockState σ) (roles : List UnlockStage) : Prop where
  sound : ∀ k, st.unlocked k s.store = true → st.Proven hmac secret s k ∨ .clearing k.2 ∈ roles
  holds : ∀ role ∈ roles, st.Holds hmac secret s role

/-- The roles of the handlers; one that has still to lock services has not ended. -/
def roles : Roles (UnlockState σ) UnlockInput UnlockOp UnlockOp.Res UnlockStage where
  sem := st.sem
  inv := st.Watched hmac secret
  allowed := st.NotOvertaken
  waits _ _ := True
  ended role := ∀ challengeID, role ≠ .clearing challengeID

/-- What every step keeps. -/
structure Advances (s t : UnlockState σ) : Prop where
  verified : ∀ v ∈ s.verified, v ∈ t.verified
  rotations : ∀ c, s.rotations c ≤ t.rotations c
  epoch : ∀ c, t.rotations c = s.rotations c → st.epoch none c t.store = st.epoch none c s.store

variable {st hmac secret} {s t : UnlockState σ} {roles : List UnlockStage} {i : Nat}
  {role role' : UnlockStage}

theorem Advances.holds (h : st.Advances s t) (hrole : st.Holds hmac secret s role) :
    st.Holds hmac secret t role := by
  have hcurrent {k : ServiceKey} {epoch : Int} {seen : Nat} (hc : st.Current s k epoch seen) :
      st.Current t k epoch seen := by
    have hle := h.rotations k.2
    refine ⟨hc.1.trans hle, fun hseen => ?_⟩
    have hsame : t.rotations k.2 = s.rotations k.2 := by
      have := hc.1
      omega
    rw [h.epoch k.2 hsame]
    exact hc.2 (hsame.symm.trans hseen)
  cases role with
  | idle | clearing => trivial
  | read => exact hcurrent hrole
  | verified =>
    obtain ⟨hc, proof, hmem, hverify⟩ := hrole
    exact ⟨hcurrent hc, proof, h.verified _ hmem, hverify⟩

theorem Advances.proven (h : st.Advances s t) {k : ServiceKey}
    (hrot : t.rotations k.2 = s.rotations k.2) (hk : st.Proven hmac secret s k) :
    st.Proven hmac secret t k := by
  obtain ⟨epoch, proof, hepoch, hmem, hverify⟩ := hk
  exact ⟨epoch, proof, (h.epoch k.2 hrot).trans hepoch, h.verified _ hmem, hverify⟩

/-- A step of a thread, and what it leaves unlocked. -/
theorem Watched.move (h : st.Watched hmac secret s roles) (hadv : st.Advances s t)
    (hrole : st.Holds hmac secret t role') (hsound : ∀ k, st.unlocked k t.store = true →
      st.Proven hmac secret t k ∨ .clearing k.2 ∈ roles.set i role') :
    st.Watched hmac secret t (roles.set i role') := by
  refine ⟨hsound, fun role hmem => ?_⟩
  rcases List.mem_or_eq_of_mem_set hmem with hmem | rfl
  · exact hadv.holds (h.holds role hmem)
  · exact hrole

/-- The other threads keep their roles. -/
theorem mem_set_of_ne {α : Type} {l : List α} {i : Nat} {a b x : α} (hi : l[i]? = some a)
    (hx : x ∈ l)
    (hne : x ≠ a) : x ∈ l.set i b := by
  obtain ⟨j, hj⟩ := List.mem_iff_getElem?.mp hx
  have hji : i ≠ j := by
    rintro rfl
    exact hne (Option.some.inj (hj.symm.trans hi))
  exact List.mem_of_getElem? ((List.getElem?_set_ne hji).trans hj)

/-- A step that unlocks no service, rotates nothing and is none of a rotation. -/
theorem Watched.quiet (h : st.Watched hmac secret s roles) (hi : roles[i]? = some role)
    (hended : (st.roles hmac secret).ended role ∨ role' = role) (hadv : st.Advances s t)
    (hrot : ∀ c, t.rotations c = s.rotations c)
    (hunlocked : ∀ k, st.unlocked k t.store = true → st.unlocked k s.store = true)
    (hrole : st.Holds hmac secret t role') : st.Watched hmac secret t (roles.set i role') := by
  refine h.move hadv hrole fun k hk => ?_
  rcases h.sound k (hunlocked k hk) with hproven | hmem
  · exact .inl (hadv.proven (hrot k.2) hproven)
  · rcases hended with hended | rfl
    · exact .inr (mem_set_of_ne hi hmem fun heq => hended k.2 heq.symm)
    · rw [WorkerPool.set_same hi]
      exact .inr hmem

/-! ## The steps -/

section Steps
variable (hst : st.Lawful)
include hst

theorem advances_statement {input : UnlockInput} {q : UnlockStatement} {r : Except StoreError Unit}
    (h : st.sem input (.statement q) s = some (t, r)) : st.Advances s t := by
  obtain ⟨⟨store, r⟩, hexec, heq⟩ := Option.map_eq_some_iff.mp h
  obtain ⟨rfl, rfl⟩ := Prod.mk.inj heq
  cases r with
  | error err =>
    obtain rfl := (hst.exec hexec).error err rfl
    exact ⟨fun _ hv => hv, fun _ => le_rfl, fun _ _ => rfl⟩
  | ok =>
    refine ⟨fun _ hv => hv, fun c => ?_, fun c hc => (hst.exec hexec).epoch c fun hq => ?_⟩
    · exact (List.sublist_append_right _ _).count_le c
    · have hcount : (c :: s.rotated).count c = s.rotated.count c := by
        simpa only [UnlockState.rotations, hq, Except.isOk, Except.toBool, if_true,
          Option.toList_some,
          List.singleton_append] using hc
      rw [List.count_cons_self] at hcount
      omega

variable {op : UnlockOp} {k : ServiceKey} {epoch : Int} {seen : Nat} {proof : String} {c : Int}
  {q : UnlockStatement}

/-- A statement that is none of a rotation. -/
theorem statement_plays (hq : q.rotates = none) :
    (st.roles hmac secret).Plays (Proc.perform (UnlockOp.statement q)) role fun _ new =>
      new = role := by
  refine .perform (fun s roles i hi h input t r _ hsem => ?_) fun _ _ _ _ _ _ => trivial
  have hadv := advances_statement hst hsem
  obtain ⟨⟨store, r⟩, hexec, heq⟩ := Option.map_eq_some_iff.mp hsem
  obtain ⟨rfl, rfl⟩ := Prod.mk.inj heq
  refine ⟨role, h.quiet hi (.inr rfl) hadv (fun c => ?_) (fun k hk =>
    ((hst.exec hexec).unlocked k hk).1) ?_, rfl⟩
  · rw [hq]
    cases r <;> rfl
  · exact hadv.holds (h.holds role (List.mem_of_getElem? hi))

/-- The statement that brings a new epoch. -/
theorem rotates_plays (hq : q.rotates = some c) :
    (st.roles hmac secret).Plays (Proc.perform (UnlockOp.statement q)) .idle
      fun (r : Except StoreError Unit) new => match r with
        | .error _ => new = .idle
        | .ok () => new = if q.clears = some c then .idle else .clearing c := by
  refine .perform (fun s roles i hi h input t r _ hsem => ?_) fun _ _ _ _ _ _ => trivial
  have hadv := advances_statement hst hsem
  obtain ⟨⟨store, r⟩, hexec, heq⟩ := Option.map_eq_some_iff.mp hsem
  obtain ⟨rfl, rfl⟩ := Prod.mk.inj heq
  cases r with
  | error err =>
    obtain rfl := (hst.exec hexec).error err rfl
    exact ⟨.idle, h.quiet hi (.inr rfl) hadv (fun _ => rfl) (fun _ => id) trivial, rfl⟩
  | ok =>
    have hunlocked := (hst.exec hexec).unlocked
    -- the other challenges
    have hother (k : ServiceKey) (hk : st.unlocked k store = true) (hc : k.2 ≠ c)
      (new : UnlockStage) :
        st.Proven hmac secret ⟨store, q.rotates.toList ++ s.rotated, s.verified⟩ k ∨
          .clearing k.2 ∈ roles.set i new := by
      refine (h.sound k (hunlocked k hk).1).imp (hadv.proven ?_) fun hmem =>
        mem_set_of_ne hi hmem nofun
      change (q.rotates.toList ++ s.rotated).count k.2 = s.rotated.count k.2
      rw [hq]
      exact List.count_cons_of_ne (Ne.symm hc)
    by_cases hclears : q.clears = some c
    · refine ⟨.idle, h.move hadv trivial fun k hk => hother k hk ?_ .idle, (if_pos hclears).symm⟩
      rintro rfl
      exact (hunlocked k hk).2 rfl hclears
    · refine ⟨.clearing c, h.move hadv trivial fun k hk => ?_, (if_neg hclears).symm⟩
      by_cases hc : k.2 = c
      · rw [hc]
        exact .inr (List.mem_set (List.getElem?_eq_some_iff.mp hi).1 _)
      · exact hother k hk hc _

/-- The statement that locks the services after a new epoch. -/
theorem clears_plays (hq : q.rotates = none) (hclears : q.clears = some c) :
    (st.roles hmac secret).Plays (Proc.perform (UnlockOp.statement q)) (.clearing c)
      fun _ new => new = .idle := by
  refine .perform (fun s roles i hi h input t r hal hsem => ?_) fun _ _ _ _ _ _ => trivial
  have hadv := advances_statement hst hsem
  obtain ⟨⟨store, r⟩, hexec, heq⟩ := Option.map_eq_some_iff.mp hsem
  obtain ⟨rfl, rfl⟩ := Prod.mk.inj heq
  have hfailure : input.failure = none := hal hq (by rw [hclears]; rfl)
  rw [hfailure] at hexec
  obtain rfl := hst.clears_ok hexec hq hclears
  refine ⟨.idle, h.move hadv trivial fun k hk => ?_, rfl⟩
  obtain ⟨hk, hnot⟩ := (hst.exec hexec).unlocked k hk
  have hne : k.2 ≠ c := fun heq => hnot rfl (hclears.trans (congrArg some heq.symm))
  rcases h.sound k hk with hproven | hmem
  · refine .inl (hadv.proven ?_ hproven)
    change (q.rotates.toList ++ s.rotated).count k.2 = s.rotated.count k.2
    rw [hq]
    rfl
  · exact .inr (mem_set_of_ne hi hmem fun heq => hne (UnlockStage.clearing.inj heq))

theorem getEpoch_plays : (st.roles hmac secret).Plays
    (Proc.perform (UnlockOp.getChallengeUnlockProofEpoch k.2)) .idle
      fun (r : Except StoreError (Int × Nat)) new =>
        new = match r with
          | .error _ => .idle
          | .ok (epoch, seen) => .read k epoch seen := by
  refine .perform (fun s roles i hi h input t r _ hsem => ?_) fun _ _ _ _ _ _ => trivial
  obtain ⟨rfl, rfl⟩ := Prod.mk.inj (Option.some.inj hsem)
  have hadv : st.Advances s s := ⟨fun _ hv => hv, fun _ => le_rfl, fun _ _ => rfl⟩
  refine ⟨_, h.quiet hi (.inl nofun) hadv (fun _ => rfl) (fun _ => id) ?_, rfl⟩
  cases hepoch : st.epoch input.failure k.2 s.store with
  | error => trivial
  | ok epoch => exact ⟨le_rfl, fun _ => hst.epoch_ok hepoch⟩

theorem unlock_plays : (st.roles hmac secret).Plays (Proc.perform (UnlockOp.unlock k seen))
    (.verified k epoch seen) fun _ new => new = .idle := by
  refine .perform (fun s roles i hi h input t r hal hsem => ?_) fun _ _ _ _ _ _ => trivial
  obtain ⟨rfl, rfl⟩ := Prod.mk.inj (Option.some.inj hsem)
  obtain ⟨⟨-, hcurrent⟩, proof, hmem, hverify⟩ := h.holds _ (List.mem_of_getElem? hi)
  have hadv : st.Advances s { s with store := (st.unlock input.failure k s.store).1 } :=
    ⟨fun _ hv => hv, fun _ => le_rfl, fun _ _ => hst.unlock_epoch⟩
  refine ⟨.idle, h.move hadv trivial fun k' hk' => ?_, rfl⟩
  rcases hst.unlock_unlocked hk' with hk' | ⟨rfl, hunlocks⟩
  · rcases h.sound k' hk' with hproven | hclearing
    · exact .inl (hadv.proven rfl hproven)
    · exact .inr (mem_set_of_ne hi hclearing nofun)
  · exact .inl ⟨epoch, proof, hst.unlock_epoch.trans (hcurrent (hal hunlocks)), hmem, hverify⟩

end Steps

variable {k : ServiceKey} {epoch : Int} {seen : Nat} {proof : String}

/-- The proof has passed. -/
theorem verified_plays (hverify : UnlockProof.verify hmac secret k.1 k.2 epoch proof = true) :
    (st.roles hmac secret).Plays (Proc.perform (UnlockOp.verified k epoch proof))
    (.read k epoch seen)
      fun _ new => new = .verified k epoch seen := by
  refine .perform (fun s roles i hi h input t r _ hsem => ?_) fun _ _ _ _ _ _ => trivial
  obtain ⟨rfl, rfl⟩ := Prod.mk.inj (Option.some.inj hsem)
  have hcurrent : st.Current s k epoch seen := h.holds _ (List.mem_of_getElem? hi)
  have hadv : st.Advances s { s with verified := (k, epoch, proof) :: s.verified } :=
    ⟨fun _ hv => .tail _ hv, fun _ => le_rfl, fun _ _ => rfl⟩
  have hholds : st.Holds hmac secret { s with verified := (k, epoch, proof) :: s.verified }
      (.verified k epoch seen) := ⟨hcurrent, proof, .head _, hverify⟩
  exact ⟨_, h.quiet hi (.inl nofun) hadv (fun _ => rfl) (fun _ => id) hholds, rfl⟩

/-- An operation that does nothing to the state. -/
theorem reads_plays {op : UnlockOp} (hop : ∀ input s, ∃ r, st.sem input op s = some (s, r)) :
    (st.roles hmac secret).Plays (Proc.perform op) role fun _ new => new = role := by
  refine .perform (fun s roles i hi h input t r _ hsem => ?_) fun _ _ _ _ _ _ => trivial
  obtain ⟨r', hr'⟩ := hop input s
  obtain ⟨rfl, -⟩ := Prod.mk.inj (Option.some.inj (hr'.symm.trans hsem))
  refine ⟨role, ?_, rfl⟩
  rwa [WorkerPool.set_same hi]

theorem outside_plays (call : OutsideCall) : (st.roles hmac secret).Plays
    (Proc.perform (UnlockOp.outside call)) role fun _ new => new = role :=
  reads_plays fun _ _ => ⟨_, rfl⟩

/-! ## The programs -/

theorem unlockService_plays (hst : st.Lawful) : (st.roles hmac secret).Plays (unlockService k seen)
    (.verified k epoch seen) fun _ => (st.roles hmac secret).ended := by
  refine .bind (statement_plays hst rfl) ?_
  rintro (err | ⟨⟨⟩⟩) _ rfl
  · exact .pure nofun
  · refine .bind (unlock_plays hst) ?_
    rintro (err | ⟨⟨⟩⟩) _ rfl
    · exact .pure nofun
    · exact .pure nofun

theorem handleUnlock_plays (hst : st.Lawful) (body : Option String) : (st.roles hmac secret).Plays
    (handleUnlock hmac secret k body) .idle fun _ => (st.roles hmac secret).ended := by
  refine .bind (statement_plays hst rfl) ?_
  rintro (err | ⟨⟨⟩⟩) _ rfl
  · exact .pure nofun
  refine .bind (outside_plays _) ?_
  rintro allowed _ rfl
  refine .ite (fun _ => .pure nofun) fun _ => ?_
  cases body.filter fun proof => trimSpace proof ≠ "" with
  | none => exact .pure nofun
  | some proof =>
    refine .bind (getEpoch_plays hst) ?_
    rintro (err | ⟨epoch, seen⟩) _ rfl
    · exact .pure nofun
    refine .ite (fun _ => .pure nofun) fun hverify => ?_
    refine .bind (verified_plays (by simpa using hverify)) ?_
    rintro _ _ rfl
    refine .bind (unlockService_plays hst) ?_
    rintro (err | data) new hnew
    · exact .pure hnew
    refine .bind (outside_plays _) ?_
    rintro reconciled _ rfl
    refine .ite (fun _ => .pure hnew) fun _ => ?_
    refine .bind (outside_plays _) ?_
    rintro applied _ rfl
    refine .ite (fun _ => ?_) fun _ => .pure hnew
    refine .bind (statement_plays hst rfl) ?_
    rintro _ _ rfl
    exact .pure hnew

end UnlockStore

/-! ## The memory store -/

namespace MemoryStore
variable {s : MemoryStore} {k : ServiceKey} {challengeID : Int}

theorem getChallengeUnlockProofEpoch_congr {s t : MemoryStore}
    (h : (t.challenges.lookup challengeID).map (·.unlockProofEpoch) =
      (s.challenges.lookup challengeID).map (·.unlockProofEpoch)) :
    t.getChallengeUnlockProofEpoch challengeID = s.getChallengeUnlockProofEpoch challengeID := by
  unfold getChallengeUnlockProofEpoch
  cases hs : s.challenges.lookup challengeID with
  | none =>
    rw [hs, Option.map_none, Option.map_eq_none_iff] at h
    rw [h]
  | some challenge =>
    rw [hs, Option.map_some, Option.map_eq_some_iff] at h
    obtain ⟨challenge', ht, hepoch⟩ := h
    rw [ht]
    simp only [hepoch]

/-- A new version of a challenge whose epoch is the old one, or another challenge. -/
theorem epoch_putChallenge {challenge challenge' : AdminChallenge} {c : Int}
    (h : s.challenges.lookup challengeID = some challenge)
    (hepoch : c = challengeID → challenge'.unlockProofEpoch = challenge.unlockProofEpoch) :
    (s.putChallenge challengeID challenge').store.getChallengeUnlockProofEpoch c =
      s.getChallengeUnlockProofEpoch c := by
  refine getChallengeUnlockProofEpoch_congr ?_
  by_cases hc : c = challengeID
  · subst hc
    rw [h]
    change Option.map _ ((s.challenges.insert c _).lookup c) = _
    rw [AList.lookup_insert]
    exact congrArg some (hepoch rfl)
  · exact congrArg _ (AList.lookup_insert_ne hc)

theorem unlocked_mapStates {f : ServiceState → ServiceState}
    (hf : ∀ state, (f state).unlocked = false)
    (h : ((s.mapStates challengeID f).teamStates.lookup k).any (·.unlocked) = true) :
    (s.teamStates.lookup k).any (·.unlocked) = true ∧ k.2 ≠ challengeID := by
  change ((s.teamStates.mapValues _).lookup k).any _ = true at h
  rw [Go.Map.lookup_mapValues] at h
  cases hk : s.teamStates.lookup k with
  | none =>
    rw [hk] at h
    cases h
  | some state =>
    rw [hk, Option.map_some, Option.any_some] at h
    split at h
    next =>
      rw [hf] at h
      cases h
    next hne => exact ⟨h, hne⟩

theorem does_rotateChallengeUnlockProof :
    unlockStore.Does (.rotateChallengeUnlockProof challengeID) s
      (s.rotateChallengeUnlockProof challengeID).store
      ((s.rotateChallengeUnlockProof challengeID).result.map fun _ => ()) := by
  unfold rotateChallengeUnlockProof
  split
  next => exact ⟨fun k hk => ⟨hk, nofun⟩, fun _ _ => rfl, fun _ _ => rfl⟩
  next challenge hc =>
    refine ⟨fun k hk => ?_, fun c hne => ?_, fun err herr => nomatch herr⟩
    · obtain ⟨hk, hne⟩ := unlocked_mapStates (fun _ => rfl) hk
      exact ⟨hk, fun _ heq => hne (Option.some.inj heq).symm⟩
    · exact epoch_putChallenge (s := s.mapStates challengeID ServiceState.relocked) hc
        fun heq => absurd (congrArg some heq.symm) hne

theorem does_setChallengeMaintenance {maintenance : Bool} {now : Time} :
    unlockStore.Does (.setChallengeMaintenance challengeID maintenance now) s
      (s.setChallengeMaintenance challengeID maintenance now).store
      ((s.setChallengeMaintenance challengeID maintenance now).result.map fun _ => ()) := by
  unfold setChallengeMaintenance
  split
  next => exact ⟨fun k hk => ⟨hk, nofun⟩, fun _ _ => rfl, fun _ _ => rfl⟩
  next challenge hc =>
    cases maintenance with
    | true =>
      refine ⟨fun k hk => ?_, fun c hne => ?_, fun err herr => nomatch herr⟩
      · obtain ⟨hk, hne⟩ := unlocked_mapStates (fun _ => rfl) hk
        exact ⟨hk, fun _ heq => hne (Option.some.inj heq).symm⟩
      · rw [if_pos rfl]
        exact epoch_putChallenge hc fun heq => absurd (congrArg some heq.symm) hne
    | false =>
      refine ⟨fun k hk => ⟨hk, nofun⟩, fun c _ => ?_, fun err herr => nomatch herr⟩
      exact epoch_putChallenge hc fun _ => rfl

theorem unlockStore_does {failure : Option String} {q : UnlockStatement} {t : MemoryStore}
    {r : Except StoreError Unit} (h : unlockStore.exec failure q s = some (t, r)) :
    unlockStore.Does q s t r := by
  cases q with
  | validateServiceAction k =>
    obtain ⟨rfl, rfl⟩ := Prod.mk.inj (Option.some.inj h)
    exact ⟨fun k hk => ⟨hk, nofun⟩, fun _ _ => rfl, fun _ _ => rfl⟩
  | markSSHSessionApplyFailure k =>
    obtain ⟨rfl, rfl⟩ := Prod.mk.inj (Option.some.inj h)
    unfold markSSHSessionApplyFailure updateState
    split
    next => exact ⟨fun k hk => ⟨hk, nofun⟩, fun _ _ => rfl, fun _ _ => rfl⟩
    next state hstate =>
      refine ⟨fun k' hk' => ⟨?_, nofun⟩, fun _ _ => rfl, fun err herr => nomatch herr⟩
      change ((s.teamStates.insert k _).lookup k').any (·.unlocked) = true at hk'
      change (s.teamStates.lookup k').any (·.unlocked) = true
      by_cases heq : k' = k
      · subst heq
        rw [AList.lookup_insert] at hk'
        rw [hstate]
        exact hk'
      · rwa [AList.lookup_insert_ne heq] at hk'
  | rotateChallengeUnlockProof =>
    obtain ⟨rfl, rfl⟩ := Prod.mk.inj (Option.some.inj h)
    exact does_rotateChallengeUnlockProof
  | setChallengeMaintenance =>
    obtain ⟨rfl, rfl⟩ := Prod.mk.inj (Option.some.inj h)
    exact does_setChallengeMaintenance
  | rotateEpoch | clearUnlocks | enterMaintenance | markMaintenance | resume
  | markResumed => cases h

/-- The locked part of `UnlockService` leaves the store alone, or sets the flag of the service. -/
theorem unlockServiceLocked_cases (k : ServiceKey) (s : MemoryStore) :
    (s.unlockServiceLocked k).store = s ∨ s.unlockable k = true ∧
      ∃ state, (s.unlockServiceLocked k).store = s.setState k state := by
  unfold unlockServiceLocked
  split
  · exact .inl rfl
  next state hstate =>
  split
  · exact .inl rfl
  next challenge hc =>
  split
  · exact .inl rfl
  next hmaintenance =>
  split
  · exact .inl rfl
  next htick =>
  split
  · exact .inl rfl
  next hpublished =>
  split
  · exact .inl rfl
  next i hi =>
  split
  · exact .inl rfl
  next hready =>
  refine .inr ⟨?_, _, rfl⟩
  simp_all [unlockable]

theorem unlockStore_lawful : unlockStore.Lawful where
  exec := unlockStore_does
  clears_ok := by
    intro q s t r c h hrotates hclears
    cases q with
    | rotateChallengeUnlockProof => cases hrotates
    | setChallengeMaintenance c maintenance =>
      cases maintenance with
      | true => cases hrotates
      | false => cases hclears
    | clearUnlocks | markMaintenance => cases h
    | validateServiceAction | markSSHSessionApplyFailure | rotateEpoch | enterMaintenance | resume
    | markResumed => cases hclears
  unlock_unlocked := by
    intro failure k s k' hk'
    have hk' : ((s.unlockServiceLocked k).store.teamStates.lookup k').any (·.unlocked) = true := hk'
    rcases unlockServiceLocked_cases k s with hs | ⟨hunlockable, state, hs⟩
    · rw [hs] at hk'
      exact .inl hk'
    · by_cases heq : k' = k
      · exact .inr ⟨heq, hunlockable⟩
      · rw [hs] at hk'
        refine .inl ?_
        change ((s.teamStates.insert k state).lookup k').any (·.unlocked) = true at hk'
        rwa [AList.lookup_insert_ne heq] at hk'
  unlock_epoch := by
    intro failure k s c
    change (s.unlockServiceLocked k).store.getChallengeUnlockProofEpoch c = _
    rcases unlockServiceLocked_cases k s with hs | ⟨-, state, hs⟩
    · rw [hs]
      rfl
    · rw [hs]
      rfl
  epoch_ok h := h

end MemoryStore

/-! ## The postgres store -/

namespace PlayDatabase
variable {db : PlayDatabase} {k : ServiceKey} {challengeID : Int}

theorem unlocked_updateStates {f : ServiceState → ServiceState} {hf : ∀ tss, (f tss).key = tss.key}
    {P : ServiceState → Prop}
    (hunlocked : ∀ tss, (f tss).unlocked = true → tss.unlocked = true ∧ P tss)
    (h : unlockStore.unlocked k (db.updateStates f hf) = true) :
    unlockStore.unlocked k db = true ∧ ∃ tss ∈ db.teamServiceStates, tss.key = k ∧ P tss := by
  obtain ⟨tss', hmem', htss⟩ := List.any_eq_true.mp h
  obtain ⟨tss, hmem, rfl⟩ := List.mem_map.mp hmem'
  simp only [hf, Bool.and_eq_true, decide_eq_true_eq] at htss
  obtain ⟨hu, hp⟩ := hunlocked tss htss.2
  refine ⟨List.any_eq_true.mpr ⟨tss, hmem, ?_⟩, tss, hmem, htss.1, hp⟩
  simp only [htss.1, hu, decide_true, Bool.and_self]

theorem epoch_updateChallenges {f : ChallengeRow → ChallengeRow}
    {hf : ∀ c, (f c).id = c.id} {c : Int}
    (hepoch : ∀ row, row.id = c → (f row).unlockProofEpoch = row.unlockProofEpoch) :
    (db.updateChallenges f hf).getChallengeUnlockProofEpoch c =
      db.getChallengeUnlockProofEpoch c := by
  have hfind : (db.updateChallenges f hf).challenges.find? (·.id = c) =
      (db.challenges.find? (·.id = c)).map f := by
    change (db.challenges.map f).find? _ = _
    rw [List.find?_map]
    simp only [Function.comp_def, hf]
  unfold getChallengeUnlockProofEpoch
  rw [hfind]
  cases hrow : db.challenges.find? (·.id = c) with
  | none => rfl
  | some row =>
    have hid : row.id = c := by simpa using List.find?_some hrow
    simp only [Option.map_some, hepoch row hid]

/-- An update of a challenge. -/
theorem does_updated {q : UnlockStatement} {f : ChallengeRow → ChallengeRow}
    {hf : ∀ c, (f c).id = c.id}
    {db' : PlayDatabase} {r : Except StoreError Unit} (hclears : q.clears = none)
    (hepoch : ∀ c, q.rotates ≠ some c.id → (f c).unlockProofEpoch = c.unlockProofEpoch)
    (h : some (db.updated challengeID (db.updateChallenges f hf)) = some (db', r)) :
    unlockStore.Does q db db' r := by
  unfold updated at h
  split at h
  · obtain ⟨rfl, rfl⟩ := Prod.mk.inj (Option.some.inj h)
    refine ⟨fun k hk => ⟨hk, fun _ => by rw [hclears]; nofun⟩, fun c hc => ?_, nofun⟩
    exact epoch_updateChallenges fun row hrow => hepoch row (hrow ▸ hc)
  · obtain ⟨rfl, rfl⟩ := Prod.mk.inj (Option.some.inj h)
    exact ⟨fun k hk => ⟨hk, nofun⟩, fun _ _ => rfl, fun _ _ => rfl⟩

/-- An update of service states. -/
theorem does_updateStates {q : UnlockStatement} {f : ServiceState → ServiceState}
    {hf : ∀ tss, (f tss).key = tss.key} {r : Except StoreError Unit} (hr : r = .ok ())
    (hunlocked : ∀ tss, (f tss).unlocked = true →
      tss.unlocked = true ∧ q.clears ≠ some tss.challengeID) :
    unlockStore.Does q db (db.updateStates f hf) r := by
  refine ⟨fun k hk => ?_, fun _ _ => rfl, fun err herr => by rw [hr] at herr; cases herr⟩
  obtain ⟨hk, tss, -, rfl, hclears⟩ := unlocked_updateStates hunlocked hk
  exact ⟨hk, fun _ => hclears⟩

theorem unlockStore_does {failure : Option String} {q : UnlockStatement} {db' : PlayDatabase}
    {r : Except StoreError Unit} (h : unlockStore.exec failure q db = some (db', r)) :
    unlockStore.Does q db db' r := by
  cases failure with
  | some message =>
    obtain ⟨rfl, rfl⟩ := Prod.mk.inj (Option.some.inj h)
    exact ⟨fun k hk => ⟨hk, nofun⟩, fun _ _ => rfl, fun _ _ => rfl⟩
  | none =>
    cases q with
    | validateServiceAction k =>
      obtain ⟨rfl, rfl⟩ := Prod.mk.inj (Option.some.inj h)
      exact ⟨fun k hk => ⟨hk, nofun⟩, fun _ _ => rfl, fun _ _ => rfl⟩
    | markSSHSessionApplyFailure k =>
      have h := Option.some.inj h
      split at h
      · obtain ⟨rfl, rfl⟩ := Prod.mk.inj h
        refine does_updateStates rfl fun tss htss => ⟨?_, nofun⟩
        split at htss <;> exact htss
      · obtain ⟨rfl, rfl⟩ := Prod.mk.inj h
        exact ⟨fun k hk => ⟨hk, nofun⟩, fun _ _ => rfl, fun _ _ => rfl⟩
    | rotateEpoch challengeID =>
      refine does_updated rfl (fun c hc => ?_) h
      rw [if_neg fun heq => hc (congrArg some heq.symm)]
    | enterMaintenance challengeID now =>
      refine does_updated rfl (fun c hc => ?_) h
      rw [if_neg fun heq => hc (congrArg some heq.symm)]
    | resume challengeID playFromTick =>
      refine does_updated rfl (fun c _ => ?_) h
      split <;> rfl
    | clearUnlocks challengeID =>
      obtain ⟨rfl, rfl⟩ := Prod.mk.inj (Option.some.inj h)
      refine does_updateStates rfl fun tss htss => ?_
      split at htss
      next => cases htss
      next hne => exact ⟨htss, fun heq => hne (Option.some.inj heq).symm⟩
    | markMaintenance challengeID =>
      obtain ⟨rfl, rfl⟩ := Prod.mk.inj (Option.some.inj h)
      refine does_updateStates rfl fun tss htss => ?_
      split at htss
      next => cases htss
      next hne => exact ⟨htss, fun heq => hne (Option.some.inj heq).symm⟩
    | markResumed challengeID =>
      obtain ⟨rfl, rfl⟩ := Prod.mk.inj (Option.some.inj h)
      refine does_updateStates rfl fun tss htss => ⟨?_, nofun⟩
      split at htss <;> exact htss
    | rotateChallengeUnlockProof | setChallengeMaintenance => cases h

theorem unlockStore_lawful : unlockStore.Lawful where
  exec := unlockStore_does
  clears_ok := by
    intro q db db' r c h hrotates hclears
    cases q with
    | clearUnlocks | markMaintenance => exact (Prod.mk.inj (Option.some.inj h)).2.symm
    | rotateChallengeUnlockProof | setChallengeMaintenance => cases h
    | validateServiceAction | markSSHSessionApplyFailure | rotateEpoch | enterMaintenance | resume
    | markResumed => cases hclears
  unlock_unlocked := by
    intro failure k db k' hk'
    cases failure with
    | some message => exact .inl hk'
    | none =>
      obtain ⟨tss', hmem', htss⟩ := List.any_eq_true.mp hk'
      obtain ⟨tss, hmem, rfl⟩ := List.mem_map.mp hmem'
      split at htss
      next hhit =>
        simp only [Bool.and_eq_true, decide_eq_true_eq] at hhit htss
        obtain rfl : k = k' := hhit.1.symm.trans htss.1
        refine .inr ⟨rfl, List.any_eq_true.mpr ⟨tss, hmem, ?_⟩⟩
        simp only [hhit.1, hhit.2, decide_true, Bool.and_self]
      next => exact .inl (List.any_eq_true.mpr ⟨tss, hmem, htss⟩)
  unlock_epoch := by
    intro failure k db c
    cases failure with
    | some message => rfl
    | none => rfl
  epoch_ok := by
    intro failure c db epoch h
    cases failure with
    | some message => cases h
    | none => exact h

end PlayDatabase

/-! ## The requests -/

theorem StoreKind.lawful (kind : StoreKind) : kind.store.Lawful := by
  cases kind with
  | memory => exact MemoryStore.unlockStore_lawful
  | postgres => exact PlayDatabase.unlockStore_lawful

section Requests
open UnlockStore
variable (kind : StoreKind) {hmac : MAC} {secret : String}

theorem rotateChallengeUnlockProof_plays (challengeID : Int) : (kind.store.roles hmac secret).Plays
    (kind.store.rotateChallengeUnlockProof challengeID) .idle
      fun _ => (kind.store.roles hmac secret).ended := by
  cases kind with
  | memory =>
    refine (rotates_plays MemoryStore.unlockStore_lawful rfl).weaken ?_
    rintro (err | ⟨⟨⟩⟩) new hnew
    · obtain rfl : new = .idle := hnew
      exact nofun
    · obtain rfl : new = .idle := hnew.trans (if_pos rfl)
      exact nofun
  | postgres =>
    refine .bind (rotates_plays PlayDatabase.unlockStore_lawful rfl) ?_
    rintro (err | ⟨⟨⟩⟩) new hnew
    · obtain rfl : new = .idle := hnew
      exact .pure nofun
    · obtain rfl : new = .clearing challengeID := hnew
      refine (clears_plays PlayDatabase.unlockStore_lawful rfl rfl).weaken ?_
      rintro _ _ rfl
      exact nofun

theorem setChallengeMaintenance_plays (challengeID : Int) (maintenance : Bool) (now : Time) :
    (kind.store.roles hmac secret).Plays
      (kind.store.setChallengeMaintenance challengeID maintenance now) .idle
      fun _ => (kind.store.roles hmac secret).ended := by
  cases kind with
  | memory =>
    cases maintenance with
    | true =>
      refine (rotates_plays MemoryStore.unlockStore_lawful rfl).weaken ?_
      rintro (err | ⟨⟨⟩⟩) new hnew
      · obtain rfl : new = .idle := hnew
        exact nofun
      · obtain rfl : new = .idle := hnew.trans (if_pos rfl)
        exact nofun
    | false =>
      refine (statement_plays MemoryStore.unlockStore_lawful rfl).weaken ?_
      rintro _ _ rfl
      exact nofun
  | postgres =>
    have hst := PlayDatabase.unlockStore_lawful
    cases maintenance with
    | true =>
      refine .bind (rotates_plays PlayDatabase.unlockStore_lawful rfl) ?_
      rintro (err | ⟨⟨⟩⟩) new hnew
      · obtain rfl : new = .idle := hnew
        exact .pure nofun
      · obtain rfl : new = .clearing challengeID := hnew
        refine (clears_plays hst rfl rfl).weaken ?_
        rintro _ _ rfl
        exact nofun
    | false =>
      refine .bind (reads_plays fun _ _ => ⟨_, rfl⟩) ?_
      rintro (err | currentTick) _ rfl
      · exact .pure nofun
      refine .bind (statement_plays hst rfl) ?_
      rintro (err | ⟨⟨⟩⟩) _ rfl
      · exact .pure nofun
      · refine (statement_plays hst rfl).weaken ?_
        rintro _ _ rfl
        exact nofun

theorem unlock_admits : (kind.store.roles hmac secret).Admits (fun _ _ => False)
    (kind.store.handler hmac secret) := by
  intro request s roles h
  refine ⟨.idle, ⟨fun k hk => ?_, fun role hmem => ?_⟩, ?_⟩
  · exact (h.sound k hk).imp id (List.mem_append_left _)
  · rcases List.mem_append.mp hmem with hmem | hmem
    · exact h.holds role hmem
    · rw [List.mem_singleton.mp hmem]
      trivial
  · cases request with
    | unlock k body => exact (handleUnlock_plays kind.lawful body).toThread
    | rotateChallengeUnlockProof challengeID =>
      exact (rotateChallengeUnlockProof_plays kind challengeID).toThread
    | setChallengeMaintenance challengeID maintenance now =>
      exact (setChallengeMaintenance_plays kind challengeID maintenance now).toThread

end Requests

/-- In a run in which no unlock is overtaken by a rotation and no rotation breaks off before it has
locked the services, a service that is unlocked while no request is in progress was unlocked with a
proof of the current epoch. -/
theorem unlocked_by_current_proof (hmac : MAC) (secret : String) (kind : StoreKind)
    {s : UnlockState kind.Tables} (hs : kind.store.Sound hmac secret s)
    {ls : List (Label UnlockRequest UnlockInput)}
    (hls : (Machine.boot s).RunAllowed kind.store.sem (kind.store.handler hmac secret)
      kind.store.NotOvertaken ls)
    (hdone :
      ∀ t ∈ ((Machine.boot s).run kind.store.sem (kind.store.handler hmac secret) ls).threads,
        t = .done) :
    kind.store.Sound hmac secret
      ((Machine.boot s).run kind.store.sem (kind.store.handler hmac secret) ls).shared := by
  let C := kind.store.roles hmac secret
  have hboot : C.Staged (fun _ _ => False) (Machine.boot s) [] :=
    ⟨⟨fun k hk => .inl (hs k hk), nofun⟩, .nil⟩
  rcases hboot.run (unlock_admits kind) hls with
    ⟨-, -, -, -, -, -, -, -, -, -, hexit⟩ | ⟨roles, hstaged, -⟩
  · exact hexit.elim
  intro k hk
  refine (hstaged.inv.sound k hk).resolve_right fun hmem => ?_
  obtain ⟨i, hi⟩ := List.mem_iff_getElem?.mp hmem
  -- a thread that has still to lock the services is not done
  obtain ⟨t, ht, hfollows⟩ := forall₂_getElem? hstaged.follows.flip hi
  obtain rfl := hdone t (List.mem_of_getElem? ht)
  exact hfollows.ended k.2 rfl

/-- The chat service of the first team is ready. -/
def chatReady : PlayDatabase where
  teams := [{ id := 101, name := "Team Delta" }]
  challenges := [{ id := 2, name := "chat", published := true }]
  teamServiceStates := [defaultServiceStateForConfig 2 101 "chat" 10002 2]
  serviceInstances :=
    [{ (RuntimeConfig.mk 2 "chat" "" "" 10002 2).instanceFor 101 none "token" none with
    runtimeStatus := .ready }]
  gameMatchState := some .running
  teams_key := by decide
  challenges_key := by decide
  teamServiceStates_key := by decide
  serviceInstances_key := by decide
  gameTicks_pos := by decide

/-- The machine on this database after a schedule, with the secret of the local set-up. -/
def runChat (ls : List (Label UnlockRequest UnlockInput)) :
    Machine (UnlockState StoreKind.postgres.Tables) UnlockOp UnlockOp.Res :=
  (Machine.boot { store := chatReady }).run StoreKind.postgres.store.sem
    (StoreKind.postgres.store.handler UnlockProof.localSignature "dev-unlock-secret") ls

/-- The proof of team 101 for the chat challenge. -/
def chatProof (epoch : Int) : Option String :=
  some (UnlockProof.issue UnlockProof.localSignature "dev-unlock-secret" 101 2 epoch)

/-- One request after the other: the service is unlocked, locked by a rotation and unlocked
again. -/
def unlockedAgain : List (Label UnlockRequest UnlockInput) :=
  .arrive (.unlock (101, 2) (chatProof 1)) :: List.replicate 8 (.step 0 {}) ++
    .arrive (.rotateChallengeUnlockProof 2) :: List.replicate 2 (.step 1 {}) ++
    .arrive (.unlock (101, 2) (chatProof 2)) :: List.replicate 8 (.step 2 {})

theorem unlocked_by_current_proof_again :
    StoreKind.postgres.store.unlocked (101, 2) (runChat unlockedAgain).shared.store = true ∧
      StoreKind.postgres.store.Proven UnlockProof.localSignature "dev-unlock-secret"
        (runChat unlockedAgain).shared (101, 2) := by
  have hunlocked :
      StoreKind.postgres.store.unlocked (101, 2) (runChat unlockedAgain).shared.store = true := by
    decide +kernel
  have hlocked : StoreKind.postgres.store.Sound UnlockProof.localSignature "dev-unlock-secret"
      { store := chatReady } := by
    intro k hk
    obtain ⟨tss, hmem, htss⟩ := List.any_eq_true.mp hk
    rw [List.mem_singleton.mp hmem] at htss
    cases (Bool.and_eq_true_iff.mp htss).2
  have hallowed : (Machine.boot { store := chatReady }).RunAllowed StoreKind.postgres.store.sem
      (StoreKind.postgres.store.handler UnlockProof.localSignature "dev-unlock-secret")
      StoreKind.postgres.store.NotOvertaken unlockedAgain := by decide +kernel
  have hdone : ∀ t ∈ (runChat unlockedAgain).threads, t = .done := by decide +kernel
  have hsound : StoreKind.postgres.store.Sound UnlockProof.localSignature "dev-unlock-secret"
      (runChat unlockedAgain).shared := unlocked_by_current_proof UnlockProof.localSignature
    "dev-unlock-secret" .postgres hlocked hallowed hdone
  exact ⟨hunlocked, hsound (101, 2) hunlocked⟩

/-- The proofs are rotated between the check of the proof and the unlock. -/
theorem unlocked_by_old_proof :
    let m := runChat (.arrive (.unlock (101, 2) (chatProof 1)) :: List.replicate 5 (.step 0 {}) ++
      .arrive (.rotateChallengeUnlockProof 2) :: List.replicate 2 (.step 1 {}) ++
      List.replicate 3 (.step 0 {}))
    (∀ t ∈ m.threads, t = .done) ∧
      ¬StoreKind.postgres.store.Sound UnlockProof.localSignature "dev-unlock-secret" m.shared := by
  intro m
  refine ⟨by decide +kernel, fun hsound => ?_⟩
  obtain ⟨epoch, proof, hepoch, hmem, -⟩ := hsound (101, 2) (by decide +kernel)
  have hverified : m.shared.verified.map (·.2.1) = [1] := by decide +kernel
  have hcurrent : StoreKind.postgres.store.epoch none 2 m.shared.store = .ok 2 := by decide +kernel
  have hone : epoch ∈ m.shared.verified.map (·.2.1) := List.mem_map_of_mem hmem
  rw [hverified] at hone
  obtain rfl := List.mem_singleton.mp hone
  cases hepoch.symm.trans hcurrent

end ADPlatform.APIGateway
