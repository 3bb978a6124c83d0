import ADPlatform.APIGateway.Fleet
import Mathlib

/-! # The names of containers and volumes

The container of an instance and its volume are named after the slug of its challenge and after its
team. The slug is not unique, so neither are the names; `SlugsApart` is what makes them so. -/

namespace ADPlatform.APIGateway
open Text

/-! ## Reading a name back -/

/-- The last separator splits a list in one way. -/
theorem append_cons_inj {α : Type} {sep : α} {l l' w w' : List α} (hw : sep ∉ w) (hw' : sep ∉ w')
    (h : l ++ sep :: w = l' ++ sep :: w') : l = l' ∧ w = w' := by
  rcases List.append_eq_append_iff.mp h with ⟨a, rfl, ha⟩ | ⟨a, rfl, ha⟩
  · cases a with
    | nil =>
      obtain ⟨-, rfl⟩ := List.cons.inj ha
      exact ⟨(List.append_nil l).symm, rfl⟩
    | cons x a =>
      obtain ⟨-, rfl⟩ := List.cons.inj ha
      exact absurd (List.mem_append_right a (.head _)) hw
  · cases a with
    | nil =>
      obtain ⟨-, rfl⟩ := List.cons.inj ha
      exact ⟨List.append_nil l', rfl⟩
    | cons x a =>
      obtain ⟨-, rfl⟩ := List.cons.inj ha
      exact absurd (List.mem_append_right a (.head _)) hw'

theorem dash_notMem_repr (n : Nat) : '-' ∉ n.repr.toList := by
  intro h
  rw [Nat.toList_repr] at h
  exact absurd (Nat.isDigit_of_mem_toDigits (by decide) (by decide) h) (by decide)

/-- The sign of a number is a dash, too. -/
theorem append_repr (l : List Char) (n : Int) : l ++ '-' :: n.repr.toList =
    (if 0 ≤ n then l else l ++ ['-']) ++ '-' :: n.natAbs.repr.toList := by
  rw [Int.repr_eq_if]
  split
  · rename_i h
    have habs : n.toNat = n.natAbs := by omega
    rw [habs]
  · rename_i h
    have habs : (-n).toNat = n.natAbs := by omega
    rw [habs, String.toList_append]
    simp

/-- A text that ends in a letter and a dash with a number behind it. -/
theorem append_repr_inj {l l' : List Char} {c : Char} (hc : c ≠ '-') {n n' : Int}
    (h : (l ++ [c]) ++ '-' :: n.repr.toList = (l' ++ [c]) ++ '-' :: n'.repr.toList) :
    l = l' ∧ n = n' := by
  rw [append_repr, append_repr] at h
  obtain ⟨hl, habs⟩ := append_cons_inj (dash_notMem_repr _) (dash_notMem_repr _) h
  have hnat : n.natAbs = n'.natAbs := Nat.repr_injective (String.toList_injective habs)
  have hlast : ∀ l l' : List Char, l ++ [c] ≠ l' ++ [c] ++ ['-'] := by
    intro l l' h
    exact hc (List.append_inj_right' h rfl |> List.singleton_inj.mp)
  split at hl
  · split at hl
    · refine ⟨List.append_inj_left' hl rfl, ?_⟩
      omega
    · exact absurd hl (hlast _ _)
  · split at hl
    · exact absurd hl.symm (hlast _ _)
    · refine ⟨List.append_inj_left' (List.append_inj_left' hl rfl) rfl, ?_⟩
      omega

/-- A container name tells the slug and the team apart. -/
theorem serviceContainerName_inj {name name' : String} {teamID teamID' : Int} :
    serviceContainerName name teamID = serviceContainerName name' teamID' ↔
      slugName name = slugName name' ∧ teamID = teamID' := by
  constructor
  · intro h
    have hlist := congrArg String.toList h
    simp only [serviceContainerName, String.toList_append] at hlist
    have hteam : "-team-".toList = "-tea".toList ++ ['m'] ++ ['-'] := by decide
    rw [hteam] at hlist
    have hinj : "svc-".toList ++ (slugName name).toList ++ "-tea".toList =
        "svc-".toList ++ (slugName name').toList ++ "-tea".toList ∧ teamID = teamID' := by
      refine append_repr_inj (c := 'm') (by decide) ?_
      simpa only [List.append_assoc, List.cons_append, List.nil_append] using hlist
    refine ⟨String.toList_injective ?_, hinj.2⟩
    exact List.append_cancel_left (List.append_cancel_right hinj.1)
  · rintro ⟨hslug, rfl⟩
    rw [serviceContainerName, hslug, serviceContainerName]

theorem serviceStateVolumeName_eq (name : String) (teamID : Int) :
    serviceStateVolumeName name teamID = serviceContainerName name teamID ++ "-state" := rfl

theorem serviceStateVolumeName_inj {name name' : String} {teamID teamID' : Int} :
    serviceStateVolumeName name teamID = serviceStateVolumeName name' teamID' ↔
      slugName name = slugName name' ∧ teamID = teamID' := by
  rw [serviceStateVolumeName_eq, serviceStateVolumeName_eq, ← serviceContainerName_inj]
  constructor
  · intro h
    have hlist := congrArg String.toList h
    rw [String.toList_append, String.toList_append] at hlist
    exact String.toList_injective (List.append_cancel_right hlist)
  · intro h
    rw [h]

namespace MemoryStore
variable {T : CaseTable} {s t : MemoryStore} {k : ServiceKey}

/-- No two instances share a container or a volume. -/
def NamesApart (s : MemoryStore) : Prop :=
  ∀ k k' i i', s.instances.lookup k = some i → s.instances.lookup k' = some i' → k ≠ k' →
    i.containerName ≠ i'.containerName ∧ i.stateVolume ≠ i'.stateVolume

/-- A new instance gets a slug that no other instance of its team has. The loops make an instance at
each of their visits, up to the first read of the random source that fails. -/
def slugFree (T : CaseTable) (s : MemoryStore) : MemoryCall → Prop
  | .deployAdminChallenge c input => ∀ challenge m, s.challenges.lookup c = some challenge →
    input.TokensEnd 0 (s.teamOrder input.rt).length m → ∀ team ∈ (s.teamOrder input.rt).take m,
      ∀ c' i, c' ≠ c → s.instances.lookup (team, c') = some i →
        slugName i.challengeName ≠ slugName challenge.name
  | .createAdminTeam request input => ∀ id joinKey m, CreatesTeam T request input s id joinKey →
    input.TokensEnd 1 (s.publishedChallenges input.rt).length m →
      ∀ e ∈ (s.publishedChallenges input.rt).take m, ∀ e' ∈ (s.publishedChallenges input.rt).take m,
        e.1 ≠ e'.1 → slugName e.2.name ≠ slugName e'.2.name
  | _ => True

/-! ## Names and slugs -/

/-- An instance is named after its challenge and its team. -/
def Named (s : MemoryStore) : Prop :=
  ∀ k p, s.place k = some p → p.containerName = serviceContainerName p.challengeName k.1 ∧
    p.stateVolume = serviceStateVolumeName p.challengeName k.1

/-- The instances of a team differ in their slugs. -/
def SlugsApart (s : MemoryStore) : Prop :=
  ∀ team c c' p p', s.place (team, c) = some p → s.place (team, c') = some p' → c ≠ c' →
    slugName p.challengeName ≠ slugName p'.challengeName

theorem namesApart_iff (hs : s.Named) : s.NamesApart ↔ s.SlugsApart := by
  constructor
  · intro h team c c' p p' hp hp' hne hslug
    obtain ⟨i, hi, rfl⟩ := Option.map_eq_some_iff.mp hp
    obtain ⟨i', hi', rfl⟩ := Option.map_eq_some_iff.mp hp'
    refine (h (team, c) (team, c') i i' hi hi' fun heq => hne (congrArg Prod.snd heq)).1 ?_
    have hname := (hs _ _ hp).1.trans ((serviceContainerName_inj.mpr ⟨hslug, rfl⟩).trans
      (hs _ _ hp').1.symm)
    exact hname
  · intro h k k' i i' hi hi' hne
    have hp : s.place k = some i.placement := by rw [place, hi, Option.map_some]
    have hp' : s.place k' = some i'.placement := by rw [place, hi', Option.map_some]
    have hslug : ¬(slugName i.challengeName = slugName i'.challengeName ∧ k.1 = k'.1) := by
      rintro ⟨hslug, hteam⟩
      refine h k.1 k.2 k'.2 i.placement i'.placement hp ?_ (fun hc => hne (Prod.ext hteam hc)) hslug
      rw [hteam]
      exact hp'
    constructor
    · intro hname
      refine hslug (serviceContainerName_inj.mp ?_)
      exact (hs k _ hp).1.symm.trans (hname.trans (hs k' _ hp').1)
    · intro hname
      refine hslug (serviceStateVolumeName_inj.mp ?_)
      exact (hs k _ hp).2.symm.trans (hname.trans (hs k' _ hp').2)

/-- The names that an instance has from its first day on. -/
def SameNames (old p : Placement) : Prop :=
  p.challengeName = old.challengeName ∧ p.containerName = old.containerName ∧
    p.stateVolume = old.stateVolume

/-- Instances keep their names, or go. -/
def NamesKept (s t : MemoryStore) : Prop :=
  ∀ k p, t.place k = some p → ∃ old, s.place k = some old ∧ SameNames old p

theorem Named.kept (hs : s.Named) (h : NamesKept s t) : t.Named := by
  intro k p hp
  obtain ⟨old, hold, hchallenge, hcontainer, hvolume⟩ := h k p hp
  rw [hchallenge, hcontainer, hvolume]
  exact hs k old hold

theorem SlugsApart.kept (hs : s.SlugsApart) (h : NamesKept s t) : t.SlugsApart := by
  intro team c c' p p' hp hp' hne
  obtain ⟨old, hold, hchallenge, -⟩ := h _ p hp
  obtain ⟨old', hold', hchallenge', -⟩ := h _ p' hp'
  rw [hchallenge, hchallenge']
  exact hs team c c' old old' hold hold' hne

/-- The instances of a store after a call: those of before, and where it makes new ones, these. -/
inductive NamesStep (T : CaseTable) (s t : MemoryStore) : MemoryCall → Prop
  | kept {call} (h : NamesKept s t) (hfree : s.slugFree T call) : NamesStep T s t call
  | created {request input id joinKey m} (h : CreatesTeam T request input s id joinKey)
      (htokens : input.TokensEnd 1 (s.publishedChallenges input.rt).length m)
      (hjoined : ∀ e ∈ (s.publishedChallenges input.rt).take m,
        t.place (id, e.1) = some (e.2.placed id none))
      (hothers : ∀ k, (k.1 = id → k.2 ∉ ((s.publishedChallenges input.rt).take m).map (·.1)) →
        t.place k = s.without (·.1 = id) k) : NamesStep T s t (.createAdminTeam request input)
  | deployed {c input challenge job m} (h : s.challenges.lookup c = some challenge)
      (htokens : input.TokensEnd 0 (s.teamOrder input.rt).length m)
      (hplace : t.place = fun k => if k.2 = c ∧ k.1 ∈ (s.teamOrder input.rt).take m
        then some (challenge.placed k.1 job) else s.place k) :
      NamesStep T s t (.deployAdminChallenge c input)

theorem not_onFleet_slugFree {call : MemoryCall} (h : s.onFleet call = false) :
    s.slugFree T call := by
  cases call with
  | createAdminTeam => cases h
  | deployAdminChallenge c input =>
    intro challenge m hc
    rw [onFleet, hc] at h
    cases h
  | _ => trivial

theorem namesStep_of_fleetStep {call : MemoryCall} {f : Fleet} (h : FleetStep T s call f)
    (hf : t.fleet = f) : NamesStep T s t call := by
  have hplace : t.place = f.place := by
    rw [← hf]
    rfl
  have hsame : t.place = s.place → NamesKept s t := fun heq k p hp =>
    ⟨p, heq ▸ hp, rfl, rfl, rfl⟩
  have hwithout : ∀ {which}, t.place = s.without which → NamesKept s t := by
    intro which heq k p hp
    rw [heq, without] at hp
    split at hp
    · cases hp
    · exact ⟨p, hp, rfl, rfl, rfl⟩
  have hrestatus : ∀ {which status}, t.place = s.restatus which status → NamesKept s t := by
    intro which status heq k p hp
    rw [heq, restatus] at hp
    obtain ⟨old, hold, rfl⟩ := Option.map_eq_some_iff.mp hp
    refine ⟨old, hold, ?_⟩
    split <;> exact ⟨rfl, rfl, rfl⟩
  cases h with
  | unchanged hcall => exact .kept (hsame hplace) (not_onFleet_slugFree hcall)
  | createRejected hrejected =>
    exact .kept (hsame hplace) fun id joinKey _ h => absurd h (hrejected id joinKey)
  | deploymentKept => exact .kept (hsame hplace) trivial
  | created h htokens hjoined hothers =>
    dsimp only at hplace
    rw [← hplace] at hjoined hothers
    exact .created h htokens hjoined hothers
  | deployed h hteams htokens =>
    have hstep :=
      NamesStep.deployed (T := T) (t := t) h htokens (by rw [List.take_length]; exact hplace)
    exact hstep
  | @deployedNowhere c input challenge h hteams =>
    refine .kept (hsame hplace) fun challenge m _ _ team hteam => ?_
    rw [hteams, List.take_nil] at hteam
    cases hteam
  | deployFailed h hm htokens => exact .deployed h htokens hplace
  | teamDeleted | challengeDeleted => exact .kept (hwithout hplace) trivial
  | stopped | reconciled | teamRequeued | challengeRequeued =>
    exact .kept (hrestatus hplace) trivial
  | deploymentDeleted =>
    refine .kept (fun k p hp => ?_) trivial
    rw [hplace] at hp
    obtain ⟨old, hold, rfl⟩ := Option.map_eq_some_iff.mp hp
    refine ⟨old, hold, ?_⟩
    split <;> exact ⟨rfl, rfl, rfl⟩

/-- A service of a new team has an instance of one of the challenges that the team has joined. -/
theorem exists_joined {challenges : List (Int × AdminChallenge)} {id : Int}
    (hjoined : ∀ e ∈ challenges, t.place (id, e.1) = some (e.2.placed id none))
    (hothers : ∀ k, (k.1 = id → k.2 ∉ challenges.map (·.1)) → t.place k = s.without (·.1 = id) k)
    {k : ServiceKey} {p : Placement} (hp : t.place k = some p) :
    k.1 = id ∧ (∃ e ∈ challenges, e.1 = k.2 ∧ p = e.2.placed id none) ∨
      k.1 ≠ id ∧ s.place k = some p := by
  by_cases hk : k.1 = id
  · refine .inl ⟨hk, ?_⟩
    by_cases hc : k.2 ∈ challenges.map (·.1)
    · obtain ⟨e, he, heq⟩ := List.mem_map.mp hc
      have hplaced := hjoined e he
      rw [heq, ← hk, hp] at hplaced
      exact ⟨e, he, heq, by rw [← hk]; exact Option.some.inj hplaced⟩
    · rw [hothers k fun _ => hc, without, if_pos (decide_eq_true hk)] at hp
      cases hp
  · rw [hothers k fun h => absurd h hk, without, if_neg (by simpa using hk)] at hp
    exact .inr ⟨hk, hp⟩

theorem named_step {call : MemoryCall} (hs : s.Named) (h : NamesStep T s t call) : t.Named := by
  cases h with
  | kept h => exact hs.kept h
  | created h htokens hjoined hothers =>
    intro k p hp
    rcases exists_joined hjoined hothers hp with ⟨hk, e, -, -, rfl⟩ | ⟨-, hp⟩
    · rw [hk]
      exact ⟨rfl, rfl⟩
    · exact hs k p hp
  | deployed h htokens hplace =>
    intro k p hp
    rw [hplace] at hp
    dsimp only at hp
    split at hp
    · cases hp
      exact ⟨rfl, rfl⟩
    · exact hs k p hp

theorem slugsApart_created (hs : s.SlugsApart) {request : AdminCreateTeamRequest}
    {input : StoreInput}
    {id : Int} {joinKey : String} {m : Nat} (h : CreatesTeam T request input s id joinKey)
    (htokens : input.TokensEnd 1 (s.publishedChallenges input.rt).length m)
    (hjoined : ∀ e ∈ (s.publishedChallenges input.rt).take m,
      t.place (id, e.1) = some (e.2.placed id none))
    (hothers : ∀ k, (k.1 = id → k.2 ∉ ((s.publishedChallenges input.rt).take m).map (·.1)) →
      t.place k = s.without (·.1 = id) k) :
    t.SlugsApart ↔ s.slugFree T (.createAdminTeam request input) := by
  constructor
  · intro ht id' joinKey' m' h' htokens' e he e' he' hne
    obtain rfl : m' = m := htokens'.unique htokens
    have hapart := ht id e.1 e'.1 _ _ (hjoined e he) (hjoined e' he') hne
    exact hapart
  · intro hfree team c c' p p' hp hp' hne
    rcases exists_joined hjoined hothers hp with ⟨hk, e, he, rfl, rfl⟩ | ⟨hk, hp⟩
    · rcases exists_joined hjoined hothers hp' with ⟨-, e', he', rfl, rfl⟩ | ⟨hk', -⟩
      · exact hfree id joinKey m h htokens e he e' he' hne
      · exact absurd hk hk'
    · rcases exists_joined hjoined hothers hp' with ⟨hk', -⟩ | ⟨-, hp'⟩
      · exact absurd hk' hk
      · exact hs team c c' p p' hp hp' hne

theorem slugsApart_deployed (hs : s.SlugsApart) {c : Int} {input : StoreInput}
    {challenge : AdminChallenge} {job : Option Int} {m : Nat}
    (h : s.challenges.lookup c = some challenge)
    (htokens : input.TokensEnd 0 (s.teamOrder input.rt).length m)
    (hplace : t.place = fun k => if k.2 = c ∧ k.1 ∈ (s.teamOrder input.rt).take m
      then some (challenge.placed k.1 job) else s.place k) :
    t.SlugsApart ↔ s.slugFree T (.deployAdminChallenge c input) := by
  constructor
  · intro ht challenge' m' h' htokens' team hteam c' i hne hi
    cases h.symm.trans h'
    obtain rfl : m' = m := htokens'.unique htokens
    refine ht team c' c i.placement (challenge.placed team job) ?_ ?_ hne
    · rw [hplace]
      refine (if_neg fun hk => hne hk.1).trans ?_
      rw [place, hi, Option.map_some]
    · rw [hplace]
      exact if_pos ⟨rfl, hteam⟩
  · intro hfree team c₁ c₂ p₁ p₂ hp₁ hp₂ hne
    -- a new instance beside one of before
    have hnew : ∀ {c' p}, team ∈ (s.teamOrder input.rt).take m → c' ≠ c →
      s.place (team, c') = some p →
        slugName p.challengeName ≠ slugName challenge.name := by
      intro c' p hteam hc' hp
      obtain ⟨i, hi, rfl⟩ := Option.map_eq_some_iff.mp hp
      exact hfree challenge m h htokens team hteam c' i hc' hi
    rw [hplace] at hp₁ hp₂
    dsimp only at hp₁ hp₂
    split at hp₁
    · rename_i hk₁
      cases hp₁
      rw [if_neg fun hk₂ => hne (hk₁.1.trans hk₂.1.symm)] at hp₂
      exact (hnew hk₁.2 (fun hc => hne (hk₁.1.trans hc.symm)) hp₂).symm
    · split at hp₂
      · rename_i hk₁ hk₂
        cases hp₂
        exact hnew hk₂.2 (fun hc => hk₁ ⟨hc, hk₂.2⟩) hp₁
      · exact hs team c₁ c₂ p₁ p₂ hp₁ hp₂ hne

theorem slugsApart_step {call : MemoryCall} (hs : s.SlugsApart) (h : NamesStep T s t call) :
    t.SlugsApart ↔ s.slugFree T call := by
  cases h with
  | kept h hfree => exact iff_of_true (hs.kept h) hfree
  | created h htokens hjoined hothers => exact slugsApart_created hs h htokens hjoined hothers
  | deployed h htokens hplace => exact slugsApart_deployed hs h htokens hplace

theorem namesStep_exec (T : CaseTable) (call : MemoryCall) (s : MemoryStore) :
    NamesStep T s (s.exec T call) call :=
  namesStep_of_fleetStep (fleetStep_exec T call s) rfl

theorem named_initial (h : s.Initial) : s.Named := by
  intro k p hp
  obtain ⟨-, now, c, -, -, rfl⟩ := (fleet_initial h).2 k p hp
  exact ⟨rfl, rfl⟩

theorem seedChallenges_slugs (now now' : GameCore.Time) {c c' : AdminChallenge}
    (hc : c ∈ seedChallenges now) (hc' : c' ∈ seedChallenges now') (hne : c.id ≠ c'.id) :
    slugName c.name ≠ slugName c'.name := by
  have hnames : ∀ {now c}, c ∈ seedChallenges now →
      (c.id, c.name) ∈ [((1 : Int), "banking"), (2, "chat"), (3, "storage")] := by
    intro now c hc
    simp only [seedChallenges, List.mem_cons, List.not_mem_nil, or_false] at hc
    rcases hc with rfl | rfl | rfl <;> simp [seedChallenge]
  have hnodup :
      ([((1 : Int), "banking"), (2, "chat"), (3, "storage")].map fun x => slugName x.2).Nodup := by
    decide +kernel
  intro hslug
  exact hne (congrArg Prod.fst (List.inj_on_of_nodup_map hnodup (hnames hc) (hnames hc') hslug))

theorem slugsApart_initial (h : s.Initial) : s.SlugsApart := by
  intro team c c' p p' hp hp' hne
  obtain ⟨-, now, challenge, hmem, hc, rfl⟩ := (fleet_initial h).2 _ p hp
  obtain ⟨-, now', challenge', hmem', hc', rfl⟩ := (fleet_initial h).2 _ p' hp'
  refine seedChallenges_slugs now now' hmem hmem' fun heq => hne ?_
  exact hc.trans (heq.trans hc'.symm)

/-- In every state of a run no two instances share a name, exactly if every new instance gets a slug
that its team does not have yet. -/
theorem namesApart_runs_iff (T : CaseTable) (hs : s.Initial) (calls : List MemoryCall) :
    Runs.Always (exec T) NamesApart s calls ↔
      Runs.EachCall (exec T) (fun call s => s.slugFree T call) s calls := by
  have hnamed := named_initial hs
  refine Runs.always_iff_eachCall hnamed ((namesApart_iff hnamed).mpr (slugsApart_initial hs))
    (fun call s h => named_step h (namesStep_exec T call s)) fun call s hs h => ?_
  have hstep := namesStep_exec T call s
  rw [namesApart_iff (named_step hs hstep)]
  exact slugsApart_step ((namesApart_iff hs).mp h) hstep

end MemoryStore

end ADPlatform.APIGateway
