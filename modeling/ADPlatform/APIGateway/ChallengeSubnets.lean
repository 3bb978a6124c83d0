import ADPlatform.APIGateway.MemoryAddresses
import ADPlatform.Lib.Concurrent

/-! # The subnets of new challenges

`CreateAdminChallenge` of the postgres store asks whether the third octet of the new services is
taken and inserts the row in a later statement. The migrations declare the ids and the names of
challenges unique, and nothing of the octets. -/

namespace ADPlatform.APIGateway
open GameCore (Time)
open Concurrent Net Text

/-! ## The tables -/

/-- The tables with the constraints that the migrations declare. -/
structure SubnetTables where
  challenges : List AdminChallenge := []
  teams : List Int := []
  challengesSeq : Int := 1
  challenges_key : (challenges.map (·.id)).Nodup := by decide
  challenges_name : (challenges.map (·.name)).Nodup := by decide
  teams_key : teams.Nodup := by decide

theorem nodup_map_concat {α β : Type} {f : α → β} {l : List α} {a : α} (h : (l.map f).Nodup)
    (ha : f a ∉ l.map f) : ((l ++ [a]).map f).Nodup := by
  rw [List.map_append, List.map_singleton]
  exact List.nodup_append.mpr ⟨h, List.nodup_singleton _, fun b hb c hc => by
    rw [List.mem_singleton.mp hc]
    exact fun heq => ha (heq ▸ hb)⟩

namespace SubnetTables

/-- `INSERT INTO challenges`. -/
def insertChallenge (db : SubnetTables) (challenge : AdminChallenge) : Except String SubnetTables :=
  if hid : challenge.id ∈ db.challenges.map (·.id) then
    .error
      "ERROR: duplicate key value violates unique constraint \"challenges_pkey\" (SQLSTATE 23505)"
  else if hname : challenge.name ∈ db.challenges.map (·.name) then
    .error "ERROR: duplicate key value violates unique constraint \"challenges_name_key\" (SQLSTATE 23505)"
  else .ok { db with
    challenges := db.challenges ++ [challenge]
    challenges_key := nodup_map_concat db.challenges_key hid
    challenges_name := nodup_map_concat db.challenges_name hname }

/-- `allocateTeamNetworkIDTx` and the `INSERT INTO teams` after it, which its lock makes one
step. -/
def createTeam (db : SubnetTables) : Except StoreError SubnetTables :=
  match h : teamNetworkIDs.find? (· ∉ db.teams) with
  | none => .error .teamAddressPool
  | some id => .ok { db with
    teams := db.teams ++ [id]
    teams_key := by
      have hid : id ∉ db.teams := by simpa using List.find?_some h
      exact List.nodup_append.mpr ⟨db.teams_key, List.nodup_singleton _, fun b hb c hc => by
        rw [List.mem_singleton.mp hc]
        exact fun heq => hid (heq ▸ hb)⟩ }

end SubnetTables

/-! ## The programs -/

/-- `subnetTaken` answers too how many challenges it has seen, which the insert brings back. -/
inductive SubnetOp where
  | nameTaken (name : String)
  | nextID
  | subnetTaken (serviceSubnetOctet : Int)
  | insert (challenge : AdminChallenge) (seen : Nat)
  | countTeams
  | createTeam

/-- What each operation answers. -/
def SubnetOp.Res : SubnetOp → Type
  | nameTaken _ => Except String Bool
  | nextID => Except String Int
  | subnetTaken _ => Except String (Bool × Nat)
  | insert _ _ => Except String Unit
  | countTeams => Except String Nat
  | createTeam => Except StoreError Unit

open Proc in
/-- `postgresStore.CreateAdminChallenge`. -/
def createAdminChallenge (request : AdminCreateChallengeRequest) (now : Time) :
    Proc SubnetOp SubnetOp.Res (Except StoreError AdminChallenge) := do
  let name := trimSpace request.name
  if name = "" then pure (.error .duplicateResource)
  else match ← perform (SubnetOp.nameTaken name) with
  | .error message => pure (.error (.failure message))
  | .ok true => pure (.error .duplicateResource)
  | .ok false =>
    let images := defaultChallengeImages name
    let baselineImage := trimSpace request.baselineImage
    let checkerImage := trimSpace request.checkerImage
    match ← perform SubnetOp.nextID with
    | .error message => pure (.error (.failure message))
    | .ok id =>
      let servicePort :=
        if request.servicePort ≤ 0 then defaultServicePort id else request.servicePort
      let serviceSubnetOctet := if request.serviceSubnetOctet ≤ 0 then defaultServiceSubnetOctet id
        else request.serviceSubnetOctet
      match validateChallengeRuntimeConfig servicePort serviceSubnetOctet with
      | .error err => pure (.error err)
      | .ok () =>
        match ← perform (SubnetOp.subnetTaken serviceSubnetOctet) with
        | .error message => pure (.error (.failure message))
        | .ok (true, _) =>
          pure (.error (.invalidRuntimeConfig ("service_subnet_octet " ++ serviceSubnetOctet.repr ++
            " is already assigned to another challenge")))
        | .ok (false, seen) =>
          let challenge : AdminChallenge := {
            id, name
            baselineImage := if baselineImage = "" then images.1 else baselineImage
            checkerImage := if checkerImage = "" then images.2 else checkerImage
            servicePort, serviceSubnetOctet
            egressEnabled := request.egressEnabled.getD true
            published := false
            createdAt := now.formatRFC3339 }
          match ← perform (SubnetOp.insert challenge seen) with
          | .error message => pure (.error (.failure message))
          | .ok () =>
            match ← perform SubnetOp.countTeams with
            | .error message => pure (.error (.failure message))
            | .ok totalTeams => pure (.ok { challenge with totalTeams, runtimeStatus := "draft" })

/-- The requests that add to the tables. -/
inductive SubnetRequest where
  | createAdminChallenge (request : AdminCreateChallengeRequest) (now : Time)
  | createTeam

/-- The code that serves a request, as a thread of store operations. -/
def SubnetRequest.handler : SubnetRequest → Thread SubnetOp SubnetOp.Res
  | createAdminChallenge request now => (APIGateway.createAdminChallenge request now).toThread
  | createTeam => .call .createTeam fun _ => .done

/-! ## The runs -/

/-- `some message` is a statement that the database fails; `lower` is its `LOWER`. -/
def subnetSem (lower : String → String) :
    Semantics SubnetTables (Option String) SubnetOp SubnetOp.Res
  | none, .nameTaken name, db =>
    some (db, .ok (db.challenges.any fun c => lower c.name = lower name))
  | none, .nextID, db =>
    some ({ db with challengesSeq := db.challengesSeq + 1 }, .ok db.challengesSeq)
  | none, .subnetTaken serviceSubnetOctet, db =>
    some (db,
      .ok (db.challenges.any (·.serviceSubnetOctet = serviceSubnetOctet), db.challenges.length))
  | none, .insert challenge _, db =>
    match db.insertChallenge challenge with
    | .error message => some (db, .error message)
    | .ok db' => some (db', .ok ())
  | none, .countTeams, db => some (db, .ok db.teams.length)
  | none, .createTeam, db =>
    match db.createTeam with
    | .error err => some (db, .error err)
    | .ok db' => some (db', .ok ())
  | some message, .nameTaken _, db | some message, .nextID, db | some message, .subnetTaken _, db
  | some message, .insert _ _, db | some message, .countTeams, db => some (db, .error message)
  | some message, .createTeam, db => some (db, .error (.failure message))

/-- No challenge that came between the question for its octet and its insert has the octet. -/
def OctetFree : Option String → SubnetOp → SubnetTables → Prop
  | none, .insert challenge seen, db =>
    (db.insertChallenge challenge).isOk →
      ∀ c ∈ db.challenges.drop seen, c.serviceSubnetOctet ≠ challenge.serviceSubnetOctet
  | _, _, _ => True

instance : (input : Option String) → (op : SubnetOp) → (db : SubnetTables) →
    Decidable (OctetFree input op db)
  | none, .insert challenge seen, db =>
    inferInstanceAs (Decidable ((db.insertChallenge challenge).isOk →
      ∀ c ∈ db.challenges.drop seen, c.serviceSubnetOctet ≠ challenge.serviceSubnetOctet))
  | none, .nameTaken _, _ | none, .nextID, _ | none, .subnetTaken _, _ | none, .countTeams, _
  | none, .createTeam, _ | some _, _, _ => isTrue trivial

/-- Every service has an address of its own. -/
structure SubnetTables.Addressed (db : SubnetTables) : Prop where
  octet : ∀ c ∈ db.challenges, 0 < c.serviceSubnetOctet ∧ c.serviceSubnetOctet ≤ 254
  unique : (db.challenges.map (·.serviceSubnetOctet)).Nodup
  team : ∀ id ∈ db.teams, 101 ≤ id ∧ id ≤ 344

/-- Challenges are only added. -/
def SubnetTables.Extends (s t : SubnetTables) : Prop := s.challenges <+: t.challenges

/-- The contract of the subnet tables: every service has an address of its own, challenges are only
added, and whoever inserts one may suppose that its octet is free. -/
def subnetting (lower : String → String) :
    Contract SubnetTables (Option String) SubnetOp SubnetOp.Res where
  sem := subnetSem lower
  inv := SubnetTables.Addressed
  guar := SubnetTables.Extends
  rely := SubnetTables.Extends
  allowed := OctetFree
  guar_refl _ := List.prefix_rfl
  rely_refl _ := List.prefix_rfl
  rely_trans h h' := h.trans h'
  guar_rely h := h

variable {lower : String → String}

instance (input : Option String) (op : SubnetOp) (db : SubnetTables) :
    Decidable ((subnetting lower).allowed input op db) :=
  inferInstanceAs (Decidable (OctetFree input op db))

/-- Every operation but the insert. -/
theorem subnetting_keeps {op : SubnetOp} (hop : ∀ challenge seen, op ≠ .insert challenge seen) :
    (subnetting lower).Keeps op := by
  intro input s t r hs _ hsem
  have hsem : subnetSem lower input op s = some (t, r) := hsem
  cases op with
  | insert challenge seen => exact absurd rfl (hop challenge seen)
  | createTeam =>
    cases input with
    | some message =>
      obtain ⟨rfl, rfl⟩ := Prod.mk.inj (Option.some.inj hsem)
      exact ⟨hs, List.prefix_rfl⟩
    | none =>
      rw [subnetSem] at hsem
      split at hsem
      next =>
        obtain ⟨rfl, rfl⟩ := Prod.mk.inj (Option.some.inj hsem)
        exact ⟨hs, List.prefix_rfl⟩
      next db' hcreate =>
        obtain ⟨rfl, rfl⟩ := Prod.mk.inj (Option.some.inj hsem)
        unfold SubnetTables.createTeam at hcreate
        split at hcreate
        next => cases hcreate
        next id hid =>
          obtain rfl := Except.ok.inj hcreate
          refine ⟨⟨hs.octet, hs.unique, fun id' hid' => ?_⟩, List.prefix_rfl⟩
          rcases List.mem_append.mp hid' with hid' | hid'
          · exact hs.team id' hid'
          · rw [List.mem_singleton.mp hid']
            have hslots : ∀ id ∈ teamNetworkIDs, 101 ≤ id ∧ id ≤ 344 := by decide +kernel
            exact hslots id (List.mem_of_find?_eq_some hid)
  | nameTaken | nextID | subnetTaken | countTeams =>
    cases input with
    | some message =>
      obtain ⟨rfl, rfl⟩ := Prod.mk.inj (Option.some.inj hsem)
      exact ⟨hs, List.prefix_rfl⟩
    | none =>
      obtain ⟨rfl, rfl⟩ := Prod.mk.inj (Option.some.inj hsem)
      exact ⟨⟨hs.octet, hs.unique, hs.team⟩, List.prefix_rfl⟩

theorem validateChallengeRuntimeConfig_ok {servicePort serviceSubnetOctet : Int}
    (h : validateChallengeRuntimeConfig servicePort serviceSubnetOctet = .ok ()) :
    0 < serviceSubnetOctet ∧ serviceSubnetOctet ≤ 254 := by
  unfold validateChallengeRuntimeConfig at h
  split at h
  next => cases h
  next =>
  split at h
  next => cases h
  next => omega

/-- The answer is right at the moment of the question. -/
theorem subnetTaken_meets (db : SubnetTables) (serviceSubnetOctet : Int) :
    (subnetting lower).Meets (Proc.perform (SubnetOp.subnetTaken serviceSubnetOctet)) db fun r t =>
      ∀ seen, r = .ok (false, seen) → seen = t.challenges.length ∧
        ∀ c ∈ t.challenges, c.serviceSubnetOctet ≠ serviceSubnetOctet := by
  refine Contract.Meets.perform fun s input t r _ hs hal hsem => ?_
  obtain ⟨hinv, hguar⟩ := subnetting_keeps (by simp) input s t r hs hal hsem
  refine ⟨hinv, hguar, fun seen hr => ?_⟩
  have hsem : subnetSem lower input (.subnetTaken serviceSubnetOctet) s = some (t, r) := hsem
  subst hr
  cases input with
  | some message => cases (Prod.mk.inj (Option.some.inj hsem)).2
  | none =>
    obtain ⟨rfl, hr⟩ := Prod.mk.inj (Option.some.inj hsem)
    obtain ⟨hfree, rfl⟩ := Prod.mk.inj (Except.ok.inj hr)
    exact ⟨rfl, fun c hc => by simpa using List.any_eq_false.mp hfree c hc⟩

/-- The insert, some time after the question. -/
theorem insert_fine {db : SubnetTables} {challenge : AdminChallenge}
    (hfree : ∀ c ∈ db.challenges, c.serviceSubnetOctet ≠ challenge.serviceSubnetOctet)
    (hoctet : 0 < challenge.serviceSubnetOctet ∧ challenge.serviceSubnetOctet ≤ 254) :
    (subnetting lower).Fine (Proc.perform (SubnetOp.insert challenge db.challenges.length)) db := by
  refine Contract.Meets.perform fun s input t r hr hs hal hsem => ?_
  have hsem : subnetSem lower input (.insert challenge db.challenges.length) s = some (t, r) := hsem
  have hsame (ht : s = t) : t.Addressed ∧ s.Extends t ∧ True :=
    ⟨ht ▸ hs, ht ▸ List.prefix_rfl, trivial⟩
  cases input with
  | some message => exact hsame (Prod.mk.inj (Option.some.inj hsem)).1
  | none =>
    rw [subnetSem] at hsem
    split at hsem
    next => exact hsame (Prod.mk.inj (Option.some.inj hsem)).1
    next db' hinsert =>
      obtain ⟨rfl, -⟩ := Prod.mk.inj (Option.some.inj hsem)
      have hnot := hal (by rw [hinsert]; rfl)
      have hchallenges : db'.challenges = s.challenges ++ [challenge] ∧ db'.teams = s.teams := by
        unfold SubnetTables.insertChallenge at hinsert
        split at hinsert
        next => cases hinsert
        next =>
        split at hinsert
        next => cases hinsert
        next =>
        obtain rfl := Except.ok.inj hinsert
        exact ⟨rfl, rfl⟩
      obtain ⟨hchallenges, hteams⟩ := hchallenges
      -- the challenges of the question, and those that have come since
      have hnew : challenge.serviceSubnetOctet ∉ s.challenges.map (·.serviceSubnetOctet) := by
        obtain ⟨added, hadded⟩ := hr
        intro hmem
        obtain ⟨c, hc, heq⟩ := List.mem_map.mp hmem
        rw [← hadded, List.drop_left] at hnot
        rcases List.mem_append.mp (hadded ▸ hc) with hc | hc
        · exact hfree c hc heq
        · exact hnot c hc heq
      refine ⟨⟨fun c hc => ?_, ?_, hteams ▸ hs.team⟩, ?_, trivial⟩
      · rcases List.mem_append.mp (hchallenges ▸ hc) with hc | hc
        · exact hs.octet c hc
        · rw [List.mem_singleton.mp hc]
          exact hoctet
      · rw [hchallenges]
        exact nodup_map_concat hs.unique hnew
      · exact ⟨[challenge], hchallenges.symm⟩

theorem createAdminChallenge_fine (db : SubnetTables) (hdb : db.Addressed)
    (request : AdminCreateChallengeRequest) (now : Time) :
    (subnetting lower).Fine (createAdminChallenge request now) db := by
  have hfine {op : SubnetOp} (hop : ∀ challenge seen,
    op ≠ .insert challenge seen) (db : SubnetTables) :
      (subnetting lower).Fine (Proc.perform op) db := .perform (subnetting_keeps hop)
  unfold createAdminChallenge
  refine .ite (fun _ => .pure hdb) fun _ => ?_
  refine (hfine (by simp) db).bind fun taken t ht _ => ?_
  match taken with
  | .error _ | .ok true => exact .pure ht
  | .ok false =>
  refine (hfine (by simp) t).bind fun id u hu _ => ?_
  match id with
  | .error _ => exact .pure hu
  | .ok id =>
  dsimp only
  split
  next => exact .pure hu
  next hvalid =>
  refine (subnetTaken_meets u _).bind ?_
  rintro (message | ⟨_ | _, seen⟩) v hv _ htaken
  · exact Contract.Fine.pure hv
  · obtain ⟨rfl, hfree⟩ := htaken seen rfl
    have hoctet := validateChallengeRuntimeConfig_ok hvalid
    refine (insert_fine hfree hoctet).bind fun inserted w hw _ => ?_
    match inserted with
    | .error _ => exact Contract.Fine.pure hw
    | .ok () =>
      refine (hfine (by simp) w).bind fun count x hx _ => ?_
      match count with
      | .error _ | .ok _ => exact Contract.Fine.pure hx
  · exact Contract.Fine.pure hv

theorem subnetting_handles : (subnetting lower).Handles SubnetRequest.handler := by
  intro request db hdb
  cases request with
  | createAdminChallenge request now =>
    exact (createAdminChallenge_fine db hdb request now).toThread
  | createTeam => exact (Contract.Fine.perform (subnetting_keeps (by simp))).toThread

namespace SubnetTables
variable {db : SubnetTables} {c c' : AdminChallenge} {teamID teamID' : Int}

theorem Addressed.text (h : db.Addressed) (hc : c ∈ db.challenges) (ht : teamID ∈ db.teams) :
    ∃ ip : IPv4, ip.a = 10 ∧ ip.b = 80 ∧ 11 ≤ ip.d.val ∧ ip.d.val ≤ 254 ∧
      serviceIP c.serviceSubnetOctet teamID = ip.text := by
  have hteam := h.team teamID ht
  obtain ⟨ip, ha, hb, -, hd, hip⟩ := serviceIP_text (h.octet c hc) hteam
  exact ⟨ip, ha, hb, by omega, by omega, hip⟩

theorem Addressed.inj (h : db.Addressed) (hc : c ∈ db.challenges) (hc' : c' ∈ db.challenges)
    (ht : teamID ∈ db.teams) (ht' : teamID' ∈ db.teams)
    (heq : serviceIP c.serviceSubnetOctet teamID = serviceIP c'.serviceSubnetOctet teamID') :
    c = c' ∧ teamID = teamID' := by
  have hoctet := h.octet c hc
  have hoctet' := h.octet c' hc'
  have hteam := h.team teamID ht
  have hteam' := h.team teamID' ht'
  obtain ⟨ip, -, -, hthird, hd, hip⟩ := serviceIP_text hoctet hteam
  obtain ⟨ip', -, -, hthird', hd', hip'⟩ := serviceIP_text hoctet' hteam'
  obtain rfl : ip = ip' := IPv4.text_inj.mp (hip.symm.trans (heq.trans hip'))
  exact ⟨List.inj_on_of_nodup_map h.unique hc hc' (by omega), by omega⟩

end SubnetTables

/-- In a run in which no insert is overtaken by one with the same octet, the services of all
challenges and teams have different addresses, in the network of the services. -/
theorem service_addresses (lower : String → String) {db : SubnetTables} (hdb : db.Addressed)
    {ls : List (Label SubnetRequest (Option String))}
    (hls : (subnetting lower).RunAllowed SubnetRequest.handler (.boot db) ls) :
    let t := ((Machine.boot db).run (subnetSem lower) SubnetRequest.handler ls).shared
    (∀ c ∈ t.challenges, ∀ teamID ∈ t.teams, ∃ ip : IPv4, ip.a = 10 ∧ ip.b = 80 ∧ 11 ≤ ip.d.val ∧
      ip.d.val ≤ 254 ∧ serviceIP c.serviceSubnetOctet teamID = ip.text) ∧
    ∀ c ∈ t.challenges, ∀ c' ∈ t.challenges, ∀ teamID ∈ t.teams, ∀ teamID' ∈ t.teams,
      serviceIP c.serviceSubnetOctet teamID = serviceIP c'.serviceSubnetOctet teamID' →
        c.id = c'.id ∧ teamID = teamID' := by
  intro t
  have ht : t.Addressed := (subnetting lower).inv_run subnetting_handles hdb hls
  refine ⟨fun c hc teamID hteam =>
    ht.text hc hteam, fun c hc c' hc' teamID hteam teamID' hteam' heq => ?_⟩
  obtain ⟨rfl, rfl⟩ := ht.inj hc hc' hteam hteam' heq
  exact ⟨rfl, rfl⟩

/-- The tables after the migrations, with two of the seeded teams. -/
def seededSubnets : SubnetTables where
  challenges := [{ id := 1, name := "banking", servicePort := 10001, serviceSubnetOctet := 1 },
    { id := 2, name := "chat", servicePort := 10002, serviceSubnetOctet := 2 },
    { id := 3, name := "storage", servicePort := 10003, serviceSubnetOctet := 3 }]
  teams := [101, 102]
  challengesSeq := 4

/-- Two challenges for one octet. -/
def twoForumRequests : List (Label SubnetRequest (Option String)) :=
  [.arrive (.createAdminChallenge { name := "forum", serviceSubnetOctet := 7 } 0),
    .arrive (.createAdminChallenge { name := "wiki", serviceSubnetOctet := 7 } 0),
      .arrive .createTeam]

/-- The tables after these requests and the steps of the threads in the order given. -/
def runForum (order : List Nat) : SubnetTables :=
  ((Machine.boot seededSubnets).run (subnetSem fun name =>
    name.map Char.toLower) SubnetRequest.handler
    (twoForumRequests ++ order.map fun i => .step i none)).shared

/-- One request after the other: the second is refused. -/
theorem service_addresses_forum :
    (runForum [0, 0, 0, 0, 0, 1, 1, 1, 2]).challenges.map (·.serviceSubnetOctet) = [1, 2, 3, 7] ∧
      ∃ ip : IPv4, ip.a = 10 ∧ ip.b = 80 ∧ 11 ≤ ip.d.val ∧ ip.d.val ≤ 254 ∧
        serviceIP 7 103 = ip.text := by
  have hdb : seededSubnets.Addressed := ⟨by decide, by decide, by decide⟩
  have hrun : (subnetting fun name => name.map Char.toLower).RunAllowed SubnetRequest.handler
      (.boot seededSubnets)
      (twoForumRequests ++ [0, 0, 0, 0, 0, 1, 1, 1, 2].map fun i => .step i none) :=
    Contract.runAllowed_of_checks (by decide +kernel)
  have hforum :
      (runForum [0, 0, 0, 0, 0, 1, 1, 1, 2]).challenges.getLast?.map (·.serviceSubnetOctet) =
      some 7 := by decide +kernel
  obtain ⟨c, hc, hoctet⟩ := Option.map_eq_some_iff.mp hforum
  have haddress := (service_addresses (fun name => name.map Char.toLower) hdb hrun).1 c
    (List.mem_of_getLast? hc) 103 (by decide +kernel)
  rw [hoctet] at haddress
  exact ⟨by decide +kernel, haddress⟩

/-- Both requests ask for the octet before either inserts. -/
theorem same_service_address :
    ∃ c ∈ (runForum [0, 0, 0, 1, 1, 1, 0, 1, 0, 1, 2]).challenges,
      ∃ c' ∈ (runForum [0, 0, 0, 1, 1, 1, 0, 1, 0, 1, 2]).challenges, c.id ≠ c'.id ∧
        101 ∈ (runForum [0, 0, 0, 1, 1, 1, 0, 1, 0, 1, 2]).teams ∧
        serviceIP c.serviceSubnetOctet 101 = serviceIP c'.serviceSubnetOctet 101 := by
  decide +kernel

end ADPlatform.APIGateway
