import ADPlatform.Controller.ServiceRuntime
import Mathlib.Data.List.Basic
import Mathlib.Data.String.Basic

/-! # Removing the containers of services

`removeByFilter` asks docker for the containers with a label, removes them, and removes the volume
that it finds in their printed labels. `services_removed_iff` says when the three calls remove what
they are to remove. The filter of `removeService` puts two labels into one, so that it selects
nothing; the printed labels are read back piece by piece, and the first piece that looks like the
label of the state volume is taken for it. -/

namespace ADPlatform.Controller
open Concurrent APIGateway Text

/-! ## The calls -/

/-- `{{.ID}} {{.Labels}}` of the containers with a label. -/
def psArgs (filter : String) : List String :=
  ["ps", "-a", "--filter", filter, "--format", "\x7b\x7b.ID\x7d\x7d \x7b\x7b.Labels\x7d\x7d"]

/-- The container and the state volume in a line of the listing. -/
def parseListed (line : List Char) : String × String :=
  let labels := (line.dropWhile (· ≠ ' ')).drop 1
  let stateVolumePrefix := "adplatform.state_volume=".toList
  let stateVolume := (labels.splitOn ',').find? stateVolumePrefix.isPrefixOf
  (String.ofList (line.takeWhile (· ≠ ' ')),
    String.ofList ((stateVolume.map (·.drop stateVolumePrefix.length)).getD []))

/-- The loop over the lines of the listing. -/
def removeListed : List (List Char) → Option String → DockerProc (Option String)
  | [], lastErr => pure lastErr
  | line :: lines, lastErr =>
    if trimSpace (String.ofList line) = "" then removeListed lines lastErr
    else do
      match ← execDocker ["rm", "-f", (parseListed line).1] with
      | .error e => removeListed lines (some e)
      | .ok _ =>
        if (parseListed line).2 ≠ "" then do
          let _ ← removeVolumeIfExists (parseListed line).2
          removeListed lines lastErr
        else removeListed lines lastErr

/-- The lines of a listing. -/
def listingLines (output : String) : List (List Char) := (trimSpace output).toList.splitOn '\n'

/-- `removeByFilter`: the listed containers one after the other. -/
def removeByFilter (filter : String) : DockerProc (Option String) := do
  match ← execDocker (psArgs filter) with
  | .error e => pure (some e)
  | .ok output => removeListed (listingLines output) none

/-- `RemoveService`: the two labels go into one filter, joined by a comma. -/
def removeService (teamID challengeID : Int) : DockerProc (Option String) :=
  removeByFilter ("label=adplatform.team_id=" ++ teamID.repr ++ ",label=adplatform.challenge_id=" ++
    challengeID.repr)

/-- `RemoveTeamServices`. -/
def removeTeamServices (teamID : Int) : DockerProc (Option String) :=
  removeByFilter ("label=adplatform.team_id=" ++ teamID.repr)

/-- `RemoveChallengeServices`. -/
def removeChallengeServices (challengeID : Int) : DockerProc (Option String) :=
  removeByFilter ("label=adplatform.challenge_id=" ++ challengeID.repr)

/-! ## What docker holds -/

/-- The labels that `docker run` is given. All options of a service but two have a value. -/
def labelFlags : List String → List String
  | "--label" :: label :: args => label :: labelFlags args
  | option :: args =>
    if option ∈ ["run", "-d", "--init"] then labelFlags args
    else
      match args with
      | _ :: args => labelFlags args
      | [] => []
  | [] => []

/-- A container of a service: how docker prints its labels, which it has from the arguments of
`docker run` and from its image, and the volumes that it has mounted. -/
structure ServiceContainer where
  id : String
  labels : List (String × String)
  mounts : List String
  executor : DockerExecutor
  network : String
  task : ControllerRuntimeTask
  id_word : id.toList ≠ [] ∧ ∀ c ∈ id.toList, isSpace c = false
  keys : (labels.map Prod.fst).Nodup ∧ ∀ label ∈ labels, '=' ∉ label.1.toList
  created : ∀ text ∈ labelFlags (buildDockerRunArgs executor network task),
    ∃ label ∈ labels, text = label.1 ++ "=" ++ label.2

namespace ServiceContainer

/-- The labels as docker prints them. -/
def dump (c : ServiceContainer) : String :=
  ",".intercalate (c.labels.map fun label => label.1 ++ "=" ++ label.2)

/-- The line of the container in a listing. -/
def line (c : ServiceContainer) : String := c.id ++ " " ++ c.dump

end ServiceContainer

/-- The containers, in the order of their listing, and the names of the volumes. -/
structure Daemon where
  containers : List ServiceContainer
  volumes : List String
  ids : (containers.map ServiceContainer.id).Nodup
  names : ∀ name ∈ volumes, name.toList ≠ [] ∧ ∀ c ∈ name.toList, isSpace c = false

namespace Daemon

/-- The containers that carry the label. -/
def withLabel (d : Daemon) (key value : String) : List ServiceContainer :=
  d.containers.filter fun c => (key, value) ∈ c.labels

/-- What is left without a container. -/
def without (d : Daemon) (id : String) : Daemon where
  containers := d.containers.filter (·.id ≠ id)
  volumes := d.volumes
  ids := (List.filter_sublist.map _).nodup d.ids
  names := d.names

/-- A volume that a container has mounted is not removed. -/
def dropVolume (d : Daemon) (name : String) : Daemon where
  containers := d.containers
  volumes := if ∃ c ∈ d.containers, name ∈ c.mounts then d.volumes else d.volumes.filter (· ≠ name)
  ids := d.ids
  names v hv := by
    split at hv
    · exact d.names v hv
    · exact d.names v (List.mem_of_mem_filter hv)

end Daemon

/-- The output of the listing. -/
def listing (cs : List ServiceContainer) : String :=
  String.join (cs.map fun c => c.line ++ "\n")

/-- What the commands do, as docker documents them. A volume is listed by its full name. -/
structure DockerBehaves (docker : Daemon → List String → Except String String × Daemon) : Prop where
  ps : ∀ d key value, '=' ∉ key.toList →
    docker d (psArgs ("label=" ++ key ++ "=" ++ value)) = (.ok (listing (d.withLabel key value)), d)
  rm : ∀ d, ∀ c ∈ d.containers, ∃ output, docker d ["rm", "-f", c.id] = (.ok output, d.without c.id)
  volumeLs : ∀ d, ∀ name ∈ d.volumes, ∃ output, listed output name = true ∧
    docker d ["volume", "ls", "--filter", "name=^" ++ name ++ "$", "--format",
      "\x7b\x7b.Name\x7d\x7d"] =
      (.ok output, d)
  volumeLs_missing : ∀ d name, name ∉ d.volumes → trimSpace name ≠ "" → ∃ answer,
    (∀ output, answer = .ok output → listed output name = false) ∧
    docker d ["volume", "ls", "--filter", "name=^" ++ name ++ "$", "--format",
      "\x7b\x7b.Name\x7d\x7d"] =
      (answer, d)
  volumeRm : ∀ d, ∀ name ∈ d.volumes, ∃ answer,
    docker d ["volume", "rm", "-f", name] = (answer, d.dropVolume name)

/-- The executor runs alone on a host. -/
def dockerHost (docker : Daemon → List String → Except String String × Daemon) :
    Surroundings Daemon Unit DockerOp DockerOp.Res where
  sem _ op d :=
    match op with
    | .execDocker args => some ((docker d args).2, (docker d args).1)
    | .wait => some (d, true)
  rely := Eq
  input _ := True

/-! ## The labels of a service -/

theorem labelFlags_label (label : String) (args : List String) :
    labelFlags ("--label" :: label :: args) = label :: labelFlags args := by
  rw [labelFlags]

theorem labelFlags_option {option : String} (hlabel : option ≠ "--label")
    (hflag : option ∉ ["run", "-d", "--init"]) (value : String) (args : List String) :
    labelFlags (option :: value :: args) = labelFlags args := by
  rw [labelFlags, if_neg hflag]
  exact fun _ _ h _ => absurd h hlabel

theorem labelFlags_flag {option : String} (hflag : option ∈ ["run", "-d", "--init"])
    (args : List String) : labelFlags (option :: args) = labelFlags args := by
  rw [labelFlags.eq_def]
  split
  · rename_i heq
    obtain ⟨rfl, -⟩ := List.cons.inj heq
    exact absurd hflag (by decide)
  · rename_i heq
    obtain ⟨rfl, rfl⟩ := List.cons.inj heq
    exact if_pos hflag
  · rename_i heq
    cases heq

theorem labelFlags_options {option : String} (hlabel : option ≠ "--label")
    (hflag : option ∉ ["run", "-d", "--init"]) (values args : List String) :
    labelFlags (values.flatMap (fun value => [option, value]) ++ args) = labelFlags args := by
  induction values with
  | nil => rfl
  | cons value values ih =>
    rw [List.flatMap_cons, List.append_assoc, List.cons_append, List.singleton_append,
      labelFlags_option hlabel hflag, ih]

theorem labelFlags_dockerArgs (s : DockerRunSecurity) (args : List String) :
    labelFlags (s.dockerArgs ++ args) = labelFlags args := by
  have hgiven : ∀ option value : String, option ≠ "--label" → option ∉ ["run", "-d", "--init"] →
      ∀ args, labelFlags ((if value ≠ "" then [option, value] else []) ++ args) =
        labelFlags args := by
    intro option value hlabel hflag args
    split
    · exact labelFlags_option hlabel hflag value args
    · rfl
  simp only [DockerRunSecurity.dockerArgs, List.append_assoc]
  rw [labelFlags_options (by decide) (by decide), labelFlags_options (by decide) (by decide),
    labelFlags_options (by decide) (by decide), hgiven _ _ (by decide) (by decide),
    hgiven _ _ (by decide) (by decide), hgiven _ _ (by decide) (by decide)]

/-- The six labels of a service, whatever the options around them. -/
theorem labelFlags_buildDockerRunArgs (e : DockerExecutor) (network : String)
    (task : ControllerRuntimeTask) : labelFlags (buildDockerRunArgs e network task) =
      ["adplatform.team_id=" ++ task.teamID.repr,
       "adplatform.challenge_id=" ++ task.challengeID.repr,
       "adplatform.deployment_job_id=" ++ task.deploymentJobID.repr,
       "adplatform.service_ip=" ++ (taskAddress task).1,
       "adplatform.service_port=" ++ (taskAddress task).2.repr,
       "adplatform.state_volume=" ++ task.stateVolume] := by
  have himage : labelFlags [task.baselineImage] = [] := by
    rw [labelFlags.eq_def]
    split
    · rename_i heq
      cases (List.cons.inj heq).2
    · rename_i heq
      obtain ⟨-, rfl⟩ := List.cons.inj heq
      split
      · rfl
      · rfl
    · rfl
  have hgiven : ∀ (c : Prop) [Decidable c] (option value : String), option ≠ "--label" →
      option ∉ ["run", "-d", "--init"] → ∀ args,
      labelFlags ((if c then [option, value] else []) ++ args) = labelFlags args := by
    intro c _ option value hlabel hflag args
    split
    · exact labelFlags_option hlabel hflag value args
    · rfl
  have hnetwork : ∀ (c c' : Prop) [Decidable c] [Decidable c'] (address : String),
      labelFlags
        ((if c then ["--network", network] ++ (if c' then ["--ip", address] else []) else []) ++
        [task.baselineImage]) = [] := by
    intro c c' _ _ address
    split
    · rw [List.append_assoc, List.cons_append, List.singleton_append,
        labelFlags_option (by decide) (by decide), hgiven c' _ _ (by decide) (by decide), himage]
    · exact himage
  rw [buildDockerRunArgs]
  dsimp only
  simp only [List.append_assoc, List.cons_append, List.nil_append]
  rw [labelFlags_flag (by decide), labelFlags_flag (by decide), labelFlags_flag (by decide),
    labelFlags_option (by decide) (by decide), labelFlags_dockerArgs,
    labelFlags_option (by decide) (by decide), labelFlags_option (by decide) (by decide)]
  simp only [labelFlags_label]
  iterate 8 rw [labelFlags_option (by decide) (by decide)]
  have hmount :=
    hgiven (trimSpace task.stateVolume ≠ "" ∧ trimSpace e.stateMountPath ≠ "") "--mount"
    ("type=volume,src=" ++ task.stateVolume ++ ",dst=" ++ e.stateMountPath) (by decide) (by decide)
  have hlast := hnetwork (trimSpace network ≠ "") (trimSpace (taskAddress task).1 ≠ "")
    (taskAddress task).1
  simp only [List.cons_append, List.nil_append] at hmount hlast
  rw [hmount, hlast]

/-- A label that `docker run` was given is the only one with its key. -/
theorem ServiceContainer.mem_labels_iff (c : ServiceContainer) {key value : String}
    (hkey : '=' ∉ key.toList)
    (hflag : key ++ "=" ++ value ∈ labelFlags (buildDockerRunArgs c.executor c.network c.task))
    (value' : String) : (key, value') ∈ c.labels ↔ value' = value := by
  obtain ⟨label, hmem, heq⟩ := c.created _ hflag
  obtain ⟨hfirst, hsecond⟩ := split_first_inj hkey (c.keys.2 label hmem) heq
  have hlabel : (key, value) ∈ c.labels := by rwa [hfirst, hsecond]
  constructor
  · intro hmem'
    have hsame := List.inj_on_of_nodup_map c.keys.1 hmem' hlabel rfl
    exact (Prod.mk.inj hsame).2
  · rintro rfl
    exact hlabel

theorem ServiceContainer.team_iff (c : ServiceContainer) (value : String) :
    ("adplatform.team_id", value) ∈ c.labels ↔ value = c.task.teamID.repr := by
  refine c.mem_labels_iff (by decide) ?_ value
  rw [labelFlags_buildDockerRunArgs]
  exact List.mem_cons_self

theorem ServiceContainer.challenge_iff (c : ServiceContainer) (value : String) :
    ("adplatform.challenge_id", value) ∈ c.labels ↔ value = c.task.challengeID.repr := by
  refine c.mem_labels_iff (by decide) ?_ value
  rw [labelFlags_buildDockerRunArgs]
  exact List.mem_cons_of_mem _ List.mem_cons_self

theorem ServiceContainer.volume_iff (c : ServiceContainer) (value : String) :
    ("adplatform.state_volume", value) ∈ c.labels ↔ value = c.task.stateVolume := by
  refine c.mem_labels_iff (by decide) ?_ value
  rw [labelFlags_buildDockerRunArgs]
  iterate 5 refine List.mem_cons_of_mem _ ?_
  exact List.mem_cons_self

/-! ## The lines of a listing -/

/-- The line of the container, but for white space at its end. -/
def LineOf (c : ServiceContainer) (line : List Char) : Prop :=
  ∃ blank, c.line.toList = line ++ blank ∧ ∀ x ∈ blank, isSpace x = true

/-- The identifier, behind which a blank stands, and the printed labels. -/
theorem ServiceContainer.toList_line (c : ServiceContainer) :
    c.line.toList = c.id.toList ++ (' ' :: c.dump.toList) := by
  rw [ServiceContainer.line, String.toList_append, String.toList_append, List.append_assoc]
  rfl

/-- What is cut off the line stands behind the identifier. -/
theorem LineOf.behind_id {c : ServiceContainer} {line : List Char} (h : LineOf c line) :
    ∃ rest blank, line = c.id.toList ++ rest ∧ ' ' :: c.dump.toList = rest ++ blank ∧
      ∀ x ∈ blank, isSpace x = true := by
  obtain ⟨blank, hline, hblank⟩ := h
  rw [c.toList_line] at hline
  rcases List.append_eq_append_iff.mp hline with ⟨rest, rfl, hrest⟩ | ⟨cut, hid, hcut⟩
  · exact ⟨rest, blank, rfl, hrest, hblank⟩
  · cases cut with
    | nil =>
      rw [List.append_nil] at hid
      exact ⟨[], blank, by rw [hid, List.append_nil], by rw [hcut]; rfl, hblank⟩
    | cons x cut =>
      have hspace := hblank x (hcut ▸ List.mem_cons_self)
      have hword := c.id_word.2 x (hid ▸ List.mem_append_right _ List.mem_cons_self)
      rw [hspace] at hword
      cases hword

/-- The identifier is read back, and the labels but for white space at their end. -/
theorem LineOf.parts {c : ServiceContainer} {line : List Char} (h : LineOf c line) :
    line.takeWhile (· ≠ ' ') = c.id.toList ∧
      ∃ blank, c.dump.toList = (line.dropWhile (· ≠ ' ')).drop 1 ++ blank ∧
        ∀ x ∈ blank, isSpace x = true := by
  obtain ⟨rest, blank, rfl, hdump, hblank⟩ := h.behind_id
  have hid : ∀ x ∈ c.id.toList, decide (x ≠ ' ') = true := by
    intro x hx
    have hspace := c.id_word.2 x hx
    rw [decide_eq_true_eq]
    rintro rfl
    exact absurd hspace (by decide)
  rw [List.takeWhile_append_of_pos hid, List.dropWhile_append_of_pos hid]
  cases rest with
  | nil =>
    refine ⟨by rw [List.takeWhile_nil, List.append_nil], c.dump.toList, rfl,
      fun x hx => hblank x ?_⟩
    rw [List.nil_append] at hdump
    exact hdump ▸ List.mem_cons_of_mem _ hx
  | cons x rest =>
    obtain rfl : ' ' = x := (List.cons.inj hdump).1
    rw [List.takeWhile_cons_of_neg (by decide), List.dropWhile_cons_of_neg (by decide),
      List.append_nil]
    rw [List.cons_append, List.cons.injEq] at hdump
    exact ⟨rfl, blank, hdump.2, hblank⟩

theorem LineOf.id {c : ServiceContainer} {line : List Char} (h : LineOf c line) :
    (parseListed line).1 = c.id := by
  rw [parseListed, h.parts.1, String.ofList_toList]

theorem trimSpace_ne {line : List Char} (h : ∃ c ∈ line, isSpace c = false) :
    trimSpace (String.ofList line) ≠ "" := by
  intro hempty
  have hlist := congrArg String.toList hempty
  rw [trimSpace, String.toList_ofList, String.toList_ofList] at hlist
  obtain ⟨c, hc, hspace⟩ := h
  have hnil : (line.dropWhile isSpace).reverse.dropWhile isSpace = [] := by
    rw [← List.reverse_eq_nil_iff]
    exact hlist
  rw [List.dropWhile_eq_nil_iff] at hnil
  have hmem : ∀ l : List Char, c ∈ l → c ∈ l.dropWhile isSpace := by
    intro l hl
    rw [← List.takeWhile_append_dropWhile (p := isSpace) (l := l), List.mem_append] at hl
    rcases hl with hl | hl
    · rw [List.mem_takeWhile_imp hl] at hspace
      cases hspace
    · exact hl
  have hall := hnil c (List.mem_reverse.mpr (hmem line hc))
  rw [hspace] at hall
  cases hall

theorem LineOf.ne {c : ServiceContainer} {line : List Char} (h : LineOf c line) :
    trimSpace (String.ofList line) ≠ "" := by
  obtain ⟨rest, _, rfl, -⟩ := h.behind_id
  obtain ⟨x, id, hid⟩ := List.exists_cons_of_ne_nil c.id_word.1
  have hx : x ∈ c.id.toList := by
    rw [hid]
    exact List.mem_cons_self
  exact trimSpace_ne ⟨x, List.mem_append_left _ hx, c.id_word.2 x hx⟩

theorem lineOf_trimmed (c : ServiceContainer) :
    LineOf c (c.line.toList.reverse.dropWhile isSpace).reverse :=
  ⟨c.line.toList.rtakeWhile isSpace, List.rdropWhile_append_rtakeWhile.symm,
    fun _ hx => List.mem_rtakeWhile_imp hx⟩

theorem newline_notMem_line {c : ServiceContainer} (h : '\n' ∉ c.dump.toList) :
    '\n' ∉ c.line.toList := by
  rw [ServiceContainer.line, String.toList_append, String.toList_append, List.mem_append,
    List.mem_append, not_or, not_or]
  refine ⟨⟨fun hid => ?_, by decide⟩, h⟩
  exact absurd (c.id_word.2 _ hid) (by decide)

theorem toList_listing (cs : List ServiceContainer) :
    (listing cs).toList = cs.flatMap fun c => c.line.toList ++ ['\n'] := by
  simp [listing, String.toList_join, List.flatMap_map]

/-- The listing, trimmed: only the line at the end loses white space. -/
theorem trimSpace_listing (cs : List ServiceContainer) (c : ServiceContainer) :
    (trimSpace (listing (cs ++ [c]))).toList =
      (cs.flatMap fun c => c.line.toList ++ ['\n']) ++
        (c.line.toList.reverse.dropWhile isSpace).reverse := by
  have hfront : (listing (cs ++ [c])).toList.dropWhile isSpace = (listing (cs ++ [c])).toList := by
    obtain ⟨first, rest, hcs⟩ := List.exists_cons_of_ne_nil (List.append_ne_nil_of_right_ne_nil cs
      (List.cons_ne_nil c []))
    obtain ⟨x, id, hid⟩ := List.exists_cons_of_ne_nil first.id_word.1
    have hx : isSpace x = false := first.id_word.2 x (by
      rw [hid]
      exact List.mem_cons_self)
    rw [hcs, toList_listing, List.flatMap_cons, ServiceContainer.line, String.toList_append,
      String.toList_append, hid]
    exact List.dropWhile_cons_of_neg (by rw [hx]; decide)
  have hne : c.line.toList.reverse.dropWhile isSpace ≠ [] := by
    obtain ⟨rest, _, hline, -⟩ := (lineOf_trimmed c).behind_id
    intro hnil
    rw [hnil, List.reverse_nil] at hline
    exact c.id_word.1 (List.append_eq_nil_iff.mp hline.symm).1
  rw [trimSpace, hfront, String.toList_ofList, toList_listing, List.flatMap_append,
    List.flatMap_singleton, List.reverse_append, List.reverse_append, List.reverse_singleton,
    List.singleton_append, List.cons_append, List.dropWhile_cons_of_pos (by decide),
    List.dropWhile_append, if_neg (by simpa using hne), List.reverse_append, List.reverse_reverse]

/-- No label of the containers has a line break in it. -/
def PrintsLines (cs : List ServiceContainer) : Prop := ∀ c ∈ cs, '\n' ∉ c.dump.toList

/-- Labels without line breaks are printed in one line for each container. -/
theorem listingLines_listing {cs : List ServiceContainer} (hne : cs ≠ [])
    (hplain : PrintsLines cs) :
    List.Forall₂ LineOf cs (listingLines (listing cs)) := by
  obtain ⟨init, last, rfl⟩ := (List.eq_nil_or_concat' cs).resolve_left hne
  rw [listingLines, trimSpace_listing]
  have hlast : '\n' ∉ (last.line.toList.reverse.dropWhile isSpace).reverse := by
    intro hmem
    refine newline_notMem_line (hplain last (List.mem_append_right _ List.mem_cons_self)) ?_
    rw [List.mem_reverse] at hmem
    exact List.mem_reverse.mp ((List.dropWhile_suffix _).subset hmem)
  clear hne
  induction init with
  | nil =>
    rw [List.flatMap_nil, List.nil_append, List.nil_append, List.splitOn_eq_singleton hlast]
    exact .cons (lineOf_trimmed last) .nil
  | cons c init ih =>
    have hc := newline_notMem_line (hplain c List.mem_cons_self)
    rw [List.flatMap_cons, List.append_assoc, List.append_assoc, List.singleton_append,
      List.splitOn_append_cons_self_of_not_mem hc]
    exact .cons ⟨[], (List.append_nil _).symm, fun x hx => by cases hx⟩
      (ih fun c hc => hplain c (List.mem_cons_of_mem _ hc))

/-! ## The loop -/

namespace Daemon

/-- The volume is removed if there is one of that name. -/
def dropNamed (d : Daemon) (name : String) : Daemon :=
  if name ∈ d.volumes then d.dropVolume name else d

/-- What the loop does to the containers of a listing. -/
def sweep : Daemon → List (ServiceContainer × List Char) → Daemon
  | d, [] => d
  | d, (c, line) :: lines => ((d.without c.id).dropNamed (parseListed line).2).sweep lines

theorem name_ne (d : Daemon) {name : String} (h : name ∈ d.volumes) : trimSpace name ≠ "" := by
  rw [trimSpace_eq_self (d.names name h).2]
  exact fun hempty => (d.names name h).1 (String.toList_eq_nil_iff.mpr hempty)

@[simp] theorem dropNamed_containers (d : Daemon) (name : String) :
    (d.dropNamed name).containers = d.containers := by
  rw [dropNamed]
  split
  · rfl
  · rfl

theorem mem_dropNamed {d : Daemon} {name v : String} : v ∈ (d.dropNamed name).volumes ↔
    v ∈ d.volumes ∧ (name = v → ∃ c ∈ d.containers, v ∈ c.mounts) := by
  rw [dropNamed]
  split
  · rename_i hname
    rw [dropVolume]
    dsimp only
    split
    · rename_i huse
      exact ⟨fun hv => ⟨hv, fun h => h ▸ huse⟩, And.left⟩
    · rename_i huse
      rw [List.mem_filter, decide_eq_true_eq]
      refine and_congr_right fun _ => ⟨fun hne h => absurd h.symm hne, fun h heq => ?_⟩
      exact huse (heq ▸ h heq.symm)
  · rename_i hname
    exact ⟨fun hv => ⟨hv, fun h => absurd (h ▸ hv) hname⟩, And.left⟩

end Daemon

/-- The volume is named by a line whose container was the last to have it mounted. -/
def Swept (d : Daemon) (lines : List (ServiceContainer × List Char)) (v : String) : Prop :=
  ∃ before c line after, lines = before ++ (c, line) :: after ∧ (parseListed line).2 = v ∧
    ∀ c' ∈ d.containers, v ∈ c'.mounts → c'.id ∈ before.map (·.1.id) ∨ c'.id = c.id

theorem swept_cons {d d' : Daemon} {c : ServiceContainer} {line : List Char}
    {lines : List (ServiceContainer × List Char)} {v : String}
    (hd : d'.containers = (d.without c.id).containers) :
    Swept d ((c, line) :: lines) v ↔ ((parseListed line).2 = v ∧
      ∀ c' ∈ d.containers, v ∈ c'.mounts → c'.id = c.id) ∨ Swept d' lines v := by
  have hcontainers : ∀ c', c' ∈ d'.containers ↔ c' ∈ d.containers ∧ c'.id ≠ c.id := by
    intro c'
    rw [hd, Daemon.without, List.mem_filter, decide_eq_true_eq]
  constructor
  · rintro ⟨before, c₁, line₁, after, heq, hnamed, hmounts⟩
    cases before with
    | nil =>
      obtain ⟨hfirst, -⟩ := List.cons.inj heq
      obtain ⟨rfl, rfl⟩ := Prod.mk.inj hfirst
      exact .inl ⟨hnamed, fun c' hc' hv => (hmounts c' hc' hv).resolve_left List.not_mem_nil⟩
    | cons first before =>
      obtain ⟨hfirst, hrest⟩ := List.cons.inj heq
      refine .inr ⟨before, c₁, line₁, after, hrest, hnamed, fun c' hc' hv => ?_⟩
      obtain ⟨hc', hne⟩ := (hcontainers c').mp hc'
      refine (hmounts c' hc' hv).imp_left fun hmem => ?_
      rw [← hfirst] at hmem
      exact (List.mem_cons.mp hmem).resolve_left hne
  · rintro (⟨hnamed, hmounts⟩ | ⟨before, c₁, line₁, after, heq, hnamed, hmounts⟩)
    · exact ⟨[], c, line, lines, rfl, hnamed, fun c' hc' hv => .inr (hmounts c' hc' hv)⟩
    · refine ⟨(c, line) :: before, c₁, line₁, after, by rw [heq]; rfl, hnamed, fun c' hc' hv => ?_⟩
      by_cases hid : c'.id = c.id
      · rw [hid]
        exact .inl List.mem_cons_self
      · exact (hmounts c' ((hcontainers c').mpr ⟨hc', hid⟩) hv).imp_left (List.mem_cons_of_mem _)

theorem Daemon.mem_sweep_containers {lines : List (ServiceContainer × List Char)} (d : Daemon)
    (c : ServiceContainer) : c ∈ (d.sweep lines).containers ↔
      c ∈ d.containers ∧ c.id ∉ lines.map (·.1.id) := by
  induction lines generalizing d with
  | nil => exact ⟨fun h => ⟨h, List.not_mem_nil⟩, And.left⟩
  | cons first lines ih =>
    rw [sweep, ih, dropNamed_containers, without, List.mem_filter, decide_eq_true_eq, List.map_cons,
      List.mem_cons, not_or, and_assoc]

theorem Daemon.mem_sweep_volumes {lines : List (ServiceContainer × List Char)} (d : Daemon)
    (v : String) : v ∈ (d.sweep lines).volumes ↔ v ∈ d.volumes ∧ ¬ Swept d lines v := by
  induction lines generalizing d with
  | nil =>
    refine ⟨fun h => ⟨h, ?_⟩, And.left⟩
    rintro ⟨before, c, line, after, heq, -⟩
    exact absurd heq.symm (List.append_ne_nil_of_right_ne_nil _ (List.cons_ne_nil _ _))
  | cons first lines ih =>
    obtain ⟨c, line⟩ := first
    have hcontainers : ((d.without c.id).dropNamed (parseListed line).2).containers =
        (d.without c.id).containers := dropNamed_containers _ _
    rw [sweep, ih, mem_dropNamed, swept_cons hcontainers, not_or, and_assoc]
    refine and_congr_right fun _ => and_congr_left fun _ => ?_
    rw [not_and]
    refine forall_congr' fun _ => ?_
    constructor
    · rintro ⟨c', hc', hv⟩ hall
      obtain ⟨hmem, hne⟩ := List.mem_filter.mp hc'
      exact (of_decide_eq_true hne) (hall c' hmem hv)
    · intro hnot
      by_contra hnone
      refine hnot fun c' hc' hv => ?_
      by_contra hne
      exact hnone ⟨c', List.mem_filter.mpr ⟨hc', decide_eq_true hne⟩, hv⟩

section loop
variable {docker : Daemon → List String → Except String String × Daemon}
  (hdocker : DockerBehaves docker)

/-- A command has the answer and the effect that docker gives it. -/
theorem after_execDocker {d d' : Daemon} {args : List String} {r : Except String String}
    (h : docker d args = (r, d')) :
    Proc.After (dockerHost docker) (execDocker args) d fun r' _ d'' => r' = r ∧ d'' = d' := by
  refine .perform fun s₁ input s₂ r' hrely _ hsem => ?_
  obtain rfl : d = s₁ := hrely
  cases hsem
  rw [h]
  exact ⟨rfl, rfl⟩

theorem after_execDocker_ {d d' : Daemon} {args : List String} {r : Except String String}
    (h : docker d args = (r, d')) :
    Proc.After (dockerHost docker) (execDocker_ args) d fun _ _ d'' => d'' = d' := by
  refine .bind (after_execDocker h) ?_
  rintro answer _ _ ⟨rfl, rfl⟩
  cases answer with
  | error => exact .pure rfl
  | ok => exact .pure rfl

include hdocker

theorem after_removeVolumeIfExists (d : Daemon) (name : String) :
    Proc.After (dockerHost docker) (removeVolumeIfExists name) d
      fun _ _ d' => d' = d.dropNamed name := by
  refine .ite (fun hblank => .pure ?_) (fun hblank => ?_)
  · refine (if_neg fun hname => ?_).symm
    exact d.name_ne hname hblank
  by_cases hname : name ∈ d.volumes
  · obtain ⟨output, hlisted, hls⟩ := hdocker.volumeLs d name hname
    obtain ⟨answer, hrm⟩ := hdocker.volumeRm d name hname
    refine .bind (after_execDocker hls) ?_
    rintro _ _ _ ⟨rfl, rfl⟩
    rw [Daemon.dropNamed, if_pos hname]
    refine .ite (fun _ => after_execDocker_ hrm) (fun hnot => absurd hlisted hnot)
  · obtain ⟨answer, hlisted, hls⟩ := hdocker.volumeLs_missing d name hname hblank
    refine .bind (after_execDocker hls) ?_
    rintro answer' _ _ ⟨rfl, rfl⟩
    rw [Daemon.dropNamed, if_neg hname]
    cases answer' with
    | error => exact .pure rfl
    | ok output =>
      refine .ite (fun hyes => ?_) (fun _ => .pure rfl)
      rw [hlisted output rfl] at hyes
      cases hyes

/-- The loop removes the listed containers, and with each the volume that its line names. -/
theorem after_removeListed {cs : List ServiceContainer} {lines : List (List Char)}
    (hlines : List.Forall₂ LineOf cs lines) (d : Daemon) (hmem : ∀ c ∈ cs, c ∈ d.containers)
    (hids : (cs.map ServiceContainer.id).Nodup) (lastErr : Option String) :
    Proc.After (dockerHost docker) (removeListed lines lastErr) d
      fun _ _ d' => d' = d.sweep (cs.zip lines) := by
  induction hlines generalizing d lastErr with
  | nil => exact .pure rfl
  | @cons c line cs lines hline _ ih =>
    rw [List.map_cons, List.nodup_cons] at hids
    have hrest : ∀ c' ∈ cs, c' ∈ (d.without c.id).containers := by
      intro c' hc'
      refine List.mem_filter.mpr ⟨hmem c' (List.mem_cons_of_mem _ hc'), decide_eq_true ?_⟩
      exact fun hid => hids.1 (hid ▸ List.mem_map_of_mem hc')
    obtain ⟨output, hrm⟩ := hdocker.rm d c (hmem c List.mem_cons_self)
    rw [← hline.id] at hrm
    rw [removeListed, if_neg hline.ne]
    refine .bind (after_execDocker hrm) ?_
    rintro _ _ _ ⟨rfl, rfl⟩
    dsimp only
    rw [List.zip_cons_cons, Daemon.sweep, ← hline.id]
    rw [← hline.id] at hrest
    refine .ite (fun _ => ?_) (fun hempty => ?_)
    · refine .bind (after_removeVolumeIfExists hdocker _ _) ?_
      rintro _ _ _ rfl
      refine ih _ (fun c' hc' => ?_) hids.2 lastErr
      rw [Daemon.dropNamed_containers]
      exact hrest c' hc'
    · rw [not_not] at hempty
      have hsame : (d.without (parseListed line).1).dropNamed (parseListed line).2 =
          d.without (parseListed line).1 := by
        refine if_neg fun hname => ?_
        rw [hempty] at hname
        exact d.name_ne hname (by decide)
      rw [hsame]
      exact ih _ hrest hids.2 lastErr

end loop

/-! ## What is removed -/

/-- The containers of the services that match are gone, and their state volumes; all others are
still there. -/
def Removed (matching : ControllerRuntimeTask → Prop) (d d' : Daemon) : Prop :=
  (∀ c, c ∈ d'.containers ↔ c ∈ d.containers ∧ ¬ matching c.task) ∧
  ∀ v, v ∈ d'.volumes ↔ v ∈ d.volumes ∧
    ¬ ∃ c ∈ d.containers, matching c.task ∧ c.task.stateVolume = v

/-- A call removes exactly the services that match, with their volumes. -/
def Removes (docker : Daemon → List String → Except String String × Daemon)
    (call : DockerProc (Option String)) (matching : ControllerRuntimeTask → Prop)
    (d : Daemon) : Prop :=
  ∃ ops d', Execution (dockerHost docker) call.toThread d ops d' ∧ Removed matching d d'

/-- Every state volume that exists is named in time by a line of the listing, and no other volume
is. -/
def VolumesNamed (d : Daemon) (cs : List ServiceContainer) : Prop :=
  ∀ v ∈ d.volumes, (∃ c ∈ cs, c.task.stateVolume = v) ↔
    Swept d (cs.zip (listingLines (listing cs))) v

/-- Text without a comma belongs to the last piece. -/
theorem splitOn_append_blank {blank : List Char} (h : ',' ∉ blank) (l : List Char) :
    ∃ pieces last, l.splitOn ',' = pieces ++ [last] ∧
      (l ++ blank).splitOn ',' = pieces ++ [last ++ blank] := by
  induction l with
  | nil => exact ⟨[], [], List.splitOn_nil ',', List.splitOn_eq_singleton h⟩
  | cons x l ih =>
    obtain ⟨pieces, last, hl, hblank⟩ := ih
    rw [List.cons_append, List.splitOn_cons_eq_if_modifyHead,
      List.splitOn_cons_eq_if_modifyHead, hl,
      hblank]
    split
    · exact ⟨[] :: pieces, last, rfl, rfl⟩
    · cases pieces with
      | nil => exact ⟨[], x :: last, rfl, rfl⟩
      | cons piece pieces => exact ⟨(x :: piece) :: pieces, last, rfl, rfl⟩

/-- A label, as docker prints it. -/
def labelText (label : String × String) : List Char := label.1.toList ++ '=' :: label.2.toList

/-- White space behind a label that ends without is behind the label. -/
theorem labelText_uncut {key value : String} (hvalue : ∀ x ∈ value.toList, isSpace x = false)
    {piece blank : List Char} (hblank : ∀ x ∈ blank, isSpace x = true)
    (heq : piece ++ blank = labelText (key, value)) : piece = labelText (key, value) := by
  cases hlast : blank.getLast? with
  | none => rwa [List.getLast?_eq_none_iff.mp hlast, List.append_nil] at heq
  | some x =>
    have hend : x ∈ '=' :: value.toList := by
      have hends := congrArg List.getLast? heq
      rw [List.getLast?_append, hlast, Option.some_or, labelText,
        List.getLast?_append_cons] at hends
      exact List.mem_of_getLast? hends.symm
    have hspace := hblank x (List.mem_of_getLast? hlast)
    rcases List.mem_cons.mp hend with rfl | hend
    · exact absurd hspace (by decide)
    · rw [hvalue x hend] at hspace
      cases hspace

namespace ServiceContainer
variable {c : ServiceContainer}

/-- No label has a comma in it, and no white space is in the name of the state volume. -/
structure Plain (c : ServiceContainer) : Prop where
  labels : ∀ label ∈ c.labels, ',' ∉ label.1.toList ∧ ',' ∉ label.2.toList
  stateVolume : ∀ x ∈ c.task.stateVolume.toList, isSpace x = false

theorem Plain.pieces (h : c.Plain) : c.dump.toList.splitOn ',' = c.labels.map labelText := by
  have hne : c.labels ≠ [] := List.ne_nil_of_mem ((c.volume_iff _).mpr rfl)
  have hcomma : ",".toList = [','] := rfl
  have htext : (fun label => String.toList label) ∘ (fun label : String × String =>
      label.1 ++ "=" ++ label.2) = labelText := by
    funext label
    simp [labelText]
  rw [dump, String.toList_intercalate, List.map_map, hcomma, htext]
  refine List.splitOn_intercalate ',' (fun piece hpiece => ?_) (by simpa using hne)
  obtain ⟨label, hlabel, rfl⟩ := List.mem_map.mp hpiece
  obtain ⟨hkey, hvalue⟩ := h.labels label hlabel
  rw [labelText, List.mem_append, List.mem_cons, not_or, not_or]
  exact ⟨hkey, by decide, hvalue⟩

/-- The keys have no equals sign, so that no other label begins with one of them. -/
theorem eq_labelText {key value : String} (hlabel : (key, value) ∈ c.labels) {piece : List Char}
    (hpiece : piece ∈ c.labels.map labelText) (hkey : key.toList ++ ['='] <+: piece) :
    piece = labelText (key, value) := by
  obtain ⟨⟨key', value'⟩, hlabel', rfl⟩ := List.mem_map.mp hpiece
  obtain ⟨rest, hrest⟩ := hkey
  rw [List.append_assoc, List.singleton_append] at hrest
  obtain ⟨hsame, -⟩ := append_cons_inj_of_notMem_left (c.keys.2 _ hlabel) (c.keys.2 _ hlabel') hrest
  rw [List.inj_on_of_nodup_map c.keys.1 hlabel' hlabel (String.toList_inj.mp hsame).symm]

end ServiceContainer

/-- The first piece of a printed line that begins with a key is the label with the key. -/
theorem LineOf.find_label {c : ServiceContainer} {line : List Char} (h : LineOf c line)
    (hc : c.Plain)
    {key value : String} (hlabel : (key, value) ∈ c.labels)
    (hvalue : ∀ x ∈ value.toList, isSpace x = false) :
    (((line.dropWhile (· ≠ ' ')).drop 1).splitOn ',').find? (key.toList ++ ['=']).isPrefixOf =
      some (labelText (key, value)) := by
  obtain ⟨blank, hdump, hblank⟩ := h.parts.2
  have hcomma : ',' ∉ blank := fun hmem => absurd (hblank _ hmem) (by decide)
  obtain ⟨pieces, last, hpieces, hall⟩ :=
    splitOn_append_blank hcomma ((line.dropWhile (· ≠ ' ')).drop 1)
  rw [← hdump, hc.pieces] at hall
  rw [hpieces]
  have hprefix : key.toList ++ ['='] <+: labelText (key, value) :=
    ⟨value.toList, by rw [labelText, List.append_assoc, List.singleton_append]⟩
  have hmem : labelText (key, value) ∈ pieces ++ [last] := by
    have htext := List.mem_map_of_mem (f := labelText) hlabel
    rw [hall, List.mem_append, List.mem_singleton] at htext
    rcases htext with htext | htext
    · exact List.mem_append_left _ htext
    · rw [← labelText_uncut hvalue hblank htext.symm]
      exact List.mem_append_right _ List.mem_cons_self
  have hfirst : ∀ piece ∈ pieces ++ [last], key.toList ++ ['='] <+: piece →
      piece = labelText (key, value) := by
    intro piece hpiece hkey
    rcases List.mem_append.mp hpiece with hpiece | hpiece
    · exact c.eq_labelText hlabel (hall ▸ List.mem_append_left _ hpiece) hkey
    · obtain rfl := List.mem_singleton.mp hpiece
      refine labelText_uncut hvalue hblank
        (c.eq_labelText hlabel ?_ (hkey.trans (List.prefix_append _ _)))
      exact hall ▸ List.mem_append_right _ List.mem_cons_self
  have hsome : ((pieces ++ [last]).find? (key.toList ++ ['=']).isPrefixOf).isSome :=
    List.find?_isSome.mpr ⟨_, hmem, List.isPrefixOf_iff_prefix.mpr hprefix⟩
  obtain ⟨piece, hpiece⟩ := Option.isSome_iff_exists.mp hsome
  rw [hpiece, hfirst piece (List.mem_of_find?_eq_some hpiece)
    (List.isPrefixOf_iff_prefix.mp (List.find?_some hpiece))]

theorem LineOf.volume {c : ServiceContainer} {line : List Char} (h : LineOf c line) (hc : c.Plain) :
    (parseListed line).2 = c.task.stateVolume := by
  have hfind := h.find_label hc ((c.volume_iff _).mpr rfl) hc.stateVolume
  have hkey : "adplatform.state_volume=".toList = "adplatform.state_volume".toList ++ ['='] := by
    decide
  rw [← hkey] at hfind
  rw [parseListed]
  dsimp only
  have hsplit : labelText ("adplatform.state_volume", c.task.stateVolume) =
      "adplatform.state_volume".toList ++ ['='] ++ c.task.stateVolume.toList :=
        List.append_cons _ _ _
  rw [hfind, Option.map_some, Option.getD_some, hsplit, hkey, List.drop_left, String.ofList_toList]

/-- Plain labels name the volume of each container, and where no other container mounts it, in
time. -/
theorem volumesNamed_of_plain {d : Daemon} {cs : List ServiceContainer} (hlines : PrintsLines cs)
    (hplain : ∀ c ∈ cs, c.Plain)
    (hmounts : ∀ c ∈ cs, ∀ c' ∈ d.containers, c.task.stateVolume ∈ c'.mounts → c' = c) :
    VolumesNamed d cs := by
  have hnamed : ∀ c line, (c, line) ∈ cs.zip (listingLines (listing cs)) →
      c ∈ cs ∧ (parseListed line).2 = c.task.stateVolume := by
    intro c line hmem
    have hc := (List.of_mem_zip hmem).1
    obtain ⟨-, hline⟩ :=
      List.forall₂_iff_zip.mp (listingLines_listing (List.ne_nil_of_mem hc) hlines)
    exact ⟨hc, (hline hmem).volume (hplain c hc)⟩
  intro v hv
  constructor
  · rintro ⟨c, hc, rfl⟩
    obtain ⟨line, hline⟩ : ∃ line, (c, line) ∈ cs.zip (listingLines (listing cs)) := by
      have hlength := (listingLines_listing (List.ne_nil_of_mem hc) hlines).length_eq
      rw [← List.map_fst_zip hlength.le] at hc
      obtain ⟨⟨_, line⟩, hline, rfl⟩ := List.mem_map.mp hc
      exact ⟨line, hline⟩
    obtain ⟨before, after, heq⟩ := List.append_of_mem hline
    exact ⟨before, c, line, after, heq, (hnamed c line hline).2,
      fun c' hc' hmount => .inr (by rw [hmounts c hc c' hc' hmount])⟩
  · rintro ⟨before, c, line, after, heq, hname, -⟩
    obtain ⟨hc, hvolume⟩ := hnamed c line (heq ▸ List.mem_append_right _ List.mem_cons_self)
    exact ⟨c, hc, hvolume.symm.trans hname⟩

theorem removed_sweep_iff {d : Daemon} {matching : ControllerRuntimeTask → Prop}
    {cs : List ServiceContainer} {lines : List (List Char)} (hlength : cs.length ≤ lines.length)
    (hcs : ∀ c, c ∈ cs ↔ c ∈ d.containers ∧ matching c.task) :
    Removed matching d (d.sweep (cs.zip lines)) ↔
      ∀ v ∈ d.volumes, (∃ c ∈ cs, c.task.stateVolume = v) ↔ Swept d (cs.zip lines) v := by
  have hids : (cs.zip lines).map (·.1.id) = cs.map ServiceContainer.id := by
    have hzip := congrArg (List.map ServiceContainer.id) (List.map_fst_zip hlength)
    rwa [List.map_map] at hzip
  have hcontainers : ∀ c, c ∈ (d.sweep (cs.zip lines)).containers ↔
      c ∈ d.containers ∧ ¬ matching c.task := by
    intro c
    rw [Daemon.mem_sweep_containers, hids]
    refine and_congr_right fun hc => not_congr ⟨fun hid => ?_, fun hm => ?_⟩
    · obtain ⟨c', hc', hsame⟩ := List.mem_map.mp hid
      obtain ⟨hmem, hmatch⟩ := (hcs c').mp hc'
      rwa [List.inj_on_of_nodup_map d.ids hmem hc hsame] at hmatch
    · exact List.mem_map_of_mem ((hcs c).mpr ⟨hc, hm⟩)
  have hown : ∀ v, (∃ c ∈ d.containers, matching c.task ∧ c.task.stateVolume = v) ↔
      ∃ c ∈ cs, c.task.stateVolume = v := by
    intro v
    constructor
    · rintro ⟨c, hc, hm, hv⟩
      exact ⟨c, (hcs c).mpr ⟨hc, hm⟩, hv⟩
    · rintro ⟨c, hc, hv⟩
      exact ⟨c, ((hcs c).mp hc).1, ((hcs c).mp hc).2, hv⟩
  constructor
  · rintro ⟨-, hvolumes⟩ v hv
    have hiff := hvolumes v
    rw [Daemon.mem_sweep_volumes, hown] at hiff
    have hnot := (and_congr_right_iff.mp hiff) hv
    exact (not_iff_not.mp hnot).symm
  · intro h
    refine ⟨hcontainers, fun v => ?_⟩
    rw [Daemon.mem_sweep_volumes, hown]
    exact and_congr_right fun hv => not_congr (h v hv).symm

section terminates
variable {docker : Daemon → List String → Except String String × Daemon}

theorem terminates_execDocker (args : List String) :
    Proc.Terminates (dockerHost docker) (execDocker args) :=
  .perform fun d => ⟨d, (), (docker d args).2, (docker d args).1, rfl, trivial, rfl⟩

theorem terminates_execDocker_ (args : List String) :
    Proc.Terminates (dockerHost docker) (execDocker_ args) := by
  refine .bind (terminates_execDocker args) fun r => ?_
  cases r with
  | error => exact .pure
  | ok => exact .pure

theorem terminates_removeVolumeIfExists (name : String) :
    Proc.Terminates (dockerHost docker) (removeVolumeIfExists name) := by
  refine .ite (fun _ => .pure) fun _ => .bind (terminates_execDocker _) fun r => ?_
  cases r with
  | error => exact .pure
  | ok => exact .ite (fun _ => terminates_execDocker_ _) fun _ => .pure

theorem terminates_removeListed (lines : List (List Char)) (lastErr : Option String) :
    Proc.Terminates (dockerHost docker) (removeListed lines lastErr) := by
  induction lines generalizing lastErr with
  | nil => exact .pure
  | cons line lines ih =>
    refine .ite (fun _ => ih lastErr) fun _ => .bind (terminates_execDocker _) fun r => ?_
    cases r with
    | error e => exact ih (some e)
    | ok =>
      exact .ite (fun _ => .bind (terminates_removeVolumeIfExists _) fun _ => ih lastErr)
        fun _ => ih lastErr

theorem terminates_removeByFilter (filter : String) :
    Proc.Terminates (dockerHost docker) (removeByFilter filter) := by
  refine .bind (terminates_execDocker _) fun r => ?_
  cases r with
  | error => exact .pure
  | ok => exact terminates_removeListed _ none

/-- A call that always leaves the same state removes what is missing there. -/
theorem removes_iff {call : DockerProc (Option String)} {d d₁ : Daemon}
    (hends : Proc.Terminates (dockerHost docker) call)
    (hafter : Proc.After (dockerHost docker) call d fun _ _ d' => d' = d₁)
    (matching : ControllerRuntimeTask → Prop) :
    Removes docker call matching d ↔ Removed matching d d₁ := by
  constructor
  · rintro ⟨ops, d', hrun, hremoved⟩
    obtain ⟨_, _, rfl, rfl⟩ := hafter.toThread hrun
    exact hremoved
  · intro hremoved
    obtain ⟨ops, d', hrun⟩ := hends.toThread (fun _ => rfl) d
    obtain ⟨_, _, rfl, rfl⟩ := hafter.toThread hrun
    exact ⟨ops, _, hrun, hremoved⟩

end terminates

section calls
variable {docker : Daemon → List String → Except String String × Daemon}
  (hdocker : DockerBehaves docker)
include hdocker

/-- Nothing is listed, and nothing is removed. -/
theorem after_removeByFilter_none {d : Daemon} {key value : String} (hkey : '=' ∉ key.toList)
    (hnone : d.withLabel key value = []) :
    Proc.After (dockerHost docker) (removeByFilter ("label=" ++ key ++ "=" ++ value)) d
      fun _ _ d' => d' = d := by
  have hps := hdocker.ps d key value hkey
  rw [hnone] at hps
  refine .bind (after_execDocker hps) ?_
  rintro _ _ _ ⟨rfl, rfl⟩
  exact .pure rfl

theorem after_removeByFilter {d : Daemon} {key value : String} (hkey : '=' ∉ key.toList)
    (hplain : PrintsLines (d.withLabel key value)) :
    Proc.After (dockerHost docker) (removeByFilter ("label=" ++ key ++ "=" ++ value)) d
      fun _ _ d' =>
      d' =
        d.sweep ((d.withLabel key value).zip (listingLines (listing (d.withLabel key value)))) := by
  by_cases hnone : d.withLabel key value = []
  · rw [hnone]
    exact after_removeByFilter_none hdocker hkey hnone
  · refine .bind (after_execDocker (hdocker.ps d key value hkey)) ?_
    rintro _ _ _ ⟨rfl, rfl⟩
    refine after_removeListed hdocker (listingLines_listing hnone hplain) _
      (fun c hc => List.mem_of_mem_filter hc) ?_ none
    exact (List.filter_sublist.map _).nodup (Daemon.ids _)

/-- A label that goes with the task selects the containers of the tasks that match. -/
theorem removes_label_iff (d : Daemon) {key value : String} (hkey : '=' ∉ key.toList)
    (matching : ControllerRuntimeTask → Prop)
    (hlabel : ∀ c : ServiceContainer, (key, value) ∈ c.labels ↔ matching c.task)
    (hplain : PrintsLines (d.withLabel key value)) :
    Removes docker (removeByFilter ("label=" ++ key ++ "=" ++ value)) matching d ↔
      VolumesNamed d (d.withLabel key value) := by
  have hcs : ∀ c, c ∈ d.withLabel key value ↔ c ∈ d.containers ∧ matching c.task := by
    intro c
    rw [Daemon.withLabel, List.mem_filter, decide_eq_true_eq, hlabel]
  rw [removes_iff (terminates_removeByFilter _) (after_removeByFilter hdocker hkey hplain)]
  refine removed_sweep_iff ?_ hcs
  by_cases hnone : d.withLabel key value = []
  · rw [hnone]
    exact Nat.zero_le _
  · exact (listingLines_listing hnone hplain).length_eq.le

end calls

section service
variable {docker : Daemon → List String → Except String String × Daemon}
  (hdocker : DockerBehaves docker)
include hdocker

/-- The second label is taken for a part of the first one's value, which is a number, so that no
container is listed. -/
theorem removeService_iff (d : Daemon) (teamID challengeID : Int) :
    Removes docker (removeService teamID challengeID)
        (fun task => task.teamID = teamID ∧ task.challengeID = challengeID) d ↔
      ∀ c ∈ d.containers, ¬ (c.task.teamID = teamID ∧ c.task.challengeID = challengeID) := by
  have hfilter :
      removeService teamID challengeID = removeByFilter ("label=" ++ "adplatform.team_id" ++
      "=" ++ (teamID.repr ++ ",label=adplatform.challenge_id=" ++ challengeID.repr)) := by
    rw [removeService]
    simp only [String.append_assoc]
    rfl
  have hnone : d.withLabel "adplatform.team_id"
      (teamID.repr ++ ",label=adplatform.challenge_id=" ++ challengeID.repr) = [] := by
    refine List.filter_eq_nil_iff.mpr fun c _ => ?_
    rw [decide_eq_true_eq, c.team_iff]
    intro heq
    have hcomma : ',' ∈ c.task.teamID.repr.toList := by
      rw [← heq, String.toList_append, String.toList_append]
      exact List.mem_append_left _ (List.mem_append_right _ (by decide))
    exact Decimal.not_mem rfl (by decide) _ hcomma
  rw [hfilter, removes_iff (terminates_removeByFilter _)
    (after_removeByFilter_none hdocker (by decide) hnone)]
  constructor
  · intro hremoved c hc hmatch
    exact ((hremoved.1 c).mp hc).2 hmatch
  · intro hnot
    refine ⟨fun c => ⟨fun hc => ⟨hc, hnot c hc⟩, And.left⟩, fun v => ⟨fun hv => ⟨hv, ?_⟩, And.left⟩⟩
    rintro ⟨c, hc, hmatch, -⟩
    exact hnot c hc hmatch

end service

/-- When the three calls remove exactly the services that they are to remove. -/
theorem services_removed_iff {docker : Daemon → List String → Except String String × Daemon}
    (hdocker : DockerBehaves docker) (d : Daemon) :
    (∀ teamID challengeID, Removes docker (removeService teamID challengeID)
        (fun task => task.teamID = teamID ∧ task.challengeID = challengeID) d ↔
      ∀ c ∈ d.containers, ¬ (c.task.teamID = teamID ∧ c.task.challengeID = challengeID)) ∧
    (∀ teamID, PrintsLines (d.withLabel "adplatform.team_id" teamID.repr) →
      (Removes docker (removeTeamServices teamID) (fun task => task.teamID = teamID) d ↔
        VolumesNamed d (d.withLabel "adplatform.team_id" teamID.repr))) ∧
    ∀ challengeID, PrintsLines (d.withLabel "adplatform.challenge_id" challengeID.repr) →
      (Removes docker (removeChallengeServices challengeID)
          (fun task => task.challengeID = challengeID) d ↔
        VolumesNamed d (d.withLabel "adplatform.challenge_id" challengeID.repr)) := by
  refine ⟨removeService_iff hdocker d, fun teamID hplain => ?_, fun challengeID hplain => ?_⟩
  · have hkey : '=' ∉ "adplatform.team_id".toList := by decide
    have hfilter : removeTeamServices teamID =
        removeByFilter ("label=" ++ "adplatform.team_id" ++ "=" ++ teamID.repr) := rfl
    rw [hfilter]
    refine removes_label_iff hdocker d hkey _ (fun c => ?_) hplain
    rw [c.team_iff]
    exact ⟨fun h => Int.repr_injective h.symm, fun h => by rw [h]⟩
  · have hkey : '=' ∉ "adplatform.challenge_id".toList := by decide
    have hfilter : removeChallengeServices challengeID =
        removeByFilter ("label=" ++ "adplatform.challenge_id" ++ "=" ++ challengeID.repr) := rfl
    rw [hfilter]
    refine removes_label_iff hdocker d hkey _ (fun c => ?_) hplain
    rw [c.challenge_iff]
    exact ⟨fun h => Int.repr_injective h.symm, fun h => by rw [h]⟩

/-! ## A host with two teams -/

/-- The commands on a host. -/
def localDocker (d : Daemon) : List String → Except String String × Daemon
  | ["ps", "-a", "--filter", filter, "--format", _] =>
    let label := filter.toList.drop "label=".toList.length
    (.ok (listing (d.withLabel (String.ofList (label.takeWhile (· ≠ '=')))
      (String.ofList ((label.dropWhile (· ≠ '=')).drop 1)))), d)
  | ["rm", "-f", id] => (.ok (id ++ "\n"), d.without id)
  | ["volume", "ls", "--filter", filter, "--format", _] =>
    let name := String.ofList (filter.toList.drop "name=^".toList.length).dropLast
    (.ok (if name ∈ d.volumes then name ++ "\n" else ""), d)
  | ["volume", "rm", "-f", name] => (.ok (name ++ "\n"), d.dropVolume name)
  | _ => (.error "unknown command", d)

theorem splitOnAux_newline (l m : List Char) (h : '\n' ∉ m) :
    String.splitOnAux (String.ofList (l ++ m)) "\n" 0 ⟨String.utf8Len l⟩ 0 [] =
      [String.ofList (l ++ m)] := by
  induction m generalizing l with
  | nil =>
    rw [String.splitOnAux, if_pos ((String.atEnd_of_valid l []).mpr rfl), List.reverse_singleton,
      List.append_nil, ← String.rawEndPos_ofList, String.extract_zero_rawEndPos]
  | cons c m ih =>
    rw [List.mem_cons, not_or] at h
    have hend : ¬ String.Pos.Raw.atEnd (String.ofList (l ++ c :: m)) ⟨String.utf8Len l⟩ = true := by
      rw [String.atEnd_of_valid]
      exact List.cons_ne_nil _ _
    have hget : ¬ (String.Pos.Raw.get (String.ofList (l ++ c :: m)) ⟨String.utf8Len l⟩ ==
        String.Pos.Raw.get "\n" 0) = true := by
      rw [String.get_of_valid, List.headD_cons, beq_iff_eq]
      exact Ne.symm h.1
    have hnext : String.Pos.Raw.next (String.ofList (l ++ c :: m))
        (String.Pos.Raw.unoffsetBy ⟨String.utf8Len l⟩ 0) = ⟨String.utf8Len (l ++ [c])⟩ := by
      rw [String.utf8Len_append, String.utf8Len_cons, String.utf8Len_nil, Nat.zero_add]
      exact String.next_of_valid l c m
    rw [String.splitOnAux, if_neg hend, if_neg hget, hnext]
    have hrest := ih (l ++ [c]) h.2
    rwa [List.append_assoc, List.singleton_append] at hrest

theorem splitOn_newline {s : String} (h : '\n' ∉ s.toList) : s.splitOn "\n" = [s] := by
  have hrun := splitOnAux_newline [] s.toList h
  rw [List.nil_append, String.ofList_toList] at hrun
  exact hrun

/-- A name is read back from a line of its own. -/
theorem listed_line {name : String} (h : ∀ c ∈ name.toList, isSpace c = false)
    (hne : name.toList ≠ []) : listed (name ++ "\n") name = true := by
  obtain ⟨x, rest, hname⟩ := List.exists_cons_of_ne_nil hne
  have hhead : ∃ c, name.toList.head? = some c ∧ isSpace c = false := by
    refine ⟨x, by rw [hname]; rfl, h x ?_⟩
    rw [hname]
    exact List.mem_cons_self
  have hlast : ∃ c, name.toList.getLast? = some c ∧ isSpace c = false :=
    ⟨_, List.getLast?_eq_some_getLast hne, h _ (List.getLast_mem hne)⟩
  have hbreak : ∀ c ∈ "\n".toList, isSpace c = true := List.all_eq_true.mp (by decide)
  have htrim : trimSpace ("" ++ name ++ "\n") = name :=
    trimSpace_pad (fun c hc => absurd hc List.not_mem_nil) hbreak hhead hlast
  have hline : '\n' ∉ name.toList := fun hmem => absurd (h _ hmem) (by decide)
  rw [String.empty_append] at htrim
  rw [listed, htrim, splitOn_newline hline, List.any_cons, trimSpace_eq_self h, decide_eq_true rfl,
    Bool.true_or]

theorem volumeName_read (name : String) :
    String.ofList
      (("name=^" ++ name ++ "$").toList.drop "name=^".toList.length).dropLast = name := by
  rw [String.append_assoc, String.toList_append, List.drop_left, String.toList_append]
  have hdollar : "$".toList = ['$'] := rfl
  rw [hdollar, List.dropLast_concat, String.ofList_toList]

theorem localDocker_behaves : DockerBehaves localDocker where
  ps d key value hkey := by
    have hlabel : ("label=" ++ key ++ "=" ++ value).toList.drop "label=".toList.length =
        key.toList ++ '=' :: value.toList := by
      rw [String.append_assoc, String.append_assoc, String.toList_append, List.drop_left,
        String.toList_append, String.toList_append]
      rfl
    have hplain : ∀ c ∈ key.toList, decide (c ≠ '=') = true :=
      fun c hc => decide_eq_true fun h => hkey (h ▸ hc)
    have hkeyRead : (key.toList ++ '=' :: value.toList).takeWhile (· ≠ '=') = key.toList := by
      rw [List.takeWhile_append_of_pos hplain, List.takeWhile_cons_of_neg (by decide),
        List.append_nil]
    have hvalueRead : ((key.toList ++ '=' :: value.toList).dropWhile (· ≠ '=')).drop 1 =
        value.toList := by
      rw [List.dropWhile_append_of_pos hplain, List.dropWhile_cons_of_neg (by decide)]
      rfl
    rw [psArgs, localDocker, hlabel, hkeyRead, hvalueRead, String.ofList_toList,
      String.ofList_toList]
  rm d c _ := ⟨c.id ++ "\n", rfl⟩
  volumeLs d name hname := by
    refine ⟨name ++ "\n", listed_line (d.names name hname).2 (d.names name hname).1, ?_⟩
    rw [localDocker, volumeName_read, if_pos hname]
  volumeLs_missing d name hname hblank := by
    refine ⟨.ok "", fun output h => ?_, ?_⟩
    · cases h
      have hempty : trimSpace "" = "" := by decide
      rw [listed, hempty, splitOn_newline (by decide), List.any_cons, List.any_nil, hempty,
        Bool.or_false, decide_eq_false_iff_not]
      rintro rfl
      exact hblank hempty
    · rw [localDocker, volumeName_read, if_neg hname]
  volumeRm d name _ := ⟨.ok (name ++ "\n"), rfl⟩

/-- The executor of the host. -/
def localExecutor : DockerExecutor where
  stateMountPath := "/var/lib/service"
  serviceSecurity := {}
  sshContractMode := "disabled"
  planDockerNetwork _ := .error "no network"
  issueUnlockProof _ _ _ := "proof"
  probes := 0

/-- The task of a service of the chat challenge. -/
def localTask (teamID challengeID : Int) (stateVolume : String) : ControllerRuntimeTask where
  deploymentJobID := 1
  teamID
  challengeID
  challengeName := "chat"
  runtimeKind := "docker"
  containerName := "svc-chat"
  stateVolume
  baselineImage := "chat:latest"
  checkerToken := "token"
  endpoint := "10.0.0.9:8080"
  sshHost := "10.0.0.9"
  servicePort := 8080
  unlockProofEpoch := 1

theorem taskAddress_localTask (teamID challengeID : Int) (stateVolume : String) :
    taskAddress (localTask teamID challengeID stateVolume) = ("10.0.0.9", 8080) := by
  have hhost : trimSpace "10.0.0.9" = "10.0.0.9" := by decide
  have hne : ¬ trimSpace "10.0.0.9" = "" := by decide
  rw [taskAddress]
  generalize parseEndpoint _ = endpoint
  obtain ⟨host, port⟩ := endpoint
  refine Prod.ext ?_ ?_
  · exact (if_neg hne).trans hhost
  · exact if_neg (t := port) (show ¬ (8080 : Int) = 0 by decide)

theorem word_of_all {s : String} (hne : s.toList ≠ [])
    (h : (s.toList.all fun c => !isSpace c) = true) :
    s.toList ≠ [] ∧ ∀ c ∈ s.toList, isSpace c = false :=
  ⟨hne, fun c hc => by simpa using List.all_eq_true.mp h c hc⟩

/-- The labels that the container of a task was given. -/
def localLabels (teamID challengeID : Int) (stateVolume : String) : List (String × String) :=
  [("adplatform.team_id", teamID.repr), ("adplatform.challenge_id", challengeID.repr),
   ("adplatform.deployment_job_id", "1"), ("adplatform.service_ip", "10.0.0.9"),
   ("adplatform.service_port", "8080"), ("adplatform.state_volume", stateVolume)]

theorem localLabels_keys (teamID challengeID : Int) (stateVolume : String) :
    ((localLabels teamID challengeID stateVolume).map Prod.fst).Nodup ∧
      ∀ label ∈ localLabels teamID challengeID stateVolume, '=' ∉ label.1.toList := by
  have hkeys : (localLabels teamID challengeID stateVolume).map Prod.fst =
      (localLabels 0 0 "").map Prod.fst := rfl
  have hplain : ∀ key ∈ (localLabels 0 0 "").map Prod.fst, '=' ∉ key.toList := by decide
  rw [hkeys]
  refine ⟨by decide, fun label hlabel => hplain label.1 ?_⟩
  rw [← hkeys]
  exact List.mem_map_of_mem hlabel

/-- A container that the executor has started for such a task. -/
def localContainer (id : String) (hid : id.toList ≠ [] ∧ ∀ c ∈ id.toList, isSpace c = false)
    (teamID challengeID : Int) (stateVolume : String) : ServiceContainer where
  id
  labels := localLabels teamID challengeID stateVolume
  mounts := [stateVolume]
  executor := localExecutor
  network := ""
  task := localTask teamID challengeID stateVolume
  id_word := hid
  keys := localLabels_keys teamID challengeID stateVolume
  created := by
    rw [labelFlags_buildDockerRunArgs, taskAddress_localTask]
    intro text htext
    simp only [List.mem_cons, List.not_mem_nil, or_false] at htext
    rcases htext with rfl | rfl | rfl | rfl | rfl | rfl
    · exact ⟨("adplatform.team_id", teamID.repr), by simp [localLabels], rfl⟩
    · exact ⟨("adplatform.challenge_id", challengeID.repr), by simp [localLabels], rfl⟩
    · exact ⟨("adplatform.deployment_job_id", "1"), by simp [localLabels], rfl⟩
    · exact ⟨("adplatform.service_ip", "10.0.0.9"), by simp [localLabels], rfl⟩
    · exact ⟨("adplatform.service_port", "8080"), by simp [localLabels], rfl⟩
    · exact ⟨("adplatform.state_volume", stateVolume), by simp [localLabels], rfl⟩

/-- The containers of two teams with the same challenge. -/
def firstService : ServiceContainer :=
  localContainer "9c01" (word_of_all (by decide) (by decide)) 101 1 "state-101-1"

/-- The service of a second team. -/
def secondService : ServiceContainer :=
  localContainer "4f2a" (word_of_all (by decide) (by decide)) 102 1 "state-102-1"

/-- A host with the services of two teams. -/
def twoTeams : Daemon where
  containers := [secondService, firstService]
  volumes := ["state-101-1", "state-102-1"]
  ids := by decide
  names := by
    intro name hname
    rcases List.mem_cons.mp hname with rfl | hname
    · exact word_of_all (by decide) (by decide)
    · obtain rfl := List.mem_singleton.mp hname
      exact word_of_all (by decide) (by decide)

/-- The services of the first team go, and those of the second stay. -/
theorem services_removed_iff_twoTeams :
    Removes localDocker (removeTeamServices 101) (fun task => task.teamID = 101) twoTeams := by
  have hlisted : twoTeams.withLabel "adplatform.team_id" (101 : Int).repr = [firstService] := rfl
  have hlines : PrintsLines [firstService] := by
    unfold PrintsLines
    decide +kernel
  have hplain : firstService.Plain := ⟨by decide, (word_of_all (by decide) (by decide)).2⟩
  refine ((services_removed_iff localDocker_behaves twoTeams).2.1 101 (hlisted ▸ hlines)).mpr ?_
  rw [hlisted]
  refine volumesNamed_of_plain hlines (fun c hc => ?_) fun c hc c' hc' hmount => ?_
  · rwa [List.mem_singleton.mp hc]
  · obtain rfl := List.mem_singleton.mp hc
    rcases List.mem_cons.mp hc' with rfl | hc'
    · exact absurd (List.mem_singleton.mp hmount) (by decide)
    · exact List.mem_singleton.mp hc'

/-- A service of the first team is there, and stays there. -/
theorem service_not_removed :
    ¬ ∀ docker, DockerBehaves docker → ∀ (d : Daemon) (teamID challengeID : Int),
      Removes docker (removeService teamID challengeID)
        (fun task => task.teamID = teamID ∧ task.challengeID = challengeID) d := by
  intro h
  have hremoved := h localDocker localDocker_behaves twoTeams 101 1
  rw [removeService_iff localDocker_behaves] at hremoved
  exact hremoved firstService (List.mem_cons_of_mem _ List.mem_cons_self) ⟨rfl, rfl⟩

end ADPlatform.Controller
