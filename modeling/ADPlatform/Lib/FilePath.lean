import Mathlib.Data.List.Basic
import Mathlib.Data.List.Infix
import ADPlatform.Lib.Encoding

/-! # Paths and symbolic links

Paths of a Unix system as the Go package `filepath` cleans, joins and relates them, and a file
system with symbolic links in which a path is resolved name by name. `prefix_of_rel` says what a
relative path that does not climb tells: the one location lies below the other. -/

namespace FilePath

/-- A path as its characters. -/
abbrev Text := List Char

/-- The name of the directory above. -/
def up : Text := ['.', '.']

/-- The path starts at the root. -/
def isAbs (path : Text) : Bool := path.head? = some '/'

/-- The names of a path, without the empty ones. -/
def names (path : Text) : List Text := (path.splitOn '/').filter (· ≠ [])

/-- The absolute path of a location. -/
def text (location : List Text) : Text := '/' :: ['/'].intercalate location

/-- One name of a path that is cleaned, behind those that are left of the names before it. -/
def cleanStep (rooted : Bool) (left : List Text) (name : Text) : List Text :=
  if name = ['.'] then left
  else if name = up then
    match left.getLast? with
    | none => if rooted then [] else [up]
    | some last => if last = up then left ++ [up] else left.dropLast
  else left ++ [name]

/-- `filepath.Clean`. -/
def clean (path : Text) : Text :=
  let left := (names path).foldl (cleanStep (isAbs path)) []
  if isAbs path then text left else if left = [] then ['.'] else ['/'].intercalate left

/-- `filepath.Join`. -/
def join (elements : List Text) : Text :=
  if elements.filter (· ≠ []) = [] then [] else clean (['/'].intercalate (elements.filter (· ≠ [])))

/-- What is left of two paths behind their common beginning. -/
def stripCommon : List Text → List Text → List Text × List Text
  | b :: base, t :: target => if b = t then stripCommon base target else (b :: base, t :: target)
  | base, target => (base, target)

/-- `filepath.Rel`. -/
def rel (base target : Text) : Option Text :=
  let base := clean base
  let target := clean target
  if target = base then some ['.']
  else if isAbs base ≠ isAbs target then none
  else
    let (base, target) := stripCommon (if base = ['.'] then [] else names base) (names target)
    if base.head? = some up then none
    else some (['/'].intercalate (base.map (fun _ => up) ++ target))

/-! ## Locations -/

/-- A name of a directory entry. -/
def Proper (name : Text) : Prop := name ≠ [] ∧ '/' ∉ name ∧ name ≠ ['.'] ∧ name ≠ up

variable {base target location : List Text} {path : Text}

theorem names_text (h : ∀ name ∈ location, name ≠ [] ∧ '/' ∉ name) :
    names (text location) = location := by
  have hfilter : location.filter (· ≠ []) = location :=
    List.filter_eq_self.mpr fun name hname => decide_eq_true (h name hname).1
  have hroot : text location = ['/'].intercalate ([] :: location) ∨ location = [] := by
    cases location with
    | nil => exact .inr rfl
    | cons name location =>
      refine .inl ?_
      rw [List.intercalate_cons_cons]
      rfl
  rcases hroot with hroot | rfl
  · rw [names, hroot, List.splitOn_intercalate '/' ?_ (List.cons_ne_nil _ _),
      List.filter_cons_of_neg (by simp)]
    · exact hfilter
    · intro name hname
      rcases List.mem_cons.mp hname with rfl | hname
      · exact List.not_mem_nil
      · exact (h name hname).2
  · decide

theorem foldl_cleanStep_proper {rooted : Bool} {left : List Text}
    (h : ∀ name ∈ location, Proper name) :
    location.foldl (cleanStep rooted) left = left ++ location := by
  induction location generalizing left with
  | nil => simp
  | cons name location ih =>
    obtain ⟨-, -, hdot, hup⟩ := h name (.head _)
    rw [List.foldl_cons, cleanStep, if_neg hdot, if_neg hup, ih fun name hname =>
      h name (.tail _ hname),
      List.append_assoc, List.singleton_append]

/-- The path of a location is clean. -/
theorem clean_text (h : ∀ name ∈ location, Proper name) :
    clean (text location) = text location := by
  have habs : isAbs (text location) = true := rfl
  rw [clean, names_text fun name hname => ⟨(h name hname).1, (h name hname).2.1⟩, habs, if_pos rfl,
    foldl_cleanStep_proper h, List.nil_append]

theorem stripCommon_spec (base target : List Text) :
    ∃ common, base = common ++ (stripCommon base target).1 ∧
    target = common ++ (stripCommon base target).2 := by
  fun_induction stripCommon base target with
  | case1 base name target ih =>
    obtain ⟨common, hbase, htarget⟩ := ih
    exact ⟨name :: common, by rw [List.cons_append, ← hbase], by rw [List.cons_append, ← htarget]⟩
  | case2 | case3 => exact ⟨[], rfl, rfl⟩

/-- A relative path that does not go up leads to a location below. -/
theorem prefix_of_rel (hbase : ∀ name ∈ base, Proper name) (htarget : ∀ name ∈ target, Proper name)
    {relative : Text} (h : rel (text base) (text target) = some relative) (hup : relative ≠ up)
    (hclimb : ¬up ++ ['/'] <+: relative) : base <+: target := by
  have hplain : ∀ {location : List Text}, (∀ name ∈ location, Proper name) →
      names (text location) = location :=
    fun hproper => names_text fun name hname => ⟨(hproper name hname).1, (hproper name hname).2.1⟩
  rw [rel, clean_text hbase, clean_text htarget] at h
  dsimp only at h
  split at h
  · rename_i heq
    rw [← hplain hbase, ← hplain htarget, heq]
  have hnames : (if text base = ['.'] then [] else names (text base)) = base := by
    rw [if_neg (by simp [text]), hplain hbase]
  rw [if_neg (by simp [isAbs, text]), hnames, hplain htarget] at h
  obtain ⟨common, hb, ht⟩ := stripCommon_spec base target
  generalize stripCommon base target = rest at h hb ht
  obtain ⟨climbs, descent⟩ := rest
  dsimp only at h hb ht
  cases climbs with
  | nil =>
    rw [List.append_nil] at hb
    exact ⟨descent, by rw [ht, hb]⟩
  | cons name climbs =>
    exfalso
    split at h
    · cases h
    obtain rfl := Option.some.inj h
    rw [List.map_cons, List.cons_append] at hup hclimb
    cases hrest : climbs.map (fun _ => up) ++ descent with
    | nil =>
      rw [hrest, List.intercalate_singleton] at hup
      exact hup rfl
    | cons next rest =>
      rw [hrest, List.intercalate_cons_cons, List.append_assoc, ← List.append_assoc] at hclimb
      exact hclimb (List.prefix_append _ _)

/-! ## Symbolic links -/

/-- What a path can name. -/
inductive Entry where
  | dir | file
  | link (target : Text)
  deriving DecidableEq

/-- A file system with what a process sees of it. The location of the root is empty. -/
structure FileSystem where
  /-- `lstat`: an entry by its location, none of whose directories is a link -/
  entry : List Text → Option Entry
  getwd : Option Text
  getwd_abs : ∀ cwd, getwd = some cwd → isAbs cwd = true

/-- Why a path cannot be followed. -/
inductive PathError where
  | notExist | notDirectory | tooManyLinks | noWorkingDirectory
  deriving DecidableEq, Repr

namespace FileSystem
variable (fs : FileSystem)

/-- `filepath.Abs`. -/
def abs (path : Text) : Except PathError Text :=
  if isAbs path then .ok (clean path)
  else match fs.getwd with
  | none => .error .noWorkingDirectory
  | some cwd => .ok (join [cwd, path])

/-- Names are followed from a location up to the first link. -/
def follow (location : List Text) : List Text →
    Except PathError (List Text × Option (Text × List Text))
  | [] => .ok (location, none)
  | name :: rest =>
    if name = [] || name = ['.'] then follow location rest
    else if name = up then follow location.dropLast rest
    else match fs.entry (location ++ [name]) with
    | none => .error .notExist
    | some .dir => follow (location ++ [name]) rest
    | some .file => if rest = [] then .ok (location ++ [name], none) else .error .notDirectory
    | some (.link target) => .ok (location, some (target, rest))

/-- The location that names lead to, over at most so many links. -/
def resolve : Nat → List Text → List Text → Except PathError (List Text)
  | links, location, path => do
    match ← fs.follow location path with
    | (location, none) => .ok location
    | (location, some (target, rest)) =>
      match links with
      | 0 => .error .tooManyLinks
      | links + 1 =>
        resolve links (if isAbs target then [] else location) (target.splitOn '/' ++ rest)

/-- `filepath.EvalSymlinks` of an absolute path. -/
def evalSymlinks (path : Text) : Except PathError Text :=
  (fs.resolve 255 [] (path.splitOn '/')).map text

/-- `os.Stat` of an absolute path. -/
def stat (path : Text) : Except PathError Entry := do
  let location ← fs.resolve 255 [] (path.splitOn '/')
  if location = [] then .ok .dir
  else match fs.entry location with
  | none => .error .notExist
  | some entry => .ok entry

/-- A location that is reached over no link. -/
def Physical (location : List Text) : Prop :=
  (∀ name ∈ location, Proper name) ∧ ∀ before : List Text, before <+: location → before ≠ [] →
    ∃ entry, fs.entry before = some entry ∧ ∀ target, entry ≠ .link target

variable {fs} {location location' rest : List Text} {path target : Text}
  {next : Option (Text × List Text)}

theorem Physical.of_prefix (h : fs.Physical location) (hfront : location' <+: location) :
    fs.Physical location' :=
  ⟨fun name hname => h.1 name (hfront.subset hname),
    fun before hbefore hne => h.2 before (hbefore.trans hfront) hne⟩

theorem physical_root : fs.Physical [] :=
  ⟨by simp, fun before hbefore hne => absurd (List.prefix_nil.mp hbefore) hne⟩

theorem Physical.concat (h : fs.Physical location) {name : Text} (hname : Proper name)
    {entry : Entry}
    (hentry : fs.entry (location ++ [name]) = some entry) (hlink : ∀ target, entry ≠ .link target) :
    fs.Physical (location ++ [name]) := by
  constructor
  · intro other hother
    rcases List.mem_append.mp hother with hother | hother
    · exact h.1 other hother
    · rw [List.mem_singleton.mp hother]
      exact hname
  · intro before hbefore hne
    rcases List.prefix_concat_iff.mp hbefore with rfl | hbefore
    · exact ⟨entry, hentry, hlink⟩
    · exact h.2 before hbefore hne

theorem physical_follow {names : List Text} (h : fs.Physical location)
    (hnames : ∀ name ∈ names, '/' ∉ name)
    (hfollow : fs.follow location names = .ok (location', next)) :
    fs.Physical location' ∧ ∀ target rest, next = some (target, rest) →
      ∀ name ∈ rest, '/' ∉ name := by
  induction names generalizing location with
  | nil =>
    cases hfollow
    exact ⟨h, by simp⟩
  | cons name names ih =>
    have htail : ∀ name ∈ names, '/' ∉ name := fun other hother => hnames other (.tail _ hother)
    rw [follow] at hfollow
    split at hfollow
    · exact ih h htail hfollow
    rename_i hname
    split at hfollow
    · exact ih (h.of_prefix (List.dropLast_prefix _)) htail hfollow
    rename_i hup
    have hproper : Proper name := by
      simp only [Bool.or_eq_true, decide_eq_true_eq, not_or] at hname
      exact ⟨hname.1, hnames name (.head _), hname.2, hup⟩
    split at hfollow
    · cases hfollow
    · rename_i hentry
      exact ih (h.concat hproper hentry (by simp)) htail hfollow
    · rename_i hentry
      split at hfollow
      · cases hfollow
        exact ⟨h.concat hproper hentry (by simp), by simp⟩
      · cases hfollow
    · cases hfollow
      refine ⟨h, ?_⟩
      rintro target rest ⟨⟩
      exact htail

theorem physical_resolve {links : Nat} {names : List Text} (h : fs.Physical location)
    (hnames : ∀ name ∈ names, '/' ∉ name)
    (hresolve : fs.resolve links location names = .ok location') :
    fs.Physical location' := by
  induction links generalizing location names with
  | zero =>
    rw [resolve] at hresolve
    obtain ⟨⟨location₁, next⟩, hfollow, hresolve⟩ := Text.exists_of_bind_eq_ok hresolve
    obtain ⟨h₁, -⟩ := physical_follow h hnames hfollow
    cases next with
    | none =>
      cases hresolve
      exact h₁
    | some => cases hresolve
  | succ links ih =>
    rw [resolve] at hresolve
    obtain ⟨⟨location₁, next⟩, hfollow, hresolve⟩ := Text.exists_of_bind_eq_ok hresolve
    obtain ⟨h₁, hrest⟩ := physical_follow h hnames hfollow
    cases next with
    | none =>
      cases hresolve
      exact h₁
    | some link =>
      obtain ⟨target, rest⟩ := link
      refine ih ?_ ?_ hresolve
      · split
        · exact physical_root
        · exact h₁
      · intro name hname
        rcases List.mem_append.mp hname with hname | hname
        · exact Text.notMem_of_mem_splitOn hname
        · exact hrest target rest rfl name hname

/-- What is resolved has no link in it. -/
theorem physical_evalSymlinks (h : fs.evalSymlinks path = .ok target) :
    ∃ location, target = text location ∧ fs.Physical location := by
  rw [evalSymlinks] at h
  cases hresolve : fs.resolve 255 [] (path.splitOn '/') with
  | error e =>
    rw [hresolve] at h
    cases h
  | ok location =>
    rw [hresolve] at h
    cases h
    exact ⟨location, rfl, physical_resolve physical_root (fun _ =>
      Text.notMem_of_mem_splitOn) hresolve⟩

end FileSystem

end FilePath
