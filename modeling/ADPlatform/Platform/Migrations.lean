import Mathlib
import ADPlatform.Lib.WorkerPool

/-! # The migrations that services apply when they start

Every service that keeps its state in postgres runs the embedded migrations before it serves, many
of them at the same time. One session holds the advisory lock meanwhile; each migration is a
transaction of its script and of its row in `schema_migrations`. A script may use values that the
database draws at random, and a session may be lost at any time, with its lock and its transaction;
a statement may fail before or after it has taken effect. -/

namespace ADPlatform.Database
open Concurrent

/-! ## The embedded files -/

/-- What a service selects from the migrations. -/
structure MigrationOptions where
  includeSeeds : Bool
  deriving DecidableEq, Repr

/-- An entry of the embedded directory. -/
structure DirEntry where
  name : String
  isDir : Bool := false
  deriving DecidableEq, Repr

/-- The entries of a directory have distinct names. -/
structure MigrationsFS where
  entries : List DirEntry
  nodup : (entries.map (·.name)).Nodup

/-- A migration that fills tables with examples. -/
def isSeedMigration (version : String) : Bool := decide ("_seed.sql".toList <:+ version.toList)

namespace MigrationsFS

/-- The entries in the order of their names. -/
def sorted (fs : MigrationsFS) : List DirEntry := fs.entries.insertionSort (·.name ≤ ·.name)

/-- The migrations, in the order in which a start goes through them. -/
def versions (fs : MigrationsFS) : List String :=
  (fs.sorted.filter fun entry => !entry.isDir).map (·.name)

/-- Those that a start with these options applies. -/
def selected (fs : MigrationsFS) (options : MigrationOptions) : List String :=
  fs.versions.filter fun version => options.includeSeeds || !isSeedMigration version

theorem versions_pairwise (fs : MigrationsFS) : fs.versions.Pairwise (· < ·) := by
  have hsorted : (fs.sorted.map (·.name)).Pairwise (· ≤ ·) := by
    have : Std.Total fun a b : DirEntry => a.name ≤ b.name := ⟨fun a b => le_total a.name b.name⟩
    have : IsTrans DirEntry fun a b => a.name ≤ b.name := ⟨fun _ _ _ => le_trans⟩
    exact List.pairwise_map.mpr (List.pairwise_insertionSort _ _)
  have hnodup : (fs.sorted.map (·.name)).Nodup :=
    ((List.perm_insertionSort _ _).map _).nodup_iff.mpr fs.nodup
  have hlt : (fs.sorted.map (·.name)).Pairwise (· < ·) :=
    (hsorted.and hnodup).imp fun h => lt_of_le_of_ne h.1 h.2
  exact hlt.sublist (List.Sublist.map _ List.filter_sublist)

end MigrationsFS

/-! ## The database server -/

/-- What the database holds and the rows of `schema_migrations`, in the order of their insertion. -/
structure Tables (S : Type) where
  content : S
  migrations : Option (List String) := none

/-- The committed tables, the advisory lock and the sessions with their open transactions. `serving`
notes the services that have started, `failed` the errors of those that have not. -/
structure Server (S : Type) extends Tables S where
  lock : Option Nat := none
  next : Nat := 0
  alive : Nat → Bool := fun _ => false
  tx : Nat → Option (Tables S) := fun _ => none
  serving : List (Option MigrationOptions) := []
  failed : List String := []

/-- The versions that are recorded. -/
def Tables.versions {S : Type} (t : Tables S) : List String := t.migrations.getD []

/-- The statements of a session. -/
inductive Query where
  | advisoryLock
  | createTable
  | lookup (version : String)
  | beginTx
  | script (version : String)
  | record (version : String)
  | rollback
  | commit
  | advisoryUnlock
  deriving DecidableEq, Repr

/-- What a start does, and the end of a session. -/
inductive MigrationOp where
  | conn
  | query (session : Nat) (q : Query)
  | close (session : Nat)
  | disconnect (session : Nat)
  | serve (options : Option MigrationOptions)
  | fatal (err : String)
  deriving DecidableEq

/-- A statement other than the lookup and the unlock has nothing to say beside that it went well. -/
def MigrationOp.Res : MigrationOp → Type
  | conn => Except String Nat
  | query _ _ => Except String Bool
  | close _ | disconnect _ | serve _ | fatal _ => Unit

/-- The operation ends a session from outside. -/
def MigrationOp.isDisconnect : MigrationOp → Bool
  | disconnect _ => true
  | _ => false

/-- How an operation goes. One that is answered with an error may have been carried out. -/
inductive Outcome where
  | ok
  | error (done : Bool) (err : String)
  deriving DecidableEq

/-- How an operation goes, and the values that the database draws for it at random. -/
structure MigrationInput (ρ : Type) where
  outcome : Outcome := .ok
  random : ρ

namespace Server
variable {S : Type}

/-- A statement inside the transaction of a session. -/
def inTx (session : Nat) (f : Tables S → Except String (Tables S)) (s : Server S) :
    Except String (Server S × Bool) :=
  match s.tx session with
  | none => .error "sql: transaction has already been committed or rolled back"
  | some view => (f view).map fun view' =>
    ({ s with tx := Function.update s.tx session (some view') }, true)

/-- The session has no transaction any longer. -/
def endTx (session : Nat) (s : Server S) : Server S :=
  { s with tx := Function.update s.tx session none }

/-- The end of a session: its lock and its transaction are gone. -/
def disconnect (session : Nat) (s : Server S) : Server S :=
  { s.endTx session with
    alive := Function.update s.alive session false
    lock := if s.lock = some session then none else s.lock }

/-- Another session has the lock. -/
def lockedOut (session : Nat) (s : Server S) : Bool := s.lock.any (· ≠ session)

end Server

variable {S ρ : Type}

/-- What a statement does when it is carried out. `apply` runs a script. -/
def Query.exec (apply : String → ρ → S → Except String S) (random : ρ) (session : Nat)
    (s : Server S) :
    Query → Except String (Server S × Bool)
  | advisoryLock =>
    if s.lockedOut session then .error "canceling statement due to user request"
    else .ok ({ s with lock := some session }, true)
  | createTable => .ok ({ s with migrations := some s.versions }, true)
  | lookup version => match s.migrations with
    | none => .error "relation \"schema_migrations\" does not exist"
    | some rows => .ok (s, decide (version ∈ rows))
  | beginTx => match s.tx session with
    | some _ => .error "there is already a transaction in progress"
    | none => .ok ({ s with tx := Function.update s.tx session (some s.toTables) }, true)
  | script version => s.inTx session fun view =>
    (apply version random view.content).map fun content => { view with content }
  | record version => s.inTx session fun view => match view.migrations with
    | none => .error "relation \"schema_migrations\" does not exist"
    | some rows =>
      if version ∈ rows then
        .error "duplicate key value violates unique constraint \"schema_migrations_pkey\""
      else .ok { view with migrations := some (rows ++ [version]) }
  | rollback => .ok (s.endTx session, true)
  | commit => match s.tx session with
    | none => .error "sql: transaction has already been committed or rolled back"
    | some view => .ok ({ s.endTx session with toTables := view }, true)
  | advisoryUnlock =>
    .ok ({ s with lock := if s.lock = some session then none else s.lock },
      decide (s.lock = some session))

/-- A statement as its session sees it. -/
def Server.query (apply : String → ρ → S → Except String S) (input : MigrationInput ρ)
    (session : Nat)
    (q : Query) (s : Server S) : Server S × Except String Bool :=
  if s.alive session then
    match input.outcome, q.exec apply input.random session s with
    | .ok, .ok (t, answer) => (t, .ok answer)
    | .ok, .error err => (s, .error err)
    | .error done err, .ok (t, _) => (if done then t else s, .error err)
    | .error _ err, .error _ => (s, .error err)
  else (s, .error "driver: bad connection")

/-- `pg_advisory_lock` waits while another session has the lock. -/
def migrationSem (apply : String → ρ → S → Except String S) :
    Semantics (Server S) (MigrationInput ρ) MigrationOp MigrationOp.Res :=
  fun input op s => match op with
    | .conn => some <| match input.outcome with
      | .ok =>
        ({ s.endTx s.next with
            next := s.next + 1, alive := Function.update s.alive s.next true }, .ok s.next)
      | .error _ err => (s, .error err)
    | .query session q =>
      if s.alive session && decide (input.outcome = .ok) && decide (q = .advisoryLock) &&
          s.lockedOut session then none
      else some (s.query apply input session q)
    | .close _ => some (s, ())
    | .disconnect session => some (s.disconnect session, ())
    | .serve options => some ({ s with serving := s.serving ++ [options] }, ())
    | .fatal err => some ({ s with failed := s.failed ++ [err] }, ())

/-! ## The program -/

/-- A program of a start. -/
abbrev MigrationProc := Proc MigrationOp MigrationOp.Res

open Proc in
/-- Whether a migration is recorded. -/
def migrationApplied (session : Nat) (version : String) : MigrationProc (Except String Bool) := do
  match ← perform (MigrationOp.query session (.lookup version)) with
  | .error err => pure (.error ("lookup migration " ++ version ++ ": " ++ err))
  | .ok applied => pure (.ok applied)

open Proc in
/-- The transaction of one migration. -/
def applyMigration (session : Nat) (version : String) : MigrationProc (Except String Unit) := do
  match ← perform (MigrationOp.query session .beginTx) with
  | .error err => pure (.error err)
  | .ok _ =>
    match ← perform (MigrationOp.query session (.script version)) with
    | .error err =>
      let _ ← perform (MigrationOp.query session .rollback)
      pure (.error ("apply migration " ++ version ++ ": " ++ err))
    | .ok _ =>
      match ← perform (MigrationOp.query session (.record version)) with
      | .error err =>
        let _ ← perform (MigrationOp.query session .rollback)
        pure (.error ("record migration " ++ version ++ ": " ++ err))
      | .ok _ =>
        match ← perform (MigrationOp.query session .commit) with
        | .error err => pure (.error ("commit migration " ++ version ++ ": " ++ err))
        | .ok _ => pure (.ok ())

open Proc in
/-- The loop over the entries. -/
def applyMigrations (session : Nat) (options : MigrationOptions) :
    List DirEntry → MigrationProc (Except String Unit)
  | [] => pure (.ok ())
  | entry :: entries => do
    if entry.isDir then applyMigrations session options entries
    else if !options.includeSeeds && isSeedMigration entry.name then
      applyMigrations session options entries
    else
      match ← migrationApplied session entry.name with
      | .error err => pure (.error err)
      | .ok true => applyMigrations session options entries
      | .ok false =>
        match ← applyMigration session entry.name with
        | .error err => pure (.error err)
        | .ok () => applyMigrations session options entries

open Proc in
/-- What a start does with the lock in hand. -/
def lockedMigrations (fs : MigrationsFS) (session : Nat) (options : MigrationOptions) :
    MigrationProc (Except String Unit) := do
  match ← perform (MigrationOp.query session .createTable) with
  | .error err => pure (.error ("ensure schema_migrations: " ++ err))
  | .ok _ => applyMigrations session options fs.sorted

open Proc in
/-- A session takes the lock, applies what is missing and leaves the lock. -/
def runEmbeddedMigrationsWithOptions (fs : MigrationsFS) (options : MigrationOptions) :
    MigrationProc (Except String Unit) := do
  match ← perform MigrationOp.conn with
  | .error err => pure (.error ("open migration connection: " ++ err))
  | .ok session =>
    match ← perform (MigrationOp.query session .advisoryLock) with
    | .error err =>
      let () ← perform (MigrationOp.close session)
      pure (.error ("acquire migration lock: " ++ err))
    | .ok _ =>
      let result ← lockedMigrations fs session options
      let _ ← perform (MigrationOp.query session .advisoryUnlock)
      let () ← perform (MigrationOp.close session)
      pure result

open Proc in
/-- A service builds its store and serves, or ends with the error. Without `..._AUTO_MIGRATE` it has
no options. -/
def buildStore (fs : MigrationsFS) : Option MigrationOptions → MigrationProc Unit
  | none => perform (MigrationOp.serve none)
  | some options => do
    match ← runEmbeddedMigrationsWithOptions fs options with
    | .error err => perform (MigrationOp.fatal err)
    | .ok () => perform (MigrationOp.serve (some options))

/-- A service starts, or a session is lost. -/
inductive MigrationRequest where
  | start (options : Option MigrationOptions)
  | lost (session : Nat)

/-- What is done about a request. -/
def migrationHandler (fs : MigrationsFS) : MigrationRequest → Thread MigrationOp MigrationOp.Res
  | .start options => (buildStore fs options).toThread
  | .lost session => (Proc.perform (MigrationOp.disconnect session) : MigrationProc Unit).toThread

/-! ## What a run keeps -/

section Runs
variable (fs : MigrationsFS) (apply : String → ρ → S → Except String S) (init : S)

/-- The migrations before `version` that it needs: a migration that is no seed may come before
seeds. -/
def Earlier (version v : String) : Prop :=
  v < version ∧ (isSeedMigration v = true → isSeedMigration version = true)

/-- The versions have been applied, each of them once and after those that it needs. -/
inductive Applied : List String → S → Prop
  | none : Applied [] init
  | next {versions : List String} {version : String} {random : ρ} {content content' : S}
      (h : Applied versions content)
      (hmem : version ∈ fs.versions) (hnew : version ∉ versions)
      (hearlier : ∀ v ∈ fs.versions, Earlier version v → v ∈ versions)
      (hrun : apply version random content = .ok content') :
        Applied (versions ++ [version]) content'

/-- Where a start stands, with its session. -/
inductive Stage where
  | outside
  | opened
  | locked
  | missing (version : String)
  | begun (version : String)
  | scripted (version : String)
  | recorded (version : String)
  deriving DecidableEq

/-- `known` are migrations that a start knows to be applied, once the table of them exists. -/
structure MigrationRole where
  session : Option Nat := none
  stage : Stage := .outside
  known : Option (List String) := none

/-- What holds of a session that is alive. -/
def Stage.Holds (s : Server S) (session : Nat) : Stage → Prop
  | outside => True
  | opened => s.tx session = none
  | locked => s.lock = some session ∧ s.tx session = none
  | missing version => s.lock = some session ∧ s.tx session = none ∧ version ∉ s.versions
  | begun version => s.lock = some session ∧ s.tx session = some s.toTables ∧ version ∉ s.versions
  | scripted version => s.lock = some session ∧ ∃ random content,
      apply version random s.content = .ok content ∧
      s.tx session = some { s.toTables with content } ∧ version ∉ s.versions
  | recorded version => s.lock = some session ∧ ∃ random content,
      apply version random s.content = .ok content ∧
      s.tx session = some ⟨content, some (s.versions ++ [version])⟩ ∧ version ∉ s.versions

variable (quiet : Prop)

/-- What holds of a start. -/
structure MigrationRole.Holds (s : Server S) (role : MigrationRole) : Prop where
  known : ∀ l, role.known = some l → s.migrations.isSome ∧ ∀ v ∈ l, v ∈ s.versions
  opened : ∀ id, role.session = some id → id < s.next
  alive : quiet → ∀ id, role.session = some id → s.alive id = true
  stage : ∀ id, role.session = some id → s.alive id = true → role.stage.Holds apply s id

/-- The invariant. In a quiet run nothing fails. -/
structure Migrating (s : Server S) (roles : List MigrationRole) : Prop where
  applied : Applied fs apply init s.versions s.content
  serving : ∀ options, some options ∈ s.serving → ∀ v ∈ fs.selected options, v ∈ s.versions
  failed : quiet → s.failed = []
  alone : ∀ {i j : Nat} {role role' : MigrationRole} {id : Nat}, roles[i]? = some role →
    roles[j]? = some role' → role.session = some id → role'.session = some id → i = j
  holds : ∀ role ∈ roles, role.Holds apply quiet s

/-- Every operation is carried out and answered, and no session is lost. -/
def Undisturbed (input : MigrationInput ρ) (op : MigrationOp) (_ : Server S) : Prop :=
  input.outcome = .ok ∧ op.isDisconnect = false

instance (input : MigrationInput ρ) (op : MigrationOp) (s : Server S) :
    Decidable (Undisturbed input op s) :=
  inferInstanceAs (Decidable (_ ∧ _))

/-- The starts, each with its role. -/
def migrationRoles :
    Roles (Server S) (MigrationInput ρ) MigrationOp MigrationOp.Res MigrationRole where
  sem := migrationSem apply
  inv := Migrating fs apply init quiet
  allowed input op s := quiet → Undisturbed input op s
  waits _ _ := True
  ended _ := True

end Runs

variable {fs : MigrationsFS} {apply : String → ρ → S → Except String S} {init : S} {quiet : Prop}
  {random : ρ} {s t : Server S} {roles : List MigrationRole} {role role' : MigrationRole}
  {i id : Nat}

namespace Applied
variable {versions : List String} {content : S}

theorem nodup (h : Applied fs apply init versions content) : versions.Nodup := by
  induction h with
  | none => exact .nil
  | next h hmem hnew hearlier hrun ih =>
    refine List.nodup_append.mpr ⟨ih, List.nodup_singleton _, fun v hv w hw => ?_⟩
    rintro rfl
    exact hnew (List.mem_singleton.mp hw ▸ hv)

/-- The content is what the scripts make one after the other, each with the values drawn for it. -/
theorem foldlM (h : Applied fs apply init versions content) :
    ∃ drawn : List (String × ρ), drawn.map Prod.fst = versions ∧
      drawn.foldlM (fun content script => apply script.1 script.2 content) init = .ok content := by
  induction h with
  | none => exact ⟨[], rfl, rfl⟩
  | @next versions version random content content' h hmem hnew hearlier hrun ih =>
    obtain ⟨drawn, hversions, hdrawn⟩ := ih
    refine ⟨drawn ++ [(version, random)], by rw [List.map_append, hversions]; rfl, ?_⟩
    rw [List.foldlM_append, hdrawn]
    exact (bind_pure _).trans hrun

theorem earlier (h : Applied fs apply init versions content) {l₁ l₂ : List String}
    {version : String}
    (heq : versions = l₁ ++ version :: l₂) :
    version ∈ fs.versions ∧ ∀ v ∈ fs.versions, Earlier version v → v ∈ l₁ := by
  induction h generalizing l₂ with
  | none => simp at heq
  | @next versions last _ content content' h hmem hnew hearlier hrun ih =>
    rcases List.eq_nil_or_concat l₂ with rfl | ⟨l, x, rfl⟩
    · obtain ⟨rfl, hlast⟩ := List.append_inj' heq rfl
      obtain rfl := List.singleton_inj.mp hlast
      exact ⟨hmem, hearlier⟩
    · rw [List.concat_eq_append, ← List.cons_append, ← List.append_assoc] at heq
      exact ih (List.append_inj' heq rfl).1

end Applied

/-! ## One step -/

/-- What a step leaves to the threads that have other sessions. -/
structure Persists (quiet : Prop) (own : Option Nat) (s t : Server S) : Prop where
  next : s.next ≤ t.next
  rows : s.migrations.isSome → t.migrations.isSome
  versions : ∀ v ∈ s.versions, v ∈ t.versions
  serving : t.serving = s.serving
  others : ∀ id < s.next, own ≠ some id → (quiet → s.alive id = true → t.alive id = true) ∧
    (t.alive id = true → s.alive id = true ∧ t.tx id = s.tx id ∧
      (s.lock = some id → t.lock = some id ∧ t.toTables = s.toTables))

theorem Stage.Holds.persist {stage : Stage} (h : stage.Holds apply s id) (htx : t.tx id = s.tx id)
    (hlock : s.lock = some id → t.lock = some id ∧ t.toTables = s.toTables) :
      stage.Holds apply t id := by
  have hkeep (h : s.lock = some id) : t.lock = some id ∧ t.content = s.content ∧
      t.versions = s.versions :=
    ⟨(hlock h).1, by rw [(hlock h).2], by rw [(hlock h).2]⟩
  cases stage with
  | outside => trivial
  | opened => exact htx.trans h
  | locked => exact ⟨(hlock h.1).1, htx.trans h.2⟩
  | missing version =>
    obtain ⟨hl, hc, hv⟩ := hkeep h.1
    exact ⟨hl, htx.trans h.2.1, by rw [hv]; exact h.2.2⟩
  | begun version =>
    obtain ⟨hl, hc, hv⟩ := hkeep h.1
    exact ⟨hl, by rw [htx, h.2.1, (hlock h.1).2], by rw [hv]; exact h.2.2⟩
  | scripted version =>
    obtain ⟨hl, hc, hv⟩ := hkeep h.1
    obtain ⟨hs, random, content, hrun, hview, hnew⟩ := h
    exact ⟨hl, random, content, by rw [hc, hrun], by rw [htx, hview, (hlock hs).2],
      by rw [hv]; exact hnew⟩
  | recorded version =>
    obtain ⟨hl, hc, hv⟩ := hkeep h.1
    obtain ⟨-, random, content, hrun, hview, hnew⟩ := h
    exact ⟨hl, random, content, by rw [hc, hrun], by rw [htx, hview, hv], by rw [hv]; exact hnew⟩

theorem Persists.holds (h : Persists quiet own s t) (hrole : role.Holds apply quiet s)
    (hown : ∀ id, role.session = some id → own ≠ some id) : role.Holds apply quiet t where
  known l hl := by
    obtain ⟨hrows, hv⟩ := hrole.known l hl
    exact ⟨h.rows hrows, fun v hmem => h.versions v (hv v hmem)⟩
  opened id hid := (hrole.opened id hid).trans_le h.next
  alive hq id hid := (h.others id (hrole.opened id hid) (hown id hid)).1 hq (hrole.alive hq id hid)
  stage id hid halive := by
    obtain ⟨hs, htx, hlock⟩ := (h.others id (hrole.opened id hid) (hown id hid)).2 halive
    exact (hrole.stage id hid hs).persist htx hlock

/-- A step of the thread `i`. Its session is the one that it had, or a new one. -/
theorem Migrating.move (h : Migrating fs apply init quiet s roles) (hi : roles[i]? = some role)
    (hp : Persists quiet role.session s t) (happlied : Applied fs apply init t.versions t.content)
    (hfailed : quiet → t.failed = [])
    (hsession : ∀ id, role'.session = some id → role.session = some id ∨ s.next ≤ id)
    (hrole : role'.Holds apply quiet t) : Migrating fs apply init quiet t (roles.set i role') := by
  have hlt : i < roles.length := (List.getElem?_eq_some_iff.mp hi).1
  have hother {j : Nat} {other : MigrationRole} {id : Nat} (hj : roles[j]? = some other)
      (hid : other.session = some id) (hid' : role'.session = some id) : i = j := by
    rcases hsession id hid' with hsame | hnew
    · exact h.alone hi hj hsame hid
    · exact absurd ((h.holds other (List.mem_of_getElem? hj)).opened id hid) (by omega)
  refine ⟨happlied, fun options hmem v hv => ?_, hfailed, ?_, fun other hmem => ?_⟩
  · exact hp.versions v (h.serving options (hp.serving ▸ hmem) v hv)
  · intro j k r r' id hj hk hid hid'
    rw [List.getElem?_set] at hj hk
    split at hj
    next hij =>
      obtain rfl : role' = r := by simpa [hlt] using hj
      split at hk
      next hik => exact hij.symm.trans hik
      next hik => exact hij.symm.trans (hother hk hid' hid)
    next hij =>
      split at hk
      next hik =>
        obtain rfl : role' = r' := by simpa [hlt] using hk
        exact (hother hj hid hid').symm.trans hik
      next => exact h.alone hj hk hid hid'
  · obtain ⟨j, hj⟩ := List.mem_iff_getElem?.mp hmem
    rw [List.getElem?_set] at hj
    split at hj
    next hij =>
      obtain rfl : role' = other := by simpa [hlt] using hj
      exact hrole
    next hij =>
      have hmem' := List.mem_of_getElem? hj
      exact hp.holds (h.holds other hmem') fun id hid hown => hij (h.alone hi hj hown hid)

theorem Persists.refl (own : Option Nat) (s : Server S) : Persists quiet own s s where
  next := le_rfl
  rows := id
  versions _ := id
  serving := rfl
  others _ _ _ := ⟨fun _ => id, fun halive => ⟨halive, rfl, fun hlock => ⟨hlock, rfl⟩⟩⟩

/-- The statements that change tables for all sessions. -/
def Query.writes : Query → Bool
  | createTable | commit => true
  | _ => false

/-- What the other statements do. -/
theorem Query.persists (quiet : Prop) {q : Query} {b : Bool} (hq : q.writes = false)
    (h : q.exec apply random id s = .ok (t, b)) :
    Persists quiet (some id) s t ∧ t.toTables = s.toTables ∧ t.failed = s.failed ∧
      t.alive = s.alive := by
  have htx {view : Option (Tables S)} {id' : Nat} (hid' : some id ≠ some id') :
      Function.update s.tx id view id' = s.tx id' :=
    Function.update_of_ne (fun heq => hid' (congrArg some heq.symm)) _ _
  have hinTx {f : Tables S → Except String (Tables S)} (h : s.inTx id f = .ok (t, b)) :
      ∃ view, t = { s with tx := Function.update s.tx id view } := by
    unfold Server.inTx at h
    split at h
    next => cases h
    next view hview =>
      cases hf : f view with
      | error err =>
        rw [hf] at h
        cases h
      | ok view' =>
        rw [hf] at h
        cases h
        exact ⟨_, rfl⟩
  have hsame {view : Option (Tables S)} :
      Persists quiet (some id) s { s with tx := Function.update s.tx id view } :=
    ⟨le_rfl, fun h => h, fun _ h => h, rfl,
      fun _ _ hid' => ⟨fun _ h => h, fun halive => ⟨halive, htx hid', fun hlock => ⟨hlock, rfl⟩⟩⟩⟩
  cases q with
  | createTable | commit => cases hq
  | advisoryLock =>
    unfold Query.exec at h
    dsimp only at h
    split at h
    next => cases h
    next hfree =>
      cases h
      refine ⟨⟨le_rfl, fun h => h, fun _ h => h, rfl,
        fun id' _ hid' =>
          ⟨fun _ h => h, fun halive => ⟨halive, rfl, fun hlock => ?_⟩⟩⟩, rfl, rfl, rfl⟩
      have : s.lockedOut id = true := by
        simpa [Server.lockedOut, hlock] using fun heq => hid' (congrArg some heq.symm)
      exact absurd this hfree
  | lookup version =>
    unfold Query.exec at h
    dsimp only at h
    split at h
    next => cases h
    next =>
      cases h
      exact ⟨.refl _ s, rfl, rfl, rfl⟩
  | beginTx =>
    unfold Query.exec at h
    dsimp only at h
    split at h
    next => cases h
    next =>
      cases h
      exact ⟨hsame, rfl, rfl, rfl⟩
  | script version | record version =>
    obtain ⟨view, rfl⟩ := hinTx h
    exact ⟨hsame, rfl, rfl, rfl⟩
  | rollback =>
    cases h
    exact ⟨hsame, rfl, rfl, rfl⟩
  | advisoryUnlock =>
    cases h
    refine ⟨⟨le_rfl, fun h => h, fun _ h => h, rfl,
      fun id' _ hid' =>
        ⟨fun _ h => h, fun halive => ⟨halive, rfl, fun hlock => ⟨?_, rfl⟩⟩⟩⟩, rfl, rfl, rfl⟩
    have hne : s.lock ≠ some id := fun heq => hid' (heq.symm.trans hlock)
    rw [if_neg hne, hlock]

/-! ## The statements, from role to role -/

/-- What a statement comes to. -/
inductive Server.Queried (apply : String → ρ → S → Except String S)
    (input : MigrationInput ρ) (id : Nat)
    (q : Query) (s : Server S) : Server S × Except String Bool → Prop
  | answered {t : Server S} {b : Bool} (halive : s.alive id = true)
      (hexec : q.exec apply input.random id s = .ok (t, b)) :
      Queried apply input id q s (t, .ok b)
  | failed {err : String} (h : input.outcome = .ok → s.alive id = true →
      ∃ err, q.exec apply input.random id s = .error err) :
      Queried apply input id q s (s, .error err)
  | unanswered {t : Server S} {b : Bool} {err : String} (halive : s.alive id = true)
      (hexec : q.exec apply input.random id s = .ok (t, b)) (hout : input.outcome ≠ .ok) :
      Queried apply input id q s (t, .error err)

theorem Server.queried (apply : String → ρ → S → Except String S) (id : Nat) (s : Server S)
    (input : MigrationInput ρ) (q : Query) :
    Server.Queried apply input id q s (s.query apply input id q) := by
  unfold Server.query
  split
  next halive =>
    split
    next hexec => exact .answered halive hexec
    next err _ hexec => exact .failed fun _ _ => ⟨err, hexec⟩
    next done err t b hout hexec =>
      have hdisturbed : input.outcome ≠ .ok := by rw [hout]; exact nofun
      cases done with
      | false => exact .failed fun h => absurd h hdisturbed
      | true => exact .unanswered halive hexec hdisturbed
    next hout _ => exact .failed fun h => by rw [hout] at h; cases h
  next hdead => exact .failed fun _ halive => absurd halive hdead

/-- A statement of the session of a role: what is asked of it when it is carried out, and that it
cannot fail in a quiet run. -/
theorem query_plays {q : Query} (hid : role.session = some id) (next : Bool → MigrationRole)
    (hnext : ∀ b, (next b).session = some id)
    (hstep : ∀ {random : ρ} {s t : Server S} {b : Bool}, role.Holds apply quiet s →
    role.stage.Holds apply s id →
      q.exec apply random id s = .ok (t, b) → Persists quiet (some id) s t ∧ t.failed = s.failed ∧
        t.alive = s.alive ∧ (Applied fs apply init s.versions s.content →
          Applied fs apply init t.versions t.content) ∧
        (∀ l, (next b).known = some l → t.migrations.isSome ∧ ∀ v ∈ l, v ∈ t.versions) ∧
        (next b).stage.Holds apply t id)
    (hquiet : quiet → ∀ (random : ρ) (s : Server S), Applied fs apply init s.versions s.content →
      role.Holds apply quiet s → role.stage.Holds apply s id →
      (q = .advisoryLock → s.lockedOut id = false) → ∃ out, q.exec apply random id s = .ok out) :
    (migrationRoles fs apply init quiet).Plays (Proc.perform (MigrationOp.query id q)) role
      fun (r : Except String Bool) new => match r with
        | .ok b => new = next b
        | .error _ => ¬quiet ∧ new = { role with stage := .outside } := by
  refine .perform (fun s roles i hi h input t r hal hsem => ?_) fun _ _ _ _ _ _ => trivial
  have hrole := h.holds role (List.mem_of_getElem? hi)
  have hmove {t : Server S} {b : Bool} (halive : s.alive id = true)
      (hexec : q.exec apply input.random id s = .ok (t, b)) :
      Migrating fs apply init quiet t (roles.set i (next b)) ∧
        Migrating fs apply init quiet t (roles.set i { role with stage := .outside }) := by
    obtain ⟨hp, hfailed, hsame, happlied, hknown, hstage⟩ :=
      hstep hrole (hrole.stage id hid halive) hexec
    have hp' : Persists quiet role.session s t := hid ▸ hp
    have hfail : quiet → t.failed = [] := fun hq => hfailed.trans (h.failed hq)
    have hopened : id < t.next := (hrole.opened id hid).trans_le hp.next
    have halive' : t.alive id = true := hsame ▸ halive
    refine ⟨h.move hi hp' (happlied h.applied) hfail (fun id' h' => .inl ?_) ⟨hknown, ?_, ?_, ?_⟩,
      h.move hi hp' (happlied h.applied) hfail (fun _ => .inl) ⟨?_, ?_, ?_, fun _ _ _ => trivial⟩⟩
    · exact hid.trans ((hnext b).symm.trans h')
    · intro id' h'
      obtain rfl := Option.some.inj ((hnext b).symm.trans h')
      exact hopened
    · intro _ id' h'
      obtain rfl := Option.some.inj ((hnext b).symm.trans h')
      exact halive'
    · intro id' h' _
      obtain rfl := Option.some.inj ((hnext b).symm.trans h')
      exact hstage
    · intro l hl
      obtain ⟨hrows, hv⟩ := hrole.known l hl
      exact ⟨hp.rows hrows, fun v hmem => hp.versions v (hv v hmem)⟩
    · exact fun id' h' => (hrole.opened id' h').trans_le hp.next
    · intro _ id' h'
      obtain rfl := Option.some.inj (hid.symm.trans h')
      exact halive'
  unfold migrationRoles migrationSem at hsem
  dsimp only at hsem
  split at hsem
  next => cases hsem
  next hfree =>
    have hdown (hq : quiet) : input.outcome = .ok ∧ s.alive id = true ∧
        ∃ out, q.exec apply input.random id s = .ok out := by
      have halive := hrole.alive hq id hid
      refine ⟨(hal hq).1, halive,
        hquiet hq input.random s h.applied hrole (hrole.stage id hid halive) fun hlock => ?_⟩
      simpa [halive, (hal hq).1, hlock] using hfree
    have hqueried := Server.queried apply id s input q
    rw [Option.some.inj hsem] at hqueried
    cases hqueried with
    | answered halive hexec => exact ⟨next _, (hmove halive hexec).1, rfl⟩
    | unanswered halive hexec hout =>
      exact ⟨_, (hmove halive hexec).2, fun hq => hout (hdown hq).1, rfl⟩
    | failed hfailed =>
      refine ⟨{ role with stage := .outside },
        h.move hi (.refl _ s) h.applied h.failed (fun _ => .inl)
        ⟨hrole.known, hrole.opened, hrole.alive, fun _ _ _ => trivial⟩, fun hq => ?_, rfl⟩
      obtain ⟨hout, halive, out, hexec⟩ := hdown hq
      obtain ⟨err, herr⟩ := hfailed hout halive
      rw [hexec] at herr
      cases herr

/-- A statement that leaves the tables alone. -/
theorem query_plays_of_tables {q : Query} (hq : q.writes = false)
    (hid : role.session = some id) (next : Bool → MigrationRole)
    (hnext : ∀ b, (next b).session = some id)
    (hstep : ∀ {random : ρ} {s t : Server S} {b : Bool}, role.Holds apply quiet s →
    role.stage.Holds apply s id →
      q.exec apply random id s = .ok (t, b) →
        (∀ l, (next b).known = some l → t.migrations.isSome ∧ ∀ v ∈ l, v ∈ t.versions) ∧
        (next b).stage.Holds apply t id)
    (hquiet : quiet → ∀ (random : ρ) (s : Server S), Applied fs apply init s.versions s.content →
      role.Holds apply quiet s → role.stage.Holds apply s id →
      (q = .advisoryLock → s.lockedOut id = false) → ∃ out, q.exec apply random id s = .ok out) :
    (migrationRoles fs apply init quiet).Plays (Proc.perform (MigrationOp.query id q)) role
      fun (r : Except String Bool) new => match r with
        | .ok b => new = next b
        | .error _ => ¬quiet ∧ new = { role with stage := .outside } := by
  refine query_plays hid next hnext (fun hrole hstage hexec => ?_) hquiet
  obtain ⟨hp, htables, hfailed, halive⟩ := Query.persists quiet hq hexec
  exact ⟨hp, hfailed, halive, fun h => by rw [htables]; exact h, hstep hrole hstage hexec⟩

section Session
variable {version : String} {known : List String}

theorem conn_plays :
    (migrationRoles fs apply init quiet).Plays (Proc.perform MigrationOp.conn) {}
    fun (r : Except String Nat) new => match r with
      | .ok id => new = { session := some id, stage := .opened }
      | .error _ => ¬quiet ∧ new = {} := by
  refine .perform (fun s roles i hi h input t r hal hsem => ?_) fun _ _ _ _ _ _ => trivial
  obtain ⟨outcome, random⟩ := input
  cases outcome with
  | error done err =>
    cases hsem
    have hloud : ¬quiet := fun hq => nomatch (hal hq).1
    exact ⟨{}, h.move hi (.refl _ s) h.applied h.failed nofun ⟨nofun, nofun, fun _ => nofun, nofun⟩,
      And.intro hloud rfl⟩
  | ok =>
    cases hsem
    have hne {id : Nat} (hid : id < s.next) : id ≠ s.next := by omega
    refine ⟨{ session := some s.next, stage := .opened }, h.move hi ⟨Nat.le_succ _, fun h => h,
      fun _ h => h, rfl, fun id hid _ =>
        ⟨fun _ halive => ?_, fun halive => ⟨?_, ?_, fun hlock => ⟨hlock, rfl⟩⟩⟩⟩
      h.applied h.failed (fun id hid => .inr (Option.some.inj hid).le) ⟨nofun, ?_, ?_, ?_⟩, rfl⟩
    · exact (Function.update_of_ne (hne hid) _ _).trans halive
    · exact (Function.update_of_ne (hne hid) _ _).symm.trans halive
    · exact Function.update_of_ne (hne hid) _ _
    · rintro _ ⟨⟩
      exact Nat.lt_succ_self _
    · rintro _ _ ⟨⟩
      exact Function.update_self _ _ _
    · rintro _ ⟨⟩ _
      exact Function.update_self _ _ _

theorem advisoryLock_plays : (migrationRoles fs apply init quiet).Plays
    (Proc.perform (MigrationOp.query id .advisoryLock)) { session := some id, stage := .opened }
    fun (r : Except String Bool) new => match r with
      | .ok _ => new = { session := some id, stage := .locked }
      | .error _ => ¬quiet ∧ new = { session := some id } := by
  refine query_plays_of_tables (by rfl) (by rfl) (fun _ => { session := some id, stage := .locked })
    (fun _ => rfl) (fun _ hstage hexec => ?_) fun _ _ s _ _ _ hfree => ?_
  · unfold Query.exec at hexec
    dsimp only at hexec
    split at hexec
    next => cases hexec
    next =>
      cases hexec
      exact ⟨nofun, rfl, hstage⟩
  · refine ⟨({ s with lock := some id }, true), ?_⟩
    unfold Query.exec
    rw [hfree rfl]
    rfl

theorem createTable_plays : (migrationRoles fs apply init quiet).Plays
    (Proc.perform (MigrationOp.query id .createTable)) { session := some id, stage := .locked }
    fun (r : Except String Bool) new => match r with
      | .ok _ => new = { session := some id, stage := .locked, known := some [] }
      | .error _ => ¬quiet ∧ new = { session := some id } := by
  refine query_plays (by rfl) (fun _ => { session := some id, stage := .locked, known := some [] })
    (fun _ => rfl) (fun _ hstage hexec => ?_) fun _ _ s _ _ _ _ => ⟨_, rfl⟩
  cases hexec
  refine ⟨⟨le_rfl, fun _ => rfl, fun _ h => h, rfl, fun id' _ hid' => ⟨fun _ h => h, fun halive =>
    ⟨halive, rfl, fun hlock => absurd (hstage.1.symm.trans hlock) hid'⟩⟩⟩, rfl, rfl, fun h =>
      h, ?_, hstage⟩
  rintro _ ⟨⟩
  exact ⟨rfl, nofun⟩

theorem lookup_plays : (migrationRoles fs apply init quiet).Plays
    (Proc.perform (MigrationOp.query id (.lookup version)))
    { session := some id, stage := .locked, known := some known }
    fun (r : Except String Bool) new => match r with
      | .ok true => new = { session := some id, stage := .locked, known := some (version :: known) }
      | .ok false => new = { session := some id, stage := .missing version, known := some known }
      | .error _ => ¬quiet ∧ new = { session := some id, known := some known } := by
  refine (query_plays_of_tables (by rfl) (by rfl)
    (fun b => if b then { session := some id, stage := .locked, known := some (version :: known) }
      else { session := some id, stage := .missing version, known := some known })
    (fun b => by cases b <;> rfl) (fun {_ s t b} hrole hstage hexec => ?_) fun _ _ s _ hrole _ _ =>
      ?_).weaken ?_
  · obtain ⟨hrows, hknown⟩ := hrole.known known rfl
    obtain ⟨rows, hrows'⟩ := Option.isSome_iff_exists.mp hrows
    have hversions : s.versions = rows := by rw [Tables.versions, hrows', Option.getD_some]
    simp only [Query.exec, hrows', Except.ok.injEq, Prod.mk.injEq] at hexec
    obtain ⟨rfl, rfl⟩ := hexec
    by_cases hmem : version ∈ rows
    · simp only [hmem, decide_true, if_true]
      refine ⟨?_, hstage⟩
      rintro _ ⟨⟩
      refine ⟨hrows, fun v hv => ?_⟩
      rcases List.mem_cons.mp hv with rfl | hv
      · rwa [hversions]
      · exact hknown v hv
    · simp only [hmem, decide_false, Bool.false_eq_true, if_false]
      refine ⟨?_, hstage.1, hstage.2, by rwa [hversions]⟩
      rintro _ ⟨⟩
      exact ⟨hrows, hknown⟩
  · obtain ⟨rows, hrows⟩ := Option.isSome_iff_exists.mp (hrole.known known rfl).1
    exact ⟨(s, decide (version ∈ rows)), by simp only [Query.exec, hrows]⟩
  · rintro (err | b) new hnew
    · exact hnew
    · cases b with
      | true | false => exact hnew

theorem beginTx_plays : (migrationRoles fs apply init quiet).Plays
    (Proc.perform (MigrationOp.query id .beginTx))
    { session := some id, stage := .missing version, known := some known }
    fun (r : Except String Bool) new => match r with
      | .ok _ => new = { session := some id, stage := .begun version, known := some known }
      | .error _ => ¬quiet ∧ new = { session := some id, known := some known } := by
  refine query_plays_of_tables (by rfl) (by rfl)
    (fun _ => { session := some id, stage := .begun version, known := some known }) (fun _ => rfl)
    (fun hrole hstage hexec => ?_) fun _ _ s _ _ hstage _ => ?_
  · simp only [Query.exec, hstage.2.1, Except.ok.injEq, Prod.mk.injEq] at hexec
    obtain ⟨rfl, -⟩ := hexec
    exact ⟨hrole.known, hstage.1, Function.update_self _ _ _, hstage.2.2⟩
  · refine ⟨({ s with tx := Function.update s.tx id (some s.toTables) }, true), ?_⟩
    simp only [Query.exec, hstage.2.1]

/-- Scripts that succeed when they are applied in turn. -/
def ScriptsRun (fs : MigrationsFS) (apply : String → ρ → S → Except String S) (init : S) : Prop :=
  ∀ versions content version, Applied fs apply init versions content → version ∈ fs.versions →
    version ∉ versions → (∀ v ∈ fs.versions, Earlier version v → v ∈ versions) →
    ∀ random, ∃ content', apply version random content = .ok content'

theorem script_plays (hmem : version ∈ fs.versions)
    (hearlier : ∀ v ∈ fs.versions, Earlier version v → v ∈ known)
    (hruns : quiet → ScriptsRun fs apply init) : (migrationRoles fs apply init quiet).Plays
    (Proc.perform (MigrationOp.query id (.script version)))
    { session := some id, stage := .begun version, known := some known }
    fun (r : Except String Bool) new => match r with
      | .ok _ => new = { session := some id, stage := .scripted version, known := some known }
      | .error _ => ¬quiet ∧ new = { session := some id, known := some known } := by
  refine query_plays_of_tables (by rfl) (by rfl)
    (fun _ => { session := some id, stage := .scripted version, known := some known })
    (fun _ => rfl)
    (fun {random s t b} hrole hstage hexec => ?_) fun hq random s happlied hrole hstage _ => ?_
  · simp only [Query.exec, Server.inTx, hstage.2.1] at hexec
    cases hrun : apply version random s.content with
    | error err =>
      rw [hrun] at hexec
      cases hexec
    | ok content =>
      rw [hrun] at hexec
      cases hexec
      exact ⟨hrole.known, hstage.1, random, content, hrun, Function.update_self _ _ _, hstage.2.2⟩
  · obtain ⟨content, hrun⟩ := hruns hq _ _ version happlied hmem hstage.2.2
      (fun v hv he => (hrole.known known rfl).2 v (hearlier v hv he)) random
    exact ⟨_, by simp only [Query.exec, Server.inTx, hstage.2.1, hrun]; rfl⟩

theorem record_plays : (migrationRoles fs apply init quiet).Plays
    (Proc.perform (MigrationOp.query id (.record version)))
    { session := some id, stage := .scripted version, known := some known }
    fun (r : Except String Bool) new => match r with
      | .ok _ => new = { session := some id, stage := .recorded version, known := some known }
      | .error _ => ¬quiet ∧ new = { session := some id, known := some known } := by
  have hexec {random : ρ} {s : Server S}
      (hrole : (MigrationRole.mk (some id) (.scripted version) (some known)).Holds apply quiet s)
      (hstage : Stage.Holds apply s id (.scripted version)) :
      ∃ drawn content, apply version drawn s.content = .ok content ∧
        Query.exec apply random id s (.record version) = .ok ({ s with
          tx :=
            Function.update s.tx id (some ⟨content, some (s.versions ++ [version])⟩) }, true) := by
    obtain ⟨hlock, drawn, content, hrun, hview, hnew⟩ := hstage
    obtain ⟨rows, hrows⟩ := Option.isSome_iff_exists.mp (hrole.known known rfl).1
    have hversions : s.versions = rows := by rw [Tables.versions, hrows, Option.getD_some]
    refine ⟨drawn, content, hrun, ?_⟩
    rw [hversions] at hnew
    simp only [Query.exec, Server.inTx, hview, hrows, if_neg hnew, hversions]
    rfl
  refine query_plays_of_tables (by rfl) (by rfl)
    (fun _ => { session := some id, stage := .recorded version, known := some known })
    (fun _ => rfl)
    (fun {_ s t b} hrole hstage hrecord => ?_) fun _ _ s _ hrole hstage _ => ?_
  · obtain ⟨drawn, content, hrun, heq⟩ := hexec hrole hstage
    obtain ⟨hlock, _, _, _, _, hnew⟩ := hstage
    rw [heq] at hrecord
    cases hrecord
    exact ⟨hrole.known, hlock, drawn, content, hrun, Function.update_self _ _ _, hnew⟩
  · obtain ⟨-, content, -, heq⟩ := hexec hrole hstage
    exact ⟨_, heq⟩

theorem commit_plays (hmem : version ∈ fs.versions)
    (hearlier : ∀ v ∈ fs.versions, Earlier version v → v ∈ known) :
    (migrationRoles fs apply init quiet).Plays (Proc.perform (MigrationOp.query id .commit))
    { session := some id, stage := .recorded version, known := some known }
    fun (r : Except String Bool) new => match r with
      | .ok _ => new = { session := some id, stage := .locked, known := some (version :: known) }
      | .error _ => ¬quiet ∧ new = { session := some id, known := some known } := by
  refine query_plays (by rfl)
    (fun _ => { session := some id, stage := .locked, known := some (version :: known) })
    (fun _ => rfl) (fun {_ s t b} hrole hstage hexec => ?_) fun _ _ s _ _ hstage _ => ?_
  · obtain ⟨hlock, random, content, hrun, hview, hnew⟩ := hstage
    simp only [Query.exec, hview, Except.ok.injEq, Prod.mk.injEq] at hexec
    obtain ⟨rfl, -⟩ := hexec
    have hknown := (hrole.known known rfl).2
    have htx {id' : Nat} (hid' : some id ≠ some id') :
        Function.update s.tx id none id' = s.tx id' :=
      Function.update_of_ne (fun heq => hid' (congrArg some heq.symm)) _ _
    refine ⟨⟨le_rfl, fun _ => rfl, fun v hv => List.mem_append_left _ hv, rfl, fun id' _ hid' =>
      ⟨fun _ h => h, fun halive => ⟨halive, htx hid',
        fun hlock' => absurd (hlock.symm.trans hlock') hid'⟩⟩⟩, rfl, rfl, fun happlied =>
          ?_, ?_, hlock,
      Function.update_self _ _ _⟩
    · exact happlied.next hmem hnew (fun v hv he => hknown v (hearlier v hv he)) hrun
    · rintro _ ⟨⟩
      refine ⟨rfl, fun v hv => ?_⟩
      rcases List.mem_cons.mp hv with rfl | hv
      · exact List.mem_append_right _ (.head _)
      · exact List.mem_append_left _ (hknown v hv)
  · obtain ⟨-, random, content, -, hview, -⟩ := hstage
    refine ⟨({ s.endTx id with toTables := ⟨content, some (s.versions ++ [version])⟩ }, true), ?_⟩
    simp only [Query.exec, hview]

end Session

/-! ## The program -/

/-- What a part of a start leaves: with an error it has given up, and never in a quiet run. -/
def Ends (quiet : Prop) (id : Nat) (known : List String → Prop) (r : Except String Unit)
    (new : MigrationRole) : Prop :=
  match r with
  | .ok () => ∃ l, known l ∧ new = { session := some id, stage := .locked, known := some l }
  | .error _ => ¬quiet ∧ new.session = some id ∧ new.stage = .outside

/-- A session that asks for nothing more than to be left. -/
theorem leave_plays {q : Query} (hq : q = .rollback ∨ q = .advisoryUnlock)
    (hid : role.session = some id) :
    (migrationRoles fs apply init quiet).Plays (Proc.perform (MigrationOp.query id q)) role
      fun (r : Except String Bool) new =>
        new = { role with stage := .outside } ∧ (quiet → ∃ b, r = .ok b) := by
  refine (query_plays_of_tables (by rcases hq with rfl | rfl <;> rfl) hid
    (fun _ => { role with stage := .outside }) (fun _ => hid) (fun {_ s t b} hrole _ hexec => ?_)
    fun _ _ s _ _ _ _ => ?_).weaken ?_
  · obtain ⟨hp, htables, -⟩ := Query.persists quiet (by rcases hq with rfl | rfl <;> rfl) hexec
    refine ⟨fun l hl => ?_, trivial⟩
    obtain ⟨hrows, hknown⟩ := hrole.known l hl
    exact ⟨hp.rows hrows, fun v hv => hp.versions v (hknown v hv)⟩
  · rcases hq with rfl | rfl
    · exact ⟨_, rfl⟩
    · exact ⟨_, rfl⟩
  · rintro (err | b) new hnew
    · exact ⟨hnew.2, fun hq => absurd hq hnew.1⟩
    · exact ⟨hnew, fun _ => ⟨b, rfl⟩⟩

section Program
variable {version : String} {known : List String} {options : MigrationOptions}
  (hruns : quiet → ScriptsRun fs apply init)
include hruns

theorem applyMigration_plays (hmem : version ∈ fs.versions)
    (hearlier : ∀ v ∈ fs.versions, Earlier version v → v ∈ known) :
    (migrationRoles fs apply init quiet).Plays (applyMigration id version)
      { session := some id, stage := .missing version, known := some known }
      (Ends quiet id (· = version :: known)) := by
  have hfail {l : List String} {err : String} (hloud : ¬quiet) :
      (migrationRoles fs apply init quiet).Plays (do
        let _ ← Proc.perform (MigrationOp.query id .rollback)
        pure (.error err) : MigrationProc (Except String Unit))
        { session := some id, known := some l } (Ends quiet id (· = version :: known)) := by
    refine .bind (leave_plays (.inl rfl) rfl) ?_
    rintro r _ ⟨rfl, -⟩
    exact .pure ⟨hloud, rfl, rfl⟩
  refine .bind beginTx_plays ?_
  rintro (err | b) _ hnew
  · obtain ⟨hloud, rfl⟩ := hnew
    exact .pure ⟨hloud, rfl, rfl⟩
  obtain rfl := hnew
  refine .bind (script_plays hmem hearlier hruns) ?_
  rintro (err | b) _ hnew
  · obtain ⟨hloud, rfl⟩ := hnew
    exact hfail hloud
  obtain rfl := hnew
  refine .bind record_plays ?_
  rintro (err | b) _ hnew
  · obtain ⟨hloud, rfl⟩ := hnew
    exact hfail hloud
  obtain rfl := hnew
  refine .bind (commit_plays hmem hearlier) ?_
  rintro (err | b) _ hnew
  · obtain ⟨hloud, rfl⟩ := hnew
    exact .pure ⟨hloud, rfl, rfl⟩
  obtain rfl := hnew
  exact .pure ⟨_, rfl, rfl⟩

omit hruns in
theorem migrationApplied_plays :
    (migrationRoles fs apply init quiet).Plays (migrationApplied id version)
    { session := some id, stage := .locked, known := some known }
    fun (r : Except String Bool) new => match r with
      | .ok true => new = { session := some id, stage := .locked, known := some (version :: known) }
      | .ok false => new = { session := some id, stage := .missing version, known := some known }
      | .error _ => ¬quiet ∧ new = { session := some id, known := some known } := by
  refine .bind lookup_plays ?_
  rintro (err | b) new hnew
  · exact .pure hnew
  · exact .pure hnew

/-- The loop over the entries: every migration that is selected is known or still to come. -/
theorem applyMigrations_plays (entries : List DirEntry)
    (hsub : ((entries.filter fun entry => !entry.isDir).map (·.name)) ⊆ fs.versions)
    (hsorted : ((entries.filter fun entry => !entry.isDir).map (·.name)).Pairwise (· < ·))
    (hrest : ∀ v ∈ fs.selected options, v ∈ known ∨
      v ∈ (entries.filter fun entry => !entry.isDir).map (·.name)) :
    (migrationRoles fs apply init quiet).Plays (applyMigrations id options entries)
      { session := some id, stage := .locked, known := some known }
      (Ends quiet id fun l => ∀ v ∈ fs.selected options, v ∈ l) := by
  induction entries generalizing known with
  | nil => exact .pure ⟨known, fun v hv => (hrest v hv).resolve_right nofun, rfl⟩
  | cons entry entries ih =>
    by_cases hdir : entry.isDir
    · rw [List.filter_cons_of_neg (by simp [hdir])] at hsub hsorted hrest
      unfold applyMigrations
      exact .ite (fun _ => ih hsub hsorted hrest) fun h => absurd hdir h
    rw [List.filter_cons_of_pos (by simp [hdir]), List.map_cons] at hsub hsorted hrest
    obtain ⟨hfirst, hsorted⟩ := List.pairwise_cons.mp hsorted
    obtain ⟨hmem, hsub⟩ := List.cons_subset.mp hsub
    have hnext {l : List String} (hl : ∀ v ∈ fs.selected options, v ≠ entry.name →
      v ∈ known → v ∈ l)
        (hentry : entry.name ∈ fs.selected options → entry.name ∈ l) : ∀ v ∈ fs.selected options,
        v ∈ l ∨ v ∈ (entries.filter fun entry => !entry.isDir).map (·.name) := by
      intro v hv
      by_cases hv' : v = entry.name
      · exact .inl (hv' ▸ hentry (hv' ▸ hv))
      · exact (hrest v hv).imp (hl v hv hv') fun h => (List.mem_cons.mp h).resolve_left hv'
    unfold applyMigrations
    refine .ite (fun h => absurd h hdir) fun _ => .ite (fun hseed => ?_) fun hseed => ?_
    · refine ih hsub hsorted (hnext (fun v _ _ h => h) fun hsel => ?_)
      have := (List.mem_filter.mp hsel).2
      simp_all
    have hsel : (options.includeSeeds || !isSeedMigration entry.name) = true := by
      revert hseed
      cases options.includeSeeds <;> cases isSeedMigration entry.name <;> simp
    have hearlier : ∀ v ∈ fs.versions, Earlier entry.name v → v ∈ known := by
      intro v hv he
      have hv' : v ∈ fs.selected options := by
        refine List.mem_filter.mpr ⟨hv, ?_⟩
        have := he.2
        revert this hsel
        cases options.includeSeeds <;> cases isSeedMigration entry.name <;>
          cases isSeedMigration v <;> simp
      rcases hrest v hv' with h | h
      · exact h
      rcases List.mem_cons.mp h with rfl | h
      · exact absurd he.1 (lt_irrefl _)
      · exact absurd he.1 (hfirst v h).asymm
    have hdone := ih hsub hsorted
      (hnext (l := entry.name :: known) (fun v _ _ h => .tail _ h) fun _ => .head _)
    refine .bind migrationApplied_plays ?_
    rintro (err | b) _ hnew
    · obtain ⟨hloud, rfl⟩ := hnew
      exact .pure ⟨hloud, rfl, rfl⟩
    cases b with
    | true =>
      obtain rfl := hnew
      exact hdone
    | false =>
      obtain rfl := hnew
      refine .bind (applyMigration_plays hruns hmem hearlier) ?_
      rintro (err | ⟨⟨⟩⟩) new hnew
      · exact .pure hnew
      · obtain ⟨_, rfl, rfl⟩ := hnew
        exact hdone

theorem lockedMigrations_plays : (migrationRoles fs apply init quiet).Plays
    (lockedMigrations fs id options) { session := some id, stage := .locked }
    (Ends quiet id fun l => ∀ v ∈ fs.selected options, v ∈ l) := by
  refine .bind createTable_plays ?_
  rintro (err | b) _ hnew
  · obtain ⟨hloud, rfl⟩ := hnew
    exact .pure ⟨hloud, rfl, rfl⟩
  obtain rfl := hnew
  exact applyMigrations_plays hruns fs.sorted (fun _ hv => hv) fs.versions_pairwise fun _ hv =>
    .inr (List.mem_of_mem_filter hv)

/-- A start that has gone well knows all of its migrations. -/
theorem runEmbeddedMigrationsWithOptions_plays : (migrationRoles fs apply init quiet).Plays
    (runEmbeddedMigrationsWithOptions fs options) {}
    fun (r : Except String Unit) new => match r with
      | .ok () => ∃ l, new.known = some l ∧ ∀ v ∈ fs.selected options, v ∈ l
      | .error _ => ¬quiet := by
  have hclose {id : Nat} {r : Except String Unit} {new : MigrationRole}
      {Q : Except String Unit → MigrationRole → Prop} (hQ : Q r new) :
        (migrationRoles fs apply init quiet).Plays (do
        let () ← Proc.perform (MigrationOp.close id)
        pure r : MigrationProc (Except String Unit)) new Q := by
    refine .bind (Q := fun _ new' =>
      new' = new) (.perform (fun s roles i hi h outcome t r hal hsem => ?_)
      fun _ _ _ _ _ _ => trivial) ?_
    · cases hsem
      exact ⟨new, by rwa [WorkerPool.set_same hi], rfl⟩
    · rintro ⟨⟩ _ rfl
      exact .pure hQ
  refine .bind conn_plays ?_
  rintro (err | id) _ hnew
  · exact .pure hnew.1
  obtain rfl := hnew
  refine .bind advisoryLock_plays ?_
  rintro (err | b) _ hnew
  · obtain ⟨hloud, rfl⟩ := hnew
    exact hclose hloud
  obtain rfl := hnew
  refine .bind (lockedMigrations_plays hruns) ?_
  rintro (err | ⟨⟨⟩⟩) new hnew
  · refine .bind (leave_plays (.inr rfl) hnew.2.1) ?_
    rintro r _ ⟨rfl, -⟩
    exact hclose hnew.1
  · obtain ⟨l, hl, rfl⟩ := hnew
    refine .bind (leave_plays (.inr rfl) rfl) ?_
    rintro r _ ⟨rfl, -⟩
    exact hclose ⟨l, rfl, hl⟩

theorem buildStore_plays (options : Option MigrationOptions) :
    (migrationRoles fs apply init quiet).Plays (buildStore fs options) {} fun _ _ => True := by
  have hserve {new : MigrationRole}
      (hnew : ∀ o, options = some o → ∃ l, new.known = some l ∧ ∀ v ∈ fs.selected o, v ∈ l) :
      (migrationRoles fs apply init quiet).Plays (Proc.perform (MigrationOp.serve options)) new
        fun _ _ => True := by
    refine .perform (fun s roles i hi h outcome t r hal hsem => ?_) fun _ _ _ _ _ _ => trivial
    cases hsem
    refine ⟨new, ?_, trivial⟩
    rw [WorkerPool.set_same hi]
    refine ⟨h.applied, fun o hmem v hv => ?_, h.failed, h.alone, fun other hother => ?_⟩
    · rcases List.mem_append.mp hmem with hmem | hmem
      · exact h.serving o hmem v hv
      · obtain ⟨l, hl, hsel⟩ := hnew o (List.mem_singleton.mp hmem).symm
        exact ((h.holds new (List.mem_of_getElem? hi)).known l hl).2 v (hsel v hv)
    · obtain ⟨hknown, hopened, halive, hstage⟩ := h.holds other hother
      refine ⟨hknown, hopened, halive, fun id hid ha => ?_⟩
      exact (hstage id hid ha).persist rfl fun hlock => ⟨hlock, rfl⟩
  cases options with
  | none => exact hserve nofun
  | some options =>
    refine .bind (runEmbeddedMigrationsWithOptions_plays hruns) ?_
    rintro (err | ⟨⟨⟩⟩) new hnew
    · refine .perform (fun s roles i hi h outcome t r hal hsem => ?_) fun _ _ _ _ _ _ => trivial
      cases hsem
      refine ⟨new, ?_, trivial⟩
      rw [WorkerPool.set_same hi]
      refine ⟨h.applied, h.serving, fun hq => absurd hq hnew, h.alone, fun other hother => ?_⟩
      obtain ⟨hknown, hopened, halive, hstage⟩ := h.holds other hother
      exact ⟨hknown, hopened, halive, fun id hid ha =>
        (hstage id hid ha).persist rfl fun hlock => ⟨hlock, rfl⟩⟩
    · refine hserve fun o ho => ?_
      obtain rfl := Option.some.inj ho
      exact hnew

theorem migration_admits :
    (migrationRoles fs apply init quiet).Admits (fun _ _ => False) (migrationHandler fs) := by
  intro request s roles h
  refine ⟨{}, ⟨h.applied, h.serving, h.failed, ?_, fun role hmem => ?_⟩, ?_⟩
  · intro j k r r' id hj hk hid hid'
    rw [List.getElem?_append] at hj hk
    split at hj
    next =>
      split at hk
      next => exact h.alone hj hk hid hid'
      next =>
        rw [List.getElem?_singleton] at hk
        split at hk
        next =>
          obtain rfl := Option.some.inj hk
          cases hid'
        next => cases hk
    next =>
      rw [List.getElem?_singleton] at hj
      split at hj
      next =>
        obtain rfl := Option.some.inj hj
        cases hid
      next => cases hj
  · rcases List.mem_append.mp hmem with hmem | hmem
    · exact h.holds role hmem
    · obtain rfl := List.mem_singleton.mp hmem
      exact ⟨nofun, nofun, fun _ => nofun, nofun⟩
  · cases request with
    | start options => exact ((buildStore_plays hruns options).weaken fun _ _ _ => trivial).toThread
    | lost session =>
      refine Roles.Plays.toThread
        (.perform (fun s roles i hi h outcome t r hal hsem => ?_) fun _ _ _ _ _ _ => trivial)
      have hloud : ¬quiet := fun hq => nomatch (hal hq).2
      cases hsem
      refine ⟨{}, h.move hi ⟨le_rfl, fun h => h, fun _ h => h, rfl,
          fun id _ _ => ⟨fun hq => absurd hq hloud, fun halive => ?_⟩⟩
        h.applied h.failed nofun ⟨nofun, nofun, fun _ => nofun, nofun⟩, trivial⟩
      by_cases hid : id = session
      · obtain rfl := hid
        exact absurd halive (by simp [Server.disconnect, Server.endTx])
      · refine ⟨(Function.update_of_ne hid _ _).symm.trans halive, Function.update_of_ne hid _ _,
          fun hlock => ⟨?_, rfl⟩⟩
        have hne : s.lock ≠ some session := fun heq => hid (Option.some.inj (hlock.symm.trans heq))
        exact (if_neg hne).trans hlock

end Program

/-! ## All runs -/

/-- Whatever starts come together, whatever fails and whatever sessions are lost: the database is
what the recorded migrations make of it one after the other, each of them is applied once and only
after all that it needs, and a service serves only with all of its migrations applied. -/
theorem migrations_applied (fs : MigrationsFS) (apply : String → ρ → S → Except String S) (init : S)
    (ls : List (Label MigrationRequest (MigrationInput ρ))) :
    let s :=
      ((Machine.boot { content := init }).run (migrationSem apply) (migrationHandler fs) ls).shared
    s.versions.Nodup ∧
      (∃ drawn : List (String × ρ), drawn.map Prod.fst = s.versions ∧
        drawn.foldlM (fun content script => apply script.1 script.2 content) init = .ok s.content) ∧
      (∀ l₁ version l₂, s.versions = l₁ ++ version :: l₂ →
        version ∈ fs.versions ∧ ∀ v ∈ fs.versions, Earlier version v → v ∈ l₁) ∧
      ∀ options, some options ∈ s.serving → ∀ v ∈ fs.selected options, v ∈ s.versions := by
  have hboot : (migrationRoles fs apply init False).Staged (fun _ _ => False)
      (Machine.boot { content := init }) [] := ⟨⟨.none, nofun, nofun, nofun, nofun⟩, .nil⟩
  have hrun :=
    hboot.run (migration_admits nofun) (Machine.runAllowed_of_forall (fun _ _ _ hq => hq.elim) ls)
  obtain ⟨ls₁, ls₂, roles, -, -, i, thread, role, -, -, hexit⟩ | ⟨roles, hstaged, -⟩ := hrun
  · exact hexit.elim
  · have h := hstaged.inv
    exact ⟨h.applied.nodup, h.applied.foldlM, fun l₁ version l₂ => h.applied.earlier, h.serving⟩

/-- A script that creates a table with a random key, and fails when the table exists. -/
def createTable (table : String) (key : Nat) (tables : List (String × Nat)) :
    Except String (List (String × Nat)) :=
  if table ∈ tables.map Prod.fst then .error ("relation \"" ++ table ++ "\" already exists")
  else .ok (tables ++ [(table, key)])

theorem createTable_runs (fs : MigrationsFS) : ScriptsRun fs createTable [] := by
  have hcontent {versions : List String} {content : List (String × Nat)}
      (h : Applied fs createTable [] versions content) : content.map Prod.fst = versions := by
    induction h with
    | none => rfl
    | next h hmem hnew hearlier hrun ih =>
      rw [createTable, ih, if_neg hnew] at hrun
      rw [← Except.ok.inj hrun, List.map_append, ih]
      rfl
  intro versions content version happlied _ hnew _ key
  have hcontent := hcontent happlied
  exact ⟨_, by rw [createTable, hcontent, if_neg hnew]⟩

/-- The first two scripts, not in their order. -/
def firstMigrations : MigrationsFS where
  entries := [⟨"0002_api_gateway_seed.sql", false⟩, ⟨"0001_api_gateway_schema.sql", false⟩]
  nodup := by decide

/-- A gateway with seeds and a core without them start together. The core has opened its session
before the gateway takes the lock, and asks for the lock when the gateway is done. -/
def startTogether : List (Label MigrationRequest (MigrationInput Nat)) :=
  [.arrive (.start (some ⟨true⟩)), .arrive (.start (some ⟨false⟩)), step 0 1, step 1 2] ++
    (List.range 20).map (step 0) ++ (List.range 20).map (step 1)
where
  step (thread random : Nat) : Label MigrationRequest (MigrationInput Nat) :=
    .step thread { random }

/-- The gateway applies both migrations, and the core finds its own applied. -/
theorem migrations_applied_together :
    let s := ((Machine.boot { content := [] }).run (migrationSem createTable)
      (migrationHandler firstMigrations) startTogether).shared
    s.serving = [some ⟨true⟩, some ⟨false⟩] ∧
      s.versions = ["0001_api_gateway_schema.sql", "0002_api_gateway_seed.sql"] ∧
      (∃ drawn : List (String × Nat), drawn.map Prod.fst = s.versions ∧
        drawn.foldlM (fun content script => createTable script.1 script.2 content) [] =
          .ok s.content) ∧
      ∀ options, some options ∈ s.serving →
        ∀ v ∈ firstMigrations.selected options, v ∈ s.versions := by
  have h := migrations_applied firstMigrations createTable [] startTogether
  exact ⟨by decide +kernel, by decide +kernel, h.2.1, h.2.2.2⟩

end ADPlatform.Database
