import ADPlatform.APIGateway.MemoryStore
import ADPlatform.Lib.Runs

/-! # The freeze of the scoreboard

A read of the scoreboard looks the freeze window up, fetches the live board and stores it as the
snapshot of the window, in three steps; organizers set and clear the window in between. The snapshot
lies inside the window exactly if every read that stores one finds the window active that is there
then (`inside_run_iff`), and what is answered during a window is one board as long as no read that
has found no freeze answers then. -/

namespace ADPlatform.APIGateway
open GameCore (Time)

/-! ## The stores -/

/-- A slice of rows, which may be nil. -/
abbrev ScoreRows := Option (List ScoreRow)

/-- `ScoreboardFreezeWindow`: when the board stands still, and the board it stands still at. -/
structure ScoreboardFreezeWindow where
  freezeAt : Option Time := none
  unfreezeAt : Option Time := none
  snapshot : Option ScoreRows := none
  snapshotTakenAt : Option Time := none
  deriving DecidableEq, Repr

/-- The two stores, which keep a snapshot differently. -/
inductive FreezeBackend where
  | memory | postgres
  deriving DecidableEq, Repr

/-- What is stored for a slice. The memory store copies it into an empty slice; the database keeps
the JSON text, and that of a nil slice is no slice. -/
def FreezeBackend.payload : FreezeBackend → ScoreRows → ScoreRows
  | memory, rows => some (rows.getD [])
  | postgres, rows => rows

namespace ScoreboardFreezeWindow

/-- `activeAt`: from `freezeAt` on, up to `unfreezeAt`. -/
def activeAt (w : ScoreboardFreezeWindow) (now : Time) : Bool :=
  if w.freezeAt.all (fun freezeAt => now < freezeAt) then false
  else if w.unfreezeAt.any (fun unfreezeAt => ¬ now < unfreezeAt) then false
  else true

/-- The snapshot as the stores hand it out. -/
def rows (w : ScoreboardFreezeWindow) : ScoreRows := w.snapshot.join

/-- `SaveFrozenScoreboardSnapshot`: the first save wins. -/
def saveFrozenScoreboardSnapshot (b : FreezeBackend) (w : ScoreboardFreezeWindow) (rows : ScoreRows)
    (takenAt : Time) : ScoreboardFreezeWindow :=
  if w.snapshot = none then
    { w with snapshot := some (b.payload rows), snapshotTakenAt := some takenAt }
  else w

/-- A stored snapshot has been taken in the window. -/
def Inside (w : ScoreboardFreezeWindow) : Prop :=
  w.snapshot ≠ none → ∃ takenAt freezeAt, w.snapshotTakenAt = some takenAt ∧
    w.freezeAt = some freezeAt ∧ freezeAt ≤ takenAt ∧
    ∀ unfreezeAt, w.unfreezeAt = some unfreezeAt → takenAt < unfreezeAt

variable {w : ScoreboardFreezeWindow} {b : FreezeBackend} {rows : ScoreRows} {now takenAt : Time}

theorem activeAt_iff : w.activeAt now = true ↔ ∃ freezeAt, w.freezeAt = some freezeAt ∧
    freezeAt ≤ now ∧ ∀ unfreezeAt, w.unfreezeAt = some unfreezeAt → now < unfreezeAt := by
  unfold activeAt
  cases w.freezeAt with
  | none => simp
  | some freezeAt =>
    cases w.unfreezeAt with
    | none => simp
    | some unfreezeAt => simp

theorem save_of_some (h : w.snapshot ≠ none) : saveFrozenScoreboardSnapshot b w rows takenAt = w :=
  if_neg h

/-- Storing a snapshot leaves it inside exactly if the window is active when it is taken. -/
theorem inside_save (hw : w.Inside) : (saveFrozenScoreboardSnapshot b w rows takenAt).Inside ↔
    (w.snapshot = none → w.activeAt takenAt = true) := by
  by_cases hnone : w.snapshot = none
  · have hsave : saveFrozenScoreboardSnapshot b w rows takenAt =
        { w with snapshot := some (b.payload rows), snapshotTakenAt := some takenAt } :=
          if_pos hnone
    rw [hsave, activeAt_iff, Inside]
    simp [hnone]
  · rw [save_of_some hnone]
    exact iff_of_true hw fun h => absurd h hnone

end ScoreboardFreezeWindow

/-! ## Reads -/

/-- How far a read has come. -/
inductive ScoreboardRead where
  | looked (now : Time) (frozen : Bool)
  | fetched (now : Time) (rows : ScoreRows)
  | done
  deriving DecidableEq, Repr

/-- What a read has answered while a window was active. -/
structure FrozenAnswer where
  period : Nat
  rows : ScoreRows
  deriving DecidableEq, Repr

/-- The store and the reads. `period` counts how often the window has been set or cleared, and
`answers` are those that reads gave while one was active. -/
structure FreezeSystem where
  freeze : ScoreboardFreezeWindow := {}
  reads : List ScoreboardRead := []
  period : Nat := 0
  answers : List FrozenAnswer := []
  deriving DecidableEq, Repr

/-- A step of a read, with the clock when it is taken, or a call of an organizer. -/
inductive FreezeStep where
  | lookup (now : Time)
  | fetch (read : Nat) (rows : ScoreRows) (now : Time)
  | save (read : Nat) (now : Time)
  | fail (read : Nat)
  | setScoreboardFreezeWindow (freezeAt unfreezeAt : Option Time)
  | clearScoreboardFreeze
  deriving DecidableEq, Repr

namespace FreezeSystem

/-- The state of one read replaced. -/
def setRead (m : FreezeSystem) (read : Nat) (state : ScoreboardRead) : FreezeSystem :=
  { m with reads := m.reads.set read state }

/-- A read is complete. -/
def answer (m : FreezeSystem) (now : Time) (rows : ScoreRows) : FreezeSystem :=
  if m.freeze.activeAt now then { m with answers := ⟨m.period, rows⟩ :: m.answers } else m

/-- The first step of a read: a frozen board with a snapshot is answered at once. -/
def lookup (m : FreezeSystem) (now : Time) : FreezeSystem :=
  let frozen := m.freeze.activeAt now
  if frozen && m.freeze.rows ≠ none then
    { m.answer now m.freeze.rows with reads := m.reads ++ [.done] }
  else { m with reads := m.reads ++ [.looked now frozen] }

/-- The second step of a read: the live rows, which only a frozen board has to save before it
answers. -/
def fetch (m : FreezeSystem) (read : Nat) (rows : ScoreRows) (now : Time) : FreezeSystem :=
  match m.reads[read]? with
  | some (.looked lookedAt true) => m.setRead read (.fetched lookedAt rows)
  | some (.looked _ false) => (m.answer now rows).setRead read .done
  | _ => m

/-- The snapshot that has been stored is answered, whoever has stored it. -/
def save (b : FreezeBackend) (m : FreezeSystem) (read : Nat) (now : Time) : FreezeSystem :=
  match m.reads[read]? with
  | some (.fetched lookedAt rows) =>
    let saved := m.freeze.saveFrozenScoreboardSnapshot b rows lookedAt
    let m := { m with freeze := saved }
    if saved.rows = none then m.setRead read .done else (m.answer now saved.rows).setRead read .done
  | _ => m

/-- The system after a step. -/
def exec (b : FreezeBackend) : FreezeStep → FreezeSystem → FreezeSystem
  | .lookup now, m => m.lookup now
  | .fetch read rows now, m => m.fetch read rows now
  | .save read now, m => m.save b read now
  | .fail read, m => m.setRead read .done
  | .setScoreboardFreezeWindow freezeAt unfreezeAt, m =>
    { m with freeze := { freezeAt, unfreezeAt }, period := m.period + 1 }
  | .clearScoreboardFreeze, m => { m with freeze := {}, period := m.period + 1 }

/-- All answers of one period are the same. -/
def Agreed (m : FreezeSystem) : Prop :=
  ∀ a ∈ m.answers, ∀ a' ∈ m.answers, a.period = a'.period → a.rows = a'.rows

end FreezeSystem

namespace FreezeStep

/-- A read stores its board, if none is stored, into a window that is active when the read began. -/
def savesInside : FreezeStep → FreezeSystem → Bool
  | save read _, m =>
    match m.reads[read]? with
    | some (.fetched lookedAt _) => m.freeze.snapshot.isSome || m.freeze.activeAt lookedAt
    | _ => true
  | _, _ => true

/-- A read that has found no freeze answers when there is none. -/
def answersLive : FreezeStep → FreezeSystem → Bool
  | fetch read _ now, m =>
    match m.reads[read]? with
    | some (.looked _ false) => !m.freeze.activeAt now
    | _ => true
  | _, _ => true

end FreezeStep

namespace FreezeSystem
open ScoreboardFreezeWindow
variable {m : FreezeSystem} {b : FreezeBackend} {step : FreezeStep} {steps : List FreezeStep}

/-! ## Snapshots -/

@[simp] theorem freeze_setRead (read : Nat) (state : ScoreboardRead) :
    (m.setRead read state).freeze = m.freeze := rfl

@[simp] theorem freeze_answer (now : Time) (rows : ScoreRows) :
    (m.answer now rows).freeze = m.freeze := by
  unfold answer
  split <;> rfl

theorem freeze_lookup (now : Time) : (m.lookup now).freeze = m.freeze := by
  unfold lookup
  dsimp only
  split
  · exact freeze_answer now m.freeze.rows
  · rfl

theorem freeze_fetch (read : Nat) (rows : ScoreRows) (now : Time) :
    (m.fetch read rows now).freeze = m.freeze := by
  unfold fetch
  split
  · rfl
  · exact freeze_answer now rows
  · rfl

theorem freeze_save {read : Nat} {lookedAt : Time} {rows : ScoreRows} (now : Time)
    (h : m.reads[read]? = some (.fetched lookedAt rows)) :
    (m.save b read now).freeze = m.freeze.saveFrozenScoreboardSnapshot b rows lookedAt := by
  unfold save
  rw [h]
  dsimp only
  split
  · rfl
  · exact freeze_answer now _

/-- A step keeps the snapshot inside the window exactly if it stores none from outside. -/
theorem inside_step (hm : m.freeze.Inside) :
    (exec b step m).freeze.Inside ↔ step.savesInside m = true := by
  cases step with
  | lookup now =>
    rw [exec, freeze_lookup]
    exact iff_of_true hm rfl
  | fetch read rows now =>
    rw [exec, freeze_fetch]
    exact iff_of_true hm rfl
  | save read now =>
    rw [exec, FreezeStep.savesInside]
    split
    · rename_i lookedAt rows hread
      rw [freeze_save now hread, inside_save hm, Bool.or_eq_true, Option.isSome_iff_ne_none]
      exact imp_iff_not_or
    · rename_i hread
      have hsave : m.save b read now = m := by
        unfold save
        split
        · rename_i lookedAt rows heq
          exact absurd heq (hread lookedAt rows)
        · rfl
      rw [hsave]
      exact iff_of_true hm rfl
  | fail read => exact iff_of_true hm rfl
  | setScoreboardFreezeWindow | clearScoreboardFreeze =>
    exact iff_of_true (fun h => absurd rfl h) rfl

/-- The snapshot lies inside the window in exactly those runs whose reads store none from
outside. -/
theorem inside_run_iff : Runs.Always (exec b) (fun m => m.freeze.Inside) {} steps ↔
    Runs.EachCall (exec b) (fun step m => step.savesInside m = true) {} steps :=
  Runs.always_iff_eachCall (I := fun _ => True) trivial (fun h =>
    absurd rfl h) (fun _ _ _ => trivial)
    fun _ _ _ hm => inside_step hm

/-! ## Answers -/

/-- What has been answered in this period is the snapshot. -/
structure Answered (m : FreezeSystem) : Prop where
  past : ∀ a ∈ m.answers, a.period ≤ m.period
  current : ∀ a ∈ m.answers, a.period = m.period → m.freeze.snapshot = some a.rows
  agreed : m.Agreed

theorem Answered.nextPeriod (h : m.Answered) (freeze : ScoreboardFreezeWindow) :
    Answered { m with freeze, period := m.period + 1 } where
  past a ha := (h.past a ha).trans (Nat.le_succ _)
  current a ha hperiod := by
    have := h.past a ha
    dsimp only at hperiod
    omega
  agreed := h.agreed

theorem Answered.answer (h : m.Answered) {now : Time} {rows : ScoreRows}
    (hrows : m.freeze.activeAt now = true → m.freeze.snapshot = some rows) :
    (m.answer now rows).Answered := by
  unfold FreezeSystem.answer
  split
  · rename_i hactive
    have hsnapshot := hrows hactive
    have hsame : ∀ a ∈ m.answers, a.period = m.period → a.rows = rows := fun a ha hperiod =>
      Option.some.inj ((h.current a ha hperiod).symm.trans hsnapshot)
    refine ⟨?_, ?_, ?_⟩
    · exact List.forall_mem_cons.mpr ⟨le_refl _, h.past⟩
    · exact List.forall_mem_cons.mpr ⟨fun _ => hsnapshot, h.current⟩
    · refine List.forall_mem_cons.mpr ⟨?_, fun a ha => ?_⟩
      · exact List.forall_mem_cons.mpr ⟨fun _ => rfl, fun a ha hperiod =>
          (hsame a ha hperiod.symm).symm⟩
      · exact List.forall_mem_cons.mpr ⟨fun hperiod => hsame a ha hperiod, h.agreed a ha⟩
  · exact h

/-- A snapshot, once stored, stays for the period. -/
theorem Answered.saved (h : m.Answered) (rows : ScoreRows) (takenAt : Time) :
    Answered { m with freeze := m.freeze.saveFrozenScoreboardSnapshot b rows takenAt } := by
  refine ⟨h.past, fun a ha hperiod => ?_, h.agreed⟩
  have hsnapshot := h.current a ha hperiod
  have hne : m.freeze.snapshot ≠ none := by
    rw [hsnapshot]
    exact Option.some_ne_none _
  dsimp only
  rw [save_of_some hne]
  exact hsnapshot

theorem Answered.setRead (h : m.Answered) (read : Nat) (state : ScoreboardRead) :
    (m.setRead read state).Answered := ⟨h.past, h.current, h.agreed⟩

theorem snapshot_of_rows {w : ScoreboardFreezeWindow} (h : w.rows ≠ none) :
    w.snapshot = some w.rows := by
  unfold ScoreboardFreezeWindow.rows at h ⊢
  cases hsnapshot : w.snapshot with
  | none =>
    rw [hsnapshot] at h
    exact absurd rfl h
  | some rows => rfl

theorem Answered.lookup (h : m.Answered) (now : Time) : (m.lookup now).Answered := by
  unfold FreezeSystem.lookup
  dsimp only
  split
  · rename_i hfrozen
    have hrows : m.freeze.rows ≠ none := of_decide_eq_true (Bool.and_eq_true_iff.mp hfrozen).2
    have hanswer := h.answer fun (_ : m.freeze.activeAt now = true) => snapshot_of_rows hrows
    exact ⟨hanswer.past, hanswer.current, hanswer.agreed⟩
  · exact ⟨h.past, h.current, h.agreed⟩

theorem Answered.fetch (h : m.Answered) {read : Nat} {now : Time} {rows : ScoreRows}
    (hlive : (FreezeStep.fetch read rows now).answersLive m = true) :
    (m.fetch read rows now).Answered := by
  unfold FreezeSystem.fetch
  split
  · exact h.setRead read _
  · rename_i lookedAt hread
    refine (h.answer fun hactive => ?_).setRead read .done
    rw [FreezeStep.answersLive, hread, hactive] at hlive
    cases hlive
  · exact h

theorem Answered.save (h : m.Answered) (read : Nat) (now : Time) :
    (m.save b read now).Answered := by
  unfold FreezeSystem.save
  split
  · rename_i lookedAt rows hread
    have hsaved :
        Answered { m with freeze := m.freeze.saveFrozenScoreboardSnapshot b rows lookedAt } :=
      h.saved rows lookedAt
    dsimp only
    split
    · exact hsaved.setRead read .done
    · rename_i hrows
      exact (hsaved.answer fun _ => snapshot_of_rows hrows).setRead read .done
  · exact h

/-- A step keeps the answers of a period together, unless a live board is answered during a
freeze. -/
theorem answered_step (hm : m.Answered) (hlive : step.answersLive m = true) :
    (exec b step m).Answered := by
  cases step with
  | lookup now => exact hm.lookup now
  | fetch read rows now => exact hm.fetch hlive
  | save read now => exact hm.save read now
  | fail read => exact hm.setRead read .done
  | setScoreboardFreezeWindow | clearScoreboardFreeze => exact hm.nextPeriod _

theorem answered_run (hlive : Runs.EachCall (exec b) (fun step m =>
    step.answersLive m = true) {} steps) :
    (Runs.run (exec b) {} steps).Answered :=
  Runs.run_induction ⟨nofun, nofun, nofun⟩ (fun _ _ hm h => answered_step hm h) hlive

/-- A freeze shows one board, taken in its window, as long as no step of a read goes wrong. -/
theorem freeze_run (hsteps : Runs.EachCall (exec b)
      (fun step m => (step.savesInside m && step.answersLive m) = true) {} steps) :
    Runs.Always (exec b) (fun m => m.freeze.Inside ∧ m.Agreed) {} steps := by
  rintro before after rfl
  have hbefore := hsteps.append
  have hinside : Runs.EachCall (exec b) (fun step m => step.savesInside m = true) {} before :=
    fun first step rest heq => (Bool.and_eq_true_iff.mp (hbefore first step rest heq)).1
  have hlive : Runs.EachCall (exec b) (fun step m => step.answersLive m = true) {} before :=
    fun first step rest heq => (Bool.and_eq_true_iff.mp (hbefore first step rest heq)).2
  exact ⟨(inside_run_iff.mpr hinside).last, (answered_run hlive).agreed⟩

/-- A freeze from 10 to 20 that two reads find; the second one gets the board of the first. -/
def plainFreeze : List FreezeStep :=
  [.setScoreboardFreezeWindow (some 10) (some 20), .lookup 11, .lookup 12, .fetch 0 (some []) 12,
   .save 0 13, .fetch 1 none 13, .save 1 14, .lookup 15, .clearScoreboardFreeze]

theorem freeze_run_plainFreeze :
    Runs.Always (exec .postgres) (fun m => m.freeze.Inside ∧ m.Agreed) {} plainFreeze :=
  freeze_run (by
    simp only [plainFreeze, Runs.eachCall_cons]
    exact ⟨rfl, rfl, rfl, rfl, rfl, rfl, rfl, rfl, rfl, Runs.eachCall_nil⟩)

/-- A board of the first window is stored into the second one. -/
def movedWindow : List FreezeStep :=
  [.setScoreboardFreezeWindow (some 10) none, .lookup 12, .fetch 0 (some []) 12,
   .setScoreboardFreezeWindow (some 100) none, .save 0 13]

theorem not_freeze : ¬ ∀ b steps, Runs.Always (exec b) (fun m =>
    m.freeze.Inside ∧ m.Agreed) {} steps := by
  intro h
  have hinside := (h .postgres movedWindow).last.1
  obtain ⟨takenAt, freezeAt, htaken, hfreeze, hle, -⟩ := hinside (by decide)
  have htaken : some 12 = some takenAt := htaken
  have hfreeze : some 100 = some freezeAt := hfreeze
  cases htaken
  cases hfreeze
  exact absurd hle (by decide)

end FreezeSystem

end ADPlatform.APIGateway
