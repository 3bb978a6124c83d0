import Mathlib.Data.List.Basic
import Mathlib.Logic.Function.Basic

/-! # Buffered channels

Channels with a bounded buffer. A sender that does not wait drops what finds no room. Sending on a
closed channel and closing it again are faults of the program (`misused`). -/

/-- A channel: what was sent and not yet received, and whether it was closed. -/
structure Channel (α : Type) where
  buffer : List α := []
  closed : Bool := false
  misused : Bool := false

namespace Channel
variable {α ι : Type}

/-- A send that does not wait. -/
def trySend (capacity : Nat) (a : α) (c : Channel α) : Channel α :=
  if c.closed then { c with misused := true }
  else if c.buffer.length < capacity then { c with buffer := c.buffer ++ [a] }
  else c

/-- Closing twice is a misuse. -/
def close (c : Channel α) : Channel α :=
  if c.closed then { c with misused := true } else { c with closed := true }

/-- What is received next, and the channel behind it. -/
def receive (c : Channel α) : Option (α × Channel α) :=
  match c.buffer with
  | [] => none
  | a :: buffer => some (a, { c with buffer })

variable {capacity : Nat} {a : α} {c : Channel α}

theorem closed_trySend : (c.trySend capacity a).closed = c.closed := by
  unfold trySend
  split
  · rfl
  · split <;> rfl

theorem misused_trySend (h : c.closed = false) : (c.trySend capacity a).misused = c.misused := by
  rw [trySend, if_neg (by rw [h]; decide)]
  split <;> rfl

theorem buffer_close : c.close.buffer = c.buffer := by
  unfold close
  split <;> rfl

theorem misused_close (h : c.closed = false) : c.close.misused = c.misused := by
  rw [close, if_neg (by rw [h]; decide)]

theorem flags_receive {c' : Channel α} (h : c.receive = some (a, c')) :
    c'.closed = c.closed ∧ c'.misused = c.misused := by
  unfold receive at h
  split at h
  · cases h
  · cases h
    exact ⟨rfl, rfl⟩

/-- The channels after a loop that sends on some of them. -/
def sendAll [DecidableEq ι] (capacity : Nat) (a : α) (receivers : List ι)
    (channels : ι → Channel α) :
    ι → Channel α :=
  receivers.foldl (fun channels i =>
    Function.update channels i ((channels i).trySend capacity a)) channels

/-- Every receiver gets the message once, in whatever order the loop goes. -/
theorem sendAll_apply [DecidableEq ι] {receivers : List ι} (h : receivers.Nodup)
    (channels : ι → Channel α) (i : ι) : sendAll capacity a receivers channels i =
      if i ∈ receivers then (channels i).trySend capacity a else channels i := by
  induction receivers generalizing channels with
  | nil => rfl
  | cons j receivers ih =>
    obtain ⟨hj, hreceivers⟩ := List.nodup_cons.mp h
    rw [sendAll, List.foldl_cons, ← sendAll, ih hreceivers]
    by_cases hi : i = j
    · subst hi
      rw [if_neg hj, if_pos List.mem_cons_self, Function.update_self]
    · rw [Function.update_of_ne hi]
      simp only [List.mem_cons, hi, false_or]

end Channel
