import Mathlib.Algebra.Order.BigOperators.Group.List
import Mathlib.Algebra.Order.Ring.Nat
import ADPlatform.Lib.Encoding

/-! # The Redis protocol of the rate limiter

Commands are written as arrays of strings that carry their lengths, replies are read by a recursive
reader over all kinds of values. `readRedisValue_writeRedisCommand` says that the reader takes back
what the writer wrote and stops where it ends, whatever bytes the strings have. -/

namespace ADPlatform.APIGateway
open Text

/-- What the server can answer, errors apart. -/
inductive RedisValue where
  | text (bytes : List UInt8)
  | int (n : Int)
  | array (items : List RedisValue)
  /-- the array of a negative length -/
  | nilArray

/-- Why a reply is not a value. -/
inductive RedisError where
  | eof
  /-- an error reply of the server -/
  | reply (line : List UInt8)
  | number (line : List UInt8)
  | unsupportedPrefix (b : UInt8)
  /-- the size of a buffer is no `int` -/
  | size
  deriving DecidableEq, Repr

/-- The lengths of strings and slices are below this bound. -/
def maxInt : Nat := 9223372036854775807

/-- `writeRedisCommand`: an array of bulk strings. -/
def writeRedisCommand (parts : List (List UInt8)) : List UInt8 :=
  bytes ("*" ++ parts.length.repr ++ "\r\n") ++
    parts.flatMap fun part => bytes ("$" ++ part.length.repr ++ "\r\n") ++ part ++ bytes "\r\n"

/-- `readRedisLine`: up to the first line feed, with a carriage return before it cut off. -/
def readRedisLine (input : List UInt8) : Except RedisError (List UInt8 × List UInt8) :=
  match input.dropWhile (· ≠ 10) with
  | [] => .error .eof
  | _ :: rest =>
    let line := input.takeWhile (· ≠ 10)
    .ok (if line.getLast? = some 13 then line.dropLast else line, rest)

/-- A line that has to be a number. -/
def readRedisNumber (input : List UInt8) : Except RedisError (Int × List UInt8) := do
  let (line, rest) ← readRedisLine input
  match Decimal.atoi line with
  | none => .error (.number line)
  | some n => .ok (n, rest)

/-- `n` values, one after the other. -/
def readRedisItems (read : List UInt8 → Except RedisError (RedisValue × List UInt8)) :
    Nat → List UInt8 → Except RedisError (List RedisValue × List UInt8)
  | 0, input => .ok ([], input)
  | n + 1, input => do
    let (item, input) ← read input
    let (items, input) ← readRedisItems read n input
    return (item :: items, input)

/-- `readRedisValue` on an input of at most `fuel` bytes. -/
def readRedisWithin : Nat → List UInt8 → Except RedisError (RedisValue × List UInt8)
  | 0, _ | _, [] => .error .eof
  | fuel + 1, kind :: input =>
    if kind = 43 then do
      let (line, rest) ← readRedisLine input
      return (.text line, rest)
    else if kind = 45 then do
      let (line, _) ← readRedisLine input
      .error (.reply line)
    else if kind = 58 then do
      let (n, rest) ← readRedisNumber input
      return (.int n, rest)
    else if kind = 36 then do
      let (length, rest) ← readRedisNumber input
      if length < 0 then return (.text [], rest)
      else if maxInt < length.toNat + 2 then .error .size
      else if rest.length < length.toNat + 2 then .error .eof
      else return (.text (rest.take length.toNat), rest.drop (length.toNat + 2))
    else if kind = 42 then do
      let (length, rest) ← readRedisNumber input
      if length < 0 then return (.nilArray, rest)
      else
        let (items, rest) ← readRedisItems (readRedisWithin fuel) length.toNat rest
        return (.array items, rest)
    else .error (.unsupportedPrefix kind)

/-- `readRedisValue`: the value and the bytes behind it. -/
def readRedisValue (input : List UInt8) : Except RedisError (RedisValue × List UInt8) :=
  readRedisWithin input.length input

section
variable {input rest line part : List UInt8} {parts : List (List UInt8)} {fuel fuel' n : Nat}

/-! ## The reader takes bytes off its input -/

theorem length_lt_of_readRedisLine (h : readRedisLine input = .ok (line, rest)) :
    rest.length < input.length := by
  unfold readRedisLine at h
  split at h
  · cases h
  · rename_i hdrop
    cases h
    have hle := (List.dropWhile_sublist (l := input) (· ≠ 10)).length_le
    rw [hdrop, List.length_cons] at hle
    exact hle

theorem length_lt_of_readRedisNumber {number : Int}
    (h : readRedisNumber input = .ok (number, rest)) :
    rest.length < input.length := by
  obtain ⟨⟨line, rest'⟩, hline, h⟩ := exists_of_bind_eq_ok h
  dsimp only at h
  split at h
  · cases h
  · cases h
    exact length_lt_of_readRedisLine hline

/-- A reader that takes bytes off its input. -/
def Shrinks (read : List UInt8 → Except RedisError (RedisValue × List UInt8)) : Prop :=
  ∀ input value rest, read input = .ok (value, rest) → rest.length < input.length

theorem length_le_of_readRedisItems
    {read : List UInt8 → Except RedisError (RedisValue × List UInt8)}
    (hread : Shrinks read) {items : List RedisValue}
    (h : readRedisItems read n input = .ok (items, rest)) :
    rest.length ≤ input.length := by
  induction n generalizing input items with
  | zero =>
    cases h
    exact le_rfl
  | succ n ih =>
    obtain ⟨⟨item, input'⟩, hitem, h⟩ := exists_of_bind_eq_ok h
    obtain ⟨⟨items', rest'⟩, hitems, h⟩ := exists_of_bind_eq_ok h
    cases h
    exact (ih hitems).trans (hread _ _ _ hitem).le

theorem shrinks_readRedisWithin (fuel : Nat) : Shrinks (readRedisWithin fuel) := by
  induction fuel with
  | zero =>
    intro input value rest h
    cases h
  | succ fuel ih =>
    intro input value rest h
    cases input with
    | nil => cases h
    | cons kind input =>
      refine Nat.lt_succ_of_le ?_
      unfold readRedisWithin at h
      split at h
      · obtain ⟨⟨line, rest'⟩, hline, h⟩ := exists_of_bind_eq_ok h
        cases h
        exact (length_lt_of_readRedisLine hline).le
      split at h
      · obtain ⟨⟨line, rest'⟩, hline, h⟩ := exists_of_bind_eq_ok h
        cases h
      split at h
      · obtain ⟨⟨number, rest'⟩, hnumber, h⟩ := exists_of_bind_eq_ok h
        cases h
        exact (length_lt_of_readRedisNumber hnumber).le
      split at h
      · obtain ⟨⟨length, rest'⟩, hnumber, h⟩ := exists_of_bind_eq_ok h
        have hlt := length_lt_of_readRedisNumber hnumber
        dsimp only at h
        split at h
        · cases h
          exact hlt.le
        split at h
        · cases h
        split at h
        · cases h
        cases h
        rw [List.length_drop]
        omega
      split at h
      · obtain ⟨⟨length, rest'⟩, hnumber, h⟩ := exists_of_bind_eq_ok h
        have hlt := length_lt_of_readRedisNumber hnumber
        dsimp only at h
        split at h
        · cases h
          exact hlt.le
        obtain ⟨⟨items, rest''⟩, hitems, h⟩ := exists_of_bind_eq_ok h
        cases h
        exact (length_le_of_readRedisItems ih hitems).trans hlt.le
      · cases h

theorem readRedisItems_congr {read read' : List UInt8 → Except RedisError (RedisValue × List UInt8)}
    (hread : Shrinks read)
    (h : ∀ input' : List UInt8, input'.length ≤ input.length → read input' = read' input') :
    readRedisItems read n input = readRedisItems read' n input := by
  induction n generalizing input with
  | zero => rfl
  | succ n ih =>
    rw [readRedisItems, readRedisItems, ← h input le_rfl]
    cases hitem : read input with
    | error e => rfl
    | ok out =>
      obtain ⟨item, input'⟩ := out
      have hlt := hread _ _ _ hitem
      have hrest : readRedisItems read n input' = _ :=
        ih fun input'' hle => h input'' (hle.trans hlt.le)
      simp only [bind, Except.bind]
      rw [hrest]

/-- The fuel does not run out: more of it changes nothing. -/
theorem readRedisWithin_eq (hfuel : input.length ≤ fuel) :
    readRedisWithin fuel input = readRedisValue input := by
  suffices ∀ fuel', input.length ≤ fuel' → readRedisWithin fuel input =
    readRedisWithin fuel' input from
    this _ le_rfl
  induction fuel generalizing input with
  | zero =>
    obtain rfl := List.length_eq_zero_iff.mp (Nat.le_zero.mp hfuel)
    intro fuel' _
    cases fuel' <;> rfl
  | succ fuel ih =>
    intro fuel' hfuel'
    cases input with
    | nil => cases fuel' <;> rfl
    | cons kind input =>
      cases fuel' with
      | zero => cases hfuel'
      | succ fuel' =>
        rw [List.length_cons] at hfuel hfuel'
        have hitems : ∀ n (rest : List UInt8), rest.length ≤ input.length →
            readRedisItems (readRedisWithin fuel) n rest =
              readRedisItems (readRedisWithin fuel') n rest := by
          intro n rest hrest
          refine readRedisItems_congr (shrinks_readRedisWithin fuel) fun input' hle => ?_
          exact ih (by omega) fuel' (by omega)
        unfold readRedisWithin
        -- only the items of an array are read with the fuel
        split
        · rfl
        split
        · rfl
        split
        · rfl
        split
        · rfl
        split
        · cases hnumber : readRedisNumber input with
          | error e => rfl
          | ok out =>
            have hlt : out.2.length < input.length := length_lt_of_readRedisNumber hnumber
            simp only [bind, Except.bind, hitems out.1.toNat out.2 hlt.le]
        · rfl

/-! ## What is written is read back -/

theorem bytes_newline : bytes "\r\n" = [13, 10] := by decide

theorem bytes_star : bytes "*" = [42] := by decide

theorem bytes_dollar : bytes "$" = [36] := by decide

theorem readRedisLine_append (h : 10 ∉ line) :
    readRedisLine (line ++ 13 :: 10 :: rest) = .ok (line, rest) := by
  have hline : ∀ b ∈ line ++ [13], decide (b ≠ 10) = true := by
    intro b hb
    rw [decide_eq_true_eq]
    rintro rfl
    rcases List.mem_append.mp hb with hb | hb
    · exact h hb
    · cases List.mem_singleton.mp hb
  have hsplit : line ++ 13 :: 10 :: rest = (line ++ [13]) ++ 10 :: rest := by simp
  rw [readRedisLine, hsplit, List.dropWhile_append_of_pos hline, List.takeWhile_append_of_pos hline]
  simp

theorem readRedisNumber_append (h : n ≤ maxInt) :
    readRedisNumber (bytes n.repr ++ 13 :: 10 :: rest) = .ok ((n : Int), rest) := by
  have hnotMem : 10 ∉ bytes n.repr := Decimal.notMem_bytes_repr (n := n) (by decide)
  have hnumber : Decimal.atoi (bytes n.repr) = some (n : Int) :=
    Decimal.atoi_repr (Nat.lt_succ_of_le h)
  rw [readRedisNumber, readRedisLine_append hnotMem]
  simp only [bind, Except.bind, hnumber]

/-- One string of a command. -/
theorem readRedisWithin_part (h : part.length + 2 ≤ maxInt) (hfuel : 0 < fuel) :
    readRedisWithin fuel (bytes ("$" ++ part.length.repr ++ "\r\n") ++ part ++
      bytes "\r\n" ++ rest) =
      .ok (.text part, rest) := by
  obtain ⟨fuel, rfl⟩ := Nat.exists_eq_succ_of_ne_zero hfuel.ne'
  have hinput : bytes ("$" ++ part.length.repr ++ "\r\n") ++ part ++ bytes "\r\n" ++ rest =
      36 :: (bytes part.length.repr ++ 13 :: 10 :: (part ++ 13 :: 10 :: rest)) := by
    simp [bytes_append, bytes_newline, bytes_dollar]
  have hnumber :
      readRedisNumber (bytes part.length.repr ++ 13 :: 10 :: (part ++ 13 :: 10 :: rest)) = _ :=
    readRedisNumber_append (by omega)
  rw [hinput, readRedisWithin, if_neg (by decide), if_neg (by decide), if_neg (by decide),
    if_pos rfl, hnumber]
  simp only [bind, Except.bind, Int.toNat_natCast]
  rw [if_neg (by omega), if_neg (by omega), if_neg (by simp), List.take_left]
  simp only [List.drop_append, List.drop_of_length_le (Nat.le_add_right _ _),
    Nat.add_sub_cancel_left]
  rfl

theorem readRedisItems_parts (rest : List UInt8)
    {read : List UInt8 → Except RedisError (RedisValue × List UInt8)}
    (hread : ∀ part ∈ parts, ∀ rest,
      read (bytes ("$" ++ part.length.repr ++ "\r\n") ++ part ++ bytes "\r\n" ++ rest) =
        .ok (.text part, rest)) :
    readRedisItems read parts.length (parts.flatMap (fun part =>
        bytes ("$" ++ part.length.repr ++ "\r\n") ++ part ++ bytes "\r\n") ++ rest) =
      .ok (parts.map .text, rest) := by
  induction parts with
  | nil => rfl
  | cons part parts ih =>
    have htail := ih fun part' hpart => hread part' (.tail _ hpart)
    rw [List.flatMap_cons, List.append_assoc, List.length_cons, readRedisItems,
      hread part (.head _)]
    simp only [bind, Except.bind, htail]
    rfl

/-- A command is longer than any of its strings, and has a byte for each. -/
theorem length_writeRedisCommand (parts : List (List UInt8)) :
    parts.length ≤ (writeRedisCommand parts).length ∧
      ∀ part ∈ parts, part.length + 2 ≤ (writeRedisCommand parts).length := by
  have hpart : ∀ part : List UInt8, part.length + 2 ≤
      (bytes ("$" ++ part.length.repr ++ "\r\n") ++ part ++ bytes "\r\n").length := by
    intro part
    simp only [List.length_append, bytes_newline, List.length_cons, List.length_nil]
    omega
  rw [writeRedisCommand, List.length_append, List.length_flatMap]
  refine ⟨?_, fun part hmem => ?_⟩
  · have hle := List.length_le_sum_of_one_le (parts.map fun part =>
      (bytes ("$" ++ part.length.repr ++ "\r\n") ++ part ++ bytes "\r\n").length) ?_
    · rw [List.length_map] at hle
      omega
    · intro n hn
      obtain ⟨part, -, rfl⟩ := List.mem_map.mp hn
      have := hpart part
      omega
  · have hle := List.single_le_sum (fun n _ => Nat.zero_le n) _
      (List.mem_map_of_mem (f := fun part : List UInt8 =>
        (bytes ("$" ++ part.length.repr ++ "\r\n") ++ part ++ bytes "\r\n").length) hmem)
    have := hpart part
    omega

/-- The reader takes back a command that fits into a buffer, and stops where it ends. -/
theorem readRedisValue_writeRedisCommand (parts : List (List UInt8)) (rest : List UInt8)
    (hbuffer : (writeRedisCommand parts).length ≤ maxInt) :
    readRedisValue (writeRedisCommand parts ++ rest) = .ok (.array (parts.map .text), rest) := by
  obtain ⟨hcount, hlength⟩ := length_writeRedisCommand parts
  have hinput : writeRedisCommand parts ++ rest =
      42 :: (bytes parts.length.repr ++ 13 :: 10 :: (parts.flatMap (fun part =>
        bytes ("$" ++ part.length.repr ++ "\r\n") ++ part ++ bytes "\r\n") ++ rest)) := by
    rw [writeRedisCommand, bytes_append, bytes_append, bytes_newline, bytes_star]
    simp
  have hpos : 0 < (writeRedisCommand parts ++ rest).length := by
    rw [hinput]
    exact Nat.succ_pos _
  have hitems := readRedisItems_parts rest fun part hpart _ =>
    readRedisWithin_part ((hlength part hpart).trans hbuffer) hpos
  rw [hinput] at hitems
  rw [← readRedisWithin_eq (Nat.le_succ _), hinput, readRedisWithin, if_neg (by decide),
    if_neg (by decide), if_neg (by decide), if_neg (by decide), if_pos rfl,
    readRedisNumber_append (hcount.trans hbuffer)]
  simp only [bind, Except.bind, Int.toNat_natCast, hitems]
  rw [if_neg (by omega)]
  rfl

/-- An empty string, line breaks and the marks of the protocol, before the next command. -/
theorem readRedisValue_eval :
    readRedisValue (writeRedisCommand [bytes "EVAL", [], bytes "\r\n$3\r\n*", [255]] ++
      bytes "*1\r\n") =
      .ok (.array [.text (bytes "EVAL"), .text [], .text (bytes "\r\n$3\r\n*"), .text [255]],
        bytes "*1\r\n") :=
  readRedisValue_writeRedisCommand [bytes "EVAL", [], bytes "\r\n$3\r\n*", [255]] (bytes "*1\r\n")
    (by decide)

end

end ADPlatform.APIGateway
