import Mathlib
import ADPlatform.Lib.Encoding

/-! # Texts of IP addresses

The address texts that Go's `net.ParseIP` accepts. What carries the proofs is that a dotted quad
and its text determine each other (`IPv4.parse_eq_some`). -/

namespace Net

instance octet_neZero : NeZero 256 := ⟨by decide⟩

/-- An IPv4 address. -/
structure IPv4 where
  a : Fin 256
  b : Fin 256
  c : Fin 256
  d : Fin 256
  deriving DecidableEq, Repr

/-- An address of either family; an IPv6 address is its sixteen bytes. -/
inductive IP where
  | v4 (address : IPv4)
  | v6 (bytes : List (Fin 256))
  deriving DecidableEq, Repr

/-- Is this an IPv4 address? -/
def IP.isV4 : IP → Bool
  | v4 _ => true
  | v6 _ => false

namespace IPv4

/-- The four numbers in their order. -/
def octets (ip : IPv4) : List (Fin 256) := [ip.a, ip.b, ip.c, ip.d]

/-- The dotted quad of an address. -/
def text (ip : IPv4) : String :=
  String.ofList (['.'].intercalate (ip.octets.map fun n => Nat.toDigits 10 n.val))

/-- An octet in decimal: at most 255, and without leading zeros. -/
def parseOctet (digits : List Char) : Option (Fin 256) :=
  if h : Nat.ofDigitChars 10 digits 0 < 256 ∧
      Nat.toDigits 10 (Nat.ofDigitChars 10 digits 0) = digits then
    some ⟨Nat.ofDigitChars 10 digits 0, h.1⟩
  else none

/-- `netip.parseIPv4`, on the characters of a text. -/
def parseChars (s : List Char) : Option IPv4 :=
  match s.splitOn '.' with
  | [a, b, c, d] => do
    return ⟨← parseOctet a, ← parseOctet b, ← parseOctet c, ← parseOctet d⟩
  | _ => none

/-- The address that a text names. -/
def parse (s : String) : Option IPv4 := parseChars s.toList

theorem parseOctet_eq_some {digits : List Char} {n : Fin 256} :
    parseOctet digits = some n ↔ Nat.toDigits 10 n = digits := by
  constructor
  · intro h
    rw [parseOctet] at h
    split at h
    next hd =>
      obtain rfl := Option.some.inj h
      exact hd.2
    next => cases h
  · rintro rfl
    have hn := n.isLt
    simp [parseOctet, Nat.ofDigitChars_ten_toDigits, hn]

theorem dot_notMem_toDigits (n : Nat) : '.' ∉ Nat.toDigits 10 n := by
  intro h
  have := Nat.isDigit_of_mem_toDigits (by decide) (by decide) h
  exact absurd this (by decide)

theorem parseChars_eq_some {s : List Char} {ip : IPv4} :
    parseChars s = some ip ↔
      s = ['.'].intercalate (ip.octets.map fun n => Nat.toDigits 10 n.val) := by
  constructor
  · intro h
    rw [parseChars] at h
    rw [show s = ['.'].intercalate (s.splitOn '.') from (List.intercalate_splitOn '.').symm]
    split at h
    next a b c d hs =>
      simp only [Option.pure_def, Option.bind_eq_bind, Option.bind_eq_some_iff, Option.some.injEq,
        parseOctet_eq_some] at h
      obtain ⟨_, rfl, _, rfl, _, rfl, _, rfl, rfl⟩ := h
      rw [hs]
      rfl
    next => cases h
  · rintro rfl
    rw [parseChars, List.splitOn_intercalate]
    · have hparse (n : Fin 256) : parseOctet (Nat.toDigits 10 n) = some n :=
        parseOctet_eq_some.mpr rfl
      simp [octets, hparse]
    · simp [octets, dot_notMem_toDigits]
    · simp [octets]

/-- An address has one dotted quad, and a dotted quad is the text of one address. -/
theorem parse_eq_some {s : String} {ip : IPv4} : parse s = some ip ↔ s = ip.text := by
  rw [parse, parseChars_eq_some, text, ← String.toList_inj, String.toList_ofList]

theorem parse_text (ip : IPv4) : parse ip.text = some ip := parse_eq_some.mpr rfl

theorem text_inj {ip ip' : IPv4} : ip.text = ip'.text ↔ ip = ip' := by
  refine ⟨fun h => ?_, congrArg text⟩
  have := parse_text ip
  rw [h, parse_text] at this
  exact (Option.some.inj this).symm

theorem toList_text (ip : IPv4) : ip.text.toList =
    Nat.toDigits 10 ip.a ++ '.' :: (Nat.toDigits 10 ip.b ++ '.' :: (Nat.toDigits 10 ip.c ++
      '.' :: Nat.toDigits 10 ip.d)) := by
  simp [text, octets]

theorem text_eq (ip : IPv4) : ip.text =
    ip.a.val.repr ++ "." ++ ip.b.val.repr ++ "." ++ ip.c.val.repr ++ "." ++ ip.d.val.repr := by
  rw [← String.toList_inj, toList_text]
  simp [Nat.toList_repr]

theorem mem_text {ip : IPv4} {c : Char} (h : c ∈ ip.text.toList) : c = '.' ∨ c.isDigit := by
  have hdigit {n : Nat} (h : c ∈ Nat.toDigits 10 n) : c.isDigit :=
    Nat.isDigit_of_mem_toDigits (by decide) (by decide) h
  simp only [toList_text, List.mem_append, List.mem_cons] at h
  rcases h with h | h | h | h | h | h | h
  all_goals first | exact .inl h | exact .inr (hdigit h)

end IPv4

namespace IPv6

/-- The value of a hexadecimal digit. -/
def hexValue (c : Char) : Option Nat :=
  if '0' ≤ c ∧ c ≤ '9' then some (c.toNat - '0'.toNat)
  else if 'a' ≤ c ∧ c ≤ 'f' then some (c.toNat - 'a'.toNat + 10)
  else if 'A' ≤ c ∧ c ≤ 'F' then some (c.toNat - 'A'.toNat + 10)
  else none

/-- The two bytes of a group of hexadecimal digits. -/
def groupBytes (digits : List Char) : List (Fin 256) :=
  let n := (digits.filterMap hexValue).foldl (fun n d => n * 16 + d) 0
  [Fin.ofNat 256 (n / 256), Fin.ofNat 256 n]

/-- The loop of `netip.parseIPv6`: the bytes so far, the place of the ellipsis and the rest of
the text. Every round but the last adds two bytes of the sixteen, which bounds the rounds. -/
def parseGroups (rounds : Nat) (ip : List (Fin 256)) (ellipsis : Option Nat) (s : List Char) :
    Option (List (Fin 256) × Option Nat × List Char) :=
  match rounds with
  | 0 => some (ip, ellipsis, s)
  | rounds + 1 =>
    let isDigit := fun c => (hexValue c).isSome
    let digits := s.takeWhile isDigit
    let ip' := ip ++ groupBytes digits
    if digits = [] ∨ 4 < digits.length then none
    else
      match s.dropWhile isDigit with
      | [] => some (ip', ellipsis, [])
      | '.' :: _ =>
        -- an embedded IPv4 address takes the last four bytes
        if (ellipsis = none ∧ ip.length ≠ 12) ∨ 16 < ip.length + 4 then none
        else (IPv4.parseChars s).map fun a => (ip ++ a.octets, ellipsis, [])
      | [':'] => none
      | [':', ':'] => if ellipsis.isSome then none else some (ip', some ip'.length, [])
      | ':' :: ':' :: rest =>
        if ellipsis.isSome then none else parseGroups rounds ip' (some ip'.length) rest
      | ':' :: rest => parseGroups rounds ip' ellipsis rest
      | _ => none

/-- `netip.parseIPv6` of a text without a zone. -/
def parseChars (s : List Char) : Option (List (Fin 256)) :=
  let start := match s with
    | [':', ':'] => some ([], some 0, [])
    | ':' :: ':' :: rest => parseGroups 8 [] (some 0) rest
    | s => parseGroups 8 [] none s
  start.bind fun (ip, ellipsis, rest) =>
    if rest ≠ [] then none
    else match ellipsis with
      | none => if ip.length < 16 then none else some ip
      | some i =>
        if ip.length < 16 then
          some (ip.take i ++ List.replicate (16 - ip.length) 0 ++ ip.drop i)
        else none

/-- The characters of addresses. -/
def IsAddressChar (c : Char) : Prop := (hexValue c).isSome ∨ c = ':' ∨ c = '.'

theorem isAddressChar_of_isDigit {c : Char} (h : c.isDigit) : IsAddressChar c := by
  simp only [Char.isDigit, Bool.and_eq_true, decide_eq_true_eq] at h
  refine .inl ?_
  rw [hexValue, if_pos ⟨h.1, h.2⟩]
  rfl

theorem isAddressChar_v4 {s : List Char} {ip : IPv4} (h : IPv4.parseChars s = some ip) :
    ∀ c ∈ s, IsAddressChar c := by
  intro c hc
  have htext : String.ofList s = ip.text := by
    rw [← IPv4.parse_eq_some, IPv4.parse, String.toList_ofList, h]
  have hc : c ∈ ip.text.toList := by rwa [← htext, String.toList_ofList]
  rcases IPv4.mem_text hc with h | h
  · exact .inr (.inr h)
  · exact isAddressChar_of_isDigit h

theorem isAddressChar_groups {rounds : Nat} {ip ip' : List (Fin 256)} {e e' : Option Nat}
    {s : List Char} (h : parseGroups rounds ip e s = some (ip', e', [])) :
    ∀ c ∈ s, IsAddressChar c := by
  have hsplit (s : List Char) (hrest : ∀ c ∈ s.dropWhile (fun c => (hexValue c).isSome),
    IsAddressChar c) :
      ∀ c ∈ s, IsAddressChar c := by
    intro c hc
    rw [← List.takeWhile_append_dropWhile (p := fun c => (hexValue c).isSome) (l := s)] at hc
    rcases List.mem_append.mp hc with hc | hc
    · exact .inl (List.mem_takeWhile_imp (p := fun c => (hexValue c).isSome) hc)
    · exact hrest c hc
  have hcolon : IsAddressChar ':' := .inr (.inl rfl)
  fun_induction parseGroups rounds ip e s with
  | case1 ip e s =>
    cases h
    nofun
  | case2 => cases h
  | case3 _ _ _ _ _ _ _ _ heq =>
    refine hsplit _ ?_
    rw [heq]
    nofun
  | case4 => cases h
  | case5 =>
    obtain ⟨a, ha, -⟩ := Option.map_eq_some_iff.mp h
    exact isAddressChar_v4 ha
  | case6 => cases h
  | case7 => cases h
  | case8 _ _ _ _ _ _ _ _ heq =>
    refine hsplit _ ?_
    rw [heq]
    simp [hcolon]
  | case9 => cases h
  | case10 _ _ _ _ _ _ _ _ rest _ heq _ ih =>
    refine hsplit _ ?_
    rw [heq]
    simp only [List.forall_mem_cons]
    exact ⟨hcolon, hcolon, ih h⟩
  | case11 _ _ _ _ _ _ _ _ rest _ _ _ heq ih =>
    refine hsplit _ ?_
    rw [heq]
    simp only [List.forall_mem_cons]
    exact ⟨hcolon, ih h⟩
  | case12 => cases h

end IPv6

/-- `net.ParseIP`. The first separator tells the family, and no zone is accepted. -/
def parseIP (s : String) : Option IP :=
  if '%' ∈ s.toList then none
  else match s.toList.find? fun c => c = '.' || c = ':' with
    | some '.' => (IPv4.parse s).map .v4
    | some ':' => (IPv6.parseChars s.toList).map .v6
    | _ => none

theorem parseIP_text (ip : IPv4) : parseIP ip.text = some (.v4 ip) := by
  have hzone : '%' ∉ ip.text.toList := by
    intro h
    rcases IPv4.mem_text h with h | h
    · exact absurd h (by decide)
    · exact absurd h (by decide)
  have hfirst : ip.text.toList.find? (fun c => c = '.' || c = ':') = some '.' := by
    rw [IPv4.toList_text, List.find?_append, List.find?_eq_none.mpr]
    · rfl
    · intro c hc
      have := Nat.isDigit_of_mem_toDigits (by decide) (by decide) hc
      simp only [Bool.or_eq_true, decide_eq_true_eq, not_or]
      exact ⟨fun h => absurd this (by rw [h]; decide), fun h => absurd this (by rw [h]; decide)⟩
  rw [parseIP, if_neg hzone, hfirst]
  simp [IPv4.parse_text]

theorem parseIP_eq_v4 {s : String} {ip : IPv4} : parseIP s = some (.v4 ip) ↔ s = ip.text := by
  refine ⟨fun h => ?_, fun h => h ▸ parseIP_text ip⟩
  rw [parseIP] at h
  split at h
  · cases h
  · split at h
    · exact IPv4.parse_eq_some.mp (by simpa using h)
    · simp at h
    · cases h

theorem trimSpace_text (ip : IPv4) : Text.trimSpace ip.text = ip.text := by
  have hspace : ∀ c ∈ ip.text.toList, Text.isSpace c = false := by
    intro c hc
    rcases IPv4.mem_text hc with rfl | h
    · decide
    · exact Text.isSpace_of_isDigit h
  exact Text.trimSpace_eq_self hspace

/-- A text of an address has no characters but digits and separators. -/
theorem isAddressChar_of_parseIP {s : String} {ip : IP} (h : parseIP s = some ip) :
    ∀ c ∈ s.toList, IPv6.IsAddressChar c := by
  have hcolon : IPv6.IsAddressChar ':' := .inr (.inl rfl)
  unfold parseIP at h
  split at h
  · cases h
  split at h
  · obtain ⟨a, ha, -⟩ := Option.map_eq_some_iff.mp h
    exact IPv6.isAddressChar_v4 ha
  · obtain ⟨bytes, hbytes, -⟩ := Option.map_eq_some_iff.mp h
    unfold IPv6.parseChars at hbytes
    obtain ⟨⟨ip', e, rest⟩, hstart, hbytes⟩ := Option.bind_eq_some_iff.mp hbytes
    dsimp only at hbytes
    split at hbytes
    · cases hbytes
    rename_i hrest
    rw [not_not] at hrest
    subst hrest
    split at hstart
    · rename_i heq
      rw [heq]
      simp [hcolon]
    · rename_i rest _ heq
      rw [heq]
      simp only [List.forall_mem_cons]
      exact ⟨hcolon, hcolon, IPv6.isAddressChar_groups hstart⟩
    · exact IPv6.isAddressChar_groups hstart
  · cases h

end Net
