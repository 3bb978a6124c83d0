import ADPlatform.CheckerRunner.Frames

/-! # What the batch script prints is what the parser reads

The batch script prints a frame for each phase: a header line with the phase, the exit code and the
number of bytes behind the line, the bytes, and a newline. `BatchCursor` follows
`parseCheckerBatchFrames` cursor by cursor; it takes no slice out of range and agrees with the
parser that consumes its input. -/

namespace ADPlatform.CheckerRunner
open ByteString
open Text (bytes)

/-! ## The script -/

/-- What one phase left: its exit status is a byte. -/
structure PhaseOutput where
  phase : String
  exitCode : UInt8
  output : List UInt8
  deriving DecidableEq

/-- The phases that the script runs. -/
def scriptPhases : List String := ["put", "get", "check"]

/-- `printf '__ADP_PHASE_FRAME__ %s %s %s\\n'` and `printf '%s\\n'`. -/
def PhaseOutput.frame (p : PhaseOutput) : List UInt8 :=
  checkerBatchFramePrefix ++ bytes p.phase ++ 32 :: (bytes p.exitCode.toNat.repr ++ 32 ::
    bytes p.output.length.repr) ++ newline :: (p.output ++ [newline])

/-- All that the script prints when every phase is run. -/
def scriptOutput (ps : List PhaseOutput) : List UInt8 := ps.flatMap PhaseOutput.frame

/-- The frame that the parser is to return. -/
def PhaseOutput.parsed (p : PhaseOutput) : CheckerBatchFrame where
  output := p.output
  exitCode := p.exitCode.toNat

theorem isWord_repr (n : Nat) : IsWord (bytes n.repr) := by
  have hdigits : ∀ c ∈ Nat.toDigits 10 n, c.isDigit := fun c hc =>
    Nat.isDigit_of_mem_toDigits (by decide) (by decide) hc
  have hbytes : bytes n.repr = (Nat.toDigits 10 n).map fun c => UInt8.ofNat c.toNat :=
    Text.bytes_of_isDigit hdigits
  refine ⟨?_, fun b hb => ?_⟩
  · simp [hbytes]
  · rw [hbytes] at hb
    obtain ⟨c, hc, rfl⟩ := List.mem_map.mp hb
    have := Text.toNat_of_isDigit (hdigits c hc)
    rw [UInt8.toNat_ofNat']
    omega

theorem scriptPhases_words : ∀ phase ∈ scriptPhases, IsWord (bytes phase) ∧
    normalizeCheckerPhase (text (bytes phase)) = some phase := by
  decide +kernel

section frame
variable {p : PhaseOutput}

/-- The header says what the frame holds. -/
theorem parseFrameHeader_frame (hphase : p.phase ∈ scriptPhases)
    (hlength : p.output.length < 9223372036854775808) :
    parseFrameHeader (fun _ => false) (bytes p.phase ++ 32 :: (bytes p.exitCode.toNat.repr ++ 32 ::
      bytes p.output.length.repr)) =
      .ok { phase := p.phase, exitCode := p.exitCode.toNat, payloadLength := p.output.length } := by
  obtain ⟨hword, hnormal⟩ := scriptPhases_words p.phase hphase
  have hcode := p.exitCode.toNat_lt
  have hfilter : (some (p.exitCode.toNat : Int)).filter (fun code => 0 ≤ code && code ≤ 255) =
      some (p.exitCode.toNat : Int) := by
    simp
    omega
  have hfilter' : (some (p.output.length : Int)).filter (0 ≤ ·) = some (p.output.length : Int) := by
    simp
  have hatoi : Decimal.atoi (bytes p.exitCode.toNat.repr) = some (p.exitCode.toNat : Int) :=
    Decimal.atoi_repr (by omega)
  rw [parseFrameHeader, fields_cons hword, fields_cons (isWord_repr _), fields_word (isWord_repr _)]
  simp only [hnormal, Bool.false_eq_true, if_false, hatoi, hfilter, Decimal.atoi_repr hlength,
    hfilter', Int.toNat_natCast]

/-- A frame of the script is read as what it was printed for. -/
theorem nextFrame_frame (hphase : p.phase ∈ scriptPhases)
    (hlength : p.output.length < 9223372036854775808) :
    nextFrame (fun _ => false) p.frame = .ok (p.phase, p.parsed, []) := by
  have hword : ∀ w : List UInt8, IsWord w → newline ∉ w := fun w hw hmem =>
    absurd (hw.2 newline hmem).1 (by decide)
  refine nextFrame_eq_ok.mpr ⟨checkerBatchFramePrefix ++ (bytes p.phase ++ 32 ::
    (bytes p.exitCode.toNat.repr ++ 32 :: bytes p.output.length.repr)), ?_, ?_, ?_, ?_⟩
  · simp only [List.mem_append, List.mem_cons, not_or]
    refine ⟨by decide, hword _ (scriptPhases_words p.phase hphase).1, by decide,
      hword _ (isWord_repr _), by decide, hword _ (isWord_repr _)⟩
  · exact List.isPrefixOf_iff_prefix.mpr (List.prefix_append _ _)
  · simp [PhaseOutput.frame, PhaseOutput.parsed]
  · rw [List.drop_left]
    exact parseFrameHeader_frame hphase hlength

end frame

/-- The output of the script is complete frames. -/
theorem framesOf_scriptOutput {ps : List PhaseOutput} (hphases : ∀ p ∈ ps, p.phase ∈ scriptPhases)
    (hlength : (scriptOutput ps).length < 9223372036854775808) :
    FramesOf (scriptOutput ps) (ps.map fun p => (p.phase, p.parsed)) := by
  induction ps with
  | nil => exact .nil
  | cons p ps ih =>
    have hsplit : scriptOutput (p :: ps) = p.frame ++ scriptOutput ps := rfl
    have hbelow : p.output.length < p.frame.length := by
      simp only [PhaseOutput.frame, List.length_append, List.length_cons]
      omega
    rw [hsplit, List.length_append] at hlength
    have hframe := nextFrame_frame (hphases p (by simp)) (by omega)
    have hnext : nextFrame (fun _ => false) (p.frame ++ scriptOutput ps) =
        .ok (p.phase, p.parsed, [] ++ scriptOutput ps) := nextFrame_append hframe rfl _
    rw [← hsplit] at hnext
    exact .cons hnext (ih (fun q hq => hphases q (by simp [hq])) (by omega))

/-- Complete frames of distinct phases are read as they are. -/
theorem parseFrames_framesOf {output : List UInt8} {fs : List (String × CheckerBatchFrame)}
    (houtput : FramesOf output fs) (hnodup : (fs.map (·.1)).Nodup) {n : Nat} {frames : Frames}
    (hnew : ∀ f ∈ fs, frames.lookup f.1 = none) (hn : output.length ≤ n) :
    parseFrames n frames output = .ok (Go.Map.fill (·.1) (·.2) fs frames) := by
  induction houtput generalizing n frames with
  | nil => cases n <;> rfl
  | @cons output rest phase frame fs hnext hrest ih =>
    have hlength := nextFrame_length hnext
    obtain ⟨n, rfl⟩ : ∃ m, n = m + 1 := ⟨n - 1, by omega⟩
    have hne : output ≠ [] := by
      rintro rfl
      cases hlength
    have hseen : (frames.lookup phase).isSome = false := by simp [hnew (phase, frame) (.head _)]
    have hread : nextFrame (fun phase => (frames.lookup phase).isSome) (output ++ []) =
        .ok (phase, frame, rest ++ []) := nextFrame_append hnext hseen []
    simp only [List.append_nil] at hread
    rw [List.map_cons, List.nodup_cons] at hnodup
    rw [parseFrames, if_neg hne, hread]
    refine ih hnodup.2 (fun f hf => ?_) (by omega)
    rw [AList.lookup_insert_ne ?_, hnew f (.tail _ hf)]
    rintro heq
    exact hnodup.1 (heq ▸ List.mem_map.mpr ⟨f, hf, rfl⟩)

/-! ## The parser and its cursor -/

namespace BatchCursor

/-- `output[i:j]`; `none` where Go panics. -/
def slice (output : List UInt8) (i j : Int) : Option (List UInt8) :=
  if 0 ≤ i ∧ i ≤ j ∧ j ≤ output.length then some ((output.take j.toNat).drop i.toNat) else none

/-- `output[i]`; `none` where Go panics. -/
def byteAt (output : List UInt8) (i : Int) : Option UInt8 :=
  if 0 ≤ i then output[i.toNat]? else none

/-- `strings.IndexByte`. -/
def indexByte (output : List UInt8) (b : UInt8) : Int :=
  match output.findIdx? (· = b) with
  | some i => i
  | none => -1

/-- A round behind its header line. -/
def payloadRound (output : List UInt8) (cursor : Int) (frames : Frames) (h : FrameHeader) :
    Option (Except String (Int × Frames)) := do
  if h.payloadLength > output.length - cursor then
    return .error "checker batch frame payload length is invalid"
  else
    let payloadEnd := cursor + h.payloadLength
    let payload ← slice output cursor payloadEnd
    if payloadEnd ≥ output.length then
      return .error "checker batch frame payload delimiter is missing"
    else
      let delimiter ← byteAt output payloadEnd
      if delimiter ≠ newline then
        return .error "checker batch frame payload delimiter is missing"
      else
        return .ok (payloadEnd + 1,
          frames.insert h.phase { output := payload, exitCode := h.exitCode })

/-- One round of the loop: the cursor behind a frame, and the frames with it. -/
def round (output : List UInt8) (cursor : Int) (frames : Frames) :
    Option (Except String (Int × Frames)) := do
  let rest ← slice output cursor output.length
  let headerEnd := indexByte rest newline
  if headerEnd < 0 then return .error "checker batch frame header is incomplete"
  else
    let header ← slice output cursor (cursor + headerEnd)
    if !checkerBatchFramePrefix.isPrefixOf header then
      return .error "checker batch frame header is invalid"
    else
      match parseFrameHeader (fun phase => (frames.lookup phase).isSome)
          (header.drop checkerBatchFramePrefix.length) with
      | .error e => return .error e
      | .ok h => payloadRound output (cursor + (headerEnd + 1)) frames h

/-- The loop, for at most `n` looks at its condition. -/
def loop (output : List UInt8) : Nat → Int → Frames → Option (Except String Frames)
  | 0, _, _ => none
  | n + 1, cursor, frames =>
    if cursor < output.length then
      match round output cursor frames with
      | none => none
      | some (.error e) => some (.error e)
      | some (.ok (cursor, frames)) => loop output n cursor frames
    else some (.ok frames)

/-- `parseCheckerBatchFrames`; `none` if it panics or needs more than `n` looks. -/
def parse (n : Nat) (output : List UInt8) : Option (Except String Frames) :=
  if output = [] then some (.error "checker batch output is empty") else loop output n 0 ∅

section cursor
variable {pre mid post : List UInt8}

/-- A slice between two parts of a string. -/
theorem slice_append {i j : Int} (hi : i = pre.length) (hj : j = (pre ++ mid).length) :
    slice (pre ++ (mid ++ post)) i j = some mid := by
  subst hi hj
  have hrange : (0 : Int) ≤ pre.length ∧ (pre.length : Int) ≤ (pre ++ mid).length ∧
      ((pre ++ mid).length : Int) ≤ (pre ++ (mid ++ post)).length := by
    simp only [List.length_append]
    omega
  rw [slice, if_pos hrange, ← List.append_assoc]
  simp only [Int.toNat_natCast, List.take_left', List.drop_left']

theorem indexByte_none {b : UInt8} (h : b ∉ mid) : indexByte mid b = -1 := by
  have hnone : mid.findIdx? (· = b) = none := by
    rw [List.findIdx?_eq_none_iff]
    intro c hc
    exact decide_eq_false fun heq => h (heq ▸ hc)
  rw [indexByte, hnone]

theorem indexByte_append {b : UInt8} (h : b ∉ mid) :
    indexByte (mid ++ b :: post) b = mid.length := by
  have hnone : mid.findIdx? (· = b) = none := by
    rw [List.findIdx?_eq_none_iff]
    intro c hc
    exact decide_eq_false fun heq => h (heq ▸ hc)
  rw [indexByte, List.findIdx?_append, hnone]
  simp [List.findIdx?_cons]

theorem byteAt_append {b : UInt8} {i : Int} (hi : i = pre.length) :
    byteAt (pre ++ b :: post) i = some b := by
  subst hi
  simp [byteAt]

/-- A string with the byte falls into what is before the first one and what is behind it. -/
theorem exists_header {output : List UInt8} (h : newline ∈ output) :
    ∃ header rest, newline ∉ header ∧ output = header ++ newline :: rest := by
  cases hdrop : output.dropWhile (· ≠ newline) with
  | nil =>
    have hall := List.dropWhile_eq_nil_iff.mp hdrop newline h
    simp at hall
  | cons b rest =>
    obtain ⟨hline, houtput⟩ := exists_line hdrop
    exact ⟨_, rest, hline, houtput⟩

/-- What is behind a header line is the payload, its delimiter and the next frames. -/
theorem payloadRound_eq (pre rest : List UInt8) (frames : Frames) (h : FrameHeader) :
    payloadRound (pre ++ rest) pre.length frames h =
      some (if rest.length < h.payloadLength then
          .error "checker batch frame payload length is invalid"
        else match rest.drop h.payloadLength with
        | 10 :: rest' => .ok (((pre ++ rest).length : Int) - rest'.length, frames.insert h.phase
            { output := rest.take h.payloadLength, exitCode := h.exitCode })
        | _ => .error "checker batch frame payload delimiter is missing") := by
  have hlength : ((pre ++ rest).length : Int) = pre.length + rest.length := by
    rw [List.length_append, Int.natCast_add]
  rw [payloadRound]
  by_cases hshort : rest.length < h.payloadLength
  · rw [if_pos (by omega), if_pos hshort]
    rfl
  rw [if_neg (by omega), if_neg hshort]
  obtain ⟨payload, behind, rfl, hpayload⟩ : ∃ payload behind, rest = payload ++ behind ∧
      payload.length = h.payloadLength :=
    ⟨rest.take h.payloadLength, rest.drop h.payloadLength, (List.take_append_drop _ _).symm,
      by rw [List.length_take]; omega⟩
  have hslice : slice (pre ++ (payload ++ behind)) pre.length (pre.length + payload.length) =
      some payload := slice_append rfl (by rw [List.length_append, Int.natCast_add])
  simp only [← hpayload, hslice, Option.bind_eq_bind, Option.bind_some, Option.pure_def,
    List.take_left', List.drop_left']
  -- behind the payload there is nothing, a newline, or another byte
  cases behind with
  | nil => rw [if_pos (by simp)]
  | cons b behind =>
    have hbyte :
        byteAt (pre ++ (payload ++ b :: behind)) (pre.length + payload.length) = some b := by
      rw [← List.append_assoc]
      exact byteAt_append (by rw [List.length_append, Int.natCast_add])
    rw [if_neg (by simp only [List.length_append, List.length_cons]; omega), hbyte,
      Option.bind_some]
    by_cases hb : b = newline
    · subst hb
      have hcursor : (pre.length : Int) + payload.length + 1 =
          (pre ++ (payload ++ newline :: behind)).length - behind.length := by
        simp only [List.length_append, List.length_cons]
        omega
      rw [if_neg (by simp), hcursor]
      rfl
    · have hne : b ≠ 10 := hb
      simp [hb, hne]

/-- A round at a cursor takes the frame that the rest of the output starts with. -/
theorem round_eq (output : List UInt8) (frames : Frames) :
    round (pre ++ output) pre.length frames =
      some (match nextFrame (fun phase => (frames.lookup phase).isSome) output with
        | .error e => .error e
        | .ok (phase, frame, rest) =>
          .ok (((pre ++ output).length : Int) - rest.length, frames.insert phase frame)) := by
  have hrest : slice (pre ++ output) pre.length (pre ++ output).length = some output := by
    have hslice : slice (pre ++ (output ++ [])) pre.length (pre ++ output).length = some output :=
      slice_append rfl rfl
    rwa [List.append_nil] at hslice
  rw [round, hrest]
  simp only [Option.bind_eq_bind, Option.bind_some, Option.pure_def]
  by_cases hmem : newline ∈ output
  swap
  · have hdrop : output.dropWhile (· ≠ newline) = [] := by
      rw [List.dropWhile_eq_nil_iff]
      exact fun b hb => decide_eq_true fun heq => hmem (heq ▸ hb)
    rw [indexByte_none hmem, if_pos (by decide), nextFrame, hdrop]
  obtain ⟨header, rest, hline, rfl⟩ := exists_header hmem
  have hheader : slice (pre ++ (header ++ newline :: rest)) pre.length
      (pre.length + (header.length : Int)) = some header :=
    slice_append rfl (by rw [List.length_append, Int.natCast_add])
  rw [indexByte_append hline, if_neg (by omega), hheader]
  simp only [Option.bind_some, nextFrame, dropWhile_line hline, takeWhile_line hline]
  split
  · rfl
  cases hparsed : parseFrameHeader (fun phase => (frames.lookup phase).isSome)
      (header.drop checkerBatchFramePrefix.length) with
  | error => rfl
  | ok h =>
    have hpayload := payloadRound_eq (pre ++ header ++ [newline]) rest frames h
    have hcursor : (pre.length : Int) + ((header.length : Int) + 1) =
        (pre ++ header ++ [newline]).length := by
      simp only [List.length_append, List.length_singleton]
      omega
    have hsplit : pre ++ header ++ [newline] ++ rest = pre ++ (header ++ newline :: rest) := by simp
    rw [← hcursor, hsplit] at hpayload
    simp only [hpayload]
    split
    · rfl
    cases hdrop : rest.drop h.payloadLength with
    | nil => rfl
    | cons b behind =>
      by_cases hb : b = 10
      · subst hb
        rfl
      · simp [hb]

/-- The loop at a cursor reads the rest of the output, by induction on its looks. -/
theorem loop_eq {n : Nat} {output : List UInt8} {frames : Frames} (hn : output.length < n) :
    loop (pre ++ output) n pre.length frames = some (parseFrames n frames output) := by
  induction n generalizing pre output frames with
  | zero => cases hn
  | succ n ih =>
    unfold loop parseFrames
    by_cases hempty : output = []
    · subst hempty
      rw [if_neg (by simp), if_pos rfl]
    have hpos := List.length_pos_of_ne_nil hempty
    rw [if_pos (by rw [List.length_append, Int.natCast_add]; omega), if_neg hempty, round_eq]
    cases hnext : nextFrame (fun phase => (frames.lookup phase).isSome) output with
    | error => rfl
    | ok out =>
      obtain ⟨phase, frame, rest⟩ := out
      obtain ⟨header, -, -, rfl, -⟩ := nextFrame_eq_ok.mp hnext
      have hshort := nextFrame_length hnext
      have hcursor :
          ((pre ++ (header ++ newline :: (frame.output ++ newline :: rest))).length : Int) -
          rest.length = (pre ++ (header ++ newline :: (frame.output ++ [newline]))).length := by
        simp only [List.length_append, List.length_cons, List.length_nil]
        omega
      have hsplit : pre ++ (header ++ newline :: (frame.output ++ newline :: rest)) =
          pre ++ (header ++ newline :: (frame.output ++ [newline])) ++ rest := by simp
      have hrest : loop (pre ++ (header ++ newline :: (frame.output ++ [newline])) ++ rest) n
          (pre ++ (header ++ newline :: (frame.output ++ [newline]))).length
            (frames.insert phase frame) =
            some (parseFrames n (frames.insert phase frame) rest) := ih (by omega)
      dsimp only
      rw [hcursor, hsplit]
      exact hrest

/-- The loop looks at its condition at most once more than there are bytes, and it takes no slice
out of range: it is the parser that consumes its input. -/
theorem parse_eq (output : List UInt8) :
    parse (output.length + 1) output = some (parseCheckerBatchFrames output) := by
  unfold parse parseCheckerBatchFrames
  split
  · rfl
  · have hloop : loop ([] ++ output) (output.length + 1) (0 : Nat) ∅ =
        some (parseFrames (output.length + 1) ∅ output) := loop_eq (Nat.lt_succ_self _)
    rw [parseFrames_rounds (Nat.le_succ _) le_rfl] at hloop
    exact hloop

end cursor

end BatchCursor

/-- What the batch script prints, which fits into a string, is read as the map from each phase to
its exit code and its payload, whatever the payloads are; and on every string the parser ends and
takes no slice out of range. -/
theorem batch_frames_read :
    (∀ ps : List PhaseOutput, ps ≠ [] → (∀ p ∈ ps, p.phase ∈ scriptPhases) →
      (ps.map (·.phase)).Nodup → (scriptOutput ps).length < 9223372036854775808 →
      ∃ frames, parseCheckerBatchFrames (scriptOutput ps) = .ok frames ∧
        ∀ phase, frames.lookup phase = (ps.find? (·.phase = phase)).map PhaseOutput.parsed) ∧
    ∀ output : List UInt8,
      BatchCursor.parse (output.length + 1) output = some (parseCheckerBatchFrames output) := by
  refine ⟨fun ps hne hphases hnodup hlength => ?_, BatchCursor.parse_eq⟩
  have hframes := framesOf_scriptOutput hphases hlength
  have hkeys : ((ps.map fun p => (p.phase, p.parsed)).map (·.1)).Nodup := by
    rw [List.map_map]
    exact hnodup
  have houtput : scriptOutput ps ≠ [] := by
    obtain ⟨p, ps, rfl⟩ := List.exists_cons_of_ne_nil hne
    simp [scriptOutput, PhaseOutput.frame]
  refine ⟨Go.Map.fill (·.1) (·.2) (ps.map fun p => (p.phase, p.parsed)) ∅, ?_, fun phase => ?_⟩
  · rw [parseCheckerBatchFrames, if_neg houtput]
    exact parseFrames_framesOf hframes hkeys (fun _ _ => rfl) le_rfl
  · cases hfind : ps.find? (·.phase = phase) with
    | some p =>
      have hp := List.find?_some hfind
      obtain rfl : p.phase = phase := of_decide_eq_true hp
      exact Go.Map.lookup_fill_of_mem (a := (p.phase, p.parsed)) hkeys
        (List.mem_map.mpr ⟨p, List.mem_of_find?_eq_some hfind, rfl⟩)
    | none =>
      refine (Go.Map.lookup_fill_of_notMem fun hmem => ?_).trans rfl
      rw [List.map_map] at hmem
      obtain ⟨p, hp, rfl⟩ := List.mem_map.mp hmem
      exact absurd (List.find?_eq_none.mp hfind p hp) (by simp)

/-- A service that prints a frame of its own. -/
def forgedFrame : PhaseOutput where
  phase := "put"
  exitCode := 1
  output := bytes "__ADP_PHASE_FRAME__ check 0 2\nok\n"

/-- The frame of a check that passes. -/
def checkFrame : PhaseOutput where
  phase := "check"
  exitCode := 0
  output := bytes "service is up\n"

/-- The frame in the payload of the first phase is not taken for the one of the second. -/
theorem batch_frames_read_forgedFrame : ∃ frames,
    parseCheckerBatchFrames (scriptOutput [forgedFrame, checkFrame]) = .ok frames ∧
      frames.lookup "put" = some ⟨forgedFrame.output, 1⟩ ∧
      frames.lookup "check" = some ⟨checkFrame.output, 0⟩ ∧ frames.lookup "get" = none := by
  obtain ⟨frames, hparse, hlookup⟩ := batch_frames_read.1 [forgedFrame, checkFrame] (by simp)
    (by decide) (by decide) (by decide)
  exact ⟨frames, hparse, hlookup "put", hlookup "check", hlookup "get"⟩

end ADPlatform.CheckerRunner
