import ADPlatform.CheckerRunner.Batch
import Mathlib.Data.List.TakeWhile

/-! # Reading frames

`nextFrame_eq_ok` says what the bytes of a frame are. The length in a header decides where its
payload ends, so a complete frame is read as it is whatever follows it, and the frames at the front
of an output are among those that the whole output is read as. -/

namespace ADPlatform.CheckerRunner

/-- The bytes are complete frames, one behind the other. -/
inductive FramesOf : List UInt8 → List (String × CheckerBatchFrame) → Prop
  | nil : FramesOf [] []
  | cons {output rest : List UInt8} {phase : String} {frame : CheckerBatchFrame}
      {frames : List (String × CheckerBatchFrame)}
      (hnext : nextFrame (fun _ => false) output = .ok (phase, frame, rest))
      (hrest : FramesOf rest frames) : FramesOf output ((phase, frame) :: frames)

theorem parseFrameHeader_seen {seen : String → Bool} {header : List UInt8} {h : FrameHeader}
    (hparse : parseFrameHeader (fun _ => false) header = .ok h) (hseen : seen h.phase = false) :
    parseFrameHeader seen header = .ok h := by
  unfold parseFrameHeader at hparse ⊢
  split at hparse
  swap
  · cases hparse
  split at hparse
  · cases hparse
  rw [if_neg Bool.false_ne_true] at hparse
  split at hparse
  · cases hparse
  split at hparse
  · cases hparse
  cases hparse
  exact if_neg (by simpa using hseen)

section Line
variable {header rest : List UInt8}

theorem takeWhile_line (h : newline ∉ header) :
    (header ++ newline :: rest).takeWhile (· ≠ newline) = header := by
  have hall : ∀ b ∈ header, decide (b ≠ newline) = true := fun b hb =>
    decide_eq_true fun heq => h (heq ▸ hb)
  rw [List.takeWhile_append_of_pos hall, List.takeWhile_cons_of_neg (by simp), List.append_nil]

theorem dropWhile_line (h : newline ∉ header) :
    (header ++ newline :: rest).dropWhile (· ≠ newline) = newline :: rest := by
  have hall : ∀ b ∈ header, decide (b ≠ newline) = true := fun b hb =>
    decide_eq_true fun heq => h (heq ▸ hb)
  rw [List.dropWhile_append_of_pos hall, List.dropWhile_cons_of_neg (by simp)]

/-- An output with a newline falls into its first line and the rest. -/
theorem exists_line {output : List UInt8} {b : UInt8}
    (h : output.dropWhile (· ≠ newline) = b :: rest) :
    newline ∉ output.takeWhile (· ≠ newline) ∧
      output = output.takeWhile (· ≠ newline) ++ newline :: rest := by
  have hfirst : b = newline := by
    have hhead := List.head?_dropWhile_not (fun b : UInt8 => decide (b ≠ newline)) output
    rw [h] at hhead
    simpa using hhead
  refine ⟨fun hmem => ?_, ?_⟩
  · have hne := List.mem_takeWhile_imp hmem
    simp at hne
  · have hsplit := List.takeWhile_append_dropWhile (p := (· ≠ newline)) (l := output)
    rw [h, hfirst] at hsplit
    exact hsplit.symm

end Line

/-- What a frame consists of. -/
theorem nextFrame_eq_ok {seen : String → Bool} {output rest : List UInt8} {phase : String}
    {frame : CheckerBatchFrame} :
    nextFrame seen output = .ok (phase, frame, rest) ↔
      ∃ header, newline ∉ header ∧ checkerBatchFramePrefix.isPrefixOf header = true ∧
        output = header ++ newline :: (frame.output ++ newline :: rest) ∧
        parseFrameHeader seen (header.drop checkerBatchFramePrefix.length) =
          .ok { phase, exitCode := frame.exitCode, payloadLength := frame.output.length } := by
  constructor
  · intro h
    unfold nextFrame at h
    split at h
    · cases h
    rename_i first rest₁ hdrop
    obtain ⟨hline, houtput⟩ := exists_line hdrop
    dsimp only at h
    split at h
    · cases h
    rename_i hstarts
    split at h
    · cases h
    rename_i parsed hparsed
    split at h
    · cases h
    rename_i hlength
    split at h
    · rename_i hrest
      cases h
      have htake : (rest₁.take parsed.payloadLength).length = parsed.payloadLength := by
        rw [List.length_take]
        omega
      refine ⟨_, hline, by simpa using hstarts, ?_, ?_⟩
      · have hsplit : rest₁.take parsed.payloadLength ++ newline :: rest = rest₁ :=
          hrest ▸ List.take_append_drop parsed.payloadLength rest₁
        rw [hsplit]
        exact houtput
      · rw [hparsed, htake]
    · cases h
  · rintro ⟨header, hline, hstarts, rfl, hparsed⟩
    unfold nextFrame
    rw [dropWhile_line hline, takeWhile_line hline]
    simp [hstarts, hparsed, newline]

section Next
variable {seen : String → Bool} {output rest : List UInt8} {phase : String}
  {frame : CheckerBatchFrame}

/-- A complete frame is read whatever follows it, unless its phase was read before. -/
theorem nextFrame_append (h : nextFrame (fun _ => false) output = .ok (phase, frame, rest))
    (hseen : seen phase = false) (later : List UInt8) :
    nextFrame seen (output ++ later) = .ok (phase, frame, rest ++ later) := by
  obtain ⟨header, hline, hstarts, rfl, hparsed⟩ := nextFrame_eq_ok.mp h
  refine nextFrame_eq_ok.mpr ⟨header, hline, hstarts, by simp, ?_⟩
  exact parseFrameHeader_seen hparsed hseen

theorem nextFrame_length (h : nextFrame seen output = .ok (phase, frame, rest)) :
    rest.length < output.length := by
  obtain ⟨header, -, -, rfl, -⟩ := nextFrame_eq_ok.mp h
  simp only [List.length_append, List.length_cons]
  omega

/-- The phase of a frame was not read before. -/
theorem nextFrame_new (h : nextFrame seen output = .ok (phase, frame, rest)) :
    seen phase = false := by
  obtain ⟨header, -, -, -, hparsed⟩ := nextFrame_eq_ok.mp h
  unfold parseFrameHeader at hparsed
  split at hparsed
  swap
  · cases hparsed
  split at hparsed
  · cases hparsed
  split at hparsed
  · cases hparsed
  rename_i hseen
  split at hparsed
  · cases hparsed
  split at hparsed
  · cases hparsed
  have hphase := congrArg FrameHeader.phase (Except.ok.inj hparsed)
  dsimp only at hphase
  subst hphase
  simpa using hseen

end Next

/-- The loop ends before its rounds are used up. -/
theorem parseFrames_rounds {n m : Nat} {frames : Frames} {output : List UInt8}
    (hn : output.length ≤ n) (hm : output.length ≤ m) :
    parseFrames n frames output = parseFrames m frames output := by
  induction n generalizing m frames output with
  | zero =>
    obtain rfl : output = [] := List.eq_nil_of_length_eq_zero (by omega)
    cases m <;> rfl
  | succ n ih =>
    cases m with
    | zero =>
      obtain rfl : output = [] := List.eq_nil_of_length_eq_zero (by omega)
      rfl
    | succ m =>
      simp only [parseFrames]
      split
      · rfl
      split
      · rfl
      · rename_i hnext
        have hlength := nextFrame_length hnext
        exact ih (by omega) (by omega)

/-- Frames that were read stay. -/
theorem lookup_parseFrames {n : Nat} {frames result : Frames} {output : List UInt8}
    (h : parseFrames n frames output = .ok result) {phase : String} {frame : CheckerBatchFrame}
    (hframe : frames.lookup phase = some frame) : result.lookup phase = some frame := by
  induction n generalizing frames output with
  | zero =>
    cases h
    exact hframe
  | succ n ih =>
    simp only [parseFrames] at h
    split at h
    · cases h
      exact hframe
    split at h
    · cases h
    · rename_i hnext
      have hnew := nextFrame_new hnext
      refine ih h ?_
      rw [AList.lookup_insert_ne ?_, hframe]
      rintro rfl
      simp [hframe] at hnew

/-- Complete frames at the front are among the frames of the output. -/
theorem lookup_framesOf {p later : List UInt8} {fs : List (String × CheckerBatchFrame)}
    (hp : FramesOf p fs) (hnodup : (fs.map (·.1)).Nodup) {n : Nat} {frames result : Frames}
    (hnew : ∀ f ∈ fs, frames.lookup f.1 = none) (hn : (p ++ later).length ≤ n)
    (h : parseFrames n frames (p ++ later) = .ok result) :
    ∀ f ∈ fs, result.lookup f.1 = some f.2 := by
  induction hp generalizing n frames with
  | nil => simp
  | @cons output rest phase frame fs hnext hrest ih =>
    have hseen : (frames.lookup phase).isSome = false := by simp [hnew (phase, frame) (.head _)]
    have hlength := nextFrame_length hnext
    rw [List.length_append] at hn
    obtain ⟨n, rfl⟩ : ∃ m, n = m + 1 := ⟨n - 1, by omega⟩
    have hne : output ++ later ≠ [] := by
      rintro heq
      simp [(List.append_eq_nil_iff.mp heq).1] at hlength
    rw [parseFrames, if_neg hne, nextFrame_append hnext hseen] at h
    rw [List.map_cons, List.nodup_cons] at hnodup
    have hfresh : ∀ f ∈ fs, (frames.insert phase frame).lookup f.1 = none := by
      intro f hf
      rw [AList.lookup_insert_ne ?_, hnew f (.tail _ hf)]
      intro heq
      exact hnodup.1 (heq ▸ List.mem_map.mpr ⟨f, hf, rfl⟩)
    intro f hf
    rcases List.mem_cons.mp hf with rfl | hf
    · exact lookup_parseFrames h (AList.lookup_insert _)
    · exact ih hnodup.2 hfresh (by rw [List.length_append]; omega) h f hf

end ADPlatform.CheckerRunner
