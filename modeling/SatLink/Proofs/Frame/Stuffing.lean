import SatLink.Proofs.Bit.Cursor
import SatLink.Proofs.Frame.Runs

/-!
# Stuffing a frame and back

* `unstuffBits_stuffBits_append` — the receiver takes out exactly the zeros the sender put in, and
  keeps the zeros that fill up the last byte, since a stuffed region never ends in five ones;
* `stuffedCount_le` — at most one bit in six is a stuffed one;
* `written_of_fits` — every write is taken where there is room for the length counted beforehand,
  and `stuff_eq` — what `stuff` then leaves in the buffer;
* `stuffFrame_eq`, `unstuffFrame_stuffed` — a frame of this link is always stuffed, and unstuffed
  again to itself;
* `unstuff_stuff` — so is any frame that fits a frame buffer, from one buffer to another;
* `not_hasSixOnes_stuffedBody` — between its two flags a stuffed frame has no six ones in a row, and
  so no third flag.
-/

namespace SatLink.Frame

open SatLink.Bit

/-! ## 1. Bits -/

theorem unstuffBits_zeros {ones : Nat} (few : ones ≠ 5) (k : Nat) :
    unstuffBits ones (List.replicate k false) = some (List.replicate k false) := by
  induction k generalizing ones with
  | zero => rfl
  | succ k ih =>
      rw [List.replicate_succ]
      unfold unstuffBits
      rw [if_neg few, if_neg Bool.false_ne_true, ih (by decide)]
      rfl

/-- **The stuffed zeros come out again.** -/
theorem unstuffBits_stuffBits_append {ones : Nat} (few : ones < 5) (bits : List Bool) (k : Nat) :
    unstuffBits ones (stuffBits ones bits ++ List.replicate k false) =
      some (bits ++ List.replicate k false) := by
  induction bits generalizing ones with
  | nil => exact unstuffBits_zeros (by omega) k
  | cons bit bits ih =>
      have below : ones ≠ 5 := by omega
      cases bit with
      | false =>
          show unstuffBits ones (false :: (stuffBits 0 bits ++ List.replicate k false)) = _
          unfold unstuffBits
          rw [if_neg below, if_neg Bool.false_ne_true, ih (by decide)]
          rfl
      | true =>
          unfold stuffBits
          by_cases fifth : ones = 4
          · -- the zero behind the fifth one is taken out
            rw [if_pos fifth, fifth]
            show (unstuffBits 5 (false :: (stuffBits 0 bits ++ List.replicate k false))).map
              (true :: ·) = _
            unfold unstuffBits
            rw [if_pos rfl, if_neg Bool.false_ne_true, ih (by decide)]
            rfl
          · rw [if_neg fifth, List.cons_append]
            unfold unstuffBits
            rw [if_neg below, if_pos rfl, ih (by omega)]
            rfl

/-- **At most one bit in six is stuffed.** -/
theorem stuffedCount_le {ones : Nat} (few : ones < 5) (bits : List Bool) :
    5 * stuffedCount ones bits ≤ 6 * bits.length + ones := by
  induction bits generalizing ones with
  | nil => exact Nat.zero_le _
  | cons bit bits ih =>
      rw [List.length_cons]
      cases bit with
      | false =>
          have rest : 5 * stuffedCount 0 bits ≤ 6 * bits.length + 0 := ih (by decide)
          unfold stuffedCount
          omega
      | true =>
          unfold stuffedCount
          by_cases fifth : ones = 4
          · have rest : 5 * stuffedCount 0 bits ≤ 6 * bits.length + 0 := ih (by decide)
            rw [if_pos fifth]
            omega
          · have rest : 5 * stuffedCount (ones + 1) bits ≤ 6 * bits.length + (ones + 1) :=
              ih (by omega)
            rw [if_neg fifth]
            omega

/-- Stuffing only adds bits. -/
theorem length_le_stuffedCount (ones : Nat) (bits : List Bool) :
    bits.length ≤ stuffedCount ones bits := by
  induction bits generalizing ones with
  | nil => exact Nat.zero_le _
  | cons bit bits ih =>
      rw [List.length_cons]
      have restart := ih 0
      have goesOn := ih (ones + 1)
      cases bit with
      | false =>
          unfold stuffedCount
          omega
      | true =>
          unfold stuffedCount
          split <;> omega

/-! ## 2. Frames -/

/-- A frame is its body between two flags. -/
theorem flagged_body {frame : List UInt8} (flags : hasFlags frame = true) :
    flagged (body frame) = frame := by
  simp only [hasFlags, Bool.and_eq_true, decide_eq_true_eq, beq_iff_eq] at flags
  obtain ⟨⟨len, first⟩, last⟩ := flags
  obtain ⟨rest, rfl⟩ := List.head?_eq_some_iff.mp first
  have ne : rest ≠ [] := by
    rintro rfl
    exact absurd len (by decide)
  rw [List.getLast?_cons_of_ne_nil ne, List.getLast?_eq_some_iff] at last
  obtain ⟨inner, rfl⟩ := last
  simp [body, flagged]

theorem length_body (frame : List UInt8) : (body frame).length = frame.length - 2 := by
  rw [body, List.length_dropLast, List.length_tail, Nat.sub_sub]

/-- What stands between the flags of a stuffed frame. -/
def stuffedBody (frame : List UInt8) : List UInt8 := padded (stuffBits 0 (bitsOf (body frame)))

theorem bitsOf_stuffedBody (frame : List UInt8) : bitsOf (stuffedBody frame) =
    stuffBits 0 (bitsOf (body frame)) ++ padding (stuffBits 0 (bitsOf (body frame))) :=
  bitsOf_padded _

theorem length_flagged_stuffedBody {frame : List UInt8} (long : 2 ≤ frame.length) :
    (flagged (stuffedBody frame)).length = stuffedLength frame := by
  have short : ¬ frame.length < 2 := by omega
  rw [stuffedLength, if_neg short, flagged, List.length_cons, List.length_append, stuffedBody,
    length_padded, length_stuffBits]
  rfl

theorem two_le_of_hasFlags {frame : List UInt8} (flags : hasFlags frame = true) :
    2 ≤ frame.length := by
  unfold hasFlags at flags
  rw [Bool.and_eq_true, Bool.and_eq_true] at flags
  exact of_decide_eq_true flags.1.1

/-- The bits that are written when a frame is stuffed: flag, stuffed region, filling zeros, flag. -/
theorem bitsOf_flagged_stuffedBody (frame : List UInt8) :
    bitsOf [flag] ++ stuffBits 0 (bitsOf (body frame)) ++
        padding (bitsOf [flag] ++ stuffBits 0 (bitsOf (body frame))) ++ bitsOf [flag] =
      bitsOf (flagged (stuffedBody frame)) := by
  have parts : flagged (stuffedBody frame) =
    [flag] ++ (padded (stuffBits 0 (bitsOf (body frame))) ++ [flag]) := rfl
  rw [padding_append, parts, bitsOf_append [flag], bitsOf_append (padded _), bitsOf_padded]
  simp only [List.append_assoc]

/-- What `stuff` writes into a buffer: whether every write was taken, and the writer behind the
    closing flag. -/
def written (frame out : List UInt8) : Bool × Writer :=
  let (opened, w) := (Writer.ofBuffer out).writeByte flag
  let (filled, w) := w.writeBits (stuffBits 0 (bitsOf (body frame)))
  let (closed, w) := w.align.writeByte flag
  (opened && filled && closed, w)

/-- Behind its first check `stuff` writes, and counts once more what it wrote. -/
theorem stuff_of_fits {frame out : List UInt8} (flags : hasFlags frame = true)
    (fits : stuffedLength frame ≤ out.length) :
    stuff frame out =
      if (written frame out).1 && (written frame out).2.bytesWritten == stuffedLength frame then
        (.ok (stuffedLength frame), (written frame out).2.buffer)
      else (.error (.bufferTooSmall (stuffedLength frame) out.length), out) := by
  unfold stuff
  rw [if_pos flags]
  exact if_pos fits

/-- **Every write is taken** where there is room for the length that was counted beforehand. -/
theorem written_of_fits {frame out : List UInt8} (long : 2 ≤ frame.length)
    (fits : stuffedLength frame ≤ out.length) :
    (written frame out).1 = true ∧ (written frame out).2.bytesWritten = stuffedLength frame ∧
      (written frame out).2.buffer =
        flagged (stuffedBody frame) ++ out.drop (stuffedLength frame) := by
  have len := length_flagged_stuffedBody long
  have whole := bitsOf_flagged_stuffedBody frame
  unfold written
  generalize stuffBits 0 (bitsOf (body frame)) = bits at whole
  have total := congrArg List.length whole
  rw [length_bitsOf, len, List.length_append, List.length_append, List.length_append] at total
  have eight : (bitsOf [flag]).length = 8 := rfl
  obtain ⟨opened, -, w₁⟩ :=
    (Writer.Holds.ofBuffer out).writeByte rfl (by rw [List.length_nil]; omega) flag
  have first : [] ++ bitsOfByte flag = bitsOf [flag] := rfl
  rw [first] at w₁
  obtain ⟨filled, w₂⟩ := w₁.writeBits (show _ + bits.length ≤ _ by omega)
  obtain ⟨aligned, w₃⟩ := w₂.align
  obtain ⟨closed, aligned, w₄⟩ :=
    w₃.writeByte aligned (by simp only [List.length_append]; omega) flag
  obtain ⟨count, buffer⟩ := w₄.buffer_eq aligned whole
  rw [len] at count buffer
  refine ⟨?_, count, buffer⟩
  dsimp only
  rw [opened, filled, closed]
  rfl

/-- **What stuffing leaves in a buffer** that is large enough. -/
theorem stuff_eq {frame out : List UInt8} (flags : hasFlags frame = true)
    (fits : stuffedLength frame ≤ out.length) :
    stuff frame out = (.ok (stuffedLength frame),
      flagged (stuffedBody frame) ++ out.drop (stuffedLength frame)) := by
  obtain ⟨taken, count, buffer⟩ := written_of_fits (two_le_of_hasFlags flags) fits
  rw [stuff_of_fits flags fits, taken, count, buffer, beq_self_eq_true]
  rfl

/-- **How far stuffing makes a frame grow**, told by the number of bytes between its flags. -/
theorem stuffedLength_le_of_two_le {frame : List UInt8} (long : 2 ≤ frame.length) :
    stuffedLength frame ≤ 2 + (48 * (frame.length - 2) / 5 + 7) / 8 := by
  have count := stuffedCount_le (show 0 < 5 by decide) (bitsOf (body frame))
  rw [length_bitsOf, length_body] at count
  rw [stuffedLength, if_neg (Nat.not_lt_of_le long)]
  omega

/-! ## 3. Frames of this link -/

/-- The longest frame of this link fits a frame buffer, stuffed. -/
theorem stuffedLength_le {frame : List UInt8} (short : frame.length ≤ 276) :
    stuffedLength frame ≤ maxLength := by
  unfold maxLength
  by_cases tiny : frame.length < 2
  · rw [stuffedLength, if_pos tiny]
    omega
  · have bound := stuffedLength_le_of_two_le (Nat.le_of_not_lt tiny)
    omega

theorem stuffFrame_eq {frame : List UInt8} (flags : hasFlags frame = true)
    (short : frame.length ≤ 276) : stuffFrame frame = .ok (flagged (stuffedBody frame)) := by
  have fits : stuffedLength frame ≤ blank.length := by
    rw [blank, List.length_replicate]
    exact stuffedLength_le short
  have len := length_flagged_stuffedBody (two_le_of_hasFlags flags)
  unfold stuffFrame
  rw [stuff_eq flags fits]
  show Except.ok _ = _
  rw [List.take_left' len]

/-! ## 4. Back again -/

/-- What a stuffed frame stands for is the frame: the zeros that fill the last byte make no byte. -/
theorem unstuffed_stuffed {frame : List UInt8} (flags : hasFlags frame = true)
    (short : frame.length ≤ maxLength) : unstuffed (flagged (stuffedBody frame)) = .ok frame := by
  have bits : unstuffBits 0 (bitsOf (stuffedBody frame)) = some (bitsOf (body frame) ++
      padding (stuffBits 0 (bitsOf (body frame)))) := by
    rw [stuffedBody, bitsOf_padded]
    exact unstuffBits_stuffBits_append (by decide) _ _
  unfold unstuffed
  rw [if_pos (hasFlags_flagged _), body_flagged, bits]
  dsimp only
  rw [wholeBytes_bitsOf_append _ (length_padding_lt _), flagged_body flags, if_pos short]

/-- Unstuffing writes the frame to the front of a buffer that is large enough. -/
theorem unstuff_stuffed {frame out : List UInt8} (flags : hasFlags frame = true)
    (short : frame.length ≤ maxLength) (fits : frame.length ≤ out.length) :
    unstuff (flagged (stuffedBody frame)) out =
      (.ok frame.length, frame ++ out.drop frame.length) := by
  unfold unstuff
  rw [unstuffed_stuffed flags short]
  exact if_pos fits

theorem unstuffFrame_of_unstuffed {stuffed plain : List UInt8} (h : unstuffed stuffed = .ok plain)
    (short : plain.length ≤ maxLength) : unstuffFrame stuffed = .ok plain := by
  have fits : plain.length ≤ blank.length := by
    rw [blank, List.length_replicate]
    exact short
  unfold unstuffFrame unstuff
  rw [h]
  dsimp only
  rw [if_pos fits]
  exact congrArg Except.ok (List.take_left' rfl)

/-- **A stuffed frame is unstuffed to itself.** -/
theorem unstuffFrame_stuffed {frame : List UInt8} (flags : hasFlags frame = true)
    (short : frame.length ≤ maxLength) :
    unstuffFrame (flagged (stuffedBody frame)) = .ok frame :=
  unstuffFrame_of_unstuffed (unstuffed_stuffed flags short) short

/-- **Stuffing and unstuffing undo each other** on every frame between two flags, whatever stands in
    its body, and whatever the two buffers held before. -/
theorem unstuff_stuff {frame out plain : List UInt8} (long : 2 ≤ frame.length)
    (short : frame.length ≤ maxLength) (first : frame.head? = some flag)
    (last : frame.getLast? = some flag) (room : stuffedLength frame ≤ out.length)
    (room' : frame.length ≤ plain.length) :
    (stuff frame out).1 = .ok (stuffedLength frame) ∧
      unstuff ((stuff frame out).2.take (stuffedLength frame)) plain =
        (.ok frame.length, frame ++ plain.drop frame.length) := by
  have flags : hasFlags frame = true := by
    simp only [hasFlags, long, first, last, decide_true, beq_self_eq_true, Bool.and_self]
  have len := length_flagged_stuffedBody long
  rw [stuff_eq flags room]
  refine ⟨rfl, ?_⟩
  rw [List.take_left' len]
  exact unstuff_stuffed flags short room'

/-- A body with a flag in it, a run of ones across two bytes and a last run that ends the body. -/
theorem unstuff_stuff_runs_of_ones :
    let frame := [flag, flag, 0xFF, 0x1F, flag]
    let out : List UInt8 := List.replicate 7 0xAA
    let plain : List UInt8 := List.replicate 6 0xAA
    (2 ≤ frame.length ∧ frame.length ≤ maxLength ∧ frame.head? = some flag ∧
      frame.getLast? = some flag ∧ stuffedLength frame ≤ out.length ∧
      frame.length ≤ plain.length) ∧
    (stuff frame out).1 = .ok (stuffedLength frame) ∧
      unstuff ((stuff frame out).2.take (stuffedLength frame)) plain =
        (.ok 5, frame ++ [0xAA]) := by
  intro frame out plain
  have room : stuffedLength frame ≤ out.length := by decide
  exact ⟨⟨by decide, by decide, rfl, rfl, room, by decide⟩,
    unstuff_stuff (by decide) (by decide) rfl rfl room (by decide)⟩

/-! ## 5. No flag within -/

/-- **Between its flags a stuffed frame has no six ones in a row**: the receiver takes it. -/
theorem not_hasSixOnes_stuffedBody (frame : List UInt8) :
    ¬ HasSixOnes (bitsOf (stuffedBody frame)) := by
  intro six
  have refused : unstuffBits 0 (bitsOf (stuffedBody frame)) = none := by
    rw [unstuffBits_eq, if_pos six]
  rw [bitsOf_stuffedBody, padding, unstuffBits_stuffBits_append (by decide)] at refused
  cases refused

/-- **Between its flags a stuffed frame holds no flag**: a flag has six ones in a row. -/
theorem flag_notMem_stuffedBody (frame : List UInt8) : flag ∉ stuffedBody frame :=
  fun inside => not_hasSixOnes_stuffedBody frame (hasSixOnes_of_flag_mem inside)

theorem stuffedBody_ne_nil {frame : List UInt8} (long : 2 < frame.length) :
    stuffedBody frame ≠ [] := by
  have count := length_le_stuffedCount 0 (bitsOf (body frame))
  rw [length_bitsOf, length_body] at count
  apply List.ne_nil_of_length_pos
  rw [stuffedBody, length_padded, length_stuffBits]
  omega

theorem length_stuffedBody_le {frame : List UInt8} (long : 2 ≤ frame.length)
    (short : frame.length ≤ 276) : (stuffedBody frame).length + 2 ≤ maxLength := by
  have len := length_flagged_stuffedBody long
  rw [flagged, List.length_cons, List.length_append, List.length_singleton] at len
  have bound := stuffedLength_le short
  omega

end SatLink.Frame
