import SatLink.Proofs.Frame.Stuffing

/-!
# Between the flags

What stuffing leaves between the flags and what unstuffing takes out from between them, told by the
bits alone, for every frame and every buffer.

* `stuff_outcome` — **a frame is stuffed exactly when the buffer holds the length counted
  beforehand**; then the region has no six ones in a row, and else the buffer is as it was;
* `Sound`, `plainLength` — what the receiver asks of a frame, and how long the frame is once
  unstuffed;
* `unstuff_outcome` — **a frame is unstuffed exactly when it is sound and the buffer holds what
  comes out**; a short buffer and an unsound frame are told apart.
-/

namespace SatLink.Frame

open SatLink.Bit

/-! ## 1. Stuffing -/

/-- A buffer that is too small is refused before anything is written. -/
theorem stuff_of_lt {frame out : List UInt8} (flags : hasFlags frame = true)
    (short : out.length < stuffedLength frame) :
    stuff frame out = (.error (.bufferTooSmall (stuffedLength frame) out.length), out) := by
  unfold stuff
  rw [if_pos flags]
  exact if_neg (Nat.not_le_of_lt short)

theorem hasFlags_of_ends {frame : List UInt8} (long : 2 ≤ frame.length)
    (first : frame.head? = some flag) (last : frame.getLast? = some flag) :
    hasFlags frame = true := by
  simp only [hasFlags, long, first, last, decide_true, beq_self_eq_true, Bool.and_self]

/-- The bits of the region: those of the body with a zero behind every fifth consecutive one, and
    zeros up to the next byte. -/
theorem exists_bitsOf_stuffedBody (frame : List UInt8) : ∃ k < 8, bitsOf (stuffedBody frame) =
    withStuffing (bitsOf (body frame)) ++ List.replicate k false := by
  refine ⟨(padding (withStuffing (bitsOf (body frame)))).length, length_padding_lt _, ?_⟩
  rw [bitsOf_stuffedBody, stuffBits_eq, padding, List.length_replicate]

/-- **Stuffing succeeds exactly when the buffer holds the length counted beforehand.** Then it
    answers with that length, writes as many bytes, and leaves the rest of the buffer as it was;
    between the two flags there are no six ones in a row at any offset, so no third flag, and the
    bits there are those of the body with a zero behind every fifth consecutive one, filled with
    zeros up to a byte. All writes are taken, so the count behind them finds nothing amiss.
    Otherwise the length is told, and the buffer is as it was. -/
theorem stuff_outcome {frame : List UInt8} (long : 2 ≤ frame.length)
    (first : frame.head? = some flag) (last : frame.getLast? = some flag) (out : List UInt8) :
    ((∃ n, (stuff frame out).1 = .ok n) ↔ stuffedLength frame ≤ out.length) ∧
      (stuffedLength frame ≤ out.length → ∃ region : List UInt8,
        stuff frame out =
          (.ok (stuffedLength frame), flagged region ++ out.drop (stuffedLength frame)) ∧
        (flagged region).length = stuffedLength frame ∧
        ¬ HasSixOnes (bitsOf region) ∧ flag ∉ region ∧
        ∃ k < 8, bitsOf region =
          withStuffing (bitsOf (body frame)) ++ List.replicate k false) ∧
      (stuffedLength frame ≤ out.length → (written frame out).1 = true ∧
        (written frame out).2.bytesWritten = stuffedLength frame) ∧
      (out.length < stuffedLength frame →
        stuff frame out = (.error (.bufferTooSmall (stuffedLength frame) out.length), out)) := by
  have flags := hasFlags_of_ends long first last
  refine ⟨⟨fun ok => ?_, fun fits => ?_⟩, fun fits => ?_, fun fits => ?_, stuff_of_lt flags⟩
  · obtain ⟨n, ok⟩ := ok
    by_contra short
    rw [stuff_of_lt flags (Nat.lt_of_not_le short)] at ok
    cases ok
  · exact ⟨_, congrArg Prod.fst (stuff_eq flags fits)⟩
  · exact ⟨stuffedBody frame, stuff_eq flags fits, length_flagged_stuffedBody long,
      not_hasSixOnes_stuffedBody frame, flag_notMem_stuffedBody frame,
      exists_bitsOf_stuffedBody frame⟩
  · obtain ⟨taken, count, -⟩ := written_of_fits long fits
    exact ⟨taken, count⟩

/-- A run of ones across two bytes and one that ends the body, into a buffer with other
    bytes in it. -/
theorem stuff_outcome_runs_of_ones :
    let frame := [flag, 0xFF, 0x1F, flag]
    let out : List UInt8 := List.replicate 6 0xAA
    (2 ≤ frame.length ∧ frame.head? = some flag ∧ frame.getLast? = some flag) ∧
      stuffedLength frame = 5 ∧
      (∃ region : List UInt8, stuff frame out = (.ok 5, flagged region ++ [0xAA]) ∧
        (flagged region).length = 5 ∧ ¬ HasSixOnes (bitsOf region) ∧ flag ∉ region ∧
        ∃ k < 8, bitsOf region = withStuffing (bitsOf [0xFF, 0x1F]) ++ List.replicate k false) ∧
      stuff frame (out.take 4) = (.error (.bufferTooSmall 5 4), out.take 4) := by
  intro frame out
  have long : 2 ≤ frame.length := by decide
  have len : stuffedLength frame = 5 := by decide
  obtain ⟨-, stuffed, -, -⟩ := stuff_outcome long rfl rfl out
  obtain ⟨-, -, -, refused⟩ := stuff_outcome long rfl rfl (out.take 4)
  rw [len] at stuffed refused
  exact ⟨⟨long, rfl, rfl⟩, len, stuffed (by decide), refused (by decide)⟩

/-! ## 2. Unstuffing -/

/-- How long a frame is once it is unstuffed: its whole bytes and the flags. -/
def plainLength (frame : List UInt8) : Nat :=
  2 + (withoutStuffing (bitsOf (body frame))).length / 8

/-- What the receiver asks of a frame: its flags, no six ones in a row between them, and that it
    fits a frame buffer once unstuffed. -/
structure Sound (frame : List UInt8) : Prop where
  long : 2 ≤ frame.length
  first : frame.head? = some flag
  last : frame.getLast? = some flag
  fewOnes : ¬ HasSixOnes (bitsOf (body frame))
  short : plainLength frame ≤ maxLength

/-- What comes out from between the flags. -/
def plainBody (frame : List UInt8) : List UInt8 :=
  wholeBytes (withoutStuffing (bitsOf (body frame)))

theorem length_flagged_plainBody (frame : List UInt8) :
    (flagged (plainBody frame)).length = plainLength frame := by
  rw [flagged, List.length_cons, List.length_append, plainBody, length_wholeBytes, plainLength]
  simp only [List.length_singleton]
  omega

theorem Sound.hasFlags {frame : List UInt8} (h : Sound frame) : hasFlags frame = true :=
  hasFlags_of_ends h.long h.first h.last

theorem ends_of_hasFlags {frame : List UInt8} (flags : hasFlags frame = true) :
    2 ≤ frame.length ∧ frame.head? = some flag ∧ frame.getLast? = some flag := by
  simpa only [Frame.hasFlags, Bool.and_eq_true, decide_eq_true_eq, beq_iff_eq,
    and_assoc] using flags

section

variable {frame : List UInt8}

theorem unstuffed_of_sound (sound : Sound frame) :
    unstuffed frame = .ok (flagged (plainBody frame)) := by
  have short := sound.short
  rw [← length_flagged_plainBody] at short
  rw [unstuffed, if_pos sound.hasFlags, unstuffBits_eq, if_neg sound.fewOnes]
  exact if_pos short

/-- **Everything else is corrupted**, whatever it lacks. -/
theorem unstuffed_of_not_sound (unsound : ¬ Sound frame) :
    unstuffed frame = .error .corruptedFrame := by
  unfold unstuffed
  split
  next flags =>
    rw [unstuffBits_eq]
    by_cases six : HasSixOnes (bitsOf (body frame))
    · rw [if_pos six]
    · obtain ⟨long, first, last⟩ := ends_of_hasFlags flags
      have tooLong : ¬ (flagged (plainBody frame)).length ≤ maxLength := by
        rw [length_flagged_plainBody]
        exact fun short => unsound ⟨long, first, last, six, short⟩
      rw [if_neg six]
      exact if_neg tooLong
  next => rfl

variable {out : List UInt8}

theorem unstuff_of_sound (sound : Sound frame) (fits : plainLength frame ≤ out.length) :
    unstuff frame out =
      (.ok (plainLength frame), flagged (plainBody frame) ++ out.drop (plainLength frame)) := by
  rw [unstuff, unstuffed_of_sound sound]
  dsimp only
  rw [length_flagged_plainBody, if_pos fits]

theorem unstuff_of_lt (sound : Sound frame) (short : out.length < plainLength frame) :
    unstuff frame out = (.error (.bufferTooSmall (plainLength frame) out.length), out) := by
  rw [unstuff, unstuffed_of_sound sound]
  dsimp only
  rw [length_flagged_plainBody, if_neg (Nat.not_le_of_lt short)]

theorem unstuff_of_not_sound (unsound : ¬ Sound frame) :
    unstuff frame out = (.error .corruptedFrame, out) := by
  rw [unstuff, unstuffed_of_not_sound unsound]

/-- A frame is unsound, or the buffer is too small for it, or it is unstuffed. -/
theorem unstuff_cases (frame out : List UInt8) :
    (¬ Sound frame ∧ unstuff frame out = (.error .corruptedFrame, out)) ∨
      (Sound frame ∧ out.length < plainLength frame ∧
        unstuff frame out = (.error (.bufferTooSmall (plainLength frame) out.length), out)) ∨
      (Sound frame ∧ plainLength frame ≤ out.length ∧
        unstuff frame out =
          (.ok (plainLength frame),
            flagged (plainBody frame) ++ out.drop (plainLength frame))) := by
  by_cases sound : Sound frame
  · rcases Nat.lt_or_ge out.length (plainLength frame) with short | fits
    · exact .inr (.inl ⟨sound, short, unstuff_of_lt sound short⟩)
    · exact .inr (.inr ⟨sound, fits, unstuff_of_sound sound fits⟩)
  · exact .inl ⟨sound, unstuff_of_not_sound sound⟩

theorem unstuff_eq_ok_iff {n : Nat} : (unstuff frame out).1 = .ok n ↔
    Sound frame ∧ n = plainLength frame ∧ n ≤ out.length := by
  constructor
  · intro ok
    rcases unstuff_cases frame out with ⟨-, h⟩ | ⟨-, -, h⟩ | ⟨sound, fits, h⟩
    · rw [h] at ok
      cases ok
    · rw [h] at ok
      cases ok
    · rw [h] at ok
      cases ok
      exact ⟨sound, rfl, fits⟩
  · intro h
    obtain ⟨sound, rfl, fits⟩ := h
    rw [unstuff_of_sound sound fits]

theorem unstuff_eq_bufferTooSmall_iff {needed available : Nat} :
    (unstuff frame out).1 = .error (.bufferTooSmall needed available) ↔
      Sound frame ∧ out.length < plainLength frame ∧
        needed = plainLength frame ∧ available = out.length := by
  constructor
  · intro refused
    rcases unstuff_cases frame out with ⟨-, h⟩ | ⟨sound, short, h⟩ | ⟨-, -, h⟩
    · rw [h] at refused
      cases refused
    · rw [h] at refused
      cases refused
      exact ⟨sound, short, rfl, rfl⟩
    · rw [h] at refused
      cases refused
  · intro h
    obtain ⟨sound, short, rfl, rfl⟩ := h
    rw [unstuff_of_lt sound short]

theorem unstuff_eq_corruptedFrame_iff :
    (unstuff frame out).1 = .error .corruptedFrame ↔ ¬ Sound frame := by
  constructor
  · intro refused
    rcases unstuff_cases frame out with ⟨unsound, -⟩ | ⟨-, -, h⟩ | ⟨-, -, h⟩
    · exact unsound
    · rw [h] at refused
      cases refused
    · rw [h] at refused
      cases refused
  · intro unsound
    rw [unstuff_of_not_sound unsound]

end

/-- **Unstuffing succeeds exactly on the sound frames, into the buffers that hold what comes out.**
    Then the buffer begins with a flag, the whole bytes that are left of the region once every zero
    behind five consecutive ones is deleted, and a flag, and is as it was behind them. A buffer is
    called too small exactly when nothing else is amiss, and all other frames are corrupted. -/
theorem unstuff_outcome (frame out : List UInt8) :
    (∀ n, (unstuff frame out).1 = .ok n ↔
        Sound frame ∧ n = plainLength frame ∧ n ≤ out.length) ∧
      (Sound frame → plainLength frame ≤ out.length → ∃ inner : List UInt8,
        unstuff frame out =
          (.ok (plainLength frame), flagged inner ++ out.drop (plainLength frame)) ∧
        (flagged inner).length = plainLength frame ∧
        bitsOf inner = (withoutStuffing (bitsOf (body frame))).take
          (8 * ((withoutStuffing (bitsOf (body frame))).length / 8))) ∧
      (∀ needed available, (unstuff frame out).1 = .error (.bufferTooSmall needed available) ↔
        Sound frame ∧ out.length < plainLength frame ∧
          needed = plainLength frame ∧ available = out.length) ∧
      ((unstuff frame out).1 = .error .corruptedFrame ↔ ¬ Sound frame) := by
  refine ⟨fun _ => unstuff_eq_ok_iff, fun sound fits => ?_,
    fun _ _ => unstuff_eq_bufferTooSmall_iff, unstuff_eq_corruptedFrame_iff⟩
  exact ⟨plainBody frame, unstuff_of_sound sound fits, length_flagged_plainBody frame,
    bitsOf_wholeBytes_eq_take _⟩

end SatLink.Frame
