import SatLink.Proofs.Frame.Layout
import SatLink.Proofs.Outcome
import SatLink.Proofs.ReedSolomon.Correction
import SatLink.Uplink.Flow

/-!
# What the uplink accepts

The information field of a frame is corrected before anything else of the frame is checked, and only
the kind of the frame, read from a byte nobody has checked yet, decides whether that happens. These
theorems say what comes of it in the end:

* `corrected_append_eq_ok_iff` — correcting puts the nearest codeword into the information field and
  leaves the rest of the frame as it was;
* `deframe_eq_ok_iff` — a data frame is accepted exactly when its information field alone is
  damaged, within the reach of the code; a control frame only when nothing is.
-/

namespace SatLink.Uplink

open SatLink.Frame
open SatLink.ReedSolomon (isCodeword isCodeword_encode correct_eq_ok_iff)

/-! ## 1. Correcting a frame -/

/-- Frames of the other kinds are left alone. -/
theorem corrected_of_ne_information {frame : List UInt8} {kind : FrameType}
    (peeked : peek frame = .ok kind) (other : kind ≠ .information) :
    corrected frame = .ok frame := by
  cases kind with
  | information => exact absurd rfl other
  | supervisory => simp only [corrected, peeked]; rfl
  | unnumbered => simp only [corrected, peeked]; rfl

section

variable {front back : List UInt8} (hfront : front.length = 18) (hback : back.length = 3)

include hfront hback

/-- **Correcting an information frame** puts the codeword within sixteen bytes into its field. -/
theorem corrected_append_eq_ok_iff {old : Block infoLength} {fixed : List UInt8}
    (peeked : peek (front ++ (old.bytes ++ back)) = .ok .information) :
    corrected (front ++ (old.bytes ++ back)) = .ok fixed ↔
      ∃ new : Block infoLength, isCodeword new = true ∧
        (differences old.bytes new.bytes).length ≤ 16 ∧ fixed = front ++ (new.bytes ++ back) := by
  simp only [corrected, peeked, infoField_append hfront hback, bind, Except.bind]
  constructor
  · intro h
    cases e : ReedSolomon.correct old with
    | mk outcome word =>
        cases outcome with
        | error cause => simp [e] at h
        | ok n =>
            simp only [e] at h
            obtain ⟨codeword, rfl, near⟩ := correct_eq_ok_iff.mp e
            refine ⟨word, codeword, near, ?_⟩
            rw [← withInfoField_append hfront old word]
            exact (Except.ok.inj h).symm
  · rintro ⟨new, codeword, near, rfl⟩
    rw [correct_eq_ok_iff.mpr ⟨codeword, rfl, near⟩]
    exact congrArg Except.ok (withInfoField_append hfront old new)

end

/-- A corrected information frame has the length of one. -/
theorem length_eq_of_corrected {frame fixed : List UInt8} (peeked : peek frame = .ok .information)
    (h : corrected frame = .ok fixed) : frame.length = infoFrameLength := by
  by_contra other
  simp only [corrected, peeked, infoField, dif_neg other, bind, Except.bind] at h
  cases h

/-- **What correcting does to a frame**: it puts the codeword within reach into the information
    field, or it leaves a frame alone that has none. -/
theorem corrected_cases {frame fixed : List UInt8} (h : corrected frame = .ok fixed) :
    (∃ (front back : List UInt8) (old new : Block infoLength), front.length = 18 ∧
      back.length = 3 ∧ frame = front ++ (old.bytes ++ back) ∧
      fixed = front ++ (new.bytes ++ back) ∧ isCodeword new = true ∧
      (differences old.bytes new.bytes).length ≤ 16) ∨
    (fixed = frame ∧ peek frame ≠ .ok .information) := by
  cases peeked : peek frame with
  | error e =>
      simp only [corrected, peeked, bind, Except.bind] at h
      cases h
  | ok kind =>
      by_cases information : kind = .information
      · left
        subst information
        obtain ⟨front, back, old, hfront, hback, rfl⟩ :=
          exists_append_of_length (length_eq_of_corrected peeked h)
        obtain ⟨new, codeword, near, rfl⟩ := (corrected_append_eq_ok_iff hfront hback peeked).mp h
        exact ⟨front, back, old, new, hfront, hback, rfl, rfl, codeword, near⟩
      · right
        rw [corrected_of_ne_information peeked information] at h
        exact ⟨(Except.ok.inj h).symm, fun same => information (Except.ok.inj same)⟩

/-! ## 2. Reading a corrected frame -/

/-- A frame is **repairable** to the frame of a codeword when it differs from that in at most
    sixteen bytes of the information field and nowhere else. -/
structure Repairable (frame : List UInt8) (header : Header) (control : Sequence)
    (info : Block infoLength) : Prop where
  codeword : isCodeword info = true
  send_le : control.send ≤ 127
  receive_le : control.receive ≤ 127
  few : (differences frame (infoFrame header control info)).length ≤ 16
  inside : ∀ i ∈ differences frame (infoFrame header control info), 18 ≤ i ∧ i < 18 + infoLength

theorem repairable_of_corrected {frame fixed : List UInt8} {header : Header} {control : Sequence}
    {info : Block infoLength} (h : corrected frame = .ok fixed)
    (read : receive fixed = .ok (.data header control info)) :
    Repairable frame header control info := by
  obtain ⟨built, send, receive⟩ := receive_eq_data_iff.mp read
  rcases corrected_cases h with
    ⟨front, back, old, new, hfront, hback, rfl, rfl, codeword, near⟩ | alone
  · obtain ⟨front', back', hfront', hback', parts⟩ := infoFrame_eq_append header control info
    -- the corrected field is the field of the frame that is built
    have same : new = info := by
      have field := infoField_append hfront hback new
      rw [built, parts, infoField_append hfront' hback'] at field
      exact (Except.ok.inj field).symm
    have len : old.bytes.length = new.bytes.length := by rw [old.length_eq, new.length_eq]
    subst same
    refine ⟨codeword, send, receive, ?_, ?_⟩
    · rw [← built, length_differences_append len]
      exact near
    · intro i hi
      rw [← built, mem_differences_append len, hfront] at hi
      have bound := lt_of_mem_differences hi.2
      rw [old.length_eq, new.length_eq, Nat.max_self] at bound
      omega
  · obtain ⟨rfl, other⟩ := alone
    rw [built, peek_infoFrame] at other
    exact absurd rfl other

theorem Repairable.corrected {frame : List UInt8} {header : Header} {control : Sequence}
    {info : Block infoLength} (near : Repairable frame header control info) :
    corrected frame = .ok (infoFrame header control info) := by
  obtain ⟨front, back, hfront, hback, parts⟩ := infoFrame_eq_append header control info
  obtain ⟨len, before, behind⟩ := eq_append_of_differences (m := 18) (n := 18 + infoLength)
    (by decide) (by rw [length_infoFrame]; decide) near.inside
  rw [length_infoFrame] at len
  obtain ⟨front', back', old, hfront', hback', rfl⟩ := exists_append_of_length len
  have same : front' = front := by
    rw [parts, List.take_left' hfront', List.take_left' hfront] at before
    exact before
  have same' : back' = back := by
    rw [parts, ← List.append_assoc, ← List.append_assoc, List.drop_left' (by simp [hfront']),
      List.drop_left' (by simp [hfront])] at behind
    exact behind
  subst same same'
  have kind : peek (front' ++ (old.bytes ++ back')) = .ok .information := by
    rw [peek_append hfront' hback' old info, ← parts, peek_infoFrame]
  have few := near.few
  rw [parts, length_differences_append (by rw [old.length_eq, info.length_eq])] at few
  rw [parts]
  exact (corrected_append_eq_ok_iff hfront' hback' kind).mpr ⟨info, near.codeword, few, rfl⟩

/-- Damage to the information field of a frame that was sent is repairable within sixteen bytes. -/
theorem repairable_withInfoField {header : Header} {control : Sequence}
    {info damaged : Block infoLength} (codeword : isCodeword info = true)
    (send : control.send ≤ 127) (receive : control.receive ≤ 127)
    (few : (differences damaged.bytes info.bytes).length ≤ 16) :
    Repairable (withInfoField (infoFrame header control info) damaged) header control info := by
  obtain ⟨front, back, hfront, hback, parts⟩ := infoFrame_eq_append header control info
  have len : damaged.bytes.length = info.bytes.length := by rw [damaged.length_eq, info.length_eq]
  refine ⟨codeword, send, receive, ?_, ?_⟩
  · rw [parts, withInfoField_append hfront, length_differences_append len]
    exact few
  · intro i hi
    rw [parts, withInfoField_append hfront, mem_differences_append len, hfront] at hi
    have bound := lt_of_mem_differences hi.2
    rw [len, info.length_eq, Nat.max_self] at bound
    omega

/-- **A frame is read after correcting** as what its repair was built of. -/
theorem receive_corrected_eq_data_iff {frame : List UInt8} {header : Header} {control : Sequence}
    {info : Block infoLength} :
    (corrected frame >>= receive) = .ok (.data header control info) ↔
      Repairable frame header control info := by
  constructor
  · intro h
    obtain ⟨fixed, put, read⟩ := bind_eq_ok_iff.mp h
    exact repairable_of_corrected put read
  · intro near
    exact bind_eq_ok_iff.mpr ⟨_, near.corrected,
      receive_eq_data_iff.mpr ⟨rfl, near.send_le, near.receive_le⟩⟩

/-- A control frame is read only as it stands: no corrected frame is one. -/
theorem receive_corrected_eq_control_iff {frame : List UInt8} {header : Header} {command : Control}
    {pollFinal : Bool} :
    (corrected frame >>= receive) = .ok (.control header command pollFinal) ↔
      frame = controlFrame header command pollFinal := by
  constructor
  · intro h
    obtain ⟨fixed, put, read⟩ := bind_eq_ok_iff.mp h
    have built := receive_eq_control_iff.mp read
    rcases corrected_cases put with ⟨front, back, old, new, hfront, hback, rfl, rfl, -, -⟩ | alone
    · have len := length_append_field hfront hback new
      rw [built, length_controlFrame] at len
      cases len
    · rw [← built, alone.1]
  · rintro rfl
    have kind := peek_controlFrame header command pollFinal
    exact bind_eq_ok_iff.mpr ⟨_, corrected_of_ne_information kind (by decide),
      receive_eq_control_iff.mpr rfl⟩

/-! ## 3. Taking a frame in -/

theorem deframe_of_unstuffFrame {stuffed frame : List UInt8}
    (h : unstuffFrame stuffed = .ok frame) :
    deframe stuffed = (corrected frame >>= receive) := by
  rw [deframe, h]
  rfl

/-- **What a station takes in**: damage to the information field within the reach of the code is
    always repaired, and nothing else is ever accepted. -/
theorem deframe_eq_ok_iff {stuffed frame : List UInt8} (h : unstuffFrame stuffed = .ok frame) :
    (∀ header control info, deframe stuffed = .ok (.data header control info) ↔
        Repairable frame header control info) ∧
      ∀ header command pollFinal, deframe stuffed = .ok (.control header command pollFinal) ↔
        frame = controlFrame header command pollFinal := by
  rw [deframe_of_unstuffFrame h]
  exact ⟨fun _ _ _ => receive_corrected_eq_data_iff, fun _ _ _ => receive_corrected_eq_control_iff⟩

/-- The frame of a message of zeros, whose first sixteen bytes arrive wrong. -/
theorem deframe_sixteen_wrong_bytes :
    let header : Header := ⟨⟨Block.replicate 6 0x82, 0x60⟩, ⟨Block.replicate 6 0x84, 0x61⟩⟩
    let info := ReedSolomon.encode (Block.zero 223)
    let damage : Block 255 := (Block.replicate 16 0xFF).append (Block.zero 239)
    let frame := withInfoField (infoFrame header {} info) (info.xor damage)
    unstuffFrame (flagged (stuffedBody frame)) = .ok frame ∧
      deframe (flagged (stuffedBody frame)) = .ok (.data header {} info) := by
  intro header info damage frame
  obtain ⟨front, back, hfront, hback, parts⟩ := infoFrame_eq_append header {} info
  have whole : frame = front ++ ((info.xor damage).bytes ++ back) :=
    (congrArg (withInfoField · _) parts).trans (withInfoField_append hfront _ _)
  have flags : hasFlags frame = true := by
    have sent : hasFlags (infoFrame header {} info) = true := hasFlags_flagged _
    have ne : front ≠ [] := List.ne_nil_of_length_pos (by omega)
    have ne' : back ≠ [] := List.ne_nil_of_length_pos (by omega)
    rw [whole, hasFlags_append _ ne ne', ← hasFlags_append info.bytes ne ne', ← parts]
    exact sent
  have short : frame.length ≤ maxLength := by
    rw [whole, length_append_field hfront hback]
    decide
  have few : (differences (info.xor damage).bytes info.bytes).length ≤ 16 := by
    have wrong : damage.bytes.countP (· ≠ 0) ≤ 16 := by decide +kernel
    have len : damage.bytes.length = info.bytes.length := by rw [damage.length_eq, info.length_eq]
    exact (length_differences_xor info.bytes damage.bytes len).trans_le wrong
  have unstuffed := unstuffFrame_stuffed flags short
  have near : Repairable frame header {} info :=
    repairable_withInfoField (isCodeword_encode _) (by decide) (by decide) few
  exact ⟨unstuffed, ((deframe_eq_ok_iff unstuffed).1 header {} info).mpr near⟩

end SatLink.Uplink
