import SatLink.Proofs.Difference
import SatLink.Proofs.Frame.BitErrors
import SatLink.Proofs.Frame.Fcs
import SatLink.Proofs.Frame.Layout

/-!
# Damage that the check sequence notices

A frame that was accepted and then damaged between its flags is told apart by its check sequence
before anything else in it is looked at, addresses, control field and length included. The sum of
the frame and the damaged frame is the pattern of the wrong bits; the flags are right, so the
pattern ends in zeros and leaves in the register of the division what the wrong bits leave.

* `receive_of_mismatch` — a wrong check sequence is reported as one, whatever else is wrong;
* `receive_of_pattern` — a frame damaged by a pattern that leaves something is refused;
* `receive_damaged` — so are up to three wrong bits, and any in two neighbouring bytes.
-/

namespace SatLink.Frame

open SatLink.Bit

/-! ## 1. Patterns -/

/-- How many bits of two strings differ. -/
def wrongBits (a b : List UInt8) : Nat := (List.zipWith (· ^^ ·) (bitsOf a) (bitsOf b)).count true

/-- The sum of two strings, byte by byte. -/
def pattern (a b : List UInt8) : List UInt8 := List.zipWith (· ^^^ ·) a b

@[simp] theorem pattern_cons (x y : UInt8) (a b : List UInt8) :
    pattern (x :: a) (y :: b) = (x ^^^ y) :: pattern a b := rfl

theorem length_pattern_le (a b : List UInt8) : (pattern a b).length ≤ a.length := by
  rw [pattern, List.length_zipWith]
  exact Nat.min_le_left ..

theorem pattern_append {a b : List UInt8} (len : b.length = a.length) (c d : List UInt8) :
    pattern (a ++ c) (b ++ d) = pattern a b ++ pattern c d :=
  List.zipWith_append len.symm

theorem pattern_self (a : List UInt8) : pattern a a = List.replicate a.length 0 := by
  induction a with
  | nil => rfl
  | cons x a ih => rw [pattern_cons, UInt8.xor_self, ih, List.length_cons, List.replicate_succ]

theorem bitsOfByte_xor (x y : UInt8) :
    bitsOfByte (x ^^^ y) = List.zipWith (· ^^ ·) (bitsOfByte x) (bitsOfByte y) := by
  simp only [bitsOfByte, UInt8.toNat_xor, Nat.testBit_xor]
  rfl

theorem bitsOf_pattern (a b : List UInt8) :
    bitsOf (pattern a b) = List.zipWith (· ^^ ·) (bitsOf a) (bitsOf b) := by
  induction a generalizing b with
  | nil => rfl
  | cons x a ih =>
      cases b with
      | nil => exact List.zipWith_nil_right.symm
      | cons y b =>
          have len : (bitsOfByte x).length = (bitsOfByte y).length := rfl
          rw [pattern_cons, bitsOf_cons, bitsOf_cons, bitsOf_cons, List.zipWith_append len, ih,
            bitsOfByte_xor]

theorem count_airBits (bytes : List UInt8) :
    (Fcs.airBits bytes).count true = (bitsOf bytes).count true := by
  induction bytes with
  | nil => rfl
  | cons b bytes ih =>
      rw [Fcs.airBits, List.flatMap_cons, List.count_append, ← Fcs.airBits, ih, List.count_reverse,
        bitsOf_cons, List.count_append]

theorem length_airBits (bytes : List UInt8) : (Fcs.airBits bytes).length = 8 * bytes.length := by
  induction bytes with
  | nil => rfl
  | cons b bytes ih =>
      rw [Fcs.airBits, List.flatMap_cons, List.length_append, ← Fcs.airBits, ih,
        List.length_reverse, length_bitsOfByte, List.length_cons, Nat.mul_succ, Nat.add_comm]

/-- Up to three wrong bits leave something, in a string of 276 bytes or fewer. -/
theorem residue_of_wrongBits {a b : List UInt8} (short : a.length ≤ infoFrameLength)
    (damaged : 1 ≤ wrongBits a b) (few : wrongBits a b ≤ 3) : Fcs.residue (pattern a b) ≠ 0 := by
  rw [wrongBits, ← bitsOf_pattern, ← count_airBits] at damaged few
  have len : (Fcs.airBits (pattern a b)).length ≤ 2208 := by
    have le := length_pattern_le a b
    rw [length_airBits]
    simp only [infoFrameLength] at short
    omega
  rw [Fcs.residue_eq_foldl]
  exact Fcs.foldl_feedBit_ne_zero damaged few len

/-- Strings that differ in two neighbouring bytes only. -/
theorem exists_neighbours {a b : List UInt8} {i : Nat} (inside : i + 2 < b.length)
    (near : ∀ j ∈ differences a b, j = i ∨ j = i + 1) :
    ∃ (front back : List UInt8) (x y u v : UInt8),
      a = front ++ ([x, y] ++ back) ∧ b = front ++ ([u, v] ++ back) := by
  have between : ∀ j ∈ differences a b, i ≤ j ∧ j < i + 2 := by
    intro j hj
    rcases near j hj with rfl | rfl <;> omega
  obtain ⟨len, front, back⟩ := eq_append_of_differences (Nat.le_add_right i 2) inside between
  have pair {l : List UInt8} (long : i + 2 < l.length) : ((l.drop i).take 2).length = 2 := by
    rw [List.length_take, List.length_drop]
    omega
  have parts (l : List UInt8) : l = l.take i ++ ((l.drop i).take 2 ++ l.drop (i + 2)) := by
    rw [← List.drop_drop, List.take_append_drop, List.take_append_drop]
  obtain ⟨x, y, hxy⟩ := List.length_eq_two.mp (pair (len ▸ inside))
  obtain ⟨u, v, huv⟩ := List.length_eq_two.mp (pair inside)
  refine ⟨b.take i, b.drop (i + 2), x, y, u, v, ?_, ?_⟩
  · rw [← front, ← back, ← hxy, ← parts]
  · rw [← huv, ← parts]

/-- Wrong bits in two neighbouring bytes leave something. -/
theorem residue_of_neighbours {a b : List UInt8} {i : Nat} (ne : a ≠ b) (inside : i + 2 < b.length)
    (near : ∀ j ∈ differences a b, j = i ∨ j = i + 1) : Fcs.residue (pattern a b) ≠ 0 := by
  obtain ⟨front, back, x, y, u, v, rfl, rfl⟩ := exists_neighbours inside near
  have wrong : x ^^^ u ≠ 0 ∨ y ^^^ v ≠ 0 := by
    rw [← not_and_or, UInt8.xor_eq_zero_iff, UInt8.xor_eq_zero_iff]
    rintro ⟨rfl, rfl⟩
    exact ne rfl
  have sum : pattern (front ++ ([x, y] ++ back)) (front ++ ([u, v] ++ back)) =
      List.replicate front.length 0 ++ ([x ^^^ u, y ^^^ v] ++ List.replicate back.length 0) := by
    have len : [u, v].length = [x, y].length := rfl
    rw [pattern_append rfl, pattern_append len, pattern_self, pattern_self]
    rfl
  rw [sum, Fcs.residue_zeros]
  exact fun zero => Fcs.residue_burst_ne_zero wrong (Fcs.shiftBits_eq_zero zero)

/-! ## 2. Refusal -/

/-- **A wrong check sequence** is reported as one, whatever else is wrong. -/
theorem receive_of_mismatch {content : List UInt8} {low high : UInt8} (long : 16 ≤ content.length)
    (ne : Fcs.checksum content ≠ Fcs.ofBytes low high) :
    receive (flagged (content ++ [low, high])) =
      .error (.fcsMismatch (Fcs.checksum content) (Fcs.ofBytes low high)) := by
  have enough : controlFrameLength ≤ (flagged (content ++ [low, high])).length := by
    simp only [length_flagged, List.length_append, List.length_cons, List.length_nil,
      controlFrameLength]
    omega
  have inner : (content ++ [low, high]).length - 2 = content.length := by simp
  rw [receive, peek, dif_pos ⟨hasFlags_flagged _, enough⟩]
  simp only [bind, Except.bind, body_flagged, inner, List.take_left' rfl, List.drop_left' rfl]
  rw [if_pos ne]
  rfl

/-- What is accepted has one of two lengths. -/
theorem length_of_receive {frame : List UInt8} {r : Received} (accepted : receive frame = .ok r) :
    frame.length = controlFrameLength ∨ frame.length = infoFrameLength := by
  cases r with
  | control header command pollFinal =>
      left
      rw [receive_eq_control_iff.mp accepted, length_controlFrame]
  | data header control info =>
      right
      rw [(receive_eq_data_iff.mp accepted).1, length_infoFrame]

/-- **A frame damaged by a pattern that leaves something is refused.** -/
theorem receive_of_pattern {content damaged : List UInt8} (long : 16 ≤ content.length)
    (len : damaged.length = (sealed content).length) (flags : hasFlags damaged = true)
    (noticed : Fcs.residue (pattern (sealed content) damaged) ≠ 0) :
    ∃ computed received, receive damaged = .error (.fcsMismatch computed received) ∧
      computed ≠ received := by
  -- the flags are right, so the pattern of the frames is that of their bodies
  obtain ⟨inner, rfl⟩ : ∃ inner, damaged = flagged inner := ⟨_, (flagged_body flags).symm⟩
  rw [sealed, length_flagged, length_flagged, Nat.add_right_cancel_iff] at len
  have between : pattern (sealed content) (flagged inner) = List.replicate 1 0 ++
      (pattern (content ++ Fcs.toBytes (Fcs.checksum content)) inner ++ List.replicate 1 0) := by
    rw [sealed, flagged, flagged, pattern_cons, pattern_append len]
    rfl
  rw [between, Fcs.residue_zeros, pattern, Fcs.residue_zipWith_xor len.symm 0xFFFF] at noticed
  have right : (content ++ Fcs.toBytes (Fcs.checksum content)).foldl Fcs.absorb 0xFFFF =
      Fcs.shiftBits 16 0xFFFF :=
    (Fcs.checksum_eq_ofBytes_iff _ _ _).mp (Fcs.ofBytes_toBytes _).symm
  -- the damaged body is a content and a check sequence again
  have two : (inner.drop content.length).length = 2 := by
    rw [List.length_drop, len, List.length_append, Fcs.toBytes]
    simp
  obtain ⟨low, high, tail⟩ := List.length_eq_two.mp two
  obtain ⟨front, rfl⟩ : ∃ front, inner = front ++ [low, high] :=
    ⟨_, (tail ▸ List.take_append_drop content.length inner).symm⟩
  have ne : Fcs.checksum front ≠ Fcs.ofBytes low high := by
    intro same
    rw [right, (Fcs.checksum_eq_ofBytes_iff _ _ _).mp same, UInt16.xor_self,
      Fcs.shiftBits_zero_register] at noticed
    exact noticed rfl
  have enough : 16 ≤ front.length := by
    simp only [List.length_append, Fcs.toBytes, List.length_cons, List.length_nil] at len
    omega
  exact ⟨_, _, receive_of_mismatch enough ne, ne⟩

/-! ## 3. Damaged frames -/

/-- **The check sequence notices** up to three wrong bits between the flags of an accepted frame,
    and any number of them in two neighbouring bytes. -/
theorem receive_damaged {frame damaged : List UInt8} {r : Received}
    (accepted : receive frame = .ok r)
    (len : damaged.length = frame.length) (flags : hasFlags damaged = true)
    (wrong : 1 ≤ wrongBits frame damaged ∧ wrongBits frame damaged ≤ 3 ∨
      frame ≠ damaged ∧
        ∃ i, i + 2 < frame.length ∧ ∀ j ∈ differences frame damaged, j = i ∨ j = i + 1) :
    ∃ computed received, receive damaged = .error (.fcsMismatch computed received) ∧
      computed ≠ received := by
  have lengths := length_of_receive accepted
  simp only [controlFrameLength, infoFrameLength] at lengths
  have noticed : Fcs.residue (pattern frame damaged) ≠ 0 := by
    rcases wrong with ⟨damaged, few⟩ | ⟨ne, i, inside, near⟩
    · exact residue_of_wrongBits (by simp only [infoFrameLength]; omega) damaged few
    · exact residue_of_neighbours ne (len ▸ inside) near
  obtain ⟨header, first, second, rest, rfl⟩ := exists_sealed_of_receive accepted
  refine receive_of_pattern ?_ len flags noticed
  rw [length_sealed] at lengths
  omega

/-- A frame that asks to connect, with three wrong bits in its destination, its control field
    and its check sequence; and the same frame with every bit of its control field and
    protocol id wrong. -/
theorem receive_damaged_conn :
    let callsign : Block 6 := ⟨[0x82, 0x96, 0x92, 0xA8, 0x9E, 0x40], rfl⟩
    let frame := controlFrame ⟨⟨callsign, 0xE0⟩, ⟨callsign, 0x61⟩⟩ .conn true
    let hit := fun p => p == 20 || p == 123 || p == 140
    wrongBits frame (flipBits hit frame) = 3 ∧
      differences frame (flipBits (fun p => 120 ≤ p && p < 136) frame) = [15, 16] ∧
      (∃ computed received, receive (flipBits hit frame) = .error (.fcsMismatch computed received) ∧
        computed ≠ received) ∧
      ∃ computed received, receive (flipBits (fun p => 120 ≤ p && p < 136) frame) =
        .error (.fcsMismatch computed received) ∧ computed ≠ received := by
  intro callsign frame hit
  have accepted : receive frame = .ok (.control ⟨⟨callsign, 0xE0⟩, ⟨callsign, 0x61⟩⟩ .conn true) :=
    receive_eq_control_iff.mpr rfl
  have three : wrongBits frame (flipBits hit frame) = 3 := by decide +kernel
  have two : differences frame (flipBits (fun p => 120 ≤ p && p < 136) frame) = [15, 16] := by
    decide +kernel
  refine ⟨three, two, ?_, ?_⟩
  · refine receive_damaged accepted (length_flipBits _ _) (by decide +kernel) (.inl ?_)
    rw [three]
    decide
  · refine receive_damaged accepted (length_flipBits _ _) (by decide +kernel)
      (.inr ⟨?_, 15, ?_, ?_⟩)
    · intro same
      rw [← same, differences_self] at two
      cases two
    · rw [length_controlFrame]
      decide
    · rw [two]
      decide

end SatLink.Frame
