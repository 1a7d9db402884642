import Mathlib.Data.Nat.Bitwise
import SatLink.Frame.Fcs
import SatLink.Wire

/-!
# Words and their bytes

A word joined from bytes by shifts is the number that the bytes are the digits of, in base 256. The
round trips between words and bytes are arithmetic from there on; the check sequence of a frame,
which is sent low byte first, is the same word with its two bytes exchanged.

What is written at an offset is read from there (`read32_of_drop` and its like), and what is read
stands there (`spans_of_read32` and its like).
-/

namespace SatLink.Wire

/-! ## 1. Digits in base 256 -/

theorem shiftLeft_or_eq_add (a k : Nat) {b : Nat} (lt : b < 2 ^ k) :
    a <<< k ||| b = 2 ^ k * a + b := by
  rw [← Nat.shiftLeft_add_eq_or_of_lt lt, Nat.shiftLeft_eq, Nat.mul_comm]

theorem toNat_word16 (a b : UInt8) : (word16 a b).toNat = 256 * a.toNat + b.toNat := by
  have ha := a.toNat_lt
  have hb := b.toNat_lt
  rw [word16, UInt16.toNat_or, UInt16.toNat_shiftLeft]
  show (a.toNat <<< 8) % 2 ^ 16 ||| b.toNat = _
  rw [Nat.mod_eq_of_lt (by rw [Nat.shiftLeft_eq]; omega), shiftLeft_or_eq_add _ 8 hb]
  rfl

theorem toNat_word32 (a b c d : UInt8) : (word32 a b c d).toNat =
    256 * (256 * (256 * a.toNat + b.toNat) + c.toNat) + d.toNat := by
  have ha := a.toNat_lt
  have hb := b.toNat_lt
  have hc := c.toNat_lt
  have hd := d.toNat_lt
  simp only [word32, UInt32.toNat_or, UInt32.toNat_shiftLeft]
  show (a.toNat <<< 24) % 2 ^ 32 ||| (b.toNat <<< 16) % 2 ^ 32 ||| (c.toNat <<< 8) % 2 ^ 32 |||
    d.toNat = _
  rw [Nat.mod_eq_of_lt (by rw [Nat.shiftLeft_eq]; omega),
    Nat.mod_eq_of_lt (by rw [Nat.shiftLeft_eq]; omega),
    Nat.mod_eq_of_lt (by rw [Nat.shiftLeft_eq]; omega), Nat.or_assoc, Nat.or_assoc,
    shiftLeft_or_eq_add c.toNat 8 hd, shiftLeft_or_eq_add b.toNat 16 (by omega),
    shiftLeft_or_eq_add a.toNat 24 (by omega)]
  omega

/-! ## 2. Round trips -/

theorem toNat_toUInt8_shiftRight16 (w : UInt16) : (w >>> 8).toUInt8.toNat = w.toNat / 256 := by
  have lt := w.toNat_lt
  rw [UInt16.toNat_toUInt8, UInt16.toNat_shiftRight]
  show w.toNat >>> 8 % 2 ^ 8 = _
  rw [Nat.shiftRight_eq_div_pow]
  omega

@[simp] theorem word16_bytes (w : UInt16) : word16 (w >>> 8).toUInt8 w.toUInt8 = w := by
  apply UInt16.toNat_inj.mp
  rw [toNat_word16, toNat_toUInt8_shiftRight16, UInt16.toNat_toUInt8]
  omega

theorem bytes16_word16 (a b : UInt8) : bytes16 (word16 a b) = [a, b] := by
  have hb := b.toNat_lt
  have high : (word16 a b >>> 8).toUInt8 = a := by
    apply UInt8.toNat_inj.mp
    rw [toNat_toUInt8_shiftRight16, toNat_word16]
    omega
  have low : (word16 a b).toUInt8 = b := by
    apply UInt8.toNat_inj.mp
    rw [UInt16.toNat_toUInt8, toNat_word16]
    omega
  rw [bytes16, high, low]

/-- A byte of a word is the word shifted and cut off. -/
theorem toNat_toUInt8_shiftRight32 (w k : UInt32) :
    (w >>> k).toUInt8.toNat = w.toNat / 2 ^ (k.toNat % 32) % 256 := by
  rw [UInt32.toNat_toUInt8, UInt32.toNat_shiftRight, Nat.shiftRight_eq_div_pow]

@[simp] theorem word32_bytes (w : UInt32) :
    word32 (w >>> 24).toUInt8 (w >>> 16).toUInt8 (w >>> 8).toUInt8 w.toUInt8 = w := by
  have lt := w.toNat_lt
  apply UInt32.toNat_inj.mp
  simp only [toNat_word32, toNat_toUInt8_shiftRight32]
  rw [UInt32.toNat_toUInt8]
  show 256 * (256 * (256 * (w.toNat / 16777216 % 256) + w.toNat / 65536 % 256) +
    w.toNat / 256 % 256) + w.toNat % 256 = w.toNat
  omega

theorem bytes32_word32 (a b c d : UInt8) : bytes32 (word32 a b c d) = [a, b, c, d] := by
  have ha := a.toNat_lt
  have hb := b.toNat_lt
  have hc := c.toNat_lt
  have hd := d.toNat_lt
  have value := toNat_word32 a b c d
  have first : (word32 a b c d >>> 24).toUInt8 = a := by
    apply UInt8.toNat_inj.mp
    rw [toNat_toUInt8_shiftRight32, value]
    show _ / 16777216 % 256 = _
    omega
  have second : (word32 a b c d >>> 16).toUInt8 = b := by
    apply UInt8.toNat_inj.mp
    rw [toNat_toUInt8_shiftRight32, value]
    show _ / 65536 % 256 = _
    omega
  have third : (word32 a b c d >>> 8).toUInt8 = c := by
    apply UInt8.toNat_inj.mp
    rw [toNat_toUInt8_shiftRight32, value]
    show _ / 256 % 256 = _
    omega
  have fourth : (word32 a b c d).toUInt8 = d := by
    apply UInt8.toNat_inj.mp
    rw [UInt32.toNat_toUInt8, value]
    omega
  rw [bytes32, first, second, third, fourth]

/-- Four bytes are the bytes of a word. -/
theorem exists_bytes32_append {bytes : List UInt8} (enough : 4 ≤ bytes.length) :
    ∃ w rest, bytes = bytes32 w ++ rest := by
  match bytes, enough with
  | a :: b :: c :: d :: rest, _ =>
      refine ⟨word32 a b c d, rest, ?_⟩
      rw [bytes32_word32]
      rfl

/-! ## 3. Reading what stands at an offset -/

theorem drop_add_of_append {buffer bytes rest : List UInt8} {offset : Nat}
    (h : buffer.drop offset = bytes ++ rest) : buffer.drop (offset + bytes.length) = rest := by
  rw [← List.drop_drop, h, List.drop_left]

theorem readByte_of_drop {buffer rest : List UInt8} {offset : Nat} {b : UInt8}
    (h : buffer.drop offset = b :: rest) : readByte buffer offset = .ok (b, offset + 1) := by
  unfold readByte
  rw [h]

theorem read16_of_drop {buffer rest : List UInt8} {offset : Nat} {w : UInt16}
    (h : buffer.drop offset = bytes16 w ++ rest) : read16 buffer offset = .ok (w, offset + 2) := by
  unfold read16
  rw [h]
  show Except.ok (word16 (w >>> 8).toUInt8 w.toUInt8, offset + 2) = _
  rw [word16_bytes]

theorem read32_of_drop {buffer rest : List UInt8} {offset : Nat} {w : UInt32}
    (h : buffer.drop offset = bytes32 w ++ rest) : read32 buffer offset = .ok (w, offset + 4) := by
  unfold read32
  rw [h]
  show Except.ok (word32 (w >>> 24).toUInt8 (w >>> 16).toUInt8 (w >>> 8).toUInt8 w.toUInt8,
    offset + 4) = _
  rw [word32_bytes]

/-! ## 4. What stands where something was read -/

/-- Some bytes stand at an offset of a buffer and end before `stop`. -/
structure Spans (buffer : List UInt8) (offset : Nat) (bytes : List UInt8) (stop : Nat) : Prop where
  isPrefix : bytes <+: buffer.drop offset
  stop_eq : stop = offset + bytes.length

section

variable {buffer bytes bytes' : List UInt8} {offset mid stop : Nat}

theorem Spans.nil (buffer : List UInt8) (offset : Nat) : Spans buffer offset [] offset :=
  ⟨List.nil_prefix, rfl⟩

/-- What stands in a buffer does not end behind it. -/
theorem Spans.stop_le (span : Spans buffer offset bytes stop) (within : offset ≤ buffer.length) :
    stop ≤ buffer.length := by
  have fits := span.isPrefix.length_le
  rw [List.length_drop] at fits
  rw [span.stop_eq]
  omega

/-- Bytes that end where others begin stand there as one. -/
theorem Spans.append (front : Spans buffer offset bytes mid) (back : Spans buffer mid bytes' stop) :
    Spans buffer offset (bytes ++ bytes') stop := by
  obtain ⟨rest, e⟩ := front.isPrefix
  obtain ⟨rest', e'⟩ := back.isPrefix
  have behind := drop_add_of_append e.symm
  rw [← front.stop_eq, ← e'] at behind
  refine ⟨⟨rest', ?_⟩, ?_⟩
  · rw [← e, ← behind, List.append_assoc]
  · rw [back.stop_eq, front.stop_eq, List.length_append, Nat.add_assoc]

theorem spans_of_readByte {b : UInt8} (h : readByte buffer offset = .ok (b, stop)) :
    Spans buffer offset [b] stop := by
  unfold readByte at h
  split at h
  · rename_i a rest e
    cases h
    exact ⟨⟨rest, e.symm⟩, rfl⟩
  · cases h

theorem spans_of_read16 {w : UInt16} (h : read16 buffer offset = .ok (w, stop)) :
    Spans buffer offset (bytes16 w) stop := by
  unfold read16 at h
  split at h
  · rename_i a b rest e
    cases h
    rw [bytes16_word16]
    exact ⟨⟨rest, e.symm⟩, rfl⟩
  · cases h

theorem spans_of_read32 {w : UInt32} (h : read32 buffer offset = .ok (w, stop)) :
    Spans buffer offset (bytes32 w) stop := by
  unfold read32 at h
  split at h
  · rename_i a b c d rest e
    cases h
    rw [bytes32_word32]
    exact ⟨⟨rest, e.symm⟩, rfl⟩
  · cases h

end

end SatLink.Wire

namespace SatLink.Frame.Fcs

/-! ## 5. The check sequence -/

theorem ofBytes_eq_word16 (low high : UInt8) : ofBytes low high = Wire.word16 high low :=
  UInt16.or_comm ..

theorem toBytes_eq_reverse (fcs : UInt16) : toBytes fcs = (Wire.bytes16 fcs).reverse := rfl

@[simp] theorem ofBytes_toBytes (fcs : UInt16) : ofBytes fcs.toUInt8 (fcs >>> 8).toUInt8 = fcs := by
  rw [ofBytes_eq_word16, Wire.word16_bytes]

@[simp] theorem toBytes_ofBytes (low high : UInt8) : toBytes (ofBytes low high) = [low, high] := by
  rw [ofBytes_eq_word16, toBytes_eq_reverse, Wire.bytes16_word16]
  rfl

end SatLink.Frame.Fcs
