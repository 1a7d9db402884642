import SatLink.Bit.Cursor
import SatLink.Proofs.Byte

/-!
# Bytes, bits and a writer's buffer

* `wholeBytes_bitsOf_append`, `bitsOf_wholeBytes_eq_take` — bytes and their bits are the same, up to
  bits that fill no byte;
* `Writer.Holds` — what a writer's buffer holds at any time: the bits written so far, zeros up to
  the end of the byte that takes the next bit, and behind that what the buffer held before;
* `Writer.Holds.writeBits` — writing bits that fit keeps that up, and refuses none of them.
-/

namespace SatLink.Bit

/-! ## 1. Bits as bytes and back -/

theorem byteOfBits_bitsOfByte : ∀ b : UInt8, byteOfBits (bitsOfByte b) = b := by
  decide +kernel

theorem bitsOfByte_byteOfBits : ∀ b7 b6 b5 b4 b3 b2 b1 b0 : Bool,
    bitsOfByte (byteOfBits [b7, b6, b5, b4, b3, b2, b1, b0]) =
      [b7, b6, b5, b4, b3, b2, b1, b0] := by
  decide +kernel

theorem wholeBytes_of_short {bits : List Bool} (short : bits.length < 8) :
    wholeBytes bits = [] := by
  unfold wholeBytes
  split
  · simp only [List.length_cons] at short
    omega
  · rfl

/-- **The bytes of bits are the bytes they are the bits of**; what fills no byte is dropped. -/
theorem wholeBytes_bitsOf_append (bytes : List UInt8) {rest : List Bool} (short : rest.length < 8) :
    wholeBytes (bitsOf bytes ++ rest) = bytes := by
  induction bytes with
  | nil => exact wholeBytes_of_short short
  | cons b bytes ih =>
      rw [bitsOf_cons, List.append_assoc]
      show byteOfBits (bitsOfByte b) :: wholeBytes (bitsOf bytes ++ rest) = b :: bytes
      rw [byteOfBits_bitsOfByte, ih]

theorem bitsOf_injective {xs ys : List UInt8} (h : bitsOf xs = bitsOf ys) : xs = ys := by
  have short : ([] : List Bool).length < 8 := by decide
  rw [← wholeBytes_bitsOf_append xs short, h, wholeBytes_bitsOf_append ys short]

/-- The bytes of bits hold all of them but those that fill no byte. -/
theorem bitsOf_wholeBytes_eq_take (bits : List Bool) :
    bitsOf (wholeBytes bits) = bits.take (8 * (bits.length / 8)) := by
  fun_induction wholeBytes bits with
  | case1 b7 b6 b5 b4 b3 b2 b1 b0 rest ih =>
      have count : 8 * ((b7 :: b6 :: b5 :: b4 :: b3 :: b2 :: b1 :: b0 :: rest).length / 8) =
          8 * (rest.length / 8) + 8 := by
        simp only [List.length_cons]
        omega
      rw [bitsOf_cons, bitsOfByte_byteOfBits, ih, count]
      rfl
  | case2 bits few =>
      have short : bits.length < 8 := by
        match bits with
        | [] | [_] | [_, _] | [_, _, _] | [_, _, _, _] | [_, _, _, _, _] | [_, _, _, _, _, _]
        | [_, _, _, _, _, _, _] => simp only [List.length_cons, List.length_nil]; decide
        | b7 :: b6 :: b5 :: b4 :: b3 :: b2 :: b1 :: b0 :: rest =>
            exact absurd rfl (few b7 b6 b5 b4 b3 b2 b1 b0 rest)
      rw [Nat.div_eq_of_lt short]
      rfl

theorem length_wholeBytes (bits : List Bool) : (wholeBytes bits).length = bits.length / 8 := by
  have len := congrArg List.length (bitsOf_wholeBytes_eq_take bits)
  rw [length_bitsOf, List.length_take] at len
  omega

/-- Bits that fill whole bytes are the bits of these. -/
theorem bitsOf_wholeBytes (bits : List Bool) (whole : bits.length % 8 = 0) :
    bitsOf (wholeBytes bits) = bits := by
  rw [bitsOf_wholeBytes_eq_take, List.take_of_length_le]
  omega

/-- Zeros up to the next byte. -/
def padding (bits : List Bool) : List Bool := List.replicate ((8 - bits.length % 8) % 8) false

theorem length_padding_lt (bits : List Bool) : (padding bits).length < 8 := by
  rw [padding, List.length_replicate]
  omega

theorem padding_append (bytes : List UInt8) (bits : List Bool) :
    padding (bitsOf bytes ++ bits) = padding bits := by
  rw [padding, padding, List.length_append, length_bitsOf, Nat.mul_add_mod]

/-- The bytes that hold some bits, the last of them filled with zeros. -/
def padded (bits : List Bool) : List UInt8 := wholeBytes (bits ++ padding bits)

theorem bitsOf_padded (bits : List Bool) : bitsOf (padded bits) = bits ++ padding bits := by
  apply bitsOf_wholeBytes
  rw [List.length_append, padding, List.length_replicate]
  omega

theorem length_padded (bits : List Bool) : (padded bits).length = (bits.length + 7) / 8 := by
  have len := length_bitsOf (padded bits)
  rw [bitsOf_padded, List.length_append, padding, List.length_replicate] at len
  omega

/-! ## 2. A writer's buffer -/

/-- The bits of a disjunction of bytes, one by one. -/
theorem bitsOfByte_or (a b : UInt8) :
    bitsOfByte (a ||| b) = List.zipWith (· || ·) (bitsOfByte a) (bitsOfByte b) := by
  simp only [bitsOfByte, UInt8.toNat_or, Nat.testBit_or, List.zipWith_cons_cons,
    List.zipWith_nil_right]

theorem bitsOfByte_bit : ∀ k : Fin 8, bitsOfByte (0x80 >>> k.val.toUInt8) =
    List.replicate k.val false ++ true :: List.replicate (7 - k.val) false := by
  decide

theorem zipWith_or_zeros : ∀ bits : List Bool,
    List.zipWith (· || ·) bits (List.replicate bits.length false) = bits
  | [] => rfl
  | bit :: bits => by
      rw [List.length_cons, List.replicate_succ, List.zipWith_cons_cons, Bool.or_false,
        zipWith_or_zeros bits]

/-- Writing a bit into a byte that is zero from there on puts the bit behind the bits before it. -/
theorem bitsOfByte_write {b : UInt8} {k : Fin 8}
    (clean : (bitsOfByte b).drop k.val = List.replicate (8 - k.val) false) (bit : Bool) :
    bitsOfByte (if bit then b ||| (0x80 >>> k.val.toUInt8) else b) =
      (bitsOfByte b).take k.val ++ bit :: List.replicate (7 - k.val) false := by
  have parts := List.take_append_drop k.val (bitsOfByte b)
  rw [clean, show 8 - k.val = 7 - k.val + 1 by omega, List.replicate_succ] at parts
  cases bit with
  | false => exact parts.symm
  | true =>
      have len : ((bitsOfByte b).take k.val).length = k.val := by
        rw [List.length_take, length_bitsOfByte]
        omega
      have before := zipWith_or_zeros ((bitsOfByte b).take k.val)
      have behind := zipWith_or_zeros (List.replicate (7 - k.val) false)
      rw [len] at before
      rw [List.length_replicate] at behind
      show bitsOfByte (b ||| (0x80 >>> k.val.toUInt8)) = _
      generalize (bitsOfByte b).take k.val = front at parts len before
      rw [bitsOfByte_or, bitsOfByte_bit, ← parts,
        List.zipWith_append (by rw [len, List.length_replicate]), before, List.zipWith_cons_cons,
        behind]
      rfl

namespace Writer

theorem writeBits_cons (w : Writer) (bit : Bool) (bits : List Bool) : w.writeBits (bit :: bits) =
    ((w.writeBit bit).1 && ((w.writeBit bit).2.writeBits bits).1,
      ((w.writeBit bit).2.writeBits bits).2) := rfl

/-- What the buffer `out` has become once `bits` are written to it. -/
structure Holds (w : Writer) (out : List UInt8) (bits : List Bool) : Prop where
  length_eq : w.done.length + w.rest.length = out.length
  bits_eq : bits = bitsOf w.done.reverse ++ (bitsOf w.rest).take w.offset.val
  /-- The byte that takes the next bit is zero from there on, unless the next bit clears it. -/
  clean : ∀ slot rest, w.rest = slot :: rest → w.offset ≠ 0 →
    (bitsOfByte slot).drop w.offset.val = List.replicate (8 - w.offset.val) false
  opened : w.offset ≠ 0 → w.rest ≠ []
  untouched : w.rest.drop (if w.offset = 0 then 0 else 1) = out.drop w.bytesWritten

namespace Holds

variable {w : Writer} {out : List UInt8} {bits : List Bool}

theorem ofBuffer (out : List UInt8) : Holds (ofBuffer out) out [] where
  length_eq := Nat.zero_add _
  bits_eq := rfl
  clean := fun _ _ _ ne => absurd rfl ne
  opened := fun ne => absurd rfl ne
  untouched := rfl

theorem length_bits (h : Holds w out bits) :
    bits.length = 8 * w.done.length + w.offset.val := by
  rw [h.bits_eq, List.length_append, length_bitsOf, List.length_reverse, List.length_take,
    length_bitsOf]
  have lt := w.offset.isLt
  by_cases zero : w.offset = 0
  · rw [zero]
    simp
  · have pos := List.length_pos_iff.mpr (h.opened zero)
    omega

theorem rest_ne_nil (h : Holds w out bits) (fits : bits.length < 8 * out.length) : w.rest ≠ [] := by
  intro nothing
  have len := h.length_bits
  have total := h.length_eq
  by_cases zero : w.offset = 0
  · rw [zero] at len
    rw [nothing, List.length_nil] at total
    simp only [Fin.val_zero] at len
    omega
  · exact h.opened zero nothing

/-- Behind the byte that takes the next bit the buffer is as it was. -/
theorem tail_eq (h : Holds w out bits) : w.rest.drop 1 = out.drop (w.done.length + 1) := by
  have same := h.untouched
  unfold bytesWritten at same
  by_cases zero : w.offset = 0
  · rw [if_pos zero, List.drop_zero, Nat.add_zero] at same
    rw [same, List.drop_drop]
  · rw [if_neg zero] at same
    exact same

/-- The byte that takes the next bit, as that bit finds it: what is written of it, and zeros. -/
theorem exists_slot (h : Holds w out bits) (fits : bits.length < 8 * out.length) :
    ∃ old rest slot, w.rest = old :: rest ∧ (if w.offset = 0 then 0 else old) = slot ∧
      bits = bitsOf w.done.reverse ++ (bitsOfByte slot).take w.offset.val ∧
      (bitsOfByte slot).drop w.offset.val = List.replicate (8 - w.offset.val) false := by
  obtain ⟨old, rest, hrest⟩ := List.exists_cons_of_ne_nil (h.rest_ne_nil fits)
  have written := h.bits_eq
  have lt := w.offset.isLt
  refine ⟨old, rest, _, hrest, rfl, ?_⟩
  by_cases zero : w.offset = 0
  · rw [if_pos zero]
    rw [zero] at written ⊢
    exact ⟨written, rfl⟩
  · rw [if_neg zero]
    rw [hrest, bitsOf_cons, List.take_append_of_le_length (by rw [length_bitsOfByte]; omega)]
      at written
    exact ⟨written, h.clean old rest hrest zero⟩

/-- A byte that is finished is followed by untouched ones. -/
theorem push (h : Holds w out bits) {old : UInt8} {rest : List UInt8} (hrest : w.rest = old :: rest)
    (byte : UInt8) :
    Holds ⟨byte :: w.done, rest, 0⟩ out (bitsOf w.done.reverse ++ bitsOfByte byte) := by
  have total := h.length_eq
  have tail := h.tail_eq
  rw [hrest, List.length_cons] at total
  rw [hrest, List.drop_one, List.tail_cons] at tail
  refine ⟨?_, ?_, fun _ _ _ ne => absurd rfl ne, fun ne => absurd rfl ne, tail⟩
  · show (byte :: w.done).length + rest.length = out.length
    rw [← total, List.length_cons]
    omega
  · show _ = bitsOf (byte :: w.done).reverse ++ []
    rw [List.append_nil, List.reverse_cons, bitsOf_append, bitsOf_cons, bitsOf_nil, List.append_nil]

/-- A byte that is not finished takes the next bit. -/
theorem extend (h : Holds w out bits) {old byte : UInt8} {rest : List UInt8} {prior : List Bool}
    (hrest : w.rest = old :: rest) (below : w.offset.val < 7) (len : prior.length = w.offset.val)
    {bit : Bool}
    (slot : bitsOfByte byte = prior ++ bit :: List.replicate (7 - w.offset.val) false) :
    Holds { w with rest := byte :: rest, offset := w.offset + 1 } out
      (bitsOf w.done.reverse ++ prior ++ [bit]) := by
  have total := h.length_eq
  have tail := h.tail_eq
  rw [hrest, List.length_cons] at total
  rw [hrest, List.drop_one, List.tail_cons] at tail
  have next : (w.offset + 1).val = w.offset.val + 1 :=
    Fin.val_add_one_of_lt (Fin.lt_def.mpr below)
  have ne : w.offset + 1 ≠ 0 := by
    intro zero
    rw [zero] at next
    cases next
  have slot' : bitsOfByte byte = (prior ++ [bit]) ++ List.replicate (7 - w.offset.val) false := by
    rw [slot, List.append_assoc]
    rfl
  have len' : (prior ++ [bit]).length = w.offset.val + 1 := by
    rw [List.length_append, len]
    rfl
  refine ⟨total, ?_, ?_, fun _ => List.cons_ne_nil _ _, ?_⟩
  · show _ = bitsOf w.done.reverse ++ (bitsOf (byte :: rest)).take (w.offset + 1).val
    rw [next, bitsOf_cons, slot', List.append_assoc (prior ++ [bit]), List.take_left' len',
      List.append_assoc]
  · intro byte' rest' e _
    cases e
    show (bitsOfByte byte).drop (w.offset + 1).val = List.replicate (8 - (w.offset + 1).val) false
    rw [next, slot', List.drop_left' len', show 8 - (w.offset.val + 1) = 7 - w.offset.val by omega]
  · show (byte :: rest).drop (if w.offset + 1 = 0 then 0 else 1) =
      out.drop (w.done.length + if w.offset + 1 = 0 then 0 else 1)
    rw [if_neg ne]
    exact tail

/-- **Writing a bit** appends it. -/
theorem writeBit (h : Holds w out bits) (fits : bits.length < 8 * out.length) (bit : Bool) :
    (w.writeBit bit).1 = true ∧ Holds (w.writeBit bit).2 out (bits ++ [bit]) := by
  obtain ⟨old, rest, slot, hrest, hslot, written, clean⟩ := h.exists_slot fits
  have byte := bitsOfByte_write clean bit
  have lt := w.offset.isLt
  have len : ((bitsOfByte slot).take w.offset.val).length = w.offset.val := by
    rw [List.length_take, length_bitsOfByte]
    omega
  unfold Writer.writeBit
  rw [hrest]
  dsimp only
  rw [hslot]
  refine ⟨rfl, ?_⟩
  by_cases last : w.offset = 7
  · rw [if_pos last, written, List.append_assoc]
    have full := byte
    rw [show 7 - w.offset.val = 0 by rw [last]; rfl] at full
    rw [show (bitsOfByte slot).take w.offset.val ++ [bit] = _ from full.symm]
    exact h.push hrest _
  · have below : w.offset.val < 7 := by
      have : w.offset.val ≠ 7 := fun e => last (Fin.ext e)
      omega
    rw [if_neg last, written]
    exact h.extend hrest below len byte

/-- **Writing bits that fit** appends them all, and refuses none. -/
theorem writeBits {more : List Bool} (h : Holds w out bits)
    (fits : bits.length + more.length ≤ 8 * out.length) :
    (w.writeBits more).1 = true ∧ Holds (w.writeBits more).2 out (bits ++ more) := by
  induction more generalizing w bits with
  | nil =>
      rw [List.append_nil]
      exact ⟨rfl, h⟩
  | cons bit more ih =>
      rw [List.length_cons] at fits
      obtain ⟨first, h⟩ := h.writeBit (by omega) bit
      have len : (bits ++ [bit]).length = bits.length + 1 := List.length_append
      obtain ⟨all, h⟩ := ih h (by omega)
      rw [List.append_assoc] at h
      rw [writeBits_cons, first, all]
      exact ⟨rfl, h⟩

/-- Moving to the next byte fills the last one with zeros. -/
theorem align (h : Holds w out bits) :
    w.align.offset = 0 ∧ Holds w.align out (bits ++ padding bits) := by
  have lt := w.offset.isLt
  have zeros : padding bits = List.replicate ((8 - w.offset.val) % 8) false := by
    rw [padding, h.length_bits]
    congr 1
    omega
  by_cases zero : w.offset = 0
  · have same : w.align = w := by
      unfold Writer.align
      split <;> simp [zero]
    rw [same, zeros, zero]
    refine ⟨rfl, ?_⟩
    show Holds w out (bits ++ [])
    rw [List.append_nil]
    exact h
  · obtain ⟨slot, rest, hrest⟩ := List.exists_cons_of_ne_nil (h.opened zero)
    have step : w.align = { done := slot :: w.done, rest := rest, offset := 0 } := by
      unfold Writer.align
      rw [hrest]
      exact if_neg zero
    have pos : w.offset.val ≠ 0 := fun e => zero (Fin.ext e)
    have filled : bits ++ padding bits = bitsOf w.done.reverse ++ bitsOfByte slot := by
      have within : w.offset.val ≤ (bitsOfByte slot).length := Nat.le_of_lt lt
      rw [zeros, Nat.mod_eq_of_lt (by omega), ← h.clean slot rest hrest zero, h.bits_eq, hrest,
        bitsOf_cons, List.take_append_of_le_length within, List.append_assoc, List.take_append_drop]
    rw [step, filled]
    exact ⟨rfl, h.push hrest slot⟩

/-- Writing a byte on a byte boundary appends its bits. -/
theorem writeByte (h : Holds w out bits) (aligned : w.offset = 0)
    (fits : bits.length < 8 * out.length) (byte : UInt8) :
    (w.writeByte byte).1 = true ∧ (w.writeByte byte).2.offset = 0 ∧
      Holds (w.writeByte byte).2 out (bits ++ bitsOfByte byte) := by
  obtain ⟨old, rest, hrest⟩ := List.exists_cons_of_ne_nil (h.rest_ne_nil fits)
  have step : w.writeByte byte = (true, { done := byte :: w.done, rest := rest, offset := 0 }) := by
    unfold Writer.writeByte
    rw [hrest, ← aligned]
  have written : bits = bitsOf w.done.reverse := by
    rw [h.bits_eq, aligned]
    exact List.append_nil _
  rw [step, written]
  exact ⟨rfl, rfl, h.push hrest byte⟩

/-- On a byte boundary, the buffer is the bytes of the written bits and what was behind them. -/
theorem buffer_eq (h : Holds w out bits) (aligned : w.offset = 0) {bytes : List UInt8}
    (whole : bits = bitsOf bytes) :
    w.bytesWritten = bytes.length ∧ w.buffer = bytes ++ out.drop bytes.length := by
  have done : w.done.reverse = bytes := by
    apply bitsOf_injective
    rw [← whole, h.bits_eq, aligned]
    exact (List.append_nil _).symm
  have count : w.bytesWritten = bytes.length := by
    rw [bytesWritten, if_pos aligned, ← done, List.length_reverse]
    rfl
  have rest := h.untouched
  rw [if_pos aligned, List.drop_zero, count] at rest
  exact ⟨count, by rw [buffer, done, rest]⟩

end Holds

end Writer

end SatLink.Bit
