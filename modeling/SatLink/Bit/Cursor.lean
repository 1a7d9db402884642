/-!
# Bits of a byte string, most significant first

Two cursors walk a byte string bit by bit:

* `bitsOf` — the bits of a byte string as a list, the view everything here is stated through;
* `Reader` — the bytes still to be read and the offset into the first of them (`Reader.bits`);
* `Writer` — the bytes already finished, latest first, and the rest of the buffer, whose first byte
  takes the next bit (`Writer.buffer`).

Both store the rest of the buffer itself and not an index into it, so no position can run past the
end.
-/

namespace SatLink.Bit

/-! ## 1. Bytes as bits -/

/-- The eight bits of a byte, most significant first. -/
def bitsOfByte (b : UInt8) : List Bool :=
  [b.toNat.testBit 7, b.toNat.testBit 6, b.toNat.testBit 5, b.toNat.testBit 4,
    b.toNat.testBit 3, b.toNat.testBit 2, b.toNat.testBit 1, b.toNat.testBit 0]

/-- The bits of a byte string. -/
def bitsOf (bytes : List UInt8) : List Bool := bytes.flatMap bitsOfByte

@[simp] theorem length_bitsOfByte (b : UInt8) : (bitsOfByte b).length = 8 := rfl

@[simp] theorem bitsOf_nil : bitsOf [] = [] := rfl

@[simp] theorem bitsOf_cons (b : UInt8) (bytes : List UInt8) :
    bitsOf (b :: bytes) = bitsOfByte b ++ bitsOf bytes := by
  simp [bitsOf]

@[simp] theorem bitsOf_append (xs ys : List UInt8) :
    bitsOf (xs ++ ys) = bitsOf xs ++ bitsOf ys := by
  simp [bitsOf]

theorem length_bitsOf (bytes : List UInt8) : (bitsOf bytes).length = 8 * bytes.length := by
  induction bytes with
  | nil => rfl
  | cons b bytes ih => simp [ih]; omega

/-! ## 2. Bits as bytes -/

/-- The byte a list of bits spells, most significant first; a short list is followed by zeros. -/
def byteOfBits (bits : List Bool) : UInt8 :=
  (bits.take 8).zipIdx.foldl (fun b (bit, i) => if bit then b ||| (0x80 >>> i.toUInt8) else b) 0

/-- The whole bytes a list of bits spells; bits that fill no byte are dropped. -/
def wholeBytes : List Bool → List UInt8
  | b7 :: b6 :: b5 :: b4 :: b3 :: b2 :: b1 :: b0 :: rest =>
      byteOfBits [b7, b6, b5, b4, b3, b2, b1, b0] :: wholeBytes rest
  | _ => []

/-! ## 3. Reading -/

/-- A read position: the bytes not finished yet, and how many bits of the first are read. -/
structure Reader where
  bytes : List UInt8
  offset : Fin 8 := 0

namespace Reader

/-- A reader at the start of a byte string. -/
def ofBytes (bytes : List UInt8) : Reader := ⟨bytes, 0⟩

/-- How many bits are left; an exhausted reader has none. -/
def remaining (r : Reader) : Nat :=
  match r.bytes with
  | [] => 0
  | _ => 8 * r.bytes.length - r.offset.val

/-- The next bit, and the reader behind it. -/
def next? (r : Reader) : Option (Bool × Reader) :=
  match r.bytes with
  | [] => none
  | b :: rest =>
      some (b.toNat.testBit (7 - r.offset.val),
        { bytes := if r.offset = 7 then rest else b :: rest, offset := r.offset + 1 })

/-- The bits a reader still gives. -/
def bits (r : Reader) : List Bool := (bitsOf r.bytes).drop r.offset.val

@[simp] theorem bits_ofBytes (bytes : List UInt8) : (ofBytes bytes).bits = bitsOf bytes := rfl

@[simp] theorem length_bits (r : Reader) : r.bits.length = r.remaining := by
  cases h : r.bytes <;> simp [bits, remaining, h, length_bitsOf]
  omega

theorem next?_eq_none_iff (r : Reader) : r.next? = none ↔ r.bits = [] := by
  rw [← List.length_eq_zero_iff, length_bits]
  have lt := r.offset.isLt
  cases h : r.bytes <;> simp [next?, remaining, h]
  omega

/-- Reading takes the first of the bits that are left. -/
theorem bits_of_next? {r s : Reader} {bit : Bool} (h : r.next? = some (bit, s)) :
    r.bits = bit :: s.bits := by
  obtain ⟨bytes, offset⟩ := r
  cases bytes with
  | nil => simp [next?] at h
  | cons b rest =>
      simp only [next?, Option.some.injEq, Prod.mk.injEq] at h
      obtain ⟨rfl, rfl⟩ := h
      match offset with
      | 0 => rfl
      | 1 => rfl
      | 2 => rfl
      | 3 => rfl
      | 4 => rfl
      | 5 => rfl
      | 6 => rfl
      | 7 => rfl

end Reader

/-! ## 4. Writing -/

/-- A write position in a buffer: the finished bytes, latest first, the bytes not finished yet, and
    how many bits of the first of these are written. -/
structure Writer where
  done : List UInt8
  rest : List UInt8
  offset : Fin 8 := 0

namespace Writer

/-- A writer at the start of a buffer, which keeps its old contents until they are overwritten. -/
def ofBuffer (buffer : List UInt8) : Writer := ⟨[], buffer, 0⟩

/-- The whole buffer as it stands. -/
def buffer (w : Writer) : List UInt8 := w.done.reverse ++ w.rest

/-- How many bytes are touched, a partial last byte included. -/
def bytesWritten (w : Writer) : Nat := w.done.length + (if w.offset = 0 then 0 else 1)

/-- Writes one bit; the first bit of a byte clears what the byte held. A full buffer refuses the bit
    and stays as it is. -/
def writeBit (w : Writer) (bit : Bool) : Bool × Writer :=
  match w.rest with
  | [] => (false, w)
  | old :: rest =>
      let cleared : UInt8 := if w.offset = 0 then 0 else old
      let slot := if bit then cleared ||| (0x80 >>> w.offset.val.toUInt8) else cleared
      (true,
        if w.offset = 7 then { done := slot :: w.done, rest := rest, offset := 0 }
        else { w with rest := slot :: rest, offset := w.offset + 1 })

/-- Writes a whole byte, for a writer on a byte boundary. -/
def writeByte (w : Writer) (byte : UInt8) : Bool × Writer :=
  match w.rest with
  | [] => (false, w)
  | _ :: rest => (true, { w with done := byte :: w.done, rest := rest })

/-- Moves to the start of the next byte; the bits left over stay zero. -/
def align (w : Writer) : Writer :=
  match w.rest with
  | slot :: rest =>
      if w.offset = 0 then w else { done := slot :: w.done, rest := rest, offset := 0 }
  | [] => w

/-- Writes bits one after the other; `true` when every one of them was taken. -/
def writeBits (w : Writer) : List Bool → Bool × Writer
  | [] => (true, w)
  | bit :: bits =>
      let (fits, w) := w.writeBit bit
      let (allFit, w) := w.writeBits bits
      (fits && allFit, w)

end Writer

end SatLink.Bit
