import SatLink.Proofs.Bit.Cursor

/-!
# Whole buffers bit by bit

A writer takes bits as long as the buffer has room for them, and a reader gives those of its bytes
until none is left.

* `Reader.reads` — the answers to some calls in a row; `Reader.reads_eq` — they are the bits that
  are left, and nothing behind these;
* `copyBits` — the loop that writes what it reads; `copyBits_eq` — it writes the bits that are left;
* `Writer.Holds.ofBuffer_writeBits`, `Writer.Holds.buffer_align`, `Writer.Holds.rest_eq_nil` — from
  the start of a buffer as many bits are taken as it has; they stand in it up to the next byte
  boundary, and behind the last of them there is no byte to write to;
* `cursors_keep_bits` — **what is written stands in the buffer, and what stands in bytes is read**.
-/

namespace SatLink.Bit

/-! ## 1. Reading -/

namespace Reader

/-- The answers to `n` calls in a row, and the reader behind them; one that has no bit left
    stays as it is. -/
def reads : Nat → Reader → List (Option Bool) × Reader
  | 0, r => ([], r)
  | n + 1, r =>
      match r.next? with
      | none => let (answers, s) := reads n r; (none :: answers, s)
      | some (bit, s) => let (answers, t) := reads n s; (some bit :: answers, t)

/-- **A reader answers with the bits that are left**, in their order, and then with nothing. -/
theorem reads_eq (n : Nat) (r : Reader) :
    (r.reads n).1 = (List.range n).map (fun i => r.bits[i]?) ∧
      (r.reads n).2.bits = r.bits.drop n := by
  induction n generalizing r with
  | zero => exact ⟨rfl, rfl⟩
  | succ n ih =>
      rw [List.range_succ_eq_map, List.map_cons, List.map_map, reads]
      match next : r.next? with
      | none =>
          obtain ⟨answers, left⟩ := ih r
          rw [r.next?_eq_none_iff.mp next] at answers left ⊢
          dsimp only
          rw [answers, left, List.drop_nil, List.drop_nil]
          exact ⟨rfl, rfl⟩
      | some (bit, s) =>
          obtain ⟨answers, left⟩ := ih s
          rw [bits_of_next? next]
          dsimp only
          rw [answers, left]
          exact ⟨rfl, rfl⟩

end Reader

/-! ## 2. Writing -/

/-- Zeros up to the next byte, counted from the bytes that are begun. -/
theorem padding_eq_replicate (bits : List Bool) :
    padding bits = List.replicate (8 * ((bits.length + 7) / 8) - bits.length) false := by
  rw [padding]
  congr 1
  omega

namespace Writer

/-- Behind the last byte a bit is refused. -/
theorem writeBit_of_rest_eq_nil {w : Writer} (full : w.rest = []) (bit : Bool) :
    w.writeBit bit = (false, w) := by
  unfold writeBit
  rw [full]

namespace Holds

variable {w : Writer} {out : List UInt8} {bits : List Bool}

/-- **From the start of a buffer** all bits are taken that fit. -/
theorem ofBuffer_writeBits (fits : bits.length ≤ 8 * out.length) :
    ((Writer.ofBuffer out).writeBits bits).1 = true ∧
      Holds ((Writer.ofBuffer out).writeBits bits).2 out bits :=
  (ofBuffer out).writeBits (by rwa [List.length_nil, Nat.zero_add])

/-- **On the next byte boundary** the buffer is the bits with zeros behind them, and what
    was there. -/
theorem buffer_align (h : Holds w out bits) : w.align.bytesWritten = (bits.length + 7) / 8 ∧
    w.align.buffer = padded bits ++ out.drop ((bits.length + 7) / 8) := by
  obtain ⟨boundary, filled⟩ := h.align
  have written := filled.buffer_eq boundary (bitsOf_padded bits).symm
  rwa [length_padded] at written

/-- Behind as many bits as the buffer has there is no byte to write to. -/
theorem rest_eq_nil (h : Holds w out bits) (full : bits.length = 8 * out.length) : w.rest = [] := by
  have written := h.length_bits
  have total := h.length_eq
  have within := w.offset.isLt
  exact List.length_eq_zero_iff.mp (by omega)

/-- Behind whole bytes a writer stands on a byte boundary. -/
theorem offset_eq_zero (h : Holds w out bits) (whole : bits.length % 8 = 0) : w.offset = 0 := by
  have written := h.length_bits
  have within := w.offset.isLt
  exact Fin.ext (show w.offset.val = 0 by omega)

end Holds

end Writer

/-! ## 3. Copying -/

/-- Writes the bits that a reader gives, one by one, until it has none left; `true` when every one
    of them was taken. -/
def copyBits (r : Reader) (w : Writer) : Bool × Writer :=
  match _ : r.next? with
  | none => (true, w)
  | some (bit, s) =>
      let (fits, w) := w.writeBit bit
      let (allFit, w) := copyBits s w
      (fits && allFit, w)
termination_by r.bits.length
decreasing_by
  rename_i next
  rw [Reader.bits_of_next? next]
  exact Nat.lt_succ_self _

/-- **Copying** writes the bits that are left. -/
theorem copyBits_eq (r : Reader) (w : Writer) : copyBits r w = w.writeBits r.bits := by
  fun_induction copyBits r w with
  | case1 r w next =>
      rw [r.next?_eq_none_iff.mp next]
      rfl
  | case2 r w bit s next fits v first allFit u rest ih =>
      rw [Reader.bits_of_next? next, Writer.writeBits_cons, first]
      dsimp only
      rw [← ih, rest]

/-- **From the start of a buffer** copying puts the bytes there. -/
theorem copyBits_ofBytes {bytes out : List UInt8} (fits : bytes.length ≤ out.length) :
    (copyBits (Reader.ofBytes bytes) (Writer.ofBuffer out)).1 = true ∧
      (copyBits (Reader.ofBytes bytes) (Writer.ofBuffer out)).2.bytesWritten = bytes.length ∧
      (copyBits (Reader.ofBytes bytes) (Writer.ofBuffer out)).2.buffer =
        bytes ++ out.drop bytes.length := by
  have len := length_bitsOf bytes
  have whole : (bitsOf bytes).length % 8 = 0 := by rw [len, Nat.mul_mod_right]
  have room : (bitsOf bytes).length ≤ 8 * out.length := by
    rw [len]
    exact Nat.mul_le_mul_left 8 fits
  obtain ⟨taken, holds⟩ := Writer.Holds.ofBuffer_writeBits room
  rw [copyBits_eq, Reader.bits_ofBytes]
  exact ⟨taken, holds.buffer_eq (holds.offset_eq_zero whole) rfl⟩

/-! ## 4. Whole buffers -/

/-- **What is written stands in the buffer, and what stands in bytes is read.** Bits that fit are
    all taken, whatever the buffer held before: they fill its first bytes, most significant bit
    first and with zeros up to the end of the last of these, and the bytes behind are as they were.
    A full buffer takes no further bit. A reader gives the bits of its bytes, then nothing, and
    always has those left that it has not given yet; so copying bit by bit copies the bytes. -/
theorem cursors_keep_bits :
    (∀ (out : List UInt8) (bits : List Bool), bits.length ≤ 8 * out.length →
      let written := (Writer.ofBuffer out).writeBits bits
      let aligned := written.2.align
      let count := (bits.length + 7) / 8
      written.1 = true ∧ aligned.bytesWritten = count ∧
        bitsOf (aligned.buffer.take count) =
          bits ++ List.replicate (8 * count - bits.length) false ∧
        aligned.buffer.drop count = out.drop count ∧
        (bits.length = 8 * out.length → ∀ bit, written.2.writeBit bit = (false, written.2)) ∧
        (count = out.length → ∀ bit, aligned.writeBit bit = (false, aligned))) ∧
    (∀ (bytes : List UInt8) (n : Nat),
      ((Reader.ofBytes bytes).reads n).1 = (List.range n).map (fun i => (bitsOf bytes)[i]?) ∧
        ((Reader.ofBytes bytes).reads n).2.remaining = 8 * bytes.length - n) ∧
    (∀ bytes out : List UInt8, bytes.length ≤ out.length →
      let copied := copyBits (Reader.ofBytes bytes) (Writer.ofBuffer out)
      copied.1 = true ∧ copied.2.bytesWritten = bytes.length ∧
        copied.2.buffer = bytes ++ out.drop bytes.length) := by
  refine ⟨fun out bits fits => ?_, fun bytes n => ?_, fun bytes out fits => copyBits_ofBytes fits⟩
  · intro written aligned count
    obtain ⟨taken, holds⟩ := Writer.Holds.ofBuffer_writeBits fits
    obtain ⟨touched, buffer⟩ := holds.buffer_align
    refine ⟨taken, touched, ?_, ?_, fun full => ?_, fun full => ?_⟩
    · rw [buffer, List.take_left' (length_padded bits), bitsOf_padded, padding_eq_replicate]
    · rw [buffer, List.drop_left' (length_padded bits)]
    · exact Writer.writeBit_of_rest_eq_nil (holds.rest_eq_nil full)
    · refine Writer.writeBit_of_rest_eq_nil (holds.align.2.rest_eq_nil ?_)
      rw [← bitsOf_padded, length_bitsOf, length_padded, ← full]
  · obtain ⟨answers, left⟩ := (Reader.ofBytes bytes).reads_eq n
    refine ⟨answers, ?_⟩
    rw [← Reader.length_bits, left, List.length_drop, Reader.bits_ofBytes, length_bitsOf]

/-- Eleven bits over two bytes of ones; the zeros behind them take up the rest of the buffer. -/
theorem cursors_keep_bits_over_ones :
    let bits := [true, false, true, true, false, false, true, false, true, false, true]
    let aligned := ((Writer.ofBuffer [0xFF, 0xFF]).writeBits bits).2.align
    bits.length ≤ 8 * [(0xFF : UInt8), 0xFF].length ∧
      bitsOf (aligned.buffer.take 2) = bits ++ List.replicate 5 false ∧
      (∀ bit, aligned.writeBit bit = (false, aligned)) ∧
      ((Reader.ofBytes [0x81]).reads 9).1 =
        [some true, some false, some false, some false, some false,
        some false, some false, some true, none] ∧
      (copyBits (Reader.ofBytes [0x81]) (Writer.ofBuffer [0xFF, 0xFF])).2.buffer =
        [0x81, 0xFF] := by
  intro bits aligned
  obtain ⟨writes, reads, copies⟩ := cursors_keep_bits
  have fits : bits.length ≤ 8 * [(0xFF : UInt8), 0xFF].length := by decide
  have count : (bits.length + 7) / 8 = 2 := by decide
  obtain ⟨-, -, stands, -, -, full⟩ := writes [0xFF, 0xFF] bits fits
  rw [count] at stands full
  exact ⟨fits, stands, full rfl, (reads [0x81] 9).1, (copies [0x81] [0xFF, 0xFF] (by decide)).2.2⟩

end SatLink.Bit
