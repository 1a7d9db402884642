import SatLink.Proofs.Frame.Stuffing
import SatLink.Proofs.InPlace.Machine

/-!
# Stuffing in place

A frame is stuffed right into a buffer of the caller: every bit is in the buffer as soon as it is
written, and whether all of them fit is asked once more behind the last one. By then the buffer is
no longer what it was, so this refusal would be seen; it never comes, since the length was counted
before the first bit was written. Unstuffing works on memory of its own, and copies what comes out
at the end.

* `Pen` — a position in the caller's buffer, `penOf` — that of a writer;
* `run_writeBit`, `run_writeByte` — **a pen leaves in the buffer what a writer leaves**,
  step by step;
* `run_turns` — so does the loop over a body;
* `run_stuffing`, `run_unstuffing` — the two operations.
-/

namespace SatLink.InPlace

open SatLink.Bit
open SatLink.Bit.Writer (writeBits_cons)
open SatLink.Frame (flag body hasFlags stuffedLength stuffBits written unstuffed)

/-! ## 1. A pen in the caller's buffer -/

/-- A position in a buffer: a byte, and how many bits of it are written. -/
structure Pen where
  byte : Nat := 0
  bit : Nat := 0

namespace Pen

/-- Writes one bit; the first bit of a byte clears what the byte held. There is nothing to write to
    behind the last byte. -/
def writeBit (p : Pen) (value : Bool) : Editing (List UInt8) (Bool × Pen) := do
  match (← get)[p.byte]? with
  | none => pure (false, p)
  | some old =>
      let cleared : UInt8 := if p.bit = 0 then 0 else old
      write p.byte [if value then cleared ||| (0x80 >>> p.bit.toUInt8) else cleared]
      pure (true, if p.bit + 1 = 8 then ⟨p.byte + 1, 0⟩ else ⟨p.byte, p.bit + 1⟩)

/-- Writes a whole byte, on a byte boundary. -/
def writeByte (p : Pen) (value : UInt8) : Editing (List UInt8) (Bool × Pen) := do
  match (← get)[p.byte]? with
  | none => pure (false, p)
  | some _ =>
      write p.byte [value]
      pure (true, { p with byte := p.byte + 1 })

/-- Moves to the start of the next byte. -/
def align (p : Pen) : Pen := if p.bit = 0 then p else ⟨p.byte + 1, 0⟩

/-- How many bytes are touched. -/
def bytesWritten (p : Pen) : Nat := p.byte + (if p.bit = 0 then 0 else 1)

end Pen

/-- The position of a writer. -/
def penOf (w : Writer) : Pen := ⟨w.done.length, w.offset.val⟩

section

variable {w : Writer}

theorem getElem?_buffer (w : Writer) : w.buffer[(penOf w).byte]? = w.rest[0]? := by
  show (w.done.reverse ++ w.rest)[w.done.length]? = _
  rw [List.getElem?_append_right (Nat.le_of_eq List.length_reverse), List.length_reverse,
    Nat.sub_self]

/-- Writing over the byte that a writer is at. -/
theorem run_write_slot {old : UInt8} {rest : List UInt8} (here : w.rest = old :: rest)
    (slot : UInt8) :
    run (write (penOf w).byte [slot]) w.buffer = some (.ok (), w.done.reverse ++ slot :: rest) := by
  have front : w.done.reverse.length = (penOf w).byte := List.length_reverse
  have fits : (penOf w).byte + [slot].length ≤ w.buffer.length := by
    rw [Writer.buffer, here, List.length_append, front, List.length_cons]
    exact Nat.add_le_add_left (Nat.le_add_left 1 _) _
  have put : putAt w.buffer (penOf w).byte [slot] = w.done.reverse ++ slot :: rest := by
    rw [Writer.buffer, here, ← front]
    have one : [old].length = [slot].length := rfl
    exact putAt_append one
  rw [run_write fits, put]

/-- **A bit** is in the buffer as soon as it is written. -/
theorem run_writeBit (w : Writer) (value : Bool) : run ((penOf w).writeBit value) w.buffer =
    some (.ok ((w.writeBit value).1, penOf (w.writeBit value).2), (w.writeBit value).2.buffer) := by
  unfold Pen.writeBit Writer.writeBit
  rw [run_bind_of_ok (run_get _), getElem?_buffer]
  match here : w.rest with
  | [] => rfl
  | old :: rest =>
      have clears : (penOf w).bit = 0 ↔ w.offset = 0 := Fin.val_eq_zero_iff
      show run (write _ _ >>= _) _ = _
      rw [run_bind_of_ok (run_write_slot here _)]
      simp only [clears]
      by_cases last : w.offset = 7
      · have full : (penOf w).bit + 1 = 8 := congrArg (·.val + 1) last
        rw [if_pos full, if_pos last]
        simp [Writer.buffer, penOf]
      · have within := w.offset.isLt
        have below : w.offset.val < 7 := by
          have other : w.offset.val ≠ 7 := fun same => last (Fin.ext same)
          omega
        have next : (w.offset + 1).val = w.offset.val + 1 :=
          Fin.val_add_one_of_lt (Fin.lt_def.mpr below)
        have partly : (penOf w).bit + 1 ≠ 8 := Nat.ne_of_lt (Nat.succ_lt_succ below)
        rw [if_neg partly, if_neg last]
        simp [Writer.buffer, penOf, next]

/-- So is a byte. -/
theorem run_writeByte (w : Writer) (value : UInt8) : run ((penOf w).writeByte value) w.buffer =
    some (.ok ((w.writeByte value).1, penOf (w.writeByte value).2),
      (w.writeByte value).2.buffer) := by
  unfold Pen.writeByte Writer.writeByte
  rw [run_bind_of_ok (run_get _), getElem?_buffer]
  match here : w.rest with
  | [] => rfl
  | old :: rest =>
      show run (write _ _ >>= _) _ = _
      rw [run_bind_of_ok (run_write_slot here value)]
      simp [Writer.buffer, penOf]

theorem bytesWritten_penOf (w : Writer) : (penOf w).bytesWritten = w.bytesWritten := by
  unfold Pen.bytesWritten Writer.bytesWritten penOf
  simp only [Fin.val_eq_zero_iff]

/-- A byte that is begun is there. -/
theorem opened_writeBits (bits : List Bool) (opened : w.offset ≠ 0 → w.rest ≠ []) :
    (w.writeBits bits).2.offset ≠ 0 → (w.writeBits bits).2.rest ≠ [] := by
  induction bits generalizing w with
  | nil => exact opened
  | cons bit bits ih =>
      refine ih (w := (w.writeBit bit).2) ?_
      unfold Writer.writeBit
      match here : w.rest with
      | [] => exact fun begun => absurd here (opened begun)
      | old :: rest =>
          dsimp only
          split
          · exact fun begun => absurd rfl begun
          · exact fun _ => List.cons_ne_nil _ _

/-- Moving on to the next byte writes nothing. -/
theorem align_of_opened (opened : w.offset ≠ 0 → w.rest ≠ []) :
    (penOf w).align = penOf w.align ∧ w.align.buffer = w.buffer := by
  unfold Pen.align Writer.align
  match here : w.rest with
  | [] =>
      have zero : w.offset = 0 := Classical.byContradiction fun begun => opened begun here
      have start : (penOf w).bit = 0 := congrArg Fin.val zero
      rw [if_pos start]
      exact ⟨rfl, rfl⟩
  | slot :: rest =>
      dsimp only
      by_cases zero : w.offset = 0
      · have start : (penOf w).bit = 0 := congrArg Fin.val zero
        rw [if_pos start, if_pos zero]
        exact ⟨rfl, rfl⟩
      · have begun : (penOf w).bit ≠ 0 := fun start => zero (Fin.ext start)
        rw [if_neg begun, if_neg zero]
        refine ⟨rfl, ?_⟩
        rw [Writer.buffer, Writer.buffer, here, List.reverse_cons, List.append_assoc]
        rfl

end

/-! ## 2. The body of a frame -/

/-- How far the loop over a body is: whether all bits were taken, the run of ones, and the pen. -/
structure Progress where
  fits : Bool
  ones : Nat
  pen : Pen

/-- Writes one bit of the body, and a zero behind a fifth one. -/
def turn (s : Progress) (bit : Bool) : Editing (List UInt8) Progress := do
  let (first, pen) ← s.pen.writeBit bit
  if bit then
    if s.ones + 1 = 5 then
      let (second, pen) ← pen.writeBit false
      pure ⟨s.fits && first && second, 0, pen⟩
    else pure ⟨s.fits && first, s.ones + 1, pen⟩
  else pure ⟨s.fits && first, 0, pen⟩

/-- **The loop over a body** leaves what writing the stuffed bits leaves. -/
theorem run_turns (w : Writer) (fits : Bool) {ones : Nat} (few : ones < 5) (bits : List Bool) :
    ∃ ones', run (bits.foldlM turn ⟨fits, ones, penOf w⟩) w.buffer =
      some (.ok ⟨fits && (w.writeBits (stuffBits ones bits)).1, ones',
        penOf (w.writeBits (stuffBits ones bits)).2⟩,
        (w.writeBits (stuffBits ones bits)).2.buffer) := by
  induction bits generalizing w fits ones with
  | nil =>
      refine ⟨ones, ?_⟩
      rw [List.foldlM_nil, stuffBits, Writer.writeBits, Bool.and_true]
      rfl
  | cons bit bits ih =>
      rw [List.foldlM_cons]
      cases bit with
      | false =>
          have first : run (turn ⟨fits, ones, penOf w⟩ false) w.buffer = some
              (.ok ⟨fits && (w.writeBit false).1, 0, penOf (w.writeBit false).2⟩,
                (w.writeBit false).2.buffer) := run_bind_of_ok (run_writeBit w false)
          obtain ⟨ones', rest⟩ := ih (w.writeBit false).2 (fits && (w.writeBit false).1)
            (show 0 < 5 by decide)
          refine ⟨ones', ?_⟩
          rw [run_bind_of_ok first, rest, stuffBits, writeBits_cons, Bool.and_assoc]
      | true =>
          by_cases fifth : ones = 4
          · subst fifth
            have first : run (turn ⟨fits, 4, penOf w⟩ true) w.buffer = some
                (.ok ⟨fits && (w.writeBit true).1 && ((w.writeBit true).2.writeBit false).1, 0,
                  penOf ((w.writeBit true).2.writeBit false).2⟩,
                  ((w.writeBit true).2.writeBit false).2.buffer) :=
              (run_bind_of_ok (run_writeBit w true)).trans (run_bind_of_ok (run_writeBit _ false))
            obtain ⟨ones', rest⟩ := ih ((w.writeBit true).2.writeBit false).2
              (fits && (w.writeBit true).1 && ((w.writeBit true).2.writeBit false).1)
              (show 0 < 5 by decide)
            refine ⟨ones', ?_⟩
            rw [run_bind_of_ok first, rest, stuffBits, if_pos rfl, writeBits_cons, writeBits_cons,
              Bool.and_assoc, Bool.and_assoc]
          · have fewer : ones + 1 < 5 := by omega
            have first : run (turn ⟨fits, ones, penOf w⟩ true) w.buffer = some
                (.ok ⟨fits && (w.writeBit true).1, ones + 1, penOf (w.writeBit true).2⟩,
                  (w.writeBit true).2.buffer) := by
              unfold turn
              rw [run_bind_of_ok (run_writeBit w true)]
              dsimp only
              rw [if_pos rfl, if_neg (Nat.ne_of_lt fewer)]
              rfl
            obtain ⟨ones', rest⟩ := ih (w.writeBit true).2 (fits && (w.writeBit true).1) fewer
            refine ⟨ones', ?_⟩
            rw [run_bind_of_ok first, rest, stuffBits, if_neg fifth, writeBits_cons, Bool.and_assoc]

/-! ## 3. Frames -/

/-- What stuffing writes: a flag, the stuffed body, zeros up to the next byte, and a flag. -/
def writing (frame : List UInt8) : Editing (List UInt8) (Bool × Pen) := do
  let (opened, pen) ← Pen.writeByte ⟨0, 0⟩ flag
  let s ← (bitsOf (body frame)).foldlM turn ⟨opened, 0, pen⟩
  let (closed, pen) ← s.pen.align.writeByte flag
  pure (s.fits && closed, pen)

/-- Stuffs a frame right into the caller's buffer, and answers with the length. -/
def stuffing (frame : List UInt8) : Editing (List UInt8) Nat := do
  if !hasFlags frame then throw (.argument .missingFlags)
  else
    let available := (← get).length
    if available < stuffedLength frame then throw (.bufferTooSmall (stuffedLength frame) available)
    else
      let (fits, pen) ← writing frame
      if !fits || pen.bytesWritten != stuffedLength frame then
        throw (.bufferTooSmall (stuffedLength frame) available)
      else pure (stuffedLength frame)

/-- Unstuffs a frame in memory of its own, and copies what comes out into the caller's buffer. -/
def unstuffing (frame : List UInt8) : Editing (List UInt8) Nat := do
  let plain ← own (unstuffed frame)
  let out ← get
  if out.length < plain.length then throw (.bufferTooSmall plain.length out.length)
  else
    write 0 plain
    pure plain.length

theorem run_writing (frame out : List UInt8) : run (writing frame) out =
    some (.ok ((written frame out).1, penOf (written frame out).2),
      (written frame out).2.buffer) := by
  have start : run (Pen.writeByte ⟨0, 0⟩ flag) out = _ := run_writeByte (Writer.ofBuffer out) flag
  have begun : ((Writer.ofBuffer out).writeByte flag).2.offset = 0 := by
    unfold Writer.writeByte
    cases out <;> rfl
  unfold writing written
  rw [run_bind_of_ok start]
  dsimp only
  generalize (Writer.ofBuffer out).writeByte flag = first at begun
  obtain ⟨opened, w⟩ := first
  obtain ⟨ones, turns⟩ := run_turns w opened (show 0 < 5 by decide) (bitsOf (body frame))
  rw [run_bind_of_ok turns]
  dsimp only
  obtain ⟨position, buffer⟩ := align_of_opened
    (opened_writeBits (stuffBits 0 (bitsOf (body frame))) fun ne => absurd begun ne)
  rw [position, ← buffer, run_bind_of_ok (run_writeByte _ flag)]
  rfl

/-- **Stuffing in place.** The second question whether the frame fits is never answered with no. -/
theorem run_stuffing (frame out : List UInt8) :
    run (stuffing frame) out = some (Frame.stuff frame out) := by
  unfold stuffing
  by_cases flags : hasFlags frame = true
  · rw [if_neg (by rw [flags]; decide), run_bind_of_ok (run_get out)]
    dsimp only
    rcases Nat.lt_or_ge out.length (stuffedLength frame) with exceeds | fits
    · rw [if_pos exceeds, Frame.stuff, if_pos flags]
      dsimp only
      rw [if_neg (Nat.not_le_of_lt exceeds)]
      rfl
    · obtain ⟨taken, count, -⟩ := Frame.written_of_fits (Frame.two_le_of_hasFlags flags) fits
      rw [if_neg (Nat.not_lt_of_le fits), run_bind_of_ok (run_writing frame out),
        Frame.stuff_of_fits flags fits]
      dsimp only
      rw [bytesWritten_penOf, taken, count, beq_self_eq_true, bne_self_eq_false]
      rfl
  · have unflagged : (!hasFlags frame) = true := by rw [Bool.eq_false_of_not_eq_true flags]; rfl
    rw [if_pos unflagged, Frame.stuff, if_neg flags]
    rfl

theorem run_unstuffing (frame out : List UInt8) :
    run (unstuffing frame) out = some (Frame.unstuff frame out) := by
  unfold unstuffing Frame.unstuff
  match unstuffed frame with
  | .error e => exact run_bind_of_error (run_own _ out)
  | .ok plain =>
      rw [run_bind_of_ok (run_own _ out), run_bind_of_ok (run_get out)]
      dsimp only
      rcases Nat.lt_or_ge out.length plain.length with exceeds | fits
      · rw [if_pos exceeds, if_neg (Nat.not_le_of_lt exceeds)]
        rfl
      · have room : 0 + plain.length ≤ out.length := by rwa [Nat.zero_add]
        rw [if_neg (Nat.not_lt_of_le fits), if_pos fits, run_bind_of_ok (run_write room),
          putAt_zero]
        rfl

end SatLink.InPlace
