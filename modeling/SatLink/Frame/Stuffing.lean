import SatLink.Error
import SatLink.Bit.Cursor

/-!
# Bit stuffing

Between two flags no six ones may follow each other, or the receiver would see a flag. The sender
puts a zero behind every fifth consecutive one (`stuffBits`), the receiver takes it out again
(`unstuffBits`), and six ones in a row mean that the frame was damaged or aborted.

`stuff` and `unstuff` work on whole frames, flags included, and on a buffer that the caller owns:
each answers with the length it wrote and the buffer as it leaves it, which after an error is the
buffer it was given.
-/

namespace SatLink.Frame

open SatLink.Bit

/-! ## 1. Flags -/

/-- The byte that opens and closes a frame. -/
def flag : UInt8 := 0x7E

/-- The largest frame, stuffed or not: 276 bytes with one extra bit for every five. -/
def maxLength : Nat := 331

/-- A frame begins and ends with a flag, and these are two bytes. -/
def hasFlags (frame : List UInt8) : Bool :=
  decide (2 ≤ frame.length) && frame.head? == some flag && frame.getLast? == some flag

/-- What lies between the first and the last byte. -/
def body (frame : List UInt8) : List UInt8 := frame.tail.dropLast

/-- A body between two flags. -/
def flagged (body : List UInt8) : List UInt8 := flag :: (body ++ [flag])

@[simp] theorem body_flagged (bytes : List UInt8) : body (flagged bytes) = bytes := by
  simp [body, flagged]

@[simp] theorem hasFlags_flagged (bytes : List UInt8) : hasFlags (flagged bytes) = true := by
  have h : flag :: (bytes ++ [flag]) = (flag :: bytes) ++ [flag] := by simp
  simp only [hasFlags, flagged, List.head?_cons, Bool.and_eq_true, beq_self_eq_true,
    beq_iff_eq]
  refine ⟨⟨by simp, trivial⟩, ?_⟩
  rw [h, List.getLast?_concat]

/-! ## 2. Stuffing bits -/

/-- Puts a zero behind every fifth consecutive one; `ones` ones came just before. -/
def stuffBits : Nat → List Bool → List Bool
  | _, [] => []
  | _, false :: bits => false :: stuffBits 0 bits
  | ones, true :: bits =>
      if ones = 4 then true :: false :: stuffBits 0 bits else true :: stuffBits (ones + 1) bits

/-- How many bits there are once stuffed, counted without building them. -/
def stuffedCount : Nat → List Bool → Nat
  | _, [] => 0
  | _, false :: bits => stuffedCount 0 bits + 1
  | ones, true :: bits =>
      if ones = 4 then stuffedCount 0 bits + 2 else stuffedCount (ones + 1) bits + 1

theorem length_stuffBits : ∀ (ones : Nat) (bits : List Bool),
    (stuffBits ones bits).length = stuffedCount ones bits
  | _, [] => rfl
  | _, false :: bits => by simp [stuffBits, stuffedCount, length_stuffBits 0 bits]
  | ones, true :: bits => by
      unfold stuffBits stuffedCount
      split <;> simp [length_stuffBits]

/-- Takes out the zero behind every fifth consecutive one; `none` when a sixth one follows. -/
def unstuffBits : Nat → List Bool → Option (List Bool)
  | _, [] => some []
  | ones, bit :: bits =>
      if ones = 5 then
        if bit then none else unstuffBits 0 bits
      else
        (unstuffBits (if bit then ones + 1 else 0) bits).map (bit :: ·)

/-! ## 3. Stuffing frames -/

/-- The exact length of a frame once stuffed, flags included. -/
def stuffedLength (frame : List UInt8) : Nat :=
  if frame.length < 2 then frame.length
  else (stuffedCount 0 (bitsOf (body frame)) + 7) / 8 + 2

/-- Stuffs the region between the flags of `frame` into `out`; the last partial byte is filled with
    zeros and the flags are copied. -/
def stuff (frame out : List UInt8) : Except LinkError Nat × List UInt8 :=
  if hasFlags frame then
    let needed := stuffedLength frame
    let tooSmall := (.error (.bufferTooSmall needed out.length), out)
    if needed ≤ out.length then
      let (opened, w) := (Writer.ofBuffer out).writeByte flag
      let (filled, w) := w.writeBits (stuffBits 0 (bitsOf (body frame)))
      let (closed, w) := w.align.writeByte flag
      if opened && filled && closed && w.bytesWritten == needed then (.ok needed, w.buffer)
      else tooSmall
    else tooSmall
  else (.error (.argument .missingFlags), out)

/-- The frame that the region between the flags of `frame` stands for: the stuffed zeros are taken
    out and bits that fill no byte are dropped. -/
def unstuffed (frame : List UInt8) : Except LinkError (List UInt8) :=
  if hasFlags frame then
    match unstuffBits 0 (bitsOf (body frame)) with
    | none => .error .corruptedFrame
    | some bits =>
        let plain := flagged (wholeBytes bits)
        if plain.length ≤ maxLength then .ok plain else .error .corruptedFrame
  else .error .corruptedFrame

/-- Unstuffs `frame` into `out`. -/
def unstuff (frame out : List UInt8) : Except LinkError Nat × List UInt8 :=
  match unstuffed frame with
  | .error e => (.error e, out)
  | .ok plain =>
      if plain.length ≤ out.length then
        (.ok plain.length, plain ++ out.drop plain.length)
      else (.error (.bufferTooSmall plain.length out.length), out)

/-- A buffer that holds any frame. -/
def blank : List UInt8 := List.replicate maxLength 0

/-- Stuffs a frame into a buffer of its own. -/
def stuffFrame (frame : List UInt8) : Except LinkError (List UInt8) :=
  match stuff frame blank with
  | (.ok n, out) => .ok (out.take n)
  | (.error e, _) => .error e

/-- Unstuffs a frame into a buffer of its own. -/
def unstuffFrame (frame : List UInt8) : Except LinkError (List UInt8) :=
  match unstuff frame blank with
  | (.ok n, out) => .ok (out.take n)
  | (.error e, _) => .error e

end SatLink.Frame
