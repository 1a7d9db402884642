import SatLink.Telemetry.Basic
import SatLink.Wire

/-!
# Records on the wire

A packed record is its id, its timestamp and its value. No quantity has id zero, so a zero where an
id could stand is padding and ends the records.
-/

namespace SatLink.Telemetry

open SatLink.Wire

/-! ## 1. Packing -/

/-- The bytes of a value. -/
def Value.bytes : Value → List UInt8
  | .float32 bits => bytes32 bits
  | .uint8 value => [value]
  | .uint32 value => bytes32 value

@[simp] theorem Value.length_bytes (v : Value) : v.bytes.length = v.kind.size := by
  cases v <;> rfl

namespace Record

/-- The bytes of a record. -/
def packed (r : Record) : List UInt8 := r.id.code :: (bytes32 r.timestamp ++ r.value.bytes)

@[simp] theorem length_packed (r : Record) : r.packed.length = r.packedLength := by
  simp [packed, packedLength, headerLength]; omega

/-- Packs a record at the start of a buffer, and answers with the number of bytes written; a record
    that does not fit changes nothing. -/
def pack (r : Record) (buffer : List UInt8) : Except LinkError Nat × List UInt8 :=
  if r.packedLength ≤ buffer.length then
    (.ok r.packedLength, r.packed ++ buffer.drop r.packedLength)
  else (.error (.bufferTooSmall r.packedLength buffer.length), buffer)

/-! ## 2. Unpacking -/

/-- Reads a value of a kind. -/
def readValue (kind : ValueKind) (buffer : List UInt8) (offset : Nat) :
    Except LinkError { v : Value // v.kind = kind } :=
  match kind with
  | .float32 => (read32 buffer offset).map fun (word, _) => ⟨.float32 word, rfl⟩
  | .uint8 => (readByte buffer offset).map fun (byte, _) => ⟨.uint8 byte, rfl⟩
  | .uint32 => (read32 buffer offset).map fun (word, _) => ⟨.uint32 word, rfl⟩

/-- Reads the record at an offset, and the offset behind it; `none` at padding and at the end of the
    buffer. A record that is cut off is reported with the length it should have had. -/
def read (buffer : List UInt8) (offset : Nat) : Except LinkError (Option (Record × Nat)) := do
  match buffer.drop offset with
  | [] => pure none
  | code :: _ =>
      if code = 0 then pure none
      else
        let id ← Id.ofCode code
        let length := headerLength + id.valueKind.size
        if buffer.length < offset + length then throw (short buffer offset length)
        let (timestamp, next) ← read32 buffer (offset + 1)
        let value ← readValue id.valueKind buffer next
        pure (some (⟨id, timestamp, value.val, value.property⟩, offset + length))

/-- Unpacks the record at an offset. The offset moves behind it; at padding, at the end and after an
    error it stays. -/
def unpack (buffer : List UInt8) (offset : Nat) : Except LinkError (Option Record) × Nat :=
  match read buffer offset with
  | .ok (some (r, stop)) => (.ok (some r), stop)
  | .ok none => (.ok none, offset)
  | .error e => (.error e, offset)

/-- Unpacks records from an offset on, at most `limit` of them. -/
def unpackFrom (buffer : List UInt8) : Nat → Nat → Except LinkError (List Record)
  | 0, _ => .ok []
  | limit + 1, offset =>
      match unpack buffer offset with
      | (.ok (some r), stop) => (unpackFrom buffer limit stop).map (r :: ·)
      | (.ok none, _) => .ok []
      | (.error e, _) => .error e

/-- Unpacks every record of a block, up to its padding. A block holds fewer records than bytes, so
    its length is no limit. -/
def unpackBlock (buffer : List UInt8) : Except LinkError (List Record) :=
  unpackFrom buffer buffer.length 0

end Record

end SatLink.Telemetry
