import SatLink.Telemetry.Wire
import SatLink.ReedSolomon.Code

/-!
# Packing records into blocks

A packer fills one block after the other and never splits a record: what does not fit behind the
records of the current block starts the next one. A block is handed out filled up with zeros, which
read back as padding.
-/

namespace SatLink.Telemetry

/-- The length of a block. -/
abbrev blockLength : Nat := ReedSolomon.messageLength

/-- A block of telemetry. -/
abbrev TelemetryBlock := Block blockLength

/-- The current block, and how much of it is used. -/
structure Packer where
  block : TelemetryBlock
  used : Nat
  deriving DecidableEq

namespace Packer

/-- Nothing is pending. -/
def empty : Packer := ⟨Block.zero blockLength, 0⟩

/-- The pending block, filled up with zeros, and an empty packer; nothing if nothing is pending. -/
def finish (p : Packer) : Option TelemetryBlock × Packer :=
  if p.used = 0 then (none, p) else (some p.block, empty)

/-- Writes a record behind those of the current block. -/
def append (p : Packer) (record : List UInt8) : Packer :=
  { block := Block.fit blockLength
      (p.block.bytes.take p.used ++ (record ++ p.block.bytes.drop (p.used + record.length)))
    used := p.used + record.length }

/-- Adds a packed record, and hands out the current block if the record does not fit behind it. A
    record longer than a block is refused and changes nothing. -/
def pushPacked (p : Packer) (record : List UInt8) :
    Except LinkError (Option TelemetryBlock) × Packer :=
  if blockLength < record.length then (.error (.argument .recordTooLarge), p)
  else if blockLength < p.used + record.length then
    let (flushed, p) := p.finish
    (.ok flushed, p.append record)
  else (.ok none, p.append record)

/-- Adds a record. -/
def push (p : Packer) (r : Record) : Except LinkError (Option TelemetryBlock) × Packer :=
  p.pushPacked r.packed

end Packer

end SatLink.Telemetry
