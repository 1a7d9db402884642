import SatLink.Command.Basic
import SatLink.Wire

/-!
# Commands on the wire

A packed command is its id, its timestamp and its fields; bit 7 of the id marks a time-tagged one.
Commands follow each other without a gap, and an id of zero ends them.

* `packed` — the bytes of a command; `pack` writes them into a buffer at an offset, `packList`
  writes a list of commands from the start of a buffer;
* `unpack` — reads the command at an offset; `unpackList` reads a whole buffer.

Every operation answers with its outcome and the buffer or the offset as it leaves it.
-/

namespace SatLink.Command

open SatLink.Wire

/-! ## 1. Packing -/

/-- The bytes of the fields. -/
def Action.fieldBytes : Action → List UInt8
  | .rtcSync unixTime => bytes32 unixTime
  | .downlinkLogsNextPass logLevel => [logLevel]
  | .setProgrammingSession session => [session]
  | .downloadData session length address => session :: (bytes16 length ++ bytes32 address)
  | .arm data id => bytes32 data ++ bytes32 id
  | .execute data id => bytes32 data ++ bytes32 id
  | .execObcReset | .microSdFormat | .ping | .downlinkTelem | .uplinkDisc | .eraseApp | .verifyCrc
  | .i2cProbe => []

@[simp] theorem Action.length_fieldBytes (a : Action) : a.fieldBytes.length = a.fieldsLength := by
  cases a <;> rfl

/-- The id byte. -/
def idByte (c : Command) : UInt8 :=
  if c.timeTagged then c.kind.code ||| Kind.timeTaggedBit else c.kind.code

/-- The bytes of a command. -/
def packed (c : Command) : List UInt8 :=
  c.idByte :: (bytes32 c.timestamp ++ c.action.fieldBytes)

@[simp] theorem length_packed (c : Command) : c.packed.length = c.packedLength := by
  simp [packed, packedLength, headerLength]; omega

/-- A buffer and the offset the next command goes to. -/
structure Packing where
  buffer : List UInt8
  offset : Nat
  deriving DecidableEq

/-- Packs one command at the offset, and moves the offset behind it; a command that does not fit
    changes nothing. -/
def pack (c : Command) (p : Packing) : Except LinkError Nat × Packing :=
  let stop := p.offset + c.packedLength
  if stop ≤ p.buffer.length then
    (.ok c.packedLength, ⟨p.buffer.take p.offset ++ (c.packed ++ p.buffer.drop stop), stop⟩)
  else (.error (.bufferTooSmall stop p.buffer.length), p)

/-- Packs commands one behind the other, until one does not fit. -/
def packAll : List Command → Packing → Except LinkError Unit × Packing
  | [], p => (.ok (), p)
  | c :: cs, p =>
      match c.pack p with
      | (.ok _, p) => packAll cs p
      | (.error e, p) => (.error e, p)

/-- Packs commands from the start of a buffer, and answers with the number of bytes used. -/
def packList (buffer : List UInt8) (commands : List Command) : Except LinkError Nat × List UInt8 :=
  match packAll commands ⟨buffer, 0⟩ with
  | (.ok (), p) => (.ok p.offset, p.buffer)
  | (.error e, p) => (.error e, p.buffer)

/-! ## 2. Unpacking -/

/-- Reads the fields of an action of a kind; the sentinel has none and is no action. -/
def readAction (kind : Kind) (buffer : List UInt8) (offset : Nat) :
    Except LinkError (Option Action × Nat) := do
  match kind with
  | .endOfFrame => pure (none, offset)
  | .execObcReset => pure (some .execObcReset, offset)
  | .rtcSync =>
      let (unixTime, offset) ← read32 buffer offset
      pure (some (.rtcSync unixTime), offset)
  | .downlinkLogsNextPass =>
      let (logLevel, offset) ← readByte buffer offset
      pure (some (.downlinkLogsNextPass logLevel), offset)
  | .microSdFormat => pure (some .microSdFormat, offset)
  | .ping => pure (some .ping, offset)
  | .downlinkTelem => pure (some .downlinkTelem, offset)
  | .uplinkDisc => pure (some .uplinkDisc, offset)
  | .setProgrammingSession =>
      let (session, offset) ← readByte buffer offset
      pure (some (.setProgrammingSession session), offset)
  | .eraseApp => pure (some .eraseApp, offset)
  | .downloadData =>
      let (session, offset) ← readByte buffer offset
      let (length, offset) ← read16 buffer offset
      let (address, offset) ← read32 buffer offset
      pure (some (.downloadData session length address), offset)
  | .verifyCrc => pure (some .verifyCrc, offset)
  | .i2cProbe => pure (some .i2cProbe, offset)
  | .arm =>
      let (data, offset) ← read32 buffer offset
      let (id, offset) ← read32 buffer offset
      pure (some (.arm data id), offset)
  | .execute =>
      let (data, offset) ← read32 buffer offset
      let (id, offset) ← read32 buffer offset
      pure (some (.execute data id), offset)

/-- Reads the command at an offset, and the offset behind it; `none` at the sentinel. -/
def read (buffer : List UInt8) (offset : Nat) : Except LinkError (Option (Command × Nat)) := do
  let (id, next) ← readByte buffer offset
  let kind ← Kind.ofId id
  if kind = .endOfFrame then pure none
  else
    let (timestamp, next) ← read32 buffer next
    match ← readAction kind buffer next with
    | (none, _) => pure none
    | (some action, stop) =>
        pure (some (⟨timestamp, id &&& Kind.timeTaggedBit != 0, action⟩, stop))

/-- Unpacks the command at an offset. The offset moves behind it; at the sentinel and after an error
    it stays. -/
def unpack (buffer : List UInt8) (offset : Nat) : Except LinkError (Option Command) × Nat :=
  match read buffer offset with
  | .ok (some (c, stop)) => (.ok (some c), stop)
  | .ok none => (.ok none, offset)
  | .error e => (.error e, offset)

/-- Unpacks commands from an offset on, at most `limit` of them. -/
def unpackFrom (buffer : List UInt8) : Nat → Nat → Except LinkError (List Command)
  | 0, _ => .ok []
  | limit + 1, offset =>
      if offset < buffer.length then
        match unpack buffer offset with
        | (.ok (some c), stop) => (unpackFrom buffer limit stop).map (c :: ·)
        | (.ok none, _) => .ok []
        | (.error e, _) => .error e
      else .ok []

/-- Unpacks every command up to the sentinel or the end of the buffer. A buffer holds fewer commands
    than bytes, so its length is no limit. -/
def unpackList (buffer : List UInt8) : Except LinkError (List Command) :=
  unpackFrom buffer buffer.length 0

end SatLink.Command
