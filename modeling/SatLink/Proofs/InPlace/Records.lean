import SatLink.Buffer
import SatLink.Proofs.Command.RoundTrip
import SatLink.Proofs.InPlace.Machine
import SatLink.Proofs.Indexed.Unstuffing
import SatLink.Telemetry.Wire

/-!
# Packing, unpacking and appending in place

A command and a record are written field by field into a buffer of the caller, and read through an
offset of the caller. A byte buffer is an array and a pointer, one written after the other.

* `packing`, `packingRecord` — what is packed is written piece by piece;
* `taking` — what a reader finds at an offset is taken, and the offset moved behind it;
* `pushing`, `extending` — bytes appended behind a pointer;
* `run_packing`, `run_packingRecord`, `run_unpacking`, `run_unpackingRecord`, `run_pushing`,
  `run_extending` — **each of them does what the operation does** that answers with its result and
  the memory in one go.
-/

namespace SatLink.InPlace

open SatLink.Wire

/-! ## 1. Packing -/

section

open Command (Packing Action)
open Telemetry (Record)

/-- The pieces that the fields are written in. -/
def fieldPieces : Action → List (List UInt8)
  | .rtcSync unixTime => [bytes32 unixTime]
  | .downlinkLogsNextPass logLevel => [[logLevel]]
  | .setProgrammingSession session => [[session]]
  | .downloadData session length address => [[session], bytes16 length, bytes32 address]
  | .arm data id => [bytes32 data, bytes32 id]
  | .execute data id => [bytes32 data, bytes32 id]
  | .execObcReset | .microSdFormat | .ping | .downlinkTelem | .uplinkDisc | .eraseApp | .verifyCrc
  | .i2cProbe => []

/-- The pieces that a command is written in. -/
def pieces (c : Command) : List (List UInt8) :=
  [c.idByte] :: bytes32 c.timestamp :: fieldPieces c.action

theorem flatten_pieces (c : Command) : (pieces c).flatten = c.packed := by
  have fields : (fieldPieces c.action).flatten = c.action.fieldBytes := by
    cases c.action <;> simp [fieldPieces, Action.fieldBytes]
  show [c.idByte] ++ (bytes32 c.timestamp ++ (fieldPieces c.action).flatten) = c.packed
  rw [fields]
  rfl

/-- Packs a command at the offset, field by field, and moves the offset behind it. -/
def packing (c : Command) : Editing Packing Nat := do
  let p ← get
  let stop := p.offset + c.packedLength
  if p.buffer.length < stop then throw (.bufferTooSmall stop p.buffer.length)
  else
    onPart Packing.buffer (fun p buffer => { p with buffer := buffer })
      (writePieces p.offset (pieces c))
    modify fun p => { p with offset := stop }
    pure c.packedLength

theorem run_packing (c : Command) (p : Packing) : run (packing c) p = some (c.pack p) := by
  unfold packing
  rw [run_bind_of_ok (run_get p)]
  dsimp only
  rcases Nat.lt_or_ge p.buffer.length (p.offset + c.packedLength) with exceeds | fits
  · rw [if_pos exceeds, Command.pack_of_lt exceeds]
    exact run_throw _ _
  · have room : p.offset + (pieces c).flatten.length ≤ p.buffer.length := by
      rwa [flatten_pieces, Command.length_packed]
    rw [if_neg (Nat.not_lt_of_le fits), run_bind_of_ok (run_onPart (run_writePieces room)),
      run_bind_of_ok (run_modify _ _), Command.pack_of_le fits, Packing.put_eq, flatten_pieces,
      Command.length_packed]
    exact run_pure _ _

/-- The pieces that a record is written in. -/
def recordPieces (r : Record) : List (List UInt8) :=
  [[r.id.code], bytes32 r.timestamp, r.value.bytes]

theorem flatten_recordPieces (r : Record) : (recordPieces r).flatten = r.packed := by
  show [r.id.code] ++ (bytes32 r.timestamp ++ (r.value.bytes ++ [])) = r.packed
  rw [List.append_nil]
  rfl

/-- Packs a record at the start of a buffer, field by field. -/
def packingRecord (r : Record) : Editing (List UInt8) Nat := do
  let buffer ← get
  if buffer.length < r.packedLength then throw (.bufferTooSmall r.packedLength buffer.length)
  else
    writePieces 0 (recordPieces r)
    pure r.packedLength

theorem run_packingRecord (r : Record) (buffer : List UInt8) :
    run (packingRecord r) buffer = some (r.pack buffer) := by
  unfold packingRecord Record.pack
  rw [run_bind_of_ok (run_get buffer)]
  rcases Nat.lt_or_ge buffer.length r.packedLength with exceeds | fits
  · rw [if_pos exceeds, if_neg (Nat.not_le_of_lt exceeds)]
    exact run_throw _ _
  · have room : 0 + (recordPieces r).flatten.length ≤ buffer.length := by
      rwa [flatten_recordPieces, Record.length_packed, Nat.zero_add]
    rw [if_neg (Nat.not_lt_of_le fits), if_pos fits, run_bind_of_ok (run_writePieces room),
      putAt_zero, flatten_recordPieces, Record.length_packed]
    exact run_pure _ _

end

/-! ## 2. Unpacking -/

section

variable {α : Type}

/-- Takes what a reader finds at the caller's offset, and moves the offset behind it. The reader has
    an offset of its own until then. -/
def taking (read : Nat → Except LinkError (Option (α × Nat))) : Editing Nat (Option α) := do
  match ← own (read (← get)) with
  | none => pure none
  | some (a, stop) =>
      set stop
      pure (some a)

/-- Unpacks the command at the offset. -/
def unpacking (buffer : List UInt8) : Editing Nat (Option Command) := taking (Command.read buffer)

/-- Unpacks the record at the offset. -/
def unpackingRecord (buffer : List UInt8) : Editing Nat (Option Telemetry.Record) :=
  taking (Telemetry.Record.read buffer)

/-- What is answered to a caller with an offset, and where the offset stands then. -/
def taken (offset : Nat) : Except LinkError (Option (α × Nat)) → Except LinkError (Option α) × Nat
  | .ok (some (a, stop)) => (.ok (some a), stop)
  | .ok none => (.ok none, offset)
  | .error e => (.error e, offset)

theorem run_taking (read : Nat → Except LinkError (Option (α × Nat))) (offset : Nat) :
    run (taking read) offset = some (taken offset (read offset)) := by
  unfold taking
  rw [run_bind_of_ok (run_get offset)]
  match found : read offset with
  | .error e => exact run_bind_of_error (run_own _ _)
  | .ok none => exact run_bind_of_ok (run_own _ _)
  | .ok (some (a, stop)) => exact run_bind_of_ok (run_own _ _)

theorem run_unpacking (buffer : List UInt8) (offset : Nat) :
    run (unpacking buffer) offset = some (Command.unpack buffer offset) := by
  refine (run_taking (Command.read buffer) offset).trans ?_
  unfold Command.unpack
  match Command.read buffer offset with
  | .error e | .ok none | .ok (some (c, stop)) => rfl

theorem run_unpackingRecord (buffer : List UInt8) (offset : Nat) :
    run (unpackingRecord buffer) offset = some (Telemetry.Record.unpack buffer offset) := by
  refine (run_taking (Telemetry.Record.read buffer) offset).trans ?_
  unfold Telemetry.Record.unpack
  match Telemetry.Record.read buffer offset with
  | .error e | .ok none | .ok (some (r, stop)) => rfl

end

/-! ## 3. Appending -/

section

variable {cap : Nat}

/-- Puts bytes behind the pointer, and then moves the pointer behind them. -/
def puttingBehind (values : List UInt8) : Editing Indexed.Buffer Unit := do
  let b ← get
  onPart Indexed.Buffer.bytes (fun b bytes => { b with bytes := bytes }) (write b.pointer values)
  modify fun b => { b with pointer := b.pointer + values.length }

/-- Appends one byte. -/
def pushing (value : UInt8) : Editing Indexed.Buffer Unit := do
  let b ← get
  if b.bytes.length ≤ b.pointer then throw (.bufferTooSmall (b.pointer + 1) b.bytes.length)
  else puttingBehind [value]

/-- Appends bytes, all of them or none. -/
def extending (values : List UInt8) : Editing Indexed.Buffer Unit := do
  let b ← get
  if b.bytes.length < values.length + b.pointer then
    throw (.bufferTooSmall (values.length + b.pointer) b.bytes.length)
  else puttingBehind values

/-- The array and the pointer of a buffer. -/
def raw (b : Buffer cap) : Indexed.Buffer := ⟨b.storage.toList, b.length⟩

theorem run_puttingBehind {values : List UInt8} {b : Indexed.Buffer}
    (fits : b.pointer + values.length ≤ b.bytes.length) : run (puttingBehind values) b =
      some (.ok (), ⟨putAt b.bytes b.pointer values, b.pointer + values.length⟩) := by
  unfold puttingBehind
  rw [run_bind_of_ok (run_get b), run_bind_of_ok (run_onPart (run_write fits))]
  exact run_modify _ _

@[simp] theorem pointer_raw (b : Buffer cap) : (raw b).pointer = b.length := rfl

@[simp] theorem length_bytes_raw (b : Buffer cap) : (raw b).bytes.length = cap :=
  Vector.length_toList

theorem run_pushing (value : UInt8) (b : Buffer cap) :
    run (pushing value) (raw b) = some ((b.push value).1, raw (b.push value).2) := by
  unfold pushing Buffer.push
  rw [run_bind_of_ok (run_get _), pointer_raw, length_bytes_raw]
  by_cases room : b.length < cap
  · have fits : (raw b).pointer + [value].length ≤ (raw b).bytes.length := by
      rw [length_bytes_raw]
      exact room
    have inside : b.length < b.storage.toList.length := by rwa [Vector.length_toList]
    have entry :
        putAt b.storage.toList b.length [value] = (b.storage.set b.length value room).toList := by
      rw [Vector.toList_set, List.set_eq_take_append_cons_drop, if_pos inside]
      rfl
    rw [if_neg (Nat.not_le_of_lt room), run_puttingBehind fits, dif_pos room]
    show some (Except.ok (), Indexed.Buffer.mk (putAt b.storage.toList b.length [value]) _) = _
    rw [entry]
    rfl
  · rw [if_pos (Nat.le_of_not_lt room), dif_neg room]
    exact run_throw _ _

theorem run_extending (values : List UInt8) (b : Buffer cap) :
    run (extending values) (raw b) = some ((b.extend values).1, raw (b.extend values).2) := by
  unfold extending Buffer.extend
  rw [run_bind_of_ok (run_get _), pointer_raw, length_bytes_raw]
  by_cases room : values.length + b.length ≤ cap
  · have fits : (raw b).pointer + values.length ≤ (raw b).bytes.length := by
      rwa [length_bytes_raw, pointer_raw, Nat.add_comm]
    have entries : putAt b.storage.toList b.length values =
        (Buffer.overwrite b.storage b.length values).toList :=
      (Buffer.toList_overwrite b.storage b.length values (by omega)).symm
    rw [if_neg (Nat.not_lt_of_le room), run_puttingBehind fits, dif_pos room]
    show some (Except.ok (), Indexed.Buffer.mk (putAt b.storage.toList b.length values) _) = _
    rw [entries, pointer_raw, Nat.add_comm]
    rfl
  · rw [if_pos (Nat.lt_of_not_le room), dif_neg room]
    exact run_throw _ _

end

end SatLink.InPlace
