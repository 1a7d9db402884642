import SatLink.Proofs.Command.Canonical
import SatLink.Proofs.Indexed.Machine
import SatLink.Proofs.Telemetry.Canonical

/-!
# Reading commands and records with indices

A reader of commands asks for the bytes of one field after the other, each of which may be missing;
a reader of records looks up the id, counts how far the record reaches, and then cuts it out. Both
go on from where they stopped until there is nothing more.

* `readByte_eq`, `read16_eq`, `read32_eq` — one field;
* `readCommand_eq`, `readRecord_eq` — one command and one record;
* `collect_eq` — **a loop whose reader moves on ends**; `unpackCommands_eq` and `unpackRecords_eq`
  are its cases.
-/

namespace SatLink.Indexed

variable {α : Type}

/-! ## 1. Fields -/

/-- The entries from index `i` up to index `j`, if the array has them. -/
def cut? (xs : List α) (i j : Nat) : Option (List α) :=
  if i ≤ j ∧ j ≤ xs.length then some ((xs.drop i).take (j - i)) else none

/-- Takes the next `n` bytes, and moves the offset behind them. -/
def take (size n : Nat) (buffer : List UInt8) (offset : Nat) : Checked (Block n × Nat) := do
  let stop ← add size offset n
  match (cut? buffer offset stop).bind (Block.ofList? n) with
  | some bytes => pure (bytes, stop)
  | none => throw (.bufferTooSmall stop buffer.length)

/-- The number of four bytes. -/
def word (bytes : List UInt8) : Checked UInt32 := do
  pure (Wire.word32 (← item bytes 0) (← item bytes 1) (← item bytes 2) (← item bytes 3))

/-- Reads one byte. -/
def readByte (size : Nat) (buffer : List UInt8) (offset : Nat) : Checked (UInt8 × Nat) := do
  let (bytes, stop) ← take size 1 buffer offset
  pure (← item bytes.bytes 0, stop)

/-- Reads a number of sixteen bits. -/
def read16 (size : Nat) (buffer : List UInt8) (offset : Nat) : Checked (UInt16 × Nat) := do
  let (bytes, stop) ← take size 2 buffer offset
  pure (Wire.word16 (← item bytes.bytes 0) (← item bytes.bytes 1), stop)

/-- Reads a number of 32 bits. -/
def read32 (size : Nat) (buffer : List UInt8) (offset : Nat) : Checked (UInt32 × Nat) := do
  let (bytes, stop) ← take size 4 buffer offset
  pure (← word bytes.bytes, stop)

section

variable {size n offset : Nat} {buffer rest : List UInt8}

theorem take_of_drop (bytes : List UInt8) (count : offset + n < size)
    (within : offset ≤ buffer.length)
    (here : buffer.drop offset = bytes ++ rest) (len : bytes.length = n) :
    take size n buffer offset = pure (⟨bytes, len⟩, offset + n) := by
  have reach := congrArg List.length here
  rw [List.length_drop, List.length_append, len] at reach
  have found : cut? buffer offset (offset + n) = some bytes := by
    rw [cut?, if_pos ⟨Nat.le_add_right .., by omega⟩, here, Nat.add_sub_cancel_left,
      List.take_left' len]
  simp only [take, add_of_lt count, pure_bind, found, Option.bind_some, Block.ofList?, dif_pos len]

theorem take_of_short (count : offset + n < size) (short : (buffer.drop offset).length < n) :
    take size n buffer offset = throw (Wire.short buffer offset n) := by
  have missing : cut? buffer offset (offset + n) = none := by
    rw [List.length_drop] at short
    exact if_neg fun found => by omega
  simp only [take, add_of_lt count, pure_bind, missing, Option.bind_none, Wire.short]

end

section

variable {size offset : Nat} {buffer : List UInt8} (room : buffer.length + 8 < size)
  (within : offset ≤ buffer.length)

include room within

/-- **Reading a byte stops nowhere** in a buffer, and not behind its last byte. -/
theorem readByte_eq : readByte size buffer offset = answer (Wire.readByte buffer offset) := by
  have count : offset + 1 < size := by omega
  rw [readByte, Wire.readByte]
  rcases here : buffer.drop offset with _ | ⟨a, rest⟩
  case cons =>
    rw [take_of_drop [a] count within here rfl]
    rfl
  all_goals
    rw [take_of_short count (by simp [here])]
    rfl

/-- So does reading sixteen bits. -/
theorem read16_eq : read16 size buffer offset = answer (Wire.read16 buffer offset) := by
  have count : offset + 2 < size := by omega
  rw [read16, Wire.read16]
  rcases here : buffer.drop offset with _ | ⟨a, _ | ⟨b, rest⟩⟩
  case cons.cons =>
    rw [take_of_drop [a, b] count within here rfl]
    rfl
  all_goals
    rw [take_of_short count (by simp [here])]
    rfl

/-- And reading 32 bits. -/
theorem read32_eq : read32 size buffer offset = answer (Wire.read32 buffer offset) := by
  have count : offset + 4 < size := by omega
  rw [read32, Wire.read32]
  rcases here : buffer.drop offset with _ | ⟨a, _ | ⟨b, _ | ⟨c, _ | ⟨d, rest⟩⟩⟩⟩
  case cons.cons.cons.cons =>
    rw [take_of_drop [a, b, c, d] count within here rfl]
    rfl
  all_goals
    rw [take_of_short count (by simp [here])]
    rfl

end

/-! ## 2. Loops over a buffer -/

/-- Takes one thing after the other, each from where the one before it ended. -/
noncomputable def collect (next : Nat → Checked (Option (α × Nat))) (offset : Nat)
    (taken : List α) :
    Checked (List α) :=
  loop (fun (offset, taken) => do
    match ← next offset with
    | some (a, stop) => pure (.inl (stop, taken ++ [a]))
    | none => pure (.inr taken)) (offset, taken)

/-- The loop over a buffer, turn by turn. -/
theorem collect_unfold (next : Nat → Checked (Option (α × Nat))) (offset : Nat) (taken : List α) :
    collect next offset taken = (do
      match ← next offset with
      | some (a, stop) => collect next stop (taken ++ [a])
      | none => pure taken) := by
  rw [collect, loop_eq]
  dsimp only
  rw [bind_assoc]
  refine bind_congr fun r => ?_
  match r with
  | none | some (a, stop) => rfl

/-- At most `limit` things, each from where the one before it ended. -/
def takeAll (next : Nat → Except LinkError (Option (α × Nat))) :
    Nat → Nat → Except LinkError (List α)
  | 0, _ => .ok []
  | limit + 1, offset => do
      match ← next offset with
      | some (a, stop) => (takeAll next limit stop).map (a :: ·)
      | none => .ok []

section

variable {last : Nat} {next : Nat → Checked (Option (α × Nat))}
  {next' : Nat → Except LinkError (Option (α × Nat))}
  (turn : ∀ offset ≤ last, next offset = answer (next' offset))
  (onward : ∀ offset ≤ last, ∀ a stop, next' offset = .ok (some (a, stop)) →
    offset < stop ∧ stop ≤ last)
  (done : next' last = .ok none)

include turn onward done

/-- What is taken from an offset on comes behind what is taken already. -/
theorem collect_from {limit offset : Nat} (within : offset ≤ last) (enough : last ≤ offset + limit)
    (taken : List α) :
    collect next offset taken = answer ((takeAll next' limit offset).map (taken ++ ·)) := by
  -- by the limit; `enough` is kept because a reader moves on by one offset at least
  induction limit generalizing offset taken with
  | zero =>
      obtain rfl : offset = last := Nat.le_antisymm within enough
      rw [collect_unfold, turn _ within, done]
      simp [takeAll, Except.map]
  | succ limit ih =>
      rw [collect_unfold, turn _ within, takeAll]
      cases found : next' offset with
      | error e => rfl
      | ok r =>
          match r with
          | none =>
              show pure taken = answer (.ok (taken ++ []))
              rw [List.append_nil]
              rfl
          | some (a, stop) =>
              obtain ⟨forward, inside⟩ := onward offset within a stop found
              rw [answer_ok, pure_bind]
              dsimp only
              rw [ih inside (by omega)]
              show _ = answer (((takeAll next' limit stop).map (a :: ·)).map (taken ++ ·))
              cases takeAll next' limit stop with
              | error e => rfl
              | ok more => simp [Except.map]

/-- **A loop whose reader moves on ends**: there are no more things than there are offsets. -/
theorem collect_eq : collect next 0 [] = answer (takeAll next' last 0) := by
  rw [collect_from turn onward done (Nat.zero_le last) (Nat.le_add_left last 0) []]
  cases takeAll next' last 0 <;> rfl

end

/-! ## 3. Commands -/

section

open Command (Action Kind)

/-- Reads the fields of an action of a kind. -/
def readAction (size : Nat) (kind : Kind) (buffer : List UInt8) (offset : Nat) :
    Checked (Option Action × Nat) := do
  match kind with
  | .endOfFrame => pure (none, offset)
  | .execObcReset => pure (some .execObcReset, offset)
  | .rtcSync =>
      let (unixTime, offset) ← read32 size buffer offset
      pure (some (.rtcSync unixTime), offset)
  | .downlinkLogsNextPass =>
      let (logLevel, offset) ← readByte size buffer offset
      pure (some (.downlinkLogsNextPass logLevel), offset)
  | .microSdFormat => pure (some .microSdFormat, offset)
  | .ping => pure (some .ping, offset)
  | .downlinkTelem => pure (some .downlinkTelem, offset)
  | .uplinkDisc => pure (some .uplinkDisc, offset)
  | .setProgrammingSession =>
      let (session, offset) ← readByte size buffer offset
      pure (some (.setProgrammingSession session), offset)
  | .eraseApp => pure (some .eraseApp, offset)
  | .downloadData =>
      let (session, offset) ← readByte size buffer offset
      let (length, offset) ← read16 size buffer offset
      let (address, offset) ← read32 size buffer offset
      pure (some (.downloadData session length address), offset)
  | .verifyCrc => pure (some .verifyCrc, offset)
  | .i2cProbe => pure (some .i2cProbe, offset)
  | .arm =>
      let (data, offset) ← read32 size buffer offset
      let (id, offset) ← read32 size buffer offset
      pure (some (.arm data id), offset)
  | .execute =>
      let (data, offset) ← read32 size buffer offset
      let (id, offset) ← read32 size buffer offset
      pure (some (.execute data id), offset)

/-- Reads the command at an offset. -/
def readCommand (size : Nat) (buffer : List UInt8) (offset : Nat) :
    Checked (Option (Command × Nat)) := do
  let (id, next) ← readByte size buffer offset
  let kind ← answer (Kind.ofId id)
  if kind = .endOfFrame then pure none
  else
    let (timestamp, next) ← read32 size buffer next
    match ← readAction size kind buffer next with
    | (none, _) => pure none
    | (some action, stop) =>
        pure (some (⟨timestamp, id &&& Kind.timeTaggedBit != 0, action⟩, stop))

/-- Unpacks every command up to the sentinel or the end of the buffer. -/
noncomputable def unpackCommands (size : Nat) (buffer : List UInt8) : Checked (List Command) :=
  collect (fun offset =>
    if offset < buffer.length then readCommand size buffer offset else pure none)
    0 []

variable {size offset : Nat} {buffer : List UInt8} (room : buffer.length + 8 < size)

include room

/-- **The fields of every kind are read** without a stop. -/
theorem readAction_eq (kind : Kind) (within : offset ≤ buffer.length) :
    readAction size kind buffer offset = answer (Command.readAction kind buffer offset) := by
  cases kind with
  | endOfFrame | execObcReset | microSdFormat | ping | downlinkTelem | uplinkDisc | eraseApp
  | verifyCrc | i2cProbe => rfl
  | rtcSync => exact bind_eq_answer (read32_eq room within) fun _ _ => rfl
  | downlinkLogsNextPass | setProgrammingSession =>
      exact bind_eq_answer (readByte_eq room within) fun _ _ => rfl
  | downloadData =>
      refine bind_eq_answer (readByte_eq room within) fun (session, next) first => ?_
      have inside := (Wire.spans_of_readByte first).stop_le within
      refine bind_eq_answer (read16_eq room inside) fun (length, next') second => ?_
      have inside' := (Wire.spans_of_read16 second).stop_le inside
      exact bind_eq_answer (read32_eq room inside') fun _ _ => rfl
  | arm | execute =>
      refine bind_eq_answer (read32_eq room within) fun (data, next) first => ?_
      have inside := (Wire.spans_of_read32 first).stop_le within
      exact bind_eq_answer (read32_eq room inside) fun _ _ => rfl

/-- **Reading a command stops nowhere** in a buffer. -/
theorem readCommand_eq (within : offset ≤ buffer.length) :
    readCommand size buffer offset = answer (Command.read buffer offset) := by
  refine bind_eq_answer (readByte_eq room within) fun (id, next) first => ?_
  have inside := (Wire.spans_of_readByte first).stop_le within
  refine bind_eq_answer rfl fun kind _ => ?_
  dsimp only
  split
  · rfl
  · refine bind_eq_answer (read32_eq room inside) fun (timestamp, next') second => ?_
    have inside' := (Wire.spans_of_read32 second).stop_le inside
    refine bind_eq_answer (readAction_eq room kind inside') fun (action, stop) _ => ?_
    cases action <;> rfl

omit room in
/-- A list of commands is what a reader takes. -/
theorem commands_eq_takeAll (buffer : List UInt8) (limit offset : Nat) :
    Command.unpackFrom buffer limit offset =
      takeAll (fun offset =>
        if offset < buffer.length then Command.read buffer offset else .ok none)
        limit offset := by
  induction limit generalizing offset with
  | zero => rfl
  | succ limit ih =>
      rw [Command.unpackFrom, takeAll]
      by_cases more : offset < buffer.length
      · rw [if_pos more, if_pos more, Command.unpack]
        cases found : Command.read buffer offset with
        | error e => rfl
        | ok r =>
            match r with
            | none => rfl
            | some (c, stop) => exact congrArg (Except.map (c :: ·)) (ih stop)
      · rw [if_neg more, if_neg more]
        rfl

/-- **Unpacking commands ends**, and stops nowhere. -/
theorem unpackCommands_eq : unpackCommands size buffer = answer (Command.unpackList buffer) := by
  rw [unpackCommands, Command.unpackList, commands_eq_takeAll]
  refine collect_eq (fun offset within => ?_) (fun offset within c stop found => ?_)
    (if_neg (Nat.lt_irrefl _))
  · split
    · exact readCommand_eq room within
    · rfl
  · split at found
    · rcases Command.read_cases found with ⟨nothing, -⟩ | ⟨c', stop', same, span⟩
      · cases nothing
      · cases same
        have ends := span.stop_eq
        rw [Command.length_packed, Command.packedLength, Command.headerLength] at ends
        exact ⟨by omega, span.stop_le within⟩
    · cases found

end

/-! ## 4. Records -/

section

open Telemetry (Id Record Value ValueKind)

/-- Reads a value of a kind from its bytes. -/
def readValue (kind : ValueKind) (bytes : List UInt8) : Checked { v : Value // v.kind = kind } :=
  match kind with
  | .float32 => do pure ⟨.float32 (← word bytes), Eq.refl ValueKind.float32⟩
  | .uint8 => do pure ⟨.uint8 (← item bytes 0), Eq.refl ValueKind.uint8⟩
  | .uint32 => do pure ⟨.uint32 (← word bytes), Eq.refl ValueKind.uint32⟩

/-- Reads the record at an offset. -/
def readRecord (size : Nat) (buffer : List UInt8) (offset : Nat) :
    Checked (Option (Record × Nat)) := do
  match buffer[offset]? with
  | none => pure none
  | some code =>
      if code = 0 then pure none
      else
        let id ← answer (Id.ofCode code)
        let start ← add size offset 1
        let valueStart ← add size start 4
        let stop ← add size valueStart id.valueKind.size
        if buffer.length < stop then throw (.bufferTooSmall stop buffer.length)
        else
          let timestamp ← exactly 4 (← cut buffer start valueStart)
          let ⟨value, ofKind⟩ ← readValue id.valueKind (← cut buffer valueStart stop)
          let timestamp ← word timestamp.bytes
          pure (some (⟨id, timestamp, value, ofKind⟩, stop))

/-- Unpacks every record of a block, up to its padding. -/
noncomputable def unpackRecords (size : Nat) (buffer : List UInt8) : Checked (List Record) :=
  collect (readRecord size buffer) 0 []

/-- A word that is there. -/
theorem read32_of_le {buffer : List UInt8} {offset : Nat} (fits : offset + 4 ≤ buffer.length) :
    ∃ w, Wire.read32 buffer offset = .ok (w, offset + 4) ∧
      word ((buffer.drop offset).take 4) = pure w := by
  have enough : 4 ≤ (buffer.drop offset).length := by
    rw [List.length_drop]
    omega
  rw [Wire.read32]
  match buffer.drop offset, enough with
  | a :: b :: c :: d :: _, _ => exact ⟨_, rfl, rfl⟩

/-- **A value that is there is read.** -/
theorem readValue_eq {buffer : List UInt8} {offset : Nat} (kind : ValueKind)
    (fits : offset + kind.size ≤ buffer.length) :
    readValue kind ((buffer.drop offset).take kind.size) =
      answer (Record.readValue kind buffer offset) := by
  cases kind with
  | float32 | uint32 =>
      obtain ⟨w, read, same⟩ := read32_of_le fits
      simp only [readValue, Record.readValue, ValueKind.size, read, same, pure_bind]
      rfl
  | uint8 =>
      have inside : offset < buffer.length := fits
      rw [Record.readValue, Wire.readByte, List.drop_eq_getElem_cons inside]
      rfl

variable {size offset : Nat} {buffer : List UInt8} (room : buffer.length + 8 < size)

include room

/-- **Reading a record stops nowhere** in a buffer: how far it reaches is counted before it is cut
    out. -/
theorem readRecord_eq (within : offset ≤ buffer.length) :
    readRecord size buffer offset = answer (Record.read buffer offset) := by
  rw [readRecord, Record.read]
  rcases Nat.eq_or_lt_of_le within with rfl | inside
  · rw [List.getElem?_eq_none (Nat.le_refl _), List.drop_length]
    rfl
  · rw [List.getElem?_eq_getElem inside, List.drop_eq_getElem_cons inside]
    dsimp only
    split
    · rfl
    · refine bind_eq_answer rfl fun id _ => ?_
      have small : id.valueKind.size ≤ 4 := by cases id.valueKind <;> decide
      have start : offset + 1 < size := by omega
      have valueStart : offset + 1 + 4 < size := by omega
      have stop : offset + 1 + 4 + id.valueKind.size < size := by omega
      have reach : offset + 1 + 4 + id.valueKind.size =
          offset + (Record.headerLength + id.valueKind.size) := by
        rw [Record.headerLength]
        omega
      simp only [add_of_lt start, add_of_lt valueStart, add_of_lt stop, pure_bind, ← reach]
      by_cases short : buffer.length < offset + 1 + 4 + id.valueKind.size
      · rw [if_pos short, if_pos short, Wire.short, ← reach]
        rfl
      · have fits : offset + 1 + 4 + id.valueKind.size ≤ buffer.length := Nat.le_of_not_lt short
        have header : offset + 1 + 4 ≤ buffer.length := by omega
        obtain ⟨w, read, same⟩ := read32_of_le header
        have len : ((buffer.drop (offset + 1)).take 4).length = 4 := by
          rw [List.length_take, List.length_drop]
          omega
        have value := readValue_eq id.valueKind fits
        rw [if_neg short, if_neg short]
        simp only [cut_of_le (Nat.le_add_right (offset + 1) 4) header,
          cut_of_le (Nat.le_add_right (offset + 1 + 4) _) fits, Nat.add_sub_cancel_left, pure_bind,
          exactly_of_length len, read, same]
        exact bind_eq_answer value fun _ _ => rfl

omit room in
/-- The records of a block are what a reader takes. -/
theorem records_eq_takeAll (buffer : List UInt8) (limit offset : Nat) :
    Record.unpackFrom buffer limit offset = takeAll (Record.read buffer) limit offset := by
  induction limit generalizing offset with
  | zero => rfl
  | succ limit ih =>
      rw [Record.unpackFrom, takeAll, Record.unpack]
      cases Record.read buffer offset with
      | error e => rfl
      | ok r =>
          match r with
          | none => rfl
          | some (r, stop) => exact congrArg (Except.map (r :: ·)) (ih stop)

/-- **Unpacking a block ends**, and stops nowhere. -/
theorem unpackRecords_eq : unpackRecords size buffer = answer (Record.unpackBlock buffer) := by
  rw [unpackRecords, Record.unpackBlock, records_eq_takeAll]
  refine collect_eq (fun offset within => readRecord_eq room within)
    (fun offset within r stop found => ?_) ?_
  · rcases Record.read_cases found with ⟨nothing, -⟩ | ⟨r', stop', same, span⟩
    · cases nothing
    · cases same
      have ends := span.stop_eq
      rw [Record.length_packed, Record.packedLength, Record.headerLength] at ends
      exact ⟨by omega, span.stop_le within⟩
  · rw [Record.read, List.drop_length]
    rfl

end

end SatLink.Indexed
