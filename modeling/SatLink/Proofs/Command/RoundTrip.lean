import SatLink.Command.Wire
import SatLink.Proofs.Overwriting
import SatLink.Proofs.Wire

/-!
# Commands on the wire and back

Every lemma on reading says what is read from an offset behind which some bytes stand, whatever
comes after them, so that commands can follow each other without a gap.

* `read_packed` — a packed command is read back, with the offset behind it;
* `unpackList_append` — so is a list of commands that fills a buffer, or has the sentinel behind it;
* `packList_of_le`, `packList_of_lt` — a list of commands is packed when it fits the buffer, and
  refused otherwise.
-/

namespace SatLink.Command

open SatLink.Wire

/-! ## 1. One command -/

/-- The kind of an id byte stands in its low seven bits. -/
theorem Kind.code_of_ofId {id : UInt8} {kind : Kind} (h : ofId id = .ok kind) :
    kind.code = id &&& ~~~timeTaggedBit := by
  unfold ofId at h
  dsimp only at h
  split at h
  · rename_i found
    cases h
    have hit := List.find?_some found
    exact eq_of_beq hit
  · cases h

/-- The sentinel is an id byte whose low seven bits are zero. -/
theorem Kind.ofId_eq_endOfFrame_iff (id : UInt8) :
    ofId id = .ok .endOfFrame ↔ id &&& 0x7F = 0 := by
  constructor
  · intro h
    exact (code_of_ofId h).symm
  · intro zero
    have code : id &&& ~~~timeTaggedBit = 0 := zero
    unfold ofId
    rw [code]
    rfl

/-- The id byte of a command says its kind. -/
theorem ofId_idByte (c : Command) : Kind.ofId c.idByte = .ok c.kind := by
  unfold idByte
  cases c.timeTagged <;> cases c.kind <;> rfl

/-- The id byte of a command says whether it is time-tagged. -/
theorem timeTagged_idByte (c : Command) :
    (c.idByte &&& Kind.timeTaggedBit != 0) = c.timeTagged := by
  unfold idByte
  cases c.timeTagged <;> cases c.kind <;> rfl

theorem kind_ne_endOfFrame (c : Command) : c.kind ≠ .endOfFrame := by
  unfold kind
  cases c.action <;> exact Kind.noConfusion

/-- The fields of an action are read back. -/
theorem readAction_fieldBytes {buffer rest : List UInt8} {offset : Nat} (a : Action)
    (h : buffer.drop offset = a.fieldBytes ++ rest) :
    readAction a.kind buffer offset = .ok (some a, offset + a.fieldsLength) := by
  cases a with
  | execObcReset | microSdFormat | ping | downlinkTelem | uplinkDisc | eraseApp | verifyCrc
  | i2cProbe => rfl
  | rtcSync unixTime =>
      show (read32 buffer offset >>= _) = _
      rw [read32_of_drop h]
      rfl
  | downlinkLogsNextPass logLevel =>
      show (readByte buffer offset >>= _) = _
      rw [readByte_of_drop h]
      rfl
  | setProgrammingSession session =>
      show (readByte buffer offset >>= _) = _
      rw [readByte_of_drop h]
      rfl
  | downloadData session length address =>
      have h₁ : buffer.drop offset =
          [session] ++ (bytes16 length ++ (bytes32 address ++ rest)) := by
        rw [h]
        simp [Action.fieldBytes]
      have h₂ : buffer.drop (offset + 1) = bytes16 length ++ (bytes32 address ++ rest) :=
        drop_add_of_append h₁
      have h₃ : buffer.drop (offset + 1 + 2) = bytes32 address ++ rest := drop_add_of_append h₂
      show (readByte buffer offset >>= _) = _
      rw [readByte_of_drop h₁]
      show (read16 buffer (offset + 1) >>= _) = _
      rw [read16_of_drop h₂]
      show (read32 buffer (offset + 1 + 2) >>= _) = _
      rw [read32_of_drop h₃]
      rfl
  | arm data id | execute data id =>
      have h₁ : buffer.drop offset = bytes32 data ++ (bytes32 id ++ rest) := by
        rw [h]
        exact List.append_assoc ..
      have h₂ : buffer.drop (offset + 4) = bytes32 id ++ rest := drop_add_of_append h₁
      show (read32 buffer offset >>= _) = _
      rw [read32_of_drop h₁]
      show (read32 buffer (offset + 4) >>= _) = _
      rw [read32_of_drop h₂]
      rfl

/-- **A packed command is read back**, whatever stands behind it. -/
theorem read_packed {c : Command} {buffer rest : List UInt8} {offset : Nat}
    (h : buffer.drop offset = c.packed ++ rest) :
    read buffer offset = .ok (some (c, offset + c.packedLength)) := by
  have h₁ : buffer.drop offset =
      [c.idByte] ++ (bytes32 c.timestamp ++ (c.action.fieldBytes ++ rest)) := by
    rw [h, packed, List.cons_append, List.append_assoc]
    rfl
  have h₂ : buffer.drop (offset + 1) = bytes32 c.timestamp ++ (c.action.fieldBytes ++ rest) :=
    drop_add_of_append h₁
  have h₃ : buffer.drop (offset + 1 + 4) = c.action.fieldBytes ++ rest := drop_add_of_append h₂
  show (readByte buffer offset >>= _) = _
  rw [readByte_of_drop h₁]
  show (Kind.ofId c.idByte >>= _) = _
  rw [ofId_idByte]
  show (if c.kind = .endOfFrame then _ else _) = _
  rw [if_neg (kind_ne_endOfFrame c)]
  show (read32 buffer (offset + 1) >>= _) = _
  rw [read32_of_drop h₂]
  show (readAction c.action.kind buffer (offset + 1 + 4) >>= _) = _
  rw [readAction_fieldBytes c.action h₃]
  show Except.ok
      (some ((⟨c.timestamp, c.idByte &&& Kind.timeTaggedBit != 0, c.action⟩ : Command), _))
    = _
  rw [timeTagged_idByte, packedLength, headerLength, ← Nat.add_assoc]

theorem unpack_packed {c : Command} {buffer rest : List UInt8} {offset : Nat}
    (h : buffer.drop offset = c.packed ++ rest) :
    unpack buffer offset = (.ok (some c), offset + c.packedLength) := by
  unfold unpack
  rw [read_packed h]

/-- The sentinel ends a list of commands, whatever stands behind it. -/
theorem unpack_sentinel {buffer rest : List UInt8} {offset : Nat} {id : UInt8}
    (h : buffer.drop offset = id :: rest) (zero : id &&& 0x7F = 0) :
    unpack buffer offset = (.ok none, offset) := by
  have sentinel : read buffer offset = .ok none := by
    show (readByte buffer offset >>= _) = _
    rw [readByte_of_drop h]
    show (Kind.ofId id >>= _) = _
    rw [(Kind.ofId_eq_endOfFrame_iff id).mpr zero]
    rfl
  unfold unpack
  rw [sentinel]

/-! ## 2. Lists of commands -/

theorem lt_length_of_drop {buffer rest : List UInt8} {offset : Nat} {b : UInt8}
    (h : buffer.drop offset = b :: rest) : offset < buffer.length := by
  by_contra beyond
  rw [List.drop_eq_nil_of_le (by omega)] at h
  cases h

/-- What can stand behind a list of commands: nothing, or bytes of which the first is the
    sentinel. -/
def EndsList : List UInt8 → Prop
  | [] => True
  | id :: _ => id &&& 0x7F = 0

theorem endsList_iff {rest : List UInt8} :
    EndsList rest ↔ rest = [] ∨ ∃ id more, rest = id :: more ∧ id &&& 0x7F = 0 := by
  cases rest with
  | nil => exact ⟨fun _ => .inl rfl, fun _ => trivial⟩
  | cons id more =>
      constructor
      · intro zero
        exact .inr ⟨id, more, rfl, zero⟩
      · rintro (ended | ⟨_, _, same, zero⟩)
        · cases ended
        · cases same
          exact zero

theorem endsList_zeros (k : Nat) : EndsList (List.replicate k 0) := by
  cases k with
  | zero => exact trivial
  | succ k => rfl

/-- **Packed commands are read back** up to the sentinel behind them or the end of the buffer. -/
theorem unpackFrom_packed {commands : List Command} {buffer rest : List UInt8} {limit offset : Nat}
    (h : buffer.drop offset = commands.flatMap packed ++ rest) (ends : EndsList rest)
    (enough : commands.length ≤ limit) : unpackFrom buffer limit offset = .ok commands := by
  induction commands generalizing limit offset with
  | nil =>
      cases limit with
      | zero => rfl
      | succ limit =>
          unfold unpackFrom
          cases rest with
          | nil =>
              have done : ¬ offset < buffer.length := by
                rw [Nat.not_lt]
                exact List.drop_eq_nil_iff.mp h
              rw [if_neg done]
          | cons id rest =>
              have sentinel : buffer.drop offset = id :: rest := h
              rw [if_pos (lt_length_of_drop sentinel), unpack_sentinel sentinel ends]
  | cons c cs ih =>
      cases limit with
      | zero => cases enough
      | succ limit =>
          have first : buffer.drop offset = c.packed ++ (cs.flatMap packed ++ rest) := by
            rw [h, List.flatMap_cons, List.append_assoc]
          have behind := drop_add_of_append first
          rw [length_packed] at behind
          unfold unpackFrom
          rw [if_pos (lt_length_of_drop (first.trans rfl)), unpack_packed first]
          show (unpackFrom buffer limit (offset + c.packedLength)).map (c :: ·) = _
          rw [ih behind (Nat.le_of_succ_le_succ enough)]
          rfl

/-- The bytes of a list of commands. -/
def packedAll (commands : List Command) : List UInt8 := commands.flatMap packed

/-- How many bytes a list of commands takes. -/
def totalLength (commands : List Command) : Nat := (commands.map packedLength).sum

theorem length_packedAll (commands : List Command) :
    (packedAll commands).length = totalLength commands := by
  rw [packedAll, totalLength, List.length_flatMap]
  simp only [length_packed]

theorem length_le_totalLength (commands : List Command) :
    commands.length ≤ totalLength commands := by
  induction commands with
  | nil => exact Nat.zero_le _
  | cons c cs ih =>
      unfold totalLength at ih ⊢
      rw [List.map_cons, List.sum_cons, List.length_cons, packedLength, headerLength]
      omega

/-- **A list of commands is read back** from its bytes and what ends it. -/
theorem unpackList_append (commands : List Command) {rest : List UInt8} (ends : EndsList rest) :
    unpackList (packedAll commands ++ rest) = .ok commands := by
  have many := length_le_totalLength commands
  apply unpackFrom_packed rfl ends
  rw [List.length_append, length_packedAll]
  omega

theorem unpackList_packedAll (commands : List Command) (k : Nat) :
    unpackList (packedAll commands ++ List.replicate k 0) = .ok commands :=
  unpackList_append commands (endsList_zeros k)

/-! ## 3. Packing -/

/-- The buffer with some bytes put at the offset, and the offset behind them. -/
def Packing.put (p : Packing) (bytes : List UInt8) : Packing :=
  ⟨p.buffer.take p.offset ++ (bytes ++ p.buffer.drop (p.offset + bytes.length)),
    p.offset + bytes.length⟩

theorem Packing.put_eq (p : Packing) (bytes : List UInt8) :
    p.put bytes = ⟨putAt p.buffer p.offset bytes, p.offset + bytes.length⟩ := rfl

theorem Packing.put_nil (p : Packing) : p.put [] = p := by
  rw [put_eq, putAt_nil]
  rfl

theorem Packing.length_put {p : Packing} {bytes : List UInt8}
    (fits : p.offset + bytes.length ≤ p.buffer.length) :
    (p.put bytes).buffer.length = p.buffer.length := length_putAt fits

theorem Packing.put_put {p : Packing} {a b : List UInt8}
    (fits : p.offset + a.length ≤ p.buffer.length) : (p.put a).put b = p.put (a ++ b) := by
  rw [put_eq, put_eq, put_eq, putAt_putAt fits, List.length_append, Nat.add_assoc]

theorem pack_of_le {c : Command} {p : Packing}
    (fits : p.offset + c.packedLength ≤ p.buffer.length) :
    c.pack p = (.ok c.packedLength, p.put c.packed) := by
  unfold pack Packing.put
  dsimp only
  rw [if_pos fits, length_packed]

theorem pack_of_lt {c : Command} {p : Packing}
    (exceeds : p.buffer.length < p.offset + c.packedLength) :
    c.pack p = (.error (.bufferTooSmall (p.offset + c.packedLength) p.buffer.length), p) := by
  unfold pack
  exact if_neg (Nat.not_le.mpr exceeds)

theorem totalLength_cons (c : Command) (cs : List Command) :
    totalLength (c :: cs) = c.packedLength + totalLength cs := rfl

/-- **Commands that all fit** are put into the buffer one behind the other. -/
theorem packAll_of_le {commands : List Command} {p : Packing}
    (fits : p.offset + totalLength commands ≤ p.buffer.length) :
    packAll commands p = (.ok (), p.put (packedAll commands)) := by
  induction commands generalizing p with
  | nil =>
      show (Except.ok (), p) = (Except.ok (), p.put [])
      rw [Packing.put_nil]
  | cons c cs ih =>
      rw [totalLength_cons] at fits
      have first : p.offset + c.packed.length ≤ p.buffer.length := by
        rw [length_packed]
        omega
      unfold packAll
      rw [pack_of_le (by omega)]
      show packAll cs (p.put c.packed) = _
      rw [ih, Packing.put_put first]
      · rfl
      · rw [Packing.length_put first]
        show p.offset + c.packed.length + totalLength cs ≤ p.buffer.length
        rw [length_packed]
        omega

/-- **Commands that do not all fit** are refused, with what the first of them would have needed. -/
theorem packAll_of_lt {commands : List Command} {p : Packing}
    (within : p.offset ≤ p.buffer.length)
    (exceeds : p.buffer.length < p.offset + totalLength commands) :
    ∃ needed, (packAll commands p).1 = .error (.bufferTooSmall needed p.buffer.length) := by
  induction commands generalizing p with
  | nil =>
      have total : totalLength [] = 0 := rfl
      omega
  | cons c cs ih =>
      rw [totalLength_cons] at exceeds
      unfold packAll
      rcases Nat.lt_or_ge p.buffer.length (p.offset + c.packedLength) with missing | enough
      · rw [pack_of_lt missing]
        exact ⟨_, rfl⟩
      · have first : p.offset + c.packed.length ≤ p.buffer.length := by
          rw [length_packed]
          exact enough
        have len := Packing.length_put first
        have offset : (p.put c.packed).offset = p.offset + c.packedLength := by
          rw [← length_packed]
          rfl
        rw [pack_of_le enough, ← len]
        show ∃ needed, (packAll cs (p.put c.packed)).1 = _
        exact ih (by rw [len, offset]; exact enough) (by rw [len, offset]; omega)

/-- **A list of commands is packed** from the start of a buffer that is large enough. -/
theorem packList_of_le {commands : List Command} {buffer : List UInt8}
    (fits : totalLength commands ≤ buffer.length) :
    packList buffer commands = (.ok (totalLength commands),
      packedAll commands ++ buffer.drop (totalLength commands)) := by
  have start : 0 + totalLength commands ≤ buffer.length := by
    rw [Nat.zero_add]
    exact fits
  have all := packAll_of_le (p := ⟨buffer, 0⟩) start
  unfold packList
  rw [all]
  unfold Packing.put
  simp only [Nat.zero_add, length_packedAll, List.take_zero, List.nil_append]

theorem packList_of_lt {commands : List Command} {buffer : List UInt8}
    (exceeds : buffer.length < totalLength commands) :
    ∃ needed, (packList buffer commands).1 = .error (.bufferTooSmall needed buffer.length) := by
  have start : buffer.length < 0 + totalLength commands := by
    rw [Nat.zero_add]
    exact exceeds
  obtain ⟨needed, refused⟩ := packAll_of_lt (p := ⟨buffer, 0⟩) (Nat.zero_le _) start
  refine ⟨needed, ?_⟩
  unfold packList
  cases e : packAll commands ⟨buffer, 0⟩ with
  | mk outcome p =>
      rw [e] at refused
      cases refused
      rfl

end SatLink.Command
