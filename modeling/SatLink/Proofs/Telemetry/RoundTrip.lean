import SatLink.Proofs.Wire
import SatLink.Telemetry.Wire

/-!
# Records on the wire and back

As with commands, what is read is said of an offset behind which a record stands, whatever comes
after it, so that records can follow each other without a gap.

* `read_packed` — a packed record is read back, with the offset behind it;
* `unpackBlock_append` — so are the records of a block, whether they fill it or have padding behind
  them.
-/

namespace SatLink.Telemetry

open SatLink.Wire

/-! ## 1. One record -/

theorem Id.ofCode_code (i : Id) : ofCode i.code = .ok i := by
  cases i <;> rfl

theorem Id.code_ne_zero (i : Id) : i.code ≠ 0 := by
  cases i <;> decide

namespace Record

variable {buffer rest : List UInt8} {offset : Nat}

/-- A value is read back by its kind. -/
theorem readValue_bytes {kind : ValueKind} {v : Value} (same : v.kind = kind)
    (h : buffer.drop offset = v.bytes ++ rest) : readValue kind buffer offset = .ok ⟨v, same⟩ := by
  subst same
  cases v with
  | float32 bits =>
      show (read32 buffer offset).map _ = _
      rw [read32_of_drop h]
      rfl
  | uint8 value =>
      show (readByte buffer offset).map _ = _
      rw [readByte_of_drop h]
      rfl
  | uint32 value =>
      show (read32 buffer offset).map _ = _
      rw [read32_of_drop h]
      rfl

/-- **A packed record is read back**, whatever stands behind it. -/
theorem read_packed {r : Record} (h : buffer.drop offset = r.packed ++ rest) :
    read buffer offset = .ok (some (r, offset + r.packedLength)) := by
  obtain ⟨id, timestamp, value, same⟩ := r
  have h₁ : buffer.drop offset = [id.code] ++ (bytes32 timestamp ++ (value.bytes ++ rest)) := by
    rw [h, packed, List.cons_append, List.append_assoc]
    rfl
  have h₂ : buffer.drop (offset + 1) = bytes32 timestamp ++ (value.bytes ++ rest) :=
    drop_add_of_append h₁
  have h₃ : buffer.drop (offset + 1 + 4) = value.bytes ++ rest := drop_add_of_append h₂
  have whole : ¬ buffer.length < offset + (headerLength + id.valueKind.size) := by
    have len := congrArg List.length h₁
    simp only [List.length_drop, List.length_append, List.length_singleton, length_bytes32,
      Value.length_bytes, same] at len
    unfold headerLength
    omega
  unfold read
  rw [h₁]
  show (if id.code = 0 then _ else _) = _
  rw [if_neg id.code_ne_zero]
  show (Id.ofCode id.code >>= _) = _
  rw [Id.ofCode_code]
  show (if buffer.length < offset + (headerLength + id.valueKind.size) then _ else _) = _
  rw [if_neg whole]
  show (read32 buffer (offset + 1) >>= _) = _
  rw [read32_of_drop h₂]
  show (readValue id.valueKind buffer (offset + 1 + 4) >>= _) = _
  have length : packedLength ⟨id, timestamp, value, same⟩ = headerLength + id.valueKind.size :=
    congrArg (headerLength + ValueKind.size ·) same
  rw [readValue_bytes same h₃, length]
  rfl

theorem unpack_packed {r : Record} (h : buffer.drop offset = r.packed ++ rest) :
    unpack buffer offset = (.ok (some r), offset + r.packedLength) := by
  unfold unpack
  rw [read_packed h]

/-! ## 2. Blocks of records -/

/-- What can stand behind the records of a block: nothing, or padding. -/
def EndsBlock : List UInt8 → Prop
  | [] => True
  | code :: _ => code = 0

theorem endsBlock_zeros (k : Nat) : EndsBlock (List.replicate k 0) := by
  cases k with
  | zero => exact trivial
  | succ k => rfl

theorem unpack_end (ends : EndsBlock (buffer.drop offset)) :
    unpack buffer offset = (.ok none, offset) := by
  have sentinel : read buffer offset = .ok none := by
    unfold read
    cases e : buffer.drop offset with
    | nil => rfl
    | cons code rest =>
        rw [e] at ends
        exact if_pos ends
  unfold unpack
  rw [sentinel]

/-- The bytes of records, one behind the other. -/
def packedAll (records : List Record) : List UInt8 := records.flatMap packed

/-- **Packed records are read back** up to the padding behind them or the end of the buffer. -/
theorem unpackFrom_packed {records : List Record} {limit : Nat}
    (h : buffer.drop offset = packedAll records ++ rest) (ends : EndsBlock rest)
    (enough : records.length ≤ limit) : unpackFrom buffer limit offset = .ok records := by
  induction records generalizing limit offset with
  | nil =>
      cases limit with
      | zero => rfl
      | succ limit =>
          have stop : EndsBlock (buffer.drop offset) := by
            rw [h]
            exact ends
          unfold unpackFrom
          rw [unpack_end stop]
  | cons r rs ih =>
      cases limit with
      | zero => cases enough
      | succ limit =>
          have first : buffer.drop offset = r.packed ++ (packedAll rs ++ rest) := by
            rw [h, packedAll, List.flatMap_cons, List.append_assoc]
            rfl
          have behind := drop_add_of_append first
          rw [length_packed] at behind
          unfold unpackFrom
          rw [unpack_packed first]
          show (unpackFrom buffer limit (offset + r.packedLength)).map (r :: ·) = _
          rw [ih behind (Nat.le_of_succ_le_succ enough)]
          rfl

theorem length_le_length_packedAll (records : List Record) :
    records.length ≤ (packedAll records).length := by
  induction records with
  | nil => exact Nat.zero_le _
  | cons r rs ih =>
      unfold packedAll at ih ⊢
      rw [List.flatMap_cons, List.length_append, List.length_cons, length_packed, packedLength,
        headerLength]
      omega

/-- **The records of a block are read back**, whether they fill it or not. -/
theorem unpackBlock_append (records : List Record) (ends : EndsBlock rest) :
    unpackBlock (packedAll records ++ rest) = .ok records := by
  have many := length_le_length_packedAll records
  apply unpackFrom_packed rfl ends
  rw [List.length_append]
  omega

/-- No record is longer than the longest. -/
theorem packedLength_le (r : Record) : r.packedLength ≤ maxPackedLength := by
  unfold packedLength headerLength maxPackedLength
  cases r.value.kind <;> decide

end Record

end SatLink.Telemetry
