import SatLink.Proofs.Outcome
import SatLink.Proofs.Telemetry.RoundTrip

/-!
# Nothing but packed records is read

The other half of the round trip, and what becomes of a block that is no row of records.

* `read_cases` — where a record is read, its bytes stand; where none is read, the records end;
* `read_of_cut`, `read_of_unknown` — a record that is cut off and an id that no quantity has are
  reported, and with them the whole block (`unpackBlock_of_error`);
* `unpackBlock_eq_ok_iff` — a block holds some records exactly when it begins with their bytes and
  nothing or padding is behind them;
* `packInto` — packs records one behind the other; `block_canonical` — what packing and unpacking do
  to each other.
-/

namespace SatLink.Telemetry

open SatLink.Wire

/-! ## 1. Codes -/

theorem Id.code_of_ofCode {code : UInt8} {i : Id} (h : ofCode code = .ok i) : i.code = code := by
  unfold ofCode at h
  split at h
  · rename_i found
    cases h
    have hit := List.find?_some found
    exact eq_of_beq hit
  · cases h

theorem Id.ofCode_of_unknown {code : UInt8} (unknown : ∀ i : Id, i.code ≠ code) :
    ofCode code = .error (.unsupportedTelemetry code) := by
  have unknown : all.find? (·.code == code) = none := by
    rw [List.find?_eq_none]
    intro i _ same
    exact unknown i (eq_of_beq same)
  unfold ofCode
  rw [unknown]

namespace Record

variable {buffer rest : List UInt8} {offset stop : Nat}

/-! ## 2. One record -/

/-- Where a value is read, its bytes stand. -/
theorem spans_of_readValue {kind : ValueKind} {v : { v : Value // v.kind = kind }}
    (h : readValue kind buffer offset = .ok v) :
    Spans buffer offset v.val.bytes (offset + kind.size) := by
  cases kind with
  | float32 | uint32 =>
      obtain ⟨_, word, rfl⟩ := map_eq_ok_iff.mp h
      exact ⟨(spans_of_read32 word).isPrefix, rfl⟩
  | uint8 =>
      obtain ⟨_, byte, rfl⟩ := map_eq_ok_iff.mp h
      exact ⟨(spans_of_readByte byte).isPrefix, rfl⟩

/-- **What reading a record finds**: the end of the records, or the bytes of the record. -/
theorem read_cases {r : Option (Record × Nat)} (h : read buffer offset = .ok r) :
    (r = none ∧ EndsBlock (buffer.drop offset)) ∨
      ∃ record stop, r = some (record, stop) ∧ Spans buffer offset record.packed stop := by
  unfold read at h
  split at h
  · rename_i done
    cases h
    exact .inl ⟨rfl, by rw [done]; trivial⟩
  · rename_i code behind here
    split at h
    · rename_i zero
      cases h
      exact .inl ⟨rfl, by rw [here]; exact zero⟩
    · right
      obtain ⟨id, known, h⟩ := bind_eq_ok_iff.mp h
      dsimp only at h
      split at h
      · cases h
      · obtain ⟨⟨timestamp, next⟩, first, h⟩ := bind_eq_ok_iff.mp h
        obtain ⟨value, second, h⟩ := bind_eq_ok_iff.mp h
        cases h
        have front : Spans buffer offset [id.code] (offset + 1) :=
          ⟨⟨behind, by rw [here, Id.code_of_ofCode known]; rfl⟩, rfl⟩
        have whole := front.append ((spans_of_read32 first).append (spans_of_readValue second))
        refine ⟨_, _, rfl, whole.isPrefix, ?_⟩
        rw [length_packed, packedLength, value.property]

/-- **A record that is unpacked** stands at the offset, and the offset moves behind it. -/
theorem spans_of_unpack {r : Record} (h : unpack buffer offset = (.ok (some r), stop)) :
    Spans buffer offset r.packed stop := by
  unfold unpack at h
  split at h
  · rename_i found
    cases h
    rcases read_cases found with ⟨e, -⟩ | ⟨_, _, e, span⟩
    · cases e
    · cases e
      exact span
  · cases h
  · cases h

/-- Where unpacking stops without an error, the records end. -/
theorem endsBlock_of_unpack (h : unpack buffer offset = (.ok none, stop)) :
    EndsBlock (buffer.drop offset) := by
  unfold unpack at h
  split at h
  · cases h
  · rename_i found
    rcases read_cases found with ⟨-, ends⟩ | ⟨_, _, e, -⟩
    · exact ends
    · cases e
  · cases h

/-- **A record that is cut off** is reported with the length the buffer should have had. -/
theorem read_of_cut {id : Id} {cut : List UInt8} (h : buffer.drop offset = id.code :: cut)
    (missing : cut.length + 1 < headerLength + id.valueKind.size) :
    read buffer offset =
      .error (.bufferTooSmall (offset + (headerLength + id.valueKind.size)) buffer.length) := by
  have len := congrArg List.length h
  rw [List.length_drop, List.length_cons] at len
  have early : buffer.length < offset + (headerLength + id.valueKind.size) := by omega
  unfold read
  rw [h]
  show (if id.code = 0 then _ else _) = _
  rw [if_neg id.code_ne_zero]
  show (Id.ofCode id.code >>= _) = _
  rw [Id.ofCode_code]
  show (if buffer.length < offset + (headerLength + id.valueKind.size) then _ else _) = _
  rw [if_pos early]
  rfl

/-- **An id that no quantity has** is reported, whatever stands behind it. -/
theorem read_of_unknown {code : UInt8} {more : List UInt8} (h : buffer.drop offset = code :: more)
    (proper : code ≠ 0) (unknown : ∀ i : Id, i.code ≠ code) :
    read buffer offset = .error (.unsupportedTelemetry code) := by
  unfold read
  rw [h]
  show (if code = 0 then _ else _) = _
  rw [if_neg proper]
  show (Id.ofCode code >>= _) = _
  rw [Id.ofCode_of_unknown unknown]
  rfl

/-! ## 3. Blocks of records -/

/-- **What unpacking a block finds**, given that it is not stopped before the end of the buffer.
    Every record takes at least its five bytes of header, so the limit outlasts the buffer. -/
theorem exists_rest_of_unpackFrom {records : List Record} {limit : Nat}
    (enough : buffer.length ≤ offset + limit) (h : unpackFrom buffer limit offset = .ok records) :
    ∃ rest, buffer.drop offset = packedAll records ++ rest ∧ EndsBlock rest := by
  -- by the recursion of the reader; `enough` is kept because the offset moves by five or more
  induction limit generalizing offset records with
  | zero =>
      cases h
      exact ⟨[], List.drop_eq_nil_iff.mpr enough, trivial⟩
  | succ limit ih =>
      unfold unpackFrom at h
      split at h
      · rename_i r stop found
        obtain ⟨⟨behind, e⟩, hstop⟩ := spans_of_unpack found
        have forward : offset + 5 ≤ stop := by
          rw [hstop, length_packed, packedLength, headerLength]
          omega
        obtain ⟨rs, later, rfl⟩ := map_eq_ok_iff.mp h
        obtain ⟨tail, parts, ends⟩ := ih (by omega) later
        rw [hstop, drop_add_of_append e.symm] at parts
        refine ⟨tail, ?_, ends⟩
        rw [← e, parts, packedAll, packedAll, List.flatMap_cons, List.append_assoc]
      · rename_i found
        cases h
        exact ⟨buffer.drop offset, rfl, endsBlock_of_unpack found⟩
      · cases h

/-- **A block holds some records** exactly when it begins with their bytes and nothing or padding is
    behind them. -/
theorem unpackBlock_eq_ok_iff {records : List Record} :
    unpackBlock buffer = .ok records ↔
      ∃ rest, buffer = packedAll records ++ rest ∧ EndsBlock rest := by
  constructor
  · intro h
    have enough : buffer.length ≤ 0 + buffer.length := by omega
    exact exists_rest_of_unpackFrom enough h
  · rintro ⟨rest, rfl, ends⟩
    exact unpackBlock_append records ends

/-- Records before a place where reading fails do not hide the failure. -/
theorem unpackFrom_of_error {records : List Record} {limit : Nat} {e : LinkError}
    (h : buffer.drop offset = packedAll records ++ rest)
    (bad : read buffer (offset + (packedAll records).length) = .error e)
    (enough : records.length < limit) : unpackFrom buffer limit offset = .error e := by
  induction records generalizing limit offset with
  | nil =>
      cases limit with
      | zero => cases enough
      | succ limit =>
          have here : read buffer offset = .error e := bad
          unfold unpackFrom unpack
          rw [here]
  | cons r rs ih =>
      cases limit with
      | zero => cases enough
      | succ limit =>
          have first : buffer.drop offset = r.packed ++ (packedAll rs ++ rest) := by
            rw [h, packedAll, List.flatMap_cons, List.append_assoc]
            rfl
          have behind := drop_add_of_append first
          have last : offset + r.packed.length + (packedAll rs).length =
              offset + (packedAll (r :: rs)).length := by
            rw [packedAll, packedAll, List.flatMap_cons, List.length_append, Nat.add_assoc]
          rw [← last, length_packed] at bad
          rw [length_packed] at behind
          unfold unpackFrom
          rw [unpack_packed first]
          show (unpackFrom buffer limit (offset + r.packedLength)).map (r :: ·) = _
          rw [ih behind bad (Nat.lt_of_succ_lt_succ enough)]
          rfl

/-- **A failure behind some records fails the whole block.** -/
theorem unpackBlock_of_error {records : List Record} {code : UInt8} {more : List UInt8}
    {e : LinkError}
    (bad : read (packedAll records ++ code :: more) (packedAll records).length = .error e) :
    unpackBlock (packedAll records ++ code :: more) = .error e := by
  have many := length_le_length_packedAll records
  refine unpackFrom_of_error rfl (by rw [Nat.zero_add]; exact bad) ?_
  rw [List.length_append, List.length_cons]
  omega

theorem endsBlock_iff : EndsBlock rest ↔ rest = [] ∨ ∃ more, rest = 0 :: more := by
  cases rest with
  | nil => exact ⟨fun _ => .inl rfl, fun _ => trivial⟩
  | cons code more =>
      constructor
      · intro zero
        exact .inr ⟨more, congrArg (· :: more) zero⟩
      · rintro (ended | ⟨_, same⟩)
        · cases ended
        · cases same
          rfl

/-! ## 4. Packing records one behind the other -/

/-- Packs records one behind the other, each into what the one before it left of the buffer, and
    answers with the number of bytes written. -/
def packInto : List Record → List UInt8 → Except LinkError Nat × List UInt8
  | [], buffer => (.ok 0, buffer)
  | r :: rs, buffer =>
      match r.pack buffer with
      | (.ok n, written) =>
          let (outcome, behind) := packInto rs (written.drop n)
          (outcome.map (n + ·), written.take n ++ behind)
      | (.error e, unchanged) => (.error e, unchanged)

/-- **Records that all fit** are put into the buffer one behind the other. -/
theorem packInto_of_le {records : List Record} {buffer : List UInt8}
    (fits : (packedAll records).length ≤ buffer.length) :
    packInto records buffer = (.ok (packedAll records).length,
      packedAll records ++ buffer.drop (packedAll records).length) := by
  induction records generalizing buffer with
  | nil => rfl
  | cons r rs ih =>
      have all : packedAll (r :: rs) = r.packed ++ packedAll rs := rfl
      rw [all, List.length_append, length_packed] at fits
      have room : r.packedLength ≤ buffer.length := by omega
      have left : (packedAll rs).length ≤ (buffer.drop r.packedLength).length := by
        rw [List.length_drop]
        omega
      unfold packInto pack
      rw [if_pos room]
      dsimp only
      rw [List.drop_left' (length_packed r), List.take_left' (length_packed r), ih left, all,
        List.length_append, length_packed, List.drop_drop, List.append_assoc]
      rfl

/-- **Packing records is canonical**: a block is read as some records, each of the kind that its
    quantity has, exactly when it is their packing and then nothing or padding behind it. So records
    that fit a zeroed buffer come back from it; what was read is packed again to the bytes it was
    read from; and a record that is cut off or has the id of no quantity fails the whole block. -/
theorem block_canonical :
    (∀ buffer records, unpackBlock buffer = .ok records ↔
      (∀ r ∈ records, r.value.kind = r.id.valueKind) ∧ ∃ rest,
        buffer = records.flatMap packed ++ rest ∧ (rest = [] ∨ ∃ more, rest = 0 :: more)) ∧
    (∀ records size, (records.flatMap packed).length ≤ size → ∃ buffer,
      packInto records (List.replicate size 0) = (.ok (records.flatMap packed).length, buffer) ∧
        unpackBlock buffer = .ok records) ∧
    (∀ buffer records, unpackBlock buffer = .ok records →
      (records.flatMap packed).length ≤ buffer.length ∧
      ∀ out, (records.flatMap packed).length ≤ out.length → packInto records out =
        (.ok (records.flatMap packed).length, buffer.take (records.flatMap packed).length ++
          out.drop (records.flatMap packed).length)) ∧
    (∀ (records : List Record) (id : Id) (cut : List UInt8),
      (id.code :: cut).length < headerLength + id.valueKind.size →
      unpackBlock (records.flatMap packed ++ id.code :: cut) = .error (.bufferTooSmall
        ((records.flatMap packed).length + (headerLength + id.valueKind.size))
        (records.flatMap packed ++ id.code :: cut).length)) ∧
    (∀ (records : List Record) (code : UInt8) (more : List UInt8), code ≠ 0 →
      (∀ i : Id, i.code ≠ code) →
      unpackBlock (records.flatMap packed ++ code :: more) =
        .error (.unsupportedTelemetry code)) := by
  refine ⟨fun buffer records => ?_, fun records size fits => ?_, fun buffer records h => ?_,
    fun records id cut missing => ?_, fun records code more proper unknown => ?_⟩
  · rw [unpackBlock_eq_ok_iff, and_iff_right fun r _ => r.kind_eq]
    exact exists_congr fun rest => and_congr_right fun _ => endsBlock_iff
  · refine ⟨_, packInto_of_le (by rw [List.length_replicate]; exact fits), ?_⟩
    rw [List.drop_replicate]
    exact unpackBlock_append records (endsBlock_zeros _)
  · obtain ⟨rest, rfl, -⟩ := unpackBlock_eq_ok_iff.mp h
    refine ⟨?_, fun out fits => ?_⟩
    · rw [packedAll, List.length_append]
      omega
    · rw [packedAll, List.take_left' rfl]
      exact packInto_of_le fits
  · exact unpackBlock_of_error (read_of_cut (List.drop_left' rfl) missing)
  · exact unpackBlock_of_error (read_of_unknown (List.drop_left' rfl) proper unknown)

/-- A temperature that is no number, with a payload, and a counter: they fill a buffer to its last
    byte, come back from it with every bit, and cut off or with an unknown id behind them they are
    not read at all. -/
theorem block_canonical_not_a_number :
    let temperature : Record := ⟨.obcTemp, 7, .float32 0x7FC01234, rfl⟩
    let state : Record := ⟨.obcState, 8, .uint8 3, rfl⟩
    let records := [temperature, state]
    let bytes := records.flatMap packed
    bytes.length = 15 ∧
      (∃ buffer, packInto records (List.replicate 15 0) = (.ok 15, buffer) ∧
        unpackBlock buffer = .ok records) ∧
      unpackBlock (bytes ++ [0, 3, 7]) = .ok records ∧
      packInto records (List.replicate 16 0xEE) = (.ok 15, (bytes ++ [0, 3, 7]).take 15 ++ [0xEE]) ∧
      unpackBlock (bytes ++ [3, 0, 0]) = .error (.bufferTooSmall 24 18) ∧
      (∀ i : Id, i.code ≠ 27) ∧
        unpackBlock (bytes ++ [27]) = .error (.unsupportedTelemetry 27) := by
  intro temperature state records bytes
  obtain ⟨accepts, inverse, again, cut, unknown⟩ := block_canonical
  have read : unpackBlock (bytes ++ [0, 3, 7]) = .ok records :=
    (accepts _ _).mpr ⟨fun r _ => r.kind_eq, _, rfl, .inr ⟨_, rfl⟩⟩
  have unused : ∀ i : Id, i.code ≠ 27 := by
    intro i
    cases i <;> decide
  exact ⟨rfl, inverse records 15 (Nat.le_refl _), read, (again _ _ read).2 _ (by decide),
    cut records .obcTemp [0, 0] (by decide), unused, unknown records 27 [] (by decide) unused⟩

end Record

end SatLink.Telemetry
