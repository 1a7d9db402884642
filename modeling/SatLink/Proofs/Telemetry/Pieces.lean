import SatLink.Proofs.Telemetry.Canonical
import SatLink.Telemetry.Source

/-!
# Reading a store in pieces

A store gives its bytes in pieces of any sizes, and a read can fail. Where one piece ends and the
next begins has no say in what is unpacked.

* `Record.front_cases` — what can stand in front of some bytes: the end of the records, a record, a
  record that is cut off, or the id of no quantity;
* `Record.unpack_shift` — unpacking tells the same of bytes that are followed by others, if it
  cannot reach these;
* `StoreReader.At` — the invariant: what a reader has not unpacked yet is the data from a place on;
* `StoreReader.pulls_eq_unpacks` — **pulling records from a store is unpacking its bytes**, the
  failed reads apart.
-/

namespace SatLink.Telemetry

open SatLink.Wire

/-! ## 1. What stands in front -/

/-- Bytes that suffice for a value of a kind begin with one. -/
theorem Value.exists_append {kind : ValueKind} {bytes : List UInt8}
    (enough : kind.size ≤ bytes.length) :
    ∃ v : Value, v.kind = kind ∧ ∃ rest, bytes = v.bytes ++ rest := by
  cases kind with
  | uint8 =>
      obtain ⟨b, rest, rfl⟩ := List.exists_cons_of_length_pos enough
      exact ⟨.uint8 b, rfl, rest, rfl⟩
  | float32 =>
      obtain ⟨w, rest, rfl⟩ := exists_bytes32_append enough
      exact ⟨.float32 w, rfl, rest, rfl⟩
  | uint32 =>
      obtain ⟨w, rest, rfl⟩ := exists_bytes32_append enough
      exact ⟨.uint32 w, rfl, rest, rfl⟩

namespace Record

/-- **What can stand in front of some bytes.** -/
theorem front_cases (bytes : List UInt8) :
    EndsBlock bytes ∨ (∃ r rest, bytes = packed r ++ rest) ∨
    (∃ (id : Id) (cut : List UInt8), bytes = id.code :: cut ∧
      cut.length + 1 < headerLength + id.valueKind.size) ∨
    ∃ code more, bytes = code :: more ∧ code ≠ 0 ∧ ∀ i : Id, i.code ≠ code := by
  cases bytes with
  | nil => exact .inl trivial
  | cons code more =>
      by_cases zero : code = 0
      · exact .inl zero
      by_cases known : ∃ id : Id, id.code = code
      · obtain ⟨id, rfl⟩ := known
        rcases Nat.lt_or_ge (more.length + 1) (headerLength + id.valueKind.size) with cut | whole
        · exact .inr (.inr (.inl ⟨id, more, rfl, cut⟩))
        · unfold headerLength at whole
          obtain ⟨timestamp, behind, rfl⟩ := exists_bytes32_append (show 4 ≤ more.length by omega)
          rw [List.length_append, length_bytes32] at whole
          have enough : id.valueKind.size ≤ behind.length := by omega
          obtain ⟨value, same, rest, rfl⟩ := Value.exists_append enough
          refine .inr (.inl ⟨⟨id, timestamp, value, same⟩, rest, ?_⟩)
          rw [packed, List.cons_append, List.append_assoc]
      · exact .inr (.inr (.inr ⟨code, more, rfl, zero, fun i same => known ⟨i, same⟩⟩))

/-! ## 2. Unpacking in front of more bytes -/

/-- Two answers are the same, the numbers of a buffer that is too small apart. -/
def Alike (answer answer' : Except LinkError (Option Record)) : Prop :=
  answer = answer' ∨ ∃ needed available needed' available',
    answer = .error (.bufferTooSmall needed available) ∧
      answer' = .error (.bufferTooSmall needed' available')

/-- The reason of a read that failed, where an answer is one. -/
def readFailure : Except LinkError (Option Record) → Option String
  | .error (.transport reason) => some reason
  | _ => none

theorem unpack_of_error {buffer : List UInt8} {offset : Nat} {e : LinkError}
    (h : read buffer offset = .error e) : unpack buffer offset = (.error e, offset) := by
  unfold unpack
  rw [h]

section

variable {buffer data rest : List UInt8} {offset place : Nat}

theorem EndsBlock.append {bytes : List UInt8} (ends : EndsBlock bytes) (nonempty : bytes ≠ []) :
    EndsBlock (bytes ++ rest) := by
  cases bytes with
  | nil => exact absurd rfl nonempty
  | cons code more => exact ends

/-- **Unpacking tells the same** of bytes at any place of a buffer and of the data that they are a
    part of, if they go on to the end of the data or are as long as the longest record. It is never
    the answer of a failed read, and moves equally far. -/
theorem unpack_shift (here : buffer.drop offset ++ rest = data.drop place)
    (enough : rest = [] ∨ maxPackedLength ≤ (buffer.drop offset).length) :
    Alike (unpack buffer offset).1 (unpack data place).1 ∧
      readFailure (unpack buffer offset).1 = none ∧
      ∃ k, k ≤ (buffer.drop offset).length ∧ (unpack buffer offset).2 = offset + k ∧
        (unpack data place).2 = place + k := by
  rcases front_cases (buffer.drop offset) with
    ends | ⟨r, more, front⟩ | ⟨id, cut, front, missing⟩ | ⟨code, more, front, proper, unknown⟩
  · have ends' : EndsBlock (data.drop place) := by
      by_cases drained : buffer.drop offset = []
      · have last : rest = [] := by
          rcases enough with last | long
          · exact last
          · rw [drained] at long
            cases long
        rw [← here, drained, last]
        trivial
      · rw [← here]
        exact EndsBlock.append ends drained
    rw [unpack_end ends, unpack_end ends']
    exact ⟨.inl rfl, rfl, 0, Nat.zero_le _, rfl, rfl⟩
  · have front' : data.drop place = r.packed ++ (more ++ rest) := by
      rw [← here, front, List.append_assoc]
    rw [unpack_packed front, unpack_packed front']
    refine ⟨.inl rfl, rfl, r.packedLength, ?_, rfl, rfl⟩
    rw [front, List.length_append, length_packed]
    exact Nat.le_add_right ..
  · have last : rest = [] := by
      rcases enough with last | long
      · exact last
      · -- what is cut off is shorter than the longest record
        rw [front, List.length_cons] at long
        have most : headerLength + id.valueKind.size ≤ maxPackedLength := by
          unfold headerLength maxPackedLength
          cases id.valueKind <;> decide
        omega
    have front' : data.drop place = id.code :: cut := by
      rw [← here, front, last, List.append_nil]
    rw [unpack_of_error (read_of_cut front missing), unpack_of_error (read_of_cut front' missing)]
    exact ⟨.inr ⟨_, _, _, _, rfl, rfl⟩, rfl, 0, Nat.zero_le _, rfl, rfl⟩
  · have front' : data.drop place = code :: (more ++ rest) := by
      rw [← here, front]
      rfl
    rw [unpack_of_error (read_of_unknown front proper unknown),
      unpack_of_error (read_of_unknown front' proper unknown)]
    exact ⟨.inl rfl, rfl, 0, Nat.zero_le _, rfl, rfl⟩

end

end Record

/-! ## 3. Stores -/

namespace Store

/-- The reasons of the reads that are going to fail. -/
def failures (s : Store) : List String :=
  s.plan.filterMap fun
    | .atMost _ => none
    | .fails reason => some reason

/-- A read gives no byte only at the end of the data. -/
def Proper (s : Store) : Prop := ∀ k, .atMost k ∈ s.plan → 1 ≤ k

/-- **One read**: it fails and takes nothing, or it takes some bytes off the data, and none only if
    there are none. -/
theorem read_cases {s : Store} (proper : s.Proper) {n : Nat} (room : 1 ≤ n) :
    ∃ s', s'.Proper ∧
      ((∃ reason, s.read n = (.error (.transport reason), s') ∧ s'.data = s.data ∧
          s.failures = reason :: s'.failures) ∨
        ∃ bytes, s.read n = (.ok bytes, s') ∧ s.data = bytes ++ s'.data ∧
          (bytes = [] → s.data = []) ∧ s.failures = s'.failures) := by
  obtain ⟨data, plan⟩ := s
  have ended (k : Nat) (positive : 1 ≤ k) (empty : data.take k = []) : data = [] := by
    rcases List.take_eq_nil_iff.mp empty with zero | nothing
    · omega
    · exact nothing
  cases plan with
  | nil =>
      refine ⟨⟨data.drop n, []⟩, nofun, .inr ⟨data.take n, rfl, ?_, ended n room, rfl⟩⟩
      exact (List.take_append_drop n data).symm
  | cons piece plan =>
      have later : (⟨data, plan⟩ : Store).Proper := fun k member =>
        proper k (List.mem_cons_of_mem _ member)
      cases piece with
      | atMost k =>
          have positive : 1 ≤ min n k := Nat.le_min.mpr ⟨room, proper k List.mem_cons_self⟩
          refine ⟨⟨data.drop (min n k), plan⟩, later, .inr ⟨_, rfl, ?_, ended _ positive, rfl⟩⟩
          exact (List.take_append_drop _ data).symm
      | fails reason => exact ⟨⟨data, plan⟩, later, .inl ⟨reason, rfl, rfl, rfl⟩⟩

end Store

/-! ## 4. Readers -/

namespace StoreReader

/-- A reader has come to a place of the data: what it has not unpacked, in its buffer and in the
    store, is the data from there on. -/
structure At (data : List UInt8) (place : Nat) (r : StoreReader) : Prop where
  offset_le : r.offset ≤ r.buffer.length
  rest_eq : r.buffer.drop r.offset ++ r.store.data = data.drop place
  atEnd : r.exhausted = true → r.store.data = []
  proper : r.store.Proper

/-- Unpacking cannot reach beyond the buffer. -/
def Filled (r : StoreReader) : Prop :=
  r.exhausted = true ∨ Record.maxPackedLength ≤ r.buffer.length - r.offset

section

variable {data : List UInt8} {place : Nat} {r : StoreReader}

theorem at_start {s : Store} (proper : s.Proper) : At s.data 0 { store := s } where
  offset_le := Nat.le_refl 0
  rest_eq := rfl
  atEnd := nofun
  proper := proper

/-- **Refilling** leaves the reader at its place. Every read brings a byte or the end of the data,
    so as many reads as bytes are missing are enough; a failed read ends it. -/
theorem At.refill {limit : Nat} (h : At data place r) (start : r.offset = 0)
    (enough : r.exhausted = true ∨ Record.maxPackedLength ≤ r.buffer.length + limit) :
    ∃ r', At data place r' ∧
      ((∃ reason, StoreReader.refill limit r = (.error (.transport reason), r') ∧
          r.store.failures = reason :: r'.store.failures) ∨
        StoreReader.refill limit r = (.ok (), r') ∧ r'.Filled ∧
          r.store.failures = r'.store.failures) := by
  induction limit generalizing r with
  | zero =>
      refine ⟨r, h, .inr ⟨rfl, ?_, rfl⟩⟩
      unfold Filled
      rwa [start]
  | succ limit ih =>
      unfold StoreReader.refill
      by_cases done : (r.exhausted || decide (Record.maxPackedLength ≤ r.buffer.length)) = true
      · rw [if_pos done]
        refine ⟨r, h, .inr ⟨rfl, ?_, rfl⟩⟩
        unfold Filled
        rw [start]
        simpa using done
      · rw [if_neg done]
        rw [Bool.or_eq_true, not_or] at done
        have missing : Record.maxPackedLength ≤ r.buffer.length + (limit + 1) :=
          enough.resolve_left done.1
        obtain ⟨s, proper, read⟩ := Store.read_cases h.proper (show 1 ≤ chunkLength by decide)
        rcases read with ⟨reason, failed, untouched, failing⟩ | ⟨bytes, given, parts, last, failing⟩
        · rw [failed]
          refine ⟨{ r with store := s }, ⟨h.offset_le, ?_, ?_, proper⟩, .inl ⟨reason, rfl, failing⟩⟩
          · rw [untouched]
            exact h.rest_eq
          · rw [untouched]
            exact h.atEnd
        · rw [given, failing]
          refine ih ⟨?_, ?_, ?_, proper⟩ start ?_
          · rw [start]
            exact Nat.zero_le _
          · have before := h.rest_eq
            rw [start, List.drop_zero] at before ⊢
            rw [List.append_assoc, ← parts]
            exact before
          · intro empty
            have nothing : bytes = [] := List.isEmpty_iff.mp empty
            rw [← last nothing, parts, nothing]
            rfl
          · cases bytes with
            | nil => exact .inl rfl
            | cons byte bytes =>
                right
                rw [List.length_append, List.length_cons]
                omega

/-- Before it unpacks, a reader sees to it that a record cannot reach beyond its buffer. -/
theorem At.fill (h : At data place r) :
    ∃ r', At data place r' ∧
      ((∃ reason, r.fill = (.error (.transport reason), r') ∧
          r.store.failures = reason :: r'.store.failures) ∨
        r.fill = (.ok (), r') ∧ r'.Filled ∧ r.store.failures = r'.store.failures) := by
  have moved : At data place { r with buffer := r.buffer.drop r.offset, offset := 0 } :=
    ⟨Nat.zero_le _, h.rest_eq, h.atEnd, h.proper⟩
  exact moved.refill rfl (.inr (Nat.le_add_left ..))

/-- Unpacking from the buffer is unpacking from the data. -/
theorem At.unpack (h : At data place r) (filled : r.Filled) :
    Record.Alike (Record.unpack r.buffer r.offset).1 (Record.unpack data place).1 ∧
      Record.readFailure (Record.unpack r.buffer r.offset).1 = none ∧
      At data (Record.unpack data place).2
        { r with offset := (Record.unpack r.buffer r.offset).2 } := by
  have enough : r.store.data = [] ∨ Record.maxPackedLength ≤ (r.buffer.drop r.offset).length := by
    rw [List.length_drop]
    exact filled.imp_left h.atEnd
  obtain ⟨alike, unpacked, k, within, offset, stop⟩ := Record.unpack_shift h.rest_eq enough
  refine ⟨alike, unpacked, ?_⟩
  rw [offset, stop]
  refine ⟨?_, ?_, h.atEnd, h.proper⟩
  · have fits := h.offset_le
    rw [List.length_drop] at within
    show r.offset + k ≤ r.buffer.length
    omega
  · rw [← List.drop_drop, ← List.drop_drop, ← h.rest_eq, List.drop_append_of_le_length within]

/-- **One pull**: a read fails, and the reader stays at its place; or what is told is what unpacking
    the data tells there, and the reader moves as that does. -/
theorem At.next (h : At data place r) :
    ∃ answer r', r.next = (answer, r') ∧
      ((∃ reason, Record.readFailure answer = some reason ∧ At data place r' ∧
          r.store.failures = reason :: r'.store.failures) ∨
        Record.readFailure answer = none ∧ Record.Alike answer (Record.unpack data place).1 ∧
          At data (Record.unpack data place).2 r' ∧ r.store.failures = r'.store.failures) := by
  unfold StoreReader.next
  by_cases few : r.buffer.length - r.offset < Record.maxPackedLength
  · rw [if_pos few]
    obtain ⟨r', here, filling⟩ := h.fill
    rcases filling with ⟨reason, failed, failing⟩ | ⟨filled, enough, failing⟩
    · rw [failed]
      exact ⟨_, r', rfl, .inl ⟨reason, rfl, here, failing⟩⟩
    · obtain ⟨alike, unpacked, moved⟩ := here.unpack enough
      rw [filled]
      exact ⟨_, _, rfl, .inr ⟨unpacked, alike, moved, failing⟩⟩
  · rw [if_neg few]
    obtain ⟨alike, unpacked, moved⟩ := h.unpack (.inr (Nat.le_of_not_lt few))
    exact ⟨_, _, rfl, .inr ⟨unpacked, alike, moved, rfl⟩⟩

end

/-! ## 5. Pulls -/

/-- The answers to `n` pulls in a row. -/
def pulls : Nat → StoreReader → List (Except LinkError (Option Record))
  | 0, _ => []
  | n + 1, r => r.next.1 :: pulls n r.next.2

/-- The reader behind `n` pulls. -/
def behind : Nat → StoreReader → StoreReader
  | 0, r => r
  | n + 1, r => behind n r.next.2

end StoreReader

/-- What unpacking tells `n` times in a row, from an offset on. -/
def Record.unpacks (buffer : List UInt8) : Nat → Nat → List (Except LinkError (Option Record))
  | 0, _ => []
  | n + 1, offset => (unpack buffer offset).1 :: unpacks buffer n (unpack buffer offset).2

/-- Packed records are told in order, each once, and then that there are no more. -/
theorem Record.unpacks_packed {buffer rest : List UInt8} {offset : Nat} {records : List Record}
    (here : buffer.drop offset = packedAll records ++ rest) (ends : EndsBlock rest) (n : Nat) :
    unpacks buffer n offset = (records.map fun r => .ok (some r)).take n ++
      List.replicate (n - records.length) (.ok none) := by
  induction n generalizing offset records with
  | zero => rw [Nat.zero_sub]; rfl
  | succ n ih =>
      unfold unpacks
      cases records with
      | nil =>
          rw [unpack_end (by rw [here]; exact ends), ih here, List.map_nil, List.take_nil,
            List.take_nil]
          rfl
      | cons r rs =>
          have front : buffer.drop offset = r.packed ++ (packedAll rs ++ rest) := by
            rw [here, packedAll, List.flatMap_cons, List.append_assoc]
            rfl
          have behind := drop_add_of_append front
          rw [length_packed] at behind
          rw [unpack_packed front, ih behind, List.length_cons, Nat.add_sub_add_right]
          rfl

/-- Answers without an error are alike only if they are the same. -/
theorem Record.eq_of_alike {answers answers' : List (Except LinkError (Option Record))}
    (alike : List.Forall₂ Alike answers answers') (ok : ∀ answer ∈ answers', ∃ r, answer = .ok r) :
    answers = answers' := by
  induction alike with
  | nil => rfl
  | cons first _ ih =>
      rw [ih fun answer member => ok answer (List.mem_cons_of_mem _ member)]
      rcases first with same | ⟨_, _, _, _, -, short⟩
      · rw [same]
      · obtain ⟨r, whole⟩ := ok _ List.mem_cons_self
        rw [short] at whole
        cases whole

/-- The answers that are not those of failed reads. -/
def told (answers : List (Except LinkError (Option Record))) :
    List (Except LinkError (Option Record)) :=
  answers.filter fun answer => (Record.readFailure answer).isNone

namespace StoreReader

/-- **Any number of pulls.** -/
theorem At.pulls {data : List UInt8} {place : Nat} {r : StoreReader} (h : At data place r)
    (n : Nat) :
    List.Forall₂ Record.Alike (told (r.pulls n))
      (Record.unpacks data (told (r.pulls n)).length place) ∧
      r.store.failures = (r.pulls n).filterMap Record.readFailure ++ (r.behind n).store.failures ∧
      (r.behind n).offset ≤ (r.behind n).buffer.length := by
  induction n generalizing r place with
  | zero => exact ⟨.nil, rfl, h.offset_le⟩
  | succ n ih =>
      obtain ⟨answer, r', pulled, outcome⟩ := h.next
      unfold StoreReader.pulls StoreReader.behind
      rw [pulled]
      dsimp only
      rcases outcome with ⟨reason, failed, here, failing⟩ | ⟨unpacked, alike, moved, failing⟩
      · obtain ⟨later, failures, within⟩ := ih here
        have skipped : told (answer :: r'.pulls n) = told (r'.pulls n) :=
          List.filter_cons_of_neg (by rw [failed]; exact Bool.false_ne_true)
        rw [skipped, List.filterMap_cons_some failed, failing, failures]
        exact ⟨later, rfl, within⟩
      · obtain ⟨later, failures, within⟩ := ih moved
        have kept : told (answer :: r'.pulls n) = answer :: told (r'.pulls n) :=
          List.filter_cons_of_pos (by rw [unpacked]; rfl)
        rw [kept, List.filterMap_cons_none unpacked, failing, failures]
        exact ⟨.cons alike later, rfl, within⟩

/-- **Pulling records from a store is unpacking its bytes**, however the store gives them: in pieces
    of any sizes but none, with reads that fail anywhere between (some pulls make some reads, and a
    plan can be as long as these). Apart from the pulls that are answered with a failed read, the
    answers are those of as many calls that unpack the whole data from its start, but for the
    numbers of a buffer that is too small. Every failed read is the answer to one pull, in the order
    of the reads, and the reader stays usable: its offset is within its buffer. So packed records
    are told in order, each whole and once, and then that there are no more. -/
theorem pulls_eq_unpacks (data : List UInt8) (plan : List Piece)
    (proper : ∀ k, Piece.atMost k ∈ plan → 1 ≤ k) (n : Nat) :
    let reader : StoreReader := { store := ⟨data, plan⟩ }
    let answers := reader.pulls n
    let count := (told answers).length
    List.Forall₂ Record.Alike (told answers) (Record.unpacks data count 0) ∧
    reader.store.failures =
      answers.filterMap Record.readFailure ++ (reader.behind n).store.failures ∧
    (reader.behind n).offset ≤ (reader.behind n).buffer.length ∧
    ∀ (records : List Record) (rest : List UInt8), data = records.flatMap Record.packed ++ rest →
      (rest = [] ∨ ∃ more, rest = 0 :: more) →
      told answers = (records.map fun r => .ok (some r)).take count ++
        List.replicate (count - records.length) (.ok none) := by
  intro reader answers count
  have start : At data 0 reader := at_start (s := ⟨data, plan⟩) proper
  obtain ⟨alike, failures, within⟩ := start.pulls n
  refine ⟨alike, failures, within, fun records rest parts ends => ?_⟩
  have here : data.drop 0 = Record.packedAll records ++ rest := parts
  have unpacked := Record.unpacks_packed here (Record.endsBlock_iff.mpr ends) count
  rw [← unpacked]
  refine Record.eq_of_alike alike fun answer member => ?_
  rw [unpacked, List.mem_append] at member
  rcases member with one | beyond
  · obtain ⟨r, -, same⟩ := List.mem_map.mp (List.mem_of_mem_take one)
    exact ⟨some r, same.symm⟩
  · exact ⟨none, List.eq_of_mem_replicate beyond⟩

/-- Two records and the beginning of a third, which the pieces cut through: two reads fail on
    the way, and the third record is told to be cut off, by the buffer with other numbers than
    by the data. -/
theorem pulls_eq_unpacks_cut :
    let temperature : Record := ⟨.obcTemp, 7, .float32 0x41AC0000, rfl⟩
    let state : Record := ⟨.obcState, 8, .uint8 3, rfl⟩
    let data := temperature.packed ++ (state.packed ++ temperature.packed.take 4)
    let plan := [.atMost 1, .fails "unreadable", .atMost 7, .atMost 2, .fails "gone"]
    let reader : StoreReader := { store := ⟨data, plan⟩ }
    (∀ k, Piece.atMost k ∈ plan → 1 ≤ k) ∧
    reader.pulls 5 = [.error (.transport "unreadable"), .ok (some temperature),
      .error (.transport "gone"), .ok (some state), .error (.bufferTooSmall 9 4)] ∧
    Record.unpacks data 3 0 = [.ok (some temperature), .ok (some state),
      .error (.bufferTooSmall 24 19)] ∧
    List.Forall₂ Record.Alike (told (reader.pulls 5)) (Record.unpacks data 3 0) := by
  intro temperature state data plan reader
  have proper : ∀ k, Piece.atMost k ∈ plan → 1 ≤ k := by
    intro k member
    have all : plan.all (fun | .atMost k => decide (1 ≤ k) | .fails _ => true) = true := rfl
    exact of_decide_eq_true (List.all_eq_true.mp all _ member)
  have alike : List.Forall₂ Record.Alike (told (reader.pulls 5))
      (Record.unpacks data (told (reader.pulls 5)).length 0) :=
    (pulls_eq_unpacks data plan proper 5).1
  have count : (told (reader.pulls 5)).length = 3 := by decide +kernel
  rw [count] at alike
  exact ⟨proper, by decide +kernel, by decide +kernel, alike⟩

end StoreReader

end SatLink.Telemetry
