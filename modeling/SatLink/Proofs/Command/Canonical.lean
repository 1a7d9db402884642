import SatLink.Proofs.Byte
import SatLink.Proofs.Command.RoundTrip
import SatLink.Proofs.Outcome

/-!
# Nothing but packed commands is read

The other half of the round trip: the bytes that a reader took for something are the bytes that this
is packed as.

* `spans_of_readAction`, `read_cases` — where a command is read, its bytes stand, and it ends where
  they end; where none is read, the sentinel stands;
* `unpackList_eq_ok_iff` — a buffer holds a list of commands exactly when it begins with their bytes
  and nothing or the sentinel is behind them;
* `packing_canonical` — with it, what packing and unpacking do to each other.
-/

namespace SatLink.Command

open SatLink.Wire

variable {buffer : List UInt8} {offset stop : Nat}

/-! ## 1. One command -/

/-- An id byte is its low seven bits with the time tag put back. -/
theorem timeTag_or (id : UInt8) :
    (if (id &&& Kind.timeTaggedBit != 0) = true then
      (id &&& ~~~Kind.timeTaggedBit) ||| Kind.timeTaggedBit else id &&& ~~~Kind.timeTaggedBit) =
        id := by
  have single : Kind.timeTaggedBit.toNat = 2 ^ 7 := rfl
  conv_rhs => rw [← and_not_or_and id Kind.timeTaggedBit, and_eq_ite single id]
  split
  · rfl
  · exact UInt8.or_zero.symm

/-- The id byte of a command is the one it was read from. -/
theorem idByte_of_ofId {id : UInt8} {kind : Kind} {a : Action} (known : Kind.ofId id = .ok kind)
    (same : a.kind = kind) (timestamp : UInt32) :
    idByte ⟨timestamp, id &&& Kind.timeTaggedBit != 0, a⟩ = id := by
  have tag := timeTag_or id
  rw [← Kind.code_of_ofId known, ← same] at tag
  exact tag

/-- **Where an action is read, its fields stand**, and only the sentinel has no action. -/
theorem spans_of_readAction {kind : Kind} (proper : kind ≠ .endOfFrame) {r : Option Action}
    (h : readAction kind buffer offset = .ok (r, stop)) :
    ∃ a, r = some a ∧ a.kind = kind ∧ Spans buffer offset a.fieldBytes stop := by
  cases kind with
  | endOfFrame => exact absurd rfl proper
  | execObcReset | microSdFormat | ping | downlinkTelem | uplinkDisc | eraseApp | verifyCrc
  | i2cProbe =>
      cases h
      exact ⟨_, rfl, rfl, Spans.nil _ _⟩
  | rtcSync =>
      obtain ⟨⟨unixTime, _⟩, first, e⟩ := bind_eq_ok_iff.mp h
      cases e
      exact ⟨_, rfl, rfl, spans_of_read32 first⟩
  | downlinkLogsNextPass | setProgrammingSession =>
      obtain ⟨⟨byte, _⟩, first, e⟩ := bind_eq_ok_iff.mp h
      cases e
      exact ⟨_, rfl, rfl, spans_of_readByte first⟩
  | downloadData =>
      obtain ⟨⟨session, _⟩, first, h⟩ := bind_eq_ok_iff.mp h
      obtain ⟨⟨length, _⟩, second, h⟩ := bind_eq_ok_iff.mp h
      obtain ⟨⟨address, _⟩, third, e⟩ := bind_eq_ok_iff.mp h
      cases e
      have behind := (spans_of_read16 second).append (spans_of_read32 third)
      exact ⟨_, rfl, rfl, (spans_of_readByte first).append behind⟩
  | arm | execute =>
      obtain ⟨⟨data, _⟩, first, h⟩ := bind_eq_ok_iff.mp h
      obtain ⟨⟨id, _⟩, second, e⟩ := bind_eq_ok_iff.mp h
      cases e
      exact ⟨_, rfl, rfl, (spans_of_read32 first).append (spans_of_read32 second)⟩

/-- **What reading a command finds**: the sentinel, or the bytes of the command. -/
theorem read_cases {r : Option (Command × Nat)} (h : read buffer offset = .ok r) :
    (r = none ∧ EndsList (buffer.drop offset)) ∨
      ∃ c stop, r = some (c, stop) ∧ Spans buffer offset c.packed stop := by
  obtain ⟨⟨id, next⟩, first, h⟩ := bind_eq_ok_iff.mp h
  obtain ⟨kind, known, h⟩ := bind_eq_ok_iff.mp h
  have idSpan := spans_of_readByte first
  dsimp only at h
  split at h
  · left
    rename_i sentinel
    cases h
    obtain ⟨rest, e⟩ := idSpan.isPrefix
    rw [sentinel] at known
    rw [← e]
    exact ⟨rfl, (Kind.ofId_eq_endOfFrame_iff id).mp known⟩
  · right
    rename_i proper
    obtain ⟨⟨timestamp, next'⟩, second, h⟩ := bind_eq_ok_iff.mp h
    obtain ⟨⟨action, last⟩, third, h⟩ := bind_eq_ok_iff.mp h
    obtain ⟨a, rfl, same, fields⟩ := spans_of_readAction proper third
    cases h
    refine ⟨_, last, rfl, ?_⟩
    rw [packed, idByte_of_ofId known same]
    exact idSpan.append ((spans_of_read32 second).append fields)

/-- **A command that is unpacked** stands at the offset, and the offset moves behind it. -/
theorem spans_of_unpack {c : Command} (h : unpack buffer offset = (.ok (some c), stop)) :
    Spans buffer offset c.packed stop := by
  unfold unpack at h
  split at h
  · rename_i c' stop' found
    cases h
    rcases read_cases found with ⟨e, -⟩ | ⟨_, _, e, span⟩
    · cases e
    · cases e
      exact span
  · cases h
  · cases h

/-- Where unpacking stops without an error, a list of commands ends. -/
theorem endsList_of_unpack (h : unpack buffer offset = (.ok none, stop)) :
    EndsList (buffer.drop offset) := by
  unfold unpack at h
  split at h
  · cases h
  · rename_i found
    rcases read_cases found with ⟨-, ends⟩ | ⟨_, _, e, -⟩
    · exact ends
    · cases e
  · cases h

/-! ## 2. Lists of commands -/

/-- **What unpacking a list finds**, given that it is not stopped before the end of the buffer.
    Every command takes at least its five bytes of header, so the limit outlasts the buffer. -/
theorem exists_rest_of_unpackFrom {commands : List Command} {limit : Nat}
    (enough : buffer.length ≤ offset + limit) (h : unpackFrom buffer limit offset = .ok commands) :
    ∃ rest, buffer.drop offset = packedAll commands ++ rest ∧ EndsList rest := by
  -- by the recursion of the reader; `enough` is kept because the offset moves by five or more
  induction limit generalizing offset commands with
  | zero =>
      cases h
      exact ⟨[], List.drop_eq_nil_iff.mpr enough, trivial⟩
  | succ limit ih =>
      unfold unpackFrom at h
      split at h
      · split at h
        · rename_i c stop found
          obtain ⟨⟨behind, e⟩, hstop⟩ := spans_of_unpack found
          have forward : offset + 5 ≤ stop := by
            rw [hstop, length_packed, packedLength, headerLength]
            omega
          cases rest : unpackFrom buffer limit stop with
          | error fault =>
              rw [rest] at h
              cases h
          | ok cs =>
              rw [rest] at h
              cases h
              obtain ⟨tail, parts, ends⟩ := ih (by omega) rest
              rw [hstop, drop_add_of_append e.symm] at parts
              refine ⟨tail, ?_, ends⟩
              rw [← e, parts, packedAll, packedAll, List.flatMap_cons, List.append_assoc]
        · rename_i found
          cases h
          exact ⟨buffer.drop offset, rfl, endsList_of_unpack found⟩
        · cases h
      · rename_i done
        cases h
        exact ⟨[], List.drop_eq_nil_iff.mpr (Nat.not_lt.mp done), trivial⟩

/-- **A buffer holds a list of commands** exactly when it begins with their bytes and nothing or the
    sentinel is behind them. -/
theorem unpackList_eq_ok_iff {commands : List Command} :
    unpackList buffer = .ok commands ↔
      ∃ rest, buffer = packedAll commands ++ rest ∧ EndsList rest := by
  constructor
  · intro h
    have enough : buffer.length ≤ 0 + buffer.length := by omega
    exact exists_rest_of_unpackFrom enough h
  · rintro ⟨rest, rfl, ends⟩
    exact unpackList_append commands ends

/-- Packing what was unpacked gives the bytes it was unpacked from. -/
theorem packList_of_unpackList {commands : List Command} {out : List UInt8}
    (h : unpackList buffer = .ok commands) (fits : totalLength commands ≤ out.length) :
    packList out commands = (.ok (totalLength commands),
      buffer.take (totalLength commands) ++ out.drop (totalLength commands)) := by
  obtain ⟨rest, rfl, -⟩ := unpackList_eq_ok_iff.mp h
  rw [packList_of_le fits, List.take_left' (length_packedAll commands)]

/-- **Packing is canonical**: a buffer is read as a list of commands exactly when it is their
    packing, and then nothing or the sentinel behind it; a list that fits a zeroed buffer comes back
    from it; what was read is packed again to the bytes it was read from; and the offset moves by
    exactly the length of the command that is read. -/
theorem packing_canonical :
    (∀ buffer commands, unpackList buffer = .ok commands ↔ ∃ rest,
      buffer = commands.flatMap packed ++ rest ∧
        (rest = [] ∨ ∃ id more, rest = id :: more ∧ id &&& 0x7F = 0)) ∧
    (∀ commands size, totalLength commands ≤ size → ∃ buffer,
      packList (List.replicate size 0) commands = (.ok (totalLength commands), buffer) ∧
        unpackList buffer = .ok commands) ∧
    (∀ buffer commands, unpackList buffer = .ok commands → totalLength commands ≤ buffer.length ∧
      ∀ out, totalLength commands ≤ out.length → packList out commands =
        (.ok (totalLength commands),
          buffer.take (totalLength commands) ++ out.drop (totalLength commands))) ∧
    (∀ buffer offset c stop, unpack buffer offset = (.ok (some c), stop) →
      stop = offset + c.packedLength ∧ (buffer.drop offset).take c.packedLength = c.packed) := by
  refine ⟨fun buffer commands => ?_, fun commands size fits => ?_, fun buffer commands h => ?_,
    fun buffer offset c stop h => ?_⟩
  · rw [unpackList_eq_ok_iff]
    exact exists_congr fun rest => and_congr_right fun _ => endsList_iff
  · refine ⟨_, packList_of_le (by rw [List.length_replicate]; exact fits), ?_⟩
    rw [List.drop_replicate]
    exact unpackList_packedAll commands _
  · refine ⟨?_, fun out fits => packList_of_unpackList h fits⟩
    obtain ⟨rest, rfl, -⟩ := unpackList_eq_ok_iff.mp h
    rw [List.length_append, length_packedAll]
    omega
  · obtain ⟨⟨rest, e⟩, hstop⟩ := spans_of_unpack h
    rw [length_packed] at hstop
    rw [← e]
    exact ⟨hstop, List.take_left' (length_packed c)⟩

/-- Two commands that fill a buffer to its last byte, and the same with a time-tagged sentinel and
    other bytes behind them. -/
theorem packing_canonical_full_buffer :
    let second := immediate (.downloadData 1 0x203 0x4050607)
    let commands := [scheduled .ping 60, second]
    let bytes := commands.flatMap packed ++ [0x80, 0xFF, 0x05]
    totalLength commands = 17 ∧
      (∃ buffer, packList (List.replicate 17 0) commands = (.ok 17, buffer) ∧
        unpackList buffer = .ok commands) ∧
      unpackList bytes = .ok commands ∧
      packList (List.replicate 18 0xEE) commands = (.ok 17, bytes.take 17 ++ [0xEE]) ∧
      unpack bytes 5 = (.ok (some second), 17) ∧ 17 = 5 + second.packedLength ∧
      (bytes.drop 5).take 12 = second.packed := by
  intro second commands bytes
  obtain ⟨accepts, inverse, again, advance⟩ := packing_canonical
  have read : unpackList bytes = .ok commands :=
    (accepts _ _).mpr ⟨_, rfl, .inr ⟨0x80, [0xFF, 0x05], rfl, by decide⟩⟩
  have behind : bytes.drop 5 = second.packed ++ [0x80, 0xFF, 0x05] := rfl
  have next : unpack bytes 5 = (.ok (some second), 17) := unpack_packed behind
  exact ⟨rfl, inverse commands 17 (by decide), read, (again _ _ read).2 _ (by decide), next,
    advance _ _ _ _ next⟩

end SatLink.Command
