import SatLink.Proofs.Telemetry.RoundTrip
import SatLink.Telemetry.Packer

/-!
# What a packer holds

* `Packer.Holds` — a packer holds some bytes: they begin its block, and zeros fill it;
* `Packer.Holds.pushPacked_of_le`, `Packer.Holds.pushPacked_of_lt` — one push: a record goes behind
  the bytes it fits behind, and else the block is handed out and the record begins the next one;
* `batches` — how records are grouped that way: none is lost, none split, no group is empty, and
  each fits a block.
-/

namespace SatLink

theorem Block.bytes_fit_of_le {n : Nat} {bytes : List UInt8} (fits : bytes.length ≤ n) :
    (Block.fit n bytes).bytes = bytes ++ List.replicate (n - bytes.length) 0 := by
  show bytes.take n ++ _ = _
  rw [List.take_of_length_le fits]

namespace Telemetry

/-! ## 1. A packer and its bytes -/

namespace Packer

/-- The packer's block begins with some bytes, and the rest of it is zero. -/
structure Holds (p : Packer) (bytes : List UInt8) : Prop where
  used_eq : p.used = bytes.length
  length_le : bytes.length ≤ blockLength
  block_eq : p.block = Block.fit blockLength bytes

namespace Holds

variable {p : Packer} {bytes record : List UInt8}

theorem empty : Holds Packer.empty [] := ⟨rfl, Nat.zero_le _, rfl⟩

/-- A record that fits goes behind the bytes. -/
theorem append (h : Holds p bytes) (fits : bytes.length + record.length ≤ blockLength) :
    Holds (p.append record) (bytes ++ record) := by
  have all : (bytes ++ record).length ≤ blockLength := by
    rw [List.length_append]
    exact fits
  have front : p.block.bytes.take p.used = bytes := by
    rw [h.block_eq, Block.bytes_fit_of_le h.length_le, h.used_eq, List.take_left' rfl]
  have back : p.block.bytes.drop (p.used + record.length) =
      List.replicate (blockLength - (bytes ++ record).length) 0 := by
    rw [h.block_eq, Block.bytes_fit_of_le h.length_le, h.used_eq, ← List.drop_drop,
      List.drop_left' rfl, List.drop_replicate, List.length_append, Nat.sub_sub]
  refine ⟨?_, all, ?_⟩
  · show p.used + record.length = _
    rw [h.used_eq, List.length_append]
  · show Block.fit blockLength (p.block.bytes.take p.used ++ (record ++
      p.block.bytes.drop (p.used + record.length))) = _
    rw [front, back, ← List.append_assoc, ← Block.bytes_fit_of_le all, Block.fit_bytes]

/-- Finishing hands out the pending bytes, if there are any, and leaves nothing pending. -/
theorem finish (h : Holds p bytes) (pending : bytes ≠ []) :
    p.finish = (some (Block.fit blockLength bytes), Packer.empty) := by
  have used : p.used ≠ 0 := by
    rw [h.used_eq]
    exact fun empty => pending (List.length_eq_zero_iff.mp empty)
  unfold Packer.finish
  rw [if_neg used, h.block_eq]

/-- With nothing pending nothing is handed out, and nothing changes. -/
theorem finish_nil (h : Holds p []) : p.finish = (none, p) := by
  have used : p.used = 0 := h.used_eq
  unfold Packer.finish
  rw [if_pos used]

/-- **A record that fits** hands nothing out. -/
theorem pushPacked_of_le (h : Holds p bytes) (fits : bytes.length + record.length ≤ blockLength) :
    ∃ q, p.pushPacked record = (.ok none, q) ∧ Holds q (bytes ++ record) := by
  have short : ¬ blockLength < record.length := by omega
  have room : ¬ blockLength < p.used + record.length := by
    rw [h.used_eq]
    omega
  refine ⟨_, ?_, h.append fits⟩
  unfold pushPacked
  rw [if_neg short, if_neg room]

/-- **A record that does not fit** hands the block out and begins the next one. -/
theorem pushPacked_of_lt (h : Holds p bytes) (short : record.length ≤ blockLength)
    (full : blockLength < bytes.length + record.length) :
    ∃ q, p.pushPacked record = (.ok (some (Block.fit blockLength bytes)), q) ∧ Holds q record := by
  have pending : bytes ≠ [] := by
    rintro rfl
    rw [List.length_nil] at full
    omega
  have beyond : blockLength < p.used + record.length := by
    rw [h.used_eq]
    exact full
  refine ⟨Packer.empty.append record, ?_, ?_⟩
  · unfold pushPacked
    rw [if_neg (Nat.not_lt.mpr short), if_pos beyond, h.finish pending]
  · have fits : ([] : List UInt8).length + record.length ≤ blockLength := by
      rw [List.length_nil]
      omega
    have next := Holds.empty.append fits
    rw [List.nil_append] at next
    exact next

end Holds

end Packer

/-! ## 2. Groups of records -/

open Record (packedAll)

/-- Records grouped into blocks: each goes to the pending ones if it fits a block with them, and
    else begins the next group. -/
def batches : List Record → List Record → List (List Record)
  | [], [] => []
  | pending, [] => [pending]
  | pending, r :: rest =>
      if (packedAll pending).length + r.packedLength ≤ blockLength then
        batches (pending ++ [r]) rest
      else pending :: batches [r] rest

theorem batches_cons_of_le {pending rest : List Record} {r : Record}
    (fits : (packedAll pending).length + r.packedLength ≤ blockLength) :
    batches pending (r :: rest) = batches (pending ++ [r]) rest := by
  rw [batches, if_pos fits]

theorem batches_cons_of_lt {pending rest : List Record} {r : Record}
    (full : blockLength < (packedAll pending).length + r.packedLength) :
    batches pending (r :: rest) = pending :: batches [r] rest := by
  rw [batches, if_neg (Nat.not_le.mpr full)]

theorem packedLength_le_blockLength (r : Record) : r.packedLength ≤ blockLength :=
  Nat.le_trans r.packedLength_le (by decide)

theorem packedAll_concat (pending : List Record) (r : Record) :
    packedAll (pending ++ [r]) = packedAll pending ++ r.packed := by
  unfold packedAll
  rw [List.flatMap_append, List.flatMap_singleton]

/-- No record is lost, doubled or moved. -/
theorem flatten_batches (pending rest : List Record) :
    (batches pending rest).flatten = pending ++ rest := by
  fun_induction batches pending rest with
  | case1 => rfl
  | case2 pending => rw [List.flatten_singleton, List.append_nil]
  | case3 pending r rest _ ih => rw [ih, List.append_assoc]; rfl
  | case4 pending r rest _ ih => rw [List.flatten_cons, ih]; rfl

/-- No group is empty: a record always fits an empty block. -/
theorem ne_nil_of_mem_batches {pending rest batch : List Record}
    (h : batch ∈ batches pending rest) :
    batch ≠ [] := by
  fun_induction batches pending rest with
  | case1 => cases h
  | case2 pending filled =>
      rw [List.mem_singleton.mp h]
      exact filled
  | case3 pending r rest _ ih => exact ih h
  | case4 pending r rest full ih =>
      rcases List.mem_cons.mp h with rfl | later
      · rintro rfl
        have room := packedLength_le_blockLength r
        rw [← Nat.zero_add r.packedLength] at room
        exact full room
      · exact ih later

/-- Every group fits a block. -/
theorem length_packedAll_le_of_mem_batches {pending rest batch : List Record}
    (fits : (packedAll pending).length ≤ blockLength) (h : batch ∈ batches pending rest) :
    (packedAll batch).length ≤ blockLength := by
  fun_induction batches pending rest with
  | case1 => cases h
  | case2 pending =>
      rw [List.mem_singleton.mp h]
      exact fits
  | case3 pending r rest room ih =>
      refine ih ?_ h
      rw [packedAll_concat, List.length_append, Record.length_packed]
      exact room
  | case4 pending r rest _ ih =>
      rcases List.mem_cons.mp h with rfl | later
      · exact fits
      · refine ih ?_ later
        rw [packedAll, List.flatMap_singleton, Record.length_packed]
        exact packedLength_le_blockLength r

theorem packedAll_ne_nil {records : List Record} (nonempty : records ≠ []) :
    packedAll records ≠ [] := by
  cases records with
  | nil => exact absurd rfl nonempty
  | cons r rs => exact List.cons_ne_nil _ _

/-- The block of a group. -/
def blockOf (batch : List Record) : TelemetryBlock := Block.fit blockLength (packedAll batch)

/-- The records of a group are read back from its block. -/
theorem unpackBlock_blockOf {batch : List Record} (fits : (packedAll batch).length ≤ blockLength) :
    Record.unpackBlock (blockOf batch).bytes = .ok batch := by
  rw [blockOf, Block.bytes_fit_of_le fits]
  exact Record.unpackBlock_append batch (Record.endsBlock_zeros _)

end Telemetry

end SatLink
