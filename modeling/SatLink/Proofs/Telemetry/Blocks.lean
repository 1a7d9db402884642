import Mathlib.Data.List.Induction
import SatLink.Proofs.Telemetry.Packer

/-!
# The whole life of a packer

Packed records are pushed and blocks are finished in any order. What becomes of the records is told
by the blocks: those that were handed out, each with how much of it was used, and last the one that
is being filled.

* `Call`, `Log` — calls on a packer, and a packer with its past;
* `Grouped` — the invariant: the accepted records fall into groups, one for each block, and the used
  part of a block is its group;
* `records_in_blocks` — **no record is lost, moved or split, and nothing else is in a block**, over
  any calls.
-/

namespace SatLink.Telemetry.Packer

/-! ## 1. Calls -/

/-- A call on a packer. -/
inductive Call where
  | push (record : List UInt8)
  | finish
  deriving DecidableEq

/-- What a packer answers to a call: a refusal, or the block that it hands out, if it does. -/
def call : Call → Packer → Except LinkError (Option TelemetryBlock) × Packer
  | .push record, p => p.pushPacked record
  | .finish, p => (.ok p.finish.1, p.finish.2)

/-- The record that a call brought, unless it was refused. -/
def acceptedBy : Call → Except LinkError (Option TelemetryBlock) → List (List UInt8)
  | .push record, .ok _ => [record]
  | _, _ => []

/-- The block that an answer hands out. -/
def handedOut : Except LinkError (Option TelemetryBlock) → List TelemetryBlock
  | .ok (some block) => [block]
  | _ => []

/-- A packer with its past: the records it accepted, and the blocks it handed out, each with how
    much of it was used. -/
structure Log where
  packer : Packer := .empty
  accepted : List (List UInt8) := []
  sent : List (TelemetryBlock × Nat) := []

namespace Log

/-- One call more. -/
def add (log : Log) (c : Call) : Log where
  packer := (log.packer.call c).2
  accepted := log.accepted ++ acceptedBy c (log.packer.call c).1
  sent := log.sent ++ (handedOut (log.packer.call c).1).map (·, log.packer.used)

/-- What becomes of some calls, from the start. -/
def of (calls : List Call) : Log := calls.foldl add {}

/-- The blocks that were handed out and the one that is being filled, each with its used length. -/
def blocks (log : Log) : List (TelemetryBlock × Nat) :=
  log.sent ++ [(log.packer.block, log.packer.used)]

/-- The blocks, cut to their used lengths. -/
def parts (log : Log) : List (List UInt8) := log.blocks.map fun entry => entry.1.bytes.take entry.2

theorem add_of_call {log : Log} {c : Call} {answer : Except LinkError (Option TelemetryBlock)}
    {next : Packer} (h : log.packer.call c = (answer, next)) : log.add c =
      ⟨next, log.accepted ++ acceptedBy c answer,
        log.sent ++ (handedOut answer).map (·, log.packer.used)⟩ := by
  unfold add
  rw [h]

theorem of_concat (calls : List Call) (c : Call) : of (calls ++ [c]) = (of calls).add c := by
  unfold of
  rw [List.foldl_append]
  rfl

end Log

/-! ## 2. Groups -/

/-- The block of a group of records, and how much of it they use. -/
def entryOf (group : List (List UInt8)) : TelemetryBlock × Nat :=
  (Block.fit blockLength group.flatten, group.flatten.length)

/-- The accepted records fall into one group for each block that was handed out, and those
    pending. -/
structure Grouped (log : Log) (groups : List (List (List UInt8))) (pending : List (List UInt8)) :
    Prop where
  accepted_eq : log.accepted = groups.flatten ++ pending
  sent_eq : log.sent = groups.map entryOf
  length_le : ∀ group ∈ groups, group.flatten.length ≤ blockLength
  holds : log.packer.Holds pending.flatten

/-- A record longer than a block is refused, and nothing changes. -/
theorem pushPacked_of_long {p : Packer} {record : List UInt8} (long : blockLength < record.length) :
    p.pushPacked record = (.error (.argument .recordTooLarge), p) :=
  if_pos long

/-- **What a push does** to a packer that holds some bytes. -/
theorem Holds.pushPacked_cases {p : Packer} {bytes : List UInt8} (h : p.Holds bytes)
    (record : List UInt8) :
    (blockLength < record.length ∧ p.pushPacked record = (.error (.argument .recordTooLarge), p)) ∨
    (p.used + record.length ≤ blockLength ∧ ∃ q, p.pushPacked record = (.ok none, q) ∧
      q.Holds (bytes ++ record)) ∨
    (record.length ≤ blockLength ∧ blockLength < p.used + record.length ∧
      ∃ q, p.pushPacked record = (.ok (some p.block), q) ∧ q.Holds record) := by
  rw [h.used_eq, h.block_eq]
  rcases Nat.lt_or_ge blockLength record.length with long | short
  · exact .inl ⟨long, pushPacked_of_long long⟩
  · rcases Nat.lt_or_ge blockLength (bytes.length + record.length) with full | fits
    · exact .inr (.inr ⟨short, full, h.pushPacked_of_lt short full⟩)
    · exact .inr (.inl ⟨fits, h.pushPacked_of_le fits⟩)

namespace Grouped

variable {log : Log} {groups : List (List (List UInt8))} {pending : List (List UInt8)}

theorem start : Grouped {} [] [] where
  accepted_eq := rfl
  sent_eq := rfl
  length_le := nofun
  holds := Holds.empty

/-- Handing out the pending records closes their group; `next` holds the first of the next one. -/
theorem close (h : Grouped log groups pending) {next : Packer} {first : List (List UInt8)}
    (holds : next.Holds first.flatten) :
    Grouped ⟨next, log.accepted ++ first,
      log.sent ++ [(Block.fit blockLength pending.flatten, log.packer.used)]⟩
      (groups ++ [pending]) first where
  accepted_eq := by
    rw [List.flatten_append, List.flatten_singleton, h.accepted_eq]
  sent_eq := by
    rw [List.map_append, h.sent_eq, h.holds.used_eq]
    rfl
  length_le group member := by
    rcases List.mem_append.mp member with earlier | last
    · exact h.length_le group earlier
    · rw [List.mem_singleton.mp last]
      exact h.holds.length_le
  holds := holds

/-- **One push.** -/
theorem push (h : Grouped log groups pending) (record : List UInt8) :
    ∃ groups pending, Grouped (log.add (.push record)) groups pending := by
  have single : [record].flatten = record := List.flatten_singleton
  rcases h.holds.pushPacked_cases record with
    ⟨-, refused⟩ | ⟨-, next, kept, holds⟩ | ⟨-, -, next, handed, holds⟩
  · refine ⟨groups, pending, ?_⟩
    rw [Log.add_of_call (c := .push record) refused]
    show Grouped ⟨_, log.accepted ++ [], log.sent ++ []⟩ _ _
    rw [List.append_nil, List.append_nil]
    exact h
  · refine ⟨groups, pending ++ [record], ?_⟩
    rw [Log.add_of_call (c := .push record) kept]
    exact {
      accepted_eq := by
        rw [← List.append_assoc, ← h.accepted_eq]
        rfl
      sent_eq := (List.append_nil _).trans h.sent_eq
      length_le := h.length_le
      holds := by rwa [List.flatten_append, single] }
  · refine ⟨groups ++ [pending], [record], ?_⟩
    rw [Log.add_of_call (c := .push record) handed]
    have first : next.Holds [record].flatten := by rwa [single]
    rw [h.holds.block_eq]
    exact h.close first

/-- **One finish.** Without a byte pending there is no block to hand out; records of no
    bytes stay. -/
theorem finish (h : Grouped log groups pending) :
    ∃ groups pending, Grouped (log.add .finish) groups pending := by
  have holds := h.holds
  by_cases empty : pending.flatten = []
  · rw [empty] at holds
    have kept : log.packer.call .finish = (.ok none, log.packer) := by
      show (Except.ok log.packer.finish.1, log.packer.finish.2) = _
      rw [holds.finish_nil]
    refine ⟨groups, pending, ?_⟩
    rw [Log.add_of_call kept]
    show Grouped ⟨_, log.accepted ++ [], log.sent ++ []⟩ _ _
    rw [List.append_nil, List.append_nil]
    exact h
  · have handed : log.packer.call .finish =
        (.ok (some (Block.fit blockLength pending.flatten)), Packer.empty) := by
      show (Except.ok log.packer.finish.1, log.packer.finish.2) = _
      rw [holds.finish empty]
    refine ⟨groups ++ [pending], [], ?_⟩
    rw [Log.add_of_call handed]
    exact h.close Holds.empty

end Grouped

/-- **The records fall into groups** after any calls. -/
theorem exists_grouped (calls : List Call) :
    ∃ groups pending, Grouped (Log.of calls) groups pending := by
  induction calls using List.reverseRecOn with
  | nil => exact ⟨[], [], Grouped.start⟩
  | append_singleton calls c ih =>
      obtain ⟨groups, pending, grouped⟩ := ih
      rw [Log.of_concat]
      cases c with
      | push record => exact grouped.push record
      | finish => exact grouped.finish

/-! ## 3. Blocks -/

namespace Grouped

variable {log : Log} {groups : List (List (List UInt8))} {pending : List (List UInt8)}

/-- Every block is that of a group, the one that is being filled included. -/
theorem blocks_eq (h : Grouped log groups pending) :
    log.blocks = (groups ++ [pending]).map entryOf := by
  have last : (log.packer.block, log.packer.used) = entryOf pending := by
    rw [h.holds.block_eq, h.holds.used_eq]
    rfl
  rw [Log.blocks, h.sent_eq, last, List.map_append]
  rfl

theorem length_flatten_le (h : Grouped log groups pending) {group : List (List UInt8)}
    (member : group ∈ groups ++ [pending]) : group.flatten.length ≤ blockLength := by
  rcases List.mem_append.mp member with earlier | last
  · exact h.length_le group earlier
  · rw [List.mem_singleton.mp last]
    exact h.holds.length_le

/-- The used part of a block is its group. -/
theorem parts_eq (h : Grouped log groups pending) :
    log.parts = (groups ++ [pending]).map List.flatten := by
  rw [Log.parts, h.blocks_eq, List.map_map]
  apply List.map_congr_left
  intro group member
  show (Block.fit blockLength group.flatten).bytes.take group.flatten.length = group.flatten
  rw [Block.bytes_fit_of_le (h.length_flatten_le member), List.take_left' rfl]

/-- Behind the used part a block is zero. -/
theorem filled (h : Grouped log groups pending) {block : TelemetryBlock} {used : Nat}
    (member : (block, used) ∈ log.blocks) :
    used ≤ blockLength ∧ block.bytes.drop used = List.replicate (blockLength - used) 0 := by
  rw [h.blocks_eq] at member
  obtain ⟨group, inside, same⟩ := List.mem_map.mp member
  cases same
  have fits := h.length_flatten_le inside
  refine ⟨fits, ?_⟩
  rw [Block.bytes_fit_of_le fits, List.drop_left' rfl]

end Grouped

/-- The bytes that a packer holds are the used part of its block. -/
theorem Holds.take_used {p : Packer} {bytes : List UInt8} (h : p.Holds bytes) :
    p.block.bytes.take p.used = bytes := by
  rw [h.block_eq, h.used_eq, Block.bytes_fit_of_le h.length_le, List.take_left' rfl]

/-- **No record is lost, moved or split, and nothing else is in a block**, over any pushes and
    finishes from the start. No block is used beyond its length, and behind what is used it is zero.
    The accepted records fall into groups, one behind the other, and the used parts of the blocks
    are these groups: so each record stands in one block without a gap, and the used parts together
    are the records in their order. One push more is refused and changes nothing if the record is
    longer than a block; it hands nothing out and puts the record behind the others if it fits
    there; and only else it hands the block out, and the record begins the next one. -/
theorem records_in_blocks (calls : List Call) :
    let log := Log.of calls
    let p := log.packer
    (∀ block used, (block, used) ∈ log.blocks →
      used ≤ 223 ∧ block.bytes.drop used = List.replicate (223 - used) 0) ∧
    (∃ groups : List (List (List UInt8)), log.accepted = groups.flatten ∧
      log.parts = groups.map List.flatten) ∧
    (∀ record ∈ log.accepted, ∃ part ∈ log.parts, record <:+: part) ∧
    log.parts.flatten = log.accepted.flatten ∧
    ∀ record,
      (223 < record.length ∧ p.pushPacked record = (.error (.argument .recordTooLarge), p)) ∨
      (p.used + record.length ≤ 223 ∧ ∃ q, p.pushPacked record = (.ok none, q) ∧
        q.used = p.used + record.length ∧
        q.block.bytes.take q.used = p.block.bytes.take p.used ++ record) ∨
      (record.length ≤ 223 ∧ 223 < p.used + record.length ∧
        ∃ q, p.pushPacked record = (.ok (some p.block), q) ∧ q.used = record.length ∧
          q.block.bytes.take q.used = record) := by
  intro log p
  obtain ⟨groups, pending, grouped⟩ := exists_grouped calls
  have accepted : log.accepted = (groups ++ [pending]).flatten := by
    rw [List.flatten_append, List.flatten_singleton]
    exact grouped.accepted_eq
  have parts : log.parts = (groups ++ [pending]).map List.flatten := grouped.parts_eq
  refine ⟨fun block used member => grouped.filled member, ⟨_, accepted, parts⟩,
    fun record member => ?_, ?_, fun record => ?_⟩
  · rw [accepted] at member
    obtain ⟨group, inside, among⟩ := List.mem_flatten.mp member
    refine ⟨group.flatten, ?_, List.infix_of_mem_flatten among⟩
    rw [parts]
    exact List.mem_map_of_mem inside
  · rw [parts, accepted, List.flatten_flatten]
  · have holds : p.Holds pending.flatten := grouped.holds
    rcases holds.pushPacked_cases record with
      refused | ⟨fits, q, kept, after⟩ | ⟨short, full, q, handed, after⟩
    · exact .inl refused
    · refine .inr (.inl ⟨fits, q, kept, ?_, ?_⟩)
      · rw [after.used_eq, List.length_append, holds.used_eq]
      · rw [after.take_used, holds.take_used]
    · exact .inr (.inr ⟨short, full, q, handed, after.used_eq, after.take_used⟩)

/-- A block filled to its last byte takes a record of no bytes, is handed out for a byte more, and a
    record that is too long leaves everything as it is. -/
example :
    let log := Log.of
      [.push (List.replicate 223 7), .push [], .push [8], .push (List.replicate 224 9),
      .finish, .finish]
    log.accepted.map List.length = [223, 0, 1] ∧ log.parts = [List.replicate 223 7, [8], []] := by
  decide +kernel

end SatLink.Telemetry.Packer
