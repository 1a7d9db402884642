import SatLink.Downlink.Encoder
import SatLink.Downlink.Frame
import SatLink.Proofs.Telemetry.Packer
import SatLink.Proofs.Uplink.RoundTrip

/-!
# From the satellite to the ground

Sending telemetry is two things at once, and they are taken apart here:

* `Encoder.sendFrom_records` — the records of a source are grouped into blocks
  (`Telemetry.batches`), and these are sent one after the other;
* `Encoder.sendAll_of_room`, `Encoder.sendAll_of_full` — blocks that are sent one after the other
  leave their frames on the queue, numbered modulo 128, and the marker behind them, if the queue has
  room for all of that; else it is reported full.

`decodeFrame_carrier` says what the ground makes of one frame, `Delivers` what it makes of them all,
and `sendTelemetry_arrives` puts the parts together for a whole configuration.
-/

namespace SatLink.Downlink

open SatLink.Frame
open SatLink.ReedSolomon (isCodeword_encode message_encode)
open Telemetry (Packer Record Source TelemetryBlock batches blockLength blockOf)
open Telemetry.Record (packedAll unpackBlock)

/-! ## 1. Sequence numbers -/

/-- A sequence number, counted on by `n` modulo 128. -/
def counted (start : UInt8) (n : Nat) : UInt8 := UInt8.ofNat ((start.toNat + n) % 128)

theorem toNat_counted (start : UInt8) (n : Nat) :
    (counted start n).toNat = (start.toNat + n) % 128 := by
  have lt := Nat.mod_lt (start.toNat + n) (by decide : 128 > 0)
  rw [counted, UInt8.toNat_ofNat', Nat.mod_eq_of_lt (by omega)]

theorem counted_zero {start : UInt8} (small : start ≤ 127) : counted start 0 = start := by
  have le : start.toNat ≤ 127 := UInt8.le_iff_toNat_le.mp small
  apply UInt8.toNat_inj.mp
  rw [toNat_counted]
  omega

theorem counted_counted (start : UInt8) (m n : Nat) :
    counted (counted start m) n = counted start (m + n) := by
  apply UInt8.toNat_inj.mp
  rw [toNat_counted, toNat_counted, toNat_counted]
  omega

/-- The encoder counts on by one. -/
theorem counted_one (start : UInt8) : (start + 1) % 128 = counted start 1 := by
  apply UInt8.toNat_inj.mp
  rw [toNat_counted, UInt8.toNat_mod, UInt8.toNat_add]
  show (start.toNat + 1) % 256 % 128 = _
  omega

theorem counted_le (start : UInt8) (n : Nat) : counted start n ≤ 127 := by
  apply UInt8.le_iff_toNat_le.mpr
  rw [toNat_counted]
  exact Nat.le_of_lt_succ (Nat.mod_lt _ (by decide))

/-! ## 2. Frames -/

/-- The stuffed frame that carries a block. -/
def carrier (addresses : LinkAddresses) (sequence : UInt8) (block : TelemetryBlock) : List UInt8 :=
  flagged (stuffedBody
    (infoFrame addresses.header ⟨sequence, 0, false⟩ (ReedSolomon.encode block)))

/-- The frames of several blocks, numbered from a sequence number on. -/
def carriers (addresses : LinkAddresses) (start : UInt8) (blocks : List TelemetryBlock) :
    List (List UInt8) :=
  blocks.mapIdx fun i block => carrier addresses (counted start i) block

theorem carriers_cons (addresses : LinkAddresses) {start : UInt8} (small : start ≤ 127)
    (block : TelemetryBlock) (blocks : List TelemetryBlock) :
    carriers addresses start (block :: blocks) =
      carrier addresses start block :: carriers addresses (counted start 1) blocks := by
  unfold carriers
  rw [List.mapIdx_cons, counted_zero small]
  simp only [counted_counted, Nat.add_comm 1]

theorem stuffFrame_carrier (addresses : LinkAddresses) (sequence : UInt8) (block : TelemetryBlock) :
    stuffFrame (infoFrame addresses.header ⟨sequence, 0, false⟩ (ReedSolomon.encode block)) =
      .ok (carrier addresses sequence block) := by
  have len := length_infoFrame addresses.header ⟨sequence, 0, false⟩ (ReedSolomon.encode block)
  exact stuffFrame_eq (hasFlags_flagged _) (by rw [len]; decide)

/-- The frame of a block arrives as it was sent. -/
theorem deframe_carrier (addresses : LinkAddresses) {sequence : UInt8} (small : sequence ≤ 127)
    (block : TelemetryBlock) : Uplink.deframe (carrier addresses sequence block) =
      .ok (.data addresses.header ⟨sequence, 0, false⟩ (ReedSolomon.encode block)) := by
  obtain ⟨stuffed, sent, taken⟩ := Uplink.deframe_stuffed addresses.header ⟨sequence, 0, false⟩
    (isCodeword_encode block) small (show (0 : UInt8) ≤ 127 by decide)
  rw [stuffFrame_carrier] at sent
  cases sent
  exact taken

/-- **The ground accepts the frame of a block**, with its number and what the block holds. -/
theorem decodeFrame_carrier {satellite ground : LinkAddresses}
    (forUs : ground.isForUs satellite.dest = true) {sequence : UInt8} (small : sequence ≤ 127)
    {block : TelemetryBlock} {records : List Record}
    (held : unpackBlock block.bytes = .ok records) :
    decodeFrame ground (carrier satellite sequence block) =
      .ok ⟨⟨sequence, 0, false⟩, records⟩ := by
  unfold decodeFrame
  rw [deframe_carrier satellite small]
  show (if !ground.isForUs satellite.dest then _ else _) = _
  rw [forUs]
  show (unpackBlock (ReedSolomon.message (ReedSolomon.encode block)).bytes >>= _) = _
  rw [message_encode, held]
  rfl

namespace Encoder

variable {e : Encoder}

theorem encodeBlock_of_le (small : e.sequence ≤ 127) (block : TelemetryBlock) :
    e.encodeBlock block = (.ok (carrier e.addresses e.sequence block),
      { e with sequence := counted e.sequence 1 }) := by
  have make : Sequence.make e.sequence 0 false = .ok ⟨e.sequence, 0, false⟩ := by
    have low : (decide (127 < e.sequence) || decide ((127 : UInt8) < 0)) = false := by
      rw [decide_eq_false (UInt8.not_lt.mpr small)]
      rfl
    unfold Sequence.make
    rw [low]
    rfl
  unfold encodeBlock
  rw [make]
  dsimp only
  rw [stuffFrame_carrier, counted_one]

/-! ## 3. The queue -/

/-- The encoder after `n` blocks, with more items on its queue. -/
def advanced (e : Encoder) (n : Nat) (items : List Item) : Encoder :=
  { e with
    sequence := counted e.sequence n
    queue := { e.queue with items := e.queue.items ++ items } }

theorem advanced_advanced (e : Encoder) (m n : Nat) (items items' : List Item) :
    (e.advanced m items).advanced n items' = e.advanced (m + n) (items ++ items') := by
  unfold advanced
  simp only [counted_counted, List.append_assoc]

theorem enqueue_of_lt (reader : e.queue.hasReader = true) (small : e.sequence ≤ 127)
    (room : e.queue.items.length < e.queue.capacity) (item : Item) :
    e.enqueue item = (.ok (), e.advanced 0 [item]) := by
  unfold enqueue advanced
  rw [Queue.send_of_lt reader room, counted_zero small]

theorem enqueue_of_le (reader : e.queue.hasReader = true)
    (full : e.queue.capacity ≤ e.queue.items.length) (item : Item) :
    e.enqueue item = (.error .queueFull, e) := by
  unfold enqueue
  rw [Queue.send_of_le reader full]
  rfl

theorem sendBlock_of_lt (reader : e.queue.hasReader = true) (small : e.sequence ≤ 127)
    (room : e.queue.items.length < e.queue.capacity) (block : TelemetryBlock) :
    e.sendBlock block =
      (.ok (), e.advanced 1 [.packet (carrier e.addresses e.sequence block)]) := by
  unfold sendBlock enqueue
  rw [encodeBlock_of_le small]
  dsimp only
  rw [Queue.send_of_lt reader room]
  rfl

theorem sendBlock_of_le (reader : e.queue.hasReader = true) (small : e.sequence ≤ 127)
    (full : e.queue.capacity ≤ e.queue.items.length) (block : TelemetryBlock) :
    (e.sendBlock block).1 = .error .queueFull := by
  unfold sendBlock enqueue
  rw [encodeBlock_of_le small]
  dsimp only
  rw [Queue.send_of_le reader full]
  rfl

/-- Sends blocks one after the other, counting them, and the marker behind them. -/
def sendAll (e : Encoder) (frames : Nat) : List TelemetryBlock → Except LinkError Nat × Encoder
  | [] =>
      match e.enqueue .endOfDownlink with
      | (.ok (), e) => (.ok frames, e)
      | (.error fault, e) => (.error fault, e)
  | block :: blocks =>
      match e.sendBlock block with
      | (.ok (), e) => e.sendAll (frames + 1) blocks
      | (.error fault, e) => (.error fault, e)

/-- What is queued for blocks: their frames, and the marker behind them. -/
def pass (addresses : LinkAddresses) (start : UInt8) (blocks : List TelemetryBlock) : List Item :=
  (carriers addresses start blocks).map .packet ++ [.endOfDownlink]

theorem pass_cons (addresses : LinkAddresses) {start : UInt8} (small : start ≤ 127)
    (block : TelemetryBlock) (blocks : List TelemetryBlock) :
    pass addresses start (block :: blocks) =
      .packet (carrier addresses start block) :: pass addresses (counted start 1) blocks := by
  unfold pass
  rw [carriers_cons addresses small, List.map_cons, List.cons_append]

/-- **Blocks leave their frames on a queue that has room**, and the marker behind them. -/
theorem sendAll_of_room {blocks : List TelemetryBlock} {frames : Nat}
    (reader : e.queue.hasReader = true) (small : e.sequence ≤ 127)
    (room : e.queue.items.length + blocks.length < e.queue.capacity) :
    e.sendAll frames blocks = (.ok (frames + blocks.length),
      e.advanced blocks.length (pass e.addresses e.sequence blocks)) := by
  -- each block leaves a longer queue and the next number, so the encoder is general
  induction blocks generalizing e frames with
  | nil =>
      unfold sendAll
      rw [enqueue_of_lt reader small room]
      rfl
  | cons block blocks ih =>
      rw [List.length_cons] at room
      have later : (e.queue.items ++ [Item.packet (carrier e.addresses e.sequence block)]).length +
          blocks.length < e.queue.capacity := by
        rw [List.length_append, List.length_singleton]
        omega
      unfold sendAll
      rw [sendBlock_of_lt reader small (by omega)]
      dsimp only
      rw [ih (e := e.advanced 1 [.packet (carrier e.addresses e.sequence block)]) reader
        (counted_le _ _) later, advanced_advanced, pass_cons _ small, List.length_cons,
        Nat.add_assoc, Nat.add_comm 1]
      rfl

/-- A queue that has no room for all of it is reported full. -/
theorem sendAll_of_full {blocks : List TelemetryBlock} {frames : Nat}
    (reader : e.queue.hasReader = true) (small : e.sequence ≤ 127)
    (full : e.queue.capacity ≤ e.queue.items.length + blocks.length) :
    (e.sendAll frames blocks).1 = .error .queueFull := by
  induction blocks generalizing e frames with
  | nil =>
      unfold sendAll
      rw [enqueue_of_le reader full]
  | cons block blocks ih =>
      rw [List.length_cons] at full
      unfold sendAll
      rcases Nat.lt_or_ge e.queue.items.length e.queue.capacity with room | spent
      · have later : e.queue.capacity ≤
            (e.queue.items ++ [Item.packet (carrier e.addresses e.sequence block)]).length +
              blocks.length := by
          rw [List.length_append, List.length_singleton]
          omega
        rw [sendBlock_of_lt reader small room]
        exact ih (e := e.advanced 1 [.packet (carrier e.addresses e.sequence block)]) reader
          (counted_le _ _) later
      · have refused := sendBlock_of_le reader small spent block
        cases sent : e.sendBlock block with
        | mk outcome e' =>
            rw [sent] at refused
            cases refused
            rfl

/-! ## 4. Records -/

/-- The end of a source: the pending records are sent, if there are any, and the marker. -/
theorem sendFrom_nil {packer : Packer} {pending : List Record}
    (holds : packer.Holds (packedAll pending)) (e : Encoder) (limit frames : Nat) :
    ∃ left, e.sendFrom (limit + 1) packer frames (.records []) =
      ((e.sendAll frames ((batches pending []).map blockOf)).1,
        (e.sendAll frames ((batches pending []).map blockOf)).2, left) := by
  unfold sendFrom Source.next
  dsimp only
  cases pending with
  | nil =>
      rw [holds.finish_nil]
      have nothing : (batches [] []).map blockOf = [] := rfl
      rw [nothing]
      unfold sendAll
      dsimp only [sendFlushed]
      cases e.enqueue .endOfDownlink with
      | mk outcome e' => cases outcome <;> exact ⟨_, rfl⟩
  | cons r rs =>
      have handed : packer.finish = (some (blockOf (r :: rs)), Packer.empty) :=
        holds.finish (Telemetry.packedAll_ne_nil (List.cons_ne_nil r rs))
      have last : (batches (r :: rs) []).map blockOf = [blockOf (r :: rs)] := rfl
      rw [handed, last]
      unfold sendAll
      dsimp only [sendFlushed]
      cases e.sendBlock (blockOf (r :: rs)) with
      | mk outcome e' =>
          cases outcome with
          | error fault => exact ⟨_, rfl⟩
          | ok sent =>
              dsimp only
              unfold sendAll
              cases e'.enqueue .endOfDownlink with
              | mk outcome e'' => cases outcome <;> exact ⟨_, rfl⟩

/-- **Sending a source of records is sending its groups.** -/
theorem sendFrom_records {packer : Packer} {pending rest : List Record} {limit frames : Nat}
    (holds : packer.Holds (packedAll pending)) (enough : rest.length < limit) :
    ∃ left, e.sendFrom limit packer frames (.records rest) =
      ((e.sendAll frames ((batches pending rest).map blockOf)).1,
        (e.sendAll frames ((batches pending rest).map blockOf)).2, left) := by
  induction rest generalizing e packer pending limit frames with
  | nil =>
      cases limit with
      | zero => cases enough
      | succ limit => exact sendFrom_nil holds e limit frames
  | cons r rest ih =>
      cases limit with
      | zero => cases enough
      | succ limit =>
          have enough' : rest.length < limit := Nat.lt_of_succ_lt_succ enough
          unfold sendFrom
          dsimp only [Source.next, Packer.push]
          rcases Nat.lt_or_ge blockLength ((packedAll pending).length + r.packedLength) with
            full | fits
          · -- the pending records are a group, and the record begins the next one
            have short := Telemetry.packedLength_le_blockLength r
            have beyond := full
            rw [← Record.length_packed] at short beyond
            obtain ⟨q, pushed, holds'⟩ := holds.pushPacked_of_lt short beyond
            rw [pushed]
            dsimp only [sendFlushed]
            rw [Telemetry.batches_cons_of_lt full, List.map_cons]
            dsimp only [sendAll, blockOf]
            cases e.sendBlock (Block.fit blockLength (packedAll pending)) with
            | mk outcome e' =>
                cases outcome with
                | error fault => exact ⟨_, rfl⟩
                | ok sent =>
                    refine ih ?_ enough'
                    rw [packedAll, List.flatMap_singleton]
                    exact holds'
          · -- the record joins the pending ones, and nothing is sent
            have room : (packedAll pending).length + r.packed.length ≤ blockLength := by
              rw [Record.length_packed]
              exact fits
            obtain ⟨q, pushed, holds'⟩ := holds.pushPacked_of_le room
            rw [pushed]
            dsimp only [sendFlushed]
            rw [Telemetry.batches_cons_of_le fits]
            refine ih ?_ enough'
            rw [Telemetry.packedAll_concat]
            exact holds'

/-- A pass over records sends their groups, and counts them. -/
theorem sendTelemetry_records (e : Encoder) (records : List Record) :
    ∃ left, e.sendTelemetry (.records records) =
      ((e.sendAll 0 ((batches [] records).map blockOf)).1,
        (e.sendAll 0 ((batches [] records).map blockOf)).2, left) := by
  have nothing : Packer.empty.Holds (packedAll []) := Packer.Holds.empty
  exact sendFrom_records nothing (Nat.lt_succ_self records.length)

end Encoder

/-! ## 5. What the ground receives -/

theorem length_carriers (addresses : LinkAddresses) (start : UInt8) (blocks : List TelemetryBlock) :
    (carriers addresses start blocks).length = blocks.length :=
  List.length_mapIdx

/-- What the ground makes of the frames of some records: it accepts all of them, their
    numbers follow each other modulo 128, none is without records, and together they hold
    the records in order. -/
structure Delivers (ground : LinkAddresses) (start : UInt8) (records : List Record)
    (frames : List (List UInt8)) (telemetry : List TelemetryFrame) : Prop where
  accepted : frames.map (decodeFrame ground) = telemetry.map .ok
  numbered : ∀ (i : Nat) (h : i < telemetry.length),
    telemetry[i].control.send.toNat = (start.toNat + i) % 128
  filled : ∀ t ∈ telemetry, t.records ≠ []
  complete : telemetry.flatMap (·.records) = records

section

variable {ground : LinkAddresses} {start : UInt8} {records : List Record}
  {frames : List (List UInt8)} {telemetry : List TelemetryFrame}

theorem Delivers.length_eq (h : Delivers ground start records frames telemetry) :
    frames.length = telemetry.length := by
  have same := congrArg List.length h.accepted
  rw [List.length_map, List.length_map] at same
  exact same

/-- There are no more frames than records. -/
theorem Delivers.length_le (h : Delivers ground start records frames telemetry) :
    frames.length ≤ records.length := by
  have one : ∀ n ∈ telemetry.map (·.records.length), 1 ≤ n := by
    intro n hn
    obtain ⟨t, mem, rfl⟩ := List.mem_map.mp hn
    exact List.length_pos_iff.mpr (h.filled t mem)
  have sum := List.length_le_sum_of_one_le _ one
  rw [List.length_map] at sum
  rw [h.length_eq, ← h.complete, List.length_flatMap]
  exact sum

/-- Only no records take no frames. -/
theorem Delivers.eq_nil_iff (h : Delivers ground start records frames telemetry) :
    frames = [] ↔ records = [] := by
  constructor
  · rintro rfl
    have nothing : telemetry = [] := List.length_eq_zero_iff.mp h.length_eq.symm
    rw [← h.complete, nothing]
    rfl
  · rintro rfl
    exact List.length_eq_zero_iff.mp (Nat.le_zero.mp h.length_le)

end

/-- What the ground reads in the frames of groups of records. -/
def telemetryOf (start : UInt8) (groups : List (List Record)) : List TelemetryFrame :=
  groups.mapIdx fun i group => ⟨⟨counted start i, 0, false⟩, group⟩

theorem records_telemetryOf (start : UInt8) (groups : List (List Record)) :
    (telemetryOf start groups).map (·.records) = groups := by
  unfold telemetryOf
  apply List.ext_getElem
  · rw [List.length_map, List.length_mapIdx]
  · intro i _ _
    rw [List.getElem_map, List.getElem_mapIdx]

/-- **The frames of some records deliver them.** -/
theorem delivers_carriers {satellite ground : LinkAddresses}
    (forUs : ground.isForUs satellite.dest = true) (start : UInt8) (records : List Record) :
    Delivers ground start records (carriers satellite start ((batches [] records).map blockOf))
      (telemetryOf start (batches [] records)) := by
  have held := records_telemetryOf start (batches [] records)
  refine ⟨?_, ?_, ?_, ?_⟩
  · apply List.ext_getElem
    · rw [List.length_map, List.length_map, length_carriers, List.length_map, telemetryOf,
        List.length_mapIdx]
    · intro i _ h
      rw [List.length_map, telemetryOf, List.length_mapIdx] at h
      have begun : (packedAll []).length ≤ blockLength := Nat.zero_le blockLength
      have fits := Telemetry.length_packedAll_le_of_mem_batches begun (List.getElem_mem h)
      simp only [carriers, telemetryOf, List.getElem_map, List.getElem_mapIdx]
      exact decodeFrame_carrier forUs (counted_le start i) (Telemetry.unpackBlock_blockOf fits)
  · intro i h
    simp only [telemetryOf, List.getElem_mapIdx]
    exact toNat_counted start i
  · intro t mem
    have group : t.records ∈ batches [] records := by
      rw [← held]
      exact List.mem_map_of_mem mem
    exact Telemetry.ne_nil_of_mem_batches group
  · rw [List.flatMap_def, held, Telemetry.flatten_batches, List.nil_append]

/-- **Telemetry that is sent arrives**, for every configuration a link can be run with, every list
    of records and every sequence number of seven bits to start at (an encoder starts at zero and
    counts modulo 128, `counted_le`): the satellite's frames deliver the records to the ground, and
    it queues just these and the marker, unless the queue has no room for them. -/
theorem sendTelemetry_arrives (c : Config) (valid : c.validate = .ok ()) :
    ∃ satellite ground, c.linkAddresses .cubesat = .ok satellite ∧
      c.linkAddresses .groundStation = .ok ground ∧
      ∀ (records : List Record) (start : UInt8), start ≤ 127 → ∃ frames telemetry,
        Delivers ground start records frames telemetry ∧ (frames = [] ↔ records = []) ∧
        ∀ queue : Queue Item, queue.hasReader = true →
          (queue.items.length + frames.length < queue.capacity →
            ∃ left, Encoder.sendTelemetry ⟨satellite, start, queue⟩ (.records records) =
              (.ok frames.length, ⟨satellite, counted start frames.length, { queue with
                items := queue.items ++ (frames.map .packet ++ [.endOfDownlink]) }⟩, left)) ∧
          (queue.capacity ≤ queue.items.length + frames.length →
            (Encoder.sendTelemetry ⟨satellite, start, queue⟩ (.records records)).1 =
              .error .queueFull) := by
  obtain ⟨satellite, here⟩ := c.exists_linkAddresses_of_validate valid
  obtain ⟨ground, there, -, forUs⟩ := Config.exists_linkAddresses_peer here
  refine ⟨satellite, ground, here, there, fun records start small => ?_⟩
  have len := length_carriers satellite start ((batches [] records).map blockOf)
  have delivers := delivers_carriers forUs start records
  refine ⟨_, _, delivers, delivers.eq_nil_iff, fun queue reader => ?_⟩
  obtain ⟨left, sent⟩ := Encoder.sendTelemetry_records ⟨satellite, start, queue⟩ records
  rw [sent, len]
  constructor
  · intro room
    rw [Encoder.sendAll_of_room reader small room, Nat.zero_add]
    exact ⟨left, rfl⟩
  · intro full
    exact Encoder.sendAll_of_full reader small full

/-- Records that need more than one block, a value among them that is not a number, sent from the
    last sequence number on. -/
theorem sendTelemetry_arrives_past_last_number :
    let records : List Record :=
      List.replicate 25 ⟨.obcTemp, 7, .float32 0x7FC00001, rfl⟩ ++ [⟨.obcState, 8, .uint8 3, rfl⟩]
    let queue : Queue Item := Queue.ofCapacity 27
    Config.standard.validate = .ok () ∧ queue.hasReader = true ∧
      ∃ satellite ground frames telemetry, Config.standard.linkAddresses .cubesat = .ok satellite ∧
        Config.standard.linkAddresses .groundStation = .ok ground ∧
        Delivers ground 127 records frames telemetry ∧
        queue.items.length + frames.length < queue.capacity ∧
        (∃ left, Encoder.sendTelemetry ⟨satellite, 127, queue⟩ (.records records) =
          (.ok frames.length, ⟨satellite, counted 127 frames.length, { queue with
            items := frames.map .packet ++ [.endOfDownlink] }⟩, left)) ∧
        (Encoder.sendTelemetry ⟨satellite, 127, Queue.ofCapacity 0⟩ (.records records)).1 =
          .error .queueFull := by
  intro records queue
  have valid : Config.standard.validate = .ok () := by decide +kernel
  obtain ⟨satellite, ground, here, there, arrives⟩ := sendTelemetry_arrives .standard valid
  obtain ⟨frames, telemetry, delivers, -, sent⟩ := arrives records 127 (by decide)
  have room : queue.items.length + frames.length < queue.capacity := by
    have few : frames.length ≤ 26 := delivers.length_le
    show 0 + frames.length < 27
    omega
  exact ⟨valid, rfl, satellite, ground, frames, telemetry, here, there, delivers, room,
    (sent queue rfl).1 room, (sent _ rfl).2 (Nat.zero_le _)⟩

end SatLink.Downlink
