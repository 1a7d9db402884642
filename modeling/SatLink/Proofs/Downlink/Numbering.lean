import SatLink.Proofs.Downlink.Delivery

/-!
# The numbers of the frames that enter the queue

An encoder counts the blocks it encodes, and it encodes a block before it knows whether the
queue takes the frame. So the frames that enter bear the numbers of their blocks among all that
were encoded:

* `tries`, `entered` — the blocks that are encoded until the queue refuses one, and what of them
  enters the queue;
* `handedOut` — the blocks that a source is packed into, whatever becomes of them;
* `Tried` — what an encoder has become after some tries, for each part of it and for a whole call;
* `numbers_of_calls` — the numbers that enter, over any calls on any queues: they follow each other
  modulo 128 as long as no frame is refused, and each refused frame takes its number with it
  (`refused_number_missing`).
-/

namespace SatLink.Queue

variable {α : Type} {q : Queue α}

/-- How many more items the queue takes. -/
def room (q : Queue α) : Nat := if q.hasReader then q.capacity - q.items.length else 0

theorem lt_of_room {n : Nat} (h : q.room = n + 1) :
    q.hasReader = true ∧ q.items.length < q.capacity := by
  unfold room at h
  split at h
  case isTrue reader => exact ⟨reader, by omega⟩
  case isFalse => cases h

theorem room_append {n : Nat} (h : q.room = n + 1) (a : α) :
    room { q with items := q.items ++ [a] } = n := by
  obtain ⟨reader, lt⟩ := lt_of_room h
  unfold room at h ⊢
  rw [if_pos reader] at h
  rw [if_pos reader, List.length_append, List.length_singleton]
  show q.capacity - (q.items.length + 1) = n
  omega

theorem send_of_no_room (h : q.room = 0) (a : α) : ∃ fault, q.send a = .error fault := by
  unfold room at h
  unfold send isFull
  cases reader : q.hasReader with
  | false => exact ⟨_, rfl⟩
  | true =>
      rw [if_pos reader] at h
      exact ⟨.full, if_pos (decide_eq_true (by omega))⟩

end SatLink.Queue

namespace SatLink.Downlink

open SatLink.Frame
open Telemetry (Packer Source TelemetryBlock blockLength)

/-! ## 1. The number of a frame -/

/-- The N(S) in a stuffed frame. -/
def sequenceOf (stuffed : List UInt8) : Option Nat :=
  match Uplink.deframe stuffed with
  | .ok (.data _ control _) => some control.send.toNat
  | _ => none

theorem sequenceOf_carrier (addresses : LinkAddresses) {sequence : UInt8} (small : sequence ≤ 127)
    (block : TelemetryBlock) :
    sequenceOf (carrier addresses sequence block) = some sequence.toNat := by
  unfold sequenceOf
  rw [deframe_carrier addresses small]

/-- The frames among some items. -/
def packets (items : List Item) : List (List UInt8) :=
  items.filterMap fun
    | .packet frame => some frame
    | .endOfDownlink => none

theorem packets_append (items items' : List Item) :
    packets (items ++ items') = packets items ++ packets items' :=
  List.filterMap_append

/-! ## 2. Tries -/

/-- A block that was encoded, and whether the queue took its frame. -/
abbrev Try := TelemetryBlock × Bool

/-- What comes of blocks on a queue with some room: they are encoded one after the other until a
    frame is refused, and the rest are given up. -/
def tries : List TelemetryBlock → Nat → List Try
  | [], _ => []
  | block :: _, 0 => [(block, false)]
  | block :: blocks, room + 1 => (block, true) :: tries blocks room

/-- The frames that the queue took, the first block being numbered `start`. -/
def entered (addresses : LinkAddresses) (start : UInt8) : List Try → List (List UInt8)
  | [] => []
  | (_, false) :: ts => entered addresses (counted start 1) ts
  | (block, true) :: ts => carrier addresses start block :: entered addresses (counted start 1) ts

theorem entered_append (addresses : LinkAddresses) {start : UInt8} (small : start ≤ 127)
    (ts ts' : List Try) :
    entered addresses start (ts ++ ts') =
      entered addresses start ts ++ entered addresses (counted start ts.length) ts' := by
  induction ts generalizing start with
  | nil => rw [List.length_nil, counted_zero small]; rfl
  | cons t ts ih =>
      have rest := ih (counted_le start 1)
      rw [counted_counted, Nat.add_comm] at rest
      obtain ⟨block, took⟩ := t
      rw [List.cons_append, List.length_cons]
      cases took with
      | false => exact rest
      | true => exact congrArg (carrier addresses start block :: ·) rest

/-- **The frames that entered bear the places of their blocks**, counted on from the first
    number. -/
theorem sequenceOf_entered (addresses : LinkAddresses) {start : UInt8} (small : start ≤ 127)
    (ts : List Try) :
    (entered addresses start ts).map sequenceOf =
      ((ts.map (·.2)).idxsOf true).map fun i => some ((start.toNat + i) % 128) := by
  induction ts generalizing start with
  | nil => rfl
  | cons t ts ih =>
      -- a place behind the first is counted from the second, and the number with it
      have shifted : (fun i => some (((counted start 1).toNat + i) % 128)) =
          (fun i => some ((start.toNat + i) % 128)) ∘ (· + 1) := by
        funext i
        rw [toNat_counted, Function.comp_apply]
        congr 1
        omega
      have rest := ih (counted_le start 1)
      rw [shifted, ← List.map_map, ← List.idxsOf_start] at rest
      obtain ⟨block, took⟩ := t
      rw [List.map_cons, List.idxsOf_cons, Nat.zero_add]
      cases took with
      | false => exact rest
      | true =>
          have number : some start.toNat = some ((start.toNat + 0) % 128) := by
            have le : start.toNat ≤ 127 := UInt8.le_iff_toNat_le.mp small
            congr 1
            omega
          rw [entered, List.map_cons, sequenceOf_carrier addresses small, number, rest]
          rfl

theorem idxsOf_replicate (n start : Nat) :
    (List.replicate n true).idxsOf true start = List.range' start n := by
  induction n generalizing start with
  | zero => rfl
  | succ n ih =>
      rw [List.replicate_succ, List.idxsOf_cons, if_pos (beq_self_eq_true true), ih,
        List.range'_succ]

/-- Every place has been taken, one after the other, if and only if no frame was refused. -/
theorem map_idxsOf_eq_iff {α : Type} (f : Nat → α) {ts : List Try} :
    ((ts.map (·.2)).idxsOf true).map f = (List.range ts.length).map f ↔ ∀ t ∈ ts, t.2 = true := by
  have len : (ts.map (·.2)).length = ts.length := List.length_map _
  constructor
  · intro all
    have count := congrArg List.length all
    rw [List.length_map, List.length_map, List.length_range, List.length_idxsOf, ← len] at count
    exact List.forall_mem_map.mp fun b mem => (List.count_eq_length.mp count b mem).symm
  · intro took
    have replicated : ts.map (·.2) = List.replicate ts.length true :=
      List.eq_replicate_iff.mpr ⟨len, List.forall_mem_map.mpr took⟩
    rw [replicated, idxsOf_replicate, List.range_eq_range']

/-- The blocks that a source is packed into, in at most `limit` records, when nothing comes
    of them. -/
def handedOut : Nat → Packer → Source → List TelemetryBlock
  | 0, _, _ => []
  | limit + 1, packer, source =>
      match source.next with
      | (.error _, _) => []
      | (.ok (some record), source) =>
          match packer.push record with
          | (.error _, _) => []
          | (.ok flushed, packer) => flushed.toList ++ handedOut limit packer source
      | (.ok none, _) => packer.finish.1.toList

/-! ## 3. The encoder after some tries -/

/-- The encoder `f` is what `e` becomes when some blocks are tried on it: it has counted all of
    them, and their frames are queued where they were taken. -/
def Tried (e : Encoder) (ts : List Try) (f : Encoder) : Prop :=
  ∃ items, f = e.advanced ts.length items ∧ packets items = entered e.addresses e.sequence ts

section

variable {e f g : Encoder} {ts ts' : List Try}

theorem Tried.refl (small : e.sequence ≤ 127) : Tried e [] e := by
  refine ⟨[], ?_, rfl⟩
  unfold Encoder.advanced
  rw [List.length_nil, counted_zero small, List.append_nil]

theorem Tried.trans (small : e.sequence ≤ 127) (h : Tried e ts f) (h' : Tried f ts' g) :
    Tried e (ts ++ ts') g := by
  obtain ⟨items, rfl, packed⟩ := h
  obtain ⟨items', rfl, packed'⟩ := h'
  refine ⟨items ++ items', ?_, ?_⟩
  · rw [Encoder.advanced_advanced, List.length_append]
  · rw [packets_append, packed, packed', entered_append _ small]
    rfl

theorem Tried.sequence_le (h : Tried e ts f) : f.sequence ≤ 127 := by
  obtain ⟨items, rfl, -⟩ := h
  exact counted_le _ _

/-- The marker takes a place and no number. -/
theorem tried_marker (small : e.sequence ≤ 127) : Tried e [] (e.enqueue .endOfDownlink).2 := by
  cases h : e.queue.room with
  | zero =>
      obtain ⟨fault, refused⟩ := Queue.send_of_no_room h Item.endOfDownlink
      unfold Encoder.enqueue
      rw [refused]
      exact .refl small
  | succ room =>
      obtain ⟨reader, lt⟩ := Queue.lt_of_room h
      rw [Encoder.enqueue_of_lt reader small lt]
      exact ⟨[.endOfDownlink], rfl, rfl⟩

/-- A frame that is refused has used up its number. -/
theorem sendBlock_of_no_room (small : e.sequence ≤ 127) (h : e.queue.room = 0)
    (block : TelemetryBlock) :
    ∃ fault, (e.sendBlock block).1 = .error fault ∧
      Tried e [(block, false)] (e.sendBlock block).2 := by
  obtain ⟨fault, refused⟩ :=
    Queue.send_of_no_room h (.packet (carrier e.addresses e.sequence block))
  unfold Encoder.sendBlock Encoder.enqueue
  rw [Encoder.encodeBlock_of_le small]
  dsimp only
  rw [refused]
  refine ⟨fault.toError, rfl, [], ?_, rfl⟩
  unfold Encoder.advanced
  rw [List.append_nil]
  rfl

theorem sendBlock_of_room (small : e.sequence ≤ 127) {room : Nat} (h : e.queue.room = room + 1)
    (block : TelemetryBlock) :
    (e.sendBlock block).1 = .ok () ∧ Tried e [(block, true)] (e.sendBlock block).2 ∧
      (e.sendBlock block).2.queue.room = room := by
  obtain ⟨reader, lt⟩ := Queue.lt_of_room h
  rw [Encoder.sendBlock_of_lt reader small lt]
  exact ⟨rfl, ⟨_, rfl, rfl⟩, Queue.room_append h _⟩

/-- A block that a packer hands out is tried like any other, and what it leaves is what the blocks
    behind it find. -/
theorem sendFlushed_cases (small : e.sequence ≤ 127) (frames : Nat)
    (flushed : Option TelemetryBlock) :
    (∃ fault f, e.sendFlushed frames flushed = (.error fault, f) ∧
      ∀ blocks, Tried e (tries (flushed.toList ++ blocks) e.queue.room) f) ∨
    ∃ frames' f, e.sendFlushed frames flushed = (.ok frames', f) ∧ f.sequence ≤ 127 ∧
      ∀ blocks g, Tried f (tries blocks f.queue.room) g →
        Tried e (tries (flushed.toList ++ blocks) e.queue.room) g := by
  cases flushed with
  | none => exact .inr ⟨frames, e, rfl, small, fun _ _ rest => rest⟩
  | some block =>
      unfold Encoder.sendFlushed
      dsimp only
      cases h : e.queue.room with
      | zero =>
          obtain ⟨fault, refused, tried⟩ := sendBlock_of_no_room small h block
          cases sent : e.sendBlock block with
          | mk outcome f =>
              rw [sent] at refused tried
              cases refused
              exact .inl ⟨fault, f, rfl, fun _ => tried⟩
      | succ room =>
          obtain ⟨taken, tried, left⟩ := sendBlock_of_room small h block
          cases sent : e.sendBlock block with
          | mk outcome f =>
              rw [sent] at taken tried left
              cases taken
              refine .inr ⟨frames + 1, f, rfl, tried.sequence_le, fun blocks g rest => ?_⟩
              rw [left] at rest
              exact tried.trans small rest

/-- **A pass tries the blocks its source is packed into.** -/
theorem tried_sendFrom (small : e.sequence ≤ 127) (limit : Nat) (packer : Packer) (frames : Nat)
    (source : Source) :
    Tried e (tries (handedOut limit packer source) e.queue.room)
      (e.sendFrom limit packer frames source).2.1 := by
  -- the blocks that are left find the encoder the earlier ones leave, so it is general
  induction limit generalizing e packer frames source with
  | zero => exact .refl small
  | succ limit ih =>
      unfold Encoder.sendFrom handedOut
      rcases source.next with ⟨_ | _ | record, source'⟩
      · exact .refl small
      · dsimp only
        have last := sendFlushed_cases small frames packer.finish.1
        rcases last with ⟨fault, f, sent, tried⟩ | ⟨frames', f, sent, small', tried⟩
        · rw [sent]
          have all := tried []
          rw [List.append_nil] at all
          exact all
        · rw [sent]
          have all := tried [] (f.enqueue .endOfDownlink).2 (tried_marker small')
          rw [List.append_nil] at all
          dsimp only
          cases marked : f.enqueue .endOfDownlink with
          | mk outcome g =>
              rw [marked] at all
              cases outcome <;> exact all
      · dsimp only
        rcases packer.push record with ⟨_ | flushed, packer'⟩
        · exact .refl small
        · dsimp only
          have step := sendFlushed_cases small frames flushed
          rcases step with ⟨fault, f, sent, tried⟩ | ⟨frames', f, sent, small', tried⟩
          · rw [sent]
            exact tried _
          · rw [sent]
            exact tried _ _ (ih small' packer' frames' source')

end

/-! ## 4. Calls -/

/-- A call on an encoder. -/
inductive Call where
  | sendBlock (block : TelemetryBlock)
  | sendTelemetry (source : Source)

/-- The blocks that a call encodes if the queue takes all of them. -/
def Call.blocks : Call → List TelemetryBlock
  | .sendBlock block => [block]
  | .sendTelemetry source => handedOut (source.size + 1) Packer.empty source

/-- The encoder after a call. -/
def Encoder.call (e : Encoder) : Call → Encoder
  | .sendBlock block => (e.sendBlock block).2
  | .sendTelemetry source => (e.sendTelemetry source).2.1

theorem tried_call {e : Encoder} (small : e.sequence ≤ 127) (call : Call) :
    Tried e (tries call.blocks e.queue.room) (e.call call) := by
  cases call with
  | sendTelemetry source => exact tried_sendFrom small _ _ _ _
  | sendBlock block =>
      unfold Encoder.call Call.blocks
      dsimp only
      cases h : e.queue.room with
      | zero =>
          obtain ⟨fault, -, tried⟩ := sendBlock_of_no_room small h block
          exact tried
      | succ room =>
          obtain ⟨-, tried, -⟩ := sendBlock_of_room small h block
          exact tried

/-- What enters the queue over several calls. Each call comes with the queue it finds, which
    the reader may have emptied, or not; a place that comes free while the call goes on is
    room it finds. -/
def Encoder.entering (e : Encoder) : List (Queue Item × Call) → List Item
  | [] => []
  | (queue, call) :: calls =>
      let f := { e with queue := queue }.call call
      f.queue.items.drop queue.items.length ++ f.entering calls

/-- The blocks that calls encode, and whether the queue took their frames. -/
def triesOf (calls : List (Queue Item × Call)) : List Try :=
  calls.flatMap fun (queue, call) => tries call.blocks queue.room

/-- **What enters over several calls**: the frames of the blocks that were taken, under the numbers
    of all blocks that were tried. -/
theorem packets_entering {e : Encoder} (small : e.sequence ≤ 127)
    (calls : List (Queue Item × Call)) :
    packets (e.entering calls) = entered e.addresses e.sequence (triesOf calls) := by
  induction calls generalizing e with
  | nil => rfl
  | cons c calls ih =>
      obtain ⟨queue, call⟩ := c
      have tried : Tried { e with queue := queue } (tries call.blocks queue.room)
        ({ e with queue := queue }.call call) :=
          tried_call (e := { e with queue := queue }) small call
      have rest := ih tried.sequence_le
      obtain ⟨items, after, packed⟩ := tried
      rw [after] at rest
      unfold Encoder.entering triesOf
      rw [List.flatMap_cons, entered_append _ small, after]
      show packets ((queue.items ++ items).drop queue.items.length ++ _) = _
      rw [List.drop_left, packets_append, packed, rest]
      rfl

/-- **The numbers of the frames that enter**, over any calls of a new encoder on any queues: each
    frame bears the place of its block among all blocks that were encoded, modulo 128, so that they
    follow each other from zero on, with none left out, if and only if no frame is refused. -/
theorem numbers_of_calls (addresses : LinkAddresses) (queue : Queue Item)
    (calls : List (Queue Item × Call)) :
    let frames := packets (Encoder.entering { addresses, queue } calls)
    frames = entered addresses 0 (triesOf calls) ∧
      frames.map sequenceOf =
        (((triesOf calls).map (·.2)).idxsOf true).map (fun i => some (i % 128)) ∧
      (frames.map sequenceOf = (List.range (triesOf calls).length).map (fun i => some (i % 128)) ↔
        ∀ t ∈ triesOf calls, t.2 = true) := by
  intro frames
  have small : (0 : UInt8) ≤ 127 := by decide
  have packed : frames = entered addresses 0 (triesOf calls) :=
    packets_entering (e := { addresses, queue }) small calls
  have numbers : frames.map sequenceOf =
      (((triesOf calls).map (·.2)).idxsOf true).map (fun i => some (i % 128)) := by
    rw [packed, sequenceOf_entered addresses small]
    simp only [UInt8.toNat_zero, Nat.zero_add]
  refine ⟨packed, numbers, ?_⟩
  rw [numbers]
  exact map_idxsOf_eq_iff _

/-- So many blocks that the number comes round to zero in the midst of a call. -/
theorem numbers_of_calls_past_last_number :
    let records : List Telemetry.Record := List.replicate 25 ⟨.obcTemp, 7, .float32 0, rfl⟩
    let calls : List (Queue Item × Call) :=
      List.replicate 127 (Queue.ofCapacity 1, .sendBlock (Block.zero blockLength)) ++
        [(Queue.ofCapacity 3, .sendTelemetry (.records records))]
    (∀ t ∈ triesOf calls, t.2 = true) ∧
      ∃ addresses, Config.standard.linkAddresses .cubesat = .ok addresses ∧
        (packets (Encoder.entering { addresses, queue := Queue.ofCapacity 1 } calls)).map
          sequenceOf =
          (List.range 128).map some ++ [some 0] := by
  intro records calls
  have took : ∀ t ∈ triesOf calls, t.2 = true := by decide +kernel
  have valid : Config.standard.validate = .ok () := by decide +kernel
  obtain ⟨addresses, here⟩ := Config.exists_linkAddresses valid .cubesat
  refine ⟨took, addresses, here, ?_⟩
  obtain ⟨-, -, numbers⟩ := numbers_of_calls addresses (Queue.ofCapacity 1) calls
  have count : (triesOf calls).length = 129 := by decide +kernel
  rw [numbers.mpr took, count]
  decide +kernel

/-- **A frame that is refused takes its number with it.** Of three blocks on a queue for one frame
    the second is refused, and the third, sent once the queue is empty again, is numbered 2. -/
theorem refused_number_missing :
    ∃ addresses, Config.standard.linkAddresses .cubesat = .ok addresses ∧
      let block : TelemetryBlock := Block.zero blockLength
      let free : Queue Item := Queue.ofCapacity 1
      let full : Queue Item := { free with items := [.packet (carrier addresses 0 block)] }
      let numbers := (packets (Encoder.entering { addresses, queue := free }
        [(free, .sendBlock block), (full, .sendBlock block), (free, .sendBlock block)])).map
          sequenceOf
      numbers = [some 0, some 2] ∧ ∀ n, numbers ≠ (List.range n).map fun i => some (i % 128) := by
  have valid : Config.standard.validate = .ok () := by decide +kernel
  obtain ⟨addresses, here⟩ := Config.exists_linkAddresses valid .cubesat
  refine ⟨addresses, here, ?_⟩
  intro block free full numbers
  have small : (0 : UInt8) ≤ 127 := by decide
  have gap : numbers = [some 0, some 2] := by
    show (packets (Encoder.entering { addresses, queue := free } _)).map sequenceOf = _
    rw [packets_entering (e := { addresses, queue := free }) small, sequenceOf_entered _ small]
    rfl
  refine ⟨gap, fun n same => ?_⟩
  have two : n = 2 := by
    have len := congrArg List.length (gap.symm.trans same)
    rw [List.length_map, List.length_range] at len
    exact len.symm
  subst two
  have differ : [some 0, some 2] ≠ (List.range 2).map fun i => some (i % 128) := by decide
  exact differ (gap.symm.trans same)

end SatLink.Downlink
