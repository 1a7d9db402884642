import SatLink.Proofs.InPlace.Records
import SatLink.Proofs.InPlace.Stuffing

/-!
# What a refusal leaves behind

Eight operations work in memory of their caller and may refuse. Most of them look before they write,
two keep a position of their own until they are through, and one looks again behind its last write.

* `KeepsOnRefusal`, `KeepsOnNothing` — a refusal, or finding nothing, leaves the memory as it was;
* `pack_cases` — what packing a command changes;
* `editAll_toList` — a byte buffer is a list of a bounded length, through any sequence of edits;
* `refusals_keep_memory` — **no refusal is seen in the caller's memory**.
-/

namespace SatLink.InPlace

variable {σ α : Type}

/-! ## 1. Refusals -/

/-- A refusal leaves the memory as it was. -/
def KeepsOnRefusal (x : Editing σ α) : Prop := ∀ s e t, run x s = some (.error e, t) → t = s

/-- Finding nothing leaves the memory as it was. -/
def KeepsOnNothing (x : Editing σ (Option α)) : Prop := ∀ s t, run x s = some (.ok none, t) → t = s

/-- A computation is looked at through what it does. -/
theorem keepsOnRefusal_of_run {x : Editing σ α} {f : σ → Except LinkError α × σ}
    (same : ∀ s, run x s = some (f s)) (keeps : ∀ s e, (f s).1 = .error e → (f s).2 = s) :
    KeepsOnRefusal x := by
  intro s e t refused
  have both := Option.some.inj ((same s).symm.trans refused)
  have after : (f s).2 = t := congrArg Prod.snd both
  rw [← after]
  exact keeps s e (congrArg Prod.fst both)

theorem keepsOnRefusal_packing (c : Command) : KeepsOnRefusal (packing c) := by
  refine keepsOnRefusal_of_run (run_packing c) fun p e refused => ?_
  rcases Nat.lt_or_ge p.buffer.length (p.offset + c.packedLength) with exceeds | fits
  · rw [Command.pack_of_lt exceeds]
  · rw [Command.pack_of_le fits] at refused
    cases refused

theorem keepsOnRefusal_packingRecord (r : Telemetry.Record) : KeepsOnRefusal (packingRecord r) := by
  refine keepsOnRefusal_of_run (run_packingRecord r) fun buffer e refused => ?_
  unfold Telemetry.Record.pack at refused ⊢
  split
  · rename_i fits
    rw [if_pos fits] at refused
    cases refused
  · rfl

/-- The offset of a reader is its own until it has found something. -/
theorem keepsOnRefusal_taking (read : Nat → Except LinkError (Option (α × Nat))) :
    KeepsOnRefusal (taking read) := by
  refine keepsOnRefusal_of_run (run_taking read) fun offset e refused => ?_
  match read offset, refused with
  | .error _, _ => rfl

theorem keepsOnNothing_taking (read : Nat → Except LinkError (Option (α × Nat))) :
    KeepsOnNothing (taking read) := by
  intro offset t nothing
  have both := Option.some.inj ((run_taking read offset).symm.trans nothing)
  match read offset, both with
  | .ok none, both => exact (congrArg Prod.snd both).symm

/-- Behind the pointer there is room whenever something is put there, wherever the pointer
    stands. -/
theorem keepsOnRefusal_pushing (value : UInt8) : KeepsOnRefusal (pushing value) := by
  intro b e t refused
  unfold pushing at refused
  rw [run_bind_of_ok (run_get b)] at refused
  rcases Nat.lt_or_ge b.pointer b.bytes.length with room | full
  · have fits : b.pointer + [value].length ≤ b.bytes.length := room
    rw [if_neg (Nat.not_le_of_lt room), run_puttingBehind fits] at refused
    cases refused
  · rw [if_pos full] at refused
    cases refused
    rfl

theorem keepsOnRefusal_extending (values : List UInt8) : KeepsOnRefusal (extending values) := by
  intro b e t refused
  unfold extending at refused
  rw [run_bind_of_ok (run_get b)] at refused
  rcases Nat.lt_or_ge b.bytes.length (values.length + b.pointer) with exceeds | room
  · rw [if_pos exceeds] at refused
    cases refused
    rfl
  · have fits : b.pointer + values.length ≤ b.bytes.length := by rwa [Nat.add_comm]
    rw [if_neg (Nat.not_lt_of_le room), run_puttingBehind fits] at refused
    cases refused

/-- The refusal behind the last write does not come, so no written buffer is refused. -/
theorem keepsOnRefusal_stuffing (frame : List UInt8) : KeepsOnRefusal (stuffing frame) := by
  refine keepsOnRefusal_of_run (run_stuffing frame) fun out e refused => ?_
  by_cases flags : Frame.hasFlags frame = true
  · rcases Nat.lt_or_ge out.length (Frame.stuffedLength frame) with exceeds | fits
    · rw [Frame.stuff, if_pos flags]
      dsimp only
      rw [if_neg (Nat.not_le_of_lt exceeds)]
    · rw [Frame.stuff_eq flags fits] at refused
      cases refused
  · rw [Frame.stuff, if_neg flags]

theorem keepsOnRefusal_unstuffing (frame : List UInt8) : KeepsOnRefusal (unstuffing frame) := by
  refine keepsOnRefusal_of_run (run_unstuffing frame) fun out e refused => ?_
  unfold Frame.unstuff at refused ⊢
  match Frame.unstuffed frame, refused with
  | .error _, _ => rfl
  | .ok plain, refused =>
      dsimp only at refused ⊢
      split
      · rename_i fits
        rw [if_pos fits] at refused
        cases refused
      · rfl

/-! ## 2. What packing changes -/

/-- What a packed command has changed: its own bytes and nothing else, and the offset by
    their number. -/
structure PackedAt (c : Command) (p q : Command.Packing) : Prop where
  offset_eq : q.offset = p.offset + c.packedLength
  length_eq : q.buffer.length = p.buffer.length
  written : (q.buffer.drop p.offset).take c.packedLength = c.packed
  kept : ∀ i, i < p.offset ∨ p.offset + c.packedLength ≤ i → q.buffer[i]? = p.buffer[i]?

/-- A command is packed where there is room for it, and refused elsewhere. -/
theorem pack_cases (c : Command) (p : Command.Packing) :
    (p.offset + c.packedLength ≤ p.buffer.length ∧
      ∃ q, c.pack p = (.ok c.packedLength, q) ∧ PackedAt c p q) ∨
    (p.buffer.length < p.offset + c.packedLength ∧ ∃ e, c.pack p = (.error e, p)) := by
  rcases Nat.lt_or_ge p.buffer.length (p.offset + c.packedLength) with exceeds | fits
  · exact .inr ⟨exceeds, _, Command.pack_of_lt exceeds⟩
  · have room : p.offset + c.packed.length ≤ p.buffer.length := by rwa [Command.length_packed]
    have len := Command.length_packed c
    refine .inl ⟨fits, _, Command.pack_of_le fits, ⟨?_, Command.Packing.length_put room, ?_, ?_⟩⟩
    · rw [Command.Packing.put_eq, len]
    · rw [← len]
      exact take_drop_putAt room
    · rw [← len]
      exact fun i outside => getElem?_putAt room outside

/-! ## 3. Byte buffers as lists -/

/-- What is done to a byte buffer. -/
inductive Edit where
  | push (value : UInt8)
  | extend (values : List UInt8)
  | clear

/-- Does something to a buffer. -/
def Edit.onBuffer {cap : Nat} (b : Buffer cap) : Edit → Except LinkError Unit × Buffer cap
  | .push value => b.push value
  | .extend values => b.extend values
  | .clear => (.ok (), b.clear)

/-- Appends to a list that holds at most `cap` bytes. -/
def appendWithin (cap : Nat) (held values : List UInt8) : Except LinkError Unit × List UInt8 :=
  if held.length + values.length ≤ cap then (.ok (), held ++ values)
  else (.error (.bufferTooSmall (held.length + values.length) cap), held)

/-- Does the same to a list that holds at most `cap` bytes. -/
def Edit.onList (cap : Nat) (held : List UInt8) : Edit → Except LinkError Unit × List UInt8
  | .push value => appendWithin cap held [value]
  | .extend values => appendWithin cap held values
  | .clear => (.ok (), [])

/-- Does one thing after the other, whatever is refused; the answers come first. -/
def editAll (step : σ → Edit → Except LinkError Unit × σ) (s : σ) :
    List Edit → List (Except LinkError Unit) × σ
  | [] => ([], s)
  | e :: more =>
      ((step s e).1 :: (editAll step (step s e).2 more).1, (editAll step (step s e).2 more).2)

variable {cap : Nat}

/-- **One edit** of a buffer is an edit of the bytes it holds. -/
theorem onBuffer_toList (b : Buffer cap) (e : Edit) :
    ((e.onBuffer b).1, (e.onBuffer b).2.toList) = e.onList cap b.toList := by
  cases e with
  | push value =>
      have held := Buffer.toList_push b value
      unfold Edit.onBuffer Edit.onList appendWithin
      dsimp only
      rw [held, Buffer.length_toList, List.length_singleton]
      by_cases room : b.length < cap
      · rw [if_pos room, if_pos (Nat.succ_le_of_lt room), Buffer.push, dif_pos room]
      · rw [if_neg room, if_neg fun fits => room (Nat.lt_of_succ_le fits), Buffer.push,
          dif_neg room]
  | extend values =>
      have held := Buffer.toList_extend b values
      unfold Edit.onBuffer Edit.onList appendWithin
      dsimp only
      rw [held, Buffer.length_toList, Nat.add_comm b.length]
      by_cases room : values.length + b.length ≤ cap
      · rw [if_pos room, if_pos room, Buffer.extend, dif_pos room]
      · rw [if_neg room, if_neg room, Buffer.extend, dif_neg room]
  | clear => exact congrArg (Prod.mk _) (Buffer.toList_clear b)

/-- **Any sequence of edits** answers as it does on the bytes that are held, and leaves what they
    become. -/
theorem editAll_toList (b : Buffer cap) (edits : List Edit) :
    ((editAll Edit.onBuffer b edits).1,
      (editAll Edit.onBuffer b edits).2.toList) =
    editAll (Edit.onList cap) b.toList edits := by
  induction edits generalizing b with
  | nil => rfl
  | cons e more ih =>
      have first := onBuffer_toList b e
      have rest := ih (e.onBuffer b).2
      rw [Prod.ext_iff] at first rest
      dsimp only at first rest
      rw [first.2] at rest
      rw [editAll, editAll]
      dsimp only
      rw [first.1, rest.1, rest.2]

/-! ## 4. The eight operations -/

/-- **No refusal is seen in the caller's memory.** Each operation, done piece by piece in the memory
    of its caller and from any memory, answers what it answers in one go and leaves what it leaves,
    and where it refuses the memory is as it was; so it is where unpacking finds nothing. A command
    that is packed changes its own bytes and moves the offset by their number. A byte buffer holds
    what a list of its capacity holds, through any sequence of edits. -/
theorem refusals_keep_memory :
    (∀ c, KeepsOnRefusal (packing c) ∧ ∀ p, run (packing c) p = some (c.pack p)) ∧
    (∀ buffer, KeepsOnRefusal (unpacking buffer) ∧ KeepsOnNothing (unpacking buffer) ∧
      ∀ offset, run (unpacking buffer) offset = some (Command.unpack buffer offset)) ∧
    (∀ r, KeepsOnRefusal (packingRecord r) ∧
      ∀ buffer, run (packingRecord r) buffer = some (r.pack buffer)) ∧
    (∀ buffer, KeepsOnRefusal (unpackingRecord buffer) ∧ KeepsOnNothing (unpackingRecord buffer) ∧
      ∀ offset, run (unpackingRecord buffer) offset =
        some (Telemetry.Record.unpack buffer offset)) ∧
    (∀ value, KeepsOnRefusal (pushing value) ∧ ∀ cap (b : Buffer cap),
      run (pushing value) (raw b) = some ((b.push value).1, raw (b.push value).2)) ∧
    (∀ values, KeepsOnRefusal (extending values) ∧ ∀ cap (b : Buffer cap),
      run (extending values) (raw b) = some ((b.extend values).1, raw (b.extend values).2)) ∧
    (∀ frame, KeepsOnRefusal (stuffing frame) ∧
      ∀ out, run (stuffing frame) out = some (Frame.stuff frame out)) ∧
    (∀ frame, KeepsOnRefusal (unstuffing frame) ∧
      ∀ out, run (unstuffing frame) out = some (Frame.unstuff frame out)) ∧
    (∀ c p, (p.offset + c.packedLength ≤ p.buffer.length ∧
        ∃ q, c.pack p = (.ok c.packedLength, q) ∧ PackedAt c p q) ∨
      (p.buffer.length < p.offset + c.packedLength ∧ ∃ e, c.pack p = (.error e, p))) ∧
    ∀ cap edits,
      ((editAll Edit.onBuffer (Buffer.empty cap) edits).1,
        (editAll Edit.onBuffer (Buffer.empty cap) edits).2.toList) =
      editAll (Edit.onList cap) [] edits := by
  refine ⟨fun c => ⟨keepsOnRefusal_packing c, run_packing c⟩,
    fun buffer => ⟨keepsOnRefusal_taking _, keepsOnNothing_taking _, run_unpacking buffer⟩,
    fun r => ⟨keepsOnRefusal_packingRecord r, run_packingRecord r⟩,
    fun buffer => ⟨keepsOnRefusal_taking _, keepsOnNothing_taking _, run_unpackingRecord buffer⟩,
    fun value => ⟨keepsOnRefusal_pushing value, fun _ b => run_pushing value b⟩,
    fun values => ⟨keepsOnRefusal_extending values, fun _ b => run_extending values b⟩,
    fun frame => ⟨keepsOnRefusal_stuffing frame, run_stuffing frame⟩,
    fun frame => ⟨keepsOnRefusal_unstuffing frame, run_unstuffing frame⟩, pack_cases,
    fun cap edits => ?_⟩
  have all := editAll_toList (Buffer.empty cap) edits
  rwa [Buffer.toList_empty] at all

end SatLink.InPlace
