import SatLink.Frame.Stuffing
import SatLink.Proofs.Frame.Stuffing
import SatLink.Proofs.Indexed.Machine

/-!
# Unstuffing with indices

The stuffed region is read through a cursor of a byte index and a bit index, and what comes out is
pushed into a buffer of 331 bytes behind a write pointer. The run of ones and the bits of the byte
under way are counted in bytes.

* `overBits_eq_foldlM` — a loop over a cursor ends, and takes the bits that are left in their order;
* `foldlM_take` — the loop over the region, closed by a flag, answers what `unstuffBits` answers;
* `unstuffFrame_eq` — **unstuffing stops on no byte string** and leaves the frame in its buffer.
-/

namespace SatLink.Indexed

open SatLink.Bit
open SatLink.Frame (flag maxLength)

variable {σ : Type}

/-! ## 1. Definitions -/

/-- A position in a byte string: a byte, and how many of its bits are read. -/
structure Cursor where
  bytes : List UInt8
  byte : Nat := 0
  bit : Nat := 0

/-- Reads the next bit; there is none behind the last byte. -/
def Cursor.read (size : Nat) (c : Cursor) : Checked (Option (Bool × Cursor)) :=
  match c.bytes[c.byte]? with
  | none => pure none
  | some byte => do
      let value := byte.toNat.testBit (← sub 7 c.bit)
      let bit ← add 256 c.bit 1
      if bit = 8 then
        pure (some (value, { c with byte := ← add size c.byte 1, bit := 0 }))
      else pure (some (value, { c with bit := bit }))

/-- Runs `body` on every bit from a position on. -/
noncomputable def overBits (size : Nat) (body : σ → Bool → Checked σ) (c : Cursor) (s : σ) :
    Checked σ :=
  loop (fun (c, s) => do
    match ← Cursor.read size c with
    | none => pure (.inr s)
    | some (bit, c) => pure (.inl (c, ← body s bit))) (c, s)

/-- An array of which the bytes in front of a pointer are written. -/
structure Buffer where
  bytes : List UInt8
  pointer : Nat := 0

/-- Writes one byte, if there is room for it. -/
def Buffer.push (size : Nat) (b : Buffer) (value : UInt8) : Checked Buffer := do
  if b.bytes.length ≤ b.pointer then
    throw (.bufferTooSmall (← add size b.pointer 1) b.bytes.length)
  else pure ⟨← store b.bytes b.pointer value, ← add size b.pointer 1⟩

/-- What is written. -/
def Buffer.contents (b : Buffer) : Checked (List UInt8) := cut b.bytes 0 b.pointer

/-- What is unstuffed so far: whole bytes, the run of ones, and the byte under way. -/
structure Unstuffing where
  buffer : Buffer
  ones : Nat := 0
  current : UInt8 := 0
  filled : Nat := 0

/-- Takes one bit of the region in. -/
def Unstuffing.take (size : Nat) (u : Unstuffing) (bit : Bool) : Checked Unstuffing := do
  if u.ones = 5 then
    if bit then throw .corruptedFrame else pure { u with ones := 0 }
  else
    let ones ← (if bit then add 256 u.ones 1 else pure 0 : Checked Nat)
    let current := (u.current <<< 1) ||| (if bit then 1 else 0)
    let filled ← add 256 u.filled 1
    if filled = 8 then
      pure ⟨← reword .corruptedFrame (u.buffer.push size current), ones, 0, 0⟩
    else pure ⟨u.buffer, ones, current, filled⟩

/-- Whether a frame begins and ends with a flag. -/
def hasFlags (frame : List UInt8) : Checked Bool := do
  if frame.length < 2 then pure false
  else if (← item frame 0) ≠ flag then pure false
  else pure ((← item frame (← sub frame.length 1)) == flag)

/-- Unstuffs a frame into an array, and answers with the length and the array. -/
noncomputable def unstuff (size : Nat) (frame out : List UInt8) : Checked (Nat × List UInt8) := do
  if !(← hasFlags frame) then throw .corruptedFrame
  let region ← cut frame 1 (← sub frame.length 1)
  let opened ← Buffer.push size ⟨Frame.blank, 0⟩ flag
  let u ← overBits size (Unstuffing.take size) ⟨region, 0, 0⟩ ⟨opened, 0, 0, 0⟩
  let plain ← reword .corruptedFrame (u.buffer.push size flag)
  if out.length < plain.pointer then throw (.bufferTooSmall plain.pointer out.length)
  pure (plain.pointer, ← splice out 0 plain.pointer (← plain.contents))

/-- Unstuffs a frame into a buffer of its own. -/
noncomputable def unstuffFrame (size : Nat) (frame : List UInt8) : Checked Buffer := do
  let (length, bytes) ← unstuff size frame Frame.blank
  pure ⟨bytes, length⟩

/-! ## 2. Reading bit by bit -/

/-- The bits that are left. -/
def Cursor.rest (c : Cursor) : List Bool := (bitsOf (c.bytes.drop c.byte)).drop c.bit

/-- **A cursor takes the first of the bits that are left**, and stays within a byte. -/
theorem Cursor.read_eq {size : Nat} {c : Cursor} (within : c.bit < 8)
    (room : c.bytes.length < size) :
    (c.rest = [] ∧ c.read size = pure none) ∨
      ∃ bit d, c.rest = bit :: d.rest ∧ c.read size = pure (some (bit, d)) ∧ d.bit < 8 ∧
        d.bytes = c.bytes := by
  rcases Nat.lt_or_ge c.byte c.bytes.length with inside | beyond
  · right
    have entry := List.getElem?_eq_getElem inside
    have split := List.drop_eq_getElem_cons inside
    have first : (Reader.mk (c.bytes.drop c.byte) ⟨c.bit, within⟩).next? =
        some ((c.bytes[c.byte]).toNat.testBit (7 - c.bit),
          { bytes := if (⟨c.bit, within⟩ : Fin 8) = 7 then c.bytes.drop (c.byte + 1)
              else c.bytes.drop c.byte
            offset := ⟨c.bit, within⟩ + 1 }) := by
      rw [Reader.next?, split]
    have rest : c.rest = _ := Reader.bits_of_next? first
    have count : c.bit + 1 < 256 := by omega
    simp only [Cursor.read, entry, sub_of_le (Nat.le_of_lt_succ within), add_of_lt count, pure_bind]
    by_cases last : c.bit = 7
    · have wide : c.byte + 1 < size := by omega
      refine ⟨(c.bytes[c.byte]).toNat.testBit (7 - c.bit), ⟨c.bytes, c.byte + 1, 0⟩, rest.trans ?_,
        ?_, Nat.zero_lt_succ _, rfl⟩
      · simp [last, Reader.bits, Cursor.rest]
      · rw [if_pos (by omega), add_of_lt wide]
        rfl
    · have next : c.bit + 1 < 8 := by omega
      refine ⟨(c.bytes[c.byte]).toNat.testBit (7 - c.bit), ⟨c.bytes, c.byte, c.bit + 1⟩,
        rest.trans ?_, ?_, next, rfl⟩
      · have offset : ((⟨c.bit, within⟩ : Fin 8) + 1).val = c.bit + 1 :=
          Nat.mod_eq_of_lt next
        have other : (⟨c.bit, within⟩ : Fin 8) ≠ 7 := fun e => last (congrArg Fin.val e)
        simp [Reader.bits, Cursor.rest, offset, other]
      · rw [if_neg (Nat.ne_of_lt next)]
  · left
    have missing : c.bytes[c.byte]? = none := List.getElem?_eq_none beyond
    refine ⟨?_, ?_⟩
    · simp [Cursor.rest, List.drop_eq_nil_of_le beyond]
    · simp only [Cursor.read, missing]

/-- The loop over a cursor, bit by bit. -/
theorem overBits_unfold (size : Nat) (body : σ → Bool → Checked σ) (c : Cursor) (s : σ) :
    overBits size body c s = (do
      match ← c.read size with
      | none => pure s
      | some (bit, c) => overBits size body c (← body s bit)) := by
  rw [overBits, loop_eq]
  dsimp only
  rw [bind_assoc]
  refine bind_congr fun r => ?_
  match r with
  | none => rfl
  | some (bit, d) => exact bind_assoc ..

/-- **A loop over a cursor ends**, and takes the bits that are left in their order. -/
theorem overBits_eq_foldlM {size : Nat} (body : σ → Bool → Checked σ) {c : Cursor}
    (within : c.bit < 8)
    (room : c.bytes.length < size) (s : σ) : overBits size body c s = c.rest.foldlM body s := by
  generalize left : c.rest = bits
  induction bits generalizing c s with
  | nil =>
      rcases c.read_eq within room with ⟨-, read⟩ | ⟨bit, d, rest, -⟩
      · rw [overBits_unfold, read]
        rfl
      · rw [left] at rest
        cases rest
  | cons bit bits ih =>
      rcases c.read_eq within room with ⟨rest, -⟩ | ⟨first, d, rest, read, inside, same⟩
      · rw [left] at rest
        cases rest
      · rw [left] at rest
        cases rest
        rw [overBits_unfold, read, pure_bind, List.foldlM_cons]
        exact bind_congr fun t => ih inside (same ▸ room) t rfl

/-! ## 3. A buffer behind its pointer -/

/-- A buffer that holds a byte string. -/
def holding (plain : List UInt8) : Buffer :=
  ⟨plain ++ List.replicate (maxLength - plain.length) 0, plain.length⟩

section

variable {size : Nat} {plain : List UInt8}

theorem length_holding (short : plain.length ≤ maxLength) :
    (holding plain).bytes.length = maxLength := by
  rw [holding, List.length_append, List.length_replicate, Nat.add_sub_cancel' short]

theorem push_holding (wide : 2 ^ 16 ≤ size) (plain : List UInt8) (room : plain.length < maxLength)
    (value : UInt8) : (holding plain).push size value = pure (holding (plain ++ [value])) := by
  have len := length_holding (Nat.le_of_lt room)
  have count : plain.length + 1 < size := by
    simp only [maxLength] at room
    omega
  have gap : maxLength - plain.length = (maxLength - (plain ++ [value]).length) + 1 := by
    rw [List.length_append, List.length_singleton]
    omega
  have written : (plain ++ List.replicate (maxLength - plain.length) 0).set plain.length value =
      (plain ++ [value]) ++ List.replicate (maxLength - (plain ++ [value]).length) 0 := by
    rw [List.set_append_right _ _ (Nat.le_refl _), Nat.sub_self, gap, List.replicate_succ,
      List.set_cons_zero, List.append_assoc, List.singleton_append]
  have inside : (holding plain).pointer < (holding plain).bytes.length := by rwa [len]
  rw [Buffer.push, if_neg (Nat.not_le_of_lt inside), store_of_lt inside]
  simp only [holding, add_of_lt count, pure_bind, written, List.length_append,
    List.length_singleton]

theorem push_full (wide : 2 ^ 16 ≤ size) (full : plain.length = maxLength) (value : UInt8) :
    reword .corruptedFrame ((holding plain).push size value) = throw .corruptedFrame := by
  have count : plain.length + 1 < size := by
    simp only [maxLength] at full
    omega
  have len := length_holding (Nat.le_of_eq full)
  rw [Buffer.push, if_pos (by rw [len, ← full]; exact Nat.le_refl _)]
  simp only [holding, add_of_lt count, pure_bind, reword_throw]

theorem contents_holding (plain : List UInt8) : (holding plain).contents = pure plain := by
  have within : plain.length ≤ (holding plain).bytes.length := by
    rw [holding, List.length_append]
    exact Nat.le_add_right ..
  refine (cut_of_le (Nat.zero_le _) within).trans (congrArg pure ?_)
  rw [List.drop_zero, Nat.sub_zero]
  exact List.take_left' rfl

end

/-! ## 4. The stuffed region -/

/-- The byte that bits spell, each shifted in behind the others. -/
def shiftedIn (bits : List Bool) : UInt8 :=
  bits.foldl (fun byte bit => (byte <<< 1) ||| (if bit then 1 else 0)) 0

theorem shiftedIn_concat (bits : List Bool) (bit : Bool) :
    shiftedIn (bits ++ [bit]) = (shiftedIn bits <<< 1) ||| (if bit then 1 else 0) :=
  List.foldl_append

theorem shiftedIn_eq_byteOfBits : ∀ b7 b6 b5 b4 b3 b2 b1 b0 : Bool,
    shiftedIn [b7, b6, b5, b4, b3, b2, b1, b0] = byteOfBits [b7, b6, b5, b4, b3, b2, b1, b0] := by
  decide +kernel

/-- Eight bits make a byte. -/
theorem wholeBytes_of_eight {bits : List Bool} (eight : bits.length = 8) (more : List Bool) :
    wholeBytes (bits ++ more) = shiftedIn bits :: wholeBytes more := by
  match bits, eight with
  | [b7, b6, b5, b4, b3, b2, b1, b0], _ =>
      rw [shiftedIn_eq_byteOfBits]
      rfl

/-- What comes out of a region, behind what is already there and the bits under way, with a flag
    behind it; there may be no room for it. -/
def closed (plain : List UInt8) (pending : List Bool) : Option (List Bool) → Checked Buffer
  | none => throw .corruptedFrame
  | some more =>
      if (plain ++ wholeBytes (pending ++ more)).length < maxLength then
        pure (holding (plain ++ wholeBytes (pending ++ more) ++ [flag]))
      else throw .corruptedFrame

/-- Eight bits under way are a byte that is already there. -/
theorem closed_of_eight {plain : List UInt8} {pending : List Bool} (eight : pending.length = 8)
    (more : Option (List Bool)) :
    closed plain pending more = closed (plain ++ [shiftedIn pending]) [] more := by
  cases more with
  | none => rfl
  | some more =>
      have moved : plain ++ wholeBytes (pending ++ more) =
          plain ++ [shiftedIn pending] ++ wholeBytes more := by
        rw [wholeBytes_of_eight eight, List.append_assoc, List.singleton_append]
      rw [closed, closed, moved, List.nil_append]

/-- A bit that comes out is under way. -/
theorem closed_map_cons (plain : List UInt8) (pending : List Bool) (bit : Bool)
    (more : Option (List Bool)) :
    closed plain pending (more.map (bit :: ·)) = closed plain (pending ++ [bit]) more := by
  cases more with
  | none => rfl
  | some more =>
      rw [Option.map_some, closed, closed, List.append_assoc pending, List.singleton_append]

/-- Behind a full buffer nothing is closed. -/
theorem closed_of_full {plain : List UInt8} {pending : List Bool} (full : plain.length = maxLength)
    (more : Option (List Bool)) : closed plain pending more = throw .corruptedFrame := by
  cases more with
  | none => rfl
  | some more =>
      have full : ¬ (plain ++ wholeBytes (pending ++ more)).length < maxLength := by
        rw [List.length_append]
        omega
      exact if_neg full

section

variable {size : Nat} (wide : 2 ^ 16 ≤ size)

include wide

/-- Closing what is unstuffed pushes a flag, unless the buffer is full. -/
theorem push_flag_eq_closed {plain : List UInt8} {pending : List Bool}
    (short : plain.length ≤ maxLength) (few : pending.length < 8) :
    reword .corruptedFrame ((holding plain).push size flag) = closed plain pending (some []) := by
  rw [closed, List.append_nil, wholeBytes_of_short few, List.append_nil]
  split
  · rename_i room
    rw [push_holding wide _ room]
    rfl
  · rename_i full
    exact push_full wide (by omega) flag

/-- **The loop over a region**, closed by a flag, answers what taking the stuffed zeros out
    answers. -/
theorem foldlM_take (plain : List UInt8) {ones : Nat} (pending : List Bool) {bits : List Bool}
    (short : plain.length ≤ maxLength) (run : ones ≤ 5) (few : pending.length < 8) :
    (bits.foldlM (Unstuffing.take size) ⟨holding plain, ones, shiftedIn pending, pending.length⟩ >>=
        fun u => reword .corruptedFrame (u.buffer.push size flag)) =
      closed plain pending (Frame.unstuffBits ones bits) := by
  induction bits generalizing plain ones pending with
  | nil => exact push_flag_eq_closed wide short few
  | cons bit bits ih =>
      rw [List.foldlM_cons, Unstuffing.take, Frame.unstuffBits]
      by_cases stuffed : ones = 5
      · rw [if_pos stuffed, if_pos stuffed]
        cases bit with
        | true => rfl
        | false => exact ih plain pending short (Nat.zero_le _) few
      · rw [if_neg stuffed, if_neg stuffed, closed_map_cons]
        have counted : (if bit = true then add 256 ones 1 else pure 0) =
            (pure (if bit then ones + 1 else 0) : Checked Nat) := by
          cases bit with
          | true => exact add_of_lt (by omega)
          | false => rfl
        have run' : (if bit then ones + 1 else 0) ≤ 5 := by split <;> omega
        have filled : pending.length + 1 < 256 := by omega
        have grown : (pending ++ [bit]).length = pending.length + 1 := List.length_append
        simp only [counted, add_of_lt filled, pure_bind, ← shiftedIn_concat]
        by_cases eight : pending.length + 1 = 8
        · rw [if_pos eight]
          rcases Nat.lt_or_eq_of_le short with room | full
          · have fits : (plain ++ [shiftedIn (pending ++ [bit])]).length ≤ maxLength := by
              rw [List.length_append]
              exact room
            rw [push_holding wide _ room, closed_of_eight (grown.trans eight),
              ← ih _ [] fits run' (Nat.zero_lt_succ _)]
            rfl
          · rw [push_full wide full, closed_of_full full]
            rfl
        · have more : (pending ++ [bit]).length < 8 := by omega
          rw [if_neg eight]
          have next := ih plain _ short run' more
          rw [grown] at next
          exact next

end

/-! ## 5. Frames -/

theorem hasFlags_eq (frame : List UInt8) : hasFlags frame = pure (Frame.hasFlags frame) := by
  rw [hasFlags, Frame.hasFlags]
  by_cases short : frame.length < 2
  · rw [if_pos short, decide_eq_false (Nat.not_le_of_lt short)]
    rfl
  · have long : 2 ≤ frame.length := Nat.le_of_not_lt short
    have pos : 0 < frame.length := by omega
    have last : frame.length - 1 < frame.length := by omega
    rw [if_neg short, item_of_lt pos, sub_of_le pos, decide_eq_true long, Bool.true_and,
      List.head?_eq_getElem?, List.getElem?_eq_getElem pos, List.getLast?_eq_getElem?,
      List.getElem?_eq_getElem last]
    simp only [pure_bind, item_of_lt last]
    by_cases first : frame[0] = flag
    · rw [if_neg fun ne => ne first, first]
      simp
    · rw [if_pos first, Option.some_beq_some, beq_eq_false_iff_ne.mpr first]
      rfl

section

variable {size : Nat} {frame : List UInt8}

/-- The region is what lies between the first and the last byte. -/
theorem cut_region (long : 2 ≤ frame.length) :
    cut frame 1 (frame.length - 1) = pure (Frame.body frame) := by
  have le : 1 ≤ frame.length - 1 := by omega
  rw [cut_of_le le (Nat.sub_le _ _), Frame.body, List.dropLast_eq_take, List.length_tail,
    List.drop_one]

/-- What is unstuffed is copied to the front of an array that is large enough. -/
theorem copied_eq (plain out : List UInt8) :
    (do
      if out.length < (holding plain).pointer then
        throw (.bufferTooSmall (holding plain).pointer out.length)
      pure ((holding plain).pointer, ← splice out 0 (holding plain).pointer plain)) =
    match (if plain.length ≤ out.length then (.ok plain.length, plain ++ out.drop plain.length)
      else (.error (.bufferTooSmall plain.length out.length), out) :
        Except LinkError Nat × List UInt8) with
    | (.ok length, bytes) => (pure (length, bytes) : Checked (Nat × List UInt8))
    | (.error e, _) => throw e := by
  show (if out.length < plain.length then _ else _) = _
  by_cases fits : plain.length ≤ out.length
  · rw [if_neg (Nat.not_lt_of_le fits), if_pos fits]
    have written : splice out 0 plain.length plain = pure (plain ++ out.drop plain.length) :=
      splice_of_length (Nat.zero_le _) fits rfl
    show (splice out 0 plain.length plain >>= _) = _
    rw [written]
    rfl
  · rw [if_pos (Nat.lt_of_not_le fits), if_neg fits]
    rfl

/-- **Unstuffing stops on no frame**, whatever array it writes into. -/
theorem unstuff_eq (wide : 2 ^ 16 ≤ size) (addressable : frame.length < size) (out : List UInt8) :
    unstuff size frame out =
      match Frame.unstuff frame out with
      | (.ok length, bytes) => pure (length, bytes)
      | (.error e, _) => throw e := by
  rw [unstuff, Frame.unstuff, Frame.unstuffed, hasFlags_eq]
  simp only [pure_bind]
  cases flags : Frame.hasFlags frame with
  | false => rfl
  | true =>
      have long := Frame.two_le_of_hasFlags flags
      have opened : (Buffer.mk Frame.blank 0).push size flag = pure (holding [flag]) :=
        push_holding wide [] (Nat.zero_lt_succ _) flag
      have within : (Frame.body frame).length < size := by
        rw [Frame.body, List.length_dropLast, List.length_tail]
        omega
      have closes : (overBits size (Unstuffing.take size) ⟨Frame.body frame, 0, 0⟩
            ⟨holding [flag], 0, 0, 0⟩ >>= fun u =>
              reword .corruptedFrame (u.buffer.push size flag)) =
          closed [flag] [] (Frame.unstuffBits 0 (bitsOf (Frame.body frame))) := by
        rw [overBits_eq_foldlM _ (Nat.zero_lt_succ _) within]
        exact foldlM_take wide [flag] [] (by decide) (Nat.zero_le 5) (Nat.zero_lt_succ _)
      simp only [Bool.not_true, Bool.false_eq_true, if_false, if_true, pure_bind,
        sub_of_le (Nat.le_of_succ_le long), cut_region long, opened]
      rw [← bind_assoc, closes]
      cases Frame.unstuffBits 0 (bitsOf (Frame.body frame)) with
      | none => rfl
      | some bits =>
          have whole :
              [flag] ++ wholeBytes ([] ++ bits) ++ [flag] = Frame.flagged (wholeBytes bits) :=
            rfl
          have room : ([flag] ++ wholeBytes ([] ++ bits)).length < maxLength ↔
              (Frame.flagged (wholeBytes bits)).length ≤ maxLength := by
            have grown := (congrArg List.length whole).symm.trans List.length_append
            rw [grown]
            exact Iff.rfl
          simp only [closed, whole, room]
          by_cases short : (Frame.flagged (wholeBytes bits)).length ≤ maxLength
          · simp only [if_pos short, pure_bind, contents_holding]
            exact copied_eq _ out
          · simp only [if_neg short]
            rfl

/-- **Unstuffing into a buffer of its own** leaves the frame in the buffer. -/
theorem unstuffFrame_eq (wide : 2 ^ 16 ≤ size) (addressable : frame.length < size) :
    unstuffFrame size frame = answer ((Frame.unstuffFrame frame).map holding) := by
  rw [unstuffFrame, unstuff_eq wide addressable, Frame.unstuffFrame, Frame.unstuff]
  cases Frame.unstuffed frame with
  | error e => rfl
  | ok plain =>
      dsimp only
      by_cases fits : plain.length ≤ Frame.blank.length
      · have room : Frame.blank.drop plain.length = List.replicate (maxLength - plain.length) 0 :=
          List.drop_replicate
        have front : (plain ++ Frame.blank.drop plain.length).take plain.length = plain :=
          List.take_left' rfl
        rw [if_pos fits]
        dsimp only
        rw [front, room]
        rfl
      · rw [if_neg fits]
        rfl

end

end SatLink.Indexed
