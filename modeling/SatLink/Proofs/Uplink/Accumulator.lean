import SatLink.Proofs.Frame.Stuffing
import SatLink.Uplink.Decoder

/-!
# What a stream of bytes hands out

A stream is cut at its flags. What stands between two of them is a frame if it is not empty and
fits, and is lost otherwise; in either case nothing of it is left behind the second flag.

* `Accumulator.closed` — what a flag hands out for the bytes since the flag before it;
* `Accumulator.frames_segment`, `Accumulator.after_flag` — the bytes between two flags are handed
  out by these bytes alone, whatever came before;
* `Enclosed` — bytes that make a frame between two flags, and `Accumulator.yields_flagged` — the
  next of them is handed out at its last byte, and not before;
* `Decoder.push_eq` — the decoder's timer has no say in what is handed out.
-/

namespace SatLink.Uplink

open SatLink.Frame (flag flagged maxLength)

namespace Accumulator

/-! ## 1. Between two flags -/

/-- What has come since the last flag. -/
def unfinished : Accumulator → List UInt8
  | .hunting => []
  | .collecting body => body

/-- What a flag hands out for the bytes since the flag before it. -/
def closed (bytes : List UInt8) : List (List UInt8) :=
  if !bytes.isEmpty && fits bytes then [flagged bytes] else []

theorem isMidFrame_collecting {body : List UInt8} (filled : body ≠ []) :
    (collecting body).isMidFrame = true := by
  simp [isMidFrame, filled]

theorem length_closed_le (bytes : List UInt8) : (closed bytes).length ≤ 1 := by
  unfold closed
  split
  · exact Nat.le_refl 1
  · exact Nat.zero_le 1

theorem closed_of_lt {bytes : List UInt8} (long : maxLength < bytes.length + 2) :
    closed bytes = [] := by
  have tooLong : fits bytes = false := decide_eq_false (Nat.not_le.mpr long)
  rw [closed, tooLong, Bool.and_false]
  rfl

/-- A flag hands out what is unfinished, and starts afresh. -/
theorem push_flag (a : Accumulator) : (a.push flag).1.toList = closed a.unfinished ∧
    (a.push flag).2 = .collecting [] := by
  cases a with
  | hunting => exact ⟨rfl, rfl⟩
  | collecting body =>
      refine ⟨?_, rfl⟩
      show (if !body.isEmpty && fits body then some (flagged body) else none).toList = closed body
      unfold closed
      split <;> rfl

theorem push_hunting {byte : UInt8} (other : byte ≠ flag) :
    hunting.push byte = (none, .hunting) :=
  congrArg (Prod.mk none) (if_neg other)

theorem push_collecting {byte : UInt8} (other : byte ≠ flag) (body : List UInt8) :
    (collecting body).push byte =
      (none, if fits body then .collecting (body ++ [byte]) else .hunting) := by
  refine (if_neg other).trans ?_
  split <;> rfl

/-- No other byte hands out anything. -/
theorem push_of_ne {byte : UInt8} (other : byte ≠ flag) (a : Accumulator) :
    (a.push byte).1 = none := by
  cases a with
  | hunting => rfl
  | collecting body => rw [push_collecting other]

theorem frames_cons (a : Accumulator) (byte : UInt8) (bytes : List UInt8) :
    a.frames (byte :: bytes) = (a.push byte).1.toList ++ (a.push byte).2.frames bytes := by
  rw [frames]
  split
  next h => rw [h]; rfl
  next h => rw [h]; rfl

theorem after_cons (a : Accumulator) (byte : UInt8) (bytes : List UInt8) :
    a.after (byte :: bytes) = (a.push byte).2.after bytes := rfl

theorem frames_of_notMem {bytes : List UInt8} (noFlag : flag ∉ bytes) (a : Accumulator) :
    a.frames bytes = [] := by
  induction bytes generalizing a with
  | nil => rfl
  | cons byte bytes ih =>
      have other : byte ≠ flag := fun e => noFlag (e ▸ List.mem_cons_self)
      rw [frames_cons, push_of_ne other, ih (fun h => noFlag (List.mem_cons_of_mem _ h))]
      rfl

/-- **Behind a flag** nothing is left of what came before it. -/
theorem after_flag (a : Accumulator) (bytes : List UInt8) :
    a.after (bytes ++ [flag]) = .collecting [] := by
  rw [after_append, after_cons, (push_flag _).2]
  rfl

/-- Up to the next flag, the bytes that it hands out. -/
theorem frames_flag {bytes : List UInt8} (noFlag : flag ∉ bytes) (a : Accumulator) :
    a.frames (bytes ++ [flag]) = closed (a.after bytes).unfinished := by
  rw [frames_append, frames_of_notMem noFlag, frames_cons, (push_flag _).1]
  exact List.append_nil _

/-- Before the first flag nothing is kept. -/
theorem after_hunting {bytes : List UInt8} (noFlag : flag ∉ bytes) :
    hunting.after bytes = .hunting := by
  induction bytes with
  | nil => rfl
  | cons byte bytes ih =>
      have other : byte ≠ flag := fun e => noFlag (e ▸ List.mem_cons_self)
      rw [after_cons, push_hunting other]
      exact ih (fun h => noFlag (List.mem_cons_of_mem _ h))

/-- Behind a flag everything is kept, as long as there is room. -/
theorem after_collecting {body bytes : List UInt8} (noFlag : flag ∉ bytes)
    (room : body.length < maxLength) : (collecting body).after bytes =
      if (body ++ bytes).length < maxLength then .collecting (body ++ bytes) else .hunting := by
  induction bytes generalizing body with
  | nil => rw [List.append_nil, if_pos room]; rfl
  | cons byte bytes ih =>
      have other : byte ≠ flag := fun e => noFlag (e ▸ List.mem_cons_self)
      have later : flag ∉ bytes := fun h => noFlag (List.mem_cons_of_mem _ h)
      have total : (body ++ byte :: bytes).length = body.length + 1 + bytes.length := by
        rw [List.length_append, List.length_cons]
        omega
      rw [after_cons, push_collecting other, total]
      by_cases more : body.length + 2 ≤ maxLength
      · have space : fits body = true := decide_eq_true more
        have len : (body ++ [byte]).length = body.length + 1 := List.length_append
        rw [if_pos space, ih later (by omega), List.append_assoc, List.singleton_append, total]
      · have full : ¬ fits body = true := fun space => more (of_decide_eq_true space)
        rw [if_neg full, after_hunting later, if_neg (by omega)]

/-- **Between two flags** stands a frame, if anything does and it fits. -/
theorem frames_segment {bytes : List UInt8} (noFlag : flag ∉ bytes) :
    (collecting []).frames (bytes ++ [flag]) = closed bytes := by
  rw [frames_flag noFlag, after_collecting noFlag (by decide), List.nil_append]
  split
  · rfl
  next full =>
    -- the bytes were given up on the way, and so many make no frame either
    rw [closed_of_lt (show maxLength < bytes.length + 2 by omega)]
    rfl

theorem frames_hunting {bytes : List UInt8} (noFlag : flag ∉ bytes) :
    hunting.frames (bytes ++ [flag]) = [] := by
  rw [frames_flag noFlag, after_hunting noFlag]
  rfl

end Accumulator

/-! ## 2. Frames that arrive -/

/-- Bytes that make a frame between two flags. -/
structure Enclosed (body : List UInt8) : Prop where
  ne_nil : body ≠ []
  fits : body.length + 2 ≤ maxLength
  noFlag : flag ∉ body

theorem Enclosed.closed_eq {body : List UInt8} (h : Enclosed body) :
    Accumulator.closed body = [flagged body] := by
  have filled : body.isEmpty = false := List.isEmpty_eq_false_iff.mpr h.ne_nil
  have room : Accumulator.fits body = true := decide_eq_true h.fits
  rw [Accumulator.closed, filled, room]
  rfl

namespace Accumulator

/-- Only at the end of a frame is a frame handed out, and then nothing is left of it. -/
theorem push_eq_some {a next : Accumulator} {byte : UInt8} {frame : List UInt8}
    (h : a.push byte = (some frame, next)) : next = .collecting [] := by
  by_cases isFlag : byte = flag
  · subst isFlag
    have afresh := (push_flag a).2
    rwa [h] at afresh
  · have nothing := push_of_ne isFlag a
    rw [h] at nothing
    cases nothing

/-- Hands out this frame at the last of these bytes, and nothing before. -/
def yields (a : Accumulator) (frame : List UInt8) : List UInt8 → Prop
  | [] => False
  | byte :: bytes =>
      match a.push byte with
      | (some handed, _) => handed = frame ∧ bytes = []
      | (none, next) => next.yields frame bytes

theorem yields_collecting {front rest : List UInt8} (h : Enclosed (front ++ rest)) :
    (collecting front).yields (flagged (front ++ rest)) (rest ++ [flag]) := by
  induction rest generalizing front with
  | nil =>
      rw [List.append_nil] at h ⊢
      have last : (collecting front).push flag = (some (flagged front), .collecting []) := by
        have filled : front.isEmpty = false := List.isEmpty_eq_false_iff.mpr h.ne_nil
        have room : fits front = true := decide_eq_true h.fits
        unfold push
        dsimp only
        rw [if_pos rfl, filled, room]
        rfl
      rw [List.nil_append, yields, last]
      exact ⟨rfl, rfl⟩
  | cons byte rest ih =>
      have other : byte ≠ flag := by
        rintro rfl
        exact h.noFlag (List.mem_append_right _ List.mem_cons_self)
      have room : fits front = true := by
        have short := h.fits
        rw [List.length_append] at short
        exact decide_eq_true (by omega)
      have onward : front ++ byte :: rest = (front ++ [byte]) ++ rest := List.append_cons ..
      rw [List.cons_append, yields, push_collecting other, if_pos room, onward]
      rw [onward] at h
      exact ih h

/-- **Between frames**, the next frame that is enclosed is handed out at its last byte. -/
theorem yields_flagged {a : Accumulator} {body : List UInt8} (between : a.unfinished = [])
    (h : Enclosed body) : a.yields (flagged body) (flagged body) := by
  have opened : a.push flag = (none, .collecting []) := by
    obtain ⟨nothing, afresh⟩ := push_flag a
    rw [between] at nothing
    exact Prod.ext (Option.toList_eq_nil_iff.mp nothing) afresh
  have closes : (collecting []).yields (flagged body) (body ++ [flag]) := yields_collecting h
  rw [flagged, yields, opened]
  exact closes

end Accumulator

/-- The two ends of a stuffed frame enclose what stands between them. -/
theorem enclosed_stuffedBody {frame : List UInt8} (long : 2 < frame.length)
    (short : frame.length ≤ 276) : Enclosed (Frame.stuffedBody frame) where
  ne_nil := Frame.stuffedBody_ne_nil long
  fits := Frame.length_stuffedBody_le (Nat.le_of_lt long) short
  noFlag := Frame.flag_notMem_stuffedBody frame

/-! ## 3. The decoder -/

namespace Decoder

/-- **The timer has no say** in what a byte hands out, unless time passes. -/
theorem push_eq (d : Decoder) (flagTimeout : Nat) (byte : UInt8) :
    (d.push flagTimeout byte).1 = (d.accumulator.push byte).1 ∧
      (d.push flagTimeout byte).2.accumulator = (d.accumulator.push byte).2 := by
  unfold push
  split
  next h => rw [h]; exact ⟨rfl, rfl⟩
  next h =>
    rw [h]
    split <;> exact ⟨rfl, rfl⟩

end Decoder

end SatLink.Uplink
