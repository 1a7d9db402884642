import SatLink.Frame.Stuffing

/-!
# Frames in a stream of bytes

Bytes before an opening flag are noise, flags behind each other are idle fill, and the flag that
closes a frame opens the next one.

* `Accumulator.push` — takes a byte, and hands out the frame that it closes;
* `frames` and `after` — a whole string of bytes: the frames handed out, and the state at its end.

A frame that does not fit is lost: its bytes are noise up to the next flag.
-/

namespace SatLink.Uplink

open SatLink.Frame (flag maxLength)

/-- What has come since the last frame. -/
inductive Accumulator where
  /-- No flag yet. -/
  | hunting
  /-- A flag, and `body` behind it. -/
  | collecting (body : List UInt8)
  deriving DecidableEq

namespace Accumulator

/-- A frame with this body, flags included, has room. -/
def fits (body : List UInt8) : Bool := decide (body.length + 2 ≤ maxLength)

/-- A frame has started and holds a byte behind its flag. -/
def isMidFrame : Accumulator → Bool
  | .hunting => false
  | .collecting body => !body.isEmpty

/-- Takes one byte, and hands out the frame, flags included, that it closes. -/
def push (byte : UInt8) : Accumulator → Option (List UInt8) × Accumulator
  | .hunting => (none, if byte = flag then .collecting [] else .hunting)
  | .collecting body =>
      if byte = flag then
        (if !body.isEmpty && fits body then some (Frame.flagged body) else none,
          .collecting [])
      else if fits body then (none, .collecting (body ++ [byte]))
      else (none, .hunting)

/-- Drops what has come, and waits for the next flag. -/
def reset (_ : Accumulator) : Accumulator := .hunting

/-- The state after a string of bytes. -/
def after (a : Accumulator) (bytes : List UInt8) : Accumulator :=
  bytes.foldl (fun a byte => (a.push byte).2) a

/-- The frames that a string of bytes closes. -/
def frames : Accumulator → List UInt8 → List (List UInt8)
  | _, [] => []
  | a, byte :: bytes =>
      match a.push byte with
      | (some frame, a) => frame :: frames a bytes
      | (none, a) => frames a bytes

theorem after_append (a : Accumulator) (xs ys : List UInt8) :
    a.after (xs ++ ys) = (a.after xs).after ys := by
  simp [after]

theorem frames_append (a : Accumulator) (xs ys : List UInt8) :
    a.frames (xs ++ ys) = a.frames xs ++ (a.after xs).frames ys := by
  induction xs generalizing a with
  | nil => rfl
  | cons byte xs ih =>
      simp only [List.cons_append, frames, after, List.foldl_cons]
      rcases a.push byte with ⟨_ | frame, b⟩
      · exact ih b
      · simpa [after] using ih b

end Accumulator

end SatLink.Uplink
