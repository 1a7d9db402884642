import SatLink.Proofs.Frame.Layout
import SatLink.Proofs.Frame.Stuffing

/-!
# How far stuffing makes a frame grow

A zero is put in for every five ones, so a body of ones grows most, and the buffers of this link are
just large enough for it.

* `stuffedCount_ones` — what a run of ones grows to;
* `stuffedLength_bounds` — **the bound of every frame, which a body of ones reaches**, and what it
  comes to for the two kinds of frame that this link sends.
-/

namespace SatLink.Frame

open SatLink.Bit

/-- A run of ones grows by one bit for every five of them. -/
theorem stuffedCount_ones {ones : Nat} (few : ones < 5) (n : Nat) :
    stuffedCount ones (List.replicate n true) = n + (ones + n) / 5 := by
  induction n generalizing ones with
  | zero =>
      rw [List.replicate_zero, stuffedCount]
      omega
  | succ n ih =>
      rw [List.replicate_succ, stuffedCount]
      split
      next fifth =>
        rw [ih (by decide)]
        omega
      next other =>
        rw [ih (by omega)]
        omega

theorem bitsOf_ones (n : Nat) : bitsOf (List.replicate n 0xFF) = List.replicate (8 * n) true := by
  induction n with
  | zero => rfl
  | succ n ih =>
      rw [List.replicate_succ, bitsOf_cons, ih]
      show List.replicate 8 true ++ _ = _
      rw [List.replicate_append_replicate]
      congr 1
      omega

/-- The bound for a frame, by what is between its flags. -/
theorem stuffedLength_flagged_le (body : List UInt8) :
    stuffedLength (flagged body) ≤ 2 + (48 * body.length / 5 + 7) / 8 := by
  have long : 2 ≤ (flagged body).length := by
    rw [length_flagged]
    exact Nat.le_add_left 2 _
  have bound := stuffedLength_le_of_two_le long
  rwa [length_flagged, Nat.add_sub_cancel] at bound

/-- **A body of ones reaches the bound.** -/
theorem stuffedLength_ones (n : Nat) :
    stuffedLength (flagged (List.replicate n 0xFF)) = 2 + (48 * n / 5 + 7) / 8 := by
  have long : ¬ (flagged (List.replicate n 0xFF)).length < 2 := by
    rw [length_flagged]
    omega
  rw [stuffedLength, if_neg long, body_flagged, bitsOf_ones, stuffedCount_ones (by decide)]
  omega

/-- A short frame grows by more than a fifth: the flags are not stuffed, but the last byte
    is filled. -/
example : ¬ stuffedLength [flag, 0xFF, flag] ≤ 3 * 6 / 5 := by decide

/-- A frame within the bound of a frame buffer is stuffed into one of its own. -/
theorem exists_stuffFrame {frame : List UInt8} (flags : hasFlags frame = true)
    (short : frame.length ≤ infoFrameLength) :
    ∃ stuffed, stuffFrame frame = .ok stuffed ∧
      stuffed.length ≤ 2 + (48 * (frame.length - 2) / 5 + 7) / 8 := by
  have long := two_le_of_hasFlags flags
  refine ⟨_, stuffFrame_eq flags short, ?_⟩
  rw [length_flagged_stuffedBody long]
  exact stuffedLength_le_of_two_le long

/-- **No frame grows beyond 48 bits for every five bytes between its flags**, counted in whole bits
    and then in whole bytes, and a body of ones grows to that. So every information frame is
    stuffed, to 331 bytes at most, and every unnumbered frame, to 24 bytes at most, whatever their
    addresses, control fields and information are. -/
theorem stuffedLength_bounds :
    (∀ body : List UInt8,
      stuffedLength (flagged body) ≤ 2 + (48 * body.length / 5 + 7) / 8) ∧
    (∀ n : Nat, stuffedLength (flagged (List.replicate n 0xFF)) = 2 + (48 * n / 5 + 7) / 8) ∧
    (∀ (header : Header) (control : Sequence) (info : Block infoLength),
      ∃ stuffed, stuffFrame (infoFrame header control info) = .ok stuffed ∧ stuffed.length ≤ 331) ∧
    (∀ (header : Header) (command : Control) (pollFinal : Bool),
      ∃ stuffed, stuffFrame (controlFrame header command pollFinal) = .ok stuffed ∧
        stuffed.length ≤ 24) := by
  refine ⟨stuffedLength_flagged_le, stuffedLength_ones, fun header control info => ?_,
    fun header command pollFinal => ?_⟩
  · have len := length_infoFrame header control info
    obtain ⟨stuffed, ok, bound⟩ :=
      exists_stuffFrame (hasFlags_infoFrame header control info) (Nat.le_of_eq len)
    rw [len] at bound
    exact ⟨stuffed, ok, bound⟩
  · have len := length_controlFrame header command pollFinal
    obtain ⟨stuffed, ok, bound⟩ :=
      exists_stuffFrame (hasFlags_controlFrame header command pollFinal) (by rw [len]; decide)
    rw [len] at bound
    exact ⟨stuffed, ok, bound⟩

end SatLink.Frame
