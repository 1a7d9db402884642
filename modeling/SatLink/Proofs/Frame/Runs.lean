import SatLink.Frame.Stuffing

/-!
# Runs of ones

Both ends of the link count ones as they go. What their counters come to is told here by the bits
alone: a bit is judged by the run of ones that ends in front of it or with it.

* `closingOnes` — how many ones in a row some bits end in, and `HasSixOnes` — six in a row,
  anywhere;
* `withStuffing`, `withoutStuffing` — a zero behind every fifth one of a run, and the bits without
  every zero behind five ones;
* `stuffBits_eq` — the sender's counter is the length of the run, modulo five;
* `unstuffBits_eq` — **the receiver refuses exactly the bits with six ones in a row**, and takes
  every zero behind five ones out of all others.
-/

namespace SatLink.Frame

open SatLink.Bit

/-! ## 1. Runs -/

/-- How many ones in a row some bits end in. -/
def closingOnes (bits : List Bool) : Nat := (bits.reverse.takeWhile id).length

theorem closingOnes_concat (bits : List Bool) (bit : Bool) :
    closingOnes (bits ++ [bit]) = if bit then closingOnes bits + 1 else 0 := by
  cases bit <;> simp [closingOnes]

theorem replicate_prefix_iff {n : Nat} {bits : List Bool} :
    List.replicate n true <+: bits ↔ n ≤ (bits.takeWhile id).length := by
  induction bits generalizing n with
  | nil => simp
  | cons bit bits ih =>
      cases n with
      | zero => simp
      | succ n => cases bit <;> simp [List.replicate_succ, ih]

/-- The runs of ones at the end are those that are no longer than the last of them. -/
theorem replicate_suffix_iff {n : Nat} {bits : List Bool} :
    List.replicate n true <:+ bits ↔ n ≤ closingOnes bits := by
  rw [← List.reverse_prefix, List.reverse_replicate, replicate_prefix_iff, closingOnes]

/-- Six ones in a row, wherever they begin. -/
def HasSixOnes (bits : List Bool) : Prop := List.replicate 6 true <:+: bits

instance (bits : List Bool) : Decidable (HasSixOnes bits) :=
  inferInstanceAs (Decidable (_ <:+: _))

theorem closingOnes_le {bits : List Bool} (few : ¬ HasSixOnes bits) : closingOnes bits ≤ 5 := by
  have short : ¬ 6 ≤ closingOnes bits := fun many => few (replicate_suffix_iff.mpr many).isInfix
  omega

theorem not_hasSixOnes_nil : ¬ HasSixOnes [] := by decide

/-- The sixth one makes them six. -/
theorem hasSixOnes_concat_iff (bits : List Bool) (bit : Bool) :
    HasSixOnes (bits ++ [bit]) ↔ 6 ≤ closingOnes (bits ++ [bit]) ∨ HasSixOnes bits := by
  rw [HasSixOnes, List.infix_concat_iff, replicate_suffix_iff, HasSixOnes]

/-- A zero, or a one behind fewer than five, makes no six. -/
theorem not_hasSixOnes_concat {bits : List Bool} (few : ¬ HasSixOnes bits) (bit : Bool)
    (room : bit = false ∨ closingOnes bits < 5) : ¬ HasSixOnes (bits ++ [bit]) := by
  rw [hasSixOnes_concat_iff, closingOnes_concat]
  intro six
  rcases six with many | before
  · rcases room with rfl | lt
    · cases many
    · split at many <;> omega
  · exact few before

/-- A run of six ones stays one, whatever follows. -/
theorem HasSixOnes.append {bits : List Bool} (six : HasSixOnes bits) (more : List Bool) :
    HasSixOnes (bits ++ more) :=
  List.infix_append_of_infix_left six

/-- A flag has six ones in a row. -/
theorem hasSixOnes_of_flag_mem {bytes : List UInt8} (inside : flag ∈ bytes) :
    HasSixOnes (bitsOf bytes) := by
  obtain ⟨front, rest, rfl⟩ := List.append_of_mem inside
  refine ⟨bitsOf front ++ [false], false :: bitsOf rest, ?_⟩
  rw [bitsOf_append, bitsOf_cons, List.append_assoc, List.append_assoc]
  rfl

/-! ## 2. Rules -/

/-- Every bit replaced by what a rule makes of it and of the bits in front of it; `front` came
    before. -/
def rewritten (rule : List Bool → Bool → List Bool) (front bits : List Bool) : List Bool :=
  (bits.mapIdx fun i bit => rule (front ++ bits.take i) bit).flatten

theorem rewritten_cons (rule : List Bool → Bool → List Bool) (front : List Bool) (bit : Bool)
    (bits : List Bool) : rewritten rule front (bit :: bits) =
      rule front bit ++ rewritten rule (front ++ [bit]) bits := by
  simp [rewritten, List.mapIdx_cons]

/-- Puts a zero behind a one whose run has a length that five divides. -/
def stuffing (front : List Bool) (bit : Bool) : List Bool :=
  if bit ∧ 5 ∣ closingOnes (front ++ [bit]) then [bit, false] else [bit]

/-- Drops a zero that directly follows five ones in a row. -/
def destuffing (front : List Bool) (bit : Bool) : List Bool :=
  if bit = false ∧ 5 ≤ closingOnes front then [] else [bit]

/-- The bits with a zero behind every fifth consecutive one. -/
def withStuffing (bits : List Bool) : List Bool := rewritten stuffing [] bits

/-- The bits without every zero that directly follows five consecutive ones. -/
def withoutStuffing (bits : List Bool) : List Bool := rewritten destuffing [] bits

/-! ## 3. Counters -/

/-- **The sender's counter** is the length of the run so far, modulo five. -/
theorem stuffBits_eq_rewritten (front bits : List Bool) :
    stuffBits (closingOnes front % 5) bits = rewritten stuffing front bits := by
  induction bits generalizing front with
  | nil => rfl
  | cons bit bits ih =>
      have next := ih (front ++ [bit])
      rw [rewritten_cons, ← next, stuffing, closingOnes_concat]
      cases bit with
      | false => rfl
      | true =>
          rw [if_pos rfl, stuffBits]
          by_cases fifth : closingOnes front % 5 = 4
          · have whole : 5 ∣ closingOnes front + 1 := by omega
            have restart : (closingOnes front + 1) % 5 = 0 := by omega
            rw [if_pos fifth, if_pos ⟨rfl, whole⟩, restart]
            rfl
          · have part : ¬ 5 ∣ closingOnes front + 1 := by omega
            have goesOn : (closingOnes front + 1) % 5 = closingOnes front % 5 + 1 := by omega
            rw [if_neg fifth, if_neg fun h => part h.2, goesOn]
            rfl

theorem stuffBits_eq (bits : List Bool) : stuffBits 0 bits = withStuffing bits :=
  stuffBits_eq_rewritten [] bits

/-- The zero that is put in ends the run, so ten ones get two of them. -/
example : withStuffing [true, true, true, true, true, true, true, true, true, true] =
    [true, true, true, true, true, false, true, true, true, true, true, false] := by
  decide

/-- **The receiver's counter** is the length of the run so far, up to the sixth one. -/
theorem unstuffBits_eq_rewritten {front : List Bool} (few : ¬ HasSixOnes front) (bits : List Bool) :
    unstuffBits (closingOnes front) bits =
      if HasSixOnes (front ++ bits) then none else some (rewritten destuffing front bits) := by
  induction bits generalizing front with
  | nil =>
      rw [List.append_nil, if_neg few]
      rfl
  | cons bit bits ih =>
      have le := closingOnes_le few
      have run := closingOnes_concat front bit
      rw [rewritten_cons, destuffing, unstuffBits, List.append_cons]
      by_cases five : closingOnes front = 5
      · rw [if_pos five]
        cases bit with
        | true =>
            -- the sixth one is refused, and what follows does not matter
            have six : HasSixOnes (front ++ [true]) := by
              rw [hasSixOnes_concat_iff, run, five]
              exact .inl (Nat.le_refl 6)
            rw [if_pos rfl, if_pos (six.append bits)]
        | false =>
            have next := ih (not_hasSixOnes_concat few false (.inl rfl))
            have dropped : false = false ∧ 5 ≤ closingOnes front := ⟨rfl, Nat.le_of_eq five.symm⟩
            rw [run] at next
            rw [if_neg Bool.false_ne_true, if_pos dropped, List.nil_append]
            exact next
      · have below : closingOnes front < 5 := Nat.lt_of_le_of_ne le five
        have next := ih (not_hasSixOnes_concat few bit (.inr below))
        have kept : ¬ (bit = false ∧ 5 ≤ closingOnes front) :=
          fun h => five (Nat.le_antisymm le h.2)
        rw [run] at next
        rw [if_neg five, if_neg kept, next]
        split <;> rfl

/-- **The receiver refuses exactly the bits with six ones in a row**, and takes every zero behind
    five ones out of all others. -/
theorem unstuffBits_eq (bits : List Bool) :
    unstuffBits 0 bits = if HasSixOnes bits then none else some (withoutStuffing bits) :=
  unstuffBits_eq_rewritten not_hasSixOnes_nil bits

end SatLink.Frame
