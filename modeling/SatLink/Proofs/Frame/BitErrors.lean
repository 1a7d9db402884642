import SatLink.Proofs.Frame.Stuffing

/-!
# Wrong bits in a stuffed frame

A wrong bit may make or break a run of ones, and then the receiver takes out a bit too many or too
few, and everything behind it is lost. Between two zeros a wrong bit does no such thing.

* `flipBits` — a byte string with some of its bits turned over;
* `stuffedPosition` — where a bit of a frame stands once the frame is stuffed;
* `unstuffBits_flipped` — the bits that come out are those that went in, with the same ones wrong;
* `unstuffFrame_flipBits` — the same for a frame.
-/

namespace SatLink.Frame

open SatLink.Bit

/-! ## 1. Wrong bits -/

/-- The bits, with those turned over that are hit. -/
def flipped (hit : Nat → Bool) : List Bool → List Bool
  | [] => []
  | bit :: bits => (bit ^^ hit 0) :: flipped (fun i => hit (i + 1)) bits

@[simp] theorem length_flipped (hit : Nat → Bool) (bits : List Bool) :
    (flipped hit bits).length = bits.length := by
  induction bits generalizing hit with
  | nil => rfl
  | cons bit bits ih => exact congrArg (· + 1) (ih _)

theorem flipped_append (hit : Nat → Bool) (xs ys : List Bool) :
    flipped hit (xs ++ ys) = flipped hit xs ++ flipped (fun i => hit (xs.length + i)) ys := by
  induction xs generalizing hit with
  | nil => simp [flipped]
  | cons x xs ih =>
      have shift (i : Nat) : xs.length + 1 + i = xs.length + i + 1 := by omega
      simp only [List.cons_append, flipped, ih, List.length_cons, shift]

theorem flipped_of_unhit {hit : Nat → Bool} {bits : List Bool}
    (unhit : ∀ i < bits.length, hit i = false) : flipped hit bits = bits := by
  induction bits generalizing hit with
  | nil => rfl
  | cons bit bits ih =>
      rw [flipped, unhit 0 (Nat.zero_lt_succ _), Bool.xor_false,
        ih fun i hi => unhit (i + 1) (Nat.succ_lt_succ hi)]

/-- The bytes, with those bits turned over that are hit. -/
def flipBits (hit : Nat → Bool) (bytes : List UInt8) : List UInt8 :=
  wholeBytes (flipped hit (bitsOf bytes))

variable {hit : Nat → Bool} {bytes : List UInt8}

theorem bitsOf_flipBits (hit : Nat → Bool) (bytes : List UInt8) :
    bitsOf (flipBits hit bytes) = flipped hit (bitsOf bytes) :=
  bitsOf_wholeBytes _ (by rw [length_flipped, length_bitsOf, Nat.mul_mod_right])

@[simp] theorem length_flipBits (hit : Nat → Bool) (bytes : List UInt8) :
    (flipBits hit bytes).length = bytes.length := by
  have len := congrArg List.length (bitsOf_flipBits hit bytes)
  rw [length_flipped, length_bitsOf, length_bitsOf] at len
  exact Nat.eq_of_mul_eq_mul_left (by decide) len

theorem flipBits_append (hit : Nat → Bool) (xs ys : List UInt8) :
    flipBits hit (xs ++ ys) =
      flipBits hit xs ++ flipBits (fun i => hit (8 * xs.length + i)) ys := by
  apply bitsOf_injective
  rw [bitsOf_flipBits, bitsOf_append, bitsOf_append, flipped_append, bitsOf_flipBits,
    bitsOf_flipBits, length_bitsOf]

theorem flipBits_of_unhit (unhit : ∀ i < 8 * bytes.length, hit i = false) :
    flipBits hit bytes = bytes := by
  apply bitsOf_injective
  rw [bitsOf_flipBits, flipped_of_unhit]
  rwa [length_bitsOf]

/-- A byte that is wrong has a bit that was hit. -/
theorem exists_hit_of_ne {i : Nat} (ne : (flipBits hit bytes)[i]? ≠ bytes[i]?) :
    ∃ j < 8, hit (8 * i + j) = true := by
  induction bytes generalizing hit i with
  | nil => exact absurd rfl ne
  | cons byte bytes ih =>
      have split := flipBits_append hit [byte] bytes
      rw [List.singleton_append] at split
      have one : (flipBits hit [byte]).length = 1 := length_flipBits hit [byte]
      cases i with
      | zero =>
          refine Classical.byContradiction fun unhit => ne ?_
          have unhit : flipBits hit [byte] = [byte] := by
            refine flipBits_of_unhit fun j hj => Bool.eq_false_iff.mpr fun h => unhit ⟨j, hj, ?_⟩
            rw [Nat.mul_zero, Nat.zero_add]
            exact h
          rw [split, unhit]
          rfl
      | succ i =>
          rw [split, List.getElem?_append_right (by omega), one, List.getElem?_cons_succ] at ne
          obtain ⟨j, hj, h⟩ := ih ne
          refine ⟨j, hj, ?_⟩
          rw [show 8 * (i + 1) + j = 8 * 1 + (8 * i + j) by omega]
          exact h

/-! ## 2. Wrong bits between zeros -/

/-- The hit bits stand between two zeros that are not hit. In front of all bits were `ones` ones. -/
structure Isolated (hit : Nat → Bool) (ones : Nat) (bits : List Bool) : Prop where
  first : hit 0 = true → ones = 0
  before : ∀ i, hit (i + 1) = true → bits[i]? = some false
  behind : ∀ i, hit i = true → bits[i + 1]? = some false
  apart : ∀ i, hit i = true → hit (i + 1) = false

theorem Isolated.tail {ones : Nat} {bit : Bool} {bits : List Bool}
    (h : Isolated hit ones (bit :: bits)) :
    Isolated (fun i => hit (i + 1)) (if bit then ones + 1 else 0) bits where
  first next := by
    have zero : bit = false := Option.some.inj (h.before 0 next)
    rw [zero]
    rfl
  before i := h.before (i + 1)
  behind i := h.behind (i + 1)
  apart i := h.apart (i + 1)

/-- Neither a fifth one nor the zero that is put in behind it is hit. -/
theorem Isolated.unhit_fifth {bits : List Bool} (h : Isolated hit 4 (true :: bits)) :
    hit 0 = false ∧ hit 1 = false :=
  ⟨Bool.eq_false_iff.mpr fun isHit => absurd (h.first isHit) (by decide),
    Bool.eq_false_iff.mpr fun isHit => by cases h.before 0 isHit⟩

/-- Only bits of the data are hit, and none that was put in between. -/
def OnData (hit : Nat → Bool) (ones : Nat) (data : List Bool) : Prop :=
  ∀ i, hit i = true → ∃ j < data.length, i = stuffedCount ones (data.take j)

theorem OnData.unhit {ones : Nat} (h : OnData hit ones []) (i : Nat) : hit i = false := by
  refine Bool.eq_false_iff.mpr fun isHit => ?_
  obtain ⟨j, hj, -⟩ := h i isHit
  cases hj

/-- A hit behind the first bit is one on the bits behind it. -/
theorem OnData.tail {ones next width : Nat} {bit : Bool} {data : List Bool}
    (h : OnData hit ones (bit :: data)) (wide : 0 < width)
    (count : ∀ rest, stuffedCount ones (bit :: rest) = stuffedCount next rest + width) :
    OnData (fun i => hit (i + width)) next data := by
  intro i isHit
  obtain ⟨j, hj, e⟩ := h (i + width) isHit
  cases j with
  | zero =>
      rw [List.take_zero, stuffedCount] at e
      omega
  | succ j =>
      rw [List.take_succ_cons, count] at e
      exact ⟨j, Nat.lt_of_succ_lt_succ hj, Nat.add_right_cancel e⟩

/-- The receiver's count of ones is that of the bits as they were sent, except behind a wrong bit;
    then both are small, and the zero that follows makes them one again. -/
def Near (hit : Nat → Bool) (ones seen : Nat) (bits : List Bool) : Prop :=
  seen = ones ∨ seen ≤ 1 ∧ ones ≤ 1 ∧ hit 0 = false ∧ bits[0]? = some false

theorem Near.tail {ones seen : Nat} {bit : Bool} {bits : List Bool}
    (near : Near hit ones seen (bit :: bits)) (isolated : Isolated hit ones (bit :: bits)) :
    Near (fun i => hit (i + 1)) (if bit then ones + 1 else 0)
      (if bit ^^ hit 0 then seen + 1 else 0) bits := by
  cases struck : hit 0 with
  | false =>
      rw [Bool.xor_false]
      rcases near with rfl | ⟨-, -, -, zero⟩
      · exact .inl rfl
      · rw [Option.some.inj zero]
        exact .inl rfl
  | true =>
      have single := isolated.first struck
      rcases near with rfl | ⟨-, -, unhit, -⟩
      · refine .inr ⟨?_, ?_, isolated.apart 0 struck, isolated.behind 0 struck⟩
        · split <;> omega
        · split <;> omega
      · rw [struck] at unhit
        cases unhit

theorem Near.ne_five {ones seen : Nat} {bits : List Bool} (near : Near hit ones seen bits)
    (few : ones < 5) : seen ≠ 5 := by
  rcases near with e | ⟨small, -⟩ <;> omega

theorem unstuffBits_cons {seen : Nat} (few : seen ≠ 5) (bit : Bool) (bits : List Bool) :
    unstuffBits seen (bit :: bits) =
      (unstuffBits (if bit then seen + 1 else 0) bits).map (bit :: ·) := by
  rw [unstuffBits, if_neg few]

/-- **The wrong bits come out where they went in**, and all others as they were. -/
theorem unstuffBits_flipped {ones seen k : Nat} {data : List Bool} (few : ones < 5)
    (isolated : Isolated hit ones (stuffBits ones data ++ List.replicate k false))
    (onData : OnData hit ones data)
    (near : Near hit ones seen (stuffBits ones data ++ List.replicate k false)) :
    unstuffBits seen (flipped hit (stuffBits ones data ++ List.replicate k false)) =
      some (flipped (fun j => hit (stuffedCount ones (data.take j))) data ++
        List.replicate k false) := by
  induction data generalizing hit ones seen with
  | nil =>
      rw [flipped_of_unhit fun i _ => onData.unhit i]
      exact unstuffBits_zeros (near.ne_five few) k
  | cons bit data ih =>
      have below := near.ne_five few
      cases bit with
      | false =>
          have inner : OnData (fun i => hit (i + 1)) 0 data := onData.tail Nat.one_pos fun _ => rfl
          have stream : stuffBits ones (false :: data) ++ List.replicate k false =
            false :: (stuffBits 0 data ++ List.replicate k false) := rfl
          rw [stream] at isolated near ⊢
          have behind : Isolated (fun i => hit (i + 1)) 0 _ := isolated.tail
          have near' : Near _ 0 _ _ := near.tail isolated
          rw [flipped, unstuffBits_cons below, ih (by decide) behind inner near']
          rfl
      | true =>
          by_cases fifth : ones = 4
          · subst fifth
            have inner : OnData (fun i => hit (i + 2)) 0 data :=
              onData.tail (by decide) fun _ => rfl
            have stream : stuffBits 4 (true :: data) ++ List.replicate k false =
              true :: false :: (stuffBits 0 data ++ List.replicate k false) := rfl
            rw [stream] at isolated near ⊢
            have behind : Isolated (fun i => hit (i + 2)) 0 _ := isolated.tail.tail
            obtain ⟨unhit, unhit'⟩ := isolated.unhit_fifth
            have same : seen = 4 := near.resolve_right fun h => absurd h.2.1 (by decide)
            have rest := ih (by decide) behind inner (.inl rfl)
            have step : unstuffBits 5 (false :: flipped (fun i => hit (i + 2))
                (stuffBits 0 data ++ List.replicate k false)) = _ := rest
            rw [flipped, flipped, unhit, unhit', same, unstuffBits_cons (by decide)]
            refine (congrArg (Option.map (true :: ·)) step).trans ?_
            rw [flipped, List.take_zero, stuffedCount, unhit]
            rfl
          · have few' : ones + 1 < 5 := by omega
            have count (rest : List Bool) :
                stuffedCount ones (true :: rest) = stuffedCount (ones + 1) rest + 1 := if_neg fifth
            have inner : OnData (fun i => hit (i + 1)) (ones + 1) data :=
              onData.tail (by decide) count
            have stream : stuffBits ones (true :: data) ++ List.replicate k false =
                true :: (stuffBits (ones + 1) data ++ List.replicate k false) := by
              rw [stuffBits, if_neg fifth]
              rfl
            rw [stream] at isolated near ⊢
            have behind : Isolated (fun i => hit (i + 1)) (ones + 1) _ := isolated.tail
            have near' : Near _ (ones + 1) _ _ := near.tail isolated
            rw [flipped, unstuffBits_cons below, ih few' behind inner near', flipped]
            simp only [List.take_succ_cons, count]
            rfl

/-! ## 3. Frames -/

/-- Every bit is stuffed to at least one. -/
theorem stuffedCount_add_le (ones : Nat) (xs ys : List Bool) :
    stuffedCount ones xs + ys.length ≤ stuffedCount ones (xs ++ ys) := by
  induction xs generalizing ones with
  | nil =>
      rw [stuffedCount, Nat.zero_add]
      exact length_le_stuffedCount ones ys
  | cons x xs ih =>
      have restart := ih 0
      have goesOn := ih (ones + 1)
      cases x with
      | false =>
          simp only [List.cons_append, stuffedCount]
          omega
      | true =>
          simp only [List.cons_append, stuffedCount]
          split <;> omega

theorem stuffedCount_take_add_le (ones : Nat) (bits : List Bool) {i j : Nat} (le : i ≤ j)
    (bound : j ≤ bits.length) :
    stuffedCount ones (bits.take i) + (j - i) ≤ stuffedCount ones (bits.take j) := by
  have split : bits.take j = bits.take i ++ (bits.drop i).take (j - i) := by
    rw [← List.take_add, Nat.add_sub_cancel' le]
  have len : ((bits.drop i).take (j - i)).length = j - i := by
    rw [List.length_take, List.length_drop]
    omega
  have add := stuffedCount_add_le ones (bits.take i) ((bits.drop i).take (j - i))
  rwa [len, ← split] at add

/-- Where a bit of the body of a frame stands in the stuffed frame. -/
def stuffedPosition (frame : List UInt8) (j : Nat) : Nat :=
  8 + stuffedCount 0 ((bitsOf (body frame)).take j)

/-- Behind the bits before it stands the next bit. -/
theorem getElem?_stuffBits (ones : Nat) {bits : List Bool} {j : Nat} (inside : j < bits.length) :
    (stuffBits ones bits)[stuffedCount ones (bits.take j)]? = bits[j]? := by
  induction bits generalizing ones j with
  | nil => cases inside
  | cons bit bits ih =>
      cases j with
      | zero =>
          rw [List.take_zero, stuffedCount]
          cases bit with
          | false => rfl
          | true =>
              unfold stuffBits
              split <;> rfl
      | succ j =>
          have later : j < bits.length := Nat.lt_of_succ_lt_succ inside
          rw [List.take_succ_cons, List.getElem?_cons_succ]
          cases bit with
          | false => exact ih 0 later
          | true =>
              unfold stuffBits stuffedCount
              split
              · exact ih 0 later
              · exact ih (ones + 1) later

/-- Where a bit stands is settled by the bytes up to it. -/
theorem stuffedPosition_eq {frame front back : List UInt8} (parts : body frame = front ++ back)
    {j : Nat} (inside : j ≤ 8 * front.length) :
    stuffedPosition frame j = 8 + stuffedCount 0 ((bitsOf front).take j) := by
  rw [stuffedPosition, parts, bitsOf_append, List.take_append_of_le_length (by rwa [length_bitsOf])]

/-- Behind the opening flag stand the bits of the stuffed region. -/
theorem getElem?_bitsOf_flagged (body : List UInt8) {i : Nat} (inside : i < (bitsOf body).length) :
    (bitsOf (flagged body))[8 + i]? = (bitsOf body)[i]? := by
  rw [flagged, bitsOf_cons, bitsOf_append, List.getElem?_append_right (Nat.le_add_right 8 i),
    length_bitsOfByte, Nat.add_sub_cancel_left, List.getElem?_append_left inside]

section

variable {frame : List UInt8}

/-- The next bits of the body stand within the stuffed region. -/
theorem stuffedPosition_add_le {j k : Nat} (inside : j + k ≤ 8 * (body frame).length) :
    stuffedPosition frame j + k ≤ 8 + (stuffBits 0 (bitsOf (body frame))).length := by
  have room : j + k ≤ (bitsOf (body frame)).length := by rwa [length_bitsOf]
  have later := stuffedCount_take_add_le 0 (bitsOf (body frame))
    (Nat.le_trans (Nat.le_add_right j k) room) (Nat.le_refl _)
  rw [List.take_length, ← length_stuffBits 0 (bitsOf (body frame))] at later
  unfold stuffedPosition
  omega

theorem stuffedPosition_injOn {i j : Nat} (hi : i < 8 * (body frame).length)
    (hj : j < 8 * (body frame).length) (e : stuffedPosition frame i = stuffedPosition frame j) :
    i = j := by
  unfold stuffedPosition at e
  rw [← length_bitsOf] at hi hj
  rcases Nat.le_total i j with le | le
  · have apart := stuffedCount_take_add_le 0 _ le (Nat.le_of_lt hj)
    omega
  · have apart := stuffedCount_take_add_le 0 _ le (Nat.le_of_lt hi)
    omega

/-- **At its position stands the bit.** -/
theorem getElem?_stuffedPosition {j : Nat} (inside : j < 8 * (body frame).length) :
    (bitsOf (flagged (stuffedBody frame)))[stuffedPosition frame j]? =
      (bitsOf (body frame))[j]? := by
  have within : stuffedCount 0 ((bitsOf (body frame)).take j) <
      (stuffBits 0 (bitsOf (body frame))).length := by
    have le : stuffedPosition frame j + 1 ≤ 8 + (stuffBits 0 (bitsOf (body frame))).length :=
      stuffedPosition_add_le inside
    unfold stuffedPosition at le
    omega
  rw [stuffedPosition, getElem?_bitsOf_flagged, bitsOf_stuffedBody,
    List.getElem?_append_left within]
  · exact getElem?_stuffBits 0 (by rwa [length_bitsOf])
  · rw [bitsOf_stuffedBody, List.length_append]
    omega

/-- Wrong bits between the flags leave the flags as they are. -/
theorem flipBits_flagged {body : List UInt8}
    (between : ∀ p, hit p = true → 8 ≤ p ∧ p < 8 + 8 * body.length) :
    flipBits hit (flagged body) = flagged (flipBits (fun i => hit (8 + i)) body) := by
  have opening : flipBits hit [flag] = [flag] := by
    refine flipBits_of_unhit fun i hi => Bool.eq_false_iff.mpr fun isHit => ?_
    have lt : i < 8 := hi
    have le := (between i isHit).1
    omega
  have closing : flipBits (fun i => hit (8 + (8 * body.length + i))) [flag] = [flag] := by
    refine flipBits_of_unhit fun i _ => Bool.eq_false_iff.mpr fun isHit => ?_
    have lt := (between _ isHit).2
    omega
  rw [flagged, ← List.singleton_append, flipBits_append, opening, flipBits_append]
  exact congrArg (fun last => [flag] ++ (flipBits _ _ ++ last)) closing

/-- **The frame comes out with the same bits wrong**, if every wrong bit is one of the body, though
    not its last, and stands between two zeros that are right. -/
theorem unstuffFrame_flipBits (flags : hasFlags frame = true) (short : frame.length ≤ maxLength)
    (onBody : ∀ p, hit p = true →
      ∃ j, j + 1 < 8 * (body frame).length ∧ p = stuffedPosition frame j)
    (before : ∀ p, hit (p + 1) = true → (bitsOf (flagged (stuffedBody frame)))[p]? = some false)
    (behind : ∀ p, hit p = true → (bitsOf (flagged (stuffedBody frame)))[p + 1]? = some false)
    (apart : ∀ p, hit p = true → hit (p + 1) = false) :
    unstuffFrame (flipBits hit (flagged (stuffedBody frame))) =
      .ok (flagged (flipBits (fun j => hit (stuffedPosition frame j)) (body frame))) := by
  have region := bitsOf_stuffedBody frame
  -- what is hit lies between the flags, with a bit to spare
  have within (i : Nat) (isHit : hit (8 + i) = true) :
      i + 1 < (bitsOf (stuffedBody frame)).length := by
    obtain ⟨j, hj, e⟩ := onBody _ isHit
    have le : stuffedPosition frame j + 2 ≤ 8 + (stuffBits 0 (bitsOf (body frame))).length :=
      stuffedPosition_add_le (by omega)
    rw [region, List.length_append]
    omega
  have between (p : Nat) (isHit : hit p = true) :
      8 ≤ p ∧ p < 8 + 8 * (stuffedBody frame).length := by
    obtain ⟨j, -, rfl⟩ := onBody p isHit
    have lt := within _ isHit
    rw [length_bitsOf] at lt
    exact ⟨Nat.le_add_right .., by unfold stuffedPosition; omega⟩
  have isolated : Isolated (fun i => hit (8 + i)) 0 (bitsOf (stuffedBody frame)) := by
    refine ⟨fun _ => rfl, ?_, ?_, fun i => apart (8 + i)⟩
    · intro i isHit
      have lt := within (i + 1) isHit
      rw [← getElem?_bitsOf_flagged _ (by omega)]
      exact before (8 + i) isHit
    · intro i isHit
      rw [← getElem?_bitsOf_flagged _ (within i isHit)]
      exact behind (8 + i) isHit
  have onData : OnData (fun i => hit (8 + i)) 0 (bitsOf (body frame)) := by
    intro i isHit
    obtain ⟨j, hj, e⟩ := onBody _ isHit
    refine ⟨j, ?_, Nat.add_left_cancel e⟩
    rw [length_bitsOf]
    omega
  have bits : unstuffBits 0 (bitsOf (flipBits (fun i => hit (8 + i)) (stuffedBody frame))) =
      some (bitsOf (flipBits (fun j => hit (stuffedPosition frame j)) (body frame)) ++
        padding (stuffBits 0 (bitsOf (body frame)))) := by
    rw [bitsOf_flipBits, bitsOf_flipBits, region]
    rw [region] at isolated
    exact unstuffBits_flipped (by decide) isolated onData (.inl rfl)
  have len : (flagged (flipBits (fun j => hit (stuffedPosition frame j)) (body frame))).length ≤
      maxLength := by
    rw [← flagged_body flags] at short
    simpa [flagged] using short
  rw [flipBits_flagged between]
  refine unstuffFrame_of_unstuffed ?_ len
  unfold unstuffed
  rw [if_pos (hasFlags_flagged _), body_flagged, bits]
  dsimp only
  rw [wholeBytes_bitsOf_append _ (length_padding_lt _), if_pos len]

end

end SatLink.Frame
