import Mathlib.Data.List.Basic
import SatLink.Bit.Cursor
import SatLink.Proofs.Byte
import SatLink.Proofs.Wire

/-!
# The check sequence as a division

Dividing is additive, so what a wrong string leaves in the register differs from what the right one
leaves by what the pattern of the wrong bits leaves in an empty register. A pattern goes unnoticed
when it leaves nothing.

* `foldl_absorb_xor` — the registers of two strings add up to the register of their sum;
* `checksum_eq_ofBytes_iff` — the check sequence stands behind a string when both together leave one
  and the same value, whatever the string is;
* `residue_burst_ne_zero` — two neighbouring bytes that are not both zero leave something;
* `foldl_feedBit_ne_zero` — so do one, two or three bits among the first 2208, an even number of
  them because a single bit does not come back for so long (`shiftBits_one_ne`).
-/

namespace SatLink.Frame.Fcs

open SatLink.Bit

/-! ## 1. One bit -/

theorem xor_xor_xor_comm (a b c d : UInt16) : a ^^^ b ^^^ (c ^^^ d) = a ^^^ c ^^^ (b ^^^ d) := by
  ac_rfl

theorem toNat_and_one (r : UInt16) : (r &&& 1).toNat = r.toNat % 2 := by
  rw [UInt16.toNat_and]
  exact Nat.and_one_is_mod _

theorem toNat_shiftRight_one (r : UInt16) : (r >>> 1).toNat = r.toNat / 2 := by
  rw [UInt16.toNat_shiftRight, Nat.shiftRight_eq_div_pow]
  rfl

theorem and_one_eq (r : UInt16) : r &&& 1 = 0 ∨ r &&& 1 = 1 := by
  rcases Nat.mod_two_eq_zero_or_one r.toNat with e | e
  · exact .inl (UInt16.toNat_inj.mp ((toNat_and_one r).trans e))
  · exact .inr (UInt16.toNat_inj.mp ((toNat_and_one r).trans e))

theorem xor_and_one (r s : UInt16) : (r ^^^ s) &&& 1 = (r &&& 1) ^^^ (s &&& 1) := by
  apply UInt16.toNat_inj.mp
  simp only [UInt16.toNat_and, UInt16.toNat_xor, Nat.and_xor_distrib_right]

theorem shiftBit_of_even {r : UInt16} (even : r &&& 1 = 0) : shiftBit r = r >>> 1 := by
  rw [shiftBit, even, if_neg (by decide)]

theorem shiftBit_of_odd {r : UInt16} (odd : r &&& 1 = 1) : shiftBit r = (r >>> 1) ^^^ polynomial :=
  if_pos odd

/-- The division is additive. -/
theorem shiftBit_xor (r s : UInt16) : shiftBit (r ^^^ s) = shiftBit r ^^^ shiftBit s := by
  have sum := xor_and_one r s
  rcases and_one_eq r with hr | hr <;> rcases and_one_eq s with hs | hs <;> rw [hr, hs] at sum
  · rw [shiftBit_of_even sum, shiftBit_of_even hr, shiftBit_of_even hs, UInt16.shiftRight_xor]
  · rw [shiftBit_of_odd sum, shiftBit_of_even hr, shiftBit_of_odd hs, UInt16.shiftRight_xor,
      UInt16.xor_assoc]
  · rw [shiftBit_of_odd sum, shiftBit_of_odd hr, shiftBit_of_even hs, UInt16.shiftRight_xor]
    ac_rfl
  · rw [shiftBit_of_even sum, shiftBit_of_odd hr, shiftBit_of_odd hs, UInt16.shiftRight_xor,
      xor_xor_xor_comm, UInt16.xor_self, UInt16.xor_zero]

/-- The divisor has the highest bit, which a shifted register has not. -/
theorem shiftBit_eq_zero {r : UInt16} (zero : shiftBit r = 0) : r = 0 := by
  have lt := r.toNat_lt
  rcases and_one_eq r with even | odd
  · rw [shiftBit_of_even even] at zero
    have low := (toNat_and_one r).symm.trans (congrArg UInt16.toNat even)
    have half := (toNat_shiftRight_one r).symm.trans (congrArg UInt16.toNat zero)
    have : r.toNat = 0 := by
      change r.toNat % 2 = 0 at low
      change r.toNat / 2 = 0 at half
      omega
    exact UInt16.toNat_inj.mp this
  · rw [shiftBit_of_odd odd, UInt16.xor_eq_zero_iff] at zero
    have high := (toNat_shiftRight_one r).symm.trans (congrArg UInt16.toNat zero)
    change r.toNat / 2 = 0x8408 at high
    omega

/-- One bit taken in. -/
def feedBit (register : UInt16) (bit : Bool) : UInt16 :=
  shiftBit (if bit then register ^^^ 1 else register)

/-- What the lowest bit of a number leaves, and the others shifted. -/
theorem shiftBit_ofNat {m : Nat} (lt : m < 2 ^ 16) :
    shiftBit (.ofNat m) = feedBit 0 (m.testBit 0) ^^^ .ofNat (m / 2) := by
  have value : (UInt16.ofNat m).toNat = m := UInt16.toNat_ofNat_of_lt' lt
  have half : UInt16.ofNat m >>> 1 = .ofNat (m / 2) := by
    apply UInt16.toNat_inj.mp
    rw [toNat_shiftRight_one, value]
    exact (UInt16.toNat_ofNat_of_lt' (show m / 2 < 2 ^ 16 by omega)).symm
  have low := toNat_and_one (.ofNat m)
  rw [value] at low
  rcases and_one_eq (.ofNat m) with even | odd
  · rw [even] at low
    rw [shiftBit_of_even even, half, Nat.testBit_zero, ← low]
    exact UInt16.zero_xor.symm
  · rw [odd] at low
    rw [shiftBit_of_odd odd, half, Nat.testBit_zero, ← low]
    exact UInt16.xor_comm _ _

/-! ## 2. Many bits -/

@[simp] theorem shiftBits_zero_register (n : Nat) : shiftBits n 0 = 0 := by
  induction n with
  | zero => rfl
  | succ n ih => exact ih

theorem shiftBits_xor (n : Nat) (r s : UInt16) :
    shiftBits n (r ^^^ s) = shiftBits n r ^^^ shiftBits n s := by
  induction n generalizing r s with
  | zero => rfl
  | succ n ih => rw [shiftBits, shiftBits, shiftBits, shiftBit_xor, ih]

theorem shiftBits_add (m n : Nat) (r : UInt16) :
    shiftBits (m + n) r = shiftBits n (shiftBits m r) := by
  induction m generalizing r with
  | zero => rw [Nat.zero_add, shiftBits]
  | succ m ih => rw [Nat.succ_add, shiftBits, shiftBits, ih]

theorem shiftBits_eq_zero {n : Nat} {r : UInt16} (zero : shiftBits n r = 0) : r = 0 := by
  induction n generalizing r with
  | zero => exact zero
  | succ n ih => exact shiftBit_eq_zero (ih zero)

theorem shiftBits_inj {n : Nat} {r s : UInt16} : shiftBits n r = shiftBits n s ↔ r = s := by
  constructor
  · intro same
    rw [← UInt16.xor_eq_zero_iff, ← shiftBits_xor] at same
    exact UInt16.xor_eq_zero_iff.mp (shiftBits_eq_zero same)
  · exact congrArg _

/-! ## 3. Bytes -/

theorem absorb_xor (r s : UInt16) (b c : UInt8) :
    absorb (r ^^^ s) (b ^^^ c) = absorb r b ^^^ absorb s c := by
  rw [absorb, UInt8.toUInt16_xor, xor_xor_xor_comm, shiftBits_xor, absorb, absorb]

/-- **The registers of two strings add up** to the register of their sum. -/
theorem foldl_absorb_xor {a b : List UInt8} (len : a.length = b.length) (r s : UInt16) :
    (List.zipWith (· ^^^ ·) a b).foldl absorb (r ^^^ s) =
      a.foldl absorb r ^^^ b.foldl absorb s := by
  induction a generalizing b r s with
  | nil =>
      rw [List.length_nil, eq_comm, List.length_eq_zero_iff] at len
      rw [len]
      rfl
  | cons x a ih =>
      cases b with
      | nil => cases len
      | cons y b =>
          simp only [List.zipWith_cons_cons, List.foldl_cons, absorb_xor]
          exact ih (Nat.succ.inj len) _ _

/-- What a string leaves in an empty register. -/
def residue (bytes : List UInt8) : UInt16 := bytes.foldl absorb 0

theorem residue_append (a b : List UInt8) : residue (a ++ b) = b.foldl absorb (residue a) :=
  List.foldl_append

theorem residue_zipWith_xor {a b : List UInt8} (len : a.length = b.length) (r : UInt16) :
    residue (List.zipWith (· ^^^ ·) a b) = a.foldl absorb r ^^^ b.foldl absorb r := by
  rw [← foldl_absorb_xor len, UInt16.xor_self, residue]

theorem foldl_absorb_zeros (n : Nat) (r : UInt16) :
    (List.replicate n (0 : UInt8)).foldl absorb r = shiftBits (8 * n) r := by
  induction n generalizing r with
  | zero => rfl
  | succ n ih =>
      have byte : absorb r 0 = shiftBits 8 r := by
        rw [absorb, show (0 : UInt8).toUInt16 = 0 from rfl, UInt16.xor_zero]
      rw [List.replicate_succ, List.foldl_cons, ih, byte, ← shiftBits_add, Nat.mul_succ,
        Nat.add_comm]

/-- Zeros in front of a string leave no trace; those behind it only move the register on. -/
theorem residue_zeros (m n : Nat) (bytes : List UInt8) :
    residue (List.replicate m 0 ++ (bytes ++ List.replicate n 0)) =
      shiftBits (8 * n) (residue bytes) := by
  have front : residue (List.replicate m 0) = 0 := by
    rw [residue, foldl_absorb_zeros, shiftBits_zero_register]
  rw [residue_append, front, List.foldl_append, foldl_absorb_zeros, residue]

/-- Zeros in the lowest bits are shifted out without a trace. -/
theorem shiftBits_two_pow_mul (n : Nat) {m : Nat} (lt : 2 ^ n * m < 2 ^ 16) :
    shiftBits n (.ofNat (2 ^ n * m)) = .ofNat m := by
  induction n with
  | zero => rw [Nat.pow_zero, Nat.one_mul, shiftBits]
  | succ n ih =>
      rw [Nat.pow_succ', Nat.mul_assoc] at lt ⊢
      have even : (2 * (2 ^ n * m)).testBit 0 = false := by
        rw [Nat.testBit_zero, Nat.mul_mod_right]
        rfl
      rw [shiftBits, shiftBit_ofNat lt, even, Nat.mul_div_cancel_left _ (by decide)]
      show shiftBits n (0 ^^^ _) = _
      rw [UInt16.zero_xor, ih (by omega)]

theorem shiftBits_eight_byte (b : UInt8) : shiftBits 8 (b.toUInt16 <<< 8) = b.toUInt16 := by
  have lt := b.toNat_lt
  have word : b.toUInt16 <<< 8 = .ofNat (2 ^ 8 * b.toNat) := by
    apply UInt16.toNat_inj.mp
    have value : (UInt16.ofNat (2 ^ 8 * b.toNat)).toNat = 2 ^ 8 * b.toNat :=
      UInt16.toNat_ofNat_of_lt' (show 2 ^ 8 * b.toNat < 2 ^ 16 by omega)
    rw [UInt16.toNat_shiftLeft, value, UInt8.toNat_toUInt16, Nat.shiftLeft_eq, Nat.mul_comm]
    show 2 ^ 8 * b.toNat % 2 ^ 16 = _
    exact Nat.mod_eq_of_lt (by omega)
  rw [word, shiftBits_two_pow_mul 8 (by omega), UInt16.ofNat_uInt8ToNat]

theorem ofBytes_eq_xor (low high : UInt8) :
    ofBytes low high = low.toUInt16 ^^^ (high.toUInt16 <<< 8) := by
  apply UInt16.toBitVec_inj.mp
  ext i hi
  simp only [ofBytes, UInt16.toBitVec_or, UInt16.toBitVec_xor, BitVec.getElem_or,
    BitVec.getElem_xor]
  by_cases below : i < 8
  · have unset : (high.toUInt16 <<< 8).toBitVec[i] = false := by
      simp [below]
    rw [unset, Bool.or_false, Bool.xor_false]
  · have unset : low.toUInt16.toBitVec[i] = false := by
      rw [UInt8.toBitVec_toUInt16, BitVec.getElem_setWidth]
      exact BitVec.getLsbD_of_ge _ _ (Nat.le_of_not_lt below)
    rw [unset, Bool.false_or, Bool.false_xor]

/-- Two bytes are taken in as the word that they spell. -/
theorem absorb_absorb (r : UInt16) (low high : UInt8) :
    absorb (absorb r low) high = shiftBits 16 (r ^^^ ofBytes low high) := by
  rw [absorb, ← shiftBits_eight_byte high, absorb, ← shiftBits_xor, ← shiftBits_add,
    ofBytes_eq_xor, UInt16.xor_assoc]

/-- **The check sequence stands behind a string** when both together leave one and the same
    value. -/
theorem checksum_eq_ofBytes_iff (content : List UInt8) (low high : UInt8) :
    checksum content = ofBytes low high ↔
      (content ++ [low, high]).foldl absorb 0xFFFF = shiftBits 16 0xFFFF := by
  have whole : (content ++ [low, high]).foldl absorb 0xFFFF =
      shiftBits 16 (content.foldl absorb 0xFFFF ^^^ ofBytes low high) := by
    rw [List.foldl_append, List.foldl_cons, List.foldl_cons, List.foldl_nil, absorb_absorb]
  rw [whole, shiftBits_inj, checksum]
  generalize content.foldl absorb 0xFFFF = r
  constructor
  · intro same
    rw [← same, UInt16.xor_not, UInt16.xor_self]
    rfl
  · intro ones
    have back : r ^^^ (r ^^^ ofBytes low high) = ofBytes low high := by
      rw [← UInt16.xor_assoc, UInt16.xor_self, UInt16.zero_xor]
    rw [ones] at back
    rw [← back]
    exact (UInt16.xor_neg_one (a := r)).symm

/-- **Two neighbouring bytes are noticed**, unless both are zero. -/
theorem residue_burst_ne_zero {low high : UInt8} (changed : low ≠ 0 ∨ high ≠ 0) :
    residue [low, high] ≠ 0 := by
  intro zero
  rw [residue, List.foldl_cons, List.foldl_cons, List.foldl_nil, absorb_absorb,
    UInt16.zero_xor] at zero
  have bytes := congrArg toBytes (shiftBits_eq_zero zero)
  rw [toBytes_ofBytes] at bytes
  cases bytes
  exact changed.elim (fun ne => ne rfl) fun ne => ne rfl

/-! ## 4. Bit by bit -/

/-- The bits of a string in the order in which they are taken in: of each byte the lowest first. -/
def airBits (bytes : List UInt8) : List Bool := bytes.flatMap fun b => (bitsOfByte b).reverse

theorem foldl_feedBit (bits : List Bool) (r : UInt16) :
    bits.foldl feedBit r = shiftBits bits.length r ^^^ bits.foldl feedBit 0 := by
  induction bits generalizing r with
  | nil => exact UInt16.xor_zero.symm
  | cons bit bits ih =>
      have first : feedBit r bit = shiftBit r ^^^ feedBit 0 bit := by
        cases bit with
        | false => exact UInt16.xor_zero.symm
        | true => exact (shiftBit_xor r 1).trans (by rw [feedBit, if_pos rfl, UInt16.zero_xor])
      rw [List.foldl_cons, ih, first, shiftBits_xor, UInt16.xor_assoc, ← ih (feedBit 0 bit)]
      rfl

/-- The lowest bits of a number, the lowest first. -/
def lowBits : Nat → Nat → List Bool
  | 0, _ => []
  | n + 1, m => m.testBit 0 :: lowBits n (m / 2)

theorem length_lowBits (n m : Nat) : (lowBits n m).length = n := by
  induction n generalizing m with
  | zero => rfl
  | succ n ih => rw [lowBits, List.length_cons, ih]

/-- A number is shifted out as its bits are taken in. -/
theorem shiftBits_ofNat {n m : Nat} (few : n ≤ 16) (lt : m < 2 ^ n) :
    shiftBits n (.ofNat m) = (lowBits n m).foldl feedBit 0 := by
  induction n generalizing m with
  | zero =>
      obtain rfl : m = 0 := by omega
      rfl
  | succ n ih =>
      have wide : m < 2 ^ 16 := Nat.lt_of_lt_of_le lt (Nat.pow_le_pow_right (by decide) few)
      have half : m / 2 < 2 ^ n := by omega
      rw [shiftBits, shiftBit_ofNat wide, shiftBits_xor, ih (by omega) half, lowBits,
        List.foldl_cons, foldl_feedBit _ (feedBit 0 _), length_lowBits]

theorem feedBit_zero_byte (b : UInt8) :
    shiftBits 8 b.toUInt16 = (bitsOfByte b).reverse.foldl feedBit 0 := by
  have bits : (bitsOfByte b).reverse = lowBits 8 b.toNat := by
    simp only [bitsOfByte, lowBits, Nat.testBit_succ]
    rfl
  rw [← UInt16.ofNat_uInt8ToNat, shiftBits_ofNat (by decide) b.toNat_lt, bits]

theorem absorb_eq_foldl (r : UInt16) (b : UInt8) :
    absorb r b = (bitsOfByte b).reverse.foldl feedBit r := by
  rw [foldl_feedBit, ← feedBit_zero_byte, List.length_reverse, length_bitsOfByte, ← shiftBits_xor,
    absorb]

theorem residue_eq_foldl (bytes : List UInt8) :
    residue bytes = (airBits bytes).foldl feedBit 0 := by
  unfold residue airBits
  generalize (0 : UInt16) = r
  induction bytes generalizing r with
  | nil => rfl
  | cons b bytes ih =>
      rw [List.foldl_cons, ih, List.flatMap_cons, List.foldl_append, absorb_eq_foldl]

/-! ## 5. Few bits -/

/-- How long ago each set bit was taken in, at the end of a string of bits, itself counted. -/
def ages : List Bool → List Nat
  | [] => []
  | bit :: bits => if bit then (bits.length + 1) :: ages bits else ages bits

theorem length_ages (bits : List Bool) : (ages bits).length = bits.count true := by
  induction bits with
  | nil => rfl
  | cons bit bits ih => cases bit <;> simp [ages, ih]

theorem of_mem_ages {bits : List Bool} {k : Nat} (mem : k ∈ ages bits) :
    1 ≤ k ∧ k ≤ bits.length := by
  induction bits with
  | nil => cases mem
  | cons bit bits ih =>
      cases bit with
      | false =>
          obtain ⟨pos, le⟩ := ih mem
          exact ⟨pos, Nat.le_succ_of_le le⟩
      | true =>
          rcases List.mem_cons.mp mem with rfl | later
          · exact ⟨Nat.le_add_left .., Nat.le_refl _⟩
          · obtain ⟨pos, le⟩ := ih later
            exact ⟨pos, Nat.le_succ_of_le le⟩

theorem pairwise_ages (bits : List Bool) : (ages bits).Pairwise (· > ·) := by
  induction bits with
  | nil => exact .nil
  | cons bit bits ih =>
      cases bit with
      | false => exact ih
      | true => exact .cons (fun k hk => Nat.lt_succ_of_le (of_mem_ages hk).2) ih

/-- The sum of what single bits leave, each by its age. -/
def traces (ages : List Nat) : UInt16 := ages.foldr (fun k r => shiftBits k 1 ^^^ r) 0

/-- **What a string leaves is the sum of what its bits leave.** -/
theorem foldl_feedBit_eq_traces (bits : List Bool) : bits.foldl feedBit 0 = traces (ages bits) := by
  induction bits with
  | nil => rfl
  | cons bit bits ih =>
      rw [List.foldl_cons, foldl_feedBit, ih]
      cases bit with
      | false =>
          show shiftBits bits.length 0 ^^^ _ = _
          rw [shiftBits_zero_register, UInt16.zero_xor]
          rfl
      | true => rfl

/-- Whether an odd number of the lowest `n` bits are set. -/
def oddBelow : Nat → Nat → Bool
  | 0, _ => false
  | n + 1, r => r.testBit 0 ^^ oddBelow n (r / 2)

theorem oddBelow_xor (n a b : Nat) : oddBelow n (a ^^^ b) = (oddBelow n a ^^ oddBelow n b) := by
  induction n generalizing a b with
  | zero => rfl
  | succ n ih =>
      have half : (a ^^^ b) / 2 = a / 2 ^^^ b / 2 := by
        rw [← Nat.shiftRight_one, ← Nat.shiftRight_one, ← Nat.shiftRight_one,
          Nat.shiftRight_xor_distrib]
      rw [oddBelow, oddBelow, oddBelow, half, ih, Nat.testBit_xor, Bool.xor_assoc, Bool.xor_assoc,
        Bool.xor_left_comm (oddBelow n (a / 2))]

theorem oddBelow_succ {n r : Nat} (lt : r < 2 ^ n) : oddBelow (n + 1) r = oddBelow n r := by
  induction n generalizing r with
  | zero =>
      have zero : r = 0 := by omega
      rw [zero]
      rfl
  | succ n ih =>
      have half : r / 2 < 2 ^ n := by
        rw [Nat.pow_succ] at lt
        omega
      rw [oddBelow, ih half, ← oddBelow]

/-- Whether an odd number of bits of the register are set. -/
def parity (r : UInt16) : Bool := oddBelow 16 r.toNat

theorem parity_xor (r s : UInt16) : parity (r ^^^ s) = (parity r ^^ parity s) := by
  rw [parity, UInt16.toNat_xor, oddBelow_xor, parity, parity]

theorem parity_shiftRight (r : UInt16) : parity (r >>> 1) = (parity r ^^ r.toNat.testBit 0) := by
  have lt := r.toNat_lt
  have small : r.toNat / 2 < 2 ^ 15 := by omega
  have first : oddBelow 16 r.toNat = (r.toNat.testBit 0 ^^ oddBelow 15 (r.toNat / 2)) := rfl
  rw [parity, toNat_shiftRight_one, oddBelow_succ small, parity, first, Bool.xor_right_comm,
    Bool.xor_self, Bool.false_xor]

/-- The divisor has an even number of terms, so the division keeps the parity. -/
theorem parity_shiftBit (r : UInt16) : parity (shiftBit r) = parity r := by
  have lowest : r.toNat.testBit 0 = decide ((r &&& 1).toNat = 1) := by
    rw [Nat.testBit_zero, toNat_and_one]
  rcases and_one_eq r with even | odd
  · rw [even] at lowest
    rw [shiftBit_of_even even, parity_shiftRight, lowest]
    exact Bool.xor_false _
  · rw [odd] at lowest
    rw [shiftBit_of_odd odd, parity_xor, parity_shiftRight, lowest, Bool.xor_assoc]
    exact Bool.xor_false _

theorem parity_shiftBits (n : Nat) (r : UInt16) : parity (shiftBits n r) = parity r := by
  induction n generalizing r with
  | zero => rfl
  | succ n ih => rw [shiftBits, ih, parity_shiftBit]

/-- **An odd number of bits leaves an odd register.** -/
theorem parity_traces (ages : List Nat) : parity (traces ages) = decide (ages.length % 2 = 1) := by
  induction ages with
  | nil => rfl
  | cons k ages ih =>
      have one : parity 1 = true := rfl
      rw [traces, List.foldr_cons, ← traces, parity_xor, parity_shiftBits, one, ih, Bool.true_xor,
        List.length_cons, ← decide_not]
      exact decide_eq_decide.mpr (by omega)

/-- One bit of the division, on the number that the register is. -/
def shiftNumber (r : Nat) : Nat := if r % 2 = 1 then (r / 2) ^^^ 0x8408 else r / 2

theorem toNat_shiftBit (r : UInt16) : (shiftBit r).toNat = shiftNumber r.toNat := by
  have low := toNat_and_one r
  rcases and_one_eq r with even | odd
  · rw [even] at low
    rw [shiftBit_of_even even, toNat_shiftRight_one, shiftNumber, ← low]
    rfl
  · rw [odd] at low
    rw [shiftBit_of_odd odd, UInt16.toNat_xor, toNat_shiftRight_one, shiftNumber, ← low]
    rfl

/-- Whether a register comes to a single bit within `n` shifts. -/
def returns : Nat → Nat → Bool
  | 0, _ => false
  | n + 1, r => r == 1 || returns n (shiftNumber r)

theorem ne_one_of_returns {n i : Nat} {r : UInt16} (never : returns n r.toNat = false)
    (lt : i < n) :
    shiftBits i r ≠ 1 := by
  induction n generalizing i r with
  | zero => cases lt
  | succ n ih =>
      rw [returns, Bool.or_eq_false_iff, beq_eq_false_iff_ne, ← toNat_shiftBit] at never
      cases i with
      | zero => exact fun single => never.1 (congrArg UInt16.toNat single)
      | succ i =>
          show shiftBits i (shiftBit r) ≠ 1
          exact ih never.2 (Nat.lt_of_succ_lt_succ lt)

/-- **The order of a shift.** A single bit does not come back within 2207 shifts. -/
theorem shiftBits_one_ne {n : Nat} (pos : 1 ≤ n) (le : n ≤ 2207) : shiftBits n 1 ≠ 1 := by
  have never : returns 2207 (shiftBit 1).toNat = false := by
    rw [toNat_shiftBit]
    decide +kernel
  obtain ⟨i, rfl⟩ := Nat.exists_eq_add_of_le' pos
  show shiftBits i (shiftBit 1) ≠ 1
  exact ne_one_of_returns never le

/-- **One, two or three bits are noticed**, among the first 2208. -/
theorem foldl_feedBit_ne_zero {bits : List Bool} (damaged : 1 ≤ bits.count true)
    (few : bits.count true ≤ 3) (short : bits.length ≤ 2208) : bits.foldl feedBit 0 ≠ 0 := by
  rw [foldl_feedBit_eq_traces]
  intro zero
  have len := length_ages bits
  by_cases odd : (ages bits).length % 2 = 1
  · have parities := parity_traces (ages bits)
    rw [zero, decide_eq_true odd] at parities
    cases parities
  · -- two bits leave the same only when the later one stands where a single bit comes back
    have two : (ages bits).length = 2 := by omega
    obtain ⟨k, j, pair⟩ := List.length_eq_two.mp two
    have order := pairwise_ages bits
    have bound : ∀ i ∈ [k, j], 1 ≤ i ∧ i ≤ bits.length := fun i mem => of_mem_ages (pair ▸ mem)
    obtain ⟨-, oldest⟩ := bound k (by simp)
    obtain ⟨youngest, -⟩ := bound j (by simp)
    rw [pair] at zero order
    have lt : j < k := List.rel_of_pairwise_cons order List.mem_cons_self
    have gap : k - j + j = k := Nat.sub_add_cancel (Nat.le_of_lt lt)
    have same : shiftBits k 1 = shiftBits j 1 := by
      rw [traces, List.foldr_cons, List.foldr_cons, List.foldr_nil, UInt16.xor_zero,
        UInt16.xor_eq_zero_iff] at zero
      exact zero
    rw [← gap, shiftBits_add, shiftBits_inj] at same
    exact shiftBits_one_ne (by omega) (by omega) same

end SatLink.Frame.Fcs
