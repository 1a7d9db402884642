import Mathlib.FieldTheory.Finite.Extension
import Mathlib.RingTheory.AdjoinRoot
import Mathlib.Tactic.ComputeDegree
import SatLink.Aes.Gcm

/-!
# The field of the hash

The product of the hash is that of the polynomials over two elements modulo
`x^128 + x^7 + x^2 + x + 1`, and these residues are a field: no product of numbers that are not zero
is zero.

* `value` — the residue that a number of 128 bits stands for, its first bit the constant term;
* `value_xor`, `value_mul` — adding and multiplying numbers is adding and multiplying residues;
* `irreducible_modulus` — **the modulus has no factors**: squaring `x` 128 times gives `x` again, so
  the degree of a factor divides 128, and squaring it 64 times gives something that differs from `x`
  by a residue with an inverse, so no factor has a degree that divides 64;
* `mul_left_injective` — multiplying by a number that is not zero loses nothing.
-/

namespace SatLink.Aes.Gcm

open Polynomial (X)

/-! ## 1. Residues -/

/-- What products are taken modulo. -/
@[irreducible]
noncomputable def modulus : Polynomial (ZMod 2) := X ^ 128 + (X ^ 7 + X ^ 2 + X + 1)

theorem monic_modulus : modulus.Monic := by
  unfold modulus
  apply Polynomial.monic_X_pow_add
  compute_degree!

theorem natDegree_modulus : modulus.natDegree = 128 := by
  unfold modulus
  compute_degree!

/-- Polynomials modulo the modulus. -/
abbrev Residue : Type := AdjoinRoot modulus

/-- The residue of the variable. -/
noncomputable def x : Residue := AdjoinRoot.root modulus

theorem modulus_eq_zero : x ^ 128 + (x ^ 7 + x ^ 2 + x + 1) = 0 := by
  have parts : modulus = X ^ 128 + (X ^ 7 + X ^ 2 + X + 1) := by unfold modulus; rfl
  have zero := congrArg (AdjoinRoot.mk modulus) parts
  rw [AdjoinRoot.mk_self] at zero
  simp only [map_add, map_pow, map_one, AdjoinRoot.mk_X] at zero
  unfold x
  exact zero.symm

/-- What a power that runs over is reduced to. -/
theorem x_pow_128 : x ^ 128 = x ^ 7 + x ^ 2 + x + 1 := by
  have twice := ZModModule.add_self (x ^ 7 + x ^ 2 + x + 1)
  rw [← add_left_inj (x ^ 7 + x ^ 2 + x + 1), modulus_eq_zero, twice]

/-! ## 2. Numbers -/

/-- The residue that a number stands for. -/
noncomputable def value (v : BitVec 128) : Residue :=
  ∑ j ∈ Finset.range 128, if v.getMsbD j then x ^ j else 0

theorem ite_xor (p q : Bool) (a : Residue) :
    (if p ^^ q then a else 0) = (if p then a else 0) + (if q then a else 0) := by
  cases p <;> cases q <;> simp [ZModModule.add_self]

theorem value_xor (a b : BitVec 128) : value (a ^^^ b) = value a + value b := by
  unfold value
  rw [← Finset.sum_add_distrib]
  refine Finset.sum_congr rfl fun j _ => ?_
  rw [BitVec.getMsbD_xor, ite_xor]

@[simp] theorem value_zero : value 0#128 = 0 := by
  refine Finset.sum_eq_zero fun j _ => ?_
  simp

/-- A number of one bit stands for a power. -/
theorem value_twoPow {j : Nat} (lt : j < 128) : value (BitVec.twoPow 128 (127 - j)) = x ^ j := by
  unfold value
  rw [Finset.sum_eq_single_of_mem j (Finset.mem_range.mpr lt)]
  · rw [BitVec.getMsbD_twoPow]
    simp
    omega
  · intro i mem ne
    rw [BitVec.getMsbD_twoPow, if_neg]
    simp
    omega

theorem value_reduction : value reduction = x ^ 128 := by
  have bits : reduction =
      BitVec.twoPow 128 (127 - 0) ^^^ BitVec.twoPow 128 (127 - 1) ^^^
      BitVec.twoPow 128 (127 - 2) ^^^ BitVec.twoPow 128 (127 - 7) := by decide
  rw [bits, value_xor, value_xor, value_xor, value_twoPow (by decide), value_twoPow (by decide),
    value_twoPow (by decide), value_twoPow (by decide), x_pow_128]
  ring

/-- A shift takes every term but the last one up by one power. -/
theorem value_shift (v : BitVec 128) :
    value (v >>> 1) + (if v.getLsbD 0 then x ^ 128 else 0) = x * value v := by
  have last : v.getLsbD 0 = v.getMsbD 127 := by simp [BitVec.getMsbD]
  have up : ∀ j ∈ Finset.range 127, (if (v >>> 1).getMsbD (j + 1) then x ^ (j + 1) else 0) =
      x * (if v.getMsbD j then x ^ j else 0) := by
    intro j mem
    have lt : j + 1 < 128 := Nat.succ_lt_succ (Finset.mem_range.mp mem)
    rw [BitVec.getMsbD_ushiftRight, mul_ite, mul_zero, pow_succ']
    simp [lt]
  unfold value
  rw [Finset.sum_range_succ' _ 127, Finset.sum_congr rfl up, Finset.mul_sum,
    Finset.sum_range_succ _ 127, last, mul_ite, mul_zero, ← pow_succ']
  simp

theorem value_timesX (v : BitVec 128) : value (timesX v) = x * value v := by
  rw [← value_shift, timesX]
  split
  · rw [value_xor, value_reduction]
  · rw [add_zero]

/-- The terms of a product, one bit after the other. -/
theorem value_mulFrom (a : BitVec 128) (n : Nat) (v : BitVec 128) : value (mulFrom a n v) =
    (∑ j ∈ Finset.range n, if a.getLsbD (n - 1 - j) then x ^ j else 0) * value v := by
  induction n generalizing v with
  | zero => simp [mulFrom]
  | succ n ih =>
      have rest : ∀ j ∈ Finset.range n,
          (if a.getLsbD (n + 1 - 1 - (j + 1)) then x ^ (j + 1) else 0) =
          x * (if a.getLsbD (n - 1 - j) then x ^ j else 0) := by
        intro j _
        rw [mul_ite, mul_zero, ← pow_succ', Nat.add_sub_cancel, Nat.sub_right_comm, Nat.sub_sub]
      rw [mulFrom, value_xor, ih, value_timesX, Finset.sum_range_succ', Finset.sum_congr rfl rest,
        ← Finset.mul_sum, add_mul, Nat.add_sub_cancel, Nat.sub_zero, pow_zero]
      split
      · ring
      · show value 0#128 + _ = _
        rw [value_zero]
        ring

/-- **The product of numbers is the product of residues.** -/
theorem value_mul (a b : BitVec 128) : value (mul a b) = value a * value b := by
  rw [mul, value_mulFrom]
  refine congrArg (· * value b) (Finset.sum_congr rfl fun j mem => ?_)
  have lt : j < 128 := Finset.mem_range.mp mem
  simp [BitVec.getMsbD, lt]

/-- The polynomial that a number spells, its first bit the constant term. -/
noncomputable def spelled (v : BitVec 128) : Polynomial (ZMod 2) :=
  ∑ j ∈ Finset.range 128, Polynomial.C (if v.getMsbD j then 1 else 0) * X ^ j

theorem mk_spelled (v : BitVec 128) : AdjoinRoot.mk modulus (spelled v) = value v := by
  rw [spelled, map_sum, value]
  refine Finset.sum_congr rfl fun j _ => ?_
  rw [map_mul, map_pow, AdjoinRoot.mk_X, AdjoinRoot.mk_C]
  cases v.getMsbD j <;> simp [x]

theorem coeff_spelled (v : BitVec 128) (j : Nat) :
    (spelled v).coeff j = if v.getMsbD j then 1 else 0 := by
  rw [spelled, Polynomial.finsetSum_coeff]
  simp only [Polynomial.coeff_C_mul_X_pow]
  rw [Finset.sum_ite_eq]
  split
  · rfl
  · rename_i beyond
    rw [Finset.mem_range] at beyond
    simp [BitVec.getMsbD, beyond]

theorem degree_spelled_lt (v : BitVec 128) : (spelled v).degree < modulus.degree := by
  rw [Polynomial.degree_eq_natDegree monic_modulus.ne_zero, natDegree_modulus,
    Polynomial.degree_lt_iff_coeff_zero]
  intro j beyond
  rw [coeff_spelled]
  simp [BitVec.getMsbD, Nat.not_lt_of_le beyond]

theorem eq_zero_of_value {v : BitVec 128} (zero : value v = 0) : v = 0 := by
  rw [← mk_spelled, AdjoinRoot.mk_eq_zero] at zero
  have vanishes := Polynomial.eq_zero_of_dvd_of_degree_lt zero (degree_spelled_lt v)
  apply BitVec.eq_of_getMsbD_eq
  intro j lt
  have term := coeff_spelled v j
  rw [vanishes, Polynomial.coeff_zero] at term
  cases bit : v.getMsbD j with
  | false => simp
  | true => simp [bit] at term

/-- **A residue stands for one number only**: a polynomial of a lower degree is no multiple of the
    modulus. -/
theorem value_injective : Function.Injective value := by
  intro a b same
  have sum : value (a ^^^ b) = 0 := by rw [value_xor, same, ZModModule.add_self]
  exact BitVec.xor_eq_zero_iff.mp (eq_zero_of_value sum)

/-! ## 3. No factors -/

/-- A number squared again and again. -/
def squared : Nat → BitVec 128 → BitVec 128
  | 0, v => v
  | n + 1, v => squared n (mul v v)

theorem value_squared (n : Nat) (v : BitVec 128) : value (squared n v) = value v ^ 2 ^ n := by
  induction n generalizing v with
  | zero => rw [squared, pow_zero, pow_one]
  | succ n ih => rw [squared, ih, value_mul, ← sq, ← pow_mul, ← pow_succ']

/-- The number that stands for the variable. -/
def generator : BitVec 128 := BitVec.twoPow 128 126

theorem value_generator : value generator = x := by
  rw [generator, show 126 = 127 - 1 from rfl, value_twoPow (by decide), pow_one]

theorem squared_period : squared 128 generator = generator := by
  decide +kernel

/-- **After 128 squarings the variable comes round.** -/
theorem x_period : x ^ 2 ^ 128 = x := by
  rw [← value_generator, ← value_squared, squared_period]

/-- What 64 squarings make of the variable differs from it by a residue with an inverse. -/
theorem exists_inverse : ∃ w : Residue, (x ^ 2 ^ 64 - x) * w = 1 := by
  have product : mul (squared 64 generator ^^^ generator) 0x180da934bf53158251c13dbb149f5279#128 =
      BitVec.twoPow 128 127 := by decide +kernel
  have one := congrArg value product
  rw [value_mul, value_xor, value_squared, value_generator, show 127 = 127 - 0 from rfl,
    value_twoPow (by decide), pow_zero] at one
  exact ⟨_, by rw [ZModModule.sub_eq_add, one]⟩

/-- A factor divides what is zero among the residues. -/
theorem dvd_of_residue {f p : Polynomial (ZMod 2)} (factor : f ∣ modulus)
    (zero : AdjoinRoot.mk modulus p = 0) : f ∣ p :=
  factor.trans (AdjoinRoot.mk_eq_zero.mp zero)

theorem natDegree_of_factor {f : Polynomial (ZMod 2)} (prime : Irreducible f)
    (factor : f ∣ modulus) :
    f.natDegree = 128 := by
  have round : f ∣ X ^ Nat.card (ZMod 2) ^ 128 - X := by
    refine dvd_of_residue factor ?_
    rw [map_sub, map_pow, AdjoinRoot.mk_X, Nat.card_zmod]
    exact sub_eq_zero.mpr x_period
  have divides : f.natDegree ∣ 2 ^ 7 := prime.natDegree_dvd_of_dvd_X_pow_card_pow_sub_X round
  obtain ⟨k, le, degree⟩ := (Nat.dvd_prime_pow Nat.prime_two).mp divides
  rcases Nat.lt_or_eq_of_le le with lt | rfl
  · -- a degree that divides 64: the factor would divide what has an inverse
    exfalso
    have half : f.natDegree ∣ 64 := by
      rw [degree]
      exact pow_dvd_pow 2 (show k ≤ 6 by omega)
    have early := prime.natDegree_dvd_iff_dvd_X_pow_card_pow_sub_X.mp half
    obtain ⟨w, inverse⟩ := exists_inverse
    obtain ⟨p, rfl⟩ := AdjoinRoot.mk_surjective w
    have one : f ∣ (X ^ Nat.card (ZMod 2) ^ 64 - X) * p - 1 := by
      refine dvd_of_residue factor ?_
      rw [map_sub, map_mul, map_sub, map_pow, AdjoinRoot.mk_X, Nat.card_zmod, map_one]
      exact sub_eq_zero.mpr inverse
    have unit := (dvd_sub_right (early.mul_right p)).mp one
    exact prime.not_dvd_one unit
  · exact degree

/-- **The modulus has no factors.** -/
theorem irreducible_modulus : Irreducible modulus := by
  have whole : ¬ IsUnit modulus := by
    intro unit
    have degree := Polynomial.natDegree_eq_zero_of_isUnit unit
    rw [natDegree_modulus] at degree
    cases degree
  obtain ⟨f, prime, factor⟩ := WfDvdMonoid.exists_irreducible_factor whole monic_modulus.ne_zero
  have degree : modulus.natDegree ≤ f.natDegree := by
    rw [natDegree_modulus, natDegree_of_factor prime factor]
  exact (Polynomial.associated_of_dvd_of_natDegree_le factor monic_modulus.ne_zero
    degree).irreducible
    prime

instance : Fact (Irreducible modulus) := ⟨irreducible_modulus⟩

/-- **A product is zero only where a factor is.** -/
theorem mul_eq_zero_iff {a b : BitVec 128} : mul a b = 0 ↔ a = 0 ∨ b = 0 := by
  have zero {v : BitVec 128} : value v = 0 ↔ v = 0 := by
    exact ⟨eq_zero_of_value, by rintro rfl; exact value_zero⟩
  rw [← zero, value_mul, mul_eq_zero, zero, zero]

theorem xor_mul (a b h : BitVec 128) : mul (a ^^^ b) h = mul a h ^^^ mul b h := by
  apply value_injective
  simp only [value_mul, value_xor, add_mul]

/-- **Multiplying by what is not zero loses nothing.** -/
theorem mul_left_injective {h : BitVec 128} (ne : h ≠ 0) : Function.Injective (mul · h) := by
  intro a b same
  have zero : mul (a ^^^ b) h = 0 := by
    rw [xor_mul]
    exact BitVec.xor_eq_zero_iff.mpr same
  exact BitVec.xor_eq_zero_iff.mp ((mul_eq_zero_iff.mp zero).resolve_right ne)

end SatLink.Aes.Gcm
