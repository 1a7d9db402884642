import Mathlib.Algebra.Polynomial.Derivative
import Mathlib.LinearAlgebra.Lagrange
import SatLink.Proofs.ReedSolomon.Codeword
import SatLink.Proofs.ReedSolomon.Recurrence

/-!
# Damage and the recurrence of its syndromes

Damage is a set of places with a magnitude at each. Its syndromes are power sums, and a recurrence
whose roots are the places ties the two together:

* `coeff_numerator` — a polynomial with a root at every damaged place, multiplied with the
  syndromes, leaves the numerator that the magnitudes prescribe;
* `degree_le_card`, `eval_rootAt_eq_zero` — a balanced recurrence for at most sixteen damaged places
  is no longer than their number and has a root at each of them;
* `eval_derivative_ne_zero`, `coeff_eq_sum_prescribed` — conversely, a recurrence with as many roots
  as its length has simple roots only, and the magnitudes read off its numerator and its derivative
  give all 32 syndromes, whatever word these come from.
-/

namespace SatLink.ReedSolomon

open Polynomial Galois
open Galois.Element (ofByte alpha)

/-! ## 1. Roots of a locator -/

/-- Where a locator vanishes if the byte at the index `i` is damaged: the inverse of its place. -/
def rootAt (i : Nat) : Element := alpha ^ (i + 1)

theorem rootAt_ne_zero (i : Nat) : rootAt i ≠ 0 := Element.alpha_pow_ne_zero _

theorem place_mul_rootAt {i : Nat} (lt : i < 255) : place i * rootAt i = 1 := by
  have sum : 254 - i + (i + 1) = 255 := by omega
  rw [place, rootAt, ← pow_add, sum, Element.alpha_pow_period]

theorem rootAt_inj {i j : Nat} (hi : i < 255) (hj : j < 255) (h : rootAt i = rootAt j) : i = j := by
  apply place_inj hi hj
  apply mul_right_cancel₀ (rootAt_ne_zero i)
  rw [place_mul_rootAt hi, h, place_mul_rootAt hj]

/-! ## 2. The syndromes of one damaged byte -/

/-- The 32 syndromes of a word with a one at the index `i` and nothing else. -/
noncomputable def spread (i : Nat) : Element[X] :=
  ∑ k ∈ Finset.range 32, C (place i ^ (k + 1)) * X ^ k

theorem coeff_spread (i : Nat) {k : Nat} (lt : k < 32) :
    (spread i).coeff k = place i ^ (k + 1) := by
  simp only [spread, finsetSum_coeff, coeff_C_mul_X_pow]
  rw [Finset.sum_ite_eq, if_pos (Finset.mem_range.mpr lt)]

/-- Multiplied with the factor of its place, they leave nothing below the 32nd coefficient but a
    one. -/
theorem factor_mul_spread {i : Nat} (lt : i < 255) :
    (X - C (rootAt i)) * spread i = C (place i) ^ 32 * X ^ 32 - 1 := by
  have one : C (rootAt i) * C (place i) = (1 : Element[X]) := by
    rw [← C_mul, mul_comm, place_mul_rootAt lt, C_1]
  have factor : X - C (rootAt i) = C (rootAt i) * (C (place i) * X - 1) := by
    rw [mul_sub, ← mul_assoc, one, one_mul, mul_one]
  have sum : spread i = C (place i) * ∑ k ∈ Finset.range 32, (C (place i) * X) ^ k := by
    rw [spread, Finset.mul_sum]
    refine Finset.sum_congr rfl fun k _ => ?_
    rw [mul_pow, pow_succ, C_mul, C_pow]
    ring
  calc (X - C (rootAt i)) * spread i
      = C (rootAt i) * C (place i) *
          ((∑ k ∈ Finset.range 32, (C (place i) * X) ^ k) * (C (place i) * X - 1)) := by
        rw [factor, sum]
        ring
    _ = C (place i) ^ 32 * X ^ 32 - 1 := by rw [one, one_mul, geom_sum_mul, mul_pow]

/-! ## 3. A locator and the syndromes of damage -/

section

variable {P : Finset Nat} {y : Nat → Element} {c s : Element[X]} {q : Nat → Element[X]}

/-- **A locator times the syndromes of the damage is its numerator.** -/
theorem coeff_numerator (within : ∀ i ∈ P, i < 255)
    (factors : ∀ i ∈ P, c = (X - C (rootAt i)) * q i)
    (sums : ∀ k < 32, s.coeff k = ∑ i ∈ P, y i * place i ^ (k + 1)) {k : Nat} (lt : k < 32) :
    (c * s + ∑ i ∈ P, C (y i) * q i).coeff k = 0 := by
  have rest : ∀ j < 32, (s - ∑ i ∈ P, C (y i) * spread i).coeff j = 0 := by
    intro j lt
    rw [coeff_sub, sums j lt, finsetSum_coeff, sub_eq_zero]
    refine Finset.sum_congr rfl fun i _ => ?_
    rw [coeff_C_mul, coeff_spread i lt]
  have product : c * ∑ i ∈ P, C (y i) * spread i =
      (∑ i ∈ P, C (y i) * q i * C (place i) ^ 32) * X ^ 32 - ∑ i ∈ P, C (y i) * q i := by
    rw [Finset.mul_sum, Finset.sum_mul, ← Finset.sum_sub_distrib]
    refine Finset.sum_congr rfl fun i hi => ?_
    have factor := factor_mul_spread (within i hi)
    calc c * (C (y i) * spread i) = C (y i) * q i * ((X - C (rootAt i)) * spread i) := by
          rw [factors i hi]
          ring
      _ = C (y i) * q i * C (place i) ^ 32 * X ^ 32 - C (y i) * q i := by
          rw [factor]
          ring
  have split : c * s + ∑ i ∈ P, C (y i) * q i = c * (s - ∑ i ∈ P, C (y i) * spread i) +
      (∑ i ∈ P, C (y i) * q i * C (place i) ^ 32) * X ^ 32 := by
    rw [mul_sub, product]
    ring
  rw [split, coeff_add, coeff_mul_eq_zero_of_low rest c lt, coeff_mul_X_pow', if_neg (by omega),
    zero_add]

/-- A polynomial whose product with another, which starts with one, has no low coefficients has none
    itself. -/
theorem coeff_eq_zero_of_mul {f : Element[X]} {n : Nat} (constant : c.coeff 0 = 1)
    (low : ∀ k < n, (c * f).coeff k = 0) : ∀ k < n, f.coeff k = 0 := by
  intro k
  induction k using Nat.strong_induction_on with
  | _ k ih =>
      intro lt
      have product := low k lt
      rwa [coeff_mul_of_low (fun j hj => ih j hj (hj.trans lt)), constant, one_mul] at product

/-! ## 4. From the damage to the recurrence -/

/-- The locator of the damaged places, with a root at each. -/
noncomputable def damageLocator (P : Finset Nat) : Element[X] := ∏ i ∈ P, (X - C (rootAt i))

/-- Its numerator. -/
noncomputable def damageNumerator (P : Finset Nat) (y : Nat → Element) : Element[X] :=
  ∑ i ∈ P, C (y i) * damageLocator (P.erase i)

theorem natDegree_damageLocator (P : Finset Nat) : (damageLocator P).natDegree = P.card := by
  rw [damageLocator, natDegree_prod_of_monic _ _ fun i _ => monic_X_sub_C _]
  simp

theorem damageLocator_mem (P : Finset Nat) : damageLocator P ∈ degreeLT Element (P.card + 1) := by
  apply mem_degreeLT_of_coeff
  intro k le
  apply coeff_eq_zero_of_natDegree_lt
  rw [natDegree_damageLocator]
  omega

theorem damageNumerator_mem (P : Finset Nat) (y : Nat → Element) :
    damageNumerator P y ∈ degreeLT Element P.card := by
  refine Submodule.sum_mem _ fun _ hi => C_mul_mem_degreeLT ?_ _
  exact mem_degreeLT_mono (damageLocator_mem _) (Finset.card_erase_add_one hi).le

theorem damageLocator_constant (P : Finset Nat) : (damageLocator P).coeff 0 ≠ 0 := by
  rw [coeff_zero_eq_eval_zero, damageLocator, eval_prod]
  refine Finset.prod_ne_zero_iff.mpr fun i _ => ?_
  simpa using rootAt_ne_zero i

theorem eval_damageLocator {i : Nat} (hi : i ∈ P) : (damageLocator P).eval (rootAt i) = 0 := by
  rw [damageLocator, eval_prod]
  exact Finset.prod_eq_zero hi (by simp)

/-- At a damaged place the numerator is the magnitude times the distances to the other roots. -/
theorem eval_damageNumerator_ne_zero (within : ∀ i ∈ P, i < 255) {i : Nat} (hi : i ∈ P)
    (ne : y i ≠ 0) : (damageNumerator P y).eval (rootAt i) ≠ 0 := by
  have others : ∀ j ∈ P, j ≠ i → (C (y j) * damageLocator (P.erase j)).eval (rootAt i) = 0 := by
    intro j _ ne
    rw [eval_mul, eval_damageLocator (Finset.mem_erase.mpr ⟨ne.symm, hi⟩), mul_zero]
  rw [damageNumerator, eval_finsetSum, Finset.sum_eq_single_of_mem i hi others, eval_mul, eval_C,
    damageLocator, eval_prod]
  refine mul_ne_zero ne (Finset.prod_ne_zero_iff.mpr fun j hj => ?_)
  obtain ⟨apart, hj⟩ := Finset.mem_erase.mp hj
  rw [eval_sub, eval_X, eval_C, sub_ne_zero]
  exact fun e => apart (rootAt_inj (within j hj) (within i hi) e.symm)

theorem coeff_damage (within : ∀ i ∈ P, i < 255)
    (sums : ∀ k < 32, s.coeff k = ∑ i ∈ P, y i * place i ^ (k + 1)) {k : Nat} (lt : k < 32) :
    (damageLocator P * s + damageNumerator P y).coeff k = 0 :=
  coeff_numerator within (fun _ hi => (Finset.mul_prod_erase P _ hi).symm) sums lt

variable {d : Nat} {ω p γ : Element[X]} {gap : Element}

/-- **A balanced recurrence is no longer than the number of damaged places.** -/
theorem degree_le_card (h : Balanced s 32 d c ω p γ gap) (within : ∀ i ∈ P, i < 255)
    (sums : ∀ k < 32, s.coeff k = ∑ i ∈ P, y i * place i ^ (k + 1)) : d ≤ P.card := by
  refine h.degree_le (damageLocator_constant P) ⟨damageLocator_mem P, fun k le lt => ?_⟩
  have sum := coeff_damage within sums lt
  rwa [coeff_add, coeff_eq_zero_of_mem_degreeLT (damageNumerator_mem P y) le, add_zero] at sum

/-- **It has a root at every damaged place**: multiplied crosswise, the two recurrences agree, as
    their degrees do not add up to the number of syndromes. -/
theorem eval_rootAt_eq_zero (h : Balanced s 32 d c ω p γ gap) (within : ∀ i ∈ P, i < 255)
    (few : P.card ≤ 16) (sums : ∀ k < 32, s.coeff k = ∑ i ∈ P, y i * place i ^ (k + 1))
    {i : Nat} (hi : i ∈ P) (ne : y i ≠ 0) : c.eval (rootAt i) = 0 := by
  have short := degree_le_card h within sums
  have crossed : c * damageNumerator P y + damageLocator P * ω =
      c * (damageLocator P * s + damageNumerator P y) - damageLocator P * (c * s - ω) := by ring
  have low : ∀ k < 32, (c * damageNumerator P y + damageLocator P * ω).coeff k = 0 := by
    intro k lt
    rw [crossed, coeff_sub,
      coeff_mul_eq_zero_of_low (fun j hj => coeff_damage within sums hj) c lt,
      coeff_mul_eq_zero_of_low h.agrees _ lt, sub_zero]
  have small : c * damageNumerator P y + damageLocator P * ω ∈ degreeLT Element 32 := by
    refine Submodule.add_mem _ ?_ ?_
    · exact mem_degreeLT_mono (mul_mem_degreeLT h.mem (damageNumerator_mem P y)) (by omega)
    · exact mem_degreeLT_mono (mul_mem_degreeLT (damageLocator_mem P) h.numerator_mem) (by omega)
  have zero : c * damageNumerator P y + damageLocator P * ω = 0 := by
    ext k
    rw [coeff_zero]
    rcases Nat.lt_or_ge k 32 with lt | ge
    · exact low k lt
    · exact coeff_eq_zero_of_mem_degreeLT small ge
  have value := congrArg (eval (rootAt i)) zero
  rw [eval_add, eval_mul, eval_mul, eval_damageLocator hi, zero_mul, add_zero, eval_zero] at value
  exact (mul_eq_zero.mp value).resolve_right (eval_damageNumerator_ne_zero within hi ne)

/-! ## 5. From the recurrence to the damage -/

/-- What is left of a recurrence without the factor of a root. -/
noncomputable def quotientAt (c : Element[X]) (i : Nat) : Element[X] := c /ₘ (X - C (rootAt i))

theorem factor_mul_quotientAt {i : Nat} (root : c.eval (rootAt i) = 0) :
    c = (X - C (rootAt i)) * quotientAt c i :=
  (mul_divByMonic_eq_iff_isRoot.mpr root).symm

/-- At its own root the quotient is the derivative. -/
theorem eval_quotientAt_self {i : Nat} (root : c.eval (rootAt i) = 0) :
    (quotientAt c i).eval (rootAt i) = (derivative c).eval (rootAt i) := by
  have product := congrArg (fun f => (derivative f).eval (rootAt i)) (factor_mul_quotientAt root)
  simpa using product.symm

/-- At another root it vanishes. -/
theorem eval_quotientAt_other {i j : Nat} (hi : i < 255) (hj : j < 255) (ne : j ≠ i)
    (root : c.eval (rootAt i) = 0) (other : c.eval (rootAt j) = 0) :
    (quotientAt c i).eval (rootAt j) = 0 := by
  rw [factor_mul_quotientAt root, eval_mul, eval_sub, eval_X, eval_C] at other
  refine (mul_eq_zero.mp other).resolve_left fun e => ?_
  exact ne (rootAt_inj hj hi (sub_eq_zero.mp e))

theorem quotientAt_mem {i n : Nat} (mem : c ∈ degreeLT Element (n + 1)) (pos : 0 < n) :
    quotientAt c i ∈ degreeLT Element n := by
  have degree : c.natDegree < n + 1 := by
    by_cases zero : c = 0
    · rw [zero, natDegree_zero]
      omega
    · exact (natDegree_lt_iff_degree_lt zero).mpr (mem_degreeLT.mp mem)
  apply mem_degreeLT_of_coeff
  intro k le
  apply coeff_eq_zero_of_natDegree_lt
  rw [quotientAt, natDegree_divByMonic _ (monic_X_sub_C _), natDegree_X_sub_C]
  omega

theorem rootAt_injOn (within : ∀ i ∈ P, i < 255) : Set.InjOn rootAt P :=
  fun _ hi _ hj e => rootAt_inj (within _ hi) (within _ hj) e

/-- **With as many roots as its length a recurrence has simple roots only.** -/
theorem eval_derivative_ne_zero (within : ∀ i ∈ P, i < 255) (constant : c.coeff 0 = 1)
    (mem : c ∈ degreeLT Element (P.card + 1)) (roots : ∀ i ∈ P, c.eval (rootAt i) = 0)
    {i : Nat} (hi : i ∈ P) : (derivative c).eval (rootAt i) ≠ 0 := by
  intro zero
  have vanishes : ∀ j ∈ P, (quotientAt c i).eval (rootAt j) = 0 := by
    intro j hj
    by_cases e : j = i
    · rw [e, eval_quotientAt_self (roots i hi), zero]
    · exact eval_quotientAt_other (within i hi) (within j hj) e (roots i hi) (roots j hj)
  have small := mem_degreeLT.mp (quotientAt_mem (i := i) mem (Finset.card_pos.mpr ⟨i, hi⟩))
  have vanishes : quotientAt c i = 0 :=
    eq_zero_of_degree_lt_of_eval_index_eq_zero _ (rootAt_injOn within) small vanishes
  rw [factor_mul_quotientAt (roots i hi), vanishes, mul_zero, coeff_zero] at constant
  exact zero_ne_one constant

/-- The magnitude that a numerator and a recurrence prescribe at an index. -/
noncomputable def prescribed (ω c : Element[X]) (i : Nat) : Element :=
  ω.eval (rootAt i) / (derivative c).eval (rootAt i)

/-- The numerator is a sum of quotients, weighted by the magnitudes it prescribes. -/
theorem sum_prescribed (within : ∀ i ∈ P, i < 255) (constant : c.coeff 0 = 1)
    (mem : c ∈ degreeLT Element (P.card + 1)) (roots : ∀ i ∈ P, c.eval (rootAt i) = 0)
    (numerator : ω ∈ degreeLT Element P.card) :
    ∑ i ∈ P, C (prescribed ω c i) * quotientAt c i = ω := by
  refine eq_of_degrees_lt_of_eval_index_eq _ (rootAt_injOn within) ?_
    (mem_degreeLT.mp numerator) fun j hj => ?_
  · refine mem_degreeLT.mp (Submodule.sum_mem _ fun i hi => C_mul_mem_degreeLT ?_ _)
    exact quotientAt_mem mem (Finset.card_pos.mpr ⟨i, hi⟩)
  · have others : ∀ i ∈ P, i ≠ j →
        (C (prescribed ω c i) * quotientAt c i).eval (rootAt j) = 0 := by
      intro i hi ne
      rw [eval_mul, eval_quotientAt_other (within i hi) (within j hj) ne.symm (roots i hi)
        (roots j hj), mul_zero]
    have slope := eval_derivative_ne_zero within constant mem roots hj
    rw [eval_finsetSum, Finset.sum_eq_single_of_mem j hj others, eval_mul, eval_C,
      eval_quotientAt_self (roots j hj), prescribed, div_mul_cancel₀ _ slope]

/-- **The prescribed magnitudes give all 32 syndromes.** -/
theorem coeff_eq_sum_prescribed (within : ∀ i ∈ P, i < 255) (constant : c.coeff 0 = 1)
    (mem : c ∈ degreeLT Element (P.card + 1)) (roots : ∀ i ∈ P, c.eval (rootAt i) = 0)
    (numerator : ω ∈ degreeLT Element P.card) (agrees : ∀ k < 32, (c * s - ω).coeff k = 0)
    {k : Nat} (lt : k < 32) :
    s.coeff k = ∑ i ∈ P, prescribed ω c i * place i ^ (k + 1) := by
  let e := ∑ i ∈ P, C (prescribed ω c i) * spread i
  have sums : ∀ k < 32, e.coeff k = ∑ i ∈ P, prescribed ω c i * place i ^ (k + 1) := by
    intro k lt
    rw [finsetSum_coeff]
    refine Finset.sum_congr rfl fun i _ => ?_
    rw [coeff_C_mul, coeff_spread i lt]
  have low : ∀ k < 32, (c * (e + s)).coeff k = 0 := by
    intro k lt
    have product := coeff_numerator within (fun i hi => factor_mul_quotientAt (roots i hi)) sums lt
    rw [sum_prescribed within constant mem roots numerator] at product
    have split : c * (e + s) = (c * e + ω) + (c * s - ω) := by ring
    rw [split, coeff_add, product, agrees k lt, add_zero]
  have sum := coeff_eq_zero_of_mul constant low k lt
  rw [coeff_add, sums k lt] at sum
  exact (CharTwo.add_eq_zero.mp sum).symm

end

end SatLink.ReedSolomon
