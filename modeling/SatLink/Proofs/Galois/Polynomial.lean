import Mathlib.Data.List.GetD
import Mathlib.RingTheory.Polynomial.DegreeLT
import SatLink.Proofs.Galois.Field

/-!
# Lists of coefficients as polynomials

The code keeps its polynomials as lists of bytes. `ascending` reads a list from the constant up as a
polynomial over the field of the bytes; every list operation of the code is then an operation on
polynomials:

* evaluation by Horner's rule is evaluation (`ofByte_evalAscending`, `ofByte_eval`);
* a list behind `k` zeros is multiplied by `X ^ k`, a shortened list loses nothing but its high
  coefficients (`ascending_replicate_append`, `ascending_take`);
* the sum of products of a list with a reversed list is a coefficient of a product
  (`ofByte_convolve`).
-/

namespace SatLink.Galois

open Polynomial
open Element (ofByte)

/-- The polynomial of a list of coefficients, from the constant up. -/
noncomputable def ascending : List UInt8 → Element[X]
  | [] => 0
  | c :: cs => C (ofByte c) + X * ascending cs

/-! ## 1. Coefficients -/

@[simp] theorem ascending_nil : ascending [] = 0 := rfl

theorem ascending_cons (c : UInt8) (cs : List UInt8) :
    ascending (c :: cs) = C (ofByte c) + X * ascending cs := rfl

/-- **The coefficients of the polynomial are the entries of the list.** -/
@[simp] theorem coeff_ascending : ∀ (cs : List UInt8) (i : Nat),
    (ascending cs).coeff i = ofByte (cs.getD i 0)
  | [], i => by simp
  | c :: cs, 0 => by simp [ascending_cons]
  | c :: cs, i + 1 => by
      rw [ascending_cons, coeff_add, coeff_C_succ, coeff_X_mul, coeff_ascending cs i, zero_add,
        List.getD_cons_succ]

theorem ascending_mem_degreeLT (cs : List UInt8) : ascending cs ∈ degreeLT Element cs.length := by
  rw [mem_degreeLT, degree_lt_iff_coeff_zero]
  intro i hi
  rw [coeff_ascending, List.getD_eq_default _ _ hi, Element.ofByte_zero]

theorem coeff_eq_zero_of_mem_degreeLT {p : Element[X]} {n k : Nat} (h : p ∈ degreeLT Element n)
    (le : n ≤ k) : p.coeff k = 0 :=
  (degree_lt_iff_coeff_zero p n).mp (mem_degreeLT.mp h) k le

theorem mem_degreeLT_of_coeff {p : Element[X]} {n : Nat} (h : ∀ k, n ≤ k → p.coeff k = 0) :
    p ∈ degreeLT Element n :=
  mem_degreeLT.mpr ((degree_lt_iff_coeff_zero p n).mpr h)

/-- A product has at most the sum of the degrees. -/
theorem mul_mem_degreeLT {p q : Element[X]} {m n : Nat} (hp : p ∈ degreeLT Element (m + 1))
    (hq : q ∈ degreeLT Element n) : p * q ∈ degreeLT Element (m + n) := by
  apply mem_degreeLT_of_coeff
  intro k le
  rw [coeff_mul]
  apply Finset.sum_eq_zero
  rintro ⟨i, j⟩ hij
  rw [Finset.HasAntidiagonal.mem_antidiagonal] at hij
  rcases Nat.lt_or_ge m i with lt | ge
  · rw [coeff_eq_zero_of_mem_degreeLT hp lt, zero_mul]
  · rw [coeff_eq_zero_of_mem_degreeLT hq (by omega), mul_zero]

/-! ## 2. Operations on lists -/

theorem ascending_replicate_append (k : Nat) (cs : List UInt8) :
    ascending (List.replicate k 0 ++ cs) = X ^ k * ascending cs := by
  induction k with
  | zero => simp
  | succ k ih => simp [List.replicate_succ, ascending_cons, ih, pow_succ', mul_assoc]

theorem ascending_map_mul (a : UInt8) (cs : List UInt8) :
    ascending (cs.map (ccsds.mul a)) = C (ofByte a) * ascending cs := by
  induction cs with
  | nil => simp
  | cons c cs ih =>
      rw [List.map_cons, ascending_cons, ascending_cons, ih, Element.ofByte_mul, C_mul]
      ring

theorem ascending_take {cs : List UInt8} {n : Nat} (h : ascending cs ∈ degreeLT Element n) :
    ascending (cs.take n) = ascending cs := by
  ext i
  by_cases lt : i < n
  · simp [lt]
  · rw [coeff_eq_zero_of_mem_degreeLT h (Nat.le_of_not_lt lt), coeff_ascending,
      List.getD_eq_default _ _ (by simp; omega), Element.ofByte_zero]

/-- Adding entry by entry adds the polynomials, as far as the shorter list goes. -/
theorem ascending_zipWith_xor : ∀ (as bs : List UInt8), as.length ≤ bs.length →
    ascending (List.zipWith (· ^^^ ·) as bs) = ascending as + ascending (bs.take as.length)
  | [], _, _ => by simp
  | a :: as, [], h => by simp at h
  | a :: as, b :: bs, h => by
      rw [List.zipWith_cons_cons, ascending_cons, ascending_zipWith_xor as bs (by simpa using h),
        ascending_cons, List.length_cons, List.take_succ_cons, ascending_cons, Element.ofByte_xor,
        C_add]
      ring

/-! ## 3. Evaluation -/

/-- **Horner's rule, from the constant up.** -/
theorem ofByte_evalAscending (cs : List UInt8) (x : UInt8) :
    ofByte (ccsds.evalAscending cs x) = (ascending cs).eval (ofByte x) := by
  induction cs with
  | nil => simp [Tables.evalAscending]
  | cons c cs ih =>
      have unfolded : ccsds.evalAscending (c :: cs) x =
          ccsds.mul (ccsds.evalAscending cs x) x ^^^ c := rfl
      rw [unfolded, Element.ofByte_xor, Element.ofByte_mul, ih, ascending_cons]
      simp only [eval_add, eval_C, eval_mul, eval_X]
      ring

/-- **Horner's rule, from the highest degree down.** -/
theorem ofByte_eval (cs : List UInt8) (x : UInt8) :
    ofByte (ccsds.eval cs x) =
      ∑ i ∈ Finset.range cs.length, ofByte (cs.getD i 0) * ofByte x ^ (cs.length - 1 - i) := by
  induction cs using List.reverseRecOn with
  | nil => simp [Tables.eval]
  | append_singleton cs c ih =>
      have last : (cs ++ [c]).getD cs.length 0 = c := by simp
      rw [Tables.eval_append, Element.ofByte_xor, Element.ofByte_mul, ih, List.length_append,
        List.length_singleton, Finset.sum_range_succ, last, Finset.sum_mul]
      congr 1
      · refine Finset.sum_congr rfl fun i hi => ?_
        have lt : i < cs.length := Finset.mem_range.mp hi
        have exponent : cs.length + 1 - 1 - i = cs.length - 1 - i + 1 := by omega
        rw [exponent, pow_succ, List.getD_append _ _ _ _ lt]
        ring
      · simp

/-! ## 4. Convolution -/

/-- A sum of products, entry by entry. -/
theorem ofByte_foldl_zipWith : ∀ (bs as : List UInt8) (s : UInt8),
    ofByte ((List.zipWith ccsds.mul as bs).foldl (· ^^^ ·) s) =
      ofByte s + ∑ i ∈ Finset.range bs.length, ofByte (as.getD i 0) * ofByte (bs.getD i 0)
  | [], as, s => by simp
  | b :: bs, [], s => by simp
  | b :: bs, a :: as, s => by
      rw [List.zipWith_cons_cons, List.foldl_cons, ofByte_foldl_zipWith bs as, List.length_cons,
        Finset.sum_range_succ', Element.ofByte_xor, Element.ofByte_mul]
      simp only [List.getD_cons_succ, List.getD_cons_zero]
      ring

/-- **The products of a list with the first `k + 1` entries of another, latest first, sum up to the
    `k`th coefficient of the product.** -/
theorem ofByte_convolve (as bs : List UInt8) (k : Nat) (h : k < bs.length) :
    ofByte ((List.zipWith ccsds.mul as (bs.take (k + 1)).reverse).foldl (· ^^^ ·) 0) =
      (ascending as * ascending bs).coeff k := by
  rw [ofByte_foldl_zipWith, Element.ofByte_zero, zero_add, coeff_mul,
    Finset.Nat.sum_antidiagonal_eq_sum_range_succ_mk]
  have len : (bs.take (k + 1)).reverse.length = k + 1 := by simp; omega
  rw [len]
  refine Finset.sum_congr rfl fun i hi => ?_
  have le : i ≤ k := Nat.lt_succ_iff.mp (Finset.mem_range.mp hi)
  have entry : (bs.take (k + 1)).reverse.getD i 0 = bs.getD (k - i) 0 := by
    have place : (bs.take (k + 1)).length - 1 - i = k - i := by simp; omega
    have lt : k - i < k + 1 := by omega
    rw [List.getD_eq_getElem?_getD, List.getElem?_reverse (by simp; omega), place,
      List.getElem?_take, if_pos lt, List.getD_eq_getElem?_getD]
  rw [entry, coeff_ascending, coeff_ascending]

end SatLink.Galois
