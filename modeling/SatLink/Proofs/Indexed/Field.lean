import SatLink.Proofs.Galois.Polynomial
import SatLink.Proofs.Indexed.Machine
import SatLink.ReedSolomon.Code

/-!
# The field with indices

The powers of α are stored twice over, so that the sum of two logarithms is an index of one. A
polynomial is evaluated by Horner's rule, or from the constant up with the powers of the point
beside it.

* `multiply_eq`, `divide_eq`, `power_eq` — no index into the tables is out of range: a logarithm
  that is looked up is below 255;
* `evaluate_eq`, `evaluateUp_eq` — both evaluations answer what the field does.
-/

namespace SatLink.Indexed

open Galois Polynomial
open Galois.Element (ofByte)
open ReedSolomon (field)

/-! ## 1. The tables -/

/-- The powers of α, twice over. -/
def powers : List UInt8 := field.powers.toList ++ field.powers.toList

/-- The logarithms to base α; that of zero is not used. -/
def logarithms : List UInt8 := field.logs.toList

/-- The product of two bytes. -/
def multiply (size : Nat) (a b : UInt8) : Checked UInt8 := do
  if a = 0 ∨ b = 0 then pure 0
  else
    let sum ← add size (← item logarithms a.toNat).toNat (← item logarithms b.toNat).toNat
    item powers sum

/-- The quotient of two bytes; by zero it is zero. -/
def divide (size : Nat) (a b : UInt8) : Checked UInt8 := do
  if a = 0 ∨ b = 0 then pure 0
  else
    let raised ← add size (← item logarithms a.toNat).toNat 255
    item powers (← sub raised (← item logarithms b.toNat).toNat)

/-- A power of α. -/
def power (n : Nat) : Checked UInt8 := item powers (n % 255)

theorem getElem?_twice (t : Tables) {n : Nat} (lt : n < 510) :
    (t.powers.toList ++ t.powers.toList)[n]? = some (t.pow n) := by
  have len : t.powers.toList.length = 255 := by simp
  rcases Nat.lt_or_ge n 255 with first | second
  · have place : n % 255 = n := Nat.mod_eq_of_lt first
    rw [List.getElem?_append_left (by rw [len]; exact first)]
    simp [Tables.pow, place, first]
  · have inside : n - 255 < 255 := by omega
    have place : n % 255 = n - 255 := by omega
    rw [List.getElem?_append_right (by rw [len]; exact second), len]
    simp [Tables.pow, place, inside]

/-- A power is found at every index below 510. -/
theorem item_powers {n : Nat} (lt : n < 510) : item powers n = pure (field.pow n) :=
  item_of_getElem? (getElem?_twice field lt)

theorem getElem?_logs (t : Tables) (a : UInt8) :
    ∃ log, t.logs.toList[a.toNat]? = some log ∧ log.toNat = t.log a := by
  have lt := a.toNat_lt
  exact ⟨t.logs[a.toNat], by simp, rfl⟩

/-- A logarithm is found at every byte. -/
theorem item_logarithms (a : UInt8) :
    ∃ log, item logarithms a.toNat = pure log ∧ log.toNat = field.log a := by
  obtain ⟨log, entry, e⟩ := getElem?_logs field a
  exact ⟨log, item_of_getElem? entry, e⟩

theorem power_eq (n : Nat) : power n = pure (field.pow n) := by
  have lt : n % 255 < 255 := Nat.mod_lt _ (by decide)
  rw [power, item_powers (by omega), ccsds_pow_mod]

section

variable {size : Nat} (wide : 2 ^ 16 ≤ size)

include wide

/-- **A product stays within the tables.** -/
theorem multiply_eq (a b : UInt8) : multiply size a b = pure (field.mul a b) := by
  rw [multiply, Tables.mul]
  split
  · rfl
  · rename_i nonzero
    rw [not_or] at nonzero
    obtain ⟨x, read, hx⟩ := item_logarithms a
    obtain ⟨y, read', hy⟩ := item_logarithms b
    have la : field.log a < 255 := log_lt nonzero.1
    have lb : field.log b < 255 := log_lt nonzero.2
    rw [read, read']
    simp only [pure_bind, hx, hy]
    rw [add_of_lt (by omega), pure_bind, item_powers (by omega)]

/-- **A quotient stays within the tables.** -/
theorem divide_eq (a b : UInt8) : divide size a b = pure (field.div a b) := by
  rw [divide, Tables.div]
  split
  · rfl
  · rename_i nonzero
    rw [not_or] at nonzero
    obtain ⟨x, read, hx⟩ := item_logarithms a
    obtain ⟨y, read', hy⟩ := item_logarithms b
    have la : field.log a < 255 := log_lt nonzero.1
    have lb : field.log b < 255 := log_lt nonzero.2
    rw [read, read']
    simp only [pure_bind, hx, hy]
    rw [add_of_lt (by omega), pure_bind, sub_of_le (by omega), pure_bind, item_powers (by omega)]

end

/-! ## 2. Polynomials -/

/-- A polynomial at a point, its coefficients listed from the highest degree down. -/
def evaluate (size : Nat) (coefficients : List UInt8) (x : UInt8) : Checked UInt8 :=
  coefficients.foldlM (fun y c => do pure ((← multiply size y x) ^^^ c)) 0

/-- The first `n` terms of a polynomial at a point, its coefficients listed from the constant up;
    with the sum goes the power of the point that the next coefficient is multiplied by. -/
def evaluateUp (size : Nat) (coefficients : List UInt8) (n : Nat) (x : UInt8) : Checked UInt8 := do
  let summed ← forUp 0 n ((0, 1) : UInt8 × UInt8) fun s k => do
    let term ← multiply size (← item coefficients k) s.2
    pure (s.1 ^^^ term, ← multiply size s.2 x)
  pure summed.1

/-- A term behind the others. -/
theorem evalAscending_concat (cs : List UInt8) (c x y : UInt8)
    (power : ofByte y = ofByte x ^ cs.length) :
    field.evalAscending (cs ++ [c]) x = field.evalAscending cs x ^^^ field.mul c y := by
  have value (cs : List UInt8) : ofByte (field.evalAscending (cs ++ [c]) x) =
      ofByte (field.evalAscending cs x) + ofByte c * ofByte x ^ cs.length := by
    induction cs with
    | nil => simp [Tables.evalAscending]
    | cons b cs ih =>
        have unfolded (ds : List UInt8) : field.evalAscending (b :: ds) x =
            field.mul (field.evalAscending ds x) x ^^^ b := rfl
        rw [List.cons_append, unfolded, unfolded, Element.ofByte_xor, Element.ofByte_xor,
          Element.ofByte_mul, Element.ofByte_mul, ih, List.length_cons]
        ring
  rw [← Element.ofByte_inj, value, Element.ofByte_xor, Element.ofByte_mul, power]

section

variable {size : Nat} (wide : 2 ^ 16 ≤ size)

include wide

theorem evaluate_eq (coefficients : List UInt8) (x : UInt8) :
    evaluate size coefficients x = pure (field.eval coefficients x) := by
  refine foldlM_eq (fun y c _ => ?_) 0
  rw [multiply_eq wide, pure_bind]

theorem evaluateUp_eq {coefficients : List UInt8} {n : Nat} (le : n ≤ coefficients.length)
    (x : UInt8) :
    evaluateUp size coefficients n x = pure (field.evalAscending (coefficients.take n) x) := by
  -- after `k` turns the sum of `k` terms stands beside the `k`th power
  let state (k : Nat) : UInt8 × UInt8 :=
    (field.evalAscending (coefficients.take k) x, (ofByte x ^ k).toByte)
  have start : state 0 = (0, 1) := rfl
  rw [evaluateUp, ← start, forUp_eq state (Nat.zero_le n) fun k _ lt => ?_, pure_bind]
  have inside : k < coefficients.length := Nat.lt_of_lt_of_le lt le
  have sum : field.evalAscending (coefficients.take (k + 1)) x =
      field.evalAscending (coefficients.take k) x ^^^
        field.mul coefficients[k] (ofByte x ^ k).toByte := by
    rw [List.take_succ_eq_append_getElem inside]
    refine evalAscending_concat _ _ _ _ ?_
    rw [List.length_take, Nat.min_eq_left (Nat.le_of_lt inside)]
    rfl
  have next : (ofByte x ^ (k + 1)).toByte = field.mul (ofByte x ^ k).toByte x :=
    pow_succ (ofByte x) k
  simp only [item_of_lt inside, multiply_eq wide, pure_bind, state, sum, next]

end

end SatLink.Indexed
