/-!
# Arithmetic in a field of 256 elements

A byte is a polynomial over GF(2) of degree below eight, and multiplying takes the remainder by a
primitive polynomial. The powers of α = 2 then run through all non-zero bytes, so a product is the
sum of two logarithms.

* `Tables.ofPolynomial` — the powers and the logarithms under any polynomial;
  `Tables.ofPolynomial?` refuses one whose powers do not stay bytes;
* `Tables.mul`, `div`, `inv`, `pow` — arithmetic by these tables; dividing by zero gives zero;
* `Tables.eval` and `Tables.evalAscending` — a polynomial at a point, its coefficients listed from
  the highest degree down or from the constant up;
* `ccsds` — the field of the code, x^8 + x^7 + x^2 + x + 1.
-/

namespace SatLink.Galois

/-! ## 1. Tables -/

/-- The powers of α and the logarithms to base α. -/
structure Tables where
  powers : Vector UInt8 255
  logs : Vector UInt8 256

/-- The next power in a register of sixteen bits: it doubles, and a carry into the ninth bit
    subtracts the polynomial. -/
def nextPower (polynomial register : UInt16) : UInt16 :=
  let doubled := register <<< 1
  if doubled &&& 0x100 = 0 then doubled else doubled ^^^ polynomial

/-- `n` powers in a row. -/
def registers (polynomial : UInt16) : Nat → UInt16 → List UInt16
  | 0, _ => []
  | n + 1, register => register :: registers polynomial n (nextPower polynomial register)

@[simp] theorem length_registers (polynomial : UInt16) : ∀ (n : Nat) (register : UInt16),
    (registers polynomial n register).length = n
  | 0, _ => rfl
  | n + 1, register => by simp [registers, length_registers polynomial n]

/-- Enters the logarithms `i`, `i + 1`, … of a list of powers; a later entry replaces an earlier. -/
def enterLogs (logs : Vector UInt8 256) (i : Nat) : List UInt16 → Vector UInt8 256
  | [] => logs
  | power :: rest => enterLogs (logs.setIfInBounds power.toNat i.toUInt8) (i + 1) rest

namespace Tables

/-- The tables under a polynomial. -/
def ofPolynomial (polynomial : UInt16) : Tables where
  powers := ⟨((registers polynomial 255 1).map UInt16.toUInt8).toArray, by simp⟩
  logs := enterLogs (Vector.replicate 256 0) 0 (registers polynomial 255 1)

/-- The tables under a polynomial whose first 255 powers of α are all bytes. -/
def ofPolynomial? (polynomial : UInt16) : Option Tables :=
  if (registers polynomial 255 1).all (· < 0x100) then some (ofPolynomial polynomial) else none

/-! ## 2. Arithmetic -/

/-- α^n. -/
def pow (t : Tables) (n : Nat) : UInt8 :=
  have h : n % 255 < 255 := Nat.mod_lt _ (by decide)
  t.powers[n % 255]

/-- The exponent of a non-zero byte. -/
def log (t : Tables) (a : UInt8) : Nat :=
  have h : a.toNat < 256 := a.toNat_lt
  t.logs[a.toNat].toNat

/-- The sum, which is also the difference. -/
def add (a b : UInt8) : UInt8 := a ^^^ b

/-- The product. -/
def mul (t : Tables) (a b : UInt8) : UInt8 :=
  if a = 0 ∨ b = 0 then 0 else t.pow (t.log a + t.log b)

/-- The quotient; by zero it is zero. -/
def div (t : Tables) (a b : UInt8) : UInt8 :=
  if a = 0 ∨ b = 0 then 0 else t.pow (t.log a + 255 - t.log b)

/-- The inverse; of zero it is zero. -/
def inv (t : Tables) (a : UInt8) : UInt8 := t.div 1 a

/-- A polynomial at `x`, its coefficients listed from the highest degree down. -/
def eval (t : Tables) (coefficients : List UInt8) (x : UInt8) : UInt8 :=
  coefficients.foldl (fun y c => t.mul y x ^^^ c) 0

/-- A polynomial at `x`, its coefficients listed from the constant up. -/
def evalAscending (t : Tables) (coefficients : List UInt8) (x : UInt8) : UInt8 :=
  coefficients.foldr (fun c y => t.mul y x ^^^ c) 0

@[simp] theorem mul_zero (t : Tables) (a : UInt8) : t.mul a 0 = 0 := by simp [mul]

@[simp] theorem zero_mul (t : Tables) (a : UInt8) : t.mul 0 a = 0 := by simp [mul]

theorem eval_append (t : Tables) (cs : List UInt8) (c x : UInt8) :
    t.eval (cs ++ [c]) x = t.mul (t.eval cs x) x ^^^ c := by
  simp [eval]

theorem evalAscending_reverse (t : Tables) (cs : List UInt8) (x : UInt8) :
    t.evalAscending cs.reverse x = t.eval cs x := by
  simp [eval, evalAscending]

end Tables

/-! ## 3. The field of the code -/

/-- The field under x^8 + x^7 + x^2 + x + 1. -/
def ccsds : Tables := Tables.ofPolynomial 0x187

end SatLink.Galois
