/-!
# The shortest decimal of a binary number

A binary number `m · 2^q` stands for every real that rounds to it: those between the midpoints to
its neighbours, and the midpoints themselves if `m` is even. Of the decimals among them, `shortest`
has the fewest digits and is the nearest of those; of two that are equally near it is the larger.

All comparisons are exact, on natural numbers.
-/

namespace SatLink.Decimal

/-- `m · 2^q`. -/
structure Binary where
  m : Nat
  q : Int
  /-- The neighbour below is half as far away as the one above. -/
  narrowBelow : Bool
  deriving DecidableEq

/-- `digits · 10^exponent`. -/
structure Numeral where
  digits : Nat
  exponent : Int
  deriving DecidableEq

/-- Compares `a · 10^i` with `n · 2^j`. -/
def compareScaled (a : Nat) (i : Int) (n : Nat) (j : Int) : Ordering :=
  compare ((a * Nat.pow 10 i.toNat) <<< (-j).toNat) ((n * Nat.pow 10 (-i).toNat) <<< j.toNat)

/-- A decimal is among the reals that round to a binary number. -/
def Binary.readsBack (x : Binary) (d : Numeral) : Bool :=
  let low := if x.narrowBelow then 4 * x.m - 1 else 4 * x.m - 2
  let ends := x.m % 2 == 0
  let fromLow := compareScaled d.digits d.exponent low (x.q - 2)
  let fromHigh := compareScaled d.digits d.exponent (4 * x.m + 2) (x.q - 2)
  (fromLow == .gt || (ends && fromLow == .eq)) && (fromHigh == .lt || (ends && fromHigh == .eq))

/-- The decimal on the grid `10^exponent` right below a binary number, or equal to it. -/
def Binary.below (x : Binary) (exponent : Int) : Nat :=
  ((x.m * Nat.pow 10 (-exponent).toNat) <<< x.q.toNat) /
    (Nat.pow 10 exponent.toNat <<< (-x.q).toNat)

/-- The number of zeros that follow the point, counted by multiplying with ten until the whole part
    is no longer zero. -/
def leadingZeros (numerator denominator : Nat) : Nat → Nat
  | 0 => 0
  | limit + 1 =>
      if denominator ≤ numerator * 10 then 0
      else leadingZeros (numerator * 10) denominator limit + 1

/-- The least `k` with `m · 2^q < 10^k`. -/
def Binary.scale (x : Binary) : Int :=
  let whole := x.below 0
  if whole = 0 then -(leadingZeros x.m (1 <<< (-x.q).toNat) (-x.q).toNat : Nat)
  else (Nat.toDigits 10 whole).length

/-- The decimal of a binary number on a grid, if one of its two neighbours there stands for it. -/
def Binary.onGrid? (x : Binary) (exponent : Int) : Option Numeral :=
  let lower : Numeral := ⟨x.below exponent, exponent⟩
  let upper : Numeral := ⟨x.below exponent + 1, exponent⟩
  let middle := compareScaled (2 * lower.digits + 1) exponent (2 * x.m) x.q
  match x.readsBack lower, x.readsBack upper with
  | true, true => some (if middle == .gt then lower else upper)
  | true, false => some lower
  | false, true => some upper
  | false, false => none

/-- The exact decimal of a binary number. -/
def Binary.exact (x : Binary) : Numeral :=
  if 0 ≤ x.q then ⟨x.m <<< x.q.toNat, 0⟩ else ⟨x.m * Nat.pow 5 (-x.q).toNat, x.q⟩

/-- Moves the zeros at the end of the digits into the exponent. -/
def Numeral.strip : Nat → Numeral → Numeral
  | 0, d => d
  | limit + 1, d =>
      if d.digits ≠ 0 ∧ d.digits % 10 = 0 then strip limit ⟨d.digits / 10, d.exponent + 1⟩ else d

/-- The shortest decimal of a binary number other than zero, without zeros at its end. Seventeen
    digits are enough for 64 bits. -/
def shortest (x : Binary) : Numeral :=
  let k := x.scale
  let found := (List.range 17).findSome? fun n => x.onGrid? (k - (n + 1 : Nat))
  let d := found.getD x.exact
  d.strip (Nat.toDigits 10 d.digits).length

end SatLink.Decimal
