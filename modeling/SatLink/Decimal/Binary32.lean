import SatLink.Decimal.Shortest

/-!
# Numbers of 32 bits as text

The bits of a floating-point number are a sign, eight bits of exponent and 23 of fraction. A finite
number is written with the fewest digits that read back to it, at least one of them behind the
point; numbers below `10^-4` and from `10^16` on are written with an exponent.
-/

namespace SatLink.Decimal

/-- The size of a finite number of 32 bits. -/
def binaryOfBits (bits : UInt32) : Binary :=
  let exponent := (bits.toNat >>> 23) % 256
  let fraction := bits.toNat % 0x800000
  if exponent = 0 then ⟨fraction, -149, false⟩
  else ⟨0x800000 + fraction, Int.ofNat exponent - 150, fraction == 0⟩

/-- A decimal with digits on both sides of the point. -/
def positional (digits : List Char) (exponent : Int) : List Char :=
  let behind := (-exponent).toNat
  if 0 ≤ exponent then digits ++ List.replicate exponent.toNat '0' ++ ['.', '0']
  else if behind < digits.length then
    digits.take (digits.length - behind) ++ '.' :: digits.drop (digits.length - behind)
  else '0' :: '.' :: (List.replicate (behind - digits.length) '0' ++ digits)

/-- A decimal with one digit before the point, and the exponent of that digit. -/
def scientific (digits : List Char) (exponent : Int) : List Char :=
  let mantissa :=
    match digits with
    | first :: [] => [first]
    | first :: rest => first :: '.' :: rest
    | [] => []
  mantissa ++ 'e' :: (toString exponent).toList

/-- The text of a finite number without its sign. -/
def finiteText (bits : UInt32) : String :=
  let x := binaryOfBits bits
  if x.m = 0 then "0.0"
  else
    let d := shortest x
    let digits := Nat.toDigits 10 d.digits
    let leading := d.exponent + digits.length - 1
    String.ofList <|
      if -4 ≤ leading ∧ leading < 16 then positional digits d.exponent
      else scientific digits leading

/-- The text of a number of 32 bits. -/
def text32 (bits : UInt32) : String :=
  let exponent := (bits.toNat >>> 23) % 256
  let fraction := bits.toNat % 0x800000
  if exponent = 255 ∧ fraction ≠ 0 then "NaN"
  else
    let sign := if 0x80000000 ≤ bits.toNat then "-" else ""
    sign ++ if exponent = 255 then "inf" else finiteText bits

end SatLink.Decimal
