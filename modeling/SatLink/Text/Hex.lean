/-!
# Hexadecimal text

Bytes are written as two lower-case digits each. Reading takes digits of either case, and tells the
two ways in which a text can fail apart: an odd number of digits, which is noticed first, and a
character that is no digit, with its position.
-/

namespace SatLink.Text.Hex

/-- Why a text is not hexadecimal; `byte` is the offending byte of its UTF-8 form. -/
inductive Fault where
  | oddLength
  | badDigit (byte : UInt8) (position : Nat)
  deriving DecidableEq

/-- The digit of a number below sixteen. -/
def digit (n : Nat) : Char := Nat.digitChar n

/-- The two digits of a byte. -/
def digitsOf (b : UInt8) : List Char := [digit (b.toNat / 16), digit (b.toNat % 16)]

/-- The digits of a byte string. -/
def encode (bytes : List UInt8) : String := String.ofList (bytes.flatMap digitsOf)

/-- The value of a digit, given as a byte. -/
def value? (byte : UInt8) : Option UInt8 :=
  if 0x30 ≤ byte ∧ byte ≤ 0x39 then some (byte - 0x30)
  else if 0x61 ≤ byte ∧ byte ≤ 0x66 then some (byte - 0x61 + 10)
  else if 0x41 ≤ byte ∧ byte ≤ 0x46 then some (byte - 0x41 + 10)
  else none

/-- The bytes that an even number of digits spells; `position` digits came before. -/
def decodeDigits (position : Nat) : List UInt8 → Except Fault (List UInt8)
  | high :: low :: rest =>
      match value? high, value? low with
      | none, _ => .error (.badDigit high position)
      | _, none => .error (.badDigit low (position + 1))
      | some h, some l => (decodeDigits (position + 2) rest).map ((h <<< 4 ||| l) :: ·)
  | [] => .ok []
  | [_] => .error .oddLength

/-- The bytes that a text spells. -/
def decode (text : String) : Except Fault (List UInt8) :=
  let digits := text.toUTF8.toList
  if digits.length % 2 = 1 then .error .oddLength else decodeDigits 0 digits

end SatLink.Text.Hex
