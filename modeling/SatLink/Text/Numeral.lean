/-!
# Numbers in text

A number is written in decimal digits, and a plus sign may stand in front of them. It is read digit
by digit, so of two faults the one that stands first is reported.
-/

namespace SatLink.Text.Numeral

/-- Why a text is not a number. -/
inductive Fault where
  | empty
  | badDigit
  | tooLarge
  deriving DecidableEq

/-- The wording of a fault. -/
def Fault.message : Fault → String
  | .empty => "cannot parse integer from empty string"
  | .badDigit => "invalid digit found in string"
  | .tooLarge => "number too large to fit in target type"

/-- Reads on behind digits that spell `value`; the number has to stay below the bound. -/
def readDigits (bound value : Nat) : List Char → Except Fault Nat
  | [] => .ok value
  | c :: rest =>
      if c.isDigit then
        let value := value * 10 + (c.toNat - '0'.toNat)
        if value < bound then readDigits bound value rest else .error .tooLarge
      else .error .badDigit

/-- The number below a bound that a text spells. -/
def read (bound : Nat) : List Char → Except Fault Nat
  | [] => .error .empty
  | ['+'] => .error .badDigit
  | '+' :: digits => readDigits bound 0 digits
  | digits => readDigits bound 0 digits

theorem readDigits_lt {bound value n : Nat} {digits : List Char} (hv : value < bound)
    (h : readDigits bound value digits = .ok n) : n < bound := by
  induction digits generalizing value with
  | nil => simp only [readDigits, Except.ok.injEq] at h; omega
  | cons c rest ih =>
    simp only [readDigits] at h
    split at h
    · split at h
      · exact ih (by assumption) h
      · cases h
    · cases h

end SatLink.Text.Numeral
