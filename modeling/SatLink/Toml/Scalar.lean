import SatLink.Toml.Value

/-!
# Values that are one word

A word is a run of characters that holds no blank, comma, bracket or line end. It is an integer, a
number with a fraction or an exponent, a truth value, or a date and time of day.

* `integer?` — decimal, hexadecimal, octal or binary, within 64 bits with a sign;
* `isFloat` — a decimal fraction that does not grow beyond every number of 64 bits, or a name of one
  that has no digits;
* `isDateTime` — a date that the calendar has, a time of day, or both.
-/

namespace SatLink.Toml

/-! ## 1. Digits -/

/-- The value of a digit in any base up to sixteen. -/
def digitValue? (c : Char) : Option Nat :=
  if '0' ≤ c && c ≤ '9' then some (c.toNat - '0'.toNat)
  else if 'a' ≤ c && c ≤ 'f' then some (c.toNat - 'a'.toNat + 10)
  else if 'A' ≤ c && c ≤ 'F' then some (c.toNat - 'A'.toNat + 10)
  else none

/-- The number that digits spell, single underscores between them; `value` was spelt before, and
    `digit` says that a digit came last. -/
def spelt? (base value : Nat) (digit : Bool) : List Char → Option Nat
  | [] => if digit then some value else none
  | '_' :: rest => if digit then spelt? base value false rest else none
  | c :: rest =>
      match digitValue? c with
      | some d => if d < base then spelt? base (value * base + d) true rest else none
      | none => none

/-- The number that digits in a base spell. -/
def digits? (base : Nat) (cs : List Char) : Option Nat := spelt? base 0 false cs

/-- The number that decimal digits spell; more than one do not start with a zero. -/
def decimal? : List Char → Option Nat
  | '0' :: _ :: _ => none
  | cs => digits? 10 cs

/-- A sign, true for minus, and what is behind it. -/
def splitSign : List Char → Bool × List Char
  | '-' :: rest => (true, rest)
  | '+' :: rest => (false, rest)
  | cs => (false, cs)

/-- The number with a sign. -/
def signed (negative : Bool) (n : Nat) : Int := if negative then -n else n

/-! ## 2. Integers -/

/-- The integer that a word spells, within 64 bits with a sign. -/
def integer? (cs : List Char) : Option Int :=
  let value :=
    match cs with
    | '0' :: 'x' :: rest => (digits? 16 rest).map Int.ofNat
    | '0' :: 'o' :: rest => (digits? 8 rest).map Int.ofNat
    | '0' :: 'b' :: rest => (digits? 2 rest).map Int.ofNat
    | _ =>
        let (negative, rest) := splitSign cs
        (decimal? rest).map (signed negative)
  value.filter fun n => -9223372036854775808 ≤ n && n ≤ 9223372036854775807

/-! ## 3. Numbers with a fraction -/

/-- A character of an integer without a sign. -/
def isCounting (c : Char) : Bool := c.isDigit || c == '_'

/-- `digits · 10 ^ exponent` is as large as rounds to no finite number of 64 bits. Where the number
    of digits decides, no power is worked out. -/
def isHuge (digits : Nat) (exponent : Int) : Bool :=
  let magnitude : Int := (Nat.toDigits 10 digits).length + exponent
  if digits = 0 ∨ magnitude ≤ 308 then false
  else if 310 ≤ magnitude then true
  else
    let bound := (1 <<< 1024) - (1 <<< 970)
    decide (bound * Nat.pow 10 (-exponent).toNat ≤ digits * Nat.pow 10 exponent.toNat)

/-- The exponent that is written behind a mantissa; none is zero. -/
def exponent? : List Char → Option Int
  | [] => some 0
  | c :: rest =>
      if c == 'e' || c == 'E' then
        let (negative, rest) := splitSign rest
        (digits? 10 rest).map (signed negative)
      else none

/-- A word is a number with a fraction, an exponent or both. Only a positive one can be too
    large. -/
def isDecimal (cs : List Char) : Bool :=
  let (negative, cs) := splitSign cs
  let whole := cs.takeWhile isCounting
  let rest := cs.dropWhile isCounting
  let fraction :=
    match rest with
    | '.' :: rest => rest.takeWhile isCounting
    | _ => []
  let tail :=
    match rest with
    | '.' :: rest => rest.dropWhile isCounting
    | _ => rest
  let hasPoint := rest.head? == some '.'
  if rest.isEmpty || (hasPoint && (digits? 10 fraction).isNone) then false
  else
    match decimal? whole, exponent? tail with
    | some _, some exponent =>
        let places := (fraction.filter Char.isDigit).length
        let all := (whole ++ fraction).filter Char.isDigit
        negative || !isHuge ((digits? 10 all).getD 0) (exponent - places)
    | _, _ => false

/-- A word is a number that is no integer. -/
def isFloat (cs : List Char) : Bool :=
  isDecimal cs || (splitSign cs).2 == ['i', 'n', 'f'] || (splitSign cs).2 == ['n', 'a', 'n']

/-! ## 4. Dates and times of day -/

/-- The number that two digits spell, if it is at most `most`. -/
def pair? (most : Nat) (a b : Char) : Option Nat :=
  if a.isDigit && b.isDigit then (digits? 10 [a, b]).filter (· ≤ most) else none

/-- The number of days of a month. -/
def daysOfMonth (year month : Nat) : Nat :=
  if month = 2 then
    (if year % 4 = 0 ∧ (year % 100 ≠ 0 ∨ year % 400 = 0) then 29 else 28)
  else if month = 4 ∨ month = 6 ∨ month = 9 ∨ month = 11 then 30
  else 31

/-- What is behind a date. -/
def date? : List Char → Option (List Char)
  | a :: b :: c :: d :: '-' :: m :: n :: '-' :: e :: f :: rest =>
      match pair? 99 a b, pair? 99 c d, pair? 12 m n, pair? 31 e f with
      | some century, some year, some month, some day =>
          if month ≠ 0 ∧ day ≠ 0 ∧ day ≤ daysOfMonth (century * 100 + year) month then some rest
          else none
      | _, _, _, _ => none
  | _ => none

/-- What is behind a time of day; a minute may have a leap second. -/
def time? : List Char → Option (List Char)
  | a :: b :: ':' :: c :: d :: ':' :: e :: f :: rest =>
      match pair? 23 a b, pair? 59 c d, pair? 60 e f with
      | some _, some _, some _ =>
          match rest with
          | '.' :: digit :: rest =>
              if digit.isDigit then some (rest.dropWhile Char.isDigit) else none
          | '.' :: [] => none
          | rest => some rest
      | _, _, _ => none
  | _ => none

/-- The distance from universal time is well formed, or not given. -/
def isOffset : List Char → Bool
  | [] => true
  | ['Z'] => true
  | ['z'] => true
  | [sign, a, b, ':', c, d] =>
      (sign == '+' || sign == '-') && (pair? 23 a b).isSome && (pair? 59 c d).isSome
  | _ => false

/-- A time of day and its distance from universal time. -/
def isTimeWithOffset (cs : List Char) : Bool := ((time? cs).map isOffset).getD false

/-- A word is a date, a time of day, or a date and a time of day. -/
def isDateTime (cs : List Char) : Bool :=
  match date? cs with
  | some [] => true
  | some (c :: rest) => (c == 'T' || c == 't' || c == ' ') && isTimeWithOffset rest
  | none => time? cs == some []

/-! ## 5. Words -/

/-- A character of a word. -/
def isWordChar (c : Char) : Bool :=
  c.isAlphanum || c == '_' || c == '+' || c == '-' || c == '.' || c == ':'

/-- The word that a text starts with, and what is behind it. A date and a time of day may have one
    space between them. -/
def word (cs : List Char) : List Char × List Char :=
  let first := cs.takeWhile isWordChar
  let rest := cs.dropWhile isWordChar
  match date? first, rest with
  | some [], ' ' :: more =>
      let second := more.takeWhile isWordChar
      if isTimeWithOffset second then (first ++ ' ' :: second, more.dropWhile isWordChar)
      else (first, rest)
  | _, _ => (first, rest)

/-- The value of a word. -/
def scalar (cs : List Char) : Option Value :=
  if cs == ['t', 'r', 'u', 'e'] then some (.boolean true)
  else if cs == ['f', 'a', 'l', 's', 'e'] then some (.boolean false)
  else
    match integer? cs with
    | some n => some (.integer n)
    | none =>
        if isDateTime cs then some (.dateTime (String.ofList cs))
        else if isFloat cs then some (.float (String.ofList cs))
        else none

end SatLink.Toml
