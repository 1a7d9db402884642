import SatLink.Text.Unprinted

/-!
# Quoted text in messages

A text is shown between double quotes, a single character between single quotes. Quotes of that kind
and backslashes get a backslash, the usual control characters their letter, and every other
character without a picture its number in braces.
-/

namespace SatLink.Text

/-- A number in lower-case hexadecimal digits. -/
def hexadecimal (n : Nat) : List Char := Nat.toDigits 16 n

/-- A character between quotes of a kind. -/
def shownChar (quote c : Char) : List Char :=
  if c = quote then ['\\', c]
  else
    match c with
    | '\\' => ['\\', '\\']
    | '\x00' => ['\\', '0']
    | '\t' => ['\\', 't']
    | '\n' => ['\\', 'n']
    | '\r' => ['\\', 'r']
    | c => if isUnprinted c then '\\' :: 'u' :: '\x7b' :: (hexadecimal c.toNat ++ ['\x7d']) else [c]

/-- A text between double quotes. -/
def quoted (text : String) : String :=
  String.ofList ('"' :: (text.toList.flatMap (shownChar '"') ++ ['"']))

/-- A character between single quotes. -/
def quotedChar (c : Char) : String := String.ofList ('\'' :: (shownChar '\'' c ++ ['\'']))

end SatLink.Text
