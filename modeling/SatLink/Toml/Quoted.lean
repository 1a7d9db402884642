/-!
# Writing texts in quotes

A text is written in the plainest of the quoted forms that can hold it: double quotes, if nothing in
it needs an escape; else single quotes; else one of the forms for several lines; and with escapes
only where nothing else will do.
-/

namespace SatLink.Toml

/-- The length of the longest run of a character; `run` of them came right before, and `best` is the
    longest run so far. -/
def longestRun (target : Char) (run best : Nat) : List Char → Nat
  | [] => max run best
  | c :: rest =>
      if c = target then longestRun target (run + 1) best rest
      else longestRun target 0 (max run best) rest

/-- A control character that only an escape can write. -/
def needsEscape (c : Char) : Bool := (c < ' ' && c != '\t' && c != '\n') || c == '\x7f'

/-- Four hexadecimal digits. -/
def fourDigits (n : Nat) : List Char :=
  [n / 4096, n / 256, n / 16, n].map fun k => (Nat.digitChar (k % 16)).toUpper

/-- A character between double quotes; `lines` says that line ends stand for themselves. -/
def escapeChar (lines : Bool) (c : Char) : List Char :=
  match c with
  | '\x08' => ['\\', 'b']
  | '\t' => ['\\', 't']
  | '\n' => if lines then ['\n'] else ['\\', 'n']
  | '\x0c' => ['\\', 'f']
  | '\r' => ['\\', 'r']
  | '\\' => ['\\', '\\']
  | c => if c < ' ' ∨ c = '\x7f' then '\\' :: 'u' :: fourDigits c.toNat else [c]

/-- A text between double quotes: a quote is escaped once more than `free` stand together. -/
def escapeText (lines : Bool) (free run : Nat) : List Char → List Char
  | [] => []
  | '"' :: rest =>
      if run < free then '"' :: escapeText lines free (run + 1) rest
      else '\\' :: '"' :: escapeText lines free 0 rest
  | c :: rest => escapeChar lines c ++ escapeText lines free 0 rest

/-- A text between its delimiters. -/
def quote (text : String) : String :=
  let cs := text.toList
  let control := cs.any needsEscape
  let backslash := cs.contains '\\'
  let newline := cs.contains '\n'
  let singles := longestRun '\'' 0 0 cs
  let doubles := longestRun '"' 0 0 cs
  let opening : List Char := if newline then ['\n'] else []
  let single := ['\'']
  let double := ['"']
  let threeSingle := ['\'', '\'', '\'']
  let threeDouble := ['"', '"', '"']
  let multi := threeDouble ++ opening ++ escapeText true 2 0 cs ++ threeDouble
  let plain := double ++ escapeText false 0 0 cs ++ double
  String.ofList <|
    if !control && !backslash && doubles == 0 && !newline then plain
    else if !control && singles == 0 && !newline then single ++ cs ++ single
    else if !control && !backslash && doubles ≤ 2 then multi
    else if !control && singles ≤ 2 then threeSingle ++ opening ++ cs ++ threeSingle
    else if newline then multi
    else plain

end SatLink.Toml
