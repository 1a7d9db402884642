/-!
# The characters of a configuration text

* `skipBlanks`, `skipTrivia`, `endLine?` — what may stand between the parts of a text: blanks,
  comments, line ends;
* `string?` — a quoted text in one of its four forms, `key?` — a key, and `keyPath?` — keys
  joined by dots.

A reader takes the characters that are left and answers with what it read and the characters behind
it, or with `none` if the text is not well formed there.
-/

namespace SatLink.Toml

/-! ## 1. Blanks, comments, line ends -/

/-- A blank within a line. -/
def isBlank (c : Char) : Bool := c == ' ' || c == '\t'

/-- A character that may stand in a line: everything but control characters other than tabs. -/
def isPrinted (c : Char) : Bool := c == '\t' || (' ' ≤ c && c != '\x7f')

/-- The rest of a line behind its blanks. -/
def skipBlanks (cs : List Char) : List Char := cs.dropWhile isBlank

/-- What is behind a line end. -/
def newline? : List Char → Option (List Char)
  | '\n' :: rest => some rest
  | '\r' :: '\n' :: rest => some rest
  | _ => none

/-- What is behind blanks, comments and line ends; `comment` says that a comment has begun. -/
def skipTrivia (comment : Bool) : List Char → List Char
  | [] => []
  | '\n' :: rest => skipTrivia false rest
  | '\r' :: '\n' :: rest => skipTrivia false rest
  | c :: rest =>
      if comment then (if isPrinted c then skipTrivia true rest else c :: rest)
      else if c == '#' then skipTrivia true rest
      else if isBlank c then skipTrivia false rest
      else c :: rest

/-- What is behind the end of a line on which nothing but a comment may follow. -/
def endLine? (cs : List Char) : Option (List Char) :=
  let cs := skipBlanks cs
  let cs := if cs.head? == some '#' then cs.dropWhile isPrinted else cs
  if cs.isEmpty then some [] else newline? cs

/-! ## 2. Quoted texts -/

/-- What was read, and what is left. -/
abbrev Read := Option (List Char × List Char)

/-- Puts a character before what was read. -/
def emit (c : Char) (r : Read) : Read := r.map fun (read, rest) => (c :: read, rest)

/-- The character that a letter behind a backslash stands for. -/
def escaped? : Char → Option Char
  | 'b' => some '\x08'
  | 't' => some '\t'
  | 'n' => some '\n'
  | 'f' => some '\x0c'
  | 'r' => some '\r'
  | '"' => some '"'
  | '\\' => some '\\'
  | _ => none

/-- The value of a hexadecimal digit. -/
def hexDigit? (c : Char) : Option Nat :=
  if '0' ≤ c && c ≤ '9' then some (c.toNat - '0'.toNat)
  else if 'a' ≤ c && c ≤ 'f' then some (c.toNat - 'a'.toNat + 10)
  else if 'A' ≤ c && c ≤ 'F' then some (c.toNat - 'A'.toNat + 10)
  else none

/-- The character of a number, if it is that of one. -/
def scalar? (n : Nat) : Option Char := if n.isValidChar then some (Char.ofNat n) else none

/-- How far an escape has been read. -/
inductive Pending where
  | content
  /-- A backslash. -/
  | backslash
  /-- Part of the number of a character; `left` digits are missing. -/
  | number (left value : Nat)
  /-- A backslash and blanks; a line end has to follow. -/
  | lineEnd
  /-- A backslash and a line end; blanks and line ends are skipped. -/
  | skipping

/-- One more digit of the number of a character: the character, or what is pending then. -/
def addDigit (left value : Nat) (c : Char) : Option (Char ⊕ Pending) :=
  match hexDigit? c with
  | none => none
  | some d =>
      if left ≤ 1 then (scalar? (value * 16 + d)).map .inl
      else some (.inr (.number (left - 1) (value * 16 + d)))

/-- A text in double quotes on one line, behind the opening quote. -/
def basic : Pending → List Char → Read
  | .content, '"' :: rest => some ([], rest)
  | .content, '\\' :: rest => basic .backslash rest
  | .content, c :: rest => if isPrinted c then emit c (basic .content rest) else none
  | .backslash, 'u' :: rest => basic (.number 4 0) rest
  | .backslash, 'U' :: rest => basic (.number 8 0) rest
  | .backslash, c :: rest =>
      match escaped? c with
      | some d => emit d (basic .content rest)
      | none => none
  | .number left value, c :: rest =>
      match addDigit left value c with
      | some (.inl d) => emit d (basic .content rest)
      | some (.inr pending) => basic pending rest
      | none => none
  | _, _ => none

/-- A text in three double quotes, behind the opening quotes. A line end is one character however it
    is written, and two quotes more than three may close the text. -/
def multiBasic : Pending → List Char → Read
  | .backslash, 'u' :: rest => multiBasic (.number 4 0) rest
  | .backslash, 'U' :: rest => multiBasic (.number 8 0) rest
  | .backslash, '\n' :: rest => multiBasic .skipping rest
  | .backslash, '\r' :: '\n' :: rest => multiBasic .skipping rest
  | .backslash, c :: rest =>
      if isBlank c then multiBasic .lineEnd rest
      else
        match escaped? c with
        | some d => emit d (multiBasic .content rest)
        | none => none
  | .number left value, c :: rest =>
      match addDigit left value c with
      | some (.inl d) => emit d (multiBasic .content rest)
      | some (.inr pending) => multiBasic pending rest
      | none => none
  | .lineEnd, '\n' :: rest => multiBasic .skipping rest
  | .lineEnd, '\r' :: '\n' :: rest => multiBasic .skipping rest
  | .lineEnd, c :: rest => if isBlank c then multiBasic .lineEnd rest else none
  | .skipping, '\n' :: rest => multiBasic .skipping rest
  | .skipping, '\r' :: '\n' :: rest => multiBasic .skipping rest
  | .content, '\n' :: rest => emit '\n' (multiBasic .content rest)
  | .content, '\r' :: '\n' :: rest => emit '\n' (multiBasic .content rest)
  | _, '"' :: '"' :: '"' :: '"' :: '"' :: rest => some (['"', '"'], rest)
  | _, '"' :: '"' :: '"' :: '"' :: rest => some (['"'], rest)
  | _, '"' :: '"' :: '"' :: rest => some ([], rest)
  | _, '\\' :: rest => multiBasic .backslash rest
  | .skipping, c :: rest =>
      if isBlank c then multiBasic .skipping rest
      else if isPrinted c then emit c (multiBasic .content rest)
      else none
  | _, c :: rest => if isPrinted c then emit c (multiBasic .content rest) else none
  | _, [] => none

/-- A text in single quotes on one line, behind the opening quote. -/
def literal : List Char → Read
  | '\'' :: rest => some ([], rest)
  | c :: rest => if isPrinted c then emit c (literal rest) else none
  | [] => none

/-- A text in three single quotes, behind the opening quotes. -/
def multiLiteral : List Char → Read
  | '\'' :: '\'' :: '\'' :: '\'' :: '\'' :: rest => some (['\'', '\''], rest)
  | '\'' :: '\'' :: '\'' :: '\'' :: rest => some (['\''], rest)
  | '\'' :: '\'' :: '\'' :: rest => some ([], rest)
  | '\n' :: rest => emit '\n' (multiLiteral rest)
  | '\r' :: '\n' :: rest => emit '\n' (multiLiteral rest)
  | c :: rest => if isPrinted c then emit c (multiLiteral rest) else none
  | [] => none

/-- A line end right behind the opening quotes is not part of the text. -/
def dropNewline (cs : List Char) : List Char := (newline? cs).getD cs

/-- A quoted text in any form. -/
def string? : List Char → Read
  | '"' :: '"' :: '"' :: rest => multiBasic .content (dropNewline rest)
  | '"' :: rest => basic .content rest
  | '\'' :: '\'' :: '\'' :: rest => multiLiteral (dropNewline rest)
  | '\'' :: rest => literal rest
  | _ => none

/-! ## 3. Keys -/

/-- A character of a key without quotes. -/
def isBare (c : Char) : Bool := c.isAlphanum || c == '_' || c == '-'

/-- A key, quoted on one line or bare. -/
def key? : List Char → Option (String × List Char)
  | '"' :: rest => (basic .content rest).map fun (cs, rest) => (String.ofList cs, rest)
  | '\'' :: rest => (literal rest).map fun (cs, rest) => (String.ofList cs, rest)
  | cs =>
      match cs.takeWhile isBare with
      | [] => none
      | name => some (String.ofList name, cs.dropWhile isBare)

/-- How deep keys and values may be nested. -/
def maxDepth : Nat := 79

/-- Keys joined by dots, blanks around them, at most `limit` of them. -/
def keyPath? : Nat → List Char → Option (List String × List Char)
  | 0, _ => none
  | limit + 1, cs =>
      match key? (skipBlanks cs) with
      | none => none
      | some (key, rest) =>
          match skipBlanks rest with
          | '.' :: rest => (keyPath? limit rest).map fun (keys, rest) => (key :: keys, rest)
          | rest => some ([key], rest)

end SatLink.Toml
