import SatLink.Toml.Scalar
import SatLink.Toml.Text

/-!
# Configuration texts

A text is a list of statements, one a line: a key and its value, or the header of a table. A value
may go on over several lines in brackets, but not in braces.

* `value`, `items`, `pairs` — a value and what is between its brackets or braces;
* `statements` — the lines of a text;
* `parse` — the table that a text stands for.
-/

namespace SatLink.Toml

/-! ## 1. Values -/

mutual

/-- A value, and what is behind it. `depth` is how deep it may be nested; `limit` is at least twice
    the number of characters, and every two steps read one. -/
def value : Nat → Nat → List Char → Option (Value × List Char)
  | 0, _, _ => none
  | limit + 1, depth, '[' :: rest =>
      if depth = 0 then none
      else
        (items limit (depth - 1) (skipTrivia false rest)).map fun (vs, rest) => (.array vs, rest)
  | limit + 1, depth, '\x7b' :: rest =>
      if depth = 0 then none
      else
        match skipBlanks rest with
        | '\x7d' :: rest => some (.table .inline [], rest)
        | rest =>
            match pairs limit (depth - 1) rest with
            | some (ps, rest) => (ofPairs ps).map fun es => (.table .inline es, rest)
            | none => none
  | _ + 1, _, cs =>
      if cs.head? == some '"' || cs.head? == some '\'' then
        (string? cs).map fun (text, rest) => (.string (String.ofList text), rest)
      else
        let (read, rest) := word cs
        (scalar read).map fun v => (v, rest)

/-- The values up to a closing bracket, and what is behind it; a comma may follow the last. -/
def items : Nat → Nat → List Char → Option (List Value × List Char)
  | 0, _, _ => none
  | _ + 1, _, ']' :: rest => some ([], rest)
  | limit + 1, depth, cs =>
      match value limit depth cs with
      | none => none
      | some (v, rest) =>
          match skipTrivia false rest with
          | ']' :: rest => some ([v], rest)
          | ',' :: rest =>
              (items limit depth (skipTrivia false rest)).map fun (vs, rest) => (v :: vs, rest)
          | _ => none

/-- The pairs up to a closing brace, and what is behind it; a pair follows every comma. -/
def pairs : Nat → Nat → List Char → Option (List (List String × String × Value) × List Char)
  | 0, _, _ => none
  | limit + 1, depth, cs =>
      match keyPath? maxDepth cs with
      | some (path, '=' :: rest) =>
          match value limit depth (skipBlanks rest) with
          | none => none
          | some (v, rest) =>
              let pair := (path.dropLast, path.getLastD "", v)
              match skipBlanks rest with
              | '\x7d' :: rest => some ([pair], rest)
              | ',' :: rest => (pairs limit depth rest).map fun (ps, rest) => (pair :: ps, rest)
              | _ => none
      | _ => none

end

/-! ## 2. Statements -/

/-- What a line says. -/
inductive Statement where
  | pair (path : List String) (name : String) (value : Value)
  | table (path : List String)
  | element (path : List String)

/-- The statement at the start of a line, and what is behind it on the line. -/
def statement? : List Char → Option (Statement × List Char)
  | '[' :: '[' :: rest =>
      match keyPath? maxDepth rest with
      | some (path, ']' :: ']' :: rest) => some (.element path, rest)
      | _ => none
  | '[' :: rest =>
      match keyPath? maxDepth rest with
      | some (path, ']' :: rest) => some (.table path, rest)
      | _ => none
  | cs =>
      match keyPath? maxDepth cs with
      | some (path, '=' :: rest) =>
          let rest := skipBlanks rest
          (value (2 * rest.length + 1) maxDepth rest).map fun (v, rest) =>
            (.pair path.dropLast (path.getLastD "") v, rest)
      | _ => none

/-- The statements of a text of at most `limit` lines. -/
def statements : Nat → List Char → Option (List Statement)
  | 0, _ => none
  | limit + 1, cs =>
      match skipBlanks cs with
      | [] => some []
      | c :: rest =>
          if c == '#' || c == '\n' || c == '\r' then
            match endLine? (c :: rest) with
            | some rest => statements limit rest
            | none => none
          else
            match statement? (c :: rest) with
            | none => none
            | some (s, rest) =>
                match endLine? rest with
                | some rest => (statements limit rest).map (s :: ·)
                | none => none

/-! ## 3. Texts -/

/-- The header that is in force, and the table so far. -/
structure Building where
  header : List String := []
  root : Entries := []

/-- Takes one statement. -/
def Building.take (b : Building) : Statement → Option Building
  | .pair path name value => (defineAt b.header path name value b.root).map ({ b with root := · })
  | .table path => (openTable path b.root).map (⟨path, ·⟩)
  | .element path => (openElement path b.root).map (⟨path, ·⟩)

/-- The characters of a text behind its byte order mark. -/
def dropMark : List Char → List Char
  | '\ufeff' :: rest => rest
  | cs => cs

/-- The table that a text stands for, if it is well formed and defines no name twice. -/
def parse (text : String) : Option Entries :=
  let cs := dropMark text.toList
  match statements (cs.length + 1) cs with
  | none => none
  | some all => (all.foldlM Building.take {}).map (·.root)

end SatLink.Toml
