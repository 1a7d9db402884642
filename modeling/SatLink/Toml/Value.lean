/-!
# Values of a configuration text

A text is a table of named values. The tables of a text are opened in several ways, and how a table
was opened decides whether it may be opened again or added to:

* `Value` — strings, numbers, dates, arrays and tables;
* `atPath` — changes the table that a path of keys leads to, making the tables on the way;
* `define`, `openTable`, `openElement` — what the three kinds of statement do to the whole table.

A name that is defined twice, and a path through something that is no table, give `none`.
-/

namespace SatLink.Toml

/-! ## 1. Values -/

/-- How a table was opened. -/
inductive Form where
  /-- By a header of its own. -/
  | header
  /-- By the header of a table below it. -/
  | implied
  /-- By a key with dots. -/
  | dotted
  /-- In braces; nothing can be added behind them. -/
  | inline
  deriving DecidableEq

/-- A value; numbers with a fraction and dates keep their spelling. -/
inductive Value where
  | string (text : String)
  | integer (value : Int)
  | float (text : String)
  | boolean (value : Bool)
  | dateTime (text : String)
  | array (items : List Value)
  | table (form : Form) (entries : List (String × Value))
  /-- The tables of an array that is written element by element. -/
  | tables (elements : List (List (String × Value)))

/-- Named values in the order of their definition. -/
abbrev Entries := List (String × Value)

/-- Sets the value of a name, at its place if it has one. -/
def Entries.set (es : Entries) (name : String) (value : Value) : Entries :=
  if es.any (·.1 == name) then es.map fun e => if e.1 == name then (name, value) else e
  else es ++ [(name, value)]

/-! ## 2. Paths -/

/-- The table that opens when a path leads through a name without a value. -/
def newForm (dotted : Bool) : Form := if dotted then .dotted else .implied

/-- Changes the entries of the table that a path leads to. A path of dotted keys does not lead into
    a table with a header of its own; a path into an array of tables leads to the last of them. -/
def atPath (dotted : Bool) (change : Form → Entries → Option Entries) :
    List String → Form → Entries → Option Entries
  | [], form, es => change form es
  | name :: path, _, es =>
      match es.lookup name with
      | none =>
          (atPath dotted change path (newForm dotted) []).map fun sub =>
            Entries.set es name (.table (newForm dotted) sub)
      | some (.table form sub) =>
          if form = .inline ∨ (dotted ∧ form = .header) then none
          else (atPath dotted change path form sub).map fun sub =>
            Entries.set es name (.table form sub)
      | some (.tables elements) =>
          match elements.getLast? with
          | none => none
          | some last =>
              (atPath dotted change path .header last).map fun last =>
                Entries.set es name (.tables (elements.dropLast ++ [last]))
      | some _ => none

/-! ## 3. Statements -/

/-- Defines a name in a table. Dotted keys add to tables that dotted keys opened, and to no
    others. -/
def define (byPath : Bool) (name : String) (value : Value) (form : Form) (es : Entries) :
    Option Entries :=
  if (form == .dotted) != byPath then none
  else if (es.lookup name).isSome then none
  else some (es ++ [(name, value)])

/-- Defines a value under a path of keys below the table of a header. -/
def defineAt (header path : List String) (name : String) (value : Value) (root : Entries) :
    Option Entries :=
  atPath false (fun form es => atPath true (define (!path.isEmpty) name value) path form es) header
    .header root

/-- Opens a table by its header: a new one, or one that only headers below it have opened. -/
def openTable (path : List String) (root : Entries) : Option Entries :=
  match path.getLast? with
  | none => none
  | some name =>
      atPath false
        (fun _ es =>
          match es.lookup name with
          | none => some (es ++ [(name, .table .header [])])
          | some (.table .implied sub) => some (Entries.set es name (.table .header sub))
          | some _ => none)
        path.dropLast .header root

/-- Opens the next table of an array of tables. -/
def openElement (path : List String) (root : Entries) : Option Entries :=
  match path.getLast? with
  | none => none
  | some name =>
      atPath false
        (fun _ es =>
          match es.lookup name with
          | none => some (es ++ [(name, .tables [[]])])
          | some (.tables elements) => some (Entries.set es name (.tables (elements ++ [[]])))
          | some _ => none)
        path.dropLast .header root

/-- The table in braces that pairs of a path, a name and a value make. -/
def ofPairs (pairs : List (List String × String × Value)) : Option Entries :=
  pairs.foldlM
    (fun es (path, name, value) =>
      atPath true (define (!path.isEmpty) name value) path .inline es)
    []

end SatLink.Toml
