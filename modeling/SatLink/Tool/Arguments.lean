import SatLink.Frame.Control
import SatLink.Text.Numeral
import SatLink.Text.Pieces
import SatLink.Tool.Page

/-!
# The command line

`ground_station [--config FILE] COMMAND ...`, where the command is one of

* `encode COMMANDS... [--at TIME] [--iv IV]`
* `control conn|disc|ack`
* `decode FRAME`
* `decode-downlink FRAME`
* `help [COMMAND]`

Arguments are read from left to right, and the first one that is out of place rejects the command
line; a request for help counts only if it stands before that.
-/

namespace SatLink.Tool

/-! ## 1. Requests -/

/-- What the tool does with a frame. -/
inductive Task where
  /-- One frame for some commands, all of them at one time if there is one. -/
  | encode (commands : List String) (time : Option UInt32) (iv : Option String)
  | control (command : Frame.Control)
  | decode (frame : String)
  | decodeDownlink (frame : String)
  deriving DecidableEq

/-- A task, and the path of the configuration to do it under. -/
structure Request where
  config : Option String
  task : Task
  deriving DecidableEq

/-- Why a command line has no request. -/
inductive Stop where
  | usage
  | page (page : Page)
  deriving DecidableEq

/-! ## 2. Words -/

/-- How an argument is written. -/
inductive Word where
  | plain (text : String)
  /-- Two dashes: what follows is plain. -/
  | escape
  | long (name : String) (value : Option String)
  | short (letter : Char) (attached : List Char)
  deriving DecidableEq

/-- The way an argument is written; a single dash is plain. -/
def Word.ofText (text : String) : Word :=
  match text.toList with
  | ['-', '-'] => .escape
  | '-' :: '-' :: option =>
      let (name, value) := Text.splitFirst '=' option
      .long (String.ofList name) (value.map String.ofList)
  | '-' :: letter :: attached => .short letter attached
  | _ => .plain text

/-- An argument can be the value of the option before it. -/
def isPlain (text : String) : Bool :=
  match Word.ofText text with
  | .plain _ => true
  | _ => false

/-- The value attached to the letter of an option; an equals sign in between does not count. -/
def attachedValue? : List Char → Option String
  | [] => none
  | '=' :: value => some (String.ofList value)
  | value => some (String.ofList value)

/-! ## 3. Commands of the tool -/

/-- A setting that may be given once. -/
def once {α : Type} (before : Option α) (now : Option α) : Except Stop (Option α) :=
  match before, now with
  | none, some a => .ok (some a)
  | _, _ => .error .usage

/-- A time: a number of 32 bits, or a zero with a minus sign in front. -/
def readTime? (text : String) : Option UInt32 :=
  let read := fun (bound : Nat) (digits : List Char) =>
    (Text.Numeral.read bound digits).toOption.map Nat.toUInt32
  match text.toList with
  | '-' :: '+' :: _ => none
  | '-' :: digits => read 1 digits
  | digits => read UInt32.size digits

/-- The arguments of `encode` that were read so far. -/
structure Draft where
  commands : List String := []
  time : Option UInt32 := none
  iv : Option String := none
  deriving DecidableEq

namespace Draft

/-- Takes the value of an option. -/
def set (d : Draft) : String → String → Except Stop Draft
  | "at", value => do pure { d with time := ← once d.time (readTime? value) }
  | "iv", value => do pure { d with iv := ← once d.iv (some value) }
  | _, _ => .error .usage

/-- Takes commands. -/
def add (d : Draft) (commands : List String) : Draft :=
  { d with commands := d.commands ++ commands }

/-- The task, which is to encode at least one command. -/
def finish (d : Draft) : Except Stop Task :=
  if d.commands = [] then .error .usage else .ok (.encode d.commands d.time d.iv)

/-- Reads on. -/
def read (d : Draft) : List String → Except Stop Task
  | [] => d.finish
  | argument :: rest =>
      match Word.ofText argument with
      | .plain text => (d.add [text]).read rest
      | .escape => (d.add rest).finish
      | .long "help" none => .error (.page .encode)
      | .long name (some value) => do (← d.set name value).read rest
      | .long name none =>
          match rest with
          | [] => .error .usage
          | value :: rest =>
              if isPlain value then do (← d.set name value).read rest else .error .usage
      | .short 'h' _ => .error (.page .encode)
      | .short _ _ => .error .usage

end Draft

/-- Reads on when there has to be exactly one argument, which was perhaps found already. -/
def readSingle {α : Type} (page : Page) (ofText? : String → Option α) (found : Option α) :
    List String → Except Stop α
  | [] => found.elim (.error .usage) .ok
  | argument :: rest =>
      match Word.ofText argument with
      | .plain text => do readSingle page ofText? (← once found (ofText? text)) rest
      | .escape =>
          match found, rest with
          | some a, [] => .ok a
          | none, [text] => (ofText? text).elim (.error .usage) .ok
          | _, _ => .error .usage
      | .long "help" none => .error (.page page)
      | .short 'h' _ => .error (.page page)
      | _ => .error .usage

/-- The connection-control command of a name. -/
def controlOf? : String → Option Frame.Control
  | "conn" => some .conn
  | "disc" => some .disc
  | "ack" => some .ack
  | _ => none

/-- The page that `help` is asked for. -/
def pageOf? : List String → Option Page
  | [] => some .overview
  | ["encode"] => some .encode
  | ["control"] => some .control
  | ["decode"] => some .decode
  | ["decode-downlink"] => some .decodeDownlink
  | ["help"] => some .help
  | _ => none

/-- Reads a command of the tool. -/
def readTask (rest : List String) : String → Except Stop Task
  | "encode" => Draft.read {} rest
  | "control" => (readSingle .control controlOf? none rest).map .control
  | "decode" => (readSingle .decode some none rest).map .decode
  | "decode-downlink" => (readSingle .decodeDownlink some none rest).map .decodeDownlink
  | "help" => .error ((pageOf? rest).elim .usage .page)
  | _ => .error .usage

/-! ## 4. Whole command lines -/

/-- Takes the path of the configuration, which is not empty. -/
def setConfig (config : Option String) (path : String) : Except Stop (Option String) :=
  once config (if path.isEmpty then none else some path)

/-- Reads on when the path of the configuration was perhaps given already. -/
def readRequest (config : Option String) : List String → Except Stop Request
  | [] => .error .usage
  | argument :: rest =>
      let fromNext := fun (_ : Unit) =>
        match rest with
        | [] => .error .usage
        | path :: rest =>
            if isPlain path then do readRequest (← setConfig config path) rest
            else .error .usage
      match Word.ofText argument with
      | .plain command => do pure { config, task := ← readTask rest command }
      | .long "config" (some path) => do readRequest (← setConfig config path) rest
      | .long "config" none => fromNext ()
      | .short 'c' attached =>
          match attachedValue? attached with
          | some path => do readRequest (← setConfig config path) rest
          | none => fromNext ()
      | .long "help" none => .error (.page .overview)
      | .short 'h' _ => .error (.page .overview)
      | .long "version" none => .error (.page .version)
      | .short 'V' _ => .error (.page .version)
      | _ => .error .usage

/-- What a command line asks for. -/
def parse (arguments : List String) : Except Stop Request := readRequest none arguments

end SatLink.Tool
