import SatLink.Command.Basic
import SatLink.Text.Blank
import SatLink.Text.Numeral
import SatLink.Text.Pieces
import SatLink.Text.Quoted

/-!
# Commands as text

An operator writes an action as its name, and behind an equals sign its fields in decimal, with
commas between them: `download-data=1,128,4096`. Empty pieces between commas do not count, and white
space around a number does not matter.

* `Action.ofText` — reads an action;
* `Action.toText` — writes one;
* `TextFault` — what can be wrong with a text, and its wording.
-/

namespace SatLink.Command

open Text (Numeral.Fault)

/-! ## 1. Faults -/

/-- Why a text is not an action. -/
inductive TextFault where
  | unknownName (name : String)
  | badNumber (name : String) (cause : Numeral.Fault)
  | wrongCount (name : String) (expected given : Nat)
  | outOfRange (name : String) (value : Nat)
  deriving DecidableEq

namespace TextFault

/-- The wording of a fault. -/
def message : TextFault → String
  | .unknownName name => "unknown command " ++ Text.quoted name
  | .badNumber name _ => "bad argument for " ++ name
  | .wrongCount name expected given => s!"{name} takes {expected} argument(s), got {given}"
  | .outOfRange name value => s!"{value} is out of range for {name}"

/-- The wording of what is behind a fault. -/
def cause? : TextFault → Option String
  | .badNumber _ cause => some cause.message
  | _ => none

end TextFault

/-! ## 2. Names and fields -/

/-- What stands behind a name: the fields, and the action they make. -/
inductive Shape where
  | plain (action : Action)
  | byte (make : UInt8 → Action)
  | word (make : UInt32 → Action)
  | twoWords (make : UInt32 → UInt32 → Action)
  | download

namespace Shape

/-- How many fields there are. -/
def arity : Shape → Nat
  | .plain _ => 0
  | .byte _ => 1
  | .word _ => 1
  | .twoWords _ => 2
  | .download => 3

/-- The shape of a name. -/
def ofName? : String → Option Shape
  | "obc-reset" => some (.plain .execObcReset)
  | "rtc-sync" => some (.word .rtcSync)
  | "downlink-logs" => some (.byte .downlinkLogsNextPass)
  | "micro-sd-format" => some (.plain .microSdFormat)
  | "ping" => some (.plain .ping)
  | "downlink-telem" => some (.plain .downlinkTelem)
  | "disconnect" => some (.plain .uplinkDisc)
  | "set-programming-session" => some (.byte .setProgrammingSession)
  | "erase-app" => some (.plain .eraseApp)
  | "download-data" => some .download
  | "verify-crc" => some (.plain .verifyCrc)
  | "i2c-probe" => some (.plain .i2cProbe)
  | "arm" => some (.twoWords .arm)
  | "execute" => some (.twoWords .execute)
  | _ => none

/-- A number of a field that is narrower than a number. -/
def narrow (name : String) (bound value : Nat) : Except TextFault Nat :=
  if value < bound then .ok value else .error (.outOfRange name value)

/-- A field of eight bits. -/
def byteField (name : String) (value : Nat) : Except TextFault UInt8 :=
  (narrow name UInt8.size value).map Nat.toUInt8

/-- A field of sixteen bits. -/
def halfField (name : String) (value : Nat) : Except TextFault UInt16 :=
  (narrow name UInt16.size value).map Nat.toUInt16

/-- A field of 32 bits. -/
def wordField (name : String) (value : Nat) : Except TextFault UInt32 :=
  (narrow name UInt32.size value).map Nat.toUInt32

/-- The action of a name and the numbers behind it. Their count is looked at first, then each of
    them in turn. -/
def fill (name : String) : Shape → List Nat → Except TextFault Action
  | .plain action, [] => pure action
  | .byte make, [a] => do pure (make (← byteField name a))
  | .word make, [a] => do pure (make (← wordField name a))
  | .twoWords make, [a, b] => do pure (make (← wordField name a) (← wordField name b))
  | .download, [session, length, address] => do
      pure (.downloadData (← byteField name session) (← halfField name length)
        (← wordField name address))
  | shape, values => .error (.wrongCount name shape.arity values.length)

end Shape

/-! ## 3. Reading and writing -/

/-- The numbers behind a name. -/
def numbers (name : String) (text : List Char) : Except TextFault (List Nat) :=
  ((Text.pieces ',' text).filter (!·.isEmpty)).mapM fun piece =>
    (Text.Numeral.read UInt64.size (Text.trimmed piece)).mapError (.badNumber name)

namespace Action

/-- The action that a text asks for. -/
def ofText (text : String) : Except TextFault Action :=
  let (name, fields) := Text.splitFirst '=' text.toList
  let name := String.ofList name
  match Shape.ofName? name with
  | none => .error (.unknownName name)
  | some shape => do shape.fill name (← numbers name (fields.getD []))

/-- The name that an operator gives an action. -/
def commandName : Action → String
  | .execObcReset => "obc-reset"
  | .rtcSync _ => "rtc-sync"
  | .downlinkLogsNextPass _ => "downlink-logs"
  | .microSdFormat => "micro-sd-format"
  | .ping => "ping"
  | .downlinkTelem => "downlink-telem"
  | .uplinkDisc => "disconnect"
  | .setProgrammingSession _ => "set-programming-session"
  | .eraseApp => "erase-app"
  | .downloadData _ _ _ => "download-data"
  | .verifyCrc => "verify-crc"
  | .i2cProbe => "i2c-probe"
  | .arm _ _ => "arm"
  | .execute _ _ => "execute"

/-- The text of an action. -/
def toText (a : Action) : String :=
  match a.fields with
  | [] => a.commandName
  | fields => a.commandName ++ "=" ++ ",".intercalate (fields.map fun (_, value) => toString value)

end Action

end SatLink.Command
