import SatLink.Decimal.Binary32
import SatLink.Downlink.Frame
import SatLink.Uplink.Flow

/-!
# Decoded frames as text

One line for a connection-control command, one for each command of an uplink, and for a downlink its
sequence number and one for each record.
-/

namespace SatLink.Tool

/-- Fields in braces. -/
def braced (fields : List (String × String)) : String :=
  "\x7b " ++ ", ".intercalate (fields.map fun (name, value) => name ++ ": " ++ value) ++ " \x7d"

/-- An action with its fields, if it has any. -/
def actionText (a : Command.Action) : String :=
  match a.fields with
  | [] => a.kind.name
  | fields => a.kind.name ++ " " ++ braced (fields.map fun (name, value) => (name, toString value))

/-- A command. -/
def commandText (c : Command) : String :=
  "CmdMsg " ++ braced
    [("timestamp", toString c.timestamp.toNat), ("is_time_tagged", toString c.timeTagged),
      ("data", actionText c.action)]

/-- The lines of an uplink frame. -/
def uplinkLines : Uplink.Decoded → List String
  | .control command pollFinal => [s!"{command.name} (P/F = {pollFinal})"]
  | .commands commands => commands.map commandText

/-- A number of some kind. -/
def valueText : Telemetry.Value → String
  | .float32 bits => Decimal.text32 bits
  | .uint8 value => toString value.toNat
  | .uint32 value => toString value.toNat

/-- A record. -/
def recordText (r : Telemetry.Record) : String :=
  r.id.name ++ " @ " ++ toString r.timestamp.toNat ++ ": " ++ r.value.kind.name ++ "(" ++
    valueText r.value ++ ")"

/-- The lines of a telemetry frame. -/
def downlinkLines (t : Downlink.TelemetryFrame) : List String :=
  s!"N(S) = {t.control.send.toNat}" :: t.records.map recordText

/-- Lines as a text. -/
def linesText (lines : List String) : String := String.join (lines.map (· ++ "\n"))

end SatLink.Tool
