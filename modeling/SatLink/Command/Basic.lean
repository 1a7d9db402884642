import SatLink.Error

/-!
# Commands

What the ground asks the satellite to do.

* `Kind` — the fourteen kinds of command and the sentinel that ends a list of them;
* `Action` — a kind with its fields;
* `Command` — an action with its timestamp; a time-tagged command runs at that time and not on
  receipt.
-/

namespace SatLink

namespace Command

/-! ## 1. Kinds -/

/-- The kinds of command, and the end of a list. -/
inductive Kind where
  | endOfFrame
  | execObcReset
  | rtcSync
  | downlinkLogsNextPass
  | microSdFormat
  | ping
  | downlinkTelem
  | uplinkDisc
  | setProgrammingSession
  | eraseApp
  | downloadData
  | verifyCrc
  | i2cProbe
  | arm
  | execute
  deriving DecidableEq

namespace Kind

/-- Every kind, in the order of their codes. -/
def all : List Kind :=
  [.endOfFrame, .execObcReset, .rtcSync, .downlinkLogsNextPass, .microSdFormat, .ping,
    .downlinkTelem, .uplinkDisc, .setProgrammingSession, .eraseApp, .downloadData, .verifyCrc,
    .i2cProbe, .arm, .execute]

theorem mem_all (k : Kind) : k ∈ all := by cases k <;> decide

/-- The code of a kind on the wire. -/
def code : Kind → UInt8
  | .endOfFrame => 0
  | .execObcReset => 1
  | .rtcSync => 2
  | .downlinkLogsNextPass => 3
  | .microSdFormat => 4
  | .ping => 5
  | .downlinkTelem => 6
  | .uplinkDisc => 7
  | .setProgrammingSession => 8
  | .eraseApp => 9
  | .downloadData => 10
  | .verifyCrc => 11
  | .i2cProbe => 12
  | .arm => 13
  | .execute => 14

/-- The name of a kind. -/
def name : Kind → String
  | .endOfFrame => "EndOfFrame"
  | .execObcReset => "ExecObcReset"
  | .rtcSync => "RtcSync"
  | .downlinkLogsNextPass => "DownlinkLogsNextPass"
  | .microSdFormat => "MicroSdFormat"
  | .ping => "Ping"
  | .downlinkTelem => "DownlinkTelem"
  | .uplinkDisc => "UplinkDisc"
  | .setProgrammingSession => "SetProgrammingSession"
  | .eraseApp => "EraseApp"
  | .downloadData => "DownloadData"
  | .verifyCrc => "VerifyCrc"
  | .i2cProbe => "I2cProbe"
  | .arm => "Arm"
  | .execute => "Execute"

/-- The bit of an id byte that marks a time-tagged command. -/
def timeTaggedBit : UInt8 := 0x80

/-- The kind that an id byte announces, time-tagged or not. -/
def ofId (byte : UInt8) : Except LinkError Kind :=
  let code := byte &&& ~~~timeTaggedBit
  match all.find? (·.code == code) with
  | some kind => .ok kind
  | none => .error (.unsupportedCommand code)

end Kind

/-! ## 2. Actions -/

/-- A command's kind with its fields. -/
inductive Action where
  | execObcReset
  | rtcSync (unixTime : UInt32)
  | downlinkLogsNextPass (logLevel : UInt8)
  | microSdFormat
  | ping
  | downlinkTelem
  | uplinkDisc
  | setProgrammingSession (session : UInt8)
  | eraseApp
  | downloadData (session : UInt8) (length : UInt16) (address : UInt32)
  | verifyCrc
  | i2cProbe
  | arm (data id : UInt32)
  | execute (data id : UInt32)
  deriving DecidableEq

namespace Action

/-- The kind of an action. -/
def kind : Action → Kind
  | .execObcReset => .execObcReset
  | .rtcSync _ => .rtcSync
  | .downlinkLogsNextPass _ => .downlinkLogsNextPass
  | .microSdFormat => .microSdFormat
  | .ping => .ping
  | .downlinkTelem => .downlinkTelem
  | .uplinkDisc => .uplinkDisc
  | .setProgrammingSession _ => .setProgrammingSession
  | .eraseApp => .eraseApp
  | .downloadData _ _ _ => .downloadData
  | .verifyCrc => .verifyCrc
  | .i2cProbe => .i2cProbe
  | .arm _ _ => .arm
  | .execute _ _ => .execute

/-- How many bytes the fields take. -/
def fieldsLength : Action → Nat
  | .rtcSync _ => 4
  | .downlinkLogsNextPass _ => 1
  | .setProgrammingSession _ => 1
  | .downloadData _ _ _ => 7
  | .arm _ _ => 8
  | .execute _ _ => 8
  | _ => 0

/-- The fields by name, in the order they are sent. -/
def fields : Action → List (String × Nat)
  | .rtcSync unixTime => [("unix_time", unixTime.toNat)]
  | .downlinkLogsNextPass logLevel => [("log_level", logLevel.toNat)]
  | .setProgrammingSession session => [("session", session.toNat)]
  | .downloadData session length address =>
      [("session", session.toNat), ("length", length.toNat), ("address", address.toNat)]
  | .arm data id => [("arm_data", data.toNat), ("arm_id", id.toNat)]
  | .execute data id => [("execute_data", data.toNat), ("execute_id", id.toNat)]
  | _ => []

end Action

end Command

/-! ## 3. Commands -/

/-- One command of an uplink. -/
structure Command where
  timestamp : UInt32
  timeTagged : Bool
  action : Command.Action
  deriving DecidableEq

namespace Command

/-- A command that runs on receipt. -/
def immediate (action : Action) : Command := ⟨0, false, action⟩

/-- A command that runs at a time. -/
def scheduled (action : Action) (time : UInt32) : Command := ⟨time, true, action⟩

/-- The kind of a command. -/
def kind (c : Command) : Kind := c.action.kind

/-- Id and timestamp. -/
def headerLength : Nat := 5

/-- How many bytes a packed command takes. -/
def packedLength (c : Command) : Nat := headerLength + c.action.fieldsLength

end Command

end SatLink
