import SatLink.Error

/-!
# Telemetry records

A record is a sample of one quantity at one time. The quantity fixes the kind of its value, so a
record carries the proof that its value is of that kind. Values of 32-bit floating point are kept as
their bits.
-/

namespace SatLink.Telemetry

/-! ## 1. Kinds of value -/

/-- The kinds of value. -/
inductive ValueKind where
  | float32
  | uint8
  | uint32
  deriving DecidableEq

namespace ValueKind

/-- How many bytes a value of a kind takes. -/
def size : ValueKind → Nat
  | .float32 => 4
  | .uint8 => 1
  | .uint32 => 4

/-- The name of a kind. -/
def name : ValueKind → String
  | .float32 => "F32"
  | .uint8 => "U8"
  | .uint32 => "U32"

end ValueKind

/-- A value; `float32` holds the bits of a floating-point number. -/
inductive Value where
  | float32 (bits : UInt32)
  | uint8 (value : UInt8)
  | uint32 (value : UInt32)
  deriving DecidableEq

/-- The kind of a value. -/
def Value.kind : Value → ValueKind
  | .float32 _ => .float32
  | .uint8 _ => .uint8
  | .uint32 _ => .uint32

/-! ## 2. Quantities -/

/-- What is measured. -/
inductive Id where
  | cc1120Temp
  | commsCustomTransceiverTemp
  | obcTemp
  | adcsMagBoardTemp
  | adcsSensorBoardTemp
  | epsBoardTemp
  | solarPanel1Temp
  | solarPanel2Temp
  | solarPanel3Temp
  | solarPanel4Temp
  | epsComms5vCurrent
  | epsComms3v3Current
  | epsMagnetorquer8vCurrent
  | epsAdcs5vCurrent
  | epsAdcs3v3Current
  | epsObc3v3Current
  | epsComms5vVoltage
  | epsComms3v3Voltage
  | epsMagnetorquer8vVoltage
  | epsAdcs5vVoltage
  | epsAdcs3v3Voltage
  | epsObc3v3Voltage
  | obcState
  | epsState
  | logFileNumber
  | numCspPacketsRcvd
  deriving DecidableEq

namespace Id

/-- Every quantity, in the order of their codes. -/
def all : List Id :=
  [.cc1120Temp, .commsCustomTransceiverTemp, .obcTemp, .adcsMagBoardTemp, .adcsSensorBoardTemp,
    .epsBoardTemp, .solarPanel1Temp, .solarPanel2Temp, .solarPanel3Temp, .solarPanel4Temp,
    .epsComms5vCurrent, .epsComms3v3Current, .epsMagnetorquer8vCurrent, .epsAdcs5vCurrent,
    .epsAdcs3v3Current, .epsObc3v3Current, .epsComms5vVoltage, .epsComms3v3Voltage,
    .epsMagnetorquer8vVoltage, .epsAdcs5vVoltage, .epsAdcs3v3Voltage, .epsObc3v3Voltage, .obcState,
    .epsState, .logFileNumber, .numCspPacketsRcvd]

theorem mem_all (i : Id) : i ∈ all := by cases i <;> decide

/-- The code of a quantity on the wire; zero is the code of none. -/
def code : Id → UInt8
  | .cc1120Temp => 1
  | .commsCustomTransceiverTemp => 2
  | .obcTemp => 3
  | .adcsMagBoardTemp => 4
  | .adcsSensorBoardTemp => 5
  | .epsBoardTemp => 6
  | .solarPanel1Temp => 7
  | .solarPanel2Temp => 8
  | .solarPanel3Temp => 9
  | .solarPanel4Temp => 10
  | .epsComms5vCurrent => 11
  | .epsComms3v3Current => 12
  | .epsMagnetorquer8vCurrent => 13
  | .epsAdcs5vCurrent => 14
  | .epsAdcs3v3Current => 15
  | .epsObc3v3Current => 16
  | .epsComms5vVoltage => 17
  | .epsComms3v3Voltage => 18
  | .epsMagnetorquer8vVoltage => 19
  | .epsAdcs5vVoltage => 20
  | .epsAdcs3v3Voltage => 21
  | .epsObc3v3Voltage => 22
  | .obcState => 23
  | .epsState => 24
  | .logFileNumber => 25
  | .numCspPacketsRcvd => 26

/-- The name of a quantity. -/
def name : Id → String
  | .cc1120Temp => "Cc1120Temp"
  | .commsCustomTransceiverTemp => "CommsCustomTransceiverTemp"
  | .obcTemp => "ObcTemp"
  | .adcsMagBoardTemp => "AdcsMagBoardTemp"
  | .adcsSensorBoardTemp => "AdcsSensorBoardTemp"
  | .epsBoardTemp => "EpsBoardTemp"
  | .solarPanel1Temp => "SolarPanel1Temp"
  | .solarPanel2Temp => "SolarPanel2Temp"
  | .solarPanel3Temp => "SolarPanel3Temp"
  | .solarPanel4Temp => "SolarPanel4Temp"
  | .epsComms5vCurrent => "EpsComms5vCurrent"
  | .epsComms3v3Current => "EpsComms3v3Current"
  | .epsMagnetorquer8vCurrent => "EpsMagnetorquer8vCurrent"
  | .epsAdcs5vCurrent => "EpsAdcs5vCurrent"
  | .epsAdcs3v3Current => "EpsAdcs3v3Current"
  | .epsObc3v3Current => "EpsObc3v3Current"
  | .epsComms5vVoltage => "EpsComms5vVoltage"
  | .epsComms3v3Voltage => "EpsComms3v3Voltage"
  | .epsMagnetorquer8vVoltage => "EpsMagnetorquer8vVoltage"
  | .epsAdcs5vVoltage => "EpsAdcs5vVoltage"
  | .epsAdcs3v3Voltage => "EpsAdcs3v3Voltage"
  | .epsObc3v3Voltage => "EpsObc3v3Voltage"
  | .obcState => "ObcState"
  | .epsState => "EpsState"
  | .logFileNumber => "LogFileNumber"
  | .numCspPacketsRcvd => "NumCspPacketsRcvd"

/-- The kind of value a quantity has. -/
def valueKind : Id → ValueKind
  | .obcState | .epsState => .uint8
  | .logFileNumber | .numCspPacketsRcvd => .uint32
  | _ => .float32

/-- The quantity of a code. -/
def ofCode (code : UInt8) : Except LinkError Id :=
  match all.find? (·.code == code) with
  | some id => .ok id
  | none => .error (.unsupportedTelemetry code)

end Id

/-! ## 3. Records -/

/-- A sample of a quantity. -/
structure Record where
  id : Id
  timestamp : UInt32
  value : Value
  kind_eq : value.kind = id.valueKind
  deriving DecidableEq

namespace Record

/-- A record, if the value is of the kind that the quantity has. -/
def make (id : Id) (timestamp : UInt32) (value : Value) : Except LinkError Record :=
  if h : value.kind = id.valueKind then .ok ⟨id, timestamp, value, h⟩
  else .error (.argument .telemetryKind)

/-- Id and timestamp. -/
def headerLength : Nat := 5

/-- How many bytes a packed record takes. -/
def packedLength (r : Record) : Nat := headerLength + r.value.kind.size

/-- The length of the largest packed record. -/
def maxPackedLength : Nat := 9

end Record

end SatLink.Telemetry
