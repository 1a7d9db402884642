import SatLink.Error

/-!
# Control fields

* `FrameType` — the low bits of the first control byte tell the three kinds of frame apart;
* `Control` — the connection-control commands of unnumbered frames, one byte with a poll/final bit;
* `Sequence` — the two control bytes of an information frame: N(S), N(R) and the poll bit.
-/

namespace SatLink.Frame

/-! ## 1. Kinds of frame -/

/-- The three kinds of frame. -/
inductive FrameType where
  | information
  | supervisory
  | unnumbered
  deriving DecidableEq

namespace FrameType

/-- The kind that the first control byte announces. -/
def ofControl (byte : UInt8) : FrameType :=
  if byte &&& 0b01 = 0 then .information
  else if byte &&& 0b10 = 0 then .supervisory
  else .unnumbered

/-- The name of a kind of frame. -/
def name : FrameType → String
  | .information => "Information"
  | .supervisory => "Supervisory"
  | .unnumbered => "Unnumbered"

end FrameType

/-! ## 2. Connection control -/

/-- What an unnumbered frame asks for: to connect (SABME), to disconnect, or to acknowledge (UA). -/
inductive Control where
  | conn
  | disc
  | ack
  deriving DecidableEq

namespace Control

/-- The control byte of a command, its poll/final bit clear. -/
def code : Control → UInt8
  | .conn => 0x6F
  | .disc => 0x43
  | .ack => 0x63

/-- The poll/final bit. -/
def pollFinalBit : UInt8 := 0x10

/-- The control byte of a command. -/
def controlByte (c : Control) (pollFinal : Bool) : UInt8 :=
  c.code ||| (if pollFinal then pollFinalBit else 0)

/-- The command of a control byte, and its poll/final bit. -/
def ofControl? (byte : UInt8) : Option (Control × Bool) :=
  let pollFinal := byte &&& pollFinalBit != 0
  let code := byte &&& ~~~pollFinalBit
  if code = Control.conn.code then some (.conn, pollFinal)
  else if code = Control.disc.code then some (.disc, pollFinal)
  else if code = Control.ack.code then some (.ack, pollFinal)
  else none

/-- The name of a command. -/
def name : Control → String
  | .conn => "Conn"
  | .disc => "Disc"
  | .ack => "Ack"

theorem ofControl?_controlByte (c : Control) (p : Bool) :
    ofControl? (c.controlByte p) = some (c, p) := by
  cases c <;> cases p <;> decide

end Control

/-! ## 3. Sequence numbers -/

/-- The control field of an information frame, modulo 128. -/
structure Sequence where
  send : UInt8 := 0
  receive : UInt8 := 0
  poll : Bool := false
  deriving DecidableEq

namespace Sequence

/-- A control field, for sequence numbers of seven bits. -/
def make (send receive : UInt8) (poll : Bool) : Except LinkError Sequence :=
  if 127 < send || 127 < receive then .error (.argument .sequenceNumber)
  else .ok { send, receive, poll }

/-- The two bytes of a control field; a number of eight bits loses its top one. -/
def toBytes (s : Sequence) : List UInt8 :=
  [s.send <<< 1, (s.receive <<< 1) ||| (if s.poll then 1 else 0)]

/-- The control field that two bytes spell. -/
def ofBytes (first second : UInt8) : Sequence :=
  { send := first >>> 1, receive := second >>> 1, poll := second &&& 1 != 0 }

end Sequence

end SatLink.Frame
