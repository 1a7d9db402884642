import SatLink.Frame.Address
import SatLink.Frame.Control
import SatLink.Frame.Fcs
import SatLink.Frame.Stuffing

/-!
# Frames

Between its flags a frame holds the destination, the source, a control field, the protocol id `F0`,
the information field of an information frame, and the check sequence over all of these.

* `infoFrame` and `controlFrame` build the two kinds of frame that this link sends;
* `peek` reads the kind of a frame without checking it;
* `receive` reads a frame back, and refuses what the builders do not build.

All frames here are unstuffed and carry their flags.
-/

namespace SatLink.Frame

/-! ## 1. Building -/

/-- The protocol id for "no layer 3". -/
def protocolId : UInt8 := 0xF0

/-- The length of an information field: one codeword. -/
abbrev infoLength : Nat := 255

/-- flag, addresses, control, protocol id, check sequence, flag -/
def controlFrameLength : Nat := 20

/-- flag, addresses, control, protocol id, information field, check sequence, flag -/
def infoFrameLength : Nat := 276

/-- The addresses of a frame. -/
structure Header where
  dest : Address
  src : Address
  deriving DecidableEq

namespace Header

/-- The bytes of a header. -/
def toBytes (h : Header) : List UInt8 := h.dest.toBytes ++ h.src.toBytes

end Header

/-- A content, its check sequence and the flags around them. -/
def sealed (content : List UInt8) : List UInt8 :=
  flagged (content ++ Fcs.toBytes (Fcs.checksum content))

/-- An information frame. -/
def infoFrame (header : Header) (control : Sequence) (info : Block infoLength) : List UInt8 :=
  sealed (header.toBytes ++ (control.toBytes ++ protocolId :: info.bytes))

/-- An unnumbered frame. -/
def controlFrame (header : Header) (command : Control) (pollFinal : Bool) : List UInt8 :=
  sealed (header.toBytes ++ [command.controlByte pollFinal, protocolId])

/-! ## 2. Reading -/

/-- What a frame of this link turns out to be. -/
inductive Received where
  | control (header : Header) (command : Control) (pollFinal : Bool)
  | data (header : Header) (control : Sequence) (info : Block infoLength)
  deriving DecidableEq

/-- The addresses of a received frame. -/
def Received.header : Received → Header
  | .control header _ _ => header
  | .data header _ _ => header

/-- The kind of a frame, read without checking it. -/
def peek (frame : List UInt8) : Except LinkError FrameType :=
  if h : hasFlags frame ∧ controlFrameLength ≤ frame.length then
    have bound : 15 < frame.length := Nat.lt_of_lt_of_le (by decide) h.2
    .ok (FrameType.ofControl frame[15])
  else .error (.frame .tooShort)

/-- The information field of a frame that has the length of an information frame. -/
def infoField (frame : List UInt8) : Except LinkError (Block infoLength) :=
  if h : frame.length = infoFrameLength then
    .ok ⟨(frame.drop 18).take infoLength, by simp [h, infoFrameLength, infoLength]⟩
  else .error (.frame .infoLength)

/-- The frame with another information field. -/
def withInfoField (frame : List UInt8) (info : Block infoLength) : List UInt8 :=
  frame.take 18 ++ (info.bytes ++ frame.drop (18 + infoLength))

/-- What stands behind the header of an unnumbered frame. -/
def receiveControl (header : Header) : List UInt8 → Except LinkError Received
  | [control, pid] =>
      if pid ≠ protocolId then .error (.frame .protocolId)
      else
        match Control.ofControl? control with
        | some (command, pollFinal) => .ok (.control header command pollFinal)
        | none => .error (.frame .controlCommand)
  | _ => .error (.frame .controlLength)

/-- What stands behind the header of an information frame. -/
def receiveData (header : Header) : List UInt8 → Except LinkError Received
  | first :: second :: pid :: info =>
      if h : info.length = infoLength then
        if pid ≠ protocolId then .error (.frame .protocolId)
        else .ok (.data header (Sequence.ofBytes first second) ⟨info, h⟩)
      else .error (.frame .infoLength)
  | _ => .error (.frame .infoLength)

/-- Reads a frame: its kind, its check sequence, its addresses, and then what its kind asks for. -/
def receive (frame : List UInt8) : Except LinkError Received := do
  let kind ← peek frame
  let inner := body frame
  let content := inner.take (inner.length - 2)
  match inner.drop (inner.length - 2) with
  | [low, high] =>
      let computed := Fcs.checksum content
      let received := Fcs.ofBytes low high
      if computed ≠ received then throw (.fcsMismatch computed received)
      let dest ← Address.ofBytes (content.take 7)
      let src ← Address.ofBytes ((content.drop 7).take 7)
      match kind with
      | .unnumbered => receiveControl ⟨dest, src⟩ (content.drop 14)
      | .information => receiveData ⟨dest, src⟩ (content.drop 14)
      | .supervisory => throw (.frame .supervisory)
  | _ => throw (.frame .tooShort)

end SatLink.Frame
