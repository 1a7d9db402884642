import SatLink.Command.Wire
import SatLink.Config.Basic
import SatLink.ReedSolomon.Decode

/-!
# The uplink

Commands are packed, encrypted, encoded, framed and stuffed; the receiver undoes these steps in
reverse. The information field is corrected before the check sequence is verified, so damage within
the reach of the code goes unnoticed, and nothing of a frame that fails any step is kept.
-/

namespace SatLink.Uplink

open SatLink.Frame (Received)

/-- What one frame turned into. -/
inductive Decoded where
  | control (command : Frame.Control) (pollFinal : Bool)
  | commands (commands : List Command)
  deriving DecidableEq

/-- The frame with its information field corrected, if it is an information frame. -/
def corrected (frame : List UInt8) : Except LinkError (List UInt8) := do
  match ← Frame.peek frame with
  | .information =>
      let info ← Frame.infoField frame
      match ReedSolomon.correct info with
      | (.ok _, word) => pure (Frame.withInfoField frame word)
      | (.error e, _) => throw e
  | _ => pure frame

/-- Unstuffs a frame, corrects its information field and reads it. -/
def deframe (stuffed : List UInt8) : Except LinkError Received := do
  let frame ← Frame.unstuffFrame stuffed
  Frame.receive (← corrected frame)

/-- One station's end of the uplink. -/
structure Flow where
  cipher : Cipher.Context
  addresses : LinkAddresses
  deriving DecidableEq

namespace Flow

/-- The flow of a station under a configuration. -/
def ofConfig (c : Config) (station : Station) : Except LinkError Flow := do
  pure ⟨c.cipher, ← c.linkAddresses station⟩

/-- How many bytes of plaintext a frame takes. -/
def capacity (f : Flow) : Nat := f.cipher.capacity

/-- The stuffed frame of a plaintext. -/
def encodePacket (f : Flow) (plaintext : List UInt8) (iv : Block 16) :
    Except LinkError (List UInt8) := do
  let block ← f.cipher.sealBlock plaintext iv
  Frame.stuffFrame (Frame.infoFrame f.addresses.header {} (ReedSolomon.encode block))

/-- The stuffed frame of a list of commands. -/
def encodeCommands (f : Flow) (commands : List Command) (iv : Block 16) :
    Except LinkError (List UInt8) :=
  match Command.packList (List.replicate f.capacity 0) commands with
  | (.ok used, payload) => f.encodePacket (payload.take used) iv
  | (.error e, _) => .error e

/-- The stuffed frame of a connection-control command. -/
def encodeControl (f : Flow) (command : Frame.Control) (pollFinal : Bool) :
    Except LinkError (List UInt8) :=
  Frame.stuffFrame (Frame.controlFrame f.addresses.header command pollFinal)

/-- Decodes a stuffed frame. -/
def decodePacket (f : Flow) (stuffed : List UInt8) : Except LinkError Decoded := do
  let received ← deframe stuffed
  if !f.addresses.isForUs received.header.dest then throw (.frame .otherStation)
  match received with
  | .control _ command pollFinal => pure (.control command pollFinal)
  | .data _ _ info =>
      let plaintext ← f.cipher.openBlock (ReedSolomon.message info)
      pure (.commands (← Command.unpackList plaintext))

end Flow

end SatLink.Uplink
