import SatLink.Station
import SatLink.Session.State

/-!
# What can go wrong on the link

Every failure is a cause; `LinkError.message` gives its wording. No bytes off the air stop a
station: a codec reports the first cause it meets and leaves the decision (drop the frame, retry,
hang up) to its caller.
-/

namespace SatLink

/-! ## 1. Faults of an argument, an address, a frame, a configuration -/

/-- Why a callsign and an SSID do not make an address. -/
inductive AddressFault where
  | tooLong
  | notAscii
  | ssidTooLarge
  deriving DecidableEq

/-- Arguments that no call may be made with. -/
inductive ArgumentFault where
  | addressLength
  | sequenceNumber
  | missingFlags
  | keyLength
  | plaintextTooLong
  | ciphertextTooLong
  | missingTag
  | messageLength
  | codewordLength
  | telemetryKind
  | recordTooLarge
  deriving DecidableEq

/-- Why a frame whose flags were found is not one of this link. -/
inductive FrameFault where
  | tooShort
  | infoLength
  | controlLength
  | protocolId
  | controlCommand
  | supervisory
  | otherStation
  | notTelemetry
  deriving DecidableEq

/-- Why a configuration is not used. -/
inductive ConfigFault where
  /-- The text is not a configuration; what exactly is wrong with it is not kept. -/
  | rejected
  | callsign (station : Station) (fault : AddressFault)
  | queueSize
  | timeout
  | unreadable (path reason : String)
  deriving DecidableEq

/-! ## 2. Errors -/

/-- The causes of a failed operation. -/
inductive LinkError where
  | address (fault : AddressFault)
  | argument (fault : ArgumentFault)
  | bufferTooSmall (needed available : Nat)
  | corruptedFrame
  | fcsMismatch (computed received : UInt16)
  | frame (fault : FrameFault)
  | uncorrectable
  | authenticationFailed
  | unsupportedCommand (id : UInt8)
  | unsupportedTelemetry (id : UInt8)
  | invalidTransition (state : Session.State) (event : Session.Event)
  | queueFull
  | timeout
  | channelClosed
  | transport (reason : String)
  | config (fault : ConfigFault)
  deriving DecidableEq

/-! ## 3. Wording -/

/-- The wording of an address fault. -/
def AddressFault.message : AddressFault → String
  | .tooLong => "callsign is longer than 6 characters"
  | .notAscii => "invalid argument: callsign must be 1 to 6 ASCII characters"
  | .ssidTooLarge => "invalid argument: SSID must fit in 4 bits"

/-- The wording of an argument fault. -/
def ArgumentFault.message : ArgumentFault → String
  | .addressLength => "address must be 7 bytes"
  | .sequenceNumber => "sequence numbers are 7 bits"
  | .missingFlags => "frame must start and end with a flag"
  | .keyLength => "AES key must be 16 bytes"
  | .plaintextTooLong => "plaintext exceeds the AES block capacity"
  | .ciphertextTooLong => "ciphertext exceeds the AES block capacity"
  | .missingTag => "GCM decryption needs a tag"
  | .messageLength => "RS message must be 223 bytes"
  | .codewordLength => "RS codeword must be 255 bytes"
  | .telemetryKind => "telemetry value type doesn't match its id"
  | .recordTooLarge => "telemetry record is larger than a downlink block"

/-- The wording of a frame fault. -/
def FrameFault.message : FrameFault → String
  | .tooShort => "frame is too short"
  | .infoLength => "I-frame has the wrong length"
  | .controlLength => "U-frame has the wrong length"
  | .protocolId => "unexpected protocol id"
  | .controlCommand => "unrecognized U-frame command"
  | .supervisory => "supervisory frames are not used on this link"
  | .otherStation => "frame is not addressed to this station"
  | .notTelemetry => "expected a telemetry I-frame"

/-- The wording of a configuration fault; a rejected text has none of its own. -/
def ConfigFault.message : ConfigFault → String
  | .rejected => ""
  | .callsign station fault => station.name ++ " callsign: " ++ fault.message
  | .queueSize => "queue sizes must be non-zero"
  | .timeout => "timeouts must be non-zero"
  | .unreadable path reason => path ++ ": " ++ reason

/-- Sixteen bits as four lower-case hexadecimal digits. -/
def hexWord (w : UInt16) : String :=
  String.ofList ([12, 8, 4, 0].map fun shift => Nat.digitChar ((w.toNat >>> shift) % 16))

/-- The wording of an error. -/
def LinkError.message : LinkError → String
  | .address fault => fault.message
  | .argument fault => "invalid argument: " ++ fault.message
  | .bufferTooSmall needed available =>
      s!"buffer too small: {needed} bytes needed, {available} available"
  | .corruptedFrame => "corrupted AX.25 frame"
  | .fcsMismatch computed received =>
      "FCS mismatch: computed 0x" ++ hexWord computed ++ ", received 0x" ++ hexWord received
  | .frame fault => "invalid AX.25 frame: " ++ fault.message
  | .uncorrectable => "Reed-Solomon block has more errors than can be corrected"
  | .authenticationFailed => "AES-GCM authentication failed"
  | .unsupportedCommand id => s!"unsupported command id {id.toNat}"
  | .unsupportedTelemetry id => s!"unsupported telemetry id {id.toNat}"
  | .invalidTransition state event =>
      "invalid transition from " ++ state.name ++ " on " ++ event.name
  | .queueFull => "queue is full"
  | .timeout => "timed out"
  | .channelClosed => "channel closed"
  | .transport reason => "transport error: " ++ reason
  | .config .rejected => "configuration error"
  | .config fault => "configuration error: " ++ fault.message

end SatLink
