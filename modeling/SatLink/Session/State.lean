/-!
# States and events of a session

A session is half duplex: the satellite listens, sends or transmits, never two at once.

* `State` — what the satellite is doing; `State.isReceiving` marks the states that listen;
* `Event` — what moves it on: orders from the application, frames from the ground, and the
  completions its own activities post.
-/

namespace SatLink.Session

/-! ## 1. States -/

/-- What the satellite is doing. -/
inductive State where
  | disconnected
  | awaitingConn
  | sendingConn
  | sendingDisc
  | sendingAck
  | awaitingAckDisc
  | awaitingAckConn
  | uplinking
  | downlinking
  | enteringEmergency
  | emergencyUplink
  deriving DecidableEq

namespace State

/-- Every state, in the order they are listed to an operator. -/
def all : List State :=
  [.disconnected, .awaitingConn, .sendingConn, .sendingDisc, .sendingAck, .awaitingAckDisc,
    .awaitingAckConn, .uplinking, .downlinking, .enteringEmergency, .emergencyUplink]

theorem mem_all (s : State) : s ∈ all := by cases s <;> decide

/-- The states whose activity is to listen for a frame from the ground. -/
def isReceiving : State → Bool
  | .awaitingConn | .awaitingAckConn | .awaitingAckDisc | .uplinking | .emergencyUplink => true
  | _ => false

/-- The name a state has in messages. -/
def name : State → String
  | .disconnected => "Disconnected"
  | .awaitingConn => "AwaitingConn"
  | .sendingConn => "SendingConn"
  | .sendingDisc => "SendingDisc"
  | .sendingAck => "SendingAck"
  | .awaitingAckDisc => "AwaitingAckDisc"
  | .awaitingAckConn => "AwaitingAckConn"
  | .uplinking => "Uplinking"
  | .downlinking => "Downlinking"
  | .enteringEmergency => "EnteringEmergency"
  | .emergencyUplink => "EmergencyUplink"

end State

/-! ## 2. Events -/

/-- What can happen to a session. -/
inductive Event where
  | beginUplink
  | enterEmergency
  | beginDownlink
  | connReceived
  | connSent
  | ackSent
  | ackReceived
  | discReceived
  | noAck
  | uplinkFinished
  | startDisc
  | downlinkFinished
  | discSent
  | emergencyInitialized
  /-- A frame arrived that could not be decoded. -/
  | frameDropped
  | error
  deriving DecidableEq

namespace Event

/-- Every event. -/
def all : List Event :=
  [.beginUplink, .enterEmergency, .beginDownlink, .connReceived, .connSent, .ackSent, .ackReceived,
    .discReceived, .noAck, .uplinkFinished, .startDisc, .downlinkFinished, .discSent,
    .emergencyInitialized, .frameDropped, .error]

theorem mem_all (e : Event) : e ∈ all := by cases e <;> decide

/-- The name an event has in messages. -/
def name : Event → String
  | .beginUplink => "BeginUplink"
  | .enterEmergency => "EnterEmergency"
  | .beginDownlink => "BeginDownlink"
  | .connReceived => "ConnReceived"
  | .connSent => "ConnSent"
  | .ackSent => "AckSent"
  | .ackReceived => "AckReceived"
  | .discReceived => "DiscReceived"
  | .noAck => "NoAck"
  | .uplinkFinished => "UplinkFinished"
  | .startDisc => "StartDisc"
  | .downlinkFinished => "DownlinkFinished"
  | .discSent => "DiscSent"
  | .emergencyInitialized => "EmergencyInitialized"
  | .frameDropped => "FrameDropped"
  | .error => "Error"

/-- The event of a name. -/
def ofName? (s : String) : Option Event := all.find? (·.name == s)

end Event

/-- The state of a name. -/
def State.ofName? (s : String) : Option State := State.all.find? (·.name == s)

end SatLink.Session
