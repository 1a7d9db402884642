import SatLink.Error

/-!
# The transition table

* `transition?` — the state that an event leads to;
* `next` — the same, with the reason why there is none.

An error ends the session from every state, and a dropped frame keeps a listening state where it is.
-/

namespace SatLink.Session

/-- The state that an event leads to, if the state takes the event. -/
def transition? : State → Event → Option State
  | _, .error => some .disconnected
  | state, .frameDropped => if state.isReceiving then some state else none
  | .disconnected, .beginUplink => some .awaitingConn
  | .disconnected, .enterEmergency => some .enteringEmergency
  | .disconnected, .beginDownlink => some .downlinking
  | .awaitingConn, .connReceived => some .sendingAck
  | .sendingConn, .connSent => some .awaitingAckConn
  | .sendingAck, .ackSent => some .uplinking
  | .awaitingAckConn, .ackReceived => some .emergencyUplink
  | .awaitingAckConn, .noAck => some .sendingConn
  | .uplinking, .uplinkFinished => some .downlinking
  | .uplinking, .startDisc => some .sendingDisc
  | .downlinking, .downlinkFinished => some .sendingDisc
  | .sendingDisc, .discSent => some .awaitingAckDisc
  | .awaitingAckDisc, .ackReceived => some .disconnected
  | .enteringEmergency, .emergencyInitialized => some .sendingConn
  | .emergencyUplink, .uplinkFinished => some .disconnected
  | _, _ => none

/-- The state that an event leads to. -/
def next (state : State) (event : Event) : Except LinkError State :=
  match transition? state event with
  | some next => .ok next
  | none => .error (.invalidTransition state event)

@[simp] theorem transition?_error (state : State) :
    transition? state .error = some .disconnected := by
  cases state <;> rfl

theorem transition?_frameDropped (state : State) :
    transition? state .frameDropped = if state.isReceiving then some state else none := by
  cases state <;> rfl

end SatLink.Session
