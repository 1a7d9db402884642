import SatLink.Downlink.Encoder
import SatLink.Session.Table
import SatLink.Uplink.Flow

/-!
# The manager of a session

The manager owns the state of the session. Each event leads to a state, and each state has an
activity: to listen for one frame, to send one, to empty the transmit queue. An activity asks its
surroundings for one thing at a time, and the outcome of the whole is posted as the next event.

* `Activity` — what the manager waits for; `Reply` — what it is told;
* `Manager.step` — takes one reply and goes on to the next wait; a reply to a question that is not
  asked changes nothing;
* `Manager.wait?` — how long it asks to listen.

An event that the state does not take ends the session, and so does an activity that fails: it is
reported as an error event, or, if no event can be posted, the session ends at once.
-/

namespace SatLink.Session

/-! ## 1. Listening -/

/-- What of a frame has been heard. -/
inductive Heard where
  | nothing
  /-- Flags, and nothing between them. -/
  | flag
  /-- A flag and a byte behind it. -/
  | body
  deriving DecidableEq

/-- What has been heard after one more byte; `none` if the byte closes the frame. -/
def Heard.after (byte : UInt8) : Heard → Option Heard
  | .nothing => some (if byte = Frame.flag then .flag else .nothing)
  | .flag => some (if byte = Frame.flag then .flag else .body)
  | .body => if byte = Frame.flag then none else some .body

/-- How long the next byte may take. -/
inductive Wait where
  /-- Within a frame, the time between two bytes. -/
  | interByte
  /-- Before it, what is left of the time to listen. -/
  | listening (left : Nat)
  deriving DecidableEq

/-! ## 2. Activities -/

/-- What the manager waits for. -/
inductive Activity where
  /-- The next event. -/
  | idle
  /-- A byte from the radio. -/
  | listening (heard : Heard)
  /-- The decoder's queue takes a byte; `heard` is what was heard before it. -/
  | forwarding (byte : UInt8) (heard : Heard)
  /-- The radio takes a frame, whose completion is then posted. -/
  | sending (frame : List UInt8) (completion : Event)
  /-- The next item of the transmit queue, after `sent` frames. -/
  | collecting (sent : Nat)
  /-- The radio takes the next frame of a downlink. -/
  | shipping (frame : List UInt8) (sent : Nat)
  /-- The radio comes back to a known state. -/
  | reinitializing
  /-- The event queue takes the outcome of the activity. -/
  | posting (outcome : Event)
  /-- The event queue takes the news that the activity failed. -/
  | reporting (cause : LinkError)
  deriving DecidableEq

/-- What the manager is told. -/
inductive Reply where
  | event (event : Event)
  /-- The radio's answer to a request for a byte; no byte means that time ran out. -/
  | received (outcome : Except LinkError (Option UInt8))
  /-- A queue took an item, or did not in time. -/
  | queued (outcome : Except SendFault Unit)
  /-- The transmit queue's next item, or that none came in time. -/
  | collected (outcome : Except ReceiveFault Downlink.Item)
  /-- The radio sent what it was given, or came back to a known state. -/
  | performed (outcome : Except LinkError Unit)

/-- The state of the session, the attempts to connect that had no answer, what is left of the time
    to listen, and the current activity. -/
structure Manager where
  state : State := .disconnected
  retries : Nat := 0
  window : Option Nat := none
  activity : Activity := .idle
  deriving DecidableEq

namespace Manager

/-- No session. -/
def initial : Manager := {}

/-- How long the manager asks to listen for the next byte. -/
def wait? (m : Manager) : Option Wait :=
  match m.activity with
  | .listening .body => some .interByte
  | .listening _ => some (.listening (m.window.getD 0))
  | _ => none

/-- Time passes. -/
def elapse (m : Manager) (time : Nat) : Manager := { m with window := m.window.map (· - time) }

/-! ## 3. Starting an activity -/

/-- Listens for a frame, for `time` counted from the first start. -/
def listen (m : Manager) (time : Nat) : Manager :=
  { m with window := some (m.window.getD time), activity := .listening .nothing }

/-- Sends a connection-control frame with its poll bit set. -/
def sendControl (m : Manager) (flow : Uplink.Flow) (command : Frame.Control) (completion : Event) :
    Manager :=
  match flow.encodeControl command true with
  | .ok frame => { m with activity := .sending frame completion }
  | .error cause => { m with activity := .reporting cause }

/-- Goes on with a downlink after `sent` frames; a full pass is over. -/
def collect (m : Manager) (c : Config) (sent : Nat) : Manager :=
  if sent < c.maxDownlinkFrames then { m with activity := .collecting sent }
  else { m with activity := .posting .downlinkFinished }

/-- Starts the activity of the state. -/
def start (m : Manager) (c : Config) (flow : Uplink.Flow) : Manager :=
  match m.state with
  | .disconnected => { m with retries := 0, activity := .idle }
  | .awaitingConn | .uplinking | .emergencyUplink => m.listen c.connTimeout
  | .awaitingAckDisc | .awaitingAckConn => m.listen c.ackTimeout
  | .sendingConn => m.sendControl flow .conn .connSent
  | .sendingAck => m.sendControl flow .ack .ackSent
  | .sendingDisc => m.sendControl flow .disc .discSent
  | .downlinking => m.collect c 0
  | .enteringEmergency => { m with activity := .reinitializing }

/-- Takes an event: enters the state it leads to, or ends the session, and starts the activity
    there. After a dropped frame the time to listen goes on; otherwise it starts anew. -/
def process (m : Manager) (c : Config) (flow : Uplink.Flow) (event : Event) : Manager :=
  let state := (transition? m.state event).getD .disconnected
  let resumes := event == .frameDropped && state.isReceiving
  let window := if resumes then m.window else none
  start { m with state := state, window := window } c flow

/-! ## 4. Steps -/

/-- The activity failed. -/
def fail (m : Manager) (cause : LinkError) : Manager := { m with activity := .reporting cause }

/-- Nothing more was heard in time. A connection that was asked for is asked for again while there
    are attempts left. -/
def timedOut (m : Manager) (c : Config) : Manager :=
  if m.state = .awaitingAckConn ∧ m.retries < c.maxConnRetries then
    { m with retries := m.retries + 1, activity := .posting .noAck }
  else m.fail .timeout

/-- Takes one reply. -/
def step (c : Config) (flow : Uplink.Flow) (m : Manager) (reply : Reply) : Manager :=
  match m.activity, reply with
  | .idle, .event event => m.process c flow event
  | .listening heard, .received (.ok (some byte)) => { m with activity := .forwarding byte heard }
  | .listening _, .received (.ok none) => m.timedOut c
  | .listening _, .received (.error .timeout) => m.timedOut c
  | .listening _, .received (.error cause) => m.fail cause
  | .forwarding byte heard, .queued (.ok ()) =>
      match heard.after byte with
      | some heard => { m with activity := .listening heard }
      | none => { m with activity := .idle }
  | .forwarding _ _, .queued (.error fault) => m.fail fault.toError
  | .sending _ completion, .performed (.ok ()) => { m with activity := .posting completion }
  | .sending _ _, .performed (.error cause) => m.fail cause
  | .collecting sent, .collected (.ok (.packet frame)) =>
      { m with activity := .shipping frame sent }
  | .collecting _, .collected (.ok .endOfDownlink) =>
      { m with activity := .posting .downlinkFinished }
  | .collecting _, .collected (.error .empty) => { m with activity := .posting .downlinkFinished }
  | .collecting _, .collected (.error .closed) => m.fail .channelClosed
  | .shipping _ sent, .performed (.ok ()) => m.collect c (sent + 1)
  | .shipping _ _, .performed (.error cause) => m.fail cause
  | .reinitializing, .performed (.ok ()) => { m with activity := .posting .emergencyInitialized }
  | .reinitializing, .performed (.error cause) => m.fail cause
  | .posting _, .queued (.ok ()) => { m with activity := .idle }
  | .posting _, .queued (.error fault) => m.fail fault.toError
  | .reporting _, .queued (.ok ()) => { m with activity := .idle }
  | .reporting _, .queued (.error _) => { m with state := .disconnected, activity := .idle }
  | _, _ => m

/-- The state that a step entered; an observer hears of changes only. -/
def entered? (before after : Manager) : Option State :=
  if after.state = before.state then none else some after.state

end Manager

end SatLink.Session
