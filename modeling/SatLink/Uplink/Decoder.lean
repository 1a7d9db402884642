import SatLink.Timer
import SatLink.Uplink.Accumulator
import SatLink.Uplink.Flow

/-!
# The decoder of the uplink

The decoder collects frames from the bytes that the manager forwards. A frame turns into one event,
and its commands are handed to the application in order.

* `Flow.react` — what a frame turns into; a frame that fails any layer is dropped;
* `Decoder.push` — takes one byte;
* `Decoder.elapse` — time passes: a frame whose closing flag does not come in time is forgotten;
* `Receiver.handle` and `Receiver.run` — the decoder at work: commands are handed to the application
  and events are posted.

Each frame has a generation of its own, so that the end of one frame's time cannot hit another.
-/

namespace SatLink.Uplink

/-! ## 1. Frames -/

/-- What a frame turns into. -/
structure Reaction where
  event : Session.Event
  commands : List Command := []
  deriving DecidableEq

/-- The event that a connection-control frame stands for. -/
def controlEvent : Frame.Control → Session.Event
  | .conn => .connReceived
  | .ack => .ackReceived
  | .disc => .discReceived

/-- The event that a list of commands stands for: one of them may ask to disconnect. -/
def commandsEvent (commands : List Command) : Session.Event :=
  if commands.any (·.kind == .uplinkDisc) then .startDisc else .uplinkFinished

/-- What a frame turns into. Every command is handed over, whether or not the application takes the
    ones before it. -/
def Flow.react (f : Flow) (frame : List UInt8) : Reaction :=
  match f.decodePacket frame with
  | .ok (.control command _) => { event := controlEvent command }
  | .ok (.commands commands) => { event := commandsEvent commands, commands := commands }
  | .error _ => { event := .frameDropped }

/-! ## 2. Streams -/

/-- The frame that is being collected, its generation, and the time it has left. -/
structure Decoder where
  accumulator : Accumulator := .hunting
  generation : Nat := 0
  timer : Timer Nat := .finished
  deriving DecidableEq

namespace Decoder

/-- Nothing has come yet. -/
def initial : Decoder := {}

/-- Takes one byte, and hands out the frame that it closes. The first byte behind a flag starts the
    timer; the closing flag stops it. -/
def push (d : Decoder) (flagTimeout : Nat) (byte : UInt8) : Option (List UInt8) × Decoder :=
  match d.accumulator.push byte with
  | (some frame, a) =>
      (some frame, { accumulator := a, generation := d.generation + 1, timer := d.timer.stop })
  | (none, a) =>
      if !d.accumulator.isMidFrame && a.isMidFrame then
        (none,
          { accumulator := a
            generation := d.generation + 1
            timer := Timer.start flagTimeout (d.generation + 1) })
      else (none, { d with accumulator := a })

/-- The time of a generation is up. -/
def expire (d : Decoder) (generation : Nat) : Decoder :=
  if generation = d.generation ∧ d.accumulator.isMidFrame then
    { d with accumulator := d.accumulator.reset, timer := .finished }
  else d

/-- Time passes. -/
def elapse (d : Decoder) (time : Nat) : Decoder :=
  match d.timer.elapse time with
  | (some generation, timer) => { d with timer := timer }.expire generation
  | (none, timer) => { d with timer := timer }

end Decoder

/-! ## 3. The manager and the application -/

/-- What came of a frame: every command that was handed over, with the application's answer, and the
    event that was posted. -/
structure Handled where
  frame : List UInt8
  answers : List (Command × Except LinkError Unit)
  event : Session.Event

/-- A decoder at work, with the queue of the manager's events and the application that takes
    commands. The application is in a state of its own, which each command may change. -/
structure Receiver (σ : Type) where
  flow : Flow
  flagTimeout : Nat
  dispatch : σ → Command → Except LinkError Unit × σ
  application : σ
  events : Queue Session.Event
  decoder : Decoder := .initial

namespace Receiver

variable {σ : Type}

/-- Hands commands over one after the other, and notes whether one of them asks to disconnect. A
    command that the application refuses does not keep it from the next. -/
def dispatchAll (r : Receiver σ) :
    List Command → List (Command × Except LinkError Unit) × Bool × Receiver σ
  | [] => ([], false, r)
  | command :: rest =>
      let (answer, application) := r.dispatch r.application command
      let (answers, disconnect, r) := dispatchAll { r with application } rest
      ((command, answer) :: answers, command.kind == .uplinkDisc || disconnect, r)

/-- Posts an event; the manager never hears of one that its queue does not take in time. -/
def post (r : Receiver σ) (event : Session.Event) : Receiver σ :=
  { r with events := r.events.offer event }

/-- Decodes a frame, hands its commands over, and posts its event. -/
def handle (r : Receiver σ) (frame : List UInt8) : Handled × Receiver σ :=
  let (answers, event, r) :=
    match r.flow.decodePacket frame with
    | .ok (.control command _) => ([], controlEvent command, r)
    | .ok (.commands commands) =>
        let (answers, disconnect, r) := r.dispatchAll commands
        (answers, if disconnect then .startDisc else .uplinkFinished, r)
    | .error _ => ([], .frameDropped, r)
  (⟨frame, answers, event⟩, r.post event)

/-- Takes one byte, and handles the frame that it closes. -/
def take (r : Receiver σ) (byte : UInt8) : Option Handled × Receiver σ :=
  match r.decoder.push r.flagTimeout byte with
  | (some frame, decoder) =>
      let (handled, r) := { r with decoder }.handle frame
      (some handled, r)
  | (none, decoder) => (none, { r with decoder })

/-- Takes a string of bytes. -/
def run (r : Receiver σ) : List UInt8 → List Handled × Receiver σ
  | [] => ([], r)
  | byte :: bytes =>
      let (first, r) := r.take byte
      let (rest, r) := run r bytes
      (first.toList ++ rest, r)

end Receiver

end SatLink.Uplink
