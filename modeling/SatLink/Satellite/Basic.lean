import SatLink.Session.Manager
import SatLink.Uplink.Decoder

/-!
# The satellite's side of the link

Two tasks run on the satellite: the manager, which owns the session and the radio, and the decoder,
which turns received bytes into events and commands. Queues join them: bytes go from the manager to
the decoder, events from the decoder, the application and the manager itself to the manager, and
frames from the downlink's encoder to the manager.

* `Satellite.answer?` — what the queues answer to the question that the manager asks;
* `Satellite.tell` — the manager takes an answer, of a queue or of the radio;
* `Satellite.decode?` — the decoder takes its next byte;
* `Satellite.deliver?` — the decoder posts the event that it holds;
* `Satellite.forgo` — it has waited too long for that;
* `Satellite.post` and `Satellite.sendTelemetry` — what the application does.

The two tasks take turns in any order; each of these steps is one turn.
-/

namespace SatLink

open Session (Event Manager Reply)

/-- The two tasks and the queues between them. -/
structure Satellite where
  config : Config
  flow : Uplink.Flow
  manager : Manager
  decoder : Uplink.Decoder
  /-- The event that the decoder has yet to post; meanwhile it takes no byte. -/
  held : Option Event := none
  events : Queue Event
  bytes : Queue UInt8
  downlink : Downlink.Encoder

namespace Satellite

/-- A satellite at rest. -/
def make (c : Config) (addresses : LinkAddresses) : Satellite where
  config := c
  flow := ⟨c.cipher, addresses⟩
  manager := .initial
  decoder := .initial
  events := Queue.ofCapacity c.eventQueueLength
  bytes := Queue.ofCapacity c.decodeQueueLength
  downlink := { addresses, queue := Queue.ofCapacity c.transmitQueueLength }

/-- The satellite of a configuration that a link can be run with. -/
def launch (c : Config) : Except LinkError Satellite := do
  c.validate
  pure (make c (← c.linkAddresses .cubesat))

/-! ## 1. The manager's turn -/

/-- Queues an event for the manager. -/
def post (s : Satellite) (event : Event) : Except SendFault Unit × Satellite :=
  match s.events.send event with
  | .ok events => (.ok (), { s with events })
  | .error fault => (.error fault, s)

/-- What the queues answer to the manager, if it asks a queue and there is an answer. That a queue
    is full or empty is the answer at the end of a wait in which that does not change. -/
def answer? (s : Satellite) : Option (Reply × Satellite) :=
  match s.manager.activity with
  | .idle =>
      match s.events.receive with
      | .ok (event, events) => some (.event event, { s with events })
      | .error _ => none
  | .forwarding byte _ =>
      match s.bytes.send byte with
      | .ok bytes => some (.queued (.ok ()), { s with bytes })
      | .error fault => some (.queued (.error fault), s)
  | .collecting _ =>
      match s.downlink.queue.receive with
      | .ok (item, queue) =>
          some (.collected (.ok item), { s with downlink := { s.downlink with queue } })
      | .error fault => some (.collected (.error fault), s)
  | .posting event =>
      let (taken, s) := s.post event
      some (.queued taken, s)
  | .reporting _ =>
      let (taken, s) := s.post .error
      some (.queued taken, s)
  | .listening _ | .sending _ _ | .shipping _ _ | .reinitializing => none

/-- The manager takes an answer. -/
def tell (s : Satellite) (reply : Reply) : Satellite :=
  { s with manager := s.manager.step s.config s.flow reply }

/-! ## 2. The decoder's turn -/

/-- The decoder takes its next byte, unless it holds an event. It hands out the commands of the
    frame that the byte closes, and holds the frame's event from then on. -/
def decode? (s : Satellite) : Option (List Command × Satellite) :=
  match s.held, s.bytes.receive with
  | some _, _ | none, .error _ => none
  | none, .ok (byte, bytes) =>
      match s.decoder.push s.config.flagTimeout byte with
      | (none, decoder) => some ([], { s with bytes, decoder })
      | (some frame, decoder) =>
          let reaction := s.flow.react frame
          some (reaction.commands, { s with bytes, decoder, held := some reaction.event })

/-- The decoder no longer waits to post the event that it holds; the event is lost. -/
def forgo (s : Satellite) : Satellite := { s with held := none }

/-- The decoder posts the event that it holds, and waits if the manager's queue is full. If nobody
    reads the queue, the event is lost. -/
def deliver? (s : Satellite) : Option Satellite :=
  match s.held with
  | none => none
  | some event =>
      match s.post event with
      | (.error .full, _) => none
      | (.ok (), s) | (.error .closed, s) => some s.forgo

/-! ## 3. The application -/

/-- Queues all of a source for the transmitter. -/
def sendTelemetry (s : Satellite) (source : Telemetry.Source) : Except LinkError Nat × Satellite :=
  let (frames, downlink, _) := s.downlink.sendTelemetry source
  (frames, { s with downlink })

end Satellite

end SatLink
