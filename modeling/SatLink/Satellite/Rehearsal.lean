import SatLink.Satellite.Basic
import SatLink.Satellite.Radio

/-!
# Rehearsals

A rehearsal runs a satellite against a scripted radio, with the turns of its two tasks in a fixed
order, and notes what an observer would see of it.

* `Rehearsal.handle` — the manager alone takes one event and goes on until it asks for the next;
* `Rehearsal.post` — the application posts an event;
* `Rehearsal.settle` — both tasks go on until neither can;
* `Rehearsal.isStuck` — the manager is left waiting for an event that nobody will post.

The radio answers at once, so the manager waits for nothing but queues and the end of the script.
The decoder takes its bytes before the manager goes on, but the event of a frame comes late: the
manager goes on as far as it can before the event is posted.
-/

namespace SatLink

open Session (State Event Wait Activity)

/-- What an observer sees. -/
inductive Observation where
  | entered (state : State)
  | asked (wait : Wait)
  | sent (frame : List UInt8)
  | dispatched (command : Command)
  deriving DecidableEq

/-- A satellite and its radio. -/
structure Rehearsal where
  satellite : Satellite
  radio : Radio

namespace Rehearsal

/-- The frame that an activity sends. -/
def frame? : Activity → Option (List UInt8)
  | .sending frame _ | .shipping frame _ => some frame
  | _ => none

/-- What is seen of the manager's turn. -/
def seen (before after : Session.Manager) (reply : Session.Reply) : List Observation :=
  let sent :=
    match frame? before.activity, reply with
    | some frame, .performed (.ok ()) => [.sent frame]
    | _, _ => []
  sent ++ ((Session.Manager.entered? before after).map .entered).toList ++
    (after.wait?.map .asked).toList

/-- The manager takes a reply. -/
def tell (r : Rehearsal) (reply : Session.Reply) : List Observation × Rehearsal :=
  let satellite := r.satellite.tell reply
  (seen r.satellite.manager satellite.manager reply, { r with satellite })

/-- The manager's turn, if it does not wait. -/
def manage? (r : Rehearsal) : Option (List Observation × Rehearsal) :=
  match r.satellite.answer? with
  | some (.queued (.error .full), _) | some (.collected (.error .empty), _) => none
  | some (reply, satellite) => some ({ r with satellite }.tell reply)
  | none =>
      match r.radio.answer? r.satellite.manager.activity with
      | some (reply, radio) => some ({ r with radio }.tell reply)
      | none => none

/-- The decoder's turn, if there is a byte for it. -/
def decode? (r : Rehearsal) : Option (List Observation × Rehearsal) :=
  r.satellite.decode?.map fun (commands, satellite) =>
    (commands.map .dispatched, { r with satellite })

/-- The decoder's turn, if there is room for the event that it holds. -/
def deliver? (r : Rehearsal) : Option (List Observation × Rehearsal) :=
  r.satellite.deliver?.map fun satellite => ([], { r with satellite })

/-- The turn when everybody waits: a wait of the manager for a queue runs out. The wait for the
    transmit queue is short. All others are equally long, so that of an event which the decoder
    holds ends first, for it began before the manager's. -/
def timeOut? (r : Rehearsal) : Option (List Observation × Rehearsal) :=
  match r.satellite.answer? with
  | some (.collected (.error .empty), _) => some (r.tell (.collected (.error .empty)))
  | some (.queued (.error .full), _) =>
      match r.satellite.held with
      | some _ => some ([], { r with satellite := r.satellite.forgo })
      | none => some (r.tell (.queued (.error .full)))
  | _ => none

/-- Takes turns while `turn?` has one, at most `limit` of them. -/
def run (turn? : Rehearsal → Option (List Observation × Rehearsal)) :
    Nat → Rehearsal → List Observation × Rehearsal
  | 0, r => ([], r)
  | limit + 1, r =>
      match turn? r with
      | none => ([], r)
      | some (seen, r) =>
          let (rest, r) := run turn? limit r
          (seen ++ rest, r)

/-- How much there is to do: what the radio will hear, and what the queues and the decoder hold. -/
def load (r : Rehearsal) : Nat :=
  r.radio.script.length + r.satellite.events.items.length + r.satellite.bytes.items.length +
    r.satellite.downlink.queue.items.length + r.satellite.held.toList.length

/-- More turns than there can be: one item causes a byte to be forwarded and decoded, or one event
    with at most a score of turns until the next item is asked for. -/
def turns (r : Rehearsal) : Nat := 32 * (r.load + 2)

/-- The manager's turn, unless it waits for an event. -/
def work? (r : Rehearsal) : Option (List Observation × Rehearsal) :=
  match r.satellite.manager.activity with
  | .idle => none
  | _ => r.manage? <|> r.timeOut?

/-- The manager takes one event and goes on until it waits for the next. -/
def handle (r : Rehearsal) (event : Event) : List Observation × Rehearsal :=
  let (seen, r) := r.tell (.event event)
  let (rest, r) := run work? r.turns r
  (seen ++ rest, r)

/-- The application posts an event. It waits for a full queue as long as the decoder does, whose
    wait began earlier and ends first. -/
def post (r : Rehearsal) (event : Event) : Except SendFault Unit × Rehearsal :=
  match r.satellite.post event with
  | (.error .full, satellite) => (.error .full, { r with satellite := satellite.forgo })
  | (posted, satellite) => (posted, { r with satellite })

/-- Both tasks go on until neither can. -/
def settle (r : Rehearsal) : List Observation × Rehearsal :=
  run (fun r => r.decode? <|> r.manage? <|> r.deliver? <|> r.timeOut?) r.turns r

/-- The manager waits for an event in the middle of a session. Once both tasks have settled, nobody
    but the application will post one. -/
def isStuck (r : Rehearsal) : Bool :=
  r.satellite.manager.activity == .idle && r.satellite.manager.state != .disconnected

end Rehearsal

end SatLink
