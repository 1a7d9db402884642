import SatLink.Queue

/-!
# A link in memory

A pipe joins two ends. Bytes sent on one end are received on the other, in order, and each direction
holds a bounded number of them.
-/

namespace SatLink

/-- One of the two ends. -/
inductive PipeEnd where
  | near
  | far
  deriving DecidableEq

/-- Bytes on their way from either end. -/
structure Pipe where
  fromNear : Queue UInt8
  fromFar : Queue UInt8

namespace Pipe

/-- An empty pipe that holds `capacity` bytes in each direction. -/
def ofCapacity (capacity : Nat) : Pipe := ⟨Queue.ofCapacity capacity, Queue.ofCapacity capacity⟩

/-- The bytes on their way from an end. -/
def outgoing (p : Pipe) : PipeEnd → Queue UInt8
  | .near => p.fromNear
  | .far => p.fromFar

/-- The bytes on their way to an end. -/
def incoming (p : Pipe) : PipeEnd → Queue UInt8
  | .near => p.fromFar
  | .far => p.fromNear

/-- Replaces the bytes on their way from an end. -/
def setOutgoing (p : Pipe) (q : Queue UInt8) : PipeEnd → Pipe
  | .near => { p with fromNear := q }
  | .far => { p with fromFar := q }

/-- Replaces the bytes on their way to an end. -/
def setIncoming (p : Pipe) (q : Queue UInt8) : PipeEnd → Pipe
  | .near => { p with fromFar := q }
  | .far => { p with fromNear := q }

/-- Sends bytes from an end, up to the first that is not taken. -/
def send (e : PipeEnd) : List UInt8 → Pipe → Except LinkError Unit × Pipe
  | [], p => (.ok (), p)
  | byte :: bytes, p =>
      match (p.outgoing e).send byte with
      | .ok q => send e bytes (p.setOutgoing q e)
      | .error fault => (.error fault.toError, p)

/-- Receives a byte at an end; no byte if none comes in time. -/
def receive (e : PipeEnd) (p : Pipe) : Except LinkError (Option UInt8) × Pipe :=
  match (p.incoming e).receive with
  | .ok (byte, q) => (.ok (some byte), p.setIncoming q e)
  | .error .empty => (.ok none, p)
  | .error .closed => (.error .channelClosed, p)

/-- An end goes away. -/
def drop (e : PipeEnd) (p : Pipe) : Pipe :=
  let p := p.setOutgoing (p.outgoing e).dropWriter e
  p.setIncoming (p.incoming e).dropReader e

end Pipe

end SatLink
