import SatLink.Config.Basic
import SatLink.Queue
import SatLink.ReedSolomon.Decode
import SatLink.Telemetry.Packer
import SatLink.Telemetry.Source

/-!
# The downlink, sending

Telemetry is packed into blocks; each block is encoded, framed with the next sequence number,
stuffed and queued for the transmitter, and a marker ends the pass.

A sequence number is used up when a block is encoded, whether or not the frame then finds room in
the queue.
-/

namespace SatLink.Downlink

open Telemetry (Source TelemetryBlock Packer)

/-- What waits for the transmitter. -/
inductive Item where
  /-- A stuffed frame. -/
  | packet (frame : List UInt8)
  /-- No more frames in this pass. -/
  | endOfDownlink
  deriving DecidableEq

/-- The addresses of the station, the next N(S), and the queue to the transmitter. -/
structure Encoder where
  addresses : LinkAddresses
  sequence : UInt8 := 0
  queue : Queue Item

namespace Encoder

/-- Encodes a block as a stuffed frame, and counts N(S) on modulo 128. -/
def encodeBlock (e : Encoder) (block : TelemetryBlock) : Except LinkError (List UInt8) × Encoder :=
  match Frame.Sequence.make e.sequence 0 false with
  | .error fault => (.error fault, e)
  | .ok control =>
      let frame := Frame.infoFrame e.addresses.header control (ReedSolomon.encode block)
      (Frame.stuffFrame frame, { e with sequence := (e.sequence + 1) % 128 })

/-- Queues an item for the transmitter. -/
def enqueue (e : Encoder) (item : Item) : Except LinkError Unit × Encoder :=
  match e.queue.send item with
  | .ok queue => (.ok (), { e with queue := queue })
  | .error fault => (.error fault.toError, e)

/-- Encodes a block and queues its frame. -/
def sendBlock (e : Encoder) (block : TelemetryBlock) : Except LinkError Unit × Encoder :=
  match e.encodeBlock block with
  | (.ok frame, e) => e.enqueue (.packet frame)
  | (.error fault, e) => (.error fault, e)

/-- Queues the block that a packer hands out, if any, and counts it. -/
def sendFlushed (e : Encoder) (frames : Nat) :
    Option TelemetryBlock → Except LinkError Nat × Encoder
  | none => (.ok frames, e)
  | some block =>
      match e.sendBlock block with
      | (.ok (), e) => (.ok (frames + 1), e)
      | (.error fault, e) => (.error fault, e)

/-- Packs the records of a source and queues every block that is full, for at most `limit` records;
    then the last block and the marker. -/
def sendFrom : Nat → Encoder → Packer → Nat → Source → Except LinkError Nat × Encoder × Source
  | 0, e, _, frames, source => (.ok frames, e, source)
  | limit + 1, e, packer, frames, source =>
      match source.next with
      | (.error fault, source) => (.error fault, e, source)
      | (.ok (some record), source) =>
          match packer.push record with
          | (.error fault, _) => (.error fault, e, source)
          | (.ok flushed, packer) =>
              match e.sendFlushed frames flushed with
              | (.error fault, e) => (.error fault, e, source)
              | (.ok frames, e) => sendFrom limit e packer frames source
      | (.ok none, source) =>
          match e.sendFlushed frames packer.finish.1 with
          | (.error fault, e) => (.error fault, e, source)
          | (.ok frames, e) =>
              match e.enqueue .endOfDownlink with
              | (.ok (), e) => (.ok frames, e, source)
              | (.error fault, e) => (.error fault, e, source)

/-- Sends all of a source, and answers with the number of frames queued. Pulling a record makes the
    source smaller, so its size is no limit. -/
def sendTelemetry (e : Encoder) (source : Source) : Except LinkError Nat × Encoder × Source :=
  sendFrom (source.size + 1) e Packer.empty 0 source

end Encoder

end SatLink.Downlink
