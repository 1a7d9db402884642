import SatLink.Telemetry.Wire

/-!
# Where telemetry comes from

Records wait to be sent in memory, or packed in a store that is read in pieces.

* `Store` — the bytes of a store that are still to be read, and how the next reads go: each gives at
  most so many bytes, or fails; once the plan is used up nothing limits a read;
* `StoreReader` — unpacks the records of a store one by one; bytes that were read and not yet
  unpacked wait in a buffer, so no record is cut where one read ends and the next begins;
* `Source` — either of the two, pulled by `Source.next`.
-/

namespace SatLink.Telemetry

/-! ## 1. Stores -/

/-- How one read of a store goes. -/
inductive Piece where
  /-- It gives at most `n` bytes; no byte at all means the end of the data. -/
  | atMost (n : Nat)
  | fails (reason : String)
  deriving DecidableEq

/-- A store that is read in pieces. -/
structure Store where
  data : List UInt8
  plan : List Piece := []

namespace Store

/-- Reads up to `n` bytes. -/
def read (s : Store) (n : Nat) : Except LinkError (List UInt8) × Store :=
  match s.plan with
  | [] => (.ok (s.data.take n), { s with data := s.data.drop n })
  | .atMost k :: plan => (.ok (s.data.take (min n k)), ⟨s.data.drop (min n k), plan⟩)
  | .fails reason :: plan => (.error (.transport reason), { s with plan := plan })

end Store

/-! ## 2. Reading a store -/

/-- The largest piece that is asked for at once. -/
def chunkLength : Nat := 256

/-- A store, the bytes read from it, the offset of the next record in them, and whether the store
    has come to its end. -/
structure StoreReader where
  store : Store
  buffer : List UInt8 := []
  offset : Nat := 0
  exhausted : Bool := false

namespace StoreReader

/-- Reads until the buffer holds a whole record or the store has come to its end, in at most `limit`
    reads; a failed read ends it. -/
def refill : Nat → StoreReader → Except LinkError Unit × StoreReader
  | 0, r => (.ok (), r)
  | limit + 1, r =>
      if r.exhausted || decide (Record.maxPackedLength ≤ r.buffer.length) then (.ok (), r)
      else
        match r.store.read chunkLength with
        | (.error e, store) => (.error e, { r with store := store })
        | (.ok bytes, store) =>
            refill limit
              { r with
                store := store
                buffer := r.buffer ++ bytes
                exhausted := bytes.isEmpty }

/-- Forgets the bytes that are unpacked and reads more. Every read brings a byte or the end, so
    there are no more reads than bytes in a record. -/
def fill (r : StoreReader) : Except LinkError Unit × StoreReader :=
  refill Record.maxPackedLength { r with buffer := r.buffer.drop r.offset, offset := 0 }

/-- The next record; `none` at padding and at the end. -/
def next (r : StoreReader) : Except LinkError (Option Record) × StoreReader :=
  let (filled, r) :=
    if r.buffer.length - r.offset < Record.maxPackedLength then r.fill else (.ok (), r)
  match filled with
  | .error e => (.error e, r)
  | .ok () =>
      let (record, offset) := Record.unpack r.buffer r.offset
      (record, { r with offset := offset })

end StoreReader

/-! ## 3. Sources -/

/-- Telemetry that waits to be sent. -/
inductive Source where
  | records (pending : List Record)
  | store (reader : StoreReader)

namespace Source

/-- Adds a record behind those in memory. -/
def push (s : Source) (r : Record) : Source :=
  match s with
  | .records pending => .records (pending ++ [r])
  | .store reader => .store reader

/-- The source that reads a store from its start. -/
def ofStore (store : Store) : Source := .store { store }

/-- The next record; `none` once there is none. -/
def next : Source → Except LinkError (Option Record) × Source
  | .records [] => (.ok none, .records [])
  | .records (r :: pending) => (.ok (some r), .records pending)
  | .store reader =>
      let (record, reader) := reader.next
      (record, .store reader)

/-- A number that falls with every record pulled: the records in memory, or the bytes to unpack. -/
def size : Source → Nat
  | .records pending => pending.length
  | .store reader => (reader.buffer.length - reader.offset) + reader.store.data.length

end Source

end SatLink.Telemetry
