import SatLink.Session.Manager

/-!
# A scripted radio

A radio whose script says what it hears, which frames it fails to send, and whether it can be
brought back to a known state. It stands in for a real one wherever a session has to go the same
way twice.
-/

namespace SatLink

open Session (Activity Reply)

/-- What the radio hears next. -/
inductive Reception where
  | byte (byte : UInt8)
  /-- Nothing, until time runs out. -/
  | silence
  | closed
  | failure
  deriving DecidableEq

/-- The rest of the script, and what the radio has been asked so far. -/
structure Radio where
  script : List Reception := []
  /-- Which frames it fails to send, counted from one. -/
  failingSends : List Nat := []
  failsReinit : Bool := false
  /-- At the end of the script a listener waits on; otherwise it hears silence. -/
  waits : Bool := false
  sends : Nat := 0
  reinits : Nat := 0
  deriving DecidableEq

namespace Radio

/-- The outcome of a reception. -/
def outcome : Reception → Except LinkError (Option UInt8)
  | .byte byte => .ok (some byte)
  | .silence => .ok none
  | .closed => .error .channelClosed
  | .failure => .error (.transport "scripted receive failure")

/-- More to hear. -/
def hear (r : Radio) (more : List Reception) : Radio := { r with script := r.script ++ more }

/-- Listens for a byte; nothing happens if the listener waits on. -/
def receive? (r : Radio) : Option (Except LinkError (Option UInt8) × Radio) :=
  match r.script with
  | next :: rest => some (outcome next, { r with script := rest })
  | [] => if r.waits then none else some (.ok none, r)

/-- Sends a frame. -/
def send (r : Radio) : Except LinkError Unit × Radio :=
  let r := { r with sends := r.sends + 1 }
  if r.sends ∈ r.failingSends then (.error (.transport "scripted send failure"), r) else (.ok (), r)

/-- Comes back to a known state. -/
def reinitialize (r : Radio) : Except LinkError Unit × Radio :=
  let r := { r with reinits := r.reinits + 1 }
  if r.failsReinit then (.error (.transport "scripted reinitialize failure"), r) else (.ok (), r)

/-- What the radio answers to the manager, if it is asked and does not keep the manager waiting. -/
def answer? (r : Radio) : Activity → Option (Reply × Radio)
  | .listening _ => r.receive?.map fun (heard, r) => (.received heard, r)
  | .sending _ _ | .shipping _ _ =>
      let (sent, r) := r.send
      some (.performed sent, r)
  | .reinitializing =>
      let (done, r) := r.reinitialize
      some (.performed done, r)
  | .idle | .forwarding _ _ | .collecting _ | .posting _ | .reporting _ => none

end Radio

end SatLink
