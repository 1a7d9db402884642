/-!
# The two ends of the link

The satellite and the ground station share one frequency and one set of settings; which of the two
is *local* decides the addresses a frame carries.
-/

namespace SatLink

/-- One end of the link. -/
inductive Station where
  | cubesat
  | groundStation
  deriving DecidableEq

namespace Station

/-- The other end. -/
def peer : Station → Station
  | .cubesat => .groundStation
  | .groundStation => .cubesat

/-- The name a station has in messages. -/
def name : Station → String
  | .cubesat => "Cubesat"
  | .groundStation => "GroundStation"

@[simp] theorem peer_peer (s : Station) : s.peer.peer = s := by cases s <;> rfl

theorem peer_ne (s : Station) : s.peer ≠ s := by cases s <;> decide

end Station

end SatLink
