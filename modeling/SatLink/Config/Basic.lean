import SatLink.Cipher
import SatLink.Frame.Layout

/-!
# Link settings

Both ends of the link share one configuration. Every setting has a default, and `Config.validate`
says which values a link can be run with. The addresses of a station follow from it: the source is
the station itself, the destination the other end.
-/

namespace SatLink

open SatLink.Frame (Address)

/-! ## 1. Addresses of a station -/

/-- The addresses of the frames that one station sends. -/
structure LinkAddresses where
  src : Address
  dest : Address
  deriving DecidableEq

namespace LinkAddresses

/-- The header of the frames that the station sends. -/
def header (a : LinkAddresses) : Frame.Header := ⟨a.dest, a.src⟩

/-- A frame to `dest` is for this station. -/
def isForUs (a : LinkAddresses) (dest : Address) : Bool := dest.sameStation a.src

end LinkAddresses

/-! ## 2. Settings -/

/-- The settings of a link; times are in milliseconds. -/
structure Config where
  cubesatCallsign : String := "AKITO"
  groundStationCallsign : String := "ATLAS"
  ssid : UInt8 := 0
  /-- The key that both ends share. -/
  aesKey : Cipher.Key := ⟨[0, 1, 2, 3, 4, 5, 6, 7, 8, 9, 10, 11, 12, 13, 14, 15], rfl⟩
  cipherMode : Cipher.Mode := .ctr
  /-- How long a frame may take from its opening to its closing flag. -/
  flagTimeout : Nat := 330000
  ackTimeout : Nat := 5000
  /-- How long the satellite listens for the ground. -/
  connTimeout : Nat := 60000
  interByteTimeout : Nat := 1000
  maxConnRetries : Nat := 3
  /-- The largest burst the radio delivers at once. -/
  rxBurstSize : Nat := 128
  transmitQueueLength : Nat := 3
  eventQueueLength : Nat := 10
  queueSendTimeout : Nat := 10
  /-- How long the encoder waits on a full transmit queue, and the transmitter on an empty one. -/
  transmitTimeout : Nat := 5000
  maxDownlinkFrames : Nat := 1000
  deriving DecidableEq

namespace Config

/-- The settings that nothing is said about. -/
def standard : Config := {}

/-- The callsign of a station. -/
def callsign (c : Config) : Station → String
  | .cubesat => c.cubesatCallsign
  | .groundStation => c.groundStationCallsign

/-- The addresses of the frames that a station sends; a callsign that makes no address is reported
    with the station it is for, the station's own first. -/
def linkAddresses (c : Config) (station : Station) : Except LinkError LinkAddresses := do
  let src ← (Address.source (c.callsign station) c.ssid false).mapError
    fun fault => .config (.callsign station fault)
  let dest ← (Address.destination (c.callsign station.peer) c.ssid false).mapError
    fun fault => .config (.callsign station.peer fault)
  pure ⟨src, dest⟩

/-- A link can be run with these settings. -/
def validate (c : Config) : Except LinkError Unit := do
  let _ ← c.linkAddresses .cubesat
  if c.rxBurstSize = 0 ∨ c.transmitQueueLength = 0 ∨ c.eventQueueLength = 0 then
    throw (.config .queueSize)
  if c.flagTimeout = 0 ∨ c.ackTimeout = 0 then
    throw (.config .timeout)

/-- The key and the mode it is used in. -/
def cipher (c : Config) : Cipher.Context := ⟨c.aesKey, c.cipherMode⟩

/-- The queue of received bytes holds two bursts. -/
def decodeQueueLength (c : Config) : Nat := c.rxBurstSize * 2

end Config

end SatLink
