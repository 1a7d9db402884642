import SatLink.Uplink.Flow
import SatLink.Telemetry.Wire

/-!
# The downlink, receiving

The ground station reads a telemetry frame back: the frame is unstuffed and corrected as on the
uplink, has to be addressed to the station, and its first 223 bytes hold the records.
-/

namespace SatLink.Downlink

/-- A telemetry frame as the ground station sees it. -/
structure TelemetryFrame where
  control : Frame.Sequence
  records : List Telemetry.Record
  deriving DecidableEq

/-- Decodes one stuffed telemetry frame. -/
def decodeFrame (addresses : LinkAddresses) (stuffed : List UInt8) :
    Except LinkError TelemetryFrame := do
  match ← Uplink.deframe stuffed with
  | .control _ _ _ => throw (.frame .notTelemetry)
  | .data header control info =>
      if !addresses.isForUs header.dest then throw (.frame .otherStation)
      pure ⟨control, ← Telemetry.Record.unpackBlock (ReedSolomon.message info).bytes⟩

end SatLink.Downlink
