import SatLink.Config.Basic
import SatLink.Toml.Document
import SatLink.Toml.Quoted

/-!
# Settings as a text

A configuration text names the settings that differ from the standard. Times are in milliseconds. A
name that is no setting, and a value that a setting cannot have, reject the whole text.

* `Config.ofText` — the settings of a text, checked;
* `Config.ofPath` — the settings of a file;
* `Config.toText` — every setting, one a line.
-/

namespace SatLink.Config

open SatLink.Toml (Value Entries)

/-! ## 1. Reading -/

/-- A number below a bound. -/
def number? (bound : Nat) : Value → Option Nat
  | .integer (.ofNat n) => if n < bound then some n else none
  | _ => none

/-- A number of milliseconds, or of things. -/
def count? (v : Value) : Option Nat := number? UInt64.size v

/-- A number of eight bits. -/
def byte? (v : Value) : Option UInt8 := (number? 256 v).map Nat.toUInt8

/-- A text. -/
def text? : Value → Option String
  | .string text => some text
  | _ => none

/-- A key: an array whose first sixteen items are bytes; what follows them is not looked at. -/
def key? : Value → Option Cipher.Key
  | .array items => ((items.take 16).mapM byte?).bind (Block.ofList? 16)
  | _ => none

/-- The mode of a name. -/
def modeOfName? : String → Option Cipher.Mode
  | "ctr" => some .ctr
  | "gcm" => some .gcm
  | _ => none

/-- Nothing is in there. -/
def isEmptyValue : Value → Bool
  | .array [] => true
  | .table _ [] => true
  | _ => false

/-- A mode: its name, or a table in which its name is defined as something empty. -/
def mode? : Value → Option Cipher.Mode
  | .string name => modeOfName? name
  | .table _ [(name, content)] => if isEmptyValue content then modeOfName? name else none
  | _ => none

/-- Takes one setting. -/
def take (c : Config) : String × Value → Option Config
  | ("cubesat_callsign", v) => (text? v).map ({ c with cubesatCallsign := · })
  | ("ground_station_callsign", v) => (text? v).map ({ c with groundStationCallsign := · })
  | ("ssid", v) => (byte? v).map ({ c with ssid := · })
  | ("aes_key", v) => (key? v).map ({ c with aesKey := · })
  | ("cipher_mode", v) => (mode? v).map ({ c with cipherMode := · })
  | ("flag_timeout_ms", v) => (count? v).map ({ c with flagTimeout := · })
  | ("ack_timeout_ms", v) => (count? v).map ({ c with ackTimeout := · })
  | ("conn_timeout_ms", v) => (count? v).map ({ c with connTimeout := · })
  | ("inter_byte_timeout_ms", v) => (count? v).map ({ c with interByteTimeout := · })
  | ("max_conn_retries", v) => (number? UInt32.size v).map ({ c with maxConnRetries := · })
  | ("rx_burst_size", v) => (count? v).map ({ c with rxBurstSize := · })
  | ("transmit_queue_len", v) => (count? v).map ({ c with transmitQueueLength := · })
  | ("event_queue_len", v) => (count? v).map ({ c with eventQueueLength := · })
  | ("queue_send_timeout_ms", v) => (count? v).map ({ c with queueSendTimeout := · })
  | ("transmit_timeout_ms", v) => (count? v).map ({ c with transmitTimeout := · })
  | ("max_downlink_frames", v) => (count? v).map ({ c with maxDownlinkFrames := · })
  | _ => none

/-- The settings of a table, not checked. -/
def ofEntries (es : Entries) : Option Config := es.foldlM take .standard

/-- The settings of a text. -/
def ofText (text : String) : Except LinkError Config :=
  match (Toml.parse text).bind ofEntries with
  | none => .error (.config .rejected)
  | some c => c.validate.map fun _ => c

/-- The settings of the bytes of a file, whose path is only for messages. -/
def ofFile (path : String) (content : ByteArray) : Except LinkError Config :=
  match String.fromUTF8? content with
  | some text => ofText text
  | none => .error (.config (.unreadable path "stream did not contain valid UTF-8"))

/-- The settings of the file at a path, which may not be there. -/
def ofPath (path : String) : Option ByteArray → Except LinkError Config
  | some content => ofFile path content
  | none => .error (.config (.unreadable path "No such file or directory (os error 2)"))

/-! ## 2. Writing -/

/-- The name of a mode in a text. -/
def modeName : Cipher.Mode → String
  | .ctr => "ctr"
  | .gcm => "gcm"

/-- Every setting, one a line. -/
def toText (c : Config) : String :=
  let line := fun (name value : String) => name ++ " = " ++ value ++ "\n"
  let key := ", ".intercalate (c.aesKey.bytes.map fun b => toString b.toNat)
  String.join
    [line "cubesat_callsign" (Toml.quote c.cubesatCallsign),
      line "ground_station_callsign" (Toml.quote c.groundStationCallsign),
      line "ssid" (toString c.ssid.toNat),
      line "aes_key" ("[" ++ key ++ "]"),
      line "cipher_mode" (Toml.quote (modeName c.cipherMode)),
      line "flag_timeout_ms" (toString c.flagTimeout),
      line "ack_timeout_ms" (toString c.ackTimeout),
      line "conn_timeout_ms" (toString c.connTimeout),
      line "inter_byte_timeout_ms" (toString c.interByteTimeout),
      line "max_conn_retries" (toString c.maxConnRetries),
      line "rx_burst_size" (toString c.rxBurstSize),
      line "transmit_queue_len" (toString c.transmitQueueLength),
      line "event_queue_len" (toString c.eventQueueLength),
      line "queue_send_timeout_ms" (toString c.queueSendTimeout),
      line "transmit_timeout_ms" (toString c.transmitTimeout),
      line "max_downlink_frames" (toString c.maxDownlinkFrames)]

end SatLink.Config
