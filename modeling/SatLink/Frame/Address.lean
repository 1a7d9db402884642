import SatLink.Block
import SatLink.Error

/-!
# Addresses

An address is a callsign of six characters, each shifted left by one bit, and an SSID byte laid out
as `C 1 1 S S S S E`: the command/response bit, two ones, four bits of SSID, and the extension bit
that ends the header. A short callsign is filled with blanks.
-/

namespace SatLink.Frame

/-- Six shifted characters and the SSID byte. -/
structure Address where
  shifted : Block 6
  ssidByte : UInt8
  deriving DecidableEq

namespace Address

/-- The character that fills a short callsign. -/
def padding : UInt8 := 0x40

/-- The shifted characters of a callsign, filled up to six. -/
def shift (callsign : List Char) : Block 6 :=
  ⟨((callsign.map fun c : Char => c.toNat.toUInt8 <<< (1 : UInt8)) ++
    List.replicate 6 padding).take 6, by simp⟩

/-- The SSID byte: the command/response bit, two ones, the SSID and the extension bit. -/
def packSsid (ssid : UInt8) (commandBit last : Bool) : UInt8 :=
  let command : UInt8 := if commandBit then 0x80 else 0
  let extension : UInt8 := if last then 1 else 0
  command ||| 0x60 ||| (ssid <<< (1 : UInt8)) ||| extension

/-- Packs a callsign and an SSID. The length of the callsign is counted in UTF-8 bytes and checked
    first, then its characters, then the SSID. -/
def make (callsign : String) (ssid : UInt8) (commandBit last : Bool) :
    Except AddressFault Address :=
  if 6 < callsign.utf8ByteSize then .error .tooLong
  else if callsign.isEmpty || callsign.toList.any (fun c => decide (128 ≤ c.toNat)) then
    .error .notAscii
  else if 15 < ssid then .error .ssidTooLarge
  else .ok ⟨shift callsign.toList, packSsid ssid commandBit last⟩

/-- The destination of a frame, never the last address of a header. -/
def destination (callsign : String) (ssid : UInt8) (commandBit : Bool) :
    Except AddressFault Address :=
  make callsign ssid commandBit false

/-- The source of a frame, which ends the header. -/
def source (callsign : String) (ssid : UInt8) (commandBit : Bool) : Except AddressFault Address :=
  make callsign ssid commandBit true

/-- The seven bytes of an address. -/
def toBytes (a : Address) : List UInt8 := a.shifted.bytes ++ [a.ssidByte]

/-- The address that seven bytes spell. -/
def ofBytes (bytes : List UInt8) : Except LinkError Address :=
  match bytes with
  | [c0, c1, c2, c3, c4, c5, ssid] => .ok ⟨⟨[c0, c1, c2, c3, c4, c5], rfl⟩, ssid⟩
  | _ => .error (.argument .addressLength)

@[simp] theorem length_toBytes (a : Address) : a.toBytes.length = 7 := by
  simp [toBytes]

/-- White space below 128: the blank, and tab to carriage return. -/
def isBlank (c : Char) : Bool := c == ' ' || (decide (9 ≤ c.toNat) && decide (c.toNat ≤ 13))

/-- The callsign without the white space it ends in. -/
def callsign (a : Address) : String :=
  let characters := a.shifted.bytes.map fun b : UInt8 => Char.ofNat (b >>> 1).toNat
  String.ofList (characters.reverse.dropWhile isBlank).reverse

/-- The four bits of the SSID. -/
def ssid (a : Address) : UInt8 := (a.ssidByte >>> 1) &&& 0x0F

/-- The command/response bit. -/
def commandBit (a : Address) : Bool := a.ssidByte &&& 0x80 != 0

/-- The extension bit: no address follows. -/
def isLast (a : Address) : Bool := a.ssidByte &&& 0x01 != 0

/-- Two addresses name one station, whatever their command/response and extension bits are. -/
def sameStation (a b : Address) : Bool := a.shifted == b.shifted && a.ssid == b.ssid

end Address

end SatLink.Frame
