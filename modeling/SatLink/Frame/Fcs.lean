/-!
# The frame check sequence

CRC-16/X.25: the register starts with ones, takes the bits of each byte least significant first,
divides by x^16 + x^12 + x^5 + 1, and is complemented at the end.
-/

namespace SatLink.Frame.Fcs

/-- The divisor without its leading term, lowest power in the highest bit. -/
def polynomial : UInt16 := 0x8408

/-- One bit of the division. -/
def shiftBit (register : UInt16) : UInt16 :=
  if register &&& 1 = 1 then (register >>> 1) ^^^ polynomial else register >>> 1

/-- `n` bits of the division. -/
def shiftBits : Nat → UInt16 → UInt16
  | 0, register => register
  | n + 1, register => shiftBits n (shiftBit register)

/-- Takes one byte in. -/
def absorb (register : UInt16) (byte : UInt8) : UInt16 :=
  shiftBits 8 (register ^^^ byte.toUInt16)

/-- The check sequence of a byte string. -/
def checksum (bytes : List UInt8) : UInt16 := ~~~(bytes.foldl absorb 0xFFFF)

/-- The two bytes of a check sequence on the air, low byte first. -/
def toBytes (fcs : UInt16) : List UInt8 := [fcs.toUInt8, (fcs >>> 8).toUInt8]

/-- The check sequence that two bytes spell. -/
def ofBytes (low high : UInt8) : UInt16 := low.toUInt16 ||| (high.toUInt16 <<< 8)

end SatLink.Frame.Fcs
