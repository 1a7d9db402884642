import SatLink.Error

/-!
# Integers on the wire

Every integer is sent most significant byte first. A read names the buffer and the offset it starts
at, and answers with the value and the offset behind it; a read that would pass the end reports how
many bytes the buffer should have had.
-/

namespace SatLink.Wire

/-! ## 1. Writing -/

/-- The two bytes of a number of sixteen bits. -/
def bytes16 (w : UInt16) : List UInt8 := [(w >>> 8).toUInt8, w.toUInt8]

/-- The four bytes of a number of 32 bits. -/
def bytes32 (w : UInt32) : List UInt8 :=
  [(w >>> 24).toUInt8, (w >>> 16).toUInt8, (w >>> 8).toUInt8, w.toUInt8]

@[simp] theorem length_bytes16 (w : UInt16) : (bytes16 w).length = 2 := rfl

@[simp] theorem length_bytes32 (w : UInt32) : (bytes32 w).length = 4 := rfl

/-! ## 2. Reading -/

/-- The number of two bytes. -/
def word16 (a b : UInt8) : UInt16 := (a.toUInt16 <<< 8) ||| b.toUInt16

/-- The number of four bytes. -/
def word32 (a b c d : UInt8) : UInt32 :=
  (a.toUInt32 <<< 24) ||| (b.toUInt32 <<< 16) ||| (c.toUInt32 <<< 8) ||| d.toUInt32

/-- A read that needs `n` bytes from `offset` on does not have them. -/
def short (buffer : List UInt8) (offset n : Nat) : LinkError :=
  .bufferTooSmall (offset + n) buffer.length

/-- Reads one byte. -/
def readByte (buffer : List UInt8) (offset : Nat) : Except LinkError (UInt8 × Nat) :=
  match buffer.drop offset with
  | a :: _ => .ok (a, offset + 1)
  | [] => .error (short buffer offset 1)

/-- Reads a number of sixteen bits. -/
def read16 (buffer : List UInt8) (offset : Nat) : Except LinkError (UInt16 × Nat) :=
  match buffer.drop offset with
  | a :: b :: _ => .ok (word16 a b, offset + 2)
  | _ => .error (short buffer offset 2)

/-- Reads a number of 32 bits. -/
def read32 (buffer : List UInt8) (offset : Nat) : Except LinkError (UInt32 × Nat) :=
  match buffer.drop offset with
  | a :: b :: c :: d :: _ => .ok (word32 a b c d, offset + 4)
  | _ => .error (short buffer offset 4)

end SatLink.Wire
