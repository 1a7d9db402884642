import SatLink.Aes.Cipher

/-!
# Counter mode

A counter block is a number of 128 bits, most significant byte first. Enciphering one counter after
the other gives a key stream (`keyStream`), and adding the key stream to a text both hides and shows
it (`crypt`). How a counter goes on is a parameter: the plain mode counts all 128 bits, the
authenticated mode the last 32.
-/

namespace SatLink.Aes

/-! ## 1. Blocks as numbers -/

/-- The number that sixteen bytes spell, most significant byte first. -/
def toNumber (b : State) : BitVec 128 :=
  b.bytes.foldl (fun n byte => (n <<< 8) ||| byte.toBitVec.setWidth 128) 0

/-- The sixteen bytes of a number. -/
def ofNumber (n : BitVec 128) : State :=
  Block.ofFn fun i => UInt8.ofBitVec ((n >>> (8 * (15 - i.val))).setWidth 8)

/-! ## 2. The key stream -/

/-- `n` enciphered counters, from `counter` on. -/
def keyStream (key : State) (next : BitVec 128 → BitVec 128) : Nat → BitVec 128 → List UInt8
  | 0, _ => []
  | n + 1, counter =>
      (encipher key (ofNumber counter)).bytes ++ keyStream key next n (next counter)

/-- The text with the key stream added. -/
def crypt (key : State) (next : BitVec 128 → BitVec 128) (counter : BitVec 128)
    (text : List UInt8) : List UInt8 :=
  List.zipWith (· ^^^ ·) text (keyStream key next ((text.length + 15) / 16) counter)

theorem length_keyStream (key : State) (next : BitVec 128 → BitVec 128) :
    ∀ (n : Nat) (counter : BitVec 128), (keyStream key next n counter).length = 16 * n
  | 0, _ => rfl
  | n + 1, counter => by
      simp [keyStream, length_keyStream key next n]; omega

@[simp] theorem length_crypt (key : State) (next : BitVec 128 → BitVec 128) (counter : BitVec 128)
    (text : List UInt8) : (crypt key next counter text).length = text.length := by
  simp [crypt, length_keyStream]; omega

/-- Counts all 128 bits. -/
def nextCounter (counter : BitVec 128) : BitVec 128 := counter + 1

/-- Counter mode from an initial counter block. -/
def counterMode (key iv : State) (text : List UInt8) : List UInt8 :=
  crypt key nextCounter (toNumber iv) text

end SatLink.Aes
