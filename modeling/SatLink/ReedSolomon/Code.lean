import SatLink.Block
import SatLink.Error
import SatLink.Galois

/-!
# The Reed–Solomon code

A message of 223 bytes is followed by 32 parity bytes. The 255 bytes, read as a polynomial whose
first byte has the highest degree, are a multiple of the generator
`(x - α^1)(x - α^2) … (x - α^32)`.

* `encode` — the codeword of a message, its parity the remainder of a division by the generator;
* `syndromes` — a word at the 32 roots; all of them vanish exactly on codewords (`isCodeword`).
-/

namespace SatLink.ReedSolomon

/-- The number of message bytes. -/
abbrev messageLength : Nat := 223

/-- The number of bytes of a word. -/
abbrev wordLength : Nat := 255

/-- The number of parity bytes. -/
def parityLength : Nat := 32

/-- The number of damaged bytes that can be corrected. -/
def correctable : Nat := 16

/-- What is encoded. -/
abbrev Message := Block messageLength

/-- What is sent, or what was received of it. -/
abbrev Word := Block wordLength

/-- The field of the code. -/
abbrev field : Galois.Tables := Galois.ccsds

/-- The roots of the generator. -/
def roots : List UInt8 := (List.range parityLength).map fun k => field.pow (k + 1)

/-! ## 1. The generator -/

/-- A polynomial, highest degree first, times `x + root`. -/
def timesLinear (coefficients : List UInt8) (root : UInt8) : List UInt8 :=
  List.zipWith (· ^^^ ·) (coefficients ++ [0]) (0 :: coefficients.map (field.mul root))

/-- The generator, highest degree first. -/
def generator : List UInt8 := roots.foldl timesLinear [1]

@[simp] theorem length_timesLinear (cs : List UInt8) (root : UInt8) :
    (timesLinear cs root).length = cs.length + 1 := by
  simp [timesLinear]

theorem length_foldl_timesLinear : ∀ (rs cs : List UInt8),
    (rs.foldl timesLinear cs).length = cs.length + rs.length
  | [], _ => rfl
  | r :: rs, cs => by
      rw [List.foldl_cons, length_foldl_timesLinear rs, length_timesLinear]
      simp; omega

@[simp] theorem length_generator : generator.length = parityLength + 1 := by
  simp [generator, length_foldl_timesLinear, roots]; omega

/-! ## 2. Encoding -/

/-- One step of the division by the generator: the register takes one message byte in. -/
def absorb (parity : List UInt8) (byte : UInt8) : List UInt8 :=
  let feedback := byte ^^^ parity.headD 0
  List.zipWith (· ^^^ ·) (parity.tail ++ [0]) (generator.tail.map (field.mul feedback))

/-- The parity bytes of a message. -/
def parity (message : List UInt8) : List UInt8 :=
  message.foldl absorb (List.replicate parityLength 0)

theorem length_absorb (register : List UInt8) (byte : UInt8)
    (h : register.length = parityLength) : (absorb register byte).length = parityLength := by
  simp only [parityLength] at h
  simp [absorb, h, parityLength]

theorem length_foldl_absorb : ∀ (message register : List UInt8),
    register.length = parityLength → (message.foldl absorb register).length = parityLength
  | [], _, h => h
  | byte :: message, register, h =>
      length_foldl_absorb message (absorb register byte) (length_absorb register byte h)

@[simp] theorem length_parity (message : List UInt8) : (parity message).length = parityLength :=
  length_foldl_absorb message _ (by simp)

/-- The codeword of a message. -/
def encode (message : Message) : Word :=
  ⟨message.bytes ++ parity message.bytes, by simp [parityLength]⟩

/-- The codeword of a byte string, if it has the length of a message. -/
def encodeBytes (message : List UInt8) : Except LinkError Word :=
  match Block.ofList? messageLength message with
  | some block => .ok (encode block)
  | none => .error (.argument .messageLength)

/-- The first 223 bytes of a word. -/
def message (word : Word) : Message := word.slice 0 messageLength (by decide)

@[simp] theorem message_encode (m : Message) : message (encode m) = m := by
  ext1
  simp [message, encode, Block.slice]

/-! ## 3. Syndromes -/

/-- The values of a word at the roots of the generator. -/
def syndromes (word : Word) : List UInt8 := roots.map (field.eval word.bytes)

/-- All syndromes vanish. -/
def isCodeword (word : Word) : Bool := (syndromes word).all (· == 0)

end SatLink.ReedSolomon
