/-!
# Byte strings of a fixed length

A `Block n` is a list of exactly `n` bytes. Keys, tags, messages, codewords and information fields
are blocks, so a length is checked once, where bytes come in, and never again.
-/

namespace SatLink

/-- Exactly `n` bytes. -/
structure Block (n : Nat) where
  bytes : List UInt8
  length_eq : bytes.length = n
  deriving DecidableEq

namespace Block

variable {n : Nat}

attribute [simp] Block.length_eq

@[ext] theorem ext {a b : Block n} (h : a.bytes = b.bytes) : a = b := by
  cases a; cases b; cases h; rfl

/-- The block of a list that has the right length. -/
def ofList? (n : Nat) (bytes : List UInt8) : Option (Block n) :=
  if h : bytes.length = n then some ⟨bytes, h⟩ else none

@[simp] theorem ofList?_bytes (b : Block n) : ofList? n b.bytes = some b := by
  simp [ofList?]

/-- `n` times the same byte. -/
def replicate (n : Nat) (byte : UInt8) : Block n := ⟨List.replicate n byte, by simp⟩

/-- `n` zeros. -/
def zero (n : Nat) : Block n := replicate n 0

/-- The first `n` bytes of a list that is followed by endless zeros. -/
def fit (n : Nat) (bytes : List UInt8) : Block n :=
  ⟨bytes.take n ++ List.replicate (n - bytes.length) 0, by simp; omega⟩

@[simp] theorem fit_bytes (b : Block n) : fit n b.bytes = b := by
  ext1
  simp [fit, List.take_of_length_le]

/-- The block whose bytes a function gives. -/
def ofFn (f : Fin n → UInt8) : Block n := ⟨List.ofFn f, by simp⟩

/-- The byte at an index. -/
def get (b : Block n) (i : Fin n) : UInt8 :=
  have h : i.val < b.bytes.length := by simp
  b.bytes[i.val]

@[simp] theorem ofFn_get (b : Block n) : ofFn b.get = b := by
  ext1
  apply List.ext_getElem <;> simp [ofFn, get]

/-- Bytes added bit by bit without carry. -/
def xor (a b : Block n) : Block n := ⟨a.bytes.zipWith (· ^^^ ·) b.bytes, by simp⟩

/-- The bytes from `start` on that a slice of `k` bytes covers. -/
def slice (b : Block n) (start k : Nat) (h : start + k ≤ n) : Block k :=
  ⟨(b.bytes.drop start).take k, by simp; omega⟩

/-- Two blocks, one behind the other. -/
def append {m : Nat} (a : Block n) (b : Block m) : Block (n + m) :=
  ⟨a.bytes ++ b.bytes, by simp⟩

end Block

end SatLink
