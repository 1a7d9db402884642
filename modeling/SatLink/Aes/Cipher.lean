import SatLink.Block

/-!
# The AES-128 block cipher

The sixteen bytes of a block fill a square column by column: byte `i` stands in row `i mod 4` of
column `i / 4`. A round substitutes every byte, turns the rows, mixes the columns and adds a round
key; the last of the ten rounds mixes no columns. Only enciphering is needed, because both modes of
operation use the cipher in this direction alone.
-/

namespace SatLink.Aes

/-- Sixteen bytes, column by column. -/
abbrev State := Block 16

/-! ## 1. Bytes -/

set_option maxRecDepth 4096 in
/-- The substitution of a byte. -/
def substitution : Vector UInt8 256 := #v[
  0x63, 0x7c, 0x77, 0x7b, 0xf2, 0x6b, 0x6f, 0xc5, 0x30, 0x01, 0x67, 0x2b,
  0xfe, 0xd7, 0xab, 0x76, 0xca, 0x82, 0xc9, 0x7d, 0xfa, 0x59, 0x47, 0xf0,
  0xad, 0xd4, 0xa2, 0xaf, 0x9c, 0xa4, 0x72, 0xc0, 0xb7, 0xfd, 0x93, 0x26,
  0x36, 0x3f, 0xf7, 0xcc, 0x34, 0xa5, 0xe5, 0xf1, 0x71, 0xd8, 0x31, 0x15,
  0x04, 0xc7, 0x23, 0xc3, 0x18, 0x96, 0x05, 0x9a, 0x07, 0x12, 0x80, 0xe2,
  0xeb, 0x27, 0xb2, 0x75, 0x09, 0x83, 0x2c, 0x1a, 0x1b, 0x6e, 0x5a, 0xa0,
  0x52, 0x3b, 0xd6, 0xb3, 0x29, 0xe3, 0x2f, 0x84, 0x53, 0xd1, 0x00, 0xed,
  0x20, 0xfc, 0xb1, 0x5b, 0x6a, 0xcb, 0xbe, 0x39, 0x4a, 0x4c, 0x58, 0xcf,
  0xd0, 0xef, 0xaa, 0xfb, 0x43, 0x4d, 0x33, 0x85, 0x45, 0xf9, 0x02, 0x7f,
  0x50, 0x3c, 0x9f, 0xa8, 0x51, 0xa3, 0x40, 0x8f, 0x92, 0x9d, 0x38, 0xf5,
  0xbc, 0xb6, 0xda, 0x21, 0x10, 0xff, 0xf3, 0xd2, 0xcd, 0x0c, 0x13, 0xec,
  0x5f, 0x97, 0x44, 0x17, 0xc4, 0xa7, 0x7e, 0x3d, 0x64, 0x5d, 0x19, 0x73,
  0x60, 0x81, 0x4f, 0xdc, 0x22, 0x2a, 0x90, 0x88, 0x46, 0xee, 0xb8, 0x14,
  0xde, 0x5e, 0x0b, 0xdb, 0xe0, 0x32, 0x3a, 0x0a, 0x49, 0x06, 0x24, 0x5c,
  0xc2, 0xd3, 0xac, 0x62, 0x91, 0x95, 0xe4, 0x79, 0xe7, 0xc8, 0x37, 0x6d,
  0x8d, 0xd5, 0x4e, 0xa9, 0x6c, 0x56, 0xf4, 0xea, 0x65, 0x7a, 0xae, 0x08,
  0xba, 0x78, 0x25, 0x2e, 0x1c, 0xa6, 0xb4, 0xc6, 0xe8, 0xdd, 0x74, 0x1f,
  0x4b, 0xbd, 0x8b, 0x8a, 0x70, 0x3e, 0xb5, 0x66, 0x48, 0x03, 0xf6, 0x0e,
  0x61, 0x35, 0x57, 0xb9, 0x86, 0xc1, 0x1d, 0x9e, 0xe1, 0xf8, 0x98, 0x11,
  0x69, 0xd9, 0x8e, 0x94, 0x9b, 0x1e, 0x87, 0xe9, 0xce, 0x55, 0x28, 0xdf,
  0x8c, 0xa1, 0x89, 0x0d, 0xbf, 0xe6, 0x42, 0x68, 0x41, 0x99, 0x2d, 0x0f,
  0xb0, 0x54, 0xbb, 0x16]

/-- Substitutes one byte. -/
def substitute (b : UInt8) : UInt8 :=
  have h : b.toNat < 256 := b.toNat_lt
  substitution[b.toNat]

/-- A byte times x, modulo x^8 + x^4 + x^3 + x + 1. -/
def double (b : UInt8) : UInt8 :=
  if b &&& 0x80 = 0 then b <<< 1 else (b <<< 1) ^^^ 0x1b

/-! ## 2. Rounds -/

/-- Substitutes every byte. -/
def substituteAll (s : State) : State := ⟨s.bytes.map substitute, by simp⟩

/-- Turns row `r` by `r` columns: byte `i` comes from `i + 4 (i mod 4)`, which is `5 i`
    modulo 16. -/
def turnRows (s : State) : State := Block.ofFn fun i => s.get (5 * i)

/-- The byte `k` rows below byte `i`, in the same column. -/
def below (i : Fin 16) (k : Nat) : Fin 16 :=
  ⟨4 * (i.val / 4) + (i.val % 4 + k) % 4, by omega⟩

/-- Multiplies every column by 2 + x + x^2 + 3 x^3. -/
def mixColumns (s : State) : State :=
  Block.ofFn fun i =>
    let next := s.get (below i 1)
    double (s.get i) ^^^ (double next ^^^ next) ^^^ s.get (below i 2) ^^^ s.get (below i 3)

/-! ## 3. Round keys -/

/-- The round key behind a round key: its first column adds the turned and substituted last column
    and a constant, each other column adds the one before it. -/
def nextKey (constant : UInt8) (key : State) : State :=
  Block.ofFn fun i =>
    let row := i.val % 4
    let turned := substitute (key.get ⟨12 + (row + 1) % 4, by omega⟩)
    let first := if row = 0 then turned ^^^ constant else turned
    (List.range (i.val / 4 + 1)).foldl (fun sum c => sum ^^^ key.bytes.getD (4 * c + row) 0) first

/-- `n` round keys, each from the one before it; the constant doubles from round to round. -/
def roundKeys : Nat → UInt8 → State → List State
  | 0, _, _ => []
  | n + 1, constant, key =>
      let next := nextKey constant key
      next :: roundKeys n (double constant) next

/-! ## 4. The cipher -/

/-- The rounds under the round keys that are left. -/
def rounds (s : State) : List State → State
  | [] => s
  | [last] => (turnRows (substituteAll s)).xor last
  | key :: rest => rounds ((mixColumns (turnRows (substituteAll s))).xor key) rest

/-- Enciphers a block. -/
def encipher (key plain : State) : State := rounds (plain.xor key) (roundKeys 10 1 key)

end SatLink.Aes
