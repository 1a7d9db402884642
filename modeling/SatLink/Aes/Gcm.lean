import SatLink.Aes.Counter

/-!
# Galois/counter mode with a nonce of sixteen bytes

The text is enciphered in counter mode, and a tag of sixteen bytes authenticates it. The tag is a
polynomial in the hash key, whose coefficients are the blocks of the ciphertext and of its length,
over the field of 2^128 elements; a field element is written with its constant term in the
first bit.

A nonce of sixteen bytes is longer than the twelve that would serve as they are, so the first
counter is the hash of the nonce and its length.
-/

namespace SatLink.Aes.Gcm

/-! ## 1. The field -/

/-- x^128 + x^7 + x^2 + x + 1 without its leading term. -/
def reduction : BitVec 128 := 0xE1#128 <<< 120

/-- A field element times x. -/
def timesX (v : BitVec 128) : BitVec 128 :=
  if v.getLsbD 0 then (v >>> 1) ^^^ reduction else v >>> 1

/-- The sum of `v`, `v x`, `v x^2`, … over the bits set among bit `128 - n` and those behind it. -/
def mulFrom (a : BitVec 128) : Nat → BitVec 128 → BitVec 128
  | 0, _ => 0
  | n + 1, v => (if a.getLsbD n then v else 0) ^^^ mulFrom a n (timesX v)

/-- The product of two field elements. -/
def mul (a b : BitVec 128) : BitVec 128 := mulFrom a 128 b

/-! ## 2. The hash -/

/-- A text cut into blocks, the last one filled with zeros; at most `n` of them. -/
def blocksOf : Nat → List UInt8 → List (BitVec 128)
  | 0, _ => []
  | n + 1, text =>
      if text.isEmpty then []
      else toNumber (Block.fit 16 text) :: blocksOf n (text.drop 16)

/-- The hash of a list of blocks under a hash key. -/
def hash (hashKey : BitVec 128) (blocks : List (BitVec 128)) : BitVec 128 :=
  blocks.foldl (fun y x => mul (y ^^^ x) hashKey) 0

/-- The block of two lengths in bits, of the unencrypted data and of the text. -/
def lengths (dataBytes textBytes : Nat) : BitVec 128 :=
  BitVec.ofNat 64 (8 * dataBytes) ++ BitVec.ofNat 64 (8 * textBytes)

/-- The hash key: the encipherment of zero. -/
def hashKey (key : State) : BitVec 128 := toNumber (encipher key (Block.zero 16))

/-! ## 3. Sealing -/

/-- Counts the last 32 bits. -/
def nextCounter (counter : BitVec 128) : BitVec 128 :=
  counter.extractLsb' 32 96 ++ (counter.extractLsb' 0 32 + 1)

/-- The counter that masks the tag. -/
def firstCounter (key nonce : State) : BitVec 128 :=
  hash (hashKey key) [toNumber nonce, lengths 0 16]

/-- The tag of a ciphertext. -/
def tag (key nonce : State) (ciphertext : List UInt8) : State :=
  let mask := toNumber (encipher key (ofNumber (firstCounter key nonce)))
  let blocks := blocksOf ciphertext.length ciphertext ++ [lengths 0 ciphertext.length]
  ofNumber (hash (hashKey key) blocks ^^^ mask)

/-- The text with the key stream added, which both enciphers and deciphers. -/
def cryptText (key nonce : State) (text : List UInt8) : List UInt8 :=
  crypt key nextCounter (nextCounter (firstCounter key nonce)) text

/-- The ciphertext of a text, and its tag. -/
def encrypt (key nonce : State) (text : List UInt8) : List UInt8 × State :=
  let ciphertext := cryptText key nonce text
  (ciphertext, tag key nonce ciphertext)

/-- The text of a ciphertext whose tag is the given one. -/
def decrypt? (key nonce : State) (ciphertext : List UInt8) (given : State) : Option (List UInt8) :=
  if tag key nonce ciphertext = given then some (cryptText key nonce ciphertext) else none

end SatLink.Aes.Gcm
