import SatLink.Aes.Gcm
import SatLink.ReedSolomon.Code

/-!
# Encrypted blocks

One block of 223 bytes carries an initial counter, in the authenticated mode a tag, and as much
ciphertext as is left. A shorter plaintext is filled with zeros before it is encrypted, so a block
says nothing about its length.

* `Context` — the key that both ends share and the mode it is used in;
* `encrypt` and `decrypt` — on a buffer of the caller; each answers with its outcome and the buffer
  as it leaves it, which after an error is the buffer it was given;
* `sealBlock` and `openBlock` — whole blocks.
-/

namespace SatLink.Cipher

/-- How a key is used. -/
inductive Mode where
  /-- Counter mode: confidential. -/
  | ctr
  /-- Galois/counter mode: confidential and authentic. -/
  | gcm
  deriving DecidableEq

/-- The name of a mode. -/
def Mode.name : Mode → String
  | .ctr => "Ctr"
  | .gcm => "Gcm"

/-- The length of an initial counter. -/
def ivLength : Nat := 16

/-- The length of a tag. -/
def tagLength : Nat := 16

/-- A key, an initial counter or a tag. -/
abbrev Key := Block 16

/-- A shared key and the mode it is used in. -/
structure Context where
  key : Key
  mode : Mode
  deriving DecidableEq

namespace Context

/-- The context of a key given as bytes. -/
def make (key : List UInt8) (mode : Mode) : Except LinkError Context :=
  match Block.ofList? 16 key with
  | some key => .ok ⟨key, mode⟩
  | none => .error (.argument .keyLength)

/-- What of a block is not plaintext. -/
def overhead (c : Context) : Nat :=
  match c.mode with
  | .ctr => ivLength
  | .gcm => ivLength + tagLength

/-- How many bytes of plaintext a block takes. -/
def capacity (c : Context) : Nat := ReedSolomon.messageLength - c.overhead

/-- A description that does not show the key. -/
def description (c : Context) : String := "AesContext \x7b mode: " ++ c.mode.name ++ ", .. \x7d"

/-! ## 1. Buffers -/

/-- Encrypts a buffer; the authenticated mode answers with a tag. -/
def encrypt (c : Context) (data : List UInt8) (iv : Block 16) :
    Except LinkError (Option (Block 16)) × List UInt8 :=
  if c.capacity < data.length then (.error (.argument .plaintextTooLong), data)
  else
    match c.mode with
    | .ctr => (.ok none, Aes.counterMode c.key iv data)
    | .gcm =>
        let (ciphertext, tag) := Aes.Gcm.encrypt c.key iv data
        (.ok (some tag), ciphertext)

/-- Decrypts a buffer; the authenticated mode asks for the tag and shows nothing if it is wrong. -/
def decrypt (c : Context) (data : List UInt8) (iv : Block 16) (tag : Option (Block 16)) :
    Except LinkError Unit × List UInt8 :=
  if c.capacity < data.length then (.error (.argument .ciphertextTooLong), data)
  else
    match c.mode with
    | .ctr => (.ok (), Aes.counterMode c.key iv data)
    | .gcm =>
        match tag with
        | none => (.error (.argument .missingTag), data)
        | some tag =>
            match Aes.Gcm.decrypt? c.key iv data tag with
            | some plain => (.ok (), plain)
            | none => (.error .authenticationFailed, data)

/-! ## 2. Blocks -/

/-- A plaintext filled with zeros up to the capacity. -/
def pad (c : Context) (plaintext : List UInt8) : List UInt8 :=
  plaintext ++ List.replicate (c.capacity - plaintext.length) 0

/-- Lays a plaintext out as a block: counter, tag, ciphertext. -/
def sealBlock (c : Context) (plaintext : List UInt8) (iv : Block 16) :
    Except LinkError ReedSolomon.Message :=
  if c.capacity < plaintext.length then .error (.bufferTooSmall plaintext.length c.capacity)
  else
    match c.encrypt (c.pad plaintext) iv with
    | (.error e, _) => .error e
    | (.ok none, ciphertext) => .ok (Block.fit _ (iv.bytes ++ ciphertext))
    | (.ok (some tag), ciphertext) => .ok (Block.fit _ (iv.bytes ++ (tag.bytes ++ ciphertext)))

/-- The plaintext of a block, with the zeros that fill it. -/
def openBlock (c : Context) (block : ReedSolomon.Message) : Except LinkError (List UInt8) :=
  let iv := block.slice 0 16 (by decide)
  let tag : Option (Block 16) :=
    match c.mode with
    | .ctr => none
    | .gcm => some (block.slice 16 16 (by decide))
  match c.decrypt (block.bytes.drop c.overhead) iv tag with
  | (.ok (), plain) => .ok plain
  | (.error e, _) => .error e

end Context

end SatLink.Cipher
