import Mathlib.Data.LawfulXor.Basic
import SatLink.Cipher

/-!
# Opening what was sealed

* `crypt_crypt` — adding a key stream twice is adding nothing, so counter mode undoes itself;
* `decrypt?_encrypt` — the authenticated mode accepts its own tag;
* `openBlock_sealBlock` — a block opens to the plaintext it was sealed with, filled with zeros.
-/

namespace SatLink

theorem Block.bytes_fit {n : Nat} {bytes : List UInt8} (len : bytes.length = n) :
    (Block.fit n bytes).bytes = bytes := by
  show bytes.take n ++ List.replicate (n - bytes.length) 0 = bytes
  rw [len, Nat.sub_self, List.replicate_zero, List.append_nil, List.take_of_length_le (by omega)]

/-- A slice of a block is the part that stands where the slice begins. -/
theorem Block.slice_eq {n start k : Nat} {b : Block n} {part : Block k} {front back : List UInt8}
    (h : start + k ≤ n) (parts : b.bytes = front ++ (part.bytes ++ back))
    (len : front.length = start) : b.slice start k h = part := by
  ext1
  show (b.bytes.drop start).take k = part.bytes
  rw [parts, List.drop_left' len, List.take_left' part.length_eq]

namespace Aes

/-! ## 1. Key streams -/

/-- Adding the same bytes twice adds nothing. -/
theorem zipWith_xor_cancel {text stream : List UInt8} (enough : text.length ≤ stream.length) :
    List.zipWith (· ^^^ ·) (List.zipWith (· ^^^ ·) text stream) stream = text := by
  apply List.ext_getElem
  · rw [List.length_zipWith, List.length_zipWith]
    omega
  · intro i _ _
    rw [List.getElem_zipWith, List.getElem_zipWith, xor_cancel_right]

/-- **Counter mode undoes itself.** -/
theorem crypt_crypt (key : State) (next : BitVec 128 → BitVec 128) (counter : BitVec 128)
    (text : List UInt8) : crypt key next counter (crypt key next counter text) = text := by
  have enough : text.length ≤ (keyStream key next ((text.length + 15) / 16) counter).length := by
    rw [length_keyStream]
    omega
  have len := length_crypt key next counter text
  unfold crypt at len ⊢
  rw [len, zipWith_xor_cancel enough]

/-- **The authenticated mode accepts its own tag.** -/
theorem Gcm.decrypt?_encrypt (key nonce : State) (text : List UInt8) :
    Gcm.decrypt? key nonce (Gcm.encrypt key nonce text).1 (Gcm.encrypt key nonce text).2 =
      some text := by
  unfold Gcm.decrypt?
  exact (if_pos rfl).trans (congrArg some (crypt_crypt _ _ _ _))

theorem Gcm.length_encrypt (key nonce : State) (text : List UInt8) :
    (Gcm.encrypt key nonce text).1.length = text.length :=
  length_crypt ..

end Aes

namespace Cipher.Context

/-! ## 2. Blocks -/

theorem length_pad {c : Context} {plaintext : List UInt8} (fits : plaintext.length ≤ c.capacity) :
    (c.pad plaintext).length = c.capacity := by
  rw [pad, List.length_append, List.length_replicate]
  omega

/-- Decrypting leaves the length as it is. -/
theorem length_decrypt (c : Context) (data : List UInt8) (iv : Block 16) (tag : Option (Block 16)) :
    (c.decrypt data iv tag).2.length = data.length := by
  unfold decrypt
  split
  · rfl
  · cases c.mode with
    | ctr => exact Aes.length_crypt ..
    | gcm =>
        cases tag with
        | none => rfl
        | some tag =>
            dsimp only
            unfold Aes.Gcm.decrypt?
            by_cases right : Aes.Gcm.tag c.key iv data = tag
            · rw [if_pos right]
              exact Aes.length_crypt ..
            · rw [if_neg right]

theorem length_of_openBlock {c : Context} {block : ReedSolomon.Message} {plain : List UInt8}
    (h : c.openBlock block = .ok plain) : plain.length = c.capacity := by
  unfold openBlock at h
  dsimp only at h
  split at h
  · rename_i opened
    have len := congrArg (·.2.length) opened
    dsimp only at len
    rw [length_decrypt, List.length_drop, block.length_eq] at len
    cases h
    exact len.symm
  · cases h

section

variable {key : Key} (iv : Block 16) {text : List UInt8}

theorem decrypt_ctr (fits : text.length ≤ 207) :
    decrypt ⟨key, .ctr⟩ (Aes.counterMode key iv text) iv none = (.ok (), text) := by
  have within : ¬ capacity ⟨key, .ctr⟩ < (Aes.counterMode key iv text).length := by
    rw [Aes.counterMode, Aes.length_crypt]
    exact Nat.not_lt.mpr fits
  unfold decrypt
  rw [if_neg within]
  exact congrArg (Prod.mk _) (Aes.crypt_crypt ..)

theorem decrypt_gcm (fits : text.length ≤ 191) :
    decrypt ⟨key, .gcm⟩ (Aes.Gcm.encrypt key iv text).1 iv (some (Aes.Gcm.encrypt key iv text).2) =
      (.ok (), text) := by
  have within : ¬ capacity ⟨key, .gcm⟩ < (Aes.Gcm.encrypt key iv text).1.length := by
    rw [Aes.Gcm.length_encrypt]
    exact Nat.not_lt.mpr fits
  unfold decrypt
  rw [if_neg within]
  dsimp only
  rw [Aes.Gcm.decrypt?_encrypt]

/-- In counter mode a block is the counter and the ciphertext. -/
theorem openBlock_ctr {block : ReedSolomon.Message} (len : text.length = 207)
    (parts : block.bytes = iv.bytes ++ Aes.counterMode key iv text) :
    openBlock ⟨key, .ctr⟩ block = .ok text := by
  have first : block.slice 0 16 (by decide) = iv :=
    Block.slice_eq _ (show block.bytes = [] ++ (iv.bytes ++ _) from parts) rfl
  have rest : block.bytes.drop (overhead ⟨key, .ctr⟩) = Aes.counterMode key iv text := by
    rw [parts]
    exact List.drop_left' iv.length_eq
  unfold openBlock
  dsimp only
  rw [first, rest, decrypt_ctr iv (Nat.le_of_eq len)]

/-- In the authenticated mode the tag stands between the two, and the block opens where it is the
    tag of the ciphertext. -/
theorem openBlock_of_parts {block : ReedSolomon.Message} {given : Block 16}
    {ciphertext : List UInt8}
    (len : ciphertext.length = 191)
    (parts : block.bytes = iv.bytes ++ (given.bytes ++ ciphertext)) :
    openBlock ⟨key, .gcm⟩ block =
      if Aes.Gcm.tag key iv ciphertext = given then .ok (Aes.Gcm.cryptText key iv ciphertext)
      else .error .authenticationFailed := by
  have first : block.slice 0 16 (by decide) = iv :=
    Block.slice_eq _ (show block.bytes = [] ++ (iv.bytes ++ _) from parts) rfl
  have second : block.slice 16 16 (by decide) = given := Block.slice_eq _ parts iv.length_eq
  have rest : block.bytes.drop (overhead ⟨key, .gcm⟩) = ciphertext := by
    have front : (iv.bytes ++ given.bytes).length = overhead ⟨key, .gcm⟩ := by
      rw [List.length_append, iv.length_eq, given.length_eq]
      rfl
    rw [parts, ← List.append_assoc, List.drop_left' front]
  have within : ¬ capacity ⟨key, .gcm⟩ < ciphertext.length := Nat.not_lt.mpr (Nat.le_of_eq len)
  unfold openBlock decrypt Aes.Gcm.decrypt?
  dsimp only
  rw [first, second, rest, if_neg within]
  by_cases right : Aes.Gcm.tag key iv ciphertext = given
  · rw [if_pos right, if_pos right]
  · rw [if_neg right, if_neg right]

/-- The block that is made of a text opens to it. -/
theorem openBlock_gcm {block : ReedSolomon.Message} (len : text.length = 191)
    (parts : block.bytes = iv.bytes ++
      ((Aes.Gcm.encrypt key iv text).2.bytes ++ (Aes.Gcm.encrypt key iv text).1)) :
    openBlock ⟨key, .gcm⟩ block = .ok text := by
  have own : Aes.Gcm.tag key iv (Aes.Gcm.encrypt key iv text).1 =
      (Aes.Gcm.encrypt key iv text).2 := rfl
  rw [openBlock_of_parts iv ((Aes.Gcm.length_encrypt ..).trans len) parts, if_pos own]
  exact congrArg Except.ok (Aes.crypt_crypt ..)

end

/-- **A sealed block opens** to its plaintext, filled with zeros up to the capacity. -/
theorem openBlock_sealBlock {c : Context} {plaintext : List UInt8} (iv : Block 16)
    (fits : plaintext.length ≤ c.capacity) :
    ∃ block, c.sealBlock plaintext iv = .ok block ∧ c.openBlock block = .ok (c.pad plaintext) := by
  have len := length_pad fits
  have within : ¬ c.capacity < (c.pad plaintext).length := by omega
  unfold sealBlock encrypt
  rw [if_neg (Nat.not_lt.mpr fits), if_neg within]
  obtain ⟨key, mode⟩ := c
  generalize pad _ plaintext = text at len
  cases mode with
  | ctr =>
      refine ⟨_, rfl, openBlock_ctr iv len (Block.bytes_fit ?_)⟩
      rw [List.length_append, iv.length_eq, Aes.counterMode, Aes.length_crypt, len]
      rfl
  | gcm =>
      refine ⟨_, rfl, openBlock_gcm iv len (Block.bytes_fit ?_)⟩
      show (iv.bytes ++ ((Aes.Gcm.encrypt key iv text).2.bytes ++
        (Aes.Gcm.encrypt key iv text).1)).length = _
      rw [List.length_append, List.length_append, iv.length_eq, Block.length_eq,
        Aes.Gcm.length_encrypt, len]
      rfl

/-- A sealed block begins with its counter, which is not encrypted. -/
theorem exists_append_of_sealBlock {c : Context} {plaintext : List UInt8} {iv : Block 16}
    {block : ReedSolomon.Message} (h : c.sealBlock plaintext iv = .ok block) :
    ∃ rest, block.bytes = iv.bytes ++ rest := by
  have begins (rest : List UInt8) : ∃ more,
      (Block.fit ReedSolomon.messageLength (iv.bytes ++ rest)).bytes = iv.bytes ++ more := by
    refine ⟨rest.take 207 ++ List.replicate (223 - (iv.bytes ++ rest).length) 0, ?_⟩
    show (iv.bytes ++ rest).take 223 ++ _ = _
    rw [List.take_append, iv.length_eq, List.take_of_length_le (by rw [iv.length_eq]; decide),
      List.append_assoc]
  unfold sealBlock at h
  split at h
  · cases h
  · split at h
    · cases h
    · cases h
      exact begins _
    · cases h
      exact begins _

end Cipher.Context

end SatLink
