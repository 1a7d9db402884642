import SatLink.Proofs.Cipher

/-!
# What sealing and opening a block do to each other

Both modes cut a block at the same places when it is sealed and when it is opened: the counter, in
the authenticated mode the tag, and the ciphertext, which fills the rest.

* `decrypt_encrypt`, `encrypt_decrypt` — on any buffer within the capacity each undoes the other
  (`decrypt_eq_ok_iff`);
* `sealBlock_of_le` — what a sealed block is made of;
* `sealBlock_opens` — **a block is sealed exactly when the plaintext fits, begins with its counter,
  and opens to the plaintext filled with zeros**.
-/

namespace SatLink.Cipher.Context

/-! ## 1. Buffers -/

/-- The bytes of the tag, in a mode that has one. -/
def tagBytes : Option (Block 16) → List UInt8
  | none => []
  | some tag => tag.bytes

theorem encrypt_of_lt {c : Context} {data : List UInt8} (long : c.capacity < data.length)
    (iv : Block 16) : c.encrypt data iv = (.error (.argument .plaintextTooLong), data) :=
  if_pos long

/-- **Decrypting undoes encrypting**, on every buffer within the capacity. -/
theorem decrypt_encrypt {c : Context} {data : List UInt8} (fits : data.length ≤ c.capacity)
    (iv : Block 16) :
    ∃ tag ciphertext, c.encrypt data iv = (.ok tag, ciphertext) ∧
      ciphertext.length = data.length ∧ (iv.bytes ++ tagBytes tag).length = c.overhead ∧
      c.decrypt ciphertext iv tag = (.ok (), data) := by
  have encrypted : c.encrypt data iv = _ := if_neg (Nat.not_lt.mpr fits)
  obtain ⟨key, mode⟩ := c
  cases mode with
  | ctr =>
      refine ⟨_, _, encrypted, Aes.length_crypt .., ?_, decrypt_ctr iv fits⟩
      rw [tagBytes, List.append_nil, iv.length_eq]
      rfl
  | gcm =>
      refine ⟨_, _, encrypted, Aes.Gcm.length_encrypt .., ?_, decrypt_gcm iv fits⟩
      rw [tagBytes, List.length_append, iv.length_eq, Block.length_eq]
      rfl

/-- **Encrypting undoes decrypting**, wherever that succeeds; in the authenticated mode the tag
    comes out that it was given. -/
theorem encrypt_decrypt {c : Context} {data plain : List UInt8} {iv : Block 16}
    {tag : Option (Block 16)} (h : c.decrypt data iv tag = (.ok (), plain)) :
    ∃ tag', c.encrypt plain iv = (.ok tag', data) ∧ (c.mode = .gcm → tag' = tag) := by
  have len := congrArg (·.2.length) h
  dsimp only at len
  rw [length_decrypt] at len
  unfold decrypt at h
  split at h
  · cases h
  · rename_i within
    rw [len] at within
    have encrypted : c.encrypt plain iv = _ := if_neg within
    obtain ⟨key, mode⟩ := c
    cases mode with
    | ctr =>
        cases h
        refine ⟨none, ?_, nofun⟩
        rw [encrypted]
        exact congrArg (Prod.mk _) (Aes.crypt_crypt ..)
    | gcm =>
        cases tag with
        | none => cases h
        | some tag =>
            dsimp only at h
            unfold Aes.Gcm.decrypt? at h
            by_cases right : Aes.Gcm.tag key iv data = tag
            · rw [if_pos right] at h
              cases h
              have again : Aes.Gcm.cryptText key iv (Aes.Gcm.cryptText key iv data) = data :=
                Aes.crypt_crypt ..
              refine ⟨some tag, ?_, fun _ => rfl⟩
              rw [encrypted]
              show (Except.ok (some (Aes.Gcm.tag key iv (Aes.Gcm.cryptText key iv
                (Aes.Gcm.cryptText key iv data)))), Aes.Gcm.cryptText key iv
                (Aes.Gcm.cryptText key iv data)) = _
              rw [again, right]
            · rw [if_neg right] at h
              cases h

/-- **Decrypting finds exactly the plaintext that is encrypted to the buffer**, in the authenticated
    mode with the given tag; in counter mode a tag has no say. -/
theorem decrypt_eq_ok_iff {c : Context} {data plain : List UInt8} {iv : Block 16}
    {tag : Option (Block 16)} :
    c.decrypt data iv tag = (.ok (), plain) ↔
      ∃ tag', c.encrypt plain iv = (.ok tag', data) ∧ (c.mode = .gcm → tag' = tag) := by
  refine ⟨encrypt_decrypt, fun encrypted => ?_⟩
  obtain ⟨tag', encrypted, same⟩ := encrypted
  have fits : plain.length ≤ c.capacity := by
    rcases Nat.lt_or_ge c.capacity plain.length with long | fits
    · rw [encrypt_of_lt long] at encrypted
      cases encrypted
    · exact fits
  obtain ⟨_, _, encrypted', -, -, undone⟩ := decrypt_encrypt fits iv
  cases encrypted.symm.trans encrypted'
  obtain ⟨key, mode⟩ := c
  cases mode with
  | ctr => exact undone
  | gcm => rwa [same rfl] at undone

/-! ## 2. Blocks -/

theorem overhead_add_capacity (c : Context) :
    c.overhead + c.capacity = ReedSolomon.messageLength := by
  obtain ⟨_, mode⟩ := c
  cases mode <;> rfl

/-- **What a sealed block is made of**: the counter, the tag and the ciphertext of the plaintext
    filled with zeros. -/
theorem sealBlock_of_le {c : Context} {plaintext : List UInt8}
    (fits : plaintext.length ≤ c.capacity)
    (iv : Block 16) :
    ∃ block tag ciphertext, c.sealBlock plaintext iv = .ok block ∧
      c.encrypt (c.pad plaintext) iv = (.ok tag, ciphertext) ∧ ciphertext.length = c.capacity ∧
      block.bytes = iv.bytes ++ (tagBytes tag ++ ciphertext) := by
  have len := length_pad fits
  obtain ⟨tag, ciphertext, encrypted, same, front, -⟩ := decrypt_encrypt (Nat.le_of_eq len) iv
  have whole : (iv.bytes ++ (tagBytes tag ++ ciphertext)).length = ReedSolomon.messageLength := by
    rw [← List.append_assoc, List.length_append, front, same, len, overhead_add_capacity]
  refine ⟨Block.fit _ (iv.bytes ++ (tagBytes tag ++ ciphertext)), tag, ciphertext, ?_, encrypted,
    same.trans len, Block.bytes_fit whole⟩
  unfold sealBlock
  rw [if_neg (Nat.not_lt.mpr fits), encrypted]
  cases tag <;> rfl

theorem sealBlock_of_lt {c : Context} {plaintext : List UInt8}
    (long : c.capacity < plaintext.length)
    (iv : Block 16) :
    c.sealBlock plaintext iv = .error (.bufferTooSmall plaintext.length c.capacity) :=
  if_pos long

theorem le_capacity_of_sealBlock {c : Context} {plaintext : List UInt8} {iv : Block 16}
    {block : ReedSolomon.Message} (done : c.sealBlock plaintext iv = .ok block) :
    plaintext.length ≤ c.capacity := by
  rcases Nat.lt_or_ge c.capacity plaintext.length with long | fits
  · rw [sealBlock_of_lt long iv] at done
    cases done
  · exact fits

/-- **A block is sealed exactly when the plaintext fits**; a longer one is reported with its length.
    A sealed block begins with its counter, the tag comes next if the mode has one, and the
    ciphertext of the plaintext filled with zeros is the rest; opened, it is that plaintext again.
    On every buffer within the capacity encrypting succeeds, keeps the length, and is undone by
    decrypting; and decrypting succeeds exactly where encrypting undoes it, with the same tag in the
    authenticated mode. -/
theorem sealBlock_opens (c : Context) (iv : Block 16) :
    (∀ plaintext, (∃ block, c.sealBlock plaintext iv = .ok block) ↔ plaintext.length ≤ c.capacity) ∧
    (∀ plaintext, c.capacity < plaintext.length →
      c.sealBlock plaintext iv = .error (.bufferTooSmall plaintext.length c.capacity)) ∧
    (∀ plaintext block, c.sealBlock plaintext iv = .ok block →
      block.bytes.take 16 = iv.bytes ∧
      (∃ tag ciphertext,
        c.encrypt (plaintext ++ List.replicate (c.capacity - plaintext.length) 0) iv =
          (.ok tag, ciphertext) ∧ ciphertext.length = c.capacity ∧
        block.bytes = iv.bytes ++ (tagBytes tag ++ ciphertext)) ∧
      c.openBlock block = .ok (plaintext ++ List.replicate (c.capacity - plaintext.length) 0)) ∧
    (∀ data, data.length ≤ c.capacity → ∃ tag ciphertext,
      c.encrypt data iv = (.ok tag, ciphertext) ∧ ciphertext.length = data.length ∧
      c.decrypt ciphertext iv tag = (.ok (), data)) ∧
    (∀ data tag plain, c.decrypt data iv tag = (.ok (), plain) ↔
      ∃ tag', c.encrypt plain iv = (.ok tag', data) ∧ (c.mode = .gcm → tag' = tag)) := by
  refine ⟨fun plaintext => ⟨fun done => ?_, fun fits => ?_⟩,
    fun plaintext long => sealBlock_of_lt long iv, fun plaintext block done => ?_,
    fun data fits => ?_, fun data tag plain => decrypt_eq_ok_iff⟩
  · obtain ⟨block, done⟩ := done
    exact le_capacity_of_sealBlock done
  · obtain ⟨block, _, _, done, -⟩ := sealBlock_of_le fits iv
    exact ⟨block, done⟩
  · have fits := le_capacity_of_sealBlock done
    obtain ⟨block', tag, ciphertext, done', encrypted, len, parts⟩ := sealBlock_of_le fits iv
    obtain ⟨block'', done'', opened⟩ := openBlock_sealBlock iv fits
    cases done.symm.trans done'
    cases done.symm.trans done''
    refine ⟨?_, ⟨tag, ciphertext, encrypted, len, parts⟩, opened⟩
    rw [parts]
    exact List.take_left' iv.length_eq
  · obtain ⟨tag, ciphertext, encrypted, len, -, undone⟩ := decrypt_encrypt fits iv
    exact ⟨tag, ciphertext, encrypted, len, undone⟩

end SatLink.Cipher.Context
