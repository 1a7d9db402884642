import SatLink.Proofs.Aes.Tag
import SatLink.Proofs.Frame.BitErrors
import SatLink.Proofs.Outcome
import SatLink.Proofs.Sealing
import SatLink.Uplink.Flow

/-!
# Tampering with a sealed block

In the authenticated mode a block holds its counter, its tag and its ciphertext. One wrong bit
makes one wrong byte. In the tag it is told by comparing, in the ciphertext by the tag that comes
out for it.

* `exists_byte_of_flip` — a wrong bit is a wrong byte;
* `openBlock_flip_tag`, `openBlock_flip_ciphertext` — the two places of a wrong bit;
* `decodePacket_eq_commands_iff` — commands are read from what a block opens to, and from
  nothing else;
* `openBlock_tampered` — **a block with a wrong bit does not open**, and what fails to be decrypted
  stays as it is.
-/

namespace SatLink

/-! ## 1. One wrong bit -/

/-- A block with one bit turned over; the bits are counted from the most significant one of the
    first byte. -/
def Block.flip {n : Nat} (b : Block n) (i : Nat) : Block n :=
  ⟨Frame.flipBits (· == i) b.bytes, by simp⟩

namespace Frame

theorem flipped_ne {i : Nat} {bits : List Bool} (lt : i < bits.length) :
    flipped (· == i) bits ≠ bits := by
  induction bits generalizing i with
  | nil => cases lt
  | cons bit bits ih =>
      intro same
      rw [flipped] at same
      obtain ⟨first, rest⟩ := List.cons.inj same
      cases i with
      | zero => cases bit <;> cases first
      | succ i =>
          refine ih (Nat.lt_of_succ_lt_succ lt) ?_
          simpa using rest

theorem flipBits_ne {i : Nat} {bytes : List UInt8} (lt : i < 8 * bytes.length) :
    flipBits (· == i) bytes ≠ bytes := by
  intro same
  have inside : i < (Bit.bitsOf bytes).length := by rwa [Bit.length_bitsOf]
  refine flipped_ne inside ?_
  rw [← bitsOf_flipBits, same]

/-- **A wrong bit is a wrong byte** between bytes that are right. -/
theorem exists_byte_of_flip {i : Nat} {bytes : List UInt8} (lt : i < 8 * bytes.length) :
    ∃ front byte byte' behind, byte ≠ byte' ∧ bytes = front ++ byte :: behind ∧
      flipBits (· == i) bytes = front ++ byte' :: behind := by
  induction bytes generalizing i with
  | nil => cases lt
  | cons byte bytes ih =>
      have split := flipBits_append (· == i) [byte] bytes
      rw [List.singleton_append] at split
      rcases Nat.lt_or_ge i 8 with first | later
      · have one : (flipBits (· == i) [byte]).length = 1 := length_flipBits ..
        obtain ⟨byte', here⟩ := List.length_eq_one_iff.mp one
        have ne : byte ≠ byte' := by
          rintro rfl
          exact flipBits_ne (show i < 8 * [byte].length from first) here
        have rest : flipBits (fun j => 8 * [byte].length + j == i) bytes = bytes :=
          flipBits_of_unhit fun j _ => beq_false_of_ne (by simp; omega)
        exact ⟨[], byte, byte', bytes, ne, rfl, by rw [split, here, rest]; rfl⟩
      · have here : flipBits (· == i) [byte] = [byte] :=
          flipBits_of_unhit fun j hj => beq_false_of_ne (by simp at hj; omega)
        have moved : (fun j => 8 * [byte].length + j == i) = (· == i - 8) := by
          funext j
          rw [Bool.eq_iff_iff, beq_iff_eq, beq_iff_eq, List.length_singleton]
          omega
        obtain ⟨front, old, new, behind, ne, parts, parts'⟩ :=
          ih (i := i - 8) (by rw [List.length_cons] at lt; omega)
        exact ⟨byte :: front, old, new, behind, ne, by rw [parts]; rfl,
          by rw [split, here, moved, parts']; rfl⟩

/-- A wrong bit of the middle part leaves the parts around it as they are. -/
theorem flipBits_middle {i : Nat} {part : List UInt8} (lt : i < 8 * part.length)
    (front behind : List UInt8) : flipBits (· == 8 * front.length + i) (front ++ (part ++ behind)) =
      front ++ (flipBits (· == i) part ++ behind) := by
  have before : flipBits (· == 8 * front.length + i) front = front :=
    flipBits_of_unhit fun j hj => beq_false_of_ne (by omega)
  have moved : (fun j => 8 * front.length + j == 8 * front.length + i) = (· == i) := by
    funext j
    rw [Bool.eq_iff_iff, beq_iff_eq, beq_iff_eq]
    omega
  have after : flipBits (fun j => 8 * part.length + j == i) behind = behind :=
    flipBits_of_unhit fun j _ => beq_false_of_ne (by omega)
  rw [flipBits_append, before, moved, flipBits_append, after]

end Frame

/-! ## 2. Blocks that do not open -/

namespace Cipher.Context

section

variable {key : Key} {iv given : Block 16} {block : ReedSolomon.Message} {ciphertext : List UInt8}
  (len : ciphertext.length = 191) (right : Aes.Gcm.tag key iv ciphertext = given)
  (parts : block.bytes = iv.bytes ++ (given.bytes ++ ciphertext))

include len right parts

/-- A wrong bit in the tag. -/
theorem openBlock_flip_tag {i : Nat} (lt : i < 8 * tagLength) :
    openBlock ⟨key, .gcm⟩ (block.flip (8 * ivLength + i)) = .error .authenticationFailed := by
  have inside : i < 8 * given.bytes.length := by rwa [given.length_eq]
  have bytes : (block.flip (8 * ivLength + i)).bytes =
      iv.bytes ++ ((given.flip i).bytes ++ ciphertext) := by
    have middle := Frame.flipBits_middle inside iv.bytes ciphertext
    rw [iv.length_eq] at middle
    exact (congrArg _ parts).trans middle
  have wrong : Aes.Gcm.tag key iv ciphertext ≠ given.flip i := by
    rw [right]
    exact fun same => Frame.flipBits_ne inside (congrArg Block.bytes same).symm
  rw [openBlock_of_parts iv len bytes, if_neg wrong]

/-- A wrong bit in the ciphertext. -/
theorem openBlock_flip_ciphertext (ne : Aes.Gcm.hashKey key ≠ 0) {i : Nat} (lt : i < 8 * 191) :
    openBlock ⟨key, .gcm⟩ (block.flip (8 * (ivLength + tagLength) + i)) =
      .error .authenticationFailed := by
  have inside : i < 8 * ciphertext.length := by rwa [len]
  have bytes : (block.flip (8 * (ivLength + tagLength) + i)).bytes =
      iv.bytes ++ (given.bytes ++ Frame.flipBits (· == i) ciphertext) := by
    have middle := Frame.flipBits_middle inside (iv.bytes ++ given.bytes) []
    rw [List.append_nil, List.append_nil, List.length_append, iv.length_eq, given.length_eq,
      List.append_assoc, List.append_assoc] at middle
    exact (congrArg _ parts).trans middle
  have wrong : Aes.Gcm.tag key iv (Frame.flipBits (· == i) ciphertext) ≠ given := by
    obtain ⟨front, byte, byte', behind, other, before, after⟩ := Frame.exists_byte_of_flip inside
    rw [after, ← right, before]
    exact (Aes.Gcm.tag_ne ne other front behind).symm
  rw [openBlock_of_parts iv ((Frame.length_flipBits ..).trans len) bytes, if_neg wrong]

end

/-- **What fails to be decrypted stays as it is.** -/
theorem decrypt_keeps (c : Context) (data : List UInt8) (iv : Block 16) (tag : Option (Block 16)) :
    (c.decrypt data iv tag).1 = .ok () ∨ (c.decrypt data iv tag).2 = data := by
  unfold decrypt
  split
  · exact .inr rfl
  · cases c.mode with
    | ctr => exact .inl rfl
    | gcm =>
        cases tag with
        | none => exact .inr rfl
        | some tag =>
            dsimp only
            cases Aes.Gcm.decrypt? c.key iv data tag with
            | some plain => exact .inl rfl
            | none => exact .inr rfl

end Cipher.Context

/-! ## 3. What the parser is shown -/

/-- **Commands are read from what a block opens to**, and from nothing else. -/
theorem Uplink.Flow.decodePacket_eq_commands_iff {f : Uplink.Flow} {stuffed : List UInt8}
    {commands : List Command} : f.decodePacket stuffed = .ok (.commands commands) ↔
      ∃ header control info plain, Uplink.deframe stuffed = .ok (.data header control info) ∧
        f.addresses.isForUs header.dest = true ∧
        f.cipher.openBlock (ReedSolomon.message info) = .ok plain ∧
        Command.unpackList plain = .ok commands := by
  unfold decodePacket
  rw [bind_eq_ok_iff]
  constructor
  · rintro ⟨received, taken, rest⟩
    cases forUs : f.addresses.isForUs received.header.dest with
    | false =>
        rw [forUs] at rest
        cases rest
    | true =>
        rw [forUs] at rest
        cases received with
        | control header command pollFinal => cases rest
        | data header control info =>
            obtain ⟨plain, opened, read⟩ := bind_eq_ok_iff.mp rest
            obtain ⟨commands', read, same⟩ := bind_eq_ok_iff.mp read
            cases same
            exact ⟨header, control, info, plain, taken, forUs, opened, read⟩
  · rintro ⟨header, control, info, plain, taken, forUs, opened, read⟩
    refine ⟨_, taken, ?_⟩
    have ours :
        f.addresses.isForUs (Frame.Received.data header control info).header.dest = true := forUs
    rw [ours]
    exact bind_eq_ok_iff.mpr ⟨plain, opened, bind_eq_ok_iff.mpr ⟨commands, read, rfl⟩⟩

/-- **A block with one wrong bit does not open.** In the authenticated mode every plaintext that
    fits is sealed, and whichever single bit of the tag is turned over, opening reports that
    authentication failed; so it does for every bit of the ciphertext, that of the filling zeros
    included, if the hash key is not zero. A buffer that fails to be decrypted, in either mode and
    for whatever reason, is left as it was, and commands are only ever read from a plaintext that a
    block opened to. -/
theorem Cipher.Context.openBlock_tampered (key : Key) (iv : Block 16) :
    (∀ plaintext : List UInt8, plaintext.length ≤ capacity ⟨key, .gcm⟩ →
      ∃ block, sealBlock ⟨key, .gcm⟩ plaintext iv = .ok block ∧
        (∀ i < 8 * tagLength,
          openBlock ⟨key, .gcm⟩ (block.flip (8 * ivLength + i)) = .error .authenticationFailed) ∧
        (Aes.Gcm.hashKey key ≠ 0 → ∀ i < 8 * capacity ⟨key, .gcm⟩,
          openBlock ⟨key, .gcm⟩ (block.flip (8 * overhead ⟨key, .gcm⟩ + i)) =
            .error .authenticationFailed)) ∧
    (∀ (c : Context) (data : List UInt8) (counter : Block 16) (tag : Option (Block 16)),
      (c.decrypt data counter tag).1 = .ok () ∨ (c.decrypt data counter tag).2 = data) ∧
    (∀ (f : Uplink.Flow) (stuffed : List UInt8) (commands : List Command),
      f.decodePacket stuffed = .ok (.commands commands) ↔
        ∃ header control info plain, Uplink.deframe stuffed = .ok (.data header control info) ∧
          f.addresses.isForUs header.dest = true ∧
          f.cipher.openBlock (ReedSolomon.message info) = .ok plain ∧
          Command.unpackList plain = .ok commands) := by
  refine ⟨fun plaintext fits => ?_, decrypt_keeps,
    fun _ _ _ => Uplink.Flow.decodePacket_eq_commands_iff⟩
  obtain ⟨block, tag, ciphertext, done, encrypted, len, parts⟩ := sealBlock_of_le fits iv
  have within : ¬ capacity ⟨key, .gcm⟩ < (pad ⟨key, .gcm⟩ plaintext).length :=
    Nat.not_lt.mpr (Nat.le_of_eq (length_pad fits))
  have made : encrypt ⟨key, .gcm⟩ (pad ⟨key, .gcm⟩ plaintext) iv =
      (.ok (some (Aes.Gcm.tag key iv (Aes.Gcm.cryptText key iv (pad ⟨key, .gcm⟩ plaintext)))),
        Aes.Gcm.cryptText key iv (pad ⟨key, .gcm⟩ plaintext)) := if_neg within
  cases encrypted.symm.trans made
  exact ⟨block, done, fun i lt => openBlock_flip_tag len rfl parts lt,
    fun ne i lt => openBlock_flip_ciphertext len rfl parts ne lt⟩

/-- Under a key of sixteen different bytes, the first bit of the tag and the last bit of the zeros
    behind a ping. -/
theorem Cipher.Context.openBlock_tampered_ping :
    let key : Key := Block.ofFn fun i => i.val.toUInt8
    let c : Context := ⟨key, .gcm⟩
    let ping := (Command.immediate .ping).packed
    (ping.length ≤ c.capacity ∧ Aes.Gcm.hashKey key ≠ 0 ∧ 0 < 8 * tagLength ∧
      1527 < 8 * c.capacity) ∧
    ∃ block, c.sealBlock ping (Block.zero 16) = .ok block ∧
      c.openBlock (block.flip (8 * ivLength + 0)) = .error .authenticationFailed ∧
      c.openBlock (block.flip (8 * c.overhead + 1527)) = .error .authenticationFailed := by
  intro key c ping
  have fits : ping.length ≤ c.capacity := by decide
  have ne : Aes.Gcm.hashKey key ≠ 0 := by decide +kernel
  obtain ⟨block, done, tag, ciphertext⟩ := (openBlock_tampered key (Block.zero 16)).1 ping fits
  exact ⟨⟨fits, ne, by decide, by decide⟩, block, done, tag 0 (by decide),
    ciphertext ne 1527 (by decide)⟩

end SatLink
