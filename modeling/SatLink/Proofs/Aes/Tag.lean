import Mathlib.Data.List.GetD
import Mathlib.Data.Nat.Digits.Lemmas
import SatLink.Proofs.Aes.Field

/-!
# What a tag notices

Under a hash key that is not zero no step of the hash loses anything of what was hashed before, so
two texts with different hashes of their beginnings keep different hashes to the end. A wrong byte
changes one block of the text and leaves those around it as they are.

* `toNumber_injective`, `ofNumber_injective` — blocks of bytes and numbers stand for each other;
* `exists_blocks` — a wrong byte is a wrong block;
* `hash_ne` — **a wrong block changes the hash**;
* `tag_ne` — and so a wrong byte changes the tag.
-/

namespace SatLink

/-! ## 1. Blocks as numbers -/

theorem Block.ofFn_injective {n : Nat} : Function.Injective (Block.ofFn (n := n)) :=
  fun _ _ same => List.ofFn_injective (congrArg Block.bytes same)

/-- The bytes of a text up to the end of a block, and the zeros behind a text that ends before. -/
theorem Block.getElem?_fit {n i : Nat} (lt : i < n) (text : List UInt8) :
    (Block.fit n text).bytes[i]? = some (text.getD i 0) := by
  unfold Block.fit
  dsimp only
  rw [List.getElem?_append, List.length_take]
  split
  · rename_i inside
    rw [List.getElem?_take_of_lt lt, List.getElem?_eq_getElem (by omega), List.getD_eq_getElem]
  · rename_i beyond
    rw [List.getElem?_replicate, if_pos (by omega), List.getD_eq_default _ _ (by omega)]

/-- A text that fills a block fills it whatever comes behind. -/
theorem Block.fit_append {n : Nat} {front : List UInt8} (full : n ≤ front.length)
    (rest : List UInt8) :
    Block.fit n (front ++ rest) = Block.fit n front := by
  ext1
  unfold Block.fit
  dsimp only
  rw [List.take_append_of_le_length full, Nat.sub_eq_zero_of_le full, List.length_append,
    Nat.sub_eq_zero_of_le (Nat.le_add_right_of_le full)]

namespace Aes

/-- A byte behind a number that leaves room for it. -/
theorem toNat_shift_or {n : BitVec 128} (room : n.toNat * 256 < 2 ^ 128) (byte : UInt8) :
    ((n <<< 8) ||| byte.toBitVec.setWidth 128).toNat = n.toNat * 256 + byte.toNat := by
  have small : byte.toNat < 2 ^ 8 := byte.toNat_lt
  have high : (n <<< 8).toNat = n.toNat <<< 8 := by
    rw [BitVec.toNat_shiftLeft, Nat.shiftLeft_eq, Nat.mod_eq_of_lt room]
  have low : (byte.toBitVec.setWidth 128).toNat = byte.toNat := by
    rw [BitVec.toNat_setWidth, UInt8.toNat_toBitVec]
    exact Nat.mod_eq_of_lt (by omega)
  rw [BitVec.toNat_or, high, low, ← Nat.shiftLeft_add_eq_or_of_lt small, Nat.shiftLeft_eq]

/-- Sixteen bytes are the digits of their number to the base 256. -/
theorem toNat_foldl (bytes : List UInt8) (short : bytes.length ≤ 16) :
    (bytes.foldl (fun (n : BitVec 128) byte => (n <<< 8) ||| byte.toBitVec.setWidth 128) 0).toNat =
      Nat.ofDigits 256 (bytes.reverse.map UInt8.toNat) := by
  induction bytes using List.reverseRecOn with
  | nil => rfl
  | append_singleton bytes byte ih =>
      rw [List.length_append, List.length_singleton] at short
      have number := ih (by omega)
      have bound : Nat.ofDigits 256 (bytes.reverse.map UInt8.toNat) < 256 ^ bytes.length := by
        have digits : ∀ d ∈ bytes.reverse.map UInt8.toNat, d < 256 := by
          intro d mem
          obtain ⟨b, -, rfl⟩ := List.mem_map.mp mem
          exact b.toNat_lt
        have lt := Nat.ofDigits_lt_base_pow_length (by decide) digits
        rwa [List.length_map, List.length_reverse] at lt
      have power : 256 ^ bytes.length ≤ 256 ^ 15 := Nat.pow_le_pow_right (by decide) (by omega)
      rw [List.foldl_append, List.foldl_cons, List.foldl_nil, toNat_shift_or, number,
        List.reverse_append, List.reverse_singleton, List.singleton_append, List.map_cons,
        Nat.ofDigits_cons]
      · rw [Nat.mul_comm, Nat.add_comm]
      · rw [number]
        omega

theorem toNumber_injective : Function.Injective toNumber := by
  intro a b same
  have digits := congrArg BitVec.toNat same
  unfold toNumber at digits
  rw [toNat_foldl _ (Nat.le_of_eq a.length_eq), toNat_foldl _ (Nat.le_of_eq b.length_eq)] at digits
  have small (block : State) : ∀ d ∈ block.bytes.reverse.map UInt8.toNat, d < 256 := by
    intro d mem
    obtain ⟨byte, -, rfl⟩ := List.mem_map.mp mem
    exact byte.toNat_lt
  have len : (a.bytes.reverse.map UInt8.toNat).length =
      (b.bytes.reverse.map UInt8.toNat).length := by
    simp
  have bytes := Nat.ofDigits_inj_of_len_eq (by decide) len (small a) (small b) digits
  exact Block.ext
    (List.reverse_injective ((List.map_injective_iff.mpr fun _ _ => UInt8.toNat_inj.mp) bytes))

theorem ofNumber_injective : Function.Injective ofNumber := by
  intro m n same
  apply BitVec.eq_of_getLsbD_eq
  intro k lt
  have inside : k / 8 < 16 := by omega
  have byte := congrFun (Block.ofFn_injective same) ⟨15 - k / 8, by omega⟩
  have bits := congrArg (fun b : UInt8 => b.toBitVec.getLsbD (k % 8)) byte
  have place : 8 * (15 - (15 - k / 8)) + k % 8 = k := by omega
  simpa [place, Nat.mod_lt] using bits

namespace Gcm

/-! ## 2. Texts as blocks -/

/-- **A wrong byte is a wrong block** between blocks that are right. -/
theorem exists_blocks {byte byte' : UInt8} (ne : byte ≠ byte') (behind : List UInt8) (n : Nat)
    (front : List UInt8) (enough : front.length < n) : ∃ before wrong right rest, wrong ≠ right ∧
      blocksOf n (front ++ byte :: behind) = before ++ wrong :: rest ∧
      blocksOf n (front ++ byte' :: behind) = before ++ right :: rest := by
  -- by blocks: the wrong byte is in the first one, or in a later one behind the same first block
  induction n generalizing front with
  | zero => cases enough
  | succ n ih =>
      have cut (b : UInt8) : blocksOf (n + 1) (front ++ b :: behind) =
          toNumber (Block.fit 16 (front ++ b :: behind)) ::
            blocksOf n ((front ++ b :: behind).drop 16) := by
        rw [blocksOf, if_neg]
        simp
      rcases Nat.lt_or_ge front.length 16 with first | later
      · have different : toNumber (Block.fit 16 (front ++ byte :: behind)) ≠
            toNumber (Block.fit 16 (front ++ byte' :: behind)) := by
          intro same
          have entry := congrArg (·.bytes[front.length]?) (toNumber_injective same)
          rw [Block.getElem?_fit first, Block.getElem?_fit first] at entry
          exact ne (by simpa using entry)
        have rest (b : UInt8) :
            (front ++ b :: behind).drop 16 = behind.drop (15 - front.length) := by
          rw [List.drop_append, List.drop_of_length_le (Nat.le_of_lt first), List.nil_append,
            show 16 - front.length = 15 - front.length + 1 by omega, List.drop_succ_cons]
        exact ⟨[], _, _, _, different, (cut byte).trans (by rw [rest]; rfl),
          (cut byte').trans (by rw [rest]; rfl)⟩
      · obtain ⟨before, wrong, right, rest, different, parts, parts'⟩ := ih (front.drop 16) (by
          rw [List.length_drop]
          omega)
        have moved (b : UInt8) : blocksOf (n + 1) (front ++ b :: behind) =
            toNumber (Block.fit 16 front) :: blocksOf n (front.drop 16 ++ b :: behind) := by
          rw [cut, Block.fit_append later, List.drop_append_of_le_length later]
        refine ⟨toNumber (Block.fit 16 front) :: before, wrong, right, rest, different, ?_, ?_⟩
        · rw [moved, parts, List.cons_append]
        · rw [moved, parts', List.cons_append]

/-! ## 3. Hashes -/

section

variable {key : BitVec 128} (ne : key ≠ 0)

include ne

/-- Hashing on loses nothing. -/
theorem foldl_injective (blocks : List (BitVec 128)) :
    Function.Injective fun y => blocks.foldl (fun y x => mul (y ^^^ x) key) y := by
  induction blocks with
  | nil => exact Function.injective_id
  | cons x blocks ih =>
      intro a b same
      have first : mul (a ^^^ x) key = mul (b ^^^ x) key := ih same
      exact BitVec.xor_left_inj x |>.mp (mul_left_injective ne first)

/-- **A wrong block changes the hash.** -/
theorem hash_ne {wrong right : BitVec 128} (other : wrong ≠ right)
    (before rest : List (BitVec 128)) :
    hash key (before ++ wrong :: rest) ≠ hash key (before ++ right :: rest) := by
  intro same
  unfold hash at same
  rw [List.foldl_append, List.foldl_append, List.foldl_cons, List.foldl_cons] at same
  have sums := mul_left_injective ne (foldl_injective ne rest same)
  exact other (BitVec.xor_right_inj _ |>.mp sums)

end

/-- **A wrong byte changes the tag.** -/
theorem tag_ne {key nonce : State} (ne : hashKey key ≠ 0) {byte byte' : UInt8}
    (other : byte ≠ byte')
    (front behind : List UInt8) :
    tag key nonce (front ++ byte :: behind) ≠ tag key nonce (front ++ byte' :: behind) := by
  have len : (front ++ byte' :: behind).length = (front ++ byte :: behind).length := by
    simp only [List.length_append, List.length_cons]
  have inside : front.length < (front ++ byte :: behind).length := by
    simp only [List.length_append, List.length_cons]
    omega
  obtain ⟨before, wrong, right, rest, ne', cut, cut'⟩ := exists_blocks other behind _ front inside
  intro same
  unfold tag at same
  dsimp only at same
  rw [len, cut, cut', List.append_assoc, List.append_assoc, List.cons_append,
    List.cons_append] at same
  exact hash_ne ne ne' before _ (BitVec.xor_left_inj _ |>.mp (ofNumber_injective same))

end Gcm

end Aes

end SatLink
