import Mathlib.Data.Nat.Bitwise

/-!
# Bytes, one by one

There are 256 bytes, so a statement about each of them is decided by trying them all. What a mask
does to a byte is said for every mask instead.
-/

namespace SatLink

instance decidableForallByte {P : UInt8 → Prop} [DecidablePred P] : Decidable (∀ b, P b) :=
  decidable_of_iff (∀ i : Fin 256, P (UInt8.ofFin i))
    ⟨fun all b => all b.toFin, fun all i => all (UInt8.ofFin i)⟩

/-- A byte is what a mask leaves of it together with what the mask keeps. -/
theorem and_not_or_and (b mask : UInt8) : (b &&& ~~~mask) ||| (b &&& mask) = b := by
  apply UInt8.toBitVec_inj.mp
  have all : ~~~mask.toBitVec ||| mask.toBitVec = BitVec.allOnes 8 := by
    rw [BitVec.or_comm]
    exact BitVec.or_not_self _
  rw [UInt8.toBitVec_or, UInt8.toBitVec_and, UInt8.toBitVec_and, UInt8.toBitVec_not,
    ← BitVec.and_or_distrib_left, all, BitVec.and_allOnes]

/-- A mask of one bit keeps all of itself or nothing. -/
theorem and_eq_ite {mask : UInt8} {k : Nat} (single : mask.toNat = 2 ^ k) (b : UInt8) :
    b &&& mask = if b &&& mask != 0 then mask else 0 := by
  have kept : (b &&& mask).toNat = (b.toNat.testBit k).toNat * 2 ^ k := by
    rw [UInt8.toNat_and, single, Nat.and_two_pow]
  cases bit : b.toNat.testBit k
  · have nothing : b &&& mask = 0 := by
      apply UInt8.toNat_inj.mp
      rw [kept, bit]
      exact Nat.zero_mul _
    rw [nothing]
    rfl
  · have all : b &&& mask = mask := by
      apply UInt8.toNat_inj.mp
      rw [kept, bit, single]
      exact Nat.one_mul _
    have ne : mask ≠ 0 := by
      rintro rfl
      exact absurd single.symm (Nat.ne_of_gt (Nat.two_pow_pos k))
    rw [all, if_pos (bne_iff_ne.mpr ne)]

end SatLink
