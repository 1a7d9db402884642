import Mathlib.Data.Finset.Card
import Mathlib.Data.LawfulXor.Basic
import Mathlib.Data.List.Nodup

/-!
# Where two byte strings differ

`differences a b` lists the indices at which two byte strings do not hold the same byte; an index
beyond the end of one of them only counts as a difference.

Main statements: two strings that differ nowhere are one (`differences_eq_nil_iff`), differences add
up at most (`length_differences_le`), and a pattern added to a string changes as many bytes as it
has that are not zero (`length_differences_xor`).
-/

namespace SatLink

/-- The indices at which two byte strings differ. -/
def differences (a b : List UInt8) : List Nat :=
  (List.range (max a.length b.length)).filter fun i => a[i]? != b[i]?

theorem mem_differences {a b : List UInt8} {i : Nat} : i ∈ differences a b ↔ a[i]? ≠ b[i]? := by
  simp only [differences, List.mem_filter, List.mem_range, bne_iff_ne, ne_eq, and_iff_right_iff_imp]
  intro ne
  by_contra beyond
  have ha : a.length ≤ i := by omega
  have hb : b.length ≤ i := by omega
  exact ne (by rw [List.getElem?_eq_none ha, List.getElem?_eq_none hb])

theorem lt_of_mem_differences {a b : List UInt8} {i : Nat} (h : i ∈ differences a b) :
    i < max a.length b.length :=
  List.mem_range.mp (List.mem_of_mem_filter h)

theorem nodup_differences (a b : List UInt8) : (differences a b).Nodup :=
  List.nodup_range.filter _

theorem differences_comm (a b : List UInt8) : differences a b = differences b a := by
  simp only [differences, max_comm, bne_comm]

theorem differences_eq_nil_iff {a b : List UInt8} : differences a b = [] ↔ a = b := by
  rw [List.eq_nil_iff_forall_not_mem]
  simp only [mem_differences, not_not]
  exact ⟨fun same => List.ext_getElem? same, fun e _ => e ▸ rfl⟩

@[simp] theorem differences_self (a : List UInt8) : differences a a = [] :=
  differences_eq_nil_iff.mpr rfl

/-- As many differences as there are indices with different bytes. -/
theorem length_differences (a b : List UInt8) :
    (differences a b).length = (differences a b).toFinset.card :=
  (List.toFinset_card_of_nodup (nodup_differences a b)).symm

/-- Between two common parts, the differences are those of the middle, moved behind the first. -/
theorem mem_differences_append {p a b s : List UInt8} (len : a.length = b.length) {i : Nat} :
    i ∈ differences (p ++ (a ++ s)) (p ++ (b ++ s)) ↔
      p.length ≤ i ∧ i - p.length ∈ differences a b := by
  rw [mem_differences, mem_differences]
  rcases Nat.lt_or_ge i p.length with before | behind
  · rw [List.getElem?_append_left before, List.getElem?_append_left before]
    exact ⟨fun ne => absurd rfl ne, fun h => absurd h.1 (by omega)⟩
  rw [List.getElem?_append_right behind, List.getElem?_append_right behind]
  rcases Nat.lt_or_ge (i - p.length) a.length with inside | beyond
  · rw [List.getElem?_append_left inside, List.getElem?_append_left (len ▸ inside)]
    exact ⟨fun ne => ⟨behind, ne⟩, fun h => h.2⟩
  · have ha : a[i - p.length]? = none := List.getElem?_eq_none beyond
    have hb : b[i - p.length]? = none := List.getElem?_eq_none (len ▸ beyond)
    rw [List.getElem?_append_right beyond, List.getElem?_append_right (len ▸ beyond), ← len, ha, hb]
    exact ⟨fun ne => absurd rfl ne, fun h => absurd rfl h.2⟩

theorem length_differences_append {p a b s : List UInt8} (len : a.length = b.length) :
    (differences (p ++ (a ++ s)) (p ++ (b ++ s))).length = (differences a b).length := by
  have moved : (differences (p ++ (a ++ s)) (p ++ (b ++ s))).toFinset =
      (differences a b).toFinset.image (p.length + ·) := by
    ext i
    rw [List.mem_toFinset, mem_differences_append len, Finset.mem_image]
    constructor
    · rintro ⟨le, inside⟩
      exact ⟨i - p.length, List.mem_toFinset.mpr inside, Nat.add_sub_of_le le⟩
    · rintro ⟨j, inside, rfl⟩
      refine ⟨Nat.le_add_right .., ?_⟩
      rw [Nat.add_sub_cancel_left]
      exact List.mem_toFinset.mp inside
  rw [length_differences, length_differences, moved,
    Finset.card_image_of_injective _ fun _ _ => Nat.add_left_cancel]

/-- Strings of one length that differ only between two indices have the parts around them in
    common. -/
theorem eq_append_of_differences {a b : List UInt8} {m n : Nat} (le : m ≤ n)
    (bound : n < b.length) (inside : ∀ i ∈ differences a b, m ≤ i ∧ i < n) :
    a.length = b.length ∧ a.take m = b.take m ∧ a.drop n = b.drop n := by
  have same : ∀ i, ¬ (m ≤ i ∧ i < n) → a[i]? = b[i]? := by
    intro i outside
    by_contra ne
    exact outside (inside i (mem_differences.mpr ne))
  refine ⟨?_, ?_, ?_⟩
  · rcases Nat.lt_trichotomy a.length b.length with short | e | long
    · have last := same (b.length - 1) (by omega)
      rw [List.getElem?_eq_none (by omega), List.getElem?_eq_getElem (by omega)] at last
      cases last
    · exact e
    · have last := same (a.length - 1) (by omega)
      rw [List.getElem?_eq_getElem (by omega), List.getElem?_eq_none (by omega)] at last
      cases last
  · apply List.ext_getElem?
    intro i
    rw [List.getElem?_take, List.getElem?_take]
    split
    · exact same i (by omega)
    · rfl
  · apply List.ext_getElem?
    intro i
    rw [List.getElem?_drop, List.getElem?_drop]
    exact same _ (by omega)

/-- Through a third string, differences add up at most. -/
theorem length_differences_le (a b c : List UInt8) :
    (differences a c).length ≤ (differences a b).length + (differences b c).length := by
  simp only [length_differences]
  refine (Finset.card_le_card fun i hi => ?_).trans (Finset.card_union_le _ _)
  rw [Finset.mem_union, List.mem_toFinset, List.mem_toFinset, mem_differences, mem_differences]
  rw [List.mem_toFinset, mem_differences] at hi
  by_contra neither
  rw [not_or, not_not, not_not] at neither
  exact hi (neither.1.trans neither.2)

/-- **Adding a pattern changes as many bytes as the pattern has that are not zero.** -/
theorem length_differences_xor (a e : List UInt8) (len : e.length = a.length) :
    (differences (List.zipWith (· ^^^ ·) a e) a).length = e.countP (· ≠ 0) := by
  have listed : e = (List.range e.length).map fun i => e.getD i 0 := by
    apply List.ext_getElem (by simp)
    intro i hi _
    simp [hi]
  rw [List.countP_eq_length_filter, differences, List.length_zipWith, len, Nat.min_self,
    Nat.max_self]
  conv_rhs => rw [listed, List.filter_map, List.length_map, len]
  congr 1
  apply List.filter_congr
  intro i hi
  have lt : i < a.length := List.mem_range.mp hi
  have lt' : i < e.length := by rw [len]; exact lt
  have entry : e.getD i 0 = e[i] := by
    rw [List.getD_eq_getElem?_getD, List.getElem?_eq_getElem lt']
    rfl
  rw [Bool.eq_iff_iff, bne_iff_ne, List.getElem?_zipWith, List.getElem?_eq_getElem lt,
    List.getElem?_eq_getElem lt', Function.comp_apply, entry, decide_eq_true_iff]
  exact (Option.some_inj.trans xor_left_eq_self_iff).not

end SatLink
