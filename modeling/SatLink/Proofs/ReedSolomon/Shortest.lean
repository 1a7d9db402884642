import SatLink.Block
import SatLink.Proofs.ReedSolomon.Recurrence

/-!
# The shortest locator

What the search finds, told of bytes alone: a locator of degree `d` makes every syndrome from the
`d`th on the sum of the `d` syndromes before it, each times its coefficient.

* `leftover` — what a locator leaves of a syndrome; `Locates` — a locator of some degree;
* `ofByte_leftover` — what is left is a coefficient of the product, so locators are the recurrences
  that predict the syndromes (`Locates.predicts`, `locates_of_predicts`);
* `locate_shortest` — **the search finds a locator, and there is none of a smaller degree**.
-/

namespace SatLink.ReedSolomon

open Polynomial Galois
open Galois.Element (ofByte)

/-! ## 1. Locators as lists -/

/-- What a locator of degree `d` leaves of the `n`th syndrome: its sum with the `d` syndromes before
    it, each of these times its coefficient. -/
def leftover (syndromes locator : List UInt8) (d n : Nat) : UInt8 :=
  syndromes.getD n 0 ^^^ ((List.range' 1 d).map fun i =>
    field.mul (locator.getD i 0) (syndromes.getD (n - i) 0)).foldl (· ^^^ ·) 0

/-- **A locator of degree `d`** begins with one, has no coefficient beyond the `d`th, and leaves
    nothing of any syndrome that has `d` syndromes before it. -/
structure Locates (syndromes locator : List UInt8) (d : Nat) : Prop where
  constant : locator.getD 0 0 = 1
  beyond : ∀ i, d < i → locator.getD i 0 = 0
  leaves_nothing : ∀ n, d ≤ n → n < syndromes.length → leftover syndromes locator d n = 0

/-! ## 2. Locators as recurrences -/

theorem ofByte_foldl_xor (bytes : List UInt8) (b : UInt8) :
    ofByte (bytes.foldl (· ^^^ ·) b) = ofByte b + (bytes.map ofByte).sum := by
  induction bytes generalizing b with
  | nil => simp
  | cons c bytes ih =>
      rw [List.foldl_cons, ih, Element.ofByte_xor, List.map_cons, List.sum_cons, add_assoc]

theorem sum_map_range' (f : Nat → Element) (d : Nat) :
    ((List.range' 1 d).map f).sum = ∑ i ∈ Finset.range d, f (i + 1) := by
  have shifted : (List.range' 1 d).map f = (List.range d).map fun i => f (i + 1) := by
    rw [List.range'_eq_map_range, List.map_map]
    exact List.map_congr_left fun i _ => by rw [Function.comp_apply, Nat.add_comm]
  rw [shifted]
  rfl

section

variable {syndromes locator : List UInt8} {d n : Nat}

/-- **What is left of a syndrome** is the coefficient of the product there. -/
theorem ofByte_leftover (constant : locator.getD 0 0 = 1)
    (beyond : ∀ i, d < i → locator.getD i 0 = 0) (le : d ≤ n) :
    ofByte (leftover syndromes locator d n) =
      (ascending locator * ascending syndromes).coeff n := by
  let term (i : Nat) : Element := ofByte (locator.getD i 0) * ofByte (syndromes.getD (n - i) 0)
  have first : term 0 = ofByte (syndromes.getD n 0) := by
    show ofByte (locator.getD 0 0) * _ = _
    rw [constant, Element.ofByte_one, one_mul]
    rfl
  have inside : Finset.range (d + 1) ⊆ Finset.range (n + 1) :=
    Finset.range_mono (Nat.succ_le_succ le)
  have vanishes : ∀ i ∈ Finset.range (n + 1), i ∉ Finset.range (d + 1) → term i = 0 := by
    intro i _ outside
    have late : d < i := by simpa using outside
    show ofByte (locator.getD i 0) * _ = 0
    rw [beyond i late, Element.ofByte_zero, zero_mul]
  calc ofByte (leftover syndromes locator d n)
      = ofByte (syndromes.getD n 0) + ((List.range' 1 d).map term).sum := by
        rw [leftover, Element.ofByte_xor, ofByte_foldl_xor, Element.ofByte_zero, zero_add,
          List.map_map]
        rfl
    _ = ∑ i ∈ Finset.range (d + 1), term i := by
        rw [sum_map_range', Finset.sum_range_succ', first, add_comm]
    _ = ∑ i ∈ Finset.range (n + 1), term i := Finset.sum_subset inside vanishes
    _ = (ascending locator * ascending syndromes).coeff n := by
        rw [coeff_mul, Finset.Nat.sum_antidiagonal_eq_sum_range_succ_mk]
        simp only [coeff_ascending, term]

/-- A locator of the syndromes predicts them. -/
theorem Locates.predicts (h : Locates syndromes locator d) :
    Predicts (ascending syndromes) syndromes.length (ascending locator) d := by
  refine ⟨mem_degreeLT_of_coeff fun i lt => ?_, fun n le lt => ?_⟩
  · rw [coeff_ascending, h.beyond i lt, Element.ofByte_zero]
  · rw [← ofByte_leftover h.constant h.beyond le, h.leaves_nothing n le lt, Element.ofByte_zero]

/-- What predicts the syndromes is a locator of them. -/
theorem locates_of_predicts (constant : (ascending locator).coeff 0 = 1)
    (h : Predicts (ascending syndromes) syndromes.length (ascending locator) d) :
    Locates syndromes locator d := by
  have one : locator.getD 0 0 = 1 := by rwa [coeff_ascending] at constant
  have beyond : ∀ i, d < i → locator.getD i 0 = 0 := by
    intro i lt
    have zero := coeff_eq_zero_of_mem_degreeLT h.1 lt
    rwa [coeff_ascending] at zero
  refine ⟨one, beyond, fun n le lt => ?_⟩
  rw [← Element.ofByte_eq_zero, ofByte_leftover one beyond le, h.2 n le lt]

end

/-! ## 3. The search -/

/-- **The search finds the shortest locator** of any 32 syndromes: in its 33 coefficients stands a
    locator of the degree it answers with, which is at most 32, and no locator of these syndromes,
    however many coefficients it has, is of a smaller degree. -/
theorem locate_shortest (syndromes : Block 32) :
    let found := locate syndromes.bytes
    found.locator.length = 33 ∧ found.degree ≤ 32 ∧
      Locates syndromes.bytes found.locator found.degree ∧
      ∀ locator d, Locates syndromes.bytes locator d → found.degree ≤ d := by
  intro found
  have len : syndromes.bytes.length = parityLength := syndromes.length_eq
  have tracks := tracks_locate (Nat.le_of_eq len)
  obtain ⟨_, _, balanced⟩ := tracks.balanced
  refine ⟨tracks.length_locator, ?_, ?_, fun locator d other => ?_⟩
  · exact balanced.degree_le_count.trans (Nat.le_of_eq len)
  · exact locates_of_predicts balanced.constant balanced.predicts
  · have constant : (ascending locator).coeff 0 ≠ 0 := by
      rw [coeff_ascending, other.constant]
      exact one_ne_zero
    exact balanced.degree_le constant other.predicts

end SatLink.ReedSolomon
