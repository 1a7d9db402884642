import Mathlib.Algebra.Polynomial.BigOperators
import Mathlib.Algebra.Polynomial.Roots
import SatLink.Proofs.Difference
import SatLink.Proofs.Galois.Polynomial
import SatLink.ReedSolomon.Code

/-!
# Codewords

A word is a polynomial whose first byte has the highest degree, so a syndrome is a sum over the
bytes, each weighted by a power of its place. What is shown of the code:

* `ofByte_syndrome` — the `k`th syndrome is the sum of the bytes times the `k + 1`st powers of their
  places;
* `eq_zero_of_power_sums` — 32 such sums over at most 32 places vanish only where every byte does,
  so codewords that differ in at most 32 places are one (`eq_of_isCodeword`);
* `isCodeword_encode` — an encoded message is a codeword; `encode_message` — there is no other
  codeword with this message;
* `encode_far` — the codewords of different messages are 33 bytes apart.
-/

namespace SatLink.ReedSolomon

open Polynomial Galois
open Galois.Element (ofByte alpha)

/-! ## 1. Bytes at places -/

/-- The byte of a word at an index. -/
def symbol (w : Word) (i : Nat) : Element := ofByte (w.bytes.getD i 0)

/-- What the index `i` stands for in the field: the byte there is the coefficient of
    `x^(254 - i)`. -/
def place (i : Nat) : Element := alpha ^ (254 - i)

theorem place_ne_zero (i : Nat) : place i ≠ 0 := Element.alpha_pow_ne_zero _

theorem place_inj {i j : Nat} (hi : i < 255) (hj : j < 255) (h : place i = place j) : i = j := by
  have := Element.alpha_pow_inj (by omega) (by omega) h
  omega

theorem length_roots : roots.length = 32 := by simp [roots, parityLength]

theorem getD_roots {k : Nat} (lt : k < 32) : roots.getD k 0 = field.pow (k + 1) := by
  simp [roots, parityLength, lt]

@[simp] theorem length_syndromes (w : Word) : (syndromes w).length = 32 := by
  simp [syndromes, length_roots]

theorem getD_syndromes (w : Word) {k : Nat} (lt : k < 32) :
    (syndromes w).getD k 0 = field.eval w.bytes (field.pow (k + 1)) := by
  have len : k < roots.length := by rw [length_roots]; exact lt
  rw [← getD_roots lt, List.getD_eq_getElem _ _ (by simpa using lt),
    List.getD_eq_getElem _ _ len]
  simp [syndromes]

/-- **A syndrome is a sum over the bytes.** -/
theorem ofByte_syndrome (w : Word) {k : Nat} (lt : k < 32) :
    ofByte ((syndromes w).getD k 0) =
      ∑ i ∈ Finset.range 255, symbol w i * place i ^ (k + 1) := by
  rw [getD_syndromes w lt, ofByte_eval, w.length_eq]
  refine Finset.sum_congr rfl fun i _ => ?_
  rw [Element.ofByte_pow, place, ← pow_mul, ← pow_mul, Nat.mul_comm]
  rfl

/-- **A codeword is a word whose syndromes vanish.** -/
theorem isCodeword_iff (w : Word) : isCodeword w = true ↔
    ∀ k < 32, ∑ i ∈ Finset.range 255, symbol w i * place i ^ (k + 1) = 0 := by
  rw [isCodeword, List.all_eq_true]
  constructor
  · intro all k lt
    have mem : (syndromes w).getD k 0 ∈ syndromes w := by
      rw [List.getD_eq_getElem _ _ (by simpa using lt)]
      exact List.getElem_mem _
    rw [← ofByte_syndrome w lt, beq_iff_eq.mp (all _ mem), Element.ofByte_zero]
  · intro all s mem
    obtain ⟨k, lt, rfl⟩ := List.getElem_of_mem mem
    have lt' : k < 32 := by simpa using lt
    have zero := ofByte_syndrome w lt'
    rw [all k lt', List.getD_eq_getElem _ _ lt] at zero
    exact beq_iff_eq.mpr zero

/-! ## 2. The distance of the code -/

/-- **Few places cannot cancel in 32 power sums.** Weighting the sums with the coefficients of a
    polynomial that vanishes at all places but one leaves the byte there. -/
theorem eq_zero_of_power_sums {P : Finset Nat} (within : ∀ i ∈ P, i < 255) (few : P.card ≤ 32)
    {y : Nat → Element} (sums : ∀ k < 32, ∑ i ∈ P, y i * place i ^ (k + 1) = 0) :
    ∀ i ∈ P, y i = 0 := by
  intro i hi
  let g : Element[X] := ∏ j ∈ P.erase i, (X - C (place j))
  have degree : g.natDegree < 32 := by
    rw [natDegree_prod_of_monic _ _ fun j _ => monic_X_sub_C _]
    have card := Finset.card_erase_lt_of_mem hi
    simp only [natDegree_X_sub_C, Finset.sum_const, smul_eq_mul, mul_one]
    omega
  have weighted : ∑ j ∈ P, y j * place j * g.eval (place j) = 0 := by
    calc ∑ j ∈ P, y j * place j * g.eval (place j)
        = ∑ j ∈ P, ∑ k ∈ Finset.range 32, g.coeff k * (y j * place j ^ (k + 1)) := by
          refine Finset.sum_congr rfl fun j _ => ?_
          rw [eval_eq_sum_range' degree, Finset.mul_sum]
          refine Finset.sum_congr rfl fun k _ => ?_
          ring
      _ = ∑ k ∈ Finset.range 32, g.coeff k * ∑ j ∈ P, y j * place j ^ (k + 1) := by
          rw [Finset.sum_comm]
          simp only [Finset.mul_sum]
      _ = 0 := Finset.sum_eq_zero fun k hk => by
          rw [sums k (Finset.mem_range.mp hk), mul_zero]
  have others : ∀ j ∈ P, j ≠ i → y j * place j * g.eval (place j) = 0 := by
    intro j hj ne
    have root : g.eval (place j) = 0 := by
      rw [eval_prod]
      exact Finset.prod_eq_zero (Finset.mem_erase.mpr ⟨ne, hj⟩) (by simp)
    rw [root, mul_zero]
  have own : g.eval (place i) ≠ 0 := by
    rw [eval_prod]
    refine Finset.prod_ne_zero_iff.mpr fun j hj => ?_
    obtain ⟨ne, hj⟩ := Finset.mem_erase.mp hj
    rw [eval_sub, eval_X, eval_C, sub_ne_zero]
    exact fun e => ne (place_inj (within j hj) (within i hi) e.symm)
  rw [Finset.sum_eq_single_of_mem i hi others] at weighted
  rcases mul_eq_zero.mp weighted with zero | zero
  · exact (mul_eq_zero.mp zero).resolve_right (place_ne_zero i)
  · exact absurd zero own

theorem symbol_eq_iff (a b : Word) {i : Nat} (lt : i < 255) :
    symbol a i = symbol b i ↔ a.bytes[i]? = b.bytes[i]? := by
  have ha : i < a.bytes.length := by simpa using lt
  have hb : i < b.bytes.length := by simpa using lt
  rw [symbol, symbol, List.getD_eq_getElem _ _ ha, List.getD_eq_getElem _ _ hb,
    List.getElem?_eq_getElem ha, List.getElem?_eq_getElem hb, Option.some_inj]
  exact Element.ofByte_inj

theorem getElem?_beyond (w : Word) {i : Nat} (beyond : ¬ i < 255) : w.bytes[i]? = none := by
  apply List.getElem?_eq_none
  rw [w.length_eq]
  exact Nat.le_of_not_lt beyond

/-- Two words with the same byte at every index are one. -/
theorem eq_of_symbol_eq {a b : Word} (same : ∀ i < 255, symbol a i = symbol b i) : a = b := by
  ext1
  apply List.ext_getElem?
  intro i
  by_cases lt : i < 255
  · exact (symbol_eq_iff a b lt).mp (same i lt)
  · rw [getElem?_beyond a lt, getElem?_beyond b lt]

/-- The indices of a word at which it differs from another. -/
theorem toFinset_differences (a b : Word) : (differences a.bytes b.bytes).toFinset =
    (Finset.range 255).filter fun i => symbol a i ≠ symbol b i := by
  ext i
  rw [List.mem_toFinset, mem_differences, Finset.mem_filter, Finset.mem_range]
  constructor
  · intro ne
    have lt : i < 255 := by
      by_contra beyond
      exact ne (by rw [getElem?_beyond a beyond, getElem?_beyond b beyond])
    exact ⟨lt, fun e => ne ((symbol_eq_iff a b lt).mp e)⟩
  · rintro ⟨lt, ne⟩ e
    exact ne ((symbol_eq_iff a b lt).mpr e)

/-- A sum over all bytes of a difference is one over the places that differ. -/
theorem sum_difference (a b : Word) (k : Nat) :
    ∑ i ∈ (differences a.bytes b.bytes).toFinset, (symbol a i - symbol b i) * place i ^ k =
      ∑ i ∈ Finset.range 255, symbol a i * place i ^ k -
        ∑ i ∈ Finset.range 255, symbol b i * place i ^ k := by
  rw [toFinset_differences, ← Finset.sum_sub_distrib]
  simp only [← sub_mul]
  apply Finset.sum_filter_of_ne
  intro i _ ne e
  exact ne (by rw [e, sub_self, zero_mul])

/-- **Codewords that differ in at most 32 bytes are one.** -/
theorem eq_of_isCodeword {a b : Word} (ha : isCodeword a = true) (hb : isCodeword b = true)
    (few : (differences a.bytes b.bytes).length ≤ 32) : a = b := by
  rw [isCodeword_iff] at ha hb
  have within : ∀ i ∈ (differences a.bytes b.bytes).toFinset, i < 255 := by
    intro i hi
    rw [toFinset_differences] at hi
    exact Finset.mem_range.mp (Finset.mem_filter.mp hi).1
  have sums : ∀ k < 32, ∑ i ∈ (differences a.bytes b.bytes).toFinset,
      (symbol a i - symbol b i) * place i ^ (k + 1) = 0 := by
    intro k lt
    rw [sum_difference, ha k lt, hb k lt, sub_zero]
  have same := eq_zero_of_power_sums within (by rwa [length_differences] at few) sums
  apply eq_of_symbol_eq
  intro i lt
  by_contra ne
  refine ne (sub_eq_zero.mp (same i ?_))
  rw [toFinset_differences]
  exact Finset.mem_filter.mpr ⟨Finset.mem_range.mpr lt, ne⟩

/-! ## 3. Words at a point -/

/-- A list, highest degree first, behind another one. -/
theorem ofByte_eval_append (as bs : List UInt8) (x : UInt8) :
    ofByte (field.eval (as ++ bs) x) =
      ofByte (field.eval as x) * ofByte x ^ bs.length + ofByte (field.eval bs x) := by
  induction bs using List.reverseRecOn with
  | nil => simp [Tables.eval]
  | append_singleton bs b ih =>
      rw [← List.append_assoc, Tables.eval_append, Tables.eval_append, Element.ofByte_xor,
        Element.ofByte_xor, Element.ofByte_mul, Element.ofByte_mul, ih, List.length_append,
        List.length_singleton, pow_succ]
      ring

theorem ofByte_eval_cons (b : UInt8) (bs : List UInt8) (x : UInt8) :
    ofByte (field.eval (b :: bs) x) =
      ofByte b * ofByte x ^ bs.length + ofByte (field.eval bs x) := by
  have single : field.eval [b] x = b := by simp [Tables.eval]
  rw [← List.singleton_append, ofByte_eval_append, single]

/-- The sum of two lists of one length. -/
theorem ofByte_eval_zipWith_xor : ∀ (as bs : List UInt8) (x : UInt8), as.length = bs.length →
    ofByte (field.eval (List.zipWith (· ^^^ ·) as bs) x) =
      ofByte (field.eval as x) + ofByte (field.eval bs x)
  | [], [], x, _ => by simp [Tables.eval]
  | a :: as, b :: bs, x, len => by
      have len : as.length = bs.length := by simpa using len
      rw [List.zipWith_cons_cons, ofByte_eval_cons, ofByte_eval_cons, ofByte_eval_cons,
        ofByte_eval_zipWith_xor as bs x len, List.length_zipWith, len, Nat.min_self,
        Element.ofByte_xor]
      ring

theorem ofByte_eval_map_mul (a : UInt8) (bs : List UInt8) (x : UInt8) :
    ofByte (field.eval (bs.map (field.mul a)) x) = ofByte a * ofByte (field.eval bs x) := by
  induction bs with
  | nil => simp [Tables.eval]
  | cons b bs ih =>
      rw [List.map_cons, ofByte_eval_cons, ofByte_eval_cons, ih, List.length_map,
        Element.ofByte_mul]
      ring

/-! ## 4. The generator -/

/-- Every factor of the generator vanishes at its root. -/
theorem ofByte_eval_timesLinear (cs : List UInt8) (root x : UInt8) :
    ofByte (field.eval (timesLinear cs root) x) =
      ofByte (field.eval cs x) * (ofByte x + ofByte root) := by
  rw [timesLinear, ofByte_eval_zipWith_xor _ _ _ (by simp), Tables.eval_append, UInt8.xor_zero,
    Element.ofByte_mul, ofByte_eval_cons, ofByte_eval_map_mul, Element.ofByte_zero]
  ring

/-- A product has the roots it had, and those of the factors it is multiplied by. -/
theorem ofByte_eval_foldl_timesLinear (x : UInt8) : ∀ (rs cs : List UInt8),
    ofByte (field.eval cs x) = 0 ∨ x ∈ rs → ofByte (field.eval (rs.foldl timesLinear cs) x) = 0
  | [], cs, h => by simpa using h
  | r :: rs, cs, h => by
      rw [List.foldl_cons]
      apply ofByte_eval_foldl_timesLinear x rs
      rw [ofByte_eval_timesLinear]
      rcases h with zero | mem
      · exact .inl (by rw [zero, zero_mul])
      · rcases List.mem_cons.mp mem with rfl | mem
        · exact .inl (by rw [CharTwo.add_self_eq_zero, mul_zero])
        · exact .inr mem

theorem exists_cons_timesLinear (cs : List UInt8) (root : UInt8) :
    ∃ rest, timesLinear (1 :: cs) root = 1 :: rest := by
  exact ⟨_, by rw [timesLinear, List.cons_append, List.zipWith_cons_cons, UInt8.xor_zero]⟩

theorem exists_cons_foldl_timesLinear : ∀ (rs cs : List UInt8),
    ∃ rest, rs.foldl timesLinear (1 :: cs) = 1 :: rest
  | [], cs => ⟨cs, rfl⟩
  | r :: rs, cs => by
      obtain ⟨rest, e⟩ := exists_cons_timesLinear cs r
      rw [List.foldl_cons, e]
      exact exists_cons_foldl_timesLinear rs rest

/-- The generator is monic. -/
theorem generator_eq_cons : generator = 1 :: generator.tail := by
  obtain ⟨rest, e⟩ := exists_cons_foldl_timesLinear roots []
  rw [generator, e, List.tail_cons]

/-- At a root of the generator, the terms behind the leading one are the leading one. -/
theorem ofByte_eval_tail_generator {x : UInt8} (root : x ∈ roots) :
    ofByte (field.eval generator.tail x) = ofByte x ^ 32 := by
  have vanishes : ofByte (field.eval generator x) = 0 :=
    ofByte_eval_foldl_timesLinear x roots [1] (.inr root)
  have len : generator.tail.length = 32 := by simp [parityLength]
  rw [generator_eq_cons, ofByte_eval_cons, len, Element.ofByte_one, one_mul] at vanishes
  exact (CharTwo.add_eq_zero.mp vanishes).symm

/-! ## 5. Encoding -/

/-- **One step of the division**: the register is multiplied by the root, and the byte comes in 32
    degrees higher. -/
theorem ofByte_eval_absorb {x : UInt8} (root : x ∈ roots) (register : List UInt8) (byte : UInt8)
    (len : register.length = parityLength) :
    ofByte (field.eval (absorb register byte) x) =
      ofByte (field.eval register x) * ofByte x + ofByte byte * ofByte x ^ 32 := by
  cases register with
  | nil => simp [parityLength] at len
  | cons first rest =>
      have len : rest.length = 31 := by simpa [parityLength] using len
      rw [absorb, List.tail_cons, List.headD_cons,
        ofByte_eval_zipWith_xor _ _ _ (by simp [len, parityLength]), Tables.eval_append,
        UInt8.xor_zero, Element.ofByte_mul, ofByte_eval_map_mul, ofByte_eval_tail_generator root,
        ofByte_eval_cons, len, Element.ofByte_xor]
      ring

/-- **The whole division.** -/
theorem ofByte_eval_foldl_absorb {x : UInt8} (root : x ∈ roots) :
    ∀ (message register : List UInt8), register.length = parityLength →
      ofByte (field.eval (message.foldl absorb register) x) =
        ofByte (field.eval register x) * ofByte x ^ message.length +
          ofByte (field.eval message x) * ofByte x ^ 32
  | [], register, _ => by simp [Tables.eval]
  | byte :: message, register, len => by
      rw [List.foldl_cons, ofByte_eval_foldl_absorb root message _ (length_absorb _ _ len),
        ofByte_eval_absorb root _ _ len, ofByte_eval_cons, List.length_cons, pow_succ]
      ring

/-- A codeword vanishes at every root. -/
theorem ofByte_eval_encode {x : UInt8} (root : x ∈ roots) (m : Message) :
    ofByte (field.eval (encode m).bytes x) = 0 := by
  have blank : ofByte (field.eval (List.replicate parityLength 0) x) = 0 := by
    rw [ofByte_eval]
    apply Finset.sum_eq_zero
    intro i hi
    have lt : i < parityLength := by simpa using hi
    rw [List.getD_replicate _ lt, Element.ofByte_zero, zero_mul]
  have division := ofByte_eval_foldl_absorb root m.bytes (List.replicate parityLength 0) (by simp)
  have len : (parity m.bytes).length = 32 := length_parity m.bytes
  rw [blank, zero_mul, zero_add] at division
  rw [encode, ofByte_eval_append, len, parity, division, CharTwo.add_self_eq_zero]

/-- **An encoded message is a codeword.** -/
theorem isCodeword_encode (m : Message) : isCodeword (encode m) = true := by
  rw [isCodeword, syndromes, List.all_map, List.all_eq_true]
  intro x root
  exact beq_iff_eq.mpr (Element.ofByte_eq_zero.mp (ofByte_eval_encode root m))

/-- Beyond their messages, two words differ in the parity bytes only. -/
theorem length_differences_le_message (a b : Word) : (differences a.bytes b.bytes).length ≤
    (differences (message a).bytes (message b).bytes).length + 32 := by
  have sub : (differences a.bytes b.bytes).toFinset ⊆
      (differences (message a).bytes (message b).bytes).toFinset ∪ Finset.Ico 223 255 := by
    intro i hi
    rw [toFinset_differences, Finset.mem_filter, Finset.mem_range] at hi
    obtain ⟨lt, ne⟩ := hi
    rw [Finset.mem_union, List.mem_toFinset, mem_differences, Finset.mem_Ico]
    rcases Nat.lt_or_ge i 223 with early | late
    · refine .inl fun same => ne ((symbol_eq_iff a b lt).mpr ?_)
      have bytes : (a.bytes.take 223)[i]? = (b.bytes.take 223)[i]? := same
      rwa [List.getElem?_take_of_lt early, List.getElem?_take_of_lt early] at bytes
    · exact .inr ⟨late, lt⟩
  rw [length_differences, length_differences]
  exact (Finset.card_le_card sub).trans (Finset.card_union_le _ _)

/-- **A codeword is the encoding of its message.** -/
theorem encode_message {w : Word} (h : isCodeword w = true) : encode (message w) = w := by
  apply eq_of_isCodeword (isCodeword_encode _) h
  have near := length_differences_le_message (encode (message w)) w
  rwa [message_encode, differences_self] at near

/-! ## 6. The distance of two messages -/

/-- **Different messages are 33 bytes apart** once they are encoded, so no word is within sixteen
    bytes of both codewords. -/
theorem encode_far (m₁ m₂ : Message) (ne : m₁ ≠ m₂) :
    33 ≤ (differences (encode m₁).bytes (encode m₂).bytes).length ∧
      ∀ r : Word, ¬ ((differences r.bytes (encode m₁).bytes).length ≤ 16 ∧
        (differences r.bytes (encode m₂).bytes).length ≤ 16) := by
  have far : 33 ≤ (differences (encode m₁).bytes (encode m₂).bytes).length := by
    by_contra near
    have same : encode m₁ = encode m₂ :=
      eq_of_isCodeword (isCodeword_encode m₁) (isCodeword_encode m₂) (by omega)
    exact ne (by rw [← message_encode m₁, same, message_encode])
  refine ⟨far, ?_⟩
  rintro r ⟨near₁, near₂⟩
  have through := length_differences_le (encode m₁).bytes r.bytes (encode m₂).bytes
  rw [differences_comm (encode m₁).bytes r.bytes] at through
  omega

/-- Messages that differ in their first byte only are no more than 33 bytes apart. -/
theorem encode_far_first_byte :
    let m : Message := (Block.replicate 1 1).append (Block.zero 222)
    m ≠ Block.zero 223 ∧
      (differences (encode m).bytes (encode (Block.zero 223)).bytes).length = 33 ∧
      ∀ r : Word, ¬ ((differences r.bytes (encode m).bytes).length ≤ 16 ∧
        (differences r.bytes (encode (Block.zero 223)).bytes).length ≤ 16) := by
  intro m
  have ne : m ≠ Block.zero 223 := by decide +kernel
  have one : (differences m.bytes (Block.zero 223).bytes).length = 1 := by decide +kernel
  obtain ⟨far, apart⟩ := encode_far m (Block.zero 223) ne
  have near := length_differences_le_message (encode m) (encode (Block.zero 223))
  rw [message_encode, message_encode, one] at near
  exact ⟨ne, Nat.le_antisymm near far, apart⟩

end SatLink.ReedSolomon
