import SatLink.Proofs.ReedSolomon.Damage
import SatLink.ReedSolomon.Decode

/-!
# What correcting does

The correction finds a recurrence of the syndromes, takes its roots for the damaged places and the
quotient of its numerator and its derivative for the magnitudes. This file ties each of these steps
to the polynomials they stand for:

* `repair?_sound` — what is accepted is a codeword that differs from the received word in exactly as
  many bytes as are reported, at most sixteen, however damaged the word was;
* `repair?_complete` — the only reasons to give up are a recurrence longer than sixteen and one with
  fewer roots than its length; the remaining checks never reject anything;
* `repair?_of_near` — a word with at most sixteen wrong bytes is always put right;
* `correct_fails_iff` — **a word is given up for these two reasons and no other**.
-/

namespace SatLink.ReedSolomon

open Polynomial Galois
open Galois.Element (ofByte alpha)

/-! ## 1. The parts of a correction as polynomials -/

theorem ofByte_inverseLocator (i : Nat) : ofByte (inverseLocator i) = rootAt i :=
  Element.ofByte_pow (i + 1)

/-- The search for the recurrence of a word's syndromes. -/
def searchOf (w : Word) : Search := locate (syndromes w)

/-- Its locator without the coefficients behind its length. -/
def locatorOf (w : Word) : List UInt8 := (searchOf w).locator.take ((searchOf w).degree + 1)

/-- The syndromes of a word as a polynomial. -/
noncomputable def syndromePolynomial (w : Word) : Element[X] := ascending (syndromes w)

theorem coeff_syndromePolynomial (w : Word) {k : Nat} (lt : k < 32) :
    (syndromePolynomial w).coeff k = ∑ i ∈ Finset.range 255, symbol w i * place i ^ (k + 1) := by
  rw [syndromePolynomial, coeff_ascending, ofByte_syndrome w lt]

theorem exists_balanced (w : Word) : ∃ ω γ, Balanced (syndromePolynomial w) 32 (searchOf w).degree
    (searchOf w).recurrence ω (searchOf w).partner γ (ofByte (searchOf w).previousDiscrepancy) := by
  have len : (syndromes w).length ≤ parityLength := by simp [parityLength]
  have tracks := tracks_locate len
  have balanced := tracks.balanced
  rwa [length_syndromes] at balanced

/-- The numerator of the recurrence of a word's syndromes. -/
noncomputable def numeratorOf (w : Word) : Element[X] := (exists_balanced w).choose

theorem balanced_numeratorOf (w : Word) : ∃ γ, Balanced (syndromePolynomial w) 32
    (searchOf w).degree (searchOf w).recurrence (numeratorOf w) (searchOf w).partner γ
    (ofByte (searchOf w).previousDiscrepancy) :=
  (exists_balanced w).choose_spec

theorem recurrence_mem (w : Word) :
    (searchOf w).recurrence ∈ degreeLT Element ((searchOf w).degree + 1) := by
  obtain ⟨_, balanced⟩ := balanced_numeratorOf w
  exact balanced.mem

theorem recurrence_constant (w : Word) : (searchOf w).recurrence.coeff 0 = 1 := by
  obtain ⟨_, balanced⟩ := balanced_numeratorOf w
  exact balanced.constant

theorem ascending_locatorOf (w : Word) : ascending (locatorOf w) = (searchOf w).recurrence :=
  ascending_take (recurrence_mem w)

/-- The located positions are the roots of the recurrence. -/
theorem mem_positions (w : Word) {i : Nat} :
    i ∈ positions (locatorOf w) ↔ i < 255 ∧ (searchOf w).recurrence.eval (rootAt i) = 0 := by
  rw [positions, List.mem_filter, List.mem_range, beq_iff_eq, ← ofByte_inverseLocator,
    ← ascending_locatorOf, ← ofByte_evalAscending, Element.ofByte_eq_zero]

theorem nodup_positions (locator : List UInt8) : (positions locator).Nodup :=
  List.nodup_range.filter _

theorem card_positions (locator : List UInt8) :
    (positions locator).toFinset.card = (positions locator).length :=
  List.toFinset_card_of_nodup (nodup_positions locator)

/-- The evaluator is the numerator. -/
theorem ascending_evaluator (w : Word) :
    ascending (evaluator (syndromes w) (locatorOf w)) = numeratorOf w := by
  obtain ⟨γ, balanced⟩ := balanced_numeratorOf w
  have small : ascending (evaluator (syndromes w) (locatorOf w)) ∈ degreeLT Element 32 :=
    mem_degreeLT_mono (ascending_mem_degreeLT _) (by simp [evaluator, parityLength])
  have small' := mem_degreeLT_mono balanced.numerator_mem balanced.degree_le_count
  ext k
  rcases Nat.lt_or_ge k 32 with lt | ge
  · have entry : (evaluator (syndromes w) (locatorOf w)).getD k 0 =
        (List.zipWith field.mul (locatorOf w) ((syndromes w).take (k + 1)).reverse).foldl
          (· ^^^ ·) 0 := by
      simp [evaluator, parityLength, lt]
    have bound : k < (syndromes w).length := by rw [length_syndromes]; exact lt
    have agrees := balanced.agrees k lt
    rw [coeff_sub, sub_eq_zero, syndromePolynomial] at agrees
    rw [coeff_ascending, entry, ofByte_convolve _ _ k bound, ascending_locatorOf, agrees]
  · rw [coeff_eq_zero_of_mem_degreeLT small ge, coeff_eq_zero_of_mem_degreeLT small' ge]

/-- Terms of odd degree lose one degree, the others vanish: in characteristic two that is the
    derivative. -/
theorem ascending_derivative (cs : List UInt8) :
    ascending (derivative cs) = Polynomial.derivative (ascending cs) := by
  ext k
  have shifted : cs.tail.getD k 0 = cs.getD (k + 1) 0 := by cases cs <;> simp
  have entry : (derivative cs).getD k 0 = if k % 2 = 0 then cs.getD (k + 1) 0 else 0 := by
    rw [← shifted, derivative, List.getD_eq_getElem?_getD, List.getElem?_mapIdx,
      List.getD_eq_getElem?_getD]
    cases cs.tail[k]? <;> simp
  have cast : ((k : Element) + 1) = if k % 2 = 0 then 1 else 0 := by
    rw [← Nat.cast_succ, CharTwo.natCast_eq_ite]
    simp only [Nat.even_add_one, Nat.even_iff, ite_not]
  rw [coeff_ascending, entry, coeff_derivative, coeff_ascending, cast]
  split <;> simp

/-! ## 2. Magnitudes -/

/-- The derivative of the locator at an inverse locator is that of the recurrence. -/
theorem eval_derivative_locatorOf (w : Word) (i : Nat) :
    ofByte (field.evalAscending (derivative (locatorOf w)) (inverseLocator i)) =
      (Polynomial.derivative (searchOf w).recurrence).eval (rootAt i) := by
  rw [ofByte_evalAscending, ascending_derivative, ascending_locatorOf, ofByte_inverseLocator]

/-- **A magnitude is the one the numerator and the recurrence prescribe**, and there is none where
    the derivative vanishes. -/
theorem magnitude?_eq_some_iff (w : Word) (i : Nat) (m : UInt8) :
    magnitude? (syndromes w) (locatorOf w) i = some m ↔
      (Polynomial.derivative (searchOf w).recurrence).eval (rootAt i) ≠ 0 ∧
        ofByte m = prescribed (numeratorOf w) (searchOf w).recurrence i := by
  have numerator :
      ofByte (field.evalAscending (evaluator (syndromes w) (locatorOf w)) (inverseLocator i)) =
        (numeratorOf w).eval (rootAt i) := by
    rw [ofByte_evalAscending, ascending_evaluator, ofByte_inverseLocator]
  rw [prescribed, ← eval_derivative_locatorOf, ← numerator, ← Element.ofByte_div, magnitude?, ne_eq,
    Element.ofByte_eq_zero, Element.ofByte_inj]
  split
  · simp_all
  · simp_all [eq_comm]

/-- What is added to the byte at an index. -/
def adjustment (w : Word) (i : Nat) : Element :=
  ofByte ((magnitude? (syndromes w) (locatorOf w) i).getD 0)

theorem symbol_adjust (w : Word) (i : Nat) (m : UInt8) (lt : i < 255) (j : Nat) :
    symbol (adjust w i m) j = symbol w j + if j = i then ofByte m else 0 := by
  have bound : i < w.bytes.length := by rw [w.length_eq]; exact lt
  rw [symbol, symbol, adjust, List.getD_eq_getElem?_getD, List.getD_eq_getElem?_getD,
    List.getElem?_modify]
  by_cases e : j = i
  · subst e
    simp [List.getElem?_eq_getElem bound]
  · simp [e, Ne.symm e]

/-- **Adjusting bytes one by one** adds to each its own magnitude and leaves the others alone. -/
theorem symbol_adjustAll? (r : Word) {is : List Nat} {w w' : Word}
    (h : adjustAll? (syndromes r) (locatorOf r) w is = some w') (nodup : is.Nodup)
    (within : ∀ i ∈ is, i < 255) (j : Nat) :
    symbol w' j = symbol w j + if j ∈ is then adjustment r j else 0 := by
  induction is generalizing w with
  | nil =>
      cases h
      simp
  | cons i is ih =>
      obtain ⟨fresh, nodup⟩ := List.nodup_cons.mp nodup
      cases e : magnitude? (syndromes r) (locatorOf r) i with
      | none => simp [adjustAll?, e] at h
      | some m =>
          simp only [adjustAll?, e] at h
          have own : adjustment r i = ofByte m := by rw [adjustment, e, Option.getD_some]
          rw [ih h nodup fun k hk => within k (List.mem_cons_of_mem _ hk),
            symbol_adjust w i m (within i List.mem_cons_self)]
          by_cases here : j = i
          · subst here
            simp [fresh, own]
          · simp [here]

/-- Where every index has a magnitude, all bytes can be adjusted. -/
theorem exists_adjustAll? (r : Word) {is : List Nat} (w : Word)
    (all : ∀ i ∈ is, ∃ m, magnitude? (syndromes r) (locatorOf r) i = some m) :
    ∃ w', adjustAll? (syndromes r) (locatorOf r) w is = some w' := by
  induction is generalizing w with
  | nil => exact ⟨w, rfl⟩
  | cons i is ih =>
      obtain ⟨m, e⟩ := all i List.mem_cons_self
      simp only [adjustAll?, e]
      exact ih _ fun k hk => all k (List.mem_cons_of_mem _ hk)

/-! ## 3. As many roots as the length -/

theorem within_positions (r : Word) : ∀ i ∈ (positions (locatorOf r)).toFinset, i < 255 := by
  intro i hi
  exact ((mem_positions r).mp (List.mem_toFinset.mp hi)).1

theorem roots_positions (r : Word) :
    ∀ i ∈ (positions (locatorOf r)).toFinset, (searchOf r).recurrence.eval (rootAt i) = 0 := by
  intro i hi
  exact ((mem_positions r).mp (List.mem_toFinset.mp hi)).2

section

variable {r : Word} (full : (positions (locatorOf r)).length = (searchOf r).degree)

include full

theorem recurrence_mem_card :
    (searchOf r).recurrence ∈ degreeLT Element ((positions (locatorOf r)).toFinset.card + 1) := by
  rw [card_positions, full]
  exact recurrence_mem r

theorem derivative_ne_zero {i : Nat} (hi : i ∈ positions (locatorOf r)) :
    (Polynomial.derivative (searchOf r).recurrence).eval (rootAt i) ≠ 0 :=
  eval_derivative_ne_zero (within_positions r) (recurrence_constant r)
    (recurrence_mem_card full) (roots_positions r) (List.mem_toFinset.mpr hi)

theorem evalAscending_derivative_ne_zero {i : Nat} (hi : i ∈ positions (locatorOf r)) :
    field.evalAscending (derivative (locatorOf r)) (inverseLocator i) ≠ 0 := by
  have slope := derivative_ne_zero full hi
  rwa [← eval_derivative_locatorOf, ne_eq, Element.ofByte_eq_zero] at slope

/-- Every located position has a magnitude. -/
theorem adjustment_eq_prescribed {i : Nat} (hi : i ∈ positions (locatorOf r)) :
    ∃ m, magnitude? (syndromes r) (locatorOf r) i = some m ∧ adjustment r i = ofByte m ∧
      ofByte m = prescribed (numeratorOf r) (searchOf r).recurrence i := by
  have slope := derivative_ne_zero full hi
  obtain ⟨m, value⟩ : ∃ m, ofByte m = prescribed (numeratorOf r) (searchOf r).recurrence i :=
    ⟨_, rfl⟩
  have some_m := (magnitude?_eq_some_iff r i m).mpr ⟨slope, value⟩
  exact ⟨m, some_m, by rw [adjustment, some_m, Option.getD_some], value⟩

/-- **No located position has the magnitude zero**: recurrence and numerator would share a root. -/
theorem adjustment_ne_zero {i : Nat} (hi : i ∈ positions (locatorOf r)) : adjustment r i ≠ 0 := by
  obtain ⟨m, -, own, value⟩ := adjustment_eq_prescribed full hi
  obtain ⟨γ, balanced⟩ := balanced_numeratorOf r
  have root := ((mem_positions r).mp hi).2
  rw [own, value]
  exact div_ne_zero (balanced.numerator_eval_ne_zero (rootAt_ne_zero i) root)
    (derivative_ne_zero full hi)

/-- **The adjusted word is a codeword**: the magnitudes account for all 32 syndromes. -/
theorem isCodeword_adjusted {w' : Word}
    (h : adjustAll? (syndromes r) (locatorOf r) r (positions (locatorOf r)) = some w') :
    isCodeword w' = true := by
  obtain ⟨γ, balanced⟩ := balanced_numeratorOf r
  have numerator : numeratorOf r ∈ degreeLT Element (positions (locatorOf r)).toFinset.card := by
    rw [card_positions, full]
    exact balanced.numerator_mem
  have within := within_positions r
  rw [isCodeword_iff]
  intro k lt
  have own := coeff_syndromePolynomial r lt
  rw [coeff_eq_sum_prescribed within (recurrence_constant r) (recurrence_mem_card full)
    (roots_positions r) numerator balanced.agrees lt] at own
  have located : ∑ i ∈ Finset.range 255,
        (if i ∈ positions (locatorOf r) then adjustment r i else 0) * place i ^ (k + 1) =
      ∑ i ∈ (positions (locatorOf r)).toFinset,
        prescribed (numeratorOf r) (searchOf r).recurrence i * place i ^ (k + 1) := by
    have sub : (positions (locatorOf r)).toFinset ⊆ Finset.range 255 :=
      fun i hi => Finset.mem_range.mpr (within i hi)
    rw [← Finset.sum_subset sub]
    · refine Finset.sum_congr rfl fun i hi => ?_
      have hi := List.mem_toFinset.mp hi
      obtain ⟨m, -, same, value⟩ := adjustment_eq_prescribed full hi
      rw [if_pos hi, same, value]
    · intro i _ hi
      rw [if_neg (fun h => hi (List.mem_toFinset.mpr h)), zero_mul]
  have symbols := symbol_adjustAll? r h (nodup_positions _)
    fun i hi => within i (List.mem_toFinset.mpr hi)
  simp only [symbols, add_mul, Finset.sum_add_distrib]
  rw [located, own, CharTwo.add_self_eq_zero]

/-- **All located bytes can be adjusted**, and what comes out is a codeword. -/
theorem exists_adjusted :
    ∃ w, adjustAll? (syndromes r) (locatorOf r) r (positions (locatorOf r)) = some w ∧
      isCodeword w = true := by
  have magnitudes : ∀ i ∈ positions (locatorOf r),
      ∃ m, magnitude? (syndromes r) (locatorOf r) i = some m := by
    intro i hi
    obtain ⟨m, some_m, -⟩ := adjustment_eq_prescribed full hi
    exact ⟨m, some_m⟩
  obtain ⟨w, adjusted⟩ := exists_adjustAll? r r magnitudes
  exact ⟨w, adjusted, isCodeword_adjusted full adjusted⟩

end

/-- A recurrence has no more roots than its length. -/
theorem length_positions_le (r : Word) :
    (positions (locatorOf r)).length ≤ (searchOf r).degree := by
  by_contra more
  have small : (searchOf r).recurrence.degree < (positions (locatorOf r)).toFinset.card := by
    rw [card_positions]
    exact mem_degreeLT.mp (mem_degreeLT_mono (recurrence_mem r) (by omega))
  have zero := eq_zero_of_degree_lt_of_eval_index_eq_zero _ (rootAt_injOn (within_positions r))
    small (roots_positions r)
  have constant := recurrence_constant r
  rw [zero, coeff_zero] at constant
  exact zero_ne_one constant

/-! ## 4. Outcomes -/

theorem repair?_eq (r : Word) : repair? r =
    if isCodeword r then some (0, r)
    else if (searchOf r).degree = 0 ∨ correctable < (searchOf r).degree then none
    else if (positions (locatorOf r)).length = (searchOf r).degree then
      match adjustAll? (syndromes r) (locatorOf r) r (positions (locatorOf r)) with
      | some w => if isCodeword w then some ((searchOf r).degree, w) else none
      | none => none
    else none := by
  simp only [repair?, isCodeword, searchOf, locatorOf]
  generalize adjustAll? (syndromes r) _ r _ = adjusted
  cases adjusted <;> rfl

/-- The adjusted word differs from the received one at the located positions. -/
theorem length_differences_adjusted {r w : Word}
    (full : (positions (locatorOf r)).length = (searchOf r).degree)
    (h : adjustAll? (syndromes r) (locatorOf r) r (positions (locatorOf r)) = some w) :
    (differences r.bytes w.bytes).length = (searchOf r).degree := by
  have within : ∀ i ∈ positions (locatorOf r), i < 255 := fun i hi => ((mem_positions r).mp hi).1
  have symbols := symbol_adjustAll? r h (nodup_positions _) within
  have same : (differences r.bytes w.bytes).toFinset = (positions (locatorOf r)).toFinset := by
    ext i
    rw [toFinset_differences, Finset.mem_filter, Finset.mem_range, List.mem_toFinset, symbols i]
    by_cases hi : i ∈ positions (locatorOf r)
    · simp [hi, within i hi, adjustment_ne_zero full hi]
    · simp [hi]
  rw [length_differences, same, card_positions, full]

/-- **What is accepted** is a codeword, and as many bytes were changed as are reported. -/
theorem repair?_sound {r w : Word} {n : Nat} (h : repair? r = some (n, w)) :
    n ≤ 16 ∧ isCodeword w = true ∧ (differences r.bytes w.bytes).length = n := by
  rw [repair?_eq] at h
  split at h
  · rename_i codeword
    cases h
    exact ⟨Nat.zero_le _, codeword, by rw [differences_self]; rfl⟩
  split at h
  · cases h
  rename_i bounded
  split at h
  · rename_i full
    cases e : adjustAll? (syndromes r) (locatorOf r) r (positions (locatorOf r)) with
    | none => simp [e] at h
    | some w' =>
        simp only [e] at h
        split at h
        · rename_i codeword
          rw [Option.some_inj, Prod.mk.injEq] at h
          obtain ⟨rfl, rfl⟩ := h
          refine ⟨?_, codeword, length_differences_adjusted full e⟩
          simp only [correctable] at bounded
          omega
        · cases h
  · cases h

/-- The empty recurrence predicts only zeros. -/
theorem degree_ne_zero {r : Word} (damaged : ¬ isCodeword r = true) : (searchOf r).degree ≠ 0 := by
  intro zero
  obtain ⟨γ, balanced⟩ := balanced_numeratorOf r
  apply damaged
  rw [isCodeword_iff]
  intro k lt
  rw [← coeff_syndromePolynomial r lt]
  have vanishes : ∀ k < 32, ((searchOf r).recurrence * syndromePolynomial r).coeff k = 0 :=
    fun k lt => balanced.predicts.2 k (by omega) lt
  exact coeff_eq_zero_of_mul (recurrence_constant r) vanishes k lt

/-- **The only reasons to give up**: a recurrence of at most sixteen terms with as many roots as its
    length is always enough. -/
theorem repair?_complete {r : Word} (damaged : ¬ isCodeword r = true)
    (short : (searchOf r).degree ≤ 16)
    (full : (positions (locatorOf r)).length = (searchOf r).degree) :
    ∃ w, repair? r = some ((searchOf r).degree, w) := by
  obtain ⟨w, adjusted, codeword⟩ := exists_adjusted full
  have bounded : ¬ ((searchOf r).degree = 0 ∨ correctable < (searchOf r).degree) := by
    have ne := degree_ne_zero damaged
    simp only [correctable]
    omega
  refine ⟨w, ?_⟩
  rw [repair?_eq, if_neg damaged, if_neg bounded, if_pos full]
  simp only [adjusted, codeword, if_true]

/-- **A word near a codeword is put right.** -/
theorem repair?_of_near {r c : Word} (codeword : isCodeword c = true)
    (near : (differences r.bytes c.bytes).length ≤ 16) :
    repair? r = some ((differences r.bytes c.bytes).length, c) := by
  by_cases undamaged : isCodeword r = true
  · have same : r = c := eq_of_isCodeword undamaged codeword (by omega)
    subst same
    rw [repair?_eq, if_pos undamaged, differences_self, List.length_nil]
  have within : ∀ i ∈ (differences r.bytes c.bytes).toFinset, i < 255 := by
    intro i hi
    rw [toFinset_differences] at hi
    exact Finset.mem_range.mp (Finset.mem_filter.mp hi).1
  have sums : ∀ k < 32, (syndromePolynomial r).coeff k =
      ∑ i ∈ (differences r.bytes c.bytes).toFinset,
        (symbol r i - symbol c i) * place i ^ (k + 1) := by
    intro k lt
    rw [sum_difference, (isCodeword_iff c).mp codeword k lt, sub_zero,
      coeff_syndromePolynomial r lt]
  obtain ⟨γ, balanced⟩ := balanced_numeratorOf r
  have short := degree_le_card balanced within sums
  have few : (differences r.bytes c.bytes).toFinset.card ≤ 16 :=
    (length_differences _ _).ge.trans near
  have located : (differences r.bytes c.bytes).toFinset ⊆ (positions (locatorOf r)).toFinset := by
    intro i hi
    have wrong : symbol r i - symbol c i ≠ 0 := by
      rw [toFinset_differences] at hi
      exact sub_ne_zero.mpr (Finset.mem_filter.mp hi).2
    rw [List.mem_toFinset, mem_positions]
    exact ⟨within i hi, eval_rootAt_eq_zero balanced within few sums hi wrong⟩
  have enough := Finset.card_le_card located
  have most := length_positions_le r
  rw [← length_differences] at short enough
  rw [card_positions] at enough
  obtain ⟨w, accepted⟩ := repair?_complete undamaged (by omega) (by omega)
  obtain ⟨_, codeword', changed⟩ := repair?_sound accepted
  -- both are codewords within sixteen bytes of the received word
  have through := length_differences_le w.bytes r.bytes c.bytes
  rw [differences_comm w.bytes r.bytes, changed] at through
  have same : w = c := eq_of_isCodeword codeword' codeword (by omega)
  rw [accepted, same, show (searchOf r).degree = (differences r.bytes c.bytes).length by omega]

/-- **What correcting accepts**: the codeword within sixteen bytes of the received word. -/
theorem correct_eq_ok_iff {r c : Word} {n : Nat} : correct r = (.ok n, c) ↔
    isCodeword c = true ∧ (differences r.bytes c.bytes).length = n ∧ n ≤ 16 := by
  constructor
  · intro h
    cases e : repair? r with
    | none => simp [correct, e] at h
    | some outcome =>
        simp only [correct, e, Prod.mk.injEq, Except.ok.injEq] at h
        obtain ⟨rfl, rfl⟩ := h
        obtain ⟨bound, codeword, changed⟩ := repair?_sound e
        exact ⟨codeword, changed, bound⟩
  · rintro ⟨codeword, rfl, near⟩
    rw [correct, repair?_of_near codeword near]

/-! ## 5. The two guarantees -/

/-- **Up to sixteen wrong bytes are put right**, wherever they are and whatever they hold, and are
    counted. -/
theorem correct_xor_encode (m : Message) (e : Word) (few : e.bytes.countP (· ≠ 0) ≤ 16) :
    correct ((encode m).xor e) = (.ok (e.bytes.countP (· ≠ 0)), encode m) ∧
      decode ((encode m).xor e).bytes = .ok m := by
  have changed : (differences ((encode m).xor e).bytes (encode m).bytes).length =
      e.bytes.countP (· ≠ 0) :=
    length_differences_xor _ _ (by rw [e.length_eq, (encode m).length_eq])
  have outcome : correct ((encode m).xor e) = (.ok (e.bytes.countP (· ≠ 0)), encode m) :=
    correct_eq_ok_iff.mpr ⟨isCodeword_encode m, changed, few⟩
  refine ⟨outcome, ?_⟩
  rw [decode, Block.ofList?_bytes]
  simp only [outcome, message_encode]

/-- A burst of sixteen wrong bytes at the front of a message of zeros. -/
theorem correct_burst :
    let e : Word := (Block.replicate 16 0xFF).append (Block.zero 239)
    e.bytes.countP (· ≠ 0) ≤ 16 ∧
      correct ((encode (Block.zero 223)).xor e) =
        (.ok (e.bytes.countP (· ≠ 0)), encode (Block.zero 223)) ∧
      decode ((encode (Block.zero 223)).xor e).bytes = .ok (Block.zero 223) := by
  intro e
  have few : e.bytes.countP (· ≠ 0) ≤ 16 := by decide +kernel
  exact ⟨few, correct_xor_encode (Block.zero 223) e few⟩

/-- **What correcting answers on any word**: a codeword that differs in as many bytes as it says, at
    most sixteen; or nothing is changed. -/
theorem correct_outcome (r : Word) :
    match correct r with
    | (.ok n, w) =>
        n ≤ 16 ∧ encode (message w) = w ∧ (differences r.bytes w.bytes).length = n ∧
          (n = 0 ↔ isCodeword r = true)
    | (.error e, w) => e = .uncorrectable ∧ w = r := by
  cases h : repair? r with
  | none => simp [correct, h]
  | some outcome =>
      obtain ⟨n, w⟩ := outcome
      obtain ⟨bound, codeword, changed⟩ := repair?_sound h
      simp only [correct, h]
      refine ⟨bound, encode_message codeword, changed, fun zero => ?_, fun undamaged => ?_⟩
      · have same : r.bytes = w.bytes :=
          differences_eq_nil_iff.mp (List.length_eq_zero_iff.mp (changed.trans zero))
        rwa [Block.ext same]
      · rw [repair?_eq, if_pos undamaged] at h
        cases h
        rfl

/-! ## 6. Why correcting gives up -/

theorem not_isCodeword_iff (w : Word) :
    ¬ isCodeword w = true ↔ ∃ syndrome ∈ syndromes w, syndrome ≠ 0 := by
  simp [isCodeword]

theorem repair?_eq_none_iff {r : Word} (damaged : ¬ isCodeword r = true) : repair? r = none ↔
    16 < (searchOf r).degree ∨ (positions (locatorOf r)).length ≠ (searchOf r).degree := by
  constructor
  · intro refused
    by_contra enough
    rw [not_or, Nat.not_lt, not_not] at enough
    obtain ⟨w, accepted⟩ := repair?_complete damaged enough.1 enough.2
    rw [refused] at accepted
    cases accepted
  · intro reason
    rw [repair?_eq, if_neg damaged]
    rcases reason with long | unequal
    · exact if_pos (.inr long)
    · rw [if_neg unequal]
      exact ite_self none

theorem correct_eq_error_iff (r : Word) :
    (∃ reason, (correct r).1 = .error reason) ↔ repair? r = none := by
  rw [correct]
  cases repair? r with
  | none => exact ⟨fun _ => rfl, fun _ => ⟨_, rfl⟩⟩
  | some outcome => exact ⟨fun ⟨_, e⟩ => (nomatch e), fun e => (nomatch e)⟩

/-- **Why a damaged word is given up**: the degree of its locator exceeds sixteen, or is not the
    number of its roots. Nothing else is ever a reason. The degree is not zero; and where it is the
    number of the roots, the derivative vanishes at none of them, all bytes there can be adjusted,
    and what comes out is a codeword. -/
theorem correct_fails_iff (w : Word) (damaged : ∃ syndrome ∈ syndromes w, syndrome ≠ 0) :
    let degree := (searchOf w).degree
    let found := positions (locatorOf w)
    ((∃ reason, (correct w).1 = .error reason) ↔ 16 < degree ∨ found.length ≠ degree) ∧
      degree ≠ 0 ∧
      (found.length = degree →
        (∀ i ∈ found,
          field.evalAscending (derivative (locatorOf w)) (inverseLocator i) ≠ 0) ∧
        ∃ adjusted, adjustAll? (syndromes w) (locatorOf w) w found = some adjusted ∧
          isCodeword adjusted = true) := by
  intro degree found
  have damaged := (not_isCodeword_iff w).mpr damaged
  refine ⟨?_, degree_ne_zero damaged, fun full => ⟨fun i hi => ?_, exists_adjusted full⟩⟩
  · rw [correct_eq_error_iff, repair?_eq_none_iff damaged]
  · exact evalAscending_derivative_ne_zero full hi

/-- Seventeen wrong bytes at the front of a message of zeros: more than can be corrected. -/
theorem correct_fails_iff_burst :
    let e : Word := (Block.replicate 17 0xFF).append (Block.zero 238)
    let w : Word := (encode (Block.zero 223)).xor e
    let degree := (searchOf w).degree
    let found := positions (locatorOf w)
    (∃ syndrome ∈ syndromes w, syndrome ≠ 0) ∧
      ((∃ reason, (correct w).1 = .error reason) ↔ 16 < degree ∨ found.length ≠ degree) ∧
      degree ≠ 0 ∧
      (found.length = degree →
        (∀ i ∈ found,
          field.evalAscending (derivative (locatorOf w)) (inverseLocator i) ≠ 0) ∧
        ∃ adjusted, adjustAll? (syndromes w) (locatorOf w) w found = some adjusted ∧
          isCodeword adjusted = true) := by
  intro e w degree found
  have wrong : e.bytes.countP (· ≠ 0) = 17 := by decide +kernel
  have changed : (differences w.bytes (encode (Block.zero 223)).bytes).length = 17 :=
    (length_differences_xor _ _ (by rw [e.length_eq, (encode _).length_eq])).trans wrong
  have damaged : ¬ isCodeword w = true := by
    intro codeword
    -- codewords are 33 bytes apart
    have same := eq_of_isCodeword codeword (isCodeword_encode _) (changed.le.trans (by decide))
    rw [same, differences_self] at changed
    cases changed
  have nonzero := (not_isCodeword_iff w).mp damaged
  exact ⟨nonzero, correct_fails_iff w nonzero⟩

end SatLink.ReedSolomon
