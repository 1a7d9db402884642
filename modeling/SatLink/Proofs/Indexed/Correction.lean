import SatLink.Proofs.Indexed.Locator
import SatLink.ReedSolomon.Decode

/-!
# Correcting a word with indices

The roots of the locator are searched for among the 255 positions, and the byte at each is put right
by the quotient of the evaluator and the derivative of the locator there. The derivative is summed
up over the odd coefficients, two at a time. A locator that is longer than 16 is refused before any
of its coefficients is looked up.

* `findErrors_eq`, `evaluator_eq`, `derivativeFrom_eq`, `correctErrors_eq` — the four loops, of
  which the third counts by itself and so has to be shown to end: `derivativeTurn_eq` is one
  turn of it;
* `decodeInPlace_eq` — **correcting stops on no word**, and answers what `repair?` does.
-/

namespace SatLink.Indexed

open Galois
open Galois.Element (ofByte)
open ReedSolomon

/-! ## 1. Definitions -/

/-- The positions at which the locator vanishes. -/
def findErrors (size : Nat) (locator : List UInt8) (degree : Nat) : Checked (List Nat) :=
  forUp 0 255 [] fun positions i => do
    let x ← power (← add size i 1)
    if (← evaluateUp size locator (degree + 1) x) = 0 then pure (positions ++ [i])
    else pure positions

/-- The product of the syndromes and the locator, up to the 32nd coefficient. -/
def evaluator (size : Nat) (syndromes locator : List UInt8) (degree : Nat) : Checked (List UInt8) :=
  forUp 0 32 (List.replicate 32 0) fun evaluator k =>
    forUp 0 (min degree k + 1) evaluator fun evaluator j => do
      let term ← multiply size (← item locator j) (← item syndromes (← sub k j))
      store evaluator k ((← item evaluator k) ^^^ term)

/-- Adds the `j`th coefficient of the locator to the derivative at a position. -/
def derivativeTurn (size : Nat) (locator : List UInt8) (degree position : Nat) :
    Nat × UInt8 → Checked ((Nat × UInt8) ⊕ UInt8)
  | (j, sum) => do
      if j ≤ degree then
        let exponent ← mul size (← add size position 1) (← sub j 1)
        let term ← multiply size (← item locator j) (← power exponent)
        pure (.inl (← add size j 2, sum ^^^ term))
      else pure (.inr sum)

/-- The derivative of the locator at a position, from the `j`th coefficient on. -/
noncomputable def derivativeFrom (size : Nat) (locator : List UInt8) (degree position j : Nat)
    (sum : UInt8) : Checked UInt8 :=
  loop (derivativeTurn size locator degree position) (j, sum)

/-- Puts the byte at a position right. -/
noncomputable def correctAt (size : Nat) (evaluator locator : List UInt8) (degree : Nat)
    (word : List UInt8) (position : Nat) : Checked (List UInt8) := do
  let place ← sub 254 position
  let x ← power (← add size position 1)
  let numerator ← evaluateUp size evaluator 32 x
  let slope ← derivativeFrom size locator degree position 1 0
  if slope = 0 then throw .uncorrectable
  else
    let root ← power (← mul size place 255)
    let magnitude ← multiply size root (← divide size numerator slope)
    store word position ((← item word position) ^^^ magnitude)

/-- Puts the bytes at all positions right. -/
noncomputable def correctErrors (size : Nat) (syndromes locator : List UInt8) (degree : Nat)
    (positions : List Nat) (word : List UInt8) : Checked (List UInt8) := do
  let evaluator ← evaluator size syndromes locator degree
  positions.foldlM (correctAt size evaluator locator degree) word

/-- Corrects a word by a locator of a given degree, and answers with the number of corrected
    bytes. -/
noncomputable def correctBy (size : Nat) (word syndromes locator : List UInt8) (degree : Nat) :
    Checked (Nat × List UInt8) := do
  if degree = 0 ∨ 16 < degree then throw .uncorrectable
  else
    let positions ← findErrors size locator degree
    if positions.length ≠ degree then throw .uncorrectable
    else
      let corrected ← correctErrors size syndromes locator degree positions word
      if (← calcSyndromes size corrected).any (· != 0) then throw .uncorrectable
      else pure (degree, corrected)

/-- Corrects a word in place. -/
noncomputable def decodeInPlace (size : Nat) (word : List UInt8) : Checked (Nat × List UInt8) := do
  let syndromes ← calcSyndromes size word
  if syndromes.all (· == 0) then pure (0, word)
  else
    let s ← locate size syndromes
    correctBy size word syndromes s.locator s.degree

/-! ## 2. Positions -/

section

variable {size : Nat} (wide : 2 ^ 16 ≤ size) {locator : List UInt8} {degree : Nat}

include wide

/-- **The positions are searched for** among all 255. -/
theorem findErrors_eq (short : degree < locator.length) :
    findErrors size locator degree = pure (positions (locator.take (degree + 1))) := by
  let test (i : Nat) : Bool :=
    field.evalAscending (locator.take (degree + 1)) (inverseLocator i) == 0
  let state (i : Nat) : List Nat := (List.range i).filter test
  refine forUp_eq state (Nat.zero_le 255) fun i _ lt => ?_
  have count : i + 1 < size := by omega
  have value : field.evalAscending (locator.take (degree + 1)) (field.pow (i + 1)) = 0 ↔
      test i = true := beq_iff_eq.symm
  simp only [add_of_lt count, power_eq, pure_bind,
    evaluateUp_eq wide (Nat.succ_le_of_lt short), value]
  by_cases root : test i = true
  · rw [if_pos root]
    simp [state, List.range_succ, List.filter_append, root]
  · rw [if_neg root]
    simp [state, List.range_succ, List.filter_append, root]

end

/-! ## 3. The evaluator -/

section

variable {size : Nat} (wide : 2 ^ 16 ≤ size) {syndromes locator : List UInt8} {degree : Nat}

include wide

/-- **The evaluator is summed up** entry by entry. -/
theorem evaluator_eq (count : syndromes.length = 32) (short : degree < locator.length) :
    evaluator size syndromes locator degree =
      pure (ReedSolomon.evaluator syndromes (locator.take (degree + 1))) := by
  have len : (ReedSolomon.evaluator syndromes (locator.take (degree + 1))).length =
      (List.replicate 32 (0 : UInt8)).length := by
    simp [ReedSolomon.evaluator, parityLength]
  refine forUp_fill len List.length_replicate.symm fun k lt => ?_
  have bound : k < 32 := by
    rwa [len, List.length_replicate] at lt
  generalize hterms : List.zipWith field.mul (locator.take (degree + 1))
    (syndromes.take (k + 1)).reverse = terms
  have whole : (ReedSolomon.evaluator syndromes (locator.take (degree + 1)))[k] =
      terms.foldl (· ^^^ ·) 0 := by
    simp [ReedSolomon.evaluator, hterms]
  have terms_length : terms.length = min degree k + 1 := by
    simp only [← hterms, List.length_zipWith, List.length_take, List.length_reverse, count]
    omega
  generalize hxs : overwritten (List.replicate 32 0)
    (ReedSolomon.evaluator syndromes (locator.take (degree + 1))) k = xs
  have zero : xs[k]? = some 0 := by
    rw [← hxs, getElem?_overwritten len (by rw [List.length_replicate]; exact bound),
      List.getElem?_replicate, if_pos bound]
  have room : k < xs.length := by
    obtain ⟨room, -⟩ := List.getElem?_eq_some_iff.mp zero
    exact room
  have all : terms.take (min degree k + 1) = terms := by
    rw [← terms_length, List.take_length]
  let value (j : Nat) : UInt8 := (terms.take j).foldl (· ^^^ ·) 0
  have stop : xs.set k (value (min degree k + 1)) =
      xs.set k (ReedSolomon.evaluator syndromes (locator.take (degree + 1)))[k] := by
    rw [whole, ← all]
  refine (forUp_entry value zero fun j below => ?_).trans (congrArg pure stop)
  have inLocator : j < locator.length := by omega
  have back : j ≤ k := by omega
  have inSyndromes : k - j < syndromes.length := by omega
  have inTerms : j < terms.length := by omega
  have term : terms[j] = field.mul locator[j] syndromes[k - j] := by
    have place : (syndromes.take (k + 1)).length - 1 - j = k - j := by
      rw [List.length_take]
      omega
    simp only [← hterms, List.getElem_zipWith, List.getElem_take, List.getElem_reverse, place]
  have next : value (j + 1) = value j ^^^ terms[j] := by
    show (terms.take (j + 1)).foldl _ _ = _
    rw [List.take_succ_eq_append_getElem inTerms, List.foldl_append]
    rfl
  have old : item (xs.set k (value j)) k = pure (value j) :=
    item_of_getElem? (List.getElem?_set_self room)
  have inside : k < (xs.set k (value j)).length := by rwa [List.length_set]
  simp only [item_of_lt inLocator, sub_of_le back, item_of_lt inSyndromes, multiply_eq wide, old,
    pure_bind, store_of_lt inside, List.set_set, next, term]

end

/-! ## 4. The derivative -/

theorem length_derivative (cs : List UInt8) : (derivative cs).length = cs.length - 1 := by
  rw [ReedSolomon.derivative, List.length_mapIdx, List.length_tail]

/-- An odd coefficient, at the index below its degree. -/
theorem getElem_derivative_odd {cs : List UInt8} {i : Nat} (even : i % 2 = 0)
    (lt : i < (derivative cs).length) (lt' : i + 1 < cs.length) :
    (derivative cs)[i] = cs[i + 1] := by
  simp [ReedSolomon.derivative, even]

/-- No other coefficient is left. -/
theorem getElem_derivative_even {cs : List UInt8} {i : Nat} (odd : i % 2 = 1)
    (lt : i < (derivative cs).length) : (derivative cs)[i] = 0 := by
  simp [ReedSolomon.derivative, odd]

/-- Two coefficients at a time: the second of them is zero. -/
theorem evalAscending_derivative_take {cs : List UInt8} {i : Nat} (even : i % 2 = 0)
    (inside : i + 1 < cs.length) (x : UInt8) :
    field.evalAscending ((derivative cs).take (i + 2)) x =
      field.evalAscending ((derivative cs).take i) x ^^^
        field.mul cs[i + 1] (ofByte x ^ i).toByte := by
  have len := length_derivative cs
  have lt : i < (derivative cs).length := by omega
  have first : field.evalAscending ((derivative cs).take (i + 1)) x =
      field.evalAscending ((derivative cs).take i) x ^^^
        field.mul cs[i + 1] (ofByte x ^ i).toByte := by
    rw [List.take_succ_eq_append_getElem lt, getElem_derivative_odd even lt inside]
    refine evalAscending_concat _ _ _ _ ?_
    rw [List.length_take, Nat.min_eq_left (Nat.le_of_lt lt)]
    rfl
  rcases Nat.lt_or_ge (i + 1) (derivative cs).length with more | last
  · have zero := getElem_derivative_even (i := i + 1) (by omega) more
    rw [List.take_succ_eq_append_getElem more, zero, evalAscending_concat _ _ _
      (ofByte x ^ ((derivative cs).take (i + 1)).length).toByte rfl, first]
    simp
  · rw [← first, List.take_of_length_le last, List.take_of_length_le (by omega)]

section

variable {size : Nat} (wide : 2 ^ 16 ≤ size) {locator : List UInt8} {degree position : Nat}

include wide

/-- **One turn of the loop** adds one odd coefficient, and with it the even one behind it. -/
theorem derivativeTurn_eq (small : degree ≤ 16) (inside : position < 255) {cs : List UInt8}
    (front : locator.take (degree + 1) = cs) {i : Nat} (even : i % 2 = 0) (more : i + 1 ≤ degree)
    (inLocator : i + 1 < locator.length) :
    derivativeTurn size locator degree position
        (i + 1, field.evalAscending ((derivative cs).take i) (inverseLocator position)) =
      pure (.inl (i + 2 + 1, field.evalAscending ((derivative cs).take (i + 2))
        (inverseLocator position))) := by
  have inCs : i + 1 < cs.length := by
    rw [← front, List.length_take]
    omega
  have coefficient : locator[i + 1] = cs[i + 1] := by
    simp only [← front, List.getElem_take]
  have count : position + 1 < size := by omega
  have count' : i + 1 + 2 < size := by omega
  have product : (position + 1) * (i + 1 - 1) < size := by
    have : (position + 1) * i ≤ 255 * 16 := Nat.mul_le_mul (by omega) (by omega)
    rw [Nat.add_sub_cancel]
    omega
  have exponent : field.pow ((position + 1) * (i + 1 - 1)) =
      (ofByte (inverseLocator position) ^ i).toByte := by
    rw [Nat.add_sub_cancel, ← Element.ofByte_inj, Element.ofByte_pow, pow_mul, ← Element.ofByte_pow]
    rfl
  simp only [derivativeTurn, if_pos more, add_of_lt count, sub_of_le (Nat.le_add_left 1 i),
    mul_of_lt product, item_of_lt inLocator, power_eq, multiply_eq wide, add_of_lt count',
    pure_bind, coefficient, exponent]
  rw [← evalAscending_derivative_take even inCs]

/-- **The loop over the odd coefficients ends**, and sums up the derivative. -/
theorem derivativeFrom_eq (short : degree < locator.length) (small : degree ≤ 16)
    (inside : position < 255) (i : Nat) (even : i % 2 = 0) :
    derivativeFrom size locator degree position (i + 1)
        (field.evalAscending ((derivative (locator.take (degree + 1))).take i)
          (inverseLocator position)) =
      pure (field.evalAscending (derivative (locator.take (degree + 1)))
        (inverseLocator position)) := by
  generalize left : degree - i = n
  induction n using Nat.strong_induction_on generalizing i with
  | _ n ih =>
      rw [derivativeFrom, loop_eq]
      by_cases more : i + 1 ≤ degree
      · rw [derivativeTurn_eq wide small inside rfl even more (by omega), pure_bind]
        exact ih (degree - (i + 2)) (by omega) (i + 2) (by omega) rfl
      · have all : (derivative (locator.take (degree + 1))).take i =
            derivative (locator.take (degree + 1)) := by
          rw [List.take_of_length_le]
          rw [length_derivative, List.length_take]
          omega
        rw [derivativeTurn, if_neg more, all]
        rfl

end

/-! ## 5. Words -/

section

variable {size : Nat} (wide : 2 ^ 16 ≤ size) {syndromes locator : List UInt8} {degree : Nat}

include wide

/-- **One byte is put right** by the magnitude at its position. -/
theorem correctAt_eq (short : degree < locator.length) (small : degree ≤ 16) (w : Word)
    {position : Nat}
    (inside : position < 255) :
    correctAt size
      (ReedSolomon.evaluator syndromes (locator.take (degree + 1))) locator degree w.bytes
        position =
      match magnitude? syndromes (locator.take (degree + 1)) position with
      | some m => pure (adjust w position m).bytes
      | none => throw .uncorrectable := by
  have length_evaluator :
      (ReedSolomon.evaluator syndromes (locator.take (degree + 1))).length = 32 := by
    simp [ReedSolomon.evaluator, parityLength]
  have numerator :=
    evaluateUp_eq wide (Nat.le_of_eq length_evaluator.symm) (inverseLocator position)
  rw [List.take_of_length_le (Nat.le_of_eq length_evaluator)] at numerator
  have slope := derivativeFrom_eq wide short small inside 0 rfl
  have count : position + 1 < size := by omega
  have product : (254 - position) * 255 < size := by omega
  -- the place of a byte to the power of 255 is 1
  have root : field.pow ((254 - position) * 255) = 1 := by
    rw [← ccsds_pow_mod, Nat.mul_mod_left]
    exact ccsds_pow_zero
  have inWord : position < w.bytes.length := by rw [w.length_eq]; exact inside
  have locator_at : field.pow (position + 1) = inverseLocator position := rfl
  have start : field.evalAscending ((derivative (locator.take (degree + 1))).take 0)
      (inverseLocator position) = 0 := rfl
  rw [start] at slope
  simp only [correctAt, sub_of_le (Nat.le_of_lt_succ inside), add_of_lt count, power_eq, locator_at,
    numerator, slope, pure_bind, magnitude?]
  split
  · rfl
  · have written (m : UInt8) : (adjust w position m).bytes =
        w.bytes.set position (w.bytes[position] ^^^ m) := by
      show w.bytes.modify position (· ^^^ m) = _
      rw [List.modify_eq_set, List.getElem?_eq_getElem inWord]
      rfl
    have times_one (m : UInt8) : field.mul (field.pow ((254 - position) * 255)) m = m := by
      rw [root]
      exact ccsds_one_mul m
    simp only [mul_of_lt product, divide_eq wide, multiply_eq wide, item_of_lt inWord,
      store_of_lt inWord, pure_bind, times_one, written]

/-- **All bytes are put right**, one after the other. -/
theorem correctErrors_eq (count : syndromes.length = 32) (short : degree < locator.length)
    (small : degree ≤ 16) (positions : List Nat) (inside : ∀ i ∈ positions, i < 255) (w : Word) :
    correctErrors size syndromes locator degree positions w.bytes =
      match adjustAll? syndromes (locator.take (degree + 1)) w positions with
      | some w => pure w.bytes
      | none => throw .uncorrectable := by
  rw [correctErrors, evaluator_eq wide count short, pure_bind]
  induction positions generalizing w with
  | nil => rfl
  | cons i positions ih =>
      rw [List.foldlM_cons, correctAt_eq wide short small w (inside i List.mem_cons_self),
        adjustAll?]
      cases magnitude? syndromes (locator.take (degree + 1)) i with
      | none => rfl
      | some m =>
          rw [pure_bind]
          exact ih (fun j hj => inside j (List.mem_cons_of_mem _ hj)) (adjust w i m)

/-- **A locator is used only within its degree**, and only if the degree is at most 16. -/
theorem correctBy_eq (long : locator.length = 33) (w : Word) :
    correctBy size w.bytes (ReedSolomon.syndromes w) locator degree =
      match (if degree = 0 ∨ correctable < degree then none
        else
          if (positions (locator.take (degree + 1))).length = degree then
            match adjustAll? (ReedSolomon.syndromes w) (locator.take (degree + 1)) w
                (positions (locator.take (degree + 1))) with
            | some repaired => if isCodeword repaired then some (degree, repaired) else none
            | none => none
          else none : Option (Nat × Word)) with
      | some (n, w) => pure (n, w.bytes)
      | none => throw .uncorrectable := by
  have count : (ReedSolomon.syndromes w).length = 32 := length_syndromes w
  rw [correctBy]
  by_cases refused : degree = 0 ∨ 16 < degree
  · rw [if_pos refused, if_pos (show _ ∨ correctable < degree from refused)]
  rw [if_neg refused, if_neg (show ¬ (_ ∨ correctable < degree) from refused)]
  have small : degree ≤ 16 := by omega
  have short : degree < locator.length := by omega
  rw [findErrors_eq wide short, pure_bind]
  by_cases found : (positions (locator.take (degree + 1))).length = degree
  · have within : ∀ i ∈ positions (locator.take (degree + 1)), i < 255 :=
      fun i hi => List.mem_range.mp (List.mem_of_mem_filter hi)
    rw [if_neg fun ne => ne found, if_pos found, correctErrors_eq wide count short small _ within w]
    cases adjustAll? (ReedSolomon.syndromes w) (locator.take (degree + 1)) w
        (positions (locator.take (degree + 1))) with
    | none => rfl
    | some repaired =>
        have any : ((ReedSolomon.syndromes repaired).any (· != 0)) = !isCodeword repaired := by
          rw [isCodeword, List.not_all_eq_any_not]
          rfl
        rw [pure_bind, calcSyndromes_eq wide, pure_bind, any]
        dsimp only
        cases isCodeword repaired with
        | true => rfl
        | false => rfl
  · rw [if_pos found, if_neg found]

/-- **Correcting stops on no word**, and answers what `repair?` does. -/
theorem decodeInPlace_eq (w : Word) :
    decodeInPlace size w.bytes =
      match repair? w with
      | some (n, w) => pure (n, w.bytes)
      | none => throw .uncorrectable := by
  have count : (ReedSolomon.syndromes w).length = parityLength := length_syndromes w
  rw [decodeInPlace, calcSyndromes_eq wide, pure_bind, repair?]
  dsimp only
  by_cases clean : (ReedSolomon.syndromes w).all (· == 0) = true
  · rw [if_pos clean, if_pos clean]
  · have long : (ReedSolomon.locate (ReedSolomon.syndromes w)).locator.length = 33 :=
      (tracks_locate (Nat.le_of_eq count)).length_locator
    rw [if_neg clean, if_neg clean, locate_eq wide count, pure_bind]
    generalize ReedSolomon.locate (ReedSolomon.syndromes w) = s at long ⊢
    show correctBy size w.bytes _ s.locator s.degree = _
    exact correctBy_eq wide long w

end

end SatLink.Indexed
