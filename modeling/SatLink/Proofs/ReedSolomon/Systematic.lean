import SatLink.Proofs.ReedSolomon.Codeword

/-!
# The codeword of a message

The first byte of a word is the coefficient of the highest degree of its polynomial. Encoding puts
32 bytes behind a message so that this polynomial vanishes at the 32 roots, and there is only one
way to do so.

* `ofByte_eval_word` — evaluating the bytes of a word at a power of α is evaluating its polynomial;
* `isCodeword_iff_eval` — a codeword is a word that vanishes at `α, α^2, …, α^32`;
* `eq_encode_iff` — the codeword of a message is the only one that begins with it;
* `isCodeword_xor` — the sum of two codewords is a codeword, so encoding is additive (`encode_sum`).
-/

namespace SatLink.ReedSolomon

open Polynomial Galois
open Galois.Element (ofByte alpha)

/-! ## 1. The polynomial of a word -/

/-- The polynomial of a word: its first byte has the highest degree. -/
noncomputable def wordPolynomial (w : Word) : Element[X] := ascending w.bytes.reverse

theorem coeff_wordPolynomial (w : Word) {i : Nat} (lt : i < 255) :
    (wordPolynomial w).coeff (254 - i) = symbol w i := by
  have len : w.bytes.length = 255 := w.length_eq
  have inside : 254 - i < w.bytes.length := by omega
  have place : w.bytes.length - 1 - (254 - i) = i := by omega
  rw [wordPolynomial, coeff_ascending, symbol, List.getD_eq_getElem?_getD,
    List.getElem?_reverse inside, place, ← List.getD_eq_getElem?_getD]

/-- At a power of α, a word takes the value of its polynomial. -/
theorem ofByte_eval_word (w : Word) (k : Nat) :
    ofByte (field.eval w.bytes (field.pow k)) = (wordPolynomial w).eval (alpha ^ k) := by
  rw [← Tables.evalAscending_reverse, ofByte_evalAscending, Element.ofByte_pow, wordPolynomial]

/-! ## 2. Codewords by their values -/

theorem mem_roots {x : UInt8} : x ∈ roots ↔ ∃ k, 1 ≤ k ∧ k ≤ 32 ∧ field.pow k = x := by
  simp only [roots, parityLength, List.mem_map, List.mem_range]
  constructor
  · rintro ⟨k, lt, rfl⟩
    exact ⟨k + 1, by omega, lt, rfl⟩
  · rintro ⟨k, pos, le, rfl⟩
    exact ⟨k - 1, by omega, by rw [Nat.sub_add_cancel pos]⟩

/-- **A codeword vanishes at the 32 roots.** -/
theorem isCodeword_iff_eval (w : Word) : isCodeword w = true ↔
    ∀ k, 1 ≤ k → k ≤ 32 → field.eval w.bytes (field.pow k) = 0 := by
  simp only [isCodeword, syndromes, List.all_map, List.all_eq_true, Function.comp_apply, beq_iff_eq]
  constructor
  · intro zero k pos le
    exact zero _ (mem_roots.mpr ⟨k, pos, le, rfl⟩)
  · intro zero x root
    obtain ⟨k, pos, le, rfl⟩ := mem_roots.mp root
    exact zero k pos le

/-- **The codeword of a message** is the only one that begins with it. -/
theorem eq_encode_iff {m : Message} {w : Word} :
    w = encode m ↔ message w = m ∧ isCodeword w = true := by
  constructor
  · rintro rfl
    exact ⟨message_encode m, isCodeword_encode m⟩
  · rintro ⟨rfl, codeword⟩
    exact (encode_message codeword).symm

/-! ## 3. Sums of words -/

/-- The sum of two codewords is a codeword. -/
theorem isCodeword_xor {a b : Word} (ha : isCodeword a = true) (hb : isCodeword b = true) :
    isCodeword (a.xor b) = true := by
  rw [isCodeword_iff_eval] at ha hb ⊢
  intro k pos le
  have len : a.bytes.length = b.bytes.length := by rw [a.length_eq, b.length_eq]
  have sum := ofByte_eval_zipWith_xor a.bytes b.bytes (field.pow k) len
  rw [ha k pos le, hb k pos le, Element.ofByte_zero, add_zero] at sum
  exact Element.ofByte_eq_zero.mp sum

theorem message_xor (a b : Word) : message (a.xor b) = (message a).xor (message b) := by
  ext1
  exact List.take_zipWith

/-- **Encoding is additive.** -/
theorem encode_sum (m₁ m₂ : Message) :
    encode (m₁.xor m₂) = (encode m₁).xor (encode m₂) := by
  refine (eq_encode_iff.mpr ⟨?_, ?_⟩).symm
  · rw [message_xor, message_encode, message_encode]
  · exact isCodeword_xor (isCodeword_encode m₁) (isCodeword_encode m₂)

/-! ## 4. Encoding -/

/-- **Encoding is systematic, unique and additive.** Every message has a codeword; it is the one and
    only word that begins with the message and vanishes at `α, α^2, …, α^32`, as a polynomial whose
    highest coefficient is the first byte; and the codeword of a sum is the sum of the codewords. -/
theorem encode_unique :
    (∀ m : Message, encodeBytes m.bytes = .ok (encode m)) ∧
    (∀ (m : Message) (w : Word), w = encode m ↔ w.bytes.take 223 = m.bytes ∧
      ∀ k, 1 ≤ k → k ≤ 32 → field.eval w.bytes (field.pow k) = 0) ∧
    (∀ (w : Word) (k : Nat),
      ofByte (field.eval w.bytes (field.pow k)) = (wordPolynomial w).eval (alpha ^ k)) ∧
    (∀ (w : Word) (i : Nat), i < 255 →
      (wordPolynomial w).coeff (254 - i) = ofByte (w.bytes.getD i 0)) ∧
    (∀ m₁ m₂ : Message, encode (m₁.xor m₂) = (encode m₁).xor (encode m₂)) := by
  refine ⟨fun m => ?_, fun m w => ?_, ofByte_eval_word, fun w _ lt => coeff_wordPolynomial w lt,
    encode_sum⟩
  · rw [encodeBytes, Block.ofList?_bytes]
  · rw [eq_encode_iff, isCodeword_iff_eval, Block.ext_iff]
    rfl

end SatLink.ReedSolomon
