import Mathlib.Data.List.Forall2
import SatLink.Proofs.Outcome
import SatLink.Text.Blank
import SatLink.Text.Numeral
import SatLink.Text.Pieces

/-!
# Texts taken apart

What a reader finds in a text, told by the text alone.

* `splitFirst_fst`, `splitFirst_snd` — the two sides of the first separator;
* `pieces_eq_splitOn` — the pieces between separators;
* `Spells` — the decimal numerals, and `read_eq_ok_iff`: **a reader takes the numerals below its
  bound, and nothing else**;
* `mapM_eq_ok_iff` — a list is read where each of its entries is.
-/

namespace SatLink

/-! ## 1. Separators -/

namespace Text

variable (separator : Char) (text : List Char)

theorem splitFirst_fst : (splitFirst separator text).1 = text.takeWhile (· ≠ separator) := by
  induction text with
  | nil => rfl
  | cons c rest ih =>
      rw [splitFirst]
      by_cases here : c = separator
      · rw [if_pos here, List.takeWhile_cons_of_neg (by simpa using here)]
      · rw [if_neg here, List.takeWhile_cons_of_pos (by simpa using here), ← ih]

/-- What stands behind the first separator; nothing does where there is none. -/
theorem splitFirst_snd :
    (splitFirst separator text).2.getD [] = (text.dropWhile (· ≠ separator)).drop 1 := by
  induction text with
  | nil => rfl
  | cons c rest ih =>
      rw [splitFirst]
      by_cases here : c = separator
      · rw [if_pos here, List.dropWhile_cons_of_neg (by simpa using here)]
        rfl
      · rw [if_neg here, List.dropWhile_cons_of_pos (by simpa using here), ← ih]

variable {separator text} in
/-- What is free of a separator is passed over by the search for it. -/
theorem forall_ne_of_not_mem (free : separator ∉ text) :
    ∀ c ∈ text, decide (c ≠ separator) = true :=
  fun _ mem => decide_eq_true fun same => free (same ▸ mem)

theorem pieces_eq_splitOn : pieces separator text = text.splitOn separator := by
  induction text with
  | nil => rfl
  | cons c rest ih =>
      rw [pieces, List.splitOn_cons_eq_if_modifyHead, ih]
      by_cases here : c = separator
      · rw [if_pos here, if_pos (beq_iff_eq.mpr here)]
      · rw [if_neg here, if_neg (by simpa using here)]
        cases split : rest.splitOn separator with
        | nil => exact absurd split (List.splitOn_ne_nil separator rest)
        | cons first more => rfl

end Text

/-! ## 2. Numerals -/

namespace Text.Numeral

variable {bound value n : Nat} {text digits : List Char}

/-- A text spells a number: in decimal digits, at least one of them, and a plus sign may stand in
    front. -/
def Spells (text : List Char) (n : Nat) : Prop :=
  ∃ digits, (text = digits ∨ text = '+' :: digits) ∧ digits ≠ [] ∧
    (∀ c ∈ digits, c.isDigit = true) ∧ Nat.ofDigitChars 10 digits 0 = n

/-- Digits behind a number do not make it smaller. -/
theorem le_ofDigitChars (value : Nat) (digits : List Char) :
    value ≤ Nat.ofDigitChars 10 digits value := by
  rw [Nat.ofDigitChars_eq_ofDigitChars_zero]
  have pos : 0 < 10 ^ digits.length := Nat.pow_pos (by decide)
  exact Nat.le_trans (Nat.le_mul_of_pos_left value pos) (Nat.le_add_right _ _)

/-- A number that has left the bound does not come back, so looking at the bound after each digit is
    looking at it once. -/
theorem readDigits_eq_ok_iff (below : value < bound) : readDigits bound value digits = .ok n ↔
    (∀ c ∈ digits, c.isDigit = true) ∧ Nat.ofDigitChars 10 digits value = n ∧ n < bound := by
  induction digits generalizing value with
  | nil =>
      rw [readDigits, Nat.ofDigitChars_nil]
      constructor
      · rintro ⟨⟩
        exact ⟨List.forall_mem_nil _, rfl, below⟩
      · rintro ⟨-, rfl, -⟩
        rfl
  | cons c rest ih =>
      rw [readDigits, Nat.ofDigitChars_cons, Nat.mul_comm 10 value, List.forall_mem_cons]
      by_cases digit : c.isDigit = true
      · rw [if_pos digit]
        dsimp only
        by_cases fits : value * 10 + (c.toNat - '0'.toNat) < bound
        · rw [if_pos fits, ih fits, and_iff_right digit]
        · rw [if_neg fits]
          constructor
          · intro refused
            cases refused
          · rintro ⟨-, same, lt⟩
            exact absurd (Nat.lt_of_le_of_lt (le_ofDigitChars _ rest) (same ▸ lt)) fits
      · rw [if_neg digit]
        constructor
        · intro refused
          cases refused
        · rintro ⟨⟨h, -⟩, -⟩
          exact absurd h digit

theorem spells_plus : Spells ('+' :: digits) n ↔
    digits ≠ [] ∧ (∀ c ∈ digits, c.isDigit = true) ∧ Nat.ofDigitChars 10 digits 0 = n := by
  constructor
  · rintro ⟨digits', same | same, nonempty, all, value⟩
    · subst same
      exact absurd (all '+' List.mem_cons_self) (by decide)
    · obtain rfl := (List.cons.inj same).2
      exact ⟨nonempty, all, value⟩
  · intro spelled
    exact ⟨digits, Or.inr rfl, spelled⟩

theorem spells_of_no_plus (no : ∀ rest, text ≠ '+' :: rest) : Spells text n ↔
    text ≠ [] ∧ (∀ c ∈ text, c.isDigit = true) ∧ Nat.ofDigitChars 10 text 0 = n := by
  constructor
  · rintro ⟨digits, rfl | same, spelled⟩
    · exact spelled
    · exact absurd same (no digits)
  · intro spelled
    exact ⟨text, Or.inl rfl, spelled⟩

/-- **What a reader of numbers takes.** -/
theorem read_eq_ok_iff (pos : 0 < bound) : read bound text = .ok n ↔ Spells text n ∧ n < bound := by
  unfold read
  split
  · rw [spells_of_no_plus (fun _ => (List.cons_ne_nil _ _).symm)]
    exact iff_of_false (by simp) fun spelled => spelled.1.1 rfl
  · rw [spells_plus]
    exact iff_of_false (by simp) fun spelled => spelled.1.1 rfl
  · rename_i digits nonempty
    rw [readDigits_eq_ok_iff pos, spells_plus, and_assoc, and_assoc]
    exact ⟨fun h => ⟨fun nothing => nonempty (nothing ▸ rfl), h⟩, fun h => h.2⟩
  · rename_i nonempty _ no
    rw [readDigits_eq_ok_iff pos, spells_of_no_plus no, and_assoc, and_assoc]
    exact ⟨fun h => ⟨nonempty, h⟩, fun h => h.2⟩

/-- The way in which a number is written. -/
theorem spells_toDigits (n : Nat) : Spells (Nat.toDigits 10 n) n :=
  ⟨Nat.toDigits 10 n, Or.inl rfl, Nat.toDigits_ne_nil,
    fun _ mem => Nat.isDigit_of_mem_toDigits (by decide) (by decide) mem,
    Nat.ofDigitChars_toDigits (by decide) (by decide)⟩

theorem isBlank_of_isDigit {c : Char} (digit : c.isDigit = true) : isBlank c = false := by
  have nine : ∀ n < 58, 48 ≤ n → isBlank (Char.ofNat n) = false := by decide
  unfold Char.isDigit at digit
  rw [Bool.and_eq_true, decide_eq_true_eq, decide_eq_true_eq] at digit
  rw [← Char.ofNat_toNat c]
  exact nine c.toNat (Nat.lt_succ_of_le digit.2) digit.1

/-- A number is written without white space. -/
theorem trimmed_toDigits (n : Nat) : trimmed (Nat.toDigits 10 n) = Nat.toDigits 10 n := by
  have kept {digits : List Char} (all : ∀ c ∈ digits, c.isDigit = true) :
      digits.dropWhile isBlank = digits := by
    cases digits with
    | nil => rfl
    | cons c rest =>
        refine List.dropWhile_cons_of_neg ?_
        rw [isBlank_of_isDigit (all c List.mem_cons_self)]
        decide
  have digits : ∀ c ∈ Nat.toDigits 10 n, c.isDigit = true := fun _ mem =>
    Nat.isDigit_of_mem_toDigits (by decide) (by decide) mem
  unfold trimmed
  rw [kept digits, kept fun c mem => digits c (List.mem_reverse.mp mem), List.reverse_reverse]

end Text.Numeral

/-! ## 3. Lists -/

theorem mapM_eq_ok_iff {ε α β : Type} {f : α → Except ε β} {entries : List α} {out : List β} :
    entries.mapM f = .ok out ↔ List.Forall₂ (fun a b => f a = .ok b) entries out := by
  induction entries generalizing out with
  | nil =>
      rw [List.mapM_nil, List.forall₂_nil_left_iff]
      exact ⟨fun h => (Except.ok.inj h).symm, fun h => h ▸ rfl⟩
  | cons a rest ih =>
      rw [List.mapM_cons, List.forall₂_cons_left_iff, bind_eq_ok_iff]
      constructor
      · rintro ⟨b, first, h⟩
        obtain ⟨more, others, same⟩ := bind_eq_ok_iff.mp h
        exact ⟨b, more, first, ih.mp others, (Except.ok.inj same).symm⟩
      · rintro ⟨b, more, first, others, rfl⟩
        exact ⟨b, first, bind_eq_ok_iff.mpr ⟨more, ih.mpr others, rfl⟩⟩

/-- What is asked of the entries on the right alone can be asked apart. -/
theorem forall₂_and_right {α β : Type} {R : α → β → Prop} {p : β → Prop} {xs : List α}
    {ys : List β} :
    List.Forall₂ (fun a b => R a b ∧ p b) xs ys ↔ List.Forall₂ R xs ys ∧ ∀ b ∈ ys, p b := by
  constructor
  · intro both
    induction both with
    | nil => exact ⟨.nil, List.forall_mem_nil p⟩
    | cons here _ ih => exact ⟨.cons here.1 ih.1, List.forall_mem_cons.mpr ⟨here.2, ih.2⟩⟩
  · rintro ⟨related, all⟩
    induction related with
    | nil => exact .nil
    | cons here _ ih =>
        obtain ⟨first, rest⟩ := List.forall_mem_cons.mp all
        exact .cons ⟨here, first⟩ (ih rest)

end SatLink
