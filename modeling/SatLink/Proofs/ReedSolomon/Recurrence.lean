import SatLink.Proofs.Galois.Polynomial
import SatLink.ReedSolomon.Locator

/-!
# The shortest recurrence

A polynomial `c` of degree at most `d` predicts a sequence `s` when the coefficients of `c * s` from
the `d`th on vanish: every entry is then the sum of the `d` entries before it, weighted by the
coefficients of `c`. This file shows that `locate` finds the shortest one.

* `Balanced` — what the search keeps: a recurrence that is right so far, beside a partner that is
  right up to the last syndrome and misses it; their degrees add up to the number of syndromes plus
  one, and each has the numerator of its product with the sequence beside it;
* `Balanced.keep`, `Balanced.mend`, `Balanced.grow` — the three things a step can do keep it;
* `Balanced.degree_le` — a balanced recurrence is the shortest; `Balanced.numerator_eval_ne_zero` —
  it has no root in common with its numerator;
* `Tracks` — a search holds a balanced pair; `Tracks.step` — a step keeps that; `tracks_locate` — so
  does the whole search.
-/

namespace SatLink.ReedSolomon

open Polynomial Galois
open Galois.Element (ofByte)

/-- The recurrence `c` of length `d` is right for the entries of `s` below the `n`th. -/
def Predicts (s : Element[X]) (n : Nat) (c : Element[X]) (d : Nat) : Prop :=
  c ∈ degreeLT Element (d + 1) ∧ ∀ k, d ≤ k → k < n → (c * s).coeff k = 0

/-! ## 1. Low coefficients -/

/-- Where all lower coefficients vanish, a product has the product of the first two. -/
theorem coeff_mul_of_low {f : Element[X]} {n : Nat} (low : ∀ k < n, f.coeff k = 0)
    (g : Element[X]) : (g * f).coeff n = g.coeff 0 * f.coeff n := by
  rw [coeff_mul, Finset.sum_eq_single (0, n)]
  · rintro ⟨i, j⟩ hij ne
    rw [Finset.HasAntidiagonal.mem_antidiagonal] at hij
    have lt : j < n := by
      rcases Nat.eq_zero_or_pos i with rfl | pos
      · exact absurd (by simp_all) ne
      · simp only at hij
        omega
    rw [low j lt, mul_zero]
  · intro h
    exact absurd (by simp) h

theorem coeff_mul_eq_zero_of_low {f : Element[X]} {n k : Nat} (low : ∀ k < n, f.coeff k = 0)
    (g : Element[X]) (lt : k < n) : (g * f).coeff k = 0 := by
  rw [coeff_mul_of_low (fun j hj => low j (hj.trans lt)) g, low k lt, mul_zero]

theorem X_mul_mem_degreeLT {p : Element[X]} {n : Nat} (h : p ∈ degreeLT Element n) :
    X * p ∈ degreeLT Element (n + 1) := by
  apply mem_degreeLT_of_coeff
  intro k le
  obtain ⟨j, rfl⟩ : ∃ j, k = j + 1 := ⟨k - 1, by omega⟩
  rw [coeff_X_mul, coeff_eq_zero_of_mem_degreeLT h (by omega)]

theorem mem_degreeLT_mono {p : Element[X]} {m n : Nat} (h : p ∈ degreeLT Element m) (le : m ≤ n) :
    p ∈ degreeLT Element n :=
  degreeLT_mono le h

theorem C_mul_mem_degreeLT {p : Element[X]} {n : Nat} (h : p ∈ degreeLT Element n) (a : Element) :
    C a * p ∈ degreeLT Element n := by
  rw [← smul_eq_C_mul]
  exact Submodule.smul_mem _ a h

/-- The part of a polynomial below the `d`th coefficient. -/
noncomputable def lowPart (d : Nat) (f : Element[X]) : Element[X] :=
  ∑ k ∈ Finset.range d, monomial k (f.coeff k)

theorem coeff_lowPart (d : Nat) (f : Element[X]) (k : Nat) :
    (lowPart d f).coeff k = if k < d then f.coeff k else 0 := by
  simp [lowPart, finsetSum_coeff, coeff_monomial]

theorem lowPart_mem_degreeLT (d : Nat) (f : Element[X]) : lowPart d f ∈ degreeLT Element d := by
  apply mem_degreeLT_of_coeff
  intro k le
  rw [coeff_lowPart, if_neg (by omega)]

/-- A recurrence and its numerator agree on every entry it predicts. -/
theorem Predicts.coeff_sub_lowPart {s c : Element[X]} {n d : Nat} (h : Predicts s n c d) {k : Nat}
    (lt : k < n) : (c * s - lowPart d (c * s)).coeff k = 0 := by
  rw [coeff_sub, coeff_lowPart]
  split
  · rw [sub_self]
  · rw [h.2 k (by omega) lt, sub_zero]

/-! ## 2. A recurrence and its partner -/

/-- **What the search keeps after `n` entries of `s`**: the recurrence `c` of length `d` with its
    numerator `ω`, and the partner `p` with its numerator `γ`, which misses the `n`th entry by
    `gap`. -/
structure Balanced (s : Element[X]) (n d : Nat) (c ω p γ : Element[X]) (gap : Element) : Prop where
  degree_le_count : d ≤ n
  constant : c.coeff 0 = 1
  mem : c ∈ degreeLT Element (d + 1)
  numerator_mem : ω ∈ degreeLT Element d
  agrees : ∀ k < n, (c * s - ω).coeff k = 0
  partner_constant : p.coeff 0 = 0
  partner_mem : p ∈ degreeLT Element (n + 2 - d)
  partner_numerator_mem : γ ∈ degreeLT Element (n + 1 - d)
  partner_agrees : ∀ k < n, (p * s - γ).coeff k = 0
  partner_misses : (p * s - γ).coeff n = gap
  gap_ne_zero : gap ≠ 0

namespace Balanced

variable {s c ω p γ : Element[X]} {n d : Nat} {gap : Element}

/-- Before the first entry. -/
theorem start (s : Element[X]) : Balanced s 0 0 1 0 X 1 1 where
  degree_le_count := Nat.le_refl 0
  constant := by simp
  mem := mem_degreeLT_of_coeff fun k le => by
    rw [coeff_one, if_neg (by omega)]
  numerator_mem := Submodule.zero_mem _
  agrees k lt := absurd lt (Nat.not_lt_zero k)
  partner_constant := coeff_X_zero
  partner_mem := mem_degreeLT_of_coeff fun k le => by
    rw [coeff_X, if_neg (by omega)]
  partner_numerator_mem := mem_degreeLT_of_coeff fun k le => by
    rw [coeff_one, if_neg (by omega)]
  partner_agrees k lt := absurd lt (Nat.not_lt_zero k)
  partner_misses := by simp [CharTwo.neg_eq]
  gap_ne_zero := one_ne_zero

/-- The recurrence predicts all entries seen. -/
theorem predicts (h : Balanced s n d c ω p γ gap) : Predicts s n c d := by
  refine ⟨h.mem, fun k le lt => ?_⟩
  have agrees := h.agrees k lt
  rwa [coeff_sub, coeff_eq_zero_of_mem_degreeLT h.numerator_mem le, sub_zero] at agrees

/-- By how much the recurrence misses the next entry, whatever its numerator. -/
theorem coeff_sub_numerator (h : Balanced s n d c ω p γ gap) :
    (c * s - ω).coeff n = (c * s).coeff n := by
  rw [coeff_sub, coeff_eq_zero_of_mem_degreeLT h.numerator_mem h.degree_le_count, sub_zero]

/-- A shifted polynomial misses one entry later. -/
theorem coeff_X_mul_sub (f g : Element[X]) (k : Nat) :
    (X * f * s - X * g).coeff (k + 1) = (f * s - g).coeff k := by
  rw [mul_assoc, ← mul_sub, coeff_X_mul]

theorem coeff_X_mul_sub_eq_zero {f g : Element[X]} (low : ∀ k < n, (f * s - g).coeff k = 0) :
    ∀ k < n + 1, (X * f * s - X * g).coeff k = 0
  | 0, _ => by rw [mul_assoc, ← mul_sub, coeff_X_mul_zero]
  | k + 1, lt => by rw [coeff_X_mul_sub, low k (by omega)]

/-- **A right prediction**: the recurrence stays, its partner falls back by one more. -/
theorem keep (h : Balanced s n d c ω p γ gap) (right : (c * s).coeff n = 0) :
    Balanced s (n + 1) d c ω (X * p) (X * γ) gap where
  degree_le_count := Nat.le_succ_of_le h.degree_le_count
  constant := h.constant
  mem := h.mem
  numerator_mem := h.numerator_mem
  agrees k lt := by
    rcases Nat.lt_succ_iff_lt_or_eq.mp lt with lt | rfl
    · exact h.agrees k lt
    · rw [h.coeff_sub_numerator, right]
  partner_constant := coeff_X_mul_zero p
  partner_mem := by
    have le := h.degree_le_count
    exact mem_degreeLT_mono (X_mul_mem_degreeLT h.partner_mem) (by omega)
  partner_numerator_mem := by
    have le := h.degree_le_count
    exact mem_degreeLT_mono (X_mul_mem_degreeLT h.partner_numerator_mem) (by omega)
  partner_agrees := coeff_X_mul_sub_eq_zero h.partner_agrees
  partner_misses := (coeff_X_mul_sub p γ n).trans h.partner_misses
  gap_ne_zero := h.gap_ne_zero

/-- A multiple of the partner makes the recurrence right where it missed. -/
theorem agrees_mended (h : Balanced s n d c ω p γ gap) : ∀ k < n + 1,
    ((c + C ((c * s).coeff n / gap) * p) * s -
      (ω + C ((c * s).coeff n / gap) * γ)).coeff k = 0 := by
  intro k lt
  have split : (c + C ((c * s).coeff n / gap) * p) * s - (ω + C ((c * s).coeff n / gap) * γ) =
      (c * s - ω) + C ((c * s).coeff n / gap) * (p * s - γ) := by ring
  rw [split, coeff_add, coeff_C_mul]
  rcases Nat.lt_succ_iff_lt_or_eq.mp lt with lt | rfl
  · rw [h.agrees k lt, h.partner_agrees k lt, mul_zero, add_zero]
  · rw [h.coeff_sub_numerator, h.partner_misses, div_mul_cancel₀ _ h.gap_ne_zero,
      CharTwo.add_self_eq_zero]

theorem constant_mended (h : Balanced s n d c ω p γ gap) (r : Element) :
    (c + C r * p).coeff 0 = 1 := by
  rw [coeff_add, coeff_C_mul, h.constant, h.partner_constant, mul_zero, add_zero]

/-- **A wrong prediction of a long recurrence**: it is mended at the same length. -/
theorem mend (h : Balanced s n d c ω p γ gap) (long : n < 2 * d) :
    Balanced s (n + 1) d (c + C ((c * s).coeff n / gap) * p)
      (ω + C ((c * s).coeff n / gap) * γ) (X * p) (X * γ) gap where
  degree_le_count := Nat.le_succ_of_le h.degree_le_count
  constant := h.constant_mended _
  mem := Submodule.add_mem _ h.mem
    (C_mul_mem_degreeLT (mem_degreeLT_mono h.partner_mem (by omega)) _)
  numerator_mem := Submodule.add_mem _ h.numerator_mem
    (C_mul_mem_degreeLT (mem_degreeLT_mono h.partner_numerator_mem (by omega)) _)
  agrees := h.agrees_mended
  partner_constant := coeff_X_mul_zero p
  partner_mem := by
    have le := h.degree_le_count
    exact mem_degreeLT_mono (X_mul_mem_degreeLT h.partner_mem) (by omega)
  partner_numerator_mem := by
    have le := h.degree_le_count
    exact mem_degreeLT_mono (X_mul_mem_degreeLT h.partner_numerator_mem) (by omega)
  partner_agrees := coeff_X_mul_sub_eq_zero h.partner_agrees
  partner_misses := (coeff_X_mul_sub p γ n).trans h.partner_misses
  gap_ne_zero := h.gap_ne_zero

/-- **A wrong prediction of a short recurrence**: it is mended at a greater length, and becomes the
    partner. -/
theorem grow (h : Balanced s n d c ω p γ gap) (short : 2 * d ≤ n) (wrong : (c * s).coeff n ≠ 0) :
    Balanced s (n + 1) (n + 1 - d) (c + C ((c * s).coeff n / gap) * p)
      (ω + C ((c * s).coeff n / gap) * γ) (X * c) (X * ω) ((c * s).coeff n) where
  degree_le_count := Nat.sub_le _ _
  constant := h.constant_mended _
  mem := Submodule.add_mem _ (mem_degreeLT_mono h.mem (by omega))
    (C_mul_mem_degreeLT (mem_degreeLT_mono h.partner_mem (by omega)) _)
  numerator_mem := Submodule.add_mem _ (mem_degreeLT_mono h.numerator_mem (by omega))
    (C_mul_mem_degreeLT h.partner_numerator_mem _)
  agrees := h.agrees_mended
  partner_constant := coeff_X_mul_zero c
  partner_mem := mem_degreeLT_mono (X_mul_mem_degreeLT h.mem) (by omega)
  partner_numerator_mem := mem_degreeLT_mono (X_mul_mem_degreeLT h.numerator_mem) (by omega)
  partner_agrees := coeff_X_mul_sub_eq_zero h.agrees
  partner_misses := (coeff_X_mul_sub c ω n).trans h.coeff_sub_numerator
  gap_ne_zero := wrong

/-- **A balanced recurrence is the shortest.** A shorter one, multiplied crosswise with the partner,
    would leave a coefficient beyond its degree. -/
theorem degree_le (h : Balanced s n d c ω p γ gap) {c' : Element[X]} {d' : Nat}
    (constant : c'.coeff 0 ≠ 0) (predicts : Predicts s n c' d') : d ≤ d' := by
  by_contra short
  have le := h.degree_le_count
  let ω' := lowPart d' (c' * s)
  have agrees' : ∀ k < n, (ω' - c' * s).coeff k = 0 := by
    intro k lt
    rw [← neg_sub, coeff_neg, predicts.coeff_sub_lowPart lt, neg_zero]
  have small : p * ω' - c' * γ ∈ degreeLT Element (n + 1 - d + d') := by
    have split : n + 1 - d + d' = d' + (n + 1 - d) := by omega
    refine Submodule.sub_mem _ ?_ ?_
    · have mem := mem_degreeLT_mono h.partner_mem (by omega : n + 2 - d ≤ n + 1 - d + 1)
      exact mul_mem_degreeLT mem (lowPart_mem_degreeLT _ _)
    · rw [split]
      exact mul_mem_degreeLT predicts.1 h.partner_numerator_mem
  have vanishes := coeff_eq_zero_of_mem_degreeLT small (by omega : n + 1 - d + d' ≤ n)
  have crossed : p * ω' - c' * γ = p * (ω' - c' * s) + c' * (p * s - γ) := by ring
  rw [crossed, coeff_add, coeff_mul_of_low agrees', coeff_mul_of_low h.partner_agrees,
    h.partner_constant, h.partner_misses, zero_mul, zero_add] at vanishes
  exact mul_ne_zero constant h.gap_ne_zero vanishes

/-- Multiplied crosswise, recurrence and partner leave one term. -/
theorem crossed_eq (h : Balanced s n d c ω p γ gap) : p * ω - c * γ = C gap * X ^ n := by
  have le := h.degree_le_count
  have crossed : p * ω - c * γ = p * (ω - c * s) + c * (p * s - γ) := by ring
  have agrees : ∀ k < n, (ω - c * s).coeff k = 0 := by
    intro k lt
    rw [← neg_sub, coeff_neg, h.agrees k lt, neg_zero]
  have small : p * ω - c * γ ∈ degreeLT Element (n + 1) := by
    refine Submodule.sub_mem _ ?_ ?_
    · have mem := mem_degreeLT_mono h.partner_mem (by omega : n + 2 - d ≤ n + 1 - d + 1)
      exact mem_degreeLT_mono (mul_mem_degreeLT mem h.numerator_mem) (by omega)
    · exact mem_degreeLT_mono (mul_mem_degreeLT h.mem h.partner_numerator_mem) (by omega)
  ext k
  rw [coeff_C_mul_X_pow]
  rcases Nat.lt_trichotomy k n with lt | rfl | gt
  · rw [if_neg (by omega), crossed, coeff_add, coeff_mul_eq_zero_of_low agrees _ lt,
      coeff_mul_eq_zero_of_low h.partner_agrees _ lt, add_zero]
  · rw [if_pos rfl, crossed, coeff_add, coeff_mul_of_low agrees, coeff_mul_of_low h.partner_agrees,
      h.partner_constant, h.constant, h.partner_misses, zero_mul, zero_add, one_mul]
  · rw [if_neg (by omega), coeff_eq_zero_of_mem_degreeLT small (by omega)]

/-- **A balanced recurrence and its numerator have no root in common.** -/
theorem numerator_eval_ne_zero (h : Balanced s n d c ω p γ gap) {x : Element} (hx : x ≠ 0)
    (root : c.eval x = 0) : ω.eval x ≠ 0 := by
  intro zero
  have crossed := congrArg (eval x) h.crossed_eq
  rw [eval_sub, eval_mul, eval_mul, root, zero, mul_zero, zero_mul, sub_zero, eval_mul, eval_C,
    eval_pow, eval_X] at crossed
  exact mul_ne_zero h.gap_ne_zero (pow_ne_zero n hx) crossed.symm

end Balanced

/-! ## 3. The search keeps a balanced pair -/

/-- The recurrence of a search. -/
noncomputable def Search.recurrence (s : Search) : Element[X] := ascending s.locator

/-- Its partner: the previous recurrence, moved to where it misses the next syndrome. -/
noncomputable def Search.partner (s : Search) : Element[X] := X ^ s.shift * ascending s.previous

/-- **A search that has seen the first `n` syndromes** holds a balanced pair for them. -/
structure Tracks (syndromes : List UInt8) (n : Nat) (s : Search) : Prop where
  length_locator : s.locator.length = parityLength + 1
  length_previous : s.previous.length = parityLength + 1
  seen : s.seen = (syndromes.take n).reverse
  balanced : ∃ ω γ, Balanced (ascending syndromes) n s.degree s.recurrence ω s.partner γ
    (ofByte s.previousDiscrepancy)

namespace Tracks

variable {syndromes : List UInt8} {n : Nat} {s : Search}

theorem start (syndromes : List UInt8) : Tracks syndromes 0 Search.start := by
  have one : ascending Search.one = 1 := by
    ext k
    cases k with
    | zero => simp [Search.one]
    | succ k =>
        have zero : (List.replicate parityLength (0 : UInt8)).getD k 0 = 0 := by
          by_cases lt : k < parityLength
          · exact List.getD_replicate _ lt
          · exact List.getD_eq_default _ _ (by simpa using lt)
        rw [coeff_ascending, Search.one, List.getD_cons_succ, zero, coeff_one]
        rfl
  have recurrence : Search.start.recurrence = 1 := one
  have partner : Search.start.partner = X := by
    simp [Search.partner, Search.start, one]
  refine ⟨rfl, rfl, rfl, 0, 1, ?_⟩
  rw [recurrence, partner]
  exact Balanced.start _

/-- The locator as a list starts with one. -/
theorem exists_cons_locator (h : Tracks syndromes n s) : ∃ rest, s.locator = 1 :: rest := by
  obtain ⟨ω, γ, balanced⟩ := h.balanced
  have constant := balanced.constant
  have len := h.length_locator
  cases e : s.locator with
  | nil => rw [e] at len; simp at len
  | cons c rest =>
      rw [Search.recurrence, e, coeff_ascending, List.getD_cons_zero] at constant
      exact ⟨rest, by rw [show c = 1 from constant]⟩

/-- **The discrepancy is the coefficient that ought to vanish.** -/
theorem discrepancy (h : Tracks syndromes n s) (lt : n < syndromes.length) :
    ofByte (s.discrepancy syndromes[n]) = (s.recurrence * ascending syndromes).coeff n := by
  obtain ⟨rest, cons⟩ := h.exists_cons_locator
  obtain ⟨ω, γ, balanced⟩ := h.balanced
  have latest : (syndromes.take (n + 1)).reverse = syndromes[n] :: s.seen := by
    rw [h.seen, List.take_succ_eq_append_getElem lt, List.reverse_append]
    rfl
  have short : ascending (s.locator.take (s.degree + 1)) = s.recurrence :=
    ascending_take balanced.mem
  rw [← short, ← ofByte_convolve _ _ n lt, latest, cons, List.take_succ_cons,
    List.zipWith_cons_cons, List.foldl_cons, Search.discrepancy, cons, List.tail_cons,
    ccsds_one_mul, UInt8.zero_xor]

/-- Mending a locator adds a multiple of the partner. -/
theorem ascending_mend (h : Tracks syndromes n s) (lt : n < parityLength) (scale : UInt8) :
    ascending (s.mend scale) = s.recurrence + C (ofByte scale) * s.partner := by
  obtain ⟨ω, γ, balanced⟩ := h.balanced
  have len := h.length_locator
  have len' := h.length_previous
  have product : ascending (List.replicate s.shift 0 ++ s.previous.map (field.mul scale)) =
      C (ofByte scale) * s.partner := by
    rw [ascending_replicate_append, ascending_map_mul, Search.partner]
    ring
  have small : C (ofByte scale) * s.partner ∈ degreeLT Element (parityLength + 1) :=
    C_mul_mem_degreeLT (mem_degreeLT_mono balanced.partner_mem (by omega)) _
  rw [Search.mend, ascending_zipWith_xor _ _ (by simp; omega), len,
    ascending_take (product ▸ small), product]
  rfl

theorem length_mend (h : Tracks syndromes n s) (scale : UInt8) :
    (s.mend scale).length = parityLength + 1 := by
  have len := h.length_locator
  have len' := h.length_previous
  simp [Search.mend, len, len']

theorem seen_succ (h : Tracks syndromes n s) (lt : n < syndromes.length) :
    syndromes[n] :: s.seen = (syndromes.take (n + 1)).reverse := by
  rw [h.seen, List.take_succ_eq_append_getElem lt, List.reverse_append]
  rfl

/-- **One more syndrome keeps the pair balanced.** -/
theorem step (h : Tracks syndromes n s) (lt : n < syndromes.length) (le : n < parityLength) :
    Tracks syndromes (n + 1) (s.step syndromes[n]) := by
  obtain ⟨ω, γ, balanced⟩ := h.balanced
  have missed := h.discrepancy lt
  have count : s.seen.length = n := by rw [h.seen]; simp; omega
  have scale : ofByte (field.div (s.discrepancy syndromes[n]) s.previousDiscrepancy) =
      (s.recurrence * ascending syndromes).coeff n / ofByte s.previousDiscrepancy := by
    rw [Element.ofByte_div, missed]
  have fallBack : X ^ (s.shift + 1) * ascending s.previous = X * s.partner := by
    rw [Search.partner, pow_succ']
    ring
  unfold Search.step
  by_cases right : s.discrepancy syndromes[n] = 0
  · simp only [right, if_true]
    rw [right, Element.ofByte_zero] at missed
    have kept := balanced.keep missed.symm
    rw [← fallBack] at kept
    exact ⟨h.length_locator, h.length_previous, h.seen_succ lt, _, _, kept⟩
  · have wrong : (s.recurrence * ascending syndromes).coeff n ≠ 0 := by
      rw [← missed]
      exact right
    have mended := h.ascending_mend le
      (field.div (s.discrepancy syndromes[n]) s.previousDiscrepancy)
    rw [scale] at mended
    simp only [right, if_false, count]
    by_cases short : 2 * s.degree ≤ n
    · simp only [short, if_true]
      have moved : X ^ 1 * ascending s.locator = X * s.recurrence := by rw [pow_one]; rfl
      have grown := balanced.grow short wrong
      rw [← mended, ← missed, ← moved] at grown
      exact ⟨h.length_mend _, h.length_locator, h.seen_succ lt, _, _, grown⟩
    · simp only [short, if_false]
      have kept := balanced.mend (by omega)
      rw [← mended, ← fallBack] at kept
      exact ⟨h.length_mend _, h.length_previous, h.seen_succ lt, _, _, kept⟩

/-- **A run of the search keeps the pair balanced.** -/
theorem foldl (le : syndromes.length ≤ parityLength) : ∀ n ≤ syndromes.length,
    Tracks syndromes n ((syndromes.take n).foldl Search.step Search.start)
  | 0, _ => start syndromes
  | n + 1, lt => by
      rw [List.take_succ_eq_append_getElem lt, List.foldl_append]
      exact (foldl le n (by omega)).step lt (by omega)

end Tracks

/-- **The whole search**: what it finds is balanced for all syndromes. -/
theorem tracks_locate {syndromes : List UInt8} (le : syndromes.length ≤ parityLength) :
    Tracks syndromes syndromes.length (locate syndromes) := by
  have all := Tracks.foldl le syndromes.length (Nat.le_refl _)
  rwa [List.take_length] at all

end SatLink.ReedSolomon
