import SatLink.Proofs.Indexed.Field
import SatLink.Proofs.ReedSolomon.Correction
import SatLink.ReedSolomon.Locator

/-!
# The error locator with indices

The search for the locator keeps two arrays of 33 coefficients, a degree and a shift. It looks back
over as many syndromes as the degree says, and adds the previous array to the locator from the shift
on. Whatever the syndromes are, the degree never exceeds their number, and the shift exceeds it by
one at most.

* `calcSyndromes_eq` — computing the syndromes of a word stops on no word;
* `turn_eq` — one turn of the search is one step of `Search.step`;
* `search_bounds` — the bounds of degree and shift, whatever the syndromes are;
* `locate_eq` — **the search stops on no syndromes**.
-/

namespace SatLink.Indexed

open ReedSolomon

/-! ## 1. Definitions -/

/-- The syndromes of a word. -/
def calcSyndromes (size : Nat) (word : List UInt8) : Checked (List UInt8) :=
  forUp 0 32 (List.replicate 32 0) fun syndromes k => do
    let root ← power (← mul size (← add size 1 k) 1)
    store syndromes k (← evaluate size word root)

/-- What the search for a locator keeps. -/
structure Locating where
  locator : List UInt8
  previous : List UInt8
  degree : Nat
  shift : Nat
  previousDiscrepancy : UInt8

namespace Locating

/-- The polynomial 1, twice. -/
def start : Locating :=
  let one := (List.replicate 33 0).set 0 1
  ⟨one, one, 0, 1, 1⟩

/-- By how much the locator misses the `n`th syndrome. -/
def discrepancy (size : Nat) (s : Locating) (syndromes : List UInt8) (n : Nat) : Checked UInt8 := do
  forUp 1 (min s.degree n + 1) (← item syndromes n) fun missed i => do
    pure (missed ^^^ (← multiply size (← item s.locator i) (← item syndromes (← sub n i))))

/-- The locator with `scale` times the previous one added from the shift on. -/
def mended (size : Nat) (s : Locating) (scale : UInt8) : Checked (List UInt8) :=
  forUp 0 (33 - s.shift) s.locator fun locator i => do
    let place ← add size i s.shift
    store locator place ((← item locator place) ^^^ (← multiply size scale (← item s.previous i)))

/-- Takes the `n`th syndrome in. -/
def turn (size : Nat) (syndromes : List UInt8) (s : Locating) (n : Nat) : Checked Locating := do
  let missed ← s.discrepancy size syndromes n
  if missed = 0 then pure { s with shift := ← add size s.shift 1 }
  else
    let locator ← s.mended size (← divide size missed s.previousDiscrepancy)
    if (← mul size 2 s.degree) ≤ n then
      pure ⟨locator, s.locator, ← sub (← add size n 1) s.degree, 1, missed⟩
    else pure { s with locator := locator, shift := ← add size s.shift 1 }

end Locating

/-- The error locator of 32 syndromes. -/
def locate (size : Nat) (syndromes : List UInt8) : Checked Locating :=
  forUp 0 32 Locating.start (Locating.turn size syndromes)

/-! ## 2. Syndromes -/

section

variable {size : Nat} (wide : 2 ^ 16 ≤ size)

include wide

/-- **The syndromes of a word** are computed within the tables. -/
theorem calcSyndromes_eq (w : Word) : calcSyndromes size w.bytes = pure (syndromes w) := by
  have len : (syndromes w).length = (List.replicate 32 (0 : UInt8)).length := by
    rw [length_syndromes, List.length_replicate]
  refine forUp_fill len (List.length_replicate).symm fun k lt => ?_
  have entry : (syndromes w)[k] = field.eval w.bytes (field.pow (k + 1)) := by
    simp [syndromes, roots]
  have bound : k < 32 := by rwa [length_syndromes] at lt
  have room : k < (overwritten (List.replicate 32 0) (syndromes w) k).length := by
    rw [length_overwritten len (by rw [List.length_replicate]; omega), List.length_replicate]
    exact bound
  have count : 1 + k < size := by omega
  have count' : (1 + k) * 1 < size := by omega
  have exponent : (1 + k) * 1 = k + 1 := by omega
  simp only [add_of_lt count, mul_of_lt count', power_eq, evaluate_eq wide, pure_bind,
    store_of_lt room, exponent, entry]

end

/-! ## 3. The search -/

/-- What a search keeps, without the syndromes it has seen. -/
def Locating.of (s : Search) : Locating :=
  ⟨s.locator, s.previous, s.degree, s.shift, s.previousDiscrepancy⟩

theorem zipWith_xor_zeros (bytes : List UInt8) :
    List.zipWith (· ^^^ ·) bytes (List.replicate bytes.length 0) = bytes := by
  induction bytes with
  | nil => rfl
  | cons b bytes ih =>
      rw [List.length_cons, List.replicate_succ, List.zipWith_cons_cons, ih, UInt8.xor_zero]

section

variable {size : Nat} (wide : 2 ^ 16 ≤ size) {syndromes : List UInt8} {n : Nat} {s : Search}

include wide

/-- **The locator looks back** over as many syndromes as there are. -/
theorem discrepancy_eq (tracks : Tracks syndromes n s) (small : s.degree ≤ parityLength)
    (lt : n < syndromes.length) :
    (Locating.of s).discrepancy size syndromes n = pure (s.discrepancy syndromes[n]) := by
  have len := tracks.length_locator
  have count : s.seen.length = n := by
    rw [tracks.seen, List.length_reverse, List.length_take, Nat.min_eq_left (Nat.le_of_lt lt)]
  generalize hterms : List.zipWith field.mul (s.locator.tail.take s.degree) s.seen = terms
  have terms_length : terms.length = min s.degree n := by
    simp only [← hterms, List.length_zipWith, List.length_take, List.length_tail, len, count,
      Nat.add_sub_cancel]
    omega
  -- after `i` turns the first `i` terms are added
  let state (i : Nat) : UInt8 := (terms.take (i - 1)).foldl (· ^^^ ·) syndromes[n]
  have stop : state (min s.degree n + 1) = s.discrepancy syndromes[n] := by
    show (terms.take (min s.degree n)).foldl _ _ = _
    rw [← terms_length, List.take_length, ← hterms, Search.discrepancy]
  rw [Locating.discrepancy, item_of_lt lt, pure_bind]
  refine (forUp_eq state (Nat.le_add_left ..) fun i le below => ?_).trans (congrArg pure stop)
  have early : i ≤ min s.degree n := Nat.le_of_lt_succ below
  have inLocator : i < s.locator.length := by omega
  have inSyndromes : n - i < syndromes.length := by omega
  have inTerms : i - 1 < terms.length := by omega
  have inSeen : i - 1 < s.seen.length := by omega
  have latest : s.seen[i - 1] = syndromes[n - i] := by
    have back : (syndromes.take n).length - 1 - (i - 1) = n - i := by
      rw [List.length_take, Nat.min_eq_left (Nat.le_of_lt lt)]
      omega
    simp only [tracks.seen, List.getElem_reverse, back, List.getElem_take]
  have term : terms[i - 1] = field.mul s.locator[i] syndromes[n - i] := by
    simp only [← hterms, List.getElem_zipWith, List.getElem_take, List.getElem_tail, latest,
      Nat.sub_add_cancel le]
  have next : terms.take (i + 1 - 1) = terms.take (i - 1) ++ [terms[i - 1]] := by
    rw [← List.take_succ_eq_append_getElem inTerms, Nat.sub_add_cancel le, Nat.add_sub_cancel]
  have looked : (Locating.of s).locator = s.locator := rfl
  have within : i ≤ n := by omega
  simp only [looked, item_of_lt inLocator, sub_of_le within, item_of_lt inSyndromes,
    multiply_eq wide, pure_bind, state, next, List.foldl_append, List.foldl_cons,
    List.foldl_nil, term]

/-- **The previous array is added from the shift on**, as far as the locator goes. -/
theorem mended_eq (tracks : Tracks syndromes n s) (shift : s.shift ≤ 33) (scale : UInt8) :
    (Locating.of s).mended size scale = pure (s.mend scale) := by
  have len : (s.mend scale).length = s.locator.length := by
    rw [tracks.length_mend, tracks.length_locator]
  have length_locator : s.locator.length = 33 := tracks.length_locator
  have length_previous : s.previous.length = 33 := tracks.length_previous
  have front : (s.mend scale).take s.shift = s.locator.take s.shift := by
    have zeros : (List.replicate s.shift 0 ++ s.previous.map (field.mul scale)).take s.shift =
        List.replicate (s.locator.take s.shift).length 0 := by
      rw [List.take_left' List.length_replicate, List.length_take, length_locator,
        Nat.min_eq_left shift]
    rw [Search.mend, List.take_zipWith, zeros, zipWith_xor_zeros]
  refine forUp_overwrite len front (by rw [length_locator]; rfl) fun i p place lt => ?_
  subst place
  have inLocator : i + s.shift < s.locator.length := len ▸ lt
  have inPrevious : i < s.previous.length := by omega
  have entry : (s.mend scale)[i + s.shift] =
      s.locator[i + s.shift] ^^^ field.mul scale s.previous[i] := by
    simp only [Search.mend, List.getElem_zipWith, List.length_replicate, Nat.le_add_left,
      List.getElem_append_right, List.getElem_map, Nat.add_sub_cancel]
  have room : i + s.shift < (overwritten s.locator (s.mend scale) (i + s.shift)).length := by
    rw [length_overwritten len (Nat.le_of_lt inLocator)]
    exact inLocator
  have old : item (overwritten s.locator (s.mend scale) (i + s.shift)) (i + s.shift) =
      pure s.locator[i + s.shift] :=
    item_of_getElem?
      ((getElem?_overwritten len inLocator).trans (List.getElem?_eq_getElem inLocator))
  have shifted : (Locating.of s).shift = s.shift := rfl
  have previous : (Locating.of s).previous = s.previous := rfl
  have count : i + s.shift < size := by omega
  simp only [shifted, previous, add_of_lt count, old, item_of_lt inPrevious, multiply_eq wide,
    pure_bind, store_of_lt room, entry]

/-- **One turn is one step of the search.** -/
theorem turn_eq (tracks : Tracks syndromes n s) (lt : n < syndromes.length)
    (short : syndromes.length ≤ parityLength) (degree : s.degree ≤ n) (shift : s.shift ≤ n + 1) :
    Locating.turn size syndromes (Locating.of s) n = pure (Locating.of (s.step syndromes[n])) := by
  simp only [parityLength] at short
  have small : s.degree ≤ parityLength := by simp only [parityLength]; omega
  have count : s.seen.length = n := by
    rw [tracks.seen, List.length_reverse, List.length_take, Nat.min_eq_left (Nat.le_of_lt lt)]
  have further : (Locating.of s).shift + 1 < size := by
    show s.shift + 1 < size
    omega
  have doubled : 2 * (Locating.of s).degree < size := by
    show 2 * s.degree < size
    omega
  have next : n + 1 < size := by omega
  have less : (Locating.of s).degree ≤ n + 1 := Nat.le_succ_of_le degree
  rw [Locating.turn, discrepancy_eq wide tracks small lt, pure_bind, Search.step, count]
  by_cases right : s.discrepancy syndromes[n] = 0
  · rw [if_pos right, add_of_lt further]
    simp only [right, if_true]
    rfl
  · simp only [if_neg right, divide_eq wide, mul_of_lt doubled, add_of_lt further, add_of_lt next,
      sub_of_le less, pure_bind]
    have doubled_eq : 2 * (Locating.of s).degree = 2 * s.degree := rfl
    rw [mended_eq wide tracks (by omega), pure_bind, doubled_eq]
    by_cases grows : 2 * s.degree ≤ n
    · rw [if_pos grows, if_pos grows]
      rfl
    · rw [if_neg grows, if_neg grows]
      rfl

end

/-- A step moves the shift on by one, or back to one. -/
theorem shift_step_le (s : Search) (syndrome : UInt8) : (s.step syndrome).shift ≤ s.shift + 1 := by
  unfold Search.step
  dsimp only
  split
  · exact Nat.le_refl _
  · split
    · exact Nat.le_add_left ..
    · exact Nat.le_refl _

theorem shift_foldl_le (syndromes : List UInt8) (s : Search) :
    (syndromes.foldl Search.step s).shift ≤ s.shift + syndromes.length := by
  induction syndromes generalizing s with
  | nil => exact Nat.le_refl _
  | cons syndrome syndromes ih =>
      have first := shift_step_le s syndrome
      have rest := ih (s.step syndrome)
      rw [List.foldl_cons, List.length_cons]
      omega

/-- **The search stays within its bounds**: after `n` syndromes, whatever they are, the degree is at
    most `n` and the shift at most `n + 1`. -/
theorem search_bounds {syndromes : List UInt8} (short : syndromes.length ≤ parityLength) {n : Nat}
    (le : n ≤ syndromes.length) :
    ((syndromes.take n).foldl Search.step Search.start).degree ≤ n ∧
      ((syndromes.take n).foldl Search.step Search.start).shift ≤ n + 1 := by
  constructor
  · obtain ⟨_, _, balanced⟩ := (Tracks.foldl short n le).balanced
    exact balanced.degree_le_count
  · have moved := shift_foldl_le (syndromes.take n) Search.start
    have one : Search.start.shift = 1 := rfl
    rw [List.length_take, Nat.min_eq_left le, one, Nat.add_comm] at moved
    exact moved

/-- **The search stops on no syndromes.** -/
theorem locate_eq {size : Nat} (wide : 2 ^ 16 ≤ size) {syndromes : List UInt8}
    (len : syndromes.length = parityLength) :
    locate size syndromes = pure (Locating.of (ReedSolomon.locate syndromes)) := by
  let state (n : Nat) : Locating :=
    Locating.of ((syndromes.take n).foldl Search.step Search.start)
  have stop : state 32 = Locating.of (ReedSolomon.locate syndromes) := by
    show Locating.of ((syndromes.take parityLength).foldl _ _) = _
    rw [← len, List.take_length]
    rfl
  refine (forUp_eq state (Nat.zero_le 32) fun n _ below => ?_).trans (congrArg pure stop)
  have lt : n < syndromes.length := len ▸ below
  have tracks := Tracks.foldl (Nat.le_of_eq len) n (Nat.le_of_lt lt)
  obtain ⟨degree, shift⟩ := search_bounds (Nat.le_of_eq len) (Nat.le_of_lt lt)
  have next : state (n + 1) =
      Locating.of (((syndromes.take n).foldl Search.step Search.start).step syndromes[n]) := by
    show Locating.of ((syndromes.take (n + 1)).foldl _ _) = _
    rw [List.take_succ_eq_append_getElem lt, List.foldl_append]
    rfl
  rw [next]
  exact turn_eq wide tracks lt (Nat.le_of_eq len) degree shift

end SatLink.Indexed
