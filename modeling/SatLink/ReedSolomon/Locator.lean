import SatLink.ReedSolomon.Code

/-!
# The error locator

The syndromes of a damaged word satisfy a linear recurrence, and its shortest one tells where the
damage is. The search goes through the syndromes one by one; it keeps the recurrence found so far as
a polynomial with constant term one (`Search.locator`, from the constant up), and the last one that
was shorter (`Search.previous`). A syndrome that the recurrence does not predict is mended by a
multiple of the previous one.
-/

namespace SatLink.ReedSolomon

/-- A search for the shortest recurrence. -/
structure Search where
  /-- The recurrence so far: 33 coefficients, from the constant up. -/
  locator : List UInt8
  /-- How many syndromes it looks back. -/
  degree : Nat
  /-- The recurrence before the degree last grew. -/
  previous : List UInt8
  /-- By how much that one missed. -/
  previousDiscrepancy : UInt8
  /-- How many syndromes ago it missed. -/
  shift : Nat
  /-- The syndromes seen, latest first. -/
  seen : List UInt8

namespace Search

/-- The polynomial 1. -/
def one : List UInt8 := 1 :: List.replicate parityLength 0

/-- Before the first syndrome. -/
def start : Search :=
  { locator := one, degree := 0, previous := one, previousDiscrepancy := 1, shift := 1, seen := [] }

/-- By how much the recurrence misses the next syndrome. -/
def discrepancy (s : Search) (syndrome : UInt8) : UInt8 :=
  (List.zipWith field.mul (s.locator.tail.take s.degree) s.seen).foldl (· ^^^ ·) syndrome

/-- The recurrence plus `scale` times `x^shift` times the previous one. -/
def mend (s : Search) (scale : UInt8) : List UInt8 :=
  List.zipWith (· ^^^ ·) s.locator
    (List.replicate s.shift 0 ++ s.previous.map (field.mul scale))

/-- Takes the next syndrome in. -/
def step (s : Search) (syndrome : UInt8) : Search :=
  let missed := s.discrepancy syndrome
  let n := s.seen.length
  let seen := syndrome :: s.seen
  if missed = 0 then { s with shift := s.shift + 1, seen := seen }
  else
    let locator := s.mend (field.div missed s.previousDiscrepancy)
    if 2 * s.degree ≤ n then
      { locator := locator, degree := n + 1 - s.degree, previous := s.locator,
        previousDiscrepancy := missed, shift := 1, seen := seen }
    else { s with locator := locator, shift := s.shift + 1, seen := seen }

end Search

/-- The error locator of a list of syndromes. -/
def locate (syndromes : List UInt8) : Search := syndromes.foldl Search.step Search.start

end SatLink.ReedSolomon
