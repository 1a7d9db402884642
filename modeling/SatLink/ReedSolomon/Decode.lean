import SatLink.ReedSolomon.Locator

/-!
# Correcting a received word

The byte at index `i` is the coefficient of `x^(254 - i)`, whose inverse locator is `α^(i + 1)`. The
damaged bytes are where the locator vanishes (`positions`); by how much each is wrong is the
quotient of the evaluator and the derivative of the locator there (`magnitude?`).

`correct` answers with the number of corrected bytes and the word as it leaves it. It gives up, and
leaves the word alone, when the locator is longer than the code can correct, when it does not have
as many roots as its degree, or when the corrected word is no codeword.
-/

namespace SatLink.ReedSolomon

/-- The inverse locator of the byte at an index. -/
def inverseLocator (i : Nat) : UInt8 := field.pow (i + 1)

/-- The indices at which a locator, listed from the constant up, vanishes. -/
def positions (locator : List UInt8) : List Nat :=
  (List.range wordLength).filter fun i => field.evalAscending locator (inverseLocator i) == 0

/-- The product of the syndromes and the locator, up to the 32nd coefficient. -/
def evaluator (syndromes locator : List UInt8) : List UInt8 :=
  (List.range parityLength).map fun k =>
    (List.zipWith field.mul locator (syndromes.take (k + 1)).reverse).foldl (· ^^^ ·) 0

/-- The formal derivative of a polynomial listed from the constant up: terms of odd degree lose one
    degree, the others vanish. -/
def derivative (coefficients : List UInt8) : List UInt8 :=
  coefficients.tail.mapIdx fun i c => if i % 2 = 0 then c else 0

/-- By how much the byte at an index is wrong; `none` where the derivative vanishes. -/
def magnitude? (syndromes locator : List UInt8) (i : Nat) : Option UInt8 :=
  let slope := field.evalAscending (derivative locator) (inverseLocator i)
  if slope = 0 then none
  else
    some (field.div (field.evalAscending (evaluator syndromes locator) (inverseLocator i)) slope)

/-- Adds `magnitude` to the byte at an index. -/
def adjust (word : Word) (i : Nat) (magnitude : UInt8) : Word :=
  ⟨word.bytes.modify i (· ^^^ magnitude), by simp⟩

/-- The word with the bytes at all given indices put right; `none` where one cannot be. -/
def adjustAll? (syndromes locator : List UInt8) : Word → List Nat → Option Word
  | word, [] => some word
  | word, i :: rest =>
      match magnitude? syndromes locator i with
      | some m => adjustAll? syndromes locator (adjust word i m) rest
      | none => none

/-- The number of corrected bytes and the corrected word, if the word can be corrected. -/
def repair? (received : Word) : Option (Nat × Word) :=
  let s := syndromes received
  if s.all (· == 0) then some (0, received)
  else
    let search := locate s
    let degree := search.degree
    if degree = 0 ∨ correctable < degree then none
    else
      let locator := search.locator.take (degree + 1)
      let found := positions locator
      if found.length = degree then
        match adjustAll? s locator received found with
        | some repaired => if isCodeword repaired then some (degree, repaired) else none
        | none => none
      else none

/-- Corrects a received word in place. -/
def correct (received : Word) : Except LinkError Nat × Word :=
  match repair? received with
  | some (n, repaired) => (.ok n, repaired)
  | none => (.error .uncorrectable, received)

/-- The message of a received byte string. -/
def decode (received : List UInt8) : Except LinkError Message :=
  match Block.ofList? wordLength received with
  | none => .error (.argument .codewordLength)
  | some word =>
      match correct word with
      | (.ok _, repaired) => .ok (message repaired)
      | (.error e, _) => .error e

end SatLink.ReedSolomon
