import Mathlib.Algebra.CharP.Two
import Mathlib.Algebra.Field.MinimalAxioms
import Mathlib.Data.Finset.Card
import Mathlib.Dynamics.PeriodicPts.Defs
import Mathlib.Order.Interval.Finset.Nat
import SatLink.Galois
import SatLink.Proofs.Byte

/-!
# The bytes form a field

The tables of `ccsds` multiply bytes by adding logarithms. This file shows that what they compute is
the arithmetic of a field, so that every law of polynomials over a field speaks about the code:

* the powers of α run through all non-zero bytes and come round after 255 steps (`pow_injOn`,
  `pow_log`), and the logarithms undo them (`log_pow`);
* multiplying by α^k is `k` times multiplying by α, which is linear in the bits (`ccsds_mul_pow`,
  `timesAlpha_xor`);
* `Element` — a byte with xor as its sum and `ccsds.mul` as its product — is a field of
  characteristic two, and its operations are those of the tables (`ofByte_xor`, `ofByte_mul`,
  `ofByte_div`, `ofByte_pow`).
-/

namespace SatLink.Galois

/-! ## 1. Multiplying by α -/

/-- A byte times α. -/
def timesAlpha (a : UInt8) : UInt8 := (nextPower 0x187 a.toUInt16).toUInt8

theorem nextPower_lt (r : UInt16) (h : r.toNat < 256) : (nextPower 0x187 r).toNat < 256 := by
  have all : ∀ i : Fin 256, (nextPower 0x187 (UInt16.ofNat i)).toNat < 256 := by decide +kernel
  have := all ⟨r.toNat, h⟩
  simpa using this

theorem timesAlpha_toUInt8 (r : UInt16) (h : r.toNat < 256) :
    timesAlpha r.toUInt8 = (nextPower 0x187 r).toUInt8 := by
  have back : r.toUInt8.toUInt16 = r := by
    apply UInt16.toNat_inj.mp
    simp
    omega
  rw [timesAlpha, back]

/-- Doubling shifts the bits, and subtracts the polynomial where a bit is carried out. -/
theorem timesAlpha_eq : ∀ a : UInt8,
    timesAlpha a = (a <<< 1) ^^^ (if a.toNat.testBit 7 then 0x87 else 0) := by
  decide +kernel

/-- **Multiplying by α is linear in the bits.** -/
theorem timesAlpha_xor (a b : UInt8) : timesAlpha (a ^^^ b) = timesAlpha a ^^^ timesAlpha b := by
  have carry (p q : Bool) : (if p ^^ q then (0x87 : UInt8) else 0) =
      (if p then 0x87 else 0) ^^^ (if q then 0x87 else 0) := by
    cases p <;> cases q <;> decide
  simp only [timesAlpha_eq, UInt8.shiftLeft_xor, UInt8.toNat_xor, Nat.testBit_xor, carry]
  ac_rfl

@[simp] theorem timesAlpha_zero : timesAlpha 0 = 0 := by decide

theorem timesAlpha_eq_zero : ∀ {a : UInt8}, timesAlpha a = 0 → a = 0 := by
  decide +kernel

theorem timesAlpha_injective : Function.Injective timesAlpha := by
  intro a b h
  have sum : timesAlpha (a ^^^ b) = 0 := by rw [timesAlpha_xor, h, UInt8.xor_self]
  exact UInt8.xor_eq_zero_iff.mp (timesAlpha_eq_zero sum)

theorem iterate_timesAlpha_xor (k : Nat) (a b : UInt8) :
    timesAlpha^[k] (a ^^^ b) = timesAlpha^[k] a ^^^ timesAlpha^[k] b := by
  induction k generalizing a b with
  | zero => rfl
  | succ k ih => simp only [Function.iterate_succ_apply, timesAlpha_xor, ih]

/-! ## 2. The table of powers -/

theorem getElem_registers (polynomial : UInt16) : ∀ (n : Nat) (register : UInt16) (i : Nat)
    (h : i < (registers polynomial n register).length),
    (registers polynomial n register)[i] = (nextPower polynomial)^[i] register
  | 0, _, _, h => by simp [registers] at h
  | _ + 1, _, 0, _ => rfl
  | n + 1, register, i + 1, h => by
      simp only [registers, List.getElem_cons_succ, Function.iterate_succ_apply]
      exact getElem_registers polynomial n _ i _

theorem iterate_nextPower_lt (n : Nat) : ((nextPower 0x187)^[n] 1).toNat < 256 := by
  induction n with
  | zero => decide
  | succ n ih =>
      rw [Function.iterate_succ_apply']
      exact nextPower_lt _ ih

theorem toUInt8_iterate_nextPower (n : Nat) :
    ((nextPower 0x187)^[n] 1).toUInt8 = timesAlpha^[n] 1 := by
  induction n with
  | zero => rfl
  | succ n ih =>
      rw [Function.iterate_succ_apply', Function.iterate_succ_apply', ← ih,
        timesAlpha_toUInt8 _ (iterate_nextPower_lt n)]

/-- After 255 steps the powers come round. -/
theorem iterate_timesAlpha_period : timesAlpha^[255] 1 = 1 := by
  rw [← toUInt8_iterate_nextPower]
  decide +kernel

/-- **The `n`th power of the table is 1, multiplied by α `n` times.** -/
theorem pow_eq_iterate (n : Nat) : ccsds.pow n = timesAlpha^[n] 1 := by
  have period : Function.IsPeriodicPt timesAlpha 255 1 := iterate_timesAlpha_period
  have lt : n % 255 < 255 := Nat.mod_lt _ (by decide)
  calc ccsds.pow n = ((nextPower 0x187)^[n % 255] 1).toUInt8 := by
        simp [Tables.pow, ccsds, Tables.ofPolynomial, getElem_registers]
    _ = timesAlpha^[n % 255] 1 := toUInt8_iterate_nextPower _
    _ = timesAlpha^[n] 1 := period.iterate_mod_apply n

theorem ccsds_pow_succ (n : Nat) : ccsds.pow (n + 1) = timesAlpha (ccsds.pow n) := by
  rw [pow_eq_iterate, pow_eq_iterate, Function.iterate_succ_apply']

theorem ccsds_pow_zero : ccsds.pow 0 = 1 := pow_eq_iterate 0

theorem ccsds_pow_mod (n : Nat) : ccsds.pow (n % 255) = ccsds.pow n := by
  simp [Tables.pow]

theorem ccsds_pow_ne_zero (n : Nat) : ccsds.pow n ≠ 0 := by
  induction n with
  | zero => rw [ccsds_pow_zero]; decide
  | succ n ih =>
      rw [ccsds_pow_succ]
      exact fun h => ih (timesAlpha_eq_zero h)

/-- No power of α below the 255th comes back to 1. -/
theorem iterate_timesAlpha_ne_one {n : Nat} (pos : 0 < n) (lt : n < 255) :
    timesAlpha^[n] 1 ≠ 1 := by
  have all : (registers 0x187 255 1).tail.all (·.toUInt8 ≠ 1) := by decide +kernel
  obtain ⟨m, rfl⟩ : ∃ m, n = m + 1 := ⟨n - 1, by omega⟩
  have mem : (nextPower 0x187)^[m + 1] 1 ∈ (registers 0x187 255 1).tail := by
    have bound : m + 1 < (registers 0x187 255 1).length := by simpa using lt
    rw [← getElem_registers 0x187 255 1 (m + 1) bound, ← List.getElem_tail (by simp; omega)]
    exact List.getElem_mem _
  rw [← toUInt8_iterate_nextPower]
  exact of_decide_eq_true (List.all_eq_true.mp all _ mem)

/-- **The first 255 powers of α are different bytes.** -/
theorem pow_injOn {i j : Nat} (hi : i < 255) (hj : j < 255) (h : ccsds.pow i = ccsds.pow j) :
    i = j := by
  wlog le : i ≤ j generalizing i j
  · exact (this hj hi h.symm (by omega)).symm
  obtain ⟨d, rfl⟩ := Nat.exists_eq_add_of_le le
  rw [pow_eq_iterate, pow_eq_iterate, Function.iterate_add_apply] at h
  have one : (1 : UInt8) = timesAlpha^[d] 1 := timesAlpha_injective.iterate i h
  rcases Nat.eq_zero_or_pos d with rfl | pos
  · rfl
  · exact absurd one.symm (iterate_timesAlpha_ne_one pos (by omega))

/-! ## 3. The table of logarithms -/

/-- Entering powers that are all different leaves every entry where it was made. -/
theorem getElem_enterLogs : ∀ (powers : List UInt16) (logs : Vector UInt8 256) (i : Nat),
    powers.Nodup → (∀ p ∈ powers, p.toNat < 256) →
    (∀ (k : Nat) (hk : k < powers.length) (lt : powers[k].toNat < 256),
      (enterLogs logs i powers)[powers[k].toNat] = (i + k).toUInt8) ∧
    ∀ (m : Nat) (lt : m < 256), (∀ p ∈ powers, p.toNat ≠ m) →
      (enterLogs logs i powers)[m] = logs[m]
  | [], _, _, _, _ => ⟨fun _ hk => absurd hk (Nat.not_lt_zero _), fun _ _ _ => rfl⟩
  | power :: rest, logs, i, nodup, small => by
      obtain ⟨fresh, nodup⟩ := List.nodup_cons.mp nodup
      have powerLt := small power List.mem_cons_self
      obtain ⟨kept, frame⟩ := getElem_enterLogs rest
        (logs.setIfInBounds power.toNat i.toUInt8) (i + 1) nodup
        (fun p hp => small p (List.mem_cons_of_mem _ hp))
      refine ⟨fun k hk lt => ?_, fun m lt other => ?_⟩
      · cases k with
        | zero =>
            have apart : ∀ p ∈ rest, p.toNat ≠ power.toNat := fun p hp e =>
              fresh (UInt16.toNat_inj.mp e ▸ hp)
            simpa [enterLogs] using frame power.toNat powerLt apart
        | succ k =>
            have hk : k < rest.length := by simpa using hk
            have step : i + (k + 1) = i + 1 + k := by omega
            rw [step]
            exact kept k hk lt
      · have apart : ∀ p ∈ rest, p.toNat ≠ m := fun p hp =>
          other p (List.mem_cons_of_mem _ hp)
        have ne : power.toNat ≠ m := other power List.mem_cons_self
        rw [enterLogs, frame m lt apart, Vector.getElem_setIfInBounds_ne _ ne]

theorem toNat_pow (n : Nat) :
    (ccsds.pow n).toNat = ((nextPower 0x187)^[n] 1).toNat := by
  rw [pow_eq_iterate, ← toUInt8_iterate_nextPower, UInt16.toNat_toUInt8]
  exact Nat.mod_eq_of_lt (iterate_nextPower_lt n)

theorem nodup_registers : (registers 0x187 255 1).Nodup := by
  rw [List.nodup_iff_injective_get]
  intro i j h
  have hi : i.val < 255 := by simpa using i.isLt
  have hj : j.val < 255 := by simpa using j.isLt
  simp only [List.get_eq_getElem, getElem_registers] at h
  apply Fin.ext
  apply pow_injOn hi hj
  rw [pow_eq_iterate, pow_eq_iterate, ← toUInt8_iterate_nextPower, ← toUInt8_iterate_nextPower, h]

theorem logs_ofPolynomial (polynomial : UInt16) : (Tables.ofPolynomial polynomial).logs =
    enterLogs (Vector.replicate 256 0) 0 (registers polynomial 255 1) := by
  simp only [Tables.ofPolynomial]

/-- **The logarithm of a power is its exponent.** -/
theorem log_pow_of_lt {n : Nat} (h : n < 255) : ccsds.log (ccsds.pow n) = n := by
  have small : ∀ p ∈ registers 0x187 255 1, p.toNat < 256 := by
    intro p hp
    obtain ⟨i, hi, rfl⟩ := List.getElem_of_mem hp
    rw [getElem_registers]
    exact iterate_nextPower_lt i
  have len : n < (registers 0x187 255 1).length := by simpa using h
  have lt : (registers 0x187 255 1)[n].toNat < 256 := small _ (List.getElem_mem _)
  have entry := (getElem_enterLogs _ (Vector.replicate 256 0) 0 nodup_registers small).1 n len lt
  have place : (ccsds.pow n).toNat = (registers 0x187 255 1)[n].toNat := by
    rw [toNat_pow, getElem_registers]
  have logs := logs_ofPolynomial 0x187
  rw [← ccsds] at logs
  simp only [Tables.log, place, logs, entry]
  simp
  omega

theorem log_pow (n : Nat) : ccsds.log (ccsds.pow n) = n % 255 := by
  rw [← ccsds_pow_mod, log_pow_of_lt (Nat.mod_lt _ (by decide))]

/-- Every byte but zero is a power of α: there are as many of either. -/
theorem exists_pow {a : UInt8} (h : a ≠ 0) : ∃ n < 255, ccsds.pow n = a := by
  let powers := (Finset.range 255).image fun n => (ccsds.pow n).toNat
  have sub : powers ⊆ (Finset.range 256).erase 0 := by
    intro m hm
    obtain ⟨n, _, rfl⟩ := Finset.mem_image.mp hm
    have lt := (ccsds.pow n).toNat_lt
    have ne : (ccsds.pow n).toNat ≠ 0 := fun e => ccsds_pow_ne_zero n (UInt8.toNat_inj.mp e)
    simp [ne, lt]
  have card : powers.card = 255 := by
    rw [Finset.card_image_of_injOn, Finset.card_range]
    intro i hi j hj e
    exact pow_injOn (by simpa using hi) (by simpa using hj) (UInt8.toNat_inj.mp e)
  have all : powers = (Finset.range 256).erase 0 :=
    Finset.eq_of_subset_of_card_le sub (by rw [card]; simp)
  have ne : a.toNat ≠ 0 := fun e => h (UInt8.toNat_inj.mp e)
  have mem : a.toNat ∈ powers := by
    rw [all]
    simp [ne, a.toNat_lt]
  obtain ⟨n, hn, e⟩ := Finset.mem_image.mp mem
  exact ⟨n, by simpa using hn, UInt8.toNat_inj.mp e⟩

/-- **A non-zero byte is the power of its logarithm.** -/
theorem pow_log {a : UInt8} (h : a ≠ 0) : ccsds.pow (ccsds.log a) = a := by
  obtain ⟨n, lt, rfl⟩ := exists_pow h
  rw [log_pow_of_lt lt]

theorem log_lt {a : UInt8} (h : a ≠ 0) : ccsds.log a < 255 := by
  obtain ⟨n, lt, rfl⟩ := exists_pow h
  rwa [log_pow_of_lt lt]

/-! ## 4. The product -/

theorem pow_add_log (a n : Nat) : ccsds.pow (a + ccsds.log (ccsds.pow n)) = ccsds.pow (a + n) := by
  rw [log_pow, ← ccsds_pow_mod, ← ccsds_pow_mod (a + n), Nat.add_mod_mod]

/-- **Multiplying by α^k is multiplying by α `k` times.** -/
theorem ccsds_mul_pow (a : UInt8) (k : Nat) : ccsds.mul a (ccsds.pow k) = timesAlpha^[k] a := by
  by_cases zero : a = 0
  · subst zero
    rw [Tables.zero_mul, Function.iterate_fixed timesAlpha_zero]
  · rw [Tables.mul, if_neg (by simp [zero, ccsds_pow_ne_zero]), pow_add_log, Nat.add_comm,
      pow_eq_iterate, Function.iterate_add_apply, ← pow_eq_iterate, pow_log zero]

theorem ccsds_mul_comm (a b : UInt8) : ccsds.mul a b = ccsds.mul b a := by
  simp only [Tables.mul, Or.comm, Nat.add_comm]

theorem pow_mul_pow (m n : Nat) : ccsds.mul (ccsds.pow m) (ccsds.pow n) = ccsds.pow (m + n) := by
  rw [ccsds_mul_pow, pow_eq_iterate, pow_eq_iterate, ← Function.iterate_add_apply, Nat.add_comm]

theorem ccsds_one_mul (a : UInt8) : ccsds.mul 1 a = a := by
  rw [ccsds_mul_comm, ← ccsds_pow_zero, ccsds_mul_pow]
  rfl

theorem ccsds_mul_assoc (a b c : UInt8) :
    ccsds.mul (ccsds.mul a b) c = ccsds.mul a (ccsds.mul b c) := by
  by_cases hb : b = 0
  · simp [hb]
  by_cases hc : c = 0
  · simp [hc]
  obtain ⟨m, _, rfl⟩ := exists_pow hb
  obtain ⟨n, _, rfl⟩ := exists_pow hc
  rw [pow_mul_pow, ccsds_mul_pow, ccsds_mul_pow, ccsds_mul_pow, ← Function.iterate_add_apply,
    Nat.add_comm]

theorem xor_mul (a b c : UInt8) :
    ccsds.mul (a ^^^ b) c = ccsds.mul a c ^^^ ccsds.mul b c := by
  by_cases hc : c = 0
  · simp [hc]
  obtain ⟨n, _, rfl⟩ := exists_pow hc
  simp only [ccsds_mul_pow, iterate_timesAlpha_xor]

theorem inv_eq_pow {a : UInt8} (h : a ≠ 0) : ccsds.inv a = ccsds.pow (255 - ccsds.log a) := by
  have log_one : ccsds.log 1 = 0 := by rw [← ccsds_pow_zero, log_pow]
  rw [Tables.inv, Tables.div, if_neg (by simp [h]), log_one, Nat.zero_add]

theorem ccsds_mul_inv {a : UInt8} (h : a ≠ 0) : ccsds.mul a (ccsds.inv a) = 1 := by
  have lt := log_lt h
  have sum : ccsds.log a + (255 - ccsds.log a) = 255 := by omega
  rw [inv_eq_pow h]
  nth_rewrite 1 [← pow_log h]
  rw [pow_mul_pow, sum, ← ccsds_pow_mod, Nat.mod_self, ccsds_pow_zero]

theorem ccsds_div_eq (a b : UInt8) : ccsds.div a b = ccsds.mul a (ccsds.inv b) := by
  by_cases hb : b = 0
  · simp [hb, Tables.div, Tables.inv]
  by_cases ha : a = 0
  · simp [ha, Tables.div]
  have lt := log_lt hb
  have shift : ccsds.log a + 255 - ccsds.log b = ccsds.log a + (255 - ccsds.log b) := by omega
  rw [inv_eq_pow hb, Tables.div, if_neg (by simp [ha, hb]), shift, ← pow_mul_pow, pow_log ha]

/-! ## 5. The field -/

/-- A byte as an element of the field of the code. -/
def Element : Type := UInt8

namespace Element

/-- The element that a byte stands for. -/
def ofByte (b : UInt8) : Element := b

/-- The byte that stands for an element. -/
def toByte (x : Element) : UInt8 := x

instance : DecidableEq Element := inferInstanceAs (DecidableEq UInt8)

instance : Zero Element := ⟨ofByte 0⟩
instance : One Element := ⟨ofByte 1⟩
instance : Add Element := ⟨fun x y => ofByte (x.toByte ^^^ y.toByte)⟩
instance : Neg Element := ⟨id⟩
instance : Mul Element := ⟨fun x y => ofByte (ccsds.mul x.toByte y.toByte)⟩
instance : Inv Element := ⟨fun x => ofByte (ccsds.inv x.toByte)⟩

/-- **The bytes form a field.** -/
instance : Field Element :=
  Field.ofMinimalAxioms Element
    UInt8.xor_assoc
    (fun _ => UInt8.zero_xor)
    (fun _ => UInt8.xor_self)
    ccsds_mul_assoc
    ccsds_mul_comm
    ccsds_one_mul
    (fun _ ne => ccsds_mul_inv ne)
    (by decide)
    (fun x y z => by
      show ccsds.mul x.toByte (y.toByte ^^^ z.toByte) = _
      rw [ccsds_mul_comm, xor_mul, ccsds_mul_comm, ccsds_mul_comm z.toByte]
      rfl)
    ⟨0, 1, by decide⟩

/-- Every element is its own negative. -/
instance : CharP Element 2 := CharTwo.of_one_ne_zero_of_two_eq_zero (by decide) (by decide)

@[simp] theorem ofByte_inj {a b : UInt8} : ofByte a = ofByte b ↔ a = b := Iff.rfl

@[simp] theorem ofByte_zero : ofByte 0 = 0 := rfl

@[simp] theorem ofByte_one : ofByte 1 = 1 := rfl

@[simp] theorem ofByte_xor (a b : UInt8) : ofByte (a ^^^ b) = ofByte a + ofByte b := rfl

@[simp] theorem ofByte_mul (a b : UInt8) : ofByte (ccsds.mul a b) = ofByte a * ofByte b := rfl

theorem ofByte_eq_zero {a : UInt8} : ofByte a = 0 ↔ a = 0 := Iff.rfl

@[simp] theorem ofByte_div (a b : UInt8) : ofByte (ccsds.div a b) = ofByte a / ofByte b := by
  rw [ccsds_div_eq, div_eq_mul_inv]
  rfl

/-! ## 6. The generator of the field -/

/-- α, whose powers are the non-zero elements. -/
def alpha : Element := ofByte (ccsds.pow 1)

@[simp] theorem ofByte_pow (n : Nat) : ofByte (ccsds.pow n) = alpha ^ n := by
  induction n with
  | zero => rw [ccsds_pow_zero]; rfl
  | succ n ih =>
      rw [← pow_mul_pow, ofByte_mul, ih, pow_succ]
      rfl

theorem alpha_pow_ne_zero (n : Nat) : alpha ^ n ≠ 0 := by
  rw [← ofByte_pow]
  exact fun h => ccsds_pow_ne_zero n h

@[simp] theorem alpha_pow_period : alpha ^ 255 = 1 := by
  rw [← ofByte_pow, ← ccsds_pow_mod]
  exact ccsds_pow_zero

theorem alpha_pow_inj {i j : Nat} (hi : i < 255) (hj : j < 255) (h : alpha ^ i = alpha ^ j) :
    i = j := by
  rw [← ofByte_pow, ← ofByte_pow] at h
  exact pow_injOn hi hj h

end Element

end SatLink.Galois
