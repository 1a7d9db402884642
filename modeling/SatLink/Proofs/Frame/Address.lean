import Mathlib.Data.List.DropRight
import Mathlib.Data.String.Basic
import SatLink.Frame.Address
import SatLink.Proofs.Byte
import SatLink.Text.Blank

/-!
# Addresses and their flag bits

An address is made from a callsign and an SSID whatever its command/response and extension bits are,
and these two bits do not enter the comparison of two addresses: the source of one station's frames
and the destination of the other's name the same station.

A callsign is filled up with spaces, so spaces that it ends in do not enter the comparison either,
and nothing else is left out of it: `sameStation_iff_of_make`. A reader leaves out all white space
at the end, also what the callsign itself ends in: `make_readBack`.
-/

namespace SatLink.Frame.Address

/-- The SSID is read back from an SSID byte, whatever the bits around it are. -/
theorem ssid_packSsid : ∀ (ssid : UInt8) (commandBit last : Bool),
    (packSsid ssid commandBit last >>> 1) &&& 0x0F = ssid &&& 0x0F := by
  decide +kernel

variable {callsign : String} {ssid : UInt8} {commandBit last : Bool} {a b : Address}

/-! ## 1. What makes an address -/

/-- What a callsign and an SSID have to be. -/
structure Fits (callsign : String) (ssid : UInt8) : Prop where
  short : callsign.utf8ByteSize ≤ 6
  nonempty : callsign.isEmpty = false
  ascii : ∀ c ∈ callsign.toList, c.toNat < 128
  small : ssid ≤ 15

/-- **Which callsign and which SSID make an address** does not depend on the two bits. -/
theorem make_eq_ok_iff : make callsign ssid commandBit last = .ok a ↔
    Fits callsign ssid ∧ a = ⟨shift callsign.toList, packSsid ssid commandBit last⟩ := by
  unfold make
  constructor
  · intro h
    split at h
    · cases h
    rename_i short
    split at h
    · cases h
    rename_i letters
    split at h
    · cases h
    rename_i small
    rw [Bool.or_eq_true_iff, not_or, Bool.not_eq_true, List.any_eq_true] at letters
    obtain ⟨nonempty, ascii⟩ := letters
    refine ⟨⟨Nat.le_of_not_lt short, nonempty, fun c mem => ?_, UInt8.not_lt.mp small⟩,
      (Except.ok.inj h).symm⟩
    by_contra high
    exact ascii ⟨c, mem, decide_eq_true (Nat.le_of_not_lt high)⟩
  · rintro ⟨⟨short, nonempty, ascii, small⟩, rfl⟩
    have letters :
        (callsign.isEmpty || callsign.toList.any fun c => decide (128 ≤ c.toNat)) = false := by
      rw [nonempty, Bool.false_or, List.any_eq_false]
      exact fun c mem high => Nat.not_le.mpr (ascii c mem) (of_decide_eq_true high)
    rw [if_neg (Nat.not_lt.mpr short), if_neg (by rw [letters]; decide),
      if_neg (UInt8.not_lt.mpr small)]

/-- Every character takes a byte. -/
theorem length_le_utf8Len (characters : List Char) :
    characters.length ≤ String.utf8Len characters := by
  induction characters with
  | nil => exact Nat.le_refl 0
  | cons c characters ih =>
      rw [List.length_cons, String.utf8Len_cons]
      exact Nat.add_le_add ih c.utf8Size_pos

theorem Fits.length_le (fits : Fits callsign ssid) : callsign.toList.length ≤ 6 := by
  have len := length_le_utf8Len callsign.toList
  rw [String.utf8Len_toList] at len
  exact len.trans fits.short

/-! ## 2. Callsigns -/

/-- A callsign, filled up with spaces to six characters. -/
def filled (callsign : List Char) : List Char := (callsign ++ List.replicate 6 ' ').take 6

/-- A callsign without the spaces that it ends in. -/
def trimmed (callsign : List Char) : List Char := callsign.rdropWhile (· == ' ')

/-- A callsign is what is left of it, and spaces. -/
theorem exists_append_trimmed (callsign : List Char) :
    ∃ n, callsign = trimmed callsign ++ List.replicate n ' ' := by
  have spaces : ∀ c ∈ callsign.rtakeWhile (· == ' '), c = ' ' := by
    intro c mem
    exact beq_iff_eq.mp (List.mem_rtakeWhile_imp (p := (· == ' ')) mem)
  refine ⟨(callsign.rtakeWhile (· == ' ')).length, ?_⟩
  rw [← List.eq_replicate_iff.mpr ⟨rfl, spaces⟩]
  exact List.rdropWhile_append_rtakeWhile.symm

/-- What is dropped from the end may as well be put there. -/
theorem rdropWhile_append_replicate {p : Char → Bool} {c : Char} (dropped : p c = true)
    (characters : List Char) (n : Nat) :
    (characters ++ List.replicate n c).rdropWhile p = characters.rdropWhile p := by
  induction n with
  | zero => rw [List.replicate_zero, List.append_nil]
  | succ n ih =>
      rw [List.replicate_succ', ← List.append_assoc, ← ih]
      exact List.rdropWhile_concat_pos _ _ _ dropped

theorem trimmed_append_spaces (callsign : List Char) (n : Nat) :
    trimmed (callsign ++ List.replicate n ' ') = trimmed callsign :=
  rdropWhile_append_replicate rfl callsign n

theorem filled_append_spaces (callsign : List Char) (n : Nat) :
    filled (callsign ++ List.replicate n ' ') = filled callsign := by
  unfold filled
  rw [List.append_assoc, ← List.replicate_add, List.take_append, List.take_append,
    List.take_replicate, List.take_replicate]
  congr 2
  omega

theorem filled_of_length_le {callsign : List Char} (short : callsign.length ≤ 6) :
    filled callsign = callsign ++ List.replicate (6 - callsign.length) ' ' := by
  unfold filled
  rw [List.take_append, List.take_of_length_le short, List.take_replicate]
  congr 2
  omega

/-- **Filling up loses the spaces at the end, and nothing else.** -/
theorem filled_eq_iff {x y : List Char} (hx : x.length ≤ 6) (hy : y.length ≤ 6) :
    filled x = filled y ↔ trimmed x = trimmed y := by
  constructor
  · intro same
    rw [filled_of_length_le hx, filled_of_length_le hy] at same
    rw [← trimmed_append_spaces x (6 - x.length), same, trimmed_append_spaces]
  · intro same
    obtain ⟨m, ex⟩ := exists_append_trimmed x
    obtain ⟨n, ey⟩ := exists_append_trimmed y
    rw [ex, ey, filled_append_spaces, filled_append_spaces, same]

/-! ## 3. Characters in an address -/

/-- The character that a byte of an address stands for. -/
def letter (byte : UInt8) : Char := Char.ofNat (byte >>> 1).toNat

theorem letter_shift : ∀ n < 128, letter (n.toUInt8 <<< (1 : UInt8)) = Char.ofNat n := by
  decide +kernel

/-- **An address spells the callsign it was made from**, filled up. -/
theorem map_letter_shift {characters : List Char} (ascii : ∀ c ∈ characters, c.toNat < 128) :
    (shift characters).bytes.map letter = filled characters := by
  have spelled :
      characters.map (fun c => letter (c.toNat.toUInt8 <<< (1 : UInt8))) = characters := by
    conv_rhs => rw [← List.map_id characters]
    refine List.map_congr_left fun c mem => ?_
    rw [letter_shift c.toNat (ascii c mem), Char.ofNat_toNat, id]
  unfold shift filled
  dsimp only
  rw [List.map_take, List.map_append, List.map_map, List.map_replicate]
  exact congrArg (fun l => (l ++ List.replicate 6 ' ').take 6) spelled

theorem shift_eq_iff {x y : List Char} (hx : ∀ c ∈ x, c.toNat < 128) (hy : ∀ c ∈ y, c.toNat < 128) :
    shift x = shift y ↔ filled x = filled y := by
  constructor
  · intro same
    rw [← map_letter_shift hx, same, map_letter_shift hy]
  · intro same
    have bytes (z : List Char) :
        (shift z).bytes = (filled z).map fun c => c.toNat.toUInt8 <<< (1 : UInt8) := by
      unfold shift filled
      rw [List.map_take, List.map_append, List.map_replicate]
      rfl
    ext1
    rw [bytes, bytes, same]

theorem and_low_of_le : ∀ {ssid : UInt8}, ssid ≤ 15 → ssid &&& 0x0F = ssid := by
  decide +kernel

/-- **Two addresses name the same station** where their SSIDs are one and their callsigns agree up
    to spaces at the end, whatever the two bits are. -/
theorem sameStation_iff_of_make {callsign' : String} {ssid' : UInt8} {commandBit' last' : Bool}
    (ha : make callsign ssid commandBit last = .ok a)
    (hb : make callsign' ssid' commandBit' last' = .ok b) : a.sameStation b = true ↔
      ssid = ssid' ∧ trimmed callsign.toList = trimmed callsign'.toList := by
  obtain ⟨fits, rfl⟩ := make_eq_ok_iff.mp ha
  obtain ⟨fits', rfl⟩ := make_eq_ok_iff.mp hb
  unfold sameStation Address.ssid
  rw [ssid_packSsid, ssid_packSsid, and_low_of_le fits.small, and_low_of_le fits'.small,
    Bool.and_eq_true_iff, beq_iff_eq, beq_iff_eq, shift_eq_iff fits.ascii fits'.ascii,
    filled_eq_iff fits.length_le fits'.length_le]
  exact and_comm

theorem sameStation_self (a : Address) : a.sameStation a = true := by
  unfold sameStation
  rw [beq_self_eq_true, beq_self_eq_true]
  rfl

/-- Two addresses of one callsign and one SSID name the same station. -/
theorem sameStation_of_make {commandBit' last' : Bool}
    (ha : make callsign ssid commandBit last = .ok a)
    (hb : make callsign ssid commandBit' last' = .ok b) : a.sameStation b = true :=
  (sameStation_iff_of_make ha hb).mpr ⟨rfl, rfl⟩

/-! ## 4. What is read back -/

theorem commandBit_packSsid : ∀ {ssid : UInt8} (commandBit last : Bool), ssid ≤ 15 →
    (packSsid ssid commandBit last &&& 0x80 != 0) = commandBit := by
  decide +kernel

theorem isLast_packSsid : ∀ (ssid : UInt8) (commandBit last : Bool),
    (packSsid ssid commandBit last &&& 0x01 != 0) = last := by
  decide +kernel

/-- The white space that a byte of an address can stand for is all there is below 128. -/
theorem isBlank_eq_of_lt {c : Char} (ascii : c.toNat < 128) : isBlank c = Text.isBlank c := by
  have below : ∀ n < 128, isBlank (Char.ofNat n) = Text.isBlank (Char.ofNat n) := by decide +kernel
  rw [← Char.ofNat_toNat c]
  exact below c.toNat ascii

theorem rdropWhile_congr {p q : Char → Bool} {characters : List Char}
    (same : ∀ c ∈ characters, p c = q c) : characters.rdropWhile p = characters.rdropWhile q := by
  induction characters using List.reverseRecOn with
  | nil => rfl
  | append_singleton characters c ih =>
      obtain ⟨front, last⟩ := List.forall_mem_append.mp same
      rw [List.rdropWhile_concat, List.rdropWhile_concat, ih front,
        last c (List.mem_singleton_self c)]

/-- **The callsign that is read back** is the one given, without the white space it ends in. -/
theorem callsign_shift {characters : List Char} (ascii : ∀ c ∈ characters, c.toNat < 128)
    (short : characters.length ≤ 6) (ssidByte : UInt8) :
    Address.callsign ⟨shift characters, ssidByte⟩ =
      String.ofList (characters.rdropWhile Text.isBlank) := by
  have spelled : Address.callsign ⟨shift characters, ssidByte⟩ =
      String.ofList ((filled characters).rdropWhile isBlank) := by
    rw [← map_letter_shift ascii]
    rfl
  rw [spelled, filled_of_length_le short, rdropWhile_append_replicate rfl,
    rdropWhile_congr fun c mem => isBlank_eq_of_lt (ascii c mem)]

theorem isEmpty_eq_false_iff (text : String) : text.isEmpty = false ↔ 1 ≤ text.utf8ByteSize := by
  unfold String.isEmpty
  rw [beq_eq_false_iff_ne]
  exact Nat.one_le_iff_ne_zero.symm

/-- **Which addresses there are and what they show.** A callsign of one to six bytes below 128 and
    an SSID of four bits make an address, whatever the two bits are. The SSID and the two bits are
    read back as they were given, the callsign without the white space it ends in. Two addresses
    name the same station where the SSIDs are one and the callsigns agree up to the spaces they end
    in. -/
theorem make_readBack (callsign callsign' : String) (ssid ssid' : UInt8)
    (commandBit commandBit' last last' : Bool) :
    ((∃ a, make callsign ssid commandBit last = .ok a) ↔
      1 ≤ callsign.utf8ByteSize ∧ callsign.utf8ByteSize ≤ 6 ∧
        (∀ c ∈ callsign.toList, c.toNat < 128) ∧ ssid ≤ 15) ∧
    (∀ a, make callsign ssid commandBit last = .ok a →
      a.ssid = ssid ∧ a.commandBit = commandBit ∧ a.isLast = last ∧
        a.callsign = String.ofList (callsign.toList.rdropWhile Text.isBlank)) ∧
    ∀ a b, make callsign ssid commandBit last = .ok a →
      make callsign' ssid' commandBit' last' = .ok b →
        (a.sameStation b = true ↔ ssid = ssid' ∧
          callsign.toList.rdropWhile (· == ' ') = callsign'.toList.rdropWhile (· == ' ')) := by
  refine ⟨⟨?_, ?_⟩, ?_, fun a b ha hb => sameStation_iff_of_make ha hb⟩
  · rintro ⟨a, made⟩
    obtain ⟨fits, -⟩ := make_eq_ok_iff.mp made
    exact ⟨(isEmpty_eq_false_iff callsign).mp fits.nonempty, fits.short, fits.ascii, fits.small⟩
  · rintro ⟨nonempty, short, ascii, small⟩
    exact ⟨_, make_eq_ok_iff.mpr
      ⟨⟨short, (isEmpty_eq_false_iff callsign).mpr nonempty, ascii, small⟩, rfl⟩⟩
  · intro a made
    obtain ⟨fits, rfl⟩ := make_eq_ok_iff.mp made
    refine ⟨?_, commandBit_packSsid commandBit last fits.small,
      isLast_packSsid ssid commandBit last, callsign_shift fits.ascii fits.length_le _⟩
    exact (ssid_packSsid ssid commandBit last).trans (and_low_of_le fits.small)

/-- A tab at the end of a callsign is not read back, and it still tells two stations apart; the
    spaces behind it do not. -/
theorem make_readBack_tab : ∃ a b c,
    make "AB" 15 true false = .ok a ∧ make "AB\t" 15 false true = .ok b ∧
      make "AB\t  " 15 true true = .ok c ∧
    a.callsign = "AB" ∧ b.callsign = "AB" ∧ c.commandBit = true ∧ a.isLast = false ∧
    a.sameStation b = false ∧ b.sameStation c = true := by
  obtain ⟨⟨-, makes⟩, shows, same⟩ := make_readBack "AB" "AB\t" 15 15 true false false true
  obtain ⟨⟨-, makes'⟩, shows', same'⟩ := make_readBack "AB\t" "AB\t  " 15 15 false true true true
  obtain ⟨⟨-, makes''⟩, shows'', -⟩ := make_readBack "AB\t  " "AB" 15 15 true true true false
  obtain ⟨a, ha⟩ := makes ⟨by decide, by decide, by simp, by decide⟩
  obtain ⟨b, hb⟩ := makes' ⟨by decide, by decide, by simp, by decide⟩
  obtain ⟨c, hc⟩ := makes'' ⟨by decide, by decide, by simp, by decide⟩
  refine ⟨a, b, c, ha, hb, hc, (shows a ha).2.2.2.trans (by decide +kernel),
    (shows' b hb).2.2.2.trans (by decide +kernel), (shows'' c hc).2.1, (shows a ha).2.2.1, ?_,
    (same' b c hb hc).mpr (by decide +kernel)⟩
  rw [Bool.eq_false_iff, ne_eq, same a b ha hb]
  decide +kernel

end SatLink.Frame.Address
