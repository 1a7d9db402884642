import Mathlib.Algebra.Group.Nat.Defs
import Mathlib.Data.List.DropRight
import SatLink.Command.Text
import SatLink.Proofs.Text

/-!
# The commands that an operator can write

A text is a name, and behind the first equals sign arguments with commas between them. The manual
lists the names with the widths of their fields. A text is read where its name is in the manual and
its arguments are numerals, one for each field and none too large for it; the fields of what is read
are these numbers.

* `Shape.Fills` — which numbers a shape takes, and the action they make;
* `ofText_eq_ok_iff` — **the texts of an action**: its name and numerals of its fields;
* `exists_ofText_iff` — the texts that are read, told by the manual;
* `ofText_toAssignment`, `ofText_toText` — what is written in decimal is read back;
* `ofText_language` — all of it together.
-/

namespace SatLink.Command

/-! ## 1. Names, arguments and the manual -/

/-- What stands before the first equals sign, or the whole text. -/
def nameOf (text : String) : String := String.ofList (text.toList.takeWhile (· ≠ '='))

/-- What stands behind the first equals sign: pieces between commas, the empty ones left out,
    without the white space at their ends. -/
def argumentsOf (text : String) : List (List Char) :=
  ((((text.toList.dropWhile (· ≠ '=')).drop 1).splitOn ',').filter (!·.isEmpty)).map Text.trimmed

/-- The names of commands, with the widths of their fields in bits. -/
def manual : List (String × List Nat) :=
  [("obc-reset", []), ("rtc-sync", [32]), ("downlink-logs", [8]), ("micro-sd-format", []),
    ("ping", []), ("downlink-telem", []), ("disconnect", []), ("set-programming-session", [8]),
    ("erase-app", []), ("download-data", [8, 16, 32]), ("verify-crc", []), ("i2c-probe", []),
    ("arm", [32, 32]), ("execute", [32, 32])]

/-- The numbers in the fields of an action. -/
def Action.values (a : Action) : List Nat := a.fields.map Prod.snd

variable {name : String} {text : String} {shape : Shape} {a : Action} {values : List Nat}

/-! ## 2. Numbers put into fields -/

namespace Shape

/-- Which numbers a shape takes, and the action they make. -/
inductive Fills : Shape → List Nat → Action → Prop
  | plain (a : Action) : Fills (.plain a) [] a
  | byte (make : UInt8 → Action) (v : UInt8) : Fills (.byte make) [v.toNat] (make v)
  | word (make : UInt32 → Action) (v : UInt32) : Fills (.word make) [v.toNat] (make v)
  | twoWords (make : UInt32 → UInt32 → Action) (v w : UInt32) :
      Fills (.twoWords make) [v.toNat, w.toNat] (make v w)
  | download (session : UInt8) (length : UInt16) (address : UInt32) :
      Fills .download [session.toNat, length.toNat, address.toNat]
        (.downloadData session length address)

theorem narrow_eq_ok_iff {bound value n : Nat} :
    narrow name bound value = .ok n ↔ value < bound ∧ value = n := by
  unfold narrow
  split
  · rename_i fits
    rw [Except.ok.injEq]
    exact (and_iff_right fits).symm
  · rename_i exceeds
    exact iff_of_false (by simp) fun narrowed => exceeds narrowed.1

/-- A number that fits is the number of one value of its field. -/
theorem narrow_map_eq_ok_iff {β : Type} {make : Nat → β} {number : β → Nat}
    {bound value : Nat} {v : β}
    (below : ∀ v, number v < bound) (number_make : ∀ n < bound, number (make n) = n)
    (make_number : ∀ v, make (number v) = v) :
    (narrow name bound value).map make = .ok v ↔ value = number v := by
  rw [map_eq_ok_iff]
  constructor
  · rintro ⟨n, narrowed, rfl⟩
    obtain ⟨fits, rfl⟩ := narrow_eq_ok_iff.mp narrowed
    exact (number_make value fits).symm
  · rintro rfl
    exact ⟨number v, narrow_eq_ok_iff.mpr ⟨below v, rfl⟩, make_number v⟩

theorem byteField_eq_ok_iff {value : Nat} {v : UInt8} :
    byteField name value = .ok v ↔ value = v.toNat :=
  narrow_map_eq_ok_iff UInt8.toNat_lt (fun _ => UInt8.toNat_ofNat_of_lt') fun _ => UInt8.ofNat_toNat

theorem halfField_eq_ok_iff {value : Nat} {v : UInt16} :
    halfField name value = .ok v ↔ value = v.toNat :=
  narrow_map_eq_ok_iff UInt16.toNat_lt (fun _ => UInt16.toNat_ofNat_of_lt') fun _ =>
    UInt16.ofNat_toNat

theorem wordField_eq_ok_iff {value : Nat} {v : UInt32} :
    wordField name value = .ok v ↔ value = v.toNat :=
  narrow_map_eq_ok_iff UInt32.toNat_lt (fun _ => UInt32.toNat_ofNat_of_lt') fun _ =>
    UInt32.ofNat_toNat

/-- **No number is cut down** to get into its field. -/
theorem fill_eq_ok_iff : shape.fill name values = .ok a ↔ Fills shape values a := by
  constructor
  · intro filled
    unfold fill at filled
    split at filled
    · cases filled
      exact .plain _
    · obtain ⟨v, hv, ⟨⟩⟩ := bind_eq_ok_iff.mp filled
      rw [byteField_eq_ok_iff.mp hv]
      exact .byte _ v
    · obtain ⟨v, hv, ⟨⟩⟩ := bind_eq_ok_iff.mp filled
      rw [wordField_eq_ok_iff.mp hv]
      exact .word _ v
    · obtain ⟨v, hv, rest⟩ := bind_eq_ok_iff.mp filled
      obtain ⟨w, hw, ⟨⟩⟩ := bind_eq_ok_iff.mp rest
      rw [wordField_eq_ok_iff.mp hv, wordField_eq_ok_iff.mp hw]
      exact .twoWords _ v w
    · obtain ⟨session, hs, rest⟩ := bind_eq_ok_iff.mp filled
      obtain ⟨length, hl, rest⟩ := bind_eq_ok_iff.mp rest
      obtain ⟨address, ha, ⟨⟩⟩ := bind_eq_ok_iff.mp rest
      rw [byteField_eq_ok_iff.mp hs, halfField_eq_ok_iff.mp hl, wordField_eq_ok_iff.mp ha]
      exact .download session length address
    · cases filled
  · intro fills
    cases fills with
    | plain a => rfl
    | byte make v => exact bind_eq_ok_iff.mpr ⟨v, byteField_eq_ok_iff.mpr rfl, rfl⟩
    | word make v => exact bind_eq_ok_iff.mpr ⟨v, wordField_eq_ok_iff.mpr rfl, rfl⟩
    | twoWords make v w =>
        exact bind_eq_ok_iff.mpr ⟨v, wordField_eq_ok_iff.mpr rfl,
          bind_eq_ok_iff.mpr ⟨w, wordField_eq_ok_iff.mpr rfl, rfl⟩⟩
    | download session length address =>
        exact bind_eq_ok_iff.mpr ⟨session, byteField_eq_ok_iff.mpr rfl,
          bind_eq_ok_iff.mpr ⟨length, halfField_eq_ok_iff.mpr rfl,
            bind_eq_ok_iff.mpr ⟨address, wordField_eq_ok_iff.mpr rfl, rfl⟩⟩⟩

/-- What stands behind a name is the action of that name with these fields. -/
theorem fills_iff (known : ofName? name = some shape) :
    Fills shape values a ↔ a.commandName = name ∧ a.values = values := by
  constructor
  · intro filled
    unfold ofName? at known
    split at known <;> cases known <;> cases filled <;> exact ⟨rfl, rfl⟩
  · rintro ⟨rfl, rfl⟩
    cases a <;> cases known <;> constructor

/-- How wide the fields behind a name are, in bits. -/
def widths : Shape → List Nat
  | .plain _ => []
  | .byte _ => [8]
  | .word _ => [32]
  | .twoWords _ => [32, 32]
  | .download => [8, 16, 32]

/-- The numbers that a shape takes are as many as its fields, and none is too large. -/
theorem exists_fills_iff : (∃ a, Fills shape values a) ↔
    List.Forall₂ (fun value width => value < 2 ^ width) values shape.widths := by
  constructor
  · rintro ⟨a, fills⟩
    cases fills with
    | plain => exact .nil
    | byte _ v => exact .cons v.toNat_lt .nil
    | word _ v => exact .cons v.toNat_lt .nil
    | twoWords _ v w => exact .cons v.toNat_lt (.cons w.toNat_lt .nil)
    | download session length address =>
        exact .cons session.toNat_lt (.cons length.toNat_lt (.cons address.toNat_lt .nil))
  · intro fit
    have byte {n : Nat} (lt : n < 2 ^ 8) : ∃ v : UInt8, v.toNat = n :=
      ⟨_, UInt8.toNat_ofNat_of_lt' lt⟩
    have half {n : Nat} (lt : n < 2 ^ 16) : ∃ v : UInt16, v.toNat = n :=
      ⟨_, UInt16.toNat_ofNat_of_lt' lt⟩
    have word {n : Nat} (lt : n < 2 ^ 32) : ∃ v : UInt32, v.toNat = n :=
      ⟨_, UInt32.toNat_ofNat_of_lt' lt⟩
    cases shape with
    | plain a =>
        cases fit
        exact ⟨a, .plain a⟩
    | byte make =>
        obtain _ | ⟨first, ⟨⟩⟩ := fit
        obtain ⟨v, rfl⟩ := byte first
        exact ⟨_, .byte make v⟩
    | word make =>
        obtain _ | ⟨first, ⟨⟩⟩ := fit
        obtain ⟨v, rfl⟩ := word first
        exact ⟨_, .word make v⟩
    | twoWords make =>
        obtain _ | ⟨first, _ | ⟨second, ⟨⟩⟩⟩ := fit
        obtain ⟨v, rfl⟩ := word first
        obtain ⟨w, rfl⟩ := word second
        exact ⟨_, .twoWords make v w⟩
    | download =>
        obtain _ | ⟨first, _ | ⟨second, _ | ⟨third, ⟨⟩⟩⟩⟩ := fit
        obtain ⟨session, rfl⟩ := byte first
        obtain ⟨length, rfl⟩ := half second
        obtain ⟨address, rfl⟩ := word third
        exact ⟨_, .download session length address⟩

theorem exists_ofName?_commandName (a : Action) : ∃ shape, ofName? a.commandName = some shape := by
  cases a <;> exact ⟨_, rfl⟩

theorem mem_manual_of_ofName? (known : ofName? name = some shape) :
    (name, shape.widths) ∈ manual := by
  unfold ofName? at known
  split at known <;> cases known <;> decide

theorem ofName?_of_mem_manual : ∀ entry ∈ manual, (ofName? entry.1).map widths = some entry.2 := by
  decide

end Shape

/-! ## 3. Reading -/

theorem numbers_eq_ok_iff {fields : List Char} : numbers name fields = .ok values ↔
    List.Forall₂ Text.Numeral.Spells
        (((fields.splitOn ',').filter (!·.isEmpty)).map Text.trimmed) values ∧
      ∀ value ∈ values, value < UInt64.size := by
  have pos : 0 < UInt64.size := by decide
  unfold numbers
  rw [mapM_eq_ok_iff, Text.pieces_eq_splitOn, List.forall₂_map_left_iff, ← forall₂_and_right]
  simp only [mapError_eq_ok_iff, Text.Numeral.read_eq_ok_iff pos]

/-- Every field is narrower than what a number is read into. -/
theorem Shape.Fills.lt (fills : shape.Fills values a) : ∀ value ∈ values, value < UInt64.size := by
  cases fills with
  | plain => exact List.forall_mem_nil _
  | byte _ v => exact List.forall_mem_singleton.mpr (v.toNat_lt.trans (by decide))
  | word _ v => exact List.forall_mem_singleton.mpr (v.toNat_lt.trans (by decide))
  | twoWords _ v w =>
      exact List.forall_mem_cons.mpr ⟨v.toNat_lt.trans (by decide),
        List.forall_mem_singleton.mpr (w.toNat_lt.trans (by decide))⟩
  | download session length address =>
      exact List.forall_mem_cons.mpr ⟨session.toNat_lt.trans (by decide),
        List.forall_mem_cons.mpr ⟨length.toNat_lt.trans (by decide),
          List.forall_mem_singleton.mpr (address.toNat_lt.trans (by decide))⟩⟩

/-- A text is read in two steps: its name gives a shape, and its arguments the numbers that
    fill it. -/
theorem ofText_eq_ok_iff_fills : Action.ofText text = .ok a ↔
    ∃ shape values, Shape.ofName? (nameOf text) = some shape ∧ shape.Fills values a ∧
      List.Forall₂ Text.Numeral.Spells (argumentsOf text) values := by
  have named : String.ofList (text.toList.takeWhile (· ≠ '=')) = nameOf text := rfl
  unfold Action.ofText
  dsimp only
  rw [Text.splitFirst_fst, Text.splitFirst_snd, named]
  cases known : Shape.ofName? (nameOf text) with
  | none => simp
  | some shape =>
      dsimp only
      rw [bind_eq_ok_iff]
      constructor
      · rintro ⟨values, read, filled⟩
        exact ⟨shape, values, rfl, Shape.fill_eq_ok_iff.mp filled, (numbers_eq_ok_iff.mp read).1⟩
      · rintro ⟨_, values, ⟨⟩, fills, spelled⟩
        exact ⟨values, numbers_eq_ok_iff.mpr ⟨spelled, fills.lt⟩, Shape.fill_eq_ok_iff.mpr fills⟩

/-- **The texts of an action**: its name, and numerals of its fields. -/
theorem ofText_eq_ok_iff : Action.ofText text = .ok a ↔
    nameOf text = a.commandName ∧ List.Forall₂ Text.Numeral.Spells (argumentsOf text) a.values := by
  rw [ofText_eq_ok_iff_fills]
  constructor
  · rintro ⟨shape, values, known, fills, spelled⟩
    obtain ⟨named, rfl⟩ := (Shape.fills_iff known).mp fills
    exact ⟨named.symm, spelled⟩
  · rintro ⟨named, spelled⟩
    obtain ⟨shape, known⟩ := Shape.exists_ofName?_commandName a
    exact ⟨shape, a.values, named ▸ known, (Shape.fills_iff known).mpr ⟨rfl, rfl⟩, spelled⟩

/-- **The texts that are read**, told by the manual. -/
theorem exists_ofText_iff : (∃ a, Action.ofText text = .ok a) ↔
    ∃ widths values, (nameOf text, widths) ∈ manual ∧
      List.Forall₂ Text.Numeral.Spells (argumentsOf text) values ∧
      List.Forall₂ (fun value width => value < 2 ^ width) values widths := by
  simp only [ofText_eq_ok_iff_fills]
  constructor
  · rintro ⟨a, shape, values, known, fills, spelled⟩
    exact ⟨shape.widths, values, Shape.mem_manual_of_ofName? known, spelled,
      Shape.exists_fills_iff.mp ⟨a, fills⟩⟩
  · rintro ⟨widths, values, listed, spelled, fit⟩
    obtain ⟨shape, known, rfl⟩ := Option.map_eq_some_iff.mp (Shape.ofName?_of_mem_manual _ listed)
    obtain ⟨a, fills⟩ := Shape.exists_fills_iff.mpr fit
    exact ⟨a, shape, values, known, fills, spelled⟩

/-! ## 4. Writing -/

/-- An action written with an equals sign, whether it has fields or not. -/
def Action.toAssignment (a : Action) : String :=
  a.commandName ++ "=" ++ ",".intercalate (a.values.map toString)

theorem equals_not_mem_commandName (a : Action) : '=' ∉ a.commandName.toList := by
  have names : ∀ entry ∈ manual, '=' ∉ entry.1.toList := by decide
  obtain ⟨shape, known⟩ := Shape.exists_ofName?_commandName a
  exact names _ (Shape.mem_manual_of_ofName? known)

theorem toList_toAssignment (a : Action) : a.toAssignment.toList =
    a.commandName.toList ++ '=' :: [','].intercalate (a.values.map (Nat.toDigits 10)) := by
  have digits (n : Nat) : (toString n).toList = Nat.toDigits 10 n := by
    rw [Nat.toString_eq_ofList_toDigits, String.toList_ofList]
  unfold Action.toAssignment
  rw [String.toList_append, String.toList_append, String.toList_intercalate, List.map_map,
    List.append_assoc]
  exact congrArg (fun l => _ ++ '=' :: [','].intercalate l)
    (List.map_congr_left fun n _ => digits n)

variable {before behind : List Char}

theorem nameOf_of_toList (written : text.toList = before ++ '=' :: behind) (free : '=' ∉ before) :
    nameOf text = String.ofList before := by
  unfold nameOf
  rw [written, List.takeWhile_append_of_pos (Text.forall_ne_of_not_mem free),
    List.takeWhile_cons_of_neg (by decide), List.append_nil]

theorem argumentsOf_of_toList (written : text.toList = before ++ '=' :: behind)
    (free : '=' ∉ before) :
    argumentsOf text = ((behind.splitOn ',').filter (!·.isEmpty)).map Text.trimmed := by
  unfold argumentsOf
  rw [written, List.dropWhile_append_of_pos (Text.forall_ne_of_not_mem free),
    List.dropWhile_cons_of_neg (by decide)]
  rfl

/-- Numbers with commas between them are cut into these numbers again. -/
theorem split_intercalate (values : List Nat) :
    ((([','].intercalate (values.map (Nat.toDigits 10))).splitOn ',').filter (!·.isEmpty)).map
      Text.trimmed = values.map (Nat.toDigits 10) := by
  cases values with
  | nil => rfl
  | cons first rest =>
      have free : ∀ digits ∈ (first :: rest).map (Nat.toDigits 10), ',' ∉ digits := by
        intro digits mem comma
        obtain ⟨n, -, rfl⟩ := List.mem_map.mp mem
        exact absurd (Nat.isDigit_of_mem_toDigits (by decide) (by decide) comma) (by decide)
      have nonempty : ∀ digits ∈ (first :: rest).map (Nat.toDigits 10),
          (!digits.isEmpty) = true := by
        intro digits mem
        obtain ⟨n, -, rfl⟩ := List.mem_map.mp mem
        rw [Bool.not_eq_true', List.isEmpty_eq_false_iff]
        exact Nat.toDigits_ne_nil
      rw [List.splitOn_intercalate ',' free (List.cons_ne_nil _ _),
        List.filter_eq_self.mpr nonempty, List.map_map]
      exact List.map_congr_left fun n _ => Text.Numeral.trimmed_toDigits n

/-- **What is written in decimal is read back.** -/
theorem ofText_toAssignment (a : Action) : Action.ofText a.toAssignment = .ok a := by
  have written := toList_toAssignment a
  have free := equals_not_mem_commandName a
  refine ofText_eq_ok_iff.mpr ⟨?_, ?_⟩
  · rw [nameOf_of_toList written free, String.ofList_toList]
  · rw [argumentsOf_of_toList written free, split_intercalate, List.forall₂_map_left_iff]
    exact List.forall₂_same.mpr fun n _ => Text.Numeral.spells_toDigits n

/-- An action without fields may as well be written without the equals sign. -/
theorem ofText_commandName (noFields : a.fields = []) : Action.ofText a.commandName = .ok a := by
  have free := Text.forall_ne_of_not_mem (equals_not_mem_commandName a)
  refine ofText_eq_ok_iff.mpr ⟨?_, ?_⟩
  · unfold nameOf
    rw [List.takeWhile_eq_self_iff.mpr free, String.ofList_toList]
  · unfold argumentsOf Action.values
    rw [List.dropWhile_eq_nil_iff.mpr free, noFields]
    exact .nil

theorem ofText_toText (a : Action) : Action.ofText a.toText = .ok a := by
  unfold Action.toText
  split
  · rename_i noFields
    exact ofText_commandName noFields
  · refine Eq.trans (congrArg Action.ofText ?_) (ofText_toAssignment a)
    unfold Action.toAssignment Action.values
    rw [List.map_map]
    rfl

/-- **What an operator can write.** A text is read as an action where it names the action and its
    arguments are numerals of the fields, in order. It is read at all where its name is in the
    manual and its arguments are as many numerals as the name has fields, each of them within its
    field. Every action that is written in decimal is read back, with the equals sign and as it is
    listed. -/
theorem ofText_language :
    (∀ text a, Action.ofText text = .ok a ↔
      nameOf text = a.commandName ∧
        List.Forall₂ Text.Numeral.Spells (argumentsOf text) (a.fields.map Prod.snd)) ∧
    (∀ text, (∃ a, Action.ofText text = .ok a) ↔
      ∃ widths values, (nameOf text, widths) ∈ manual ∧
        List.Forall₂ Text.Numeral.Spells (argumentsOf text) values ∧
        List.Forall₂ (fun value width => value < 2 ^ width) values widths) ∧
    ∀ a : Action, Action.ofText a.toAssignment = .ok a ∧ Action.ofText a.toText = .ok a :=
  ⟨fun _ _ => ofText_eq_ok_iff, fun _ => exists_ofText_iff,
    fun a => ⟨ofText_toAssignment a, ofText_toText a⟩⟩

/-- Stray commas, a plus sign, leading zeros and white space around a number do not matter. -/
example : Action.ofText "download-data=,+1, 128,,004096\t" = .ok (.downloadData 1 128 4096) := by
  decide +kernel

end SatLink.Command
