import SatLink.Error

/-!
# Byte buffers of a fixed capacity

A `Buffer cap` owns `cap` bytes of storage and a write pointer; only the bytes below the pointer
count (`Buffer.toList`). The others are whatever earlier writes left there. The main statements say
that each operation does to the view what it would do to a list bounded by `cap`.
-/

namespace SatLink

/-- `cap` bytes of storage, the first `length` of them written. -/
structure Buffer (cap : Nat) where
  storage : Vector UInt8 cap
  length : Nat
  length_le : length ≤ cap

namespace Buffer

variable {cap : Nat}

/-- A buffer nothing is written to. -/
def empty (cap : Nat) : Buffer cap := ⟨Vector.replicate cap 0, 0, Nat.zero_le _⟩

/-- The written bytes. -/
def toList (b : Buffer cap) : List UInt8 := b.storage.toList.take b.length

/-- Nothing is written. -/
def isEmpty (b : Buffer cap) : Bool := b.length == 0

/-- Forgets the written bytes, and leaves the storage as it is. -/
def clear (b : Buffer cap) : Buffer cap := ⟨b.storage, 0, Nat.zero_le _⟩

/-- Appends one byte; a full buffer stays as it is. -/
def push (b : Buffer cap) (byte : UInt8) : Except LinkError Unit × Buffer cap :=
  if h : b.length < cap then
    (.ok (), ⟨b.storage.set b.length byte h, b.length + 1, h⟩)
  else
    (.error (.bufferTooSmall (b.length + 1) cap), b)

/-- The storage with `bytes` written from position `start` on, as far as they fit. -/
def overwrite (storage : Vector UInt8 cap) (start : Nat) : List UInt8 → Vector UInt8 cap
  | [] => storage
  | byte :: bytes => overwrite (storage.setIfInBounds start byte) (start + 1) bytes

/-- Appends `bytes`, all of them or none. -/
def extend (b : Buffer cap) (bytes : List UInt8) : Except LinkError Unit × Buffer cap :=
  if h : bytes.length + b.length ≤ cap then
    (.ok (), ⟨overwrite b.storage b.length bytes, bytes.length + b.length, h⟩)
  else
    (.error (.bufferTooSmall (bytes.length + b.length) cap), b)

/-- Changes every written byte in place. -/
def mapWritten (f : UInt8 → UInt8) (b : Buffer cap) : Buffer cap :=
  { b with storage := b.storage.mapIdx fun i byte => if i < b.length then f byte else byte }

/-- The same storage, of which the first `n` bytes count. -/
def withLength (b : Buffer cap) (n : Nat) : Buffer cap :=
  ⟨b.storage, min n cap, Nat.min_le_right _ _⟩

/-- Two buffers are the same when their written bytes are, whatever lies behind them. -/
instance : BEq (Buffer cap) := ⟨fun a b => a.toList == b.toList⟩

@[simp] theorem toList_empty : (empty cap).toList = [] := by simp [empty, toList]

@[simp] theorem toList_clear (b : Buffer cap) : b.clear.toList = [] := by simp [clear, toList]

@[simp] theorem length_toList (b : Buffer cap) : b.toList.length = b.length := by
  simp [toList, b.length_le]

/-- A write replaces what stood at the positions it covers, and nothing else. -/
theorem toList_overwrite (storage : Vector UInt8 cap) (start : Nat) (bytes : List UInt8)
    (h : start + bytes.length ≤ cap) :
    (overwrite storage start bytes).toList =
      storage.toList.take start ++ (bytes ++ storage.toList.drop (start + bytes.length)) := by
  induction bytes generalizing storage start with
  | nil => simp [overwrite]
  | cons byte bytes ih =>
      simp only [List.length_cons] at h
      have lt : start < storage.toList.length := by simp; omega
      have set : (storage.setIfInBounds start byte).toList = storage.toList.set start byte := by
        simp
      have next : start + (byte :: bytes).length = start + 1 + bytes.length := by simp; omega
      rw [overwrite, ih _ _ (by omega), set, next, List.take_add_one,
        List.take_set_of_le (Nat.le_refl _), List.drop_set_of_lt (by omega),
        List.getElem?_set_self lt, List.append_assoc]
      rfl

theorem toList_push (b : Buffer cap) (byte : UInt8) :
    (b.push byte).2.toList = if b.length < cap then b.toList ++ [byte] else b.toList := by
  by_cases h : b.length < cap
  · have lt : b.length < b.storage.toList.length := by simpa using h
    have set : (b.storage.set b.length byte h).toList = b.storage.toList.set b.length byte :=
      Vector.toList_set ..
    simp only [push, h, dif_pos, if_pos, toList]
    rw [set, List.take_add_one, List.take_set_of_le (Nat.le_refl _), List.getElem?_set_self lt]
    rfl
  · simp [push, h]

/-- A byte is appended where there is room for it, and refused where there is none. -/
theorem push_cases (b : Buffer cap) (byte : UInt8) :
    (b.length < cap ∧ ∃ c, b.push byte = (.ok (), c) ∧ c.toList = b.toList ++ [byte]) ∨
      (cap ≤ b.length ∧ ∃ e, b.push byte = (.error e, b)) := by
  have written := toList_push b byte
  by_cases h : b.length < cap
  · rw [if_pos h] at written
    exact .inl ⟨h, _, dif_pos h, by rwa [push, dif_pos h] at written⟩
  · exact .inr ⟨Nat.le_of_not_lt h, _, dif_neg h⟩

theorem toList_extend (b : Buffer cap) (bytes : List UInt8) :
    (b.extend bytes).2.toList =
      if bytes.length + b.length ≤ cap then b.toList ++ bytes else b.toList := by
  by_cases h : bytes.length + b.length ≤ cap
  · simp only [extend, h, dif_pos, if_pos, toList]
    rw [toList_overwrite _ _ _ (by omega), ← List.append_assoc,
      List.take_append_of_le_length (by simp [b.length_le]; omega),
      List.take_of_length_le (by simp [b.length_le]; omega)]
  · simp [extend, h]

@[simp] theorem toList_mapWritten (f : UInt8 → UInt8) (b : Buffer cap) :
    (b.mapWritten f).toList = b.toList.map f := by
  apply List.ext_getElem
  · simp [mapWritten, toList]
  · intro i h₁ h₂
    have lt : i < b.length := by simp at h₂; omega
    simp [mapWritten, toList, lt]

end Buffer

end SatLink
