/-!
# Bytes put over others

A buffer keeps its length when bytes are put over those it holds, and it keeps what stands in front
of them and behind them. Two writes, one right behind the other, are one.
-/

namespace SatLink

variable {buffer bytes : List UInt8} {i : Nat}

/-- A buffer with bytes put over those from index `i` on. -/
def putAt (buffer : List UInt8) (i : Nat) (bytes : List UInt8) : List UInt8 :=
  buffer.take i ++ (bytes ++ buffer.drop (i + bytes.length))

theorem putAt_zero (buffer bytes : List UInt8) :
    putAt buffer 0 bytes = bytes ++ buffer.drop bytes.length := by
  unfold putAt
  rw [List.take_zero, List.nil_append, Nat.zero_add]

theorem putAt_nil (buffer : List UInt8) (i : Nat) : putAt buffer i [] = buffer :=
  List.take_append_drop i buffer

/-- Bytes put over as many others, behind some and in front of some. -/
theorem putAt_append {front old behind : List UInt8} (same : old.length = bytes.length) :
    putAt (front ++ (old ++ behind)) front.length bytes = front ++ (bytes ++ behind) := by
  unfold putAt
  rw [List.take_left' rfl, ← List.drop_drop, List.drop_left' rfl, ← same, List.drop_left' rfl]

theorem length_putAt (fits : i + bytes.length ≤ buffer.length) :
    (putAt buffer i bytes).length = buffer.length := by
  unfold putAt
  rw [List.length_append, List.length_append, List.length_take, List.length_drop]
  omega

/-- **A write changes nothing in front of it and nothing behind it.** -/
theorem getElem?_putAt (fits : i + bytes.length ≤ buffer.length) {j : Nat}
    (outside : j < i ∨ i + bytes.length ≤ j) : (putAt buffer i bytes)[j]? = buffer[j]? := by
  have front : (buffer.take i).length = i := by
    rw [List.length_take]
    omega
  unfold putAt
  rcases outside with before | behind
  · rw [List.getElem?_append_left (by omega), List.getElem?_take_of_lt before]
  · rw [List.getElem?_append_right (by omega), front, List.getElem?_append_right (by omega),
      List.getElem?_drop]
    congr 1
    omega

/-- What is written is there. -/
theorem take_drop_putAt (fits : i + bytes.length ≤ buffer.length) :
    ((putAt buffer i bytes).drop i).take bytes.length = bytes := by
  have front : (buffer.take i).length = i := by
    rw [List.length_take]
    omega
  unfold putAt
  rw [List.drop_left' front, List.take_left' rfl]

/-- Two writes, one right behind the other, are one. -/
theorem putAt_putAt {more : List UInt8} (fits : i + bytes.length ≤ buffer.length) :
    putAt (putAt buffer i bytes) (i + bytes.length) more = putAt buffer i (bytes ++ more) := by
  have front : (buffer.take i ++ bytes).length = i + bytes.length := by
    rw [List.length_append, List.length_take]
    omega
  unfold putAt
  rw [← List.append_assoc (buffer.take i) bytes, List.take_left' front,
    ← List.drop_drop (l := buffer.take i ++ bytes ++ _), List.drop_left' front, List.drop_drop,
    List.length_append, List.append_assoc, List.append_assoc, Nat.add_assoc]

end SatLink
