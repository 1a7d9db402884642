import SatLink.Block
import SatLink.Error

/-!
# A machine that can stop

Bytes in an array are found by index, a part of an array is cut out between two indices, and lengths
and positions are counted in words of a fixed width. A machine that is asked for an index beyond the
end, for a cut outside the array or between crossed indices, or for a count that is negative or
wider than a word, stops; so does one whose loop has no end.

* `Checked` — a computation on such a machine: it gives a result, refuses, or stops;
* `item`, `cut`, `store`, `splice`, `exactly`, `add`, `sub`, `mul` — its steps, each with the
  condition under which it does not stop;
* `forUp`, `forUp_eq` — a loop over a range of counters, and what it does when every turn of it goes
  through; `forUp_overwrite` — a loop that writes an array entry by entry;
* `loop`, `loop_eq` — a loop that says by itself when it is through, and its first turn;
* `answer` — the computation that gives what a function on whole lists gives.
-/

namespace SatLink.Indexed

variable {α β σ : Type}

/-! ## 1. Computations -/

/-- A computation that gives a result, refuses, or stops; `none` is a stopped or endless machine. -/
abbrev Checked (α : Type) := ExceptT LinkError Option α

/-- The machine stops. -/
def halt : Checked α := ExceptT.mk none

/-- What a function on whole lists gives. -/
def answer (x : Except LinkError α) : Checked α := ExceptT.mk (some x)

@[simp] theorem answer_ok (a : α) : answer (.ok a) = pure a := rfl

@[simp] theorem answer_error (e : LinkError) :
    answer (.error e : Except LinkError α) = throw e := rfl

/-- Step by step, on whole lists and on the machine. -/
theorem bind_eq_answer {x : Checked α} {y : Except LinkError α} {f : α → Checked β}
    {g : α → Except LinkError β} (first : x = answer y)
    (rest : ∀ a, y = .ok a → f a = answer (g a)) :
    (x >>= f) = answer (y >>= g) := by
  rw [first]
  cases y with
  | error e => rfl
  | ok a => exact rest a rfl

/-- The computation with another refusal. -/
def reword (e : LinkError) (x : Checked α) : Checked α := ExceptT.adapt (fun _ => e) x

@[simp] theorem reword_pure (e : LinkError) (a : α) : reword e (pure a) = pure a := rfl

@[simp] theorem reword_throw (e e' : LinkError) : reword e (throw e' : Checked α) = throw e := rfl

/-! ## 2. Arrays -/

/-- The entry at an index. -/
def item (xs : List α) (i : Nat) : Checked α :=
  match xs[i]? with
  | some x => pure x
  | none => halt

/-- The entries from index `i` up to index `j`. -/
def cut (xs : List α) (i j : Nat) : Checked (List α) :=
  if i ≤ j ∧ j ≤ xs.length then pure ((xs.drop i).take (j - i)) else halt

/-- Replaces the entry at an index. -/
def store (xs : List α) (i : Nat) (x : α) : Checked (List α) :=
  if i < xs.length then pure (xs.set i x) else halt

/-- Copies bytes over an array of `n` bytes. -/
def exactly (n : Nat) (source : List UInt8) : Checked (Block n) :=
  match Block.ofList? n source with
  | some block => pure block
  | none => halt

/-- Copies bytes over those from index `i` up to index `j`. -/
def splice (xs : List UInt8) (i j : Nat) (source : List UInt8) : Checked (List UInt8) := do
  let _ ← cut xs i j
  let block ← exactly (j - i) source
  pure (xs.take i ++ (block.bytes ++ xs.drop j))

section

variable {xs : List α} {i j : Nat}

theorem item_of_getElem? {x : α} (entry : xs[i]? = some x) : item xs i = pure x := by
  rw [item, entry]

theorem item_of_lt (lt : i < xs.length) : item xs i = pure xs[i] :=
  item_of_getElem? (List.getElem?_eq_getElem lt)

theorem cut_of_le (le : i ≤ j) (within : j ≤ xs.length) :
    cut xs i j = pure ((xs.drop i).take (j - i)) :=
  if_pos ⟨le, within⟩

theorem store_of_lt (lt : i < xs.length) (x : α) : store xs i x = pure (xs.set i x) := if_pos lt

end

section

variable {xs source : List UInt8} {i j n : Nat}

theorem exactly_of_length (len : source.length = n) : exactly n source = pure ⟨source, len⟩ := by
  rw [exactly, Block.ofList?, dif_pos len]

theorem splice_of_length (le : i ≤ j) (within : j ≤ xs.length) (len : source.length = j - i) :
    splice xs i j source = pure (xs.take i ++ (source ++ xs.drop j)) := by
  rw [splice, cut_of_le le within, exactly_of_length len]
  rfl

end

/-! ## 3. Counters -/

/-- The sum of two counters, of which there are `size`. -/
def add (size a b : Nat) : Checked Nat := if a + b < size then pure (a + b) else halt

/-- The product of two counters. -/
def mul (size a b : Nat) : Checked Nat := if a * b < size then pure (a * b) else halt

/-- The difference of two counters. -/
def sub (a b : Nat) : Checked Nat := if b ≤ a then pure (a - b) else halt

section

variable {size a b : Nat}

theorem add_of_lt (lt : a + b < size) : add size a b = pure (a + b) := if_pos lt

theorem mul_of_lt (lt : a * b < size) : mul size a b = pure (a * b) := if_pos lt

theorem sub_of_le (le : b ≤ a) : sub a b = pure (a - b) := if_pos le

end

/-! ## 4. Loops -/

/-- Runs `body` for every counter from `start` on that is below `stop`. -/
def forUp (start stop : Nat) (s : σ) (body : σ → Nat → Checked σ) : Checked σ :=
  (List.range' start (stop - start)).foldlM body s

theorem foldlM_range'_eq {body : σ → Nat → Checked σ} {state : Nat → σ} (n : Nat) {start : Nat}
    (turn : ∀ i, start ≤ i → i < start + n → body (state i) i = pure (state (i + 1))) :
    (List.range' start n).foldlM body (state start) = pure (state (start + n)) := by
  induction n generalizing start with
  | zero => rfl
  | succ n ih =>
      rw [List.range'_succ, List.foldlM_cons, turn start (Nat.le_refl _) (by omega), pure_bind,
        ih fun i le lt => turn i (by omega) (by omega)]
      congr 2
      omega

/-- **A loop goes through its states**, if every turn of it goes from one to the next. -/
theorem forUp_eq {start stop : Nat} {body : σ → Nat → Checked σ} (state : Nat → σ)
    (le : start ≤ stop)
    (turn : ∀ i, start ≤ i → i < stop → body (state i) i = pure (state (i + 1))) :
    forUp start stop (state start) body = pure (state stop) := by
  have last : start + (stop - start) = stop := Nat.add_sub_of_le le
  rw [forUp, foldlM_range'_eq (stop - start) fun i le lt => turn i le (by omega), last]

/-- A loop over a list that nothing stops. -/
theorem foldlM_eq {body : σ → α → Checked σ} {step : σ → α → σ} {l : List α}
    (turn : ∀ s, ∀ a ∈ l, body s a = pure (step s a)) (s : σ) :
    l.foldlM body s = pure (l.foldl step s) := by
  induction l generalizing s with
  | nil => rfl
  | cons a l ih =>
      rw [List.foldlM_cons, turn s a List.mem_cons_self, pure_bind, List.foldl_cons,
        ih fun s b hb => turn s b (List.mem_cons_of_mem _ hb)]

/-! ## 5. Loops without a range -/

/-- A loop that is given `n` turns to come to its end. -/
def turns (turn : σ → Checked (σ ⊕ β)) : Nat → σ → Checked β
  | 0, _ => halt
  | n + 1, s => turn s >>= Sum.elim (turns turn n) pure

open Classical in
/-- Runs `turn` from state to state until it gives a result. A loop that is never through is a
    machine that stops. -/
noncomputable def loop (turn : σ → Checked (σ ⊕ β)) (s : σ) : Checked β :=
  if h : ∃ n, turns turn n s ≠ halt then turns turn h.choose s else halt

section

variable {turn : σ → Checked (σ ⊕ β)} {s : σ}

/-- More turns change nothing where the loop is through. -/
theorem turns_add {n : Nat} (through : turns turn n s ≠ halt) (m : Nat) :
    turns turn (n + m) s = turns turn n s := by
  induction n generalizing s with
  | zero => exact absurd rfl through
  | succ n ih =>
      rw [Nat.succ_add, turns, turns]
      match first : turn s with
      | none | some (.error e) | some (.ok (.inr b)) => rfl
      | some (.ok (.inl t)) =>
          rw [turns, first] at through
          exact ih through

/-- A loop that is through within some turns gives what they give. -/
theorem loop_of_turns {n : Nat} (through : turns turn n s ≠ halt) :
    loop turn s = turns turn n s := by
  have stops : ∃ n, turns turn n s ≠ halt := ⟨n, through⟩
  rw [loop, dif_pos stops, ← turns_add stops.choose_spec n, Nat.add_comm, turns_add through]

theorem loop_of_endless (endless : ∀ n, turns turn n s = halt) : loop turn s = halt :=
  dif_neg fun ⟨n, through⟩ => through (endless n)

/-- **A loop is its first turn and the loop from there.** -/
theorem loop_eq (turn : σ → Checked (σ ⊕ β)) (s : σ) :
    loop turn s = turn s >>= Sum.elim (loop turn) pure := by
  have go (n : Nat) : turns turn (n + 1) s = turn s >>= Sum.elim (turns turn n) pure := rfl
  match first : turn s with
  | none =>
      rw [first] at go
      exact loop_of_endless fun n => Nat.casesOn n rfl go
  | some (.error e) | some (.ok (.inr b)) =>
      rw [first] at go
      have through : turns turn 1 s ≠ halt := by
        rw [go]
        exact fun stopped => nomatch stopped
      exact (loop_of_turns through).trans (go 0)
  | some (.ok (.inl t)) =>
      rw [first] at go
      show loop turn s = loop turn t
      by_cases ends : ∃ n, turns turn n t ≠ halt
      · obtain ⟨n, through⟩ := ends
        have next : turns turn (n + 1) s = turns turn n t := go n
        have through' : turns turn (n + 1) s ≠ halt := by rwa [next]
        rw [loop_of_turns through, loop_of_turns through', next]
      · have endless (n : Nat) : turns turn n t = halt :=
          Classical.not_not.mp fun ne => ends ⟨n, ne⟩
        rw [loop_of_endless endless]
        exact loop_of_endless fun n => Nat.casesOn n rfl fun n => (go n).trans (endless n)

end

/-! ## 6. Writing entry by entry -/

/-- An array of which the first `p` entries are overwritten. -/
def overwritten (xs ys : List α) (p : Nat) : List α := ys.take p ++ xs.drop p

section

variable {xs ys : List α} (len : ys.length = xs.length)

include len

theorem length_overwritten {p : Nat} (le : p ≤ xs.length) :
    (overwritten xs ys p).length = xs.length := by
  rw [overwritten, List.length_append, List.length_take, List.length_drop, len]
  omega

/-- What is not overwritten yet is as it was. -/
theorem getElem?_overwritten {p : Nat} (lt : p < xs.length) :
    (overwritten xs ys p)[p]? = xs[p]? := by
  have front : (ys.take p).length = p := by
    rw [List.length_take, len, Nat.min_eq_left (Nat.le_of_lt lt)]
  rw [overwritten, List.getElem?_append_right (Nat.le_of_eq front), front, Nat.sub_self,
    List.getElem?_drop, Nat.add_zero]

theorem set_overwritten {p : Nat} (lt : p < ys.length) :
    (overwritten xs ys p).set p ys[p] = overwritten xs ys (p + 1) := by
  have front : (ys.take p).length = p := by
    rw [List.length_take, Nat.min_eq_left (Nat.le_of_lt lt)]
  rw [overwritten, overwritten, List.set_append_right _ _ (Nat.le_of_eq front), front, Nat.sub_self,
    List.drop_eq_getElem_cons (len ▸ lt), List.set_cons_zero, List.take_succ_eq_append_getElem lt,
    List.append_assoc, List.singleton_append]

/-- **A loop that writes one entry after the other**, from an offset on, leaves the array that they
    make up. -/
theorem forUp_overwrite {offset n : Nat} {body : List α → Nat → Checked (List α)}
    (front : ys.take offset = xs.take offset) (count : n = xs.length - offset)
    (turn : ∀ i p, p = i + offset → ∀ lt : p < ys.length,
      body (overwritten xs ys p) i = pure ((overwritten xs ys p).set p ys[p])) :
    forUp 0 n xs body = pure ys := by
  have start : overwritten xs ys (0 + offset) = xs := by
    rw [overwritten, Nat.zero_add, front, List.take_append_drop]
  have stop : overwritten xs ys (n + offset) = ys := by
    have all : ys.length ≤ n + offset := by omega
    rw [overwritten, List.take_of_length_le all, List.drop_of_length_le (len ▸ all),
      List.append_nil]
  have run : forUp 0 n (overwritten xs ys (0 + offset)) body =
      pure (overwritten xs ys (n + offset)) := by
    refine forUp_eq (fun i => overwritten xs ys (i + offset)) (Nat.zero_le n) fun i _ lt => ?_
    have inside : i + offset < ys.length := by omega
    rw [turn i _ rfl inside, set_overwritten len inside, Nat.add_right_comm]
  rwa [start, stop] at run

/-- The same from the first entry on. -/
theorem forUp_fill {n : Nat} {body : List α → Nat → Checked (List α)} (count : n = xs.length)
    (turn : ∀ i, ∀ lt : i < ys.length,
      body (overwritten xs ys i) i = pure ((overwritten xs ys i).set i ys[i])) :
    forUp 0 n xs body = pure ys := by
  have front : ys.take 0 = xs.take 0 := rfl
  refine forUp_overwrite len front count fun i p place lt => ?_
  obtain rfl : p = i := place
  exact turn p lt

end

/-- **A loop that works on one entry** leaves what it makes of the entry there. -/
theorem forUp_entry {xs : List α} {k n : Nat} {body : List α → Nat → Checked (List α)}
    (value : Nat → α) (first : xs[k]? = some (value 0))
    (turn : ∀ j < n, body (xs.set k (value j)) j = pure (xs.set k (value (j + 1)))) :
    forUp 0 n xs body = pure (xs.set k (value n)) := by
  have start : xs.set k (value 0) = xs := by
    obtain ⟨lt, entry⟩ := List.getElem?_eq_some_iff.mp first
    rw [← entry, List.set_getElem_self]
  have run := forUp_eq (fun j => xs.set k (value j)) (Nat.zero_le n) fun j _ lt => turn j lt
  rwa [start] at run

end SatLink.Indexed
