import SatLink.Error
import SatLink.Proofs.Overwriting

/-!
# A machine that works in its caller's memory

A computation is handed memory that belongs to its caller. It reads it, writes into it bit by bit or
byte by byte, and then answers or refuses; what was written before a refusal stays written. A write
outside the memory stops the machine.

* `Editing` — a computation on such a machine; `run` — what it answers, and the memory it leaves;
* `own` — a part that works on memory of its own;
* `write`, `writePieces` — bytes put over those that are there, in one go and piece by piece;
* `run_write`, `run_writePieces` — **what is left of the memory behind a write**.
-/

namespace SatLink.InPlace

variable {σ τ α β : Type}

/-! ## 1. Computations -/

/-- A computation that answers or refuses, and leaves memory; or the machine stops. -/
abbrev Editing (σ α : Type) := ExceptT LinkError (StateT σ Option) α

/-- What a computation answers and the memory it leaves; `none` is a stopped machine. -/
def run (x : Editing σ α) (s : σ) : Option (Except LinkError α × σ) := (ExceptT.run x).run s

/-- The machine stops. -/
def halt : Editing σ α := fun _ => none

/-- A part that works on memory of its own. -/
def own (x : Except LinkError α) : Editing σ α := fun s => some (x, s)

/-- A computation on a part of the memory. -/
def onPart (part : σ → τ) (put : σ → τ → σ) (x : Editing τ α) : Editing σ α := fun s =>
  (run x (part s)).map fun (answer, t) => (answer, put s t)

section

variable {x : Editing σ α} {f : α → Editing σ β} {s t : σ}

@[simp] theorem run_pure (a : α) (s : σ) : run (pure a : Editing σ α) s = some (.ok a, s) := rfl

@[simp] theorem run_throw (e : LinkError) (s : σ) :
    run (throw e : Editing σ α) s = some (.error e, s) := rfl

@[simp] theorem run_get (s : σ) : run (get : Editing σ σ) s = some (.ok s, s) := rfl

@[simp] theorem run_set (t s : σ) : run (set t : Editing σ PUnit) s = some (.ok (), t) := rfl

@[simp] theorem run_modify (f : σ → σ) (s : σ) :
    run (modify f : Editing σ PUnit) s = some (.ok (), f s) := rfl

@[simp] theorem run_own (y : Except LinkError α) (s : σ) :
    run (own y : Editing σ α) s = some (y, s) := rfl

/-- Behind an answer a computation goes on from the memory that was left. -/
theorem run_bind_of_ok {a : α} (first : run x s = some (.ok a, t)) :
    run (x >>= f) s = run (f a) t := by
  show (run x s).bind _ = _
  rw [first]
  rfl

/-- A refusal is the end, with the memory as it is by then. -/
theorem run_bind_of_error {e : LinkError} (first : run x s = some (.error e, t)) :
    run (x >>= f) s = some (.error e, t) := by
  show (run x s).bind _ = _
  rw [first]
  rfl

theorem run_onPart {part : σ → τ} {put : σ → τ → σ} {x : Editing τ α} {answer : Except LinkError α}
    {u : τ} (here : run x (part s) = some (answer, u)) :
    run (onPart part put x) s = some (answer, put s u) := by
  show (run x (part s)).map _ = _
  rw [here]
  rfl

end

/-! ## 2. Writing -/

/-- Puts bytes over those from index `i` on. -/
def write (i : Nat) (bytes : List UInt8) : Editing (List UInt8) Unit := do
  let buffer ← get
  if i + bytes.length ≤ buffer.length then set (putAt buffer i bytes) else halt

/-- Puts pieces one behind the other, from index `i` on. -/
def writePieces (i : Nat) : List (List UInt8) → Editing (List UInt8) Unit
  | [] => pure ()
  | piece :: more => do
      write i piece
      writePieces (i + piece.length) more

section

variable {i : Nat} {buffer bytes : List UInt8}

theorem run_write (fits : i + bytes.length ≤ buffer.length) :
    run (write i bytes) buffer = some (.ok (), putAt buffer i bytes) := by
  unfold write
  rw [run_bind_of_ok (run_get buffer), if_pos fits]
  exact run_set _ _

/-- **Piece by piece comes to the same** as all pieces in one go. -/
theorem run_writePieces {pieces : List (List UInt8)}
    (fits : i + pieces.flatten.length ≤ buffer.length) :
    run (writePieces i pieces) buffer = some (.ok (), putAt buffer i pieces.flatten) := by
  induction pieces generalizing i buffer with
  | nil =>
      rw [List.flatten_nil, putAt_nil]
      exact run_pure _ _
  | cons piece more ih =>
      rw [List.flatten_cons, List.length_append] at fits
      have first : i + piece.length ≤ buffer.length := by omega
      have rest : i + piece.length + more.flatten.length ≤ (putAt buffer i piece).length := by
        rw [length_putAt first]
        omega
      rw [writePieces, run_bind_of_ok (run_write first), ih rest, putAt_putAt first,
        List.flatten_cons]

end

end SatLink.InPlace
