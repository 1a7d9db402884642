import SatLink.Error

/-!
# Bounded queues between the tasks of a link

A queue hands items from its writers to its reader in order. It holds at most `capacity` of them,
and either end can go away: without a reader nothing can be sent, without a writer nothing more
arrives once the queue is empty. A writer that finds the queue full and a reader that finds it empty
wait for a while; `send` and `receive` say what comes of it when nothing happens meanwhile.
-/

namespace SatLink

/-- Why an item was not sent. -/
inductive SendFault where
  | full
  | closed
  deriving DecidableEq

/-- Why no item was received. -/
inductive ReceiveFault where
  | empty
  | closed
  deriving DecidableEq

/-- What a failed send means on the link. -/
def SendFault.toError : SendFault → LinkError
  | .full => .queueFull
  | .closed => .channelClosed

/-- What a failed receive means on the link. -/
def ReceiveFault.toError : ReceiveFault → LinkError
  | .empty => .timeout
  | .closed => .channelClosed

/-- Items in order, oldest first. -/
structure Queue (α : Type) where
  capacity : Nat
  items : List α := []
  hasReader : Bool := true
  hasWriter : Bool := true

namespace Queue

variable {α : Type}

/-- An empty queue of a capacity. -/
def ofCapacity (capacity : Nat) : Queue α := { capacity }

/-- No further item fits. -/
def isFull (q : Queue α) : Bool := decide (q.capacity ≤ q.items.length)

/-- Sends an item. -/
def send (q : Queue α) (a : α) : Except SendFault (Queue α) :=
  if !q.hasReader then .error .closed
  else if q.isFull then .error .full
  else .ok { q with items := q.items ++ [a] }

/-- Sends an item that is lost if the queue does not take it. -/
def offer (q : Queue α) (a : α) : Queue α :=
  match q.send a with
  | .ok q => q
  | .error _ => q

/-- Receives the oldest item. -/
def receive (q : Queue α) : Except ReceiveFault (α × Queue α) :=
  match q.items with
  | a :: rest => .ok (a, { q with items := rest })
  | [] => .error (if q.hasWriter then .empty else .closed)

/-- The reader goes away, and takes what is queued with it. -/
def dropReader (q : Queue α) : Queue α := { q with items := [], hasReader := false }

/-- The last writer goes away; what is queued can still be received. -/
def dropWriter (q : Queue α) : Queue α := { q with hasWriter := false }

/-- What is queued, taken out. -/
def drain (q : Queue α) : List α × Queue α := (q.items, { q with items := [] })

theorem send_items {q r : Queue α} {a : α} (h : q.send a = .ok r) : r.items = q.items ++ [a] := by
  unfold send at h
  split at h
  · cases h
  · split at h
    · cases h
    · cases h; rfl

theorem send_of_lt {q : Queue α} {a : α} (reader : q.hasReader = true)
    (room : q.items.length < q.capacity) : q.send a = .ok { q with items := q.items ++ [a] } := by
  have free : q.isFull = false := decide_eq_false (Nat.not_le.mpr room)
  unfold send
  rw [if_neg (by rw [reader]; decide), if_neg (by rw [free]; decide)]

theorem send_of_le {q : Queue α} {a : α} (reader : q.hasReader = true)
    (full : q.capacity ≤ q.items.length) : q.send a = .error .full := by
  have taken : q.isFull = true := decide_eq_true full
  unfold send
  rw [if_neg (by rw [reader]; decide), if_pos taken]

/-- With room for all of them, items that are offered one after the other are queued in order. -/
theorem foldl_offer_items {q : Queue α} (reader : q.hasReader = true) {items : List α}
    (room : q.items.length + items.length ≤ q.capacity) :
    (items.foldl offer q).items = q.items ++ items := by
  induction items generalizing q with
  | nil => exact (List.append_nil _).symm
  | cons a rest ih =>
      rw [List.length_cons] at room
      have taken : q.offer a = { q with items := q.items ++ [a] } := by
        rw [offer, send_of_lt reader (by omega)]
      have left : (q.items ++ [a]).length + rest.length ≤ q.capacity := by
        rw [List.length_append, List.length_singleton]
        omega
      rw [List.foldl_cons, taken]
      exact (@ih { q with items := q.items ++ [a] } reader left).trans (List.append_cons ..).symm

theorem receive_items {q r : Queue α} {a : α} (h : q.receive = .ok (a, r)) :
    q.items = a :: r.items := by
  unfold receive at h
  split at h
  · cases h; assumption
  · cases h

end Queue

end SatLink
