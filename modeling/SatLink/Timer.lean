import SatLink.Queue

/-!
# One-shot timers

A timer posts its message once, when its time is up. Stopping it first cancels the message, and a
queue that does not take the message loses it.
-/

namespace SatLink

/-- A timer with a message. -/
inductive Timer (α : Type) where
  /-- `left` more has to pass. -/
  | running (left : Nat) (message : α)
  | finished
  deriving DecidableEq

namespace Timer

variable {α : Type}

/-- A timer that runs for `duration`. -/
def start (duration : Nat) (message : α) : Timer α := .running duration message

/-- The timer does not run any more. -/
def isFinished : Timer α → Bool
  | .running _ _ => false
  | .finished => true

/-- Ends a timer; what it had to say is lost. -/
def stop (_ : Timer α) : Timer α := .finished

/-- Time passes; answers with the message if that time was up. -/
def elapse (time : Nat) : Timer α → Option α × Timer α
  | .running left message =>
      if left ≤ time then (some message, .finished) else (none, .running (left - time) message)
  | .finished => (none, .finished)

/-- Time passes, and the message goes into a queue. -/
def elapseInto (time : Nat) (t : Timer α) (q : Queue α) : Timer α × Queue α :=
  match t.elapse time with
  | (some message, t) =>
      match q.send message with
      | .ok q => (t, q)
      | .error _ => (t, q)
  | (none, t) => (t, q)

theorem elapse_stop (t : Timer α) (time : Nat) : t.stop.elapse time = (none, .finished) := rfl

end Timer

end SatLink
