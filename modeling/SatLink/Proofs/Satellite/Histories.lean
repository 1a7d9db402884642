import SatLink.Proofs.Session.Activities
import SatLink.Proofs.Uplink.Accumulator
import SatLink.Satellite.Basic

/-!
# What happens on a satellite

The two tasks take turns in any order, while time passes, waits run out, the radio answers as it
likes, and the application posts events and fills the transmit queue. A history notes what happened.

* `Note` — one entry; `Turn` and `Run` — one turn and any number of them, with what is noted;
* `Change` — all that a turn can do, and `Turn.change`: a turn does nothing else;
* `Sound` — what holds after any run (`Run.sound`).
-/

namespace SatLink.Satellite

open Session (State Event Activity Heard Manager Reply Enters Stepped)
open Uplink (Accumulator Decoder)

/-! ## 1. Notes -/

/-- What an observer with access to both tasks and the queues notes. -/
inductive Note where
  /-- The manager hears a byte in a state. -/
  | heard (state : State) (byte : UInt8)
  /-- The manager forwards the byte to the decoder. -/
  | forwarded (state : State) (byte : UInt8)
  | sent (frame : List UInt8)
  /-- The decoder hands a command to the application. -/
  | dispatched (command : Command)
  /-- The event queue takes an event, from the manager itself (`own`) or from another task. -/
  | posted (event : Event) (own : Bool)
  | took (event : Event)
  /-- The manager enters a state that it has not been in. -/
  | entered (state : State)
  deriving DecidableEq

/-- What is noted of an event that a queue takes or refuses. -/
def receipt (event : Event) (own : Bool) : Except SendFault Unit → List Note
  | .ok () => [.posted event own]
  | .error _ => []

/-- What is noted of a reply to the manager. -/
def answered (m : Manager) (reply : Reply) : List Note :=
  match m.activity, reply with
  | .idle, .event event => [.took event]
  | .listening _, .received (.ok (some byte)) => [.heard m.state byte]
  | .forwarding byte _, .queued (.ok ()) => [.forwarded m.state byte]
  | .sending frame _, .performed (.ok ()) | .shipping frame _, .performed (.ok ()) => [.sent frame]
  | .posting event, .queued outcome => receipt event true outcome
  | .reporting _, .queued outcome => receipt .error true outcome
  | _, _ => []

/-- What is noted of the state of a manager that has become another. -/
def moved (m n : Manager) : List Note := ((Manager.entered? m n).map .entered).toList

/-- What is noted of the manager's turn. -/
def noted (m : Manager) (reply : Reply) (n : Manager) : List Note := answered m reply ++ moved m n

theorem moved_same {m n : Manager} (same : n.state = m.state) : moved m n = [] := by
  rw [moved, Manager.entered?, if_pos same]
  rfl

theorem moved_of_ne {m n : Manager} (other : n.state ≠ m.state) :
    moved m n = [.entered n.state] := by
  rw [moved, Manager.entered?, if_neg other]
  rfl

/-- An observer who does not note what state is entered. -/
theorem filterMap_moved {α : Type} {f : Note → Option α}
    (unnoted : ∀ state, f (.entered state) = none)
    (m n : Manager) : (moved m n).filterMap f = [] := by
  unfold moved
  cases Manager.entered? m n with
  | none => rfl
  | some state => exact List.filterMap_cons_none (unnoted state)

/-- An observer who does not note what commands are handed over. -/
theorem filterMap_dispatched {α : Type} {f : Note → Option α}
    (unnoted : ∀ command, f (.dispatched command) = none) (commands : List Command) :
    (commands.map .dispatched).filterMap f = [] := by
  refine List.filterMap_eq_nil_iff.mpr fun note h => ?_
  obtain ⟨command, -, rfl⟩ := List.mem_map.mp h
  exact unnoted command

theorem noted_same {m n : Manager} {reply : Reply} (same : n.state = m.state) :
    noted m reply n = answered m reply := by
  rw [noted, moved_same same, List.append_nil]

/-! ## 2. Turns -/

/-- The manager waits for the radio. -/
def AsksRadio : Activity → Prop
  | .listening _ | .sending _ _ | .shipping _ _ | .reinitializing => True
  | _ => False

/-- One turn of a task, or of its surroundings. The application posts only what it may. -/
inductive Turn (may : Event → Prop) (s : Satellite) : List Note → Satellite → Prop where
  /-- A queue answers the manager. -/
  | queue {reply : Reply} {t : Satellite} (answer : s.answer? = some (reply, t)) :
      Turn may s (noted s.manager reply (t.tell reply).manager) (t.tell reply)
  /-- The radio answers the manager, with whatever it likes. -/
  | radio {reply : Reply} (waits : AsksRadio s.manager.activity)
      (asked : s.manager.activity.Asks reply) :
      Turn may s (noted s.manager reply (s.tell reply).manager) (s.tell reply)
  /-- The decoder takes a byte. -/
  | decode {commands : List Command} {t : Satellite} (h : s.decode? = some (commands, t)) :
      Turn may s (commands.map .dispatched) t
  /-- The decoder posts the event that it holds. -/
  | deliver {event : Event} {t : Satellite} (holds : s.held = some event)
    (h : s.deliver? = some t) :
      Turn may s (receipt event false (s.post event).1) t
  /-- It has waited too long for that. -/
  | forgo : Turn may s [] s.forgo
  /-- The application posts an event. -/
  | post {event : Event} (allowed : may event) :
      Turn may s (receipt event false (s.post event).1) (s.post event).2
  /-- The application does something with the transmit queue. -/
  | supply (downlink : Downlink.Encoder) : Turn may s [] { s with downlink }
  /-- Time passes for both tasks. -/
  | elapse (time : Nat) :
      Turn may s [] { s with manager := s.manager.elapse time, decoder := s.decoder.elapse time }
  /-- The time of a frame is up. -/
  | expire (generation : Nat) : Turn may s [] { s with decoder := s.decoder.expire generation }

/-- Turns one after the other. -/
inductive Run (may : Event → Prop) (s : Satellite) : List Note → Satellite → Prop where
  | start : Run may s [] s
  | turn {notes more : List Note} {t u : Satellite} (run : Run may s notes t)
      (turn : Turn may t more u) : Run may s (notes ++ more) u

section

variable {may : Event → Prop} {s t : Satellite} {notes : List Note} {reply : Reply} {n : Manager}

/-- A turn in which a queue answers, from what the answer does to the manager. -/
theorem Turn.of_queue (answer : s.answer? = some (reply, t))
    (told : t.manager.step t.config t.flow reply = n) (noted_eq : noted s.manager reply n = notes) :
    Turn may s notes { t with manager := n } := by
  subst told noted_eq
  exact .queue answer

variable (reply) in
/-- A turn in which the radio answers, from what the answer does to the manager. -/
theorem Turn.of_radio (waits : AsksRadio s.manager.activity) (asked : s.manager.activity.Asks reply)
    (told : s.manager.step s.config s.flow reply = n) (noted_eq : noted s.manager reply n = notes) :
    Turn may s notes { s with manager := n } := by
  subst told noted_eq
  exact .radio waits asked

theorem Turn.run (turn : Turn may s notes t) : Run may s notes t := .turn .start turn

theorem Run.trans {more : List Note} {u : Satellite} (first : Run may s notes t)
    (second : Run may t more u) : Run may s (notes ++ more) u := by
  induction second with
  | start =>
      rw [List.append_nil]
      exact first
  | turn _ turn ih =>
      rw [← List.append_assoc]
      exact .turn ih turn

end

/-! ## 3. All that a turn can do -/

/-- The manager is at a downlink. -/
def Transmits : Activity → Prop
  | .collecting _ | .shipping _ _ => True
  | _ => False

/-- All that a turn can do. -/
inductive Change (may : Event → Prop) (s : Satellite) : List Note → Satellite → Prop where
  | took {event : Event} {n : Manager} {events : Queue Event} (idle : s.manager.activity = .idle)
      (first : s.events.items = event :: events.items)
      (enters : Enters s.config s.flow s.manager event n) :
      Change may s (.took event :: moved s.manager n) { s with manager := n, events }
  | heard {heard : Heard} (listens : s.manager.activity = .listening heard) (byte : UInt8) :
      Change may s [.heard s.manager.state byte]
        { s with manager := { s.manager with activity := .forwarding byte heard } }
  /-- The manager goes on listening, or is done. -/
  | forwarded {byte : UInt8} {heard : Heard} {bytes : Queue UInt8} {activity : Activity}
      (holds : s.manager.activity = .forwarding byte heard)
      (last : bytes.items = s.bytes.items ++ [byte])
      (next : activity = .idle ∨ ∃ heard, activity = .listening heard) :
      Change may s [.forwarded s.manager.state byte]
        { s with manager := { s.manager with activity }, bytes }
  | again {heard : Heard} (listens : s.manager.activity = .listening heard)
      (waits : s.manager.state = .awaitingAckConn)
      (left : s.manager.retries < s.config.maxConnRetries) :
      Change may s [] { s with manager := { s.manager with
        retries := s.manager.retries + 1, activity := .posting .noAck } }
  | sent {frame : List UInt8} {completion : Event}
      (sends : s.manager.activity = .sending frame completion) :
      Change may s [.sent frame]
        { s with manager := { s.manager with activity := .posting completion } }
  /-- A downlink goes on, or is over. -/
  | transmitted {notes : List Note} {activity : Activity} {downlink : Downlink.Encoder}
      (transmits : Transmits s.manager.activity)
      (next : Transmits activity ∨ activity = .posting .downlinkFinished)
      (noted : notes = [] ∨ ∃ frame, notes = [.sent frame]) :
      Change may s notes { s with manager := { s.manager with activity }, downlink }
  | recovered (recovers : s.manager.activity = .reinitializing) :
      Change may s [] { s with manager := { s.manager with
        activity := .posting .emergencyInitialized } }
  | posted {outcome : Event} {events : Queue Event} (posts : s.manager.activity = .posting outcome)
      (last : events.items = s.events.items ++ [outcome]) :
      Change may s [.posted outcome true]
        { s with manager := { s.manager with activity := .idle }, events }
  | reported {cause : LinkError} {events : Queue Event}
      (reports : s.manager.activity = .reporting cause)
      (last : events.items = s.events.items ++ [.error]) :
      Change may s [.posted .error true]
        { s with manager := { s.manager with activity := .idle }, events }
  | failed {downlink : Downlink.Encoder} (busy : s.manager.activity ≠ .idle)
      (unreported : ∀ cause, s.manager.activity ≠ .reporting cause) (cause : LinkError) :
      Change may s []
        { s with manager := { s.manager with activity := .reporting cause }, downlink }
  /-- A failure cannot be reported. -/
  | reset {cause : LinkError} (reports : s.manager.activity = .reporting cause) :
      Change may s (moved s.manager { s.manager with state := .disconnected, activity := .idle })
        { s with manager := { s.manager with state := .disconnected, activity := .idle } }
  /-- The decoder takes a byte that closes nothing. -/
  | decoded {byte : UInt8} {bytes : Queue UInt8} {decoder : Decoder}
      (first : s.bytes.items = byte :: bytes.items)
      (push : s.decoder.accumulator.push byte = (none, decoder.accumulator)) :
      Change may s [] { s with bytes, decoder }
  /-- The decoder takes a byte that closes a frame. -/
  | framed {byte : UInt8} {bytes : Queue UInt8} {decoder : Decoder} {frame : List UInt8}
      (first : s.bytes.items = byte :: bytes.items)
      (push : s.decoder.accumulator.push byte = (some frame, decoder.accumulator)) :
      Change may s ((s.flow.react frame).commands.map .dispatched)
        { s with bytes, decoder, held := some (s.flow.react frame).event }
  | delivered {event : Event} {events : Queue Event} (holds : s.held = some event)
      (last : events.items = s.events.items ++ [event]) :
      Change may s [.posted event false] { s with events, held := none }
  | lost : Change may s [] { s with held := none }
  | came {event : Event} {events : Queue Event} (allowed : may event)
      (last : events.items = s.events.items ++ [event]) :
      Change may s [.posted event false] { s with events }
  | supplied (downlink : Downlink.Encoder) : Change may s [] { s with downlink }
  /-- Time passes; the frame that was begun may be forgotten. -/
  | passed (window : Option Nat) {decoder : Decoder}
      (kept : decoder.accumulator = s.decoder.accumulator ∨ decoder.accumulator = .hunting) :
      Change may s [] { s with manager := { s.manager with window }, decoder }
  /-- A queue refuses what it is given, and nothing happens. -/
  | refused : Change may s [] s

section

variable {may : Event → Prop} {s t : Satellite}

theorem post_ok {event : Event} (h : s.post event = (.ok (), t)) :
    t = { s with events := t.events } ∧ t.events.items = s.events.items ++ [event] := by
  unfold post at h
  split at h
  next taken =>
    cases h
    exact ⟨rfl, Queue.send_items taken⟩
  next => cases h

theorem post_error {event : Event} {fault : SendFault} (h : s.post event = (.error fault, t)) :
    t = s := by
  unfold post at h
  split at h
  · cases h
  · cases h
    rfl

/-- An event is the answer to an idle manager, and the first in the queue. -/
theorem answer?_event {event : Event} (answer : s.answer? = some (.event event, t)) :
    s.manager.activity = .idle ∧ s.events.items = event :: t.events.items ∧
      t = { s with events := t.events } := by
  unfold answer? at answer
  cases h : s.manager.activity with
  | idle =>
      rw [h] at answer
      dsimp only at answer
      split at answer
      next taken =>
        cases answer
        exact ⟨rfl, Queue.receive_items taken, rfl⟩
      next => cases answer
  | forwarding =>
      rw [h] at answer
      dsimp only at answer
      split at answer <;> cases answer
  | collecting =>
      rw [h] at answer
      dsimp only at answer
      split at answer <;> cases answer
  | _ =>
      rw [h] at answer
      cases answer

/-- Where the state stays as it is, only the reply is noted. -/
theorem change_same {m n : Manager} {reply : Reply} (same : n.state = m.state)
    (h : Change may s (answered m reply) t) : Change may s (noted m reply n) t := by
  rw [noted_same same]
  exact h

/-! What a queue's answer does, activity by activity. -/

section

variable {reply : Reply}

theorem change_of_idle (idle : s.manager.activity = .idle) (answer : s.answer? = some (reply, t)) :
    Change may s (noted s.manager reply (t.tell reply).manager) (t.tell reply) := by
  obtain ⟨c, flow, ⟨state, retries, window, activity⟩, decoder, held, events, bytes, downlink⟩ := s
  obtain rfl : activity = .idle := idle
  unfold answer? at answer
  dsimp only at answer
  cases e : events.receive with
  | ok taken =>
      rw [e] at answer
      cases answer
      exact .took rfl (Queue.receive_items e) (Session.enters_process _ _)
  | error =>
      rw [e] at answer
      cases answer

theorem change_of_forwarding {byte : UInt8} {heard : Heard}
    (holds : s.manager.activity = .forwarding byte heard) (answer : s.answer? = some (reply, t)) :
    Change may s (noted s.manager reply (t.tell reply).manager) (t.tell reply) := by
  obtain ⟨c, flow, ⟨state, retries, window, activity⟩, decoder, held, events, bytes, downlink⟩ := s
  obtain rfl : activity = .forwarding byte heard := holds
  unfold answer? at answer
  dsimp only at answer
  cases e : bytes.send byte with
  | ok more =>
      rw [e] at answer
      cases answer
      have next : (heard.after byte).elim .idle Activity.listening = .idle ∨
          ∃ next, (heard.after byte).elim .idle Activity.listening = .listening next := by
        cases heard.after byte with
        | none => exact .inl rfl
        | some next => exact .inr ⟨next, rfl⟩
      unfold tell
      dsimp only
      rw [Session.step_forwarding rfl]
      exact change_same rfl (.forwarded rfl (Queue.send_items e) next)
  | error fault =>
      rw [e] at answer
      cases answer
      refine change_same rfl (.failed ?_ ?_ _) <;> nofun

theorem change_of_collecting {sent : Nat} (collects : s.manager.activity = .collecting sent)
    (answer : s.answer? = some (reply, t)) :
    Change may s (noted s.manager reply (t.tell reply).manager) (t.tell reply) := by
  obtain ⟨c, flow, ⟨state, retries, window, activity⟩, decoder, held, events, bytes, downlink⟩ := s
  obtain rfl : activity = .collecting sent := collects
  unfold answer? at answer
  dsimp only at answer
  cases e : downlink.queue.receive with
  | ok taken =>
      rw [e] at answer
      obtain ⟨item, queue⟩ := taken
      cases answer
      cases item with
      | packet frame => exact change_same rfl (.transmitted trivial (.inl trivial) (.inl rfl))
      | endOfDownlink => exact change_same rfl (.transmitted trivial (.inr rfl) (.inl rfl))
  | error fault =>
      rw [e] at answer
      cases answer
      cases fault with
      | empty => exact change_same rfl (.transmitted trivial (.inr rfl) (.inl rfl))
      | closed => refine change_same rfl (.failed ?_ ?_ _) <;> nofun

theorem change_of_posting {outcome : Event} (posts : s.manager.activity = .posting outcome)
    (answer : s.answer? = some (reply, t)) :
    Change may s (noted s.manager reply (t.tell reply).manager) (t.tell reply) := by
  obtain ⟨c, flow, ⟨state, retries, window, activity⟩, decoder, held, events, bytes, downlink⟩ := s
  obtain rfl : activity = .posting outcome := posts
  unfold answer? at answer
  dsimp only at answer
  generalize e : post _ outcome = posted at answer
  obtain ⟨taken, u⟩ := posted
  cases answer
  cases taken with
  | ok =>
      obtain ⟨same, last⟩ := post_ok e
      rw [same]
      exact change_same rfl (.posted rfl last)
  | error fault =>
      rw [post_error e]
      refine change_same rfl (.failed ?_ ?_ _) <;> nofun

theorem change_of_reporting {cause : LinkError} (reports : s.manager.activity = .reporting cause)
    (answer : s.answer? = some (reply, t)) :
    Change may s (noted s.manager reply (t.tell reply).manager) (t.tell reply) := by
  obtain ⟨c, flow, ⟨state, retries, window, activity⟩, decoder, held, events, bytes, downlink⟩ := s
  obtain rfl : activity = .reporting cause := reports
  unfold answer? at answer
  dsimp only at answer
  generalize e : post _ .error = posted at answer
  obtain ⟨taken, u⟩ := posted
  cases answer
  cases taken with
  | ok =>
      obtain ⟨same, last⟩ := post_ok e
      rw [same]
      exact change_same rfl (.reported rfl last)
  | error fault =>
      rw [post_error e]
      exact .reset rfl

theorem change_of_queue (answer : s.answer? = some (reply, t)) :
    Change may s (noted s.manager reply (t.tell reply).manager) (t.tell reply) := by
  cases does : s.manager.activity with
  | idle => exact change_of_idle does answer
  | forwarding => exact change_of_forwarding does answer
  | collecting => exact change_of_collecting does answer
  | posting => exact change_of_posting does answer
  | reporting => exact change_of_reporting does answer
  | listening | sending | shipping | reinitializing =>
      unfold answer? at answer
      rw [does] at answer
      cases answer

end

theorem receipt_of_fails {event : Event} {own : Bool} {outcome : Except SendFault Unit}
    (fails : (Reply.queued outcome).Fails) : receipt event own outcome = [] := by
  cases outcome with
  | ok => exact fails.elim
  | error => rfl

theorem answered_of_fails {m : Manager} {reply : Reply} (fails : reply.Fails) :
    answered m reply = [] := by
  unfold answered
  split
  · exact fails.elim
  · exact fails.elim
  · exact fails.elim
  · exact fails.elim
  · exact fails.elim
  · exact receipt_of_fails fails
  · exact receipt_of_fails fails
  · rfl

theorem change_of_radio {reply : Reply} (waits : AsksRadio s.manager.activity)
    (asked : s.manager.activity.Asks reply) :
    Change may s (noted s.manager reply (s.tell reply).manager) (s.tell reply) := by
  have stepped : Stepped s.config s.flow s.manager reply (s.tell reply).manager :=
    Session.stepped asked
  unfold tell at stepped ⊢
  dsimp only at stepped ⊢
  generalize s.manager.step s.config s.flow reply = n at stepped ⊢
  cases stepped with
  | heard listens byte =>
      refine change_same rfl ?_
      unfold answered
      rw [listens]
      exact .heard listens byte
  | again listens silent state left =>
      refine change_same rfl ?_
      rw [answered_of_fails silent]
      exact .again listens state left
  | sent sends =>
      refine change_same rfl ?_
      unfold answered
      rw [sends]
      exact .sent sends
  | shipped ships =>
      refine change_same rfl ?_
      unfold answered
      rw [ships]
      exact .transmitted (ships ▸ trivial) (.inl trivial) (.inr ⟨_, rfl⟩)
  | full ships =>
      refine change_same rfl ?_
      unfold answered
      rw [ships]
      exact .transmitted (ships ▸ trivial) (.inr rfl) (.inr ⟨_, rfl⟩)
  | recovered recovers =>
      refine change_same rfl ?_
      unfold answered
      rw [recovers]
      exact .recovered recovers
  | failed busy unreported fails cause =>
      refine change_same rfl ?_
      rw [answered_of_fails fails]
      exact .failed busy unreported cause
  | took h | forwarded h | closed h | packet h | drained h | posted h | reported h | reset h =>
      rw [h] at waits
      exact waits.elim

theorem push_cases {frame : Option (List UInt8)} {decoder : Decoder} {byte : UInt8}
    (h : s.decoder.push s.config.flagTimeout byte = (frame, decoder)) :
    s.decoder.accumulator.push byte = (frame, decoder.accumulator) := by
  obtain ⟨handed, next⟩ := s.decoder.push_eq s.config.flagTimeout byte
  rw [h] at handed next
  exact Prod.ext handed.symm next.symm

theorem change_of_decode {commands : List Command} (h : s.decode? = some (commands, t)) :
    Change may s (commands.map .dispatched) t := by
  unfold decode? at h
  split at h
  · cases h
  · cases h
  next byte bytes unheld first =>
    split at h
    next push =>
      cases h
      exact .decoded (Queue.receive_items first) (push_cases push)
    next push =>
      cases h
      exact .framed (Queue.receive_items first) (push_cases push)

theorem change_of_deliver {event : Event} (holds : s.held = some event) (h : s.deliver? = some t) :
    Change may s (receipt event false (s.post event).1) t := by
  unfold deliver? at h
  rw [holds] at h
  dsimp only at h
  generalize e : s.post event = posted at h ⊢
  obtain ⟨taken, u⟩ := posted
  cases taken with
  | ok =>
      obtain ⟨same, last⟩ := post_ok e
      cases h
      rw [same]
      exact .delivered holds last
  | error fault =>
      cases fault with
      | full => cases h
      | closed =>
          cases h
          rw [post_error e]
          exact .lost

theorem change_of_post {event : Event} (allowed : may event) :
    Change may s (receipt event false (s.post event).1) (s.post event).2 := by
  generalize e : s.post event = posted
  obtain ⟨taken, u⟩ := posted
  cases taken with
  | ok =>
      obtain ⟨same, last⟩ := post_ok e
      rw [same]
      exact .came allowed last
  | error fault =>
      rw [post_error e]
      exact .refused

theorem expire_cases (d : Decoder) (generation : Nat) :
    (d.expire generation).accumulator = d.accumulator ∨
      (d.expire generation).accumulator = .hunting := by
  unfold Decoder.expire
  split
  · exact .inr rfl
  · exact .inl rfl

theorem elapse_cases (d : Decoder) (time : Nat) :
    (d.elapse time).accumulator = d.accumulator ∨ (d.elapse time).accumulator = .hunting := by
  unfold Decoder.elapse
  split
  · exact expire_cases _ _
  · exact .inl rfl

/-- **A turn does nothing else.** -/
theorem Turn.change {notes : List Note} (turn : Turn may s notes t) : Change may s notes t := by
  cases turn with
  | queue answer => exact change_of_queue answer
  | radio waits asked => exact change_of_radio waits asked
  | decode h => exact change_of_decode h
  | deliver holds h => exact change_of_deliver holds h
  | forgo => exact .lost
  | post allowed => exact change_of_post allowed
  | supply downlink => exact .supplied downlink
  | elapse time => exact .passed _ (elapse_cases _ _)
  | expire generation => exact .passed _ (expire_cases _ _)

/-! ## 4. What holds after any run -/

/-- What a frame turns into is none of the manager's own events. -/
theorem not_isCompletion_react (flow : Uplink.Flow) (frame : List UInt8) :
    ¬ (flow.react frame).event.IsCompletion := by
  unfold Uplink.Flow.react
  split
  next command _ _ => cases command <;> exact fun completion => completion rfl
  next =>
    unfold Uplink.commandsEvent
    split <;> exact fun completion => completion rfl
  next => exact fun completion => completion rfl

/-- What holds of a satellite whatever happens to it. -/
structure Sound (s : Satellite) : Prop where
  does : s.manager.state.Does s.flow s.manager.activity
  retries_le : s.manager.retries ≤ s.config.maxConnRetries
  held : ∀ event, s.held = some event → ¬ event.IsCompletion

theorem sound_make (c : Config) (addresses : LinkAddresses) : Sound (make c addresses) where
  does := trivial
  retries_le := Nat.zero_le _
  held := nofun

theorem downlinking_of_transmits {flow : Uplink.Flow} {state : State} {activity : Activity}
    (does : state.Does flow activity) (transmits : Transmits activity) : state = .downlinking := by
  cases activity with
  | collecting | shipping => exact does
  | _ => exact transmits.elim

theorem does_of_transmits {flow : Uplink.Flow} {activity : Activity}
    (transmits : Transmits activity) :
    State.Does flow .downlinking activity := by
  cases activity with
  | collecting | shipping => exact rfl
  | _ => exact transmits.elim

theorem Change.settings {notes : List Note} (change : Change may s notes t) :
    t.config = s.config ∧ t.flow = s.flow := by
  cases change <;> exact ⟨rfl, rfl⟩

theorem Change.does {notes : List Note} (change : Change may s notes t)
    (does : s.manager.state.Does s.flow s.manager.activity) :
    t.manager.state.Does t.flow t.manager.activity := by
  cases change with
  | took _ _ enters => exact enters.begins.does
  | heard listens =>
      rw [listens] at does
      exact does
  | forwarded holds _ next =>
      rw [holds] at does
      rcases next with rfl | ⟨_, rfl⟩
      · exact trivial
      · exact does
  | again _ waits => exact congrArg some waits.symm
  | sent sends =>
      rw [sends] at does
      exact does.1
  | transmitted transmits next =>
      have downlinking := downlinking_of_transmits does transmits
      dsimp only
      rw [downlinking]
      rcases next with transmits | rfl
      · exact does_of_transmits transmits
      · exact rfl
  | recovered recovers =>
      rw [recovers] at does
      exact congrArg some (Eq.symm does)
  | failed busy => exact does.ne_disconnected busy
  | posted | reported | reset => exact trivial
  | _ => exact does

theorem Change.sound {notes : List Note} (change : Change may s notes t) (sound : Sound s) :
    Sound t where
  does := change.does sound.does
  retries_le := by
    cases change with
    | took _ _ enters =>
        dsimp only
        rw [enters.retries_eq]
        split
        · exact Nat.zero_le _
        · exact sound.retries_le
    | again _ _ left => exact left
    | _ => exact sound.retries_le
  held := by
    cases change with
    | framed =>
        rintro _ ⟨⟩
        exact not_isCompletion_react _ _
    | delivered | lost => nofun
    | _ => exact sound.held

theorem Run.sound {notes : List Note} (run : Run may s notes t) (sound : Sound s) : Sound t := by
  induction run with
  | start => exact sound
  | turn _ turn ih => exact turn.change.sound ih

theorem Run.settings {notes : List Note} (run : Run may s notes t) :
    t.config = s.config ∧ t.flow = s.flow := by
  induction run with
  | start => exact ⟨rfl, rfl⟩
  | turn _ turn ih =>
      obtain ⟨config, flow⟩ := turn.change.settings
      exact ⟨config.trans ih.1, flow.trans ih.2⟩

/-! ## 5. Sessions that nothing disturbs -/

/-- The event queue is empty, and takes an event. -/
structure Unqueued (s : Satellite) : Prop where
  empty : s.events.items = []
  reads : s.events.hasReader = true
  room : 0 < s.events.capacity

theorem Unqueued.post (free : Unqueued s) (event : Event) :
    s.post event = (.ok (), { s with events := { s.events with items := [event] } }) := by
  have taken : s.events.send event = .ok { s.events with items := [event] } := by
    rw [Queue.send_of_lt free.reads (by rw [free.empty]; exact free.room), free.empty]
    rfl
  unfold Satellite.post
  rw [taken]

/-- A queue of one event, when that event is taken. -/
theorem Unqueued.answer? (free : Unqueued s) {m : Manager} (idle : m.activity = .idle)
    (event : Event) :
    { s with manager := m, events := { s.events with items := [event] } }.answer? =
      some (.event event, { s with manager := m }) := by
  obtain ⟨config, flow, manager, decoder, held, ⟨capacity, items, reader, writer⟩, bytes,
      downlink⟩ := s
  obtain ⟨empty, -, -⟩ := free
  cases empty
  unfold Satellite.answer?
  dsimp only
  rw [idle]
  rfl

theorem unqueued_make {c : Config} {addresses : LinkAddresses} (room : 0 < c.eventQueueLength)
    (m : Manager) : Unqueued { make c addresses with manager := m } := ⟨rfl, rfl, room⟩

theorem Unqueued.manager (free : Unqueued s) (m : Manager) : Unqueued { s with manager := m } :=
  ⟨free.empty, free.reads, free.room⟩

/-- The application posts an event. -/
theorem Unqueued.posts (free : Unqueued s) {event : Event} (allowed : may event) :
    Turn may s [.posted event false] { s with events := { s.events with items := [event] } } := by
  have turn : Turn may s _ _ := .post allowed
  rw [free.post event] at turn
  exact turn

/-- An idle manager takes it. -/
theorem Unqueued.takes (free : Unqueued s) (idle : s.manager.activity = .idle) {event : Event}
    (allowed : may event) {n : Manager} (told : s.manager.process s.config s.flow event = n) :
    Run may s (.posted event false :: .took event :: moved s.manager n)
      { s with manager := n } := by
  have stepped : s.manager.step s.config s.flow (.event event) = n := by
    unfold Manager.step
    rw [idle]
    exact told
  refine (free.posts allowed).run.turn (.of_queue (free.answer? idle event) stepped ?_)
  unfold noted answered
  rw [idle]
  rfl

/-- The manager posts its outcome, and takes it. -/
theorem Unqueued.completes (free : Unqueued s) {event : Event}
    (posts : s.manager.activity = .posting event) {n : Manager}
    (told : Manager.process { s.manager with activity := .idle } s.config s.flow event = n) :
    Run may s (.posted event true :: .took event :: moved s.manager n) { s with manager := n } := by
  have answer : s.answer? =
      some (.queued (.ok ()), { s with events := { s.events with items := [event] } }) := by
    unfold Satellite.answer?
    rw [posts]
    dsimp only
    rw [free.post event]
  have posted : Turn may s [.posted event true] { s with
      manager := { s.manager with activity := .idle }
      events := { s.events with items := [event] } } := by
    refine .of_queue answer ?_ ?_
    · unfold Manager.step
      rw [posts]
    · refine (noted_same rfl).trans ?_
      unfold answered
      rw [posts]
      rfl
  exact posted.run.turn (.of_queue (t := { s with manager := { s.manager with activity := .idle } })
    (free.answer? rfl event) told rfl)

/-- The manager sends a frame, posts that it did, and takes that. -/
theorem Unqueued.sends (free : Unqueued s) {state : State} {retries : Nat} {window : Option Nat}
    {frame : List UInt8} {completion : Event}
    (sends : s.manager = ⟨state, retries, window, .sending frame completion⟩) {n : Manager}
    (told : Manager.process ⟨state, retries, window, .idle⟩ s.config s.flow completion = n) :
    Run may s (.sent frame :: .posted completion true :: .took completion :: moved s.manager n)
      { s with manager := n } := by
  have sent : Turn may s [.sent frame]
      { s with manager := ⟨state, retries, window, .posting completion⟩ } :=
    .of_radio (.performed (.ok ())) (sends ▸ trivial) (sends ▸ trivial) (sends ▸ rfl)
      (sends ▸ noted_same rfl)
  rw [sends]
  exact sent.run.trans ((free.manager _).completes rfl told)

/-- An emergency session begins: the radio comes back, and the connection is asked for. -/
theorem Unqueued.requests (free : Unqueued s) {retries : Nat} {frame : List UInt8}
    (encoded : s.flow.encodeControl .conn true = .ok frame)
    (recovers : s.manager = ⟨.enteringEmergency, retries, none, .reinitializing⟩) :
    Run may s
      [.posted .emergencyInitialized true, .took .emergencyInitialized, .entered .sendingConn,
        .sent frame, .posted .connSent true, .took .connSent, .entered .awaitingAckConn]
      { s with
        manager := ⟨.awaitingAckConn, retries, some s.config.ackTimeout,
          .listening .nothing⟩ } := by
  have recovered : Turn may s []
      { s with manager := ⟨.enteringEmergency, retries, none, .posting .emergencyInitialized⟩ } :=
    .of_radio (.performed (.ok ())) (recovers ▸ trivial) (recovers ▸ trivial) (recovers ▸ rfl)
      (recovers ▸ rfl)
  have asks : Manager.process ⟨.enteringEmergency, retries, none, .idle⟩ s.config s.flow
      .emergencyInitialized = ⟨.sendingConn, retries, none, .sending frame .connSent⟩ :=
    Session.sendControl_eq ⟨.sendingConn, retries, none, .idle⟩ encoded .connSent
  have completed : Run may _ _ _ :=
    (free.manager ⟨.enteringEmergency, retries, none, .posting .emergencyInitialized⟩).completes
      rfl asks
  have sent : Run may _ _ _ :=
    (free.manager ⟨.sendingConn, retries, none, .sending frame .connSent⟩).sends rfl rfl
  exact (recovered.run.trans completed).trans sent

end

end SatLink.Satellite
