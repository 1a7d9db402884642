import SatLink.Proofs.Uplink.RoundTrip
import SatLink.Session.Manager

/-!
# What the manager does in each state

A state that sends or transmits ends with a completion event of its own, which the manager posts and
which no other state takes.

* `Event.home?` — the state whose activity ends with an event;
* `State.Does` — what the manager can be at in a state;
* `Begins` — what it begins with there;
* `Stepped` — all that a reply can do, and `stepped`: a step does nothing else.
-/

namespace SatLink.Session

/-! ## 1. Completion events -/

/-- The state whose activity ends with this event. -/
def Event.home? : Event → Option State
  | .connSent => some .sendingConn
  | .ackSent => some .sendingAck
  | .discSent => some .sendingDisc
  | .noAck => some .awaitingAckConn
  | .downlinkFinished => some .downlinking
  | .emergencyInitialized => some .enteringEmergency
  | _ => none

/-- An event that only the manager itself posts. -/
def Event.IsCompletion (event : Event) : Prop := event.home? ≠ none

instance (event : Event) : Decidable event.IsCompletion :=
  inferInstanceAs (Decidable (_ ≠ _))

theorem Event.not_isCompletion_error : ¬ Event.error.IsCompletion := by decide

theorem Event.eq_of_home? {event other : Event} {state : State} (home : event.home? = some state)
    (same : other.home? = some state) : event = other := by
  cases event <;> cases home <;> cases other <;> first | rfl | cases same

/-- **A completion event is taken at home only.** -/
theorem home?_of_transition? {state next : State} {event : Event}
    (taken : transition? state event = some next) (completion : event.IsCompletion) :
    event.home? = some state := by
  cases event with
  | connSent | ackSent | discSent | noAck | downlinkFinished | emergencyInitialized =>
      cases state with
      | _ => first | rfl | cases taken
  | _ => exact absurd rfl completion

/-- The state that an event leads to; one that is not taken ends the session. -/
def State.upon (state : State) (event : Event) : State :=
  (transition? state event).getD .disconnected

/-- Unless it ends the session, an event is one that the state takes. -/
theorem State.transition?_of_upon {state : State} {event : Event}
    (goesOn : state.upon event ≠ .disconnected) :
    transition? state event = some (state.upon event) := by
  unfold upon at goesOn ⊢
  cases e : transition? state event with
  | none =>
      rw [e] at goesOn
      exact absurd rfl goesOn
  | some next => rfl

/-! ### Emergencies

What a state of an emergency takes, unless the session ends. -/

section

variable {event : Event} {after : State}

theorem cases_of_enteringEmergency (taken : transition? .enteringEmergency event = some after)
    (goesOn : after ≠ .disconnected) : event = .emergencyInitialized ∧ after = .sendingConn := by
  cases event <;> cases taken
  all_goals first
    | exact ⟨rfl, rfl⟩
    | exact absurd rfl goesOn

theorem cases_of_sendingConn (taken : transition? .sendingConn event = some after)
    (goesOn : after ≠ .disconnected) : event = .connSent ∧ after = .awaitingAckConn := by
  cases event <;> cases taken
  all_goals first
    | exact ⟨rfl, rfl⟩
    | exact absurd rfl goesOn

theorem cases_of_awaitingAckConn (taken : transition? .awaitingAckConn event = some after)
    (goesOn : after ≠ .disconnected) : (event = .frameDropped ∧ after = .awaitingAckConn) ∨
      after = .emergencyUplink ∨ (event = .noAck ∧ after = .sendingConn) := by
  cases event <;> cases taken
  all_goals first
    | exact .inl ⟨rfl, rfl⟩
    | exact .inr (.inl rfl)
    | exact .inr (.inr ⟨rfl, rfl⟩)
    | exact absurd rfl goesOn

theorem cases_of_emergencyUplink (taken : transition? .emergencyUplink event = some after)
    (goesOn : after ≠ .disconnected) : after = .emergencyUplink := by
  cases event <;> cases taken
  all_goals first
    | rfl
    | exact absurd rfl goesOn

end

/-! ## 2. The activities of a state -/

/-- What a state sends to the ground. -/
def State.control? : State → Option Frame.Control
  | .sendingConn => some .conn
  | .sendingAck => some .ack
  | .sendingDisc => some .disc
  | _ => none

/-- What the manager can be at in a state. -/
def State.Does (flow : Uplink.Flow) (state : State) : Activity → Prop
  | .idle => True
  | .listening _ | .forwarding _ _ => state.isReceiving = true
  | .sending frame completion => completion.home? = some state ∧
      ∃ command, state.control? = some command ∧ flow.encodeControl command true = .ok frame
  | .collecting _ | .shipping _ _ => state = .downlinking
  | .reinitializing => state = .enteringEmergency
  | .posting outcome => outcome.home? = some state
  | .reporting _ => state ≠ .disconnected

/-- What the manager begins with in a state. -/
inductive Begins (c : Config) (flow : Uplink.Flow) : State → Activity → Prop where
  | rest : Begins c flow .disconnected .idle
  | listen {state : State} (receiving : state.isReceiving = true) :
      Begins c flow state (.listening .nothing)
  | send {state : State} {command : Frame.Control} {frame : List UInt8} {completion : Event}
      (sends : state.control? = some command)
      (encoded : flow.encodeControl command true = .ok frame)
      (home : completion.home? = some state) : Begins c flow state (.sending frame completion)
  | collect (allowed : 0 < c.maxDownlinkFrames) : Begins c flow .downlinking (.collecting 0)
  | finish : Begins c flow .downlinking (.posting .downlinkFinished)
  | recover : Begins c flow .enteringEmergency .reinitializing

theorem State.ne_disconnected_of_isReceiving {state : State}
    (receiving : state.isReceiving = true) :
    state ≠ .disconnected := by
  rintro rfl
  cases receiving

theorem Event.home?_ne_disconnected {event : Event} {state : State}
    (home : event.home? = some state) : state ≠ .disconnected := by
  rintro rfl
  cases event <;> cases home

section

variable {c : Config} {flow : Uplink.Flow} {state : State} {activity : Activity}

theorem Begins.does (begins : Begins c flow state activity) : state.Does flow activity := by
  cases begins with
  | rest => exact trivial
  | listen receiving => exact receiving
  | send sends encoded home => exact ⟨home, _, sends, encoded⟩
  | collect | finish | recover => exact rfl

/-- At rest, and nowhere else, there is nothing to begin with. -/
theorem Begins.idle_iff (begins : Begins c flow state activity) :
    activity = .idle ↔ state = .disconnected := by
  cases begins with
  | rest => exact ⟨fun _ => rfl, fun _ => rfl⟩
  | listen receiving =>
      exact ⟨nofun, fun e => absurd e (State.ne_disconnected_of_isReceiving receiving)⟩
  | send _ _ home => exact ⟨nofun, fun e => absurd e (Event.home?_ne_disconnected home)⟩
  | collect | finish | recover => exact ⟨nofun, nofun⟩

/-- An idle manager rests, or has left an event behind; in any other activity it is not at rest. -/
theorem State.Does.ne_disconnected (does : state.Does flow activity) (busy : activity ≠ .idle) :
    state ≠ .disconnected := by
  cases activity with
  | idle => exact absurd rfl busy
  | listening | forwarding => exact ne_disconnected_of_isReceiving does
  | sending => exact Event.home?_ne_disconnected does.1
  | posting => exact Event.home?_ne_disconnected does
  | collecting | shipping | reinitializing =>
      rw [show state = _ from does]
      exact nofun
  | reporting => exact does

/-! ## 3. Steps -/

/-- The reply answers what the activity waits for. -/
def Activity.Asks : Activity → Reply → Prop
  | .idle, .event _ | .listening _, .received _ | .forwarding _ _, .queued _
  | .sending _ _, .performed _ | .collecting _, .collected _ | .shipping _ _, .performed _
  | .reinitializing, .performed _ | .posting _, .queued _ | .reporting _, .queued _ => True
  | _, _ => False

/-- The reply says that something failed, or did not happen in time. -/
def Reply.Fails : Reply → Prop
  | .received (.ok none) | .received (.error _) | .queued (.error _) | .collected (.error _)
  | .performed (.error _) => True
  | _ => False

/-- What becomes of a manager that takes an event. -/
structure Enters (c : Config) (flow : Uplink.Flow) (m : Manager) (event : Event) (n : Manager) :
    Prop where
  state_eq : n.state = m.state.upon event
  retries_eq : n.retries = if n.state = .disconnected then 0 else m.retries
  begins : Begins c flow n.state n.activity

theorem sendControl_eq {frame : List UInt8} {command : Frame.Control} (m : Manager)
    (encoded : flow.encodeControl command true = .ok frame) (completion : Event) :
    m.sendControl flow command completion = { m with activity := .sending frame completion } := by
  unfold Manager.sendControl
  rw [encoded]

theorem enters_sendControl {m n : Manager} {event completion : Event} {command : Frame.Control}
    (state_eq : m.state = n.state.upon event) (retries_eq : m.retries = n.retries)
    (sends : m.state.control? = some command) (home : completion.home? = some m.state) :
    Enters c flow n event (m.sendControl flow command completion) := by
  obtain ⟨frame, encoded⟩ := flow.exists_control command true
  rw [sendControl_eq m encoded]
  refine ⟨state_eq, ?_, .send sends encoded home⟩
  rw [if_neg (Event.home?_ne_disconnected home)]
  exact retries_eq

theorem enters_process (m : Manager) (event : Event) :
    Enters c flow m event (m.process c flow event) := by
  unfold Manager.process
  generalize hs : (transition? m.state event).getD .disconnected = entered
  have state_eq : entered = m.state.upon event := hs.symm
  dsimp only
  generalize (if event == .frameDropped && entered.isReceiving then m.window else none) = window
  unfold Manager.start
  cases entered with
  | disconnected => exact ⟨state_eq, rfl, .rest⟩
  | awaitingConn | awaitingAckDisc | awaitingAckConn | uplinking | emergencyUplink =>
      exact ⟨state_eq, rfl, .listen rfl⟩
  | sendingConn | sendingAck | sendingDisc => exact enters_sendControl state_eq rfl rfl rfl
  | downlinking =>
      dsimp only
      unfold Manager.collect
      split
      · exact ⟨state_eq, rfl, .collect ‹_›⟩
      · exact ⟨state_eq, rfl, .finish⟩
  | enteringEmergency => exact ⟨state_eq, rfl, .recover⟩

/-- All that a reply can do. -/
inductive Stepped (c : Config) (flow : Uplink.Flow) (m : Manager) : Reply → Manager → Prop where
  /-- An idle manager takes an event. -/
  | took {event : Event} {n : Manager} (idle : m.activity = .idle)
      (enters : Enters c flow m event n) : Stepped c flow m (.event event) n
  | heard {heard : Heard} (listens : m.activity = .listening heard) (byte : UInt8) :
      Stepped c flow m (.received (.ok (some byte))) { m with activity := .forwarding byte heard }
  /-- Nothing is heard, and the connection is asked for again. -/
  | again {reply : Reply} {heard : Heard} (listens : m.activity = .listening heard)
      (silent : reply.Fails) (waits : m.state = .awaitingAckConn)
      (left : m.retries < c.maxConnRetries) :
      Stepped c flow m reply { m with retries := m.retries + 1, activity := .posting .noAck }
  | forwarded {byte : UInt8} {heard next : Heard} (holds : m.activity = .forwarding byte heard)
      (more : heard.after byte = some next) :
      Stepped c flow m (.queued (.ok ())) { m with activity := .listening next }
  | closed {byte : UInt8} {heard : Heard} (holds : m.activity = .forwarding byte heard)
      (last : heard.after byte = none) :
      Stepped c flow m (.queued (.ok ())) { m with activity := .idle }
  | sent {frame : List UInt8} {completion : Event}
    (sends : m.activity = .sending frame completion) :
      Stepped c flow m (.performed (.ok ())) { m with activity := .posting completion }
  | packet {sent : Nat} (collects : m.activity = .collecting sent) (frame : List UInt8) :
      Stepped c flow m (.collected (.ok (.packet frame)))
        { m with activity := .shipping frame sent }
  /-- The transmit queue has no more for this downlink. -/
  | drained {sent : Nat} {outcome : Except ReceiveFault Downlink.Item}
      (collects : m.activity = .collecting sent) :
      Stepped c flow m (.collected outcome) { m with activity := .posting .downlinkFinished }
  | shipped {frame : List UInt8} {sent : Nat} (ships : m.activity = .shipping frame sent)
      (more : sent + 1 < c.maxDownlinkFrames) :
      Stepped c flow m (.performed (.ok ())) { m with activity := .collecting (sent + 1) }
  | full {frame : List UInt8} {sent : Nat} (ships : m.activity = .shipping frame sent) :
      Stepped c flow m (.performed (.ok ())) { m with activity := .posting .downlinkFinished }
  | recovered (recovers : m.activity = .reinitializing) :
      Stepped c flow m (.performed (.ok ())) { m with activity := .posting .emergencyInitialized }
  | posted {outcome : Event} (posts : m.activity = .posting outcome) :
      Stepped c flow m (.queued (.ok ())) { m with activity := .idle }
  | reported {cause : LinkError} (reports : m.activity = .reporting cause) :
      Stepped c flow m (.queued (.ok ())) { m with activity := .idle }
  /-- An activity fails. -/
  | failed {reply : Reply} (busy : m.activity ≠ .idle)
      (unreported : ∀ cause, m.activity ≠ .reporting cause) (fails : reply.Fails)
      (cause : LinkError) : Stepped c flow m reply { m with activity := .reporting cause }
  /-- That cannot even be reported. -/
  | reset {cause : LinkError} {fault : SendFault} (reports : m.activity = .reporting cause) :
      Stepped c flow m (.queued (.error fault)) { m with state := .disconnected, activity := .idle }

theorem stepped_timedOut {m : Manager} {heard : Heard} {reply : Reply}
    (listens : m.activity = .listening heard) (silent : reply.Fails) :
    Stepped c flow m reply (m.timedOut c) := by
  unfold Manager.timedOut
  split
  next left => exact .again listens silent left.1 left.2
  next => exact .failed (by rw [listens]; nofun) (by rw [listens]; nofun) silent .timeout

/-- An activity that can be reported fails. -/
theorem stepped_fail {m : Manager} {activity : Activity} {reply : Reply} {cause : LinkError}
    (does : m.activity = activity) (busy : activity ≠ .idle)
    (unreported : ∀ cause, activity ≠ .reporting cause) (fails : reply.Fails) :
    Stepped c flow m reply (m.fail cause) := by
  subst does
  exact .failed busy unreported fails cause

theorem stepped_idle {m : Manager} (idle : m.activity = .idle) (event : Event) :
    Stepped c flow m (.event event) (m.step c flow (.event event)) := by
  unfold Manager.step
  rw [idle]
  exact .took idle (enters_process m event)

theorem stepped_listening {m : Manager} {heard : Heard} (listens : m.activity = .listening heard)
    (outcome : Except LinkError (Option UInt8)) :
    Stepped c flow m (.received outcome) (m.step c flow (.received outcome)) := by
  unfold Manager.step
  rw [listens]
  cases outcome with
  | ok byte =>
      cases byte with
      | none => exact stepped_timedOut listens trivial
      | some byte => exact .heard listens byte
  | error cause =>
      cases cause with
      | timeout => exact stepped_timedOut listens trivial
      | _ => exact stepped_fail listens nofun nofun trivial

theorem stepped_forwarding {m : Manager} {byte : UInt8} {heard : Heard}
    (holds : m.activity = .forwarding byte heard) (outcome : Except SendFault Unit) :
    Stepped c flow m (.queued outcome) (m.step c flow (.queued outcome)) := by
  unfold Manager.step
  rw [holds]
  cases outcome with
  | error fault => exact stepped_fail holds nofun nofun trivial
  | ok =>
      dsimp only
      cases e : heard.after byte with
      | none => exact .closed holds e
      | some next => exact .forwarded holds e

theorem stepped_sending {m : Manager} {frame : List UInt8} {completion : Event}
    (sends : m.activity = .sending frame completion) (outcome : Except LinkError Unit) :
    Stepped c flow m (.performed outcome) (m.step c flow (.performed outcome)) := by
  unfold Manager.step
  rw [sends]
  cases outcome with
  | ok => exact .sent sends
  | error cause => exact stepped_fail sends nofun nofun trivial

theorem stepped_collecting {m : Manager} {sent : Nat} (collects : m.activity = .collecting sent)
    (outcome : Except ReceiveFault Downlink.Item) :
    Stepped c flow m (.collected outcome) (m.step c flow (.collected outcome)) := by
  unfold Manager.step
  rw [collects]
  cases outcome with
  | ok item =>
      cases item with
      | packet frame => exact .packet collects frame
      | endOfDownlink => exact .drained collects
  | error fault =>
      cases fault with
      | empty => exact .drained collects
      | closed => exact stepped_fail collects nofun nofun trivial

theorem stepped_shipping {m : Manager} {frame : List UInt8} {sent : Nat}
    (ships : m.activity = .shipping frame sent) (outcome : Except LinkError Unit) :
    Stepped c flow m (.performed outcome) (m.step c flow (.performed outcome)) := by
  unfold Manager.step
  rw [ships]
  cases outcome with
  | error cause => exact stepped_fail ships nofun nofun trivial
  | ok =>
      dsimp only
      unfold Manager.collect
      split
      next more => exact .shipped ships more
      next => exact .full ships

theorem stepped_reinitializing {m : Manager} (recovers : m.activity = .reinitializing)
    (outcome : Except LinkError Unit) :
    Stepped c flow m (.performed outcome) (m.step c flow (.performed outcome)) := by
  unfold Manager.step
  rw [recovers]
  cases outcome with
  | ok => exact .recovered recovers
  | error cause => exact stepped_fail recovers nofun nofun trivial

theorem stepped_posting {m : Manager} {event : Event} (posts : m.activity = .posting event)
    (outcome : Except SendFault Unit) :
    Stepped c flow m (.queued outcome) (m.step c flow (.queued outcome)) := by
  unfold Manager.step
  rw [posts]
  cases outcome with
  | ok => exact .posted posts
  | error fault => exact stepped_fail posts nofun nofun trivial

theorem stepped_reporting {m : Manager} {cause : LinkError}
    (reports : m.activity = .reporting cause) (outcome : Except SendFault Unit) :
    Stepped c flow m (.queued outcome) (m.step c flow (.queued outcome)) := by
  unfold Manager.step
  rw [reports]
  cases outcome with
  | ok => exact .reported reports
  | error fault => exact .reset reports

/-- **A step does nothing else.** -/
theorem stepped {m : Manager} {reply : Reply} (asked : m.activity.Asks reply) :
    Stepped c flow m reply (m.step c flow reply) := by
  cases h : m.activity with
  | idle =>
      rw [h] at asked
      cases reply with
      | event event => exact stepped_idle h event
      | _ => exact asked.elim
  | listening heard =>
      rw [h] at asked
      cases reply with
      | received outcome => exact stepped_listening h outcome
      | _ => exact asked.elim
  | forwarding byte heard =>
      rw [h] at asked
      cases reply with
      | queued outcome => exact stepped_forwarding h outcome
      | _ => exact asked.elim
  | sending frame completion =>
      rw [h] at asked
      cases reply with
      | performed outcome => exact stepped_sending h outcome
      | _ => exact asked.elim
  | collecting sent =>
      rw [h] at asked
      cases reply with
      | collected outcome => exact stepped_collecting h outcome
      | _ => exact asked.elim
  | shipping frame sent =>
      rw [h] at asked
      cases reply with
      | performed outcome => exact stepped_shipping h outcome
      | _ => exact asked.elim
  | reinitializing =>
      rw [h] at asked
      cases reply with
      | performed outcome => exact stepped_reinitializing h outcome
      | _ => exact asked.elim
  | posting event =>
      rw [h] at asked
      cases reply with
      | queued outcome => exact stepped_posting h outcome
      | _ => exact asked.elim
  | reporting cause =>
      rw [h] at asked
      cases reply with
      | queued outcome => exact stepped_reporting h outcome
      | _ => exact asked.elim

theorem step_of_not_asks {m : Manager} {reply : Reply} (unasked : ¬ m.activity.Asks reply) :
    m.step c flow reply = m := by
  unfold Manager.step
  cases h : m.activity <;> cases reply <;> first
    | rfl
    | exact absurd (h ▸ trivial) unasked

/-- A byte that the decoder's queue takes is the last of a call, or is followed by the next. -/
theorem step_forwarding {m : Manager} {byte : UInt8} {heard : Heard}
    (holds : m.activity = .forwarding byte heard) : m.step c flow (.queued (.ok ())) =
      { m with activity := (heard.after byte).elim .idle .listening } := by
  unfold Manager.step
  rw [holds]
  dsimp only
  cases heard.after byte <;> rfl

variable {m n : Manager} {reply : Reply}

/-- **Whatever happens, the manager is at something that its state does.** -/
theorem Stepped.does (stepped : Stepped c flow m reply n) (does : m.state.Does flow m.activity) :
    n.state.Does flow n.activity := by
  cases stepped with
  | took _ enters => exact enters.begins.does
  | heard holds | forwarded holds | packet holds | shipped holds =>
      rw [holds] at does
      exact does
  | sent sends =>
      rw [sends] at does
      exact does.1
  | again _ _ waits => exact congrArg some waits.symm
  | closed | posted | reported | reset => exact trivial
  | drained holds | full holds | recovered holds =>
      rw [holds] at does
      exact congrArg some (Eq.symm does)
  | failed busy => exact does.ne_disconnected busy

/-- The attempts to connect stay within their limit. -/
theorem Stepped.retries_le (stepped : Stepped c flow m reply n)
    (le : m.retries ≤ c.maxConnRetries) : n.retries ≤ c.maxConnRetries := by
  cases stepped with
  | took _ enters =>
      rw [enters.retries_eq]
      split
      · exact Nat.zero_le _
      · exact le
  | again _ _ _ left => exact left
  | _ => exact le

end

end SatLink.Session
