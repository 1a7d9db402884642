import SatLink.Proofs.Satellite.Histories
import SatLink.Proofs.Session.Retries

/-!
# How often a connection is asked for

In an emergency the satellite asks the ground for a connection, and asks again when it hears
nothing. The request, the silence that it is followed by, and the event that leads back to it are
apart in time, with other events between them, and more than one silence can follow a request.

* `underway` — the requests that are yet to come of what is queued and of what the manager is at;
* `Credit` — what has been sent, what is under way and what is left never grow together;
* `conn_frames_le` — so the requests of a session are bounded.
-/

namespace SatLink.Satellite

open Session (State Event Activity Manager Reply transition? cases_of_enteringEmergency
  cases_of_sendingConn cases_of_awaitingAckConn cases_of_emergencyUplink)

/-! ## 1. Requests -/

/-- The frames that a history sends. -/
def sends (notes : List Note) : List (List UInt8) :=
  notes.filterMap fun
    | .sent frame => some frame
    | _ => none

theorem sends_append (xs ys : List Note) : sends (xs ++ ys) = sends xs ++ sends ys :=
  List.filterMap_append

/-- The event leads to a request. -/
def asks : Event → Bool
  | .emergencyInitialized | .noAck => true
  | _ => false

theorem asks_of_foreign {event : Event} (foreign : ¬ event.IsCompletion) : asks event = false := by
  cases event with
  | emergencyInitialized | noAck => exact absurd nofun foreign
  | _ => rfl

/-- The request that comes of what the manager is at. -/
def inHand : Activity → Nat
  | .reinitializing | .sending _ _ => 1
  | .posting outcome => if asks outcome then 1 else 0
  | _ => 0

/-- The requests that are yet to come. -/
def underway (s : Satellite) : Nat := inHand s.manager.activity + s.events.items.countP asks

/-- The states of an emergency session. -/
def InEmergency (state : State) : Prop :=
  state = .enteringEmergency ∨ state = .sendingConn ∨ state = .awaitingAckConn ∨
    state = .emergencyUplink

/-- Within a session, what has been sent, what is under way and what is left. -/
structure Credit (notes : List Note) (s : Satellite) : Prop where
  state : InEmergency s.manager.state
  bound : (sends notes).length + underway s + (s.config.maxConnRetries - s.manager.retries) ≤
    s.config.maxConnRetries + 1
  frames : ∀ frame ∈ sends notes, s.flow.encodeControl .conn true = .ok frame

/-! ## 2. What a turn leaves of it -/

section

variable {may : Event → Prop} {notes more : List Note} {s t : Satellite}

theorem inHand_le_one (activity : Activity) : inHand activity ≤ 1 := by
  unfold inHand
  split
  · exact Nat.le_refl 1
  · exact Nat.le_refl 1
  · split
    · exact Nat.le_refl 1
    · exact Nat.zero_le 1
  · exact Nat.zero_le 1

theorem inHand_of_isReceiving {c : Config} {flow : Uplink.Flow} {state : State}
    {activity : Activity}
    (begins : Session.Begins c flow state activity) (receiving : state.isReceiving = true) :
    inHand activity = 0 := by
  cases begins with
  | listen => rfl
  | send sends =>
      cases state <;> cases sends
      all_goals cases receiving
  | rest | collect | finish | recover => cases receiving

/-- An event that does not end the session begins a request if it asks for one. -/
theorem take_of_inEmergency {c : Config} {flow : Uplink.Flow} {m n : Manager} {event : Event}
    (emergency : InEmergency m.state) (enters : Session.Enters c flow m event n)
    (goesOn : n.state ≠ .disconnected) :
    InEmergency n.state ∧ inHand n.activity ≤ if asks event then 1 else 0 := by
  have taken : transition? m.state event = some n.state := by
    rw [enters.state_eq] at goesOn ⊢
    exact State.transition?_of_upon goesOn
  have quiet (receiving : n.state.isReceiving = true) :
      inHand n.activity ≤ if asks event then 1 else 0 := by
    rw [inHand_of_isReceiving enters.begins receiving]
    exact Nat.zero_le _
  rcases emergency with state | state | state | state <;> rw [state] at taken
  · obtain ⟨rfl, asks⟩ := cases_of_enteringEmergency taken goesOn
    exact ⟨.inr (.inl asks), inHand_le_one _⟩
  · obtain ⟨-, waits⟩ := cases_of_sendingConn taken goesOn
    exact ⟨.inr (.inr (.inl waits)), quiet (by rw [waits]; rfl)⟩
  · rcases cases_of_awaitingAckConn taken goesOn with ⟨-, again⟩ | up | ⟨rfl, asks⟩
    · exact ⟨.inr (.inr (.inl again)), quiet (by rw [again]; rfl)⟩
    · exact ⟨.inr (.inr (.inr up)), quiet (by rw [up]; rfl)⟩
    · exact ⟨.inr (.inl asks), inHand_le_one _⟩
  · have up := cases_of_emergencyUplink taken goesOn
    exact ⟨.inr (.inr (.inr up)), quiet (by rw [up]; rfl)⟩

theorem Credit.quiet (credit : Credit notes s) (unsent : sends more = [])
    (state : InEmergency t.manager.state)
    (settings : t.config = s.config ∧ t.flow = s.flow)
    (retries : t.manager.retries = s.manager.retries)
    (le : underway t ≤ underway s) : Credit (notes ++ more) t := by
  obtain ⟨-, bound, frames⟩ := credit
  have same : sends (notes ++ more) = sends notes := by
    rw [sends_append, unsent, List.append_nil]
  refine ⟨state, ?_, ?_⟩
  · rw [same, settings.1, retries]
    omega
  · rw [same, settings.2]
    exact frames

theorem underway_le (hand : inHand t.manager.activity ≤ inHand s.manager.activity)
    (queue : t.events.items.countP asks ≤ s.events.items.countP asks) : underway t ≤ underway s :=
  Nat.add_le_add hand queue

/-- An event is queued that does not lead to a request. -/
theorem countP_asks_append {events queue : List Event} {event : Event}
    (last : events = queue ++ [event])
    (other : asks event = false) : events.countP asks ≤ queue.countP asks := by
  rw [last, List.countP_append, List.countP_singleton, other]
  exact Nat.le_refl _

theorem InEmergency.ne_disconnected {state : State} (emergency : InEmergency state) :
    state ≠ .disconnected := by
  rintro rfl
  rcases emergency with e | e | e | e <;> cases e

/-- In an emergency nothing is sent but requests. -/
theorem request_of_sending {flow : Uplink.Flow} {state : State} {frame : List UInt8}
    {completion : Event}
    (emergency : InEmergency state) (does : state.Does flow (.sending frame completion)) :
    completion = .connSent ∧ flow.encodeControl .conn true = .ok frame := by
  obtain ⟨home, command, control, encoded⟩ := does
  rcases emergency with rfl | rfl | rfl | rfl
  · cases control
  · cases control
    exact ⟨Event.eq_of_home? home rfl, encoded⟩
  · cases control
  · cases control

/-- An event is taken that does not end the session. -/
theorem Credit.took {event : Event} {n : Manager} {events : Queue Event} (credit : Credit notes s)
    (first : s.events.items = event :: events.items)
    (enters : Session.Enters s.config s.flow s.manager event n)
    (away : .entered .disconnected ∉ moved s.manager n) :
    Credit (notes ++ .took event :: moved s.manager n) { s with manager := n, events } := by
  have goesOn : n.state ≠ .disconnected := by
    intro rest
    have other : n.state ≠ s.manager.state := rest ▸ credit.state.ne_disconnected.symm
    rw [moved_of_ne other, rest] at away
    exact away (.head _)
  obtain ⟨state, hand⟩ := take_of_inEmergency credit.state enters goesOn
  have retries := enters.retries_eq
  rw [if_neg goesOn] at retries
  refine credit.quiet (filterMap_moved (fun _ => rfl) _ _) state ⟨rfl, rfl⟩ retries ?_
  unfold underway
  rw [first, List.countP_cons]
  dsimp only
  omega

/-- Nothing was heard: one attempt less is left, and one request is to come. -/
theorem Credit.again {heard : Session.Heard} (credit : Credit notes s)
    (listens : s.manager.activity = .listening heard)
    (left : s.manager.retries < s.config.maxConnRetries) :
    Credit notes { s with manager := { s.manager with
      retries := s.manager.retries + 1, activity := .posting .noAck } } := by
  obtain ⟨emergency, bound, frames⟩ := credit
  have hand : inHand s.manager.activity = 0 := by
    rw [listens]
    rfl
  refine ⟨emergency, ?_, frames⟩
  unfold underway at bound ⊢
  rw [hand] at bound
  show (sends notes).length + (1 + s.events.items.countP asks) +
    (s.config.maxConnRetries - (s.manager.retries + 1)) ≤ s.config.maxConnRetries + 1
  omega

/-- A request that was under way is sent. -/
theorem Credit.sent {frame : List UInt8} {completion : Event} (credit : Credit notes s)
    (sound : Sound s) (holds : s.manager.activity = .sending frame completion) :
    Credit (notes ++ [.sent frame])
      { s with manager := { s.manager with activity := .posting completion } } := by
  obtain ⟨emergency, bound, frames⟩ := credit
  have does := sound.does
  rw [holds] at does
  obtain ⟨rfl, encoded⟩ := request_of_sending emergency does
  have hand : inHand s.manager.activity = 1 := by
    rw [holds]
    rfl
  have longer : sends (notes ++ [.sent frame]) = sends notes ++ [frame] := sends_append ..
  refine ⟨emergency, ?_, ?_⟩
  · unfold underway at bound ⊢
    rw [hand] at bound
    rw [longer, List.length_append, List.length_singleton]
    show (sends notes).length + 1 + (0 + s.events.items.countP asks) +
      (s.config.maxConnRetries - s.manager.retries) ≤ s.config.maxConnRetries + 1
    omega
  · rw [longer]
    exact List.forall_mem_append.mpr ⟨frames, List.forall_mem_singleton.mpr encoded⟩

/-- A request in hand is queued. -/
theorem Credit.posted {outcome : Event} {events : Queue Event} (credit : Credit notes s)
    (posts : s.manager.activity = .posting outcome)
    (last : events.items = s.events.items ++ [outcome]) :
    Credit (notes ++ [.posted outcome true])
      { s with manager := { s.manager with activity := .idle }, events } := by
  refine credit.quiet rfl credit.state ⟨rfl, rfl⟩ rfl ?_
  unfold underway
  rw [posts, last, List.countP_append, List.countP_singleton]
  show 0 + _ ≤ (if _ then 1 else 0) + _
  omega

/-- **What a turn leaves of it**, unless it ends the session. -/
theorem Credit.change (credit : Credit notes s) (sound : Sound s)
    (foreign : ∀ event, may event → ¬ event.IsCompletion) (change : Change may s more t)
    (away : .entered .disconnected ∉ more) : Credit (notes ++ more) t := by
  have emergency := credit.state
  have settings := change.settings
  cases change with
  | took _ first enters => exact credit.took first enters fun mem => away (.tail _ mem)
  | again listens _ left =>
      rw [List.append_nil]
      exact credit.again listens left
  | sent holds => exact credit.sent sound holds
  | posted posts last => exact credit.posted posts last
  | transmitted transmits =>
      rw [downlinking_of_transmits sound.does transmits] at emergency
      rcases emergency with e | e | e | e <;> cases e
  | recovered recovers =>
      refine credit.quiet rfl emergency settings rfl (underway_le ?_ (Nat.le_refl _))
      rw [recovers]
      exact Nat.le_refl 1
  | reported _ last =>
      exact credit.quiet rfl emergency settings rfl
        (underway_le (Nat.zero_le _) (countP_asks_append last rfl))
  | reset =>
      rw [moved_of_ne emergency.ne_disconnected.symm] at away
      exact absurd (.head _) away
  | forwarded _ _ next =>
      refine credit.quiet rfl emergency settings rfl (underway_le ?_ (Nat.le_refl _))
      rcases next with rfl | ⟨_, rfl⟩ <;> exact Nat.zero_le _
  | heard | failed =>
      exact credit.quiet rfl emergency settings rfl (underway_le (Nat.zero_le _) (Nat.le_refl _))
  | framed =>
      exact credit.quiet (filterMap_dispatched (fun _ => rfl) _) emergency settings rfl
        (Nat.le_refl _)
  | delivered holds last =>
      exact credit.quiet rfl emergency settings rfl (underway_le (Nat.le_refl _)
        (countP_asks_append last (asks_of_foreign (sound.held _ holds))))
  | came allowed last =>
      exact credit.quiet rfl emergency settings rfl (underway_le (Nat.le_refl _)
        (countP_asks_append last (asks_of_foreign (foreign _ allowed))))
  | decoded | lost | supplied | passed | refused =>
      exact credit.quiet rfl emergency settings rfl (Nat.le_refl _)

theorem Credit.run (credit : Credit [] s) (sound : Sound s)
    (foreign : ∀ event, may event → ¬ event.IsCompletion) (run : Run may s notes t)
    (away : .entered .disconnected ∉ notes) : Credit notes t := by
  induction run with
  | start => exact credit
  | turn run turn ih =>
      have credit := ih fun mem => away (List.mem_append_left _ mem)
      exact credit.change (run.sound sound) foreign turn.change fun mem =>
        away (List.mem_append_right _ mem)

/-! ## 3. Sessions -/

/-- An emergency session begins with one request to come, and what attempts are left. -/
theorem credit_of_enterEmergency (rest : s.manager.state = .disconnected)
    (answer : s.answer? = some (.event .enterEmergency, t)) (alone : t.events.items = []) :
    Credit [] (t.tell (.event .enterEmergency)) := by
  obtain ⟨idle, -, same⟩ := answer?_event answer
  have begins : (t.tell (.event .enterEmergency)).manager =
      ⟨.enteringEmergency, s.manager.retries, none, .reinitializing⟩ := by
    rw [same]
    exact Session.step_enterEmergency idle rest
  refine ⟨?_, ?_, nofun⟩
  · rw [begins]
    exact .inl rfl
  · have queue : (t.tell (.event .enterEmergency)).events.items = [] := alone
    unfold underway
    rw [begins, queue]
    show 0 + (1 + 0) + (_ - s.manager.retries) ≤ _
    omega

/-- **How often a connection is asked for.** The attempts that are counted stay within their limit,
    whatever happens. When the order for an emergency session is taken at rest and is all that is
    queued, and other tasks post events of any kind but the manager's own, the manager sends nothing
    but requests for a connection until the link rests again, and no more than one and the attempts
    that it has. -/
theorem conn_frames_le (c : Config) (addresses : LinkAddresses)
    (run : Run may (make c addresses) notes s) : s.manager.retries ≤ c.maxConnRetries ∧
    ∀ t, s.manager.state = .disconnected → s.answer? = some (.event .enterEmergency, t) →
      t.events.items = [] → ∀ (posts : Event → Prop) (more : List Note) (u : Satellite),
      (∀ event, posts event → ¬ event.IsCompletion) →
      Run posts (t.tell (.event .enterEmergency)) more u → .entered .disconnected ∉ more →
      (sends more).length ≤ c.maxConnRetries + 1 ∧ ∀ frame ∈ sends more,
        (⟨c.cipher, addresses⟩ : Uplink.Flow).encodeControl .conn true = .ok frame := by
  have sound := run.sound (sound_make c addresses)
  obtain ⟨config, flow⟩ := run.settings
  refine ⟨?_, ?_⟩
  · have le := sound.retries_le
    rw [config] at le
    exact le
  · intro t rest answer alone posts more u foreign session away
    have begun : Turn may s _ (t.tell (.event .enterEmergency)) := .queue answer
    have credit :=
      (credit_of_enterEmergency rest answer alone).run (begun.change.sound sound) foreign
      session away
    obtain ⟨config', flow'⟩ := session.settings
    obtain ⟨config'', flow''⟩ := begun.change.settings
    have bound := credit.bound
    have frames := credit.frames
    rw [config', config'', config] at bound
    rw [flow', flow'', flow] at frames
    refine ⟨?_, frames⟩
    show _ ≤ (make c addresses).config.maxConnRetries + 1
    omega

end

/-- An emergency session in which a silence follows the first request, and the second one is
    sent. -/
theorem run_requests {c : Config} {addresses : LinkAddresses} {may : Event → Prop}
    {frame : List UInt8}
    (room : 0 < c.eventQueueLength) (left : 0 < c.maxConnRetries)
    (encoded : (⟨c.cipher, addresses⟩ : Uplink.Flow).encodeControl .conn true = .ok frame) :
    Run may { make c addresses with manager := ⟨.enteringEmergency, 0, none, .reinitializing⟩ }
      [.posted .emergencyInitialized true, .took .emergencyInitialized, .entered .sendingConn,
        .sent frame, .posted .connSent true, .took .connSent, .entered .awaitingAckConn,
        .posted .noAck true, .took .noAck, .entered .sendingConn,
        .sent frame, .posted .connSent true, .took .connSent, .entered .awaitingAckConn]
      { make c addresses with
        manager := ⟨.awaitingAckConn, 1, some c.ackTimeout, .listening .nothing⟩ } := by
  have free (m : Manager) : Unqueued { make c addresses with manager := m } := unqueued_make room m
  have timesOut : Manager.timedOut ⟨.awaitingAckConn, 0, some c.ackTimeout, .listening .nothing⟩ c =
      ⟨.awaitingAckConn, 1, some c.ackTimeout, .posting .noAck⟩ := if_pos ⟨rfl, left⟩
  have requested : Run may _ _ _ :=
    (free ⟨.enteringEmergency, 0, none, .reinitializing⟩).requests encoded rfl
  have silent : Turn may
      { make c addresses with
        manager := ⟨.awaitingAckConn, 0, some c.ackTimeout, .listening .nothing⟩ } []
      { make c addresses with
        manager := ⟨.awaitingAckConn, 1, some c.ackTimeout, .posting .noAck⟩ } :=
    .of_radio (.received (.ok none)) trivial trivial timesOut (noted_same rfl)
  have again : Run may _ _ _ :=
    (free ⟨.awaitingAckConn, 1, some c.ackTimeout, .posting .noAck⟩).completes rfl
    (Session.sendControl_eq ⟨.sendingConn, 1, none, .idle⟩ encoded .connSent)
  have requestedAgain : Run may _ _ _ :=
    (free ⟨.sendingConn, 1, none, .sending frame .connSent⟩).sends rfl rfl
  exact (requested.turn silent).trans (again.trans requestedAgain)

/-- Under the standard settings: two requests, where four are allowed. -/
theorem conn_frames_le_silence : ∃ addresses notes s t more u frame,
    Config.standard.linkAddresses .cubesat = .ok addresses ∧
    Run (fun _ => True) (make .standard addresses) notes s ∧ s.manager.state = .disconnected ∧
    s.answer? = some (.event .enterEmergency, t) ∧ t.events.items = [] ∧
    (∀ event : Event, ¬ event.IsCompletion → ¬ event.IsCompletion) ∧
    Run (fun event => ¬ event.IsCompletion) (t.tell (.event .enterEmergency)) more u ∧
    .entered .disconnected ∉ more ∧ sends more = [frame, frame] ∧ (sends more).length ≤ 3 + 1 := by
  obtain ⟨addresses, here⟩ := Config.standard.exists_linkAddresses_of_validate (by decide +kernel)
  obtain ⟨frame, encoded⟩ :=
    (⟨Config.standard.cipher, addresses⟩ : Uplink.Flow).exists_control .conn true
  have free : Unqueued (make .standard addresses) := unqueued_make (by decide) .initial
  have ordered : Run (fun _ => True) (make .standard addresses) [.posted .enterEmergency false] _ :=
    (free.posts trivial).run
  have answer := free.answer? (m := .initial) rfl .enterEmergency
  have foreign (event : Event) (other : ¬ event.IsCompletion) : ¬ event.IsCompletion := other
  have session : Run (fun event => ¬ event.IsCompletion) _ _ _ :=
    run_requests (c := .standard) (by decide) (by decide) encoded
  exact ⟨addresses, _, _, _, _, _, frame, here, ordered, rfl, answer, rfl, foreign, session,
    by simp, rfl,
    ((conn_frames_le .standard addresses ordered).2 _ rfl answer rfl _ _ _ foreign session
      (by simp)).1⟩

end SatLink.Satellite
