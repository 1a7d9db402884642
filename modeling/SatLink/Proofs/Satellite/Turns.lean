import SatLink.Satellite.Rehearsal

/-!
# Turns in any order

A rehearsal settles with the turns of its two tasks in one order. Here they take turns in any order,
as long as nobody waits in vain: neither the radio nor a queue lets a wait run out.

* `Turn`, `Run` — one turn of either task, and any number of them;
* `Shows` — whatever the order, the turns come to an end, and then just this has been seen;
* `Scene` — what of a rehearsal decides its turns, and `stage`, all rehearsals of a scene;
* `Gives` — a turn that leads from one scene to another, one lemma for each kind of turn.
-/

namespace SatLink

open Session (State Event Activity Heard Manager Reply)
open Uplink (Accumulator Flow)

namespace Rehearsal

/-! ## 1. Turns and runs -/

/-- A turn of either task. -/
inductive Turn (r : Rehearsal) (seen : List Observation) (s : Rehearsal) : Prop where
  | manage (h : r.manage? = some (seen, s))
  | decode (h : r.decode? = some (seen, s))
  | deliver (h : r.deliver? = some (seen, s))

/-- Turns one after the other. -/
inductive Run : Rehearsal → List Observation → Rehearsal → Prop where
  | none (r : Rehearsal) : Run r [] r
  | turn {r s t : Rehearsal} {seen more : List Observation} (first : Turn r seen s)
      (rest : Run s more t) : Run r (seen ++ more) t

/-- Nobody has a turn. -/
def Still (r : Rehearsal) : Prop := ∀ seen s, ¬ Turn r seen s

/-- All that is seen but the requests for a byte. -/
def visible (seen : List Observation) : List Observation :=
  seen.filter fun
    | .asked _ => false
    | _ => true

theorem visible_append (xs ys : List Observation) :
    visible (xs ++ ys) = visible xs ++ visible ys :=
  List.filter_append ..

theorem visible_dispatched (commands : List Command) :
    visible (commands.map .dispatched) = commands.map .dispatched := by
  refine List.filter_eq_self.mpr fun o ho => ?_
  obtain ⟨command, -, rfl⟩ := List.mem_map.mp ho
  rfl

/-- Whatever the order of turns, they come to an end, and then just this has been seen. -/
structure Shows (r : Rehearsal) (shown : List Observation) : Prop where
  ends : Acc (fun s r => ∃ seen, Turn r seen s) r
  all : ∀ seen s, Run r seen s → Still s → visible seen = shown

theorem Shows.of_still {r : Rehearsal} (still : Still r) : Shows r [] where
  ends := .intro r fun _ ⟨_, turn⟩ => absurd turn (still _ _)
  all := by
    intro seen s run _
    cases run with
    | none => rfl
    | turn first _ => exact absurd first (still _ _)

theorem Shows.of_turns {r : Rehearsal} {shown : List Observation} (moves : ∃ seen s, Turn r seen s)
    (next : ∀ seen s, Turn r seen s → ∃ later, shown = visible seen ++ later ∧ Shows s later) :
    Shows r shown where
  ends := by
    refine .intro r ?_
    rintro s ⟨seen, turn⟩
    obtain ⟨_, -, shows⟩ := next seen s turn
    exact shows.ends
  all := by
    intro seen s run still
    cases run with
    | none =>
        obtain ⟨_, _, turn⟩ := moves
        exact absurd turn (still _ _)
    | turn first rest =>
        obtain ⟨later, e, shows⟩ := next _ _ first
        rw [visible_append, shows.all _ _ rest still, e]

/-- Some order of turns comes to an end, so there is one that shows it. -/
theorem Shows.exists_run {r : Rehearsal} {shown : List Observation} (shows : Shows r shown) :
    ∃ seen s, Run r seen s ∧ Still s ∧ visible seen = shown := by
  have stops : ∃ seen s, Run r seen s ∧ Still s := by
    have ends := shows.ends
    clear shows
    induction ends with
    | intro r _ ih =>
        by_cases still : Still r
        · exact ⟨[], r, .none r, still⟩
        · unfold Still at still
          rw [Classical.not_forall] at still
          obtain ⟨seen, still⟩ := still
          rw [Classical.not_forall] at still
          obtain ⟨s, moves⟩ := still
          have turn := Classical.not_not.mp moves
          obtain ⟨more, t, run, stops⟩ := ih s ⟨seen, turn⟩
          exact ⟨seen ++ more, t, .turn turn run, stops⟩
  obtain ⟨seen, s, run, still⟩ := stops
  exact ⟨seen, s, run, still, shows.all _ _ run still⟩

/-- Turns do not go on for ever. -/
theorem Shows.not_endless {r : Rehearsal} {shown : List Observation} (shows : Shows r shown) :
    ¬ ∃ run : Nat → Rehearsal, run 0 = r ∧ ∀ n, ∃ seen, Turn (run n) seen (run (n + 1)) := by
  have ends := shows.ends
  clear shows
  induction ends with
  | intro r _ ih =>
      rintro ⟨run, start, turns⟩
      exact ih (run 1) (start ▸ turns 0) ⟨fun n => run (n + 1), rfl, fun n => turns (n + 1)⟩

/-! ## 2. Scenes -/

/-- What of a rehearsal decides its turns: the session and what the manager is at, the event
    that the decoder holds, what the queues hold, what the decoder has of a frame, and what is
    in the air. -/
structure Scene where
  state : State
  activity : Activity
  held : Option Event
  events : List Event
  bytes : List UInt8
  accumulator : Accumulator
  items : List Downlink.Item
  air : List UInt8

/-- All the rest: counters, timers, and queues that have a reader and some room. -/
structure Backdrop where
  retries : Nat
  window : Option Nat
  generation : Nat
  timer : Timer Nat
  events : Queue Event
  bytes : Queue UInt8
  downlink : Downlink.Encoder
  failsReinit : Bool
  sends : Nat
  reinits : Nat
  eventsRead : events.hasReader = true
  eventsRoom : 0 < events.capacity
  bytesRead : bytes.hasReader = true
  bytesRoom : 0 < bytes.capacity

/-- A scene before a backdrop. The radio hears what is in the air and waits for more, and sends all
    that it is given. -/
def stage (c : Config) (flow : Flow) (b : Backdrop) (p : Scene) : Rehearsal where
  satellite :=
    { config := c
      flow
      manager :=
        { state := p.state, retries := b.retries, window := b.window, activity := p.activity }
      decoder := { accumulator := p.accumulator, generation := b.generation, timer := b.timer }
      held := p.held
      events := { b.events with items := p.events }
      bytes := { b.bytes with items := p.bytes }
      downlink := { b.downlink with queue := { b.downlink.queue with items := p.items } } }
  radio :=
    { script := p.air.map .byte
      failsReinit := b.failsReinit
      waits := true
      sends := b.sends
      reinits := b.reinits }

section

variable {c : Config} {flow : Flow} {b : Backdrop}

/-- A turn leads to a scene, and shows this. -/
def Gives (c : Config) (flow : Flow) (turn : Option (List Observation × Rehearsal))
    (shown : List Observation) (p : Scene) : Prop :=
  ∃ seen b, turn = some (seen, stage c flow b p) ∧ visible seen = shown

section

variable {r s : Rehearsal} {seen shown : List Observation} {p : Scene}

theorem Gives.eq {turn : Option (List Observation × Rehearsal)} (gives : Gives c flow turn shown p)
    (h : turn = some (seen, s)) : visible seen = shown ∧ ∃ b, s = stage c flow b p := by
  obtain ⟨_, b, rfl, e⟩ := gives
  cases h
  exact ⟨e, b, rfl⟩

theorem Gives.manages (gives : Gives c flow r.manage? shown p) : ∃ seen s, Turn r seen s := by
  obtain ⟨_, _, turn, -⟩ := gives
  exact ⟨_, _, .manage turn⟩

theorem Gives.decodes (gives : Gives c flow r.decode? shown p) : ∃ seen s, Turn r seen s := by
  obtain ⟨_, _, turn, -⟩ := gives
  exact ⟨_, _, .decode turn⟩

theorem Gives.delivers (gives : Gives c flow r.deliver? shown p) : ∃ seen s, Turn r seen s := by
  obtain ⟨_, _, turn, -⟩ := gives
  exact ⟨_, _, .deliver turn⟩

end

variable {state next : State} {held : Option Event} {events : List Event} {bytes : List UInt8}
  {a : Accumulator} {items : List Downlink.Item} {air : List UInt8}

/-! ## 3. The decoder's turns -/

theorem decode?_nil {activity : Activity} :
    (stage c flow b ⟨state, activity, held, events, [], a, items, air⟩).decode? = none := by
  cases held <;> rfl

/-- A byte that closes nothing. -/
theorem decode?_quiet {activity : Activity} {byte : UInt8} {a' : Accumulator}
    (push : a.push byte = (none, a')) :
    Gives c flow
      (stage c flow b ⟨state, activity, none, events, byte :: bytes, a, items, air⟩).decode? []
      ⟨state, activity, none, events, bytes, a', items, air⟩ := by
  have pushed : ∃ b' : Backdrop, b' = { b with generation := b'.generation, timer := b'.timer } ∧
      Uplink.Decoder.push ⟨a, b.generation, b.timer⟩ c.flagTimeout byte =
        (none, ⟨a', b'.generation, b'.timer⟩) := by
    unfold Uplink.Decoder.push
    rw [push]
    dsimp only
    split
    · exact ⟨{ b with generation := _, timer := _ }, rfl, rfl⟩
    · exact ⟨b, rfl, rfl⟩
  obtain ⟨b', e, pushed⟩ := pushed
  refine ⟨[], b', ?_, rfl⟩
  unfold decode? Satellite.decode? stage
  dsimp only [Queue.receive]
  rw [pushed, e]
  rfl

/-- A byte that closes a frame. -/
theorem decode?_frame {activity : Activity} {byte : UInt8} {frame : List UInt8} {a' : Accumulator}
    (push : a.push byte = (some frame, a')) :
    Gives c flow
      (stage c flow b ⟨state, activity, none, events, byte :: bytes, a, items, air⟩).decode?
      ((flow.react frame).commands.map .dispatched)
      ⟨state, activity, some (flow.react frame).event, events, bytes, a', items, air⟩ := by
  have pushed : Uplink.Decoder.push ⟨a, b.generation, b.timer⟩ c.flagTimeout byte =
      (some frame, ⟨a', b.generation + 1, b.timer.stop⟩) := by
    unfold Uplink.Decoder.push
    rw [push]
  refine ⟨_, { b with generation := b.generation + 1, timer := b.timer.stop }, ?_,
    visible_dispatched _⟩
  unfold decode? Satellite.decode? stage
  dsimp only [Queue.receive]
  rw [pushed]
  rfl

theorem deliver?_none {activity : Activity} :
    (stage c flow b ⟨state, activity, none, events, bytes, a, items, air⟩).deliver? = none := rfl

/-- An event is posted where there is none. -/
theorem post_stage {activity : Activity} (event : Event) :
    (stage c flow b ⟨state, activity, held, [], bytes, a, items, air⟩).satellite.post event =
      (.ok (), (stage c flow b
        ⟨state, activity, held, [event], bytes, a, items, air⟩).satellite) := by
  have taken := Queue.send_of_lt (q := { b.events with items := [] }) (a := event) b.eventsRead
    b.eventsRoom
  unfold Satellite.post stage
  dsimp only at taken ⊢
  rw [taken]
  rfl

theorem deliver?_some {activity : Activity} {event : Event} :
    Gives c flow
      (stage c flow b ⟨state, activity, some event, [], bytes, a, items, air⟩).deliver? []
      ⟨state, activity, none, [event], bytes, a, items, air⟩ := by
  refine ⟨[], b, ?_, rfl⟩
  have holds :
      (stage c flow b ⟨state, activity, some event, [], bytes, a, items, air⟩).satellite.held =
    some event := rfl
  unfold deliver? Satellite.deliver?
  rw [holds]
  dsimp only
  rw [post_stage]
  rfl

/-! ## 4. The manager's turns -/

/-- An observer sees the state that the manager enters; -/
theorem visible_seen {before after : Manager} {reply : Reply}
    (unsent : frame? before.activity = none) :
    visible (seen before after reply) = ((Manager.entered? before after).map .entered).toList := by
  unfold seen
  rw [unsent]
  dsimp only
  rw [visible_append, visible_append]
  cases Manager.entered? before after <;> cases after.wait? <;> rfl

/-- and the frame that it has sent. -/
theorem visible_seen_sent {before after : Manager} {frame : List UInt8}
    (sends : frame? before.activity = some frame) :
    visible (seen before after (.performed (.ok ()))) =
      .sent frame :: ((Manager.entered? before after).map .entered).toList := by
  unfold seen
  rw [sends]
  dsimp only
  rw [visible_append, visible_append]
  cases Manager.entered? before after <;> cases after.wait? <;> rfl

theorem entered?_same {before after : Manager} (same : after.state = before.state) :
    ((Manager.entered? before after).map Observation.entered).toList = [] := by
  rw [Manager.entered?, if_pos same]
  rfl

/-- The manager's turn is one of its steps. -/
theorem tell_stage {p : Scene} {reply : Reply} {retries : Nat} {window : Option Nat}
    {activity : Activity}
    (told : Manager.step c flow ⟨p.state, b.retries, b.window, p.activity⟩ reply =
      ⟨next, retries, window, activity⟩) :
    (stage c flow b p).tell reply =
      (seen ⟨p.state, b.retries, b.window, p.activity⟩ ⟨next, retries, window, activity⟩ reply,
        stage c flow { b with retries, window } { p with state := next, activity }) := by
  unfold tell Satellite.tell
  show (seen _ (Manager.step c flow ⟨p.state, b.retries, b.window, p.activity⟩ reply) reply, _) = _
  rw [← told]
  unfold stage
  rw [← told]

/-- The radio has a byte. -/
theorem manage?_listening {heard : Heard} {byte : UInt8} :
    Gives c flow (stage c flow b
      ⟨state, .listening heard, held, events, bytes, a, items, byte :: air⟩).manage? []
      ⟨state, .forwarding byte heard, held, events, bytes, a, items, air⟩ :=
  ⟨_, b, rfl, (visible_seen rfl).trans (entered?_same rfl)⟩

/-- What the manager does once a byte is forwarded. -/
def forwarded (heard : Heard) (byte : UInt8) : Activity :=
  match heard.after byte with
  | some heard => .listening heard
  | none => .idle

/-- The decoder's queue has room. -/
theorem manage?_forwarding {heard : Heard} {byte : UInt8} (room : bytes.length < b.bytes.capacity) :
    Gives c flow (stage c flow b
      ⟨state, .forwarding byte heard, held, events, bytes, a, items, air⟩).manage? []
      ⟨state, forwarded heard byte, held, events, bytes ++ [byte], a, items, air⟩ := by
  have taken := Queue.send_of_lt (q := { b.bytes with items := bytes }) (a := byte) b.bytesRead room
  have answer : (stage c flow b
      ⟨state, .forwarding byte heard, held, events, bytes, a, items, air⟩).satellite.answer? =
        some (.queued (.ok ()), (stage c flow b
          ⟨state, .forwarding byte heard, held, events, bytes ++ [byte], a, items,
            air⟩).satellite) := by
    unfold Satellite.answer? stage
    dsimp only at taken ⊢
    rw [taken]
  have told : Manager.step c flow ⟨state, b.retries, b.window, .forwarding byte heard⟩
      (.queued (.ok ())) =
      ⟨state, b.retries, b.window, forwarded heard byte⟩ := by
    unfold Manager.step forwarded
    dsimp only
    cases heard.after byte <;> rfl
  unfold manage?
  rw [answer]
  exact ⟨_, b, congrArg some (tell_stage told), (visible_seen rfl).trans (entered?_same rfl)⟩

/-- The decoder's queue has none. -/
theorem manage?_forwarding_full {heard : Heard} {byte : UInt8}
    (full : b.bytes.capacity ≤ bytes.length) :
    (stage c flow b
      ⟨state, .forwarding byte heard, held, events, bytes, a, items, air⟩).manage? = none := by
  have refused :=
    Queue.send_of_le (q := { b.bytes with items := bytes }) (a := byte) b.bytesRead full
  unfold manage? Satellite.answer? stage
  dsimp only at refused ⊢
  rw [refused]

theorem manage?_idle_nil :
    (stage c flow b ⟨state, .idle, held, [], bytes, a, items, air⟩).manage? = none := by
  unfold manage? Satellite.answer? stage
  dsimp only [Queue.receive]
  rfl

/-- What the manager does first in a state. -/
def duty (c : Config) (flow : Flow) (state : State) : Activity :=
  (Manager.start { state } c flow).activity

theorem start_eq (m : Manager) (c : Config) (flow : Flow) :
    ∃ retries window, m.start c flow = ⟨m.state, retries, window, duty c flow m.state⟩ := by
  obtain ⟨state, retries, window, activity⟩ := m
  unfold duty Manager.start
  cases state with
  | disconnected | awaitingConn | awaitingAckDisc | awaitingAckConn | uplinking | emergencyUplink
  | enteringEmergency => exact ⟨_, _, rfl⟩
  | sendingConn | sendingAck | sendingDisc =>
      dsimp only
      unfold Manager.sendControl
      split <;> exact ⟨_, _, rfl⟩
  | downlinking =>
      dsimp only
      unfold Manager.collect
      split <;> exact ⟨_, _, rfl⟩

/-- An event that the state takes. -/
theorem manage?_idle {event : Event} (takes : Session.transition? state event = some next) :
    Gives c flow
      (stage c flow b ⟨state, .idle, held, event :: events, bytes, a, items, air⟩).manage?
      (if next = state then [] else [.entered next])
      ⟨next, duty c flow next, held, events, bytes, a, items, air⟩ := by
  let m : Manager := ⟨next, b.retries,
    if event == .frameDropped && next.isReceiving then b.window else none, .idle⟩
  obtain ⟨retries, window, started⟩ := start_eq m c flow
  have told : Manager.step c flow ⟨state, b.retries, b.window, .idle⟩ (.event event) =
      ⟨next, retries, window, duty c flow next⟩ := by
    show Manager.process ⟨state, b.retries, b.window, .idle⟩ c flow event = _
    unfold Manager.process
    rw [takes]
    exact started
  refine ⟨_, { b with retries, window },
    congrArg some (tell_stage (p := ⟨state, .idle, held, events, bytes, a, items, air⟩) told),
    (visible_seen rfl).trans ?_⟩
  unfold Manager.entered?
  split <;> rfl

theorem manage?_sending {frame : List UInt8} {completion : Event} :
    Gives c flow
      (stage c flow b
        ⟨state, .sending frame completion, held, events, bytes, a, items, air⟩).manage?
      [.sent frame] ⟨state, .posting completion, held, events, bytes, a, items, air⟩ :=
  ⟨_, { b with sends := b.sends + 1 }, rfl,
    (visible_seen_sent rfl).trans (congrArg _ (entered?_same rfl))⟩

theorem manage?_posting {event : Event} :
    Gives c flow
      (stage c flow b ⟨state, .posting event, held, [], bytes, a, items, air⟩).manage?
      [] ⟨state, .idle, held, [event], bytes, a, items, air⟩ := by
  have asks : (stage c flow b
      ⟨state, .posting event, held, [], bytes, a, items, air⟩).satellite.manager.activity =
        .posting event := rfl
  unfold manage? Satellite.answer?
  rw [asks]
  dsimp only
  rw [post_stage]
  exact ⟨_, b, rfl, (visible_seen rfl).trans (entered?_same rfl)⟩

theorem manage?_packet {frame : List UInt8} {sent : Nat} :
    Gives c flow
      (stage c flow b
        ⟨state, .collecting sent, held, events, bytes, a, .packet frame :: items, air⟩).manage?
      [] ⟨state, .shipping frame sent, held, events, bytes, a, items, air⟩ :=
  ⟨_, b, rfl, (visible_seen rfl).trans (entered?_same rfl)⟩

theorem manage?_endOfDownlink {sent : Nat} :
    Gives c flow
      (stage c flow b
        ⟨state, .collecting sent, held, events, bytes, a, .endOfDownlink :: items, air⟩).manage?
      [] ⟨state, .posting .downlinkFinished, held, events, bytes, a, items, air⟩ :=
  ⟨_, b, rfl, (visible_seen rfl).trans (entered?_same rfl)⟩

/-- A frame of a downlink that may go on. -/
theorem manage?_shipping {frame : List UInt8} {sent : Nat} (more : sent + 1 < c.maxDownlinkFrames) :
    Gives c flow
      (stage c flow b ⟨state, .shipping frame sent, held, events, bytes, a, items, air⟩).manage?
      [.sent frame] ⟨state, .collecting (sent + 1), held, events, bytes, a, items, air⟩ := by
  have told : Manager.step c flow ⟨state, b.retries, b.window, .shipping frame sent⟩
      (.performed (.ok ())) = ⟨state, b.retries, b.window, .collecting (sent + 1)⟩ := if_pos more
  refine ⟨_, { b with sends := b.sends + 1 }, congrArg some (tell_stage
    (b := { b with sends := b.sends + 1 })
    (p := ⟨state, .shipping frame sent, held, events, bytes, a,
      items, air⟩) told), ?_⟩
  exact (visible_seen_sent rfl).trans (congrArg _ (entered?_same rfl))

end

end Rehearsal

end SatLink
