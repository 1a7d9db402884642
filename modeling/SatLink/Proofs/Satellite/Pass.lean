import SatLink.Proofs.Satellite.Turns
import SatLink.Proofs.Session.Listening
import SatLink.Proofs.Uplink.Stream

/-!
# A pass

The satellite is told to listen, the ground asks for a connection, sends its commands, and answers
the satellite's parting; in between the satellite sends what is queued for the transmitter. Manager
and decoder take turns in any order, and a frame that does not decode may come at any time.

* `shows_of_hearing` — one frame on its way through both tasks: every turn takes a byte a step
  further, and the last byte leaves the event of the frame for the manager;
* `shows_of_failing` — frames that come to nothing, any number of them;
* `shows_of_collecting` — the packets that wait for the transmitter;
* `pass_shows` — the whole pass, for every configuration a link can be run with.

The scenes are strung together from their end: what follows a turn is shown first.
-/

namespace SatLink

open SatLink.Frame (flag flagged)
open Session (State Event Activity Heard)
open Uplink (Accumulator Enclosed Flow)

namespace Rehearsal

/-- Whatever the backdrop, a rehearsal of the scene shows this. -/
def Scene.Shows (c : Config) (flow : Flow) (p : Scene) (shown : List Observation) : Prop :=
  ∀ b, Rehearsal.Shows (stage c flow b p) shown

section

variable {c : Config} {flow : Flow} {state next : State} {activity : Activity} {events : List Event}
  {bytes : List UInt8} {a : Accumulator} {items : List Downlink.Item} {air : List UInt8}
  {later : List Observation}

/-! ## 1. One task alone -/

/-- The decoder has nothing to do. -/
theorem shows_of_manage {now shown : List Observation} {q : Scene}
    (manages : ∀ b, Gives c flow
      (stage c flow b ⟨state, activity, none, events, [], a, items, air⟩).manage? now q)
    (rest : q.Shows c flow later) (parts : now ++ later = shown) :
    Scene.Shows c flow ⟨state, activity, none, events, [], a, items, air⟩ shown := by
  subst parts
  intro b
  refine .of_turns (manages b).manages ?_
  rintro _ _ (turn | turn | turn)
  · obtain ⟨e, b', rfl⟩ := (manages b).eq turn
    exact ⟨later, by rw [e], rest b'⟩
  · rw [decode?_nil] at turn
    cases turn
  · rw [deliver?_none] at turn
    cases turn

/-- The decoder posts the event of a frame, and the manager takes it. -/
theorem shows_of_held {event : Event} (takes : Session.transition? state event = some next)
    (rest : Scene.Shows c flow ⟨next, duty c flow next, none, [], [], a, items, air⟩ later) :
    Scene.Shows c flow ⟨state, .idle, some event, [], [], a, items, air⟩
      ((if next = state then [] else [.entered next]) ++ later) := by
  intro b
  refine .of_turns deliver?_some.delivers ?_
  rintro _ _ (turn | turn | turn)
  · rw [manage?_idle_nil] at turn
    cases turn
  · rw [decode?_nil] at turn
    cases turn
  · obtain ⟨e, b', rfl⟩ := deliver?_some.eq turn
    exact ⟨_, by rw [e]; rfl, shows_of_manage (fun _ => manage?_idle takes) rest rfl b'⟩

/-! ## 2. Listening for a frame -/

/-- What the manager is at while it listens, the byte that it has in hand, and what is yet to come
    up to the end of the frame. -/
inductive Hearing : Activity → List UInt8 → List UInt8 → Prop where
  | listening {heard : Heard} {coming : List UInt8} (ends : heard.closes coming) :
      Hearing (.listening heard) [] coming
  | forwarding {byte : UInt8} {heard : Heard} {coming : List UInt8}
      (ends : heard.closes (byte :: coming)) : Hearing (.forwarding byte heard) [byte] coming
  | idle : Hearing .idle [] []

theorem hearing_forwarded {byte : UInt8} {heard : Heard} {coming : List UInt8}
    (ends : heard.closes (byte :: coming)) : Hearing (forwarded heard byte) [] coming := by
  unfold forwarded
  rw [Heard.closes] at ends
  cases e : heard.after byte with
  | none =>
      rw [e] at ends
      obtain rfl : coming = [] := ends
      exact .idle
  | some heard =>
      rw [e] at ends
      exact .listening ends

/-- A byte in the air has three steps to go, one in hand two, and one in the queue one. -/
def way (hand coming bytes : List UInt8) : Nat := 3 * coming.length + 2 * hand.length + bytes.length

/-- The manager's turn takes a byte a step further. -/
theorem Hearing.manage? {b : Backdrop} {hand coming : List UInt8} {seen : List Observation}
    {s : Rehearsal} (hearing : Hearing activity hand coming)
    (turn : (stage c flow b ⟨state, activity, none, [], bytes, a, items, coming ++ air⟩).manage? =
      some (seen, s)) :
    visible seen = [] ∧ ∃ b activity hand' coming' bytes',
      s = stage c flow b ⟨state, activity, none, [], bytes', a, items, coming' ++ air⟩ ∧
      Hearing activity hand' coming' ∧ bytes' ++ (hand' ++ coming') = bytes ++ (hand ++ coming) ∧
      way hand' coming' bytes' < way hand coming bytes := by
  cases hearing with
  | @listening heard coming ends =>
      cases coming with
      | nil => exact ends.elim
      | cons byte coming =>
          obtain ⟨e, b', rfl⟩ := manage?_listening.eq turn
          refine ⟨e, b', _, [byte], coming, bytes, rfl, .forwarding ends, rfl, ?_⟩
          simp only [way, List.length_cons, List.length_nil]
          omega
  | @forwarding byte heard _ ends =>
      rcases Nat.lt_or_ge bytes.length b.bytes.capacity with room | full
      · obtain ⟨e, b', rfl⟩ := (manage?_forwarding room).eq turn
        refine ⟨e, b', _, [], coming, bytes ++ [byte], rfl, hearing_forwarded ends, ?_, ?_⟩
        · rw [List.append_assoc]
          rfl
        · simp only [way, List.length_append, List.length_cons, List.length_nil]
          omega
      · rw [manage?_forwarding_full full] at turn
        cases turn
  | idle =>
      rw [manage?_idle_nil] at turn
      cases turn

/-- The decoder's turn takes a byte a step further, and the last one closes the frame. -/
theorem Hearing.decode? {b : Backdrop} {hand coming frame : List UInt8} {seen : List Observation}
    {s : Rehearsal} (hearing : Hearing activity hand coming)
    (handsOut : a.yields frame (bytes ++ (hand ++ coming)))
    (turn : (stage c flow b ⟨state, activity, none, [], bytes, a, items, coming ++ air⟩).decode? =
      some (seen, s)) :
    (visible seen = [] ∧ ∃ b bytes' a', s = stage c flow b
        ⟨state, activity, none, [], bytes', a', items, coming ++ air⟩ ∧
      a'.yields frame (bytes' ++ (hand ++ coming)) ∧
      way hand coming bytes' < way hand coming bytes) ∨
    (visible seen = (flow.react frame).commands.map .dispatched ∧ ∃ b, s = stage c flow b
        ⟨state, .idle, some (flow.react frame).event, [], [], .collecting [], items, air⟩) := by
  cases bytes with
  | nil =>
      rw [decode?_nil] at turn
      cases turn
  | cons byte bytes =>
      rw [List.cons_append, Accumulator.yields] at handsOut
      cases pushed : a.push byte with
      | mk handed next =>
          rw [pushed] at handsOut
          cases handed with
          | none =>
              obtain ⟨e, b', rfl⟩ := (decode?_quiet pushed).eq turn
              refine .inl ⟨e, b', bytes, next, rfl, handsOut, ?_⟩
              simp only [way, List.length_cons]
              omega
          | some handed =>
              obtain ⟨rfl, last⟩ := handsOut
              obtain ⟨e, b', rfl⟩ := (decode?_frame pushed).eq turn
              -- nothing is left in the queue, in hand or in the air
              obtain ⟨rfl, rest⟩ := List.append_eq_nil_iff.mp last
              obtain ⟨rfl, rfl⟩ := List.append_eq_nil_iff.mp rest
              refine .inr ⟨e, b', ?_⟩
              rw [Accumulator.push_eq_some pushed]
              cases hearing with
              | listening ends => exact ends.elim
              | idle => rfl

/-- Up to the end of the frame somebody has a turn. -/
theorem Hearing.moves {b : Backdrop} {hand coming frame : List UInt8}
    (hearing : Hearing activity hand coming)
    (handsOut : a.yields frame (bytes ++ (hand ++ coming))) : ∃ seen s,
    Turn (stage c flow b ⟨state, activity, none, [], bytes, a, items, coming ++ air⟩) seen s := by
  cases bytes with
  | cons byte bytes =>
      cases pushed : a.push byte with
      | mk handed next =>
          cases handed with
          | none => exact (decode?_quiet pushed).decodes
          | some frame => exact (decode?_frame pushed).decodes
  | nil =>
      cases hearing with
      | @listening heard coming ends =>
          cases coming with
          | nil => exact ends.elim
          | cons byte coming => exact manage?_listening.manages
      | forwarding _ =>
          have room : ([] : List UInt8).length < b.bytes.capacity := b.bytesRoom
          exact (manage?_forwarding room).manages
      | idle => exact handsOut.elim

/-- **However the two tasks take turns**, the frame gets through: its commands are handed over, and
    its event is the next that the manager is told. -/
theorem shows_of_hearing {frame hand coming : List UInt8} (hearing : Hearing activity hand coming)
    (handsOut : a.yields frame (bytes ++ (hand ++ coming)))
    (rest : Scene.Shows c flow ⟨state, .idle, some (flow.react frame).event, [], [], .collecting [],
      items, air⟩ later) :
    Scene.Shows c flow ⟨state, activity, none, [], bytes, a, items, coming ++ air⟩
      ((flow.react frame).commands.map .dispatched ++ later) := by
  generalize hn : way hand coming bytes = n
  induction n using Nat.strongRecOn generalizing activity hand coming bytes a with
  | ind n ih =>
      intro b
      refine .of_turns (hearing.moves handsOut) ?_
      rintro seen s (turn | turn | turn)
      · obtain ⟨e, b', activity, hand', coming', bytes', rfl, hearing', same, less⟩ :=
          hearing.manage? turn
        rw [← same] at handsOut
        exact ⟨_, by rw [e]; rfl, ih _ (hn ▸ less) hearing' handsOut rfl b'⟩
      · rcases hearing.decode? handsOut turn with
          ⟨e, b', bytes', a', rfl, handsOut', less⟩ | ⟨e, b', rfl⟩
        · exact ⟨_, by rw [e]; rfl, ih _ (hn ▸ less) hearing handsOut' rfl b'⟩
        · exact ⟨later, by rw [e], rest b'⟩
      · rw [deliver?_none] at turn
        cases turn

/-! ## 3. Frames -/

/-- In a state that listens, a frame moves the session on. -/
theorem shows_of_frame {body : List UInt8} (listens : state.isReceiving = true)
    (between : a.unfinished = []) (enclosed : Enclosed body)
    (takes : Session.transition? state (flow.react (flagged body)).event = some next)
    (rest : Scene.Shows c flow
      ⟨next, duty c flow next, none, [], [], .collecting [], items, air⟩ later) :
    Scene.Shows c flow ⟨state, duty c flow state, none, [], [], a, items, flagged body ++ air⟩
      ((flow.react (flagged body)).commands.map .dispatched ++
        ((if next = state then [] else [.entered next]) ++ later)) := by
  have listening : duty c flow state = .listening .nothing := by
    cases state <;> first | rfl | cases listens
  have quiet : flag ∉ ([] : List UInt8) := List.not_mem_nil
  have ends : Heard.nothing.closes (flagged body) :=
    Heard.closes_nothing quiet (Heard.closes_flag enclosed.ne_nil enclosed.noFlag 0)
  rw [listening]
  exact shows_of_hearing (.listening ends) (Accumulator.yields_flagged between enclosed)
    (shows_of_held takes rest)

/-- A frame that comes to nothing: a body that is enclosed, and that does not decode. -/
def Fails (flow : Flow) (body : List UInt8) : Prop :=
  Enclosed body ∧ ∃ cause, flow.decodePacket (flagged body) = .error cause

/-- **Any number of frames that come to nothing** leave no trace. -/
theorem shows_of_failing {failing : List (List UInt8)} (listens : state.isReceiving = true)
    (between : a.unfinished = []) (fails : ∀ body ∈ failing, Fails flow body)
    (rest : ∀ a : Accumulator, a.unfinished = [] →
      Scene.Shows c flow ⟨state, duty c flow state, none, [], [], a, items, air⟩ later) :
    Scene.Shows c flow
      ⟨state, duty c flow state, none, [], [], a, items, failing.flatMap flagged ++ air⟩ later := by
  induction failing generalizing a with
  | nil => exact rest a between
  | cons body failing ih =>
      obtain ⟨enclosed, cause, refused⟩ := fails body List.mem_cons_self
      have reaction := Flow.react_of_error refused
      have takes : Session.transition? state (flow.react (flagged body)).event = some state := by
        rw [reaction, Session.transition?_frameDropped, if_pos listens]
      have more :=
        ih (a := .collecting []) rfl fun body hb => fails body (List.mem_cons_of_mem _ hb)
      have shows := shows_of_frame listens between enclosed takes more
      rw [reaction, if_pos rfl] at shows
      rw [List.flatMap_cons, List.append_assoc]
      exact shows

/-- **A frame that means something arrives**, behind any number that do not. -/
theorem shows_of_arrival {failing : List (List UInt8)} {frame : List UInt8}
    {reaction : Uplink.Reaction} (listens : state.isReceiving = true) (between : a.unfinished = [])
    (fails : ∀ body ∈ failing, Fails flow body)
    (arrives : ∃ body, frame = flagged body ∧ Enclosed body) (react : flow.react frame = reaction)
    (takes : Session.transition? state reaction.event = some next) (moves : next ≠ state)
    (rest : Scene.Shows c flow
      ⟨next, duty c flow next, none, [], [], .collecting [], items, air⟩ later) :
    Scene.Shows c flow ⟨state, duty c flow state, none, [], [], a, items,
      failing.flatMap flagged ++ (frame ++ air)⟩
      (reaction.commands.map .dispatched ++ .entered next :: later) := by
  obtain ⟨body, rfl, enclosed⟩ := arrives
  refine shows_of_failing listens between fails fun a between => ?_
  rw [← react] at takes
  have shows := shows_of_frame listens between enclosed takes rest
  rwa [if_neg moves, react] at shows

/-! ## 4. Sending -/

/-- A frame is sent, and the session moves on. -/
theorem shows_of_sending {frame : List UInt8} {completion : Event}
    (takes : Session.transition? state completion = some next) (moves : next ≠ state)
    (rest : Scene.Shows c flow ⟨next, duty c flow next, none, [], [], a, items, air⟩ later) :
    Scene.Shows c flow ⟨state, .sending frame completion, none, [], [], a, items, air⟩
      (.sent frame :: .entered next :: later) := by
  refine shows_of_manage (fun _ => manage?_sending) ?_ rfl
  refine shows_of_manage (fun _ => manage?_posting) ?_ rfl
  exact shows_of_manage (fun _ => manage?_idle takes) rest (by rw [if_neg moves]; rfl)

/-- What is queued for the transmitter is sent, up to the marker. -/
theorem shows_of_collecting {packets : List (List UInt8)} {sent : Nat}
    (few : sent + packets.length < c.maxDownlinkFrames)
    (rest : Scene.Shows c flow
      ⟨.sendingDisc, duty c flow .sendingDisc, none, [], [], a, [], air⟩ later) :
    Scene.Shows c flow ⟨.downlinking, .collecting sent, none, [], [], a,
      packets.map .packet ++ [.endOfDownlink], air⟩
      (packets.map .sent ++ .entered .sendingDisc :: later) := by
  induction packets generalizing sent with
  | nil =>
      have takes : Session.transition? .downlinking .downlinkFinished = some .sendingDisc := rfl
      refine shows_of_manage (fun _ => manage?_endOfDownlink) ?_ rfl
      refine shows_of_manage (fun _ => manage?_posting) ?_ rfl
      exact shows_of_manage (fun _ => manage?_idle takes) rest rfl
  | cons packet packets ih =>
      rw [List.length_cons] at few
      refine shows_of_manage (fun _ => manage?_packet) ?_ rfl
      refine shows_of_manage (fun _ => manage?_shipping (by omega)) ?_ rfl
      exact ih (by omega)

/-! ## 5. The pass -/

/-- At the end nobody has anything to do. -/
theorem shows_of_disconnected : Scene.Shows c flow
    ⟨.disconnected, duty c flow .disconnected, none, [], [], a, items, air⟩ [] := by
  intro b
  refine .of_still ?_
  rintro _ _ (turn | turn | turn)
  · cases manage?_idle_nil.symm.trans turn
  · cases decode?_nil.symm.trans turn
  · cases deliver?_none.symm.trans turn

theorem duty_sendingAck {accept : List UInt8}
    (encoded : flow.encodeControl .ack true = .ok accept) :
    duty c flow .sendingAck = .sending accept .ackSent := by
  unfold duty Session.Manager.start Session.Manager.sendControl
  rw [encoded]

theorem duty_sendingDisc {goodbye : List UInt8}
    (encoded : flow.encodeControl .disc true = .ok goodbye) :
    duty c flow .sendingDisc = .sending goodbye .discSent := by
  unfold duty Session.Manager.start Session.Manager.sendControl
  rw [encoded]

theorem duty_downlinking (allowed : 0 < c.maxDownlinkFrames) :
    duty c flow .downlinking = .collecting 0 := by
  unfold duty Session.Manager.start Session.Manager.collect
  rw [if_pos allowed]

/-- The satellite parts, and the ground answers. -/
theorem shows_of_parting {ack goodbye : List UInt8} {failing : List (List UInt8)}
    (hack : ∃ body, ack = flagged body ∧ Enclosed body)
    (reactAck : flow.react ack = { event := .ackReceived })
    (hgoodbye : flow.encodeControl .disc true = .ok goodbye)
    (fails : ∀ body ∈ failing, Fails flow body) (items : List Downlink.Item) :
    Scene.Shows c flow
      ⟨.sendingDisc, duty c flow .sendingDisc, none, [], [], .collecting [], items,
        failing.flatMap flagged ++ (ack ++ [])⟩
      [.sent goodbye, .entered .awaitingAckDisc, .entered .disconnected] := by
  have parts : Session.transition? .sendingDisc .discSent = some .awaitingAckDisc := rfl
  have ends : Session.transition? .awaitingAckDisc .ackReceived = some .disconnected := rfl
  rw [duty_sendingDisc hgoodbye]
  refine shows_of_sending parts (by decide) ?_
  exact shows_of_arrival rfl rfl fails hack reactAck ends (by decide) shows_of_disconnected

/-- What is seen of a pass in which the ground sends these commands: the satellite's answer, the
    commands, the packets unless a command asks to disconnect, and the parting. -/
def seenOfPass (accept : List UInt8) (commands : List Command) (packets : List (List UInt8))
    (goodbye : List UInt8) : List Observation :=
  .entered .awaitingConn :: .entered .sendingAck :: .sent accept :: .entered .uplinking ::
    (commands.map .dispatched ++
      ((if commands.any (·.kind == .uplinkDisc) then []
        else .entered .downlinking :: packets.map .sent) ++
        [.entered .sendingDisc, .sent goodbye, .entered .awaitingAckDisc, .entered .disconnected]))

/-- The pass from the satellite's side. -/
theorem shows_of_pass {conn uplink ack accept goodbye : List UInt8} {commands : List Command}
    {packets failing failing' failing'' : List (List UInt8)}
    (hconn : ∃ body, conn = flagged body ∧ Enclosed body)
    (huplink : ∃ body, uplink = flagged body ∧ Enclosed body)
    (hack : ∃ body, ack = flagged body ∧ Enclosed body)
    (reactConn : flow.react conn = { event := .connReceived })
    (reactUplink : flow.react uplink = { event := Uplink.commandsEvent commands, commands })
    (reactAck : flow.react ack = { event := .ackReceived })
    (haccept : flow.encodeControl .ack true = .ok accept)
    (hgoodbye : flow.encodeControl .disc true = .ok goodbye)
    (few : packets.length < c.maxDownlinkFrames)
    (fails : ∀ body ∈ failing ++ (failing' ++ failing''), Fails flow body) :
    Scene.Shows c flow ⟨.disconnected, .idle, none, [.beginUplink], [], .hunting,
      packets.map .packet ++ [.endOfDownlink],
      failing.flatMap flagged ++ (conn ++ (failing'.flatMap flagged ++
        (uplink ++ (failing''.flatMap flagged ++ (ack ++ [])))))⟩
      (seenOfPass accept commands packets goodbye) := by
  have begins : Session.transition? .disconnected .beginUplink = some .awaitingConn := rfl
  have connects : Session.transition? .awaitingConn .connReceived = some .sendingAck := rfl
  have accepts : Session.transition? .sendingAck .ackSent = some .uplinking := rfl
  refine shows_of_manage (fun _ => manage?_idle begins) ?_ rfl
  refine shows_of_arrival rfl rfl ?_ hconn reactConn connects (by decide) ?_
  · exact fun body hb => fails body (List.mem_append_left _ hb)
  rw [duty_sendingAck haccept]
  refine shows_of_sending accepts (by decide) ?_
  have quiet : ∀ body ∈ failing', Fails flow body := fun body hb =>
    fails body (List.mem_append_right _ (List.mem_append_left _ hb))
  have parting (items : List Downlink.Item) := shows_of_parting (c := c) hack reactAck hgoodbye
    (fun body hb => fails body (List.mem_append_right _ (List.mem_append_right _ hb))) items
  by_cases disconnects : commands.any (·.kind == .uplinkDisc) = true
  · have event : Uplink.commandsEvent commands = .startDisc := if_pos disconnects
    rw [event] at reactUplink
    rw [if_pos disconnects]
    exact shows_of_arrival rfl rfl quiet huplink reactUplink rfl (by decide) (parting _)
  · have event : Uplink.commandsEvent commands = .uplinkFinished := if_neg disconnects
    rw [event] at reactUplink
    rw [if_neg disconnects]
    refine shows_of_arrival rfl rfl quiet huplink reactUplink rfl (by decide) ?_
    rw [duty_downlinking (Nat.lt_of_le_of_lt (Nat.zero_le _) few)]
    exact shows_of_collecting (by omega) (parting [])

/-- A satellite just launched, with something in its transmit queue and in the air, is told
    to listen. -/
theorem exists_begun (valid : c.validate = .ok ()) :
    ∃ satellite, Satellite.launch c = .ok satellite ∧
      Flow.ofConfig c .cubesat = .ok satellite.flow ∧
      ∀ (queue : Queue Downlink.Item) (air : List UInt8),
        let r : Rehearsal :=
          { satellite := { satellite with downlink := { satellite.downlink with queue } }
            radio := { script := air.map .byte, waits := true } }
        ∃ b, r.post .beginUplink = (.ok (), stage c satellite.flow b
          ⟨.disconnected, .idle, none, [.beginUplink], [], .hunting, queue.items, air⟩) := by
  obtain ⟨addresses, here⟩ := c.exists_linkAddresses_of_validate valid
  obtain ⟨rx, -, events⟩ := c.rooms_of_validate valid
  have launched : Satellite.launch c = .ok (Satellite.make c addresses) := by
    unfold Satellite.launch
    rw [valid, here]
    rfl
  refine ⟨_, launched, Flow.ofConfig_eq_ok_iff.mpr ⟨rfl, here⟩, ?_⟩
  intro queue air r
  let b : Backdrop :=
    { retries := 0, window := none, generation := 0, timer := .finished
      events := Queue.ofCapacity c.eventQueueLength
      bytes := Queue.ofCapacity c.decodeQueueLength
      downlink := { (Satellite.make c addresses).downlink with queue }
      failsReinit := false, sends := 0, reinits := 0
      eventsRead := rfl, eventsRoom := events, bytesRead := rfl
      bytesRoom := Nat.mul_pos rx (by decide) }
  have atRest : r = stage c (Satellite.make c addresses).flow b
    ⟨.disconnected, .idle, none, [], [], .hunting, queue.items, air⟩ := rfl
  refine ⟨b, ?_⟩
  rw [atRest]
  unfold Rehearsal.post
  rw [post_stage]
  rfl

end

/-- **Whatever the order of turns, a pass goes its way.** For every configuration a link can be run
    with, commands that fit a frame, and fewer packets in the transmit queue than a pass may have,
    with the marker behind them: after the order to listen the satellite is seen to go through the
    pass, although any number of frames that come to nothing precedes each frame of the ground. -/
theorem pass_shows (c : Config) (valid : c.validate = .ok ()) :
    ∃ ground satellite, Flow.ofConfig c .groundStation = .ok ground ∧
      Satellite.launch c = .ok satellite ∧
      ∀ commands iv poll poll', Command.totalLength commands ≤ c.cipher.capacity →
        ∃ conn uplink ack accept goodbye,
          ground.encodeControl .conn poll = .ok conn ∧
          ground.encodeCommands commands iv = .ok uplink ∧
          ground.encodeControl .ack poll' = .ok ack ∧
          satellite.flow.encodeControl .ack true = .ok accept ∧
          satellite.flow.encodeControl .disc true = .ok goodbye ∧
          ∀ (queue : Queue Downlink.Item) (packets failing failing' failing'' : List (List UInt8)),
            queue.items = packets.map .packet ++ [.endOfDownlink] →
            packets.length < c.maxDownlinkFrames →
            (∀ body ∈ failing ++ (failing' ++ failing''), Fails satellite.flow body) →
            let air := failing.flatMap flagged ++ (conn ++ (failing'.flatMap flagged ++ (uplink ++
              (failing''.flatMap flagged ++ ack))))
            let r : Rehearsal :=
              { satellite := { satellite with downlink := { satellite.downlink with queue } }
                radio := { script := air.map .byte, waits := true } }
            (r.post .beginUplink).1 = .ok () ∧
              (r.post .beginUplink).2.Shows (seenOfPass accept commands packets goodbye) := by
  obtain ⟨ground, flow, hground, hflow, same, hears⟩ := Flow.exists_hears valid
  obtain ⟨satellite, launched, hflow', begun⟩ := exists_begun valid
  obtain rfl : flow = satellite.flow := Except.ok.inj (hflow.symm.trans hflow')
  refine ⟨ground, satellite, hground, launched, ?_⟩
  intro commands iv poll poll' fits
  rw [← same] at fits
  obtain ⟨uplink, sent, -⟩ := hears.decodePacket_commands fits iv
  obtain ⟨conn, asked⟩ := ground.exists_control .conn poll
  obtain ⟨ack, answered⟩ := ground.exists_control .ack poll'
  obtain ⟨accept, haccept⟩ := satellite.flow.exists_control .ack true
  obtain ⟨goodbye, hgoodbye⟩ := satellite.flow.exists_control .disc true
  refine ⟨conn, uplink, ack, accept, goodbye, asked, sent, answered, haccept, hgoodbye, ?_⟩
  intro queue packets failing failing' failing'' waiting few fails air r
  obtain ⟨b, posted⟩ := begun queue air
  rw [waiting] at posted
  rw [posted]
  refine ⟨rfl, ?_⟩
  have shows := shows_of_pass (Flow.Sends.control asked).enclosed
    (Flow.Sends.commands sent).enclosed (Flow.Sends.control answered).enclosed
    (hears.react_of_sends (.control asked)) (hears.react_of_sends (.commands sent))
    (hears.react_of_sends (.control answered)) haccept hgoodbye few fails b
  rw [List.append_nil] at shows
  exact shows

/-- A ping, with frames of eight ones in front of the request and of the last answer, and two
    packets in the transmit queue. -/
theorem pass_shows_noisy_ping : Config.standard.validate = .ok () ∧
    ∃ ground satellite conn uplink ack accept goodbye,
      Flow.ofConfig .standard .groundStation = .ok ground ∧
      Satellite.launch .standard = .ok satellite ∧
      ground.encodeControl .conn true = .ok conn ∧
      ground.encodeCommands [.immediate .ping] (Block.zero 16) = .ok uplink ∧
      ground.encodeControl .ack false = .ok ack ∧
      satellite.flow.encodeControl .ack true = .ok accept ∧
      satellite.flow.encodeControl .disc true = .ok goodbye ∧
      let queue : Queue Downlink.Item :=
        { items := [.packet [1], .packet [2], .endOfDownlink], capacity := 3 }
      let air := flagged [0xFF] ++ (conn ++ (uplink ++ (flagged [0xFF] ++ flagged [0xFF] ++ ack)))
      let r : Rehearsal :=
        { satellite := { satellite with downlink := { satellite.downlink with queue } }
          radio := { script := air.map .byte, waits := true } }
      (∀ body ∈ [[0xFF], [0xFF], [0xFF]], Fails satellite.flow body) ∧
        (r.post .beginUplink).1 = .ok () ∧ (r.post .beginUplink).2.Shows
          [.entered .awaitingConn, .entered .sendingAck, .sent accept, .entered .uplinking,
            .dispatched (.immediate .ping), .entered .downlinking, .sent [1], .sent [2],
            .entered .sendingDisc, .sent goodbye, .entered .awaitingAckDisc,
            .entered .disconnected] := by
  have valid : Config.standard.validate = .ok () := by decide +kernel
  obtain ⟨ground, satellite, hground, launched, passes⟩ := pass_shows .standard valid
  obtain ⟨conn, uplink, ack, accept, goodbye, asked, sent, answered, haccept, hgoodbye, shows⟩ :=
    passes [.immediate .ping] (Block.zero 16) true false (by decide)
  have fails : ∀ body ∈ [[0xFF], [0xFF], [0xFF]], Fails satellite.flow body := by
    have ones : Fails satellite.flow [0xFF] :=
      ⟨⟨by decide, by decide, by decide⟩, .corruptedFrame, rfl⟩
    simpa using ones
  exact ⟨valid, ground, satellite, conn, uplink, ack, accept, goodbye, hground, launched,
    asked, sent, answered, haccept, hgoodbye, fails,
    shows _ [[1], [2]] [[0xFF]] [] [[0xFF], [0xFF]] rfl (by decide) fails⟩

end Rehearsal

end SatLink
