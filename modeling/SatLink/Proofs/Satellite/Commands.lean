import SatLink.Proofs.Satellite.Histories
import SatLink.Proofs.Session.Listening
import SatLink.Proofs.Uplink.Stream

/-!
# Where commands come from

The decoder does not know the state of the session: it hands over the commands of every frame that
it can decode. What it gets to decode is what the manager has heard, and the manager hears nothing
unless its state listens.

* `hears`, `forwards` — the bytes of a history, each with the state that it was heard in;
* `Follows` — the decoder's bytes are those of the history, in their order;
* `commands_of_listening` — the frame of every command was heard in states that listen;
* `Hearing.dispatches` — in each such state, whichever it is, a frame of commands is carried out;
* `commands_before_handshake` — so also in those that come before the answer of the ground.
-/

namespace SatLink.Satellite

open SatLink.Frame (flag flagged)
open Session (State Event Activity Heard Manager Reply)
open Uplink (Accumulator Decoder Enclosed)

/-! ## 1. The bytes of a history -/

/-- The bytes that the manager has heard. -/
def hears (notes : List Note) : List (State × UInt8) :=
  notes.filterMap fun
    | .heard state byte => some (state, byte)
    | _ => none

/-- The bytes that it has forwarded. -/
def forwards (notes : List Note) : List (State × UInt8) :=
  notes.filterMap fun
    | .forwarded state byte => some (state, byte)
    | _ => none

theorem hears_append (xs ys : List Note) : hears (xs ++ ys) = hears xs ++ hears ys :=
  List.filterMap_append

theorem forwards_append (xs ys : List Note) : forwards (xs ++ ys) = forwards xs ++ forwards ys :=
  List.filterMap_append

/-- Neither a byte heard nor one forwarded is noted. -/
def Silent (notes : List Note) : Prop := hears notes = [] ∧ forwards notes = []

theorem silent_moved (m n : Manager) : Silent (moved m n) :=
  ⟨filterMap_moved (fun _ => rfl) m n, filterMap_moved (fun _ => rfl) m n⟩

theorem silent_dispatched (commands : List Command) : Silent (commands.map .dispatched) :=
  ⟨filterMap_dispatched (fun _ => rfl) commands, filterMap_dispatched (fun _ => rfl) commands⟩

/-- The byte that the manager has heard and not yet forwarded. -/
def pending (m : Manager) : List (State × UInt8) :=
  match m.activity with
  | .forwarding byte _ => [(m.state, byte)]
  | _ => []

/-! ## 2. What the decoder has of them -/

/-- What the decoder has of a frame are the bytes that it took last. -/
def Collects (past : List (State × UInt8)) : Accumulator → Prop
  | .hunting => True
  | .collecting body => ∃ before span, past = before ++ span ∧ span.map Prod.snd = flag :: body

theorem Collects.push {past : List (State × UInt8)} {a : Accumulator} (collects : Collects past a)
    (entry : State × UInt8) : Collects (past ++ [entry]) (a.push entry.2).2 := by
  by_cases isFlag : entry.2 = flag
  · rw [isFlag, (a.push_flag).2]
    exact ⟨past, [entry], rfl, congrArg (fun byte => [byte]) isFlag⟩
  · cases a with
    | hunting =>
        rw [Accumulator.push_hunting isFlag]
        exact trivial
    | collecting body =>
        obtain ⟨before, span, rfl, bytes⟩ := collects
        rw [Accumulator.push_collecting isFlag]
        dsimp only
        split
        · refine ⟨before, span ++ [entry], List.append_assoc .., ?_⟩
          rw [List.map_append, bytes]
          rfl
        · exact trivial

/-- The frame that a byte closes ends with this byte. -/
theorem Collects.frame {past : List (State × UInt8)} {a : Accumulator} (collects : Collects past a)
    (entry : State × UInt8) {frame : List UInt8} (push : (a.push entry.2).1 = some frame) :
    ∃ before span, past ++ [entry] = before ++ span ∧ span.map Prod.snd = frame := by
  have isFlag : entry.2 = flag := by
    by_contra other
    rw [Accumulator.push_of_ne other] at push
    cases push
  cases a with
  | hunting => cases push
  | collecting body =>
      obtain ⟨before, span, rfl, bytes⟩ := collects
      have closes : [frame] = Accumulator.closed body := by
        rw [isFlag] at push
        have handed := (Accumulator.push_flag (.collecting body)).1
        rw [push] at handed
        exact handed
      unfold Accumulator.closed at closes
      split at closes
      · cases closes
        refine ⟨before, span ++ [entry], List.append_assoc .., ?_⟩
        rw [List.map_append, bytes, List.map_singleton, isFlag]
        rfl
      · cases closes

/-! ## 3. Bytes in order -/

/-- The decoder's bytes are those of the history. -/
structure Follows (notes : List Note) (s : Satellite) : Prop where
  receiving : ∀ entry ∈ forwards notes, entry.1.isReceiving = true
  heard : (forwards notes ++ pending s.manager).Sublist (hears notes)
  decoded : ∃ past queued, forwards notes = past ++ queued ∧
    queued.map Prod.snd = s.bytes.items ∧ Collects past s.decoder.accumulator

section

variable {may : Event → Prop} {s t u : Satellite} {notes more : List Note}

/-- As long as no byte is heard, forwarded or decoded, nothing changes but that a byte or a frame
    that was begun may be forgotten. -/
theorem Follows.quiet (follows : Follows notes s) (silent : Silent more)
    (waits : pending t.manager = pending s.manager ∨ pending t.manager = [])
    (bytes : t.bytes.items = s.bytes.items)
    (kept : t.decoder.accumulator = s.decoder.accumulator ∨ t.decoder.accumulator = .hunting) :
    Follows (notes ++ more) t := by
  obtain ⟨unheard, unforwarded⟩ := silent
  obtain ⟨receiving, heard, past, queued, split, items, collects⟩ := follows
  have same : forwards (notes ++ more) = forwards notes := by
    rw [forwards_append, unforwarded, List.append_nil]
  refine ⟨?_, ?_, past, queued, same.trans split, items.trans bytes.symm, ?_⟩
  · rw [same]
    exact receiving
  · rw [same, hears_append, unheard, List.append_nil]
    rcases waits with waits | waits
    · rw [waits]
      exact heard
    · rw [waits, List.append_nil]
      exact (List.sublist_append_left ..).trans heard
  · rcases kept with kept | kept
    · rw [kept]
      exact collects
    · rw [kept]
      exact trivial

theorem pending_of_begins {m : Manager} {c : Config} {flow : Uplink.Flow}
    (begins : Session.Begins c flow m.state m.activity) : pending m = [] := by
  unfold pending
  generalize m.activity = activity at begins
  generalize m.state = state at begins
  cases begins <;> rfl

theorem pending_of_transmits {m : Manager} (transmits : Transmits m.activity) : pending m = [] := by
  unfold pending
  generalize m.activity = activity at transmits
  cases activity with
  | forwarding => exact transmits.elim
  | _ => rfl

/-- A manager that listens holds no byte; it holds the next that it hears. -/
theorem Follows.hear (follows : Follows notes s) {heard : Session.Heard}
    (listens : s.manager.activity = .listening heard) (byte : UInt8) :
    Follows (notes ++ [.heard s.manager.state byte])
      { s with manager := { s.manager with activity := .forwarding byte heard } } := by
  have nothing : pending s.manager = [] := by
    rw [pending, listens]
  have same : forwards (notes ++ [.heard s.manager.state byte]) = forwards notes := by
    rw [forwards_append]
    exact List.append_nil _
  refine ⟨?_, ?_, ?_⟩
  · rw [same]
    exact follows.receiving
  · have before := follows.heard
    rw [nothing, List.append_nil] at before
    rw [same, hears_append]
    exact before.append (List.Sublist.refl _)
  · rw [same]
    exact follows.decoded

/-- The byte that a manager holds becomes the last of the decoder's. -/
theorem Follows.forward (follows : Follows notes s) {byte : UInt8} {heard : Session.Heard}
    {activity : Activity} {bytes : Queue UInt8} (receiving : s.manager.state.isReceiving = true)
    (holds : s.manager.activity = .forwarding byte heard)
    (last : bytes.items = s.bytes.items ++ [byte])
    (nothing : pending { s.manager with activity } = []) :
    Follows (notes ++ [.forwarded s.manager.state byte])
      { s with manager := { s.manager with activity }, bytes } := by
  have waiting : pending s.manager = [(s.manager.state, byte)] := by
    rw [pending, holds]
  have longer : forwards (notes ++ [.forwarded s.manager.state byte]) =
      forwards notes ++ [(s.manager.state, byte)] := forwards_append ..
  refine ⟨?_, ?_, ?_⟩
  · rw [longer]
    exact List.forall_mem_append.mpr ⟨follows.receiving, List.forall_mem_singleton.mpr receiving⟩
  · have before := follows.heard
    rw [waiting] at before
    rw [longer, nothing, List.append_nil, hears_append]
    exact before.trans (List.sublist_append_left ..)
  · obtain ⟨past, queued, split, items, collects⟩ := follows.decoded
    refine ⟨past, queued ++ [(s.manager.state, byte)], ?_, ?_, collects⟩
    · rw [longer, split, List.append_assoc]
    · rw [List.map_append, items, last]
      rfl

/-- The decoder takes the first of its bytes. -/
theorem Follows.decode (follows : Follows notes s) {byte : UInt8} {bytes : Queue UInt8}
    (first : s.bytes.items = byte :: bytes.items) :
    ∃ past state queued, forwards notes = past ++ (state, byte) :: queued ∧
      queued.map Prod.snd = bytes.items ∧ Collects past s.decoder.accumulator := by
  obtain ⟨past, queued, split, items, collects⟩ := follows.decoded
  rw [first] at items
  cases queued with
  | nil => cases items
  | cons entry queued =>
      obtain ⟨state, byte'⟩ := entry
      injection items with same rest
      cases same
      exact ⟨past, state, queued, split, rest, collects⟩

theorem Follows.decoded_push (follows : Follows notes s) {byte : UInt8} {bytes : Queue UInt8}
    {decoder : Decoder} {held : Option Event} (silent : Silent more)
    (first : s.bytes.items = byte :: bytes.items)
    (push : (s.decoder.accumulator.push byte).2 = decoder.accumulator) :
    Follows (notes ++ more) { s with bytes, decoder, held } := by
  obtain ⟨past, state, queued, split, items, collects⟩ := follows.decode first
  obtain ⟨unheard, unforwarded⟩ := silent
  have same : forwards (notes ++ more) = forwards notes := by
    rw [forwards_append, unforwarded, List.append_nil]
  refine ⟨?_, ?_, past ++ [(state, byte)], queued, ?_, items, ?_⟩
  · rw [same]
    exact follows.receiving
  · rw [same, hears_append, unheard, List.append_nil]
    exact follows.heard
  · rw [same, split, List.append_assoc]
    rfl
  · show Collects _ decoder.accumulator
    rw [← push]
    exact collects.push (state, byte)

/-- **What a turn leaves of it.** -/
theorem Follows.change (follows : Follows notes s)
    (does : s.manager.state.Does s.flow s.manager.activity) (change : Change may s more t) :
    Follows (notes ++ more) t := by
  cases change with
  | took _ _ enters =>
      exact follows.quiet (silent_moved _ _) (.inr (pending_of_begins enters.begins)) rfl (.inl rfl)
  | heard listens byte => exact follows.hear listens byte
  | forwarded holds last next =>
      rw [holds] at does
      exact follows.forward does holds last (by rcases next with rfl | ⟨_, rfl⟩ <;> rfl)
  | @transmitted more activity downlink transmits next noted =>
      have silent : Silent more := by
        rcases noted with rfl | ⟨_, rfl⟩ <;> exact ⟨rfl, rfl⟩
      have nothing : pending { s.manager with activity } = [] := by
        rcases next with transmits | rfl
        · exact pending_of_transmits transmits
        · rfl
      exact follows.quiet silent (.inr nothing) rfl (.inl rfl)
  | again | sent | recovered | posted | reported | failed =>
      exact follows.quiet ⟨rfl, rfl⟩ (.inr rfl) rfl (.inl rfl)
  | reset => exact follows.quiet (silent_moved _ _) (.inr rfl) rfl (.inl rfl)
  | decoded first push =>
      exact follows.decoded_push ⟨rfl, rfl⟩ first (congrArg Prod.snd push)
  | framed first push =>
      exact follows.decoded_push (silent_dispatched _) first (congrArg Prod.snd push)
  | delivered | lost | came | supplied | refused =>
      exact follows.quiet ⟨rfl, rfl⟩ (.inl rfl) rfl (.inl rfl)
  | passed window kept => exact follows.quiet ⟨rfl, rfl⟩ (.inl rfl) rfl kept

theorem Follows.run {c : Config} {addresses : LinkAddresses}
    (run : Run may (make c addresses) notes s) :
    Follows notes s := by
  induction run with
  | start => exact ⟨nofun, .slnil, [], [], rfl, rfl, trivial⟩
  | turn run turn ih => exact ih.change (run.sound (sound_make c addresses)).does turn.change

/-! ## 4. Commands -/

theorem decode?_eq {byte : UInt8} {rest : List UInt8} (unheld : s.held = none)
    (first : s.bytes.items = byte :: rest) :
    s.decode? = some
      (((s.decoder.push s.config.flagTimeout byte).1.map s.flow.react).elim [] (·.commands),
      { s with
        bytes := { s.bytes with items := rest }
        decoder := (s.decoder.push s.config.flagTimeout byte).2
        held := ((s.decoder.push s.config.flagTimeout byte).1.map s.flow.react).map
          (·.event) }) := by
  unfold decode? Queue.receive
  rw [unheld, first]
  dsimp only
  cases s.decoder.push s.config.flagTimeout byte with
  | mk frame decoder =>
      cases frame with
      | none =>
          obtain ⟨config, flow, manager, d, held, events, bytes, downlink⟩ := s
          cases unheld
          rfl
      | some frame => rfl

theorem decodePacket_of_react {flow : Uplink.Flow} {frame : List UInt8}
    (filled : (flow.react frame).commands ≠ []) :
    flow.decodePacket frame = .ok (.commands (flow.react frame).commands) := by
  unfold Uplink.Flow.react at filled ⊢
  split at filled
  next e => exact absurd rfl filled
  next commands e => rw [e]
  next e => exact absurd rfl filled

/-- Commands are those of the frame that a byte closes. -/
theorem exists_frame_of_decode? {commands : List Command} (h : s.decode? = some (commands, t))
    (filled : commands ≠ []) : ∃ byte, ∃ bytes : Queue UInt8, ∃ frame,
      s.bytes.items = byte :: bytes.items ∧ (s.decoder.accumulator.push byte).1 = some frame ∧
      s.flow.decodePacket frame = .ok (.commands commands) := by
  unfold decode? at h
  split at h
  · cases h
  · cases h
  next byte bytes unheld first =>
    split at h
    next push =>
      cases h
      exact absurd rfl filled
    next frame decoder push =>
      cases h
      exact ⟨byte, bytes, frame, Queue.receive_items first, congrArg Prod.fst (push_cases push),
        decodePacket_of_react filled⟩

/-- **Where commands come from.** Whatever happens to a satellite, the commands that the decoder
    hands over are those of one frame that it can decode. The manager forwarded the bytes of this
    frame one after the other, and heard each of them in a state that listens. -/
theorem commands_of_listening {c : Config} {addresses : LinkAddresses}
    (run : Run may (make c addresses) notes s) {commands : List Command}
    (h : s.decode? = some (commands, t)) {command : Command} (mem : command ∈ commands) :
    ∃ frame before span after, s.flow.decodePacket frame = .ok (.commands commands) ∧
      forwards notes = before ++ span ++ after ∧ span.map Prod.snd = frame ∧
      (∀ entry ∈ span, entry.1.isReceiving = true) ∧ (forwards notes).Sublist (hears notes) := by
  have follows := Follows.run run
  obtain ⟨byte, bytes, frame, first, push, decodes⟩ :=
    exists_frame_of_decode? h (List.ne_nil_of_mem mem)
  obtain ⟨past, state, queued, split, -, collects⟩ := follows.decode first
  obtain ⟨before, span, cut, spells⟩ := collects.frame (state, byte) push
  have whole : forwards notes = before ++ span ++ queued := by
    rw [split, List.append_cons, cut]
  refine ⟨frame, before, span, queued, decodes, whole, spells, fun entry mem => ?_, ?_⟩
  · refine follows.receiving entry ?_
    rw [whole]
    exact List.mem_append_left _ (List.mem_append_right _ mem)
  · exact (List.sublist_append_left ..).trans follows.heard

/-! ## 5. Frames in a state that listens -/

/-- The manager listens, and the decoder waits for the next byte. -/
structure Hearing (s : Satellite) (state : State) (heard : Heard) (a : Accumulator) : Prop where
  state_eq : s.manager.state = state
  listens : s.manager.activity = .listening heard
  collects : s.decoder.accumulator = a
  unheld : s.held = none
  empty : s.bytes.items = []
  reads : s.bytes.hasReader = true
  room : 0 < s.bytes.capacity

/-- A byte that is heard and forwarded. -/
def pass (s : Satellite) (heard : Heard) (byte : UInt8) : Satellite :=
  { s with
    manager := { s.manager with activity := (heard.after byte).elim .idle .listening }
    bytes := { s.bytes with items := [byte] } }

/-- What is noted of bytes that are heard and forwarded one after the other. -/
def spelled (state : State) (bytes : List UInt8) : List Note :=
  bytes.flatMap fun byte => [.heard state byte, .forwarded state byte]

theorem forwards_spelled (state : State) (bytes : List UInt8) :
    forwards (spelled state bytes) = bytes.map (state, ·) := by
  induction bytes with
  | nil => rfl
  | cons byte bytes ih =>
      show forwards ([.heard state byte, .forwarded state byte] ++ spelled state bytes) = _
      rw [forwards_append, ih]
      rfl

theorem entered_notMem_spelled (state next : State) (bytes : List UInt8) :
    .entered next ∉ spelled state bytes := by
  intro mem
  obtain ⟨byte, -, mem⟩ := List.mem_flatMap.mp mem
  rcases List.mem_cons.mp mem with e | mem
  · cases e
  · cases List.mem_singleton.mp mem

section

variable {state : State} {heard : Heard} {a : Accumulator}

theorem Hearing.pass (hearing : Hearing s state heard a) (byte : UInt8) :
    Run may s (spelled state [byte]) (s.pass heard byte) := by
  obtain ⟨rfl, listens, -, -, empty, reads, room⟩ := hearing
  have hears : Turn may s [.heard s.manager.state byte]
      { s with manager := { s.manager with activity := .forwarding byte heard } } := by
    refine .of_radio (.received (.ok (some byte))) (listens ▸ trivial) (listens ▸ trivial) ?_ ?_
    · unfold Manager.step
      rw [listens]
    · refine (noted_same rfl).trans ?_
      unfold answered
      rw [listens]
  have taken : s.bytes.send byte = .ok { s.bytes with items := [byte] } := by
    rw [Queue.send_of_lt reads (by rw [empty]; exact room), empty]
    rfl
  have answer :
      answer? { s with manager := { s.manager with activity := .forwarding byte heard } } =
      some (.queued (.ok ()), { s with
        manager := { s.manager with activity := .forwarding byte heard }
        bytes := { s.bytes with items := [byte] } }) := by
    unfold answer?
    dsimp only
    rw [taken]
  exact hears.run.turn (.of_queue answer (Session.step_forwarding rfl) (noted_same rfl))

/-- The decoder's turn behind it. -/
theorem Hearing.decode?_pass (hearing : Hearing s state heard a) {byte : UInt8}
    {closed : Option (List UInt8)} {b : Accumulator} (push : a.push byte = (closed, b)) :
    ∃ t, (s.pass heard byte).decode? = some ((closed.map s.flow.react).elim [] (·.commands), t) ∧
      t.manager = (s.pass heard byte).manager ∧ t.flow = s.flow ∧ t.decoder.accumulator = b ∧
      t.held = (closed.map s.flow.react).map (·.event) ∧
        t.bytes = { s.bytes with items := [] } := by
  obtain ⟨handed, next⟩ := s.decoder.push_eq s.config.flagTimeout byte
  rw [hearing.collects, push] at handed next
  have decodes : (s.pass heard byte).decode? = some
      (((s.decoder.push s.config.flagTimeout byte).1.map s.flow.react).elim [] (·.commands), _) :=
    decode?_eq hearing.unheld rfl
  rw [handed] at decodes
  exact ⟨_, decodes, rfl, rfl, next,
    congrArg (fun frame => (frame.map s.flow.react).map (·.event)) handed, rfl⟩

/-- Bytes that are a frame to the manager and to the decoder are heard, forwarded and decoded. -/
theorem Hearing.hands_over {bytes frame : List UInt8} (hearing : Hearing s state heard a)
    (stops : heard.closes bytes) (handsOut : a.yields frame bytes) :
    ∃ t u, Run may s (spelled state bytes) t ∧
      t.decode? = some ((s.flow.react frame).commands, u) := by
  induction bytes generalizing s heard a with
  | nil => exact stops.elim
  | cons byte bytes ih =>
      have passed : Run may s (spelled state [byte]) (s.pass heard byte) := hearing.pass byte
      rw [Accumulator.yields] at handsOut
      rw [Heard.closes] at stops
      cases push : a.push byte with
      | mk closed b =>
          obtain ⟨t, decodes, manager, flow, collects, held, queued⟩ := hearing.decode?_pass push
          rw [push] at handsOut
          cases closed with
          | some closed =>
              obtain ⟨rfl, rfl⟩ := handsOut
              exact ⟨_, _, passed, decodes⟩
          | none =>
              cases more : heard.after byte with
              | none =>
                  rw [more] at stops
                  subst stops
                  exact handsOut.elim
              | some later =>
                  rw [more] at stops
                  have goesOn : Hearing t state later b := by
                    refine ⟨?_, ?_, collects, held, ?_, ?_, ?_⟩
                    · rw [manager]
                      exact hearing.state_eq
                    · rw [manager]
                      show (heard.after byte).elim Activity.idle .listening = _
                      rw [more]
                      rfl
                    · rw [queued]
                    · rw [queued]
                      exact hearing.reads
                    · rw [queued]
                      exact hearing.room
                  obtain ⟨u, v, run, last⟩ := ih goesOn stops handsOut
                  rw [flow] at last
                  exact ⟨u, v, (passed.turn (.decode decodes)).trans run, last⟩

/-- **In whichever state it listens**, the manager passes a frame of the ground on, and the decoder
    hands over the commands in it. -/
theorem Hearing.dispatches {ground : Uplink.Flow} {commands : List Command} {iv : Block 16}
    {frame : List UInt8} (hearing : Hearing s state .nothing .hunting) (hears : s.flow.Hears ground)
    (sent : ground.encodeCommands commands iv = .ok frame) :
    ∃ t u, Run may s (spelled state frame) t ∧ t.decode? = some (commands, u) := by
  have sends := Uplink.Flow.Sends.commands sent
  obtain ⟨body, rfl, enclosed⟩ := sends.enclosed
  have stops : Heard.nothing.closes (flagged body) :=
    Heard.closes_nothing List.not_mem_nil (Heard.closes_flag enclosed.ne_nil enclosed.noFlag 0)
  obtain ⟨t, u, run, decodes⟩ := hearing.hands_over stops (Accumulator.yields_flagged rfl enclosed)
  rw [hears.react_of_sends sends] at decodes
  exact ⟨t, u, run, decodes⟩

end

end

/-! ## 6. Sessions that have not begun -/

section

variable {c : Config} {addresses : LinkAddresses}

/-- A satellite at rest that has become busy with something. -/
theorem hearing_make (room : 0 < c.decodeQueueLength) {m : Manager}
    (listens : m.activity = .listening .nothing) :
    Hearing { make c addresses with manager := m } m.state .nothing .hunting :=
  ⟨rfl, listens, rfl, rfl, rfl, rfl, room⟩

variable (c addresses) in
/-- A session that begins with an order to listen. -/
theorem run_awaitingConn (room : 0 < c.eventQueueLength) : Run (fun _ => True) (make c addresses)
    [.posted .beginUplink false, .took .beginUplink, .entered .awaitingConn]
    { make c addresses with
      manager := ⟨.awaitingConn, 0, some c.connTimeout, .listening .nothing⟩ } :=
  (unqueued_make room .initial).takes rfl trivial rfl

variable (c) in
/-- An emergency session, until it waits for the answer of the ground. -/
theorem run_awaitingAckConn (room : 0 < c.eventQueueLength) {frame : List UInt8}
    (encoded : (⟨c.cipher, addresses⟩ : Uplink.Flow).encodeControl .conn true = .ok frame) :
    Run (fun _ => True) (make c addresses)
      [.posted .enterEmergency false, .took .enterEmergency, .entered .enteringEmergency,
        .posted .emergencyInitialized true, .took .emergencyInitialized, .entered .sendingConn,
        .sent frame, .posted .connSent true, .took .connSent, .entered .awaitingAckConn]
      { make c addresses with
        manager := ⟨.awaitingAckConn, 0, some c.ackTimeout, .listening .nothing⟩ } := by
  have ordered : Run (fun _ => True) (make c addresses)
      [.posted .enterEmergency false, .took .enterEmergency, .entered .enteringEmergency]
      { make c addresses with manager := ⟨.enteringEmergency, 0, none, .reinitializing⟩ } :=
    (unqueued_make room .initial).takes rfl trivial rfl
  have requested : Run (fun _ => True) _ _ _ :=
    (unqueued_make room ⟨.enteringEmergency, 0, none, .reinitializing⟩).requests encoded rfl
  exact ordered.trans requested

variable (c) in
/-- A downlink with nothing to send, until the parting is to be answered. -/
theorem run_awaitingAckDisc (room : 0 < c.eventQueueLength) (downlinks : 0 < c.maxDownlinkFrames)
    {frame : List UInt8}
    (encoded : (⟨c.cipher, addresses⟩ : Uplink.Flow).encodeControl .disc true = .ok frame) :
    Run (fun _ => True) (make c addresses)
      [.posted .beginDownlink false, .took .beginDownlink, .entered .downlinking,
        .posted .downlinkFinished true, .took .downlinkFinished, .entered .sendingDisc,
        .sent frame, .posted .discSent true, .took .discSent, .entered .awaitingAckDisc]
      { make c addresses with
        manager := ⟨.awaitingAckDisc, 0, some c.ackTimeout, .listening .nothing⟩ } := by
  have collects : Manager.process .initial c ⟨c.cipher, addresses⟩ .beginDownlink =
      ⟨.downlinking, 0, none, .collecting 0⟩ := if_pos downlinks
  have parts : Manager.process ⟨.downlinking, 0, none, .idle⟩ c ⟨c.cipher, addresses⟩
      .downlinkFinished = ⟨.sendingDisc, 0, none, .sending frame .discSent⟩ :=
    Session.sendControl_eq ⟨.sendingDisc, 0, none, .idle⟩ encoded .discSent
  have ordered : Run (fun _ => True) (make c addresses)
      [.posted .beginDownlink false, .took .beginDownlink, .entered .downlinking]
      { make c addresses with manager := ⟨.downlinking, 0, none, .collecting 0⟩ } :=
    (unqueued_make room .initial).takes rfl trivial collects
  have drained : Turn (fun _ => True)
      { make c addresses with manager := ⟨.downlinking, 0, none, .collecting 0⟩ } []
      { make c addresses with manager := ⟨.downlinking, 0, none, .posting .downlinkFinished⟩ } :=
    .of_queue (t := { make c addresses with manager := ⟨.downlinking, 0, none, .collecting 0⟩ })
      rfl rfl rfl
  have free (m : Manager) : Unqueued { make c addresses with manager := m } := unqueued_make room m
  have finished : Run (fun _ => True) _ _ _ :=
    (free ⟨.downlinking, 0, none, .posting .downlinkFinished⟩).completes rfl parts
  have sent : Run (fun _ => True) _ _ _ :=
    (free ⟨.sendingDisc, 0, none, .sending frame .discSent⟩).sends rfl rfl
  exact ((ordered.turn drained).trans finished).trans sent

end

/-- Under the standard settings a ping is encoded, and can be decoded. -/
theorem exists_ping : ∃ addresses ground frame,
    Config.standard.linkAddresses .cubesat = .ok addresses ∧
    Uplink.Flow.ofConfig .standard .groundStation = .ok ground ∧
    ground.encodeCommands [.immediate .ping] (Block.zero 16) = .ok frame ∧
    (⟨Config.standard.cipher, addresses⟩ : Uplink.Flow).Hears ground := by
  obtain ⟨ground, flow, hground, hflow, cipher, hears⟩ :=
    Uplink.Flow.exists_hears (c := .standard) (by decide +kernel)
  obtain ⟨same, here⟩ := Uplink.Flow.ofConfig_eq_ok_iff.mp hflow
  obtain ⟨_, addresses⟩ := flow
  cases same
  have fits : Command.totalLength [.immediate .ping] ≤ ground.capacity := by
    rw [Uplink.Flow.capacity, cipher]
    decide
  obtain ⟨frame, sent⟩ := ground.exists_commands fits (Block.zero 16)
  exact ⟨addresses, ground, frame, here, hground, sent, hears⟩

/-- Under the standard settings: a ping, and where its frame was heard. -/
theorem commands_of_listening_ping : ∃ addresses notes s t,
    Config.standard.linkAddresses .cubesat = .ok addresses ∧
    Run (fun _ => True) (make .standard addresses) notes s ∧
    s.decode? = some ([.immediate .ping], t) ∧ Command.immediate .ping ∈ [Command.immediate .ping] ∧
    ∃ frame before span after, s.flow.decodePacket frame = .ok (.commands [.immediate .ping]) ∧
      forwards notes = before ++ span ++ after ∧ span.map Prod.snd = frame ∧
      (∀ entry ∈ span, entry.1.isReceiving = true) ∧ (forwards notes).Sublist (hears notes) := by
  obtain ⟨addresses, ground, frame, here, -, sent, hears⟩ := exists_ping
  have ordered := run_awaitingConn .standard addresses (by decide)
  have hearing : Hearing { make .standard addresses with
      manager := ⟨.awaitingConn, 0, some Config.standard.connTimeout, .listening .nothing⟩ }
      .awaitingConn .nothing .hunting := hearing_make (by decide) rfl
  obtain ⟨s, t, passed, decodes⟩ := hearing.dispatches hears sent
  have mem : Command.immediate .ping ∈ [Command.immediate .ping] := List.mem_singleton_self _
  exact ⟨addresses, _, s, t, here, ordered.trans passed, decodes, mem,
    commands_of_listening (ordered.trans passed) decodes mem⟩

/-- **The state has no say.** Under the standard settings a frame with a ping is carried out in
    every state that listens, before a connection is made, before the answer to the emergency, and
    after the parting, though the link has not been up. -/
theorem commands_before_handshake : ∃ addresses ground frame,
    Config.standard.linkAddresses .cubesat = .ok addresses ∧
    Uplink.Flow.ofConfig .standard .groundStation = .ok ground ∧
    ground.encodeCommands [.immediate .ping] (Block.zero 16) = .ok frame ∧
    ∀ state ∈ [State.awaitingConn, .awaitingAckConn, .awaitingAckDisc], ∃ notes s t,
      Run (fun _ => True) (make .standard addresses) notes s ∧
      s.decode? = some ([.immediate .ping], t) ∧ forwards notes = frame.map (state, ·) ∧
      .entered .uplinking ∉ notes ∧ .entered .emergencyUplink ∉ notes := by
  obtain ⟨addresses, ground, frame, here, hground, sent, hears⟩ := exists_ping
  refine ⟨addresses, ground, frame, here, hground, sent, ?_⟩
  obtain ⟨conn, hconn⟩ :=
    (⟨Config.standard.cipher, addresses⟩ : Uplink.Flow).exists_control .conn true
  obtain ⟨disc, hdisc⟩ :=
    (⟨Config.standard.cipher, addresses⟩ : Uplink.Flow).exists_control .disc true
  -- what happens up to the frame is different for each state, and all that follows is not
  have follows {notes : List Note} {m : Manager}
      (run : Run (fun _ => True) (make .standard addresses) notes
        { make .standard addresses with manager := m })
      (listens : m.activity = .listening .nothing) (silent : forwards notes = [])
      (down : .entered .uplinking ∉ notes ∧ .entered .emergencyUplink ∉ notes) :
      ∃ notes s t, Run (fun _ => True) (make .standard addresses) notes s ∧
        s.decode? = some ([.immediate .ping], t) ∧ forwards notes = frame.map (m.state, ·) ∧
        .entered .uplinking ∉ notes ∧ .entered .emergencyUplink ∉ notes := by
    obtain ⟨t, u, passed, decodes⟩ := (hearing_make (by decide) listens).dispatches hears sent
    refine ⟨_, t, u, run.trans passed, decodes, ?_, ?_, ?_⟩
    · rw [forwards_append, silent, forwards_spelled]
      rfl
    · exact fun mem => (List.mem_append.mp mem).elim down.1 (entered_notMem_spelled _ _ _)
    · exact fun mem => (List.mem_append.mp mem).elim down.2 (entered_notMem_spelled _ _ _)
  intro state mem
  simp only [List.mem_cons, List.not_mem_nil, or_false] at mem
  rcases mem with rfl | rfl | rfl
  · exact follows (run_awaitingConn .standard addresses (by decide)) rfl rfl (by simp)
  · exact follows (run_awaitingAckConn .standard (by decide) hconn) rfl rfl (by simp)
  · exact follows (run_awaitingAckDisc .standard (by decide) (by decide) hdisc) rfl rfl (by simp)

end SatLink.Satellite
