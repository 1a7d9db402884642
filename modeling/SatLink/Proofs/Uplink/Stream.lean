import SatLink.Proofs.Uplink.Receiver
import SatLink.Proofs.Uplink.RoundTrip

/-!
# Frames in noise

A stream of frames with noise before, between and behind them is fed to a decoder byte by byte.
Whatever the noise is, every frame is taken as it was sent:

* `frames_stream` — the frames are handed out in order, and of each noise between two of them at
  most one more;
* `Sends` and `react_of_sends` — what the ground sends, and what the satellite makes of it;
* `stream_handled` — the whole stream, for the two ends of any configuration and any application.

The flag at the end of a frame opens whatever comes next, so noise between two frames is taken for a
frame if it fits, and is lost as a whole if it does not.
-/

namespace SatLink.Uplink

open SatLink.Frame (flag flagged)

/-! ## 1. Streams -/

/-- A frame, what the satellite is to make of it, and the noise that follows it. -/
structure Part where
  frame : List UInt8
  reaction : Reaction
  noise : List UInt8

/-- Frames in noise, the first of which comes before them all. -/
def stream (noise : List UInt8) (parts : List Part) : List UInt8 :=
  noise ++ parts.flatMap fun p => p.frame ++ p.noise

/-- What every part gives, in order, and what the noise between two parts gives; the noise behind
    the last one gives nothing. -/
def weave {α : Type} (ofPart : Part → α) (ofNoise : List UInt8 → List α) : List Part → List α
  | [] => []
  | p :: rest =>
      ofPart p :: ((if rest.isEmpty then [] else ofNoise p.noise) ++ weave ofPart ofNoise rest)

theorem map_weave {α β : Type} (g : α → β) (ofPart : Part → α) (ofNoise : List UInt8 → List α)
    (parts : List Part) : (weave ofPart ofNoise parts).map g =
      weave (fun p => g (ofPart p)) (fun noise => (ofNoise noise).map g) parts := by
  induction parts with
  | nil => rfl
  | cons p rest ih =>
      rw [weave, weave, List.map_cons, List.map_append, ih]
      cases rest <;> rfl

theorem weave_congr {α : Type} {f g : Part → α} {parts : List Part}
    (same : ∀ p ∈ parts, f p = g p) (ofNoise : List UInt8 → List α) :
    weave f ofNoise parts = weave g ofNoise parts := by
  induction parts with
  | nil => rfl
  | cons p rest ih =>
      rw [weave, weave, same p List.mem_cons_self, ih fun q hq =>
        same q (List.mem_cons_of_mem _ hq)]

/-- The frames that a decoder is to hand out for some parts. -/
def handed : List Part → List (List UInt8) := weave Part.frame Accumulator.closed

/-- A part whose frame arrives, and whose noise holds no flag. -/
structure Part.Arrives (p : Part) : Prop where
  enclosed : ∃ body, p.frame = flagged body ∧ Enclosed body
  noFlag : flag ∉ p.noise

theorem stream_cons (noise : List UInt8) {p : Part} {body : List UInt8} (h : p.frame = flagged body)
    (rest : List Part) :
    stream noise (p :: rest) = (noise ++ [flag]) ++ ((body ++ [flag]) ++ stream p.noise rest) := by
  rw [stream, List.flatMap_cons, h, stream, flagged]
  simp only [List.append_assoc, List.cons_append, List.nil_append]

/-- Behind a flag: the noise up to the first frame, and then the parts. -/
theorem frames_stream_collecting {noise : List UInt8} {parts : List Part} (noFlag : flag ∉ noise)
    (arrive : ∀ p ∈ parts, p.Arrives) : (Accumulator.collecting []).frames (stream noise parts) =
      (if parts.isEmpty then [] else Accumulator.closed noise) ++ handed parts := by
  induction parts generalizing noise with
  | nil =>
      rw [stream, List.flatMap_nil, List.append_nil, Accumulator.frames_of_notMem noFlag]
      rfl
  | cons p rest ih =>
      obtain ⟨⟨body, whole, enclosed⟩, quiet⟩ := arrive p List.mem_cons_self
      rw [stream_cons noise whole, Accumulator.frames_append, Accumulator.frames_segment noFlag,
        Accumulator.after_flag, Accumulator.frames_append,
        Accumulator.frames_segment enclosed.noFlag, Accumulator.after_flag, enclosed.closed_eq,
        ih quiet fun q hq => arrive q (List.mem_cons_of_mem _ hq), ← whole]
      rfl

/-- **Every frame of a stream is handed out**, in order, and between two frames at most one more. -/
theorem frames_stream {noise : List UInt8} {parts : List Part} (noFlag : flag ∉ noise)
    (arrive : ∀ p ∈ parts, p.Arrives) :
    Accumulator.hunting.frames (stream noise parts) = handed parts := by
  cases parts with
  | nil =>
      rw [stream, List.flatMap_nil, List.append_nil, Accumulator.frames_of_notMem noFlag]
      rfl
  | cons p rest =>
      obtain ⟨⟨body, whole, enclosed⟩, quiet⟩ := arrive p List.mem_cons_self
      rw [stream_cons noise whole, Accumulator.frames_append, Accumulator.frames_hunting noFlag,
        Accumulator.after_flag, Accumulator.frames_append,
        Accumulator.frames_segment enclosed.noFlag, Accumulator.after_flag, enclosed.closed_eq,
        frames_stream_collecting quiet fun q hq => arrive q (List.mem_cons_of_mem _ hq), ← whole]
      rfl

/-! ## 2. What the ground sends -/

namespace Flow

/-- A frame of this station, and what it is to turn into at the other one. -/
inductive Sends (f : Flow) : List UInt8 → Reaction → Prop where
  | commands {commands : List Command} {iv : Block 16} {frame : List UInt8}
      (sent : f.encodeCommands commands iv = .ok frame) :
      Sends f frame { event := commandsEvent commands, commands }
  | control {command : Frame.Control} {pollFinal : Bool} {frame : List UInt8}
      (sent : f.encodeControl command pollFinal = .ok frame) :
      Sends f frame { event := controlEvent command }

section

variable {sender receiver : Flow} {frame : List UInt8} {reaction : Reaction}

/-- What is sent holds no flag but its own two, and fits. -/
theorem Sends.enclosed (h : Sends sender frame reaction) :
    ∃ body, frame = flagged body ∧ Enclosed body := by
  cases h with
  | commands sent =>
      obtain ⟨-, block, -, rfl⟩ := exists_block_of_encodeCommands sent
      have len := Frame.length_infoFrame sender.addresses.header {} (ReedSolomon.encode block)
      exact ⟨_, rfl, enclosed_stuffedBody (by rw [len]; decide) (by rw [len]; decide)⟩
  | @control command pollFinal _ sent =>
      rw [encodeControl_eq] at sent
      cases sent
      have len := Frame.length_controlFrame sender.addresses.header command pollFinal
      exact ⟨_, rfl, enclosed_stuffedBody (by rw [len]; decide) (by rw [len]; decide)⟩

/-- **A frame turns into what its sender meant.** -/
theorem Hears.react_of_sends (hears : Hears receiver sender) (h : Sends sender frame reaction) :
    receiver.react frame = reaction := by
  cases h with
  | @commands commands iv _ sent =>
      obtain ⟨fits, -⟩ := exists_block_of_encodeCommands sent
      obtain ⟨same, encoded, taken⟩ := hears.decodePacket_commands fits iv
      rw [encoded] at sent
      cases sent
      rw [react, taken]
  | control sent => rw [react, hears.decodePacket_control sent]

end

end Flow

/-! ## 3. The whole stream -/

/-- What a station makes of some parts: of each frame what its sender meant, and of the noise
    between two frames whatever comes of it if it is taken for a frame. -/
def reactions (f : Flow) : List Part → List Reaction :=
  weave Part.reaction fun noise => (Accumulator.closed noise).map f.react

/-- **No noise costs a frame.** Of frames that the ground sends, with noise around them, the
    satellite's decoder handles each one, and besides these at most the noise between two of them.
    For each it calls the application with the commands that were sent, in order and whatever the
    application answers, and posts the one event that they were sent for. Noise that does not decode
    is dropped, and the application does not hear of it. -/
theorem stream_handled {c : Config} {ground satellite : Flow}
    (hground : Flow.ofConfig c .groundStation = .ok ground)
    (hsatellite : Flow.ofConfig c .cubesat = .ok satellite) :
    (∀ (noise : List UInt8) (parts : List Part), flag ∉ noise →
      (∀ p ∈ parts, ground.Sends p.frame p.reaction ∧ flag ∉ p.noise) →
      ∀ (σ : Type) (r : Receiver σ), r.flow = satellite → r.decoder = .initial →
        let handled := (r.run (stream noise parts)).1
        let t := (r.run (stream noise parts)).2
        let posted := (reactions satellite parts).map Reaction.event
        handled.map Handled.frame = handed parts ∧
          handled.map Handled.reaction = reactions satellite parts ∧
          Calls r.dispatch r.application (handled.flatMap Handled.answers) t.application ∧
          t.events = posted.foldl Queue.offer r.events ∧
          (r.events.hasReader = true →
            r.events.items.length + posted.length ≤ r.events.capacity →
            t.events.items = r.events.items ++ posted)) ∧
    ∀ noise, (Accumulator.closed noise).length ≤ 1 ∧
      ∀ cause, satellite.decodePacket (flagged noise) = .error cause →
        ∀ (σ : Type) (r : Receiver σ), r.flow = satellite →
          r.handle (flagged noise) =
            (⟨flagged noise, [], .frameDropped⟩, r.post .frameDropped) := by
  obtain ⟨-, hears⟩ := Flow.hears_of_ofConfig hground hsatellite
  refine ⟨?_, fun noise => ⟨Accumulator.length_closed_le noise, ?_⟩⟩
  · intro noise parts noFlag sent σ r same fresh
    have arrive : ∀ p ∈ parts, p.Arrives := fun p hp => ⟨(sent p hp).1.enclosed, (sent p hp).2⟩
    have handles := r.handles_run (stream noise parts)
    have frames : (r.run (stream noise parts)).1.map Handled.frame = handed parts := by
      rw [r.run_frames, fresh]
      exact frames_stream noFlag arrive
    have reacted : (handed parts).map satellite.react = reactions satellite parts := by
      rw [handed, map_weave, reactions]
      exact weave_congr (fun p hp => hears.react_of_sends (sent p hp).1) _
    have posted : (r.run (stream noise parts)).1.map Handled.event =
        (reactions satellite parts).map Reaction.event := by
      rw [handles.map_event, frames, same, ← reacted, List.map_map]
      rfl
    have queued := handles.events
    rw [posted] at queued
    refine ⟨frames, ?_, handles.calls, queued, fun reader room => ?_⟩
    · rw [handles.reactions, frames, same, reacted]
    · rw [queued]
      exact Queue.foldl_offer_items reader room
  · intro cause dropped σ r same
    rw [Receiver.handle, same, dropped]

/-- Two connection-control frames and two commands between them, the second of which asks to
    disconnect. The noise behind the first frame is too long to be taken for one; that behind the
    commands is taken for one. -/
def noisyParts (conn orders ack : List UInt8) : List Part :=
  [⟨conn, { event := .connReceived }, List.replicate 400 0⟩,
    ⟨orders, ⟨.startDisc, [.immediate .ping, .immediate .uplinkDisc]⟩, [0xFF]⟩,
    ⟨ack, { event := .ackReceived }, [0x34]⟩]

section

variable (conn orders ack : List UInt8)

theorem closed_long_noise : Accumulator.closed (List.replicate 400 0) = [] :=
  Accumulator.closed_of_lt (by rw [List.length_replicate]; decide)

theorem handed_noisyParts :
    handed (noisyParts conn orders ack) = [conn, orders, flagged [0xFF], ack] := by
  simp only [noisyParts, handed, weave, closed_long_noise, List.isEmpty_cons]
  rfl

theorem reactions_noisyParts (f : Flow) : reactions f (noisyParts conn orders ack) =
    [⟨.connReceived, []⟩, ⟨.startDisc, [.immediate .ping, .immediate .uplinkDisc]⟩,
      ⟨.frameDropped, []⟩, ⟨.ackReceived, []⟩] := by
  have dropped : f.react (flagged [0xFF]) = ⟨.frameDropped, []⟩ := Flow.react_of_error rfl
  rw [← dropped]
  simp only [noisyParts, reactions, weave, closed_long_noise, List.isEmpty_cons]
  rfl

theorem sends_noisyParts {conn orders ack} {f : Flow}
    (asked : f.encodeControl .conn true = .ok conn)
    (sent : f.encodeCommands [.immediate .ping, .immediate .uplinkDisc] (Block.zero 16) =
      .ok orders)
    (answered : f.encodeControl .ack true = .ok ack) :
    ∀ p ∈ noisyParts conn orders ack, f.Sends p.frame p.reaction ∧ flag ∉ p.noise := by
  have long : flag ∉ List.replicate 400 0 := by decide +kernel
  have short : flag ∉ [0xFF] := by decide
  have last : flag ∉ [0x34] := by decide
  exact List.forall_mem_cons.mpr ⟨⟨.control asked, long⟩, List.forall_mem_cons.mpr
    ⟨⟨.commands sent, short⟩, List.forall_mem_singleton.mpr ⟨.control answered, last⟩⟩⟩

end

/-- A decoder whose application notes what it is called with, and refuses it. -/
def refusing (f : Flow) : Receiver (List Command) where
  flow := f
  flagTimeout := 500
  dispatch := fun taken command => (.error .queueFull, taken ++ [command])
  application := []
  events := Queue.ofCapacity 4

/-- Noise, a request to connect, two commands and an acknowledgement, with noise behind each of them
    and an application that refuses what it is called with. -/
theorem stream_handled_refused : ∃ ground satellite conn orders ack,
    Flow.ofConfig .standard .groundStation = .ok ground ∧
    Flow.ofConfig .standard .cubesat = .ok satellite ∧
    ground.encodeControl .conn true = .ok conn ∧
    ground.encodeCommands [.immediate .ping, .immediate .uplinkDisc] (Block.zero 16) = .ok orders ∧
    ground.encodeControl .ack true = .ok ack ∧
    let done := (refusing satellite).run (stream [0x12] (noisyParts conn orders ack))
    done.1.map Handled.frame = [conn, orders, flagged [0xFF], ack] ∧
      done.1.map Handled.reaction =
        [⟨.connReceived, []⟩, ⟨.startDisc, [.immediate .ping, .immediate .uplinkDisc]⟩,
          ⟨.frameDropped, []⟩, ⟨.ackReceived, []⟩] ∧
      done.2.application = [.immediate .ping, .immediate .uplinkDisc] ∧
      done.2.events.items = [.connReceived, .startDisc, .frameDropped, .ackReceived] := by
  have valid : Config.standard.validate = .ok () := by decide +kernel
  obtain ⟨ground, satellite, hground, hsatellite, same, hears⟩ := Flow.exists_hears valid
  have fits : Command.totalLength [.immediate .ping, .immediate .uplinkDisc] ≤ ground.capacity := by
    rw [Flow.capacity, same]
    decide
  obtain ⟨orders, sent, -⟩ := hears.decodePacket_commands fits (Block.zero 16)
  obtain ⟨conn, asked⟩ := ground.exists_control .conn true
  obtain ⟨ack, answered⟩ := ground.exists_control .ack true
  obtain ⟨frames, reacted, calls, -, queued⟩ := (stream_handled hground hsatellite).1 [0x12]
    (noisyParts conn orders ack) (by decide) (sends_noisyParts asked sent answered) _
    (refusing satellite) rfl rfl
  rw [handed_noisyParts] at frames
  rw [reactions_noisyParts] at reacted queued
  have noted := calls.state_eq
  rw [map_fst_answers, reacted] at noted
  exact ⟨ground, satellite, conn, orders, ack, hground, hsatellite, asked, sent, answered, frames,
    reacted, noted, queued rfl (Nat.le_refl 4)⟩

end SatLink.Uplink
