import SatLink.Proofs.Uplink.Receiver
import SatLink.Proofs.Uplink.RoundTrip
import SatLink.Satellite.Rehearsal

/-!
# Where a frame ends

The manager listens for one frame at a time: it forwards what it hears to the decoder, and stops at
the flag behind the first byte that stands behind a flag. It starts afresh each time, while the
decoder goes on from what was forwarded before.

* `Heard.closes` — the bytes at the last of which a listener stops, and `closes_nothing_iff`;
* `Call` — one time of listening, and `exists_call_iff` — what is forwarded until it is over;
* `call_agrees_iff` — when the decoder posts one event for it, at its last byte.

The two may disagree: `call_disagrees` has a call for which the decoder posts two events, and one
for which it posts none, after which the manager waits for an event that nobody will post.
-/

namespace SatLink.Session

open SatLink.Frame (flag flagged maxLength)
open SatLink.Uplink (Accumulator Receiver)

/-! ## 1. What a listener stops at -/

/-- Noise, one or more flags, and a body with a flag behind it. -/
structure Span where
  noise : List UInt8
  fill : Nat
  body : List UInt8
  quiet : flag ∉ noise
  ne_nil : body ≠ []
  noFlag : flag ∉ body

namespace Span

/-- Everything but the last flag. -/
def opening (s : Span) : List UInt8 := s.noise ++ flag :: (List.replicate s.fill flag ++ s.body)

def bytes (s : Span) : List UInt8 := s.opening ++ [flag]

theorem bytes_eq (s : Span) :
    s.bytes = s.noise ++ flag :: (List.replicate s.fill flag ++ (s.body ++ [flag])) := by
  rw [bytes, opening, List.append_assoc, List.cons_append, List.append_assoc]

theorem dropLast_bytes (s : Span) : s.bytes.dropLast = s.opening := List.dropLast_concat

end Span

namespace Heard

/-- A listener stops at the last of these bytes, and not before. -/
def closes (heard : Heard) : List UInt8 → Prop
  | [] => False
  | byte :: bytes =>
      match heard.after byte with
      | none => bytes = []
      | some heard => heard.closes bytes

variable {byte : UInt8} {bytes : List UInt8}

theorem closes_nothing_flag : nothing.closes (Frame.flag :: bytes) ↔ flag.closes bytes := Iff.rfl

theorem closes_nothing_of_ne (other : byte ≠ Frame.flag) :
    nothing.closes (byte :: bytes) ↔ nothing.closes bytes := by
  rw [closes, after, if_neg other]

theorem closes_flag_flag : flag.closes (Frame.flag :: bytes) ↔ flag.closes bytes := Iff.rfl

theorem closes_flag_of_ne (other : byte ≠ Frame.flag) :
    flag.closes (byte :: bytes) ↔ body.closes bytes := by
  rw [closes, after, if_neg other]

theorem closes_body_flag : body.closes (Frame.flag :: bytes) ↔ bytes = [] := Iff.rfl

theorem closes_body_of_ne (other : byte ≠ Frame.flag) :
    body.closes (byte :: bytes) ↔ body.closes bytes := by
  rw [closes, after, if_neg other]

/-- Within a frame: up to the next flag. -/
theorem closes_body {rest : List UInt8} (noFlag : Frame.flag ∉ rest) :
    body.closes (rest ++ [Frame.flag]) := by
  induction rest with
  | nil => exact rfl
  | cons byte rest ih =>
      have other : byte ≠ Frame.flag := (List.ne_of_not_mem_cons noFlag).symm
      exact (closes_body_of_ne other).mpr (ih (List.not_mem_of_not_mem_cons noFlag))

/-- Behind flags: any further flags, and a body up to the next one. -/
theorem closes_flag {rest : List UInt8} (filled : rest ≠ []) (noFlag : Frame.flag ∉ rest)
    (fill : Nat) : flag.closes (List.replicate fill Frame.flag ++ (rest ++ [Frame.flag])) := by
  induction fill with
  | zero =>
      cases rest with
      | nil => exact absurd rfl filled
      | cons byte rest =>
          have other : byte ≠ Frame.flag := (List.ne_of_not_mem_cons noFlag).symm
          exact (closes_flag_of_ne other).mpr (closes_body (List.not_mem_of_not_mem_cons noFlag))
  | succ fill ih => exact ih

/-- At the start: any noise, and then a flag. -/
theorem closes_nothing {noise : List UInt8} (noFlag : Frame.flag ∉ noise)
    (h : flag.closes bytes) : nothing.closes (noise ++ Frame.flag :: bytes) := by
  induction noise with
  | nil => exact h
  | cons byte noise ih =>
      have other : byte ≠ Frame.flag := (List.ne_of_not_mem_cons noFlag).symm
      exact (closes_nothing_of_ne other).mpr (ih (List.not_mem_of_not_mem_cons noFlag))

theorem exists_of_closes_body (h : body.closes bytes) :
    ∃ rest, Frame.flag ∉ rest ∧ bytes = rest ++ [Frame.flag] := by
  induction bytes with
  | nil => exact h.elim
  | cons byte bytes ih =>
      by_cases isFlag : byte = Frame.flag
      · subst isFlag
        exact ⟨[], List.not_mem_nil, congrArg (Frame.flag :: ·) (closes_body_flag.mp h)⟩
      · obtain ⟨rest, noFlag, rfl⟩ := ih ((closes_body_of_ne isFlag).mp h)
        exact ⟨byte :: rest, List.not_mem_cons_of_ne_of_not_mem (Ne.symm isFlag) noFlag, rfl⟩

theorem exists_of_closes_flag (h : flag.closes bytes) : ∃ fill rest, rest ≠ [] ∧
    Frame.flag ∉ rest ∧ bytes = List.replicate fill Frame.flag ++ (rest ++ [Frame.flag]) := by
  induction bytes with
  | nil => exact h.elim
  | cons byte bytes ih =>
      by_cases isFlag : byte = Frame.flag
      · subst isFlag
        obtain ⟨fill, rest, filled, noFlag, rfl⟩ := ih (closes_flag_flag.mp h)
        exact ⟨fill + 1, rest, filled, noFlag, rfl⟩
      · obtain ⟨rest, noFlag, rfl⟩ := exists_of_closes_body ((closes_flag_of_ne isFlag).mp h)
        exact ⟨0, byte :: rest, List.cons_ne_nil _ _,
          List.not_mem_cons_of_ne_of_not_mem (Ne.symm isFlag) noFlag, rfl⟩

/-- **What a listener stops at.** -/
theorem closes_nothing_iff : nothing.closes bytes ↔ ∃ span : Span, span.bytes = bytes := by
  constructor
  · intro h
    induction bytes with
    | nil => exact h.elim
    | cons byte bytes ih =>
        by_cases isFlag : byte = Frame.flag
        · subst isFlag
          obtain ⟨fill, rest, filled, noFlag, rfl⟩ :=
            exists_of_closes_flag (closes_nothing_flag.mp h)
          exact ⟨⟨[], fill, rest, List.not_mem_nil, filled, noFlag⟩, Span.bytes_eq _⟩
        · obtain ⟨span, rfl⟩ := ih ((closes_nothing_of_ne isFlag).mp h)
          exact ⟨{ span with
            noise := byte :: span.noise
            quiet := List.not_mem_cons_of_ne_of_not_mem (Ne.symm isFlag) span.quiet }, rfl⟩
  · rintro ⟨span, rfl⟩
    rw [span.bytes_eq]
    exact closes_nothing span.quiet (closes_flag span.ne_nil span.noFlag span.fill)

end Heard

/-! ## 2. Listening -/

/-- A time of listening, begun as `m`: what the manager has become, and the bytes that it has handed
    to the decoder. -/
inductive Call (c : Config) (flow : Uplink.Flow) (m : Manager) : List UInt8 → Manager → Prop where
  | start : Call c flow m [] m
  | receive {bytes : List UInt8} {n : Manager} {heard : Heard} (sofar : Call c flow m bytes n)
      (listens : n.activity = .listening heard) (byte : UInt8) :
      Call c flow m bytes (n.step c flow (.received (.ok (some byte))))
  | forward {bytes : List UInt8} {n : Manager} {byte : UInt8} {heard : Heard}
      (sofar : Call c flow m bytes n) (holds : n.activity = .forwarding byte heard) :
      Call c flow m (bytes ++ [byte]) (n.step c flow (.queued (.ok ())))

section

variable {c : Config} {flow : Uplink.Flow} {m n : Manager} {bytes : List UInt8}

variable (c flow) in
theorem activity_step_received {heard : Heard} (listens : n.activity = .listening heard)
    (byte : UInt8) :
    (n.step c flow (.received (.ok (some byte)))).activity = .forwarding byte heard := by
  unfold Manager.step
  rw [listens]

variable (c flow) in
theorem activity_step_queued {byte : UInt8} {heard : Heard}
    (holds : n.activity = .forwarding byte heard) :
    (n.step c flow (.queued (.ok ()))).activity =
      match heard.after byte with
      | some heard => .listening heard
      | none => .idle := by
  unfold Manager.step
  rw [holds]
  dsimp only
  cases heard.after byte <;> rfl

/-- What is yet to come, together with what was forwarded, ends where the listener stops. -/
def Remaining (bytes : List UInt8) : Activity → Prop
  | .listening heard => ∀ more, heard.closes more → Heard.nothing.closes (bytes ++ more)
  | .forwarding byte heard =>
      ∀ more, heard.closes (byte :: more) → Heard.nothing.closes (bytes ++ byte :: more)
  | .idle => Heard.nothing.closes bytes
  | _ => False

/-- What holds all the time of listening. -/
theorem Call.remaining (starts : m.activity = .listening .nothing) (call : Call c flow m bytes n) :
    Remaining bytes n.activity := by
  induction call with
  | start =>
      rw [starts]
      exact fun more h => h
  | receive sofar listens byte ih =>
      rw [activity_step_received c flow listens]
      rw [listens] at ih
      exact fun more h => ih (byte :: more) h
  | @forward bytes n byte heard sofar holds ih =>
      rw [activity_step_queued c flow holds]
      rw [holds] at ih
      cases e : heard.after byte with
      | none =>
          refine ih [] ?_
          rw [Heard.closes, e]
      | some next =>
          intro more h
          rw [List.append_assoc]
          refine ih more ?_
          rw [Heard.closes, e]
          exact h

/-- A listener gets to the byte at which it stops. -/
theorem Call.exists_idle {heard : Heard} {more : List UInt8} (sofar : Call c flow m bytes n)
    (listens : n.activity = .listening heard) (h : heard.closes more) :
    ∃ stopped, Call c flow m (bytes ++ more) stopped ∧ stopped.activity = .idle := by
  induction more generalizing bytes n heard with
  | nil => exact h.elim
  | cons byte more ih =>
      have taken := sofar.receive listens byte
      have holds := activity_step_received c flow listens byte
      have passed := taken.forward holds
      have becomes := activity_step_queued c flow holds
      rw [Heard.closes] at h
      cases e : heard.after byte with
      | none =>
          rw [e] at h becomes
          exact ⟨_, h ▸ passed, becomes⟩
      | some next =>
          rw [e] at h becomes
          rw [← List.singleton_append, ← List.append_assoc]
          exact ih passed becomes h

/-- **What is forwarded until a listener stops** are the strings that it stops at. -/
theorem exists_call_iff (starts : m.activity = .listening .nothing) :
    (∃ n, Call c flow m bytes n ∧ n.activity = .idle) ↔ Heard.nothing.closes bytes := by
  constructor
  · rintro ⟨n, call, stopped⟩
    have h := call.remaining starts
    rw [stopped] at h
    exact h
  · intro h
    exact Call.start.exists_idle starts h

/-! ## 3. What the decoder makes of it -/

/-- A flag behind flags hands out nothing. -/
theorem frames_fill (fill : Nat) (bytes : List UInt8) : (Accumulator.collecting []).frames
    (List.replicate fill flag ++ bytes) = (Accumulator.collecting []).frames bytes := by
  induction fill with
  | zero => rfl
  | succ fill ih => exact ih

/-- What a decoder, whatever it has of a frame, hands out before the last flag, and with it. -/
theorem frames_span (a : Accumulator) (span : Span) :
    a.frames span.opening = Accumulator.closed (a.after span.noise).unfinished ∧
      a.frames span.bytes = Accumulator.closed (a.after span.noise).unfinished ++
        Accumulator.closed span.body := by
  have opened (bytes : List UInt8) : a.frames (span.noise ++ flag :: bytes) =
      Accumulator.closed (a.after span.noise).unfinished ++
        (Accumulator.collecting []).frames bytes := by
    rw [List.append_cons, Accumulator.frames_append, Accumulator.frames_flag span.quiet,
      Accumulator.after_flag]
  rw [span.bytes_eq, Span.opening, opened, opened, frames_fill, frames_fill,
    Accumulator.frames_of_notMem span.noFlag, Accumulator.frames_segment span.noFlag,
    List.append_nil]
  exact ⟨rfl, rfl⟩

end

section

variable {c : Config} {flow : Uplink.Flow} {m : Manager} {σ : Type}

/-- Manager and decoder agree on where a frame ends: for what was forwarded of it the decoder posts
    one event, and does so at the last byte. -/
def Agrees (r : Receiver σ) (bytes : List UInt8) : Prop :=
  r.posts bytes.dropLast = [] ∧ ∃ event, r.posts bytes = [event]

/-- **When manager and decoder agree.** What is forwarded by the calls that end with a frame are the
    spans. Whatever the decoder was given before, by calls that ended with a frame, ran out of time
    or failed, and whatever the queue and the application are, it posts one event at the last byte
    of a span if the body is not too long for a frame, and if what it had before makes none with the
    noise. -/
theorem call_agrees_iff (starts : m.activity = .listening .nothing) :
    (∀ bytes, (∃ n, Call c flow m bytes n ∧ n.activity = .idle) ↔
      ∃ span : Span, span.bytes = bytes) ∧
    ∀ (σ : Type) (r : Receiver σ) (span : Span),
      let early := Accumulator.closed (r.decoder.accumulator.after span.noise).unfinished
      r.posts span.bytes =
          (early ++ Accumulator.closed span.body).map (fun frame => (r.flow.react frame).event) ∧
        (r.run span.bytes).2.events = (r.posts span.bytes).foldl Queue.offer r.events ∧
        (Agrees r span.bytes ↔ span.body.length + 2 ≤ maxLength ∧ early = []) := by
  refine ⟨fun bytes => (exists_call_iff starts).trans Heard.closes_nothing_iff, ?_⟩
  intro σ r span early
  obtain ⟨before, whole⟩ := frames_span r.decoder.accumulator span
  have opening : r.posts span.opening = early.map fun frame => (r.flow.react frame).event := by
    rw [r.posts_eq, before]
  have all : r.posts span.bytes =
      (early ++ Accumulator.closed span.body).map fun frame => (r.flow.react frame).event := by
    rw [r.posts_eq, whole]
  refine ⟨all, (r.handles_run span.bytes).events, ?_⟩
  rw [Agrees, span.dropLast_bytes, opening, all, List.map_eq_nil_iff]
  constructor
  · rintro ⟨nothing, event, one⟩
    rw [nothing, List.nil_append] at one
    refine ⟨Nat.le_of_not_lt fun long => ?_, nothing⟩
    rw [Accumulator.closed_of_lt long] at one
    cases one
  · rintro ⟨fits, nothing⟩
    have enclosed : Uplink.Enclosed span.body := ⟨span.ne_nil, fits, span.noFlag⟩
    rw [nothing, enclosed.closed_eq]
    exact ⟨rfl, _, rfl⟩

end

/-- A decoder under the standard settings, for an application that takes every command. -/
def standardReceiver (flow : Uplink.Flow) : Receiver Unit where
  flow := flow
  flagTimeout := Config.standard.flagTimeout
  dispatch := fun _ _ => (.ok (), ())
  application := ()
  events := Queue.ofCapacity Config.standard.eventQueueLength

/-- A frame that cannot be read is dropped, whoever it was for. -/
theorem react_of_deframe {frame : List UInt8} {cause : LinkError}
    (unread : Uplink.deframe frame = .error cause) (flow : Uplink.Flow) :
    flow.react frame = { event := .frameDropped } := by
  have fails : flow.decodePacket frame = .error cause := by
    rw [Uplink.Flow.decodePacket, unread]
    rfl
  exact Uplink.Flow.react_of_error fails

/-- Under the standard settings: the first frame after an order to listen, with a byte of noise and
    a second flag before its body. -/
theorem call_agrees_first_frame : ∃ flow, Uplink.Flow.ofConfig .standard .cubesat = .ok flow ∧
    let m := Manager.initial.process .standard flow .beginUplink
    let r := standardReceiver flow
    let bytes := [0x12, flag, flag, 0x34, flag]
    m.activity = .listening .nothing ∧
    (∃ n, Call .standard flow m bytes n ∧ n.activity = .idle) ∧
    r.posts bytes = [.frameDropped] ∧ (r.run bytes).2.events.items = [.frameDropped] ∧
    Agrees r bytes := by
  obtain ⟨-, flow, -, hflow, -⟩ := Uplink.Flow.exists_hears (c := .standard) (by decide +kernel)
  have starts : (Manager.initial.process .standard flow .beginUplink).activity =
      .listening .nothing := rfl
  obtain ⟨forwarded, agrees⟩ := @call_agrees_iff .standard flow _ starts
  let span : Span := ⟨[0x12], 1, [0x34], by decide, by decide, by decide⟩
  obtain ⟨posted, queued, alike⟩ := agrees Unit (standardReceiver flow) span
  have unread : Uplink.deframe (flagged [0x34]) = .error (.frame .tooShort) := by decide +kernel
  have dropped : (standardReceiver flow).posts span.bytes = [.frameDropped] := by
    rw [posted]
    show [(flow.react (flagged [0x34])).event] = _
    rw [react_of_deframe unread]
  have taken : ((standardReceiver flow).run span.bytes).2.events.items = [.frameDropped] := by
    rw [queued, dropped]
    rfl
  have bytes : span.bytes = [0x12, flag, flag, 0x34, flag] := rfl
  have stops := (forwarded span.bytes).mpr ⟨span, rfl⟩
  have alike := alike.mpr ⟨by decide, rfl⟩
  rw [bytes] at dropped taken stops alike
  exact ⟨flow, hflow, starts, stops, dropped, taken, alike⟩

/-- A satellite under the standard settings, told to begin an uplink, hears these bytes and then
    nothing. -/
def listened (bytes : List UInt8) : Except LinkError Rehearsal :=
  (Satellite.launch .standard).map fun satellite =>
    let r : Rehearsal := ⟨satellite, { script := bytes.map .byte, waits := true }⟩
    (r.post .beginUplink).2.settle.2

/-- **They do not always agree.** A call that runs out of time leaves the decoder with a frame
    begun: the first flag of the next call ends it, and the decoder posts two events for what is one
    frame to the manager. And a call may forward more than a frame holds: it ends as any other, and
    the decoder posts nothing. The manager is then left waiting for an event: nothing is queued or
    held, and the radio is not asked. -/
theorem call_disagrees :
    (∃ flow, Uplink.Flow.ofConfig .standard .cubesat = .ok flow ∧
      let m := Manager.initial.process .standard flow .beginUplink
      let r := standardReceiver flow
      let long := flagged (List.replicate 330 0x12)
      m.activity = .listening .nothing ∧
      (∃ cut, Call .standard flow m [flag, 0x12] cut ∧
        (cut.step .standard flow (.received (.ok none))).activity = .reporting .timeout) ∧
      (∃ n, Call .standard flow m [flag, 0x34, flag] n ∧ n.activity = .idle) ∧
      (r.run [flag, 0x12]).2.posts [flag, 0x34, flag] = [.frameDropped, .frameDropped] ∧
      ¬ Agrees (r.run [flag, 0x12]).2 [flag, 0x34, flag] ∧
      (∃ n, Call .standard flow m long n ∧ n.activity = .idle) ∧
      r.posts long = [] ∧ ¬ Agrees r long) ∧
    (listened (flagged (List.replicate 330 0x12))).map (fun r => (r.isStuck,
      r.satellite.manager.state, r.satellite.held, r.satellite.events.items,
      r.satellite.bytes.items)) = .ok (true, .awaitingConn, none, [], []) := by
  obtain ⟨-, flow, -, hflow, -⟩ := Uplink.Flow.exists_hears (c := .standard) (by decide +kernel)
  have starts : (Manager.initial.process .standard flow .beginUplink).activity =
      .listening .nothing := rfl
  have stops (span : Span) := (@exists_call_iff .standard flow _ span.bytes starts).mpr
    (Heard.closes_nothing_iff.mpr ⟨span, rfl⟩)
  let second : Span := ⟨[], 0, [0x34], by decide, by decide, by decide⟩
  let long : Span := ⟨[], 0, List.replicate 330 0x12, List.not_mem_nil, List.cons_ne_nil _ _,
    by decide +kernel⟩
  have tooLong : Accumulator.closed long.body = [] :=
    Accumulator.closed_of_lt (by rw [List.length_replicate]; decide)
  have lost : (standardReceiver flow).posts (flagged (List.replicate 330 0x12)) = [] := by
    show (standardReceiver flow).posts long.bytes = []
    rw [Receiver.posts_eq, (frames_span _ long).2, tooLong]
    rfl
  have two : ((standardReceiver flow).run [flag, 0x12]).2.posts [flag, 0x34, flag] =
      [.frameDropped, .frameDropped] := by
    have first : Uplink.deframe (flagged [0x12]) = .error (.frame .tooShort) := by decide +kernel
    have last : Uplink.deframe (flagged [0x34]) = .error (.frame .tooShort) := by decide +kernel
    rw [Receiver.posts_eq]
    show [(flow.react (flagged [0x12])).event, (flow.react (flagged [0x34])).event] = _
    rw [react_of_deframe first, react_of_deframe last]
  have begun := ((@Call.start .standard flow _).receive starts flag).forward rfl
  have cut := (begun.receive rfl 0x12).forward rfl
  refine ⟨⟨flow, hflow, starts, ⟨_, cut, rfl⟩, stops second, two, ?_, stops long, lost, ?_⟩, ?_⟩
  · rintro ⟨-, event, one⟩
    rw [two] at one
    cases one
  · rintro ⟨-, event, one⟩
    rw [lost] at one
    cases one
  · decide +kernel

end SatLink.Session
