import SatLink.Proofs.Uplink.Accumulator

/-!
# The decoder at work

A receiver takes bytes one by one. For each frame that a byte closes it calls the application with
the frame's commands, and posts one event.

* `Calls` — an application is called with one command after the other, whatever it answers;
* `Receiver.Handles` — what was done for some frames: what each of them turned into, what the
  application was called with, and what was posted; `handles_handle` for one frame, `handles_run`
  for a string of bytes;
* `Receiver.run_frames` and `Receiver.posts_eq` — which frames a string of bytes has handled, and
  what was posted for them.
-/

namespace SatLink.Uplink

variable {σ : Type}

/-! ## 1. Calls of an application -/

/-- In state `s` an application is called with these commands, one after the other. It gives these
    answers, none of which keeps it from the next call, and is in state `t` at the end. -/
inductive Calls (dispatch : σ → Command → Except LinkError Unit × σ) :
    σ → List (Command × Except LinkError Unit) → σ → Prop where
  | done (s : σ) : Calls dispatch s [] s
  | call {s t : σ} {command : Command} {answer : Except LinkError Unit} {next : σ}
      {answers : List (Command × Except LinkError Unit)}
      (first : dispatch s command = (answer, next))
      (rest : Calls dispatch next answers t) : Calls dispatch s ((command, answer) :: answers) t

namespace Calls

variable {dispatch : σ → Command → Except LinkError Unit × σ} {s t u : σ}
  {answers more : List (Command × Except LinkError Unit)}

theorem append (first : Calls dispatch s answers t) (rest : Calls dispatch t more u) :
    Calls dispatch s (answers ++ more) u := by
  induction first with
  | done s => exact rest
  | call h _ ih => exact .call h (ih rest)

/-- The state at the end is the one that the commands lead to. -/
theorem state_eq (h : Calls dispatch s answers t) :
    t = (answers.map Prod.fst).foldl (fun s command => (dispatch s command).2) s := by
  induction h with
  | done s => rfl
  | call first _ ih =>
      rw [ih, List.map_cons, List.foldl_cons, first]

end Calls

theorem Flow.react_of_error {f : Flow} {frame : List UInt8} {cause : LinkError}
    (h : f.decodePacket frame = .error cause) : f.react frame = { event := .frameDropped } := by
  rw [react, h]

/-- The event of a frame and its commands, whatever the application answered. -/
def Handled.reaction (h : Handled) : Reaction := ⟨h.event, h.answers.map Prod.fst⟩

/-- What is handed over for some frames are their commands, in order. -/
theorem map_fst_answers (handled : List Handled) : (handled.flatMap Handled.answers).map Prod.fst =
    (handled.map Handled.reaction).flatMap Reaction.commands := by
  rw [List.map_flatMap, List.flatMap_map]
  rfl

namespace Receiver

/-! ## 2. What is done for frames -/

/-- Between `r` and `t` these frames were handled: each turned into its reaction, the application
    was called with their commands, and their events were posted. -/
structure Handles (r : Receiver σ) (handled : List Handled) (t : Receiver σ) : Prop where
  flow : t.flow = r.flow
  dispatch : t.dispatch = r.dispatch
  reactions : handled.map Handled.reaction = (handled.map Handled.frame).map r.flow.react
  calls : Calls r.dispatch r.application (handled.flatMap Handled.answers) t.application
  events : t.events = (handled.map Handled.event).foldl Queue.offer r.events

variable {r t u : Receiver σ} {handled more : List Handled}

theorem Handles.refl (decoder : Decoder) : Handles r [] { r with decoder } where
  flow := rfl
  dispatch := rfl
  reactions := rfl
  calls := .done _
  events := rfl

theorem Handles.trans (first : Handles r handled t) (rest : Handles t more u) :
    Handles r (handled ++ more) u where
  flow := rest.flow.trans first.flow
  dispatch := rest.dispatch.trans first.dispatch
  reactions := by
    have later := rest.reactions
    rw [first.flow] at later
    rw [List.map_append, List.map_append, List.map_append, first.reactions, later]
  calls := by
    have later := rest.calls
    rw [first.dispatch] at later
    rw [List.flatMap_append]
    exact first.calls.append later
  events := by
    rw [rest.events, first.events, List.map_append, List.foldl_append]

/-- The commands of one frame: all of them are handed over, and the application alone changes. -/
theorem dispatchAll_eq (r : Receiver σ) (commands : List Command) :
    (r.dispatchAll commands).1.map Prod.fst = commands ∧
      (r.dispatchAll commands).2.1 = commands.any (·.kind == .uplinkDisc) ∧
      Calls r.dispatch r.application (r.dispatchAll commands).1
        (r.dispatchAll commands).2.2.application ∧
      (r.dispatchAll commands).2.2 =
        { r with application := (r.dispatchAll commands).2.2.application } := by
  induction commands generalizing r with
  | nil => exact ⟨rfl, rfl, .done _, rfl⟩
  | cons command rest ih =>
      obtain ⟨all, asked, calls, others⟩ :=
        ih { r with application := (r.dispatch r.application command).2 }
      exact ⟨congrArg (command :: ·) all, congrArg (command.kind == .uplinkDisc || ·) asked,
        .call rfl calls, others⟩

/-- The event of a frame is posted when its commands have been handed over. -/
theorem handles_post {h : Handled} (others : t = { r with application := t.application })
    (reaction : h.reaction = r.flow.react h.frame)
    (calls : Calls r.dispatch r.application h.answers t.application) :
    Handles r [h] (t.post h.event) where
  flow := by
    show t.flow = r.flow
    rw [others]
  dispatch := by
    show t.dispatch = r.dispatch
    rw [others]
  reactions := congrArg ([·]) reaction
  calls := by
    rw [List.flatMap_singleton]
    exact calls
  events := congrArg (fun t => t.events.offer h.event) others

/-- The events are those that the frames turned into. -/
theorem Handles.map_event (h : Handles r handled t) : handled.map Handled.event =
    (handled.map Handled.frame).map fun frame => (r.flow.react frame).event := by
  have same := congrArg (List.map Reaction.event) h.reactions
  rwa [List.map_map, List.map_map] at same

/-- **One frame.** -/
theorem handles_handle (r : Receiver σ) (frame : List UInt8) :
    Handles r [(r.handle frame).1] (r.handle frame).2 ∧ (r.handle frame).1.frame = frame ∧
      (r.handle frame).2.decoder = r.decoder := by
  rw [handle]
  cases read : r.flow.decodePacket frame with
  | error cause =>
      exact ⟨handles_post rfl (Flow.react_of_error read).symm (.done _), rfl, rfl⟩
  | ok decoded =>
      cases decoded with
      | control command pollFinal =>
          have reaction : r.flow.react frame = { event := controlEvent command } := by
            rw [Flow.react, read]
          exact ⟨handles_post rfl reaction.symm (.done _), rfl, rfl⟩
      | commands commands =>
          obtain ⟨all, asked, calls, others⟩ := r.dispatchAll_eq commands
          have reaction : r.flow.react frame =
              ⟨if (r.dispatchAll commands).2.1 then .startDisc else .uplinkFinished,
                (r.dispatchAll commands).1.map Prod.fst⟩ := by
            rw [Flow.react, read, all, asked]
            rfl
          refine ⟨handles_post others reaction.symm calls, rfl, ?_⟩
          show (r.dispatchAll commands).2.2.decoder = r.decoder
          rw [others]

/-- **One byte.** -/
theorem handles_take (r : Receiver σ) (byte : UInt8) :
    Handles r (r.take byte).1.toList (r.take byte).2 ∧
      (r.take byte).1.map Handled.frame = (r.decoder.accumulator.push byte).1 ∧
      (r.take byte).2.decoder.accumulator = (r.decoder.accumulator.push byte).2 := by
  obtain ⟨handed, next⟩ := Decoder.push_eq r.decoder r.flagTimeout byte
  rw [← handed, ← next, take]
  rcases r.decoder.push r.flagTimeout byte with ⟨_ | frame, decoder⟩
  · exact ⟨.refl decoder, rfl, rfl⟩
  · obtain ⟨handles, same, kept⟩ := handles_handle { r with decoder } frame
    exact ⟨(Handles.refl decoder).trans handles, congrArg some same,
      congrArg Decoder.accumulator kept⟩

/-- **A string of bytes.** -/
theorem handles_run (r : Receiver σ) (bytes : List UInt8) :
    Handles r (r.run bytes).1 (r.run bytes).2 := by
  induction bytes generalizing r with
  | nil => exact .refl r.decoder
  | cons byte bytes ih => exact (handles_take r byte).1.trans (ih _)

/-- Which frames a string of bytes has handled. -/
theorem run_frames (r : Receiver σ) (bytes : List UInt8) :
    (r.run bytes).1.map Handled.frame = r.decoder.accumulator.frames bytes := by
  induction bytes generalizing r with
  | nil => rfl
  | cons byte bytes ih =>
      obtain ⟨-, handed, next⟩ := handles_take r byte
      rw [run, List.map_append, ih, next, Accumulator.frames_cons, ← handed, Option.toList_map]

/-- The events that are posted while a string of bytes is taken. -/
def posts (r : Receiver σ) (bytes : List UInt8) : List Session.Event :=
  (r.run bytes).1.map Handled.event

theorem posts_eq (r : Receiver σ) (bytes : List UInt8) : r.posts bytes =
    (r.decoder.accumulator.frames bytes).map fun frame => (r.flow.react frame).event := by
  rw [posts, (r.handles_run bytes).map_event, r.run_frames]

end Receiver

end SatLink.Uplink
