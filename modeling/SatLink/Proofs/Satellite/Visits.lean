import SatLink.Proofs.Satellite.Histories

/-!
# Visits of the transmitting state

Batches of frames, each with a marker behind it, are queued for the manager one after the other. The
manager visits the state that transmits, leaves it for others, and comes back; it takes items in
that state only.

* `Line` — a manager, its transmit queue and what is still to be queued; `Turn` and `Run` — what
  happens there while the radio works and the queue is never found empty, with a `Mark` for each
  item that is taken, each frame that is sent, and for either end of a visit;
* `due` — what is still to be marked; `Turn.due_eq`: each turn marks the beginning of it, and
  `exists_run`: it can all be had;
* `Visit`, `visits` — the visits that one batch takes;
* `turn_of_answer`, `turn_of_radio` — the manager of a satellite takes such turns;
* `visits_of_batches` — the visits of any batches.

A visit that sends as many frames as it may is over before it takes another item. So a batch of just
that many frames leaves its marker to the next visit, which sends nothing (`marker_left_behind`).
-/

namespace SatLink

open Session (State Event Activity Manager Reply Stepped)
open Downlink (Item)
open Satellite (Transmits)

/-- A manager, its transmit queue, and the items that are still to be queued. -/
structure Line where
  manager : Manager
  queue : Queue Item
  coming : List Item

namespace Line

/-! ## 1. Marks and turns -/

/-- What is marked of a downlink. -/
inductive Mark where
  /-- A visit of the transmitting state begins. -/
  | opened
  | took (item : Item)
  | sent (frame : List UInt8)
  /-- The visit is over. -/
  | closed
  deriving DecidableEq

/-- What is marked of a manager that has become another outside of a visit. -/
def opening (m n : Manager) : List Mark :=
  if Manager.entered? m n = some .downlinking then [.opened] else []

/-- What is marked of what a manager has become within a visit. -/
def closing (n : Manager) : List Mark :=
  if n.activity = .posting .downlinkFinished then [.closed] else []

/-- One turn. The radio sends what it is given in a visit, and the queue keeps the manager waiting
    until there is an item; outside of a visit the manager is told anything. -/
inductive Turn (c : Config) (flow : Uplink.Flow) (l : Line) : List Mark → Line → Prop where
  /-- The next item is queued. -/
  | supply {item : Item} {queue : Queue Item} {coming : List Item}
    (next : l.coming = item :: coming)
      (taken : l.queue.send item = .ok queue) : Turn c flow l [] { l with queue, coming }
  /-- The manager takes an item. -/
  | collect {sent : Nat} {item : Item} {queue : Queue Item} {n : Manager}
      (collects : l.manager.activity = .collecting sent)
      (first : l.queue.receive = .ok (item, queue))
      (told : l.manager.step c flow (.collected (.ok item)) = n) :
      Turn c flow l (.took item :: closing n) { l with manager := n, queue }
  /-- The radio sends the frame. -/
  | ship {frame : List UInt8} {sent : Nat} {n : Manager}
      (ships : l.manager.activity = .shipping frame sent)
      (told : l.manager.step c flow (.performed (.ok ())) = n) :
      Turn c flow l (.sent frame :: closing n) { l with manager := n }
  /-- The manager is elsewhere. -/
  | elsewhere {n : Manager} (reply : Reply) (away : ¬ Transmits l.manager.activity)
      (told : l.manager.step c flow reply = n) :
      Turn c flow l (opening l.manager n) { l with manager := n }
  /-- Time passes. -/
  | elapse (time : Nat) : Turn c flow l [] { l with manager := l.manager.elapse time }

/-- Turns one after the other. -/
inductive Run (c : Config) (flow : Uplink.Flow) (l : Line) : List Mark → Line → Prop where
  | start : Run c flow l [] l
  | turn {marks more : List Mark} {t u : Line} (run : Run c flow l marks t)
      (turn : Turn c flow t more u) : Run c flow l (marks ++ more) u

section

variable {c : Config} {flow : Uplink.Flow} {l t u : Line} {marks more : List Mark}

theorem Turn.run (turn : Turn c flow l marks t) : Run c flow l marks t := .turn .start turn

theorem Run.trans (first : Run c flow l marks t) (second : Run c flow t more u) :
    Run c flow l (marks ++ more) u := by
  induction second with
  | start =>
      rw [List.append_nil]
      exact first
  | turn _ turn ih =>
      rw [← List.append_assoc]
      exact .turn ih turn

/-! ## 2. What is still to be marked -/

/-- What the items to come lead to, from a visit that has sent so many frames. -/
def ahead (limit : Nat) : Nat → List Item → List Mark
  | _, [] => []
  | sent, .packet frame :: items =>
      .took (.packet frame) :: .sent frame ::
        if sent + 1 < limit then ahead limit (sent + 1) items
        else .closed :: .opened :: ahead limit 0 items
  | _, .endOfDownlink :: items =>
      .took .endOfDownlink :: .closed :: .opened :: ahead limit 0 items

/-- What the items to come lead to, once so many frames are sent: a full visit is over. -/
def onward (limit sent : Nat) (items : List Item) : List Mark :=
  if sent < limit then ahead limit sent items else .closed :: .opened :: ahead limit 0 items

/-- What the items to come lead to, from an activity. -/
def future (limit : Nat) : Activity → List Item → List Mark
  | .collecting sent, items => ahead limit sent items
  | .shipping frame sent, items => .sent frame :: onward limit (sent + 1) items
  | _, items => .opened :: ahead limit 0 items

theorem future_of_away {limit : Nat} {activity : Activity} (away : ¬ Transmits activity)
    (items : List Item) : future limit activity items = .opened :: ahead limit 0 items := by
  cases activity with
  | collecting | shipping => exact absurd trivial away
  | _ => rfl

/-- The items that are queued, and behind them those that are still to be. -/
def items (l : Line) : List Item := l.queue.items ++ l.coming

/-- What is still to be marked. -/
def due (l : Line) (limit : Nat) : List Mark := future limit l.manager.activity l.items

/-! ### Within a visit -/

theorem step_collecting {m : Manager} {sent : Nat} (collects : m.activity = .collecting sent)
    (item : Item) (items : List Item) :
    future c.maxDownlinkFrames m.activity (item :: items) =
      .took item :: closing (m.step c flow (.collected (.ok item))) ++
        future c.maxDownlinkFrames (m.step c flow (.collected (.ok item))).activity items := by
  unfold Manager.step
  rw [collects]
  cases item <;> rfl

theorem step_shipping {m : Manager} {frame : List UInt8} {sent : Nat}
    (ships : m.activity = .shipping frame sent) (items : List Item) :
    future c.maxDownlinkFrames m.activity items =
      .sent frame :: closing (m.step c flow (.performed (.ok ()))) ++
        future c.maxDownlinkFrames (m.step c flow (.performed (.ok ()))).activity items := by
  unfold Manager.step
  rw [ships]
  show .sent frame :: onward c.maxDownlinkFrames (sent + 1) items = _
  dsimp only
  unfold onward Manager.collect
  by_cases more : sent + 1 < c.maxDownlinkFrames
  · rw [if_pos more, if_pos more]
    rfl
  · rw [if_neg more, if_neg more]
    rfl

/-! ### Outside of visits -/

theorem ne_downlinking_of_upon {state : State} {event : Event}
    (enters : state.upon event = .downlinking) : state ≠ .downlinking := by
  rintro rfl
  cases event <;> cases enters

theorem opening_of_eq {m n : Manager} (same : n.state = m.state) : opening m n = [] := by
  unfold opening Manager.entered?
  rw [if_pos same]
  rfl

theorem opening_of_ne {m n : Manager} (other : n.state ≠ .downlinking) : opening m n = [] := by
  unfold opening Manager.entered?
  rw [if_neg]
  intro entered
  split at entered
  · cases entered
  · exact other (Option.some.inj entered)

/-- An event that leads to the transmitting state opens a visit. -/
theorem process_opens (allowed : 0 < c.maxDownlinkFrames) {m : Manager} {event : Event}
    (upon : m.state.upon event = .downlinking) :
    opening m (m.process c flow event) = [.opened] ∧
      (m.process c flow event).activity = .collecting 0 := by
  have enters : Session.Enters c flow m event (m.process c flow event) :=
    Session.enters_process m event
  have other : State.downlinking ≠ m.state := (ne_downlinking_of_upon upon).symm
  constructor
  · unfold opening Manager.entered?
    rw [enters.state_eq, upon, if_neg other]
    rfl
  · unfold State.upon at upon
    unfold Manager.process
    rw [upon]
    show (Manager.collect _ c 0).activity = _
    unfold Manager.collect
    rw [if_pos allowed]

/-- Any other event leads elsewhere. -/
theorem process_away {m : Manager} {event : Event} (upon : m.state.upon event ≠ .downlinking) :
    opening m (m.process c flow event) = [] ∧ ¬ Transmits (m.process c flow event).activity := by
  have enters : Session.Enters c flow m event (m.process c flow event) :=
    Session.enters_process m event
  rw [← enters.state_eq] at upon
  refine ⟨opening_of_ne upon, ?_⟩
  have begins := enters.begins
  generalize (m.process c flow event).activity = activity at begins ⊢
  generalize (m.process c flow event).state = state at begins upon
  cases begins with
  | collect => exact absurd rfl upon
  | _ => exact id

/-- A visit is opened, or the manager is still elsewhere. -/
theorem elsewhere_cases (allowed : 0 < c.maxDownlinkFrames) {m : Manager}
    (away : ¬ Transmits m.activity) (reply : Reply) :
    (opening m (m.step c flow reply) = [.opened] ∧
      (m.step c flow reply).activity = .collecting 0) ∨
    (opening m (m.step c flow reply) = [] ∧ ¬ Transmits (m.step c flow reply).activity) := by
  by_cases asked : m.activity.Asks reply
  · have stepped : Stepped c flow m reply (m.step c flow reply) := Session.stepped asked
    generalize told : m.step c flow reply = n at stepped ⊢
    cases stepped with
    | took idle enters =>
        unfold Manager.step at told
        rw [idle] at told
        subst told
        rcases eq_or_ne (m.state.upon _) .downlinking with upon | upon
        · exact .inl (process_opens allowed upon)
        · exact .inr (process_away upon)
    | packet transmits | drained transmits | shipped transmits | full transmits =>
        rw [transmits] at away
        exact absurd trivial away
    | reset => exact .inr ⟨opening_of_ne nofun, id⟩
    | _ => exact .inr ⟨opening_of_eq rfl, id⟩
  · rw [Session.step_of_not_asks asked]
    exact .inr ⟨opening_of_eq rfl, away⟩

/-- **A turn marks the beginning of what is due.** -/
theorem Turn.due_eq (allowed : 0 < c.maxDownlinkFrames) (turn : Turn c flow l marks t) :
    l.due c.maxDownlinkFrames = marks ++ t.due c.maxDownlinkFrames := by
  cases turn with
  | supply next taken =>
      unfold due items
      rw [next, Queue.send_items taken, List.append_assoc]
      rfl
  | collect collects first told =>
      subst told
      unfold due items
      rw [Queue.receive_items first]
      exact step_collecting collects _ _
  | ship ships told =>
      subst told
      exact step_shipping ships _
  | elsewhere reply away told =>
      subst told
      unfold due
      rw [future_of_away away]
      rcases elsewhere_cases allowed away reply with ⟨opened, collects⟩ | ⟨unmarked, away'⟩
      · rw [opened]
        show _ = [.opened] ++ future _ (l.manager.step c flow reply).activity _
        rw [collects]
        rfl
      · rw [unmarked]
        exact (future_of_away away' _).symm
  | elapse => rfl

theorem Run.due_eq (allowed : 0 < c.maxDownlinkFrames) (run : Run c flow l marks t) :
    l.due c.maxDownlinkFrames = marks ++ t.due c.maxDownlinkFrames := by
  induction run with
  | start => rfl
  | turn _ turn ih => rw [ih, turn.due_eq allowed, List.append_assoc]

/-! ## 3. Going on -/

/-- Turns that mark nothing lead to where the manager waits for an event. -/
def Settles (c : Config) (flow : Uplink.Flow) (l : Line) : Prop :=
  ∃ t, Run c flow l [] t ∧ t.manager.activity = .idle

theorem Settles.of_turn (turn : Turn c flow l [] t) (settles : Settles c flow t) :
    Settles c flow l := by
  obtain ⟨u, run, idle⟩ := settles
  exact ⟨u, turn.run.trans run, idle⟩

/-- A reply that leaves the state as it is. -/
theorem Turn.still {n : Manager} (reply : Reply) (away : ¬ Transmits l.manager.activity)
    (told : l.manager.step c flow reply = n) (same : n.state = l.manager.state) :
    Turn c flow l [] { l with manager := n } := by
  have turn : Turn c flow l (opening l.manager n) { l with manager := n } :=
    .elsewhere reply away told
  rw [opening_of_eq same] at turn
  exact turn

variable {state : State} {retries : Nat} {window : Option Nat} {queue : Queue Item}
  {coming : List Item}

theorem settles_posting (outcome : Event) :
    Settles c flow ⟨⟨state, retries, window, .posting outcome⟩, queue, coming⟩ :=
  ⟨_, (Turn.still (.queued (.ok ())) id rfl rfl).run, rfl⟩

theorem settles_reporting (cause : LinkError) :
    Settles c flow ⟨⟨state, retries, window, .reporting cause⟩, queue, coming⟩ :=
  ⟨_, (Turn.still (.queued (.ok ())) id rfl rfl).run, rfl⟩

theorem settles_listening (heard : Session.Heard) :
    Settles c flow ⟨⟨state, retries, window, .listening heard⟩, queue, coming⟩ := by
  by_cases again : state = .awaitingAckConn ∧ retries < c.maxConnRetries
  · exact .of_turn (.still (.received (.ok none)) id (if_pos again) rfl) (settles_posting _)
  · exact .of_turn (.still (.received (.ok none)) id (if_neg again) rfl) (settles_reporting _)

/-- A manager that is not in a visit comes to wait for an event. -/
theorem settles (away : ¬ Transmits l.manager.activity) : Settles c flow l := by
  obtain ⟨⟨state, retries, window, activity⟩, queue, coming⟩ := l
  cases activity with
  | idle => exact ⟨_, .start, rfl⟩
  | listening heard => exact settles_listening heard
  | forwarding byte heard =>
      have told : Manager.step c flow ⟨state, retries, window, .forwarding byte heard⟩
          (.queued (.ok ())) = _ := Session.step_forwarding rfl
      have turn : Turn c flow _ [] _ := .still _ away told rfl
      refine .of_turn turn ?_
      cases heard.after byte with
      | none => exact ⟨_, .start, rfl⟩
      | some next => exact settles_listening next
  | sending frame completion =>
      exact .of_turn (.still (.performed (.ok ())) id rfl rfl) (settles_posting _)
  | reinitializing =>
      exact .of_turn (.still (.performed (.ok ())) id rfl rfl) (settles_posting _)
  | posting outcome => exact settles_posting outcome
  | reporting cause => exact settles_reporting cause
  | collecting | shipping => exact absurd trivial away

/-- It can then be led back to the transmitting state. -/
theorem exists_opened (allowed : 0 < c.maxDownlinkFrames) (away : ¬ Transmits l.manager.activity) :
    ∃ t, Run c flow l [.opened] t := by
  have rests : Settles c flow l := settles away
  obtain ⟨t, run, idle⟩ := rests
  have ends : t.manager.step c flow (.event .error) = ⟨.disconnected, 0, none, .idle⟩ := by
    unfold Manager.step
    rw [idle]
    dsimp only
    unfold Manager.process
    rw [Session.transition?_error]
    rfl
  have ended : Turn c flow t _ { t with manager := ⟨.disconnected, 0, none, .idle⟩ } :=
    .elsewhere _ (by rw [idle]; exact id) ends
  have begun : Turn c flow { t with manager := ⟨.disconnected, 0, none, .idle⟩ } _ _ :=
    .elsewhere (.event .beginDownlink) id rfl
  have quiet : opening t.manager ⟨.disconnected, 0, none, .idle⟩ = [] := opening_of_ne nofun
  have opens : opening ⟨.disconnected, 0, none, .idle⟩
      (Manager.step c flow ⟨.disconnected, 0, none, .idle⟩ (.event .beginDownlink)) = [.opened] :=
    (process_opens allowed rfl).1
  rw [quiet] at ended
  rw [opens] at begun
  exact ⟨_, (run.trans ended.run).trans begun.run⟩

/-- The queue takes items one at a time, at least. -/
structure Ready (l : Line) : Prop where
  reads : l.queue.hasReader = true
  room : 0 < l.queue.capacity

theorem Turn.ready (turn : Turn c flow l marks t) (ready : Ready l) : Ready t := by
  cases turn with
  | supply next taken =>
      unfold Queue.send at taken
      split at taken
      · cases taken
      · split at taken
        · cases taken
        · cases taken
          exact ⟨ready.reads, ready.room⟩
  | collect collects first told =>
      unfold Queue.receive at first
      split at first
      · cases first
        exact ⟨ready.reads, ready.room⟩
      · cases first
  | ship | elsewhere | elapse => exact ⟨ready.reads, ready.room⟩

theorem Run.ready (run : Run c flow l marks t) (ready : Ready l) : Ready t := by
  induction run with
  | start => exact ready
  | turn _ turn ih => exact turn.ready ih

/-- While there are items to come, one is taken. -/
theorem exists_taken (ready : Ready l) {sent : Nat}
    (collects : l.manager.activity = .collecting sent)
    (more : l.items ≠ []) : ∃ marks t, marks ≠ [] ∧ Run c flow l marks t := by
  obtain ⟨manager, ⟨capacity, items, hasReader, hasWriter⟩, coming⟩ := l
  cases items with
  | cons item items => exact ⟨_, _, List.cons_ne_nil _ _, (Turn.collect collects rfl rfl).run⟩
  | nil =>
      cases coming with
      | nil => exact absurd rfl more
      | cons item coming =>
          have supplied :
              Turn c flow ⟨manager, ⟨capacity, [], hasReader, hasWriter⟩, item :: coming⟩ []
              ⟨manager, ⟨capacity, [item], hasReader, hasWriter⟩, coming⟩ :=
            .supply rfl (Queue.send_of_lt ready.reads ready.room)
          have taken :
              Turn c flow ⟨manager, ⟨capacity, [item], hasReader, hasWriter⟩, coming⟩ _ _ :=
            .collect collects rfl rfl
          exact ⟨_, _, List.cons_ne_nil _ _, supplied.run.trans taken.run⟩

variable (flow) in
/-- As long as something is due, something more is marked. -/
theorem exists_marked (allowed : 0 < c.maxDownlinkFrames) (ready : Ready l)
    (more : l.due c.maxDownlinkFrames ≠ []) : ∃ marks t, marks ≠ [] ∧ Run c flow l marks t := by
  by_cases transmits : Transmits l.manager.activity
  · cases h : l.manager.activity with
    | collecting sent =>
        refine exists_taken ready h fun nothing => more ?_
        unfold due
        rw [h, nothing]
        rfl
    | shipping frame sent => exact ⟨_, _, List.cons_ne_nil _ _, (Turn.ship h rfl).run⟩
    | _ =>
        rw [h] at transmits
        exact transmits.elim
  · obtain ⟨t, run⟩ := exists_opened allowed transmits
    exact ⟨_, t, List.cons_ne_nil _ _, run⟩

variable (flow) in
/-- **All that is due can be had.** -/
theorem exists_run (allowed : 0 < c.maxDownlinkFrames) (ready : Ready l) :
    ∃ t, Run c flow l (l.due c.maxDownlinkFrames) t := by
  generalize h : (l.due c.maxDownlinkFrames).length = n
  -- what is marked shortens what is due
  induction n using Nat.strongRecOn generalizing l with
  | ind n ih =>
      by_cases nothing : l.due c.maxDownlinkFrames = []
      · rw [nothing]
        exact ⟨l, .start⟩
      · obtain ⟨marks, t, marked, run⟩ := exists_marked flow allowed ready nothing
        have due := run.due_eq allowed
        have len := congrArg List.length due
        rw [List.length_append] at len
        have shorter := List.length_pos_iff.mpr marked
        obtain ⟨u, rest⟩ := ih _ (by omega) (run.ready ready) rfl
        rw [due]
        exact ⟨u, run.trans rest⟩

end

/-! ## 4. Batches -/

/-- A visit of the transmitting state: the packets that are taken and sent, and whether the marker
    behind them is taken. -/
structure Visit where
  packets : List (List UInt8)
  complete : Bool

/-- What is marked of a visit. -/
def Visit.marks (v : Visit) : List Mark :=
  .opened :: (v.packets.flatMap fun packet => [.took (.packet packet), .sent packet]) ++
    ((if v.complete then [.took .endOfDownlink] else []) ++ [.closed])

/-- The visits that one batch takes. If it has as many packets as may be sent in a visit, its marker
    is left to a visit of its own. -/
def visits (limit : Nat) (batch : List (List UInt8)) : List Visit :=
  if batch.length < limit then [⟨batch, true⟩] else [⟨batch, false⟩, ⟨[], true⟩]

/-- What is queued for a batch. -/
def queued (batch : List (List UInt8)) : List Item := batch.map .packet ++ [.endOfDownlink]

theorem ahead_queued {limit sent : Nat} {batch : List (List UInt8)} (items : List Item)
    (begun : sent < limit) (short : sent + batch.length ≤ limit) :
    ahead limit sent (queued batch ++ items) =
      (batch.flatMap fun packet => [.took (.packet packet), .sent packet]) ++
        ((if sent + batch.length < limit then [] else [.closed, .opened]) ++
          .took .endOfDownlink :: .closed :: .opened :: ahead limit 0 items) := by
  induction batch generalizing sent with
  | nil =>
      rw [List.length_nil, Nat.add_zero, if_pos begun]
      rfl
  | cons packet batch ih =>
      rw [List.length_cons] at short ⊢
      show Mark.took _ :: .sent packet ::
        (if sent + 1 < limit then ahead limit (sent + 1) (queued batch ++ items) else _) = _
      by_cases more : sent + 1 < limit
      · rw [if_pos more, ih more (by omega), Nat.add_right_comm, Nat.add_assoc]
        rfl
      · have last : batch = [] := List.length_eq_zero_iff.mp (by omega)
        subst last
        rw [if_neg more, List.length_nil, Nat.zero_add, if_neg more]
        rfl

/-- What batches lead to, one after the other. -/
theorem ahead_batches {limit : Nat} (positive : 0 < limit) {batches : List (List (List UInt8))}
    (short : ∀ batch ∈ batches, batch.length ≤ limit) :
    .opened :: ahead limit 0 (batches.flatMap queued) =
      (batches.flatMap (visits limit)).flatMap Visit.marks ++ [.opened] := by
  induction batches with
  | nil => rfl
  | cons batch batches ih =>
      have le : 0 + batch.length ≤ limit := by
        rw [Nat.zero_add]
        exact short batch List.mem_cons_self
      rw [List.flatMap_cons, ahead_queued _ positive le, ih fun b mem =>
        short b (List.mem_cons_of_mem _ mem),
        List.flatMap_cons, List.flatMap_append, Nat.zero_add]
      unfold visits
      by_cases less : batch.length < limit
      · rw [if_pos less, if_pos less]
        simp [Visit.marks]
      · rw [if_neg less, if_neg less]
        simp [Visit.marks]

/-- Each batch takes one visit if, and only if, all of them are shorter than the limit. -/
theorem flatMap_visits_eq_map_iff {limit : Nat} {batches : List (List (List UInt8))} :
    batches.flatMap (visits limit) = batches.map (fun batch => ⟨batch, true⟩) ↔
      ∀ batch ∈ batches, batch.length < limit := by
  constructor
  · intro same batch mem
    by_contra full
    have left : (⟨batch, false⟩ : Visit) ∈ batches.flatMap (visits limit) := by
      refine List.mem_flatMap.mpr ⟨batch, mem, ?_⟩
      unfold visits
      rw [if_neg full]
      exact List.mem_cons_self
    rw [same] at left
    obtain ⟨_, -, complete⟩ := List.mem_map.mp left
    cases complete
  · intro shorter
    rw [List.map_eq_flatMap]
    exact List.flatMap_congr fun batch mem => if_pos (shorter batch mem)

/-! ## 5. Satellites -/

/-- The manager of a satellite, its transmit queue, and what is still to be queued. -/
def ofSatellite (s : Satellite) (coming : List Item) : Line := ⟨s.manager, s.downlink.queue, coming⟩

/-- **What a queue of the satellite answers to the manager is such a turn**, unless the transmit
    queue has kept it waiting in vain. -/
theorem turn_of_answer {s t : Satellite} {reply : Reply} (answer : s.answer? = some (reply, t))
    (found : ∀ fault, reply ≠ .collected (.error fault)) (coming : List Item) :
    ∃ marks, Turn s.config s.flow (ofSatellite s coming) marks
      (ofSatellite (t.tell reply) coming) := by
  obtain ⟨c, flow, ⟨state, retries, window, activity⟩, decoder, held, events, bytes, downlink⟩ := s
  unfold Satellite.answer? at answer
  cases activity with
  | idle =>
      dsimp only at answer
      split at answer <;> cases answer
      exact ⟨_, .elsewhere (.event _) id rfl⟩
  | forwarding =>
      dsimp only at answer
      split at answer <;> cases answer
      · exact ⟨_, .elsewhere (.queued (.ok ())) id rfl⟩
      · exact ⟨_, .elsewhere (.queued (.error _)) id rfl⟩
  | collecting =>
      dsimp only at answer
      split at answer
      next first =>
        cases answer
        exact ⟨_, .collect rfl first rfl⟩
      next fault _ =>
        cases answer
        exact absurd rfl (found fault)
  | posting | reporting =>
      dsimp only at answer
      generalize e : Satellite.post _ _ = posted at answer
      obtain ⟨taken, u⟩ := posted
      cases answer
      cases taken with
      | ok =>
          rw [(Satellite.post_ok e).1]
          exact ⟨_, .elsewhere (.queued (.ok ())) id rfl⟩
      | error fault =>
          rw [Satellite.post_error e]
          exact ⟨_, .elsewhere (.queued (.error fault)) id rfl⟩
  | _ => cases answer

/-- So is what a radio answers that does not fail. -/
theorem turn_of_radio {s : Satellite} {reply : Reply}
    (asks : Satellite.AsksRadio s.manager.activity)
    (asked : s.manager.activity.Asks reply) (works : ∀ cause, reply ≠ .performed (.error cause))
    (coming : List Item) :
    ∃ marks, Turn s.config s.flow (ofSatellite s coming) marks
      (ofSatellite (s.tell reply) coming) := by
  obtain ⟨c, flow, ⟨state, retries, window, activity⟩, decoder, held, events, bytes, downlink⟩ := s
  cases activity with
  | shipping frame sent =>
      cases reply with
      | performed outcome =>
          cases outcome with
          | ok => exact ⟨_, .ship rfl rfl⟩
          | error cause => exact absurd rfl (works cause)
      | _ => exact asked.elim
  | listening | sending | reinitializing => exact ⟨_, .elsewhere reply id rfl⟩
  | _ => exact asks.elim

/-! ## 6. The visits of any batches -/

/-- **The visits of batches**, for every limit of at least one frame, every queue, and batches of no
    more packets than the limit allows, whatever happens between the visits: what is marked is the
    beginning of the visits that the batches take, one after the other, and can be gone on with to
    the end. Each batch takes one visit, which sends its packets and takes its marker, if and only
    if all of them are shorter than the limit. -/
theorem visits_of_batches (c : Config) (addresses : LinkAddresses)
    (allowed : 0 < c.maxDownlinkFrames)
    (room : 0 < c.transmitQueueLength) (batches : List (List (List UInt8)))
    (short : ∀ batch ∈ batches, batch.length ≤ c.maxDownlinkFrames) :
    let s := Satellite.make c addresses
    let planned := batches.flatMap (visits c.maxDownlinkFrames)
    (∀ marks l, Run s.config s.flow (ofSatellite s (batches.flatMap queued)) marks l →
      ∃ rest t, marks ++ rest = planned.flatMap Visit.marks ++ [.opened] ∧
        Run s.config s.flow l rest t) ∧
    (planned = batches.map (fun batch => ⟨batch, true⟩) ↔
      ∀ batch ∈ batches, batch.length < c.maxDownlinkFrames) := by
  intro s planned
  refine ⟨fun marks l run => ?_, flatMap_visits_eq_map_iff⟩
  have due := run.due_eq allowed
  have ready : Ready l := run.ready ⟨rfl, room⟩
  obtain ⟨t, rest⟩ := exists_run s.flow allowed ready
  refine ⟨_, t, ?_, rest⟩
  rw [← ahead_batches allowed short]
  exact due.symm

/-- Four batches of up to two packets, where two may be sent in a visit: five visits. -/
theorem visits_of_batches_up_to_limit :
    let c : Config := { maxDownlinkFrames := 2 }
    let batches : List (List (List UInt8)) := [[[1]], [[2], [3]], [], [[4]]]
    0 < c.maxDownlinkFrames ∧ 0 < c.transmitQueueLength ∧
      (∀ batch ∈ batches, batch.length ≤ c.maxDownlinkFrames) ∧
      ∃ addresses t, c.linkAddresses .cubesat = .ok addresses ∧
        Run c ⟨c.cipher, addresses⟩
          (ofSatellite (Satellite.make c addresses) (batches.flatMap queued))
          ([⟨[[1]], true⟩, ⟨[[2], [3]], false⟩, ⟨[], true⟩, ⟨[], true⟩, ⟨[[4]], true⟩].flatMap
            Visit.marks ++ [.opened]) t := by
  intro c batches
  have allowed : 0 < c.maxDownlinkFrames := by decide
  have room : 0 < c.transmitQueueLength := by decide
  have short : ∀ batch ∈ batches, batch.length ≤ c.maxDownlinkFrames := by decide
  have valid : c.validate = .ok () := by decide +kernel
  obtain ⟨addresses, here⟩ := Config.exists_linkAddresses valid .cubesat
  obtain ⟨goes, -⟩ := visits_of_batches c addresses allowed room batches short
  obtain ⟨rest, t, planned, run⟩ := goes [] _ .start
  rw [List.nil_append] at planned
  rw [planned] at run
  exact ⟨allowed, room, short, addresses, t, here, run⟩

/-- **A batch may leave its marker behind.** Where one packet is sent in a visit, the second visit
    takes the marker of the first batch and sends nothing; it does not send the second batch. -/
theorem marker_left_behind :
    let c : Config := { maxDownlinkFrames := 1 }
    let batches : List (List (List UInt8)) := [[[0xAA]], [[0xBB]]]
    c.validate = .ok () ∧ (∀ batch ∈ batches, batch.length ≤ c.maxDownlinkFrames) ∧
      ∃ addresses marks t, c.linkAddresses .cubesat = .ok addresses ∧
        Run c ⟨c.cipher, addresses⟩
          (ofSatellite (Satellite.make c addresses) (batches.flatMap queued))
          marks t ∧
        Visit.marks ⟨[[0xAA]], false⟩ ++ Visit.marks ⟨[], true⟩ <+: marks ∧
        ¬ marks <+: (batches.map fun batch => ⟨batch, true⟩).flatMap Visit.marks ++ [.opened] := by
  intro c batches
  have valid : c.validate = .ok () := by decide +kernel
  obtain ⟨addresses, here⟩ := Config.exists_linkAddresses valid .cubesat
  have allowed : 0 < c.maxDownlinkFrames := by decide
  have room : 0 < c.transmitQueueLength := by decide
  have ready : Ready (ofSatellite (Satellite.make c addresses) (batches.flatMap queued)) :=
    ⟨rfl, room⟩
  obtain ⟨t, run⟩ := exists_run ⟨c.cipher, addresses⟩ allowed ready
  have due : (ofSatellite (Satellite.make c addresses) (batches.flatMap queued)).due 1 =
      .opened :: ahead 1 0 (batches.flatMap queued) := rfl
  rw [due] at run
  exact ⟨valid, by decide, addresses, _, t, here, run, by decide, by decide⟩

end Line

end SatLink
