import SatLink.Proofs.Satellite.Histories

/-!
# Which visit a completion event belongs to

The manager posts the completion of an activity behind whatever is queued already, and what is
queued outlives the session. Whether a completion event that it takes is that of the present
activity depends on what the queue held when the session began.

* `Posted`, `History` — the event queue, each event with the visit of a state in which it
  was posted;
* `Tagged` — the queue is in the order of visits;
* `Orderly` — which completion events of the present session can lie in the queue, state by state;
* `completion_of_visit` — a completion event that the manager takes is that of the present visit, or
  has been left over from an earlier session.

What is `fresh` has been posted since the link last rested. The rest is stale, and of that nothing
can be said but where it stands.
-/

namespace SatLink.Satellite

open Session (State Event Activity Manager Reply transition? cases_of_enteringEmergency
  cases_of_sendingConn cases_of_awaitingAckConn cases_of_emergencyUplink)

/-! ## 1. The queue with its history -/

/-- An event in the queue: the visit in which it was posted, and whether the manager posted it. -/
structure Posted where
  event : Event
  visit : Nat
  own : Bool
  deriving DecidableEq

/-- What a history amounts to. Each state that is entered begins a visit. -/
structure History where
  state : State := .disconnected
  visit : Nat := 0
  /-- The last visit of the state of rest. -/
  rest : Nat := 0
  /-- The visit in which the event was posted that ended it. -/
  opener : Nat := 0
  queue : List Posted := []
  deriving DecidableEq

namespace History

/-- What a note adds. -/
def after (h : History) : Note → History
  | .posted event own => { h with queue := h.queue ++ [⟨event, h.visit, own⟩] }
  | .took _ =>
      match h.queue with
      | [] => h
      | first :: queue =>
          { h with queue, opener := if h.state = .disconnected then first.visit else h.opener }
  | .entered state =>
      { h with
        state
        visit := h.visit + 1
        rest := if state = .disconnected then h.visit + 1 else h.rest }
  | _ => h

/-- The history of all that is noted. -/
def ofNotes (notes : List Note) : History := notes.foldl after {}

/-- A completion event that was posted since the link last rested. -/
def Fresh (h : History) (p : Posted) : Prop := p.event.IsCompletion ∧ h.rest < p.visit

/-! ## 2. The order of visits -/

/-- The queue is in the order of visits, and none of the manager's completion events was posted at
    rest. -/
structure Tagged (h : History) : Prop where
  sorted : h.queue.Pairwise fun p q => p.visit ≤ q.visit
  opener_le : h.opener ≤ h.visit
  between : ∀ p ∈ h.queue, h.opener ≤ p.visit ∧ p.visit ≤ h.visit
  rest_le : h.rest ≤ h.visit
  rest_eq_iff : h.rest = h.visit ↔ h.state = .disconnected
  completion : ∀ p ∈ h.queue, p.event.IsCompletion → p.own = true ∧ p.visit ≠ h.rest

theorem tagged_start : Tagged {} where
  sorted := .nil
  opener_le := Nat.le_refl 0
  between := nofun
  rest_le := Nat.le_refl 0
  rest_eq_iff := ⟨fun _ => rfl, fun _ => rfl⟩
  completion := nofun

variable {h : History} {event : Event} {own : Bool}

/-- An event is posted. -/
theorem Tagged.posted (tagged : Tagged h)
    (manager : event.IsCompletion → own = true ∧ h.state ≠ .disconnected) :
    Tagged (h.after (.posted event own)) where
  sorted := by
    refine List.pairwise_append.mpr ⟨tagged.sorted, List.pairwise_singleton .., fun p mem => ?_⟩
    exact List.forall_mem_singleton.mpr (tagged.between p mem).2
  opener_le := tagged.opener_le
  between := List.forall_mem_append.mpr
    ⟨tagged.between, List.forall_mem_singleton.mpr ⟨tagged.opener_le, Nat.le_refl _⟩⟩
  rest_le := tagged.rest_le
  rest_eq_iff := tagged.rest_eq_iff
  completion := by
    refine List.forall_mem_append.mpr ⟨tagged.completion, List.forall_mem_singleton.mpr ?_⟩
    intro completion
    obtain ⟨own, away⟩ := manager completion
    exact ⟨own, fun same => away (tagged.rest_eq_iff.mp same.symm)⟩

/-- The first event is taken. -/
theorem Tagged.took {first : Posted} {queue : List Posted} (tagged : Tagged h)
    (queue_eq : h.queue = first :: queue) : Tagged (h.after (.took event)) := by
  obtain ⟨sorted, opener_le, between, rest_le, rest_eq_iff, completion⟩ := tagged
  rw [queue_eq] at sorted between completion
  obtain ⟨before, later⟩ := List.pairwise_cons.mp sorted
  have head := between first List.mem_cons_self
  have tail (p : Posted) (mem : p ∈ queue) := between p (List.mem_cons_of_mem _ mem)
  unfold after
  rw [queue_eq]
  refine ⟨later, ?_, ?_, rest_le, rest_eq_iff, fun p mem =>
    completion p (List.mem_cons_of_mem _ mem)⟩
  · dsimp only
    split
    · exact head.2
    · exact opener_le
  · intro p mem
    refine ⟨?_, (tail p mem).2⟩
    dsimp only
    split
    · exact before p mem
    · exact (tail p mem).1

/-- Another state is entered. -/
theorem Tagged.entered {state : State} (tagged : Tagged h) : Tagged (h.after (.entered state)) := by
  obtain ⟨sorted, opener_le, between, rest_le, rest_eq_iff, completion⟩ := tagged
  have le (p : Posted) (mem : p ∈ h.queue) : p.visit ≤ h.visit := (between p mem).2
  refine ⟨sorted, Nat.le_succ_of_le opener_le,
    fun p mem => ⟨(between p mem).1, Nat.le_succ_of_le (le p mem)⟩, ?_, ?_, ?_⟩
  · show (if state = .disconnected then h.visit + 1 else h.rest) ≤ h.visit + 1
    split
    · exact Nat.le_refl _
    · exact Nat.le_succ_of_le rest_le
  · show (if state = .disconnected then h.visit + 1 else h.rest) = h.visit + 1 ↔
      state = .disconnected
    split
    next rest => exact ⟨fun _ => rest, fun _ => rfl⟩
    next away => exact ⟨fun same => absurd same (by omega), fun rest => absurd rest away⟩
  · intro p mem completed
    refine ⟨(completion p mem completed).1, ?_⟩
    have old := le p mem
    show p.visit ≠ if state = .disconnected then h.visit + 1 else h.rest
    split
    · omega
    · exact (completion p mem completed).2

/-- A completion event is fresh, or from before the link last rested. -/
theorem Tagged.fresh_or_lt (tagged : Tagged h) {p : Posted} (mem : p ∈ h.queue)
    (completion : p.event.IsCompletion) : h.Fresh p ∨ p.visit < h.rest := by
  have other := (tagged.completion p mem completion).2
  rcases Nat.lt_or_gt_of_ne other with lt | gt
  · exact .inr lt
  · exact .inl ⟨completion, gt⟩

/-! ## 3. Where completion events stand -/

/-- Some event of a kind, with events of one kind before it and of another behind it. -/
def Guarded (front first back : Posted → Prop) (queue : List Posted) : Prop :=
  ∃ xs p ys, queue = xs ++ p :: ys ∧ (∀ x ∈ xs, front x) ∧ first p ∧ ∀ y ∈ ys, back y

section

variable {front first back : Posted → Prop} {queue : List Posted} {p : Posted}

theorem Guarded.append (guarded : Guarded front first back queue) (last : back p) :
    Guarded front first back (queue ++ [p]) := by
  obtain ⟨xs, q, ys, rfl, before, guard, behind⟩ := guarded
  exact ⟨xs, q, ys ++ [p], by rw [List.append_assoc]; rfl, before, guard,
    List.forall_mem_append.mpr ⟨behind, List.forall_mem_singleton.mpr last⟩⟩

theorem Guarded.of_last (before : ∀ x ∈ queue, front x) (guard : first p) :
    Guarded front first back (queue ++ [p]) :=
  ⟨queue, p, [], rfl, before, guard, nofun⟩

/-- What is taken from the queue is the event, or one of those before it. -/
theorem Guarded.cons (guarded : Guarded front first back (p :: queue)) :
    (first p ∧ ∀ y ∈ queue, back y) ∨ (front p ∧ Guarded front first back queue) := by
  obtain ⟨xs, q, ys, split, before, guard, behind⟩ := guarded
  cases xs with
  | nil =>
      cases split
      exact .inl ⟨guard, behind⟩
  | cons x xs =>
      cases split
      exact .inr ⟨before p List.mem_cons_self, xs, q, ys, rfl,
        fun y mem => before y (List.mem_cons_of_mem _ mem), guard, behind⟩

theorem Guarded.mono {front' first' back' : Posted → Prop}
    (guarded : Guarded front first back queue)
    (precedes : ∀ p, front p → front' p) (guards : ∀ p, first p → first' p)
    (follows : ∀ p, back p → back' p) : Guarded front' first' back' queue := by
  obtain ⟨xs, p, ys, split, before, guard, behind⟩ := guarded
  exact ⟨xs, p, ys, split, fun x mem => precedes x (before x mem), guards p guard,
    fun y mem => follows y (behind y mem)⟩

end

/-- How far an ordinary session has come; the states of an emergency do not count. -/
def stage : State → Nat
  | .awaitingConn => 0
  | .sendingAck => 1
  | .uplinking => 2
  | .downlinking => 3
  | .sendingDisc => 4
  | .awaitingAckDisc => 5
  | _ => 6

/-- A fresh completion event is that of the present visit, or of a state that is behind. -/
def Behind (h : History) (p : Posted) : Prop :=
  (p.event.home? = some h.state ∧ p.visit = h.visit) ∨
    ∃ home, p.event.home? = some home ∧ stage home < stage h.state

/-- Which completion events can lie in the queue. In an emergency the stale ones come to nothing, or
    the session is doomed: an event is queued that will end it before anything fresh is taken. -/
inductive Orderly (h : History) (activity : Activity) : Prop where
  /-- No completion event is taken here. -/
  | settled (state : h.state = .disconnected ∨ h.state = .emergencyUplink)
  | ordinary (state : stage h.state < 6) (fresh : ∀ p ∈ h.queue, h.Fresh p → h.Behind p)
  | recovering (state : h.state = .enteringEmergency) (busy : activity ≠ .idle)
      (stale : ∀ p ∈ h.queue, ¬ h.Fresh p)
  | recovered (state : h.state = .enteringEmergency) (idle : activity = .idle)
      (guarded : Guarded (¬ h.Fresh ·)
        (fun p => p.event = .error ∨ p.event = .emergencyInitialized ∧ p.visit = h.visit)
        (¬ ·.event.IsCompletion) h.queue)
  | asking (state : h.state = .sendingConn) (busy : activity ≠ .idle)
      (silent : ∀ p ∈ h.queue, p.event.IsCompletion → p.event = .noAck)
  | asked (state : h.state = .sendingConn) (idle : activity = .idle)
      (guarded : Guarded (fun p => p.event.IsCompletion → p.event = .noAck)
        (fun p => p.event = .error ∨ p.event = .connSent ∧ p.visit = h.visit)
        (¬ ·.event.IsCompletion) h.queue)
  | waiting (state : h.state = .awaitingAckConn)
      (silent : ∀ p ∈ h.queue, p.event.IsCompletion → p.event = .noAck ∧ p.visit = h.visit)
  | doomed (state : h.state = .sendingConn ∨ h.state = .awaitingAckConn)
      (guarded : Guarded (¬ h.Fresh ·) (fun p => p.event = .error ∨ p.event = .emergencyInitialized)
        (fun _ => True) h.queue)

/-! ## 4. What becomes of them -/

variable {activity next : Activity} {p : Posted} {queue : List Posted}

/-- Whatever is queued, a completion event that is taken at home is of the present visit, unless
    it is stale. -/
theorem Orderly.visit_eq (orderly : Orderly h .idle) (queue_eq : h.queue = p :: queue)
    (home : p.event.home? = some h.state) (fresh : h.Fresh p) : p.visit = h.visit := by
  have mem : p ∈ h.queue := queue_eq ▸ List.mem_cons_self
  have not_error : p.event ≠ .error := by
    intro e
    rw [e] at home
    cases home
  cases orderly with
  | settled state =>
      exfalso
      generalize p.event = event at home
      rcases state with state | state <;>
        · rw [state] at home
          cases event <;> cases home
  | ordinary _ behind =>
      rcases behind p mem fresh with ⟨-, visit⟩ | ⟨there, home', less⟩
      · exact visit
      · cases home.symm.trans home'
        exact absurd less (Nat.lt_irrefl _)
  | recovering _ busy => exact absurd rfl busy
  | recovered _ _ guarded =>
      rw [queue_eq] at guarded
      rcases guarded.cons with ⟨error | ⟨-, visit⟩, -⟩ | ⟨stale, -⟩
      · exact absurd error not_error
      · exact visit
      · exact absurd fresh stale
  | asking _ busy => exact absurd rfl busy
  | asked state _ guarded =>
      rw [queue_eq] at guarded
      rcases guarded.cons with ⟨error | ⟨-, visit⟩, -⟩ | ⟨silent, -⟩
      · exact absurd error not_error
      · exact visit
      · rw [silent fresh.1, state] at home
        cases home
  | waiting _ silent => exact (silent p mem fresh.1).2
  | doomed state guarded =>
      rw [queue_eq] at guarded
      rcases guarded.cons with ⟨error | recovered, -⟩ | ⟨stale, -⟩
      · exact absurd error not_error
      · rw [recovered] at home
        rcases state with state | state <;>
          · rw [state] at home
            cases home
      · exact absurd fresh stale

/-- A busy manager goes on with another activity. -/
theorem Orderly.busy (orderly : Orderly h activity) (busy : activity ≠ .idle)
    (goesOn : next ≠ .idle) :
    Orderly h next := by
  cases orderly with
  | settled state => exact .settled state
  | ordinary state behind => exact .ordinary state behind
  | recovering state _ stale => exact .recovering state goesOn stale
  | recovered _ idle => exact absurd idle busy
  | asking state _ silent => exact .asking state goesOn silent
  | asked _ idle => exact absurd idle busy
  | waiting state silent => exact .waiting state silent
  | doomed state guarded => exact .doomed state guarded

/-- A listener can do anything next. -/
theorem Orderly.listened (orderly : Orderly h activity) (listens : h.state.isReceiving = true) :
    Orderly h next := by
  cases orderly with
  | settled state => exact .settled state
  | ordinary state behind => exact .ordinary state behind
  | recovering state | recovered state | asking state | asked state =>
      rw [state] at listens
      cases listens
  | waiting state silent => exact .waiting state silent
  | doomed state guarded => exact .doomed state guarded

/-- The manager posts the completion of its activity, or that it failed. -/
theorem Orderly.outcome (orderly : Orderly h activity) (busy : activity ≠ .idle)
    (own : p.visit = h.visit)
    (outcome : p.event.home? = some h.state ∨ p.event = .error) :
    Orderly { h with queue := h.queue ++ [p] } .idle := by
  have marks {home : State} {completion : Event} (state : h.state = home)
      (ends : completion.home? = some home) :
      p.event = .error ∨ p.event = completion ∧ p.visit = h.visit := by
    rcases outcome with there | error
    · rw [state] at there
      exact .inr ⟨Event.eq_of_home? there ends, own⟩
    · exact .inl error
  cases orderly with
  | settled state => exact .settled state
  | ordinary state behind =>
      refine .ordinary state (List.forall_mem_append.mpr
        ⟨behind, List.forall_mem_singleton.mpr fun fresh => ?_⟩)
      rcases outcome with home | error
      · exact .inl ⟨home, own⟩
      · exact absurd (error ▸ fresh.1) Event.not_isCompletion_error
  | recovering state _ stale => exact .recovered state rfl (.of_last stale (marks state rfl))
  | recovered _ idle => exact absurd idle busy
  | asking state _ silent => exact .asked state rfl (.of_last silent (marks state rfl))
  | asked _ idle => exact absurd idle busy
  | waiting state silent =>
      refine .waiting state (List.forall_mem_append.mpr
        ⟨silent, List.forall_mem_singleton.mpr fun completion => ?_⟩)
      have marked : p.event = .error ∨ p.event = .noAck ∧ p.visit = h.visit := marks state rfl
      rcases marked with error | present
      · exact absurd (error ▸ completion) Event.not_isCompletion_error
      · exact present
  | doomed state guarded => exact .doomed state (guarded.append trivial)

/-- Another task posts an event. -/
theorem Orderly.foreign (orderly : Orderly h activity) (foreign : ¬ p.event.IsCompletion) :
    Orderly { h with queue := h.queue ++ [p] } activity := by
  -- what the queue holds of completion events is what it has held
  have all {kind : Posted → Prop} (earlier : ∀ q ∈ h.queue, q.event.IsCompletion → kind q) :
      ∀ q ∈ h.queue ++ [p], q.event.IsCompletion → kind q :=
    List.forall_mem_append.mpr
      ⟨earlier, List.forall_mem_singleton.mpr fun completion => absurd completion foreign⟩
  cases orderly with
  | settled state => exact .settled state
  | ordinary state behind =>
      have behind := all fun q mem completion later => behind q mem ⟨completion, later⟩
      exact .ordinary state fun q mem fresh => behind q mem fresh.1 fresh.2
  | recovering state busy stale =>
      have stale := all fun q mem completion later => stale q mem ⟨completion, later⟩
      exact .recovering state busy fun q mem fresh => stale q mem fresh.1 fresh.2
  | recovered state idle guarded => exact .recovered state idle (guarded.append foreign)
  | asking state busy silent => exact .asking state busy (all silent)
  | asked state idle guarded => exact .asked state idle (guarded.append foreign)
  | waiting state silent => exact .waiting state (all silent)
  | doomed state guarded => exact .doomed state (guarded.append trivial)

/-! ### Events that are taken -/

section

variable {state after : State}

theorem cases_of_disconnected (taken : transition? .disconnected event = some after)
    (goesOn : after ≠ .disconnected) : after = .enteringEmergency ∨ stage after < 6 := by
  cases event <;> cases taken
  all_goals first
    | exact .inl rfl
    | exact .inr (by decide)
    | exact absurd rfl goesOn

/-- An ordinary session never goes back. -/
theorem stage_lt_of_transition? (ordinary : stage state < 6)
    (taken : transition? state event = some after)
    (goesOn : after ≠ .disconnected) :
    after = state ∨ stage state < stage after ∧ stage after < 6 := by
  cases state <;> first | exact absurd ordinary (by decide) | skip
  all_goals
    cases event <;> cases taken
    all_goals first
      | exact .inl rfl
      | exact .inr (by decide)
      | exact absurd rfl goesOn

end

/-- What a history has become when an event was taken: nothing but the state is new, and its
    visit. -/
structure Takes (h : History) (p : Posted) (queue : List Posted) (k : History) : Prop where
  queue_eq : h.queue = p :: queue
  kept : k.queue = queue
  state_eq : k.state = h.state.upon p.event
  rest_eq : k.state ≠ .disconnected → k.rest = h.rest
  visit_eq : k.state = h.state → k.visit = h.visit

section

variable {k : History} (takes : Takes h p queue k) (goesOn : k.state ≠ .disconnected)

include takes

theorem Takes.mem {q : Posted} (mem : q ∈ k.queue) : q ∈ h.queue := by
  rw [takes.kept] at mem
  rw [takes.queue_eq]
  exact List.mem_cons_of_mem _ mem

include goesOn

theorem Takes.transition : transition? h.state p.event = some k.state := by
  rw [takes.state_eq] at goesOn ⊢
  exact State.transition?_of_upon goesOn

theorem Takes.fresh {q : Posted} (fresh : k.Fresh q) : h.Fresh q :=
  ⟨fresh.1, takes.rest_eq goesOn ▸ fresh.2⟩

/-- A stale event stays stale as long as the link does not rest. -/
theorem Takes.stale (q : Posted) : ¬ h.Fresh q → ¬ k.Fresh q := mt (takes.fresh goesOn)

/-- At rest nothing fresh is queued, so whatever begins here begins in order. -/
theorem Takes.of_disconnected (tagged : Tagged h) (busy : next ≠ .idle)
    (rest : h.state = .disconnected) : Orderly k next := by
  have stale : ∀ q ∈ k.queue, ¬ k.Fresh q := by
    intro q mem fresh
    have le := (tagged.between q (takes.mem mem)).2
    have lt := (takes.fresh goesOn fresh).2
    rw [tagged.rest_eq_iff.mpr rest] at lt
    exact absurd le (Nat.not_le.mpr lt)
  have taken := takes.transition goesOn
  rw [rest] at taken
  rcases cases_of_disconnected taken goesOn with entering | ordinary
  · exact .recovering entering busy stale
  · exact .ordinary ordinary fun q mem fresh => absurd fresh (stale q mem)

/-- An ordinary session stays where it is, or goes further. -/
theorem Takes.of_ordinary (state : stage h.state < 6)
    (behind : ∀ q ∈ h.queue, h.Fresh q → h.Behind q) : Orderly k next := by
  have before (q : Posted) (mem : q ∈ k.queue) (fresh : k.Fresh q) : h.Behind q :=
    behind q (takes.mem mem) (takes.fresh goesOn fresh)
  rcases stage_lt_of_transition? state (takes.transition goesOn) goesOn with
    same | ⟨further, ordinary⟩
  · refine .ordinary (same ▸ state) fun q mem fresh => ?_
    rcases before q mem fresh with ⟨home, visit⟩ | ⟨there, home, less⟩
    · exact .inl ⟨same ▸ home, visit.trans (takes.visit_eq same).symm⟩
    · exact .inr ⟨there, home, same ▸ less⟩
  · refine .ordinary ordinary fun q mem fresh => .inr ?_
    rcases before q mem fresh with ⟨home, -⟩ | ⟨there, home, less⟩
    · exact ⟨_, home, further⟩
    · exact ⟨there, home, less.trans further⟩

/-- The radio is back: by its own news, or by news that is still to be followed by it. -/
theorem Takes.of_recovered (busy : next ≠ .idle) (state : h.state = .enteringEmergency)
    (guarded : Guarded (¬ h.Fresh ·)
      (fun q => q.event = .error ∨ q.event = .emergencyInitialized ∧ q.visit = h.visit)
      (¬ ·.event.IsCompletion) h.queue) : Orderly k next := by
  have taken := takes.transition goesOn
  rw [state] at taken
  have asks := (cases_of_enteringEmergency taken goesOn).2
  rw [takes.queue_eq] at guarded
  rcases guarded.cons with ⟨-, foreign⟩ | ⟨-, guarded⟩
  · refine .asking asks busy fun q mem completion => ?_
    rw [takes.kept] at mem
    exact absurd completion (foreign q mem)
  · refine .doomed (.inl asks) ?_
    rw [takes.kept]
    exact guarded.mono (takes.stale goesOn) (fun _ => Or.imp_right And.left) fun _ _ => trivial

/-- The connection was asked for, and nothing but that news leads on. -/
theorem Takes.of_asked (state : h.state = .sendingConn)
    (guarded : Guarded (fun q => q.event.IsCompletion → q.event = .noAck)
      (fun q => q.event = .error ∨ q.event = .connSent ∧ q.visit = h.visit)
      (¬ ·.event.IsCompletion) h.queue) : Orderly k next := by
  have taken := takes.transition goesOn
  rw [state] at taken
  obtain ⟨sent, waits⟩ := cases_of_sendingConn taken goesOn
  rw [takes.queue_eq] at guarded
  rcases guarded.cons with ⟨-, foreign⟩ | ⟨silent, -⟩
  · refine .waiting waits fun q mem completion => ?_
    rw [takes.kept] at mem
    exact absurd completion (foreign q mem)
  · have silent := silent (by rw [sent]; decide)
    rw [sent] at silent
    cases silent

theorem Takes.of_waiting (busy : next ≠ .idle) (state : h.state = .awaitingAckConn)
    (silent : ∀ q ∈ h.queue, q.event.IsCompletion → q.event = .noAck ∧ q.visit = h.visit) :
    Orderly k next := by
  have taken := takes.transition goesOn
  rw [state] at taken
  rcases cases_of_awaitingAckConn taken goesOn with ⟨-, again⟩ | up | ⟨-, asks⟩
  · have same : k.state = h.state := again.trans state.symm
    refine .waiting again fun q mem completion => ?_
    rw [takes.visit_eq same]
    exact silent q (takes.mem mem) completion
  · exact .settled (.inr up)
  · exact .asking asks busy fun q mem completion => (silent q (takes.mem mem) completion).1

/-- What dooms the session is still to be taken: taken here, it would have ended it. -/
theorem Takes.of_doomed (state : h.state = .sendingConn ∨ h.state = .awaitingAckConn)
    (guarded : Guarded (¬ h.Fresh ·)
      (fun q => q.event = .error ∨ q.event = .emergencyInitialized) (fun _ => True) h.queue) :
    Orderly k next := by
  have taken := takes.transition goesOn
  rw [takes.queue_eq] at guarded
  rcases guarded.cons with ⟨error | recovered, -⟩ | ⟨-, guarded⟩
  · rw [error, Session.transition?_error] at taken
    exact absurd (Option.some.inj taken).symm goesOn
  · rw [recovered] at taken
    rcases state with state | state <;>
      · rw [state] at taken
        cases taken
  · have guarded := guarded.mono (takes.stale goesOn) (fun _ => id) fun _ => id
    rw [← takes.kept] at guarded
    rcases state with state | state
    · rw [state] at taken
      exact .doomed (.inr (cases_of_sendingConn taken goesOn).2) guarded
    · rw [state] at taken
      rcases cases_of_awaitingAckConn taken goesOn with ⟨-, again⟩ | up | ⟨-, asks⟩
      · exact .doomed (.inr again) guarded
      · exact .settled (.inr up)
      · exact .doomed (.inl asks) guarded

end

/-- **The manager takes an event**, and begins with what the state does that it leads to. -/
theorem Orderly.take {k : History} (orderly : Orderly h .idle) (tagged : Tagged h)
    (takes : Takes h p queue k) (begins : k.state ≠ .disconnected → next ≠ .idle) :
    Orderly k next := by
  by_cases goesOn : k.state = .disconnected
  · exact .settled (.inl goesOn)
  have busy := begins goesOn
  cases orderly with
  | settled state =>
      rcases state with rest | emergency
      · exact takes.of_disconnected goesOn tagged busy rest
      · have taken := takes.transition goesOn
        rw [emergency] at taken
        exact .settled (.inr (cases_of_emergencyUplink taken goesOn))
  | ordinary state behind => exact takes.of_ordinary goesOn state behind
  | recovering _ idle | asking _ idle => exact absurd rfl idle
  | recovered state _ guarded => exact takes.of_recovered goesOn busy state guarded
  | asked state _ guarded => exact takes.of_asked goesOn state guarded
  | waiting state silent => exact takes.of_waiting goesOn busy state silent
  | doomed state guarded => exact takes.of_doomed goesOn state guarded

/-! ## 5. Histories of a satellite -/

/-- A history and the satellite that it belongs to. -/
structure Kept (h : History) (s : Satellite) : Prop where
  state_eq : h.state = s.manager.state
  queue_eq : h.queue.map (·.event) = s.events.items
  tagged : Tagged h
  orderly : Orderly h s.manager.activity

/-- What follows is nothing that a history keeps. -/
theorem foldl_dispatched (h : History) (commands : List Command) :
    (commands.map Note.dispatched).foldl after h = h := by
  induction commands with
  | nil => rfl
  | cons _ _ ih => exact ih

/-- What is noted when the manager takes an event. -/
theorem Kept.takes {s : Satellite} {n : Manager} {events : List Event} (kept : Kept h s)
    (first : s.events.items = event :: events)
    (enters : Session.Enters s.config s.flow s.manager event n) :
    let k := (Note.took event :: moved s.manager n).foldl after h
    ∃ p queue, Takes h p queue k ∧ queue.map (·.event) = events ∧ k.state = n.state ∧ Tagged k := by
  intro k
  obtain ⟨p, queue, queue_eq, rfl, rest⟩ := List.map_eq_cons_iff.mp (kept.queue_eq.trans first)
  have tagged : Tagged (h.after (.took p.event)) := kept.tagged.took queue_eq
  have took : h.after (.took p.event) =
      { h with queue, opener := if h.state = .disconnected then p.visit else h.opener } := by
    unfold after
    rw [queue_eq]
  have upon : n.state = h.state.upon p.event := by
    rw [enters.state_eq, kept.state_eq]
  refine ⟨p, queue, ?_⟩
  by_cases same : n.state = s.manager.state
  · have e : k = h.after (.took p.event) := by
      show (Note.took p.event :: moved s.manager n).foldl after h = _
      rw [moved_same same]
      rfl
    rw [← kept.state_eq] at same
    rw [e]
    refine ⟨?_, rest, ?_, tagged⟩
    · rw [took]
      exact ⟨queue_eq, rfl, same.symm.trans upon, fun _ => rfl, fun _ => rfl⟩
    · rw [took]
      exact same.symm
  · have e : k = (h.after (.took p.event)).after (.entered n.state) := by
      show (Note.took p.event :: moved s.manager n).foldl after h = _
      rw [moved_of_ne same]
      rfl
    rw [← kept.state_eq] at same
    rw [e]
    refine ⟨?_, rest, rfl, tagged.entered⟩
    rw [took]
    exact ⟨queue_eq, rfl, upon, fun away => if_neg away, fun back => absurd back same⟩

/-- An event is posted, and the manager is done, or another task posts it. -/
theorem Kept.posted {s t : Satellite} (kept : Kept h s) (state : t.manager.state = s.manager.state)
    (last : t.events.items = s.events.items ++ [event])
    (manager : event.IsCompletion → own = true ∧ s.manager.state ≠ .disconnected)
    (orderly : Orderly { h with queue := h.queue ++ [⟨event, h.visit, own⟩] } t.manager.activity) :
    Kept (h.after (.posted event own)) t where
  state_eq := kept.state_eq.trans state.symm
  queue_eq := by
    rw [last, ← kept.queue_eq]
    exact List.map_append
  tagged := by
    refine kept.tagged.posted ?_
    rw [kept.state_eq]
    exact manager
  orderly := orderly

/-- **What a turn leaves of it.** -/
theorem Kept.change {s t : Satellite} {may : Event → Prop} {notes : List Note} (kept : Kept h s)
    (sound : Sound s) (foreign : ∀ event, may event → ¬ event.IsCompletion)
    (change : Change may s notes t) :
    Kept (notes.foldl after h) t := by
  have does := sound.does
  have orderly := kept.orderly
  cases change with
  | took idle first enters =>
      obtain ⟨p, queue, takes, rest, state, tagged⟩ := kept.takes first enters
      refine ⟨state, (congrArg _ takes.kept).trans rest, tagged, ?_⟩
      rw [idle] at orderly
      refine orderly.take kept.tagged takes fun away e => ?_
      rw [state] at away
      exact away (enters.begins.idle_iff.mp e)
  | heard holds | again holds | sent holds | recovered holds =>
      have busy : s.manager.activity ≠ .idle := by
        rw [holds]
        nofun
      exact ⟨kept.state_eq, kept.queue_eq, kept.tagged, orderly.busy busy nofun⟩
  | forwarded holds last next =>
      rw [holds, ← kept.state_eq] at does
      exact ⟨kept.state_eq, kept.queue_eq, kept.tagged, orderly.listened does⟩
  | transmitted transmits next noted =>
      have busy {activity : Activity} (transmits : Transmits activity) : activity ≠ .idle := by
        rintro rfl
        exact transmits
      have further := next.elim busy (by rintro rfl; nofun)
      rcases noted with rfl | ⟨_, rfl⟩ <;>
        exact ⟨kept.state_eq, kept.queue_eq, kept.tagged, orderly.busy (busy transmits) further⟩
  | posted posts last =>
      have away := does.ne_disconnected (by rw [posts]; nofun)
      rw [posts, ← kept.state_eq] at does
      exact kept.posted rfl last (fun _ => ⟨rfl, away⟩)
        (orderly.outcome (by rw [posts]; nofun) rfl (.inl does))
  | reported reports last =>
      exact kept.posted rfl last (fun completion => absurd completion Event.not_isCompletion_error)
        (orderly.outcome (by rw [reports]; nofun) rfl (.inr rfl))
  | failed busy _ _ => exact ⟨kept.state_eq, kept.queue_eq, kept.tagged, orderly.busy busy nofun⟩
  | reset reports =>
      have away := does.ne_disconnected (by rw [reports]; nofun)
      rw [moved_of_ne away.symm]
      exact ⟨rfl, kept.queue_eq, kept.tagged.entered, .settled (.inl rfl)⟩
  | framed =>
      rw [foldl_dispatched]
      exact ⟨kept.state_eq, kept.queue_eq, kept.tagged, orderly⟩
  | delivered holds last =>
      have other := sound.held _ holds
      exact kept.posted rfl last (fun completion => absurd completion other) (orderly.foreign other)
  | came allowed last =>
      have other := foreign _ allowed
      exact kept.posted rfl last (fun completion => absurd completion other) (orderly.foreign other)
  | decoded | lost | supplied | passed | refused =>
      exact ⟨kept.state_eq, kept.queue_eq, kept.tagged, orderly⟩

theorem Kept.run {c : Config} {addresses : LinkAddresses} {s : Satellite} {may : Event → Prop}
    {notes : List Note} (foreign : ∀ event, may event → ¬ event.IsCompletion)
    (run : Run may (make c addresses) notes s) : Kept (ofNotes notes) s := by
  induction run with
  | start => exact ⟨rfl, rfl, tagged_start, .settled (.inl rfl)⟩
  | turn run turn ih =>
      have kept := ih.change (run.sound (sound_make c addresses)) foreign turn.change
      rw [ofNotes, List.foldl_append]
      exact kept

end History

/-! ## 6. Completion events -/

/-- **Which visit a completion event belongs to.** Other tasks post events of any other kind, in any
    order. A completion event that the manager takes was posted by the manager itself; if the state
    accepts it, it was posted in the present visit of this state, or before the link last rested. In
    the latter case the event that opened the session was queued ahead of it, and posted no later:
    nothing is left over in a session whose opening event was posted since the link came to rest. -/
theorem completion_of_visit {c : Config} {addresses : LinkAddresses} {may : Event → Prop}
    (foreign : ∀ event, may event → ¬ event.IsCompletion) {notes : List Note} {s t : Satellite}
    (run : Run may (make c addresses) notes s) {event : Event}
    (answer : s.answer? = some (.event event, t)) (completion : event.IsCompletion) :
    let h := History.ofNotes notes
    ∃ p queue, h.queue = p :: queue ∧ p.event = event ∧ p.own = true ∧ h.opener ≤ p.visit ∧
      (h.opener = h.rest → h.rest < p.visit) ∧
      ∀ next, transition? s.manager.state event = some next →
        p.visit = h.visit ∨ p.visit < h.rest := by
  intro h
  have kept : h.Kept s := History.Kept.run foreign run
  obtain ⟨idle, first, -⟩ := answer?_event answer
  obtain ⟨p, queue, queue_eq, rfl, -⟩ := List.map_eq_cons_iff.mp (kept.queue_eq.trans first)
  have mem : p ∈ h.queue := queue_eq ▸ List.mem_cons_self
  obtain ⟨own, other⟩ := kept.tagged.completion p mem completion
  have opened := (kept.tagged.between p mem).1
  refine ⟨p, queue, queue_eq, rfl, own, opened, fun since => ?_, fun next taken => ?_⟩
  · rw [since] at opened
    exact Nat.lt_of_le_of_ne opened other.symm
  · rcases kept.tagged.fresh_or_lt mem completion with fresh | stale
    · have orderly := kept.orderly
      rw [idle] at orderly
      have home := Session.home?_of_transition? taken completion
      rw [← kept.state_eq] at home
      exact .inl (orderly.visit_eq queue_eq home fresh)
    · exact .inr stale

/-! ## 7. Downlinks with nothing to send -/

/-- A satellite under the standard settings, with these events in its queue. -/
def queued (addresses : LinkAddresses) (m : Manager) (items : List Event) : Satellite :=
  { make .standard addresses with manager := m, events := { capacity := 10, items } }

section

variable {may : Event → Prop} (addresses : LinkAddresses) (items : List Event)

theorem post_queued {m : Manager} (event : Event) (room : items.length < 10) :
    (queued addresses m items).post event = (.ok (), queued addresses m (items ++ [event])) := by
  unfold post
  rw [Queue.send_of_lt rfl room]
  rfl

/-- The application posts an event. -/
theorem turn_queued {m : Manager} (event : Event) (allowed : may event) (room : items.length < 10) :
    Turn may (queued addresses m items) [.posted event false]
      (queued addresses m (items ++ [event])) := by
  have turn : Turn may (queued addresses m items) _ _ := .post allowed
  rw [post_queued addresses items event room] at turn
  exact turn

/-- The manager takes the order to begin a downlink. -/
theorem turn_beginDownlink : Turn may (queued addresses .initial (.beginDownlink :: items))
    [.took .beginDownlink, .entered .downlinking]
    (queued addresses ⟨.downlinking, 0, none, .collecting 0⟩ items) :=
  .of_queue (t := queued addresses .initial items) rfl rfl rfl

/-- It finds nothing to send, and posts that the downlink is finished. -/
theorem run_downlinkFinished (room : items.length < 10) :
    Run may (queued addresses ⟨.downlinking, 0, none, .collecting 0⟩ items)
      [.posted .downlinkFinished true]
      (queued addresses ⟨.downlinking, 0, none, .idle⟩ (items ++ [.downlinkFinished])) := by
  have drained : Turn may (queued addresses ⟨.downlinking, 0, none, .collecting 0⟩ items) []
      (queued addresses ⟨.downlinking, 0, none, .posting .downlinkFinished⟩ items) :=
    .of_queue (t := queued addresses ⟨.downlinking, 0, none, .collecting 0⟩ items) rfl rfl rfl
  have taken :
      (queued addresses ⟨.downlinking, 0, none, .posting .downlinkFinished⟩ items).answer? =
      some (.queued (.ok ()), queued addresses ⟨.downlinking, 0, none, .posting .downlinkFinished⟩
        (items ++ [.downlinkFinished])) := by
    have posts : (queued addresses ⟨.downlinking, 0, none, .posting .downlinkFinished⟩
        items).manager.activity = .posting .downlinkFinished := rfl
    unfold answer?
    rw [posts]
    dsimp only
    rw [post_queued addresses items _ room]
  exact drained.run.turn (.of_queue taken rfl rfl)

end

/-- Under the standard settings: a downlink with nothing to send, whose end is taken in the visit in
    which it was posted. -/
theorem completion_of_visit_downlink : ∃ addresses notes s t,
    Config.standard.linkAddresses .cubesat = .ok addresses ∧
    (∀ event : Event, ¬ event.IsCompletion → ¬ event.IsCompletion) ∧
    Run (fun event => ¬ event.IsCompletion) (make .standard addresses) notes s ∧
    s.answer? = some (.event .downlinkFinished, t) ∧ Event.downlinkFinished.IsCompletion ∧
    let h := History.ofNotes notes
    ∃ p queue, h.queue = p :: queue ∧ p.event = .downlinkFinished ∧ p.own = true ∧
      h.opener ≤ p.visit ∧ (h.opener = h.rest → h.rest < p.visit) ∧
      ∀ next, transition? s.manager.state .downlinkFinished = some next →
        p.visit = h.visit ∨ p.visit < h.rest := by
  obtain ⟨addresses, here⟩ := Config.standard.exists_linkAddresses_of_validate (by decide +kernel)
  have foreign (event : Event) (other : ¬ event.IsCompletion) : ¬ event.IsCompletion := other
  have run : Run (fun event => ¬ event.IsCompletion) (make .standard addresses) _ _ :=
    ((turn_queued (m := .initial) addresses [] .beginDownlink (by decide) (by decide)).run.turn
      (turn_beginDownlink addresses [])).trans (run_downlinkFinished addresses [] (by decide))
  exact ⟨addresses, _, _, _, here, foreign, run, rfl, by decide,
    completion_of_visit foreign run rfl (by decide)⟩

/-- **What is left over is not dropped.** Under the standard settings: while a downlink is under way
    an error is posted and the next downlink ordered. The end of the first downlink lies in the
    queue behind both. The link comes to rest in visit 2 and begins the next downlink in visit 3,
    which the end posted in visit 1 then ends. -/
theorem leftover_completion : ∃ addresses notes s t,
    Config.standard.linkAddresses .cubesat = .ok addresses ∧
    Run (fun event => ¬ event.IsCompletion) (make .standard addresses) notes s ∧
    s.answer? = some (.event .downlinkFinished, t) ∧
    transition? s.manager.state .downlinkFinished = some .sendingDisc ∧
    History.ofNotes notes =
      { state := .downlinking, visit := 3, rest := 2, opener := 1
        queue := [⟨.downlinkFinished, 1, true⟩, ⟨.downlinkFinished, 3, true⟩] } := by
  obtain ⟨addresses, here⟩ := Config.standard.exists_linkAddresses_of_validate (by decide +kernel)
  have ordered : Run (fun event => ¬ event.IsCompletion) (make .standard addresses) _ _ :=
    (turn_queued (m := .initial) addresses [] .beginDownlink (by decide) (by decide)).run.turn
      (turn_beginDownlink addresses [])
  have failing := (ordered.turn (turn_queued addresses [] .error (by decide) (by decide))).turn
    (turn_queued addresses [.error] .beginDownlink (by decide) (by decide))
  have finished :=
    failing.trans (run_downlinkFinished addresses [.error, .beginDownlink] (by decide))
  have rest : Turn (fun event => ¬ event.IsCompletion)
      (queued addresses ⟨.downlinking, 0, none, .idle⟩ [.error, .beginDownlink, .downlinkFinished])
      [.took .error, .entered .disconnected]
      (queued addresses .initial [.beginDownlink, .downlinkFinished]) :=
    .of_queue
      (t := queued addresses ⟨.downlinking, 0, none, .idle⟩ [.beginDownlink, .downlinkFinished])
      rfl rfl rfl
  have again := (finished.turn rest).turn (turn_beginDownlink addresses [.downlinkFinished])
  have finishedAgain := again.trans (run_downlinkFinished addresses [.downlinkFinished] (by decide))
  exact ⟨addresses, _, _, _, here, finishedAgain, rfl, rfl, rfl⟩

end SatLink.Satellite
