import Mathlib.Data.List.Basic
import Mathlib.Data.List.Induction
import SatLink.Buffer
import SatLink.Proofs.Uplink.Accumulator

/-!
# The whole life of an accumulator

Bytes are pushed and resets are called for in any order. What an accumulator hands out is told here
by the calls alone: a flag closes the bytes since the flag before it, unless a reset came between.

* `Since` — the bytes that were pushed since the last flag, with no reset since;
* `answers`, `finalState` — a machine that answers calls, and `answers_eq` — two machines that
  answer alike step by step answer alike;
* `Follows` — the invariant: an accumulator holds what came since the last flag, as long as it fits;
* `Stored` — the accumulator in memory, with a write pointer and old bytes behind it;
* `segments_handed_out` — **exactly the segments between two flags are handed out, each by the flag
  that closes it**, and behind a flag nothing tells what came before.
-/

namespace SatLink.Uplink

open SatLink.Frame (flag flagged maxLength)

/-! ## 1. Calls -/

/-- A call on an accumulator. -/
inductive Call where
  | push (byte : UInt8)
  | reset
  deriving DecidableEq

section

variable {σ τ : Type}

/-- What a machine answers to calls, one answer for each. -/
def answers (step : Call → σ → Option (List UInt8) × σ) : σ → List Call → List (Option (List UInt8))
  | _, [] => []
  | s, c :: calls => (step c s).1 :: answers step (step c s).2 calls

/-- The state that calls leave. -/
def finalState (step : Call → σ → Option (List UInt8) × σ) (s : σ) (calls : List Call) : σ :=
  calls.foldl (fun s c => (step c s).2) s

variable {step : Call → σ → Option (List UInt8) × σ}

theorem finalState_concat (s : σ) (calls : List Call) (c : Call) :
    finalState step s (calls ++ [c]) = (step c (finalState step s calls)).2 := by
  simp [finalState]

/-- Every call is answered from the state that the calls before it leave. -/
theorem getElem?_answers (s : σ) (calls : List Call) (i : Nat) :
    (answers step s calls)[i]? =
      calls[i]?.map fun c => (step c (finalState step s (calls.take i))).1 := by
  induction calls generalizing s i with
  | nil => rfl
  | cons c calls ih =>
      cases i with
      | zero => rfl
      | succ i => exact ih _ i

/-- **Machines that answer alike step by step answer alike.** -/
theorem answers_eq {other : Call → τ → Option (List UInt8) × τ} (related : σ → τ → Prop)
    (alike : ∀ {s t} c, related s t →
      (step c s).1 = (other c t).1 ∧ related (step c s).2 (other c t).2)
    {s : σ} {t : τ} (start : related s t) (calls : List Call) :
    answers step s calls = answers other t calls ∧
      related (finalState step s calls) (finalState other t calls) := by
  induction calls generalizing s t with
  | nil => exact ⟨rfl, start⟩
  | cons c calls ih =>
      obtain ⟨same, next⟩ := alike c start
      obtain ⟨later, last⟩ := ih next
      exact ⟨List.cons_eq_cons.mpr ⟨same, later⟩, last⟩

end

/-! ## 2. Since the last flag -/

/-- These bytes are what was pushed since the last flag, and no reset came since. -/
def Since (calls : List Call) (segment : List UInt8) : Prop :=
  flag ∉ segment ∧ ∃ before, calls = before ++ .push flag :: segment.map .push

theorem not_since_nil (segment : List UInt8) : ¬ Since [] segment := by
  intro since
  obtain ⟨-, before, e⟩ := since
  exact absurd e.symm (List.append_ne_nil_of_right_ne_nil _ (List.cons_ne_nil _ _))

/-- The segment behind one more call: a flag opens one that has no bytes yet, any other byte
    prolongs it, and a reset ends it. -/
theorem since_concat_iff {calls : List Call} {c : Call} {segment : List UInt8} :
    Since (calls ++ [c]) segment ↔ (c = .push flag ∧ segment = []) ∨
      ∃ front byte, byte ≠ flag ∧ c = .push byte ∧ segment = front ++ [byte] ∧
        Since calls front := by
  constructor
  · intro since
    obtain ⟨noFlag, before, e⟩ := since
    rcases List.eq_nil_or_concat' segment with rfl | ⟨front, byte, rfl⟩
    · obtain ⟨-, last⟩ := List.append_inj' e rfl
      exact .inl ⟨List.singleton_inj.mp last, rfl⟩
    · have parts : calls ++ [c] = (before ++ .push flag :: front.map .push) ++ [.push byte] := by
        rw [e, List.map_append, List.append_assoc]
        rfl
      obtain ⟨earlier, last⟩ := List.append_inj' parts rfl
      have other : byte ≠ flag := fun e => noFlag (e ▸ List.mem_append_right _ List.mem_cons_self)
      have noFlag' : flag ∉ front := fun inside => noFlag (List.mem_append_left _ inside)
      exact .inr ⟨front, byte, other, List.singleton_inj.mp last, rfl, noFlag', before, earlier⟩
  · intro h
    rcases h with ⟨rfl, rfl⟩ | ⟨front, byte, other, rfl, rfl, noFlag, before, rfl⟩
    · exact ⟨List.not_mem_nil, calls, rfl⟩
    · refine ⟨?_, before, ?_⟩
      · rw [List.mem_append, List.mem_singleton]
        exact fun inside => inside.elim noFlag fun e => other e.symm
      · rw [List.map_append, List.append_assoc]
        rfl

theorem since_flag_iff {calls : List Call} {segment : List UInt8} :
    Since (calls ++ [.push flag]) segment ↔ segment = [] := by
  rw [since_concat_iff]
  constructor
  · intro h
    rcases h with ⟨-, empty⟩ | ⟨_, _, other, e, -, -⟩
    · exact empty
    · cases e
      exact absurd rfl other
  · exact fun empty => .inl ⟨rfl, empty⟩

theorem since_byte_iff {calls : List Call} {byte : UInt8} (other : byte ≠ flag)
    {segment : List UInt8} :
    Since (calls ++ [.push byte]) segment ↔ ∃ front, segment = front ++ [byte] ∧
      Since calls front := by
  rw [since_concat_iff]
  constructor
  · intro h
    rcases h with ⟨e, -⟩ | ⟨front, _, -, e, parts, since⟩
    · cases e
      exact absurd rfl other
    · cases e
      exact ⟨front, parts, since⟩
  · exact fun ⟨front, parts, since⟩ => .inr ⟨front, byte, other, rfl, parts, since⟩

theorem not_since_reset {calls : List Call} {segment : List UInt8} :
    ¬ Since (calls ++ [.reset]) segment := by
  rw [since_concat_iff]
  intro h
  rcases h with ⟨e, -⟩ | ⟨_, _, -, e, -, -⟩
  · cases e
  · cases e

/-- There is only one last flag. -/
theorem Since.unique {calls : List Call} {segment other : List UInt8} (h : Since calls segment)
    (h' : Since calls other) : segment = other := by
  induction calls using List.reverseRecOn generalizing segment other with
  | nil => exact absurd h (not_since_nil _)
  | append_singleton calls c ih =>
      cases c with
      | reset => exact absurd h not_since_reset
      | push byte =>
          by_cases isFlag : byte = flag
          · subst isFlag
            rw [since_flag_iff.mp h, since_flag_iff.mp h']
          · obtain ⟨front, rfl, earlier⟩ := (since_byte_iff isFlag).mp h
            obtain ⟨front', rfl, earlier'⟩ := (since_byte_iff isFlag).mp h'
            rw [ih earlier earlier']

/-! ## 3. The accumulator -/

namespace Accumulator

/-- What an accumulator answers to a call, and the state behind it. -/
def call : Call → Accumulator → Option (List UInt8) × Accumulator
  | .push byte, a => a.push byte
  | .reset, a => (none, a.reset)

/-- An accumulator holds what came since the last flag, as long as that fits. -/
def Follows (calls : List Call) : Accumulator → Prop
  | .hunting => ∀ segment, Since calls segment → maxLength ≤ segment.length
  | .collecting body => Since calls body ∧ body.length < maxLength

theorem follows_nil : Follows [] .hunting :=
  fun segment since => absurd since (not_since_nil segment)

section

variable {calls : List Call} {a : Accumulator}

theorem Follows.push (h : Follows calls a) {byte : UInt8} (other : byte ≠ flag) :
    Follows (calls ++ [.push byte]) (a.push byte).2 := by
  cases a with
  | hunting =>
      rw [push_hunting other]
      intro segment since
      obtain ⟨front, rfl, earlier⟩ := (since_byte_iff other).mp since
      rw [List.length_append]
      exact Nat.le_add_right_of_le (h front earlier)
  | collecting body =>
      obtain ⟨since, room⟩ := h
      have len : (body ++ [byte]).length = body.length + 1 := List.length_append
      rw [push_collecting other]
      dsimp only
      by_cases more : body.length + 2 ≤ maxLength
      · have space : fits body = true := decide_eq_true more
        rw [if_pos space]
        exact ⟨(since_byte_iff other).mpr ⟨body, rfl, since⟩, by omega⟩
      · -- the byte does not fit, and no segment that goes on from here does
        have full : ¬ fits body = true := fun space => more (of_decide_eq_true space)
        rw [if_neg full]
        intro segment longer
        obtain ⟨front, rfl, same⟩ := (since_byte_iff other).mp longer
        cases same.unique since
        omega

/-- **The invariant, call by call.** -/
theorem Follows.call (h : Follows calls a) (c : Call) : Follows (calls ++ [c]) (a.call c).2 := by
  cases c with
  | reset => exact fun segment since => absurd since not_since_reset
  | push byte =>
      by_cases isFlag : byte = flag
      · subst isFlag
        show Follows _ (a.push flag).2
        rw [(push_flag a).2]
        exact ⟨since_flag_iff.mpr rfl, by decide⟩
      · exact h.push isFlag

/-- **The invariant of every history.** -/
theorem follows_finalState (calls : List Call) :
    Follows calls (finalState Accumulator.call .hunting calls) := by
  induction calls using List.reverseRecOn with
  | nil => exact follows_nil
  | append_singleton calls c ih =>
      rw [finalState_concat]
      exact ih.call c

/-- Behind a flag nothing is left of what came before it. -/
theorem finalState_flag (calls : List Call) :
    finalState Accumulator.call .hunting (calls ++ [.push flag]) = .collecting [] := by
  rw [finalState_concat]
  exact (push_flag _).2

/-- A flag hands out what came since the last one, if anything did and it fits. -/
theorem push_collecting_flag_eq_some_iff {body frame : List UInt8} :
    ((collecting body).push flag).1 = some frame ↔
      1 ≤ body.length ∧ body.length ≤ 329 ∧ frame = flagged body := by
  show (if !body.isEmpty && fits body then some (flagged body) else none) = some frame ↔ _
  have cond : (!body.isEmpty && fits body) = true ↔ 1 ≤ body.length ∧ body.length ≤ 329 := by
    rw [Bool.and_eq_true, fits, decide_eq_true_eq, maxLength]
    cases body with
    | nil => simp
    | cons byte body =>
        simp only [List.isEmpty_cons, Bool.not_false, true_and, List.length_cons]
        omega
  by_cases h : (!body.isEmpty && fits body) = true
  · rw [if_pos h, Option.some.injEq]
    exact ⟨fun e => ⟨(cond.mp h).1, (cond.mp h).2, e.symm⟩, fun e => e.2.2.symm⟩
  · rw [if_neg h]
    exact ⟨nofun, fun e => absurd (cond.mpr ⟨e.1, e.2.1⟩) h⟩

/-- **The answer to a call** is told by the calls before it. -/
theorem Follows.call_eq_some_iff (h : Follows calls a) {c : Call} {frame : List UInt8} :
    (a.call c).1 = some frame ↔ c = .push flag ∧ ∃ segment, Since calls segment ∧
      1 ≤ segment.length ∧ segment.length ≤ 329 ∧ frame = flagged segment := by
  cases c with
  | reset => exact ⟨nofun, fun e => nomatch e.1⟩
  | push byte =>
      show (a.push byte).1 = some frame ↔ _
      by_cases isFlag : byte = flag
      · subst isFlag
        cases a with
        | hunting =>
            -- a segment that was given up is too long for any frame
            refine ⟨nofun, fun handed => ?_⟩
            obtain ⟨-, segment, since, -, short, -⟩ := handed
            have long : maxLength ≤ segment.length := h segment since
            exact absurd (Nat.le_trans long short) (by decide)
        | collecting body =>
            rw [push_collecting_flag_eq_some_iff]
            constructor
            · exact fun handed => ⟨rfl, body, h.1, handed⟩
            · intro handed
              obtain ⟨-, segment, since, fits⟩ := handed
              cases since.unique h.1
              exact fits
      · rw [push_of_ne isFlag]
        refine ⟨nofun, fun handed => ?_⟩
        exact absurd (Call.push.inj handed.1) isFlag

end

end Accumulator

/-! ## 4. In memory -/

/-- An accumulator in memory: the bytes of the frame from its flag on, in front of a write pointer
    with old bytes behind it, and whether there was a flag. -/
structure Stored where
  buffer : Buffer maxLength
  inFrame : Bool

namespace Stored

/-- Nothing is written yet. -/
def fresh : Stored := ⟨.empty maxLength, false⟩

/-- Begins a frame: the pointer goes back, and a flag is written. -/
def start (s : Stored) : Stored := ⟨(s.buffer.clear.push flag).2, true⟩

/-- Waits for the next flag. -/
def reset (s : Stored) : Stored := ⟨s.buffer.clear, false⟩

/-- Takes one byte; the closing flag goes into a copy of the buffer. -/
def push (byte : UInt8) (s : Stored) : Option (Buffer maxLength) × Stored :=
  if s.inFrame then
    if byte = flag then
      if s.buffer.length = 1 then (none, s)
      else
        match s.buffer.push flag with
        | (.ok _, frame) => (some frame, s.start)
        | (.error _, _) => (none, s.start)
    else
      match s.buffer.push byte with
      | (.ok _, buffer) => (none, { s with buffer := buffer })
      | (.error _, _) => (none, s.reset)
  else (none, if byte = flag then s.start else s)

/-- What an accumulator in memory answers to a call, told by the written bytes. -/
def call : Call → Stored → Option (List UInt8) × Stored
  | .push byte, s => ((s.push byte).1.map Buffer.toList, (s.push byte).2)
  | .reset, s => (none, s.reset)

/-- What can be seen of it: whether there was a flag, and the written bytes. -/
def seen (s : Stored) : Bool × List UInt8 := (s.inFrame, s.buffer.toList)

/-- The written bytes are a flag and what came since, unless there was none. -/
def Shows (s : Stored) : Accumulator → Prop
  | .hunting => s.inFrame = false
  | .collecting body => s.seen = (true, flag :: body)

section

variable {s : Stored} {a : Accumulator}

theorem shows_start (s : Stored) : s.start.Shows (.collecting []) := by
  have room : s.buffer.clear.length < maxLength := by
    show 0 < maxLength
    decide
  show (true, (s.buffer.clear.push flag).2.toList) = _
  rw [Buffer.toList_push, if_pos room, Buffer.toList_clear]
  rfl

/-- At a flag. -/
theorem Shows.push_flag {body : List UInt8} (h : s.Shows (.collecting body)) :
    (s.push flag).1.map Buffer.toList = ((Accumulator.collecting body).push flag).1 ∧
      (s.push flag).2.Shows (.collecting []) := by
  obtain ⟨inside, written⟩ := Prod.mk.inj h
  have len : s.buffer.length = body.length + 1 := by
    rw [← Buffer.length_toList, written, List.length_cons]
  unfold Stored.push
  rw [if_pos inside, if_pos rfl]
  by_cases idle : body = []
  · subst idle
    have bare : s.buffer.length = 1 := len
    rw [if_pos bare]
    exact ⟨rfl, h⟩
  · have filled : 1 ≤ body.length := List.length_pos_iff.mpr idle
    have limit : maxLength = 331 := rfl
    rw [if_neg (by omega)]
    rcases s.buffer.push_cases flag with ⟨room, c, pushed, more⟩ | ⟨full, e, pushed⟩
    · have handed := Accumulator.push_collecting_flag_eq_some_iff.mpr ⟨filled, by omega, rfl⟩
      rw [pushed, handed]
      refine ⟨congrArg some ?_, shows_start s⟩
      rw [more, written]
      rfl
    · rw [pushed]
      refine ⟨(Option.eq_none_iff_forall_ne_some.mpr fun frame handed => ?_).symm, shows_start s⟩
      obtain ⟨-, short, -⟩ := Accumulator.push_collecting_flag_eq_some_iff.mp handed
      omega

/-- **The accumulator in memory answers as the accumulator does**, byte by byte. -/
theorem Shows.push (h : s.Shows a) (byte : UInt8) :
    (s.push byte).1.map Buffer.toList = (a.push byte).1 ∧
      (s.push byte).2.Shows (a.push byte).2 := by
  cases a with
  | hunting =>
      have outside : ¬ s.inFrame = true := ne_true_of_eq_false h
      unfold Stored.push
      rw [if_neg outside]
      by_cases isFlag : byte = flag
      · subst isFlag
        exact ⟨rfl, shows_start s⟩
      · rw [if_neg isFlag, Accumulator.push_hunting isFlag]
        exact ⟨rfl, h⟩
  | collecting body =>
      by_cases isFlag : byte = flag
      · subst isFlag
        rw [(Accumulator.push_flag _).2]
        exact h.push_flag
      · obtain ⟨inside, written⟩ := Prod.mk.inj h
        have len : s.buffer.length = body.length + 1 := by
          rw [← Buffer.length_toList, written, List.length_cons]
        unfold Stored.push
        rw [if_pos inside, if_neg isFlag, Accumulator.push_collecting isFlag]
        rcases s.buffer.push_cases byte with ⟨room, c, pushed, more⟩ | ⟨full, e, pushed⟩
        · have fits : Accumulator.fits body = true := decide_eq_true (by omega)
          rw [pushed, if_pos fits]
          refine ⟨rfl, ?_⟩
          show (s.inFrame, c.toList) = (true, flag :: (body ++ [byte]))
          rw [inside, more, written]
          rfl
        · have tooLong : ¬ Accumulator.fits body = true := fun fits => by
            have short := of_decide_eq_true fits
            omega
          rw [pushed, if_neg tooLong]
          exact ⟨rfl, rfl⟩

theorem Shows.call (c : Call) (h : s.Shows a) :
    (s.call c).1 = (a.call c).1 ∧ (s.call c).2.Shows (a.call c).2 := by
  cases c with
  | push byte => exact h.push byte
  | reset => exact ⟨rfl, rfl⟩

end

theorem shows_fresh : fresh.Shows .hunting := rfl

/-- **Over any calls the accumulator in memory answers as the accumulator does.** -/
theorem answers_fresh (calls : List Call) :
    answers Stored.call fresh calls = answers Accumulator.call .hunting calls ∧
      (finalState Stored.call fresh calls).Shows (finalState Accumulator.call .hunting calls) :=
  answers_eq Shows Shows.call shows_fresh calls

/-- Behind a flag an accumulator in memory shows a frame that has just begun. -/
theorem shows_of_flag (calls : List Call) :
    (finalState Stored.call fresh (calls ++ [.push flag])).Shows (.collecting []) := by
  have shown := (answers_fresh (calls ++ [.push flag])).2
  rwa [Accumulator.finalState_flag] at shown

end Stored

/-! ## 5. Segments -/

/-- **Exactly the segments between two flags are handed out**, over any history of pushed bytes and
    resets, from the start. A call is answered with a frame when it pushes a flag, and the bytes
    pushed since the flag before it, with no reset since, are at least one and at most 329; the
    frame is these bytes between two flags. Every other call is answered with nothing. The
    accumulator in memory answers alike; and behind a flag nothing tells what came before: what can
    be seen of it is a frame that has just begun, and it answers any further calls as it would
    behind a first flag. -/
theorem segments_handed_out (calls : List Call) :
    (∀ i frame, (answers Accumulator.call .hunting calls)[i]? = some (some frame) ↔
      calls[i]? = some (.push flag) ∧ ∃ segment, Since (calls.take i) segment ∧
        1 ≤ segment.length ∧ segment.length ≤ 329 ∧ frame = flagged segment) ∧
    answers Stored.call .fresh calls = answers Accumulator.call .hunting calls ∧
    finalState Accumulator.call .hunting (calls ++ [.push flag]) = .collecting [] ∧
    (finalState Stored.call .fresh (calls ++ [.push flag])).seen = (true, [flag]) ∧
    ∀ more, answers Stored.call (finalState Stored.call .fresh (calls ++ [.push flag])) more =
      answers Stored.call (finalState Stored.call .fresh [.push flag]) more := by
  refine ⟨fun i frame => ?_, (Stored.answers_fresh calls).1, Accumulator.finalState_flag calls,
    Stored.shows_of_flag calls, fun more => ?_⟩
  · rw [getElem?_answers, Option.map_eq_some_iff]
    have before := Accumulator.follows_finalState (calls.take i)
    constructor
    · intro h
      obtain ⟨c, here, answered⟩ := h
      obtain ⟨rfl, handed⟩ := before.call_eq_some_iff.mp answered
      exact ⟨here, handed⟩
    · intro h
      obtain ⟨here, handed⟩ := h
      exact ⟨_, here, before.call_eq_some_iff.mpr ⟨rfl, handed⟩⟩
  · have here := answers_eq Stored.Shows Stored.Shows.call (Stored.shows_of_flag calls) more
    have first := answers_eq Stored.Shows Stored.Shows.call (Stored.shows_of_flag []) more
    exact here.1.trans first.1.symm

end SatLink.Uplink
