import SatLink.Proofs.Uplink.Accumulator

/-!
# Timeouts that come late

Bytes arrive, and generations of timers whose time is up, in any order. A timer that was stopped or
replaced may still be heard of, at any later moment and more than once; so nothing is asked of the
generations that arrive.

* `Arrival`, `Decoder.behind` — what arrives, and the decoder behind it;
* `InProgress` — the frame that is in progress and the moment it began at, told by the arrivals
  alone: it begins behind a flag, goes on while there is room, and outlives the timeouts of
  other timers;
* `Starts` — the moments at which a timer of a generation is started;
* `Tracks` — the invariant: what is collected is the frame in progress, and the generation is that
  of its timer;
* `expire_drops_iff` — **a timeout drops a frame exactly when it is that of the frame's own timer**,
  and otherwise changes nothing.
-/

namespace SatLink.Uplink

open SatLink.Frame (flag maxLength)

/-! ## 1. Arrivals -/

/-- What arrives at a decoder. -/
inductive Arrival where
  | byte (b : UInt8)
  | timeout (generation : Nat)
  deriving DecidableEq

/-- What has arrived up to a moment, the latest first. -/
abbrev Past := List Arrival

/-- The last byte that arrived is a flag. -/
def AtFlag : Past → Prop
  | [] => False
  | .byte b :: _ => b = flag
  | .timeout _ :: past => AtFlag past

namespace Decoder

/-- Takes what arrives. -/
def take (flagTimeout : Nat) (d : Decoder) : Arrival → Decoder
  | .byte b => (d.push flagTimeout b).2
  | .timeout generation => d.expire generation

/-- The decoder behind what has arrived. -/
def behind (flagTimeout : Nat) : Past → Decoder
  | [] => .initial
  | arrival :: past => (behind flagTimeout past).take flagTimeout arrival

/-! ## 2. One arrival -/

variable (d : Decoder) (flagTimeout : Nat)

/-- **What a byte does to the timer**: nothing, or it stops it, or it starts a new one; in the
    latter two cases the generation rises. -/
theorem push_timer (b : UInt8) :
    ((d.push flagTimeout b).2.timer = d.timer ∧
        (d.push flagTimeout b).2.generation = d.generation) ∨
      ((d.push flagTimeout b).2.timer = .finished ∧
        (d.push flagTimeout b).2.generation = d.generation + 1) ∨
      ((d.push flagTimeout b).2.timer = Timer.start flagTimeout (d.generation + 1) ∧
        (d.push flagTimeout b).2.generation = d.generation + 1) := by
  unfold push
  split
  · exact .inr (.inl ⟨rfl, rfl⟩)
  · split
    · exact .inr (.inr ⟨rfl, rfl⟩)
    · exact .inl ⟨rfl, rfl⟩

variable {d}

/-- The first byte behind a flag starts a timer. -/
theorem push_first (idle : d.accumulator = .collecting []) {b : UInt8} (other : b ≠ flag) :
    (d.push flagTimeout b).2 =
      ⟨.collecting [b], d.generation + 1, Timer.start flagTimeout (d.generation + 1)⟩ := by
  have room : Accumulator.fits [] = true := by decide
  unfold push
  rw [idle, Accumulator.push_collecting other, if_pos room]
  rfl

/-- A further byte leaves the timer alone, also where it does not fit. -/
theorem push_further {body : List UInt8} (filled : body ≠ [])
    (collecting : d.accumulator = .collecting body) {b : UInt8} (other : b ≠ flag) :
    (d.push flagTimeout b).2 = { d with
      accumulator := if Accumulator.fits body then .collecting (body ++ [b]) else .hunting } := by
  unfold push
  rw [collecting, Accumulator.push_collecting other]
  dsimp only
  rw [Accumulator.isMidFrame_collecting filled]
  rfl

/-- Noise changes nothing. -/
theorem push_noise (hunting : d.accumulator = .hunting) {b : UInt8} (other : b ≠ flag) :
    (d.push flagTimeout b).2 = d := by
  unfold push
  rw [hunting, Accumulator.push_hunting other]
  show { d with accumulator := .hunting } = d
  rw [← hunting]

theorem expire_of_mid (mid : d.accumulator.isMidFrame = true) :
    d.expire d.generation = { d with accumulator := .hunting, timer := .finished } :=
  if_pos ⟨rfl, mid⟩

theorem expire_of_ne {generation : Nat} (other : generation ≠ d.generation) :
    d.expire generation = d :=
  if_neg fun same => other same.1

theorem expire_between (between : d.accumulator.isMidFrame = false) (generation : Nat) :
    d.expire generation = d :=
  if_neg fun same => Bool.false_ne_true (between.symm.trans same.2)

end Decoder

/-! ## 3. The frame in progress and its timer -/

section

variable (flagTimeout : Nat)

/-- At this moment a timer of a generation was started: the latest arrival is a byte, and behind it
    there is a new timer. -/
def Starts (generation : Nat) : Past → Prop
  | .byte b :: before =>
      (Decoder.behind flagTimeout (.byte b :: before)).timer = Timer.start flagTimeout generation ∧
        (Decoder.behind flagTimeout (.byte b :: before)).timer ≠
          (Decoder.behind flagTimeout before).timer
  | _ => False

/-- The frame in progress, the moment it began at and its bytes. -/
inductive InProgress : Past → Past → List UInt8 → Prop where
  /-- It begins with a byte behind a flag. -/
  | begins {before : Past} {b : UInt8} (opened : AtFlag before) (other : b ≠ flag) :
      InProgress (.byte b :: before) (.byte b :: before) [b]
  /-- It goes on with any byte but a flag, while there is room. -/
  | goesOn {past moment : Past} {body : List UInt8} {b : UInt8} (so : InProgress past moment body)
      (other : b ≠ flag) (room : body.length + 1 < maxLength) :
      InProgress (.byte b :: past) moment (body ++ [b])
  /-- It outlives the timeouts of timers that were not started for it. -/
  | outlives {past moment : Past} {body : List UInt8} {generation : Nat}
      (so : InProgress past moment body) (foreign : ¬ Starts flagTimeout generation moment) :
      InProgress (.timeout generation :: past) moment body

namespace InProgress

variable {flagTimeout : Nat} {past moment moment' : Past} {body body' : List UInt8}

theorem ne_nil (h : InProgress flagTimeout past moment body) : body ≠ [] := by
  induction h with
  | begins => exact List.cons_ne_nil _ _
  | goesOn => exact List.append_ne_nil_of_right_ne_nil _ (List.cons_ne_nil _ _)
  | outlives _ _ ih => exact ih

theorem not_atFlag (h : InProgress flagTimeout past moment body) : ¬ AtFlag past := by
  induction h with
  | begins _ other => exact other
  | goesOn _ other => exact other
  | outlives _ _ ih => exact ih

/-- It began at a moment that has been. -/
theorem suffix (h : InProgress flagTimeout past moment body) : moment <:+ past := by
  induction h with
  | begins => exact List.suffix_refl _
  | goesOn _ _ _ ih => exact ih.trans (List.suffix_cons _ _)
  | outlives _ _ ih => exact ih.trans (List.suffix_cons _ _)

/-- There is only one. -/
theorem unique (h : InProgress flagTimeout past moment body)
    (h' : InProgress flagTimeout past moment' body') : moment = moment' ∧ body = body' := by
  induction h generalizing moment' body' with
  | begins opened =>
      cases h' with
      | begins => exact ⟨rfl, rfl⟩
      | goesOn so => exact absurd opened so.not_atFlag
  | goesOn so _ _ ih =>
      cases h' with
      | begins opened => exact absurd opened so.not_atFlag
      | goesOn so' =>
          obtain ⟨rfl, rfl⟩ := ih so'
          exact ⟨rfl, rfl⟩
  | outlives _ _ ih =>
      cases h' with
      | outlives so' => exact ih so'

end InProgress

end

section

variable {flagTimeout generation generation' : Nat} {past moment moment' : Past}

theorem Starts.unique (h : Starts flagTimeout generation moment)
    (h' : Starts flagTimeout generation' moment) : generation = generation' := by
  cases moment with
  | nil => exact h.elim
  | cons arrival before =>
      cases arrival with
      | timeout => exact h.elim
      | byte b => exact (Timer.running.inj (h.1.symm.trans h'.1)).2

/-- **A new timer has the next generation.** -/
theorem Starts.generation_eq {b : UInt8} {before : Past}
    (h : Starts flagTimeout generation (.byte b :: before)) :
    generation = (Decoder.behind flagTimeout before).generation + 1 ∧
      (Decoder.behind flagTimeout (.byte b :: before)).generation = generation := by
  obtain ⟨running, fresh⟩ := h
  rcases Decoder.push_timer (Decoder.behind flagTimeout before) flagTimeout b with
    ⟨same, -⟩ | ⟨stopped, -⟩ | ⟨started, next⟩
  · exact absurd same fresh
  · cases running.symm.trans stopped
  · have eq : generation = _ := (Timer.running.inj (running.symm.trans started)).2
    exact ⟨eq, next.trans eq.symm⟩

end

/-! ## 4. Generations -/

section

variable (flagTimeout : Nat)

theorem generation_expire (d : Decoder) (generation : Nat) :
    (d.expire generation).generation = d.generation := by
  unfold Decoder.expire
  split <;> rfl

/-- An arrival raises the generation by one at most. -/
theorem generation_behind_cons (arrival : Arrival) (past : Past) :
    (Decoder.behind flagTimeout past).generation ≤
        (Decoder.behind flagTimeout (arrival :: past)).generation ∧
      (Decoder.behind flagTimeout (arrival :: past)).generation ≤
        (Decoder.behind flagTimeout past).generation + 1 := by
  cases arrival with
  | timeout generation =>
      show _ ≤ ((Decoder.behind flagTimeout past).expire generation).generation ∧
        ((Decoder.behind flagTimeout past).expire generation).generation ≤ _
      rw [generation_expire]
      exact ⟨Nat.le_refl _, Nat.le_succ _⟩
  | byte b =>
      rcases Decoder.push_timer (Decoder.behind flagTimeout past) flagTimeout b with
        ⟨-, same⟩ | ⟨-, next⟩ | ⟨-, next⟩
      · exact ⟨Nat.le_of_eq same.symm, Nat.le_succ_of_le (Nat.le_of_eq same)⟩
      · exact ⟨(Nat.le_succ _).trans (Nat.le_of_eq next.symm), Nat.le_of_eq next⟩
      · exact ⟨(Nat.le_succ _).trans (Nat.le_of_eq next.symm), Nat.le_of_eq next⟩

/-- There are no more generations than arrivals. -/
theorem generation_le_length (past : Past) :
    (Decoder.behind flagTimeout past).generation ≤ past.length := by
  induction past with
  | nil => exact Nat.le_refl 0
  | cons arrival past ih =>
      exact (generation_behind_cons flagTimeout arrival past).2.trans (Nat.succ_le_succ ih)

variable {flagTimeout} {generation : Nat} {past moment : Past}

/-- No timer that was started has a later generation than the decoder. -/
theorem Starts.le (h : Starts flagTimeout generation moment) (been : moment <:+ past) :
    generation ≤ (Decoder.behind flagTimeout past).generation := by
  induction past with
  | nil =>
      rw [List.suffix_nil.mp been] at h
      exact h.elim
  | cons arrival past ih =>
      rcases List.suffix_cons_iff.mp been with rfl | earlier
      · cases arrival with
        | timeout => exact h.elim
        | byte b => exact Nat.le_of_eq h.generation_eq.2.symm
      · exact (ih earlier).trans (generation_behind_cons flagTimeout arrival past).1

/-- **No two timers have one generation.** -/
theorem Starts.moment_eq {moment' : Past} (h : Starts flagTimeout generation moment)
    (h' : Starts flagTimeout generation moment') (been : moment <:+ past)
    (been' : moment' <:+ past) :
    moment = moment' := by
  -- the later of the two would have a later generation
  have later {early late : Past} (h : Starts flagTimeout generation early)
      (h' : Starts flagTimeout generation late) (order : early <:+ late) : early = late := by
    cases late with
    | nil => exact h'.elim
    | cons arrival before =>
        rcases List.suffix_cons_iff.mp order with same | earlier
        · exact same
        · cases arrival with
          | timeout => exact h'.elim
          | byte b =>
              have low := h.le earlier
              have high := h'.generation_eq.1
              omega
  rcases List.suffix_or_suffix_of_suffix been been' with order | order
  · exact later h h' order
  · exact (later h' h order).symm

/-- Nor has the timer that runs. -/
theorem running_le {left : Nat} {past : Past}
    (running : (Decoder.behind flagTimeout past).timer = .running left generation) :
    generation ≤ (Decoder.behind flagTimeout past).generation := by
  induction past with
  | nil => cases running
  | cons arrival past ih =>
      have grown := (generation_behind_cons flagTimeout arrival past).1
      cases arrival with
      | timeout generation' =>
          have before : (Decoder.behind flagTimeout past).timer = .running left generation := by
            have after : ((Decoder.behind flagTimeout past).expire generation').timer = _ := running
            unfold Decoder.expire at after
            split at after
            · cases after
            · exact after
          exact (ih before).trans grown
      | byte b =>
          rcases Decoder.push_timer (Decoder.behind flagTimeout past) flagTimeout b with
            ⟨same, -⟩ | ⟨stopped, -⟩ | ⟨started, next⟩
          · exact (ih (same.symm.trans running)).trans grown
          · cases stopped.symm.trans running
          · rw [(Timer.running.inj (running.symm.trans started)).2]
            exact Nat.le_of_eq next.symm

end

/-! ## 5. What is collected -/

section

variable {flagTimeout : Nat} {past : Past}

/-- The first byte behind a flag starts a timer. -/
theorem starts_first (idle : (Decoder.behind flagTimeout past).accumulator = .collecting [])
    {b : UInt8}
    (other : b ≠ flag) :
    Starts flagTimeout ((Decoder.behind flagTimeout past).generation + 1) (.byte b :: past) := by
  have started : (Decoder.behind flagTimeout (.byte b :: past)).timer =
      Timer.start flagTimeout ((Decoder.behind flagTimeout past).generation + 1) :=
    congrArg Decoder.timer (Decoder.push_first flagTimeout idle other)
  refine ⟨started, fun same => ?_⟩
  have low := running_le (same.symm.trans started)
  omega

variable (flagTimeout past)

/-- **What is collected is the frame in progress**, and the generation is that of its timer. -/
def Tracks : Accumulator → Nat → Prop
  | .hunting, _ => ¬ AtFlag past ∧ ∀ moment body, ¬ InProgress flagTimeout past moment body
  | .collecting [], _ => AtFlag past
  | .collecting body, generation =>
      ∃ moment, InProgress flagTimeout past moment body ∧ Starts flagTimeout generation moment

variable {flagTimeout past}

theorem tracks_collecting {body : List UInt8} (filled : body ≠ []) {generation : Nat} :
    Tracks flagTimeout past (.collecting body) generation ↔
      ∃ moment, InProgress flagTimeout past moment body ∧ Starts flagTimeout generation moment := by
  cases body with
  | nil => exact absurd rfl filled
  | cons => exact Iff.rfl

/-- **The invariant over a byte.** -/
theorem tracks_byte (h : Tracks flagTimeout past (Decoder.behind flagTimeout past).accumulator
    (Decoder.behind flagTimeout past).generation) (b : UInt8) :
    Tracks flagTimeout (.byte b :: past) (Decoder.behind flagTimeout (.byte b :: past)).accumulator
      (Decoder.behind flagTimeout (.byte b :: past)).generation := by
  show Tracks _ _ ((Decoder.behind flagTimeout past).push flagTimeout b).2.accumulator
    ((Decoder.behind flagTimeout past).push flagTimeout b).2.generation
  by_cases isFlag : b = flag
  · subst isFlag
    rw [(Decoder.push_eq _ _ _).2, (Accumulator.push_flag _).2]
    exact (rfl : flag = flag)
  cases collected : (Decoder.behind flagTimeout past).accumulator with
  | hunting =>
      rw [collected] at h
      rw [Decoder.push_noise _ collected isFlag, collected]
      refine ⟨isFlag, fun moment body later => ?_⟩
      cases later with
      | begins opened => exact h.1 opened
      | goesOn so => exact h.2 _ _ so
  | collecting body =>
      rw [collected] at h
      by_cases idle : body = []
      · subst idle
        rw [Decoder.push_first _ collected isFlag]
        exact ⟨_, .begins h isFlag, starts_first collected isFlag⟩
      · obtain ⟨moment, so, started⟩ := (tracks_collecting idle).mp h
        rw [Decoder.push_further _ idle collected isFlag]
        dsimp only
        by_cases room : body.length + 1 < maxLength
        · have fits : Accumulator.fits body = true := decide_eq_true room
          have longer : body ++ [b] ≠ [] := (so.goesOn isFlag room).ne_nil
          rw [if_pos fits]
          exact (tracks_collecting longer).mpr ⟨moment, so.goesOn isFlag room, started⟩
        · -- the byte does not fit, and a frame that it belongs to would be this one
          have full : ¬ Accumulator.fits body = true := fun fits => room (of_decide_eq_true fits)
          rw [if_neg full]
          refine ⟨isFlag, fun moment' body' later => ?_⟩
          cases later with
          | begins opened => exact so.not_atFlag opened
          | goesOn so' _ room' =>
              obtain ⟨-, rfl⟩ := so.unique so'
              exact room room'

/-- **The invariant over a timeout.** -/
theorem tracks_timeout (h : Tracks flagTimeout past (Decoder.behind flagTimeout past).accumulator
    (Decoder.behind flagTimeout past).generation) (generation : Nat) :
    Tracks flagTimeout (.timeout generation :: past)
      (Decoder.behind flagTimeout (.timeout generation :: past)).accumulator
      (Decoder.behind flagTimeout (.timeout generation :: past)).generation := by
  show Tracks _ _ ((Decoder.behind flagTimeout past).expire generation).accumulator
    ((Decoder.behind flagTimeout past).expire generation).generation
  cases collected : (Decoder.behind flagTimeout past).accumulator with
  | hunting =>
      have between : (Decoder.behind flagTimeout past).accumulator.isMidFrame = false := by
        rw [collected]
        rfl
      rw [collected] at h
      rw [Decoder.expire_between between, collected]
      refine ⟨h.1, fun moment body later => ?_⟩
      cases later with
      | outlives so => exact h.2 _ _ so
  | collecting body =>
      rw [collected] at h
      by_cases idle : body = []
      · subst idle
        have between : (Decoder.behind flagTimeout past).accumulator.isMidFrame = false := by
          rw [collected]
          rfl
        rw [Decoder.expire_between between, collected]
        exact h
      · obtain ⟨moment, so, started⟩ := (tracks_collecting idle).mp h
        by_cases own : generation = (Decoder.behind flagTimeout past).generation
        · have mid : (Decoder.behind flagTimeout past).accumulator.isMidFrame = true := by
            rw [collected, Accumulator.isMidFrame_collecting idle]
          subst own
          rw [Decoder.expire_of_mid mid]
          refine ⟨so.not_atFlag, fun moment' body' later => ?_⟩
          cases later with
          | outlives so' foreign =>
              obtain ⟨rfl, -⟩ := so.unique so'
              exact foreign started
        · rw [Decoder.expire_of_ne own, collected]
          exact (tracks_collecting idle).mpr
            ⟨moment, so.outlives fun other => own (other.unique started), started⟩

end

/-- **The invariant behind any arrivals.** -/
theorem tracks (flagTimeout : Nat) (past : Past) :
    Tracks flagTimeout past (Decoder.behind flagTimeout past).accumulator
      (Decoder.behind flagTimeout past).generation := by
  induction past with
  | nil =>
      refine ⟨not_false, fun moment body so => ?_⟩
      cases so
  | cons arrival past ih =>
      cases arrival with
      | byte b => exact tracks_byte ih b
      | timeout generation => exact tracks_timeout ih generation

/-- What is in progress is collected, and its timer was started when it began. -/
theorem InProgress.collected {flagTimeout : Nat} {past moment : Past} {body : List UInt8}
    (so : InProgress flagTimeout past moment body) :
    (Decoder.behind flagTimeout past).accumulator = .collecting body ∧
      Starts flagTimeout (Decoder.behind flagTimeout past).generation moment := by
  have h := tracks flagTimeout past
  cases collected : (Decoder.behind flagTimeout past).accumulator with
  | hunting =>
      rw [collected] at h
      exact absurd so (h.2 _ _)
  | collecting body' =>
      rw [collected] at h
      by_cases idle : body' = []
      · subst idle
        exact absurd h so.not_atFlag
      · obtain ⟨moment', so', started⟩ := (tracks_collecting idle).mp h
        obtain ⟨rfl, rfl⟩ := so.unique so'
        exact ⟨rfl, started⟩

/-- Where something is collected, it is in progress. -/
theorem exists_inProgress {flagTimeout : Nat} {past : Past}
    (mid : (Decoder.behind flagTimeout past).accumulator.isMidFrame = true) :
    ∃ moment body, InProgress flagTimeout past moment body := by
  have h := tracks flagTimeout past
  cases collected : (Decoder.behind flagTimeout past).accumulator with
  | hunting =>
      rw [collected] at mid
      cases mid
  | collecting body =>
      rw [collected] at h mid
      have filled : body ≠ [] := by
        rintro rfl
        cases mid
      obtain ⟨moment, so, -⟩ := (tracks_collecting filled).mp h
      exact ⟨moment, body, so⟩

theorem InProgress.isMidFrame {flagTimeout : Nat} {past moment : Past} {body : List UInt8}
    (so : InProgress flagTimeout past moment body) :
    (Decoder.behind flagTimeout past).accumulator.isMidFrame = true := by
  rw [so.collected.1, Accumulator.isMidFrame_collecting so.ne_nil]

/-! ## 6. Timeouts -/

/-- **A timeout drops a frame exactly when it is that of the frame's own timer**, over any order of
    bytes and timeouts, however late and however often a timer that was stopped or replaced is heard
    of. A frame is in progress exactly when the decoder is amid one, and then its bytes are
    collected, and the timer that was started as it began has the generation of the decoder. Every
    other timeout changes nothing at all; so does the late timeout of any earlier frame, because no
    two timers have one generation. And there are no more generations than arrivals, so that a
    counter of 64 bits outlasts all but 2^64 of them. -/
theorem expire_drops_iff (flagTimeout : Nat) (past : Past) (generation : Nat) :
    let d := Decoder.behind flagTimeout past
    (d.accumulator.isMidFrame = true ∧ (d.expire generation).accumulator = .hunting ↔
      ∃ moment body, InProgress flagTimeout past moment body ∧
        Starts flagTimeout generation moment) ∧
    ((∃ moment body, InProgress flagTimeout past moment body ∧
        Starts flagTimeout generation moment) ∨ d.expire generation = d) ∧
    (d.accumulator.isMidFrame = true ↔ ∃ moment body, InProgress flagTimeout past moment body) ∧
    (∀ moment body, InProgress flagTimeout past moment body →
      d.accumulator = .collecting body ∧ moment <:+ past ∧ Starts flagTimeout d.generation moment ∧
      ∀ earlier, earlier <:+ past → earlier ≠ moment → Starts flagTimeout generation earlier →
        d.expire generation = d) ∧
    d.generation ≤ past.length := by
  intro d
  refine ⟨⟨fun dropped => ?_, fun own => ?_⟩, ?_, ⟨exists_inProgress, fun so => ?_⟩,
    fun moment body so => ⟨so.collected.1, so.suffix, so.collected.2,
      fun earlier been other started => ?_⟩, generation_le_length flagTimeout past⟩
  · obtain ⟨mid, gone⟩ := dropped
    obtain ⟨moment, body, so⟩ := exists_inProgress mid
    refine ⟨moment, body, so, ?_⟩
    by_cases own : generation = d.generation
    · rw [own]
      exact so.collected.2
    · rw [Decoder.expire_of_ne own] at gone
      exact absurd (so.collected.1.symm.trans gone) nofun
  · obtain ⟨moment, body, so, started⟩ := own
    refine ⟨so.isMidFrame, ?_⟩
    rw [started.unique so.collected.2, Decoder.expire_of_mid so.isMidFrame]
  · by_cases mid : d.accumulator.isMidFrame = true
    · obtain ⟨moment, body, so⟩ := exists_inProgress mid
      by_cases own : generation = d.generation
      · rw [own]
        exact .inl ⟨moment, body, so, so.collected.2⟩
      · exact .inr (Decoder.expire_of_ne own)
    · exact .inr (Decoder.expire_between (Bool.eq_false_iff.mpr mid) generation)
  · obtain ⟨moment, body, so⟩ := so
    exact so.isMidFrame
  · -- were it the generation of the decoder, the two timers would be one
    apply Decoder.expire_of_ne
    rintro rfl
    exact other (started.moment_eq so.collected.2 been so.suffix)

/-- The timer of a frame that is closed goes off amid the next frame, and then that frame's own. -/
example :
    let past := [.timeout 1, .byte 2, .byte flag, .byte 1, .byte flag]
    (Decoder.behind 5 past).accumulator = .collecting [2] ∧
      (Decoder.behind 5 (.timeout 3 :: past)).accumulator = .hunting := by
  decide

end SatLink.Uplink
