import SatLink.Proofs.Frame.BitErrors
import SatLink.Proofs.Uplink.RoundTrip

/-!
# Wrong bits on the way up

The bits of a frame arrive stuffed, so a wrong bit need not stay in its byte. Where it stands
between two zeros it does: the frame that comes out has the same bits wrong, and as long as they lie
in few bytes of the information field, that field is corrected.

* `infoPosition` — where a bit of the information field stands in the stuffed frame;
* `Scattered` — wrong bits of the information field that stand apart and lie in few bytes;
* `repairable_flipBits` — a frame with such bits wrong can be repaired;
* `scattered_bits_repaired` — and its commands arrive, from either end of any configuration.
-/

namespace SatLink.Uplink

open SatLink.Bit (bitsOf bitsOf_append length_bitsOf)
open SatLink.Frame
open SatLink.ReedSolomon (isCodeword isCodeword_encode)

/-! ## 1. Wrong bits of the information field -/

/-- Where a bit of the information field stands in the stuffed frame: seventeen bytes of the body
    come before the field. -/
def infoPosition (frame : List UInt8) (i : Nat) : Nat := stuffedPosition frame (8 * 17 + i)

/-- The bytes of the information field that have a wrong bit. -/
def hitBytes (frame : List UInt8) (hit : Nat → Bool) : List Nat :=
  (List.range infoLength).filter fun k =>
    (List.range 8).any fun j => hit (infoPosition frame (8 * k + j))

/-- Wrong bits of a stuffed frame that stand between two zeros each, no two of them side by side,
    all of the information field and in at most sixteen of its bytes. -/
structure Scattered (stuffed frame : List UInt8) (hit : Nat → Bool) : Prop where
  before : ∀ p, hit p = true → 0 < p ∧ (bitsOf stuffed)[p - 1]? = some false
  behind : ∀ p, hit p = true → (bitsOf stuffed)[p + 1]? = some false
  apart : ∀ p, hit p = true → hit (p + 1) = false
  onInfo : ∀ p, hit p = true → ∃ i < 8 * infoLength, p = infoPosition frame i
  few : (hitBytes frame hit).length ≤ 16

section

variable {header : Header} {control : Sequence} {info : Block infoLength} {frame : List UInt8}
  {hit : Nat → Bool}

/-- In the body the information field stands behind seventeen bytes and before two. -/
theorem body_infoFrame_eq_append (header : Header) (control : Sequence) (info : Block infoLength) :
    ∃ front back : List UInt8, front.length = 17 ∧ back.length = 2 ∧
      body (infoFrame header control info) = front ++ (info.bytes ++ back) := by
  refine ⟨header.toBytes ++ (control.toBytes ++ [protocolId]),
    Fcs.toBytes (Fcs.checksum (header.toBytes ++ (control.toBytes ++ protocolId :: info.bytes))),
    by simp [Sequence.toBytes], rfl, ?_⟩
  rw [infoFrame, body_sealed]
  simp

theorem length_body_infoFrame (header : Header) (control : Sequence) (info : Block infoLength) :
    (body (infoFrame header control info)).length = 274 := by
  obtain ⟨front, back, hfront, hback, parts⟩ := body_infoFrame_eq_append header control info
  rw [parts, List.length_append, List.length_append, hfront, hback, info.length_eq]
  rfl

theorem infoPosition_injOn {i j : Nat} (hi : i < 8 * infoLength) (hj : j < 8 * infoLength)
    (e : infoPosition (infoFrame header control info) i =
      infoPosition (infoFrame header control info) j) : i = j := by
  have len := length_body_infoFrame header control info
  have hi' : i < 8 * 255 := hi
  have hj' : j < 8 * 255 := hj
  exact Nat.add_left_cancel (stuffedPosition_injOn (by omega) (by omega) e)

/-- No more bytes have a wrong bit than there are wrong bits. -/
theorem length_hitBytes_le {places : List Nat} (inside : ∀ i ∈ places, i < 8 * infoLength)
    (only : ∀ p, hit p = true →
      ∃ i ∈ places, p = infoPosition (infoFrame header control info) i) :
    (hitBytes (infoFrame header control info) hit).length ≤ places.length := by
  have theirs : hitBytes (infoFrame header control info) hit ⊆ places.map (· / 8) := by
    intro k mem
    obtain ⟨hk, any⟩ := List.mem_filter.mp mem
    obtain ⟨j, hj, isHit⟩ := List.any_eq_true.mp any
    have hk' := List.mem_range.mp hk
    have hj' := List.mem_range.mp hj
    obtain ⟨i, hi, e⟩ := only _ isHit
    have here : 8 * k + j = i := infoPosition_injOn (by omega) (inside i hi) e
    exact List.mem_map.mpr ⟨i, hi, by omega⟩
  have distinct : (hitBytes (infoFrame header control info) hit).Nodup :=
    List.nodup_range.filter _
  exact (List.subperm_of_subset distinct theirs).length_le.trans_eq (List.length_map _)

/-- **At its position stands the bit of the information field.** -/
theorem getElem?_infoPosition {i : Nat} (inside : i < 8 * infoLength) :
    (bitsOf (flagged (stuffedBody (infoFrame header control info))))[
        infoPosition (infoFrame header control info) i]? = (bitsOf info.bytes)[i]? := by
  obtain ⟨front, back, hfront, hback, parts⟩ := body_infoFrame_eq_append header control info
  have len := length_body_infoFrame header control info
  have inside' : i < 8 * 255 := inside
  rw [infoPosition, getElem?_stuffedPosition (by omega), parts, bitsOf_append, bitsOf_append,
    List.getElem?_append_right (by rw [length_bitsOf, hfront]; omega), length_bitsOf, hfront,
    Nat.add_sub_cancel_left, List.getElem?_append_left (by rwa [length_bitsOf, info.length_eq])]

/-! ## 2. What comes of them -/

/-- A byte that comes out wrong is one of the information field, and one of its bits was hit. -/
theorem mem_hitBytes_of_mem_differences (flags : hasFlags frame = true)
    (len : (body frame).length = 274)
    (onInfo : ∀ p, hit p = true → ∃ i < 8 * infoLength, p = infoPosition frame i) {k : Nat}
    (differ : k ∈ differences
      (flagged (flipBits (fun j => hit (stuffedPosition frame j)) (body frame))) frame) :
    18 ≤ k ∧ k < 18 + infoLength ∧ k - 18 ∈ hitBytes frame hit := by
  have whole : frame = [flag] ++ (body frame ++ [flag]) := (flagged_body flags).symm
  have same := length_flipBits (fun j => hit (stuffedPosition frame j)) (body frame)
  rw [show differences _ frame = differences _ _ from congrArg _ whole] at differ
  obtain ⟨behind, differ⟩ := (mem_differences_append (p := [flag]) (s := [flag]) same).mp differ
  obtain ⟨j, hj, isHit⟩ := exists_hit_of_ne (mem_differences.mp differ)
  have inside := lt_of_mem_differences differ
  rw [same, Nat.max_self, len, List.length_singleton] at inside
  rw [List.length_singleton] at behind isHit
  -- the bit that was hit is one of the information field, so the byte is one, too
  obtain ⟨i, hi, e⟩ := onInfo _ isHit
  have hi' : i < 8 * 255 := hi
  have place : 8 * (k - 1) + j = 8 * 17 + i := stuffedPosition_injOn (by omega) (by omega) e
  have bound : k < 18 + 255 := by omega
  refine ⟨by omega, bound, List.mem_filter.mpr ⟨List.mem_range.mpr ?_, List.any_eq_true.mpr
    ⟨j, List.mem_range.mpr hj, ?_⟩⟩⟩
  · show k - 18 < 255
    omega
  · rw [infoPosition, show 8 * 17 + (8 * (k - 18) + j) = 8 * (k - 1) + j by omega]
    exact isHit

/-- **A frame with scattered bits wrong can be repaired.** -/
theorem repairable_flipBits (codeword : isCodeword info = true) (send : control.send ≤ 127)
    (receive : control.receive ≤ 127)
    (scattered : Scattered (flagged (stuffedBody (infoFrame header control info)))
      (infoFrame header control info) hit) :
    ∃ frame, unstuffFrame (flipBits hit (flagged (stuffedBody (infoFrame header control info)))) =
      .ok frame ∧ Repairable frame header control info := by
  have flags := hasFlags_infoFrame header control info
  have len := length_body_infoFrame header control info
  have short : (infoFrame header control info).length ≤ maxLength := by
    rw [length_infoFrame]
    decide
  have wrong (k : Nat) := mem_hitBytes_of_mem_differences (k := k) flags len scattered.onInfo
  refine ⟨_, unstuffFrame_flipBits flags short ?_ ?_ scattered.behind scattered.apart,
    codeword, send, receive, ?_, ?_⟩
  · intro p isHit
    obtain ⟨i, hi, rfl⟩ := scattered.onInfo p isHit
    have hi' : i < 8 * 255 := hi
    exact ⟨8 * 17 + i, by omega, rfl⟩
  · intro p isHit
    exact (scattered.before (p + 1) isHit).2
  · refine Nat.le_trans ?_ scattered.few
    rw [← List.length_map (f := (· - 18))]
    refine (List.subperm_of_subset (List.Nodup.map_on ?_ (nodup_differences _ _)) ?_).length_le
    · intro k hk l hl e
      have := (wrong k hk).1
      have := (wrong l hl).1
      omega
    · intro k hk
      obtain ⟨l, hl, rfl⟩ := List.mem_map.mp hk
      exact (wrong l hl).2.2
  · intro k hk
    exact ⟨(wrong k hk).1, (wrong k hk).2.1⟩

end

/-! ## 3. Commands -/

/-- **Scattered wrong bits do no harm.** Commands that fit are encoded, whatever the counter, and of
    their frame with scattered bits wrong the other station still makes these commands. -/
theorem scattered_bits_repaired {c : Config} {station : Station} {sender receiver : Flow}
    (hsender : Flow.ofConfig c station = .ok sender)
    (hreceiver : Flow.ofConfig c station.peer = .ok receiver) {commands : List Command}
    (fits : Command.totalLength commands ≤ c.cipher.capacity) (iv : Block 16) :
    ∃ stuffed frame, sender.encodeCommands commands iv = .ok stuffed ∧
      unstuffFrame stuffed = .ok frame ∧
      ∀ hit, Scattered stuffed frame hit →
        receiver.decodePacket (flipBits hit stuffed) = .ok (.commands commands) := by
  obtain ⟨same, hears⟩ := Flow.hears_of_ofConfig hsender hreceiver
  rw [← same] at fits
  have packed : (Command.packedAll commands).length ≤ sender.capacity := by
    rw [Command.length_packedAll]
    exact fits
  obtain ⟨_, sent, -⟩ := hears.decodePacket_commands fits iv
  obtain ⟨-, block, shut, rfl⟩ := Flow.exists_block_of_encodeCommands sent
  obtain ⟨_, shut', opened⟩ := Cipher.Context.openBlock_sealBlock iv packed
  cases shut.symm.trans shut'
  have short : (infoFrame sender.addresses.header {} (ReedSolomon.encode block)).length ≤
      maxLength := by
    rw [length_infoFrame]
    decide
  refine ⟨_, _, sent, unstuffFrame_stuffed (hasFlags_infoFrame ..) short, ?_⟩
  intro hit scattered
  obtain ⟨frame, arrives, near⟩ :=
    repairable_flipBits (isCodeword_encode block) (by decide) (by decide) scattered
  have taken := deframe_of_unstuffFrame arrives
  rw [receive_corrected_eq_data_iff.mpr near] at taken
  rw [hears.decodePacket_of_deframe taken opened, Cipher.Context.pad, Command.unpackList_packedAll]
  rfl

/-- Under the standard settings, in front of a counter of zeros and up to its end no bit is
    put in. -/
theorem standard_counter {ground : Flow} {text : List UInt8} {block : ReedSolomon.Message}
    (hground : Flow.ofConfig .standard .groundStation = .ok ground)
    (shut : ground.cipher.sealBlock text (Block.zero 16) = .ok block) :
    let frame := infoFrame ground.addresses.header {} (ReedSolomon.encode block)
    (∀ i ≤ 128, infoPosition frame i = 144 + i) ∧
      ∀ i < 128, (bitsOf (flagged (stuffedBody frame)))[144 + i]? = some false := by
  intro frame
  -- the first 33 bytes of the body: addresses, control field, protocol id and counter
  let front : List UInt8 :=
    [130, 150, 146, 168, 158, 64, 96, 130, 168, 152, 130, 166, 64, 97, 0, 0, 0xF0] ++
      List.replicate 16 0
  have addresses : ground.addresses.header.toBytes =
      [130, 150, 146, 168, 158, 64, 96, 130, 168, 152, 130, 166, 64, 97] := by
    have all : (Flow.ofConfig .standard .groundStation).map (·.addresses.header.toBytes) = .ok
        [130, 150, 146, 168, 158, 64, 96, 130, 168, 152, 130, 166, 64, 97] := by decide +kernel
    rw [hground] at all
    exact Except.ok.inj all
  obtain ⟨rest, counter⟩ := Cipher.Context.exists_append_of_sealBlock shut
  have info : (ReedSolomon.encode block).bytes =
      List.replicate 16 0 ++ (rest ++ ReedSolomon.parity block.bytes) := by
    rw [← List.append_assoc]
    exact congrArg (· ++ ReedSolomon.parity block.bytes) counter
  obtain ⟨back, parts⟩ : ∃ back, body frame = front ++ back := by
    rw [show frame = infoFrame _ _ _ from rfl, infoFrame, body_sealed, addresses, info]
    exact ⟨_, rfl⟩
  have place : ∀ i ≤ 128, infoPosition frame i = 144 + i := by
    intro i hi
    have count : ∀ i : Fin 129,
        8 + stuffedCount 0 ((bitsOf front).take (8 * 17 + i)) = 144 + i := by
      decide +kernel
    rw [infoPosition, stuffedPosition_eq parts (show 8 * 17 + i ≤ 8 * 33 by omega)]
    exact count ⟨i, by omega⟩
  refine ⟨place, ?_⟩
  intro i hi
  have zeros : ∀ i : Fin 128, (bitsOf (List.replicate 16 0))[i.val]? = some false := by
    decide +kernel
  rw [← place i (by omega), getElem?_infoPosition (show i < 8 * 255 by omega), info, bitsOf_append,
    List.getElem?_append_left (by rw [length_bitsOf]; exact hi)]
  exact zeros ⟨i, hi⟩

/-- Three wrong bits of the counter of a ping, two of them with a single zero in between. -/
theorem scattered_bits_of_counter_repaired :
    let commands := [Command.immediate .ping]
    let hit : Nat → Bool := fun p => p == 150 || p == 152 || p == 200
    ∃ ground satellite stuffed frame,
      Flow.ofConfig .standard .groundStation = .ok ground ∧
      Flow.ofConfig .standard .cubesat = .ok satellite ∧
      Command.totalLength commands ≤ Config.standard.cipher.capacity ∧
      ground.encodeCommands commands (Block.zero 16) = .ok stuffed ∧
      unstuffFrame stuffed = .ok frame ∧ Scattered stuffed frame hit ∧
      satellite.decodePacket (flipBits hit stuffed) = .ok (.commands commands) := by
  intro commands hit
  obtain ⟨ground, satellite, hground, hsatellite, -⟩ :=
    Flow.exists_hears (c := .standard) (by decide +kernel)
  have fits : Command.totalLength commands ≤ Config.standard.cipher.capacity := by decide
  obtain ⟨stuffed, frame, sent, plain, harmless⟩ :=
    scattered_bits_repaired hground hsatellite fits (Block.zero 16)
  refine ⟨ground, satellite, stuffed, frame, hground, hsatellite, fits, sent, plain, ?_⟩
  suffices scattered : Scattered stuffed frame hit from ⟨scattered, harmless hit scattered⟩
  obtain ⟨-, block, shut, rfl⟩ := Flow.exists_block_of_encodeCommands sent
  cases (unstuffFrame_stuffed (hasFlags_infoFrame ..)
    (by rw [length_infoFrame]; decide)).symm.trans plain
  obtain ⟨place, zero⟩ := standard_counter hground shut
  have which {p : Nat} (isHit : hit p = true) : p = 150 ∨ p = 152 ∨ p = 200 := by
    simpa [hit, or_assoc] using isHit
  have only : ∀ p, hit p = true → ∃ i ∈ [6, 8, 56],
      p = infoPosition (infoFrame ground.addresses.header {} (ReedSolomon.encode block)) i := by
    intro p isHit
    rcases which isHit with rfl | rfl | rfl
    · exact ⟨6, by decide, (place 6 (by decide)).symm⟩
    · exact ⟨8, by decide, (place 8 (by decide)).symm⟩
    · exact ⟨56, by decide, (place 56 (by decide)).symm⟩
  have inside : ∀ i ∈ [6, 8, 56], i < 8 * infoLength := by decide
  refine ⟨?_, ?_, ?_, ?_, (length_hitBytes_le inside only).trans (by decide)⟩
  · intro p isHit
    rcases which isHit with rfl | rfl | rfl
    · exact ⟨by decide, zero 5 (by decide)⟩
    · exact ⟨by decide, zero 7 (by decide)⟩
    · exact ⟨by decide, zero 55 (by decide)⟩
  · intro p isHit
    rcases which isHit with rfl | rfl | rfl
    · exact zero 7 (by decide)
    · exact zero 9 (by decide)
    · exact zero 57 (by decide)
  · intro p isHit
    rcases which isHit with rfl | rfl | rfl <;> decide
  · intro p isHit
    obtain ⟨i, mem, e⟩ := only p isHit
    exact ⟨i, inside i mem, e⟩

end SatLink.Uplink
