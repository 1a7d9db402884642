import SatLink.Frame.Layout
import SatLink.Proofs.Byte
import SatLink.Proofs.Frame.Stuffing
import SatLink.Proofs.Wire

/-!
# What a frame is read as

Reading a frame undoes building it, and accepts nothing else. The fields are taken apart in the
order they stand in, each with the two halves that the whole needs: the bytes a field is written as
are read back, and bytes that are read as a field are those it is written as.

* `receive_eq_data_iff` — an information frame is read exactly from the frame that is built of it,
  for sequence numbers of seven bits;
* `receive_eq_control_iff` — the same of an unnumbered frame;
* `receive_eq_ok_iff` — both together, for any bytes at all.
-/

namespace SatLink.Frame

/-! ## 1. Control bytes -/

@[simp] theorem Control.ofControl_controlByte (c : Control) (p : Bool) :
    FrameType.ofControl (c.controlByte p) = .unnumbered := by
  cases c <;> cases p <;> rfl

/-- There are six control bytes, and each is read as what it is written for. -/
theorem Control.ofControl?_eq_some_iff {b : UInt8} {c : Control} {p : Bool} :
    ofControl? b = some (c, p) ↔ b = c.controlByte p := by
  constructor
  · intro read
    have code : b &&& ~~~pollFinalBit = c.code ∧ (b &&& pollFinalBit != 0) = p := by
      unfold ofControl? at read
      dsimp only at read
      split_ifs at read with conn disc ack <;> cases read
      · exact ⟨conn, rfl⟩
      · exact ⟨disc, rfl⟩
      · exact ⟨ack, rfl⟩
    have single : pollFinalBit.toNat = 2 ^ 4 := rfl
    rw [controlByte, ← code.1, ← code.2, ← and_eq_ite single b, and_not_or_and]
  · rintro rfl
    exact ofControl?_controlByte c p

namespace Sequence

theorem toNat_shiftLeft_one (n : UInt8) : (n <<< 1).toNat = 2 * n.toNat % 256 := by
  rw [UInt8.toNat_shiftLeft, Nat.shiftLeft_eq, Nat.mul_comm]
  rfl

theorem toNat_shiftRight_one (b : UInt8) : (b >>> 1).toNat = b.toNat / 2 := by
  rw [UInt8.toNat_shiftRight, Nat.shiftRight_eq_div_pow]
  rfl

theorem toNat_and_one (b : UInt8) : (b &&& 1).toNat = b.toNat % 2 := by
  rw [UInt8.toNat_and]
  exact Nat.and_one_is_mod _

/-- A number and a flag in one byte. -/
theorem toNat_shiftLeft_or (n : UInt8) (p : Bool) :
    ((n <<< 1) ||| (if p then 1 else 0)).toNat = 2 * n.toNat % 256 + p.toNat := by
  have number : 2 * n.toNat % 256 = (n.toNat % 128) <<< 1 := by
    rw [Nat.shiftLeft_eq]
    omega
  have bit : (if p then 1 else 0 : UInt8).toNat = p.toNat := by cases p <;> rfl
  rw [UInt8.toNat_or, toNat_shiftLeft_one, bit, number,
    Wire.shiftLeft_or_eq_add _ 1 (Nat.lt_succ_of_le p.toNat_le), Nat.shiftLeft_eq, Nat.mul_comm]

/-- The flag of a byte is its lowest bit. -/
theorem toNat_poll (b : UInt8) : (b &&& 1 != 0).toNat = b.toNat % 2 := by
  have low := toNat_and_one b
  rcases Nat.mod_two_eq_zero_or_one b.toNat with e | e
  · have zero : b &&& 1 = 0 := UInt8.toNat_inj.mp (low.trans e)
    rw [zero, e]
    rfl
  · have one : b &&& 1 = 1 := UInt8.toNat_inj.mp (low.trans e)
    rw [one, e]
    rfl

theorem shiftLeft_shiftRight {n : UInt8} (small : n ≤ 127) : (n <<< 1) >>> 1 = n := by
  have le : n.toNat ≤ 127 := UInt8.le_iff_toNat_le.mp small
  apply UInt8.toNat_inj.mp
  rw [toNat_shiftRight_one, toNat_shiftLeft_one]
  omega

theorem shiftRight_le (b : UInt8) : b >>> 1 ≤ 127 := by
  have lt := b.toNat_lt
  apply UInt8.le_iff_toNat_le.mpr
  rw [toNat_shiftRight_one]
  show b.toNat / 2 ≤ 127
  omega

/-- A first control byte announces an information frame when its lowest bit is clear, and that is
    when it is twice a sequence number. -/
theorem ofControl_eq_information_iff (b : UInt8) :
    FrameType.ofControl b = .information ↔ (b >>> 1) <<< 1 = b := by
  have lt := b.toNat_lt
  have low := toNat_and_one b
  have twice : ((b >>> 1) <<< 1).toNat = 2 * (b.toNat / 2) := by
    rw [toNat_shiftLeft_one, toNat_shiftRight_one]
    omega
  rw [← UInt8.toNat_inj, twice, FrameType.ofControl]
  by_cases even : b &&& 0b01 = 0
  · rw [even] at low
    change 0 = _ at low
    rw [if_pos even]
    exact iff_of_true rfl (by omega)
  · have odd : b.toNat % 2 ≠ 0 := fun zero => even (UInt8.toNat_inj.mp (low.trans zero))
    rw [if_neg even]
    refine iff_of_false ?_ (by omega)
    split
    · exact FrameType.noConfusion
    · exact FrameType.noConfusion

theorem ofControl_shiftLeft (n : UInt8) : FrameType.ofControl (n <<< 1) = .information := by
  apply (ofControl_eq_information_iff _).mpr
  apply UInt8.toNat_inj.mp
  rw [toNat_shiftLeft_one, toNat_shiftRight_one, toNat_shiftLeft_one]
  omega

/-- The second control byte is a sequence number and the poll bit. -/
theorem receive_or_poll (b : UInt8) :
    ((b >>> 1) <<< 1) ||| (if (b &&& 1 != 0) = true then 1 else 0) = b := by
  have lt := b.toNat_lt
  apply UInt8.toNat_inj.mp
  rw [toNat_shiftLeft_or, toNat_shiftRight_one, toNat_poll]
  omega

theorem poll_of_or (n : UInt8) (p : Bool) :
    (((n <<< 1) ||| (if p then 1 else 0)) >>> 1 = (n <<< 1) >>> 1) ∧
      ((((n <<< 1) ||| (if p then 1 else 0)) &&& 1 != 0) = p) := by
  have one := p.toNat_le
  constructor
  · apply UInt8.toNat_inj.mp
    rw [toNat_shiftRight_one, toNat_shiftLeft_or, toNat_shiftRight_one, toNat_shiftLeft_one]
    omega
  · have same : (((n <<< 1) ||| (if p then 1 else 0)) &&& 1 != 0).toNat = p.toNat := by
      rw [toNat_poll, toNat_shiftLeft_or]
      omega
    exact (Bool.ofNat_toNat _).symm.trans ((congrArg Bool.ofNat same).trans (Bool.ofNat_toNat p))

theorem ofBytes_toBytes {s : Sequence} (send : s.send ≤ 127) (receive : s.receive ≤ 127) :
    ofBytes (s.send <<< 1) ((s.receive <<< 1) ||| (if s.poll then 1 else 0)) = s := by
  obtain ⟨number, flag⟩ := poll_of_or s.receive s.poll
  rw [ofBytes, number, flag, shiftLeft_shiftRight send, shiftLeft_shiftRight receive]

theorem toBytes_ofBytes {first : UInt8} (kind : FrameType.ofControl first = .information)
    (second : UInt8) : (ofBytes first second).toBytes = [first, second] := by
  rw [toBytes, ofBytes, receive_or_poll, (ofControl_eq_information_iff first).mp kind]

end Sequence

/-! ## 2. Addresses -/

@[simp] theorem Address.ofBytes_toBytes (a : Address) : Address.ofBytes a.toBytes = .ok a := by
  obtain ⟨⟨bytes, len⟩, ssid⟩ := a
  match bytes, len with
  | [_, _, _, _, _, _], _ => rfl

theorem Address.exists_toBytes {bytes : List UInt8} (len : bytes.length = 7) :
    ∃ a : Address, bytes = a.toBytes := by
  match bytes, len with
  | [c0, c1, c2, c3, c4, c5, ssid], _ => exact ⟨⟨⟨[c0, c1, c2, c3, c4, c5], rfl⟩, ssid⟩, rfl⟩

@[simp] theorem Header.length_toBytes (h : Header) : h.toBytes.length = 14 := by
  simp [toBytes]

/-- Whatever is long enough begins with two addresses. -/
theorem Header.exists_append {content : List UInt8} (long : 14 ≤ content.length) :
    ∃ (header : Header) (rest : List UInt8), content = header.toBytes ++ rest := by
  have hfirst : (content.take 7).length = 7 := by simp; omega
  have hsecond : ((content.drop 7).take 7).length = 7 := by simp; omega
  obtain ⟨dest, hdest⟩ := Address.exists_toBytes hfirst
  obtain ⟨src, hsrc⟩ := Address.exists_toBytes hsecond
  refine ⟨⟨dest, src⟩, (content.drop 7).drop 7, ?_⟩
  rw [toBytes, ← hdest, ← hsrc, List.append_assoc, List.take_append_drop, List.take_append_drop]

/-! ## 3. Flags and check sequence -/

theorem length_flagged (bytes : List UInt8) : (flagged bytes).length = bytes.length + 2 := by
  simp [flagged]

theorem length_sealed (content : List UInt8) : (sealed content).length = content.length + 4 := by
  simp [sealed, length_flagged, Fcs.toBytes]

theorem body_sealed (content : List UInt8) :
    body (sealed content) = content ++ Fcs.toBytes (Fcs.checksum content) :=
  body_flagged _

/-- The kind of a frame is told by the byte behind its header. -/
theorem peek_sealed (header : Header) (first second : UInt8) (rest : List UInt8) :
    peek (sealed (header.toBytes ++ first :: second :: rest)) =
      .ok (FrameType.ofControl first) := by
  have long : controlFrameLength ≤ (sealed (header.toBytes ++ first :: second :: rest)).length := by
    simp only [length_sealed, List.length_append, Header.length_toBytes, List.length_cons,
      controlFrameLength]
    omega
  have flags : hasFlags (sealed (header.toBytes ++ first :: second :: rest)) = true :=
    hasFlags_flagged _
  rw [peek, dif_pos ⟨flags, long⟩]
  simp [sealed, flagged]

/-- A frame that has flags and a matching check sequence is a sealed content. -/
theorem sealed_of_checksum {frame : List UInt8} {low high : UInt8} (flags : hasFlags frame = true)
    (tail : (body frame).drop ((body frame).length - 2) = [low, high])
    (fcs : Fcs.checksum ((body frame).take ((body frame).length - 2)) = Fcs.ofBytes low high) :
    sealed ((body frame).take ((body frame).length - 2)) = frame := by
  rw [sealed, fcs, Fcs.toBytes_ofBytes, ← tail, List.take_append_drop, flagged_body flags]

/-! ## 4. Reading a frame -/

/-- What stands behind a header, read by its first byte. -/
def receiveRest (header : Header) (first : UInt8) (rest : List UInt8) : Except LinkError Received :=
  match FrameType.ofControl first with
  | .unnumbered => receiveControl header (first :: rest)
  | .information => receiveData header (first :: rest)
  | .supervisory => .error (.frame .supervisory)

/-- **Reading a sealed content** is reading what stands behind its header. -/
theorem receive_sealed (header : Header) (first second : UInt8) (rest : List UInt8) :
    receive (sealed (header.toBytes ++ first :: second :: rest)) =
      receiveRest header first (second :: rest) := by
  generalize hc : header.toBytes ++ first :: second :: rest = content
  have content_take : content.take 7 = header.dest.toBytes := by
    rw [← hc, Header.toBytes, List.append_assoc, List.take_left' header.dest.length_toBytes]
  have content_drop : (content.drop 7).take 7 = header.src.toBytes := by
    rw [← hc, Header.toBytes, List.append_assoc, List.drop_left' header.dest.length_toBytes,
      List.take_left' header.src.length_toBytes]
  have behind : content.drop 14 = first :: second :: rest := by
    rw [← hc, List.drop_left' header.length_toBytes]
  have kind : peek (sealed content) = .ok (FrameType.ofControl first) := by
    rw [← hc, peek_sealed]
  have inner : (content ++ Fcs.toBytes (Fcs.checksum content)).length - 2 = content.length := by
    simp [Fcs.toBytes]
  have front : (content ++ Fcs.toBytes (Fcs.checksum content)).take content.length = content :=
    List.take_left' rfl
  have tail : (content ++ Fcs.toBytes (Fcs.checksum content)).drop content.length =
      [(Fcs.checksum content).toUInt8, (Fcs.checksum content >>> 8).toUInt8] :=
    List.drop_left' rfl
  simp only [receive, kind, body_sealed, inner, front, tail, content_take, content_drop, behind,
    Fcs.ofBytes_toBytes, Address.ofBytes_toBytes, bind, Except.bind, ne_eq, not_true_eq_false,
    if_false, receiveRest]
  cases FrameType.ofControl first <;> rfl

/-- **Nothing but a sealed content is read.** -/
theorem exists_sealed_of_receive {frame : List UInt8} {r : Received} (h : receive frame = .ok r) :
    ∃ (header : Header) (first second : UInt8) (rest : List UInt8),
      frame = sealed (header.toBytes ++ first :: second :: rest) := by
  by_cases flags : hasFlags frame = true ∧ controlFrameLength ≤ frame.length
  · have long : 18 ≤ (body frame).length := by
      have len := length_flagged (body frame)
      rw [flagged_body flags.1] at len
      have := flags.2
      simp only [controlFrameLength] at this
      omega
    rw [receive, peek, dif_pos flags] at h
    simp only [bind, Except.bind] at h
    split at h
    · rename_i low high tail
      split at h
      · cases h
      rename_i fcs
      have whole := sealed_of_checksum flags.1 tail (not_not.mp fcs)
      have len : ((body frame).take ((body frame).length - 2)).length =
          (body frame).length - 2 := by
        rw [List.length_take, Nat.min_eq_left (Nat.sub_le _ _)]
      have enough : 14 ≤ ((body frame).take ((body frame).length - 2)).length := by omega
      obtain ⟨header, rest, parts⟩ := Header.exists_append enough
      rw [parts, List.length_append, Header.length_toBytes] at len
      rw [parts] at whole
      match rest, len with
      | first :: second :: rest, _ => exact ⟨header, first, second, rest, whole.symm⟩
      | [_], len => simp only [List.length_singleton] at len; omega
      | [], len => simp only [List.length_nil] at len; omega
    · cases h
  · rw [receive, peek, dif_neg flags] at h
    cases h

/-- What stands behind the header of an unnumbered frame. -/
theorem receiveControl_eq_ok_iff {header : Header} {bytes : List UInt8} {r : Received} :
    receiveControl header bytes = .ok r ↔ ∃ (command : Control) (pollFinal : Bool),
      bytes = [command.controlByte pollFinal, protocolId] ∧
        r = .control header command pollFinal := by
  constructor
  · intro h
    unfold receiveControl at h
    split at h
    · rename_i control pid
      split at h
      · cases h
      rename_i same
      split at h
      · rename_i command pollFinal known
        cases h
        exact ⟨command, pollFinal, by rw [Control.ofControl?_eq_some_iff.mp known, not_not.mp same],
          rfl⟩
      · cases h
    · cases h
  · rintro ⟨command, pollFinal, rfl, rfl⟩
    simp [receiveControl, Control.ofControl?_controlByte]

/-- What stands behind the header of an information frame, if its first byte announces one. -/
theorem receiveData_eq_ok_iff {header : Header} {first : UInt8} {rest : List UInt8} {r : Received}
    (kind : FrameType.ofControl first = .information) :
    receiveData header (first :: rest) = .ok r ↔ ∃ (control : Sequence) (info : Block infoLength),
      first :: rest = control.toBytes ++ protocolId :: info.bytes ∧
        (control.send ≤ 127 ∧ control.receive ≤ 127) ∧ r = .data header control info := by
  constructor
  · intro h
    unfold receiveData at h
    split at h
    · rename_i bytes first' second pid info e
      obtain ⟨rfl, rfl⟩ := List.cons.inj e
      split at h
      · rename_i len
        split at h
        · cases h
        rename_i same
        cases h
        refine ⟨Sequence.ofBytes first second, ⟨info, len⟩, ?_, ?_, rfl⟩
        · rw [Sequence.toBytes_ofBytes kind, not_not.mp same]
          rfl
        · exact ⟨Sequence.shiftRight_le first, Sequence.shiftRight_le second⟩
      · cases h
    · cases h
  · rintro ⟨control, info, bytes, ⟨send, receive⟩, rfl⟩
    rw [bytes, Sequence.toBytes]
    simp only [List.cons_append, List.nil_append, receiveData, info.length_eq, ne_eq,
      not_true_eq_false, if_false, dif_pos, Sequence.ofBytes_toBytes send receive]

/-- **An information frame is read** exactly from the frame built of it. -/
theorem receive_eq_data_iff {frame : List UInt8} {header : Header} {control : Sequence}
    {info : Block infoLength} :
    receive frame = .ok (.data header control info) ↔
      frame = infoFrame header control info ∧ control.send ≤ 127 ∧ control.receive ≤ 127 := by
  constructor
  · intro h
    obtain ⟨header', first, second, rest, rfl⟩ := exists_sealed_of_receive h
    rw [receive_sealed, receiveRest] at h
    split at h
    · obtain ⟨_, _, _, e⟩ := receiveControl_eq_ok_iff.mp h
      cases e
    · rename_i kind
      obtain ⟨control', info', bytes, bounds, e⟩ := (receiveData_eq_ok_iff kind).mp h
      cases e
      exact ⟨by rw [infoFrame, bytes], bounds⟩
    · cases h
  · rintro ⟨rfl, bounds⟩
    have kind := Sequence.ofControl_shiftLeft control.send
    rw [infoFrame, Sequence.toBytes, List.cons_append, List.cons_append, receive_sealed,
      receiveRest, kind]
    exact (receiveData_eq_ok_iff kind).mpr ⟨control, info, rfl, bounds, rfl⟩

/-- **An unnumbered frame is read** exactly from the frame built of it. -/
theorem receive_eq_control_iff {frame : List UInt8} {header : Header} {command : Control}
    {pollFinal : Bool} :
    receive frame = .ok (.control header command pollFinal) ↔
      frame = controlFrame header command pollFinal := by
  constructor
  · intro h
    obtain ⟨header', first, second, rest, rfl⟩ := exists_sealed_of_receive h
    rw [receive_sealed, receiveRest] at h
    split at h
    · obtain ⟨command', pollFinal', bytes, e⟩ := receiveControl_eq_ok_iff.mp h
      cases e
      rw [controlFrame, bytes]
    · rename_i kind
      obtain ⟨_, _, _, _, e⟩ := (receiveData_eq_ok_iff kind).mp h
      cases e
    · cases h
  · rintro rfl
    rw [controlFrame, receive_sealed, receiveRest, Control.ofControl_controlByte]
    exact receiveControl_eq_ok_iff.mpr ⟨command, pollFinal, rfl, rfl⟩

/-- **Reading undoes both builders, and accepts nothing that they do not build.** -/
theorem receive_eq_ok_iff (frame : List UInt8) :
    (∀ header command pollFinal, receive frame = .ok (.control header command pollFinal) ↔
        frame = controlFrame header command pollFinal) ∧
      ∀ header control info, receive frame = .ok (.data header control info) ↔
        frame = infoFrame header control info ∧ control.send ≤ 127 ∧ control.receive ≤ 127 :=
  ⟨fun _ _ _ => receive_eq_control_iff, fun _ _ _ => receive_eq_data_iff⟩

/-! ## 5. The information field -/

@[simp] theorem length_infoFrame (header : Header) (control : Sequence) (info : Block infoLength) :
    (infoFrame header control info).length = infoFrameLength := by
  rw [infoFrame, length_sealed]
  simp [Sequence.toBytes, infoFrameLength, infoLength]

@[simp] theorem length_controlFrame (header : Header) (command : Control) (pollFinal : Bool) :
    (controlFrame header command pollFinal).length = controlFrameLength := by
  rw [controlFrame, length_sealed]
  simp [controlFrameLength]

theorem hasFlags_infoFrame (header : Header) (control : Sequence) (info : Block infoLength) :
    hasFlags (infoFrame header control info) = true :=
  hasFlags_flagged _

theorem hasFlags_controlFrame (header : Header) (command : Control) (pollFinal : Bool) :
    hasFlags (controlFrame header command pollFinal) = true :=
  hasFlags_flagged _

theorem peek_infoFrame (header : Header) (control : Sequence) (info : Block infoLength) :
    peek (infoFrame header control info) = .ok .information := by
  rw [infoFrame, Sequence.toBytes, List.cons_append, List.cons_append, peek_sealed,
    Sequence.ofControl_shiftLeft]

theorem peek_controlFrame (header : Header) (command : Control) (pollFinal : Bool) :
    peek (controlFrame header command pollFinal) = .ok .unnumbered := by
  rw [controlFrame, peek_sealed, Control.ofControl_controlByte]

/-- A frame as long as an information frame has an information field. -/
theorem exists_append_of_length {frame : List UInt8} (len : frame.length = infoFrameLength) :
    ∃ (front back : List UInt8) (info : Block infoLength), front.length = 18 ∧ back.length = 3 ∧
      frame = front ++ (info.bytes ++ back) := by
  simp only [infoFrameLength] at len
  refine ⟨frame.take 18, (frame.drop 18).drop infoLength, ⟨(frame.drop 18).take infoLength, ?_⟩,
    ?_, ?_, ?_⟩
  · simp [len, infoLength]
  · simp [len]
  · simp [len, infoLength]
  · rw [List.take_append_drop, List.take_append_drop]

/-- The information field stands behind eighteen bytes and before three. -/
theorem infoFrame_eq_append (header : Header) (control : Sequence) (info : Block infoLength) :
    ∃ front back : List UInt8, front.length = 18 ∧ back.length = 3 ∧
      infoFrame header control info = front ++ (info.bytes ++ back) := by
  refine ⟨flag :: (header.toBytes ++ (control.toBytes ++ [protocolId])),
    Fcs.toBytes (Fcs.checksum (header.toBytes ++ (control.toBytes ++ protocolId :: info.bytes))) ++
      [flag], by simp [Sequence.toBytes], rfl, ?_⟩
  simp [infoFrame, sealed, flagged]

theorem hasFlags_append {front back : List UInt8} (middle : List UInt8) (hfront : front ≠ [])
    (hback : back ≠ []) : hasFlags (front ++ (middle ++ back)) =
      (front.head? == some flag && back.getLast? == some flag) := by
  have long : 2 ≤ (front ++ (middle ++ back)).length := by
    have := List.length_pos_iff.mpr hfront
    have := List.length_pos_iff.mpr hback
    simp only [List.length_append]
    omega
  rw [hasFlags, decide_eq_true long, List.head?_append, List.getLast?_append, List.getLast?_append,
    List.head?_eq_some_head hfront, List.getLast?_eq_some_getLast hback]
  rfl

section

variable {front back : List UInt8} (hfront : front.length = 18) (hback : back.length = 3)

include hfront

theorem withInfoField_append (old new : Block infoLength) :
    withInfoField (front ++ (old.bytes ++ back)) new = front ++ (new.bytes ++ back) := by
  have behind : (front ++ (old.bytes ++ back)).drop (18 + infoLength) = back := by
    rw [← List.append_assoc]
    exact List.drop_left' (by simp [hfront])
  rw [withInfoField, behind, List.take_left' hfront]

include hback

theorem length_append_field (info : Block infoLength) :
    (front ++ (info.bytes ++ back)).length = infoFrameLength := by
  simp [hfront, hback, infoFrameLength, infoLength]

theorem infoField_append (info : Block infoLength) :
    infoField (front ++ (info.bytes ++ back)) = .ok info := by
  rw [infoField, dif_pos (length_append_field hfront hback info)]
  congr 1
  ext1
  show ((front ++ (info.bytes ++ back)).drop 18).take infoLength = info.bytes
  rw [List.drop_left' hfront, List.take_left' info.length_eq]

/-- The information field has no say in the kind of a frame. -/
theorem peek_append (old new : Block infoLength) :
    peek (front ++ (old.bytes ++ back)) = peek (front ++ (new.bytes ++ back)) := by
  have nonempty : front ≠ [] := List.ne_nil_of_length_pos (by omega)
  have nonempty' : back ≠ [] := List.ne_nil_of_length_pos (by omega)
  have flags (info : Block infoLength) := hasFlags_append info.bytes nonempty nonempty'
  have long (info : Block infoLength) :
      controlFrameLength ≤ (front ++ (info.bytes ++ back)).length := by
    rw [length_append_field hfront hback]
    decide
  by_cases h : (front.head? == some flag && back.getLast? == some flag) = true
  · rw [peek, peek, dif_pos ⟨(flags old).trans h, long old⟩,
      dif_pos ⟨(flags new).trans h, long new⟩]
    have inside : 15 < front.length := by omega
    simp only [List.getElem_append_left inside]
  · rw [peek, peek, dif_neg fun both => h ((flags old).symm.trans both.1),
      dif_neg fun both => h ((flags new).symm.trans both.1)]

end

end SatLink.Frame
