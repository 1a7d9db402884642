import SatLink.Proofs.Frame.Detection
import SatLink.Proofs.Indexed.Unstuffing

/-!
# Reading a frame with indices

The kind of a frame is told by its sixteenth byte, which is looked up only in a frame of twenty
bytes or more. The check sequence stands at the length less three, and every field behind the header
has a fixed place, which is looked up only in a frame of the length that its kind asks for.

* `exists_parts` — a frame of twenty bytes or more has a header, two bytes behind it and a check
  sequence;
* `peek_eq`, `infoField_eq` — **telling the kind and cutting the information field out stop on no
  bytes**;
* `receive_eq` — nor does **reading a frame**.
-/

namespace SatLink.Indexed

open SatLink.Frame (FrameType Header Received flag flagged)

/-! ## 1. Definitions -/

/-- The kind of a frame. -/
def peek (frame : List UInt8) : Checked FrameType := do
  if !(← hasFlags frame) || decide (frame.length < 20) then throw (.frame .tooShort)
  else pure (FrameType.ofControl (← item frame 15))

/-- The information field of a frame. -/
def infoField (frame : List UInt8) : Checked (List UInt8) := do
  if frame.length ≠ 276 then throw (.frame .infoLength)
  else
    let field ← cut frame 18 273
    if field.length ≠ 255 then throw (.frame .infoLength) else pure field

/-- What stands behind the header of an unnumbered frame. -/
def receiveControl (frame : List UInt8) (header : Header) : Checked Received := do
  if frame.length ≠ 20 then throw (.frame .controlLength)
  else if (← item frame 16) ≠ Frame.protocolId then throw (.frame .protocolId)
  else
    match Frame.Control.ofControl? (← item frame 15) with
    | some (command, pollFinal) => pure (.control header command pollFinal)
    | none => throw (.frame .controlCommand)

/-- What stands behind the header of an information frame. -/
def receiveData (frame : List UInt8) (header : Header) : Checked Received := do
  if frame.length ≠ 276 then throw (.frame .infoLength)
  else if (← item frame 17) ≠ Frame.protocolId then throw (.frame .protocolId)
  else
    let control := Frame.Sequence.ofBytes (← item frame 15) (← item frame 16)
    let info ← exactly 255 (← cut frame 18 273)
    pure (.data header control info)

/-- Reads a frame. -/
def receive (size : Nat) (frame : List UInt8) : Checked Received := do
  let kind ← peek frame
  let position ← sub (← sub frame.length 1) 2
  let computed := Frame.Fcs.checksum (← cut frame 1 position)
  let received := Frame.Fcs.ofBytes (← item frame position) (← item frame (← add size position 1))
  if computed ≠ received then throw (.fcsMismatch computed received)
  else
    let dest ← answer (Frame.Address.ofBytes (← cut frame 1 8))
    let src ← answer (Frame.Address.ofBytes (← cut frame 8 15))
    match kind with
    | .unnumbered => receiveControl frame ⟨dest, src⟩
    | .information => receiveData frame ⟨dest, src⟩
    | .supervisory => throw (.frame .supervisory)

/-! ## 2. Places in a frame -/

section

variable {content : List UInt8} {low high : UInt8} {i j : Nat}

theorem length_flagged_content (content : List UInt8) (low high : UInt8) :
    (flagged (content ++ [low, high])).length = content.length + 4 := by
  rw [Frame.length_flagged, List.length_append]
  rfl

/-- Behind the opening flag stands the content. -/
theorem cut_flagged (le : i ≤ j) (within : j ≤ content.length) :
    cut (flagged (content ++ [low, high])) (i + 1) (j + 1) =
      pure ((content.drop i).take (j - i)) := by
  have inside : j + 1 ≤ (flagged (content ++ [low, high])).length := by
    rw [length_flagged_content]
    omega
  have room : j - i ≤ (content.drop i).length := by
    rw [List.length_drop]
    omega
  have width : j + 1 - (i + 1) = j - i := Nat.add_sub_add_right ..
  rw [cut_of_le (Nat.add_le_add_right le 1) inside, width, flagged, List.drop_succ_cons,
    List.append_assoc, List.drop_append_of_le_length (by omega), List.take_append_of_le_length room]

theorem item_flagged {byte : UInt8} (entry : content[i]? = some byte) :
    item (flagged (content ++ [low, high])) (i + 1) = pure byte := by
  obtain ⟨lt, -⟩ := List.getElem?_eq_some_iff.mp entry
  apply item_of_getElem?
  rw [flagged, List.getElem?_cons_succ, List.append_assoc, List.getElem?_append_left lt, entry]

/-- Behind the content stands the check sequence. -/
theorem item_low : item (flagged (content ++ [low, high])) (content.length + 1) = pure low := by
  apply item_of_getElem?
  simp [flagged]

theorem item_high :
    item (flagged (content ++ [low, high])) (content.length + 1 + 1) = pure high := by
  apply item_of_getElem?
  simp [flagged]

end

/-- Behind the header stands the rest of the content. -/
theorem getElem?_behind (header : Header) (rest : List UInt8) (i : Nat) :
    (header.toBytes ++ rest)[14 + i]? = rest[i]? := by
  have len := header.length_toBytes
  rw [List.getElem?_append_right (by omega), len, Nat.add_sub_cancel_left]

/-- **The parts of a frame** of twenty bytes or more: a header, two bytes and more behind it, and a
    check sequence. -/
theorem exists_parts {frame : List UInt8} (flags : Frame.hasFlags frame = true)
    (long : 20 ≤ frame.length) :
    ∃ (header : Header) (first second : UInt8) (more : List UInt8) (low high : UInt8),
      frame = flagged ((header.toBytes ++ first :: second :: more) ++ [low, high]) := by
  have whole := Frame.flagged_body flags
  have len := Frame.length_flagged (Frame.body frame)
  rw [whole] at len
  have two : ((Frame.body frame).drop ((Frame.body frame).length - 2)).length = 2 := by
    rw [List.length_drop]
    omega
  obtain ⟨low, high, tail⟩ := List.length_eq_two.mp two
  obtain ⟨content, body⟩ : ∃ content, Frame.body frame = content ++ [low, high] :=
    ⟨_, (tail ▸ List.take_append_drop ((Frame.body frame).length - 2) (Frame.body frame)).symm⟩
  have enough : 16 ≤ content.length := by
    rw [body, List.length_append] at len
    simp only [List.length_cons, List.length_nil] at len
    omega
  obtain ⟨header, rest, parts⟩ := Header.exists_append (Nat.le_trans (by decide) enough)
  rw [parts, List.length_append, Header.length_toBytes] at enough
  match rest, enough with
  | first :: second :: more, _ =>
      exact ⟨header, first, second, more, low, high, by rw [← parts, ← body, whole]⟩
  | [_], enough => simp only [List.length_singleton] at enough; omega
  | [], enough => simp only [List.length_nil] at enough; omega

/-- **What a frame of twenty bytes or more is read as.** -/
theorem receive_parts (header : Header) (first second : UInt8) (more : List UInt8)
    (low high : UInt8) :
    Frame.receive (flagged ((header.toBytes ++ first :: second :: more) ++ [low, high])) =
      if Frame.Fcs.checksum (header.toBytes ++ first :: second :: more) ≠ Frame.Fcs.ofBytes low high
      then .error (.fcsMismatch (Frame.Fcs.checksum (header.toBytes ++ first :: second :: more))
        (Frame.Fcs.ofBytes low high))
      else Frame.receiveRest header first (second :: more) := by
  have long : 16 ≤ (header.toBytes ++ first :: second :: more).length := by
    rw [List.length_append, Header.length_toBytes]
    simp only [List.length_cons]
    omega
  split
  · rename_i wrong
    exact Frame.receive_of_mismatch long wrong
  · rename_i right
    rw [not_not] at right
    rw [← Frame.receive_sealed, Frame.sealed, right, Frame.Fcs.toBytes_ofBytes]

/-! ## 3. Reading -/

/-- **Telling the kind of a frame stops on no bytes.** -/
theorem peek_eq (frame : List UInt8) : peek frame = answer (Frame.peek frame) := by
  rw [peek, hasFlags_eq, pure_bind, Frame.peek]
  by_cases told : Frame.hasFlags frame = true ∧ Frame.controlFrameLength ≤ frame.length
  · have long : 20 ≤ frame.length := told.2
    have inside : 15 < frame.length := by omega
    rw [dif_pos told, told.1, decide_eq_false (Nat.not_lt_of_le long), item_of_lt inside]
    rfl
  · have refused : (!Frame.hasFlags frame || decide (frame.length < 20)) = true := by
      rw [Bool.or_eq_true, Bool.not_eq_true', decide_eq_true_iff]
      rcases not_and_or.mp told with unflagged | short
      · exact .inl (Bool.not_eq_true _ ▸ unflagged)
      · exact .inr (Nat.lt_of_not_le short)
    rw [dif_neg told, if_pos refused]
    rfl

/-- **Cutting out the information field stops on no bytes.** -/
theorem infoField_eq (frame : List UInt8) :
    infoField frame = answer ((Frame.infoField frame).map Block.bytes) := by
  rw [infoField, Frame.infoField]
  by_cases len : frame.length = Frame.infoFrameLength
  · have within : 273 ≤ frame.length := by rw [len]; decide
    have width : ((frame.drop 18).take (273 - 18)).length = 255 := by
      rw [List.length_take, List.length_drop, len]
      rfl
    rw [dif_pos len, if_neg fun ne => ne len, cut_of_le (by decide) within, pure_bind,
      if_neg fun ne => ne width]
    rfl
  · rw [dif_neg len, if_pos (show frame.length ≠ 276 from len)]
    rfl

section

variable (header : Header) (first second : UInt8) (more : List UInt8) (low high : UInt8)

/-- **What stands behind the header of an unnumbered frame** is looked up in a frame of
    twenty bytes. -/
theorem receiveControl_eq :
    receiveControl (flagged ((header.toBytes ++ first :: second :: more) ++ [low, high])) header =
      answer (Frame.receiveControl header (first :: second :: more)) := by
  have len := length_flagged_content (header.toBytes ++ first :: second :: more) low high
  rw [List.length_append, Header.length_toBytes, List.length_cons, List.length_cons] at len
  have control : (header.toBytes ++ first :: second :: more)[14]? = some first :=
    getElem?_behind header _ 0
  have pid : (header.toBytes ++ first :: second :: more)[15]? = some second :=
    getElem?_behind header _ 1
  rw [receiveControl, len]
  cases more with
  | cons _ _ =>
      rw [if_pos (by simp only [List.length_cons]; omega)]
      rfl
  | nil =>
      rw [if_neg (by simp), item_flagged pid, pure_bind, Frame.receiveControl]
      by_cases right : second = Frame.protocolId
      · rw [if_neg (not_not.mpr right), if_neg (not_not.mpr right), item_flagged control, pure_bind]
        cases Frame.Control.ofControl? first with
        | none => rfl
        | some read => rfl
      · rw [if_pos right, if_pos right]
        rfl

/-- **What stands behind the header of an information frame** is looked up in a frame of 276
    bytes. -/
theorem receiveData_eq :
    receiveData (flagged ((header.toBytes ++ first :: second :: more) ++ [low, high])) header =
      answer (Frame.receiveData header (first :: second :: more)) := by
  have len := length_flagged_content (header.toBytes ++ first :: second :: more) low high
  rw [List.length_append, Header.length_toBytes, List.length_cons, List.length_cons] at len
  have control : (header.toBytes ++ first :: second :: more)[14]? = some first :=
    getElem?_behind header _ 0
  have control' : (header.toBytes ++ first :: second :: more)[15]? = some second :=
    getElem?_behind header _ 1
  rw [receiveData, len]
  cases more with
  | nil => rfl
  | cons pid info =>
      rw [List.length_cons]
      by_cases whole : info.length = Frame.infoLength
      · have protocol : (header.toBytes ++ first :: second :: pid :: info)[16]? = some pid :=
          getElem?_behind header _ 2
        have within : 272 ≤ (header.toBytes ++ first :: second :: pid :: info).length := by
          rw [List.length_append, Header.length_toBytes, List.length_cons, List.length_cons,
            List.length_cons, whole]
          decide
        have field : ((header.toBytes ++ first :: second :: pid :: info).drop 17).take (272 - 17) =
            info := by
          have front : (header.toBytes ++ [first, second, pid]).length = 17 := by
            rw [List.length_append, Header.length_toBytes]
            rfl
          have split : header.toBytes ++ first :: second :: pid :: info =
              (header.toBytes ++ [first, second, pid]) ++ info := by
            rw [List.append_assoc]
            rfl
          rw [split, List.drop_left' front, List.take_of_length_le (Nat.le_of_eq whole)]
        have information : cut (flagged ((header.toBytes ++ first :: second :: pid :: info) ++
            [low, high])) 18 273 = pure info :=
          (cut_flagged (by decide) within).trans (congrArg pure field)
        rw [if_neg (by rw [whole]; decide), item_flagged protocol, pure_bind, Frame.receiveData,
          dif_pos whole]
        by_cases right : pid = Frame.protocolId
        · rw [if_neg (not_not.mpr right), if_neg (not_not.mpr right), item_flagged control,
            item_flagged control', information]
          simp only [pure_bind, exactly_of_length whole]
          rfl
        · rw [if_pos right, if_pos right]
          rfl
      · have wrong : 14 + (info.length + 1 + 1 + 1) + 4 ≠ 276 := by
          simp only [Frame.infoLength] at whole
          omega
        rw [if_pos wrong, Frame.receiveData, dif_neg whole]
        rfl

/-- **A frame with a header** is read field by field. -/
theorem receive_flagged {size : Nat}
    (addressable :
      (flagged ((header.toBytes ++ first :: second :: more) ++ [low, high])).length < size) :
    receive size (flagged ((header.toBytes ++ first :: second :: more) ++ [low, high])) =
      answer (Frame.receive
        (flagged ((header.toBytes ++ first :: second :: more) ++ [low, high]))) := by
  have control : (header.toBytes ++ first :: second :: more)[14]? = some first :=
    getElem?_behind header _ 0
  have long : 16 ≤ (header.toBytes ++ first :: second :: more).length := by
    rw [List.length_append, Header.length_toBytes]
    simp only [List.length_cons]
    omega
  have dest : (header.toBytes ++ first :: second :: more).take 7 = header.dest.toBytes := by
    rw [Header.toBytes, List.append_assoc, List.take_left' header.dest.length_toBytes]
  have src : ((header.toBytes ++ first :: second :: more).drop 7).take (14 - 7) =
      header.src.toBytes := by
    rw [Header.toBytes, List.append_assoc, List.drop_left' header.dest.length_toBytes,
      List.take_left' header.src.length_toBytes]
  have unnumbered := receiveControl_eq header first second more low high
  have information := receiveData_eq header first second more low high
  rw [receive_parts]
  rw [length_flagged_content] at addressable
  generalize header.toBytes ++ first :: second :: more = content at *
  have kind : peek (flagged (content ++ [low, high])) = pure (FrameType.ofControl first) := by
    have enough : ¬ (flagged (content ++ [low, high])).length < 20 := by
      rw [length_flagged_content]
      omega
    rw [peek, hasFlags_eq, pure_bind, Frame.hasFlags_flagged, decide_eq_false enough,
      item_flagged control]
    rfl
  have covered : cut (flagged (content ++ [low, high])) 1 (content.length + 1) = pure content := by
    refine (cut_flagged (Nat.zero_le _) (Nat.le_refl _)).trans ?_
    rw [List.drop_zero, Nat.sub_zero, List.take_length]
  have destination : cut (flagged (content ++ [low, high])) 1 8 = pure header.dest.toBytes :=
    (cut_flagged (Nat.zero_le _) (by omega)).trans (congrArg pure dest)
  have source : cut (flagged (content ++ [low, high])) 8 15 = pure header.src.toBytes :=
    (cut_flagged (by decide) (by omega)).trans (congrArg pure src)
  have last : 1 ≤ content.length + 4 := Nat.le_add_left 1 _
  have fcs : 2 ≤ content.length + 4 - 1 := by omega
  have place : content.length + 4 - 1 - 2 = content.length + 1 := by omega
  have count : content.length + 1 + 1 < size := by omega
  simp only [receive, kind, length_flagged_content, sub_of_le last, sub_of_le fcs, place, covered,
    item_low, add_of_lt count, item_high, destination, source, pure_bind,
    Frame.Address.ofBytes_toBytes, answer_ok]
  split
  · rfl
  · rw [Frame.receiveRest]
    cases FrameType.ofControl first with
    | unnumbered => exact unnumbered
    | information => exact information
    | supervisory => rfl

end

/-- **Reading a frame stops on no bytes.** -/
theorem receive_eq {size : Nat} {frame : List UInt8} (addressable : frame.length < size) :
    receive size frame = answer (Frame.receive frame) := by
  by_cases told : Frame.hasFlags frame = true ∧ Frame.controlFrameLength ≤ frame.length
  · obtain ⟨header, first, second, more, low, high, rfl⟩ := exists_parts told.1 told.2
    exact receive_flagged header first second more low high addressable
  · have refused : Frame.peek frame = .error (.frame .tooShort) := dif_neg told
    rw [receive, peek_eq, Frame.receive, refused]
    rfl

end SatLink.Indexed
