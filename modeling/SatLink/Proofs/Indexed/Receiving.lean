import SatLink.Downlink.Frame
import SatLink.Proofs.Cipher
import SatLink.Proofs.Indexed.Correction
import SatLink.Proofs.Indexed.Frame
import SatLink.Proofs.Indexed.Records
import SatLink.Proofs.Uplink.RoundTrip

/-!
# Receiving stops on no bytes

The whole way of a frame on a machine that can stop: it is unstuffed into its buffer, an information
field is corrected in place, the frame is read, compared with the addresses of the station, and its
block is opened and unpacked. What every step relies on is there because of the step before it: the
buffer is no longer than 331 bytes, so no count is wide; a corrected frame has the length it had; a
plaintext has the length of its ciphertext.

* `deframe_eq` — what both directions share;
* `openBlock_eq` — opening a block, in either mode;
* `receiving_never_stops` — **the receivers of both directions answer on every byte string**, and
  answer what they do on whole lists.
-/

namespace SatLink.Indexed

open SatLink.Frame (Received maxLength)

/-! ## 1. Definitions -/

/-- Corrects the information field of a frame in its buffer. -/
noncomputable def correctInfo (size : Nat) (buffer : Buffer) : Checked Buffer := do
  let frame ← buffer.contents
  match ← peek frame with
  | .information => do
      let (_, word) ← decodeInPlace size (← infoField frame)
      pure { buffer with bytes := ← splice buffer.bytes 18 273 word }
  | _ => pure buffer

/-- Unstuffs a frame, corrects its information field and reads it. -/
noncomputable def deframe (size : Nat) (stuffed : List UInt8) : Checked Received := do
  let buffer ← correctInfo size (← unstuffFrame size stuffed)
  receive size (← buffer.contents)

/-- The four bits of the SSID. -/
def ssid (address : List UInt8) : Checked UInt8 := do
  pure (((← item address 6) >>> 1) &&& 0x0F)

/-- Two addresses name one station. -/
def sameStation (a b : List UInt8) : Checked Bool := do
  if (← cut a 0 6) = (← cut b 0 6) then pure ((← ssid a) == (← ssid b)) else pure false

/-- Decrypts the ciphertext of a block. -/
def decrypt (c : Cipher.Context) (ciphertext : List UInt8) (iv : Block 16)
    (tag : Option (Block 16)) :
    Checked (List UInt8) :=
  match c.decrypt ciphertext iv tag with
  | (.ok (), plain) => pure plain
  | (.error e, _) => throw e

/-- The plaintext of a block. -/
def openBlock (c : Cipher.Context) (block : List UInt8) : Checked (List UInt8) := do
  let iv ← exactly 16 (← cut block 0 16)
  let start ← sub 223 c.capacity
  let ciphertext ← cut block start block.length
  match c.mode with
  | .ctr => decrypt c ciphertext iv none
  | .gcm => do
      let tag ← exactly 16 (← cut block 16 32)
      decrypt c ciphertext iv (some tag)

/-- Decodes a frame of the uplink; the callsign of another station is looked up for a note. -/
noncomputable def decodePacket (size : Nat) (f : Uplink.Flow) (stuffed : List UInt8) :
    Checked Uplink.Decoded := do
  let received ← deframe size stuffed
  let dest := received.header.dest.toBytes
  if !(← sameStation dest f.addresses.src.toBytes) then
    let _ ← cut dest 0 6
    throw (.frame .otherStation)
  else
    match received with
    | .control _ command pollFinal => pure (.control command pollFinal)
    | .data _ _ info => do
        let block ← exactly 223 (← cut info.bytes 0 223)
        let plaintext ← openBlock f.cipher block.bytes
        pure (.commands (← unpackCommands size plaintext))

/-- Decodes a frame of the downlink. -/
noncomputable def decodeFrame (size : Nat) (addresses : LinkAddresses) (stuffed : List UInt8) :
    Checked Downlink.TelemetryFrame := do
  match ← deframe size stuffed with
  | .control _ _ _ => throw (.frame .notTelemetry)
  | .data header control info =>
      if !(← sameStation header.dest.toBytes addresses.src.toBytes) then
        throw (.frame .otherStation)
      else pure ⟨control, ← unpackRecords size (← cut info.bytes 0 223)⟩

/-! ## 2. Frames in their buffer -/

/-- What is unstuffed has room in a buffer. -/
theorem length_le_of_unstuffFrame {stuffed frame : List UInt8}
    (h : Frame.unstuffFrame stuffed = .ok frame) : frame.length ≤ maxLength := by
  have room : Frame.blank.length = maxLength := List.length_replicate
  rw [Frame.unstuffFrame, Frame.unstuff] at h
  cases found : Frame.unstuffed stuffed with
  | error e =>
      rw [found] at h
      cases h
  | ok plain =>
      rw [found] at h
      dsimp only at h
      by_cases fits : plain.length ≤ Frame.blank.length
      · rw [if_pos fits] at h
        cases h
        rw [List.take_left' rfl, ← room]
        exact fits
      · rw [if_neg fits] at h
        cases h

/-- Correcting changes no length. -/
theorem length_corrected {frame fixed : List UInt8} (h : Uplink.corrected frame = .ok fixed) :
    fixed.length = frame.length := by
  rcases Uplink.corrected_cases h with ⟨front, back, old, new, -, -, rfl, rfl, -, -⟩ | ⟨rfl, -⟩
  · simp only [List.length_append, old.length_eq, new.length_eq]
  · rfl

/-- The information field is put right in the buffer as in the frame. -/
theorem splice_holding {frame : List UInt8} (len : frame.length = Frame.infoFrameLength)
    (word : Block Frame.infoLength) :
    (do pure { holding frame with bytes := ← splice (holding frame).bytes 18 273 word.bytes }) =
      (pure (holding (Frame.withInfoField frame word)) : Checked Buffer) := by
  obtain ⟨front, back, old, hfront, hback, rfl⟩ := Frame.exists_append_of_length len
  have len' := Frame.length_append_field hfront hback word
  have front_old : (front ++ old.bytes).length = 273 := by
    rw [List.length_append, hfront, old.length_eq]
    rfl
  rw [Frame.withInfoField_append hfront, holding, holding, len, len']
  generalize (List.replicate (maxLength - Frame.infoFrameLength) 0 : List UInt8) = zeros
  have within : 273 ≤ ((front ++ (old.bytes ++ back)) ++ zeros).length := by
    rw [List.length_append, len]
    exact Nat.le_trans (by decide) (Nat.le_add_right _ _)
  have parts (middle : Block Frame.infoLength) : (front ++ (middle.bytes ++ back)) ++ zeros =
      (front ++ middle.bytes) ++ (back ++ zeros) := by
    simp only [List.append_assoc]
  have before : ((front ++ (old.bytes ++ back)) ++ zeros).take 18 = front := by
    rw [List.append_assoc, List.take_left' hfront]
  have behind : ((front ++ (old.bytes ++ back)) ++ zeros).drop 273 = back ++ zeros := by
    rw [parts old, List.drop_left' front_old]
  rw [splice_of_length (by decide) within word.length_eq, before, behind, parts word,
    ← List.append_assoc front word.bytes]
  rfl

section

variable {size : Nat} (wide : 2 ^ 16 ≤ size)

include wide

/-- **Correcting in the buffer** puts the corrected frame there. -/
theorem correctInfo_eq (frame : List UInt8) :
    correctInfo size (holding frame) = answer ((Uplink.corrected frame).map holding) := by
  rw [correctInfo, contents_holding, pure_bind, peek_eq, Uplink.corrected]
  cases Frame.peek frame with
  | error e => rfl
  | ok kind =>
      cases kind with
      | unnumbered | supervisory => rfl
      | information =>
          rw [answer_ok, pure_bind, infoField_eq]
          by_cases len : frame.length = Frame.infoFrameLength
          · rw [Frame.infoField, dif_pos len]
            generalize (⟨_, _⟩ : Block Frame.infoLength) = info
            show (decodeInPlace size info.bytes >>= _) = _
            rw [decodeInPlace_eq wide]
            cases repaired : ReedSolomon.repair? info with
            | none =>
                have refused : ReedSolomon.correct info = (.error .uncorrectable, info) := by
                  rw [ReedSolomon.correct, repaired]
                conv_rhs => simp only [bind, Except.bind, refused]
                rfl
            | some r =>
                have fixed : ReedSolomon.correct info = (.ok r.1, r.2) := by
                  rw [ReedSolomon.correct, repaired]
                conv_rhs => simp only [bind, Except.bind, fixed]
                exact splice_holding len r.2
          · rw [Frame.infoField, dif_neg len]
            rfl

/-- **Both directions take a frame in** without a stop. -/
theorem deframe_eq {stuffed : List UInt8} (addressable : stuffed.length < size) :
    deframe size stuffed = answer (Uplink.deframe stuffed) := by
  rw [deframe, unstuffFrame_eq wide addressable, Uplink.deframe]
  cases unstuffed : Frame.unstuffFrame stuffed with
  | error e => rfl
  | ok frame =>
      have short := length_le_of_unstuffFrame unstuffed
      show (correctInfo size (holding frame) >>= _) = answer (Uplink.corrected frame >>= _)
      rw [correctInfo_eq wide]
      cases corrected : Uplink.corrected frame with
      | error e => rfl
      | ok fixed =>
          have count : fixed.length < size := by
            rw [length_corrected corrected]
            simp only [maxLength] at short
            omega
          show ((holding fixed).contents >>= _) = answer (Frame.receive fixed)
          rw [contents_holding, pure_bind, receive_eq count]

end

/-! ## 3. Addresses and blocks -/

theorem ssid_eq (a : Frame.Address) : ssid a.toBytes = pure a.ssid := by
  have here : a.toBytes[6]? = some a.ssidByte := by
    rw [Frame.Address.toBytes, List.getElem?_append_right (Nat.le_of_eq a.shifted.length_eq),
      a.shifted.length_eq]
    rfl
  rw [ssid, item_of_getElem? here]
  rfl

theorem cut_callsign (a : Frame.Address) : cut a.toBytes 0 6 = pure a.shifted.bytes := by
  refine (cut_of_le (Nat.zero_le 6) ?_).trans (congrArg pure (List.take_left' a.shifted.length_eq))
  rw [a.length_toBytes]
  decide

theorem sameStation_eq (a b : Frame.Address) :
    sameStation a.toBytes b.toBytes = pure (a.sameStation b) := by
  rw [sameStation, cut_callsign, cut_callsign, ssid_eq, ssid_eq, Frame.Address.sameStation]
  simp only [pure_bind]
  by_cases same : a.shifted = b.shifted
  · rw [same, if_pos rfl, beq_self_eq_true, Bool.true_and]
  · rw [if_neg fun e => same (Block.ext e), beq_eq_false_iff_ne.mpr same, Bool.false_and]

/-- A part of a block is cut out of it. -/
theorem cut_slice {n : Nat} (b : Block n) (start k : Nat) (h : start + k ≤ n) :
    cut b.bytes start (start + k) = pure (b.slice start k h).bytes := by
  have within : start + k ≤ b.bytes.length := by rwa [b.length_eq]
  rw [cut_of_le (Nat.le_add_right start k) within, Nat.add_sub_cancel_left]
  rfl

theorem cut_message (info : ReedSolomon.Word) :
    cut info.bytes 0 223 = pure (ReedSolomon.message info).bytes :=
  cut_slice info 0 223 _

theorem exactly_bytes {n : Nat} (b : Block n) : exactly n b.bytes = pure b :=
  exactly_of_length b.length_eq

/-- **Opening a block stops in neither mode.** -/
theorem openBlock_eq (c : Cipher.Context) (block : ReedSolomon.Message) :
    openBlock c block.bytes = answer (c.openBlock block) := by
  have few : c.overhead ≤ 223 := by
    unfold Cipher.Context.overhead
    split <;> decide
  have iv : cut block.bytes 0 16 = pure (block.slice 0 16 (by decide)).bytes :=
    cut_slice block 0 16 _
  have tag : cut block.bytes 16 32 = pure (block.slice 16 16 (by decide)).bytes :=
    cut_slice block 16 16 _
  have start : sub 223 c.capacity = pure c.overhead :=
    (sub_of_le (Nat.sub_le 223 _)).trans (congrArg pure (Nat.sub_sub_self few))
  have text : cut block.bytes c.overhead block.bytes.length =
      pure (block.bytes.drop c.overhead) := by
    rw [cut_of_le (by rw [block.length_eq]; exact few) (Nat.le_refl _),
      List.take_of_length_le (by rw [List.length_drop])]
  have opened (t : Option (Block 16)) :
      decrypt c (block.bytes.drop c.overhead) (block.slice 0 16 (by decide)) t =
        answer (match c.decrypt (block.bytes.drop c.overhead) (block.slice 0 16 (by decide)) t with
          | (.ok (), plain) => .ok plain
          | (.error e, _) => .error e) := by
    rw [decrypt]
    split <;> rfl
  simp only [openBlock, iv, exactly_bytes, start, text, pure_bind, Cipher.Context.openBlock]
  cases c.mode with
  | ctr => exact opened none
  | gcm =>
      simp only [tag, exactly_bytes, pure_bind]
      exact opened _

/-! ## 4. Both directions -/

section

variable {size : Nat} (wide : 2 ^ 16 ≤ size) {stuffed : List UInt8}
    (addressable : stuffed.length < size)

include wide addressable

/-- **The receiver of the uplink stops on no bytes.** -/
theorem decodePacket_eq (f : Uplink.Flow) :
    decodePacket size f stuffed = answer (f.decodePacket stuffed) := by
  refine bind_eq_answer (deframe_eq wide addressable) fun received _ => ?_
  dsimp only
  rw [sameStation_eq, cut_callsign, pure_bind]
  show _ = answer (if !received.header.dest.sameStation f.addresses.src then _ else _)
  cases received.header.dest.sameStation f.addresses.src with
  | false => rfl
  | true =>
      cases received with
      | control _ _ _ => rfl
      | data header control info =>
          show (cut info.bytes 0 223 >>= _) = answer (f.cipher.openBlock _ >>= _)
          rw [cut_message, pure_bind, exactly_bytes, pure_bind]
          refine bind_eq_answer (openBlock_eq f.cipher _) fun plaintext opened => ?_
          have room : plaintext.length + 8 < size := by
            have len := Cipher.Context.length_of_openBlock opened
            have few : f.cipher.capacity ≤ 223 := Nat.sub_le 223 _
            omega
          exact bind_eq_answer (unpackCommands_eq room) fun _ _ => rfl

/-- **The receiver of the downlink stops on no bytes.** -/
theorem decodeFrame_eq (addresses : LinkAddresses) :
    decodeFrame size addresses stuffed = answer (Downlink.decodeFrame addresses stuffed) := by
  refine bind_eq_answer (deframe_eq wide addressable) fun received _ => ?_
  cases received with
  | control _ _ _ => rfl
  | data header control info =>
      dsimp only
      rw [sameStation_eq, pure_bind]
      show _ = answer (if !header.dest.sameStation addresses.src then _ else _)
      cases header.dest.sameStation addresses.src with
      | false => rfl
      | true =>
          have room : (ReedSolomon.message info).bytes.length + 8 < size := by
            rw [Block.length_eq, ReedSolomon.messageLength]
            omega
          rw [cut_message, pure_bind]
          exact bind_eq_answer (unpackRecords_eq room) fun _ _ => rfl

end

/-- **Receiving stops on no byte string.** The machine has counters of a width that counts the bytes
    of the string, and of sixteen bits at least. Whatever the bytes are, and in either mode, no
    index is beyond the end of its array, no cut is outside it, no count passes its width or falls
    below zero, and every loop ends: the receivers of both directions give a result or refuse, and
    what they answer is what they answer on whole lists. -/
theorem receiving_never_stops (size : Nat) (wide : 2 ^ 16 ≤ size) (stuffed : List UInt8)
    (addressable : stuffed.length < size) :
    (∀ f : Uplink.Flow, (decodePacket size f stuffed).run = some (f.decodePacket stuffed)) ∧
      ∀ a : LinkAddresses,
        (decodeFrame size a stuffed).run = some (Downlink.decodeFrame a stuffed) :=
  ⟨fun f => congrArg ExceptT.run (decodePacket_eq wide addressable f),
    fun a => congrArg ExceptT.run (decodeFrame_eq wide addressable a)⟩

/-- On a machine of sixteen bits a satellite takes the commands of the ground; a run of ones between
    two flags is refused. -/
theorem receiving_never_stops_ping :
    let commands := [Command.immediate .ping, Command.scheduled (.rtcSync 1700000000) 60]
    ∃ ground satellite frame,
      Uplink.Flow.ofConfig .standard .groundStation = .ok ground ∧
      Uplink.Flow.ofConfig .standard .cubesat = .ok satellite ∧
      ground.encodeCommands commands (Block.zero 16) = .ok frame ∧ frame.length < 2 ^ 16 ∧
      (decodePacket (2 ^ 16) satellite frame).run = some (.ok (.commands commands)) ∧
      (decodeFrame (2 ^ 16) ground.addresses [0x7E, 0xFF, 0x7E]).run =
        some (.error .corruptedFrame) := by
  intro commands
  have valid : Config.standard.validate = .ok () := by decide +kernel
  obtain ⟨ground, satellite, hground, hsatellite, -, hears⟩ := Uplink.Flow.exists_hears valid
  have capacity : 191 ≤ ground.capacity := by
    unfold Uplink.Flow.capacity Cipher.Context.capacity Cipher.Context.overhead
    split <;> decide
  have fits : Command.totalLength commands ≤ ground.capacity := Nat.le_trans (by decide) capacity
  obtain ⟨frame, sent, taken⟩ := hears.decodePacket_commands fits (Block.zero 16)
  obtain ⟨-, block, -, rfl⟩ := Uplink.Flow.exists_block_of_encodeCommands sent
  have short : (Frame.flagged (Frame.stuffedBody (Frame.infoFrame ground.addresses.header {}
      (ReedSolomon.encode block)))).length < 2 ^ 16 := by
    have len := Frame.length_infoFrame ground.addresses.header {} (ReedSolomon.encode block)
    rw [Frame.length_flagged_stuffedBody (by rw [len]; decide)]
    exact Nat.lt_of_le_of_lt (Frame.stuffedLength_le (by rw [len]; decide)) (by decide)
  have up := (receiving_never_stops _ (Nat.le_refl _) _ short).1 satellite
  have down := (receiving_never_stops (2 ^ 16) (Nat.le_refl _) [0x7E, 0xFF, 0x7E] (by decide)).2
    ground.addresses
  rw [taken] at up
  exact ⟨ground, satellite, _, hground, hsatellite, sent, short, up, down⟩

end SatLink.Indexed
