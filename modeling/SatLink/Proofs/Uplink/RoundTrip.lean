import SatLink.Proofs.Cipher
import SatLink.Proofs.Command.RoundTrip
import SatLink.Proofs.Config.Addresses
import SatLink.Proofs.Uplink.Deframe

/-!
# From the ground to the satellite

The layers of the uplink undo each other, and each is used here through one statement:

* sealing and opening a block (`Cipher.Context.openBlock_sealBlock`);
* encoding a block and taking the message of a codeword (`ReedSolomon.message_encode`);
* building, stuffing and taking in a frame (`deframe_stuffed`);
* packing and unpacking commands (`Command.unpackList_packedAll`).

`satellite_decodes` puts them together for a whole configuration.
-/

namespace SatLink.Uplink

open SatLink.Frame
open SatLink.ReedSolomon (isCodeword isCodeword_encode message_encode)

/-! ## 1. Frames -/

/-- The frame of a codeword arrives as it was sent. -/
theorem deframe_stuffed (header : Header) (control : Sequence) {info : Block infoLength}
    (codeword : isCodeword info = true) (send : control.send ≤ 127)
    (receive : control.receive ≤ 127) :
    ∃ stuffed, stuffFrame (infoFrame header control info) = .ok stuffed ∧
      deframe stuffed = .ok (.data header control info) := by
  have flags : hasFlags (infoFrame header control info) = true := hasFlags_flagged _
  have len := length_infoFrame header control info
  have whole : Repairable (infoFrame header control info) header control info := by
    refine ⟨codeword, send, receive, ?_, ?_⟩
    · rw [differences_self]
      exact Nat.zero_le _
    · intro i hi
      rw [differences_self] at hi
      cases hi
  refine ⟨_, stuffFrame_eq flags (by rw [len]; decide), ?_⟩
  rw [deframe_of_unstuffFrame (unstuffFrame_stuffed flags (by rw [len]; decide))]
  exact receive_corrected_eq_data_iff.mpr whole

namespace Flow

variable {sender receiver : Flow}

/-- What a receiver has in common with the sender it listens to. -/
structure Hears (receiver sender : Flow) : Prop where
  cipher_eq : receiver.cipher = sender.cipher
  forUs : receiver.addresses.isForUs sender.addresses.dest = true

/-! ## 2. Packets -/

/-- Of a frame that a station takes in it makes what its sender packed. -/
theorem Hears.decodePacket_of_deframe (hears : Hears receiver sender)
    {stuffed plaintext : List UInt8}
    {control : Sequence} {block : ReedSolomon.Message}
    (taken : deframe stuffed =
      .ok (.data sender.addresses.header control (ReedSolomon.encode block)))
    (opened : sender.cipher.openBlock block = .ok (sender.cipher.pad plaintext)) :
    receiver.decodePacket stuffed =
      (Command.unpackList (sender.cipher.pad plaintext)).map Decoded.commands := by
  unfold Flow.decodePacket
  rw [taken]
  show (if !receiver.addresses.isForUs sender.addresses.dest then _ else _) = _
  rw [hears.forUs]
  show (receiver.cipher.openBlock (ReedSolomon.message (ReedSolomon.encode block)) >>= _) = _
  rw [message_encode, hears.cipher_eq, opened]
  show (Command.unpackList (sender.cipher.pad plaintext) >>= _) = _
  cases Command.unpackList (sender.cipher.pad plaintext) <;> rfl

/-- **A packet arrives** as the plaintext that was sent, filled with zeros. -/
theorem Hears.decodePacket (hears : Hears receiver sender) {plaintext : List UInt8}
    (fits : plaintext.length ≤ sender.capacity) (iv : Block 16) :
    ∃ frame, sender.encodePacket plaintext iv = .ok frame ∧ receiver.decodePacket frame =
      (Command.unpackList (sender.cipher.pad plaintext)).map Decoded.commands := by
  obtain ⟨block, shut, opened⟩ := Cipher.Context.openBlock_sealBlock iv fits
  obtain ⟨frame, sent, taken⟩ :=
    deframe_stuffed sender.addresses.header {} (isCodeword_encode block) (by decide) (by decide)
  refine ⟨frame, ?_, hears.decodePacket_of_deframe taken opened⟩
  unfold encodePacket
  rw [shut]
  exact sent

/-! ## 3. Commands -/

/-- **Commands that fit a frame arrive** as they are, in their order. -/
theorem Hears.decodePacket_commands (hears : Hears receiver sender) {commands : List Command}
    (fits : Command.totalLength commands ≤ sender.capacity) (iv : Block 16) :
    ∃ frame, sender.encodeCommands commands iv = .ok frame ∧
      receiver.decodePacket frame = .ok (.commands commands) := by
  have room : Command.totalLength commands ≤
      (List.replicate sender.capacity (0 : UInt8)).length := by
    rw [List.length_replicate]
    exact fits
  have packed := Command.packList_of_le room
  have len := Command.length_packedAll commands
  have fits' : (Command.packedAll commands).length ≤ sender.capacity := by
    rw [len]
    exact fits
  obtain ⟨frame, sent, taken⟩ := hears.decodePacket fits' iv
  refine ⟨frame, ?_, ?_⟩
  · unfold encodeCommands
    rw [packed]
    dsimp only
    rw [List.take_left' len]
    exact sent
  · rw [taken]
    unfold Cipher.Context.pad
    rw [Command.unpackList_packedAll]
    rfl

/-- Commands that fit a frame are encoded, whoever receives them. -/
theorem exists_commands (f : Flow) {commands : List Command}
    (fits : Command.totalLength commands ≤ f.capacity) (iv : Block 16) :
    ∃ frame, f.encodeCommands commands iv = .ok frame := by
  have hears : Hears ⟨f.cipher, ⟨f.addresses.dest, f.addresses.src⟩⟩ f :=
    ⟨rfl, f.addresses.dest.sameStation_self⟩
  obtain ⟨frame, sent, -⟩ := hears.decodePacket_commands fits iv
  exact ⟨frame, sent⟩

/-- Commands that do not fit a frame are refused. -/
theorem encodeCommands_of_lt {f : Flow} {commands : List Command}
    (exceeds : f.capacity < Command.totalLength commands) (iv : Block 16) :
    ∃ needed, f.encodeCommands commands iv = .error (.bufferTooSmall needed f.capacity) := by
  have room : (List.replicate f.capacity (0 : UInt8)).length < Command.totalLength commands := by
    rw [List.length_replicate]
    exact exceeds
  obtain ⟨needed, refused⟩ := Command.packList_of_lt room
  rw [List.length_replicate] at refused
  refine ⟨needed, ?_⟩
  unfold encodeCommands
  cases e : Command.packList (List.replicate f.capacity 0) commands with
  | mk outcome payload =>
      rw [e] at refused
      cases refused
      rfl

/-- The frame of a list of commands is the stuffed frame of a codeword. -/
theorem exists_block_of_encodeCommands {f : Flow} {commands : List Command} {iv : Block 16}
    {frame : List UInt8} (h : f.encodeCommands commands iv = .ok frame) :
    Command.totalLength commands ≤ f.capacity ∧
      ∃ block, f.cipher.sealBlock (Command.packedAll commands) iv = .ok block ∧ frame =
        flagged (stuffedBody (infoFrame f.addresses.header {} (ReedSolomon.encode block))) := by
  by_cases fits : Command.totalLength commands ≤ f.capacity
  · have room : Command.totalLength commands ≤ (List.replicate f.capacity (0 : UInt8)).length := by
      rw [List.length_replicate]
      exact fits
    have len := Command.length_packedAll commands
    unfold encodeCommands at h
    rw [Command.packList_of_le room] at h
    dsimp only at h
    rw [List.take_left' len] at h
    obtain ⟨block, shut, stuffed⟩ := bind_eq_ok_iff.mp h
    rw [stuffFrame_eq (hasFlags_infoFrame ..) (by rw [length_infoFrame]; decide)] at stuffed
    exact ⟨fits, block, shut, (Except.ok.inj stuffed).symm⟩
  · obtain ⟨needed, refused⟩ := encodeCommands_of_lt (Nat.lt_of_not_le fits) iv
    rw [refused] at h
    cases h

theorem deframe_of_encodeCommands {f : Flow} {commands : List Command} {iv : Block 16}
    {frame : List UInt8} (sent : f.encodeCommands commands iv = .ok frame) :
    ∃ info, deframe frame = .ok (.data f.addresses.header {} info) := by
  obtain ⟨-, block, -, rfl⟩ := exists_block_of_encodeCommands sent
  obtain ⟨stuffed, whole, taken⟩ :=
    deframe_stuffed f.addresses.header {} (isCodeword_encode block) (by decide) (by decide)
  rw [stuffFrame_eq (hasFlags_infoFrame ..) (by rw [length_infoFrame]; decide)] at whole
  cases whole
  exact ⟨_, taken⟩

/-! ## 4. Connection control -/

/-- The frame of a connection-control command. -/
theorem encodeControl_eq (f : Flow) (command : Control) (pollFinal : Bool) :
    f.encodeControl command pollFinal =
      .ok (flagged (stuffedBody (controlFrame f.addresses.header command pollFinal))) :=
  stuffFrame_eq (hasFlags_controlFrame ..) (by rw [length_controlFrame]; decide)

theorem exists_control (f : Flow) (command : Control) (pollFinal : Bool) :
    ∃ frame, f.encodeControl command pollFinal = .ok frame :=
  ⟨_, f.encodeControl_eq command pollFinal⟩

theorem deframe_of_encodeControl {command : Control} {pollFinal : Bool} {frame : List UInt8}
    (sent : sender.encodeControl command pollFinal = .ok frame) :
    deframe frame = .ok (.control sender.addresses.header command pollFinal) := by
  rw [encodeControl_eq] at sent
  cases sent
  have len := length_controlFrame sender.addresses.header command pollFinal
  rw [deframe_of_unstuffFrame (unstuffFrame_stuffed (hasFlags_controlFrame ..)
    (by rw [len]; decide))]
  exact receive_corrected_eq_control_iff.mpr rfl

/-- **A connection-control command arrives** as it was sent. -/
theorem Hears.decodePacket_control (hears : Hears receiver sender) {command : Control}
    {pollFinal : Bool} {frame : List UInt8}
    (sent : sender.encodeControl command pollFinal = .ok frame) :
    receiver.decodePacket frame = .ok (.control command pollFinal) := by
  unfold Flow.decodePacket
  rw [deframe_of_encodeControl sent]
  show (if !receiver.addresses.isForUs sender.addresses.dest then _ else _) = _
  rw [hears.forUs]
  rfl

/-! ## 5. The two ends of a configuration -/

theorem ofConfig_eq_ok_iff {c : Config} {station : Station} {f : Flow} :
    ofConfig c station = .ok f ↔
      f.cipher = c.cipher ∧ c.linkAddresses station = .ok f.addresses := by
  unfold ofConfig
  rw [bind_eq_ok_iff]
  constructor
  · rintro ⟨addresses, h, e⟩
    cases e
    exact ⟨rfl, h⟩
  · rintro ⟨same, h⟩
    exact ⟨_, h, by rw [← same]; rfl⟩

/-- **Under one configuration each station is heard by the other.** -/
theorem hears_of_ofConfig {c : Config} {station : Station} {sender receiver : Flow}
    (hsender : ofConfig c station = .ok sender)
    (hreceiver : ofConfig c station.peer = .ok receiver) :
    sender.cipher = c.cipher ∧ Hears receiver sender := by
  obtain ⟨same, there⟩ := ofConfig_eq_ok_iff.mp hsender
  obtain ⟨same', here⟩ := ofConfig_eq_ok_iff.mp hreceiver
  obtain ⟨_, here', -, forUs⟩ := Config.exists_linkAddresses_peer there
  cases here.symm.trans here'
  exact ⟨same, same'.trans same.symm, forUs⟩

/-- **Under a valid configuration the satellite hears the ground.** -/
theorem exists_hears {c : Config} (valid : c.validate = .ok ()) :
    ∃ ground satellite, ofConfig c .groundStation = .ok ground ∧
      ofConfig c .cubesat = .ok satellite ∧
      ground.cipher = c.cipher ∧ Hears satellite ground := by
  obtain ⟨a, here⟩ := c.exists_linkAddresses_of_validate valid
  obtain ⟨b, there, -⟩ := Config.exists_linkAddresses_peer here
  have hground : ofConfig c .groundStation = .ok ⟨c.cipher, b⟩ :=
    ofConfig_eq_ok_iff.mpr ⟨rfl, there⟩
  have hsatellite : ofConfig c .cubesat = .ok ⟨c.cipher, a⟩ := ofConfig_eq_ok_iff.mpr ⟨rfl, here⟩
  exact ⟨_, _, hground, hsatellite, hears_of_ofConfig hground hsatellite⟩

end Flow

/-- **What the ground encodes the satellite decodes**, for every configuration a link can be run
    with: commands are encoded exactly when their packed lengths fit the capacity of the mode, and
    arrive as they are; any other plaintext arrives filled with zeros. -/
theorem satellite_decodes (c : Config) (valid : c.validate = .ok ()) (iv : Block 16) :
    ∃ ground satellite, Flow.ofConfig c .groundStation = .ok ground ∧
      Flow.ofConfig c .cubesat = .ok satellite ∧
      (∀ commands, Command.totalLength commands ≤ c.cipher.capacity →
        ∃ frame, ground.encodeCommands commands iv = .ok frame ∧
          satellite.decodePacket frame = .ok (.commands commands)) ∧
      (∀ commands, c.cipher.capacity < Command.totalLength commands →
        ∃ needed, ground.encodeCommands commands iv =
          .error (.bufferTooSmall needed c.cipher.capacity)) ∧
      ∀ plaintext, plaintext.length ≤ c.cipher.capacity →
        ∃ frame, ground.encodePacket plaintext iv = .ok frame ∧ satellite.decodePacket frame =
          (Command.unpackList (c.cipher.pad plaintext)).map Decoded.commands := by
  obtain ⟨ground, satellite, hground, hsatellite, same, hears⟩ := Flow.exists_hears valid
  rw [← same]
  refine ⟨ground, satellite, hground, hsatellite, ?_, ?_, ?_⟩
  · intro commands fits
    exact hears.decodePacket_commands fits iv
  · intro commands exceeds
    exact Flow.encodeCommands_of_lt exceeds iv
  · intro plaintext fits
    exact hears.decodePacket fits iv

/-- Under the standard settings a ping and a scheduled clock setting arrive. -/
theorem satellite_decodes_ping :
    let commands := [Command.immediate .ping, Command.scheduled (.rtcSync 1700000000) 60]
    Config.standard.validate = .ok () ∧ ∃ ground satellite frame,
      Flow.ofConfig .standard .groundStation = .ok ground ∧
      Flow.ofConfig .standard .cubesat = .ok satellite ∧
      ground.encodeCommands commands (Block.zero 16) = .ok frame ∧
      satellite.decodePacket frame = .ok (.commands commands) := by
  intro commands
  have valid : Config.standard.validate = .ok () := by decide +kernel
  obtain ⟨ground, satellite, hground, hsatellite, arrive, -⟩ :=
    satellite_decodes .standard valid (Block.zero 16)
  obtain ⟨frame, sent, taken⟩ := arrive commands (by decide)
  exact ⟨valid, ground, satellite, frame, hground, hsatellite, sent, taken⟩

end SatLink.Uplink
