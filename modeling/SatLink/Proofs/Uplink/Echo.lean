import SatLink.Proofs.Uplink.RoundTrip

/-!
# A station and its own frames

The channel is half duplex, and a station may hear what it has just sent. Its frames are for the
other end, so it drops them, provided that the two ends are not one:

* `decodePacket_of_other` — a frame for another station is dropped, whatever it holds;
* `own_frames` — a station drops its own frames where the two callsigns differ, and otherwise takes
  them for those of the other end.

That the callsigns differ is up to whoever writes the configuration: none is refused because they
are one (`own_frame_taken`).
-/

namespace SatLink.Uplink.Flow

open SatLink.Frame (Control Received)

variable {f : Flow} {frame : List UInt8}

/-- **A frame for another station is dropped.** -/
theorem decodePacket_of_other {received : Received} (taken : deframe frame = .ok received)
    (other : f.addresses.isForUs received.header.dest = false) :
    f.decodePacket frame = .error (.frame .otherStation) := by
  unfold Flow.decodePacket
  rw [taken]
  show (if !f.addresses.isForUs received.header.dest then _ else _) = _
  rw [other]
  rfl

/-- **What a station makes of its own frames**, for every configuration a link can be run with and
    either station: it drops them as another's, unless the two callsigns are one; then it takes them
    as if the other end had sent them. -/
theorem own_frames (c : Config) (valid : c.validate = .ok ()) (station : Station) :
    ∃ f, ofConfig c station = .ok f ∧
      (∀ commands iv frame, f.encodeCommands commands iv = .ok frame →
        (¬ c.OneCallsign → f.decodePacket frame = .error (.frame .otherStation)) ∧
        (c.OneCallsign → f.decodePacket frame = .ok (.commands commands))) ∧
      ∀ command pollFinal frame, f.encodeControl command pollFinal = .ok frame →
        (¬ c.OneCallsign → f.decodePacket frame = .error (.frame .otherStation)) ∧
        (c.OneCallsign → f.decodePacket frame = .ok (.control command pollFinal)) := by
  obtain ⟨addresses, here⟩ := Config.exists_linkAddresses valid station
  have other : ¬ c.OneCallsign → addresses.isForUs addresses.dest = false := by
    intro differ
    exact Bool.eq_false_iff.mpr fun own => differ ((Config.isForUs_dest_iff here).mp own)
  have hears : c.OneCallsign → Hears ⟨c.cipher, addresses⟩ ⟨c.cipher, addresses⟩ := by
    intro one
    exact ⟨rfl, (Config.isForUs_dest_iff here).mpr one⟩
  refine ⟨⟨c.cipher, addresses⟩, ofConfig_eq_ok_iff.mpr ⟨rfl, here⟩, ?_, ?_⟩
  · intro commands iv frame sent
    constructor
    · intro differ
      obtain ⟨info, taken⟩ := deframe_of_encodeCommands sent
      exact decodePacket_of_other taken (other differ)
    · intro one
      obtain ⟨fits, -⟩ := exists_block_of_encodeCommands sent
      obtain ⟨frame', sent', taken⟩ := (hears one).decodePacket_commands fits iv
      cases sent.symm.trans sent'
      exact taken
  · intro command pollFinal frame sent
    constructor
    · intro differ
      exact decodePacket_of_other (deframe_of_encodeControl sent) (other differ)
    · intro one
      exact (hears one).decodePacket_control sent

/-- Under the standard settings the satellite drops a ping and an acknowledgement of its own. Where
    the two callsigns are one but for a space, the ground station takes its own ping. -/
theorem own_frames_of_either_end : Config.standard.validate = .ok () ∧
    ¬ Config.standard.OneCallsign ∧
    (∃ f ping ack, ofConfig .standard .cubesat = .ok f ∧
      f.encodeCommands [.immediate .ping] (Block.zero 16) = .ok ping ∧
      f.decodePacket ping = .error (.frame .otherStation) ∧
      f.encodeControl .ack true = .ok ack ∧
      f.decodePacket ack = .error (.frame .otherStation)) ∧
    let c : Config := { cubesatCallsign := "AKITO", groundStationCallsign := "AKITO " }
    c.validate = .ok () ∧ c.OneCallsign ∧ ∃ f ping, ofConfig c .groundStation = .ok f ∧
      f.encodeCommands [.immediate .ping] (Block.zero 16) = .ok ping ∧
      f.decodePacket ping = .ok (.commands [.immediate .ping]) := by
  have fits : Command.totalLength [.immediate .ping] ≤ Config.standard.cipher.capacity := by decide
  have valid : Config.standard.validate = .ok () := by decide +kernel
  have differ : ¬ Config.standard.OneCallsign := by unfold Config.OneCallsign; decide +kernel
  refine ⟨valid, differ, ?_, ?_⟩
  · obtain ⟨f, hf, commands, controls⟩ := own_frames .standard valid .cubesat
    obtain ⟨same, -⟩ := ofConfig_eq_ok_iff.mp hf
    obtain ⟨ping, sent⟩ := f.exists_commands (same ▸ fits) (Block.zero 16)
    obtain ⟨ack, acknowledged⟩ := f.exists_control .ack true
    exact ⟨f, ping, ack, hf, sent, (commands _ _ _ sent).1 differ, acknowledged,
      (controls _ _ _ acknowledged).1 differ⟩
  · intro c
    have valid : c.validate = .ok () := by decide +kernel
    have one : c.OneCallsign := by unfold Config.OneCallsign; decide +kernel
    obtain ⟨f, hf, commands, -⟩ := own_frames c valid .groundStation
    obtain ⟨same, -⟩ := ofConfig_eq_ok_iff.mp hf
    obtain ⟨ping, sent⟩ := f.exists_commands (same ▸ fits) (Block.zero 16)
    exact ⟨valid, one, f, ping, hf, sent, (commands _ _ _ sent).2 one⟩

/-- **A station may take its own frames for those of the other end.** These settings pass,
    although the two callsigns are one but for a space, and the satellite is asked for a
    connection by itself. -/
theorem own_frame_taken :
    let c : Config := { cubesatCallsign := "AKITO", groundStationCallsign := "AKITO " }
    c.validate = .ok () ∧ ∃ f frame, ofConfig c .cubesat = .ok f ∧
      f.encodeControl .conn true = .ok frame ∧
      f.decodePacket frame = .ok (.control .conn true) ∧
      f.decodePacket frame ≠ .error (.frame .otherStation) := by
  intro c
  have valid : c.validate = .ok () := by decide +kernel
  have one : c.OneCallsign := by unfold Config.OneCallsign; decide +kernel
  obtain ⟨addresses, here⟩ := Config.exists_linkAddresses valid .cubesat
  have hears : Hears ⟨c.cipher, addresses⟩ ⟨c.cipher, addresses⟩ :=
    ⟨rfl, (Config.isForUs_dest_iff here).mpr one⟩
  obtain ⟨frame, sent⟩ := exists_control ⟨c.cipher, addresses⟩ .conn true
  have taken := hears.decodePacket_control sent
  exact ⟨valid, _, frame, ofConfig_eq_ok_iff.mpr ⟨rfl, here⟩, sent, taken, by rw [taken]; nofun⟩

end SatLink.Uplink.Flow
