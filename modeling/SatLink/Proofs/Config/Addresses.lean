import SatLink.Config.Basic
import SatLink.Proofs.Frame.Address
import SatLink.Proofs.Outcome

/-!
# The addresses of the two ends

Under one configuration the two stations have addresses either both or neither, and each station is
the one that the frames of the other are for. It is the one that its own frames are for as well, if
the two callsigns are one (`isForUs_dest_iff`), which no check of a configuration excludes. A
configuration that a link can be run with has addresses, and queues with some room.
-/

namespace SatLink

open SatLink.Frame (Address)

namespace Config

variable {c : Config} {station : Station} {a b : LinkAddresses}

/-- The source is the station itself, the destination the other end. -/
theorem linkAddresses_eq_ok_iff : c.linkAddresses station = .ok a ↔
    Address.source (c.callsign station) c.ssid false = .ok a.src ∧
      Address.destination (c.callsign station.peer) c.ssid false = .ok a.dest := by
  unfold linkAddresses
  rw [bind_eq_ok_iff]
  constructor
  · rintro ⟨src, hsrc, rest⟩
    obtain ⟨dest, hdest, e⟩ := bind_eq_ok_iff.mp rest
    cases e
    exact ⟨mapError_eq_ok_iff.mp hsrc, mapError_eq_ok_iff.mp hdest⟩
  · rintro ⟨hsrc, hdest⟩
    exact ⟨_, mapError_eq_ok_iff.mpr hsrc,
      bind_eq_ok_iff.mpr ⟨_, mapError_eq_ok_iff.mpr hdest, rfl⟩⟩

/-- **If one end has addresses, so has the other**, and each is the station the other one
    sends to. -/
theorem exists_linkAddresses_peer (h : c.linkAddresses station = .ok a) :
    ∃ b, c.linkAddresses station.peer = .ok b ∧ a.isForUs b.dest = true ∧
      b.isForUs a.dest = true := by
  obtain ⟨hsrc, hdest⟩ := linkAddresses_eq_ok_iff.mp h
  obtain ⟨src, peerSrc⟩ : ∃ src, Address.source (c.callsign station.peer) c.ssid false = .ok src :=
    ⟨_, Address.make_eq_ok_iff.mpr ⟨(Address.make_eq_ok_iff.mp hdest).1, rfl⟩⟩
  obtain ⟨dest, peerDest⟩ :
      ∃ dest, Address.destination (c.callsign station) c.ssid false = .ok dest :=
    ⟨_, Address.make_eq_ok_iff.mpr ⟨(Address.make_eq_ok_iff.mp hsrc).1, rfl⟩⟩
  refine ⟨⟨src, dest⟩, linkAddresses_eq_ok_iff.mpr ⟨peerSrc, ?_⟩, ?_, ?_⟩
  · rw [Station.peer_peer]
    exact peerDest
  · exact Address.sameStation_of_make peerDest hsrc
  · exact Address.sameStation_of_make hdest peerSrc

/-- The two stations have one callsign, up to spaces at the end. -/
def OneCallsign (c : Config) : Prop :=
  Address.trimmed c.cubesatCallsign.toList = Address.trimmed c.groundStationCallsign.toList

/-- **A station is the one that it sends to** where the callsigns are one. -/
theorem isForUs_dest_iff (h : c.linkAddresses station = .ok a) :
    a.isForUs a.dest = true ↔ c.OneCallsign := by
  obtain ⟨hsrc, hdest⟩ := linkAddresses_eq_ok_iff.mp h
  unfold LinkAddresses.isForUs OneCallsign
  rw [Address.sameStation_iff_of_make hdest hsrc, and_iff_right rfl]
  cases station with
  | cubesat => exact eq_comm
  | groundStation => exact Iff.rfl

/-- A configuration that passes has addresses for the satellite. -/
theorem exists_linkAddresses_of_validate (valid : c.validate = .ok ()) :
    ∃ a, c.linkAddresses .cubesat = .ok a := by
  unfold validate at valid
  obtain ⟨a, h, _⟩ := bind_eq_ok_iff.mp valid
  exact ⟨a, h⟩

/-- It has addresses for either station. -/
theorem exists_linkAddresses (valid : c.validate = .ok ()) (station : Station) :
    ∃ a, c.linkAddresses station = .ok a := by
  obtain ⟨a, h⟩ := exists_linkAddresses_of_validate valid
  cases station with
  | cubesat => exact ⟨a, h⟩
  | groundStation =>
      obtain ⟨b, there, -⟩ := exists_linkAddresses_peer h
      exact ⟨b, there⟩

/-- The queues of a configuration that passes have room. -/
theorem rooms_of_validate (valid : c.validate = .ok ()) :
    0 < c.rxBurstSize ∧ 0 < c.transmitQueueLength ∧ 0 < c.eventQueueLength := by
  unfold validate at valid
  obtain ⟨_, -, rest⟩ := bind_eq_ok_iff.mp valid
  by_cases empty : c.rxBurstSize = 0 ∨ c.transmitQueueLength = 0 ∨ c.eventQueueLength = 0
  · rw [if_pos empty] at rest
    cases rest
  · omega

end Config

end SatLink
