/-
  Protocol/WireCodec.lean --- the six frame codecs as one wire format.

  Source: crates/pim-protocol/src/transport_frame.rs, data_frame.rs,
  route_frame.rs, heartbeat_frame.rs, handshake_frame.rs and control_frame.rs.

  A codec has two halves.  `RoundTrips` is the writer's: what was encoded comes
  back, and nothing behind it is touched, so frames may stand one behind the
  other.  `Canonical` is the reader's, about every buffer and not only about
  encodings: no panic, no bytes lost on an error, and a frame that is accepted
  was there in its only spelling.

  The one exception is the top bit of the flags byte of a data frame, which no
  flag is assigned to: `encode` writes it and `decode` clears it.
-/
import ProximityMesh.Protocol.TransportFrame
import ProximityMesh.Protocol.DataFrame
import ProximityMesh.Protocol.RouteFrame
import ProximityMesh.Protocol.LinkFrames

set_option autoImplicit false

namespace ProximityMesh.Protocol

open FrameCodec MeshDataFrame ControlFrame Canonical

/-! ## Round trips -/

/-- A data frame comes back unless it sets the undefined flag. -/
theorem roundTrips_iff {frame : MeshDataFrame} (h : frame.payload.length < 65536) :
    RoundTrips frame ↔ DataFlags.fromBitsTruncate frame.flags.bits = frame.flags := by
  constructor
  · intro hround
    have hok := (decode_encode_append h []).symm.trans (hround [])
    exact congrArg flags (EStateM.Result.ok.inj hok).1
  · intro hflags rest
    have hok := decode_encode_append h rest
    rw [hflags] at hok
    exact hok

/-- Every frame within the limits of its layout survives the wire, whatever stands
behind it. -/
theorem wire_frames_round_trip :
    (∀ frame : TransportFrame, frame.payload.length ≤ maxPayloadSize → RoundTrips frame) ∧
    (∀ frame : MeshDataFrame, frame.payload.length ≤ 65535 →
      DataFlags.fromBitsTruncate frame.flags.bits = frame.flags → RoundTrips frame) ∧
    (∀ frame : RouteUpdateFrame, frame.entries.length ≤ RouteUpdateFrame.maxEntries →
      RoundTrips frame) ∧
    (∀ frame : HeartbeatFrame, RoundTrips frame) ∧
    (∀ frame : HandshakeWireFrame, frame.Announced → RoundTrips frame) ∧
    (∀ frame : ControlFrame, frame.Fits → RoundTrips frame) := by
  refine ⟨?_, ?_, ?_, ?_, ?_, ?_⟩
  · intro frame h rest
    exact TransportFrame.decode_encode_append h rest
  · intro frame h hflags
    exact (roundTrips_iff (Nat.lt_succ_of_le h)).mpr hflags
  · intro frame h rest
    exact RouteUpdateFrame.decode_encode_append h rest
  · intro frame rest
    exact HeartbeatFrame.decode_encode_append frame rest
  · intro frame h rest
    exact HandshakeWireFrame.decode_encode_append h rest
  · intro frame h rest
    exact decode_encode_append h rest

/-- An empty data frame under the given flags. -/
def MeshDataFrame.flagged (flags : DataFlags) : MeshDataFrame where
  srcId := ⟨Octets.zero 16⟩
  dstId := ⟨Octets.zero 16⟩
  sessionId := 0
  ttl := 8
  flags := flags
  payload := []

/-- A control frame with a name comes back in front of other bytes. -/
theorem peerInfo_round_trips :
    (ControlFrame.peerInfo (Octets.zero 32) "relay").Fits ∧
      ControlFrame.decode ((ControlFrame.peerInfo (Octets.zero 32) "relay").encode ++ [7, 7]) =
        .ok (.peerInfo (Octets.zero 32) "relay") [7, 7] := by
  have hfits : (peerInfo (Octets.zero 32) "relay").Fits := by
    show (utf8 "relay").length ≤ 255
    rw [utf8_eq]
    decide
  exact ⟨hfits, wire_frames_round_trip.2.2.2.2.2 _ hfits [7, 7]⟩

/-- A frame whose flags were built with an undefined bit loses it. -/
theorem undefined_flag_lost :
    (MeshDataFrame.flagged ⟨0b10000000⟩).payload.length ≤ 65535 ∧
      ¬ RoundTrips (MeshDataFrame.flagged ⟨0b10000000⟩) := by
  refine ⟨by decide, ?_⟩
  rw [roundTrips_iff (by decide)]
  decide

/-! ## Canonical decoders -/

/-- On every byte string the decoders are safe and accept only canonical encodings. -/
theorem wire_decoders_canonical :
    Canonical TransportFrame id ∧ Canonical MeshDataFrame MeshDataFrame.clearUndefinedFlag ∧
      Canonical RouteUpdateFrame id ∧ Canonical HeartbeatFrame id ∧
      Canonical HandshakeWireFrame id ∧ Canonical ControlFrame id := by
  refine ⟨?_, ?_, ?_, ?_, ?_, ?_⟩
  · exact of_ensures TransportFrame.decode_ensures
  · exact of_ensures decode_ensures
  · exact of_ensures RouteUpdateFrame.decode_ensures
  · exact of_ensures HeartbeatFrame.decode_ensures
  · exact of_ensures HandshakeWireFrame.decode_ensures
  · exact of_ensures decode_ensures

end ProximityMesh.Protocol
