/-
  Protocol/TransportFrame.lean --- the outer frame on a direct peer link.

  Source: crates/pim-protocol/src/frame_type.rs,
  crates/pim-protocol/src/transport_frame.rs.

  The 20-byte header (magic, version, type, payload length, nonce) travels in
  clear; the payload and the tag are what the session cipher produced.
  `clearHeader` is the first 20 bytes of the encoding, what an observer of the
  link reads without a key, and `clearHeader_inj_iff` says what two frames of
  one type and length can differ in there.
-/
import ProximityMesh.Core.Types

set_option autoImplicit false

namespace ProximityMesh.Protocol

open List

/-- The type of payload inside a `TransportFrame`. -/
inductive FrameType where
  | handshake
  | data
  | routeUpdate
  | heartbeat
  | control
  | fragment
  deriving DecidableEq, Repr

namespace FrameType

/-- The wire tag. -/
def toU8 : FrameType → UInt8
  | handshake => 0x01
  | data => 0x02
  | routeUpdate => 0x03
  | heartbeat => 0x04
  | control => 0x05
  | fragment => 0x06

/-- Decode a raw frame-type tag from the wire. -/
def fromU8 (value : UInt8) : Except PimError FrameType :=
  match value with
  | 0x01 => .ok handshake
  | 0x02 => .ok data
  | 0x03 => .ok routeUpdate
  | 0x04 => .ok heartbeat
  | 0x05 => .ok control
  | 0x06 => .ok fragment
  | other => .error (.protocol ("unknown frame type: 0x" ++ hex false 2 other.toNat))

end FrameType

/-- Magic bytes "PM". -/
def magic : UInt16 := 0x504D

/-- Current protocol version. -/
def version : UInt8 := 1

/-- Maximum payload size (1 MB). -/
def maxPayloadSize : Nat := 1048576

/-- The outermost frame on the wire between directly connected peers. -/
structure TransportFrame where
  frameType : FrameType
  nonce : Octets 12
  payload : Bytes
  tag : Octets 16
  deriving DecidableEq

namespace TransportFrame

/-- magic(2) + version(1) + frame_type(1) + length(4) + nonce(12). -/
def headerSize : Nat := 20

def tagSize : Nat := 16

/-- The bytes of a frame; the length field is the payload length cast to `u32`. -/
def encode (frame : TransportFrame) : Bytes :=
  beBytes 2 magic.toNat ++ [version] ++ [frame.frameType.toU8] ++
    beBytes 4 frame.payload.length ++ frame.nonce.toList ++ frame.payload ++ frame.tag.toList

/-- Decode one frame from the front of the buffer. -/
def decode : BufM PimError TransportFrame := do
  if (← BufM.len) < headerSize then
    BufM.fail (.protocol "frame too short for header")
  let m ← BufM.getBe 0 2
  if m ≠ magic.toNat then
    BufM.fail (.protocol ("invalid magic: 0x" ++ hex true 4 m ++ ", expected 0x" ++
      hex true 4 magic.toNat))
  let v ← BufM.index 2
  if v ≠ version then
    BufM.fail (.protocol ("unsupported version: " ++ toString v.toNat ++ ", expected " ++
      toString version.toNat))
  let frameType ← BufM.liftExcept (FrameType.fromU8 (← BufM.index 3))
  let length ← BufM.getBe 4 4
  if length > maxPayloadSize then
    BufM.fail (.protocol ("payload too large: " ++ toString length ++ " bytes, max " ++
      toString maxPayloadSize))
  let totalSize := headerSize + length + tagSize
  if (← BufM.len) < totalSize then
    BufM.fail (.protocol ("frame truncated: need " ++ toString totalSize ++ " bytes, have " ++
      toString (← BufM.len)))
  let nonce ← BufM.octets 8 12
  BufM.advance headerSize
  let payload ← BufM.splitTo length
  let tag ← BufM.octets 0 tagSize
  BufM.advance tagSize
  return { frameType, nonce, payload, tag }

instance : FrameCodec TransportFrame := ⟨encode, decode⟩

theorem length_encode (frame : TransportFrame) :
    frame.encode.length = headerSize + frame.payload.length + tagSize := by
  simp only [encode, headerSize, tagSize, length_append, List.Vector.toList_length,
    length_beBytes, length_singleton]

theorem fromU8_toU8 (frameType : FrameType) : FrameType.fromU8 frameType.toU8 = .ok frameType := by
  cases frameType <;> rfl

theorem toU8_of_fromU8 {v : UInt8} {frameType : FrameType}
    (h : FrameType.fromU8 v = .ok frameType) : frameType.toU8 = v := by
  unfold FrameType.fromU8 at h
  split at h <;> cases h <;> rfl

theorem decode_encode_append {frame : TransportFrame} (h : frame.payload.length ≤ maxPayloadSize)
    (rest : Bytes) : decode (frame.encode ++ rest) = .ok frame rest := by
  obtain ⟨frameType, nonce, payload, tag⟩ := frame
  have hmagic : beNat (beBytes 2 magic.toNat) = magic.toNat := by
    rfl
  have hcount : beNat (beBytes 4 payload.length) = payload.length := by
    rw [beNat_beBytes]
    exact Nat.mod_eq_of_lt (Nat.lt_of_le_of_lt h (by decide))
  rw [BufM.eq_ok_iff_ensures]
  unfold decode
  simp +arith [encode, headerSize, tagSize, hmagic, hcount, h, fromU8_toU8]

theorem decode_encode {frame : TransportFrame} (h : frame.payload.length ≤ maxPayloadSize) :
    decode frame.encode = .ok frame [] := by
  simpa using decode_encode_append h []

theorem toU8_inj {a b : FrameType} (h : a.toU8 = b.toU8) : a = b := by
  have hdecode := congrArg FrameType.fromU8 h
  rw [fromU8_toU8, fromU8_toU8] at hdecode
  exact Except.ok.inj hdecode

/-- Two frames with one encoding are one frame, however long they are: the length of
the payload is that of the encoding without header and tag. -/
theorem encode_inj {f g : TransportFrame} (h : f.encode = g.encode) : f = g := by
  have hlength : f.payload.length = g.payload.length := by
    have hlen := congrArg length h
    rw [length_encode, length_encode] at hlen
    omega
  unfold encode at h
  rw [hlength] at h
  obtain ⟨h, htag⟩ := append_inj' h (by simp)
  obtain ⟨h, hpayload⟩ := append_inj' h hlength
  obtain ⟨h, hnonce⟩ := append_inj' h (by simp)
  rw [append_cancel_right_eq] at h
  obtain ⟨-, htype⟩ := append_inj' h rfl
  rw [mk.injEq]
  exact ⟨toU8_inj (cons.inj htype).1, Octets.ext hnonce, hpayload, Octets.ext htag⟩

/-- A frame is read off its own encoding; an error leaves the buffer alone. -/
theorem decode_ensures (buf : Bytes) :
    BufM.Ensures decode buf (fun frame rest => buf = frame.encode ++ rest)
      fun f buf' => f ≠ .panic ∧ buf' = buf := by
  by_cases hlen : buf.length < 20
  · simp [decode, headerSize, Nat.not_le.mpr hlen]
  · have hle : ∀ k, k ≤ 20 → k ≤ buf.length := by omega
    have hlt : ∀ k, k < 20 → k < buf.length := by omega
    simp [decode, headerSize, tagSize, hle, hlt]
    intro hmagic hversion frameType htype hmax htotal
    have hpayload : beNat (window buf 4 4) ≤ buf.length - 20 := by omega
    have htag : 16 ≤ buf.length - (20 + beNat (window buf 4 4)) := by omega
    have hcount : beBytes 4 (beNat (window buf 4 4)) = window buf 4 4 :=
      beBytes_beNat (length_window (hle 8 (by decide)))
    have hmagic' : beBytes 2 magic.toNat = window buf 0 2 := by
      rw [← hmagic, beBytes_beNat (length_window (hle 2 (by decide)))]
    refine ⟨fun _ => ⟨fun _ => ⟨fun _ => ?_, htag⟩, htag⟩, hpayload⟩
    simp (disch := omega) [encode, hcount, hmagic', ← hversion, toU8_of_fromU8 htype,
      length_window, window_drop, take_drop]

/-! ## What travels in clear -/

/-- The bytes of a frame that an observer of the link reads without a key. -/
def clearHeader (frame : TransportFrame) : Bytes := frame.encode.take headerSize

theorem clearHeader_eq (frame : TransportFrame) :
    frame.clearHeader =
      beBytes 2 magic.toNat ++ [version] ++ [frame.frameType.toU8] ++
        beBytes 4 frame.payload.length ++ frame.nonce.toList := by
  unfold clearHeader encode
  rw [append_assoc _ frame.payload]
  exact take_left' (by simp [headerSize])

/-- Frames of one type and length differ in clear exactly in their nonces. -/
theorem clearHeader_inj_iff {f g : TransportFrame} (htype : f.frameType = g.frameType)
    (hlength : f.payload.length = g.payload.length) :
    f.clearHeader = g.clearHeader ↔ f.nonce = g.nonce := by
  rw [clearHeader_eq, clearHeader_eq, htype, hlength, append_cancel_left_eq]
  exact ⟨Octets.ext, congrArg List.Vector.toList⟩

end TransportFrame

end ProximityMesh.Protocol
