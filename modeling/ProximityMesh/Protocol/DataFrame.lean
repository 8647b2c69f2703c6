/-
  Protocol/DataFrame.lean --- mesh data frames and their fragments.

  Source: crates/pim-protocol/src/data_frame.rs and fragment_frame.rs.

  A `MeshDataFrame` is what the session of a link encrypts, so every node on the
  path reads it; `decode_encode` says that the next hop gets back exactly what was
  encoded.  A payload above the fragment size travels as the fragments of
  `fragmentPacket`, and `flatten_fragmentPacket` says that their chunks are the
  payload.
-/
import ProximityMesh.Core.Types

set_option autoImplicit false

namespace ProximityMesh.Protocol

open List

/-! ## Mesh data frames -/

/-- Flags on a mesh data frame. -/
structure DataFlags where
  bits : UInt8
  deriving DecidableEq, Repr

namespace DataFlags

def empty : DataFlags := ⟨0⟩

/-- The payload is a serialized fragment. -/
def isFragment : DataFlags := ⟨0b00000001⟩

def isLastFragment : DataFlags := ⟨0b00000010⟩

def requiresAck : DataFlags := ⟨0b00000100⟩

def isAck : DataFlags := ⟨0b00001000⟩

/-- The payload is destined for internet egress via a gateway. -/
def isInternet : DataFlags := ⟨0b00010000⟩

/-- The payload is encrypted end to end to the destination gateway. -/
def isE2e : DataFlags := ⟨0b00100000⟩

/-- The payload carries a mesh-routed control message. -/
def isControl : DataFlags := ⟨0b01000000⟩

def contains (flags other : DataFlags) : Bool := flags.bits &&& other.bits == other.bits

def union (flags other : DataFlags) : DataFlags := ⟨flags.bits ||| other.bits⟩

/-- Unknown bits are dropped. -/
def fromBitsTruncate (bits : UInt8) : DataFlags := ⟨bits &&& 0b01111111⟩

end DataFlags

/-- An IP packet, or a fragment of one, on its way through the mesh. -/
structure MeshDataFrame where
  /-- Original source node for the payload. -/
  srcId : NodeId
  /-- Final destination node for the payload. -/
  dstId : NodeId
  sessionId : UInt32
  /-- Remaining hop budget. -/
  ttl : UInt8
  flags : DataFlags
  payload : Bytes
  deriving DecidableEq

namespace MeshDataFrame

/-- src_id(16) + dst_id(16) + session_id(4) + ttl(1) + flags(1) + payload_len(2). -/
def headerSize : Nat := 40

/-- The bytes of a frame; the length field is the payload length cast to `u16`. -/
def encode (frame : MeshDataFrame) : Bytes :=
  frame.srcId.asBytes.toList ++ frame.dstId.asBytes.toList ++ beBytes 4 frame.sessionId.toNat ++
    [frame.ttl] ++ [frame.flags.bits] ++ beBytes 2 frame.payload.length ++ frame.payload

def decode : BufM PimError MeshDataFrame := do
  if (← BufM.len) < headerSize then
    BufM.fail (.protocol ("data frame too short: need " ++ toString headerSize ++
      " bytes, have " ++ toString (← BufM.len)))
  let srcBytes ← BufM.octets 0 16
  let dstBytes ← BufM.octets 16 16
  let sessionId ← BufM.getBe 32 4
  let ttl ← BufM.index 36
  let flags := DataFlags.fromBitsTruncate (← BufM.index 37)
  let payloadLen ← BufM.getBe 38 2
  let total := headerSize + payloadLen
  if (← BufM.len) < total then
    BufM.fail (.protocol ("data frame truncated: need " ++ toString total ++ " bytes, have " ++
      toString (← BufM.len)))
  BufM.advance headerSize
  let payload ← BufM.splitTo payloadLen
  return { srcId := NodeId.fromBytes srcBytes, dstId := NodeId.fromBytes dstBytes
           sessionId := UInt32.ofNat sessionId, ttl, flags, payload }

instance : FrameCodec MeshDataFrame := ⟨encode, decode⟩

/-- The frame's length fits its length field and it sets no unknown flag. -/
structure Encodable (frame : MeshDataFrame) : Prop where
  payload_lt : frame.payload.length < 65536
  flags_known : DataFlags.fromBitsTruncate frame.flags.bits = frame.flags

theorem length_encode (frame : MeshDataFrame) :
    frame.encode.length = headerSize + frame.payload.length := by
  simp only [encode, headerSize, length_append, List.Vector.toList_length, length_beBytes,
    length_singleton]

variable {frame : MeshDataFrame}

/-- Decoding returns the encoded frame without unknown flags and consumes nothing
behind it. -/
theorem decode_encode_append (h : frame.payload.length < 65536) (rest : Bytes) :
    decode (frame.encode ++ rest) =
      .ok { frame with flags := DataFlags.fromBitsTruncate frame.flags.bits } rest := by
  obtain ⟨⟨src⟩, ⟨dst⟩, sessionId, ttl, flags, payload⟩ := frame
  have hsession : beNat (beBytes 4 sessionId.toNat) = sessionId.toNat := by
    rw [beNat_beBytes]
    exact Nat.mod_eq_of_lt sessionId.toNat_lt
  have hcount : beNat (beBytes 2 payload.length) = payload.length := by
    rw [beNat_beBytes]
    exact Nat.mod_eq_of_lt h
  rw [BufM.eq_ok_iff_ensures]
  unfold decode
  simp +arith [encode, headerSize, NodeId.asBytes, NodeId.fromBytes, hsession, hcount]

theorem decode_encode (h : frame.Encodable) : decode frame.encode = .ok frame [] := by
  have happend := decode_encode_append h.payload_lt []
  rw [append_nil, h.flags_known] at happend
  exact happend

/-- The buffer as `decode` reads it: the undefined top bit of the flags byte is
cleared. -/
def clearUndefinedFlag (buf : Bytes) : Bytes :=
  buf.modify 37 fun bits => (DataFlags.fromBitsTruncate bits).bits

/-- A frame is read off its own encoding, up to the undefined flag; an error leaves
the buffer alone. -/
theorem decode_ensures (buf : Bytes) :
    BufM.Ensures decode buf (fun frame rest => clearUndefinedFlag buf = frame.encode ++ rest)
      fun f buf' => f ≠ .panic ∧ buf' = buf := by
  by_cases hlen : buf.length < 40
  · simp [decode, headerSize, Nat.not_le.mpr hlen]
  · have hle : ∀ k, k ≤ 40 → k ≤ buf.length := by omega
    have hlt : ∀ k, k < 40 → k < buf.length := by omega
    simp [decode, headerSize, hle, hlt]
    intro htotal
    have hpayload : beNat (window buf 38 2) ≤ buf.length - 40 := by omega
    refine ⟨fun _ => ?_, hpayload⟩
    -- the two buffers differ in the flags byte at most
    have hagree : AgreeOutside 37 38 buf (clearUndefinedFlag buf) := agreeOutside_modify ..
    have hflags : byteAt (clearUndefinedFlag buf) 37 =
        (DataFlags.fromBitsTruncate (byteAt buf 37)).bits := byteAt_modify _ (hlt 37 (by decide))
    have hlength : (clearUndefinedFlag buf).length = buf.length := hagree.length_eq
    have hsession : beBytes 4 (beNat (window buf 32 4) % 4294967296) = window buf 32 4 :=
      beBytes_beNat_mod (by decide) (length_window (hle 36 (by decide)))
    have hcount : beBytes 2 (beNat (window buf 38 2)) = window buf 38 2 :=
      beBytes_beNat (length_window (hle 40 (by decide)))
    obtain ⟨n, hn⟩ : ∃ n, n = beNat (window buf 38 2) := ⟨_, rfl⟩
    -- the fields of the cleared buffer, which join up
    have hsplit : clearUndefinedFlag buf = window (clearUndefinedFlag buf) 0 16 ++
        (window (clearUndefinedFlag buf) 16 16 ++ (window (clearUndefinedFlag buf) 32 4 ++
          byteAt (clearUndefinedFlag buf) 36 :: byteAt (clearUndefinedFlag buf) 37 ::
            (window (clearUndefinedFlag buf) 38 2 ++ (window (clearUndefinedFlag buf) 40 n ++
              (clearUndefinedFlag buf).drop (40 + n))))) := by
      simp (disch := omega)
    rw [hagree.window_eq (.inl (by decide)), hagree.window_eq (.inl (by decide)),
      hagree.window_eq (.inl (by decide)), hagree.byteAt_eq (.inl (by decide)), hflags,
      hagree.window_eq (.inr (by decide)), hagree.window_eq (.inr (by decide)),
      hagree.drop_eq (by omega)] at hsplit
    rw [hsplit]
    simp (disch := omega) [encode, NodeId.asBytes, NodeId.fromBytes, hsession, hcount, take_drop,
      length_window]

theorem toNat_ttl_pred {ttl : UInt8} (h : ttl ≠ 0) : (ttl - 1).toNat + 1 = ttl.toNat := by
  have hne : ttl.toNat ≠ 0 := fun hzero => h (UInt8.toNat_inj.mp hzero)
  have hone : 1 ≤ ttl := UInt8.le_iff_toNat_le.mpr (Nat.one_le_iff_ne_zero.mpr hne)
  rw [UInt8.toNat_sub_of_le _ _ hone, UInt8.toNat_one]
  omega

theorem byteAt_encode_ttl (frame : MeshDataFrame) (rest : Bytes) :
    byteAt (frame.encode ++ rest) 36 = frame.ttl := by
  simp +arith [encode]

/-- The time to live is read off its byte, whatever follows the frame. -/
theorem ttl_of_decode {buf rest : Bytes} (h : decode buf = .ok frame rest) :
    frame.ttl = byteAt buf 36 := by
  have hcleared := (BufM.ensures_iff_of_ok h).mp (decode_ensures buf)
  have hagree : AgreeOutside 37 38 buf (clearUndefinedFlag buf) := agreeOutside_modify ..
  rw [← byteAt_encode_ttl frame rest, ← hcleared]
  exact hagree.byteAt_eq (.inl (by decide))

end MeshDataFrame

/-! ## Fragments -/

/-- Maximum payload bytes per fragment. -/
def maxFragmentPayload : Nat := 1200

/-- A single fragment of a larger IP packet. -/
structure FragmentFrame where
  fragmentId : UInt32
  /-- Byte offset of `payload` within the original packet. -/
  fragmentOffset : UInt16
  /-- Byte length of the original packet. -/
  totalLength : UInt16
  payload : Bytes
  deriving DecidableEq

namespace FragmentFrame

def fragmentHeaderSize : Nat := 8

def serialize (frag : FragmentFrame) : Bytes :=
  beBytes 4 frag.fragmentId.toNat ++ beBytes 2 frag.fragmentOffset.toNat ++
    beBytes 2 frag.totalLength.toNat ++ frag.payload

variable (frag : FragmentFrame)

theorem length_serialize :
    frag.serialize.length = fragmentHeaderSize + frag.payload.length := by
  simp only [serialize, fragmentHeaderSize, length_append, length_beBytes]

theorem drop_serialize :
    frag.serialize.drop fragmentHeaderSize = frag.payload :=
  drop_left' (by simp [fragmentHeaderSize])

/-- `none` if the buffer is too short or the offsets are nonsensical. -/
def deserialize (buf : Bytes) : Option FragmentFrame :=
  if buf.length < fragmentHeaderSize then none
  else
    let fragmentOffset := UInt16.ofNat (beNat (window buf 4 2))
    let totalLength := UInt16.ofNat (beNat (window buf 6 2))
    let payload := buf.drop fragmentHeaderSize
    if fragmentOffset.toNat + payload.length > totalLength.toNat then none
    else
      some { fragmentId := UInt32.ofNat (beNat (window buf 0 4)), fragmentOffset, totalLength,
             payload }

/-- A fragment survives the wire if its chunk lies inside the packet, and is refused
otherwise. -/
theorem deserialize_serialize_eq :
    deserialize frag.serialize =
      if frag.fragmentOffset.toNat + frag.payload.length ≤ frag.totalLength.toNat then some frag
      else none := by
  obtain ⟨fragmentId, fragmentOffset, totalLength, payload⟩ := frag
  have hlen := length_serialize ⟨fragmentId, fragmentOffset, totalLength, payload⟩
  have hdrop := drop_serialize ⟨fragmentId, fragmentOffset, totalLength, payload⟩
  have hid : beNat (beBytes 4 fragmentId.toNat) = fragmentId.toNat := by
    rw [beNat_beBytes]
    exact Nat.mod_eq_of_lt fragmentId.toNat_lt
  have hu16 : ∀ v : UInt16, beNat (beBytes 2 v.toNat) = v.toNat := by
    intro v
    rw [beNat_beBytes]
    exact Nat.mod_eq_of_lt v.toNat_lt
  unfold deserialize
  rw [if_neg (by omega), hdrop]
  by_cases h : fragmentOffset.toNat + payload.length ≤ totalLength.toNat
  · simp [serialize, hid, hu16, Nat.not_lt.mpr h]
  · simp [serialize, hu16, Nat.not_le.mp h]

theorem deserialize_serialize {frag : FragmentFrame}
    (h : frag.fragmentOffset.toNat + frag.payload.length ≤ frag.totalLength.toNat) :
    deserialize frag.serialize = some frag := by
  rw [deserialize_serialize_eq, if_pos h]

theorem eq_of_deserialize_serialize {frag frag' : FragmentFrame}
    (h : deserialize frag.serialize = some frag') : frag' = frag := by
  rw [deserialize_serialize_eq] at h
  split at h
  · exact (Option.some.inj h).symm
  · cases h

/-- Its data reaches the end of the original packet. -/
def isLast (frag : FragmentFrame) : Bool :=
  frag.fragmentOffset.toNat + frag.payload.length = frag.totalLength.toNat

end FragmentFrame

/-- The loop of `fragment_packet` from an offset on.  An iteration advances the
offset, so the length of the data bounds the number of iterations. -/
def fragmentLoop (data : Bytes) (fragmentId : UInt32) : Nat → Nat → List FragmentFrame
  | 0, _ => []
  | iterations + 1, offset =>
      if offset < data.length then
        let stop := min (offset + maxFragmentPayload) data.length
        { fragmentId, fragmentOffset := UInt16.ofNat offset,
          totalLength := UInt16.ofNat data.length, payload := window data offset (stop - offset) }
            :: fragmentLoop data fragmentId iterations stop
      else []

/-- Split data into fragments that share an identifier. -/
def fragmentPacket (data : Bytes) (fragmentId : UInt32) : List FragmentFrame :=
  fragmentLoop data fragmentId data.length 0

theorem flatten_fragmentLoop (data : Bytes) (fragmentId : UInt32) (iterations offset : Nat)
    (h : data.length ≤ offset + iterations) :
    ((fragmentLoop data fragmentId iterations offset).map FragmentFrame.payload).flatten =
      data.drop offset := by
  induction iterations generalizing offset with
  | zero => simpa [fragmentLoop] using h
  | succ iterations ih =>
    rw [fragmentLoop]
    split
    · have hstop : offset < min (offset + maxFragmentPayload) data.length := by
        unfold maxFragmentPayload
        omega
      rw [map_cons, flatten_cons, ih _ (by omega)]
      -- the chunk and what the rest of the loop covers meet at `stop`
      conv_rhs => rw [← take_append_drop
        (min (offset + maxFragmentPayload) data.length - offset) (data.drop offset)]
      rw [drop_drop]
      congr 2
      omega
    · rw [drop_eq_nil_of_le (by omega)]
      rfl

variable {data : Bytes} {fragmentId : UInt32}

/-- Every fragment of the loop is cut from the data at an offset the loop comes to. -/
theorem mem_fragmentLoop {frag : FragmentFrame} :
    ∀ {iterations offset : Nat}, frag ∈ fragmentLoop data fragmentId iterations offset →
      ∃ start, offset ≤ start ∧ start < data.length ∧
        frag = ⟨fragmentId, UInt16.ofNat start, UInt16.ofNat data.length,
          window data start (min (start + maxFragmentPayload) data.length - start)⟩ := by
  intro iterations
  induction iterations with
  | zero => intro offset hmem; cases hmem
  | succ iterations ih =>
    intro offset hmem
    rw [fragmentLoop] at hmem
    split at hmem
    · rcases mem_cons.mp hmem with rfl | hrest
      · exact ⟨offset, Nat.le_refl _, by assumption, rfl⟩
      · obtain ⟨start, hstart, hcut⟩ := ih hrest
        exact ⟨start, by omega, hcut⟩
    · cases hmem

theorem length_payload_of_mem_fragmentLoop {frag : FragmentFrame} {iterations offset : Nat}
    (hmem : frag ∈ fragmentLoop data fragmentId iterations offset) :
    frag.payload.length ≤ maxFragmentPayload := by
  obtain ⟨start, -, -, rfl⟩ := mem_fragmentLoop hmem
  simp only [window, length_take]
  omega

/-- Every fragment has the length of the data, as far as it fits, for its total. -/
theorem totalLength_of_mem_fragmentLoop {frag : FragmentFrame} {iterations offset : Nat}
    (hmem : frag ∈ fragmentLoop data fragmentId iterations offset) :
    frag.totalLength = UInt16.ofNat data.length := by
  obtain ⟨start, -, -, rfl⟩ := mem_fragmentLoop hmem
  rfl

theorem length_fragmentLoop_lt (data : Bytes) (fragmentId : UInt32) (iterations offset : Nat) :
    (fragmentLoop data fragmentId iterations offset).length * maxFragmentPayload <
      (data.length - offset) + maxFragmentPayload := by
  have hpos : 0 < maxFragmentPayload := by decide
  induction iterations generalizing offset with
  | zero =>
    rw [fragmentLoop, length_nil]
    omega
  | succ iterations ih =>
    rw [fragmentLoop]
    split
    · have hlater := ih (min (offset + maxFragmentPayload) data.length)
      rw [length_cons, Nat.succ_mul]
      rcases Nat.le_total (offset + maxFragmentPayload) data.length with hfull | hlast
      · omega
      · -- nothing is left after this fragment
        rw [Nat.min_eq_right hlast] at hlater ⊢
        rw [Nat.sub_self] at hlater
        rw [Nat.lt_one_iff.mp (Nat.lt_of_mul_lt_mul_right (hlater.trans_eq (Nat.one_mul _).symm))]
        omega
    · rw [length_nil]
      omega

theorem flatten_fragmentPacket (data : Bytes) (fragmentId : UInt32) :
    ((fragmentPacket data fragmentId).map FragmentFrame.payload).flatten = data := by
  rw [fragmentPacket, flatten_fragmentLoop data fragmentId _ _ (by omega), drop_zero]

/-- What the fragments of the loop are: windows of the data from the offset on. -/
theorem fragment_spec (hdata : data.length ≤ 65535) {g : FragmentFrame} {iterations offset : Nat}
    (hmem : g ∈ fragmentLoop data fragmentId iterations offset) :
    g.fragmentId = fragmentId ∧ g.totalLength = UInt16.ofNat data.length ∧
      offset ≤ g.fragmentOffset.toNat ∧
      g.fragmentOffset.toNat + g.payload.length ≤ data.length ∧
      g.payload = window data g.fragmentOffset.toNat g.payload.length ∧ 0 < g.payload.length := by
  obtain ⟨start, hle, hlt, rfl⟩ := mem_fragmentLoop hmem
  have hstart : (UInt16.ofNat start).toNat = start :=
    Nat.mod_eq_of_lt (show start < 65536 by omega)
  have hlength := @length_window data start
    (min (start + maxFragmentPayload) data.length - start) (by omega)
  simp only [hstart, hlength]
  refine ⟨trivial, trivial, hle, by omega, trivial, ?_⟩
  unfold maxFragmentPayload
  omega

end ProximityMesh.Protocol
