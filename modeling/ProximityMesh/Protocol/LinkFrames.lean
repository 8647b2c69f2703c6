/-
  Protocol/LinkFrames.lean --- the frames direct peers exchange besides data and
  route updates: handshake, heartbeat and control.

  Source: crates/pim-protocol/src/handshake_frame.rs, heartbeat_frame.rs and
  control_frame.rs.

  None of them is encrypted, and only the handshake frame carries a signature: a
  heartbeat and a control frame prove nothing about who sent them.
-/
import ProximityMesh.Core.Types

set_option autoImplicit false

namespace ProximityMesh.Protocol

open List NodeId

/-! ## Handshake -/

inductive HandshakeFrameType where
  | init
  | response
  | confirm
  deriving DecidableEq, Repr

namespace HandshakeFrameType

def toU8 : HandshakeFrameType → UInt8
  | init => 0
  | response => 1
  | confirm => 2

/-- Decode a raw handshake subtype from the wire. -/
def fromU8 (v : UInt8) : Except PimError HandshakeFrameType :=
  match v with
  | 0 => .ok init
  | 1 => .ok response
  | 2 => .ok confirm
  | other => .error (.protocol ("unknown handshake type: " ++ toString other.toNat))

end HandshakeFrameType

/-- Wire representation of a handshake message. -/
inductive HandshakeWireFrame where
  /-- Init or response frame sharing the same binary layout. -/
  | initOrResponse (handshakeType : HandshakeFrameType) (senderPub ephemeralPub nonce : Octets 32)
      (signature : Octets 64)
  /-- Final transcript-confirmation frame. -/
  | confirm (hmac : Octets 32)
  deriving DecidableEq

instance : Inhabited HandshakeWireFrame := ⟨.confirm (Octets.zero 32)⟩

namespace HandshakeWireFrame

def initResponseSize : Nat := 1 + 32 + 32 + 32 + 64

def confirmSize : Nat := 1 + 32

def encode : HandshakeWireFrame → Bytes
  | initOrResponse handshakeType senderPub ephemeralPub nonce signature =>
      [handshakeType.toU8] ++ senderPub.toList ++ ephemeralPub.toList ++ nonce.toList ++
        signature.toList
  | confirm hmac => [HandshakeFrameType.confirm.toU8] ++ hmac.toList

def decode : BufM PimError HandshakeWireFrame := do
  if (← BufM.len) = 0 then
    BufM.fail (.protocol "handshake frame empty")
  let handshakeType ← BufM.liftExcept (HandshakeFrameType.fromU8 (← BufM.index 0))
  match handshakeType with
  | .init | .response =>
      if (← BufM.len) < initResponseSize then
        BufM.fail (.protocol ("handshake init/response too short: need " ++
          toString initResponseSize ++ ", have " ++ toString (← BufM.len)))
      let senderPub ← BufM.octets 1 32
      let ephemeralPub ← BufM.octets 33 32
      let nonce ← BufM.octets 65 32
      let signature ← BufM.octets 97 64
      BufM.advance initResponseSize
      return .initOrResponse handshakeType senderPub ephemeralPub nonce signature
  | .confirm =>
      if (← BufM.len) < confirmSize then
        BufM.fail (.protocol ("handshake confirm too short: need " ++ toString confirmSize ++
          ", have " ++ toString (← BufM.len)))
      let hmac ← BufM.octets 1 32
      BufM.advance confirmSize
      return .confirm hmac

instance : FrameCodec HandshakeWireFrame := ⟨encode, decode⟩

theorem fromU8_toU8 (t : HandshakeFrameType) : HandshakeFrameType.fromU8 t.toU8 = .ok t := by
  cases t <;> rfl

theorem toU8_of_fromU8 {v : UInt8} {t : HandshakeFrameType}
    (h : HandshakeFrameType.fromU8 v = .ok t) : t.toU8 = v := by
  unfold HandshakeFrameType.fromU8 at h
  split at h <;> cases h <;> rfl

/-- The subtype announces the layout of the frame. -/
def Announced : HandshakeWireFrame → Prop
  | initOrResponse handshakeType .. => handshakeType = .init ∨ handshakeType = .response
  | confirm _ => True

theorem decode_encode_append {frame : HandshakeWireFrame} (h : frame.Announced) (rest : Bytes) :
    decode (frame.encode ++ rest) = .ok frame rest := by
  rw [BufM.eq_ok_iff_ensures]
  cases frame with
  | initOrResponse handshakeType senderPub ephemeralPub nonce signature =>
    rcases h with rfl | rfl <;>
      simp +arith [decode, encode, initResponseSize, fromU8_toU8]
  | confirm hmac =>
    simp +arith [decode, encode, confirmSize, fromU8_toU8]

/-- A frame is read off its own encoding; an error leaves the buffer alone. -/
theorem decode_ensures (buf : Bytes) :
    BufM.Ensures decode buf (fun frame rest => buf = frame.encode ++ rest)
      fun f buf' => f ≠ .panic ∧ buf' = buf := by
  by_cases hempty : buf = []
  · simp [decode, hempty]
  · have hpos : 0 < buf.length := length_pos_iff.mpr hempty
    cases htype : HandshakeFrameType.fromU8 (byteAt buf 0) with
    | error e => simp [decode, hempty, hpos, htype]
    | ok handshakeType =>
      have htag : handshakeType.toU8 = byteAt buf 0 := toU8_of_fromU8 htype
      cases handshakeType with
      | init | response =>
        have hsize : initResponseSize = 161 := rfl
        by_cases hlen : buf.length < initResponseSize
        · simp [decode, htype, hlen]
        · have hle : ∀ k, k ≤ 161 → k ≤ buf.length := by omega
          have hsplit : byteAt buf 0 :: (window buf 1 32 ++ (window buf 33 32 ++
              (window buf 65 32 ++ (window buf 97 64 ++ buf.drop 161)))) = buf := by
            simp (disch := omega) only [window_append_drop, byteAt_cons_drop, drop_zero]
          simp [decode, hpos, htype, hle, encode, htag, hsize]
      | confirm =>
        have hsize : confirmSize = 33 := rfl
        by_cases hlen : buf.length < confirmSize
        · simp [decode, htype, Nat.not_le.mpr hlen]
        · have hle : ∀ k, k ≤ 33 → k ≤ buf.length := by omega
          have hsplit : byteAt buf 0 :: (window buf 1 32 ++ buf.drop 33) = buf := by
            simp (disch := omega) only [window_append_drop, byteAt_cons_drop, drop_zero]
          simp [decode, hpos, htype, encode, htag, hsize]

end HandshakeWireFrame

/-! ## Heartbeat -/

/-- Keepalive message between direct peers. -/
structure HeartbeatFrame where
  senderId : NodeId
  /-- Milliseconds since the Unix epoch. -/
  timestamp : UInt64
  /-- Hops to the nearest known gateway; `0xFF` means none known. -/
  gatewayHops : UInt8
  load : UInt8
  /-- All-zero if unknown. -/
  gwX25519Pub : Octets 32
  deriving DecidableEq

namespace HeartbeatFrame

def size : Nat := 58

def encode (hb : HeartbeatFrame) : Bytes :=
  hb.senderId.asBytes.toList ++ beBytes 8 hb.timestamp.toNat ++ [hb.gatewayHops] ++ [hb.load] ++
    hb.gwX25519Pub.toList

def decode : BufM PimError HeartbeatFrame := do
  if (← BufM.len) < size then
    BufM.fail (.protocol ("heartbeat frame too short: need " ++ toString size ++ ", have " ++
      toString (← BufM.len)))
  let idBytes ← BufM.octets 0 16
  let timestamp ← BufM.getBe 16 8
  let gatewayHops ← BufM.index 24
  let load ← BufM.index 25
  let gwX25519Pub ← BufM.octets 26 32
  BufM.advance size
  return { senderId := NodeId.fromBytes idBytes, timestamp := UInt64.ofNat timestamp, gatewayHops,
           load, gwX25519Pub }

instance : FrameCodec HeartbeatFrame := ⟨encode, decode⟩

theorem decode_encode_append (hb : HeartbeatFrame) (rest : Bytes) :
    decode (hb.encode ++ rest) = .ok hb rest := by
  obtain ⟨⟨id⟩, timestamp, gatewayHops, load, gwX25519Pub⟩ := hb
  have htimestamp : beNat (beBytes 8 timestamp.toNat) = timestamp.toNat := by
    rw [beNat_beBytes]
    exact Nat.mod_eq_of_lt timestamp.toNat_lt
  rw [BufM.eq_ok_iff_ensures]
  unfold decode
  simp +arith [encode, size, asBytes, fromBytes, htimestamp]

/-- A frame is read off its own encoding; an error leaves the buffer alone. -/
theorem decode_ensures (buf : Bytes) :
    BufM.Ensures decode buf (fun hb rest => buf = hb.encode ++ rest)
      fun f buf' => f ≠ .panic ∧ buf' = buf := by
  by_cases hlen : buf.length < 58
  · simp [decode, size, Nat.not_le.mpr hlen]
  · have hle : ∀ k, k ≤ 58 → k ≤ buf.length := by omega
    have hlt : ∀ k, k < 58 → k < buf.length := by omega
    have htimestamp : beBytes 8 (beNat (window buf 16 8) % 18446744073709551616) =
        window buf 16 8 := beBytes_beNat_mod (by decide) (length_window (hle 24 (by decide)))
    simp (disch := omega) [decode, size, hlen, hle, hlt, encode, asBytes, fromBytes, htimestamp]

end HeartbeatFrame

/-! ## Control -/

/-- Discriminator for `ControlFrame` payloads. -/
inductive ControlType where
  | goodbye
  | rekey
  | ping
  | pong
  | peerInfo
  | pluginPayload
  deriving DecidableEq, Repr

namespace ControlType

def toU8 : ControlType → UInt8
  | goodbye => 0x03
  | rekey => 0x04
  | ping => 0x05
  | pong => 0x06
  | peerInfo => 0x07
  | pluginPayload => 0x08

/-- Decode a raw control-type tag from the wire; the tags `0x01` and `0x02` are
reserved. -/
def fromU8 (v : UInt8) : Except PimError ControlType :=
  match v with
  | 0x03 => .ok goodbye
  | 0x04 => .ok rekey
  | 0x05 => .ok ping
  | 0x06 => .ok pong
  | 0x07 => .ok peerInfo
  | 0x08 => .ok pluginPayload
  | other => .error (.protocol ("unknown control type: 0x" ++ hex false 2 other.toNat))

end ControlType

/-- Multiplexed control message. -/
inductive ControlFrame where
  /-- Graceful disconnect notification. -/
  | goodbye (departingId : NodeId) (reason : UInt8)
  | rekey
  | ping (nonce : UInt64)
  | pong (nonce : UInt64)
  /-- Identity metadata. -/
  | peerInfo (x25519Pub : Octets 32) (friendlyName : String)
  | pluginPayload (kind : String) (body : Bytes)
  deriving DecidableEq

namespace ControlFrame

/-- `str::as_bytes`. -/
def utf8 (s : String) : Bytes := s.toUTF8.toList

/-- `std::str::from_utf8`. -/
def fromUtf8 (bytes : Bytes) : Option String := String.fromUTF8? ⟨bytes.toArray⟩

def encode : ControlFrame → Bytes
  | goodbye departingId reason =>
      [ControlType.goodbye.toU8] ++ departingId.asBytes.toList ++ [reason]
  | rekey => [ControlType.rekey.toU8]
  | ping nonce => [ControlType.ping.toU8] ++ beBytes 8 nonce.toNat
  | pong nonce => [ControlType.pong.toU8] ++ beBytes 8 nonce.toNat
  | peerInfo x25519Pub friendlyName =>
      let nameBytes := utf8 friendlyName
      let nameLen := min nameBytes.length 255
      [ControlType.peerInfo.toU8] ++ x25519Pub.toList ++ [UInt8.ofNat nameLen] ++
        nameBytes.take nameLen
  | pluginPayload kind body =>
      let kindBytes := utf8 kind
      let kindLen := min kindBytes.length 255
      let bodyLen := min body.length 65535
      [ControlType.pluginPayload.toU8] ++ [UInt8.ofNat kindLen] ++ kindBytes.take kindLen ++
        beBytes 2 bodyLen ++ body.take bodyLen

def decodeNonce (name : String) : BufM PimError UInt64 := do
  if (← BufM.len) < 9 then
    BufM.fail (.protocol (name ++ " too short"))
  let nonce ← BufM.getBe 1 8
  BufM.advance 9
  return UInt64.ofNat nonce

def decodePeerInfo : BufM PimError ControlFrame := do
  if (← BufM.len) < 34 then
    BufM.fail (.protocol "PeerInfo too short")
  let x25519Pub ← BufM.octets 1 32
  let nameLen := (← BufM.index 33).toNat
  let total := 34 + nameLen
  if (← BufM.len) < total then
    BufM.fail (.protocol ("PeerInfo truncated: need " ++ toString total ++ ", have " ++
      toString (← BufM.len)))
  match fromUtf8 (← BufM.slice 34 total) with
  | none => BufM.fail (.protocol "PeerInfo friendly_name not valid UTF-8")
  | some friendlyName =>
      BufM.advance total
      return .peerInfo x25519Pub friendlyName

def decodePluginPayload : BufM PimError ControlFrame := do
  if (← BufM.len) < 4 then
    BufM.fail (.protocol "PluginPayload too short")
  let kindLen := (← BufM.index 1).toNat
  let bodyLenOff := 2 + kindLen
  if (← BufM.len) < bodyLenOff + 2 then
    BufM.fail (.protocol ("PluginPayload header truncated: need " ++ toString (bodyLenOff + 2) ++
      ", have " ++ toString (← BufM.len)))
  match fromUtf8 (← BufM.slice 2 bodyLenOff) with
  | none => BufM.fail (.protocol "PluginPayload kind not valid UTF-8")
  | some kind =>
      let bodyLen ← BufM.getBe bodyLenOff 2
      let total := bodyLenOff + 2 + bodyLen
      if (← BufM.len) < total then
        BufM.fail (.protocol ("PluginPayload truncated: need " ++ toString total ++ ", have " ++
          toString (← BufM.len)))
      let body ← BufM.slice (bodyLenOff + 2) total
      BufM.advance total
      return .pluginPayload kind body

def decode : BufM PimError ControlFrame := do
  if (← BufM.len) = 0 then
    BufM.fail (.protocol "control frame empty")
  match ← BufM.liftExcept (ControlType.fromU8 (← BufM.index 0)) with
  | .goodbye =>
      if (← BufM.len) < 18 then
        BufM.fail (.protocol "Goodbye too short")
      let id ← BufM.octets 1 16
      let reason ← BufM.index 17
      BufM.advance 18
      return .goodbye (NodeId.fromBytes id) reason
  | .rekey =>
      BufM.advance 1
      return .rekey
  | .ping => return .ping (← decodeNonce "Ping")
  | .pong => return .pong (← decodeNonce "Pong")
  | .peerInfo => decodePeerInfo
  | .pluginPayload => decodePluginPayload

instance : FrameCodec ControlFrame := ⟨encode, decode⟩

/-! ### Strings on the wire -/

theorem toList_loop (bytes : ByteArray) (i : Nat) (acc : List UInt8) :
    ByteArray.toList.loop bytes i acc = acc.reverse ++ bytes.data.toList.drop i := by
  fun_induction ByteArray.toList.loop bytes i acc with
  | case1 i acc h ih =>
    have hi : i < bytes.data.size := h
    have hget : bytes.get! i = bytes.data.toList[i] := getElem!_pos bytes.data i hi
    rw [ih, hget, reverse_cons, append_assoc, singleton_append, ← drop_eq_getElem_cons]
  | case2 i acc h =>
    have hi : bytes.data.toList.length ≤ i := Nat.le_of_not_lt h
    rw [drop_eq_nil_of_le hi, append_nil]

theorem utf8_eq (s : String) : utf8 s = s.toByteArray.data.toList := by
  rw [utf8, ByteArray.toList, toList_loop]
  rfl

theorem fromUtf8_utf8 (s : String) : fromUtf8 (utf8 s) = some s := by
  rw [utf8_eq, fromUtf8, String.fromUTF8?, dif_pos s.isValidUTF8]
  rfl

theorem utf8_of_fromUtf8 {bytes : Bytes} {s : String} (h : fromUtf8 bytes = some s) :
    utf8 s = bytes := by
  rw [fromUtf8, String.fromUTF8?] at h
  split at h
  · cases h
    rw [utf8_eq]
    rfl
  · cases h

theorem fromUtf8_eq_none_iff (bytes : Bytes) :
    fromUtf8 bytes = none ↔ ¬ ∃ s : String, utf8 s = bytes := by
  constructor
  · intro hnone ⟨s, hs⟩
    rw [← hs, fromUtf8_utf8] at hnone
    cases hnone
  · intro hnot
    cases hdecoded : fromUtf8 bytes with
    | none => rfl
    | some s => exact absurd ⟨s, utf8_of_fromUtf8 hdecoded⟩ hnot

/-! ### The codec -/

theorem fromU8_toU8 (t : ControlType) : ControlType.fromU8 t.toU8 = .ok t := by
  cases t <;> rfl

theorem toU8_of_fromU8 {v : UInt8} {t : ControlType} (h : ControlType.fromU8 v = .ok t) :
    t.toU8 = v := by
  unfold ControlType.fromU8 at h
  split at h <;> cases h <;> rfl

/-- The variable parts fit their length fields; `encode` cuts what does not. -/
def Fits : ControlFrame → Prop
  | peerInfo _ friendlyName => (utf8 friendlyName).length ≤ 255
  | pluginPayload kind body => (utf8 kind).length ≤ 255 ∧ body.length ≤ 65535
  | _ => True

variable {buf : Bytes} {E : Fault PimError → Bytes → Prop}

/-- Behind the tag of a ping or pong stand the eight bytes of its nonce. -/
theorem ensures_decodeNonce (name : String) (h : 9 ≤ buf.length) {Q : UInt64 → Bytes → Prop} :
    BufM.Ensures (decodeNonce name) buf Q E ↔
      Q (UInt64.ofNat (beNat (window buf 1 8))) (buf.drop 9) := by
  have hshort : ¬ buf.length < 9 := Nat.not_lt.mpr h
  simp [decodeNonce, h]

variable (x25519Pub : Octets 32)

/-- Behind the tag and the key stand the length of the name and the name. -/
theorem ensures_decode_peerInfo {name : Bytes} (h : name.length ≤ 255)
    (rest : Bytes) {Q : ControlFrame → Bytes → Prop} :
    BufM.Ensures decode ([ControlType.peerInfo.toU8] ++ x25519Pub.toList ++
        [UInt8.ofNat name.length] ++ name ++ rest) Q E ↔
      match fromUtf8 name with
      | none => E (.error (.protocol "PeerInfo friendly_name not valid UTF-8"))
          ([ControlType.peerInfo.toU8] ++ x25519Pub.toList ++ [UInt8.ofNat name.length] ++ name ++
            rest)
      | some friendlyName => Q (.peerInfo x25519Pub friendlyName) rest := by
  have hbyte : (UInt8.ofNat name.length).toNat = name.length :=
    Nat.mod_eq_of_lt (Nat.lt_succ_of_le h)
  cases hname : fromUtf8 name with
  | none | some friendlyName =>
    simp +arith [decode, decodePeerInfo, fromU8_toU8, hbyte, hname]

/-- Behind the tag stand the length of the kind, the kind, the length of the body and
the body. -/
theorem ensures_decode_pluginPayload {kind body : Bytes} (hkind : kind.length ≤ 255)
    (hbody : body.length ≤ 65535) (rest : Bytes) {Q : ControlFrame → Bytes → Prop} :
    BufM.Ensures decode ([ControlType.pluginPayload.toU8] ++ [UInt8.ofNat kind.length] ++ kind ++
        beBytes 2 body.length ++ body ++ rest) Q E ↔
      match fromUtf8 kind with
      | none => E (.error (.protocol "PluginPayload kind not valid UTF-8"))
          ([ControlType.pluginPayload.toU8] ++ [UInt8.ofNat kind.length] ++ kind ++
            beBytes 2 body.length ++ body ++ rest)
      | some kind => Q (.pluginPayload kind body) rest := by
  have hbyte : (UInt8.ofNat kind.length).toNat = kind.length :=
    Nat.mod_eq_of_lt (Nat.lt_succ_of_le hkind)
  have hcount : beNat (beBytes 2 body.length) = body.length := by
    rw [beNat_beBytes]
    exact Nat.mod_eq_of_lt (Nat.lt_succ_of_le hbody)
  have hbehind : kind.length + body.length + 2 - kind.length = body.length + 2 := by omega
  cases hname : fromUtf8 kind with
  | none =>
    simp +arith [decode, decodePluginPayload, fromU8_toU8, hbyte, hname]
  | some friendlyName =>
    simp +arith [decode, decodePluginPayload, fromU8_toU8, hbyte, hcount, hname, hbehind]

theorem encode_peerInfo (friendlyName : String) :
    encode (peerInfo x25519Pub friendlyName) = [ControlType.peerInfo.toU8] ++ x25519Pub.toList ++
      [UInt8.ofNat ((utf8 friendlyName).take 255).length] ++ (utf8 friendlyName).take 255 := by
  simp [encode, Nat.min_comm _ 255]

theorem encode_pluginPayload (kind : String) (body : Bytes) :
    encode (pluginPayload kind body) = [ControlType.pluginPayload.toU8] ++
      [UInt8.ofNat ((utf8 kind).take 255).length] ++ (utf8 kind).take 255 ++
        beBytes 2 (body.take 65535).length ++ body.take 65535 := by
  simp [encode, Nat.min_comm _ 255, Nat.min_comm _ 65535, ← take_eq_take_min]

theorem decode_encode_append {frame : ControlFrame} (h : frame.Fits) (rest : Bytes) :
    decode (frame.encode ++ rest) = .ok frame rest := by
  rw [BufM.eq_ok_iff_ensures]
  cases frame with
  | goodbye departingId reason =>
    simp +arith [decode, encode, fromU8_toU8, asBytes, fromBytes]
  | rekey => simp [decode, encode, fromU8_toU8]
  | ping nonce | pong nonce =>
    have hnonce : beNat (beBytes 8 nonce.toNat) = nonce.toNat := by
      rw [beNat_beBytes]
      exact Nat.mod_eq_of_lt nonce.toNat_lt
    simp +arith [decode, ensures_decodeNonce, encode, fromU8_toU8, hnonce]
  | peerInfo x25519Pub friendlyName =>
    have hname : (utf8 friendlyName).take 255 = utf8 friendlyName := take_of_length_le h
    rw [encode_peerInfo, hname, ensures_decode_peerInfo _ h, fromUtf8_utf8]
    exact ⟨rfl, rfl⟩
  | pluginPayload kind body =>
    obtain ⟨hkind, hbody⟩ := h
    have hkind' : (utf8 kind).take 255 = utf8 kind := take_of_length_le hkind
    have hbody' : body.take 65535 = body := take_of_length_le hbody
    rw [encode_pluginPayload, hkind', hbody', ensures_decode_pluginPayload hkind hbody,
      fromUtf8_utf8]
    exact ⟨rfl, rfl⟩

theorem decodeNonce_ensures (name : String) (h : 0 < buf.length) :
    BufM.Ensures (decodeNonce name) buf
      (fun nonce rest => buf = [byteAt buf 0] ++ beBytes 8 nonce.toNat ++ rest)
      fun f buf' => f ≠ .panic ∧ buf' = buf := by
  by_cases hlen : buf.length < 9
  · simp [decodeNonce, Nat.not_le.mpr hlen]
  · have hle : ∀ k, k ≤ 9 → k ≤ buf.length := by omega
    have hnonce : beBytes 8 (beNat (window buf 1 8) % 18446744073709551616) = window buf 1 8 :=
      beBytes_beNat_mod (by decide) (length_window (hle 9 (by decide)))
    rw [ensures_decodeNonce name (Nat.not_lt.mp hlen)]
    simp (disch := omega) [hnonce]

theorem decodePeerInfo_ensures (htag : ControlType.peerInfo.toU8 = byteAt buf 0) :
    BufM.Ensures decodePeerInfo buf (fun frame rest => buf = frame.encode ++ rest)
      fun f buf' => f ≠ .panic ∧ buf' = buf := by
  by_cases hlen : buf.length < 34
  · simp [decodePeerInfo, hlen]
  · have hle : ∀ k, k ≤ 34 → k ≤ buf.length := by omega
    have hlt : ∀ k, k < 34 → k < buf.length := by omega
    simp [decodePeerInfo, hle, hlt]
    intro htotal
    refine ⟨fun _ => ?_, htotal⟩
    cases hname : fromUtf8 (window buf 34 (byteAt buf 33).toNat) with
    | none => simp
    | some friendlyName =>
      have hmax : (byteAt buf 33).toNat ≤ 255 := Nat.le_of_lt_succ (byteAt buf 33).toNat_lt
      have hlength : (window buf 34 (byteAt buf 33).toNat).length = (byteAt buf 33).toNat :=
        length_window htotal
      have htake : (window buf 34 (byteAt buf 33).toNat).take (byteAt buf 33).toNat =
          window buf 34 (byteAt buf 33).toNat := take_of_length_le hlength.le
      simp (disch := omega) [htotal, encode, htag, utf8_of_fromUtf8 hname, hlength, htake]

theorem decodePluginPayload_ensures (htag : ControlType.pluginPayload.toU8 = byteAt buf 0) :
    BufM.Ensures decodePluginPayload buf (fun frame rest => buf = frame.encode ++ rest)
      fun f buf' => f ≠ .panic ∧ buf' = buf := by
  by_cases hlen : buf.length < 4
  · simp [decodePluginPayload, hlen]
  · have hone : 1 < buf.length := by omega
    obtain ⟨n, hn⟩ : ∃ n, n = (byteAt buf 1).toNat := ⟨_, rfl⟩
    have hmax : n ≤ 255 := hn ▸ Nat.le_of_lt_succ (byteAt buf 1).toNat_lt
    simp [decodePluginPayload, hlen, hone, ← hn]
    intro hheader
    refine ⟨fun _ => ?_, by omega⟩
    have hkindLen : (window buf 2 n).length = n := length_window (by omega)
    cases hkind : fromUtf8 (window buf 2 n) with
    | none => simp
    | some kind =>
      obtain ⟨m, hm⟩ : ∃ m, m = beNat (window buf (2 + n) 2) := ⟨_, rfl⟩
      simp [hheader, ← hm]
      intro htotal
      refine ⟨fun _ => ⟨fun _ => ?_, htotal⟩, htotal⟩
      have hfield : (window buf (2 + n) 2).length = 2 := length_window hheader
      have hbodyMax : m ≤ 65535 := by
        have hlt := beNat_lt (window buf (2 + n) 2)
        rw [hfield, ← hm] at hlt
        exact Nat.le_of_lt_succ hlt
      have hcount : beBytes 2 m = window buf (2 + n) 2 := hm ▸ beBytes_beNat hfield
      have hbodyLen : (window buf (2 + n + 2) m).length = m := length_window htotal
      have hkindTake : (window buf 2 n).take n = window buf 2 n :=
        take_of_length_le hkindLen.le
      have hbodyTake : (window buf (2 + n + 2) m).take m = window buf (2 + n + 2) m :=
        take_of_length_le hbodyLen.le
      have hbyte : UInt8.ofNat n = byteAt buf 1 := by rw [hn, UInt8.ofNat_toNat]
      simp (disch := omega) [encode, htag, utf8_of_fromUtf8 hkind, hkindLen, hbodyLen, hkindTake,
        hbodyTake, hcount, hbyte]

/-- A frame is read off its own encoding; an error leaves the buffer alone. -/
theorem decode_ensures (buf : Bytes) :
    BufM.Ensures decode buf (fun frame rest => buf = frame.encode ++ rest)
      fun f buf' => f ≠ .panic ∧ buf' = buf := by
  by_cases hempty : buf = []
  · simp [decode, hempty]
  · have hpos : 0 < buf.length := length_pos_iff.mpr hempty
    cases htype : ControlType.fromU8 (byteAt buf 0) with
    | error e => simp [decode, hempty, hpos, htype]
    | ok controlType =>
      have htag : controlType.toU8 = byteAt buf 0 := toU8_of_fromU8 htype
      cases controlType with
      | goodbye =>
        by_cases hlen : buf.length < 18
        · simp [decode, htype, Nat.not_le.mpr hlen]
        · have hle : ∀ k, k ≤ 18 → k ≤ buf.length := by omega
          have hlt : ∀ k, k < 18 → k < buf.length := by omega
          simp (disch := omega) [decode, hempty, hpos, htype, hlen, hle, hlt, encode, htag,
            asBytes, fromBytes]
      | rekey =>
        have hone : 1 ≤ buf.length := hpos
        simp [decode, hpos, htype, encode, htag]
      | ping | pong =>
        simpa [decode, hempty, hpos, htype, encode, htag] using decodeNonce_ensures _ hpos
      | peerInfo => simpa [decode, hempty, hpos, htype] using decodePeerInfo_ensures htag
      | pluginPayload =>
        simpa [decode, hempty, hpos, htype] using decodePluginPayload_ensures htag

/-! ### Names that are cut

`encode` keeps the first 255 bytes of a name, wherever they end; `decode` asks for
whole characters. -/

/-- The kind of a frame, which its first byte announces. -/
def controlType : ControlFrame → ControlType
  | goodbye .. => .goodbye
  | rekey => .rekey
  | ping _ => .ping
  | pong _ => .pong
  | peerInfo .. => .peerInfo
  | pluginPayload .. => .pluginPayload

/-- The name is not cut, or it is cut between two characters. -/
def CutBetweenCharacters (name : String) : Prop :=
  (utf8 name).length ≤ 255 ∨
    ∃ front back : List Char, name.toList = front ++ back ∧
      (utf8 (String.ofList front)).length = 255

theorem utf8_ofList_append (front back : List Char) :
    utf8 (String.ofList (front ++ back)) = utf8 (String.ofList front) ++
      utf8 (String.ofList back) := by
  simp [utf8_eq]

/-- A string whose bytes begin another one is a beginning of its characters. -/
theorem toList_isPrefix_of_utf8 {kept name : String} {behind : Bytes}
    (h : utf8 kept ++ behind = utf8 name) : kept.toList <+: name.toList := by
  apply isPrefix_of_utf8Encode_append_eq_utf8Encode ⟨behind.toArray⟩
  rw [utf8_eq, utf8_eq] at h
  rw [String.utf8Encode_toList, String.utf8Encode_toList]
  apply ByteArray.ext
  rw [ByteArray.data_append, ← Array.toList_inj, Array.toList_append]
  exact h

/-- What is left of a name is a string exactly if no character is split. -/
theorem cutBetweenCharacters_iff (name : String) :
    CutBetweenCharacters name ↔ ∃ kept : String, utf8 kept = (utf8 name).take 255 := by
  constructor
  · intro h
    cases h with
    | inl hshort => exact ⟨name, (take_of_length_le hshort).symm⟩
    | inr hcut =>
      obtain ⟨front, back, hname, hfront⟩ := hcut
      refine ⟨String.ofList front, ?_⟩
      rw [← String.ofList_toList (s := name), hname, utf8_ofList_append, take_left' hfront]
  · intro ⟨kept, hkept⟩
    by_cases hshort : (utf8 name).length ≤ 255
    · exact .inl hshort
    · have hsplit : utf8 kept ++ (utf8 name).drop 255 = utf8 name := by
        rw [hkept, take_append_drop]
      obtain ⟨back, hback⟩ := toList_isPrefix_of_utf8 hsplit
      refine .inr ⟨kept.toList, back, hback.symm, ?_⟩
      rw [String.ofList_toList, hkept, length_take]
      omega

/-- The names of a frame survive the cut as strings. -/
def NamesSurvive : ControlFrame → Prop
  | peerInfo _ friendlyName => CutBetweenCharacters friendlyName
  | pluginPayload kind _ => CutBetweenCharacters kind
  | _ => True

theorem decode_encode_append_iff (frame : ControlFrame) (rest : Bytes) :
    (∃ frame', decode (frame.encode ++ rest) = .ok frame' rest ∧
      frame'.controlType = frame.controlType) ↔ frame.NamesSurvive := by
  cases frame with
  | goodbye _ _ | rekey | ping _ | pong _ =>
    refine iff_of_true ⟨_, decode_encode_append ?_ rest, rfl⟩ trivial
    exact trivial
  | peerInfo x25519Pub friendlyName =>
    have hcut : ((utf8 friendlyName).take 255).length ≤ 255 := length_take_le _ _
    rw [NamesSurvive, cutBetweenCharacters_iff]
    simp only [BufM.eq_ok_iff_ensures, encode_peerInfo, ensures_decode_peerInfo _ hcut]
    cases hname : fromUtf8 ((utf8 friendlyName).take 255) with
    | none => simpa using (fromUtf8_eq_none_iff _).mp hname
    | some kept => exact iff_of_true ⟨_, ⟨rfl, trivial⟩, rfl⟩ ⟨kept, utf8_of_fromUtf8 hname⟩
  | pluginPayload kind body =>
    have hcut : ((utf8 kind).take 255).length ≤ 255 := length_take_le _ _
    have hbody : (body.take 65535).length ≤ 65535 := length_take_le _ _
    rw [NamesSurvive, cutBetweenCharacters_iff]
    simp only [BufM.eq_ok_iff_ensures, encode_pluginPayload,
      ensures_decode_pluginPayload hcut hbody]
    cases hname : fromUtf8 ((utf8 kind).take 255) with
    | none => simpa using (fromUtf8_eq_none_iff _).mp hname
    | some kept => exact iff_of_true ⟨_, ⟨rfl, trivial⟩, rfl⟩ ⟨kept, utf8_of_fromUtf8 hname⟩

/-- A frame is decoded from its own encoding, as the same variant, exactly if the cut
splits no character of its names. -/
theorem encoding_decodes_iff (frame : ControlFrame) :
    (∃ frame', decode frame.encode = .ok frame' [] ∧ frame'.controlType = frame.controlType) ↔
      frame.NamesSurvive := by
  have hiff := decode_encode_append_iff frame []
  rwa [append_nil] at hiff

/-- So many letters and a character of two bytes. -/
def lettersAndAccent (n : Nat) : String := String.ofList (List.replicate n 'a' ++ ['é'])

theorem length_utf8_ofList (l : List Char) :
    (utf8 (String.ofList l)).length = (l.map Char.utf8Size).sum := by
  induction l with
  | nil => rw [utf8_eq, String.toByteArray_ofList]; rfl
  | cons c l ih =>
    rw [← singleton_append, utf8_ofList_append, length_append, ih, utf8_eq,
      String.toByteArray_ofList, utf8Encode_singleton]
    simp

/-- No characters in front end one byte behind the letters. -/
theorem sum_utf8Size_front {n : Nat} : ∀ {front back : List Char},
    replicate n 'a' ++ ['é'] = front ++ back → (front.map Char.utf8Size).sum ≠ n + 1 := by
  induction n with
  | zero =>
    intro front back h
    cases front with
    | nil => simp
    | cons c front =>
      obtain ⟨rfl, hbehind⟩ := cons_eq_cons.mp h
      obtain ⟨rfl, -⟩ := append_eq_nil_iff.mp hbehind.symm
      decide
  | succ n ih =>
    intro front back h
    cases front with
    | nil => simp
    | cons c front =>
      obtain ⟨rfl, hbehind⟩ := cons_eq_cons.mp h
      have hletter : 'a'.utf8Size = 1 := by decide
      have hrest := ih hbehind
      rw [map_cons, sum_cons]
      omega

theorem not_cutBetweenCharacters {n : Nat} (h : n + 1 = 255) :
    ¬ CutBetweenCharacters (lettersAndAccent n) := by
  have hletter : 'a'.utf8Size = 1 := by decide
  have hlast : 'é'.utf8Size = 2 := by decide
  intro hcut
  cases hcut with
  | inl hshort =>
    rw [lettersAndAccent, length_utf8_ofList] at hshort
    simp [hletter] at hshort
    omega
  | inr hcut =>
    obtain ⟨front, back, hname, hfront⟩ := hcut
    rw [lettersAndAccent, String.toList_ofList] at hname
    rw [length_utf8_ofList, ← h] at hfront
    exact sum_utf8Size_front hname hfront

/-- A frame with a split name is refused. -/
theorem decode_encode_of_split {name : String}
    (h : ¬ CutBetweenCharacters name) :
    decode (encode (peerInfo x25519Pub name)) =
      .error (.error (.protocol "PeerInfo friendly_name not valid UTF-8"))
        (encode (peerInfo x25519Pub name)) := by
  have hcut : ((utf8 name).take 255).length ≤ 255 := length_take_le _ _
  rw [cutBetweenCharacters_iff, ← fromUtf8_eq_none_iff] at h
  have hbuf := encode_peerInfo x25519Pub name
  rw [← append_nil (_ ++ _)] at hbuf
  rw [BufM.eq_error_iff_ensures, hbuf, ensures_decode_peerInfo _ hcut, h]
  exact ⟨rfl, rfl⟩

/-- The cut splits the last character of the name. -/
theorem split_name_refused :
    decode (encode (peerInfo (Octets.zero 32) (lettersAndAccent 254))) =
      .error (.error (.protocol "PeerInfo friendly_name not valid UTF-8"))
        (encode (peerInfo (Octets.zero 32) (lettersAndAccent 254))) :=
  decode_encode_of_split _ (not_cutBetweenCharacters rfl)

end ControlFrame

end ProximityMesh.Protocol
