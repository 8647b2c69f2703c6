/-
  Daemon/Outlet.lean --- sending a mesh frame over a session.

  Source: `send_single_mesh` of crates/pim-daemon/src/data_plane.rs,
  `send_frame_buffered` of crates/pim-daemon/src/peer_tasks.rs.

  `Outlet` is all that sending over a session depends on, and `Outlet.push` what one
  mesh frame does to it.  `openWire` is what the holder of the session key reads in the
  message that goes out.
-/
import ProximityMesh.Daemon.EventLoop

set_option autoImplicit false

namespace ProximityMesh.Daemon

open Protocol Transport Crypto Routing ProximityMesh.Task LengthDelimitedCodec TcpTransport List

/-! ## Opening a message -/

section Wire

variable [Aes256Gcm]

/-- The value of a decoder that succeeds. -/
def decoded {ε α : Type} : EStateM.Result ε Bytes α → Option α
  | .ok a _ => some a
  | .error _ _ => none

omit [Aes256Gcm] in
theorem decoded_eq_some {ε α : Type} {result : EStateM.Result ε Bytes α} {a : α}
    (h : decoded result = some a) : ∃ rest, result = .ok a rest := by
  cases result with
  | ok a' rest =>
    obtain rfl : a' = a := Option.some.inj h
    exact ⟨rest, rfl⟩
  | error e rest => cases h

/-- What the holder of a session key reads in a message of the session. -/
def openWire (key : Octets 32) (wire : Bytes) : Option MeshDataFrame := do
  let bytes ← ← decoded (LengthDelimitedCodec.decode wire)
  let frame ← decoded (TransportFrame.decode bytes)
  let plaintext ← Aes256Gcm.gcmOpen key frame.nonce frame.payload frame.tag
  decoded (MeshDataFrame.decode plaintext)

def Session.wireFor (session : Session) (mesh : MeshDataFrame) : Bytes :=
  LengthDelimitedCodec.encode (session.frameFor mesh.encode).encode

omit [Aes256Gcm] in
theorem fits_encode {mesh : MeshDataFrame} (h : mesh.Encodable) : Aes256Gcm.Fits mesh.encode := by
  have hlt := h.payload_lt
  unfold Aes256Gcm.Fits Aes256Gcm.pMax
  rw [MeshDataFrame.length_encode, MeshDataFrame.headerSize]
  omega

theorem Session.length_payload_frameFor (session : Session) (mesh : MeshDataFrame) :
    (session.frameFor mesh.encode).payload.length = MeshDataFrame.headerSize +
      mesh.payload.length := by
  rw [← MeshDataFrame.length_encode]
  exact Aes256Gcm.length_gcmSeal _ _ _

variable {mesh : MeshDataFrame}
variable (session : Session) (h : mesh.Encodable)

include h

theorem decoded_encode_frameFor :
    decoded (TransportFrame.decode (session.frameFor mesh.encode).encode) =
      some (session.frameFor mesh.encode) := by
  have hlt := h.payload_lt
  rw [TransportFrame.decode_encode, decoded]
  rw [session.length_payload_frameFor]
  unfold MeshDataFrame.headerSize maxPayloadSize
  omega

theorem decoded_wireFor :
    decoded (decode (session.wireFor mesh)) =
      some (some (session.frameFor mesh.encode).encode) := by
  have hlt := h.payload_lt
  rw [Session.wireFor, decode_encode, decoded]
  rw [TransportFrame.length_encode, session.length_payload_frameFor]
  unfold maxFrameSize TransportFrame.headerSize TransportFrame.tagSize
    MeshDataFrame.headerSize
  omega

theorem gcmOpen_frameFor :
    Aes256Gcm.gcmOpen session.send.cipher (session.frameFor mesh.encode).nonce
      (session.frameFor mesh.encode).payload (session.frameFor mesh.encode).tag =
        some mesh.encode :=
  Aes256Gcm.gcmOpen_gcmSeal _ _ _ (fits_encode h)

/-- A message is opened to the frame it was made of. -/
theorem openWire_wireFor : openWire session.send.cipher (session.wireFor mesh) = some mesh := by
  rw [openWire, decoded_wireFor session h, Option.bind_eq_bind, Option.bind_some,
    Option.bind_eq_bind, Option.bind_some]
  rw [decoded_encode_frameFor session h, Option.bind_eq_bind, Option.bind_some]
  rw [gcmOpen_frameFor session h, Option.bind_some, MeshDataFrame.decode_encode h, decoded]

end Wire

/-- The frames of a payload fit their length field and set no unknown flag. -/
theorem encodable_of_mem_meshFrames {srcId dstId : NodeId} {ttl : UInt8} {flags : DataFlags}
    {payload : Bytes} {fragId : UInt32} {mesh : MeshDataFrame}
    (hknown : DataFlags.fromBitsTruncate flags.bits = flags)
    (hknown' : DataFlags.fromBitsTruncate (flags.union .isFragment).bits = flags.union .isFragment)
    (h : mesh ∈ meshFrames srcId dstId ttl flags payload fragId) : mesh.Encodable := by
  unfold meshFrames at h
  split at h
  · obtain ⟨frag, hfrag, rfl⟩ := mem_map.mp h
    refine ⟨?_, hknown'⟩
    have hle : frag.payload.length ≤ maxFragmentPayload := length_payload_of_mem_fragmentLoop hfrag
    rw [FragmentFrame.length_serialize, FragmentFrame.fragmentHeaderSize]
    unfold maxFragmentPayload at hle
    omega
  · rename_i hle
    obtain rfl := mem_singleton.mp h
    refine ⟨?_, hknown⟩
    unfold fragmentThreshold maxFragmentPayload at hle
    dsimp only
    omega

def State.fragmentIdFor (s : State) (payload : Bytes) : UInt32 :=
  if payload.length > fragmentThreshold then s.fragId else 0

/-! ## Sending over a session -/

/-- A session and the connection that carries its frames. -/
structure Outlet where
  cell : Nat
  session : Session
  conn : ConnId
  connection : Connection
  deriving DecidableEq

def State.outlet (s : State) (peer : NodeId) : Option Outlet := do
  let cell ← s.sessions.get peer
  let session ← s.cells.get cell
  let conn ← s.carrier session.peerId
  let connection ← s.transport.conns.get conn
  return ⟨cell, session, conn, connection⟩

namespace Outlet

/-- The state holds the outlet as it is. -/
structure At (o : Outlet) (s : State) : Prop where
  session : s.cells.get o.cell = some o.session
  carrier : s.carrier o.session.peerId = some o.conn
  connection : s.transport.conns.get o.conn = some o.connection

variable {s : State} {o : Outlet}

theorem at_of_outlet {peer : NodeId} (h : s.outlet peer = some o) :
    s.sessions.get peer = some o.cell ∧ o.At s := by
  obtain ⟨cell, hcell, h⟩ := Option.bind_eq_some_iff.mp h
  obtain ⟨session, hsession, h⟩ := Option.bind_eq_some_iff.mp h
  obtain ⟨conn, hconn, h⟩ := Option.bind_eq_some_iff.mp h
  obtain ⟨connection, hconnection, h⟩ := Option.bind_eq_some_iff.mp h
  cases h
  exact ⟨hcell, hsession, hconn, hconnection⟩

theorem outlet_of_at {peer : NodeId} (hcell : s.sessions.get peer = some o.cell) (hat : o.At s) :
    s.outlet peer = some o := by
  simp only [State.outlet, hcell, hat.session, hat.carrier, hat.connection, Option.bind_eq_bind,
    Option.bind_some, Option.pure_def]

/-- Nothing happens to the other connections. -/
def Spares (o : Outlet) (s s' : State) : Prop :=
  ∀ conn, conn ≠ o.conn → s'.transport.conns.get conn = s.transport.conns.get conn

/-- The next frame is encrypted and finds a place in the queue. -/
def Takes (o : Outlet) (mesh : MeshDataFrame) : Prop :=
  o.session.CanEmit mesh.encode ∧ o.connection.writing = true ∧
    o.connection.queue.length < TcpTransport.writeCapacity

instance (o : Outlet) (mesh : MeshDataFrame) : Decidable (o.Takes mesh) :=
  inferInstanceAs (Decidable (_ ∧ _))

/-- There is a place and a nonce for this many frames. -/
structure Room (o : Outlet) (count : Nat) : Prop where
  writing : o.connection.writing = true
  queue : o.connection.queue.length + count ≤ TcpTransport.writeCapacity
  nonces : o.session.send.counter.toNat + count ≤ maxNonceCounter.toNat

instance (o : Outlet) (count : Nat) : Decidable (o.Room count) :=
  decidable_of_iff (o.connection.writing = true ∧
      o.connection.queue.length + count ≤ TcpTransport.writeCapacity ∧
      o.session.send.counter.toNat + count ≤ maxNonceCounter.toNat)
    ⟨fun ⟨hwriting, hqueue, hnonces⟩ => ⟨hwriting, hqueue, hnonces⟩,
      fun h => ⟨h.writing, h.queue, h.nonces⟩⟩

theorem Room.takes {count : Nat} (h : o.Room (count + 1)) {mesh : MeshDataFrame}
    (hmesh : mesh.Encodable) : o.Takes mesh := by
  refine ⟨⟨?_, fits_encode hmesh⟩, h.writing, ?_⟩
  · have hnonces := h.nonces
    rw [UInt32.lt_iff_toNat_lt]
    omega
  · have hqueue := h.queue
    omega

variable [Aes256Gcm]

/-- What sending a frame makes of an outlet. -/
def push (o : Outlet) (mesh : MeshDataFrame) : Outlet :=
  { o with
    session := o.session.advance
    connection :=
      if o.Takes mesh then
        { o.connection with queue := o.connection.queue ++ [o.session.wireFor mesh] }
      else o.connection }

theorem Room.push {count : Nat} (h : o.Room (count + 1)) {mesh : MeshDataFrame}
    (htakes : o.Takes mesh) : (o.push mesh).Room count := by
  rw [Outlet.push, if_pos htakes]
  refine ⟨h.writing, ?_, ?_⟩
  · rw [length_append, length_singleton, Nat.add_assoc, Nat.add_comm 1]
    exact h.queue
  · have hnonces := h.nonces
    have hmax : maxNonceCounter.toNat < 2 ^ 32 - 1 := by decide
    show (o.session.send.counter + 1).toNat + count ≤ _
    rw [UInt32.toNat_add, UInt32.toNat_one, Nat.mod_eq_of_lt (by omega), Nat.add_assoc,
      Nat.add_comm 1]
    exact hnonces

omit [Aes256Gcm] in
/-- A data frame goes into the queue if there is a place, and is dropped otherwise. -/
theorem exec_sendFrameBuffered (i : Input) (h : o.At s) {frame : TransportFrame}
    (hdata : frame.frameType = .data) :
    ∃ s', exec i (sendFrameBuffered o.session.peerId frame) s = (s', some ()) ∧
      At { o with connection :=
            if o.connection.writing = true ∧ o.connection.queue.length < writeCapacity then
              { o.connection with
                queue := o.connection.queue ++ [encode frame.encode] }
            else o.connection } s' ∧ o.Spares s s' := by
  obtain ⟨writer, hwriter, hconn⟩ := Option.map_eq_some_iff.mp h.carrier
  have hconnection : s.transport.conns.get writer.conn = some o.connection := by
    rw [hconn]
    exact h.connection
  rw [sendFrameBuffered, transportSend, exec_bind]
  simp only [exec_atomically, send, hwriter, hconnection]
  cases hwriting : o.connection.writing with
  | false =>
    exact ⟨_, rfl, ⟨h.session, h.carrier, h.connection⟩, fun _ _ => rfl⟩
  | true =>
    simp only [true_and]
    rcases Nat.lt_or_ge o.connection.queue.length writeCapacity with hlt | hge
    · simp only [if_neg (Nat.not_le_of_lt hlt), if_pos hlt]
      refine ⟨_, rfl, ⟨h.session, h.carrier, ?_⟩, fun conn hne => ?_⟩
      · rw [hconn]
        exact HashMap.get_insert_self _ _ _
      · rw [hconn]
        exact HashMap.get_insert_ne _ _ hne
    · have hdropped : shouldBufferUnderCongestion frame.frameType = false := by
        rw [hdata]
        rfl
      simp only [if_pos hge, if_neg (Nat.not_lt_of_le hge), hdropped]
      exact ⟨_, rfl, ⟨h.session, h.carrier, h.connection⟩, fun _ _ => rfl⟩

theorem exec_sendSingleMesh (i : Input) (h : o.At s) (mesh : MeshDataFrame) :
    ∃ s', exec i (sendSingleMesh o.cell mesh) s = (s', some ()) ∧ (o.push mesh).At s' ∧
      o.Spares s s' := by
  rw [sendSingleMesh, encryptWith, exec_bind]
  simp only [exec_atomically, h.session]
  set s₁ : State := { s with cells := s.cells.insert o.cell o.session.advance } with hs₁
  have h₁ : At { o with session := o.session.advance } s₁ :=
    ⟨HashMap.get_insert_self _ _ _, h.carrier, h.connection⟩
  rcases o.session.encryptFrame_cases mesh.encode with ⟨hcan, heq⟩ | ⟨hrefused, e, heq⟩
  · have hdata : (o.session.frameFor mesh.encode).frameType = .data := rfl
    obtain ⟨s', hexec, hat, hspares⟩ := exec_sendFrameBuffered i h₁ hdata
    refine ⟨s', by rw [heq]; exact hexec, ?_, hspares⟩
    have htakes : o.Takes mesh ↔ o.connection.writing = true ∧
        o.connection.queue.length < writeCapacity := and_iff_right hcan
    simp only [push, htakes]
    exact hat
  · refine ⟨s₁, by rw [heq]; rfl, ?_, fun _ _ => rfl⟩
    rw [push, if_neg fun htakes => hrefused htakes.1]
    exact h₁

theorem exec_each_sendSingleMesh (i : Input) (meshes : List MeshDataFrame) (h : o.At s) :
    ∃ s', exec i (Task.each (sendSingleMesh o.cell) meshes) s = (s', some ()) ∧
      (meshes.foldl push o).At s' ∧ o.Spares s s' := by
  induction meshes generalizing o s with
  | nil => exact ⟨s, rfl, h, fun _ _ => rfl⟩
  | cons mesh meshes ih =>
    obtain ⟨s₁, hexec, h₁, hspares₁⟩ := exec_sendSingleMesh i h mesh
    obtain ⟨s', hrest, h', hspares⟩ := ih h₁
    refine ⟨s', ?_, h', fun conn hne => (hspares conn hne).trans (hspares₁ conn hne)⟩
    rw [Task.each, exec_bind_of_some hexec]
    exact hrest

theorem exec_sendMeshData (i : Input) (h : o.At s) (srcId dstId : NodeId) (ttl : UInt8)
    (flags : DataFlags) (payload : Bytes) :
    ∃ s', exec i (sendMeshData o.cell srcId dstId ttl flags payload) s = (s', some ()) ∧
      ((meshFrames srcId dstId ttl flags payload (s.fragmentIdFor payload)).foldl push o).At s' ∧
      o.Spares s s' := by
  rw [sendMeshData, State.fragmentIdFor]
  split
  · -- taking a fragment id does not touch the outlet
    have hnext : o.At { s with fragId := s.fragId + 1 } := ⟨h.session, h.carrier, h.connection⟩
    exact exec_each_sendSingleMesh i _ hnext
  · exact exec_each_sendSingleMesh i _ h

theorem conn_foldl_push (meshes : List MeshDataFrame) (o : Outlet) :
    (meshes.foldl push o).conn = o.conn := by
  induction meshes generalizing o with
  | nil => rfl
  | cons mesh meshes ih => exact ih (o.push mesh)

/-- What is queued is opened to some of the frames, and to all of them if there is room. -/
theorem queue_foldl_push (meshes : List MeshDataFrame) (hmeshes : ∀ mesh ∈ meshes, mesh.Encodable)
    (o : Outlet) :
    ∃ wires handed, (meshes.foldl push o).connection.queue = o.connection.queue ++ wires ∧
      wires.map (openWire o.session.send.cipher) = handed.map some ∧ handed.Sublist meshes ∧
      (o.Room meshes.length → handed = meshes) := by
  induction meshes generalizing o with
  | nil => exact ⟨[], [], (append_nil _).symm, rfl, .slnil, fun _ => rfl⟩
  | cons mesh meshes ih =>
    obtain ⟨wires, handed, hqueue, hopen, hsub, hall⟩ :=
      ih (fun mesh' hmem => hmeshes mesh' (.tail _ hmem)) (o.push mesh)
    have hmesh := hmeshes mesh (.head _)
    rcases Decidable.em (o.Takes mesh) with htakes | hdropped
    · refine ⟨o.session.wireFor mesh :: wires, mesh :: handed, ?_, ?_, hsub.cons_cons mesh, ?_⟩
      · rw [foldl_cons, hqueue, push, if_pos htakes, append_assoc]
        rfl
      · rw [map_cons, openWire_wireFor _ hmesh]
        exact congrArg _ hopen
      · intro hroom
        rw [hall (hroom.push htakes)]
    · refine ⟨wires, handed, ?_, hopen, hsub.cons mesh, fun hroom => ?_⟩
      · rw [foldl_cons, hqueue, push, if_neg hdropped]
      · exact absurd (hroom.takes hmesh) hdropped

end Outlet

end ProximityMesh.Daemon
