/-
  Transport/Tcp.lean --- the TCP transport: connections, the map of peers and the
  channel of received frames.

  Source: crates/pim-transport/src/tcp.rs and
  crates/pim-protocol/src/length_delimited.rs.

  A connection is a pair of a read and a write task that share one cell, the id
  its frames are tagged with.  For an accepted connection that id is the first 16
  bytes the remote party sent, for a dialled one a placeholder.  The map of peers
  is keyed by such ids: registering a connection replaces the entry of an earlier
  one, and dropping an entry leaves the read task of its connection running.

  Sockets, listeners and shutdown are left out; what arrives on a socket is an
  argument of `receive`.
-/
import ProximityMesh.Foundation.HashMap
import ProximityMesh.Protocol.TransportFrame

set_option autoImplicit false

namespace ProximityMesh.Transport

open Protocol

/-! ## Length-delimited framing -/

namespace LengthDelimitedCodec

/-- Maximum frame size: 1 MB. -/
def maxFrameSize : Nat := 1048576

/-- Wrap a message with a 4-byte length prefix. -/
def encode (payload : Bytes) : Bytes := beBytes 4 payload.length ++ payload

/-- Extract a complete message from the buffer; `none` if more data is needed. -/
def decode : BufM PimError (Option Bytes) := do
  if (← BufM.len) < 4 then
    return none
  let length ← BufM.getBe 0 4
  if length > maxFrameSize then
    BufM.fail (.protocol ("frame too large: " ++ toString length ++ " bytes, max " ++
      toString maxFrameSize))
  let total := 4 + length
  if (← BufM.len) < total then
    return none
  BufM.advance 4
  return some (← BufM.splitTo length)

theorem length_encode (payload : Bytes) : (encode payload).length = 4 + payload.length := by
  rw [encode, List.length_append, length_beBytes]

theorem encode_inj {payload payload' : Bytes} (h : encode payload = encode payload') :
    payload = payload' :=
  (List.append_inj h (by rw [length_beBytes, length_beBytes])).2

theorem decode_encode_append {payload : Bytes} (h : payload.length ≤ maxFrameSize) (rest : Bytes) :
    decode (encode payload ++ rest) = .ok (some payload) rest := by
  have hcount : beNat (beBytes 4 payload.length) = payload.length := by
    rw [beNat_beBytes]
    exact Nat.mod_eq_of_lt (Nat.lt_of_le_of_lt h (by decide))
  rw [BufM.eq_ok_iff_ensures]
  unfold decode
  simp +arith [encode, hcount, h]

theorem decode_encode {payload : Bytes} (h : payload.length ≤ maxFrameSize) :
    decode (encode payload) = .ok (some payload) [] := by
  simpa using decode_encode_append h []

/-- A message is read off its own encoding, and only when all of it is there; in
every other case the buffer stays as it is. -/
theorem decode_ensures (buf : Bytes) :
    BufM.Ensures decode buf
      (fun message rest => match message with
        | some payload => payload.length ≤ maxFrameSize ∧ buf = encode payload ++ rest
        | none => rest = buf ∧ (4 ≤ buf.length → buf.length < 4 + beNat (window buf 0 4)))
      fun f buf' => f ≠ .panic ∧ buf' = buf ∧ 4 ≤ buf.length ∧
        maxFrameSize < beNat (window buf 0 4) := by
  by_cases hlen : buf.length < 4
  · simp [decode, Nat.not_le.mpr hlen]
  · have hle : ∀ k, k ≤ 4 → k ≤ buf.length := by omega
    obtain ⟨n, hn⟩ : ∃ n, n = beNat (window buf 0 4) := ⟨_, rfl⟩
    simp [decode, hle, ← hn]
    intro hmax htotal
    have hcount : beBytes 4 n = window buf 0 4 := hn ▸ beBytes_beNat (length_window (hle 4 le_rfl))
    have hlength : (window buf 4 n).length = n := length_window htotal
    refine ⟨fun _ => ⟨.inl hmax, ?_⟩, by omega⟩
    simp (disch := omega) [encode, take_drop, hlength, hcount]

end LengthDelimitedCodec

/-! ## The transport -/

inductive IpAddr where
  | v4 (octets : Octets 4)
  | v6 (octets : Octets 16)
  deriving DecidableEq

structure SocketAddr where
  ip : IpAddr
  port : UInt16
  deriving DecidableEq

inductive TransportError where
  | peerNotConnected (peer : NodeId)
  | sendFailed (message : String)
  | congested (peer : NodeId)
  deriving DecidableEq

/-- The socket behind a connection. -/
abbrev ConnId : Type := Nat

/-- Handle for writing to a peer's stream: the channel and the id cell are those
of the connection. -/
structure PeerWriter where
  conn : ConnId
  remoteAddr : SocketAddr
  deriving DecidableEq

/-- What the tasks of one connection share. -/
structure Connection where
  /-- The id its frames are tagged with. -/
  currentId : NodeId
  /-- Bytes read and not yet decoded. -/
  buf : Bytes
  queue : List Bytes
  /-- The read task runs. -/
  reading : Bool
  /-- The write task runs. -/
  writing : Bool
  deriving DecidableEq

/-- A received frame, the id it is tagged with and the connection it came on,
which the source does not record. -/
structure Received where
  conn : ConnId
  peer : NodeId
  frame : TransportFrame
  deriving DecidableEq

structure TcpTransport where
  nodeId : NodeId
  peers : HashMap NodeId PeerWriter
  conns : HashMap ConnId Connection
  nextConn : ConnId
  /-- Frames of all connections, in order of arrival. -/
  incoming : List Received

namespace TcpTransport

def new (nodeId : NodeId) : TcpTransport where
  nodeId := nodeId
  peers := .empty
  conns := .empty
  nextConn := 0
  incoming := []

/-- Capacity of the channel of a write task. -/
def writeCapacity : Nat := 64

/-- Capacity of the channel of received frames. -/
def incomingCapacity : Nat := 256

/-- The first half of `register_peer`: the tasks of a new connection. -/
def openConn (t : TcpTransport) (peerId : NodeId) : TcpTransport :=
  { t with
    conns := t.conns.insert t.nextConn
      { currentId := peerId, buf := [], queue := [], reading := true, writing := true }
    nextConn := t.nextConn + 1 }

/-- The second half of `register_peer`: store the writer. -/
def storeWriter (t : TcpTransport) (conn : ConnId) (peerId : NodeId) (remoteAddr : SocketAddr) :
    TcpTransport :=
  { t with peers := t.peers.insert peerId ⟨conn, remoteAddr⟩ }

/-- Rename a peer after learning its real id; nothing happens without an entry. -/
def renamePeer (t : TcpTransport) (oldId newId : NodeId) : TcpTransport :=
  match t.peers.get oldId with
  | some writer =>
      { t with
        conns := t.conns.modify writer.conn fun c => { c with currentId := newId }
        peers := (t.peers.remove oldId).insert newId writer }
  | none => t

/-- The remote address of a connected peer. -/
def peerAddr (t : TcpTransport) (peerId : NodeId) : Option SocketAddr :=
  (t.peers.get peerId).map PeerWriter.remoteAddr

def disconnect (t : TcpTransport) (peer : NodeId) : TcpTransport :=
  { t with peers := t.peers.remove peer }

/-- `try_read` gives no peers while the map is locked. -/
def connectedPeers (t : TcpTransport) (locked : Bool) : List NodeId :=
  if locked then [] else t.peers.keys

/-- Queue a frame for a peer. -/
def send (t : TcpTransport) (peer : NodeId) (frame : TransportFrame) :
    Except TransportError Unit × TcpTransport :=
  match t.peers.get peer with
  | none => (.error (.peerNotConnected peer), t)
  | some writer =>
      match t.conns.get writer.conn with
      | none => (.error (.sendFailed "write channel closed"), t)
      | some c =>
          if !c.writing then (.error (.sendFailed "write channel closed"), t)
          else if c.queue.length ≥ writeCapacity then (.error (.congested peer), t)
          else
            let wire := LengthDelimitedCodec.encode frame.encode
            (.ok (), { t with
              conns := t.conns.insert writer.conn { c with queue := c.queue ++ [wire] } })

/-! ## The tasks of a connection -/

/-- The read task appends what it read. -/
def receive (t : TcpTransport) (conn : ConnId) (chunk : Bytes) : Option TcpTransport := do
  let c ← t.conns.get conn
  guard c.reading
  return { t with conns := t.conns.insert conn { c with buf := c.buf ++ chunk } }

/-- The read task takes one frame off its buffer and hands it on under the current
id; a frame that does not decode is dropped.  `none` if no complete frame is there,
if the length prefix is invalid or if the channel is full. -/
def deliver (t : TcpTransport) (conn : ConnId) : Option TcpTransport := do
  let c ← t.conns.get conn
  guard (c.reading && decide (t.incoming.length < incomingCapacity))
  match LengthDelimitedCodec.decode c.buf with
  | .ok (some frameBytes) rest =>
      let t := { t with conns := t.conns.insert conn { c with buf := rest } }
      match TransportFrame.decode frameBytes with
      | .ok frame _ => some { t with incoming := t.incoming ++ [⟨conn, c.currentId, frame⟩] }
      | .error (.error _) _ => some t
      | .error .panic _ =>
        some { t with conns := t.conns.modify conn fun c => { c with reading := false } }
  | _ => none

/-- The next received frame, of whichever connection; `none` while there is none. -/
def recv (t : TcpTransport) : Option (Received × TcpTransport) :=
  match t.incoming with
  | [] => none
  | r :: incoming => some (r, { t with incoming })

/-- The read task saw the end of the stream, or an error; the result is the id it
will clean up. -/
def endOfStream (t : TcpTransport) (conn : ConnId) : Option (TcpTransport × NodeId) := do
  let c ← t.conns.get conn
  guard c.reading
  return ({ t with conns := t.conns.insert conn { c with reading := false } }, c.currentId)

/-- Its cleanup: drop the entry of the id unless a newer connection owns it. -/
def cleanup (t : TcpTransport) (conn : ConnId) (id : NodeId) : TcpTransport :=
  match t.peers.get id with
  | some writer => if writer.conn = conn then { t with peers := t.peers.remove id } else t
  | none => t

/-- The write task writes one message to the socket; `ok` is false when that fails
and the task ends. -/
def writeOut (t : TcpTransport) (conn : ConnId) (ok : Bool) : Option (TcpTransport × Bytes) := do
  let c ← t.conns.get conn
  guard c.writing
  match c.queue with
  | [] => none
  | wire :: queue =>
      some ({ t with conns := t.conns.insert conn { c with queue, writing := ok } }, wire)

/-- A message that arrives whole is handed on as the frame in it. -/
theorem incoming_of_receive_deliver {t : TcpTransport} {conn : ConnId} {c : Connection}
    {wire frameBytes rest rest' : Bytes} {frame : TransportFrame} (hc : t.conns.get conn = some c)
    (hbuf : c.buf = []) (hreading : c.reading = true) (hroom : t.incoming.length < incomingCapacity)
    (hwire : LengthDelimitedCodec.decode wire = .ok (some frameBytes) rest)
    (hframe : TransportFrame.decode frameBytes = .ok frame rest') :
    ∃ t₁ t₂, t.receive conn wire = some t₁ ∧ t₁.deliver conn = some t₂ ∧
      t₂.incoming = t.incoming ++ [⟨conn, c.currentId, frame⟩] := by
  refine ⟨{ t with conns := t.conns.insert conn { c with buf := wire } },
    { t with
      conns := (t.conns.insert conn { c with buf := wire }).insert conn { c with buf := rest }
      incoming := t.incoming ++ [⟨conn, c.currentId, frame⟩] }, ?_, ?_, rfl⟩
  · simp [receive, hc, hreading, hbuf]
  · simp [deliver, hreading, hroom, hwire, hframe]

end TcpTransport

end ProximityMesh.Transport
