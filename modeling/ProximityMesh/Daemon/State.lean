/-
  Daemon/State.lean --- the shared state of the daemon and the helpers that send
  frames and drop peers.

  Source: `DaemonState` in crates/pim-daemon/src/app.rs, peer_tasks.rs,
  ip_control.rs, the senders of data_plane.rs, auth.rs;
  crates/pim-routing/src/signing.rs.

  A function of the source is a task; one lock acquisition is one step of it.  A
  session is behind an `Arc`: the map holds a reference, and a task that has
  cloned it keeps using the same ciphers after the entry is gone, so `cells` is
  the heap the references point into.

  `handshakes` is not a field of the source.  Each time a session is installed or a
  public key stored, it records the handshake that did it.
-/
import ProximityMesh.Crypto.E2e
import ProximityMesh.Crypto.Handshake
import ProximityMesh.Daemon.Services
import ProximityMesh.Daemon.Session
import ProximityMesh.Foundation.Task
import ProximityMesh.Gateway.Engine
import ProximityMesh.Protocol.LinkFrames
import ProximityMesh.Protocol.Reassembler
import ProximityMesh.Routing.Table

set_option autoImplicit false

namespace ProximityMesh.Daemon

open Protocol Transport Crypto Routing

/-- What a plugin asks the daemon to send. -/
inductive PluginAction where
  | direct (peer : NodeId) (frame : ControlFrame)
  | routed (dst : NodeId) (frame : ControlFrame)
  deriving DecidableEq

/-- What the runtime and the operating system supply to one step. -/
structure Input where
  /-- `Instant::now()`, in nanoseconds. -/
  now : Nat
  /-- Milliseconds since the Unix epoch. -/
  nowMs : Int
  /-- Draws of the random number generator. -/
  random : Nat → Octets 32
  /-- The timer of the awaited operation has fired. -/
  timedOut : Bool
  /-- The system call, file access or database access succeeds. -/
  ioOk : Bool
  /-- A `try_read` finds its lock taken. -/
  locked : Bool
  /-- What the plugin that handles a payload sends in answer. -/
  answers : List PluginAction

/-- The first `n` bytes of a random draw. -/
def Input.randomOctets (i : Input) (draw n : Nat) (h : n ≤ 32) : Octets n :=
  ⟨(i.random draw).toList.take n, by simp [h]⟩

/-- What is fixed for the lifetime of the daemon. -/
structure Config where
  /-- Ed25519 seed of the identity. -/
  signingKey : Octets 32
  nodeName : String
  isGateway : Bool
  meshIpv4 : Ipv4Addr
  /-- Set in a private mesh. -/
  meshHandshakeKey : Option (Octets 32)
  policy : AuthorizationPolicy
  allowList : HashSet NodeId
  /-- The payload kinds of each plugin, once plugins are initialised. -/
  pluginKinds : Option (List (List String))
  /-- `messaging.broadcast.min_peer_interval_s`. -/
  minPeerIntervalS : Nat

namespace Config

/-- `state.self_id`. -/
def selfId [Sha256] [Ed25519] (c : Config) : NodeId :=
  NodeId.fromPublicKey (Ed25519.verifyingKey c.signingKey)

/-- `state.own_x25519_pub`. -/
def ownX25519Pub [HkdfSha256] [X25519] (c : Config) : Octets 32 :=
  E2e.x25519PublicFromSeed c.signingKey

end Config

/-- The channel of a handshake task. -/
abbrev ChanId : Type := Nat

/-- A handshake message and the connection it came on. -/
structure Delivered where
  conn : ConnId
  wire : HandshakeWireFrame
  deriving DecidableEq

/-- A responder the event loop has spawned. -/
structure Responder where
  peerId : NodeId
  init : Delivered
  chan : ChanId
  deriving DecidableEq

/-- A completed handshake: the message of the peer, the connection it came on, the
key derived from it, the id it was filed under, and the role and the final state of the
local side. -/
structure Completed where
  conn : ConnId
  message : HandshakeMessage
  key : Octets 32
  peerId : NodeId
  isInitiator : Bool
  own : Handshaker
  deriving DecidableEq

/-- A packet that leaves the mesh at this node. -/
inductive Output where
  | tun (packet : Bytes)
  | internet (packet : Bytes)
  deriving DecidableEq

structure State where
  config : Config
  transport : TcpTransport
  sessions : HashMap NodeId Nat
  cells : HashMap Nat Session
  nextCell : Nat
  peerPubkeys : HashMap NodeId (Octets 32)
  hsChannels : HashMap NodeId ChanId
  channels : HashMap ChanId (List Delivered)
  nextChan : ChanId
  /-- Responders spawned and not yet running. -/
  spawned : List Responder
  pendingOutbound : HashMap IpAddr PendingOutbound
  /-- A handler holds the lock of `pending_outbound` while it awaits something else. -/
  pendingHeld : Bool
  cancelledOutbounds : HashSet NodeId
  routing : RoutingTable
  reassemblers : HashMap NodeId Reassembler
  fragId : UInt32
  /-- Last heartbeat received per peer. -/
  peerLastHb : HashMap NodeId Nat
  sendBuffer : SendBuffer
  pendingPings : HashMap UInt64 (NodeId × Nat)
  rateLimiter : RateLimiter
  reputation : ReputationTracker
  trustedPeers : HashSet NodeId
  peerDirectory : PeerDirectory
  broadcastPeerLastSeen : HashMap NodeId Nat
  /-- X25519 keys of gateways, a local variable of the event loop. -/
  gwX25519ById : HashMap NodeId (Octets 32)
  packetsForwarded : UInt64
  bytesForwarded : UInt64
  packetsDropped : UInt64
  congestionDrops : UInt64
  /-- `packets_forwarded` at the last heartbeat, a local variable of that task. -/
  lastFwd : UInt64
  gwEngine : Option (Octets 4 × Gateway.Inner Gateway.ConntrackKey)
  gwEngineV6 : Option (Octets 16 × Gateway.Inner Gateway.ConntrackKeyV6)
  internetLink : Bool
  outputs : List Output
  /-- The event loop is inside an iteration. -/
  loopBusy : Bool
  handshakes : List Completed

/-- A function of the daemon. -/
abbrev DaemonM (α : Type) : Type := Task Input State α

namespace State

def session (s : State) (peerId : NodeId) : Option Session :=
  (s.sessions.get peerId).bind s.cells.get

/-- The connection that carries the frames sent to a peer. -/
def carrier (s : State) (peerId : NodeId) : Option ConnId :=
  (s.transport.peers.get peerId).map PeerWriter.conn

end State

/-! ## Sending -/

/-- `transport.send`. -/
def transportSend (peer : NodeId) (frame : TransportFrame) : DaemonM (Except TransportError Unit) :=
  .atomically fun _ s =>
    let (result, transport) := s.transport.send peer frame
    ({ s with transport }, result)

def bufferPush (peer : NodeId) (frame : TransportFrame) : DaemonM Unit :=
  .atomically fun i s =>
    ({ s with
      sendBuffer := s.sendBuffer.push i.now peer (Priority.ofType frame.frameType) frame }, ())

/-- Frames other than data are buffered when the send queue of a peer is full. -/
def shouldBufferUnderCongestion (frameType : FrameType) : Bool :=
  (Priority.ofType frameType).rank < Priority.data.rank

/-- Send a frame, or hold it back for a peer that cannot be reached now. -/
def sendFrameBuffered (peer : NodeId) (frame : TransportFrame) : DaemonM Unit := do
  match ← transportSend peer frame with
  | .ok () => pure ()
  | .error (.peerNotConnected _) => bufferPush peer frame
  | .error (.congested _) =>
      if shouldBufferUnderCongestion frame.frameType then bufferPush peer frame
      else .modify fun s => { s with congestionDrops := s.congestionDrops + 1 }
  | .error (.sendFailed _) => pure ()

/-- An unencrypted frame. -/
def plainFrame (frameType : FrameType) (payload : Bytes) : TransportFrame :=
  { frameType, nonce := Octets.zero 12, payload, tag := Octets.zero 16 }

/-- Send a control frame unencrypted to a direct peer. -/
def sendControl (peer : NodeId) (cf : ControlFrame) : DaemonM Unit :=
  sendFrameBuffered peer (plainFrame .control cf.encode)

/-- `sessions.get(..).cloned()`. -/
def sessionRef (peer : NodeId) : DaemonM (Option Nat) := .read fun s => s.sessions.get peer

/-- `MAX_FRAGMENT_PAYLOAD` less the mesh header. -/
def fragmentThreshold : Nat := maxFragmentPayload - 40

/-- The mesh frames of a payload: one, or one for each fragment. -/
def meshFrames (srcId dstId : NodeId) (ttl : UInt8) (flags : DataFlags) (payload : Bytes)
    (fragId : UInt32) : List MeshDataFrame :=
  if payload.length > fragmentThreshold then
    (fragmentPacket payload fragId).map fun frag =>
      { srcId, dstId, sessionId := 0, ttl, flags := flags.union .isFragment
        payload := frag.serialize }
  else [{ srcId, dstId, sessionId := 0, ttl, flags, payload }]

/-- `state.next_frag_id()`. -/
def nextFragId : DaemonM UInt32 :=
  .atomically fun _ s => ({ s with fragId := s.fragId + 1 }, s.fragId)

section Encrypted

variable [Aes256Gcm]

/-- `session.encrypt_frame` on a referenced session, with the id it sends to. -/
def encryptWith (cell : Nat) (plaintext : Bytes) :
    DaemonM (Option (NodeId × Except SessionError TransportFrame)) :=
  .atomically fun _ s =>
    match s.cells.get cell with
    | some session =>
        let (result, session') := session.encryptFrame plaintext
        ({ s with cells := s.cells.insert cell session' }, some (session.peerId, result))
    | none => (s, none)

/-- `session.decrypt_frame` on a referenced session. -/
def decryptWith (cell : Nat) (frame : TransportFrame) :
    DaemonM (Option (Except SessionError TransportFrame)) :=
  .atomically fun _ s =>
    match s.cells.get cell with
    | some session =>
        let (result, session') := session.decryptFrame frame
        ({ s with cells := s.cells.insert cell session' }, some result)
    | none => (s, none)

/-- Encrypt one mesh frame for the peer of a session and send it. -/
def sendSingleMesh (cell : Nat) (mesh : MeshDataFrame) : DaemonM Unit := do
  match ← encryptWith cell mesh.encode with
  | some (peer, .ok frame) => sendFrameBuffered peer frame
  | _ => pure ()

/-- Send a payload over a session, in fragments if it is long. -/
def sendMeshData (cell : Nat) (srcId dstId : NodeId) (ttl : UInt8) (flags : DataFlags)
    (payload : Bytes) : DaemonM Unit := do
  if payload.length > fragmentThreshold then
    let fragId ← nextFragId
    Task.each (sendSingleMesh cell) (meshFrames srcId dstId ttl flags payload fragId)
  else Task.each (sendSingleMesh cell) (meshFrames srcId dstId ttl flags payload 0)

variable [Sha256] [Ed25519]

def sendRoutedControlVia (nextHop dstId : NodeId) (cf : ControlFrame) : DaemonM Bool := do
  match ← sessionRef nextHop with
  | none => return false
  | some cell =>
      let selfId ← .read fun s => s.config.selfId
      sendSingleMesh cell
        { srcId := selfId, dstId, sessionId := 0, ttl := 8, flags := .isControl,
          payload := cf.encode }
      return true

/-- Send a control frame along the routing table. -/
def sendRoutedControl (dstId : NodeId) (cf : ControlFrame) : DaemonM Bool := do
  match ← (.read fun s => s.routing.lookup dstId : DaemonM (Option NodeId)) with
  | none => return false
  | some nextHop => sendRoutedControlVia nextHop dstId cf

end Encrypted

/-! ## Route updates -/

/-- The bytes under the signature of a route update. -/
def signingBytes (frame : RouteUpdateFrame) : Bytes :=
  frame.originId.asBytes.toList ++ beBytes 8 frame.sequence.toNat ++
    beBytes 2 frame.entries.length ++ frame.entries.flatMap RouteUpdateFrame.encodeEntry

section Signed

variable [Ed25519]

def signRouteUpdate (signingKey : Octets 32) (frame : RouteUpdateFrame) : RouteUpdateFrame :=
  { frame with signature := Ed25519.sign signingKey (signingBytes frame) }

/-- An all-zero signature is refused before it is checked. -/
def verifyRouteUpdate (frame : RouteUpdateFrame) (verifyingKey : Octets 32) : Bool :=
  if frame.signature = Octets.zero 64 then false
  else Ed25519.verify verifyingKey (signingBytes frame) frame.signature

/-- Generate, sign and send the advertisements for all direct peers.  An overflow
of the sequence counter panics. -/
def advertiseAll : DaemonM Unit := do
  let generated : Option (List (NodeId × RouteUpdateFrame)) ← .atomically fun _ s =>
    match s.routing.generateAllAdvertisements with
    | some (routing, adverts) => ({ s with routing }, some adverts)
    | none => (s, none)
  match generated with
  | none => .panicked
  | some adverts =>
      Task.each (fun advert => do
        let signingKey ← .read fun s => s.config.signingKey
        sendFrameBuffered advert.1
          (plainFrame .routeUpdate (signRouteUpdate signingKey advert.2).encode)) adverts

/-- Forget a peer: its session, key, rate limit, routes, heartbeat and transport
entry; then tell the others.  The reconnect that may follow is an event of its
own. -/
def removePeer (peerId : NodeId) : DaemonM Unit := do
  .modify fun s => { s with sessions := s.sessions.remove peerId }
  .modify fun s => { s with peerPubkeys := s.peerPubkeys.remove peerId }
  .modify fun s => { s with rateLimiter := s.rateLimiter.removePeer peerId }
  .modify fun s => { s with routing := (s.routing.removePeer peerId).1 }
  .modify fun s => { s with peerLastHb := s.peerLastHb.remove peerId }
  .modify fun s => { s with transport := s.transport.disconnect peerId }
  advertiseAll

end Signed

/-- Drain the send buffer of a peer and send what has not expired. -/
def flushSendBuffer (peerId : NodeId) : DaemonM Unit := do
  let buffered ← .atomically fun i s =>
    let (frames, sendBuffer) := s.sendBuffer.drain i.now peerId
    ({ s with sendBuffer }, frames)
  Task.each (fun frame => do let _ ← transportSend peerId frame) buffered

/-! ## Authorization -/

/-- The decision on the id of a key; `none` is a failed write of the trust store.
Under trust on first use the id is remembered. -/
def authorizeAuthenticatedPeer (peerId : NodeId) : DaemonM (Option AuthorizationDecision) := do
  let (policy, listed) ← .read fun s => (s.config.policy, s.config.allowList.contains peerId)
  match policy with
  | .allowAll => return some .allowed
  | .allowList => return some (if listed then .allowed else .rejected)
  | .trustOnFirstUse =>
      if ← .read fun s => s.trustedPeers.contains peerId then return some .allowed
      else
        .atomically fun i s =>
          if s.trustedPeers.contains peerId then (s, some .allowed)
          else if i.ioOk then
            ({ s with trustedPeers := s.trustedPeers.insert peerId () }, some .trustedOnFirstUse)
          else (s, none)

end ProximityMesh.Daemon
