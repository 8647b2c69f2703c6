/-
  Daemon/Standing.lean --- what sending, relaying and delivering leave alone.

  `Standing` is what the daemon holds about its peers: sessions, keys, routes,
  liveness, the connections that carry their frames, what has arrived on them, the
  peer directory, the trust set, the rate limits, and what handshakes are pending.
  Of a session the counter of frames sent is left out, since any sending advances it.

  Most of the daemon moves traffic and leaves all of that alone.  The lemmas here
  say so once for each of those functions; what is then left to look at is
  what changes the standing of a peer: handshakes, decryption, heartbeats, route
  updates, pongs and the removal of a peer.
-/
import ProximityMesh.Daemon.Runtime

set_option autoImplicit false

namespace ProximityMesh.Daemon

open Protocol Transport Crypto Routing ProximityMesh.Task State

/-- A session up to the number of frames it has sent. -/
def Session.unsent (session : Session) : Session :=
  { session with send := { session.send with counter := 0 } }

structure Standing where
  config : Config
  sessions : HashMap NodeId Nat
  cells : Nat → Option Session
  nextCell : Nat
  peerPubkeys : HashMap NodeId (Octets 32)
  channels : HashMap ChanId (List Delivered)
  spawned : List Responder
  routing : RoutingTable
  peerLastHb : HashMap NodeId Nat
  gwX25519ById : HashMap NodeId (Octets 32)
  peers : HashMap NodeId PeerWriter
  /-- The id the frames of a connection are tagged with. -/
  tags : ConnId → Option NodeId
  incoming : List Received
  peerDirectory : PeerDirectory
  trustedPeers : HashSet NodeId
  rateLimiter : RateLimiter
  reputation : ReputationTracker
  handshakes : List Completed

/-- What is left when the peer directory is not looked at. -/
def Standing.sansDirectory (st : Standing) : Standing := { st with peerDirectory := HashMap.empty }

def State.standing (s : State) : Standing where
  config := s.config
  sessions := s.sessions
  cells cell := (s.cells.get cell).map Session.unsent
  nextCell := s.nextCell
  peerPubkeys := s.peerPubkeys
  channels := s.channels
  spawned := s.spawned
  routing := s.routing
  peerLastHb := s.peerLastHb
  gwX25519ById := s.gwX25519ById
  peers := s.transport.peers
  tags conn := (s.transport.conns.get conn).map Connection.currentId
  incoming := s.transport.incoming
  peerDirectory := s.peerDirectory
  trustedPeers := s.trustedPeers
  rateLimiter := s.rateLimiter
  reputation := s.reputation
  handshakes := s.handshakes

/-! ## Sending -/

theorem standing_send (s : State) (peer : NodeId) (frame : TransportFrame) :
    standing { s with transport := (s.transport.send peer frame).2 } = s.standing := by
  unfold TcpTransport.send
  split
  · rfl
  · split
    · rfl
    · rename_i writer _ _ c hconn
      split
      · rfl
      · split
        · rfl
        · unfold standing
          congr 1
          funext conn
          rw [HashMap.get_insert]
          split
          · rename_i heq
            rw [heq, hconn]
            rfl
          · rfl

theorem leaves_transportSend (peer : NodeId) (frame : TransportFrame) :
    (transportSend peer frame).Leaves standing :=
  leaves_atomically fun _ s => standing_send s peer frame

theorem leaves_bufferPush (peer : NodeId) (frame : TransportFrame) :
    (bufferPush peer frame).Leaves standing :=
  leaves_atomically fun _ _ => rfl

theorem leaves_sendFrameBuffered (peer : NodeId) (frame : TransportFrame) :
    (sendFrameBuffered peer frame).Leaves standing := by
  refine leaves_bind (leaves_transportSend peer frame) fun result => ?_
  split
  · exact leaves_pure
  · exact leaves_bufferPush peer frame
  · split
    · exact leaves_bufferPush peer frame
    · exact leaves_modify fun _ => rfl
  · exact leaves_pure

theorem leaves_sendControl (peer : NodeId) (cf : ControlFrame) :
    (sendControl peer cf).Leaves standing :=
  leaves_sendFrameBuffered peer _

theorem leaves_sendHandshake (peer : NodeId) (wire : HandshakeWireFrame) :
    (sendHandshake peer wire).Leaves standing :=
  leaves_transportSend peer _

theorem leaves_flushSendBuffer (peerId : NodeId) :
    (flushSendBuffer peerId).Leaves standing := by
  refine leaves_bind (leaves_atomically fun i s => ?_) fun buffered => ?_
  · rfl
  · exact leaves_each fun frame => leaves_bind (leaves_transportSend peerId frame) fun _ =>
      leaves_pure

theorem leaves_sendPeerInfo [HkdfSha256] [X25519] (peer : NodeId) :
    (sendPeerInfo peer).Leaves standing :=
  leaves_bind leaves_read fun _ => leaves_sendControl peer _

section Encrypted

variable [Aes256Gcm]

theorem leaves_encryptWith (cell : Nat) (plaintext : Bytes) :
    (encryptWith cell plaintext).Leaves standing := by
  refine leaves_atomically fun _ s => ?_
  cases hcell : s.cells.get cell with
  | none => rfl
  | some session =>
    simp only [Session.encryptFrame_snd]
    unfold standing
    congr 1
    funext k
    rw [HashMap.get_insert]
    split
    · rename_i hk
      rw [hk, hcell]
      rfl
    · rfl

theorem leaves_sendSingleMesh (cell : Nat) (mesh : MeshDataFrame) :
    (sendSingleMesh cell mesh).Leaves standing := by
  refine leaves_bind (leaves_encryptWith cell _) fun result => ?_
  split
  · exact leaves_sendFrameBuffered _ _
  · exact leaves_pure

theorem leaves_sendMeshData (cell : Nat) (srcId dstId : NodeId) (ttl : UInt8) (flags : DataFlags)
    (payload : Bytes) :
    (sendMeshData cell srcId dstId ttl flags payload).Leaves standing := by
  unfold sendMeshData
  split
  · refine leaves_bind (leaves_atomically fun _ _ => rfl) fun fragId => ?_
    exact leaves_each (leaves_sendSingleMesh cell)
  · exact leaves_each (leaves_sendSingleMesh cell)

variable [Sha256] [Ed25519]

theorem leaves_sendRoutedControl (dstId : NodeId) (cf : ControlFrame) :
    (sendRoutedControl dstId cf).Leaves standing := by
  refine leaves_bind leaves_read fun hop => ?_
  split
  · exact leaves_pure
  · refine leaves_bind leaves_read fun cell => ?_
    split
    · exact leaves_pure
    · exact leaves_bind leaves_read fun _ =>
        leaves_bind (leaves_sendSingleMesh _ _) fun _ => leaves_pure

/-! ## Control frames -/

theorem leaves_dispatchPluginPayload (kind : String) :
    (dispatchPluginPayload kind).Leaves standing := by
  refine leaves_bind leaves_read fun plugins => ?_
  split
  · exact leaves_pure
  · split
    · refine leaves_bind leaves_input fun i => leaves_each fun action => ?_
      cases action with
      | direct peer frame => exact leaves_sendControl peer frame
      | routed dst frame =>
        exact leaves_bind (leaves_sendRoutedControl dst frame) fun _ => leaves_pure
    · exact leaves_pure

end Encrypted

theorem leaves_withDecoded {ν α : Type} {v : State → ν} {decode : BufM PimError α} {payload : Bytes}
    {k : α → DaemonM Unit} (h : ∀ a, (k a).Leaves v) : (withDecoded decode payload k).Leaves v := by
  unfold withDecoded
  split
  · exact h _
  · exact leaves_pure
  · exact leaves_panicked

theorem leaves_passesBroadcastGate (src : NodeId) (source : PeerInfoSource) :
    (passesBroadcastGate src source).Leaves standing := by
  cases source with
  | direct => exact leaves_pure
  | routed =>
    refine leaves_bind leaves_read fun minIntervalS => ?_
    split
    · refine leaves_atomically fun i s => ?_
      split
      · split <;> rfl
      · rfl
    · exact leaves_pure

theorem leaves_handleIncomingPeerInfo (src : NodeId) (x25519Pub : Octets 32) (friendlyName : String)
    (source : PeerInfoSource) :
    (handleIncomingPeerInfo src x25519Pub friendlyName source).Leaves
      fun s => s.standing.sansDirectory := by
  refine leaves_bind ((leaves_passesBroadcastGate src source).comp _) fun passes => ?_
  split
  · refine leaves_atomically fun i s => ?_
    split <;> rfl
  · exact leaves_pure

/-! ## The data path -/

theorem leaves_countForwarded (bytes : Nat) : (countForwarded bytes).Leaves standing :=
  leaves_modify fun _ => rfl

theorem leaves_countDropped : countDropped.Leaves standing := leaves_modify fun _ => rfl

theorem leaves_output (o : Output) : (output o).Leaves standing := leaves_modify fun _ => rfl

theorem leaves_reassembleOrDeliver (srcId : NodeId) (flags : DataFlags) (payload : Bytes) :
    (reassembleOrDeliver srcId flags payload).Leaves standing := by
  unfold reassembleOrDeliver
  split
  · split
    · exact leaves_pure
    · exact leaves_atomically fun _ _ => rfl
  · exact leaves_pure

theorem leaves_sendTranslated (outcome : Gateway.Outcome UInt16) :
    (sendTranslated outcome).Leaves standing := by
  unfold sendTranslated
  split
  · exact leaves_output _
  · exact leaves_pure
  · exact leaves_panicked

theorem leaves_egressV4 (packet : Bytes) : (egressV4 packet).Leaves standing := by
  refine leaves_bind leaves_read fun isGateway => ?_
  split
  · split
    · exact leaves_pure
    · refine leaves_bind (leaves_atomically fun i s => ?_) leaves_sendTranslated
      split <;> rfl
  · exact leaves_output _

theorem leaves_egressV6 (srcId : NodeId) (packet : Bytes) :
    (egressV6 srcId packet).Leaves standing := by
  refine leaves_bind leaves_read fun isGateway => ?_
  split
  · refine leaves_bind (leaves_atomically fun i s => ?_) leaves_sendTranslated
    split <;> rfl
  · exact leaves_pure

section Data

variable [Aes256Gcm]

theorem leaves_relayMesh (mesh : MeshDataFrame) : (relayMesh mesh).Leaves standing := by
  unfold relayMesh
  split
  · exact leaves_countDropped
  · refine leaves_bind leaves_read fun hop => ?_
    split
    · exact leaves_countDropped
    · refine leaves_bind leaves_read fun cell => ?_
      split
      · exact leaves_countDropped
      · exact leaves_bind (leaves_sendSingleMesh _ _) fun _ => leaves_countForwarded _

variable [Sha256] [Ed25519]

theorem leaves_deliverPacket (srcId : NodeId) (flags : DataFlags) (packet : Bytes) :
    (deliverPacket srcId flags packet).Leaves standing := by
  refine leaves_bind leaves_read fun isLocal => ?_
  split
  · split
    · exact leaves_pure
    · refine leaves_bind leaves_read fun hop => ?_
      split
      · exact leaves_pure
      · refine leaves_bind leaves_read fun cell => ?_
        split
        · exact leaves_pure
        · exact leaves_bind leaves_read fun _ => leaves_sendMeshData _ _ _ _ _ _
  · split
    · split
      · exact leaves_egressV4 packet
      · exact leaves_egressV6 srcId packet
      · exact leaves_pure
    · exact leaves_output _

theorem leaves_handleRoutedControl (mesh : MeshDataFrame) :
    (handleRoutedControl mesh).Leaves fun s => s.standing.sansDirectory := by
  refine leaves_withDecoded fun cf => ?_
  split
  · exact leaves_handleIncomingPeerInfo _ _ _ _
  · exact (leaves_dispatchPluginPayload _).comp _
  · exact leaves_pure

variable [X25519] [HkdfSha256]

theorem leaves_handleDelivery (mesh : MeshDataFrame) :
    (handleDelivery mesh).Leaves standing := by
  refine leaves_bind (leaves_countForwarded _) fun _ =>
    leaves_bind (leaves_reassembleOrDeliver _ _ _) fun packet => ?_
  split
  · exact leaves_pure
  · refine leaves_bind leaves_read fun config => ?_
    split
    · split
      · exact leaves_deliverPacket _ _ _
      · exact leaves_pure
    · exact leaves_deliverPacket _ _ _

/-- Once a data frame is decrypted, nothing it causes changes more of the standing
of a peer than the directory. -/
theorem leaves_handleMesh (mesh : MeshDataFrame) :
    (handleMesh mesh).Leaves fun s => s.standing.sansDirectory := by
  refine leaves_bind leaves_read fun selfId => ?_
  split
  · split
    · exact leaves_handleRoutedControl mesh
    · exact (leaves_handleDelivery mesh).comp _
  · exact (leaves_relayMesh mesh).comp _

end Data

theorem leaves_routeInternet : routeInternet.Leaves standing := by
  refine leaves_bind leaves_read fun route => ?_
  split
  · exact leaves_pure
  · exact leaves_bind (leaves_atomically fun _ _ => rfl) fun _ => leaves_pure

theorem leaves_routePacket (packet : Bytes) : (routePacket packet).Leaves standing := by
  unfold routePacket
  split
  · split
    · exact leaves_pure
    · refine leaves_bind leaves_read fun isOwn => ?_
      split
      · exact leaves_pure
      · refine leaves_bind leaves_read fun route => ?_
        split
        · exact leaves_pure
        · exact leaves_routeInternet
  · exact leaves_routeInternet
  · exact leaves_pure

theorem leaves_handleTun [Sha256] [Ed25519] [X25519] [HkdfSha256] [Aes256Gcm] (packet : Bytes) :
    (handleTun packet).Leaves standing := by
  refine leaves_bind (leaves_routePacket packet) fun dispatch => ?_
  split
  · exact leaves_pure
  · refine leaves_bind leaves_read fun cell => ?_
    split
    · exact leaves_pure
    · exact leaves_bind (leaves_atomically fun _ _ => rfl) fun _ => leaves_bind leaves_read fun _ =>
        leaves_bind (leaves_sendMeshData _ _ _ _ _ _) fun _ => leaves_countForwarded _

/-! ## Timers -/

theorem leaves_runHeartbeats [Sha256] [Ed25519] [X25519] [HkdfSha256] :
    runHeartbeats.Leaves standing := by
  refine leaves_bind (leaves_atomically fun _ _ => rfl) fun load => ?_
  refine leaves_bind (leaves_atomically fun _ _ => rfl) fun peers => ?_
  refine leaves_bind leaves_read fun config => leaves_bind leaves_read fun nearest => ?_
  refine leaves_bind leaves_input fun i => leaves_each fun peer => ?_
  exact leaves_bind (leaves_transportSend peer _) fun _ => leaves_pure

theorem leaves_runGatewayProbes : runGatewayProbes.Leaves standing := by
  refine leaves_bind leaves_read fun gateways => ?_
  refine leaves_bind (leaves_atomically fun _ _ => rfl) fun _ => leaves_each fun gwId => ?_
  exact leaves_bind (leaves_atomically fun _ _ => rfl) fun nonce => leaves_sendControl gwId _

theorem leaves_flushFrames (peerId : NodeId) (congested : Bool) (frames : List TransportFrame) :
    (flushFrames peerId congested frames).Leaves standing := by
  induction frames generalizing congested with
  | nil =>
    exact leaves_pure
  | cons frame frames ih =>
    cases congested with
    | true => exact leaves_bind (ih true) fun _ => leaves_pure
    | false =>
      refine leaves_bind (leaves_transportSend peerId frame) fun result => ?_
      split
      · exact ih false
      · exact leaves_bind (ih true) fun _ => leaves_pure
      · exact leaves_bind (ih false) fun _ => leaves_pure
      · exact ih false

theorem leaves_runBufferFlush : runBufferFlush.Leaves standing := by
  refine leaves_bind leaves_read fun connected => leaves_each fun peerId => ?_
  refine leaves_bind (leaves_atomically fun i s => ?_) fun buffered => ?_
  · rfl
  · refine leaves_bind (leaves_flushFrames peerId false buffered) fun requeue => ?_
    exact leaves_each (leaves_bufferPush peerId)

section Mesh

variable [Sha256] [Ed25519] [Aes256Gcm]

theorem leaves_runBroadcastCycle [X25519] [HkdfSha256] :
    runBroadcastCycle.Leaves standing := by
  refine leaves_bind leaves_read fun selfId => leaves_bind leaves_read fun nodes => ?_
  refine leaves_bind leaves_read fun identity => leaves_each fun peer => ?_
  exact leaves_bind (leaves_sendRoutedControl peer _) fun _ => leaves_pure

theorem leaves_sendReply (dstId nextHop : NodeId) (packet : Bytes) :
    (sendReply dstId nextHop packet).Leaves standing := by
  refine leaves_bind leaves_read fun cell => ?_
  split
  · exact leaves_pure
  · exact leaves_bind leaves_read fun _ => leaves_sendMeshData _ _ _ _ _ _

theorem leaves_runGatewayReturn (packet : Bytes) :
    (runGatewayReturn packet).Leaves standing := by
  unfold runGatewayReturn
  split
  · split
    · exact leaves_pure
    · refine leaves_bind (leaves_atomically fun i s => ?_) fun outcome => ?_
      · split <;> rfl
      · split
        · exact leaves_pure
        · refine leaves_bind leaves_read fun route => ?_
          split
          · exact leaves_pure
          · exact leaves_sendReply _ _ _
  · refine leaves_bind (leaves_atomically fun i s => ?_) fun outcome => ?_
    · split <;> rfl
    · split
      · exact leaves_pure
      · refine leaves_bind leaves_read fun hop => ?_
        split
        · exact leaves_pure
        · exact leaves_sendReply _ _ _
  · exact leaves_pure

end Mesh

end ProximityMesh.Daemon
