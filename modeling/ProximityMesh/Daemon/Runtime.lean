/-
  Daemon/Runtime.lean --- the running daemon: its start, its timers and the events
  it reacts to.

  Source: crates/pim-daemon/src/app.rs, data_plane.rs, peer_tasks.rs,
  gateway_tasks.rs, identity_broadcast.rs; the read, write and accept tasks of
  crates/pim-transport/src/tcp.rs.

  `start` says what each event does at once and which task it starts, and
  `Sys.Reaches start` is a run of the daemon: any connections, any bytes on them, any
  timing, with tasks interleaved at every lock.  The event loop takes up its next
  event when it is done with the last one.

  Left out are the tasks that touch none of the modelled state but to expire parts
  of it (reassembly, send buffer and conntrack), discovery, and the RPC server.
-/
import ProximityMesh.Daemon.EventLoop

set_option autoImplicit false

namespace ProximityMesh.Daemon

open Protocol Transport Crypto Routing

/-! ## Start -/

/-- What the daemon is started with. -/
structure Boot where
  config : Config
  ipv4Prefix : Ipv4Prefix
  /-- Loaded from the trust store. -/
  trustedPeers : HashSet NodeId
  /-- Loaded from the peer database. -/
  peerDirectory : PeerDirectory
  /-- Uplink addresses of a gateway. -/
  externalIp : Option (Octets 4)
  externalIpV6 : Option (Octets 16)
  internetLink : Bool

section Start

variable [Sha256] [Ed25519] [X25519] [HkdfSha256]

/-- The state before the first event. -/
def Boot.state (b : Boot) : State where
  config := b.config
  transport := TcpTransport.new b.config.selfId
  sessions := .empty
  cells := .empty
  nextCell := 0
  peerPubkeys := .empty
  hsChannels := .empty
  channels := .empty
  nextChan := 0
  spawned := []
  pendingOutbound := .empty
  pendingHeld := false
  cancelledOutbounds := .empty
  routing :=
    (RoutingTable.new b.config.selfId b.config.isGateway b.ipv4Prefix).setSelfMeshIp
      b.config.meshIpv4
  reassemblers := .empty
  fragId := 1
  peerLastHb := .empty
  sendBuffer := .default
  pendingPings := .empty
  rateLimiter := .default
  reputation := ⟨.empty⟩
  trustedPeers := b.trustedPeers
  peerDirectory := b.peerDirectory
  broadcastPeerLastSeen := .empty
  gwX25519ById :=
    if b.config.isGateway then HashMap.empty.insert b.config.selfId b.config.ownX25519Pub
    else .empty
  packetsForwarded := 0
  bytesForwarded := 0
  packetsDropped := 0
  congestionDrops := 0
  lastFwd := 0
  gwEngine := b.externalIp.map fun ip => (ip, .new)
  gwEngineV6 := b.externalIpV6.map fun ip => (ip, .new)
  internetLink := b.internetLink
  outputs := []
  loopBusy := false
  handshakes := []

end Start

/-! ## Timers -/

/-- Heartbeat timeout of 15 seconds. -/
def livenessTimeout : Nat := 15000000000

/-- Remove the peers whose last heartbeat is too old. -/
def runPeerLiveness [Ed25519] : DaemonM Unit := do
  let timedOut ← .atomically fun i s =>
    (s, (s.peerLastHb.iter.filter fun e => i.now - e.2 > livenessTimeout).map Prod.fst)
  Task.each (fun peerId => do
    removePeer peerId
    let newlyBlacklisted ← .atomically fun _ s =>
      let (reached, reputation) := s.reputation.recordFailure peerId
      ({ s with reputation }, reached)
    if newlyBlacklisted then
      .modify fun s => { s with routing := (s.routing.blacklistPeer peerId).1 }) timedOut

section Heartbeats

variable [Sha256] [Ed25519] [X25519] [HkdfSha256]

/-- The heartbeat of a node: a gateway announces itself with its key, any other
node its distance to the nearest gateway and no key. -/
def heartbeatFrame (config : Config) (nearest : Option (NodeId × UInt8)) (load : UInt8)
    (timestamp : UInt64) : HeartbeatFrame where
  senderId := config.selfId
  timestamp := timestamp
  gatewayHops := if config.isGateway then 0 else (nearest.map Prod.snd).getD 0xFF
  load := load
  gwX25519Pub := if config.isGateway then config.ownX25519Pub else Octets.zero 32

/-- The forwarding rate since the last heartbeat, 2000 packets being full load. -/
def forwardingLoad (current last : UInt64) : UInt8 :=
  UInt8.ofNat (min (current.toNat - last.toNat) 2000 * 255 / 2000)

def runHeartbeats : DaemonM Unit := do
  let load ← .atomically fun _ s =>
    ({ s with lastFwd := s.packetsForwarded }, forwardingLoad s.packetsForwarded s.lastFwd)
  let peers ← .atomically fun i s => (s, s.transport.connectedPeers i.locked)
  let config ← .read State.config
  let nearest ← .read fun s => s.routing.nearestGateway
  let i ← .input
  let hb := heartbeatFrame config nearest load (UInt64.ofNat i.nowMs.toNat)
  Task.each (fun peer => do
    let _ ← transportSend peer (plainFrame .heartbeat hb.encode)) peers

end Heartbeats

def directGateways (t : RoutingTable) : List NodeId :=
  (t.routes.iter.filter fun e =>
    e.2.isGateway && decide (e.2.hops < infinity) && t.directPeers.contains e.1).map Prod.fst

/-- Maximum age of a pending ping: 30 seconds. -/
def pendingPingTtl : Nat := 30000000000

def runGatewayProbes : DaemonM Unit := do
  let gateways ← .read fun s => directGateways s.routing
  .atomically fun i s =>
    let lost := (s.pendingPings.iter.filter fun e => i.now - e.2.2 ≥ pendingPingTtl).map Prod.fst
    ({ s with pendingPings := s.pendingPings.removeAll lost }, ())
  Task.each (fun gwId => do
    let nonce ← .atomically fun i s =>
      let nonce := UInt64.ofNat (beNat ((i.random 0).toList.take 8))
      ({ s with pendingPings := s.pendingPings.insert nonce (gwId, i.now) }, nonce)
    sendControl gwId (.ping nonce)) gateways

/-- Send buffered frames of one peer again; from the first that is congested on
they go back into the buffer. -/
def flushFrames (peerId : NodeId) : Bool → List TransportFrame → DaemonM (List TransportFrame)
  | _, [] => pure []
  | true, frame :: frames => do
      let rest ← flushFrames peerId true frames
      return frame :: rest
  | false, frame :: frames => do
      match ← transportSend peerId frame with
      | .ok () => flushFrames peerId false frames
      | .error (.congested _) =>
          let rest ← flushFrames peerId true frames
          return frame :: rest
      | .error (.peerNotConnected _) =>
          let rest ← flushFrames peerId false frames
          return frame :: rest
      | .error (.sendFailed _) => flushFrames peerId false frames

/-- Flush the send buffers of all peers with a session. -/
def runBufferFlush : DaemonM Unit := do
  let connected ← .read fun s => s.sessions.keys
  Task.each (fun peerId => do
    let buffered ← .atomically fun i s =>
      let (frames, sendBuffer) := s.sendBuffer.drain i.now peerId
      ({ s with sendBuffer }, frames)
    let requeue ← flushFrames peerId false buffered
    Task.each (bufferPush peerId) requeue) connected

section Mesh

variable [Sha256] [Ed25519] [X25519] [HkdfSha256] [Aes256Gcm]

/-- Send our identity to every node in the routing table. -/
def runBroadcastCycle : DaemonM Unit := do
  let selfId ← .read fun s => s.config.selfId
  let nodes ← .read fun s => s.routing.routes.keys.filter fun id => id ≠ selfId
  let (key, name) ← .read fun s => (s.config.ownX25519Pub, s.config.nodeName)
  Task.each (fun peer => do let _ ← sendRoutedControl peer (.peerInfo key name)) nodes

/-- Send a translated reply to a node along its route. -/
def sendReply (dstId nextHop : NodeId) (packet : Bytes) : DaemonM Unit := do
  match ← sessionRef nextHop with
  | none => pure ()
  | some cell =>
      let selfId ← .read fun s => s.config.selfId
      sendMeshData cell selfId dstId 8 .isInternet packet

/-- Send a translated reply to the node with an address. -/
def sendReplyTo (destIp : Octets 4) (packet : Bytes) : DaemonM Unit := do
  match ← (.read fun s => s.routing.lookupMeshIp (.fromOctets destIp) :
      DaemonM (Option (NodeId × NodeId))) with
  | none => pure ()
  | some (dstId, nextHop) => sendReply dstId nextHop packet

/-- An IPv4 packet of the internet link. -/
def returnV4 (packet : Bytes) : DaemonM Unit := do
  let outcome : Option (Octets 4 × Bytes) ← .atomically fun i s =>
    match s.gwEngine with
    | some (externalIp, inner) =>
        let (outcome, inner) :=
          (Gateway.gatewayEngine externalIp).translateInbound inner packet i.now
        ({ s with gwEngine := some (externalIp, inner) }, match outcome with
          | .ok destIp packet => some (destIp, packet)
          | .error _ _ => none)
    | none => (s, none)
  match outcome with
  | none => pure ()
  | some (destIp, packet) => sendReplyTo destIp packet

/-- A packet of the internet link of a gateway. -/
def runGatewayReturn (packet : Bytes) : DaemonM Unit := do
  match packetIpVersion packet with
  | some 4 =>
      if packet.length < 20 then pure ()
      else returnV4 packet
  | some 6 =>
      let outcome : Option (NodeId × Bytes) ← .atomically fun i s =>
        match s.gwEngineV6 with
        | some (externalIp, inner) =>
            let (outcome, inner) :=
              (Gateway.gatewayEngineV6 externalIp).translateInbound inner packet i.now
            ({ s with gwEngineV6 := some (externalIp, inner) }, match outcome with
              | .ok dstId packet => some (dstId, packet)
              | .error _ _ => none)
        | none => (s, none)
      match outcome with
      | none => pure ()
      | some (dstId, packet) =>
          match ← (.read fun s => s.routing.lookup dstId : DaemonM (Option NodeId)) with
          | none => pure ()
          | some nextHop => sendReply dstId nextHop packet
  | _ => pure ()

end Mesh

/-! ## Events -/

/-- What can happen to the daemon. -/
inductive Event where
  /-- A connection was accepted and sent 16 bytes. -/
  | accept (remoteAddr : SocketAddr) (id : NodeId)
  /-- Bytes arrive on a connection. -/
  | receive (conn : ConnId) (chunk : Bytes)
  /-- The read task of a connection takes a frame off its buffer. -/
  | deliver (conn : ConnId)
  | endOfStream (conn : ConnId)
  /-- The write task of a connection writes a message. -/
  | writeOut (conn : ConnId) (ok : Bool)
  /-- The event loop takes up the next received frame. -/
  | frame
  /-- The event loop takes up a packet of the TUN device. -/
  | tun (packet : Bytes)
  /-- A spawned responder starts. -/
  | responder
  | initiate (target : ConnectTarget)
  | reconnect (target : ConnectTarget) (known : Option NodeId)
  | bridge (peerNodeId : NodeId)
  | liveness
  | heartbeats
  | advertise
  | probes
  | bufferFlush
  | broadcast
  /-- The internet link of a gateway delivers a packet. -/
  | internet (packet : Bytes)

section Events

variable [Sha256] [Ed25519] [X25519] [HkdfSha256] [HmacSha256] [Blake3] [Aes256Gcm]

/-- An iteration of the event loop ends by waiting for the next event. -/
def iteration (body : DaemonM Unit) : DaemonM Unit := do
  body
  .modify fun s => { s with loopBusy := false }

/-- What an event does at once, and the task it starts; `none` if it cannot happen
now. -/
def start (e : Event) (s : State) : Option (State × DaemonM Unit) :=
  match e with
  | .accept remoteAddr id =>
      let conn := s.transport.nextConn
      some ({ s with transport := s.transport.openConn id },
        .modify fun s => { s with transport := s.transport.storeWriter conn id remoteAddr })
  | .receive conn chunk =>
      (s.transport.receive conn chunk).map fun transport => ({ s with transport }, pure ())
  | .deliver conn =>
      (s.transport.deliver conn).map fun transport => ({ s with transport }, pure ())
  | .endOfStream conn =>
      (s.transport.endOfStream conn).map fun (transport, id) =>
        ({ s with transport }, .modify fun s => { s with transport := s.transport.cleanup conn id })
  | .writeOut conn ok =>
      (s.transport.writeOut conn ok).map fun (transport, _) => ({ s with transport }, pure ())
  | .frame =>
      match s.loopBusy, s.transport.incoming with
      | false, r :: incoming =>
          some ({ s with loopBusy := true, transport := { s.transport with incoming } },
            iteration (handleFrame r))
      | _, _ => none
  | .tun packet =>
      if s.loopBusy then none
      else some ({ s with loopBusy := true }, iteration (handleTun packet))
  | .responder =>
      match s.spawned with
      | r :: spawned => some ({ s with spawned }, runResponder r)
      | [] => none
  | .initiate target => some (s, initiatePeerConnection target)
  | .reconnect target known => some (s, reconnectAttempt target known)
  | .bridge peerNodeId => some (s, runBridgedInitiator peerNodeId)
  | .liveness => some (s, runPeerLiveness)
  | .heartbeats => some (s, runHeartbeats)
  | .advertise => some (s, advertiseAll)
  | .probes => some (s, runGatewayProbes)
  | .bufferFlush => some (s, runBufferFlush)
  | .broadcast => some (s, runBroadcastCycle)
  | .internet packet => some (s, runGatewayReturn packet)

/-- The states a run of the daemon reaches in which every event meets `P`. -/
def Reaches (P : State → Event → Prop) (b : Boot) (s : State) : Prop :=
  ∃ S : Sys Input State, S.state = s ∧ Sys.Reaches start P ⟨b.state, []⟩ S

/-- A concrete run: where a list of choices leads. -/
theorem exists_reaches_of_play {P : State → Event → Prop} {ok : State → Event → Bool}
    (hok : ∀ s e, ok s e = true → P s e) (b : Boot) (choices : List (Choice Input Event))
    (check : State → Bool)
    (h : (Sys.play start ok ⟨b.state, []⟩ choices).any (fun S => check S.state) = true) :
    ∃ s, Reaches P b s ∧ check s = true := by
  obtain ⟨S, hplay, hcheck⟩ := (Option.any_eq_true _ _).mp h
  exact ⟨S.state, ⟨S, rfl, Sys.reaches_of_play hok .refl hplay⟩, hcheck⟩

theorem exists_reaches_of_choices (b : Boot) (choices : List (Choice Input Event))
    (check : State → Bool)
    (h : (Sys.play start (fun _ _ => true) ⟨b.state, []⟩ choices).any
      (fun S => check S.state) = true) :
    ∃ s, Reaches (fun _ _ => True) b s ∧ check s = true :=
  exists_reaches_of_play (fun _ _ _ => trivial) b choices check h

end Events

end ProximityMesh.Daemon
