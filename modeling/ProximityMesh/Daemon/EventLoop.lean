/-
  Daemon/EventLoop.lean --- the data path, and one iteration of the event loop.

  Source: crates/pim-daemon/src/app/event_loop.rs, data_plane.rs, net.rs and
  `icmp_echo_reply` of runtime_config.rs.

  An iteration handles a received frame (`handleFrame`) or a packet read from the
  TUN device (`handleTun`).  A data frame is decrypted under the session of the id
  it is tagged with; its mesh frame is then for this node, or relayed with the time
  to live counted down.

  The gateway's IPv6 engine is created when its uplink appears, which is left to
  the environment.
-/
import ProximityMesh.Daemon.LinkHandlers

set_option autoImplicit false

namespace ProximityMesh.Daemon

open Protocol Transport Crypto Routing

/-! ## Packets -/

def packetIpVersion (packet : Bytes) : Option UInt8 :=
  packet.head?.map fun (byte : UInt8) => byte >>> 4

/-- The address in bytes 16..20. -/
def destinationField (packet : Bytes) : Ipv4Addr :=
  ⟨BitVec.ofNat 32 (beNat (window packet 16 4))⟩

def ipv4Destination (packet : Bytes) : Option Ipv4Addr :=
  if packet.length < 20 || byteAt packet 0 >>> 4 ≠ 4 then none else some (destinationField packet)

/-- Broadcast, multicast, unspecified, loopback or link-local. -/
def isNonUnicast (ip : Ipv4Addr) : Bool :=
  let octet (i : Nat) : UInt8 := byteAt ip.octets.toList i
  ip.bits = 0xFFFFFFFF || octet 0 >>> 4 = 14 || ip.bits = 0 || octet 0 = 127 ||
    (octet 0 = 169 && octet 1 = 254)

def icmpEchoReply (packet : Bytes) : Option Bytes :=
  let ihl := (byteAt packet 0 &&& 0x0f).toNat * 4
  if packet.length < 28 then none
  else if packet.length < ihl + 8 then none
  else if byteAt packet 9 ≠ 1 then none
  else if byteAt packet ihl ≠ 8 || byteAt packet (ihl + 1) ≠ 0 then none
  else
    let reply := patch (patch packet 12 (window packet 16 4)) 16 (window packet 12 4)
    let reply := patch (patch reply ihl [0]) (ihl + 2) [0, 0]
    let icmp := Gateway.foldChecksum (Gateway.onesComplementSum (reply.drop ihl))
    let reply := patch (patch reply (ihl + 2) (beBytes 2 icmp.toNat)) 10 [0, 0]
    let ip := Gateway.foldChecksum (Gateway.onesComplementSum (reply.take ihl))
    some (patch reply 10 (beBytes 2 ip.toNat))

/-! ## Delivery at this node -/

def output (o : Output) : DaemonM Unit := .modify fun s => { s with outputs := s.outputs ++ [o] }

/-- A fragment waits for the rest of its packet; `none` while it is incomplete. -/
def reassembleOrDeliver (srcId : NodeId) (flags : DataFlags) (payload : Bytes) :
    DaemonM (Option Bytes) :=
  if flags.contains .isFragment then
    match FragmentFrame.deserialize payload with
    | none => pure none
    | some frag =>
        .atomically fun i s =>
          let r := (s.reassemblers.get srcId).getD Reassembler.new
          let (packet, r) := r.insert i.now frag
          ({ s with reassemblers := s.reassemblers.insert srcId r }, packet)
  else pure (some payload)

/-- The result of a NAT call; a panic of the engine stops the loop. -/
def sendTranslated : Gateway.Outcome UInt16 → DaemonM Unit
  | .ok _ packet => output (.internet packet)
  | .error (.error _) _ => pure ()
  | .error .panic _ => .panicked

/-- An IPv4 packet is translated and sent. -/
def translateV4 (packet : Bytes) : DaemonM Unit := do
  let outcome ← .atomically fun i s =>
    match s.gwEngine with
    | some (externalIp, inner) =>
        let (outcome, inner) :=
          (Gateway.gatewayEngine externalIp).translateOutbound inner packet () i.now
        ({ s with gwEngine := some (externalIp, inner) }, outcome)
    | none => (s, .error (.error .notIpv4) packet)
  sendTranslated outcome

/-- An internet-bound IPv4 packet at a gateway; any other node writes it to its
TUN device. -/
def egressV4 (packet : Bytes) : DaemonM Unit := do
  if ← .read fun s => s.gwEngine.isSome && s.internetLink then
    if (ipv4Destination packet).any isNonUnicast then pure ()
    else translateV4 packet
  else output (.tun packet)

/-- An internet-bound IPv6 packet; without an engine and a link it is dropped. -/
def egressV6 (srcId : NodeId) (packet : Bytes) : DaemonM Unit := do
  if ← .read fun s => s.gwEngineV6.isSome && s.internetLink then
    let outcome ← .atomically fun i s =>
      match s.gwEngineV6 with
      | some (externalIp, inner) =>
          let (outcome, inner) :=
            (Gateway.gatewayEngineV6 externalIp).translateOutbound inner packet srcId i.now
          ({ s with gwEngineV6 := some (externalIp, inner) }, outcome)
      | none => (s, .error (.error .notIpv4) packet)
    sendTranslated outcome
  else pure ()

/-- The packet is for the gateway's own mesh address. -/
def isForGateway (s : State) (packet : Bytes) : Bool :=
  s.gwEngine.isSome && packetIpVersion packet == some 4 && decide (20 ≤ packet.length) &&
    destinationField packet == s.config.meshIpv4

/-- The token bucket of the peer. -/
def rateLimit (fromPeer : NodeId) : DaemonM Bool :=
  .atomically fun i s =>
    let (allowed, rateLimiter) := s.rateLimiter.allow i.now fromPeer
    ({ s with rateLimiter }, allowed)

section Data

variable [Sha256] [Ed25519] [X25519] [HkdfSha256] [Aes256Gcm]

/-- What happens to a complete packet that has reached its destination node. -/
def deliverPacket (srcId : NodeId) (flags : DataFlags) (packet : Bytes) : DaemonM Unit := do
  if ← .read fun s => isForGateway s packet then
    match icmpEchoReply packet with
    | none => pure ()
    | some reply =>
        match ← (.read fun s => s.routing.lookup srcId : DaemonM (Option NodeId)) with
        | none => pure ()
        | some nextHop =>
            match ← sessionRef nextHop with
            | none => pure ()
            | some cell =>
                let selfId ← .read fun s => s.config.selfId
                sendMeshData cell selfId srcId 8 .empty reply
  else if flags.contains .isInternet then
    match packetIpVersion packet with
    | some 4 => egressV4 packet
    | some 6 => egressV6 srcId packet
    | _ => pure ()
  else output (.tun packet)

/-- A mesh frame for this node that is not a control frame. -/
def handleDelivery (mesh : MeshDataFrame) : DaemonM Unit := do
  countForwarded mesh.payload.length
  match ← reassembleOrDeliver mesh.srcId mesh.flags mesh.payload with
  | none => pure ()
  | some packet =>
      let config ← .read State.config
      if config.isGateway && mesh.flags.contains .isE2e then
        match E2e.decryptInPlace config.signingKey packet with
        | .ok () packet => deliverPacket mesh.srcId mesh.flags packet
        | .error _ _ => pure ()
      else deliverPacket mesh.srcId mesh.flags packet

/-- A control frame routed to this node; only two kinds are supported. -/
def handleRoutedControl (mesh : MeshDataFrame) : DaemonM Unit :=
  withDecoded ControlFrame.decode mesh.payload fun cf =>
    match cf with
    | .peerInfo x25519Pub friendlyName =>
        handleIncomingPeerInfo mesh.srcId x25519Pub friendlyName .routed
    | .pluginPayload kind _ => dispatchPluginPayload kind
    | _ => pure ()

/-- Forward a mesh frame towards its destination. -/
def relayMesh (mesh : MeshDataFrame) : DaemonM Unit := do
  if mesh.ttl = 0 then countDropped
  else
    match ← (.read fun s => s.routing.lookup mesh.dstId : DaemonM (Option NodeId)) with
    | none => countDropped
    | some nextHop =>
        match ← sessionRef nextHop with
        | none => countDropped
        | some cell =>
            sendSingleMesh cell { mesh with sessionId := 0, ttl := mesh.ttl - 1 }
            countForwarded mesh.payload.length

def handleMesh (mesh : MeshDataFrame) : DaemonM Unit := do
  let selfId ← .read fun s => s.config.selfId
  if mesh.dstId = selfId then
    if mesh.flags.contains .isControl then handleRoutedControl mesh else handleDelivery mesh
  else relayMesh mesh

/-- A data frame is decrypted under the session of the peer. -/
def handleData (fromPeer : NodeId) (frame : TransportFrame) : DaemonM Unit := do
  match ← sessionRef fromPeer with
  | none => pure ()
  | some cell =>
      match ← decryptWith cell frame with
      | some (.ok frame) => withDecoded MeshDataFrame.decode frame.payload handleMesh
      | _ => pure ()

/-! ## A received frame -/

/-- One iteration of the loop for a received frame. -/
def handleFrame [Blake3] (r : Received) : DaemonM Unit := do
  if ← rateLimit r.peer then
    match r.frame.frameType with
    | .handshake => handleHandshake r.conn r.peer r.frame.payload
    | .data => handleData r.peer r.frame
    | .routeUpdate => handleRouteUpdate r.peer r.frame.payload
    | .heartbeat => handleHeartbeat r.peer r.frame.payload
    | .control => handleControl r.peer r.frame.payload
    | .fragment => pure ()
  else countDropped

end Data

/-! ## A packet from the TUN device -/

/-- Destination node, next hop and flags of a packet. -/
structure Dispatch where
  dstId : NodeId
  nextHop : NodeId
  flags : DataFlags
  deriving DecidableEq

/-- The nearest gateway, or the first connected peer when no gateway is known. -/
def routeInternet : DaemonM (Option Dispatch) := do
  match ← (.read fun s => s.routing.nearestGatewayRoute : DaemonM (Option (NodeId × NodeId))) with
  | some (gwId, nextHop) => return some ⟨gwId, nextHop, .isInternet⟩
  | none =>
      let peers ← .atomically fun i s => (s, s.transport.connectedPeers i.locked)
      return peers.head?.map fun peer => ⟨peer, peer, .isInternet⟩

/-- Where a packet goes; `none` drops it. -/
def routePacket (packet : Bytes) : DaemonM (Option Dispatch) := do
  match packetIpVersion packet with
  | some 4 =>
      if packet.length < 20 then return none
      let destIp := destinationField packet
      if ← .read fun s => destIp == s.config.meshIpv4 then return none
      match ← (.read fun s => s.routing.lookupMeshIp destIp :
          DaemonM (Option (NodeId × NodeId))) with
      | some (dstId, nextHop) => return some ⟨dstId, nextHop, .empty⟩
      | none => routeInternet
  | some 6 => routeInternet
  | _ => return none

section Tun

variable [X25519] [HkdfSha256] [Aes256Gcm]

/-- The payload of a packet and its flags: encrypted end to end if the packet is
for the internet and the key of the destination gateway is known, in clear
otherwise. -/
def meshPayload (i : Input) (gwPub : Option (Octets 32)) (flags : DataFlags) (packet : Bytes) :
    DataFlags × Bytes :=
  if flags.contains .isInternet then
    match gwPub with
    | some gwPub =>
        match E2e.encrypt packet gwPub (i.random 0) (i.randomOctets 1 12 (by decide)) with
        | .ok enc => (flags.union .isE2e, enc)
        | .error _ => (flags, packet)
    | none => (flags, packet)
  else (flags, packet)

/-- One iteration of the loop for a packet read from the TUN device. -/
def handleTun [Sha256] [Ed25519] (packet : Bytes) : DaemonM Unit := do
  match ← routePacket packet with
  | none => pure ()
  | some d =>
      match ← sessionRef d.nextHop with
      | none => pure ()
      | some cell =>
          let (flags, payload) ← .atomically fun i s =>
            (s, meshPayload i (s.gwX25519ById.get d.dstId) d.flags packet)
          let selfId ← .read fun s => s.config.selfId
          sendMeshData cell selfId d.dstId 8 flags payload
          countForwarded packet.length

end Tun

end ProximityMesh.Daemon
