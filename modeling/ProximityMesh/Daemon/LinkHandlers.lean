/-
  Daemon/LinkHandlers.lean --- what the event loop does with the frames of a direct
  peer other than data.

  Source: crates/pim-daemon/src/app/event_loop.rs and identity_broadcast.rs.

  Only a route update is checked against a stored key.  Heartbeat and control
  frames act on the id the transport tagged them with, whoever sent them, and a
  Goodbye acts on the id it names itself.
-/
import ProximityMesh.Daemon.Handshake

set_option autoImplicit false

namespace ProximityMesh.Daemon

open Protocol Transport Crypto Routing

/-- Go on with a decoded payload; one that does not decode is dropped. -/
def withDecoded {α : Type} (decode : BufM PimError α) (payload : Bytes) (k : α → DaemonM Unit) :
    DaemonM Unit :=
  match decode payload with
  | .ok a _ => k a
  | .error (.error _) _ => pure ()
  | .error .panic _ => .panicked

def countForwarded (bytes : Nat) : DaemonM Unit :=
  .modify fun s => { s with
    packetsForwarded := s.packetsForwarded + 1
    bytesForwarded := s.bytesForwarded + UInt64.ofNat bytes }

def countDropped : DaemonM Unit :=
  .modify fun s => { s with packetsDropped := s.packetsDropped + 1 }

/-! ## Handshake frames -/

/-- `tx.send(wire)`: waits while the channel is full, fails silently without a
receiver. -/
def forwardToChannel (chan : ChanId) (m : Delivered) : DaemonM Unit :=
  .await fun _ s =>
    match s.channels.get chan with
    | none => some (s, ())
    | some queue =>
        if queue.length ≥ chanCapacity then none
        else some ({ s with channels := s.channels.insert chan (queue ++ [m]) }, ())

/-- Lexicographic order of the raw bytes. -/
def idLess (a b : NodeId) : Bool := decide (a.asBytes.toList < b.asBytes.toList)

/-- The attempt that is pending at the address, if it is not this connection.  The guard of
the lock lives to the end of the `if let` that looks the attempt up: it is still held
wherever the body awaits something. -/
def holdPendingOutbound (fromPeer : NodeId) (remoteIp : IpAddr) :
    DaemonM (Option PendingOutbound) :=
  .await fun _ s =>
    if s.pendingHeld then none
    else
      let pending := (s.pendingOutbound.get remoteIp).filter fun p => p.transportKey ≠ fromPeer
      some ({ s with pendingHeld := pending.isSome }, pending)

def releasePendingOutbound : DaemonM Unit := .modify fun s => { s with pendingHeld := false }

section Handshake

variable [Sha256] [Ed25519]

/-- The tie-break for an Init from an address that is being dialled: the result
says whether the inbound attempt goes on. -/
def resolveSimultaneous (fromPeer presentedPeerId : NodeId) : DaemonM Bool := do
  match ← (.read fun s => (s.transport.peerAddr fromPeer).map SocketAddr.ip :
      DaemonM (Option IpAddr)) with
  | none => return true
  | some remoteIp =>
      match ← holdPendingOutbound fromPeer remoteIp with
      | none => return true
      | some _ =>
          let selfId ← .read fun s => s.config.selfId
          if idLess presentedPeerId selfId then
            -- waits for the lock that is held here, and so for ever
            cancelPendingOutboundForIp remoteIp
            releasePendingOutbound
            return true
          else
            transportDisconnect fromPeer
            releasePendingOutbound
            return false

/-- A handshake frame goes to the task that waits for it; an Init nobody waits for
starts a responder. -/
def handleHandshake (conn : ConnId) (fromPeer : NodeId) (payload : Bytes) : DaemonM Unit :=
  withDecoded HandshakeWireFrame.decode payload fun wire => do
    match ← (.read fun s => s.hsChannels.get fromPeer : DaemonM (Option ChanId)) with
    | some chan => forwardToChannel chan ⟨conn, wire⟩
    | none =>
        match wire with
        | .initOrResponse .init senderPub _ _ _ =>
            if ← resolveSimultaneous fromPeer (NodeId.fromPublicKey senderPub) then
              let chan ← newChannel fromPeer
              .modify fun s => { s with
                spawned := s.spawned ++ [{ peerId := fromPeer, init := ⟨conn, wire⟩, chan }] }
        | _ => pure ()

end Handshake

/-! ## Heartbeats and route updates -/

/-- Track liveness; a direct gateway announces its key and load. -/
def handleHeartbeat (fromPeer : NodeId) (payload : Bytes) : DaemonM Unit :=
  withDecoded HeartbeatFrame.decode payload fun hb => do
    .atomically fun i s => ({ s with peerLastHb := s.peerLastHb.insert fromPeer i.now }, ())
    if hb.gatewayHops = 0 then
      if hb.gwX25519Pub ≠ Octets.zero 32 then
        .modify fun s => { s with gwX25519ById := s.gwX25519ById.insert fromPeer hb.gwX25519Pub }
      .modify fun s => { s with routing := s.routing.updateGatewayLoad fromPeer hb.load }

/-- Apply a route update that verifies under the stored key of the peer. -/
def handleRouteUpdate [Ed25519] [Blake3] (fromPeer : NodeId) (payload : Bytes) : DaemonM Unit :=
  withDecoded RouteUpdateFrame.decode payload fun update => do
    match ← (.read fun s => s.peerPubkeys.get fromPeer : DaemonM (Option (Octets 32))) with
    | none => pure ()
    | some pk =>
        if Ed25519.isVerifyingKey pk && verifyRouteUpdate update pk then
          .atomically fun i s =>
            ({ s with routing := (s.routing.applyUpdate i.now update fromPeer).1 }, ())
        else pure ()

/-! ## Control frames -/

/-- Whether a `PeerInfo` is let through: a routed one has to be outside the minimum
interval of its source. -/
def passesBroadcastGate (src : NodeId) : PeerInfoSource → DaemonM Bool
  | .direct => pure true
  | .routed => do
      let minIntervalS ← .read fun s => s.config.minPeerIntervalS
      if minIntervalS > 0 then
        .atomically fun i s =>
          match s.broadcastPeerLastSeen.get src with
          | some prev =>
              if (i.now - prev) / 1000000000 < minIntervalS then (s, false)
              else
                ({ s with broadcastPeerLastSeen := s.broadcastPeerLastSeen.insert src i.now }, true)
          | none =>
              ({ s with broadcastPeerLastSeen := s.broadcastPeerLastSeen.insert src i.now }, true)
      else return true

/-- Record a `PeerInfo` in the peer directory. -/
def handleIncomingPeerInfo (src : NodeId) (x25519Pub : Octets 32) (friendlyName : String)
    (source : PeerInfoSource) : DaemonM Unit := do
  if ← passesBroadcastGate src source then
    .atomically fun i s =>
      if i.ioOk then
        ({ s with
          peerDirectory := s.peerDirectory.upsertPeerSeen src x25519Pub friendlyName i.nowMs }, ())
      else (s, ())
  else pure ()

section Control

variable [Sha256] [Ed25519] [Aes256Gcm]

/-- Send what a plugin asks for. -/
def performPluginAction : PluginAction → DaemonM Unit
  | .direct peer frame => sendControl peer frame
  | .routed dst frame => do let _ ← sendRoutedControl dst frame

/-- Hand a payload to the first plugin that claims its kind.  A plugin reaches the
daemon only through the frames it sends, which the environment chooses. -/
def dispatchPluginPayload (kind : String) : DaemonM Unit := do
  match ← (.read fun s => s.config.pluginKinds : DaemonM (Option (List (List String)))) with
  | none => pure ()
  | some plugins =>
      if plugins.any fun kinds => kinds.contains kind then
        let i ← .input
        Task.each performPluginAction i.answers
      else pure ()

/-- An answer to a ping measures the round trip. -/
def handlePong (nonce : UInt64) : DaemonM Unit := do
  let pending ← .atomically fun _ s =>
    ({ s with pendingPings := s.pendingPings.remove nonce }, s.pendingPings.get nonce)
  match pending with
  | none => pure ()
  | some (gwId, sentAt) =>
      let i ← .input
      let rttMs := UInt32.ofNat ((i.now - sentAt) / 1000000)
      .modify fun s => { s with routing := s.routing.updateGatewayRtt gwId rttMs }
      .modify fun s => { s with reputation := s.reputation.recordSuccess gwId }

/-- A control frame of a direct peer. -/
def handleControl (fromPeer : NodeId) (payload : Bytes) : DaemonM Unit :=
  withDecoded ControlFrame.decode payload fun cf =>
    match cf with
    | .goodbye departingId _ => removePeer departingId
    | .ping nonce => sendControl fromPeer (.pong nonce)
    | .pong nonce => handlePong nonce
    | .rekey => pure ()
    | .peerInfo x25519Pub friendlyName =>
        handleIncomingPeerInfo fromPeer x25519Pub friendlyName .direct
    | .pluginPayload kind _ => dispatchPluginPayload kind

end Control

end ProximityMesh.Daemon
