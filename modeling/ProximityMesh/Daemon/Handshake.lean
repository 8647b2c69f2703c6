/-
  Daemon/Handshake.lean --- the handshake tasks of both roles and the outbound
  attempts that start one.

  Source: crates/pim-daemon/src/handshake.rs, discovery_tasks.rs, one attempt of
  reconnect_task.rs, ip_control.rs and the RFCOMM initiator of app.rs.  What an
  attempt tells the reconnect manager is a parameter.

  The two roles end in the same steps (`establish`) and differ in the id they file
  the session under.  The initiator takes the id of the key it has verified and
  renames the connection to it.  The responder takes the id of the connection, and
  uses the id of the verified key for authorization only.
-/
import ProximityMesh.Daemon.State

set_option autoImplicit false

namespace ProximityMesh.Daemon

open Protocol Transport Crypto Routing

def sendHandshake (peer : NodeId) (wire : HandshakeWireFrame) :
    DaemonM (Except TransportError Unit) :=
  transportSend peer (plainFrame .handshake wire.encode)

/-! ## Channels of handshake tasks -/

/-- `mpsc::channel` and its entry in `hs_channels`. -/
def newChannel (peer : NodeId) : DaemonM ChanId :=
  .atomically fun _ s =>
    ({ s with
      channels := s.channels.insert s.nextChan []
      hsChannels := s.hsChannels.insert peer s.nextChan
      nextChan := s.nextChan + 1 }, s.nextChan)

/-- Capacity of the channel of a handshake task. -/
def chanCapacity : Nat := 8

/-- No entry of `hs_channels` holds a sender of the channel. -/
def State.chanClosed (s : State) (chan : ChanId) : Bool :=
  !s.hsChannels.iter.any fun e => e.2 = chan

/-- `timeout(rx.recv())`; `none` when the timer fires or the channel is closed. -/
def recvHandshake (chan : ChanId) : DaemonM (Option Delivered) :=
  .await fun i s =>
    match s.channels.get chan with
    | some (m :: rest) => some ({ s with channels := s.channels.insert chan rest }, some m)
    | some [] => if i.timedOut || s.chanClosed chan then some (s, none) else none
    | none => some (s, none)

/-- The receiver goes with its task. -/
def dropReceiver (chan : ChanId) : DaemonM Unit :=
  .modify fun s => { s with channels := s.channels.remove chan }

def removeHsChannel (peer : NodeId) : DaemonM Unit :=
  .modify fun s => { s with hsChannels := s.hsChannels.remove peer }

/-! ## Bookkeeping of outbound attempts -/

/-- Use `pending_outbound` once its lock is free. -/
def withPendingOutbound {α : Type} [Inhabited α]
    (f : HashMap IpAddr PendingOutbound → HashMap IpAddr PendingOutbound × α) : DaemonM α :=
  .await fun _ s =>
    if s.pendingHeld then none
    else some ({ s with pendingOutbound := (f s.pendingOutbound).1 }, (f s.pendingOutbound).2)

def registerPendingOutbound (target : ConnectTarget) (transportKey : NodeId) : DaemonM Unit :=
  withPendingOutbound fun pending => (pending.insert target.addr.ip ⟨transportKey, target⟩, ())

def clearPendingOutbound (target : ConnectTarget) (transportKey : NodeId) : DaemonM Unit :=
  withPendingOutbound fun pending =>
    match pending.get target.addr.ip with
    | some entry =>
        if entry.transportKey = transportKey then (pending.remove target.addr.ip, ())
        else (pending, ())
    | none => (pending, ())

def takeCancelledOutbound (transportKey : NodeId) : DaemonM Bool :=
  .atomically fun _ s =>
    ({ s with cancelledOutbounds := s.cancelledOutbounds.remove transportKey },
      s.cancelledOutbounds.contains transportKey)

def transportDisconnect (peer : NodeId) : DaemonM Unit :=
  .modify fun s => { s with transport := s.transport.disconnect peer }

/-- `transport.connect`: the result says whether the connection was opened. -/
def transportConnect (peerId : NodeId) (addr : SocketAddr) : DaemonM Bool := do
  let conn : Option ConnId ← .atomically fun i s =>
    if i.ioOk then ({ s with transport := s.transport.openConn peerId }, some s.transport.nextConn)
    else (s, none)
  match conn with
  | some conn =>
      .modify fun s => { s with transport := s.transport.storeWriter conn peerId addr }
      return true
  | none => return false

/-- Take the outbound attempt at an address off the table. -/
def takePendingOutbound (remoteIp : IpAddr) : DaemonM (Option PendingOutbound) :=
  withPendingOutbound fun pending => (pending.remove remoteIp, pending.get remoteIp)

/-- Mark an attempt as cancelled, and take its channel and its connection away. -/
def dropOutbound (transportKey : NodeId) : DaemonM Unit := do
  .modify fun s => { s with cancelledOutbounds := s.cancelledOutbounds.insert transportKey () }
  removeHsChannel transportKey
  transportDisconnect transportKey

/-- Give up the outbound attempt at an address. -/
def cancelPendingOutboundForIp (remoteIp : IpAddr) : DaemonM Unit := do
  match ← takePendingOutbound remoteIp with
  | none => pure ()
  | some entry => dropOutbound entry.transportKey

/-! ## The common end of both roles -/

/-- Whether a decision lets the handshake go on. -/
def permitted : Option AuthorizationDecision → Bool
  | some .allowed | some .trustedOnFirstUse => true
  | _ => false

def installSession (h : Completed) (isInitiator : Bool) : DaemonM Unit :=
  .modify fun s => { s with
    cells := s.cells.insert s.nextCell (Session.new h.peerId h.key isInitiator)
    sessions := s.sessions.insert h.peerId s.nextCell
    nextCell := s.nextCell + 1
    handshakes := s.handshakes ++ [h] }

/-- The public key it stores. -/
def storePubkey (h : Completed) : DaemonM Unit :=
  .modify fun s => { s with
    peerPubkeys := s.peerPubkeys.insert h.peerId h.message.senderPub
    handshakes := s.handshakes ++ [h] }

section Roles

variable [HkdfSha256] [X25519]

/-- Send our identity to a peer. -/
def sendPeerInfo (peer : NodeId) : DaemonM Unit := do
  let (key, name) ← .read fun s => (s.config.ownX25519Pub, s.config.nodeName)
  sendControl peer (.peerInfo key name)

variable [Blake3]

/-- What both roles do once the handshake is complete. -/
def establish (h : Completed) (isInitiator : Bool) : DaemonM Unit := do
  installSession h isInitiator
  storePubkey h
  .atomically fun i s => ({ s with routing := s.routing.addPeer i.now h.peerId }, ())
  .modify fun s => { s with routing := s.routing.unblacklistPeer h.peerId }
  .modify fun s => { s with reputation := s.reputation.pardon h.peerId }
  .atomically fun i s => ({ s with peerLastHb := s.peerLastHb.insert h.peerId i.now }, ())
  flushSendBuffer h.peerId
  sendPeerInfo h.peerId

variable [Sha256] [Ed25519] [HmacSha256]

/-! ## Responder -/

/-- Responder task: the Init is at hand; send a Response and wait for the
Confirm. -/
def handshakeResponder (peerId : NodeId) (init : Delivered) (chan : ChanId) : DaemonM Unit := do
  match init.wire with
  | .initOrResponse .init senderPub ephemeralPub nonce signature =>
      let message : HandshakeMessage := { senderPub, ephemeralPub, nonce, signature }
      let hs ← .read fun s => Handshaker.new s.config.signingKey s.config.meshHandshakeKey
      if permitted (← authorizeAuthenticatedPeer (NodeId.fromPublicKey senderPub)) then
        let i ← .input
        match hs.respond message (i.random 0) (i.random 1) with
        | .error _ => pure ()
        | .ok (response, hs) =>
            match ← sendHandshake peerId (.initOrResponse .response response.senderPub
                response.ephemeralPub response.nonce response.signature) with
            | .error _ => pure ()
            | .ok () =>
                match ← recvHandshake chan with
                | some ⟨_, .confirm hmac⟩ =>
                    match hs.verifyConfirm hmac, hs.sessionKey with
                    | .ok (), some key =>
                        establish
                          { conn := init.conn, message, key, peerId, isInitiator := false,
                            own := hs } false
                    | _, _ => pure ()
                | _ => pure ()
      else pure ()
  | _ => pure ()

/-- The task the event loop spawns for an Init. -/
def runResponder (r : Responder) : DaemonM Unit := do
  handshakeResponder r.peerId r.init r.chan
  dropReceiver r.chan
  removeHsChannel r.peerId

/-! ## Initiator -/

/-- What the initiator does with the Response it received. -/
def finishInitiator (transportKey : NodeId) (conn : ConnId) (hs : Handshaker)
    (message : HandshakeMessage) : DaemonM (Option NodeId) := do
  let peerId := NodeId.fromPublicKey message.senderPub
  if permitted (← authorizeAuthenticatedPeer peerId) then
    match hs.finalizeInitiator message with
    | .error _ => return none
    | .ok hs =>
        match hs.makeConfirm, hs.sessionKey with
        | .ok hmac, some key =>
            match ← sendHandshake transportKey (.confirm hmac) with
            | .error _ => return none
            | .ok () =>
                if transportKey ≠ peerId then
                  .modify fun s =>
                    { s with transport := s.transport.renamePeer transportKey peerId }
                establish { conn, message, key, peerId, isInitiator := true, own := hs } true
                return some peerId
        | _, _ => return none
  else return none

/-- Initiator task: send an Init, receive the Response, send the Confirm.  The
result is the id of the peer. -/
def handshakeInitiator (transportKey : NodeId) (chan : ChanId) : DaemonM (Option NodeId) := do
  let hs ← .read fun s => Handshaker.new s.config.signingKey s.config.meshHandshakeKey
  let i ← .input
  let (init, hs) := hs.initiate (i.random 0) (i.random 1)
  match ← sendHandshake transportKey (.initOrResponse .init init.senderPub init.ephemeralPub
      init.nonce init.signature) with
  | .error _ => return none
  | .ok () =>
      match ← recvHandshake chan with
      | some ⟨conn, .initOrResponse .response senderPub ephemeralPub nonce signature⟩ =>
          finishInitiator transportKey conn hs { senderPub, ephemeralPub, nonce, signature }
      | _ => return none

/-! ## Outbound attempts -/

/-- Where an attempt runs: in the daemon alone, or beside a reconnect manager that is told
of the peers that are reached and asked for further attempts. -/
structure Surroundings (σ : Type) where
  lift : {α : Type} → DaemonM α → Task Input σ α
  register : NodeId → ConnectTarget → Task Input σ Unit
  request : ConnectTarget → Task Input σ Unit

/-- The daemon without the manager. -/
def alone : Surroundings State := ⟨id, fun _ _ => pure (), fun _ => pure ()⟩

/-- Dial a target under a random transport key and run the handshake.  A first attempt and a
reconnect differ in the cleanups of a failure and in who retries; the result says whether
there is nothing to retry. -/
def attemptConnection {σ : Type} (around : Surroundings σ) (target : ConnectTarget)
    (isReconnect : Bool) : Task Input σ Bool := do
  let i ← .input
  let transportKey := NodeId.fromBytes (i.randomOctets 0 16 (by decide))
  around.lift (registerPendingOutbound target transportKey)
  if ← around.lift (transportConnect transportKey target.addr) then
    let chan ← around.lift (newChannel transportKey)
    let result ← around.lift (handshakeInitiator transportKey chan)
    around.lift (dropReceiver chan)
    around.lift (clearPendingOutbound target transportKey)
    match result with
    | some peerId =>
        around.register peerId target
        around.lift (removeHsChannel transportKey)
        return true
    | none =>
        if ← around.lift (takeCancelledOutbound transportKey) then
          if isReconnect then return true
          around.lift (removeHsChannel transportKey)
          return true
        else if isReconnect then
          around.lift (removeHsChannel transportKey)
          around.lift (transportDisconnect transportKey)
          return false
        else
          around.lift (transportDisconnect transportKey)
          around.request target
          around.lift (removeHsChannel transportKey)
          return false
  else
    around.lift (clearPendingOutbound target transportKey)
    if isReconnect then return false
    around.request target
    return false

def initiatePeerConnection (target : ConnectTarget) : DaemonM Unit := do
  let _ ← attemptConnection alone target false

/-- One attempt of `run_reconnect_task`, given up when the peer is back. -/
def reconnectAttempt (target : ConnectTarget) (known : Option NodeId) : DaemonM Unit := do
  let active ← .read fun s =>
    match known with
    | some peerId => s.sessions.contains peerId
    | none => false
  if active then pure ()
  else
    let _ ← attemptConnection alone target true

/-- The initiator of a bridged RFCOMM link: the connection is an accepted one, and
the task waits until it is registered under the id of the hello. -/
def runBridgedInitiator (peerNodeId : NodeId) : DaemonM Unit := do
  let registered ← .await fun i s =>
    if (s.transport.peerAddr peerNodeId).isSome then some (s, true)
    else if i.timedOut then some (s, false)
    else none
  if registered then
    let chan ← newChannel peerNodeId
    let _ ← handshakeInitiator peerNodeId chan
    dropReceiver chan
    removeHsChannel peerNodeId

end Roles

end ProximityMesh.Daemon
