/-
  Messaging/Service.lean --- the service of the messaging plugin.

  Source: crates/pim-messaging/src/service.rs.

  The service owns the tables and a channel of events, and works on three ports of the
  daemon: the peer directory, the routed control sender and the identity.  What a port
  answers is supplied by the environment, like the clock and the random bytes, and what was
  given to the control sender is kept in `outbox`.  Between two awaits other calls run, so
  the functions are tasks, with one step for each call of the storage.
-/
import ProximityMesh.Crypto.E2e
import ProximityMesh.Foundation.Task
import ProximityMesh.Messaging.Wire
import ProximityMesh.Protocol.LinkFrames

set_option autoImplicit false

namespace ProximityMesh.Messaging

open Crypto Protocol

/-- Maximum plaintext body size accepted by `send`. -/
def maxBodyBytes : Nat := 8 * 1024

structure ConversationSummary where
  peerNodeId : NodeId
  peerNodeIdShort : String
  name : String
  lastMessagePreview : Option String
  lastMessageTsMs : Option Int
  unreadCount : Nat
  x25519Pubkey : Option (Octets 32)
  deriving DecidableEq

inductive HistoryScope where
  | peer
  | all
  deriving DecidableEq, Repr

/-- Events that are forwarded over JSON-RPC. -/
inductive MessageEvent where
  | messageReceived (message : MessageRecord) (conversation : ConversationSummary)
  | messageStatus (messageId : MessageId) (peerNodeId : NodeId) (newStatus : MessageStatus)
      (atMs : Int)
  | historyCleared (peerNodeId : Option NodeId) (scope : HistoryScope) (deletedMessages : Nat)
  deriving DecidableEq

/-- Why `send` returns an error. -/
inductive SendError where
  /-- `message body exceeds {MAX_BODY_BYTES} bytes`. -/
  | bodyTooLong
  /-- `no x25519 public key cached for {peer}; wait until peer comes online and re-issues
  PeerInfo`. -/
  | noX25519 (peer : NodeId)
  | storage
  /-- `e2e_encrypt failed: {e}`. -/
  | encryption (e : E2eError)
  deriving DecidableEq

/-- What the ports of the daemon, the clock and the random number generator supply. -/
structure Ports where
  lookupX25519 : NodeId → Option (Octets 32)
  lookupName : NodeId → Option String
  /-- What `ControlSender::send_routed` returns. -/
  routed : Bool
  /-- Milliseconds since the Unix epoch. -/
  nowMs : Int
  uuid : MessageId
  ephemeralSecret : Octets 32
  nonce : Octets 12
  /-- The statement of the storage succeeds. -/
  ioOk : Bool

structure MessagingService where
  storage : MessagingStorage
  /-- What was sent on the event channel. -/
  events : List MessageEvent
  /-- What was given to the control sender. -/
  outbox : List (NodeId × ControlFrame)
  deriving DecidableEq

abbrev ServiceM (α : Type) : Type := Task Ports MessagingService α

namespace MessagingService

def nowMs : ServiceM Int := .atomically fun i s => (s, i.nowMs)

/-- One call of the storage in `spawn_blocking`; `none` is an error of the database. -/
def onStorage {α : Type} (f : MessagingStorage → MessagingStorage × α) : ServiceM (Option α) :=
  .atomically fun i s =>
    if i.ioOk then ({ s with storage := (f s.storage).1 }, some (f s.storage).2) else (s, none)

def emit (event : MessageEvent) : ServiceM Unit :=
  .modify fun s => { s with events := s.events ++ [event] }

/-- `ControlSender::send_routed`. -/
def sendRouted (peer : NodeId) (frame : ControlFrame) : ServiceM Bool :=
  .atomically fun i s => ({ s with outbox := s.outbox ++ [(peer, frame)] }, i.routed)

/-! ## Status updates -/

def setStatus (peer : NodeId) (messageId : MessageId) (status : MessageStatus)
    (deliveredAtMs readAtMs : Option Int) (atMs : Int) : ServiceM Unit := do
  let written ← onStorage fun st =>
    (st.setMessageStatus messageId status deliveredAtMs readAtMs, ())
  if written.isSome then
    emit (.messageStatus messageId peer status atMs)

def markSent (peer : NodeId) (messageId : MessageId) (atMs : Int) : ServiceM Unit :=
  setStatus peer messageId .sent none none atMs

def markDelivered (peer : NodeId) (messageId : MessageId) (atMs : Int) : ServiceM Unit :=
  setStatus peer messageId .delivered (some atMs) none atMs

def markRead (peer : NodeId) (messageId : MessageId) (atMs : Int) : ServiceM Unit :=
  setStatus peer messageId .read none (some atMs) atMs

def markFailed (peer : NodeId) (messageId : MessageId) (reason : String) (atMs : Int) :
    ServiceM Unit := do
  let written ← onStorage fun st => (st.setMessageFailed messageId reason atMs, ())
  if written.isSome then
    emit (.messageStatus messageId peer .failed atMs)

/-! ## Sending -/

/-- The row of a message that was just sent. -/
def localRecord (peer : NodeId) (messageId : MessageId) (body : String) (timestampMs : Int) :
    MessageRecord where
  id := messageId
  peerNodeId := peer
  direction := .sent
  body := body
  timestampMs := timestampMs
  status := .pending
  failureReason := none
  deliveredAtMs := none
  readAtMs := none

section

variable (peer : NodeId) (messageId : MessageId) (body : String) (timestampMs : Int)

@[simp] theorem id_localRecord : (localRecord peer messageId body timestampMs).id = messageId := rfl

@[simp] theorem peerNodeId_localRecord :
    (localRecord peer messageId body timestampMs).peerNodeId = peer := rfl

@[simp] theorem body_localRecord : (localRecord peer messageId body timestampMs).body = body := rfl

@[simp] theorem timestampMs_localRecord :
    (localRecord peer messageId body timestampMs).timestampMs = timestampMs := rfl

end

/-- Draw an id, read the clock and insert the row. -/
def insertLocal (peer : NodeId) (body : String) : ServiceM (Option MessageRecord) :=
  .atomically fun i s =>
    let record := localRecord peer i.uuid body i.nowMs
    if i.ioOk then ({ s with storage := s.storage.insertMessage record }, some record)
    else (s, none)

def bumpLocal (record : MessageRecord) : ServiceM (Option MessageRecord) := do
  let bumped ← onStorage fun st =>
    (st.bumpConversationAfterLocalSend record.peerNodeId record.id record.timestampMs record.body,
      ())
  return bumped.map fun _ => record

/-- Persist a freshly sent local message in `pending` status. -/
def recordLocalSend (peer : NodeId) (body : String) : ServiceM (Option MessageRecord) := do
  match ← insertLocal peer body with
  | none => return none
  | some record => bumpLocal record

section Encryption

variable [HkdfSha256] [X25519] [Aes256Gcm]

/-- Encrypt to the peer, with fresh random bytes. -/
def encryptFor (recipientX25519 : Octets 32) (record : MessageRecord) :
    ServiceM (Except E2eError Bytes) :=
  .atomically fun i s => (s, E2e.encrypt (ControlFrame.utf8 record.body) recipientX25519
    i.ephemeralSecret i.nonce)

/-- `timestamp_ms as u64`. -/
def wireTimestamp (timestampMs : Int) : UInt64 := UInt64.ofNat (timestampMs % 2 ^ 64).toNat

/-- Note how the control sender took the frame. -/
def settle (record : MessageRecord) (sent : Bool) : ServiceM Unit := do
  let now ← nowMs
  if sent then
    markSent record.peerNodeId record.id now
  else
    markFailed record.peerNodeId record.id "no_route" now

/-- Hand the encrypted message to the control sender. -/
def dispatch (record : MessageRecord) (ciphertext : Bytes) : ServiceM Unit := do
  let bodyBytes := encodeMessage record.id (wireTimestamp record.timestampMs) ciphertext
  let sent ← sendRouted record.peerNodeId (.pluginPayload kindMessage bodyBytes)
  settle record sent

/-- `send` behind the encryption. -/
def sendSealed (record : MessageRecord) :
    Except E2eError Bytes → ServiceM (Except SendError MessageRecord)
  | .error e => return .error (.encryption e)
  | .ok ciphertext => do
      dispatch record ciphertext
      return .ok record

/-- `send` behind the storage. -/
def sendRecorded (recipientX25519 : Octets 32) :
    Option MessageRecord → ServiceM (Except SendError MessageRecord)
  | none => return .error .storage
  | some record => do
      let ciphertext ← encryptFor recipientX25519 record
      sendSealed record ciphertext

/-- `send` behind the lookup of the key. -/
def sendTo (peer : NodeId) (body : String) :
    Option (Octets 32) → ServiceM (Except SendError MessageRecord)
  | none => return .error (.noX25519 peer)
  | some recipientX25519 => do
      let record ← recordLocalSend peer body
      sendRecorded recipientX25519 record

/-- Encrypt and send a user message. -/
def send (peer : NodeId) (body : String) : ServiceM (Except SendError MessageRecord) := do
  if maxBodyBytes < (ControlFrame.utf8 body).length then
    return .error .bodyTooLong
  let recipientX25519 ← Task.atomically fun i s => (s, i.lookupX25519 peer)
  sendTo peer body recipientX25519

/-! ## Receiving -/

/-- `timestamp_ms as i64`. -/
def storedTimestamp (timestampMs : UInt64) : Int := (timestampMs.toNat : Int).bmod (2 ^ 64)

/-- The first eight hex digits of an id. -/
def shortId (peer : NodeId) : String :=
  String.join ((peer.asBytes.toList.take 4).map fun b => hex false 2 b.toNat)

/-- What an incoming payload says, if it can be decoded and decrypted. -/
def openMessage (signingSeed : Octets 32) (body : Bytes) : Option (MessageId × Int × String) :=
  match decodeMessage body with
  | .error _ _ => none
  | .ok decoded _ =>
      match E2e.decryptInPlace signingSeed decoded.ciphertext with
      | .error _ _ => none
      | .ok _ plaintext =>
          (ControlFrame.fromUtf8 plaintext).map fun text =>
            (decoded.messageId, storedTimestamp decoded.timestampMs, text)

/-- The row of a message that was just received. -/
def remoteRecord (src : NodeId) (messageId : MessageId) (body : String)
    (timestampMs receivedAt : Int) : MessageRecord where
  id := messageId
  peerNodeId := src
  direction := .received
  body := body
  timestampMs := timestampMs
  status := .delivered
  failureReason := none
  deliveredAtMs := some receivedAt
  readAtMs := none

/-- Decrypt and persist an incoming `messaging.msg` and ack it. -/
def handleIncomingMessage (signingSeed : Octets 32) (src : NodeId) (body : Bytes) :
    ServiceM Unit := do
  match openMessage signingSeed body with
  | none => return
  | some (messageId, timestampMs, plaintext) =>
      let receivedAt ← nowMs
      let cachedName ← Task.atomically fun i s => (s, i.lookupName src)
      let cachedX25519 ← Task.atomically fun i s => (s, i.lookupX25519 src)
      let record := remoteRecord src messageId plaintext timestampMs receivedAt
      if (← onStorage fun st => (st.insertMessage record, ())).isNone then
        return
      match ← onStorage fun st =>
          st.bumpConversationAfterRemoteReceive src messageId timestampMs plaintext with
      | none => return
      | some bump =>
          let short := shortId src
          emit (.messageReceived record {
            peerNodeId := src, peerNodeIdShort := short
            name := (cachedName.filter fun n => n ≠ "").getD short
            lastMessagePreview := some bump.preview, lastMessageTsMs := some timestampMs
            unreadCount := bump.unreadCount, x25519Pubkey := cachedX25519 })
          let ack := ControlFrame.pluginPayload kindAck (encodeAck messageId AckKind.delivered.toU8)
          let _ ← sendRouted src ack

end Encryption

/-- The message an acknowledgement names and what it says of it. -/
def openAck (body : Bytes) : Option (MessageId × AckKind) :=
  match decodeAck body with
  | .error _ _ => none
  | .ok decoded _ => (AckKind.fromU8 decoded.ackKind).map fun kind => (decoded.messageId, kind)

def applyAck (src : NodeId) (messageId : MessageId) (kind : AckKind) (now : Int) : ServiceM Unit :=
  match kind with
  | .delivered => markDelivered src messageId now
  | .read => markRead src messageId now

/-- Apply an inbound `messaging.ack` to the local outbound row. -/
def handleIncomingMessageAck (src : NodeId) (body : Bytes) : ServiceM Unit := do
  match openAck body with
  | none => return
  | some (messageId, kind) =>
      let now ← nowMs
      applyAck src messageId kind now

/-! ## Deleting and marking read -/

def deleteConversation (peer : NodeId) : ServiceM Unit := do
  match ← onStorage fun st => st.deleteConversation peer with
  | none => return
  | some (deleted, _) => emit (.historyCleared (some peer) .peer deleted)

def deleteAllMessages : ServiceM Unit := do
  match ← onStorage fun st => st.deleteAllMessages with
  | none => return
  | some (deleted, _) => emit (.historyCleared none .all deleted)

/-- The daemon dropped the identity of the peer. -/
def onPeerForgotten (peer : NodeId) : ServiceM Unit := do
  match ← onStorage fun st => st.deleteConversation peer with
  | none => return
  | some (deleted, conversation) =>
      if 0 < deleted ∨ conversation then
        emit (.historyCleared (some peer) .peer deleted)

/-- `messages.mark_read` of crates/pim-daemon/src/rpc.rs. -/
def markReadUpTo (peer : NodeId) (upToTsMs : Int) : ServiceM (Option Int) :=
  onStorage fun st => st.markReadUpTo peer upToTsMs

end MessagingService

end ProximityMesh.Messaging
