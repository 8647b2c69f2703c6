/-
  Messaging/Wire.lean --- the payloads of the messaging plugin.

  Source: crates/pim-messaging/src/wire.rs.

  Both travel in a `PluginPayload` control frame.  A message is `id(16) || timestamp(8, BE) ||
  ciphertext` and an acknowledgement `id(16) || kind(1)`; bytes behind the kind are ignored.
-/
import ProximityMesh.Messaging.Storage

set_option autoImplicit false

namespace ProximityMesh.Messaging

/-- Claimed for user messages. -/
def kindMessage : String := "messaging.msg"

/-- Claimed for delivery and read acknowledgements. -/
def kindAck : String := "messaging.ack"

structure DecodedMessage where
  messageId : MessageId
  timestampMs : UInt64
  ciphertext : Bytes
  deriving DecidableEq

structure DecodedAck where
  messageId : MessageId
  ackKind : UInt8
  deriving DecidableEq

def encodeMessage (messageId : MessageId) (timestampMs : UInt64) (ciphertext : Bytes) : Bytes :=
  messageId.toList ++ beBytes 8 timestampMs.toNat ++ ciphertext

def decodeMessage : BufM String DecodedMessage := do
  let length ← BufM.len
  if length < 24 then
    BufM.fail ("messaging.msg too short: need ≥ 24, have " ++ toString length)
  let messageId ← BufM.octets 0 16
  let timestampMs ← BufM.getBe 16 8
  let ciphertext ← BufM.slice 24 length
  return { messageId, timestampMs := UInt64.ofNat timestampMs, ciphertext }

def encodeAck (messageId : MessageId) (ackKind : UInt8) : Bytes := messageId.toList ++ [ackKind]

def decodeAck : BufM String DecodedAck := do
  let length ← BufM.len
  if length < 17 then
    BufM.fail ("messaging.ack too short: need ≥ 17, have " ++ toString length)
  let messageId ← BufM.octets 0 16
  let ackKind ← BufM.index 16
  return { messageId, ackKind }

end ProximityMesh.Messaging
