/-
  Crypto/Handshake.lean --- the authenticated peer handshake.

  Source: crates/pim-crypto/src/handshake.rs.

  Three messages: Init and Response carry an ephemeral X25519 key and a nonce
  under an Ed25519 signature of the sender, Confirm is an HMAC of the transcript
  under the derived key.  A signature covers the sender's own ephemeral key and
  nonce and nothing of the other side.

  Random bytes are arguments.  `verified_of_respond` and
  `verified_of_finalizeInitiator` say
  what a message must satisfy to be accepted: its signature verifies under the
  key it carries.
-/
import ProximityMesh.Core.Types
import ProximityMesh.Crypto.Primitives

set_option autoImplicit false

namespace ProximityMesh.Crypto

/-- Errors returned when the authenticated handshake fails. -/
inductive HandshakeError where
  | invalidPublicKey
  | invalidSignature
  | confirmMismatch
  | invalidState
  deriving DecidableEq, Repr

/-- What an Init and a Response carry. -/
structure HandshakeMessage where
  /-- Long-term Ed25519 public key of the sender. -/
  senderPub : Octets 32
  /-- Ephemeral X25519 public key. -/
  ephemeralPub : Octets 32
  nonce : Octets 32
  /-- Ed25519 signature over `ephemeralPub ++ nonce`. -/
  signature : Octets 64
  deriving DecidableEq

namespace HandshakeMessage

/-- The bytes under the signature. -/
def signedBytes (m : HandshakeMessage) : Bytes := m.ephemeralPub.toList ++ m.nonce.toList

def transcriptBytes (m : HandshakeMessage) : Bytes :=
  m.senderPub.toList ++ m.ephemeralPub.toList ++ m.nonce.toList

variable [Ed25519]

/-- The signature check of both roles. -/
def check (m : HandshakeMessage) : Except HandshakeError Unit :=
  if !Ed25519.isVerifyingKey m.senderPub then .error .invalidPublicKey
  else if Ed25519.verify m.senderPub m.signedBytes m.signature then .ok ()
  else .error .invalidSignature

/-- The signature verifies under the key the message carries. -/
def Verified (m : HandshakeMessage) : Prop :=
  Ed25519.verify m.senderPub m.signedBytes m.signature = true

instance (m : HandshakeMessage) : Decidable m.Verified := inferInstanceAs (Decidable (_ = _))

theorem verified_of_check {m : HandshakeMessage} (h : m.check = .ok ()) : m.Verified := by
  unfold check at h
  split at h
  · cases h
  · split at h
    · assumption
    · cases h

end HandshakeMessage

/-- One side of the handshake protocol. -/
structure Handshaker where
  /-- Ed25519 seed of the local identity. -/
  signingKey : Octets 32
  ephemeralSecret : Option (Octets 32)
  ephemeralPub : Option (Octets 32)
  sessionKey : Option (Octets 32)
  transcript : Bytes
  meshHandshakeKey : Option (Octets 32)
  deriving DecidableEq

namespace Handshaker

/-- A handshake bound to the local identity and, in a private mesh, to its key. -/
def new (signingKey : Octets 32) (meshHandshakeKey : Option (Octets 32)) : Handshaker where
  signingKey := signingKey
  ephemeralSecret := none
  ephemeralPub := none
  sessionKey := none
  transcript := []
  meshHandshakeKey := meshHandshakeKey

/-- The X25519 secret, followed by the mesh key of a private mesh. -/
def ikmWithMesh (hs : Handshaker) (sharedSecret : Octets 32) : Bytes :=
  sharedSecret.toList ++ (hs.meshHandshakeKey.map List.Vector.toList).getD []

/-- A signed message of the local identity over fresh randomness. -/
def message [Ed25519] [X25519] (hs : Handshaker) (ephemeralSecret nonce : Octets 32) :
    HandshakeMessage :=
  let ephemeralPub := X25519.publicKey ephemeralSecret
  { senderPub := Ed25519.verifyingKey hs.signingKey, ephemeralPub, nonce,
    signature := Ed25519.sign hs.signingKey (ephemeralPub.toList ++ nonce.toList) }

/-- Initiator step 1: produce an Init. -/
def initiate [Ed25519] [X25519] (hs : Handshaker) (ephemeralSecret nonce : Octets 32) :
    HandshakeMessage × Handshaker :=
  let init := hs.message ephemeralSecret nonce
  (init, { hs with
    ephemeralSecret := some ephemeralSecret
    ephemeralPub := some init.ephemeralPub
    transcript := hs.transcript ++ init.transcriptBytes })

def deriveKey [HkdfSha256] (hs : Handshaker) (initNonce responseNonce : Bytes)
    (sharedSecret : Octets 32) : Octets 32 :=
  HkdfSha256.derive (some (initNonce ++ responseNonce)) (hs.ikmWithMesh sharedSecret)
    "pim-session-v1"

/-- Responder step: verify the Init, produce a Response and derive the key. -/
def respond [Ed25519] [X25519] [HkdfSha256] (hs : Handshaker) (init : HandshakeMessage)
    (ephemeralSecret nonce : Octets 32) :
    Except HandshakeError (HandshakeMessage × Handshaker) := do
  init.check
  let response := hs.message ephemeralSecret nonce
  let sharedSecret := X25519.diffieHellman ephemeralSecret init.ephemeralPub
  return (response, { hs with
    transcript := hs.transcript ++ init.transcriptBytes ++ response.transcriptBytes
    sessionKey := some (hs.deriveKey init.nonce.toList nonce.toList sharedSecret)
    ephemeralPub := some response.ephemeralPub })

/-- Initiator step 2: verify the Response and derive the key. -/
def finalizeInitiator [Ed25519] [X25519] [HkdfSha256] (hs : Handshaker)
    (response : HandshakeMessage) : Except HandshakeError Handshaker := do
  response.check
  let ephemeralSecret ←
    match hs.ephemeralSecret with
    | some secret => .ok secret
    | none => .error .invalidState
  let sharedSecret := X25519.diffieHellman ephemeralSecret response.ephemeralPub
  let transcript := hs.transcript ++ response.transcriptBytes
  -- bytes 64..96 of the transcript are the nonce of our Init
  let initNonce := (transcript.drop 64).take 32
  return { hs with
    ephemeralSecret := none
    transcript
    sessionKey := some (hs.deriveKey initNonce response.nonce.toList sharedSecret) }

/-- HMAC of the transcript under the session key. -/
def makeConfirm [HmacSha256] (hs : Handshaker) : Except HandshakeError (Octets 32) :=
  match hs.sessionKey with
  | some key => .ok (HmacSha256.mac key hs.transcript)
  | none => .error .invalidState

def verifyConfirm [HmacSha256] (hs : Handshaker) (hmac : Octets 32) : Except HandshakeError Unit :=
  match hs.sessionKey with
  | some key =>
      if HmacSha256.mac key hs.transcript = hmac then .ok () else .error .confirmMismatch
  | none => .error .invalidState

/-! ## What is accepted -/

variable [Ed25519] [X25519] [HkdfSha256]

theorem verified_of_respond {hs : Handshaker} {init : HandshakeMessage}
    {ephemeralSecret nonce : Octets 32} {r : HandshakeMessage × Handshaker}
    (h : hs.respond init ephemeralSecret nonce = .ok r) : init.Verified := by
  refine HandshakeMessage.verified_of_check ?_
  unfold respond at h
  cases hcheck : init.check with
  | ok u => rfl
  | error e =>
    rw [hcheck] at h
    cases h

theorem verified_of_finalizeInitiator {hs hs' : Handshaker} {response : HandshakeMessage}
    (h : hs.finalizeInitiator response = .ok hs') : response.Verified := by
  refine HandshakeMessage.verified_of_check ?_
  unfold finalizeInitiator at h
  cases hcheck : response.check with
  | ok u => rfl
  | error e =>
    rw [hcheck] at h
    cases h

end Handshaker

end ProximityMesh.Crypto
