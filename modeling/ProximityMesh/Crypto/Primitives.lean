/-
  Crypto/Primitives.lean --- the third-party cryptography the crates call.

  Every primitive is a class: its operations are uninterpreted functions, and a
  law is a field only where it is documented behaviour of the primitive that
  holds of every key and input (a ciphertext is as long as its plaintext).
  Security assumptions are not laws of a function; they are hypotheses of the
  theorems that need them.
-/
import ProximityMesh.Foundation.Bytes

set_option autoImplicit false

namespace ProximityMesh

/-! ## AES-256-GCM -/

/-- `P_MAX`: the longest plaintext the crate encrypts under one nonce. -/
def Aes256Gcm.pMax : Nat := 2 ^ 36

/-- The `aes-gcm` crate at a 12-byte nonce and a 16-byte tag, without
associated data (every caller passes `b""`). -/
class Aes256Gcm where
  /-- Keystream encryption and the authentication tag. -/
  gcmSeal : Octets 32 → Octets 12 → Bytes → Bytes × Octets 16
  /-- Tag check and decryption; `none` is `aead::Error`. -/
  gcmOpen : Octets 32 → Octets 12 → Bytes → Octets 16 → Option Bytes
  /-- Counter mode does not change the length. -/
  length_gcmSeal : ∀ key nonce plaintext, (gcmSeal key nonce plaintext).1.length = plaintext.length
  /-- What was sealed opens again. -/
  gcmOpen_gcmSeal : ∀ key nonce plaintext, plaintext.length ≤ Aes256Gcm.pMax →
    gcmOpen key nonce (gcmSeal key nonce plaintext).1 (gcmSeal key nonce plaintext).2 =
      some plaintext

namespace Aes256Gcm

/-- The plaintext is short enough for one call. -/
def Fits (plaintext : Bytes) : Prop := plaintext.length ≤ pMax

instance (plaintext : Bytes) : Decidable (Fits plaintext) :=
  inferInstanceAs (Decidable (_ ≤ _))

variable [Aes256Gcm]

/-- `AeadInPlace::encrypt_in_place_detached`; a plaintext over the limit is
refused before the buffer is touched. -/
def encryptInPlaceDetached (key : Octets 32) (nonce : Octets 12) (buffer : Bytes) :
    Option (Bytes × Octets 16) :=
  if Fits buffer then some (gcmSeal key nonce buffer) else none

/-- `Aead::encrypt`: the ciphertext followed by its tag. -/
def encrypt (key : Octets 32) (nonce : Octets 12) (plaintext : Bytes) : Option Bytes :=
  (encryptInPlaceDetached key nonce plaintext).map fun sealed => sealed.1 ++ sealed.2.toList

/-- `AeadInPlace::decrypt_in_place_detached`; the tag is checked before the
buffer is touched. -/
def decryptInPlaceDetached (key : Octets 32) (nonce : Octets 12) (buffer : Bytes)
    (tag : Octets 16) : Option Bytes :=
  gcmOpen key nonce buffer tag

/-- `Aead::decrypt`: the tag is the last 16 bytes. -/
def decrypt (key : Octets 32) (nonce : Octets 12) (ciphertext : Bytes) : Option Bytes :=
  if h : 16 ≤ ciphertext.length then
    decryptInPlaceDetached key nonce (ciphertext.take (ciphertext.length - 16))
      ⟨ciphertext.drop (ciphertext.length - 16), by simp; omega⟩
  else none

end Aes256Gcm

/-! ## Signatures, key agreement and key derivation -/

/-- The `ed25519-dalek` crate; a signing key is its 32-byte seed. -/
class Ed25519 where
  /-- The public key of a seed. -/
  verifyingKey : Octets 32 → Octets 32
  sign : Octets 32 → Bytes → Octets 64
  /-- Whether `VerifyingKey::from_bytes` accepts the bytes. -/
  isVerifyingKey : Octets 32 → Bool
  verify : Octets 32 → Bytes → Octets 64 → Bool
  isVerifyingKey_verifyingKey : ∀ seed, isVerifyingKey (verifyingKey seed) = true
  verify_sign : ∀ seed message, verify (verifyingKey seed) message (sign seed message) = true

/-- The `x25519-dalek` crate. -/
class X25519 where
  publicKey : Octets 32 → Octets 32
  diffieHellman : Octets 32 → Octets 32 → Octets 32
  diffieHellman_comm : ∀ a b, diffieHellman a (publicKey b) = diffieHellman b (publicKey a)

/-- HKDF with SHA-256 of the `hkdf` crate, expanded to 32 bytes. -/
class HkdfSha256 where
  derive : Option Bytes → Bytes → String → Octets 32

/-- HMAC with SHA-256 of the `hmac` crate. -/
class HmacSha256 where
  mac : Octets 32 → Bytes → Octets 32

/-- The cipher that leaves the plaintext as it is, under an all-zero tag: it
has the laws of the class and evaluates, so concrete runs are stated over it. -/
@[reducible] def identityGcm : Aes256Gcm where
  gcmSeal _ _ plaintext := (plaintext, Octets.zero 16)
  gcmOpen _ _ ciphertext _ := some ciphertext
  length_gcmSeal _ _ _ := rfl
  gcmOpen_gcmSeal _ _ _ _ := rfl

end ProximityMesh
