/-
  Crypto/Transparent.lean --- primitives that hide nothing and can be evaluated.

  They have the laws of the classes they instantiate, so concrete runs are stated
  over them; `open Transparent` makes them instances.  A public key is its secret, a
  signature is the key and the message, and hashes return their input padded to their
  length.
-/
import ProximityMesh.Core.MeshAddress
import ProximityMesh.Crypto.Primitives

set_option autoImplicit false

namespace ProximityMesh

namespace Octets

/-- The first `n` bytes, padded with zeros. -/
def padded (n : Nat) (bytes : Bytes) : Octets n :=
  ⟨(bytes ++ List.replicate n 0).take n, by simp⟩

/-- One byte repeated. -/
def fill (n : Nat) (byte : UInt8) : Octets n := ⟨List.replicate n byte, List.length_replicate⟩

/-- Bytewise exclusive or. -/
def xor {n : Nat} (a b : Octets n) : Octets n :=
  ⟨List.zipWith (fun (x y : UInt8) => x ^^^ y) a.toList b.toList, by simp⟩

theorem xor_comm {n : Nat} (a b : Octets n) : xor a b = xor b a := by
  refine ext ?_
  show List.zipWith _ a.toList b.toList = List.zipWith _ b.toList a.toList
  rw [List.zipWith_comm]
  simp [UInt8.xor_comm]

end Octets

@[reducible] def transparentSha256 : Sha256 where
  digest bytes := .padded 32 bytes

@[reducible] def transparentBlake3 : Blake3 where
  deriveKey _ _ := Octets.zero 32
  keyedHash _ input := .padded 32 input

@[reducible] def transparentEd25519 : Ed25519 where
  verifyingKey seed := seed
  sign seed message := seed.append (.padded 32 message)
  isVerifyingKey _ := true
  verify publicKey message signature := decide (signature = publicKey.append (.padded 32 message))
  isVerifyingKey_verifyingKey _ := rfl
  verify_sign _ _ := decide_eq_true rfl

@[reducible] def transparentX25519 : X25519 where
  publicKey secret := secret
  diffieHellman secret publicKey := secret.xor publicKey
  diffieHellman_comm a b := a.xor_comm b

@[reducible] def transparentHkdf : HkdfSha256 where
  derive _ ikm _ := .padded 32 ikm

@[reducible] def transparentHmac : HmacSha256 where
  mac key _ := key

/-- The tag is the first half of the key. -/
@[reducible] def keyedGcm : Aes256Gcm where
  gcmSeal key _ plaintext := (plaintext, .padded 16 key.toList)
  gcmOpen key _ ciphertext tag := if tag = .padded 16 key.toList then some ciphertext else none
  length_gcmSeal _ _ _ := rfl
  gcmOpen_gcmSeal _ _ _ _ := if_pos rfl

namespace Transparent

attribute [scoped instance] transparentSha256 transparentBlake3 transparentEd25519
  transparentX25519 transparentHkdf transparentHmac identityGcm

end Transparent

end ProximityMesh
