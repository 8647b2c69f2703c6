/-
  Crypto/E2e.lean --- end-to-end encryption between a mesh client and its gateway.

  Source: crates/pim-crypto/src/e2e.rs.

  ECIES: an ephemeral X25519 key agreement with the static key of the gateway,
  HKDF, then AES-256-GCM.  The wire format is
  `ephemeral_pub(32) || nonce(12) || ciphertext || tag(16)`.  Random bytes are
  arguments.

  Two functions decrypt.  `decrypt_paths_agree` says that they read the same fields,
  although one of them moves the ciphertext over the header.
-/
import ProximityMesh.Crypto.Primitives
import ProximityMesh.Foundation.Buffer

set_option autoImplicit false

namespace ProximityMesh.Crypto

open Aes256Gcm BufM

/-- Errors of the end-to-end encryption helpers. -/
inductive E2eError where
  | tooShort
  | decryptionFailed
  | encryptionFailed
  deriving DecidableEq, Repr

namespace E2e

def headerSize : Nat := 32 + 12

def tagSize : Nat := 16

/-- The AES key of a shared secret. -/
def deriveCipher [HkdfSha256] (sharedSecret : Octets 32) : Octets 32 :=
  HkdfSha256.derive none sharedSecret.toList "pim-e2e-v1"

def x25519FromSeed [HkdfSha256] (ed25519Seed : Octets 32) : Octets 32 :=
  HkdfSha256.derive none ed25519Seed.toList "pim-x25519-identity-v1"

def x25519PublicFromSeed [HkdfSha256] [X25519] (ed25519Seed : Octets 32) : Octets 32 :=
  X25519.publicKey (x25519FromSeed ed25519Seed)

variable [HkdfSha256] [X25519] [Aes256Gcm]

def encrypt (plaintext : Bytes) (gatewayPub ephemeralSecret : Octets 32) (nonce : Octets 12) :
    Except E2eError Bytes :=
  let key := deriveCipher (X25519.diffieHellman ephemeralSecret gatewayPub)
  match Aes256Gcm.encryptInPlaceDetached key nonce plaintext with
  | some (ciphertext, tag) =>
      .ok ((X25519.publicKey ephemeralSecret).toList ++ nonce.toList ++ ciphertext ++ tag.toList)
  | none => .error .encryptionFailed

theorem encrypt_eq (plaintext : Bytes) (gatewayPub ephemeralSecret : Octets 32)
    (nonce : Octets 12) : encrypt plaintext gatewayPub ephemeralSecret nonce =
      let sealed := gcmSeal
        (deriveCipher (X25519.diffieHellman ephemeralSecret gatewayPub)) nonce plaintext
      if Aes256Gcm.Fits plaintext then
        .ok ((X25519.publicKey ephemeralSecret).toList ++ nonce.toList ++ sealed.1 ++
          sealed.2.toList)
      else .error .encryptionFailed := by
  unfold encrypt encryptInPlaceDetached
  by_cases h : Aes256Gcm.Fits plaintext <;> simp only [h, if_true, if_false]

variable {plaintext : Bytes} {nonce : Octets 12}

theorem length_encrypt {sealed : Bytes} {gatewayPub ephemeralSecret : Octets 32}
    (h : encrypt plaintext gatewayPub ephemeralSecret nonce = .ok sealed) :
    sealed.length = headerSize + plaintext.length + tagSize := by
  rw [encrypt_eq] at h
  split at h
  · obtain rfl := Except.ok.inj h
    simp only [headerSize, tagSize, List.length_append, List.Vector.toList_length, length_gcmSeal]
  · cases h

theorem exists_encrypt (h : Aes256Gcm.Fits plaintext) (gatewayPub ephemeralSecret : Octets 32)
    (nonce : Octets 12) :
    ∃ sealed, encrypt plaintext gatewayPub ephemeralSecret nonce = .ok sealed := by
  rw [encrypt_eq]
  rw [if_pos h]
  exact ⟨_, rfl⟩

/-- Decrypt in place with the Ed25519 seed of the gateway.  The buffer is cut to
the ciphertext before the tag is checked. -/
def decryptInPlace (ed25519Seed : Octets 32) : BufM E2eError Unit := do
  let length ← BufM.len
  if length < headerSize + tagSize then
    BufM.fail .tooShort
  let ephemeralPub ← BufM.octets 0 32
  let nonce ← BufM.octets 32 12
  let tag ← BufM.octets (length - tagSize) 16
  let ciphertext ← BufM.slice headerSize (length - tagSize)
  let key := deriveCipher (X25519.diffieHellman (x25519FromSeed ed25519Seed) ephemeralPub)
  set ciphertext
  match Aes256Gcm.decryptInPlaceDetached key nonce ciphertext tag with
  | some plaintext => set plaintext
  | none => BufM.fail .decryptionFailed

theorem decryptInPlace_of_short (ed25519Seed : Octets 32) {buf : Bytes}
    (h : buf.length < headerSize + tagSize) :
    decryptInPlace ed25519Seed buf = .error (.error .tooShort) buf := by
  rw [eq_error_iff_ensures]
  simp [decryptInPlace, h]

theorem decryptInPlace_of_gcmOpen {ed25519Seed ephemeralPub : Octets 32} {ciphertext : Bytes}
    {tag : Octets 16} (h : gcmOpen
      (deriveCipher (X25519.diffieHellman (x25519FromSeed ed25519Seed) ephemeralPub)) nonce
        ciphertext tag = some plaintext) :
    decryptInPlace ed25519Seed (ephemeralPub.toList ++ nonce.toList ++ ciphertext ++ tag.toList) =
      .ok () plaintext := by
  have htag : (⟨window tag.toList 0 16, by simp [window]⟩ : Octets 16) = tag := by
    apply Octets.ext
    exact List.take_of_length_le tag.toList_length.le
  rw [eq_ok_iff_ensures]
  simp +arith [decryptInPlace, headerSize, tagSize]
  rw [htag, decryptInPlaceDetached, h]
  rfl

/-- The gateway reads what was encrypted to its key. -/
theorem decryptInPlace_encrypt {sealed : Bytes} {ed25519Seed ephemeralSecret : Octets 32}
    (h : encrypt plaintext (x25519PublicFromSeed ed25519Seed) ephemeralSecret nonce = .ok sealed) :
    decryptInPlace ed25519Seed sealed = .ok () plaintext := by
  rw [encrypt_eq, x25519PublicFromSeed, X25519.diffieHellman_comm] at h
  split at h
  · rename_i hfits
    obtain rfl := Except.ok.inj h
    apply decryptInPlace_of_gcmOpen
    exact gcmOpen_gcmSeal _ nonce plaintext hfits
  · cases h

/-! ## The two ways to decrypt -/

/-- `buffer.copy_within(lo..lo + n, 0); buffer.truncate(n)`.  The bytes may be moved
over bytes that are still to be moved. -/
def shiftToFront (lo n : Nat) : BufM E2eError Bytes := fun buf =>
  if lo + n ≤ buf.length then
    let shifted := (patch buf 0 (window buf lo n)).take n
    .ok shifted shifted
  else .error .panic buf

/-- What both functions do; `payload` says where they leave the ciphertext. -/
def decryptWith (payload : Nat → BufM E2eError Bytes) (ed25519Seed : Octets 32) :
    BufM E2eError Bytes := do
  let length ← BufM.len
  if length < headerSize + tagSize then
    BufM.fail .tooShort
  let ephemeralPub ← BufM.octets 0 32
  let nonce ← BufM.octets 32 12
  let tag ← BufM.octets (length - tagSize) 16
  let ciphertext ← payload length
  let key := deriveCipher (X25519.diffieHellman (x25519FromSeed ed25519Seed) ephemeralPub)
  match Aes256Gcm.decryptInPlaceDetached key nonce ciphertext tag with
  | some plaintext => return plaintext
  | none => BufM.fail .decryptionFailed

/-- `e2e_decrypt`: the payload is decrypted where it stands and returned. -/
def decrypt : Octets 32 → BufM E2eError Bytes :=
  decryptWith fun length => BufM.slice headerSize (length - tagSize)

/-- `e2e_decrypt_in_place` with the move that it makes: the buffer ends as the
plaintext. -/
def decryptShifted (ed25519Seed : Octets 32) : BufM E2eError Unit := do
  let plaintext ← decryptWith
    (fun length => shiftToFront headerSize (length - headerSize - tagSize)) ed25519Seed
  set plaintext

omit [HkdfSha256] [X25519] [Aes256Gcm] in
/-- Of the bytes that are kept none has been overwritten. -/
@[simp ↓] theorem ensures_shiftToFront {buf : Bytes} {lo n : Nat} (h : lo + n ≤ buf.length)
    (Q : Bytes → Bytes → Prop) (E : Fault E2eError → Bytes → Prop) :
    BufM.Ensures (shiftToFront lo n) buf Q E ↔ Q (window buf lo n) (window buf lo n) := by
  have hlen : (window buf lo n).length = n := length_window h
  have hshifted : (patch buf 0 (window buf lo n)).take n = window buf lo n := by
    simp [patch, hlen]
  apply ensures_iff_of_ok
  rw [shiftToFront, if_pos h, hshifted]

variable (ed25519Seed : Octets 32)

/-- The same fields are read, and the same plaintext or error comes out. -/
theorem ensures_decrypt_iff (buf : Bytes) (Q : Bytes → Prop) (E : Fault E2eError → Prop) :
    (BufM.Ensures (decrypt ed25519Seed) buf (fun plaintext _ => Q plaintext) (fun f _ => E f) ↔
      BufM.Ensures (decryptInPlace ed25519Seed) buf (fun _ buf' => Q buf') fun f _ => E f) ∧
    (BufM.Ensures (decryptShifted ed25519Seed) buf (fun _ buf' => Q buf') (fun f _ => E f) ↔
      BufM.Ensures (decryptInPlace ed25519Seed) buf (fun _ buf' => Q buf') fun f _ => E f) := by
  by_cases hshort : buf.length < 60
  · simp [decryptShifted, decrypt, decryptWith, decryptInPlace, headerSize, tagSize, hshort]
  · have hle : ∀ k, k ≤ 60 → k ≤ buf.length := by omega
    have htag : buf.length - 16 + 16 = buf.length := by omega
    have hpayload : 44 ≤ buf.length - 16 := by omega
    have hctLen : buf.length - 44 - 16 = buf.length - 16 - 44 := by omega
    simp [decryptShifted, decrypt, decryptWith, decryptInPlace, headerSize, tagSize, hshort, hle,
      hpayload, hctLen]
    constructor
    · split <;> rfl
    · split <;> rfl

/-- On every buffer both fail or both give the same plaintext, and for what was
encrypted to the key of the seed it is the plaintext. -/
theorem decrypt_paths_agree :
    (∀ buf, (decrypt ed25519Seed).run' buf =
        (do decryptShifted ed25519Seed; get : BufM E2eError Bytes).run' buf) ∧
      ∀ plaintext ephemeralSecret nonce, Aes256Gcm.Fits plaintext →
        ∃ sealed, encrypt plaintext (x25519PublicFromSeed ed25519Seed) ephemeralSecret nonce =
            .ok sealed ∧
          (decrypt ed25519Seed).run' sealed = some plaintext ∧
            (do decryptShifted ed25519Seed; get : BufM E2eError Bytes).run' sealed =
              some plaintext := by
  have hboth : ∀ buf r, BufM.Ensures (decryptInPlace ed25519Seed) buf
      (fun _ plaintext => some plaintext = r) (fun _ _ => none = r) →
      (decrypt ed25519Seed).run' buf = r ∧
        (do decryptShifted ed25519Seed; get).run' buf = r := by
    intro buf r h
    rw [run'_eq_iff, run'_eq_iff, ensures_bind]
    obtain ⟨hdecrypt, hshifted⟩ :=
      ensures_decrypt_iff ed25519Seed buf (some · = r) fun _ => none = r
    exact ⟨hdecrypt.mpr h, hshifted.mpr h⟩
  refine ⟨fun buf => ?_, ?_⟩
  · cases hread : decryptInPlace ed25519Seed buf with
    | ok u plaintext =>
      obtain ⟨hdecrypt, hshifted⟩ := hboth buf (some plaintext) (by rw [BufM.Ensures, hread])
      rw [hdecrypt, hshifted]
    | error f buf' =>
      obtain ⟨hdecrypt, hshifted⟩ := hboth buf none (by rw [BufM.Ensures, hread])
      rw [hdecrypt, hshifted]
  · intro plaintext ephemeralSecret nonce hfits
    obtain ⟨sealed, hsealed⟩ := exists_encrypt hfits (x25519PublicFromSeed ed25519Seed)
      ephemeralSecret nonce
    refine ⟨sealed, hsealed, hboth sealed (some plaintext) ?_⟩
    rw [ensures_iff_of_ok (decryptInPlace_encrypt hsealed)]

end E2e

end ProximityMesh.Crypto
