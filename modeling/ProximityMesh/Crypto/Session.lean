/-
  Crypto/Session.lean --- session-level symmetric encryption.

  Source: crates/pim-crypto/src/session.rs.

  The nonce of a frame is the 8-byte prefix of the cipher followed by a 4-byte
  counter.  The counter is an `AtomicU32` and `fetch_add` wraps, also on the
  calls that are refused because the counter is exhausted: the two refused
  values `2^32 - 2` and `2^32 - 1` are followed by `0`.  `noncesUsed_getElem?`
  says which nonce each call of a sequence uses, and
  `noncesDistinct_iff_noWrapCollision` says from that exactly which sequences
  reuse one.
-/
import ProximityMesh.Crypto.Primitives

set_option autoImplicit false

namespace ProximityMesh.Crypto

/-- A frame produced by `SessionCipher.encrypt`. -/
structure EncryptedFrame where
  /-- 12-byte nonce used for this frame. -/
  nonce : Octets 12
  /-- Ciphertext followed by the authentication tag. -/
  ciphertext : Bytes
  deriving DecidableEq

/-- Errors returned by `SessionCipher`. -/
inductive SessionError where
  | invalidNonce
  | nonceExhausted
  | encryptionFailed
  | decryptionFailed
  | replayedNonce
  deriving DecidableEq, Repr

/-- Symmetric cipher for the frames of one direction of a session. -/
structure SessionCipher where
  /-- The AES-256 key. -/
  cipher : Octets 32
  noncePrefix : Octets 8
  counter : UInt32
  /-- Highest accepted counter; `u64::MAX` means that no frame was received. -/
  lastRecvCounter : UInt64
  deriving DecidableEq

/-- `u32::MAX - 1`. -/
def maxNonceCounter : UInt32 := 0xFFFFFFFE

/-- `u64::MAX`, the sentinel of `lastRecvCounter`. -/
def noFrameReceived : UInt64 := 0xFFFFFFFFFFFFFFFF

namespace SessionCipher

/-- A cipher that has neither sent nor received. -/
def new (key : Octets 32) (noncePrefix : Octets 8) : SessionCipher where
  cipher := key
  noncePrefix := noncePrefix
  counter := 0
  lastRecvCounter := noFrameReceived

/-- The prefix followed by the big-endian counter. -/
def buildNonce (s : SessionCipher) (counter : UInt32) : Octets 12 :=
  s.noncePrefix.append (u32ToBeBytes counter)

/-- The counter in the last four bytes of a nonce. -/
def nonceCounter (nonce : Octets 12) : UInt64 :=
  UInt64.ofNat (beNat (nonce.toList.drop 8))

/-- `counter.fetch_add(1)`: the value before, and the cipher with the counter
advanced modulo `2^32`. -/
def fetchAdd (s : SessionCipher) : UInt32 × SessionCipher :=
  (s.counter, { s with counter := s.counter + 1 })

variable [Aes256Gcm]

def encrypt (s : SessionCipher) (plaintext : Bytes) :
    Except SessionError EncryptedFrame × SessionCipher :=
  let (count, s') := s.fetchAdd
  if count ≥ maxNonceCounter then (.error .nonceExhausted, s')
  else
    let nonce := s.buildNonce count
    match Aes256Gcm.encrypt s.cipher nonce plaintext with
    | none => (.error .encryptionFailed, s')
    | some ciphertext => (.ok ⟨nonce, ciphertext⟩, s')

/-- Encrypt a payload in place; the result is the buffer, the nonce and the
tag. -/
def encryptInPlaceDetached (s : SessionCipher) (payload : Bytes) :
    Except SessionError (Bytes × Octets 12 × Octets 16) × SessionCipher :=
  let (count, s') := s.fetchAdd
  if count ≥ maxNonceCounter then (.error .nonceExhausted, s')
  else
    let nonce := s.buildNonce count
    match Aes256Gcm.encryptInPlaceDetached s.cipher nonce payload with
    | none => (.error .encryptionFailed, s')
    | some (buffer, tag) => (.ok (buffer, nonce, tag), s')

theorem encrypt_eq (s : SessionCipher) (plaintext : Bytes) :
    s.encrypt plaintext =
      (if s.counter < maxNonceCounter then
        let nonce := s.buildNonce s.counter
        match Aes256Gcm.encrypt s.cipher nonce plaintext with
        | none => .error .encryptionFailed
        | some ciphertext => .ok ⟨nonce, ciphertext⟩
      else .error .nonceExhausted,
      { s with counter := s.counter + 1 }) := by
  unfold encrypt fetchAdd
  by_cases hcount : s.counter < maxNonceCounter
  · simp only [hcount, if_neg (UInt32.not_le.mpr hcount)]
    cases Aes256Gcm.encrypt s.cipher (s.buildNonce s.counter) plaintext <;> rfl
  · simp [hcount]

theorem encryptInPlaceDetached_eq (s : SessionCipher) (payload : Bytes) :
    s.encryptInPlaceDetached payload =
      (if s.counter < maxNonceCounter then
        let nonce := s.buildNonce s.counter
        match Aes256Gcm.encryptInPlaceDetached s.cipher nonce payload with
        | none => .error .encryptionFailed
        | some (buffer, tag) => .ok (buffer, nonce, tag)
      else .error .nonceExhausted,
      { s with counter := s.counter + 1 }) := by
  unfold encryptInPlaceDetached fetchAdd
  by_cases hcount : s.counter < maxNonceCounter
  · simp only [hcount, if_neg (UInt32.not_le.mpr hcount)]
    cases Aes256Gcm.encryptInPlaceDetached s.cipher (s.buildNonce s.counter) payload <;> rfl
  · simp [hcount]

/-- Decrypt a frame, rejecting a counter that is not above the last accepted
one. -/
def decrypt (s : SessionCipher) (frame : EncryptedFrame) :
    Except SessionError Bytes × SessionCipher :=
  let counter := nonceCounter frame.nonce
  let last := s.lastRecvCounter
  if last ≠ noFrameReceived ∧ counter ≤ last then (.error .replayedNonce, s)
  else
    match Aes256Gcm.decrypt s.cipher frame.nonce frame.ciphertext with
    | none => (.error .decryptionFailed, s)
    | some plaintext => (.ok plaintext, { s with lastRecvCounter := counter })

/-- Decrypt a payload in place; the result is the buffer. -/
def decryptInPlaceDetached (s : SessionCipher) (nonce : Octets 12) (payload : Bytes)
    (tag : Octets 16) : Except SessionError Bytes × SessionCipher :=
  let counter := nonceCounter nonce
  let last := s.lastRecvCounter
  if last ≠ noFrameReceived ∧ counter ≤ last then (.error .replayedNonce, s)
  else
    match Aes256Gcm.decryptInPlaceDetached s.cipher nonce payload tag with
    | none => (.error .decryptionFailed, s)
    | some plaintext => (.ok plaintext, { s with lastRecvCounter := counter })

/-- The counter of the nonce is above the last accepted one, and the tag verifies. -/
def Accepts (s : SessionCipher) (nonce : Octets 12) (payload : Bytes) (tag : Octets 16) : Prop :=
  (s.lastRecvCounter = noFrameReceived ∨ s.lastRecvCounter < nonceCounter nonce) ∧
    (Aes256Gcm.gcmOpen s.cipher nonce payload tag).isSome

variable {s : SessionCipher} {nonce : Octets 12} {payload : Bytes} {tag : Octets 16}

theorem decryptInPlaceDetached_of_accepts (h : s.Accepts nonce payload tag) :
    ∃ plaintext, s.decryptInPlaceDetached nonce payload tag =
      (.ok plaintext, { s with lastRecvCounter := nonceCounter nonce }) := by
  obtain ⟨hfresh, hopen⟩ := h
  obtain ⟨plaintext, hplain⟩ := Option.isSome_iff_exists.mp hopen
  refine ⟨plaintext, ?_⟩
  have hnew : ¬(s.lastRecvCounter ≠ noFrameReceived ∧ nonceCounter nonce ≤ s.lastRecvCounter) := by
    rw [not_and_or, not_not, UInt64.not_le]
    exact hfresh
  simp [decryptInPlaceDetached, if_neg hnew, Aes256Gcm.decryptInPlaceDetached, hplain]

theorem decryptInPlaceDetached_of_not_accepts (h : ¬ s.Accepts nonce payload tag) :
    ∃ e, s.decryptInPlaceDetached nonce payload tag = (.error e, s) := by
  unfold decryptInPlaceDetached
  dsimp only
  split
  · exact ⟨_, rfl⟩
  · rename_i hnew
    rw [not_and_or, not_not, UInt64.not_le] at hnew
    cases hopen : Aes256Gcm.gcmOpen s.cipher nonce payload tag with
    | none => exact ⟨.decryptionFailed, by simp only [Aes256Gcm.decryptInPlaceDetached, hopen]⟩
    | some plaintext => exact absurd ⟨hnew, by rw [hopen]; rfl⟩ h

omit [Aes256Gcm] in
/-- A counter has 32 bits, so it is not the sentinel. -/
theorem nonceCounter_ne_noFrameReceived (nonce : Octets 12) :
    nonceCounter nonce ≠ noFrameReceived := by
  have hlt : beNat (nonce.toList.drop 8) < 2 ^ 32 := by
    have hbound := beNat_lt (nonce.toList.drop 8)
    have hlen : (nonce.toList.drop 8).length = 4 := by simp
    rw [hlen] at hbound
    exact hbound
  intro heq
  have htoNat := congrArg UInt64.toNat heq
  rw [nonceCounter, UInt64.toNat_ofNat'] at htoNat
  have hsentinel : noFrameReceived.toNat = 2 ^ 64 - 1 := rfl
  omega

/-- Accepting a frame moves the replay counter: its value is below the sentinel, and
above the last one if there was one. -/
theorem nonceCounter_ne_lastRecvCounter (h : s.Accepts nonce payload tag) :
    nonceCounter nonce ≠ s.lastRecvCounter := by
  rcases h.1 with hnone | hbelow
  · rw [hnone]
    exact nonceCounter_ne_noFrameReceived nonce
  · exact (UInt64.ne_of_lt hbelow).symm

end SessionCipher

/-! ## The nonces of a sequence of calls -/

/-- A call of one of the two encryption entry points. -/
inductive EncryptCall where
  | encrypt (plaintext : Bytes)
  | encryptInPlaceDetached (payload : Bytes)

namespace EncryptCall

/-- The bytes handed to the cipher. -/
def plaintext : EncryptCall → Bytes
  | encrypt plaintext => plaintext
  | encryptInPlaceDetached payload => payload

variable [Aes256Gcm]

/-- Make the call: the nonce it used when it returned `Ok`, and the cipher it
leaves behind. -/
def perform (s : SessionCipher) : EncryptCall → Option (Octets 12) × SessionCipher
  | encrypt plaintext =>
      let (result, s') := s.encrypt plaintext
      (result.toOption.map (·.nonce), s')
  | encryptInPlaceDetached payload =>
      let (result, s') := s.encryptInPlaceDetached payload
      (result.toOption.map (·.2.1), s')

/-- Both entry points advance the counter on every call, and both succeed
exactly below the limit on a plaintext that fits. -/
theorem perform_eq (s : SessionCipher) (call : EncryptCall) :
    call.perform s =
      (if s.counter < maxNonceCounter ∧ Aes256Gcm.Fits call.plaintext then
          some (s.buildNonce s.counter)
        else none,
      { s with counter := s.counter + 1 }) := by
  cases call <;> rename_i p <;> by_cases hcount : s.counter < maxNonceCounter <;>
    by_cases hfits : Aes256Gcm.Fits p <;>
    simp [perform, plaintext, SessionCipher.encrypt_eq, SessionCipher.encryptInPlaceDetached_eq,
      Aes256Gcm.encrypt, Aes256Gcm.encryptInPlaceDetached, Except.toOption, hcount, hfits]

end EncryptCall

namespace SessionCipher

variable [Aes256Gcm]

/-- The nonces of a sequence of calls, in call order; a call that returned an
error contributes `none`. -/
def noncesUsed (s : SessionCipher) : List EncryptCall → List (Option (Octets 12))
  | [] => []
  | call :: calls =>
      let (nonce, s') := call.perform s
      nonce :: noncesUsed s' calls

variable (s : SessionCipher)

/-- The `i`-th call uses the counter advanced `i` times from the start, modulo
`2^32`, whatever the earlier calls returned. -/
theorem noncesUsed_getElem? (calls : List EncryptCall) (i : Nat) :
    (s.noncesUsed calls)[i]? = calls[i]?.map fun call =>
      if s.counter + UInt32.ofNat i < maxNonceCounter ∧ Aes256Gcm.Fits call.plaintext then
        some (s.buildNonce (s.counter + UInt32.ofNat i))
      else none := by
  induction calls generalizing s i with
  | nil => simp [noncesUsed]
  | cons call calls ih =>
    rw [noncesUsed, EncryptCall.perform_eq]
    cases i with
    | zero => simp
    | succ i =>
      have hcount : s.counter + 1 + UInt32.ofNat i = s.counter + UInt32.ofNat (i + 1) := by
        rw [UInt32.ofNat_add, UInt32.add_assoc, UInt32.add_comm 1]
        rfl
      simp only [List.getElem?_cons_succ]
      rw [ih]
      simp [hcount, buildNonce]

/-- No two successful calls used one nonce. -/
def NoncesDistinct (nonces : List (Option (Octets 12))) : Prop :=
  ∀ (i j : Nat) (nonce : Octets 12), i < j → nonces[i]? = some (some nonce) →
    nonces[j]? ≠ some (some nonce)

/-- No two calls a multiple of `2^32` positions apart, at a counter value that
is not one of the two refused ones, both carry a plaintext AES-GCM accepts. -/
def NoWrapCollision (s : SessionCipher) (calls : List EncryptCall) : Prop :=
  ∀ i j a b, i < j → calls[i]? = some a → calls[j]? = some b → (j - i) % 2 ^ 32 = 0 →
    Aes256Gcm.Fits a.plaintext → Aes256Gcm.Fits b.plaintext →
    maxNonceCounter.toNat ≤ (s.counter.toNat + i) % 2 ^ 32

omit [Aes256Gcm] in
theorem buildNonce_injective : Function.Injective s.buildNonce := by
  intro c c' h
  exact u32ToBeBytes_injective (Octets.append_inj h).2

omit [Aes256Gcm] in
theorem toNat_counter_add (i : Nat) :
    (s.counter + UInt32.ofNat i).toNat = (s.counter.toNat + i) % 2 ^ 32 := by
  rw [UInt32.toNat_add, UInt32.toNat_ofNat', Nat.add_mod_mod]

omit [Aes256Gcm] in
/-- Two positions have one counter value exactly when they are a multiple of
`2^32` apart. -/
theorem counter_add_eq_iff {i j : Nat} (hij : i < j) :
    s.counter + UInt32.ofNat i = s.counter + UInt32.ofNat j ↔ (j - i) % 2 ^ 32 = 0 := by
  rw [← UInt32.toNat_inj, toNat_counter_add, toNat_counter_add]
  omega

/-- A call succeeds with a nonce exactly below the counter limit and on a
plaintext that fits. -/
theorem noncesUsed_eq_some_iff (calls : List EncryptCall) (i : Nat)
    (nonce : Octets 12) :
    (s.noncesUsed calls)[i]? = some (some nonce) ↔
      ∃ call, calls[i]? = some call ∧ s.counter + UInt32.ofNat i < maxNonceCounter ∧
        Aes256Gcm.Fits call.plaintext ∧ nonce = s.buildNonce (s.counter + UInt32.ofNat i) := by
  rw [noncesUsed_getElem?]
  cases calls[i]? with
  | none => simp
  | some call =>
    by_cases h : s.counter + UInt32.ofNat i < maxNonceCounter ∧ Aes256Gcm.Fits call.plaintext
    · simp [h, eq_comm]
    · simp only [Option.map_some, if_neg h]
      constructor
      · intro hnone
        simp at hnone
      · rintro ⟨c, hc, hlt, hfits, _⟩
        cases hc
        exact absurd ⟨hlt, hfits⟩ h

/-- Two accepted plaintexts at one unexhausted counter value share a nonce. -/
theorem noWrapCollision_of_noncesDistinct (calls : List EncryptCall)
    (hdistinct : NoncesDistinct (s.noncesUsed calls)) : s.NoWrapCollision calls := by
  intro i j a b hij ha hb hwrap hfa hfb
  by_contra hlow
  have hcount : s.counter + UInt32.ofNat i < maxNonceCounter := by
    rw [UInt32.lt_iff_toNat_lt, toNat_counter_add]
    omega
  refine hdistinct i j _ hij
    ((s.noncesUsed_eq_some_iff calls i _).mpr ⟨a, ha, hcount, hfa, rfl⟩) ?_
  rw [(s.counter_add_eq_iff hij).mpr hwrap] at hcount ⊢
  exact (s.noncesUsed_eq_some_iff calls j _).mpr ⟨b, hb, hcount, hfb, rfl⟩

/-- A shared nonce is a shared counter value, since the prefix of a cipher never
changes. -/
theorem noncesDistinct_of_noWrapCollision (calls : List EncryptCall)
    (hfree : s.NoWrapCollision calls) : NoncesDistinct (s.noncesUsed calls) := by
  intro i j nonce hij hi hj
  obtain ⟨a, ha, hlt, hfa, hna⟩ := (s.noncesUsed_eq_some_iff calls i nonce).mp hi
  obtain ⟨b, hb, _, hfb, hnb⟩ := (s.noncesUsed_eq_some_iff calls j nonce).mp hj
  have hcount := s.buildNonce_injective (hna.symm.trans hnb)
  have hwrap := (s.counter_add_eq_iff hij).mp hcount
  have hlow := hfree i j a b hij ha hb hwrap hfa hfb
  rw [UInt32.lt_iff_toNat_lt, toNat_counter_add] at hlt
  omega

/-- A sequence of calls reuses no nonce exactly when no two accepted plaintexts
meet at one unexhausted value of the wrapping counter. -/
theorem noncesDistinct_iff_noWrapCollision (s : SessionCipher) (calls : List EncryptCall) :
    NoncesDistinct (s.noncesUsed calls) ↔ s.NoWrapCollision calls :=
  ⟨s.noWrapCollision_of_noncesDistinct calls, s.noncesDistinct_of_noWrapCollision calls⟩

/-- On a fresh cipher and plaintexts AES-GCM accepts, the limit is `2^32`
calls, the refused ones included. -/
theorem new_noncesDistinct_iff_length_le (key : Octets 32) (noncePrefix : Octets 8)
    (calls : List EncryptCall) (hfits : ∀ call ∈ calls, Aes256Gcm.Fits call.plaintext) :
    NoncesDistinct ((new key noncePrefix).noncesUsed calls) ↔ calls.length ≤ 2 ^ 32 := by
  constructor
  · intro hdistinct
    have hfree := noWrapCollision_of_noncesDistinct _ _ hdistinct
    by_contra hlong
    have h₀ : 0 < calls.length := by omega
    have h₁ : 2 ^ 32 < calls.length := by omega
    have hlow := hfree 0 (2 ^ 32) calls[0] calls[2 ^ 32] (by omega)
      (List.getElem?_eq_getElem h₀) (List.getElem?_eq_getElem h₁) (by omega)
      (hfits _ (List.getElem_mem h₀)) (hfits _ (List.getElem_mem h₁))
    simp [new, maxNonceCounter] at hlow
  · intro hshort
    refine noncesDistinct_of_noWrapCollision _ _ fun i j a b hij ha hb hwrap => ?_
    have hj : j < calls.length := (List.getElem?_eq_some_iff.mp hb).1
    omega

end SessionCipher

/-- The call after `2^32` empty messages on a fresh cipher uses the nonce of the
first one again. -/
theorem empty_messages_reuse_nonce :
    letI := identityGcm
    ¬ SessionCipher.NoncesDistinct
      ((SessionCipher.new (Octets.zero 32) (Octets.zero 8)).noncesUsed
        (List.replicate (2 ^ 32 + 1) (.encrypt []))) := by
  let _ := identityGcm
  intro hdistinct
  have hfits : ∀ call ∈ List.replicate (2 ^ 32 + 1) (EncryptCall.encrypt []),
      Aes256Gcm.Fits call.plaintext := by
    intro call hcall
    rw [List.eq_of_mem_replicate hcall]
    exact Nat.zero_le _
  have hlength := (SessionCipher.new_noncesDistinct_iff_length_le _ _ _ hfits).mp hdistinct
  rw [List.length_replicate] at hlength
  omega

end ProximityMesh.Crypto
