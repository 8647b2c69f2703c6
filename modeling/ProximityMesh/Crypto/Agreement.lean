/-
  Crypto/Agreement.lean --- what the two sides of a handshake agree on.

  Source: crates/pim-crypto/src/handshake.rs.

  The model of the hash functions is symbolic: a result speaks of runs in which no
  two inputs that occur have one digest.  Injectivity on all inputs would be an
  assumption no function with 32-byte digests meets, so it is stated for the
  inputs of the run: `derivations` are those of HKDF, and an HMAC is computed of
  the transcript under the session key.

  The keying material is the 32-byte shared secret followed by the mesh key if
  there is one.  The two lengths differ, so it determines the `Option`
  (`ikmWithMesh_inj`); this is the one place where the missing framing matters.
-/
import ProximityMesh.Crypto.Handshake
import ProximityMesh.Crypto.Transparent

set_option autoImplicit false

namespace ProximityMesh

open List HkdfSha256

/-- No two of the (salt, keying material) pairs derive one session key. -/
def HkdfSha256.CollisionFreeOn [HkdfSha256] (inputs : Set (Bytes × Bytes)) : Prop :=
  inputs.InjOn fun input => HkdfSha256.derive (some input.1) input.2 "pim-session-v1"

theorem collisionFreeOn_of_append [HkdfSha256] {inputs inputs' : List (Bytes × Bytes)}
    (h : ∀ x ∈ inputs ++ inputs', ∀ y ∈ inputs ++ inputs',
      derive (some x.1) x.2 "pim-session-v1" = derive (some y.1) y.2 "pim-session-v1" → x = y) :
    CollisionFreeOn {x | x ∈ inputs ∨ x ∈ inputs'} :=
  fun _ hx _ hy hxy => h _ (mem_append.mpr hx) _ (mem_append.mpr hy) hxy

/-- No two of the (key, message) pairs have one code. -/
def HmacSha256.CollisionFreeOn [HmacSha256] (inputs : Set (Octets 32 × Bytes)) : Prop :=
  inputs.InjOn fun input => HmacSha256.mac input.1 input.2

theorem HmacSha256.collisionFreeOn_of_eq [HmacSha256] {input input' : Option (Octets 32 × Bytes)}
    (h : input = input') : CollisionFreeOn {x | input = some x ∨ input' = some x} := by
  subst h
  intro x hx y hy _
  rw [Set.mem_ofPred_eq, or_self] at hx hy
  exact Option.some.inj (hx.symm.trans hy)

namespace Crypto

open ProximityMesh

/-! ## Messages -/

namespace HandshakeMessage

/-- Identity, ephemeral key and nonce: what a transcript says of a message. -/
def party (m : HandshakeMessage) : Octets 32 × Octets 32 × Octets 32 :=
  (m.senderPub, m.ephemeralPub, m.nonce)

theorem length_transcriptBytes (m : HandshakeMessage) : m.transcriptBytes.length = 96 := by
  simp [transcriptBytes]

theorem party_eq_of_transcriptBytes {m m' : HandshakeMessage}
    (h : m.transcriptBytes = m'.transcriptBytes) : m.party = m'.party := by
  obtain ⟨hfront, hnonce⟩ := append_inj' h (by simp)
  obtain ⟨hsender, hephemeral⟩ := append_inj' hfront (by simp)
  rw [party, party, Octets.ext hsender, Octets.ext hephemeral, Octets.ext hnonce]

/-- A transcript of one exchange determines both of its messages. -/
theorem party_eq_of_exchange {init init' response response' : HandshakeMessage}
    (h : init.transcriptBytes ++ response.transcriptBytes =
      init'.transcriptBytes ++ response'.transcriptBytes) :
    init.party = init'.party ∧ response.party = response'.party := by
  obtain ⟨hinit, hresponse⟩ := append_inj h
    (by rw [length_transcriptBytes, length_transcriptBytes])
  exact ⟨party_eq_of_transcriptBytes hinit, party_eq_of_transcriptBytes hresponse⟩

end HandshakeMessage

namespace Handshaker

variable {hs hs' : Handshaker}

/-- The secret and the `Option` can be read off the keying material. -/
theorem ikmWithMesh_inj {secret secret' : Octets 32}
    (h : hs.ikmWithMesh secret = hs'.ikmWithMesh secret') :
    secret = secret' ∧ hs.meshHandshakeKey = hs'.meshHandshakeKey := by
  obtain ⟨hsecret, hmesh⟩ := append_inj h (by simp)
  refine ⟨Octets.ext hsecret, ?_⟩
  -- with a mesh key on one side only, the material differs in length
  have hlen := congrArg length hmesh
  cases hkey : hs.meshHandshakeKey with
  | none => cases hkey' : hs'.meshHandshakeKey with
    | none => rfl
    | some key' => simp [hkey, hkey'] at hlen
  | some key => cases hkey' : hs'.meshHandshakeKey with
    | none => simp [hkey, hkey'] at hlen
    | some key' =>
      rw [hkey, hkey'] at hmesh
      exact congrArg some (Octets.ext hmesh)

theorem ikmWithMesh_congr (h : hs'.meshHandshakeKey = hs.meshHandshakeKey) (secret : Octets 32) :
    hs'.ikmWithMesh secret = hs.ikmWithMesh secret := by
  rw [ikmWithMesh, h, ikmWithMesh]

section Derived

variable [HkdfSha256]

/-- The session key, if there is one, is the digest of one of the inputs, and the keying
material of that input ends in the mesh key of this side. -/
def DerivedFrom (hs : Handshaker) (inputs : List (Bytes × Bytes)) : Prop :=
  ∀ key, hs.sessionKey = some key → ∃ salt secret, (salt, hs.ikmWithMesh secret) ∈ inputs ∧
    HkdfSha256.derive (some salt) (hs.ikmWithMesh secret) "pim-session-v1" = key

theorem derivedFrom_new (signingKey : Octets 32) (mesh : Option (Octets 32)) :
    (new signingKey mesh).DerivedFrom [] := by
  intro key hkey
  cases hkey

theorem DerivedFrom.mono {hs : Handshaker} {inputs inputs' : List (Bytes × Bytes)}
    (h : hs.DerivedFrom inputs) (hsub : inputs ⊆ inputs') : hs.DerivedFrom inputs' := by
  intro key hkey
  obtain ⟨salt, secret, hmem, hderive⟩ := h key hkey
  exact ⟨salt, secret, hsub hmem, hderive⟩

end Derived

variable [Ed25519] [X25519]

theorem check_message (hs : Handshaker) (ephemeralSecret nonce : Octets 32) :
    (hs.message ephemeralSecret nonce).check = .ok () := by
  have hverify := Ed25519.verify_sign hs.signingKey
    ((X25519.publicKey ephemeralSecret).toList ++ nonce.toList)
  simp [HandshakeMessage.check, HandshakeMessage.signedBytes, message,
    Ed25519.isVerifyingKey_verifyingKey, hverify]

variable [HkdfSha256]

/-- A responder that has answered an Init. -/
def responded (hs : Handshaker) (init : HandshakeMessage) (ephemeralSecret nonce : Octets 32) :
    Handshaker :=
  { hs with
    transcript := hs.transcript ++ init.transcriptBytes ++
      (hs.message ephemeralSecret nonce).transcriptBytes
    sessionKey := some (hs.deriveKey init.nonce.toList nonce.toList
      (X25519.diffieHellman ephemeralSecret init.ephemeralPub))
    ephemeralPub := some (hs.message ephemeralSecret nonce).ephemeralPub }

theorem respond_eq (hs : Handshaker) (init : HandshakeMessage) (ephemeralSecret nonce : Octets 32) :
    hs.respond init ephemeralSecret nonce =
      init.check.map fun _ =>
        (hs.message ephemeralSecret nonce, hs.responded init ephemeralSecret nonce) := by
  unfold respond
  cases init.check <;> rfl

/-- The nonce an initiator finds at bytes 64..96 of its transcript. -/
def recoveredNonce (hs : Handshaker) (response : HandshakeMessage) : Bytes :=
  ((hs.transcript ++ response.transcriptBytes).drop 64).take 32

/-- An initiator that has taken up a Response. -/
def finalized (hs : Handshaker) (ephemeralSecret : Octets 32) (response : HandshakeMessage) :
    Handshaker :=
  { hs with
    ephemeralSecret := none
    transcript := hs.transcript ++ response.transcriptBytes
    sessionKey := some (hs.deriveKey (hs.recoveredNonce response) response.nonce.toList
      (X25519.diffieHellman ephemeralSecret response.ephemeralPub)) }

theorem finalizeInitiator_of_check {response : HandshakeMessage} {ephemeralSecret : Octets 32}
    (hcheck : response.check = .ok ()) (hsecret : hs.ephemeralSecret = some ephemeralSecret) :
    hs.finalizeInitiator response = .ok (hs.finalized ephemeralSecret response) := by
  unfold finalizeInitiator
  rw [hcheck, hsecret]
  rfl

/-- A Response is taken up by an initiator that has a secret to use up. -/
theorem exists_secret_of_finalizeInitiator {response : HandshakeMessage}
    (h : hs.finalizeInitiator response = .ok hs') :
    response.check = .ok () ∧
      ∃ secret, hs.ephemeralSecret = some secret ∧ hs' = hs.finalized secret response := by
  cases hcheck : response.check with
  | error e =>
    unfold finalizeInitiator at h
    rw [hcheck] at h
    cases h
  | ok u =>
    cases hsecret : hs.ephemeralSecret with
    | none =>
      unfold finalizeInitiator at h
      rw [hcheck, hsecret] at h
      cases h
    | some secret =>
      rw [finalizeInitiator_of_check hcheck hsecret] at h
      exact ⟨rfl, secret, rfl, (Except.ok.inj h).symm⟩

end Handshaker

/-! ## Runs of one side -/

/-- A call of the handshake API, with the randomness it draws. -/
inductive HandshakeCall where
  | initiate (ephemeralSecret nonce : Octets 32)
  | respond (init : HandshakeMessage) (ephemeralSecret nonce : Octets 32)
  | finalizeInitiator (response : HandshakeMessage)
  deriving DecidableEq

namespace Handshaker

variable [Ed25519] [X25519] [HkdfSha256]

/-- The state after a call; every refusal comes before the first write. -/
def call (hs : Handshaker) : HandshakeCall → Handshaker
  | .initiate ephemeralSecret nonce => (hs.initiate ephemeralSecret nonce).2
  | .respond init ephemeralSecret nonce =>
      match hs.respond init ephemeralSecret nonce with
      | .ok (_, hs') => hs'
      | .error _ => hs
  | .finalizeInitiator response =>
      match hs.finalizeInitiator response with
      | .ok hs' => hs'
      | .error _ => hs

def run (hs : Handshaker) (calls : List HandshakeCall) : Handshaker := calls.foldl call hs

/-- The salt and the keying material a call hands to HKDF, if it gets there. -/
def derivation (hs : Handshaker) : HandshakeCall → Option (Bytes × Bytes)
  | .initiate _ _ => none
  | .respond init ephemeralSecret nonce =>
      match init.check with
      | .ok _ => some (init.nonce.toList ++ nonce.toList,
          hs.ikmWithMesh (X25519.diffieHellman ephemeralSecret init.ephemeralPub))
      | .error _ => none
  | .finalizeInitiator response =>
      match response.check, hs.ephemeralSecret with
      | .ok _, some secret => some (hs.recoveredNonce response ++ response.nonce.toList,
          hs.ikmWithMesh (X25519.diffieHellman secret response.ephemeralPub))
      | _, _ => none

/-- Everything a sequence of calls hands to HKDF. -/
def derivations (hs : Handshaker) : List HandshakeCall → List (Bytes × Bytes)
  | [] => []
  | c :: cs => (hs.derivation c).toList ++ (hs.call c).derivations cs

/-- What one call does to the mesh key and the session key. -/
theorem call_cases (hs : Handshaker) (c : HandshakeCall) :
    (hs.call c).meshHandshakeKey = hs.meshHandshakeKey ∧
      ((hs.call c).sessionKey = hs.sessionKey ∨
        ∃ salt secret, hs.derivation c = some (salt, hs.ikmWithMesh secret) ∧
          (hs.call c).sessionKey =
            some (derive (some salt) (hs.ikmWithMesh secret) "pim-session-v1")) := by
  cases c with
  | initiate ephemeralSecret nonce => exact ⟨rfl, .inl rfl⟩
  | respond init ephemeralSecret nonce =>
    simp only [call, derivation, respond_eq]
    cases init.check with
    | error e => exact ⟨rfl, .inl rfl⟩
    | ok u => exact ⟨rfl, .inr ⟨_, _, rfl, rfl⟩⟩
  | finalizeInitiator response =>
    simp only [call, derivation]
    cases hresult : hs.finalizeInitiator response with
    | error e => exact ⟨rfl, .inl rfl⟩
    | ok hs' =>
      obtain ⟨hcheck, secret, hsecret, rfl⟩ := exists_secret_of_finalizeInitiator hresult
      rw [hcheck, hsecret]
      exact ⟨rfl, .inr ⟨_, _, rfl, rfl⟩⟩

variable {hs : Handshaker} {inputs : List (Bytes × Bytes)} {key : Octets 32}

theorem DerivedFrom.call (h : hs.DerivedFrom inputs) (c : HandshakeCall) :
    (hs.call c).DerivedFrom (inputs ++ (hs.derivation c).toList) := by
  intro key hkey
  obtain ⟨hmesh, hsame | ⟨salt, secret, hinput, hnew⟩⟩ := hs.call_cases c
  · obtain ⟨salt, secret, hmem, hderive⟩ := h key (hsame ▸ hkey)
    refine ⟨salt, secret, ?_, ?_⟩
    · rw [ikmWithMesh_congr hmesh]
      exact mem_append_left _ hmem
    · rw [ikmWithMesh_congr hmesh]
      exact hderive
  · refine ⟨salt, secret, ?_, ?_⟩
    · rw [ikmWithMesh_congr hmesh, hinput]
      exact mem_append_right _ (mem_singleton_self _)
    · rw [ikmWithMesh_congr hmesh]
      exact Option.some.inj (hnew.symm.trans hkey)

theorem DerivedFrom.run (h : hs.DerivedFrom inputs) (calls : List HandshakeCall) :
    (hs.run calls).DerivedFrom (inputs ++ hs.derivations calls) := by
  induction calls generalizing hs inputs with
  | nil => exact h.mono (subset_append_left _ _)
  | cons c cs ih =>
    have hrest := ih (h.call c)
    rw [append_assoc] at hrest
    exact hrest

theorem meshHandshakeKey_run (hs : Handshaker) (calls : List HandshakeCall) :
    (hs.run calls).meshHandshakeKey = hs.meshHandshakeKey := by
  induction calls generalizing hs with
  | nil => rfl
  | cons c cs ih => exact (ih (hs.call c)).trans (hs.call_cases c).1

/-! ## Agreement -/

omit [Ed25519] [X25519] in
/-- One input, one key, one mesh: two sides with the same session key that were given
different inputs or different mesh keys have found a collision of HKDF. -/
theorem meshHandshakeKey_eq_of_sessionKey_eq {hs' : Handshaker} {inputs' : List (Bytes × Bytes)}
    (hfree : HkdfSha256.CollisionFreeOn {input | input ∈ inputs ∨ input ∈ inputs'})
    (hderived : hs.DerivedFrom inputs) (hderived' : hs'.DerivedFrom inputs')
    (hkey : hs.sessionKey = some key) (hkey' : hs'.sessionKey = some key) :
    hs.meshHandshakeKey = hs'.meshHandshakeKey := by
  obtain ⟨salt, secret, hmem, hderive⟩ := hderived key hkey
  obtain ⟨salt', secret', hmem', hderive'⟩ := hderived' key hkey'
  have hinput := hfree (Or.inl hmem) (Or.inr hmem') (hderive.trans hderive'.symm)
  exact (ikmWithMesh_inj (Prod.mk.inj hinput).2).2

/-- The key and the message of the code a side computes or checks. -/
def confirmInput (hs : Handshaker) : Option (Octets 32 × Bytes) :=
  hs.sessionKey.map fun key => (key, hs.transcript)

variable [HmacSha256]

omit [Ed25519] [X25519] [HkdfSha256] in
theorem makeConfirm_eq_ok {confirm : Octets 32} : hs.makeConfirm = .ok confirm ↔
    ∃ key, hs.sessionKey = some key ∧ HmacSha256.mac key hs.transcript = confirm := by
  unfold makeConfirm
  cases hs.sessionKey <;> simp

omit [Ed25519] [X25519] [HkdfSha256] in
theorem verifyConfirm_iff {confirm : Octets 32} :
    hs.verifyConfirm confirm = .ok () ↔ hs.makeConfirm = .ok confirm := by
  unfold verifyConfirm makeConfirm
  cases hs.sessionKey <;> simp

omit [Ed25519] [X25519] [HkdfSha256] in
/-- An accepted code is one of the same transcript under the same key. -/
theorem eq_of_verifyConfirm {hs' : Handshaker} {confirm : Octets 32}
    (hfree : HmacSha256.CollisionFreeOn
      {input | hs.confirmInput = some input ∨ hs'.confirmInput = some input})
    (hmake : hs.makeConfirm = .ok confirm) (hverify : hs'.verifyConfirm confirm = .ok ()) :
    ∃ key, hs.sessionKey = some key ∧ hs'.sessionKey = some key ∧
      hs.transcript = hs'.transcript := by
  obtain ⟨key, hkey, hcode⟩ := makeConfirm_eq_ok.mp hmake
  obtain ⟨key', hkey', hcode'⟩ := makeConfirm_eq_ok.mp (verifyConfirm_iff.mp hverify)
  have hinput := hfree (.inl (congrArg (Option.map fun k => (k, hs.transcript)) hkey))
    (.inr (congrArg (Option.map fun k => (k, hs'.transcript)) hkey')) (hcode.trans hcode'.symm)
  obtain ⟨rfl, ht⟩ := Prod.mk.inj hinput
  exact ⟨key, hkey, hkey', ht⟩

omit [HkdfSha256] [HmacSha256] in
theorem recoveredNonce_initiate (signingKey : Octets 32) (mesh : Option (Octets 32))
    (ephemeralSecret nonce : Octets 32) (response : HandshakeMessage) :
    ((new signingKey mesh).initiate ephemeralSecret nonce).2.recoveredNonce response =
      nonce.toList := by
  have hkeys : ((Ed25519.verifyingKey signingKey).toList ++
      (X25519.publicKey ephemeralSecret).toList).length = 64 := by simp
  simp only [recoveredNonce, initiate, new, message, HandshakeMessage.transcriptBytes, nil_append]
  rw [append_assoc, drop_left' hkeys]
  exact take_left' (by simp)

omit [HmacSha256] in
/-- A responder that answers what the initiator sent, up to its signature, under the same
mesh key, derives the key the initiator derives from the answer. -/
theorem sessionKey_responded (seedI seedR : Octets 32) (mesh : Option (Octets 32))
    (secretI nonceI secretR nonceR : Octets 32) {init : HandshakeMessage}
    (hinit : init.party = ((new seedI mesh).message secretI nonceI).party) :
    ((new seedR mesh).responded init secretR nonceR).sessionKey =
      (((new seedI mesh).initiate secretI nonceI).2.finalized secretI
        ((new seedR mesh).message secretR nonceR)).sessionKey := by
  obtain ⟨-, hrest⟩ := Prod.mk.inj hinit
  obtain ⟨hephemeral, hnonce⟩ := Prod.mk.inj hrest
  simp only [responded, finalized, recoveredNonce_initiate, hephemeral, hnonce]
  exact congrArg (fun s => some ((new seedR mesh).deriveKey nonceI.toList nonceR.toList s))
    (X25519.diffieHellman_comm secretR secretI)

/-- An undisturbed exchange runs to its end and leaves both sides with one transcript;
the keys are derived from one salt and one secret. -/
theorem untampered_run (seedI seedR : Octets 32) (meshI meshR : Option (Octets 32))
    (secretI nonceI secretR nonceR : Octets 32) :
    ∃ responder initiator confirm,
      let init := ((new seedI meshI).initiate secretI nonceI).1
      let response := (new seedR meshR).message secretR nonceR
      let secret := X25519.diffieHellman secretI response.ephemeralPub
      (new seedR meshR).respond init secretR nonceR = .ok (response, responder) ∧
        ((new seedI meshI).initiate secretI nonceI).2.finalizeInitiator response = .ok initiator ∧
        initiator.makeConfirm = .ok confirm ∧
        initiator.transcript = responder.transcript ∧
        initiator.sessionKey =
          some ((new seedI meshI).deriveKey nonceI.toList nonceR.toList secret) ∧
        responder.sessionKey =
          some ((new seedR meshR).deriveKey nonceI.toList nonceR.toList secret) := by
  have hrespond := (new seedR meshR).respond_eq
    ((new seedI meshI).initiate secretI nonceI).1 secretR nonceR
  have hcheck : ((new seedI meshI).initiate secretI nonceI).1.check = .ok () :=
    check_message (new seedI meshI) secretI nonceI
  rw [hcheck] at hrespond
  refine ⟨_, _, _, hrespond, finalizeInitiator_of_check (check_message _ _ _) rfl, rfl, rfl, ?_, ?_⟩
  · simp only [finalized, recoveredNonce_initiate]
    rfl
  · have hsecret := X25519.diffieHellman_comm secretR secretI
    exact congrArg
      (fun s => some ((new seedR meshR).deriveKey nonceI.toList nonceR.toList s)) hsecret

omit [HmacSha256] in
theorem transcript_of_initiator {signingKey : Octets 32} {mesh : Option (Octets 32)}
    {ephemeralSecret nonce : Octets 32} {response : HandshakeMessage}
    (hkey : ((new signingKey mesh).run
      [.initiate ephemeralSecret nonce, .finalizeInitiator response]).sessionKey = some key) :
    ((new signingKey mesh).run
        [.initiate ephemeralSecret nonce, .finalizeInitiator response]).transcript =
      ((new signingKey mesh).message ephemeralSecret nonce).transcriptBytes ++
        response.transcriptBytes := by
  simp only [run, call, foldl_cons] at hkey ⊢
  cases hresult : ((new signingKey mesh).initiate ephemeralSecret nonce).2.finalizeInitiator
      response with
  | error e =>
    rw [hresult] at hkey
    cases hkey
  | ok hs' =>
    obtain ⟨-, secret, -, rfl⟩ := exists_secret_of_finalizeInitiator hresult
    rfl

omit [HmacSha256] in
theorem transcript_of_responder {signingKey : Octets 32} {mesh : Option (Octets 32)}
    {init : HandshakeMessage} {ephemeralSecret nonce : Octets 32}
    (hkey : ((new signingKey mesh).run
      [.respond init ephemeralSecret nonce]).sessionKey = some key) :
    ((new signingKey mesh).run [.respond init ephemeralSecret nonce]).transcript =
      init.transcriptBytes ++
        ((new signingKey mesh).message ephemeralSecret nonce).transcriptBytes := by
  simp only [run, call, foldl_cons, respond_eq] at hkey ⊢
  cases hcheck : init.check with
  | error e =>
    rw [hcheck] at hkey
    cases hkey
  | ok u => rfl

/-- Two sides of a handshake, for all identities, mesh keys and randomness.

An undisturbed exchange runs to its end, and gives one key and an accepted Confirm
exactly if the sides hold the same `Option` of mesh key.  Whatever messages the two sides
were given otherwise, a Confirm of the one that the other accepts shows that they have
the same key, mesh key and transcript; if the one initiated and the other responded, they
agree on both identities, both ephemeral keys and both nonces.  No two inputs of HKDF,
and no two of HMAC, have one digest. -/
theorem handshake_agreement (seedI seedR : Octets 32) (meshI meshR : Option (Octets 32)) :
    (∀ secretI nonceI secretR nonceR : Octets 32,
      let init := ((new seedI meshI).initiate secretI nonceI).1
      ∃ response responder initiator confirm,
        (new seedR meshR).respond init secretR nonceR = .ok (response, responder) ∧
          ((new seedI meshI).initiate secretI nonceI).2.finalizeInitiator response =
            .ok initiator ∧
          initiator.makeConfirm = .ok confirm ∧
          (HkdfSha256.CollisionFreeOn {input |
              input ∈ (new seedI meshI).derivations
                [.initiate secretI nonceI, .finalizeInitiator response] ∨
              input ∈ (new seedR meshR).derivations [.respond init secretR nonceR]} →
            (initiator.sessionKey = responder.sessionKey ∧
                responder.verifyConfirm confirm = .ok () ↔
              meshI = meshR))) ∧
      ∀ (callsI callsR : List HandshakeCall) (confirm : Octets 32),
        let initiator := (new seedI meshI).run callsI
        let responder := (new seedR meshR).run callsR
        HkdfSha256.CollisionFreeOn {input | input ∈ (new seedI meshI).derivations callsI ∨
          input ∈ (new seedR meshR).derivations callsR} →
        HmacSha256.CollisionFreeOn {input | initiator.confirmInput = some input ∨
          responder.confirmInput = some input} →
        initiator.makeConfirm = .ok confirm → responder.verifyConfirm confirm = .ok () →
        (∃ key, initiator.sessionKey = some key ∧ responder.sessionKey = some key) ∧
          meshI = meshR ∧ initiator.transcript = responder.transcript ∧
          ∀ secretI nonceI secretR nonceR init response,
            callsI = [.initiate secretI nonceI, .finalizeInitiator response] →
            callsR = [.respond init secretR nonceR] →
            ((new seedI meshI).message secretI nonceI).party = init.party ∧
              response.party = ((new seedR meshR).message secretR nonceR).party := by
  constructor
  · intro secretI nonceI secretR nonceR
    obtain ⟨responder, initiator, confirm, hrespond, hfinalize, hmake, htranscript, hkeyI, hkeyR⟩ :=
      untampered_run seedI seedR meshI meshR secretI nonceI secretR nonceR
    refine ⟨_, responder, initiator, confirm, hrespond, hfinalize, hmake, fun hfree => ?_⟩
    have hrunI : (new seedI meshI).run [.initiate secretI nonceI,
        .finalizeInitiator ((new seedR meshR).message secretR nonceR)] = initiator := by
      simp [run, call, hfinalize]
    have hrunR : (new seedR meshR).run
        [.respond ((new seedI meshI).initiate secretI nonceI).1 secretR nonceR] = responder := by
      simp [run, call, hrespond]
    constructor
    · intro ⟨hkeys, _⟩
      have hmesh := meshHandshakeKey_eq_of_sessionKey_eq hfree
        (hrunI ▸ (derivedFrom_new seedI meshI).run _) (hrunR ▸ (derivedFrom_new seedR meshR).run _)
        hkeyI (hkeys ▸ hkeyI)
      rw [← hrunI, ← hrunR, meshHandshakeKey_run, meshHandshakeKey_run] at hmesh
      exact hmesh
    · intro hmesh
      have hkeys : initiator.sessionKey = responder.sessionKey := by
        rw [hkeyI, hkeyR, hmesh]
        rfl
      refine ⟨hkeys, verifyConfirm_iff.mpr ?_⟩
      rw [← hmake, makeConfirm, ← hkeys, ← htranscript, makeConfirm]
  · intro callsI callsR confirm initiator responder hkdf hmac hmake hverify
    obtain ⟨key, hkeyI, hkeyR, htranscript⟩ := eq_of_verifyConfirm hmac hmake hverify
    have hmesh := meshHandshakeKey_eq_of_sessionKey_eq hkdf
      ((derivedFrom_new seedI meshI).run callsI) ((derivedFrom_new seedR meshR).run callsR)
      hkeyI hkeyR
    rw [meshHandshakeKey_run, meshHandshakeKey_run] at hmesh
    refine ⟨⟨key, hkeyI, hkeyR⟩, hmesh, htranscript, ?_⟩
    rintro secretI nonceI secretR nonceR init response rfl rfl
    rw [transcript_of_initiator hkeyI, transcript_of_responder hkeyR] at htranscript
    exact HandshakeMessage.party_eq_of_exchange htranscript

end Handshaker

/-- Returns the end of the keying material, so that it tells mesh keys apart. -/
@[reducible] def tailHkdf : HkdfSha256 where
  derive _ ikm _ := .padded 32 ikm.reverse

/-- A member of a private mesh and a node without mesh key exchange their messages and end
up without one key and an accepted Confirm; between two members, the accepted Confirm
shows that their transcripts are the same. -/
theorem private_mesh_agreement :
    letI := transparentEd25519
    letI := transparentX25519
    letI := tailHkdf
    letI := transparentHmac
    let member := Handshaker.new (.fill 32 1) (some (.fill 32 9))
    let init := (member.initiate (.fill 32 3) (.fill 32 5)).1
    (∃ response responder initiator confirm,
      (Handshaker.new (.fill 32 2) none).respond init (.fill 32 4) (.fill 32 6) =
          .ok (response, responder) ∧
        (member.initiate (.fill 32 3) (.fill 32 5)).2.finalizeInitiator response = .ok initiator ∧
        initiator.makeConfirm = .ok confirm ∧
        ¬ (initiator.sessionKey = responder.sessionKey ∧
          responder.verifyConfirm confirm = .ok ())) ∧
      (member.run [.initiate (.fill 32 3) (.fill 32 5), .finalizeInitiator
          ((Handshaker.new (.fill 32 2) (some (.fill 32 9))).message (.fill 32 4)
            (.fill 32 6))]).transcript =
        ((Handshaker.new (.fill 32 2) (some (.fill 32 9))).run
          [.respond init (.fill 32 4) (.fill 32 6)]).transcript := by
  let _ := transparentEd25519
  let _ := transparentX25519
  let _ := tailHkdf
  let _ := transparentHmac
  constructor
  · obtain ⟨response, responder, initiator, confirm, hrespond, hfinalize, hmake, hiff⟩ :=
      (Handshaker.handshake_agreement (.fill 32 1) (.fill 32 2) (some (.fill 32 9)) none).1
        (.fill 32 3) (.fill 32 5) (.fill 32 4) (.fill 32 6)
    have hresponse :
        response = (Handshaker.new (.fill 32 2) none).message (.fill 32 4) (.fill 32 6) := by
      exact (Prod.mk.inj (Except.ok.inj hrespond)).1.symm
    refine ⟨response, responder, initiator, confirm, hrespond, hfinalize, hmake, ?_⟩
    subst hresponse
    have hfree := hiff (collisionFreeOn_of_append (by decide +kernel))
    intro h
    cases hfree.mp h
  · refine ((Handshaker.handshake_agreement (.fill 32 1) (.fill 32 2) (some (.fill 32 9))
      (some (.fill 32 9))).2 _ _ (.fill 32 9)
      (collisionFreeOn_of_append (by decide +kernel))
      (HmacSha256.collisionFreeOn_of_eq (by decide +kernel)) ?_ ?_).2.2.1
    · decide +kernel
    · decide +kernel

end Crypto

end ProximityMesh
