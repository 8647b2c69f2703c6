/-
  Daemon/Session.lean --- the session of a direct peer after the handshake.

  Source: crates/pim-daemon/src/session.rs; the two constructions of a session
  are in crates/pim-daemon/src/handshake.rs.

  Both ciphers of a session are built from the session key alone: the key
  encrypts, and bytes of the same key are the nonce prefixes.  The nonce is part
  of the clear header, so `Link.clearTrace_eq_iff` decides what an observer
  learns by comparing two runs of one conversation under two keys.
-/
import ProximityMesh.Crypto.Session
import ProximityMesh.Protocol.TransportFrame

set_option autoImplicit false

namespace ProximityMesh.Daemon

open Crypto Protocol SessionCipher

/-- Per-peer crypto session established after the handshake. -/
structure Session where
  peerId : NodeId
  send : SessionCipher
  /-- Carries the nonce-replay state across frames. -/
  recv : SessionCipher
  deriving DecidableEq

/-- Bytes 0..8 of the session key for the initiator, 8..16 for the responder. -/
def noncePrefix (sessionKey : Octets 32) (isInitiator : Bool) : Octets 8 :=
  if isInitiator then ⟨sessionKey.toList.take 8, by simp⟩
  else ⟨(sessionKey.toList.drop 8).take 8, by simp⟩

namespace Session

/-- The session a completed handshake installs in the given role. -/
def new (peerId : NodeId) (key : Octets 32) (isInitiator : Bool) : Session where
  peerId := peerId
  send := SessionCipher.new key (noncePrefix key isInitiator)
  recv := SessionCipher.new key (noncePrefix key (!isInitiator))

variable [Aes256Gcm]

def encryptFrame (s : Session) (plaintext : Bytes) :
    Except SessionError TransportFrame × Session :=
  match s.send.encryptInPlaceDetached plaintext with
  | (.error e, send) => (.error e, { s with send := send })
  | (.ok (payload, nonce, tag), send) =>
      (.ok { frameType := .data, nonce := nonce, payload := payload, tag := tag },
        { s with send := send })

/-- Decrypt a frame of the peer; only the payload changes. -/
def decryptFrame (s : Session) (frame : TransportFrame) :
    Except SessionError TransportFrame × Session :=
  match s.recv.decryptInPlaceDetached frame.nonce frame.payload frame.tag with
  | (.error e, recv) => (.error e, { s with recv := recv })
  | (.ok payload, recv) => (.ok { frame with payload := payload }, { s with recv := recv })

/-- The frame `encryptFrame` emits while the counter and the plaintext allow
one. -/
def frameFor (s : Session) (plaintext : Bytes) : TransportFrame :=
  let nonce := s.send.buildNonce s.send.counter
  let sealed := Aes256Gcm.gcmSeal s.send.cipher nonce plaintext
  { frameType := .data, nonce := nonce, payload := sealed.1, tag := sealed.2 }

/-- The send cipher's counter and the plaintext allow a frame. -/
def CanEmit (s : Session) (plaintext : Bytes) : Prop :=
  s.send.counter < maxNonceCounter ∧ Aes256Gcm.Fits plaintext

omit [Aes256Gcm] in
instance (s : Session) (plaintext : Bytes) : Decidable (s.CanEmit plaintext) :=
  inferInstanceAs (Decidable (_ ∧ _))

/-- The session after a call of `encryptFrame`. -/
def advance (s : Session) : Session :=
  { s with send := { s.send with counter := s.send.counter + 1 } }

theorem encryptFrame_snd (s : Session) (plaintext : Bytes) :
    (s.encryptFrame plaintext).2 = s.advance := by
  unfold encryptFrame
  rw [encryptInPlaceDetached_eq]
  split <;> rename_i heq <;> rw [← (Prod.mk.inj heq).2] <;> rfl

theorem encryptFrame_toOption (s : Session) (plaintext : Bytes) :
    (s.encryptFrame plaintext).1.toOption =
      if s.CanEmit plaintext then some (s.frameFor plaintext) else none := by
  unfold encryptFrame CanEmit
  rw [encryptInPlaceDetached_eq]
  by_cases hcount : s.send.counter < maxNonceCounter
  · by_cases hfits : Aes256Gcm.Fits plaintext
    · simp [Aes256Gcm.encryptInPlaceDetached, frameFor, hcount, hfits, Except.toOption]
    · simp [Aes256Gcm.encryptInPlaceDetached, hcount, hfits, Except.toOption]
  · simp [hcount, Except.toOption]

/-- Encrypting emits the frame or refuses, and always advances. -/
theorem encryptFrame_cases (s : Session) (plaintext : Bytes) :
    (s.CanEmit plaintext ∧ s.encryptFrame plaintext = (.ok (s.frameFor plaintext), s.advance)) ∨
      ¬ s.CanEmit plaintext ∧ ∃ e, s.encryptFrame plaintext = (.error e, s.advance) := by
  have hfst := s.encryptFrame_toOption plaintext
  rw [← s.encryptFrame_snd plaintext]
  generalize s.encryptFrame plaintext = emitted at hfst
  obtain ⟨result, s'⟩ := emitted
  cases result with
  | ok frame =>
    obtain ⟨hcan, hframe⟩ := Option.ite_none_right_eq_some.mp hfst.symm
    cases hframe
    exact .inl ⟨hcan, rfl⟩
  | error e =>
    refine .inr ⟨fun hcan => ?_, e, rfl⟩
    rw [if_pos hcan] at hfst
    cases hfst

/-- The receiving cipher accepts the frame. -/
def Accepts (s : Session) (frame : TransportFrame) : Prop :=
  s.recv.Accepts frame.nonce frame.payload frame.tag

theorem decryptFrame_of_accepts {s : Session} {frame : TransportFrame} (h : s.Accepts frame) :
    ∃ payload, s.decryptFrame frame = (.ok { frame with payload },
      { s with recv :=
        { s.recv with lastRecvCounter := nonceCounter frame.nonce } }) := by
  obtain ⟨payload, heq⟩ := decryptInPlaceDetached_of_accepts h
  exact ⟨payload, by simp only [decryptFrame, heq]⟩

theorem decryptFrame_of_not_accepts {s : Session} {frame : TransportFrame} (h : ¬ s.Accepts frame) :
    ∃ e, s.decryptFrame frame = (.error e, s) := by
  obtain ⟨e, heq⟩ := decryptInPlaceDetached_of_not_accepts h
  exact ⟨e, by simp only [decryptFrame, heq]⟩

/-- A frame is decrypted to what it opens to under the key of the session. -/
theorem gcmOpen_of_decryptFrame {s : Session} {frame opened : TransportFrame}
    (h : (s.decryptFrame frame).1 = .ok opened) :
    Aes256Gcm.gcmOpen s.recv.cipher frame.nonce frame.payload frame.tag = some opened.payload := by
  unfold decryptFrame decryptInPlaceDetached at h
  dsimp only at h
  split at h
  · cases h
  · rename_i payload recv heq
    split at heq
    · cases heq
    · split at heq
      · cases heq
      · rename_i plaintext hopen
        obtain rfl : plaintext = payload := Except.ok.inj (Prod.mk.inj heq).1
        obtain rfl := Except.ok.inj h
        exact hopen

/-- Two sessions at one counter value emit the same clear header exactly when
they have the same nonce prefix: AES-GCM keeps the length, so nothing else of
the key is left in the header. -/
theorem clearHeader_frameFor_eq_iff {s₁ s₂ : Session}
    (hcount : s₁.send.counter = s₂.send.counter) (plaintext : Bytes) :
    (s₁.frameFor plaintext).clearHeader = (s₂.frameFor plaintext).clearHeader ↔
      s₁.send.noncePrefix = s₂.send.noncePrefix := by
  rw [TransportFrame.clearHeader_inj_iff (f := s₁.frameFor plaintext)
    (g := s₂.frameFor plaintext) rfl
    ((Aes256Gcm.length_gcmSeal _ _ _).trans (Aes256Gcm.length_gcmSeal _ _ _).symm)]
  simp only [frameFor, buildNonce, hcount]
  exact ⟨fun h => (Octets.append_inj h).1, fun h => by rw [h]⟩

end Session

/-! ## An observer of the link -/

/-- The two end points of one session. -/
structure Link where
  initiator : Session
  responder : Session
  deriving DecidableEq

/-- A plaintext frame and whether the initiator sends it. -/
structure Message where
  fromInitiator : Bool
  plaintext : Bytes
  deriving DecidableEq

namespace Link

/-- The end points right after the handshake that derived `key`. -/
def establish (initiatorId responderId : NodeId) (key : Octets 32) : Link where
  initiator := Session.new responderId key true
  responder := Session.new initiatorId key false

/-- The end point that sends in the given direction. -/
def sender (l : Link) (fromInitiator : Bool) : Session :=
  if fromInitiator then l.initiator else l.responder

def setSender (l : Link) (fromInitiator : Bool) (s : Session) : Link :=
  if fromInitiator then { l with initiator := s } else { l with responder := s }

theorem sender_setSender (l : Link) (dir dir' : Bool) (s : Session) :
    (l.setSender dir s).sender dir' = if dir' = dir then s else l.sender dir' := by
  cases dir <;> cases dir' <;> rfl

variable [Aes256Gcm]

/-- Hand a message to its sender's session: the frame that goes on the wire, if
encryption succeeds. -/
def transmit (l : Link) (m : Message) : Option TransportFrame × Link :=
  let (result, s') := (l.sender m.fromInitiator).encryptFrame m.plaintext
  (result.toOption, l.setSender m.fromInitiator s')

/-- What an observer reads in clear while a conversation is carried: for each
frame on the wire its direction and its clear header. -/
def clearTrace (l : Link) : List Message → List (Bool × Bytes)
  | [] => []
  | m :: ms =>
      match l.transmit m with
      | (some frame, l') => (m.fromInitiator, frame.clearHeader) :: l'.clearTrace ms
      | (none, l') => l'.clearTrace ms

theorem transmit_eq (l : Link) (m : Message) :
    l.transmit m =
      (if (l.sender m.fromInitiator).CanEmit m.plaintext then
          some ((l.sender m.fromInitiator).frameFor m.plaintext)
        else none,
      l.setSender m.fromInitiator (l.sender m.fromInitiator).advance) := by
  unfold transmit
  rw [← Session.encryptFrame_toOption, ← Session.encryptFrame_snd _ m.plaintext]

end Link

/-- The plaintexts of one direction, in order. -/
def plaintextsOf (fromInitiator : Bool) (ms : List Message) : List Bytes :=
  (ms.filter (·.fromInitiator = fromInitiator)).map (·.plaintext)

/-- Starting at a counter value, one of the plaintexts is put on the wire: the
cipher accepts it and the counter is not one of the two refused values. -/
def Emits (count : UInt32) (plaintexts : List Bytes) : Prop :=
  ∃ (i : Nat) (p : Bytes), plaintexts[i]? = some p ∧
    count + UInt32.ofNat i < maxNonceCounter ∧ Aes256Gcm.Fits p

theorem emits_cons (count : UInt32) (p : Bytes) (ps : List Bytes) :
    Emits count (p :: ps) ↔
      (count < maxNonceCounter ∧ Aes256Gcm.Fits p) ∨ Emits (count + 1) ps := by
  have hsucc : ∀ i, count + UInt32.ofNat (i + 1) = count + 1 + UInt32.ofNat i := by
    intro i
    rw [UInt32.ofNat_add, UInt32.add_comm (UInt32.ofNat i), ← UInt32.add_assoc]
    rfl
  constructor
  · rintro ⟨i, q, hq, hcount, hfits⟩
    cases i with
    | zero =>
      obtain rfl : p = q := by simpa using hq
      exact .inl ⟨by simpa using hcount, hfits⟩
    | succ i => exact .inr ⟨i, q, by simpa using hq, hsucc i ▸ hcount, hfits⟩
  · rintro (⟨hcount, hfits⟩ | ⟨i, q, hq, hcount, hfits⟩)
    · exact ⟨0, p, rfl, by simpa using hcount, hfits⟩
    · exact ⟨i + 1, q, by simpa using hq, (hsucc i).symm ▸ hcount, hfits⟩

namespace Link

variable [Aes256Gcm]

/-- Two links whose counters agree show the same trace exactly when their nonce
prefixes agree in each direction that puts a frame on the wire. -/
theorem clearTrace_eq_iff_of_counter_eq (ms : List Message) (l₁ l₂ : Link)
    (hcount : ∀ dir, (l₁.sender dir).send.counter = (l₂.sender dir).send.counter) :
    l₁.clearTrace ms = l₂.clearTrace ms ↔
      ∀ dir, Emits (l₁.sender dir).send.counter (plaintextsOf dir ms) →
        (l₁.sender dir).send.noncePrefix = (l₂.sender dir).send.noncePrefix := by
  induction ms generalizing l₁ l₂ with
  | nil => simp [clearTrace, plaintextsOf, Emits]
  | cons m ms ih =>
    obtain ⟨d, p⟩ := m
    have hcount' : ∀ dir,
        ((l₁.setSender d (l₁.sender d).advance).sender dir).send.counter =
          ((l₂.setSender d (l₂.sender d).advance).sender dir).send.counter := by
      intro dir
      rw [sender_setSender, sender_setSender]
      split
      · exact congrArg (· + 1) (hcount d)
      · exact hcount dir
    have htail := ih _ _ hcount'
    have hemit : (l₂.sender d).CanEmit p ↔ (l₁.sender d).CanEmit p := by
      unfold Session.CanEmit
      rw [hcount d]
    -- the direction of `m` loses its first plaintext, the other one none
    have hsplit : (∀ dir, Emits (l₁.sender dir).send.counter (plaintextsOf dir (⟨d, p⟩ :: ms)) →
          (l₁.sender dir).send.noncePrefix = (l₂.sender dir).send.noncePrefix) ↔
        ((l₁.sender d).CanEmit p →
          (l₁.sender d).send.noncePrefix = (l₂.sender d).send.noncePrefix) ∧
        ∀ dir, Emits ((l₁.setSender d (l₁.sender d).advance).sender dir).send.counter
            (plaintextsOf dir ms) →
          ((l₁.setSender d (l₁.sender d).advance).sender dir).send.noncePrefix =
            ((l₂.setSender d (l₂.sender d).advance).sender dir).send.noncePrefix := by
      cases d <;>
        simp only [plaintextsOf, sender_setSender, Session.advance, Session.CanEmit,
          Bool.forall_bool, List.filter_cons, decide_true, decide_false, reduceCtorEq, if_true,
          if_false, List.map_cons, emits_cons, or_imp, Bool.false_eq_true] <;>
        tauto
    rw [hsplit, ← htail, clearTrace, clearTrace, transmit_eq, transmit_eq]
    by_cases hcan : (l₁.sender d).CanEmit p
    · simp only [hcan, hemit.mpr hcan, if_true, List.cons.injEq, Prod.mk.injEq, true_and,
        forall_const, Session.clearHeader_frameFor_eq_iff (hcount d)]
    · simp only [hcan, mt hemit.mp hcan, if_false, false_imp_iff, true_and]

/-- What an observer of a session reads in clear is the same under two keys
exactly when the keys agree in the bytes that serve as nonce prefix of each
direction in which a frame is sent. -/
theorem clearTrace_eq_iff (initiatorId responderId : NodeId) (key₁ key₂ : Octets 32)
    (ms : List Message) :
    (establish initiatorId responderId key₁).clearTrace ms =
        (establish initiatorId responderId key₂).clearTrace ms ↔
      ∀ dir, Emits 0 (plaintextsOf dir ms) → noncePrefix key₁ dir = noncePrefix key₂ dir := by
  rw [clearTrace_eq_iff_of_counter_eq ms _ _ (by intro dir; cases dir <;> rfl)]
  constructor
  · intro h dir hemits
    cases dir
    · exact h false hemits
    · exact h true hemits
  · intro h dir hemits
    cases dir
    · exact h false hemits
    · exact h true hemits

end Link

/-- One empty message of the initiator shows the first eight bytes of the key. -/
theorem clearTrace_reveals_key :
    letI := identityGcm
    (Link.establish ⟨Octets.zero 16⟩ ⟨Octets.zero 16⟩ (Octets.zero 32)).clearTrace [⟨true, []⟩] ≠
      (Link.establish ⟨Octets.zero 16⟩ ⟨Octets.zero 16⟩
        ⟨1 :: List.replicate 31 0, by simp⟩).clearTrace [⟨true, []⟩] := by
  decide +kernel

end ProximityMesh.Daemon
