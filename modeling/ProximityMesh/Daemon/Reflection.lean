/-
  Daemon/Reflection.lean --- whose frames the two end points of a session accept.

  Source: `Session` of crates/pim-daemon/src/session.rs over the ciphers of
  crates/pim-crypto/src/session.rs.

  Both directions of a session are sealed under one key.  They differ in the nonce
  prefix, and the receiver takes the whole nonce from the frame: it looks at the
  counter bytes and never at the prefix.  A frame an end point sealed itself
  therefore opens when the network hands it back, and only the replay counter can
  stop it.  `accepts_only_peer_frames_iff` says that this is the one way in which
  a frame that is not the peer's gets accepted.
-/
import ProximityMesh.Crypto.Replay
import ProximityMesh.Daemon.Session

set_option autoImplicit false

namespace ProximityMesh.Daemon

open Crypto Protocol List Aes256Gcm

/-- What a send cipher produced: the type byte of a frame is not under the cipher. -/
structure SealedPart where
  nonce : Octets 12
  payload : Bytes
  tag : Octets 16
  deriving DecidableEq

def SealedPart.ofFrame (frame : TransportFrame) : SealedPart :=
  ⟨frame.nonce, frame.payload, frame.tag⟩

/-- What happens on a link: an end point seals a plaintext, or the network hands an
end point a frame, whatever its origin. -/
inductive LinkEvent where
  | transmit (m : Message)
  | deliver (toInitiator : Bool) (frame : TransportFrame)
  deriving DecidableEq

/-- The two end points, and what the send cipher of each has produced so far. -/
structure Exchange where
  link : Link
  sealedBy : Bool → List SealedPart

namespace Exchange

/-- Right after the handshake that derived `key`. -/
def establish (initiatorId responderId : NodeId) (key : Octets 32) : Exchange where
  link := Link.establish initiatorId responderId key
  sealedBy _ := []

variable [Aes256Gcm]

def step (x : Exchange) : LinkEvent → Exchange
  | .transmit m =>
      let (frame, link') := x.link.transmit m
      { link := link'
        sealedBy := fun dir =>
          if dir = m.fromInitiator then x.sealedBy dir ++ (frame.map .ofFrame).toList
          else x.sealedBy dir }
  | .deliver toInitiator frame =>
      let (_, s') := (x.link.sender toInitiator).decryptFrame frame
      { x with link := x.link.setSender toInitiator s' }

def run (x : Exchange) (events : List LinkEvent) : Exchange := events.foldl step x

/-- `decrypt_frame` of the end point returns `Ok`. -/
def Accepts (x : Exchange) (toInitiator : Bool) (frame : TransportFrame) : Prop :=
  ((x.link.sender toInitiator).decryptFrame frame).1.toOption.isSome

/-- The end point has received no frame whose counter is as high as this one's. -/
def Fresh (x : Exchange) (toInitiator : Bool) (frame : TransportFrame) : Prop :=
  (x.link.sender toInitiator).recv.Fresh frame.nonce

/-! ## What a run keeps -/

/-- Every cipher of the link has the session key, and what is on record was sealed
under it. -/
structure Keyed (key : Octets 32) (x : Exchange) : Prop where
  send : ∀ dir, (x.link.sender dir).send.cipher = key
  recv : ∀ dir, (x.link.sender dir).recv.cipher = key
  genuine : ∀ dir, ∀ part ∈ x.sealedBy dir, ∃ plaintext, Aes256Gcm.Fits plaintext ∧
    Aes256Gcm.gcmSeal key part.nonce plaintext = (part.payload, part.tag)

theorem keyed_establish (initiatorId responderId : NodeId) (key : Octets 32) :
    (establish initiatorId responderId key).Keyed key where
  send dir := by cases dir <;> rfl
  recv dir := by cases dir <;> rfl
  genuine _ _ h := absurd h not_mem_nil

variable {key : Octets 32} {x : Exchange}

theorem Keyed.transmit (h : x.Keyed key) (m : Message) : (x.step (.transmit m)).Keyed key := by
  have hstep := x.link.transmit_eq m
  constructor
  · intro dir
    simp only [step, hstep, Link.sender_setSender]
    split
    · exact h.send m.fromInitiator
    · exact h.send dir
  · intro dir
    simp only [step, hstep, Link.sender_setSender]
    split
    · exact h.recv m.fromInitiator
    · exact h.recv dir
  · intro dir part hpart
    simp only [step, hstep] at hpart
    split at hpart
    · rcases mem_append.mp hpart with hold | hnew
      · exact h.genuine dir part hold
      · -- the new frame, if there is one, is sealed under the send cipher's key
        by_cases hcan : (x.link.sender m.fromInitiator).CanEmit m.plaintext
        · rw [if_pos hcan] at hnew
          obtain rfl := mem_singleton.mp hnew
          refine ⟨m.plaintext, hcan.2, ?_⟩
          rw [← h.send m.fromInitiator]
          rfl
        · rw [if_neg hcan] at hnew
          exact absurd hnew not_mem_nil
    · exact h.genuine dir part hpart

theorem Keyed.accepts_iff (h : x.Keyed key) (dir : Bool) (frame : TransportFrame) :
    x.Accepts dir frame ↔ x.Fresh dir frame ∧
      (gcmOpen key frame.nonce frame.payload frame.tag).isSome := by
  have hiff : (x.link.sender dir).Accepts frame ↔ x.Fresh dir frame ∧
      (gcmOpen key frame.nonce frame.payload frame.tag).isSome := by
    rw [← h.recv dir]
    exact Iff.rfl
  rw [← hiff]
  by_cases hacc : (x.link.sender dir).Accepts frame
  · obtain ⟨payload, heq⟩ := Session.decryptFrame_of_accepts hacc
    simp [Accepts, heq, hacc, Except.toOption]
  · obtain ⟨e, heq⟩ := Session.decryptFrame_of_not_accepts hacc
    simp [Accepts, heq, hacc, Except.toOption]

theorem Keyed.deliver (h : x.Keyed key) (dir : Bool) (frame : TransportFrame) :
    (x.step (.deliver dir frame)).Keyed key := by
  have hciphers : ((x.link.sender dir).decryptFrame frame).2.send.cipher = key ∧
      ((x.link.sender dir).decryptFrame frame).2.recv.cipher = key := by
    by_cases hacc : (x.link.sender dir).Accepts frame
    · obtain ⟨payload, heq⟩ := Session.decryptFrame_of_accepts hacc
      rw [heq]
      exact ⟨h.send dir, h.recv dir⟩
    · obtain ⟨e, heq⟩ := Session.decryptFrame_of_not_accepts hacc
      rw [heq]
      exact ⟨h.send dir, h.recv dir⟩
  constructor
  · intro dir'
    simp only [step, Link.sender_setSender]
    split
    · exact hciphers.1
    · exact h.send dir'
  · intro dir'
    simp only [step, Link.sender_setSender]
    split
    · exact hciphers.2
    · exact h.recv dir'
  · exact h.genuine

theorem Keyed.run (h : x.Keyed key) (events : List LinkEvent) : (x.run events).Keyed key := by
  induction events generalizing x with
  | nil => exact h
  | cons event events ih =>
    cases event with
    | transmit m => exact ih (h.transmit m)
    | deliver dir frame => exact ih (h.deliver dir frame)

/-- What an end point sealed opens under the key, at either end. -/
theorem Keyed.opens_of_sealedBy (h : x.Keyed key) {dir : Bool} {frame : TransportFrame}
    (hmem : .ofFrame frame ∈ x.sealedBy dir) :
    (gcmOpen key frame.nonce frame.payload frame.tag).isSome := by
  obtain ⟨plaintext, hfits, hseal⟩ := h.genuine dir _ hmem
  have hopen := gcmOpen_gcmSeal key frame.nonce plaintext hfits
  simp only [SealedPart.ofFrame] at hseal
  rw [hseal] at hopen
  rw [hopen]
  rfl

/-! ## Whose frames are accepted -/

/-- In the run, the frame is handed to the end point after the events `before`. -/
def DeliveredAfter (events before : List LinkEvent) (toInitiator : Bool)
    (frame : TransportFrame) : Prop :=
  before ++ [.deliver toInitiator frame] <+: events

/-- The cipher is ideal and the key is known to the two end points alone: a delivered
frame opens only if one of the two has sealed it before. -/
def Unforged (key : Octets 32) (x : Exchange) (events : List LinkEvent) : Prop :=
  ∀ before dir frame, DeliveredAfter events before dir frame →
    (Aes256Gcm.gcmOpen key frame.nonce frame.payload frame.tag).isSome →
    ∃ dir', .ofFrame frame ∈ (x.run before).sealedBy dir'

/-- In a run of a session without forgeries, the end points accept only what the peer's
send cipher produced, exactly if no end point is handed a frame of its own (that the peer
did not produce as well) while the counter of that frame is fresh to it. -/
theorem accepts_only_peer_frames_iff (initiatorId responderId : NodeId) (key : Octets 32)
    (events : List LinkEvent)
    (hideal : Unforged key (establish initiatorId responderId key) events) :
    (∀ before dir frame, DeliveredAfter events before dir frame →
      ((establish initiatorId responderId key).run before).Accepts dir frame →
      .ofFrame frame ∈ ((establish initiatorId responderId key).run before).sealedBy (!dir)) ↔
    ∀ before dir frame, DeliveredAfter events before dir frame →
      .ofFrame frame ∈ ((establish initiatorId responderId key).run before).sealedBy dir →
      .ofFrame frame ∉ ((establish initiatorId responderId key).run before).sealedBy (!dir) →
      ¬ ((establish initiatorId responderId key).run before).Fresh dir frame := by
  have hkeyed before := (keyed_establish initiatorId responderId key).run before
  constructor
  · intro honly before dir frame hdelivered hown hpeer hfresh
    have haccepts := ((hkeyed before).accepts_iff dir frame).mpr
      ⟨hfresh, (hkeyed before).opens_of_sealedBy hown⟩
    exact hpeer (honly before dir frame hdelivered haccepts)
  · intro hstale before dir frame hdelivered haccepts
    obtain ⟨hfresh, hopens⟩ := ((hkeyed before).accepts_iff dir frame).mp haccepts
    obtain ⟨dir', hsealed⟩ := hideal before dir frame hdelivered hopens
    rcases Bool.eq_or_eq_not dir' dir with rfl | rfl
    · by_contra hpeer
      exact hstale before dir' frame hdelivered hsealed hpeer hfresh
    · exact hsealed

omit [Aes256Gcm] in
theorem deliveredAfter_pair {m : Message} {dir dir' : Bool} {frame frame' : TransportFrame}
    {before : List LinkEvent}
    (h : DeliveredAfter [.transmit m, .deliver dir frame] before dir' frame') :
    before = [.transmit m] ∧ dir' = dir ∧ frame' = frame := by
  unfold DeliveredAfter at h
  match before with
  | [] => simp at h
  | [e] => simp_all
  | e :: e' :: es => simp at h

end Exchange

/-- A key whose two nonce prefixes differ. -/
def exampleKey : Octets 32 := ⟨1 :: List.replicate 31 0, by simp⟩

/-- What the initiator emits first under that key, for an empty plaintext and the
identity cipher. -/
def exampleFrame : TransportFrame where
  frameType := .data
  nonce := ⟨1 :: List.replicate 11 0, by simp⟩
  payload := []
  tag := Octets.zero 16

/-- The end points of a session under that key. -/
def exampleExchange : Exchange := .establish ⟨Octets.zero 16⟩ ⟨Octets.zero 16⟩ exampleKey

theorem sealedBy_exampleExchange :
    letI := identityGcm
    (exampleExchange.run [.transmit ⟨true, []⟩]).sealedBy true = [.ofFrame exampleFrame] ∧
      (exampleExchange.run [.transmit ⟨true, []⟩]).sealedBy false = [] := by
  decide +kernel

theorem unforged_exampleExchange (dir : Bool) :
    letI := identityGcm
    Exchange.Unforged exampleKey exampleExchange [.transmit ⟨true, []⟩,
      .deliver dir exampleFrame] := by
  let _ := identityGcm
  intro before dir' frame hdelivered _
  obtain ⟨rfl, rfl, rfl⟩ := Exchange.deliveredAfter_pair hdelivered
  exact ⟨true, by rw [sealedBy_exampleExchange.1]; exact mem_singleton_self _⟩

/-- The frame reaches the peer, who accepts it: the initiator has sealed it. -/
theorem forwarded_frame_accepts_only_peer_frames :
    letI := identityGcm
    Exchange.Unforged exampleKey exampleExchange
        [.transmit ⟨true, []⟩, .deliver false exampleFrame] ∧
      (exampleExchange.run [.transmit ⟨true, []⟩]).Accepts false exampleFrame ∧
      .ofFrame exampleFrame ∈ (exampleExchange.run [.transmit ⟨true, []⟩]).sealedBy (!false) := by
  let _ := identityGcm
  have haccepts : (exampleExchange.run [.transmit ⟨true, []⟩]).Accepts false exampleFrame := by
    show ((exampleExchange.run [.transmit ⟨true, []⟩]).link.sender false
      |>.decryptFrame exampleFrame).1.toOption.isSome = true
    decide +kernel
  refine ⟨unforged_exampleExchange false, haccepts, ?_⟩
  apply (Exchange.accepts_only_peer_frames_iff _ _ exampleKey _
    (unforged_exampleExchange false)).mpr
  · -- the responder, to whom the frame goes, has sealed nothing
    intro before dir frame hdelivered hown
    obtain ⟨rfl, rfl, rfl⟩ := Exchange.deliveredAfter_pair hdelivered
    have hnone : SealedPart.ofFrame exampleFrame ∈ [] :=
      sealedBy_exampleExchange.2 ▸ hown
    exact absurd hnone not_mem_nil
  · exact prefix_rfl
  · exact haccepts

/-- The frame is sent back: the initiator accepts what it sealed itself and the
responder never produced. -/
theorem reflected_frame_accepted :
    letI := identityGcm
    Exchange.Unforged exampleKey exampleExchange
        [.transmit ⟨true, []⟩, .deliver true exampleFrame] ∧
      (exampleExchange.run [.transmit ⟨true, []⟩]).Accepts true exampleFrame ∧
      .ofFrame exampleFrame ∈ (exampleExchange.run [.transmit ⟨true, []⟩]).sealedBy true ∧
      .ofFrame exampleFrame ∉ (exampleExchange.run [.transmit ⟨true, []⟩]).sealedBy false := by
  let _ := identityGcm
  obtain ⟨hown, hpeer⟩ := sealedBy_exampleExchange
  refine ⟨unforged_exampleExchange true, ?_, ?_, ?_⟩
  · show ((exampleExchange.run [.transmit ⟨true, []⟩]).link.sender true
      |>.decryptFrame exampleFrame).1.toOption.isSome = true
    decide +kernel
  · exact mem_singleton_self _
  · exact not_mem_nil

end ProximityMesh.Daemon
