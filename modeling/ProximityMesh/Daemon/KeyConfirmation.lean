/-
  Daemon/KeyConfirmation.lean --- who has the key of a session the initiator installs.

  Source: `handshake_initiator` of crates/pim-daemon/src/handshake.rs,
  `finalize_initiator` of crates/pim-crypto/src/handshake.rs.

  The initiator installs its session when it has sent its Confirm.  What it has seen of
  the other side by then is a signature over an ephemeral key and a nonce, which
  names neither the Init it answers nor the mesh key.  So the other side has the
  key if the Response was made in answer to the Init of this handshake, under the
  same mesh key, and need not have it otherwise.
-/
import ProximityMesh.Crypto.Agreement
import ProximityMesh.Daemon.Identity

set_option autoImplicit false

namespace ProximityMesh.Daemon

open Protocol Transport Crypto Routing Handshaker

/-- One use of the handshake API by the holder of a seed. -/
structure Side where
  seed : Octets 32
  mesh : Option (Octets 32)
  calls : List HandshakeCall
  deriving DecidableEq

section Runs

variable [Sha256] [Ed25519] [X25519] [HkdfSha256]

def Side.state (x : Side) : Handshaker := (Handshaker.new x.seed x.mesh).run x.calls

/-- Among the sides that were run, one of the holder of the key that signed the
Response has the key of the session, and the mesh key of this node. -/
def Confirmed (ran : Set Side) (h : Completed) : Prop :=
  ∃ x ∈ ran, Ed25519.verifyingKey x.seed = h.message.senderPub ∧
    x.state.sessionKey = some h.key ∧ x.mesh = h.own.meshHandshakeKey

/-- The Response is what a side with the mesh key of this node made in answer to the
Init of this handshake. -/
def Answered (ran : Set Side) (h : Completed) : Prop :=
  ∃ seed init ephemeralSecret nonce side,
    ⟨seed, h.own.meshHandshakeKey, [.respond init ephemeralSecret nonce]⟩ ∈ ran ∧
      (Handshaker.new seed h.own.meshHandshakeKey).respond init ephemeralSecret nonce =
        .ok (h.message, side) ∧
      h.own.transcript = init.transcriptBytes ++ h.message.transcriptBytes

theorem confirmed_of_answered {config : Config} {ran : Set Side} {h : Completed}
    (hmade : Made (anyTerms config) h) (hrole : h.isInitiator = true) (hanswered : Answered ran h) :
    Confirmed ran h := by
  cases hmade with
  | responder secretI nonceI response role delivered presented responded key =>
    rw [role] at hrole
    cases hrole
  | initiator secretI nonceI role delivered filed finalized key =>
    obtain ⟨seed, init, secretR, nonceR, side, hran, hrespond, htranscript⟩ := hanswered
    obtain ⟨-, secret, hsecret, hown⟩ :=
      exists_secret_of_finalizeInitiator finalized
    obtain rfl : secretI = secret := Option.some.inj hsecret
    have hmesh : h.own.meshHandshakeKey = config.meshHandshakeKey := by
      rw [hown]
      rfl
    -- what the other side answered is our Init
    have htranscript' : h.own.transcript =
        (config.handshaker.message secretI nonceI).transcriptBytes ++
          h.message.transcriptBytes := by
      rw [hown]
      rfl
    have hinit := (HandshakeMessage.party_eq_of_exchange (htranscript.symm.trans htranscript')).1
    rw [hmesh] at hran
    have hmessage : h.message = (new seed config.meshHandshakeKey).message secretR nonceR ∧
        Side.state ⟨seed, config.meshHandshakeKey, [.respond init secretR nonceR]⟩ =
          (new seed config.meshHandshakeKey).responded init secretR nonceR := by
      rw [respond_eq] at hrespond
      cases hcheck : init.check with
      | error e =>
        rw [hcheck] at hrespond
        cases hrespond
      | ok u =>
        rw [hcheck] at hrespond
        refine ⟨(Prod.mk.inj (Except.ok.inj hrespond)).1.symm, ?_⟩
        simp [Side.state, run, call, respond_eq, hcheck, Except.map]
    obtain ⟨hmessage, hstate⟩ := hmessage
    refine ⟨_, hran, by rw [hmessage]; rfl, ?_, hmesh.symm⟩
    rw [hstate, sessionKey_responded config.signingKey seed _ secretI nonceI _ _ hinit,
      ← hmessage, ← key, hown]
    rfl

variable [HmacSha256] [Blake3] [Aes256Gcm]

/-- In every run, whatever arrives: if the Response of a session that the initiator
installed was made in answer to the Init of that handshake, by a side with the mesh key of
this node, then that side has the key of the session. -/
theorem initiator_key_confirmed (b : Boot) (ran : Set Side) (s : State)
    (hs : Reaches (fun _ _ => True) b s) (h : Completed) (hmem : h ∈ s.handshakes)
    (hrole : h.isInitiator = true) (hanswered : Answered ran h) : Confirmed ran h := by
  have hmade := (holds_of_reaches (stable_made (anyTerms b.config)) rfl
    (fun h hh => absurd hh List.not_mem_nil) (fun _ _ r _ => admits_anyTerms b.config r) hs).inv h
      hmem
  exact confirmed_of_answered hmade hrole hanswered

end Runs

/-! ## Concrete runs -/

section Concrete

attribute [local instance] transparentSha256 transparentBlake3 transparentEd25519
  transparentX25519 tailHkdf transparentHmac identityGcm

def privateNode : Boot :=
  { openNode with config := { openNode.config with meshHandshakeKey := some (.fill 32 8) } }

/-- Victor answers an Init, without a mesh key. -/
def victorAnswering (init : HandshakeMessage) : Side :=
  ⟨victorPub, none, [.respond init (.fill 32 6) (.fill 32 7)]⟩

def victorResponse : HandshakeMessage :=
  (Handshaker.new victorPub none).message (.fill 32 6) (.fill 32 7)

/-- An Init of somebody else, that Victor has answered at another time. -/
def otherInit : HandshakeMessage :=
  (Handshaker.new malloryPub none).message (.fill 32 5) (.fill 32 5)

/-- The node dials, Victor answers: Victor has the key. -/
theorem initiator_key_confirmed_victor :
    ∃ s, Reaches (fun _ _ => True) openNode s ∧
      ∃ h ∈ s.handshakes, h.isInitiator = true ∧ h.peerId = victorId ∧
        Answered {victorAnswering dialledInit} h ∧ Confirmed {victorAnswering dialledInit} h := by
  obtain ⟨s, hreaches, hcheck⟩ := exists_reaches_of_choices openNode (answeredWith victorResponse)
    (fun s => decide (∃ h ∈ s.handshakes, h.isInitiator = true ∧ h.peerId = victorId ∧
      h.own.meshHandshakeKey = none ∧ h.message = victorResponse ∧
      h.own.transcript = dialledInit.transcriptBytes ++ h.message.transcriptBytes))
    (by decide +kernel)
  obtain ⟨h, hmem, hrole, hid, hmesh, hmessage, htranscript⟩ := of_decide_eq_true hcheck
  have hanswered : Answered {victorAnswering dialledInit} h := by
    refine ⟨victorPub, dialledInit, .fill 32 6, .fill 32 7,
      (new victorPub none).responded dialledInit (.fill 32 6) (.fill 32 7), ?_, ?_,
      htranscript⟩
    · rw [hmesh]
      rfl
    · rw [hmesh, hmessage, respond_eq]
      exact congrArg (Except.map _) (check_message _ _ _)
  exact ⟨s, hreaches, h, hmem, hrole, hid, hanswered,
    initiator_key_confirmed openNode _ s hreaches h hmem hrole hanswered⟩

/-- Victor has no mesh key and answers a node of a private mesh; and a Response that Victor
made for somebody else is played to a node.  Both times the node installs a session for
Victor, who has not derived its key. -/
theorem initiator_key_unconfirmed :
    (∃ s, Reaches (fun _ _ => True) privateNode s ∧ (s.sessions.get victorId).isSome ∧
      ∃ h ∈ s.handshakes, h.isInitiator = true ∧ h.peerId = victorId ∧
        ¬ Confirmed {victorAnswering dialledInit} h) ∧
    ∃ s, Reaches (fun _ _ => True) openNode s ∧ (s.sessions.get victorId).isSome ∧
      ∃ h ∈ s.handshakes, h.isInitiator = true ∧ h.peerId = victorId ∧
        ¬ Confirmed {victorAnswering otherInit} h := by
  let Unknown init (s : State) : Prop :=
    (s.sessions.get victorId).isSome ∧ ∃ h ∈ s.handshakes, h.isInitiator = true ∧
      h.peerId = victorId ∧ (victorAnswering init).state.sessionKey ≠ some h.key
  have hrun (b : Boot) (init : HandshakeMessage)
      (hplay : (Sys.play start (fun _ _ => true) ⟨b.state, []⟩ (answeredWith victorResponse)).any
        (fun S => decide (Unknown init S.state)) = true) :
      ∃ s, Reaches (fun _ _ => True) b s ∧ (s.sessions.get victorId).isSome ∧
        ∃ h ∈ s.handshakes, h.isInitiator = true ∧ h.peerId = victorId ∧
          ¬ Confirmed {victorAnswering init} h := by
    obtain ⟨s, hreaches, hcheck⟩ := exists_reaches_of_choices b _
      (fun s => decide (Unknown init s)) hplay
    obtain ⟨hsession, h, hmem, hrole, hid, hkey⟩ := of_decide_eq_true hcheck
    refine ⟨s, hreaches, hsession, h, hmem, hrole, hid, ?_⟩
    rintro ⟨x, rfl, -, hx, -⟩
    exact hkey hx
  constructor
  · apply hrun
    decide +kernel
  · apply hrun
    decide +kernel

end Concrete

end ProximityMesh.Daemon
