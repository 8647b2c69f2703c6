/-
  Daemon/Trust.lean --- whom trust on first use comes to trust.

  Source: `authorize_authenticated_peer` of crates/pim-daemon/src/auth.rs and its
  calls in crates/pim-daemon/src/handshake.rs.

  Both roles authorize the id of the key a message carries before they check the
  signature of the message, and a failed check does not take the decision back.  So
  the trust set is vouched for by signatures only as far as every message that is
  taken up carries a valid one; otherwise a key that is merely named is trusted.
  The trust store file is written under the same lock and holds the same ids.
-/
import ProximityMesh.Daemon.Identity

set_option autoImplicit false

namespace ProximityMesh.Daemon

open Protocol Transport Crypto Routing

section Runs

variable [Sha256] [Ed25519] [X25519] [HkdfSha256] [Blake3]

/-- Trusted at the start, or the id of a key under which a received message
verifies. -/
def Vouched (b : Boot) (received : HandshakeMessage → Prop) (id : NodeId) : Prop :=
  b.trustedPeers.contains id = true ∨
    ∃ m, received m ∧ m.Verified ∧ NodeId.fromPublicKey m.senderPub = id

/-- Every handshake message is a received one and verifies. -/
def verifiedTerms (config : Config) (received : HandshakeMessage → Prop) : Terms where
  config := config
  Delivers d := ∀ handshakeType m, d.wire = wireOf handshakeType m → received m ∧ m.Verified
  Presents _ _ := True
  Announces _ _ := True

theorem stable_vouched (b : Boot) (received : HandshakeMessage → Prop) :
    Stable (verifiedTerms b.config received) fun l =>
      ∀ id, l.trustedPeers.contains id = true → Vouched b received id := by
  intro l l' _ hl h id hid
  cases h with
  | trust d handshakeType m hd hm =>
    obtain ⟨hreceived, hverified⟩ := hd handshakeType m hm
    rw [HashMap.contains_insert] at hid
    rcases hid with rfl | hold
    · exact .inr ⟨m, hreceived, hverified, rfl⟩
    · exact hl id hold
  | _ => exact hl id hid

variable [HmacSha256] [Aes256Gcm]

/-- In every run in which each handshake message that is taken up verifies, every trusted
id was trusted at the start or is the id of a key under which one of these
messages verifies. -/
theorem trusted_vouched (b : Boot) (received : HandshakeMessage → Prop) (s : State)
    (hs : Reaches (TakesUp fun _ _ m => received m ∧ m.Verified) b s) (id : NodeId)
    (hid : s.trustedPeers.contains id = true) : Vouched b received id := by
  have hadmits (s : State) (he : TakesUp (fun _ _ m => received m ∧ m.Verified) s .frame)
      r hr :
      (verifiedTerms b.config received).Admits r :=
    { delivered := by
        rintro htype wire rest hdecode handshakeType m rfl
        exact he rfl r hr htype handshakeType m rest hdecode
      presented := fun _ _ _ _ => trivial
      announced := fun _ _ _ _ _ _ => trivial }
  have hstart (id : NodeId) (hid : b.state.ledger.trustedPeers.contains id = true) :
      Vouched b received id := .inl hid
  exact (holds_of_reaches (stable_vouched b received) rfl hstart hadmits hs).inv id hid

end Runs

/-! ## Concrete runs -/

section Concrete

open Transparent

/-- A node that trusts on first use and knows nobody. -/
def firstUseNode : Boot :=
  { openNode with config := { openNode.config with policy := .trustOnFirstUse } }

/-- Somebody connects and sends an Init, up to the authorization by the responder. -/
def presentedInit (claimed : NodeId) (init : HandshakeMessage) : List (Choice Input Event) :=
  let steps (k count : Nat) : List (Choice Input Event) := List.replicate count (.run k calm)
  [.start (.accept somewhere claimed)] ++ steps 0 1 ++
    [.start (.receive 0 (handshakeBytes (wireOf .init init))), .start (.deliver 0),
      .start .frame] ++
    steps 3 7 ++ [.start .responder] ++ steps 4 4

/-- Victor's key over bytes that Victor has not signed. -/
def unsignedInit : HandshakeMessage := ⟨victorPub, .fill 32 6, .fill 32 7, .zero 64⟩

/-- Victor connects, and is trusted for the message they signed. -/
theorem trusted_vouched_victor :
    ∃ s received, Reaches (TakesUp fun _ _ m => received m ∧ m.Verified) firstUseNode s ∧
      s.trustedPeers.contains victorId = true ∧ Vouched firstUseNode received victorId := by
  let init := (Handshaker.new victorPub none).message (.fill 32 6) (.fill 32 7)
  let Allowed (_ : Received) (_ : HandshakeFrameType) m : Prop :=
    m = init ∧ m.Verified
  obtain ⟨s, hreaches, hcheck⟩ := exists_reaches_of_play
    (fun s e => takesUp_of_takesUpOnly (A := Allowed) s e) firstUseNode
    (presentedInit victorId init) (fun s => s.trustedPeers.contains victorId) (by decide +kernel)
  exact ⟨s, (· = init), hreaches, hcheck, trusted_vouched firstUseNode _ s hreaches victorId hcheck⟩

/-- No message that is taken up verifies, and still Victor, whose key one of them names, is
trusted from then on. -/
theorem trusted_without_signature :
    NodeId.fromPublicKey victorPub = victorId ∧
    firstUseNode.trustedPeers.contains victorId = false ∧
    ∃ s, Reaches (TakesUp fun _ _ m => ¬ m.Verified) firstUseNode s ∧
      s.trustedPeers.contains victorId = true := by
  refine ⟨by decide +kernel, rfl, ?_⟩
  exact exists_reaches_of_play takesUp_of_takesUpOnly firstUseNode
    (presentedInit victorId unsignedInit) (fun s => s.trustedPeers.contains victorId)
    (by decide +kernel)

end Concrete

end ProximityMesh.Daemon
