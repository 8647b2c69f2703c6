/-
  Daemon/Authenticity.lean --- which handshakes sessions and stored keys come from.

  The responder files a session under the id its connection is tagged with, which
  on an accepted connection is what the remote party claimed.  So a session belongs
  to the identity it is filed under as long as every Init carries a key of the id
  its connection is tagged with; the initiator derives the id and needs nothing.
  A signature covers nothing of the other side, so a recorded message verifies on
  any connection: that its sender is on the other end is a second condition.

  `Authentic` is the invariant, over the part of the ledger that handshakes touch.
-/
import ProximityMesh.Daemon.Steps

set_option autoImplicit false

namespace ProximityMesh.Daemon

open Protocol Transport Crypto Routing

section Invariant

variable [Sha256] [Ed25519]

/-- The handshake was filed under the id of the key it verified, and its message is
one of those delivered. -/
structure Genuine (G : Delivered → Prop) (h : Completed) : Prop where
  verified : h.message.Verified
  filed : NodeId.fromPublicKey h.message.senderPub = h.peerId
  delivered : ∃ handshakeType, G ⟨h.conn, wireOf handshakeType h.message⟩

/-- Every session and every stored key comes from a genuine handshake, and what
waits in channels and before responders will lead to no other. -/
structure Authentic (G : Delivered → Prop) (c : Credentials) : Prop where
  queued : ∀ chan queue, c.channels.get chan = some queue → ∀ d ∈ queue, G d
  presented : ∀ r ∈ c.spawned, G r.init ∧ ∀ m, r.init.wire = wireOf .init m →
    NodeId.fromPublicKey m.senderPub = r.peerId
  completed : ∀ h ∈ c.handshakes, Genuine G h
  session : ∀ id cell, c.sessions.get id = some cell → cell < c.nextCell ∧
    ∃ h ∈ c.handshakes, h.peerId = id ∧ c.keys cell = some (id, h.key, h.key)
  pubkey : ∀ id pk, c.peerPubkeys.get id = some pk →
    ∃ h ∈ c.handshakes, h.peerId = id ∧ h.message.senderPub = pk

def State.Authentic (G : Delivered → Prop) (s : State) : Prop :=
  Daemon.Authentic G s.standing.credentials

/-! ## Changes of the credentials -/

namespace Authentic

variable {G : Delivered → Prop} {c : Credentials}

theorem dropSession (hc : Authentic G c) (id : NodeId) :
    Authentic G { c with sessions := c.sessions.remove id } :=
  { hc with session := fun id' cell hget => hc.session id' cell (HashMap.get_of_get_remove hget) }

theorem dropPubkey (hc : Authentic G c) (id : NodeId) :
    Authentic G { c with peerPubkeys := c.peerPubkeys.remove id } :=
  { hc with pubkey := fun id' pk hget => hc.pubkey id' pk (HashMap.get_of_get_remove hget) }

theorem record (hc : Authentic G c) {h : Completed} (hh : Genuine G h) :
    Authentic G { c with handshakes := c.handshakes ++ [h] } where
  queued := hc.queued
  presented := hc.presented
  completed h' hh' := by
    rcases List.mem_append.mp hh' with hold | hnew
    · exact hc.completed h' hold
    · rw [List.mem_singleton.mp hnew]
      exact hh
  session id cell hget := by
    obtain ⟨hlt, h', hmem, hrest⟩ := hc.session id cell hget
    exact ⟨hlt, h', List.mem_append_left _ hmem, hrest⟩
  pubkey id pk hget := by
    obtain ⟨h', hmem, hrest⟩ := hc.pubkey id pk hget
    exact ⟨h', List.mem_append_left _ hmem, hrest⟩

/-- A session in a fresh cell, filed under the id of a handshake on record. -/
theorem install (hc : Authentic G c) {h : Completed} (hmem : h ∈ c.handshakes) :
    Authentic G { c with
      keys := fun cell => if cell = c.nextCell then some (h.peerId, h.key, h.key) else c.keys cell
      sessions := c.sessions.insert h.peerId c.nextCell
      nextCell := c.nextCell + 1 } := by
  refine { hc with session := fun id cell hget => ?_ }
  dsimp only at hget ⊢
  rcases HashMap.get_insert_cases hget with ⟨hid, rfl⟩ | ⟨-, hold⟩
  · exact ⟨Nat.lt_succ_self _, h, hmem, hid.symm, by rw [if_pos rfl, hid]⟩
  · -- an older cell is below the fresh one, so its keys are untouched
    obtain ⟨hlt, h', hmem', hid, hkeys⟩ := hc.session id cell hold
    refine ⟨Nat.lt_succ_of_lt hlt, h', hmem', hid, ?_⟩
    rw [if_neg (Nat.ne_of_lt hlt)]
    exact hkeys

theorem storeKey (hc : Authentic G c) {h : Completed} (hmem : h ∈ c.handshakes) :
    Authentic G { c with peerPubkeys := c.peerPubkeys.insert h.peerId h.message.senderPub } := by
  refine { hc with pubkey := fun id pk hget => ?_ }
  rcases HashMap.get_insert_cases hget with ⟨hid, hpk⟩ | ⟨-, hold⟩
  · exact ⟨h, hmem, hid.symm, hpk.symm⟩
  · exact hc.pubkey id pk hold

end Authentic

/-! ## Runs -/

/-- What is asked of a handshake frame when the event loop takes it up: its message
is one of those allowed on the connection, and an Init carries a key of the id its
connection is tagged with. -/
structure Presented (G : Delivered → Prop) (r : Received) : Prop where
  allowed : r.frame.frameType = .handshake → ∀ wire rest,
    HandshakeWireFrame.decode r.frame.payload = .ok wire rest → G ⟨r.conn, wire⟩
  tagged : r.frame.frameType = .handshake → ∀ m rest,
    HandshakeWireFrame.decode r.frame.payload = .ok (wireOf .init m) rest →
      NodeId.fromPublicKey m.senderPub = r.peer

/-- Every message is in `G`, and an Init carries a key of the id it is presented
under. -/
def presentedTerms (config : Config) (G : Delivered → Prop) : Terms where
  config := config
  Delivers := G
  Presents id d := ∀ m, d.wire = wireOf .init m → NodeId.fromPublicKey m.senderPub = id
  Announces _ _ := True

variable {config : Config} {G : Delivered → Prop}

omit [Ed25519] in
theorem Presented.admits {r : Received} (hr : Presented G r) :
    (presentedTerms config G).Admits r where
  delivered := hr.allowed
  presented htype m rest hdecode m' hm' := by
    rw [← hr.tagged htype m rest hdecode]
    injection hm' with _ hpub
    rw [hpub]
  announced _ _ _ _ _ _ := trivial

variable [X25519] [HkdfSha256]

theorem genuine_of_made {h : Completed} (hh : Made (presentedTerms config G) h) : Genuine G h where
  verified := hh.verified
  filed := by
    cases hh with
    | initiator ephemeralSecret nonce role delivered filed finalized key => exact filed
    | responder ephemeralSecret nonce response role delivered presented responded key =>
      exact presented h.message rfl
  delivered := by
    cases hh with
    | initiator ephemeralSecret nonce role delivered filed finalized key =>
      exact ⟨.response, delivered⟩
    | responder ephemeralSecret nonce response role delivered presented responded key =>
      exact ⟨.init, delivered⟩

variable [Blake3]

theorem stable_authentic :
    Stable (presentedTerms config G) fun l => Authentic G l.credentials := by
  intro l l' hl hc h
  have hl' := hl.change h
  cases h with
  | setChannel chan queue hqueue | dropChannel chan => exact { hc with queued := hl'.queued }
  | spawn r hinit hpresents | takeSpawned r rest h => exact { hc with presented := hl'.spawned }
  | install h hh =>
    exact (hc.record (genuine_of_made hh)).install (List.mem_append_right _ (.head _))
  | storeKey h hh =>
    exact (hc.record (genuine_of_made hh)).storeKey (List.mem_append_right _ (.head _))
  | dropSession id => exact hc.dropSession id
  | dropPubkey id => exact hc.dropPubkey id
  | route ops routing hops hrun | trust d handshakeType m hd hm | learnKey id key h => exact hc

variable [HmacSha256] [Aes256Gcm]

theorem authentic_of_reaches {b : Boot} {s : State}
    (hs : Reaches (fun s e => e = .frame → ∀ r ∈ s.transport.incoming.head?, Presented G r) b s) :
    s.Authentic G := by
  have hboot : Authentic G b.state.ledger.credentials :=
    { queued := fun chan queue hget => nomatch hget
      presented := fun r hr => nomatch hr
      completed := fun h hh => nomatch hh
      session := fun id cell hget => nomatch hget
      pubkey := fun id pk hget => nomatch hget }
  refine (holds_of_reaches stable_authentic rfl hboot (fun s he r hr => ?_) hs).inv
  exact (he rfl r hr).admits

end Invariant

end ProximityMesh.Daemon
