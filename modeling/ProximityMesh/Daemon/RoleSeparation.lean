/-
  Daemon/RoleSeparation.lean --- a node as its own peer.

  Source: `initiate` and `finalize_initiator` of crates/pim-crypto/src/handshake.rs,
  `handshake_initiator` of crates/pim-daemon/src/handshake.rs.

  An Init and a Response are signed alike, and nothing compares the key of a Response
  with the own one, so an initiator takes an Init for a Response.  A node that is
  played its own Init becomes its own peer.  It does not as long as no Response
  carries a key of its own id, and no Init comes on a connection that claims it.
-/
import ProximityMesh.Crypto.Agreement
import ProximityMesh.Daemon.Identity

set_option autoImplicit false

namespace ProximityMesh.Daemon

open Protocol Transport Crypto Routing

section Runs

variable [Sha256] [Ed25519]

/-- The message does not come from the node itself, by the id that its role takes: an
initiator takes that of the key, a responder that of the connection. -/
def Foreign (selfId : NodeId) (r : Received) (handshakeType : HandshakeFrameType)
    (m : HandshakeMessage) : Prop :=
  (handshakeType = .init → r.peer ≠ selfId) ∧
    (handshakeType = .response → NodeId.fromPublicKey m.senderPub ≠ selfId)

instance (selfId : NodeId) (r : Received) (handshakeType : HandshakeFrameType)
    (m : HandshakeMessage) : Decidable (Foreign selfId r handshakeType m) :=
  inferInstanceAs (Decidable (_ ∧ _))

/-- No Response carries a key of the own id, and no Init is presented under it. -/
def foreignTerms (config : Config) : Terms where
  config := config
  Delivers d := ∀ m, d.wire = wireOf .response m → NodeId.fromPublicKey m.senderPub ≠ config.selfId
  Presents id _ := id ≠ config.selfId
  Announces _ _ := True

variable [X25519] [HkdfSha256]

omit [Sha256] in
/-- An initiator rejects the message of an `initiate` only for want of a secret. -/
theorem finalizeInitiator_message_iff (hs hs' : Handshaker) (ephemeralSecret nonce : Octets 32) :
    (∃ e, hs'.finalizeInitiator (hs.initiate ephemeralSecret nonce).1 = .error e) ↔
      hs'.ephemeralSecret = none := by
  have hcheck : (hs.initiate ephemeralSecret nonce).1.check = .ok () :=
    hs.check_message ephemeralSecret nonce
  cases hsecret : hs'.ephemeralSecret with
  | none =>
    refine ⟨fun _ => rfl, fun _ => ⟨.invalidState, ?_⟩⟩
    unfold Handshaker.finalizeInitiator
    rw [hcheck, hsecret]
    rfl
  | some secret =>
    rw [Handshaker.finalizeInitiator_of_check hcheck hsecret]
    constructor
    · rintro ⟨e, he⟩
      cases he
    · intro h
      cases h

theorem ne_self_of_files {config : Config} {id : NodeId} (h : (foreignTerms config).Files id) :
    id ≠ config.selfId := by
  obtain ⟨h, hmade, rfl⟩ := h
  cases hmade with
  | initiator ephemeralSecret nonce role delivered filed finalized key =>
    rw [← filed]
    exact delivered h.message rfl
  | responder ephemeralSecret nonce response role delivered presented responded key =>
    exact presented

/-- No session and no route for the node itself. -/
structure Ledger.NoSelf (selfId : NodeId) (l : Ledger) : Prop where
  session : l.credentials.sessions.get selfId = none
  table : l.routing.selfId = selfId
  route : l.routing.SelfFree

variable [Blake3]

theorem stable_noSelf (config : Config) :
    Stable (foreignTerms config) (Ledger.NoSelf config.selfId) := by
  intro l l' _ hl hchange
  cases hchange with
  | install h hh =>
    have hne := ne_self_of_files ⟨h, hh, rfl⟩
    exact { hl with session := (HashMap.get_insert_ne _ _ hne.symm).trans hl.session }
  | dropSession id =>
    refine { hl with session := ?_ }
    refine (HashMap.get_remove _ id _).trans ?_
    rw [hl.session, ite_self]
  | route ops routing hops hrun =>
    have hself : routing.selfId = config.selfId :=
      (RoutingTable.run_frame hrun).1.trans hl.table
    refine { hl with table := hself, route := hl.route.run (fun op hop hid => ?_) hrun }
    exact ne_self_of_files (hops op hop _ hid) hl.table
  | _ => exact { hl with }

variable [HmacSha256] [Aes256Gcm]

/-- Messages of `initiate` are taken for a Response by every initiator that waits for one.
And in every run in which no message is of the node itself, the node never has a
session, a stored key or a route for its own id. -/
theorem no_self_peer_of_foreign (b : Boot) (s : State)
    (hs : Reaches (TakesUp (Foreign b.config.selfId)) b s) :
    (∀ (hs hs' : Handshaker) (ephemeralSecret nonce : Octets 32),
      (∃ e, hs'.finalizeInitiator (hs.initiate ephemeralSecret nonce).1 = .error e) ↔
        hs'.ephemeralSecret = none) ∧
    s.sessions.get b.config.selfId = none ∧ s.peerPubkeys.get b.config.selfId = none ∧
      s.routing.routes.get b.config.selfId = none := by
  refine ⟨finalizeInitiator_message_iff, ?_⟩
  have hadmits (s : State) (he : TakesUp (Foreign b.config.selfId) s .frame) (r : Received)
      hr : (foreignTerms b.config).Admits r :=
    { delivered := by
        rintro htype wire rest hdecode m rfl
        exact (he rfl r hr htype .response m rest hdecode).2 rfl
      presented := fun htype m rest hdecode => (he rfl r hr htype .init m rest hdecode).1 rfl
      announced := fun _ _ _ _ _ _ => trivial }
  have hstart : b.state.ledger.NoSelf b.config.selfId :=
    { session := HashMap.get_empty _
      table := rfl
      route := HashMap.get_empty _ }
  have hholds := holds_of_reaches (stable_noSelf b.config) rfl hstart hadmits hs
  refine ⟨hholds.inv.session, ?_, ?_⟩
  · cases hpk : s.peerPubkeys.get b.config.selfId with
    | none => rfl
    | some pk => exact absurd rfl (ne_self_of_files (hholds.sane.filed _ pk hpk))
  · have hroute := hholds.inv.route
    rw [RoutingTable.SelfFree, hholds.inv.table] at hroute
    exact hroute

end Runs

/-! ## Concrete runs -/

section Concrete

open Transparent

/-- Victor becomes a peer, the node itself does not. -/
theorem no_self_peer_victor :
    ∃ s, Reaches (TakesUp (Foreign openNode.config.selfId)) openNode s ∧
      (s.sessions.get victorId).isSome ∧ s.sessions.get openNode.config.selfId = none ∧
      s.routing.routes.get openNode.config.selfId = none := by
  obtain ⟨s, hreaches, hcheck⟩ := exists_reaches_of_play
    (takesUp_of_takesUpOnly (A := Foreign openNode.config.selfId)) openNode
    (inboundHandshake 0 0 victorId victorPub) (fun s => (s.sessions.get victorId).isSome)
    (by decide +kernel)
  obtain ⟨-, hsession, -, hroute⟩ := no_self_peer_of_foreign openNode s hreaches
  exact ⟨s, hreaches, hcheck, hsession, hroute⟩

/-- The node dials, and its own Init comes back with the type byte of a Response: it is
accepted, and the node installs a session and a route for itself. -/
theorem own_init_echoed :
    ((openNode.config.handshaker.initiate (.fill 32 9) (.fill 32 9)).2.finalizeInitiator
      dialledInit).isOk = true ∧
    ∃ s, Reaches (TakesUp fun _ handshakeType m => handshakeType = .response ∧
      m = dialledInit) openNode s ∧ (s.sessions.get openNode.config.selfId).isSome ∧
      (s.routing.routes.get openNode.config.selfId).isSome := by
  refine ⟨by decide +kernel, ?_⟩
  let Echo (_ : Received) (handshakeType : HandshakeFrameType) m : Prop :=
    handshakeType = .response ∧ m = dialledInit
  obtain ⟨s, hreaches, hcheck⟩ :=
    exists_reaches_of_play (takesUp_of_takesUpOnly (A := Echo)) openNode (answeredWith dialledInit)
    (fun s => decide ((s.sessions.get openNode.config.selfId).isSome ∧
      (s.routing.routes.get openNode.config.selfId).isSome)) (by decide +kernel)
  exact ⟨s, hreaches, of_decide_eq_true hcheck⟩

end Concrete

end ProximityMesh.Daemon
