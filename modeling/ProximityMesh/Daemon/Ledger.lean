/-
  Daemon/Ledger.lean --- what a step of the daemon can change, said once.

  The ledger is the part of the state that invariants of runs are about: the
  credentials of peers and the handshakes that are under way, the routing table, the
  trust set and the gateway keys.  `Change` lists every way in which a step
  of any task can rewrite it, with what the code has established by then.  `Move` says
  what one step does, for results about the steps of a run: it tells the two calls that
  touch the recorded sequence numbers from all the others, and whom a step may remove.

  What arrives is left to the environment.  `Terms` says what is assumed of the
  frames the event loop takes up; nothing is assumed of those that wait.
-/
import ProximityMesh.Daemon.Standing
import ProximityMesh.Routing.Invariant

set_option autoImplicit false

namespace ProximityMesh.Daemon

open Protocol Transport Crypto Routing ProximityMesh.Task

/-- The wire form of an Init or a Response. -/
def wireOf (handshakeType : HandshakeFrameType) (m : HandshakeMessage) : HandshakeWireFrame :=
  .initOrResponse handshakeType m.senderPub m.ephemeralPub m.nonce m.signature

/-! ## The ledger -/

/-- The part of the state that handshakes install, and what they wait for. -/
structure Credentials where
  sessions : HashMap NodeId Nat
  /-- The peer of a session and the keys of its two directions. -/
  keys : Nat → Option (NodeId × Octets 32 × Octets 32)
  nextCell : Nat
  peerPubkeys : HashMap NodeId (Octets 32)
  channels : HashMap ChanId (List Delivered)
  spawned : List Responder
  handshakes : List Completed

def Standing.credentials (st : Standing) : Credentials where
  sessions := st.sessions
  keys cell := (st.cells cell).map fun session =>
    (session.peerId, session.send.cipher, session.recv.cipher)
  nextCell := st.nextCell
  peerPubkeys := st.peerPubkeys
  channels := st.channels
  spawned := st.spawned
  handshakes := st.handshakes

structure Ledger where
  config : Config
  credentials : Credentials
  routing : RoutingTable
  trustedPeers : HashSet NodeId
  gwX25519ById : HashMap NodeId (Octets 32)

def Standing.ledger (st : Standing) : Ledger where
  config := st.config
  credentials := st.credentials
  routing := st.routing
  trustedPeers := st.trustedPeers
  gwX25519ById := st.gwX25519ById

def State.ledger (s : State) : Ledger := s.standing.ledger

/-- Decryption moves the replay counter of a session, not its keys. -/
theorem leaves_decryptWith [Aes256Gcm] (cell : Nat) (frame : TransportFrame) :
    (decryptWith cell frame).Leaves State.ledger := by
  refine leaves_atomically fun _ s => ?_
  cases hcell : s.cells.get cell with
  | none => rfl
  | some session =>
    unfold State.ledger State.standing Standing.ledger Standing.credentials
    congr 2
    funext k
    dsimp only
    rw [HashMap.get_insert]
    split
    · rename_i hk
      rw [hk, hcell]
      rcases Classical.em (session.Accepts frame) with haccepts | hrejects
      · obtain ⟨payload, heq⟩ := Session.decryptFrame_of_accepts haccepts
        rw [heq]
        rfl
      · obtain ⟨e, heq⟩ := Session.decryptFrame_of_not_accepts hrejects
        rw [heq]
    · rfl

/-! ## Changes -/

/-- What is assumed of the frames that the event loop of a node takes up. -/
structure Terms where
  config : Config
  /-- Handshake messages. -/
  Delivers : Delivered → Prop
  /-- Inits, with the id of their connection. -/
  Presents : NodeId → Delivered → Prop
  /-- Gateway keys in heartbeats, with the id of their connection. -/
  Announces : NodeId → Octets 32 → Prop

/-- Nothing is assumed of what arrives. -/
def anyTerms (config : Config) : Terms where
  config := config
  Delivers _ := True
  Presents _ _ := True
  Announces _ _ := True

section Changes

variable [Sha256] [Ed25519] [X25519] [HkdfSha256]

/-- The local side of a handshake before its first message. -/
def Config.handshaker (c : Config) : Handshaker := .new c.signingKey c.meshHandshakeKey

/-- How a completed handshake came about. -/
inductive Made (T : Terms) (h : Completed) : Prop
  | initiator (ephemeralSecret nonce : Octets 32) (role : h.isInitiator = true)
      (delivered : T.Delivers ⟨h.conn, wireOf .response h.message⟩)
      (filed : NodeId.fromPublicKey h.message.senderPub = h.peerId)
      (finalized : (T.config.handshaker.initiate ephemeralSecret nonce).2.finalizeInitiator
        h.message = .ok h.own)
      (key : h.own.sessionKey = some h.key)
  | responder (ephemeralSecret nonce : Octets 32) (response : HandshakeMessage)
      (role : h.isInitiator = false)
      (delivered : T.Delivers ⟨h.conn, wireOf .init h.message⟩)
      (presented : T.Presents h.peerId ⟨h.conn, wireOf .init h.message⟩)
      (responded : T.config.handshaker.respond h.message ephemeralSecret nonce =
        .ok (response, h.own))
      (key : h.own.sessionKey = some h.key)

variable {T : Terms} {l l' : Ledger} {D : NodeId → Prop}

theorem Made.verified {h : Completed} (hh : Made T h) : h.message.Verified := by
  cases hh with
  | initiator ephemeralSecret nonce role delivered filed finalized key =>
    exact Handshaker.verified_of_finalizeInitiator finalized
  | responder ephemeralSecret nonce response role delivered presented responded key =>
    exact Handshaker.verified_of_respond responded

/-- The ids that handshakes are filed under. -/
def Terms.Files (T : Terms) (id : NodeId) : Prop := ∃ h, Made T h ∧ h.peerId = id

/-- What waits in channels and before responders was delivered, and stored keys have
been filed by handshakes. -/
structure Ledger.Sane (T : Terms) (l : Ledger) : Prop where
  config : l.config = T.config
  queued : ∀ chan queue, l.credentials.channels.get chan = some queue → ∀ d ∈ queue, T.Delivers d
  spawned : ∀ r ∈ l.credentials.spawned, T.Delivers r.init ∧ T.Presents r.peerId r.init
  filed : ∀ id pk, l.credentials.peerPubkeys.get id = some pk → T.Files id

theorem sane_boot {b : Boot} (hconfig : T.config = b.config) : b.state.ledger.Sane T where
  config := hconfig.symm
  queued := fun _ _ hget => nomatch hget
  spawned := fun _ hr => nomatch hr
  filed := fun _ _ hget => nomatch hget

/-- The invariant that tasks keep. -/
structure Ledger.Holds (T : Terms) (J : Ledger → Prop) (l : Ledger) : Prop where
  sane : l.Sane T
  inv : J l

def State.Holds (T : Terms) (J : Ledger → Prop) (s : State) : Prop := s.ledger.Holds T J

variable [Blake3]

/-- What one step can make of a ledger. -/
inductive Change (T : Terms) (l : Ledger) : Ledger → Prop
  | setChannel (chan : ChanId) (queue : List Delivered) (hqueue : ∀ d ∈ queue, T.Delivers d) :
      Change T l { l with credentials := { l.credentials with
        channels := l.credentials.channels.insert chan queue } }
  | dropChannel (chan : ChanId) :
      Change T l { l with credentials := { l.credentials with
        channels := l.credentials.channels.remove chan } }
  | spawn (r : Responder) (hinit : T.Delivers r.init) (hpresents : T.Presents r.peerId r.init) :
      Change T l { l with credentials := { l.credentials with
        spawned := l.credentials.spawned ++ [r] } }
  | takeSpawned (r : Responder) (rest : List Responder) (h : l.credentials.spawned = r :: rest) :
      Change T l { l with credentials := { l.credentials with spawned := rest } }
  | install (h : Completed) (hh : Made T h) :
      Change T l { l with credentials := { l.credentials with
        keys := fun cell =>
          if cell = l.credentials.nextCell then some (h.peerId, h.key, h.key)
          else l.credentials.keys cell
        sessions := l.credentials.sessions.insert h.peerId l.credentials.nextCell
        nextCell := l.credentials.nextCell + 1
        handshakes := l.credentials.handshakes ++ [h] } }
  | storeKey (h : Completed) (hh : Made T h) :
      Change T l { l with credentials := { l.credentials with
        peerPubkeys := l.credentials.peerPubkeys.insert h.peerId h.message.senderPub
        handshakes := l.credentials.handshakes ++ [h] } }
  | dropSession (id : NodeId) :
      Change T l { l with credentials := { l.credentials with
        sessions := l.credentials.sessions.remove id } }
  | dropPubkey (id : NodeId) :
      Change T l { l with credentials := { l.credentials with
        peerPubkeys := l.credentials.peerPubkeys.remove id } }
  | route (ops : List RoutingTable.TableOp) (routing : RoutingTable)
      (hops : ∀ op ∈ ops, ∀ id, op.introduces = some id → T.Files id)
      (hrun : l.routing.run ops = some routing) : Change T l { l with routing }
  | trust (d : Delivered) (handshakeType : HandshakeFrameType) (m : HandshakeMessage)
      (hd : T.Delivers d) (hm : d.wire = wireOf handshakeType m) :
      Change T l { l with
        trustedPeers := l.trustedPeers.insert (NodeId.fromPublicKey m.senderPub) () }
  | learnKey (id : NodeId) (key : Octets 32) (h : T.Announces id key) :
      Change T l { l with gwX25519ById := l.gwX25519ById.insert id key }

theorem Change.routeOne (op : RoutingTable.TableOp) {routing : RoutingTable}
    (hop : ∀ id, op.introduces = some id → T.Files id)
    (hrun : op.perform l.routing = some routing) : Change T l { l with routing } := by
  refine .route [op] routing (fun op' hop' => ?_) ?_
  · rw [List.mem_singleton.mp hop']
    exact hop
  · exact Option.bind_eq_some_iff.mpr ⟨routing, hrun, rfl⟩

theorem Ledger.Sane.change (hl : l.Sane T) (h : Change T l l') : l'.Sane T := by
  cases h with
  | setChannel chan queue hqueue =>
    refine { hl with queued := fun chan' queue' hget => ?_ }
    rcases HashMap.get_insert_cases hget with ⟨-, rfl⟩ | ⟨-, hold⟩
    · exact hqueue
    · exact hl.queued chan' queue' hold
  | dropChannel chan =>
    exact { hl with queued := fun chan' queue' hget =>
              hl.queued chan' queue' (HashMap.get_of_get_remove hget) }
  | spawn r hinit hpresents =>
    refine { hl with spawned := fun r' hr' => ?_ }
    rcases List.mem_append.mp hr' with hold | hnew
    · exact hl.spawned r' hold
    · rw [List.mem_singleton.mp hnew]
      exact ⟨hinit, hpresents⟩
  | takeSpawned r rest h =>
    exact { hl with spawned := fun r' hr' => hl.spawned r' (h ▸ .tail _ hr') }
  | storeKey h hh =>
    refine { hl with filed := fun id pk hget => ?_ }
    rcases HashMap.get_insert_cases hget with ⟨hid, -⟩ | ⟨-, hold⟩
    · exact ⟨h, hh, hid.symm⟩
    · exact hl.filed id pk hold
  | dropPubkey id =>
    exact { hl with filed := fun id' pk hget =>
              hl.filed id' pk (HashMap.get_of_get_remove hget) }
  | install h hh | dropSession id | route ops routing hops hrun => exact { hl with }
  | trust d handshakeType m hd hm | learnKey id key h => exact { hl with }

/-- Kept by every change of a sane ledger. -/
def Stable (T : Terms) (J : Ledger → Prop) : Prop :=
  ∀ l l', l.Sane T → J l → Change T l l' → J l'

theorem stable_made (T : Terms) : Stable T fun l => ∀ h ∈ l.credentials.handshakes, Made T h := by
  intro l l' _ hl hchange h hmem
  have hrecord {h' : Completed} (hh' : Made T h') (hmem : h ∈ l.credentials.handshakes ++ [h']) :
      Made T h := by
    rcases List.mem_append.mp hmem with hold | hnew
    · exact hl h hold
    · rw [List.mem_singleton.mp hnew]
      exact hh'
  cases hchange with
  | install h' hh' | storeKey h' hh' => exact hrecord hh' hmem
  | _ => exact hl h hmem

/-! ## Moves -/

/-- What one step does: nothing to the ledger, a change that leaves the recorded sequence
numbers alone, or one of the two calls that do not.  Only peers in `D` are removed. -/
inductive Ledger.Move (T : Terms) (D : NodeId → Prop) (l : Ledger) : Ledger → Prop
  | still : Ledger.Move T D l l
  | change {l' : Ledger} (h : Change T l l')
      (hseq : l'.routing.peerMaxSeq = l.routing.peerMaxSeq) : Ledger.Move T D l l'
  | removePeer (peerId : NodeId) (hpeer : D peerId) :
      Ledger.Move T D l { l with routing := (l.routing.removePeer peerId).1 }
  | applyUpdate (now : Nat) (update : RouteUpdateFrame) (fromPeer : NodeId)
      (hfiled : T.Files fromPeer) :
      Ledger.Move T D l { l with routing := (l.routing.applyUpdate now update fromPeer).1 }

theorem Ledger.Move.eq_or_change (h : Ledger.Move T D l l') : l' = l ∨ Change T l l' := by
  cases h with
  | still => exact .inl rfl
  | change h hseq => exact .inr h
  | removePeer peerId hpeer =>
    exact .inr (.routeOne (.removePeer peerId) (fun id hid => nomatch hid) rfl)
  | applyUpdate now update fromPeer hfiled =>
    refine .inr (.routeOne (.applyUpdate now update fromPeer) (fun id hid => ?_) rfl)
    rw [← Option.some.inj hid]
    exact hfiled

/-- What a move does to the routing table, as far as recorded sequence numbers go. -/
theorem Ledger.Move.routing (h : Ledger.Move T D l l') :
    l'.routing.peerMaxSeq = l.routing.peerMaxSeq ∨
      (∃ peerId, D peerId ∧ l'.routing = (l.routing.removePeer peerId).1) ∨
      ∃ now update fromPeer, l'.routing = (l.routing.applyUpdate now update fromPeer).1 := by
  cases h with
  | still => exact .inl rfl
  | change h hseq => exact .inl hseq
  | removePeer peerId hpeer => exact .inr (.inl ⟨peerId, hpeer, rfl⟩)
  | applyUpdate now update fromPeer hfiled => exact .inr (.inr ⟨now, update, fromPeer, rfl⟩)

theorem Ledger.Sane.move (hl : l.Sane T) (h : Ledger.Move T D l l') : l'.Sane T := by
  rcases h.eq_or_change with rfl | hchange
  · exact hl
  · exact hl.change hchange

theorem Ledger.Holds.move {J : Ledger → Prop} (hJ : Stable T J) (hl : l.Holds T J)
    (h : Ledger.Move T D l l') : l'.Holds T J := by
  refine ⟨hl.sane.move h, ?_⟩
  rcases h.eq_or_change with rfl | hchange
  · exact hl.inv
  · exact hJ _ _ hl.sane hl.inv hchange

/-- What a step may rely on: a sane ledger, and that nobody outside `D` has been silent
for too long. -/
structure Terms.Allows (T : Terms) (D : NodeId → Prop) (i : Input) (s : State) : Prop where
  sane : s.ledger.Sane T
  heard : ∀ e ∈ s.peerLastHb.iter, i.now - e.2 > livenessTimeout → D e.1

def State.Move (T : Terms) (D : NodeId → Prop) (s s' : State) : Prop :=
  Ledger.Move T D s.ledger s'.ledger

instance (T : Terms) (D : NodeId → Prop) : Std.Refl (State.Move T D) := ⟨fun _ => .still⟩

end Changes

end ProximityMesh.Daemon
