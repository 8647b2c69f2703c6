/-
  Daemon/Identity.lean --- whose session is filed under an id.

  Source: `handshake_responder` and `handshake_initiator` of
  crates/pim-daemon/src/handshake.rs, `handle_incoming` of
  crates/pim-transport/src/tcp.rs.

  A world says who operates each connection, who holds which private key and who
  has signed what; unforgeability is a statement about a world.  Node ids are
  shorter than keys, so they cannot be injective on all 32-byte strings: they are
  assumed to be so on the keys in use, `K`.

  `credentials_held_of_presented` is what the handshakes give as long as every
  Init matches the id its connection claims and nobody replays a message;
  `impersonation` shows both conditions at work.
-/
import ProximityMesh.Daemon.Authenticity

set_option autoImplicit false

namespace ProximityMesh.Daemon

open Protocol Transport Crypto Routing

/-! ## Parties -/

/-- Who is at the other end of each connection, who holds which private key, and
who has signed which message under which key. -/
structure World (Party : Type) where
  operator : ConnId → Party
  holds : Party → Octets 32 → Prop
  signed : Party → Octets 32 → Bytes → Prop

namespace World

variable {Party : Type} [Ed25519] (w : World Party) (K : Set (Octets 32))

/-- A signature that verifies was made by a holder of the key. -/
def Unforgeable : Prop :=
  ∀ pk message signature, Ed25519.verify pk message signature = true →
    ∃ p, w.holds p pk ∧ w.signed p pk message

/-- A handshake message with a valid signature comes on a connection of the party
that signed it, and its key is one of those in use. -/
def Firsthand (d : Delivered) : Prop :=
  ∀ handshakeType m, d.wire = wireOf handshakeType m → m.senderPub ∈ K ∧
    (m.Verified → ∀ p, w.signed p m.senderPub m.signedBytes → p = w.operator d.conn)

variable [Sha256]

/-- The handshake verified under a key of the id, and whoever operates its
connection holds the private key of the identity. -/
structure InstalledBy (id : NodeId) (h : Completed) : Prop where
  verified : h.message.Verified
  id_eq : NodeId.fromPublicKey h.message.senderPub = id
  held : ∀ pk ∈ K, NodeId.fromPublicKey pk = id → w.holds (w.operator h.conn) pk

/-- What is asked of a run: each Init the event loop takes up carries a key of the
id its connection is tagged with, and each handshake message is firsthand. -/
def Honours (s : State) (e : Event) : Prop :=
  e = .frame → ∀ r ∈ s.transport.incoming.head?, Presented (w.Firsthand K) r

variable {w K}

theorem mem_of_genuine {h : Completed} (hh : Genuine (w.Firsthand K) h) :
    h.message.senderPub ∈ K := by
  obtain ⟨handshakeType, hfirst⟩ := hh.delivered
  exact (hfirst handshakeType h.message rfl).1

theorem installedBy_of_genuine (hunforgeable : w.Unforgeable)
    (hinj : Set.InjOn NodeId.fromPublicKey K) {h : Completed}
    (hh : Genuine (w.Firsthand K) h) : w.InstalledBy K h.peerId h where
  verified := hh.verified
  id_eq := hh.filed
  held pk hpk hid := by
    obtain ⟨handshakeType, hfirst⟩ := hh.delivered
    obtain ⟨hmem, hsigner⟩ := hfirst handshakeType h.message rfl
    obtain ⟨p, hholds, hsigned⟩ := hunforgeable _ _ _ hh.verified
    -- the signer is the operator, and the identity has no second key
    rw [← hsigner hh.verified p hsigned, hinj hpk hmem (hid.trans hh.filed.symm)]
    exact hholds

end World

/-! ## Every run -/

section Runs

variable [Sha256] [Ed25519] [X25519] [HkdfSha256] [HmacSha256] [Blake3] [Aes256Gcm]
variable {Party : Type}

/-- In every run that honours the world, every session is keyed by a handshake that
verified under a key of its id, on a connection whose operator holds the private key
of that identity; and the stored key of an id is the key of that handshake. -/
theorem credentials_held_of_presented (w : World Party) (K : Set (Octets 32))
    (hunforgeable : w.Unforgeable) (hinj : Set.InjOn NodeId.fromPublicKey K) (b : Boot) (s : State)
    (hs : Reaches (w.Honours K) b s) :
    (∀ id cell, s.sessions.get id = some cell → ∃ h ∈ s.handshakes, w.InstalledBy K id h ∧
        (∃ session, s.cells.get cell = some session ∧ session.peerId = id ∧
          session.send.cipher = h.key ∧ session.recv.cipher = h.key) ∧
        ∀ pk, s.peerPubkeys.get id = some pk → pk = h.message.senderPub) ∧
    ∀ id pk, s.peerPubkeys.get id = some pk →
      ∃ h ∈ s.handshakes, w.InstalledBy K id h ∧ h.message.senderPub = pk := by
  have hauth : s.Authentic (w.Firsthand K) := authentic_of_reaches hs
  have hinstalled {h : Completed} hmem : w.InstalledBy K h.peerId h :=
    World.installedBy_of_genuine hunforgeable hinj (hauth.completed h hmem)
  constructor
  · intro id cell hget
    obtain ⟨_, h, hmem, rfl, hkeys⟩ := hauth.session id cell hget
    refine ⟨h, hmem, hinstalled hmem, ?_, fun pk hpk => ?_⟩
    · obtain ⟨unsent, hunsent, hparts⟩ := Option.map_eq_some_iff.mp hkeys
      obtain ⟨session, hcell, rfl⟩ := Option.map_eq_some_iff.mp hunsent
      simp only [Prod.mk.injEq] at hparts
      exact ⟨session, hcell, hparts⟩
    · -- the handshake that stored the key has the same id, hence the same key
      obtain ⟨h', hmem', hid, rfl⟩ := hauth.pubkey h.peerId pk hpk
      have hfiled' := (hauth.completed h' hmem').filed
      have hfiled := (hauth.completed h hmem).filed
      exact hinj (World.mem_of_genuine (hauth.completed h' hmem'))
        (World.mem_of_genuine (hauth.completed h hmem)) ((hfiled'.trans hid).trans hfiled.symm)
  · intro id pk hget
    obtain ⟨h, hmem, rfl, hpk⟩ := hauth.pubkey id pk hget
    exact ⟨h, hmem, hinstalled hmem, hpk⟩

end Runs

/-! ## Concrete runs -/

section Concrete

open Transparent

/-- A node that lets everybody in. -/
def openNode : Boot where
  config :=
    { signingKey := .fill 32 1, nodeName := "", isGateway := false, meshIpv4 := ⟨0x0A4D0001⟩
      meshHandshakeKey := none, policy := .allowAll, allowList := .empty, pluginKinds := none
      minPeerIntervalS := 0 }
  ipv4Prefix := ⟨⟨0x0A4D0000⟩, 16⟩
  trustedPeers := .empty
  peerDirectory := HashMap.empty
  externalIp := none
  externalIpV6 := none
  internetLink := false

/-- Nothing times out and every access succeeds. -/
def calm : Input where
  now := 0
  nowMs := 0
  random _ := .fill 32 9
  timedOut := false
  ioOk := true
  locked := false
  answers := []

def somewhere : SocketAddr := ⟨.v4 (Octets.zero 4), 9100⟩

def handshakeBytes (wire : HandshakeWireFrame) : Bytes :=
  LengthDelimitedCodec.encode (plainFrame .handshake wire.encode).encode

/-- The Confirm of an initiator, from the Response that `openNode` makes out of the
random bytes of `calm`. -/
def confirmOf (initiator : Handshaker) : HandshakeWireFrame :=
  let response := (Handshaker.new openNode.config.signingKey none).message (.fill 32 9) (.fill 32 9)
  match initiator.finalizeInitiator response with
  | .ok hs => .confirm ((hs.makeConfirm.toOption).getD (Octets.zero 32))
  | .error _ => .confirm (Octets.zero 32)

/-- Somebody connects, claims an id and runs the handshake as an initiator with the
key of `seed`.  `task` is the number of tasks started before. -/
def inboundHandshake (conn task : Nat) (claimed : NodeId) (seed : Octets 32) :
    List (Choice Input Event) :=
  let (init, initiator) := (Handshaker.new seed none).initiate seed (.fill 32 5)
  let steps (k count : Nat) : List (Choice Input Event) :=
    List.replicate count (.run (task + k) calm)
  [.start (.accept somewhere claimed)] ++ steps 0 1 ++
    [.start (.receive conn (handshakeBytes (wireOf .init init))), .start (.deliver conn),
      .start .frame] ++
    steps 3 7 ++ [.start .responder] ++ steps 4 4 ++
    [.start (.receive conn (handshakeBytes (confirmOf initiator))), .start (.deliver conn),
      .start .frame] ++
    steps 7 4 ++ steps 4 12

/-- The Init that the node sends when it dials. -/
def dialledInit : HandshakeMessage :=
  (openNode.config.handshaker.initiate (.fill 32 9) (.fill 32 9)).1

/-- The node dials, and is answered with a Response. -/
def answeredWith (response : HandshakeMessage) : List (Choice Input Event) :=
  let steps (k count : Nat) : List (Choice Input Event) := List.replicate count (.run k calm)
  [.start (.initiate (.tcp somewhere))] ++ steps 0 8 ++
    [.start (.receive 0 (handshakeBytes (wireOf .response response))), .start (.deliver 0),
      .start .frame] ++
    steps 3 4 ++ steps 0 16

/-- The node dials, and is answered with a Response that the owner of `seed` once
signed. -/
def replayedResponse (seed : Octets 32) : List (Choice Input Event) :=
  answeredWith ((Handshaker.new seed none).message (.fill 32 6) (.fill 32 7))

/-- A message carries an allowed key, and an Init the key of the id it is tagged with. -/
def Tagged (allowed : Octets 32 → Bool) (r : Received) (handshakeType : HandshakeFrameType)
    (m : HandshakeMessage) : Prop :=
  allowed m.senderPub = true ∧ (handshakeType = .init → NodeId.fromPublicKey m.senderPub = r.peer)

instance (allowed : Octets 32 → Bool) (r : Received) (handshakeType : HandshakeFrameType)
    (m : HandshakeMessage) : Decidable (Tagged allowed r handshakeType m) :=
  inferInstanceAs (Decidable (_ ∧ (_ → _)))

theorem presented_of_takesUp {allowed : Octets 32 → Bool} {G : Delivered → Prop} {s : State}
    {e : Event} (h : takesUpOnly (Tagged allowed) s e = true)
    (hG : ∀ d, (∀ handshakeType m, d.wire = wireOf handshakeType m → allowed m.senderPub = true) →
      G d) : e = .frame → ∀ r ∈ s.transport.incoming.head?, Presented G r := by
  intro he r hr
  have htagged := takesUp_of_takesUpOnly s e h he r hr
  constructor
  · intro htype wire rest hdecode
    refine hG _ fun handshakeType m hm => ?_
    rw [show wire = wireOf handshakeType m from hm] at hdecode
    exact (htagged htype handshakeType m rest hdecode).1
  · exact fun htype m rest hdecode => (htagged htype .init m rest hdecode).2 rfl

/-- Parties that each hold one key and sign with no other. -/
def keyholders (operator : ConnId → Octets 32) : World (Octets 32) where
  operator := operator
  holds p pk := p = pk
  signed p pk _ := p = pk

def victorPub : Octets 32 := .fill 32 2

def victorId : NodeId := ⟨.fill 16 2⟩

def malloryPub : Octets 32 := .fill 32 3

/-- Victor connects under their own id and is served. -/
theorem credentials_held_victor :
    ∃ s, Reaches ((keyholders fun _ => victorPub).Honours {victorPub}) openNode s ∧
      (s.sessions.get victorId).isSome ∧ s.peerPubkeys.get victorId = some victorPub ∧
      ∃ h ∈ s.handshakes, (keyholders fun _ => victorPub).InstalledBy {victorPub} victorId h := by
  have hok : ∀ s e, takesUpOnly (Tagged fun pk => pk == victorPub) s e = true →
      (keyholders fun _ => victorPub).Honours {victorPub} s e := by
    intro s e h
    refine presented_of_takesUp h fun d hd handshakeType m hm => ?_
    have hpub : m.senderPub = victorPub := beq_iff_eq.mp (hd handshakeType m hm)
    exact ⟨hpub, fun _ p hp => hp.trans hpub⟩
  obtain ⟨s, hreaches, hcheck⟩ := exists_reaches_of_play hok openNode
    (inboundHandshake 0 0 victorId victorPub)
    (fun s => decide ((s.sessions.get victorId).isSome ∧
      s.peerPubkeys.get victorId = some victorPub)) (by decide +kernel)
  obtain ⟨hsession, hpubkey⟩ := of_decide_eq_true hcheck
  obtain ⟨-, hstored⟩ := credentials_held_of_presented (keyholders fun _ => victorPub) {victorPub}
    (fun pk _ _ _ => ⟨pk, rfl, rfl⟩) (Set.injOn_singleton _ _) openNode s hreaches
  obtain ⟨h, hmem, hinstalled, -⟩ := hstored victorId victorPub hpubkey
  exact ⟨s, hreaches, hsession, hpubkey, h, hmem, hinstalled⟩

/-- Mallory claims the id of Victor, who has a session, and replaces it and the
stored key by their own.  And although every Init matches its connection, a Response
that Victor once signed installs a session of Victor's on a connection of
Mallory's. -/
theorem impersonation :
    NodeId.fromPublicKey victorPub = victorId ∧
    Set.InjOn NodeId.fromPublicKey {victorPub, malloryPub} ∧
    (∃ s, Reaches (fun _ _ => True) openNode s ∧ s.peerPubkeys.get victorId = some malloryPub ∧
      ∃ session ∈ s.session victorId, ∀ h ∈ s.handshakes,
        NodeId.fromPublicKey h.message.senderPub = victorId → session.send.cipher ≠ h.key) ∧
    ∃ s, Reaches (fun s e => e = .frame → ∀ r ∈ s.transport.incoming.head?,
        Presented (fun _ => True) r) openNode s ∧
      (s.sessions.get victorId).isSome ∧
      ∀ h ∈ s.handshakes,
        ¬ (keyholders fun _ => malloryPub).InstalledBy {victorPub} victorId h := by
  refine ⟨by decide +kernel, ?_, ?_, ?_⟩
  · intro a ha b hb hab
    rcases ha with rfl | rfl <;> rcases hb with rfl | rfl
    · rfl
    · exact absurd hab (by decide +kernel)
    · exact absurd hab (by decide +kernel)
    · rfl
  · obtain ⟨s, hreaches, hcheck⟩ := exists_reaches_of_choices openNode
      (inboundHandshake 0 0 victorId victorPub ++ inboundHandshake 1 8 victorId malloryPub)
      (fun s => decide (s.peerPubkeys.get victorId = some malloryPub ∧
        ∃ session ∈ s.session victorId, ∀ h ∈ s.handshakes,
          NodeId.fromPublicKey h.message.senderPub = victorId → session.send.cipher ≠ h.key))
      (by decide +kernel)
    exact ⟨s, hreaches, of_decide_eq_true hcheck⟩
  · have htagged : ∀ s e, takesUpOnly (Tagged fun _ => true) s e = true → e = .frame →
        ∀ r ∈ s.transport.incoming.head?, Presented (fun _ => True) r :=
      fun s e h => presented_of_takesUp h fun _ _ => trivial
    obtain ⟨s, hreaches, hcheck⟩ := exists_reaches_of_play htagged openNode
      (replayedResponse victorPub) (fun s => (s.sessions.get victorId).isSome) (by decide +kernel)
    refine ⟨s, hreaches, hcheck, fun h _ hinstalled => ?_⟩
    -- the operator would have to hold Victor's key
    have hheld : malloryPub = victorPub := hinstalled.held victorPub rfl (by decide +kernel)
    exact absurd hheld (by decide +kernel)

end Concrete

end ProximityMesh.Daemon
