/-
  Daemon/Unauthenticated.lean --- what a frame can change before any handshake.

  Source: `run_event_loop` of crates/pim-daemon/src/app/event_loop.rs,
  `register_peer` of crates/pim-transport/src/tcp.rs,
  `handle_incoming_peer_info` of crates/pim-daemon/src/identity_broadcast.rs.

  Nothing in the event loop asks whether the connection of a frame has completed a
  handshake.  So the question is, for every state, connection and frame, whether
  the frame writes anything: `untouched_iff_inert` answers it by an explicit
  condition on the frame and the state it arrives in.  A handler that does write
  overwrites a value with a new one, and the frame is inert exactly if that value is
  there already.
-/
import ProximityMesh.Daemon.Identity
import ProximityMesh.Routing.Refinement

set_option autoImplicit false

namespace ProximityMesh

open HashMap Option

/-! ## What is compared -/

namespace Routing

open Protocol

/-- A routing table up to the order in which its maps are stored. -/
@[ext] structure RoutingContents where
  selfId : NodeId
  isGateway : Bool
  routes : NodeId → Option RouteTableEntry
  directPeers : NodeId → Option Unit
  sequence : UInt64
  peerMaxSeq : NodeId → Option UInt64
  blacklistedPeers : NodeId → Option Unit
  selfMeshIp : Option Ipv4Addr
  meshIpIndex : Ipv4Addr → Option NodeId
  ipv4Prefix : Ipv4Prefix
  meshIpCollisionsTotal : UInt64

namespace RoutingTable

def contents (t : RoutingTable) : RoutingContents where
  selfId := t.selfId
  isGateway := t.isGateway
  routes := t.routes.get
  directPeers := t.directPeers.get
  sequence := t.sequence
  peerMaxSeq := t.peerMaxSeq.get
  blacklistedPeers := t.blacklistedPeers.get
  selfMeshIp := t.selfMeshIp
  meshIpIndex := t.meshIpIndex.get
  ipv4Prefix := t.ipv4Prefix
  meshIpCollisionsTotal := t.meshIpCollisionsTotal

variable (t : RoutingTable)

/-- Rewriting an entry in place leaves the table as it was if the entry is what it
was. -/
theorem contents_modify_iff (dst : NodeId)
    (f : RouteTableEntry → RouteTableEntry) :
    ({ t with routes := t.routes.modify dst f } : RoutingTable).contents = t.contents ↔
      ∀ e, t.routes.get dst = some e → f e = e := by
  simp [contents, get_modify_eq_get_iff]

theorem contents_updateGatewayLoad_iff (gwId : NodeId) (load : UInt8) :
    (t.updateGatewayLoad gwId load).contents = t.contents ↔
      ∀ e, t.routes.get gwId = some e → e.isGateway = true → e.gatewayLoad = load := by
  refine (t.contents_modify_iff gwId _).trans (forall₂_congr fun e _ => ?_)
  cases he : e.isGateway with
  | true => simp [RouteTableEntry.ext_iff, he, eq_comm]
  | false => simp

theorem contents_updateGatewayRtt_iff (gwId : NodeId) (rttMs : UInt32) :
    (t.updateGatewayRtt gwId rttMs).contents = t.contents ↔
      ∀ e, t.routes.get gwId = some e → e.isGateway = true → e.rttMs = some rttMs := by
  refine (t.contents_modify_iff gwId _).trans (forall₂_congr fun e _ => ?_)
  cases he : e.isGateway with
  | true => simp [RouteTableEntry.ext_iff, he, eq_comm]
  | false => simp

/-- Nothing in the table mentions the peer. -/
structure Unknown (t : RoutingTable) (peerId : NodeId) : Prop where
  directPeers : t.directPeers.get peerId = none
  peerMaxSeq : t.peerMaxSeq.get peerId = none
  routes : ∀ dst e, t.routes.get dst = some e → e.nextHop ≠ peerId

theorem removePeer_of_unknown {t : RoutingTable} {peerId : NodeId} (h : t.Unknown peerId) :
    (t.removePeer peerId).1 = t := by
  have hvia : (t.routes.iter.filter fun e => e.2.nextHop = peerId).map Prod.fst = [] := by
    refine List.eq_nil_iff_forall_not_mem.mpr fun dst hdst => ?_
    obtain ⟨e, he, hhop⟩ := (t.mem_via_iff peerId dst).mp hdst
    exact h.routes dst e he hhop
  simp only [removePeer, removeRoutesVia_fst, remove_of_get_eq_none h.directPeers,
    remove_of_get_eq_none h.peerMaxSeq, hvia]
  rfl

theorem unknown_removePeer (peerId : NodeId) :
    (t.removePeer peerId).1.Unknown peerId := by
  simp only [removePeer, removeRoutesVia_fst]
  refine ⟨?_, ?_, fun dst e he hhop => ?_⟩
  · rw [(onlyRoutes_removeRoutes _ _).directPeers]
    exact get_remove_self _ _
  · rw [(onlyRoutes_removeRoutes _ _).peerMaxSeq]
    exact get_remove_self _ _
  · rw [get_removeRoutes] at he
    split at he
    · cases he
    · rename_i hnot
      exact hnot ((mem_via_iff _ peerId dst).mpr ⟨e, he, hhop⟩)

/-- What is unknown can be read off the contents. -/
theorem Unknown.of_contents_eq {t t' : RoutingTable} {peerId : NodeId} (h : t.Unknown peerId)
    (heq : t.contents = t'.contents) : t'.Unknown peerId where
  directPeers :=
    (congrFun (congrArg RoutingContents.directPeers heq) peerId).symm.trans h.directPeers
  peerMaxSeq := (congrFun (congrArg RoutingContents.peerMaxSeq heq) peerId).symm.trans h.peerMaxSeq
  routes dst e he :=
    h.routes dst e ((congrFun (congrArg RoutingContents.routes heq) dst).trans he)

/-- The table after advertising to all direct peers; an overflow leaves it as it
was. -/
def advertised (t : RoutingTable) : RoutingTable :=
  (t.generateAllAdvertisements.map Prod.fst).getD t

theorem advertised_eq :
    t.advertised = { t with sequence := t.advertised.sequence } := by
  unfold advertised
  cases hgen : t.generateAllAdvertisements with
  | none => rfl
  | some generated => exact (generateFor_counts hgen).1

/-- Advertising leaves the table as it was if nothing is sent. -/
theorem sequence_advertised_iff :
    t.advertised.sequence = t.sequence ↔
      t.directPeers.keys = [] ∨ 2 ^ 64 ≤ t.sequence.toNat + t.directPeers.keys.length := by
  unfold advertised
  cases hgen : t.generateAllAdvertisements with
  | none =>
    refine iff_of_true rfl (.inr (Nat.not_lt.mp fun hroom => ?_))
    obtain ⟨t', frames, hsome, -⟩ := generateFor_exists hroom
    rw [generateAllAdvertisements, hsome] at hgen
    cases hgen
  | some generated =>
    obtain ⟨t', frames⟩ := generated
    obtain ⟨-, hcount⟩ := generateFor_counts hgen
    have hbound := t'.sequence.toNat_lt
    show t'.sequence = t.sequence ↔ _
    rw [← UInt64.toNat_inj, ← List.length_eq_zero_iff]
    omega

/-- Removing a peer and advertising that leaves the table as it was if the peer was
unknown and nothing is sent. -/
theorem contents_advertised_removePeer_iff (peerId : NodeId) :
    (t.removePeer peerId).1.advertised.contents = t.contents ↔
      t.Unknown peerId ∧
        (t.directPeers.keys = [] ∨ 2 ^ 64 ≤ t.sequence.toNat + t.directPeers.keys.length) := by
  constructor
  · intro h
    have hunknown : t.Unknown peerId := by
      refine Unknown.of_contents_eq ?_ h
      rw [advertised_eq]
      obtain ⟨hdirect, hmaxSeq, hroutes⟩ := t.unknown_removePeer peerId
      exact ⟨hdirect, hmaxSeq, hroutes⟩
    rw [removePeer_of_unknown hunknown] at h
    exact ⟨hunknown, t.sequence_advertised_iff.mp (congrArg RoutingContents.sequence h)⟩
  · rintro ⟨hunknown, hsilent⟩
    rw [removePeer_of_unknown hunknown, advertised_eq, t.sequence_advertised_iff.mpr hsilent]

/-- An update changes the table exactly if it is of its sender and newer than the
last one: then the highest sequence number moves. -/
theorem contents_applyUpdate_iff [Blake3] (t : RoutingTable) (now : Nat) (update : RouteUpdateFrame)
    (fromPeer : NodeId) :
    (t.applyUpdate now update fromPeer).1.contents = t.contents ↔
      ¬ (update.originId = fromPeer ∧
        ((t.peerMaxSeq.get fromPeer).getD 0).toNat < update.sequence.toNat) := by
  unfold applyUpdate
  by_cases horigin : update.originId = fromPeer
  · by_cases hold : update.sequence ≤ (t.peerMaxSeq.get fromPeer).getD 0
    · have hle := UInt64.le_iff_toNat_le.mp hold
      simp only [horigin, ne_eq, not_true, if_false, hold, if_true, true_and]
      exact iff_of_true trivial (Nat.not_lt.mpr hle)
    · have hlt := Nat.not_le.mp (mt UInt64.le_iff_toNat_le.mpr hold)
      simp only [horigin, ne_eq, not_true, if_false, hold, hlt, and_self, iff_false]
      intro heq
      have hseq := congrFun (congrArg RoutingContents.peerMaxSeq heq) fromPeer
      have hnew : t.peerMaxSeq.get fromPeer = some update.sequence := by
        rw [← show _ = t.peerMaxSeq.get fromPeer from hseq]
        split
        · exact get_insert_self _ _ _
        · exact (congrFun (congrArg get (onlyRoutes_applyEntries _ update).peerMaxSeq)
            fromPeer).trans (get_insert_self _ _ _)
      rw [hnew] at hlt
      exact Nat.lt_irrefl _ hlt
  · simp [horigin]

end RoutingTable

end Routing

namespace Daemon

open Protocol Transport Crypto Routing ProximityMesh.Task

/-- What a frame without a handshake must not change.  A session is compared with
its ciphers, up to the counter of the frames this node has sent itself; the
connection that carries the frames of a peer counts once the peer has a session. -/
@[ext] structure Holdings where
  sessions : NodeId → Option (Nat × Option Session)
  peerPubkeys : NodeId → Option (Octets 32)
  routing : RoutingContents
  peerDirectory : NodeId → Option PeerRow
  gwX25519ById : NodeId → Option (Octets 32)
  peerLastHb : NodeId → Option Nat
  carriers : NodeId → Option ConnId

def Standing.holdings (st : Standing) : Holdings where
  sessions id := (st.sessions.get id).map fun cell => (cell, st.cells cell)
  peerPubkeys := st.peerPubkeys.get
  routing := st.routing.contents
  peerDirectory := HashMap.get st.peerDirectory
  gwX25519ById := st.gwX25519ById.get
  peerLastHb := st.peerLastHb.get
  carriers id := (st.sessions.get id).bind fun _ => (st.peers.get id).map PeerWriter.conn

def Untouched (s s' : State) : Prop := s'.standing.holdings = s.standing.holdings

theorem untouched_of_leaves {α : Type} {p : DaemonM α} (h : p.Leaves State.standing) (i : Input)
    (s : State) : Untouched s (p.after i s) :=
  congrArg Standing.holdings (h.after_eq i s)

/-! ## Inert frames -/

/-- A heartbeat that only repeats what is recorded. -/
def HeartbeatInert (i : Input) (s : State) (fromPeer : NodeId) (hb : HeartbeatFrame) : Prop :=
  s.peerLastHb.get fromPeer = some i.now ∧
    (hb.gatewayHops = 0 →
      (hb.gwX25519Pub ≠ Octets.zero 32 → s.gwX25519ById.get fromPeer = some hb.gwX25519Pub) ∧
      ∀ e, s.routing.routes.get fromPeer = some e → e.isGateway = true → e.gatewayLoad = hb.load)

/-- A Goodbye of an id of which nothing is known, at a node that then advertises
nothing: it has no direct peer, or its sequence number overflows. -/
def GoodbyeInert (s : State) (departingId : NodeId) : Prop :=
  s.sessions.get departingId = none ∧ s.peerPubkeys.get departingId = none ∧
    s.peerLastHb.get departingId = none ∧ s.routing.Unknown departingId ∧
    (s.routing.directPeers.keys = [] ∨
      2 ^ 64 ≤ s.routing.sequence.toNat + s.routing.directPeers.keys.length)

/-- A Pong to no ping of ours, or one that measures what is recorded. -/
def PongInert (i : Input) (s : State) (nonce : UInt64) : Prop :=
  ∀ gwId sentAt, s.pendingPings.get nonce = some (gwId, sentAt) →
    ∀ e, s.routing.routes.get gwId = some e → e.isGateway = true →
      e.rttMs = some (UInt32.ofNat ((i.now - sentAt) / 1000000))

/-- A `PeerInfo` whose row is there, unless the database fails. -/
def PeerInfoInert (i : Input) (s : State) (fromPeer : NodeId) (x25519Pub : Octets 32)
    (friendlyName : String) : Prop :=
  i.ioOk = true → ∃ row, HashMap.get s.peerDirectory fromPeer = some row ∧
    row.x25519Pub = x25519Pub ∧ row.lastKnownName = friendlyName ∧ row.lastSeenMs = i.nowMs

def ControlInert (i : Input) (s : State) (fromPeer : NodeId) : ControlFrame → Prop
  | .goodbye departingId _ => GoodbyeInert s departingId
  | .pong nonce => PongInert i s nonce
  | .peerInfo x25519Pub friendlyName => PeerInfoInert i s fromPeer x25519Pub friendlyName
  | .rekey | .ping _ | .pluginPayload _ _ => True

/-- The update verifies under the stored key of the peer and is newer than its
last one. -/
def RouteUpdateAccepted [Ed25519] (s : State) (fromPeer : NodeId) (update : RouteUpdateFrame) :
    Prop :=
  (∃ pk, s.peerPubkeys.get fromPeer = some pk ∧ Ed25519.isVerifyingKey pk = true ∧
      verifyRouteUpdate update pk = true) ∧
    update.originId = fromPeer ∧
    ((s.routing.peerMaxSeq.get fromPeer).getD 0).toNat < update.sequence.toNat

/-- The session of the peer opens the frame. -/
def DataAccepted [Aes256Gcm] (s : State) (fromPeer : NodeId) (frame : TransportFrame) : Prop :=
  ∃ cell session, s.sessions.get fromPeer = some cell ∧ s.cells.get cell = some session ∧
    session.Accepts frame

/-- What a frame must be not to touch anything: over the rate limit, undecodable, or
inert by its type. -/
def Inert [Ed25519] [Aes256Gcm] (i : Input) (s : State) (r : Received) : Prop :=
  (s.rateLimiter.allow i.now r.peer).1 = true →
    match r.frame.frameType with
    | .data => ¬ DataAccepted s r.peer r.frame
    | .routeUpdate => ∀ update rest, RouteUpdateFrame.decode r.frame.payload = .ok update rest →
        ¬ RouteUpdateAccepted s r.peer update
    | .heartbeat => ∀ hb rest, HeartbeatFrame.decode r.frame.payload = .ok hb rest →
        HeartbeatInert i s r.peer hb
    | .control => ∀ cf rest, ControlFrame.decode r.frame.payload = .ok cf rest →
        ControlInert i s r.peer cf
    | .handshake | .fragment => True

/-! ## One handler at a time -/

section Handlers

variable {i : Input} {s : State}

theorem Untouched.refl (s : State) : Untouched s s := rfl

theorem untouched_withDecoded_iff {α : Type} {decode : BufM PimError α} {payload : Bytes}
    {k : α → DaemonM Unit} {P : α → Prop} (h : ∀ a, Untouched s ((k a).after i s) ↔ P a) :
    Untouched s ((withDecoded decode payload k).after i s) ↔
      ∀ a rest, decode payload = .ok a rest → P a := by
  unfold withDecoded
  cases hdecode : decode payload with
  | ok a rest => simp [h]
  | error e rest =>
    cases e with
    | error e | panic => exact iff_of_true (Untouched.refl s) fun _ _ hok => nomatch hok

/-- What the handlers of heartbeats, route updates and pongs write. -/
theorem untouched_learned_iff (routing : RoutingTable) (keys : HashMap NodeId (Octets 32))
    (lastHb : HashMap NodeId Nat) :
    Untouched s { s with routing, gwX25519ById := keys, peerLastHb := lastHb } ↔
      routing.contents = s.routing.contents ∧ keys.get = s.gwX25519ById.get ∧
        lastHb.get = s.peerLastHb.get := by
  simp [Untouched, Standing.holdings, State.standing]

theorem untouched_handleHeartbeat_iff (fromPeer : NodeId) (payload : Bytes) :
    Untouched s ((handleHeartbeat fromPeer payload).after i s) ↔
      ∀ hb rest, HeartbeatFrame.decode payload = .ok hb rest → HeartbeatInert i s fromPeer hb := by
  refine untouched_withDecoded_iff fun hb => ?_
  unfold HeartbeatInert after
  by_cases hhops : hb.gatewayHops = 0
  · by_cases hkey : hb.gwX25519Pub = Octets.zero 32
    · simp only [hhops, hkey]
      refine (untouched_learned_iff _ _ _).trans ?_
      rw [RoutingTable.contents_updateGatewayLoad_iff, get_insert_eq_get_iff]
      tauto
    · simp only [hhops, hkey, ne_eq]
      refine (untouched_learned_iff _ _ _).trans ?_
      rw [RoutingTable.contents_updateGatewayLoad_iff, get_insert_eq_get_iff, get_insert_eq_get_iff]
      tauto
  · simp only [hhops]
    refine (untouched_learned_iff _ _ _).trans ?_
    rw [get_insert_eq_get_iff]
    tauto

theorem untouched_handlePong_iff (nonce : UInt64) :
    Untouched s ((handlePong nonce).after i s) ↔ PongInert i s nonce := by
  unfold handlePong PongInert after
  cases hpending : s.pendingPings.get nonce with
  | none =>
    simp only [exec_bind, exec_atomically, hpending]
    refine iff_of_true rfl fun gwId sentAt hsome => ?_
    cases hsome
  | some ping =>
    obtain ⟨gwId, sentAt⟩ := ping
    simp only [exec_bind, exec_atomically, hpending, exec_input, exec_modify]
    refine (untouched_learned_iff _ _ _).trans ?_
    rw [RoutingTable.contents_updateGatewayRtt_iff]
    simp

theorem untouched_peerInfo_iff (fromPeer : NodeId) (x25519Pub : Octets 32) (friendlyName : String) :
    Untouched s ((handleIncomingPeerInfo fromPeer x25519Pub friendlyName .direct).after i s) ↔
      PeerInfoInert i s fromPeer x25519Pub friendlyName := by
  unfold handleIncomingPeerInfo PeerInfoInert after
  cases hio : i.ioOk with
  | false =>
    simp only [passesBroadcastGate, exec_bind, exec_pure, if_true, exec_atomically, hio]
    exact iff_of_true rfl fun hsome => absurd hsome Bool.false_ne_true
  | true =>
    simp only [passesBroadcastGate, exec_bind, exec_pure, if_true, exec_atomically, hio, Untouched,
      Holdings.ext_iff, Standing.holdings, State.standing, PeerDirectory.upsertPeerSeen,
      get_insert_eq_get_iff]
    -- the row keeps its first contact, so it is the old one if the rest agrees
    cases hrow : get s.peerDirectory fromPeer with
    | none => simp
    | some row =>
      obtain ⟨oldKey, oldName, firstSeenMs, lastSeenMs⟩ := row
      simp

theorem untouched_handleRouteUpdate_iff [Ed25519] [Blake3] (fromPeer : NodeId) (payload : Bytes) :
    Untouched s ((handleRouteUpdate fromPeer payload).after i s) ↔
      ∀ update rest, RouteUpdateFrame.decode payload = .ok update rest →
        ¬ RouteUpdateAccepted s fromPeer update := by
  refine untouched_withDecoded_iff fun update => ?_
  unfold RouteUpdateAccepted after
  cases hpk : s.peerPubkeys.get fromPeer with
  | none =>
    simp only [exec_bind, exec_read, hpk]
    refine iff_of_true rfl fun h => ?_
    obtain ⟨⟨pk, hsome, -⟩, -⟩ := h
    cases hsome
  | some pk =>
    simp only [exec_bind, exec_read, hpk, some.injEq, exists_eq_left']
    by_cases hsigned : Ed25519.isVerifyingKey pk = true ∧ verifyRouteUpdate update pk = true
    · rw [if_pos (by simpa using hsigned)]
      refine (untouched_learned_iff _ _ _).trans ?_
      rw [RoutingTable.contents_applyUpdate_iff]
      tauto
    · rw [if_neg (by simpa using hsigned)]
      exact iff_of_true rfl fun h => hsigned h.1

/-! ### Goodbye -/

/-- The state after a peer is forgotten, before the others are told. -/
def State.forget (s : State) (peerId : NodeId) : State :=
  { s with
    sessions := s.sessions.remove peerId
    peerPubkeys := s.peerPubkeys.remove peerId
    rateLimiter := s.rateLimiter.removePeer peerId
    routing := (s.routing.removePeer peerId).1
    peerLastHb := s.peerLastHb.remove peerId
    transport := s.transport.disconnect peerId }

/-- Advertising changes the sequence number of the routing table at most. -/
theorem standing_after_advertiseAll [Ed25519] (i : Input) (s : State) :
    (advertiseAll.after i s).standing = { s.standing with routing := s.routing.advertised } := by
  unfold advertiseAll after RoutingTable.advertised
  cases hgen : s.routing.generateAllAdvertisements with
  | none => simp only [exec_bind, exec_atomically, hgen, exec_panicked]; rfl
  | some generated =>
    obtain ⟨routing, adverts⟩ := generated
    simp only [exec_bind, exec_atomically, hgen]
    have hsends : (Task.each (fun advert => do
        let signingKey ← .read fun s => s.config.signingKey
        sendFrameBuffered advert.1
          (plainFrame .routeUpdate (signRouteUpdate signingKey advert.2).encode))
        adverts).Leaves State.standing :=
      leaves_each fun advert => leaves_bind leaves_read fun _ => leaves_sendFrameBuffered _ _
    exact hsends.after_eq i { s with routing }

theorem untouched_removePeer_iff [Ed25519] (departingId : NodeId) :
    Untouched s ((removePeer departingId).after i s) ↔ GoodbyeInert s departingId := by
  have hafter :
    (removePeer departingId).after i s = advertiseAll.after i (s.forget departingId) := rfl
  rw [hafter, Untouched, standing_after_advertiseAll, Holdings.ext_iff]
  constructor
  · rintro ⟨hsessions, hpubkeys, hrouting, -, -, hliveness, -⟩
    obtain ⟨hunknown, hsilent⟩ :=
      (s.routing.contents_advertised_removePeer_iff departingId).mp hrouting
    have hsession := congrFun hsessions departingId
    simp only [Standing.holdings, State.standing, State.forget, get_remove_self] at hsession
    exact ⟨map_eq_none_iff.mp hsession.symm, (get_remove_eq_get_iff _ _).mp hpubkeys,
      (get_remove_eq_get_iff _ _).mp hliveness, hunknown, hsilent⟩
  · rintro ⟨hsession, hpubkey, hliveness, hunknown, hsilent⟩
    have hsessions : (s.sessions.remove departingId) = s.sessions :=
      remove_of_get_eq_none hsession
    refine ⟨?_, (get_remove_eq_get_iff _ _).mpr hpubkey,
      (s.routing.contents_advertised_removePeer_iff departingId).mpr ⟨hunknown, hsilent⟩, rfl, rfl,
      (get_remove_eq_get_iff _ _).mpr hliveness, ?_⟩
    · simp [Standing.holdings, State.standing, State.forget, hsessions]
    · -- the peer has no session, so its transport entry does not count
      funext id
      simp only [Standing.holdings, State.standing, State.forget, TcpTransport.disconnect,
        get_remove]
      split
      · rename_i hid
        rw [hid, hsession]
        rfl
      · rfl

theorem untouched_handleControl_iff [Sha256] [Ed25519] [Aes256Gcm] (fromPeer : NodeId)
    (payload : Bytes) :
    Untouched s ((handleControl fromPeer payload).after i s) ↔
      ∀ cf rest, ControlFrame.decode payload = .ok cf rest → ControlInert i s fromPeer cf := by
  refine untouched_withDecoded_iff fun cf => ?_
  cases cf with
  | goodbye departingId reason => exact untouched_removePeer_iff departingId
  | rekey => exact iff_of_true (Untouched.refl s) trivial
  | ping nonce => exact iff_of_true (untouched_of_leaves (leaves_sendControl _ _) i s) trivial
  | pong nonce => exact untouched_handlePong_iff nonce
  | peerInfo x25519Pub friendlyName => exact untouched_peerInfo_iff fromPeer x25519Pub friendlyName
  | pluginPayload kind body =>
    exact iff_of_true (untouched_of_leaves (leaves_dispatchPluginPayload _) i s) trivial

/-! ### Data -/

section Data

variable [Sha256] [Ed25519] [X25519] [HkdfSha256] [Aes256Gcm]

/-- The session of the peer opens a frame: its replay counter moves, and nothing the
payload causes moves it back. -/
theorem not_untouched_of_dataAccepted {fromPeer : NodeId} {frame : TransportFrame}
    (h : DataAccepted s fromPeer frame) :
    ¬ Untouched s ((handleData fromPeer frame).after i s) := by
  obtain ⟨cell, session, hsession, hcell, haccepts⟩ := h
  obtain ⟨payload, hdecrypt⟩ := Session.decryptFrame_of_accepts haccepts
  unfold handleData sessionRef decryptWith after
  simp only [exec_bind, exec_read, hsession, exec_atomically, hcell, hdecrypt]
  intro huntouched
  set opened : Session := { session with recv :=
    { session.recv with lastRecvCounter := SessionCipher.nonceCounter frame.nonce } } with hopened
  have hleaves : (withDecoded MeshDataFrame.decode payload handleMesh).Leaves
      fun s => s.standing.sansDirectory := leaves_withDecoded leaves_handleMesh
  have hkept := hleaves.after_eq i { s with cells := s.cells.insert cell opened }
  have hsessions := (congrArg (fun st =>
    (st.sessions.get fromPeer).map fun cell => (cell, st.cells cell)) hkept).symm.trans
      (congrFun (congrArg Holdings.sessions huntouched) fromPeer)
  simp only [Standing.sansDirectory, State.standing, Standing.holdings, hsession, map_some,
    get_insert_self, hcell, some.injEq, Prod.mk.injEq, true_and] at hsessions
  refine SessionCipher.nonceCounter_ne_lastRecvCounter haccepts ?_
  exact congrArg (fun session => session.recv.lastRecvCounter) hsessions

theorem untouched_handleData_iff (fromPeer : NodeId) (frame : TransportFrame) :
    Untouched s ((handleData fromPeer frame).after i s) ↔ ¬ DataAccepted s fromPeer frame := by
  refine ⟨fun h haccepted => not_untouched_of_dataAccepted haccepted h, fun hrejected => ?_⟩
  unfold handleData sessionRef decryptWith after
  cases hsession : s.sessions.get fromPeer with
  | none =>
    simp only [exec_bind, exec_read, hsession]
    exact Untouched.refl s
  | some cell =>
    cases hcell : s.cells.get cell with
    | none =>
      simp only [exec_bind, exec_read, hsession, exec_atomically, hcell]
      exact Untouched.refl s
    | some session =>
      obtain ⟨e, hdecrypt⟩ := Session.decryptFrame_of_not_accepts
        (fun haccepts => hrejected ⟨cell, session, hsession, hcell, haccepts⟩)
      simp only [exec_bind, exec_read, hsession, exec_atomically, hcell, hdecrypt]
      -- the session is written back as it was
      have hcells := (get_insert_eq_get_iff s.cells cell session).mpr hcell
      simp [Untouched, State.standing, hcells]

variable [Blake3]

theorem untouched_handleFrame_iff {r : Received} (htype : r.frame.frameType ≠ .handshake) :
    Untouched s ((handleFrame r).after i s) ↔ Inert i s r := by
  unfold handleFrame rateLimit Inert after
  rw [exec_bind]
  simp only [exec_atomically]
  cases hallow : (s.rateLimiter.allow i.now r.peer).1 with
  | false => exact iff_of_true rfl fun h => nomatch h
  | true =>
    simp only [forall_const]
    cases hframe : r.frame.frameType with
    | handshake => exact absurd hframe htype
    | data => exact untouched_handleData_iff r.peer r.frame
    | routeUpdate => exact untouched_handleRouteUpdate_iff r.peer r.frame.payload
    | heartbeat => exact untouched_handleHeartbeat_iff r.peer r.frame.payload
    | control => exact untouched_handleControl_iff r.peer r.frame.payload
    | fragment => exact iff_of_true rfl trivial

end Data

/-! ## Acceptance -/

/-- Accepting a connection hands it the frames of whoever it claims to be. -/
theorem untouched_storeWriter_iff (remoteAddr : SocketAddr) (id : NodeId) :
    Untouched s { s with transport :=
        (s.transport.openConn id).storeWriter s.transport.nextConn id remoteAddr } ↔
      ((s.sessions.get id).isSome = true → s.carrier id = some s.transport.nextConn) := by
  simp only [Untouched, Holdings.ext_iff, Standing.holdings, State.standing, true_and,
    TcpTransport.storeWriter]
  constructor
  · intro h hsession
    obtain ⟨cell, hcell⟩ := isSome_iff_exists.mp hsession
    have hid := congrFun h id
    simp only [hcell, get_insert_self] at hid
    exact hid.symm
  · intro h
    funext id'
    rw [get_insert]
    split
    · rename_i hid
      rw [hid]
      cases hcell : s.sessions.get id with
      | none => rfl
      | some cell => exact (h (by rw [hcell]; rfl)).symm
    · rfl

end Handlers

/-! ## Every state, every connection -/

/-- In every state, for every connection and every frame on it other than a
handshake frame, whether or not a handshake has completed there: accepting the
connection changes nothing exactly if nobody with a session is claimed, and handling
the frame changes nothing exactly if the frame is inert.  (A new connection has a
number of its own, so it carries the frames of no peer before.) -/
theorem untouched_iff_inert [Sha256] [Ed25519] [X25519] [HkdfSha256] [HmacSha256] [Blake3]
    [Aes256Gcm] (i : Input) (s : State) :
    (∀ remoteAddr id s' p, start (.accept remoteAddr id) s = some (s', p) →
      (Untouched s (p.after i s') ↔
        ((s.sessions.get id).isSome = true → s.carrier id = some s.transport.nextConn))) ∧
    ∀ r : Received, r.frame.frameType ≠ .handshake →
      (Untouched s ((handleFrame r).after i s) ↔ Inert i s r) := by
  refine ⟨fun remoteAddr id s' p hstart => ?_, fun r htype => untouched_handleFrame_iff htype⟩
  cases hstart
  exact untouched_storeWriter_iff remoteAddr id

section Concrete

open Transparent

def malloryId : NodeId := ⟨.fill 16 3⟩

/-- A frame on a connection of Mallory's, tagged with the id it was accepted under. -/
def fromMallory (tag : NodeId) (frameType : FrameType) (payload : Bytes) : Received :=
  ⟨1, tag, plainFrame frameType payload⟩

/-- Mallory is a gateway, Mallory says. -/
def mallorysRoutes : RouteUpdateFrame :=
  ⟨malloryId, 1, [⟨malloryId, 0, 1, .zero 4⟩], .zero 64⟩

/-- At a node with a session, a connection under an id nobody has a session for, and a
route update on it, change nothing. -/
theorem untouched_iff_inert_besideVictor :
    ∃ s, Reaches (fun _ _ => True) openNode s ∧ (s.sessions.get victorId).isSome ∧
      Untouched s { s with transport :=
        (s.transport.openConn malloryId).storeWriter s.transport.nextConn malloryId somewhere } ∧
      Untouched s ((handleFrame (fromMallory malloryId .routeUpdate
        mallorysRoutes.encode)).after calm s) := by
  obtain ⟨s, hreaches, hcheck⟩ := exists_reaches_of_choices openNode
    (inboundHandshake 0 0 victorId victorPub)
    (fun s => decide ((s.sessions.get victorId).isSome ∧ s.sessions.get malloryId = none ∧
      s.peerPubkeys.get malloryId = none)) (by decide +kernel)
  obtain ⟨hvictor, hsession, hpub⟩ := of_decide_eq_true hcheck
  obtain ⟨haccept, hframe⟩ := untouched_iff_inert calm s
  refine ⟨s, hreaches, hvictor, (haccept somewhere malloryId _ _ rfl).mpr fun h => ?_,
    (hframe (fromMallory malloryId .routeUpdate mallorysRoutes.encode) (fun h => nomatch h)).mpr ?_⟩
  · rw [hsession] at h
    cases h
  · rintro - update rest - ⟨⟨pk, hpk, -⟩, -⟩
    cases hpub.symm.trans hpk

/-- Victor has a session and no handshake has completed on the second connection.
Accepting that connection under Victor's id hands it the frames sent to Victor; a
heartbeat on it replaces the key that packets to the gateway Victor are encrypted to;
and, under any id, a Goodbye on it drops Victor's session. -/
theorem unauthenticated_frames_act :
    ∃ s, Reaches (fun _ _ => True) openNode s ∧ (s.sessions.get victorId).isSome ∧
      (∀ h ∈ s.handshakes, h.conn = 0) ∧ s.transport.nextConn = 1 ∧
      ¬ Untouched s { s with transport :=
        (s.transport.openConn victorId).storeWriter s.transport.nextConn victorId somewhere } ∧
      ¬ Untouched s ((handleFrame (fromMallory victorId .heartbeat
        (HeartbeatFrame.encode ⟨malloryId, 0, 0, 0, malloryPub⟩))).after calm s) ∧
      ¬ Untouched s ((handleFrame (fromMallory malloryId .control
        (ControlFrame.goodbye victorId 0).encode)).after calm s) := by
  obtain ⟨s, hreaches, hcheck⟩ := exists_reaches_of_choices openNode
    (inboundHandshake 0 0 victorId victorPub)
    (fun s => decide ((s.sessions.get victorId).isSome ∧ (∀ h ∈ s.handshakes, h.conn = 0) ∧
      s.transport.nextConn = 1 ∧ s.carrier victorId = some 0 ∧
      s.gwX25519ById.get victorId = none ∧
      ((handleFrame (fromMallory victorId .heartbeat (HeartbeatFrame.encode
        ⟨malloryId, 0, 0, 0, malloryPub⟩))).after calm s).gwX25519ById.get victorId =
          some malloryPub ∧
      ((handleFrame (fromMallory malloryId .control
        (ControlFrame.goodbye victorId 0).encode)).after calm s).sessions.get victorId = none))
    (by decide +kernel)
  obtain ⟨hsession, hconn, hnext, hcarrier, hnokey, hkey, hgone⟩ := of_decide_eq_true hcheck
  refine ⟨s, hreaches, hsession, hconn, hnext, fun h => ?_, fun h => ?_, fun h => ?_⟩
  · have hcarrier' := (untouched_storeWriter_iff somewhere victorId).mp h hsession
    rw [hcarrier, hnext] at hcarrier'
    cases hcarrier'
  · have hsame := congrFun (congrArg Holdings.gwX25519ById h) victorId
    cases (hkey.symm.trans hsame).trans hnokey
  · have hsame := congrFun (congrArg Holdings.sessions h) victorId
    simp only [Standing.holdings, State.standing, hgone] at hsame
    rw [map_eq_none_iff.mp hsame.symm] at hsession
    cases hsession

end Concrete

end Daemon

end ProximityMesh
