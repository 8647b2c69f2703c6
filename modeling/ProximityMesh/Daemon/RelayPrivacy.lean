/-
  Daemon/RelayPrivacy.lean --- what a relay reads of the packets of a client.

  Source: crates/pim-daemon/src/app/event_loop.rs, `run_heartbeats` of
  crates/pim-daemon/src/data_plane.rs.

  A packet for the internet is encrypted to the gateway if the client has the key of
  the gateway.  Keys come in heartbeats, a node files the key of a heartbeat under
  the id of the connection, and only a gateway sends one.  So a client whose gateway
  is not a neighbour never has the key, and hands its packets to the relay in clear.

  `relayView` opens with the key of the session what the client has queued for the
  relay.
-/
import ProximityMesh.Daemon.Identity
import ProximityMesh.Daemon.Network
import ProximityMesh.Daemon.Outlet

set_option autoImplicit false

namespace ProximityMesh.Daemon

open Protocol Transport Crypto Routing ProximityMesh.Task

/-! ## The frames of a payload -/

/-- The bytes of the packet in a frame. -/
def chunkOf (mesh : MeshDataFrame) : Bytes :=
  if mesh.flags.contains .isFragment then mesh.payload.drop FragmentFrame.fragmentHeaderSize
  else mesh.payload

/-- The frames of a payload carry all of it. -/
theorem flatMap_chunkOf_meshFrames (srcId dstId : NodeId) (ttl : UInt8) (payload : Bytes)
    (fragId : UInt32) :
    (meshFrames srcId dstId ttl .isInternet payload fragId).flatMap chunkOf = payload := by
  unfold meshFrames
  split
  · rw [List.flatMap_map]
    have hchunk (frag : FragmentFrame) :
        chunkOf ⟨srcId, dstId, 0, ttl, DataFlags.isInternet.union .isFragment, frag.serialize⟩ =
          frag.payload := by
      have hset : (DataFlags.isInternet.union .isFragment).contains .isFragment = true := by decide
      rw [chunkOf, if_pos hset]
      exact frag.drop_serialize
    simp only [hchunk]
    exact flatten_fragmentPacket payload fragId
  · have hclear : DataFlags.isInternet.contains .isFragment ≠ true := by decide
    rw [List.flatMap_singleton, chunkOf, if_neg hclear]

/-! ## A packet of the client -/

/-- The packet is neither for this node nor for an address of the mesh, so it goes to a
gateway. -/
def InternetBound (s : State) (packet : Bytes) : Prop :=
  (packetIpVersion packet = some 4 ∧ 20 ≤ packet.length ∧
    destinationField packet ≠ s.config.meshIpv4 ∧
    s.routing.lookupMeshIp (destinationField packet) = none) ∨
  packetIpVersion packet = some 6

instance (s : State) (packet : Bytes) : Decidable (InternetBound s packet) :=
  inferInstanceAs (Decidable (_ ∨ _))

theorem exec_routePacket (i : Input) {s : State} {g relay : NodeId}
    (hroute : s.routing.nearestGatewayRoute = some (g, relay)) {packet : Bytes}
    (hbound : InternetBound s packet) :
    exec i (routePacket packet) s = (s, some (some ⟨g, relay, .isInternet⟩)) := by
  have hinternet : exec i routeInternet s = (s, some (some ⟨g, relay, .isInternet⟩)) := by
    rw [routeInternet, exec_bind]
    simp [hroute]
  unfold routePacket
  rcases hbound with ⟨hversion, hlength, hother, hlookup⟩ | hversion
  · have hmesh : (destinationField packet == s.config.meshIpv4) = false :=
      beq_eq_false_iff_ne.mpr hother
    simp only [hversion, if_neg (Nat.not_lt.mpr hlength), exec_bind, exec_read, hmesh, hlookup,
      Bool.false_eq_true, if_false]
    exact hinternet
  · simp only [hversion]
    exact hinternet

section Client

variable [X25519] [HkdfSha256] [Aes256Gcm] [Sha256] [Ed25519]

/-- The frames in which a client sends a packet in clear. -/
def clearFrames (s : State) (g : NodeId) (packet : Bytes) : List MeshDataFrame :=
  meshFrames s.config.selfId g 8 .isInternet packet s.fragId

/-- The state after the event loop has handled a packet of the TUN device. -/
def State.afterTun (i : Input) (s : State) (packet : Bytes) : State :=
  (iteration (handleTun packet)).after i { s with loopBusy := true }

omit [X25519] [HkdfSha256] [Aes256Gcm] in
/-- A packet that is not split needs no id. -/
theorem clearFrames_eq (s : State) (g : NodeId) (packet : Bytes) :
    clearFrames s g packet =
      meshFrames s.config.selfId g 8 .isInternet packet (s.fragmentIdFor packet) := by
  rw [clearFrames, State.fragmentIdFor, meshFrames, meshFrames]
  split
  · rfl
  · rfl

variable {s : State} {g relay : NodeId} {packet : Bytes}
variable (i : Input) (hroute : s.routing.nearestGatewayRoute = some (g, relay))
  (hkey : s.gwX25519ById.get g = none) (hbound : InternetBound s packet)

include hroute hkey hbound

/-- Without the key of the gateway, the frames of the packet are pushed in clear. -/
theorem exec_handleTun {o : Outlet} (ho : s.outlet relay = some o) :
    ∃ s', exec i (handleTun packet) s = (s', some ()) ∧
      ((clearFrames s g packet).foldl Outlet.push o).At s' := by
  obtain ⟨hcell, hat⟩ := Outlet.at_of_outlet ho
  obtain ⟨s', hsent, hat', -⟩ :=
    Outlet.exec_sendMeshData i hat s.config.selfId g 8 .isInternet packet
  rw [← clearFrames_eq] at hat'
  have hpayload : meshPayload i none .isInternet packet = (.isInternet, packet) := by
    unfold meshPayload
    split <;> rfl
  refine ⟨(countForwarded packet.length).after i s', ?_, hat'.session, hat'.carrier,
    hat'.connection⟩
  rw [handleTun, exec_bind_of_some (exec_routePacket i hroute hbound)]
  simp only [exec_bind, sessionRef, exec_read, hcell, exec_atomically, hkey, hpayload, hsent]
  rfl

theorem at_afterTun {o : Outlet} (ho : s.outlet relay = some o) :
    ((clearFrames s g packet).foldl Outlet.push o).At (s.afterTun i packet) := by
  obtain ⟨s', hexec, hat⟩ :=
    exec_handleTun (s := { s with loopBusy := true }) i hroute hkey hbound ho
  rw [State.afterTun, iteration, after, exec_bind_of_some hexec]
  exact ⟨hat.session, hat.carrier, hat.connection⟩

/-- What the relay reads of the messages that the client queues for it when it handles a
packet. -/
def relayView (i : Input) (s : State) (relay : NodeId) (packet : Bytes) :
    List (Option MeshDataFrame) :=
  match s.outlet relay with
  | none => []
  | some o =>
      let queue := ((s.afterTun i packet).transport.conns.get o.conn).elim [] Connection.queue
      (queue.drop o.connection.queue.length).map (openWire o.session.send.cipher)

/-- The packet bytes in what the relay reads. -/
def contents (view : List (Option MeshDataFrame)) : Bytes :=
  view.flatMap fun mesh => mesh.elim [] chunkOf

/-- What the relay reads is an encryption of the packet to a gateway. -/
def SealedTo (gwPub : Octets 32) (packet : Bytes) (view : List (Option MeshDataFrame)) : Prop :=
  ∃ ephemeralSecret nonce, E2e.encrypt packet gwPub ephemeralSecret nonce = .ok (contents view)

/-- The link to the relay takes all frames of a packet. -/
def HandsOver (s : State) (g relay : NodeId) (packet : Bytes) : Prop :=
  ∃ o ∈ s.outlet relay, o.Room (clearFrames s g packet).length

instance (s : State) (g relay : NodeId) (packet : Bytes) : Decidable (HandsOver s g relay packet) :=
  inferInstanceAs (Decidable (∃ o ∈ s.outlet relay, _))

theorem relayView_eq :
    ∃ handed, relayView i s relay packet = handed.map some ∧
      handed.Sublist (clearFrames s g packet) ∧
      (HandsOver s g relay packet → handed = clearFrames s g packet) := by
  unfold relayView HandsOver
  cases ho : s.outlet relay with
  | none => exact ⟨[], rfl, List.nil_sublist _, fun ⟨_, hmem, _⟩ => nomatch hmem⟩
  | some o =>
    have hat := at_afterTun i hroute hkey hbound ho
    obtain ⟨wires, handed, hqueue, hopen, hsub, hall⟩ := Outlet.queue_foldl_push
      (clearFrames s g packet)
        (fun mesh hmem => encodable_of_mem_meshFrames (by decide) (by decide) hmem) o
    have hafter := hat.connection
    rw [Outlet.conn_foldl_push] at hafter
    refine ⟨handed, ?_, hsub, ?_⟩
    · simp only [hafter, Option.elim_some, hqueue, List.drop_left]
      exact hopen
    · rintro ⟨o', ho', hroom⟩
      obtain rfl : o = o' := Option.some.inj ho'
      exact hall hroom

omit hroute hkey hbound

omit [X25519] [HkdfSha256] [Aes256Gcm] in
theorem contents_clearFrames (s : State) (g : NodeId) (packet : Bytes) :
    contents ((clearFrames s g packet).map some) = packet := by
  rw [contents, List.flatMap_map]
  exact flatMap_chunkOf_meshFrames _ _ _ _ _

omit [Sha256] [Ed25519] in
/-- An encryption is longer than the packet. -/
theorem not_sealedTo {gwPub : Octets 32} {view : List (Option MeshDataFrame)}
    (h : contents view = packet) : ¬ SealedTo gwPub packet view := by
  rintro ⟨ephemeralSecret, nonce, hsealed⟩
  have hlength := E2e.length_encrypt hsealed
  rw [h] at hlength
  unfold E2e.headerSize at hlength
  omega

end Client

/-! ## Runs -/

section Runs

variable [Sha256] [Ed25519] [X25519] [HkdfSha256] [Blake3]

/-- No heartbeat that the node takes up came on a connection of `g`. -/
def Unheard (g : NodeId) (s : State) (e : Event) : Prop :=
  e = .frame → ∀ r ∈ s.transport.incoming.head?, r.frame.frameType = .heartbeat → r.peer ≠ g

/-- Keys are announced by others than `g`. -/
def unheardTerms (config : Config) (g : NodeId) : Terms where
  config := config
  Delivers _ := True
  Presents _ _ := True
  Announces id _ := id ≠ g

theorem stable_keyless (config : Config) (g : NodeId) :
    Stable (unheardTerms config g) fun l => l.gwX25519ById.get g = none := by
  intro l l' _ hl h
  cases h with
  | learnKey id key hid =>
    rw [HashMap.get_insert_ne _ _ (Ne.symm hid)]
    exact hl
  | _ => exact hl

variable [HmacSha256] [Aes256Gcm]

/-- A node that never hears `g` itself never has the key of `g`. -/
theorem keyless_of_reaches {P : State → Event → Prop} {b : Boot} {g : NodeId}
    (hg : g ≠ b.config.selfId) (hP : ∀ s, P s .frame → Unheard g s .frame) {s : State}
    (hs : Reaches P b s) : s.gwX25519ById.get g = none := by
  have hadmits (s : State) (he : P s .frame) (r : Received) (hr : r ∈ s.transport.incoming.head?) :
      (unheardTerms b.config g).Admits r :=
    { delivered := fun _ _ _ _ => trivial
      presented := fun _ _ _ _ => trivial
      announced := fun htype _ _ _ _ _ => hP s he rfl r hr htype }
  have hstart : b.state.ledger.gwX25519ById.get g = none := by
    show (if b.config.isGateway then HashMap.empty.insert b.config.selfId b.config.ownX25519Pub
      else .empty).get g = none
    split
    · rw [HashMap.get_insert_ne _ _ hg]
      exact HashMap.get_empty g
    · exact HashMap.get_empty g
  exact (holds_of_reaches (stable_keyless b.config g) rfl hstart hadmits hs).inv

/-- In every run of every network of nodes, for a client that has never heard its gateway `g`
itself and sends to it through a relay: whatever of an internet-bound packet is handed to the
relay are frames of the packet in clear; if all of it is handed over, the relay reads the
packet, it is not encrypted to any key, and the relay tells it from every other packet. -/
theorem relay_reads_internet_packets (boots : List Boot) (client : Nat) (g relay : NodeId)
    (b : Boot) (hb : boots[client]? = some b) (hg : g ≠ b.config.selfId) (N : Network)
    (hN : N.Reaches (fun k s e => k = client → Unheard g s e) boots)
    (S : Sys Input State) (hS : N.nodes[client]? = some S)
    (hroute : S.state.routing.nearestGatewayRoute = some (g, relay)) (i : Input) (packet : Bytes)
    (hbound : InternetBound S.state packet) :
    (∀ mesh ∈ relayView i S.state relay packet,
      ∃ frame ∈ clearFrames S.state g packet, mesh = some frame) ∧
    (HandsOver S.state g relay packet → contents (relayView i S.state relay packet) = packet ∧
      (∀ gwPub, ¬ SealedTo gwPub packet (relayView i S.state relay packet)) ∧
      ∀ other, InternetBound S.state other → HandsOver S.state g relay other → packet ≠ other →
        relayView i S.state relay packet ≠ relayView i S.state relay other) := by
  have hkey : S.state.gwX25519ById.get g = none :=
    keyless_of_reaches hg (fun s he => he rfl rfl) (hN.node hS hb)
  -- what is handed over in full is read in full
  have hread {packet : Bytes} (hbound : InternetBound S.state packet)
      (hover : HandsOver S.state g relay packet) :
      contents (relayView i S.state relay packet) = packet := by
    obtain ⟨handed, hview, -, hall⟩ := relayView_eq i hroute hkey hbound
    rw [hview, hall hover]
    exact contents_clearFrames S.state g packet
  refine ⟨fun mesh hmesh => ?_, fun hover => ⟨hread hbound hover, fun gwPub => ?_, ?_⟩⟩
  · obtain ⟨handed, hview, hsub, -⟩ := relayView_eq i hroute hkey hbound
    rw [hview] at hmesh
    obtain ⟨frame, hframe, rfl⟩ := List.mem_map.mp hmesh
    exact ⟨frame, hsub.subset hframe, rfl⟩
  · exact not_sealedTo (hread hbound hover)
  · intro other hother hover' hne hsame
    apply hne
    rw [← hread hbound hover, ← hread hother hover', hsame]

end Runs

/-! ## A concrete network -/

section Concrete

open Transparent

def lineNode (seed : UInt8) (isGateway : Bool) : Boot :=
  { openNode with config := { openNode.config with
      signingKey := .fill 32 seed, isGateway,
      meshIpv4 := ⟨0x0A4D0000 + seed.toBitVec.zeroExtend 32⟩ } }

/-- A client, a relay and a gateway. -/
def lineNodes : List Boot := [lineNode 1 false, lineNode 2 false, lineNode 3 true]

def relayId : NodeId := ⟨.fill 16 2⟩

def gatewayId : NodeId := ⟨.fill 16 3⟩

def lineInputs (node : Nat) : Input :=
  { calm with random := fun draw => .fill 32 (UInt8.ofNat (10 + 10 * node + draw)) }

/-- The client dials the relay and the relay the gateway; then heartbeats, advertisements of
the gateway and the relay, and heartbeats of all. -/
def lineMoves : List Move :=
  [.act 0 (.start (.initiate (.tcp somewhere))), .join ⟨0, 0⟩ 1 somewhere,
    .act 1 (.start (.initiate (.tcp somewhere))), .join ⟨1, 1⟩ 2 somewhere,
    .act 2 (.start .heartbeats), .act 1 (.start .heartbeats),
    .act 2 (.start .advertise), .act 1 (.start .advertise),
    .act 2 (.start .heartbeats), .act 1 (.start .heartbeats), .act 0 (.start .heartbeats)]

/-- A packet for 8.8.8.8 with one byte of data. -/
def internetPacket (data : UInt8) : Bytes := 0x45 :: List.replicate 15 0 ++ [8, 8, 8, 8, data]

/-- Tests `Unheard`. -/
def unheard (g : NodeId) (s : State) : Event → Bool
  | .frame => s.transport.incoming.head?.all fun r =>
      r.frame.frameType != .heartbeat || r.peer != g
  | _ => true

theorem unheard_of_test {g : NodeId} {s : State} {e : Event} (h : unheard g s e = true) :
    Unheard g s e := by
  rintro rfl r hr htype
  have hr' := (Option.all_eq_true _ _).mp h r hr
  simpa [htype] using hr'

/-- The client reaches the gateway through the relay, has no session with it, and the relay
has its key. -/
def InLine (C R : Sys Input State) : Prop :=
  C.state.routing.nearestGatewayRoute = some (gatewayId, relayId) ∧
    C.state.sessions.get gatewayId = none ∧
    R.state.gwX25519ById.get gatewayId = some (lineNode 3 true).config.ownX25519Pub ∧
    ∀ data ∈ [0, 1], InternetBound C.state (internetPacket data) ∧
      HandsOver C.state gatewayId relayId (internetPacket data)

instance (C R : Sys Input State) : Decidable (InLine C R) := inferInstanceAs (Decidable (_ ∧ _))

/-- The relay reads both packets. -/
def InClear (C : Sys Input State) : Prop :=
  ∀ data ∈ [0, 1], contents (relayView calm C.state relayId (internetPacket data)) =
    internetPacket data

instance (C : Sys Input State) : Decidable (InClear C) :=
  inferInstanceAs (Decidable (∀ data ∈ [0, 1], _))

theorem line_reached :
    ∃ (N : Network) (C R : Sys Input State),
      N.Reaches (fun k s e => k = 0 → Unheard gatewayId s e) lineNodes ∧ N.nodes[0]? = some C ∧
      N.nodes[1]? = some R ∧ InLine C R ∧ InClear C := by
  let ok k s e : Bool := k != 0 || unheard gatewayId s e
  have hok (k : Nat) (s : State) (e : Event) (h : ok k s e = true) (hk : k = 0) :
      Unheard gatewayId s e := by
    refine unheard_of_test ?_
    simpa [ok, hk] using h
  have hplay : ((Network.boot lineNodes).play ok lineInputs 100 lineMoves).any (fun N =>
      N.nodes[0]?.any fun C => N.nodes[1]?.any fun R =>
        decide (InLine C R ∧ InClear C)) = true := by
    decide +kernel
  obtain ⟨N, hN, hcheck⟩ := (Option.any_eq_true _ _).mp hplay
  obtain ⟨C, hC, hcheck⟩ := (Option.any_eq_true _ _).mp hcheck
  obtain ⟨R, hR, hcheck⟩ := (Option.any_eq_true _ _).mp hcheck
  exact ⟨N, C, R, Network.Reaches.boot.play hok hN, hC, hR, of_decide_eq_true hcheck⟩

/-- The relay of the line reads a packet of the client. -/
theorem relay_reads_internet_packets_line :
    ∃ (N : Network) (C : Sys Input State),
      N.Reaches (fun k s e => k = 0 → Unheard gatewayId s e) lineNodes ∧ N.nodes[0]? = some C ∧
      C.state.routing.nearestGatewayRoute = some (gatewayId, relayId) ∧
      InternetBound C.state (internetPacket 0) ∧
      contents (relayView calm C.state relayId (internetPacket 0)) = internetPacket 0 := by
  obtain ⟨N, C, R, hN, hC, -, ⟨hroute, -, -, hpackets⟩, -⟩ := line_reached
  obtain ⟨hbound, hover⟩ := hpackets 0 (.head _)
  have hother : gatewayId ≠ (lineNode 1 false).config.selfId := by decide +kernel
  obtain ⟨-, hread⟩ := relay_reads_internet_packets lineNodes 0 gatewayId relayId (lineNode 1 false)
    rfl hother N hN C hC hroute calm (internetPacket 0) hbound
  exact ⟨N, C, hN, hC, hroute, hbound, (hread hover).1⟩

/-- Client, relay and gateway all run the daemon and exchange heartbeats, and the client reaches
the gateway through the relay only.  The relay reads the packets of the client, which are not
encrypted to the gateway, and tells two of one length apart. -/
theorem line_relay_tells_packets_apart :
    ∃ (N : Network) (C R : Sys Input State),
      N.Reaches (fun _ _ _ => True) lineNodes ∧ N.nodes[0]? = some C ∧ N.nodes[1]? = some R ∧
      C.state.routing.nearestGatewayRoute = some (gatewayId, relayId) ∧
      C.state.sessions.get gatewayId = none ∧
      R.state.gwX25519ById.get gatewayId = some (lineNode 3 true).config.ownX25519Pub ∧
      (∀ data ∈ [0, 1], InternetBound C.state (internetPacket data) ∧
        contents (relayView calm C.state relayId (internetPacket data)) = internetPacket data ∧
        ¬ SealedTo (lineNode 3 true).config.ownX25519Pub (internetPacket data)
          (relayView calm C.state relayId (internetPacket data))) ∧
      (internetPacket 0).length = (internetPacket 1).length ∧
      relayView calm C.state relayId (internetPacket 0) ≠
        relayView calm C.state relayId (internetPacket 1) := by
  obtain ⟨N, C, R, hN, hC, hR, ⟨hroute, hfar, hkey, hpackets⟩, hclear⟩ := line_reached
  refine ⟨N, C, R, hN.mono fun _ _ _ _ => trivial, hC, hR, hroute, hfar, hkey, ?_, rfl, ?_⟩
  · intro data hdata
    exact ⟨(hpackets data hdata).1, hclear data hdata, not_sealedTo (hclear data hdata)⟩
  · intro hsame
    have hread := congrArg contents hsame
    rw [hclear 0 (.head _), hclear 1 (.tail _ (.head _))] at hread
    exact absurd hread (by decide)

end Concrete

end ProximityMesh.Daemon
