/-
  Daemon/Dispatch.lean --- packets from the TUN device for the nodes of the mesh.

  Source: `run_event_loop` of crates/pim-daemon/src/app/event_loop.rs (the TUN branch),
  `lookup_mesh_ip` of crates/pim-routing/src/table.rs, crates/pim-core/src/mesh_address.rs;
  docs/architecture/routing.md, "Collision behaviour".

  Every node has an IPv4 and an IPv6 address that follow from its id.  The event loop
  looks IPv4 destinations up in the reverse index of the routing table.  It does not
  look at IPv6 destinations: what has version 6 is for the internet.
-/
import ProximityMesh.Daemon.RouteReplay
import ProximityMesh.Routing.Histories

set_option autoImplicit false

namespace ProximityMesh.Daemon

open Protocol Transport Crypto Routing ProximityMesh.Task

/-! ## The routing table of a running daemon -/

section Runs

variable [Sha256] [Blake3] [Ed25519] [X25519] [HkdfSha256] [HmacSha256] [Aes256Gcm]

/-- What runs keep of the routing table. -/
structure Charted (b : Boot) (l : Ledger) : Prop where
  sound : l.routing.Sound
  ipv4Prefix : l.routing.ipv4Prefix = b.ipv4Prefix

omit [HmacSha256] [Aes256Gcm] in
theorem stable_charted (T : Terms) (b : Boot) : Stable T (Charted b) := by
  intro l l' _ hl hchange
  cases hchange with
  | route ops routing hops hrun =>
    exact ⟨hl.sound.run hrun, (RoutingTable.run_frame hrun).2.trans hl.ipv4Prefix⟩
  | _ => exact ⟨hl.sound, hl.ipv4Prefix⟩

theorem holds_charted {P : State → Event → Prop} {b : Boot} {s : State} (hs : Reaches P b s) :
    s.Holds (anyTerms b.config) (Charted b) := by
  have hstart : Charted b b.state.ledger := by
    refine ⟨?_, rfl⟩
    exact (RoutingTable.sound_new b.config.selfId b.config.isGateway b.ipv4Prefix).edit
      (N := fun _ => False) (.aside rfl rfl rfl rfl rfl)
  exact holds_of_reaches (stable_charted _ b) rfl hstart
    (fun _ _ r _ => admits_anyTerms b.config r) hs

end Runs

/-! ## The dispatch -/

def ipv6Destination (packet : Bytes) : Option Ipv6Addr :=
  if packet.length < 40 || byteAt packet 0 >>> 4 ≠ 6 then none
  else some ⟨BitVec.ofNat 128 (beNat (window packet 24 16))⟩

theorem packetIpVersion_eq (packet : Bytes) (h : packet ≠ []) :
    packetIpVersion packet = some (byteAt packet 0 >>> 4) := by
  cases packet with
  | nil => exact absurd rfl h
  | cons byte rest => rfl

variable {packet : Bytes}

theorem ipv4Destination_eq_some {ip : Ipv4Addr} (h : ipv4Destination packet = some ip) :
    packetIpVersion packet = some 4 ∧ 20 ≤ packet.length ∧ destinationField packet = ip := by
  unfold ipv4Destination at h
  split at h
  · cases h
  · rename_i hform
    obtain ⟨hlength, hversion⟩ := not_or.mp (mt (Bool.or_eq_true _ _).mpr hform)
    have hlong : 20 ≤ packet.length := by simpa using hlength
    refine ⟨?_, hlong, Option.some.inj h⟩
    rw [packetIpVersion_eq packet (List.ne_nil_of_length_pos (by omega))]
    simpa using hversion

theorem ipv6Destination_eq_some {ip : Ipv6Addr} (h : ipv6Destination packet = some ip) :
    packetIpVersion packet = some 6 := by
  unfold ipv6Destination at h
  split at h
  · cases h
  · rename_i hform
    obtain ⟨hlength, hversion⟩ := not_or.mp (mt (Bool.or_eq_true _ _).mpr hform)
    have hlong : 40 ≤ packet.length := by simpa using hlength
    rw [packetIpVersion_eq packet (List.ne_nil_of_length_pos (by omega))]
    simpa using hversion

/-- What has no mesh destination is flagged for the internet, or dropped. -/
theorem exec_routeInternet (i : Input) (s : State) :
    ∃ found, exec i routeInternet s = (s, some found) ∧ ∀ x ∈ found, x.flags = .isInternet := by
  rw [routeInternet, exec_bind]
  simp only [exec_read]
  cases s.routing.nearestGatewayRoute with
  | some route => exact ⟨_, rfl, fun x hx => by rw [← Option.some.inj hx]⟩
  | none =>
    refine ⟨_, rfl, fun x hx => ?_⟩
    obtain ⟨peer, -, rfl⟩ := Option.map_eq_some_iff.mp hx
    rfl

theorem exec_routePacket_v6 (i : Input) (s : State) (hversion : packetIpVersion packet = some 6) :
    exec i (routePacket packet) s = exec i routeInternet s := by
  unfold routePacket
  simp [hversion]

theorem exec_routePacket_v4 (i : Input) (s : State) (hversion : packetIpVersion packet = some 4)
    (hlength : 20 ≤ packet.length) :
    exec i (routePacket packet) s =
      if destinationField packet = s.config.meshIpv4 then (s, some none)
      else
        match s.routing.lookupMeshIp (destinationField packet) with
        | some (dstId, nextHop) => (s, some (some ⟨dstId, nextHop, .empty⟩))
        | none => exec i routeInternet s := by
  unfold routePacket
  simp only [hversion, if_neg (Nat.not_lt.mpr hlength), exec_bind, exec_read, beq_iff_eq]
  by_cases hown : destinationField packet = s.config.meshIpv4
  · rw [if_pos hown, if_pos hown]
    rfl
  · rw [if_neg hown, if_neg hown, exec_bind]
    simp only [exec_read]
    cases s.routing.lookupMeshIp (destinationField packet) with
    | none | some found => rfl

def MeshData (i : Input) (s : State) (packet : Bytes) (dstId nextHop : NodeId) : Prop :=
  exec i (routePacket packet) s = (s, some (some ⟨dstId, nextHop, .empty⟩))

theorem not_meshData_of_internet {i : Input} {s : State} {dstId nextHop : NodeId}
    (h : exec i (routePacket packet) s = exec i routeInternet s) :
    ¬ MeshData i s packet dstId nextHop := by
  intro hdata
  obtain ⟨found, hfound, hflags⟩ := exec_routeInternet i s
  have hsame := (Prod.mk.inj (hdata.symm.trans (h.trans hfound))).2
  cases hsame
  have hinternet : DataFlags.empty = .isInternet := hflags _ rfl
  exact absurd hinternet (by decide)

section Addressed

variable [Sha256] [Blake3] [Ed25519] [X25519] [HkdfSha256] [Aes256Gcm]

/-- The packet is for one of the mesh addresses of a node. -/
def AddressedTo (pre : Ipv4Prefix) (preV6 : Ipv6Prefix) (d : NodeId) (packet : Bytes) : Prop :=
  ipv4Destination packet = some (deriveMeshIpv4 d pre) ∨
    ipv6Destination packet = some (deriveMeshIpv6 d preV6)

omit [Sha256] [Ed25519] [X25519] [HkdfSha256] [Aes256Gcm] in
/-- An IPv4 packet for a node that shares its address with nobody. -/
theorem meshData_v4_iff (i : Input) {s : State} (hsound : s.routing.Sound) {d nextHop : NodeId}
    (hroute : s.routing.lookup d = some nextHop) (hsole : s.routing.Unshared d) {packet : Bytes}
    (hpacket : ipv4Destination packet = some (deriveMeshIpv4 d s.routing.ipv4Prefix)) :
    MeshData i s packet d nextHop ↔
      deriveMeshIpv4 d s.routing.ipv4Prefix ≠ s.config.meshIpv4 ∧
        (s.routing.meshIpIndex.get (deriveMeshIpv4 d s.routing.ipv4Prefix)).isSome := by
  obtain ⟨hversion, hlength, hfield⟩ := ipv4Destination_eq_some hpacket
  have hexec := exec_routePacket_v4 i s hversion hlength
  have hlookup := RoutingTable.lookupMeshIp_eq_some_iff hsound hsole hroute
  rw [hfield] at hexec
  by_cases hown : deriveMeshIpv4 d s.routing.ipv4Prefix = s.config.meshIpv4
  · rw [if_pos hown] at hexec
    refine iff_of_false (fun hdata => ?_) (fun hcond => hcond.1 hown)
    cases (Prod.mk.inj (hdata.symm.trans hexec)).2
  · rw [if_neg hown] at hexec
    rw [and_iff_right hown, ← hlookup]
    cases hfound : s.routing.lookupMeshIp (deriveMeshIpv4 d s.routing.ipv4Prefix) with
    | none =>
      rw [hfound] at hexec
      exact iff_of_false (not_meshData_of_internet hexec) (fun h => nomatch h)
    | some found =>
      rw [hfound] at hexec
      unfold MeshData
      rw [hexec]
      cases found with
      | mk dstId hop => simp

omit [Blake3] in
/-- Mesh data goes out over the session of the next hop. -/
theorem exec_handleTun_of_meshData {i : Input} {s : State} {packet : Bytes} {dstId nextHop : NodeId}
    (h : MeshData i s packet dstId nextHop) {cell : Nat}
    (hcell : s.sessions.get nextHop = some cell) :
    exec i (handleTun packet) s =
      exec i (do
        sendMeshData cell s.config.selfId dstId 8 .empty packet
        countForwarded packet.length) s := by
  rw [handleTun, exec_bind_of_some h]
  simp only [exec_bind, sessionRef, exec_read, hcell]
  rfl

variable [HmacSha256]

/-- A packet for a mesh address of a node that this one has a route to is dispatched to
that node as mesh data exactly if it is an IPv4 packet, the address is not also this
node's own, and the index has an entry for it. -/
theorem meshData_iff {P : State → Event → Prop} {b : Boot} {s : State} (hs : Reaches P b s)
    {d nextHop : NodeId} (hroute : s.routing.lookup d = some nextHop) {preV6 : Ipv6Prefix}
    {packet : Bytes} (haddressed : AddressedTo b.ipv4Prefix preV6 d packet)
    (hsole : packetIpVersion packet = some 4 → s.routing.Unshared d) (i : Input) :
    (MeshData i s packet d nextHop ↔
      packetIpVersion packet = some 4 ∧ deriveMeshIpv4 d b.ipv4Prefix ≠ b.config.meshIpv4 ∧
        (s.routing.meshIpIndex.get (deriveMeshIpv4 d b.ipv4Prefix)).isSome) ∧
    (MeshData i s packet d nextHop → ∀ cell, s.sessions.get nextHop = some cell →
      exec i (handleTun packet) s =
        exec i (do
          sendMeshData cell s.config.selfId d 8 .empty packet
          countForwarded packet.length) s) := by
  refine ⟨?_, fun hdata cell hcell => exec_handleTun_of_meshData hdata hcell⟩
  obtain ⟨hsane, hsound, hpre⟩ := holds_charted hs
  have hconfig : s.config = b.config := hsane.config
  have hpre : s.routing.ipv4Prefix = b.ipv4Prefix := hpre
  rcases haddressed with hv4 | hv6
  · have hversion := (ipv4Destination_eq_some hv4).1
    rw [← hpre] at hv4 ⊢
    rw [and_iff_right hversion, ← hconfig]
    exact meshData_v4_iff i hsound hroute (hsole hversion) hv4
  · have hversion := ipv6Destination_eq_some hv6
    refine iff_of_false (not_meshData_of_internet (exec_routePacket_v6 i s hversion)) ?_
    intro hcond
    rw [hversion] at hcond
    exact absurd hcond.1 (by decide)

end Addressed

/-! ## A node with a neighbour and a gateway behind it -/

section Concrete

open Transparent

/-- A gateway that Victor has a route to. -/
def uplinkId : NodeId := ⟨.fill 16 5⟩

/-- Victor advertises themselves and the gateway. -/
def uplinkAdvert : RouteUpdateFrame :=
  signRouteUpdate victorPub
    { originId := victorId, sequence := 1
      entries := [{ destination := victorId, hops := 0, flags := 0, meshIp := Octets.zero 4 },
        { destination := uplinkId, hops := 1, flags := 1, meshIp := Octets.zero 4 }]
      signature := Octets.zero 64 }

def defaultPrefixV6 : Ipv6Prefix := ⟨⟨0xFD770000000000000000000000000000⟩, 64⟩

def victorPacket : Bytes :=
  0x45 :: (List.replicate 15 0 ++ (deriveMeshIpv4 victorId openNode.ipv4Prefix).octets.toList)

def victorPacketV6 : Bytes :=
  0x60 :: (List.replicate 23 0 ++ beBytes 16 (deriveMeshIpv6 victorId defaultPrefixV6).bits.toNat)

/-- Victor is a neighbour, and the way to the gateway. -/
def Joined (s : State) : Prop :=
  s.routing.lookup victorId = some victorId ∧
    s.routing.nearestGatewayRoute = some (uplinkId, victorId) ∧
    (∀ d ∈ s.routing.routes.keys, deriveMeshIpv4 d s.routing.ipv4Prefix =
      deriveMeshIpv4 victorId s.routing.ipv4Prefix → d = victorId) ∧
    (s.routing.meshIpIndex.get (deriveMeshIpv4 victorId openNode.ipv4Prefix)).isSome

instance (s : State) : Decidable (Joined s) := inferInstanceAs (Decidable (_ ∧ _))

theorem joined_reached : ∃ s, Reaches (fun _ _ => True) openNode s ∧ Joined s := by
  obtain ⟨s, hreaches, hcheck⟩ := exists_reaches_of_choices openNode
    (inboundHandshake 0 0 victorId victorPub ++
      inboundFrame 0 8 4 (plainFrame .routeUpdate uplinkAdvert.encode))
    (fun s => decide (Joined s)) (by decide +kernel)
  exact ⟨s, hreaches, of_decide_eq_true hcheck⟩

/-- An IPv4 packet for Victor is dispatched to Victor. -/
theorem meshData_victor :
    ∃ s, Reaches (fun _ _ => True) openNode s ∧ s.routing.lookup victorId = some victorId ∧
      AddressedTo openNode.ipv4Prefix defaultPrefixV6 victorId victorPacket ∧
      MeshData calm s victorPacket victorId victorId := by
  obtain ⟨s, hs, hroute, -, hsole, hindex⟩ := joined_reached
  have haddressed : AddressedTo openNode.ipv4Prefix defaultPrefixV6 victorId victorPacket :=
    .inl (by decide +kernel)
  have hunshared : s.routing.Unshared victorId := by
    intro d hd heq
    exact hsole d ((HashMap.mem_keys _ _).mpr hd) heq
  refine ⟨s, hs, hroute, haddressed, ?_⟩
  apply (meshData_iff hs hroute haddressed (fun _ => hunshared) calm).1.mpr
  exact ⟨rfl, by decide +kernel, hindex⟩

/-- An IPv6 packet for Victor, a neighbour, is sent to the gateway. -/
theorem packetV6_sent_to_gateway :
    ∃ s, Reaches (fun _ _ => True) openNode s ∧ s.routing.lookup victorId = some victorId ∧
      ipv6Destination victorPacketV6 = some (deriveMeshIpv6 victorId defaultPrefixV6) ∧
      uplinkId ≠ victorId ∧
      ∀ i, exec i (routePacket victorPacketV6) s =
        (s, some (some ⟨uplinkId, victorId, .isInternet⟩)) := by
  obtain ⟨s, hs, hroute, hgateway, -⟩ := joined_reached
  refine ⟨s, hs, hroute, by decide +kernel, by decide, fun i => ?_⟩
  rw [exec_routePacket_v6 i s rfl, routeInternet, exec_bind]
  simp only [exec_read, hgateway]
  rfl

end Concrete

end ProximityMesh.Daemon
