/-
  Daemon/ReturnPath.lean --- a reply of the internet on its way back to the client.

  Source: `run_gateway_return` of crates/pim-daemon/src/gateway_tasks.rs, the delivery branch
  of crates/pim-daemon/src/app/event_loop.rs, `translate_inbound` of
  crates/pim-gateway/src/engine.rs and crates/pim-gateway/src/ipv6.rs;
  docs/architecture/packet-flow.md, "Return Traffic Flow".

  Replies are sent with the flag of internet-bound packets.  A node that receives such a
  packet takes it for one that leaves the mesh here, unless it has no IPv4 engine and the
  packet is IPv4.  So an IPv6 reply gets as far as the client and is dropped there.
-/
import ProximityMesh.Daemon.Delivery
import ProximityMesh.Daemon.FlowIsolation
import ProximityMesh.Daemon.Passage
import ProximityMesh.Gateway.ChecksumV6
import ProximityMesh.Routing.Histories

set_option autoImplicit false

namespace ProximityMesh.Daemon

open Protocol Transport Crypto Routing ProximityMesh.Task Gateway State Option

/-! ## Sending writes nothing -/

theorem sendFrameBuffered_leaves_outputs (peer : NodeId) (frame : TransportFrame) :
    (sendFrameBuffered peer frame).Leaves outputs := by
  refine leaves_bind (leaves_atomically fun _ _ => rfl) fun result => ?_
  split
  · exact leaves_pure
  · exact leaves_atomically fun _ _ => rfl
  · split
    · exact leaves_atomically fun _ _ => rfl
    · exact leaves_modify fun _ => rfl
  · exact leaves_pure

section Client

variable [Aes256Gcm]

theorem sendSingleMesh_leaves_outputs (cell : Nat) (mesh : MeshDataFrame) :
    (sendSingleMesh cell mesh).Leaves outputs := by
  refine leaves_bind (leaves_atomically fun _ s => ?_) fun result => ?_
  · split
    · rfl
    · rfl
  · split
    · exact sendFrameBuffered_leaves_outputs _ _
    · exact leaves_pure

theorem sendMeshData_leaves_outputs (cell : Nat) (srcId dstId : NodeId) (ttl : UInt8)
    (flags : DataFlags) (payload : Bytes) :
    (sendMeshData cell srcId dstId ttl flags payload).Leaves outputs := by
  unfold sendMeshData
  split
  · refine leaves_bind (leaves_atomically fun _ _ => rfl) fun fragId => ?_
    exact leaves_each (sendSingleMesh_leaves_outputs cell)
  · exact leaves_each (sendSingleMesh_leaves_outputs cell)

/-! ## The client -/

/-- The node writes an IPv4 packet from the internet for an address to its TUN device: it has
no engine, or it has no internet link and the address is not its own. -/
def State.TakesReply (s : State) (addr : Ipv4Addr) : Prop :=
  s.gwEngine.isSome = true → s.internetLink = false ∧ addr ≠ s.config.meshIpv4

omit [Aes256Gcm] in
theorem outputs_ne_append (s : State) (o : Output) : s.outputs ≠ s.outputs ++ [o] := by
  intro h
  have hlength := congrArg List.length h
  rw [List.length_append] at hlength
  exact absurd hlength (Nat.ne_of_lt (Nat.lt_succ_self _))

omit [Aes256Gcm] in
theorem outputs_sendTranslated (i : Input) (s : State) (outcome : Gateway.Outcome UInt16)
    (packet : Bytes) :
    ((sendTranslated outcome).after i s).outputs ≠ s.outputs ++ [.tun packet] := by
  have hnothing := outputs_ne_append s (.tun packet)
  cases outcome with
  | ok port translated =>
    intro h
    cases List.append_cancel_left h
  | error fault translated =>
    cases fault with
    | error e | panic => exact hnothing

omit [Aes256Gcm] in
theorem outputs_translate (i : Input) (s : State)
    {translate : Input → State → State × Gateway.Outcome UInt16}
    (hkept : (translate i s).1.outputs = s.outputs) (packet : Bytes) :
    ((do
      let outcome ← .atomically translate
      sendTranslated outcome : DaemonM Unit).after i s).outputs ≠ s.outputs ++ [.tun packet] := by
  rw [← hkept]
  exact outputs_sendTranslated i (translate i s).1 (translate i s).2 packet

variable [Sha256] [Ed25519]
variable {flags : DataFlags} {packet : Bytes}

variable (i : Input) (s : State) (srcId : NodeId) (hflag : flags.contains .isInternet = true)

include hflag

theorem deliverPacket_writes_iff (hversion : packetIpVersion packet = some 4)
    (hlen : 20 ≤ packet.length) :
    ((deliverPacket srcId flags packet).after i s).outputs = s.outputs ++ [.tun packet] ↔
      s.TakesReply (destinationField packet) := by
  have hgateway : isForGateway s packet = true ↔
      s.gwEngine.isSome = true ∧ destinationField packet = s.config.meshIpv4 := by
    simp [isForGateway, hversion, hlen]
  rw [deliverPacket, after, exec_bind]
  simp only [exec_read]
  cases hfor : isForGateway s packet with
  | true =>
    -- an echo request to the gateway itself is answered, and nothing else is done
    obtain ⟨hengine, hown⟩ := hgateway.mp hfor
    refine iff_of_false (fun hwrites => ?_) fun htakes => (htakes hengine).2 hown
    refine outputs_ne_append s (.tun packet) (Eq.trans (Leaves.after_eq ?_ i s).symm hwrites)
    rw [if_pos rfl]
    split
    · exact leaves_pure
    · refine leaves_bind leaves_read fun nextHop => ?_
      split
      · exact leaves_pure
      · refine leaves_bind leaves_read fun cell => ?_
        split
        · exact leaves_pure
        · exact leaves_bind leaves_read fun selfId => sendMeshData_leaves_outputs _ _ _ _ _ _
  | false =>
    have hother : s.gwEngine.isSome = true → destinationField packet ≠ s.config.meshIpv4 := by
      intro hengine hown
      rw [hgateway.mpr ⟨hengine, hown⟩] at hfor
      cases hfor
    rw [if_pos hflag, hversion]
    show ((egressV4 packet).after i s).outputs = _ ↔ _
    rw [egressV4, after, exec_bind]
    simp only [exec_read]
    cases hlink : (s.gwEngine.isSome && s.internetLink) with
    | true =>
      obtain ⟨hengine, hlink⟩ := Bool.and_eq_true_iff.mp hlink
      refine iff_of_false ?_ fun htakes => ?_
      · rw [if_pos rfl]
        split
        · exact outputs_ne_append s (.tun packet)
        · apply outputs_translate
          split
          · rfl
          · rfl
      · rw [(htakes hengine).1] at hlink
        cases hlink
    | false =>
      refine iff_of_true rfl fun hengine => ⟨?_, hother hengine⟩
      rw [hengine] at hlink
      exact hlink

/-- An IPv6 packet with that flag is taken for one that leaves the mesh here. -/
theorem exec_deliverPacket_v6 (hversion : packetIpVersion packet = some 6) :
    exec i (deliverPacket srcId flags packet) s = exec i (egressV6 srcId packet) s := by
  have hother : isForGateway s packet = false := by
    simp [isForGateway, hversion]
  rw [deliverPacket, exec_bind]
  simp only [exec_read]
  rw [hother, if_pos hflag, hversion]
  rfl

theorem deliverPacket_not_writes (hversion : packetIpVersion packet = some 6) :
    ((deliverPacket srcId flags packet).after i s).outputs ≠ s.outputs ++ [.tun packet] := by
  rw [after, exec_deliverPacket_v6 i s srcId hflag hversion, egressV6, exec_bind]
  simp only [exec_read]
  split
  · apply outputs_translate
    split
    · rfl
    · rfl
  · exact outputs_ne_append s (.tun packet)

end Client

/-! ## The gateway -/

theorem packetIpVersion_eq_some {packet : Bytes} {version : UInt8} (hversion : version ≠ 0)
    (h : byteAt packet 0 >>> 4 = version) : packetIpVersion packet = some version := by
  cases packet with
  | nil => exact absurd h.symm hversion
  | cons byte rest => exact congrArg some h

section Gateway

variable [Aes256Gcm] [Sha256] [Ed25519]

theorem exec_sendReply (i : Input) {s : State} (dstId : NodeId) {nextHop : NodeId} {cell : Nat}
    (hcell : s.sessions.get nextHop = some cell) (packet : Bytes) :
    exec i (sendReply dstId nextHop packet) s =
      exec i (sendMeshData cell s.config.selfId dstId 8 .isInternet packet) s := by
  rw [sendReply, sessionRef, exec_bind]
  simp only [exec_read, hcell]
  rfl

theorem exec_runGatewayReturn (i : Input) {s : State} {externalIp : Octets 4}
    {t : Gateway.Inner Gateway.ConntrackKey} (hengine : s.gwEngine = some (externalIp, t))
    {reply reply' : Bytes} {addr : Octets 4} (hversion : packetIpVersion reply = some 4)
    (hlen : 20 ≤ reply.length)
    (htranslated : ((gatewayEngine externalIp).translateInbound t reply i.now).1 =
      .ok addr reply') :
    ∃ t', exec i (runGatewayReturn reply) s =
      match s.routing.lookupMeshIp (.fromOctets addr) with
      | none => ({ s with gwEngine := some (externalIp, t') }, some ())
      | some (dstId, nextHop) =>
        exec i (sendReply dstId nextHop reply') { s with gwEngine := some (externalIp, t') } := by
  refine ⟨((gatewayEngine externalIp).translateInbound t reply i.now).2, ?_⟩
  rw [Errand.task_inbound hversion (Nat.not_lt.mpr hlen), Errand.task, returnV4, exec_bind]
  simp only [exec_atomically, hengine, htranslated]
  rw [sendReplyTo, exec_bind]
  simp only [exec_read]
  cases s.routing.lookupMeshIp (.fromOctets addr) with
  | none | some r => rfl

end Gateway

namespace Fabric

/-- What a task of a node that sends a packet over a session puts on the connections of the
node. -/
theorem sends_sendMeshData [Aes256Gcm] {F : Fabric} {g d : NodeId} {task : DaemonM Unit}
    {s₁ : State} {o : Outlet} {packet : Bytes}
    (hexec : exec (F.input g) task (F.state g) =
      exec (F.input g) (sendMeshData o.cell g d 8 .isInternet packet) s₁)
    (htransport : s₁.transport = (F.state g).transport) (hat : o.At s₁) :
    (∃ handed, (F.sends g task o.conn).map (openWire o.session.send.cipher) = handed.map some ∧
      handed.Sublist (meshFrames g d 8 .isInternet packet (s₁.fragmentIdFor packet)) ∧
      (o.Room (meshFrames g d 8 .isInternet packet (s₁.fragmentIdFor packet)).length →
        handed = meshFrames g d 8 .isInternet packet (s₁.fragmentIdFor packet))) ∧
    ∀ conn, conn ≠ o.conn → F.sends g task conn = [] := by
  obtain ⟨-, -, -, hknown, hknown'⟩ := packetFlags_spec .isInternet (.tail _ (.head _))
  obtain ⟨s', hsent, hat', hspares⟩ :=
    Outlet.exec_sendMeshData (F.input g) hat g d 8 .isInternet packet
  have hafter : task.after (F.input g) (F.state g) = s' := congrArg Prod.fst (hexec.trans hsent)
  generalize hframes : meshFrames g d 8 .isInternet packet (s₁.fragmentIdFor packet) =
    frames at hat' ⊢
  obtain ⟨wires, handed, hqueue, hopen, hsub, hall⟩ := Outlet.queue_foldl_push frames
    (fun mesh hmesh => encodable_of_mem_meshFrames hknown hknown' (hframes ▸ hmesh)) o
  constructor
  · refine ⟨handed, ?_, hsub, hall⟩
    have hconnection := hat'.connection
    rw [Outlet.conn_foldl_push] at hconnection
    rw [sends, hafter, queued, queued, hconnection, ← htransport, hat.connection]
    show ((frames.foldl Outlet.push o).connection.queue.drop o.connection.queue.length).map _ = _
    rw [hqueue, List.drop_left]
    exact hopen
  · intro conn hne
    rw [sends, hafter, queued, queued, hspares conn hne, htransport, List.drop_length]

end Fabric

/-! ## From the internet link to the TUN device -/

theorem meshFrames_ne_nil (srcId dstId : NodeId) (ttl : UInt8) (flags : DataFlags) (payload : Bytes)
    (fragId : UInt32) : meshFrames srcId dstId ttl flags payload fragId ≠ [] := by
  unfold meshFrames
  split
  · rename_i hlong
    intro hnil
    have hpayload := flatten_fragmentPacket payload fragId
    rw [List.map_eq_nil_iff.mp hnil] at hpayload
    rw [← hpayload] at hlong
    exact absurd hlong (Nat.not_lt_zero _)
  · exact List.cons_ne_nil _ _

def MeshDataFrame.asSent (mesh : MeshDataFrame) : MeshDataFrame := { mesh with ttl := 8 }

/-- A node looks at the time to live of a frame only to relay it. -/
theorem Receives.asSent [X25519] [HkdfSha256] [Aes256Gcm] {srcId : NodeId} {fragId : UInt32}
    {s : State} {arrivals : List MeshDataFrame} {packets : List Bytes}
    (h : Receives srcId fragId s arrivals packets) :
    Receives srcId fragId s (arrivals.map MeshDataFrame.asSent) packets := by
  induction h with
  | nil => exact .nil
  | frame hexec _ ih => exact .frame hexec ih
  | meanwhile hconfig hbuffer _ ih => exact .meanwhile hconfig hbuffer ih

/-- Two states of a node between which its part in the mesh has not changed. -/
structure State.SameRole (s s' : State) : Prop where
  config : s.config = s'.config
  engine : s.gwEngine.isSome = s'.gwEngine.isSome
  link : s.internetLink = s'.internetLink

namespace Fabric

/-- The frames in which a gateway sends a reply to a client. -/
def replyFrames (F : Fabric) (g c : NodeId) (packet : Bytes) : List MeshDataFrame :=
  meshFrames g c 8 .isInternet packet ((F.state g).fragmentIdFor packet)

/-- There is room for the frames of the reply at the gateway, and their id is new to the
client. -/
structure Receptive (F : Fabric) (g c : NodeId) (o : Outlet) (packet : Bytes) : Prop where
  room : o.Room (F.replyFrames g c packet).length
  unused : ((F.state c).reassembler g).buffers.get ((F.state g).fragmentIdFor packet) = none

section Path

variable [Aes256Gcm] [Sha256] [Ed25519] [X25519] [HkdfSha256] [Blake3]

/-- What comes of a packet of the internet link of a gateway: it is sent to a client, as
another packet, and written to the TUN device there. -/
structure Answers (F : Fabric) (g c : NodeId) (o : Outlet) (reply packet : Bytes) : Prop where
  /-- The gateway queues messages that the next hop opens to the frames of the packet. -/
  sent : (F.sends g (runGatewayReturn reply) o.conn).map (openWire o.session.send.cipher) =
    (F.replyFrames g c packet).map some
  /-- Each of the frames gets to the client. -/
  delivered : ∀ mesh ∈ F.replyFrames g c packet, F.Delivers g o.cell mesh
  /-- In whichever order they arrive there, the client puts the packet together. -/
  received : ∀ arrivals packets,
    (arrivals.map MeshDataFrame.asSent).Perm (F.replyFrames g c packet) →
    Receives g ((F.state g).fragmentIdFor packet) (F.state c) arrivals packets → packets = [packet]
  /-- Having it, the client writes it to the TUN device. -/
  written : ∀ i s flags, State.SameRole s (F.state c) → flags.contains .isInternet = true →
    ((deliverPacket g flags packet).after i s).outputs = s.outputs ++ [.tun packet]

variable {F : Fabric} {net : Topology} {g c : NodeId} {e : RouteTableEntry} {o : Outlet}
  {reply packet : Bytes}

omit [Sha256] [Ed25519] [Blake3] in
theorem received_replyFrames (hreceptive : F.Receptive g c o packet)
    (hlength : packet.length ≤ 65535) {arrivals : List MeshDataFrame} {packets : List Bytes}
    (hperm : (arrivals.map MeshDataFrame.asSent).Perm (F.replyFrames g c packet))
    (h : Receives g ((F.state g).fragmentIdFor packet) (F.state c) arrivals packets) :
    packets = [packet] := by
  refine h.asSent.of_length_le (.tail _ (.head _)) hlength ?_ hreceptive.unused hperm
  have hclear : DataFlags.isInternet.contains .isE2e = false := by decide
  rw [openPacket, hclear, Bool.and_false]
  rfl

omit [X25519] [HkdfSha256] [Blake3] in
theorem written_iff (hversion : packetIpVersion packet = some 4) (hlen : 20 ≤ packet.length) :
    (∀ i s flags, State.SameRole s (F.state c) → flags.contains .isInternet = true →
      ((deliverPacket g flags packet).after i s).outputs = s.outputs ++ [.tun packet]) ↔
      (F.state c).TakesReply (destinationField packet) := by
  constructor
  · intro hwrites
    have hflag : DataFlags.isInternet.contains .isInternet = true := by decide
    exact (deliverPacket_writes_iff (F.input c) (F.state c) g hflag hversion hlen).mp
      (hwrites (F.input c) (F.state c) .isInternet ⟨rfl, rfl, rfl⟩ hflag)
  · intro htakes i s flags hrole hflag
    refine (deliverPacket_writes_iff i s g hflag hversion hlen).mpr ?_
    unfold State.TakesReply
    rw [hrole.config, hrole.engine, hrole.link]
    exact htakes

/-- The reply is translated as the flow asks for, sent to the client and written there. -/
def Returned {ρ : Type} (F : Fabric) (g c : NodeId) (o : Outlet) (outcome : Gateway.Outcome ρ)
    (Addressed : Bytes → Prop) (reply : Bytes) : Prop :=
  ∃ r packet, outcome = .ok r packet ∧ Addressed packet ∧ F.Answers g c o reply packet

theorem not_returned_v6 {externalIp : Octets 16} {t : Gateway.Inner Gateway.ConntrackKeyV6}
    {key : Gateway.ConntrackKeyV6} {port : UInt16}
    (hserves : (gatewayEngineV6 externalIp).Serves t c key port)
    (hreply : (gatewayEngineV6 externalIp).replyOf reply = some (key.proto, port)) :
    ¬ F.Returned g c o
      ((gatewayEngineV6 externalIp).translateInbound t reply (F.input g).now).1
      (Gateway.DestinationIsV6 key reply) reply := by
  rintro ⟨r, packet, hok, -, h⟩
  obtain ⟨-, hwrite⟩ := (hserves.translateInbound_eq_ok_iff _ hreply).mp hok
  have hparses := parsesV6_of_replyOf hreply
  have hhead := byteAt_zero_rewriteDstV6 hparses hwrite
  have hversion := packetIpVersion_eq_some (by decide) (hhead ▸ hparses.ipv6)
  have hflag : DataFlags.isInternet.contains .isInternet = true := by decide
  exact deliverPacket_not_writes (F.input c) (F.state c) g hflag hversion
    (h.written (F.input c) (F.state c) .isInternet ⟨rfl, rfl, rfl⟩ hflag)

variable (hF : F.Works net) (hconv : Converged net F.tables) (hg : g ∈ net.nodes)
  (hroute : (F.tables g).routes.get c = some e) (houtlet : (F.state g).outlet e.nextHop = some o)

include hF hconv hg hroute houtlet

omit [X25519] [HkdfSha256] in
/-- The messages for the frames are queued if the address of the reply is looked up to the
client. -/
theorem sent_iff {externalIp : Octets 4} {t : Gateway.Inner Gateway.ConntrackKey}
    (hengine : (F.state g).gwEngine = some (externalIp, t)) {addr : Octets 4}
    (hversion : packetIpVersion reply = some 4) (hlen : 20 ≤ reply.length)
    (htranslated : ((gatewayEngine externalIp).translateInbound t reply (F.input g).now).1 =
      .ok addr packet) (hroom : o.Room (F.replyFrames g c packet).length) :
    (F.sends g (runGatewayReturn reply) o.conn).map (openWire o.session.send.cipher) =
        (F.replyFrames g c packet).map some ↔
      ∃ hop, (F.tables g).lookupMeshIp (.fromOctets addr) = some (c, hop) := by
  obtain ⟨t', hexec⟩ := exec_runGatewayReturn (F.input g) hengine hversion hlen htranslated
  obtain ⟨o', far, hjoins⟩ := hF.joins _ _ (hconv.stale.route g hg c e hroute).2.2.1
  obtain rfl := some.inj (houtlet.symm.trans hjoins.outlet)
  -- a gateway that queues nothing for the next hop does not send the reply there
  have hsilent : F.sends g (runGatewayReturn reply) o.conn = [] →
      (F.sends g (runGatewayReturn reply) o.conn).map (openWire o.session.send.cipher) ≠
        (F.replyFrames g c packet).map some := by
    intro hnil hsent
    rw [hnil] at hsent
    exact meshFrames_ne_nil _ _ _ _ _ _ (List.map_eq_nil_iff.mp hsent.symm)
  cases hlook : (F.tables g).lookupMeshIp (.fromOctets addr) with
  | none =>
    rw [show (F.state g).routing.lookupMeshIp (.fromOctets addr) = none from hlook] at hexec
    refine iff_of_false (hsilent ?_) ?_
    · rw [sends, after, hexec]
      exact List.drop_length
    · rintro ⟨hop, hsome⟩
      cases hsome
  | some r =>
    obtain ⟨d, hop⟩ := r
    rw [show (F.state g).routing.lookupMeshIp (.fromOctets addr) =
      some (d, hop) from hlook] at hexec
    obtain ⟨entry, hentry, rfl⟩ := RoutingTable.route_of_lookupMeshIp hlook
    obtain ⟨other, far', hjoins'⟩ := hF.joins _ _ (hconv.stale.route g hg d entry hentry).2.2.1
    obtain ⟨hcell, hat⟩ := Outlet.at_of_outlet hjoins'.outlet
    have hcell' : ({ F.state g with gwEngine := some (externalIp, t') } : State).sessions.get
        entry.nextHop = some other.cell := hcell
    replace hexec := hexec.trans (exec_sendReply (F.input g) d hcell' packet)
    rw [hF.selfId g hg] at hexec
    obtain ⟨⟨handed, hopen, hsub, hall⟩, hspared⟩ :=
      sends_sendMeshData hexec rfl ⟨hat.session, hat.carrier, hat.connection⟩
    by_cases hd : d = c
    · subst hd
      obtain rfl := some.inj (hroute.symm.trans hentry)
      obtain rfl := some.inj (houtlet.symm.trans hjoins'.outlet)
      refine iff_of_true ?_ ⟨_, rfl⟩
      rw [hopen, hall hroom]
      rfl
    · refine iff_of_false ?_ ?_
      · by_cases hnext : entry.nextHop = e.nextHop
        · -- the same connection, but the frames are for the other node
          rw [hnext] at hjoins'
          obtain rfl := some.inj (houtlet.symm.trans hjoins'.outlet)
          intro hsent
          have hhanded := List.map_injective_iff.mpr (some_injective _) (hopen.symm.trans hsent)
          obtain ⟨mesh, hmesh⟩ := List.exists_mem_of_ne_nil (F.replyFrames g c packet)
            (meshFrames_ne_nil _ _ _ _ _ _)
          have hother := dstId_of_mem_meshFrames (hsub.subset (hhanded ▸ hmesh))
          exact hd (hother.symm.trans (dstId_of_mem_meshFrames hmesh))
        · refine hsilent (hspared _ fun hconn => ?_)
          have hcable := hjoins.cable
          rw [hconn, hjoins'.cable] at hcable
          exact hnext (Prod.mk.inj (some.inj hcable)).1
      · rintro ⟨hop, hsome⟩
        exact hd (Prod.mk.inj (some.inj hsome)).1

theorem delivers_replyFrames_iff (packet : Bytes) :
    (∀ mesh ∈ F.replyFrames g c packet, F.Delivers g o.cell mesh) ↔ e.hops.toNat ≤ 9 := by
  have hcell := (Outlet.at_of_outlet houtlet).1
  have hdelivers :
      ∀ mesh ∈ F.replyFrames g c packet, (F.Delivers g o.cell mesh ↔ e.hops.toNat ≤ 9) := by
    intro mesh hmesh
    exact delivers_iff_hops_le F net hF hconv hg hroute hcell (.data (.tail _ (.head _)) hmesh)
  constructor
  · intro hall
    obtain ⟨mesh, hmesh⟩ := List.exists_mem_of_ne_nil (F.replyFrames g c packet)
      (meshFrames_ne_nil _ _ _ _ _ _)
    exact (hdelivers mesh hmesh).mp (hall mesh hmesh)
  · intro hops mesh hmesh
    exact (hdelivers mesh hmesh).mpr hops

theorem returned_v4_iff {externalIp : Octets 4} {t : Gateway.Inner Gateway.ConntrackKey}
    (hengine : (F.state g).gwEngine = some (externalIp, t)) {key : Gateway.ConntrackKey}
    {port : UInt16} (hserves : (gatewayEngine externalIp).Serves t () key port)
    (hreply : (gatewayEngine externalIp).replyOf reply = some (key.proto, port))
    (hihl : ipHeaderMin ≤ ihlOf reply) (hlength : reply.length ≤ 65535)
    (hreceptive : ∀ packet, rewriteDst key.origSrc key.origPort reply = .ok () packet →
      F.Receptive g c o packet) :
    F.Returned g c o
        ((gatewayEngine externalIp).translateInbound t reply (F.input g).now).1
        (Gateway.DestinationIs key reply) reply ↔
      (∃ hop, (F.tables g).lookupMeshIp (.fromOctets key.origSrc) = some (c, hop)) ∧
        e.hops.toNat ≤ 9 ∧ (F.state c).TakesReply (.fromOctets key.origSrc) := by
  have hparses := parses_of_replyOf hreply
  obtain ⟨packet, hwrite⟩ := exists_rewriteDst key.origSrc key.origPort hparses
  have hok : ((gatewayEngine externalIp).translateInbound t reply (F.input g).now).1 =
      .ok key.origSrc packet := (hserves.translateInbound_eq_ok_iff _ hreply).mpr ⟨rfl, hwrite⟩
  obtain ⟨hhead, hsame⟩ := rewriteDst_head hparses hihl hwrite
  obtain ⟨haddr, hport⟩ := rewriteDst_destination hparses (legible_of_full hparses hihl) hwrite
  have hlen : 20 ≤ reply.length := hparses.header
  have hlen' : 20 ≤ packet.length := hsame ▸ hlen
  have hversion := packetIpVersion_eq_some (by decide) hparses.ipv4
  have hversion' := packetIpVersion_eq_some (by decide) (hhead ▸ hparses.ipv4)
  have hdest : destinationField packet = .fromOctets key.origSrc := by
    rw [destinationField, haddr]
    rfl
  have hwritten := @written_iff _ _ _ F g c packet hversion' hlen'
  have hsent := sent_iff hF hconv hg hroute houtlet hengine hversion hlen hok
    (hreceptive packet hwrite).room
  have hdelivered := delivers_replyFrames_iff hF hconv hg hroute houtlet packet
  rw [hdest] at hwritten
  rw [← hsent, ← hdelivered, ← hwritten]
  constructor
  · rintro ⟨r, packet', hok', -, h⟩
    obtain ⟨-, rfl⟩ := EStateM.Result.ok.inj (hok.symm.trans hok')
    exact ⟨h.sent, h.delivered, h.written⟩
  · rintro ⟨hsent, hdelivered, hwritten⟩
    refine ⟨_, packet, hok, ⟨haddr, hport⟩, hsent, hdelivered, ?_, hwritten⟩
    intro arrivals packets hperm h
    exact received_replyFrames (hreceptive packet hwrite) (hsame.trans_le hlength) hperm h

omit hF hconv hg hroute houtlet

/-- On converged tables and working links, an IPv4 reply to a flow that a gateway serves is
written to the TUN device of a client exactly if the gateway looks up the client under the
source address of the flow, the route there has at most 9 hops and the client has no use of its
own for the packet; an IPv6 reply never is. -/
theorem reply_path_iff (hF : F.Works net) (hconv : Converged net F.tables) (hg : g ∈ net.nodes)
    (hroute : (F.tables g).routes.get c = some e)
    (houtlet : (F.state g).outlet e.nextHop = some o) :
    (∀ externalIp t key port reply, (F.state g).gwEngine = some (externalIp, t) →
      (Gateway.gatewayEngine externalIp).Serves t () key port →
      (Gateway.gatewayEngine externalIp).replyOf reply = some (key.proto, port) →
      Gateway.ipHeaderMin ≤ Gateway.ihlOf reply → reply.length ≤ 65535 →
      (∀ packet, Gateway.rewriteDst key.origSrc key.origPort reply = .ok () packet →
        F.Receptive g c o packet) →
      (F.Returned g c o
          ((Gateway.gatewayEngine externalIp).translateInbound t reply (F.input g).now).1
          (Gateway.DestinationIs key reply) reply ↔
        (∃ hop, (F.tables g).lookupMeshIp (.fromOctets key.origSrc) = some (c, hop)) ∧
          e.hops.toNat ≤ 9 ∧ (F.state c).TakesReply (.fromOctets key.origSrc))) ∧
    ∀ externalIp t key port reply, (F.state g).gwEngineV6 = some (externalIp, t) →
      (Gateway.gatewayEngineV6 externalIp).Serves t c key port →
      (Gateway.gatewayEngineV6 externalIp).replyOf reply = some (key.proto, port) →
      ¬ F.Returned g c o
        ((Gateway.gatewayEngineV6 externalIp).translateInbound t reply (F.input g).now).1
        (Gateway.DestinationIsV6 key reply) reply := by
  constructor
  · intro externalIp t key port reply hengine hserves hreply hihl hlength hreceptive
    exact returned_v4_iff hF hconv hg hroute houtlet hengine hserves hreply hihl hlength hreceptive
  · intro externalIp t key port reply _ hserves hreply
    exact not_returned_v6 hserves hreply

omit [Aes256Gcm] [X25519] [HkdfSha256] [Blake3] in
/-- Engines have no part in the links. -/
theorem Works.withEngines (hF : F.Works net)
    (engine : NodeId → Option (Octets 4 × Gateway.Inner Gateway.ConntrackKey))
    (engineV6 : NodeId → Option (Octets 16 × Gateway.Inner Gateway.ConntrackKeyV6))
    (internetLink : NodeId → Bool) :
    Works { F with state := fun u =>
      { F.state u with
        gwEngine := engine u, gwEngineV6 := engineV6 u, internetLink := internetLink u } } net where
  selfId := hF.selfId
  joins := by
    intro u v hadj
    obtain ⟨o, far, h⟩ := hF.joins u v hadj
    exact ⟨o, far, h.outlet, h.room, h.cable, h.reads, h.channel, h.allowed, h.session⟩
  routes := hF.routes
  cells := hF.cells

end Path

end Fabric

/-! ## A gateway and a client next to each other -/

section Concrete

open Transparent

def accessNodes : List NodeId := [link 0, link 1]

/-- Two neighbours. -/
def access : Topology where
  nodes := accessNodes
  nodup := by decide +kernel
  graph :=
    { Adj := fun u v => u ∈ accessNodes ∧ v ∈ accessNodes ∧ u ≠ v
      symm := ⟨fun _ _ h => ⟨h.2.1, h.1, h.2.2.symm⟩⟩
      loopless := ⟨fun _ h => h.2.2 rfl⟩ }
  mem_of_adj := fun _ _ h => h.1

def accessStart (u : NodeId) : RoutingTable :=
  (accessNodes.filter fun v => u ≠ v).foldl (fun t v => t.addPeer 0 v)
    (RoutingTable.new u false openNode.ipv4Prefix)

theorem started_accessStart : Started access accessStart := by
  intro u hu
  refine ⟨false, openNode.ipv4Prefix,
    (accessNodes.filter fun v => u ≠ v).map fun v => (0, v), ?_, ?_⟩
  · intro v
    rw [List.map_map]
    show v ∈ List.map id _ ↔ _
    rw [List.map_id, List.mem_filter, decide_eq_true_iff]
    exact (and_iff_right hu).symm
  · rw [List.foldl_map]
    rfl

theorem converged_accessStart : Converged access accessStart := by
  obtain ⟨T, hzero, hT⟩ := exists_rounds 1 started_accessStart.ready (by decide +kernel)
  have hround := hT 0 Nat.zero_lt_one
  rw [hzero] at hround
  refine started_accessStart.converged_of_adj ?_ hround
  -- a walk begins and ends at one of the two
  have hmem : ∀ u d, d ≠ u → access.graph.Reachable u d → u ∈ accessNodes := by
    rintro u d hd ⟨p⟩
    cases p with
    | nil => exact absurd rfl hd
    | cons h _ => exact h.1
  intro u d hd hreach
  exact ⟨hmem u d hd hreach, hmem d u hd.symm hreach.symm, hd.symm⟩

/-- The address of the client. -/
def clientAddr : Ipv4Addr := deriveMeshIpv4 (link 1) openNode.ipv4Prefix

/-- The flow of its query. -/
def clientFlow : Gateway.ConntrackKey := ⟨17, clientAddr.octets, 5000⟩

def clientFlowV6 : Gateway.ConntrackKeyV6 :=
  ⟨link 1, 17, ⟨[0xfd, 0, 0, 0, 0, 0, 0, 0, 0, 0, 0, 0, 0, 0, 0, 1], rfl⟩, 12345⟩

/-- The gateway has translated the query of the client. -/
def uplinkTable : Gateway.Inner Gateway.ConntrackKey :=
  (Gateway.gatewayEngine uplinkV4).run [.translateOutbound (queryFrom clientAddr) () 0]

def uplinkTableV6 : Gateway.Inner Gateway.ConntrackKeyV6 :=
  (Gateway.gatewayEngineV6 Gateway.uplinkV6).run [.translateOutbound Gateway.queryPacketV6
    (link 1) 0]

theorem serves_clientFlow :
    (gatewayEngine uplinkV4).Serves uplinkTable () clientFlow 30000 := by
  have hport : decoded ((gatewayEngine uplinkV4).translateOutbound
      ((gatewayEngine uplinkV4).run []) (queryFrom clientAddr) () 0).1 = some 30000 := by
    decide +kernel
  obtain ⟨packet', hok⟩ := decoded_eq_some hport
  exact Gateway.Engine.serves_run _ (by decide +kernel) hok

theorem serves_clientFlowV6 :
    (gatewayEngineV6 uplinkV6).Serves uplinkTableV6 (link 1) clientFlowV6 30000 := by
  have hport : decoded ((gatewayEngineV6 uplinkV6).translateOutbound
      ((gatewayEngineV6 uplinkV6).run []) queryPacketV6 (link 1) 0).1 =
        some 30000 := by
    decide +kernel
  obtain ⟨packet', hok⟩ := decoded_eq_some hport
  exact Gateway.Engine.serves_run _ (by decide +kernel) hok

/-- The first node is the gateway. -/
def accessFabric : Fabric :=
  { deployed access accessStart with
    state := fun u =>
      { (deployed access accessStart).state u with
        gwEngine := if u = link 0 then some (uplinkV4, uplinkTable) else none
        gwEngineV6 := if u = link 0 then some (Gateway.uplinkV6, uplinkTableV6) else none
        internetLink := decide (u = link 0) } }

theorem works_accessFabric : accessFabric.Works access := by
  have hnobody : ∀ u ∈ access.nodes, (accessStart u).blacklistedPeers = .empty := by
    intro u hu
    exact started_accessStart.blacklistedPeers (T := fun _ => accessStart)
      (fun i hi => absurd hi (Nat.not_lt_zero i)) hu
  exact (works_deployed hnobody).withEngines _ _ _

theorem access_linked :
    ∃ e e' o, (accessFabric.tables (link 0)).routes.get (link 1) = some e ∧ e.hops.toNat ≤ 9 ∧
      (accessFabric.tables (link 1)).routes.get (link 0) = some e' ∧
      (accessFabric.state (link 0)).outlet e.nextHop = some o ∧ o.Room 1 := by
  have hnear : ((accessStart (link 0)).routes.get (link 1)).any
      (fun e : RouteTableEntry => decide (e.hops.toNat ≤ 9)) = true := by decide +kernel
  have hback : ((accessStart (link 1)).routes.get (link 0)).isSome = true := by decide +kernel
  obtain ⟨e, he, hhops⟩ := (any_eq_true _ _).mp hnear
  obtain ⟨e', he'⟩ := isSome_iff_exists.mp hback
  have hroute := converged_accessStart.stale.route (link 0) (.head _) (link 1) e he
  obtain ⟨o, far, hjoins⟩ := works_accessFabric.joins _ _ hroute.2.2.1
  exact ⟨e, e', o, he, of_decide_eq_true hhops, he', hjoins.outlet, hjoins.room⟩

theorem replyOf_answer :
    (gatewayEngine uplinkV4).replyOf answer = some (clientFlow.proto, 30000) := by
  decide +kernel

theorem receptive_answer {o : Outlet} (hroom : o.Room 1) {packet : Bytes}
    (hwrite : rewriteDst clientFlow.origSrc clientFlow.origPort answer = .ok () packet) :
    accessFabric.Receptive (link 0) (link 1) o packet := by
  obtain ⟨-, hlength⟩ := rewriteDst_head (parses_of_replyOf replyOf_answer)
    (by decide +kernel) hwrite
  have hshort : ¬ packet.length > fragmentThreshold := by
    rw [hlength]
    decide
  refine ⟨?_, rfl⟩
  rw [Fabric.replyFrames, meshFrames, if_neg hshort]
  exact hroom

/-- The answer to the query of the client is written to its TUN device. -/
theorem reply_path_client :
    ∃ e o, accessFabric.Works access ∧ Converged access accessFabric.tables ∧
      (accessFabric.tables (link 0)).routes.get (link 1) = some e ∧
      (accessFabric.state (link 0)).outlet e.nextHop = some o ∧
      (Gateway.gatewayEngine uplinkV4).Serves uplinkTable () clientFlow 30000 ∧
      (Gateway.gatewayEngine uplinkV4).replyOf answer = some (clientFlow.proto, 30000) ∧
      accessFabric.Returned (link 0) (link 1) o
        ((Gateway.gatewayEngine uplinkV4).translateInbound uplinkTable answer 0).1
        (Gateway.DestinationIs clientFlow answer) answer := by
  obtain ⟨e, -, o, hroute, hhops, -, houtlet, hroom⟩ := access_linked
  have hlookup : ((accessStart (link 0)).lookupMeshIp (.fromOctets clientFlow.origSrc)).any
      (fun r => decide (r.1 = link 1)) = true := by decide +kernel
  obtain ⟨⟨dst, hop⟩, hfound, hdst⟩ := (any_eq_true _ _).mp hlookup
  obtain rfl : dst = link 1 := of_decide_eq_true hdst
  have hconv : Converged access accessFabric.tables := converged_accessStart
  have hengine : (accessFabric.state (link 0)).gwEngine = some (uplinkV4, uplinkTable) := by
    show (if link 0 = link 0 then some (uplinkV4, uplinkTable) else none) = _
    exact if_pos rfl
  refine ⟨e, o, works_accessFabric, hconv, hroute, houtlet, serves_clientFlow, replyOf_answer, ?_⟩
  refine ((Fabric.reply_path_iff works_accessFabric hconv (.head _) hroute houtlet).1
    uplinkV4 uplinkTable clientFlow 30000 answer hengine serves_clientFlow replyOf_answer
    (by decide +kernel) (by decide) fun packet hwrite => receptive_answer hroom hwrite).mpr ?_
  refine ⟨⟨hop, hfound⟩, hhops, fun hengine => ?_⟩
  exact absurd hengine (by decide +kernel)

/-- The answer to the query over IPv6. -/
def answerV6 : Bytes :=
  [0x60, 0, 0, 0, 0, 9, 17, 64] ++
    [0x20, 1, 0x0d, 0xb8, 0, 0, 0, 0, 0, 0, 0, 0, 0, 0, 0, 1] ++
    [0x20, 1, 0x0d, 0xb8, 0, 1, 0, 0, 0, 0, 0, 0, 0, 0, 0, 1] ++
    [0, 53, 0x75, 0x30, 0, 9, 0x12, 0x34, 0x41]

/-- The gateway translates it for the client, and the client has no output when it has the
packet. -/
theorem replyV6_dropped :
    ∃ e e' o packet, accessFabric.Works access ∧ Converged access accessFabric.tables ∧
      (accessFabric.tables (link 0)).routes.get (link 1) = some e ∧
      (accessFabric.tables (link 1)).routes.get (link 0) = some e' ∧
      (accessFabric.state (link 0)).outlet e.nextHop = some o ∧
      (Gateway.gatewayEngineV6 Gateway.uplinkV6).Serves uplinkTableV6 (link 1) clientFlowV6 30000 ∧
      (Gateway.gatewayEngineV6 Gateway.uplinkV6).replyOf answerV6 =
        some (clientFlowV6.proto, 30000) ∧
      ((Gateway.gatewayEngineV6 Gateway.uplinkV6).translateInbound uplinkTableV6 answerV6 0).1 =
        .ok (link 1) packet ∧
      ((deliverPacket (link 0) .isInternet packet).after calm
        (accessFabric.state (link 1))).outputs = [] ∧
      ¬ accessFabric.Returned (link 0) (link 1) o
        ((Gateway.gatewayEngineV6 Gateway.uplinkV6).translateInbound uplinkTableV6 answerV6 0).1
        (Gateway.DestinationIsV6 clientFlowV6 answerV6) answerV6 := by
  obtain ⟨e, e', o, hroute, -, hroute', houtlet, -⟩ := access_linked
  have hreply : (gatewayEngineV6 uplinkV6).replyOf answerV6 =
      some (clientFlowV6.proto, 30000) := by decide +kernel
  have hclient : decoded ((gatewayEngineV6 uplinkV6).translateInbound uplinkTableV6
      answerV6 0).1 = some (link 1) := by decide +kernel
  obtain ⟨packet, hok⟩ := decoded_eq_some hclient
  obtain ⟨-, hwrite⟩ := (serves_clientFlowV6.translateInbound_eq_ok_iff _ hreply).mp hok
  have hversion : packetIpVersion packet = some 6 := by
    refine packetIpVersion_eq_some (by decide) ?_
    rw [byteAt_zero_rewriteDstV6 (parsesV6_of_replyOf hreply) hwrite]
    decide
  refine ⟨e, e', o, packet, works_accessFabric, converged_accessStart, hroute, hroute', houtlet,
    serves_clientFlowV6, hreply, hok, ?_, Fabric.not_returned_v6 serves_clientFlowV6 hreply⟩
  rw [after, exec_deliverPacket_v6 calm _ (link 0) (by decide) hversion]
  rfl

end Concrete

end ProximityMesh.Daemon
