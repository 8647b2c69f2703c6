/-
  Daemon/Delivery.lean --- whether a mesh frame gets to its destination.

  Source: crates/pim-daemon/src/app/event_loop.rs (delivery and relay forwarding),
  data_plane.rs; the read task of crates/pim-transport/src/tcp.rs.

  A fabric is a mesh at rest: the state of each node when the frame gets to it, and
  where the connections lead.  A node that has the frame runs its own task, what this
  task adds to the queue of a connection is read at the far end, and the node there
  handles the frame it reads.

  On converged tables the hop count falls by one at each node, and so does the time to
  live, which starts at 8: routes of more than 9 hops lead nowhere, although the tables
  hold routes of up to 15.
-/
import ProximityMesh.Daemon.Identity
import ProximityMesh.Daemon.Outlet
import ProximityMesh.Routing.Convergence

set_option autoImplicit false

namespace ProximityMesh.Daemon

open Protocol Transport Crypto Routing ProximityMesh.Task List State Outlet DataFlags Octets HashMap

/-- The states of the nodes, what the environment supplies to each, and the far ends
of their connections. -/
structure Fabric where
  state : NodeId → State
  input : NodeId → Input
  cable : NodeId → ConnId → Option (NodeId × ConnId)

def Fabric.tables (F : Fabric) (u : NodeId) : RoutingTable := (F.state u).routing

def State.queued (s : State) (conn : ConnId) : List Bytes :=
  ((s.transport.conns.get conn).map Connection.queue).getD []

/-! ## Frames -/

/-- The mesh frames that a node originates: those in which it sends a packet, in clear,
for the internet or encrypted end to end, and routed control frames. -/
inductive Originates (selfId dstId : NodeId) : MeshDataFrame → Prop
  | data {flags : DataFlags} {payload : Bytes} {fragId : UInt32} {mesh : MeshDataFrame}
      (hflags : flags ∈ [.empty, .isInternet, DataFlags.isInternet.union .isE2e])
      (hmesh : mesh ∈ meshFrames selfId dstId 8 flags payload fragId) : Originates selfId dstId mesh
  | control (cf : ControlFrame) (hfits : cf.encode.length < 65536) :
      Originates selfId dstId ⟨selfId, dstId, 0, 8, .isControl, cf.encode⟩

theorem Originates.spec {u d : NodeId} {mesh : MeshDataFrame} (h : Originates u d mesh) :
    mesh.Encodable ∧ mesh.dstId = d ∧ mesh.sessionId = 0 ∧ mesh.ttl = 8 := by
  cases h with
  | @data flags payload fragId _ hflags hmesh =>
    have hknown : ∀ f ∈ [.empty, .isInternet, isInternet.union .isE2e],
        fromBitsTruncate f.bits = f ∧
          fromBitsTruncate (f.union .isFragment).bits = f.union .isFragment := by decide
    refine ⟨encodable_of_mem_meshFrames (hknown flags hflags).1 (hknown flags hflags).2 hmesh, ?_⟩
    unfold meshFrames at hmesh
    split at hmesh
    · obtain ⟨frag, -, rfl⟩ := mem_map.mp hmesh
      exact ⟨rfl, rfl, rfl⟩
    · obtain rfl := mem_singleton.mp hmesh
      exact ⟨rfl, rfl, rfl⟩
  | control cf hfits =>
    have hknown : fromBitsTruncate isControl.bits = .isControl := by decide
    exact ⟨⟨hfits, hknown⟩, rfl, rfl, rfl⟩

section Frames

variable [Aes256Gcm]

/-- The mesh frame in a received data frame, if the rate limit lets it pass and the
session of its peer opens it. -/
def State.opens (i : Input) (s : State) (r : Received) : Option MeshDataFrame :=
  if (s.rateLimiter.allow i.now r.peer).1 = true ∧ r.frame.frameType = .data then
    (s.session r.peer).bind fun session =>
      match (session.decryptFrame r.frame).1 with
      | .ok opened => decoded (MeshDataFrame.decode opened.payload)
      | .error _ => none
  else none

/-- The state after the session in a cell has opened a frame: what forwarding reads is
as it was, but for this session. -/
structure State.OpenedBy (s : State) (cell : Nat) (s₁ : State) : Prop where
  config : s₁.config = s.config
  routing : s₁.routing = s.routing
  sessions : s₁.sessions = s.sessions
  transport : s₁.transport = s.transport
  cells : ∀ other, other ≠ cell → s₁.cells.get other = s.cells.get other

/-! ## What a node does with a frame -/

/-- A frame that may travel on goes to the session with the next hop. -/
theorem exec_relayMesh (i : Input) {s : State} (mesh : MeshDataFrame) (h : mesh.ttl ≠ 0)
    {nextHop : NodeId} (hlookup : s.routing.lookup mesh.dstId = some nextHop) {o : Outlet}
    (hcell : s.sessions.get nextHop = some o.cell) (hat : o.At s) :
    ∃ s', exec i (relayMesh mesh) s = (s', some ()) ∧
      (o.push { mesh with sessionId := 0, ttl := mesh.ttl - 1 }).At s' ∧ o.Spares s s' := by
  obtain ⟨s', hsent, hat', hspares⟩ :=
    exec_sendSingleMesh i hat { mesh with sessionId := 0, ttl := mesh.ttl - 1 }
  refine ⟨(countForwarded mesh.payload.length).after i s', ?_,
    ⟨hat'.session, hat'.carrier, hat'.connection⟩, hspares⟩
  rw [relayMesh, if_neg h, exec_bind]
  simp only [exec_read, hlookup]
  rw [exec_bind]
  simp only [sessionRef, exec_read, hcell]
  rw [exec_bind_of_some hsent]
  rfl

variable [Sha256] [Ed25519] [X25519] [HkdfSha256] [Blake3]

/-- Handling a frame that opens is handling the mesh frame in it. -/
theorem exec_handleFrame {i : Input} {s : State} {r : Received} {mesh : MeshDataFrame}
    (h : s.opens i r = some mesh) :
    ∃ cell s₁, s.sessions.get r.peer = some cell ∧ s.OpenedBy cell s₁ ∧
      exec i (handleFrame r) s = exec i (handleMesh mesh) s₁ := by
  unfold opens at h
  split at h
  · rename_i hpass
    obtain ⟨session, hsession, h⟩ := Option.bind_eq_some_iff.mp h
    obtain ⟨cell, hcell, hsession⟩ := Option.bind_eq_some_iff.mp hsession
    refine ⟨cell, { s with
      rateLimiter := (s.rateLimiter.allow i.now r.peer).2
      cells := s.cells.insert cell (session.decryptFrame r.frame).2 }, hcell, ?_, ?_⟩
    · exact ⟨rfl, rfl, rfl, rfl, fun _ hne => get_insert_ne _ _ hne⟩
    split at h
    · rename_i opened hopened
      obtain ⟨rest, hdecode⟩ := decoded_eq_some h
      rw [handleFrame, exec_bind]
      simp only [rateLimit, exec_atomically, hpass.1, if_true, hpass.2]
      rw [handleData, exec_bind]
      simp only [sessionRef, exec_read, hcell]
      rw [exec_bind]
      simp [decryptWith, hsession, hopened, withDecoded, hdecode]
    · cases h
  · cases h

omit [Blake3] in
theorem exec_handleMesh (i : Input) {s : State} (mesh : MeshDataFrame)
    (h : mesh.dstId ≠ s.config.selfId) :
    exec i (handleMesh mesh) s = exec i (relayMesh mesh) s := by
  rw [handleMesh, exec_bind]
  simp [if_neg h]

end Frames

/-! ## From node to node -/

namespace Fabric

/-- The messages that a task of a node adds to the queue of a connection. -/
def sends (F : Fabric) (u : NodeId) (task : DaemonM Unit) (conn : ConnId) : List Bytes :=
  ((task.after (F.input u) (F.state u)).queued conn).drop ((F.state u).queued conn).length

/-- The frame that a node receives when a message arrives on a connection. -/
def hears (F : Fabric) (v : NodeId) (conn : ConnId) (wire : Bytes) : Option Received := do
  let transport ← (F.state v).transport.receive conn wire
  let transport ← transport.deliver conn
  (transport.incoming.drop (F.state v).transport.incoming.length).head?

/-- A task of node `u` makes node `v` receive a frame. -/
def Passes (F : Fabric) (u : NodeId) (task : DaemonM Unit) (v : NodeId) (r : Received) : Prop :=
  ∃ conn far wire, wire ∈ F.sends u task conn ∧ F.cable u conn = some (v, far) ∧
    F.hears v far wire = some r

theorem not_passes {F : Fabric} {u v : NodeId} {task : DaemonM Unit} {r : Received}
    (h : ∀ conn, (task.after (F.input u) (F.state u)).transport.conns.get conn =
      (F.state u).transport.conns.get conn) : ¬ F.Passes u task v r := by
  rintro ⟨conn, far, wire, hwire, -, -⟩
  rw [sends, queued, queued, h conn, drop_length] at hwire
  cases hwire

/-- Node `u` can send a frame to node `v`: it has a session and a connection with room
for one more frame, which leads to a connection of `v`; there it is tagged with `u`,
within the rate limit, and opened by a session under the same key. -/
structure Joins (F : Fabric) (u v : NodeId) (o : Outlet) (far : ConnId) : Prop where
  outlet : (F.state u).outlet v = some o
  room : o.Room 1
  cable : F.cable u o.conn = some (v, far)
  reads : ∃ c, (F.state v).transport.conns.get far = some c ∧ c.currentId = u ∧ c.buf = [] ∧
    c.reading = true
  channel : (F.state v).transport.incoming.length < TcpTransport.incomingCapacity
  allowed : ((F.state v).rateLimiter.allow (F.input v).now u).1 = true
  session : ∃ session, (F.state v).session u = some session ∧
    session.recv.cipher = o.session.send.cipher ∧
      (session.recv.lastRecvCounter = noFrameReceived ∨ session.recv.lastRecvCounter <
        SessionCipher.nonceCounter (o.session.send.buildNonce o.session.send.counter))

section Links

variable [Aes256Gcm] {F : Fabric} {u v : NodeId} {o : Outlet} {far : ConnId} {mesh : MeshDataFrame}

theorem Joins.hears (h : F.Joins u v o far) (hmesh : mesh.Encodable) :
    F.hears v far (o.session.wireFor mesh) = some ⟨far, u, o.session.frameFor mesh.encode⟩ := by
  obtain ⟨c, hc, rfl, hbuf, hreading⟩ := h.reads
  obtain ⟨rest, hwire⟩ := decoded_eq_some (decoded_wireFor o.session hmesh)
  obtain ⟨rest', hframe⟩ := decoded_eq_some (decoded_encode_frameFor o.session hmesh)
  obtain ⟨t₁, t₂, hreceive, hdeliver, hincoming⟩ :=
    TcpTransport.incoming_of_receive_deliver hc hbuf hreading h.channel hwire hframe
  rw [Fabric.hears, hreceive, Option.bind_eq_bind, Option.bind_some, hdeliver, Option.bind_some,
    hincoming, drop_left]
  rfl

theorem Joins.opens (h : F.Joins u v o far) (hmesh : mesh.Encodable) :
    (F.state v).opens (F.input v) ⟨far, u, o.session.frameFor mesh.encode⟩ = some mesh := by
  obtain ⟨session, hsession, hcipher, hfresh⟩ := h.session
  have hopen : Aes256Gcm.gcmOpen session.recv.cipher (o.session.frameFor mesh.encode).nonce
      (o.session.frameFor mesh.encode).payload (o.session.frameFor mesh.encode).tag =
        some mesh.encode := by
    rw [hcipher]
    exact gcmOpen_frameFor o.session hmesh
  have haccepts : session.Accepts (o.session.frameFor mesh.encode) := by
    refine ⟨hfresh, ?_⟩
    rw [hopen]
    rfl
  obtain ⟨payload, hdecrypt⟩ := Session.decryptFrame_of_accepts haccepts
  have hpayload : payload = mesh.encode := by
    have hopened := Session.gcmOpen_of_decryptFrame (congrArg Prod.fst hdecrypt)
    rw [hopen] at hopened
    exact (Option.some.inj hopened).symm
  rw [State.opens, if_pos ⟨h.allowed, rfl⟩, hsession, Option.bind_some, hdecrypt, hpayload]
  show decoded (MeshDataFrame.decode mesh.encode) = some mesh
  rw [MeshDataFrame.decode_encode hmesh, decoded]

/-- A task that pushes one mesh frame makes the other end receive it, and nobody else
receives anything. -/
theorem Joins.passes_iff (h : F.Joins u v o far) (hmesh : mesh.Encodable) (task : DaemonM Unit)
    (hat : (o.push mesh).At (task.after (F.input u) (F.state u)))
    (hspares : o.Spares (F.state u) (task.after (F.input u) (F.state u))) {w : NodeId}
    {r : Received} :
    F.Passes u task w r ↔ w = v ∧ r = ⟨far, u, o.session.frameFor mesh.encode⟩ := by
  have hbefore := (at_of_outlet h.outlet).2.connection
  have hsends : F.sends u task o.conn = [o.session.wireFor mesh] := by
    have hafter := hat.connection
    rw [push, if_pos (h.room.takes hmesh)] at hafter
    rw [sends, queued, queued, hbefore, hafter]
    exact drop_left
  constructor
  · rintro ⟨conn, far', wire, hwire, hcable, hhears⟩
    have hconn : conn = o.conn := by
      by_contra hne
      rw [sends, queued, queued, hspares conn hne, drop_length] at hwire
      cases hwire
    subst hconn
    rw [hsends] at hwire
    obtain rfl := mem_singleton.mp hwire
    rw [h.cable] at hcable
    cases hcable
    rw [h.hears hmesh] at hhears
    exact ⟨rfl, (Option.some.inj hhears).symm⟩
  · rintro ⟨rfl, rfl⟩
    refine ⟨o.conn, far, o.session.wireFor mesh, ?_, h.cable, h.hears hmesh⟩
    rw [hsends]
    exact mem_singleton_self _

end Links

/-! ## Along a route -/

section Routes

variable [Aes256Gcm] [Sha256] [Ed25519] [X25519] [HkdfSha256] [Blake3]

/-- The mesh frame gets to its destination, up to its time to live, when a node
handles a received frame. -/
inductive Arrives (F : Fabric) (mesh : MeshDataFrame) : NodeId → Received → Prop
  | here {v : NodeId} {r : Received} (ttl : UInt8) (hdst : mesh.dstId = v)
      (hopens : (F.state v).opens (F.input v) r = some { mesh with ttl := ttl }) :
        Arrives F mesh v r
  | onward {v w : NodeId} {r r' : Received} (hpass : F.Passes v (handleFrame r) w r')
      (h : Arrives F mesh w r') : Arrives F mesh v r

/-- The mesh frame gets to its destination when a node sends it over a session. -/
def Delivers (F : Fabric) (u : NodeId) (cell : Nat) (mesh : MeshDataFrame) : Prop :=
  ∃ v r, F.Passes u (sendSingleMesh cell mesh) v r ∧ F.Arrives mesh v r

/-- No link of the graph fails: every node can send to its neighbours and routes over
them. -/
structure Works (F : Fabric) (net : Topology) : Prop where
  selfId : ∀ u ∈ net.nodes, (F.state u).config.selfId = u
  joins : ∀ u v, net.graph.Adj u v → ∃ o far, F.Joins u v o far
  routes : ∀ u v, net.graph.Adj u v → (F.state u).routing.isBlacklisted v = false
  cells : ∀ u v w cell, (F.state u).sessions.get v = some cell →
    (F.state u).sessions.get w = some cell → v = w

variable {F : Fabric} {net : Topology} {u v : NodeId} {o o' : Outlet} {far far' : ConnId}
  {mesh : MeshDataFrame} {e : RouteTableEntry} {t : UInt8}

omit [Aes256Gcm] [X25519] [HkdfSha256] in
/-- A node looks up the next hop of the route in its table. -/
theorem Works.lookup (hF : F.Works net) (hconv : Converged net F.tables) (hv : v ∈ net.nodes)
    {d : NodeId} (he : (F.tables v).routes.get d = some e) :
    (F.tables v).lookup d = some e.nextHop := by
  have hself : d ≠ (F.tables v).selfId := by
    rintro rfl
    rw [hconv.stale.selfId v hv, hconv.stale.noSelf v hv] at he
    cases he
  have hallowed : (F.tables v).blacklistedPeers.contains e.nextHop = false :=
    hF.routes v e.nextHop (hconv.stale.route v hv d e he).2.2.1
  rw [RoutingTable.lookup, if_neg hself, he, Option.filter, hallowed]
  rfl

omit [Sha256] [Ed25519] [X25519] [HkdfSha256] [Blake3] in
/-- A frame that is sent over a session is received at the other end of the link. -/
theorem Joins.passes_send_iff (h : F.Joins u v o far) (hmesh : mesh.Encodable) {w : NodeId}
    {r : Received} :
    F.Passes u (sendSingleMesh o.cell mesh) w r ↔
      w = v ∧ r = ⟨far, u, o.session.frameFor mesh.encode⟩ := by
  obtain ⟨-, hat⟩ := at_of_outlet h.outlet
  obtain ⟨s', hsent, hpush, hspares⟩ := exec_sendSingleMesh (F.input u) hat mesh
  have hafter : (sendSingleMesh o.cell mesh).after (F.input u) (F.state u) = s' :=
    congrArg Prod.fst hsent
  rw [← hafter] at hpush hspares
  exact h.passes_iff hmesh _ hpush hspares

/-- A relay hands the frame to the next hop, whatever is in it, with its time to live counted
down, unless that is used up. -/
theorem passes_relay_iff (hself : (F.state v).config.selfId = v) (hmesh : mesh.Encodable)
    (hjoins : F.Joins u v o far) (hdst : mesh.dstId ≠ v) {next : NodeId}
    (hlookup : (F.tables v).lookup mesh.dstId = some next) (hnext : F.Joins v next o' far')
    (hcells : (F.state v).sessions.get u ≠ some o'.cell) {w : NodeId} {r : Received} :
    F.Passes v (handleFrame ⟨far, u, o.session.frameFor mesh.encode⟩) w r ↔
      mesh.ttl ≠ 0 ∧ w = next ∧ r = ⟨far', v, o'.session.frameFor
        ({ mesh with sessionId := 0, ttl := mesh.ttl - 1 }).encode⟩ := by
  obtain ⟨cell, s₁, hcell, hopened, hexec⟩ := exec_handleFrame (hjoins.opens hmesh)
  have hother : mesh.dstId ≠ s₁.config.selfId := by
    rw [hopened.config, hself]
    exact hdst
  replace hexec := hexec.trans (exec_handleMesh (F.input v) mesh hother)
  by_cases ht : mesh.ttl = 0
  · rw [relayMesh, if_pos ht] at hexec
    refine iff_of_false (not_passes fun conn => ?_) fun h => h.1 ht
    rw [Task.after, hexec]
    show s₁.transport.conns.get conn = _
    rw [hopened.transport]
  · -- the session of the next hop is another one than that which opened the frame
    obtain ⟨hcell', hat'⟩ := at_of_outlet hnext.outlet
    have hne : o'.cell ≠ cell := by
      rintro rfl
      exact hcells hcell
    have hat : o'.At s₁ := by
      refine ⟨(hopened.cells _ hne).trans hat'.session, ?_, ?_⟩
      · rw [carrier, hopened.transport]
        exact hat'.carrier
      · rw [hopened.transport]
        exact hat'.connection
    rw [tables, ← hopened.routing] at hlookup
    rw [← hopened.sessions] at hcell'
    obtain ⟨s', hsent, hpush, hspares⟩ := exec_relayMesh (F.input v) mesh ht hlookup hcell' hat
    have hafter : after (F.input v) _ (F.state v) = s' := congrArg Prod.fst (hexec.trans hsent)
    rw [← hafter] at hpush
    rw [Outlet.Spares, ← hafter, hopened.transport] at hspares
    have hencodable : MeshDataFrame.Encodable { mesh with sessionId := 0, ttl := mesh.ttl - 1 } :=
      ⟨hmesh.payload_lt, hmesh.flags_known⟩
    rw [hnext.passes_iff hencodable _ hpush hspares, and_iff_right ht]

theorem arrives_relay_iff (hself : (F.state v).config.selfId = v) (hmesh : mesh.Encodable)
    (hsession : mesh.sessionId = 0) (hjoins : F.Joins u v o far) (hdst : mesh.dstId ≠ v)
    {next : NodeId} (hlookup : (F.tables v).lookup mesh.dstId = some next)
    (hnext : F.Joins v next o' far') (hcells : (F.state v).sessions.get u ≠ some o'.cell) :
    F.Arrives mesh v ⟨far, u, o.session.frameFor ({ mesh with ttl := t }).encode⟩ ↔
      t ≠ 0 ∧ F.Arrives mesh next
        ⟨far', v, o'.session.frameFor ({ mesh with ttl := t - 1 }).encode⟩ := by
  have hpasses {w : NodeId} {r : Received} :=
    @passes_relay_iff _ _ _ _ _ _ F u v o o' far far' { mesh with ttl := t } hself
      ⟨hmesh.payload_lt, hmesh.flags_known⟩ hjoins hdst next hlookup hnext hcells w r
  have hrelays : ({ mesh with sessionId := 0, ttl := t - 1 } : MeshDataFrame) =
      { mesh with ttl := t - 1 } := by rw [← hsession]
  rw [hrelays] at hpasses
  constructor
  · intro harrives
    cases harrives with
    | here ttl hhere _ => exact absurd hhere hdst
    | onward hpass hrest =>
      obtain ⟨ht, rfl, rfl⟩ := hpasses.mp hpass
      exact ⟨ht, hrest⟩
  · rintro ⟨ht, hrest⟩
    exact .onward (hpasses.mpr ⟨ht, rfl, rfl⟩) hrest

/-- Sent to the next hop of a route, the frame arrives if the route takes at most one
hop more than the time to live. -/
theorem arrives_next_iff (hF : F.Works net) (hconv : Converged net F.tables)
    (hmesh : mesh.Encodable) (hsession : mesh.sessionId = 0) (hv : v ∈ net.nodes)
    (he : (F.tables v).routes.get mesh.dstId = some e) (hnext : F.Joins v e.nextHop o far) :
    F.Arrives mesh e.nextHop ⟨far, v, o.session.frameFor ({ mesh with ttl := t }).encode⟩ ↔
      e.hops.toNat ≤ t.toNat + 1 := by
  -- by induction on the length of the route, which falls by one at each
  induction hlen : e.hops.toNat using Nat.strong_induction_on generalizing v e o far t with
  | _ hops ih =>
    subst hlen
    rcases hconv.hop hv he with ⟨hlast, hone⟩ | ⟨e', he', hhops⟩
    · refine iff_of_true (.here t hlast.symm (hnext.opens ⟨hmesh.payload_lt, hmesh.flags_known⟩)) ?_
      omega
    · have hw : e.nextHop ∈ net.nodes :=
        net.mem_of_adj _ _ (hconv.stale.route v hv _ e he).2.2.1.symm
      have hdst : mesh.dstId ≠ e.nextHop := by
        intro hdst
        rw [hdst, hconv.stale.noSelf _ hw] at he'
        cases he'
      obtain ⟨hpos, -, hadj', -⟩ := hconv.stale.route _ hw _ e' he'
      have hback : e'.nextHop ≠ v := by
        intro hback
        rcases hconv.hop hw he' with ⟨hdst', -⟩ | ⟨e'', he'', hhops'⟩
        · rw [← hdst', hback, hconv.stale.noSelf v hv] at he
          cases he
        · rw [hback, he] at he''
          cases he''
          omega
      obtain ⟨o', far', hnext'⟩ := hF.joins _ _ hadj'
      have hcells : (F.state e.nextHop).sessions.get v ≠ some o'.cell := fun hcell =>
        hback (hF.cells _ _ _ _ (at_of_outlet hnext'.outlet).1 hcell)
      rw [arrives_relay_iff (hF.selfId _ hw) hmesh hsession hnext hdst
        (hF.lookup hconv hw he') hnext'
        hcells, ih e'.hops.toNat (by omega) hw he' hnext' rfl, hhops]
      rcases Decidable.em (t = 0) with rfl | hne
      · refine iff_of_false (fun h => h.1 rfl) ?_
        rw [UInt8.toNat_zero]
        omega
      · rw [MeshDataFrame.toNat_ttl_pred hne, and_iff_right hne]
        exact Nat.succ_le_succ_iff.symm

/-- A frame that a node sends along its route arrives if the route takes at most one hop
more than the time to live. -/
theorem delivers_iff (hF : F.Works net) (hconv : Converged net F.tables) (hmesh : mesh.Encodable)
    (hsession : mesh.sessionId = 0) (hu : u ∈ net.nodes)
    (he : (F.tables u).routes.get mesh.dstId = some e) {cell : Nat}
    (hcell : (F.state u).sessions.get e.nextHop = some cell) :
    F.Delivers u cell mesh ↔ e.hops.toNat ≤ mesh.ttl.toNat + 1 := by
  obtain ⟨o, far, hnext⟩ := hF.joins _ _ (hconv.stale.route u hu _ e he).2.2.1
  obtain rfl := Option.some.inj ((at_of_outlet hnext.outlet).1.symm.trans hcell)
  rw [← arrives_next_iff hF hconv hmesh hsession hu he hnext]
  constructor
  · rintro ⟨w, r, hpass, hrest⟩
    obtain ⟨rfl, rfl⟩ := (hnext.passes_send_iff hmesh).mp hpass
    exact hrest
  · intro hrest
    exact ⟨_, _, (hnext.passes_send_iff hmesh).mpr ⟨rfl, rfl⟩, hrest⟩

/-- On converged tables and working links, a frame that a node originates for a
destination in its table gets there if and only if the route has at most 9 hops. -/
theorem delivers_iff_hops_le (F : Fabric) (net : Topology) (hF : F.Works net)
    (hconv : Converged net F.tables) {u d : NodeId} (hu : u ∈ net.nodes) {e : RouteTableEntry}
    (he : (F.tables u).routes.get d = some e) {cell : Nat}
    (hcell : (F.state u).sessions.get e.nextHop = some cell) {mesh : MeshDataFrame}
    (hmesh : Originates u d mesh) : F.Delivers u cell mesh ↔ e.hops.toNat ≤ 9 := by
  obtain ⟨hencodable, rfl, hsession, httl⟩ := hmesh.spec
  have hdelivers := delivers_iff hF hconv hencodable hsession hu he hcell
  rw [httl] at hdelivers
  exact hdelivers

end Routes

end Fabric

/-! ## Eleven nodes in a chain -/

section Concrete

open Transparent

def number (v : NodeId) : Nat := beNat v.bytes.toList

theorem number_injective : Function.Injective number := by
  intro v w h
  have hlength : v.bytes.toList.length = w.bytes.toList.length := by
    rw [List.Vector.toList_length, List.Vector.toList_length]
  have hbytes := ext (beNat_inj hlength h)
  exact congrArg NodeId.mk hbytes

/-- Each node has a session with each other one, all under one key, over connections
that are numbered by the node at the other end. -/
def deployed (net : Topology) (T : NodeId → RoutingTable) : Fabric where
  state u :=
    { openNode.state with
      config := { openNode.config with signingKey := u.bytes.append (Octets.zero 16) }
      transport :=
        { TcpTransport.new u with
          peers := .collect id (fun v => ⟨number v, somewhere⟩) net.nodes
          conns := .collect number (fun v => ⟨v, [], [], true, true⟩) net.nodes }
      sessions := .collect id number net.nodes
      cells := .collect number (fun v => Session.new v (Octets.zero 32) true) net.nodes
      routing := T u }
  input _ := calm
  cable u := (HashMap.collect number (fun v => (v, number u)) net.nodes).get

theorem get_collect_number {V : Type} (value : NodeId → V) {nodes : List NodeId} {v : NodeId}
    (hv : v ∈ nodes) : (collect number value nodes).get (number v) = some (value v) := by
  rw [get_collect number_injective, if_pos hv]

theorem get_collect_id {V : Type} (value : NodeId → V) {nodes : List NodeId} {v : NodeId}
    (hv : v ∈ nodes) : (collect id value nodes).get v = some (value v) := by
  have hget := get_collect Function.injective_id value nodes v
  rw [if_pos hv] at hget
  exact hget

theorem works_deployed {net : Topology} {T : NodeId → RoutingTable}
    (hT : ∀ u ∈ net.nodes, (T u).blacklistedPeers = .empty) : (deployed net T).Works net where
  selfId := by
    intro u _
    -- a node id is the start of its own key
    have hbytes : (((u.bytes.append (zero 16)).toList ++ replicate 32 0).take
        32).take 16 = u.bytes.toList := by
      rw [take_take]
      show ((u.bytes.toList ++ (zero 16).toList) ++ replicate 32 0).take 16 = _
      rw [append_assoc]
      exact take_left' (List.Vector.toList_length u.bytes)
    exact congrArg NodeId.mk (ext hbytes)
  joins := by
    intro u v hadj
    have hu := net.mem_of_adj u v hadj
    have hv := net.mem_of_adj v u hadj.symm
    refine ⟨⟨number v, Session.new v (zero 32) true, number v, v, [], [], true, true⟩,
      number u, ?_, ⟨rfl, ?_, ?_⟩, get_collect_number _ hv,
      ⟨_, get_collect_number _ hu, rfl, rfl, rfl⟩, ?_, ?_, Session.new u (zero 32) true, ?_, rfl,
        .inl rfl⟩
    · have hcarrier : ((deployed net T).state u).carrier v = some (number v) :=
        Option.map_eq_some_iff.mpr ⟨_, get_collect_id _ hv, rfl⟩
      exact outlet_of_at (get_collect_id _ hv)
        ⟨get_collect_number _ hv, hcarrier, get_collect_number _ hv⟩
    · show 0 + 1 ≤ 64
      omega
    · show 0 + 1 ≤ 4294967294
      omega
    · show 0 < 256
      omega
    · show (RateLimiter.default.allow 0 u).1 = true
      simp [RateLimiter.allow, RateLimiter.default, TokenBucket.tryConsume, TokenBucket.new]
    · exact Option.bind_eq_some_iff.mpr ⟨_, get_collect_id _ hu, get_collect_number _ hu⟩
  routes := by
    intro u v hadj
    show (T u).blacklistedPeers.contains v = false
    rw [hT u (net.mem_of_adj u v hadj)]
    rfl
  cells := by
    intro u v w cell hv hw
    have hnumber : ∀ x, ((deployed net T).state u).sessions.get x = some cell →
        number x = cell := by
      intro x hx
      have hget := hx.symm.trans (get_collect Function.injective_id number net.nodes x)
      split at hget
      · exact (Option.some.inj hget).symm
      · cases hget
    exact number_injective ((hnumber v hv).trans (hnumber w hw).symm)

/-- The nodes of a chain, in order. -/
def link (k : Nat) : NodeId := Routing.RoutingTable.nodeOf (UInt8.ofNat k)

def place (u : NodeId) : Nat := (byteAt u.bytes.toList 0).toNat

def chainNodes : List NodeId := (List.range 11).map link

/-- A chain of eleven nodes. -/
def chain : Topology where
  nodes := chainNodes
  nodup := by decide +kernel
  graph :=
    { Adj := fun u v => u ∈ chainNodes ∧ v ∈ chainNodes ∧
      (place u + 1 = place v ∨ place v + 1 = place u)
      symm := ⟨fun _ _ h => ⟨h.2.1, h.1, h.2.2.symm⟩⟩
      loopless := ⟨fun _ h => by omega⟩ }
  mem_of_adj := fun _ _ h => h.1

theorem place_link {k : Nat} (hk : k < 11) : place (link k) = k := by
  exact UInt8.toNat_ofNat_of_lt' (hk.trans (by decide))

theorem link_mem {k : Nat} (hk : k < 11) : link k ∈ chain.nodes :=
  mem_map_of_mem (mem_range.mpr hk)

theorem adj_link {k : Nat} (hk : k + 1 < 11) : chain.graph.Adj (link k) (link (k + 1)) := by
  refine ⟨link_mem (by omega), link_mem hk, .inl ?_⟩
  rw [place_link (by omega), place_link hk]

/-- No walk gets ahead faster than one place a step. -/
theorem place_le_of_walk {u v : NodeId} (p : chain.graph.Walk u v) :
    place v ≤ place u + p.length := by
  induction p with
  | nil => exact Nat.le_refl _
  | cons h p ih =>
    have hstep := h.2.2
    rw [SimpleGraph.Walk.length_cons]
    omega

theorem edist_link {k : Nat} (hk : k < 11) : chain.graph.edist (link 0) (link k) = k := by
  refine le_antisymm ?_ ?_
  · suffices h : ∃ p : chain.graph.Walk (link 0) (link k), p.length = k by
      obtain ⟨p, hp⟩ := h
      exact p.edist_le.trans_eq (by rw [hp])
    induction k with
    | zero => exact ⟨.nil, rfl⟩
    | succ k ih =>
      obtain ⟨p, hp⟩ := ih (by omega)
      refine ⟨p.concat (adj_link hk), ?_⟩
      rw [SimpleGraph.Walk.length_concat, hp]
  · refine le_iInf fun p => ?_
    have hle := place_le_of_walk p
    rw [place_link hk, place_link (by decide), Nat.zero_add] at hle
    exact_mod_cast hle

/-- Fresh tables with the neighbours added. -/
def chainStart (u : NodeId) : RoutingTable :=
  (chainNodes.filter fun v => u ∈ chainNodes ∧
    (place u + 1 = place v ∨ place v + 1 = place u)).foldl
    (fun t v => t.addPeer 0 v) (RoutingTable.new u false openNode.ipv4Prefix)

theorem started_chainStart : Started chain chainStart := by
  intro u _
  refine ⟨false, openNode.ipv4Prefix, (chainNodes.filter fun v =>
    u ∈ chainNodes ∧ (place u + 1 = place v ∨ place v + 1 = place u)).map fun v => (0, v), ?_, ?_⟩
  · intro v
    rw [map_map]
    show v ∈ map id _ ↔ _
    rw [map_id, mem_filter, decide_eq_true_iff]
    exact and_left_comm
  · rw [foldl_map]
    rfl

/-- Converged tables of the chain, in which the first node has a route to every other
one, as long as the way there. -/
theorem exists_converged_chain :
    ∃ T, Converged chain T ∧ (∀ u ∈ chain.nodes, (T u).blacklistedPeers = .empty) ∧
      ∀ k, 0 < k → k < 11 → ∃ e, (T (link 0)).routes.get (link k) = some e ∧ e.hops.toNat = k := by
  obtain ⟨T, hzero, hT⟩ := exists_rounds 15 started_chainStart.ready (by decide +kernel)
  have hstart : Started chain (T 0) := by
    rw [hzero]
    exact started_chainStart
  have hT' : ∀ i < 14, SyncRound chain (T i) (T (i + 1)) := fun i hi => hT i (by omega)
  refine ⟨T 14, hstart.converged (Nat.le_refl 14) hT,
    fun u hu => hstart.blacklistedPeers hT' hu, ?_⟩
  intro k hpos hk
  have hne : link k ≠ link 0 := by
    intro heq
    have hplace := congrArg place heq
    rw [place_link hk, place_link (by decide)] at hplace
    omega
  obtain ⟨hsome, hspec⟩ :=
    routes_exact_after_rounds chain T 14 hstart hT' (link_mem (by decide)) hne
  rw [edist_link hk] at hsome hspec
  obtain ⟨e, he⟩ := Option.isSome_iff_exists.mp
    (hsome.mpr (by exact_mod_cast (by omega : k ≤ min (14 + 1) 15)))
  exact ⟨e, he, by exact_mod_cast (hspec e he).1⟩

/-- A packet of one byte. -/
def shortFrame (k : Nat) : MeshDataFrame := ⟨link 0, link k, 0, 8, .empty, [7]⟩

theorem originates_shortFrame (k : Nat) : Originates (link 0) (link k) (shortFrame k) := by
  have hmesh : shortFrame k ∈ meshFrames (link 0) (link k) 8 .empty [7] 0 := mem_singleton_self _
  exact .data mem_cons_self hmesh

theorem session_deployed {T : NodeId → RoutingTable} (hT : Converged chain T) {u d : NodeId}
    (hu : u ∈ chain.nodes) {e : RouteTableEntry} (he : (T u).routes.get d = some e) :
    ((deployed chain T).state u).sessions.get e.nextHop = some (number e.nextHop) :=
  get_collect_id _ (chain.mem_of_adj _ _ (hT.stale.route u hu d e he).2.2.1.symm)

/-- Nine hops are not too many. -/
theorem delivers_iff_hops_le_chain :
    ∃ F : Fabric, F.Works chain ∧ Converged chain F.tables ∧
      ∃ e cell, (F.tables (link 0)).routes.get (link 9) = some e ∧ e.hops.toNat = 9 ∧
        F.Delivers (link 0) cell (shortFrame 9) := by
  obtain ⟨T, hconv, hblacklist, hroutes⟩ := exists_converged_chain
  obtain ⟨e, he, hhops⟩ := hroutes 9 (by decide) (by decide)
  have hu : link 0 ∈ chain.nodes := link_mem (by decide)
  refine ⟨deployed chain T, works_deployed hblacklist, hconv, e, number e.nextHop, he, hhops, ?_⟩
  exact (Fabric.delivers_iff_hops_le (deployed chain T) chain
    (works_deployed hblacklist) hconv hu he
    (session_deployed hconv hu he) (originates_shortFrame 9)).mpr hhops.le

/-- Ten hops are: the route is there, and no frame that the first node originates for
the last one gets through. -/
theorem chain_drops_frames :
    ∃ F : Fabric, F.Works chain ∧ Converged chain F.tables ∧
      ∃ e cell, (F.tables (link 0)).routes.get (link 10) = some e ∧ e.hops.toNat = 10 ∧
        (F.state (link 0)).sessions.get e.nextHop = some cell ∧
        Originates (link 0) (link 10) (shortFrame 10) ∧
        ¬ F.Delivers (link 0) cell (shortFrame 10) := by
  obtain ⟨T, hconv, hblacklist, hroutes⟩ := exists_converged_chain
  obtain ⟨e, he, hhops⟩ := hroutes 10 (by decide) (by decide)
  have hu : link 0 ∈ chain.nodes := link_mem (by decide)
  have hcell := session_deployed hconv hu he
  refine ⟨deployed chain T, works_deployed hblacklist, hconv, e, number e.nextHop, he, hhops, hcell,
    originates_shortFrame 10, ?_⟩
  rw [Fabric.delivers_iff (works_deployed hblacklist) hconv
    (originates_shortFrame 10).spec.1 rfl hu he hcell, hhops]
  decide

end Concrete

end ProximityMesh.Daemon
