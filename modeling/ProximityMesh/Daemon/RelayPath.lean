/-
  Daemon/RelayPath.lean --- a mesh frame on a path of relays.

  Source: crates/pim-daemon/src/app/event_loop.rs (decryption and relay forwarding),
  `send_single_mesh` of crates/pim-daemon/src/data_plane.rs, `encrypt_frame` and
  `decrypt_frame` of crates/pim-daemon/src/session.rs.

  Each link has a session of its own, so the frame is opened and sealed anew at every
  relay.  What a relay changes is the time to live and the session id.
-/
import ProximityMesh.Daemon.Delivery

set_option autoImplicit false

namespace ProximityMesh.Daemon

open Protocol Transport Crypto Routing ProximityMesh.Task

namespace Fabric

section Travel

variable [Aes256Gcm] [Sha256] [Ed25519] [X25519] [HkdfSha256] [Blake3]

/-- A node looks its neighbour up for a destination and can send to it; no two of its sessions
share a cell. -/
structure Hop (F : Fabric) (d u v : NodeId) : Prop where
  selfId : (F.state u).config.selfId = u
  lookup : (F.tables u).lookup d = some v
  joins : ∃ o far, F.Joins u v o far
  cells : ∀ x y cell, (F.state u).sessions.get x = some cell →
    (F.state u).sessions.get y = some cell → x = y

/-- A simple path to a destination. -/
structure Line (F : Fabric) (d : NodeId) (path : List NodeId) : Prop where
  hops : path.IsChain (F.Hop d)
  simple : path.Nodup
  last : path.getLast? = some d

/-- A task of a node makes the next one receive a frame, which handles it, and so on; the last
node of the path receives `r`. -/
inductive Travels (F : Fabric) : NodeId → DaemonM Unit → List NodeId → Received → Prop
  | last {u v : NodeId} {task : DaemonM Unit} {r : Received} (hpass : F.Passes u task v r) :
      Travels F u task [v] r
  | relay {u v : NodeId} {task : DaemonM Unit} {path : List NodeId} {r r' : Received}
      (hpass : F.Passes u task v r') (h : Travels F v (handleFrame r') path r) :
      Travels F u task (v :: path) r

/-- The same frame, but for the time to live, which has been counted down, and the session id. -/
structure SameFrame (sent received : MeshDataFrame) (hops : Nat) : Prop where
  srcId : received.srcId = sent.srcId
  dstId : received.dstId = sent.dstId
  flags : received.flags = sent.flags
  payload : received.payload = sent.payload
  ttl : received.ttl.toNat + hops = sent.ttl.toNat

variable {F : Fabric} {d : NodeId}

/-- From a node that the frame is handed to the relays take it to the end of the path. -/
theorem travels_of_passes {path : List NodeId} {u v : NodeId} {task : DaemonM Unit} {o : Outlet}
    {far : ConnId} {mesh : MeshDataFrame} (hline : F.Line d (u :: v :: path))
    (hjoins : F.Joins u v o far) (hmesh : mesh.Encodable) (hdst : mesh.dstId = d)
    (httl : path.length ≤ mesh.ttl.toNat)
    (hpass : F.Passes u task v ⟨far, u, o.session.frameFor mesh.encode⟩) :
    ∃ r frame, F.Travels u task (v :: path) r ∧ (F.state d).opens (F.input d) r = some frame ∧
      SameFrame mesh frame path.length := by
  -- by induction on the relays that are left
  induction path generalizing u v task o far mesh with
  | nil =>
    obtain rfl : v = d := Option.some.inj hline.last
    exact ⟨_, mesh, .last hpass, hjoins.opens hmesh, rfl, rfl, rfl, rfl, rfl⟩
  | cons w path ih =>
    obtain ⟨hhop, hhops⟩ := List.isChain_cons_cons.mp (List.isChain_cons_cons.mp hline.hops).2
    obtain ⟨hfirst, hsimple⟩ := List.nodup_cons.mp hline.simple
    have hrest : F.Line d (v :: w :: path) :=
      ⟨(List.isChain_cons_cons.mp hline.hops).2, hsimple, hline.last⟩
    obtain ⟨o', far', hnext⟩ := hhop.joins
    -- the destination is behind the relay, and the next hop is not where the frame comes from
    have hdst' : mesh.dstId ≠ v := by
      rintro heq
      refine (List.nodup_cons.mp hsimple).1 ?_
      rw [← heq, hdst]
      exact List.mem_of_getLast? hline.last
    have hcells : (F.state v).sessions.get u ≠ some o'.cell := by
      intro hcell
      obtain rfl := hhop.cells _ _ _ (Outlet.at_of_outlet hnext.outlet).1 hcell
      exact hfirst (.tail _ (.head _))
    have httl' : mesh.ttl ≠ 0 := by
      rintro hzero
      rw [hzero] at httl
      exact absurd httl (by simp)
    have hcount := MeshDataFrame.toNat_ttl_pred httl'
    rw [List.length_cons] at httl ⊢
    have hpass' := (passes_relay_iff hhop.selfId hmesh hjoins hdst' (hdst ▸ hhop.lookup) hnext
      hcells).mpr ⟨httl', rfl, rfl⟩
    have hleft : path.length ≤ (mesh.ttl - 1).toNat := by omega
    have hencodable : MeshDataFrame.Encodable { mesh with sessionId := 0, ttl := mesh.ttl - 1 } :=
      ⟨hmesh.payload_lt, hmesh.flags_known⟩
    obtain ⟨r, frame, htravels, hopens, hsame⟩ :=
      ih hrest hnext hencodable hdst hleft hpass'
    have hspent : frame.ttl.toNat + path.length = (mesh.ttl - 1).toNat := hsame.ttl
    exact ⟨r, frame, .relay hpass htravels, hopens, hsame.srcId, hsame.dstId, hsame.flags,
      hsame.payload, by omega⟩

/-- A frame that is sent along a simple path, with a time to live of at least the number of
relays, is opened at the destination as it was sent, but for the time to live, which every relay
has counted down. -/
theorem relay_transparent (F : Fabric) {s v d : NodeId} {relays : List NodeId}
    (hline : F.Line d (s :: v :: relays)) {cell : Nat}
    (hcell : (F.state s).sessions.get v = some cell) {mesh : MeshDataFrame}
    (hmesh : mesh.Encodable) (hdst : mesh.dstId = d) (httl : relays.length ≤ mesh.ttl.toNat) :
    ∃ r frame, F.Travels s (sendSingleMesh cell mesh) (v :: relays) r ∧
      (F.state d).opens (F.input d) r = some frame ∧ SameFrame mesh frame relays.length := by
  obtain ⟨o, far, hjoins⟩ := (List.isChain_cons_cons.mp hline.hops).1.joins
  obtain rfl := Option.some.inj ((Outlet.at_of_outlet hjoins.outlet).1.symm.trans hcell)
  exact travels_of_passes hline hjoins hmesh hdst httl
    ((hjoins.passes_send_iff hmesh).mpr ⟨rfl, rfl⟩)

end Travel

end Fabric

section Concrete

open Transparent

/-- The first two nodes of the chain look the next one up for the third. -/
def towardsThird (u : NodeId) : RoutingTable :=
  { RoutingTable.new u false openNode.ipv4Prefix with
    routes := HashMap.empty.insert (link 2)
      ⟨link (place u + 1), 1, false, 0, link 1, 0, 0, none, none⟩ }

theorem relay_transparent_chain :
    ∃ r frame, (deployed chain towardsThird).Travels (link 0)
        (sendSingleMesh (number (link 1)) (shortFrame 2)) [link 1, link 2] r ∧
      ((deployed chain towardsThird).state (link 2)).opens calm r = some frame ∧
      Fabric.SameFrame (shortFrame 2) frame 1 := by
  have hworks : (deployed chain towardsThird).Works chain := works_deployed fun _ _ => rfl
  have hhop (k : Nat) (hk : k < 2)
      (hlookup : (towardsThird (link k)).lookup (link 2) = some (link (k + 1))) :
      (deployed chain towardsThird).Hop (link 2) (link k) (link (k + 1)) :=
    ⟨hworks.selfId _ (link_mem (hk.trans (by decide))), hlookup,
      hworks.joins _ _ (adj_link (by omega)), hworks.cells _⟩
  refine Fabric.relay_transparent _ ⟨?_, by decide +kernel, rfl⟩
    (get_collect_id _ (link_mem (by decide))) (originates_shortFrame 2).spec.1 rfl (by decide)
  exact .cons_cons (hhop 0 (by decide) (by decide +kernel))
    (.cons_cons (hhop 1 (by decide) (by decide +kernel)) (.singleton _))

end Concrete

end ProximityMesh.Daemon
