/-
  Routing/Mesh.lean --- routing tables exchanging advertisements over links that
  only appear.

  A state is the table of every node and every frame sent so far.  A node calls
  `add_peer` for a new neighbour, generates an advertisement for a neighbour, or
  applies a frame that was sent to it; a frame may be applied in any order with
  others, any number of times or never.  Nodes that take no step keep a fresh
  table, so a run involves any finite set of nodes.

  Each step is a step of the distance-vector protocol (`Step.net`), and loop
  freedom is read off its invariant.
-/
import ProximityMesh.DistanceVector.LoopFreedom
import ProximityMesh.Routing.Refinement

set_option autoImplicit false

namespace ProximityMesh.Routing

open Protocol DistanceVector RoutingTable

/-- The same advertisement up to the order of its entries, which the iteration
order of the route map decides, and up to its signature. -/
structure Reordered (sent frame : RouteUpdateFrame) : Prop where
  origin : sent.originId = frame.originId
  sequence : sent.sequence = frame.sequence
  entries : sent.entries.Perm frame.entries

theorem Reordered.refl (frame : RouteUpdateFrame) : Reordered frame frame := ⟨rfl, rfl, .refl _⟩

/-- The tables of all nodes, and the frames sent so far with their addressees. -/
structure Mesh where
  table : NodeId → RoutingTable
  sent : Set (NodeId × RouteUpdateFrame)

namespace Mesh

/-- Fresh tables; nodes may differ in role and prefix. -/
def fresh (isGateway : NodeId → Bool) (pre : NodeId → Ipv4Prefix) : Mesh :=
  ⟨fun u => RoutingTable.new u (isGateway u) (pre u), ∅⟩

def setTable (M : Mesh) (u : NodeId) (t : RoutingTable) : Mesh :=
  { M with table := Function.update M.table u t }

/-- The links, each known to at least one of its ends. -/
def graph (M : Mesh) : SimpleGraph NodeId :=
  SimpleGraph.fromRel fun u v => (M.table u).directPeers.contains v

section Runs

variable [Blake3]

inductive Step : Mesh → Mesh → Prop
  | addPeer {M : Mesh} {u v : NodeId} (now : Nat) (h : v ≠ u) :
      Step M (M.setTable u ((M.table u).addPeer now v))
  | advertise {M : Mesh} {u v : NodeId} {t' : RoutingTable} {frame sent : RouteUpdateFrame}
      (hpeer : (M.table u).directPeers.contains v)
      (hgen : (M.table u).generateAdvertisement v = some (t', frame))
      (hsent : Reordered sent frame) :
      Step M { M.setTable u t' with sent := insert (v, sent) M.sent }
  | receive {M : Mesh} {u : NodeId} {frame : RouteUpdateFrame} (now : Nat)
      (h : (u, frame) ∈ M.sent) :
      Step M (M.setTable u ((M.table u).applyUpdate now frame frame.originId).1)

/-- A run of any number of steps. -/
abbrev Run : Mesh → Mesh → Prop := Relation.ReflTransGen Step

/-- Following `next_hop` from `u` leads to `d`, and at every node on the way the
stored hop count for `d` is smaller than at the node before. -/
inductive Descends (M : Mesh) (d : NodeId) : NodeId → Prop
  | last {u : NodeId} {e : RouteTableEntry} (he : (M.table u).routes.get d = some e)
      (hnext : e.nextHop = d) : Descends M d u
  | hop {u : NodeId} {e e' : RouteTableEntry} (he : (M.table u).routes.get d = some e)
      (he' : (M.table e.nextHop).routes.get d = some e') (hlt : e'.hops < e.hops)
      (hrest : Descends M d e.nextHop) : Descends M d u

/-! ## Simulation -/

/-- The mesh as a network of the distance-vector protocol. -/
def net (M : Mesh) : Net NodeId :=
  ⟨fun u => (M.table u).view, (fun s => (s.1, toAdvert s.2)) '' M.sent⟩

/-- Tables are well formed and owned by their node, frames are honest and not
addressed to their sender. -/
structure Good (M : Mesh) : Prop where
  table : ∀ u, (M.table u).Wf ∧ (M.table u).selfId = u
  sent : ∀ s ∈ M.sent, Honest s.2 ∧ s.2.originId ≠ s.1
  peers : ∀ u v, (M.table u).directPeers.contains v → v ≠ u

omit [Blake3] in
theorem good_fresh (isGateway : NodeId → Bool) (pre : NodeId → Ipv4Prefix) :
    (fresh isGateway pre).Good where
  table := fun u => ⟨wf_new u (isGateway u) (pre u), rfl⟩
  sent := fun _ h => h.elim
  peers := fun _ _ h => nomatch h

omit [Blake3] in
theorem net_fresh (isGateway : NodeId → Bool) (pre : NodeId → Ipv4Prefix) :
    (fresh isGateway pre).net = Net.fresh := by
  unfold net fresh Net.fresh
  rw [Set.image_empty]
  exact congrArg (fun node => Net.mk node ∅) (funext fun u => view_new u (isGateway u) (pre u))

omit [Blake3] in
theorem net_setTable (M : Mesh) (u : NodeId) (t : RoutingTable) :
    (M.setTable u t).net = { M.net with node := Function.update M.net.node u t.view } :=
  congrArg (fun node => Net.mk node M.net.pool) (Function.comp_update view M.table u t)

omit [Blake3] in
/-- A new table for one node, well formed and with the same owner, keeps the
mesh good. -/
theorem Good.setTable {M : Mesh} (hg : M.Good) {u : NodeId} {t : RoutingTable} (hwf : t.Wf)
    (hself : t.selfId = u) (hpeers : ∀ v, t.directPeers.contains v → v ≠ u) :
    (M.setTable u t).Good where
  table := by
    intro w
    by_cases hw : w = u
    · subst hw
      simpa [Mesh.setTable] using ⟨hwf, hself⟩
    · simpa [Mesh.setTable, hw] using hg.table w
  sent := hg.sent
  peers := by
    intro w v hv
    by_cases hw : w = u
    · subst hw
      exact hpeers v (by simpa [Mesh.setTable] using hv)
    · exact hg.peers w v (by simpa [Mesh.setTable, hw] using hv)

/-- Every step of the mesh is a step of the protocol. -/
theorem Step.net {M M' : Mesh} (h : Step M M') (hg : M.Good) :
    Net.Step 16 M.net M'.net ∧ M'.Good := by
  cases h with
  | @addPeer u v now huv =>
    obtain ⟨hwf, hself⟩ := hg.table u
    refine ⟨?_, hg.setTable (wf_addPeer hwf (by rw [hself]; exact huv) now) hself ?_⟩
    · rw [net_setTable, view_addPeer]
      exact Net.Step.connect huv
    · intro w hw
      have hw' : ((HashMap.insert (M.table u).directPeers v ()).get w).isSome := hw
      obtain ⟨u₀, hmember⟩ := Option.isSome_iff_exists.mp hw'
      rcases HashMap.get_insert_cases hmember with ⟨rfl, -⟩ | ⟨-, hold⟩
      · exact huv
      · exact hg.peers u w (Option.isSome_iff_exists.mpr ⟨u₀, hold⟩)
  | @advertise u v t' frame sent hpeer hgen hsent =>
    obtain ⟨hwf, hself⟩ := hg.table u
    have hadvert : toAdvert sent =
        (M.net.node u).advert 16 u v ((M.net.node u).seq + 1) := by
      rw [toAdvert_generateAdvertisement hwf hgen hsent.origin hsent.sequence hsent.entries, hself]
      rfl
    have hview := view_generateAdvertisement hgen
    obtain ⟨s, -, rfl, hid, -⟩ := generateAdvertisement_eq_some hgen
    have hgood := hg.setTable (t := { M.table u with sequence := s })
      ⟨hwf.self, hwf.entry⟩ hself (hg.peers u)
    refine ⟨?_, hgood.table, ?_, hgood.peers⟩
    · have hnet : ({ M.setTable u { M.table u with sequence := s } with
          sent := insert (v, sent) M.sent } : Mesh).net = M.net.send 16 u v := by
        unfold Net.send
        rw [← hadvert]
        unfold Mesh.net
        rw [Set.image_insert_eq]
        congr 1
        rw [← hview]
        exact Function.comp_update view M.table u _
      rw [hnet]
      exact Net.Step.send hpeer
    · rintro x (rfl | hold)
      · refine ⟨honest_of_perm hwf hgen hsent.origin hsent.entries, ?_⟩
        rw [hsent.origin, hid, hself]
        exact (hg.peers u v hpeer).symm
      · exact hg.sent x hold
  | @receive u frame now hmem =>
    obtain ⟨hwf, hself⟩ := hg.table u
    obtain ⟨hhonest, hne⟩ := hg.sent _ hmem
    have hne' : frame.originId ≠ (M.table u).selfId := by
      rw [hself]
      exact hne
    obtain ⟨hwf', hself'⟩ := wf_applyUpdate hwf hne' now
    have hview := view_applyUpdate hwf hne' hhonest now
    refine ⟨?_, hg.setTable hwf' (hself'.trans hself) ?_⟩
    · rw [net_setTable, hview, hself]
      exact Net.Step.deliver ⟨(u, frame), hmem, rfl⟩
    · intro v hv
      have hpeers : v ∈ ((M.table u).applyUpdate now frame frame.originId).1.view.peers := hv
      rw [hview, receive_peers] at hpeers
      exact hg.peers u v hpeers

theorem Run.net {M M' : Mesh} (h : Run M M') (hg : M.Good) :
    Relation.ReflTransGen (Net.Step 16) M.net M'.net ∧ M'.Good := by
  induction h with
  | refl => exact ⟨.refl, hg⟩
  | tail _ hstep ih =>
    obtain ⟨hrun, hg'⟩ := ih
    obtain ⟨hnext, hg''⟩ := hstep.net hg'
    exact ⟨hrun.tail hnext, hg''⟩

/-! ## Loop freedom -/

omit [Blake3] in
theorem routes_net {M : Mesh} {u d : NodeId} {e : RouteTableEntry}
    (he : (M.table u).routes.get d = some e) : (M.net.node u).routes d = some e.core :=
  congrArg (Option.map RouteTableEntry.core) he

omit [Blake3] in
theorem routes_of_net {M : Mesh} {u d : NodeId} {r : Route NodeId}
    (hr : (M.net.node u).routes d = some r) :
    ∃ e, (M.table u).routes.get d = some e ∧ e.core = r :=
  Option.map_eq_some_iff.mp hr

omit [Blake3] in
/-- Where hop counts fall from each node to its next hop, following next hops
ends at the destination. -/
theorem descends_of_inv {M : Mesh} (hi : Net.Inv 16 M.net) {d u : NodeId} {e : RouteTableEntry}
    (he : (M.table u).routes.get d = some e) : M.Descends d u := by
  induction hn : e.hops.toNat using Nat.strong_induction_on generalizing u e with
  | _ n ih =>
    subst hn
    rcases hi.nextHop_closer (routes_net he) with hd | ⟨r', hr', hlt⟩
    · exact .last he hd
    · obtain ⟨e', he', rfl⟩ := routes_of_net hr'
      exact .hop he he' (UInt8.lt_iff_toNat_lt.mpr hlt) (ih _ hlt he' rfl)

/-- In every run from fresh tables a route is never lost or lengthened, it is
never shorter than the distance in the current graph, and following it leads to
the destination with hop counts that fall at every step. -/
theorem hops_monotone_and_descending (isGateway : NodeId → Bool) (pre : NodeId → Ipv4Prefix)
    {M M' : Mesh} (h : Run (fresh isGateway pre) M) (h' : Run M M') {u d : NodeId}
    {e : RouteTableEntry} (he : (M.table u).routes.get d = some e) :
    (∃ e', (M'.table u).routes.get d = some e' ∧ e'.hops ≤ e.hops) ∧
      M.graph.edist u d ≤ e.hops.toNat ∧ M.Descends d u := by
  obtain ⟨hrun, hgood⟩ := h.net (good_fresh isGateway pre)
  rw [net_fresh] at hrun
  obtain ⟨-, hinv⟩ := Net.run_grows_and_inv (by decide) hrun Net.inv_fresh
  obtain ⟨hgrows, -⟩ := Net.run_grows_and_inv (by decide) (h'.net hgood).1 hinv
  refine ⟨?_, hinv.edist_le (routes_net he), descends_of_inv hinv he⟩
  obtain ⟨r', hr', hle⟩ := hgrows.within u d _ ⟨e.core, routes_net he, le_rfl⟩
  obtain ⟨e', he', rfl⟩ := routes_of_net hr'
  exact ⟨e', he', UInt8.le_iff_toNat_le.mpr hle⟩

end Runs

/-! ### A relay between two nodes -/

section Relay

attribute [local instance] transparentBlake3

/-- Node 2 has added nodes 1 and 3. -/
def linkedMesh : Mesh :=
  let M := fresh (fun _ => false) fun _ => defaultPrefix
  let M := M.setTable (nodeOf 2) ((M.table (nodeOf 2)).addPeer 0 (nodeOf 1))
  M.setTable (nodeOf 2) ((M.table (nodeOf 2)).addPeer 0 (nodeOf 3))

theorem linkedMesh_advertises :
    ((linkedMesh.table (nodeOf 2)).generateAdvertisement (nodeOf 1)).isSome := by
  decide +kernel

/-- What node 2 advertises to node 1, and its table afterwards. -/
def relayAdvertisement : RoutingTable × RouteUpdateFrame :=
  ((linkedMesh.table (nodeOf 2)).generateAdvertisement (nodeOf 1)).get linkedMesh_advertises

/-- Node 1 has received the advertisement of node 2. -/
def relayMesh : Mesh :=
  let M := { linkedMesh.setTable (nodeOf 2) relayAdvertisement.1 with
    sent := insert (nodeOf 1, relayAdvertisement.2) linkedMesh.sent }
  M.setTable (nodeOf 1) ((M.table (nodeOf 1)).applyUpdate 1 relayAdvertisement.2
    relayAdvertisement.2.originId).1

theorem run_relayMesh : Run (fresh (fun _ => false) fun _ => defaultPrefix) relayMesh := by
  have hlinked : Run (fresh (fun _ => false) fun _ => defaultPrefix) linkedMesh :=
    (Relation.ReflTransGen.single (.addPeer 0 (by decide +kernel))).tail
      (.addPeer 0 (by decide +kernel))
  have hgen : (linkedMesh.table (nodeOf 2)).generateAdvertisement (nodeOf 1) =
      some (relayAdvertisement.1, relayAdvertisement.2) :=
        (Option.some_get linkedMesh_advertises).symm
  have hsent := hlinked.tail (.advertise (by decide +kernel) hgen (Reordered.refl _))
  exact hsent.tail (.receive 1 (Set.mem_insert _ _))

theorem hops_monotone_and_descending_relay :
    ∃ e, (relayMesh.table (nodeOf 1)).routes.get (nodeOf 3) = some e ∧ e.hops = 2 ∧
      relayMesh.graph.edist (nodeOf 1) (nodeOf 3) ≤ 2 ∧
      relayMesh.Descends (nodeOf 3) (nodeOf 1) := by
  have hsome : ((relayMesh.table (nodeOf 1)).routes.get (nodeOf 3)).isSome := by decide +kernel
  obtain ⟨e, he⟩ := Option.isSome_iff_exists.mp hsome
  have hhops : ((relayMesh.table (nodeOf 1)).routes.get (nodeOf 3)).map RouteTableEntry.hops =
      some 2 := by decide +kernel
  have htwo : e.hops = 2 := by
    rw [he] at hhops
    exact Option.some.inj hhops
  obtain ⟨-, hdist, hpath⟩ :=
    hops_monotone_and_descending _ _ run_relayMesh Relation.ReflTransGen.refl he
  rw [htwo] at hdist
  exact ⟨e, he, htwo, hdist, hpath⟩

end Relay

end Mesh

end ProximityMesh.Routing
