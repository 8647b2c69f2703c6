/-
  Routing/Convergence.lean --- synchronous rounds of routing tables over a fixed
  graph.

  In a round every node runs `generate_all_advertisements` on its table at the
  start of the round, and all frames are then applied at their addressees in any
  order.  `SyncRound.round` shows that a round of tables is a round of the
  distance-vector protocol; exact convergence from fresh tables and
  stabilisation from arbitrary ones are its two theorems.

  A round in which a sequence counter overflows does not complete, so it is not
  a round here.
-/
import ProximityMesh.DistanceVector.Rounds
import ProximityMesh.Routing.Mesh

set_option autoImplicit false

namespace ProximityMesh.Routing

open Protocol DistanceVector RoutingTable List

/-- A finite undirected graph of nodes. -/
structure Topology where
  nodes : List NodeId
  nodup : nodes.Nodup
  graph : SimpleGraph NodeId
  mem_of_adj : ∀ u v, graph.Adj u v → u ∈ nodes

/-- A frame on its way: the time of its arrival, its addressee, and the frame. -/
structure Delivery where
  now : Nat
  dest : NodeId
  frame : RouteUpdateFrame

/-- Generating for all direct peers, in any order of the peers and of the
entries of each frame. -/
def GeneratesAll (t t' : RoutingTable) (sent : List (NodeId × RouteUpdateFrame)) : Prop :=
  ∃ peers frames, peers.Perm t.directPeers.keys ∧ t.generateFor peers = some (t', frames) ∧
    List.Forall₂ (fun s f => s.1 = f.1 ∧ Reordered s.2 f.2) sent frames

section Deliver

variable [Blake3]

/-- A frame is applied at its addressee, as coming from its origin. -/
def deliver (T : NodeId → RoutingTable) (m : Delivery) : NodeId → RoutingTable :=
  Function.update T m.dest ((T m.dest).applyUpdate m.now m.frame m.frame.originId).1

/-- A synchronous round: everybody generates, then everything is delivered. -/
def SyncRound (net : Topology) (T T' : NodeId → RoutingTable) : Prop :=
  ∃ (T₁ : NodeId → RoutingTable) (sent : NodeId → List (NodeId × RouteUpdateFrame))
      (deliveries : List Delivery),
    (∀ u ∈ net.nodes, GeneratesAll (T u) (T₁ u) (sent u)) ∧
    (deliveries.map fun m => (m.dest, m.frame)).Perm (net.nodes.flatMap sent) ∧
    T' = deliveries.foldl deliver T₁

/-- Fresh tables on which `add_peer` was called for every neighbour, in any
order. -/
def Started (net : Topology) (T : NodeId → RoutingTable) : Prop :=
  ∀ u ∈ net.nodes, ∃ (isGateway : Bool) (pre : Ipv4Prefix) (calls : List (Nat × NodeId)),
    (∀ v, v ∈ calls.map Prod.snd ↔ net.graph.Adj u v) ∧
    T u = calls.foldl (fun t c => t.addPeer c.1 c.2) (RoutingTable.new u isGateway pre)

end Deliver

/-- What is asked of the tables before the first round: direct peers are the
neighbours, and routes go to neighbours whose sequence numbers have been seen.
Nothing is asked about where the routes lead. -/
structure Stale (net : Topology) (T : NodeId → RoutingTable) : Prop where
  selfId : ∀ u ∈ net.nodes, (T u).selfId = u
  peers : ∀ u ∈ net.nodes, ∀ v, (T u).directPeers.contains v ↔ net.graph.Adj u v
  noSelf : ∀ u ∈ net.nodes, (T u).routes.get u = none
  route : ∀ u ∈ net.nodes, ∀ d e, (T u).routes.get d = some e →
    1 ≤ e.hops.toNat ∧ e.hops.toNat ≤ 15 ∧ net.graph.Adj u e.nextHop ∧
      e.learnedFrom = e.nextHop ∧ e.sequence ≤ ((T u).peerMaxSeq.get e.nextHop).getD 0
  maxSeq : ∀ u ∈ net.nodes, ∀ v, net.graph.Adj u v →
    ((T u).peerMaxSeq.get v).getD 0 ≤ (T v).sequence

/-! ## Generating -/

/-- Generating for a list of peers: the table changes in its counter only, and
each frame is generated from the routes of the start under a new number. -/
theorem generateFor_spec {peers : List NodeId} {t t' : RoutingTable}
    {frames : List (NodeId × RouteUpdateFrame)} (h : t.generateFor peers = some (t', frames)) :
    (∃ s, t' = { t with sequence := s }) ∧ t.sequence.toNat ≤ t'.sequence.toNat ∧
      frames.map Prod.fst = peers ∧
      ∀ f ∈ frames, f.2.sequence.toNat ≤ t'.sequence.toNat ∧
        ∃ s t₂, t.sequence.toNat ≤ s.toNat ∧
          ({ t with sequence := s } : RoutingTable).generateAdvertisement f.1 = some (t₂, f.2) := by
  obtain ⟨htable, hcount⟩ := generateFor_counts h
  refine ⟨⟨t'.sequence, htable⟩, by omega, ?_⟩
  clear htable hcount
  induction peers generalizing t frames with
  | nil =>
    obtain ⟨rfl, rfl⟩ : t = t' ∧ [] = frames := by simpa [generateFor] using h
    exact ⟨rfl, fun _ hf => absurd hf not_mem_nil⟩
  | cons peer peers ih =>
    obtain ⟨⟨t₁, frame⟩, hgen, h⟩ := Option.bind_eq_some_iff.mp h
    obtain ⟨⟨t₂, rest⟩, hrest, h⟩ := Option.bind_eq_some_iff.mp h
    obtain ⟨rfl, rfl⟩ : t₂ = t' ∧ (peer, frame) :: rest = frames := by simpa using h
    obtain ⟨s, hs, rfl, -, hseq, -⟩ := generateAdvertisement_eq_some hgen
    have hlt := toNat_nextSequence hs
    have hcount : t₂.sequence.toNat = s.toNat + peers.length := (generateFor_counts hrest).2
    obtain ⟨hpeers, hframes⟩ := ih hrest
    refine ⟨by rw [← hpeers]; rfl, ?_⟩
    intro f hf
    rcases mem_cons.mp hf with rfl | hf
    · refine ⟨?_, t.sequence, _, le_rfl, hgen⟩
      rw [hseq, hcount]
      exact Nat.le_add_right _ _
    · obtain ⟨hf', s₁, t₃, hs₁, hgen'⟩ := hframes f hf
      have hs₁' : s.toNat ≤ s₁.toNat := hs₁
      exact ⟨hf', s₁, t₃, by omega, hgen'⟩

/-- What a node sends in a round, in terms of its view at the start. -/
theorem generatesAll_spec {t t' : RoutingTable} {sent : List (NodeId × RouteUpdateFrame)}
    (h : GeneratesAll t t' sent) (hwf : t.Wf) :
    (∃ s, t' = { t with sequence := s }) ∧ t.sequence.toNat ≤ t'.sequence.toNat ∧
      (sent.map Prod.fst).Perm t.directPeers.keys ∧
      ∀ f ∈ sent, Honest f.2 ∧ f.2.originId = t.selfId ∧
        (toAdvert f.2).offer = t.view.offer 16 t.selfId f.1 ∧
        t.sequence.toNat < f.2.sequence.toNat ∧ f.2.sequence.toNat ≤ t'.sequence.toNat := by
  obtain ⟨peers, frames, hperm, hgen, hsent⟩ := h
  obtain ⟨htable, hle, hpeers, hframes⟩ := generateFor_spec hgen
  have hfst : sent.map Prod.fst = frames.map Prod.fst := by
    rw [← forall₂_eq_eq_eq, forall₂_map_left_iff, forall₂_map_right_iff]
    exact hsent.imp fun _ _ h => h.1
  refine ⟨htable, hle, by rw [hfst, hpeers]; exact hperm, fun f hf => ?_⟩
  obtain ⟨g, hg, hfg, hreordered⟩ : ∃ g ∈ frames, f.1 = g.1 ∧ Reordered f.2 g.2 := by
    obtain ⟨⟨i, hi⟩, rfl⟩ := get_of_mem hf
    exact ⟨_, get_mem _ _, hsent.get hi (hsent.length_eq ▸ hi)⟩
  obtain ⟨hseq, s, t₂, hs, hgen'⟩ := hframes g hg
  obtain ⟨s', hs', -, hid, hsent', -⟩ := generateAdvertisement_eq_some hgen'
  have hwf' : ({ t with sequence := s } : RoutingTable).Wf := ⟨hwf.self, hwf.entry⟩
  have hadvert := toAdvert_generateAdvertisement hwf' hgen' hreordered.origin hreordered.sequence
    hreordered.entries
  have hlt : s'.toNat = s.toNat + 1 := toNat_nextSequence hs'
  refine ⟨honest_of_perm hwf' hgen' hreordered.origin hreordered.entries,
    hreordered.origin.trans hid, ?_, ?_, by rw [hreordered.sequence]; exact hseq⟩
  · rw [hadvert, hfg]
    rfl
  · rw [hreordered.sequence, hsent']
    omega

/-! ## Delivering -/

section Deliveries

variable [Blake3]

/-- Deliveries reach a node in the order they have among the frames for it. -/
theorem foldl_deliver (deliveries : List Delivery) (T : NodeId → RoutingTable) (u : NodeId) :
    deliveries.foldl deliver T u =
      (deliveries.filter fun m => m.dest = u).foldl
        (fun t m => (t.applyUpdate m.now m.frame m.frame.originId).1) (T u) := by
  induction deliveries generalizing T with
  | nil => rfl
  | cons m deliveries ih =>
    rw [foldl_cons, ih]
    by_cases hm : m.dest = u
    · subst hm
      simp [deliver]
    · simp [deliver, hm, Ne.symm hm]

/-- A node that applies honest frames of others receives their advertisements. -/
theorem view_foldl_applyUpdate {u : NodeId} {ms : List Delivery}
    (hms : ∀ m ∈ ms, Honest m.frame ∧ m.frame.originId ≠ u) :
    ∀ {t : RoutingTable}, t.Wf → t.selfId = u →
      let t' := ms.foldl (fun t m => (t.applyUpdate m.now m.frame m.frame.originId).1) t
      t'.view = t.view.receiveAll 16 u (ms.map fun m => toAdvert m.frame) ∧ t'.Wf ∧
        t'.selfId = u := by
  induction ms with
  | nil => intro t hwf hself; exact ⟨rfl, hwf, hself⟩
  | cons m ms ih =>
    intro t hwf hself
    obtain ⟨hhonest, hne⟩ := hms m mem_cons_self
    have hne' : m.frame.originId ≠ t.selfId := by rw [hself]; exact hne
    obtain ⟨hwf', hself'⟩ := wf_applyUpdate hwf hne' m.now
    obtain ⟨hview, hrest⟩ := ih (fun m' hm' => hms m' (mem_cons_of_mem _ hm')) hwf'
      (hself'.trans hself)
    refine ⟨hview.trans ?_, hrest⟩
    rw [view_applyUpdate hwf hne' hhonest m.now, hself]
    rfl

end Deliveries

/-! ## A round of tables is a round of the protocol -/

/-- The tables of the graph's nodes are well formed, owned by their node, and
have the neighbours as direct peers. -/
structure Ready (net : Topology) (T : NodeId → RoutingTable) : Prop where
  wf : ∀ u ∈ net.nodes, (T u).Wf
  selfId : ∀ u ∈ net.nodes, (T u).selfId = u
  peers : ∀ u ∈ net.nodes, ∀ v, v ∈ (T u).view.peers ↔ net.graph.Adj u v

/-- The protocol state; what is not a node of the graph stays fresh. -/
def state (net : Topology) (T : NodeId → RoutingTable) (u : NodeId) : Node NodeId :=
  if u ∈ net.nodes then (T u).view else Node.fresh

theorem state_of_mem {net : Topology} {T : NodeId → RoutingTable} {u : NodeId}
    (hu : u ∈ net.nodes) : state net T u = (T u).view := if_pos hu

section Rounds

variable [Blake3] {net : Topology} {T T' T₁ : NodeId → RoutingTable}
  {sent : NodeId → List (NodeId × RouteUpdateFrame)} {deliveries : List Delivery}

variable (hready : Ready net T) (hgen : ∀ u ∈ net.nodes, GeneratesAll (T u) (T₁ u) (sent u))

include hready hgen

omit [Blake3] in
/-- No two deliveries have one sender and one addressee. -/
theorem nodup_links : ((net.nodes.flatMap sent).map fun s => (s.1, s.2.originId)).Nodup := by
  rw [map_flatMap, nodup_flatMap]
  have horigin : ∀ u ∈ net.nodes, ∀ s ∈ sent u, s.2.originId = u := by
    intro u hu s hs
    exact ((generatesAll_spec (hgen u hu) (hready.wf u hu)).2.2.2 s hs).2.1.trans
      (hready.selfId u hu)
  constructor
  · intro u hu
    have hkeys : ((sent u).map Prod.fst).Nodup :=
      (generatesAll_spec (hgen u hu) (hready.wf u hu)).2.2.1.nodup_iff.mpr (HashMap.nodup_keys _)
    refine List.Nodup.of_map Prod.fst ?_
    rw [map_map]
    exact hkeys
  · refine net.nodup.imp_of_mem fun {u v} hu hv huv => ?_
    intro x hx hx'
    obtain ⟨s, hs, rfl⟩ := mem_map.mp hx
    obtain ⟨s', hs', heq⟩ := mem_map.mp hx'
    have hsame : s'.2.originId = s.2.originId := congrArg Prod.snd heq
    rw [horigin u hu s hs, horigin v hv s' hs'] at hsame
    exact huv hsame.symm

variable (hperm : (deliveries.map fun m => (m.dest, m.frame)).Perm (net.nodes.flatMap sent))

include hperm

omit [Blake3] in
/-- What is delivered was made by a neighbour at the start of the round. -/
theorem delivered_spec {m : Delivery} (hm : m ∈ deliveries) :
    Honest m.frame ∧ m.frame.originId ∈ net.nodes ∧
      net.graph.Adj m.frame.originId m.dest ∧
      (toAdvert m.frame).offer =
        (state net T m.frame.originId).offer 16 m.frame.originId m.dest ∧
      (T m.frame.originId).sequence.toNat < m.frame.sequence.toNat ∧
      m.frame.sequence.toNat ≤ (T₁ m.frame.originId).sequence.toNat := by
  have hmem : (m.dest, m.frame) ∈ net.nodes.flatMap sent :=
    hperm.mem_iff.mp (mem_map_of_mem hm)
  obtain ⟨w, hw, hs⟩ := mem_flatMap.mp hmem
  obtain ⟨-, -, hkeys, hspec⟩ := generatesAll_spec (hgen w hw) (hready.wf w hw)
  obtain ⟨hhonest, horigin, hoffer, hlt, hle⟩ := hspec _ hs
  have horigin' : m.frame.originId = w := horigin.trans (hready.selfId w hw)
  rw [hready.selfId w hw] at hoffer
  have hpeer : m.dest ∈ (T w).directPeers.keys :=
    hkeys.mem_iff.mp (mem_map_of_mem hs)
  rw [horigin', state_of_mem hw]
  exact ⟨hhonest, hw, (hready.peers w hw m.dest).mp ((HashMap.mem_keys _ _).mp hpeer), hoffer,
    hlt, hle⟩

variable {u : NodeId}

/-- The table of a node after the deliveries of a round. -/
theorem view_foldl_deliver (hu : u ∈ net.nodes) : let t' := deliveries.foldl deliver T₁ u
    t'.view = { (state net T u).receiveAll 16 u
        ((deliveries.filter fun m => m.dest = u).map fun m => toAdvert m.frame) with
        seq := (T₁ u).sequence.toNat } ∧ t'.Wf ∧ t'.selfId = u := by
  intro t'
  obtain ⟨⟨s, hs⟩, -⟩ := generatesAll_spec (hgen u hu) (hready.wf u hu)
  have hms : ∀ m ∈ deliveries.filter (fun m => m.dest = u),
      Honest m.frame ∧ m.frame.originId ≠ u := by
    intro m hm
    obtain ⟨hmem, hdest⟩ := mem_filter.mp hm
    obtain ⟨hhonest, -, hadj, -⟩ := delivered_spec hready hgen hperm hmem
    rw [of_decide_eq_true hdest] at hadj
    exact ⟨hhonest, hadj.ne⟩
  have hwf₁ : (T₁ u).Wf := by
    rw [hs]
    exact ⟨(hready.wf u hu).self, (hready.wf u hu).entry⟩
  have hself₁ : (T₁ u).selfId = u := by
    rw [hs]
    exact hready.selfId u hu
  have hview₁ : (T₁ u).view = { (T u).view with seq := (T₁ u).sequence.toNat } := by
    rw [hs]
    rfl
  obtain ⟨hview, hrest⟩ := view_foldl_applyUpdate hms hwf₁ hself₁
  have hfold : t' = _ := foldl_deliver deliveries T₁ u
  rw [hfold]
  refine ⟨?_, hrest⟩
  rw [hview, hview₁, receiveAll_withSeq, state_of_mem hu]

/-- The frames for one node: one of each neighbour, made at the start of the
round. -/
theorem roundAt_of_deliveries (hu : u ∈ net.nodes) :
    RoundAt 16 net.graph (state net T) (state net (deliveries.foldl deliver T₁)) u
      ((deliveries.filter fun m => m.dest = u).map fun m => toAdvert m.frame) := by
  have hview := (view_foldl_deliver hready hgen hperm hu).1
  have hspec : ∀ m ∈ deliveries, _ := fun m hm => delivered_spec hready hgen hperm hm
  refine ⟨?_, ?_, ?_, ?_, ?_, ?_⟩
  · have hpairs : (deliveries.map fun m => (m.dest, m.frame.originId)).Nodup := by
      have hlinks := (hperm.map fun s => (s.1, s.2.originId)).nodup_iff.mpr
        (nodup_links hready hgen)
      rwa [map_map] at hlinks
    -- the addressee is the same, so the senders differ
    refine List.Nodup.of_map (fun v => (u, v)) ?_
    have hmap : (((deliveries.filter fun m => m.dest = u).map fun m => toAdvert m.frame).map
        Advert.origin).map (fun v => (u, v)) =
        (deliveries.filter fun m => m.dest = u).map fun m => (m.dest, m.frame.originId) := by
      rw [map_map, map_map]
      refine map_congr_left fun m hm => ?_
      rw [of_decide_eq_true (mem_filter.mp hm).2]
      rfl
    rw [hmap]
    exact hpairs.sublist (filter_sublist.map _)
  · intro v
    constructor
    · intro hv
      obtain ⟨a, ha, rfl⟩ := mem_map.mp hv
      obtain ⟨m, hm, rfl⟩ := mem_map.mp ha
      obtain ⟨hmem, hdest⟩ := mem_filter.mp hm
      have hadj := (hspec m hmem).2.2.1
      rw [of_decide_eq_true hdest] at hadj
      exact hadj.symm
    · intro huv
      have hv := net.mem_of_adj v u huv.symm
      obtain ⟨-, -, hkeys, hsent⟩ := generatesAll_spec (hgen v hv) (hready.wf v hv)
      have hpeer : u ∈ (T v).directPeers.keys :=
        (HashMap.mem_keys _ _).mpr ((hready.peers v hv u).mpr huv.symm)
      obtain ⟨s, hs, rfl⟩ := mem_map.mp (hkeys.mem_iff.mpr hpeer)
      obtain ⟨m, hm, rfl⟩ := mem_map.mp
        (hperm.mem_iff.mpr (mem_flatMap.mpr ⟨v, hv, hs⟩))
      have horigin : m.frame.originId = v := (hsent _ hs).2.1.trans (hready.selfId v hv)
      rw [map_map]
      exact mem_map.mpr ⟨m, mem_filter.mpr ⟨hm, by simp⟩, horigin⟩
  · intro a ha
    obtain ⟨m, hm, rfl⟩ := mem_map.mp ha
    obtain ⟨hmem, hdest⟩ := mem_filter.mp hm
    rw [← of_decide_eq_true hdest]
    exact (hspec m hmem).2.2.2.1
  · intro a ha
    obtain ⟨m, hm, rfl⟩ := mem_map.mp ha
    obtain ⟨-, hw, -, -, hlt, hle⟩ := hspec m (mem_filter.mp hm).1
    have hview' := (view_foldl_deliver hready hgen hperm hw).1
    show (state net T m.frame.originId).seq < m.frame.sequence.toNat ∧
      m.frame.sequence.toNat ≤ (state net _ m.frame.originId).seq
    rw [state_of_mem hw, state_of_mem hw, hview']
    exact ⟨hlt, hle⟩
  · rw [state_of_mem hu, hview]
  · rw [state_of_mem hu, hview]

omit hready hgen hperm

/-- A round of the tables is a round of the protocol, and leaves the tables
ready for the next. -/
theorem SyncRound.round (h : SyncRound net T T') (hready : Ready net T) :
    Round 16 net.graph (state net T) (state net T') ∧ Ready net T' := by
  obtain ⟨T₁, sent, deliveries, hgen, hperm, rfl⟩ := h
  refine ⟨fun u => ?_, ?_, ?_, ?_⟩
  · by_cases hu : u ∈ net.nodes
    · exact ⟨_, roundAt_of_deliveries hready hgen hperm hu⟩
    · -- outside the graph nothing is received
      have hstate : ∀ S : NodeId → RoutingTable, state net S u = Node.fresh := fun S => if_neg hu
      refine ⟨[], nodup_nil, ?_, fun _ ha => (nomatch ha), fun _ ha => (nomatch ha), ?_, ?_⟩
      · intro v
        exact ⟨fun hv => (nomatch hv), fun huv => absurd (net.mem_of_adj u v huv) hu⟩
      · rw [hstate, hstate]
        rfl
      · rw [hstate, hstate]
        rfl
  · intro u hu
    exact (view_foldl_deliver hready hgen hperm hu).2.1
  · intro u hu
    exact (view_foldl_deliver hready hgen hperm hu).2.2
  · intro u hu v
    rw [(view_foldl_deliver hready hgen hperm hu).1]
    rw [(receiveAll_seq_peers _ _ _).2, state_of_mem hu]
    exact hready.peers u hu v

/-- Rounds of the tables are rounds of the protocol. -/
theorem rounds_state {n : Nat} {T : Nat → NodeId → RoutingTable} (hready : Ready net (T 0))
    (h : ∀ i < n, SyncRound net (T i) (T (i + 1))) :
    (∀ i ≤ n, Ready net (T i)) ∧
      ∀ i < n, Round 16 net.graph (state net (T i)) (state net (T (i + 1))) := by
  have hall : ∀ i ≤ n, Ready net (T i) := by
    intro i
    induction i with
    | zero => intro _; exact hready
    | succ i ih => intro hi; exact ((h i hi).round (ih (by omega))).2
  exact ⟨hall, fun i hi => ((h i hi).round (hall i hi.le)).1⟩

omit [Blake3] in
theorem routeOf_state {u d : NodeId} (hu : u ∈ net.nodes) :
    (state net T u).routes d = (T u).routeOf d := by
  rw [state_of_mem hu]
  rfl

omit [Blake3] in
theorem state_of_get {u d : NodeId} (hu : u ∈ net.nodes) {e : RouteTableEntry}
    (he : (T u).routes.get d = some e) : (state net T u).routes d = some e.core := by
  rw [routeOf_state hu]
  exact congrArg (Option.map RouteTableEntry.core) he

omit [Blake3] in
theorem exact_table {d : NodeId} (hu : u ∈ net.nodes) (hexact : Exact net.graph (state net T) u d) :
    ((T u).routes.get d).isSome ∧ ∀ e, (T u).routes.get d = some e →
      (e.hops.toNat : ℕ∞) = net.graph.edist u d ∧ net.graph.Adj u e.nextHop ∧
        net.graph.edist e.nextHop d + 1 = net.graph.edist u d := by
  obtain ⟨r, hr, hspec⟩ := hexact
  rw [routeOf_state hu] at hr
  obtain ⟨e, he, rfl⟩ := Option.map_eq_some_iff.mp hr
  rw [he]
  refine ⟨rfl, fun e' he' => ?_⟩
  cases he'
  exact hspec

/-! ## Rounds complete -/

omit [Blake3] in
/-- A node has at most as many direct peers as the graph has nodes. -/
theorem Ready.keys_length_le (hready : Ready net T) (hu : u ∈ net.nodes) :
    (T u).directPeers.keys.length ≤ net.nodes.length := by
  refine ((HashMap.nodup_keys (T u).directPeers).subperm fun v hv => ?_).length_le
  have hadj := (hready.peers u hu v).mp ((HashMap.mem_keys _ _).mp hv)
  exact net.mem_of_adj v u hadj.symm

/-- A round can be completed as long as the counters have room. -/
theorem exists_syncRound (hready : Ready net T)
    (hroom : ∀ u ∈ net.nodes, (T u).sequence.toNat + net.nodes.length < 2 ^ 64) :
    ∃ T', SyncRound net T T' ∧ ∀ u ∈ net.nodes,
      (T' u).sequence.toNat ≤ (T u).sequence.toNat + net.nodes.length := by
  have hgenerate : ∀ u, ∃ p : RoutingTable × List (NodeId × RouteUpdateFrame), u ∈ net.nodes →
      (T u).generateFor (T u).directPeers.keys = some p ∧
        p.1.sequence.toNat ≤ (T u).sequence.toNat + net.nodes.length := by
    intro u
    by_cases hu : u ∈ net.nodes
    · have hlen := hready.keys_length_le hu
      have hroom' : (T u).sequence.toNat + (T u).directPeers.keys.length < 2 ^ 64 :=
        (Nat.add_le_add_left hlen _).trans_lt (hroom u hu)
      obtain ⟨t', frames, hgen, hseq⟩ := generateFor_exists hroom'
      exact ⟨(t', frames), fun _ => ⟨hgen, hseq.trans_le (Nat.add_le_add_left hlen _)⟩⟩
    · exact ⟨(T u, []), fun h => absurd h hu⟩
  choose p hp using hgenerate
  have hall : ∀ u ∈ net.nodes, GeneratesAll (T u) (p u).1 (p u).2 := by
    intro u hu
    refine ⟨_, (p u).2, .refl _, (hp u hu).1, ?_⟩
    exact forall₂_same.mpr fun f _ => ⟨rfl, Reordered.refl f.2⟩
  let deliveries := (net.nodes.flatMap fun u => (p u).2).map fun s => Delivery.mk 0 s.1 s.2
  have hperm : (deliveries.map fun m => (m.dest, m.frame)).Perm
      (net.nodes.flatMap fun u => (p u).2) := by
    rw [map_map]
    exact .of_eq (map_id _)
  refine ⟨_, ⟨fun u => (p u).1, fun u => (p u).2, deliveries, hall, hperm, rfl⟩, fun u hu => ?_⟩
  have hseq : (deliveries.foldl deliver (fun u => (p u).1) u).view.seq =
      (p u).1.sequence.toNat := by
    rw [(view_foldl_deliver hready hall hperm hu).1]
  exact hseq.trans_le (hp u hu).2

theorem exists_rounds (n : Nat) (hready : Ready net T)
    (hroom : ∀ u ∈ net.nodes, (T u).sequence.toNat + n * net.nodes.length < 2 ^ 64) :
    ∃ Ts : Nat → NodeId → RoutingTable, Ts 0 = T ∧
      ∀ i < n, SyncRound net (Ts i) (Ts (i + 1)) := by
  induction n generalizing T with
  | zero => exact ⟨fun _ => T, rfl, fun i hi => absurd hi (Nat.not_lt_zero i)⟩
  | succ n ih =>
    have hmul : (n + 1) * net.nodes.length = n * net.nodes.length + net.nodes.length :=
      Nat.succ_mul _ _
    obtain ⟨T', hround, hseq⟩ := exists_syncRound hready fun u hu => by
      have := hroom u hu
      omega
    obtain ⟨Ts, hzero, hTs⟩ := ih (hround.round hready).2 fun u hu => by
      have := hroom u hu
      have := hseq u hu
      omega
    refine ⟨fun i => Nat.casesOn i T Ts, rfl, fun i hi => ?_⟩
    cases i with
    | zero =>
      show SyncRound net T (Ts 0)
      rw [hzero]
      exact hround
    | succ i => exact hTs i (by omega)

/-! ## Exact convergence -/

/-- Tables on which only `add_peer` was called. -/
theorem view_foldl_addPeer (calls : List (Nat × NodeId)) {t : RoutingTable} (hwf : t.Wf)
    (hself : t.selfId = u) (hcalls : ∀ c ∈ calls, c.2 ≠ u) :
    let t' := calls.foldl (fun t c => t.addPeer c.1 c.2) t
    t'.view = (calls.map Prod.snd).foldl Node.addPeer t.view ∧ t'.Wf ∧ t'.selfId = u := by
  induction calls generalizing t with
  | nil => exact ⟨rfl, hwf, hself⟩
  | cons c calls ih =>
    have hc : c.2 ≠ t.selfId := by
      rw [hself]
      exact hcalls c mem_cons_self
    obtain ⟨hview, hrest⟩ := ih (wf_addPeer hwf hc c.1) hself
      fun c' hc' => hcalls c' (mem_cons_of_mem _ hc')
    refine ⟨hview.trans ?_, hrest⟩
    rw [view_addPeer]
    rfl

theorem Started.view (h : Started net T) (hu : u ∈ net.nodes) :
    ∃ vs : List NodeId, (∀ v, v ∈ vs ↔ net.graph.Adj u v) ∧
      (T u).view = vs.foldl Node.addPeer Node.fresh ∧ (T u).Wf ∧ (T u).selfId = u := by
  obtain ⟨isGateway, pre, calls, hcalls, hT⟩ := h u hu
  have hne : ∀ c ∈ calls, c.2 ≠ u := by
    intro c hc
    exact ((hcalls c.2).mp (mem_map_of_mem hc)).ne'
  obtain ⟨hview, hwf, hself⟩ := view_foldl_addPeer calls (wf_new u isGateway pre) rfl hne
  rw [← hT] at hview hwf hself
  rw [view_new] at hview
  exact ⟨calls.map Prod.snd, hcalls, hview, hwf, hself⟩

theorem Started.linked (h : Started net T) : Linked net.graph (state net T) := by
  intro u
  by_cases hu : u ∈ net.nodes
  · obtain ⟨vs, hvs, hview, -⟩ := h.view hu
    exact ⟨vs, hvs, (state_of_mem hu).trans hview⟩
  · refine ⟨[], fun v => ?_, if_neg hu⟩
    exact ⟨fun hv => (nomatch hv), fun huv => absurd (net.mem_of_adj u v huv) hu⟩

theorem Started.ready (h : Started net T) : Ready net T where
  wf := fun u hu => by
    obtain ⟨vs, -, -, hwf, -⟩ := h.view hu
    exact hwf
  selfId := fun u hu => by
    obtain ⟨vs, -, -, -, hself⟩ := h.view hu
    exact hself
  peers := by
    intro u hu v
    obtain ⟨vs, hvs, hview, -⟩ := h.view hu
    rw [hview, (foldl_addPeer vs Node.fresh).2.2.1, hvs]
    exact or_iff_left (fun hv : v ∈ (∅ : Set NodeId) => hv)

/-- From fresh tables with all neighbours added, `k` rounds leave at each node
exactly the routes to the destinations within `k + 1` and within 15 hops, and
they are shortest routes. -/
theorem routes_exact_after_rounds (net : Topology) (T : Nat → NodeId → RoutingTable) (k : Nat)
    (hstart : Started net (T 0)) (h : ∀ i < k, SyncRound net (T i) (T (i + 1)))
    {u d : NodeId} (hu : u ∈ net.nodes) (hd : d ≠ u) :
    (((T k u).routes.get d).isSome ↔ net.graph.edist u d ≤ (min (k + 1) 15 : ℕ)) ∧
      ∀ e, (T k u).routes.get d = some e →
        (e.hops.toNat : ℕ∞) = net.graph.edist u d ∧ net.graph.Adj u e.nextHop ∧
          net.graph.edist e.nextHop d + 1 = net.graph.edist u d := by
  obtain ⟨-, hrounds⟩ := rounds_state hstart.ready h
  have hlinked := hstart.linked
  have hup : ExactUpTo net.graph (state net (T k)) (min (k + 1) 15) :=
    exactUpTo_rounds (by decide) (hlinked.sane (by decide))
      hlinked.exactUpTo hrounds le_rfl
  by_cases hle : net.graph.edist u d ≤ (min (k + 1) 15 : ℕ)
  · obtain ⟨hsome, hspec⟩ := exact_table hu ((hup u d hd).1 hle)
    exact ⟨iff_of_true hsome hle, hspec⟩
  · have hnone : (T k u).routes.get d = none := by
      have hroute := (hup u d hd).2 hle
      rw [routeOf_state hu] at hroute
      exact Option.map_eq_none_iff.mp hroute
    rw [hnone]
    exact ⟨iff_of_false (by simp) hle, fun e he => nomatch he⟩

/-! ## Stabilisation -/

omit [Blake3] in
theorem Stale.ready (h : Stale net T) : Ready net T where
  wf := fun u hu => by
    refine ⟨by rw [h.selfId u hu]; exact h.noSelf u hu, fun d e he => ?_⟩
    obtain ⟨hpos, -, -, hlearned, -⟩ := h.route u hu d e he
    exact ⟨hlearned, hpos⟩
  selfId := h.selfId
  peers := h.peers

omit [Blake3] in
theorem Stale.sane (h : Stale net T) : Sane 16 net.graph (state net T) := by
  have hroute : ∀ u d r, (state net T u).routes d = some r → d ≠ u ∧ 1 ≤ r.hops ∧ r.hops < 16 ∧
      net.graph.Adj u r.nextHop ∧ r.seq ≤ (state net T u).maxSeq r.nextHop := by
    intro u d r hr
    by_cases hu : u ∈ net.nodes
    · rw [routeOf_state hu] at hr
      obtain ⟨e, he, rfl⟩ := Option.map_eq_some_iff.mp hr
      obtain ⟨hpos, hlt, hadj, -, hseq⟩ := h.route u hu d e he
      rw [state_of_mem hu]
      refine ⟨?_, hpos, Nat.lt_succ_of_le hlt, hadj, UInt64.le_iff_toNat_le.mp hseq⟩
      rintro rfl
      exact nomatch (h.noSelf d hu).symm.trans he
    · rw [state, if_neg hu] at hr
      cases hr
  refine ⟨fun u => ?_, fun u d r hr => (hroute u d r hr).2.1,
    fun u d r hr => (hroute u d r hr).2.2.1, fun u d r hr => (hroute u d r hr).2.2.2.1,
    fun u d r hr => (hroute u d r hr).2.2.2.2, ?_⟩
  · exact Option.eq_none_iff_forall_not_mem.mpr fun r hr => (hroute u u r hr).1 rfl
  · intro u v huv
    rw [state_of_mem (net.mem_of_adj u v huv), state_of_mem (net.mem_of_adj v u huv.symm)]
    exact UInt64.le_iff_toNat_le.mp (h.maxSeq u (net.mem_of_adj u v huv) v huv)

omit [Blake3] in
/-- Tables ready for a round whose state is sane are a case of stale ones. -/
theorem stale_of_sane (hready : Ready net T) (hs : Sane 16 net.graph (state net T)) :
    Stale net T where
  selfId := hready.selfId
  peers := hready.peers
  noSelf := by
    intro u hu
    have hself := (hready.wf u hu).self
    rwa [hready.selfId u hu] at hself
  route := by
    intro u hu d e he
    have hr := state_of_get hu he
    have hseq := hs.seq_le u d _ hr
    rw [state_of_mem hu] at hseq
    exact ⟨hs.pos u d _ hr, Nat.le_of_lt_succ (hs.lt_inf u d _ hr), hs.link u d _ hr,
      ((hready.wf u hu).entry d e he).1, UInt64.le_iff_toNat_le.mpr hseq⟩
  maxSeq := by
    intro u hu v huv
    have hle := hs.maxSeq_le u v huv
    rw [state_of_mem hu, state_of_mem (net.mem_of_adj v u huv.symm)] at hle
    exact UInt64.le_iff_toNat_le.mpr hle

theorem Started.stale (h : Started net T) : Stale net T :=
  stale_of_sane h.ready (h.linked.sane (by decide))

/-- From arbitrary stale tables, 15 rounds leave no route shorter than the
distance and none to what cannot be reached, and from 32 rounds on the tables
hold exactly the shortest routes of at most 15 hops. -/
theorem tables_stabilise (net : Topology) (T : Nat → NodeId → RoutingTable) (n : Nat)
    (hstale : Stale net (T 0)) (h : ∀ i < n, SyncRound net (T i) (T (i + 1))) :
    (15 ≤ n → ∀ u ∈ net.nodes, ∀ d e, (T n u).routes.get d = some e →
      net.graph.edist u d ≤ e.hops.toNat ∧ net.graph.Reachable u d) ∧
    (32 ≤ n → ∀ u ∈ net.nodes, ∀ d, d ≠ u →
      (((T n u).routes.get d).isSome ↔ net.graph.edist u d ≤ (15 : ℕ)) ∧
        ∀ e, (T n u).routes.get d = some e →
          (e.hops.toNat : ℕ∞) = net.graph.edist u d ∧ net.graph.Adj u e.nextHop ∧
            net.graph.edist e.nextHop d + 1 = net.graph.edist u d) := by
  obtain ⟨-, hrounds⟩ := rounds_state hstale.ready h
  have hlow : 15 ≤ n → ∀ u ∈ net.nodes, ∀ d e, (T n u).routes.get d = some e →
      net.graph.edist u d ≤ e.hops.toNat ∧ e.hops.toNat < 16 := by
    intro hn u hu d e he
    have hr := state_of_get hu he
    have hsane := sane_rounds (by decide) hstale.sane hrounds le_rfl
    exact ⟨edist_le_hops (by decide) hstale.sane hrounds le_rfl
      (by omega) u d hr, hsane.lt_inf u d _ hr⟩
  refine ⟨fun hn u hu d e he => ?_, fun hn u hu d hd => ?_⟩
  · have hle := (hlow hn u hu d e he).1
    exact ⟨hle, SimpleGraph.reachable_of_edist_ne_top
      (ne_top_of_le_ne_top (ENat.natCast_ne_top _) hle)⟩
  · have hexact : net.graph.edist u d ≤ (15 : ℕ) → Exact net.graph (state net (T n)) u d := by
      intro hle
      obtain ⟨m, hm⟩ := ENat.ne_top_iff_exists.mp
        (ne_top_of_le_ne_top (ENat.natCast_ne_top _) hle)
      rw [← hm] at hle
      have hm15 : m ≤ 15 := by exact_mod_cast hle
      exact exact_of_late (by decide) hstale.sane hrounds
        (by omega) le_rfl (by omega) hd hm.symm
    have hiff : ((T n u).routes.get d).isSome ↔ net.graph.edist u d ≤ (15 : ℕ) := by
      refine ⟨fun hsome => ?_, fun hle => (exact_table hu (hexact hle)).1⟩
      obtain ⟨e, he⟩ := Option.isSome_iff_exists.mp hsome
      obtain ⟨hle, hlt⟩ := hlow (by omega) u hu d e he
      exact hle.trans (by exact_mod_cast Nat.lt_succ_iff.mp hlt)
    refine ⟨hiff, fun e he => ?_⟩
    have hle := hiff.mp (by rw [he]; rfl)
    exact (exact_table hu (hexact hle)).2 e he

/-! ## Fixed points -/

/-- The tables have converged: a round of advertisements changes no next hop and no hop
count. -/
structure Converged (net : Topology) (T : NodeId → RoutingTable) : Prop where
  stale : Stale net T
  fixed : ∃ T', SyncRound net T T' ∧ ∀ u ∈ net.nodes, ∀ d,
    ((T' u).routes.get d).map (fun e => (e.nextHop, e.hops)) =
      ((T u).routes.get d).map fun e => (e.nextHop, e.hops)

/-- In converged tables a route leads to its destination in one hop, or to a neighbour
whose route is one hop shorter. -/
theorem Converged.hop (h : Converged net T) {d : NodeId} (hu : u ∈ net.nodes)
    {e : RouteTableEntry} (he : (T u).routes.get d = some e) :
    (e.nextHop = d ∧ e.hops.toNat = 1) ∨
      ∃ e', (T e.nextHop).routes.get d = some e' ∧ e.hops.toNat = e'.hops.toNat + 1 := by
  obtain ⟨T', hround, hfixed⟩ := h.fixed
  have hshape : SameShape (state net T) (state net T') := by
    intro v x
    by_cases hv : v ∈ net.nodes
    · rw [routeOf_state hv, routeOf_state hv, RoutingTable.routeOf, RoutingTable.routeOf,
        Option.map_map, Option.map_map]
      have hmap := congrArg (Option.map (Prod.map id UInt8.toNat)) (hfixed v hv x)
      rwa [Option.map_map, Option.map_map] at hmap
    · rw [state, state, if_neg hv, if_neg hv]
  have hnext : e.nextHop ∈ net.nodes :=
    net.mem_of_adj _ _ (h.stale.route u hu d e he).2.2.1.symm
  rcases (hround.round h.stale.ready).1.hop_of_sameShape (by decide) h.stale.sane hshape
      (state_of_get hu he) with hlast | ⟨r', hr', hhops⟩
  · exact .inl hlast
  · rw [show e.core.nextHop = e.nextHop from rfl, routeOf_state hnext] at hr'
    obtain ⟨e', he', rfl⟩ := Option.map_eq_some_iff.mp hr'
    exact .inr ⟨e', he', hhops⟩

/-- Tables that hold exactly the shortest routes have converged, if a round can be
completed. -/
theorem converged_of_exactUpTo (hready : Ready net T) (hs : Sane 16 net.graph (state net T))
    (hexact : ExactUpTo net.graph (state net T) 15) (hround : SyncRound net T T') :
    Converged net T where
  stale := stale_of_sane hready hs
  fixed := by
    refine ⟨T', hround, fun u hu d => ?_⟩
    have hshape := sameShape_of_exactUpTo (by decide) hs (hround.round hready).1 hexact u d
    rw [routeOf_state hu, routeOf_state hu, RoutingTable.routeOf, RoutingTable.routeOf,
      Option.map_map, Option.map_map] at hshape
    -- hop counts are bytes, so they agree if their values do
    have hinj : Function.Injective (Prod.map (id : NodeId → NodeId) UInt8.toNat) :=
      Function.injective_id.prodMap fun _ _ => UInt8.toNat_inj.mp
    refine Option.map_injective hinj ?_
    rw [Option.map_map, Option.map_map]
    exact hshape

/-- From fresh tables 14 rounds of advertisements converge. -/
theorem Started.converged {T : Nat → NodeId → RoutingTable} (hstart : Started net (T 0)) {k : Nat}
    (hk : 14 ≤ k) (h : ∀ i < k + 1, SyncRound net (T i) (T (i + 1))) : Converged net (T k) := by
  obtain ⟨hready, hrounds⟩ := rounds_state hstart.ready h
  have hlinked := hstart.linked
  have hs := hlinked.sane (by decide : 1 < 16)
  have hup := exactUpTo_rounds (by decide) hs
    hlinked.exactUpTo hrounds k.le_succ
  rw [Nat.min_eq_right (by omega)] at hup
  exact converged_of_exactUpTo (hready k k.le_succ)
    (sane_rounds (by decide) hs hrounds k.le_succ) hup
    (h k k.lt_succ_self)

/-- Where nodes that are connected are neighbours, the tables have converged at the start. -/
theorem Started.converged_of_adj (h : Started net T)
    (hadj : ∀ u d, d ≠ u → net.graph.Reachable u d → net.graph.Adj u d)
    (hround : SyncRound net T T') : Converged net T := by
  refine converged_of_exactUpTo h.ready (h.linked.sane (by decide)) ?_ hround
  intro u d hd
  obtain ⟨hnear, hfar⟩ := h.linked.exactUpTo u d hd
  constructor
  · intro hle
    have hreach : net.graph.Reachable u d :=
      SimpleGraph.reachable_of_edist_ne_top (ne_top_of_le_ne_top (ENat.natCast_ne_top 15) hle)
    exact hnear (SimpleGraph.edist_eq_one_iff_adj.mpr (hadj u d hd hreach)).le
  · intro hnot
    refine hfar fun hone => hnot (hone.trans ?_)
    exact_mod_cast (by decide : 1 ≤ 15)

theorem SyncRound.blacklistedPeers (h : SyncRound net T T') (hready : Ready net T)
    (hu : u ∈ net.nodes) : (T' u).blacklistedPeers = (T u).blacklistedPeers := by
  obtain ⟨T₁, sent, deliveries, hgen, -, rfl⟩ := h
  obtain ⟨⟨s, hs⟩, -⟩ := generatesAll_spec (hgen u hu) (hready.wf u hu)
  rw [foldl_deliver]
  refine foldlRecOn (motive := fun t : RoutingTable =>
    t.blacklistedPeers = (T u).blacklistedPeers) _ _ (by rw [hs]) fun t ht m _ => ?_
  obtain ⟨_, honly⟩ := onlyRoutes_applyUpdate t m.now m.frame m.frame.originId
  exact honly.blacklistedPeers.trans ht

theorem Started.blacklistedPeers {T : Nat → NodeId → RoutingTable} (hstart : Started net (T 0))
    {k : Nat} (h : ∀ i < k, SyncRound net (T i) (T (i + 1))) (hu : u ∈ net.nodes) :
    (T k u).blacklistedPeers = .empty := by
  have hready := (rounds_state hstart.ready h).1
  induction k with
  | zero =>
    obtain ⟨isGateway, pre, calls, -, hT⟩ := hstart u hu
    rw [hT]
    exact foldlRecOn (motive := fun t : RoutingTable => t.blacklistedPeers = .empty) _ _ rfl
      fun _ ht _ _ => ht
  | succ k ih =>
    rw [(h k k.lt_succ_self).blacklistedPeers (hready k k.le_succ) hu]
    exact ih (fun i hi => h i (hi.trans k.lt_succ_self)) fun i hi => hready i (hi.trans k.le_succ)

end Rounds

/-! ### Three nodes in a line -/

section Line

open Mesh

/-- The neighbours of a node in the line 1 - 2 - 3. -/
def lineNeighbours (u : NodeId) : List NodeId :=
  if u = nodeOf 1 then [nodeOf 2]
  else if u = nodeOf 2 then [nodeOf 1, nodeOf 3]
  else if u = nodeOf 3 then [nodeOf 2]
  else []

theorem mem_lineNeighbours {u v : NodeId} (h : v ∈ lineNeighbours u) :
    u ∈ [nodeOf 1, nodeOf 2, nodeOf 3] ∧ u ∈ lineNeighbours v ∧ u ≠ v := by
  unfold lineNeighbours at h
  split at h
  · rename_i hu
    obtain rfl := mem_singleton.mp h
    subst hu
    decide +kernel
  · split at h
    · rename_i hu
      subst hu
      rcases mem_pair.mp h with rfl | rfl
      · decide +kernel
      · decide +kernel
    · split at h
      · rename_i hu
        obtain rfl := mem_singleton.mp h
        subst hu
        decide +kernel
      · cases h

def lineTopology : Topology where
  nodes := [nodeOf 1, nodeOf 2, nodeOf 3]
  nodup := by decide +kernel
  graph := { Adj := fun u v => v ∈ lineNeighbours u
             symm := ⟨fun _ _ h => (mem_lineNeighbours h).2.1⟩
             loopless := ⟨fun _ h => (mem_lineNeighbours h).2.2 rfl⟩ }
  mem_of_adj := fun _ _ h => (mem_lineNeighbours h).1

attribute [local instance] transparentBlake3

/-- Fresh tables with the neighbours added. -/
def lineStart (u : NodeId) : RoutingTable :=
  (lineNeighbours u).foldl (fun t v => t.addPeer 0 v) (RoutingTable.new u false defaultPrefix)

theorem started_lineStart : Started lineTopology lineStart := by
  intro u _
  refine ⟨false, defaultPrefix, (lineNeighbours u).map fun v => (0, v), fun v => ?_, ?_⟩
  · rw [map_map]
    show v ∈ (lineNeighbours u).map id ↔ v ∈ lineNeighbours u
    rw [map_id]
  · rw [foldl_map]
    rfl

theorem edist_line : lineTopology.graph.edist (nodeOf 1) (nodeOf 3) ≤ (2 : ℕ) := by
  have h₁ : lineTopology.graph.Adj (nodeOf 1) (nodeOf 2) := by
    show nodeOf 2 ∈ lineNeighbours (nodeOf 1)
    decide +kernel
  have h₂ : lineTopology.graph.Adj (nodeOf 2) (nodeOf 3) := by
    show nodeOf 3 ∈ lineNeighbours (nodeOf 2)
    decide +kernel
  exact (SimpleGraph.Walk.cons h₁ (.cons h₂ .nil)).edist_le

/-- After one round the ends of the line know each other. -/
theorem routes_exact_after_rounds_line :
    ∃ T : Nat → NodeId → RoutingTable, Started lineTopology (T 0) ∧
      (∀ i < 1, SyncRound lineTopology (T i) (T (i + 1))) ∧
      ((T 1 (nodeOf 1)).routes.get (nodeOf 3)).isSome := by
  obtain ⟨T, hzero, hT⟩ := exists_rounds 1 started_lineStart.ready (by decide +kernel)
  have hstart : Started lineTopology (T 0) := by
    rw [hzero]
    exact started_lineStart
  refine ⟨T, hstart, hT, ?_⟩
  exact (routes_exact_after_rounds lineTopology T 1 hstart hT mem_cons_self
    (by decide +kernel)).1.mpr edist_line

/-- The same tables with a route to a node that does not exist, which nodes 1
and 2 have from each other. -/
def phantomStart (u : NodeId) : RoutingTable :=
  (lineStart u).insertRoute (nodeOf 9)
    { nextHop := (lineNeighbours u).headD u, hops := 3, isGateway := false, lastSeen := 0,
      learnedFrom := (lineNeighbours u).headD u, sequence := 0, gatewayLoad := 0, rttMs := none,
      meshIp := none }

theorem stale_phantomStart : Stale lineTopology phantomStart := by
  have hstale := started_lineStart.stale
  refine ⟨hstale.selfId, hstale.peers, fun u hu => ?_, fun u hu d e he => ?_, hstale.maxSeq⟩
  · have hne : ∀ u ∈ lineTopology.nodes, u ≠ nodeOf 9 := by decide +kernel
    rw [phantomStart, get_insertRoute, if_neg (hne u hu)]
    exact hstale.noSelf u hu
  · rw [phantomStart, get_insertRoute] at he
    split at he
    · cases he
      have hhop : ∀ u ∈ lineTopology.nodes, (lineNeighbours u).headD u ∈ lineNeighbours u := by
        decide +kernel
      have hthree : (3 : UInt8).toNat = 3 := rfl
      exact ⟨hthree ▸ Nat.le_add_left 1 2, hthree ▸ Nat.le_add_left 3 12, hhop u hu, rfl,
        UInt64.le_iff_toNat_le.mpr (Nat.zero_le _)⟩
    · exact hstale.route u hu d e he

/-- After 32 rounds the phantom is gone and the ends of the line know each other. -/
theorem tables_stabilise_line :
    ∃ T : Nat → NodeId → RoutingTable, T 0 = phantomStart ∧
      (∀ i < 32, SyncRound lineTopology (T i) (T (i + 1))) ∧
      ((T 32 (nodeOf 1)).routes.get (nodeOf 3)).isSome ∧
      ∀ e, (T 32 (nodeOf 1)).routes.get (nodeOf 9) = some e →
        lineTopology.graph.Reachable (nodeOf 1) (nodeOf 9) := by
  obtain ⟨T, hzero, hT⟩ := exists_rounds 32 stale_phantomStart.ready (by decide +kernel)
  have hstale : Stale lineTopology (T 0) := by
    rw [hzero]
    exact stale_phantomStart
  obtain ⟨hlow, hexact⟩ := tables_stabilise lineTopology T 32 hstale hT
  refine ⟨T, hzero, hT, ?_, fun e he => (hlow (by decide) _ mem_cons_self _ e he).2⟩
  refine (hexact le_rfl _ mem_cons_self _ (by decide +kernel)).1.mpr (edist_line.trans ?_)
  exact_mod_cast (by decide : 2 ≤ 15)

end Line

end ProximityMesh.Routing
