/-
  Routing/Histories.lean --- two properties of whole histories of a table that need a
  condition on each operation.

  Source: crates/pim-routing/src/table.rs; docs/architecture/routing.md, "Collision
  behaviour".

  `PublicOp` is every public method that changes a table.  A condition is stated on an
  operation and the table it meets (`Throughout`).

  A connected neighbour keeps its route of one hop as long as its own updates list it
  with no hops, and as long as nobody else takes the route away.

  Of the destinations that share an address one is in the reverse index.  The others are
  left with a route and no entry when it goes, until they are inserted again.
-/
import ProximityMesh.Routing.Updates

set_option autoImplicit false

namespace ProximityMesh.Routing

open Protocol HashMap Option

namespace RoutingTable

variable [Blake3] {t t' : RoutingTable}

/-! ## Public operations -/

/-- A call of a public method that changes the table. -/
inductive PublicOp where
  | table (op : TableOp)
  | removeRoutesVia (peer : NodeId)
  | setSelfMeshIp (meshIp : Ipv4Addr)
  | setIpv4Prefix (pre : Ipv4Prefix)

/-- The table after the call; `none` if it panicked. -/
def PublicOp.perform (t : RoutingTable) : PublicOp → Option RoutingTable
  | table op => op.perform t
  | removeRoutesVia peer => some (t.removeRoutesVia peer).1
  | setSelfMeshIp meshIp => some (t.setSelfMeshIp meshIp)
  | setIpv4Prefix pre => some (t.setIpv4Prefix pre)

/-- The table after a sequence of public calls that all return. -/
def history (t : RoutingTable) : List PublicOp → Option RoutingTable
  | [] => some t
  | op :: ops => (op.perform t).bind fun t' => t'.history ops

/-- Each call of the sequence meets the condition in the table it is made on. -/
def Throughout (P : RoutingTable → PublicOp → Prop) (t : RoutingTable) : List PublicOp → Prop
  | [] => True
  | op :: ops => P t op ∧ ∀ t', op.perform t = some t' → Throughout P t' ops

variable {P : RoutingTable → PublicOp → Prop} {op : PublicOp} {ops : List PublicOp} {p d : NodeId}

theorem throughout_cons : Throughout P t (op :: ops) ↔
      P t op ∧ ∀ t', op.perform t = some t' → Throughout P t' ops := Iff.rfl

/-- What each call keeps under the condition holds after the sequence. -/
theorem history_invariant {I : RoutingTable → Prop}
    (hstep : ∀ t t' op, I t → P t op → op.perform t = some t' → I t') (h : I t)
    (hP : Throughout P t ops) (hrun : t.history ops = some t') : I t' := by
  induction ops generalizing t with
  | nil =>
    cases hrun
    exact h
  | cons op ops ih =>
    obtain ⟨t₁, hop, hrest⟩ := bind_eq_some_iff.mp hrun
    exact ih (hstep t t₁ op h hP.1 hop) (hP.2 t₁ hop) hrest

/-! ## Connected neighbours -/

/-- The route to `p` is the direct one. -/
def Direct (t : RoutingTable) (p : NodeId) : Prop :=
  ∃ e, t.routes.get p = some e ∧ e.nextHop = p ∧ e.hops = 1 ∧ e.learnedFrom = p

/-- Every neighbour that is not blacklisted has its direct route. -/
def DirectlyRoutable (t : RoutingTable) : Prop :=
  ∀ p, t.directPeers.contains p = true → t.isBlacklisted p = false → t.Direct p

/-- The condition on a call: an accepted update of a usable neighbour lists the neighbour
itself only with no hops, a neighbour is pardoned only while its direct route is in place,
and no direct route of a usable neighbour expires or is taken away. -/
def Careful (t : RoutingTable) : PublicOp → Prop
  | .table (.applyUpdate _ update fromPeer) =>
      t.directPeers.contains fromPeer = true → t.isBlacklisted fromPeer = false →
        ¬ t.Rejected update fromPeer →
        ∀ ad ∈ update.entries, ad.destination = fromPeer → ad.hops = 0
  | .table (.unblacklistPeer peerId) => t.directPeers.contains peerId = true → t.Direct peerId
  | .table (.expireStale now maxAge) =>
      ∀ p e, t.directPeers.contains p = true → t.isBlacklisted p = false →
        t.routes.get p = some e → e.isExpired now maxAge = false
  | .removeRoutesVia peer => t.directPeers.contains peer = true → t.isBlacklisted peer = true
  | _ => True

omit [Blake3] in
theorem Direct.of_routes {p : NodeId} (h : t.Direct p)
    (hget : t'.routes.get p = t.routes.get p) : t'.Direct p := by
  unfold Direct
  rw [hget]
  exact h

omit [Blake3] in
theorem Direct.removeRoutes (h : t.Direct p) {dsts : List NodeId} (hp : p ∉ dsts) :
    (t.removeRoutes dsts).Direct p :=
  h.of_routes ((get_removeRoutes t dsts p).trans (if_neg hp))

omit [Blake3] in
theorem Direct.removeVia {peer : NodeId} (h : t.Direct p) (hne : p ≠ peer) :
    (t.removeRoutes ((t.routes.iter.filter fun e => e.2.nextHop = peer).map Prod.fst)).Direct
      p := by
  refine h.removeRoutes fun hmem => ?_
  obtain ⟨e, hget, hvia⟩ := (t.mem_via_iff peer p).mp hmem
  obtain ⟨e', hget', hvia', -⟩ := h
  obtain rfl := some.inj (hget.symm.trans hget')
  exact hne (hvia'.symm.trans hvia)

omit [Blake3] in
theorem Direct.modify (h : t.Direct p) (dst : NodeId) {f : RouteTableEntry → RouteTableEntry}
    (hf : ∀ e, (f e).nextHop = e.nextHop ∧ (f e).hops = e.hops ∧
      (f e).learnedFrom = e.learnedFrom) : Direct { t with routes := t.routes.modify dst f } p := by
  obtain ⟨e, hget, hvia, hhops, hlearned⟩ := h
  rcases Decidable.em (p = dst) with rfl | hne
  · obtain ⟨hvia', hhops', hlearned'⟩ := hf e
    refine ⟨f e, ?_, hvia'.trans hvia, hhops'.trans hhops, hlearned'.trans hlearned⟩
    exact (get_modify _ _ _ _).trans (by rw [if_pos rfl, hget]; rfl)
  · refine ⟨e, ?_, hvia, hhops, hlearned⟩
    exact (get_modify _ _ _ _).trans (by rw [if_neg hne, hget])

theorem direct_addPeer (t : RoutingTable) (now : Nat) (p : NodeId) : (t.addPeer now p).Direct p :=
  ⟨_, (get_insertRoute _ p p _).trans (if_pos rfl), rfl, rfl, rfl⟩

/-- Entries with no hops leave a direct route of their sender direct; nobody else has a
shorter one to offer. -/
theorem direct_relaxAll {pre : Ipv4Prefix} {now : Nat} {sequence : UInt64} {fromPeer : NodeId}
    {ads : List RouteEntry} (hown : p = fromPeer → ∀ ad ∈ ads, ad.hops = 0) {e : RouteTableEntry}
    (hvia : e.nextHop = p) (hhops : e.hops = 1) (hlearned : e.learnedFrom = p) :
    ∃ e', relaxAll pre now sequence fromPeer ads (some e) = some e' ∧ e'.nextHop = p ∧
      e'.hops = 1 ∧ e'.learnedFrom = p := by
  rcases Decidable.em (p = fromPeer) with rfl | hother
  · replace hown := hown rfl
    unfold relaxAll
    induction ads generalizing e with
    | nil => exact ⟨e, rfl, hvia, hhops, hlearned⟩
    | cons ad ads ih =>
      have hzero := hown ad List.mem_cons_self
      have hlt : ad.hops.toNat + 1 < 16 := by
        rw [hzero]
        decide
      have hrest : ∀ ad' ∈ ads, ad'.hops = 0 := fun ad' h => hown ad' (List.mem_cons_of_mem ad h)
      rw [List.foldl_cons, relax, if_neg (Nat.not_le.mpr hlt)]
      split
      · refine ih rfl ?_ rfl hrest
        show UInt8.ofNat (min (ad.hops.toNat + 1) infinity.toNat) = 1
        rw [hzero]
        rfl
      · exact ih hvia hhops hlearned hrest
  · have hsettled : Settled sequence fromPeer e := fun h => absurd (hvia.symm.trans h) hother
    refine ⟨e, relaxAll_of_spares hsettled fun ad _ => ?_, hvia, hhops, hlearned⟩
    have hone : e.hops.toNat = 1 := by
      rw [hhops]
      rfl
    rcases Nat.lt_or_ge (ad.hops.toNat + 1) 16 with hlt | hge
    · exact .inr ⟨hlt, by omega⟩
    · exact .inl ⟨hge, fun h => hother (hvia.symm.trans h)⟩

theorem Direct.applyUpdate {fromPeer : NodeId} (h : t.Direct p) (now : Nat)
    {frame : RouteUpdateFrame} (hown : p = fromPeer → ¬ t.Rejected frame fromPeer →
      ∀ ad ∈ frame.entries, ad.destination = p → ad.hops = 0) :
    (t.applyUpdate now frame fromPeer).1.Direct p := by
  rcases Classical.em (t.Rejected frame fromPeer) with hrej | hacc
  · exact h.of_routes (by rw [routes_applyUpdate_of_rejected hrej])
  · obtain ⟨e, hget, hvia, hhops, hlearned⟩ := h
    rw [applyUpdate_of_accepted hacc, applyEntries_fst]
    generalize hu : ({ t with peerMaxSeq := t.peerMaxSeq.insert fromPeer frame.sequence } :
      RoutingTable) = u
    have hget' : u.routes.get p = some e := by
      rw [← hu]
      exact hget
    -- the sender is refreshed
    obtain ⟨e₁, hget₁, hvia₁, hhops₁, hlearned₁⟩ :
        (u.touchPeer now frame.sequence fromPeer).1.Direct p := by
      rw [Direct, get_touchPeer, hget', known]
      split
      · exact ⟨_, rfl, hvia, hhops, hlearned⟩
      · exact ⟨e, rfl, hvia, hhops, hlearned⟩
    -- the loop
    have hlooped : (frame.entries.foldl (applyEntry now frame.sequence fromPeer)
        (u.touchPeer now frame.sequence fromPeer)).1.Direct p := by
      rcases Decidable.em
        (p = (u.touchPeer now frame.sequence fromPeer).1.selfId) with hself | hself
      · rw [Direct, get_loop_of_unlisted _ (.inl hself)]
        exact ⟨e₁, hget₁, hvia₁, hhops₁, hlearned₁⟩
      · rw [Direct, get_loop, if_neg hself, hget₁]
        refine direct_relaxAll (fun hp ad had => ?_) hvia₁ hhops₁ hlearned₁
        obtain ⟨hmem, hdst⟩ := mem_entriesFor.mp had
        exact hown hp hacc ad hmem hdst
    refine hlooped.removeRoutes fun hmem => ?_
    obtain ⟨e₂, hget₂, hlearned₂, hne, -⟩ := mem_withdrawn.mp hmem
    obtain ⟨e₃, hget₃, -, -, hlearned₃⟩ := hlooped
    obtain rfl := some.inj (hget₂.symm.trans hget₃)
    exact hne (hlearned₃.symm.trans hlearned₂)

variable (h : t.DirectlyRoutable)

include h

omit [Blake3] in
/-- A call that keeps neighbours and blacklist keeps the property if it keeps the direct
routes. -/
theorem DirectlyRoutable.of_direct (hpeers : t'.directPeers = t.directPeers)
    (hlist : t'.blacklistedPeers = t.blacklistedPeers)
    (hdirect : ∀ p, t.directPeers.contains p = true → t.isBlacklisted p = false → t.Direct p →
      t'.Direct p) : t'.DirectlyRoutable := by
  intro p hp hfree
  rw [hpeers] at hp
  rw [isBlacklisted, hlist] at hfree
  exact hdirect p hp hfree (h p hp hfree)

theorem DirectlyRoutable.addPeer (now : Nat) (peerId : NodeId) :
    (t.addPeer now peerId).DirectlyRoutable := by
  intro p hp hfree
  rcases Decidable.em (p = peerId) with rfl | hne
  · exact direct_addPeer t now p
  · have hp' := ((contains_insert _ _ _ _).mp hp).resolve_left hne
    exact (h p hp' hfree).of_routes ((get_insertRoute _ _ _ _).trans (if_neg hne))

omit [Blake3] in
theorem DirectlyRoutable.removePeer (peerId : NodeId) :
    (t.removePeer peerId).1.DirectlyRoutable := by
  simp only [RoutingTable.removePeer, removeRoutesVia_fst, removeRoutes_peers]
  intro p hp hfree
  have hne : p ≠ peerId := by
    rintro rfl
    rw [contains_iff, get_remove_self] at hp
    cases hp
  rw [contains_iff, get_remove_ne _ hne] at hp
  rw [(onlyRoutes_removeRoutes t _).blacklistedPeers] at hfree
  exact (h p hp hfree).removeVia hne

omit [Blake3] in
theorem DirectlyRoutable.blacklistPeer (peerId : NodeId) :
    (t.blacklistPeer peerId).1.DirectlyRoutable := by
  unfold RoutingTable.blacklistPeer
  rw [removeRoutesVia_fst]
  intro p hp hfree
  have honly := onlyRoutes_removeRoutes
    ({ t with blacklistedPeers := t.blacklistedPeers.insert peerId () } : RoutingTable)
  rw [(honly _).directPeers] at hp
  rw [isBlacklisted, (honly _).blacklistedPeers, ← Bool.not_eq_true, contains_insert,
    not_or, Bool.not_eq_true] at hfree
  exact Direct.removeVia ((h p hp hfree.2).of_routes rfl) hfree.1

omit [Blake3] in
/-- A peer that is taken off the list has to have kept its route. -/
theorem DirectlyRoutable.unblacklistPeer {peerId : NodeId}
    (hback : t.directPeers.contains peerId = true → t.Direct peerId) :
    (t.unblacklistPeer peerId).DirectlyRoutable := by
  intro p hp hfree
  rcases Decidable.em (p = peerId) with rfl | hne
  · exact hback hp
  · refine h p hp ?_
    rw [isBlacklisted, RoutingTable.unblacklistPeer, contains, get_remove_ne _ hne] at hfree
    exact hfree

/-- One call of the table keeps every neighbour routable, if it is careful. -/
theorem DirectlyRoutable.performTable {op : TableOp} (hcareful : t.Careful (.table op))
    (hop : op.perform t = some t') : t'.DirectlyRoutable := by
  cases op with
  | addPeer now peerId =>
    cases hop
    exact h.addPeer now peerId
  | removePeer peerId =>
    cases hop
    exact h.removePeer peerId
  | applyUpdate now update fromPeer =>
    cases hop
    obtain ⟨_, honly⟩ := onlyRoutes_applyUpdate t now update fromPeer
    refine h.of_direct honly.directPeers honly.blacklistedPeers fun p hp hfree hdirect => ?_
    refine hdirect.applyUpdate now ?_
    rintro rfl hacc
    exact hcareful hp hfree hacc
  | generateAdvertisement toPeer =>
    obtain ⟨⟨t₁, frame⟩, hgen, rfl⟩ := map_eq_some_iff.mp hop
    obtain ⟨seq, -, rfl, -⟩ := generateAdvertisement_eq_some hgen
    exact h.of_direct rfl rfl fun _ _ _ hdirect => hdirect
  | blacklistPeer peerId =>
    cases hop
    exact h.blacklistPeer peerId
  | unblacklistPeer peerId =>
    cases hop
    exact h.unblacklistPeer hcareful
  | updateGatewayLoad gwId load | updateGatewayRtt gwId rttMs =>
    cases hop
    refine h.of_direct rfl rfl fun p _ _ hdirect => hdirect.modify gwId fun e => ?_
    split <;> exact ⟨rfl, rfl, rfl⟩
  | expireStale now maxAge =>
    cases hop
    rw [expireStale_fst]
    have honly := onlyRoutes_removeRoutes t
    refine h.of_direct (honly _).directPeers (honly _).blacklistedPeers
      fun p hp hfree hdirect => hdirect.removeRoutes fun hmem => ?_
    obtain ⟨⟨d, e⟩, hlisted, rfl⟩ := List.mem_map.mp hmem
    obtain ⟨hget, hexpired⟩ := List.mem_filter.mp hlisted
    rw [hcareful d e hp hfree ((mem_iter _ _ _).mp hget)] at hexpired
    cases hexpired

theorem DirectlyRoutable.perform (hcareful : t.Careful op) (hop : op.perform t = some t') :
    t'.DirectlyRoutable := by
  cases op with
  | table op => exact h.performTable hcareful hop
  | removeRoutesVia peer =>
    cases hop
    rw [removeRoutesVia_fst]
    have honly := onlyRoutes_removeRoutes t
    refine h.of_direct (honly _).directPeers (honly _).blacklistedPeers
      fun p hp hfree hdirect => hdirect.removeVia ?_
    rintro rfl
    rw [hcareful hp] at hfree
    cases hfree
  | setSelfMeshIp meshIp | setIpv4Prefix pre =>
    cases hop
    exact h.of_direct rfl rfl fun _ _ _ hdirect => hdirect

omit h

/-- After every sequence of public calls that are all careful, a neighbour that is not
blacklisted has a route of one hop through itself. -/
theorem neighbours_directly_routable {selfId : NodeId} {isGateway : Bool}
    {ipv4Prefix : Ipv4Prefix} {ops : List PublicOp}
    (hcareful : Throughout Careful (new selfId isGateway ipv4Prefix) ops)
    (hrun : (new selfId isGateway ipv4Prefix).history ops = some t) (p : NodeId)
    (hp : t.directPeers.contains p = true) (hfree : t.isBlacklisted p = false) :
    ∃ e, t.routes.get p = some e ∧ e.nextHop = p ∧ e.hops = 1 := by
  have hstart : (new selfId isGateway ipv4Prefix).DirectlyRoutable := by
    intro q hq
    cases hq
  have hroutable := history_invariant (fun _ _ _ h hP hop => DirectlyRoutable.perform h hP hop)
    hstart hcareful hrun
  obtain ⟨e, hget, hvia, hhops, -⟩ := hroutable p hp hfree
  exact ⟨e, hget, hvia, hhops⟩

/-- Node 2 connects and sends an update about itself. -/
def ownUpdate (hops : UInt8) : List PublicOp :=
  [.table (.addPeer 0 (nodeOf 2)),
    .table (.applyUpdate 1 (listing (nodeOf 2) 1 [(nodeOf 2, hops)]) (nodeOf 2))]

omit [Blake3] in
/-- Node 2 lists itself as out of reach, and has no route any more. -/
theorem neighbour_poisons_itself :
    letI := transparentBlake3
    ∃ t, firstTable.history (ownUpdate 15) = some t ∧
      t.directPeers.contains (nodeOf 2) = true ∧ t.isBlacklisted (nodeOf 2) = false ∧
      t.routes.get (nodeOf 2) = none := by
  let _ := transparentBlake3
  have hfacts : (firstTable.history (ownUpdate 15)).map (fun t =>
      (t.directPeers.contains (nodeOf 2), t.isBlacklisted (nodeOf 2),
        t.routes.get (nodeOf 2))) = some (true, false, none) := by
    decide +kernel
  obtain ⟨t, hrun, hfacts⟩ := map_eq_some_iff.mp hfacts
  simp only [Prod.mk.injEq] at hfacts
  exact ⟨t, hrun, hfacts⟩

omit [Blake3] in
/-- Node 2 lists itself with no hops, as every honest node does. -/
theorem honest_neighbour_routable :
    letI := transparentBlake3
    ∃ t, firstTable.history (ownUpdate 0) = some t ∧
      ∃ e, t.routes.get (nodeOf 2) = some e ∧ e.nextHop = nodeOf 2 ∧ e.hops = 1 := by
  let _ := transparentBlake3
  have hfacts : (firstTable.history (ownUpdate 0)).map (fun t =>
      (t.directPeers.contains (nodeOf 2), t.isBlacklisted (nodeOf 2))) =
      some (true, false) := by
    decide +kernel
  obtain ⟨t, hrun, hfacts⟩ := map_eq_some_iff.mp hfacts
  obtain ⟨hp, hfree⟩ := Prod.mk.inj hfacts
  refine ⟨t, hrun, neighbours_directly_routable ?_ hrun _ hp hfree⟩
  refine throughout_cons.mpr ⟨trivial, fun t₁ _ => throughout_cons.mpr ⟨?_, fun _ _ => trivial⟩⟩
  intro _ _ _ ad had _
  rw [List.mem_singleton.mp had]

/-! ## The reverse index -/

/-- Nothing else that is live has the address of `dst`. -/
def Unshared (t : RoutingTable) (dst : NodeId) : Prop :=
  ∀ d, (t.routes.get d).isSome →
    deriveMeshIpv4 d t.ipv4Prefix = deriveMeshIpv4 dst t.ipv4Prefix → d = dst

omit [Blake3] in
theorem route_of_lookupMeshIp {ip : Ipv4Addr} {hop : NodeId}
    (h : t.lookupMeshIp ip = some (d, hop)) : ∃ e, t.routes.get d = some e ∧ e.nextHop = hop := by
  obtain ⟨dst, -, h⟩ := bind_eq_some_iff.mp h
  obtain ⟨e, he, h⟩ := bind_eq_some_iff.mp h
  obtain ⟨-, h⟩ := ite_none_left_eq_some.mp h
  cases h
  exact ⟨e, he, rfl⟩

/-- The owner of an index entry has a route and the address. -/
theorem Sound.route_of_index (h : t.Sound) {ip : Ipv4Addr} {owner : NodeId}
    (hindex : t.meshIpIndex.get ip = some owner) :
    ∃ e, t.routes.get owner = some e ∧ deriveMeshIpv4 owner t.ipv4Prefix = ip := by
  obtain ⟨e, hget, haddr⟩ := h.index _ _ hindex
  rw [(h.entry owner e hget).meshIp] at haddr
  exact ⟨e, hget, some.inj haddr⟩

theorem Sound.owner_unique (h : t.Sound) (hsole : t.Unshared d) {owner : NodeId}
    (hindex : t.meshIpIndex.get (deriveMeshIpv4 d t.ipv4Prefix) = some owner) : owner = d := by
  obtain ⟨e, hget, haddr⟩ := h.route_of_index hindex
  exact hsole owner (by rw [hget]; rfl) haddr

/-- A destination that shares its address with nobody is found by it exactly if the index
has an entry for the address. -/
theorem lookupMeshIp_eq_some_iff (hsound : t.Sound) {nextHop : NodeId} (hsole : t.Unshared d)
    (hroute : t.lookup d = some nextHop) :
    t.lookupMeshIp (deriveMeshIpv4 d t.ipv4Prefix) = some (d, nextHop) ↔
      (t.meshIpIndex.get (deriveMeshIpv4 d t.ipv4Prefix)).isSome := by
  unfold lookup at hroute
  split at hroute
  · cases hroute
  · obtain ⟨entry, hentry, rfl⟩ := map_eq_some_iff.mp hroute
    obtain ⟨hget, hfree⟩ := filter_eq_some_iff.mp hentry
    unfold lookupMeshIp
    cases hindex : t.meshIpIndex.get (deriveMeshIpv4 d t.ipv4Prefix) with
    | none => simp
    | some dst =>
      obtain rfl := hsound.owner_unique hsole hindex
      refine iff_of_true ?_ rfl
      simp only [bind_eq_bind, bind_some, hget]
      exact if_neg (Bool.eq_false_iff.mp ((Bool.not_eq_true' _).mp hfree))

/-- Every live destination has an index entry for its address. -/
def Indexed (t : RoutingTable) : Prop :=
  ∀ d, (t.routes.get d).isSome → (t.meshIpIndex.get (deriveMeshIpv4 d t.ipv4Prefix)).isSome

/-- Two destinations that are live or in `N` have the address. -/
def Contested (t : RoutingTable) (N : NodeId → Prop) (ip : Ipv4Addr) : Prop :=
  ∃ d d', d ≠ d' ∧ ((t.routes.get d).isSome ∨ N d) ∧ ((t.routes.get d').isSome ∨ N d') ∧
    deriveMeshIpv4 d t.ipv4Prefix = ip ∧ deriveMeshIpv4 d' t.ipv4Prefix = ip

section Edits

variable {N : NodeId → Prop} {u u' : RoutingTable}

/-- A destination that stays live keeps its index entry. -/
theorem Edit.index_kept (hsound : u.Sound) (h : Edit N u u') {ip : Ipv4Addr}
    (hlive : (u'.routes.get d).isSome) (hown : u.meshIpIndex.get ip = some d) :
    u'.meshIpIndex.get ip = some d := by
  cases h with
  | remove dst =>
    rw [index_removeRoute, hown, if_neg]
    rintro ⟨hdst, -⟩
    rw [some.inj hdst, get_removeRoute, if_pos rfl] at hlive
    cases hlive
  | insert dst entry =>
    rw [hsound.index_insertRoute, hown]
    split <;> rfl
  | rewrite _ _ _ hindex => rw [hindex, hown]

/-- A destination that becomes live is entered, unless its address has an owner. -/
theorem Edit.index_entered (hsound : u.Sound) (h : Edit N u u')
    (hlive : (u'.routes.get d).isSome) : (u.routes.get d).isSome ∨ N d ∧
      u'.meshIpIndex.get (deriveMeshIpv4 d u.ipv4Prefix) =
        some ((u.meshIpIndex.get (deriveMeshIpv4 d u.ipv4Prefix)).getD d) := by
  rcases Decidable.em ((u.routes.get d).isSome = true) with hold | hnew
  · exact .inl hold
  have hN := (h.live hlive).resolve_left hnew
  cases h with
  | remove dst =>
    rw [get_removeRoute] at hlive
    split at hlive
    · cases hlive
    · exact absurd hlive hnew
  | insert dst entry =>
    rw [get_insertRoute] at hlive
    split at hlive
    · rename_i hd
      subst hd
      rw [hsound.index_insertRoute, if_pos rfl]
      exact .inr ⟨hN, rfl⟩
    · exact absurd hlive hnew
  | rewrite _ _ _ _ _ hroutes =>
    rw [← isSome_map, hroutes d, isSome_map] at hlive
    exact absurd hlive hnew

/-- What edits of a table `t` have kept: the entries of the destinations they do not enter, and
for the others those that are not contested. -/
structure Held (t : RoutingTable) (N : NodeId → Prop) (u : RoutingTable) : Prop where
  sound : u.Sound
  ipv4Prefix : u.ipv4Prefix = t.ipv4Prefix
  live : ∀ d, (u.routes.get d).isSome → (t.routes.get d).isSome ∨ N d
  kept : ∀ ip owner, t.meshIpIndex.get ip = some owner → ¬ N owner →
    (u.routes.get owner).isSome → u.meshIpIndex.get ip = some owner
  owned : ∀ d, (u.routes.get d).isSome →
    u.meshIpIndex.get (deriveMeshIpv4 d t.ipv4Prefix) = some d ∨
      t.Contested N (deriveMeshIpv4 d t.ipv4Prefix)

theorem Held.edit (h : Held t N u) (hedit : Edit N u u') : Held t N u' where
  sound := h.sound.edit hedit
  ipv4Prefix := hedit.frame.2.trans h.ipv4Prefix
  live d hd := (hedit.live hd).elim (h.live d) .inr
  kept ip owner hindex hN hlive :=
    hedit.index_kept h.sound hlive (h.kept ip owner hindex hN ((hedit.live hlive).resolve_right hN))
  owned d hd := by
    have hnew := hedit.index_entered h.sound hd
    rw [h.ipv4Prefix] at hnew
    rcases hnew with hold | ⟨hN, hentered⟩
    · exact (h.owned d hold).imp_left (hedit.index_kept h.sound hd)
    · cases hindex : u.meshIpIndex.get (deriveMeshIpv4 d t.ipv4Prefix) with
      | none =>
        rw [hindex] at hentered
        exact .inl hentered
      | some owner =>
        rw [hindex] at hentered
        obtain ⟨e, hget, haddr⟩ := h.sound.route_of_index hindex
        rw [h.ipv4Prefix] at haddr
        rcases Decidable.em (owner = d) with rfl | hne
        · exact .inl hentered
        · exact .inr ⟨owner, d, hne, h.live owner (by rw [hget]; rfl), .inr hN, haddr, rfl⟩

/-- Edits keep the index complete if the owner of a contested address is not entered by them and
stays live while anybody with the address does. -/
theorem Indexed.edits (h : t.Indexed) (hsound : t.Sound) (hedits : Edits N t t')
    (howner : ∀ ip, t.Contested N ip → ∃ owner, t.meshIpIndex.get ip = some owner ∧ ¬ N owner ∧
      ∀ d, (t'.routes.get d).isSome → deriveMeshIpv4 d t.ipv4Prefix = ip →
        (t'.routes.get owner).isSome) : t'.Indexed := by
  have hstart : Held t N t := by
    refine ⟨hsound, rfl, fun _ => .inl, fun _ _ hindex _ _ => hindex, fun d hd => ?_⟩
    obtain ⟨owner, hindex⟩ := isSome_iff_exists.mp (h d hd)
    obtain ⟨e, hget, haddr⟩ := hsound.route_of_index hindex
    rcases Decidable.em (owner = d) with rfl | hne
    · exact .inl hindex
    · exact .inr ⟨owner, d, hne, .inl (by rw [hget]; rfl), .inl hd, haddr, rfl⟩
  have hheld := hedits.invariant (I := Held t N) (fun _ _ => Held.edit) hstart
  intro d hd
  rw [hheld.ipv4Prefix]
  rcases hheld.owned d hd with hown | hcontested
  · rw [hown]
    rfl
  · obtain ⟨owner, hindex, hN, hstays⟩ := howner _ hcontested
    rw [hheld.kept _ owner hindex hN (hstays d hd rfl)]
    rfl

end Edits

/-- The destinations that get a route from a call. -/
def PublicOp.Enters (t : RoutingTable) : PublicOp → NodeId → Prop
  | table op, d => op.Enters t d
  | _, _ => False

/-- The condition on a call: an address of two destinations, live ones or such that the call
enters, belongs in the index to one that the call does not enter and that keeps its route as long
as anybody with the address has one. -/
def Harmless (t : RoutingTable) (op : PublicOp) : Prop :=
  ∀ ip, t.Contested (op.Enters t) ip → ∃ owner, t.meshIpIndex.get ip = some owner ∧
    ¬ op.Enters t owner ∧ ∀ t', op.perform t = some t' → ∀ d, (t'.routes.get d).isSome →
      deriveMeshIpv4 d t.ipv4Prefix = ip → (t'.routes.get owner).isSome

/-- The call leaves the prefix alone. -/
def PublicOp.KeepsPrefix : PublicOp → Prop
  | setIpv4Prefix _ => False
  | _ => True

theorem Throughout.and_forall {Q : PublicOp → Prop} (h : Throughout P t ops)
    (hQ : ∀ op ∈ ops, Q op) : Throughout (fun t op => P t op ∧ Q op) t ops := by
  induction ops generalizing t with
  | nil => trivial
  | cons op ops ih =>
    refine ⟨⟨h.1, hQ op List.mem_cons_self⟩, fun t' hop => ih (h.2 t' hop) ?_⟩
    exact fun op' hop' => hQ op' (List.mem_cons_of_mem op hop')

theorem PublicOp.edits_perform (hkeeps : op.KeepsPrefix) (hperform : op.perform t = some t') :
    Edits (op.Enters t) t t' := by
  cases op with
  | table op => exact RoutingTable.edits_perform hperform
  | removeRoutesVia peer =>
    cases hperform
    rw [removeRoutesVia_fst]
    exact edits_removeRoutes t _
  | setSelfMeshIp meshIp =>
    cases hperform
    exact .single (.aside rfl rfl rfl rfl rfl)
  | setIpv4Prefix pre => exact absurd hkeeps id

/-- What holds of a table along a history of harmless calls under one prefix. -/
structure IndexedUnder (pre : Ipv4Prefix) (t : RoutingTable) : Prop where
  indexed : t.Indexed
  sound : t.Sound
  ipv4Prefix : t.ipv4Prefix = pre

theorem IndexedUnder.perform {pre : Ipv4Prefix} (h : IndexedUnder pre t)
    (hop : t.Harmless op ∧ op.KeepsPrefix) (hperform : op.perform t = some t') :
    IndexedUnder pre t' := by
  have hedits := PublicOp.edits_perform hop.2 hperform
  refine ⟨h.indexed.edits h.sound hedits fun ip hcontested => ?_, h.sound.edits hedits,
    hedits.frame.2.trans h.ipv4Prefix⟩
  obtain ⟨owner, hindex, hN, hstays⟩ := hop.1 ip hcontested
  exact ⟨owner, hindex, hN, hstays t' hperform⟩

/-- After every sequence of harmless public calls under one prefix, an address whose routes are
usable is resolved to a live destination with that address. -/
theorem lookupMeshIp_complete {selfId : NodeId} {isGateway : Bool} {ipv4Prefix : Ipv4Prefix}
    {ops : List PublicOp} (hfixed : ∀ op ∈ ops, op.KeepsPrefix)
    (hharmless : Throughout Harmless (new selfId isGateway ipv4Prefix) ops)
    (hrun : (new selfId isGateway ipv4Prefix).history ops = some t) (d : NodeId)
    (hlive : (t.routes.get d).isSome)
    (hfree : ∀ d' e, t.routes.get d' = some e →
      deriveMeshIpv4 d' ipv4Prefix = deriveMeshIpv4 d ipv4Prefix →
      t.isBlacklisted e.nextHop = false) :
    ∃ dst hop, t.lookupMeshIp (deriveMeshIpv4 d ipv4Prefix) = some (dst, hop) ∧
      (t.routes.get dst).isSome ∧ deriveMeshIpv4 dst ipv4Prefix = deriveMeshIpv4 d ipv4Prefix := by
  have hstart : (new selfId isGateway ipv4Prefix).Indexed := by
    intro q hq
    cases hq
  obtain ⟨hindexed, hsound, hpre⟩ := history_invariant (fun _ _ _ => IndexedUnder.perform)
    ⟨hstart, sound_new selfId isGateway ipv4Prefix, rfl⟩ (hharmless.and_forall hfixed) hrun
  obtain rfl : t.ipv4Prefix = ipv4Prefix := hpre
  obtain ⟨owner, hindex⟩ := isSome_iff_exists.mp (hindexed d hlive)
  obtain ⟨e, hget, haddr⟩ := hsound.route_of_index hindex
  refine ⟨owner, e.nextHop, ?_, by rw [hget]; rfl, haddr⟩
  unfold lookupMeshIp
  rw [hindex]
  simp only [bind_eq_bind, bind_some, hget]
  exact if_neg (Bool.eq_false_iff.mp (hfree owner e hget haddr))

/-- A node whose id begins like that of node 2. -/
def twin : NodeId := ⟨.padded 16 (List.replicate 15 2)⟩

omit [Blake3] in
/-- Two neighbours share an address.  When the first one leaves, the other one has a route and
its address resolves to nothing. -/
theorem twin_unresolved :
    letI := transparentBlake3
    ∃ t e, firstTable.history
        [.table (.addPeer 0 (nodeOf 2)), .table (.addPeer 0 twin),
          .table (.removePeer (nodeOf 2))] = some t ∧
      t.routes.get twin = some e ∧ t.isBlacklisted e.nextHop = false ∧
      t.lookupMeshIp (deriveMeshIpv4 twin defaultPrefix) = none := by
  let _ := transparentBlake3
  have hfacts : (firstTable.history
      [.table (.addPeer 0 (nodeOf 2)), .table (.addPeer 0 twin),
        .table (.removePeer (nodeOf 2))]).map (fun t =>
      ((t.routes.get twin).map fun e => t.isBlacklisted e.nextHop,
        t.lookupMeshIp (deriveMeshIpv4 twin defaultPrefix))) =
      some (some false, none) := by
    decide +kernel
  obtain ⟨t, hrun, hfacts⟩ := map_eq_some_iff.mp hfacts
  obtain ⟨hroute, hlookup⟩ := Prod.mk.inj hfacts
  obtain ⟨e, hget, hfree⟩ := map_eq_some_iff.mp hroute
  exact ⟨t, e, hrun, hget, hfree, hlookup⟩

omit [Blake3] in
/-- While both neighbours are there, the address of the second resolves to the first. -/
theorem twin_resolved :
    letI := transparentBlake3
    ∃ t, firstTable.history
        [.table (.addPeer 0 (nodeOf 2)), .table (.addPeer 0 twin)] = some t ∧
      ∃ dst hop, t.lookupMeshIp (deriveMeshIpv4 twin defaultPrefix) = some (dst, hop) ∧
        (t.routes.get dst).isSome ∧ deriveMeshIpv4 dst defaultPrefix =
          deriveMeshIpv4 twin defaultPrefix := by
  let _ := transparentBlake3
  have hrun : firstTable.history
      [.table (.addPeer 0 (nodeOf 2)), .table (.addPeer 0 twin)] = some _ := rfl
  refine ⟨_, hrun, lookupMeshIp_complete ?_ ?_ hrun twin (by decide +kernel) fun _ _ _ _ => rfl⟩
  · intro op hop
    rcases List.mem_pair.mp hop with rfl | rfl
    · trivial
    · trivial
  · refine throughout_cons.mpr ⟨?_, fun t₁ hop => throughout_cons.mpr ⟨?_, fun _ _ => trivial⟩⟩
    · -- nothing is live yet
      rintro ip ⟨d, d', hne, hd | hd, hd' | hd', -⟩
      · cases hd
      · cases hd
      · cases hd'
      · exact absurd ((List.mem_singleton.mp hd.1).trans (List.mem_singleton.mp hd'.1).symm) hne
    · cases hop
      have hfirst {d : NodeId} (hd : ((firstTable.addPeer 0
          (nodeOf 2)).routes.get d).isSome) : d = nodeOf 2 := by
        rw [addPeer, get_insertRoute] at hd
        split at hd
        · assumption
        · cases hd
      rintro ip ⟨d, d', hne, hd, hd', haddr, haddr'⟩
      have hip : deriveMeshIpv4 (nodeOf 2) defaultPrefix = ip := by
        rcases hd with hd | hd
        · exact hfirst hd ▸ haddr
        · rcases hd' with hd' | hd'
          · exact hfirst hd' ▸ haddr'
          · exact absurd ((List.mem_singleton.mp hd.1).trans (List.mem_singleton.mp hd'.1).symm) hne
      subst hip
      refine ⟨nodeOf 2, by decide +kernel, fun h => ?_, fun t' hop d _ _ => ?_⟩
      · exact absurd (List.mem_singleton.mp h.1) (by decide +kernel)
      · cases hop
        decide +kernel

end RoutingTable

end ProximityMesh.Routing
