/-
  Routing/Invariant.lean --- what holds of every reachable routing table.

  Source: crates/pim-routing/src/table.rs.

  The operations change routes in two ways, `insert_route` and `remove_route`, and
  rewrite metrics in place.  `Sound` is kept by both, with no condition on the peer
  ids.  The bound on sequence numbers is the part that needs the operations
  together: `remove_peer` forgets the highest sequence number of a peer, and keeps
  the bound because it drops every route through that peer as well.
-/
import ProximityMesh.Crypto.Transparent
import ProximityMesh.Routing.Effects

set_option autoImplicit false

namespace ProximityMesh.Routing

open Protocol RoutingTable HashMap List Option

namespace RoutingTable

variable [Blake3]

/-- The highest sequence number recorded for a peer, 0 if there is none. -/
def maxSeqOf (t : RoutingTable) (peer : NodeId) : UInt64 := (t.peerMaxSeq.get peer).getD 0

/-- What an entry for `dst` looks like. -/
structure SoundEntry (t : RoutingTable) (dst : NodeId) (entry : RouteTableEntry) : Prop where
  hops_pos : 1 ≤ entry.hops
  hops_le : entry.hops ≤ 15
  learned : entry.nextHop = entry.learnedFrom
  meshIp : entry.meshIp = some (deriveMeshIpv4 dst t.ipv4Prefix)
  sequence : entry.sequence ≤ t.maxSeqOf entry.nextHop

/-- Every entry is sound, and the reverse index points at live routes. -/
structure Sound (t : RoutingTable) : Prop where
  entry : ∀ dst entry, t.routes.get dst = some entry → t.SoundEntry dst entry
  index : ∀ ip dst, t.meshIpIndex.get ip = some dst →
    ∃ entry, t.routes.get dst = some entry ∧ entry.meshIp = some ip

omit [Blake3] in
theorem get_routes_new (selfId : NodeId) (isGateway : Bool) (ipv4Prefix : Ipv4Prefix)
    (d : NodeId) : (new selfId isGateway ipv4Prefix).routes.get d = none := get_empty d

theorem sound_new (selfId : NodeId) (isGateway : Bool) (ipv4Prefix : Ipv4Prefix) :
    (new selfId isGateway ipv4Prefix).Sound where
  entry dst entry h := by
    cases h
  index ip dst h := by
    cases h

variable {t' : RoutingTable} {dst : NodeId} {entry : RouteTableEntry}

/-- An entry is sound in a table with the same prefix that records at least as much of its
next hop. -/
theorem SoundEntry.mono {t : RoutingTable} (h : t.SoundEntry dst entry)
    (hpre : t'.ipv4Prefix = t.ipv4Prefix)
    (hseq : t.maxSeqOf entry.nextHop ≤ t'.maxSeqOf entry.nextHop) : t'.SoundEntry dst entry where
  hops_pos := h.hops_pos
  hops_le := h.hops_le
  learned := h.learned
  meshIp := hpre ▸ h.meshIp
  sequence := UInt64.le_trans h.sequence hseq

/-! ## Writes to single routes -/

theorem Sound.index_removeRoute {t : RoutingTable} (h : t.Sound) {d : NodeId} {ip : Ipv4Addr}
    (hindex : (t.removeRoute dst).meshIpIndex.get ip = some d) :
    t.meshIpIndex.get ip = some d ∧ d ≠ dst := by
  rw [RoutingTable.index_removeRoute] at hindex
  split at hindex
  · cases hindex
  · rename_i hother
    refine ⟨hindex, ?_⟩
    rintro rfl
    obtain ⟨entry, hentry, haddr⟩ := h.index ip d hindex
    exact hother ⟨hindex, by rw [hentry]; exact haddr⟩

theorem Sound.removeRoute {t : RoutingTable} (h : t.Sound) (dst : NodeId) :
    (t.removeRoute dst).Sound := by
  have honly := onlyRoutes_removeRoute t dst
  constructor
  · intro d entry hget
    rw [get_removeRoute] at hget
    split at hget
    · cases hget
    · refine (h.entry d entry hget).mono honly.ipv4Prefix ?_
      rw [maxSeqOf, maxSeqOf, honly.peerMaxSeq]
      exact UInt64.le_refl _
  · intro ip d hindex
    obtain ⟨hold, hne⟩ := h.index_removeRoute hindex
    obtain ⟨entry, hentry, haddr⟩ := h.index ip d hold
    refine ⟨entry, ?_, haddr⟩
    rw [get_removeRoute, if_neg hne]
    exact hentry

/-- With a fixed prefix no address is given up on insertion. -/
theorem Sound.releaseMeshIp {t : RoutingTable} (h : t.Sound) (dst : NodeId) :
    t.releaseMeshIp dst (deriveMeshIpv4 dst t.ipv4Prefix) = t.meshIpIndex := by
  unfold RoutingTable.releaseMeshIp
  cases hdst : t.routes.get dst with
  | none => rfl
  | some old =>
    simp only [bind_some, (h.entry dst old hdst).meshIp]
    exact if_neg (not_not.mpr rfl)

/-- The destination is entered if nobody owns its address. -/
theorem Sound.index_insertRoute {t : RoutingTable} (h : t.Sound) (ip : Ipv4Addr) :
    (t.insertRoute dst entry).meshIpIndex.get ip =
      if ip = deriveMeshIpv4 dst t.ipv4Prefix then some ((t.meshIpIndex.get ip).getD dst)
      else t.meshIpIndex.get ip := by
  simp only [insertRoute, h.releaseMeshIp, claimMeshIp]
  grind [get_insert]

theorem Sound.insertRoute {t : RoutingTable} (h : t.Sound) (hpos : 1 ≤ entry.hops)
    (hle : entry.hops ≤ 15) (hlearned : entry.nextHop = entry.learnedFrom)
    (hseq : entry.sequence ≤ t.maxSeqOf entry.nextHop) : (t.insertRoute dst entry).Sound := by
  constructor
  · intro d e hget
    rw [get_insertRoute] at hget
    split at hget
    · rename_i hd
      subst hd
      cases hget
      exact ⟨hpos, hle, hlearned, rfl, hseq⟩
    · exact (h.entry d e hget).mono rfl (UInt64.le_refl _)
  · intro ip d hindex
    rw [get_insertRoute]
    have hcases : t.meshIpIndex.get ip = some d ∨
        (d = dst ∧ ip = deriveMeshIpv4 dst t.ipv4Prefix) := by
      rw [h.index_insertRoute] at hindex
      cases howner : t.meshIpIndex.get ip with
      | none | some owner => grind
    rcases hcases with hold | ⟨rfl, rfl⟩
    · obtain ⟨old, hget, haddr⟩ := h.index ip d hold
      split
      · rename_i hd
        subst hd
        -- the old entry of `dst` had the derived address already
        rw [(h.entry d old hget).meshIp] at haddr
        exact ⟨_, rfl, haddr⟩
      · exact ⟨old, hget, haddr⟩
    · rw [if_pos rfl]
      exact ⟨_, rfl, rfl⟩

/-! ## Edits -/

/-- What `Sound` says of an entry is about these fields. -/
def RouteTableEntry.fixed (e : RouteTableEntry) :
    NodeId × UInt8 × NodeId × UInt64 × Option Ipv4Addr :=
  (e.nextHop, e.hops, e.learnedFrom, e.sequence, e.meshIp)

/-- The calls edit the table in three ways; only destinations in `N` get a new route. -/
inductive Edit (N : NodeId → Prop) (t : RoutingTable) : RoutingTable → Prop
  | remove (dst : NodeId) : Edit N t (t.removeRoute dst)
  | insert (dst : NodeId) (entry : RouteTableEntry) (hdst : N dst) (hpos : 1 ≤ entry.hops)
      (hle : entry.hops ≤ 15) (hlearned : entry.nextHop = entry.learnedFrom)
      (hseq : entry.sequence ≤ t.maxSeqOf entry.nextHop) : Edit N t (t.insertRoute dst entry)
  | rewrite (t' : RoutingTable) (hself : t'.selfId = t.selfId)
      (hpre : t'.ipv4Prefix = t.ipv4Prefix) (hindex : t'.meshIpIndex = t.meshIpIndex)
      (hseq : ∀ d e, t.routes.get d = some e → t.maxSeqOf e.nextHop ≤ t'.maxSeqOf e.nextHop)
      (hroutes : ∀ d, (t'.routes.get d).map RouteTableEntry.fixed =
        (t.routes.get d).map RouteTableEntry.fixed) : Edit N t t'

abbrev Edits (N : NodeId → Prop) : RoutingTable → RoutingTable → Prop :=
  Relation.ReflTransGen (Edit N)

variable {N : NodeId → Prop} {t : RoutingTable} {d : NodeId}

theorem Edits.invariant {I : RoutingTable → Prop} (h : Edits N t t')
    (hstep : ∀ u u', I u → Edit N u u' → I u') (ht : I t) : I t' := by
  induction h with
  | refl => exact ht
  | tail _ hedit ih => exact hstep _ _ ih hedit

theorem Edit.frame (h : Edit N t t') : t'.selfId = t.selfId ∧ t'.ipv4Prefix = t.ipv4Prefix := by
  cases h with
  | remove dst =>
    exact ⟨(onlyRoutes_removeRoute t dst).selfId, (onlyRoutes_removeRoute t dst).ipv4Prefix⟩
  | insert dst entry => exact ⟨rfl, rfl⟩
  | rewrite _ hself hpre => exact ⟨hself, hpre⟩

/-- An edit makes at most a destination in `N` live. -/
theorem Edit.live (h : Edit N t t') (hd : (t'.routes.get d).isSome) :
    (t.routes.get d).isSome ∨ N d := by
  cases h with
  | remove dst =>
    rw [get_removeRoute] at hd
    split at hd
    · cases hd
    · exact .inl hd
  | insert dst entry hdst =>
    rw [get_insertRoute] at hd
    split at hd
    · rename_i heq
      exact .inr (heq ▸ hdst)
    · exact .inl hd
  | rewrite _ _ _ _ _ hroutes =>
    rw [← isSome_map, ← hroutes d, isSome_map]
    exact .inl hd

theorem Sound.edit (h : t.Sound) (hedit : Edit N t t') : t'.Sound := by
  cases hedit with
  | remove dst => exact h.removeRoute dst
  | insert dst entry hdst hpos hle hlearned hseq => exact h.insertRoute hpos hle hlearned hseq
  | rewrite _ _ hpre hindex hseq hroutes =>
    constructor
    · intro d e' hget
      have hd := hroutes d
      rw [hget] at hd
      obtain ⟨e, he, heq⟩ := map_eq_some_iff.mp hd.symm
      simp only [RouteTableEntry.fixed, Prod.mk.injEq] at heq
      obtain ⟨hnext, hhops, hlearned, hsequence, haddr⟩ := heq
      have hsound := (h.entry d e he).mono hpre (hseq d e he)
      exact ⟨hhops ▸ hsound.hops_pos, hhops ▸ hsound.hops_le, hnext ▸ hlearned ▸ hsound.learned,
        haddr ▸ hsound.meshIp, hnext ▸ hsequence ▸ hsound.sequence⟩
    · intro ip d hget
      rw [hindex] at hget
      obtain ⟨e, he, haddr⟩ := h.index ip d hget
      have hd := hroutes d
      rw [he] at hd
      obtain ⟨e', he', heq⟩ := map_eq_some_iff.mp hd
      simp only [RouteTableEntry.fixed, Prod.mk.injEq] at heq
      exact ⟨e', he', heq.2.2.2.2.trans haddr⟩

theorem Edit.aside (hself : t'.selfId = t.selfId) (hpre : t'.ipv4Prefix = t.ipv4Prefix)
    (hindex : t'.meshIpIndex = t.meshIpIndex) (hseq : t'.peerMaxSeq = t.peerMaxSeq)
    (hroutes : t'.routes = t.routes) : Edit N t t' := by
  refine .rewrite t' hself hpre hindex (fun _ e _ => ?_) fun d => by rw [hroutes]
  rw [maxSeqOf, maxSeqOf, hseq]
  exact UInt64.le_refl _

theorem Edit.modify (dst : NodeId) {f : RouteTableEntry → RouteTableEntry}
    (hf : ∀ e, RouteTableEntry.fixed (f e) = RouteTableEntry.fixed e) :
    Edit N t { t with routes := t.routes.modify dst f } := by
  refine .rewrite _ rfl rfl rfl (fun _ _ _ => UInt64.le_refl _) fun d => ?_
  rw [get_modify]
  split
  · rename_i hd
    rw [hd, Option.map_map]
    exact map_congr fun e _ => hf e
  · rfl

theorem edits_removeRoutes (t : RoutingTable) (dsts : List NodeId) :
    Edits N t (t.removeRoutes dsts) := by
  induction dsts generalizing t with
  | nil => exact .refl
  | cons dst dsts ih => exact (Relation.ReflTransGen.single (.remove dst)).trans (ih _)

/-! ## The loop of `apply_update` -/

variable {now : Nat} {sequence : UInt64} {fromPeer : NodeId}

theorem edits_touchPeer (hpeer : N fromPeer) (hseq : sequence ≤ t.maxSeqOf fromPeer) :
    Edits N t (t.touchPeer now sequence fromPeer).1 := by
  unfold touchPeer
  cases hget : t.routes.get fromPeer with
  | none =>
    exact .single (.insert fromPeer _ hpeer (UInt8.le_refl 1) (show 1 ≤ 15 by decide) rfl
      hseq)
  | some entry =>
    refine .single (.rewrite _ rfl rfl rfl (fun _ _ _ => UInt64.le_refl _) fun d => ?_)
    rw [get_insert]
    split
    · rename_i hd
      rw [hd, hget]
      rfl
    · rfl

theorem edits_applyEntry (changed : Bool) {ad : RouteEntry}
    (had : ad.destination ≠ t.selfId → N ad.destination) (hseq : sequence ≤ t.maxSeqOf fromPeer) :
    Edits N t (applyEntry now sequence fromPeer (t, changed) ad).1 := by
  rcases @applyEntry_eq _ now sequence fromPeer t changed ad with
    ht' | ht' | ⟨hself, hlt, metrics, ht'⟩
  · rw [ht']
  · rw [ht']
    exact .single (.remove _)
  · have hhops : (learned now sequence fromPeer ad metrics).hops.toNat = ad.hops.toNat + 1 :=
      (toNat_newHops ad.hops).trans (Nat.min_eq_left (by omega))
    rw [ht']
    refine .single (.insert _ _ (had hself) ?_ ?_ rfl hseq)
    · rw [UInt8.le_iff_toNat_le, hhops]
      exact Nat.succ_le_succ (Nat.zero_le _)
    · rw [UInt8.le_iff_toNat_le, hhops]
      exact Nat.le_of_lt_succ hlt

theorem edits_foldl_applyEntry (entries : List RouteEntry) (s : RoutingTable × Bool)
    (hall : ∀ ad ∈ entries, ad.destination ≠ s.1.selfId → N ad.destination)
    (hseq : sequence ≤ s.1.maxSeqOf fromPeer) :
    Edits N s.1 (entries.foldl (applyEntry now sequence fromPeer) s).1 := by
  induction entries generalizing s with
  | nil => exact .refl
  | cons ad entries ih =>
    obtain ⟨t, changed⟩ := s
    have honly := @onlyRoutes_applyEntry _ now sequence fromPeer t changed ad
    refine (edits_applyEntry changed (hall ad mem_cons_self) hseq).trans (ih _ ?_ ?_)
    · rw [honly.selfId]
      exact fun ad' had' => hall ad' (mem_cons_of_mem ad had')
    · rw [maxSeqOf, honly.peerMaxSeq]
      exact hseq

theorem edits_applyUpdate (t : RoutingTable) (now : Nat) {frame : RouteUpdateFrame}
    (hpeer : N fromPeer)
    (hall : ∀ ad ∈ frame.entries, ad.destination ≠ t.selfId → N ad.destination) :
    Edits N t (t.applyUpdate now frame fromPeer).1 := by
  unfold applyUpdate
  split
  · exact .refl
  · split
    · exact .refl
    · rename_i hnew
      let u : RoutingTable := { t with peerMaxSeq := t.peerMaxSeq.insert fromPeer frame.sequence }
      have hrecord : Edits N t u := by
        refine .single (.rewrite u rfl rfl rfl (fun _ e _ => ?_) fun _ => rfl)
        rw [maxSeqOf, maxSeqOf, get_insert]
        split
        · rename_i hvia
          rw [hvia]
          exact UInt64.le_of_lt (UInt64.not_le.mp hnew)
        · exact UInt64.le_refl _
      have hseq : frame.sequence ≤ u.maxSeqOf fromPeer := by
        rw [maxSeqOf, get_insert_self]
        exact UInt64.le_refl _
      split
      · exact hrecord
      · have honly := onlyRoutes_touchPeer u now frame.sequence fromPeer
        rw [applyEntries_fst]
        refine ((hrecord.trans (edits_touchPeer hpeer hseq)).trans
          (edits_foldl_applyEntry _ _ ?_ ?_)).trans (edits_removeRoutes _ _)
        · rw [honly.selfId]
          exact hall
        · rw [maxSeqOf, honly.peerMaxSeq]
          exact hseq

/-! ## Recorded sequence numbers -/

omit [Blake3] in
theorem peerMaxSeq_removePeer (t : RoutingTable) (peerId : NodeId) :
    (t.removePeer peerId).1.peerMaxSeq = t.peerMaxSeq.remove peerId := by
  unfold removePeer
  rw [removeRoutesVia_fst, (onlyRoutes_removeRoutes _ _).peerMaxSeq]

theorem peerMaxSeq_applyUpdate (t : RoutingTable) (now : Nat) (frame : RouteUpdateFrame)
    (fromPeer : NodeId) :
    (t.applyUpdate now frame fromPeer).1.peerMaxSeq =
      if frame.originId = fromPeer ∧ t.maxSeqOf fromPeer < frame.sequence then
        t.peerMaxSeq.insert fromPeer frame.sequence
      else t.peerMaxSeq := by
  unfold applyUpdate
  split
  · rename_i horigin
    rw [if_neg fun h => horigin h.1]
  · rename_i horigin
    split
    · rename_i hold
      rw [if_neg fun h => UInt64.not_le.mpr h.2 hold]
    · rename_i hnew
      refine Eq.trans ?_ (if_pos ⟨not_not.mp horigin, UInt64.not_le.mp hnew⟩).symm
      split
      · rfl
      · exact (onlyRoutes_applyEntries _ frame).peerMaxSeq

/-! ## Runs -/

/-- A call that changes the table; a clock reading is part of the call. -/
inductive TableOp where
  | addPeer (now : Nat) (peerId : NodeId)
  | removePeer (peerId : NodeId)
  | applyUpdate (now : Nat) (update : RouteUpdateFrame) (fromPeer : NodeId)
  | generateAdvertisement (toPeer : NodeId)
  | blacklistPeer (peerId : NodeId)
  | unblacklistPeer (peerId : NodeId)
  | updateGatewayLoad (gwId : NodeId) (load : UInt8)
  | updateGatewayRtt (gwId : NodeId) (rttMs : UInt32)
  | expireStale (now maxAge : Nat)

namespace TableOp

/-- The peer the call is about. -/
def peer : TableOp → Option NodeId
  | addPeer _ peerId => some peerId
  | removePeer peerId => some peerId
  | applyUpdate _ _ fromPeer => some fromPeer
  | generateAdvertisement toPeer => some toPeer
  | blacklistPeer peerId => some peerId
  | unblacklistPeer peerId => some peerId
  | updateGatewayLoad gwId _ => some gwId
  | updateGatewayRtt gwId _ => some gwId
  | expireStale _ _ => none

/-- The peer the call may make a route to. -/
def introduces : TableOp → Option NodeId
  | addPeer _ peerId => some peerId
  | applyUpdate _ _ fromPeer => some fromPeer
  | _ => none

/-- The destinations a call may make a route to. -/
def names : TableOp → List NodeId
  | addPeer _ peerId => [peerId]
  | applyUpdate _ update fromPeer => fromPeer :: update.entries.map RouteEntry.destination
  | _ => []

/-- The destinations that get a route from it in the table `t`: an update does not enter the
node itself, unless it comes from there. -/
def Enters (op : TableOp) (t : RoutingTable) (d : NodeId) : Prop :=
  d ∈ op.names ∧ (op.introduces = some d ∨ d ≠ t.selfId)

omit [Blake3] in
theorem peer_of_introduces {op : TableOp} {id : NodeId} (h : op.introduces = some id) :
    op.peer = some id := by
  cases op with
  | addPeer now peerId | applyUpdate now update fromPeer => exact h
  | _ => exact absurd h.symm (some_ne_none id)

/-- The table after the call; `none` if it panicked. -/
def perform (t : RoutingTable) : TableOp → Option RoutingTable
  | addPeer now peerId => some (t.addPeer now peerId)
  | removePeer peerId => some (t.removePeer peerId).1
  | applyUpdate now update fromPeer => some (t.applyUpdate now update fromPeer).1
  | generateAdvertisement toPeer => (t.generateAdvertisement toPeer).map Prod.fst
  | blacklistPeer peerId => some (t.blacklistPeer peerId).1
  | unblacklistPeer peerId => some (t.unblacklistPeer peerId)
  | updateGatewayLoad gwId load => some (t.updateGatewayLoad gwId load)
  | updateGatewayRtt gwId rttMs => some (t.updateGatewayRtt gwId rttMs)
  | expireStale now maxAge => some (t.expireStale now maxAge).1

end TableOp

/-- The table after a sequence of calls that all return. -/
def run (t : RoutingTable) : List TableOp → Option RoutingTable
  | [] => some t
  | op :: ops => (op.perform t).bind fun t' => t'.run ops

/-! ## Every operation -/

omit [Blake3] in
theorem expireStale_fst (t : RoutingTable) (now maxAge : Nat) :
    (t.expireStale now maxAge).1 =
      t.removeRoutes ((t.routes.iter.filter fun e => e.2.isExpired now maxAge).map Prod.fst) := by
  unfold expireStale
  dsimp only
  split
  · rename_i hempty
    rw [isEmpty_iff.mp hempty]
    rfl
  · rfl

omit [Blake3] in
theorem removeRoutes_peers (t : RoutingTable) (dsts : List NodeId) (directPeers : HashSet NodeId)
    (peerMaxSeq : HashMap NodeId UInt64) :
    ({ t with directPeers, peerMaxSeq } : RoutingTable).removeRoutes dsts =
      { t.removeRoutes dsts with directPeers, peerMaxSeq } := by
  unfold removeRoutes
  induction dsts generalizing t with
  | nil => rfl
  | cons dst dsts ih =>
    have hstep : ({ t with directPeers, peerMaxSeq }).removeRoute dst =
        { t.removeRoute dst with directPeers, peerMaxSeq } := by
      unfold removeRoute
      cases t.routes.get dst <;> simp only
    rw [foldl_cons, foldl_cons, hstep, ih]

/-- The sequence number of a peer can be forgotten once nothing goes through it. -/
theorem edits_removePeer (t : RoutingTable) (peerId : NodeId) :
    Edits N t (t.removePeer peerId).1 := by
  simp only [removePeer, removeRoutesVia_fst, removeRoutes_peers]
  refine (edits_removeRoutes t _).tail (.rewrite _ rfl rfl rfl (fun d e hget => ?_) fun _ => rfl)
  have hother : e.nextHop ≠ peerId := by
    rw [get_removeRoutes] at hget
    split at hget
    · cases hget
    · rename_i hkept
      exact fun hvia => hkept ((t.mem_via_iff peerId d).mpr ⟨e, hget, hvia⟩)
  rw [maxSeqOf, maxSeqOf, get_remove_ne _ hother, (onlyRoutes_removeRoutes t _).peerMaxSeq]
  exact UInt64.le_refl _

variable {op : TableOp} {ops : List TableOp}

theorem edits_perform (hop : op.perform t = some t') : Edits (op.Enters t) t t' := by
  cases op with
  | addPeer now peerId =>
    cases hop
    refine .tail (b := { t with directPeers := t.directPeers.insert peerId () })
      (.single (.aside rfl rfl rfl rfl rfl)) ?_
    exact .insert peerId _ ⟨mem_cons_self, .inl rfl⟩ (UInt8.le_refl 1)
      (show 1 ≤ 15 by decide) rfl (UInt64.le_iff_toNat_le.mpr (Nat.zero_le _))
  | removePeer peerId =>
    cases hop
    exact edits_removePeer t peerId
  | applyUpdate now update fromPeer =>
    cases hop
    refine edits_applyUpdate t now ⟨mem_cons_self, .inl rfl⟩ fun ad had hself => ?_
    exact ⟨mem_cons_of_mem _ (mem_map_of_mem had), .inr hself⟩
  | generateAdvertisement toPeer =>
    obtain ⟨⟨t₁, frame⟩, hgen, rfl⟩ := map_eq_some_iff.mp hop
    obtain ⟨seq, -, rfl, -⟩ := generateAdvertisement_eq_some hgen
    exact .single (.aside rfl rfl rfl rfl rfl)
  | blacklistPeer peerId =>
    cases hop
    simp only [blacklistPeer, removeRoutesVia_fst]
    exact .trans (b := { t with blacklistedPeers := t.blacklistedPeers.insert peerId () })
      (.single (.aside rfl rfl rfl rfl rfl)) (edits_removeRoutes _ _)
  | unblacklistPeer peerId =>
    cases hop
    exact .single (.aside rfl rfl rfl rfl rfl)
  | updateGatewayLoad gwId load | updateGatewayRtt gwId rttMs =>
    cases hop
    refine .single (.modify gwId fun e => ?_)
    split <;> rfl
  | expireStale now maxAge =>
    cases hop
    rw [expireStale_fst]
    exact edits_removeRoutes _ _

theorem Sound.edits (h : t.Sound) (hedits : Edits N t t') : t'.Sound :=
  hedits.invariant (fun _ _ => Sound.edit) h

/-- No call changes whose table it is or the prefix. -/
theorem Edits.frame (h : Edits N t t') : t'.selfId = t.selfId ∧ t'.ipv4Prefix = t.ipv4Prefix :=
  h.invariant (I := fun u => u.selfId = t.selfId ∧ u.ipv4Prefix = t.ipv4Prefix)
    (fun _ _ hu hedit => ⟨hedit.frame.1.trans hu.1, hedit.frame.2.trans hu.2⟩) ⟨rfl, rfl⟩

/-- There is no route to the node itself. -/
def SelfFree (t : RoutingTable) : Prop := t.routes.get t.selfId = none

theorem SelfFree.edits (h : t.SelfFree) (hnever : ¬ N t.selfId) (hedits : Edits N t t') :
    t'.SelfFree := by
  have hlive : ¬ (t'.routes.get t.selfId).isSome :=
    hedits.invariant
      (fun _ _ hu hedit hd => (hedit.live hd).elim hu hnever) (by rw [h]; exact Bool.false_ne_true)
  rw [SelfFree, hedits.frame.1]
  exact not_isSome_iff_eq_none.mp hlive

/-- A call about this node itself is harmless unless it adds or updates a peer. -/
theorem SelfFree.perform (h : t.SelfFree) (hpeer : op.introduces ≠ some t.selfId)
    (hop : op.perform t = some t') : t'.SelfFree :=
  h.edits (fun ⟨_, henters⟩ => henters.elim hpeer (· rfl)) (edits_perform hop)

theorem Sound.run (h : t.Sound) (hrun : t.run ops = some t') : t'.Sound := by
  induction ops generalizing t with
  | nil =>
    cases hrun
    exact h
  | cons op ops ih =>
    obtain ⟨t₁, hop, hrest⟩ := bind_eq_some_iff.mp hrun
    exact ih (h.edits (edits_perform hop)) hrest

theorem run_frame (hrun : t.run ops = some t') :
    t'.selfId = t.selfId ∧ t'.ipv4Prefix = t.ipv4Prefix := by
  induction ops generalizing t with
  | nil =>
    cases hrun
    exact ⟨rfl, rfl⟩
  | cons op ops ih =>
    obtain ⟨t₁, hop, hrest⟩ := bind_eq_some_iff.mp hrun
    obtain ⟨hself, hpre⟩ := (edits_perform hop).frame
    obtain ⟨hself', hpre'⟩ := ih hrest
    exact ⟨hself'.trans hself, hpre'.trans hpre⟩

theorem SelfFree.run (h : t.SelfFree) (hpeers : ∀ op ∈ ops, op.introduces ≠ some t.selfId)
    (hrun : t.run ops = some t') : t'.SelfFree := by
  induction ops generalizing t with
  | nil =>
    cases hrun
    exact h
  | cons op ops ih =>
    obtain ⟨t₁, hop, hrest⟩ := bind_eq_some_iff.mp hrun
    have hhere := h.perform (hpeers op mem_cons_self) hop
    refine ih hhere (fun op' hop' => ?_) hrest
    rw [(edits_perform hop).frame.1]
    exact hpeers op' (mem_cons_of_mem op hop')

/-- The advertisements for a list of peers are calls for one peer each. -/
theorem run_of_generateFor {peers : List NodeId} {frames : List (NodeId × RouteUpdateFrame)}
    (h : t.generateFor peers = some (t', frames)) :
    t.run (peers.map .generateAdvertisement) = some t' := by
  induction peers generalizing t frames with
  | nil =>
    obtain ⟨rfl, -⟩ : t = t' ∧ [] = frames := by simpa [generateFor] using h
    rfl
  | cons peer peers ih =>
    obtain ⟨⟨t₁, frame⟩, hgen, h⟩ := bind_eq_some_iff.mp h
    obtain ⟨⟨t₂, rest⟩, hrest, h⟩ := bind_eq_some_iff.mp h
    obtain ⟨rfl, -⟩ := Prod.mk.inj (some.inj h)
    refine bind_eq_some_iff.mpr ⟨t₁, ?_, ih hrest⟩
    exact congrArg (Option.map Prod.fst) hgen

/-- After every sequence of calls about other nodes, every route is to another node, has 1 to
15 hops, was learned from its next hop, has the derived address and a sequence number
that its next hop has sent; and every index entry points at a live route with that
address. -/
theorem run_new_invariant {selfId : NodeId} {isGateway : Bool} {ipv4Prefix : Ipv4Prefix}
    {ops : List TableOp} {t : RoutingTable} (hpeers : ∀ op ∈ ops, op.peer ≠ some selfId)
    (hrun : (new selfId isGateway ipv4Prefix).run ops = some t) :
    (∀ dst entry, t.routes.get dst = some entry →
      dst ≠ selfId ∧ 1 ≤ entry.hops ∧ entry.hops ≤ 15 ∧ entry.nextHop = entry.learnedFrom ∧
        entry.meshIp = some (deriveMeshIpv4 dst ipv4Prefix) ∧
        entry.sequence ≤ (t.peerMaxSeq.get entry.nextHop).getD 0) ∧
      ∀ ip dst, t.meshIpIndex.get ip = some dst →
        ∃ entry, t.routes.get dst = some entry ∧ entry.meshIp = some ip := by
  have hsound := (sound_new selfId isGateway ipv4Prefix).run hrun
  have hstart : (new selfId isGateway ipv4Prefix).SelfFree := get_routes_new _ _ _ selfId
  have hfree := hstart.run
    (fun op hop hself => hpeers op hop (TableOp.peer_of_introduces hself)) hrun
  obtain ⟨hself, hpre⟩ := run_frame hrun
  have hpre : t.ipv4Prefix = ipv4Prefix := hpre
  refine ⟨fun dst entry hget => ?_, hsound.index⟩
  have hentry := hsound.entry dst entry hget
  refine ⟨?_, hentry.hops_pos, hentry.hops_le, hentry.learned, hpre ▸ hentry.meshIp,
    hentry.sequence⟩
  intro hdst
  have hnone : t.routes.get dst = none := by
    rw [hdst, show selfId = t.selfId from hself.symm]
    exact hfree
  exact some_ne_none entry (hget.symm.trans hnone)

/-- A node id made of one repeated byte. -/
def nodeOf (n : UInt8) : NodeId := ⟨.fill 16 n⟩

/-- The prefix `10.77.0.0/16`. -/
def defaultPrefix : Ipv4Prefix := ⟨⟨0x0A4D0000⟩, 16⟩

/-- The table of node 1 at its start. -/
def firstTable : RoutingTable := new (nodeOf 1) false defaultPrefix

/-- A peer that advertises itself as a gateway and a node behind it. -/
def exampleUpdate : RouteUpdateFrame where
  originId := nodeOf 2
  sequence := 1
  entries :=
    [{ destination := nodeOf 2, hops := 0, flags := 0x01, meshIp := .zero 4 },
      { destination := nodeOf 3, hops := 14, flags := 0x00, meshIp := .zero 4 }]
  signature := .zero 64

omit [Blake3] in
/-- A run that adds a peer, takes up its advertisement and advertises in turn ends with a
route of 15 hops, within the bounds. -/
theorem run_example_invariant :
    letI := transparentBlake3
    ∃ t entry, firstTable.run
        [.addPeer 0 (nodeOf 2), .applyUpdate 1 exampleUpdate (nodeOf 2),
          .generateAdvertisement (nodeOf 2)] = some t ∧
      t.routes.get (nodeOf 3) = some entry ∧ entry.hops ≤ 15 ∧
      entry.sequence ≤ (t.peerMaxSeq.get entry.nextHop).getD 0 := by
  let _ := transparentBlake3
  have hreturns : ((firstTable.run
        [.addPeer 0 (nodeOf 2), .applyUpdate 1 exampleUpdate (nodeOf 2),
          .generateAdvertisement (nodeOf 2)]).bind fun t =>
      t.routes.get (nodeOf 3)).isSome := by
    decide +kernel
  obtain ⟨entry, hentry⟩ := isSome_iff_exists.mp hreturns
  obtain ⟨t, hrun, hget⟩ := bind_eq_some_iff.mp hentry
  have hroute := (run_new_invariant (by decide +kernel) hrun).1 _ entry hget
  exact ⟨t, entry, hrun, hget, hroute.2.2.1, hroute.2.2.2.2.2⟩

/-! ## The elected gateway -/

def score (e : RouteTableEntry) : Nat := gatewayScore e.hops e.gatewayLoad e.rttMs

omit [Blake3] in
theorem minByScore_cases (l : List (NodeId × RouteTableEntry)) : (minByScore l = none ∧ l = []) ∨
    ∃ b ∈ l, minByScore l = some b ∧ ∀ e ∈ l, score b.2 ≤ score e.2 := by
  induction l with
  | nil => exact .inl ⟨rfl, rfl⟩
  | cons e rest ih =>
    rcases ih with ⟨hnone, rfl⟩ | ⟨b, hb, hsome, hleast⟩
    · simp [minByScore]
    · grind [score, minByScore]

/-- A live route to a gateway, through a peer that is not blacklisted. -/
def Usable (t : RoutingTable) (gw : NodeId) (e : RouteTableEntry) : Prop :=
  t.routes.get gw = some e ∧ e.isGateway = true ∧ t.isBlacklisted e.nextHop = false

/-- After every sequence of calls, a node that is no gateway elects a usable gateway of least
score, unless there is none, and hands its derived address to the route installer. -/
theorem run_new_gateway {selfId : NodeId} {isGateway : Bool} {ipv4Prefix : Ipv4Prefix}
    (hrun : (new selfId isGateway ipv4Prefix).run ops = some t) (hclient : t.isGateway = false) :
    (t.nearestGatewayRoute = none ∧ ∀ d e, ¬ t.Usable d e) ∨
      ∃ gw e, t.nearestGatewayRoute = some (gw, e.nextHop) ∧ t.Usable gw e ∧
        t.nearestGatewayMeshIp = some (deriveMeshIpv4 gw ipv4Prefix) ∧
        ∀ d e', t.Usable d e' → score e ≤ score e' := by
  have hsound := (sound_new selfId isGateway ipv4Prefix).run hrun
  obtain ⟨l, hl, hmem⟩ : ∃ l, t.bestGatewayEntry = minByScore l ∧
      ∀ d e, (d, e) ∈ l ↔ t.Usable d e := by
    refine ⟨_, rfl, fun d e => ?_⟩
    -- the hop limit excludes no entry
    have hlt (hget : t.routes.get d = some e) : e.hops < infinity :=
      UInt8.lt_of_le_of_lt (hsound.entry d e hget).hops_le (by decide)
    grind [mem_iter, Usable, isBlacklisted]
  rw [nearestGatewayMeshIp, nearestGatewayRoute, hclient, hl]
  rcases minByScore_cases l with ⟨hbest, rfl⟩ | ⟨b, hb, hbest, hleast⟩
  · exact .inl ⟨by rw [hbest]; rfl, fun d e he => not_mem_nil ((hmem d e).mpr he)⟩
  · have huse := (hmem b.1 b.2).mp hb
    have haddr := (hsound.entry _ _ huse.1).meshIp
    rw [(run_frame hrun).2] at haddr
    rw [hbest]
    exact .inr ⟨b.1, b.2, rfl, huse, haddr, fun d e he => hleast (d, e) ((hmem d e).mpr he)⟩

/-- A node that has taken up the advertisement of a gateway. -/
def exampleRun : Option RoutingTable := firstTable.run
  [.addPeer 0 (nodeOf 2), .applyUpdate 1 exampleUpdate (nodeOf 2)]

omit [Blake3] in
theorem run_example_gateway :
    letI := transparentBlake3
    ∃ t gw e, exampleRun = some t ∧ t.Usable gw e ∧
      t.nearestGatewayRoute = some (gw, e.nextHop) := by
  let _ := transparentBlake3
  have hfacts : exampleRun.map (fun t => (t.isGateway, t.nearestGatewayRoute.isNone)) =
      some (false, false) := by
    decide +kernel
  obtain ⟨t, hrun, hfacts⟩ := map_eq_some_iff.mp hfacts
  obtain ⟨hclient, hroute⟩ := Prod.mk.inj hfacts
  rcases run_new_gateway hrun hclient with ⟨hnone, -⟩ | ⟨gw, e, hgw, huse, -⟩
  · rw [hnone] at hroute
    cases hroute
  · exact ⟨t, gw, e, hrun, huse, hgw⟩

end RoutingTable

end ProximityMesh.Routing
