/-
  Routing/Refinement.lean --- the routing table is a distance-vector node.

  `view` forgets what the protocol does not depend on (mesh addresses, gateway
  metrics, clocks, the reverse index).  On tables whose routes were learned from
  their next hops, `apply_update` is `Node.receive` and `generate_advertisement`
  is `Node.advert` at infinity 16, whatever order the entries of the frame come
  in.
-/
import ProximityMesh.DistanceVector.Basic
import ProximityMesh.Routing.Invariant

set_option autoImplicit false

namespace ProximityMesh.Routing

open Protocol DistanceVector RouteTableEntry HashMap Option

/-- The hop count a list of entries gives for a destination. -/
def offerOf (entries : List RouteEntry) (d : NodeId) : Option Nat :=
  (entries.find? fun e => e.destination = d).map fun e => e.hops.toNat

/-- A frame as an advertisement of the distance-vector protocol. -/
def toAdvert (frame : RouteUpdateFrame) : Advert NodeId :=
  ⟨frame.originId, frame.sequence.toNat, offerOf frame.entries⟩

/-- With one entry for each destination the order of the entries is irrelevant. -/
theorem offerOf_eq_some_iff {entries : List RouteEntry} {d : NodeId} {h : Nat}
    (hnodup : (entries.map RouteEntry.destination).Nodup) :
    offerOf entries d = some h ↔ ∃ ad ∈ entries, ad.destination = d ∧ ad.hops.toNat = h := by
  rw [offerOf, map_eq_some_iff]
  simp [← mem_toList, ← entriesFor_eq_toList hnodup, mem_entriesFor, and_assoc]

/-- The part of an entry the protocol works with. -/
def RouteTableEntry.core (entry : RouteTableEntry) : Route NodeId :=
  ⟨entry.nextHop, entry.hops.toNat, entry.sequence.toNat⟩

namespace RoutingTable

def routeOf (t : RoutingTable) (d : NodeId) : Option (Route NodeId) :=
  (t.routes.get d).map RouteTableEntry.core

/-- The table as a node of the distance-vector protocol. -/
def view (t : RoutingTable) : Node NodeId where
  routes := t.routeOf
  maxSeq := fun p => ((t.peerMaxSeq.get p).getD 0).toNat
  seq := t.sequence.toNat
  peers := { p | t.directPeers.contains p }

/-! ## Well-formed tables -/

/-- What an entry written by this node looks like. -/
def RouteTableEntry.Wf (entry : RouteTableEntry) : Prop :=
  entry.learnedFrom = entry.nextHop ∧ 0 < entry.hops.toNat

/-- Routes are learned from their next hop and have at least one hop, and none
leads to the node itself. -/
structure Wf (t : RoutingTable) : Prop where
  self : t.routes.get t.selfId = none
  entry : ∀ d e, t.routes.get d = some e → RouteTableEntry.Wf e

variable [Blake3] {t t' : RoutingTable} {frame : RouteUpdateFrame}

theorem Wf.edits {N : NodeId → Prop} (h : t.Wf) (hnever : ¬ N t.selfId) (hedits : Edits N t t') :
    t'.Wf := by
  refine ⟨SelfFree.edits h.self hnever hedits, hedits.invariant (I := fun u => ∀ d e,
    u.routes.get d = some e → RouteTableEntry.Wf e) (fun u u' hu hedit d e hget => ?_) h.entry⟩
  cases hedit with
  | remove dst =>
    rw [get_removeRoute] at hget
    split at hget
    · cases hget
    · exact hu d e hget
  | insert dst entry _ hpos _ hlearned =>
    rw [get_insertRoute] at hget
    split at hget
    · cases hget
      exact ⟨hlearned.symm, UInt8.le_iff_toNat_le.mp hpos⟩
    · exact hu d e hget
  | rewrite _ _ _ _ _ hroutes =>
    have hd := hroutes d
    rw [hget] at hd
    obtain ⟨e₀, hget₀, heq⟩ := map_eq_some_iff.mp hd.symm
    simp only [RouteTableEntry.fixed, Prod.mk.injEq] at heq
    obtain ⟨hnext, hhops, hlearned, -⟩ := heq
    rw [RouteTableEntry.Wf, ← hnext, ← hhops, ← hlearned]
    exact hu d e₀ hget₀

theorem wf_applyUpdate (hwf : t.Wf) (hself : frame.originId ≠ t.selfId) (now : Nat) :
    (t.applyUpdate now frame frame.originId).1.Wf ∧
      (t.applyUpdate now frame frame.originId).1.selfId = t.selfId := by
  have hedits : Edits (· ≠ t.selfId) t (t.applyUpdate now frame frame.originId).1 :=
    edits_applyUpdate t now hself fun _ _ h => h
  exact ⟨hwf.edits (not_not.mpr rfl) hedits, hedits.frame.1⟩

/-! ## Receiving -/

theorem core_known (pre : Ipv4Prefix) (now : Nat) (sequence : UInt64) (fromPeer d : NodeId)
    (old : Option RouteTableEntry) :
    (known pre now sequence fromPeer d old).map core =
      if d = fromPeer then
        some ((old.map core).getD ⟨fromPeer, 1, sequence.toNat⟩)
      else old.map core := by
  unfold known
  split
  · cases old <;> rfl
  · rfl

/-- One advertised entry does what `follow` says. -/
theorem core_relax (pre : Ipv4Prefix) (now : Nat) (sequence : UInt64) (fromPeer : NodeId)
    (ad : RouteEntry) (old : Option RouteTableEntry) :
    (relax pre now sequence fromPeer ad old).map core =
      follow 16 fromPeer sequence.toNat ad.hops.toNat (old.map core) := by
  have hn := toNat_newHops ad.hops
  cases old with
  | none =>
    simp only [relax, follow, map_none]
    split
    · rfl
    · simp only [map_some, core, learned, hn]
      rw [Nat.min_eq_left (by omega)]
  | some r =>
    simp only [relax, follow]
    split
    · rw [apply_ite (Option.map core)]
      rfl
    · rw [apply_ite (Option.map core)]
      simp only [map_some, core, learned, hn]
      rw [Nat.min_eq_left (by omega)]
      exact if_congr Iff.rfl rfl rfl

/-- A frame an honest node sends: one entry for each destination, and zero hops
for itself only. -/
structure Honest (frame : RouteUpdateFrame) : Prop where
  nodup : (frame.entries.map RouteEntry.destination).Nodup
  sound : suspicious frame = false

/-- `apply_update` on an honest frame is `Node.receive`. -/
theorem view_applyUpdate (hwf : t.Wf) (hself : frame.originId ≠ t.selfId) (hframe : Honest frame)
    (now : Nat) :
    (t.applyUpdate now frame frame.originId).1.view =
      t.view.receive 16 t.selfId (toAdvert frame) := by
  by_cases hold : frame.sequence ≤ (t.peerMaxSeq.get frame.originId).getD 0
  · unfold applyUpdate
    simp only [ne_eq, if_pos hold]
    exact (receive_rejected (UInt64.le_iff_toNat_le.mp hold)).symm
  have hacc : ¬ t.Rejected frame frame.originId := by
    rintro (hother | hstale | hclaims)
    · exact hother rfl
    · exact hold hstale
    · exact Bool.false_ne_true (hframe.sound.symm.trans ((suspicious_iff frame).mpr hclaims))
  have honly := @onlyRoutes_applyEntries _ now frame.originId
    { t with peerMaxSeq := t.peerMaxSeq.insert frame.originId frame.sequence } frame
  rw [← applyUpdate_of_accepted hacc] at honly
  have hnew : ¬ (toAdvert frame).seq ≤ t.view.maxSeq (toAdvert frame).origin :=
    mt UInt64.le_iff_toNat_le.mpr hold
  rw [Node.receive, if_neg hnew]
  refine Node.ext ?_ ?_ (congrArg UInt64.toNat honly.sequence) ?_
  · funext d
    show Option.map _ _ = if d = t.selfId then t.routeOf d else _
    split
    · rename_i hd
      obtain ⟨hwf', hself'⟩ := wf_applyUpdate hwf hself now
      rw [hd, routeOf, hwf.self, ← hself', hwf'.self]
    · rename_i hd
      have hlearned : t.Learned := fun d r hget => (hwf.entry d r hget).1.symm
      rw [get_applyUpdate hlearned hacc hd, entriesFor_eq_toList hframe.nodup]
      refine Eq.trans ?_ (congrArg (process 16 frame.originId frame.sequence.toNat d
        (offerOf frame.entries d)) (core_known t.ipv4Prefix now frame.sequence frame.originId d _))
      rw [offerOf]
      cases frame.entries.find? fun e => e.destination = d with
      | some ad =>
        exact core_relax ..
      | none =>
        by_cases hsender : d = frame.originId
        · rw [hsender, known]
          simp [relaxAll, process]
        · rw [if_pos ⟨rfl, hsender⟩, known, if_neg hsender]
          cases t.routes.get d with
          | none => rfl
          | some r =>
            by_cases hvia : r.nextHop = frame.originId
            · simp [process, hvia, hsender, core]
            · simp [process, hvia, core]
  · funext p
    show ((get (applyUpdate _ _ _ _).1.peerMaxSeq p).getD 0).toNat =
      if p = frame.originId then frame.sequence.toNat else _
    rw [honly.peerMaxSeq, get_insert]
    split
    · rfl
    · rfl
  · show { p | contains (applyUpdate _ _ _ _).1.directPeers p } = _
    rw [honly.directPeers]
    rfl

/-! ## Advertising -/

section Advertise

omit [Blake3]

variable {toPeer : NodeId}

theorem honest_of_perm (hwf : t.Wf) {sent : RouteUpdateFrame}
    (h : t.generateAdvertisement toPeer = some (t', frame))
    (horigin : sent.originId = frame.originId) (hperm : sent.entries.Perm frame.entries) :
    Honest sent := by
  obtain ⟨s, -, -, hid, -, hentries⟩ := generateAdvertisement_eq_some h
  constructor
  · rw [(hperm.map _).nodup_iff]
    exact nodup_destinations hwf.self h
  · rw [suspicious, List.any_eq_false]
    intro ad had
    rw [hperm.mem_iff, hentries, List.mem_cons, mem_filterMap_advertiseEntry] at had
    rcases had with rfl | ⟨e, hget, -, hhops, -, -⟩
    · simp [horigin, hid]
    · have hpos : ad.hops.toNat ≠ 0 := by
        rw [hhops]
        split
        · decide
        · exact (hwf.entry _ e hget).2.ne'
      have hne : ad.hops ≠ 0 := fun h0 => hpos (by rw [h0]; rfl)
      simp [hne]

/-- The frame for `toPeer` is the advertisement of the protocol, in whatever
order its entries are. -/
theorem toAdvert_generateAdvertisement (hwf : t.Wf) {sent : RouteUpdateFrame}
    (h : t.generateAdvertisement toPeer = some (t', frame))
    (horigin : sent.originId = frame.originId) (hseq : sent.sequence = frame.sequence)
    (hperm : sent.entries.Perm frame.entries) :
    toAdvert sent = t.view.advert 16 t.selfId toPeer (t.view.seq + 1) := by
  have hhonest := honest_of_perm hwf h horigin hperm
  obtain ⟨s, hs, -, hid, hsent, hentries⟩ := generateAdvertisement_eq_some h
  have hoffer : offerOf sent.entries = t.view.offer 16 t.selfId toPeer := by
    funext d
    refine ext fun x => ?_
    rw [offerOf_eq_some_iff hhonest.nodup]
    simp only [hperm.mem_iff, hentries, List.mem_cons, mem_filterMap_advertiseEntry]
    unfold Node.offer
    split
    · rename_i hd
      refine ⟨?_, fun hx => ⟨_, .inl rfl, hd.symm, some.inj hx⟩⟩
      rintro ⟨ad, rfl | ⟨e, hget, -⟩, had, hx⟩
      · rw [← hx]
        rfl
      · rw [had, hd, hwf.self] at hget
        cases hget
    · rename_i hd
      split
      · rename_i hto
        refine ⟨?_, fun hx => absurd hx.symm (some_ne_none x)⟩
        rintro ⟨ad, rfl | ⟨e, -, hne, -⟩, had, -⟩
        · exact absurd had.symm hd
        · exact absurd (had.trans hto) hne
      · rename_i hto
        rw [map_eq_some_iff]
        constructor
        · rintro ⟨ad, rfl | ⟨e, hget, -, hhops, -⟩, had, hx⟩
          · exact absurd had.symm hd
          · rw [had] at hget
            refine ⟨e.core, congrArg (Option.map core) hget, ?_⟩
            rw [← hx, hhops, (hwf.entry d e hget).1, apply_ite UInt8.toNat]
            rfl
        · rintro ⟨r, hr, hx⟩
          obtain ⟨e, hget, rfl⟩ := map_eq_some_iff.mp hr
          refine ⟨⟨d, if e.learnedFrom = toPeer then infinity else e.hops,
            gatewayFlag e.isGateway, meshIpOctets e.meshIp⟩,
            .inr ⟨e, hget, hto, rfl, rfl, rfl⟩, rfl, ?_⟩
          rw [← hx, (hwf.entry d e hget).1, apply_ite UInt8.toNat]
          rfl
  have hseq' : sent.sequence.toNat = t.view.seq + 1 := by
    rw [hseq, hsent]
    exact toNat_nextSequence hs
  rw [toAdvert, Node.advert, horigin, hid, hseq', hoffer]

theorem view_generateAdvertisement (h : t.generateAdvertisement toPeer = some (t', frame)) :
    t'.view = { t.view with seq := t.view.seq + 1 } := by
  obtain ⟨s, hs, rfl, -⟩ := generateAdvertisement_eq_some h
  refine Node.ext rfl rfl ?_ rfl
  exact toNat_nextSequence hs

end Advertise

/-! ## New tables and new peers -/

theorem view_addPeer (now : Nat) (peer : NodeId) :
    (t.addPeer now peer).view = t.view.addPeer peer := by
  refine Node.ext ?_ rfl rfl ?_
  · funext d
    refine (congrArg (Option.map _) (get_insertRoute _ peer d _)).trans ?_
    split
    · exact (if_pos ‹_›).symm
    · exact (if_neg ‹_›).symm
  · refine Set.ext fun p => ?_
    show ((insert t.directPeers peer ()).get p).isSome = true ↔
      p = peer ∨ (t.directPeers.get p).isSome = true
    rw [get_insert]
    split
    · rename_i hp
      simp [hp]
    · rename_i hp
      simp [hp]

theorem wf_addPeer (hwf : t.Wf) {peer : NodeId} (hself : peer ≠ t.selfId) (now : Nat) :
    (t.addPeer now peer).Wf :=
  hwf.edits (fun ⟨_, henters⟩ => henters.elim (hself <| some.inj ·) (· rfl))
    (edits_perform (show TableOp.perform t (.addPeer now peer) = some _ from rfl))

omit [Blake3] in
theorem view_new (id : NodeId) (isGateway : Bool) (pre : Ipv4Prefix) :
    (new id isGateway pre).view = Node.fresh := by
  refine Node.ext rfl rfl rfl (Set.ext fun p => ?_)
  show (empty.get p).isSome = true ↔ False
  simp

omit [Blake3] in
theorem wf_new (id : NodeId) (isGateway : Bool) (pre : Ipv4Prefix) : (new id isGateway pre).Wf :=
  ⟨rfl, fun _ _ h => nomatch h⟩

end RoutingTable

end ProximityMesh.Routing
