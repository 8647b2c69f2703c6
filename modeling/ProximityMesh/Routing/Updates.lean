/-
  Routing/Updates.lean --- what one update does to a destination.

  Source: `apply_update`, `blacklist_peer` and `lookup` of
  crates/pim-routing/src/table.rs.

  Nothing is assumed of the frame: it may list a destination several times, and the
  table may not know its sender.  `get_applyUpdate` is the route of a destination
  after an accepted update.  Updates of a blacklisted peer are applied like any
  other, and only the lookup looks at the blacklist, so that a shorter offer of that
  peer takes a destination out of reach.
-/
import ProximityMesh.Routing.BellmanFord

set_option autoImplicit false

namespace ProximityMesh.Routing

open Protocol RouteTableEntry List Option

namespace RoutingTable

variable [Blake3] {t : RoutingTable} {pre : Ipv4Prefix} {now : Nat} {sequence : UInt64}
  {fromPeer : NodeId} {frame : RouteUpdateFrame}

variable {d q : NodeId} {r : RouteTableEntry} {ads : List RouteEntry}

/-! ## Routes that a list of entries leaves alone -/

/-- A route that new words of the sender do not move: it goes elsewhere, or is as new as the
update. -/
def Settled (sequence : UInt64) (fromPeer : NodeId) (r : RouteTableEntry) : Prop :=
  r.nextHop = fromPeer → sequence ≤ r.sequence

/-- The entry neither poisons the route nor offers a shorter one. -/
def Spares (fromPeer : NodeId) (r : RouteTableEntry) (ad : RouteEntry) : Prop :=
  (16 ≤ ad.hops.toNat + 1 ∧ r.nextHop ≠ fromPeer) ∨
    (ad.hops.toNat + 1 < 16 ∧ r.hops.toNat ≤ ad.hops.toNat + 1)

omit [Blake3] in
theorem Settled.replaces_iff {r : RouteTableEntry} (h : Settled sequence fromPeer r)
    (ad : RouteEntry) :
    Replaces sequence fromPeer ad r ↔ ad.hops.toNat + 1 < r.hops.toNat := by
  refine or_iff_left ?_
  rintro ⟨hnew, hvia⟩
  exact UInt64.not_le.mpr hnew (h hvia)

theorem relax_of_spares (h : Settled sequence fromPeer r) {ad : RouteEntry}
    (hspares : Spares fromPeer r ad) : relax pre now sequence fromPeer ad (some r) = some r := by
  rcases hspares with ⟨hge, hother⟩ | ⟨hlt, hle⟩
  · rw [relax, if_pos hge, if_neg hother]
  · rw [relax, if_neg (Nat.not_le.mpr hlt), if_neg (mt (h.replaces_iff ad).mp (Nat.not_lt.mpr hle))]

theorem relaxAll_of_spares (h : Settled sequence fromPeer r)
    (hspares : ∀ ad ∈ ads, Spares fromPeer r ad) :
    relaxAll pre now sequence fromPeer ads (some r) = some r := by
  unfold relaxAll
  induction ads with
  | nil => rfl
  | cons ad ads ih =>
    rw [foldl_cons, relax_of_spares h (hspares ad mem_cons_self)]
    exact ih fun ad' had' => hspares ad' (mem_cons_of_mem ad had')

/-- A route around the sender outlasts entries that offer nothing shorter. -/
theorem relaxAll_of_longer (hother : r.nextHop ≠ fromPeer)
    (hlong : ∀ ad ∈ ads, r.hops.toNat ≤ ad.hops.toNat + 1) :
    relaxAll pre now sequence fromPeer ads (some r) = some r := by
  refine relaxAll_of_spares (fun hvia => absurd hvia hother) fun ad had => ?_
  rcases Nat.lt_or_ge (ad.hops.toNat + 1) 16 with hlt | hge
  · exact .inr ⟨hlt, hlong ad had⟩
  · exact .inl ⟨hge, hother⟩

theorem relaxAll_none (hpoison : ∀ ad ∈ ads, 16 ≤ ad.hops.toNat + 1) :
    relaxAll pre now sequence fromPeer ads none = none := by
  unfold relaxAll
  induction ads with
  | nil => rfl
  | cons ad ads ih =>
    rw [foldl_cons, relax, if_pos (hpoison ad mem_cons_self)]
    exact ih fun ad' had' => hpoison ad' (mem_cons_of_mem ad had')

/-- What the loop installs goes through the sender. -/
theorem relax_cases (pre : Ipv4Prefix) (now : Nat) (sequence : UInt64) (fromPeer : NodeId)
    (ad : RouteEntry) (old : Option RouteTableEntry) :
    relax pre now sequence fromPeer ad old = old ∨
      relax pre now sequence fromPeer ad old = none ∨
      ad.hops.toNat + 1 < 16 ∧ ∃ metrics, relax pre now sequence fromPeer ad old =
        some { learned now sequence fromPeer ad metrics with
          meshIp := some (deriveMeshIpv4 ad.destination pre) } := by
  cases old with
  | none =>
    rcases Nat.lt_or_ge (ad.hops.toNat + 1) 16 with hlt | hge
    · exact .inr (.inr ⟨hlt, _, if_neg (Nat.not_le.mpr hlt)⟩)
    · exact .inl (if_pos hge)
  | some r =>
    rcases Nat.lt_or_ge (ad.hops.toNat + 1) 16 with hlt | hge
    · rw [relax, if_neg (Nat.not_le.mpr hlt)]
      split
      · exact .inr (.inr ⟨hlt, _, rfl⟩)
      · exact .inl rfl
    · rw [relax, if_pos hge]
      split
      · exact .inr (.inl rfl)
      · exact .inl rfl

/-- A route through the sender stays with it or goes. -/
theorem relaxAll_via {old : Option RouteTableEntry} (h : ∀ r, old = some r → r.nextHop = fromPeer) :
    ∀ r, relaxAll pre now sequence fromPeer ads old = some r → r.nextHop = fromPeer := by
  induction ads generalizing old with
  | nil => exact h
  | cons ad ads ih =>
    refine ih fun r hr => ?_
    rcases relax_cases pre now sequence fromPeer ad old with hold | hnone | ⟨-, _, hnew⟩
    · exact h r (hold.symm.trans hr)
    · exact absurd (hr.symm.trans hnone) (some_ne_none r)
    · rw [← some.inj (hnew.symm.trans hr)]
      rfl

/-- A shorter offer moves a settled route to the sender, from where it does not come back. -/
theorem relaxAll_via_of_shorter (h : Settled sequence fromPeer r) (hother : r.nextHop ≠ fromPeer)
    (hshort : ∃ ad ∈ ads, ad.hops.toNat + 1 < 16 ∧ ad.hops.toNat + 1 < r.hops.toNat) :
    ∀ r', relaxAll pre now sequence fromPeer ads (some r) = some r' → r'.nextHop = fromPeer := by
  unfold relaxAll
  induction ads with
  | nil =>
    obtain ⟨ad, had, -⟩ := hshort
    exact absurd had not_mem_nil
  | cons ad ads ih =>
    rw [foldl_cons]
    rcases Classical.em (Spares fromPeer r ad) with hspares | hmoves
    · rw [relax_of_spares h hspares]
      refine ih ?_
      obtain ⟨ad', had', hlt, hless⟩ := hshort
      rcases mem_cons.mp had' with rfl | had'
      · rcases hspares with ⟨hge, -⟩ | ⟨-, hle⟩
        · exact absurd hlt (Nat.not_lt.mpr hge)
        · exact absurd hless (Nat.not_lt.mpr hle)
      · exact ⟨ad', had', hlt, hless⟩
    · -- the first entry that does not spare the route
      have hlt : ad.hops.toNat + 1 < 16 :=
        Nat.not_le.mp fun hge => hmoves (.inl ⟨hge, hother⟩)
      have hless : ad.hops.toNat + 1 < r.hops.toNat :=
        Nat.not_le.mp fun hle => hmoves (.inr ⟨hlt, hle⟩)
      refine relaxAll_via fun r' hr' => ?_
      rw [relax, if_neg (Nat.not_le.mpr hlt), if_pos (.inl hless)] at hr'
      rw [← some.inj hr']
      rfl

/-! ## Next hops in use -/

/-- Some route goes through `q`. -/
def Via (t : RoutingTable) (q : NodeId) : Prop := ∃ d e, t.routes.get d = some e ∧ e.nextHop = q

omit [Blake3] in
theorem via_removeRoutes {dsts : List NodeId} {q : NodeId} (h : (t.removeRoutes dsts).Via q) :
    t.Via q := by
  obtain ⟨d, e, hget, hvia⟩ := h
  rw [get_removeRoutes] at hget
  split at hget
  · cases hget
  · exact ⟨d, e, hget, hvia⟩

theorem via_addPeer {peerId : NodeId} (h : (t.addPeer now peerId).Via q) :
    t.Via q ∨ q = peerId := by
  obtain ⟨d, e, hget, rfl⟩ := h
  rw [addPeer, get_insertRoute] at hget
  split at hget
  · exact .inr (congrArg nextHop (some.inj hget)).symm
  · exact .inl ⟨d, e, hget, rfl⟩

omit [Blake3] in
theorem directPeers_removePeer (peerId : NodeId) :
    (t.removePeer peerId).1.directPeers = t.directPeers.remove peerId := by
  rw [removePeer, removeRoutesVia_fst, (onlyRoutes_removeRoutes _ _).directPeers]

omit [Blake3] in
theorem via_updateGatewayLoad (gwId : NodeId) (load : UInt8) :
    (t.updateGatewayLoad gwId load).Via = t.Via := by
  have hhop : ∀ e : RouteTableEntry,
      (if e.isGateway then { e with gatewayLoad := load } else e).nextHop = e.nextHop := by
    intro e
    split
    · rfl
    · rfl
  funext q
  refine propext ⟨fun ⟨d, e, hget, hvia⟩ => ?_, fun ⟨d, e, hget, hvia⟩ => ?_⟩
  · rw [updateGatewayLoad, HashMap.get_modify] at hget
    split at hget
    · obtain ⟨e₀, hget₀, rfl⟩ := map_eq_some_iff.mp hget
      exact ⟨gwId, e₀, hget₀, (hhop e₀).symm.trans hvia⟩
    · exact ⟨d, e, hget, hvia⟩
  · rcases Decidable.em (d = gwId) with rfl | hne
    · refine ⟨d, _, ?_, (hhop e).trans hvia⟩
      rw [updateGatewayLoad, HashMap.get_modify, if_pos rfl, hget]
      rfl
    · refine ⟨d, e, ?_, hvia⟩
      rw [updateGatewayLoad, HashMap.get_modify, if_neg hne]
      exact hget

omit [Blake3] in
theorem via_removePeer {peerId : NodeId} (h : (t.removePeer peerId).1.Via q) :
    t.Via q ∧ q ≠ peerId := by
  obtain ⟨d, e, hget, rfl⟩ := h
  simp only [removePeer, removeRoutesVia_fst] at hget
  rw [get_removeRoutes] at hget
  split at hget
  · cases hget
  · rename_i hkept
    exact ⟨⟨d, e, hget, rfl⟩, fun hvia => hkept ((t.mem_via_iff peerId d).mpr ⟨e, hget, hvia⟩)⟩

theorem via_applyEntry {changed : Bool} {ad : RouteEntry}
    (h : (applyEntry now sequence fromPeer (t, changed) ad).1.Via q) : t.Via q ∨ q = fromPeer := by
  rcases Decidable.em (ad.destination = t.selfId) with hself | hself
  · rw [applyEntry_self changed hself] at h
    exact .inl h
  · obtain ⟨d, e, hget, rfl⟩ := h
    rw [get_applyEntry changed hself] at hget
    split at hget
    · rcases relax_cases t.ipv4Prefix now sequence fromPeer ad (t.routes.get ad.destination) with
        hold | hnone | ⟨-, _, hnew⟩
      · exact .inl ⟨_, e, hold.symm.trans hget, rfl⟩
      · exact absurd (hget.symm.trans hnone) (some_ne_none e)
      · exact .inr (congrArg nextHop (some.inj (hnew.symm.trans hget))).symm
    · exact .inl ⟨d, e, hget, rfl⟩

theorem via_loop {entries : List RouteEntry} {s : RoutingTable × Bool}
    (h : (entries.foldl (applyEntry now sequence fromPeer) s).1.Via q) :
    s.1.Via q ∨ q = fromPeer := by
  induction entries generalizing s with
  | nil => exact .inl h
  | cons ad entries ih =>
    rcases ih h with hthere | hnew
    · exact via_applyEntry hthere
    · exact .inr hnew

theorem via_applyUpdate (h : (t.applyUpdate now frame fromPeer).1.Via q) :
    t.Via q ∨ q = fromPeer := by
  rcases Classical.em (t.Rejected frame fromPeer) with hrej | hacc
  · obtain ⟨_, hafter⟩ := applyUpdate_of_rejected now hrej
    rw [hafter] at h
    exact .inl h
  · rw [applyUpdate_of_accepted hacc, applyEntries_fst] at h
    rcases via_loop (via_removeRoutes h) with htouched | hnew
    · obtain ⟨d, e, hget, rfl⟩ := htouched
      rw [get_touchPeer, known] at hget
      split at hget
      · have he := some.inj hget
        cases hold : t.routes.get d with
        | none =>
          rw [hold] at he
          exact .inr (congrArg nextHop he).symm
        | some old =>
          rw [hold, greeted] at he
          refine .inl ⟨d, old, hold, ?_⟩
          rw [← he]
      · exact .inl ⟨d, e, hget, rfl⟩
    · exact .inr hnew

/-! ## Updates of a blacklisted peer -/

omit [Blake3] in
theorem lookup_eq_some_iff {d hop : NodeId} :
    t.lookup d = some hop ↔ d ≠ t.selfId ∧ ∃ e, t.routes.get d = some e ∧
      t.isBlacklisted e.nextHop = false ∧ e.nextHop = hop := by
  unfold lookup isBlacklisted
  rw [ite_none_left_eq_some]
  simp [and_assoc]

omit [Blake3] in
/-- What the lookup of another node finds is a route whose next hop is not blacklisted. -/
theorem lookup_ne_none_iff (hd : d ≠ t.selfId) :
    t.lookup d ≠ none ↔
      ∃ e, t.routes.get d = some e ∧ t.isBlacklisted e.nextHop = false := by
  rw [ne_none_iff_exists']
  simp only [lookup_eq_some_iff]
  constructor
  · rintro ⟨_, -, e, hget, hfree, -⟩
    exact ⟨e, hget, hfree⟩
  · rintro ⟨e, hget, hfree⟩
    exact ⟨e.nextHop, hd, e, hget, hfree, rfl⟩

theorem isBlacklisted_applyUpdate (peer : NodeId) :
    (t.applyUpdate now frame fromPeer).1.isBlacklisted peer = t.isBlacklisted peer := by
  obtain ⟨_, honly⟩ := onlyRoutes_applyUpdate t now frame fromPeer
  rw [isBlacklisted, honly.blacklistedPeers]
  rfl

/-- A route around a blacklisted peer survives its update exactly if the update is refused or
offers nothing shorter. -/
theorem lookup_after_blacklisted_update_iff {selfId : NodeId} {isGateway : Bool}
    {ops : List TableOp} (hreach : (new selfId isGateway pre).run ops = some t) {b d hop : NodeId}
    (hlisted : t.isBlacklisted b = true) (hlookup : t.lookup d = some hop) (now : Nat)
    (frame : RouteUpdateFrame) :
    (t.applyUpdate now frame b).1.lookup d ≠ none ↔
      t.Rejected frame b ∨ ∀ e, t.routes.get d = some e →
        ∀ ad ∈ frame.entries, ad.destination = d → e.hops.toNat ≤ ad.hops.toNat + 1 := by
  have hsound := (sound_new selfId isGateway pre).run hreach
  obtain ⟨hself, e, hget, hfree, rfl⟩ := lookup_eq_some_iff.mp hlookup
  have hother : e.nextHop ≠ b := by
    intro hvia
    rw [hvia, hlisted] at hfree
    cases hfree
  have hself' : (t.applyUpdate now frame b).1.selfId = t.selfId := by
    obtain ⟨_, honly⟩ := onlyRoutes_applyUpdate t now frame b
    exact honly.selfId
  rw [lookup_ne_none_iff (hself'.symm ▸ hself)]
  simp only [isBlacklisted_applyUpdate]
  rcases Classical.em (t.Rejected frame b) with hrej | hacc
  · rw [routes_applyUpdate_of_rejected hrej]
    exact iff_of_true ⟨e, hget, hfree⟩ (.inl hrej)
  · obtain ⟨e', hknown, hnext, hhops, -⟩ := known_some t.ipv4Prefix now frame.sequence b d e
    have hother' : e'.nextHop ≠ b := hnext ▸ hother
    have hle : e.hops.toNat ≤ 15 := UInt8.le_iff_toNat_le.mp (hsound.entry d e hget).hops_le
    rw [or_iff_right hacc, get_applyUpdate hsound.toLearned hacc hself, hget, hknown]
    constructor
    · rintro ⟨r, hr, hfree'⟩ e₀ he₀ ad had hdst
      cases he₀
      have hmem : ad ∈ entriesFor frame.entries d := mem_entriesFor.mpr ⟨had, hdst⟩
      rw [if_neg fun hgone => ne_nil_of_mem hmem hgone.1] at hr
      by_contra hshort
      have hvia := relaxAll_via_of_shorter (fun hvia => absurd hvia hother') hother'
        ⟨ad, hmem, by omega, by rw [hhops]; omega⟩ r hr
      rw [hvia, hlisted] at hfree'
      cases hfree'
    · intro hlong
      rw [relaxAll_of_longer hother' fun ad had => ?_]
      · split
        · refine ⟨e, ?_, hfree⟩
          rw [filter_some, if_pos (by simpa using hother)]
        · exact ⟨e', rfl, hnext ▸ hfree⟩
      · obtain ⟨hmem, hdst⟩ := mem_entriesFor.mp had
        rw [hhops]
        exact hlong e rfl ad hmem hdst

/-- A frame that lists destinations with their hop counts. -/
def listing (origin : NodeId) (sequence : UInt64) (hops : List (NodeId × UInt8)) :
    RouteUpdateFrame where
  originId := origin
  sequence := sequence
  entries := hops.map fun e => { destination := e.1, hops := e.2, flags := 0, meshIp := .zero 4 }
  signature := .zero 64

/-- Node 1 reaches node 4 in three hops through node 2 and has blacklisted node 3. -/
def detour : List TableOp :=
  [.addPeer 0 (nodeOf 2), .addPeer 0 (nodeOf 3),
    .applyUpdate 1 (listing (nodeOf 2) 1 [(nodeOf 4, 2)]) (nodeOf 2),
    .blacklistPeer (nodeOf 3)]

omit [Blake3] in
theorem exists_detour :
    letI := transparentBlake3
    ∃ t, firstTable.run detour = some t ∧
      t.isBlacklisted (nodeOf 3) = true ∧ t.lookup (nodeOf 4) = some (nodeOf 2) ∧
      (t.routes.get (nodeOf 4)).map hops = some 3 ∧
      (t.applyUpdate 2 (listing (nodeOf 3) 1 [(nodeOf 4, 1)]) (nodeOf 3)).1.lookup
        (nodeOf 4) = none := by
  let _ := transparentBlake3
  have hfacts : (firstTable.run detour).map (fun t =>
      (t.isBlacklisted (nodeOf 3), t.lookup (nodeOf 4), (t.routes.get (nodeOf 4)).map hops,
        (t.applyUpdate 2 (listing (nodeOf 3) 1 [(nodeOf 4, 1)]) (nodeOf 3)).1.lookup
          (nodeOf 4))) = some (true, some (nodeOf 2), some 3, none) := by
    decide +kernel
  obtain ⟨t, hrun, hfacts⟩ := map_eq_some_iff.mp hfacts
  simp only [Prod.mk.injEq] at hfacts
  exact ⟨t, hrun, hfacts⟩

omit [Blake3] in
/-- The blacklisted node offers node 4 in two hops: the route moves to it, and the lookup
fails. -/
theorem blacklisted_peer_takes_route :
    letI := transparentBlake3
    ∃ t, firstTable.run detour = some t ∧
      t.isBlacklisted (nodeOf 3) = true ∧ t.lookup (nodeOf 4) = some (nodeOf 2) ∧
      (t.applyUpdate 2 (listing (nodeOf 3) 1 [(nodeOf 4, 1)]) (nodeOf 3)).1.lookup
        (nodeOf 4) = none := by
  obtain ⟨t, hrun, hlisted, hlookup, -, hfound⟩ := exists_detour
  exact ⟨t, hrun, hlisted, hlookup, hfound⟩

omit [Blake3] in
/-- An offer of three hops is no shorter, and the lookup still answers. -/
theorem lookup_after_equal_offer :
    letI := transparentBlake3
    ∃ t, firstTable.run detour = some t ∧
      t.isBlacklisted (nodeOf 3) = true ∧ t.lookup (nodeOf 4) = some (nodeOf 2) ∧
      (t.applyUpdate 2 (listing (nodeOf 3) 1 [(nodeOf 4, 2)]) (nodeOf 3)).1.lookup
        (nodeOf 4) ≠ none := by
  let _ := transparentBlake3
  obtain ⟨t, hrun, hlisted, hlookup, hhops, -⟩ := exists_detour
  refine ⟨t, hrun, hlisted, hlookup,
    (lookup_after_blacklisted_update_iff hrun hlisted hlookup 2 _).mpr (.inr ?_)⟩
  intro e hget ad had _
  rw [hget] at hhops
  rw [some.inj hhops, mem_singleton.mp had]
  exact Nat.le_refl 3

end RoutingTable

end ProximityMesh.Routing
