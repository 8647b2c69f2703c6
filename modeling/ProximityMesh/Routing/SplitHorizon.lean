/-
  Routing/SplitHorizon.lean --- what a table makes of an advertisement that a neighbour
  generated for it.

  Source: `generate_advertisement` and `apply_update` of crates/pim-routing/src/table.rs;
  docs/architecture/routing.md, "Split Horizon with Poison Reverse".

  Only three facts about a table are used: it has no route to itself, the next hop of a
  route is the peer it was learned from, and no route is newer than what was recorded of
  its next hop.
-/
import ProximityMesh.Routing.Updates

set_option autoImplicit false

namespace ProximityMesh.Routing

open Protocol

namespace RoutingTable

/-- The invariants of a table, as far as routes are concerned. -/
structure Regular (t : RoutingTable) : Prop where
  self : t.routes.get t.selfId = none
  learned : t.Learned
  recorded : ∀ d r, t.routes.get d = some r → r.sequence ≤ t.maxSeqOf r.nextHop

variable [Blake3] {a b b' : RoutingTable} {frame : RouteUpdateFrame} {now : Nat} {p d : NodeId}
  {r : RouteTableEntry}

omit [Blake3] in
/-- By the rule, a route through the sender is one hop longer than what the sender offers. -/
theorem hops_of_bellmanFord {offer : Option RouteEntry} {old : Option Hop} {hop : Hop}
    (h : bellmanFord p d offer old = some hop) (hvia : hop.nextHop = p)
    (hne : offer = none → d ≠ p) :
    ∃ ad, offer = some ad ∧ ad.hops.toNat + 1 < 16 ∧ hop.hops = ad.hops.toNat + 1 := by
  unfold bellmanFord at h
  cases offer with
  | none =>
    cases old with
    | none => cases h
    | some r =>
      obtain ⟨hkept, heq⟩ := Option.ite_none_left_eq_some.mp h
      cases heq
      exact absurd ⟨hne rfl, hvia⟩ hkept
  | some ad =>
    refine ⟨ad, rfl, ?_⟩
    dsimp only at h
    split at h <;> split at h
    · cases h
    · cases h
      dsimp only
      omega
    · obtain ⟨hother, heq⟩ := Option.ite_none_left_eq_some.mp h
      cases heq
      exact absurd hvia hother
    · split at h
      · cases h
        dsimp only
        omega
      · rename_i hkept
        cases h
        exact absurd (.inr hvia) hkept

/-- The only route to the node itself is that of a sender with its name. -/
theorem hops_self (ha : a.Regular) (hacc : ¬ a.Rejected frame p)
    (h : (a.applyUpdate now frame p).1.routes.get a.selfId = some r) :
    a.selfId = p ∧ r.hops = 1 := by
  rw [applyUpdate_of_accepted hacc, applyEntries_fst] at h
  rw [get_removeRoutes] at h
  obtain ⟨-, h⟩ := Option.ite_none_left_eq_some.mp h
  rw [get_loop_of_unlisted _ (.inl (onlyRoutes_touchPeer ..).selfId.symm), get_touchPeer] at h
  simp only [ha.self] at h
  obtain ⟨hself, h⟩ := Option.ite_none_right_eq_some.mp h
  cases h
  exact ⟨hself, rfl⟩

theorem route_via_neighbour (ha : a.Regular) (hb : b.Regular)
    (hgen : b.generateAdvertisement a.selfId = some (b', frame))
    (hacc : ¬ a.Rejected frame b.selfId)
    (hget : (a.applyUpdate now frame b.selfId).1.routes.get d = some r)
    (hvia : r.nextHop = b.selfId) :
    d = b.selfId ∧ r.hops.toNat = 1 ∨ ∃ r', b.routes.get d = some r' ∧ r'.nextHop ≠ a.selfId ∧
      r.hops.toNat = r'.hops.toNat + 1 := by
  have hlisted (ad : RouteEntry) (hmem : ad ∈ frame.entries) :
      ad.destination = b.selfId ∧ ad.hops = 0 ∨ ∃ r, b.routes.get ad.destination = some r ∧
        ad.hops = if r.nextHop = a.selfId then infinity else r.hops := by
    obtain ⟨s, -, -, -, -, hentries⟩ := generateAdvertisement_eq_some hgen
    rw [hentries, List.mem_cons, mem_filterMap_advertiseEntry] at hmem
    rcases hmem with rfl | ⟨r, hget, -, hhops, -⟩
    · exact .inl ⟨rfl, rfl⟩
    · exact .inr ⟨r, hget, by rw [hhops, hb.learned _ r hget]⟩
  have hown : d = b.selfId → advertisedTo frame d ≠ none := by
    intro hd hnone
    obtain ⟨s, -, -, -, -, hentries⟩ := generateAdvertisement_eq_some hgen
    rw [advertisedTo, hentries, hd, List.find?_cons_of_pos (by simp)] at hnone
    cases hnone
  by_cases hself : d = a.selfId
  · subst hself
    obtain ⟨hself, hhops⟩ := hops_self ha hacc hget
    exact .inl ⟨hself, by rw [hhops]; rfl⟩
  by_cases hnew : d = b.selfId ∧ a.routes.get b.selfId = none
  · obtain ⟨rfl, hnone⟩ := hnew
    refine .inl ⟨rfl, ?_⟩
    have hsettled : Settled frame.sequence b.selfId
        (greeted a.ipv4Prefix now frame.sequence b.selfId none) := fun _ => UInt64.le_refl _
    rw [get_applyUpdate ha.learned hacc hself, if_neg fun hgone => hgone.2 rfl, known, if_pos rfl,
      hnone, relaxAll_of_spares hsettled] at hget
    · cases hget
      rfl
    · intro ad had
      obtain ⟨hmem, hdst⟩ := mem_entriesFor.mp had
      rcases hlisted ad hmem with ⟨-, hzero⟩ | ⟨r', hget', -⟩
      · exact .inr ⟨by rw [hzero]; decide, by rw [hzero]; exact Nat.le_refl _⟩
      · rw [hdst, hb.self] at hget'
        cases hget'
  have hrule := @hop_applyUpdate _ a now b.selfId d frame ha.learned
    (fun _ _ hget => older_of_accepted hacc (ha.recorded _ _ hget)) hacc
    (nodup_destinations hb.self hgen) hself fun hd => Option.isSome_iff_ne_none.mpr fun hnone =>
      hnew ⟨hd, hnone⟩
  rw [hget] at hrule
  obtain ⟨ad, had, hlt, hhops⟩ :=
    hops_of_bellmanFord hrule.symm hvia fun hnone hd => hown hd hnone
  obtain rfl : ad.destination = d := by simpa using List.find?_some had
  rcases hlisted ad (List.mem_of_find?_eq_some had) with ⟨hdst, hzero⟩ | ⟨r', hget', hoffer⟩
  · rw [hzero] at hhops
    exact .inl ⟨hdst, hhops⟩
  · refine .inr ⟨r', hget', ?_⟩
    rw [hoffer] at hlt hhops
    split at hlt
    · exact absurd hlt (by decide)
    · rename_i hother
      rw [if_neg hother] at hhops
      exact ⟨hother, hhops⟩

/-- Split horizon leaves no loop of two nodes: after an advertisement of `b` for `a`, no route of
`a` through `b` is for a destination that `b` reaches through `a`, and each is one hop longer than
that of `b`. -/
theorem split_horizon_no_loop (ha : a.Regular) (hb : b.Regular)
    (hgen : b.generateAdvertisement a.selfId = some (b', frame))
    (hacc : ¬ a.Rejected frame b.selfId) (now : Nat) :
    (∀ d r r', (a.applyUpdate now frame b.selfId).1.routes.get d = some r →
      b.routes.get d = some r' → ¬ (r.nextHop = b.selfId ∧ r'.nextHop = a.selfId)) ∧
    ∀ d r, (a.applyUpdate now frame b.selfId).1.routes.get d = some r → r.nextHop = b.selfId →
      d = b.selfId ∧ r.hops.toNat = 1 ∨
        ∃ r', b.routes.get d = some r' ∧ r.hops.toNat = r'.hops.toNat + 1 := by
  refine ⟨fun d r r' hget hget' ⟨hvia, hback⟩ => ?_, fun d r hget hvia => ?_⟩
  · rcases route_via_neighbour ha hb hgen hacc hget hvia with ⟨rfl, -⟩ | ⟨r'', hget'', hother, -⟩
    · rw [hb.self] at hget'
      cases hget'
    · obtain rfl := Option.some.inj (hget'.symm.trans hget'')
      exact hother hback
  · refine (route_via_neighbour ha hb hgen hacc hget hvia).imp id ?_
    exact fun ⟨r', hget', _, hhops⟩ => ⟨r', hget', hhops⟩

/-- The tables that calls lead to are regular. -/
theorem Regular.of_run {t : RoutingTable} (selfId : NodeId) (isGateway : Bool) (pre : Ipv4Prefix)
    (ops : List TableOp) (hpeers : ∀ op ∈ ops, op.introduces ≠ some selfId)
    (hrun : (new selfId isGateway pre).run ops = some t) : t.Regular where
  self := SelfFree.run (get_routes_new ..) hpeers hrun
  learned := ((sound_new selfId isGateway pre).run hrun).toLearned
  recorded d r hget := (((sound_new selfId isGateway pre).run hrun).entry d r hget).sequence

omit [Blake3] in
/-- The second of three nodes in a line advertises itself and the third to the first. -/
theorem split_horizon_no_loop_line :
    letI := transparentBlake3
    ∃ (a b b' : RoutingTable) (frame : RouteUpdateFrame), a.Regular ∧ b.Regular ∧
      b.generateAdvertisement a.selfId = some (b', frame) ∧ ¬ a.Rejected frame b.selfId ∧
      ∀ d r r', (a.applyUpdate 1 frame b.selfId).1.routes.get d = some r →
        b.routes.get d = some r' → ¬ (r.nextHop = b.selfId ∧ r'.nextHop = a.selfId) := by
  let _ := transparentBlake3
  have ha := Regular.of_run (nodeOf 1) false defaultPrefix [.addPeer 0 (nodeOf 2)]
    (by decide) rfl
  have hb := Regular.of_run (nodeOf 2) false defaultPrefix
    [.addPeer 0 (nodeOf 1), .addPeer 0 (nodeOf 3)] (by decide) rfl
  refine ⟨_, _, _, _, ha, hb, rfl, ?_, (split_horizon_no_loop ha hb rfl ?_ 1).1⟩ <;> decide +kernel

end RoutingTable

end ProximityMesh.Routing
