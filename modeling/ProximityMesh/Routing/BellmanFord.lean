/-
  Routing/BellmanFord.lean --- `apply_update` as a rule for each destination.

  Source: `apply_update` of crates/pim-routing/src/table.rs;
  docs/architecture/routing.md, "Route Update Rules".

  The source compares sequence numbers before it follows its own next hop; on a sound
  table that comparison always succeeds, since no route through a peer is newer than the
  newest update of that peer.
-/
import ProximityMesh.Routing.Invariant

set_option autoImplicit false

namespace ProximityMesh.Routing

open Protocol RouteTableEntry

/-- What the rule speaks of: next hop, hop count and gateway flag of a route. -/
structure Hop where
  nextHop : NodeId
  hops : Nat
  isGateway : Bool
  deriving DecidableEq

def RouteTableEntry.hop (entry : RouteTableEntry) : Hop :=
  ⟨entry.nextHop, entry.hops.toNat, entry.isGateway⟩

/-- What a frame says of a destination. -/
def advertisedTo (frame : RouteUpdateFrame) (d : NodeId) : Option RouteEntry :=
  frame.entries.find? fun e => e.destination = d

/-- The rule for destination `d` and an update of `p`: a poisoned route through `p` goes, a
shorter route or any new word of the present next hop is taken over, and what `p` no
longer lists goes with it; everything else stays. -/
def bellmanFord (p d : NodeId) (advertised : Option RouteEntry) (old : Option Hop) : Option Hop :=
  match advertised with
  | some ad =>
      let n := min (ad.hops.toNat + 1) 16
      match old with
      | none => if 16 ≤ n then none else some ⟨p, n, ad.isGateway⟩
      | some r =>
          if 16 ≤ n then (if r.nextHop = p then none else some r)
          else if n < r.hops ∨ r.nextHop = p then some ⟨p, n, ad.isGateway⟩
          else some r
  | none =>
      match old with
      | none => none
      | some r => if d ≠ p ∧ r.nextHop = p then none else some r

namespace RoutingTable

variable [Blake3] {t : RoutingTable} {pre : Ipv4Prefix} {now : Nat} {sequence : UInt64}
  {fromPeer d : NodeId} {frame : RouteUpdateFrame} {r : RouteTableEntry}

/-- Hearing from a sender that has a route only refreshes it. -/
theorem known_eq (hsender : d = fromPeer → (t.routes.get fromPeer).isSome) :
    known pre now sequence fromPeer d (t.routes.get d) =
      (t.routes.get d).map fun r => if d = fromPeer then { r with lastSeen := now } else r := by
  unfold known
  split
  · rename_i hd
    obtain ⟨entry, hget⟩ := Option.isSome_iff_exists.mp (hsender hd)
    rw [hd, hget]
    rfl
  · rw [Option.map_id']

theorem hop_known (hsender : d = fromPeer → (t.routes.get fromPeer).isSome) :
    (known pre now sequence fromPeer d (t.routes.get d)).map hop =
      (t.routes.get d).map hop := by
  rw [known_eq hsender, Option.map_map]
  refine Option.map_congr fun r _ => ?_
  split <;> rfl

omit [Blake3] in
/-- A recorded route through the sender is older than an update that is accepted. -/
theorem older_of_accepted (hacc : ¬ t.Rejected frame fromPeer)
    (hseq : r.sequence ≤ t.maxSeqOf r.nextHop) (hvia : r.nextHop = fromPeer) :
    r.sequence < frame.sequence := by
  rw [hvia] at hseq
  exact UInt64.lt_of_le_of_lt hseq (UInt64.not_le.mp fun hle => hacc (.inr (.inl hle)))

/-! ## The routes afterwards -/

theorem Sound.toLearned (h : t.Sound) : t.Learned := fun d r hget => (h.entry d r hget).learned

/-! ## The rule -/

/-- On routes that are older than the update where they go through its sender, the loop
follows the rule. -/
theorem hop_relax (pre : Ipv4Prefix) (ad : RouteEntry) {old : Option RouteTableEntry}
    (hold : ∀ r, old = some r → r.nextHop = fromPeer → r.sequence < sequence) (d : NodeId) :
    (relax pre now sequence fromPeer ad old).map hop =
      bellmanFord fromPeer d (some ad) (old.map hop) := by
  have hn := toNat_newHops ad.hops
  have hbig : 16 ≤ min (ad.hops.toNat + 1) 16 ↔ 16 ≤ ad.hops.toNat + 1 := by omega
  cases old with
  | none =>
    simp only [relax, bellmanFord, Option.map_none, hbig]
    split
    · rfl
    · simp [hop, learned, hn]
  | some r =>
    have hfollow : ¬ 16 ≤ ad.hops.toNat + 1 → (Replaces sequence fromPeer ad r ↔
        min (ad.hops.toNat + 1) 16 < r.hop.hops ∨ r.hop.nextHop = fromPeer) := by
      intro hlt
      rw [Nat.min_eq_left (by omega)]
      refine or_congr Iff.rfl ⟨fun h => h.2, fun hvia => ⟨hold r rfl hvia, hvia⟩⟩
    simp only [relax, bellmanFord, Option.map_some, hbig]
    split
    · rcases Decidable.em (r.nextHop = fromPeer) with hvia | hother
      · rw [if_pos hvia, if_pos (show r.hop.nextHop = fromPeer from hvia)]
        rfl
      · rw [if_neg hother, if_neg (show ¬ r.hop.nextHop = fromPeer from hother)]
        rfl
    · rename_i hlt
      rcases Decidable.em (Replaces sequence fromPeer ad r) with hyes | hno
      · rw [if_pos hyes, if_pos ((hfollow hlt).mp hyes)]
        simp [hop, learned, hn]
      · rw [if_neg hno, if_neg (mt (hfollow hlt).mpr hno)]
        rfl

/-- An accepted update with one entry for each destination acts by the rule, on routes that are
older than it where they go through its sender. -/
theorem hop_applyUpdate (h : t.Learned)
    (hold : ∀ d r, t.routes.get d = some r → r.nextHop = fromPeer → r.sequence < frame.sequence)
    (hacc : ¬ t.Rejected frame fromPeer)
    (hnodup : (frame.entries.map RouteEntry.destination).Nodup) (hd : d ≠ t.selfId)
    (hknown : d = fromPeer → (t.routes.get fromPeer).isSome) :
    ((t.applyUpdate now frame fromPeer).1.routes.get d).map hop =
      bellmanFord fromPeer d (advertisedTo frame d) ((t.routes.get d).map hop) := by
  have hads : entriesFor frame.entries d = (advertisedTo frame d).toList :=
    entriesFor_eq_toList hnodup d
  have hknown' := @known_eq _ t t.ipv4Prefix now frame.sequence fromPeer d hknown
  have hhop := @hop_known _ t t.ipv4Prefix now frame.sequence fromPeer d hknown
  rw [get_applyUpdate h hacc hd, hads]
  cases advertisedTo frame d with
  | some ad =>
    rw [← hhop]
    refine hop_relax _ ad (fun r hr hvia => ?_) d
    rw [hknown', Option.map_eq_some_iff] at hr
    obtain ⟨r₀, hget, rfl⟩ := hr
    split at hvia
    · rw [if_pos ‹_›]
      exact hold d r₀ hget hvia
    · rw [if_neg ‹_›]
      exact hold d r₀ hget hvia
  | none =>
    by_cases hp : d = fromPeer
    · rw [if_neg fun hgone => hgone.2 hp, ← hhop]
      subst hp
      cases known t.ipv4Prefix now frame.sequence d d (t.routes.get d) with
      | none => rfl
      | some r => simp [bellmanFord, relaxAll]
    · rw [if_pos ⟨rfl, hp⟩]
      cases t.routes.get d with
      | none => rfl
      | some r =>
        by_cases hvia : r.nextHop = fromPeer
        · simp [bellmanFord, hp, hvia, hop]
        · simp [bellmanFord, hvia, hop]

/-- On every reachable table, an accepted update of a peer the table has a route for acts on
each destination by the pointwise rule, and a rejected update changes no route. -/
theorem applyUpdate_refines_bellmanFord {selfId : NodeId} {isGateway : Bool} {pre : Ipv4Prefix}
    {ops : List TableOp} (hreach : (new selfId isGateway pre).run ops = some t) :
    (∀ (now : Nat) (p : NodeId) (frame : RouteUpdateFrame), (t.routes.get p).isSome →
      frame.originId = p → (t.peerMaxSeq.get p).getD 0 < frame.sequence →
      (frame.entries.map RouteEntry.destination).Nodup →
      (∀ e ∈ frame.entries, e.hops = 0 → e.destination = p) →
      ∀ d, d ≠ selfId →
        ((t.applyUpdate now frame p).1.routes.get d).map RouteTableEntry.hop =
          bellmanFord p d (advertisedTo frame d) ((t.routes.get d).map RouteTableEntry.hop)) ∧
      ∀ (now : Nat) (p : NodeId) (frame : RouteUpdateFrame), t.Rejected frame p →
        (t.applyUpdate now frame p).1.routes = t.routes := by
  have hsound := (sound_new selfId isGateway pre).run hreach
  refine ⟨fun now p frame hroute horigin hfresh hnodup hzero d hd => ?_,
    fun _ _ _ hrejected => routes_applyUpdate_of_rejected hrejected⟩
  have hacc : ¬ t.Rejected frame p := by
    rintro (hother | hstale | ⟨e, he, hhops, hdst⟩)
    · exact hother horigin
    · exact UInt64.not_le.mpr hfresh hstale
    · exact hdst ((hzero e he hhops).trans horigin.symm)
  have hself : t.selfId = selfId := (run_frame hreach).1
  exact hop_applyUpdate hsound.toLearned
    (fun _ _ hget => older_of_accepted hacc (hsound.entry _ _ hget).sequence) hacc hnodup
    (hself ▸ hd) fun _ => hroute

omit [Blake3] in
/-- The example peer is known and sends its first update: the node behind it becomes a route
of 15 hops. -/
theorem exampleUpdate_follows_rule :
    letI := transparentBlake3
    ∃ t, firstTable.run [.addPeer 0 (nodeOf 2)] = some t ∧
      ((t.applyUpdate 1 exampleUpdate (nodeOf 2)).1.routes.get (nodeOf 3)).map
        RouteTableEntry.hop = some ⟨nodeOf 2, 15, false⟩ := by
  let _ := transparentBlake3
  have hrun : firstTable.run [.addPeer 0 (nodeOf 2)] = some _ := rfl
  refine ⟨_, hrun, ((applyUpdate_refines_bellmanFord hrun).1 1 (nodeOf 2) exampleUpdate ?_ rfl
    ?_ ?_ ?_ (nodeOf 3) ?_).trans ?_⟩
  all_goals decide +kernel

end RoutingTable

end ProximityMesh.Routing
