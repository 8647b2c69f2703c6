/-
  Routing/Effects.lean --- what the operations do to the route of each destination.

  Source: crates/pim-routing/src/table.rs.

  The loop of `apply_update` acts on each destination by its own entries (`get_loop`), between
  the refresh of the sender and the withdrawal of what the update does not list.
  `get_applyUpdate` puts the three together.  On frames with one entry for each destination
  every destination is treated once, so that the result does not depend on the order.
-/
import ProximityMesh.Routing.Table

set_option autoImplicit false

namespace ProximityMesh.Routing

open Protocol List RouteEntry HashMap

def entriesFor (entries : List RouteEntry) (d : NodeId) : List RouteEntry :=
  entries.filter fun e => e.destination = d

theorem mem_entriesFor {entries : List RouteEntry} {d : NodeId} {ad : RouteEntry} :
    ad ∈ entriesFor entries d ↔ ad ∈ entries ∧ ad.destination = d := by
  rw [entriesFor, mem_filter, decide_eq_true_iff]

theorem entriesFor_cons_self (ad : RouteEntry) (entries : List RouteEntry) :
    entriesFor (ad :: entries) ad.destination = ad :: entriesFor entries ad.destination :=
  filter_cons_of_pos (decide_eq_true (rfl : ad.destination = ad.destination))

theorem entriesFor_cons_of_ne {ad : RouteEntry} {d : NodeId} (h : ad.destination ≠ d)
    (entries : List RouteEntry) : entriesFor (ad :: entries) d = entriesFor entries d :=
  filter_cons_of_neg (by rw [decide_eq_true_iff]; exact h)

/-- With one entry for each destination there is at most one for a destination. -/
theorem entriesFor_eq_toList {entries : List RouteEntry}
    (hnodup : (entries.map destination).Nodup) (d : NodeId) :
    entriesFor entries d = (entries.find? fun e => e.destination = d).toList := by
  induction entries with
  | nil => rfl
  | cons ad entries ih =>
    obtain ⟨hnot, hrest⟩ := nodup_cons.mp hnodup
    rcases Decidable.em (ad.destination = d) with rfl | hne
    · rw [entriesFor_cons_self, find?_cons_of_pos (by simp)]
      have hnone : entriesFor entries ad.destination = [] :=
        filter_eq_nil_iff.mpr fun e he heq =>
          hnot (mem_map.mpr ⟨e, he, of_decide_eq_true heq⟩)
      rw [hnone]
      rfl
    · rw [entriesFor_cons_of_ne hne, find?_cons_of_neg (by simpa using hne), ih hrest]

namespace RoutingTable

/-- Only the routes, the reverse index and the collision counter may differ. -/
structure OnlyRoutes (t t' : RoutingTable) : Prop where
  selfId : t'.selfId = t.selfId
  isGateway : t'.isGateway = t.isGateway
  directPeers : t'.directPeers = t.directPeers
  sequence : t'.sequence = t.sequence
  peerMaxSeq : t'.peerMaxSeq = t.peerMaxSeq
  blacklistedPeers : t'.blacklistedPeers = t.blacklistedPeers
  selfMeshIp : t'.selfMeshIp = t.selfMeshIp
  ipv4Prefix : t'.ipv4Prefix = t.ipv4Prefix

theorem OnlyRoutes.refl (t : RoutingTable) : OnlyRoutes t t :=
  ⟨rfl, rfl, rfl, rfl, rfl, rfl, rfl, rfl⟩

theorem OnlyRoutes.trans {t₁ t₂ t₃ : RoutingTable} (h₁ : OnlyRoutes t₁ t₂)
    (h₂ : OnlyRoutes t₂ t₃) : OnlyRoutes t₁ t₃ :=
  ⟨h₂.selfId.trans h₁.selfId, h₂.isGateway.trans h₁.isGateway,
    h₂.directPeers.trans h₁.directPeers, h₂.sequence.trans h₁.sequence,
    h₂.peerMaxSeq.trans h₁.peerMaxSeq, h₂.blacklistedPeers.trans h₁.blacklistedPeers,
    h₂.selfMeshIp.trans h₁.selfMeshIp, h₂.ipv4Prefix.trans h₁.ipv4Prefix⟩

/-! ## Single routes -/

variable (t : RoutingTable)

theorem onlyRoutes_removeRoute (dst : NodeId) : OnlyRoutes t (t.removeRoute dst) := by
  unfold removeRoute
  split
  · exact OnlyRoutes.refl t
  · exact ⟨rfl, rfl, rfl, rfl, rfl, rfl, rfl, rfl⟩

theorem get_removeRoute (dst d : NodeId) :
    (t.removeRoute dst).routes.get d = if d = dst then none else t.routes.get d := by
  unfold removeRoute
  split
  · rename_i hnone
    split
    · rename_i hd
      rw [hd, hnone]
    · rfl
  · exact get_remove t.routes dst d

/-- A removed route takes its own index entry with it, and no other. -/
theorem index_removeRoute (dst : NodeId) (ip : Ipv4Addr) :
    (t.removeRoute dst).meshIpIndex.get ip =
      if t.meshIpIndex.get ip = some dst ∧ (t.routes.get dst).bind (·.meshIp) = some ip then none
      else t.meshIpIndex.get ip := by
  unfold removeRoute
  split
  · rename_i hnone
    simp [hnone]
  · rename_i old hold
    simp only [hold]
    split
    · split
      · rw [get_remove]
        grind
      · grind
    · rename_i haddr
      simp [haddr]

theorem onlyRoutes_removeRoutes (dsts : List NodeId) : OnlyRoutes t (t.removeRoutes dsts) := by
  induction dsts generalizing t with
  | nil => exact OnlyRoutes.refl t
  | cons dst dsts ih => exact (onlyRoutes_removeRoute t dst).trans (ih (t.removeRoute dst))

theorem get_removeRoutes (dsts : List NodeId) (d : NodeId) :
    (t.removeRoutes dsts).routes.get d = if d ∈ dsts then none else t.routes.get d := by
  unfold removeRoutes
  induction dsts generalizing t with
  | nil => simp
  | cons dst dsts ih =>
    rw [foldl_cons, ih, get_removeRoute]
    by_cases hd : d = dst
    · simp [hd]
    · simp [hd]

theorem mem_via_iff (peerId dst : NodeId) :
    dst ∈ (t.routes.iter.filter fun e => e.2.nextHop = peerId).map Prod.fst ↔
      ∃ e, t.routes.get dst = some e ∧ e.nextHop = peerId := by
  simp [mem_iter]

theorem removeRoutesVia_fst (peerId : NodeId) :
    (t.removeRoutesVia peerId).1 =
      t.removeRoutes ((t.routes.iter.filter fun e => e.2.nextHop = peerId).map Prod.fst) := by
  unfold removeRoutesVia
  dsimp only
  split
  · rename_i hempty
    rw [isEmpty_iff.mp hempty]
    rfl
  · rfl

variable [Blake3]

theorem onlyRoutes_insertRoute (dst : NodeId) (entry : RouteTableEntry) :
    OnlyRoutes t (t.insertRoute dst entry) :=
  ⟨rfl, rfl, rfl, rfl, rfl, rfl, rfl, rfl⟩

theorem get_insertRoute (dst d : NodeId) (entry : RouteTableEntry) :
    (t.insertRoute dst entry).routes.get d =
      if d = dst then some { entry with meshIp := some (deriveMeshIpv4 dst t.ipv4Prefix) }
      else t.routes.get d :=
  get_insert _ _ _ _

/-! ## One entry -/

variable {t : RoutingTable} {pre : Ipv4Prefix} {now : Nat} {sequence : UInt64}
  {fromPeer d : NodeId} {ad : RouteEntry} {frame : RouteUpdateFrame}

omit [Blake3] in
theorem toNat_newHops (hops : UInt8) :
    (UInt8.ofNat (min (hops.toNat + 1) infinity.toNat)).toNat = min (hops.toNat + 1) 16 := by
  have hinf : infinity.toNat = 16 := rfl
  rw [hinf, UInt8.toNat_ofNat_of_lt']
  exact (Nat.min_le_right _ _).trans_lt (by decide)

omit [Blake3] in
theorem infinity_le_newHops_iff (hops : UInt8) :
    UInt8.ofNat (min (hops.toNat + 1) infinity.toNat) ≥ infinity ↔ 16 ≤ hops.toNat + 1 := by
  rw [ge_iff_le, UInt8.le_iff_toNat_le, toNat_newHops]
  show 16 ≤ _ ↔ _
  omega

omit [Blake3] in
theorem newHops_lt_iff {hops : UInt8} (h : hops.toNat + 1 < 16) (old : UInt8) :
    UInt8.ofNat (min (hops.toNat + 1) infinity.toNat) < old ↔ hops.toNat + 1 < old.toNat := by
  rw [UInt8.lt_iff_toNat_lt, toNat_newHops]
  omega

/-- The entry the loop installs for an advertised one. -/
def learned (now : Nat) (sequence : UInt64) (fromPeer : NodeId) (ad : RouteEntry)
    (metrics : UInt8 × Option UInt32) : RouteTableEntry where
  nextHop := fromPeer
  hops := UInt8.ofNat (min (ad.hops.toNat + 1) infinity.toNat)
  isGateway := ad.isGateway
  lastSeen := now
  learnedFrom := fromPeer
  sequence := sequence
  gatewayLoad := metrics.1
  rttMs := metrics.2
  meshIp := none

/-- The metrics of a gateway survive a refresh of its route, not a change to a shorter
one. -/
def keptMetrics (ad : RouteEntry) (old : RouteTableEntry) : UInt8 × Option UInt32 :=
  if old.isGateway ∧ ¬ ad.hops.toNat + 1 < old.hops.toNat then (old.gatewayLoad, old.rttMs)
  else (0, none)

/-- The advertised entry replaces the old one: it is shorter, or a newer word of the same
neighbour. -/
def Replaces (sequence : UInt64) (fromPeer : NodeId) (ad : RouteEntry) (old : RouteTableEntry) :
    Prop :=
  ad.hops.toNat + 1 < old.hops.toNat ∨ (old.sequence < sequence ∧ old.nextHop = fromPeer)

variable {ad : RouteEntry} {frame : RouteUpdateFrame}

/-- The branches of one pass of the loop, with the flag that triggers an update. -/
theorem applyEntry_cases (changed : Bool) (hself : ad.destination ≠ t.selfId) :
    let s := applyEntry now sequence fromPeer (t, changed) ad
    let dst := ad.destination
    (16 ≤ ad.hops.toNat + 1 ∧
      ((∃ old, t.routes.get dst = some old ∧ old.nextHop = fromPeer ∧
          s = (t.removeRoute dst, true)) ∨
        (∀ old, t.routes.get dst = some old → old.nextHop ≠ fromPeer) ∧ s = (t, changed))) ∨
    (ad.hops.toNat + 1 < 16 ∧ ((t.routes.get dst = none ∧
          s = (t.insertRoute dst (learned now sequence fromPeer ad (0, none)), true)) ∨
        ∃ old, t.routes.get dst = some old ∧
          ((Replaces sequence fromPeer ad old ∧
              s = (t.insertRoute dst (learned now sequence fromPeer ad (keptMetrics ad old)),
                changed || decide (ad.hops.toNat + 1 < old.hops.toNat) ||
                  old.isGateway != ad.isGateway)) ∨
            ¬ Replaces sequence fromPeer ad old ∧ s = (t, changed)))) := by
  have hbig := infinity_le_newHops_iff ad.hops
  unfold applyEntry
  simp only [if_neg hself]
  rcases Nat.lt_or_ge (ad.hops.toNat + 1) 16 with hlt | hge
  · refine .inr ⟨hlt, ?_⟩
    rw [if_neg (mt hbig.mp (Nat.not_le.mpr hlt))]
    cases hget : t.routes.get ad.destination with
    | none => exact .inl ⟨rfl, rfl⟩
    | some old =>
      have hbetter := newHops_lt_iff hlt old.hops
      have hcond : (decide (UInt8.ofNat (min (ad.hops.toNat + 1) infinity.toNat) < old.hops) ||
          (decide (sequence > old.sequence) && decide (old.nextHop = fromPeer))) = true ↔
          Replaces sequence fromPeer ad old := by
        simp [hbetter, Replaces]
      refine .inr ⟨old, rfl, ?_⟩
      dsimp only
      rcases Classical.em (Replaces sequence fromPeer ad old) with hyes | hno
      · refine .inl ⟨hyes, ?_⟩
        rw [if_pos (hcond.mpr hyes)]
        have hmetrics : keptMetrics ad old =
            if old.isGateway &&
                !decide (UInt8.ofNat (min (ad.hops.toNat + 1) infinity.toNat) < old.hops) then
              (old.gatewayLoad, old.rttMs)
            else (0, none) := by
          simp [keptMetrics, hbetter]
        simp only [hmetrics, ← hbetter]
        rfl
      · refine .inr ⟨hno, ?_⟩
        rw [if_neg (mt hcond.mp hno)]
  · refine .inl ⟨hge, ?_⟩
    rw [if_pos (hbig.mpr hge)]
    cases hget : t.routes.get ad.destination with
    | none => exact .inr ⟨fun old hold => (by cases hold), rfl⟩
    | some old =>
      rcases Decidable.em (old.nextHop = fromPeer) with hvia | hother
      · exact .inl ⟨old, rfl, hvia, by simp only [if_pos hvia]⟩
      · refine .inr ⟨fun old' hold => ?_, by simp only [if_neg hother]⟩
        cases hold
        exact hother

theorem applyEntry_self (changed : Bool) (hself : ad.destination = t.selfId) :
    applyEntry now sequence fromPeer (t, changed) ad = (t, changed) := by
  unfold applyEntry
  simp [if_pos hself]

/-- One pass of the loop keeps, drops or writes the route of its destination. -/
theorem applyEntry_eq (t : RoutingTable) (changed : Bool) (ad : RouteEntry) :
    let t' := (applyEntry now sequence fromPeer (t, changed) ad).1
    t' = t ∨ t' = t.removeRoute ad.destination ∨
      ad.destination ≠ t.selfId ∧ ad.hops.toNat + 1 < 16 ∧ ∃ metrics,
        t' = t.insertRoute ad.destination (learned now sequence fromPeer ad metrics) := by
  rcases Decidable.em (ad.destination = t.selfId) with hself | hself
  · rw [applyEntry_self changed hself]
    exact .inl rfl
  · rcases @applyEntry_cases _ t now sequence fromPeer ad changed hself with
      ⟨-, ⟨_, -, -, hs⟩ | ⟨-, hs⟩⟩ | ⟨hlt, ⟨-, hs⟩ | ⟨_, -, ⟨-, hs⟩ | ⟨-, hs⟩⟩⟩ <;> rw [hs]
    · exact .inr (.inl rfl)
    · exact .inl rfl
    · exact .inr (.inr ⟨hself, hlt, _, rfl⟩)
    · exact .inr (.inr ⟨hself, hlt, _, rfl⟩)
    · exact .inl rfl

theorem onlyRoutes_applyEntry (t : RoutingTable) (changed : Bool) (ad : RouteEntry) :
    OnlyRoutes t (applyEntry now sequence fromPeer (t, changed) ad).1 := by
  rcases @applyEntry_eq _ now sequence fromPeer t changed ad with ht' | ht' | ⟨-, -, _, ht'⟩
  · rw [ht']
    exact OnlyRoutes.refl t
  · rw [ht']
    exact onlyRoutes_removeRoute t _
  · rw [ht']
    exact onlyRoutes_insertRoute t _ _

instance (sequence : UInt64) (fromPeer : NodeId) (ad : RouteEntry) (old : RouteTableEntry) :
    Decidable (Replaces sequence fromPeer ad old) :=
  inferInstanceAs (Decidable (_ ∨ _))

/-- The route of a destination after the loop has seen its entry. -/
def relax (pre : Ipv4Prefix) (now : Nat) (sequence : UInt64) (fromPeer : NodeId) (ad : RouteEntry)
    (old : Option RouteTableEntry) : Option RouteTableEntry :=
  let install (metrics : UInt8 × Option UInt32) : RouteTableEntry :=
    { learned now sequence fromPeer ad metrics with
      meshIp := some (deriveMeshIpv4 ad.destination pre) }
  match old with
  | none => if 16 ≤ ad.hops.toNat + 1 then none else some (install (0, none))
  | some r =>
      if 16 ≤ ad.hops.toNat + 1 then (if r.nextHop = fromPeer then none else some r)
      else if Replaces sequence fromPeer ad r then some (install (keptMetrics ad r))
      else some r

/-- The route of a destination after the loop has seen all entries for it. -/
def relaxAll (pre : Ipv4Prefix) (now : Nat) (sequence : UInt64) (fromPeer : NodeId)
    (ads : List RouteEntry) (old : Option RouteTableEntry) : Option RouteTableEntry :=
  ads.foldl (fun r ad => relax pre now sequence fromPeer ad r) old

theorem get_applyEntry (changed : Bool) {ad : RouteEntry} (hself : ad.destination ≠ t.selfId)
    (d : NodeId) :
    (applyEntry now sequence fromPeer (t, changed) ad).1.routes.get d =
      if d = ad.destination then
        relax t.ipv4Prefix now sequence fromPeer ad (t.routes.get ad.destination)
      else t.routes.get d := by
  have hkeep : ∀ r, relax t.ipv4Prefix now sequence fromPeer ad (t.routes.get ad.destination) = r →
      r = t.routes.get ad.destination →
      t.routes.get d = if d = ad.destination then
        relax t.ipv4Prefix now sequence fromPeer ad (t.routes.get ad.destination)
      else t.routes.get d := by
    intro r hr hold
    split
    · rename_i hd
      rw [hr, hold, hd]
    · rfl
  rcases @applyEntry_cases _ t now sequence fromPeer ad changed hself with
    ⟨hge, hcase⟩ | ⟨hlt, hcase⟩
  · rcases hcase with ⟨old, hget, hvia, ht'⟩ | ⟨hother, ht'⟩
    · rw [ht', get_removeRoute, hget, relax, if_pos hge, if_pos hvia]
    · rw [ht']
      refine hkeep _ ?_ rfl
      cases hget : t.routes.get ad.destination with
      | none => rw [relax, if_pos hge]
      | some old => rw [relax, if_pos hge, if_neg (hother old hget)]
  · rcases hcase with ⟨hget, ht'⟩ | ⟨old, hget, ⟨hyes, ht'⟩ | ⟨hno, ht'⟩⟩
    · rw [ht', get_insertRoute, hget, relax, if_neg (Nat.not_le.mpr hlt)]
    · rw [ht', get_insertRoute, hget, relax, if_neg (Nat.not_le.mpr hlt), if_pos hyes]
    · rw [ht']
      refine hkeep _ ?_ rfl
      rw [hget, relax, if_neg (Nat.not_le.mpr hlt), if_neg hno]

/-! ## The loop -/

/-- A destination is relaxed by its own entries, in their order, and the node itself by none. -/
theorem get_loop (entries : List RouteEntry) (s : RoutingTable × Bool) (d : NodeId) :
    (entries.foldl (applyEntry now sequence fromPeer) s).1.routes.get d =
      relaxAll s.1.ipv4Prefix now sequence fromPeer
        (if d = s.1.selfId then [] else entriesFor entries d) (s.1.routes.get d) := by
  induction entries generalizing s with
  | nil => split <;> rfl
  | cons ad entries ih =>
    obtain ⟨t, changed⟩ := s
    have honly := @onlyRoutes_applyEntry _ now sequence fromPeer t changed ad
    have hsame (h : d = t.selfId ∨ d ≠ ad.destination) :
        (applyEntry now sequence fromPeer (t, changed) ad).1.routes.get d = t.routes.get d := by
      rcases Decidable.em (ad.destination = t.selfId) with hself | hself
      · rw [applyEntry_self changed hself]
      · have hne : d ≠ ad.destination := h.elim (fun hd heq => hself (heq.symm.trans hd)) id
        rw [get_applyEntry changed hself, if_neg hne]
    rw [foldl_cons, ih, honly.selfId, honly.ipv4Prefix]
    rcases Decidable.em (d = t.selfId) with hd | hd
    · rw [if_pos hd, if_pos hd, hsame (.inl hd)]
    · rw [if_neg hd, if_neg hd]
      rcases Decidable.em (ad.destination = d) with rfl | hne
      · rw [entriesFor_cons_self, get_applyEntry changed hd, if_pos rfl]
        rfl
      · rw [entriesFor_cons_of_ne hne, hsame (.inr (Ne.symm hne))]

/-! ## The sender -/

/-- The route of the sender once it has been heard from. -/
def greeted (pre : Ipv4Prefix) (now : Nat) (sequence : UInt64) (fromPeer : NodeId) :
    Option RouteTableEntry → RouteTableEntry
  | some entry => { entry with lastSeen := now }
  | none =>
      { nextHop := fromPeer, hops := 1, isGateway := false, lastSeen := now,
        learnedFrom := fromPeer, sequence := sequence, gatewayLoad := 0, rttMs := none,
        meshIp := some (deriveMeshIpv4 fromPeer pre) }

/-- The route of `d` the loop starts from. -/
def known (pre : Ipv4Prefix) (now : Nat) (sequence : UInt64) (fromPeer d : NodeId)
    (old : Option RouteTableEntry) : Option RouteTableEntry :=
  if d = fromPeer then some (greeted pre now sequence fromPeer old) else old

/-- Hearing from the sender moves no route that is there. -/
theorem known_some (pre : Ipv4Prefix) (now : Nat) (sequence : UInt64) (fromPeer d : NodeId)
    (r : RouteTableEntry) :
    ∃ r', known pre now sequence fromPeer d (some r) = some r' ∧ r'.nextHop = r.nextHop ∧
      r'.hops = r.hops ∧ r'.sequence = r.sequence := by
  unfold known
  split
  · exact ⟨_, rfl, rfl, rfl, rfl⟩
  · exact ⟨r, rfl, rfl, rfl, rfl⟩

theorem get_touchPeer (d : NodeId) :
    (t.touchPeer now sequence fromPeer).1.routes.get d =
      known t.ipv4Prefix now sequence fromPeer d (t.routes.get d) := by
  unfold touchPeer known
  cases hget : t.routes.get fromPeer with
  | none =>
    refine (get_insertRoute t fromPeer d _).trans ?_
    split
    · rename_i hd
      rw [hd, hget, greeted]
    · rfl
  | some entry =>
    refine (get_insert _ _ _ _).trans ?_
    split
    · rename_i hd
      rw [hd, hget, greeted]
    · rfl

theorem get_loop_of_unlisted {entries : List RouteEntry} (s : RoutingTable × Bool)
    (hd : d = s.1.selfId ∨ entriesFor entries d = []) :
    (entries.foldl (applyEntry now sequence fromPeer) s).1.routes.get d = s.1.routes.get d := by
  rw [get_loop]
  split
  · rfl
  · rename_i hother
    rw [hd.resolve_left hother]
    rfl

/-! ## The table behind the checks -/

omit [Blake3] in
theorem mem_withdrawn {advertised : List NodeId} {d : NodeId} :
    d ∈ t.withdrawn fromPeer advertised ↔ ∃ e, t.routes.get d = some e ∧
      e.learnedFrom = fromPeer ∧ d ≠ fromPeer ∧ d ∉ advertised := by
  simp only [withdrawn, mem_map, mem_filter, Prod.exists, mem_iter,
    Bool.and_eq_true, decide_eq_true_eq, bne_iff_ne, Bool.not_eq_true', contains_eq_mem,
    decide_eq_false_iff_not]
  constructor
  · rintro ⟨d', e, ⟨hget, ⟨hlearned, hne⟩, hnot⟩, rfl⟩
    exact ⟨e, hget, hlearned, hne, hnot⟩
  · rintro ⟨e, hget, hlearned, hne, hnot⟩
    exact ⟨d, e, ⟨hget, ⟨hlearned, hne⟩, hnot⟩, rfl⟩

/-- The table behind the checks of `apply_update`; removing an empty list of
routes is no special case. -/
theorem applyEntries_fst (t : RoutingTable) (frame : RouteUpdateFrame) :
    (t.applyEntries now frame fromPeer).1 =
      let looped := (frame.entries.foldl (applyEntry now frame.sequence fromPeer)
        (t.touchPeer now frame.sequence fromPeer)).1
      looped.removeRoutes (looped.withdrawn fromPeer (frame.entries.map destination)) := by
  unfold applyEntries
  simp only
  split
  · rename_i hempty
    rw [isEmpty_iff.mp hempty]
    rfl
  · rfl

theorem onlyRoutes_touchPeer (t : RoutingTable) (now : Nat) (sequence : UInt64)
    (fromPeer : NodeId) : OnlyRoutes t (t.touchPeer now sequence fromPeer).1 := by
  unfold RoutingTable.touchPeer
  split
  · exact ⟨rfl, rfl, rfl, rfl, rfl, rfl, rfl, rfl⟩
  · exact onlyRoutes_insertRoute t _ _

theorem onlyRoutes_applyEntries (t : RoutingTable) (frame : RouteUpdateFrame) :
    OnlyRoutes t (t.applyEntries now frame fromPeer).1 := by
  have hloop : ∀ (entries : List RouteEntry) (s : RoutingTable × Bool),
      OnlyRoutes s.1 (entries.foldl (applyEntry now frame.sequence fromPeer) s).1 := by
    intro entries
    induction entries with
    | nil => exact fun s => OnlyRoutes.refl s.1
    | cons ad entries ih => exact fun s => (onlyRoutes_applyEntry s.1 s.2 ad).trans (ih _)
  have htouch := onlyRoutes_touchPeer t now frame.sequence fromPeer
  rw [applyEntries_fst]
  exact (htouch.trans (hloop _ _)).trans (onlyRoutes_removeRoutes _ _)

theorem onlyRoutes_applyUpdate (t : RoutingTable) (now : Nat) (frame : RouteUpdateFrame)
    (fromPeer : NodeId) : ∃ peerMaxSeq,
      OnlyRoutes { t with peerMaxSeq } (t.applyUpdate now frame fromPeer).1 := by
  unfold applyUpdate
  split
  · exact ⟨_, OnlyRoutes.refl t⟩
  · split
    · exact ⟨_, OnlyRoutes.refl t⟩
    · split
      · exact ⟨_, OnlyRoutes.refl _⟩
      · exact ⟨_, onlyRoutes_applyEntries _ _⟩

/-! ## The checks -/

/-- The update does not pass the checks of `apply_update`. -/
def Rejected (t : RoutingTable) (frame : RouteUpdateFrame) (fromPeer : NodeId) : Prop :=
  frame.originId ≠ fromPeer ∨ frame.sequence ≤ (t.peerMaxSeq.get fromPeer).getD 0 ∨
    ∃ e ∈ frame.entries, e.hops = 0 ∧ e.destination ≠ frame.originId

instance (t : RoutingTable) (frame : RouteUpdateFrame) (fromPeer : NodeId) :
    Decidable (t.Rejected frame fromPeer) := inferInstanceAs (Decidable (_ ∨ _ ∨ _))

omit [Blake3] in
theorem suspicious_iff (frame : RouteUpdateFrame) :
    suspicious frame = true ↔ ∃ e ∈ frame.entries, e.hops = 0 ∧ e.destination ≠ frame.originId := by
  simp [suspicious]

/-- An update that passes the checks has its sequence number recorded and is applied. -/
theorem applyUpdate_of_accepted (h : ¬ t.Rejected frame fromPeer) :
    t.applyUpdate now frame fromPeer =
      ({ t with peerMaxSeq := t.peerMaxSeq.insert fromPeer frame.sequence } :
        RoutingTable).applyEntries now frame fromPeer := by
  have horigin : ¬ frame.originId ≠ fromPeer := fun hne => h (.inl hne)
  have hfresh : ¬ frame.sequence ≤ (t.peerMaxSeq.get fromPeer).getD 0 :=
    fun hle => h (.inr (.inl hle))
  have hsane : ¬ suspicious frame = true :=
    fun hsus => h (.inr (.inr ((suspicious_iff frame).mp hsus)))
  unfold applyUpdate
  rw [if_neg horigin, if_neg hfresh]
  exact if_neg hsane

/-- An update that does not pass them at most has its sequence number recorded. -/
theorem applyUpdate_of_rejected (now : Nat) (h : t.Rejected frame fromPeer) :
    ∃ peerMaxSeq, t.applyUpdate now frame fromPeer = ({ t with peerMaxSeq }, .unchanged) := by
  unfold applyUpdate
  split
  · exact ⟨_, rfl⟩
  · rename_i horigin
    split
    · exact ⟨_, rfl⟩
    · rename_i hfresh
      rcases h with hother | hstale | hclaims
      · exact absurd hother horigin
      · exact absurd hstale hfresh
      · exact ⟨_, if_pos ((suspicious_iff frame).mpr hclaims)⟩

theorem routes_applyUpdate_of_rejected (h : t.Rejected frame fromPeer) :
    (t.applyUpdate now frame fromPeer).1.routes = t.routes := by
  obtain ⟨_, hafter⟩ := applyUpdate_of_rejected now h
  rw [hafter]

/-! ## The routes afterwards -/

/-- The next hop of every route is the peer it was learned from. -/
def Learned (t : RoutingTable) : Prop :=
  ∀ d r, t.routes.get d = some r → r.nextHop = r.learnedFrom

/-- The route of a destination after an accepted update: unlisted routes through the sender
go, and the others have followed the entries. -/
theorem get_applyUpdate (h : t.Learned) (hacc : ¬ t.Rejected frame fromPeer) (hd : d ≠ t.selfId) :
    (t.applyUpdate now frame fromPeer).1.routes.get d =
      if entriesFor frame.entries d = [] ∧ d ≠ fromPeer then
        (t.routes.get d).filter fun r => r.nextHop ≠ fromPeer
      else
        relaxAll t.ipv4Prefix now frame.sequence fromPeer (entriesFor frame.entries d)
          (known t.ipv4Prefix now frame.sequence fromPeer d (t.routes.get d)) := by
  rw [applyUpdate_of_accepted hacc, applyEntries_fst]
  generalize hu : ({ t with peerMaxSeq := t.peerMaxSeq.insert fromPeer frame.sequence } :
    RoutingTable) = u
  have honly := onlyRoutes_touchPeer u now frame.sequence fromPeer
  have hself : d ≠ (u.touchPeer now frame.sequence fromPeer).1.selfId := by
    rw [honly.selfId, ← hu]
    exact hd
  generalize hlooped : (frame.entries.foldl (applyEntry now frame.sequence fromPeer)
    (u.touchPeer now frame.sequence fromPeer)).1 = looped
  have hloop : looped.routes.get d = relaxAll t.ipv4Prefix now frame.sequence fromPeer
      (entriesFor frame.entries d)
      (known t.ipv4Prefix now frame.sequence fromPeer d (t.routes.get d)) := by
    rw [← hlooped, get_loop, if_neg hself, honly.ipv4Prefix, get_touchPeer, ← hu]
  have hlisted : d ∉ frame.entries.map destination ↔ entriesFor frame.entries d = [] := by
    simp [entriesFor]
  have hmem : d ∈ looped.withdrawn fromPeer (frame.entries.map destination) ↔ _ :=
    mem_withdrawn
  rw [hloop, hlisted] at hmem
  rw [get_removeRoutes, hloop]
  by_cases hgone : entriesFor frame.entries d = [] ∧ d ≠ fromPeer
  · rw [if_pos hgone]
    rw [hgone.1, known, if_neg hgone.2] at hmem ⊢
    show (if _ then none else t.routes.get d) = _
    cases hget : t.routes.get d with
    | none => exact ite_self none
    | some r =>
      have hvia : d ∈ looped.withdrawn fromPeer (frame.entries.map destination) ↔
          r.nextHop = fromPeer := by
        rw [hmem, h d r hget]
        simp [relaxAll, hget, hgone.2]
      rw [Option.filter_some]
      by_cases hsender : r.nextHop = fromPeer
      · rw [if_pos (hvia.mpr hsender), if_neg (by simpa using hsender)]
      · rw [if_neg (mt hvia.mp hsender), if_pos (by simpa using hsender)]
  · rw [if_neg hgone, if_neg]
    rw [hmem]
    rintro ⟨r, -, -, hne, hnil⟩
    exact hgone ⟨hnil, hne⟩

/-! ## Advertising -/

section Advertise

omit [Blake3]

variable {toPeer : NodeId}

theorem toNat_nextSequence {s s' : UInt64} (h : nextSequence s = some s') :
    s'.toNat = s.toNat + 1 := by
  unfold nextSequence at h
  split at h
  · rename_i hlt
    cases h
    exact Nat.mod_eq_of_lt hlt
  · cases h

variable {t' : RoutingTable} {frame : RouteUpdateFrame}

/-- Generating an advertisement counts the sequence number up and nothing else. -/
theorem generateAdvertisement_eq_some (h : t.generateAdvertisement toPeer = some (t', frame)) :
    ∃ s, nextSequence t.sequence = some s ∧ t' = { t with sequence := s } ∧
      frame.originId = t.selfId ∧ frame.sequence = s ∧
      frame.entries =
        { destination := t.selfId, hops := 0, flags := gatewayFlag t.isGateway
          meshIp := meshIpOctets t.selfMeshIp } ::
          t.routes.iter.filterMap (advertiseEntry toPeer) := by
  unfold generateAdvertisement at h
  cases hs : nextSequence t.sequence with
  | none => simp [hs] at h
  | some s =>
    simp only [hs] at h
    obtain ⟨rfl, rfl⟩ := h
    exact ⟨s, rfl, rfl, rfl, rfl, rfl⟩

theorem generateFor_exists {peers : List NodeId} {t : RoutingTable}
    (hroom : t.sequence.toNat + peers.length < 2 ^ 64) :
    ∃ t' frames, t.generateFor peers = some (t', frames) ∧
      t'.sequence.toNat = t.sequence.toNat + peers.length := by
  induction peers generalizing t with
  | nil => exact ⟨t, [], rfl, rfl⟩
  | cons peer peers ih =>
    rw [length_cons] at hroom
    have hs : nextSequence t.sequence = some (t.sequence + 1) := if_pos (by omega)
    have hnat := toNat_nextSequence hs
    obtain ⟨t', frames, hrest, hseq⟩ :=
      ih (t := { t with sequence := t.sequence + 1 }) (by rw [hnat]; omega)
    obtain ⟨frame, hgen⟩ : ∃ frame, t.generateAdvertisement peer =
        some ({ t with sequence := t.sequence + 1 }, frame) := by
      unfold generateAdvertisement
      rw [hs]
      exact ⟨_, rfl⟩
    refine ⟨t', (peer, frame) :: frames, ?_, ?_⟩
    · simp [generateFor, hgen, hrest]
    · rw [hseq, hnat, length_cons]
      omega

/-- Generating an advertisement for each peer counts the sequence number up by
their number, which has to be possible. -/
theorem generateFor_counts {peers : List NodeId} {frames : List (NodeId × RouteUpdateFrame)}
    (h : t.generateFor peers = some (t', frames)) :
    t' = { t with sequence := t'.sequence } ∧
      t'.sequence.toNat = t.sequence.toNat + peers.length := by
  induction peers generalizing t frames with
  | nil =>
    obtain ⟨rfl, -⟩ : t = t' ∧ [] = frames := by simpa [generateFor] using h
    exact ⟨rfl, rfl⟩
  | cons peer peers ih =>
    obtain ⟨⟨t₁, frame⟩, hgen, h⟩ := Option.bind_eq_some_iff.mp h
    obtain ⟨⟨t₂, rest⟩, hrest, h⟩ := Option.bind_eq_some_iff.mp h
    obtain ⟨rfl, -⟩ : t₂ = t' ∧ (peer, frame) :: rest = frames := by simpa using h
    obtain ⟨sequence, hnext, rfl, -⟩ := generateAdvertisement_eq_some hgen
    obtain ⟨htable, hcount⟩ := ih hrest
    refine ⟨htable, ?_⟩
    have hone := toNat_nextSequence hnext
    rw [hcount, length_cons]
    show sequence.toNat + peers.length = _
    omega

theorem destinations_filterMap (routes : List (NodeId × RouteTableEntry)) :
    (routes.filterMap (advertiseEntry toPeer)).map destination =
      (routes.map Prod.fst).filter (· ≠ toPeer) := by
  induction routes with
  | nil => rfl
  | cons route routes ih =>
    by_cases hr : route.1 = toPeer
    · simp [advertiseEntry, hr] at ih ⊢
      exact ih
    · simp [advertiseEntry, hr] at ih ⊢
      exact ih

theorem mem_filterMap_advertiseEntry {ad : RouteEntry} :
    ad ∈ t.routes.iter.filterMap (advertiseEntry toPeer) ↔
      ∃ e, t.routes.get ad.destination = some e ∧ ad.destination ≠ toPeer ∧
        ad.hops = (if e.learnedFrom = toPeer then infinity else e.hops) ∧
        ad.flags = gatewayFlag e.isGateway ∧ ad.meshIp = meshIpOctets e.meshIp := by
  simp only [mem_filterMap, Prod.exists, mem_iter, advertiseEntry]
  constructor
  · rintro ⟨d, e, hget, had⟩
    split at had
    · cases had
    · rename_i hd
      cases had
      exact ⟨e, hget, hd, rfl, rfl, rfl⟩
  · rintro ⟨e, hget, hd, hhops, hflags, hip⟩
    refine ⟨ad.destination, e, hget, ?_⟩
    cases ad
    simp_all

/-- A node that has no route to itself advertises each destination once. -/
theorem nodup_destinations (hself : t.routes.get t.selfId = none)
    (h : t.generateAdvertisement toPeer = some (t', frame)) :
    (frame.entries.map destination).Nodup := by
  obtain ⟨s, -, -, -, -, hentries⟩ := generateAdvertisement_eq_some h
  rw [hentries, map_cons, destinations_filterMap]
  refine nodup_cons.mpr ⟨fun hmem => ?_, (nodup_iter_keys t.routes).filter _⟩
  obtain ⟨⟨d, e⟩, hroute, hd⟩ := mem_map.mp (mem_filter.mp hmem).1
  have hget := (mem_iter t.routes d e).mp hroute
  rw [show d = t.selfId from hd, hself] at hget
  cases hget

end Advertise

end RoutingTable

end ProximityMesh.Routing
