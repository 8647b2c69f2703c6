/-
  Routing/Triggered.lean --- when an update triggers advertisements of its own.

  Source: `apply_update` of crates/pim-routing/src/table.rs;
  docs/architecture/routing.md, "Triggered Updates".

  The loop sets its flag on some of the branches that change a route.  A route that no
  longer reacts to new words of the sender (`Settled`) either stays or is reported:
  a route through another peer is settled from the start, and a route through the
  sender once the first entry for it has been seen.  That first entry is where a
  longer path is taken over without a report.
-/
import ProximityMesh.Routing.Updates

set_option autoImplicit false

namespace ProximityMesh.Routing

open Protocol RouteTableEntry List

namespace RoutingTable

variable [Blake3] {t : RoutingTable} {pre : Ipv4Prefix} {now : Nat} {sequence : UInt64}
  {fromPeer : NodeId} {frame : RouteUpdateFrame}

/-! ## Reports -/

/-- The entry sets the flag that triggers an update. -/
def Reports (sequence : UInt64) (fromPeer : NodeId) (ad : RouteEntry) :
    Option RouteTableEntry → Prop
  | none => ad.hops.toNat + 1 < 16
  | some old =>
      (16 ≤ ad.hops.toNat + 1 ∧ old.nextHop = fromPeer) ∨
        (ad.hops.toNat + 1 < 16 ∧ (ad.hops.toNat + 1 < old.hops.toNat ∨
          (Replaces sequence fromPeer ad old ∧ old.isGateway ≠ ad.isGateway)))

theorem applyEntry_flag (changed : Bool) {ad : RouteEntry} (hself : ad.destination ≠ t.selfId) :
    (applyEntry now sequence fromPeer (t, changed) ad).2 = true ↔
      changed = true ∨ Reports sequence fromPeer ad (t.routes.get ad.destination) := by
  rcases @applyEntry_cases _ t now sequence fromPeer ad changed hself with
    ⟨hge, ⟨old, hget, hvia, hs⟩ | ⟨hother, hs⟩⟩ | ⟨hlt, ⟨hget, hs⟩ | ⟨old, hget, hcase⟩⟩
  · simp [hs, hget, Reports, hge, hvia]
  · rw [hs]
    cases hget : t.routes.get ad.destination with
    | none => simp [Reports, Nat.not_lt.mpr hge]
    | some old => simp [Reports, Nat.not_lt.mpr hge, hother old hget]
  · simp [hs, hget, Reports, hlt]
  · rcases hcase with ⟨hyes, hs⟩ | ⟨hno, hs⟩
    · simp [hs, hget, Reports, hlt, Nat.not_le.mpr hlt, hyes, or_assoc]
    · have hlong : ¬ ad.hops.toNat + 1 < old.hops.toNat := fun h => hno (.inl h)
      simp [hs, hget, Reports, Nat.not_le.mpr hlt, hno, hlong]

/-- None of the entries for a destination sets the flag. -/
def Silent (pre : Ipv4Prefix) (now : Nat) (sequence : UInt64) (fromPeer : NodeId) :
    List RouteEntry → Option RouteTableEntry → Prop
  | [], _ => True
  | ad :: ads, old =>
      ¬ Reports sequence fromPeer ad old ∧
        Silent pre now sequence fromPeer ads (relax pre now sequence fromPeer ad old)

/-- The loop is silent exactly if it is at each destination. -/
theorem loop_flag (entries : List RouteEntry) (s : RoutingTable × Bool) :
    (entries.foldl (applyEntry now sequence fromPeer) s).2 = false ↔
      s.2 = false ∧ ∀ d, d ≠ s.1.selfId →
        Silent s.1.ipv4Prefix now sequence fromPeer (entriesFor entries d) (s.1.routes.get d) := by
  induction entries generalizing s with
  | nil => exact ⟨fun h => ⟨h, fun _ _ => trivial⟩, fun h => h.1⟩
  | cons ad entries ih =>
    obtain ⟨t, changed⟩ := s
    have honly := @onlyRoutes_applyEntry _ now sequence fromPeer t changed ad
    rw [foldl_cons, ih, honly.selfId, honly.ipv4Prefix]
    rcases Decidable.em (ad.destination = t.selfId) with hself | hself
    · rw [applyEntry_self changed hself]
      refine and_congr_right fun _ => forall₂_congr fun d hd => ?_
      rw [entriesFor_cons_of_ne fun heq => hd (heq.symm.trans hself)]
    · have hflag : (applyEntry now sequence fromPeer (t, changed) ad).2 = false ↔
          changed = false ∧ ¬ Reports sequence fromPeer ad (t.routes.get ad.destination) := by
        rw [← Bool.not_eq_true, applyEntry_flag changed hself, not_or, Bool.not_eq_true]
      rw [hflag, and_assoc]
      refine and_congr_right fun _ => ⟨?_, ?_⟩
      · rintro ⟨hquiet, hrest⟩ d hd
        rcases Decidable.em (ad.destination = d) with rfl | hne
        · have hsilent := hrest _ hd
          rw [get_applyEntry changed hself, if_pos rfl] at hsilent
          rw [entriesFor_cons_self]
          exact ⟨hquiet, hsilent⟩
        · have hsilent := hrest d hd
          rw [get_applyEntry changed hself, if_neg (Ne.symm hne)] at hsilent
          rw [entriesFor_cons_of_ne hne]
          exact hsilent
      · intro hall
        have hhere := hall ad.destination hself
        rw [entriesFor_cons_self] at hhere
        refine ⟨hhere.1, fun d hd => ?_⟩
        rw [get_applyEntry changed hself]
        split
        · rename_i heq
          rw [heq]
          exact hhere.2
        · rename_i hne
          have hsilent := hall d hd
          rw [entriesFor_cons_of_ne (Ne.symm hne)] at hsilent
          exact hsilent

/-- Nothing is withdrawn exactly if every route through the sender is listed: what is missing
from the frame is still as it was before the loop. -/
theorem withdrawn_isEmpty_iff (h : t.Sound) {u : RoutingTable} (hroutes : u.routes = t.routes)
    (now : Nat) (frame : RouteUpdateFrame) (fromPeer : NodeId) :
    ((frame.entries.foldl (applyEntry now frame.sequence fromPeer)
        (u.touchPeer now frame.sequence fromPeer)).1.withdrawn fromPeer
          (frame.entries.map RouteEntry.destination)).isEmpty = true ↔
      ∀ d r, t.routes.get d = some r → r.nextHop = fromPeer → d ≠ fromPeer →
        entriesFor frame.entries d ≠ [] := by
  have hunlisted : ∀ d, d ∉ frame.entries.map RouteEntry.destination ↔
      entriesFor frame.entries d = [] := by
    intro d
    simp [entriesFor]
  rw [List.isEmpty_iff, List.eq_nil_iff_forall_not_mem]
  refine forall_congr' fun d => ?_
  rw [mem_withdrawn]
  constructor
  · intro hnot r hget hvia hne hnil
    refine hnot ⟨r, ?_, ?_, hne, (hunlisted d).mpr hnil⟩
    · rw [get_loop_of_unlisted _ (.inr hnil), get_touchPeer, known, if_neg hne, hroutes]
      exact hget
    · exact (h.entry d r hget).learned.symm.trans hvia
  · rintro hall ⟨r, hget, hlearned, hne, hnot⟩
    have hnil := (hunlisted d).mp hnot
    rw [get_loop_of_unlisted _ (.inr hnil), get_touchPeer, known, if_neg hne, hroutes] at hget
    exact hall r hget ((h.entry d r hget).learned.trans hlearned) hne hnil

/-- An update triggers nothing exactly if it is refused, or its sender has a route, no entry
sets the flag and nothing is withdrawn. -/
theorem applyUpdate_unchanged_iff (h : t.Sound) :
    (t.applyUpdate now frame fromPeer).2 = .unchanged ↔
      t.Rejected frame fromPeer ∨
        ((t.routes.get fromPeer).isSome ∧ (∀ d, d ≠ t.selfId →
            Silent t.ipv4Prefix now frame.sequence fromPeer (entriesFor frame.entries d)
              (known t.ipv4Prefix now frame.sequence fromPeer d (t.routes.get d))) ∧
          ∀ d r, t.routes.get d = some r → r.nextHop = fromPeer → d ≠ fromPeer →
            entriesFor frame.entries d ≠ []) := by
  rcases Classical.em (t.Rejected frame fromPeer) with hrej | hacc
  · obtain ⟨_, hafter⟩ := applyUpdate_of_rejected now hrej
    exact iff_of_true (congrArg Prod.snd hafter) (.inl hrej)
  · rw [or_iff_right hacc, applyUpdate_of_accepted hacc]
    generalize hu : ({ t with peerMaxSeq := t.peerMaxSeq.insert fromPeer frame.sequence } :
      RoutingTable) = u
    have hroutes : u.routes = t.routes := by rw [← hu]
    have hself : u.selfId = t.selfId := by rw [← hu]
    have hpre : u.ipv4Prefix = t.ipv4Prefix := by rw [← hu]
    have honly := onlyRoutes_touchPeer u now frame.sequence fromPeer
    have hloop := @loop_flag _ now frame.sequence fromPeer frame.entries
      (u.touchPeer now frame.sequence fromPeer)
    simp only [honly.selfId, honly.ipv4Prefix, hself, hpre, get_touchPeer, hroutes] at hloop
    have htouched : (u.touchPeer now frame.sequence fromPeer).2 = false ↔
        (t.routes.get fromPeer).isSome := by
      unfold touchPeer
      rw [hroutes]
      cases t.routes.get fromPeer <;> simp
    have hgone := withdrawn_isEmpty_iff h hroutes now frame fromPeer
    unfold applyEntries
    dsimp only
    rw [← hgone, ← htouched, ← and_assoc, ← hloop]
    split
    · rename_i hempty
      rw [and_iff_left hempty, UpdateResult.ofBool]
      cases (frame.entries.foldl (applyEntry now frame.sequence fromPeer)
        (u.touchPeer now frame.sequence fromPeer)).2 <;> simp
    · rename_i hsome
      exact iff_of_false (by simp) fun hboth => hsome hboth.2

/-! ## Updates that report nothing -/

omit [Blake3] in
theorem Settled.reports_iff {r : RouteTableEntry} (h : Settled sequence fromPeer r)
    (ad : RouteEntry) : Reports sequence fromPeer ad (some r) ↔ ¬ Spares fromPeer r ad := by
  simp only [Reports, h.replaces_iff ad, Spares]
  rcases Nat.lt_or_ge (ad.hops.toNat + 1) 16 with hlt | hge
  · have hshort : ad.hops.toNat + 1 < r.hops.toNat ∨
        (ad.hops.toNat + 1 < r.hops.toNat ∧ ¬ r.isGateway = ad.isGateway) ↔
        ad.hops.toNat + 1 < r.hops.toNat := or_iff_left_of_imp fun h => h.1
    simp [hshort, hlt, Nat.not_le.mpr hlt]
  · simp [hge]

variable {ads : List RouteEntry} {r : RouteTableEntry}

theorem silent_none_iff :
    Silent pre now sequence fromPeer ads none ↔ ∀ ad ∈ ads, 16 ≤ ad.hops.toNat + 1 := by
  induction ads with
  | nil => exact iff_of_true trivial fun _ h => absurd h not_mem_nil
  | cons ad ads ih =>
    rw [forall_mem_cons]
    refine Iff.trans ?_ (and_congr_right fun _ => ih)
    have hquiet : ¬ Reports sequence fromPeer ad none ↔ 16 ≤ ad.hops.toNat + 1 := Nat.not_lt
    rw [Silent, hquiet]
    refine and_congr_right fun hge => ?_
    rw [relax, if_pos hge]

theorem Settled.silent_iff (h : Settled sequence fromPeer r) :
    Silent pre now sequence fromPeer ads (some r) ↔ ∀ ad ∈ ads, Spares fromPeer r ad := by
  induction ads with
  | nil => exact iff_of_true trivial fun _ h => absurd h not_mem_nil
  | cons ad ads ih =>
    rw [forall_mem_cons, Silent, h.reports_iff, not_not]
    refine and_congr_right fun hspares => ?_
    rw [relax_of_spares h hspares]
    exact ih

/-- A first word of the next hop that brings no poison is taken over. -/
theorem relax_of_older (pre : Ipv4Prefix) (now : Nat) (hvia : r.nextHop = fromPeer)
    (hold : r.sequence < sequence) {ad : RouteEntry} (hlt : ad.hops.toNat + 1 < 16) :
    ∃ r', relax pre now sequence fromPeer ad (some r) = some r' ∧ r'.nextHop = fromPeer ∧
      r'.hops.toNat = ad.hops.toNat + 1 ∧ r'.isGateway = ad.isGateway ∧
      r'.sequence = sequence := by
  rw [relax, if_neg (Nat.not_le.mpr hlt), if_pos (.inr ⟨hold, hvia⟩)]
  exact ⟨_, rfl, rfl, (toNat_newHops ad.hops).trans (Nat.min_eq_left (Nat.le_of_lt hlt)), rfl, rfl⟩

/-- What a destination may be listed with for the update to report nothing there.  Of a route
through the sender the first entry decides; the later ones find it as new as the
update. -/
def QuietAt (fromPeer : NodeId) (ads : List RouteEntry) : Option RouteTableEntry → Prop
  | none => ∀ ad ∈ ads, 16 ≤ ad.hops.toNat + 1
  | some r =>
      if r.nextHop = fromPeer then
        ∀ first ∈ ads.head?, r.hops.toNat ≤ first.hops.toNat + 1 ∧
          r.isGateway = first.isGateway ∧
          ∀ ad ∈ ads, ad.hops.toNat + 1 < 16 ∧ first.hops.toNat ≤ ad.hops.toNat
      else ∀ ad ∈ ads, r.hops.toNat ≤ ad.hops.toNat + 1

theorem silent_iff_quietAt (old : Option RouteTableEntry)
    (hle : ∀ r, old = some r → r.hops.toNat ≤ 15)
    (hold : ∀ r, old = some r → r.nextHop = fromPeer → r.sequence < sequence) :
    Silent pre now sequence fromPeer ads old ↔ QuietAt fromPeer ads old := by
  cases old with
  | none => exact silent_none_iff
  | some r =>
    have hle := hle r rfl
    rcases Decidable.em (r.nextHop = fromPeer) with hvia | hother
    · have hold := hold r rfl hvia
      simp only [QuietAt, if_pos hvia]
      cases ads with
      | nil => exact iff_of_true trivial fun _ h => absurd h (Option.not_mem_none _)
      | cons first rest =>
        have hquiet : ¬ Reports sequence fromPeer first (some r) ↔
            first.hops.toNat + 1 < 16 ∧ r.hops.toNat ≤ first.hops.toNat + 1 ∧
              r.isGateway = first.isGateway := by
          have hreplaces : Replaces sequence fromPeer first r := .inr ⟨hold, hvia⟩
          simp only [Reports, hvia, hreplaces, and_true, true_and, not_or, not_and, not_le, not_lt,
            not_not]
          exact ⟨fun h => ⟨h.1, h.2 h.1⟩, fun h => ⟨h.1, fun _ => h.2⟩⟩
        rw [Silent, hquiet, head?_cons]
        simp only [Option.mem_some_iff, forall_eq', forall_mem_cons, Nat.le_refl, and_true]
        constructor
        · rintro ⟨⟨hlt, hlong, hflag⟩, hsilent⟩
          obtain ⟨r', hr', hvia', hhops, -, hseq⟩ := relax_of_older pre now hvia hold hlt
          rw [hr'] at hsilent
          have hsettled : Settled sequence fromPeer r' := fun _ => hseq ▸ UInt64.le_refl _
          refine ⟨hlong, hflag, hlt, fun ad had => ?_⟩
          rcases hsettled.silent_iff.mp hsilent ad had with ⟨-, hne⟩ | ⟨hlt', hle'⟩
          · exact absurd hvia' hne
          · exact ⟨hlt', by omega⟩
        · rintro ⟨hlong, hflag, hlt, hrest⟩
          obtain ⟨r', hr', hvia', hhops, -, hseq⟩ := relax_of_older pre now hvia hold hlt
          have hsettled : Settled sequence fromPeer r' := fun _ => hseq ▸ UInt64.le_refl _
          refine ⟨⟨hlt, hlong, hflag⟩, ?_⟩
          rw [hr']
          refine hsettled.silent_iff.mpr fun ad had => .inr ⟨(hrest ad had).1, ?_⟩
          have := (hrest ad had).2
          omega
    · have hsettled : Settled sequence fromPeer r := fun hvia => absurd hvia hother
      rw [hsettled.silent_iff]
      simp only [QuietAt, if_neg hother]
      refine forall₂_congr fun ad _ => ⟨?_, fun h => ?_⟩
      · rintro (⟨hge, -⟩ | ⟨-, h⟩)
        · omega
        · exact h
      · rcases Nat.lt_or_ge (ad.hops.toNat + 1) 16 with hlt | hge
        · exact .inr ⟨hlt, h⟩
        · exact .inl ⟨hge, hother⟩

/-- The update reports nothing: its sender has a route, each destination is listed quietly and
no route is withdrawn. -/
structure Quiet (t : RoutingTable) (frame : RouteUpdateFrame) (fromPeer : NodeId) : Prop where
  sender : (t.routes.get fromPeer).isSome
  entries : ∀ d, d ≠ t.selfId → QuietAt fromPeer (entriesFor frame.entries d) (t.routes.get d)
  listed : ∀ d r, t.routes.get d = some r → r.nextHop = fromPeer → d ≠ fromPeer →
    entriesFor frame.entries d ≠ []

/-- A route through the sender is first listed with more hops than it has. -/
def Lengthens (t : RoutingTable) (frame : RouteUpdateFrame) (fromPeer : NodeId) : Prop :=
  ∃ d r first, d ≠ t.selfId ∧ t.routes.get d = some r ∧ r.nextHop = fromPeer ∧
    (entriesFor frame.entries d).head? = some first ∧ r.hops.toNat < first.hops.toNat + 1

theorem unchanged_iff_quiet (h : t.Sound) (hacc : ¬ t.Rejected frame fromPeer) :
    (t.applyUpdate now frame fromPeer).2 = .unchanged ↔ t.Quiet frame fromPeer := by
  have hat : (t.routes.get fromPeer).isSome → ∀ d,
      (Silent t.ipv4Prefix now frame.sequence fromPeer (entriesFor frame.entries d)
          (known t.ipv4Prefix now frame.sequence fromPeer d (t.routes.get d)) ↔
        QuietAt fromPeer (entriesFor frame.entries d) (t.routes.get d)) := by
    intro hsender d
    rw [known_eq fun _ => hsender]
    cases hget : t.routes.get d with
    | none => exact silent_none_iff
    | some r =>
      have hle : r.hops.toNat ≤ 15 := UInt8.le_iff_toNat_le.mp (h.entry d r hget).hops_le
      have hold : r.nextHop = fromPeer → r.sequence < frame.sequence :=
        older_of_accepted hacc (h.entry d r hget).sequence
      split <;> refine silent_iff_quietAt (some _) ?_ ?_ <;> rintro _ ⟨⟩
      · exact hle
      · exact hold
      · exact hle
      · exact hold
  rw [applyUpdate_unchanged_iff h, or_iff_right hacc]
  constructor
  · rintro ⟨hsender, hsilent, hlisted⟩
    exact ⟨hsender, fun d hd => (hat hsender d).mp (hsilent d hd), hlisted⟩
  · rintro ⟨hsender, hquiet, hlisted⟩
    exact ⟨hsender, fun d hd => (hat hsender d).mpr (hquiet d hd), hlisted⟩

/-- A route through the sender follows the first entry of a quiet update. -/
theorem hop_of_quiet_first (h : t.Sound) (hacc : ¬ t.Rejected frame fromPeer)
    (hquiet : t.Quiet frame fromPeer) {d : NodeId} (hd : d ≠ t.selfId)
    (hget : t.routes.get d = some r) (hvia : r.nextHop = fromPeer) {first : RouteEntry}
    (hfirst : (entriesFor frame.entries d).head? = some first) :
    ((t.applyUpdate now frame fromPeer).1.routes.get d).map hop =
      some ⟨fromPeer, first.hops.toNat + 1, r.isGateway⟩ := by
  have hat := hquiet.entries d hd
  rw [hget, QuietAt, if_pos hvia] at hat
  obtain ⟨-, hflag, hall⟩ := hat first hfirst
  have hold := older_of_accepted hacc (h.entry d r hget).sequence hvia
  obtain ⟨r₁, hknown, hnext₁, -, hseq₁⟩ := known_some t.ipv4Prefix now frame.sequence fromPeer d r
  obtain ⟨rest, hads⟩ := head?_eq_some_iff.mp hfirst
  rw [hads] at hall
  have hlt := (hall first mem_cons_self).1
  obtain ⟨r', hr', hvia', hhops, hflag', hseq⟩ :=
    relax_of_older t.ipv4Prefix now (hnext₁.trans hvia) (hseq₁ ▸ hold) hlt
  have hsettled : Settled frame.sequence fromPeer r' := fun _ => hseq ▸ UInt64.le_refl _
  have hrest : ∀ ad ∈ rest, Spares fromPeer r' ad := by
    intro ad had
    obtain ⟨hlt', hle⟩ := hall ad (mem_cons_of_mem first had)
    exact .inr ⟨hlt', by omega⟩
  have hafter : relaxAll t.ipv4Prefix now frame.sequence fromPeer (first :: rest) (some r₁) =
      some r' := by
    rw [relaxAll, foldl_cons, hr']
    exact relaxAll_of_spares hsettled hrest
  rw [get_applyUpdate h.toLearned hacc hd, hads, if_neg fun hgone => cons_ne_nil first rest hgone.1,
    hget, hknown, hafter, Option.map_some, hop, hvia', hhops, hflag', ← hflag]

theorem hop_of_quiet (h : t.Sound) (hacc : ¬ t.Rejected frame fromPeer)
    (hquiet : t.Quiet frame fromPeer) {d : NodeId}
    (hd : d = t.selfId ∨ ∀ r, t.routes.get d = some r → r.nextHop = fromPeer →
      entriesFor frame.entries d = []) :
    ((t.applyUpdate now frame fromPeer).1.routes.get d).map hop =
      (t.routes.get d).map hop := by
  have hhop := fun pre => @hop_known _ t pre now frame.sequence fromPeer d fun _ => hquiet.sender
  rcases Decidable.em (d = t.selfId) with hself | hother
  · -- the loop skips the node itself, and nothing is withdrawn
    rw [applyUpdate_of_accepted hacc, applyEntries_fst]
    have hloop : (frame.entries.foldl (applyEntry now frame.sequence fromPeer)
        (touchPeer { t with peerMaxSeq := t.peerMaxSeq.insert fromPeer frame.sequence } now
          frame.sequence fromPeer)).1.routes.get d =
        known t.ipv4Prefix now frame.sequence fromPeer d (t.routes.get d) := by
      rw [get_loop_of_unlisted _ (.inl ?_), get_touchPeer]
      rw [(onlyRoutes_touchPeer _ _ _ _).selfId]
      exact hself
    rw [get_removeRoutes, if_neg, hloop, hhop]
    intro hmem
    obtain ⟨r, hget, hlearned, hne, hunlisted⟩ := mem_withdrawn.mp hmem
    rw [hloop, known, if_neg hne] at hget
    refine hquiet.listed d r hget ((h.entry d r hget).learned.trans hlearned) hne ?_
    exact filter_eq_nil_iff.mpr fun ad had hdst =>
      hunlisted (mem_map.mpr ⟨ad, had, of_decide_eq_true hdst⟩)
  · have hd := hd.resolve_left hother
    have hat := hquiet.entries d hother
    rw [get_applyUpdate h.toLearned hacc hother]
    cases hget : t.routes.get d with
    | none =>
      have hpeer : d ≠ fromPeer := by
        rintro rfl
        have hsender := hquiet.sender
        rw [hget] at hsender
        cases hsender
      rw [hget] at hat
      rw [known, if_neg hpeer, relaxAll_none hat, Option.filter_none, ite_self]
    | some r =>
      rw [hget] at hat hhop
      rcases Decidable.em (r.nextHop = fromPeer) with hvia | hvia
      · have hnil := hd r hget hvia
        have hpeer : d = fromPeer := by
          by_contra hne
          exact hquiet.listed d r hget hvia hne hnil
        rw [if_neg fun hgone => hgone.2 hpeer, hnil]
        exact hhop _
      · rw [QuietAt, if_neg hvia] at hat
        obtain ⟨r₁, hknown, hnext₁, hhops₁, -⟩ :=
          known_some t.ipv4Prefix now frame.sequence fromPeer d r
        have hkept := @relaxAll_of_longer _ t.ipv4Prefix now frame.sequence fromPeer r₁ _
          (hnext₁ ▸ hvia) fun ad had => hhops₁ ▸ hat ad had
        split
        · rw [Option.filter_some, if_pos (by simpa using hvia)]
        · rw [← hhop t.ipv4Prefix, hknown, hkept]

/-- On every reachable table, an update that triggers nothing has changed no next hop, hop
count or gateway flag, unless it lengthens a path through its sender and reports nothing
else. -/
theorem unchanged_update_keeps_routes_iff {selfId : NodeId} {isGateway : Bool}
    {ops : List TableOp} (hreach : (new selfId isGateway pre).run ops = some t) (now : Nat)
    (frame : RouteUpdateFrame) (fromPeer : NodeId) :
    ((t.applyUpdate now frame fromPeer).2 = .unchanged →
        ∀ d, ((t.applyUpdate now frame fromPeer).1.routes.get d).map RouteTableEntry.hop =
          (t.routes.get d).map RouteTableEntry.hop) ↔
      t.Rejected frame fromPeer ∨ ¬ t.Quiet frame fromPeer ∨ ¬ t.Lengthens frame fromPeer := by
  have hsound := (sound_new selfId isGateway pre).run hreach
  rcases Classical.em (t.Rejected frame fromPeer) with hrej | hacc
  · refine iff_of_true (fun _ d => ?_) (.inl hrej)
    rw [routes_applyUpdate_of_rejected hrej]
  · rw [or_iff_right hacc, unchanged_iff_quiet hsound hacc, ← imp_iff_not_or]
    refine forall_congr' fun hquiet => ⟨?_, ?_⟩
    · rintro hsame ⟨d, r, first, hd, hget, hvia, hfirst, hlonger⟩
      have hhop := hsame d
      rw [hop_of_quiet_first hsound hacc hquiet hd hget hvia hfirst, hget] at hhop
      have hhops : first.hops.toNat + 1 = r.hops.toNat :=
        congrArg Hop.hops (Option.some.inj hhop)
      omega
    · intro hshort d
      rcases Classical.em (∃ r first, d ≠ t.selfId ∧ t.routes.get d = some r ∧
        r.nextHop = fromPeer ∧ (entriesFor frame.entries d).head? = some first) with
        ⟨r, first, hd, hget, hvia, hfirst⟩ | hnone
      · have hat := hquiet.entries d hd
        rw [hget, QuietAt, if_pos hvia] at hat
        have hhops : r.hops.toNat = first.hops.toNat + 1 := by
          refine Nat.le_antisymm (hat first hfirst).1 (Nat.not_lt.mp fun hlonger => ?_)
          exact hshort ⟨d, r, first, hd, hget, hvia, hfirst, hlonger⟩
        rw [hop_of_quiet_first hsound hacc hquiet hd hget hvia hfirst, hget, Option.map_some,
          hop, hvia, hhops]
      · refine hop_of_quiet hsound hacc hquiet ?_
        rcases Decidable.em (d = t.selfId) with hself | hother
        · exact .inl hself
        · refine .inr fun r hget hvia => ?_
          rw [← head?_eq_none_iff]
          cases hfirst : (entriesFor frame.entries d).head? with
          | none => rfl
          | some first => exact absurd ⟨r, first, hother, hget, hvia, hfirst⟩ hnone

/-- Node 1 reaches node 3 in two hops through node 2. -/
def behindPeer : List TableOp :=
  [.addPeer 0 (nodeOf 2),
    .applyUpdate 1 (listing (nodeOf 2) 1 [(nodeOf 3, 1)]) (nodeOf 2)]

omit [Blake3] in
/-- Node 2 now lists node 3 with three hops: the route becomes four hops long, and no update
is triggered. -/
theorem longer_path_unreported :
    letI := transparentBlake3
    ∃ t, firstTable.run behindPeer = some t ∧
      (t.applyUpdate 2 (listing (nodeOf 2) 2 [(nodeOf 3, 3)]) (nodeOf 2)).2 =
        .unchanged ∧
      (t.routes.get (nodeOf 3)).map RouteTableEntry.hop = some ⟨nodeOf 2, 2, false⟩ ∧
      ((t.applyUpdate 2 (listing (nodeOf 2) 2 [(nodeOf 3, 3)]) (nodeOf 2)).1.routes.get
        (nodeOf 3)).map RouteTableEntry.hop = some ⟨nodeOf 2, 4, false⟩ := by
  let _ := transparentBlake3
  have hfacts : (firstTable.run behindPeer).map (fun t =>
      ((t.applyUpdate 2 (listing (nodeOf 2) 2 [(nodeOf 3, 3)]) (nodeOf 2)).2,
        (t.routes.get (nodeOf 3)).map hop,
        ((t.applyUpdate 2 (listing (nodeOf 2) 2 [(nodeOf 3, 3)]) (nodeOf 2)).1.routes.get
          (nodeOf 3)).map hop)) =
      some (.unchanged, some ⟨nodeOf 2, 2, false⟩, some ⟨nodeOf 2, 4, false⟩) := by
    decide +kernel
  obtain ⟨t, hrun, hfacts⟩ := Option.map_eq_some_iff.mp hfacts
  simp only [Prod.mk.injEq] at hfacts
  exact ⟨t, hrun, hfacts⟩

omit [Blake3] in
/-- Node 2 lists node 3 as before: nothing is triggered and nothing has changed. -/
theorem refresh_keeps_routes :
    letI := transparentBlake3
    ∃ t, firstTable.run behindPeer = some t ∧
      ((t.applyUpdate 2 (listing (nodeOf 2) 2 [(nodeOf 3, 1)]) (nodeOf 2)).2 = .unchanged →
        ∀ d, ((t.applyUpdate 2 (listing (nodeOf 2) 2 [(nodeOf 3, 1)])
            (nodeOf 2)).1.routes.get d).map RouteTableEntry.hop =
          (t.routes.get d).map RouteTableEntry.hop) := by
  let _ := transparentBlake3
  have hhops : (firstTable.run behindPeer).map (fun t =>
      (t.routes.get (nodeOf 3)).map hops) = some (some 2) := by
    decide +kernel
  obtain ⟨t, hrun, hhops⟩ := Option.map_eq_some_iff.mp hhops
  refine ⟨t, hrun, (unchanged_update_keeps_routes_iff hrun 2 _ _).mpr (.inr (.inr ?_))⟩
  rintro ⟨d, r, first, -, hget, -, hfirst, hlonger⟩
  obtain ⟨hmem, rfl⟩ := mem_entriesFor.mp (mem_of_mem_head? hfirst)
  obtain rfl := mem_singleton.mp hmem
  rw [hget] at hhops
  rw [Option.some.inj hhops] at hlonger
  exact Nat.lt_irrefl 2 hlonger

end RoutingTable

end ProximityMesh.Routing
