/-
  DistanceVector/LoopFreedom.lean --- runs of the protocol in which links only
  appear.

  Nodes gain neighbours, advertise to neighbours, and receive advertisements in
  any order, any number of times or never.  What makes such runs loop free is
  that no node ever loses a route or lengthens one (`Grows`), and that cannot be
  seen from one node: a node follows its next hop, so it needs that a newer
  advertisement of that next hop never offers more than the one the route was
  taken from.  `Inv` is the invariant that carries this; its last field excludes
  the one exception, a poisoned offer.
-/
import ProximityMesh.DistanceVector.Basic

set_option autoImplicit false

namespace ProximityMesh.DistanceVector

open Node

variable {ι : Type} [DecidableEq ι]

/-- All nodes, and every advertisement sent so far with its addressee. -/
structure Net (ι : Type) where
  node : ι → Node ι
  pool : Set (ι × Advert ι)

namespace Net

def fresh : Net ι := ⟨fun _ => Node.fresh, ∅⟩

/-- The links known to at least one of their ends. -/
def graph (N : Net ι) : SimpleGraph ι := SimpleGraph.fromRel fun u v => v ∈ (N.node u).peers

def connect (N : Net ι) (u v : ι) : Net ι :=
  { N with node := Function.update N.node u ((N.node u).addPeer v) }

variable (inf : Nat)

def send (N : Net ι) (u v : ι) : Net ι :=
  { node := Function.update N.node u { N.node u with seq := (N.node u).seq + 1 }
    pool := insert (v, (N.node u).advert inf u v ((N.node u).seq + 1)) N.pool }

def deliver (N : Net ι) (u : ι) (a : Advert ι) : Net ι :=
  { N with node := Function.update N.node u ((N.node u).receive inf u a) }

/-- One step of a run. -/
inductive Step : Net ι → Net ι → Prop
  | connect {N : Net ι} {u v : ι} (h : v ≠ u) : Step N (N.connect u v)
  | send {N : Net ι} {u v : ι} (h : v ∈ (N.node u).peers) : Step N (N.send inf u v)
  | deliver {N : Net ι} {u : ι} {a : Advert ι} (h : (u, a) ∈ N.pool) : Step N (N.deliver inf u a)

/-- `u` has a route to `d` of at most `h` hops. -/
def Within (N : Net ι) (u d : ι) (h : Nat) : Prop :=
  ∃ r, (N.node u).routes d = some r ∧ r.hops ≤ h

/-! ## Growth -/

/-- Nothing is lost between two states: links and frames stay, counters do not
go back, and no route disappears or becomes longer. -/
structure Grows (N N' : Net ι) : Prop where
  pool : N.pool ⊆ N'.pool
  peers : ∀ u, (N.node u).peers ⊆ (N'.node u).peers
  seq : ∀ u, (N.node u).seq ≤ (N'.node u).seq
  maxSeq : ∀ u v, (N.node u).maxSeq v ≤ (N'.node u).maxSeq v
  within : ∀ u d h, N.Within u d h → N'.Within u d h

omit [DecidableEq ι] in
theorem Grows.refl (N : Net ι) : Grows N N :=
  ⟨fun _ h => h, fun _ _ h => h, fun _ => le_rfl, fun _ _ => le_rfl, fun _ _ _ h => h⟩

omit [DecidableEq ι] in
theorem Grows.trans {N₁ N₂ N₃ : Net ι} (h₁ : Grows N₁ N₂) (h₂ : Grows N₂ N₃) : Grows N₁ N₃ where
  pool := h₁.pool.trans h₂.pool
  peers := fun u => (h₁.peers u).trans (h₂.peers u)
  seq := fun u => (h₁.seq u).trans (h₂.seq u)
  maxSeq := fun u v => (h₁.maxSeq u v).trans (h₂.maxSeq u v)
  within := fun u d h hw => h₂.within u d h (h₁.within u d h hw)

omit [DecidableEq ι] in
theorem Grows.adj {N N' : Net ι} (h : Grows N N') {u v : ι} (huv : N.graph.Adj u v) :
    N'.graph.Adj u v := by
  obtain ⟨hne, hpeer⟩ := (SimpleGraph.fromRel_adj _ u v).mp huv
  exact (SimpleGraph.fromRel_adj _ u v).mpr
    ⟨hne, hpeer.imp (fun hv => h.peers u hv) (fun hu => h.peers v hu)⟩

variable {N N' : Net ι} {u v d : ι} {r : Route ι}

theorem grows_update {n : Node ι} {pool : Set (ι × Advert ι)} (hpool : N.pool ⊆ pool)
    (hpeers : (N.node u).peers ⊆ n.peers) (hseq : (N.node u).seq ≤ n.seq)
    (hmax : ∀ v, (N.node u).maxSeq v ≤ n.maxSeq v)
    (hroutes : ∀ d r, (N.node u).routes d = some r →
      ∃ r', n.routes d = some r' ∧ r'.hops ≤ r.hops) :
    Grows N ⟨Function.update N.node u n, pool⟩ where
  pool := hpool
  peers := by
    intro w
    by_cases hw : w = u
    · subst hw
      simpa using hpeers
    · simp [hw]
  seq := by
    intro w
    by_cases hw : w = u
    · subst hw
      simpa using hseq
    · simp [hw]
  maxSeq := by
    intro w v
    by_cases hw : w = u
    · subst hw
      simpa using hmax v
    · simp [hw]
  within := by
    rintro w d h ⟨r, hr, hle⟩
    by_cases hw : w = u
    · subst hw
      obtain ⟨r', hr', hle'⟩ := hroutes d r hr
      exact ⟨r', by simpa using hr', hle'.trans hle⟩
    · exact ⟨r, by simpa [hw] using hr, hle⟩

/-! ## The invariant -/

/-- A route is a link to its next hop, or was taken from an advertisement of it. -/
structure RouteOk (N : Net ι) (u d : ι) (r : Route ι) : Prop where
  ne : d ≠ u
  pos : 0 < r.hops
  lt_inf : r.hops < inf
  link : N.graph.Adj u r.nextHop
  seq_le : r.seq ≤ (N.node u).maxSeq r.nextHop
  source : (d = r.nextHop ∧ r.hops = 1) ∨
    ∃ a, (u, a) ∈ N.pool ∧ a.origin = r.nextHop ∧ a.seq = r.seq ∧ a.offer d = some (r.hops - 1)

/-- What an advertisement offers, its sender still has. -/
structure FrameOk (N : Net ι) (w : ι) (a : Advert ι) : Prop where
  seq_le : a.seq ≤ (N.node a.origin).seq
  peer : w ∈ (N.node a.origin).peers
  ne : w ≠ a.origin
  self : a.offer a.origin = some 0
  backed : ∀ d h, d ≠ a.origin → a.offer d = some h → N.Within a.origin d h

structure Inv (N : Net ι) : Prop where
  peer_ne : ∀ u v, v ∈ (N.node u).peers → v ≠ u
  route : ∀ u d r, (N.node u).routes d = some r → N.RouteOk inf u d r
  frame : ∀ w a, (w, a) ∈ N.pool → N.FrameOk w a
  /-- A newer advertisement offers no longer path, unless it is poisoned. -/
  newer : ∀ w₁ a₁ w₂ a₂, (w₁, a₁) ∈ N.pool → (w₂, a₂) ∈ N.pool → a₁.origin = a₂.origin →
    a₁.seq < a₂.seq → ∀ d h, d ≠ a₂.origin → d ≠ w₂ → a₁.offer d = some h →
      ∃ h', a₂.offer d = some h' ∧ (h' = inf ∨ h' ≤ h)
  /-- Who is offered a poisoned path has a shorter one than it was offered before. -/
  poisoned : ∀ w a₁ a₂, (w, a₁) ∈ N.pool → (w, a₂) ∈ N.pool → a₁.origin = a₂.origin →
    a₁.seq < a₂.seq → ∀ d h, d ≠ a₂.origin → a₁.offer d = some h → h < inf →
      a₂.offer d = some inf → ∃ k, k < h ∧ N.Within w d k

variable {inf}

omit [DecidableEq ι] in
theorem RouteOk.grows {N N' : Net ι} (hg : Grows N N') {u d : ι} {r : Route ι}
    (h : N.RouteOk inf u d r) : N'.RouteOk inf u d r where
  ne := h.ne
  pos := h.pos
  lt_inf := h.lt_inf
  link := hg.adj h.link
  seq_le := h.seq_le.trans (hg.maxSeq u _)
  source := h.source.imp id fun ⟨a, hmem, ha⟩ => ⟨a, hg.pool hmem, ha⟩

omit [DecidableEq ι] in
theorem FrameOk.grows {N N' : Net ι} (hg : Grows N N') {w : ι} {a : Advert ι}
    (h : N.FrameOk w a) : N'.FrameOk w a where
  seq_le := h.seq_le.trans (hg.seq _)
  peer := hg.peers _ h.peer
  ne := h.ne
  self := h.self
  backed := fun d k hd ho => hg.within _ d k (h.backed d k hd ho)

omit [DecidableEq ι] in
theorem inv_fresh : Inv inf (fresh : Net ι) where
  peer_ne := fun _ _ h => h.elim
  route := fun _ _ _ h => nomatch h
  frame := fun _ _ h => h.elim
  newer := fun _ _ _ _ h => h.elim
  poisoned := fun _ _ _ h => h.elim

omit [DecidableEq ι] in
/-- What an invariant state gives its successor: the old routes and frames are
still fine when nothing was lost, so only what is new has to be looked at. -/
theorem Inv.grows (hi : Inv inf N) (hg : Grows N N') (hpool : N'.pool = N.pool)
    (hpeer : ∀ u v, v ∈ (N'.node u).peers → v ≠ u)
    (hroute : ∀ u d r, (N'.node u).routes d = some r →
      (N.node u).routes d = some r ∨ N'.RouteOk inf u d r) : Inv inf N' where
  peer_ne := hpeer
  route := by
    intro u d r hr
    rcases hroute u d r hr with hold | hnew
    · exact (hi.route u d r hold).grows hg
    · exact hnew
  frame := by
    intro w a hmem
    rw [hpool] at hmem
    exact (hi.frame w a hmem).grows hg
  newer := by
    rw [hpool]
    exact hi.newer
  poisoned := by
    intro w a₁ a₂ h₁ h₂ ho hs d h hd hoff hlt hinf
    rw [hpool] at h₁ h₂
    obtain ⟨k, hk, hw⟩ := hi.poisoned w a₁ a₂ h₁ h₂ ho hs d h hd hoff hlt hinf
    exact ⟨k, hk, hg.within w d k hw⟩

/-! ## A new link -/

theorem grows_connect (hi : Inv inf N) (u v : ι) : Grows N (N.connect u v) := by
  refine grows_update (fun _ h => h) (Set.subset_insert _ _) le_rfl (fun _ => le_rfl) ?_
  intro d r hr
  by_cases hd : d = v
  · exact ⟨⟨v, 1, 0⟩, by simp [addPeer, hd], (hi.route u d r hr).pos⟩
  · exact ⟨r, by simpa [addPeer, hd] using hr, le_rfl⟩

theorem inv_connect (hinf : 1 < inf) (hi : Inv inf N) (huv : v ≠ u) : Inv inf (N.connect u v) := by
  refine hi.grows (grows_connect hi u v) rfl ?_ ?_
  · intro x y hy
    by_cases hx : x = u
    · subst hx
      have hy' : y = v ∨ y ∈ (N.node x).peers := by simpa [connect, addPeer] using hy
      rcases hy' with rfl | hold
      · exact huv
      · exact hi.peer_ne x y hold
    · exact hi.peer_ne x y (by simpa [connect, hx] using hy)
  · intro x d r hr
    by_cases hx : x = u
    · subst hx
      by_cases hd : d = v
      · subst hd
        have hr' : r = ⟨d, 1, 0⟩ := by simpa [connect, addPeer, eq_comm] using hr
        subst hr'
        refine .inr ⟨huv, Nat.one_pos, hinf, ?_, Nat.zero_le _, .inl ⟨rfl, rfl⟩⟩
        exact (SimpleGraph.fromRel_adj _ _ _).mpr
          ⟨huv.symm, .inl (by simp [connect, addPeer])⟩
      · exact .inl (by simpa [connect, addPeer, hd] using hr)
    · exact .inl (by simpa [connect, hx] using hr)

/-! ## A new advertisement -/

theorem grows_send (N : Net ι) (u v : ι) : Grows N (N.send inf u v) :=
  grows_update (Set.subset_insert _ _) (fun _ h => h) (Nat.le_succ _) (fun _ => le_rfl)
    fun _ r hr => ⟨r, hr, le_rfl⟩

/-- Every route has at most the hops its node offers for it. -/
theorem route_of_offer (hi : Inv inf N) {h : Nat} (hd : d ≠ u)
    (ho : (N.node u).offer inf u v d = some h) : d ≠ v ∧
      ∃ r, (N.node u).routes d = some r ∧ ((r.nextHop = v ∧ h = inf) ∨ h = r.hops) ∧
        r.hops ≤ h := by
  unfold offer at ho
  rw [if_neg hd] at ho
  split at ho
  · cases ho
  · rename_i hdv
    obtain ⟨r, hr, hh⟩ := Option.map_eq_some_iff.mp ho
    have hlt := (hi.route u d r hr).lt_inf
    split at hh
    · rename_i hnext
      exact ⟨hdv, r, hr, .inl ⟨hnext, hh.symm⟩, by omega⟩
    · exact ⟨hdv, r, hr, .inr hh.symm, by omega⟩

/-- What a node has within some bound it offers within that bound, or poisoned. -/
theorem offer_of_within {h : Nat} (hd : d ≠ u) (hdv : d ≠ v) (hw : N.Within u d h) :
    ∃ h', (N.node u).offer inf u v d = some h' ∧ (h' = inf ∨ h' ≤ h) := by
  obtain ⟨r, hr, hle⟩ := hw
  refine ⟨if r.nextHop = v then inf else r.hops, by simp [offer, hd, hdv, hr], ?_⟩
  split
  · exact .inl rfl
  · exact .inr hle

omit [DecidableEq ι] in
/-- A poisoned path comes back to the node that was its next hop, which has a
shorter one. -/
theorem within_of_poisoned (hi : Inv inf N) (hdv : d ≠ v) (hr : (N.node u).routes d = some r)
    (hnext : r.nextHop = v) : N.Within v d (r.hops - 1) := by
  rcases (hi.route u d r hr).source with ⟨hd, -⟩ | ⟨a, hmem, horigin, -, hoffer⟩
  · exact absurd (hd.trans hnext) hdv
  · have hao : a.origin = v := horigin.trans hnext
    subst hao
    exact (hi.frame u a hmem).backed d _ hdv hoffer

theorem frameOk_send (hi : Inv inf N) (hv : v ∈ (N.node u).peers) :
    (N.send inf u v).FrameOk v ((N.node u).advert inf u v ((N.node u).seq + 1)) where
  seq_le := by simp [send, advert]
  peer := (grows_send N u v).peers u hv
  ne := hi.peer_ne u v hv
  self := offer_self (N.node u) u v
  backed := by
    intro d h hd ho
    obtain ⟨-, r, hr, -, hle⟩ := route_of_offer hi hd ho
    exact (grows_send N u v).within u d h ⟨r, hr, hle⟩

theorem inv_send (hi : Inv inf N) (hv : v ∈ (N.node u).peers) : Inv inf (N.send inf u v) where
  peer_ne := by
    intro x y hy
    refine hi.peer_ne x y ?_
    by_cases hx : x = u
    · subst hx
      simpa [send] using hy
    · simpa [send, hx] using hy
  route := by
    intro x d r hr
    refine (hi.route x d r ?_).grows (grows_send N u v)
    by_cases hx : x = u
    · subst hx
      simpa [send] using hr
    · simpa [send, hx] using hr
  frame := by
    rintro w a (hnew | hold)
    · cases hnew
      exact frameOk_send hi hv
    · exact (hi.frame w a hold).grows (grows_send N u v)
  newer := by
    rintro w₁ a₁ w₂ a₂ (hnew₁ | hold₁) (hnew₂ | hold₂) ho hs d h hd hdw hoff
    · cases hnew₁
      cases hnew₂
      exact absurd hs (lt_irrefl _)
    · -- the new advertisement is newer than every old one of its sender
      cases hnew₁
      have hle := (hi.frame w₂ a₂ hold₂).seq_le
      rw [← ho] at hle
      exact absurd (hs.trans_le hle) (Nat.not_lt.mpr (Nat.le_succ _))
    · cases hnew₂
      have ho' : a₁.origin = u := ho
      refine offer_of_within hd hdw ?_
      rw [← ho']
      exact (hi.frame w₁ a₁ hold₁).backed d h (ho' ▸ hd) hoff
    · exact hi.newer w₁ a₁ w₂ a₂ hold₁ hold₂ ho hs d h hd hdw hoff
  poisoned := by
    rintro w a₁ a₂ (hnew₁ | hold₁) (hnew₂ | hold₂) ho hs d h hd hoff hlt hpois
    · cases hnew₁
      cases hnew₂
      exact absurd hs (lt_irrefl _)
    · cases hnew₁
      have hle := (hi.frame _ a₂ hold₂).seq_le
      rw [← ho] at hle
      exact absurd (hs.trans_le hle) (Nat.not_lt.mpr (Nat.le_succ _))
    · cases hnew₂
      have ho' : a₁.origin = u := ho
      have hdu : d ≠ u := hd
      obtain ⟨hdw, r, hr, hcases, -⟩ := route_of_offer hi hdu hpois
      have hok := hi.route u d r hr
      have hnext : r.nextHop = v := by
        rcases hcases with ⟨hnext, -⟩ | hhops
        · exact hnext
        · exact absurd hok.lt_inf (by omega)
      -- the sender's own route is at most what it offered before
      obtain ⟨r', hr', hle⟩ := (hi.frame v a₁ hold₁).backed d h (ho' ▸ hd) hoff
      rw [ho', hr] at hr'
      cases hr'
      have hpos := hok.pos
      exact ⟨r.hops - 1, by omega,
        (grows_send N u v).within v d _ (within_of_poisoned hi hdw hr hnext)⟩
    · obtain ⟨k, hk, hw⟩ := hi.poisoned w a₁ a₂ hold₁ hold₂ ho hs d h hd hoff hlt hpois
      exact ⟨k, hk, (grows_send N u v).within w d k hw⟩

/-! ## A delivery -/

section Deliver

variable {N : Net ι} {u d : ι} {a : Advert ι} {r : Route ι}

variable (hinf : 1 < inf) (hi : Inv inf N) (hmem : (u, a) ∈ N.pool)

include hinf hi hmem

/-- An accepted advertisement of the next hop never offers a longer path than
the one in use. -/
theorem offer_of_nextHop (hacc : (N.node u).maxSeq a.origin < a.seq)
    (hr : (N.node u).routes d = some r) (hnext : r.nextHop = a.origin) :
    a.hops inf d + 1 ≤ r.hops := by
  have hok := hi.route u d r hr
  by_cases hd : d = a.origin
  · -- the sender offers itself at zero
    rw [Advert.hops, hd, (hi.frame u a hmem).self]
    exact hok.pos
  rcases hok.source with ⟨hdn, -⟩ | ⟨a₁, hmem₁, horigin, hseq, hoffer⟩
  · exact absurd (hdn.trans hnext) hd
  · have hnewer : a₁.seq < a.seq := by
      have := hok.seq_le
      rw [hnext] at this
      omega
    have hsame : a₁.origin = a.origin := horigin.trans hnext
    have hlt := hok.lt_inf
    have hpos := hok.pos
    obtain ⟨h', hoff, hcases⟩ :=
      hi.newer u a₁ u a hmem₁ hmem hsame hnewer d _ hd hok.ne hoffer
    have hle : h' ≤ r.hops - 1 := by
      rcases hcases with rfl | hle
      · -- a poisoned offer would mean that the route in use is shorter than itself
        obtain ⟨k, hk, r', hr', hle⟩ :=
          hi.poisoned u a₁ a hmem₁ hmem hsame hnewer d _ hd hoffer (by omega) hoff
        rw [hr] at hr'
        cases hr'
        omega
      · exact hle
    rw [Advert.hops, hoff]
    simp only [Option.getD_some]
    omega

/-- What a delivery does to a destination: nothing, or a route through the
sender that was offered and is no longer than the old one. -/
theorem deliver_cases (hacc : (N.node u).maxSeq a.origin < a.seq) (hd : d ≠ u) :
    ((N.node u).receive inf u a).routes d = (N.node u).routes d ∨
      ∃ h, a.offer d = some h ∧ h + 1 < inf ∧
        ((N.node u).receive inf u a).routes d = some ⟨a.origin, h + 1, a.seq⟩ ∧
        ∀ r, (N.node u).routes d = some r → h + 1 ≤ r.hops := by
  have hroute := receive_route hacc (hi.frame u a hmem).self hinf hd
  have hoffered : ¬ inf ≤ a.hops inf d + 1 →
      ∃ h, a.offer d = some h ∧ a.hops inf d = h := by
    intro hlt
    cases ho : a.offer d with
    | none => simp [Advert.hops, ho] at hlt
    | some h => exact ⟨h, rfl, by simp [Advert.hops, ho]⟩
  cases hr : (N.node u).routes d with
  | none =>
    rw [hr, follow] at hroute
    split at hroute
    · exact .inl hroute
    · rename_i hlt
      obtain ⟨h, ho, hh⟩ := hoffered hlt
      rw [hh] at hroute
      exact .inr ⟨h, ho, by omega, hroute, fun r hsome => absurd hsome.symm (Option.some_ne_none r)⟩
  | some r =>
    have hvia := offer_of_nextHop hinf hi hmem hacc hr
    have hlt_inf := (hi.route u d r hr).lt_inf
    rw [hr, follow] at hroute
    split at hroute
    · split at hroute
      · rename_i hnext
        have := hvia hnext
        omega
      · exact .inl hroute
    · rename_i hlt
      obtain ⟨h, ho, hh⟩ := hoffered hlt
      rw [hh] at hroute hlt hvia
      split at hroute
      · rename_i hbetter
        refine .inr ⟨h, ho, by omega, hroute, ?_⟩
        rintro r' hr'
        cases hr'
        rcases hbetter with hbetter | ⟨-, hnext⟩
        · omega
        · exact hvia hnext
      · exact .inl hroute

theorem grows_deliver : Grows N (N.deliver inf u a) := by
  rcases Nat.lt_or_ge ((N.node u).maxSeq a.origin) a.seq with hacc | hrej
  · refine grows_update (fun _ h => h) (by simp) (by simp) ?_ ?_
    · intro v
      rw [receive_maxSeq hacc]
      split
      · rename_i hv
        rw [hv]
        exact hacc.le
      · exact le_rfl
    · intro d r hr
      rcases deliver_cases hinf hi hmem hacc (hi.route u d r hr).ne with
        hsame | ⟨h, -, -, hnew, hle⟩
      · exact ⟨r, hsame.trans hr, le_rfl⟩
      · exact ⟨_, hnew, hle r hr⟩
  · rw [deliver, receive_rejected hrej, Function.update_eq_self]
    exact Grows.refl N

theorem inv_deliver : Inv inf (N.deliver inf u a) := by
  have hg := grows_deliver hinf hi hmem
  refine hi.grows hg rfl ?_ ?_
  · intro x y hy
    refine hi.peer_ne x y ?_
    by_cases hx : x = u
    · subst hx
      simpa [deliver] using hy
    · simpa [deliver, hx] using hy
  · intro x d r hr
    by_cases hx : x = u
    · subst hx
      have hr' : ((N.node x).receive inf x a).routes d = some r := by simpa [deliver] using hr
      rcases Nat.lt_or_ge ((N.node x).maxSeq a.origin) a.seq with hacc | hrej
      · by_cases hd : d = x
        · subst hd
          exact .inl ((receive_self (N.node d) d a).symm.trans hr')
        rcases deliver_cases hinf hi hmem hacc hd with hsame | ⟨h, ho, hlt, hnew, -⟩
        · exact .inl (hsame.symm.trans hr')
        · rw [hnew] at hr'
          cases hr'
          have hframe := hi.frame x a hmem
          refine .inr ⟨hd, Nat.succ_pos _, hlt, ?_, ?_, .inr ⟨a, hmem, rfl, rfl, ho⟩⟩
          · exact hg.adj ((SimpleGraph.fromRel_adj _ _ _).mpr ⟨hframe.ne, .inr hframe.peer⟩)
          · simp [deliver, receive_maxSeq hacc]
      · rw [receive_rejected hrej] at hr'
        exact .inl hr'
    · exact .inl (by simpa [deliver, hx] using hr)

end Deliver

/-! ## Runs -/

theorem Step.grows_and_inv (hinf : 1 < inf) (h : Step inf N N') (hi : Inv inf N) :
    Grows N N' ∧ Inv inf N' := by
  cases h with
  | connect huv => exact ⟨grows_connect hi _ _, inv_connect hinf hi huv⟩
  | send hv => exact ⟨grows_send N _ _, inv_send hi hv⟩
  | deliver hmem => exact ⟨grows_deliver hinf hi hmem, inv_deliver hinf hi hmem⟩

theorem run_grows_and_inv (hinf : 1 < inf) (h : Relation.ReflTransGen (Step inf) N N')
    (hi : Inv inf N) : Grows N N' ∧ Inv inf N' := by
  induction h with
  | refl => exact ⟨Grows.refl N, hi⟩
  | tail _ hstep ih =>
    obtain ⟨hg, hi'⟩ := ih
    obtain ⟨hg', hi''⟩ := hstep.grows_and_inv hinf hi'
    exact ⟨hg.trans hg', hi''⟩

/-! ## What the invariant says about paths -/

omit [DecidableEq ι] in
/-- The next hop is the destination, or is strictly closer to it by its own table. -/
theorem Inv.nextHop_closer (hi : Inv inf N) (hr : (N.node u).routes d = some r) : r.nextHop = d ∨
      ∃ r', (N.node r.nextHop).routes d = some r' ∧ r'.hops < r.hops := by
  have hok := hi.route u d r hr
  rcases hok.source with ⟨hd, -⟩ | ⟨a, hmem, horigin, -, hoffer⟩
  · exact .inl hd.symm
  · rcases eq_or_ne d r.nextHop with hd | hd
    · exact .inl hd.symm
    · obtain ⟨r', hr', hle⟩ := (hi.frame u a hmem).backed d _ (horigin ▸ hd) hoffer
      have hpos := hok.pos
      exact .inr ⟨r', horigin ▸ hr', by omega⟩

omit [DecidableEq ι] in
theorem Inv.edist_le (hi : Inv inf N) (hr : (N.node u).routes d = some r) :
    N.graph.edist u d ≤ r.hops := by
  -- along the path the routes describe, hop counts fall
  induction hn : r.hops using Nat.strong_induction_on generalizing u r with
  | _ n ih =>
    subst hn
    have hok := hi.route u d r hr
    have hlink : N.graph.edist u r.nextHop = 1 := SimpleGraph.edist_eq_one_iff_adj.mpr hok.link
    rcases hi.nextHop_closer hr with hd | ⟨r', hr', hlt⟩
    · rw [← hd, hlink]
      exact_mod_cast hok.pos
    · calc N.graph.edist u d ≤ N.graph.edist u r.nextHop + N.graph.edist r.nextHop d :=
            SimpleGraph.edist_triangle
        _ ≤ 1 + r'.hops := by
            rw [hlink]
            exact add_le_add le_rfl (ih _ hlt hr' rfl)
        _ ≤ r.hops := by
            rw [add_comm]
            exact_mod_cast hlt

end Net

end ProximityMesh.DistanceVector
