/-
  DistanceVector/Rounds.lean --- synchronous rounds over a fixed graph.

  In a round every node advertises to each neighbour from its state at the start
  of the round, and then receives its neighbours' advertisements in some order.
  For one destination a node folds `follow` over the numbers it is offered, and
  two facts about that fold carry everything:

  * `fold_source`: afterwards a route has exactly the length its next hop
    offered, because a route through a neighbour follows that neighbour;
  * `fold_exact`: if nothing offered and nothing held is below `n`, somebody
    offers `n`, and a held route of length `n` is confirmed by its next hop, then
    the result has length `n`.

  The result need not be the minimum of the offers: a held route that is shorter may
  move to a longer path in the middle of the round.
-/
import ProximityMesh.DistanceVector.Basic

set_option autoImplicit false

namespace ProximityMesh.DistanceVector

open List Node ENat

variable {ι : Type} [DecidableEq ι]

section Fold

variable (inf : Nat)

/-- Receive a list of advertisements in order. -/
def Node.receiveAll (n : Node ι) (u : ι) (ads : List (Advert ι)) : Node ι :=
  ads.foldl (fun n a => n.receive inf u a) n

/-- The route of `d` after a list of advertisements. -/
def followAll (d : ι) (old : Option (Route ι)) (ads : List (Advert ι)) : Option (Route ι) :=
  ads.foldl (fun ρ a => follow inf a.origin a.seq (a.hops inf d) ρ) old

variable {inf}

/-- A batch of advertisements of different senders, all of them new to `n`. -/
structure Batch (n : Node ι) (ads : List (Advert ι)) : Prop where
  nodup : (ads.map Advert.origin).Nodup
  isNew : ∀ a ∈ ads, n.maxSeq a.origin < a.seq
  self : ∀ a ∈ ads, a.offer a.origin = some 0

variable {ads : List (Advert ι)} {d v : ι} {seq h n : Nat} {r : Route ι}

theorem Batch.tail {n : Node ι} {a : Advert ι} (h : Batch n (a :: ads)) (u : ι) :
    Batch (n.receive inf u a) ads where
  nodup := (nodup_cons.mp h.nodup).2
  isNew := by
    intro b hb
    have hne : b.origin ≠ a.origin := by
      intro heq
      exact (nodup_cons.mp h.nodup).1 (heq ▸ mem_map_of_mem hb)
    rw [receive_maxSeq (h.isNew a mem_cons_self), if_neg hne]
    exact h.isNew b (mem_cons_of_mem _ hb)
  self := fun b hb => h.self b (mem_cons_of_mem _ hb)

theorem receiveAll_routes (hinf : 1 < inf) {u : ι} (hd : d ≠ u) :
    ∀ {n : Node ι}, Batch n ads →
      (n.receiveAll inf u ads).routes d = followAll inf d (n.routes d) ads := by
  induction ads with
  | nil => intro n _; rfl
  | cons a ads ih =>
    intro n h
    have hmem : a ∈ a :: ads := mem_cons_self
    have hroute : (n.receive inf u a).routes d = _ :=
      receive_route (h.isNew a hmem) (h.self a hmem) hinf hd
    rw [receiveAll, foldl_cons, followAll, foldl_cons, ← hroute]
    exact ih (h.tail u)

theorem receiveAll_self (n : Node ι) (u : ι) (ads : List (Advert ι)) :
    (n.receiveAll inf u ads).routes u = n.routes u := by
  induction ads generalizing n with
  | nil => rfl
  | cons a ads ih => exact (ih (n.receive inf u a)).trans (receive_self n u a)

theorem receiveAll_withSeq (n : Node ι) (s : Nat) (u : ι) (ads : List (Advert ι)) :
    receiveAll inf { n with seq := s } u ads = { n.receiveAll inf u ads with seq := s } := by
  induction ads generalizing n with
  | nil => rfl
  | cons a ads ih =>
    have hone : receive inf { n with seq := s } u a = { n.receive inf u a with seq := s } := by
      unfold receive
      split
      · rfl
      · rfl
    rw [receiveAll, foldl_cons, hone]
    exact ih (n.receive inf u a)

theorem receiveAll_seq_peers (n : Node ι) (u : ι) (ads : List (Advert ι)) :
    (n.receiveAll inf u ads).seq = n.seq ∧ (n.receiveAll inf u ads).peers = n.peers := by
  induction ads generalizing n with
  | nil => exact ⟨rfl, rfl⟩
  | cons a ads ih =>
    obtain ⟨hseq, hpeers⟩ := ih (n.receive inf u a)
    exact ⟨hseq.trans (receive_seq n u a), hpeers.trans (receive_peers n u a)⟩

/-- After a batch the highest sequence number of each sender is that of its
advertisement. -/
theorem receiveAll_maxSeq {u : ι} :
    ∀ {n : Node ι}, Batch n ads →
      (∀ a ∈ ads, (n.receiveAll inf u ads).maxSeq a.origin = a.seq) ∧
      ∀ p, p ∉ ads.map Advert.origin → (n.receiveAll inf u ads).maxSeq p = n.maxSeq p := by
  induction ads with
  | nil => intro n _; exact ⟨fun _ h => (nomatch h), fun _ _ => rfl⟩
  | cons a ads ih =>
    intro n h
    have hmax : ∀ p, (n.receive inf u a).maxSeq p = _ :=
      receive_maxSeq (h.isNew a mem_cons_self)
    have htail : Batch (n.receive inf u a) ads := h.tail u
    obtain ⟨hin, hout⟩ := ih htail
    refine ⟨?_, ?_⟩
    · intro b hb
      rcases mem_cons.mp hb with rfl | hb
      · exact (hout b.origin (nodup_cons.mp h.nodup).1).trans (by rw [hmax, if_pos rfl])
      · exact hin b hb
    · intro p hp
      obtain ⟨hpa, hps⟩ : p ≠ a.origin ∧ p ∉ ads.map Advert.origin := by simpa using hp
      exact (hout p hps).trans (by rw [hmax, if_neg hpa])

/-- The two ways a route can come out of an offer: taken from it, or held before
and not bound to follow it. -/
theorem follow_cases {old : Option (Route ι)} (hr : follow inf v seq h old = some r) :
    (r = ⟨v, h + 1, seq⟩ ∧ h + 1 < inf) ∨ (old = some r ∧ ¬ (r.nextHop = v ∧ r.seq < seq)) := by
  cases old with
  | none =>
    rw [follow] at hr
    split at hr
    · cases hr
    · cases hr
      exact .inl ⟨rfl, by omega⟩
  | some r₀ =>
    rw [follow] at hr
    split at hr
    · split at hr
      · cases hr
      · rename_i hne
        cases hr
        exact .inr ⟨rfl, fun hvia => hne hvia.1⟩
    · split at hr
      · cases hr
        exact .inl ⟨rfl, by omega⟩
      · rename_i hkeep
        cases hr
        exact .inr ⟨rfl, fun hvia => hkeep (.inr ⟨hvia.2, hvia.1⟩)⟩

/-- Whatever is true of the routes a batch installs is true of the result, if
every route held before follows an advertisement of the batch. -/
@[elab_as_elim]
theorem fold_source {Q : Route ι → Prop}
    (hQ : ∀ a ∈ ads, a.hops inf d + 1 < inf → Q ⟨a.origin, a.hops inf d + 1, a.seq⟩) :
    ∀ {old : Option (Route ι)},
      (∀ r, old = some r → (∃ a ∈ ads, r.nextHop = a.origin ∧ r.seq < a.seq) ∨ Q r) →
      ∀ r, followAll inf d old ads = some r → Q r := by
  induction ads with
  | nil =>
    intro old hold r hr
    exact (hold r hr).resolve_left fun ⟨a, hmem, _⟩ => nomatch hmem
  | cons a ads ih =>
    intro old hold r hr
    refine ih (fun b hb => hQ b (mem_cons_of_mem _ hb)) ?_ r hr
    intro r' hr'
    rcases follow_cases hr' with ⟨rfl, hlt⟩ | ⟨hsame, hfree⟩
    · exact .inr (hQ a mem_cons_self hlt)
    · rcases hold r' hsame with ⟨b, hb, hvia⟩ | hq
      · rcases mem_cons.mp hb with rfl | hb
        · exact absurd hvia hfree
        · exact .inl ⟨b, hb, hvia⟩
      · exact .inr hq

/-- One offer keeps a route of length `n`, and its next hop, when none is shorter and
the next hop confirms it. -/
theorem follow_keeps (hn : n < inf) (hlow : n ≤ h + 1) (hr : r.hops = n)
    (hvia : r.nextHop = v → h + 1 = n) :
    ∃ r', follow inf v seq h (some r) = some r' ∧ r'.hops = n ∧ r'.nextHop = r.nextHop := by
  rw [follow]
  split
  · rw [if_neg (fun hv => by have := hvia hv; omega)]
    exact ⟨r, rfl, hr, rfl⟩
  · split
    · rename_i hnew
      rcases hnew with hlt | ⟨-, hv⟩
      · omega
      · exact ⟨_, rfl, hvia hv, hv.symm⟩
    · exact ⟨r, rfl, hr, rfl⟩

theorem follow_takes {old : Option (Route ι)} (hn : n < inf) (hh : h + 1 = n)
    (hold : ∀ r, old = some r → n ≤ r.hops) :
    ∃ r', follow inf v seq h old = some r' ∧ r'.hops = n := by
  cases old with
  | none => exact ⟨⟨v, h + 1, seq⟩, by rw [follow, if_neg (by omega)], hh⟩
  | some r =>
    rcases Nat.lt_or_ge n r.hops with hlt | hle
    · exact ⟨⟨v, h + 1, seq⟩, by rw [follow, if_neg (by omega), if_pos (.inl (by omega))], hh⟩
    · obtain ⟨r', hr', hhops, -⟩ :=
        follow_keeps hn (by omega) (Nat.le_antisymm hle (hold r rfl)) fun _ => hh
      exact ⟨r', hr', hhops⟩

/-- The result of a batch that offers `n` and nothing below `n`. -/
theorem fold_exact (hn : n < inf) (hnodup : (ads.map Advert.origin).Nodup)
    (hlow : ∀ a ∈ ads, n ≤ a.hops inf d + 1) :
    ∀ {old : Option (Route ι)},
      (∀ r, old = some r → n ≤ r.hops ∧
        (r.hops = n → ∀ a ∈ ads, r.nextHop = a.origin → a.hops inf d + 1 = n)) →
      ((∃ r, old = some r ∧ r.hops = n) ∨ ∃ a ∈ ads, a.hops inf d + 1 = n) →
      ∃ r, followAll inf d old ads = some r ∧ r.hops = n := by
  induction ads with
  | nil =>
    intro old _ hex
    exact hex.resolve_right fun ⟨a, hmem, _⟩ => nomatch hmem
  | cons a ads ih =>
    intro old hold hex
    obtain ⟨hnotin, hnodup'⟩ := nodup_cons.mp hnodup
    have hlow_a := hlow a mem_cons_self
    refine ih hnodup' (fun b hb => hlow b (mem_cons_of_mem _ hb)) ?_ ?_
    · intro r hr
      rcases follow_cases hr with ⟨rfl, -⟩ | ⟨hsame, -⟩
      · -- a route of this advertisement goes through a sender that is done
        refine ⟨hlow_a, fun _ b hb heq => ?_⟩
        have heq' : a.origin = b.origin := heq
        exact absurd (heq' ▸ mem_map_of_mem hb) hnotin
      · obtain ⟨hle, hconf⟩ := hold r hsame
        exact ⟨hle, fun heq b hb => hconf heq b (mem_cons_of_mem _ hb)⟩
    · rcases hex with ⟨r, rfl, hr⟩ | ⟨b, hb, hbn⟩
      · obtain ⟨r', hr', hhops, -⟩ :=
          follow_keeps hn hlow_a hr ((hold r rfl).2 hr a mem_cons_self)
        exact .inl ⟨r', hr', hhops⟩
      · rcases mem_cons.mp hb with rfl | hb
        · exact .inl (follow_takes hn hbn fun r hr => (hold r hr).1)
        · exact .inr ⟨b, hb, hbn⟩

/-- A batch that offers nothing below `n` leaves a route of length `n` as it is, if its
next hop confirms it. -/
theorem fold_fixed (hn : n < inf) (hlow : ∀ a ∈ ads, n ≤ a.hops inf d + 1) (hr : r.hops = n)
    (hvia : ∀ a ∈ ads, r.nextHop = a.origin → a.hops inf d + 1 = n) :
    ∃ r', followAll inf d (some r) ads = some r' ∧ r'.hops = n ∧ r'.nextHop = r.nextHop := by
  induction ads generalizing r with
  | nil => exact ⟨r, rfl, hr, rfl⟩
  | cons a ads ih =>
    obtain ⟨r₁, hr₁, hhops, hnext⟩ :
        ∃ r₁, follow inf a.origin a.seq (a.hops inf d) (some r) = _ ∧ _ :=
      follow_keeps hn (hlow a mem_cons_self) hr (hvia a mem_cons_self)
    obtain ⟨r', hr', hhops', hnext'⟩ := ih (fun b hb => hlow b (mem_cons_of_mem _ hb)) hhops
      fun b hb hb' => hvia b (mem_cons_of_mem _ hb) (hnext ▸ hb')
    refine ⟨r', ?_, hhops', hnext'.trans hnext⟩
    rw [followAll, foldl_cons, hr₁]
    exact hr'

theorem fold_none (h : ∀ a ∈ ads, inf ≤ a.hops inf d + 1) : followAll inf d none ads = none := by
  induction ads with
  | nil => rfl
  | cons a ads ih =>
    rw [followAll, foldl_cons, follow, if_pos (h a mem_cons_self)]
    exact ih fun b hb => h b (mem_cons_of_mem _ hb)

end Fold

/-! ## One round -/

section Round

variable (inf : Nat) (G : SimpleGraph ι)

/-- What `v` offers `u` for `d`. -/
def offered (S : ι → Node ι) (u v d : ι) : Nat := ((S v).offer inf v u d).getD inf

/-- Node `u` receives one advertisement of each neighbour, made in state `S`. -/
structure RoundAt (S S' : ι → Node ι) (u : ι) (ads : List (Advert ι)) : Prop where
  nodup : (ads.map Advert.origin).Nodup
  mem_iff : ∀ v, v ∈ ads.map Advert.origin ↔ G.Adj u v
  offer : ∀ a ∈ ads, a.offer = (S a.origin).offer inf a.origin u
  seq : ∀ a ∈ ads, (S a.origin).seq < a.seq ∧ a.seq ≤ (S' a.origin).seq
  routes : (S' u).routes = ((S u).receiveAll inf u ads).routes
  maxSeq : (S' u).maxSeq = ((S u).receiveAll inf u ads).maxSeq

/-- A synchronous round. -/
def Round (S S' : ι → Node ι) : Prop := ∀ u, ∃ ads, RoundAt inf G S S' u ads

/-- What is asked of the tables before the first round: nothing about the routes
being right, only that they are routes to neighbours that will be followed. -/
structure Sane (S : ι → Node ι) : Prop where
  self : ∀ u, (S u).routes u = none
  pos : ∀ u d r, (S u).routes d = some r → 0 < r.hops
  lt_inf : ∀ u d r, (S u).routes d = some r → r.hops < inf
  link : ∀ u d r, (S u).routes d = some r → G.Adj u r.nextHop
  seq_le : ∀ u d r, (S u).routes d = some r → r.seq ≤ (S u).maxSeq r.nextHop
  maxSeq_le : ∀ u v, G.Adj u v → (S u).maxSeq v ≤ (S v).seq

variable {inf G} {S S' : ι → Node ι} {u d : ι}

omit [DecidableEq ι] in
theorem Sane.ne (hs : Sane inf G S) {r : Route ι} (hr : (S u).routes d = some r) : d ≠ u := by
  rintro rfl
  rw [hs.self] at hr
  cases hr

variable {ads : List (Advert ι)} {r : Route ι} {v : ι} {m k : Nat}

theorem RoundAt.hops_eq (h : RoundAt inf G S S' u ads) {a : Advert ι} (ha : a ∈ ads) (d : ι) :
    a.hops inf d = offered inf S u a.origin d := by
  rw [Advert.hops, h.offer a ha, offered]

theorem RoundAt.batch (h : RoundAt inf G S S' u ads) (hs : Sane inf G S) : Batch (S u) ads where
  nodup := h.nodup
  isNew := by
    intro a ha
    have hadj := (h.mem_iff a.origin).mp (mem_map_of_mem ha)
    exact (hs.maxSeq_le u a.origin hadj).trans_lt (h.seq a ha).1
  self := by
    intro a ha
    rw [h.offer a ha]
    exact offer_self _ _ _

/-- After a round every route has the length its next hop offered. -/
theorem Round.source (hinf : 1 < inf) (hs : Sane inf G S) (h : Round inf G S S')
    (hr : (S' u).routes d = some r) :
    (d ≠ u ∧ r.hops = offered inf S u r.nextHop d + 1 ∧ r.hops < inf) ∧ G.Adj u r.nextHop ∧
      r.seq ≤ (S' u).maxSeq r.nextHop := by
  obtain ⟨ads, hu⟩ := h u
  have hd : d ≠ u := by
    rintro rfl
    rw [hu.routes, receiveAll_self, hs.self] at hr
    cases hr
  rw [hu.routes, receiveAll_routes hinf hd (hu.batch hs)] at hr
  obtain ⟨hhops, a, ha, hnext, hseq⟩ : (r.hops = offered inf S u r.nextHop d + 1 ∧ r.hops < inf) ∧
      ∃ a ∈ ads, r.nextHop = a.origin ∧ r.seq = a.seq := by
    refine fold_source ?_ ?_ r hr
    · intro a ha hlt
      rw [hu.hops_eq ha] at hlt ⊢
      exact ⟨⟨rfl, hlt⟩, a, ha, rfl, rfl⟩
    · -- a route held before goes through a neighbour, whose advertisement is newer
      intro r₀ hr₀
      have hmem := (hu.mem_iff r₀.nextHop).mpr (hs.link u d r₀ hr₀)
      obtain ⟨a, ha, horigin⟩ := mem_map.mp hmem
      have hseq := hs.seq_le u d r₀ hr₀
      rw [← horigin] at hseq
      exact .inl ⟨a, ha, horigin.symm, hseq.trans_lt ((hu.batch hs).isNew a ha)⟩
  rw [hu.maxSeq, hseq, hnext, (receiveAll_maxSeq (hu.batch hs)).1 a ha]
  exact ⟨⟨hd, hnext ▸ hhops⟩, (hu.mem_iff _).mp (mem_map_of_mem ha), le_rfl⟩

theorem Round.sane (hinf : 1 < inf) (hs : Sane inf G S) (h : Round inf G S S') :
    Sane inf G S' := by
  refine ⟨fun u => ?_, ?_, fun u d r hr => (h.source hinf hs hr).1.2.2,
    fun u d r hr => (h.source hinf hs hr).2.1, fun u d r hr => (h.source hinf hs hr).2.2, ?_⟩
  · exact Option.eq_none_iff_forall_not_mem.mpr fun r hr => (h.source hinf hs hr).1.1 rfl
  · intro u d r hr
    obtain ⟨⟨-, hhops, -⟩, -⟩ := h.source hinf hs hr
    omega
  · intro u v huv
    obtain ⟨ads, hu⟩ := h u
    obtain ⟨a, ha, rfl⟩ := mem_map.mp ((hu.mem_iff v).mpr huv)
    rw [hu.maxSeq, (receiveAll_maxSeq (hu.batch hs)).1 a ha]
    exact (hu.seq a ha).2

/-- A finite offer is zero from the destination itself, or the length of a route
that does not come back. -/
theorem offered_cases (hlt : offered inf S u v d < inf) :
    (v = d ∧ offered inf S u v d = 0) ∨
      ∃ r, (S v).routes d = some r ∧ offered inf S u v d = r.hops := by
  unfold offered offer at hlt ⊢
  split at hlt
  · rename_i hd
    exact .inl ⟨hd.symm, by simp [hd]⟩
  · rename_i hd
    split at hlt
    · simp at hlt
    · rename_i hdu
      cases hr : (S v).routes d with
      | none => simp [hr] at hlt
      | some r =>
        rw [hr] at hlt
        simp only [Option.map_some] at hlt
        split at hlt
        · exact absurd hlt (lt_irrefl _)
        · rename_i hback
          exact .inr ⟨r, rfl, by simp [hd, hdu, hback]⟩

/-! ## Distances -/

omit [DecidableEq ι] in
theorem edist_le_of_adj {v : ι} (huv : G.Adj u v) : G.edist u d ≤ G.edist v d + 1 := by
  have h := G.edist_triangle (u := u) (v := v) (w := d)
  rwa [SimpleGraph.edist_eq_one_iff_adj.mpr huv, add_comm] at h

omit [DecidableEq ι] in
theorem exists_closer (hm : G.edist u d = (m + 1 : ℕ)) : ∃ v, G.Adj u v ∧ G.edist v d = m := by
  obtain ⟨p, hp⟩ := SimpleGraph.exists_walk_of_edist_eq_coe hm
  cases p with
  | nil => simp at hp
  | @cons _ v _ hadj q =>
    refine ⟨v, hadj, le_antisymm ?_ ?_⟩
    · have hq : q.length = m := by simpa using hp
      exact hq ▸ q.edist_le
    · have hle := edist_le_of_adj (d := d) hadj
      rw [hm] at hle
      exact (add_le_add_iff_right one_ne_top).mp (by exact_mod_cast hle)

variable (G) in
/-- The route of `u` to `d` is a shortest one. -/
def Exact (S : ι → Node ι) (u d : ι) : Prop :=
  ∃ r, (S u).routes d = some r ∧ (r.hops : ℕ∞) = G.edist u d ∧ G.Adj u r.nextHop ∧
    G.edist r.nextHop d + 1 = G.edist u d

/-- A neighbour that is closer offers its distance: its own next hop is closer
still, so the offer is not poisoned. -/
theorem offered_of_exact (hd : d ≠ u) (hu : G.edist u d = (m + 1 : ℕ)) (hv : G.edist v d = m)
    (hexact : v ≠ d → Exact G S v d) : offered inf S u v d = m := by
  rcases eq_or_ne v d with rfl | hvd
  · rw [SimpleGraph.edist_self] at hv
    rw [offered, offer_self]
    exact_mod_cast hv
  · obtain ⟨r, hr, hhops, -, hnext⟩ := hexact hvd
    have hback : r.nextHop ≠ u := by
      intro hback
      rw [hback, hu, hv] at hnext
      have : m + 1 + 1 = m := by exact_mod_cast hnext
      omega
    rw [hv] at hhops
    have hm : r.hops = m := by exact_mod_cast hhops
    simp [offered, offer, hvd.symm, hd, hr, hback, hm]

/-- By the lower bound on the routes no finite offer is below the distance. -/
theorem edist_le_offered (hlow : ∀ r, (S v).routes d = some r → G.edist v d ≤ r.hops)
    (hlt : offered inf S u v d < inf) : G.edist v d ≤ offered inf S u v d := by
  rcases offered_cases hlt with ⟨rfl, -⟩ | ⟨r, hr, hoff⟩
  · simp
  · rw [hoff]
    exact hlow r hr

/-- A neighbour is at most one step closer, so none is more than one below the
distance of the node itself. -/
theorem le_offered (hm : G.edist u d = m) (huv : G.Adj u v)
    (hlow : ∀ r, (S v).routes d = some r → G.edist v d ≤ r.hops) (hlt : m < inf) :
    m ≤ offered inf S u v d + 1 := by
  rcases Nat.lt_or_ge (offered inf S u v d) inf with hfin | hbig
  · have hle : (m : ℕ∞) ≤ offered inf S u v d + 1 :=
      hm ▸ (edist_le_of_adj huv).trans (add_le_add (edist_le_offered hlow hfin) le_rfl)
    exact_mod_cast hle
  · omega

/-- A round makes the route of `u` to `d` exact if before it no route was too
short, the route of `u` is not wrongly of the right length, and the closer
neighbours were exact. -/
theorem round_exact (hinf : 1 < inf) (hs : Sane inf G S) (h : Round inf G S S') (hd : d ≠ u)
    (hm : G.edist u d = m) (hlt : m < inf)
    (hlow : ∀ v r, G.Adj u v → (S v).routes d = some r → G.edist v d ≤ r.hops)
    (hheld : ∀ r, (S u).routes d = some r → m ≤ r.hops ∧ (r.hops = m → G.edist r.nextHop d + 1 = m))
    (hexact : ∀ v, G.Adj u v → v ≠ d → G.edist v d + 1 = m → Exact G S v d) : Exact G S' u d := by
  obtain ⟨k, rfl⟩ : ∃ k, m = k + 1 := by
    refine Nat.exists_eq_succ_of_ne_zero ?_
    rintro rfl
    exact hd (SimpleGraph.edist_eq_zero_iff.mp (by exact_mod_cast hm)).symm
  have hoffered : ∀ v, G.Adj u v → G.edist v d = k → offered inf S u v d = k := by
    intro v huv hv
    exact offered_of_exact hd hm hv fun hvd => hexact v huv hvd (by rw [hv]; rfl)
  obtain ⟨ads, hu⟩ := h u
  obtain ⟨r, hr, hhops⟩ : ∃ r, (S' u).routes d = some r ∧ r.hops = k + 1 := by
    rw [hu.routes, receiveAll_routes hinf hd (hu.batch hs)]
    refine fold_exact hlt hu.nodup ?_ ?_ (.inr ?_)
    · intro a ha
      have hadj := (hu.mem_iff a.origin).mp (mem_map_of_mem ha)
      rw [hu.hops_eq ha]
      exact le_offered hm hadj (fun r => hlow _ r hadj) hlt
    · intro r hr
      refine ⟨(hheld r hr).1, fun heq a ha hnext => ?_⟩
      have hclose := (hheld r hr).2 heq
      rw [hnext] at hclose
      have hadj := (hu.mem_iff a.origin).mp (mem_map_of_mem ha)
      have hk : G.edist a.origin d = k :=
        add_left_injective_of_ne_top one_ne_top (by exact_mod_cast hclose)
      rw [hu.hops_eq ha, hoffered a.origin hadj hk]
    · obtain ⟨v, huv, hv⟩ := exists_closer hm
      obtain ⟨a, ha, rfl⟩ := mem_map.mp ((hu.mem_iff v).mpr huv)
      exact ⟨a, ha, by rw [hu.hops_eq ha, hoffered a.origin huv hv]⟩
  -- the next hop offered `k`, so it is at distance `k`
  obtain ⟨⟨-, hsrc, hfin⟩, hadj, -⟩ := h.source hinf hs hr
  have hk : offered inf S u r.nextHop d = k := by omega
  have hlt' : offered inf S u r.nextHop d < inf := by omega
  have hle := edist_le_offered (fun r => hlow _ r hadj) hlt'
  rw [hk] at hle
  refine ⟨r, hr, by rw [hm, hhops], hadj, le_antisymm ?_ (edist_le_of_adj hadj)⟩
  rw [hm]
  exact add_le_add hle le_rfl

/-! ## Runs of rounds -/

variable {σ : Nat → ι → Node ι} {n : Nat}

variable (hinf : 1 < inf) (hs : Sane inf G (σ 0)) (h : ∀ k < n, Round inf G (σ k) (σ (k + 1)))

include hinf hs h

theorem sane_rounds (hk : k ≤ n) : Sane inf G (σ k) := by
  induction k with
  | zero => exact hs
  | succ k ih => exact (h k hk).sane hinf (ih (by omega))

/-- A route is never shorter than both the distance and the number of rounds. -/
theorem lower_bound (hk : k ≤ n) (u d : ι) (hr : (σ k u).routes d = some r) :
    min (G.edist u d) (k + 1 : ℕ) ≤ r.hops := by
  induction k generalizing u r with
  | zero =>
    have hpos := hs.pos u d r hr
    exact (min_le_right _ _).trans (by exact_mod_cast hpos)
  | succ k ih =>
    have hsk := sane_rounds hinf hs h (k := k) (by omega)
    obtain ⟨⟨-, hhops, hlt⟩, hadj, -⟩ := (h k hk).source hinf hsk hr
    have hclose : min (G.edist r.nextHop d) (k + 1) ≤ offered inf (σ k) u r.nextHop d := by
      have hlt' : offered inf (σ k) u r.nextHop d < inf := by omega
      rcases offered_cases hlt' with ⟨hd, -⟩ | ⟨r', hr', hoff⟩
      · rw [hd, SimpleGraph.edist_self]
        exact (min_le_left _ _).trans zero_le
      · rw [hoff]
        exact ih (by omega) r.nextHop hr'
    calc min (G.edist u d) (k + 1 + 1)
        ≤ min (G.edist r.nextHop d + 1) ((k + 1) + 1) :=
          min_le_min (edist_le_of_adj hadj) (by exact_mod_cast le_rfl)
      _ = min (G.edist r.nextHop d) (k + 1) + 1 := min_add_add_right _ _ _
      _ ≤ offered inf (σ k) u r.nextHop d + 1 := add_le_add hclose le_rfl
      _ = r.hops := by
          rw [hhops]
          rfl

/-- Once as many rounds have passed as there are finite hop counts, no route is
shorter than the distance. -/
theorem edist_le_hops (hk : k ≤ n) (hlate : inf ≤ k + 1) (u d : ι)
    (hr : (σ k u).routes d = some r) : G.edist u d ≤ r.hops := by
  have hmin := lower_bound hinf hs h hk u d hr
  have hlt := (sane_rounds hinf hs h hk).lt_inf u d r hr
  rcases min_le_iff.mp hmin with hle | hle
  · exact hle
  · have : k + 1 ≤ r.hops := by exact_mod_cast hle
    omega

/-- Distance by distance the tables become exact, and stay so. -/
theorem exact_of_late (hlt : m < inf) (hk : k ≤ n) (hlate : inf + m ≤ k) {u : ι} (hd : d ≠ u)
    (hm : G.edist u d = m) : Exact G (σ k) u d := by
  induction m generalizing u k with
  | zero => exact absurd (SimpleGraph.edist_eq_zero_iff.mp (by exact_mod_cast hm)).symm hd
  | succ m ih =>
    obtain ⟨k, rfl⟩ : ∃ k', k = k' + 1 + 1 := ⟨k - 2, by omega⟩
    have hlow : ∀ j, k ≤ j → j ≤ n → ∀ v r, (σ j v).routes d = some r →
        G.edist v d ≤ r.hops := by
      intro j hj hjn v r hr
      exact edist_le_hops hinf hs h hjn (by omega) v d hr
    have hsane := sane_rounds hinf hs h (k := k) (by omega)
    refine round_exact hinf ((h k (by omega)).sane hinf hsane)
      (h (k + 1) (by omega)) hd hm hlt ?_ ?_ ?_
    · intro v r _ hr
      exact hlow (k + 1) (by omega) (by omega) v r hr
    · intro r hr
      have hle := hlow (k + 1) (by omega) (by omega) u r hr
      rw [hm] at hle
      refine ⟨by exact_mod_cast hle, fun heq => ?_⟩
      -- the route was taken one round before from a next hop whose route was not too short
      obtain ⟨⟨-, hhops, hfin⟩, hadj, -⟩ := (h k (by omega)).source hinf hsane hr
      have hlt' : offered inf (σ k) u r.nextHop d < inf := by omega
      have hclose := edist_le_offered (fun r => hlow k le_rfl (by omega) _ r) hlt'
      have hoff : offered inf (σ k) u r.nextHop d = m := by omega
      rw [hoff] at hclose
      refine le_antisymm (add_le_add hclose le_rfl) ?_
      rw [← hm]
      exact edist_le_of_adj hadj
    · intro v _ hvd hv
      have hv' : G.edist v d = m :=
        add_left_injective_of_ne_top one_ne_top (by exact_mod_cast hv)
      exact ih (by omega) (by omega) (by omega) hvd.symm hv'

omit hinf hs h

/-! ## Convergence from links alone -/

variable (G) in
/-- The tables are exact up to distance `b` and empty beyond. -/
def ExactUpTo (S : ι → Node ι) (b : Nat) : Prop :=
  ∀ u d, d ≠ u → (G.edist u d ≤ b → Exact G S u d) ∧
    (¬ G.edist u d ≤ b → (S u).routes d = none)

omit [DecidableEq ι] in
theorem ExactUpTo.hops_eq {b : Nat} (h : ExactUpTo G S b) (hd : d ≠ u) {r : Route ι}
    (hr : (S u).routes d = some r) : G.edist u d ≤ b ∧ (r.hops : ℕ∞) = G.edist u d ∧
      G.edist r.nextHop d + 1 = G.edist u d := by
  by_cases hb : G.edist u d ≤ b
  · obtain ⟨r', hr', hhops, -, hnext⟩ := (h u d hd).1 hb
    rw [hr] at hr'
    cases hr'
    exact ⟨hb, hhops, hnext⟩
  · rw [(h u d hd).2 hb] at hr
    cases hr

theorem foldl_addPeer (vs : List ι) (n : Node ι) :
    (vs.foldl addPeer n).maxSeq = n.maxSeq ∧ (vs.foldl addPeer n).seq = n.seq ∧
      (∀ p, p ∈ (vs.foldl addPeer n).peers ↔ p ∈ vs ∨ p ∈ n.peers) ∧
      ∀ d, (vs.foldl addPeer n).routes d =
        if d ∈ vs then some ⟨d, 1, 0⟩ else n.routes d := by
  induction vs generalizing n with
  | nil => simp
  | cons v vs ih =>
    obtain ⟨hmax, hseq, hpeers, hroutes⟩ := ih (n.addPeer v)
    refine ⟨hmax, hseq, fun p => ?_, fun d => ?_⟩
    · rw [foldl_cons, hpeers, mem_cons]
      show p ∈ vs ∨ p = v ∨ p ∈ n.peers ↔ _
      tauto
    · rw [foldl_cons, hroutes]
      by_cases hd : d ∈ vs
      · simp [hd]
      · by_cases hdv : d = v
        · simp [hdv, addPeer]
        · simp [hdv, addPeer]

variable (G) in
/-- Every table is that of a node that has only learned its neighbours. -/
def Linked (S : ι → Node ι) : Prop :=
  ∀ u, ∃ vs : List ι, (∀ v, v ∈ vs ↔ G.Adj u v) ∧ S u = vs.foldl Node.addPeer Node.fresh

theorem Linked.routes (h : Linked G S) (u d : ι) [Decidable (G.Adj u d)] :
    (S u).routes d = if G.Adj u d then some ⟨d, 1, 0⟩ else none := by
  obtain ⟨vs, hvs, hS⟩ := h u
  rw [hS, (foldl_addPeer vs fresh).2.2.2 d]
  simp only [hvs]
  rfl

theorem Linked.sane (hinf : 1 < inf) (h : Linked G S) : Sane inf G S := by
  classical
  have hroute : ∀ u d r, (S u).routes d = some r → G.Adj u d ∧ r = ⟨d, 1, 0⟩ := by
    intro u d r hr
    rw [h.routes] at hr
    split at hr
    · rename_i hadj
      cases hr
      exact ⟨hadj, rfl⟩
    · cases hr
  refine ⟨fun u => ?_, fun u d r hr => (hroute u d r hr).2 ▸ Nat.one_pos,
    fun u d r hr => (hroute u d r hr).2 ▸ hinf, ?_,
    fun u d r hr => (hroute u d r hr).2 ▸ Nat.zero_le _, ?_⟩
  · rw [h.routes, if_neg (SimpleGraph.irrefl G)]
  · intro u d r hr
    obtain ⟨hadj, rfl⟩ := hroute u d r hr
    exact hadj
  · intro u v _
    obtain ⟨vs, -, hS⟩ := h u
    rw [hS, (foldl_addPeer vs fresh).1]
    exact Nat.zero_le _

theorem Linked.exactUpTo (h : Linked G S) : ExactUpTo G S 1 := by
  classical
  intro u d hd
  have hone : G.edist u d ≤ (1 : ℕ) ↔ G.Adj u d := by
    refine ⟨fun hle => ?_, fun hadj => (SimpleGraph.edist_eq_one_iff_adj.mpr hadj).le⟩
    refine SimpleGraph.edist_eq_one_iff_adj.mp (le_antisymm hle ?_)
    exact Order.one_le_iff_pos.mpr (SimpleGraph.edist_pos_of_ne hd.symm)
  rw [hone]
  refine ⟨fun hadj => ?_, fun hadj => ?_⟩
  · have hdist := SimpleGraph.edist_eq_one_iff_adj.mpr hadj
    refine ⟨⟨d, 1, 0⟩, by rw [h.routes, if_pos hadj], hdist.symm, hadj, ?_⟩
    rw [hdist, SimpleGraph.edist_self, zero_add]
  · rw [h.routes, if_neg hadj]

/-- A round extends the exact part of the tables by one, below infinity. -/
theorem round_exactUpTo (hinf : 1 < inf) (hs : Sane inf G S) (h : Round inf G S S') {b : Nat}
    (hb : ExactUpTo G S b) : ExactUpTo G S' (min (b + 1) (inf - 1)) := by
  intro u d hd
  have hlow : ∀ v r, (S v).routes d = some r → G.edist v d ≤ r.hops :=
    fun v r hr => (hb.hops_eq (hs.ne hr) hr).2.1.ge
  refine ⟨fun hle => ?_, fun hgt => ?_⟩
  · obtain ⟨m, hm⟩ := ne_top_iff_exists.mp (ne_top_of_le_ne_top (natCast_ne_top _) hle)
    rw [← hm] at hle
    have hle' : m ≤ min (b + 1) (inf - 1) := by exact_mod_cast hle
    refine round_exact hinf hs h hd hm.symm (by omega) (fun v r _ => hlow v r) ?_ ?_
    · intro r hr
      obtain ⟨-, hhops, hnext⟩ := hb.hops_eq hd hr
      rw [← hm] at hhops hnext
      exact ⟨(by exact_mod_cast hhops.ge), fun _ => hnext⟩
    · intro v _ hvd hv
      refine (hb v d hvd.symm).1 ((add_le_add_iff_right one_ne_top).mp ?_)
      rw [hv]
      have : m ≤ b + 1 := by omega
      exact_mod_cast this
  · by_contra hsome
    obtain ⟨r, hr⟩ := Option.ne_none_iff_exists'.mp hsome
    obtain ⟨⟨-, hhops, hlt⟩, hadj, -⟩ := h.source hinf hs hr
    have hlt' : offered inf S u r.nextHop d < inf := by omega
    -- a route of `r.hops` hops would put `d` within reach
    suffices hoff : ∃ x, G.edist r.nextHop d ≤ (x : ℕ) ∧ x ≤ b ∧ x + 1 ≤ r.hops by
      obtain ⟨x, hx, hxb, hxr⟩ := hoff
      refine hgt ((edist_le_of_adj hadj).trans ((add_le_add hx le_rfl).trans ?_))
      have : x + 1 ≤ min (b + 1) (inf - 1) := by omega
      exact_mod_cast this
    rcases offered_cases hlt' with ⟨hnext, hoff⟩ | ⟨r', hr', hoff⟩
    · exact ⟨0, by simp [hnext], Nat.zero_le _, by omega⟩
    · obtain ⟨hle, hhops', -⟩ := hb.hops_eq (hs.ne hr') hr'
      rw [← hhops'] at hle
      exact ⟨r'.hops, hhops'.ge, by exact_mod_cast hle, by omega⟩

/-- From tables that know exactly the neighbours, `k` rounds give exactly the
destinations within `k + 1` hops. -/
theorem exactUpTo_rounds (hinf : 1 < inf) (hs : Sane inf G (σ 0)) (h0 : ExactUpTo G (σ 0) 1)
    (h : ∀ k < n, Round inf G (σ k) (σ (k + 1))) (hk : k ≤ n) :
    ExactUpTo G (σ k) (min (k + 1) (inf - 1)) := by
  induction k with
  | zero =>
    rw [Nat.min_eq_left (by omega)]
    exact h0
  | succ k ih =>
    have hround := round_exactUpTo hinf (sane_rounds hinf hs h (by omega)) (h k hk)
      (ih (by omega))
    have hmin : min (min (k + 1) (inf - 1) + 1) (inf - 1) = min (k + 1 + 1) (inf - 1) := by omega
    rwa [hmin] at hround

/-! ## Fixed points -/

/-- Next hop and length of a route. -/
def Route.shape (r : Route ι) : ι × Nat := (r.nextHop, r.hops)

/-- All routes have the same next hops and lengths. -/
def SameShape (S S' : ι → Node ι) : Prop :=
  ∀ u d, ((S' u).routes d).map Route.shape = ((S u).routes d).map Route.shape

/-- If a round changes no route, a route leads to the destination in one hop or to a
node whose route is one hop shorter. -/
theorem Round.hop_of_sameShape (hinf : 1 < inf) (hs : Sane inf G S) (h : Round inf G S S')
    (hfixed : SameShape S S') (hr : (S u).routes d = some r) :
    (r.nextHop = d ∧ r.hops = 1) ∨
      ∃ r', (S r.nextHop).routes d = some r' ∧ r.hops = r'.hops + 1 := by
  have hshape := hfixed u d
  rw [hr] at hshape
  obtain ⟨r₁, hr₁, heq⟩ := Option.map_eq_some_iff.mp hshape
  obtain ⟨hnext, hhops⟩ := Prod.mk.inj heq
  obtain ⟨⟨-, hsrc, hlt⟩, -⟩ := h.source hinf hs hr₁
  rw [hnext] at hsrc
  have hfin : offered inf S u r.nextHop d < inf := by omega
  rcases offered_cases hfin with ⟨hd, hzero⟩ | ⟨r', hr', hoff⟩
  · exact .inl ⟨hd, by omega⟩
  · exact .inr ⟨r', hr', by omega⟩

theorem sameShape_of_exactUpTo (hinf : 1 < inf) (hs : Sane inf G S) (h : Round inf G S S')
    (hb : ExactUpTo G S (inf - 1)) : SameShape S S' := by
  intro u d
  obtain ⟨ads, hu⟩ := h u
  by_cases hd : d = u
  · subst hd
    rw [hu.routes, receiveAll_self]
  have hlow : ∀ v r, (S v).routes d = some r → G.edist v d ≤ r.hops :=
    fun v r hr => (hb.hops_eq (hs.ne hr) hr).2.1.ge
  rw [hu.routes, receiveAll_routes hinf hd (hu.batch hs)]
  cases hr : (S u).routes d with
  | none =>
    have hfar : ¬ G.edist u d ≤ (inf - 1) := by
      intro hle
      obtain ⟨r, hr', -⟩ := (hb u d hd).1 hle
      rw [hr] at hr'
      cases hr'
    rw [fold_none]
    intro a ha
    have hadj := (hu.mem_iff a.origin).mp (mem_map_of_mem ha)
    rw [hu.hops_eq ha]
    by_contra hsmall
    have hfin : offered inf S u a.origin d < inf := by omega
    have hclose := edist_le_offered (hlow a.origin) hfin
    refine hfar ((edist_le_of_adj hadj).trans ((add_le_add hclose le_rfl).trans ?_))
    have hbound : offered inf S u a.origin d + 1 ≤ inf - 1 := by omega
    exact_mod_cast hbound
  | some r =>
    obtain ⟨hle, hhops, hnext⟩ := hb.hops_eq hd hr
    obtain ⟨k, hk⟩ := Nat.exists_eq_succ_of_ne_zero (hs.pos u d r hr).ne'
    rw [hk] at hhops
    have hclose : G.edist r.nextHop d = k :=
      add_left_injective_of_ne_top one_ne_top (hnext.trans hhops.symm)
    have hreach : G.edist r.nextHop d ≤ (inf - 1) :=
      (le_self_add.trans hnext.le).trans hle
    obtain ⟨r', hr', hhops', hnext'⟩ : ∃ r', followAll inf d (some r) ads = some r' ∧
        r'.hops = r.hops ∧ r'.nextHop = r.nextHop := by
      refine fold_fixed (hs.lt_inf u d r hr) ?_ rfl ?_
      · intro a ha
        have hadj := (hu.mem_iff a.origin).mp (mem_map_of_mem ha)
        rw [hu.hops_eq ha, hk]
        exact le_offered hhops.symm hadj (hlow a.origin) (hk ▸ hs.lt_inf u d r hr)
      · intro a ha hvia
        rw [hu.hops_eq ha, ← hvia, hk,
          offered_of_exact hd hhops.symm hclose fun hne => (hb r.nextHop d hne.symm).1 hreach]
    rw [hr', Option.map_some, Option.map_some, Route.shape, Route.shape, hhops', hnext']

end Round

end ProximityMesh.DistanceVector
