/-
  Gateway/PortReuse.lean --- the order in which the pools give out ports.

  Source: `allocate` and `release` of `PortPool` and `PortPoolV6`, as in Gateway/PortPool.lean.

  A port that is free and nearer to the cursor than `x` is given out before `x`, and nothing
  but its own allocation changes that.  All ports that are free when `x` has been given out
  are nearer than `x`.
-/
import ProximityMesh.Gateway.Conntrack

set_option autoImplicit false

namespace ProximityMesh.Gateway.PortPool

open HashMap

/-- A call of a pool. -/
inductive PoolOp where
  | allocate
  | release (port : UInt16)

/-- The ports that the calls give out, and the pool after them. -/
def replay (alloc : PortPool → Option UInt16 × PortPool) :
    PortPool → List PoolOp → List UInt16 × PortPool
  | pool, [] => ([], pool)
  | pool, .release port :: ops => replay alloc (pool.release port) ops
  | pool, .allocate :: ops =>
      let (port, after) := alloc pool
      let (ports, last) := replay alloc after ops
      (port.toList ++ ports, last)

/-- How far the cursor has to go from `c` to `p`. -/
def distance (c p : UInt16) : Nat := (p.toNat + 30000 - c.toNat) % 30000

variable {x y c p : UInt16} {pool : PortPool} {alloc : PortPool → Option UInt16 × PortPool}

theorem iterate_distance (hc : InRange c) (hp : InRange p) : nextPort^[distance c p] c = p := by
  rw [inRange_iff] at hp
  have hc' := (inRange_iff c).mp hc
  refine UInt16.toNat_inj.mp ?_
  rw [toNat_iterate_nextPort hc, distance]
  omega

theorem distance_iterate (hc : InRange c) {j : Nat} (hj : j < poolSize) :
    distance c (nextPort^[j] c) = j := by
  have hc' := (inRange_iff c).mp hc
  have hsize : poolSize = 30000 := rfl
  rw [distance, toNat_iterate_nextPort hc]
  omega

/-- Behind a port, all others are nearer than the port itself. -/
theorem distance_lt_self (hx : InRange x) (hy : InRange y) (hne : y ≠ x) :
    distance (nextPort x) y < distance (nextPort x) x := by
  have hne' : y.toNat ≠ x.toNat := fun heq => hne (UInt16.toNat_inj.mp heq)
  have hnext := toNat_nextPort hx
  rw [inRange_iff] at hx hy
  unfold distance
  omega

/-- A port that is passed does not change the order of those behind it. -/
theorem distance_lt_of_passed (hc : InRange c) (hp : InRange p) (hx : InRange x) (hy : InRange y)
    (hpassed : distance c p < distance c y) (hlt : distance c y < distance c x) :
    distance (nextPort p) y < distance (nextPort p) x := by
  have hnext := toNat_nextPort hp
  rw [inRange_iff] at hc hp hx hy
  unfold distance at *
  omega

variable (halloc : ∀ pool, InRange pool.next → alloc pool = pool.allocated)

include halloc

/-- Nothing is given out only if no port is free; otherwise it is a free port, no free one is
nearer, and the cursor goes on behind it. -/
theorem alloc_cases (hnext : InRange pool.next) :
    (alloc pool = (none, pool) ∧ ∀ y, InRange y → pool.inUse.contains y = true) ∨
      ∃ x, alloc pool = (some x, ⟨nextPort x, pool.inUse.insert x ()⟩) ∧ InRange x ∧
        pool.inUse.contains x = false ∧ ∀ y, InRange y → pool.inUse.contains y = false →
          distance pool.next x ≤ distance pool.next y := by
  rw [halloc pool hnext, allocated]
  cases hfirst : pool.firstFree with
  | none =>
    refine .inl ⟨rfl, fun y hy => ?_⟩
    have hmem : y ∈ List.iterate nextPort pool.next poolSize :=
      List.mem_iterate.mpr ⟨_, Nat.mod_lt _ (by decide), (iterate_distance hnext hy).symm⟩
    simpa using List.find?_eq_none.mp hfirst y hmem
  | some x =>
    obtain ⟨hfree, i, hi, hx, hbefore⟩ := List.find?_eq_some_iff_getElem.mp hfirst
    rw [List.length_iterate] at hi
    rw [List.getElem_iterate] at hx
    refine .inr ⟨x, rfl, hx ▸ inRange_iterate_nextPort hnext i, by simpa using hfree, ?_⟩
    intro y hy hyfree
    rw [← hx, distance_iterate hnext hi]
    refine Nat.le_of_not_lt fun hnear => ?_
    have hused := hbefore _ hnear
    rw [List.getElem_iterate, iterate_distance hnext hy, hyfree] at hused
    cases hused

/-! ## Runs -/

theorem inRange_replay (ops : List PoolOp) (hnext : InRange pool.next) :
    InRange (replay alloc pool ops).2.next := by
  induction ops generalizing pool with
  | nil => exact hnext
  | cons op ops ih =>
    cases op with
    | release port => exact ih hnext
    | allocate =>
      rw [replay]
      rcases alloc_cases halloc hnext with ⟨hnone, -⟩ | ⟨p, hsome, hp, -⟩
      · rw [hnone]
        exact ih hnext
      · rw [hsome]
        exact ih (inRange_nextPort hp)

/-- A free port that is nearer than `x` is given out by the calls, or is still free and nearer
after them. -/
theorem replay_nearer (hx : InRange x) (hy : InRange y) (ops : List PoolOp)
    (hnext : InRange pool.next) (hfree : pool.inUse.contains y = false)
    (hlt : distance pool.next y < distance pool.next x) :
    y ∈ (replay alloc pool ops).1 ∨ ((replay alloc pool ops).2.inUse.contains y = false ∧
      distance (replay alloc pool ops).2.next y < distance (replay alloc pool ops).2.next x) := by
  induction ops generalizing pool with
  | nil => exact .inr ⟨hfree, hlt⟩
  | cons op ops ih =>
    cases op with
    | release port =>
      refine ih hnext ?_ hlt
      rw [release, contains_remove_eq, Function.update_apply, hfree, ite_self]
    | allocate =>
      rw [replay]
      rcases alloc_cases halloc hnext with ⟨-, hused⟩ | ⟨p, hsome, hp, -, hnear⟩
      · rw [hused y hy] at hfree
        cases hfree
      · rw [hsome]
        rcases Decidable.em (y = p) with rfl | hne
        · exact .inl List.mem_cons_self
        · have hpassed : distance pool.next p < distance pool.next y := by
            refine Nat.lt_of_le_of_ne (hnear y hy hfree) fun heq => hne ?_
            rw [← iterate_distance hnext hy, ← heq, iterate_distance hnext hp]
          refine (ih (inRange_nextPort hp) ?_
            (distance_lt_of_passed hnext hp hx hy hpassed hlt)).imp_left (List.mem_cons_of_mem p)
          rw [contains_insert_eq, Function.update_of_ne hne, hfree]

/-- Between two allocations of `x`, everything is given out that was free after the first. -/
theorem mem_replay_of_free (hnext : InRange pool.next) {after : PortPool} {ops : List PoolOp}
    (hfirst : alloc pool = (some x, after)) (hagain : (alloc (replay alloc after ops).2).1 = some x)
    (hy : InRange y) (hfree : after.inUse.contains y = false) : y ∈ (replay alloc after ops).1 := by
  rcases alloc_cases halloc hnext with ⟨hnone, -⟩ | ⟨p, hsome, hp, -⟩
  · cases hfirst.symm.trans hnone
  · cases hfirst.symm.trans hsome
    have hne : y ≠ x := by
      rintro rfl
      rw [contains_insert_eq, Function.update_self] at hfree
      cases hfree
    have hnext' := inRange_nextPort hp
    refine (replay_nearer halloc hp hy ops hnext' hfree
      (distance_lt_self hp hy hne)).resolve_right ?_
    rintro ⟨hstill, hlt⟩
    have hlast : InRange (replay alloc ⟨nextPort x, pool.inUse.insert x ()⟩ ops).2.next :=
      inRange_replay halloc ops hnext'
    rcases alloc_cases halloc hlast with ⟨hnone, -⟩ | ⟨q, hsome', -, -, hnear⟩
    · rw [hnone] at hagain
      cases hagain
    · rw [hsome'] at hagain
      cases hagain
      exact Nat.not_lt.mpr (hnear y hy hstill) hlt

omit halloc

/-- From every state with the cursor in the range: the loop that watches for its start returns
within one round, with what the counting loop returns and the same pool.  That is a free port
of the range which no free port precedes in cyclic order, or nothing if none is free.  After
any calls, between two allocations of `x` every port is given out that was free right after
the first. -/
theorem pools_agree_and_reuse_late (pool : PortPool) (h : InRange pool.next) :
    allocateLoop pool.next poolSize pool = some pool.allocate ∧ pool.allocate = pool.allocateV6 ∧
    (match pool.allocate.1 with
      | some x => InRange x ∧ pool.inUse.contains x = false ∧
          ∀ y, InRange y → pool.inUse.contains y = false →
            distance pool.next x ≤ distance pool.next y
      | none => ∀ y, InRange y → pool.inUse.contains y = true) ∧
    ∀ alloc ∈ [allocate, allocateV6], ∀ (before between : List PoolOp) (x : UInt16)
      (after : PortPool), alloc (replay alloc pool before).2 = (some x, after) →
      (alloc (replay alloc after between).2).1 = some x →
      ∀ y, InRange y → after.inUse.contains y = false → y ∈ (replay alloc after between).1 := by
  refine ⟨?_, (allocate_eq h).trans (allocateV6_eq h).symm, ?_, ?_⟩
  · rw [allocateLoop_eq h, allocate_eq h]
  · rcases alloc_cases (fun _ => allocate_eq) h with ⟨hnone, hused⟩ | ⟨x, hsome, hx⟩
    · rw [hnone]
      exact hused
    · rw [hsome]
      exact hx
  · intro alloc hmem before between x after hfirst hagain y hy
    have halloc : ∀ pool, InRange pool.next → alloc pool = pool.allocated := by
      rcases List.mem_pair.mp hmem with rfl | rfl
      · exact fun _ => allocate_eq
      · exact fun _ => allocateV6_eq
    exact mem_replay_of_free halloc (inRange_replay halloc before h) hfirst hagain hy

/-- The `n` ports from `c` on. -/
@[irreducible] def portsFrom (c : UInt16) (n : Nat) : HashSet UInt16 :=
  collect id (fun _ => ()) (List.iterate nextPort c n)

theorem contains_portsFrom (hc : InRange c) (hy : InRange y) {n : Nat} (hn : n ≤ poolSize) :
    (portsFrom c n).contains y = decide (distance c y < n) := by
  have hmem : y ∈ List.iterate nextPort c n ↔ distance c y < n := by
    rw [List.mem_iterate]
    constructor
    · rintro ⟨j, hj, rfl⟩
      rwa [distance_iterate hc (hj.trans_le hn)]
    · exact fun hlt => ⟨_, hlt, (iterate_distance hc hy).symm⟩
  have hget := get_collect Function.injective_id (fun _ => ()) (List.iterate nextPort c n) y
  rw [id] at hget
  rw [contains, portsFrom, hget, apply_ite Option.isSome]
  simp only [hmem, Option.isSome_some, Option.isSome_none, Bool.if_true_left, Bool.or_false]

/-- All ports but the first two are taken. -/
def nearlyFull : PortPool := ⟨portMin, portsFrom (portMin + 2) 29998⟩

theorem nearlyFull_free (hy : InRange y) :
    nearlyFull.inUse.contains y = false ↔ y = portMin ∨ y = portMin + 1 := by
  rw [nearlyFull, contains_portsFrom (by decide) hy (by decide), decide_eq_false_iff_not, distance,
    ← UInt16.toNat_inj, ← UInt16.toNat_inj, show portMin.toNat = 30000 from rfl,
    show (portMin + 1).toNat = 30001 from rfl, show (portMin + 2).toNat = 30002 from rfl]
  rw [inRange_iff] at hy
  omega

theorem allocate_of_nearest (pool : PortPool) (hnext : InRange pool.next) (hx : InRange x)
    (hfree : pool.inUse.contains x = false)
    (hnear : ∀ y, InRange y → pool.inUse.contains y = false →
      distance pool.next y ≤ distance pool.next x → y = x) :
    pool.allocate = (some x, ⟨nextPort x, pool.inUse.insert x ()⟩) := by
  rcases alloc_cases (fun _ => allocate_eq) hnext with ⟨-, hused⟩ | ⟨z, hsome, hz, hzfree, hle⟩
  · cases (hused x hx).symm.trans hfree
  · rw [hsome, hnear z hz hzfree (hle x hx hfree)]

/-- The first port is given out, then the second; the first comes back and is given out again. -/
theorem pools_agree_and_reuse_late_nearlyFull :
    nearlyFull.allocate = nearlyFull.allocateV6 ∧
      ∃ after, nearlyFull.allocate = (some portMin, after) ∧
        (allocate (replay allocate after [.allocate, .release portMin]).2).1 = some portMin ∧
        portMin + 1 ∈ (replay allocate after [.allocate, .release portMin]).1 := by
  have hlow : InRange portMin := by decide
  have hhigh : InRange (portMin + 1) := by decide
  have hne : portMin + 1 ≠ portMin := by decide
  have hfree {y} (hy : InRange y) (hused : nearlyFull.inUse.contains y = false)
      (hlow : y ≠ portMin) : y = portMin + 1 := ((nearlyFull_free hy).mp hused).resolve_left hlow
  have hfirst := allocate_of_nearest nearlyFull hlow hlow
    ((nearlyFull_free hlow).mpr (.inl rfl)) fun y hy hused hle => by
      by_contra hlow
      rw [hfree hy hused hlow] at hle
      exact absurd hle (by decide)
  have hstill : (nearlyFull.inUse.insert portMin ()).contains (portMin + 1) = false := by
    rw [contains_insert_eq, Function.update_of_ne hne, nearlyFull_free hhigh]
    exact .inr rfl
  have hsecond := allocate_of_nearest ⟨portMin + 1, nearlyFull.inUse.insert portMin ()⟩
    hhigh hhigh hstill fun y hy hused _ => by
      rw [contains_insert_eq] at hused
      grind
  have hthird := allocate_of_nearest ⟨portMin + 2,
      ((nearlyFull.inUse.insert portMin ()).insert (portMin + 1) ()).remove portMin⟩ (by decide)
    hlow (by rw [contains_remove_eq, Function.update_self]) fun y hy hused _ => by
      rw [contains_remove_eq, contains_insert_eq, contains_insert_eq] at hused
      grind
  obtain ⟨-, hagree, -, hlate⟩ := pools_agree_and_reuse_late nearlyFull hlow
  have hagain : (allocate (replay allocate ⟨portMin + 1, nearlyFull.inUse.insert portMin ()⟩
      [.allocate, .release portMin]).2).1 = some portMin := by
    rw [replay, hsecond]
    exact congrArg Prod.fst hthird
  exact ⟨hagree, _, hfirst, hagain,
    hlate _ List.mem_cons_self [] _ _ _ hfirst hagain _ hhigh hstill⟩

/-- After every run of an engine a flow is refused exactly if it has no entry and every port of
the range belongs to an entry: no run loses a port. -/
theorem refused_iff_exhausted {κ : Type} [DecidableEq κ] [FlowKey κ] (v6 : Bool)
    (idleTimeout : UInt8 → Nat) (ops : List (Inner.Op κ)) (key : κ) (now : Nat) :
    let alloc := cond v6 allocateV6 allocate
    let t : Inner κ := Inner.new.run alloc idleTimeout ops
    (t.lookupOrCreate alloc key now).1 = .error .conntrackFull ↔ t.forward.get key = none ∧
      ∀ y, InRange y → ∃ k e, t.forward.get k = some e ∧ e.extPort = y := by
  intro alloc t
  have halloc pool (h : InRange pool.next) : alloc pool = pool.allocated := by
    cases v6
    exacts [allocate_eq h, allocateV6_eq h]
  have hc : t.Consistent := Inner.consistent_new.run idleTimeout halloc ops
  unfold Inner.lookupOrCreate
  cases t.forward.get key with
  | some e => simp
  | none =>
    rcases alloc_cases halloc hc.next_inRange with ⟨hnone, hused⟩ | ⟨x, hsome, hx, hfree, -⟩
    · rw [hnone]
      refine iff_of_true rfl ⟨rfl, fun y hy => (hc.inUse_iff y).mp ?_⟩
      exact Option.eq_some_of_isSome (hused y hy)
    · rw [hsome]
      refine iff_of_false (fun h => by cases h) fun hall => ?_
      rw [contains, (hc.inUse_iff x).mpr (hall.2 x hx)] at hfree
      cases hfree

end ProximityMesh.Gateway.PortPool
