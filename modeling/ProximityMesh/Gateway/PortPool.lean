/-
  Gateway/PortPool.lean --- the pools of external ports.

  Source: `PortPool` in crates/pim-gateway/src/engine.rs and `PortPoolV6` in
  crates/pim-gateway/src/ipv6.rs.

  The two pools hold the same data and walk the range 30000..=59999 in a cycle,
  but their loops end differently: the IPv4 pool stops when `next` is back at
  the port it started from, the IPv6 pool counts to the size of the range.
  `allocate_eq` and `allocateV6_eq` give both the same specification, the first
  free port in cyclic order.
-/
import ProximityMesh.Foundation.HashMap
import ProximityMesh.Foundation.CyclicScan
import Mathlib.Tactic.Ring

set_option autoImplicit false

namespace ProximityMesh.Gateway

def portMin : UInt16 := 30000

def portMax : UInt16 := 59999

/-- Number of ports in the range. -/
def poolSize : Nat := (portMax - portMin + 1).toNat

/-- `PortPool` and `PortPoolV6`. -/
structure PortPool where
  next : UInt16
  inUse : HashSet UInt16

namespace PortPool

def new : PortPool := ⟨portMin, HashMap.empty⟩

/-- The port after `port`, wrapping at the end of the range. -/
def nextPort (port : UInt16) : UInt16 :=
  if port ≥ portMax then portMin else port + 1

/-- The loop of `PortPool::allocate`; `none` when the fuel runs out before the
loop returns. -/
def allocateLoop (start : UInt16) : Nat → PortPool → Option (Option UInt16 × PortPool)
  | 0, _ => none
  | fuel + 1, pool =>
      let port := pool.next
      let next := nextPort pool.next
      if ¬ pool.inUse.contains port then
        some (some port, { next := next, inUse := pool.inUse.insert port () })
      -- wrapped all the way around
      else if next = start then some (none, { pool with next := next })
      else allocateLoop start fuel { pool with next := next }

/-- `PortPool::allocate`.  `allocateLoop_eq` says that the fuel is enough on every
pool whose `next` is in the range. -/
def allocate (pool : PortPool) : Option UInt16 × PortPool :=
  (allocateLoop pool.next poolSize pool).getD (none, pool)

/-- The loop of `PortPoolV6::allocate`. -/
def allocateLoopV6 : Nat → PortPool → Option UInt16 × PortPool
  | 0, pool => (none, pool)
  | n + 1, pool =>
      let port := pool.next
      let next := nextPort pool.next
      if ¬ pool.inUse.contains port then
        (some port, { next := next, inUse := pool.inUse.insert port () })
      else allocateLoopV6 n { pool with next := next }

/-- `PortPoolV6::allocate`. -/
def allocateV6 (pool : PortPool) : Option UInt16 × PortPool :=
  allocateLoopV6 poolSize pool

/-- `release` of both pools. -/
def release (pool : PortPool) (port : UInt16) : PortPool :=
  { pool with inUse := pool.inUse.remove port }

/-! ## The first free port in cyclic order -/

/-- The port lies in 30000..=59999. -/
def InRange (port : UInt16) : Prop := portMin ≤ port ∧ port ≤ portMax

instance (port : UInt16) : Decidable (InRange port) := inferInstanceAs (Decidable (_ ∧ _))

theorem inRange_iff (port : UInt16) :
    InRange port ↔ 30000 ≤ port.toNat ∧ port.toNat ≤ 59999 := Iff.rfl

/-- The first port from `next` on, in cyclic order, that is not in use. -/
def firstFree (pool : PortPool) : Option UInt16 :=
  (List.iterate nextPort pool.next poolSize).find? fun port => !pool.inUse.contains port

variable {port : UInt16} {pool : PortPool}

theorem toNat_nextPort (h : InRange port) :
    (nextPort port).toNat = 30000 + (port.toNat - 30000 + 1) % 30000 := by
  obtain ⟨hlo, hhi⟩ := (inRange_iff port).mp h
  unfold nextPort
  split
  · rename_i hge
    have hge' : 59999 ≤ port.toNat := hge
    have hmin : portMin.toNat = 30000 := rfl
    omega
  · rename_i hlt
    have hlt' : port.toNat < 59999 := UInt16.not_le.mp hlt
    have hadd : (port + 1).toNat = (port.toNat + 1) % 2 ^ 16 := UInt16.toNat_add port 1
    omega

theorem inRange_nextPort (h : InRange port) : InRange (nextPort port) := by
  rw [inRange_iff, toNat_nextPort h]
  omega

theorem inRange_iterate_nextPort (h : InRange port) (j : Nat) : InRange (nextPort^[j] port) := by
  induction j with
  | zero => exact h
  | succ j ih =>
    rw [Function.iterate_succ_apply']
    exact inRange_nextPort ih

theorem toNat_iterate_nextPort (h : InRange port) (j : Nat) :
    (nextPort^[j] port).toNat = 30000 + (port.toNat - 30000 + j) % 30000 := by
  induction j with
  | zero =>
    have := (inRange_iff port).mp h
    rw [Function.iterate_zero, id_eq]
    omega
  | succ j ih =>
    rw [Function.iterate_succ_apply', toNat_nextPort (inRange_iterate_nextPort h j)]
    omega

/-- The range is one cycle: its length is `poolSize`. -/
theorem iterate_nextPort_poolSize (h : InRange port) : nextPort^[poolSize] port = port := by
  have hr := (inRange_iff port).mp h
  have hsize : poolSize = 30000 := rfl
  refine UInt16.toNat_inj.mp ?_
  rw [toNat_iterate_nextPort h]
  omega

theorem iterate_nextPort_ne (h : InRange port) {j : Nat} (hpos : 0 < j) (hlt : j < poolSize) :
    nextPort^[j] port ≠ port := by
  have hr := (inRange_iff port).mp h
  have hsize : poolSize = 30000 := rfl
  intro heq
  have := congrArg UInt16.toNat heq
  rw [toNat_iterate_nextPort h] at this
  omega

/-- A pool after a scan of its cycle. -/
def afterScan (pool : PortPool) : Option UInt16 × UInt16 → Option UInt16 × PortPool
  | (some port, next) => (some port, { next := next, inUse := pool.inUse.insert port () })
  | (none, next) => (none, { pool with next := next })

theorem allocateLoopV6_eq_scan (n : Nat) (pool : PortPool) :
    allocateLoopV6 n pool =
      pool.afterScan (scan nextPort (fun port => !pool.inUse.contains port) n pool.next) := by
  induction n generalizing pool with
  | zero => rfl
  | succ n ih =>
    rw [allocateLoopV6, scan]
    cases hin : pool.inUse.contains pool.next with
    | false => rfl
    | true =>
      rw [ih]
      rfl

theorem allocateLoop_eq_scanUntil (start : UInt16) (n : Nat) (pool : PortPool) :
    allocateLoop start n pool =
      (scanUntil nextPort (fun port => !pool.inUse.contains port) start n pool.next).map
        pool.afterScan := by
  induction n generalizing pool with
  | zero => rfl
  | succ n ih =>
    rw [allocateLoop, scanUntil]
    cases hin : pool.inUse.contains pool.next with
    | false => rfl
    | true =>
      simp only [not_true_eq_false, if_false]
      split
      · rfl
      · rw [ih]
        rfl

/-- What both pools return, and the pool they leave behind. -/
def allocated (pool : PortPool) : Option UInt16 × PortPool :=
  match pool.firstFree with
  | some port => (some port, { next := nextPort port, inUse := pool.inUse.insert port () })
  | none => (none, pool)

theorem afterScan_scan (h : InRange pool.next) :
    pool.afterScan (scan nextPort (fun port => !pool.inUse.contains port) poolSize pool.next) =
      pool.allocated := by
  rw [scan_eq, allocated, firstFree]
  cases (List.iterate nextPort pool.next poolSize).find? _ with
  | some port => rfl
  | none =>
    simp only [iterate_nextPort_poolSize h]
    rfl

theorem allocateV6_eq (h : InRange pool.next) : pool.allocateV6 = pool.allocated := by
  rw [allocateV6, allocateLoopV6_eq_scan, afterScan_scan h]

/-- The loop that watches for its starting point returns within the size of the
range, with the first free port. -/
theorem allocateLoop_eq (h : InRange pool.next) :
    allocateLoop pool.next poolSize pool = some pool.allocated := by
  have hpos : 0 < poolSize := by decide
  rw [allocateLoop_eq_scanUntil, scanUntil_eq_scan nextPort _ poolSize pool.next hpos
    (iterate_nextPort_poolSize h) (fun j hj hlt => iterate_nextPort_ne h hj hlt),
    Option.map_some, afterScan_scan h]

theorem allocate_eq (h : InRange pool.next) : pool.allocate = pool.allocated := by
  rw [allocate, allocateLoop_eq h, Option.getD_some]

theorem firstFree_spec (hr : InRange pool.next) (h : pool.firstFree = some port) :
    InRange port ∧ pool.inUse.get port = none := by
  refine ⟨?_, ?_⟩
  · have hmem := List.mem_of_find?_eq_some h
    obtain ⟨j, _, rfl⟩ := List.mem_iterate.mp hmem
    exact inRange_iterate_nextPort hr j
  · have hfree := List.find?_some h
    simpa [HashMap.contains] using hfree

end PortPool

end ProximityMesh.Gateway
