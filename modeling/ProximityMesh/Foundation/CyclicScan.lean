/-
  Foundation/CyclicScan.lean --- searching a cycle for its first free element.

  A resource pool that hands out the elements of a cycle in turn is written in
  two ways: a loop that counts to the size of the cycle (`scan`), and a loop
  that stops when it is back where it started (`scanUntil`).  On a cycle they
  are the same function (`scanUntil_eq_scan`), and both find the first free
  element in cyclic order (`scan_eq`).
-/
import Mathlib.Data.List.Iterate

set_option autoImplicit false

namespace ProximityMesh

section CyclicScan

variable {α : Type} (next : α → α) (free : α → Bool)

/-- Look at up to `n` elements from `a` on: the first free one, and the position
after the last one looked at. -/
def scan : Nat → α → Option α × α
  | 0, a => (none, a)
  | n + 1, a => if free a then (some a, next a) else scan n (next a)

/-- Look at elements from `a` on until one is free or `start` comes next.  The
result is `none` when the fuel does not reach either. -/
def scanUntil [DecidableEq α] (start : α) : Nat → α → Option (Option α × α)
  | 0, _ => none
  | n + 1, a =>
      if free a then some (some a, next a)
      else if next a = start then some (none, next a)
      else scanUntil start n (next a)

/-- The bounded scan finds the first free element of the next `n`. -/
theorem scan_eq (n : Nat) (a : α) :
    scan next free n a =
      match (List.iterate next a n).find? free with
      | some x => (some x, next x)
      | none => (none, next^[n] a) := by
  induction n generalizing a with
  | zero => rfl
  | succ n ih =>
    rw [scan, List.iterate, List.find?_cons]
    cases hfree : free a with
    | true => rfl
    | false =>
      rw [if_neg (by simp), ih, Function.iterate_succ_apply]

/-- The two loops agree from any position of a cycle whose remaining part, back
to `start`, has `n` elements. -/
theorem scanUntil_eq_scan [DecidableEq α] {start : α} (n : Nat) (a : α) (hpos : 0 < n)
    (hback : next^[n] a = start) (hfirst : ∀ j, 0 < j → j < n → next^[j] a ≠ start) :
    scanUntil next free start n a = some (scan next free n a) := by
  induction n generalizing a with
  | zero => exact absurd hpos (lt_irrefl 0)
  | succ n ih =>
    rw [scanUntil, scan]
    split
    · rfl
    · rcases Nat.eq_zero_or_pos n with rfl | hn
      · rw [if_pos (by simpa using hback), scan]
      · have hne : next a ≠ start := hfirst 1 Nat.one_pos (by omega)
        rw [if_neg hne]
        refine ih (next a) hn hback ?_
        intro j hj hjn
        exact hfirst (j + 1) (Nat.succ_pos j) (by omega)

end CyclicScan

end ProximityMesh
