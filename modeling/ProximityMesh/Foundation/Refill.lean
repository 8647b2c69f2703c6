/-
  Foundation/Refill.lean --- grants that are paid out of a store which refills with time.

  A meter reads off each step of a history when it happened, how much was in the store
  before and after it, and whether something was granted.  A step is paid if a grant takes
  one unit out of the store, and if nothing is put in otherwise; between two steps the
  store gains at most `rate` per unit of time.  Then grants that lie in a window of time
  are no more than the store can hold and can gain within it (`countP_grants_le`).

  Steps that are not paid do no harm before the first grant and after the last one.
-/
import Mathlib.Algebra.Order.Field.Basic
import Mathlib.Data.List.Chain
import Mathlib.Tactic.Linarith
import Mathlib.Tactic.Ring

set_option autoImplicit false

namespace ProximityMesh

open List

structure Meter (α K : Type) where
  clock : α → K
  before : α → K
  after : α → K
  grants : α → Bool

namespace Meter

section Readings

variable {α K : Type} [Field K] [LinearOrder K] (M : Meter α K)

/-- A grant takes one unit out of the store, and nothing is put in. -/
def Paid (a : α) : Prop := ((if M.grants a then 1 else 0 : ℕ) : K) + M.after a ≤ M.before a

/-- The second step comes later, and the store has gained no more than that time allows. -/
def Follows (rate : K) (a b : α) : Prop :=
  M.clock a ≤ M.clock b ∧ M.before b ≤ M.after a + rate * (M.clock b - M.clock a)

theorem pairwise_clock_le {M : Meter α K} {rate : K} {l : List α}
    (h : l.IsChain (M.Follows rate)) : l.Pairwise fun a b => M.clock a ≤ M.clock b := by
  have htrans : Trans (fun a b => M.clock a ≤ M.clock b) (fun a b => M.clock a ≤ M.clock b)
      fun a b => M.clock a ≤ M.clock b := ⟨le_trans⟩
  exact isChain_iff_pairwise.mp (h.imp fun _ _ hab => hab.1)

end Readings

variable {α K : Type} [Field K] [LinearOrder K] [IsStrictOrderedRing K] {M : Meter α K}
  {rate cap t d : K}

/-- What is granted from a step on, until `u`, if every step is paid. -/
theorem countP_grants_le_of_paid (hrate : 0 ≤ rate) {u : K} {a : α} {l : List α}
    (hchain : (a :: l).IsChain (M.Follows rate)) (hpaid : ∀ b ∈ a :: l, M.Paid b)
    (hstore : ∀ b ∈ a :: l, 0 ≤ M.after b) (hclock : ∀ b ∈ a :: l, M.clock b ≤ u) :
    ((a :: l).countP M.grants : K) ≤ M.before a + rate * (u - M.clock a) := by
  have hgrant := hpaid a (.head _)
  unfold Paid at hgrant
  induction l generalizing a with
  | nil =>
    have hleft := hstore a (.head _)
    have hgain := mul_nonneg hrate (sub_nonneg.mpr (hclock a (.head _)))
    rw [countP_singleton]
    linarith
  | cons b l ih =>
    obtain ⟨⟨_, hgain⟩, hrest⟩ := isChain_cons_cons.mp hchain
    have hlater := ih hrest (fun c hc => hpaid c (.tail _ hc)) (fun c hc => hstore c (.tail _ hc))
      (fun c hc => hclock c (.tail _ hc)) (hpaid b (.tail _ (.head _)))
    rw [countP_cons, Nat.cast_add, add_comm]
    calc ((if M.grants a then 1 else 0 : ℕ) : K) + ((b :: l).countP M.grants : K)
        ≤ (if M.grants a then 1 else 0 : ℕ) + (M.before b + rate * (u - M.clock b)) := by gcongr
      _ ≤ (if M.grants a then 1 else 0 : ℕ) +
            (M.after a + rate * (M.clock b - M.clock a) + rate * (u - M.clock b)) := by gcongr
      _ = (if M.grants a then 1 else 0 : ℕ) + M.after a + rate * (u - M.clock a) := by ring
      _ ≤ M.before a + rate * (u - M.clock a) := by gcongr

/-- The first step grants something, and a step is paid if it does or if one after it does. -/
theorem countP_grants_le_of_head (hrate : 0 ≤ rate) {a : α} {l : List α}
    (hchain : (a :: l).IsChain (M.Follows rate))
    (hstore : ∀ b ∈ a :: l, 0 ≤ M.after b ∧ M.before b ≤ cap) (ha : M.grants a = true)
    (hwindow : ∀ b ∈ a :: l, M.grants b = true → t ≤ M.clock b ∧ M.clock b ≤ t + d)
    (hgrants : ∀ b ∈ a :: l, M.grants b = true → M.Paid b)
    (hbetween : ∀ l₁ b l₂, l = l₁ ++ b :: l₂ → (∃ c ∈ l₂, M.grants c = true) → M.Paid b) :
    ((a :: l).countP M.grants : K) ≤ cap + rate * d := by
  obtain ⟨hbegin, hend⟩ := hwindow a (.head _) ha
  -- what is left once all are paid
  have hbound {l : List α} (hchain : (a :: l).IsChain (M.Follows rate))
      (hstore : ∀ b ∈ a :: l, 0 ≤ M.after b ∧ M.before b ≤ cap)
      (hpaid : ∀ b ∈ a :: l, M.Paid b) (hclock : ∀ b ∈ a :: l, M.clock b ≤ t + d) :
      ((a :: l).countP M.grants : K) ≤ cap + rate * d := by
    refine (countP_grants_le_of_paid hrate hchain hpaid
      (fun b hb => (hstore b hb).1) hclock).trans ?_
    gcongr
    · exact (hstore a (.head _)).2
    · linarith
  induction l using reverseRecOn with
  | nil =>
    refine hbound hchain hstore (fun b hb => ?_) fun b hb => ?_
    · exact mem_singleton.mp hb ▸ hgrants a (.head _) ha
    · exact mem_singleton.mp hb ▸ hend
  | append_singleton l x ih =>
    have hinit : ((a :: l) ++ [x]).IsChain (M.Follows rate) := hchain
    have hmem : ∀ b ∈ a :: l, b ∈ a :: (l ++ [x]) := fun b hb => mem_append_left [x] hb
    have hx : x ∈ a :: (l ++ [x]) := .tail _ (mem_append_right _ (.head _))
    by_cases hlast : M.grants x = true
    · have hpair := pairwise_append.mp (pairwise_clock_le hinit)
      obtain ⟨-, hxend⟩ := hwindow x hx hlast
      refine hbound hchain hstore (fun b hb => ?_) fun b hb => ?_
      · rcases mem_cons.mp hb with rfl | hb'
        · exact hgrants _ hb ha
        · rcases mem_append.mp hb' with hold | hnew
          · obtain ⟨l₁, l₂, rfl⟩ := append_of_mem hold
            exact hbetween l₁ b (l₂ ++ [x]) (append_assoc _ _ _)
              ⟨x, mem_append_right _ (.head _), hlast⟩
          · rw [mem_singleton.mp hnew]
            exact hgrants x hx hlast
      · rcases mem_append.mp (show b ∈ (a :: l) ++ [x] from hb) with hold | hnew
        · exact (hpair.2.2 b hold x (.head _)).trans hxend
        · rw [mem_singleton.mp hnew]
          exact hxend
    · -- the last step grants nothing and can be left out
      rw [← cons_append, countP_append, countP_singleton, if_neg hlast]
      refine ih hinit.left_of_append (fun b hb => hstore b (hmem b hb))
        (fun b hb => hwindow b (hmem b hb)) (fun b hb => hgrants b (hmem b hb)) ?_
      rintro l₁ b l₂ rfl ⟨c, hc, hcgrants⟩
      exact hbetween l₁ b (l₂ ++ [x]) (append_assoc _ _ _)
        ⟨c, mem_append_left _ hc, hcgrants⟩

/-- Grants that lie in a window of length `d` are no more than the store can hold and can gain in
that time, if every step is paid that grants something or lies between two that do. -/
theorem countP_grants_le (hrate : 0 ≤ rate) (hcap : 0 ≤ cap) (hd : 0 ≤ d) {l : List α}
    (hchain : l.IsChain (M.Follows rate)) (hstore : ∀ a ∈ l, 0 ≤ M.after a ∧ M.before a ≤ cap)
    (hwindow : ∀ a ∈ l, M.grants a = true → t ≤ M.clock a ∧ M.clock a ≤ t + d)
    (hgrants : ∀ a ∈ l, M.grants a = true → M.Paid a)
    (hbetween : ∀ l₁ a l₂, l = l₁ ++ a :: l₂ → (∃ b ∈ l₁, M.grants b = true) →
      (∃ b ∈ l₂, M.grants b = true) → M.Paid a) :
    (l.countP M.grants : K) ≤ cap + rate * d := by
  induction l with
  | nil =>
    have hgain := mul_nonneg hrate hd
    rw [countP_nil, Nat.cast_zero]
    linarith
  | cons a l ih =>
    by_cases ha : M.grants a = true
    · refine countP_grants_le_of_head hrate hchain hstore ha hwindow hgrants
        fun l₁ b l₂ hl hlater => ?_
      exact hbetween (a :: l₁) b l₂ (by rw [hl]; rfl) ⟨a, .head _, ha⟩ hlater
    · rw [countP_cons_of_neg ha]
      refine ih hchain.tail (fun b hb => hstore b (.tail _ hb)) (fun b hb => hwindow b (.tail _ hb))
        (fun b hb => hgrants b (.tail _ hb)) ?_
      rintro l₁ b l₂ rfl ⟨c, hc, hcgrants⟩ hlater
      exact hbetween (a :: l₁) b l₂ rfl ⟨c, .tail _ hc, hcgrants⟩ hlater

end Meter

end ProximityMesh
