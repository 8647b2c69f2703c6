/-
  Foundation/StableOrder.lean --- queues of elements that fall into ordered classes.

  A list keeps elements in the order they arrived.  Each element has a class, and
  the classes are listed from the first to be served to the last.  `byClass`
  groups the elements by class and keeps the order of arrival inside a class: it
  is the stable sort by class.  `evict` takes out the newest element of the last
  class that has one.  The lemmas say how arrivals, filters and evictions look
  from the grouped side.
-/
import Mathlib.Data.List.Induction
import Mathlib.Data.List.Perm.Basic

set_option autoImplicit false

namespace ProximityMesh.StableOrder

open List

variable {α P : Type} [DecidableEq P] (kind : α → P)

/-- The elements of one class, in order of arrival. -/
def inClass (p : P) (l : List α) : List α := l.filter fun a => kind a = p

/-- The elements grouped by class, in order of arrival inside each class. -/
def byClass (ps : List P) (l : List α) : List α := ps.flatMap fun p => inClass kind p l

/-- The list without its newest element of class `p`. -/
def dropNewest (p : P) (l : List α) : List α :=
  (l.reverse.eraseP fun a => kind a = p).reverse

/-- The last class in which there is an element. -/
def lowest (ps : List P) (l : List α) : Option P :=
  ps.reverse.find? fun p => !(inClass kind p l).isEmpty

/-- The list without the newest element of its last class. -/
def evict (ps : List P) (l : List α) : List α :=
  match lowest kind ps l with
  | some p => dropNewest kind p l
  | none => l

variable {kind}

/-! ## One class -/

variable {p : P} {l : List α} {a : α} {ps : List P}

theorem mem_inClass : a ∈ inClass kind p l ↔ a ∈ l ∧ kind a = p := by
  simp [inClass]

theorem inClass_append (p : P) (l l' : List α) :
    inClass kind p (l ++ l') = inClass kind p l ++ inClass kind p l' :=
  filter_append ..

theorem inClass_singleton_self (a : α) : inClass kind (kind a) [a] = [a] := by
  simp [inClass]

theorem inClass_singleton_ne (h : kind a ≠ p) : inClass kind p [a] = [] := by
  simp [inClass, h]

theorem filter_inClass (q : α → Bool) (p : P) (l : List α) :
    (inClass kind p l).filter q = inClass kind p (l.filter q) :=
  filter_comm ..

theorem inClass_eraseP_self (p : P) (l : List α) :
    inClass kind p (l.eraseP fun a => kind a = p) = (inClass kind p l).tail := by
  induction l with
  | nil => rfl
  | cons a l ih =>
    by_cases ha : kind a = p
    · simp [inClass, ha]
    · simpa [inClass, ha] using ih

theorem inClass_eraseP_ne {q : P} (h : q ≠ p) (l : List α) :
    inClass kind q (l.eraseP fun a => kind a = p) = inClass kind q l := by
  induction l with
  | nil => rfl
  | cons a l ih =>
    by_cases ha : kind a = p
    · have hq : kind a ≠ q := fun hq => h (hq.symm.trans ha)
      rw [eraseP_cons_of_pos (by simpa using ha)]
      simp [inClass, hq]
    · rw [eraseP_cons_of_neg (by simpa using ha)]
      simp only [inClass] at ih
      simp [inClass, filter_cons, ih]

theorem inClass_reverse (p : P) (l : List α) :
    inClass kind p l.reverse = (inClass kind p l).reverse :=
  filter_reverse ..

theorem inClass_dropNewest_self (p : P) (l : List α) :
    inClass kind p (dropNewest kind p l) = (inClass kind p l).dropLast := by
  rw [dropNewest, inClass_reverse, inClass_eraseP_self, inClass_reverse, tail_reverse,
    reverse_reverse]

theorem inClass_dropNewest_ne {q : P} (h : q ≠ p) (l : List α) :
    inClass kind q (dropNewest kind p l) = inClass kind q l := by
  rw [dropNewest, inClass_reverse, inClass_eraseP_ne h, inClass_reverse, reverse_reverse]

theorem dropNewest_sublist (p : P) (l : List α) : (dropNewest kind p l).Sublist l := by
  rw [dropNewest, ← reverse_sublist, reverse_reverse]
  exact eraseP_sublist

/-! ## All classes -/

theorem byClass_append (ps qs : List P) (l : List α) :
    byClass kind (ps ++ qs) l = byClass kind ps l ++ byClass kind qs l :=
  flatMap_append

theorem byClass_concat (ps : List P) (p : P) (l : List α) :
    byClass kind (ps ++ [p]) l = byClass kind ps l ++ inClass kind p l := by
  simp [byClass]

theorem mem_byClass : a ∈ byClass kind ps l ↔ a ∈ l ∧ kind a ∈ ps := by
  simp only [byClass, mem_flatMap, mem_inClass]
  constructor
  · intro ⟨p, hp, ha, heq⟩
    exact ⟨ha, heq ▸ hp⟩
  · intro ⟨ha, hp⟩
    exact ⟨kind a, hp, ha, rfl⟩

theorem filter_byClass (q : α → Bool) (ps : List P) (l : List α) :
    (byClass kind ps l).filter q = byClass kind ps (l.filter q) := by
  simp [byClass, filter_flatMap, filter_inClass]

theorem byClass_congr {l' : List α} (h : ∀ p ∈ ps, inClass kind p l = inClass kind p l') :
    byClass kind ps l = byClass kind ps l' :=
  flatMap_congr h

theorem byClass_pairwise {r : P → P → Prop} (hrefl : ∀ p, r p p) (hps : ps.Pairwise r)
    (l : List α) : (byClass kind ps l).Pairwise fun a b => r (kind a) (kind b) := by
  rw [byClass, pairwise_flatMap]
  constructor
  · intro p _
    apply pairwise_of_forall_mem_list
    intro a ha b hb
    rw [(mem_inClass.mp ha).2, (mem_inClass.mp hb).2]
    exact hrefl p
  · apply hps.imp
    intro p q hpq a ha b hb
    rw [(mem_inClass.mp ha).2, (mem_inClass.mp hb).2]
    exact hpq

/-- An arrival goes behind the elements of its own class, in front of the classes
served later. -/
theorem byClass_arrival {qs : List P} (l : List α) (a : α) (hps : kind a ∉ ps) (hqs : kind a ∉ qs) :
    byClass kind (ps ++ kind a :: qs) (l ++ [a]) =
      byClass kind (ps ++ [kind a]) l ++ a :: byClass kind qs l := by
  have hother : ∀ rs : List P, kind a ∉ rs →
      byClass kind rs (l ++ [a]) = byClass kind rs l := by
    intro rs hrs
    apply byClass_congr
    intro p hp
    have hne : kind a ≠ p := fun h => hrs (h ▸ hp)
    rw [inClass_append, inClass_singleton_ne hne, append_nil]
  have hsplit : ps ++ kind a :: qs = (ps ++ [kind a]) ++ qs := by simp
  rw [hsplit, byClass_append, byClass_concat, hother ps hps, hother qs hqs, inClass_append,
    inClass_singleton_self, byClass_concat]
  simp

/-- Grouping keeps every element, once, if no class is listed twice and none is
missing. -/
theorem byClass_perm (hps : ps.Nodup) (l : List α) (hall : ∀ a ∈ l, kind a ∈ ps) :
    (byClass kind ps l).Perm l := by
  induction l using reverseRecOn with
  | nil => simp [byClass, inClass]
  | append_singleton l a ih =>
    obtain ⟨front, back, hsplit⟩ := append_of_mem (hall a (by simp))
    have hfront : kind a ∉ front ∧ kind a ∉ back := by
      rw [hsplit, perm_middle.nodup_iff, nodup_cons, mem_append] at hps
      exact not_or.mp hps.1
    have hrest := ih fun b hb => hall b (mem_append_left [a] hb)
    have hcons : front ++ kind a :: back = (front ++ [kind a]) ++ back := by simp
    rw [hsplit, byClass_arrival l a hfront.1 hfront.2]
    refine perm_middle.trans ?_
    rw [← byClass_append, ← hcons, ← hsplit]
    exact (hrest.cons a).trans (perm_append_singleton a l).symm

/-! ## Eviction -/

theorem evict_sublist (ps : List P) (l : List α) : (evict kind ps l).Sublist l := by
  unfold evict
  split
  · exact dropNewest_sublist ..
  · exact List.Sublist.refl l

theorem lowest_concat_of_empty (h : inClass kind p l = []) :
    lowest kind (ps ++ [p]) l = lowest kind ps l := by
  simp [lowest, h]

theorem lowest_concat_of_nonempty (h : inClass kind p l ≠ []) :
    lowest kind (ps ++ [p]) l = some p := by
  simp [lowest, h]

/-- Taking the last of the grouped elements off is evicting. -/
theorem dropLast_byClass (hps : ps.Nodup) (l : List α) :
    (byClass kind ps l).dropLast = byClass kind ps (evict kind ps l) := by
  induction ps using reverseRecOn with
  | nil => rfl
  | append_singleton ps p ih =>
    obtain ⟨hps, -, hp⟩ := nodup_append.mp hps
    by_cases hempty : inClass kind p l = []
    · have hevict : evict kind (ps ++ [p]) l = evict kind ps l := by
        rw [evict, evict, lowest_concat_of_empty hempty]
      have hnone : inClass kind p (evict kind ps l) = [] := by
        have hsub : (inClass kind p (evict kind ps l)).Sublist (inClass kind p l) :=
          (evict_sublist ps l).filter _
        rw [hempty] at hsub
        exact sublist_nil.mp hsub
      rw [hevict, byClass_concat, byClass_concat, hempty, hnone, append_nil, append_nil, ih hps]
    · have hevict : evict kind (ps ++ [p]) l = dropNewest kind p l := by
        rw [evict, lowest_concat_of_nonempty hempty]
      have hkept : byClass kind ps (dropNewest kind p l) = byClass kind ps l := by
        apply byClass_congr
        intro q hq
        exact inClass_dropNewest_ne (hp q hq p (mem_singleton_self p)) l
      rw [hevict, byClass_concat, byClass_concat, hkept, inClass_dropNewest_self,
        dropLast_append_of_ne_nil hempty]

theorem length_evict (hps : ps.Nodup) (hall : ∀ a ∈ l, kind a ∈ ps) :
    (evict kind ps l).length = l.length - 1 := by
  have hkept : ∀ a ∈ evict kind ps l, kind a ∈ ps :=
    fun a ha => hall a ((evict_sublist ps l).subset ha)
  rw [← (byClass_perm hps _ hkept).length_eq, ← dropLast_byClass hps, length_dropLast,
    (byClass_perm hps l hall).length_eq]

end ProximityMesh.StableOrder
