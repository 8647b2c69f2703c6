/-
  Foundation/Collector.lean --- collecting the parts of several wholes.

  Items arrive one at a time, in any order and any number of times.  Each has a
  key, and for every key there is a list of parts that make it whole.  The
  collector keeps what arrived under each key, and when an arrival completes its
  key it fires and forgets what it kept there.

  `exists_firesAt_iff` says that a key has fired as soon as all its parts have
  arrived, so the first firing is the first moment they all have
  (`first_firesAt_iff`); `firesAt_unique` says that it fires once if no item
  arrives twice.
-/
import Mathlib.Data.List.Induction
import Mathlib.Order.Nat

set_option autoImplicit false

namespace ProximityMesh

open List

namespace Collector

variable {κ α : Type} [DecidableEq κ] [DecidableEq α] (parts : κ → List α) (key : α → κ)

/-- With what is kept, the arrival makes its key whole. -/
def Completes (kept : κ → List α) (a : α) : Prop :=
  ∀ b ∈ parts (key a), b ∈ a :: kept (key a)

instance (kept : κ → List α) (a : α) : Decidable (Completes parts key kept a) :=
  inferInstanceAs (Decidable (∀ b ∈ parts (key a), b ∈ a :: kept (key a)))

/-- What is kept after an arrival. -/
def next (kept : κ → List α) (a : α) : κ → List α :=
  Function.update kept (key a) (if Completes parts key kept a then [] else a :: kept (key a))

/-- What is kept after a list of arrivals. -/
def gathered (arrivals : List α) : κ → List α := arrivals.foldl (next parts key) fun _ => []

/-- The arrival at this position completes the key. -/
def FiresAt (arrivals : List α) (i : Nat) (k : κ) : Prop :=
  ∃ a, arrivals[i]? = some a ∧ key a = k ∧
    Completes parts key (gathered parts key (arrivals.take i)) a

variable {parts key} {arrivals : List α} {a : α} {k : κ} {i : Nat}

/-! ## One more arrival -/

theorem gathered_concat (arrivals : List α) (a : α) :
    gathered parts key (arrivals ++ [a]) = next parts key (gathered parts key arrivals) a := by
  rw [gathered, foldl_append]
  rfl

theorem next_of_ne (kept : κ → List α) (h : key a ≠ k) : next parts key kept a k = kept k :=
  Function.update_of_ne (Ne.symm h) ..

theorem next_of_completes {kept : κ → List α} (h : Completes parts key kept a) :
    next parts key kept a (key a) = [] := by
  rw [next, Function.update_self, if_pos h]

theorem next_of_not_completes {kept : κ → List α} (h : ¬ Completes parts key kept a) :
    next parts key kept a (key a) = a :: kept (key a) := by
  rw [next, Function.update_self, if_neg h]

omit [DecidableEq κ] [DecidableEq α] in
/-- When each part comes once, the last one completes. -/
theorem completes_iff_of_perm {kept : κ → List α} {later : List α}
    (hperm : (kept (key a) ++ a :: later).Perm (parts (key a))) (hnodup : (parts (key a)).Nodup) :
    Completes parts key kept a ↔ later = [] := by
  constructor
  · intro hcompletes
    apply eq_nil_iff_forall_not_mem.mpr
    intro b hb
    have hmem : b ∈ a :: kept (key a) := hcompletes b (hperm.subset (by simp [hb]))
    have hdistinct := hperm.nodup_iff.mpr hnodup
    rw [nodup_append, nodup_cons] at hdistinct
    obtain ⟨-, ⟨hnot, -⟩, hapart⟩ := hdistinct
    cases mem_cons.mp hmem with
    | inl heq => exact hnot (heq ▸ hb)
    | inr hkept => exact hapart b hkept b (mem_cons_of_mem _ hb) rfl
  · intro hlast b hb
    have hmem := hperm.symm.subset hb
    rw [hlast] at hmem
    simpa [or_comm] using hmem

theorem firesAt_concat_iff :
    FiresAt parts key (arrivals ++ [a]) i k ↔
      FiresAt parts key arrivals i k ∨
        (i = arrivals.length ∧ key a = k ∧
          Completes parts key (gathered parts key arrivals) a) := by
  rcases Nat.lt_trichotomy i arrivals.length with hi | rfl | hi
  · have htake : (arrivals ++ [a]).take i = arrivals.take i := take_append_of_le_length hi.le
    rw [FiresAt, getElem?_append_left hi, htake]
    exact ⟨.inl, fun h => h.resolve_right fun h' => hi.ne h'.1⟩
  · rw [FiresAt, FiresAt, getElem?_concat_length, take_left' rfl, getElem?_eq_none le_rfl]
    constructor
    · rintro ⟨a', ha, hkey, hcomplete⟩
      cases ha
      exact .inr ⟨rfl, hkey, hcomplete⟩
    · rintro (⟨a', ha, -⟩ | ⟨-, hkey, hcomplete⟩)
      · cases ha
      · exact ⟨a, rfl, hkey, hcomplete⟩
  · rw [FiresAt, FiresAt, getElem?_eq_none (by simpa using Nat.succ_le_of_lt hi),
      getElem?_eq_none hi.le]
    constructor
    · rintro ⟨a', ha, -⟩
      cases ha
    · rintro (⟨a', ha, -⟩ | ⟨heq, -⟩)
      · cases ha
      · exact absurd heq hi.ne'

/-- Whether a key fires at a position depends on the arrivals up to it. -/
theorem firesAt_take_iff {m : Nat} (h : i < m) :
    FiresAt parts key (arrivals.take m) i k ↔ FiresAt parts key arrivals i k := by
  rw [FiresAt, FiresAt, getElem?_take_of_lt h, take_take, Nat.min_eq_left h.le]

/-! ## The first firing -/

/-- Until its key fires, nothing that arrived is forgotten. -/
theorem mem_gathered_iff (hquiet : ¬ ∃ i, FiresAt parts key arrivals i k) (b : α) :
    b ∈ gathered parts key arrivals k ↔ b ∈ arrivals ∧ key b = k := by
  induction arrivals using reverseRecOn with
  | nil => simp [gathered]
  | append_singleton arrivals a ih =>
    have hquiet' : ¬ ∃ i, FiresAt parts key arrivals i k := by
      rintro ⟨i, hi⟩
      exact hquiet ⟨i, firesAt_concat_iff.mpr (.inl hi)⟩
    rw [gathered_concat]
    by_cases hkey : key a = k
    · subst hkey
      have hnot : ¬ Completes parts key (gathered parts key arrivals) a := by
        intro hcomplete
        exact hquiet ⟨arrivals.length, firesAt_concat_iff.mpr (.inr ⟨rfl, rfl, hcomplete⟩)⟩
      rw [next_of_not_completes hnot, mem_cons, ih hquiet', mem_append, mem_singleton]
      constructor
      · rintro (rfl | ⟨hmem, hb⟩)
        · exact ⟨.inr rfl, rfl⟩
        · exact ⟨.inl hmem, hb⟩
      · rintro ⟨hmem | rfl, hb⟩
        · exact .inr ⟨hmem, hb⟩
        · exact .inl rfl
    · rw [next_of_ne _ hkey, ih hquiet', mem_append, mem_singleton]
      constructor
      · exact fun h => ⟨.inl h.1, h.2⟩
      · rintro ⟨hmem | rfl, hb⟩
        · exact ⟨hmem, hb⟩
        · exact absurd hb hkey

/-- A key has fired if and only if all its parts have arrived. -/
theorem exists_firesAt_iff (hkey : ∀ b ∈ parts k, key b = k) (hne : parts k ≠ []) :
    (∃ i, FiresAt parts key arrivals i k) ↔ ∀ b ∈ parts k, b ∈ arrivals := by
  induction arrivals using reverseRecOn with
  | nil =>
    obtain ⟨b, hb⟩ := exists_mem_of_ne_nil _ hne
    constructor
    · rintro ⟨i, a, ha, -⟩
      cases ha
    · intro h
      cases h b hb
  | append_singleton arrivals a ih =>
    by_cases hfired : ∃ i, FiresAt parts key arrivals i k
    · have hall := ih.mp hfired
      obtain ⟨i, hi⟩ := hfired
      exact ⟨fun _ b hb => mem_append_left _ (hall b hb),
        fun _ => ⟨i, firesAt_concat_iff.mpr (.inl hi)⟩⟩
    · -- nothing was forgotten, so what is kept decides
      have hgathered := mem_gathered_iff hfired
      constructor
      · rintro ⟨i, hi⟩ b hb
        rcases firesAt_concat_iff.mp hi with hold | ⟨-, rfl, hcomplete⟩
        · exact absurd ⟨i, hold⟩ hfired
        · rcases mem_cons.mp (hcomplete b hb) with rfl | hkept
          · exact mem_append_right _ (mem_singleton_self _)
          · exact mem_append_left _ ((hgathered b).mp hkept).1
      · intro hall
        have hka : key a = k := by
          by_contra hka
          refine hfired (ih.mpr fun b hb => ?_)
          rcases mem_append.mp (hall b hb) with hmem | hlast
          · exact hmem
          · exact absurd (mem_singleton.mp hlast ▸ hkey b hb) hka
        refine ⟨arrivals.length, firesAt_concat_iff.mpr (.inr ⟨rfl, hka, ?_⟩)⟩
        intro b hb
        rw [hka] at hb
        rcases mem_append.mp (hall b hb) with hmem | hlast
        · exact mem_cons_of_mem _ (hka ▸ (hgathered b).mpr ⟨hmem, hkey b hb⟩)
        · exact mem_singleton.mp hlast ▸ mem_cons_self ..

/-- The first firing of a key is at the arrival that brings the last missing part. -/
theorem first_firesAt_iff (hkey : ∀ b ∈ parts k, key b = k) (hne : parts k ≠ []) :
    (FiresAt parts key arrivals i k ∧ ∀ j < i, ¬ FiresAt parts key arrivals j k) ↔
      (∀ b ∈ parts k, b ∈ arrivals.take (i + 1)) ∧ ¬ ∀ b ∈ parts k, b ∈ arrivals.take i := by
  rw [← exists_firesAt_iff hkey hne, ← exists_firesAt_iff hkey hne]
  have hlater : ∀ {m j : Nat}, FiresAt parts key (arrivals.take m) j k → j < m := by
    rintro m j ⟨a, ha, -⟩
    have hj := (List.getElem?_eq_some_iff.mp ha).1
    rw [length_take] at hj
    omega
  constructor
  · rintro ⟨hi, hfirst⟩
    refine ⟨⟨i, (firesAt_take_iff (Nat.lt_succ_self i)).mpr hi⟩, ?_⟩
    rintro ⟨j, hj⟩
    exact hfirst j (hlater hj) ((firesAt_take_iff (hlater hj)).mp hj)
  · rintro ⟨⟨j, hj⟩, hnot⟩
    have hquiet : ∀ j < i, ¬ FiresAt parts key arrivals j k :=
      fun j hji h => hnot ⟨j, (firesAt_take_iff hji).mpr h⟩
    have hji : j < i + 1 := hlater hj
    have hfires : FiresAt parts key arrivals j k := (firesAt_take_iff hji).mp hj
    rcases Nat.lt_succ_iff_lt_or_eq.mp hji with hlt | rfl
    · exact absurd hfires (hquiet j hlt)
    · exact ⟨hfires, hquiet⟩

/-! ## Firing once -/

/-- What is kept arrived, and was kept or came later. -/
theorem mem_gathered_append {later : List α} {b : α}
    (h : b ∈ gathered parts key (arrivals ++ later) k) :
    b ∈ gathered parts key arrivals k ∨ b ∈ later := by
  induction later using reverseRecOn with
  | nil =>
    rw [append_nil] at h
    exact .inl h
  | append_singleton later a ih =>
    rw [← append_assoc, gathered_concat] at h
    have hcases : b = a ∨ b ∈ gathered parts key (arrivals ++ later) k := by
      by_cases hkey : key a = k
      · subst hkey
        by_cases hcomplete : Completes parts key (gathered parts key (arrivals ++ later)) a
        · rw [next_of_completes hcomplete] at h
          cases h
        · rw [next_of_not_completes hcomplete] at h
          exact mem_cons.mp h
      · rw [next_of_ne _ hkey] at h
        exact .inr h
    rcases hcases with rfl | hkept
    · exact .inr (mem_append_right _ (mem_singleton_self _))
    · exact (ih hkept).imp_right (mem_append_left _)

/-- After a key has fired, only what arrives later can be kept under it. -/
theorem mem_drop_of_gathered {j : Nat} {b : α} (hi : FiresAt parts key arrivals i k) (hij : i < j)
    (h : b ∈ gathered parts key (arrivals.take j) k) : b ∈ (arrivals.take j).drop (i + 1) := by
  obtain ⟨a, ha, rfl, hcomplete⟩ := hi
  have hsplit : arrivals.take (i + 1) ++ (arrivals.take j).drop (i + 1) = arrivals.take j := by
    have htake := take_append_drop (i + 1) (arrivals.take j)
    rwa [take_take, Nat.min_eq_left (Nat.succ_le_of_lt hij)] at htake
  have hempty : gathered parts key (arrivals.take (i + 1)) (key a) = [] := by
    rw [take_add_one, ha, Option.toList_some, gathered_concat]
    exact next_of_completes hcomplete
  rw [← hsplit] at h
  rcases mem_gathered_append h with hold | hlater
  · rw [hempty] at hold
    cases hold
  · exact hlater

/-- Without repetitions a key fires once at most. -/
theorem firesAt_unique (hkey : ∀ b ∈ parts k, key b = k) (hne : parts k ≠ [])
    (hnodup : (arrivals.filter fun a => key a = k).Nodup) {j : Nat}
    (hi : FiresAt parts key arrivals i k) (hj : FiresAt parts key arrivals j k) : i = j := by
  -- two firings need every part twice, once before and once behind the first
  have hlt : ∀ {i j : Nat}, FiresAt parts key arrivals i k → FiresAt parts key arrivals j k →
      ¬ i < j := by
    intro i j hi hj hij
    obtain ⟨b, hb⟩ := exists_mem_of_ne_nil _ hne
    have hbefore : b ∈ arrivals.take (i + 1) :=
      (exists_firesAt_iff hkey hne).mp
        ⟨i, (firesAt_take_iff (Nat.lt_succ_self i)).mpr hi⟩ b hb
    have hbehind : b ∈ arrivals.drop (i + 1) := by
      obtain ⟨a, ha, rfl, hcomplete⟩ := hj
      rcases mem_cons.mp (hcomplete b hb) with rfl | hkept
      · rw [mem_iff_getElem?]
        refine ⟨j - (i + 1), ?_⟩
        rw [getElem?_drop, Nat.add_sub_cancel' (Nat.succ_le_of_lt hij), ha]
      · have hmem := mem_drop_of_gathered hi hij hkept
        rw [drop_take] at hmem
        exact mem_of_mem_take hmem
    have hfilter : ∀ {l : List α}, b ∈ l → b ∈ l.filter fun a => key a = k := by
      intro l hl
      exact mem_filter.mpr ⟨hl, by simpa using hkey b hb⟩
    rw [← take_append_drop (i + 1) arrivals, filter_append] at hnodup
    exact (nodup_append.mp hnodup).2.2 b (hfilter hbefore) b (hfilter hbehind) rfl
  exact Nat.le_antisymm (Nat.not_lt.mp (hlt hj hi)) (Nat.not_lt.mp (hlt hi hj))

end Collector

end ProximityMesh
