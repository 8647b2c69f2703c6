/-
  Foundation/HashMap.lean --- hash maps and hash sets with duplicate-free keys.

  A map is Mathlib's `AList`: a list of entries whose keys are pairwise
  distinct, so a key with two values cannot be built.  The list order stands for
  the iteration order of the table, which the programs modelled here never rely
  on; every lemma below speaks of `get` and of membership only.  A set is a map
  to `Unit`, as in the standard library it models.
-/
import Mathlib.Data.Finset.Card
import Mathlib.Data.List.AList

set_option autoImplicit false

namespace ProximityMesh

open AList List

/-- A finite map with duplicate-free keys. -/
def HashMap (K V : Type) : Type := AList (fun _ : K => V)

/-- A finite set. -/
abbrev HashSet (K : Type) : Type := HashMap K Unit

namespace HashMap

variable {K V : Type} [DecidableEq K]

instance [DecidableEq V] : DecidableEq (HashMap K V) := fun m m' =>
  decidable_of_iff (AList.entries m = AList.entries m') AList.ext_iff.symm

/-- The map without entries. -/
def empty : HashMap K V := (∅ : AList fun _ : K => V)

/-- The value stored under a key. -/
def get (m : HashMap K V) (k : K) : Option V := AList.lookup k m

/-- Store a value under a key, replacing an older one. -/
def insert (m : HashMap K V) (k : K) (v : V) : HashMap K V := AList.insert k v m

/-- Drop a key. -/
def remove (m : HashMap K V) (k : K) : HashMap K V := AList.erase k m

/-- The entries, in iteration order. -/
def iter (m : HashMap K V) : List (K × V) := (AList.entries m).map fun e => (e.1, e.2)

/-- The keys, in iteration order. -/
def keys (m : HashMap K V) : List K := AList.keys m

/-- Whether a key is present. -/
def contains (m : HashMap K V) (k : K) : Bool := (m.get k).isSome

/-- `get_mut` followed by an update in place; nothing happens when the key is
absent. -/
def modify (m : HashMap K V) (k : K) (f : V → V) : HashMap K V :=
  match m.get k with
  | some v => m.insert k (f v)
  | none => m

/-- Drop every key of a list. -/
def removeAll (m : HashMap K V) (ks : List K) : HashMap K V := ks.foldl remove m

/-- Keep the entries a predicate holds of. -/
def retain (m : HashMap K V) (p : K → V → Bool) : HashMap K V :=
  m.removeAll ((m.iter.filter fun e => !p e.1 e.2).map Prod.fst)

/-- `values_mut` with an update of every value. -/
def mapValues (m : HashMap K V) (f : V → V) : HashMap K V :=
  m.keys.foldl (fun m k => m.modify k f) m

/-- Store a value for each element of a list. -/
def collect {α : Type} (key : α → K) (value : α → V) (as : List α) : HashMap K V :=
  as.foldl (fun m a => m.insert (key a) (value a)) empty

/-! ## Lookup after an operation -/

@[simp] theorem get_empty (k : K) : (empty : HashMap K V).get k = none :=
  lookup_empty k

theorem get_insert (m : HashMap K V) (k k' : K) (v : V) :
    (m.insert k v).get k' = if k' = k then some v else m.get k' := by
  by_cases h : k' = k
  · subst h
    rw [if_pos rfl]
    exact lookup_insert m
  · rw [if_neg h]
    exact lookup_insert_ne h

@[simp] theorem get_insert_self (m : HashMap K V) (k : K) (v : V) :
    (m.insert k v).get k = some v := by
  rw [get_insert, if_pos rfl]

variable {k k' : K} {m : HashMap K V} {v : V}

theorem get_insert_ne (m : HashMap K V) (v : V) (h : k' ≠ k) :
    (m.insert k v).get k' = m.get k' := by
  rw [get_insert, if_neg h]

theorem get_remove (m : HashMap K V) (k k' : K) :
    (m.remove k).get k' = if k' = k then none else m.get k' := by
  by_cases h : k' = k
  · subst h
    rw [if_pos rfl]
    exact lookup_erase k' m
  · rw [if_neg h]
    exact lookup_erase_ne h

@[simp] theorem get_remove_self (m : HashMap K V) (k : K) : (m.remove k).get k = none := by
  rw [get_remove, if_pos rfl]

theorem get_remove_ne (m : HashMap K V) (h : k' ≠ k) : (m.remove k).get k' = m.get k' := by
  rw [get_remove, if_neg h]

theorem get_insert_cases {w : V} (h : (m.insert k v).get k' = some w) :
    (k' = k ∧ w = v) ∨ (k' ≠ k ∧ m.get k' = some w) := by
  rw [get_insert] at h
  split at h
  · rename_i hk
    exact .inl ⟨hk, (Option.some.inj h).symm⟩
  · rename_i hk
    exact .inr ⟨hk, h⟩

theorem get_remove_cases (h : (m.remove k).get k' = some v) : k' ≠ k ∧ m.get k' = some v := by
  rw [get_remove] at h
  split at h
  · cases h
  · rename_i hk
    exact ⟨hk, h⟩

theorem get_of_get_remove (h : (m.remove k).get k' = some v) :
    m.get k' = some v := (get_remove_cases h).2

theorem get_modify (m : HashMap K V) (k k' : K) (f : V → V) :
    (m.modify k f).get k' = if k' = k then (m.get k).map f else m.get k' := by
  unfold modify
  by_cases h : k' = k
  · subst h
    cases hm : m.get k' with
    | none => simpa using hm
    | some v => simp
  · rw [if_neg h]
    cases hm : m.get k with
    | none => rfl
    | some v => exact get_insert_ne m (f v) h

/-! ## Operations that change nothing -/

theorem get_insert_eq_get_iff (m : HashMap K V) (k : K) (v : V) :
    (m.insert k v).get = m.get ↔ m.get k = some v := by
  constructor
  · intro h
    rw [← h, get_insert_self]
  · intro h
    funext k'
    rw [get_insert]
    split
    · rename_i hk
      rw [hk, h]
    · rfl

theorem get_remove_eq_get_iff (m : HashMap K V) (k : K) :
    (m.remove k).get = m.get ↔ m.get k = none := by
  constructor
  · intro h
    rw [← h, get_remove_self]
  · intro h
    funext k'
    rw [get_remove]
    split
    · rename_i hk
      rw [hk, h]
    · rfl

theorem get_modify_eq_get_iff (m : HashMap K V) (k : K) (f : V → V) :
    (m.modify k f).get = m.get ↔ ∀ v, m.get k = some v → f v = v := by
  unfold modify
  cases hk : m.get k with
  | none => simp
  | some v =>
    rw [get_insert_eq_get_iff, hk]
    simp [eq_comm]

theorem remove_of_get_eq_none (h : m.get k = none) : m.remove k = m :=
  ext (kerase_of_notMem_keys (lookup_eq_none.mp h))

/-! ## Iteration -/

variable (m)

theorem mem_iter (k : K) (v : V) : (k, v) ∈ m.iter ↔ m.get k = some v := by
  unfold iter get
  rw [mem_map]
  constructor
  · rintro ⟨⟨k', v'⟩, hmem, heq⟩
    cases heq
    exact mem_lookup_iff.mpr hmem
  · intro h
    exact ⟨⟨k, v⟩, mem_lookup_iff.mp h, rfl⟩

omit [DecidableEq K] in
theorem map_fst_iter : m.iter.map Prod.fst = m.keys := by
  unfold iter keys AList.keys List.keys
  rw [map_map]
  rfl

omit [DecidableEq K] in
theorem nodup_iter_keys : (m.iter.map Prod.fst).Nodup := by
  rw [map_fst_iter]
  exact keys_nodup m

theorem mem_keys (k : K) : k ∈ m.keys ↔ (m.get k).isSome :=
  AList.mem_keys.symm.trans AList.lookup_isSome.symm

omit [DecidableEq K] in
theorem nodup_keys : m.keys.Nodup := keys_nodup m

@[simp] theorem contains_iff (m : HashMap K V) (k : K) :
    m.contains k = true ↔ (m.get k).isSome := Iff.rfl

theorem contains_insert (k k' : K) (v : V) :
    (m.insert k v).contains k' = true ↔ k' = k ∨ m.contains k' = true := by
  rw [contains_iff, get_insert]
  split
  · rename_i hk
    simp [hk]
  · rename_i hk
    simp [hk]

theorem contains_insert_eq (k : K) (v : V) :
    (m.insert k v).contains = Function.update m.contains k true := by
  funext k'
  rw [Function.update_apply, contains, get_insert]
  split
  · rfl
  · rfl

theorem contains_remove_eq (k : K) :
    (m.remove k).contains = Function.update m.contains k false := by
  funext k'
  rw [Function.update_apply, contains, get_remove]
  split
  · rfl
  · rfl

theorem contains_modify (k k' : K) (f : V → V) : (m.modify k f).contains k' = m.contains k' := by
  rw [contains, get_modify, contains]
  split
  · rename_i hk
    rw [hk, Option.isSome_map]
  · rfl

/-! ## Sweeps over all entries -/

theorem get_removeAll (ks : List K) (k : K) :
    (m.removeAll ks).get k = if k ∈ ks then none else m.get k := by
  unfold removeAll
  induction ks generalizing m with
  | nil => simp
  | cons k' ks ih =>
    rw [foldl_cons, ih, get_remove]
    by_cases hk : k = k'
    · simp [hk]
    · simp [hk]

theorem get_retain (p : K → V → Bool) (k : K) : (m.retain p).get k = (m.get k).filter (p k) := by
  rw [retain, get_removeAll]
  have hmem : k ∈ (m.iter.filter fun e => !p e.1 e.2).map Prod.fst ↔
      ∃ v, m.get k = some v ∧ p k v = false := by
    simp [mem_iter]
  by_cases hdrop : ∃ v, m.get k = some v ∧ p k v = false
  · obtain ⟨v, hget, hp⟩ := hdrop
    rw [if_pos (hmem.mpr ⟨v, hget, hp⟩), hget, Option.filter, if_neg (by rw [hp]; decide)]
  · rw [if_neg (mt hmem.mp hdrop)]
    cases hget : m.get k with
    | none => rfl
    | some v =>
      have hp : p k v = true := by
        by_contra hp
        exact hdrop ⟨v, hget, Bool.not_eq_true _ ▸ hp⟩
      rw [Option.filter, if_pos hp]

variable {m}

theorem get_collect {α : Type} [DecidableEq α] {key : α → K} (hkey : Function.Injective key)
    (value : α → V) (as : List α) (a : α) :
    (collect key value as).get (key a) = if a ∈ as then some (value a) else none := by
  have hfold : ∀ m : HashMap K V, (as.foldl (fun m a => m.insert (key a) (value a)) m).get (key a) =
      if a ∈ as then some (value a) else m.get (key a) := by
    induction as with
    | nil => simp
    | cons a' as ih =>
      intro m
      rw [foldl_cons, ih, get_insert]
      by_cases ha : a = a'
      · simp [ha]
      · simp [ha, hkey.ne ha]
  rw [collect, hfold, get_empty]

theorem get_foldl_modify (f : V → V) {ks : List K} (hks : ks.Nodup) (m : HashMap K V) (k : K) :
    (ks.foldl (fun m k => m.modify k f) m).get k =
      if k ∈ ks then (m.get k).map f else m.get k := by
  induction ks generalizing m with
  | nil => simp
  | cons k' ks ih =>
    obtain ⟨hnot, hks⟩ := nodup_cons.mp hks
    rw [foldl_cons, ih hks, get_modify]
    by_cases hk : k = k'
    · subst hk
      simp [hnot]
    · simp [hk]

theorem get_mapValues (m : HashMap K V) (f : V → V) (k : K) :
    (m.mapValues f).get k = (m.get k).map f := by
  rw [mapValues, get_foldl_modify f (nodup_keys m)]
  split
  · rfl
  · rename_i hk
    rw [mem_keys, Option.not_isSome_iff_eq_none] at hk
    rw [hk]
    rfl

/-! ## Counting -/

/-- How many values satisfy a predicate. -/
def count (m : HashMap K V) (p : V → Bool) : Nat := (m.iter.filter fun e => p e.2).length

/-- The keys of the values that satisfy a predicate. -/
def holders (m : HashMap K V) (p : V → Bool) : Finset K :=
  m.keys.toFinset.filter fun k => (m.get k).any p = true

theorem mem_holders (m : HashMap K V) (p : V → Bool) (k : K) :
    k ∈ m.holders p ↔ (m.get k).any p = true := by
  rw [holders, Finset.mem_filter, mem_toFinset, mem_keys]
  cases m.get k with
  | none | some v => simp

theorem count_eq_card (m : HashMap K V) (p : V → Bool) : m.count p = (m.holders p).card := by
  have hnodup : ((m.iter.filter fun e => p e.2).map Prod.fst).Nodup :=
    (nodup_iter_keys m).sublist (filter_sublist.map _)
  rw [count, ← length_map Prod.fst, ← toFinset_card_of_nodup hnodup]
  congr 1
  ext k
  rw [mem_holders]
  simp [mem_iter, Option.any_eq_true]

/-- Two maps that agree on which keys hold such a value have equally many. -/
theorem count_congr {m' : HashMap K V} {p p' : V → Bool}
    (h : ∀ k, (m.get k).any p = (m'.get k).any p') : m.count p = m'.count p' := by
  rw [count_eq_card, count_eq_card]
  congr 1
  ext k
  rw [mem_holders, mem_holders, h]

theorem count_eq_zero_iff (m : HashMap K V) (p : V → Bool) :
    m.count p = 0 ↔ ∀ k v, m.get k = some v → p v = false := by
  rw [count_eq_card, Finset.card_eq_zero, Finset.eq_empty_iff_forall_notMem]
  simp [mem_holders, Option.any_eq_true]

/-- A change at one key changes the count by what the key held before and holds after. -/
theorem count_change {m' : HashMap K V} {p : V → Bool} (k : K)
    (h : ∀ k', k' ≠ k → (m'.get k').any p = (m.get k').any p) :
    m'.count p + (if (m.get k).any p then 1 else 0) =
      m.count p + (if (m'.get k).any p then 1 else 0) := by
  have herase : (m'.holders p).erase k = (m.holders p).erase k := by
    ext k'
    rw [Finset.mem_erase, Finset.mem_erase, mem_holders, mem_holders]
    exact and_congr_right fun hne => by rw [h k' hne]
  have hcount : ∀ n : HashMap K V,
      n.count p = ((n.holders p).erase k).card + if (n.get k).any p then 1 else 0 := by
    intro n
    rw [count_eq_card]
    by_cases hk : (n.get k).any p = true
    · rw [if_pos hk, Finset.card_erase_add_one ((mem_holders n p k).mpr hk)]
    · rw [if_neg hk, Finset.erase_eq_of_notMem (mt (mem_holders n p k).mp hk), Nat.add_zero]
  rw [hcount m, hcount m', herase]
  omega

end HashMap

end ProximityMesh
