/-
  Foundation/Interleaving.lean --- processes that take turns on a shared state.

  Each process has a local state of its own, which says where it is in its program.  A
  step of a process is one atomic action: it looks at the shared state and at an input
  (what the outside world answers), and it changes the shared state and the local one.
  A run is the list of the moments it has gone through, the last one first, so that a
  property can speak of what has been the case at some moment.
-/
import Mathlib.Logic.Function.Basic

set_option autoImplicit false

namespace ProximityMesh

structure Interleaving (κ σ π : Type) where
  shared : σ
  process : κ → π

namespace Interleaving

variable {κ σ π ι : Type} [DecidableEq κ] {advance : κ → ι → σ → π → Option (σ × π)}

/-- One process takes a step; `none` if it cannot. -/
def step (advance : κ → ι → σ → π → Option (σ × π)) (S : Interleaving κ σ π) (k : κ) (i : ι) :
    Option (Interleaving κ σ π) :=
  (advance k i S.shared (S.process k)).map fun r => ⟨r.1, Function.update S.process k r.2⟩

/-- After a step of one process the others are where they were. -/
theorem update_cases (process : κ → π) (k : κ) (p : π) (j : κ) :
    j = k ∧ Function.update process k p j = p ∨
      j ≠ k ∧ Function.update process k p j = process j := by
  by_cases hj : j = k
  · exact .inl ⟨hj, hj ▸ Function.update_self ..⟩
  · exact .inr ⟨hj, Function.update_of_ne hj ..⟩

/-- The moments of a run in which every step meets a condition. -/
inductive Visits (advance : κ → ι → σ → π → Option (σ × π))
    (K : Interleaving κ σ π → κ → ι → Prop) (S₀ : Interleaving κ σ π) :
    List (Interleaving κ σ π) → Prop
  | start : Visits advance K S₀ [S₀]
  | step {S S' : Interleaving κ σ π} {l : List (Interleaving κ σ π)} {k : κ} {i : ι}
      (h : Visits advance K S₀ (S :: l)) (hK : K S k i) (hstep : S.step advance k i = some S') :
      Visits advance K S₀ (S' :: S :: l)

variable {K : Interleaving κ σ π → κ → ι → Prop} {S₀ : Interleaving κ σ π}
  {l : List (Interleaving κ σ π)}

/-- What holds of the first moment and is kept by every step holds of the whole run. -/
theorem Visits.keeps {P : List (Interleaving κ σ π) → Prop} (h : Visits advance K S₀ l)
    (hstart : P [S₀])
    (hkeep : ∀ S l k i s p, P (S :: l) → K S k i →
      advance k i S.shared (S.process k) = some (s, p) →
      P (⟨s, Function.update S.process k p⟩ :: S :: l)) : P l := by
  induction h with
  | start => exact hstart
  | @step S S' l k i _ hK hstep ih =>
    obtain ⟨⟨s, p⟩, hadvance, rfl⟩ := Option.map_eq_some_iff.mp hstep
    exact hkeep S l k i s p ih hK hadvance

theorem Visits.invariant {I : Interleaving κ σ π → Prop} (h : Visits advance K S₀ l)
    (hstart : I S₀)
    (hkeep : ∀ S k i s p, I S → K S k i → advance k i S.shared (S.process k) = some (s, p) →
      I ⟨s, Function.update S.process k p⟩) : ∀ S ∈ l, I S := by
  refine h.keeps (P := fun l => ∀ S ∈ l, I S) (List.forall_mem_singleton.mpr hstart) ?_
  intro S l k i s p hl hK hadvance
  exact List.forall_mem_cons.mpr ⟨hkeep S k i s p (hl S List.mem_cons_self) hK hadvance, hl⟩

/-- Follow a schedule, as long as every step meets the condition. -/
def play (advance : κ → ι → σ → π → Option (σ × π)) (K : Interleaving κ σ π → κ → ι → Prop)
    [∀ S k i, Decidable (K S k i)] (S : Interleaving κ σ π) (l : List (Interleaving κ σ π)) :
    List (κ × ι) → Option (List (Interleaving κ σ π))
  | [] => some (S :: l)
  | (k, i) :: rest =>
      if K S k i then (S.step advance k i).bind fun S' => play advance K S' (S :: l) rest else none

theorem visits_of_play [∀ S k i, Decidable (K S k i)] {schedule : List (κ × ι)}
    {S : Interleaving κ σ π} {l l' : List (Interleaving κ σ π)} (h : Visits advance K S₀ (S :: l))
    (hplay : play advance K S l schedule = some l') : Visits advance K S₀ l' := by
  induction schedule generalizing S l with
  | nil => exact Option.some.inj hplay ▸ h
  | cons choice rest ih =>
    obtain ⟨hK, hplay⟩ := Option.ite_none_right_eq_some.mp hplay
    obtain ⟨S', hstep, hplay⟩ := Option.bind_eq_some_iff.mp hplay
    exact ih (h.step hK hstep) hplay

theorem exists_visits (advance : κ → ι → σ → π → Option (σ × π))
    (K : Interleaving κ σ π → κ → ι → Prop) [∀ S k i, Decidable (K S k i)]
    (S₀ : Interleaving κ σ π) (schedule : List (κ × ι)) (check : List (Interleaving κ σ π) → Bool)
    (h : (play advance K S₀ [] schedule).any check = true) :
    ∃ l, Visits advance K S₀ l ∧ check l = true := by
  obtain ⟨l, hplay, hcheck⟩ := (Option.any_eq_true _ _).mp h
  exact ⟨l, visits_of_play .start hplay, hcheck⟩

end Interleaving

end ProximityMesh
