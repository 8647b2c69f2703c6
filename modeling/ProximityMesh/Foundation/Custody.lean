/-
  Foundation/Custody.lean --- tasks that hold something of their own.

  A task may hold something that is no part of the state.  A rule says what a step does
  with the holdings of the task that takes it; where a step may do several things with
  them, any of these can happen.  `Manages` says that a task, run among any others, takes
  only steps that its holdings allow; what it returns may depend on what is left.
-/
import ProximityMesh.Foundation.Task

set_option autoImplicit false

namespace ProximityMesh.Task

variable {ι σ γ α β : Type}

/-- What a step that is taken in a state does with holdings. -/
abbrev Rule (ι σ γ : Type) : Type := (ι → σ → Option σ) → σ → γ → γ → Prop

/-- Every step is one that the holdings allow, whatever happened since the last one; the
task returns with `Q`. -/
def Manages (R : Rule ι σ γ) : Task ι σ α → γ → (α → γ → Prop) → Prop
  | done a, g, Q => Q a g
  | step act next, g, Q => ∀ i s s', act i s = some s' →
      (∃ g', R act s g g') ∧ ∀ g', R act s g g' → (next i s).Manages R g' Q

variable {R : Rule ι σ γ} {g : γ} {Q : α → γ → Prop}

theorem manages_pure {a : α} (h : Q a g) : (pure a : Task ι σ α).Manages R g Q := h

theorem manages_bind {p : Task ι σ β} {q : β → Task ι σ α} {P : β → γ → Prop}
    (hp : p.Manages R g P) (hq : ∀ b g', P b g' → (q b).Manages R g' Q) :
    (p >>= q).Manages R g Q := by
  induction p generalizing g with
  | done b => exact hq b g hp
  | step act next ih =>
    intro i s s' hact
    obtain ⟨hallowed, hnext⟩ := hp i s s' hact
    exact ⟨hallowed, fun g' hg' => ih i s (hnext g' hg')⟩

theorem manages_atomically {f : ι → σ → σ × α}
    (h : ∀ i s, (∃ g', R (fun i s => some (f i s).1) s g g') ∧
      ∀ g', R (fun i s => some (f i s).1) s g g' → Q (f i s).2 g') :
    (atomically f).Manages R g Q :=
  fun i s _ _ => h i s

end ProximityMesh.Task
