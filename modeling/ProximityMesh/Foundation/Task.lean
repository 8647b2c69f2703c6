/-
  Foundation/Task.lean --- cooperating tasks over one shared state.

  A task is a tree of atomic steps: what it does while it holds one lock, and how
  it goes on.  A step may be blocked (an empty channel), and it may consult what
  the environment supplies at that moment, `ι`: the clock, random bytes, whether a
  timer fired.  A task that panics is one that is blocked for ever.

  `exec` runs a task alone, `Keeps` and `Moves` are for a task among others: between
  two of its steps any other task may run, so all it may rely on is an invariant,
  and what it learned about values it holds itself.  `Sys` interleaves any number
  of tasks with the events that start them.  `Reaches.invariant` turns one `Keeps`
  for each task that can be started into an invariant of every run, and `Trail.moves`
  one `Moves` for each into what every step of every run does.
-/
import Mathlib.Data.List.Chain

set_option autoImplicit false

namespace ProximityMesh

open List Option

/-- A task over a shared state `σ` that returns an `α`. -/
inductive Task (ι σ α : Type) : Type where
  | done (a : α)
  /-- One atomic step; `none` is a step that cannot be taken yet. -/
  | step (act : ι → σ → Option σ) (next : ι → σ → Task ι σ α)

namespace Task

variable {ι σ α β : Type}

/-! ## Sequencing -/

protected def bind : Task ι σ α → (α → Task ι σ β) → Task ι σ β
  | done a, k => k a
  | step act next, k => step act fun i s => (next i s).bind k

instance : Monad (Task ι σ) where
  pure := done
  bind := Task.bind

theorem bind_assoc {γ : Type} (p : Task ι σ α) (k : α → Task ι σ β) (l : β → Task ι σ γ) :
    p >>= k >>= l = p >>= fun a => k a >>= l := by
  show (p.bind k).bind l = p.bind fun a => (k a).bind l
  induction p with
  | done a => rfl
  | step act next ih =>
    simp only [Task.bind]
    congr 1
    funext i s
    exact ih i s

theorem bind_pure (p : Task ι σ α) : p >>= pure = p := by
  show p.bind done = p
  induction p with
  | done a => rfl
  | step act next ih =>
    simp only [Task.bind]
    congr 1
    funext i s
    exact ih i s

/-- One step that always can be taken and returns a value. -/
def atomically (f : ι → σ → σ × α) : Task ι σ α :=
  step (fun i s => some (f i s).1) fun i s => done (f i s).2

/-- Read a part of the state under its lock. -/
def read (f : σ → α) : Task ι σ α := atomically fun _ s => (s, f s)

/-- Write a part of the state under its lock. -/
def modify (f : σ → σ) : Task ι σ Unit := atomically fun _ s => (f s, ())

/-- What the environment supplies at this moment. -/
def input : Task ι σ ι := atomically fun i s => (s, i)

/-- Wait until the state offers a value. -/
def await [Inhabited α] (f : ι → σ → Option (σ × α)) : Task ι σ α :=
  step (fun i s => (f i s).map Prod.fst) fun i s => done (((f i s).map Prod.snd).getD default)

/-- A task that has panicked takes no further step. -/
def panicked [Inhabited α] : Task ι σ α := step (fun _ _ => none) fun _ _ => done default

/-- Do the same for every element of a list, in order. -/
def each (f : α → Task ι σ Unit) : List α → Task ι σ Unit
  | [] => pure ()
  | a :: as => do
      f a
      each f as

/-- A task over one part of a larger state. -/
def zoom {τ : Type} (get : τ → σ) (set : σ → τ → τ) : Task ι σ α → Task ι τ α
  | done a => done a
  | step act next =>
      step (fun i t => (act i (get t)).map fun s => set s t) fun i t =>
        (next i (get t)).zoom get set

/-! ## A task alone -/

/-- Run a task by itself under one reading of the environment, until it returns
or is blocked. -/
def exec (i : ι) : Task ι σ α → σ → σ × Option α
  | done a, s => (s, some a)
  | step act next, s =>
      match act i s with
      | some s' => exec i (next i s) s'
      | none => (s, none)

/-- The state a task leaves behind when it runs by itself. -/
def after (i : ι) (p : Task ι σ α) (s : σ) : σ := (exec i p s).1

/-- A task by itself takes one state to another, in steps that are `P`. -/
def Alone (i : ι) (P : σ × σ → Prop) : Task ι σ α → σ → σ → Prop
  | done _, s, s' => s = s'
  | step act next, s, s' =>
      match act i s with
      | some s₁ => P (s, s₁) ∧ Alone i P (next i s) s₁ s'
      | none => s = s'

theorem alone_of_after {i : ι} {p : Task ι σ α} {s s' : σ} (h : p.after i s = s') :
    p.Alone i (fun _ => True) s s' := by
  unfold after at h
  induction p generalizing s with
  | done a => exact h
  | step act next ih =>
    simp only [exec, Alone] at h ⊢
    cases hact : act i s with
    | none => simpa [hact] using h
    | some s₁ => exact ⟨trivial, ih i s (by simpa [hact] using h)⟩

variable (i : ι)

@[simp] theorem exec_pure (a : α) (s : σ) :
    exec i (pure a : Task ι σ α) s = (s, some a) := rfl

theorem exec_bind (p : Task ι σ α) (k : α → Task ι σ β) (s : σ) :
    exec i (p >>= k) s =
      match exec i p s with
      | (s', some a) => exec i (k a) s'
      | (s', none) => (s', none) := by
  show exec i (p.bind k) s = _
  induction p generalizing s with
  | done a => rfl
  | step act next ih =>
    simp only [Task.bind, exec]
    cases act i s with
    | some s' => exact ih i s s'
    | none => rfl

@[simp] theorem exec_atomically (f : ι → σ → σ × α) (s : σ) :
    exec i (atomically f) s = ((f i s).1, some (f i s).2) := rfl

@[simp] theorem exec_read (f : σ → α) (s : σ) :
    exec i (read f : Task ι σ α) s = (s, some (f s)) := rfl

@[simp] theorem exec_modify (f : σ → σ) (s : σ) :
    exec i (modify f : Task ι σ Unit) s = (f s, some ()) := rfl

@[simp] theorem exec_input (s : σ) : exec i (input : Task ι σ ι) s = (s, some i) := rfl

@[simp] theorem exec_panicked [Inhabited α] (i : ι) (s : σ) :
    exec i (panicked : Task ι σ α) s = (s, none) := rfl

theorem exec_bind_of_some {i : ι} {p : Task ι σ α} {k : α → Task ι σ β} {s s' : σ} {a : α}
    (h : exec i p s = (s', some a)) : exec i (p >>= k) s = exec i (k a) s' := by
  rw [exec_bind, h]

theorem after_discard (p : Task ι σ α) (s : σ) :
    after i (p >>= fun _ => pure ()) s = p.after i s := by
  rw [after, after, exec_bind]
  rcases exec i p s with ⟨s', result⟩
  cases result with
  | none | some a => rfl

/-! ## A task among others -/

/-- Every step of the task keeps the invariant, whatever happened since its last
one, and what it returns satisfies `Q`. -/
def Keeps (I : σ → Prop) : Task ι σ α → (α → Prop) → Prop
  | done a, Q => Q a
  | step act next, Q => ∀ i s s', I s → act i s = some s' → I s' ∧ (next i s).Keeps I Q

/-- Every step of the task that is taken where `C` holds is an `R`, whatever happened
since its last one, and what it returns satisfies `Q`. -/
def Moves (C : ι → σ → Prop) (R : σ → σ → Prop) : Task ι σ α → (α → Prop) → Prop
  | done a, Q => Q a
  | step act next, Q => ∀ i s s', C i s → act i s = some s' → R s s' ∧ (next i s).Moves C R Q

section Rules

variable {C : ι → σ → Prop} {R : σ → σ → Prop} {Q : α → Prop}

theorem moves_pure {a : α} (h : Q a) : (pure a : Task ι σ α).Moves C R Q := h

theorem moves_bind {p : Task ι σ β} {k : β → Task ι σ α} {B : β → Prop} (hp : p.Moves C R B)
    (hk : ∀ b, B b → (k b).Moves C R Q) : (p >>= k).Moves C R Q := by
  induction p with
  | done b => exact hk b hp
  | step act next ih =>
    intro i s s' hs hact
    obtain ⟨hstep, hnext⟩ := hp i s s' hs hact
    exact ⟨hstep, ih i s hnext⟩

theorem moves_atomically {f : ι → σ → σ × α} (h : ∀ i s, C i s → R s (f i s).1 ∧ Q (f i s).2) :
    (atomically f).Moves C R Q := by
  intro i s s' hs hact
  obtain rfl : (f i s).1 = s' := some.inj hact
  exact h i s hs

theorem moves_modify {f : σ → σ} {Q : Unit → Prop} (h : ∀ i s, C i s → R s (f s)) (hQ : Q ()) :
    (modify f : Task ι σ Unit).Moves C R Q :=
  moves_atomically fun i s hs => ⟨h i s hs, hQ⟩

theorem moves_await [Inhabited α] {f : ι → σ → Option (σ × α)}
    (h : ∀ i s s' a, C i s → f i s = some (s', a) → R s s' ∧ Q a) : (await f).Moves C R Q := by
  intro i s s' hs hact
  obtain ⟨⟨s'', a⟩, hf, rfl⟩ := map_eq_some_iff.mp hact
  simp only [hf]
  exact h i s s'' a hs hf

theorem moves_panicked [Inhabited α] : (panicked : Task ι σ α).Moves C R Q :=
  fun _ _ _ _ hact => nomatch hact

theorem moves_each {f : β → Task ι σ Unit} {bs : List β}
    (h : ∀ b ∈ bs, (f b).Moves C R fun _ => True) : (each f bs).Moves C R fun _ => True := by
  induction bs with
  | nil => exact moves_pure trivial
  | cons b bs ih =>
    refine moves_bind (h b (.head _)) fun _ _ => ih fun b' hb' => h b' (.tail _ hb')

theorem Moves.zoom {τ : Type} {get : τ → σ} {set : σ → τ → τ} {C' : ι → τ → Prop}
    {R' : τ → τ → Prop} {p : Task ι σ α} (h : p.Moves C R Q) (hC : ∀ i t, C' i t → C i (get t))
    (hR : ∀ i t s', C' i t → R (get t) s' → R' t (set s' t)) :
    (p.zoom get set).Moves C' R' Q := by
  induction p with
  | done a => exact h
  | step act next ih =>
    intro i t t' ht hact
    obtain ⟨s', hs', rfl⟩ := map_eq_some_iff.mp hact
    obtain ⟨hstep, hnext⟩ := h i (get t) s' (hC i t ht) hs'
    exact ⟨hR i t s' ht hstep, ih i (get t) hnext⟩

theorem Moves.keeps {I : σ → Prop} {p : Task ι σ α} (h : p.Moves C R Q)
    (hC : ∀ i s, I s → C i s) (hR : ∀ s s', I s → R s s' → I s') : p.Keeps I Q := by
  induction p with
  | done a => exact h
  | step act next ih =>
    intro i s s' hs hact
    obtain ⟨hstep, hnext⟩ := h i s s' (hC i s hs) hact
    exact ⟨hR s s' hs hstep, ih i s hnext⟩

theorem moves_read [Std.Refl R] {f : σ → α} (h : ∀ i s, C i s → Q (f s)) :
    (read f : Task ι σ α).Moves C R Q :=
  moves_atomically fun i s hs => ⟨Std.Refl.refl s, h i s hs⟩

end Rules

/-! ## What a task leaves alone -/

/-- No step of the task changes what `v` shows of the state. -/
def Leaves {ν : Type} (v : σ → ν) : Task ι σ α → Prop
  | done _ => True
  | step act next => ∀ i s s', act i s = some s' → v s' = v s ∧ (next i s).Leaves v

section Leaves

variable {ν μ : Type} {v : σ → ν}

theorem leaves_pure {a : α} : (pure a : Task ι σ α).Leaves v := trivial

theorem leaves_bind {p : Task ι σ β} {k : β → Task ι σ α} (hp : p.Leaves v)
    (hk : ∀ b, (k b).Leaves v) : (p >>= k).Leaves v := by
  induction p with
  | done b => exact hk b
  | step act next ih =>
    intro i s s' hact
    obtain ⟨hv, hnext⟩ := hp i s s' hact
    exact ⟨hv, ih i s hnext⟩

theorem leaves_atomically {f : ι → σ → σ × α} (h : ∀ i s, v (f i s).1 = v s) :
    (atomically f).Leaves v := by
  intro i s s' hact
  obtain rfl : (f i s).1 = s' := some.inj hact
  exact ⟨h i s, trivial⟩

theorem leaves_read {f : σ → α} : (read f : Task ι σ α).Leaves v :=
  leaves_atomically fun _ _ => rfl

theorem leaves_modify {f : σ → σ} (h : ∀ s, v (f s) = v s) : (modify f : Task ι σ Unit).Leaves v :=
  leaves_atomically fun _ s => h s

theorem leaves_input : (input : Task ι σ ι).Leaves v := leaves_atomically fun _ _ => rfl

theorem leaves_await [Inhabited α] {f : ι → σ → Option (σ × α)}
    (h : ∀ i s r, f i s = some r → v r.1 = v s) : (await f).Leaves v := by
  intro i s s' hact
  obtain ⟨r, hr, rfl⟩ := map_eq_some_iff.mp hact
  exact ⟨h i s r hr, trivial⟩

theorem leaves_panicked [Inhabited α] : (panicked : Task ι σ α).Leaves v :=
  fun _ _ _ hact => nomatch hact

theorem leaves_each {f : β → Task ι σ Unit} {bs : List β} (h : ∀ b, (f b).Leaves v) :
    (each f bs).Leaves v := by
  induction bs with
  | nil => exact leaves_pure
  | cons b bs ih => exact leaves_bind (h b) fun _ => ih

/-- A task over a part leaves alone what is not shown of that part. -/
theorem leaves_zoom {τ : Type} {get : τ → σ} {set : σ → τ → τ} {w : τ → μ}
    (h : ∀ s t, w (set s t) = w t) (p : Task ι σ α) : (p.zoom get set).Leaves w := by
  induction p with
  | done a => trivial
  | step act next ih =>
    intro i t t' hact
    obtain ⟨s', -, rfl⟩ := map_eq_some_iff.mp hact
    exact ⟨h s' t, ih i (get t)⟩

variable {p : Task ι σ α}

theorem Leaves.comp (w : ν → μ) (h : p.Leaves v) : p.Leaves fun s => w (v s) := by
  induction p with
  | done a => trivial
  | step act next ih =>
    intro i s s' hact
    obtain ⟨hv, hnext⟩ := h i s s' hact
    exact ⟨congrArg w hv, ih i s hnext⟩

theorem Leaves.pair {w : σ → μ} (h : p.Leaves v) (h' : p.Leaves w) :
    p.Leaves fun s => (v s, w s) := by
  induction p with
  | done a => trivial
  | step act next ih =>
    intro i s s' hact
    obtain ⟨hv, hnext⟩ := h i s s' hact
    obtain ⟨hw, hnext'⟩ := h' i s s' hact
    exact ⟨congrArg₂ Prod.mk hv hw, ih i s hnext hnext'⟩

/-- A step that leaves something alone is a move, if nothing else matters. -/
theorem Leaves.moves {C : ι → σ → Prop} {R : σ → σ → Prop} (h : p.Leaves v)
    (hR : ∀ s s', v s' = v s → R s s') : p.Moves C R fun _ => True := by
  induction p with
  | done a => trivial
  | step act next ih =>
    intro i s s' _ hact
    obtain ⟨hv, hnext⟩ := h i s s' hact
    exact ⟨hR s s' hv, ih i s hnext⟩

theorem Leaves.after_eq (h : p.Leaves v) (i : ι) (s : σ) : v (p.after i s) = v s := by
  unfold after
  induction p generalizing s with
  | done a => rfl
  | step act next ih =>
    simp only [exec]
    cases hact : act i s with
    | none => rfl
    | some s' =>
      obtain ⟨hv, hnext⟩ := h i s s' hact
      exact (ih i s hnext s').trans hv

end Leaves

/-! ## Tasks over a part of the state -/

/-- Seen on a part of the state, the task does step by step what `q` does there, and its result is
related to that of `q`. -/
def Projects {τ : Type} (get : τ → σ) (r : α → β → Prop) : Task ι τ α → Task ι σ β → Prop
  | done a, q => ∃ b, q = done b ∧ r a b
  | step act next, q => ∀ i t t', act i t = some t' →
      (get t' = get t ∧ (next i t).Projects get r q) ∨
        ∃ act' next', q = step act' next' ∧ act' i (get t) = some (get t') ∧
          (next i t).Projects get r (next' i (get t))

section Projects

variable {τ γ δ : Type} {get : τ → σ} {r : α → β → Prop} {r' : γ → δ → Prop}

theorem projects_pure {a : α} {b : β} (h : r a b) :
    (pure a : Task ι τ α).Projects get r (pure b : Task ι σ β) := ⟨b, rfl, h⟩

variable {p : Task ι τ α} {k : α → Task ι τ γ}

theorem projects_bind {q : Task ι σ β} {l : β → Task ι σ δ} (hp : p.Projects get r q)
    (hk : ∀ a b, r a b → (k a).Projects get r' (l b)) : (p >>= k).Projects get r' (q >>= l) := by
  induction p generalizing q with
  | done a =>
    obtain ⟨b, rfl, hr⟩ := hp
    exact hk a b hr
  | step act next ih =>
    intro i t t' hact
    rcases hp i t t' hact with ⟨hget, hnext⟩ | ⟨act', next', rfl, hact', hnext⟩
    · exact .inl ⟨hget, ih i t hnext⟩
    · exact .inr ⟨act', fun i s => (next' i s).bind l, rfl, hact', ih i t hnext⟩

/-- What comes after the last step of `q` does not show. -/
theorem Projects.bind_pure {q : Task ι σ δ} {r₀ : α → δ → Prop} (hp : p.Projects get r₀ q)
    (hk : ∀ a d, r₀ a d → (k a).Projects get r' (pure d)) : (p >>= k).Projects get r' q := by
  rw [← Task.bind_pure q]
  exact projects_bind hp hk

/-- What leaves the part alone does not show there. -/
theorem Leaves.projects_bind {q : Task ι σ δ} (hp : p.Leaves get)
    (hk : ∀ a, (k a).Projects get r' q) : (p >>= k).Projects get r' q := by
  induction p with
  | done a => exact hk a
  | step act next ih =>
    intro i t t' hact
    obtain ⟨hget, hnext⟩ := hp i t t' hact
    exact .inl ⟨hget, ih i t hnext⟩

theorem Leaves.projects_pure (hp : p.Leaves get) {b : β} (hr : ∀ a, r a b) :
    p.Projects get r (pure b : Task ι σ β) := by
  rw [← Task.bind_pure p]
  exact hp.projects_bind fun a => Task.projects_pure (hr a)

theorem Projects.imp {q : Task ι σ β} {r₀ : α → β → Prop} (hp : p.Projects get r₀ q)
    (hr : ∀ a b, r₀ a b → r a b) : p.Projects get r q := by
  rw [← Task.bind_pure p]
  exact hp.bind_pure fun a b hab => projects_pure (hr a b hab)

theorem projects_zoom {set : σ → τ → τ} (hget : ∀ s t, get (set s t) = s) (p : Task ι σ α) :
    (p.zoom get set).Projects get Eq p := by
  induction p with
  | done a => exact ⟨a, rfl, rfl⟩
  | step act next ih =>
    intro i t t' hact
    obtain ⟨s', hs', rfl⟩ := map_eq_some_iff.mp hact
    refine .inr ⟨act, next, rfl, ?_, ih i (get t)⟩
    rw [hget]
    exact hs'

theorem projects_input : (input : Task ι τ ι).Projects get Eq (input : Task ι σ ι) := by
  intro i t t' hact
  obtain rfl : t = t' := some.inj hact
  exact .inr ⟨_, _, rfl, rfl, i, rfl, rfl⟩

end Projects

end Task

/-! ## Interleavings -/

/-- The shared state and the tasks that have been started. -/
structure Sys (ι σ : Type) where
  state : σ
  tasks : List (Task ι σ Unit)

/-- What happens next: an event that starts a task, or a step of a started one. -/
inductive Choice (ι ε : Type) : Type where
  | start (e : ε)
  | run (k : Nat) (i : ι)

namespace Sys

variable {ι σ ε : Type}

/-- The system after a choice, unless it is impossible.  `env` says what an event
does to the state and which task it starts. -/
def next (env : ε → σ → Option (σ × Task ι σ Unit)) (S : Sys ι σ) :
    Choice ι ε → Option (Sys ι σ)
  | .start e => (env e S.state).map fun r => ⟨r.1, S.tasks ++ [r.2]⟩
  | .run k i =>
      match S.tasks[k]? with
      | some (.step act next) =>
          (act i S.state).map fun s' => ⟨s', S.tasks.set k (next i S.state)⟩
      | _ => none

/-- The systems that runs reach in which every event meets `P` when it happens. -/
inductive Reaches (env : ε → σ → Option (σ × Task ι σ Unit)) (P : σ → ε → Prop)
    (S₀ : Sys ι σ) : Sys ι σ → Prop
  | refl : Reaches env P S₀ S₀
  | start {S S' : Sys ι σ} (e : ε) (h : Reaches env P S₀ S) (he : P S.state e)
      (hnext : S.next env (.start e) = some S') : Reaches env P S₀ S'
  | run {S S' : Sys ι σ} (k : Nat) (i : ι) (h : Reaches env P S₀ S)
      (hnext : S.next env (.run k i) = some S') : Reaches env P S₀ S'

variable {env : ε → σ → Option (σ × Task ι σ Unit)} {P : σ → ε → Prop}
variable {S S' S₀ : Sys ι σ} {s₀ : σ} {l : List (σ × σ)}

/-- What a choice does: it starts the task of an event, or takes one step of a task. -/
theorem next_cases {c : Choice ι ε} (h : S.next env c = some S') :
    (∃ e s' p, c = .start e ∧ env e S.state = some (s', p) ∧ S' = ⟨s', S.tasks ++ [p]⟩) ∨
      ∃ k i act nextOf s', c = .run k i ∧ S.tasks[k]? = some (.step act nextOf) ∧
        act i S.state = some s' ∧ S' = ⟨s', S.tasks.set k (nextOf i S.state)⟩ := by
  cases c with
  | start e =>
    obtain ⟨⟨s', p⟩, henv, rfl⟩ := map_eq_some_iff.mp h
    exact .inl ⟨e, s', p, rfl, henv, rfl⟩
  | run k i =>
    simp only [next] at h
    split at h
    · rename_i act nextOf hk
      obtain ⟨s', hact, rfl⟩ := map_eq_some_iff.mp h
      exact .inr ⟨k, i, act, nextOf, s', rfl, hk, hact, rfl⟩
    · cases h

/-- What holds of the task an event starts, and of the rest of a task once a step is taken, holds
of every task. -/
theorem forall_tasks_of_next {T : Task ι σ Unit → Prop} {c : Choice ι ε}
    (hnext : S.next env c = some S') (hS : ∀ p ∈ S.tasks, T p)
    (hstart : ∀ e s' p, c = .start e → env e S.state = some (s', p) → T p)
    (hrun : ∀ k i act nextOf s', c = .run k i → T (.step act nextOf) → act i S.state = some s' →
      T (nextOf i S.state)) : ∀ p ∈ S'.tasks, T p := by
  obtain ⟨e, s', p, hc, hp, rfl⟩ | ⟨k, i, act, nextOf, s', hc, hk, hact, rfl⟩ := next_cases hnext
  · exact forall_mem_append.mpr ⟨hS, forall_mem_singleton.mpr (hstart e s' p hc hp)⟩
  · intro q hq
    rcases mem_or_eq_of_mem_set hq with hold | rfl
    · exact hS q hold
    · exact hrun k i act nextOf s' hc (hS _ (mem_of_getElem? hk)) hact

/-- An invariant that every event keeps, and every task that an event starts,
holds in every state reached. -/
theorem Reaches.invariant {I : σ → Prop} (h₀ : I s₀)
    (henv : ∀ e s s' p, I s → P s e → env e s = some (s', p) →
      I s' ∧ p.Keeps I fun _ => True) (h : Reaches env P ⟨s₀, []⟩ S) : I S.state := by
  suffices h' : I S.state ∧ ∀ p ∈ S.tasks, p.Keeps I fun _ => True from h'.1
  induction h with
  | refl => exact ⟨h₀, fun _ hp => nomatch hp⟩
  | @start S S' e _ he hnext ih =>
    obtain ⟨⟨s', p⟩, henv', rfl⟩ := map_eq_some_iff.mp hnext
    refine ⟨(henv e _ s' p ih.1 he henv').1, forall_tasks_of_next hnext ih.2 ?_ ?_⟩
    · intro e' s'' q hc hq
      cases hc
      exact (henv e _ s'' q ih.1 he hq).2
    · exact fun _ _ _ _ _ hc => nomatch hc
  | @run S S' k i _ hnext ih =>
    constructor
    · obtain ⟨_, _, _, hc, -⟩ | ⟨k, i, act, nextOf, s', -, hk, hact, rfl⟩ := next_cases hnext
      · cases hc
      · exact (ih.2 _ (mem_of_getElem? hk) i S.state s' ih.1 hact).1
    · refine forall_tasks_of_next hnext ih.2 (fun _ _ _ hc => nomatch hc) ?_
      intro k i act nextOf s' _ hkeeps hact
      exact (hkeeps i S.state s' ih.1 hact).2

/-! ### Histories -/

/-- A run in which every choice meets `K`, with the states before and after each of
its steps. -/
inductive Trail (env : ε → σ → Option (σ × Task ι σ Unit)) (K : σ → Choice ι ε → Prop)
    (S₀ : Sys ι σ) : List (σ × σ) → Sys ι σ → Prop
  | refl : Trail env K S₀ [] S₀
  | step {l : List (σ × σ)} {S S' : Sys ι σ} (c : Choice ι ε) (h : Trail env K S₀ l S)
      (hc : K S.state c) (hnext : S.next env c = some S') :
      Trail env K S₀ (l ++ [(S.state, S'.state)]) S'

variable {K : σ → Choice ι ε → Prop}

theorem Trail.trans {l' : List (σ × σ)} (h : Trail env K S₀ l S) (h' : Trail env K S l' S') :
    Trail env K S₀ (l ++ l') S' := by
  induction h' with
  | refl => rwa [append_nil]
  | step c _ hc hnext ih =>
    rw [← append_assoc]
    exact .step c ih hc hnext

/-- If every event is an `R` and every step of a task that an event starts, then so is
every step of every run.  `I` is an invariant that the steps may rely on. -/
theorem Trail.moves {I : σ → Prop} {C : ι → σ → Prop} {R : σ → σ → Prop} (h₀ : I s₀)
    (hI : ∀ s s', I s → R s s' → I s') (hC : ∀ s k i, I s → K s (.run k i) → C i s)
    (henv : ∀ e s s' p, I s → K s (.start e) → env e s = some (s', p) →
      R s s' ∧ p.Moves C R fun _ => True) (h : Trail env K ⟨s₀, []⟩ l S) : ∀ m ∈ l, R m.1 m.2 := by
  suffices h' : (∀ m ∈ l, R m.1 m.2) ∧ I S.state ∧
    ∀ p ∈ S.tasks, p.Moves C R fun _ => True from h'.1
  induction h with
  | refl => exact ⟨fun _ hm => (nomatch hm), h₀, fun _ hp => nomatch hp⟩
  | @step l S S' c _ hc hnext ih =>
    obtain ⟨hl, hS, htasks⟩ := ih
    have hstep : R S.state S'.state := by
      obtain ⟨e, s', p, rfl, hp, rfl⟩ | ⟨k, i, act, nextOf, s', rfl, hk, hact, rfl⟩ :=
        next_cases hnext
      · exact (henv e _ s' p hS hc hp).1
      · exact (htasks _ (mem_of_getElem? hk) i S.state s' (hC _ k i hS hc) hact).1
    refine ⟨forall_mem_append.mpr ⟨hl, forall_mem_singleton.mpr hstep⟩, hI _ _ hS hstep,
      forall_tasks_of_next hnext htasks ?_ ?_⟩
    · rintro e s' p rfl hp
      exact (henv e _ s' p hS hc hp).2
    · rintro k i act nextOf s' rfl hmoves hact
      exact (hmoves i S.state s' (hC _ k i hS hc) hact).2

/-- What holds of every task an event starts, and of the rest of a task once a step is taken
where the run has got to, holds of every task of a run. -/
theorem Trail.forall_tasks {T : Task ι σ Unit → Prop}
    (hstart : ∀ l S, Trail env K ⟨s₀, []⟩ l S → ∀ e s' p, env e S.state = some (s', p) → T p)
    (hrun : ∀ l S, Trail env K ⟨s₀, []⟩ l S → ∀ act nextOf i s', T (.step act nextOf) →
      act i S.state = some s' → T (nextOf i S.state)) (h : Trail env K ⟨s₀, []⟩ l S) :
    ∀ p ∈ S.tasks, T p := by
  induction h with
  | refl => exact fun _ hp => nomatch hp
  | @step l S S' c h _ hnext ih =>
    refine forall_tasks_of_next hnext ih ?_ ?_
    · exact fun e s' p _ hp => hstart l S h e s' p hp
    · exact fun _ i act nextOf s' _ hT hact => hrun l S h act nextOf i s' hT hact

theorem Trail.imp {K' : σ → Choice ι ε → Prop} (hK : ∀ s c, K s c → K' s c)
    (h : Trail env K S₀ l S) : Trail env K' S₀ l S := by
  induction h with
  | refl => exact .refl
  | step c _ hc hnext ih => exact .step c ih (hK _ c hc) hnext

theorem Trail.reaches (h : Trail env K S l S') (h₀ : Reaches env P S₀ S)
    (hP : ∀ s e, K s (.start e) → P s e) : Reaches env P S₀ S' := by
  induction h with
  | refl => exact h₀
  | step c _ hc hnext ih =>
    cases c with
    | start e => exact .start e ih (hP _ e hc) hnext
    | run k i => exact .run k i ih hnext

theorem Trail.isChain (h : Trail env K S₀ l S) :
    l.IsChain (fun m m' => m'.1 = m.2) ∧ ∀ m ∈ l.getLast?, S.state = m.2 := by
  induction h with
  | refl => exact ⟨.nil, fun _ hm => nomatch hm⟩
  | step c _ _ _ ih =>
    refine ⟨isChain_append.mpr ⟨ih.1, .singleton _, fun m hm m' hm' => ?_⟩, fun m hm => ?_⟩
    · cases hm'
      exact ih.2 m hm
    · rw [getLast?_concat] at hm
      cases hm
      rfl

/-- A started task may go on by itself, and no other. -/
theorem exists_trail_of_alone {i : ι} {P : σ × σ → Prop} {k : Nat} {p : Task ι σ Unit} {s : σ}
    (hp : S.tasks[k]? = some p) (h : p.Alone i P S.state s) :
    ∃ l S', Trail env (fun _ _ => True) S l S' ∧ S'.state = s ∧ ∀ m ∈ l, P m := by
  induction p generalizing S with
  | done a => exact ⟨[], S, .refl, h, fun _ hm => nomatch hm⟩
  | step act next ih =>
    simp only [Task.Alone] at h
    cases hact : act i S.state with
    | none => exact ⟨[], S, .refl, by rwa [hact] at h, fun _ hm => nomatch hm⟩
    | some s' =>
      rw [hact] at h
      have hnext : S.next env (.run k i) = some ⟨s', S.tasks.set k (next i S.state)⟩ := by
        simp [Sys.next, hp, hact]
      have hlt : k < S.tasks.length := (List.getElem?_eq_some_iff.mp hp).1
      obtain ⟨l, S', htrail, hstate, hl⟩ := ih i S.state
        (S := ⟨s', S.tasks.set k (next i S.state)⟩) (getElem?_set_self hlt) h.2
      exact ⟨_, S', (Trail.step _ .refl trivial hnext).trans htrail, hstate,
        forall_mem_cons.mpr ⟨h.1, hl⟩⟩

/-- An event happens and then its task alone, in steps that are `P`. -/
def Leads (env : ε → σ → Option (σ × Task ι σ Unit)) (i : ι) (P : σ × σ → Prop) (s s' : σ) : Prop :=
  ∃ e s₁ p, env e s = some (s₁, p) ∧ P (s, s₁) ∧ p.Alone i P s₁ s'

theorem exists_trail_of_leads {i : ι} {P : σ × σ → Prop} {s : σ}
    (h : Relation.ReflTransGen (Leads env i P) s₀ s) :
    ∃ l S, Trail env (fun _ _ => True) ⟨s₀, []⟩ l S ∧ S.state = s ∧ ∀ m ∈ l, P m := by
  induction h with
  | refl => exact ⟨[], _, .refl, rfl, fun _ hm => nomatch hm⟩
  | tail _ hleads ih =>
    obtain ⟨l, S, htrail, rfl, hl⟩ := ih
    obtain ⟨e, s₁, p, hstart, hfirst, halone⟩ := hleads
    have hnext : S.next env (.start e) = some ⟨s₁, S.tasks ++ [p]⟩ := by
      simp [Sys.next, hstart]
    obtain ⟨l', S', htrail', hstate, hl'⟩ := @exists_trail_of_alone ι σ ε env
      ⟨s₁, S.tasks ++ [p]⟩ i P _ p _ getElem?_concat_length halone
    exact ⟨_, S', (htrail.step _ trivial hnext).trans htrail', hstate, forall_mem_append.mpr
      ⟨forall_mem_append.mpr ⟨hl, forall_mem_singleton.mpr hfirst⟩, hl'⟩⟩

section Counter

-- a counter that no step of the run lowers
variable {μ : σ → Nat} {S₀ S : Sys ι σ} {l : List (σ × σ)}

theorem Trail.counter_le_end (h : Trail env K S₀ l S) (hμ : ∀ m ∈ l, μ m.1 ≤ μ m.2) :
    ∀ m ∈ l, μ m.2 ≤ μ S.state := by
  induction h with
  | refl => exact fun _ hm => nomatch hm
  | @step l S S' c _ _ _ ih =>
    rw [forall_mem_append, forall_mem_singleton] at hμ ⊢
    exact ⟨fun m hm => (ih hμ.1 m hm).trans hμ.2, Nat.le_refl _⟩

theorem Trail.counter_le (h : Trail env K S₀ l S) (hμ : ∀ m ∈ l, μ m.1 ≤ μ m.2) {i j : Nat}
    {m m' : σ × σ} (hlt : i < j) (hi : l[i]? = some m) (hj : l[j]? = some m') : μ m.2 ≤ μ m'.1 := by
  induction h with
  | refl => cases hi
  | @step l S S' c h _ _ ih =>
    have hold : ∀ m ∈ l, μ m.1 ≤ μ m.2 := fun m hm => hμ m (mem_append_left _ hm)
    have hj' : j < (l ++ [(S.state, S'.state)]).length := (List.getElem?_eq_some_iff.mp hj).1
    rw [length_append, length_singleton] at hj'
    have hi' : l[i]? = some m := by rwa [getElem?_append_left (by omega)] at hi
    rcases Nat.lt_or_eq_of_le (Nat.le_of_lt_succ hj') with hbefore | rfl
    · rw [getElem?_append_left hbefore] at hj
      exact ih hold hi' hj
    · rw [getElem?_concat_length] at hj
      cases hj
      exact h.counter_le_end hold m (mem_of_getElem? hi')

/-- What takes the counter from below `k` to `k` or above happens at most once. -/
theorem Trail.at_most_once {A : σ → σ → Prop} {k : Nat} (h : Trail env K S₀ l S)
    (hμ : ∀ m ∈ l, μ m.1 ≤ μ m.2) (hA : ∀ s s', A s s' → μ s < k ∧ k ≤ μ s') {i j : Nat}
    {m m' : σ × σ} (hi : l[i]? = some m) (hj : l[j]? = some m') (hm : A m.1 m.2)
    (hm' : A m'.1 m'.2) : i = j := by
  obtain ⟨hbelow, habove⟩ := hA _ _ hm
  obtain ⟨hbelow', habove'⟩ := hA _ _ hm'
  rcases Nat.lt_trichotomy i j with hlt | heq | hgt
  · have hle := h.counter_le hμ hlt hi hj
    omega
  · exact heq
  · have hle := h.counter_le hμ hgt hj hi
    omega

end Counter

/-! ### Concrete runs -/

/-- Follow a list of choices, as far as its events pass `ok`. -/
def play (env : ε → σ → Option (σ × Task ι σ Unit)) (ok : σ → ε → Bool) :
    Sys ι σ → List (Choice ι ε) → Option (Sys ι σ)
  | S, [] => some S
  | S, .start e :: cs =>
      if ok S.state e then (S.next env (.start e)).bind fun S' => play env ok S' cs else none
  | S, .run k i :: cs => (S.next env (.run k i)).bind fun S' => play env ok S' cs

theorem reaches_of_play {ok : σ → ε → Bool} (hok : ∀ s e, ok s e = true → P s e)
    {cs : List (Choice ι ε)} (h : Reaches env P S₀ S) (hplay : play env ok S cs = some S') :
    Reaches env P S₀ S' := by
  induction cs generalizing S with
  | nil =>
    obtain rfl : S = S' := some.inj hplay
    exact h
  | cons c cs ih =>
    cases c with
    | start e =>
      simp only [play] at hplay
      split at hplay
      · rename_i he
        obtain ⟨S₁, hnext, hrest⟩ := bind_eq_some_iff.mp hplay
        exact ih (.start e h (hok _ _ he) hnext) hrest
      · cases hplay
    | run k i =>
      obtain ⟨S₁, hnext, hrest⟩ := bind_eq_some_iff.mp hplay
      exact ih (.run k i h hnext) hrest

/-- Follow a list of choices, as far as they pass `ok`, and keep the states passed. -/
def follow (env : ε → σ → Option (σ × Task ι σ Unit)) (ok : σ → Choice ι ε → Bool) :
    Sys ι σ → List (Choice ι ε) → Option (List (σ × σ) × Sys ι σ)
  | S, [] => some ([], S)
  | S, c :: cs =>
      if ok S.state c then
        (S.next env c).bind fun S' =>
          (follow env ok S' cs).map fun r => ((S.state, S'.state) :: r.1, r.2)
      else none

theorem trail_of_follow {ok : σ → Choice ι ε → Bool} (hok : ∀ s c, ok s c = true → K s c)
    {cs : List (Choice ι ε)} (h : follow env ok S cs = some (l, S')) : Trail env K S l S' := by
  induction cs generalizing S l with
  | nil =>
    cases h
    exact .refl
  | cons c cs ih =>
    simp only [follow] at h
    split at h
    · rename_i hc
      obtain ⟨S₁, hnext, hrest⟩ := bind_eq_some_iff.mp h
      obtain ⟨⟨l', S₂⟩, hfollow, heq⟩ := map_eq_some_iff.mp hrest
      cases heq
      exact (Trail.step c .refl (hok _ _ hc) hnext).trans (ih hfollow)
    · cases h

end Sys

end ProximityMesh
