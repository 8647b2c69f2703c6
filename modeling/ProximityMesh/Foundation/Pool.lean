/-
  Foundation/Pool.lean --- pools of tagged tasks, and outlines of what they do.

  A pool is a shared state with the tasks that have been started on it, each under the
  tag it was started with, so that a condition on a start can look at what is still
  running.  `Excludes` is the one used here: what opposes the new task has ended.

  An `Outline` describes the tasks by control points and by what they do to a view of
  the state on the way from one point to the next.  `Task.Refines` says that a task
  follows its outline, up to steps that leave the view alone, and `Reaches.outlined`
  that every run of a pool is then a run of the outline.

  The last section is about flags that several writers set to a value, one flag after
  the other in a fixed order.
-/
import ProximityMesh.Foundation.Task

set_option autoImplicit false

namespace ProximityMesh

open List

variable {ι σ τ ν A α β : Type}

/-! ## Pools -/

/-- The task will take no further step: it has returned or it has panicked. -/
def Task.Ended : Task ι σ α → Prop
  | .done _ => True
  | .step act _ => ∀ i s, act i s = none

def Task.returned : Task ι σ α → Bool
  | .done _ => true
  | .step _ _ => false

theorem Task.ended_of_returned {p : Task ι σ α} (h : p.returned = true) : p.Ended := by
  cases p with
  | done x => exact trivial
  | step act next => cases h

/-- Every step of the task leaves the view alone, but for the last one, which is in `R`. -/
def Task.Closes (v : σ → ν) (R : ν → ν → Prop) : Task ι σ α → Prop
  | .done _ => False
  | .step act next => ∀ i s s', act i s = some s' →
      (v s' = v s ∧ (next i s).Closes v R) ∨ (R (v s) (v s') ∧ (next i s).returned = true)

variable {v : σ → ν} {R : ν → ν → Prop}

theorem Task.closes_bind {p : Task ι σ β} {k : β → Task ι σ α} (hp : p.Leaves v)
    (hk : ∀ b, (k b).Closes v R) : (p >>= k).Closes v R := by
  induction p with
  | done b => exact hk b
  | step act next ih =>
    intro i s s' hact
    obtain ⟨hv, hnext⟩ := hp i s s' hact
    exact .inl ⟨hv, ih i s hnext⟩

theorem Task.closes_modify {f : σ → σ} (h : ∀ s, R (v s) (v (f s))) :
    (Task.modify f : Task ι σ Unit).Closes v R := by
  intro i s s' hact
  obtain rfl : f s = s' := Option.some.inj hact
  exact .inr ⟨h s, rfl⟩

theorem Task.Closes.not_returned {p : Task ι σ α} (h : p.Closes v R) : p.returned = false := by
  cases p with
  | done a => exact h.elim
  | step act next => rfl

structure Thread (ι σ τ : Type) where
  tag : τ
  task : Task ι σ Unit

structure Pool (ι σ τ : Type) where
  state : σ
  threads : List (Thread ι σ τ)

namespace Pool

/-- The pool after a choice, unless it is impossible.  `body` is the task of a tag. -/
def next (body : τ → Task ι σ Unit) (S : Pool ι σ τ) : Choice ι τ → Option (Pool ι σ τ)
  | .start t => some ⟨S.state, S.threads ++ [⟨t, body t⟩]⟩
  | .run k i =>
      match S.threads[k]? with
      | some ⟨t, .step act next⟩ =>
          (act i S.state).map fun s' => ⟨s', S.threads.set k ⟨t, next i S.state⟩⟩
      | _ => none

/-- The pools that runs reach in which every start meets `K` when it happens. -/
inductive Reaches (body : τ → Task ι σ Unit) (K : Pool ι σ τ → τ → Prop) (s₀ : σ) :
    Pool ι σ τ → Prop
  | init : Reaches body K s₀ ⟨s₀, []⟩
  | start {S : Pool ι σ τ} (t : τ) (h : Reaches body K s₀ S) (ht : K S t) :
      Reaches body K s₀ ⟨S.state, S.threads ++ [⟨t, body t⟩]⟩
  | run {S S' : Pool ι σ τ} (k : Nat) (i : ι) (h : Reaches body K s₀ S)
      (hnext : S.next body (.run k i) = some S') : Reaches body K s₀ S'

/-- Whatever opposes the tag has ended. -/
def Excludes (opposes : τ → τ → Prop) (S : Pool ι σ τ) (t : τ) : Prop :=
  ∀ th ∈ S.threads, opposes th.tag t → th.task.Ended

/-- Nothing is running. -/
def AtRest (S : Pool ι σ τ) : Prop := ∀ th ∈ S.threads, th.task.Ended

def quiet (S : Pool ι σ τ) : Bool := S.threads.all fun th => th.task.returned

variable {S : Pool ι σ τ}

theorem atRest_of_quiet (h : S.quiet = true) : S.AtRest :=
  fun th hth => Task.ended_of_returned (all_eq_true.mp h th hth)

theorem AtRest.excludes (h : S.AtRest) (opposes : τ → τ → Prop) (t : τ) : S.Excludes opposes t :=
  fun th hth _ => h th hth

/-- Follow a list of choices, as far as its starts pass `ok`. -/
def play (body : τ → Task ι σ Unit) (ok : Pool ι σ τ → τ → Bool) :
    Pool ι σ τ → List (Choice ι τ) → Option (Pool ι σ τ)
  | S, [] => some S
  | S, .start t :: cs =>
      if ok S t then play body ok ⟨S.state, S.threads ++ [⟨t, body t⟩]⟩ cs else none
  | S, .run k i :: cs => (S.next body (.run k i)).bind fun S' => play body ok S' cs

theorem reaches_of_play {body : τ → Task ι σ Unit} {K : Pool ι σ τ → τ → Prop}
    {ok : Pool ι σ τ → τ → Bool} (hok : ∀ S t, ok S t = true → K S t) {s₀ : σ} {S' : Pool ι σ τ}
    {cs : List (Choice ι τ)} (h : Reaches body K s₀ S) (hplay : play body ok S cs = some S') :
    Reaches body K s₀ S' := by
  induction cs generalizing S with
  | nil =>
    obtain rfl : S = S' := Option.some.inj hplay
    exact h
  | cons c cs ih =>
    cases c with
    | start t =>
      simp only [play] at hplay
      split at hplay
      · rename_i ht
        exact ih (.start t h (hok S t ht)) hplay
      · cases hplay
    | run k i =>
      obtain ⟨S₁, hnext, hrest⟩ := Option.bind_eq_some_iff.mp hplay
      exact ih (.run k i h hnext) hrest

theorem exists_reaches_of_play (body : τ → Task ι σ Unit) {K : Pool ι σ τ → τ → Prop}
    (ok : Pool ι σ τ → τ → Bool) (hok : ∀ S t, ok S t = true → K S t) (s₀ : σ)
    (cs : List (Choice ι τ)) (check : Pool ι σ τ → Bool)
    (h : (play body ok ⟨s₀, []⟩ cs).any check = true) :
    ∃ S, Reaches body K s₀ S ∧ check S = true := by
  obtain ⟨S, hplay, hcheck⟩ := (Option.any_eq_true _ _).mp h
  exact ⟨S, reaches_of_play hok .init hplay, hcheck⟩

theorem exists_of_next_run {body : τ → Task ι σ Unit} {S' : Pool ι σ τ} {k : Nat} {i : ι}
    (h : S.next body (.run k i) = some S') :
    ∃ t act nextOf s', S.threads[k]? = some ⟨t, .step act nextOf⟩ ∧ act i S.state = some s' ∧
      S' = ⟨s', S.threads.set k ⟨t, nextOf i S.state⟩⟩ := by
  simp only [next] at h
  split at h
  · rename_i t act nextOf hk
    obtain ⟨s', hact, rfl⟩ := Option.map_eq_some_iff.mp h
    exact ⟨t, act, nextOf, s', hk, hact, rfl⟩
  · cases h

end Pool

/-! ## Outlines -/

/-- Control points of the tasks, and what the tasks do to a view of the state between
them. -/
structure Outline (ν τ A : Type) where
  start : τ → A
  Step : τ → A → ν → ν → A → Prop
  Final : A → Prop
  not_final : ∀ t a x x' a', Step t a x x' a' → ¬ Final a

namespace Outline

/-- The runs of an outline in which nothing starts before what opposes it has ended. -/
inductive Reaches (M : Outline ν τ A) (opposes : τ → τ → Prop) (x₀ : ν) :
    ν → List (τ × A) → Prop
  | init : Reaches M opposes x₀ x₀ []
  | start {x : ν} {l : List (τ × A)} (t : τ) (h : Reaches M opposes x₀ x l)
      (ht : ∀ e ∈ l, opposes e.1 t → M.Final e.2) : Reaches M opposes x₀ x (l ++ [(t, M.start t)])
  | step {x x' : ν} {l : List (τ × A)} {k : Nat} {t : τ} {a a' : A}
      (h : Reaches M opposes x₀ x l) (hk : l[k]? = some (t, a)) (hstep : M.Step t a x x' a') :
      Reaches M opposes x₀ x' (l.set k (t, a'))

variable {M : Outline ν τ A} {opposes : τ → τ → Prop} {x₀ x : ν} {l : List (τ × A)}

/-- Of two tasks that oppose each other one has ended. -/
theorem Reaches.exclusive (h : M.Reaches opposes x₀ x l) (hirrefl : ∀ t, ¬ opposes t t)
    (hsymm : ∀ t t', opposes t t' → opposes t' t) :
    ∀ e ∈ l, ∀ e' ∈ l, opposes e.1 e'.1 → M.Final e.2 ∨ M.Final e'.2 := by
  induction h with
  | init => exact fun _ he => absurd he not_mem_nil
  | start t _ ht ih =>
    simp only [forall_mem_append, forall_mem_singleton]
    exact ⟨fun e he => ⟨ih e he, fun hopp => .inl (ht e he hopp)⟩,
      fun e he hopp => .inr (ht e he (hsymm _ _ hopp)), fun hopp => absurd hopp (hirrefl t)⟩
  | @step x x' l k t a a' _ hk hstep ih =>
    have hmem := mem_of_getElem? hk
    have hrunning := M.not_final t a x x' a' hstep
    intro e he e' he' hopp
    rcases mem_or_eq_of_mem_set he with hold | rfl
    · rcases mem_or_eq_of_mem_set he' with hold' | rfl
      · exact ih e hold e' hold' hopp
      · exact .inl ((ih e hold (t, a) hmem hopp).resolve_right hrunning)
    · rcases mem_or_eq_of_mem_set he' with hold' | rfl
      · exact .inr ((ih (t, a) hmem e' hold' hopp).resolve_left hrunning)
      · exact absurd hopp (hirrefl t)

end Outline

/-! ## Tasks that follow an outline -/

namespace Task

/-- The task starts at control point `a`; each step leaves the view alone or is one of the
outline, a panic is at a control point in `F`, and at the end the result and the control point
satisfy `Q`. -/
def Refines (v : σ → ν) (M : A → ν → ν → A → Prop) (F : A → Prop) :
    Task ι σ α → A → (α → A → Prop) → Prop
  | done x, a, Q => Q x a
  | step act next, a, Q => ((∀ i s, act i s = none) → F a) ∧ ∀ i s s', act i s = some s' →
      (v s' = v s ∧ (next i s).Refines v M F a Q) ∨
        ∃ a', M a (v s) (v s') a' ∧ (next i s).Refines v M F a' Q

variable {v : σ → ν} {M : A → ν → ν → A → Prop} {F : A → Prop} {a : A} {Q : α → A → Prop}

theorem refines_pure {x : α} (h : Q x a) : (pure x : Task ι σ α).Refines v M F a Q := h

theorem refines_bind {p : Task ι σ β} {k : β → Task ι σ α} {B : β → A → Prop}
    (hp : p.Refines v M F a B) (hk : ∀ b a', B b a' → (k b).Refines v M F a' Q) :
    (p >>= k).Refines v M F a Q := by
  induction p generalizing a with
  | done b => exact hk b a hp
  | step act next ih =>
    refine ⟨hp.1, fun i s s' hact => ?_⟩
    rcases hp.2 i s s' hact with ⟨hv, hnext⟩ | ⟨a', hstep, hnext⟩
    · exact .inl ⟨hv, ih i s hnext⟩
    · exact .inr ⟨a', hstep, ih i s hnext⟩

/-- A step that leaves the view alone or is one of the outline. -/
theorem refines_atomically [Nonempty ι] [Nonempty σ] {f : ι → σ → σ × α}
    (h : ∀ i s, (v (f i s).1 = v s ∧ Q (f i s).2 a) ∨
      ∃ a', M a (v s) (v (f i s).1) a' ∧ Q (f i s).2 a') :
    (atomically f).Refines v M F a Q := by
  constructor
  · intro hblocked
    obtain ⟨i⟩ := ‹Nonempty ι›
    obtain ⟨s⟩ := ‹Nonempty σ›
    exact absurd (hblocked i s) (Option.some_ne_none _)
  · intro i s s' hact
    obtain rfl : (f i s).1 = s' := Option.some.inj hact
    exact h i s

theorem refines_panicked [Inhabited α] (h : F a) :
    (panicked : Task ι σ α).Refines v M F a Q :=
  ⟨fun _ => h, fun _ _ _ hact => absurd hact.symm (Option.some_ne_none _)⟩

/-- A task that leaves the view alone may run where a panic may happen. -/
theorem Leaves.refines {p : Task ι σ α} (h : p.Leaves v) (hF : F a) (hQ : ∀ x, Q x a) :
    p.Refines v M F a Q := by
  induction p with
  | done x => exact hQ x
  | step act next ih =>
    refine ⟨fun _ => hF, fun i s s' hact => ?_⟩
    obtain ⟨hv, hnext⟩ := h i s s' hact
    exact .inl ⟨hv, ih i s hnext⟩

theorem Refines.of_ended {p : Task ι σ α} (h : p.Refines v M F a fun _ => F) (hp : p.Ended) :
    F a := by
  cases p with
  | done x => exact h
  | step act next => exact h.1 hp

end Task

/-- The thread is at control point `e.2` of what the outline says of its tag. -/
def Outline.Describes (M : Outline ν τ A) (v : σ → ν) (th : Thread ι σ τ) (e : τ × A) : Prop :=
  th.tag = e.1 ∧ th.task.Refines v (M.Step e.1) M.Final e.2 fun _ => M.Final

theorem Outline.Describes.final {M : Outline ν τ A} {th : Thread ι σ τ} {e : τ × A}
    (h : M.Describes v th e) (hth : th.task.Ended) : M.Final e.2 := h.2.of_ended hth

theorem eq_or_mem_set {l : List α} {k : Nat} {a b e : α} (hk : l[k]? = some a) (he : e ∈ l) :
    e = a ∨ e ∈ l.set k b := by
  obtain ⟨i, hi⟩ := mem_iff_getElem?.mp he
  rcases Decidable.em (i = k) with rfl | hne
  · exact .inl (Option.some.inj (hi.symm.trans hk))
  · refine .inr (mem_iff_getElem?.mpr ⟨i, ?_⟩)
    rw [getElem?_set_ne (Ne.symm hne)]
    exact hi

theorem exists_left_of_forall₂ {R : α → β → Prop} {as : List α} {bs : List β}
    (h : List.Forall₂ R as bs) {b : β} (hb : b ∈ bs) : ∃ a ∈ as, R a b := by
  obtain ⟨k, hk⟩ := mem_iff_getElem?.mp hb
  obtain ⟨hlt, rfl⟩ := List.getElem?_eq_some_iff.mp hk
  exact ⟨as.get ⟨k, h.length_eq ▸ hlt⟩, get_mem _ _, h.get _ hlt⟩

/-- Every run of a pool whose tasks follow an outline is a run of the outline. -/
theorem Pool.Reaches.outlined {body : τ → Task ι σ Unit} {opposes : τ → τ → Prop} {s₀ : σ}
    {M : Outline ν τ A}
    (hbody : ∀ t, (body t).Refines v (M.Step t) M.Final (M.start t) fun _ => M.Final)
    {S : Pool ι σ τ} (h : Pool.Reaches body (Pool.Excludes opposes) s₀ S) :
    ∃ l, M.Reaches opposes (v s₀) (v S.state) l ∧ List.Forall₂ (M.Describes v) S.threads l := by
  induction h with
  | init => exact ⟨[], .init, .nil⟩
  | @start S t _ ht ih =>
    obtain ⟨l, hl, hdesc⟩ := ih
    refine ⟨l ++ [(t, M.start t)], .start t hl fun e he hopp => ?_, ?_⟩
    · obtain ⟨th, hth, hat⟩ := exists_left_of_forall₂ hdesc he
      exact hat.final (ht th hth (hat.1 ▸ hopp))
    · exact rel_append hdesc (.cons ⟨rfl, hbody t⟩ .nil)
  | @run S S' k i _ hnext ih =>
    obtain ⟨l, hl, hdesc⟩ := ih
    obtain ⟨t, act, nextOf, s', hk, hact, rfl⟩ := Pool.exists_of_next_run hnext
    obtain ⟨hlt, hget⟩ := List.getElem?_eq_some_iff.mp hk
    have hlt' : k < l.length := hdesc.length_eq ▸ hlt
    have hat : M.Describes v S.threads[k] l[k] := hdesc.get hlt hlt'
    have hself : l.set k l[k] = l := set_getElem_self hlt'
    have hl' : l[k]? = some l[k] := getElem?_eq_getElem hlt'
    rw [hget] at hat
    generalize l[k] = e at hat hself hl'
    obtain ⟨t', a⟩ := e
    obtain ⟨htag, hfollow⟩ := hat
    obtain rfl : t = t' := htag
    -- the list after the step, with the control point of the thread that made it
    have hset : ∀ a', (nextOf i S.state).Refines v (M.Step t) M.Final a' (fun _ => M.Final) →
        List.Forall₂ (M.Describes v) (S.threads.set k ⟨t, nextOf i S.state⟩) (l.set k (t, a')) := by
      intro a' hrest
      refine forall₂_iff_get.mpr ⟨by simp [hdesc.length_eq], fun j h₁ h₂ => ?_⟩
      simp only [get_eq_getElem, getElem_set]
      split
      · exact ⟨rfl, hrest⟩
      · exact hdesc.get (by simpa using h₁) (by simpa using h₂)
    rcases hfollow.2 i S.state s' hact with ⟨hv, hrest⟩ | ⟨a', hstep, hrest⟩
    · have hsame := hset a hrest
      rw [hself] at hsame
      refine ⟨l, ?_, hsame⟩
      rw [hv]
      exact hl
    · exact ⟨_, .step hl hl' hstep, hset a' hrest⟩

/-! ## Flags set in one order -/

/-- Writers of the value `d` are at work on the flags `0, ..., n - 1`: `W e j` says that some
writer of `e` has set the first `j` flags.  Nobody writes the other value, and a flag that
is ahead of the next one will be followed. -/
structure Settling (n : Nat) (f : Nat → Bool) (W : Bool → Nat → Prop) (d : Bool) : Prop where
  alone : ∀ j < n, ¬ W (!d) j
  behind : ∀ j, j + 1 < n → f (j + 1) = d → f j = d
  ahead : ∀ j, j + 1 < n → f j = d → f (j + 1) ≠ d → W d (j + 1)
  written : ∀ j < n, W d j → ∀ i < j, f i = d

namespace Settling

variable {n : Nat} {f f' : Nat → Bool} {W W' : Bool → Nat → Prop} {d : Bool}

theorem agree (h : Settling n f W d) (hnone : ∀ j < n, ¬ W d j) : ∀ j < n, f j = f 0 := by
  intro j hj
  induction j with
  | zero => rfl
  | succ j ih =>
    rw [← ih (Nat.lt_of_succ_lt hj)]
    rcases Decidable.em (f (j + 1) = d) with hnext | hnext
    · rw [hnext, h.behind j hj hnext]
    · have hhere : f j ≠ d := fun hd => hnone (j + 1) hj (h.ahead j hj hd hnext)
      rw [Bool.eq_not_of_ne hnext, Bool.eq_not_of_ne hhere]

theorem turn (h : Settling n f W d) (hnone : ∀ j < n, ¬ W d j) : Settling n f W (!d) where
  alone := by
    rw [Bool.not_not]
    exact hnone
  behind j hj hnext := by
    rw [h.agree hnone j (Nat.lt_of_succ_lt hj), ← h.agree hnone (j + 1) hj]
    exact hnext
  ahead j hj hhere hnext := by
    rw [h.agree hnone (j + 1) hj, ← h.agree hnone j (Nat.lt_of_succ_lt hj)] at hnext
    exact absurd hhere hnext
  written j hj hW := absurd hW (h.alone j hj)

theorem join (h : Settling n f W d) (hsub : ∀ e j, W e j → W' e j)
    (hnew : ∀ e j, j < n → W' e j → W e j ∨ (e = d ∧ j = 0)) : Settling n f W' d where
  alone j hj hW := by
    rcases hnew _ j hj hW with hold | ⟨hd, -⟩
    · exact h.alone j hj hold
    · exact (Bool.eq_not_self d).mp hd.symm
  behind := h.behind
  ahead j hj hhere hnext := hsub d (j + 1) (h.ahead j hj hhere hnext)
  written j hj hW i hi := by
    rcases hnew d j hj hW with hold | ⟨-, rfl⟩
    · exact h.written j hj hold i hi
    · exact absurd hi (Nat.not_lt_zero i)

theorem advance (h : Settling n f W d) {j : Nat} (hj : j < n) (hW : W d j) (hset : f' j = d)
    (hsame : ∀ i, i ≠ j → f' i = f i) (hsub : ∀ i, i ≠ j → W d i → W' d i)
    (hnext : W' d (j + 1)) (hnew : ∀ e i, i < n → W' e i → W e i ∨ (e = d ∧ i = j + 1)) :
    Settling n f' W' d where
  alone i hi hW' := by
    rcases hnew _ i hi hW' with hold | ⟨hd, -⟩
    · exact h.alone i hi hold
    · exact (Bool.eq_not_self d).mp hd.symm
  behind i hi hset' := by
    rcases Decidable.em (i = j) with rfl | hne
    · exact hset
    · rw [hsame i hne]
      rcases Decidable.em (i + 1 = j) with rfl | hne'
      · exact h.written _ hj hW i (Nat.lt_succ_self i)
      · rw [hsame (i + 1) hne'] at hset'
        exact h.behind i hi hset'
  ahead i hi hhere hahead := by
    have hne' : i + 1 ≠ j := fun heq => hahead (heq ▸ hset)
    rw [hsame (i + 1) hne'] at hahead
    rcases Decidable.em (i = j) with rfl | hne
    · exact hnext
    · rw [hsame i hne] at hhere
      exact hsub (i + 1) hne' (h.ahead i hi hhere hahead)
  written i hi hW' k hk := by
    rcases Decidable.em (k = j) with rfl | hne
    · exact hset
    · rw [hsame k hne]
      rcases hnew d i hi hW' with hold | ⟨-, rfl⟩
      · exact h.written i hi hold k hk
      · exact h.written j hj hW k (by omega)

end Settling

end ProximityMesh
