/-
  Daemon/Outbox.lean --- what the send buffer holds for a peer.

  Source: crates/pim-daemon/src/send_buffer.rs.

  An outbox is the buffer of one peer as its users think of it: the frames that
  wait, in the order they were pushed, never more than the capacity.  The code
  keeps them in another order, by priority first.  `Shows` relates the two: the
  vector of the code is the outbox grouped by priority, and it stays so along
  every sequence of calls whose clock readings do not go back.
-/
import ProximityMesh.Daemon.Services
import ProximityMesh.Foundation.StableOrder

set_option autoImplicit false

namespace ProximityMesh.Daemon

open Protocol StableOrder List BufferedFrame SendBuffer Priority HashMap

/-! ## Priorities -/

namespace Priority

/-- The priorities, from the first to be delivered to the last. -/
def all : List Priority := [control, route, data]

theorem mem_all (p : Priority) : p ∈ all := by cases p <;> simp [all]

theorem nodup_all : all.Nodup := by decide

theorem pairwise_all : all.Pairwise fun p q => p.rank ≤ q.rank := by decide

theorem all_split (p : Priority) :
    ∃ before after, all = before ++ p :: after ∧
      (∀ q ∈ before, q.rank < p.rank) ∧ ∀ q ∈ after, p.rank < q.rank := by
  cases p with
  | control => exact ⟨[], [route, data], rfl, by simp, by simp [rank]⟩
  | route => exact ⟨[control], [data], rfl, by simp [rank], by simp [rank]⟩
  | data => exact ⟨[control, route], [], rfl, by simp [rank], by simp⟩

end Priority

/-- Frames grouped by priority, in push order inside one priority. -/
def byPriority (frames : List BufferedFrame) : List BufferedFrame :=
  byClass BufferedFrame.priority Priority.all frames

theorem byPriority_perm (frames : List BufferedFrame) : (byPriority frames).Perm frames :=
  byClass_perm nodup_all frames fun f _ => f.priority.mem_all

variable {frames : List BufferedFrame}

/-- The code's insertion is an arrival, if the frame is stamped no earlier than the
frames that wait. -/
theorem insertByPriority_byPriority {f : BufferedFrame}
    (hstamp : ∀ g ∈ frames, g.enqueuedAt ≤ f.enqueuedAt) :
    insertByPriority f (byPriority frames) = byPriority (frames ++ [f]) := by
  obtain ⟨before, after, hsplit, hbefore, hafter⟩ := f.priority.all_split
  have hfront : f.priority ∉ before := fun h => Nat.lt_irrefl _ (hbefore _ h)
  have hback : f.priority ∉ after := fun h => Nat.lt_irrefl _ (hafter _ h)
  have hcons : before ++ f.priority :: after = (before ++ [f.priority]) ++ after := by simp
  unfold byPriority
  rw [hsplit, byClass_arrival frames f hfront hback, hcons, byClass_append]
  -- the frames in front pass the test of the binary search, those behind fail it
  have hpass : ∀ g ∈ byClass priority (before ++ [f.priority]) frames,
      (decide (g.priority.rank < f.priority.rank) ||
        (g.priority == f.priority && decide (g.enqueuedAt ≤ f.enqueuedAt))) = true := by
    intro g hg
    obtain ⟨hmem, hclass⟩ := mem_byClass.mp hg
    obtain hlow | hsame := mem_append.mp hclass
    · simp [hbefore _ hlow]
    · simp [mem_singleton.mp hsame, hstamp g hmem]
  have hfail : ∀ g ∈ byClass priority after frames,
      (decide (g.priority.rank < f.priority.rank) ||
        (g.priority == f.priority && decide (g.enqueuedAt ≤ f.enqueuedAt))) = false := by
    intro g hg
    have hlt := hafter _ (mem_byClass.mp hg).2
    have hne : g.priority ≠ f.priority := fun h => Nat.lt_irrefl _ (h ▸ hlt)
    simp [Nat.not_lt.mpr hlt.le, hne]
  have hstop : (byClass priority after frames).takeWhile (fun g =>
      decide (g.priority.rank < f.priority.rank) ||
        (g.priority == f.priority && decide (g.enqueuedAt ≤ f.enqueuedAt))) = [] := by
    cases hrest : byClass priority after frames with
    | nil => rfl
    | cons g rest =>
      have hg := hfail g (hrest ▸ mem_cons_self)
      exact takeWhile_cons_of_neg (by rw [hg]; decide)
  simp only [insertByPriority]
  rw [takeWhile_append_of_pos hpass, hstop, append_nil, drop_left]

theorem byPriority_pairwise (frames : List BufferedFrame) :
    (byPriority frames).Pairwise fun f g => f.priority.rank ≤ g.priority.rank :=
  byClass_pairwise (r := fun p q : Priority => p.rank ≤ q.rank) (fun _ => Nat.le_refl _)
    pairwise_all frames

/-- The last frame of the grouped list is one of the least urgent. -/
theorem rank_le_of_getLast? {worst : BufferedFrame}
    (hlast : (byPriority frames).getLast? = some worst) :
    ∀ g ∈ frames, g.priority.rank ≤ worst.priority.rank := by
  intro g hg
  obtain ⟨front, hfront⟩ := getLast?_eq_some_iff.mp hlast
  have hsorted := byPriority_pairwise frames
  have hmem : g ∈ byPriority frames := (byPriority_perm frames).mem_iff.mpr hg
  rw [hfront] at hsorted hmem
  obtain hin | heq := mem_append.mp hmem
  · exact (pairwise_append.mp hsorted).2.2 g hin worst (mem_singleton_self worst)
  · rw [mem_singleton.mp heq]

/-- Evicting takes one of the least urgent frames out. -/
theorem evict_spec (h : frames ≠ []) :
    ∃ worst, (worst :: evict priority all frames).Perm frames ∧
      ∀ g ∈ frames, g.priority.rank ≤ worst.priority.rank := by
  have hne : byPriority frames ≠ [] := by
    intro hnil
    have hperm := byPriority_perm frames
    rw [hnil, nil_perm] at hperm
    exact h hperm
  refine ⟨(byPriority frames).getLast hne, ?_, rank_le_of_getLast? (getLast?_eq_some_getLast hne)⟩
  -- the grouped list is the grouped rest with the evicted frame at its end
  have hkept := byPriority_perm (evict priority all frames)
  have hgrouped := byPriority_perm frames
  rw [byPriority, ← dropLast_byClass nodup_all] at hkept
  rw [← dropLast_concat_getLast hne] at hgrouped
  apply ((hkept.symm.cons _).trans ?_).trans hgrouped
  exact (perm_append_singleton _ _).symm

/-! ## Outboxes -/

/-- The frames that wait for a peer, in push order. -/
structure Outbox (capacity : Nat) where
  held : List BufferedFrame
  bounded : held.length ≤ capacity

namespace Outbox

variable {capacity : Nat}

def empty : Outbox capacity := ⟨[], Nat.zero_le capacity⟩

/-- The age of a frame has not reached the timeout. -/
def fresh (timeout now : Nat) (f : BufferedFrame) : Bool := now - f.enqueuedAt < timeout

/-- Drop the frames whose age has reached the timeout. -/
def expire (timeout now : Nat) (o : Outbox capacity) : Outbox capacity where
  held := o.held.filter (fresh timeout now)
  bounded := (List.length_filter_le ..).trans o.bounded

/-- Add a frame.  In a full outbox the newest frame of the lowest priority makes
room, unless every frame there is more urgent than the new one. -/
def add (f : BufferedFrame) (o : Outbox capacity) : Outbox capacity :=
  if hroom : o.held.length < capacity then
    ⟨o.held ++ [f], by simpa using Nat.succ_le_of_lt hroom⟩
  else if hgive : ∃ g ∈ o.held, f.priority.rank ≤ g.priority.rank then
    ⟨evict BufferedFrame.priority Priority.all o.held ++ [f], by
      have hlength : (evict BufferedFrame.priority Priority.all o.held).length =
          o.held.length - 1 :=
        length_evict Priority.nodup_all fun g _ => g.priority.mem_all
      have hsome : 0 < o.held.length := List.length_pos_of_mem hgive.choose_spec.1
      have hbounded := o.bounded
      rw [List.length_append, List.length_singleton]
      omega⟩
  else o

/-- What is held after an addition: everything and the new frame if there is room,
and otherwise all of these but one of the least urgent. -/
theorem held_add (f : BufferedFrame) (o : Outbox capacity) :
    (o.held.length < capacity → (o.add f).held = o.held ++ [f]) ∧
    (capacity ≤ o.held.length → ∃ dropped, (dropped :: (o.add f).held).Perm (f :: o.held) ∧
      ∀ g ∈ (o.add f).held, g.priority.rank ≤ dropped.priority.rank) := by
  constructor
  · intro hroom
    rw [add, dif_pos hroom]
  · intro hfull
    rw [add, dif_neg (Nat.not_lt.mpr hfull)]
    split
    · rename_i hgive
      obtain ⟨g, hg, hrank⟩ := hgive
      obtain ⟨worst, hperm, hworst⟩ := evict_spec (ne_nil_of_mem hg)
      refine ⟨worst, ?_, ?_⟩
      · have hlast := (perm_append_singleton f (evict priority all o.held)).cons worst
        exact (hlast.trans (List.Perm.swap f worst _)).trans (hperm.cons f)
      · intro k hk
        obtain hold | hnew := mem_append.mp hk
        · exact hworst k ((evict_sublist _ _).subset hold)
        · rw [mem_singleton.mp hnew]
          exact hrank.trans (hworst g hg)
    · rename_i hgive
      refine ⟨f, List.Perm.refl _, ?_⟩
      intro g hg
      by_contra hrank
      exact hgive ⟨g, hg, by omega⟩

theorem byPriority_held_add (f : BufferedFrame) (o : Outbox capacity) :
    ((byPriority o.held).length < capacity →
      (byPriority (o.add f).held).Perm (f :: byPriority o.held)) ∧
    (capacity ≤ (byPriority o.held).length → ∃ dropped,
      (dropped :: byPriority (o.add f).held).Perm (f :: byPriority o.held) ∧
      ∀ g ∈ byPriority (o.add f).held, g.priority.rank ≤ dropped.priority.rank) := by
  have hbefore := byPriority_perm o.held
  have hafter := byPriority_perm (o.add f).held
  rw [hbefore.length_eq]
  constructor
  · intro hroom
    rw [(held_add f o).1 hroom] at hafter ⊢
    exact (hafter.trans (perm_append_singleton f o.held)).trans (hbefore.symm.cons f)
  · intro hfull
    obtain ⟨dropped, hperm, hrank⟩ := (held_add f o).2 hfull
    refine ⟨dropped, ((hafter.cons dropped).trans hperm).trans (hbefore.symm.cons f), ?_⟩
    intro g hg
    exact hrank g (hafter.mem_iff.mp hg)

variable {o : Outbox capacity}

theorem fresh_of_le {timeout now : Nat} {clock : Nat} (h : ∀ f ∈ o.held, f.enqueuedAt ≤ clock) :
    ∀ f ∈ (o.expire timeout now).held, f.enqueuedAt ≤ clock :=
  fun f hf => h f (mem_filter.mp hf).1

theorem mem_held_add {f g : BufferedFrame} (h : g ∈ (o.add f).held) : g = f ∨ g ∈ o.held := by
  unfold add at h
  split at h
  · obtain hold | hnew := mem_append.mp h
    · exact .inr hold
    · exact .inl (mem_singleton.mp hnew)
  · split at h
    · obtain hold | hnew := mem_append.mp h
      · exact .inr ((evict_sublist _ _).subset hold)
      · exact .inl (mem_singleton.mp hnew)
    · exact .inr h

/-- What `push` does to the grouped frames is what `add` does to the outbox. -/
theorem byPriority_add {f : BufferedFrame} (hstamp : ∀ g ∈ o.held, g.enqueuedAt ≤ f.enqueuedAt) :
    (if (byPriority o.held).length ≥ capacity then
      match (byPriority o.held).getLast? with
      | some worst =>
        if worst.priority.rank ≥ f.priority.rank then
          insertByPriority f (byPriority o.held).dropLast
        else byPriority o.held
      | none => byPriority o.held
    else insertByPriority f (byPriority o.held)) = byPriority (o.add f).held := by
  rw [(byPriority_perm o.held).length_eq]
  by_cases hroom : o.held.length < capacity
  · rw [if_neg (Nat.not_le.mpr hroom), insertByPriority_byPriority hstamp, add, dif_pos hroom]
  rw [if_pos (Nat.not_lt.mp hroom), add, dif_neg hroom]
  cases hlast : (byPriority o.held).getLast? with
  | none =>
    have hnil : o.held = [] := by
      have hperm := byPriority_perm o.held
      rw [getLast?_eq_none_iff.mp hlast, nil_perm] at hperm
      exact hperm
    rw [dif_neg (by simp [hnil])]
  | some worst =>
    have hmem : worst ∈ o.held :=
      (byPriority_perm o.held).mem_iff.mp (mem_of_getLast? hlast)
    have hiff : (∃ g ∈ o.held, f.priority.rank ≤ g.priority.rank) ↔
        f.priority.rank ≤ worst.priority.rank :=
      ⟨fun ⟨g, hg, hrank⟩ => hrank.trans (rank_le_of_getLast? hlast g hg),
        fun hrank => ⟨worst, hmem, hrank⟩⟩
    simp only [hiff]
    split
    · have hkept : ∀ g ∈ evict priority all o.held,
          g.enqueuedAt ≤ f.enqueuedAt := fun g hg => hstamp g ((evict_sublist _ _).subset hg)
      rw [byPriority, dropLast_byClass nodup_all]
      exact insertByPriority_byPriority hkept
    · rfl

end Outbox

/-! ## Calls -/

/-- A call on the send buffer, with the clock readings it makes. -/
inductive Call where
  | push (now enqueuedAt : Nat) (peer : NodeId) (priority : Priority) (frame : TransportFrame)
  | drain (now : Nat) (peer : NodeId)
  | expireAll (now : Nat)

namespace Call

/-- The clock readings of a call, in the order they are made. -/
def readings : Call → List Nat
  | push now enqueuedAt _ _ _ => [now, enqueuedAt]
  | drain now _ => [now]
  | expireAll now => [now]

/-- The last clock reading of a call. -/
def latest : Call → Nat
  | push _ enqueuedAt _ _ _ => enqueuedAt
  | drain now _ => now
  | expireAll now => now

theorem latest_mem (c : Call) : c.latest ∈ c.readings := by
  cases c <;> simp [latest, readings]

def pushed (peer : NodeId) : Call → Option BufferedFrame
  | push _ enqueuedAt p priority frame =>
      if p = peer then some ⟨enqueuedAt, priority, frame⟩ else none
  | drain .. => none
  | expireAll _ => none

end Call

/-- The clock readings of a sequence of calls do not go back. -/
def Forward (calls : List Call) : Prop := (calls.flatMap Call.readings).Pairwise (· ≤ ·)

namespace SendBuffer

def perform (b : SendBuffer) : Call → SendBuffer
  | .push now enqueuedAt peer priority frame => b.pushAt now enqueuedAt peer priority frame
  | .drain now peer => (b.drain now peer).2
  | .expireAll now => (b.expireAll now).2

def run (b : SendBuffer) (calls : List Call) : SendBuffer := calls.foldl perform b

def framesOf (b : SendBuffer) (peer : NodeId) : List BufferedFrame := (b.peers.get peer).getD []

end SendBuffer

/-- What a call does to the outbox of a peer. -/
def Outbox.perform {capacity : Nat} (timeout : Nat) (peer : NodeId) (o : Outbox capacity) :
    Call → Outbox capacity
  | .push now enqueuedAt p priority frame =>
      if p = peer then (o.expire timeout now).add ⟨enqueuedAt, priority, frame⟩ else o
  | .drain _ p => if p = peer then .empty else o
  | .expireAll now => o.expire timeout now

def Outbox.after (capacity timeout : Nat) (peer : NodeId) (calls : List Call) : Outbox capacity :=
  calls.foldl (Outbox.perform timeout peer) .empty

/-! ## The buffer shows the outbox -/

namespace SendBuffer

variable (b : SendBuffer)

theorem framesOf_pushAt_ne (now enqueuedAt : Nat) {p peer : NodeId}
    (h : p ≠ peer) (priority : Priority) (frame : TransportFrame) :
    (b.pushAt now enqueuedAt p priority frame).framesOf peer = b.framesOf peer := by
  simp only [framesOf, pushAt, get_insert_ne _ _ h.symm]

theorem framesOf_drain (now : Nat) (p peer : NodeId) :
    (b.drain now p).2.framesOf peer = if p = peer then [] else b.framesOf peer := by
  unfold drain
  cases hget : b.peers.get p with
  | none =>
    by_cases hp : p = peer
    · rw [if_pos hp, framesOf, ← hp, hget]
      rfl
    · rw [if_neg hp]
  | some frames =>
    by_cases hp : p = peer
    · rw [if_pos hp, ← hp, framesOf, get_remove_self]
      rfl
    · rw [if_neg hp, framesOf, get_remove_ne _ (Ne.symm hp)]
      rfl

theorem framesOf_expireAll (now : Nat) (peer : NodeId) :
    (b.expireAll now).2.framesOf peer = (b.framesOf peer).filter (b.alive now) := by
  simp only [expireAll, framesOf, get_retain, get_mapValues]
  cases b.peers.get peer with
  | none => rfl
  | some frames =>
    -- an entry that became empty is removed, which reads as no frames
    cases hkept : frames.filter (b.alive now) with
    | nil | cons f rest => simp [hkept, Option.filter]

theorem drain_frames (now : Nat) (peer : NodeId) :
    (b.drain now peer).1 = ((b.framesOf peer).filter (b.alive now)).map frame := by
  unfold drain framesOf
  cases b.peers.get peer with
  | none | some frames => rfl

end SendBuffer

/-- The buffer keeps the outbox of a peer grouped by priority, and no frame is
stamped later than `clock`. -/
structure Shows {capacity : Nat} (timeout clock : Nat) (peer : NodeId) (b : SendBuffer)
    (o : Outbox capacity) : Prop where
  capacity_eq : b.capacityPerPeer = capacity
  timeout_eq : b.timeout = timeout
  frames_eq : b.framesOf peer = byPriority o.held
  stamped : ∀ f ∈ o.held, f.enqueuedAt ≤ clock

namespace Shows

variable {capacity timeout clock : Nat} {peer : NodeId} {b : SendBuffer} {o : Outbox capacity}
variable (h : Shows timeout clock peer b o)

include h

theorem alive_eq (now : Nat) : b.alive now = Outbox.fresh timeout now := by
  funext f
  rw [alive, Outbox.fresh, h.timeout_eq]

theorem alive_frames (now : Nat) :
    (b.framesOf peer).filter (b.alive now) = byPriority (o.expire timeout now).held := by
  rw [h.frames_eq, h.alive_eq]
  exact filter_byClass ..

theorem push {now enqueuedAt : Nat} (henq : clock ≤ enqueuedAt) (p : NodeId) (priority : Priority)
    (frame : TransportFrame) :
    Shows timeout enqueuedAt peer (b.perform (.push now enqueuedAt p priority frame))
      (o.perform timeout peer (.push now enqueuedAt p priority frame)) := by
  simp only [perform, Outbox.perform]
  have hstamp : ∀ f ∈ o.held, f.enqueuedAt ≤ enqueuedAt := fun f hf => (h.stamped f hf).trans henq
  by_cases hp : p = peer
  · subst hp
    rw [if_pos rfl]
    refine ⟨h.capacity_eq, h.timeout_eq, ?_, ?_⟩
    · rw [← Outbox.byPriority_add (Outbox.fresh_of_le hstamp), ← h.alive_frames now]
      simp only [framesOf, pushAt, get_insert_self, h.capacity_eq]
      rfl
    · intro f hf
      obtain rfl | hold := Outbox.mem_held_add hf
      · exact Nat.le_refl _
      · exact Outbox.fresh_of_le hstamp f hold
  · rw [if_neg hp]
    exact ⟨h.capacity_eq, h.timeout_eq,
      (b.framesOf_pushAt_ne now enqueuedAt hp priority frame).trans h.frames_eq, hstamp⟩

theorem drain (now : Nat) (p : NodeId) :
    Shows timeout clock peer (b.perform (.drain now p))
      (o.perform timeout peer (.drain now p)) := by
  have hconfig : (b.drain now p).2.capacityPerPeer = b.capacityPerPeer ∧
      (b.drain now p).2.timeout = b.timeout := by
    unfold SendBuffer.drain
    split <;> exact ⟨rfl, rfl⟩
  simp only [perform, Outbox.perform]
  refine ⟨hconfig.1.trans h.capacity_eq, hconfig.2.trans h.timeout_eq, ?_, ?_⟩
  · rw [b.framesOf_drain]
    split
    · rfl
    · exact h.frames_eq
  · split
    · exact fun f hf => absurd hf not_mem_nil
    · exact h.stamped

theorem expireAll (now : Nat) :
    Shows timeout clock peer (b.perform (.expireAll now))
      (o.perform timeout peer (.expireAll now)) :=
  ⟨h.capacity_eq, h.timeout_eq, (b.framesOf_expireAll now peer).trans (h.alive_frames now),
    Outbox.fresh_of_le h.stamped⟩

theorem mono {clock' : Nat} (hle : clock ≤ clock') : Shows timeout clock' peer b o :=
  ⟨h.capacity_eq, h.timeout_eq, h.frames_eq, fun f hf => (h.stamped f hf).trans hle⟩

/-- One call, made no earlier than the clock, keeps the relation. -/
theorem perform (c : Call) (hclock : ∀ r ∈ c.readings, clock ≤ r) :
    Shows timeout c.latest peer (b.perform c) (o.perform timeout peer c) := by
  have hlatest := hclock _ c.latest_mem
  cases c with
  | push now enqueuedAt p priority frame => exact h.push hlatest p priority frame
  | drain now p => exact (h.drain now p).mono hlatest
  | expireAll now => exact (h.expireAll now).mono hlatest

theorem run (calls : List Call) (hclock : (clock :: calls.flatMap Call.readings).Pairwise (· ≤ ·)) :
    ∃ clock', Shows timeout clock' peer (b.run calls)
      (calls.foldl (Outbox.perform timeout peer) o) := by
  induction calls generalizing clock b o with
  | nil => exact ⟨clock, h⟩
  | cons c calls ih =>
    rw [flatMap_cons, pairwise_cons, pairwise_append] at hclock
    obtain ⟨hge, -, hrest, hsplit⟩ := hclock
    have hstep := h.perform c fun r hr => hge r (mem_append_left _ hr)
    exact ih hstep (pairwise_cons.mpr ⟨hsplit _ c.latest_mem, hrest⟩)

end Shows

theorem shows_new (capacity timeout : Nat) (peer : NodeId) :
    Shows timeout 0 peer (new capacity timeout) (.empty : Outbox capacity) :=
  ⟨rfl, rfl, rfl, fun _ hf => absurd hf not_mem_nil⟩

theorem shows_after (capacity timeout : Nat) {calls : List Call} (hclock : Forward calls)
    (peer : NodeId) :
    ∃ clock, Shows timeout clock peer ((new capacity timeout).run calls)
      (Outbox.after capacity timeout peer calls) := by
  apply (shows_new capacity timeout peer).run calls
  exact pairwise_cons.mpr ⟨fun r _ => Nat.zero_le r, hclock⟩

/-! ## Push order -/

namespace Outbox

variable {capacity : Nat}

theorem held_add_sublist (f : BufferedFrame) (o : Outbox capacity) :
    (o.add f).held.Sublist (o.held ++ [f]) := by
  unfold add
  split
  · exact List.Sublist.refl _
  · split
    · exact (evict_sublist _ _).append (List.Sublist.refl [f])
    · exact sublist_append_left _ _

theorem held_perform_sublist (timeout : Nat) (peer : NodeId) (o : Outbox capacity) (c : Call) :
    (o.perform timeout peer c).held.Sublist (o.held ++ (c.pushed peer).toList) := by
  cases c with
  | push now enqueuedAt p priority frame =>
    simp only [perform, Call.pushed]
    split
    · apply (held_add_sublist _ _).trans
      exact filter_sublist.append (List.Sublist.refl _)
    · exact sublist_append_left _ _
  | drain now p =>
    simp only [perform]
    split
    · exact nil_sublist _
    · exact sublist_append_left _ _
  | expireAll now => exact filter_sublist.trans (sublist_append_left _ _)

/-- The frames that wait are pushed frames, in the order of the pushes. -/
theorem held_after_sublist (capacity timeout : Nat) (peer : NodeId) (calls : List Call) :
    (after capacity timeout peer calls).held.Sublist (calls.filterMap (Call.pushed peer)) := by
  induction calls using reverseRecOn with
  | nil => exact List.Sublist.refl _
  | append_singleton calls c ih =>
    rw [after, foldl_append, filterMap_append]
    apply (held_perform_sublist timeout peer _ c).trans
    have hlast : (c.pushed peer).toList = [c].filterMap (Call.pushed peer) := by
      cases hc : c.pushed peer <;> simp [hc]
    exact ih.append (List.Sublist.refl _)

end Outbox

/-! ## The send buffer over all sequences of calls -/

/-- For every sequence of calls with a clock that does not go back: a peer's buffer
holds at most `capacity` frames; a drain returns the frames that wait and are not
too old, by priority and inside a priority in push order; an expiry keeps exactly the
frames whose age is below the timeout; and a push on a full buffer drops one frame,
with none of strictly lower priority left behind. -/
theorem send_buffer_discipline (capacity timeout : Nat) (calls : List Call)
    (hclock : Forward calls) (peer : NodeId) :
    let b := (SendBuffer.new capacity timeout).run calls
    let waiting := (Outbox.after capacity timeout peer calls).held
    (b.framesOf peer).length ≤ capacity ∧
    (waiting.Sublist (calls.filterMap (Call.pushed peer)) ∧ ∀ now, (b.drain now peer).1 =
        (byPriority (waiting.filter (Outbox.fresh timeout now))).map BufferedFrame.frame) ∧
    (∀ now, (b.expireAll now).2.framesOf peer =
      (b.framesOf peer).filter (Outbox.fresh timeout now)) ∧
    ∀ now enqueuedAt priority frame,
      Forward (calls ++ [.push now enqueuedAt peer priority frame]) →
      let f : BufferedFrame := ⟨enqueuedAt, priority, frame⟩
      let kept := (b.framesOf peer).filter (Outbox.fresh timeout now)
      let frames := (b.pushAt now enqueuedAt peer priority frame).framesOf peer
      (kept.length < capacity → frames.Perm (f :: kept)) ∧
      (capacity ≤ kept.length → ∃ dropped, (dropped :: frames).Perm (f :: kept) ∧
        ∀ g ∈ frames, g.priority.rank ≤ dropped.priority.rank) := by
  intro b waiting
  obtain ⟨clock, hshows⟩ := shows_after capacity timeout hclock peer
  have halive : ∀ now, b.alive now = Outbox.fresh timeout now := hshows.alive_eq
  refine ⟨?_, ⟨Outbox.held_after_sublist capacity timeout peer calls, ?_⟩, ?_, ?_⟩
  · rw [hshows.frames_eq, (byPriority_perm _).length_eq]
    exact (Outbox.after capacity timeout peer calls).bounded
  · intro now
    rw [b.drain_frames, hshows.alive_frames now]
    rfl
  · intro now
    rw [b.framesOf_expireAll, halive]
  · intro now enqueuedAt priority frame hpush f kept frames
    obtain ⟨clock', hafter⟩ := shows_after capacity timeout hpush peer
    have hkept : kept =
        byPriority ((Outbox.after capacity timeout peer calls).expire timeout now).held := by
      rw [← hshows.alive_frames now, hshows.alive_eq]
    have hframes : frames =
        byPriority
          (((Outbox.after capacity timeout peer calls).expire timeout now).add f).held := by
      have hlast := hafter.frames_eq
      simp only [run, Outbox.after, foldl_append, foldl_cons, Outbox.perform] at hlast
      exact hlast
    rw [hkept, hframes]
    exact Outbox.byPriority_held_add f _

/-- A frame that carries one byte. -/
def byteFrame (frameType : FrameType) (byte : UInt8) : TransportFrame :=
  ⟨frameType, Octets.zero 12, [byte], Octets.zero 16⟩

/-- Two data frames and a control frame for one peer. -/
def crowdedCalls : List Call :=
  [.push 0 1 ⟨Octets.zero 16⟩ .data (byteFrame .data 1),
    .push 1 2 ⟨Octets.zero 16⟩ .data (byteFrame .data 2),
    .push 3 3 ⟨Octets.zero 16⟩ .control (byteFrame .control 3)]

/-- In a buffer of two the control frame takes the place of the second data frame. -/
theorem send_buffer_discipline_crowded :
    Forward crowdedCalls ∧
      (((SendBuffer.new 2 10).run crowdedCalls).drain 4 ⟨Octets.zero 16⟩).1 =
        [byteFrame .control 3, byteFrame .data 1] :=
  have hclock : Forward crowdedCalls := by
    unfold Forward
    decide
  ⟨hclock, ((send_buffer_discipline 2 10 crowdedCalls hclock ⟨Octets.zero 16⟩).2.1.2 4).trans
    (by decide)⟩

end ProximityMesh.Daemon
