/-
  Daemon/Retention.lean --- how long after it was handed over a frame is kept or sent.

  Source: `flush_send_buffer` and `run_buffer_flush` of
  crates/pim-daemon/src/peer_tasks.rs, `push` and `drain` of
  crates/pim-daemon/src/send_buffer.rs; docs/architecture/routing.md,
  "Store-and-Forward".

  The buffer knows the age of a frame by the stamp that `push` gives it, behind the send
  that failed.  A periodic flush puts a frame it could not send back with `push`, under a
  new stamp, so stamps bound the time since the hand-over only while nothing is put back.
-/
import ProximityMesh.Daemon.StoreForward
import Mathlib.Data.List.TakeWhile
import Mathlib.Data.Multiset.OrderedMonoid
import Mathlib.Tactic.Abel

set_option autoImplicit false

namespace ProximityMesh.Daemon

open Protocol Transport Crypto Routing ProximityMesh.Task List SendBuffer

/-! ## Stamps -/

namespace SendBuffer

theorem insertByPriority_split (f : BufferedFrame) (frames : List BufferedFrame) :
    ∃ front back, insertByPriority f frames = front ++ f :: back ∧ frames = front ++ back := by
  refine ⟨_, _, rfl, ?_⟩
  obtain ⟨back, hback⟩ := takeWhile_prefix fun g : BufferedFrame =>
    decide (g.priority.rank < f.priority.rank) ||
      (g.priority == f.priority && decide (g.enqueuedAt ≤ f.enqueuedAt))
  generalize frames.takeWhile _ = front at hback
  rw [← hback, drop_left]

variable (b : SendBuffer) (now : Nat) (peer : NodeId) (priority : Priority)
  (frame : TransportFrame)

/-- A push drops frames that have expired and at most one more, and takes the frame in
or not. -/
theorem framesOf_push_cases :
    ∃ kept, kept.Sublist ((b.framesOf peer).filter (b.alive now)) ∧
      ((b.push now peer priority frame).framesOf peer = kept ∨
        (b.push now peer priority frame).framesOf peer =
          insertByPriority ⟨now, priority, frame⟩ kept) := by
  unfold push pushAt framesOf
  rw [HashMap.get_insert_self]
  generalize ((b.peers.get peer).getD []).filter (b.alive now) = frames
  split
  · cases frames.getLast? with
    | none => exact ⟨frames, .refl _, .inl rfl⟩
    | some worst =>
      dsimp only
      split
      · exact ⟨frames.dropLast, dropLast_sublist _, .inr rfl⟩
      · exact ⟨frames, .refl _, .inl rfl⟩
  · exact ⟨frames, .refl _, .inr rfl⟩

theorem timeout_drain : (b.drain now peer).2.timeout = b.timeout := by
  unfold drain
  cases b.peers.get peer with
  | none | some frames => rfl

/-- A push adds at most the frame, under the present time. -/
theorem framesOf_push_subperm :
    ((b.push now peer priority frame).framesOf peer).Subperm
      (⟨now, priority, frame⟩ :: b.framesOf peer) := by
  obtain ⟨kept, hkept, heq | heq⟩ := framesOf_push_cases b now peer priority frame
  · rw [heq]
    exact ((hkept.trans filter_sublist).cons _).subperm
  · obtain ⟨front, back, hinsert, rfl⟩ := insertByPriority_split ⟨now, priority, frame⟩ kept
    rw [heq, hinsert]
    refine perm_middle.subperm.trans ?_
    exact ((hkept.trans filter_sublist).cons_cons _).subperm

theorem forall_framesOf_push {P : BufferedFrame → Prop} (hnew : P ⟨now, priority, frame⟩)
    (hold : ∀ f ∈ b.framesOf peer, P f) :
    ∀ f ∈ (b.push now peer priority frame).framesOf peer, P f := by
  intro f hf
  have hmem := (framesOf_push_subperm b now peer priority frame).subset hf
  exact forall_mem_cons.mpr ⟨hnew, hold⟩ f hmem

end SendBuffer

/-- A frame of the buffer with the time it was put there. -/
def BufferedFrame.stamp (f : BufferedFrame) : TransportFrame × Nat := (f.frame, f.enqueuedAt)

/-- The frames and times of a list. -/
def stamps (frames : List BufferedFrame) : Multiset (TransportFrame × Nat) :=
  (frames : Multiset BufferedFrame).map BufferedFrame.stamp

theorem stamps_nil : stamps [] = 0 := rfl

theorem stamps_append (frames frames' : List BufferedFrame) :
    stamps (frames ++ frames') = stamps frames + stamps frames' := by
  rw [stamps, ← Multiset.coe_add, Multiset.map_add]
  rfl

theorem stamps_le {frames frames' : List BufferedFrame} (h : frames.Subperm frames') :
    stamps frames ≤ stamps frames' := Multiset.map_le_map (Multiset.coe_le.mpr h)

/-- The same frame, at the same time or earlier. -/
def NoLater (x y : TransportFrame × Nat) : Prop := x.1 = y.1 ∧ x.2 ≤ y.2

instance : IsTrans _ NoLater := ⟨fun _ _ _ h h' => ⟨h.1.trans h'.1, h.2.trans h'.2⟩⟩

/-- Each of `xs` has one of `ys` for itself that is not earlier. -/
def Covered (xs ys : Multiset (TransportFrame × Nat)) : Prop := ∃ zs ≤ ys, xs.Rel NoLater zs

section Covered

variable {xs xs' ys ys' zs : Multiset (TransportFrame × Nat)}

theorem covered_of_le (h : xs ≤ ys) : Covered xs ys :=
  ⟨xs, h, Multiset.rel_refl_of_refl_on fun _ _ => ⟨rfl, Nat.le_refl _⟩⟩

theorem Covered.add (h : Covered xs ys) (h' : Covered xs' ys') :
    Covered (xs + xs') (ys + ys') := by
  obtain ⟨zs, hle, hrel⟩ := h
  obtain ⟨zs', hle', hrel'⟩ := h'
  exact ⟨zs + zs', add_le_add hle hle', hrel.add hrel'⟩

theorem Covered.trans (h : Covered xs ys) (h' : Covered ys zs) : Covered xs zs := by
  obtain ⟨us, hle, hrel⟩ := h
  obtain ⟨vs, hle', hrel'⟩ := h'
  obtain ⟨rest, rfl⟩ := Multiset.le_iff_exists_add.mp hle
  obtain ⟨vs₀, vs₁, hus, -, rfl⟩ := Multiset.rel_add_left.mp hrel'
  exact ⟨vs₀, (Multiset.le_add_right vs₀ vs₁).trans hle', hrel.trans _ hus⟩

end Covered

namespace Courier

/-- The frames in the hands of a courier with their stamps; a call stamps its frame no later
than `latest`. -/
def carried (latest : Nat) : Courier → Multiset (TransportFrame × Nat)
  | hand frame => {(frame, latest)}
  | hold frame => {(frame, latest)}
  | resend frames => stamps frames
  | retry requeue frame frames => stamps (requeue ++ frame :: frames)
  | putBack frames => stamps frames
  | _ => 0

/-- The frames that a flush has taken from the buffer. -/
def taken : Courier → List BufferedFrame
  | resend frames => frames
  | retry requeue frame frames => requeue ++ frame :: frames
  | putBack frames => frames
  | _ => []

def inHand : Courier → List TransportFrame
  | hand frame => [frame]
  | hold frame => [frame]
  | c => c.taken.map BufferedFrame.frame

/-- The frames that go back into the buffer. -/
def returning : Courier → List BufferedFrame
  | retry requeue _ _ => requeue
  | putBack frames => frames
  | _ => []

/-- The next step decides that a frame goes back into the buffer: a periodic flush finds the
peer not connected, or its queue full. -/
def PutsBack (peer : NodeId) (s : State) : Courier → Prop
  | retry _ frame _ =>
      match (s.transport.send peer frame.frame).1 with
      | .error (.peerNotConnected _) | .error (.congested _) => True
      | _ => False
  | _ => False

instance (peer : NodeId) (s : State) : (c : Courier) → Decidable (c.PutsBack peer s)
  | retry _ frame _ => by
      dsimp only [PutsBack]
      exact match (s.transport.send peer frame.frame).1 with
        | .error (.peerNotConnected _) | .error (.congested _) => isTrue trivial
        | .error (.sendFailed _) | .ok _ => isFalse id
  | hand _ | hold _ | lose | drain _ | resend _ | putBack _ | done => isFalse id

theorem returning_retrying (requeue frames : List BufferedFrame) :
    (retrying requeue frames).returning = requeue := by
  cases frames with
  | nil | cons frame frames => rfl

theorem taken_retrying (requeue frames : List BufferedFrame) :
    (retrying requeue frames).taken = requeue ++ frames := by
  cases frames with
  | nil => exact (append_nil requeue).symm
  | cons frame frames => rfl

theorem taken_drained (again : Bool) (frames : List BufferedFrame) :
    (drained again frames).taken = frames := by
  cases again with
  | false => rfl
  | true => exact taken_retrying [] frames

theorem carried_retrying (latest : Nat) (requeue frames : List BufferedFrame) :
    (retrying requeue frames).carried latest = stamps (requeue ++ frames) := by
  cases frames with
  | nil =>
    rw [append_nil]
    rfl
  | cons frame frames => rfl

theorem carried_drained (latest : Nat) (again : Bool) (frames : List BufferedFrame) :
    (drained again frames).carried latest = stamps frames := by
  cases again with
  | false => rfl
  | true => exact carried_retrying latest [] frames

theorem stamps_forwards_le (peer : NodeId) (s : State) (c : Courier) :
    stamps (c.forwards peer s) ≤ stamps c.leaving.toList := stamps_le filter_sublist.subperm

/-- A periodic flush that puts nothing back goes on without the frame it has sent. -/
theorem retried_of_not_putsBack {peer : NodeId} {s : State} {requeue : List BufferedFrame}
    {frame : BufferedFrame} {frames : List BufferedFrame}
    (h : ¬ PutsBack peer s (retry requeue frame frames)) :
    retried requeue frame frames (s.transport.send peer frame.frame).1 =
      retrying requeue frames := by
  dsimp only [PutsBack] at h
  generalize (s.transport.send peer frame.frame).1 = result at h
  cases result with
  | ok u => rfl
  | error e =>
    cases e with
    | peerNotConnected _ | congested _ => exact absurd trivial h
    | sendFailed _ => rfl

section Step

variable {peer : NodeId} {i : Input} {s s' : State} {c c' : Courier}
variable (h : Goes peer i s c s' c')

include h

/-- What a step does to the frames in the hands of the courier and in the buffer, when it
puts nothing back. -/
theorem Goes.balance (hback : ¬ c.PutsBack peer s) (hreturning : c.returning = []) {latest : Nat}
    (hnow : i.now ≤ latest) :
    Covered (stamps (c.forwards peer s) + c'.carried latest + stamps (s'.sendBuffer.framesOf peer))
      (c.carried latest + stamps (s.sendBuffer.framesOf peer)) := by
  cases h with
  | hand frame =>
    have hcarried : (handed frame (s.transport.send peer frame).1).carried latest ≤
        {(frame, latest)} := by
      rcases handed_cases frame (s.transport.send peer frame).1 with heq | heq | heq
      · rw [heq]
        exact Multiset.zero_le _
      · rw [heq]
        exact le_refl _
      · rw [heq]
        exact Multiset.zero_le _
    show Covered (0 + _ + _) _
    rw [zero_add]
    exact covered_of_le (add_le_add hcarried (le_refl _))
  | hold frame =>
    -- the frame is stamped
    have hstamp : Covered {(frame, i.now)} {(frame, latest)} :=
      ⟨_, le_refl _, .cons ⟨rfl, hnow⟩ .zero⟩
    exact (covered_of_le (stamps_le (framesOf_push_subperm ..))).trans
      (hstamp.add (covered_of_le (le_refl _)))
  | lose => exact covered_of_le (le_refl _)
  | drain again =>
    rw [framesOf_drain, if_pos rfl, carried_drained, stamps_nil, add_zero]
    exact covered_of_le (stamps_le filter_sublist.subperm)
  | resend frame frames =>
    refine covered_of_le (add_le_add ?_ (le_refl _))
    exact add_le_add (stamps_forwards_le peer s (.resend (frame :: frames))) (le_refl _)
  | retry requeue frame frames =>
    obtain rfl : requeue = [] := hreturning
    rw [retried_of_not_putsBack hback, carried_retrying]
    refine covered_of_le (add_le_add ?_ (le_refl _))
    exact add_le_add (stamps_forwards_le peer s (.retry [] frame frames)) (le_refl _)
  | putBack frame frames => cases hreturning

/-- The frames in the hands of a flush were there before or were alive when it took them. -/
theorem Goes.mem_taken {f : BufferedFrame} (hf : f ∈ c'.taken) :
    f ∈ c.taken ∨ s.sendBuffer.alive i.now f = true := by
  cases h with
  | hand frame =>
    rcases handed_cases frame (s.transport.send peer frame).1 with heq | heq | heq <;>
      rw [heq] at hf <;> cases hf
  | hold frame | lose => cases hf
  | drain again =>
    rw [taken_drained] at hf
    exact .inr (mem_filter.mp hf).2
  | resend frame frames => exact .inl (mem_cons_of_mem frame hf)
  | retry requeue frame frames =>
    obtain ⟨requeue', frames', heq, hsub⟩ := retried_eq_retrying requeue frame frames
      (s.transport.send peer frame.frame).1
    rw [heq, taken_retrying] at hf
    exact .inl (hsub.subset hf)
  | putBack frame frames => exact .inl (mem_cons_of_mem frame hf)

/-- A frame is in the buffer after a step because it was there before, or because the courier had
it in its hands and pushed it. -/
theorem Goes.forall_framesOf {P : BufferedFrame → Prop}
    (hbuffer : ∀ f ∈ s.sendBuffer.framesOf peer, P f)
    (hhand : ∀ frame ∈ c.inHand, P ⟨i.now, Priority.ofType frame.frameType, frame⟩) :
    ∀ f ∈ s'.sendBuffer.framesOf peer, P f := by
  cases h with
  | hold frame => exact forall_framesOf_push _ _ _ _ _ (hhand frame mem_cons_self) hbuffer
  | drain again =>
    intro f hf
    rw [framesOf_drain, if_pos rfl] at hf
    cases hf
  | putBack frame frames =>
    exact forall_framesOf_push _ _ _ _ _ (hhand frame.frame mem_cons_self) hbuffer
  | _ => exact hbuffer

theorem Goes.timeout : s'.sendBuffer.timeout = s.sendBuffer.timeout := by
  cases h with
  | drain again => exact timeout_drain ..
  | _ => rfl

theorem Goes.returning (hback : ¬ c.PutsBack peer s) (hreturning : c.returning = []) :
    c'.returning = [] := by
  cases h with
  | hand frame =>
    rcases handed_cases frame (s.transport.send peer frame).1 with heq | heq | heq <;>
      rw [heq] <;> rfl
  | drain again =>
    cases again with
    | false => rfl
    | true => exact returning_retrying ..
  | retry requeue frame frames =>
    rw [retried_of_not_putsBack hback, returning_retrying]
    exact hreturning
  | putBack frame frames => cases hreturning
  | _ => rfl

end Step

theorem mem_taken_of_mem_forwards {peer : NodeId} {s : State} {c : Courier} {f : BufferedFrame}
    (h : f ∈ c.forwards peer s) : f ∈ c.taken := by
  have hleaving := mem_of_mem_filter h
  cases c with
  | resend frames =>
    cases frames with
    | nil => cases hleaving
    | cons frame frames =>
      obtain rfl := mem_singleton.mp hleaving
      exact mem_cons_self
  | retry requeue frame frames =>
    obtain rfl := mem_singleton.mp hleaving
    exact mem_append_right requeue mem_cons_self
  | _ => cases hleaving

end Courier

namespace Depot

/-- What couriers have in their hands. -/
def carriedBy (delay : Nat) (couriers : List (Courier × Nat)) : Multiset (TransportFrame × Nat) :=
  (couriers.map fun e => e.1.carried (e.2 + delay)).sum

variable {delay : Nat} {peer : NodeId} {d : Depot}

theorem carriedBy_append (couriers couriers' : List (Courier × Nat)) :
    carriedBy delay (couriers ++ couriers') =
      carriedBy delay couriers + carriedBy delay couriers' := by
  rw [carriedBy, map_append, sum_append]
  rfl

theorem carriedBy_cons (c : Courier) (since : Nat) (couriers : List (Courier × Nat)) :
    carriedBy delay ((c, since) :: couriers) =
      c.carried (since + delay) + carriedBy delay couriers := sum_cons

/-- No courier is at work for longer than the delay, and no flush puts a frame back. -/
def Timely (delay : Nat) (peer : NodeId) (_ : Depot) : Occurrence → Prop
  | .work c since i s => since ≤ i.now ∧ i.now ≤ since + delay ∧ ¬ c.PutsBack peer s
  | _ => True

instance (peer : NodeId) (d : Depot) : (e : Occurrence) → Decidable (Timely delay peer d e)
  | .work _ _ _ _ => inferInstanceAs (Decidable (_ ∧ _ ∧ _))
  | .call _ _ | .flush _ _ | .expire _ | .meanwhile _ => inferInstanceAs (Decidable True)

/-- Every frame that was sent out of the buffer and every frame that is in it or in the hands
of a courier has its own hand-over, at most the delay before the time it is stamped with. -/
structure Dated (delay : Nat) (peer : NodeId) (d : Depot) : Prop where
  balance : Covered (stamps (d.forwarded.map Prod.fst) + carriedBy delay d.couriers +
    stamps (d.buffer.framesOf peer)) (d.handed.map fun e => (e.1, e.2 + delay) : List _)
  forwarded : ∀ e ∈ d.forwarded, e.2 ≤ e.1.enqueuedAt + d.buffer.timeout + delay
  taken : ∀ e ∈ d.couriers, ∀ f ∈ e.1.taken, e.2 ≤ f.enqueuedAt + d.buffer.timeout
  returning : ∀ e ∈ d.couriers, e.1.returning = []

theorem Dated.step {d' : Depot} {e : Occurrence} (h : d.Dated delay peer)
    (he : Timely delay peer d e) (hstep : Step peer d e d') : d'.Dated delay peer := by
  obtain ⟨hbalance, hforwarded, htaken, hreturning⟩ := h
  cases hstep with
  | @call frame now hnow =>
    refine ⟨?_, hforwarded, ?_, ?_⟩
    · rw [carriedBy_append, map_append, ← Multiset.coe_add]
      refine (covered_of_le (le_of_eq ?_)).trans (hbalance.add (covered_of_le (le_refl _)))
      show _ + (_ + ({(frame, now + delay)} + 0)) + _ = _ + {(frame, now + delay)}
      abel
    · exact forall_mem_append.mpr ⟨htaken, forall_mem_singleton.mpr (forall_mem_nil _)⟩
    · exact forall_mem_append.mpr ⟨hreturning, forall_mem_singleton.mpr rfl⟩
  | @flush again now hnow =>
    refine ⟨?_, hforwarded, ?_, ?_⟩
    · have hnothing : carriedBy delay [(.drain again, now)] = 0 := rfl
      rw [carriedBy_append, hnothing, add_zero]
      exact hbalance
    · exact forall_mem_append.mpr ⟨htaken, forall_mem_singleton.mpr (forall_mem_nil _)⟩
    · exact forall_mem_append.mpr ⟨hreturning, forall_mem_singleton.mpr rfl⟩
  | @work before behind c c' since i s s' hcouriers hbuffer hnow hadvance =>
    obtain ⟨hbegun, hsoon, hback⟩ := he
    have hgoes := Courier.goes_of_advance hadvance
    rw [hcouriers] at hbalance htaken hreturning
    rw [forall_mem_append, forall_mem_cons] at htaken hreturning
    have hlocal := hgoes.balance hback hreturning.2.1 hsoon
    have htimeout := hgoes.timeout
    rw [hbuffer] at hlocal htimeout
    refine ⟨?_, ?_, ?_, ?_⟩
    · rw [carriedBy_append] at hbalance
      have hleft : ((c.forwards peer s).map fun frame => (frame, i.now)).map Prod.fst =
          c.forwards peer s := by
        rw [map_map]
        exact map_id _
      rw [carriedBy_append, carriedBy_cons, map_append, hleft, stamps_append]
      have hothers := (covered_of_le (le_refl (stamps (d.forwarded.map Prod.fst) +
        carriedBy delay before + carriedBy delay behind))).add hlocal
      refine ((covered_of_le (le_of_eq ?_)).trans hothers).trans
        ((covered_of_le (le_of_eq ?_)).trans hbalance)
      · abel
      · rw [carriedBy_cons]
        abel
    · rw [htimeout, forall_mem_append, forall_mem_map]
      refine ⟨hforwarded, fun f hf => ?_⟩
      have hage := htaken.2.1 f (Courier.mem_taken_of_mem_forwards hf)
      show i.now ≤ f.enqueuedAt + _ + delay
      omega
    · rw [htimeout, forall_mem_append, forall_mem_cons]
      refine ⟨htaken.1, fun f hf => ?_, htaken.2.2⟩
      rcases hgoes.mem_taken hf with hold | halive
      · exact htaken.2.1 f hold
      · rw [hbuffer] at halive
        have hage : i.now - f.enqueuedAt < d.buffer.timeout := of_decide_eq_true halive
        omega
    · exact forall_mem_append.mpr ⟨hreturning.1, forall_mem_cons.mpr
        ⟨hgoes.returning hback hreturning.2.1, hreturning.2.2⟩⟩
  | @expire now hnow =>
    refine ⟨?_, hforwarded, htaken, hreturning⟩
    rw [framesOf_expireAll]
    exact (covered_of_le (add_le_add (le_refl _) (stamps_le filter_sublist.subperm))).trans hbalance
  | @meanwhile buffer htimeout hframes =>
    refine ⟨?_, ?_, ?_, hreturning⟩
    · rw [← hframes] at hbalance
      exact hbalance
    · rw [← htimeout] at hforwarded
      exact hforwarded
    · rw [← htimeout] at htaken
      exact htaken

/-- What a flush would get out of the buffer. -/
def kept (peer : NodeId) (d : Depot) (now : Nat) : List BufferedFrame :=
  (d.buffer.framesOf peer).filter (d.buffer.alive now)

/-- The frames that were sent out of the buffer, with the times, and those kept there now. -/
def shown (peer : NodeId) (d : Depot) (now : Nat) : List (BufferedFrame × Nat) :=
  d.forwarded ++ (d.kept peer now).map fun f => (f, now)

/-- Every frame that was sent out of the buffer, and every frame that is kept there now, has
its own hand-over, which was at most `limit` before. -/
def KeptWithin (limit : Nat) (peer : NodeId) (d : Depot) (now : Nat) : Prop :=
  ∃ origins ≤ (d.handed : Multiset (TransportFrame × Nat)),
    Multiset.Rel (fun e origin => e.1.frame = origin.1 ∧ e.2 ≤ origin.2 + limit)
      (d.shown peer now : Multiset (BufferedFrame × Nat)) origins

/-- While no call and no flush takes longer than `delay` and no flush puts a frame back, a frame
is kept in the buffer or sent out of it for no longer than the timeout and two delays. -/
theorem keptWithin_of_timely (h : Runs peer (Timely delay peer) d) (now : Nat) :
    d.KeptWithin (d.buffer.timeout + 2 * delay) peer now := by
  have hdated : d.Dated delay peer := by
    refine h.invariant (fun buffer clock hempty => ?_) fun _ _ _ hd he hstep => hd.step he hstep
    refine ⟨?_, forall_mem_nil _, forall_mem_nil _, forall_mem_nil _⟩
    show Covered (0 + 0 + stamps (buffer.framesOf peer)) 0
    rw [hempty]
    exact covered_of_le (le_refl _)
  obtain ⟨hbalance, hforwarded, -, -⟩ := hdated
  have hsplit : (d.shown peer now).map Prod.fst = d.forwarded.map Prod.fst ++ d.kept peer now := by
    rw [shown, map_append, map_map]
    exact congrArg _ (map_id _)
  have hcovered : Covered (stamps ((d.shown peer now).map Prod.fst))
      (d.handed.map fun e => (e.1, e.2 + delay) : List _) := by
    refine (covered_of_le ?_).trans hbalance
    rw [hsplit, stamps_append]
    exact add_le_add (Multiset.le_add_right _ _) (stamps_le filter_sublist.subperm)
  have hage : ∀ e ∈ d.shown peer now, e.2 ≤ e.1.enqueuedAt + d.buffer.timeout + delay := by
    refine forall_mem_append.mpr ⟨hforwarded, forall_mem_map.mpr fun f hf => ?_⟩
    have halive : now - f.enqueuedAt < d.buffer.timeout := of_decide_eq_true (mem_filter.mp hf).2
    show now ≤ f.enqueuedAt + _ + _
    omega
  obtain ⟨zs, hle, hrel⟩ := hcovered
  refine ⟨zs.map fun z => (z.1, z.2 - delay), ?_, ?_⟩
  · refine (Multiset.map_le_map hle).trans (le_of_eq ?_)
    rw [Multiset.map_coe, map_map]
    refine congrArg _ ((map_congr_left fun e _ => ?_).trans (map_id _))
    exact Prod.ext rfl (Nat.add_sub_cancel ..)
  · rw [stamps, ← Multiset.map_coe, Multiset.rel_map_left, Multiset.rel_map_left] at hrel
    rw [Multiset.rel_map_right]
    refine hrel.mono fun e he z _ hz => ⟨hz.1, ?_⟩
    have hstamp : e.1.enqueuedAt ≤ z.2 := hz.2
    have hsent := hage e (Multiset.mem_coe.mp he)
    omega

theorem KeptWithin.forwarded {limit now : Nat} (h : d.KeptWithin limit peer now)
    {e : BufferedFrame × Nat} (he : e ∈ d.forwarded) :
    ∃ origin ∈ d.handed, e.2 ≤ origin.2 + limit := by
  obtain ⟨origins, hle, hrel⟩ := h
  obtain ⟨origin, horigin, -, hage⟩ := Multiset.exists_mem_of_rel_of_mem hrel
    (Multiset.mem_coe.mpr (mem_append_left _ he))
  exact ⟨origin, Multiset.mem_coe.mp (Multiset.mem_of_le hle horigin), hage⟩

/-! ## A peer that is away for a while -/

section Example

open Transparent

/-- The peer is back in time.  The call and the flush each take a second. -/
def backInTime : List Deed :=
  [.call firstFrame 0, .work (atSecond 1) severed, .work (atSecond 1) severed,
    .flush true (atSecond 30).now, .work (atSecond 30) linked, .work (atSecond 31) linked]

/-- The peer is still away after twenty seconds and back after forty. -/
def backLate : List Deed :=
  [.call firstFrame 0, .work (atSecond 0) severed, .work (atSecond 0) severed,
    .flush true (atSecond 20).now, .work (atSecond 20) severed, .work (atSecond 20) severed,
    .work (atSecond 20) severed,
    .flush true (atSecond 40).now, .work (atSecond 40) linked, .work (atSecond 40) linked]

/-- The frame goes out one second after the timeout, which is within two delays of it. -/
theorem keptWithin_backInTime :
    ∃ d, Runs victorId (Timely (atSecond 1).now victorId) d ∧
      d.forwarded.map (fun e => (e.1.frame, e.2)) =
        [(firstFrame, d.buffer.timeout + (atSecond 1).now)] ∧ d.handed = [(firstFrame, 0)] ∧
      d.KeptWithin (d.buffer.timeout + 2 * (atSecond 1).now) victorId d.clock := by
  obtain ⟨d, hruns, hcheck⟩ := exists_runs_of_deeds victorId (Timely (atSecond 1).now victorId)
    backInTime (fun d => d.forwarded.map (fun e => (e.1.frame, e.2)) ==
      [(firstFrame, d.buffer.timeout + (atSecond 1).now)] && d.handed == [(firstFrame, 0)])
    (by decide +kernel)
  obtain ⟨hsent, hhanded⟩ := Bool.and_eq_true_iff.mp hcheck
  exact ⟨d, hruns, eq_of_beq hsent, eq_of_beq hhanded, keptWithin_of_timely hruns d.clock⟩

/-- The frame goes out forty seconds after it was handed over, ten more than the timeout. -/
theorem not_keptWithin_backLate :
    ∃ d, Runs victorId (fun _ _ => True) d ∧ d.handed = [(firstFrame, 0)] ∧
      d.wire = [firstFrame] ∧ ¬ d.KeptWithin d.buffer.timeout victorId d.clock := by
  obtain ⟨d, hruns, hcheck⟩ := exists_runs_of_deeds victorId (fun _ _ => True) backLate
    (fun d => d.handed == [(firstFrame, 0)] && d.wire == [firstFrame] &&
      d.forwarded.any fun e => d.handed.all fun origin =>
        decide (origin.2 + d.buffer.timeout < e.2)) (by decide +kernel)
  obtain ⟨hsent, hlate⟩ := Bool.and_eq_true_iff.mp hcheck
  obtain ⟨hhanded, hwire⟩ := Bool.and_eq_true_iff.mp hsent
  refine ⟨d, hruns, eq_of_beq hhanded, eq_of_beq hwire, fun hwithin => ?_⟩
  obtain ⟨e, he, hall⟩ := any_eq_true.mp hlate
  obtain ⟨origin, horigin, hle⟩ := hwithin.forwarded he
  exact absurd hle (Nat.not_le.mpr (of_decide_eq_true (all_eq_true.mp hall origin horigin)))

end Example

end Depot

end ProximityMesh.Daemon
