/-
  Daemon/SendOrder.lean --- the order in which data frames reach the transport.

  Source: `send_frame_buffered`, `flush_send_buffer` and `run_buffer_flush` of
  crates/pim-daemon/src/peer_tasks.rs; `decrypt` of crates/pim-crypto/src/session.rs.

  A frame that is handed over is sent at once if the connection takes it, whatever
  waits in the buffer.  So data frames go out in the order of the calls only while
  none waits, or is under way, when another one is sent.
-/
import ProximityMesh.Daemon.Retention

set_option autoImplicit false

namespace ProximityMesh.Daemon

open Protocol Transport Crypto Routing ProximityMesh.Task List SendBuffer Priority

/-! ## Data frames -/

def dataOf (frames : List TransportFrame) : List TransportFrame :=
  frames.filter fun frame => frame.frameType == .data

theorem dataOf_append (frames frames' : List TransportFrame) :
    dataOf (frames ++ frames') = dataOf frames ++ dataOf frames' := filter_append ..

theorem dataOf_sublist {frames frames' : List TransportFrame} (h : frames.Sublist frames') :
    (dataOf frames).Sublist (dataOf frames') := h.filter _

theorem dataOf_singleton_of_ne {frame : TransportFrame} (h : frame.frameType ≠ .data) :
    dataOf [frame] = [] := filter_eq_nil_iff.mpr (by simpa using h)

def dataIn (frames : List BufferedFrame) : List TransportFrame :=
  dataOf (frames.map BufferedFrame.frame)

theorem dataIn_append (frames frames' : List BufferedFrame) :
    dataIn (frames ++ frames') = dataIn frames ++ dataIn frames' := by
  rw [dataIn, map_append, dataOf_append]
  rfl

theorem dataIn_cons (f : BufferedFrame) (frames : List BufferedFrame) :
    dataIn (f :: frames) = dataOf [f.frame] ++ dataIn frames := dataIn_append [f] frames

theorem dataIn_sublist {frames frames' : List BufferedFrame} (h : frames.Sublist frames') :
    (dataIn frames).Sublist (dataIn frames') := dataOf_sublist (h.map _)

namespace SendBuffer

/-- A data frame goes to the end, if no frame is stamped later. -/
theorem insertByPriority_data {f : BufferedFrame} {frames : List BufferedFrame}
    (hdata : f.priority = .data) (hstamp : ∀ g ∈ frames, g.enqueuedAt ≤ f.enqueuedAt) :
    insertByPriority f frames = frames ++ [f] := by
  have hall : frames.takeWhile (fun g => decide (g.priority.rank < f.priority.rank) ||
      (g.priority == f.priority && decide (g.enqueuedAt ≤ f.enqueuedAt))) = frames := by
    rw [takeWhile_eq_self_iff]
    intro g hg
    rw [hdata]
    cases hpriority : g.priority with
    | control | route => rfl
    | data => simp [rank, hstamp g hg]
  unfold insertByPriority
  dsimp only
  rw [hall, drop_length]

/-- A push puts a data frame behind the others, if it is put there at all. -/
theorem dataIn_framesOf_push (b : SendBuffer) (now : Nat) (peer : NodeId) (frame : TransportFrame)
    (hstamp : ∀ g ∈ b.framesOf peer, g.enqueuedAt ≤ now) :
    (dataIn ((b.push now peer (ofType frame.frameType) frame).framesOf peer)).Sublist
      (dataIn ((b.framesOf peer).filter (b.alive now)) ++ dataOf [frame]) := by
  obtain ⟨frames, hkept, heq | heq⟩ :=
    framesOf_push_cases b now peer (ofType frame.frameType) frame
  · rw [heq]
    exact (dataIn_sublist hkept).trans (sublist_append_left ..)
  · rw [heq]
    by_cases hdata : frame.frameType = .data
    · rw [insertByPriority_data (by rw [hdata]; rfl), dataIn_append]
      · exact (dataIn_sublist hkept).append (.refl _)
      · exact fun g hg => hstamp g (mem_of_mem_filter (hkept.subset hg))
    · obtain ⟨front, back, hinsert, rfl⟩ :=
        insertByPriority_split ⟨now, ofType frame.frameType, frame⟩ frames
      rw [hinsert, dataIn_append, dataIn_cons, dataOf_singleton_of_ne hdata, nil_append, append_nil,
        ← dataIn_append]
      exact dataIn_sublist hkept

end SendBuffer

/-- The unexpired data frames that wait in a buffer. -/
def waitingIn (peer : NodeId) (b : SendBuffer) (now : Nat) : List TransportFrame :=
  dataIn ((b.framesOf peer).filter (b.alive now))

namespace Courier

/-- The data frames in the hands of a courier, in order. -/
def dataInHand : Courier → List TransportFrame
  | hand frame => dataOf [frame]
  | hold frame => dataOf [frame]
  | resend frames => dataIn frames
  | retry requeue frame frames => dataIn (requeue ++ frame :: frames)
  | putBack frames => dataIn frames
  | _ => []

/-- The courier has a data frame in its hands, or is about to take some from the buffer. -/
def Engaged (c : Courier) : Prop := c.dataInHand ≠ [] ∨ ∃ again, c = drain again

instance (c : Courier) : Decidable c.Engaged := inferInstanceAs (Decidable (_ ∨ _))

/-- The flush has data frames that it took from the buffer and may still send. -/
def Flushing : Courier → Prop
  | resend frames => dataIn frames ≠ []
  | retry requeue frame frames => dataIn (requeue ++ frame :: frames) ≠ []
  | _ => False

/-- A data frame that the transport takes is the next one: it does not pass one that waits
in the buffer, nor one that the flush has not been able to send. -/
def InTurn (peer : NodeId) (i : Input) (s : State) : Courier → Prop
  | hand frame => frame.frameType = .data → Sent s peer frame →
      waitingIn peer s.sendBuffer i.now = []
  | retry requeue frame _ => frame.frame.frameType = .data → Sent s peer frame.frame →
      dataIn requeue = []
  | _ => True

instance (peer : NodeId) (i : Input) (s : State) : (c : Courier) → Decidable (c.InTurn peer i s)
  | hand _ | retry _ _ _ => inferInstanceAs (Decidable (_ → _))
  | hold _ | lose | drain _ | resend _ | putBack _ | done => inferInstanceAs (Decidable True)

theorem dataInHand_ne_nil_of_flushing {c : Courier} (h : c.Flushing) : c.dataInHand ≠ [] := by
  cases c with
  | resend frames | retry requeue frame frames => exact h
  | _ => exact absurd h id

theorem dataInHand_retrying (requeue frames : List BufferedFrame) :
    (retrying requeue frames).dataInHand = dataIn (requeue ++ frames) := by
  cases frames with
  | nil =>
    rw [append_nil]
    rfl
  | cons frame frames => rfl

theorem dataInHand_drained (again : Bool) (frames : List BufferedFrame) :
    (drained again frames).dataInHand = dataIn frames := by
  cases again with
  | false => rfl
  | true => exact dataInHand_retrying [] frames

theorem dataInHand_handed_sublist (frame : TransportFrame) (result : Except TransportError Unit) :
    (handed frame result).dataInHand.Sublist (dataOf [frame]) := by
  rcases handed_cases frame result with heq | heq | heq
  · rw [heq]
    exact nil_sublist _
  · rw [heq]
    exact .refl _
  · rw [heq]
    exact nil_sublist _

theorem dataInHand_retried_sublist (requeue : List BufferedFrame) (frame : BufferedFrame)
    (frames : List BufferedFrame) (result : Except TransportError Unit) :
    (retried requeue frame frames result).dataInHand.Sublist
      (dataIn (requeue ++ frame :: frames)) := by
  obtain ⟨requeue', frames', heq, hsub⟩ := retried_eq_retrying requeue frame frames result
  rw [heq, dataInHand_retrying]
  exact dataIn_sublist hsub

/-- Nothing comes into the hands of a courier but by a drain. -/
theorem Goes.dataInHand_sublist {peer : NodeId} {i : Input} {s s' : State} {c c' : Courier}
    (h : Goes peer i s c s' c') (hdrain : ∀ again, c ≠ Courier.drain again) :
    c'.dataInHand.Sublist c.dataInHand := by
  cases h with
  | hand frame => exact dataInHand_handed_sublist ..
  | hold frame => exact nil_sublist _
  | lose => exact .refl _
  | drain again => exact absurd rfl (hdrain again)
  | resend frame frames => exact dataIn_sublist (sublist_cons_self ..)
  | retry requeue frame frames => exact dataInHand_retried_sublist ..
  | putBack frame frames => exact dataIn_sublist (sublist_cons_self ..)

theorem Goes.ne_drain {peer : NodeId} {i : Input} {s s' : State} {c c' : Courier}
    (h : Goes peer i s c s' c') (again : Bool) : c' ≠ Courier.drain again := by
  have hretrying (requeue frames : List BufferedFrame) :
      retrying requeue frames ≠ Courier.drain again := by
    cases frames with
    | nil | cons frame frames => exact Courier.noConfusion
  cases h with
  | hand frame =>
    rcases handed_cases frame (s.transport.send peer frame).1 with heq | heq | heq <;>
      rw [heq] <;> exact Courier.noConfusion
  | drain periodic =>
    cases periodic with
    | false => exact Courier.noConfusion
    | true => exact hretrying _ _
  | retry requeue frame frames =>
    obtain ⟨requeue', frames', heq, -⟩ := retried_eq_retrying requeue frame frames
      (s.transport.send peer frame.frame).1
    rw [heq]
    exact hretrying requeue' frames'
  | _ => exact Courier.noConfusion

/-- What is sent is put in front of what waits, if nothing waits. -/
theorem sublist_of_absent {sent waits left inHand : List TransportFrame}
    (h : (sent ++ left).Sublist inHand) (hnone : inHand ≠ [] → waits = []) :
    (sent ++ waits ++ left).Sublist (waits ++ inHand) := by
  rcases inHand.eq_nil_or_concat with rfl | ⟨front, last, rfl⟩
  · obtain ⟨rfl, rfl⟩ := append_eq_nil_iff.mp (sublist_nil.mp h)
    exact .refl _
  · rw [hnone (by simp), append_nil]
    exact h

section Order

variable {peer : NodeId} {i : Input} {s s' : State} {c c' : Courier}

theorem dataOf_puts_of_not_sent (h : ∀ frame ∈ c.outgoing, ¬ Sent s peer frame) :
    dataOf (c.puts peer s) = [] := by
  have hnone : c.puts peer s = [] :=
    filter_eq_nil_iff.mpr fun frame hframe => by
      simpa using h frame (Option.mem_toList.mp hframe)
  rw [hnone]
  rfl

theorem dataOf_puts_sublist {frame : TransportFrame} (h : c.outgoing = some frame) :
    (dataOf (c.puts peer s)).Sublist (dataOf [frame]) := by
  refine dataOf_sublist ?_
  rw [puts, h]
  exact filter_sublist

/-- A step keeps the order of what waits and of what is in the hands of the courier, with what
it puts on the wire in front. -/
theorem Goes.order (h : Goes peer i s c s' c') (hturn : c.InTurn peer i s)
    (hstamp : ∀ f ∈ s.sendBuffer.framesOf peer, f.enqueuedAt ≤ i.now)
    (hflushing : c.Flushing → waitingIn peer s.sendBuffer i.now = []) :
    (dataOf (c.puts peer s) ++ waitingIn peer s'.sendBuffer i.now ++ c'.dataInHand).Sublist
      (waitingIn peer s.sendBuffer i.now ++ c.dataInHand) := by
  have hpushed (frame : TransportFrame) : (waitingIn peer
      (s.sendBuffer.push i.now peer (ofType frame.frameType) frame) i.now).Sublist
        (waitingIn peer s.sendBuffer i.now ++ dataOf [frame]) :=
    (dataIn_sublist filter_sublist).trans
      (dataIn_framesOf_push s.sendBuffer i.now peer frame hstamp)
  cases h with
  | hand frame =>
    by_cases hsent : Sent s peer frame
    · rw [show (s.transport.send peer frame).1 = .ok () from hsent]
      by_cases hdata : frame.frameType = .data
      · refine sublist_of_absent ?_ fun _ => hturn hdata hsent
        rw [show (handed frame (.ok ())).dataInHand = [] from rfl, append_nil]
        exact dataOf_puts_sublist rfl
      · have hputs := @dataOf_puts_sublist peer s (.hand frame) frame rfl
        rw [dataOf_singleton_of_ne hdata, sublist_nil] at hputs
        rw [hputs]
        show (waitingIn peer s.sendBuffer i.now ++ []).Sublist _
        rw [append_nil]
        exact sublist_append_left _ _
    · rw [dataOf_puts_of_not_sent (by simpa [outgoing] using hsent)]
      exact (List.Sublist.refl _).append (dataInHand_handed_sublist ..)
  | hold frame =>
    show (waitingIn peer _ i.now ++ []).Sublist _
    rw [append_nil]
    exact hpushed frame
  | lose => exact .refl _
  | drain again =>
    show (waitingIn peer (s.sendBuffer.drain i.now peer).2 i.now ++
      (drained _ _).dataInHand).Sublist (_ ++ [])
    rw [dataInHand_drained, waitingIn, framesOf_drain, if_pos rfl, append_nil]
    exact .refl _
  | resend frame frames =>
    refine sublist_of_absent ?_ hflushing
    show (_ ++ dataIn frames).Sublist (dataIn (frame :: frames))
    rw [dataIn_cons]
    exact (dataOf_puts_sublist rfl).append (.refl _)
  | retry requeue frame frames =>
    refine sublist_of_absent ?_ hflushing
    by_cases hsent : Sent s peer frame.frame
    · rw [show (s.transport.send peer frame.frame).1 = .ok () from hsent]
      show (_ ++ (retrying requeue frames).dataInHand).Sublist (dataIn (requeue ++ frame :: frames))
      have hputs := @dataOf_puts_sublist peer s (.retry requeue frame frames) frame.frame rfl
      rw [dataInHand_retrying, dataIn_append, dataIn_append, dataIn_cons]
      by_cases hdata : frame.frame.frameType = .data
      · rw [hturn hdata hsent]
        exact hputs.append (.refl _)
      · have hnone := dataOf_singleton_of_ne hdata
        rw [hnone, sublist_nil] at hputs
        rw [hnone, hputs]
        exact .refl _
    · rw [dataOf_puts_of_not_sent (by simpa [outgoing] using hsent)]
      exact dataInHand_retried_sublist ..
  | putBack frame frames =>
    show (waitingIn peer _ i.now ++ dataIn frames).Sublist (_ ++ dataIn (frame :: frames))
    rw [dataIn_cons, ← append_assoc]
    exact (hpushed frame.frame).append (.refl _)

/-- A flush that has data frames to send has just taken all there were. -/
theorem Goes.flushing (h : Goes peer i s c s' c')
    (hflushing : c.Flushing → waitingIn peer s.sendBuffer i.now = []) (hc : c'.Flushing) :
    waitingIn peer s'.sendBuffer i.now = [] := by
  cases h with
  | hand frame =>
    rcases handed_cases frame (s.transport.send peer frame).1 with heq | heq | heq <;>
      rw [heq] at hc <;> exact absurd hc id
  | hold frame | lose => exact absurd hc id
  | drain again =>
    rw [waitingIn, framesOf_drain, if_pos rfl]
    rfl
  | resend frame frames =>
    refine hflushing fun hnone => hc ?_
    exact sublist_nil.mp (hnone ▸ dataIn_sublist (sublist_cons_self ..))
  | retry requeue frame frames =>
    refine hflushing fun hnone => dataInHand_ne_nil_of_flushing hc ?_
    exact sublist_nil.mp (hnone ▸ dataInHand_retried_sublist ..)
  | putBack frame frames => exact absurd hc id

end Order

end Courier

namespace Depot

/-- No courier is engaged. -/
def Idle (d : Depot) : Prop := ∀ e ∈ d.couriers, ¬ e.1.Engaged

/-- Calls with data frames and flushes do not overlap, and data frames are sent in turn. -/
def Careful (peer : NodeId) (d : Depot) : Occurrence → Prop
  | .call frame _ => frame.frameType = .data → d.Idle
  | .flush _ _ => d.Idle
  | .work c _ i s => c.InTurn peer i s
  | _ => True

instance (d : Depot) : Decidable d.Idle := inferInstanceAs (Decidable (∀ e ∈ _, ¬ _))

instance (peer : NodeId) (d : Depot) : (e : Occurrence) → Decidable (Careful peer d e)
  | .call _ _ => inferInstanceAs (Decidable (_ → _))
  | .flush _ _ => inferInstanceAs (Decidable d.Idle)
  | .work c _ i s => inferInstanceAs (Decidable (c.InTurn peer i s))
  | .expire _ | .meanwhile _ => inferInstanceAs (Decidable True)

def inHands (couriers : List (Courier × Nat)) : List TransportFrame :=
  couriers.flatMap fun e => e.1.dataInHand

/-- What is on the wire, in the buffer and in the hands of a courier is in the order in which it
was handed over. -/
structure Ordered (peer : NodeId) (d : Depot) : Prop where
  stamped : ∀ f ∈ d.buffer.framesOf peer, f.enqueuedAt ≤ d.clock
  exclusive : d.couriers.Pairwise fun e e' => ¬ (e.1.Engaged ∧ e'.1.Engaged)
  flushing : ∀ e ∈ d.couriers, e.1.Flushing → waitingIn peer d.buffer d.clock = []
  order : (dataOf d.wire ++ waitingIn peer d.buffer d.clock ++ inHands d.couriers).Sublist
    (dataOf (d.handed.map Prod.fst))

variable {peer : NodeId} {d : Depot}

theorem waitingIn_sublist {b : SendBuffer} {clock now : Nat} (h : clock ≤ now) :
    (waitingIn peer b now).Sublist (waitingIn peer b clock) := by
  refine dataIn_sublist (monotone_filter_right _ fun f halive => ?_)
  have hage : now - f.enqueuedAt < b.timeout := of_decide_eq_true halive
  exact decide_eq_true (show clock - f.enqueuedAt < b.timeout by omega)

theorem inHands_append (couriers couriers' : List (Courier × Nat)) :
    inHands (couriers ++ couriers') = inHands couriers ++ inHands couriers' := flatMap_append

theorem inHands_cons (c : Courier) (since : Nat) (couriers : List (Courier × Nat)) :
    inHands ((c, since) :: couriers) = c.dataInHand ++ inHands couriers := flatMap_cons ..

theorem inHands_of_idle {couriers : List (Courier × Nat)} (h : ∀ e ∈ couriers, ¬ e.1.Engaged) :
    inHands couriers = [] := by
  refine flatMap_eq_nil_iff.mpr fun e he => ?_
  by_contra hne
  exact h e he (.inl hne)

theorem Ordered.join (h : d.Ordered peer) {now : Nat} (hnow : d.clock ≤ now) (c : Courier)
    (more : List (TransportFrame × Nat)) (hidle : c.Engaged → d.Idle) (hflush : ¬ c.Flushing)
    (hmore : c.dataInHand = dataOf (more.map Prod.fst)) :
    Ordered peer { d with
      couriers := d.couriers ++ [(c, now)]
      clock := now
      handed := d.handed ++ more } := by
  refine ⟨fun f hf => (h.stamped f hf).trans hnow, ?_, ?_, ?_⟩
  · refine pairwise_append.mpr ⟨h.exclusive, pairwise_singleton .., ?_⟩
    intro e he e' he' hboth
    rw [mem_singleton.mp he'] at hboth
    exact hidle hboth.2 e he hboth.1
  · refine forall_mem_append.mpr ⟨fun e he hflushing => ?_, ?_⟩
    · exact sublist_nil.mp (h.flushing e he hflushing ▸ waitingIn_sublist hnow)
    · exact forall_mem_singleton.mpr fun hflushing => absurd hflushing hflush
  · have hhands : inHands [(c, now)] = c.dataInHand := append_nil _
    rw [inHands_append, hhands, hmore, map_append, dataOf_append, ← append_assoc]
    refine List.Sublist.append ?_ (.refl _)
    exact (((List.Sublist.refl _).append (waitingIn_sublist hnow)).append (.refl _)).trans h.order

theorem Ordered.work (h : d.Ordered peer) {before behind : List (Courier × Nat)} {c c' : Courier}
    {since : Nat} {i : Input} {s s' : State}
    (hcouriers : d.couriers = before ++ (c, since) :: behind) (hbuffer : s.sendBuffer = d.buffer)
    (hnow : d.clock ≤ i.now) (hgoes : Courier.Goes peer i s c s' c') (hturn : c.InTurn peer i s) :
    Ordered peer
      { buffer := s'.sendBuffer
        couriers := before ++ (c', since) :: behind
        clock := i.now
        handed := d.handed
        forwarded := d.forwarded ++ (c.forwards peer s).map fun frame => (frame, i.now)
        wire := d.wire ++ c.puts peer s } := by
  obtain ⟨hstamped, hexclusive, hflushing, horder⟩ := h
  rw [hcouriers] at hexclusive hflushing horder
  obtain ⟨hpairs, hpair, hfront⟩ := pairwise_append.mp hexclusive
  obtain ⟨hback, hpairs'⟩ := pairwise_cons.mp hpair
  rw [forall_mem_append, forall_mem_cons] at hflushing
  have hstamp : ∀ f ∈ s.sendBuffer.framesOf peer, f.enqueuedAt ≤ i.now := by
    rw [hbuffer]
    exact fun f hf => (hstamped f hf).trans hnow
  have hwaits : (waitingIn peer s.sendBuffer i.now).Sublist (waitingIn peer d.buffer d.clock) := by
    rw [hbuffer]
    exact waitingIn_sublist hnow
  have hown : c.Flushing → waitingIn peer s.sendBuffer i.now = [] := fun hc =>
    sublist_nil.mp (hflushing.2.1 hc ▸ hwaits)
  have hlocal := hgoes.order hturn hstamp hown
  -- a courier that is not engaged stays so
  have hsame (hfree : ¬ c.Engaged) : c.dataInHand = [] ∧ c'.dataInHand = [] := by
    have hnone : c.dataInHand = [] := by_contra fun hne => hfree (.inl hne)
    have hsub := hgoes.dataInHand_sublist fun again hdrain => hfree (.inr ⟨again, hdrain⟩)
    exact ⟨hnone, sublist_nil.mp (hnone ▸ hsub)⟩
  have hengaged (hc : c'.Engaged) : c.Engaged := by
    by_contra hfree
    rcases hc with hdata | ⟨again, hdrain⟩
    · exact hdata (hsame hfree).2
    · exact hgoes.ne_drain again hdrain
  refine ⟨hgoes.forall_framesOf hstamp fun _ _ => Nat.le_refl _, ?_, ?_, ?_⟩
  · refine pairwise_append.mpr ⟨hpairs, pairwise_cons.mpr ⟨?_, hpairs'⟩, ?_⟩
    · exact fun e he hboth => hback e he ⟨hengaged hboth.1, hboth.2⟩
    · refine fun e he e' he' hboth => ?_
      rcases mem_cons.mp he' with rfl | hbehind
      · exact hfront e he (c, since) mem_cons_self ⟨hboth.1, hengaged hboth.2⟩
      · exact hfront e he e' (mem_cons_of_mem _ hbehind) hboth
  · -- when another courier is flushing this one is not engaged
    have hother (hfree : ¬ c.Engaged) (hnone : waitingIn peer d.buffer d.clock = []) :
        waitingIn peer s'.sendBuffer i.now = [] := by
      rw [(hsame hfree).1, (hsame hfree).2, append_nil, append_nil] at hlocal
      rw [hnone, sublist_nil] at hwaits
      rw [hwaits, sublist_nil] at hlocal
      exact (append_eq_nil_iff.mp hlocal).2
    refine forall_mem_append.mpr ⟨fun e he hc => ?_, forall_mem_cons.mpr
      ⟨fun hc => hgoes.flushing hown hc, fun e he hc => ?_⟩⟩
    · refine hother (fun hboth => ?_) (hflushing.1 e he hc)
      exact hfront e he (c, since) mem_cons_self
        ⟨.inl (Courier.dataInHand_ne_nil_of_flushing hc), hboth⟩
    · refine hother (fun hboth => ?_) (hflushing.2.2 e he hc)
      exact hback e he ⟨hboth, .inl (Courier.dataInHand_ne_nil_of_flushing hc)⟩
  · have hmid : (dataOf (c.puts peer s) ++ waitingIn peer s'.sendBuffer i.now ++
          inHands (before ++ (c', since) :: behind)).Sublist
        (waitingIn peer s.sendBuffer i.now ++ inHands (before ++ (c, since) :: behind)) := by
      rw [inHands_append, inHands_append, inHands_cons, inHands_cons]
      by_cases hc : c.Engaged
      · have hbefore : inHands before = [] := inHands_of_idle fun e he hboth =>
          hfront e he (c, since) mem_cons_self ⟨hboth, hc⟩
        have hbehind : inHands behind = [] :=
          inHands_of_idle fun e he hboth => hback e he ⟨hc, hboth⟩
        rw [hbefore, hbehind, append_nil, append_nil]
        exact hlocal
      · rw [(hsame hc).1, (hsame hc).2, append_nil, append_nil] at hlocal
        rw [(hsame hc).1, (hsame hc).2]
        exact hlocal.append (.refl _)
    rw [dataOf_append, append_assoc, append_assoc, ← append_assoc (dataOf (c.puts peer s))]
    refine ((List.Sublist.refl _).append hmid).trans ?_
    rw [← append_assoc]
    exact (((List.Sublist.refl _).append hwaits).append (.refl _)).trans horder

theorem Ordered.step {d' : Depot} {e : Occurrence} (h : d.Ordered peer) (he : Careful peer d e)
    (hstep : Step peer d e d') : d'.Ordered peer := by
  cases hstep with
  | @call frame now hnow =>
    refine h.join hnow (.hand frame) [(frame, now)] (fun hengaged => ?_) id rfl
    rcases hengaged with hdata | ⟨again, hdrain⟩
    · exact he (by_contra fun hother => hdata (dataOf_singleton_of_ne hother))
    · cases hdrain
  | @flush again now hnow =>
    have hjoin := h.join hnow (.drain again) [] (fun _ => he) id rfl
    rw [append_nil] at hjoin
    exact hjoin
  | @work before behind c c' since i s s' hcouriers hbuffer hnow hadvance =>
    exact h.work hcouriers hbuffer hnow (Courier.goes_of_advance hadvance) he
  | @expire now hnow =>
    have hwaiting : (waitingIn peer (d.buffer.expireAll now).2 now).Sublist
        (waitingIn peer d.buffer d.clock) := by
      refine (dataIn_sublist ?_).trans (waitingIn_sublist hnow)
      rw [framesOf_expireAll]
      exact filter_sublist
    refine ⟨fun f hf => ?_, h.exclusive, fun e he hflushing => ?_, ?_⟩
    · have hmem : f ∈ (d.buffer.framesOf peer).filter (d.buffer.alive now) := by
        rw [← framesOf_expireAll]
        exact hf
      exact (h.stamped f (mem_of_mem_filter hmem)).trans hnow
    · exact sublist_nil.mp (h.flushing e he hflushing ▸ hwaiting)
    · exact (((List.Sublist.refl _).append hwaiting).append (.refl _)).trans h.order
  | @meanwhile buffer htimeout hframes =>
    have halive : buffer.alive = d.buffer.alive := by
      funext now f
      rw [alive, alive, htimeout]
    have hwaiting : waitingIn peer buffer d.clock = waitingIn peer d.buffer d.clock := by
      rw [waitingIn, hframes, halive]
      rfl
    refine ⟨fun f hf => h.stamped f (hframes ▸ hf), h.exclusive,
      fun e he hflushing => hwaiting.trans (h.flushing e he hflushing), ?_⟩
    rw [hwaiting]
    exact h.order

section Example

open Transparent

end Example

end Depot

end ProximityMesh.Daemon
