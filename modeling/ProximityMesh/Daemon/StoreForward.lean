/-
  Daemon/StoreForward.lean --- what becomes of the frames that are handed over for one
  peer.

  Source: `send_frame_buffered`, `flush_send_buffer` and `run_buffer_flush` of
  crates/pim-daemon/src/peer_tasks.rs, crates/pim-daemon/src/send_buffer.rs;
  docs/architecture/routing.md, "Store-and-Forward".

  A courier is a task that is at work for the peer: a call of `send_frame_buffered`, a
  flush after a handshake, or the part of a periodic flush that is about the peer.
  Couriers run the code of the daemon (`task_advance`), one lock at a time and in any
  order, and each step meets whatever state the connections of the peer are in.  Of
  the state they share only the send buffer matters.
-/
import ProximityMesh.Daemon.Forwarding
import ProximityMesh.Daemon.Outbox

set_option autoImplicit false

namespace ProximityMesh.Daemon

open Protocol Transport Crypto Routing ProximityMesh.Task List

/-! ## Couriers -/

/-- A task that is at work for one peer, between two of its steps.  The frames of a flush
are those it took from the buffer, with the time they were put there. -/
inductive Courier where
  /-- `send_frame_buffered`, before it calls the transport. -/
  | hand (frame : TransportFrame)
  /-- Before it buffers the frame. -/
  | hold (frame : TransportFrame)
  /-- Before it counts a frame lost to congestion. -/
  | lose
  /-- A flush before it drains the buffer; `again` is the periodic one. -/
  | drain (again : Bool)
  /-- The flush after a handshake. -/
  | resend (frames : List BufferedFrame)
  /-- The periodic flush, with what goes back into the buffer. -/
  | retry (requeue : List BufferedFrame) (frame : BufferedFrame) (frames : List BufferedFrame)
  | putBack (frames : List BufferedFrame)
  | done
  deriving DecidableEq

namespace Courier

/-- The periodic flush behind a send. -/
def retrying (requeue : List BufferedFrame) : List BufferedFrame → Courier
  | [] => putBack requeue
  | frame :: frames => retry requeue frame frames

/-- What is left to do. -/
def task (peer : NodeId) : Courier → DaemonM Unit
  | hand frame => sendFrameBuffered peer frame
  | hold frame => bufferPush peer frame
  | lose => .modify fun s => { s with congestionDrops := s.congestionDrops + 1 }
  | drain false => flushSendBuffer peer
  | drain true => do
      let buffered ← .atomically fun i s =>
        let (frames, sendBuffer) := s.sendBuffer.drain i.now peer
        ({ s with sendBuffer }, frames)
      Daemon.retry peer buffered
  | resend frames => Daemon.resend peer (frames.map BufferedFrame.frame)
  | retry requeue frame frames => do
      let rest ← flushFrames peer false ((frame :: frames).map BufferedFrame.frame)
      Task.each (bufferPush peer) (requeue.map BufferedFrame.frame ++ rest)
  | putBack frames => Task.each (bufferPush peer) (frames.map BufferedFrame.frame)
  | done => pure ()

/-- `send_frame_buffered` behind the send. -/
def handed (frame : TransportFrame) : Except TransportError Unit → Courier
  | .ok () => done
  | .error (.peerNotConnected _) => hold frame
  | .error (.congested _) =>
      if shouldBufferUnderCongestion frame.frameType then hold frame else lose
  | .error (.sendFailed _) => done

/-- The periodic flush behind the send of a frame. -/
def retried (requeue : List BufferedFrame) (frame : BufferedFrame) (frames : List BufferedFrame) :
    Except TransportError Unit → Courier
  | .ok () => retrying requeue frames
  | .error (.congested _) => putBack (requeue ++ frame :: frames)
  | .error (.peerNotConnected _) => retrying (requeue ++ [frame]) frames
  | .error (.sendFailed _) => retrying requeue frames

/-- A flush behind the drain. -/
def drained (again : Bool) (frames : List BufferedFrame) : Courier :=
  if again then retrying [] frames else resend frames

/-- The next step: what it does, and what is left then. -/
def advance (peer : NodeId) (i : Input) (s : State) : Courier → Option (State × Courier)
  | hand frame =>
      some ({ s with transport := (s.transport.send peer frame).2 },
        handed frame (s.transport.send peer frame).1)
  | hold frame =>
      some ({ s with
        sendBuffer := s.sendBuffer.push i.now peer (Priority.ofType frame.frameType) frame }, done)
  | lose => some ({ s with congestionDrops := s.congestionDrops + 1 }, done)
  | drain again =>
      some ({ s with sendBuffer := (s.sendBuffer.drain i.now peer).2 },
        drained again ((s.sendBuffer.framesOf peer).filter (s.sendBuffer.alive i.now)))
  | resend [] => none
  | resend (frame :: frames) =>
      some ({ s with transport := (s.transport.send peer frame.frame).2 }, resend frames)
  | retry requeue frame frames =>
      some ({ s with transport := (s.transport.send peer frame.frame).2 },
        retried requeue frame frames (s.transport.send peer frame.frame).1)
  | putBack [] => none
  | putBack (frame :: frames) =>
      some ({ s with
        sendBuffer :=
          s.sendBuffer.push i.now peer (Priority.ofType frame.frame.frameType) frame.frame },
        putBack frames)
  | done => none

end Courier

/-- Behind a congested send nothing is tried. -/
theorem flushFrames_true (peer : NodeId) (frames : List TransportFrame) :
    flushFrames peer true frames = pure frames := by
  induction frames with
  | nil => rfl
  | cons frame frames ih =>
    rw [flushFrames, ih]
    rfl

namespace Courier

variable (peer : NodeId)

theorem task_retrying (requeue frames : List BufferedFrame) :
    (retrying requeue frames).task peer = (do
      let rest ← flushFrames peer false (frames.map BufferedFrame.frame)
      Task.each (bufferPush peer) (requeue.map BufferedFrame.frame ++ rest)) := by
  cases frames with
  | nil =>
    show Task.each (bufferPush peer) _ = Task.each (bufferPush peer) (_ ++ [])
    rw [append_nil]
  | cons frame frames => rfl

/-- Couriers run the code: what is left is either nothing or a step that does what
`advance` says. -/
theorem task_advance (c : Courier) (i : Input) (s : State) :
    match c.advance peer i s with
    | none => c.task peer = pure ()
    | some (s', c') => ∃ act next, c.task peer = .step act next ∧ act i s = some s' ∧
        next i s = c'.task peer := by
  cases c with
  | hand frame =>
    refine ⟨_, _, rfl, rfl, ?_⟩
    cases hsend : (s.transport.send peer frame).1 with
    | ok u =>
      simp only [hsend]
      rfl
    | error e =>
      cases e with
      | peerNotConnected _ | sendFailed _ =>
        simp only [hsend]
        rfl
      | congested _ =>
        simp only [hsend, handed, apply_ite (Courier.task peer)]
        rfl
  | hold frame | lose => exact ⟨_, _, rfl, rfl, rfl⟩
  | drain again =>
    cases again with
    | false =>
      refine ⟨_, _, rfl, rfl, ?_⟩
      show Daemon.resend peer (s.sendBuffer.drain i.now peer).1 = _
      rw [SendBuffer.drain_frames]
      rfl
    | true =>
      refine ⟨_, _, rfl, rfl, ?_⟩
      show Daemon.retry peer (s.sendBuffer.drain i.now peer).1 = Courier.task peer (retrying [] _)
      rw [SendBuffer.drain_frames, task_retrying]
      rfl
  | resend frames =>
    cases frames with
    | nil => rfl
    | cons frame frames => exact ⟨_, _, rfl, rfl, rfl⟩
  | retry requeue frame frames =>
    refine ⟨_, _, rfl, rfl, ?_⟩
    cases hsend : (s.transport.send peer frame.frame).1 with
    | ok u =>
      simp only [hsend]
      exact (task_retrying ..).symm
    | error e =>
      cases e with
      | sendFailed _ =>
        simp only [hsend]
        exact (task_retrying ..).symm
      | peerNotConnected _ =>
        simp only [hsend]
        refine Eq.trans ?_ (task_retrying ..).symm
        refine (Task.bind_assoc (flushFrames ..) ..).trans (congrArg _ (funext fun rest => ?_))
        rw [map_append, append_assoc]
        rfl
      | congested _ =>
        simp only [hsend, flushFrames_true]
        show Task.each (bufferPush peer) _ = Task.each (bufferPush peer) _
        rw [map_append]
        rfl
  | putBack frames =>
    cases frames with
    | nil => rfl
    | cons frame frames => exact ⟨_, _, rfl, rfl, rfl⟩
  | done => rfl

/-- The steps, one by one. -/
inductive Goes (peer : NodeId) (i : Input) (s : State) : Courier → State → Courier → Prop
  | hand (frame : TransportFrame) :
      Goes peer i s (hand frame) { s with transport := (s.transport.send peer frame).2 }
        (handed frame (s.transport.send peer frame).1)
  | hold (frame : TransportFrame) :
      Goes peer i s (hold frame)
        { s with sendBuffer :=
          s.sendBuffer.push i.now peer (Priority.ofType frame.frameType) frame }
        done
  | lose : Goes peer i s lose { s with congestionDrops := s.congestionDrops + 1 } done
  | drain (again : Bool) :
      Goes peer i s (drain again) { s with sendBuffer := (s.sendBuffer.drain i.now peer).2 }
        (drained again ((s.sendBuffer.framesOf peer).filter (s.sendBuffer.alive i.now)))
  | resend (frame : BufferedFrame) (frames : List BufferedFrame) :
      Goes peer i s (resend (frame :: frames))
        { s with transport := (s.transport.send peer frame.frame).2 } (resend frames)
  | retry (requeue : List BufferedFrame) (frame : BufferedFrame) (frames : List BufferedFrame) :
      Goes peer i s (retry requeue frame frames)
        { s with transport := (s.transport.send peer frame.frame).2 }
        (retried requeue frame frames (s.transport.send peer frame.frame).1)
  | putBack (frame : BufferedFrame) (frames : List BufferedFrame) :
      Goes peer i s (putBack (frame :: frames))
        { s with sendBuffer :=
            s.sendBuffer.push i.now peer (Priority.ofType frame.frame.frameType) frame.frame }
        (putBack frames)

theorem goes_of_advance {peer : NodeId} {i : Input} {s s' : State} {c c' : Courier}
    (h : c.advance peer i s = some (s', c')) : Goes peer i s c s' c' := by
  cases c with
  | hand frame =>
    cases h
    exact .hand frame
  | hold frame =>
    cases h
    exact .hold frame
  | lose =>
    cases h
    exact .lose
  | drain again =>
    cases h
    exact .drain again
  | resend frames =>
    cases frames with
    | nil => cases h
    | cons frame frames =>
      cases h
      exact .resend frame frames
  | retry requeue frame frames =>
    cases h
    exact .retry requeue frame frames
  | putBack frames =>
    cases frames with
    | nil => cases h
    | cons frame frames =>
      cases h
      exact .putBack frame frames
  | done => cases h

theorem handed_cases (frame : TransportFrame) (result : Except TransportError Unit) :
    handed frame result = done ∨ handed frame result = hold frame ∨ handed frame result = lose := by
  cases result with
  | ok u => exact .inl rfl
  | error e =>
    cases e with
    | peerNotConnected _ => exact .inr (.inl rfl)
    | congested _ =>
      rw [handed]
      split
      · exact .inr (.inl rfl)
      · exact .inr (.inr rfl)
    | sendFailed _ => exact .inl rfl

/-- A periodic flush goes on with some of the frames it had, in the order it had them. -/
theorem retried_eq_retrying (requeue : List BufferedFrame) (frame : BufferedFrame)
    (frames : List BufferedFrame) (result : Except TransportError Unit) :
    ∃ requeue' frames', retried requeue frame frames result = retrying requeue' frames' ∧
      (requeue' ++ frames').Sublist (requeue ++ frame :: frames) := by
  have hskip : (requeue ++ frames).Sublist (requeue ++ frame :: frames) :=
    (List.Sublist.refl requeue).append (sublist_cons_self ..)
  cases result with
  | ok u => exact ⟨requeue, frames, rfl, hskip⟩
  | error e =>
    cases e with
    | peerNotConnected _ =>
      refine ⟨requeue ++ [frame], frames, rfl, ?_⟩
      rw [append_assoc]
      exact .refl _
    | congested _ =>
      refine ⟨requeue ++ frame :: frames, [], rfl, ?_⟩
      rw [append_nil]
    | sendFailed _ => exact ⟨requeue, frames, rfl, hskip⟩

end Courier

/-! ## Runs -/

instance (s : State) (peer : NodeId) (frame : TransportFrame) : Decidable (Sent s peer frame) :=
  inferInstanceAs (Decidable (_ = _))

namespace Courier

/-- The frame that the next step hands to the transport. -/
def outgoing : Courier → Option TransportFrame
  | hand frame => some frame
  | resend (frame :: _) => some frame.frame
  | retry _ frame _ => some frame.frame
  | _ => none

/-- The same, if it comes out of the buffer. -/
def leaving : Courier → Option BufferedFrame
  | resend (frame :: _) => some frame
  | retry _ frame _ => some frame
  | _ => none

/-- What the next step puts on the wire. -/
def puts (peer : NodeId) (s : State) (c : Courier) : List TransportFrame :=
  c.outgoing.toList.filter fun frame => Sent s peer frame

/-- What the next step sends out of the buffer. -/
def forwards (peer : NodeId) (s : State) (c : Courier) : List BufferedFrame :=
  c.leaving.toList.filter fun frame => Sent s peer frame.frame

end Courier

/-- What happens at a node for one peer, and what has happened. -/
structure Depot where
  buffer : SendBuffer
  /-- The couriers at work, with the time they began. -/
  couriers : List (Courier × Nat)
  clock : Nat
  /-- What was handed to `send_frame_buffered`, and when. -/
  handed : List (TransportFrame × Nat)
  /-- What flushes have sent out of the buffer, and when. -/
  forwarded : List (BufferedFrame × Nat)
  /-- What the transport has taken, in order. -/
  wire : List TransportFrame

/-- What can happen. -/
inductive Occurrence where
  /-- `send_frame_buffered` is called. -/
  | call (frame : TransportFrame) (now : Nat)
  /-- A flush begins; `again` is the periodic one. -/
  | flush (again : Bool) (now : Nat)
  /-- A courier takes a step in a state of the daemon. -/
  | work (c : Courier) (since : Nat) (i : Input) (s : State)
  /-- The periodic collection of expired frames. -/
  | expire (now : Nat)
  /-- The buffers of the other peers change. -/
  | meanwhile (buffer : SendBuffer)

namespace Depot

/-- The clock does not go back; apart from the buffer, a step of a courier meets any state. -/
inductive Step (peer : NodeId) (d : Depot) : Occurrence → Depot → Prop
  | call (frame : TransportFrame) {now : Nat} (hnow : d.clock ≤ now) :
      Step peer d (.call frame now) { d with
        couriers := d.couriers ++ [(.hand frame, now)]
        clock := now
        handed := d.handed ++ [(frame, now)] }
  | flush (again : Bool) {now : Nat} (hnow : d.clock ≤ now) :
      Step peer d (.flush again now) { d with
        couriers := d.couriers ++ [(.drain again, now)]
        clock := now }
  | work {before behind : List (Courier × Nat)} {c c' : Courier} {since : Nat} {i : Input}
      {s s' : State} (hcouriers : d.couriers = before ++ (c, since) :: behind)
      (hbuffer : s.sendBuffer = d.buffer) (hnow : d.clock ≤ i.now)
      (hadvance : c.advance peer i s = some (s', c')) :
      Step peer d (.work c since i s)
        { buffer := s'.sendBuffer
          couriers := before ++ (c', since) :: behind
          clock := i.now
          handed := d.handed
          forwarded := d.forwarded ++ (c.forwards peer s).map fun frame => (frame, i.now)
          wire := d.wire ++ c.puts peer s }
  | expire {now : Nat} (hnow : d.clock ≤ now) :
      Step peer d (.expire now) { d with
        buffer := (d.buffer.expireAll now).2
        clock := now }
  | meanwhile {buffer : SendBuffer} (htimeout : buffer.timeout = d.buffer.timeout)
      (hframes : buffer.framesOf peer = d.buffer.framesOf peer) :
      Step peer d (.meanwhile buffer) { d with buffer }

/-- Nothing has happened yet. -/
def start (buffer : SendBuffer) (clock : Nat) : Depot := ⟨buffer, [], clock, [], [], []⟩

/-- The runs in which everything that happens meets a condition. -/
inductive Runs (peer : NodeId) (K : Depot → Occurrence → Prop) : Depot → Prop
  | start {buffer : SendBuffer} {clock : Nat} (hempty : buffer.framesOf peer = []) :
      Runs peer K (start buffer clock)
  | step {d d' : Depot} {e : Occurrence} (h : Runs peer K d) (he : K d e)
      (hstep : Step peer d e d') : Runs peer K d'

/-- What holds at the start and is kept by every step holds along every run. -/
theorem Runs.invariant {peer : NodeId} {K : Depot → Occurrence → Prop} {I : Depot → Prop}
    {d : Depot} (h : Runs peer K d)
    (hstart : ∀ buffer clock, buffer.framesOf peer = [] → I (Depot.start buffer clock))
    (hkeep : ∀ d d' e, I d → K d e → Step peer d e d' → I d') : I d := by
  induction h with
  | start hempty => exact hstart _ _ hempty
  | step _ he hstep ih => exact hkeep _ _ _ ih he hstep

end Depot

/-! ## Runs that are played -/

/-- What is made to happen in a run in which only the courier that began last is at work. -/
inductive Deed where
  | call (frame : TransportFrame) (now : Nat)
  | flush (again : Bool) (now : Nat)
  /-- The step meets a state, but for its send buffer. -/
  | work (i : Input) (s : State)

namespace Depot

variable {peer : NodeId}

/-- What happens then; `none` if the clock would go back or nothing is left to do. -/
def perform (peer : NodeId) (d : Depot) : Deed → Option (Occurrence × Depot)
  | .call frame now =>
      if d.clock ≤ now then
        some (.call frame now, { d with
          couriers := d.couriers ++ [(.hand frame, now)]
          clock := now
          handed := d.handed ++ [(frame, now)] })
      else none
  | .flush again now =>
      if d.clock ≤ now then
        some (.flush again now, { d with
          couriers := d.couriers ++ [(.drain again, now)]
          clock := now })
      else none
  | .work i s =>
      if d.clock ≤ i.now then do
        let (c, since) ← d.couriers.getLast?
        let s := { s with sendBuffer := d.buffer }
        let (s', c') ← c.advance peer i s
        return (.work c since i s,
          { buffer := s'.sendBuffer
            couriers := d.couriers.dropLast ++ [(c', since)]
            clock := i.now
            handed := d.handed
            forwarded := d.forwarded ++ (c.forwards peer s).map fun frame => (frame, i.now)
            wire := d.wire ++ c.puts peer s })
      else none

theorem step_of_perform {d d' : Depot} {deed : Deed} {e : Occurrence}
    (h : d.perform peer deed = some (e, d')) : Step peer d e d' := by
  cases deed with
  | call frame now =>
    obtain ⟨hnow, heq⟩ := Option.ite_none_right_eq_some.mp h
    cases heq
    exact .call frame hnow
  | flush again now =>
    obtain ⟨hnow, heq⟩ := Option.ite_none_right_eq_some.mp h
    cases heq
    exact .flush again hnow
  | work i s =>
    obtain ⟨hnow, heq⟩ := Option.ite_none_right_eq_some.mp h
    obtain ⟨⟨c, since⟩, hlast, heq⟩ := Option.bind_eq_some_iff.mp heq
    obtain ⟨⟨s', c'⟩, hadvance, heq⟩ := Option.bind_eq_some_iff.mp heq
    cases heq
    obtain ⟨before, hcouriers⟩ := getLast?_eq_some_iff.mp hlast
    have hbefore : d.couriers.dropLast = before := by rw [hcouriers, dropLast_concat]
    rw [hbefore]
    exact .work hcouriers rfl hnow hadvance

/-- Where deeds lead, as long as what happens meets the condition. -/
def play (peer : NodeId) (K : Depot → Occurrence → Prop) [∀ d e, Decidable (K d e)] :
    List Deed → Depot → Option Depot
  | [], d => some d
  | deed :: deeds, d => do
      let (e, d') ← d.perform peer deed
      if K d e then play peer K deeds d' else none

theorem runs_of_play {K : Depot → Occurrence → Prop} [∀ d e, Decidable (K d e)] {deeds : List Deed}
    {d d' : Depot} (h : Runs peer K d) (hplay : play peer K deeds d = some d') :
    Runs peer K d' := by
  induction deeds generalizing d with
  | nil => exact Option.some.inj hplay ▸ h
  | cons deed deeds ih =>
    obtain ⟨⟨e, next⟩, hperform, hrest⟩ := Option.bind_eq_some_iff.mp hplay
    obtain ⟨he, hrest⟩ := Option.ite_none_right_eq_some.mp hrest
    exact ih (h.step he (step_of_perform hperform)) hrest

theorem exists_runs_of_deeds (peer : NodeId) (K : Depot → Occurrence → Prop)
    [∀ d e, Decidable (K d e)] (deeds : List Deed) (check : Depot → Bool)
    (h : (play peer K deeds (start .default 0)).any check = true) :
    ∃ d, Runs peer K d ∧ check d = true := by
  obtain ⟨d, hplay, hcheck⟩ := (Option.any_eq_true _ _).mp h
  exact ⟨d, runs_of_play (.start rfl) hplay, hcheck⟩

end Depot

section Example

open Transparent

/-- No peer is connected. -/
def severed : State := openNode.state

/-- The peer is connected and its queue is empty. -/
def linked : State := probe openNode.state victorId

/-- Seconds after the start. -/
def atSecond (seconds : Nat) : Input := { calm with now := seconds * 1000000000 }

/-- A session with the peer. -/
def victorSession : Session := Session.new victorId (Octets.zero 32) true

/-- Two data frames of the session, in the order in which it emits them. -/
def firstFrame : TransportFrame := victorSession.frameFor [1]

end Example

end ProximityMesh.Daemon
