/-
  Daemon/Reconnection.lean --- a frame that was kept for a peer, and the session it meets there.

  Source: `send_single_mesh` of crates/pim-daemon/src/data_plane.rs; `send_frame_buffered`
  and the flushes of crates/pim-daemon/src/peer_tasks.rs; crates/pim-daemon/src/session.rs
  and the sessions that crates/pim-daemon/src/handshake.rs installs;
  docs/architecture/routing.md, "Store-and-Forward".

  A data frame is encrypted before it is handed over, and a flush sends it as it is.  The
  peer opens it under the session it has by then.  A handshake in between installs a session
  with a key of its own, so what was kept is opened only if both keys are the same.
-/
import ProximityMesh.Crypto.Replay
import ProximityMesh.Daemon.Network
import ProximityMesh.Daemon.SendOrder

set_option autoImplicit false

namespace ProximityMesh.Daemon

open Protocol Transport Crypto Routing ProximityMesh.Task List

/-! ## What holds of every frame that is handed over -/

namespace Courier

theorem inHand_retrying (requeue frames : List BufferedFrame) :
    (retrying requeue frames).inHand = (requeue ++ frames).map BufferedFrame.frame := by
  rw [← taken_retrying]
  cases frames with
  | nil | cons frame frames => rfl

theorem inHand_drained (again : Bool) (frames : List BufferedFrame) :
    (drained again frames).inHand = frames.map BufferedFrame.frame := by
  cases again with
  | false => rfl
  | true => exact inHand_retrying [] frames

theorem inHand_retried_subset (requeue : List BufferedFrame) (frame : BufferedFrame)
    (frames : List BufferedFrame) (result : Except TransportError Unit) :
    (retried requeue frame frames result).inHand ⊆
      (requeue ++ frame :: frames).map BufferedFrame.frame := by
  obtain ⟨requeue', frames', heq, hsub⟩ := retried_eq_retrying requeue frame frames result
  rw [heq, inHand_retrying]
  exact (hsub.map _).subset

theorem puts_subset (peer : NodeId) (s : State) (c : Courier) : c.puts peer s ⊆ c.inHand := by
  intro frame hframe
  have hout := mem_of_mem_filter hframe
  cases c with
  | hand frame => exact hout
  | resend frames =>
    cases frames with
    | nil => cases hout
    | cons f frames =>
      obtain rfl := mem_singleton.mp hout
      exact mem_cons_self
  | retry requeue f frames =>
    obtain rfl := mem_singleton.mp hout
    exact mem_map_of_mem (mem_append_right requeue mem_cons_self)
  | _ => cases hout

/-- What a courier has in its hands after a step it had there before, or took from the buffer. -/
theorem Goes.forall_inHand {peer : NodeId} {i : Input} {s s' : State} {c c' : Courier}
    {P : TransportFrame → Prop} (h : Goes peer i s c s' c') (hhand : ∀ frame ∈ c.inHand, P frame)
    (hbuffer : ∀ f ∈ s.sendBuffer.framesOf peer, P f.frame) : ∀ frame ∈ c'.inHand, P frame := by
  cases h with
  | hand frame =>
    rcases handed_cases frame (s.transport.send peer frame).1 with heq | heq | heq
    · rw [heq]
      exact forall_mem_nil _
    · rw [heq]
      exact hhand
    · rw [heq]
      exact forall_mem_nil _
  | hold frame | lose => exact forall_mem_nil _
  | drain again =>
    rw [inHand_drained, forall_mem_map]
    exact fun f hf => hbuffer f (mem_of_mem_filter hf)
  | resend frame frames => exact fun frame' hmem => hhand frame' (mem_cons_of_mem _ hmem)
  | retry requeue frame frames =>
    exact fun frame' hmem => hhand frame' (inHand_retried_subset _ _ _ _ hmem)
  | putBack frame frames => exact fun frame' hmem => hhand frame' (mem_cons_of_mem _ hmem)

end Courier

namespace Depot

/-- Every frame on the wire, in the hands of a courier or in the buffer has the property. -/
structure Within (peer : NodeId) (P : TransportFrame → Prop) (d : Depot) : Prop where
  wire : ∀ frame ∈ d.wire, P frame
  inHand : ∀ e ∈ d.couriers, ∀ frame ∈ e.1.inHand, P frame
  buffer : ∀ f ∈ d.buffer.framesOf peer, P f.frame

variable {peer : NodeId} {P : TransportFrame → Prop} {d d' : Depot} {e : Occurrence}

theorem Within.mono {Q : TransportFrame → Prop} (h : d.Within peer P)
    (hPQ : ∀ frame, P frame → Q frame) : d.Within peer Q where
  wire frame hframe := hPQ frame (h.wire frame hframe)
  inHand e he frame hframe := hPQ frame (h.inHand e he frame hframe)
  buffer f hf := hPQ f.frame (h.buffer f hf)

theorem Within.step (h : d.Within peer P) (hcall : ∀ frame now, e = .call frame now → P frame)
    (hstep : Step peer d e d') : d'.Within peer P := by
  cases hstep with
  | @call frame now hnow =>
    refine ⟨h.wire, forall_mem_append.mpr ⟨h.inHand, ?_⟩, h.buffer⟩
    exact forall_mem_singleton.mpr (forall_mem_singleton.mpr (hcall frame now rfl))
  | @flush again now hnow =>
    refine ⟨h.wire, forall_mem_append.mpr ⟨h.inHand, ?_⟩, h.buffer⟩
    exact forall_mem_singleton.mpr (forall_mem_nil _)
  | @work before behind c c' since i s s' hcouriers hbuffer hnow hadvance =>
    have hgoes := Courier.goes_of_advance hadvance
    have hinHand := h.inHand
    rw [hcouriers, forall_mem_append, forall_mem_cons] at hinHand
    obtain ⟨hbefore, hhand, hbehind⟩ := hinHand
    have hheld : ∀ f ∈ s.sendBuffer.framesOf peer, P f.frame := by
      rw [hbuffer]
      exact h.buffer
    refine ⟨forall_mem_append.mpr ⟨h.wire, ?_⟩, forall_mem_append.mpr
      ⟨hbefore, forall_mem_cons.mpr ⟨hgoes.forall_inHand hhand hheld, hbehind⟩⟩,
      hgoes.forall_framesOf hheld hhand⟩
    exact fun frame hframe => hhand frame (Courier.puts_subset peer s c hframe)
  | @expire now hnow =>
    refine ⟨h.wire, h.inHand, fun f hf => ?_⟩
    have hmem : f ∈ (d.buffer.framesOf peer).filter (d.buffer.alive now) := by
      rw [← SendBuffer.framesOf_expireAll]
      exact hf
    exact h.buffer f (mem_of_mem_filter hmem)
  | @meanwhile buffer htimeout hframes =>
    exact ⟨h.wire, h.inHand, fun f hf => h.buffer f (hframes ▸ hf)⟩

end Depot

/-! ## Sealing and opening -/

/-- What was encrypted for the peer, and the session it was encrypted in. -/
structure Seal where
  session : Session
  plaintext : Bytes

section Sealing

variable [Aes256Gcm]

/-- The data frame that was handed over. -/
def Seal.frame (r : Seal) : TransportFrame := r.session.frameFor r.plaintext

/-- A session with another key takes the tag for its own. -/
def Seal.Forges (r : Seal) (session : Session) : Prop :=
  session.recv.cipher ≠ r.session.send.cipher ∧
    (Aes256Gcm.gcmOpen session.recv.cipher r.frame.nonce r.frame.payload r.frame.tag).isSome

/-- `send_single_mesh` encrypts in one step and hands over in the next what the session, as it
was then, has sealed. -/
theorem sendSingleMesh_step (cell : Nat) (mesh : MeshDataFrame) :
    ∃ act next, sendSingleMesh cell mesh = .step act next ∧
      ∀ i s session, s.cells.get cell = some session →
        act i s = some { s with cells := s.cells.insert cell session.advance } ∧
        next i s = if session.CanEmit mesh.encode then
          (Courier.hand (Seal.frame ⟨session, mesh.encode⟩)).task session.peerId else pure () := by
  refine ⟨_, _, rfl, fun i s session hcell => ?_⟩
  simp only [hcell]
  rcases session.encryptFrame_cases mesh.encode with ⟨hemit, heq⟩ | ⟨hrefused, e, heq⟩
  · rw [heq, if_pos hemit]
    exact ⟨rfl, rfl⟩
  · rw [heq, if_neg hrefused]
    exact ⟨rfl, rfl⟩

/-- A session opens what another one has sealed exactly if the counter is fresh and the key is
the same, forgeries apart. -/
theorem accepts_seal_iff {r : Seal} (hemit : r.session.CanEmit r.plaintext) (session : Session) :
    session.Accepts r.frame ↔ session.recv.Fresh r.frame.nonce ∧
      (session.recv.cipher = r.session.send.cipher ∨ r.Forges session) := by
  have hopens : Aes256Gcm.gcmOpen r.session.send.cipher r.frame.nonce r.frame.payload r.frame.tag =
      some r.plaintext := Aes256Gcm.gcmOpen_gcmSeal _ _ _ hemit.2
  refine and_congr_right fun _ => ⟨fun hopen => ?_, ?_⟩
  · exact (eq_or_ne session.recv.cipher r.session.send.cipher).imp_right fun hne => ⟨hne, hopen⟩
  · rintro (hsame | hforges)
    · rw [hsame, hopens]
      rfl
    · exact hforges.2

theorem isOk_decryptFrame_iff (session : Session) (frame : TransportFrame) :
    (∃ opened, (session.decryptFrame frame).1 = .ok opened) ↔ session.Accepts frame := by
  constructor
  · intro hok
    by_contra hrefused
    obtain ⟨e, heq⟩ := Session.decryptFrame_of_not_accepts hrefused
    obtain ⟨opened, hok⟩ := hok
    rw [heq] at hok
    cases hok
  · intro haccepts
    obtain ⟨payload, heq⟩ := Session.decryptFrame_of_accepts haccepts
    exact ⟨_, congrArg Prod.fst heq⟩

/-! ## Two neighbours -/

/-- A node and its peer: what happens at the node for the peer, and the session of the peer. -/
structure Neighbours where
  depot : Depot
  /-- What the node has encrypted for the peer. -/
  seals : List Seal
  receiver : Session
  /-- How many frames of the wire the peer has handled or a broken connection has lost. -/
  taken : Nat

/-- A data frame that is handed over was encrypted before. -/
def Handing (seals : List Seal) : Occurrence → Prop
  | .call frame _ => frame.frameType = .data → ∃ r ∈ seals, r.frame = frame
  | _ => True

instance (seals : List Seal) : (e : Occurrence) → Decidable (Handing seals e)
  | .call _ _ => inferInstanceAs (Decidable (_ → ∃ r ∈ _, _))
  | .flush _ _ | .work _ _ _ _ | .expire _ | .meanwhile _ => inferInstanceAs (Decidable True)

namespace Neighbours

/-- Sessions of the node are any, and change at any time; a data frame is handed over some time
after it was encrypted. -/
inductive Step (self peer : NodeId) (n : Neighbours) : Neighbours → Prop
  | encrypt (r : Seal) (hemit : r.session.CanEmit r.plaintext) :
      Step self peer n { n with seals := n.seals ++ [r] }
  | depot {e : Occurrence} {depot : Depot} (hhanding : Handing n.seals e)
      (hstep : Depot.Step peer n.depot e depot) : Step self peer n { n with depot }
  /-- The peer completes a handshake. -/
  | install (key : Octets 32) (isInitiator : Bool) :
      Step self peer n { n with receiver := Session.new self key isInitiator }
  | handle {frame : TransportFrame} (hnext : n.depot.wire[n.taken]? = some frame) :
      Step self peer n { n with
        receiver :=
          if frame.frameType = .data then (n.receiver.decryptFrame frame).2 else n.receiver
        taken := n.taken + 1 }
  | lose {frame : TransportFrame} (hnext : n.depot.wire[n.taken]? = some frame) :
      Step self peer n { n with taken := n.taken + 1 }

/-- The runs from the time before anything was handed over. -/
inductive Runs (self peer : NodeId) : Neighbours → Prop
  | start {buffer : SendBuffer} {clock : Nat} {receiver : Session}
      (hempty : buffer.framesOf peer = []) : Runs self peer ⟨.start buffer clock, [], receiver, 0⟩
  | step {n n' : Neighbours} (h : Runs self peer n) (hstep : Step self peer n n') :
    Runs self peer n'

/-- The data frames of a run are those that were encrypted. -/
structure Sealed (peer : NodeId) (n : Neighbours) : Prop where
  canEmit : ∀ r ∈ n.seals, r.session.CanEmit r.plaintext
  frames : n.depot.Within peer fun frame => frame.frameType = .data → ∃ r ∈ n.seals, r.frame = frame

variable {self peer : NodeId} {n n' : Neighbours}

theorem Sealed.step (h : n.Sealed peer) (hstep : Step self peer n n') : n'.Sealed peer := by
  cases hstep with
  | encrypt r hemit =>
    refine ⟨forall_mem_append.mpr ⟨h.canEmit, forall_mem_singleton.mpr hemit⟩, ?_⟩
    refine h.frames.mono fun frame hframe hdata => ?_
    obtain ⟨r', hr', heq⟩ := hframe hdata
    exact ⟨r', mem_append_left _ hr', heq⟩
  | depot hhanding hstep =>
    refine ⟨h.canEmit, h.frames.step (fun frame now he => ?_) hstep⟩
    rw [he] at hhanding
    exact hhanding
  | install key isInitiator | handle hnext | lose hnext => exact ⟨h.canEmit, h.frames⟩

theorem Runs.sealed (h : Runs self peer n) : n.Sealed peer := by
  induction h with
  | @start buffer clock receiver hempty =>
    refine ⟨forall_mem_nil _, forall_mem_nil _, forall_mem_nil _, ?_⟩
    show ∀ f ∈ buffer.framesOf peer, _
    rw [hempty]
    exact forall_mem_nil _
  | step _ hstep ih => exact ih.step hstep

/-- The peer opens the next data frame exactly if it has the key the frame was encrypted under,
forgeries apart, and the counter of the frame is above the last one it accepted. -/
theorem decryptFrame_next_iff (h : Runs self peer n) {frame : TransportFrame}
    (hnext : n.depot.wire[n.taken]? = some frame) (hdata : frame.frameType = .data) :
    (∃ r ∈ n.seals, r.frame = frame) ∧
      ∀ r ∈ n.seals, r.frame = frame →
        ((∃ opened, (n.receiver.decryptFrame frame).1 = .ok opened) ↔
          n.receiver.recv.Fresh frame.nonce ∧
            (n.receiver.recv.cipher = r.session.send.cipher ∨ r.Forges n.receiver)) := by
  obtain ⟨hcanEmit, hframes⟩ := h.sealed
  refine ⟨hframes.wire frame (mem_of_getElem? hnext) hdata, ?_⟩
  rintro r hr rfl
  rw [isOk_decryptFrame_iff]
  exact accepts_seal_iff (hcanEmit r hr) n.receiver

theorem runs_of_depot {seals : List Seal} (hemit : ∀ r ∈ seals, r.session.CanEmit r.plaintext)
    {d : Depot} (h : Depot.Runs peer (fun _ e => Handing seals e) d) (receiver : Session) :
    Runs self peer ⟨d, seals, receiver, 0⟩ := by
  induction h with
  | @start buffer clock hempty =>
    induction seals using reverseRecOn with
    | nil => exact .start hempty
    | append_singleton seals r ih =>
      obtain ⟨hseals, hr⟩ := forall_mem_append.mp hemit
      exact (ih hseals).step (.encrypt r (hr r mem_cons_self))
  | step _ he hstep ih => exact ih.step (.depot he hstep)

end Neighbours

end Sealing

/-! ## A peer that comes back -/

section Example

attribute [local instance] transparentSha256 transparentBlake3 transparentEd25519
  transparentX25519 transparentHkdf transparentHmac keyedGcm

/-- A frame that is kept while the peer is away. -/
def keptSeal : Seal := ⟨victorSession, [1]⟩

def keptDeeds : List Deed :=
  [.call keptSeal.frame 0, .work (atSecond 0) severed, .work (atSecond 0) severed,
    .flush true (atSecond 1).now, .work (atSecond 1) linked, .work (atSecond 1) linked]

/-- The handshake gives the peer the key of the old session again. -/
theorem decryptFrame_next_sameKey :
    ∃ n, Neighbours.Runs openNode.config.selfId victorId n ∧
      n.depot.wire[n.taken]? = some keptSeal.frame ∧
      n.receiver = Session.new openNode.config.selfId victorSession.send.cipher false ∧
      ∃ opened, (n.receiver.decryptFrame keptSeal.frame).1 = .ok opened := by
  obtain ⟨d, hruns, hcheck⟩ := Depot.exists_runs_of_deeds victorId
    (fun _ e => Handing [keptSeal] e) keptDeeds (fun d => d.wire == [keptSeal.frame])
    (by decide +kernel)
  have hwire : d.wire = [keptSeal.frame] := eq_of_beq hcheck
  have hemit : ∀ r ∈ [keptSeal], r.session.CanEmit r.plaintext :=
    forall_mem_singleton.mpr (by decide +kernel)
  have hn : Neighbours.Runs openNode.config.selfId victorId
      ⟨d, [keptSeal], Session.new openNode.config.selfId victorSession.send.cipher false, 0⟩ :=
    (Neighbours.runs_of_depot hemit hruns victorSession).step (.install _ false)
  have hnext : d.wire[0]? = some keptSeal.frame := by rw [hwire]; rfl
  refine ⟨_, hn, hnext, rfl, ?_⟩
  exact ((Neighbours.decryptFrame_next_iff hn hnext rfl).2 keptSeal mem_cons_self rfl).mpr
    ⟨.inl rfl, .inl rfl⟩

/-- A node and Victor's. -/
def pairNodes : List Boot :=
  [openNode, { openNode with config := { openNode.config with
      signingKey := victorPub, meshIpv4 := ⟨0x0A4D0002⟩ } }]

/-- Every handshake draws other random numbers. -/
def pairInputs (handshake node : Nat) : Input :=
  { calm with
    random := fun draw => .fill 32 (UInt8.ofNat (10 + 40 * handshake + 10 * node + draw)) }

def keptPacket : Bytes :=
  0x45 :: (List.replicate 15 0 ++ (deriveMeshIpv4 victorId openNode.ipv4Prefix).octets.toList)

/-- The node dials Victor, loses the connection and has a packet to send. -/
def loseVictor : List Move :=
  [.act 0 (.start (.initiate (.tcp somewhere))), .join ⟨0, 0⟩ 1 somewhere,
    .act 0 (.start (.endOfStream 0)), .act 0 (.start (.tun keptPacket))]

/-- It dials again. -/
def rejoinVictor : List Move :=
  [.act 0 (.start (.initiate (.tcp somewhere))), .join ⟨0, 1⟩ 1 somewhere]

/-- Victor leaves a data frame that has arrived for later. -/
def beforeData (node : Nat) (s : State) : Event → Bool
  | .frame => node != 1 || s.transport.incoming.head?.all fun r => r.frame.frameType != .data
  | _ => true

/-- The node keeps the frame for Victor, who is not connected. -/
def KeepsFor (S : Sys Input State) (frame : TransportFrame) : Prop :=
  S.state.sendBuffer.framesOf victorId = [⟨0, .data, frame⟩] ∧
    (S.state.transport.peers.get victorId).isNone

instance (S : Sys Input State) (frame : TransportFrame) : Decidable (KeepsFor S frame) :=
  inferInstanceAs (Decidable (_ ∧ _))

/-- The frame is the next one that Victor's daemon handles; the session with the node is from a
second handshake and refuses the frame. -/
def RefusesNext (S : Sys Input State) (frame : TransportFrame) : Prop :=
  S.state.transport.incoming.head?.map (fun r => (r.peer, r.frame)) =
      some (openNode.config.selfId, frame) ∧
    S.state.nextCell = 2 ∧ S.state.sessions.get openNode.config.selfId = some 1 ∧
    ∃ session ∈ S.state.cells.get 1, (session.decryptFrame frame).1.toOption = none

instance (S : Sys Input State) (frame : TransportFrame) : Decidable (RefusesNext S frame) :=
  inferInstanceAs (Decidable (_ ∧ _ ∧ _ ∧ ∃ session ∈ _, _))

/-- Both nodes run the daemon.  The node encrypts a packet for Victor and keeps it, connects
again at once, and flushes.  Victor's daemon does not open the frame. -/
theorem kept_frame_refused :
    ∃ (N N' : Network) (A B : Sys Input State) (frame : TransportFrame),
      N.Reaches (fun _ _ _ => True) pairNodes ∧ N.nodes[0]? = some A ∧ KeepsFor A frame ∧
      N.play beforeData (pairInputs 1) 100 rejoinVictor = some N' ∧
      N'.Reaches (fun _ _ _ => True) pairNodes ∧ N'.nodes[1]? = some B ∧ RefusesNext B frame := by
  have hplay : ((Network.boot pairNodes).play (fun _ _ _ => true) (pairInputs 0) 100 loseVictor).any
      (fun N => N.nodes[0]?.any fun A => (A.state.sendBuffer.framesOf victorId).head?.any fun f =>
        decide (KeepsFor A f.frame) &&
          (N.play beforeData (pairInputs 1) 100 rejoinVictor).any fun N' =>
          N'.nodes[1]?.any fun B => decide (RefusesNext B f.frame)) = true := by
    decide +kernel
  obtain ⟨N, hN, hcheck⟩ := (Option.any_eq_true _ _).mp hplay
  obtain ⟨A, hA, hcheck⟩ := (Option.any_eq_true _ _).mp hcheck
  obtain ⟨f, -, hcheck⟩ := (Option.any_eq_true _ _).mp hcheck
  obtain ⟨hkeeps, hcheck⟩ := Bool.and_eq_true_iff.mp hcheck
  obtain ⟨N', hN', hcheck⟩ := (Option.any_eq_true _ _).mp hcheck
  obtain ⟨B, hB, hrefuses⟩ := (Option.any_eq_true _ _).mp hcheck
  have hreached : N.Reaches (fun _ _ _ => True) pairNodes :=
    Network.Reaches.boot.play (fun _ _ _ _ => trivial) hN
  exact ⟨N, N', A, B, f.frame, hreached, hA, of_decide_eq_true hkeeps, hN',
    hreached.play (fun _ _ _ _ => trivial) hN', hB, of_decide_eq_true hrefuses⟩

end Example

end ProximityMesh.Daemon
