/-
  Daemon/Forwarding.lean --- how often the nodes of a mesh send one mesh frame.

  Source: crates/pim-daemon/src/app/event_loop.rs (relay forwarding), data_plane.rs,
  peer_tasks.rs.

  A journey follows the copies of one mesh frame: those on a link, those in a send
  buffer, and the tasks that are at work on one.  Nodes appear only through the code
  they run.  Each step of a task is taken in an arbitrary state, so routing tables,
  sessions and connections may be anything and change at any time, also while a frame
  is handled.  A copy on a link is received at most once.

  A task holds the copies that are in its hands and gives each away when it sends or
  buffers it.  A copy that is about to be sent with a time to live of `n` is worth `n + 1`
  transmissions, and `n` once it is on a link, so that nothing that happens to copies
  adds to what they are worth together with the transmissions so far.
-/
import ProximityMesh.Daemon.Identity
import ProximityMesh.Foundation.Custody

set_option autoImplicit false

namespace ProximityMesh.Daemon

open Protocol Transport Crypto Routing ProximityMesh.Task

open TcpTransport
open List

/-! ## What a step does with frames -/

/-- The kinds of steps: one that leaves the transport and the send buffer alone, one
that hands a frame to the transport, and one that puts a frame into the buffer. -/
inductive Kind where
  | quiet
  | send (peer : NodeId) (frame : TransportFrame)
  | hold (peer : NodeId) (frame : TransportFrame)

/-- The step is of the kind. -/
def Kind.Is : Kind → (Input → State → Option State) → Prop
  | quiet, act => ∀ i s s', act i s = some s' →
      s'.transport = s.transport ∧ s'.sendBuffer = s.sendBuffer
  | send peer frame, act => ∀ i s,
      act i s = some { s with transport := (s.transport.send peer frame).2 }
  | hold peer frame, act => ∀ i s,
      act i s = some { s with
        sendBuffer := s.sendBuffer.push i.now peer (Priority.ofType frame.frameType) frame }

/-- The transport took the frame. -/
def Sent (s : State) (peer : NodeId) (frame : TransportFrame) : Prop :=
  (s.transport.send peer frame).1 = .ok ()

/-! ## A step is of one kind only -/

/-- A state with an empty buffer in which just one peer is connected. -/
def probe (s : State) (peer : NodeId) : State :=
  { s with
    transport :=
      (TcpTransport.new peer).openConn peer |>.storeWriter 0 peer ⟨.v4 (Octets.zero 4), 0⟩
    sendBuffer := .new 1 1 }

variable (s : State)

theorem probe_send_self (peer : NodeId) (frame : TransportFrame) :
    ((probe s peer).transport.send peer frame).2.conns.get 0 =
      some ⟨peer, [], [LengthDelimitedCodec.encode frame.encode], true, true⟩ := by
  simp [probe, send, storeWriter, openConn, new,
    writeCapacity]

theorem sent_probe (peer : NodeId) (frame : TransportFrame) :
    Sent (probe s peer) peer frame := by
  simp [Sent, probe, send, storeWriter, openConn,
    new, writeCapacity]

theorem probe_send_ne {peer other : NodeId} (h : other ≠ peer) (frame : TransportFrame) :
    ((probe s peer).transport.send other frame).2 = (probe s peer).transport := by
  simp [probe, send, storeWriter, openConn, new,
    HashMap.get_insert_ne _ _ h]

theorem probe_send_moves (peer : NodeId) (frame : TransportFrame) :
    ((probe s peer).transport.send peer frame).2 ≠ (probe s peer).transport := by
  intro hsame
  have hconn := probe_send_self s peer frame
  rw [hsame] at hconn
  cases hconn

theorem probe_push (now : Nat) (peer : NodeId) (p : Priority) (frame : TransportFrame) :
    ((probe s peer).sendBuffer.push now peer p frame).peers.get peer = some [⟨now, p, frame⟩] := by
  simp [probe, SendBuffer.new, SendBuffer.push, SendBuffer.pushAt, SendBuffer.insertByPriority]

theorem probe_push_ne (now : Nat) {peer other : NodeId} (h : other ≠ peer) (p : Priority)
    (frame : TransportFrame) :
    ((probe s peer).sendBuffer.push now other p frame).peers.get peer = none := by
  simp [probe, SendBuffer.new, SendBuffer.push, SendBuffer.pushAt, HashMap.get_insert_ne _ _ h.symm]

namespace Kind

variable {act : Input → State → Option State} {k : Kind} {peer : NodeId} {frame : TransportFrame}

/-- Only a step that hands this frame to the transport does to every state what such a
step does. -/
theorem eq_send (i : Input) (s : State) (h : (send peer frame).Is act) (hk : k.Is act) :
    k = send peer frame := by
  have hprobe := h i (probe s peer)
  cases k with
  | quiet =>
    have hsame := (hk i (probe s peer) _ hprobe).1
    exact absurd hsame (probe_send_moves s peer frame)
  | hold other frame' =>
    have hheld := congrArg (Option.map State.transport) ((hk i (probe s peer)).symm.trans hprobe)
    exact absurd (Option.some.inj hheld).symm (probe_send_moves s peer frame)
  | send other frame' =>
    have hsent := congrArg (Option.map State.transport) ((hk i (probe s peer)).symm.trans hprobe)
    have hsame : ((probe s peer).transport.send other frame').2 =
        ((probe s peer).transport.send peer frame).2 := Option.some.inj hsent
    by_cases hother : other = peer
    · subst hother
      have hconn := probe_send_self s other frame
      rw [← hsame, probe_send_self, Option.some.injEq, Connection.mk.injEq] at hconn
      have hwire := (cons.inj hconn.2.2.1).1
      rw [TransportFrame.encode_inj (LengthDelimitedCodec.encode_inj hwire)]
    · rw [probe_send_ne s hother] at hsame
      exact absurd hsame.symm (probe_send_moves s peer frame)

/-- Only a step that puts this frame into the buffer does to every state what such a
step does. -/
theorem eq_hold (i : Input) (s : State) (h : (hold peer frame).Is act) (hk : k.Is act) :
    k = hold peer frame := by
  have hprobe := h i (probe s peer)
  have hget := probe_push s i.now peer (.ofType frame.frameType) frame
  cases k with
  | quiet =>
    have hsame : (probe s peer).sendBuffer.push i.now peer (.ofType frame.frameType) frame =
        (probe s peer).sendBuffer := (hk i (probe s peer) _ hprobe).2
    rw [hsame] at hget
    cases hget
  | send other frame' =>
    have hsent := eq_send i s hk h
    cases hsent
  | hold other frame' =>
    have hheld := congrArg (Option.map State.sendBuffer) ((hk i (probe s peer)).symm.trans hprobe)
    have hsame : (probe s peer).sendBuffer.push i.now other (.ofType frame'.frameType) frame' =
        (probe s peer).sendBuffer.push i.now peer (.ofType frame.frameType) frame :=
      Option.some.inj hheld
    rw [← hsame] at hget
    by_cases hother : other = peer
    · subst hother
      rw [probe_push, Option.some.injEq] at hget
      have hframe := (cons.inj hget).1
      rw [(BufferedFrame.mk.inj hframe).2.2]
    · rw [probe_push_ne s i.now hother] at hget
      cases hget

/-- No step is of two kinds. -/
theorem unique (i : Input) (s : State) {k' : Kind} (h : k.Is act) (h' : k'.Is act) : k = k' := by
  cases k with
  | send peer frame => exact (eq_send i s h h').symm
  | hold peer frame => exact (eq_hold i s h h').symm
  | quiet =>
    cases k' with
    | quiet => rfl
    | send peer frame => exact eq_send i s h' h
    | hold peer frame => exact eq_hold i s h' h

end Kind

/-! ## Copies -/

/-- A data frame that the code has made of a mesh frame, with the session that sealed
it. -/
structure Copy where
  session : Session
  mesh : MeshDataFrame
  canEmit : session.CanEmit mesh.encode

/-- What a task has in its hands: a mesh frame it is to seal, nothing any more, or the
frames it has drained from a buffer and the copies among them that it still has. -/
inductive Stock where
  | fresh (mesh : MeshDataFrame)
  | spent
  | drained (frames : List TransportFrame) (copies : List Copy)

namespace Copy

def ttl (c : Copy) : Nat := c.mesh.ttl.toNat

/-- What copies are worth before they are sent. -/
def worth (copies : List Copy) : Nat := (copies.map (·.ttl + 1)).sum

variable [Aes256Gcm]

def frame (c : Copy) : TransportFrame := c.session.frameFor c.mesh.encode

/-- A receiver that opens a copy with the key it was sealed with finds the time to live
it was sent with. -/
theorem ttl_of_decryptFrame (c : Copy) {opened : TransportFrame} {received : MeshDataFrame}
    {rest : Bytes} {receiver : Session} (hkey : receiver.recv.cipher = c.session.send.cipher)
    (hopen : (receiver.decryptFrame c.frame).1 = .ok opened)
    (hdecode : MeshDataFrame.decode opened.payload = .ok received rest) :
    received.ttl.toNat = c.ttl := by
  have hplain := Session.gcmOpen_of_decryptFrame hopen
  rw [hkey] at hplain
  have hsealed := Aes256Gcm.gcmOpen_gcmSeal c.session.send.cipher
    (c.session.send.buildNonce c.session.send.counter) c.mesh.encode c.canEmit.2
  have hpayload : opened.payload = c.mesh.encode := Option.some.inj (hplain.symm.trans hsealed)
  rw [MeshDataFrame.ttl_of_decode hdecode, hpayload, ← append_nil c.mesh.encode,
    MeshDataFrame.byteAt_encode_ttl]
  rfl

end Copy

namespace Stock

def worth : Stock → Nat
  | fresh mesh => mesh.ttl.toNat + 1
  | spent => 0
  | drained _ copies => Copy.worth copies

/-- A copy is given away. -/
inductive Gives : Stock → Copy → Stock → Prop
  | fresh (c : Copy) : Gives (.fresh c.mesh) c .spent
  | drained (frames : List TransportFrame) (before : List Copy) (c : Copy) (behind : List Copy) :
      Gives (.drained frames (before ++ c :: behind)) c (.drained frames (before ++ behind))

/-- The frame is not one of those that were drained as copies. -/
def Alien : Stock → TransportFrame → Prop
  | drained frames _, frame => frame ∉ frames
  | _, _ => False

theorem worth_of_gives {stock stock' : Stock} {c : Copy} (h : stock.Gives c stock') :
    stock.worth = c.ttl + 1 + stock'.worth := by
  cases h with
  | fresh => rfl
  | drained frames before _ behind =>
    simp only [worth, Copy.worth, map_append, map_cons, sum_append, sum_cons]
    omega

end Stock

/-! ## Tasks give away what they have -/

section Custody

variable [Aes256Gcm]

/-- What a step of a kind that is taken in state `s` does with the copies of its task:
a copy is given away if the transport takes it or if it is put into the buffer.  There
is no rule for a frame that is sent and is neither a copy in hand nor another frame out
of the buffer. -/
inductive Kind.Moves (s : State) : Kind → Stock → Stock → Option Copy → Prop
  | quiet (stock : Stock) : Moves s .quiet stock stock none
  | refused {peer : NodeId} {frame : TransportFrame} (stock : Stock) (h : ¬ Sent s peer frame) :
      Moves s (.send peer frame) stock stock none
  | sent {peer : NodeId} {stock stock' : Stock} {c : Copy} (h : Sent s peer c.frame)
      (hgives : stock.Gives c stock') : Moves s (.send peer c.frame) stock stock' (some c)
  | sentOther {peer : NodeId} {frame : TransportFrame} {stock : Stock} (h : Sent s peer frame)
      (halien : stock.Alien frame) : Moves s (.send peer frame) stock stock none
  | held {peer : NodeId} {stock stock' : Stock} {c : Copy} (hgives : stock.Gives c stock') :
      Moves s (.hold peer c.frame) stock stock' (some c)
  | heldOther {peer : NodeId} {frame : TransportFrame} {stock : Stock}
      (halien : stock.Alien frame) : Moves s (.hold peer frame) stock stock none

/-- What a step does with the copies of its task. -/
def custody : Task.Rule Input State Stock := fun act s stock stock' =>
  ∃ kind copy, Kind.Is kind act ∧ Kind.Moves s kind stock stock' copy

variable {frame : TransportFrame} {peer : NodeId} {stock : Stock} {α : Type} {Q : α → Stock → Prop}

theorem manages_kind {f : Input → State → State × α} (kind : Kind)
    (hkind : kind.Is fun i s => some (f i s).1)
    (hmoves : ∀ s, ∃ stock' copy, kind.Moves s stock stock' copy)
    (h : ∀ i s stock' copy, kind.Moves s stock stock' copy → Q (f i s).2 stock') :
    (Task.atomically f).Manages custody stock Q := by
  refine manages_atomically fun i s => ⟨?_, ?_⟩
  · obtain ⟨stock', copy, hmove⟩ := hmoves s
    exact ⟨stock', kind, copy, hkind, hmove⟩
  · intro stock' ⟨kind', copy, hkind', hmove⟩
    obtain rfl := Kind.unique i s hkind hkind'
    exact h i s stock' copy hmove

theorem manages_quiet {f : Input → State → State × α}
    (hquiet : ∀ i s, (f i s).1.transport = s.transport ∧ (f i s).1.sendBuffer = s.sendBuffer)
    (h : ∀ i s, Q (f i s).2 stock) : (Task.atomically f).Manages custody stock Q := by
  refine manages_kind .quiet ?_ (fun _ => ⟨stock, none, .quiet stock⟩) ?_
  · intro i s s' hact
    cases hact
    exact hquiet i s
  · intro i s stock' copy hmove
    cases hmove
    exact h i s

theorem manages_read {f : State → α} (h : ∀ s, Q (f s) stock) :
    (Task.read f : DaemonM α).Manages custody stock Q :=
  manages_quiet (fun _ _ => ⟨rfl, rfl⟩) fun _ s => h s

theorem manages_modify {f : State → State} {Q : Unit → Stock → Prop}
    (hquiet : ∀ s, (f s).transport = s.transport ∧ (f s).sendBuffer = s.sendBuffer)
    (h : Q () stock) : (Task.modify f : DaemonM Unit).Manages custody stock Q :=
  manages_quiet (fun _ s => hquiet s) fun _ _ => h

/-- The frame is a copy in hand or another frame out of the buffer; `P` holds of the
stock without it. -/
def Stock.Offers (stock : Stock) (frame : TransportFrame) (P : Stock → Prop) : Prop :=
  ((∃ c stock', stock.Gives c stock' ∧ c.frame = frame) ∨ stock.Alien frame) ∧
    (∀ c stock', stock.Gives c stock' → c.frame = frame → P stock') ∧
    (stock.Alien frame → P stock)

theorem manages_transportSend {Q : Except TransportError Unit → Stock → Prop}
    (hoffers : stock.Offers frame (Q (.ok ()))) (hfailed : ∀ e, Q (.error e) stock) :
    (transportSend peer frame).Manages custody stock Q := by
  refine manages_kind (.send peer frame) (fun _ _ => rfl) ?_ ?_
  · intro s
    by_cases hsent : Sent s peer frame
    · obtain ⟨c, stock', hgives, rfl⟩ | halien := hoffers.1
      · exact ⟨stock', some c, .sent hsent hgives⟩
      · exact ⟨stock, none, .sentOther hsent halien⟩
    · exact ⟨stock, none, .refused stock hsent⟩
  · intro i s stock' copy hmove
    change Q (s.transport.send peer frame).1 stock'
    cases hmove with
    | refused _ hnot =>
      generalize hresult : (s.transport.send peer frame).1 = result
      cases result with
      | ok u => exact absurd hresult hnot
      | error e => exact hfailed e
    | sent hsent hgives => exact hsent ▸ hoffers.2.1 _ _ hgives rfl
    | sentOther hsent halien => exact hsent ▸ hoffers.2.2 halien

theorem manages_bufferPush {Q : Unit → Stock → Prop} (hoffers : stock.Offers frame (Q ())) :
    (bufferPush peer frame).Manages custody stock Q := by
  refine manages_kind (.hold peer frame) (fun _ _ => rfl) ?_ ?_
  · intro s
    obtain ⟨c, stock', hgives, rfl⟩ | halien := hoffers.1
    · exact ⟨stock', some c, .held hgives⟩
    · exact ⟨stock, none, .heldOther halien⟩
  · intro i s stock' copy hmove
    cases hmove with
    | held hgives => exact hoffers.2.1 _ _ hgives rfl
    | heldOther halien => exact hoffers.2.2 halien

/-- A frame is sent, or held back, or neither. -/
theorem manages_sendFrameBuffered (hoffers : stock.Offers frame fun _ => True) :
    (sendFrameBuffered peer frame).Manages custody stock fun _ _ => True := by
  have hsend : (transportSend peer frame).Manages custody stock
      fun result stock' => ∀ e, result = .error e → stock' = stock := by
    refine manages_transportSend ⟨hoffers.1, ?_, ?_⟩ ?_
    · intro c stock' _ _ e he
      cases he
    · intro _ e he
      cases he
    · intro e _ _
      rfl
  refine manages_bind hsend ?_
  intro result stock' hleft
  -- the frame is still in hand wherever it goes into the buffer
  cases result with
  | ok u => exact manages_pure trivial
  | error e =>
    obtain rfl := hleft e rfl
    cases e with
    | peerNotConnected _ => exact manages_bufferPush hoffers
    | congested _ =>
      dsimp only
      split
      · exact manages_bufferPush hoffers
      · exact manages_modify (fun _ => ⟨rfl, rfl⟩) trivial
    | sendFailed _ => exact manages_pure trivial

/-- A mesh frame is sealed once, and the copy sent or buffered at most once. -/
theorem manages_sendSingleMesh (cell : Nat) (mesh : MeshDataFrame) :
    (sendSingleMesh cell mesh).Manages custody (.fresh mesh) fun _ _ => True := by
  have hencrypt : (encryptWith cell mesh.encode).Manages custody (.fresh mesh)
      fun result stock => stock = .fresh mesh ∧
        ∀ peer frame, result = some (peer, .ok frame) → ∃ c : Copy, c.mesh = mesh ∧
          c.frame = frame := by
    refine manages_quiet ?_ ?_
    · intro i s
      split <;> exact ⟨rfl, rfl⟩
    · intro i s
      refine ⟨rfl, ?_⟩
      intro peer frame hresult
      split at hresult
      · rename_i session _
        obtain ⟨-, hok⟩ := Prod.mk.inj (Option.some.inj hresult)
        rcases session.encryptFrame_cases mesh.encode with ⟨hcan, heq⟩ | ⟨-, e, heq⟩
        · rw [heq] at hok
          exact ⟨⟨session, mesh, hcan⟩, rfl, Except.ok.inj hok⟩
        · rw [heq] at hok
          cases hok
      · cases hresult
  refine manages_bind hencrypt ?_
  intro result stock ⟨hstock, hcopy⟩
  subst hstock
  split
  · rename_i peer frame
    obtain ⟨c, rfl, hframe⟩ := hcopy peer frame rfl
    exact manages_sendFrameBuffered
      ⟨.inl ⟨c, .spent, .fresh c, hframe⟩, fun _ _ _ _ => trivial, fun _ => trivial⟩
  · exact manages_pure trivial

/-- What a relay makes of a mesh frame. -/
def relayed (mesh : MeshDataFrame) : MeshDataFrame :=
  { mesh with sessionId := 0, ttl := mesh.ttl - 1 }

/-- What a task that relays the mesh frame has in its hands. -/
def relayStock (mesh : MeshDataFrame) : Stock :=
  if mesh.ttl = 0 then .spent else .fresh (relayed mesh)

omit [Aes256Gcm] in
theorem worth_relayStock (mesh : MeshDataFrame) : (relayStock mesh).worth = mesh.ttl.toNat := by
  unfold relayStock
  split
  · rename_i hzero
    rw [hzero]
    rfl
  · rename_i hpositive
    exact MeshDataFrame.toNat_ttl_pred hpositive

/-- A relay sends a copy with the time to live reduced, and none if there is nothing to
reduce. -/
theorem manages_relayMesh (mesh : MeshDataFrame) :
    (relayMesh mesh).Manages custody (relayStock mesh) fun _ _ => True := by
  have hcount : ∀ stock, (countDropped).Manages custody stock fun _ _ => True :=
    fun _ => manages_modify (fun _ => ⟨rfl, rfl⟩) trivial
  unfold relayMesh relayStock
  split
  · exact hcount _
  refine manages_bind (manages_read (Q := fun _ g => g = .fresh (relayed mesh)) fun _ => rfl) ?_
  intro next g hg
  subst hg
  cases next with
  | none => exact hcount _
  | some nextHop =>
    refine manages_bind (manages_read (Q := fun _ g => g = .fresh (relayed mesh)) fun _ => rfl) ?_
    intro session g hg
    subst hg
    cases session with
    | none => exact hcount _
    | some cell =>
      refine manages_bind (manages_sendSingleMesh cell (relayed mesh)) ?_
      intro _ g _
      exact manages_modify (fun _ => ⟨rfl, rfl⟩) trivial

/-! ### Frames out of the buffer -/

/-- What `flushSendBuffer` does with the frames it has drained. -/
def resend (peer : NodeId) (frames : List TransportFrame) : DaemonM Unit :=
  Task.each (fun frame => do let _ ← transportSend peer frame) frames

/-- What `runBufferFlush` does with the frames it has drained. -/
def retry (peer : NodeId) (frames : List TransportFrame) : DaemonM Unit := do
  let requeue ← flushFrames peer false frames
  Task.each (bufferPush peer) requeue

omit [Aes256Gcm] in
theorem flushSendBuffer_eq (peer : NodeId) :
    flushSendBuffer peer =
      .atomically (fun i s => let (frames, sendBuffer) := s.sendBuffer.drain i.now peer
        ({ s with sendBuffer }, frames)) >>= resend peer := rfl

omit [Aes256Gcm] in
theorem runBufferFlush_eq :
    runBufferFlush = .read (fun s => s.sessions.keys) >>= Task.each fun peer =>
      .atomically (fun i s => let (frames, sendBuffer) := s.sendBuffer.drain i.now peer
        ({ s with sendBuffer }, frames)) >>= retry peer := rfl

/-- Of each frame that was drained as a copy, the task has as many copies in hand as it
has such frames left to deal with. -/
def Covers (frames : List TransportFrame) : Stock → Prop
  | .drained all copies => ∀ frame ∈ all, frames.count frame ≤ (copies.map Copy.frame).count frame
  | _ => False

theorem Covers.offers {frames : List TransportFrame} (h : Covers (frame :: frames) stock) :
    stock.Offers frame (Covers frames) := by
  cases stock with
  | fresh mesh => exact h.elim
  | spent => exact h.elim
  | drained all copies =>
    refine ⟨?_, ?_, ?_⟩
    · by_cases hmem : frame ∈ all
      · have hcount := h frame hmem
        rw [count_cons_self] at hcount
        obtain ⟨c, hc, hframe⟩ :=
          mem_map.mp (count_pos_iff.mp (Nat.lt_of_lt_of_le (by omega) hcount))
        obtain ⟨before, behind, rfl⟩ := append_of_mem hc
        exact .inl ⟨c, _, .drained all before c behind, hframe⟩
      · exact .inr hmem
    · intro c stock' hgives hframe
      cases hgives with
      | drained _ before _ behind =>
        intro other hother
        have hcount := h other hother
        rw [map_append, map_cons, hframe] at hcount
        rw [map_append]
        simp only [count_append, count_cons] at hcount ⊢
        omega
    · intro halien other hother
      have hcount := h other hother
      have hne : frame ≠ other := fun heq => halien (heq.symm ▸ hother)
      rw [count_cons_of_ne hne] at hcount
      exact hcount

theorem Covers.of_count_le {frames frames' : List TransportFrame} (h : Covers frames stock)
    (hle : ∀ frame, frames'.count frame ≤ frames.count frame) : Covers frames' stock := by
  cases stock with
  | fresh mesh => exact h.elim
  | spent => exact h.elim
  | drained all copies => exact fun frame hmem => (hle frame).trans (h frame hmem)

theorem Covers.tail {frames : List TransportFrame} (h : Covers (frame :: frames) stock) :
    Covers frames stock :=
  h.of_count_le fun other => (sublist_cons_self frame frames).count_le other

variable (peer : NodeId) {frames : List TransportFrame}

/-- Sending a frame settles it, whether the transport takes it or not. -/
theorem manages_transportSend_covers (h : Covers (frame :: frames) stock) :
    (transportSend peer frame).Manages custody stock fun result g =>
      Covers frames g ∧ ∀ e, result = .error e → g = stock := by
  have hoffers := h.offers
  refine manages_transportSend ⟨hoffers.1, ?_, ?_⟩ fun e => ⟨h.tail, fun _ _ => rfl⟩
  · intro c stock' hgives hframe
    refine ⟨hoffers.2.1 c stock' hgives hframe, ?_⟩
    intro e he
    cases he
  · intro halien
    exact ⟨hoffers.2.2 halien, fun _ _ => rfl⟩

theorem manages_resend (h : Covers frames stock) :
    (resend peer frames).Manages custody stock fun _ _ => True := by
  induction frames generalizing stock with
  | nil => exact manages_pure trivial
  | cons frame frames ih =>
    have hsend := manages_transportSend_covers peer h
    refine manages_bind (P := fun _ g => Covers frames g) ?_ fun _ g hg => ih hg
    exact manages_bind hsend fun _ g hg => manages_pure hg.1

/-- The frames that go back into the buffer are still in hand, beside those `kept` from
before. -/
theorem manages_flushFrames (congested : Bool) (kept : List TransportFrame)
    (h : Covers (frames ++ kept) stock) :
    (flushFrames peer congested frames).Manages custody stock fun requeue g =>
      Covers (requeue ++ kept) g := by
  induction frames generalizing congested kept stock with
  | nil => cases congested <;> exact manages_pure h
  | cons frame frames ih =>
    -- the frame is not sent and goes back, whatever happens to the others
    have hkeep : ∀ c, Manages custody (do
          let rest ← flushFrames peer c frames
          return frame :: rest : DaemonM (List TransportFrame)) stock fun requeue g =>
        Covers (requeue ++ kept) g := by
      intro c
      have hmiddle : ∀ rest other,
          (rest ++ frame :: kept).count other = (frame :: rest ++ kept).count other :=
        fun rest other => perm_middle.count_eq other
      refine manages_bind
        (ih c (frame :: kept) (h.of_count_le fun other => (hmiddle frames other).le)) ?_
      intro rest g hg
      exact manages_pure (hg.of_count_le fun other => (hmiddle rest other).ge)
    cases congested with
    | true => exact hkeep true
    | false =>
      refine manages_bind (manages_transportSend_covers peer h) ?_
      intro result g ⟨hrest, hleft⟩
      cases result with
      | ok u => exact ih false kept hrest
      | error e =>
        cases e with
        | congested _ =>
          obtain rfl := hleft _ rfl
          exact hkeep true
        | peerNotConnected _ =>
          obtain rfl := hleft _ rfl
          exact hkeep false
        | sendFailed _ => exact ih false kept hrest

theorem manages_retry (h : Covers frames stock) :
    (retry peer frames).Manages custody stock fun _ _ => True := by
  refine manages_bind (manages_flushFrames peer false [] ((append_nil frames).symm ▸ h)) ?_
  intro requeue g hg
  induction requeue generalizing g with
  | nil => exact manages_pure trivial
  | cons frame requeue ih => exact manages_bind (manages_bufferPush hg.offers) fun _ g' => ih g'

end Custody

/-! ## Journeys -/

/-- Where the copies of a mesh frame are: in the hands of tasks; in send buffers; and on
links.  `puts` counts how often a copy was put on a link. -/
structure Journey where
  works : List (Stock × DaemonM Unit)
  held : List Copy
  links : List Copy
  puts : Nat

namespace Journey

/-- What becomes of a copy that a step of the kind gives away. -/
def record (J : Journey) : Kind → Option Copy → Journey
  | .send _ _, some c => { J with links := J.links ++ [c], puts := J.puts + 1 }
  | .hold _ _, some c => { J with held := J.held ++ [c] }
  | _, _ => J

theorem works_record (J : Journey) (kind : Kind) (copy : Option Copy) :
    (J.record kind copy).works = J.works := by
  unfold record
  split <;> rfl

/-- What was spent on a journey and what its copies may still cost. -/
def total (J : Journey) : Nat :=
  (J.works.map (·.1.worth)).sum + Copy.worth J.held + (J.links.map Copy.ttl).sum + J.puts

variable [Aes256Gcm]

/-- An honest node originates the frame. -/
def origin (cell : Nat) (mesh : MeshDataFrame) : Journey :=
  ⟨[(.fresh mesh, sendSingleMesh cell mesh)], [], [], 0⟩

/-- What can happen to the copies. -/
inductive Step : Journey → Journey → Prop
  /-- A node that is not the destination receives a copy, opens it with the key it was
  sealed with, and relays it. -/
  | relay {J : Journey} (before behind : List Copy) {c : Copy} {opened : TransportFrame}
      (receiver : Session) {mesh : MeshDataFrame} {rest : Bytes}
      (hlinks : J.links = before ++ c :: behind)
      (hkey : receiver.recv.cipher = c.session.send.cipher)
      (hopen : (receiver.decryptFrame c.frame).1 = .ok opened)
      (hdecode : MeshDataFrame.decode opened.payload = .ok mesh rest) :
      Step J { J with
        links := before ++ behind
        works := (relayStock mesh, relayMesh mesh) :: J.works }
  /-- A copy is lost, refused, delivered, or received by someone else. -/
  | leave {J : Journey} {before behind : List Copy} {c : Copy}
      (hlinks : J.links = before ++ c :: behind) : Step J { J with links := before ++ behind }
  /-- A copy in a buffer expires or is evicted. -/
  | expire {J : Journey} {before behind : List Copy} {c : Copy}
      (hheld : J.held = before ++ c :: behind) : Step J { J with held := before ++ behind }
  /-- Copies are drained from a buffer, among other frames. -/
  | flush {J : Journey} (peer : NodeId) {frames : List TransportFrame} {drained kept : List Copy}
      {task : DaemonM Unit} (hheld : J.held.Perm (drained ++ kept))
      (hframes : (frames.filter ((drained.map Copy.frame).contains ·)).Perm
        (drained.map Copy.frame))
      (htask : task = resend peer frames ∨ task = retry peer frames) :
      Step J { J with
        held := kept
        works := (.drained (drained.map Copy.frame) drained, task) :: J.works }
  /-- A task takes a step, in any state. -/
  | work {J : Journey} (before behind : List (Stock × DaemonM Unit)) {stock stock' : Stock}
      {act : Input → State → Option State} {next : Input → State → DaemonM Unit} {i : Input}
      {s s' : State} (kind : Kind) {copy : Option Copy}
      (hworks : J.works = before ++ (stock, .step act next) :: behind) (hkind : kind.Is act)
      (hmoves : kind.Moves s stock stock' copy) (hact : act i s = some s') :
      Step J ({ J with works := before ++ (stock', next i s) :: behind }.record kind copy)
  /-- A step that is of no kind, or sends a frame that is not in hand, may put any copies
  anywhere. -/
  | wild {J J' : Journey} {stock : Stock} {act : Input → State → Option State}
      {next : Input → State → DaemonM Unit} {i : Input} {s s' : State}
      (hwork : (stock, .step act next) ∈ J.works) (hact : act i s = some s')
      (hnone : ∀ stock', ¬ custody act s stock stock') : Step J J'

/-- The journeys of a mesh frame. -/
def Travels (cell : Nat) (mesh : MeshDataFrame) : Journey → Prop :=
  Relation.ReflTransGen Step (origin cell mesh)

/-! ### Nothing adds to what the copies are worth -/

/-- The tasks manage what they have in hand. -/
def Managed (J : Journey) : Prop :=
  ∀ work ∈ J.works, work.2.Manages custody work.1 fun _ _ => True

variable {J J' : Journey}

/-- What a step takes from the stock is what the copy counts for elsewhere. -/
theorem total_record {kind : Kind} {copy : Option Copy} {s : State} {stock stock' : Stock}
    (J : Journey) (h : kind.Moves s stock stock' copy) :
    (J.record kind copy).total + stock'.worth = J.total + stock.worth := by
  cases h with
  | quiet | refused | sentOther | heldOther => rfl
  | sent _ hgives | held hgives =>
    rw [Stock.worth_of_gives hgives]
    simp only [record, total, Copy.worth, map_append, sum_append, map_cons, map_nil, sum_cons,
      sum_nil]
    omega

theorem managed_origin (cell : Nat) (mesh : MeshDataFrame) : (origin cell mesh).Managed :=
  forall_mem_singleton.mpr (manages_sendSingleMesh cell mesh)

/-- The drained frames are covered by the copies that were drained. -/
theorem covers_drained {frames : List TransportFrame} {drained : List Copy}
    (h : (frames.filter ((drained.map Copy.frame).contains ·)).Perm (drained.map Copy.frame)) :
    Covers frames (.drained (drained.map Copy.frame) drained) := by
  intro frame hmem
  rw [← h.count_eq, count_filter (by simpa using hmem)]

theorem Managed.step (h : J.Managed) (hstep : Step J J') : J'.Managed ∧ J'.total ≤ J.total := by
  cases hstep with
  | @relay before behind c opened receiver mesh rest hlinks hkey hopen hdecode =>
    refine ⟨forall_mem_cons.mpr ⟨manages_relayMesh mesh, h⟩, ?_⟩
    have hworth := c.ttl_of_decryptFrame hkey hopen hdecode
    simp only [total, hlinks, map_append, sum_append, map_cons, sum_cons, worth_relayStock]
    omega
  | @leave before behind c hlinks =>
    refine ⟨h, ?_⟩
    simp only [total, hlinks, map_append, sum_append, map_cons, sum_cons]
    omega
  | @expire before behind c hheld =>
    refine ⟨h, ?_⟩
    simp only [total, Copy.worth, hheld, map_append, sum_append, map_cons, sum_cons]
    omega
  | @flush peer frames drained kept task hheld hframes htask =>
    have hcovers := covers_drained hframes
    refine ⟨forall_mem_cons.mpr ⟨?_, h⟩, ?_⟩
    · obtain rfl | rfl := htask
      · exact manages_resend peer hcovers
      · exact manages_retry peer hcovers
    · have hsplit := (hheld.map (·.ttl + 1)).sum_eq
      rw [map_append, sum_append] at hsplit
      simp only [total, Copy.worth, map_cons, sum_cons, Stock.worth]
      omega
  | @work before behind stock stock' act next i s s' kind copy hworks hkind hmoves hact =>
    unfold Managed at h ⊢
    rw [hworks, forall_mem_append, forall_mem_cons] at h
    obtain ⟨hbefore, hwork, hbehind⟩ := h
    refine ⟨?_, ?_⟩
    · rw [works_record, forall_mem_append, forall_mem_cons]
      exact ⟨hbefore, (hwork i s s' hact).2 stock' ⟨kind, copy, hkind, hmoves⟩, hbehind⟩
    · have hrecord := total_record
        { J with works := before ++ (stock', next i s) :: behind } hmoves
      simp only [total, hworks, map_append, sum_append, map_cons, sum_cons] at hrecord ⊢
      omega
  | @wild _ stock act next i s s' hwork hact hnone =>
    obtain ⟨stock', hallowed⟩ := (h _ hwork i s s' hact).1
    exact absurd hallowed (hnone stock')

/-- However the tables of the nodes change, a mesh frame originated with time to live
`t` is put on a link at most `t + 1` times. -/
theorem puts_le_ttl_succ {cell : Nat} {mesh : MeshDataFrame} (h : Travels cell mesh J) :
    J.puts ≤ mesh.ttl.toNat + 1 := by
  have htotal : J.Managed ∧ J.total ≤ (origin cell mesh).total := by
    induction h with
    | refl => exact ⟨managed_origin cell mesh, Nat.le_refl _⟩
    | tail _ hstep ih => exact (ih.1.step hstep).imp_right fun hle => hle.trans ih.2
  have horigin : (origin cell mesh).total = mesh.ttl.toNat + 1 := rfl
  have hputs : J.puts ≤ J.total := Nat.le_add_left _ _
  exact hputs.trans (htotal.2.trans_eq horigin)

/-- A task that is about to send a mesh frame puts a copy on a link if its session and
its connection work. -/
theorem exists_put {cell : Nat} {mesh : MeshDataFrame} {session : Session} {s s' : State}
    {works : List (Stock × DaemonM Unit)} (i : Input) (q : Unit → DaemonM Unit)
    (hworks : J.works = (.fresh mesh, sendSingleMesh cell mesh >>= q) :: works)
    (hcell : s.cells.get cell = some session) (hcan : session.CanEmit mesh.encode)
    (hsent : Sent s' session.peerId (session.frameFor mesh.encode)) :
    ∃ p, Relation.ReflTransGen Step J
      ⟨(.spent, p) :: works, J.held, J.links ++ [⟨session, mesh, hcan⟩], J.puts + 1⟩ := by
  have hemit : session.encryptFrame mesh.encode =
      (.ok (session.frameFor mesh.encode), session.advance) :=
    (session.encryptFrame_cases mesh.encode).elim And.right fun h => absurd hcan h.1
  -- the frame is encrypted, then handed to the transport
  have hfirst : Step J ⟨(.fresh mesh,
      sendFrameBuffered session.peerId (session.frameFor mesh.encode) >>= q) :: works, J.held,
      J.links, J.puts⟩ := by
    have hstep := Step.work (J := J) (i := i) (s := s) [] works .quiet hworks
      (by
        intro i s s' hact
        cases hact
        dsimp only
        split <;> exact ⟨rfl, rfl⟩) (.quiet _) rfl
    simp only [hcell, hemit] at hstep
    exact hstep
  have hsecond := Step.work (J := ⟨(.fresh mesh,
      sendFrameBuffered session.peerId (session.frameFor mesh.encode) >>= q) :: works, J.held,
      J.links, J.puts⟩) (i := i) (s := s') [] works
    (.send session.peerId (session.frameFor mesh.encode)) rfl (fun _ _ => rfl)
    (.sent (c := ⟨session, mesh, hcan⟩) hsent (.fresh ⟨session, mesh, hcan⟩)) rfl
  exact ⟨_, .tail (.single hfirst) hsecond⟩

theorem step_read {α : Type} {f : State → α} {q : α → DaemonM Unit} {a : α} {stock : Stock}
    {s : State} {works : List (Stock × DaemonM Unit)} (i : Input)
    (hworks : J.works = (stock, Task.read f >>= q) :: works) (hf : f s = a) :
    Step J { J with works := (stock, q a) :: works } := by
  subst hf
  refine Step.work (i := i) (s := s) [] works .quiet hworks ?_ (.quiet stock) rfl
  intro i s s' hact
  cases hact
  exact ⟨rfl, rfl⟩

/-- A relay that has a route, a session and a connection puts a copy on a link. -/
theorem exists_relay_put {cell : Nat} {mesh : MeshDataFrame} {nextHop : NodeId}
    {session : Session} {s s' : State} {works : List (Stock × DaemonM Unit)} (i : Input)
    (hworks : J.works = (relayStock mesh, relayMesh mesh) :: works) (httl : mesh.ttl ≠ 0)
    (hroute : s.routing.lookup mesh.dstId = some nextHop)
    (hsession : s.sessions.get nextHop = some cell) (hcell : s.cells.get cell = some session)
    (hcan : session.CanEmit (relayed mesh).encode)
    (hsent : Sent s' session.peerId (session.frameFor (relayed mesh).encode)) :
    ∃ J', Relation.ReflTransGen Step J J' ∧ J'.puts = J.puts + 1 := by
  rw [relayMesh, if_neg httl, relayStock, if_neg httl] at hworks
  obtain ⟨p, hput⟩ := exists_put (J := { J with works := (_, _) :: works }) i
    (fun _ => countForwarded mesh.payload.length) rfl hcell hcan hsent
  exact ⟨_, .head (step_read i hworks hroute) (.head (step_read i rfl hsession) hput), rfl⟩

end Journey

section Concrete

open Journey

open Transparent

/-- A frame for the third node that may be relayed once. -/
def relayedOnce : MeshDataFrame := ⟨⟨.fill 16 1⟩, ⟨.fill 16 3⟩, 0, 1, .empty, [7]⟩

/-- A node with a session with the peer and a route to it. -/
def neighbourOf (peer : NodeId) (key : Octets 32) : State :=
  { openNode.state with
    cells := HashMap.empty.insert 0 (Session.new peer key true)
    sessions := HashMap.empty.insert peer 0
    routing := openNode.state.routing.addPeer 0 peer }

/-- It is sent by its origin and by the relay, and no more often. -/
theorem puts_le_ttl_succ_relayedOnce :
    ∃ J, Travels 0 relayedOnce J ∧ J.puts = 2 ∧ J.puts ≤ relayedOnce.ttl.toNat + 1 := by
  have horigin : (origin 0 relayedOnce).works =
      (.fresh relayedOnce, sendSingleMesh 0 relayedOnce >>= pure) :: [] := by
    rw [Task.bind_pure]
    rfl
  obtain ⟨p, hput⟩ := exists_put (s := neighbourOf ⟨.fill 16 2⟩ (.fill 32 4)) calm pure horigin
    (HashMap.get_insert_self _ _ _) (by decide) (sent_probe openNode.state _ _)
  have hrelay :=
    hput.tail (Step.relay [] [] (Session.new ⟨.fill 16 1⟩ (.fill 32 4) false) rfl rfl rfl
    (MeshDataFrame.decode_encode ⟨by decide, rfl⟩))
  obtain ⟨J, hagain, hputs⟩ := exists_relay_put
    (J := ⟨(relayStock relayedOnce, relayMesh relayedOnce) :: _, _, _, _⟩)
    (s := neighbourOf ⟨.fill 16 3⟩ (.fill 32 5)) calm rfl (by decide) (by decide)
    (HashMap.get_insert_self _ _ _) (HashMap.get_insert_self _ _ _) (by decide)
    (sent_probe openNode.state _ _)
  have htravels : Travels 0 relayedOnce J := hrelay.trans hagain
  exact ⟨J, htravels, hputs, puts_le_ttl_succ htravels⟩

end Concrete

end ProximityMesh.Daemon
