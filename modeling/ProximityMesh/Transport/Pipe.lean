/-
  Transport/Pipe.lean --- one direction of a connection between two transports.

  Source: `send`, `recv` and the two tasks of `register_peer` in
  crates/pim-transport/src/tcp.rs; crates/pim-protocol/src/length_delimited.rs and
  crates/pim-protocol/src/transport_frame.rs for the two size limits.

  `send` puts a frame into the channel of the write task, the write task puts it on the
  socket, the read task of the other side takes it off again and hands it to `recv`.
  Between any two of these steps anything else may happen at the two nodes, as long as
  the tasks of the connection keep running.

  A frame is put on the wire whatever its size.  The frame codec allows a payload of
  `maxPayloadSize` bytes, the framing a message of as many bytes, header and tag
  included: `accepted_frame_delivered_iff` says which frames arrive.
-/
import ProximityMesh.Transport.Stream

set_option autoImplicit false

namespace ProximityMesh.Transport

open Protocol LengthDelimitedCodec List HashMap

/-! ## What the operations of the transport do -/

namespace TcpTransport

variable {t t' : TcpTransport} {conn : ConnId}

/-- What `send` puts into the channel. -/
def wireOf (frame : TransportFrame) : Bytes := LengthDelimitedCodec.encode frame.encode

/-- The channel of the write task takes another message. -/
def HasRoom (c : Connection) : Prop := c.writing = true ∧ c.queue.length < writeCapacity

instance (c : Connection) : Decidable (HasRoom c) := inferInstanceAs (Decidable (_ ∧ _))

/-- The connection with a message more in its channel. -/
def enqueue (c : Connection) (wire : Bytes) : Connection := { c with queue := c.queue ++ [wire] }

theorem send_eq_ok {peer : NodeId} {frame : TransportFrame} {writer : PeerWriter}
    (hwriter : t.peers.get peer = some writer) :
    t.send peer frame = (.ok (), t') ↔
      ∃ c, t.conns.get writer.conn = some c ∧ HasRoom c ∧
        t' = { t with conns := t.conns.insert writer.conn (enqueue c (wireOf frame)) } := by
  unfold HasRoom
  cases hc : t.conns.get writer.conn with
  | none => simp [send, hwriter, hc]
  | some c =>
    by_cases hwriting : c.writing = true
    · by_cases hfull : c.queue.length ≥ writeCapacity
      · simp [send, hwriter, hc, hwriting, hfull]
      · simpa [send, hwriter, hc, hwriting, hfull, Nat.not_le.mp hfull, enqueue, wireOf]
          using eq_comm
    · simp [send, hwriter, hc, hwriting]

theorem writeOut_eq_some {ok : Bool} {wire : Bytes} :
    t.writeOut conn ok = some (t', wire) ↔
      ∃ c queue, t.conns.get conn = some c ∧ c.writing = true ∧ c.queue = wire :: queue ∧
        t' = { t with conns := t.conns.insert conn { c with queue, writing := ok } } := by
  unfold writeOut
  cases hc : t.conns.get conn with
  | none => simp
  | some c =>
    by_cases hwriting : c.writing = true
    · cases hqueue : c.queue with
      | nil => simp [hwriting, hqueue]
      | cons first queue =>
        simp [hwriting, hqueue]
        rw [and_comm, eq_comm (a := t')]
    · simp [hwriting]

theorem receive_eq_some {chunk : Bytes} :
    t.receive conn chunk = some t' ↔
      ∃ c, t.conns.get conn = some c ∧ c.reading = true ∧
        t' = { t with conns := t.conns.insert conn { c with buf := c.buf ++ chunk } } := by
  unfold receive
  cases hc : t.conns.get conn with
  | none => simp
  | some c =>
    by_cases hreading : c.reading = true
    · simpa [hreading] using eq_comm
    · simp [hreading]

/-- The frame in a message, if there is one. -/
def framesIn (frameBytes : Bytes) : List TransportFrame :=
  match TransportFrame.decode frameBytes with
  | .ok frame _ => [frame]
  | .error _ _ => []

theorem deliver_eq_some :
    t.deliver conn = some t' ↔
      ∃ c frameBytes rest, t.conns.get conn = some c ∧ c.reading = true ∧
        t.incoming.length < incomingCapacity ∧
        LengthDelimitedCodec.decode c.buf = .ok (some frameBytes) rest ∧
        t' = { t with
          conns := t.conns.insert conn { c with buf := rest }
          incoming := t.incoming ++ (framesIn frameBytes).map (⟨conn, c.currentId, ·⟩) } := by
  unfold deliver
  cases hc : t.conns.get conn with
  | none => simp
  | some c =>
    by_cases hreading : c.reading = true
    · by_cases hroom : t.incoming.length < incomingCapacity
      · rcases decode_cases c.buf with ⟨frameBytes, rest, hdec, -⟩ | ⟨hdec, -⟩ | ⟨e, hdec, -⟩
        · have hnopanic := TransportFrame.decode_ensures frameBytes
          unfold BufM.Ensures at hnopanic
          cases hframe : TransportFrame.decode frameBytes with
          | ok frame _ => simpa [hreading, hroom, hdec, framesIn, hframe] using eq_comm
          | error f _ =>
            rw [hframe] at hnopanic
            cases f with
            | error e => simpa [hreading, hroom, hdec, framesIn, hframe] using eq_comm
            | panic => exact absurd rfl hnopanic.1
        · simp [hdec]
        · simp [hdec]
      · simp [hroom]
    · simp [hreading]

theorem recv_eq_some {r : Received} :
    t.recv = some (r, t') ↔ ∃ incoming, t.incoming = r :: incoming ∧ t' = { t with incoming } := by
  unfold recv
  cases t.incoming with
  | nil => simp
  | cons first incoming =>
    simp [eq_comm]

theorem conns_recv {r : Received} (h : t.recv = some (r, t')) : t'.conns = t.conns := by
  obtain ⟨incoming, -, rfl⟩ := recv_eq_some.mp h
  rfl

theorem framesIn_encode {frame : TransportFrame} (h : frame.payload.length ≤ maxPayloadSize) :
    framesIn frame.encode = [frame] := by
  rw [framesIn, TransportFrame.decode_encode h]

end TcpTransport

open TcpTransport

/-! ## The pipe -/

/-- The two ends of a connection, what is under way between them, and a record of what
the sending node handed over and the receiving node got. -/
structure Pipe where
  sender : TcpTransport
  receiver : TcpTransport
  /-- Bytes the write task wrote and the read task has not read. -/
  socket : Bytes
  /-- Frames that `send` took for this connection. -/
  accepted : List TransportFrame
  /-- Frames of this connection that `recv` returned. -/
  delivered : List TransportFrame

namespace Pipe

/-- The number of the connection at each end. -/
structure Ends where
  out : ConnId
  inn : ConnId

variable (ends : Ends)

/-- Frames of this connection that wait for `recv`. -/
def waiting (p : Pipe) : List TransportFrame :=
  (p.receiver.incoming.filter (·.conn = ends.inn)).map (·.frame)

/-- A step of the tasks of the connection, or of the node that calls `recv`.  A read is
made when the inner loop has nothing to take. -/
inductive Move : Pipe → Pipe → Prop where
  | write {p : Pipe} {sender : TcpTransport} {wire : Bytes}
      (h : p.sender.writeOut ends.out true = some (sender, wire)) :
      Move p { p with sender, socket := p.socket ++ wire }
  | read {p : Pipe} {receiver : TcpTransport} {chunk rest : Bytes} {c : Connection}
      (hsocket : p.socket = chunk ++ rest) (hchunk : FillsRead chunk)
      (hc : p.receiver.conns.get ends.inn = some c) (hloop : takeFrames c.buf = ([], c.buf))
      (h : p.receiver.receive ends.inn chunk = some receiver) :
      Move p { p with receiver, socket := rest }
  | deliver {p : Pipe} {receiver : TcpTransport}
      (h : p.receiver.deliver ends.inn = some receiver) : Move p { p with receiver }
  | recv {p : Pipe} {receiver : TcpTransport} {r : Received}
      (h : p.receiver.recv = some (r, receiver)) :
      Move p { p with
        receiver
        delivered := p.delivered ++ if r.conn = ends.inn then [r.frame] else [] }

/-- A step of the two nodes, with whatever they do that leaves the tasks of the
connection alone. -/
inductive Step : Pipe → Pipe → Prop where
  | move {p p' : Pipe} (h : Move ends p p') : Step p p'
  | send {p : Pipe} {sender : TcpTransport} {peer : NodeId} {writer : PeerWriter}
      {frame : TransportFrame} (hwriter : p.sender.peers.get peer = some writer)
      (hconn : writer.conn = ends.out) (h : p.sender.send peer frame = (.ok (), sender)) :
      Step p { p with sender, accepted := p.accepted ++ [frame] }
  | senderElse {p : Pipe} {sender : TcpTransport}
      (h : ∀ c, p.sender.conns.get ends.out = some c → ∃ c', sender.conns.get ends.out = some c' ∧
        c'.queue = c.queue ∧ c'.writing = c.writing) :
      Step p { p with sender }
  | receiverElse {p : Pipe} {receiver : TcpTransport}
      (h : ∀ c, p.receiver.conns.get ends.inn = some c →
        ∃ c', receiver.conns.get ends.inn = some c' ∧ c'.buf = c.buf ∧ c'.reading = c.reading)
      (hwaiting : ({ p with receiver } : Pipe).waiting ends = p.waiting ends) :
      Step p { p with receiver }

/-- A connection that was just registered at both ends. -/
structure Fresh (p : Pipe) : Prop where
  writes : ∃ c, p.sender.conns.get ends.out = some c ∧ c.queue = [] ∧ c.writing = true
  reads : ∃ c, p.receiver.conns.get ends.inn = some c ∧ c.buf = [] ∧ c.reading = true
  socket : p.socket = []
  waiting : p.waiting ends = []
  accepted : p.accepted = []
  delivered : p.delivered = []

/-- A run from a fresh connection. -/
def Runs (p : Pipe) : Prop := ∃ p₀, Fresh ends p₀ ∧ Relation.ReflTransGen (Step ends) p₀ p

/-- The tasks of the connection wait and there is nothing to receive. -/
def AtRest (p : Pipe) : Prop := ∀ p', ¬ Move ends p p'

/-! ## What is under way -/

variable {ends} {p p' : Pipe}

/-- The message of the frame passes the framing of the receiver. -/
def Fits (frame : TransportFrame) : Prop := frame.encode.length ≤ maxFrameSize

/-- The length of the message can be written into its prefix. -/
def Measured (frame : TransportFrame) : Prop := frame.encode.length < 256 ^ 4

variable {frame : TransportFrame}

theorem Fits.payload_le (h : Fits frame) : frame.payload.length ≤ maxPayloadSize := by
  unfold Fits at h
  rw [TransportFrame.length_encode] at h
  have hlimits : maxFrameSize = maxPayloadSize := rfl
  omega

variable (ends) in
/-- The tasks run, with this channel and this buffer. -/
structure Carries (p : Pipe) (queue : List Bytes) (buf : Bytes) : Prop where
  writes : ∃ c, p.sender.conns.get ends.out = some c ∧ c.queue = queue ∧ c.writing = true
  reads : ∃ c, p.receiver.conns.get ends.inn = some c ∧ c.buf = buf ∧ c.reading = true

variable (ends) in
/-- Frames the read task took off its buffer. -/
def handed (p : Pipe) : List TransportFrame := p.delivered ++ p.waiting ends

variable (ends) in
/-- The frames taken off so far are the first ones accepted, and the messages of the
others are under way. -/
def InOrder (p : Pipe) : Prop :=
  ∃ queue buf rest, Carries ends p queue buf ∧ p.accepted = handed ends p ++ rest ∧
    (∀ frame ∈ handed ends p, Fits frame) ∧
    rest.flatMap wireOf = buf ++ p.socket ++ queue.flatten

variable (ends) in
/-- The read task got past a message whose prefix is not its length, after all the
frames before it. -/
def Past (p : Pipe) : Prop :=
  ∃ front frame back, p.accepted = front ++ frame :: back ∧ (∀ f ∈ front, Fits f) ∧
    ¬ Measured frame ∧ front <+: handed ends p

/-- What the inner loop finds at the front of the messages under way. -/
theorem next_of_decode {rest : List TransportFrame} {buf frameBytes buf' more : Bytes}
    (hrest : rest.flatMap wireOf = buf ++ more)
    (hdec : LengthDelimitedCodec.decode buf = .ok (some frameBytes) buf') :
    ∃ frame rest', rest = frame :: rest' ∧ (Measured frame → Fits frame ∧
      frameBytes = frame.encode ∧ rest'.flatMap wireOf = buf' ++ more) := by
  obtain ⟨hmax, hbuf⟩ := (decode_ensures buf).of_ok hdec
  rw [hbuf, append_assoc] at hrest
  cases rest with
  | nil =>
    have hlen := congrArg length hrest
    rw [length_append, length_encode, flatMap_nil, length_nil] at hlen
    omega
  | cons frame rest' =>
    refine ⟨frame, rest', rfl, fun hmeasured => ?_⟩
    rw [flatMap_cons, wireOf] at hrest
    have hfields : beBytes 4 frame.encode.length = beBytes 4 frameBytes.length := by
      simp only [LengthDelimitedCodec.encode, append_assoc] at hrest
      exact (append_inj hrest (by rw [length_beBytes, length_beBytes])).1
    have hlength : frame.encode.length = frameBytes.length :=
      beBytes_inj hmeasured (Nat.lt_of_le_of_lt hmax (by decide)) hfields
    obtain ⟨hmessage, hbehind⟩ := append_inj hrest (by
      rw [length_encode, length_encode, hlength])
    exact ⟨hlength.trans_le hmax, (encode_inj hmessage).symm, hbehind⟩

theorem handed_recv {receiver : TcpTransport} {r : Received}
    (h : p.receiver.recv = some (r, receiver)) :
    handed ends { p with
      receiver
      delivered := p.delivered ++ if r.conn = ends.inn then [r.frame] else [] } =
      handed ends p := by
  obtain ⟨incoming, hincoming, rfl⟩ := recv_eq_some.mp h
  by_cases hconn : r.conn = ends.inn
  · simp [handed, waiting, hincoming, hconn]
  · simp [handed, waiting, hincoming, hconn]

theorem handed_deliver {receiver : TcpTransport} {id : NodeId} {frames : List TransportFrame}
    (h : receiver.incoming = p.receiver.incoming ++ frames.map (⟨ends.inn, id, ·⟩)) :
    handed ends { p with receiver } = handed ends p ++ frames := by
  simp [handed, waiting, h, filter_map, Function.comp_def]

theorem InOrder.fresh (h : Fresh ends p) : InOrder ends p := by
  refine ⟨[], [], [], ⟨h.writes, h.reads⟩, ?_, ?_, ?_⟩
  · rw [handed, h.accepted, h.delivered, h.waiting]
    rfl
  · rw [handed, h.delivered, h.waiting]
    exact fun _ hf => absurd hf not_mem_nil
  · rw [h.socket]
    rfl

theorem InOrder.move (h : InOrder ends p) (hmove : Move ends p p') :
    InOrder ends p' ∨ Past ends p' := by
  obtain ⟨queue, buf, rest, hcarries, haccepted, hfits, hrest⟩ := h
  obtain ⟨⟨c, hc, hqueue, hwriting⟩, ⟨d, hd, hbuf, hreading⟩⟩ := hcarries
  cases hmove with
  | write hout =>
    obtain ⟨c', queue', hc', -, hqueue', rfl⟩ := writeOut_eq_some.mp hout
    obtain rfl : c' = c := Option.some.inj (hc'.symm.trans hc)
    refine .inl ⟨queue', buf, rest, ⟨⟨_, get_insert_self .., rfl, rfl⟩,
      ⟨d, hd, hbuf, hreading⟩⟩, haccepted, hfits, ?_⟩
    rw [hrest, ← hqueue, hqueue']
    simp
  | read hsocket hchunk hget hloop hin =>
    obtain ⟨d', hd', -, rfl⟩ := receive_eq_some.mp hin
    obtain rfl : d' = d := Option.some.inj (hd'.symm.trans hd)
    refine .inl ⟨queue, _, rest, ⟨⟨c, hc, hqueue, hwriting⟩,
      ⟨_, get_insert_self .., rfl, hreading⟩⟩, haccepted, hfits, ?_⟩
    rw [hrest, hbuf, hsocket]
    simp
  | @deliver receiver hdeliver =>
    obtain ⟨d', frameBytes, buf', hd', -, -, hdec, hreceiver⟩ := deliver_eq_some.mp hdeliver
    obtain rfl : d' = d := Option.some.inj (hd'.symm.trans hd)
    have hreads : ∃ c, receiver.conns.get ends.inn = some c ∧ c.buf = buf' ∧ c.reading = true := by
      rw [hreceiver]
      exact ⟨_, get_insert_self .., rfl, hreading⟩
    have hhanded : handed ends { p with receiver } = handed ends p ++ framesIn frameBytes :=
      handed_deliver (by rw [hreceiver])
    rw [append_assoc, ← hbuf] at hrest
    obtain ⟨frame, rest', rfl, hnext⟩ := next_of_decode hrest hdec
    by_cases hmeasured : Measured frame
    · obtain ⟨hframe, rfl, hrest'⟩ := hnext hmeasured
      rw [framesIn_encode hframe.payload_le] at hhanded
      refine .inl ⟨queue, buf', rest', ⟨⟨c, hc, hqueue, hwriting⟩, hreads⟩, ?_, ?_, ?_⟩
      · rw [hhanded, haccepted]
        simp
      · rw [hhanded]
        exact forall_mem_append.mpr ⟨hfits, forall_mem_singleton.mpr hframe⟩
      · rw [hrest', append_assoc]
    · -- the prefix is not the length of the message: what the read task takes is not it
      refine .inr ⟨handed ends p, frame, rest', haccepted, hfits, hmeasured, ?_⟩
      rw [hhanded]
      exact prefix_append ..
  | recv hrecv =>
    have hconns := conns_recv hrecv
    refine .inl ⟨queue, buf, rest,
      ⟨⟨c, hc, hqueue, hwriting⟩, ⟨d, hconns ▸ hd, hbuf, hreading⟩⟩, ?_, ?_, hrest⟩
    · rw [handed_recv hrecv]
      exact haccepted
    · rw [handed_recv hrecv]
      exact hfits

theorem InOrder.step (h : InOrder ends p) (hstep : Step ends p p') :
    InOrder ends p' ∨ Past ends p' := by
  cases hstep with
  | move hmove => exact h.move hmove
  | @send sender peer writer frame hwriter hconn hsend =>
    obtain ⟨queue, buf, rest, ⟨⟨c, hc, hqueue, hwriting⟩, hreads⟩, haccepted, hfits, hrest⟩ := h
    obtain ⟨c', hc', -, rfl⟩ := (send_eq_ok hwriter).mp hsend
    rw [hconn] at hc'
    obtain rfl : c' = c := Option.some.inj (hc'.symm.trans hc)
    refine .inl ⟨queue ++ [wireOf frame], buf, rest ++ [frame],
      ⟨⟨enqueue c' (wireOf frame), ?_, ?_, hwriting⟩, hreads⟩, ?_, hfits, ?_⟩
    · rw [hconn]
      exact get_insert_self ..
    · rw [enqueue, hqueue]
    · rw [haccepted, append_assoc]
      rfl
    · rw [flatMap_append, hrest]
      simp
  | senderElse helse =>
    obtain ⟨queue, buf, rest, ⟨⟨c, hc, hqueue, hwriting⟩, hreads⟩, hrest⟩ := h
    obtain ⟨c', hc', hqueue', hwriting'⟩ := helse c hc
    exact .inl ⟨queue, buf, rest,
      ⟨⟨c', hc', hqueue'.trans hqueue, hwriting'.trans hwriting⟩, hreads⟩, hrest⟩
  | @receiverElse receiver helse hwaiting =>
    obtain ⟨queue, buf, rest, ⟨hwrites, ⟨d, hd, hbuf, hreading⟩⟩, haccepted, hfits, hrest⟩ := h
    obtain ⟨d', hd', hbuf', hreading'⟩ := helse d hd
    have hhanded : handed ends { p with receiver } = handed ends p := by
      rw [handed, hwaiting]
      rfl
    refine .inl ⟨queue, buf, rest,
      ⟨hwrites, ⟨d', hd', hbuf'.trans hbuf, hreading'.trans hreading⟩⟩, ?_, ?_, hrest⟩
    · rw [hhanded]
      exact haccepted
    · rw [hhanded]
      exact hfits

theorem grows (hstep : Step ends p p') :
    handed ends p <+: handed ends p' ∧ p.accepted <+: p'.accepted := by
  cases hstep with
  | move hmove =>
    cases hmove with
    | write _ => exact ⟨prefix_rfl, prefix_rfl⟩
    | read _ _ _ _ hin =>
      obtain ⟨d, -, -, rfl⟩ := receive_eq_some.mp hin
      exact ⟨prefix_rfl, prefix_rfl⟩
    | @deliver receiver hdeliver =>
      obtain ⟨d, frameBytes, buf', -, -, -, -, hreceiver⟩ := deliver_eq_some.mp hdeliver
      have hhanded : handed ends { p with receiver } = handed ends p ++ framesIn frameBytes :=
        handed_deliver (by rw [hreceiver])
      rw [hhanded]
      exact ⟨prefix_append .., prefix_rfl⟩
    | recv hrecv =>
      rw [handed_recv hrecv]
      exact ⟨prefix_rfl, prefix_rfl⟩
  | send _ _ _ => exact ⟨prefix_rfl, prefix_append ..⟩
  | senderElse _ => exact ⟨prefix_rfl, prefix_rfl⟩
  | @receiverElse receiver _ hwaiting =>
    have hhanded : handed ends { p with receiver } = handed ends p := by
      rw [handed, hwaiting]
      rfl
    rw [hhanded]
    exact ⟨prefix_rfl, prefix_rfl⟩

theorem Past.step (h : Past ends p) (hstep : Step ends p p') : Past ends p' := by
  obtain ⟨front, frame, back, haccepted, hfits, hmeasured, hfront⟩ := h
  obtain ⟨hhanded, more, hmore⟩ := grows hstep
  refine ⟨front, frame, back ++ more, ?_, hfits, hmeasured, hfront.trans hhanded⟩
  rw [← hmore, haccepted, append_assoc]
  rfl

theorem inOrder_or_past (h : Runs ends p) : InOrder ends p ∨ Past ends p := by
  obtain ⟨p₀, hfresh, hsteps⟩ := h
  induction hsteps with
  | refl => exact .inl (InOrder.fresh hfresh)
  | tail _ hstep ih =>
    cases ih with
    | inl hinOrder => exact hinOrder.step hstep
    | inr hpast => exact .inr (hpast.step hstep)

/-! ## At rest -/

theorem incoming_of_atRest (h : AtRest ends p) : p.receiver.incoming = [] := by
  cases hincoming : p.receiver.incoming with
  | nil => rfl
  | cons r incoming => exact absurd (.recv (recv_eq_some.mpr ⟨incoming, hincoming, rfl⟩)) (h _)

theorem handed_of_atRest (h : AtRest ends p) : handed ends p = p.delivered := by
  rw [handed, waiting, incoming_of_atRest h]
  exact append_nil _

/-- At rest nothing is under way but what begins with a message that is too long. -/
theorem rest_of_atRest (hrest : AtRest ends p) (h : InOrder ends p) :
    ∃ rest, p.accepted = p.delivered ++ rest ∧ (∀ frame ∈ p.delivered, Fits frame) ∧
      ∀ frame ∈ rest.head?, ¬ Fits frame := by
  obtain ⟨queue, buf, rest, ⟨⟨c, hc, hqueue, hwriting⟩, ⟨d, hd, hbuf, hreading⟩⟩, haccepted, hfits,
    hunder⟩ := h
  rw [handed_of_atRest hrest] at haccepted hfits
  have hroom : p.receiver.incoming.length < incomingCapacity := by
    rw [incoming_of_atRest hrest]
    decide
  -- the inner loop has nothing to take, the channel is empty, and so is the socket
  have hstuck :
      ∀ frameBytes buf', LengthDelimitedCodec.decode d.buf ≠ .ok (some frameBytes) buf' := by
    intro frameBytes buf' hdec
    exact hrest _ (.deliver (deliver_eq_some.mpr ⟨d, _, _, hd, hreading, hroom, hdec, rfl⟩))
  have hempty : queue = [] := by
    cases queue with
    | nil => rfl
    | cons wire queue =>
      exact absurd (.write (writeOut_eq_some.mpr ⟨c, queue, hc, hwriting, hqueue, rfl⟩)) (hrest _)
  have hread : p.socket = [] := by
    cases hsocket : p.socket with
    | nil => rfl
    | cons b socket =>
      have hbyte : p.socket = [b] ++ socket := hsocket
      have hchunk : FillsRead [b] := ⟨cons_ne_nil b [], Nat.succ_le_succ (Nat.zero_le _)⟩
      exact absurd (.read hbyte hchunk hd (takeFrames_of_not_some hstuck)
        (receive_eq_some.mpr ⟨d, hd, hreading, rfl⟩)) (hrest _)
  refine ⟨rest, haccepted, hfits, fun frame hframe hfit => ?_⟩
  obtain ⟨rest', rfl⟩ := head?_eq_some_iff.mp hframe
  rw [hread, hempty, flatten_nil, append_nil, append_nil] at hunder
  apply hstuck frame.encode (rest'.flatMap wireOf)
  rw [hbuf, ← hunder]
  exact decode_encode_append hfit _

variable (ends) in
/-- What is left to do. -/
def load (p : Pipe) : Nat :=
  let queue := ((p.sender.conns.get ends.out).map (·.queue)).getD []
  let buf := ((p.receiver.conns.get ends.inn).map (·.buf)).getD []
  queue.length + 3 * queue.flatten.length + 3 * p.socket.length + 2 * buf.length +
    p.receiver.incoming.length

/-- The tasks of a connection do not run for ever on their own. -/
theorem load_lt (h : Move ends p p') : load ends p' < load ends p := by
  cases h with
  | write hout =>
    obtain ⟨c, queue, hc, -, hqueue, rfl⟩ := writeOut_eq_some.mp hout
    simp [load, hc, hqueue]
    omega
  | read hsocket hchunk hget hloop hin =>
    obtain ⟨c, hc, -, rfl⟩ := receive_eq_some.mp hin
    have hpos := length_pos_iff.mpr hchunk.1
    simp [load, hc, hsocket]
    omega
  | deliver hdeliver =>
    obtain ⟨c, frameBytes, rest, hc, -, -, hdec, rfl⟩ := deliver_eq_some.mp hdeliver
    have hbuf : c.buf.length = 4 + frameBytes.length + rest.length := by
      rw [((decode_ensures c.buf).of_ok hdec).2, length_append, length_encode]
    have hframes : (framesIn frameBytes).length ≤ 1 := by
      unfold framesIn
      split
      · exact le_rfl
      · exact Nat.zero_le _
    simp [load, hc]
    omega
  | recv hrecv =>
    obtain ⟨incoming, hincoming, rfl⟩ := recv_eq_some.mp hrecv
    simp [load, hincoming]

variable (ends) in
theorem exists_atRest (p : Pipe) :
    ∃ p', Relation.ReflTransGen (Move ends) p p' ∧ AtRest ends p' := by
  induction hn : load ends p using Nat.strong_induction_on generalizing p with
  | _ n ih =>
    by_cases hrest : AtRest ends p
    · exact ⟨p, .refl, hrest⟩
    · obtain ⟨p₁, hmove⟩ := not_forall_not.mp hrest
      obtain ⟨p', hmoves, hrest'⟩ := ih _ (hn ▸ load_lt hmove) p₁ rfl
      exact ⟨p', .head hmove hmoves, hrest'⟩

variable (ends) in
/-- Left to themselves, the tasks come to rest here. -/
def Settles (p p' : Pipe) : Prop := Relation.ReflTransGen (Move ends) p p' ∧ AtRest ends p'

variable (ends) in
/-- The node at the other end gets the frame in its place, however the tasks are
scheduled. -/
def Delivers (p : Pipe) (i : Nat) (frame : TransportFrame) : Prop :=
  ∀ p', Settles ends p p' → p'.delivered[i]? = some frame

theorem Runs.settles (hrun : Runs ends p) (h : Settles ends p p') : Runs ends p' := by
  obtain ⟨p₀, hfresh, hsteps⟩ := hrun
  exact ⟨p₀, hfresh, hsteps.trans (Relation.ReflTransGen.mono (fun _ _ => Step.move) _ _ h.1)⟩

theorem accepted_of_settles (h : Settles ends p p') : p'.accepted = p.accepted := by
  obtain ⟨hmoves, -⟩ := h
  induction hmoves with
  | refl => rfl
  | tail _ hmove ih =>
    cases hmove with
    | write _ | read _ _ _ _ _ | deliver _ | recv _ => exact ih

theorem Fits.measured (h : Fits frame) : Measured frame :=
  Nat.lt_of_le_of_lt h (by decide)

theorem measured_of_payload_le (h : frame.payload.length ≤ maxPayloadSize) : Measured frame := by
  unfold Measured
  rw [TransportFrame.length_encode]
  exact Nat.lt_of_le_of_lt (Nat.add_le_add_right (Nat.add_le_add_left h _) _) (by decide)

/-- Which frames have arrived when the tasks are at rest: those before the first one that
is too long, and no others unless that one's prefix is not its length. -/
theorem arrived_of_atRest (h : InOrder ends p ∨ Past ends p) (hrest : AtRest ends p) :
    ∃ front rest, p.accepted = front ++ rest ∧ (∀ frame ∈ front, Fits frame) ∧
      (∀ frame ∈ rest.head?, ¬ Fits frame) ∧ front <+: p.delivered ∧
      (p.delivered = front ∨ ∃ frame ∈ rest.head?, ¬ Measured frame) := by
  cases h with
  | inl hinOrder =>
    obtain ⟨rest, haccepted, hfits, hhead⟩ := rest_of_atRest hrest hinOrder
    exact ⟨p.delivered, rest, haccepted, hfits, hhead, prefix_rfl, .inl rfl⟩
  | inr hpast =>
    obtain ⟨front, frame, back, haccepted, hfits, hmeasured, hfront⟩ := hpast
    rw [handed_of_atRest hrest] at hfront
    refine ⟨front, frame :: back, haccepted, hfits, ?_, hfront, .inr ⟨frame, rfl, hmeasured⟩⟩
    intro f hf
    cases hf
    exact fun hfit => hmeasured hfit.measured

theorem delivered_iff_of_atRest (h : InOrder ends p ∨ Past ends p) (hrest : AtRest ends p)
    {i : Nat} (hframe : p.accepted[i]? = some frame)
    (hmax : frame.payload.length ≤ maxPayloadSize) :
    ((∀ f ∈ p.accepted.take (i + 1), Fits f) → p.delivered[i]? = some frame) ∧
      ((∀ f ∈ p.accepted.take i, Measured f) → p.delivered[i]? = some frame →
        ∀ f ∈ p.accepted.take (i + 1), Fits f) := by
  obtain ⟨front, rest, haccepted, hfits, hhead, hfront, honly⟩ := arrived_of_atRest h hrest
  rw [haccepted] at hframe ⊢
  by_cases hi : i < front.length
  · rw [getElem?_append_left hi] at hframe
    refine ⟨fun _ => (prefix_iff_getElem?.mp hfront i hi).trans ?_, fun _ _ f hf => hfits f ?_⟩
    · rw [← hframe, getElem?_eq_getElem hi]
    · rw [take_append_of_le_length hi] at hf
      exact mem_of_mem_take hf
  · -- the frame is the first of the rest or behind it
    have hi' : front.length ≤ i := Nat.le_of_not_lt hi
    obtain ⟨f₀, back, rfl⟩ : ∃ f₀ back, rest = f₀ :: back := by
      cases rest with
      | nil => rw [append_nil, getElem?_eq_none hi'] at hframe; cases hframe
      | cons f₀ back => exact ⟨f₀, back, rfl⟩
    have hfirst : ∀ n, front.length < n → f₀ ∈ (front ++ f₀ :: back).take n := by
      intro n hn
      rw [mem_take_iff_getElem]
      exact ⟨front.length, by simp; omega, by simp⟩
    constructor
    · intro hall
      exact absurd (hall f₀ (hfirst _ (Nat.lt_succ_of_le hi'))) (hhead f₀ rfl)
    · intro hmeasured hdelivered
      rcases honly with honly | ⟨f, hf, hwraps⟩
      · rw [honly] at hdelivered
        exact absurd (List.getElem?_eq_some_iff.mp hdelivered).1 hi
      · obtain rfl : f₀ = f := Option.some.inj hf
        refine absurd ?_ hwraps
        rcases hi'.eq_or_lt with heq | hlt
        · obtain rfl : f₀ = frame := by simpa [heq] using hframe
          exact measured_of_payload_le hmax
        · exact hmeasured f₀ (hfirst i hlt)

/-- A frame within the limit of the frame codec that `send` took is delivered exactly if
it and all frames taken before it are within the limit of the framing.  (Behind a message
of four gigabytes, whose prefix is not its length, more may come out; there the condition
is sufficient.) -/
theorem accepted_frame_delivered_iff (hrun : Runs ends p) {i : Nat} {frame : TransportFrame}
    (hframe : p.accepted[i]? = some frame) (hmax : frame.payload.length ≤ maxPayloadSize) :
    ((∀ f ∈ p.accepted.take (i + 1), Fits f) → Delivers ends p i frame) ∧
      ((∀ f ∈ p.accepted.take i, Measured f) → Delivers ends p i frame →
        ∀ f ∈ p.accepted.take (i + 1), Fits f) := by
  constructor
  · intro hfits p' hsettles
    have haccepted := accepted_of_settles hsettles
    rw [← haccepted] at hframe hfits
    exact (delivered_iff_of_atRest (inOrder_or_past (hrun.settles hsettles)) hsettles.2 hframe
      hmax).1 hfits
  · intro hmeasured hdelivers
    obtain ⟨p', hmoves, hrest⟩ := exists_atRest ends p
    have hsettles : Settles ends p p' := ⟨hmoves, hrest⟩
    have haccepted := accepted_of_settles hsettles
    rw [← haccepted] at hframe hmeasured ⊢
    exact (delivered_iff_of_atRest (inOrder_or_past (hrun.settles hsettles)) hrest hframe
      hmax).2 hmeasured (hdelivers p' hsettles)

/-! ## A connection of two nodes -/

/-- The first connection of each of two nodes, with the peer known to the sender. -/
def firstConnection : Pipe where
  sender := ((TcpTransport.new ⟨Octets.zero 16⟩).openConn ⟨Octets.zero 16⟩).storeWriter 0
    ⟨Octets.zero 16⟩ ⟨.v4 (Octets.zero 4), 0⟩
  receiver := (TcpTransport.new ⟨Octets.zero 16⟩).openConn ⟨Octets.zero 16⟩
  socket := []
  accepted := []
  delivered := []

theorem fresh_firstConnection : Fresh ⟨0, 0⟩ firstConnection where
  writes := ⟨_, get_insert_self .., rfl, rfl⟩
  reads := ⟨_, get_insert_self .., rfl, rfl⟩
  socket := rfl
  waiting := rfl
  accepted := rfl
  delivered := rfl

theorem exists_runs_of_send (frame : TransportFrame) :
    ∃ p, Runs ⟨0, 0⟩ p ∧ p.accepted = [frame] := by
  have hwriter : firstConnection.sender.peers.get ⟨Octets.zero 16⟩ =
      some ⟨0, ⟨.v4 (Octets.zero 4), 0⟩⟩ := get_insert_self ..
  have hsend := (@send_eq_ok _ _ _ frame _ hwriter).mpr
    ⟨_, get_insert_self .., ⟨rfl, by decide⟩, rfl⟩
  exact ⟨_, ⟨_, fresh_firstConnection, .single (.send hwriter rfl hsend)⟩, rfl⟩

/-- A data frame with so many bytes of payload. -/
def zeros (n : Nat) : TransportFrame where
  frameType := .data
  nonce := Octets.zero 12
  payload := List.replicate n 0
  tag := Octets.zero 16

theorem length_encode_zeros (n : Nat) : (zeros n).encode.length = n + 36 := by
  rw [TransportFrame.length_encode, zeros, length_replicate]
  unfold TransportFrame.headerSize TransportFrame.tagSize
  omega

/-- A frame of one byte arrives. -/
theorem small_frame_delivered :
    ∃ p, Runs ⟨0, 0⟩ p ∧ p.accepted[0]? = some (zeros 1) ∧ Delivers ⟨0, 0⟩ p 0 (zeros 1) := by
  obtain ⟨p, hrun, haccepted⟩ := exists_runs_of_send (zeros 1)
  have hframe : p.accepted[0]? = some (zeros 1) := by rw [haccepted]; rfl
  refine ⟨p, hrun, hframe, (accepted_frame_delivered_iff hrun hframe (by decide)).1 ?_⟩
  rw [haccepted]
  refine forall_mem_singleton.mpr ?_
  rw [Fits]
  decide

/-- A frame whose payload is 35 bytes below the limit of the frame codec never does. -/
theorem large_frame_not_delivered :
    (zeros 1048541).payload.length ≤ maxPayloadSize ∧
      ∃ p, Runs ⟨0, 0⟩ p ∧ p.accepted = [zeros 1048541] ∧ (∃ p', Settles ⟨0, 0⟩ p p') ∧
        ∀ p', Settles ⟨0, 0⟩ p p' → p'.delivered = [] := by
  have hmax : (zeros 1048541).payload.length ≤ maxPayloadSize := by
    rw [zeros, length_replicate]
    decide
  have htoo : ¬ Fits (zeros 1048541) := by
    rw [Fits, length_encode_zeros]
    decide
  obtain ⟨p, hrun, haccepted⟩ := exists_runs_of_send (zeros 1048541)
  refine ⟨hmax, p, hrun, haccepted, exists_atRest ⟨0, 0⟩ p, ?_⟩
  intro p' hsettles
  obtain ⟨front, rest, hsplit, hfits, -, -, honly⟩ :=
    arrived_of_atRest (inOrder_or_past (hrun.settles hsettles)) hsettles.2
  rw [accepted_of_settles hsettles, haccepted] at hsplit
  -- nothing is in front of the frame, and its prefix is its length
  cases front with
  | cons f front => exact absurd (hfits f (mem_cons_self ..)) ((cons.inj hsplit).1 ▸ htoo)
  | nil =>
    cases honly with
    | inl hnothing => exact hnothing
    | inr hwraps =>
      obtain ⟨f, hf, hmeasured⟩ := hwraps
      rw [nil_append] at hsplit
      rw [← hsplit] at hf
      cases hf
      exact absurd (measured_of_payload_le hmax) hmeasured

end Pipe

end ProximityMesh.Transport
