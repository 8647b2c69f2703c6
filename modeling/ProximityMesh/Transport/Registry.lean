/-
  Transport/Registry.lean --- the map of peers while connections come and go.

  Source: `register_peer`, `rename_peer` and `disconnect` of crates/pim-transport/src/tcp.rs.

  `register_peer` spawns the tasks of a connection and then stores its writer, so the read task
  may be over before the writer is stored.  The read task remembers the id of its connection when
  the stream ends and takes the map of peers after that, so the connection may be renamed in
  between.  In both cases the cleanup finds nothing to remove and the writer stays in the map.

  A registry is the transport with the calls of `register_peer` and the read tasks that are
  between their critical sections.
-/
import ProximityMesh.Crypto.Transparent
import ProximityMesh.Transport.Tcp

set_option autoImplicit false

namespace ProximityMesh.Transport

open Protocol TcpTransport HashMap Option

structure Registry where
  transport : TcpTransport
  /-- Calls of `register_peer` that have still to store the writer. -/
  registering : List (ConnId × NodeId × SocketAddr)
  /-- Read tasks that have left their loop, with the id they will clean up. -/
  closing : List (ConnId × NodeId)

/-- The next critical section, of whichever task. -/
inductive Turn where
  | openConn (peerId : NodeId) (remoteAddr : SocketAddr)
  | storeWriter (k : Nat)
  | endOfStream (conn : ConnId)
  | cleanup (k : Nat)
  | renamePeer (oldId newId : NodeId)
  | disconnect (peer : NodeId)
  | receive (conn : ConnId) (chunk : Bytes)
  | deliver (conn : ConnId)
  | recv
  | send (peer : NodeId) (frame : TransportFrame)
  | writeOut (conn : ConnId) (ok : Bool)

namespace Registry

def new (nodeId : NodeId) : Registry := ⟨.new nodeId, [], []⟩

/-- The registry after a turn, unless the turn is impossible. -/
def next (R : Registry) : Turn → Option Registry
  | .openConn peerId remoteAddr =>
      some { R with
        transport := R.transport.openConn peerId
        registering := R.registering ++ [(R.transport.nextConn, peerId, remoteAddr)] }
  | .storeWriter k =>
      (R.registering[k]?).map fun r =>
        { R with
          transport := R.transport.storeWriter r.1 r.2.1 r.2.2
          registering := R.registering.eraseIdx k }
  | .endOfStream conn =>
      (R.transport.endOfStream conn).map fun r =>
        { R with transport := r.1, closing := R.closing ++ [(conn, r.2)] }
  | .cleanup k =>
      (R.closing[k]?).map fun c =>
        { R with transport := R.transport.cleanup c.1 c.2, closing := R.closing.eraseIdx k }
  | .renamePeer oldId newId => some { R with transport := R.transport.renamePeer oldId newId }
  | .disconnect peer => some { R with transport := R.transport.disconnect peer }
  | .receive conn chunk => (R.transport.receive conn chunk).map fun t => { R with transport := t }
  | .deliver conn => (R.transport.deliver conn).map fun t => { R with transport := t }
  | .recv => R.transport.recv.map fun r => { R with transport := r.2 }
  | .send peer frame => some { R with transport := (R.transport.send peer frame).2 }
  | .writeOut conn ok => (R.transport.writeOut conn ok).map fun r => { R with transport := r.1 }

/-- The runs of the transport, in any interleaving. -/
inductive Reaches (R₀ : Registry) : Registry → Prop
  | refl : Reaches R₀ R₀
  | step {R R' : Registry} (turn : Turn) (h : Reaches R₀ R) (hnext : R.next turn = some R') :
      Reaches R₀ R'

/-- The map has an entry whose writer belongs to the connection. -/
def Holds (R : Registry) (conn : ConnId) : Prop :=
  ∃ id writer, R.transport.peers.get id = some writer ∧ writer.conn = conn

/-- Some call of `register_peer` has still to store the writer of the connection. -/
def Registers (R : Registry) (conn : ConnId) : Prop := conn ∈ R.registering.map Prod.fst

end Registry

/-! ## What a turn does to the map -/

namespace TcpTransport

variable {t t' : TcpTransport}

/-- Frames are carried: the map of peers stays as it is, and no connection is opened. -/
structure Carries (t t' : TcpTransport) : Prop where
  peers : t'.peers = t.peers
  nextConn : t'.nextConn = t.nextConn
  conns : ∀ conn, t'.conns.contains conn = true → t.conns.contains conn = true

theorem carries_refl (t : TcpTransport) : Carries t t := ⟨rfl, rfl, fun _ h => h⟩

variable {conn : ConnId}

theorem carries_insert (t : TcpTransport) {c c' : Connection} (incoming : List Received)
    (h : t.conns.get conn = some c) :
    Carries t { t with conns := t.conns.insert conn c', incoming } where
  peers := rfl
  nextConn := rfl
  conns conn' hcontains := by
    rcases (contains_insert ..).mp hcontains with rfl | hold
    · rw [contains_iff, h]
      rfl
    · exact hold

theorem carries_of_receive {chunk : Bytes} (h : t.receive conn chunk = some t') : Carries t t' := by
  simp only [receive, bind_eq_bind, bind_eq_some_iff] at h
  obtain ⟨c, hc, -, -, h⟩ := h
  cases h
  exact carries_insert t _ hc

theorem carries_of_deliver (h : t.deliver conn = some t') : Carries t t' := by
  simp only [deliver, bind_eq_bind, bind_eq_some_iff] at h
  obtain ⟨c, hc, -, -, h⟩ := h
  split at h
  · split at h
    · cases h
      exact carries_insert t _ hc
    · cases h
      exact carries_insert t _ hc
    · cases h
      refine ⟨rfl, rfl, fun conn' hcontains => ?_⟩
      rw [contains_modify] at hcontains
      exact (carries_insert t t.incoming hc).conns conn' hcontains
  · cases h

theorem carries_of_endOfStream {id : NodeId} (h : t.endOfStream conn = some (t', id)) :
    Carries t t' := by
  simp only [endOfStream, bind_eq_bind, bind_eq_some_iff] at h
  obtain ⟨c, hc, -, -, h⟩ := h
  cases h
  exact carries_insert t _ hc

theorem contains_of_endOfStream {r : TcpTransport × NodeId} (h : t.endOfStream conn = some r) :
    t.conns.contains conn = true := by
  simp only [endOfStream, bind_eq_bind, bind_eq_some_iff] at h
  obtain ⟨c, hc, -⟩ := h
  rw [contains_iff, hc]
  rfl

theorem carries_of_writeOut {ok : Bool} {wire : Bytes} (h : t.writeOut conn ok = some (t', wire)) :
    Carries t t' := by
  simp only [writeOut, bind_eq_bind, bind_eq_some_iff] at h
  obtain ⟨c, hc, -, -, h⟩ := h
  split at h
  · cases h
  · cases h
    exact carries_insert t _ hc

theorem carries_of_recv {r : Received} (h : t.recv = some (r, t')) : Carries t t' := by
  unfold recv at h
  split at h
  · cases h
  · cases h
    exact ⟨rfl, rfl, fun _ h => h⟩

theorem carries_send (t : TcpTransport) (peer : NodeId) (frame : TransportFrame) :
    Carries t (t.send peer frame).2 := by
  unfold send
  split
  · exact carries_refl t
  · split
    · exact carries_refl t
    · rename_i c hc
      split
      · exact carries_refl t
      · split
        · exact carries_refl t
        · exact carries_insert t _ hc

theorem get_of_renamePeer {oldId newId id : NodeId} {writer : PeerWriter}
    (h : (t.renamePeer oldId newId).peers.get id = some writer) :
    ∃ id', t.peers.get id' = some writer := by
  unfold renamePeer at h
  split at h
  · rename_i moved hold
    rcases get_insert_cases h with ⟨-, rfl⟩ | ⟨-, hrest⟩
    · exact ⟨oldId, hold⟩
    · exact ⟨id, get_of_get_remove hrest⟩
  · exact ⟨id, h⟩

/-- Renaming and cleaning up open no connection either. -/
theorem opened_renamePeer (t : TcpTransport) (oldId newId : NodeId) :
    (t.renamePeer oldId newId).nextConn = t.nextConn ∧
      ∀ conn, (t.renamePeer oldId newId).conns.contains conn = t.conns.contains conn := by
  unfold renamePeer
  split
  · exact ⟨rfl, fun _ => contains_modify ..⟩
  · exact ⟨rfl, fun _ => rfl⟩

/-- The cleanup removes an entry of its own connection, under its own id. -/
theorem get_cleanup (t : TcpTransport) (conn : ConnId) (id id' : NodeId) :
    (t.cleanup conn id).peers.get id' =
      if id' = id then (t.peers.get id').filter fun writer => writer.conn ≠ conn
      else t.peers.get id' := by
  unfold cleanup
  by_cases heq : id' = id
  · subst heq
    cases hget : t.peers.get id' with
    | none => simp [hget]
    | some writer =>
      by_cases hconn : writer.conn = conn
      · simp [hconn, Option.filter]
      · simp [hconn, Option.filter, hget]
  · rw [if_neg heq]
    split
    · split
      · exact get_remove_ne _ heq
      · rfl
    · rfl

theorem opened_cleanup (t : TcpTransport) (conn : ConnId) (id : NodeId) :
    (t.cleanup conn id).nextConn = t.nextConn ∧ (t.cleanup conn id).conns = t.conns := by
  unfold cleanup
  split
  · split
    · exact ⟨rfl, rfl⟩
    · exact ⟨rfl, rfl⟩
  · exact ⟨rfl, rfl⟩

end TcpTransport

namespace Registry

variable {R R' : Registry} {turn : Turn} {conn : ConnId}

/-- A writer in the map was there before, under some id, or its call of `register_peer` was to
store it. -/
theorem holds_of_next (h : R.next turn = some R') (hholds : R'.Holds conn) :
    R.Holds conn ∨ R.Registers conn := by
  obtain ⟨id, writer, hget, rfl⟩ := hholds
  have hsame : R'.transport.peers = R.transport.peers → R.Holds writer.conn := fun heq =>
    ⟨id, writer, heq ▸ hget, rfl⟩
  cases turn with
  | openConn peerId remoteAddr =>
    cases h
    exact .inl (hsame rfl)
  | storeWriter k =>
    obtain ⟨r, hk, rfl⟩ := map_eq_some_iff.mp h
    rcases get_insert_cases hget with ⟨-, rfl⟩ | ⟨-, hold⟩
    · exact .inr (List.mem_map_of_mem (List.mem_of_getElem? hk))
    · exact .inl ⟨id, writer, hold, rfl⟩
  | endOfStream conn =>
    obtain ⟨r, hend, rfl⟩ := map_eq_some_iff.mp h
    exact .inl (hsame (carries_of_endOfStream hend).peers)
  | cleanup k =>
    obtain ⟨c, hk, rfl⟩ := map_eq_some_iff.mp h
    rw [get_cleanup] at hget
    split at hget
    · exact .inl ⟨id, writer, (filter_eq_some_iff.mp hget).1, rfl⟩
    · exact .inl ⟨id, writer, hget, rfl⟩
  | renamePeer oldId newId =>
    cases h
    obtain ⟨id', hold⟩ := get_of_renamePeer hget
    exact .inl ⟨id', writer, hold, rfl⟩
  | disconnect peer =>
    cases h
    exact .inl ⟨id, writer, get_of_get_remove hget, rfl⟩
  | receive conn chunk =>
    obtain ⟨t, hreceive, rfl⟩ := map_eq_some_iff.mp h
    exact .inl (hsame (carries_of_receive hreceive).peers)
  | deliver conn =>
    obtain ⟨t, hdeliver, rfl⟩ := map_eq_some_iff.mp h
    exact .inl (hsame (carries_of_deliver hdeliver).peers)
  | recv =>
    obtain ⟨r, hrecv, rfl⟩ := map_eq_some_iff.mp h
    exact .inl (hsame (carries_of_recv hrecv).peers)
  | send peer frame =>
    cases h
    exact .inl (hsame (carries_send _ peer frame).peers)
  | writeOut conn ok =>
    obtain ⟨r, hwrite, rfl⟩ := map_eq_some_iff.mp h
    exact .inl (hsame (carries_of_writeOut hwrite).peers)

/-- Connections that are registered, read from or closed were opened. -/
structure Known (R : Registry) : Prop where
  registering : ∀ conn, R.Registers conn → conn < R.transport.nextConn
  conns : ∀ conn, R.transport.conns.contains conn = true → conn < R.transport.nextConn
  closing : ∀ c ∈ R.closing, c.1 < R.transport.nextConn

theorem known_new (nodeId : NodeId) : (new nodeId).Known where
  registering _ h := nomatch h
  conns _ h := nomatch h
  closing _ h := nomatch h

/-- What becomes registered, read from or closed in a turn. -/
structure Grows (R R' : Registry) : Prop where
  nextConn : R.transport.nextConn ≤ R'.transport.nextConn
  registering : ∀ conn, R'.Registers conn → R.Registers conn ∨
    conn = R.transport.nextConn ∧ conn < R'.transport.nextConn
  conns : ∀ conn, R'.transport.conns.contains conn = true →
    R.transport.conns.contains conn = true ∨ conn < R'.transport.nextConn
  closing : ∀ c ∈ R'.closing, c ∈ R.closing ∨ R.transport.conns.contains c.1 = true

theorem grows_of_carries {t : TcpTransport} (h : R.transport.Carries t) :
    R.Grows { R with transport := t } where
  nextConn := h.nextConn.ge
  registering _ hconn := .inl hconn
  conns conn hconn := .inl (h.conns conn hconn)
  closing _ hc := .inl hc

theorem grows_of_next (h : R.next turn = some R') : R.Grows R' := by
  cases turn with
  | openConn peerId remoteAddr =>
    cases h
    refine ⟨Nat.le_succ _, fun conn hconn => ?_, fun conn hconn => ?_, fun _ hc => .inl hc⟩
    · rw [Registers, List.map_append, List.mem_append] at hconn
      rcases hconn with hold | hnew
      · exact .inl hold
      · obtain rfl := List.mem_singleton.mp hnew
        exact .inr ⟨rfl, Nat.lt_succ_self _⟩
    · rcases (contains_insert ..).mp hconn with rfl | hold
      · exact .inr (Nat.lt_succ_self _)
      · exact .inl hold
  | storeWriter k =>
    obtain ⟨r, -, rfl⟩ := map_eq_some_iff.mp h
    refine ⟨le_rfl, fun conn hconn => .inl ?_, fun _ hc => .inl hc, fun _ hc => .inl hc⟩
    exact ((List.eraseIdx_sublist ..).map _).subset hconn
  | endOfStream conn =>
    obtain ⟨⟨t, id⟩, hend, rfl⟩ := map_eq_some_iff.mp h
    have ht := carries_of_endOfStream hend
    refine ⟨ht.nextConn.ge, fun _ hc => .inl hc, fun conn hc => .inl (ht.conns conn hc),
      fun c hc => ?_⟩
    rcases List.mem_append.mp hc with hold | hnew
    · exact .inl hold
    · rw [List.mem_singleton.mp hnew]
      exact .inr (contains_of_endOfStream hend)
  | cleanup k =>
    obtain ⟨c, -, rfl⟩ := map_eq_some_iff.mp h
    obtain ⟨hn, hconns⟩ := R.transport.opened_cleanup c.1 c.2
    refine ⟨hn.ge, fun _ hc => .inl hc, fun _ hc => .inl ?_, fun _ hc => .inl ?_⟩
    · rwa [hconns] at hc
    · exact (List.eraseIdx_sublist ..).subset hc
  | renamePeer oldId newId =>
    cases h
    obtain ⟨hn, hconns⟩ := R.transport.opened_renamePeer oldId newId
    exact ⟨hn.ge, fun _ hc => .inl hc, fun conn hc => .inl (hconns conn ▸ hc), fun _ hc => .inl hc⟩
  | disconnect peer =>
    cases h
    exact ⟨le_rfl, fun _ hc => .inl hc, fun _ hc => .inl hc, fun _ hc => .inl hc⟩
  | receive conn chunk =>
    obtain ⟨t, hreceive, rfl⟩ := map_eq_some_iff.mp h
    exact grows_of_carries (carries_of_receive hreceive)
  | deliver conn =>
    obtain ⟨t, hdeliver, rfl⟩ := map_eq_some_iff.mp h
    exact grows_of_carries (carries_of_deliver hdeliver)
  | recv =>
    obtain ⟨r, hrecv, rfl⟩ := map_eq_some_iff.mp h
    exact grows_of_carries (carries_of_recv hrecv)
  | send peer frame =>
    cases h
    exact grows_of_carries (carries_send R.transport peer frame)
  | writeOut conn ok =>
    obtain ⟨r, hwrite, rfl⟩ := map_eq_some_iff.mp h
    exact grows_of_carries (carries_of_writeOut hwrite)

theorem Known.next (h : R.Known) (hnext : R.next turn = some R') : R'.Known := by
  have hgrows := grows_of_next hnext
  constructor
  · intro conn hconn
    rcases hgrows.registering conn hconn with hold | ⟨-, hlt⟩
    · exact (h.registering conn hold).trans_le hgrows.nextConn
    · exact hlt
  · intro conn hconn
    rcases hgrows.conns conn hconn with hold | hlt
    · exact (h.conns conn hold).trans_le hgrows.nextConn
    · exact hlt
  · intro c hc
    rcases hgrows.closing c hc with hold | hopen
    · exact (h.closing c hold).trans_le hgrows.nextConn
    · exact (h.conns c.1 hopen).trans_le hgrows.nextConn

theorem Reaches.known {nodeId : NodeId} (h : Reaches (new nodeId) R) : R.Known := by
  induction h with
  | refl => exact known_new nodeId
  | step turn _ hnext ih => exact ih.next hnext

/-! ## Which cleanups are final -/

/-- Nothing will bring the connection back into the map. -/
structure Detached (R : Registry) (conn : ConnId) : Prop where
  opened : conn < R.transport.nextConn
  stored : ¬ R.Registers conn
  absent : ¬ R.Holds conn

/-- Only `register_peer` of the connection brings its writer into the map. -/
theorem Detached.next (h : R.Detached conn) (hnext : R.next turn = some R') : R'.Detached conn := by
  have hgrows := grows_of_next hnext
  refine ⟨h.opened.trans_le hgrows.nextConn, fun hreg => ?_, fun hholds => ?_⟩
  · rcases hgrows.registering conn hreg with hold | ⟨heq, -⟩
    · exact h.stored hold
    · exact h.opened.ne heq
  · rcases holds_of_next hnext hholds with hold | hreg
    · exact h.absent hold
    · exact h.stored hreg

theorem Reaches.detached {R₁ : Registry} (h₁ : R₁.Detached conn) (h : Reaches R₁ R) :
    R.Detached conn := by
  induction h with
  | refl => exact h₁
  | step turn _ hnext ih => exact ih.next hnext

/-- The writer of the connection has been stored, and stands under no other id. -/
structure Settled (R : Registry) (conn : ConnId) (id : NodeId) : Prop where
  stored : ¬ R.Registers conn
  under : ∀ id' writer, R.transport.peers.get id' = some writer → writer.conn = conn → id' = id

/-- In every run: after the cleanup of a read task the map never again has an entry of its
connection, exactly if the writer had been stored and not been renamed since the task read the
id.  And in any case the cleanup leaves the entries of the other connections alone. -/
theorem cleanup_final_iff {nodeId : NodeId} (h : Reaches (new nodeId) R) {k : Nat} {id : NodeId}
    (hk : R.closing[k]? = some (conn, id)) (hnext : R.next (.cleanup k) = some R') :
    ((∀ R'', Reaches R' R'' → ¬ R''.Holds conn) ↔ R.Settled conn id) ∧
      ∀ id' writer, R.transport.peers.get id' = some writer → writer.conn ≠ conn →
        R'.transport.peers.get id' = some writer := by
  obtain ⟨c, hc, rfl⟩ := map_eq_some_iff.mp hnext
  obtain rfl : (conn, id) = c := some.inj (hk.symm.trans hc)
  refine ⟨⟨fun hfinal => ⟨fun hreg => ?_, fun id' writer hget hconn => ?_⟩, fun hsettled => ?_⟩, ?_⟩
  · -- the writer is stored after the cleanup
    obtain ⟨r, hr, rfl⟩ := List.mem_map.mp hreg
    obtain ⟨j, hj⟩ := List.mem_iff_getElem?.mp hr
    refine hfinal _ (.step (.storeWriter j) .refl (map_eq_some_iff.mpr ⟨r, hj, rfl⟩)) ?_
    exact ⟨r.2.1, _, get_insert_self .., rfl⟩
  · by_contra hother
    refine hfinal _ .refl ⟨id', writer, ?_, hconn⟩
    rw [get_cleanup, if_neg hother]
    exact hget
  · have hdetached : Detached { R with
        transport := R.transport.cleanup conn id, closing := R.closing.eraseIdx k } conn := by
      refine ⟨?_, hsettled.stored, ?_⟩
      · rw [(R.transport.opened_cleanup conn id).1]
        exact h.known.closing _ (List.mem_of_getElem? hk)
      · rintro ⟨id', writer, hget, hconn⟩
        rw [get_cleanup] at hget
        split at hget
        · simp [hconn] at hget
        · rename_i hne
          exact hne (hsettled.under id' writer hget hconn)
    exact fun R'' hreaches => (hreaches.detached hdetached).absent
  · intro id' writer hget hconn
    rw [get_cleanup, hget]
    split
    · simp [hconn]
    · rfl

/-! ## Concrete runs -/

def play : Registry → List Turn → Option Registry
  | R, [] => some R
  | R, turn :: turns => (R.next turn).bind fun R' => play R' turns

theorem reaches_of_play {R₀ R R' : Registry} {turns : List Turn} (h : Reaches R₀ R)
    (hplay : play R turns = some R') : Reaches R₀ R' := by
  induction turns generalizing R with
  | nil =>
    obtain rfl : R = R' := some.inj hplay
    exact h
  | cons turn turns ih =>
    obtain ⟨R₁, hnext, hrest⟩ := bind_eq_some_iff.mp hplay
    exact ih (.step turn h hnext) hrest

def placeholderId : NodeId := ⟨.fill 16 1⟩

def remoteId : NodeId := ⟨.fill 16 2⟩

def localId : NodeId := ⟨.fill 16 3⟩

def remoteAddr : SocketAddr := ⟨.v4 (.fill 4 1), 9100⟩

/-- A connection is registered, and the remote party closes it. -/
def opened : List Turn := [.openConn placeholderId remoteAddr, .storeWriter 0, .endOfStream 0]

theorem cleanup_final_opened :
    ∃ R R', Reaches (new localId) R ∧ R.next (.cleanup 0) = some R' ∧ R.Holds 0 ∧
      ∀ R'', Reaches R' R'' → ¬ R''.Holds 0 := by
  cases hplay : play (new localId) opened with
  | none => cases hplay
  | some R =>
    have hreach := reaches_of_play .refl hplay
    cases hplay
    refine ⟨_, _, hreach, rfl, ⟨placeholderId, _, rfl, rfl⟩,
      (cleanup_final_iff (k := 0) hreach rfl rfl).1.mpr ⟨fun h => (nomatch h), ?_⟩⟩
    intro id' writer hget _
    rcases get_insert_cases hget with ⟨heq, -⟩ | ⟨-, hold⟩
    · exact heq
    · cases hold

/-- The handshake learns the id of the peer between the end of the stream and the cleanup: the
writer of a connection that nobody reads from stays in the map. -/
theorem rename_before_cleanup_leaves_writer :
    ((play (new localId) (opened ++ [.renamePeer placeholderId remoteId, .cleanup 0])).map fun R =>
      (R.closing, R.transport.peers.get remoteId, (R.transport.conns.get 0).map (·.reading))) =
      some ([], some ⟨0, remoteAddr⟩, some false) := by
  decide +kernel

-- the stream ends before `register_peer` stores the writer
example : ((play (new localId)
    [.openConn remoteId remoteAddr, .endOfStream 0, .cleanup 0, .storeWriter 0]).map fun R =>
      (R.closing, R.transport.peers.get remoteId)) = some ([], some ⟨0, remoteAddr⟩) := by
  decide +kernel

end Registry

end ProximityMesh.Transport
