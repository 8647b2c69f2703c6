/-
  Daemon/Departure.lean --- what a control frame of one peer takes from another.

  Source: `run_event_loop` of crates/pim-daemon/src/app/event_loop.rs, `remove_peer` of
  crates/pim-daemon/src/peer_tasks.rs.

  Of the control frames only Goodbye takes anything away, and it takes it from the
  peer it names, not from the peer that sent it.  So the others are spared exactly
  if a Goodbye names its sender, or an id of which the node has nothing.

  A route to a third node that goes through the sender is the sender's to take
  away: what a peer has are the routes through it, and those to it that do not go
  through the sender.
-/
import ProximityMesh.Daemon.Unauthenticated

set_option autoImplicit false

namespace ProximityMesh

open HashMap

namespace Routing.RoutingTable

def hopTo (t : RoutingTable) (dst : NodeId) : Option NodeId :=
  (t.routes.get dst).map RouteTableEntry.nextHop

theorem hopTo_removePeer (t : RoutingTable) (peerId dst : NodeId) :
    (t.removePeer peerId).1.hopTo dst = (t.hopTo dst).filter (· ≠ peerId) := by
  simp only [hopTo, removePeer, removeRoutesVia_fst, get_removeRoutes, mem_via_iff]
  cases hroute : t.routes.get dst with
  | none => simp
  | some entry =>
    rcases Decidable.em (entry.nextHop = peerId) with hhop | hhop
    · simp [hhop, Option.filter]
    · simp [hhop, Option.filter]

theorem hopTo_updateGatewayRtt (t : RoutingTable) (gwId : NodeId) (rttMs : UInt32) :
    (t.updateGatewayRtt gwId rttMs).hopTo = t.hopTo := by
  funext dst
  unfold hopTo updateGatewayRtt
  rw [get_modify]
  split
  · rename_i hdst
    rw [hdst]
    cases t.routes.get gwId with
    | none => rfl
    | some entry => cases hgateway : entry.isGateway <;> simp [hgateway]
  · rfl

theorem hopTo_advertised (t : RoutingTable) : t.advertised.hopTo = t.hopTo := by
  rw [advertised_eq]
  rfl

end Routing.RoutingTable

namespace Daemon

open Protocol Transport Crypto Routing ProximityMesh.Task

/-- What the node has for each peer, and where its routes go. -/
@[ext] structure Possessions where
  session : NodeId → Option Nat
  pubkey : NodeId → Option (Octets 32)
  writer : NodeId → Option PeerWriter
  bucket : NodeId → Option TokenBucket
  hopTo : NodeId → Option NodeId

def Standing.possessions (st : Standing) : Possessions where
  session := st.sessions.get
  pubkey := st.peerPubkeys.get
  writer := st.peers.get
  bucket := st.rateLimiter.buckets.get
  hopTo := st.routing.hopTo

def State.possessions (s : State) : Possessions := s.standing.possessions

namespace Possessions

/-- `q` has lost nothing to `p`. -/
structure Spared (p q : NodeId) (a b : Possessions) : Prop where
  session : b.session q = a.session q
  pubkey : b.pubkey q = a.pubkey q
  writer : b.writer q = a.writer q
  bucket : b.bucket q = a.bucket q
  routes : ∀ dst hop, a.hopTo dst = some hop → dst = q ∨ hop = q → hop ≠ p →
    b.hopTo dst = some hop

/-- The node has nothing for `id`. -/
structure Absent (a : Possessions) (id : NodeId) : Prop where
  session : a.session id = none
  pubkey : a.pubkey id = none
  writer : a.writer id = none
  bucket : a.bucket id = none
  routes : ∀ dst, a.hopTo dst ≠ some id

/-- Everything of one peer gone. -/
def without (a : Possessions) (id : NodeId) : Possessions where
  session q := if q = id then none else a.session q
  pubkey q := if q = id then none else a.pubkey q
  writer q := if q = id then none else a.writer q
  bucket q := if q = id then none else a.bucket q
  hopTo dst := (a.hopTo dst).filter (· ≠ id)

/-- Another reading of the rate limit of one peer. -/
def metered (a : Possessions) (p : NodeId) (bucket : TokenBucket) : Possessions :=
  { a with bucket := fun q => if q = p then some bucket else a.bucket q }

theorem spared_metered (a : Possessions) {p q : NodeId} (bucket : TokenBucket) (hq : q ≠ p) :
    Spared p q a (a.metered p bucket) where
  session := rfl
  pubkey := rfl
  writer := rfl
  bucket := if_neg hq
  routes _ _ hhop _ _ := hhop

/-- Everybody but `p` is spared by a departure exactly if it is that of `p`, or of somebody
for whom there is nothing. -/
theorem spared_without_iff (a : Possessions) (p id : NodeId) (bucket : TokenBucket) :
    (∀ q, q ≠ p → Spared p q a ((a.metered p bucket).without id)) ↔ id = p ∨ a.Absent id := by
  constructor
  · intro h
    rcases Decidable.em (id = p) with hid | hid
    · exact .inl hid
    · right
      have hspared := h id hid
      have hgone {α : Type} {x y : α} : (if id = id then x else y) = x := if_pos rfl
      refine ⟨hspared.session.symm.trans hgone, hspared.pubkey.symm.trans hgone,
        hspared.writer.symm.trans hgone, hspared.bucket.symm.trans hgone, fun dst hhop => ?_⟩
      have hkept := hspared.routes dst id hhop (.inr rfl) hid
      simp [without] at hkept
  · intro h q hq
    have hmetered := a.spared_metered bucket hq
    rcases Decidable.em (q = id) with rfl | hne
    · -- the departing peer itself, which is not `p`, so there is nothing to lose
      obtain rfl | habsent := h
      · exact absurd rfl hq
      · exact
          { session := (if_pos rfl).trans habsent.session.symm
            pubkey := (if_pos rfl).trans habsent.pubkey.symm
            writer := (if_pos rfl).trans habsent.writer.symm
            bucket := (if_pos rfl).trans habsent.bucket.symm
            routes := fun dst hop hhop _ _ => by
              have hne : hop ≠ q := fun heq => habsent.routes dst (heq ▸ hhop)
              simp [without, metered, hhop, hne] }
    · refine
        { session := if_neg hne
          pubkey := if_neg hne
          writer := if_neg hne
          bucket := (if_neg hne).trans hmetered.bucket
          routes := fun dst hop hhop _ hhop' => ?_ }
      have hne' : hop ≠ id := by
        rintro rfl
        obtain rfl | habsent := h
        · exact hhop' rfl
        · exact habsent.routes dst hhop
      simp [without, metered, hhop, hne']

end Possessions

/-! ## One handler at a time -/

theorem possessions_after_rateLimit (i : Input) (s : State) (p : NodeId) :
    ∃ bucket, ({ s with rateLimiter := (s.rateLimiter.allow i.now p).2 } : State).possessions =
      s.possessions.metered p bucket := by
  have hbucket : ∃ bucket, (s.rateLimiter.allow i.now p).2.buckets =
      s.rateLimiter.buckets.insert p bucket :=
    ⟨_, rfl⟩
  obtain ⟨bucket, hbucket⟩ := hbucket
  refine ⟨bucket, Possessions.ext rfl rfl rfl ?_ rfl⟩
  show (s.rateLimiter.allow i.now p).2.buckets.get = _
  rw [hbucket]
  exact funext fun q => get_insert _ _ _ _

theorem possessions_after_removePeer [Ed25519] (i : Input) (s : State) (id : NodeId) :
    ((removePeer id).after i s).possessions = s.possessions.without id := by
  have hafter : (removePeer id).after i s = advertiseAll.after i (s.forget id) := rfl
  rw [hafter, State.possessions, standing_after_advertiseAll]
  refine Possessions.ext ?_ ?_ ?_ ?_ ?_
  · exact funext (get_remove _ _)
  · exact funext (get_remove _ _)
  · exact funext (get_remove _ _)
  · exact funext (get_remove _ _)
  · exact (RoutingTable.hopTo_advertised _).trans
      (funext (RoutingTable.hopTo_removePeer s.routing id))

theorem leaves_handlePong (nonce : UInt64) : (handlePong nonce).Leaves State.possessions := by
  refine leaves_bind (leaves_atomically fun _ _ => rfl) fun pending => ?_
  split
  · exact leaves_pure
  · refine leaves_bind leaves_input fun i => leaves_bind (leaves_modify fun s => ?_) fun _ =>
      leaves_modify fun _ => rfl
    exact Possessions.ext rfl rfl rfl rfl (RoutingTable.hopTo_updateGatewayRtt _ _ _)

section Control

variable [Sha256] [Ed25519] [Aes256Gcm]

/-- Every control frame but a Goodbye leaves everybody what they have. -/
theorem possessions_after_handleControl (i : Input) (s : State) (fromPeer : NodeId)
    (payload : Bytes)
    (h : ∀ id reason rest, ControlFrame.decode payload ≠ .ok (.goodbye id reason) rest) :
    ((handleControl fromPeer payload).after i s).possessions = s.possessions := by
  unfold handleControl withDecoded
  split
  · rename_i cf rest hdecode
    cases cf with
    | goodbye id reason => exact absurd hdecode (h id reason rest)
    | rekey => rfl
    | ping nonce =>
      exact ((leaves_sendControl fromPeer _).comp Standing.possessions).after_eq i s
    | pong nonce => exact (leaves_handlePong nonce).after_eq i s
    | peerInfo x25519Pub friendlyName =>
      exact ((leaves_handleIncomingPeerInfo fromPeer x25519Pub friendlyName .direct).comp
        Standing.possessions).after_eq i s
    | pluginPayload kind body =>
      exact ((leaves_dispatchPluginPayload kind).comp Standing.possessions).after_eq i s
  · rfl
  · rfl

variable [X25519] [HkdfSha256] [Blake3]

/-- In every state, a control frame on a connection of `p` takes nothing from any other peer
exactly if it is over the rate limit, is no Goodbye, or is one that names `p` or an id for
which the node has nothing. -/
theorem control_spares_others_iff (i : Input) (s : State) (r : Received)
    (htype : r.frame.frameType = .control) :
    (∀ q, q ≠ r.peer → s.possessions.Spared r.peer q ((handleFrame r).after i s).possessions) ↔
      ∀ id reason rest, (s.rateLimiter.allow i.now r.peer).1 = true →
        ControlFrame.decode r.frame.payload = .ok (.goodbye id reason) rest →
          id = r.peer ∨ s.possessions.Absent id := by
  obtain ⟨bucket, hmetered⟩ := possessions_after_rateLimit i s r.peer
  cases hallow : (s.rateLimiter.allow i.now r.peer).1 with
  | false =>
    have hafter :
        ((handleFrame r).after i s).possessions = s.possessions.metered r.peer bucket := by
      rw [← hmetered, handleFrame, rateLimit, after, exec_bind]
      simp only [exec_atomically, hallow]
      rfl
    rw [hafter]
    exact iff_of_true (fun q hq => s.possessions.spared_metered bucket hq)
      fun _ _ _ h => absurd h Bool.false_ne_true
  | true =>
    set s₁ : State := { s with rateLimiter := (s.rateLimiter.allow i.now r.peer).2 } with hs₁
    have hafter :
        (handleFrame r).after i s = (handleControl r.peer r.frame.payload).after i s₁ := by
      rw [handleFrame, rateLimit, after, exec_bind]
      simp only [exec_atomically, hallow, htype]
      rfl
    rw [hafter]
    rcases Classical.em (∃ id reason rest,
      ControlFrame.decode r.frame.payload = .ok (.goodbye id reason) rest) with hgoodbye | hother
    · obtain ⟨id, reason, rest, hdecode⟩ := hgoodbye
      have hgone : ((handleControl r.peer r.frame.payload).after i s₁).possessions =
          (s.possessions.metered r.peer bucket).without id := by
        rw [handleControl, withDecoded, hdecode, ← hmetered]
        exact possessions_after_removePeer i s₁ id
      rw [hgone, s.possessions.spared_without_iff]
      constructor
      · intro h id' reason' rest' _ hdecode'
        cases hdecode.symm.trans hdecode'
        exact h
      · intro h
        exact h id reason rest rfl hdecode
    · have hkept : ((handleControl r.peer r.frame.payload).after i s₁).possessions =
          s.possessions.metered r.peer bucket := by
        rw [← hmetered]
        refine possessions_after_handleControl i s₁ r.peer _ fun id reason rest hdecode => ?_
        exact hother ⟨id, reason, rest, hdecode⟩
      rw [hkept]
      refine iff_of_true (fun q hq => s.possessions.spared_metered bucket hq) ?_
      intro id reason rest _ hdecode
      exact absurd ⟨id, reason, rest, hdecode⟩ hother

end Control

section Concrete

open Transparent

/-- Victor and Mallory both complete a handshake. -/
def bothConnected : List (Choice Input Event) :=
  inboundHandshake 0 0 victorId victorPub ++ inboundHandshake 1 8 malloryId malloryPub

/-- Mallory takes leave: nobody else loses anything. -/
theorem own_goodbye_spares_victor :
    ∃ s, Reaches (fun _ _ => True) openNode s ∧ (s.session victorId).isSome ∧
      (s.session malloryId).isSome ∧
      ∀ q, q ≠ malloryId → s.possessions.Spared malloryId q ((handleFrame (fromMallory malloryId
        .control (ControlFrame.goodbye malloryId 0).encode)).after calm s).possessions := by
  obtain ⟨s, hreaches, hcheck⟩ := exists_reaches_of_choices openNode bothConnected
    (fun s => decide ((s.session victorId).isSome ∧ (s.session malloryId).isSome))
    (by decide +kernel)
  obtain ⟨hvictor, hmallory⟩ := of_decide_eq_true hcheck
  refine ⟨s, hreaches, hvictor, hmallory, ?_⟩
  refine (control_spares_others_iff calm s (fromMallory malloryId .control _) rfl).mpr ?_
  intro id reason rest _ hdecode
  have hown : ControlFrame.decode (ControlFrame.goodbye malloryId 0).encode =
      .ok (.goodbye malloryId 0) [] := rfl
  cases hown.symm.trans hdecode
  exact .inl rfl

/-- Mallory says goodbye in the name of Victor, who loses all there is to lose. -/
theorem goodbye_removes_victor :
    ∃ s s', Reaches (fun _ _ => True) openNode s ∧ (s.session malloryId).isSome ∧
      s' = (handleFrame (fromMallory malloryId .control
        (ControlFrame.goodbye victorId 0).encode)).after calm s ∧
      ¬ s.possessions.Spared malloryId victorId s'.possessions ∧
      (s.sessions.get victorId).isSome ∧ s'.sessions.get victorId = none ∧
      (s.peerPubkeys.get victorId).isSome ∧ s'.peerPubkeys.get victorId = none ∧
      (s.carrier victorId).isSome ∧ s'.carrier victorId = none ∧
      (s.rateLimiter.buckets.get victorId).isSome ∧ s'.rateLimiter.buckets.get victorId = none ∧
      (s.routing.hopTo victorId).isSome ∧ s'.routing.hopTo victorId = none := by
  let after s : State := (handleFrame (fromMallory malloryId .control
    (ControlFrame.goodbye victorId 0).encode)).after calm s
  obtain ⟨s, hreaches, hcheck⟩ := exists_reaches_of_choices openNode bothConnected
    (fun s => decide ((s.session malloryId).isSome ∧
      (s.sessions.get victorId).isSome ∧ (after s).sessions.get victorId = none ∧
      (s.peerPubkeys.get victorId).isSome ∧ (after s).peerPubkeys.get victorId = none ∧
      (s.carrier victorId).isSome ∧ (after s).carrier victorId = none ∧
      (s.rateLimiter.buckets.get victorId).isSome ∧
        (after s).rateLimiter.buckets.get victorId = none ∧
      (s.routing.hopTo victorId).isSome ∧ (after s).routing.hopTo victorId = none))
    (by decide +kernel)
  obtain ⟨hmallory, hsession, hgone, hrest⟩ := of_decide_eq_true hcheck
  refine ⟨s, after s, hreaches, hmallory, rfl, fun hspared => ?_, hsession, hgone, hrest⟩
  have hkept : (after s).sessions.get victorId = s.sessions.get victorId := hspared.session
  rw [← hkept, hgone] at hsession
  cases hsession

end Concrete

end Daemon

end ProximityMesh
