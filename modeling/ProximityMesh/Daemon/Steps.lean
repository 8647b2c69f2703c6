/-
  Daemon/Steps.lean --- what every step of every task does to the ledger and the accounts.

  One lemma for each function of the daemon that touches them, in the order in which
  they call each other, up to the events (`start_behaves`) and the runs:
  `holds_of_reaches` for the states they reach, `step_of_mem_trail` for their steps.
  What leaves the standing of peers alone needs no lemma here.
-/
import ProximityMesh.Daemon.Accounts

set_option autoImplicit false

namespace ProximityMesh.Daemon

open Protocol Transport Crypto Routing ProximityMesh.Task RoutingTable Option

/-! ## What is taken up -/

/-- Every Init and every Response that the event loop takes up meets `A`. -/
def TakesUp (A : Received → HandshakeFrameType → HandshakeMessage → Prop) (s : State) (e : Event) :
    Prop :=
  e = .frame → ∀ r ∈ s.transport.incoming.head?, r.frame.frameType = .handshake →
    ∀ handshakeType m rest,
      HandshakeWireFrame.decode r.frame.payload = .ok (wireOf handshakeType m) rest →
        A r handshakeType m

/-- The same as a test. -/
def takesUpOnly (A : Received → HandshakeFrameType → HandshakeMessage → Prop)
    [∀ r handshakeType m, Decidable (A r handshakeType m)] (s : State) : Event → Bool
  | .frame =>
      s.transport.incoming.head?.all fun r =>
        match HandshakeWireFrame.decode r.frame.payload with
        | .ok (.initOrResponse handshakeType senderPub ephemeralPub nonce signature) _ =>
            decide (A r handshakeType ⟨senderPub, ephemeralPub, nonce, signature⟩)
        | _ => true
  | _ => true

theorem takesUp_of_takesUpOnly {A : Received → HandshakeFrameType → HandshakeMessage → Prop}
    [∀ r handshakeType m, Decidable (A r handshakeType m)] (s : State) (e : Event)
    (h : takesUpOnly A s e = true) : TakesUp A s e := by
  rintro rfl r hr - handshakeType m rest hdecode
  have hr := (all_eq_true _ _).mp h r hr
  rw [hdecode] at hr
  exact of_decide_eq_true hr

/-- A Goodbye names somebody in `D`. -/
def PartsFrom (D : NodeId → Prop) (r : Received) : Prop :=
  r.frame.frameType = .control → ∀ id reason rest,
    ControlFrame.decode r.frame.payload = .ok (.goodbye id reason) rest → D id

/-- What happens next concerns nobody outside `D`: no Goodbye of theirs is taken up, and
none of them has been silent for too long. -/
def Spares (D : NodeId → Prop) (s : State) : Choice Input Event → Prop
  | .start e => e = .frame → ∀ r ∈ s.transport.incoming.head?, PartsFrom D r
  | .run _ i => ∀ e ∈ s.peerLastHb.iter, i.now - e.2 > livenessTimeout → D e.1

theorem spares_anybody (s : State) (c : Choice Input Event) (_ : True) :
    Spares (fun _ => True) s c := by
  cases c with
  | start e => exact fun _ _ _ _ _ _ _ _ => trivial
  | run k i => exact fun _ _ _ => trivial

section Tasks

variable [Sha256] [Ed25519] [X25519] [HkdfSha256] [Blake3] {W : Scope}

/-! ## Quiet tasks -/

theorem behaves_removeHsChannel (peer : NodeId) : Behaves W (removeHsChannel peer) :=
  behaves_modify_quiet fun _ => rfl

theorem behaves_withPendingOutbound {α : Type} [Inhabited α]
    (f : HashMap IpAddr PendingOutbound → HashMap IpAddr PendingOutbound × α) :
    Behaves W (withPendingOutbound f) := by
  refine behaves_of_leaves_books (leaves_await fun i s r hr => ?_)
  split at hr
  · cases hr
  · cases hr
    rfl

theorem behaves_registerPendingOutbound (target : ConnectTarget) (transportKey : NodeId) :
    Behaves W (registerPendingOutbound target transportKey) :=
  behaves_withPendingOutbound _

theorem behaves_clearPendingOutbound (target : ConnectTarget) (transportKey : NodeId) :
    Behaves W (clearPendingOutbound target transportKey) :=
  behaves_withPendingOutbound _

theorem behaves_transportDisconnect (peer : NodeId) : Behaves W (transportDisconnect peer) :=
  behaves_modify_quiet fun _ => rfl

theorem behaves_transportConnect (peerId : NodeId) (addr : SocketAddr) :
    Behaves W (transportConnect peerId addr) := by
  refine behaves_of_leaves_books (leaves_bind (leaves_atomically fun i s => ?_) fun conn => ?_)
  · split <;> rfl
  · split
    · exact leaves_bind (leaves_modify fun _ => rfl) fun _ => leaves_pure
    · exact leaves_pure

/-! ## Handshake tasks -/

section Handshakes

theorem behaves_newChannel (peer : NodeId) : Behaves W (newChannel peer) :=
  behaves_atomically fun _ s =>
    ⟨.change (.setChannel s.nextChan [] fun _ hd => nomatch hd) rfl, .still⟩

theorem behaves_dropReceiver (chan : ChanId) : Behaves W (dropReceiver chan) :=
  behaves_modify fun _ => ⟨.change (.dropChannel chan) rfl, .still⟩

theorem moves_recvHandshake (chan : ChanId) :
    (recvHandshake chan).Moves (W.terms.Allows W.Parts) (State.Step W)
      fun r => ∀ d, r = some d → W.terms.Delivers d := by
  refine moves_await fun i s s' r hs hstep => ?_
  cases hchan : s.channels.get chan with
  | none =>
    simp only [hchan] at hstep
    obtain ⟨rfl, rfl⟩ := hstep
    exact ⟨Std.Refl.refl _, fun d hd => absurd hd.symm (some_ne_none d)⟩
  | some queue =>
    cases queue with
    | nil =>
      simp only [hchan, ite_none_right_eq_some] at hstep
      obtain ⟨_, rfl, rfl⟩ := hstep
      exact ⟨Std.Refl.refl _, fun d hd => absurd hd.symm (some_ne_none d)⟩
    | cons m rest =>
      simp only [hchan] at hstep
      obtain ⟨rfl, rfl⟩ := hstep
      have hqueue := hs.sane.queued chan (m :: rest) hchan
      refine ⟨⟨.change (.setChannel chan rest fun d hd => hqueue d (.tail _ hd)) rfl, .still⟩,
        fun d hd => ?_⟩
      rw [← some.inj hd]
      exact hqueue m (.head _)

/-- Trust on first use inserts the id of the key a message carries, whether or not the
message verifies: nothing here asks for that. -/
theorem behaves_authorizeAuthenticatedPeer (m : HandshakeMessage) {d : Delivered}
    {handshakeType : HandshakeFrameType} (hd : W.terms.Delivers d)
    (hm : d.wire = wireOf handshakeType m) :
    Behaves W (authorizeAuthenticatedPeer (NodeId.fromPublicKey m.senderPub)) := by
  refine behaves_bind behaves_read fun (policy, listed) => ?_
  cases policy with
  | allowAll | allowList => exact behaves_pure
  | trustOnFirstUse =>
    refine behaves_bind behaves_read fun trusted => ?_
    split
    · exact behaves_pure
    · refine behaves_atomically fun i s => ?_
      split
      · exact Std.Refl.refl _
      · split
        · exact ⟨.change (.trust d handshakeType m hd hm) rfl, .still⟩
        · exact Std.Refl.refl _

variable {h : Completed}

theorem behaves_installSession (hh : Made W.terms h) (isInitiator : Bool) :
    Behaves W (installSession h isInitiator) := by
  refine behaves_modify fun s => ⟨.change ?_ rfl, .still⟩
  refine (congrArg (Change W.terms s.ledger) ?_).mpr (.install h hh)
  unfold State.ledger State.standing Standing.ledger Standing.credentials
  congr 2
  funext cell
  dsimp only
  rw [HashMap.get_insert]
  split <;> rfl

theorem behaves_storePubkey (hh : Made W.terms h) : Behaves W (storePubkey h) :=
  behaves_modify fun _ => ⟨.change (.storeKey h hh) rfl, .still⟩

/-- Completing a handshake lifts the blacklist and pardons. -/
theorem behaves_establish (hh : Made W.terms h) (isInitiator : Bool) :
    Behaves W (establish h isInitiator) := by
  refine behaves_bind (behaves_installSession hh isInitiator) fun _ => ?_
  refine behaves_bind (behaves_storePubkey hh) fun _ => ?_
  refine behaves_bind (behaves_atomically fun i s => ⟨?_, .still⟩) fun _ => ?_
  · refine .change (.routeOne (.addPeer i.now h.peerId) (fun id hid => ?_) rfl) rfl
    exact ⟨h, hh, some.inj hid⟩
  refine behaves_bind (behaves_modify fun s => ⟨?_, .unblacklist h.peerId⟩) fun _ => ?_
  · exact .change (.routeOne (.unblacklistPeer h.peerId) (fun id hid => nomatch hid) rfl) rfl
  refine behaves_bind (behaves_modify fun _ => ⟨.still, .pardon h.peerId⟩) fun _ => ?_
  refine behaves_bind (behaves_atomically fun _ _ => ⟨.still, .still⟩) fun _ => ?_
  refine behaves_bind (behaves_of_leaves (leaves_flushSendBuffer _)) fun _ => ?_
  exact behaves_of_leaves (leaves_sendPeerInfo _)

variable [HmacSha256]

/-- The responder files under the id of its connection. -/
theorem behaves_handshakeResponder {peerId : NodeId} {init : Delivered} (chan : ChanId)
    (hinit : W.terms.Delivers init) (hpresents : W.terms.Presents peerId init) :
    Behaves W (handshakeResponder peerId init chan) := by
  obtain ⟨conn, wire⟩ := init
  unfold handshakeResponder
  split
  · rename_i senderPub ephemeralPub nonce signature hwire
    obtain rfl : wire = _ := hwire
    refine moves_bind (moves_read (Q := fun hs => hs = W.terms.config.handshaker) fun _ s hs => ?_)
      fun hs hstart => ?_
    · rw [← hs.sane.config]
      rfl
    subst hstart
    let message : HandshakeMessage := ⟨senderPub, ephemeralPub, nonce, signature⟩
    refine behaves_bind (behaves_authorizeAuthenticatedPeer message hinit rfl) fun decision => ?_
    split
    · refine behaves_bind behaves_input fun i => ?_
      split
      · exact behaves_pure
      · rename_i response own hrespond
        refine behaves_bind (behaves_of_leaves (leaves_sendHandshake _ _)) fun sent => ?_
        split
        · exact behaves_pure
        · refine moves_bind (moves_recvHandshake chan) fun received _ => ?_
          split
          · split
            · rename_i key _ hkey
              exact behaves_establish
                (.responder _ _ response rfl hinit hpresents hrespond hkey) false
            · exact behaves_pure
          · exact behaves_pure
    · exact behaves_pure
  · exact behaves_pure

theorem behaves_runResponder {r : Responder} (hinit : W.terms.Delivers r.init)
    (hpresents : W.terms.Presents r.peerId r.init) : Behaves W (runResponder r) :=
  behaves_bind (behaves_handshakeResponder r.chan hinit hpresents) fun _ =>
    behaves_bind (behaves_dropReceiver r.chan) fun _ => behaves_removeHsChannel r.peerId

/-- The initiator files under the id of the key it verified, and installs the session
as soon as it has sent its Confirm. -/
theorem behaves_finishInitiator (transportKey : NodeId) {conn : ConnId}
    (ephemeralSecret nonce : Octets 32) {message : HandshakeMessage}
    (hmessage : W.terms.Delivers ⟨conn, wireOf .response message⟩) :
    Behaves W (finishInitiator transportKey conn
      (W.terms.config.handshaker.initiate ephemeralSecret nonce).2 message) := by
  refine behaves_bind (behaves_authorizeAuthenticatedPeer message hmessage rfl) fun decision => ?_
  split
  · split
    · exact behaves_pure
    · rename_i own hfinalize
      split
      · rename_i hmac key _ hkey
        refine behaves_bind (behaves_of_leaves (leaves_sendHandshake _ _)) fun sent => ?_
        split
        · exact behaves_pure
        · have hmade : Made W.terms
              ⟨conn, message, key, NodeId.fromPublicKey message.senderPub, true, own⟩ :=
            .initiator ephemeralSecret nonce rfl hmessage rfl hfinalize hkey
          have hrest : Behaves W (establish _ true >>= fun _ =>
              (pure (some (NodeId.fromPublicKey message.senderPub)) : DaemonM _)) :=
            behaves_bind (behaves_establish hmade true) fun _ => behaves_pure
          split
          · exact behaves_bind (behaves_modify_quiet fun _ => rfl) fun _ => hrest
          · exact hrest
      · exact behaves_pure
  · exact behaves_pure

theorem behaves_handshakeInitiator (transportKey : NodeId) (chan : ChanId) :
    Behaves W (handshakeInitiator transportKey chan) := by
  refine moves_bind (moves_read (Q := fun hs => hs = W.terms.config.handshaker) fun _ s hs => ?_)
    fun hs hstart => ?_
  · rw [← hs.sane.config]
    rfl
  subst hstart
  refine behaves_bind behaves_input fun i => ?_
  refine behaves_bind (behaves_of_leaves (leaves_sendHandshake _ _)) fun sent => ?_
  split
  · exact behaves_pure
  · refine moves_bind (moves_recvHandshake chan) fun received hreceived => ?_
    split
    · exact behaves_finishInitiator transportKey _ _ (hreceived _ rfl)
    · exact behaves_pure

variable (target : ConnectTarget)

theorem behaves_attemptConnection (isReconnect : Bool) :
    Behaves W (attemptConnection alone target isReconnect) := by
  refine behaves_bind behaves_input fun i => ?_
  refine behaves_bind (behaves_registerPendingOutbound target _) fun _ => ?_
  refine behaves_bind (behaves_transportConnect _ target.addr) fun connected => ?_
  split
  · refine behaves_bind (behaves_newChannel _) fun chan => ?_
    refine behaves_bind (behaves_handshakeInitiator _ chan) fun result => ?_
    refine behaves_bind (behaves_dropReceiver chan) fun _ => ?_
    refine behaves_bind (behaves_clearPendingOutbound target _) fun _ => ?_
    split
    · refine behaves_bind behaves_pure fun _ => ?_
      exact behaves_bind (behaves_removeHsChannel _) fun _ => behaves_pure
    · refine behaves_bind (behaves_atomically fun _ _ => ⟨.still, .still⟩) fun cancelled => ?_
      split
      · split
        · exact behaves_pure
        · exact behaves_bind (behaves_removeHsChannel _) fun _ => behaves_pure
      · split
        · refine behaves_bind (behaves_removeHsChannel _) fun _ => ?_
          exact behaves_bind (behaves_transportDisconnect _) fun _ => behaves_pure
        · refine behaves_bind (behaves_transportDisconnect _) fun _ => ?_
          refine behaves_bind behaves_pure fun _ => ?_
          exact behaves_bind (behaves_removeHsChannel _) fun _ => behaves_pure
  · refine behaves_bind (behaves_clearPendingOutbound target _) fun _ => ?_
    split
    · exact behaves_pure
    · exact behaves_bind behaves_pure fun _ => behaves_pure

theorem behaves_initiatePeerConnection : Behaves W (initiatePeerConnection target) :=
  behaves_bind (behaves_attemptConnection target false) fun _ => behaves_pure

theorem behaves_reconnectAttempt (known : Option NodeId) :
    Behaves W (reconnectAttempt target known) := by
  refine behaves_bind behaves_read fun active => ?_
  split
  · exact behaves_pure
  · exact behaves_bind (behaves_attemptConnection target true) fun _ => behaves_pure

theorem behaves_runBridgedInitiator (peerNodeId : NodeId) :
    Behaves W (runBridgedInitiator peerNodeId) := by
  refine behaves_bind (behaves_of_leaves_books (leaves_await fun i s r hstep => ?_))
    fun registered => ?_
  · split at hstep
    · rw [← some.inj hstep]
    · obtain ⟨_, hstep⟩ := ite_none_right_eq_some.mp hstep
      rw [← some.inj hstep]
  · split
    · refine behaves_bind (behaves_newChannel peerNodeId) fun chan => ?_
      refine behaves_bind (behaves_handshakeInitiator peerNodeId chan) fun _ => ?_
      exact behaves_bind (behaves_dropReceiver chan) fun _ => behaves_removeHsChannel peerNodeId
    · exact behaves_pure

end Handshakes

/-! ## The event loop and the timers -/

/-- A frame that is as the terms say, when the event loop takes it up. -/
structure Terms.Admits (T : Terms) (r : Received) : Prop where
  delivered : r.frame.frameType = .handshake → ∀ wire rest,
    HandshakeWireFrame.decode r.frame.payload = .ok wire rest → T.Delivers ⟨r.conn, wire⟩
  presented : r.frame.frameType = .handshake → ∀ m rest,
    HandshakeWireFrame.decode r.frame.payload = .ok (wireOf .init m) rest →
      T.Presents r.peer ⟨r.conn, wireOf .init m⟩
  announced : r.frame.frameType = .heartbeat → ∀ hb rest,
    HeartbeatFrame.decode r.frame.payload = .ok hb rest → hb.gatewayHops = 0 →
      hb.gwX25519Pub ≠ Octets.zero 32 → T.Announces r.peer hb.gwX25519Pub

omit [Sha256] [Ed25519] [X25519] [HkdfSha256] [Blake3] in
theorem admits_anyTerms (config : Config) (r : Received) : (anyTerms config).Admits r where
  delivered := fun _ _ _ _ => trivial
  presented := fun _ _ _ _ => trivial
  announced := fun _ _ _ _ _ _ => trivial

section Loop

theorem behaves_iteration {body : DaemonM Unit} (h : Behaves W body) : Behaves W (iteration body) :=
  behaves_bind h fun _ => behaves_modify_quiet fun _ => rfl

theorem behaves_withDecoded {α : Type} {decode : BufM PimError α} {payload : Bytes}
    {k : α → DaemonM Unit} (h : ∀ a rest, decode payload = .ok a rest → Behaves W (k a)) :
    Behaves W (withDecoded decode payload k) := by
  unfold withDecoded
  split
  · rename_i a rest hdecode
    exact h a rest hdecode
  · exact behaves_pure
  · exact moves_panicked

theorem behaves_resolveSimultaneous (fromPeer presentedPeerId : NodeId) :
    Behaves W (resolveSimultaneous fromPeer presentedPeerId) := by
  refine behaves_bind behaves_read fun remoteIp => ?_
  split
  · exact behaves_pure
  · refine behaves_bind (behaves_of_leaves_books (leaves_await fun i s r hr => ?_))
      fun pending => ?_
    · split at hr
      · cases hr
      · cases hr
        rfl
    have hrelease : ∀ goesOn : Bool, Behaves W (do
        releasePendingOutbound
        return goesOn) :=
      fun _ => behaves_bind (behaves_modify_quiet fun _ => rfl) fun _ => behaves_pure
    split
    · exact behaves_pure
    · refine behaves_bind behaves_read fun selfId => ?_
      split
      · refine behaves_bind ?_ fun _ => hrelease true
        refine behaves_bind (behaves_withPendingOutbound _) fun entry => ?_
        split
        · exact behaves_pure
        · exact behaves_bind (behaves_modify_quiet fun _ => rfl) fun _ =>
            behaves_bind (behaves_removeHsChannel _) fun _ => behaves_transportDisconnect _
      · exact behaves_bind (behaves_transportDisconnect _) fun _ => hrelease false

theorem behaves_advertiseAll : Behaves W advertiseAll := by
  refine behaves_bind (behaves_atomically fun i s => ?_) fun generated => ?_
  · split
    · rename_i routing adverts hgen
      have hroutes := (generateFor_counts hgen).1
      have hseq : routing.peerMaxSeq = s.routing.peerMaxSeq := by rw [hroutes]
      refine ⟨.change (.route _ routing (fun op hop id hid => ?_)
        (run_of_generateFor hgen)) hseq, accountStep_of_routing (by rw [hroutes])⟩
      obtain ⟨peer, -, rfl⟩ := List.mem_map.mp hop
      exact nomatch hid
    · exact Std.Refl.refl _
  · split
    · exact moves_panicked
    · exact behaves_of_leaves (leaves_each fun advert =>
        leaves_bind leaves_read fun _ => leaves_sendFrameBuffered _ _)

theorem behaves_routing (op : RoutingTable.TableOp) (hop : op.introduces = none)
    {f : RoutingTable → RoutingTable} (hf : ∀ t, op.perform t = some (f t))
    (hseq : ∀ t, (f t).peerMaxSeq = t.peerMaxSeq)
    (haccount : ∀ s : State, AccountStep W.metered W.failing s.accounts
      (State.accounts { s with routing := f s.routing })) :
    Behaves W (modify fun s => { s with routing := f s.routing } : DaemonM Unit) := by
  refine behaves_modify fun s =>
    ⟨.change (.routeOne op (fun id hid => ?_) (hf _)) (hseq _), haccount s⟩
  exact absurd (hid.symm.trans hop) (some_ne_none id)

theorem behaves_removePeer {peerId : NodeId} (hpeer : W.Parts peerId) :
    Behaves W (removePeer peerId) := by
  refine behaves_bind (behaves_modify fun _ => ⟨.change (.dropSession peerId) rfl, .still⟩)
    fun _ => ?_
  refine behaves_bind (behaves_modify fun _ => ⟨.change (.dropPubkey peerId) rfl, .still⟩)
    fun _ => ?_
  refine behaves_bind (behaves_modify fun _ => ⟨.still, .removeBucket peerId⟩) fun _ => ?_
  refine behaves_bind (behaves_modify fun s => ⟨.removePeer peerId hpeer, ?_⟩) fun _ => ?_
  · exact accountStep_of_routing (blacklistedPeers_removeRoutesVia _ _)
  refine behaves_bind (behaves_modify_quiet fun _ => rfl) fun _ => ?_
  refine behaves_bind (behaves_modify_quiet fun _ => rfl) fun _ => ?_
  exact behaves_advertiseAll

theorem behaves_runPeerLiveness (hf : W.failing) : Behaves W runPeerLiveness := by
  refine moves_bind (B := fun timedOut => ∀ peerId ∈ timedOut, W.Parts peerId)
    (moves_atomically fun i s hs => ⟨Std.Refl.refl _, fun peerId hpeer => ?_⟩)
    fun timedOut hsilent => ?_
  · obtain ⟨e, he, rfl⟩ := List.mem_map.mp hpeer
    obtain ⟨hmem, hlate⟩ := List.mem_filter.mp he
    exact hs.heard e hmem (of_decide_eq_true hlate)
  refine moves_each fun peerId hpeer =>
    behaves_bind (behaves_removePeer (hsilent peerId hpeer)) fun _ => ?_
  refine behaves_bind (behaves_atomically fun _ _ => ⟨.still, .recordFailure hf peerId⟩)
    fun listed => ?_
  split
  · refine behaves_routing (.blacklistPeer peerId) rfl (fun _ => rfl) (fun t => ?_) fun s => ?_
    · simp only [blacklistPeer, removeRoutesVia_fst]
      exact (onlyRoutes_removeRoutes _ _).peerMaxSeq
    · show AccountStep _ _ _ (Accounts.mk _ _ (s.routing.blacklistPeer peerId).1.blacklistedPeers)
      rw [blacklistedPeers_blacklistPeer]
      exact .blacklist hf peerId
  · exact behaves_pure

theorem behaves_forwardToChannel (chan : ChanId) {d : Delivered} (hd : W.terms.Delivers d) :
    Behaves W (forwardToChannel chan d) := by
  refine moves_await fun i s s' r hs hstep => ⟨?_, trivial⟩
  cases hchan : s.channels.get chan with
  | none =>
    simp only [hchan, some.injEq, Prod.mk.injEq] at hstep
    rw [← hstep.1]
    exact Std.Refl.refl _
  | some queue =>
    simp only [hchan, ite_none_left_eq_some, some.injEq, Prod.mk.injEq] at hstep
    rw [← hstep.2.1]
    refine ⟨.change (.setChannel chan (queue ++ [d]) fun d' hd' => ?_) rfl, .still⟩
    rcases List.mem_append.mp hd' with hold | hnew
    · exact hs.sane.queued chan queue hchan d' hold
    · rw [List.mem_singleton.mp hnew]
      exact hd

variable {r : Received} {b : Boot} {l : List (State × State)} {S : Sys Input State}

theorem behaves_handleHandshake (hr : W.terms.Admits r) (htype : r.frame.frameType = .handshake) :
    Behaves W (handleHandshake r.conn r.peer r.frame.payload) := by
  refine behaves_withDecoded fun wire rest hdecode => ?_
  refine behaves_bind behaves_read fun chan => ?_
  have hdelivered := hr.delivered htype wire rest hdecode
  split
  · exact behaves_forwardToChannel _ hdelivered
  · split
    · rename_i senderPub ephemeralPub nonce signature
      refine behaves_bind (behaves_resolveSimultaneous _ _) fun goesOn => ?_
      split
      · refine behaves_bind (behaves_newChannel r.peer) fun chan => ?_
        have hpresents :=
          hr.presented htype ⟨senderPub, ephemeralPub, nonce, signature⟩ rest hdecode
        exact behaves_modify fun s => ⟨.change (.spawn _ hdelivered hpresents) rfl, .still⟩
      · exact behaves_pure
    · exact behaves_pure

theorem behaves_handleHeartbeat (hr : W.terms.Admits r) (htype : r.frame.frameType = .heartbeat) :
    Behaves W (handleHeartbeat r.peer r.frame.payload) := by
  refine behaves_withDecoded fun hb rest hdecode => ?_
  refine behaves_bind (behaves_atomically fun _ _ => ⟨.still, .still⟩) fun _ => ?_
  have hload : Behaves W (modify _) :=
    behaves_routing (.updateGatewayLoad r.peer hb.load) rfl (fun _ => rfl) (fun _ => rfl)
      fun _ => .still
  split
  · rename_i hhops
    split
    · rename_i hkey
      refine behaves_bind (behaves_modify fun s => ⟨.change (.learnKey r.peer _ ?_) rfl, .still⟩)
        fun _ => hload
      exact hr.announced htype hb rest hdecode hhops hkey
    · exact hload
  · exact behaves_pure

/-- A route update is taken from a peer whose key is stored. -/
theorem behaves_handleRouteUpdate (fromPeer : NodeId) (payload : Bytes) :
    Behaves W (handleRouteUpdate fromPeer payload) := by
  refine behaves_withDecoded fun update rest _ => ?_
  refine moves_bind
    (moves_read (Q := fun pk => pk.isSome → W.terms.Files fromPeer) fun _ s hs hpk => ?_)
    fun pk hfiled => ?_
  · obtain ⟨pk, hget⟩ := isSome_iff_exists.mp hpk
    exact hs.sane.filed fromPeer pk hget
  split
  · exact behaves_pure
  · split
    · refine behaves_atomically fun i s => ⟨.applyUpdate i.now update fromPeer (hfiled rfl), ?_⟩
      obtain ⟨_, honly⟩ := onlyRoutes_applyUpdate s.routing i.now update fromPeer
      exact accountStep_of_routing honly.blacklistedPeers
    · exact behaves_pure

theorem behaves_handlePong (nonce : UInt64) : Behaves W (handlePong nonce) := by
  refine behaves_bind (behaves_atomically fun _ _ => ⟨.still, .still⟩) fun pending => ?_
  split
  · exact behaves_pure
  · rename_i gwId sentAt
    refine behaves_bind behaves_input fun i => ?_
    refine behaves_bind
      (behaves_routing (.updateGatewayRtt gwId _) rfl (fun _ => rfl) (fun _ => rfl)
      fun _ => .still) fun _ => ?_
    exact behaves_modify fun _ => ⟨.still, .recordSuccess gwId⟩

variable [Aes256Gcm]

theorem behaves_handleControl (fromPeer : NodeId) (payload : Bytes)
    (hgoodbye : ∀ id reason rest,
      ControlFrame.decode payload = .ok (.goodbye id reason) rest → W.Parts id) :
    Behaves W (handleControl fromPeer payload) := by
  refine behaves_withDecoded fun cf rest hdecode => ?_
  cases cf with
  | goodbye departingId reason =>
    exact behaves_removePeer (hgoodbye departingId reason rest hdecode)
  | rekey => exact behaves_pure
  | ping nonce => exact behaves_of_leaves (leaves_sendControl fromPeer _)
  | pong nonce => exact behaves_handlePong nonce
  | peerInfo x25519Pub friendlyName =>
    exact behaves_of_leaves_sansDirectory
      (leaves_handleIncomingPeerInfo fromPeer x25519Pub friendlyName .direct)
  | pluginPayload kind body => exact behaves_of_leaves (leaves_dispatchPluginPayload kind)

theorem behaves_handleData (fromPeer : NodeId) (frame : TransportFrame) :
    Behaves W (handleData fromPeer frame) := by
  refine behaves_bind behaves_read fun cell => ?_
  split
  · exact behaves_pure
  · refine behaves_bind (behaves_decryptWith _ frame) fun result => ?_
    split
    · exact behaves_of_leaves_sansDirectory (leaves_withDecoded leaves_handleMesh)
    · exact behaves_pure

/-- An iteration of the loop once the limiter has been asked. -/
def afterLimit (r : Received) (allowed : Bool) : DaemonM Unit :=
  if allowed then
    match r.frame.frameType with
    | .handshake => handleHandshake r.conn r.peer r.frame.payload
    | .data => handleData r.peer r.frame
    | .routeUpdate => handleRouteUpdate r.peer r.frame.payload
    | .heartbeat => handleHeartbeat r.peer r.frame.payload
    | .control => handleControl r.peer r.frame.payload
    | .fragment => pure ()
  else countDropped

theorem behaves_afterLimit (hr : W.terms.Admits r) (hparts : PartsFrom W.Parts r) (allowed : Bool) :
    Behaves W (afterLimit r allowed) := by
  unfold afterLimit
  split
  · cases htype : r.frame.frameType with
    | handshake => exact behaves_handleHandshake hr htype
    | data => exact behaves_handleData r.peer r.frame
    | routeUpdate => exact behaves_handleRouteUpdate r.peer r.frame.payload
    | heartbeat => exact behaves_handleHeartbeat hr htype
    | control => exact behaves_handleControl r.peer r.frame.payload (hparts htype)
    | fragment => exact behaves_pure
  · exact behaves_of_leaves leaves_countDropped

theorem behaves_handleFrame (hm : W.metered) (hr : W.terms.Admits r)
    (hparts : PartsFrom W.Parts r) : Behaves W (handleFrame r) := by
  refine behaves_bind (behaves_atomically fun i s => ⟨.still, .allow hm i.now r.peer⟩)
    fun allowed => ?_
  exact behaves_afterLimit hr hparts allowed

/-! ## Runs -/

variable [HmacSha256]

/-- Every event is a move that writes no account, and every step of the task it starts is as the
scope says: a frame has to be as the terms say, only its iteration asks the limiter, and only a
liveness check records failures. -/
theorem start_behaves {e : Event} {s s' : State} {p : DaemonM Unit} (hs : s.ledger.Sane W.terms)
    (he : e = .frame → ∀ r ∈ s.transport.incoming.head?, W.terms.Admits r ∧ PartsFrom W.Parts r)
    (hm : e = .frame → W.metered) (hf : e = .liveness → W.failing)
    (hstart : start e s = some (s', p)) :
    State.Move W.terms W.Parts s s' ∧ s'.accounts = s.accounts ∧ Behaves W p := by
  have hquiet {p : DaemonM Unit} (h : p.Leaves State.standing) : Behaves W p := behaves_of_leaves h
  cases e with
  | accept remoteAddr id =>
    cases hstart
    exact ⟨.still, rfl, behaves_modify_quiet fun _ => rfl⟩
  | receive conn chunk | deliver conn =>
    obtain ⟨t, _, heq⟩ := map_eq_some_iff.mp hstart
    cases heq
    exact ⟨.still, rfl, behaves_pure⟩
  | endOfStream conn =>
    obtain ⟨⟨t, id⟩, _, heq⟩ := map_eq_some_iff.mp hstart
    cases heq
    exact ⟨.still, rfl, behaves_modify_quiet fun _ => rfl⟩
  | writeOut conn ok =>
    obtain ⟨⟨t, wire⟩, _, heq⟩ := map_eq_some_iff.mp hstart
    cases heq
    exact ⟨.still, rfl, behaves_pure⟩
  | frame =>
    simp only [start] at hstart
    split at hstart
    · rename_i r incoming _ hincoming
      cases hstart
      obtain ⟨hadmits, hparts⟩ := he rfl r (by rw [hincoming]; rfl)
      exact ⟨.still, rfl, behaves_iteration (behaves_handleFrame (hm rfl) hadmits hparts)⟩
    · cases hstart
  | tun packet =>
    simp only [start] at hstart
    split at hstart
    · cases hstart
    · cases hstart
      exact ⟨.still, rfl, behaves_iteration (hquiet (leaves_handleTun packet))⟩
  | responder =>
    simp only [start] at hstart
    split at hstart
    · rename_i r spawned hspawned
      cases hstart
      have hmem : r ∈ s.spawned := hspawned ▸ .head _
      obtain ⟨hinit, hpresents⟩ := hs.spawned r hmem
      exact ⟨.change (.takeSpawned r spawned hspawned) rfl, rfl,
        behaves_runResponder hinit hpresents⟩
    · cases hstart
  | initiate target =>
    cases hstart
    exact ⟨.still, rfl, behaves_initiatePeerConnection target⟩
  | reconnect target known =>
    cases hstart
    exact ⟨.still, rfl, behaves_reconnectAttempt target known⟩
  | bridge peerNodeId =>
    cases hstart
    exact ⟨.still, rfl, behaves_runBridgedInitiator peerNodeId⟩
  | liveness =>
    cases hstart
    exact ⟨.still, rfl, behaves_runPeerLiveness (hf rfl)⟩
  | heartbeats =>
    cases hstart
    exact ⟨.still, rfl, hquiet leaves_runHeartbeats⟩
  | advertise =>
    cases hstart
    exact ⟨.still, rfl, behaves_advertiseAll⟩
  | probes =>
    cases hstart
    exact ⟨.still, rfl, hquiet leaves_runGatewayProbes⟩
  | bufferFlush =>
    cases hstart
    exact ⟨.still, rfl, hquiet leaves_runBufferFlush⟩
  | broadcast =>
    cases hstart
    exact ⟨.still, rfl, hquiet leaves_runBroadcastCycle⟩
  | internet packet =>
    cases hstart
    exact ⟨.still, rfl, hquiet (leaves_runGatewayReturn packet)⟩

/-- What holds at the start and is stable holds in every state of every run whose
frames are as the terms say. -/
theorem holds_of_reaches {T : Terms} {J : Ledger → Prop} (hJ : Stable T J)
    (hconfig : T.config = b.config) (h₀ : J b.state.ledger) {P : State → Event → Prop}
    (hP : ∀ s, P s .frame → ∀ r ∈ s.transport.incoming.head?, T.Admits r) {s : State}
    (hs : Reaches P b s) : s.Holds T J := by
  obtain ⟨S, rfl, hreaches⟩ := hs
  have hboot : b.state.Holds T J := ⟨sane_boot hconfig, h₀⟩
  refine Sys.Reaches.invariant hboot (fun e s s' p hs he hstart => ?_) hreaches
  -- anybody may be removed, and the accounts do not matter
  obtain ⟨hstep, -, hp⟩ := start_behaves (W := ⟨T, fun _ => True, True, True⟩) hs.sane
    (fun hframe r hr => ⟨hP s (hframe ▸ he) r hr, fun _ _ _ _ _ => trivial⟩)
    (fun _ => trivial) (fun _ => trivial) hstart
  refine ⟨hs.move hJ hstep, hp.keeps (fun i s hs => ⟨hs.sane, fun _ _ _ => trivial⟩) ?_⟩
  exact fun s s' hs hstep => hs.move hJ hstep.move

/-! ## Histories -/

theorem step_of_mem_trail {D : NodeId → Prop} (h : Sys.Trail start (Spares D) ⟨b.state, []⟩ l S) :
    ∀ m ∈ l, State.Step ⟨anyTerms b.config, D, True, True⟩ m.1 m.2 := by
  refine h.moves
    (C := (anyTerms b.config).Allows D) (sane_boot rfl) (fun s s' hs hstep => hs.move hstep.move)
    (fun s k i hs hspares => ⟨hs, hspares⟩) ?_
  intro e s s' p hs hspares hstart
  obtain ⟨hmove, hsame, hp⟩ := start_behaves (W := ⟨anyTerms b.config, D, True, True⟩) hs
    (fun hframe r hr => ⟨admits_anyTerms b.config r, hspares hframe r hr⟩)
    (fun _ => trivial) (fun _ => trivial) hstart
  refine ⟨⟨hmove, ?_⟩, hp⟩
  rw [hsame]
  exact .still

theorem move_of_mem_trail {D : NodeId → Prop} (h : Sys.Trail start (Spares D) ⟨b.state, []⟩ l S) :
    ∀ m ∈ l, State.Move (anyTerms b.config) D m.1 m.2 :=
  fun m hm => (step_of_mem_trail h m hm).move

theorem sane_of_trail {K : State → Choice Input Event → Prop}
    (h : Sys.Trail start K ⟨b.state, []⟩ l S) : S.state.ledger.Sane (anyTerms b.config) := by
  have hreaches : Reaches (fun _ _ => True) b S.state :=
    ⟨S, rfl, h.reaches .refl fun _ _ _ => trivial⟩
  exact (holds_of_reaches (fun _ _ _ _ _ => trivial) rfl trivial
    (fun _ _ r _ => admits_anyTerms b.config r) hreaches).sane

end Loop

end Tasks

end ProximityMesh.Daemon
