/-
  Gateway/Engine.lean --- the userspace NAT engines.

  Source: `GatewayEngine` in crates/pim-gateway/src/engine.rs and
  `GatewayEngineV6` in crates/pim-gateway/src/ipv6.rs (the host firewall setup is
  left out: it runs system commands and touches neither table nor packets).

  The two engines are one algorithm over different packets: parse the flow, look
  it up or create it, rewrite the packet.  `Engine` holds what differs.  A call is a
  function of the packet, the clock and the table; it returns the outcome with
  the packet as it is left, and the table, also when it fails.

  `Engine.table_step` reduces a call to an operation of Gateway/Conntrack.lean, so
  the invariant and the stability of ports hold of both engines at once.
-/
import ProximityMesh.Core.Types
import ProximityMesh.Gateway.PacketV6

set_option autoImplicit false

namespace ProximityMesh.Gateway

open BufM

/-- How a call ends: the result or the fault, and the packet as it is left. -/
abbrev Outcome (α : Type) : Type := EStateM.Result (Fault GatewayError) Bytes α

/-- What a NAT engine does to packets.  `κ` is the flow key, `σ` what the caller
knows about the sender of an outbound packet, and `ρ` what it is told about the
receiver of a reply. -/
structure Engine (κ σ ρ : Type) where
  allocate : PortPool → Option UInt16 × PortPool
  idleTimeout : UInt8 → Nat
  /-- The flow of an outbound packet. -/
  parseFlow : σ → PacketM κ
  /-- The protocol and external port of a reply. -/
  parseReply : PacketM (UInt8 × UInt16)
  rewriteSrc : UInt16 → PacketM Unit
  rewriteDst : κ → PacketM Unit
  /-- The receiver of a reply to a flow. -/
  client : κ → ρ
  allocate_eq : ∀ pool, PortPool.InRange pool.next → allocate pool = pool.allocated
  parseFlow_ensures : ∀ src packet, Ensures (parseFlow src) packet
    (fun _ packet' => packet' = packet) (fun f packet' => f ≠ .panic ∧ packet' = packet)
  parseReply_ensures : ∀ packet, Ensures parseReply packet
    (fun _ packet' => packet' = packet) (fun f packet' => f ≠ .panic ∧ packet' = packet)

/-- A call of an engine. -/
inductive Call (σ : Type) where
  | translateOutbound (packet : Bytes) (src : σ) (now : Nat)
  | translateInbound (packet : Bytes) (now : Nat)
  | cleanupExpired (now : Nat)

namespace Engine

variable {κ σ ρ : Type} [DecidableEq κ] [FlowKey κ] (engine : Engine κ σ ρ)

/-- Rewrite an outbound packet to an external port of the gateway. -/
def translateOutbound (t : Inner κ) (packet : Bytes) (src : σ) (now : Nat) :
    Outcome UInt16 × Inner κ :=
  match engine.parseFlow src packet with
  | .error f packet' => (.error f packet', t)
  | .ok key packet' =>
      match t.lookupOrCreate engine.allocate key now with
      | (.error e, t') => (.error (.error e) packet', t')
      | (.ok extPort, t') =>
          ((do
            engine.rewriteSrc extPort
            return extPort : PacketM UInt16) packet', t')

/-- Rewrite a reply back to the flow it belongs to. -/
def translateInbound (t : Inner κ) (packet : Bytes) (now : Nat) : Outcome ρ × Inner κ :=
  match engine.parseReply packet with
  | .error f packet' => (.error f packet', t)
  | .ok (proto, dstPort) packet' =>
      match t.lookupReverse proto dstPort now with
      | (.error e, t') => (.error (.error e) packet', t')
      | (.ok entry, t') =>
          ((do
            engine.rewriteDst entry.flow
            return engine.client entry.flow : PacketM ρ) packet', t')

/-- The table after a call. -/
def step (t : Inner κ) : Call σ → Inner κ
  | .translateOutbound packet src now => (engine.translateOutbound t packet src now).2
  | .translateInbound packet now => (engine.translateInbound t packet now).2
  | .cleanupExpired now => t.cleanupExpired engine.idleTimeout now

/-- The table of an engine after a sequence of calls. -/
def run (calls : List (Call σ)) : Inner κ := calls.foldl engine.step Inner.new

/-! ## A call is an operation of the table -/

/-- The flow of an outbound packet that parses. -/
def flowOf (src : σ) (packet : Bytes) : Option κ :=
  match engine.parseFlow src packet with
  | .ok key _ => some key
  | .error _ _ => none

/-- The protocol and external port of a reply that parses. -/
def replyOf (packet : Bytes) : Option (UInt8 × UInt16) :=
  match engine.parseReply packet with
  | .ok r _ => some r
  | .error _ _ => none

omit [DecidableEq κ] [FlowKey κ] in
theorem parseFlow_of_flowOf {src : σ} {packet : Bytes} {key : κ}
    (h : engine.flowOf src packet = some key) :
    ∃ packet', engine.parseFlow src packet = .ok key packet' := by
  unfold flowOf at h
  split at h
  · rename_i key' packet' hrun
    exact ⟨packet', by rw [hrun, Option.some.inj h]⟩
  · cases h

omit [DecidableEq κ] [FlowKey κ] in
theorem parseReply_of_replyOf {packet : Bytes} {r : UInt8 × UInt16}
    (h : engine.replyOf packet = some r) :
    ∃ packet', engine.parseReply packet = .ok r packet' := by
  unfold replyOf at h
  split at h
  · rename_i r' packet' hrun
    exact ⟨packet', by rw [hrun, Option.some.inj h]⟩
  · cases h

variable {packet packet' : Bytes} {t : Inner κ} {src : σ} {now : Nat} {key : κ}

/-- `m; return a` returns `a`, exactly when `m` returns. -/
theorem returned_eq_ok_iff {α : Type} {m : PacketM Unit} {a r : α} :
    (do m; return a : PacketM α) packet = .ok r packet' ↔ r = a ∧ m packet = .ok () packet' := by
  rw [eq_ok_iff_ensures, ensures_bind]
  unfold Ensures
  cases m packet with
  | ok u final =>
    constructor
    · rintro ⟨rfl, rfl⟩
      exact ⟨rfl, rfl⟩
    · rintro ⟨rfl, h⟩
      exact ⟨rfl, (EStateM.Result.ok.inj h).2⟩
  | error f final =>
    refine iff_of_false id fun h => ?_
    cases h.2

/-- What a call does to the table depends on the packet alone. -/
def opOf : Call σ → Inner.Op κ
  | .translateOutbound packet src now =>
      match engine.flowOf src packet with
      | some key => .outbound key now
      | none => .refused
  | .translateInbound packet now =>
      match engine.replyOf packet with
      | some (proto, dstPort) => .inbound proto dstPort now
      | none => .refused
  | .cleanupExpired now => .cleanup now

/-- An outbound packet of a flow reaches the table, and the packet is rewritten
as it was given. -/
theorem translateOutbound_of_flow (hkey : engine.flowOf src packet = some key) :
    engine.translateOutbound t packet src now =
      match t.lookupOrCreate engine.allocate key now with
      | (.error e, t') => (.error (.error e) packet, t')
      | (.ok extPort, t') =>
        ((do
          engine.rewriteSrc extPort
          return extPort : PacketM UInt16) packet, t') := by
  have hparse := engine.parseFlow_ensures src packet
  unfold flowOf at hkey
  unfold translateOutbound Ensures at *
  cases h : engine.parseFlow src packet with
  | error f p => simp [h] at hkey
  | ok key' p =>
    simp only [h, Option.some.injEq] at hkey hparse ⊢
    rw [hkey, hparse]

theorem translateOutbound_of_refused (t : Inner κ) (now : Nat)
    (hkey : engine.flowOf src packet = none) :
    ∃ f, f ≠ .panic ∧ engine.translateOutbound t packet src now = (.error f packet, t) := by
  have hparse := engine.parseFlow_ensures src packet
  unfold flowOf at hkey
  unfold translateOutbound Ensures at *
  cases h : engine.parseFlow src packet with
  | error f p =>
    simp only [h] at hparse
    exact ⟨f, hparse.1, by rw [hparse.2]⟩
  | ok key' p => simp [h] at hkey

omit [FlowKey κ] in
theorem translateInbound_of_reply {t : Inner κ} {packet : Bytes} {now : Nat} {proto : UInt8}
    {dstPort : UInt16} (hreply : engine.replyOf packet = some (proto, dstPort)) :
    engine.translateInbound t packet now =
      match t.lookupReverse proto dstPort now with
      | (.error e, t') => (.error (.error e) packet, t')
      | (.ok entry, t') =>
        ((do
          engine.rewriteDst entry.flow
          return engine.client entry.flow : PacketM ρ) packet, t') := by
  have hparse := engine.parseReply_ensures packet
  unfold replyOf at hreply
  unfold translateInbound Ensures at *
  cases h : engine.parseReply packet with
  | error f p => simp [h] at hreply
  | ok r p =>
    simp only [h, Option.some.injEq] at hreply hparse ⊢
    rw [hreply, hparse]

omit [FlowKey κ] in
theorem translateInbound_of_refused (t : Inner κ) (now : Nat) {packet : Bytes}
    (hreply : engine.replyOf packet = none) :
    ∃ f, f ≠ .panic ∧ engine.translateInbound t packet now = (.error f packet, t) := by
  have hparse := engine.parseReply_ensures packet
  unfold replyOf at hreply
  unfold translateInbound Ensures at *
  cases h : engine.parseReply packet with
  | error f p =>
    simp only [h] at hparse
    exact ⟨f, hparse.1, by rw [hparse.2]⟩
  | ok r p => simp [h] at hreply

theorem table_step (t : Inner κ) (call : Call σ) :
    engine.step t call = t.apply engine.allocate engine.idleTimeout (engine.opOf call) := by
  cases call with
  | translateOutbound packet src now =>
    rw [step, opOf]
    cases hkey : engine.flowOf src packet with
    | none =>
      obtain ⟨f, _, heq⟩ := engine.translateOutbound_of_refused t now hkey
      rw [heq]
      rfl
    | some key =>
      rw [engine.translateOutbound_of_flow hkey]
      simp only [Inner.apply]
      rcases t.lookupOrCreate engine.allocate key now with ⟨_ | _, t'⟩ <;> rfl
  | translateInbound packet now =>
    rw [step, opOf]
    cases hreply : engine.replyOf packet with
    | none =>
      obtain ⟨f, _, heq⟩ := engine.translateInbound_of_refused t now hreply
      rw [heq]
      rfl
    | some r =>
      rw [engine.translateInbound_of_reply hreply]
      simp only [Inner.apply]
      rcases t.lookupReverse r.1 r.2 now with ⟨_ | _, t'⟩ <;> rfl
  | cleanupExpired now => rfl

theorem foldl_step_eq (t : Inner κ) (calls : List (Call σ)) :
    calls.foldl engine.step t =
      t.run engine.allocate engine.idleTimeout (calls.map engine.opOf) := by
  induction calls generalizing t with
  | nil => rfl
  | cons call calls ih =>
    rw [List.foldl_cons, ih, table_step]
    rfl

/-! ## The table of both engines -/

theorem consistent_run (calls : List (Call σ)) : Inner.Consistent (engine.run calls) := by
  rw [run, foldl_step_eq]
  exact Inner.consistent_new.run engine.idleTimeout engine.allocate_eq _

/-! ## How a call ends -/

/-- An outbound call of a flow rewrites the packet to the port of the flow, if there is
one. -/
theorem translateOutbound_fst (hc : t.Consistent) (now : Nat)
    (hkey : engine.flowOf src packet = some key) :
    (engine.translateOutbound t packet src now).1 =
      match t.portFor key with
      | some port => (do engine.rewriteSrc port; return port : PacketM UInt16) packet
      | none => .error (.error .conntrackFull) packet := by
  have hfst := Inner.lookupOrCreate_fst engine.allocate_eq hc key now
  rw [engine.translateOutbound_of_flow hkey]
  generalize t.lookupOrCreate engine.allocate key now = r at hfst
  obtain ⟨result, t'⟩ := r
  cases hport : t.portFor key with
  | some port =>
    rw [hport] at hfst
    obtain rfl : result = .ok port := hfst
    rfl
  | none =>
    rw [hport] at hfst
    obtain rfl : result = .error .conntrackFull := hfst
    rfl

theorem translateOutbound_eq_ok_iff (hc : t.Consistent) {port : UInt16} :
    (engine.translateOutbound t packet src now).1 = .ok port packet' ↔
      ∃ key, engine.flowOf src packet = some key ∧ t.portFor key = some port ∧
        engine.rewriteSrc port packet = .ok () packet' := by
  cases hkey : engine.flowOf src packet with
  | none =>
    obtain ⟨f, -, heq⟩ := engine.translateOutbound_of_refused t now hkey
    rw [heq]
    refine iff_of_false (fun h => ?_) ?_
    · cases h
    · rintro ⟨key, hnone, -⟩
      cases hnone
  | some key =>
    rw [engine.translateOutbound_fst hc now hkey]
    constructor
    · intro h
      refine ⟨key, rfl, ?_⟩
      split at h
      · rename_i port' hport
        obtain ⟨rfl, hwrite⟩ := returned_eq_ok_iff.mp h
        exact ⟨hport, hwrite⟩
      · cases h
    · rintro ⟨key', hsome, hport, hwrite⟩
      cases hsome
      rw [hport]
      exact returned_eq_ok_iff.mpr ⟨rfl, hwrite⟩

theorem translateInbound_eq_ok_iff (hc : t.Consistent) {r : ρ} :
    (engine.translateInbound t packet now).1 = .ok r packet' ↔
      ∃ reply key, engine.replyOf packet = some reply ∧ t.reverse.get reply = some key ∧
        r = engine.client key ∧ engine.rewriteDst key packet = .ok () packet' := by
  cases hreply : engine.replyOf packet with
  | none =>
    obtain ⟨f, -, heq⟩ := engine.translateInbound_of_refused t now hreply
    rw [heq]
    refine iff_of_false (fun h => ?_) ?_
    · cases h
    · rintro ⟨reply, key, hnone, -⟩
      cases hnone
  | some reply =>
    rw [engine.translateInbound_of_reply hreply, Inner.lookupReverse]
    cases hrev : t.reverse.get (reply.1, reply.2) with
    | none =>
      refine iff_of_false (fun h => ?_) ?_
      · cases h
      · rintro ⟨reply', key, hsome, hrev', -⟩
        cases hsome
        exact absurd (hrev'.symm.trans hrev) (Option.some_ne_none _)
    | some key =>
      obtain ⟨-, e, he, -⟩ := hc.forward_of_reverse hrev
      simp only [he, hc.flow_eq he, returned_eq_ok_iff]
      constructor
      · intro h
        exact ⟨reply, key, rfl, hrev, h⟩
      · rintro ⟨reply', key', hsome, hrev', h⟩
        cases hsome
        obtain rfl : key = key' := Option.some.inj (hrev.symm.trans hrev')
        exact h

theorem translateOutbound_snd (t : Inner κ) (now : Nat)
    (hkey : engine.flowOf src packet = some key) :
    (engine.translateOutbound t packet src now).2 =
      (t.lookupOrCreate engine.allocate key now).2 := by
  have hstep := engine.table_step t (.translateOutbound packet src now)
  rw [opOf, hkey] at hstep
  exact hstep

end Engine

/-! ## The two engines -/

/-- Key into the forward conntrack map (outbound direction). -/
structure ConntrackKey where
  proto : UInt8
  origSrc : Octets 4
  /-- Source port for TCP and UDP, identifier for ICMP. -/
  origPort : UInt16
  deriving DecidableEq

instance : FlowKey ConntrackKey := ⟨ConntrackKey.proto⟩

structure ConntrackKeyV6 where
  srcId : NodeId
  proto : UInt8
  origSrc : Octets 16
  origPort : UInt16
  deriving DecidableEq

instance : FlowKey ConntrackKeyV6 := ⟨ConntrackKeyV6.proto⟩

/-- Idle timeout of a protocol, given the number of ICMP. -/
def idleTimeout (icmp proto : UInt8) : Nat :=
  if proto = protoTcp then fromSecs 300
  else if proto = protoUdp then fromSecs 30
  else if proto = icmp then fromSecs 10
  else fromSecs 30

/-- `GatewayEngine`. -/
def gatewayEngine (externalIp : Octets 4) : Engine ConntrackKey Unit (Octets 4) where
  allocate := PortPool.allocate
  idleTimeout := idleTimeout protoIcmp
  parseFlow _ := do
    let (proto, srcIp, srcPort) ← parseFlow
    return ⟨proto, srcIp, srcPort⟩
  parseReply := do
    let proto ← ipProtocol
    let dstPort ← transportDstPort proto
    return (proto, dstPort)
  rewriteSrc extPort := rewriteSrc externalIp extPort
  rewriteDst key := rewriteDst key.origSrc key.origPort
  client key := key.origSrc
  allocate_eq _ h := PortPool.allocate_eq h
  parseFlow_ensures _ packet := by
    rw [ensures_bind]
    exact (ensures_parseFlow packet).mono (fun _ _ h => h.1) fun _ _ h => ⟨h.2.1, h.1⟩
  parseReply_ensures packet :=
    (ensures_transportDstPort packet).mono (fun _ _ h => h.1) fun _ _ h => ⟨h.2.1, h.1⟩

/-- `GatewayEngineV6`. -/
def gatewayEngineV6 (externalIp : Octets 16) : Engine ConntrackKeyV6 NodeId NodeId where
  allocate := PortPool.allocateV6
  idleTimeout := idleTimeout protoIcmpV6
  parseFlow srcId := do
    let (proto, srcIp, srcPort) ← parseFlowV6
    return ⟨srcId, proto, srcIp, srcPort⟩
  parseReply := do
    let proto ← ipv6NextHeader
    let dstPort ← transportDstPortV6 proto
    return (proto, dstPort)
  rewriteSrc extPort := rewriteSrcV6 externalIp extPort
  rewriteDst key := rewriteDstV6 key.origSrc key.origPort
  client key := key.srcId
  allocate_eq _ h := PortPool.allocateV6_eq h
  parseFlow_ensures _ packet := by
    rw [ensures_bind]
    exact (ensures_parseFlowV6 packet).mono (fun _ _ h => h.1) fun _ _ h => ⟨h.2.1, h.1⟩
  parseReply_ensures packet :=
    (ensures_transportDstPortV6 packet).mono (fun _ _ h => h.1) fun _ _ h => ⟨h.2.1, h.1⟩

end ProximityMesh.Gateway
