/-
  Daemon/FlowIsolation.lean --- which node a reply of the internet is sent to.

  Source: `ConntrackKey` and `translate_outbound` of crates/pim-gateway/src/engine.rs,
  `run_gateway_return` of crates/pim-daemon/src/gateway_tasks.rs and the internet-bound
  branch of crates/pim-daemon/src/app/event_loop.rs; docs/architecture/packet-flow.md,
  "Return Traffic".

  The IPv4 engine keys a flow by protocol, source address and source port, and a reply is
  sent to the node that the routing table has for the source address.  The id of the node
  that sent the packet is in neither.

  An errand is a task at work on a packet of either direction.  Errands run the code
  (`task_next`), one lock at a time and in any order; `openings` records which packet of
  which node a port was allocated for.
-/
import ProximityMesh.Daemon.Unauthenticated
import ProximityMesh.Gateway.Correctness

set_option autoImplicit false

namespace ProximityMesh.Daemon

open Protocol Transport Crypto Routing ProximityMesh.Task Option

/-! ## Errands -/

/-- The packet that a port was allocated for, and the node it came from. -/
structure Opening where
  srcId : NodeId
  packet : Bytes

/-- A task that is at work on an IPv4 packet to or from the internet, between two of its
steps.  A reply carries what is recorded of the port it came to. -/
inductive Errand where
  /-- An internet-bound packet of a mesh node, before it is translated. -/
  | outbound (srcId : NodeId) (packet : Bytes)
  | emit (outcome : Gateway.Outcome UInt16)
  /-- A packet of the internet link, before it is translated. -/
  | inbound (packet : Bytes)
  /-- Before the lookup of the address it was translated to. -/
  | addressed (opening : Option Opening) (addr : Octets 4) (packet : Bytes)
  /-- Before the lookup of the session. -/
  | routed (opening : Option Opening) (dstId nextHop : NodeId) (packet : Bytes)
  /-- Before it is sent into the mesh. -/
  | sending (opening : Option Opening) (dstId : NodeId) (cell : Nat) (packet : Bytes)
  | done

/-- The engine of a gateway, and what is under way there. -/
structure Border where
  externalIp : Octets 4
  inner : Gateway.Inner Gateway.ConntrackKey
  /-- What each external port was last allocated for. -/
  openings : UInt8 × UInt16 → Option Opening
  errands : List Errand

namespace Border

def engine (b : Border) : Gateway.Engine Gateway.ConntrackKey Unit (Octets 4) :=
  Gateway.gatewayEngine b.externalIp

/-- What is recorded of the port that a reply came to. -/
def openingOf (b : Border) (reply : Bytes) : Option Opening :=
  (b.engine.replyOf reply).bind b.openings

end Border

namespace Errand

section Code

variable [Sha256] [Ed25519] [Aes256Gcm]

/-- What is left to do. -/
def task : Errand → DaemonM Unit
  | outbound _ packet => translateV4 packet
  | emit outcome => sendTranslated outcome
  | inbound packet => returnV4 packet
  | addressed _ addr packet => sendReplyTo addr packet
  | routed _ dstId nextHop packet => sendReply dstId nextHop packet
  | sending _ dstId cell packet => do
      let selfId ← .read fun s => s.config.selfId
      sendMeshData cell selfId dstId 8 .isInternet packet
  | done => pure ()

theorem task_outbound (srcId : NodeId) (packet : Bytes) :
    egressV4 packet = (do
      if ← .read fun s => s.gwEngine.isSome && s.internetLink then
        if (ipv4Destination packet).any isNonUnicast then pure ()
        else (outbound srcId packet).task
      else output (.tun packet)) := rfl

theorem task_inbound {packet : Bytes} (hversion : packetIpVersion packet = some 4)
    (hlen : ¬ packet.length < 20) : runGatewayReturn packet = (inbound packet).task := by
  unfold runGatewayReturn
  rw [hversion]
  exact if_neg hlen

end Code

/-- The call of the engine that the next step makes. -/
def call (now : Nat) : Errand → Option (Gateway.Call Unit)
  | outbound _ packet => some (.translateOutbound packet () now)
  | inbound packet => some (.translateInbound packet now)
  | _ => none

/-- A reply behind its translation. -/
def translated (opening : Option Opening) : Gateway.Outcome (Octets 4) → Errand
  | .ok addr packet => addressed opening addr packet
  | .error _ _ => done

/-- A reply behind the lookup of its address. -/
def located (opening : Option Opening) (packet : Bytes) : Option (NodeId × NodeId) → Errand
  | some (dstId, nextHop) => routed opening dstId nextHop packet
  | none => done

/-- A reply behind the lookup of the session. -/
def linked (opening : Option Opening) (dstId : NodeId) (packet : Bytes) : Option Nat → Errand
  | some cell => sending opening dstId cell packet
  | none => done

/-- What is left behind the next step; nothing is said of the packet that leaves for the
internet, and of the reply that is sent. -/
def next (b : Border) (i : Input) (s : State) : Errand → Option Errand
  | outbound _ packet => some (emit (b.engine.translateOutbound b.inner packet () i.now).1)
  | inbound packet =>
      some (translated (b.openingOf packet) (b.engine.translateInbound b.inner packet i.now).1)
  | addressed opening addr packet =>
      some (located opening packet (s.routing.lookupMeshIp (.fromOctets addr)))
  | routed opening dstId nextHop packet =>
      some (linked opening dstId packet (s.sessions.get nextHop))
  | emit _ | sending .. | done => none

end Errand

namespace Border

def tableAfter (b : Border) : Option (Gateway.Call Unit) → Gateway.Inner Gateway.ConntrackKey
  | some call => b.engine.step b.inner call
  | none => b.inner

end Border

section Code

variable [Sha256] [Ed25519] [Aes256Gcm]

theorem Errand.task_next {b : Border} {i : Input} {s : State} {e e' : Errand}
    (hengine : s.gwEngine = some (b.externalIp, b.inner)) (h : e.next b i s = some e') :
    ∃ act next, e.task = .step act next ∧
      act i s = some { s with gwEngine := some (b.externalIp, b.tableAfter (e.call i.now)) } ∧
      next i s = e'.task := by
  have hkept : { s with gwEngine := some (b.externalIp, b.inner) } = s := by rw [← hengine]
  cases e with
  | outbound srcId packet =>
    cases h
    refine ⟨_, _, rfl, ?_, ?_⟩
    · dsimp only
      rw [hengine]
      rfl
    · dsimp only
      rw [hengine]
      rfl
  | emit outcome => cases h
  | inbound packet =>
    cases h
    refine ⟨_, _, rfl, ?_, ?_⟩
    · dsimp only
      rw [hengine]
      rfl
    · dsimp only
      rw [hengine]
      unfold Border.engine
      cases hout :
        ((Gateway.gatewayEngine b.externalIp).translateInbound b.inner packet i.now).1 with
      | ok addr packet | error f packet =>
        simp only [hout]
        rfl
  | addressed opening addr packet =>
    cases h
    refine ⟨_, _, rfl, congrArg some hkept.symm, ?_⟩
    cases hfound : s.routing.lookupMeshIp (.fromOctets addr) with
    | none | some r =>
      simp only [hfound]
      rfl
  | routed opening dstId nextHop packet =>
    cases h
    refine ⟨_, _, rfl, congrArg some hkept.symm, ?_⟩
    cases hsession : s.sessions.get nextHop with
    | none | some cell =>
      simp only [hsession]
      rfl
  | sending opening dstId cell packet | done => cases h

end Code

/-! ## Runs -/

/-- What can happen at a gateway. -/
inductive Traffic where
  /-- An internet-bound packet of a node is delivered. -/
  | packet (srcId : NodeId) (packet : Bytes)
  /-- The internet link delivers a packet. -/
  | reply (packet : Bytes)
  /-- An errand takes a step in a state of the daemon. -/
  | work (index : Nat) (i : Input) (s : State)
  /-- Idle flows are removed. -/
  | cleanup (now : Nat)

namespace Errand

/-- What a step records: a port that was free and is taken then was allocated for the
packet. -/
def record (b : Border) (now : Nat) (e : Errand) (q : UInt8 × UInt16) : Option Opening :=
  match e with
  | outbound srcId packet =>
      if (b.inner.reverse.get q).isNone && ((b.tableAfter (e.call now)).reverse.get q).isSome then
        some ⟨srcId, packet⟩
      else b.openings q
  | _ => b.openings q

end Errand

/-- The opening of the flow of a reply whose address is looked up next. -/
def Errand.lookedUp : Errand → Option Opening
  | addressed opening _ _ => opening
  | _ => none

namespace Border

/-- What happens then; `none` if there is nothing to do for the errand. -/
def step (b : Border) : Traffic → Option Border
  | .packet srcId packet => some { b with errands := b.errands ++ [.outbound srcId packet] }
  | .reply packet => some { b with errands := b.errands ++ [.inbound packet] }
  | .work index i s => do
      let e ← b.errands[index]?
      let e' ← e.next b i s
      return { b with
        inner := b.tableAfter (e.call i.now)
        openings := e.record b i.now
        errands := b.errands.set index e' }
  | .cleanup now => some { b with inner := b.engine.step b.inner (.cleanupExpired now) }

/-- A gateway that has just started. -/
def start (externalIp : Octets 4) : Border := ⟨externalIp, .new, fun _ => none, []⟩

/-- The runs in which everything that happens meets a condition. -/
inductive Runs (K : Border → Traffic → Prop) : Border → Prop
  | start (externalIp : Octets 4) : Runs K (start externalIp)
  | step {b b' : Border} {t : Traffic} (h : Runs K b) (ht : K b t) (hstep : b.step t = some b') :
      Runs K b'

/-- The routing table has the node that sent the packet for the source address of the
packet, or no node. -/
def Owns (b : Border) (table : RoutingTable) (o : Opening) : Prop :=
  ∀ key ∈ b.engine.flowOf () o.packet,
    ∀ r ∈ table.lookupMeshIp (.fromOctets key.origSrc), r.1 = o.srcId

/-- Whenever the address of a reply is looked up, the routing table has it for the node that
used it as a source address when it opened the flow. -/
def Owned (b : Border) : Traffic → Prop
  | .work index _ s => ∀ e ∈ b.errands[index]?, ∀ o ∈ e.lookedUp, b.Owns s.routing o
  | _ => True

/-! ## Every port in the table has its opening -/

/-- The table is consistent, and every port that leads to a flow was allocated for a packet
of that flow. -/
structure Recorded (b : Border) : Prop where
  consistent : b.inner.Consistent
  opened : ∀ q key, b.inner.reverse.get q = some key →
    ∃ o, b.openings q = some o ∧ b.engine.flowOf () o.packet = some key

theorem recorded_start (externalIp : Octets 4) : (start externalIp).Recorded where
  consistent := Gateway.Inner.consistent_new
  opened := by
    intro q key hget
    cases hget

theorem Recorded.consistent_step {b : Border} (h : b.Recorded) (call : Gateway.Call Unit) :
    (b.engine.step b.inner call).Consistent := by
  rw [b.engine.table_step]
  exact h.consistent.apply b.engine.idleTimeout b.engine.allocate_eq _

/-- A port that leads to a flow behind a call did so before, or the call is that of an
outbound packet of the flow. -/
theorem Recorded.reverse_step {b : Border} (h : b.Recorded) {call : Gateway.Call Unit}
    {q : UInt8 × UInt16} {key : Gateway.ConntrackKey}
    (hget : (b.engine.step b.inner call).reverse.get q = some key) :
    b.inner.reverse.get q = some key ∨ b.inner.reverse.get q = none ∧
      ∃ packet now, call = .translateOutbound packet () now ∧
        b.engine.flowOf () packet = some key := by
  rw [b.engine.table_step] at hget
  rcases Gateway.Inner.reverse_apply b.engine.idleTimeout b.engine.allocate_eq h.consistent _ hget
    with hold | ⟨hfree, now, hop⟩
  · exact .inl hold
  · refine .inr ⟨hfree, ?_⟩
    cases call with
    | translateOutbound packet src now' =>
      rw [Gateway.Engine.opOf] at hop
      split at hop
      · rename_i key' hflow
        obtain ⟨rfl, -⟩ := Gateway.Inner.Op.outbound.inj hop
        exact ⟨packet, now', rfl, hflow⟩
      · cases hop
    | translateInbound packet now' =>
      rw [Gateway.Engine.opOf] at hop
      split at hop
      · cases hop
      · cases hop
    | cleanupExpired now' => cases hop

theorem Recorded.work {b : Border} (h : b.Recorded) (e : Errand) (now : Nat)
    (errands : List Errand) : Recorded { b with
      inner := b.tableAfter (e.call now), openings := e.record b now, errands := errands } := by
  cases e with
  | outbound srcId packet =>
    refine ⟨h.consistent_step (.translateOutbound packet () now), fun q key hget => ?_⟩
    have hget : (b.engine.step b.inner (.translateOutbound packet () now)).reverse.get q =
      some key := hget
    show ∃ o, (if (b.inner.reverse.get q).isNone &&
        ((b.engine.step b.inner (.translateOutbound packet () now)).reverse.get q).isSome
      then some ⟨srcId, packet⟩ else b.openings q) = some o ∧ b.engine.flowOf () o.packet = some key
    rcases h.reverse_step hget with hold | ⟨hfree, packet', now', hcall, hflow⟩
    · rw [hold]
      exact h.opened q key hold
    · -- the port was free: the record is of this packet
      obtain ⟨rfl, -⟩ := Gateway.Call.translateOutbound.inj hcall
      rw [hfree, hget]
      exact ⟨⟨srcId, packet⟩, rfl, hflow⟩
  | inbound packet =>
    refine ⟨h.consistent_step (.translateInbound packet now), fun q key hget => ?_⟩
    rcases h.reverse_step hget with hold | ⟨-, packet', now', hcall, -⟩
    · exact h.opened q key hold
    · cases hcall
  | emit outcome | addressed opening addr packet => exact ⟨h.consistent, h.opened⟩
  | routed opening dstId nextHop packet => exact ⟨h.consistent, h.opened⟩
  | sending opening dstId cell packet | done => exact ⟨h.consistent, h.opened⟩

theorem step_cases {b b' : Border} {t : Traffic} (h : b.step t = some b') :
    (∃ srcId packet, b' = { b with errands := b.errands ++ [.outbound srcId packet] }) ∨
    (∃ packet, b' = { b with errands := b.errands ++ [.inbound packet] }) ∨
    (∃ now, b' = { b with inner := b.engine.step b.inner (.cleanupExpired now) }) ∨
    ∃ index i s e e', t = .work index i s ∧ b.errands[index]? = some e ∧ e.next b i s = some e' ∧
      b' = { b with
        inner := b.tableAfter (e.call i.now), openings := e.record b i.now
        errands := b.errands.set index e' } := by
  cases t with
  | packet srcId packet => exact .inl ⟨srcId, packet, (some.inj h).symm⟩
  | reply packet => exact .inr (.inl ⟨packet, (some.inj h).symm⟩)
  | work index i s =>
    obtain ⟨e, he, h⟩ := bind_eq_some_iff.mp h
    obtain ⟨e', hnext, h⟩ := bind_eq_some_iff.mp h
    exact .inr (.inr (.inr ⟨index, i, s, e, e', rfl, he, hnext, (some.inj h).symm⟩))
  | cleanup now => exact .inr (.inr (.inl ⟨now, (some.inj h).symm⟩))

theorem Recorded.step {b b' : Border} {t : Traffic} (h : b.Recorded) (hstep : b.step t = some b') :
    b'.Recorded := by
  rcases step_cases hstep with ⟨srcId, packet, rfl⟩ | ⟨packet, rfl⟩ | ⟨now, rfl⟩ |
    ⟨index, i, s, e, e', rfl, -, -, rfl⟩
  · exact ⟨h.consistent, h.opened⟩
  · exact ⟨h.consistent, h.opened⟩
  · refine ⟨h.consistent_step (.cleanupExpired now), fun q key hget => ?_⟩
    rcases h.reverse_step hget with hold | ⟨-, packet, now', hcall, -⟩
    · exact h.opened q key hold
    · cases hcall
  · exact h.work e i.now _

/-- What is recorded of the port of a reply that can be translated is a packet of the flow
that the reply is translated to. -/
theorem Recorded.openingOf_reply {b : Border} (h : b.Recorded) {packet packet' : Bytes}
    {now : Nat} {addr : Octets 4}
    (hrun : (b.engine.translateInbound b.inner packet now).1 = .ok addr packet') :
    ∃ o key, b.openingOf packet = some o ∧ b.engine.flowOf () o.packet = some key ∧
      key.origSrc = addr := by
  obtain ⟨reply, key, hreply, hget, haddr, -⟩ :=
    (b.engine.translateInbound_eq_ok_iff h.consistent).mp hrun
  obtain ⟨o, ho, hflow⟩ := h.opened reply key hget
  refine ⟨o, key, ?_, hflow, haddr.symm⟩
  rw [openingOf, hreply]
  exact ho

end Border

/-! ## Replies return to the node that opened the flow -/

/-- A reply that has been translated is addressed as the packet that opened its flow says,
and once it has been looked up it is for the node that sent that packet. -/
def Errand.Homeward (b : Border) : Errand → Prop
  | .addressed opening addr _ => ∃ o key, opening = some o ∧
      b.engine.flowOf () o.packet = some key ∧ key.origSrc = addr
  | .routed opening dstId _ _ | .sending opening dstId _ _ =>
      ∃ o, opening = some o ∧ o.srcId = dstId
  | .outbound .. | .emit _ | .inbound _ | .done => True

theorem Errand.Homeward.next {b : Border} (hb : b.Recorded) {i : Input} {s : State} {e e' : Errand}
    (he : e.Homeward b) (hnext : e.next b i s = some e')
    (hown : ∀ o ∈ e.lookedUp, b.Owns s.routing o) :
    e'.Homeward b := by
  cases e with
  | outbound srcId packet =>
    cases hnext
    trivial
  | emit outcome => cases hnext
  | inbound packet =>
    cases hnext
    cases hrun : (b.engine.translateInbound b.inner packet i.now).1 with
    | ok addr packet' => exact hb.openingOf_reply hrun
    | error f packet' => trivial
  | addressed opening addr packet =>
    cases hnext
    obtain ⟨o, key, rfl, hflow, rfl⟩ := he
    cases hlook : s.routing.lookupMeshIp (.fromOctets key.origSrc) with
    | none => trivial
    | some r => exact ⟨o, rfl, (hown o rfl key hflow r hlook).symm⟩
  | routed opening dstId nextHop packet =>
    cases hnext
    cases s.sessions.get nextHop with
    | none => trivial
    | some cell => exact he
  | sending opening dstId cell packet | done => cases hnext

namespace Border

/-- What holds along a run in which source addresses belong to the nodes that use them. -/
structure Kept (b : Border) : Prop extends b.Recorded where
  homeward : ∀ e ∈ b.errands, e.Homeward b

theorem Kept.step {b b' : Border} {t : Traffic} (h : b.Kept) (ht : b.Owned t)
    (hstep : b.step t = some b') : b'.Kept := by
  refine ⟨h.toRecorded.step hstep, ?_⟩
  -- what an errand says of a gateway depends on its address only
  have hadded : ∀ added : Errand, added.Homeward b → ∀ e ∈ b.errands ++ [added], e.Homeward b := by
    intro added hnew e he
    rcases List.mem_append.mp he with he | he
    · exact h.homeward e he
    · exact List.mem_singleton.mp he ▸ hnew
  rcases step_cases hstep with ⟨srcId, packet, rfl⟩ | ⟨packet, rfl⟩ | ⟨now, rfl⟩ |
    ⟨index, i, s, e, e', rfl, he, hnext, rfl⟩
  · exact hadded (.outbound srcId packet) trivial
  · exact hadded (.inbound packet) trivial
  · exact h.homeward
  · intro other hother
    rcases List.mem_or_eq_of_mem_set hother with hold | rfl
    · exact h.homeward other hold
    · exact Errand.Homeward.next h.toRecorded (h.homeward e (List.mem_of_getElem? he)) hnext
        (ht e he)

theorem Runs.kept {b : Border} (h : Runs Owned b) : b.Kept := by
  induction h with
  | start externalIp => exact ⟨recorded_start externalIp, List.forall_mem_nil _⟩
  | step _ ht hstep ih => exact ih.step ht hstep

end Border

theorem dstId_of_mem_meshFrames {srcId dstId : NodeId} {ttl : UInt8} {flags : DataFlags}
    {payload : Bytes} {fragId : UInt32} {mesh : MeshDataFrame}
    (h : mesh ∈ meshFrames srcId dstId ttl flags payload fragId) : mesh.dstId = dstId := by
  unfold meshFrames at h
  split at h
  · obtain ⟨frag, -, rfl⟩ := List.mem_map.mp h
    rfl
  · rw [List.mem_singleton.mp h]

/-- In every run in which source addresses belong to the nodes that use them, the frames of a
reply are for the node whose packet the port of the reply was allocated for. -/
theorem Border.reply_to_opener {b : Border} (h : Runs Owned b) {opening : Option Opening}
    {dstId : NodeId} {cell : Nat} {packet : Bytes}
    (hsending : .sending opening dstId cell packet ∈ b.errands) :
    ∃ o, opening = some o ∧
      ∀ selfId fragId, ∀ mesh ∈ meshFrames selfId dstId 8 .isInternet packet fragId,
        mesh.dstId = o.srcId := by
  obtain ⟨o, rfl, hdst⟩ := h.kept.homeward _ hsending
  refine ⟨o, rfl, fun selfId fragId mesh hmesh => ?_⟩
  rw [dstId_of_mem_meshFrames hmesh]
  exact hdst.symm

/-! ## Runs that are played -/

namespace Border

instance (b : Border) (t : Traffic) : Decidable (b.Owned t) :=
  match t with
  | .work index _ s =>
    inferInstanceAs (Decidable (∀ e ∈ b.errands[index]?, ∀ o ∈ e.lookedUp,
      ∀ key ∈ b.engine.flowOf () o.packet,
        ∀ r ∈ s.routing.lookupMeshIp (.fromOctets key.origSrc), r.1 = o.srcId))
  | .packet .. | .reply _ | .cleanup _ => isTrue trivial

/-- Where traffic leads, as long as it meets the condition. -/
def play (K : Border → Traffic → Prop) [∀ b t, Decidable (K b t)] :
    List Traffic → Border → Option Border
  | [], b => some b
  | t :: traffic, b => do
      let b' ← b.step t
      if K b t then play K traffic b' else none

theorem runs_of_play {K : Border → Traffic → Prop} [∀ b t, Decidable (K b t)]
    {traffic : List Traffic} {b b' : Border} (h : Runs K b) (hplay : play K traffic b = some b') :
    Runs K b' := by
  induction traffic generalizing b with
  | nil => exact some.inj hplay ▸ h
  | cons t traffic ih =>
    obtain ⟨next, hstep, hrest⟩ := bind_eq_some_iff.mp hplay
    obtain ⟨ht, hrest⟩ := ite_none_right_eq_some.mp hrest
    exact ih (h.step ht hstep) hrest

end Border

/-- The node that opened the flow of a reply, and the node that the reply is sent to. -/
def Errand.ends : Errand → Option (NodeId × NodeId)
  | .sending (some o) dstId _ _ => some (o.srcId, dstId)
  | _ => none

theorem Errand.exists_of_ends {e : Errand} {opener dstId : NodeId}
    (h : e.ends = some (opener, dstId)) :
    ∃ o cell packet, e = .sending (some o) dstId cell packet ∧ o.srcId = opener := by
  unfold ends at h
  split at h
  · rename_i o dstId' cell packet
    cases h
    exact ⟨o, cell, packet, rfl, rfl⟩
  · cases h

theorem Border.exists_runs_of_traffic (K : Border → Traffic → Prop) [∀ b t, Decidable (K b t)]
    (externalIp : Octets 4) (traffic : List Traffic) (opener dstId : NodeId)
    (h : (play K traffic (start externalIp)).any
      (fun b => b.errands.any fun e => e.ends = some (opener, dstId)) = true) :
    ∃ b o cell packet, Runs K b ∧ .sending (some o) dstId cell packet ∈ b.errands ∧
      o.srcId = opener := by
  obtain ⟨b, hplay, hany⟩ := (any_eq_true _ _).mp h
  obtain ⟨e, he, hends⟩ := List.any_eq_true.mp hany
  obtain ⟨o, cell, packet, rfl, ho⟩ := Errand.exists_of_ends (of_decide_eq_true hends)
  exact ⟨b, o, cell, packet, runs_of_play (.start externalIp) hplay, he, ho⟩

/-! ## A gateway with two neighbours -/

section Concrete

open Transparent

def uplinkV4 : Octets 4 := ⟨[192, 0, 2, 1], rfl⟩

/-- A gateway on the way to the internet. -/
def uplinkNode : Boot :=
  { openNode with
    config := { openNode.config with isGateway := true }
    externalIp := some uplinkV4
    internetLink := true }

/-- Victor and Mallory are its neighbours. -/
def uplinkState : State :=
  { uplinkNode.state with
    routing := (uplinkNode.state.routing.addPeer 0 victorId).addPeer 0 malloryId
    sessions := (HashMap.empty.insert victorId 0).insert malloryId 1 }

/-- A UDP datagram from an address to port 53 of 8.8.8.8. -/
def queryFrom (addr : Ipv4Addr) : Bytes :=
  [0x45, 0, 0, 28, 0, 0, 0, 0, 64, 17, 0, 0] ++ addr.octets.toList ++
    [8, 8, 8, 8, 0x13, 0x88, 0, 53, 0, 8, 0, 0]

/-- The reply to the first port of the gateway. -/
def answer : Bytes :=
  [0x45, 0, 0, 28, 0, 0, 0, 0, 64, 17, 0, 0, 8, 8, 8, 8, 192, 0, 2, 1,
    0, 53, 0x75, 0x30, 0, 8, 0, 0]

/-- A node sends a query from Victor's address, and the answer comes back. -/
def askedBy (srcId : NodeId) : List Traffic :=
  [.packet srcId (queryFrom (deriveMeshIpv4 victorId uplinkNode.ipv4Prefix)),
    .work 0 calm uplinkState, .reply answer, .work 1 calm uplinkState,
    .work 1 calm uplinkState, .work 1 calm uplinkState]

/-- Victor asks, and the answer is sent to Victor. -/
theorem Border.reply_to_opener_victor :
    ∃ b o cell packet, Runs Owned b ∧ .sending (some o) victorId cell packet ∈ b.errands ∧
      o.srcId = victorId ∧
      ∃ o', some o = some o' ∧
        ∀ selfId fragId, ∀ mesh ∈ meshFrames selfId victorId 8 .isInternet packet fragId,
          mesh.dstId = o'.srcId := by
  obtain ⟨b, o, cell, packet, hruns, hsending, ho⟩ := exists_runs_of_traffic Owned
    uplinkV4 (askedBy victorId) victorId victorId (by decide +kernel)
  exact ⟨b, o, cell, packet, hruns, hsending, ho, reply_to_opener hruns hsending⟩

/-- Mallory asks in Victor's name, and the answer is sent to Victor. -/
theorem Border.reply_to_stranger :
    ∃ b o cell packet, Runs (fun _ _ => True) b ∧
      .sending (some o) victorId cell packet ∈ b.errands ∧ o.srcId = malloryId ∧
      malloryId ≠ victorId := by
  obtain ⟨b, o, cell, packet, hruns, hsending, ho⟩ := exists_runs_of_traffic (fun _ _ => True)
    uplinkV4 (askedBy malloryId) malloryId victorId (by decide +kernel)
  exact ⟨b, o, cell, packet, hruns, hsending, ho, by decide⟩

end Concrete

end ProximityMesh.Daemon
