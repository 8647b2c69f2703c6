/-
  Gateway/Atomicity.lean --- what a translation that fails leaves behind.

  Source: `translate_outbound` and `translate_inbound` in crates/pim-gateway/src/engine.rs
  and crates/pim-gateway/src/ipv6.rs.

  Both engines look the flow up, and record or stamp its entry, before they rewrite the
  packet.  A call that fails has therefore left everything as it was exactly if it
  failed before the lookup was through, or if the rewrite that failed had nothing to
  change.  The IPv4 rewrite makes all its checks before the first write, and they are
  those of the parser, so it never fails on a packet that has parsed.  The IPv6 rewrite
  checks for the checksum field last, which the parser does not.
-/
import ProximityMesh.Gateway.ChecksumV6

set_option autoImplicit false

namespace ProximityMesh.Gateway

open BufM

/-! ## Tables with the same contents -/

namespace Inner

variable {κ : Type} [DecidableEq κ]

/-- The maps and the port pool have the same contents. -/
structure Same (t t' : Inner κ) : Prop where
  forward : ∀ key, t'.forward.get key = t.forward.get key
  reverse : ∀ reply, t'.reverse.get reply = t.reverse.get reply
  next : t'.ports.next = t.ports.next
  inUse : ∀ port, t'.ports.inUse.get port = t.ports.inUse.get port

theorem Same.refl (t : Inner κ) : t.Same t :=
  ⟨fun _ => rfl, fun _ => rfl, rfl, fun _ => rfl⟩

/-- A stamp is not noticed exactly if the entry has it already. -/
theorem same_stamped_iff {t : Inner κ} {key : κ} {entry : ConntrackEntry κ}
    (h : t.forward.get key = some entry) (now : Nat) :
    t.Same { t with forward := t.forward.insert key { entry with lastSeen := now } } ↔
      entry.lastSeen = now := by
  constructor
  · intro hsame
    have hkey := hsame.forward key
    rw [HashMap.get_insert_self, h] at hkey
    exact (congrArg ConntrackEntry.lastSeen (Option.some.inj hkey)).symm
  · rintro rfl
    refine ⟨fun k => ?_, fun _ => rfl, rfl, fun _ => rfl⟩
    rw [HashMap.get_insert]
    split
    · rename_i hk
      rw [hk, h]
    · rfl

variable [FlowKey κ]

/-- Looking a flow up that has a port leaves the table as it was exactly if the flow has an
entry of this moment. -/
theorem same_lookupOrCreate_iff {allocate : PortPool → Option UInt16 × PortPool}
    (halloc : ∀ pool, PortPool.InRange pool.next → allocate pool = pool.allocated)
    {t : Inner κ} (hc : t.Consistent) {key : κ} {port : UInt16} (hport : t.portFor key = some port)
    (now : Nat) :
    t.Same (t.lookupOrCreate allocate key now).2 ↔
      ∃ entry, t.forward.get key = some entry ∧ entry.lastSeen = now := by
  rcases lookupOrCreate_cases halloc hc key now with
    ⟨entry, hget, heq⟩ | ⟨port', hget, hfree, heq⟩ | ⟨hget, hfree, heq⟩
  · rw [heq, same_stamped_iff hget, hget]
    constructor
    · exact fun hnow => ⟨entry, rfl, hnow⟩
    · rintro ⟨entry', hsome, hnow⟩
      rw [Option.some.inj hsome]
      exact hnow
  · -- a new entry is noticed
    rw [heq, hget]
    refine iff_of_false (fun hsame => ?_) fun ⟨entry, hnone, _⟩ => ?_
    · have hkey := hsame.forward key
      rw [HashMap.get_insert_self, hget] at hkey
      cases hkey
    · cases hnone
  · rw [portFor, hget] at hport
    exact absurd (hport.symm.trans hfree) (Option.some_ne_none _)

end Inner

/-! ## Calls that fail -/

/-- If the call returns an error, the packet and the table are as before. -/
def FailureAtomic {κ α : Type} [DecidableEq κ] (t : Inner κ) (packet : Bytes)
    (call : Outcome α × Inner κ) : Prop :=
  ∀ e packet', call.1 = .error (.error e) packet' → packet' = packet ∧ t.Same call.2

namespace Engine

variable {κ σ ρ : Type} [DecidableEq κ] [FlowKey κ] (engine : Engine κ σ ρ)

theorem returned_eq_error_iff {α : Type} {m : PacketM Unit} {a : α} {f : Fault GatewayError}
    {packet packet' : Bytes} :
    (do m; return a : PacketM α) packet = .error f packet' ↔ m packet = .error f packet' := by
  rw [eq_error_iff_ensures, eq_error_iff_ensures, ensures_bind]
  rfl

/-- An outbound call is failure-atomic exactly if a rewrite that fails finds the entry of its
flow stamped and leaves the packet alone. -/
theorem failureAtomic_translateOutbound_iff {t : Inner κ} (hc : t.Consistent) (packet : Bytes)
    (src : σ) (now : Nat) :
    FailureAtomic t packet (engine.translateOutbound t packet src now) ↔
      ∀ key port e packet', engine.flowOf src packet = some key → t.portFor key = some port →
        engine.rewriteSrc port packet = .error (.error e) packet' →
          packet' = packet ∧ ∃ entry, t.forward.get key = some entry ∧ entry.lastSeen = now := by
  cases hkey : engine.flowOf src packet with
  | none =>
    obtain ⟨f, -, heq⟩ := engine.translateOutbound_of_refused t now hkey
    refine iff_of_true (fun e packet' herror => ?_) fun key port e packet' hnone => by cases hnone
    rw [heq] at herror ⊢
    exact ⟨(EStateM.Result.error.inj herror).2.symm, .refl t⟩
  | some key =>
    cases hport : t.portFor key with
    | none =>
      refine iff_of_true (fun e packet' herror => ?_) fun key' port e packet' hsome hport' => ?_
      · rw [engine.translateOutbound_fst hc now hkey, hport] at herror
        refine ⟨(EStateM.Result.error.inj herror).2.symm, ?_⟩
        rw [engine.translateOutbound_snd t now hkey]
        rcases Inner.lookupOrCreate_cases engine.allocate_eq hc key now with
          ⟨entry, hget, -⟩ | ⟨port, hget, hfree, -⟩ | ⟨-, -, hfull⟩
        · rw [Inner.portFor, hget] at hport
          cases hport
        · rw [Inner.portFor, hget] at hport
          exact absurd (hfree.symm.trans hport) (Option.some_ne_none _)
        · rw [hfull]
          exact .refl t
      · cases hsome
        exact absurd (hport'.symm.trans hport) (Option.some_ne_none _)
    | some port =>
      unfold FailureAtomic
      rw [engine.translateOutbound_fst hc now hkey, hport, engine.translateOutbound_snd t now hkey,
        Inner.same_lookupOrCreate_iff engine.allocate_eq hc hport]
      simp only [returned_eq_error_iff]
      constructor
      · intro h key' port' e packet' hsome hport' herror
        cases hsome
        obtain rfl : port = port' := Option.some.inj (hport.symm.trans hport')
        exact h e packet' herror
      · exact fun h e packet' herror => h key port e packet' rfl hport herror

theorem failureAtomic_translateInbound_iff {t : Inner κ} (hc : t.Consistent) (packet : Bytes)
    (now : Nat) :
    FailureAtomic t packet (engine.translateInbound t packet now) ↔
      ∀ reply key entry e packet', engine.replyOf packet = some reply →
        t.reverse.get reply = some key → t.forward.get key = some entry →
        engine.rewriteDst key packet = .error (.error e) packet' →
          packet' = packet ∧ entry.lastSeen = now := by
  cases hreply : engine.replyOf packet with
  | none =>
    obtain ⟨f, -, heq⟩ := engine.translateInbound_of_refused t now hreply
    refine iff_of_true (fun e packet' herror => ?_)
      fun r key entry e packet' hnone => by cases hnone
    rw [heq] at herror ⊢
    exact ⟨(EStateM.Result.error.inj herror).2.symm, .refl t⟩
  | some reply =>
    unfold FailureAtomic
    rw [engine.translateInbound_of_reply hreply, Inner.lookupReverse]
    cases hrev : t.reverse.get (reply.1, reply.2) with
    | none =>
      refine iff_of_true (fun e packet' herror => ?_) fun r key entry e packet' hsome hrev' => ?_
      · exact ⟨(EStateM.Result.error.inj herror).2.symm, .refl t⟩
      · cases hsome
        exact absurd (hrev'.symm.trans hrev) (Option.some_ne_none _)
    | some key =>
      obtain ⟨-, entry, hentry, -⟩ := hc.forward_of_reverse hrev
      simp only [hentry, returned_eq_error_iff, Inner.same_stamped_iff hentry]
      rw [hc.flow_eq hentry]
      constructor
      · intro h r key' entry' e packet' hsome hrev' hentry' herror
        cases hsome
        obtain rfl : key = key' := Option.some.inj (hrev.symm.trans hrev')
        obtain rfl : entry = entry' := Option.some.inj (hentry.symm.trans hentry')
        exact h e packet' herror
      · exact fun h e packet' herror => h reply key entry e packet' rfl hrev hentry herror

end Engine

/-! ## The two engines -/

variable {addrOff portOff : Nat} {packet : Bytes}

theorem rewriteEndpoint_ne_error (hend : EndpointAt addrOff portOff) (hp : Parses packet)
    (addr : Octets 4) (port : UInt16) (e : GatewayError) (packet' : Bytes) :
    rewriteEndpoint addrOff portOff addr port packet ≠ .error (.error e) packet' := by
  rcases rewriteEndpoint_cases hend addr port hp with ⟨-, -, final, hok, -⟩ | ⟨-, left, hpanic⟩
  · rw [hok]
    exact nofun
  · rw [hpanic]
    exact nofun

/-- The two writes of an IPv6 rewrite change nothing exactly if the end point stands there. -/
theorem rewrittenV6_eq_self_iff (hend : EndpointAtV6 addrOff portOff) (hp : ParsesV6 packet)
    (addr : Octets 16) (port : UInt16) :
    rewrittenV6 addrOff portOff addr port packet = packet ↔
      window packet addrOff 16 = addr.toList ∧ wordAt packet (portAtV6 portOff packet) = port := by
  have haddrLen : addr.toList.length = 16 := List.Vector.toList_length addr
  have hportLe : portAtV6 portOff packet + 2 ≤ packet.length :=
    hp.transport.port_le isIcmp_protoIcmpV6 hend.port_le
  have haddrLe : addrOff + 16 ≤ portAtV6 portOff packet :=
    hend.addr_le.trans (Nat.le_add_right _ _)
  constructor
  · intro heq
    obtain ⟨haddr, hport⟩ :=
      window_patch_patch haddrLen (length_beBytes 2 port.toNat) haddrLe hportLe
    rw [show patch (patch packet addrOff addr.toList) (portAtV6 portOff packet)
      (beBytes 2 port.toNat) = packet from heq] at haddr hport
    exact ⟨haddr, wordAt_eq_of_window hport⟩
  · rintro ⟨haddr, rfl⟩
    have hfirst : patch packet addrOff addr.toList = packet := by
      rw [patch_eq_self_iff, haddrLen]
      · exact haddr
      · omega
    rw [rewrittenV6, hfirst]
    rw [patch_eq_self_iff]
    · exact window_two_eq hportLe
    · exact hportLe

/-- The packet parses and ends before its checksum. -/
structure TruncatedV6 (packet : Bytes) : Prop where
  parses : ParsesV6 packet
  short : packet.length < checksumPosV6 (protoOfV6 packet) + 2

/-- When and with what the IPv6 rewrite of a packet that parses fails. -/
theorem rewriteEndpointV6_eq_error_iff (hend : EndpointAtV6 addrOff portOff) {packet' : Bytes}
    (hp : ParsesV6 packet) {addr : Octets 16} {port : UInt16} {e : GatewayError} :
    rewriteEndpointV6 addrOff portOff addr port packet = .error (.error e) packet' ↔
      TruncatedV6 packet ∧ e = .packetTooShort packet.length ∧
        packet' = rewrittenV6 addrOff portOff addr port packet := by
  rw [rewriteEndpointV6_eq hend hp]
  split
  · rename_i hfits
    refine iff_of_false (fun h => ?_) fun ⟨htrunc, _⟩ => ?_
    · cases h
    · exact absurd hfits (Nat.not_le.mpr htrunc.short)
  · rename_i hshort
    constructor
    · intro h
      obtain ⟨hfault, hleft⟩ := EStateM.Result.error.inj h
      exact ⟨⟨hp, Nat.not_le.mp hshort⟩, (Fault.error.inj hfault).symm, hleft.symm⟩
    · rintro ⟨-, rfl, rfl⟩
      rfl

/-- An outbound packet of a flow that gets a port has the entry of this moment, and carries the
address and port it would be rewritten to. -/
def UnnoticedOutbound (t : Inner ConntrackKeyV6) (externalIp : Octets 16) (packet : Bytes)
    (srcId : NodeId) (now : Nat) : Prop :=
  ∀ key port, (gatewayEngineV6 externalIp).flowOf srcId packet = some key →
    t.portFor key = some port →
    (∃ entry, t.forward.get key = some entry ∧ entry.lastSeen = now) ∧
      window packet 8 16 = externalIp.toList ∧ wordAt packet (portAtV6 0 packet) = port

/-- A reply to a flow has the entry of this moment, and carries the address and port it would be
rewritten to. -/
def UnnoticedInbound (t : Inner ConntrackKeyV6) (externalIp : Octets 16) (packet : Bytes)
    (now : Nat) : Prop :=
  ∀ reply key entry, (gatewayEngineV6 externalIp).replyOf packet = some reply →
    t.reverse.get reply = some key → t.forward.get key = some entry →
    entry.lastSeen = now ∧
      window packet 24 16 = key.origSrc.toList ∧ wordAt packet (portAtV6 2 packet) = key.origPort

/-- From every table a run can reach, the four translations of a packet all leave packet and
table as they were when they fail, exactly if the packet does not end between its ports and
its checksum, or if there is nothing to rewrite and nothing to stamp. -/
theorem translate_failureAtomic_iff (externalIp : Octets 4) (externalIpV6 : Octets 16)
    (calls : List (Call Unit)) (callsV6 : List (Call NodeId)) (packet : Bytes) (srcId : NodeId)
    (now : Nat) :
    (FailureAtomic ((gatewayEngine externalIp).run calls) packet
        ((gatewayEngine externalIp).translateOutbound ((gatewayEngine externalIp).run calls)
          packet () now) ∧
      FailureAtomic ((gatewayEngine externalIp).run calls) packet
        ((gatewayEngine externalIp).translateInbound ((gatewayEngine externalIp).run calls)
          packet now) ∧
      FailureAtomic ((gatewayEngineV6 externalIpV6).run callsV6) packet
        ((gatewayEngineV6 externalIpV6).translateOutbound
          ((gatewayEngineV6 externalIpV6).run callsV6) packet srcId now) ∧
      FailureAtomic ((gatewayEngineV6 externalIpV6).run callsV6) packet
        ((gatewayEngineV6 externalIpV6).translateInbound
          ((gatewayEngineV6 externalIpV6).run callsV6) packet now)) ↔
    (TruncatedV6 packet →
      UnnoticedOutbound ((gatewayEngineV6 externalIpV6).run callsV6) externalIpV6 packet srcId now ∧
        UnnoticedInbound ((gatewayEngineV6 externalIpV6).run callsV6) externalIpV6 packet now) := by
  have hc := (gatewayEngine externalIp).consistent_run calls
  have hcV6 := (gatewayEngineV6 externalIpV6).consistent_run callsV6
  -- the IPv4 engine fails before it has changed anything
  have houtbound :=
    ((gatewayEngine externalIp).failureAtomic_translateOutbound_iff hc packet () now).mpr
    fun key port e packet' hkey _ herror =>
      absurd herror (rewriteEndpoint_ne_error endpointAt_src (parses_of_flowOf hkey) _ _ _ _)
  have hinbound := ((gatewayEngine externalIp).failureAtomic_translateInbound_iff hc packet now).mpr
    fun reply key entry e packet' hreply _ _ herror =>
      absurd herror (rewriteEndpoint_ne_error endpointAt_dst (parses_of_replyOf hreply) _ _ _ _)
  rw [(gatewayEngineV6 externalIpV6).failureAtomic_translateOutbound_iff hcV6,
    (gatewayEngineV6 externalIpV6).failureAtomic_translateInbound_iff hcV6]
  constructor
  · rintro ⟨-, -, hout, hin⟩ htrunc
    constructor
    · intro key port hkey hport
      have hfails : rewriteSrcV6 externalIpV6 port packet = .error (.error (.packetTooShort _)) _ :=
        (rewriteEndpointV6_eq_error_iff endpointAtV6_src htrunc.parses).mpr ⟨htrunc, rfl, rfl⟩
      obtain ⟨hleft, hentry⟩ := hout key port _ _ hkey hport hfails
      exact ⟨hentry, (rewrittenV6_eq_self_iff endpointAtV6_src htrunc.parses _ _).mp hleft⟩
    · intro reply key entry hreply hrev hentry
      have hfails : rewriteDstV6 key.origSrc key.origPort packet =
          .error (.error (.packetTooShort _)) _ :=
        (rewriteEndpointV6_eq_error_iff endpointAtV6_dst htrunc.parses).mpr ⟨htrunc, rfl, rfl⟩
      obtain ⟨hleft, hnow⟩ := hin reply key entry _ _ hreply hrev hentry hfails
      exact ⟨hnow, (rewrittenV6_eq_self_iff endpointAtV6_dst htrunc.parses _ _).mp hleft⟩
  · intro h
    refine ⟨houtbound, hinbound, ?_, ?_⟩
    · intro key port e packet' hkey hport herror
      have hp := parsesV6_of_flowOf hkey
      obtain ⟨htrunc, -, rfl⟩ := (rewriteEndpointV6_eq_error_iff endpointAtV6_src hp).mp herror
      obtain ⟨hentry, hthere⟩ := (h htrunc).1 key port hkey hport
      exact ⟨(rewrittenV6_eq_self_iff endpointAtV6_src hp _ _).mpr hthere, hentry⟩
    · intro reply key entry e packet' hreply hrev hentry herror
      have hp := parsesV6_of_replyOf hreply
      obtain ⟨htrunc, -, rfl⟩ := (rewriteEndpointV6_eq_error_iff endpointAtV6_dst hp).mp herror
      obtain ⟨hnow, hthere⟩ := (h htrunc).2 reply key entry hreply hrev hentry
      exact ⟨(rewrittenV6_eq_self_iff endpointAtV6_dst hp _ _).mpr hthere, hnow⟩

/-- A UDP packet from fd00::1 that ends behind its ports. -/
def portsOnlyPacketV6 : Bytes := queryPacketV6.take 44

/-- It is refused, with a new source address and port, and with a port and an entry taken
for it. -/
theorem portsOnlyPacketV6_leaves_entry :
    ∃ packet', ((gatewayEngineV6 uplinkV6).translateOutbound
        ((gatewayEngineV6 uplinkV6).run []) portsOnlyPacketV6 ⟨Octets.zero 16⟩ 0).1 =
          .error (.error (.packetTooShort 44)) packet' ∧
      packet' ≠ portsOnlyPacketV6 ∧
      ((gatewayEngineV6 uplinkV6).translateOutbound
        ((gatewayEngineV6 uplinkV6).run []) portsOnlyPacketV6 ⟨Octets.zero 16⟩ 0).2.ports.inUse.get
          30000 = some () ∧
      ¬ ((gatewayEngineV6 uplinkV6).run []).Same
        ((gatewayEngineV6 uplinkV6).translateOutbound
          ((gatewayEngineV6 uplinkV6).run []) portsOnlyPacketV6 ⟨Octets.zero 16⟩ 0).2 := by
  refine ⟨_, rfl, by decide +kernel, by decide +kernel, fun hsame => ?_⟩
  have hport := hsame.inUse 30000
  revert hport
  decide +kernel

end ProximityMesh.Gateway
