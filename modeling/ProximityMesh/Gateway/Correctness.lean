/-
  Gateway/Correctness.lean --- what the NAT engines guarantee.

  `NatCorrect` says what a NAT is for: over every sequence of calls the table
  stays consistent, a flow keeps its external port while its entry lives, and a
  translated reply is addressed to exactly the flow that holds the port.  Both
  engines have the first two for all packets.  The third fails in the IPv4
  engine exactly on packets in which a field that is written later lies over the
  destination (`legible_iff`).  Their header length field is below 5, and only
  such packets can make an engine panic (`translate_noPanic_iff`).
-/
import ProximityMesh.Gateway.Engine

set_option autoImplicit false

namespace ProximityMesh.Gateway

open BufM Engine

namespace Engine

variable {κ σ ρ : Type} [DecidableEq κ] [FlowKey κ] (engine : Engine κ σ ρ)

/-- After `calls`, the entry of a flow is there at every moment of `later`: no
cleanup removes it. -/
def HeldSince (calls later : List (Call σ)) (key : κ) : Prop :=
  ∀ done, done <+: later → ∃ e, (engine.run (calls ++ done)).forward.get key = some e

/-- What an engine guarantees over every sequence of calls, for replies that are
`Legal`; `RewritesTo key packet packet'` says that `packet'` is `packet` with the
address and port of the flow as destination. -/
structure NatCorrect (Legal : Bytes → Prop) (RewritesTo : κ → Bytes → Bytes → Prop) : Prop where
  /-- The two maps and the port pool agree. -/
  consistent : ∀ calls, Inner.Consistent (engine.run calls)
  /-- A flow keeps the port it was given while its entry is held. -/
  port_kept : ∀ calls packet src now key extPort packet' later,
    engine.flowOf src packet = some key →
    (engine.translateOutbound (engine.run calls) packet src now).1 = .ok extPort packet' →
    engine.HeldSince (calls ++ [.translateOutbound packet src now]) later key →
    (∃ e, (engine.run (calls ++ [.translateOutbound packet src now] ++ later)).forward.get key =
      some e ∧ e.extPort = extPort) ∧
    ∀ packet₂ src₂ now₂ port₂ packet₂', engine.flowOf src₂ packet₂ = some key →
      (engine.translateOutbound (engine.run (calls ++ [.translateOutbound packet src now] ++ later))
        packet₂ src₂ now₂).1 = .ok port₂ packet₂' → port₂ = extPort
  /-- A reply is rewritten to the one flow that holds its port. -/
  reply_exact : ∀ calls packet now r packet' proto port,
    engine.replyOf packet = some (proto, port) →
    (engine.translateInbound (engine.run calls) packet now).1 = .ok r packet' →
    Legal packet →
    ∃ key, (∀ key', (∃ e, (engine.run calls).forward.get key' = some e ∧ e.extPort = port) ↔
        key' = key) ∧
      FlowKey.proto key = proto ∧ r = engine.client key ∧ RewritesTo key packet packet'

theorem run_append (calls later : List (Call σ)) :
    engine.run (calls ++ later) =
      (engine.run calls).run engine.allocate engine.idleTimeout (later.map engine.opOf) := by
  rw [run, List.foldl_append, foldl_step_eq]
  rfl

/-- An outbound call that succeeds leaves an entry with the port. -/
theorem forward_run_outbound {calls : List (Call σ)} {packet packet' : Bytes} {src : σ} {now : Nat}
    {key : κ} {extPort : UInt16} (hkey : engine.flowOf src packet = some key)
    (hrun : (engine.translateOutbound (engine.run calls) packet src now).1 = .ok extPort packet') :
    ∃ e, (engine.run (calls ++ [.translateOutbound packet src now])).forward.get key = some e ∧
      e.extPort = extPort := by
  rw [run, List.foldl_append]
  show ∃ e, (engine.translateOutbound (engine.run calls) packet src now).2.forward.get key = _ ∧ _
  obtain ⟨key', hkey', hport, -⟩ :=
    (engine.translateOutbound_eq_ok_iff (engine.consistent_run calls)).mp hrun
  obtain rfl : key = key' := Option.some.inj (hkey.symm.trans hkey')
  rw [engine.translateOutbound_snd _ now hkey]
  exact Inner.forward_lookupOrCreate engine.allocate_eq (engine.consistent_run calls) hport now

/-- Every engine keeps ports; what is left to an engine is what its rewriting
does to a reply. -/
theorem natCorrect_of_rewriteDst {Legal : Bytes → Prop} {RewritesTo : κ → Bytes → Bytes → Prop}
    (hrewrite : ∀ key packet packet' r, engine.replyOf packet = some r → Legal packet →
      engine.rewriteDst key packet = .ok () packet' → RewritesTo key packet packet') :
    engine.NatCorrect Legal RewritesTo where
  consistent := engine.consistent_run
  port_kept := by
    intro calls packet src now key extPort packet' later hkey hrun hheld
    obtain ⟨e, he, hport⟩ := engine.forward_run_outbound hkey hrun
    have hheld' : Inner.HeldThroughout engine.allocate engine.idleTimeout
        (engine.run (calls ++ [.translateOutbound packet src now]))
          (later.map engine.opOf) key := by
      intro ops hops
      obtain ⟨done, hdone, rfl⟩ := List.prefix_map_iff.mp hops
      rw [← run_append]
      exact hheld done hdone
    obtain ⟨e', he', hport'⟩ := Inner.extPort_run engine.idleTimeout engine.allocate_eq
      (engine.consistent_run _) _ he hheld'
    rw [← run_append] at he'
    refine ⟨⟨e', he', hport'.trans hport⟩, ?_⟩
    intro packet₂ src₂ now₂ port₂ packet₂' hkey₂ hrun₂
    obtain ⟨key', hkey', hfor, -⟩ :=
      (engine.translateOutbound_eq_ok_iff (engine.consistent_run _)).mp hrun₂
    obtain rfl : key = key' := Option.some.inj (hkey₂.symm.trans hkey')
    rw [Inner.portFor, he'] at hfor
    exact (Option.some.inj hfor).symm.trans (hport'.trans hport)
  reply_exact := by
    intro calls packet now r packet' proto port hreply hrun hlegal
    have hc := engine.consistent_run calls
    obtain ⟨reply, key, hreply', hrev, hr, hwrite⟩ := (engine.translateInbound_eq_ok_iff hc).mp hrun
    obtain rfl : (proto, port) = reply := Option.some.inj (hreply.symm.trans hreply')
    obtain ⟨hproto, e, he, hport⟩ := hc.forward_of_reverse hrev
    refine ⟨key, fun key' => ⟨?_, ?_⟩, hproto.symm, hr,
      hrewrite key packet packet' _ hreply hlegal hwrite⟩
    · rintro ⟨e', he', hport'⟩
      exact hc.extPort_inj he' he (hport'.trans hport.symm)
    · rintro rfl
      exact ⟨e, he, hport⟩

end Engine

/-! ## Destinations of the two engines -/

/-- The destination of an IPv4 packet is the address and port of a flow; the
transport header is where the original packet says. -/
def DestinationIs (key : ConntrackKey) (packet packet' : Bytes) : Prop :=
  window packet' 16 4 = key.origSrc.toList ∧
    wordAt packet' (ihlOf packet + portPos protoIcmp 2 (protoOf packet)) = key.origPort

def DestinationIsV6 (key : ConntrackKeyV6) (packet packet' : Bytes) : Prop :=
  window packet' 24 16 = key.origSrc.toList ∧
    wordAt packet' (ipv6HeaderLen + portPos protoIcmpV6 2 (protoOfV6 packet)) = key.origPort

variable {packet : Bytes}

theorem parses_of_replyOf {externalIp : Octets 4} {r : UInt8 × UInt16}
    (h : (gatewayEngine externalIp).replyOf packet = some r) : Parses packet := by
  obtain ⟨packet', hrun⟩ := parseReply_of_replyOf _ h
  exact ((ensures_transportDstPort packet).of_ok hrun).2.1

theorem parsesV6_of_replyOf {externalIp : Octets 16} {r : UInt8 × UInt16}
    (h : (gatewayEngineV6 externalIp).replyOf packet = some r) : ParsesV6 packet := by
  obtain ⟨packet', hrun⟩ := parseReply_of_replyOf _ h
  exact ((ensures_transportDstPortV6 packet).of_ok hrun).2.1

/-! ## Packets on which the destination is written over -/

/-- Whatever the flow, its address and port are the destination of the rewritten packet. -/
def Addressable (packet : Bytes) : Prop := ∀ (key : ConntrackKey) packet',
  rewriteDst key.origSrc key.origPort packet = .ok () packet' → DestinationIs key packet packet'

section Legible

variable (hp : Parses packet)

include hp

theorem rewriteDst_eq : ∃ (oldAddr : Octets 4) (oldPort : UInt16), ∀ addr port,
    rewriteDst addr port packet = .ok () (transportUpdated (protoOf packet) (ihlOf packet) oldAddr
      addr oldPort port (headerSummed 16 2 addr port packet)) := by
  have hpos : 0 < portAt 2 packet := by
    have hpos := hp.positions
    omega
  obtain ⟨oldAddr, hold, -⟩ := rewriteEndpoint_eq_ok endpointAt_dst (.zero 4) 0 hp hpos
  refine ⟨oldAddr, wordAt packet (portAt 2 packet), fun addr port => ?_⟩
  obtain ⟨oldAddr', hold', heq⟩ := rewriteEndpoint_eq_ok endpointAt_dst addr port hp hpos
  rwa [Octets.ext (hold'.trans hold.symm)] at heq

omit hp in
theorem wordAt_of_addr {addr : Octets 4} (h : window packet 16 4 = addr.toList) {k : Nat}
    (hk : k ≤ 2) : wordAt packet (16 + k) = addrWord addr k := by
  rw [wordAt, byteAt_eq_of_window h (by omega), Nat.add_assoc, byteAt_eq_of_window h (by omega)]
  rfl

variable (h : Addressable packet)

include h

theorem Addressable.destination : ∃ (oldAddr : Octets 4) (oldPort : UInt16), ∀ addr port,
    let packet' := transportUpdated (protoOf packet) (ihlOf packet) oldAddr addr oldPort port
      (headerSummed 16 2 addr port packet)
    window packet' 16 4 = addr.toList ∧ wordAt packet' (portAt 2 packet) = port := by
  obtain ⟨oldAddr, oldPort, heq⟩ := rewriteDst_eq hp
  exact ⟨oldAddr, oldPort, fun addr port => h ⟨0, addr, port⟩ _ (heq addr port)⟩

theorem Addressable.port_apart : portAt 2 packet + 2 ≤ 16 ∨ 20 ≤ portAt 2 packet := by
  by_contra hover
  have hfour : ihlOf packet % 4 = 0 := Nat.mul_mod_left _ 4
  have hpos := hp.positions
  obtain ⟨oldAddr, oldPort, hdest⟩ := h.destination hp
  obtain ⟨haddr, hword⟩ := hdest (.zero 4) 1
  obtain ⟨k, hk, hport⟩ : ∃ k, (k = 0 ∨ k = 2) ∧ portAt 2 packet = 16 + k :=
    ⟨portAt 2 packet - 16, by omega, by omega⟩
  rw [hport, wordAt_of_addr haddr (by omega)] at hword
  rcases hk with rfl | rfl <;> cases hword

theorem Addressable.window_headerSummed (addr : Octets 4) (port : UInt16) :
    window (headerSummed 16 2 addr port packet) 16 4 = addr.toList := by
  obtain ⟨-, hid, hheader⟩ := agreeOutside_headerSummed endpointAt_dst addr port hp
  rw [hheader.window_eq (.inr (by decide)), hid.window_eq (h.port_apart hp).symm,
    window_patch_addr hp]

/-- A header of eight bytes is summed without the port, and the sum is written over it. -/
theorem Addressable.header_apart : portAt 2 packet + 2 ≤ 10 ∨ 12 ≤ portAt 2 packet := by
  by_contra hover
  have hfour : ihlOf packet % 4 = 0 := Nat.mul_mod_left _ 4
  have hpos := hp.positions
  obtain ⟨oldAddr, oldPort, hdest⟩ := h.destination hp
  have hconst port : port = foldChecksum (onesComplementSum (window packet 0 8)) := by
    have hword := (hdest (.zero 4) port).2
    obtain ⟨haddr, hport, -⟩ := agreeOutside_headerSummed endpointAt_dst (.zero 4) port hp
    have hfits : 10 + 2 ≤ (rewritten 16 2 (.zero 4) port packet).length := by
      rw [length_rewritten endpointAt_dst _ _ hp]
      exact le_trans (by decide) hp.header
    have hclear : AgreeOutside 10 (10 + 2) (rewritten 16 2 (.zero 4) port packet)
        (patch (rewritten 16 2 (.zero 4) port packet) 10 [0, 0]) := agreeOutside_patch rfl hfits
    rw [show portAt 2 packet = 10 by omega,
      wordAt_of_agreeOutside (agreeOutside_transportUpdated ..) (by omega), headerSummed, summed,
      wordAt_patch_self _ hfits, show ihlOf packet = 8 by omega,
      hclear.window_eq (.inl (by decide)), hport.window_eq (.inl (by omega)),
      haddr.window_eq (.inl (by decide))] at hword
    exact hword.symm
  exact absurd ((hconst 0).trans (hconst 1).symm) (by decide)

omit hp h in
/-- The increment does not depend on a word that is both the old checksum and in the new
address. -/
theorem adjusted_one_eq_two (oldAddr : Octets 4) (oldPort : UInt16) :
    adjusted 1 oldAddr ⟨[0, 1, 0, 0], rfl⟩ oldPort 0 =
        adjusted 2 oldAddr ⟨[0, 2, 0, 0], rfl⟩ oldPort 0 ∧
      adjusted 1 oldAddr ⟨[0, 0, 0, 1], rfl⟩ oldPort 0 =
        adjusted 2 oldAddr ⟨[0, 0, 0, 2], rfl⟩ oldPort 0 := by
  have hfirst (a b c : UInt32) :
      65534 + a + 1 + b + 0 + c + 0 = 65533 + a + 2 + b + 0 + c + 0 := by
    grind
  have hsecond (a b c : UInt32) :
      65534 + a + 0 + b + 1 + c + 0 = 65533 + a + 0 + b + 2 + c + 0 := by
    grind
  exact ⟨congrArg foldChecksum (hfirst ..), congrArg foldChecksum (hsecond ..)⟩

/-- A checksum over the address is the word of the address that it is written over. -/
theorem Addressable.checksum_over : ∃ (oldAddr : Octets 4) (oldPort : UInt16),
    ∀ (addr : Octets 4) (k : Nat), k ≤ 2 → checksumPos (protoOf packet) (ihlOf packet) = 16 + k →
      wordAt (transportSummed (protoOf packet) (ihlOf packet) oldAddr addr oldPort 0
        (headerSummed 16 2 addr 0 packet)) (16 + k) = addrWord addr k := by
  obtain ⟨oldAddr, oldPort, hdest⟩ := h.destination hp
  refine ⟨oldAddr, oldPort, fun addr k hk hat => ?_⟩
  have hword := wordAt_of_addr (hdest addr 0).1 hk
  have hlen := length_headerSummed endpointAt_dst addr 0 hp
  have hheader : 20 ≤ packet.length := hp.header
  rwa [transportUpdated, if_pos ⟨hp.checksumOffset_isSome, by omega⟩] at hword

theorem Addressable.increment_apart (hproto : protoOf packet ≠ protoIcmp) :
    checksumPos (protoOf packet) (ihlOf packet) + 2 ≤ 16 ∨
      20 ≤ checksumPos (protoOf packet) (ihlOf packet) := by
  by_contra hover
  have hfour : ihlOf packet % 4 = 0 := Nat.mul_mod_left _ 4
  have hheader : 20 ≤ packet.length := hp.header
  obtain ⟨oldAddr, oldPort, hwritten⟩ := h.checksum_over hp
  have hword (addr : Octets 4) {k : Nat} {w : UInt16} (hk : k ≤ 2) (hw : addrWord addr k = w)
      (hne : w ≠ 0) (hat : checksumPos (protoOf packet) (ihlOf packet) = 16 + k) :
      adjusted w oldAddr addr oldPort 0 = w := by
    have hsum := hwritten addr k hk hat
    have hroom := length_headerSummed endpointAt_dst addr 0 hp
    rw [transportSummed, if_neg hproto, hat, wordAt_of_addr (h.window_headerSummed hp addr 0) hk,
      hw, if_neg fun hzero => hne hzero.1] at hsum
    exact (wordAt_patch_self _ (by omega)).symm.trans hsum
  obtain ⟨hfirst, hsecond⟩ := adjusted_one_eq_two oldAddr oldPort
  rcases hp.positions with ⟨-, -, htcp | hudp⟩ | ⟨hicmp, -⟩
  · have hone := hword ⟨[0, 1, 0, 0], rfl⟩ (Nat.zero_le 2) rfl (by decide) (by omega)
    have htwo := hword ⟨[0, 2, 0, 0], rfl⟩ (Nat.zero_le 2) rfl (by decide) (by omega)
    exact absurd (hone.symm.trans (hfirst.trans htwo)) (by decide)
  · have hone := hword ⟨[0, 0, 0, 1], rfl⟩ le_rfl rfl (by decide) (by omega)
    have htwo := hword ⟨[0, 0, 0, 2], rfl⟩ le_rfl rfl (by decide) (by omega)
    exact absurd (hone.symm.trans (hsecond.trans htwo)) (by decide)
  · exact hproto hicmp

/-- The ICMP checksum is summed with its field cleared. -/
theorem Addressable.sum_apart (hproto : protoOf packet = protoIcmp) :
    checksumPos (protoOf packet) (ihlOf packet) + 2 ≤ 16 ∨
      20 ≤ checksumPos (protoOf packet) (ihlOf packet) := by
  by_contra hover
  have hfour : ihlOf packet % 4 = 0 := Nat.mul_mod_left _ 4
  have hfits : portAt 2 packet + 2 ≤ packet.length := hp.port_le le_rfl
  obtain ⟨oldAddr, oldPort, hwritten⟩ := h.checksum_over hp
  obtain ⟨hnot, -⟩ | ⟨-, hport, hat⟩ := hp.positions
  · exact hnot hproto
  obtain ⟨hihl, hport, hat⟩ : ihlOf packet = 16 ∧ portAt 2 packet = 20 ∧
      checksumPos (protoOf packet) (ihlOf packet) = 18 := by omega
  have hword (w : UInt8) : u16FromBe 0 w = foldChecksum (onesComplementSum
      ([0, 0] ++ ([0, 0] ++ (beBytes 2 0 ++ window packet 22 (packet.length - 22))))) := by
    obtain ⟨addr, hbytes⟩ : ∃ addr : Octets 4, addr.toList = [0, 0, 0, w] := ⟨⟨_, rfl⟩, rfl⟩
    have hsum := hwritten addr 2 le_rfl hat
    have haddr := h.window_headerSummed hp addr 0
    have hlength := length_headerSummed endpointAt_dst addr 0 hp
    obtain ⟨haddress, hid, hheader⟩ := agreeOutside_headerSummed endpointAt_dst addr 0 hp
    have hself : window (rewritten 16 2 addr 0 packet) (portAt 2 packet) 2 = beBytes 2 0 :=
      window_patch_self (haddress.length_eq ▸ hfits)
    rw [hport] at hid hself
    rw [transportSummed, if_pos hproto, summed, hat, hihl, hlength, addrWord, hbytes] at hsum
    generalize headerSummed 16 2 addr 0 packet = mid at hsum hheader haddr hlength
    have hroom : 18 + 2 ≤ mid.length := by omega
    have hclear : AgreeOutside 18 (18 + 2) mid (patch mid 18 [0, 0]) := agreeOutside_patch rfl hroom
    have hcleared : window (patch mid 18 [0, 0]) 18 2 = [0, 0] := window_patch_self hroom
    have hfirst : window mid 16 2 = [0, 0] := by
      rw [← window_window (n := 4) (p := 0) (by decide), haddr, hbytes]
      rfl
    have hrest : window mid 22 (packet.length - 22) = window packet 22 (packet.length - 22) := by
      rw [hheader.window_eq (.inr (by decide)), hid.window_eq (.inr (by decide)),
        haddress.window_eq (.inr (by decide))]
    rw [wordAt_patch_self _ hroom,
      show packet.length - 16 = 2 + (2 + (2 + (packet.length - 22))) by omega,
      ← window_append_window rfl, ← window_append_window rfl, ← window_append_window rfl, hcleared,
      hclear.window_eq (.inl (by decide)), hclear.window_eq (.inr (by decide)), hfirst,
      hclear.window_eq (.inr (by decide)), hrest, hheader.window_eq (.inr (by decide)),
      hself] at hsum
    exact hsum.symm
  exact absurd ((hword 1).trans (hword 2).symm) (by decide)

end Legible

theorem legible_iff (hp : Parses packet) : Legible packet ↔ Addressable packet := by
  refine ⟨fun h key packet' hrun => rewriteDst_destination hp h hrun,
    fun h => ⟨h.port_apart hp, h.header_apart hp, ?_⟩⟩
  by_cases hproto : protoOf packet = protoIcmp
  · exact h.sum_apart hp hproto
  · exact h.increment_apart hp hproto

/-- Both engines are correct NATs, the IPv4 engine on legible replies.  These are exactly the
packets that no flow is misaddressed in. -/
theorem natCorrect_of_legible (externalIp : Octets 4) (externalIpV6 : Octets 16) :
    (gatewayEngine externalIp).NatCorrect Legible DestinationIs ∧
      (gatewayEngineV6 externalIpV6).NatCorrect (fun _ => True) DestinationIsV6 ∧
      ∀ packet, Parses packet → (Legible packet ↔ Addressable packet) := by
  refine ⟨natCorrect_of_rewriteDst _ fun key packet packet' r hreply hlegible hrun => ?_,
    natCorrect_of_rewriteDst _ fun key packet packet' r hreply _ hrun => ?_, fun _ => legible_iff⟩
  · exact rewriteDst_destination (parses_of_replyOf hreply) hlegible hrun
  · exact rewriteDstV6_destination (parsesV6_of_replyOf hreply) hrun

/-! ## Replies to a flow that is served -/

namespace Engine

variable {κ σ ρ : Type} [DecidableEq κ] [FlowKey κ] (engine : Engine κ σ ρ)

/-- A packet of a flow was translated to an external port, and the entry of the flow
has been there since; `t` is the table now. -/
def Serves (t : Inner κ) (src : σ) (key : κ) (port : UInt16) : Prop :=
  ∃ calls packet now packet' later, engine.flowOf src packet = some key ∧
    (engine.translateOutbound (engine.run calls) packet src now).1 = .ok port packet' ∧
    engine.HeldSince (calls ++ [.translateOutbound packet src now]) later key ∧
    t = engine.run (calls ++ [.translateOutbound packet src now] ++ later)

variable {src : σ} {key : κ} {port : UInt16}

/-- A flow is served once its first packet is translated. -/
theorem serves_run {calls : List (Call σ)} {packet packet' : Bytes} {now : Nat}
    (hkey : engine.flowOf src packet = some key)
    (hrun : (engine.translateOutbound (engine.run calls) packet src now).1 = .ok port packet') :
    engine.Serves (engine.run (calls ++ [.translateOutbound packet src now])) src key port := by
  refine ⟨calls, packet, now, packet', [], hkey, hrun, ?_, by rw [List.append_nil]⟩
  intro done hdone
  obtain ⟨e, he, -⟩ := engine.forward_run_outbound hkey hrun
  rw [List.prefix_nil.mp hdone, List.append_nil]
  exact ⟨e, he⟩

theorem Serves.reverse {t : Inner κ} (h : engine.Serves t src key port) :
    t.Consistent ∧ t.reverse.get (FlowKey.proto key, port) = some key := by
  obtain ⟨calls, packet, now, packet', later, hkey, hrun, hheld, rfl⟩ := h
  have hnat : engine.NatCorrect (fun _ => False) (fun _ _ _ => True) :=
    engine.natCorrect_of_rewriteDst fun _ _ _ _ _ _ _ => trivial
  obtain ⟨⟨e, he, rfl⟩, -⟩ := hnat.port_kept _ _ _ _ _ _ _ _ hkey hrun hheld
  have hc := hnat.consistent (calls ++ [.translateOutbound packet src now] ++ later)
  exact ⟨hc, hc.reverse_of_forward he⟩

/-- A reply to the port of a flow that is served is rewritten to the flow. -/
theorem Serves.translateInbound_eq_ok_iff {t : Inner κ} (h : engine.Serves t src key port)
    {reply packet' : Bytes} {now : Nat} {r : ρ}
    (hreply : engine.replyOf reply = some (FlowKey.proto key, port)) :
    (engine.translateInbound t reply now).1 = .ok r packet' ↔
      r = engine.client key ∧ engine.rewriteDst key reply = .ok () packet' := by
  obtain ⟨hc, hrev⟩ := h.reverse
  rw [engine.translateInbound_eq_ok_iff hc]
  constructor
  · rintro ⟨q, key', hq, hget, hr, hwrite⟩
    obtain rfl := Option.some.inj (hreply.symm.trans hq)
    obtain rfl := Option.some.inj (hrev.symm.trans hget)
    exact ⟨hr, hwrite⟩
  · rintro ⟨hr, hwrite⟩
    exact ⟨_, key, hreply, hrev, hr, hwrite⟩

end Engine

/-- What a rewritten destination leaves as it was: the first byte and the length. -/
theorem rewriteDst_head {addr : Octets 4} {port : UInt16} {packet' : Bytes} (hp : Parses packet)
    (hihl : ipHeaderMin ≤ ihlOf packet) (hrun : rewriteDst addr port packet = .ok () packet') :
    byteAt packet' 0 = byteAt packet 0 ∧ packet'.length = packet.length := by
  obtain ⟨mid, hmid, hfinal⟩ := agreeOutside_rewriteEndpoint endpointAt_dst _ _ hp hrun
  obtain ⟨haddr, hport⟩ := agreeOutside_rewritten endpointAt_dst addr port hp
  have hportGe : ihlOf packet ≤ portAt 2 packet := Nat.le_add_right _ _
  have hpos := hp.positions
  have hmin : ipHeaderMin = 20 := rfl
  constructor
  · calc byteAt packet' 0
        = byteAt mid 0 := hfinal.byteAt_eq (.inl (by omega))
      _ = byteAt (rewritten 16 2 addr port packet) 0 := hmid.byteAt_eq (.inl (by omega))
      _ = byteAt (patch packet 16 addr.toList) 0 := hport.byteAt_eq (.inl (by omega))
      _ = byteAt packet 0 := haddr.byteAt_eq (.inl (by omega))
  · rw [hfinal.length_eq, hmid.length_eq, hport.length_eq, haddr.length_eq]

theorem byteAt_zero_rewriteDstV6 {addr : Octets 16} {port : UInt16} {packet' : Bytes}
    (hp : ParsesV6 packet) (hrun : rewriteDstV6 addr port packet = .ok () packet') :
    byteAt packet' 0 = byteAt packet 0 := by
  obtain ⟨-, -, hfinal⟩ := agreeOutside_rewriteEndpointV6 endpointAtV6_dst hp hrun
  obtain ⟨haddr, hport⟩ := agreeOutside_rewrittenV6 endpointAtV6_dst hp addr port
  obtain ⟨field, -, hpos, -⟩ := checksumOffsetV6_eq hp.translated
  have hmin : ipv6HeaderLen = 40 := rfl
  have hportGe : ipv6HeaderLen ≤ portAtV6 2 packet := Nat.le_add_right _ _
  calc byteAt packet' 0
      = byteAt (rewrittenV6 24 2 addr port packet) 0 := hfinal.byteAt_eq (.inl (by omega))
    _ = byteAt (patch packet 24 addr.toList) 0 := hport.byteAt_eq (.inl (by omega))
    _ = byteAt packet 0 := haddr.byteAt_eq (.inl (by omega))

/-- A reply whose header length field is 4 reads its port from the last two
bytes of the destination address; the port of the flow is written over them. -/
theorem short_header_not_natCorrect :
    ¬ (gatewayEngine ⟨[192, 0, 2, 1], rfl⟩).NatCorrect (fun _ => True) DestinationIs := by
  intro h
  let flow : ConntrackKey := ⟨17, ⟨[10, 0, 0, 1], rfl⟩, 12345⟩
  let outbound : Bytes := [0x45, 0, 0, 28, 0, 0, 0, 0, 64, 17, 0, 0, 10, 0, 0, 1, 8, 8, 8, 8,
    0x30, 0x39, 0, 53, 0, 8, 0, 0]
  let reply : Bytes := [0x44, 0, 0, 20, 0, 0, 0, 0, 64, 17, 0, 0, 8, 8, 8, 8, 192, 0, 0x75, 0x30]
  let reply' : Bytes := [0x44, 0, 0, 20, 0, 0, 0, 0, 64, 17, 0x6b, 0xca, 8, 8, 8, 8, 10, 0, 0x30,
    0x39]
  obtain ⟨key, hkey, _, _, hdest⟩ := h.reply_exact [.translateOutbound outbound () 0] reply 1
    flow.origSrc reply' 17 30000 (by decide +kernel) (by decide +kernel) trivial
  obtain rfl : flow = key := (hkey flow).mp ⟨⟨30000, 0, flow⟩, by decide +kernel, rfl⟩
  exact absurd hdest.1 (by decide)

/-! ## Calls that do not panic -/

/-- The call returned, with a result or an error. -/
def Returns {α : Type} (outcome : Outcome α) : Prop := ∀ packet', outcome ≠ .error .panic packet'

namespace Engine

variable {κ σ ρ : Type} [DecidableEq κ] [FlowKey κ] (engine : Engine κ σ ρ)

theorem returns_seq_iff {α : Type} (m : PacketM Unit) (a : α) (packet : Bytes) :
    Returns ((do m; return a : PacketM α) packet) ↔ NoPanic m packet := by
  show NoPanic (do m; return a) packet ↔ _
  rw [noPanic_iff_ensures, noPanic_iff_ensures, ensures_bind]
  rfl

/-- An outbound call returns exactly when rewriting the packet to the port of its
flow does. -/
theorem returns_translateOutbound_iff {t : Inner κ} (hc : Inner.Consistent t) (packet : Bytes)
    (src : σ) (now : Nat) :
    Returns (engine.translateOutbound t packet src now).1 ↔
      ∀ key port, engine.flowOf src packet = some key → t.portFor key = some port →
        NoPanic (engine.rewriteSrc port) packet := by
  cases hkey : engine.flowOf src packet with
  | none =>
    obtain ⟨f, hf, heq⟩ := engine.translateOutbound_of_refused t now hkey
    rw [heq]
    refine iff_of_true ?_ fun key port hnone => by cases hnone
    intro packet' hpanic
    exact hf (EStateM.Result.error.inj hpanic).1
  | some key =>
    rw [engine.translateOutbound_fst hc now hkey]
    split
    · rename_i port hport
      rw [returns_seq_iff]
      constructor
      · rintro h key' port' hsome hport'
        cases hsome
        obtain rfl : port = port' := Option.some.inj (hport.symm.trans hport')
        exact h
      · exact fun h => h key port rfl hport
    · rename_i hport
      refine iff_of_true ?_ ?_
      · intro packet' hpanic
        cases hpanic
      · intro key' port hsome hport'
        cases hsome
        exact absurd (hport'.symm.trans hport) (Option.some_ne_none _)

omit [FlowKey κ] in
/-- An inbound call returns when rewriting the packet never panics. -/
theorem returns_translateInbound (t : Inner κ) (packet : Bytes) (now : Nat)
    (hrewrite : ∀ key r, engine.replyOf packet = some r → NoPanic (engine.rewriteDst key) packet) :
    Returns (engine.translateInbound t packet now).1 := by
  cases hreply : engine.replyOf packet with
  | none =>
    obtain ⟨f, hf, heq⟩ := engine.translateInbound_of_refused t now hreply
    rw [heq]
    intro packet' hpanic
    exact hf (EStateM.Result.error.inj hpanic).1
  | some r =>
    rw [engine.translateInbound_of_reply hreply]
    rcases t.lookupReverse r.1 r.2 now with ⟨e | entry, t'⟩
    · intro packet' hpanic
      cases hpanic
    · exact (returns_seq_iff _ _ _).mpr (hrewrite entry.flow r hreply)

end Engine

theorem parses_of_flowOf {externalIp : Octets 4} {key : ConntrackKey}
    (h : (gatewayEngine externalIp).flowOf () packet = some key) : Parses packet := by
  obtain ⟨packet', hrun⟩ := parseFlow_of_flowOf _ h
  have hens : Ensures ((gatewayEngine externalIp).parseFlow ()) packet
      (fun _ _ => Parses packet) (fun _ _ => True) := by
    refine (ensures_bind _ _ _ _ _).mpr ((ensures_parseFlow packet).mono ?_ fun _ _ _ => trivial)
    exact fun _ _ hp => hp.2.1
  exact hens.of_ok hrun

theorem parsesV6_of_flowOf {externalIp : Octets 16} {srcId : NodeId} {key : ConntrackKeyV6}
    (h : (gatewayEngineV6 externalIp).flowOf srcId packet = some key) : ParsesV6 packet := by
  obtain ⟨packet', hrun⟩ := parseFlow_of_flowOf _ h
  have hens : Ensures ((gatewayEngineV6 externalIp).parseFlow srcId) packet
      (fun _ _ => ParsesV6 packet) (fun _ _ => True) := by
    refine (ensures_bind _ _ _ _ _).mpr ((ensures_parseFlowV6 packet).mono ?_ fun _ _ _ => trivial)
    exact fun _ _ hp => hp.2.1
  exact hens.of_ok hrun

/-- A rewrite returns exactly when the header length it reads again still fits
the packet. -/
theorem noPanic_rewriteEndpoint_iff {addrOff portOff : Nat} (hend : EndpointAt addrOff portOff)
    (addr : Octets 4) (port : UInt16) (hp : Parses packet) :
    NoPanic (rewriteEndpoint addrOff portOff addr port) packet ↔
      ihlOf (rewritten addrOff portOff addr port packet) ≤ packet.length := by
  unfold NoPanic
  rcases rewriteEndpoint_cases hend addr port hp with
    ⟨hle, -, final, hok, -⟩ | ⟨hlong, left, herror⟩
  · rw [hok]
    exact iff_of_true nofun hle
  · rw [herror]
    exact iff_of_false (fun h => h left rfl) hlong

/-- The header length is zero and the port of the flow is written over it: the
packet is shorter than the header length this makes. -/
def PortOverHeader (t : Inner ConntrackKey) (externalIp : Octets 4) (packet : Bytes) : Prop :=
  ihlOf packet = 0 ∧ (protoOf packet = protoTcp ∨ protoOf packet = protoUdp) ∧
    ∃ key port, (gatewayEngine externalIp).flowOf () packet = some key ∧
      t.portFor key = some port ∧ packet.length < port.toNat / 256 % 16 * 4

theorem noPanic_rewriteSrc_iff (externalIp : Octets 4) (port : UInt16) (hp : Parses packet) :
    NoPanic (rewriteSrc externalIp port) packet ↔
      ¬ (ihlOf packet = 0 ∧ (protoOf packet = protoTcp ∨ protoOf packet = protoUdp) ∧
        packet.length < port.toNat / 256 % 16 * 4) := by
  unfold rewriteSrc
  rw [noPanic_rewriteEndpoint_iff endpointAt_src externalIp port hp]
  rcases Nat.eq_zero_or_pos (ihlOf packet + portPos protoIcmp 0 (protoOf packet)) with hpos | hpos
  · rw [ihlOf_rewritten_zero endpointAt_src externalIp port hp hpos]
    have hproto : protoOf packet = protoTcp ∨ protoOf packet = protoUdp := by
      rcases hp.transport with ⟨h, _⟩ | ⟨h, _⟩
      · exact h
      · rw [portPos, if_pos h] at hpos
        omega
    have hzero : ihlOf packet = 0 := by omega
    simp [hzero, hproto]
  · rw [ihlOf_rewritten endpointAt_src externalIp port hp hpos]
    refine iff_of_true ?_ ?_
    · rcases hp.transport with ⟨_, hlen⟩ | ⟨_, hlen⟩ <;> omega
    · rintro ⟨hzero, htcp, _⟩
      have hnot : protoOf packet ≠ protoIcmp := by
        rcases htcp with h | h <;> rw [h] <;> decide
      rw [portPos, if_neg hnot] at hpos
      omega

theorem exists_rewriteDst (addr : Octets 4) (port : UInt16) (hp : Parses packet) :
    ∃ packet', rewriteDst addr port packet = .ok () packet' := by
  obtain ⟨oldAddr, oldPort, heq⟩ := rewriteDst_eq hp
  exact ⟨_, heq addr port⟩

theorem noPanic_rewriteDst (addr : Octets 4) (port : UInt16) (hp : Parses packet) :
    NoPanic (rewriteDst addr port) packet := by
  obtain ⟨packet', heq⟩ := exists_rewriteDst addr port hp
  intro left hpanic
  cases heq.symm.trans hpanic

theorem noPanic_rewriteEndpointV6 {addrOff portOff : Nat} (hend : EndpointAtV6 addrOff portOff)
    (addr : Octets 16) (port : UInt16) (hp : ParsesV6 packet) :
    NoPanic (rewriteEndpointV6 addrOff portOff addr port) packet := by
  intro left
  rw [rewriteEndpointV6_eq hend hp]
  split
  · exact nofun
  · exact nofun

/-- From every table a run can reach, the four translations of a packet all
return exactly when the packet is not one whose header length is zero and whose
external port, written over the first two bytes, makes a header longer than the
packet. -/
theorem translate_noPanic_iff (externalIp : Octets 4) (externalIpV6 : Octets 16)
    (calls : List (Call Unit)) (callsV6 : List (Call NodeId)) (packet : Bytes) (srcId : NodeId)
    (now : Nat) :
    (Returns ((gatewayEngine externalIp).translateOutbound
        ((gatewayEngine externalIp).run calls) packet () now).1 ∧
      Returns ((gatewayEngine externalIp).translateInbound
        ((gatewayEngine externalIp).run calls) packet now).1 ∧
      Returns ((gatewayEngineV6 externalIpV6).translateOutbound
        ((gatewayEngineV6 externalIpV6).run callsV6) packet srcId now).1 ∧
      Returns ((gatewayEngineV6 externalIpV6).translateInbound
        ((gatewayEngineV6 externalIpV6).run callsV6) packet now).1) ↔
    ¬ PortOverHeader ((gatewayEngine externalIp).run calls) externalIp packet := by
  have hinbound := returns_translateInbound (gatewayEngine externalIp)
    ((gatewayEngine externalIp).run calls) packet now fun key r hreply =>
      noPanic_rewriteDst key.origSrc key.origPort (parses_of_replyOf hreply)
  have hinboundV6 := returns_translateInbound (gatewayEngineV6 externalIpV6)
    ((gatewayEngineV6 externalIpV6).run callsV6) packet now fun key r hreply =>
      noPanic_rewriteEndpointV6 endpointAtV6_dst key.origSrc key.origPort
        (parsesV6_of_replyOf hreply)
  have houtboundV6 := (returns_translateOutbound_iff (gatewayEngineV6 externalIpV6)
    ((gatewayEngineV6 externalIpV6).consistent_run callsV6) packet srcId now).mpr
      fun key port hkey _ =>
        noPanic_rewriteEndpointV6 endpointAtV6_src externalIpV6 port
          (parsesV6_of_flowOf hkey)
  rw [returns_translateOutbound_iff (gatewayEngine externalIp)
    ((gatewayEngine externalIp).consistent_run calls) packet () now]
  constructor
  · rintro ⟨hout, _⟩ ⟨hzero, htcp, key, port, hkey, hport, hshort⟩
    exact (noPanic_rewriteSrc_iff externalIp port (parses_of_flowOf hkey)).mp
      (hout key port hkey hport) ⟨hzero, htcp, hshort⟩
  · intro hnot
    refine ⟨fun key port hkey hport => ?_, hinbound, houtboundV6, hinboundV6⟩
    refine (noPanic_rewriteSrc_iff externalIp port (parses_of_flowOf hkey)).mpr ?_
    rintro ⟨hzero, htcp, hshort⟩
    exact hnot ⟨hzero, htcp, key, port, hkey, hport, hshort⟩

/-- A TCP packet of twenty bytes with header length zero, sent 208 times with a
pause longer than the idle timeout, crashes the engine at its next arrival: the
port is then 30208, and 0x76 read as a header length is 24. -/
theorem zero_header_length_panics :
    ¬ Returns ((gatewayEngine ⟨[192, 0, 2, 1], rfl⟩).translateOutbound
      ((gatewayEngine ⟨[192, 0, 2, 1], rfl⟩).run ((List.range 208).flatMap fun i =>
          [.translateOutbound [0x40, 0, 0, 20, 0, 0, 0, 0, 64, 6, 0, 0, 10, 0, 0, 1, 8, 8, 8, 8] ()
            (fromSecs (301 * i)), .cleanupExpired (fromSecs (301 * i + 301))]))
      [0x40, 0, 0, 20, 0, 0, 0, 0, 64, 6, 0, 0, 10, 0, 0, 1, 8, 8, 8, 8] ()
      (fromSecs (301 * 208))).1 := by
  intro h
  exact h [0x76, 0, 0, 20, 0, 0, 0, 0, 64, 6, 0, 0, 192, 0, 2, 1, 8, 8, 8, 8] (by decide +kernel)

end ProximityMesh.Gateway
