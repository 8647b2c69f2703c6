/-
  Gateway/ZeroChecksum.lean --- UDP checksums that translate to zero.

  Source: `fold_checksum` and `recalc_transport_checksum` in
  crates/pim-gateway/src/engine/packet.rs, `recalc_transport_checksum_v6` in
  crates/pim-gateway/src/ipv6.rs.

  A checksum field of zero says over IPv4 that there is no checksum, and is forbidden
  over IPv6; a sender whose sum comes to zero writes the other zero of one's complement,
  0xFFFF.  The engines write what they compute.  `checksum_rewriteEndpoint_iff` and
  `checksum_rewriteEndpointV6_iff` say for which datagrams that is not zero: those whose
  words without the checksum do not sum to the other zero.
-/
import ProximityMesh.Gateway.ChecksumV6

set_option autoImplicit false

namespace ProximityMesh.Gateway

open BufM OnesComplement

/-! ## IPv4 -/

/-- Where the checksum of an IPv4 datagram stands. -/
def udpChecksumPos (packet : Bytes) : Nat := checksumPos protoUdp (ihlOf packet)

/-- In one's complement, the address and port that come are the checksum, the address and the
port that go. -/
def Cancels (addrOff portOff : Nat) (addr : Octets 4) (port : UInt16) (packet : Bytes) : Prop :=
  ((wordAt packet (udpChecksumPos packet)).toNat + wordSum (window packet addrOff 4) +
      (wordAt packet (portAt portOff packet)).toNat) % 65535 =
    (wordSum addr.toList + port.toNat) % 65535

/-- A datagram with a checksum that the engine takes. -/
structure ChecksummedUdp (packet : Bytes) : Prop where
  wellFormed : WellFormed packet
  udp : protoOf packet = protoUdp
  checksum : wordAt packet (udpChecksumPos packet) ≠ 0

/-- When an adjusted checksum is zero, unless all words that go are 0xFFFF and all that come
zero. -/
theorem adjusted_eq_zero_iff {oldCksum : UInt16} {oldAddr newAddr : Octets 4}
    {oldPort newPort : UInt16} (hports : oldPort.toNat < 65535 ∨ 0 < newPort.toNat) :
    adjusted oldCksum oldAddr newAddr oldPort newPort = 0 ↔
      (oldCksum.toNat + wordSum oldAddr.toList + oldPort.toNat) % 65535 =
        (wordSum newAddr.toList + newPort.toNat) % 65535 := by
  obtain ⟨sum, hadjusted, htotal⟩ :=
    exists_adjusted_sum oldCksum oldAddr newAddr oldPort newPort
  have hck := oldCksum.toNat_lt
  have hport := oldPort.toNat_lt
  have haddr := wordSum_le oldAddr.toList
  rw [List.Vector.toList_length] at haddr
  rw [hadjusted, foldChecksum_eq_zero_iff]
  omega

variable {addrOff portOff : Nat} {packet buf : Bytes}

/-- When a rewrite leaves a checksum in a datagram that has one. -/
theorem checksum_rewriteEndpoint_iff (hend : EndpointAt addrOff portOff)
    (hudp : ChecksummedUdp packet) (addr : Octets 4) (port : UInt16)
    (hports : (wordAt packet (portAt portOff packet)).toNat < 65535 ∨ 0 < port.toNat) :
    (∀ packet', rewriteEndpoint addrOff portOff addr port packet = .ok () packet' →
        wordAt packet' (udpChecksumPos packet) ≠ 0) ↔
      ¬ Cancels addrOff portOff addr port packet := by
  have hw := hudp.wellFormed
  obtain ⟨oldAddr, hold, heq⟩ := rewriteEndpoint_of_wellFormed hend hw addr port
  have hlen := length_headerSummed hend addr port hw.parses
  have hword := wordAt_headerSummed_checksum hend hw addr port
  have hfits : udpChecksumPos packet + 2 ≤ packet.length := by
    have htransport := hw.transport
    rw [hudp.udp] at htransport
    exact htransport
  rw [hudp.udp] at hword
  -- the field holds the adjusted checksum
  have hfield : wordAt (transportSummed (protoOf packet) (ihlOf packet) oldAddr addr
      (wordAt packet (portAt portOff packet)) port
      (headerSummed addrOff portOff addr port packet)) (udpChecksumPos packet) =
      adjusted (wordAt packet (udpChecksumPos packet)) oldAddr addr
        (wordAt packet (portAt portOff packet)) port := by
    unfold transportSummed
    rw [hudp.udp, if_neg (by decide), hword, if_neg fun hzero => hudp.checksum hzero.1]
    exact wordAt_patch_self _ (hlen.symm ▸ hfits)
  rw [heq]
  unfold Cancels
  rw [← hold, ← adjusted_eq_zero_iff hports, ← hfield]
  constructor
  · intro h
    exact h _ rfl
  · intro h packet' hrun
    obtain rfl := (EStateM.Result.ok.inj hrun).2
    exact h

/-! ## IPv6 -/

/-- Where the checksum of an IPv6 datagram stands. -/
def udpChecksumPosV6 : Nat := ipv6HeaderLen + 6

/-- The words that the checksum of a rewritten datagram covers: the address that stays and the
new one, length and protocol, the new port and the one that stays, the UDP length and the
body. -/
def restV6 (addrOff portOff : Nat) (addr : Octets 16) (port : UInt16) (packet : Bytes) : Nat :=
  wordSum (window packet (32 - addrOff) 16) + wordSum addr.toList +
    wordSum (beBytes 4 (packet.length - ipv6HeaderLen)) + protoUdp.toNat +
    port.toNat + (wordAt packet (ipv6HeaderLen + 2 - portOff)).toNat +
    (wordAt packet (ipv6HeaderLen + 4)).toNat + wordSum (packet.drop (ipv6HeaderLen + 8))

/-- In `u32` arithmetic, they sum to the other zero of one's complement. -/
def VanishesV6 (addrOff portOff : Nat) (addr : Octets 16) (port : UInt16) (packet : Bytes) : Prop :=
  0 < restV6 addrOff portOff addr port packet % 2 ^ 32 ∧
    restV6 addrOff portOff addr port packet % 2 ^ 32 % 65535 = 0

/-- The words of a datagram: ports, length, checksum and body. -/
theorem wordSum_datagram (h : ipv6HeaderLen + 8 ≤ buf.length) :
    wordSum (window buf ipv6HeaderLen (buf.length - ipv6HeaderLen)) =
      (wordAt buf ipv6HeaderLen).toNat + (wordAt buf (ipv6HeaderLen + 2)).toNat +
        (wordAt buf (ipv6HeaderLen + 4)).toNat + (wordAt buf (ipv6HeaderLen + 6)).toNat +
        wordSum (buf.drop (ipv6HeaderLen + 8)) := by
  have hword : ∀ i j, i + 2 = j → j ≤ buf.length →
      wordSum (buf.drop i) = (wordAt buf i).toNat + wordSum (buf.drop j) := by
    rintro i _ rfl hi
    have hsplit : window buf i 2 ++ buf.drop (i + 2) = buf.drop i := window_append_drop rfl
    rw [← hsplit, wordSum_append, wordSum_window_two hi]
    rw [length_window hi]
    exact even_two
  have hall : window buf ipv6HeaderLen (buf.length - ipv6HeaderLen) = buf.drop ipv6HeaderLen := by
    rw [window, ← List.length_drop, List.take_length]
  rw [hall, hword ipv6HeaderLen (ipv6HeaderLen + 2) rfl (by omega),
    hword (ipv6HeaderLen + 2) (ipv6HeaderLen + 4) rfl (by omega),
    hword (ipv6HeaderLen + 4) (ipv6HeaderLen + 6) rfl (by omega),
    hword (ipv6HeaderLen + 6) (ipv6HeaderLen + 8) rfl h]
  omega

theorem wordSum_coveredV6_address (proto : UInt8) (haddr : addrOff = 8 ∨ addrOff = 24)
    (h : ipv6HeaderLen ≤ buf.length) (addr : Octets 16) :
    wordSum (coveredV6 proto (patch buf addrOff addr.toList)) + wordSum (window buf addrOff 16) =
      wordSum (coveredV6 proto buf) + wordSum addr.toList := by
  have hhead : ipv6HeaderLen = 40 := rfl
  have hlen : addr.toList.length = 16 := List.Vector.toList_length addr
  have hagree := agreeOutside_patch hlen (show addrOff + 16 ≤ buf.length by omega)
  have hnew : window (patch buf addrOff addr.toList) addrOff 16 = addr.toList := by
    have hself := @window_patch_self buf addr.toList addrOff (by omega)
    rwa [hlen] at hself
  rw [wordSum_coveredV6 _ h, wordSum_coveredV6 _ (hagree.length_eq.symm ▸ h), hagree.length_eq,
    hagree.window_eq (p := ipv6HeaderLen) (.inr (by omega))]
  rcases haddr with rfl | rfl
  · rw [hnew, hagree.window_eq (p := 24) (.inr (by omega))]
    omega
  · rw [hnew, hagree.window_eq (.inl (by omega))]
    omega

theorem wordSum_coveredV6_word (proto : UInt8) {pos : Nat} (hpos : ipv6HeaderLen ≤ pos)
    (heven : Even pos) (h : pos + 2 ≤ buf.length) (word : UInt16) :
    wordSum (coveredV6 proto (patch buf pos (beBytes 2 word.toNat))) + (wordAt buf pos).toNat =
      wordSum (coveredV6 proto buf) + word.toNat := by
  have hlen := length_beBytes 2 word.toNat
  have hpatch := @wordSum_coveredV6_patch buf proto pos (beBytes 2 word.toNat) hpos heven
    (hlen.symm ▸ even_two) (hlen.symm ▸ h)
  rwa [hlen, wordSum_beBytes word.toNat_lt, wordSum_window_two h] at hpatch

theorem wordSum_coveredV6_cleared
    (hend : (addrOff = 8 ∧ portOff = 0) ∨ (addrOff = 24 ∧ portOff = 2))
    (hudp : protoOfV6 packet = protoUdp) (hfits : ipv6HeaderLen + 8 ≤ packet.length)
    (addr : Octets 16) (port : UInt16) :
    wordSum (coveredV6 protoUdp
        (patch (rewrittenV6 addrOff portOff addr port packet) udpChecksumPosV6 [0, 0])) =
      restV6 addrOff portOff addr port packet := by
  have hhead : ipv6HeaderLen = 40 := rfl
  have hport : portPos protoIcmpV6 portOff (protoOfV6 packet) = portOff := by
    rw [hudp]
    rfl
  have heven : Even portOff := by
    rcases hend with ⟨-, rfl⟩ | ⟨-, rfl⟩
    · exact ⟨0, rfl⟩
    · exact ⟨1, rfl⟩
  have haddrLen : addr.toList.length = 16 := List.Vector.toList_length addr
  have h₁ := agreeOutside_patch haddrLen (show addrOff + 16 ≤ packet.length by omega)
  have hlen₁ := h₁.length_eq
  have h₂ := agreeOutside_patch (length_beBytes 2 port.toNat)
    (show ipv6HeaderLen + portOff + 2 ≤ (patch packet addrOff addr.toList).length by omega)
  have hlen₂ := h₂.length_eq
  -- the three writes, one after the other
  have hmoved := wordSum_coveredV6_address protoUdp (hend.imp And.left And.left)
    (show ipv6HeaderLen ≤ packet.length by omega) addr
  have hported := wordSum_coveredV6_word protoUdp (Nat.le_add_right ipv6HeaderLen portOff)
    (Even.add ⟨20, rfl⟩ heven)
    (show ipv6HeaderLen + portOff + 2 ≤ (patch packet addrOff addr.toList).length by omega) port
  have hcleared := wordSum_coveredV6_word protoUdp (Nat.le_add_right ipv6HeaderLen 6) ⟨23, rfl⟩
    (show ipv6HeaderLen + 6 + 2 ≤ (patch (patch packet addrOff addr.toList)
      (ipv6HeaderLen + portOff) (beBytes 2 port.toNat)).length by omega) 0
  rw [wordAt_of_agreeOutside h₁ (by omega)] at hported
  rw [wordAt_of_agreeOutside h₂ (by omega), wordAt_of_agreeOutside h₁ (by omega)] at hcleared
  rw [wordSum_coveredV6 _ (show ipv6HeaderLen ≤ packet.length by omega),
    wordSum_datagram hfits] at hmoved
  unfold rewrittenV6 restV6
  rw [hport]
  show wordSum (coveredV6 protoUdp (patch (patch (patch packet addrOff addr.toList)
    (ipv6HeaderLen + portOff) (beBytes 2 port.toNat)) (ipv6HeaderLen + 6)
    (beBytes 2 (0 : UInt16).toNat))) = _
  have hzero : (0 : UInt16).toNat = 0 := rfl
  rcases hend with ⟨rfl, rfl⟩ | ⟨rfl, rfl⟩
  · simp only [Nat.add_zero, Nat.sub_zero, Nat.reduceSub] at hmoved hported hcleared ⊢
    omega
  · simp only [Nat.reduceSub, Nat.add_sub_cancel] at hmoved hported hcleared ⊢
    omega

/-- When a rewrite leaves a checksum in a datagram; a shorter one is refused. -/
theorem checksum_rewriteEndpointV6_iff
    (hpair : (addrOff = 8 ∧ portOff = 0) ∨ (addrOff = 24 ∧ portOff = 2)) (hp : ParsesV6 packet)
    (hudp : protoOfV6 packet = protoUdp) (addr : Octets 16) (port : UInt16) :
    (∀ packet', rewriteEndpointV6 addrOff portOff addr port packet = .ok () packet' →
        wordAt packet' udpChecksumPosV6 ≠ 0) ↔
      (ipv6HeaderLen + 8 ≤ packet.length → ¬ VanishesV6 addrOff portOff addr port packet) := by
  have hend : EndpointAtV6 addrOff portOff := by
    rcases hpair with ⟨rfl, rfl⟩ | ⟨rfl, rfl⟩
    · exact endpointAtV6_src
    · exact endpointAtV6_dst
  have hlen := length_rewrittenV6 hend hp addr port
  rw [rewriteEndpointV6_eq hend hp, hudp]
  by_cases hfits : ipv6HeaderLen + 8 ≤ packet.length
  · have hcovered := wordSum_coveredV6_cleared hpair hudp hfits addr port
    have hfield : wordAt (summedV6 protoUdp udpChecksumPosV6
        (rewrittenV6 addrOff portOff addr port packet)) udpChecksumPosV6 = 0 ↔
        VanishesV6 addrOff portOff addr port packet := by
      rw [summedV6, wordAt_patch_self _ (hlen.symm ▸ hfits), foldChecksum_eq_zero_iff,
        toNat_onesComplementSum_mod, hcovered]
      rfl
    rw [if_pos (show checksumPosV6 protoUdp + 2 ≤ packet.length from hfits), ← hfield]
    constructor
    · intro h _
      exact h _ rfl
    · intro h packet' hrun
      obtain rfl := (EStateM.Result.ok.inj hrun).2
      exact h hfits
  · rw [if_neg (show ¬ checksumPosV6 protoUdp + 2 ≤ packet.length from hfits)]
    refine iff_of_true (fun packet' hrun => ?_) fun h => absurd h hfits
    cases hrun

/-! ## The engines -/

namespace Engine

variable {κ σ ρ : Type} [DecidableEq κ] [FlowKey κ] (engine : Engine κ σ ρ)

/-- What holds of every packet that is sent out is what holds of every rewrite. -/
theorem forall_translateOutbound_iff {t : Inner κ} (hc : t.Consistent) (packet : Bytes) (src : σ)
    (now : Nat) (P : Bytes → Prop) :
    (∀ extPort packet', (engine.translateOutbound t packet src now).1 = .ok extPort packet' →
        P packet') ↔
      ∀ key port, engine.flowOf src packet = some key → t.portFor key = some port →
        ∀ packet', engine.rewriteSrc port packet = .ok () packet' → P packet' := by
  constructor
  · intro h key port hkey hport packet' hrun
    exact h port packet' ((engine.translateOutbound_eq_ok_iff hc).mpr ⟨key, hkey, hport, hrun⟩)
  · intro h extPort packet' hrun
    obtain ⟨key, hkey, hport, hwrite⟩ := (engine.translateOutbound_eq_ok_iff hc).mp hrun
    exact h key extPort hkey hport packet' hwrite

theorem forall_translateInbound_iff {t : Inner κ} (hc : t.Consistent) (packet : Bytes) (now : Nat)
    (P : Bytes → Prop) :
    (∀ client packet', (engine.translateInbound t packet now).1 = .ok client packet' → P packet') ↔
      ∀ reply key, engine.replyOf packet = some reply → t.reverse.get reply = some key →
        ∀ packet', engine.rewriteDst key packet = .ok () packet' → P packet' := by
  constructor
  · intro h reply key hreply hrev packet' hrun
    exact h _ packet'
      ((engine.translateInbound_eq_ok_iff hc).mpr ⟨reply, key, hreply, hrev, rfl, hrun⟩)
  · intro h client packet' hrun
    obtain ⟨reply, key, hreply, hrev, -, hwrite⟩ :=
      (engine.translateInbound_eq_ok_iff hc).mp hrun
    exact h reply key hreply hrev packet' hwrite

end Engine

/-- From every table a run can reach, a translation of a datagram with a checksum leaves a
checksum in it, exactly if the endpoint it is given does not complete its words to the other
zero of one's complement. -/
theorem translate_keeps_udp_checksum_iff (externalIp : Octets 4) (externalIpV6 : Octets 16)
    (calls : List (Call Unit)) (callsV6 : List (Call NodeId)) (packet packetV6 : Bytes)
    (hudp : ChecksummedUdp packet) (hudpV6 : protoOfV6 packetV6 = protoUdp) (srcId : NodeId)
    (now : Nat) :
    ((∀ extPort packet', ((gatewayEngine externalIp).translateOutbound
          ((gatewayEngine externalIp).run calls) packet () now).1 = .ok extPort packet' →
        wordAt packet' (udpChecksumPos packet) ≠ 0) ↔
      ∀ key port, (gatewayEngine externalIp).flowOf () packet = some key →
        ((gatewayEngine externalIp).run calls).portFor key = some port →
        ¬ Cancels 12 0 externalIp port packet) ∧
    ((∀ client packet', ((gatewayEngine externalIp).translateInbound
          ((gatewayEngine externalIp).run calls) packet now).1 = .ok client packet' →
        wordAt packet' (udpChecksumPos packet) ≠ 0) ↔
      ∀ reply key, (gatewayEngine externalIp).replyOf packet = some reply →
        ((gatewayEngine externalIp).run calls).reverse.get reply = some key →
        ¬ Cancels 16 2 key.origSrc key.origPort packet) ∧
    ((∀ extPort packet', ((gatewayEngineV6 externalIpV6).translateOutbound
          ((gatewayEngineV6 externalIpV6).run callsV6) packetV6 srcId now).1 =
            .ok extPort packet' →
        wordAt packet' udpChecksumPosV6 ≠ 0) ↔
      ∀ key port, (gatewayEngineV6 externalIpV6).flowOf srcId packetV6 = some key →
        ((gatewayEngineV6 externalIpV6).run callsV6).portFor key = some port →
        ipv6HeaderLen + 8 ≤ packetV6.length → ¬ VanishesV6 8 0 externalIpV6 port packetV6) ∧
    ((∀ client packet', ((gatewayEngineV6 externalIpV6).translateInbound
          ((gatewayEngineV6 externalIpV6).run callsV6) packetV6 now).1 = .ok client packet' →
        wordAt packet' udpChecksumPosV6 ≠ 0) ↔
      ∀ reply key, (gatewayEngineV6 externalIpV6).replyOf packetV6 = some reply →
        ((gatewayEngineV6 externalIpV6).run callsV6).reverse.get reply = some key →
        ipv6HeaderLen + 8 ≤ packetV6.length →
          ¬ VanishesV6 24 2 key.origSrc key.origPort packetV6) := by
  have hc := (gatewayEngine externalIp).consistent_run calls
  have hcV6 := (gatewayEngineV6 externalIpV6).consistent_run callsV6
  rw [(gatewayEngine externalIp).forall_translateOutbound_iff hc packet () now
      (fun packet' => wordAt packet' (udpChecksumPos packet) ≠ 0),
    (gatewayEngine externalIp).forall_translateInbound_iff hc packet now
      (fun packet' => wordAt packet' (udpChecksumPos packet) ≠ 0),
    (gatewayEngineV6 externalIpV6).forall_translateOutbound_iff hcV6 packetV6 srcId now
      (fun packet' => wordAt packet' udpChecksumPosV6 ≠ 0),
    (gatewayEngineV6 externalIpV6).forall_translateInbound_iff hcV6 packetV6 now
      (fun packet' => wordAt packet' udpChecksumPosV6 ≠ 0)]
  refine ⟨?_, ?_, ?_, ?_⟩
  · refine forall_congr' fun key => forall_congr' fun port => imp_congr_right fun _ =>
      imp_congr_right fun hport => ?_
    have hrange := hc.inRange_of_portFor hport
    exact checksum_rewriteEndpoint_iff endpointAt_src hudp externalIp port
      (.inr (hrange.1.trans_lt' (by decide)))
  · refine forall_congr' fun reply => forall_congr' fun key => imp_congr_right fun hreply =>
      imp_congr_right fun hrev => ?_
    have hrange := hc.inRange_of_reverse hrev
    obtain ⟨_, hrun⟩ := Engine.parseReply_of_replyOf _ hreply
    obtain ⟨-, -, rfl⟩ := (ensures_transportDstPort packet).of_ok hrun
    exact checksum_rewriteEndpoint_iff endpointAt_dst hudp key.origSrc key.origPort
      (.inl (hrange.2.trans_lt (by decide)))
  · refine forall_congr' fun key => forall_congr' fun port => imp_congr_right fun hkey =>
      imp_congr_right fun _ => ?_
    exact checksum_rewriteEndpointV6_iff (.inl ⟨rfl, rfl⟩) (parsesV6_of_flowOf hkey) hudpV6
      externalIpV6 port
  · refine forall_congr' fun reply => forall_congr' fun key => imp_congr_right fun hreply =>
      imp_congr_right fun _ => ?_
    exact checksum_rewriteEndpointV6_iff (.inr ⟨rfl, rfl⟩) (parsesV6_of_replyOf hreply) hudpV6
      key.origSrc key.origPort

/-- The query and its IPv6 sibling go out with a checksum. -/
theorem queries_keep_udp_checksum :
    (∃ extPort packet', ((gatewayEngine ⟨[192, 0, 2, 1], rfl⟩).translateOutbound
        ((gatewayEngine ⟨[192, 0, 2, 1], rfl⟩).run []) queryPacket () 0).1 = .ok extPort packet' ∧
      wordAt packet' (udpChecksumPos queryPacket) ≠ 0) ∧
    ∃ extPort packet', ((gatewayEngineV6 uplinkV6).translateOutbound
        ((gatewayEngineV6 uplinkV6).run []) queryPacketV6 ⟨Octets.zero 16⟩ 0).1 =
          .ok extPort packet' ∧
      wordAt packet' udpChecksumPosV6 ≠ 0 := by
  obtain ⟨houtbound, -, houtboundV6, -⟩ := translate_keeps_udp_checksum_iff ⟨[192, 0, 2, 1], rfl⟩
    uplinkV6 [] [] queryPacket queryPacketV6
    ⟨wellFormed_queryPacket, by decide, by decide⟩ (by decide) ⟨Octets.zero 16⟩ 0
  have hkeeps := houtbound.mpr fun key port hkey hport => by
    cases hport
    unfold Cancels
    decide
  have hkeepsV6 := houtboundV6.mpr fun key port hkey hport _ => by
    cases hport
    unfold VanishesV6
    decide
  exact ⟨⟨_, _, rfl, hkeeps _ _ rfl⟩, _, _, rfl, hkeepsV6 _ _ rfl⟩

/-- A datagram from 10.0.0.1:12345 to 8.8.8.8:53 with a valid checksum, and a body that its new
endpoint 192.0.2.1:30000 completes to 0xFFFF. -/
def unluckyPacket : Bytes :=
  [0x45, 0, 0, 30, 0, 0, 0, 0, 64, 17, 0, 0, 10, 0, 0, 1, 8, 8, 8, 8, 0x30, 0x39, 0, 53, 0, 10,
    0xfc, 0xf7, 0xb8, 0x63]

/-- The same over IPv6, from [fd00::1]:12345 to [2001:db8::1]:53. -/
def unluckyPacketV6 : Bytes :=
  [0x60, 0, 0, 0, 0, 10, 17, 64] ++
    [0xfd, 0, 0, 0, 0, 0, 0, 0, 0, 0, 0, 0, 0, 0, 0, 1] ++
    [0x20, 1, 0x0d, 0xb8, 0, 0, 0, 0, 0, 0, 0, 0, 0, 0, 0, 1] ++
    [0x30, 0x39, 0, 53, 0, 10, 0x75, 0xb0, 0x2f, 0]

theorem unlucky_packets_lose_checksum :
    (ChecksummedUdp unluckyPacket ∧ Valid (covered unluckyPacket 10) ∧
      ∃ packet', ((gatewayEngine ⟨[192, 0, 2, 1], rfl⟩).translateOutbound
          ((gatewayEngine ⟨[192, 0, 2, 1], rfl⟩).run []) unluckyPacket () 0).1 =
            .ok 30000 packet' ∧
        wordAt packet' (udpChecksumPos unluckyPacket) = 0) ∧
    WellFormedV6 unluckyPacketV6 ∧ protoOfV6 unluckyPacketV6 = protoUdp ∧
      Valid (coveredV6 protoUdp unluckyPacketV6) ∧
      ∃ packet', ((gatewayEngineV6 uplinkV6).translateOutbound
          ((gatewayEngineV6 uplinkV6).run []) unluckyPacketV6 ⟨Octets.zero 16⟩ 0).1 =
            .ok 30000 packet' ∧
        wordAt packet' udpChecksumPosV6 = 0 := by
  have hwell : WellFormed unluckyPacket :=
    ⟨by decide, by decide, by decide, .inr (.inl (by decide)), by decide⟩
  have hwellV6 : WellFormedV6 unluckyPacketV6 :=
    ⟨by decide, by decide, .inr (.inl (by decide)), by decide⟩
  exact ⟨⟨⟨hwell, by decide, by decide⟩, by decide, _, rfl, by decide⟩, hwellV6, by decide,
    by decide, _, rfl, by decide⟩

end ProximityMesh.Gateway
