/-
  Gateway/ChecksumV6.lean --- what a rewrite leaves of an IPv6 packet, and its checksum.

  Source: `rewrite_src_v6`, `rewrite_dst_v6` and `recalc_transport_checksum_v6` in
  crates/pim-gateway/src/ipv6.rs.

  A rewrite that returns has computed the checksum anew over the pseudo-header and the
  payload.  Such a checksum is valid for any payload, of an odd length too.
-/
import ProximityMesh.Gateway.Checksum

set_option autoImplicit false

namespace ProximityMesh.Gateway

open BufM OnesComplement List

/-! ## What the checksum covers -/

section Sums

variable {buf : Bytes} (proto : UInt8)

theorem wordSum_coveredV6 (h : ipv6HeaderLen ≤ buf.length) :
    wordSum (coveredV6 proto buf) =
      wordSum (window buf 8 16) + wordSum (window buf 24 16) +
        wordSum (beBytes 4 (buf.length - ipv6HeaderLen)) + proto.toNat +
        wordSum (window buf ipv6HeaderLen (buf.length - ipv6HeaderLen)) := by
  have h' : 40 ≤ buf.length := h
  have hsrc : (window buf 8 16).length = 16 := length_window (by omega)
  have hdst : (window buf 24 16).length = 16 := length_window (by omega)
  have hproto : wordSum [0, 0, 0, proto] = proto.toNat := by
    simp only [wordSum, UInt8.toNat_zero]
    omega
  rw [coveredV6, wordSum_append, wordSum_append, wordSum_append, wordSum_append, hproto]
  · rw [hsrc]
    exact ⟨8, rfl⟩
  · rw [length_append, hsrc, hdst]
    exact ⟨16, rfl⟩
  · rw [length_append, length_append, hsrc, hdst]
    exact ⟨18, rfl⟩
  · rw [length_append, length_append, length_append, hsrc, hdst]
    exact ⟨20, rfl⟩

theorem length_coveredV6 (h : ipv6HeaderLen ≤ buf.length) :
    (coveredV6 proto buf).length = buf.length := by
  have h' : 40 ≤ buf.length := h
  have hhead : ipv6HeaderLen = 40 := rfl
  have hsrc : (window buf 8 16).length = 16 := length_window (by omega)
  have hdst : (window buf 24 16).length = 16 := length_window (by omega)
  have hpayload : (window buf ipv6HeaderLen (buf.length - ipv6HeaderLen)).length =
      buf.length - ipv6HeaderLen := length_window (by omega)
  rw [coveredV6, length_append, length_append, length_append, length_append, hsrc, hdst, hpayload]
  show 16 + 16 + 4 + 4 + (buf.length - ipv6HeaderLen) = buf.length
  omega

/-- Writing whole words into the payload exchanges their sums. -/
theorem wordSum_coveredV6_patch {pos : Nat} {src : Bytes} (hpos : ipv6HeaderLen ≤ pos)
    (heven : Even pos) (hsrc : Even src.length) (h : pos + src.length ≤ buf.length) :
    wordSum (coveredV6 proto (patch buf pos src)) + wordSum (window buf pos src.length) =
      wordSum (coveredV6 proto buf) + wordSum src := by
  have hhead : ipv6HeaderLen = 40 := rfl
  have hagree := agreeOutside_patch rfl h
  have hpayload := @wordSum_window_patch buf src ipv6HeaderLen (buf.length - ipv6HeaderLen) pos hpos
    ((Nat.even_sub hpos).mpr (iff_of_true heven ⟨20, rfl⟩)) hsrc (by omega) (by omega)
  rw [wordSum_coveredV6 _ (show ipv6HeaderLen ≤ (patch buf pos src).length by
      rw [hagree.length_eq]; omega),
    wordSum_coveredV6 _ (show ipv6HeaderLen ≤ buf.length by omega), hagree.length_eq,
    hagree.window_eq (.inl (by omega)), hagree.window_eq (.inl (by omega))]
  omega

end Sums

/-- The checksum completes what it covers. -/
theorem valid_summedV6 (proto : UInt8) {pos : Nat} {buf : Bytes} (hpos : ipv6HeaderLen ≤ pos)
    (heven : Even pos) (h : pos + 2 ≤ buf.length) (hmax : buf.length < 2 ^ 17) :
    Valid (coveredV6 proto (summedV6 proto pos buf)) := by
  refine valid_patch_checksum (coveredV6 proto) (fun src hsrc => ?_) ?_
  · rw [← hsrc]
    exact wordSum_coveredV6_patch proto hpos heven (hsrc ▸ even_two) (hsrc ▸ h)
  · have hcleared : (patch buf pos [0, 0]).length = buf.length := length_patch h
    rw [length_coveredV6 proto (by omega)]
    omega

/-! ## Checksums of a rewritten packet -/

section Rewrite

variable {addrOff portOff : Nat} {packet : Bytes}

/-- The changed bytes: the address, the port or identifier, and the checksum. -/
def TouchedV6 (addrOff portOff : Nat) (packet : Bytes) (i : Nat) : Prop :=
  (addrOff ≤ i ∧ i < addrOff + 16) ∨
    (portAtV6 portOff packet ≤ i ∧ i < portAtV6 portOff packet + 2) ∨
    (checksumPosV6 (protoOfV6 packet) ≤ i ∧ i < checksumPosV6 (protoOfV6 packet) + 2)

/-- What a translation owes to the packet: the transport checksum is valid over the new
pseudo-header, and nothing else has changed. -/
structure ChecksumKeptV6 (addrOff portOff : Nat) (packet packet' : Bytes) : Prop where
  length_eq : packet'.length = packet.length
  untouched : ∀ i, ¬ TouchedV6 addrOff portOff packet i → packet'[i]? = packet[i]?
  transport : Valid (coveredV6 (protoOfV6 packet') packet')

theorem checksumKeptV6_of_rewriteEndpointV6 (hend : EndpointAtV6 addrOff portOff)
    (hp : ParsesV6 packet) (hmax : packet.length < 2 ^ 17) {addr : Octets 16} {port : UInt16}
    {packet' : Bytes} (hrun : rewriteEndpointV6 addrOff portOff addr port packet = .ok () packet') :
    ChecksumKeptV6 addrOff portOff packet packet' := by
  obtain ⟨field, -, hpos, heven⟩ := checksumOffsetV6_eq hp.translated
  obtain ⟨haddr, hport⟩ := agreeOutside_rewrittenV6 hend hp addr port
  have hlen := length_rewrittenV6 hend hp addr port
  have hge := hend.addr_ge
  have hhead : ipv6HeaderLen = 40 := rfl
  have hportGe : ipv6HeaderLen ≤ portAtV6 portOff packet := Nat.le_add_right _ _
  obtain ⟨hfits, hfinal, hcksum⟩ := agreeOutside_rewriteEndpointV6 hend hp hrun
  have huntouched : ∀ i, ¬ TouchedV6 addrOff portOff packet i → packet'[i]? = packet[i]? := by
    intro i hi
    unfold TouchedV6 at hi
    rw [hcksum.getElem?_eq i (by omega), hport.getElem?_eq i (by omega),
      haddr.getElem?_eq i (by omega)]
  -- the next header stands before all of them
  have hproto : protoOfV6 packet' = protoOfV6 packet := by
    rw [protoOfV6, hcksum.byteAt_eq (by omega), hport.byteAt_eq (by omega),
      haddr.byteAt_eq (by omega)]
    rfl
  refine ⟨hcksum.length_eq.trans hlen, huntouched, ?_⟩
  rw [hproto, hfinal]
  refine valid_summedV6 _ (by omega) ?_ (by omega) (by omega)
  rw [hpos]
  exact Even.add ⟨20, rfl⟩ heven

end Rewrite

/-! ## Translations -/

/-- An IPv6 packet without extension headers, with a complete header of its transport protocol
and as long as its payload length says. -/
structure WellFormedV6 (packet : Bytes) : Prop where
  ipv6 : byteAt packet 0 >>> 4 = 6
  payload : ipv6HeaderLen + (wordAt packet 4).toNat = packet.length
  proto : TranslatedV6 (protoOfV6 packet)
  transport : ipv6HeaderLen + transportHeaderMin (protoOfV6 packet) ≤ packet.length

theorem WellFormedV6.parses {packet : Bytes} (hw : WellFormedV6 packet) : ParsesV6 packet where
  header := (Nat.le_add_right _ _).trans hw.transport
  ipv6 := hw.ipv6
  transport := by
    have htransport := hw.transport
    unfold transportHeaderMin at htransport
    rcases hw.proto with h | h | h
    · rw [h, if_pos rfl] at htransport
      exact .inl ⟨.inl h, by omega⟩
    · rw [h, if_neg (by decide)] at htransport
      exact .inl ⟨.inr h, by omega⟩
    · rw [h, if_neg (by decide)] at htransport
      exact .inr ⟨h, htransport⟩

theorem WellFormedV6.length_lt {packet : Bytes} (hw : WellFormedV6 packet) :
    packet.length < 2 ^ 17 := by
  have hlt := (wordAt packet 4).toNat_lt
  have hpayload := hw.payload
  have hhead : ipv6HeaderLen = 40 := rfl
  omega

/-- Every successful translation of a well-formed packet, from any table a run reaches, leaves a
valid checksum and every byte that is not rewritten. -/
theorem translateV6_keeps_checksum (externalIp : Octets 16) (calls : List (Call NodeId))
    (packet : Bytes) (hw : WellFormedV6 packet) (srcId : NodeId) (now : Nat) :
    (∀ extPort packet', ((gatewayEngineV6 externalIp).translateOutbound
        ((gatewayEngineV6 externalIp).run calls) packet srcId now).1 = .ok extPort packet' →
      ChecksumKeptV6 8 0 packet packet') ∧
    ∀ client packet', ((gatewayEngineV6 externalIp).translateInbound
        ((gatewayEngineV6 externalIp).run calls) packet now).1 = .ok client packet' →
      ChecksumKeptV6 24 2 packet packet' := by
  have hconsistent := (gatewayEngineV6 externalIp).consistent_run calls
  constructor
  · intro extPort packet' hrun
    obtain ⟨key, -, -, hwrite⟩ :=
      ((gatewayEngineV6 externalIp).translateOutbound_eq_ok_iff hconsistent).mp hrun
    exact checksumKeptV6_of_rewriteEndpointV6 endpointAtV6_src hw.parses hw.length_lt hwrite
  · intro client packet' hrun
    obtain ⟨reply, key, -, -, -, hwrite⟩ :=
      ((gatewayEngineV6 externalIp).translateInbound_eq_ok_iff hconsistent).mp hrun
    exact checksumKeptV6_of_rewriteEndpointV6 endpointAtV6_dst hw.parses hw.length_lt hwrite

/-- A UDP packet with one byte of payload, from fd00::1 to 2001:db8::1. -/
def queryPacketV6 : Bytes :=
  [0x60, 0, 0, 0, 0, 9, 17, 64] ++
    [0xfd, 0, 0, 0, 0, 0, 0, 0, 0, 0, 0, 0, 0, 0, 0, 1] ++
    [0x20, 1, 0x0d, 0xb8, 0, 0, 0, 0, 0, 0, 0, 0, 0, 0, 0, 1] ++
    [0x30, 0x39, 0, 53, 0, 9, 0x12, 0x34, 0x41]

theorem wellFormedV6_queryPacketV6 : WellFormedV6 queryPacketV6 where
  ipv6 := by decide
  payload := by decide
  proto := .inr (.inl (by decide))
  transport := by decide

/-- The uplink address 2001:db8:1::1. -/
def uplinkV6 : Octets 16 := ⟨[0x20, 1, 0x0d, 0xb8, 0, 1, 0, 0, 0, 0, 0, 0, 0, 0, 0, 1], rfl⟩

theorem queryPacketV6_keeps_checksum :
    ∃ extPort packet', ((gatewayEngineV6 uplinkV6).translateOutbound
        ((gatewayEngineV6 uplinkV6).run []) queryPacketV6 ⟨Octets.zero 16⟩ 0).1 =
          .ok extPort packet' ∧
      Valid (coveredV6 (protoOfV6 packet') packet') := by
  obtain ⟨extPort, packet', hrun⟩ : ∃ extPort packet',
      ((gatewayEngineV6 uplinkV6).translateOutbound
        ((gatewayEngineV6 uplinkV6).run []) queryPacketV6 ⟨Octets.zero 16⟩ 0).1 =
          .ok extPort packet' := ⟨_, _, rfl⟩
  obtain ⟨houtbound, -⟩ := translateV6_keeps_checksum uplinkV6 [] queryPacketV6
    wellFormedV6_queryPacketV6 ⟨Octets.zero 16⟩ 0
  exact ⟨extPort, packet', hrun, (houtbound extPort packet' hrun).transport⟩

end ProximityMesh.Gateway
