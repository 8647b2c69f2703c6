/-
  Gateway/PacketV6.lean --- IPv6 packet parsing, rewriting and checksums.

  Source: the packet functions of crates/pim-gateway/src/ipv6.rs.  Its private
  copies of `ones_complement_sum` and `fold_checksum` are those of
  Gateway/Packet.lean, line by line.

  The transport header stands at byte 40 whatever the packet says, so every
  bound is checked against a constant and no write moves a later one.  The
  checksum field is checked after the address and the port are written: a packet
  can be refused half rewritten.
-/
import ProximityMesh.Gateway.Packet

set_option autoImplicit false

namespace ProximityMesh.Gateway

open BufM

/-- ICMPv6 next-header value. -/
def protoIcmpV6 : UInt8 := 58

def ipv6HeaderLen : Nat := 40

def ipv6NextHeader : PacketM UInt8 := do
  if (← len) < ipv6HeaderLen then fail (.packetTooShort (← len))
  if (← index 0) >>> 4 ≠ 6 then fail (.commandFailed "not an IPv6 packet")
  index 6

def parseFlowV6 : PacketM (UInt8 × Octets 16 × UInt16) := do
  let proto ← ipv6NextHeader
  let srcIp ← octets 8 16
  let srcPort ← transportPort protoIcmpV6 0 proto ipv6HeaderLen
  return (proto, srcIp, srcPort)

def transportDstPortV6 (proto : UInt8) : PacketM UInt16 :=
  transportPort protoIcmpV6 2 proto ipv6HeaderLen

/-- `rewrite_transport_src` (offset 0) and `rewrite_transport_dst` (offset 2). -/
def rewriteTransport (portOff : Nat) (proto : UInt8) (newPort : UInt16) : PacketM Unit := do
  let bytes := beBytes 2 newPort.toNat
  if proto = protoTcp ∨ proto = protoUdp then
    if (← len) < ipv6HeaderLen + 4 then fail (.packetTooShort (← len))
    copyFromSlice (ipv6HeaderLen + portOff) bytes
  else if proto = protoIcmpV6 then
    if (← len) < ipv6HeaderLen + 8 then fail (.packetTooShort (← len))
    copyFromSlice (ipv6HeaderLen + 4) bytes
  else fail (.unsupportedProtocol proto)

/-- Offset of the checksum field in the transport header. -/
def checksumOffsetV6 (proto : UInt8) : Except GatewayError Nat :=
  if proto = protoTcp then .ok 16
  else if proto = protoUdp then .ok 6
  else if proto = protoIcmpV6 then .ok 2
  else .error (.unsupportedProtocol proto)

/-- The bytes the transport checksum is taken over: the pseudo-header and the
payload. -/
def pseudoHeader (proto : UInt8) : PacketM Bytes := do
  let payloadLen := (← len) - ipv6HeaderLen
  let src ← slice 8 24
  let dst ← slice 24 40
  let payload ← slice ipv6HeaderLen (← len)
  return src ++ dst ++ beBytes 4 payloadLen ++ [0, 0, 0, proto] ++ payload

def recalcTransportChecksumV6 (proto : UInt8) : PacketM Unit := do
  if (← len) < ipv6HeaderLen then fail (.packetTooShort (← len))
  let field ← liftExcept (checksumOffsetV6 proto)
  let checksumOffset := ipv6HeaderLen + field
  if (← len) < checksumOffset + 2 then fail (.packetTooShort (← len))
  copyFromSlice checksumOffset [0]
  copyFromSlice (checksumOffset + 1) [0]
  let pseudo ← pseudoHeader proto
  copyFromSlice checksumOffset (beBytes 2 (foldChecksum (onesComplementSum pseudo)).toNat)

/-- `rewrite_src_v6` and `rewrite_dst_v6`, by the offsets of the address and of
the port. -/
def rewriteEndpointV6 (addrOff portOff : Nat) (newAddr : Octets 16) (newPort : UInt16) :
    PacketM Unit := do
  let proto ← ipv6NextHeader
  copyFromSlice addrOff newAddr.toList
  rewriteTransport portOff proto newPort
  recalcTransportChecksumV6 proto

def rewriteSrcV6 (newSrc : Octets 16) (newPort : UInt16) : PacketM Unit :=
  rewriteEndpointV6 8 0 newSrc newPort

def rewriteDstV6 (newDst : Octets 16) (newPort : UInt16) : PacketM Unit :=
  rewriteEndpointV6 24 2 newDst newPort

/-! ## What parsing reads -/

def protoOfV6 (buf : Bytes) : UInt8 := byteAt buf 6

/-- The packet has an IPv6 header and the transport bytes that are read. -/
structure ParsesV6 (buf : Bytes) : Prop where
  header : ipv6HeaderLen ≤ buf.length
  ipv6 : byteAt buf 0 >>> 4 = 6
  transport : TransportFits protoIcmpV6 (protoOfV6 buf) ipv6HeaderLen buf.length

theorem isIcmp_protoIcmpV6 : IsIcmp protoIcmpV6 := ⟨by decide, by decide⟩

theorem ensures_ipv6NextHeader (buf : Bytes) (Q : UInt8 → Bytes → Prop)
    (E : Fault GatewayError → Bytes → Prop) :
    Ensures ipv6NextHeader buf Q E ↔
      (buf.length < ipv6HeaderLen → E (.error (.packetTooShort buf.length)) buf) ∧
      (ipv6HeaderLen ≤ buf.length → byteAt buf 0 >>> 4 ≠ 6 →
        E (.error (.commandFailed "not an IPv6 packet")) buf) ∧
      (ipv6HeaderLen ≤ buf.length → byteAt buf 0 >>> 4 = 6 → Q (protoOfV6 buf) buf) := by
  have hlen : ipv6HeaderLen ≤ buf.length → 6 < buf.length := by
    intro h
    exact Nat.lt_of_lt_of_le (by decide) h
  simp only [ipv6NextHeader, ensures_bind, ensures_len, ensures_ite, ensures_fail, ensures_index,
    protoOfV6]
  grind

/-- The parsing of both translations starts with the next header. -/
theorem ensures_nextHeader {α : Type} {buf : Bytes} {m : UInt8 → PacketM α}
    {Q : α → Bytes → Prop} {E : Fault GatewayError → Bytes → Prop}
    (hE : ∀ f, f ≠ .panic → ¬ ParsesV6 buf → E f buf)
    (hm : ipv6HeaderLen ≤ buf.length → byteAt buf 0 >>> 4 = 6 →
      Ensures (m (protoOfV6 buf)) buf Q E) :
    Ensures (do
      let proto ← ipv6NextHeader
      m proto) buf Q E := by
  rw [ensures_bind, ensures_ipv6NextHeader]
  exact ⟨fun hshort => hE _ (by simp) fun hp => absurd hp.header (Nat.not_le.mpr hshort),
    fun _ hver => hE _ (by simp) fun hp => hver hp.ipv6, hm⟩

theorem ensures_parseFlowV6 (buf : Bytes) :
    Ensures parseFlowV6 buf
      (fun r buf' => buf' = buf ∧ ParsesV6 buf ∧ r.1 = protoOfV6 buf ∧
        r.2.1.toList = window buf 8 16 ∧
        r.2.2 = wordAt buf (ipv6HeaderLen + portPos protoIcmpV6 0 (protoOfV6 buf)))
      (fun f buf' => buf' = buf ∧ f ≠ .panic ∧ ¬ ParsesV6 buf) := by
  refine ensures_nextHeader (fun f hf hp => ⟨rfl, hf, hp⟩) fun hlong hver => ?_
  rw [ensures_bind, ensures_octets]
  refine ⟨fun _ => ?_, fun hbound => absurd hlong (by unfold ipv6HeaderLen; omega)⟩
  rw [ensures_bind]
  refine (ensures_transportPort isIcmp_protoIcmpV6 (by decide) (protoOfV6 buf) ipv6HeaderLen
    buf).mono ?_ ?_
  · rintro port buf' ⟨rfl, rfl, hfits⟩
    exact ⟨rfl, ⟨hlong, hver, hfits⟩, rfl, rfl, rfl⟩
  · rintro f buf' ⟨rfl, hf, hfits⟩
    exact ⟨rfl, hf, fun hp => hfits hp.transport⟩

theorem ensures_transportDstPortV6 (buf : Bytes) :
    Ensures (do
      let proto ← ipv6NextHeader
      let dstPort ← transportDstPortV6 proto
      return (proto, dstPort)) buf
      (fun r buf' => buf' = buf ∧ ParsesV6 buf ∧
        r = (protoOfV6 buf, wordAt buf (ipv6HeaderLen + portPos protoIcmpV6 2 (protoOfV6 buf))))
      (fun f buf' => buf' = buf ∧ f ≠ .panic ∧ ¬ ParsesV6 buf) := by
  refine ensures_nextHeader (fun f hf hp => ⟨rfl, hf, hp⟩) fun hlong hver => ?_
  rw [ensures_bind]
  refine (ensures_transportPort isIcmp_protoIcmpV6 (by decide) (protoOfV6 buf) ipv6HeaderLen
    buf).mono ?_ ?_
  · rintro port buf' ⟨rfl, rfl, hfits⟩
    exact ⟨rfl, ⟨hlong, hver, hfits⟩, rfl⟩
  · rintro f buf' ⟨rfl, hf, hfits⟩
    exact ⟨rfl, hf, fun hp => hfits hp.transport⟩

/-! ## What rewriting writes -/

/-- On a transport header that fits, the port is written in its place. -/
theorem ensures_rewriteTransport {portOff : Nat} (hoff : portOff ≤ 2) (proto : UInt8)
    (newPort : UInt16) {buf : Bytes}
    (hfits : TransportFits protoIcmpV6 proto ipv6HeaderLen buf.length) :
    Ensures (rewriteTransport portOff proto newPort) buf
      (fun _ buf' => buf' = patch buf (ipv6HeaderLen + portPos protoIcmpV6 portOff proto)
        (beBytes 2 newPort.toNat))
      (fun _ _ => False) := by
  have hport := hfits.port_le isIcmp_protoIcmpV6 hoff
  unfold rewriteTransport
  rcases hfits with ⟨htcp, hlen⟩ | ⟨hicmp, hlen⟩
  · have hnot : proto ≠ protoIcmpV6 := by
      rcases htcp with rfl | rfl <;> decide
    rw [portPos, if_neg hnot] at hport ⊢
    rw [if_pos htcp, ensures_bind, ensures_len, ensures_ite]
    refine ⟨fun hshort => absurd hlen (Nat.not_le.mpr hshort), fun _ => ?_⟩
    rw [ensures_copyFromSlice]
    exact ⟨fun _ => rfl, fun hshort => absurd hport (Nat.not_le.mpr hshort)⟩
  · have hnot : ¬ (proto = protoTcp ∨ proto = protoUdp) := by
      rw [hicmp]
      decide
    rw [portPos, if_pos hicmp] at hport ⊢
    rw [if_neg hnot, if_pos hicmp, ensures_bind, ensures_len, ensures_ite]
    refine ⟨fun hshort => absurd hlen (Nat.not_le.mpr hshort), fun _ => ?_⟩
    rw [ensures_copyFromSlice, length_beBytes]
    exact ⟨fun _ => rfl, fun hshort => absurd hport (Nat.not_le.mpr hshort)⟩

/-- What a transport checksum covers, the checksum included: the pseudo-header of the packet
and its payload. -/
def coveredV6 (proto : UInt8) (buf : Bytes) : Bytes :=
  window buf 8 16 ++ window buf 24 16 ++ beBytes 4 (buf.length - ipv6HeaderLen) ++
    [0, 0, 0, proto] ++ window buf ipv6HeaderLen (buf.length - ipv6HeaderLen)

theorem pseudoHeader_eq (proto : UInt8) {buf : Bytes} (h : ipv6HeaderLen ≤ buf.length) :
    pseudoHeader proto buf = .ok (coveredV6 proto buf) buf := by
  have h' : 40 ≤ buf.length := h
  rw [eq_ok_iff_ensures]
  simp only [pseudoHeader, ensures_bind, ensures_len, ensures_slice, ensures_pure]
  refine ⟨fun _ _ => ⟨fun _ _ => ⟨fun _ _ => ⟨rfl, trivial⟩, fun hor => ?_⟩, fun hor => ?_⟩,
    fun hor => ?_⟩
  · rcases hor with hlt | hlt
    · exact absurd h (Nat.not_le.mpr hlt)
    · exact absurd hlt (Nat.lt_irrefl _)
  · omega
  · omega

/-- The packet with its checksum computed anew in the word at `pos`. -/
def summedV6 (proto : UInt8) (pos : Nat) (buf : Bytes) : Bytes :=
  patch buf pos (beBytes 2
    (foldChecksum (onesComplementSum (coveredV6 proto (patch buf pos [0, 0])))).toNat)

/-- The packet after the address and the port are written. -/
def rewrittenV6 (addrOff portOff : Nat) (addr : Octets 16) (port : UInt16) (buf : Bytes) :
    Bytes :=
  patch (patch buf addrOff addr.toList)
    (ipv6HeaderLen + portPos protoIcmpV6 portOff (protoOfV6 buf)) (beBytes 2 port.toNat)

/-- A translated protocol. -/
def TranslatedV6 (proto : UInt8) : Prop :=
  proto = protoTcp ∨ proto = protoUdp ∨ proto = protoIcmpV6

/-- Where the transport checksum of a translated protocol stands. -/
def checksumPosV6 (proto : UInt8) : Nat :=
  match checksumOffsetV6 proto with
  | .ok field => ipv6HeaderLen + field
  | .error _ => ipv6HeaderLen

/-- The checksum field of a translated protocol stands on a word boundary behind the IP
header. -/
theorem checksumOffsetV6_eq {proto : UInt8} (h : TranslatedV6 proto) :
    ∃ field, checksumOffsetV6 proto = .ok field ∧ checksumPosV6 proto = ipv6HeaderLen + field ∧
      Even field := by
  rcases h with rfl | rfl | rfl
  · exact ⟨16, rfl, rfl, 8, rfl⟩
  · exact ⟨6, rfl, rfl, 3, rfl⟩
  · exact ⟨2, rfl, rfl, 1, rfl⟩

theorem ParsesV6.translated {buf : Bytes} (hp : ParsesV6 buf) : TranslatedV6 (protoOfV6 buf) := by
  rcases hp.transport with ⟨htcp | hudp, -⟩ | ⟨hicmp, -⟩
  · exact .inl htcp
  · exact .inr (.inl hudp)
  · exact .inr (.inr hicmp)

/-- The checksum is recomputed, or the packet ends before it and is refused as it is. -/
theorem recalcTransportChecksumV6_eq {proto : UInt8} (hproto : TranslatedV6 proto) {buf : Bytes}
    (h : ipv6HeaderLen ≤ buf.length) :
    recalcTransportChecksumV6 proto buf =
      if checksumPosV6 proto + 2 ≤ buf.length then .ok () (summedV6 proto (checksumPosV6 proto) buf)
      else .error (.error (.packetTooShort buf.length)) buf := by
  obtain ⟨field, hoffset, hpos, -⟩ := checksumOffsetV6_eq hproto
  have hends : ∀ (Q : Unit → Bytes → Prop) (E : Fault GatewayError → Bytes → Prop),
      (ipv6HeaderLen + field + 2 ≤ buf.length → Q () (summedV6 proto (ipv6HeaderLen + field) buf)) →
      (buf.length < ipv6HeaderLen + field + 2 → E (.error (.packetTooShort buf.length)) buf) →
      Ensures (recalcTransportChecksumV6 proto) buf Q E := by
    intro Q E hok herror
    unfold recalcTransportChecksumV6
    rw [ensures_bind, ensures_len, ensures_ite]
    refine ⟨fun hshort => absurd h (Nat.not_le.mpr hshort), fun _ => ?_⟩
    rw [ensures_bind, hoffset, ensures_liftExcept]
    refine ⟨fun field' hfield => ?_, fun e he => by cases he⟩
    obtain rfl : field = field' := Except.ok.inj hfield
    rw [ensures_bind, ensures_len, ensures_ite]
    refine ⟨herror, fun hlong => ?_⟩
    have hfits : ipv6HeaderLen + field + 2 ≤ buf.length := Nat.not_lt.mp hlong
    refine (ensures_iff_of_ok (overwriteField_of_read hfits (pseudoHeader_eq proto ?_))).mpr
      (hok hfits)
    rw [length_patch hfits]
    exact h
  rw [hpos]
  split
  · rename_i hfits
    rw [eq_ok_iff_ensures]
    exact hends _ _ (fun _ => ⟨rfl, rfl⟩) fun hshort => absurd hfits (Nat.not_le.mpr hshort)
  · rename_i hshort
    rw [eq_error_iff_ensures]
    exact hends _ _ (fun hfits => absurd hfits hshort) fun _ => ⟨rfl, rfl⟩

section Rewrite

variable {addrOff portOff : Nat} {packet : Bytes}

/-- The two end points that are rewritten: an address of the IP header and a port of the
transport header. -/
structure EndpointAtV6 (addrOff portOff : Nat) : Prop where
  addr_ge : 8 ≤ addrOff
  addr_le : addrOff + 16 ≤ ipv6HeaderLen
  port_le : portOff ≤ 2

theorem endpointAtV6_src : EndpointAtV6 8 0 where
  addr_ge := le_rfl
  addr_le := by decide
  port_le := Nat.zero_le 2

theorem endpointAtV6_dst : EndpointAtV6 24 2 where
  addr_ge := by decide
  addr_le := le_rfl
  port_le := le_rfl

/-- The port that is rewritten, an ICMPv6 identifier included. -/
def portAtV6 (portOff : Nat) (packet : Bytes) : Nat :=
  ipv6HeaderLen + portPos protoIcmpV6 portOff (protoOfV6 packet)

variable (hend : EndpointAtV6 addrOff portOff) (hp : ParsesV6 packet)

include hend hp

theorem agreeOutside_rewrittenV6 (addr : Octets 16) (port : UInt16) :
    AgreeOutside addrOff (addrOff + 16) packet (patch packet addrOff addr.toList) ∧
      AgreeOutside (portAtV6 portOff packet) (portAtV6 portOff packet + 2)
        (patch packet addrOff addr.toList) (rewrittenV6 addrOff portOff addr port packet) := by
  have haddr := agreeOutside_patch (List.Vector.toList_length addr)
    (hend.addr_le.trans hp.header)
  refine ⟨haddr, agreeOutside_patch (length_beBytes 2 _) ?_⟩
  rw [haddr.length_eq]
  exact hp.transport.port_le isIcmp_protoIcmpV6 hend.port_le

theorem length_rewrittenV6 (addr : Octets 16) (port : UInt16) :
    (rewrittenV6 addrOff portOff addr port packet).length = packet.length := by
  obtain ⟨haddr, hport⟩ := agreeOutside_rewrittenV6 hend hp addr port
  exact hport.length_eq.trans haddr.length_eq

/-- How a rewrite of a packet that parses ends: with the checksum computed anew, or refused
before the checksum and half rewritten. -/
theorem rewriteEndpointV6_eq (addr : Octets 16) (port : UInt16) :
    rewriteEndpointV6 addrOff portOff addr port packet =
      if checksumPosV6 (protoOfV6 packet) + 2 ≤ packet.length then
        .ok () (summedV6 (protoOfV6 packet) (checksumPosV6 (protoOfV6 packet))
          (rewrittenV6 addrOff portOff addr port packet))
      else
        .error (.error (.packetTooShort packet.length))
          (rewrittenV6 addrOff portOff addr port packet) := by
  have haddrLe : addrOff + addr.toList.length ≤ packet.length := by
    rw [List.Vector.toList_length]
    exact hend.addr_le.trans hp.header
  have hheader : ipv6NextHeader packet = .ok (protoOfV6 packet) packet := by
    rw [eq_ok_iff_ensures, ensures_ipv6NextHeader]
    exact ⟨fun hshort => absurd hp.header (Nat.not_le.mpr hshort),
      fun _ hver => absurd hp.ipv6 hver, fun _ _ => ⟨rfl, rfl⟩⟩
  have hport : rewriteTransport portOff (protoOfV6 packet) port (patch packet addrOff addr.toList) =
      .ok () (rewrittenV6 addrOff portOff addr port packet) := by
    have hfits : TransportFits protoIcmpV6 (protoOfV6 packet) ipv6HeaderLen
        (patch packet addrOff addr.toList).length := by
      rw [length_patch haddrLe]
      exact hp.transport
    obtain ⟨_, buf', hrun, rfl⟩ :=
      (ensures_rewriteTransport hend.port_le (protoOfV6 packet) port hfits).exists_ok fun _ _ h => h
    exact hrun
  have hlen := length_rewrittenV6 hend hp addr port
  unfold rewriteEndpointV6
  rw [bind_of_ok hheader, bind_of_ok (copyFromSlice_eq haddrLe), bind_of_ok hport,
    recalcTransportChecksumV6_eq hp.translated (hlen.symm ▸ hp.header), hlen]

/-- A rewrite that returns has written the checksum last. -/
theorem agreeOutside_rewriteEndpointV6 {addr : Octets 16} {port : UInt16} {packet' : Bytes}
    (hrun : rewriteEndpointV6 addrOff portOff addr port packet = .ok () packet') :
    checksumPosV6 (protoOfV6 packet) + 2 ≤ packet.length ∧
      packet' = summedV6 (protoOfV6 packet) (checksumPosV6 (protoOfV6 packet))
        (rewrittenV6 addrOff portOff addr port packet) ∧
      AgreeOutside (checksumPosV6 (protoOfV6 packet)) (checksumPosV6 (protoOfV6 packet) + 2)
        (rewrittenV6 addrOff portOff addr port packet) packet' := by
  rw [rewriteEndpointV6_eq hend hp] at hrun
  split at hrun
  · rename_i hfits
    obtain rfl := (EStateM.Result.ok.inj hrun).2
    refine ⟨hfits, rfl, agreeOutside_patch (length_beBytes 2 _) ?_⟩
    rw [length_rewrittenV6 hend hp]
    exact hfits
  · cases hrun

end Rewrite

theorem rewriteDstV6_destination {addr : Octets 16} {port : UInt16} {buf buf' : Bytes}
    (hp : ParsesV6 buf) (hrun : rewriteDstV6 addr port buf = .ok () buf') :
    window buf' 24 16 = addr.toList ∧
      wordAt buf' (ipv6HeaderLen + portPos protoIcmpV6 2 (protoOfV6 buf)) = port := by
  obtain ⟨-, -, hfinal⟩ := agreeOutside_rewriteEndpointV6 endpointAtV6_dst hp hrun
  have hport : ipv6HeaderLen + portPos protoIcmpV6 2 (protoOfV6 buf) + 2 ≤ buf.length :=
    hp.transport.port_le isIcmp_protoIcmpV6 le_rfl
  have hdisjoint : ipv6HeaderLen + 2 ≤ checksumPosV6 (protoOfV6 buf) ∧
      (ipv6HeaderLen + portPos protoIcmpV6 2 (protoOfV6 buf) + 2 ≤ checksumPosV6 (protoOfV6 buf) ∨
        checksumPosV6 (protoOfV6 buf) + 2 ≤ ipv6HeaderLen +
          portPos protoIcmpV6 2 (protoOfV6 buf)) := by
    rcases hp.translated with h | h | h <;> rw [h] <;> decide
  have hhead : ipv6HeaderLen = 40 := rfl
  obtain ⟨haddr, hword⟩ := window_patch_patch (List.Vector.toList_length addr)
    (length_beBytes 2 port.toNat) (show 24 + 16 ≤ ipv6HeaderLen + _ by omega) hport
  constructor
  · rw [hfinal.window_eq (by omega)]
    exact haddr
  · refine wordAt_eq_of_window ?_
    rw [hfinal.window_eq (by omega)]
    exact hword

end ProximityMesh.Gateway
