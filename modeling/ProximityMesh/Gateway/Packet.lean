/-
  Gateway/Packet.lean --- IPv4 packet parsing, rewriting and checksums.

  Source: crates/pim-gateway/src/engine/packet.rs.

  The functions work in place on a packet of any bytes.  They check the length
  against the header length nibble (IHL) they read first, but nothing checks
  that the nibble is at least 5, so the transport header may lie over the IP
  header.  `rewriteEndpoint_eq` is the one specification of a rewrite; what
  it leaves open is whether the port lands on the first byte of the packet,
  which holds the nibble that `recalcIpChecksum` reads again.

  Sums are written with the `+` of `UInt32`, which wraps instead of panicking; below
  2^17 bytes, more than a packet can have, no sum overflows (`toNat_onesComplementSum`).
-/
import ProximityMesh.Foundation.Buffer
import ProximityMesh.Gateway.Conntrack

set_option autoImplicit false

namespace ProximityMesh.Gateway

open BufM

/-- A computation over a packet. -/
abbrev PacketM (α : Type) : Type := BufM GatewayError α

/-- `u16::from_be_bytes([hi, lo])`. -/
def u16FromBe (hi lo : UInt8) : UInt16 := UInt16.ofNat (hi.toNat * 256 + lo.toNat)

/-- The big-endian word at `packet[i]`, `packet[i + 1]`. -/
def getU16 (i : Nat) : PacketM UInt16 := do
  return u16FromBe (← index i) (← index (i + 1))

/-! ## Checksums -/

/-- The loop of `ones_complement_sum`; a last odd byte is padded with zero. -/
def onesComplementSumFrom (sum : UInt32) : Bytes → UInt32
  | a :: b :: rest => onesComplementSumFrom (sum + (u16FromBe a b).toUInt32) rest
  | [a] => sum + (a.toUInt32 <<< 8)
  | [] => sum

def onesComplementSum (data : Bytes) : UInt32 := onesComplementSumFrom 0 data

/-- The loop of `fold_checksum`, for at most `n` turns. -/
def foldLoop : Nat → UInt32 → UInt32
  | 0, sum => sum
  | n + 1, sum =>
      let low : UInt32 := sum &&& 0xffff
      let high : UInt32 := sum >>> 16
      if high ≠ 0 then foldLoop n (low + high) else sum

/-- `fold_checksum`; `foldLoop_lt` says that two turns are enough. -/
def foldChecksum (sum : UInt32) : UInt16 := ~~~ (foldLoop 2 sum).toUInt16

theorem toNat_fold (sum : UInt32) :
    ((sum &&& 0xffff : UInt32) + sum >>> 16).toNat = sum.toNat % 65536 + sum.toNat / 65536 := by
  have hlt := sum.toNat_lt
  have hlow : (sum &&& 0xffff).toNat = sum.toNat % 65536 := by
    exact Nat.and_two_pow_sub_one_eq_mod sum.toNat 16
  have hhigh : (sum >>> 16).toNat = sum.toNat / 65536 := by
    exact Nat.shiftRight_eq_div_pow sum.toNat 16
  rw [UInt32.toNat_add]
  omega

/-- The loop of `fold_checksum` ends after two turns at most. -/
theorem foldLoop_lt (sum : UInt32) : (foldLoop 2 sum).toNat < 65536 := by
  have hzero : ∀ s : UInt32, ¬ s >>> 16 ≠ 0 → s.toNat < 65536 := by
    intro s hs
    have hdiv : s.toNat / 65536 = 0 := by
      have := congrArg UInt32.toNat (not_not.mp hs)
      rwa [UInt32.toNat_shiftRight, Nat.shiftRight_eq_div_pow] at this
    omega
  have hlt := sum.toNat_lt
  have hfirst := toNat_fold sum
  simp only [foldLoop]
  split
  · split
    · rw [toNat_fold]
      omega
    · rename_i hsecond
      exact hzero _ hsecond
  · rename_i hnone
    exact hzero _ hnone

/-! ## Parsing -/

/-- Minimum IPv4 header size (no options). -/
def ipHeaderMin : Nat := 20

def ipIhl : PacketM Nat := do
  return ((← index 0) &&& 0x0f).toNat * 4

def ipProtocol : PacketM UInt8 := do
  if (← len) < ipHeaderMin then fail (.packetTooShort (← len))
  if (← index 0) >>> 4 ≠ 4 then fail .notIpv4
  index 9

/-- The port (or ICMP id) of the transport header at `ihl`: the source port at
offset 0, the destination port at offset 2.  Both IP versions read it alike, with
their own protocol number `icmp`. -/
def transportPort (icmp : UInt8) (portOff : Nat) (proto : UInt8) (ihl : Nat) :
    PacketM UInt16 := do
  if proto = protoTcp ∨ proto = protoUdp then
    if (← len) < ihl + 4 then fail (.packetTooShort (← len))
    getU16 (ihl + portOff)
  else if proto = icmp then
    if (← len) < ihl + 8 then fail (.packetTooShort (← len))
    getU16 (ihl + 4)
  else fail (.unsupportedProtocol proto)

/-- The reads that `parse_flow`, `rewrite_src` and `rewrite_dst` start with:
protocol, header length, the address at `addrOff` and the port. -/
def parseEndpoint (addrOff portOff : Nat) : PacketM (UInt8 × Nat × Octets 4 × UInt16) := do
  let proto ← ipProtocol
  let ihl ← ipIhl
  let addr ← octets addrOff 4
  let port ← transportPort protoIcmp portOff proto ihl
  return (proto, ihl, addr, port)

/-- Extract (protocol, src_ip, src_port) from an outbound packet. -/
def parseFlow : PacketM (UInt8 × Octets 4 × UInt16) := do
  let (proto, _, srcIp, srcPort) ← parseEndpoint 12 0
  return (proto, srcIp, srcPort)

def transportDstPort (proto : UInt8) : PacketM UInt16 := do
  let ihl ← ipIhl
  transportPort protoIcmp 2 proto ihl

/-! ## Rewriting -/

/-- Recalculate and overwrite the IP header checksum; the header length is read
again. -/
def recalcIpChecksum : PacketM Unit := do
  let ihl ← ipIhl
  copyFromSlice 10 [0]
  copyFromSlice 11 [0]
  let header ← slice 0 ihl
  copyFromSlice 10 (beBytes 2 (foldChecksum (onesComplementSum header)).toNat)

/-- The 16-bit word of an address at byte `i`. -/
def addrWord (addr : Octets 4) (i : Nat) : UInt16 :=
  u16FromBe (addr.toList.getD i 0) (addr.toList.getD (i + 1) 0)

/-- Offset of the checksum field in the transport header. -/
def checksumOffset (proto : UInt8) : Option Nat :=
  if proto = protoTcp then some 16
  else if proto = protoUdp then some 6
  else if proto = protoIcmp then some 2
  else none

/-- Update the transport checksum after an address and port rewrite: ICMP is
summed anew, TCP and UDP use the RFC 1624 increment. -/
def recalcTransportChecksum (proto : UInt8) (ihl : Nat) (oldAddr newAddr : Octets 4)
    (oldPort newPort : UInt16) : PacketM Unit := do
  match checksumOffset proto with
  | none => return ()
  | some field =>
      let cksumOffset := ihl + field
      if (← len) < cksumOffset + 2 then return ()
      else if proto = protoIcmp then
        let icmpEnd ← len
        copyFromSlice cksumOffset [0]
        copyFromSlice (cksumOffset + 1) [0]
        let body ← slice ihl icmpEnd
        copyFromSlice cksumOffset (beBytes 2 (foldChecksum (onesComplementSum body)).toNat)
      else
        let oldCksum ← getU16 cksumOffset
        -- a UDP checksum of zero means that none was computed
        if oldCksum = 0 ∧ proto = protoUdp then return ()
        else
          let cksum := (~~~ oldCksum).toUInt32
            + (~~~ addrWord oldAddr 0).toUInt32 + (addrWord newAddr 0).toUInt32
            + (~~~ addrWord oldAddr 2).toUInt32 + (addrWord newAddr 2).toUInt32
            + (~~~ oldPort).toUInt32 + newPort.toUInt32
          copyFromSlice cksumOffset (beBytes 2 (foldChecksum cksum).toNat)

/-- Rewrite one end point: the address at `addrOff` of the IP header, the port at
`portOff` of the transport header (the id for ICMP), and both checksums. -/
def rewriteEndpoint (addrOff portOff : Nat) (newAddr : Octets 4) (newPort : UInt16) :
    PacketM Unit := do
  let (proto, ihl, oldAddr, oldPort) ← parseEndpoint addrOff portOff
  copyFromSlice addrOff newAddr.toList
  copyFromSlice (ihl + if proto = protoIcmp then 4 else portOff) (beBytes 2 newPort.toNat)
  recalcIpChecksum
  recalcTransportChecksum proto ihl oldAddr newAddr oldPort newPort

/-- Rewrite source IP and source port; recalculate checksums. -/
def rewriteSrc (newSrc : Octets 4) (newPort : UInt16) : PacketM Unit :=
  rewriteEndpoint 12 0 newSrc newPort

/-- Rewrite destination IP and destination port; recalculate checksums. -/
def rewriteDst (newDst : Octets 4) (newPort : UInt16) : PacketM Unit :=
  rewriteEndpoint 16 2 newDst newPort

/-! ## What parsing reads -/

/-- The header length of a packet in bytes. -/
def ihlOf (buf : Bytes) : Nat := (byteAt buf 0 &&& 0x0f).toNat * 4

def protoOf (buf : Bytes) : UInt8 := byteAt buf 9

/-- The big-endian word at a position. -/
def wordAt (buf : Bytes) (i : Nat) : UInt16 := u16FromBe (byteAt buf i) (byteAt buf (i + 1))

/-- Where the rewritten port stands in the transport header. -/
def portPos (icmp : UInt8) (portOff : Nat) (proto : UInt8) : Nat :=
  if proto = icmp then 4 else portOff

/-- A transport header of a translated protocol reaches as far as it is read. -/
def TransportFits (icmp proto : UInt8) (ihl len : Nat) : Prop :=
  ((proto = protoTcp ∨ proto = protoUdp) ∧ ihl + 4 ≤ len) ∨ (proto = icmp ∧ ihl + 8 ≤ len)

/-- A protocol number for ICMP that is neither TCP's nor UDP's. -/
def IsIcmp (icmp : UInt8) : Prop := icmp ≠ protoTcp ∧ icmp ≠ protoUdp

theorem isIcmp_protoIcmp : IsIcmp protoIcmp := ⟨by decide, by decide⟩

/-- The packet has an IPv4 header and the transport bytes that are read. -/
structure Parses (buf : Bytes) : Prop where
  header : ipHeaderMin ≤ buf.length
  ipv4 : byteAt buf 0 >>> 4 = 4
  transport : TransportFits protoIcmp (protoOf buf) (ihlOf buf) buf.length

theorem ensures_getU16 (i : Nat) (buf : Bytes) (Q : UInt16 → Bytes → Prop)
    (E : Fault GatewayError → Bytes → Prop) (h : i + 1 < buf.length) :
    Ensures (getU16 i) buf Q E ↔ Q (wordAt buf i) buf := by
  have h₀ : i < buf.length := by omega
  simp only [getU16, ensures_bind, ensures_index, h₀, h, true_imp_iff, Nat.not_le.mpr h₀,
    Nat.not_le.mpr h, false_imp_iff, and_true]
  rfl

/-- The header part of every function: it reads the protocol of an IPv4 packet
or ends in an error. -/
theorem ensures_ipProtocol (buf : Bytes) (Q : UInt8 → Bytes → Prop)
    (E : Fault GatewayError → Bytes → Prop) :
    Ensures ipProtocol buf Q E ↔
      (buf.length < ipHeaderMin → E (.error (.packetTooShort buf.length)) buf) ∧
      (ipHeaderMin ≤ buf.length → byteAt buf 0 >>> 4 ≠ 4 → E (.error .notIpv4) buf) ∧
      (ipHeaderMin ≤ buf.length → byteAt buf 0 >>> 4 = 4 → Q (protoOf buf) buf) := by
  have hlen : ipHeaderMin ≤ buf.length → 9 < buf.length := by
    intro h
    exact Nat.lt_of_lt_of_le (by decide) h
  simp only [ipProtocol, ensures_bind, ensures_len, ensures_ite, ensures_fail, ensures_index,
    protoOf]
  grind

theorem ensures_ipIhl (buf : Bytes) (Q : Nat → Bytes → Prop)
    (E : Fault GatewayError → Bytes → Prop) (h : 0 < buf.length) :
    Ensures ipIhl buf Q E ↔ Q (ihlOf buf) buf := by
  simp only [ipIhl, ensures_bind, ensures_index, h, true_imp_iff, Nat.not_le.mpr h, false_imp_iff,
    and_true]
  rfl

variable {portOff addrOff i : Nat} {buf : Bytes}

/-- The port is read, or the packet is refused; nothing is out of bounds. -/
theorem ensures_transportPort {icmp : UInt8} (hicmp₀ : IsIcmp icmp) (hoff : portOff ≤ 2)
    (proto : UInt8) (ihl : Nat) (buf : Bytes) :
    Ensures (transportPort icmp portOff proto ihl) buf
      (fun port buf' => buf' = buf ∧ port = wordAt buf (ihl + portPos icmp portOff proto) ∧
        TransportFits icmp proto ihl buf.length)
      (fun f buf' => buf' = buf ∧ f ≠ .panic ∧ ¬ TransportFits icmp proto ihl buf.length) := by
  have hnot : proto = protoTcp ∨ proto = protoUdp → proto ≠ icmp := by
    rintro (rfl | rfl)
    · exact hicmp₀.1.symm
    · exact hicmp₀.2.symm
  unfold transportPort portPos
  split
  · rename_i htcp
    rw [ensures_bind, ensures_len, ensures_ite]
    constructor
    · intro hshort
      simp only [ensures_bind, ensures_len, ensures_fail, ne_eq, reduceCtorEq, not_false_eq_true,
        true_and]
      rintro (⟨_, hlong⟩ | ⟨hicmp, _⟩)
      · omega
      · exact hnot htcp hicmp
    · intro hlong
      have hlong' : ihl + 4 ≤ buf.length := Nat.not_lt.mp hlong
      rw [ensures_getU16 _ _ _ _ (by omega)]
      exact ⟨rfl, by rw [if_neg (hnot htcp)], .inl ⟨htcp, hlong'⟩⟩
  · rename_i htcp
    split
    · rename_i hicmp
      rw [ensures_bind, ensures_len, ensures_ite]
      constructor
      · intro hshort
        simp only [ensures_bind, ensures_len, ensures_fail, ne_eq, reduceCtorEq,
          not_false_eq_true, true_and]
        rintro (⟨h, _⟩ | ⟨_, hlong⟩)
        · exact htcp h
        · omega
      · intro hlong
        have hlong' : ihl + 8 ≤ buf.length := Nat.not_lt.mp hlong
        rw [ensures_getU16 _ _ _ _ (by omega)]
        exact ⟨rfl, rfl, .inr ⟨hicmp, hlong'⟩⟩
    · rename_i hicmp
      refine ⟨rfl, by simp, ?_⟩
      rintro (⟨h, _⟩ | ⟨h, _⟩)
      · exact htcp h
      · exact hicmp h

/-- The parsing of every translation starts alike: on a packet that does not
parse it ends in an error, on one that does it goes on with the protocol and the
header length. -/
theorem ensures_header {α : Type} {m : UInt8 → Nat → PacketM α} {Q : α → Bytes → Prop}
    {E : Fault GatewayError → Bytes → Prop} (hE : ∀ f, f ≠ .panic → ¬ Parses buf → E f buf)
    (hm : ipHeaderMin ≤ buf.length → byteAt buf 0 >>> 4 = 4 →
      Ensures (m (protoOf buf) (ihlOf buf)) buf Q E) :
    Ensures (do
      let proto ← ipProtocol
      let ihl ← ipIhl
      m proto ihl) buf Q E := by
  rw [ensures_bind, ensures_ipProtocol]
  refine ⟨fun hshort => hE _ (by simp) fun hp => absurd hp.header (Nat.not_le.mpr hshort),
    fun _ hver => hE _ (by simp) fun hp => hver hp.ipv4, fun hlong hver => ?_⟩
  rw [ensures_bind, ensures_ipIhl _ _ _ (Nat.lt_of_lt_of_le (by decide) hlong)]
  exact hm hlong hver

/-- Parsing an end point changes nothing, and succeeds exactly on a packet that
parses. -/
theorem ensures_parseEndpoint (haddr : addrOff + 4 ≤ ipHeaderMin) (hoff : portOff ≤ 2)
    (buf : Bytes) :
    Ensures (parseEndpoint addrOff portOff) buf
      (fun r buf' => buf' = buf ∧ Parses buf ∧ r.1 = protoOf buf ∧ r.2.1 = ihlOf buf ∧
        r.2.2.1.toList = window buf addrOff 4 ∧
        r.2.2.2 = wordAt buf (ihlOf buf + portPos protoIcmp portOff (protoOf buf)))
      (fun f buf' => buf' = buf ∧ f ≠ .panic ∧ ¬ Parses buf) := by
  refine ensures_header (fun f hf hp => ⟨rfl, hf, hp⟩) fun hlong hver => ?_
  rw [ensures_bind, ensures_octets]
  refine ⟨fun hbound => ?_, fun hbound => by omega⟩
  rw [ensures_bind]
  refine (ensures_transportPort isIcmp_protoIcmp hoff (protoOf buf) (ihlOf buf) buf).mono ?_ ?_
  · rintro port buf' ⟨rfl, rfl, hfits⟩
    exact ⟨rfl, ⟨hlong, hver, hfits⟩, rfl, rfl, rfl, rfl⟩
  · rintro f buf' ⟨rfl, hf, hfits⟩
    exact ⟨rfl, hf, fun hp => hfits hp.transport⟩

theorem ensures_parseFlow (buf : Bytes) :
    Ensures parseFlow buf
      (fun r buf' => buf' = buf ∧ Parses buf ∧ r.1 = protoOf buf ∧ r.2.1.toList = window buf 12 4 ∧
        r.2.2 = wordAt buf (ihlOf buf + portPos protoIcmp 0 (protoOf buf)))
      (fun f buf' => buf' = buf ∧ f ≠ .panic ∧ ¬ Parses buf) := by
  unfold parseFlow
  rw [ensures_bind]
  refine (ensures_parseEndpoint (by decide) (by decide) buf).mono ?_ fun _ _ h => h
  rintro ⟨proto, ihl, srcIp, srcPort⟩ buf' ⟨rfl, hp, hproto, _, hip, hport⟩
  exact ⟨rfl, hp, hproto, hip, hport⟩

theorem ensures_transportDstPort (buf : Bytes) :
    Ensures (do
      let proto ← ipProtocol
      let dstPort ← transportDstPort proto
      return (proto, dstPort)) buf
      (fun r buf' => buf' = buf ∧ Parses buf ∧
        r = (protoOf buf, wordAt buf (ihlOf buf + portPos protoIcmp 2 (protoOf buf))))
      (fun f buf' => buf' = buf ∧ f ≠ .panic ∧ ¬ Parses buf) := by
  simp only [transportDstPort, bind_assoc]
  refine ensures_header (fun f hf hp => ⟨rfl, hf, hp⟩) fun hlong hver => ?_
  rw [ensures_bind]
  refine (ensures_transportPort isIcmp_protoIcmp (by decide) (protoOf buf)
    (ihlOf buf) buf).mono ?_ ?_
  · rintro port buf' ⟨rfl, rfl, hfits⟩
    exact ⟨rfl, ⟨hlong, hver, hfits⟩, rfl⟩
  · rintro f buf' ⟨rfl, hf, hfits⟩
    exact ⟨rfl, hf, fun hp => hfits hp.transport⟩

/-! ## What rewriting writes -/

variable {pos : Nat} {data : Bytes}

/-- Both checksums are cleared byte by byte before they are computed. -/
theorem clearWord_bind {α : Type} (k : PacketM α) (hpos : pos + 2 ≤ buf.length) :
    (do
      copyFromSlice pos [0]
      copyFromSlice (pos + 1) [0]
      k) buf = k (patch buf pos [0, 0]) := by
  have hbyte : pos + 1 ≤ buf.length := Nat.le_of_succ_le hpos
  have hfirst : (patch buf pos [0]).length = buf.length := length_patch hbyte
  have hhigh : (copyFromSlice pos [0] : PacketM Unit) buf = .ok () (patch buf pos [0]) :=
    copyFromSlice_eq hbyte
  have hlow : (copyFromSlice (pos + 1) [0] : PacketM Unit) (patch buf pos [0]) =
      .ok () (patch buf pos [0, 0]) := by
    rw [copyFromSlice_eq (hfirst.symm ▸ hpos)]
    exact congrArg _ (patch_patch_append hbyte)
  rw [bind_of_ok hhigh, bind_of_ok hlow]

/-- Clearing a word, summing what is read then, and writing the complement of the sum. -/
theorem overwriteField_of_read {m : PacketM Bytes} (hpos : pos + 2 ≤ buf.length)
    (hread : m (patch buf pos [0, 0]) = .ok data (patch buf pos [0, 0])) :
    (do
      copyFromSlice pos [0]
      copyFromSlice (pos + 1) [0]
      let data ← m
      copyFromSlice pos (beBytes 2 (foldChecksum (onesComplementSum data)).toNat) : PacketM Unit)
        buf = .ok () (patch buf pos (beBytes 2 (foldChecksum (onesComplementSum data)).toNat)) := by
  rw [clearWord_bind _ hpos, bind_of_ok hread, copyFromSlice_eq]
  · exact congrArg _ (patch_patch_self (by rw [length_beBytes]; rfl) hpos)
  · rw [length_patch hpos]
    exact hpos

/-- The bytes with the checksum of `lo..lo + n` written into the word at `pos`. -/
def summed (lo n pos : Nat) (buf : Bytes) : Bytes :=
  patch buf pos
    (beBytes 2 (foldChecksum (onesComplementSum (window (patch buf pos [0, 0]) lo n))).toNat)

theorem agreeOutside_summed (lo n : Nat) (h : pos + 2 ≤ buf.length) :
    AgreeOutside pos (pos + 2) buf (summed lo n pos buf) :=
  agreeOutside_patch (length_beBytes 2 _) h

theorem overwriteField_eq {lo n : Nat} (hpos : pos + 2 ≤ buf.length) (hn : lo + n ≤ buf.length) :
    (do
      copyFromSlice pos [0]
      copyFromSlice (pos + 1) [0]
      let data ← slice lo (lo + n)
      copyFromSlice pos (beBytes 2 (foldChecksum (onesComplementSum data)).toNat) : PacketM Unit)
        buf = .ok () (summed lo n pos buf) := by
  refine overwriteField_of_read hpos ?_
  have hlen : (patch buf pos [0, 0]).length = buf.length := length_patch hpos
  rw [slice, if_pos ⟨Nat.le_add_right lo n, hlen.symm ▸ hn⟩, Nat.add_sub_cancel_left]

/-- The header is summed as far as the header length says; the slice panics if that is behind
the end of the packet. -/
theorem recalcIpChecksum_eq (hmin : 12 ≤ buf.length) :
    recalcIpChecksum buf =
      if ihlOf buf ≤ buf.length then .ok () (summed 0 (ihlOf buf) 10 buf)
      else .error .panic (patch buf 10 [0, 0]) := by
  have hread : ipIhl buf = .ok (ihlOf buf) buf := by
    rw [eq_ok_iff_ensures, ensures_ipIhl _ _ _ (by omega)]
    exact ⟨rfl, rfl⟩
  unfold recalcIpChecksum
  rw [bind_of_ok hread]
  split
  · have hwrite := @overwriteField_eq buf 10 0 (ihlOf buf) hmin (by omega)
    rw [Nat.zero_add] at hwrite
    exact hwrite
  · rename_i hlong
    have hlen : (patch buf 10 [0, 0]).length = buf.length := length_patch hmin
    rw [clearWord_bind _ hmin, eq_error_iff_ensures, ensures_bind, ensures_slice]
    exact ⟨fun _ hle => absurd (hlen ▸ hle) hlong, fun _ => ⟨rfl, rfl⟩⟩

/-- Where the transport checksum of a translated protocol stands. -/
def checksumPos (proto : UInt8) (ihl : Nat) : Nat := ihl + (checksumOffset proto).getD 0

/-- The RFC 1624 increment for an address and a port. -/
def adjusted (oldCksum : UInt16) (oldAddr newAddr : Octets 4) (oldPort newPort : UInt16) : UInt16 :=
  foldChecksum ((~~~ oldCksum).toUInt32
    + (~~~ addrWord oldAddr 0).toUInt32 + (addrWord newAddr 0).toUInt32
    + (~~~ addrWord oldAddr 2).toUInt32 + (addrWord newAddr 2).toUInt32
    + (~~~ oldPort).toUInt32 + newPort.toUInt32)

/-- What `recalcTransportChecksum` makes of a packet with a complete transport
header. -/
def transportSummed (proto : UInt8) (ihl : Nat) (oldAddr newAddr : Octets 4)
    (oldPort newPort : UInt16) (buf : Bytes) : Bytes :=
  if proto = protoIcmp then summed ihl (buf.length - ihl) (checksumPos proto ihl) buf
  else if wordAt buf (checksumPos proto ihl) = 0 ∧ proto = protoUdp then buf
  else
    patch buf (checksumPos proto ihl) (beBytes 2
      (adjusted (wordAt buf (checksumPos proto ihl)) oldAddr newAddr oldPort newPort).toNat)

/-- What it makes of any packet: one that ends before the checksum is left as it is. -/
def transportUpdated (proto : UInt8) (ihl : Nat) (oldAddr newAddr : Octets 4)
    (oldPort newPort : UInt16) (buf : Bytes) : Bytes :=
  if (checksumOffset proto).isSome ∧ checksumPos proto ihl + 2 ≤ buf.length then
    transportSummed proto ihl oldAddr newAddr oldPort newPort buf
  else buf

section Transport

variable (proto : UInt8) (ihl : Nat) (oldAddr newAddr : Octets 4) (oldPort newPort : UInt16)

theorem agreeOutside_transportSummed (h : checksumPos proto ihl + 2 ≤ buf.length) :
    AgreeOutside (checksumPos proto ihl) (checksumPos proto ihl + 2) buf
      (transportSummed proto ihl oldAddr newAddr oldPort newPort buf) := by
  unfold transportSummed
  split
  · exact agreeOutside_summed _ _ h
  · split
    · exact AgreeOutside.refl _ _ _
    · exact agreeOutside_patch (length_beBytes 2 _) h

theorem agreeOutside_transportUpdated (buf : Bytes) :
    AgreeOutside (checksumPos proto ihl) (checksumPos proto ihl + 2) buf
      (transportUpdated proto ihl oldAddr newAddr oldPort newPort buf) := by
  unfold transportUpdated
  split
  · rename_i h
    exact agreeOutside_transportSummed _ _ _ _ _ _ h.2
  · exact AgreeOutside.refl _ _ _

/-- The transport checksum is updated in its field, without a fault. -/
theorem recalcTransportChecksum_eq (buf : Bytes) :
    recalcTransportChecksum proto ihl oldAddr newAddr oldPort newPort buf =
      .ok () (transportUpdated proto ihl oldAddr newAddr oldPort newPort buf) := by
  unfold recalcTransportChecksum transportUpdated transportSummed checksumPos
  cases checksumOffset proto with
  | none => rfl
  | some field =>
    rw [eq_ok_iff_ensures]
    dsimp only [Option.getD_some, Option.isSome_some]
    rw [ensures_bind, ensures_len, ensures_ite]
    refine ⟨fun hshort => ?_, fun hlong => ?_⟩
    · rw [if_neg fun h => absurd h.2 (Nat.not_le.mpr hshort)]
      exact ⟨rfl, rfl⟩
    have hfield : ihl + field + 2 ≤ buf.length := Nat.not_lt.mp hlong
    rw [ensures_ite]
    refine ⟨fun hicmp => ?_, fun hicmp => ?_⟩ <;> rw [if_pos ⟨rfl, hfield⟩]
    · -- the slice from the header on is always inside the packet
      rw [if_pos hicmp, ensures_bind, ensures_len, ← eq_ok_iff_ensures]
      have hwrite := @overwriteField_eq buf (ihl + field) ihl (buf.length - ihl) hfield (by omega)
      rw [Nat.add_sub_cancel' (show ihl ≤ buf.length by omega)] at hwrite
      exact hwrite
    · rw [if_neg hicmp, ensures_bind, ensures_getU16 _ _ _ _ (by omega), ensures_ite]
      refine ⟨fun hzero => ?_, fun hzero => ?_⟩
      · rw [if_pos hzero]
        exact ⟨rfl, rfl⟩
      · rw [if_neg hzero, ensures_copyFromSlice, length_beBytes]
        exact ⟨fun _ => ⟨rfl, rfl⟩, fun hshort => by omega⟩

end Transport

/-- The two end points that are rewritten: an address of the IP header and a port of
the transport header, both on word boundaries. -/
structure EndpointAt (addrOff portOff : Nat) : Prop where
  addr_ge : 12 ≤ addrOff
  addr_le : addrOff + 4 ≤ ipHeaderMin
  addr_even : Even addrOff
  port_le : portOff ≤ 2
  port_even : Even portOff

theorem endpointAt_src : EndpointAt 12 0 where
  addr_ge := le_rfl
  addr_le := by decide
  addr_even := by decide
  port_le := by decide
  port_even := by decide

theorem endpointAt_dst : EndpointAt 16 2 where
  addr_ge := by decide
  addr_le := by decide
  addr_even := by decide
  port_le := le_rfl
  port_even := by decide

/-- The packet after the address and the port are written, before the
checksums. -/
def rewritten (addrOff portOff : Nat) (addr : Octets 4) (port : UInt16) (buf : Bytes) : Bytes :=
  patch (patch buf addrOff addr.toList) (ihlOf buf + portPos protoIcmp portOff (protoOf buf))
    (beBytes 2 port.toNat)

/-- The packet after the IP checksum is written too. -/
def headerSummed (addrOff portOff : Nat) (addr : Octets 4) (port : UInt16) (packet : Bytes) :
    Bytes :=
  summed 0 (ihlOf packet) 10 (rewritten addrOff portOff addr port packet)

theorem TransportFits.port_le {icmp proto : UInt8} {ihl len : Nat} (hicmp₀ : IsIcmp icmp)
    (h : TransportFits icmp proto ihl len) (hoff : portOff ≤ 2) :
    ihl + portPos icmp portOff proto + 2 ≤ len := by
  unfold portPos
  rcases h with ⟨htcp, hlen⟩ | ⟨hicmp, hlen⟩
  · split <;> rename_i hicmp
    · rcases htcp with h | h
      · exact absurd (hicmp.symm.trans h) hicmp₀.1
      · exact absurd (hicmp.symm.trans h) hicmp₀.2
    · omega
  · rw [if_pos hicmp]
    omega

theorem Parses.port_le (hp : Parses buf) (hoff : portOff ≤ 2) :
    ihlOf buf + portPos protoIcmp portOff (protoOf buf) + 2 ≤ buf.length :=
  hp.transport.port_le isIcmp_protoIcmp hoff

/-- The port that is rewritten, an ICMP id included. -/
def portAt (portOff : Nat) (packet : Bytes) : Nat :=
  ihlOf packet + portPos protoIcmp portOff (protoOf packet)

theorem EndpointAt.addr_fits (hend : EndpointAt addrOff portOff) (hp : Parses buf)
    (addr : Octets 4) : addrOff + addr.toList.length ≤ buf.length := by
  rw [List.Vector.toList_length]
  exact hend.addr_le.trans hp.header

theorem wordAt_eq_of_window {v : UInt16} (h : window buf i 2 = beBytes 2 v.toNat) :
    wordAt buf i = v := by
  have h₀ := byteAt_eq_of_window (j := 0) h (by omega)
  have h₁ := byteAt_eq_of_window (j := 1) h (by omega)
  have hv := v.toNat_lt
  rw [Nat.add_zero] at h₀
  refine UInt16.toNat_inj.mp ?_
  rw [wordAt, h₀, h₁]
  simp only [byteAt, beBytes, List.getD_cons_zero, List.getD_cons_succ, u16FromBe,
    UInt16.toNat_ofNat', UInt8.toNat_ofNat']
  omega

theorem wordAt_of_agreeOutside {lo hi : Nat} {buf' : Bytes} (h : AgreeOutside lo hi buf buf')
    (hd : i + 2 ≤ lo ∨ hi ≤ i) : wordAt buf' i = wordAt buf i := by
  rw [wordAt, wordAt, h.byteAt_eq (by omega), h.byteAt_eq (by omega)]

theorem wordAt_patch_self {pos : Nat} (v : UInt16) (h : pos + 2 ≤ buf.length) :
    wordAt (patch buf pos (beBytes 2 v.toNat)) pos = v := by
  have hlen := length_beBytes 2 v.toNat
  have hself : window (patch buf pos (beBytes 2 v.toNat)) pos (beBytes 2 v.toNat).length =
      beBytes 2 v.toNat := window_patch_self (hlen.symm ▸ h)
  exact wordAt_eq_of_window hself

theorem window_two_eq (h : i + 2 ≤ buf.length) :
    window buf i 2 = beBytes 2 (wordAt buf i).toNat := by
  obtain ⟨a, b, hwin⟩ := List.length_eq_two.mp (length_window h)
  have h₀ := byteAt_eq_of_window hwin (Nat.zero_lt_succ 1)
  have h₁ := byteAt_eq_of_window hwin (Nat.lt_succ_self 1)
  rw [Nat.add_zero, byteAt_cons_zero] at h₀
  rw [byteAt_cons_succ, byteAt_cons_zero] at h₁
  have hword : (wordAt buf i).toNat = beNat (window buf i 2) := by
    have ha := a.toNat_lt
    have hb := b.toNat_lt
    rw [wordAt, h₀, h₁, hwin, u16FromBe, UInt16.toNat_ofNat']
    simp only [beNat, List.length_cons, List.length_nil]
    omega
  rw [hword, beBytes_beNat (length_window h)]

variable (hend : EndpointAt addrOff portOff) (addr : Octets 4) (port : UInt16) (hp : Parses buf)

include hend hp

/-- The two writes before the checksums, each with the bytes it leaves alone. -/
theorem agreeOutside_rewritten :
    AgreeOutside addrOff (addrOff + 4) buf (patch buf addrOff addr.toList) ∧
      AgreeOutside (portAt portOff buf) (portAt portOff buf + 2) (patch buf addrOff addr.toList)
        (rewritten addrOff portOff addr port buf) := by
  have haddr := agreeOutside_patch (List.Vector.toList_length addr) (hend.addr_le.trans hp.header)
  refine ⟨haddr, agreeOutside_patch (length_beBytes 2 _) ?_⟩
  rw [haddr.length_eq]
  exact hp.port_le hend.port_le

theorem length_rewritten : (rewritten addrOff portOff addr port buf).length = buf.length := by
  obtain ⟨haddr, hport⟩ := agreeOutside_rewritten hend addr port hp
  exact hport.length_eq.trans haddr.length_eq

theorem agreeOutside_headerSummed :
    AgreeOutside addrOff (addrOff + 4) buf (patch buf addrOff addr.toList) ∧
      AgreeOutside (portAt portOff buf) (portAt portOff buf + 2) (patch buf addrOff addr.toList)
        (rewritten addrOff portOff addr port buf) ∧
      AgreeOutside 10 12 (rewritten addrOff portOff addr port buf)
        (headerSummed addrOff portOff addr port buf) := by
  obtain ⟨haddr, hport⟩ := agreeOutside_rewritten hend addr port hp
  refine ⟨haddr, hport, agreeOutside_summed 0 _ ?_⟩
  rw [length_rewritten hend addr port hp]
  exact le_trans (by decide) hp.header

theorem length_headerSummed : (headerSummed addrOff portOff addr port buf).length = buf.length :=
  (agreeOutside_headerSummed hend addr port hp).2.2.length_eq.trans
    (length_rewritten hend addr port hp)

/-- A rewrite of a packet that parses writes the end point and then the two
checksum fields; it panics exactly when the header length it reads again is
longer than the packet. -/
theorem rewriteEndpoint_eq :
    ∃ oldAddr : Octets 4, oldAddr.toList = window buf addrOff 4 ∧
      rewriteEndpoint addrOff portOff addr port buf =
        if ihlOf (rewritten addrOff portOff addr port buf) ≤ buf.length then
          .ok () (transportUpdated (protoOf buf) (ihlOf buf) oldAddr addr
            (wordAt buf (portAt portOff buf)) port
            (summed 0 (ihlOf (rewritten addrOff portOff addr port buf)) 10
              (rewritten addrOff portOff addr port buf)))
        else .error .panic (patch (rewritten addrOff portOff addr port buf) 10 [0, 0]) := by
  obtain ⟨⟨proto, ihl, oldAddr, oldPort⟩, buf', hparse, rfl, -, hproto, rfl, haddr, hport⟩ :=
    (ensures_parseEndpoint hend.addr_le hend.port_le buf).exists_ok fun f buf' hf => hf.2.2 hp
  subst hproto hport
  refine ⟨oldAddr, haddr, ?_⟩
  have hbound := hend.addr_fits hp addr
  have hlen := length_rewritten hend addr port hp
  have hwritePort : (copyFromSlice (ihlOf buf' + if protoOf buf' = protoIcmp then 4 else portOff)
      (beBytes 2 port.toNat) : PacketM Unit) (patch buf' addrOff addr.toList) =
        .ok () (rewritten addrOff portOff addr port buf') := by
    apply copyFromSlice_eq
    rw [length_patch hbound]
    exact hp.port_le hend.port_le
  have hheader := recalcIpChecksum_eq (hlen.symm ▸ le_trans (by decide) hp.header)
  rw [hlen] at hheader
  unfold rewriteEndpoint
  rw [bind_of_ok hparse]
  dsimp only
  rw [bind_of_ok (copyFromSlice_eq hbound), bind_of_ok hwritePort]
  split
  · rename_i hle
    rw [if_pos hle] at hheader
    rw [bind_of_ok hheader, recalcTransportChecksum_eq]
    rfl
  · rename_i hlong
    rw [if_neg hlong] at hheader
    show EStateM.bind _ _ _ = _
    rw [EStateM.bind, hheader]

theorem rewriteEndpoint_cases :
    (ihlOf (rewritten addrOff portOff addr port buf) ≤ buf.length ∧
      ∃ mid final, rewriteEndpoint addrOff portOff addr port buf = .ok () final ∧
        AgreeOutside 10 12 (rewritten addrOff portOff addr port buf) mid ∧
          AgreeOutside (checksumPos (protoOf buf) (ihlOf buf))
            (checksumPos (protoOf buf) (ihlOf buf) + 2) mid final) ∨
      (¬ ihlOf (rewritten addrOff portOff addr port buf) ≤ buf.length ∧
        ∃ left, rewriteEndpoint addrOff portOff addr port buf = .error .panic left) := by
  obtain ⟨oldAddr, -, heq⟩ := rewriteEndpoint_eq hend addr port hp
  have hlen := length_rewritten hend addr port hp
  rw [heq]
  split
  · rename_i hle
    refine .inl ⟨hle, _, _, rfl, agreeOutside_summed _ _ ?_, agreeOutside_transportUpdated ..⟩
    rw [hlen]
    exact le_trans (by decide) hp.header
  · rename_i hlong
    exact .inr ⟨hlong, _, rfl⟩

theorem agreeOutside_rewriteEndpoint {buf' : Bytes}
    (hrun : rewriteEndpoint addrOff portOff addr port buf = .ok () buf') :
    ∃ mid, AgreeOutside 10 12 (rewritten addrOff portOff addr port buf) mid ∧
      AgreeOutside (checksumPos (protoOf buf) (ihlOf buf))
        (checksumPos (protoOf buf) (ihlOf buf) + 2) mid buf' := by
  rcases rewriteEndpoint_cases hend addr port hp with
    ⟨-, mid, final, hok, hmid, hfinal⟩ | ⟨-, left, herror⟩
  · obtain rfl := (EStateM.Result.ok.inj (hok.symm.trans hrun)).2
    exact ⟨mid, hmid, hfinal⟩
  · cases herror.symm.trans hrun

/-! ## The header length that is read again -/

/-- A port that is not written over the first byte leaves the header length as
it was read first. -/
theorem ihlOf_rewritten (hpos : 0 < portAt portOff buf) :
    ihlOf (rewritten addrOff portOff addr port buf) = ihlOf buf := by
  obtain ⟨haddr, hport⟩ := agreeOutside_rewritten hend addr port hp
  unfold ihlOf
  rw [hport.byteAt_eq (.inl hpos), haddr.byteAt_eq (.inl (Nat.zero_lt_of_lt hend.addr_ge))]

/-- A rewrite that does not write over the first byte returns. -/
theorem rewriteEndpoint_eq_ok (hpos : 0 < portAt portOff buf) :
    ∃ oldAddr : Octets 4, oldAddr.toList = window buf addrOff 4 ∧
      rewriteEndpoint addrOff portOff addr port buf =
        .ok () (transportUpdated (protoOf buf) (ihlOf buf) oldAddr addr
          (wordAt buf (portAt portOff buf)) port (headerSummed addrOff portOff addr port buf)) := by
  obtain ⟨oldAddr, hold, heq⟩ := rewriteEndpoint_eq hend addr port hp
  have hfits := hp.port_le hend.port_le
  rw [ihlOf_rewritten hend addr port hp hpos, if_pos (by omega)] at heq
  exact ⟨oldAddr, hold, heq⟩

/-- A port written over the first byte becomes the header length. -/
theorem ihlOf_rewritten_zero (hpos : portAt portOff buf = 0) :
    ihlOf (rewritten addrOff portOff addr port buf) = port.toNat / 256 % 16 * 4 := by
  have hbound := hend.addr_fits hp addr
  have hport : portAt portOff buf + 2 ≤ buf.length := hp.port_le hend.port_le
  have hwindow : window (patch (patch buf addrOff addr.toList) 0 (beBytes 2 port.toNat)) 0
      (beBytes 2 port.toNat).length = beBytes 2 port.toNat :=
    window_patch_self (by rw [length_beBytes, length_patch hbound]; omega)
  have hbyte := byteAt_eq_of_window (j := 0) hwindow (by simp)
  unfold ihlOf
  rw [rewritten, show ihlOf buf + portPos protoIcmp portOff (protoOf buf) = 0 from hpos, hbyte]
  simp only [byteAt, beBytes, List.getD_cons_zero, UInt8.toNat_and, UInt8.toNat_ofNat']
  have hmask : ∀ n : Nat, n &&& 15 = n % 16 := fun n => Nat.and_two_pow_sub_one_eq_mod n 4
  rw [show (0x0f : UInt8).toNat = 15 from rfl, hmask]
  omega

omit hend hp

/-! ## What a rewritten destination is -/

theorem Parses.checksumOffset_isSome (hp : Parses buf) : (checksumOffset (protoOf buf)).isSome := by
  rcases hp.transport with ⟨h | h, -⟩ | ⟨h, -⟩ <;> rw [h] <;> rfl

theorem Parses.positions (hp : Parses buf) :
    (protoOf buf ≠ protoIcmp ∧ portAt 2 buf = ihlOf buf + 2 ∧
      (checksumPos (protoOf buf) (ihlOf buf) = ihlOf buf + 16 ∨
        checksumPos (protoOf buf) (ihlOf buf) = ihlOf buf + 6)) ∨
    (protoOf buf = protoIcmp ∧ portAt 2 buf = ihlOf buf + 4 ∧
      checksumPos (protoOf buf) (ihlOf buf) = ihlOf buf + 2) := by
  unfold checksumPos portAt portPos
  rcases hp.transport with ⟨h | h, -⟩ | ⟨h, -⟩ <;> rw [h] <;>
    simp [checksumOffset, protoTcp, protoUdp, protoIcmp]

/-- No field that is written later lies over the destination: the port not over the address, the
header checksum not over the port, the transport checksum not over the address. -/
def Legible (packet : Bytes) : Prop :=
  (portAt 2 packet + 2 ≤ 16 ∨ 20 ≤ portAt 2 packet) ∧
    (portAt 2 packet + 2 ≤ 10 ∨ 12 ≤ portAt 2 packet) ∧
    (checksumPos (protoOf packet) (ihlOf packet) + 2 ≤ 16 ∨
      20 ≤ checksumPos (protoOf packet) (ihlOf packet))

theorem legible_of_full (hp : Parses buf) (hihl : ipHeaderMin ≤ ihlOf buf) : Legible buf := by
  have hpos := hp.positions
  unfold ipHeaderMin at hihl
  unfold Legible
  omega

theorem window_patch_addr (hp : Parses buf) (addr : Octets 4) :
    window (patch buf 16 addr.toList) 16 4 = addr.toList := by
  have hself := window_patch_self (endpointAt_dst.addr_fits hp addr)
  rwa [List.Vector.toList_length] at hself

/-- On a legible packet `rewriteDst` leaves exactly the new address and port as destination. -/
theorem rewriteDst_destination {addr : Octets 4} {port : UInt16} {buf' : Bytes} (hp : Parses buf)
    (hlegible : Legible buf) (hrun : rewriteDst addr port buf = .ok () buf') :
    window buf' 16 4 = addr.toList ∧ wordAt buf' (portAt 2 buf) = port := by
  obtain ⟨mid, hmid, hfinal⟩ := agreeOutside_rewriteEndpoint endpointAt_dst _ _ hp hrun
  obtain ⟨haddr, hport⟩ := agreeOutside_rewritten endpointAt_dst addr port hp
  obtain ⟨hover, hheader, hchecksum⟩ := hlegible
  have hpos := hp.positions
  constructor
  · rw [hfinal.window_eq hchecksum.symm, hmid.window_eq (.inr (by decide)),
      hport.window_eq hover.symm, window_patch_addr hp]
  · rw [wordAt_of_agreeOutside hfinal (by omega), wordAt_of_agreeOutside hmid hheader]
    refine wordAt_patch_self port ?_
    rw [haddr.length_eq]
    exact hp.port_le le_rfl

end ProximityMesh.Gateway
