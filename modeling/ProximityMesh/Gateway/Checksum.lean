/-
  Gateway/Checksum.lean --- the checksums of a translated IPv4 packet.

  Source: crates/pim-gateway/src/engine/packet.rs.

  The header checksum and the ICMP checksum are computed anew, the TCP and UDP
  checksums are adjusted for the words that were rewritten.  In one's complement
  both come to the same: `valid_summed` for the first, and for the second
  `wordSum_covered`, the balance of the words that go and the words that come.
  The sums of the source are `u32` sums; `toNat_onesComplementSum` says when they
  are the sums of Foundation/OnesComplement.lean.
-/
import ProximityMesh.Foundation.OnesComplement
import ProximityMesh.Gateway.Correctness

set_option autoImplicit false

namespace ProximityMesh.Gateway

open BufM OnesComplement

/-! ## Sums of the source -/

theorem toNat_u16FromBe (hi lo : UInt8) : (u16FromBe hi lo).toNat = hi.toNat * 256 + lo.toNat := by
  have hhi := hi.toNat_lt
  have hlo := lo.toNat_lt
  rw [u16FromBe, UInt16.toNat_ofNat']
  omega

theorem toNat_onesComplementSumFrom (sum : UInt32) (data : Bytes) :
    (onesComplementSumFrom sum data).toNat = (sum.toNat + wordSum data) % 2 ^ 32 := by
  fun_induction onesComplementSumFrom sum data with
  | case1 sum a b rest ih =>
    rw [ih, UInt32.toNat_add, UInt16.toNat_toUInt32, toNat_u16FromBe, wordSum]
    omega
  | case2 sum a =>
    have ha := a.toNat_lt
    have hshift : (a.toUInt32 <<< 8).toNat = a.toNat * 256 := by
      rw [UInt32.toNat_shiftLeft, UInt8.toNat_toUInt32, show (8 : UInt32).toNat % 32 = 8 from rfl]
      omega
    rw [UInt32.toNat_add, hshift, wordSum]
  | case3 sum =>
    have hsum := sum.toNat_lt
    rw [wordSum]
    omega

theorem toNat_onesComplementSum_mod (data : Bytes) :
    (onesComplementSum data).toNat = wordSum data % 2 ^ 32 := by
  rw [onesComplementSum, toNat_onesComplementSumFrom, show (0 : UInt32).toNat = 0 from rfl,
    Nat.zero_add]

variable {data buf : Bytes} {pos : Nat}

theorem toNat_onesComplementSum (h : data.length < 2 ^ 17) :
    (onesComplementSum data).toNat = wordSum data := by
  have hle := wordSum_le data
  rw [toNat_onesComplementSum_mod]
  omega

theorem toNat_foldChecksum (sum : UInt32) : (foldChecksum sum).toNat = 65535 - fold sum.toNat := by
  have hloop := foldLoop_lt sum
  have hfold : (foldLoop 2 sum).toNat = fold sum.toNat := by
    rw [fold_eq]
    have hfirst := toNat_fold sum
    simp only [foldLoop] at hloop ⊢
    split
    · split
      · rename_i hone htwo
        simp only [hone, htwo, ne_eq, not_false_eq_true, if_true, toNat_fold] at hloop ⊢
        split <;> omega
      · rename_i hone htwo
        simp only [hone, htwo, ne_eq, not_false_eq_true, if_true, if_false] at hloop
        split <;> omega
    · rename_i hone
      simp only [hone, if_false] at hloop
      split <;> omega
  rw [foldChecksum, UInt16.toNat_not, UInt32.toNat_toUInt16]
  have hsize : UInt16.size = 65536 := rfl
  omega

/-- A sum whose complement is zero: the other zero of one's complement. -/
theorem foldChecksum_eq_zero_iff (sum : UInt32) :
    foldChecksum sum = 0 ↔ 0 < sum.toNat ∧ sum.toNat % 65535 = 0 := by
  rw [← UInt16.toNat_inj, toNat_foldChecksum, fold_eq, show (0 : UInt16).toNat = 0 from rfl]
  split <;> omega

/-! ## A checksum that is computed anew -/

/-- A checksum is valid over what it was computed from, if a word at its place counts there
with its value. -/
theorem valid_patch_checksum (cover : Bytes → Bytes)
    (hbalance : ∀ src : Bytes, src.length = 2 →
      wordSum (cover (patch buf pos src)) + wordSum (window buf pos 2) =
        wordSum (cover buf) + wordSum src)
    (hlen : (cover (patch buf pos [0, 0])).length < 2 ^ 17) :
    Valid (cover (patch buf pos
      (beBytes 2 (foldChecksum (onesComplementSum (cover (patch buf pos [0, 0])))).toNat))) := by
  rw [toNat_foldChecksum, toNat_onesComplementSum hlen, valid_iff]
  have hcompletes := complement_completes (wordSum (cover (patch buf pos [0, 0])))
  -- the sum with the checksum is the sum without it, and the checksum
  have hold : _ = wordSum (cover buf) + 0 := hbalance [0, 0] rfl
  have hnew := hbalance _ (length_beBytes 2 (65535 - fold (wordSum (cover (patch buf pos [0, 0])))))
  rw [wordSum_beBytes (by omega)] at hnew
  omega

/-- The words that are summed, the checksum among them, are valid. -/
theorem valid_summed {lo n : Nat} (hlo : lo ≤ pos) (heven : Even (pos - lo))
    (hpos : pos + 2 ≤ lo + n) (hn : lo + n ≤ buf.length) (hmax : n ≤ 65535) :
    Valid (window (summed lo n pos buf) lo n) := by
  refine valid_patch_checksum (window · lo n) (fun src hsrc => ?_) ?_
  · rw [← hsrc]
    exact wordSum_window_patch hlo heven (hsrc ▸ even_two) (hsrc ▸ hpos) hn
  · have hcleared : (patch buf pos [0, 0]).length = buf.length :=
      length_patch (show pos + 2 ≤ buf.length by omega)
    rw [length_window (hcleared ▸ hn)]
    omega

/-! ## Well-formed packets -/

/-- A translated protocol. -/
def Translated (proto : UInt8) : Prop :=
  proto = protoTcp ∨ proto = protoUdp ∨ proto = protoIcmp

/-- The transport header of a translated protocol without options. -/
def transportHeaderMin (proto : UInt8) : Nat := if proto = protoTcp then 20 else 8

/-- An IPv4 packet with a complete header of its own and of its transport protocol,
as long as its total length field says. -/
structure WellFormed (packet : Bytes) : Prop where
  ipv4 : byteAt packet 0 >>> 4 = 4
  ihl : ipHeaderMin ≤ ihlOf packet
  total : (wordAt packet 2).toNat = packet.length
  proto : Translated (protoOf packet)
  transport : ihlOf packet + transportHeaderMin (protoOf packet) ≤ packet.length

namespace WellFormed

variable {packet : Bytes} (hw : WellFormed packet)

include hw

theorem length_le : packet.length ≤ 65535 := by
  have hlt := (wordAt packet 2).toNat_lt
  rw [hw.total] at hlt
  omega

theorem parses : Parses packet where
  header := by
    have := hw.ihl
    have := hw.transport
    omega
  ipv4 := hw.ipv4
  transport := by
    have htransport := hw.transport
    unfold transportHeaderMin at htransport
    rcases hw.proto with h | h | h
    · rw [h, if_pos rfl] at htransport
      exact .inl ⟨.inl h, by omega⟩
    · rw [h, if_neg (by decide)] at htransport
      exact .inl ⟨.inr h, by omega⟩
    · rw [h] at htransport
      exact .inr ⟨h, htransport⟩

/-- The checksum field stands on a word boundary of the transport header, behind
the ports. -/
theorem checksumPos_eq :
    ∃ field, checksumPos (protoOf packet) (ihlOf packet) = ihlOf packet + field ∧
      Even field ∧ 2 ≤ field ∧ field + 2 ≤ transportHeaderMin (protoOf packet) := by
  rcases hw.proto with h | h | h <;> rw [h]
  · exact ⟨16, rfl, by decide, by decide, by decide⟩
  · exact ⟨6, rfl, by decide, by decide, by decide⟩
  · exact ⟨2, rfl, by decide, by decide, by decide⟩

end WellFormed

section Rewrite

variable {addrOff portOff : Nat} {packet buf : Bytes}

/-! ## What the transport checksum covers -/

/-- The pseudo-header of a segment of the given length. -/
def pseudoHeaderV4 (packet : Bytes) (length : Nat) : Bytes :=
  window packet 12 8 ++ ([0, protoOf packet] ++ beBytes 2 length)

/-- What a TCP or UDP checksum covers, the checksum included. -/
def covered (packet : Bytes) (length : Nat) : Bytes :=
  pseudoHeaderV4 packet length ++ window packet (ihlOf packet) length

theorem wordSum_covered (length : Nat) (h : 20 ≤ packet.length) :
    wordSum (covered packet length) = wordSum (window packet 12 8) + (protoOf packet).toNat +
      wordSum (beBytes 2 length) + wordSum (window packet (ihlOf packet) length) := by
  have haddrLen : (window packet 12 8).length = 8 := length_window h
  have haddrs : Even (window packet 12 8).length := by
    rw [haddrLen]
    decide
  have hpseudo : Even (pseudoHeaderV4 packet length).length := by
    rw [pseudoHeaderV4, List.length_append, haddrLen]
    exact ⟨6, rfl⟩
  have hproto : Even [0, protoOf packet].length := ⟨1, rfl⟩
  rw [covered, wordSum_append _ hpseudo, pseudoHeaderV4, wordSum_append _ haddrs,
    wordSum_append _ hproto]
  simp only [wordSum, UInt8.toNat_zero]
  omega

theorem wordSum_window_two {i : Nat} (h : i + 2 ≤ buf.length) :
    wordSum (window buf i 2) = (wordAt buf i).toNat := by
  rw [window_two_eq h, wordSum_beBytes (wordAt buf i).toNat_lt]

/-- Writing one word into a segment exchanges it for the word that stood there. -/
theorem wordSum_window_patchWord {start n off : Nat} (word : UInt16) (heven : Even off)
    (hoff : off + 2 ≤ n) (hn : start + n ≤ buf.length) :
    wordSum (window (patch buf (start + off) (beBytes 2 word.toNat)) start n) +
        (wordAt buf (start + off)).toNat = wordSum (window buf start n) + word.toNat := by
  have hlength : (beBytes 2 word.toNat).length = 2 := length_beBytes 2 word.toNat
  have hpatch := @wordSum_window_patch buf (beBytes 2 word.toNat) start n (start + off) (by omega)
    (by rwa [Nat.add_sub_cancel_left]) (by rw [hlength]; exact even_two) (by omega) hn
  rw [hlength, wordSum_beBytes word.toNat_lt, wordSum_window_two (by omega)] at hpatch
  exact hpatch

theorem wordSum_addr (addr : Octets 4) :
    wordSum addr.toList = (addrWord addr 0).toNat + (addrWord addr 2).toNat := by
  obtain ⟨bytes, hlen⟩ := addr
  match bytes, hlen with
  | [a, b, c, d], _ =>
    unfold addrWord
    rw [toNat_u16FromBe, toNat_u16FromBe]
    show a.toNat * 256 + b.toNat + (c.toNat * 256 + d.toNat + 0) =
      a.toNat * 256 + b.toNat + (c.toNat * 256 + d.toNat)
    omega

theorem exists_adjusted_sum (oldCksum : UInt16) (oldAddr newAddr : Octets 4)
    (oldPort newPort : UInt16) :
    ∃ sum : UInt32, adjusted oldCksum oldAddr newAddr oldPort newPort = foldChecksum sum ∧
      sum.toNat + (oldCksum.toNat + wordSum oldAddr.toList + oldPort.toNat) =
        4 * 65535 + (wordSum newAddr.toList + newPort.toNat) := by
  have hnot (w : UInt16) : (~~~ w).toUInt32.toNat = 65535 - w.toNat := by
    rw [UInt16.toNat_toUInt32, UInt16.toNat_not]
    rfl
  have hck := oldCksum.toNat_lt
  have ho₀ := (addrWord oldAddr 0).toNat_lt
  have ho₂ := (addrWord oldAddr 2).toNat_lt
  have hn₀ := (addrWord newAddr 0).toNat_lt
  have hn₂ := (addrWord newAddr 2).toNat_lt
  have hop := oldPort.toNat_lt
  have hnp := newPort.toNat_lt
  refine ⟨_, rfl, ?_⟩
  simp only [UInt32.toNat_add, hnot, UInt16.toNat_toUInt32, wordSum_addr]
  omega

/-- The adjusted checksum balances the words that go with the words that come. -/
theorem adjusted_balance (oldCksum : UInt16) (oldAddr newAddr : Octets 4)
    (oldPort newPort : UInt16) :
    ((adjusted oldCksum oldAddr newAddr oldPort newPort).toNat + wordSum newAddr.toList +
        newPort.toNat) % 65535 =
      (oldCksum.toNat + wordSum oldAddr.toList + oldPort.toNat) % 65535 := by
  obtain ⟨sum, hadjusted, htotal⟩ :=
    exists_adjusted_sum oldCksum oldAddr newAddr oldPort newPort
  have hlt := fold_lt sum.toNat
  have hmod := fold_mod sum.toNat
  rw [hadjusted, toNat_foldChecksum]
  omega

/-! ## Rewriting a well-formed packet -/

variable (hend : EndpointAt addrOff portOff) (hw : WellFormed packet)

include hend hw

/-- On a well-formed packet a rewrite returns, with both checksums written. -/
theorem rewriteEndpoint_of_wellFormed (addr : Octets 4) (port : UInt16) :
    ∃ oldAddr : Octets 4, oldAddr.toList = window packet addrOff 4 ∧
      rewriteEndpoint addrOff portOff addr port packet =
        .ok () (transportSummed (protoOf packet) (ihlOf packet) oldAddr addr
          (wordAt packet (portAt portOff packet)) port
          (headerSummed addrOff portOff addr port packet)) := by
  have hp := hw.parses
  have hihl := hw.ihl
  have hmin : ipHeaderMin = 20 := rfl
  obtain ⟨field, hpos, -, -, hle⟩ := hw.checksumPos_eq
  obtain ⟨oldAddr, hold, heq⟩ := rewriteEndpoint_eq_ok hend addr port hp
    (Nat.lt_of_lt_of_le (by omega) (Nat.le_add_right _ _))
  refine ⟨oldAddr, hold, heq.trans ?_⟩
  rw [transportUpdated, if_pos]
  have htransport := hw.transport
  exact ⟨hp.checksumOffset_isSome, by rw [hpos, length_headerSummed hend addr port hp]; omega⟩

/-- The changed bytes: the address, the port or ICMP id, and the checksum fields. -/
def Touched (addrOff portOff : Nat) (packet : Bytes) (i : Nat) : Prop :=
  (addrOff ≤ i ∧ i < addrOff + 4) ∨
    (portAt portOff packet ≤ i ∧ i < portAt portOff packet + 2) ∨
    (10 ≤ i ∧ i < 12) ∨
    (checksumPos (protoOf packet) (ihlOf packet) ≤ i ∧
      i < checksumPos (protoOf packet) (ihlOf packet) + 2)

theorem portAt_bounds :
    ∃ off, portAt portOff packet = ihlOf packet + off ∧ Even off ∧
      off + 2 ≤ transportHeaderMin (protoOf packet) ∧
      (off + 2 ≤ (checksumPos (protoOf packet) (ihlOf packet) - ihlOf packet) ∨
        checksumPos (protoOf packet) (ihlOf packet) - ihlOf packet + 2 ≤ off) := by
  have hport := hend.port_le
  unfold portAt portPos checksumPos
  rcases hw.proto with h | h | h <;> rw [h]
  · exact ⟨portOff, rfl, hend.port_even, by rw [transportHeaderMin, if_pos rfl]; omega,
      .inl (by show portOff + 2 ≤ ihlOf packet + 16 - ihlOf packet; omega)⟩
  · exact ⟨portOff, rfl, hend.port_even, by show portOff + 2 ≤ 8; omega,
      .inl (by show portOff + 2 ≤ ihlOf packet + 6 - ihlOf packet; omega)⟩
  · exact ⟨4, rfl, by decide, by decide,
      .inr (by show ihlOf packet + 2 - ihlOf packet + 2 ≤ 4; omega)⟩

/-- The bytes of the two IP headers that no rewrite touches. -/
theorem protoOf_ihlOf_of_untouched {packet' : Bytes}
    (h : ∀ i, ¬ Touched addrOff portOff packet i → packet'[i]? = packet[i]?) :
    protoOf packet' = protoOf packet ∧ ihlOf packet' = ihlOf packet := by
  have hihl := hw.ihl
  have hmin : ipHeaderMin = 20 := rfl
  have haddr := hend.addr_ge
  obtain ⟨field, hpos, -, -, -⟩ := hw.checksumPos_eq
  obtain ⟨off, hport, -, -, -⟩ := portAt_bounds hend hw
  have hbyte (i : Nat) (hi : i < 10) : byteAt packet' i = byteAt packet i := by
    rw [byteAt, byteAt, List.getD_eq_getElem?_getD, List.getD_eq_getElem?_getD, h i]
    unfold Touched
    omega
  exact ⟨hbyte 9 (by omega), by rw [ihlOf, ihlOf, hbyte 0 (by omega)]⟩

/-- An adjusted checksum is valid over the new pseudo-header if the old one was over
the old pseudo-header. -/
theorem valid_covered_adjusted {oldAddr addr : Octets 4} {port : UInt16}
    (hold : oldAddr.toList = window packet addrOff 4) {mid final : Bytes}
    (hmid : mid = headerSummed addrOff portOff addr port packet)
    (hfinal : final = patch mid (checksumPos (protoOf packet) (ihlOf packet)) (beBytes 2
      (adjusted (wordAt mid (checksumPos (protoOf packet) (ihlOf packet))) oldAddr addr
        (wordAt packet (portAt portOff packet)) port).toNat))
    (hproto : protoOf final = protoOf packet) (hihl' : ihlOf final = ihlOf packet) {length : Nat}
    (hlength : transportHeaderMin (protoOf packet) ≤ length)
    (hfits : ihlOf packet + length ≤ packet.length) (hvalid : Valid (covered packet length)) :
    Valid (covered final length) := by
  obtain ⟨haddrs, hports, hheader⟩ := agreeOutside_headerSummed hend addr port hw.parses
  obtain ⟨field, hpos, hfieldEven, -, hfieldLe⟩ := hw.checksumPos_eq
  obtain ⟨off, hoff, hoffEven, hoffLe, hdisjoint⟩ := portAt_bounds hend hw
  have hihl := hw.ihl
  have hmin : ipHeaderMin = 20 := rfl
  have hge := hend.addr_ge
  have hle := hend.addr_le
  rw [← hmid] at hheader
  rw [hpos] at hfinal hdisjoint
  rw [hoff] at hfinal
  have hlenMid : mid.length = packet.length :=
    hheader.length_eq.trans (hports.length_eq.trans haddrs.length_eq)
  obtain ⟨ck, hck⟩ : ∃ ck, ck = adjusted (wordAt mid (ihlOf packet + field)) oldAddr addr
    (wordAt packet (ihlOf packet + off)) port := ⟨_, rfl⟩
  rw [← hck] at hfinal
  have hcksum := agreeOutside_patch (length_beBytes 2 ck.toNat)
    (show ihlOf packet + field + 2 ≤ mid.length by omega)
  rw [← hfinal] at hcksum
  -- the addresses
  have hsumAddr : wordSum (window final 12 8) + wordSum oldAddr.toList =
      wordSum (window packet 12 8) + wordSum addr.toList := by
    have hpatch := @wordSum_window_patch packet addr.toList 12 8 addrOff hge
      ((Nat.even_sub hge).mpr (iff_of_true hend.addr_even (by decide)))
      (by rw [List.Vector.toList_length]; decide) (by rw [List.Vector.toList_length]; omega)
        (by omega)
    rw [List.Vector.toList_length] at hpatch
    rw [hcksum.window_eq (by omega), hheader.window_eq (by omega), hports.window_eq (by omega),
      hold]
    exact hpatch
  -- the segment: first the port, then the checksum
  have hsumPort : wordSum (window mid (ihlOf packet) length) +
      (wordAt packet (ihlOf packet + off)).toNat =
        wordSum (window packet (ihlOf packet) length) + port.toNat := by
    have hwritten : rewritten addrOff portOff addr port packet =
        patch (patch packet addrOff addr.toList) (ihlOf packet + off) (beBytes 2 port.toNat) := by
      rw [← hoff]
      rfl
    have hlenAddr := haddrs.length_eq
    have hword : (wordAt (patch packet addrOff addr.toList) (ihlOf packet + off)).toNat =
        (wordAt packet (ihlOf packet + off)).toNat := by
      rw [← wordSum_window_two (by omega), ← wordSum_window_two (by omega),
        haddrs.window_eq (by omega)]
    rw [hheader.window_eq (by omega), hwritten, ← hword, ← haddrs.window_eq (by omega)]
    exact wordSum_window_patchWord port hoffEven (by omega) (by omega)
  have hsumCk : wordSum (window final (ihlOf packet) length) +
      (wordAt mid (ihlOf packet + field)).toNat =
        wordSum (window mid (ihlOf packet) length) + ck.toNat := by
    rw [hfinal]
    exact wordSum_window_patchWord ck hfieldEven (by omega) (by omega)
  have hbalance := adjusted_balance (wordAt mid (ihlOf packet + field)) oldAddr addr
    (wordAt packet (ihlOf packet + off)) port
  rw [← hck] at hbalance
  have hprotoPos : 0 < (protoOf packet).toNat := by
    rcases hw.proto with h | h | h <;> rw [h] <;> decide
  have hlenFinal : 20 ≤ final.length := by
    rw [hcksum.length_eq]
    omega
  rw [valid_iff, wordSum_covered _ (show 20 ≤ packet.length by omega)] at hvalid
  rw [valid_iff, wordSum_covered _ hlenFinal, hproto, hihl']
  omega

/-- What a translation owes to the packet: the checksums are valid, and nothing else
has changed.  A checksum may cover the whole payload, or as much of it as a UDP
length says. -/
structure ChecksumsKept (addrOff portOff : Nat) (packet packet' : Bytes) : Prop where
  length_eq : packet'.length = packet.length
  untouched : ∀ i, ¬ Touched addrOff portOff packet i → packet'[i]? = packet[i]?
  header : Valid (window packet' 0 (ihlOf packet'))
  transport : protoOf packet = protoTcp ∨
      (protoOf packet = protoUdp ∧ wordAt packet (checksumPos protoUdp (ihlOf packet)) ≠ 0) →
    ∀ length, transportHeaderMin (protoOf packet) ≤ length →
      ihlOf packet + length ≤ packet.length → Valid (covered packet length) →
        Valid (covered packet' length)
  icmp : protoOf packet = protoIcmp →
    Valid (window packet' (ihlOf packet') (packet'.length - ihlOf packet'))

theorem wordAt_headerSummed_checksum (addr : Octets 4) (port : UInt16) :
    wordAt (headerSummed addrOff portOff addr port packet)
        (checksumPos (protoOf packet) (ihlOf packet)) =
      wordAt packet (checksumPos (protoOf packet) (ihlOf packet)) := by
  obtain ⟨haddrs, hports, hheader⟩ := agreeOutside_headerSummed hend addr port hw.parses
  obtain ⟨field, hpos, -, -, -⟩ := hw.checksumPos_eq
  obtain ⟨off, hoff, -, -, hdisjoint⟩ := portAt_bounds hend hw
  have hihl := hw.ihl
  have hmin : ipHeaderMin = 20 := rfl
  have hle := hend.addr_le
  rw [wordAt_of_agreeOutside hheader (by omega), wordAt_of_agreeOutside hports (by omega),
    wordAt_of_agreeOutside haddrs (by omega)]

theorem checksumsKept_of_rewriteEndpoint {addr : Octets 4} {port : UInt16} {packet' : Bytes}
    (hrun : rewriteEndpoint addrOff portOff addr port packet = .ok () packet') :
    ChecksumsKept addrOff portOff packet packet' := by
  obtain ⟨oldAddr, hold, heq⟩ := rewriteEndpoint_of_wellFormed hend hw addr port
  obtain ⟨haddrs, hports, hheader⟩ := agreeOutside_headerSummed hend addr port hw.parses
  obtain ⟨field, hpos, hfieldEven, hfieldGe, hfieldLe⟩ := hw.checksumPos_eq
  have hihl := hw.ihl
  have hmin : ipHeaderMin = 20 := rfl
  have htransport := hw.transport
  have hmax := hw.length_le
  have hlen := length_rewritten hend addr port hw.parses
  obtain ⟨mid, hmid⟩ : ∃ mid, mid = headerSummed addrOff portOff addr port packet := ⟨_, rfl⟩
  rw [← hmid] at heq hheader
  have hlenMid : mid.length = packet.length := hheader.length_eq.trans hlen
  have hcksum := agreeOutside_transportSummed (protoOf packet) (ihlOf packet) oldAddr addr
    (wordAt packet (portAt portOff packet)) port
    (show checksumPos (protoOf packet) (ihlOf packet) + 2 ≤ mid.length by omega)
  obtain rfl : transportSummed (protoOf packet) (ihlOf packet) oldAddr addr
      (wordAt packet (portAt portOff packet)) port mid = packet' := by
    rw [heq] at hrun
    exact (EStateM.Result.ok.inj hrun).2
  have huntouched : ∀ i, ¬ Touched addrOff portOff packet i →
      (transportSummed (protoOf packet) (ihlOf packet) oldAddr addr
        (wordAt packet (portAt portOff packet)) port mid)[i]? = packet[i]? := by
    intro i hi
    unfold Touched at hi
    rw [hcksum.getElem?_eq i (by omega), hheader.getElem?_eq i (by omega),
      hports.getElem?_eq i (by omega), haddrs.getElem?_eq i (by omega)]
  obtain ⟨hproto', hihl'⟩ := protoOf_ihlOf_of_untouched hend hw huntouched
  refine ⟨hcksum.length_eq.trans hlenMid, huntouched, ?_, ?_, ?_⟩
  · rw [hihl', hcksum.window_eq (by omega), hmid]
    exact valid_summed (Nat.zero_le _) (by decide) (by omega) (by omega) (by omega)
  · intro hchecked length hlength hfits hvalid
    refine valid_covered_adjusted hend hw hold hmid ?_ hproto' hihl' hlength hfits hvalid
    -- neither ICMP nor a UDP packet without a checksum
    unfold transportSummed
    rw [if_neg, if_neg]
    · intro hzero
      rcases hchecked with htcp | ⟨hudp, hne⟩
      · exact absurd (htcp.symm.trans hzero.2) (by decide)
      · have hsame := wordAt_headerSummed_checksum hend hw addr port
        rw [← hmid, hudp] at hsame
        rw [hudp] at hzero
        exact hne (hsame.symm.trans hzero.1)
    · rcases hchecked with htcp | ⟨hudp, -⟩
      · rw [htcp]
        decide
      · rw [hudp]
        decide
  · intro hicmp
    rw [hihl', hcksum.length_eq]
    unfold transportSummed
    rw [if_pos hicmp]
    refine valid_summed (by omega) ?_ (by omega) (by omega) (by omega)
    rwa [hpos, Nat.add_sub_cancel_left]

end Rewrite

/-! ## Translations -/

/-- Every successful translation of a well-formed packet, from any table a run
reaches, keeps the checksums and every byte that is not rewritten. -/
theorem translate_keeps_checksums (externalIp : Octets 4) (calls : List (Call Unit))
    (packet : Bytes) (hw : WellFormed packet) (now : Nat) :
    (∀ extPort packet', ((gatewayEngine externalIp).translateOutbound
        ((gatewayEngine externalIp).run calls) packet () now).1 = .ok extPort packet' →
      ChecksumsKept 12 0 packet packet') ∧
    ∀ client packet', ((gatewayEngine externalIp).translateInbound
        ((gatewayEngine externalIp).run calls) packet now).1 = .ok client packet' →
      ChecksumsKept 16 2 packet packet' := by
  have hconsistent := (gatewayEngine externalIp).consistent_run calls
  constructor
  · intro extPort packet' hrun
    obtain ⟨key, -, -, hwrite⟩ :=
      ((gatewayEngine externalIp).translateOutbound_eq_ok_iff hconsistent).mp hrun
    exact checksumsKept_of_rewriteEndpoint endpointAt_src hw hwrite
  · intro client packet' hrun
    obtain ⟨reply, key, -, -, -, hwrite⟩ :=
      ((gatewayEngine externalIp).translateInbound_eq_ok_iff hconsistent).mp hrun
    exact checksumsKept_of_rewriteEndpoint endpointAt_dst hw hwrite

/-- A DNS query without a body, from 10.0.0.1 to 8.8.8.8. -/
def queryPacket : Bytes :=
  [0x45, 0, 0, 28, 0, 0, 0, 0, 64, 17, 0, 0, 10, 0, 0, 1, 8, 8, 8, 8, 0x30, 0x39, 0, 53, 0, 8,
    0xb5, 0x5f]

theorem wellFormed_queryPacket : WellFormed queryPacket where
  ipv4 := by decide
  ihl := by decide
  total := by decide
  proto := .inr (.inl (by decide))
  transport := by decide

theorem queryPacket_keeps_checksum :
    Valid (covered queryPacket 8) ∧
      ∃ extPort packet', ((gatewayEngine ⟨[192, 0, 2, 1], rfl⟩).translateOutbound
        ((gatewayEngine ⟨[192, 0, 2, 1], rfl⟩).run []) queryPacket () 0).1 = .ok extPort packet' ∧
      Valid (window packet' 0 (ihlOf packet')) ∧ Valid (covered packet' 8) := by
  have hvalid : Valid (covered queryPacket 8) := by decide
  obtain ⟨extPort, packet', hrun⟩ : ∃ extPort packet',
      ((gatewayEngine ⟨[192, 0, 2, 1], rfl⟩).translateOutbound
        ((gatewayEngine ⟨[192, 0, 2, 1], rfl⟩).run []) queryPacket () 0).1 = .ok extPort packet' :=
    ⟨_, _, rfl⟩
  obtain ⟨houtbound, -⟩ := translate_keeps_checksums ⟨[192, 0, 2, 1], rfl⟩ [] queryPacket
    wellFormed_queryPacket 0
  have hkept := houtbound extPort packet' hrun
  refine ⟨hvalid, extPort, packet', hrun, hkept.header, ?_⟩
  exact hkept.transport (.inr ⟨by decide, by decide⟩) 8 (by decide) (by decide) hvalid

end ProximityMesh.Gateway
