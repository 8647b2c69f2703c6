/-
  Protocol/RouteFrame.lean --- the route advertisement frame.

  Source: crates/pim-protocol/src/route_frame.rs.

  Layout: origin_id(16) + sequence(8) + entry_count(2) + entries(N * 22) +
  signature(64).
-/
import ProximityMesh.Core.Types

set_option autoImplicit false

namespace ProximityMesh.Protocol

open List NodeId

structure RouteEntry where
  destination : NodeId
  hops : UInt8
  /-- Bit 0: the destination is a gateway. -/
  flags : UInt8
  meshIp : Octets 4
  deriving DecidableEq

/-- Whether the route advertises gateway capability. -/
def RouteEntry.isGateway (entry : RouteEntry) : Bool := entry.flags &&& 0x01 != 0

/-- Route advertisement sent to direct peers. -/
structure RouteUpdateFrame where
  originId : NodeId
  sequence : UInt64
  entries : List RouteEntry
  signature : Octets 64
  deriving DecidableEq

namespace RouteUpdateFrame

def headerSize : Nat := 16 + 8 + 2

def entrySize : Nat := 16 + 1 + 1 + 4

def signatureSize : Nat := 64

def maxEntries : Nat := 1000

def encodeEntry (entry : RouteEntry) : Bytes :=
  entry.destination.asBytes.toList ++ [entry.hops] ++ [entry.flags] ++ entry.meshIp.toList

/-- The bytes of a frame; the entry count is cast to `u16`. -/
def encode (frame : RouteUpdateFrame) : Bytes :=
  frame.originId.asBytes.toList ++ beBytes 8 frame.sequence.toNat ++
    beBytes 2 frame.entries.length ++ frame.entries.flatMap encodeEntry ++ frame.signature.toList

def decodeEntry (offset : Nat) : BufM PimError RouteEntry := do
  let dest ← BufM.octets offset 16
  let hops ← BufM.index (offset + 16)
  let flags ← BufM.index (offset + 17)
  let meshIp ← BufM.octets (offset + 18) 4
  return { destination := NodeId.fromBytes dest, hops, flags, meshIp }

/-- Decode one frame from the front of the buffer, which is consumed only on
success. -/
def decode : BufM PimError RouteUpdateFrame := do
  if (← BufM.len) < headerSize then
    BufM.fail (.protocol "route update too short for header")
  let originBytes ← BufM.octets 0 16
  let sequence ← BufM.getBe 16 8
  let entryCount ← BufM.getBe 24 2
  if entryCount > maxEntries then
    BufM.fail (.protocol ("too many route entries: " ++ toString entryCount ++ ", max " ++
      toString maxEntries))
  let total := headerSize + entryCount * entrySize + signatureSize
  if (← BufM.len) < total then
    BufM.fail (.protocol ("route update truncated: need " ++ toString total ++ ", have " ++
      toString (← BufM.len)))
  let entries ← (List.range entryCount).mapM fun i => decodeEntry (headerSize + i * entrySize)
  let signature ← BufM.octets (headerSize + entryCount * entrySize) signatureSize
  BufM.advance total
  return { originId := NodeId.fromBytes originBytes, sequence := UInt64.ofNat sequence, entries,
           signature }

instance : FrameCodec RouteUpdateFrame := ⟨encode, decode⟩

/-! ## The codec -/

theorem length_encodeEntry (entry : RouteEntry) : (encodeEntry entry).length = entrySize := by
  simp [encodeEntry, entrySize]

theorem length_encodeEntries (entries : List RouteEntry) :
    (entries.flatMap encodeEntry).length = entries.length * entrySize := by
  induction entries with
  | nil => rfl
  | cons entry entries ih =>
    rw [flatMap_cons, length_append, ih, length_encodeEntry, length_cons,
      Nat.succ_mul, Nat.add_comm]

theorem encodeEntry_injective : Function.Injective encodeEntry := by
  rintro ⟨⟨dest⟩, hops, flags, meshIp⟩ ⟨⟨dest'⟩, hops', flags', meshIp'⟩ h
  simp only [encodeEntry, asBytes, append_assoc] at h
  obtain ⟨hdest, h⟩ := append_inj h (by simp)
  obtain ⟨hhops, h⟩ := cons.inj h
  obtain ⟨hflags, hip⟩ := cons.inj h
  rw [Octets.ext hdest, hhops, hflags, Octets.ext hip]

/-- An entry is read off the window that holds its encoding. -/
theorem decodeEntry_reads (buf : Bytes) (offset : Nat) (h : offset + entrySize ≤ buf.length) :
    ∃ entry, decodeEntry offset buf = .ok entry buf ∧
      encodeEntry entry = window buf offset entrySize := by
  have hentry : BufM.Ensures (decodeEntry offset) buf
      (fun entry buf' => buf' = buf ∧ encodeEntry entry = window buf offset entrySize)
      (fun _ _ => False) := by
    unfold entrySize at h
    have hle : ∀ k, k ≤ 22 → offset + k ≤ buf.length := by omega
    have hlt : ∀ k, k < 22 → offset + k < buf.length := by omega
    simp (disch := omega) [decodeEntry, encodeEntry, entrySize, asBytes, fromBytes,
      Nat.add_assoc, hle, hlt, byteAt_cons_window, window_append_window]
  obtain ⟨entry, buf', hdec, rfl, hwindow⟩ := hentry.exists_ok fun _ _ => id
  exact ⟨entry, hdec, hwindow⟩

/-- The entries are read off the window that holds their encodings. -/
theorem decodeEntries_reads (buf : Bytes) (offset count : Nat)
    (h : offset + count * entrySize ≤ buf.length) :
    ∃ entries : List RouteEntry,
      (range count).mapM (fun i => decodeEntry (offset + i * entrySize)) buf =
          .ok entries buf ∧
        entries.length = count ∧
        entries.flatMap encodeEntry = window buf offset (count * entrySize) := by
  have hread : ∀ i ∈ range count, ∃ entry, decodeEntry (offset + i * entrySize) buf =
      .ok entry buf ∧ window buf (offset + i * entrySize) entrySize = encodeEntry entry := by
    intro i hi
    have hi : i + 1 ≤ count := mem_range.mp hi
    have hmul : (i + 1) * entrySize ≤ count * entrySize := Nat.mul_le_mul_right _ hi
    rw [Nat.succ_mul] at hmul
    obtain ⟨entry, hdec, hwindow⟩ := decodeEntry_reads buf (offset + i * entrySize) (by omega)
    exact ⟨entry, hdec, hwindow.symm⟩
  obtain ⟨entries, hreads, hwindows⟩ := BufM.mapM_reads hread
  refine ⟨entries, hreads, ?_, ?_⟩
  · rw [← hwindows.length_eq, length_range]
  · rw [← flatMap_window]
    clear hreads hread
    generalize range count = positions at hwindows
    induction hwindows with
    | nil => rfl
    | cons hwindow _ ih => rw [flatMap_cons, flatMap_cons, ih, hwindow]

/-- A frame within the limit is read off its own encoding; an error leaves the buffer
alone. -/
theorem decode_reads (buf : Bytes) :
    BufM.Ensures decode buf
      (fun frame rest => buf = frame.encode ++ rest ∧ frame.entries.length ≤ maxEntries)
      fun f buf' => f ≠ .panic ∧ buf' = buf := by
  by_cases hlen : buf.length < 26
  · simp [decode, headerSize, Nat.not_le.mpr hlen]
  · have hle : ∀ k, k ≤ 26 → k ≤ buf.length := by omega
    simp [decode, headerSize, signatureSize, hle]
    obtain ⟨count, hcount⟩ : ∃ count, count = beNat (window buf 24 2) := ⟨_, rfl⟩
    rw [← hcount]
    intro hmax htotal
    obtain ⟨entries, hreads, hlength, hwindows⟩ :=
      decodeEntries_reads buf 26 count (by omega)
    rw [BufM.ensures_iff_of_ok hreads]
    refine ⟨fun _ => ⟨fun _ => ⟨?_, hlength ▸ hmax⟩, htotal⟩, htotal⟩
    have hsequence : beBytes 8 (beNat (window buf 16 8) % 18446744073709551616) =
        window buf 16 8 := beBytes_beNat_mod (by decide) (length_window (hle 24 (by decide)))
    have hfield : beBytes 2 entries.length = window buf 24 2 := by
      rw [hlength, hcount, beBytes_beNat (length_window (hle 26 (by decide)))]
    simp (disch := omega) [encode, asBytes, fromBytes, hsequence, hfield, hwindows]

theorem decode_ensures (buf : Bytes) :
    BufM.Ensures decode buf (fun frame rest => buf = frame.encode ++ rest)
      fun f buf' => f ≠ .panic ∧ buf' = buf :=
  (decode_reads buf).mono (fun _ _ h => h.1) fun _ _ h => h

theorem encodeEntries_inj {entries entries' : List RouteEntry}
    (hlen : entries.length = entries'.length)
    (h : entries.flatMap encodeEntry = entries'.flatMap encodeEntry) : entries = entries' := by
  induction entries generalizing entries' with
  | nil => exact (length_eq_zero_iff.mp hlen.symm).symm
  | cons entry entries ih =>
    cases entries' with
    | nil => cases hlen
    | cons entry' entries' =>
      obtain ⟨hhead, htail⟩ := append_inj h
        ((length_encodeEntry entry).trans (length_encodeEntry entry').symm)
      rw [encodeEntry_injective hhead, ih (Nat.succ.inj hlen) htail]

theorem decode_encode_append {frame : RouteUpdateFrame} (h : frame.entries.length ≤ maxEntries)
    (rest : Bytes) : decode (frame.encode ++ rest) = .ok frame rest := by
  obtain ⟨⟨origin⟩, sequence, entries, signature⟩ := frame
  have hsize : (entries.flatMap encodeEntry).length = entries.length * entrySize :=
    length_encodeEntries entries
  generalize henc : encode ⟨⟨origin⟩, sequence, entries, signature⟩ ++ rest = buf
  simp only [encode, asBytes, append_assoc] at henc
  -- the fields of the buffer
  have hlen : buf.length = 26 + entries.length * entrySize + 64 + rest.length := by
    simp +arith [← henc, hsize]
  have horigin : window buf 0 16 = origin.toList := by
    simp [← henc]
  have hsequence : beNat (window buf 16 8) = sequence.toNat := by
    simp only [← henc, window_append_right, window_append_left, List.Vector.toList_length,
      length_beBytes, Nat.le_refl, Nat.sub_self, beNat_beBytes]
    exact Nat.mod_eq_of_lt sequence.toNat_lt
  have hcount : beNat (window buf 24 2) = entries.length := by
    simp [← henc, beNat_beBytes]
    exact Nat.lt_of_le_of_lt h (by decide)
  have hentries : window buf 26 (entries.length * entrySize) = entries.flatMap encodeEntry := by
    simp [← henc, hsize]
  have hsignature : window buf (26 + entries.length * entrySize) 64 = signature.toList := by
    simp +arith [← henc, hsize]
  have hrest : buf.drop (26 + entries.length * entrySize + 64) = rest := by
    simp +arith [← henc, hsize]
  -- the entries are those whose encodings fill their window
  obtain ⟨read, hreads, hread, hwindows⟩ :=
    decodeEntries_reads buf 26 entries.length (by omega)
  rw [hentries] at hwindows
  rw [encodeEntries_inj hread hwindows] at hreads
  rw [BufM.eq_ok_iff_ensures]
  have hle : ∀ k, k ≤ 26 → k ≤ buf.length := by omega
  have htotal : 26 + entries.length * entrySize + 64 ≤ buf.length := by omega
  simp [decode, headerSize, signatureSize, fromBytes, hle, horigin, hsequence, hcount, h,
    htotal, BufM.ensures_iff_of_ok hreads, hsignature, hrest]

theorem decode_encode_iff (frame : RouteUpdateFrame) :
    decode frame.encode = .ok frame [] ↔ frame.entries.length ≤ maxEntries := by
  constructor
  · intro h
    exact ((decode_reads _).of_ok h).2
  · intro h
    have hok := decode_encode_append h []
    rw [append_nil] at hok
    exact hok

end RouteUpdateFrame

end ProximityMesh.Protocol
