/-
  Protocol/Reassembly.lean --- what a reassembler emits over a whole history.

  Source: crates/pim-protocol/src/fragment_frame.rs and reassembler.rs.

  Three histories are looked at.  In the first the fragments are arbitrary: they
  overlap, lie about the total or end behind it.  A packet is then still made of
  supplied bytes only, each at the place it was supplied for (`Supplied` is the
  invariant, by the insertion filter and the coverage loop together).

  In the second every fragment belongs to one of a finite set of packets, in any
  order, interleaving and multiplicity.  The reassembler then is a collector of
  fragments: `Follows` relates its buffers to what the collector keeps, and the
  moment of emission is the collector's.

  In the third the fragments are for one packet and may overlap.  Of those at one
  offset the first is kept.
-/
import Mathlib.Data.List.Sort
import ProximityMesh.Foundation.Collector
import ProximityMesh.Protocol.Reassembler

set_option autoImplicit false

namespace ProximityMesh.Protocol

open ReassemblyBuffer List FragmentFrame Collector HashMap

namespace Reassembler

/-! ## Arbitrary fragments -/

/-- A call on a reassembler, with the time it is made at. -/
inductive Call where
  | insert (now : Nat) (frame : FragmentFrame)
  | expireStale (now : Nat)

/-- The state after a call. -/
def perform (r : Reassembler) : Call → Reassembler
  | .insert now frame => (r.insert now frame).2
  | .expireStale now => r.expireStale now

/-- The state after a history of calls. -/
def after (calls : List Call) : Reassembler := calls.foldl perform new

def Call.fragment : Call → Option FragmentFrame
  | .insert _ frame => some frame
  | .expireStale _ => none

/-- Every chunk is the payload of a fragment of the history, for this buffer's id,
total and offset. -/
def Supplied (history : List FragmentFrame) (r : Reassembler) : Prop :=
  ∀ id buf, r.buffers.get id = some buf → ∀ c ∈ buf.chunks, ∃ g ∈ history,
    g.fragmentId = id ∧ g.totalLength = buf.totalLength ∧ (g.fragmentOffset, g.payload) = c

theorem mem_insertChunk {offset : UInt16} {payload : Bytes} {chunks : List (UInt16 × Bytes)}
    {c : UInt16 × Bytes} (h : c ∈ insertChunk offset payload chunks) :
    c = (offset, payload) ∨ c ∈ chunks := by
  induction chunks with
  | nil => exact .inl (mem_singleton.mp h)
  | cons d chunks ih =>
    rw [insertChunk] at h
    split at h
    · exact mem_cons.mp h
    · split at h
      · exact .inr h
      · rcases mem_cons.mp h with rfl | hrest
        · exact .inr (mem_cons_self ..)
        · exact (ih hrest).imp_right (mem_cons_of_mem _)

variable {history : List FragmentFrame} {r : Reassembler} {data : Bytes} {fragmentId : UInt32}

theorem Supplied.bufferFor (h : Supplied history r) (now : Nat) (frame : FragmentFrame) :
    ∀ c ∈ (r.bufferFor now frame).chunks, ∃ g ∈ history, g.fragmentId = frame.fragmentId ∧
      g.totalLength = (r.bufferFor now frame).totalLength ∧ (g.fragmentOffset, g.payload) = c := by
  unfold Reassembler.bufferFor
  cases hget : r.buffers.get frame.fragmentId with
  | none => intro c hc; cases hc
  | some buf => exact h _ buf hget

theorem Supplied.extended (h : Supplied history r) {now : Nat} {frame : FragmentFrame}
    (htotal : (r.bufferFor now frame).totalLength = frame.totalLength) :
    ∀ c ∈ (Reassembler.extended (r.bufferFor now frame) frame).chunks,
      ∃ g ∈ history ++ [frame], g.fragmentId = frame.fragmentId ∧
        g.totalLength = frame.totalLength ∧ (g.fragmentOffset, g.payload) = c := by
  intro c hc
  rcases mem_insertChunk hc with rfl | hold
  · exact ⟨frame, by simp, rfl, rfl, rfl⟩
  · obtain ⟨g, hg, hid, hlen, hchunk⟩ := h.bufferFor now frame c hold
    exact ⟨g, mem_append_left _ hg, hid, hlen.trans htotal, hchunk⟩

theorem Supplied.mono (h : Supplied history r) (frame : FragmentFrame) :
    Supplied (history ++ [frame]) r := by
  intro id buf hget c hc
  obtain ⟨g, hg, hspec⟩ := h id buf hget c hc
  exact ⟨g, mem_append_left _ hg, hspec⟩

theorem Supplied.insert (h : Supplied history r) (now : Nat) (frame : FragmentFrame) :
    Supplied (history ++ [frame]) (r.insert now frame).2 := by
  have hold := h.mono frame
  rw [insert_eq]
  split
  · -- a fragment with another total leaves the buffer as it is
    intro id buf hget
    rcases get_insert_cases hget with ⟨rfl, rfl⟩ | ⟨-, hget'⟩
    · intro c hc
      obtain ⟨g, hg, hspec⟩ := h.bufferFor now frame c hc
      exact ⟨g, mem_append_left _ hg, hspec⟩
    · exact hold id buf hget'
  · rename_i htotal
    rw [not_not] at htotal
    cases (Reassembler.extended (r.bufferFor now frame) frame).tryReassemble with
    | some packet =>
      intro id buf hget
      exact hold id buf (get_of_get_remove hget)
    | none =>
      intro id buf hget
      rcases get_insert_cases hget with ⟨rfl, rfl⟩ | ⟨-, hget'⟩
      · intro c hc
        obtain ⟨g, hg, hid, hlen, hchunk⟩ := h.extended htotal c hc
        exact ⟨g, hg, hid, hlen.trans htotal.symm, hchunk⟩
      · exact hold id buf hget'

theorem Supplied.expireStale (h : Supplied history r) (now : Nat) :
    Supplied history (r.expireStale now) := by
  intro id buf hget
  rw [Reassembler.expireStale, get_retain, Option.filter_eq_some_iff] at hget
  exact h id buf hget.1

/-- Along any history the chunks are supplied by the fragments inserted so far. -/
theorem supplied_after (calls : List Call) :
    Supplied (calls.filterMap Call.fragment) (after calls) := by
  induction calls using reverseRecOn with
  | nil =>
    intro id buf hget
    cases hget
  | append_singleton calls call ih =>
    rw [after, foldl_append, filterMap_append]
    cases call with
    | insert now frame => exact ih.insert now frame
    | expireStale now =>
      rw [show [Call.expireStale now].filterMap Call.fragment = [] from rfl, append_nil]
      exact ih.expireStale now

/-- After any history of calls, an insertion copies inside the output, and a packet
it returns has the announced length and consists of bytes that fragments of its id and
total supplied at their very positions. -/
theorem hostile_fragments_reassembled (calls : List Call) (now : Nat) (frame : FragmentFrame) :
    (after calls).insertChecked now frame = some ((after calls).insert now frame) ∧
      ∀ packet, ((after calls).insert now frame).1 = some packet →
        packet.length = ((after calls).bufferFor now frame).totalLength.toNat ∧
          ((after calls).bufferFor now frame).totalLength = frame.totalLength ∧
          ∀ pos byte, packet[pos]? = some byte →
            ∃ g ∈ calls.filterMap Call.fragment ++ [frame], g.fragmentId = frame.fragmentId ∧
              g.totalLength = frame.totalLength ∧ g.fragmentOffset.toNat ≤ pos ∧
              g.payload[pos - g.fragmentOffset.toNat]? = some byte := by
  refine ⟨insertChecked_eq .., fun packet hpacket => ?_⟩
  rw [insert_eq] at hpacket
  split at hpacket
  · cases hpacket
  · rename_i htotal
    rw [not_not] at htotal
    cases htry : (extended ((after calls).bufferFor now frame) frame).tryReassemble with
    | none =>
      rw [htry] at hpacket
      cases hpacket
    | some assembled =>
      rw [htry] at hpacket
      cases hpacket
      obtain ⟨hlength, hbytes⟩ := tryReassemble_spec htry
      refine ⟨hlength, htotal, fun pos byte hbyte => ?_⟩
      obtain ⟨c, hc, hcovers, hsupplied⟩ := hbytes pos byte hbyte
      obtain ⟨g, hg, hid, hlen, rfl⟩ := (supplied_after calls).extended htotal c hc
      exact ⟨g, hg, hid, hlen, hcovers.1, hsupplied⟩

/-! ## Fragments of a set of packets -/

def chunkOf (g : FragmentFrame) : UInt16 × Bytes := (g.fragmentOffset, g.payload)

/-- Later fragments of the loop start behind the earlier ones. -/
theorem pairwise_fragmentLoop (hdata : data.length ≤ 65535) :
    ∀ (iterations offset : Nat), (fragmentLoop data fragmentId iterations offset).Pairwise
      fun g g' => g.fragmentOffset.toNat + g.payload.length ≤ g'.fragmentOffset.toNat := by
  intro iterations
  induction iterations with
  | zero => intro offset; exact .nil
  | succ iterations ih =>
    intro offset
    rw [fragmentLoop]
    split
    · refine pairwise_cons.mpr ⟨fun g hg => ?_, ih _⟩
      obtain ⟨-, -, hoffset, -⟩ := fragment_spec hdata hg
      rw [length_window (by omega), UInt16.toNat_ofNat_of_lt' (show offset < 65536 by omega)]
      omega
    · exact .nil

theorem exists_covers_fragmentLoop (hdata : data.length ≤ 65535) {pos : Nat}
    (hpos : pos < data.length) :
    ∀ {iterations offset : Nat}, data.length ≤ offset + iterations → offset ≤ pos →
      ∃ g ∈ fragmentLoop data fragmentId iterations offset, Covers (chunkOf g) pos := by
  intro iterations
  induction iterations with
  | zero => omega
  | succ iterations ih =>
    intro offset hlen hle
    rw [fragmentLoop, if_pos (by omega)]
    by_cases hlt : pos < min (offset + maxFragmentPayload) data.length
    · refine ⟨_, mem_cons_self, ?_⟩
      rw [Covers, chunkOf, length_window (by omega),
        UInt16.toNat_ofNat_of_lt' (show offset < 65536 by omega)]
      omega
    · have hstop : offset < min (offset + maxFragmentPayload) data.length := by
        unfold maxFragmentPayload
        omega
      obtain ⟨g, hg, hcovers⟩ := ih (by omega) (Nat.not_lt.mp hlt)
      exact ⟨g, mem_cons_of_mem _ hg, hcovers⟩

theorem ascending_fragmentPacket (hdata : data.length ≤ 65535) (fragmentId : UInt32) :
    (fragmentPacket data fragmentId).Pairwise fun g g' => g.fragmentOffset < g'.fragmentOffset := by
  refine (pairwise_fragmentLoop hdata _ _).imp_of_mem fun hg _ hbehind => ?_
  obtain ⟨-, -, -, -, -, hpos⟩ := fragment_spec hdata hg
  rw [UInt16.lt_iff_toNat_lt]
  omega

theorem nodup_fragmentPacket (hdata : data.length ≤ 65535) (fragmentId : UInt32) :
    (fragmentPacket data fragmentId).Nodup := by
  refine (ascending_fragmentPacket hdata fragmentId).imp ?_
  rintro g g' hlt rfl
  exact UInt16.lt_irrefl _ hlt

/-- In a buffer that holds some of a packet's fragments, one more fragment takes its
place in the order; a fragment that is there changes nothing. -/
theorem insertChunk_filter {frags kept : List FragmentFrame} {g : FragmentFrame}
    (hsorted : frags.Pairwise fun g g' => g.fragmentOffset < g'.fragmentOffset) (hg : g ∈ frags) :
    insertChunk g.fragmentOffset g.payload ((frags.filter (· ∈ kept)).map chunkOf) =
      (frags.filter (· ∈ g :: kept)).map chunkOf := by
  have hascending (p : FragmentFrame → Bool) : Ascending ((frags.filter p).map chunkOf) :=
    pairwise_map.mpr (hsorted.filter p)
  have hsame : ∀ f ∈ frags, f.fragmentOffset = g.fragmentOffset → f = g := by
    intro f hf hoffset
    by_contra hne
    rcases (hsorted.imp (S := Relation.SymmGen _) Or.inl).forall hf hg hne with hlt | hlt
    · exact UInt16.ne_of_lt hlt hoffset
    · exact UInt16.ne_of_lt hlt hoffset.symm
  -- two lists in ascending order are equal if they have the same chunks
  have : Std.Irrefl fun c c' : UInt16 × Bytes => c.1 < c'.1 := ⟨fun c => UInt16.lt_irrefl _⟩
  refine (ascending_insertChunk (hascending _) _ _).eq_of_mem_iff (hascending _) fun c => ?_
  rw [mem_insertChunk_iff (hascending _)]
  simp only [mem_map, mem_filter]
  grind [chunkOf]

/-- What is assembled from fragments of a packet is the packet. -/
theorem packet_of_tryReassemble {b : ReassemblyBuffer} {packet : Bytes}
    (hdata : data.length ≤ 65535) (htotal : b.totalLength = UInt16.ofNat data.length)
    (hchunks : ∀ c ∈ b.chunks, ∃ g ∈ fragmentPacket data fragmentId, chunkOf g = c)
    (h : b.tryReassemble = some packet) : packet = data := by
  obtain ⟨hlength, hbytes⟩ := tryReassemble_spec h
  have htotal' : b.totalLength.toNat = data.length := by
    rw [htotal]
    exact Nat.mod_eq_of_lt (show data.length < 65536 by omega)
  refine ext_getElem? fun pos => ?_
  cases hbyte : packet[pos]? with
  | none =>
    rw [getElem?_eq_none_iff] at hbyte
    rw [getElem?_eq_none (by omega)]
  | some byte =>
    obtain ⟨c, hc, hcovers, hsupplied⟩ := hbytes pos byte hbyte
    obtain ⟨g, hg, rfl⟩ := hchunks c hc
    -- the fragment is the window of the packet at its
    obtain ⟨-, -, -, -, hwindow, -⟩ := fragment_spec hdata hg
    obtain ⟨hlo, hhi⟩ := hcovers
    dsimp only [chunkOf] at hlo hhi hsupplied
    rw [hwindow, getElem?_window, if_pos (by omega), Nat.add_sub_cancel' hlo] at hsupplied
    exact hsupplied.symm

/-- A buffer that holds some of a packet's fragments gives the packet exactly if it
holds them all. -/
theorem tryReassemble_filter (hdata : data.length ≤ 65535) (p : FragmentFrame → Bool)
    {b : ReassemblyBuffer} (htotal : b.totalLength = UInt16.ofNat data.length)
    (hchunks : b.chunks = ((fragmentPacket data fragmentId).filter p).map chunkOf) :
    b.tryReassemble =
      if ∀ g ∈ fragmentPacket data fragmentId, p g = true then some data else none := by
  have htotal' : b.totalLength.toNat = data.length := by
    rw [htotal]
    exact Nat.mod_eq_of_lt (show data.length < 65536 by omega)
  have hcoverage : coverage b.totalLength.toNat 0 b.chunks = some b.totalLength.toNat ↔
      ∀ g ∈ fragmentPacket data fragmentId, p g = true := by
    rw [htotal', hchunks]
    constructor
    · -- no other fragment covers the first byte of a fragment
      intro hcoverage g hg
      obtain ⟨-, -, -, hend, -, hlength⟩ := fragment_spec hdata hg
      obtain ⟨c, hc, hcovers⟩ := coverage_covers hcoverage g.fragmentOffset.toNat (Nat.zero_le _)
        (by omega)
      obtain ⟨g', hg', rfl⟩ := mem_map.mp hc
      obtain ⟨hg', hp⟩ := mem_filter.mp hg'
      obtain rfl : g' = g := by
        by_contra hne
        have hapart := ((pairwise_fragmentLoop hdata _ _).imp (S := Relation.SymmGen _)
          Or.inl).forall hg' hg hne
        rcases hapart with hbehind | hbehind
        · exact absurd hcovers.2 (Nat.not_lt.mpr hbehind)
        · exact absurd hcovers.1 (show ¬ g'.fragmentOffset.toNat ≤ _ by omega)
      exact hp
    · intro hall
      rw [filter_eq_self.mpr hall]
      refine coverage_of_covers (pairwise_map.mpr (ascending_fragmentPacket hdata _)) ?_
        (Nat.zero_le _) fun pos _ hpos => ?_
      · rintro c hc
        obtain ⟨g, hg, rfl⟩ := mem_map.mp hc
        exact (fragment_spec hdata hg).2.2.2.1
      · obtain ⟨g, hg, hcovers⟩ :=
          exists_covers_fragmentLoop hdata hpos (Nat.le_add_left _ 0) (Nat.zero_le pos)
        exact ⟨chunkOf g, mem_map_of_mem hg, hcovers⟩
  by_cases hall : ∀ g ∈ fragmentPacket data fragmentId, p g = true
  · rw [if_pos hall]
    cases htry : b.tryReassemble with
    | none =>
      rw [tryReassemble_eq, if_pos (hcoverage.mpr hall)] at htry
      cases htry
    | some packet =>
      have hmem : ∀ c ∈ b.chunks, ∃ g ∈ fragmentPacket data fragmentId, chunkOf g = c := by
        intro c hc
        rw [hchunks] at hc
        obtain ⟨g, hg, hgc⟩ := mem_map.mp hc
        exact ⟨g, mem_of_mem_filter hg, hgc⟩
      exact congrArg some (packet_of_tryReassemble hdata htotal hmem htry)
  · rw [if_neg hall, tryReassemble_eq, if_neg (mt hcoverage.mp hall)]

/-! ### The reassembler as a collector -/

section Collecting

variable (packets : HashMap UInt32 Bytes)

def fragmentsOf (id : UInt32) : List FragmentFrame :=
  match packets.get id with
  | some data => fragmentPacket data id
  | none => []

/-- The buffers hold what the collector keeps. -/
def Follows (kept : UInt32 → List FragmentFrame) (r : Reassembler) : Prop :=
  ∀ id data, packets.get id = some data →
    match r.buffers.get id with
    | none => kept id = []
    | some buf => buf.totalLength = UInt16.ofNat data.length ∧
        buf.chunks = ((fragmentPacket data id).filter (· ∈ kept id)).map chunkOf

variable {packets} {kept : UInt32 → List FragmentFrame} {r : Reassembler}
variable {id : UInt32} {data : Bytes}

theorem fragmentsOf_eq (h : packets.get id = some data) :
    fragmentsOf packets id = fragmentPacket data id := by
  rw [fragmentsOf, h]

theorem fragmentId_of_mem_fragmentsOf (hdata : data.length ≤ 65535)
    (h : packets.get id = some data) {g : FragmentFrame} (hg : g ∈ fragmentsOf packets id) :
    g.fragmentId = id ∧ g.totalLength = UInt16.ofNat data.length := by
  rw [fragmentsOf_eq h] at hg
  obtain ⟨hid, htotal, -⟩ := fragment_spec hdata hg
  exact ⟨hid, htotal⟩

theorem Follows.bufferFor (h : Follows packets kept r) (now : Nat) {frame : FragmentFrame}
    (hget : packets.get frame.fragmentId = some data)
    (htotal : frame.totalLength = UInt16.ofNat data.length) :
    (r.bufferFor now frame).totalLength = UInt16.ofNat data.length ∧
      (r.bufferFor now frame).chunks =
        ((fragmentPacket data frame.fragmentId).filter (· ∈ kept frame.fragmentId)).map
          chunkOf := by
  have hbuf := h _ data hget
  rw [Reassembler.bufferFor]
  cases hopen : r.buffers.get frame.fragmentId with
  | none =>
    rw [hopen] at hbuf
    exact ⟨htotal, by simp [hbuf]⟩
  | some buf =>
    rw [hopen] at hbuf
    exact hbuf

/-- One insertion: the packet comes out exactly when the collector fires. -/
theorem Follows.insert (h : Follows packets kept r) (hdata : data.length ≤ 65535) (now : Nat)
    {frame : FragmentFrame} (hget : packets.get frame.fragmentId = some data)
    (hframe : frame ∈ fragmentPacket data frame.fragmentId) :
    (r.insert now frame).1 =
        (if Collector.Completes (fragmentsOf packets) FragmentFrame.fragmentId kept frame then
          some data else none) ∧
      Follows packets (next (fragmentsOf packets) FragmentFrame.fragmentId kept frame)
        (r.insert now frame).2 := by
  obtain ⟨-, htotal, -⟩ := fragment_spec hdata hframe
  obtain ⟨hbuffer, hchunks⟩ := h.bufferFor now hget htotal
  have hextended : (extended (r.bufferFor now frame) frame).chunks =
      ((fragmentPacket data frame.fragmentId).filter
        (· ∈ frame :: kept frame.fragmentId)).map chunkOf := by
    rw [extended, hchunks]
    exact insertChunk_filter (ascending_fragmentPacket hdata _) hframe
  have hcompletes : Collector.Completes (fragmentsOf packets) fragmentId kept frame ↔
      ∀ g ∈ fragmentPacket data frame.fragmentId,
        decide (g ∈ frame :: kept frame.fragmentId) = true := by
    rw [Collector.Completes, fragmentsOf_eq hget]
    simp
  rw [insert_eq, if_neg (not_not.mpr (hbuffer.trans htotal.symm)),
    tryReassemble_filter (b := extended (r.bufferFor now frame) frame) hdata _ hbuffer hextended]
  by_cases hc : Collector.Completes (fragmentsOf packets) fragmentId kept frame
  · rw [if_pos (hcompletes.mp hc), if_pos hc]
    refine ⟨rfl, fun id data' hget' => ?_⟩
    by_cases hid : frame.fragmentId = id
    · subst hid
      rw [get_remove_self]
      exact next_of_completes hc
    · rw [get_remove_ne _ (Ne.symm hid), next_of_ne _ hid]
      exact h id data' hget'
  · rw [if_neg (mt hcompletes.mpr hc), if_neg hc]
    refine ⟨rfl, fun id data' hget' => ?_⟩
    by_cases hid : frame.fragmentId = id
    · subst hid
      obtain rfl : data = data' := Option.some.inj (hget.symm.trans hget')
      rw [get_insert_self, next_of_not_completes hc]
      exact ⟨hbuffer, hextended⟩
    · rw [get_insert_ne _ _ (Ne.symm hid), next_of_ne _ hid]
      exact h id data' hget'

/-- The state after a list of insertions. -/
def fed (arrivals : List (Nat × FragmentFrame)) : Reassembler :=
  arrivals.foldl (fun r a => (r.insert a.1 a.2).2) new

/-- The insertion at this position returns a packet under this id. -/
def Emits (arrivals : List (Nat × FragmentFrame)) (i : Nat) (id : UInt32) (packet : Bytes) : Prop :=
  ∃ now frame, arrivals[i]? = some (now, frame) ∧ frame.fragmentId = id ∧
    ((fed (arrivals.take i)).insert now frame).1 = some packet

/-- The arrivals are fragments of the packets, over the wire. -/
def FromPackets (packets : HashMap UInt32 Bytes) (arrivals : List (Nat × FragmentFrame)) : Prop :=
  ∀ a ∈ arrivals, ∃ id data, packets.get id = some data ∧
    ∃ g ∈ fragmentPacket data id, FragmentFrame.deserialize g.serialize = some a.2

/-- Every packet is not empty and has a length that fits its field. -/
def Fragmentable (packets : HashMap UInt32 Bytes) : Prop :=
  ∀ id data, packets.get id = some data → data ≠ [] ∧ data.length ≤ 65535

variable {arrivals : List (Nat × FragmentFrame)}

theorem FromPackets.fragment (hfrom : FromPackets packets arrivals) (hsize : Fragmentable packets)
    {a : Nat × FragmentFrame} (ha : a ∈ arrivals) :
    ∃ data, packets.get a.2.fragmentId = some data ∧ data.length ≤ 65535 ∧
      a.2 ∈ fragmentPacket data a.2.fragmentId := by
  obtain ⟨id, data, hget, g, hg, hwire⟩ := hfrom a ha
  have hdata : data.length ≤ 65535 := (hsize id data hget).2
  obtain ⟨hid, htotal, -, hbounds, -⟩ := fragment_spec hdata hg
  have hfits : g.fragmentOffset.toNat + g.payload.length ≤ g.totalLength.toNat := by
    rw [htotal]
    exact hbounds.trans_eq (Nat.mod_eq_of_lt (show data.length < 65536 by omega)).symm
  rw [deserialize_serialize hfits] at hwire
  obtain rfl : g = a.2 := Option.some.inj hwire
  rw [hid]
  exact ⟨data, hget, hdata, hg⟩

/-- The reassembler follows the collector along every list of arrivals. -/
theorem follows_fed (hsize : Fragmentable packets) (hfrom : FromPackets packets arrivals) :
    Follows packets (gathered (fragmentsOf packets) FragmentFrame.fragmentId
      (arrivals.map Prod.snd)) (fed arrivals) := by
  induction arrivals using reverseRecOn with
  | nil => intro id data _; rfl
  | append_singleton arrivals a ih =>
    obtain ⟨data, hget, hdata, hframe⟩ := hfrom.fragment hsize (a := a) (by simp)
    have hbefore := ih fun b hb => hfrom b (mem_append_left _ hb)
    rw [map_append, map_singleton, gathered_concat, fed, foldl_append]
    exact (hbefore.insert hdata a.1 hget hframe).2

/-- A packet is returned exactly when the collector fires, and it is the original. -/
theorem emits_iff (hsize : Fragmentable packets) (hfrom : FromPackets packets arrivals) {i : Nat}
    {packet : Bytes} :
    Emits arrivals i id packet ↔ packets.get id = some packet ∧
      Collector.FiresAt (fragmentsOf packets) FragmentFrame.fragmentId (arrivals.map Prod.snd) i
        id := by
  have hbefore : FromPackets packets (arrivals.take i) :=
    fun a ha => hfrom a (mem_of_mem_take ha)
  have hfollows := follows_fed hsize hbefore
  rw [map_take] at hfollows
  constructor
  · rintro ⟨now, frame, ha, rfl, hinsert⟩
    obtain ⟨data, hget, hdata, hframe⟩ := hfrom.fragment hsize (mem_of_getElem? ha)
    rw [(hfollows.insert hdata now hget hframe).1] at hinsert
    split at hinsert
    · rename_i hcompletes
      obtain rfl : data = packet := Option.some.inj hinsert
      refine ⟨hget, frame, ?_, rfl, hcompletes⟩
      rw [getElem?_map, ha]
      rfl
    · cases hinsert
  · rintro ⟨hpacket, frame, hframeAt, rfl, hcompletes⟩
    rw [getElem?_map] at hframeAt
    obtain ⟨⟨now, frame'⟩, ha, rfl⟩ := Option.map_eq_some_iff.mp hframeAt
    obtain ⟨data, hget, hdata, hframe⟩ := hfrom.fragment hsize (mem_of_getElem? ha)
    refine ⟨now, frame', ha, rfl, ?_⟩
    rw [(hfollows.insert hdata now hget hframe).1, if_pos hcompletes, ← hget, hpacket]

/-- All fragments of the packet are among the arrivals. -/
def AllInserted (arrivals : List (Nat × FragmentFrame)) (id : UInt32) (data : Bytes) : Prop :=
  ∀ g ∈ fragmentPacket data id, g ∈ arrivals.map Prod.snd

/-- Whatever the order, interleaving and multiplicity in which fragments of the
packets arrive: what is returned is the original packet of the fragment's id; it is
returned first when the last of its fragments has come, and once if none of them
comes twice. -/
theorem fragments_reassembled (hsize : Fragmentable packets)
    (hfrom : FromPackets packets arrivals) :
    (∀ i id packet, Emits arrivals i id packet → packets.get id = some packet) ∧
      ∀ id data, packets.get id = some data →
        (∀ i, (Emits arrivals i id data ∧ ∀ j < i, ∀ packet, ¬ Emits arrivals j id packet) ↔
          AllInserted (arrivals.take (i + 1)) id data ∧
            ¬ AllInserted (arrivals.take i) id data) ∧
        (((arrivals.map Prod.snd).filter fun g => g.fragmentId = id).Nodup →
          AllInserted arrivals id data → ∃! i, ∃ packet, Emits arrivals i id packet) := by
  refine ⟨fun i id packet h => ((emits_iff hsize hfrom).mp h).1, fun id data hget => ?_⟩
  obtain ⟨hne, hdata⟩ := hsize id data hget
  have hkey : ∀ g ∈ fragmentsOf packets id, g.fragmentId = id :=
    fun g hg => (fragmentId_of_mem_fragmentsOf hdata hget hg).1
  have hparts : fragmentsOf packets id ≠ [] := by
    rw [fragmentsOf_eq hget]
    intro hnil
    have hflat := flatten_fragmentPacket data id
    rw [hnil] at hflat
    exact hne hflat.symm
  -- in the words of the collector
  have hfires : ∀ {j : Nat}, (∃ packet, Emits arrivals j id packet) ↔ Collector.FiresAt
      (fragmentsOf packets) fragmentId (arrivals.map Prod.snd) j id := by
    intro j
    constructor
    · rintro ⟨packet, hemits⟩
      exact ((emits_iff hsize hfrom).mp hemits).2
    · exact fun h => ⟨data, (emits_iff hsize hfrom).mpr ⟨hget, h⟩⟩
  have hall : ∀ {arrived : List (Nat × FragmentFrame)}, AllInserted arrived id data ↔
      ∀ g ∈ fragmentsOf packets id, g ∈ arrived.map Prod.snd := by
    intro arrived
    rw [AllInserted, fragmentsOf_eq hget]
  constructor
  · intro i
    rw [hall, hall, map_take, map_take, ← first_firesAt_iff hkey hparts, emits_iff hsize hfrom]
    constructor
    · rintro ⟨⟨-, hi⟩, hquiet⟩
      exact ⟨hi, fun j hj h => (hfires.mpr h).elim (hquiet j hj)⟩
    · rintro ⟨hi, hquiet⟩
      exact ⟨⟨hget, hi⟩, fun j hj packet h => hquiet j hj (hfires.mp ⟨packet, h⟩)⟩
  · intro hnodup hinserted
    obtain ⟨i, hi⟩ := (exists_firesAt_iff hkey hparts).mpr (hall.mp hinserted)
    refine ⟨i, hfires.mpr hi, fun j hj => ?_⟩
    exact firesAt_unique hkey hparts hnodup (hfires.mp hj) hi

/-- A packet of two fragments. -/
def longPacket : Bytes := List.replicate (maxFragmentPayload + 1) 20

/-- Two packets under two ids. -/
def examplePackets : HashMap UInt32 Bytes := (HashMap.empty.insert 1 [10, 11]).insert 2 longPacket

/-- The second fragment of the long packet comes first, its first one last, and the short
packet in between. -/
def exampleArrivals : List (Nat × FragmentFrame) :=
  [(0, ⟨2, 1200, 1201, [20]⟩), (1, ⟨1, 0, 2, [10, 11]⟩),
    (2, ⟨2, 0, 1201, List.replicate maxFragmentPayload 20⟩)]

theorem fragments_reassembled_example :
    examplePackets.get 2 = some longPacket ∧
      ∃! i, ∃ packet, Emits exampleArrivals i 2 packet := by
  have hsize : Fragmentable examplePackets := by
    intro id data hget
    rcases get_insert_cases hget with ⟨-, rfl⟩ | ⟨-, hget⟩
    · decide +kernel
    · rcases get_insert_cases hget with ⟨-, rfl⟩ | ⟨-, hget⟩
      · decide
      · cases hget
  have hfrom : ∀ a ∈ exampleArrivals, ∃ p ∈ [(1, [10, 11]), (2, longPacket)],
      examplePackets.get p.1 = some p.2 ∧
        ∃ g ∈ fragmentPacket p.2 p.1, deserialize g.serialize = some a.2 := by decide +kernel
  have hget : examplePackets.get 2 = some longPacket := by decide +kernel
  have hall : AllInserted exampleArrivals 2 longPacket := by
    unfold AllInserted
    decide +kernel
  have hpackets : FromPackets examplePackets exampleArrivals := by
    intro a ha
    obtain ⟨p, -, hp⟩ := hfrom a ha
    exact ⟨p.1, p.2, hp⟩
  have hfragments := (fragments_reassembled hsize hpackets).2 2 longPacket hget
  exact ⟨hget, hfragments.2 (by decide +kernel) hall⟩

end Collecting

/-! ## Overlapping fragments of one packet -/

section Overlapping

/-- The first of the fragments at an offset. -/
def firstAt (frames : List FragmentFrame) (offset : UInt16) : Option FragmentFrame :=
  frames.find? fun g => g.fragmentOffset = offset

/-- Of the fragments at one offset the first is kept. -/
structure Keeps (frames : List FragmentFrame) (buf : ReassemblyBuffer) : Prop where
  ascending : Ascending buf.chunks
  mem : ∀ c, c ∈ buf.chunks ↔ ∃ g, firstAt frames g.fragmentOffset = some g ∧ chunkOf g = c

/-- The fragments are for one packet and end inside it. -/
def Within (id : UInt32) (total : UInt16) (arrivals : List (Nat × FragmentFrame)) : Prop :=
  ∀ a ∈ arrivals, a.2.fragmentId = id ∧ a.2.totalLength = total ∧
    a.2.fragmentOffset.toNat + a.2.payload.length ≤ total.toNat

/-- No insertion has returned a packet. -/
def Quiet (arrivals : List (Nat × FragmentFrame)) : Prop :=
  ∀ before a behind, arrivals = before ++ a :: behind → ((fed before).insert a.1 a.2).1 = none

variable {frames : List FragmentFrame} {buf : ReassemblyBuffer} {id : UInt32} {total : UInt16}
variable {arrivals : List (Nat × FragmentFrame)}

theorem Keeps.extended (h : Keeps frames buf) (frame : FragmentFrame) :
    Keeps (frames ++ [frame]) (Reassembler.extended buf frame) := by
  have hat {offset : UInt16} {g : FragmentFrame} (hg : firstAt frames offset = some g) :
      g.fragmentOffset = offset := by
    simpa using find?_some hg
  -- there is no chunk at an offset that no fragment had before
  have hfree : (∀ c ∈ buf.chunks, c.1 ≠ frame.fragmentOffset) ↔
      firstAt frames frame.fragmentOffset = none := by
    rw [Option.eq_none_iff_forall_ne_some]
    constructor
    · intro hnone g hg
      exact hnone (chunkOf g) ((h.mem _).mpr ⟨g, (hat hg).symm ▸ hg, rfl⟩) (hat hg)
    · intro hnone c hc hoffset
      obtain ⟨g, hg, rfl⟩ := (h.mem c).mp hc
      exact hnone g (hoffset ▸ hg)
  refine ⟨ascending_insertChunk h.ascending _ _, fun c => ?_⟩
  rw [Reassembler.extended, mem_insertChunk_iff h.ascending, h.mem, hfree]
  simp only [firstAt, find?_append]
  constructor
  · rintro (⟨g, hg, rfl⟩ | ⟨rfl, hnone⟩)
    · exact ⟨g, by simp [hg], rfl⟩
    · exact ⟨frame, by simp [hnone], rfl⟩
  · rintro ⟨g, hg, rfl⟩
    rcases Option.or_eq_some_iff.mp hg with hg | ⟨hnone, hg⟩
    · exact .inl ⟨g, hg, rfl⟩
    · obtain rfl := mem_singleton.mp (mem_of_find?_eq_some hg)
      exact .inr ⟨rfl, hnone⟩

/-- Until a packet is returned, the first fragment at each offset is kept. -/
theorem keeps_of_quiet (hwithin : Within id total arrivals) (hquiet : Quiet arrivals) (now : Nat)
    {frame : FragmentFrame} (hid : frame.fragmentId = id) (htotal : frame.totalLength = total) :
    ((fed arrivals).bufferFor now frame).totalLength = total ∧
      Keeps (arrivals.map Prod.snd) ((fed arrivals).bufferFor now frame) := by
  induction arrivals using reverseRecOn generalizing now frame with
  | nil => exact ⟨htotal, .nil, fun c => by simp [firstAt, fed, bufferFor, new]⟩
  | append_singleton arrivals a ih =>
    obtain ⟨haid, hatotal, -⟩ := hwithin a (by simp)
    obtain ⟨hbuffer, hkeeps⟩ := ih (fun b hb => hwithin b (by simp [hb]))
      (fun before b behind h => hquiet before b (behind ++ [a]) (by simp [h])) a.1 haid hatotal
    have hnone := hquiet arrivals a [] rfl
    have hfed : fed (arrivals ++ [a]) = ((fed arrivals).insert a.1 a.2).2 := foldl_append
    rw [hfed]
    rw [insert_eq, if_neg (not_not.mpr (hbuffer.trans hatotal.symm))] at hnone ⊢
    cases htry : (extended ((fed arrivals).bufferFor a.1 a.2) a.2).tryReassemble with
    | some packet =>
      rw [htry] at hnone
      cases hnone
    | none =>
      rw [bufferFor, hid, ← haid, get_insert_self, map_append]
      exact ⟨hbuffer, hkeeps.extended a.2⟩

/-- As long as nothing was returned, an insertion returns a packet exactly if the fragments
that come first at their offsets cover all of it. -/
theorem insert_returns_iff_firsts_cover {now : Nat} {frame : FragmentFrame}
    (hwithin : Within id total (arrivals ++ [(now, frame)])) (hquiet : Quiet arrivals) :
    ((fed arrivals).insert now frame).1.isSome ↔ ∀ pos < total.toNat,
      ∃ g, firstAt (arrivals.map Prod.snd ++ [frame]) g.fragmentOffset = some g ∧
        Covers (chunkOf g) pos := by
  obtain ⟨hid, htotal, -⟩ := hwithin (now, frame) (by simp)
  obtain ⟨hbuffer, hold⟩ :=
    keeps_of_quiet (fun b hb => hwithin b (by simp [hb])) hquiet now hid htotal
  obtain ⟨hascending, hmem⟩ := hold.extended frame
  have hfit : ∀ c ∈ (extended ((fed arrivals).bufferFor now frame) frame).chunks,
      c.1.toNat + c.2.length ≤ total.toNat := by
    intro c hc
    obtain ⟨g, hg, rfl⟩ := (hmem c).mp hc
    obtain ⟨a, ha, rfl⟩ : ∃ a ∈ arrivals ++ [(now, frame)], a.2 = g := by
      simpa [eq_comm] using mem_of_find?_eq_some hg
    exact (hwithin a ha).2.2
  rw [insert_eq, if_neg (not_not.mpr (hbuffer.trans htotal.symm)), tryReassemble_eq,
    show (extended ((fed arrivals).bufferFor now frame) frame).totalLength = total from hbuffer]
  by_cases hcoverage : coverage total.toNat 0
      (extended ((fed arrivals).bufferFor now frame) frame).chunks = some total.toNat
  · rw [if_pos hcoverage]
    refine iff_of_true rfl fun pos hpos => ?_
    obtain ⟨c, hc, hcovers⟩ := coverage_covers hcoverage pos (Nat.zero_le _) hpos
    obtain ⟨g, hg, rfl⟩ := (hmem c).mp hc
    exact ⟨g, hg, hcovers⟩
  · rw [if_neg hcoverage]
    refine iff_of_false nofun fun hall => hcoverage ?_
    refine coverage_of_covers hascending hfit (Nat.zero_le _) fun pos _ hpos => ?_
    obtain ⟨g, hg, hcovers⟩ := hall pos hpos
    exact ⟨chunkOf g, (hmem _).mpr ⟨g, hg, rfl⟩, hcovers⟩

/-- The second half first. -/
theorem insert_returns_iff_firsts_cover_pair :
    ((fed [(0, ⟨1, 1, 2, [11]⟩)]).insert 1 ⟨1, 0, 2, [10]⟩).1.isSome := by
  refine (@insert_returns_iff_firsts_cover 1 2 _ _ _ ?_ ?_).mpr fun pos hpos => ?_
  · unfold Within
    decide
  · intro before a behind h
    obtain ⟨rfl, rfl, rfl⟩ : before = [] ∧ a = (0, ⟨1, 1, 2, [11]⟩) ∧ behind = [] := by
      simpa [singleton_eq_append_iff] using h
    decide
  · obtain rfl | rfl : pos = 0 ∨ pos = 1 := by
      have hlt : pos < 2 := hpos
      omega
    · exact ⟨⟨1, 0, 2, [10]⟩, rfl, by constructor <;> decide⟩
    · exact ⟨⟨1, 1, 2, [11]⟩, rfl, by constructor <;> decide⟩

/-- A piece that comes first at its offset shuts out a longer one. -/
theorem longer_fragment_ignored :
    Within 1 2 [(0, ⟨1, 0, 2, [10]⟩), (1, ⟨1, 0, 2, [10, 11]⟩)] ∧
      (∀ pos < 2, Covers (chunkOf ⟨1, 0, 2, [10, 11]⟩) pos) ∧
      ((fed [(0, ⟨1, 0, 2, [10]⟩)]).insert 1 ⟨1, 0, 2, [10, 11]⟩).1 = none := by
  refine ⟨?_, fun pos hpos => ⟨Nat.zero_le _, hpos⟩, by decide⟩
  unfold Within
  decide

end Overlapping

end Reassembler

end ProximityMesh.Protocol
