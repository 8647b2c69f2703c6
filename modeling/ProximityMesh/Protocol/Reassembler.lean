/-
  Protocol/Reassembler.lean --- reassembly of fragmented mesh payloads.

  Source: crates/pim-protocol/src/reassembler.rs.

  The chunks of a buffer are kept in ascending order of their offsets, as the
  `BTreeMap` of the source iterates them.
-/
import ProximityMesh.Foundation.HashMap
import ProximityMesh.Protocol.DataFrame

set_option autoImplicit false

namespace ProximityMesh.Protocol

open List

structure ReassemblyBuffer where
  totalLength : UInt16
  /-- Received chunks with their offsets, in ascending order. -/
  chunks : List (UInt16 × Bytes)
  /-- When the first fragment was received, in nanoseconds. -/
  createdAt : Nat
  deriving DecidableEq

namespace ReassemblyBuffer

/-- Insert a chunk; the first one at an offset stays. -/
def insertChunk (offset : UInt16) (payload : Bytes) : List (UInt16 × Bytes) → List (UInt16 × Bytes)
  | [] => [(offset, payload)]
  | c :: cs =>
      if offset < c.1 then (offset, payload) :: c :: cs
      else if offset = c.1 then c :: cs
      else c :: insertChunk offset payload cs

/-- How far the chunks reach without a gap; `none` if there is one, or if a chunk
ends behind `total`. -/
def coverage (total : Nat) : Nat → List (UInt16 × Bytes) → Option Nat
  | covered, [] => some covered
  | covered, (offset, chunk) :: cs =>
      let stop := offset.toNat + chunk.length
      if offset.toNat > covered then none
      else if stop > total then none
      else coverage total (max covered stop) cs

/-- The packet, when all its bytes have been received. -/
def tryReassemble (b : ReassemblyBuffer) : Option Bytes :=
  let total := b.totalLength.toNat
  if coverage total 0 b.chunks = some total then
    some (b.chunks.foldl (fun buf c => patch buf c.1.toNat c.2) (List.replicate total 0))
  else none

/-- The copy loop of `try_reassemble`, with the bounds check of every slice. -/
def copyChunks : List (UInt16 × Bytes) → BufM PimError Unit
  | [] => pure ()
  | (offset, chunk) :: cs => do
      BufM.copyFromSlice offset.toNat chunk
      copyChunks cs

/-- `try_reassemble` with the panics of its copy loop, which are `none`. -/
def tryReassembleChecked (b : ReassemblyBuffer) : Option (Option Bytes) :=
  let total := b.totalLength.toNat
  if coverage total 0 b.chunks = some total then
    match copyChunks b.chunks (List.replicate total 0) with
    | .ok () packet => some (some packet)
    | .error _ _ => none
  else some none

def isExpired (b : ReassemblyBuffer) (timeout now : Nat) : Bool :=
  decide (timeout ≤ now - b.createdAt)

end ReassemblyBuffer

/-- Reassembles the fragments of one sender. -/
structure Reassembler where
  buffers : HashMap UInt32 ReassemblyBuffer

namespace Reassembler

def new : Reassembler := ⟨.empty⟩

/-- The default timeout of 10 seconds, in nanoseconds. -/
def timeout : Nat := 10000000000

/-- Feed a fragment; the result is the packet when it is complete. -/
def insert (r : Reassembler) (now : Nat) (frame : FragmentFrame) : Option Bytes × Reassembler :=
  let buf := (r.buffers.get frame.fragmentId).getD ⟨frame.totalLength, [], now⟩
  if buf.totalLength ≠ frame.totalLength then
    (none, ⟨r.buffers.insert frame.fragmentId buf⟩)
  else
    let buf := { buf with
      chunks := ReassemblyBuffer.insertChunk frame.fragmentOffset frame.payload buf.chunks }
    match buf.tryReassemble with
    | some packet => (some packet, ⟨r.buffers.remove frame.fragmentId⟩)
    | none => (none, ⟨r.buffers.insert frame.fragmentId buf⟩)

/-- `insert` with the panics of its copy loop, which are `none`. -/
def insertChecked (r : Reassembler) (now : Nat) (frame : FragmentFrame) :
    Option (Option Bytes × Reassembler) :=
  let buf := (r.buffers.get frame.fragmentId).getD ⟨frame.totalLength, [], now⟩
  if buf.totalLength ≠ frame.totalLength then
    some (none, ⟨r.buffers.insert frame.fragmentId buf⟩)
  else
    let buf := { buf with
      chunks := ReassemblyBuffer.insertChunk frame.fragmentOffset frame.payload buf.chunks }
    match buf.tryReassembleChecked with
    | none => none
    | some (some packet) => some (some packet, ⟨r.buffers.remove frame.fragmentId⟩)
    | some none => some (none, ⟨r.buffers.insert frame.fragmentId buf⟩)

/-- Discard the buffers that have been waiting for the timeout. -/
def expireStale (r : Reassembler) (now : Nat) : Reassembler :=
  ⟨r.buffers.retain fun _ buf => !buf.isExpired timeout now⟩

end Reassembler

/-! ## Assembling a packet -/

namespace ReassemblyBuffer

/-- The chunk supplies the byte at this position. -/
def Covers (c : UInt16 × Bytes) (pos : Nat) : Prop :=
  c.1.toNat ≤ pos ∧ pos < c.1.toNat + c.2.length

/-- The output after the copy loop. -/
def copied (buf : Bytes) (chunks : List (UInt16 × Bytes)) : Bytes :=
  chunks.foldl (fun buf c => patch buf c.1.toNat c.2) buf

/-- Chunks as a buffer keeps them: one for each offset, in order. -/
abbrev Ascending (chunks : List (UInt16 × Bytes)) : Prop := chunks.Pairwise fun c c' => c.1 < c'.1

variable {chunks : List (UInt16 × Bytes)}

theorem mem_insertChunk_iff {offset : UInt16} {payload : Bytes} (h : Ascending chunks)
    (c : UInt16 × Bytes) : c ∈ insertChunk offset payload chunks ↔
      c ∈ chunks ∨ c = (offset, payload) ∧ ∀ c' ∈ chunks, c'.1 ≠ offset := by
  induction chunks with
  | nil => simp [insertChunk]
  | cons c₀ chunks ih =>
    obtain ⟨hfirst, h⟩ := pairwise_cons.mp h
    grind [insertChunk]

theorem ascending_insertChunk (h : Ascending chunks) (offset : UInt16) (payload : Bytes) :
    Ascending (insertChunk offset payload chunks) := by
  induction chunks with
  | nil => exact pairwise_singleton _ _
  | cons c₀ chunks ih =>
    obtain ⟨hfirst, h⟩ := pairwise_cons.mp h
    have hmem := @mem_insertChunk_iff chunks offset payload h
    grind [insertChunk, pairwise_cons]

theorem coverage_fits {total : Nat} :
    ∀ {covered reached : Nat}, coverage total covered chunks = some reached →
      ∀ c ∈ chunks, c.1.toNat + c.2.length ≤ total := by
  induction chunks with
  | nil => intro covered reached _ c hc; cases hc
  | cons c chunks ih =>
    intro covered reached h c' hc'
    rw [coverage] at h
    split at h
    · cases h
    · split at h
      · cases h
      · rename_i hend
        rcases mem_cons.mp hc' with rfl | hrest
        · exact Nat.not_lt.mp hend
        · exact ih h c' hrest

/-- The coverage loop leaves no gap behind it. -/
theorem coverage_covers {total : Nat} :
    ∀ {covered reached : Nat}, coverage total covered chunks = some reached →
      ∀ pos, covered ≤ pos → pos < reached → ∃ c ∈ chunks, Covers c pos := by
  induction chunks with
  | nil =>
    intro covered reached h pos hlo hhi
    cases h
    omega
  | cons c chunks ih =>
    intro covered reached h pos hlo hhi
    rw [coverage] at h
    split at h
    · cases h
    · split at h
      · cases h
      · by_cases hpos : pos < c.1.toNat + c.2.length
        · exact ⟨c, mem_cons_self .., by omega, hpos⟩
        · obtain ⟨c', hc', hcovers⟩ := ih h pos (by omega) hhi
          exact ⟨c', mem_cons_of_mem _ hc', hcovers⟩

/-- Chunks in order that end inside the packet let the loop through if they leave no gap. -/
theorem coverage_of_covers {total covered : Nat} (h : Ascending chunks)
    (hfit : ∀ c ∈ chunks, c.1.toNat + c.2.length ≤ total) (hle : covered ≤ total)
    (hall : ∀ pos, covered ≤ pos → pos < total → ∃ c ∈ chunks, Covers c pos) :
    coverage total covered chunks = some total := by
  induction chunks generalizing covered with
  | nil =>
    have hcovered : covered = total := by
      by_contra hne
      obtain ⟨c, hc, -⟩ := hall covered (Nat.le_refl _) (by omega)
      cases hc
    rw [coverage, hcovered]
  | cons c chunks ih =>
    obtain ⟨hfirst, h⟩ := pairwise_cons.mp h
    obtain ⟨hstop, hfit⟩ := forall_mem_cons.mp hfit
    have hstart : c.1.toNat ≤ covered := by
      by_contra hgap
      obtain ⟨c', hc', hcovers⟩ := hall covered (Nat.le_refl _) (by omega)
      rcases mem_cons.mp hc' with rfl | hlater
      · exact hgap hcovers.1
      · exact hgap ((UInt16.lt_iff_toNat_lt.mp (hfirst c' hlater)).le.trans hcovers.1)
    rw [coverage, if_neg (by omega), if_neg (by omega)]
    refine ih h hfit (by omega) fun pos hlo hhi => ?_
    obtain ⟨c', hc', hcovers⟩ := hall pos (by omega) hhi
    rcases mem_cons.mp hc' with rfl | hlater
    · exact absurd hcovers.2 (by omega)
    · exact ⟨c', hlater, hcovers⟩

theorem length_copied :
    ∀ {buf : Bytes}, (∀ c ∈ chunks, c.1.toNat + c.2.length ≤ buf.length) →
      (copied buf chunks).length = buf.length := by
  induction chunks with
  | nil => intro buf _; rfl
  | cons c chunks ih =>
    intro buf hfit
    have hlen : (patch buf c.1.toNat c.2).length = buf.length :=
      length_patch (hfit c (mem_cons_self ..))
    rw [copied, foldl_cons, ← copied, ih fun c' hc' => hlen ▸ hfit c' (mem_cons_of_mem _ hc'), hlen]

/-- The copy loop stays inside the output. -/
theorem copyChunks_eq :
    ∀ {buf : Bytes}, (∀ c ∈ chunks, c.1.toNat + c.2.length ≤ buf.length) →
      copyChunks chunks buf = .ok () (copied buf chunks) := by
  induction chunks with
  | nil => intro buf _; rfl
  | cons c chunks ih =>
    intro buf hfit
    have hhead : c.1.toNat + c.2.length ≤ buf.length := hfit c (mem_cons_self ..)
    have hcopy : BufM.copyFromSlice c.1.toNat c.2 buf =
        (.ok () (patch buf c.1.toNat c.2) : EStateM.Result (Fault PimError) Bytes Unit) :=
      if_pos hhead
    rw [copyChunks, BufM.bind_of_ok hcopy, ih, copied, copied, foldl_cons]
    intro c' hc'
    rw [length_patch hhead]
    exact hfit c' (mem_cons_of_mem _ hc')

/-- A copied byte comes from a chunk that covers its place; other places keep what
they held. -/
theorem getElem?_copied (pos : Nat) :
    ∀ {buf : Bytes}, (∀ c ∈ chunks, c.1.toNat + c.2.length ≤ buf.length) →
      (∃ c ∈ chunks, Covers c pos ∧ (copied buf chunks)[pos]? = c.2[pos - c.1.toNat]?) ∨
        ((∀ c ∈ chunks, ¬ Covers c pos) ∧ (copied buf chunks)[pos]? = buf[pos]?) := by
  induction chunks with
  | nil => intro buf _; exact .inr ⟨fun c hc => absurd hc not_mem_nil, rfl⟩
  | cons c chunks ih =>
    intro buf hfit
    have hhead : c.1.toNat + c.2.length ≤ buf.length := hfit c (mem_cons_self ..)
    have hlen : (patch buf c.1.toNat c.2).length = buf.length := length_patch hhead
    rw [copied, foldl_cons, ← copied]
    rcases ih fun c' hc' => hlen ▸ hfit c' (mem_cons_of_mem _ hc') with
      ⟨c', hc', hcovers, hbyte⟩ | ⟨hnone, hbyte⟩
    · exact .inl ⟨c', mem_cons_of_mem _ hc', hcovers, hbyte⟩
    · by_cases hcovers : Covers c pos
      · refine .inl ⟨c, mem_cons_self .., hcovers, ?_⟩
        rw [hbyte, getElem?_patch_inside hhead hcovers.1 hcovers.2]
      · refine .inr ⟨?_, ?_⟩
        · intro c' hc'
          rcases mem_cons.mp hc' with rfl | hrest
          · exact hcovers
          · exact hnone c' hrest
        · rw [hbyte]
          refine (agreeOutside_patch rfl hhead).getElem?_eq pos ?_
          unfold Covers at hcovers
          omega

theorem tryReassemble_eq (b : ReassemblyBuffer) :
    b.tryReassemble =
      if coverage b.totalLength.toNat 0 b.chunks = some b.totalLength.toNat then
        some (copied (replicate b.totalLength.toNat 0) b.chunks)
      else none := rfl

theorem tryReassembleChecked_eq (b : ReassemblyBuffer) :
    b.tryReassembleChecked = some b.tryReassemble := by
  rw [tryReassembleChecked, tryReassemble_eq]
  split
  · rename_i hcoverage
    have hfit : ∀ c ∈ b.chunks, c.1.toNat + c.2.length ≤
        (replicate b.totalLength.toNat (0 : UInt8)).length := by
      rw [length_replicate]
      exact coverage_fits hcoverage
    rw [copyChunks_eq hfit]
  · rfl

/-- A packet has the announced length, and every byte of it was in a chunk at that
very position. -/
theorem tryReassemble_spec {b : ReassemblyBuffer} {packet : Bytes}
    (h : b.tryReassemble = some packet) :
    packet.length = b.totalLength.toNat ∧
      ∀ pos byte, packet[pos]? = some byte →
        ∃ c ∈ b.chunks, Covers c pos ∧ c.2[pos - c.1.toNat]? = some byte := by
  rw [tryReassemble_eq] at h
  split at h
  · rename_i hcoverage
    cases h
    have hfit : ∀ c ∈ b.chunks, c.1.toNat + c.2.length ≤
        (replicate b.totalLength.toNat (0 : UInt8)).length := by
      rw [length_replicate]
      exact coverage_fits hcoverage
    have hlength := length_copied hfit
    rw [length_replicate] at hlength
    refine ⟨hlength, fun pos byte hbyte => ?_⟩
    have hpos : pos < b.totalLength.toNat :=
      hlength ▸ (List.getElem?_eq_some_iff.mp hbyte).1
    rcases getElem?_copied pos hfit with ⟨c, hc, hcovers, heq⟩ | ⟨hnone, -⟩
    · exact ⟨c, hc, hcovers, heq ▸ hbyte⟩
    · -- the coverage loop has passed over this position
      obtain ⟨c, hc, hcovers⟩ := coverage_covers hcoverage pos (Nat.zero_le _) hpos
      exact absurd hcovers (hnone c hc)
  · cases h

end ReassemblyBuffer

namespace Reassembler

/-- The buffer a fragment goes to; a first fragment opens one. -/
def bufferFor (r : Reassembler) (now : Nat) (frame : FragmentFrame) : ReassemblyBuffer :=
  (r.buffers.get frame.fragmentId).getD ⟨frame.totalLength, [], now⟩

def extended (buf : ReassemblyBuffer) (frame : FragmentFrame) : ReassemblyBuffer :=
  { buf with
    chunks := ReassemblyBuffer.insertChunk frame.fragmentOffset frame.payload buf.chunks }

theorem insert_eq (r : Reassembler) (now : Nat) (frame : FragmentFrame) :
    r.insert now frame =
      if (r.bufferFor now frame).totalLength ≠ frame.totalLength then
        (none, ⟨r.buffers.insert frame.fragmentId (r.bufferFor now frame)⟩)
      else
        match (extended (r.bufferFor now frame) frame).tryReassemble with
        | some packet => (some packet, ⟨r.buffers.remove frame.fragmentId⟩)
        | none =>
          (none, ⟨r.buffers.insert frame.fragmentId (extended (r.bufferFor now frame) frame)⟩) :=
  rfl

theorem length_of_insert {r : Reassembler} {now : Nat} {frame : FragmentFrame} {packet : Bytes}
    (h : (r.insert now frame).1 = some packet) : packet.length = frame.totalLength.toNat := by
  rw [insert_eq] at h
  split at h
  · cases h
  · rename_i htotal
    cases hpacket : (extended (r.bufferFor now frame) frame).tryReassemble with
    | none =>
      rw [hpacket] at h
      cases h
    | some packet' =>
      rw [hpacket] at h
      cases h
      rw [(ReassemblyBuffer.tryReassemble_spec hpacket).1, ← not_not.mp htotal]
      rfl

theorem insertChecked_eq (r : Reassembler) (now : Nat) (frame : FragmentFrame) :
    r.insertChecked now frame = some (r.insert now frame) := by
  rw [insert_eq]
  show (if (r.bufferFor now frame).totalLength ≠ frame.totalLength then _ else
    match (extended (r.bufferFor now frame) frame).tryReassembleChecked with
    | none => none
    | some (some packet) => some (some packet, _)
    | some none => some (none, _)) = _
  rw [ReassemblyBuffer.tryReassembleChecked_eq]
  split
  · rfl
  · cases (extended (r.bufferFor now frame) frame).tryReassemble with
    | none | some packet => rfl

end Reassembler

end ProximityMesh.Protocol
