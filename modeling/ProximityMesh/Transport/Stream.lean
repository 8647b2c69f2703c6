/-
  Transport/Stream.lean --- the read task of a connection as a function of the
  byte stream.

  Source: crates/pim-transport/src/tcp.rs (the read task of `register_peer`) and
  crates/pim-protocol/src/length_delimited.rs.

  A socket hands the stream over in pieces of its own choice.  `readLoop` is what
  the read task makes of a list of reads, and `readLoop_eq` says that it depends
  on the bytes only, because the inner loop may stop anywhere and go on with more
  bytes (`takeFrames_append`).

  A refused length prefix ends the inner loop and not the read task, which goes on
  to read and keeps what it read; `read_buffer_bounded_iff` says what that means for
  the size of the buffer.

  The transport runs the inner loop one message at a time: `takeFrames_of_deliver`.
-/
import ProximityMesh.Transport.Tcp

set_option autoImplicit false

namespace ProximityMesh.Transport

open Protocol LengthDelimitedCodec List

/-! ## The loops -/

/-- The inner loop: take messages off the buffer until one is incomplete or its
length prefix is refused.  A message has at least four bytes, so the length of the
buffer bounds the turns. -/
def takeLoop : Nat → Bytes → List Bytes × Bytes
  | 0, buf => ([], buf)
  | turns + 1, buf =>
      match LengthDelimitedCodec.decode buf with
      | .ok (some frameBytes) rest =>
          (frameBytes :: (takeLoop turns rest).1, (takeLoop turns rest).2)
      | .ok none rest => ([], rest)
      | .error _ rest => ([], rest)

/-- The complete messages of the buffer, and the buffer behind them. -/
def takeFrames (buf : Bytes) : List Bytes × Bytes := takeLoop buf.length buf

/-- The read task over what its reads return: the messages it takes and the buffer
it is left with.  A read of no bytes is the end of the stream. -/
def readLoop (buf : Bytes) : List Bytes → List Bytes × Bytes
  | [] => ([], buf)
  | chunk :: chunks =>
      if chunk = [] then ([], buf)
      else
        let taken := takeFrames (buf ++ chunk)
        let later := readLoop taken.2 chunks
        (taken.1 ++ later.1, later.2)

/-! ## The inner loop -/

variable (buf : Bytes)

theorem decode_cases :
    (∃ payload rest, LengthDelimitedCodec.decode buf = .ok (some payload) rest ∧
      payload.length ≤ maxFrameSize ∧ buf = encode payload ++ rest) ∨
    (LengthDelimitedCodec.decode buf = .ok none buf ∧
      (4 ≤ buf.length → buf.length < 4 + beNat (window buf 0 4))) ∨
    (∃ e, LengthDelimitedCodec.decode buf = .error e buf ∧ 4 ≤ buf.length ∧
      maxFrameSize < beNat (window buf 0 4)) := by
  have h := decode_ensures buf
  unfold BufM.Ensures at h
  cases hdec : LengthDelimitedCodec.decode buf with
  | ok message rest =>
    rw [hdec] at h
    cases message with
    | some payload => exact .inl ⟨payload, rest, rfl, h⟩
    | none =>
      obtain ⟨rfl, hshort⟩ := h
      exact .inr (.inl ⟨rfl, hshort⟩)
  | error e rest =>
    rw [hdec] at h
    obtain ⟨-, rfl, hlong⟩ := h
    exact .inr (.inr ⟨e, rfl, hlong⟩)

/-- More turns than the buffer has bytes change nothing. -/
theorem takeLoop_eq {turns : Nat} : ∀ {buf : Bytes}, buf.length ≤ turns →
    takeLoop turns buf = takeFrames buf := by
  induction turns using Nat.strong_induction_on with
  | _ turns ih =>
    intro buf hturns
    cases turns with
    | zero => rw [takeFrames, Nat.le_zero.mp hturns]
    | succ turns =>
      cases hlen : buf.length with
      | zero =>
        have hnil : buf = [] := length_eq_zero_iff.mp hlen
        subst hnil
        rfl
      | succ n =>
        rw [takeFrames, hlen, takeLoop, takeLoop]
        rcases decode_cases buf with ⟨payload, rest, hdec, -, hbuf⟩ | ⟨hdec, -⟩ | ⟨e, hdec, -⟩
        · have hrest : rest.length + 4 ≤ buf.length := by
            rw [hbuf, length_append, length_encode]
            omega
          have hleft : takeLoop turns rest = takeFrames rest := ih _ (by omega) (by omega)
          have hright : takeLoop n rest = takeFrames rest := ih _ (by omega) (by omega)
          rw [hdec]
          dsimp only
          rw [hleft, hright]
        · rw [hdec]
        · rw [hdec]

theorem takeFrames_of_some {buf payload rest : Bytes}
    (h : LengthDelimitedCodec.decode buf = .ok (some payload) rest) :
    takeFrames buf = (payload :: (takeFrames rest).1, (takeFrames rest).2) := by
  have hbuf : buf = encode payload ++ rest := ((decode_ensures buf).of_ok h).2
  have hlen : buf.length = (3 + payload.length + rest.length) + 1 := by
    rw [hbuf, length_append, length_encode]
    omega
  rw [takeFrames, hlen, takeLoop, h]
  dsimp only
  rw [takeLoop_eq (by omega)]

theorem takeFrames_of_not_some {buf : Bytes}
    (h : ∀ payload rest, LengthDelimitedCodec.decode buf ≠ .ok (some payload) rest) :
    takeFrames buf = ([], buf) := by
  rw [takeFrames]
  cases buf.length with
  | zero => rfl
  | succ turns =>
    rw [takeLoop]
    rcases decode_cases buf with ⟨payload, rest, hdec, -⟩ | ⟨hdec, -⟩ | ⟨e, hdec, -⟩
    · exact absurd hdec (h payload rest)
    · rw [hdec]
    · rw [hdec]

theorem takeFrames_encode_append {payload : Bytes} (h : payload.length ≤ maxFrameSize)
    (rest : Bytes) :
    takeFrames (encode payload ++ rest) =
      (payload :: (takeFrames rest).1, (takeFrames rest).2) :=
  takeFrames_of_some (decode_encode_append h rest)

/-- Induction along the loop: a complete message at the front, or nothing to take. -/
theorem takeFrames_induction {P : Bytes → Prop}
    (message : ∀ payload rest : Bytes, payload.length ≤ maxFrameSize → P rest →
      P (encode payload ++ rest))
    (stuck : ∀ buf, takeFrames buf = ([], buf) → P buf) (buf : Bytes) : P buf := by
  induction hn : buf.length using Nat.strong_induction_on generalizing buf with
  | _ n ih =>
    by_cases hsome : ∃ payload rest, LengthDelimitedCodec.decode buf = .ok (some payload) rest
    · obtain ⟨payload, rest, hdec⟩ := hsome
      obtain ⟨hmax, hbuf⟩ := (decode_ensures buf).of_ok hdec
      have hlen : rest.length < n := by
        rw [← hn, hbuf, length_append, length_encode]
        omega
      rw [hbuf]
      exact message payload rest hmax (ih _ hlen rest rfl)
    · exact stuck buf (takeFrames_of_not_some fun payload rest h => hsome ⟨payload, rest, h⟩)

/-- The loop may stop at any byte and go on with the bytes behind it. -/
theorem takeFrames_append (x y : Bytes) :
    takeFrames (x ++ y) =
      ((takeFrames x).1 ++ (takeFrames ((takeFrames x).2 ++ y)).1,
        (takeFrames ((takeFrames x).2 ++ y)).2) := by
  induction x using takeFrames_induction with
  | message payload rest hmax ih =>
    -- the message at the front is still there when more bytes follow
    rw [append_assoc, takeFrames_encode_append hmax, takeFrames_encode_append hmax, ih]
    rfl
  | stuck x hx =>
    rw [hx]
    rfl

theorem takeFrames_rest :
    takeFrames (takeFrames buf).2 = ([], (takeFrames buf).2) := by
  induction buf using takeFrames_induction with
  | message payload rest hmax ih =>
    rw [takeFrames_encode_append hmax]
    exact ih
  | stuck buf hbuf =>
    rw [hbuf]
    exact hbuf

/-- The messages taken off a buffer stand in front of what is left. -/
theorem eq_flatMap_of_takeFrames :
    (∀ payload ∈ (takeFrames buf).1, payload.length ≤ maxFrameSize) ∧
      buf = (takeFrames buf).1.flatMap encode ++ (takeFrames buf).2 := by
  induction buf using takeFrames_induction with
  | message payload rest hmax ih =>
    obtain ⟨hrest, hsplit⟩ := ih
    rw [takeFrames_encode_append hmax]
    refine ⟨forall_mem_cons.mpr ⟨hmax, hrest⟩, ?_⟩
    rw [flatMap_cons, append_assoc, ← hsplit]
  | stuck buf hbuf =>
    rw [hbuf]
    exact ⟨fun _ h => absurd h not_mem_nil, rfl⟩

theorem length_takeFrames_le : (takeFrames buf).2.length ≤ buf.length := by
  have hsplit := congrArg length (eq_flatMap_of_takeFrames buf).2
  rw [length_append] at hsplit
  omega

/-- The read task yields what its inner loop would on all the bytes at once. -/
theorem readLoop_eq {chunks : List Bytes} (hchunks : ∀ chunk ∈ chunks, chunk ≠ []) :
    ∀ {buf : Bytes}, takeFrames buf = ([], buf) →
      readLoop buf chunks = takeFrames (buf ++ chunks.flatten) := by
  induction chunks with
  | nil =>
    intro buf hbuf
    rw [flatten_nil, append_nil, hbuf]
    rfl
  | cons chunk chunks ih =>
    intro buf hbuf
    rw [readLoop, if_neg (hchunks chunk (mem_cons_self ..))]
    dsimp only
    rw [ih (fun c hc => hchunks c (mem_cons_of_mem _ hc)) (takeFrames_rest _),
      flatten_cons, ← append_assoc, takeFrames_append (buf ++ chunk)]

/-! ## Streams of encoded messages -/

/-- The length prefix tells two encodings apart. -/
theorem length_eq_of_encode_append {p q r s : Bytes} (hp : p.length ≤ maxFrameSize)
    (hq : q.length ≤ maxFrameSize) (h : encode q ++ r <+: encode p ++ s) :
    q.length = p.length := by
  have hfields : beBytes 4 q.length = beBytes 4 p.length := by
    obtain ⟨t, ht⟩ := h
    simp only [encode, append_assoc] at ht
    exact (append_inj ht (by rw [length_beBytes, length_beBytes])).1
  have hfits : ∀ {n : Nat}, n ≤ maxFrameSize → n < 256 ^ 4 := by
    intro n hn
    exact Nat.lt_of_le_of_lt hn (by decide)
  exact beBytes_inj (hfits hq) (hfits hp) hfields

variable {payloads : List Bytes} (hmax : ∀ payload ∈ payloads, payload.length ≤ maxFrameSize)

include hmax

/-- Of a beginning of the stream, the messages that are wholly in it are taken. -/
theorem takeFrames_of_beginning :
    ∀ {bytes : Bytes}, bytes <+: payloads.flatMap encode →
      (takeFrames bytes).1 <+: payloads ∧
        ∀ k ≤ payloads.length, k ≤ (takeFrames bytes).1.length ↔
          ((payloads.take k).flatMap encode).length ≤ bytes.length := by
  induction payloads with
  | nil =>
    intro bytes hbytes
    have hnil : bytes = [] := prefix_nil.mp hbytes
    subst hnil
    refine ⟨prefix_rfl, fun k hk => ?_⟩
    rw [Nat.le_zero.mp hk]
    simp
  | cons payload payloads ih =>
    intro bytes hbytes
    have hp : payload.length ≤ maxFrameSize := hmax payload (mem_cons_self ..)
    by_cases hwhole : (encode payload).length ≤ bytes.length
    · -- the first message is there; the rest is a beginning of the rest
      obtain ⟨rest, rfl⟩ : encode payload <+: bytes :=
        prefix_of_prefix_length_le (prefix_append ..) hbytes hwhole
      have hrest : rest <+: payloads.flatMap encode :=
        (prefix_append_right_inj _).mp hbytes
      obtain ⟨hbegins, hcount⟩ :=
        ih (fun q hq => hmax q (mem_cons_of_mem _ hq)) hrest
      rw [takeFrames_encode_append hp]
      refine ⟨(prefix_cons_inj payload).mpr hbegins, fun k hk => ?_⟩
      cases k with
      | zero => simp
      | succ k =>
        have hk' := hcount k (Nat.le_of_succ_le_succ hk)
        rw [take_succ_cons, flatMap_cons, length_append, length_append, length_cons]
        omega
    · -- the first message is cut off, so no message is complete
      have hnone : takeFrames bytes = ([], bytes) := by
        refine takeFrames_of_not_some fun q rest hdec => hwhole ?_
        obtain ⟨hq, hbytes'⟩ := (decode_ensures bytes).of_ok hdec
        have hlen : q.length = payload.length :=
          length_eq_of_encode_append hp hq (hbytes' ▸ hbytes)
        rw [hbytes', length_append, length_encode, length_encode]
        omega
      rw [hnone]
      refine ⟨ nil_prefix, fun k _ => ?_⟩
      cases k with
      | zero => simp
      | succ k =>
        rw [take_succ_cons, flatMap_cons, length_append]
        simp only [length_nil]
        omega

theorem takeFrames_flatMap_encode : takeFrames (payloads.flatMap encode) = (payloads, []) := by
  induction payloads with
  | nil => rfl
  | cons payload payloads ih =>
    rw [flatMap_cons, takeFrames_encode_append (hmax payload (mem_cons_self ..)),
      ih fun q hq => hmax q (mem_cons_of_mem _ hq)]

/-- Complete messages are taken off whatever follows them. -/
theorem takeFrames_flatMap_encode_append (rest : Bytes) :
    takeFrames (payloads.flatMap encode ++ rest) =
      (payloads ++ (takeFrames rest).1, (takeFrames rest).2) := by
  rw [takeFrames_append, takeFrames_flatMap_encode hmax, nil_append]

omit hmax

/-- However the stream is cut, the read task yields the messages in order and ends
with an empty buffer, and after every read it has yielded exactly the messages that
are wholly in the bytes received so far. -/
theorem read_loop_independent_of_chunking {payloads chunks : List Bytes}
    (hmax : ∀ payload ∈ payloads, payload.length ≤ maxFrameSize)
    (hcut : chunks.flatten = payloads.flatMap encode) (hchunks : ∀ chunk ∈ chunks, chunk ≠ []) :
    readLoop [] chunks = (payloads, []) ∧
      ∀ received, received <+: chunks →
        (readLoop [] received).1 <+: payloads ∧
          ∀ k ≤ payloads.length, k ≤ (readLoop [] received).1.length ↔
            ((payloads.take k).flatMap encode).length ≤ received.flatten.length := by
  constructor
  · rw [readLoop_eq hchunks rfl, hcut]
    exact takeFrames_flatMap_encode hmax
  · intro received hreceived
    have hnonempty : ∀ chunk ∈ received, chunk ≠ [] :=
      fun chunk hc => hchunks chunk (hreceived.subset hc)
    have hbegins : received.flatten <+: payloads.flatMap encode := by
      obtain ⟨rest, rfl⟩ := hreceived
      rw [← hcut, flatten_append]
      exact prefix_append ..
    rw [readLoop_eq hnonempty rfl]
    exact takeFrames_of_beginning hmax hbegins

/-- Two messages, one of them empty, in three reads that cut both length prefixes. -/
theorem read_loop_of_three_reads :
    readLoop [] [[0, 0], [0, 1, 7, 0, 0], [0, 0]] = ([[7], []], []) := by
  have hcut : [[0, 0], [0, 1, 7, 0, 0], [0, 0]].flatten = ([[7], []]).flatMap encode := by
    decide
  exact (read_loop_independent_of_chunking (by decide) hcut (by decide)).1

/-! ## What the buffer holds

The inner loop only shortens the buffer, so its largest contents are those right after
a read.  A refused length prefix ends the inner loop and not the read task: from there
on every read is kept. -/

/-- The size of the array a read fills. -/
def readSize : Nat := 4096

/-- The buffer as each read leaves it, before the inner loop. -/
def buffered (buf : Bytes) : List Bytes → List Bytes
  | [] => []
  | chunk :: chunks =>
      if chunk = [] then []
      else (buf ++ chunk) :: buffered (takeFrames (buf ++ chunk)).2 chunks

/-- One message of the largest size and one read. -/
def bufferBound : Nat := 4 + maxFrameSize + readSize

/-- What `reader.read` may return before the end of the stream. -/
def FillsRead (chunk : Bytes) : Prop := chunk ≠ [] ∧ chunk.length ≤ readSize

instance (chunk : Bytes) : Decidable (FillsRead chunk) := inferInstanceAs (Decidable (_ ∧ _))

/-- A length prefix above the maximum. -/
def Oversized (bytes : Bytes) : Prop := 4 ≤ bytes.length ∧ maxFrameSize < beNat (window bytes 0 4)

theorem Oversized.append {bytes : Bytes} (h : Oversized bytes) (more : Bytes) :
    Oversized (bytes ++ more) := by
  have hwindow : window (bytes ++ more) 0 4 = window bytes 0 4 := by
    rw [window, window, drop_zero, drop_zero, take_append_of_le_length h.1]
  refine ⟨?_, hwindow ▸ h.2⟩
  rw [length_append]
  exact Nat.le_add_right_of_le h.1

theorem Oversized.takeFrames {bytes : Bytes} (h : Oversized bytes) :
    takeFrames bytes = ([], bytes) := by
  apply takeFrames_of_not_some
  intro payload rest hdec
  obtain ⟨hmax, hbytes⟩ := (decode_ensures bytes).of_ok hdec
  have hfield : window bytes 0 4 = beBytes 4 payload.length := by
    rw [hbytes]
    exact window_append_left (length_beBytes ..)
  have hlong := h.2
  rw [hfield, beNat_beBytes] at hlong
  exact absurd (Nat.mod_le payload.length (256 ^ 4)) (by omega)

/-- What the inner loop leaves is less than a message, or begins with a refused
prefix. -/
theorem length_lt_of_takeFrames_rest :
    (takeFrames buf).2.length < 4 + maxFrameSize ∨ Oversized (takeFrames buf).2 := by
  have hrest := takeFrames_rest buf
  generalize (takeFrames buf).2 = rest at hrest
  rcases decode_cases rest with ⟨payload, rest', hdec, -⟩ | ⟨-, hshort⟩ | ⟨e, -, hoversized⟩
  · rw [takeFrames_of_some hdec] at hrest
    cases hrest
  · by_cases hheader : 4 ≤ rest.length
    · by_cases hmax : maxFrameSize < beNat (window rest 0 4)
      · exact .inr ⟨hheader, hmax⟩
      · exact .inl (by omega)
    · exact .inl (by omega)
  · exact .inr hoversized

/-- Before a read the buffer holds what the inner loop left of all the bytes before
it. -/
theorem mem_buffered_iff {chunks : List Bytes} (hchunks : ∀ chunk ∈ chunks, chunk ≠ []) :
    ∀ {buf contents : Bytes}, takeFrames buf = ([], buf) →
      (contents ∈ buffered buf chunks ↔ ∃ before chunk after, chunks = before ++ chunk :: after ∧
        contents = (takeFrames (buf ++ before.flatten)).2 ++ chunk) := by
  induction chunks with
  | nil =>
    simp [buffered]
  | cons chunk chunks ih =>
    intro buf contents hbuf
    rw [buffered, if_neg (hchunks chunk (mem_cons_self ..)), mem_cons,
      ih (fun c hc => hchunks c (mem_cons_of_mem _ hc)) (takeFrames_rest (buf ++ chunk))]
    constructor
    · rintro (rfl | ⟨before, next, after, rfl, hcontents⟩)
      · refine ⟨[], chunk, chunks, rfl, ?_⟩
        rw [flatten_nil, append_nil, hbuf]
      · refine ⟨chunk :: before, next, after, rfl, ?_⟩
        rw [hcontents, flatten_cons, ← append_assoc, takeFrames_append (buf ++ chunk)]
    · rintro ⟨before, next, after, hsplit, hcontents⟩
      cases before with
      | nil =>
        obtain ⟨rfl, rfl⟩ := cons.inj hsplit
        rw [flatten_nil, append_nil, hbuf] at hcontents
        exact .inl hcontents
      | cons first before =>
        obtain ⟨rfl, rfl⟩ := cons.inj hsplit
        refine .inr ⟨before, next, after, rfl, ?_⟩
        rw [hcontents, flatten_cons, ← append_assoc, takeFrames_append (buf ++ chunk)]

/-- The buffer stays within one message and one read exactly if not more than that
follows, from the prefix on, where a length prefix is refused. -/
theorem read_buffer_bounded_iff {chunks : List Bytes}
    (hreads : ∀ chunk ∈ chunks, FillsRead chunk) :
    (∀ contents ∈ buffered [] chunks, contents.length ≤ bufferBound) ↔
      ∀ (payloads : List Bytes) (rest : Bytes),
        (∀ payload ∈ payloads, payload.length ≤ maxFrameSize) →
        chunks.flatten = payloads.flatMap encode ++ rest → Oversized rest →
          rest.length ≤ bufferBound := by
  have hchunks : ∀ chunk ∈ chunks, chunk ≠ [] := fun chunk hc => (hreads chunk hc).1
  constructor
  · intro hbound payloads rest hmax hstream hrest
    -- the contents after the last read end in `rest`
    rcases eq_nil_or_concat chunks with rfl | ⟨before, last, rfl⟩
    · obtain ⟨-, rfl⟩ := append_eq_nil_iff.mp hstream.symm
      exact absurd hrest.1 (by decide)
    · have hlast := hbound _ ((mem_buffered_iff hchunks rfl).mpr ⟨before, last, [], by simp, rfl⟩)
      have hleft : (takeFrames ((takeFrames before.flatten).2 ++ last)).2 = rest := by
        have htaken := takeFrames_append before.flatten last
        rw [concat_eq_append, flatten_concat] at hstream
        rw [hstream, takeFrames_flatMap_encode_append hmax, hrest.takeFrames] at htaken
        exact (Prod.mk.inj htaken).2.symm
      rw [← hleft]
      exact Nat.le_trans (length_takeFrames_le _) hlast
  · intro hstream contents hcontents
    obtain ⟨before, chunk, after, rfl, rfl⟩ := (mem_buffered_iff hchunks rfl).mp hcontents
    have hchunk : chunk.length ≤ readSize := (hreads chunk (by simp)).2
    rw [nil_append, length_append]
    rcases length_lt_of_takeFrames_rest before.flatten with hshort | hoversized
    · unfold bufferBound
      omega
    · -- a prefix was refused before this read, and all that follows is kept
      obtain ⟨hmax, hsplit⟩ := eq_flatMap_of_takeFrames before.flatten
      have hkept := hstream _ ((takeFrames before.flatten).2 ++ (chunk ++ after.flatten)) hmax
        (by rw [← append_assoc, ← hsplit]; simp) (hoversized.append _)
      simp only [length_append] at hkept
      omega

/-- A message of one byte. -/
theorem read_buffer_bounded_of_message :
    (∀ chunk ∈ [[0, 0, 0, 1, 7]], FillsRead chunk) ∧
      ∀ contents ∈ buffered [] [[0, 0, 0, 1, 7]], contents.length ≤ bufferBound := by
  refine ⟨by decide, (read_buffer_bounded_iff (by decide)).mpr ?_⟩
  intro payloads rest _ hstream _
  have hlen : 5 = (payloads.flatMap encode).length + rest.length := by
    rw [← length_append, ← hstream]
    rfl
  have hbound : 5 ≤ bufferBound := by decide
  omega

/-- Behind a refused prefix every read is kept. -/
theorem buffered_replicate {chunk : Bytes} (hchunk : chunk ≠ []) (n : Nat) :
    ∀ {buf : Bytes}, Oversized buf →
      ∃ contents ∈ buffered buf (replicate (n + 1) chunk),
        contents.length = buf.length + (n + 1) * chunk.length := by
  induction n with
  | zero =>
    intro buf _
    exact ⟨buf ++ chunk, by simp [buffered, hchunk], by simp⟩
  | succ n ih =>
    intro buf hbuf
    obtain ⟨contents, hmem, hlen⟩ := ih (hbuf.append chunk)
    refine ⟨contents, ?_, ?_⟩
    · rw [replicate_succ, buffered, if_neg hchunk, (hbuf.append chunk).takeFrames]
      exact mem_cons_of_mem _ hmem
    · rw [hlen, length_append, Nat.succ_mul (n + 1)]
      omega

theorem oversized_replicate {n : Nat} (h : 4 ≤ n) : Oversized (replicate n 255) := by
  refine ⟨by rwa [length_replicate], ?_⟩
  rw [window, drop_zero, take_replicate, Nat.min_eq_left h]
  decide

/-- A remote party that sends ones. -/
def ones (reads : Nat) : List Bytes := List.replicate reads (List.replicate readSize 255)

theorem exists_mem_buffered_ones (n : Nat) :
    ∃ contents ∈ buffered [] (ones (n + 2)), contents.length = (n + 2) * readSize := by
  have hchunk : replicate readSize (255 : UInt8) ≠ [] := by
    decide
  have hones : Oversized (replicate readSize 255) := oversized_replicate (by decide)
  obtain ⟨contents, hmem, hlen⟩ := buffered_replicate hchunk n hones
  refine ⟨contents, ?_, ?_⟩
  · rw [ones, replicate_succ, buffered, nil_append, hones.takeFrames]
    exact mem_cons_of_mem _ hmem
  · rw [hlen, length_replicate, Nat.succ_mul (n + 1)]
    omega

/-- 258 reads of ones are more than one message and one read. -/
theorem ones_exceed_bufferBound :
    (∀ chunk ∈ ones 258, FillsRead chunk) ∧
      ∃ contents ∈ buffered [] (ones 258), bufferBound < contents.length := by
  constructor
  · intro chunk hchunk
    obtain rfl := eq_of_mem_replicate hchunk
    refine ⟨?_, (length_replicate ..).le⟩
    decide
  · obtain ⟨contents, hmem, hlen⟩ := exists_mem_buffered_ones 256
    exact ⟨contents, hmem, hlen ▸ by decide⟩

/-! ## The transport -/

/-- One `deliver` of the transport is one turn of the inner loop. -/
theorem takeFrames_of_deliver {t t' : TcpTransport} {conn : ConnId} {c : Connection}
    (hc : t.conns.get conn = some c) (h : t.deliver conn = some t') :
    ∃ frameBytes c', t'.conns.get conn = some c' ∧
      takeFrames c.buf = (frameBytes :: (takeFrames c'.buf).1, (takeFrames c'.buf).2) := by
  obtain ⟨c', hget, h⟩ := Option.bind_eq_some_iff.mp h
  obtain rfl : c' = c := Option.some.inj (hget.symm.trans hc)
  obtain ⟨_, -, h⟩ := Option.bind_eq_some_iff.mp h
  rcases decode_cases c'.buf with ⟨frameBytes, rest, hdec, -⟩ | ⟨hdec, -⟩ | ⟨e, hdec, -⟩
  · refine ⟨frameBytes, ?_⟩
    rw [takeFrames_of_some hdec]
    rw [hdec] at h
    dsimp only at h
    -- whether the frame decodes or not, its bytes have left the buffer
    split at h
    · cases h
      exact ⟨{ c' with buf := rest }, HashMap.get_insert_self .., rfl⟩
    · cases h
      exact ⟨{ c' with buf := rest }, HashMap.get_insert_self .., rfl⟩
    · cases h
      refine ⟨{ c' with buf := rest, reading := false }, ?_, rfl⟩
      rw [HashMap.get_modify, if_pos rfl, HashMap.get_insert_self]
      rfl
  · rw [hdec] at h
    cases h
  · rw [hdec] at h
    cases h

end ProximityMesh.Transport
