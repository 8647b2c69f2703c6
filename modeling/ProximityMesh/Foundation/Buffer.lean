/-
  Foundation/Buffer.lean --- computations over one mutable byte buffer.

  A computation reads and writes a buffer and ends in one of three ways: it
  returns, it returns an error, or it panics because an index or a slice lies
  outside the buffer.  The buffer it leaves behind is part of the result in
  every case, so a statement can speak about what an error or a panic left
  half done.

  `Ensures` is the weakest precondition of such a computation, with one rule for
  each operation, so a statement about a decoder or a rewrite becomes a
  statement about lengths and bytes.  `AgreeOutside` is the frame condition: a
  write changes its own window only.
-/
import ProximityMesh.Foundation.Bytes

set_option autoImplicit false

namespace ProximityMesh

open List

/-! ## Windows of a byte string -/

/-- The byte at a position inside the byte string. -/
def byteAt (buf : Bytes) (i : Nat) : UInt8 := buf.getD i 0

/-- The `n` bytes from position `lo` on. -/
def window (buf : Bytes) (lo n : Nat) : Bytes := (buf.drop lo).take n

/-- The byte string with `src` written at position `lo`. -/
def patch (buf : Bytes) (lo : Nat) (src : Bytes) : Bytes :=
  buf.take lo ++ src ++ buf.drop (lo + src.length)

variable {buf src a b : Bytes} {lo n i : Nat}

theorem length_window (h : lo + n ≤ buf.length) : (window buf lo n).length = n := by
  rw [window, length_take, length_drop]
  omega

theorem getElem?_window (buf : Bytes) (lo n j : Nat) :
    (window buf lo n)[j]? = if j < n then buf[lo + j]? else none := by
  rw [window, getElem?_take, getElem?_drop]

theorem byteAt_eq_of_window {j : Nat} (h : window buf lo n = src) (hj : j < n) :
    byteAt buf (lo + j) = byteAt src j := by
  rw [byteAt, byteAt, getD_eq_getElem?_getD, getD_eq_getElem?_getD, ← h, getElem?_window, if_pos hj]

section

variable (h : lo + src.length ≤ buf.length)

include h

theorem length_patch : (patch buf lo src).length = buf.length := by
  simp only [patch, length_append, length_take, length_drop]
  omega

theorem window_patch_self : window (patch buf lo src) lo src.length = src := by
  have hlen : (buf.take lo).length = lo := by
    rw [length_take]
    omega
  rw [window, patch, append_assoc, drop_left' hlen, take_left' rfl]

theorem patch_eq_self_iff : patch buf lo src = buf ↔ window buf lo src.length = src := by
  constructor
  · intro heq
    have hself := window_patch_self h
    rwa [heq] at hself
  · intro hwindow
    have hsplit : buf.take lo ++ (window buf lo src.length ++ buf.drop (lo + src.length)) =
        buf := by
      rw [window, ← drop_drop, take_append_drop, take_append_drop]
    rw [hwindow] at hsplit
    rw [patch, append_assoc]
    exact hsplit

theorem getElem?_patch_inside (hlo : lo ≤ i) (hhi : i < lo + src.length) :
    (patch buf lo src)[i]? = src[i - lo]? := by
  have hwindow := congrArg (fun w => w[i - lo]?) (window_patch_self h)
  simpa [getElem?_window, Nat.add_sub_cancel' hlo, Nat.sub_lt_left_of_lt_add hlo hhi] using hwindow

end

/-! ### Fields side by side

An encoding is a concatenation of fields and a decoder reads windows at fixed
offsets.  The first group of lemmas computes a window of a concatenation, the
second puts neighbouring windows together again. -/

section Fields

variable {a b buf : Bytes} {lo n i : Nat}

@[simp] theorem window_append_left (h : a.length = n) : window (a ++ b) 0 n = a := by
  rw [window, drop_zero, take_left' h]

@[simp] theorem window_append_right (h : a.length ≤ lo) :
    window (a ++ b) lo n = window b (lo - a.length) n := by
  rw [window, window, drop_append, drop_eq_nil_of_le h, nil_append]

@[simp] theorem drop_append_right (h : a.length ≤ n) : (a ++ b).drop n = b.drop (n - a.length) := by
  rw [drop_append, drop_eq_nil_of_le h, nil_append]

@[simp] theorem byteAt_append_right (h : a.length ≤ i) :
    byteAt (a ++ b) i = byteAt b (i - a.length) := by
  rw [byteAt, byteAt, getD_eq_getElem?_getD, getD_eq_getElem?_getD, getElem?_append_right h]

@[simp] theorem window_cons_succ (c : UInt8) : window (c :: buf) (lo + 1) n = window buf lo n := rfl

@[simp] theorem byteAt_cons_zero (c : UInt8) : byteAt (c :: buf) 0 = c := rfl

@[simp] theorem byteAt_cons_succ (c : UInt8) : byteAt (c :: buf) (i + 1) = byteAt buf i := rfl

variable {mid : Nat}

@[simp] theorem window_append_drop (h : mid = lo + n) :
    window buf lo n ++ buf.drop mid = buf.drop lo := by
  rw [h, window, ← drop_drop, take_append_drop]

theorem window_drop {k : Nat} : window (buf.drop k) lo n = window buf (k + lo) n := by
  rw [window, window, drop_drop]

theorem take_drop : (buf.drop lo).take n = window buf lo n := rfl

@[simp] theorem byteAt_cons_drop (hi : i < buf.length) (h : mid = i + 1) :
    byteAt buf i :: buf.drop mid = buf.drop i := by
  rw [h, byteAt, getD_eq_getElem?_getD, getElem?_eq_getElem hi, Option.getD_some,
    ← drop_eq_getElem_cons hi]

@[simp] theorem byteAt_cons_tail (h : 0 < buf.length) : byteAt buf 0 :: buf.tail = buf := by
  simpa using byteAt_cons_drop h rfl

theorem window_append_window {m : Nat} (h : mid = lo + n) :
    window buf lo n ++ window buf mid m = window buf lo (n + m) := by
  rw [h, window, window, window, take_add, drop_drop]

theorem byteAt_cons_window (hi : i < buf.length) (h : mid = i + 1) :
    byteAt buf i :: window buf mid n = window buf i (n + 1) := by
  rw [window, window, ← byteAt_cons_drop hi h, take_succ_cons]

theorem flatMap_window (buf : Bytes) (lo n : Nat) (count : Nat) :
    (range count).flatMap (fun i => window buf (lo + i * n) n) =
      window buf lo (count * n) := by
  induction count with
  | zero => simp [window]
  | succ count ih =>
    rw [range_succ, flatMap_append, ih, flatMap_singleton, Nat.succ_mul, window_append_window rfl]

end Fields

/-- The two byte strings have one length and differ in `lo..hi` at most. -/
structure AgreeOutside (lo hi : Nat) (buf buf' : Bytes) : Prop where
  length_eq : buf'.length = buf.length
  getElem?_eq : ∀ i, i < lo ∨ hi ≤ i → buf'[i]? = buf[i]?

namespace AgreeOutside

variable {lo hi : Nat} {buf buf' buf'' : Bytes}

theorem refl (lo hi : Nat) (buf : Bytes) : AgreeOutside lo hi buf buf := ⟨rfl, fun _ _ => rfl⟩

variable (h : AgreeOutside lo hi buf buf')

include h

theorem trans (h' : AgreeOutside lo hi buf' buf'') : AgreeOutside lo hi buf buf'' :=
  ⟨h'.length_eq.trans h.length_eq, fun i hi => (h'.getElem?_eq i hi).trans (h.getElem?_eq i hi)⟩

theorem mono {lo' hi' : Nat} (hlo : lo' ≤ lo) (hhi : hi ≤ hi') : AgreeOutside lo' hi' buf buf' :=
  ⟨h.length_eq, fun i hi => h.getElem?_eq i (by omega)⟩

theorem window_eq {p n : Nat} (hd : p + n ≤ lo ∨ hi ≤ p) : window buf' p n = window buf p n := by
  refine ext_getElem? fun j => ?_
  rw [getElem?_window, getElem?_window]
  split
  · exact h.getElem?_eq _ (by omega)
  · rfl

theorem drop_eq {k : Nat} (hk : hi ≤ k) : buf'.drop k = buf.drop k := by
  refine ext_getElem? fun j => ?_
  rw [getElem?_drop, getElem?_drop]
  exact h.getElem?_eq _ (by omega)

theorem byteAt_eq {i : Nat} (hd : i < lo ∨ hi ≤ i) : byteAt buf' i = byteAt buf i := by
  rw [byteAt, byteAt, getD_eq_getElem?_getD, getD_eq_getElem?_getD, h.getElem?_eq i hd]

end AgreeOutside

theorem agreeOutside_patch (hn : src.length = n) (h : lo + n ≤ buf.length) :
    AgreeOutside lo (lo + n) buf (patch buf lo src) := by
  subst hn
  refine ⟨length_patch h, fun i hi => ?_⟩
  have hlen : (buf.take lo).length = lo := by
    rw [length_take]
    omega
  rw [patch, append_assoc]
  rcases hi with hi | hi
  · rw [getElem?_append_left (by omega), getElem?_take, if_pos hi]
  · rw [getElem?_append_right (by omega), getElem?_append_right (by omega), getElem?_drop]
    congr 1
    omega

theorem agreeOutside_modify (buf : Bytes) (i : Nat) (f : UInt8 → UInt8) :
    AgreeOutside i (i + 1) buf (buf.modify i f) := by
  refine ⟨length_modify .., fun j hj => ?_⟩
  exact getElem?_modify_ne f buf (by omega)

theorem byteAt_modify (f : UInt8 → UInt8) (h : i < buf.length) :
    byteAt (buf.modify i f) i = f (byteAt buf i) := by
  rw [byteAt, byteAt, getD_eq_getElem?_getD, getD_eq_getElem?_getD,
    getElem?_modify_eq, getElem?_eq_getElem h]
  rfl

theorem window_patch_patch {j m : Nat} (hm : a.length = m) (hn : b.length = n) (hi : i + m ≤ j)
    (hj : j + n ≤ buf.length) :
    window (patch (patch buf i a) j b) i m = a ∧ window (patch (patch buf i a) j b) j n = b := by
  subst hm hn
  have hlen : (patch buf i a).length = buf.length := length_patch (by omega)
  constructor
  · rw [(agreeOutside_patch rfl (hlen.symm ▸ hj)).window_eq (.inl hi)]
    exact window_patch_self (by omega)
  · exact window_patch_self (hlen.symm ▸ hj)

theorem window_window {p m : Nat} (h : p + m ≤ n) :
    window (window buf lo n) p m = window buf (lo + p) m := by
  refine ext_getElem? fun j => ?_
  rw [getElem?_window, getElem?_window, getElem?_window]
  split
  · rw [if_pos (by omega), Nat.add_assoc]
  · rfl

theorem patch_patch_self (hlen : a.length = b.length) (h : lo + a.length ≤ buf.length) :
    patch (patch buf lo a) lo b = patch buf lo b := by
  have hbefore : (buf.take lo).length = lo := by
    rw [length_take]
    omega
  have hbehind : (buf.take lo ++ a).length = lo + b.length := by
    rw [length_append, hbefore, hlen]
  simp only [patch]
  rw [drop_left' hbehind, append_assoc (buf.take lo) a, take_left' hbefore, hlen]

theorem patch_patch_append (h : lo + a.length ≤ buf.length) :
    patch (patch buf lo a) (lo + a.length) b = patch buf lo (a ++ b) := by
  have hbefore : (buf.take lo ++ a).length = lo + a.length := by
    rw [length_append, length_take]
    omega
  simp only [patch]
  rw [take_left' hbefore, ← drop_drop, drop_left' hbefore, drop_drop,
    length_append, Nat.add_assoc, append_assoc (buf.take lo)]

/-- A field inside a window is written by writing it into the window. -/
theorem window_patch_inside {p : Nat} (hlo : lo ≤ p) (hp : p + src.length ≤ lo + n)
    (h : lo + n ≤ buf.length) :
    window (patch buf p src) lo n = patch (window buf lo n) (p - lo) src := by
  refine ext_getElem? fun j => ?_
  have hwin : (window buf lo n).length = n := length_window h
  rw [patch, patch]
  simp only [getElem?_append, getElem?_take, getElem?_drop, getElem?_window]
  grind

/-! ## Computations -/

/-- The two ways a computation over a buffer stops early. -/
inductive Fault (ε : Type) where
  /-- An error value returned to the caller. -/
  | error (e : ε)
  /-- An index or slice outside the buffer. -/
  | panic
  deriving DecidableEq, Repr

instance instDecidableEqResult {ε σ α : Type} [DecidableEq ε] [DecidableEq σ] [DecidableEq α] :
    DecidableEq (EStateM.Result ε σ α)
  | .ok a s, .ok a' s' =>
    decidable_of_iff (a = a' ∧ s = s') (by rw [EStateM.Result.ok.injEq])
  | .error e s, .error e' s' =>
    decidable_of_iff (e = e' ∧ s = s') (by rw [EStateM.Result.error.injEq])
  | .ok _ _, .error _ _ => isFalse (by intro h; cases h)
  | .error _ _, .ok _ _ => isFalse (by intro h; cases h)

/-- A computation over a byte buffer. -/
abbrev BufM (ε α : Type) : Type := EStateM (Fault ε) Bytes α

namespace BufM

variable {ε α β : Type}

/-- Return an error. -/
def fail (e : ε) : BufM ε α := fun buf => .error (.error e) buf

/-- `result?` for a result that does not touch the buffer. -/
def liftExcept : Except ε α → BufM ε α
  | .ok a => pure a
  | .error e => fail e

/-- `buf.len()`. -/
def len : BufM ε Nat := fun buf => .ok buf.length buf

/-- `buf[i]`. -/
def index (i : Nat) : BufM ε UInt8 := fun buf =>
  if i < buf.length then .ok (byteAt buf i) buf else .error .panic buf

/-- `&buf[lo..hi]`. -/
def slice (lo hi : Nat) : BufM ε Bytes := fun buf =>
  if lo ≤ hi ∧ hi ≤ buf.length then .ok (window buf lo (hi - lo)) buf
  else .error .panic buf

/-- `&buf[lo..lo + n]` copied into an array of `n` bytes. -/
def octets (lo n : Nat) : BufM ε (Octets n) := fun buf =>
  if h : lo + n ≤ buf.length then .ok ⟨window buf lo n, length_window h⟩ buf
  else .error .panic buf

/-- `buf[lo..lo + src.len()].copy_from_slice(src)`. -/
def copyFromSlice (lo : Nat) (src : Bytes) : BufM ε Unit := fun buf =>
  if lo + src.length ≤ buf.length then .ok () (patch buf lo src) else .error .panic buf

variable {buf buf' : Bytes} {m : BufM ε α} {Q : α → Bytes → Prop} {E : Fault ε → Bytes → Prop}
  {a : α}

theorem copyFromSlice_eq {lo : Nat} {src : Bytes} (h : lo + src.length ≤ buf.length) :
    (copyFromSlice lo src : BufM ε Unit) buf = .ok () (patch buf lo src) := by
  rw [copyFromSlice, if_pos h]

/-- The big-endian integer in `buf[lo..lo + n]`. -/
def getBe (lo n : Nat) : BufM ε Nat := do
  let bytes ← slice lo (lo + n)
  return beNat bytes

/-- `buf.advance(n)`. -/
def advance (n : Nat) : BufM ε Unit := fun buf =>
  if n ≤ buf.length then .ok () (buf.drop n) else .error .panic buf

/-- `buf.split_to(n)`. -/
def splitTo (n : Nat) : BufM ε Bytes := fun buf =>
  if n ≤ buf.length then .ok (buf.take n) (buf.drop n) else .error .panic buf

/-- The computation does not panic on this buffer. -/
def NoPanic (m : BufM ε α) (buf : Bytes) : Prop := ∀ buf', m buf ≠ .error .panic buf'

/-! ## Weakest preconditions -/

/-- The computation ends in a result with `Q` or in a fault with `E`. -/
def Ensures (m : BufM ε α) (buf : Bytes) (Q : α → Bytes → Prop) (E : Fault ε → Bytes → Prop) :
    Prop :=
  match m buf with
  | .ok a buf' => Q a buf'
  | .error f buf' => E f buf'

section Rules

variable (buf : Bytes) (Q : α → Bytes → Prop) (E : Fault ε → Bytes → Prop)

@[simp ↓] theorem ensures_pure (a : α) : Ensures (pure a) buf Q E ↔ Q a buf := Iff.rfl

@[simp ↓] theorem ensures_bind (m : BufM ε β) (f : β → BufM ε α) :
    Ensures (m >>= f) buf Q E ↔ Ensures m buf (fun b buf' => Ensures (f b) buf' Q E) E := by
  have hbind : (m >>= f) buf = match m buf with
      | .ok b buf' => f b buf'
      | .error e buf' => .error e buf' := by
    show EStateM.bind m f buf = _
    unfold EStateM.bind
    cases m buf <;> rfl
  unfold Ensures
  rw [hbind]
  cases m buf <;> rfl

@[simp ↓] theorem ensures_map (m : BufM ε β) (f : β → α) :
    Ensures (f <$> m) buf Q E ↔ Ensures m buf (fun b buf' => Q (f b) buf') E := by
  rw [← bind_pure_comp, ensures_bind]
  rfl

@[simp ↓] theorem ensures_fail (e : ε) : Ensures (fail e) buf Q E ↔ E (.error e) buf := Iff.rfl

@[simp ↓] theorem ensures_set (src : Bytes) (Q : Unit → Bytes → Prop) :
    Ensures (set src) buf Q E ↔ Q () src := Iff.rfl

@[simp ↓] theorem ensures_liftExcept (r : Except ε α) :
    Ensures (liftExcept r) buf Q E ↔
      (∀ a, r = .ok a → Q a buf) ∧ ∀ e, r = .error e → E (.error e) buf := by
  cases r <;> simp [liftExcept]

@[simp ↓] theorem ensures_ite (c : Prop) [Decidable c] (m m' : BufM ε α) :
    Ensures (if c then m else m') buf Q E ↔
      (c → Ensures m buf Q E) ∧ (¬ c → Ensures m' buf Q E) := by
  by_cases h : c <;> simp [h]

end Rules

section Operations

variable (buf : Bytes) (E : Fault ε → Bytes → Prop)

@[simp ↓] theorem ensures_len (Q : Nat → Bytes → Prop) :
    Ensures (len : BufM ε Nat) buf Q E ↔ Q buf.length buf := Iff.rfl

@[simp ↓] theorem ensures_index (i : Nat) (Q : UInt8 → Bytes → Prop) :
    Ensures (index i) buf Q E ↔
      (i < buf.length → Q (byteAt buf i) buf) ∧ (buf.length ≤ i → E .panic buf) := by
  unfold Ensures index
  by_cases h : i < buf.length
  · simp [h]
  · simp [h, Nat.not_lt.mp h]

@[simp ↓] theorem ensures_slice (lo hi : Nat) (Q : Bytes → Bytes → Prop) :
    Ensures (slice lo hi) buf Q E ↔
      (lo ≤ hi → hi ≤ buf.length → Q (window buf lo (hi - lo)) buf) ∧
        (hi < lo ∨ buf.length < hi → E .panic buf) := by
  unfold Ensures slice
  by_cases h : lo ≤ hi ∧ hi ≤ buf.length
  · have hnot : ¬ (hi < lo ∨ buf.length < hi) := by omega
    simp [h]
  · have hor : hi < lo ∨ buf.length < hi := by omega
    have himp : lo ≤ hi → ¬ hi ≤ buf.length := fun h₁ h₂ => h ⟨h₁, h₂⟩
    simp only [h, hor, true_imp_iff]
    exact ⟨fun hE => ⟨fun h₁ h₂ => absurd h₂ (himp h₁), hE⟩, fun hE => hE.2⟩

@[simp ↓] theorem ensures_octets (lo n : Nat) (Q : Octets n → Bytes → Prop) :
    Ensures (octets lo n) buf Q E ↔
      (∀ h : lo + n ≤ buf.length, Q ⟨window buf lo n, length_window h⟩ buf) ∧
        (buf.length < lo + n → E .panic buf) := by
  unfold Ensures octets
  by_cases h : lo + n ≤ buf.length
  · simp [h]
  · simp [h, Nat.not_le.mp h]

@[simp ↓] theorem ensures_copyFromSlice (lo : Nat) (src : Bytes) (Q : Unit → Bytes → Prop) :
    Ensures (copyFromSlice lo src) buf Q E ↔
      (lo + src.length ≤ buf.length → Q () (patch buf lo src)) ∧
        (buf.length < lo + src.length → E .panic buf) := by
  unfold Ensures copyFromSlice
  by_cases h : lo + src.length ≤ buf.length
  · simp [h]
  · simp [h, Nat.not_le.mp h]

@[simp ↓] theorem ensures_getBe (lo n : Nat) (Q : Nat → Bytes → Prop) :
    Ensures (getBe lo n) buf Q E ↔
      (lo + n ≤ buf.length → Q (beNat (window buf lo n)) buf) ∧
        (buf.length < lo + n → E .panic buf) := by
  unfold getBe
  simp

@[simp ↓] theorem ensures_advance (n : Nat) (Q : Unit → Bytes → Prop) :
    Ensures (advance n) buf Q E ↔
      (n ≤ buf.length → Q () (buf.drop n)) ∧ (buf.length < n → E .panic buf) := by
  unfold Ensures advance
  by_cases h : n ≤ buf.length
  · simp [h]
  · simp [h, Nat.not_le.mp h]

@[simp ↓] theorem ensures_splitTo (n : Nat) (Q : Bytes → Bytes → Prop) :
    Ensures (splitTo n) buf Q E ↔
      (n ≤ buf.length → Q (buf.take n) (buf.drop n)) ∧ (buf.length < n → E .panic buf) := by
  unfold Ensures splitTo
  by_cases h : n ≤ buf.length
  · simp [h]
  · simp [h, Nat.not_le.mp h]

end Operations

theorem Ensures.mono {Q' : α → Bytes → Prop} {E' : Fault ε → Bytes → Prop} (h : Ensures m buf Q E)
    (hQ : ∀ a buf', Q a buf' → Q' a buf') (hE : ∀ f buf', E f buf' → E' f buf') :
    Ensures m buf Q' E' := by
  unfold Ensures at h ⊢
  cases hm : m buf with
  | ok a buf' =>
    rw [hm] at h
    exact hQ a buf' h
  | error f buf' =>
    rw [hm] at h
    exact hE f buf' h

theorem Ensures.of_ok (h : Ensures m buf Q E) (hm : m buf = .ok a buf') : Q a buf' := by
  unfold Ensures at h
  rw [hm] at h
  exact h

theorem ensures_iff_of_ok (hm : m buf = .ok a buf') : Ensures m buf Q E ↔ Q a buf' := by
  rw [Ensures, hm]

theorem eq_ok_iff_ensures :
    m buf = .ok a buf' ↔
      Ensures m buf (fun x buf'' => x = a ∧ buf'' = buf') (fun _ _ => False) := by
  unfold Ensures
  cases m buf with
  | ok x buf'' | error f buf'' => simp

theorem eq_error_iff_ensures {f : Fault ε} :
    m buf = .error f buf' ↔
      Ensures m buf (fun _ _ => False) (fun f' buf'' => f' = f ∧ buf'' = buf') := by
  unfold Ensures
  cases m buf with
  | ok x buf'' | error f' buf'' => simp

theorem run'_eq_iff (r : Option α) :
    m.run' buf = r ↔ Ensures m buf (fun a _ => some a = r) fun _ _ => none = r := by
  unfold EStateM.run' EStateM.run Ensures
  cases m buf with
  | ok x buf'' | error f' buf'' => rfl

theorem bind_of_ok {m : BufM ε β} {f : β → BufM ε α} {b : β} (h : m buf = .ok b buf') :
    (m >>= f) buf = f b buf' := by
  show EStateM.bind m f buf = _
  rw [EStateM.bind, h]

theorem Ensures.exists_ok (h : Ensures m buf Q E) (hE : ∀ f buf', ¬ E f buf') :
    ∃ a buf', m buf = .ok a buf' ∧ Q a buf' := by
  unfold Ensures at h
  cases hm : m buf with
  | ok a buf' =>
    rw [hm] at h
    exact ⟨a, buf', rfl, h⟩
  | error f buf' =>
    rw [hm] at h
    exact absurd h (hE f buf')

/-- Reading a list of records: every read leaves the buffer and has `P`. -/
theorem mapM_reads {ι : Type} {f : ι → BufM ε α} {P : ι → α → Prop} {l : List ι}
    (h : ∀ i ∈ l, ∃ a, f i buf = .ok a buf ∧ P i a) :
    ∃ as, l.mapM f buf = .ok as buf ∧ List.Forall₂ P l as := by
  induction l with
  | nil => exact ⟨[], rfl, .nil⟩
  | cons i l ih =>
    obtain ⟨a, hread, ha⟩ := h i (mem_cons_self ..)
    obtain ⟨as, hreads, has⟩ := ih fun j hj => h j (mem_cons_of_mem _ hj)
    refine ⟨a :: as, ?_, .cons ha has⟩
    rw [mapM_cons, bind_of_ok hread, bind_of_ok hreads]
    rfl

theorem noPanic_iff_ensures (m : BufM ε α) (buf : Bytes) :
    NoPanic m buf ↔ Ensures m buf (fun _ _ => True) (fun f _ => f ≠ .panic) := by
  unfold NoPanic Ensures
  cases m buf with
  | ok a buf' => simp
  | error f buf' => cases f <;> simp

end BufM

end ProximityMesh
