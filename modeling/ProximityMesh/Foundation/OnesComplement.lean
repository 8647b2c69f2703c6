/-
  Foundation/OnesComplement.lean --- sums of 16-bit words with end-around carry.

  A byte string is summed as big-endian words, an odd last byte padded with zero,
  and the sum is folded into 16 bits by adding the carry back.  Folding has two
  zeros: a sum folds to 0 only if it is 0, and every other multiple of 65535 folds
  to 0xFFFF.  A string is valid if it folds to 0xFFFF, that is if its sum is a
  positive multiple of 65535 (`valid_iff`); so validity is kept by every change of
  words that changes the sum by a multiple of 65535.
-/
import ProximityMesh.Foundation.Buffer

set_option autoImplicit false

namespace ProximityMesh.OnesComplement

open List

/-! ## Sums of words -/

/-- The sum of the big-endian words of a byte string; an odd last byte is the high
byte of a word. -/
def wordSum : Bytes → Nat
  | a :: b :: rest => a.toNat * 256 + b.toNat + wordSum rest
  | [a] => a.toNat * 256
  | [] => 0

theorem wordSum_append {xs : Bytes} (ys : Bytes) (h : Even xs.length) :
    wordSum (xs ++ ys) = wordSum xs + wordSum ys := by
  fun_induction wordSum xs with
  | case1 a b rest ih =>
    have hrest : Even rest.length := by
      simpa only [length_cons, Nat.even_add_one, not_not] using h
    rw [cons_append, cons_append, wordSum, ih hrest]
    omega
  | case2 a => exact absurd h (by simp)
  | case3 => rw [nil_append, Nat.zero_add]

theorem wordSum_le (xs : Bytes) : wordSum xs ≤ 65535 * ((xs.length + 1) / 2) := by
  fun_induction wordSum xs with
  | case1 a b rest ih =>
    have ha := a.toNat_lt
    have hb := b.toNat_lt
    simp only [length_cons]
    omega
  | case2 a =>
    have ha := a.toNat_lt
    simp only [length_singleton]
    omega
  | case3 => simp

theorem wordSum_beBytes {v : Nat} (h : v < 65536) : wordSum (beBytes 2 v) = v := by
  have hhigh : (UInt8.ofNat (v / 256 ^ 1)).toNat = v / 256 := by
    rw [UInt8.toNat_ofNat']
    omega
  have hlow : (UInt8.ofNat (v / 256 ^ 0)).toNat = v % 256 := by
    rw [UInt8.toNat_ofNat', pow_zero, Nat.div_one]
  rw [beBytes, beBytes, beBytes, wordSum, wordSum]
  omega

/-- Writing whole words over whole words exchanges their sums. -/
theorem wordSum_patch {buf src : Bytes} {lo : Nat} (hlo : Even lo) (hsrc : Even src.length)
    (h : lo + src.length ≤ buf.length) :
    wordSum (patch buf lo src) + wordSum (window buf lo src.length) =
      wordSum buf + wordSum src := by
  have hbefore : Even (buf.take lo).length := by
    rw [length_take, Nat.min_eq_left (by omega)]
    exact hlo
  have hfield : Even (window buf lo src.length).length := by
    rw [length_window h]
    exact hsrc
  have hsplit : buf = buf.take lo ++ (window buf lo src.length ++ buf.drop (lo + src.length)) := by
    rw [window, ← drop_drop, take_append_drop, take_append_drop]
  have hbuf : wordSum buf = wordSum (buf.take lo) +
      (wordSum (window buf lo src.length) + wordSum (buf.drop (lo + src.length))) := by
    conv_lhs => rw [hsplit]
    rw [wordSum_append _ hbefore, wordSum_append _ hfield]
  rw [patch, append_assoc, wordSum_append _ hbefore, wordSum_append _ hsrc]
  omega

theorem wordSum_window_patch {buf src : Bytes} {lo n p : Nat} (hlo : lo ≤ p) (heven : Even (p - lo))
    (hsrc : Even src.length) (hp : p + src.length ≤ lo + n) (hn : lo + n ≤ buf.length) :
    wordSum (window (patch buf p src) lo n) + wordSum (window buf p src.length) =
      wordSum (window buf lo n) + wordSum src := by
  have hfield : window (window buf lo n) (p - lo) src.length = window buf p src.length := by
    rw [window_window (by omega), Nat.add_sub_cancel' hlo]
  rw [window_patch_inside hlo hp hn, ← hfield]
  refine wordSum_patch heven hsrc ?_
  rw [length_window hn]
  omega

/-! ## Folding -/

/-- Add what is above 16 bits back in until nothing is left there. -/
def fold (n : Nat) : Nat :=
  if n < 65536 then n else fold (n % 65536 + n / 65536)

/-- Folding is reduction modulo 65535, except that only 0 goes to 0. -/
theorem fold_eq (n : Nat) : fold n = if n = 0 then 0 else (n - 1) % 65535 + 1 := by
  fun_induction fold n with
  | case1 n h =>
    split
    · assumption
    · omega
  | case2 n h ih =>
    rw [ih, if_neg (by omega), if_neg (by omega)]
    omega

theorem fold_lt (n : Nat) : fold n < 65536 := by
  rw [fold_eq]
  split <;> omega

theorem fold_mod (n : Nat) : fold n % 65535 = n % 65535 := by
  rw [fold_eq]
  split <;> omega

/-! ## Validity -/

/-- The words of the string, its checksum among them, fold to all ones. -/
def Valid (data : Bytes) : Prop := fold (wordSum data) = 0xFFFF

theorem valid_iff (data : Bytes) : Valid data ↔ 0 < wordSum data ∧ wordSum data % 65535 = 0 := by
  unfold Valid
  rw [fold_eq]
  split <;> omega

instance (data : Bytes) : Decidable (Valid data) := decidable_of_iff _ (valid_iff data).symm

/-- The complement of the folded sum completes a sum to a valid one. -/
theorem complement_completes (n : Nat) :
    0 < n + (65535 - fold n) ∧ (n + (65535 - fold n)) % 65535 = 0 := by
  rw [fold_eq]
  split <;> omega

end ProximityMesh.OnesComplement
