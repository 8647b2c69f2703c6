/-
  Foundation/Bytes.lean --- byte strings, fixed-length octet arrays and the
  big-endian integer codec.

  `Bytes` is the type of `&[u8]`, `Vec<u8>` and `BytesMut`; `Octets n` is the
  type of `[u8; n]`, so an array of the wrong length cannot be built.
  `beBytes` is `to_be_bytes` and `beNat` is `from_be_bytes`; both are stated
  over `Nat` once and instantiated at the widths the wire formats use.
-/
import Mathlib.Data.Vector.Basic
import Mathlib.Tactic.Ring

set_option autoImplicit false

namespace ProximityMesh

/-- A byte string of any length. -/
abbrev Bytes : Type := List UInt8

/-- A byte array of length exactly `n`. -/
abbrev Octets (n : Nat) : Type := List.Vector UInt8 n

namespace Octets

/-- The array of `n` zero bytes. -/
def zero (n : Nat) : Octets n := ⟨List.replicate n 0, List.length_replicate⟩

/-- Concatenation of two arrays. -/
def append {m n : Nat} (a : Octets m) (b : Octets n) : Octets (m + n) :=
  ⟨a.toList ++ b.toList, by simp⟩

theorem ext {n : Nat} {a b : Octets n} (h : a.toList = b.toList) : a = b :=
  Subtype.ext h

theorem append_inj {m n : Nat} {a a' : Octets m} {b b' : Octets n}
    (h : append a b = append a' b') : a = a' ∧ b = b' := by
  have hl : a.toList ++ b.toList = a'.toList ++ b'.toList := congrArg List.Vector.toList h
  obtain ⟨h₁, h₂⟩ := List.append_inj hl (by simp)
  exact ⟨ext h₁, ext h₂⟩

end Octets

/-! ## Big-endian integers -/

/-- The `n` big-endian bytes of `v`; what does not fit in `n` bytes is cut off,
as a truncating cast does. -/
def beBytes : Nat → Nat → Bytes
  | 0, _ => []
  | n + 1, v => UInt8.ofNat (v / 256 ^ n) :: beBytes n v

/-- The value of a big-endian byte string. -/
def beNat : Bytes → Nat
  | [] => 0
  | b :: bs => b.toNat * 256 ^ bs.length + beNat bs

@[simp] theorem length_beBytes (n v : Nat) : (beBytes n v).length = n := by
  induction n with
  | zero => rfl
  | succ n ih => simp [beBytes, ih]

theorem beNat_lt (bs : Bytes) : beNat bs < 256 ^ bs.length := by
  induction bs with
  | nil => simp [beNat]
  | cons b bs ih =>
    rw [beNat, List.length_cons]
    have hbyte : b.toNat * 256 ^ bs.length ≤ 255 * 256 ^ bs.length :=
      Nat.mul_le_mul_right _ (Nat.le_of_lt_succ b.toNat_lt)
    omega

theorem beNat_beBytes (n v : Nat) : beNat (beBytes n v) = v % 256 ^ n := by
  induction n with
  | zero => simp [beBytes, beNat, Nat.mod_one]
  | succ n ih =>
    have hbyte : (UInt8.ofNat (v / 256 ^ n)).toNat = v / 256 ^ n % 256 := by simp
    rw [beBytes, beNat, length_beBytes, ih, hbyte]
    have hmod : v % 256 ^ (n + 1) = v % 256 ^ n + 256 ^ n * (v / 256 ^ n % 256) := by
      rw [pow_succ, Nat.mod_mul]
    rw [hmod]
    ring

theorem beBytes_inj {n v w : Nat} (hv : v < 256 ^ n) (hw : w < 256 ^ n)
    (h : beBytes n v = beBytes n w) : v = w := by
  have h' := congrArg beNat h
  rw [beNat_beBytes, beNat_beBytes, Nat.mod_eq_of_lt hv, Nat.mod_eq_of_lt hw] at h'
  exact h'

theorem beNat_inj {bs bs' : Bytes} (hlen : bs.length = bs'.length) (h : beNat bs = beNat bs') :
    bs = bs' := by
  induction bs generalizing bs' with
  | nil => exact (List.length_eq_zero_iff.mp hlen.symm).symm
  | cons b bs ih =>
    cases bs' with
    | nil => cases hlen
    | cons b' bs' =>
      have hlen' : bs.length = bs'.length := Nat.succ.inj hlen
      rw [beNat, beNat, hlen'] at h
      have hlow : beNat bs < 256 ^ bs'.length := hlen' ▸ beNat_lt bs
      have hlow' : beNat bs' < 256 ^ bs'.length := beNat_lt bs'
      -- the first byte is the quotient, the rest the remainder
      have hpos : 0 < 256 ^ bs'.length := Nat.lt_of_le_of_lt (Nat.zero_le _) hlow
      have hhead : b.toNat = b'.toNat := by
        have hdiv := congrArg (· / 256 ^ bs'.length) h
        simpa [Nat.mul_add_div hpos, Nat.mul_comm _ (256 ^ bs'.length),
          Nat.div_eq_of_lt hlow, Nat.div_eq_of_lt hlow'] using hdiv
      have htail : beNat bs = beNat bs' := by
        rw [hhead] at h
        exact Nat.add_left_cancel h
      rw [UInt8.toNat_inj.mp hhead, ih hlen' htail]

theorem beBytes_beNat {n : Nat} {bs : Bytes} (h : bs.length = n) : beBytes n (beNat bs) = bs := by
  subst h
  refine beNat_inj (length_beBytes _ _) ?_
  rw [beNat_beBytes, Nat.mod_eq_of_lt (beNat_lt bs)]

theorem beBytes_beNat_mod {n m : Nat} {bs : Bytes} (hm : m = 256 ^ n) (h : bs.length = n) :
    beBytes n (beNat bs % m) = bs := by
  have hlt : beNat bs < m := by
    rw [hm, ← h]
    exact beNat_lt bs
  rw [Nat.mod_eq_of_lt hlt, beBytes_beNat h]

/-- `u32::to_be_bytes`. -/
def u32ToBeBytes (v : UInt32) : Octets 4 := ⟨beBytes 4 v.toNat, length_beBytes 4 v.toNat⟩

theorem u32ToBeBytes_injective : Function.Injective u32ToBeBytes := by
  intro v w h
  have hl : beBytes 4 v.toNat = beBytes 4 w.toNat := congrArg List.Vector.toList h
  exact UInt32.toNat_inj.mp (beBytes_inj v.toNat_lt w.toNat_lt hl)

end ProximityMesh
