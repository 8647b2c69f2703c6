/-
  Core/NodeIdText.lean --- node ids as text.

  Source: `to_hex` and `from_str` of crates/pim-core/src/types.rs, `parse_node_id_hex` of
  crates/pim-daemon/src/rpc.rs, `parse_node_id` of crates/pim-messaging/src/service.rs and
  `hex_to_node_id` of crates/pim-bluetooth/src/rfcomm/session.rs.

  A string is its UTF-8 bytes.  Two of the parsers cut it into chunks of bytes and two
  slice it, which panics inside a character.  All four read a pair with `from_str_radix`,
  which takes a plus sign for an empty first digit.
-/
import ProximityMesh.Foundation.Buffer

set_option autoImplicit false

namespace ProximityMesh.NodeIdText

/-- `char::to_digit(16)`. -/
def digit (b : UInt8) : Option UInt8 :=
  if 0x30 ≤ b ∧ b ≤ 0x39 then some (b - 0x30)
  else if 0x61 ≤ b ∧ b ≤ 0x66 then some (b - 0x57)
  else if 0x41 ≤ b ∧ b ≤ 0x46 then some (b - 0x37)
  else none

/-- `u8::from_str_radix(_, 16)` of two bytes. -/
def fromStrRadix (hi lo : UInt8) : Option UInt8 :=
  if hi = 0x2B then digit lo
  else do
    let high ← digit hi
    let low ← digit lo
    return 16 * high + low

/-- The byte goes on with a character, so no slice may end before it. -/
def Continues (b : UInt8) : Prop := 0x80 ≤ b ∧ b < 0xC0

instance (b : UInt8) : Decidable (Continues b) := inferInstanceAs (Decidable (_ ∧ _))

/-- The loop over the pairs: `none` is a panic and `some none` an error.  A slice starts where
the one before it has ended; a chunk that is not UTF-8 is no number either. -/
def parsePairs (sliced : Bool) : Bytes → Option (Option Bytes)
  | hi :: lo :: rest =>
      if sliced = true ∧ ∃ b ∈ rest.head?, Continues b then none
      else
        match fromStrRadix hi lo with
        | none => some none
        | some b => (parsePairs sliced rest).map fun bytes => bytes.map (b :: ·)
  | _ => some (some [])

def parseHex (sliced : Bool) (s : Bytes) : Option (Option Bytes) :=
  if s.length ≠ 32 then some none else parsePairs sliced s

def fromStr : Bytes → Option (Option Bytes) := parseHex false

def parseNodeIdHex : Bytes → Option (Option Bytes) := parseHex true

def parseNodeId : Bytes → Option (Option Bytes) := parseHex true

def hexToNodeId : Bytes → Option (Option Bytes) := parseHex false

def hexByte (d : UInt8) : UInt8 := if d < 10 then 0x30 + d else 0x57 + d

def toHex (bytes : Bytes) : Bytes := bytes.flatMap fun b => [hexByte (b / 16), hexByte (b % 16)]

/-- `to_ascii_lowercase`. -/
def lower (b : UInt8) : UInt8 := if 0x41 ≤ b ∧ b ≤ 0x5A then b + 0x20 else b

/-- 32 hexadecimal digits. -/
def Digits (s : Bytes) : Prop := s.length = 32 ∧ ∀ b ∈ s, (digit b).isSome

/-- All four parsers return the same, without a panic: the id that prints as the string, if
the string is 32 digits, and an error if not. -/
def Uniform (s : Bytes) : Prop :=
  ∃ result : Option Bytes,
    (∀ parse ∈ [fromStr, parseNodeIdHex, parseNodeId, hexToNodeId], parse s = some result) ∧
      (result.isSome ↔ Digits s) ∧ ∀ bytes, result = some bytes → toHex bytes = s.map lower

/-- The first pair that is no number, sign included, ends between two characters, and so do
the pairs before it. -/
def Stops : Bytes → Prop
  | hi :: lo :: rest => (∀ b ∈ rest.head?, ¬ Continues b) ∧
      (fromStrRadix hi lo = none ∨ (fromStrRadix hi lo).isSome ∧ Stops rest)
  | _ => False

theorem digit_spec {b d : UInt8} (h : digit b = some d) :
    d < 16 ∧ hexByte d = lower b ∧ ¬ Continues b ∧ b ≠ 0x2B := by
  grind [digit, hexByte, lower, Continues]

/-- Digits are read by every parser, and printed back. -/
theorem parsePairs_of_digits : ∀ {s : Bytes}, Even s.length → (∀ b ∈ s, (digit b).isSome) →
    ∃ bytes, (∀ sliced, parsePairs sliced s = some (some bytes)) ∧ toHex bytes = s.map lower
  | [], _, _ => ⟨[], fun _ => rfl, rfl⟩
  | [_], heven, _ => absurd heven Nat.not_even_one
  | hi :: lo :: rest, heven, hdigits => by
    obtain ⟨hhi, hlo, hrest⟩ := by simpa only [List.forall_mem_cons] using hdigits
    have heven : Even rest.length := by simpa [Nat.even_add_one] using heven
    obtain ⟨bytes, hparse, hprint⟩ := parsePairs_of_digits heven hrest
    obtain ⟨high, hhigh⟩ := Option.isSome_iff_exists.mp hhi
    obtain ⟨low, hlow⟩ := Option.isSome_iff_exists.mp hlo
    obtain ⟨hhigh16, hhighByte, -, hplus⟩ := digit_spec hhigh
    obtain ⟨hlow16, hlowByte, -⟩ := digit_spec hlow
    have hradix : fromStrRadix hi lo = some (16 * high + low) := by
      rw [fromStrRadix, if_neg hplus, hhigh, hlow]
      rfl
    have hbetween : ¬ ∃ b ∈ rest.head?, Continues b := by
      rintro ⟨b, hb, hcontinues⟩
      obtain ⟨d, hd⟩ := Option.isSome_iff_exists.mp (hrest b (List.mem_of_mem_head? hb))
      exact (digit_spec hd).2.2.1 hcontinues
    refine ⟨(16 * high + low) :: bytes, fun sliced => ?_, ?_⟩
    · rw [parsePairs, if_neg fun h => hbetween h.2, hradix, hparse]
      rfl
    · have hnibbles : (16 * high + low) / 16 = high ∧ (16 * high + low) % 16 = low := by grind
      rw [toHex, List.flatMap_cons, ← toHex, hprint, hnibbles.1, hnibbles.2, hhighByte, hlowByte]
      rfl

/-- Where the slices give a result, the chunks give the same. -/
theorem parsePairs_chunks : ∀ {s : Bytes} {result : Option Bytes},
    parsePairs true s = some result → parsePairs false s = some result
  | [], _, h | [_], _, h => h
  | hi :: lo :: rest, result, h => by
    rw [parsePairs] at h ⊢
    split at h
    · cases h
    · rw [if_neg (by simp)]
      cases hradix : fromStrRadix hi lo with
      | none =>
        rw [hradix] at h
        exact h
      | some b =>
        rw [hradix] at h
        obtain ⟨bytes, hbytes, rfl⟩ := Option.map_eq_some_iff.mp h
        exact Option.map_eq_some_iff.mpr ⟨bytes, parsePairs_chunks hbytes, rfl⟩

theorem refused_iff : ∀ s : Bytes, parsePairs true s = some none ↔ Stops s
  | [] | [_] => by simp [parsePairs, Stops]
  | hi :: lo :: rest => by
    rw [Stops, parsePairs, ← refused_iff rest]
    split
    · rename_i hinside
      obtain ⟨b, hb, hcontinues⟩ := hinside.2
      exact iff_of_false nofun fun h => h.1 b hb hcontinues
    · rename_i hbetween
      rw [and_iff_right fun b hb hcontinues => hbetween ⟨rfl, b, hb, hcontinues⟩]
      cases fromStrRadix hi lo with
      | none | some b => simp

/-- For every string: the parsers are uniform exactly if it has another length, or is 32 digits,
or stops being numbers between two characters. -/
theorem uniform_iff (s : Bytes) : Uniform s ↔ s.length ≠ 32 ∨ Digits s ∨ Stops s := by
  by_cases hlen : s.length = 32
  · have hparsers {result : Option Bytes} :
        (∀ parse ∈ [fromStr, parseNodeIdHex, parseNodeId, hexToNodeId], parse s = some result) ↔
          ∀ sliced, parsePairs sliced s = some result := by
      simp +contextual [fromStr, parseNodeIdHex, parseNodeId, hexToNodeId, parseHex, hlen]
    simp only [Uniform, hparsers, ← refused_iff]
    by_cases hdigits : Digits s
    · obtain ⟨bytes, hparse, hprint⟩ := parsePairs_of_digits (hlen ▸ by decide) hdigits.2
      refine iff_of_true ⟨some bytes, hparse, iff_of_true rfl hdigits, ?_⟩ (.inr (.inl hdigits))
      rintro _ ⟨⟩
      exact hprint
    · constructor
      · rintro ⟨result, hparse, haccept, -⟩
        obtain rfl := Option.not_isSome_iff_eq_none.mp (mt haccept.mp hdigits)
        exact .inr (.inr (hparse true))
      · rintro (hother | h | hrefused)
        · exact absurd hlen hother
        · exact absurd h hdigits
        · exact ⟨none, Bool.forall_bool.mpr ⟨parsePairs_chunks hrefused, hrefused⟩,
            iff_of_false nofun hdigits, nofun⟩
  · refine iff_of_true ⟨none, ?_, iff_of_false nofun fun h => hlen h.1, nofun⟩ (.inl hlen)
    simp [fromStr, parseNodeIdHex, parseNodeId, hexToNodeId, parseHex, hlen]

/-- A plus sign is read as a digit, and a character across a pair makes the slices panic. -/
theorem sign_accepted_and_slice_panics :
    fromStr (0x2B :: 0x66 :: List.replicate 30 0x30) = some (some (15 :: List.replicate 15 0)) ∧
      parseNodeIdHex (0x30 :: 0xC3 :: 0xA9 :: List.replicate 29 0x30) = none ∧
      fromStr (0x30 :: 0xC3 :: 0xA9 :: List.replicate 29 0x30) = some none := by
  decide

end ProximityMesh.NodeIdText
