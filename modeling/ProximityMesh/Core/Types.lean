/-
  Core/Types.lean --- node identifiers, errors and the frame codec interface.

  Source: crates/pim-core/src/types.rs, crates/pim-core/src/error.rs.

  A `NodeId` is 16 raw bytes.  An id that belongs to a key is the truncated
  SHA-256 of the key; an id read from a wire is any 16 bytes.  Nothing in the
  type tells the two apart, so what a claimed id proves is a question about the
  code that checks it.
-/
import ProximityMesh.Foundation.Buffer

set_option autoImplicit false

namespace ProximityMesh

/-- SHA-256 of the `sha2` crate, as a function. -/
class Sha256 where
  digest : Bytes → Octets 32

/-- 16-byte node identifier. -/
structure NodeId where
  bytes : Octets 16
  deriving DecidableEq

namespace NodeId

/-- Create a `NodeId` from raw bytes. -/
def fromBytes (bytes : Octets 16) : NodeId := ⟨bytes⟩

/-- The raw bytes. -/
def asBytes (id : NodeId) : Octets 16 := id.bytes

/-- The first 16 bytes of the SHA-256 of an Ed25519 public key. -/
def fromPublicKey [Sha256] (publicKey : Octets 32) : NodeId :=
  ⟨⟨(Sha256.digest publicKey.toList).toList.take 16, by simp⟩⟩

end NodeId

/-- Cross-crate error wrapper; the payload is the message. -/
inductive PimError where
  | crypto (message : String)
  | protocol (message : String)
  | transport (message : String)
  | routing (message : String)
  | tun (message : String)
  | gateway (message : String)
  | config (message : String)
  deriving DecidableEq, Repr

/-- The wire codec of a frame.  `encode` is the bytes appended to the caller's
buffer, `decode` consumes a frame from the front of it. -/
class FrameCodec (α : Type) where
  encode : α → Bytes
  decode : BufM PimError α

namespace FrameCodec

/-- Decoding gives the encoded value back and leaves what stands behind it. -/
def RoundTrips {α : Type} [FrameCodec α] (x : α) : Prop :=
  ∀ rest, decode (encode x ++ rest) = .ok x rest

/-- What a decoder does with any buffer: it never panics, an error leaves the
buffer as it was, and a value is read off exactly the bytes of its own encoding.
`view` is the buffer up to bits that the decoder ignores. -/
structure Canonical (α : Type) [FrameCodec α] (view : Bytes → Bytes) : Prop where
  noPanic : ∀ buf, BufM.NoPanic (decode : BufM PimError α) buf
  error_unchanged : ∀ {buf buf' : Bytes} {f : Fault PimError},
    (decode : BufM PimError α) buf = .error f buf' → buf' = buf
  consumed : ∀ {buf rest : Bytes} {x : α}, decode buf = .ok x rest → view buf = encode x ++ rest

theorem Canonical.of_ensures {α : Type} [FrameCodec α] {view : Bytes → Bytes}
    (h : ∀ buf, BufM.Ensures (decode : BufM PimError α) buf
      (fun x rest => view buf = encode x ++ rest) fun f buf' => f ≠ .panic ∧ buf' = buf) :
    Canonical α view where
  noPanic := by
    intro buf
    rw [BufM.noPanic_iff_ensures]
    exact (h buf).mono (fun _ _ _ => trivial) fun _ _ hE => hE.1
  error_unchanged := by
    intro buf buf' f hdec
    have hE := h buf
    rw [BufM.Ensures, hdec] at hE
    exact hE.2
  consumed := by
    intro buf rest x hdec
    exact (h buf).of_ok hdec

end FrameCodec

/-- One lower-case or upper-case hexadecimal digit. -/
def hexDigit (upper : Bool) (n : Nat) : Char :=
  if n < 10 then Char.ofNat (48 + n) else Char.ofNat ((if upper then 55 else 87) + n)

/-- A number in hexadecimal, padded to `width` digits (what is above is cut). -/
def hex (upper : Bool) : Nat → Nat → String
  | 0, _ => ""
  | width + 1, n => (hex upper width (n / 16)).push (hexDigit upper (n % 16))

example : hex true 4 0x504D = "504D" := by decide +kernel

end ProximityMesh
