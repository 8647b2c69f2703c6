/-
  Core/MeshAddress.lean --- mesh addresses derived from node identifiers.

  Source: crates/pim-core/src/mesh_address.rs.

  The host part of an address is the head of a keyed BLAKE3 digest of the node
  id, cut to the host bits of the prefix; the network and broadcast hosts are
  nudged to a valid one.
-/
import ProximityMesh.Core.Types

set_option autoImplicit false

namespace ProximityMesh

/-- The `blake3` crate, as functions. -/
class Blake3 where
  deriveKey : String → Bytes → Octets 32
  keyedHash : Octets 32 → Bytes → Octets 32

/-- An IPv4 address as its big-endian value. -/
structure Ipv4Addr where
  bits : BitVec 32
  deriving DecidableEq

namespace Ipv4Addr

def unspecified : Ipv4Addr := ⟨0⟩

def octets (ip : Ipv4Addr) : Octets 4 := ⟨beBytes 4 ip.bits.toNat, length_beBytes 4 _⟩

def fromOctets (octets : Octets 4) : Ipv4Addr := ⟨BitVec.ofNat 32 (beNat octets.toList)⟩

end Ipv4Addr

/-- An IPv6 address as its big-endian value. -/
structure Ipv6Addr where
  bits : BitVec 128
  deriving DecidableEq

/-- IPv4 mesh prefix in `(network, prefix_len)` form. -/
structure Ipv4Prefix where
  network : Ipv4Addr
  prefixLen : UInt8
  deriving DecidableEq

/-- IPv6 mesh prefix in `(network, prefix_len)` form. -/
structure Ipv6Prefix where
  network : Ipv6Addr
  prefixLen : UInt8
  deriving DecidableEq

/-- The mask of the lowest `hostBits` bits of an address of `w` bits. -/
def hostMask (w hostBits : Nat) : BitVec w :=
  if hostBits = 0 then 0
  else if w ≤ hostBits then BitVec.allOnes w
  else (1 <<< hostBits) - 1

/-- The derived address in an address space of `w` bits, from the first `w` bits
of the digest.  A prefix without host bits has one address. -/
def deriveAddress (w prefixLen : Nat) (network raw : BitVec w) : BitVec w :=
  let hostBits := w - prefixLen
  let mask := hostMask w hostBits
  if hostBits = 0 then network
  else
    let host := raw &&& mask
    let host :=
      if 2 ≤ hostBits then
        if host = 0 then 1
        else if host = mask then mask - 1
        else host
      else host
    (network &&& ~~~ mask) ||| host

section Derive

variable [Blake3]

def keyedDigest (context : String) (nodeId : NodeId) : Octets 32 :=
  let key := Blake3.deriveKey context "pim-mesh-derivation".toUTF8.toList
  Blake3.keyedHash key nodeId.asBytes.toList

/-- Derive a node's mesh IPv4 address inside `pre` from its `NodeId`. -/
def deriveMeshIpv4 (nodeId : NodeId) (pre : Ipv4Prefix) : Ipv4Addr :=
  let digest := keyedDigest "pim-mesh-v4" nodeId
  ⟨deriveAddress 32 pre.prefixLen.toNat pre.network.bits
    (BitVec.ofNat 32 (beNat (digest.toList.take 4)))⟩

/-- Derive a node's mesh IPv6 address inside `pre` from its `NodeId`. -/
def deriveMeshIpv6 (nodeId : NodeId) (pre : Ipv6Prefix) : Ipv6Addr :=
  let digest := keyedDigest "pim-mesh-v6" nodeId
  ⟨deriveAddress 128 pre.prefixLen.toNat pre.network.bits
    (BitVec.ofNat 128 (beNat (digest.toList.take 16)))⟩

/-- Whether `claimed` is the derived address. -/
def verifyMeshIpv4 (nodeId : NodeId) (claimed : Ipv4Addr) (pre : Ipv4Prefix) : Bool :=
  deriveMeshIpv4 nodeId pre = claimed

end Derive

end ProximityMesh
