/-
  Routing/Table.lean --- the distance-vector routing table of one node.

  Source: crates/pim-routing/src/table.rs.

  Every method of `RoutingTable` that changes or reads routes, as a function on
  the table.  A clock reading is the argument `now`; one call reads the clock
  once.  Log lines are left out, and with them the loop of `apply_update` that
  compares advertised mesh addresses with the derivation only to log.  An addition
  that overflows is a panic, here and in all modules, as in a build with overflow
  checks.

  `HashMap` iteration fixes one order of the entries of an advertisement and of
  the peers of `generate_all_advertisements`; `generateFor` takes the peers in
  any order, and the network models built on this table allow any order of the
  entries.
-/
import ProximityMesh.Core.MeshAddress
import ProximityMesh.Foundation.HashMap
import ProximityMesh.Protocol.RouteFrame

set_option autoImplicit false

namespace ProximityMesh.Routing

open Protocol

/-- Hop count considered unreachable. -/
def infinity : UInt8 := 16

/-- A single entry in the routing table. -/
@[ext] structure RouteTableEntry where
  /-- The directly connected peer to forward packets through. -/
  nextHop : NodeId
  hops : UInt8
  isGateway : Bool
  lastSeen : Nat
  /-- The peer this route was learned from (for split horizon). -/
  learnedFrom : NodeId
  /-- Sequence number of the update that installed this entry. -/
  sequence : UInt64
  gatewayLoad : UInt8
  rttMs : Option UInt32
  meshIp : Option Ipv4Addr
  deriving DecidableEq

/-- Composite score used to rank gateway routes; lower is better.  The largest
score is below `2 ^ 32`. -/
def gatewayScore (hops load : UInt8) (rttMs : Option UInt32) : Nat :=
  hops.toNat * 100 + load.toNat / 2 + (rttMs.getD 0).toNat / 10

def RouteTableEntry.isExpired (entry : RouteTableEntry) (now maxAge : Nat) : Bool :=
  now - entry.lastSeen > maxAge

/-- Whether the routing table changed and a triggered update should be sent. -/
inductive UpdateResult where
  | changed
  | unchanged
  deriving DecidableEq, Repr

def UpdateResult.ofBool (changed : Bool) : UpdateResult := if changed then .changed else .unchanged

structure RoutingTable where
  selfId : NodeId
  isGateway : Bool
  routes : HashMap NodeId RouteTableEntry
  directPeers : HashSet NodeId
  /-- Sequence number of the last advertisement. -/
  sequence : UInt64
  /-- Highest accepted sequence number per peer. -/
  peerMaxSeq : HashMap NodeId UInt64
  blacklistedPeers : HashSet NodeId
  selfMeshIp : Option Ipv4Addr
  /-- Reverse index; the first writer of an address keeps it. -/
  meshIpIndex : HashMap Ipv4Addr NodeId
  ipv4Prefix : Ipv4Prefix
  meshIpCollisionsTotal : UInt64
  deriving DecidableEq

namespace RoutingTable

def new (selfId : NodeId) (isGateway : Bool) (ipv4Prefix : Ipv4Prefix) : RoutingTable where
  selfId := selfId
  isGateway := isGateway
  routes := .empty
  directPeers := .empty
  sequence := 0
  peerMaxSeq := .empty
  blacklistedPeers := .empty
  selfMeshIp := none
  meshIpIndex := .empty
  ipv4Prefix := ipv4Prefix
  meshIpCollisionsTotal := 0

def setIpv4Prefix (t : RoutingTable) (pre : Ipv4Prefix) : RoutingTable :=
  { t with ipv4Prefix := pre }

def setSelfMeshIp (t : RoutingTable) (meshIp : Ipv4Addr) : RoutingTable :=
  { t with selfMeshIp := some meshIp }

/-- Remove a route and its index entry, unless another destination owns that. -/
def removeRoute (t : RoutingTable) (dst : NodeId) : RoutingTable :=
  match t.routes.get dst with
  | none => t
  | some entry =>
      let index :=
        match entry.meshIp with
        | some ip =>
            if t.meshIpIndex.get ip = some dst then t.meshIpIndex.remove ip else t.meshIpIndex
        | none => t.meshIpIndex
      { t with routes := t.routes.remove dst, meshIpIndex := index }

def removeRoutes (t : RoutingTable) (dsts : List NodeId) : RoutingTable := dsts.foldl removeRoute t

/-- Invalidate all routes whose next hop is `peer`. -/
def removeRoutesVia (t : RoutingTable) (peer : NodeId) : RoutingTable × UpdateResult :=
  let toRemove := (t.routes.iter.filter fun e => e.2.nextHop = peer).map Prod.fst
  if toRemove.isEmpty then (t, .unchanged) else (t.removeRoutes toRemove, .changed)

def removePeer (t : RoutingTable) (peerId : NodeId) : RoutingTable × UpdateResult :=
  let t := { t with
    directPeers := t.directPeers.remove peerId
    peerMaxSeq := t.peerMaxSeq.remove peerId }
  t.removeRoutesVia peerId

/-- The index after the old address of `dst` is given up, if `dst` had another one. -/
def releaseMeshIp (t : RoutingTable) (dst : NodeId) (derived : Ipv4Addr) :
    HashMap Ipv4Addr NodeId :=
  match (t.routes.get dst).bind RouteTableEntry.meshIp with
  | some oldIp => if oldIp ≠ derived then t.meshIpIndex.remove oldIp else t.meshIpIndex
  | none => t.meshIpIndex

/-- Enter `dst` into the index; the first writer of an address wins and a
collision is counted. -/
def claimMeshIp (index : HashMap Ipv4Addr NodeId) (collisions : UInt64) (derived : Ipv4Addr)
    (dst : NodeId) : HashMap Ipv4Addr NodeId × UInt64 :=
  match index.get derived with
  | some existing =>
      if existing ≠ dst then (index, collisions + 1) else (index.insert derived dst, collisions)
  | none => (index.insert derived dst, collisions)

section Insert

variable [Blake3]

/-- Insert or update a route; the stored mesh address is derived from `dst`. -/
def insertRoute (t : RoutingTable) (dst : NodeId) (entry : RouteTableEntry) : RoutingTable :=
  let derived := deriveMeshIpv4 dst t.ipv4Prefix
  let claimed := claimMeshIp (t.releaseMeshIp dst derived) t.meshIpCollisionsTotal derived dst
  { t with
    routes := t.routes.insert dst { entry with meshIp := some derived }
    meshIpIndex := claimed.1
    meshIpCollisionsTotal := claimed.2 }

/-- Register a directly connected peer, one hop away. -/
def addPeer (t : RoutingTable) (now : Nat) (peerId : NodeId) : RoutingTable :=
  let t := { t with directPeers := t.directPeers.insert peerId () }
  t.insertRoute peerId
    { nextHop := peerId, hops := 1, isGateway := false, lastSeen := now, learnedFrom := peerId,
      sequence := 0, gatewayLoad := 0, rttMs := none, meshIp := none }

/-! ## Advertisement processing -/

/-- Refresh the route of the advertising peer, or add it at one hop.  The flag
says whether the table changed. -/
def touchPeer (t : RoutingTable) (now : Nat) (sequence : UInt64) (fromPeer : NodeId) :
    RoutingTable × Bool :=
  match t.routes.get fromPeer with
  | some entry =>
      ({ t with routes := t.routes.insert fromPeer { entry with lastSeen := now } }, false)
  | none =>
      (t.insertRoute fromPeer
        { nextHop := fromPeer, hops := 1, isGateway := false, lastSeen := now,
          learnedFrom := fromPeer, sequence := sequence, gatewayLoad := 0, rttMs := none,
          meshIp := none }, true)

/-- One pass of the loop over the advertised entries. -/
def applyEntry (now : Nat) (sequence : UInt64) (fromPeer : NodeId) (s : RoutingTable × Bool)
    (advertised : RouteEntry) : RoutingTable × Bool :=
  let (t, changed) := s
  let dst := advertised.destination
  if dst = t.selfId then (t, changed)
  else
    let newHops := UInt8.ofNat (min (advertised.hops.toNat + 1) infinity.toNat)
    if newHops ≥ infinity then
      match t.routes.get dst with
      | some existing =>
          if existing.nextHop = fromPeer then (t.removeRoute dst, true) else (t, changed)
      | none => (t, changed)
    else
      let isGw := advertised.isGateway
      match t.routes.get dst with
      | none =>
          (t.insertRoute dst
            { nextHop := fromPeer, hops := newHops, isGateway := isGw, lastSeen := now,
              learnedFrom := fromPeer, sequence := sequence, gatewayLoad := 0, rttMs := none,
              meshIp := none }, true)
      | some existing =>
          let betterPath := decide (newHops < existing.hops)
          let sameRefresh := decide (existing.nextHop = fromPeer)
          let newerSeq := decide (sequence > existing.sequence) && sameRefresh
          if betterPath || newerSeq then
            let gatewayFlagFlipped := existing.isGateway != isGw
            let (prevLoad, prevRtt) :=
              if existing.isGateway && !betterPath then (existing.gatewayLoad, existing.rttMs)
              else (0, none)
            (t.insertRoute dst
              { nextHop := fromPeer, hops := newHops, isGateway := isGw, lastSeen := now,
                learnedFrom := fromPeer, sequence := sequence, gatewayLoad := prevLoad,
                rttMs := prevRtt, meshIp := none },
              changed || betterPath || gatewayFlagFlipped)
          else (t, changed)

/-- Destinations learned from the peer that its full update no longer lists. -/
def withdrawn (t : RoutingTable) (fromPeer : NodeId) (advertised : List NodeId) : List NodeId :=
  (t.routes.iter.filter fun e =>
    e.2.learnedFrom = fromPeer && e.1 != fromPeer && !advertised.contains e.1).map Prod.fst

/-- An update that claims zero hops for a destination other than its sender. -/
def suspicious (update : RouteUpdateFrame) : Bool :=
  update.entries.any fun e => e.hops == 0 && e.destination != update.originId

/-- The part of `apply_update` behind its checks. -/
def applyEntries (t : RoutingTable) (now : Nat) (update : RouteUpdateFrame) (fromPeer : NodeId) :
    RoutingTable × UpdateResult :=
  let touched := t.touchPeer now update.sequence fromPeer
  let looped := update.entries.foldl (applyEntry now update.sequence fromPeer) touched
  let gone := looped.1.withdrawn fromPeer (update.entries.map RouteEntry.destination)
  if gone.isEmpty then (looped.1, .ofBool looped.2) else (looped.1.removeRoutes gone, .changed)

/-- Process an incoming `RouteUpdateFrame` from `fromPeer`. -/
def applyUpdate (t : RoutingTable) (now : Nat) (update : RouteUpdateFrame) (fromPeer : NodeId) :
    RoutingTable × UpdateResult :=
  if update.originId ≠ fromPeer then (t, .unchanged)
  else if update.sequence ≤ (t.peerMaxSeq.get fromPeer).getD 0 then (t, .unchanged)
  else
    let t := { t with peerMaxSeq := t.peerMaxSeq.insert fromPeer update.sequence }
    if suspicious update then (t, .unchanged) else t.applyEntries now update fromPeer

end Insert

/-! ## Advertisement generation -/

/-- `self.sequence += 1`; an overflow panics. -/
def nextSequence (sequence : UInt64) : Option UInt64 :=
  if sequence.toNat + 1 < 2 ^ 64 then some (sequence + 1) else none

def gatewayFlag (isGateway : Bool) : UInt8 := if isGateway then 0x01 else 0x00

def meshIpOctets (meshIp : Option Ipv4Addr) : Octets 4 := (meshIp.getD .unspecified).octets

/-- What is advertised to `toPeer` about one route: nothing about itself, and
infinity for what was learned from it. -/
def advertiseEntry (toPeer : NodeId) (route : NodeId × RouteTableEntry) : Option RouteEntry :=
  if route.1 = toPeer then none
  else
    some
      { destination := route.1
        hops := if route.2.learnedFrom = toPeer then infinity else route.2.hops
        flags := gatewayFlag route.2.isGateway
        meshIp := meshIpOctets route.2.meshIp }

/-- The advertisement for `toPeer`; `none` is the overflow of the sequence
counter. -/
def generateAdvertisement (t : RoutingTable) (toPeer : NodeId) :
    Option (RoutingTable × RouteUpdateFrame) := do
  let sequence ← nextSequence t.sequence
  let own : RouteEntry :=
    { destination := t.selfId, hops := 0, flags := gatewayFlag t.isGateway
      meshIp := meshIpOctets t.selfMeshIp }
  return ({ t with sequence := sequence },
    { originId := t.selfId, sequence := sequence
      entries := own :: t.routes.iter.filterMap (advertiseEntry toPeer)
      signature := Octets.zero 64 })

def generateFor (t : RoutingTable) :
    List NodeId → Option (RoutingTable × List (NodeId × RouteUpdateFrame))
  | [] => some (t, [])
  | peer :: peers => do
      let (t, frame) ← t.generateAdvertisement peer
      let (t, frames) ← t.generateFor peers
      return (t, (peer, frame) :: frames)

def generateAllAdvertisements (t : RoutingTable) :
    Option (RoutingTable × List (NodeId × RouteUpdateFrame)) :=
  t.generateFor t.directPeers.keys

/-! ## Blacklist, lookups and maintenance -/

def blacklistPeer (t : RoutingTable) (peerId : NodeId) : RoutingTable × UpdateResult :=
  let t := { t with blacklistedPeers := t.blacklistedPeers.insert peerId () }
  t.removeRoutesVia peerId

def unblacklistPeer (t : RoutingTable) (peerId : NodeId) : RoutingTable :=
  { t with blacklistedPeers := t.blacklistedPeers.remove peerId }

def isBlacklisted (t : RoutingTable) (peerId : NodeId) : Bool := t.blacklistedPeers.contains peerId

/-- The next hop for `dst`. -/
def lookup (t : RoutingTable) (dst : NodeId) : Option NodeId :=
  if dst = t.selfId then none
  else
    ((t.routes.get dst).filter fun e => !t.blacklistedPeers.contains e.nextHop).map
      RouteTableEntry.nextHop

/-- Resolve a mesh IPv4 destination to `(destination_id, next_hop)`. -/
def lookupMeshIp (t : RoutingTable) (meshIp : Ipv4Addr) : Option (NodeId × NodeId) := do
  let dst ← t.meshIpIndex.get meshIp
  let entry ← t.routes.get dst
  if t.blacklistedPeers.contains entry.nextHop then none else some (dst, entry.nextHop)

/-- The first entry of least score, as `min_by_key` picks it. -/
def minByScore : List (NodeId × RouteTableEntry) → Option (NodeId × RouteTableEntry)
  | [] => none
  | e :: rest =>
      match minByScore rest with
      | none => some e
      | some best =>
          if gatewayScore best.2.hops best.2.gatewayLoad best.2.rttMs <
              gatewayScore e.2.hops e.2.gatewayLoad e.2.rttMs then some best
          else some e

/-- The best gateway entry by composite score, blacklisted next hops skipped. -/
def bestGatewayEntry (t : RoutingTable) : Option (NodeId × RouteTableEntry) :=
  minByScore (t.routes.iter.filter fun e =>
    e.2.isGateway && decide (e.2.hops < infinity) && !t.blacklistedPeers.contains e.2.nextHop)

/-- Next hop and hop count to the best gateway. -/
def nearestGateway (t : RoutingTable) : Option (NodeId × UInt8) :=
  if t.isGateway then none else t.bestGatewayEntry.map fun e => (e.2.nextHop, e.2.hops)

/-- `(gateway_id, next_hop)` for the best gateway. -/
def nearestGatewayRoute (t : RoutingTable) : Option (NodeId × NodeId) :=
  if t.isGateway then none else t.bestGatewayEntry.map fun e => (e.1, e.2.nextHop)

/-- Mesh IPv4 of the best gateway, the `via` of the route installer. -/
def nearestGatewayMeshIp (t : RoutingTable) : Option Ipv4Addr :=
  if t.isGateway then none else t.bestGatewayEntry.bind fun e => e.2.meshIp

/-- Record the forwarding load a gateway reported. -/
def updateGatewayLoad (t : RoutingTable) (gwId : NodeId) (load : UInt8) : RoutingTable :=
  { t with routes := t.routes.modify gwId fun e =>
      if e.isGateway then { e with gatewayLoad := load } else e }

/-- Record a measured round-trip time to a gateway. -/
def updateGatewayRtt (t : RoutingTable) (gwId : NodeId) (rttMs : UInt32) : RoutingTable :=
  { t with routes := t.routes.modify gwId fun e =>
      if e.isGateway then { e with rttMs := some rttMs } else e }

/-- Remove all routes older than `maxAge`. -/
def expireStale (t : RoutingTable) (now maxAge : Nat) : RoutingTable × UpdateResult :=
  let expired := (t.routes.iter.filter fun e => e.2.isExpired now maxAge).map Prod.fst
  if expired.isEmpty then (t, .unchanged) else (t.removeRoutes expired, .changed)

end RoutingTable

end ProximityMesh.Routing
