/-
  Daemon/Services.lean --- the bookkeeping services of the daemon.

  Source: crates/pim-daemon/src/rate_limiter.rs, reputation.rs, send_buffer.rs,
  auth.rs, the upsert of peer_directory.rs and `PendingOutbound` of
  ip_control.rs.

  Clock readings are arguments, in nanoseconds for `Instant` and in milliseconds
  for the wall clock of the peer directory.  The token arithmetic of the rate
  limiter is exact where the source uses `f64`.  The trust store file and the
  database are left out except for whether an access succeeds.
-/
import ProximityMesh.Transport.Tcp

set_option autoImplicit false

namespace ProximityMesh.Daemon

open Protocol Transport

/-! ## Rate limiting -/

/-- Token bucket for a single peer. -/
structure TokenBucket where
  capacity : UInt32
  tokens : ℚ
  /-- Tokens per second. -/
  refillRate : ℚ
  lastRefill : Nat

namespace TokenBucket

def new (capacity : UInt32) (refillRate : ℚ) (now : Nat) : TokenBucket :=
  ⟨capacity, capacity.toNat, refillRate, now⟩

/-- Attempt to consume one token; the result says whether the frame is allowed. -/
def tryConsume (b : TokenBucket) (now : Nat) : Bool × TokenBucket :=
  let elapsed : ℚ := ((now - b.lastRefill : Nat) : ℚ) / 1000000000
  let tokens := min (b.tokens + elapsed * b.refillRate) b.capacity.toNat
  if 1 ≤ tokens then (true, { b with tokens := tokens - 1, lastRefill := now })
  else (false, { b with tokens := tokens, lastRefill := now })

end TokenBucket

/-- One token bucket per peer. -/
structure RateLimiter where
  buckets : HashMap NodeId TokenBucket
  capacity : UInt32
  refillRate : ℚ

namespace RateLimiter

/-- Default burst capacity of 500 frames and rate of 200 frames per second. -/
def default : RateLimiter := ⟨.empty, 500, 200⟩

/-- Whether the next frame of a peer is within the limit. -/
def allow (r : RateLimiter) (now : Nat) (peerId : NodeId) : Bool × RateLimiter :=
  let bucket := (r.buckets.get peerId).getD (TokenBucket.new r.capacity r.refillRate now)
  let (allowed, bucket) := bucket.tryConsume now
  (allowed, { r with buckets := r.buckets.insert peerId bucket })

def removePeer (r : RateLimiter) (peerId : NodeId) : RateLimiter :=
  { r with buckets := r.buckets.remove peerId }

end RateLimiter

/-! ## Reputation -/

/-- Failure scores of peers. -/
structure ReputationTracker where
  scores : HashMap NodeId UInt32

namespace ReputationTracker

def blacklistThreshold : UInt32 := 10

/-- Record a failure; the result says whether the score has just reached the
threshold. -/
def recordFailure (r : ReputationTracker) (peerId : NodeId) : Bool × ReputationTracker :=
  let score := (r.scores.get peerId).getD 0
  let score := if score = 0xFFFFFFFF then score else score + 1
  (score = blacklistThreshold, ⟨r.scores.insert peerId score⟩)

def recordSuccess (r : ReputationTracker) (peerId : NodeId) : ReputationTracker :=
  ⟨r.scores.modify peerId fun score => if score = 0 then 0 else score - 1⟩

/-- Remove all accumulated score. -/
def pardon (r : ReputationTracker) (peerId : NodeId) : ReputationTracker :=
  ⟨r.scores.remove peerId⟩

end ReputationTracker

/-! ## Send buffer -/

/-- Priority level of buffered frames; a lower value is delivered first. -/
inductive Priority where
  | control
  | route
  | data
  deriving DecidableEq, Repr

namespace Priority

def rank : Priority → Nat
  | control => 0
  | route => 1
  | data => 2

/-- Classify a frame by its type. -/
def ofType : FrameType → Priority
  | .control | .handshake => control
  | .routeUpdate => route
  | _ => data

end Priority

structure BufferedFrame where
  enqueuedAt : Nat
  priority : Priority
  frame : TransportFrame
  deriving DecidableEq

/-- One bounded buffer per destination peer, each ordered by priority and then by
time. -/
structure SendBuffer where
  peers : HashMap NodeId (List BufferedFrame)
  capacityPerPeer : Nat
  timeout : Nat

namespace SendBuffer

def new (capacityPerPeer timeout : Nat) : SendBuffer := ⟨.empty, capacityPerPeer, timeout⟩

/-- Default capacity of 256 frames and timeout of 30 seconds. -/
def default : SendBuffer := ⟨.empty, 256, 30000000000⟩

def alive (b : SendBuffer) (now : Nat) (f : BufferedFrame) : Bool := now - f.enqueuedAt < b.timeout

/-- Insert behind every frame that is not less urgent. -/
def insertByPriority (f : BufferedFrame) (frames : List BufferedFrame) : List BufferedFrame :=
  let before := frames.takeWhile fun g =>
    g.priority.rank < f.priority.rank ||
      (g.priority == f.priority && decide (g.enqueuedAt ≤ f.enqueuedAt))
  before ++ f :: frames.drop before.length

/-- Buffer a frame; at capacity the last frame gives way unless it is more
urgent.  `push` reads the clock twice: the reading the frame is stamped with may
be later than the one expired frames are dropped by. -/
def pushAt (b : SendBuffer) (now enqueuedAt : Nat) (peerId : NodeId) (priority : Priority)
    (frame : TransportFrame) : SendBuffer :=
  let frames := ((b.peers.get peerId).getD []).filter (b.alive now)
  let f : BufferedFrame := ⟨enqueuedAt, priority, frame⟩
  let frames :=
    if frames.length ≥ b.capacityPerPeer then
      match frames.getLast? with
      | some worst =>
          if worst.priority.rank ≥ priority.rank then insertByPriority f frames.dropLast else frames
      | none => frames
    else insertByPriority f frames
  { b with peers := b.peers.insert peerId frames }

/-- A push whose two clock readings agree. -/
def push (b : SendBuffer) (now : Nat) (peerId : NodeId) (priority : Priority)
    (frame : TransportFrame) : SendBuffer :=
  b.pushAt now now peerId priority frame

/-- Expire stale frames across all peers; the first result is how many were removed. -/
def expireAll (b : SendBuffer) (now : Nat) : Nat × SendBuffer :=
  let expired := b.peers.mapValues fun frames => frames.filter (b.alive now)
  ((b.peers.iter.map fun e => e.2.length - (e.2.filter (b.alive now)).length).sum,
    { b with peers := expired.retain fun _ frames => !frames.isEmpty })

/-- Take all frames of a peer that have not expired. -/
def drain (b : SendBuffer) (now : Nat) (peerId : NodeId) : List TransportFrame × SendBuffer :=
  match b.peers.get peerId with
  | none => ([], b)
  | some frames =>
      ((frames.filter (b.alive now)).map BufferedFrame.frame,
        { b with peers := b.peers.remove peerId })

end SendBuffer

/-! ## Authorization -/

inductive AuthorizationPolicy where
  | allowAll
  | allowList
  | trustOnFirstUse
  deriving DecidableEq, Repr

inductive AuthorizationDecision where
  | allowed
  | trustedOnFirstUse
  | rejected
  deriving DecidableEq, Repr

/-! ## Peer directory -/

/-- A row of `peers_seen`. -/
structure PeerRow where
  x25519Pub : Octets 32
  lastKnownName : String
  firstSeenMs : Int
  lastSeenMs : Int
  deriving DecidableEq

/-- The daemon-owned peer keystore. -/
abbrev PeerDirectory : Type := HashMap NodeId PeerRow

/-- `upsert_peer_seen_blocking`. -/
def PeerDirectory.upsertPeerSeen (d : PeerDirectory) (peer : NodeId) (x25519Pub : Octets 32)
    (name : String) (nowMs : Int) : PeerDirectory :=
  let firstSeenMs :=
    match HashMap.get d peer with
    | some row => row.firstSeenMs
    | none => nowMs
  HashMap.insert d peer ⟨x25519Pub, name, firstSeenMs, nowMs⟩

/-- Outcome of an out-of-band identity import. -/
inductive ImportOutcome where
  | inserted
  | refreshed
  | keyMismatch (existing : Octets 32)
  deriving DecidableEq

/-- `import_blocking`: a key that differs from the stored one is refused. -/
def PeerDirectory.importIdentity (d : PeerDirectory) (peer : NodeId) (x25519Pub : Octets 32)
    (nameIfSet : Option String) (nowMs : Int) : PeerDirectory × ImportOutcome :=
  match HashMap.get d peer with
  | none => (HashMap.insert d peer ⟨x25519Pub, nameIfSet.getD "", nowMs, nowMs⟩, .inserted)
  | some row =>
      if row.x25519Pub = x25519Pub then
        let name := (nameIfSet.filter fun n => n ≠ "").getD row.lastKnownName
        (HashMap.insert d peer { row with lastKnownName := name, lastSeenMs := nowMs }, .refreshed)
      else (d, .keyMismatch row.x25519Pub)

/-- `forget_blocking`. -/
def PeerDirectory.forget (d : PeerDirectory) (peer : NodeId) : PeerDirectory × Bool :=
  (HashMap.remove d peer, HashMap.contains d peer)

/-- How an inbound `PeerInfo` arrived. -/
inductive PeerInfoSource where
  | direct
  | routed
  deriving DecidableEq, Repr

/-! ## Outbound attempts -/

/-- Where to connect to, and by which mechanism. -/
inductive ConnectTarget where
  | tcp (addr : SocketAddr)
  | bluetoothPan (addr : SocketAddr)
  deriving DecidableEq

def ConnectTarget.addr : ConnectTarget → SocketAddr
  | .tcp addr | .bluetoothPan addr => addr

/-- An outbound connection attempt, filed under the address it dials. -/
structure PendingOutbound where
  transportKey : NodeId
  target : ConnectTarget
  deriving DecidableEq

end ProximityMesh.Daemon
