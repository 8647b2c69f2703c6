/-
  DistanceVector/Basic.lean --- distance-vector routing with split horizon,
  poison reverse and per-sender sequence numbers.

  The protocol over any type of nodes and any value of infinity.  A node keeps
  at most one route for each destination; an advertisement carries, for each
  destination, the hop count of the sender's route, or infinity where that route
  goes through the receiver.  A receiver takes over a shorter path, follows the
  sender for a path that already goes through it, and drops a path through the
  sender that the sender no longer offers.

  `receive_route` is the one lemma about receiving: the new route of a
  destination is a function of the old one and of the number offered.
-/
import Mathlib.Combinatorics.SimpleGraph.Metric

set_option autoImplicit false

namespace ProximityMesh.DistanceVector

variable {ι : Type} [DecidableEq ι]

/-- A route: the neighbour it goes through, its length, and the sequence number
of the advertisement it was taken from. -/
structure Route (ι : Type) where
  nextHop : ι
  hops : Nat
  seq : Nat
  deriving DecidableEq

/-- The routing state of one node. -/
@[ext] structure Node (ι : Type) where
  routes : ι → Option (Route ι)
  /-- Highest sequence number accepted from each neighbour. -/
  maxSeq : ι → Nat
  /-- Sequence number of the node's last advertisement. -/
  seq : Nat
  peers : Set ι

/-- An advertisement: the hop count offered for each destination. -/
structure Advert (ι : Type) where
  origin : ι
  seq : Nat
  offer : ι → Option Nat

/-- A node without neighbours and routes. -/
def Node.fresh : Node ι := ⟨fun _ => none, fun _ => 0, 0, ∅⟩

/-- A new neighbour is one hop away. -/
def Node.addPeer (n : Node ι) (v : ι) : Node ι :=
  { n with
    routes := fun d => if d = v then some ⟨v, 1, 0⟩ else n.routes d
    peers := insert v n.peers }

variable (inf : Nat)

/-- What node `u` offers to `v`: itself at zero hops, nothing about `v`, and
infinity for what it reaches through `v`. -/
def Node.offer (n : Node ι) (u v d : ι) : Option Nat :=
  if d = u then some 0
  else if d = v then none
  else (n.routes d).map fun r => if r.nextHop = v then inf else r.hops

/-- The advertisement of `u` for `v` under a given sequence number. -/
def Node.advert (n : Node ι) (u v : ι) (seq : Nat) : Advert ι := ⟨u, seq, n.offer inf u v⟩

/-- The new route of a destination after an offer of neighbour `v`. -/
def follow (v : ι) (seq : Nat) (offered : Nat) : Option (Route ι) → Option (Route ι)
  | none => if inf ≤ offered + 1 then none else some ⟨v, offered + 1, seq⟩
  | some r =>
      if inf ≤ offered + 1 then (if r.nextHop = v then none else some r)
      else if offered + 1 < r.hops ∨ (r.seq < seq ∧ r.nextHop = v) then
        some ⟨v, offered + 1, seq⟩
      else some r

/-- Process one destination of an advertisement of `v`.  A destination that is
missing is withdrawn, except the sender itself. -/
def process (v : ι) (seq : Nat) (d : ι) (offered : Option Nat) (old : Option (Route ι)) :
    Option (Route ι) :=
  match offered with
  | some h => follow inf v seq h old
  | none =>
      match old with
      | some r => if r.nextHop = v ∧ d ≠ v then none else some r
      | none => none

/-- Receive an advertisement at `u`: rejected unless its sequence number is new;
an unknown sender becomes a route of one hop before the offers are processed. -/
def Node.receive (n : Node ι) (u : ι) (a : Advert ι) : Node ι :=
  if a.seq ≤ n.maxSeq a.origin then n
  else
    { n with
      maxSeq := fun p => if p = a.origin then a.seq else n.maxSeq p
      routes := fun d =>
        if d = u then n.routes d
        else
          process inf a.origin a.seq d (a.offer d)
            (if d = a.origin then some ((n.routes d).getD ⟨a.origin, 1, a.seq⟩) else n.routes d) }

/-- The number an advertisement offers for a destination; nothing is infinity. -/
def Advert.hops (a : Advert ι) (d : ι) : Nat := (a.offer d).getD inf

section Receive

variable {inf}

/-- Withdrawing and offering infinity are the same to a receiver. -/
theorem process_eq_follow {v d : ι} {seq : Nat} {offered : Option Nat} {old : Option (Route ι)}
    (hd : d ≠ v ∨ offered ≠ none) :
    process inf v seq d offered old = follow inf v seq (offered.getD inf) old := by
  cases offered with
  | some h => rfl
  | none =>
    have hdv : d ≠ v := hd.resolve_right (by simp)
    cases old with
    | none => simp [process, follow]
    | some r => simp [process, follow, hdv]

variable {n : Node ι} {u : ι} {a : Advert ι}

/-- The route of a destination after an accepted advertisement whose sender
offers itself at zero hops. -/
theorem receive_route {d : ι} (hacc : n.maxSeq a.origin < a.seq)
    (hself : a.offer a.origin = some 0) (hinf : 1 < inf) (hd : d ≠ u) :
    (n.receive inf u a).routes d = follow inf a.origin a.seq (a.hops inf d) (n.routes d) := by
  unfold Node.receive Advert.hops
  rw [if_neg (Nat.not_le.mpr hacc)]
  simp only [if_neg hd]
  by_cases hdv : d = a.origin
  · subst hdv
    rw [if_pos rfl, hself]
    -- the sender itself: an unknown sender gets the route its offer would install
    have hinf' : ¬ inf ≤ 0 + 1 := by omega
    cases hr : n.routes a.origin with
    | some r => rfl
    | none => simp [process, follow, hinf']
  · rw [if_neg hdv, process_eq_follow (.inl hdv)]

theorem receive_rejected (h : a.seq ≤ n.maxSeq a.origin) : n.receive inf u a = n := by
  unfold Node.receive
  rw [if_pos h]

theorem receive_maxSeq (hacc : n.maxSeq a.origin < a.seq) (p : ι) :
    (n.receive inf u a).maxSeq p = if p = a.origin then a.seq else n.maxSeq p := by
  unfold Node.receive
  rw [if_neg (Nat.not_le.mpr hacc)]

@[simp] theorem receive_seq (n : Node ι) (u : ι) (a : Advert ι) :
    (n.receive inf u a).seq = n.seq := by
  unfold Node.receive
  split <;> rfl

@[simp] theorem receive_peers (n : Node ι) (u : ι) (a : Advert ι) :
    (n.receive inf u a).peers = n.peers := by
  unfold Node.receive
  split <;> rfl

theorem receive_self (n : Node ι) (u : ι) (a : Advert ι) :
    (n.receive inf u a).routes u = n.routes u := by
  unfold Node.receive
  split
  · rfl
  · simp

theorem offer_self (n : Node ι) (u v : ι) : n.offer inf u v u = some 0 := by
  unfold Node.offer
  rw [if_pos rfl]

end Receive

end ProximityMesh.DistanceVector
