/-
  Daemon/PeerHandlers.lean --- the handlers that make and unmake a peer, interleaved at
  every lock.

  Source: the ends of `handshake_initiator` and `handshake_responder` in
  crates/pim-daemon/src/handshake.rs, `remove_peer` in peer_tasks.rs, the arms for
  route updates and heartbeats of `run_event_loop` in app/event_loop.rs.

  A completed handshake enters a peer into the sessions, the public keys and the
  routing table, one lock after the other, and `remove_peer` takes it out in the same
  order.  A route update is verified under a key read with one lock and applied under
  another.  The outline of the handlers keeps who is in which store and who is a next
  hop; what it leaves out are the values.
-/
import ProximityMesh.Daemon.RouteReplay
import ProximityMesh.Foundation.Pool
import ProximityMesh.Routing.Updates

set_option autoImplicit false

namespace ProximityMesh.Daemon

open Protocol Crypto Routing ProximityMesh.Task RoutingTable List HashMap State Option

/-! ## Handlers -/

/-- A call of one of the handlers, with what it is called with. -/
inductive Handler where
  | completion (h : Completed) (isInitiator : Bool)
  | removal (peerId : NodeId)
  | routeUpdate (fromPeer : NodeId) (payload : Bytes)
  | heartbeat (fromPeer : NodeId) (payload : Bytes)

namespace Handler

def task [X25519] [HkdfSha256] [Blake3] [Ed25519] : Handler → DaemonM Unit
  | completion h isInitiator => establish h isInitiator
  | removal peerId => removePeer peerId
  | routeUpdate fromPeer payload => handleRouteUpdate fromPeer payload
  | heartbeat fromPeer payload => handleHeartbeat fromPeer payload

/-- The peer a handler enters into the stores (`true`) or takes out of them (`false`). -/
def sets : Handler → Option (NodeId × Bool)
  | completion h _ => some (h.peerId, true)
  | removal peerId => some (peerId, false)
  | routeUpdate _ _ => none
  | heartbeat _ _ => none

/-- A completed handshake and a removal of the same peer. -/
def Opposed : Handler → Handler → Prop
  | completion h _, removal peerId => h.peerId = peerId
  | removal peerId, completion h _ => h.peerId = peerId
  | _, _ => False

/-- A removal of a peer and a completed handshake or a route update of the same peer. -/
def Conflicting : Handler → Handler → Prop
  | completion h _, removal peerId => h.peerId = peerId
  | removal peerId, completion h _ => h.peerId = peerId
  | routeUpdate fromPeer _, removal peerId => fromPeer = peerId
  | removal peerId, routeUpdate fromPeer _ => fromPeer = peerId
  | _, _ => False

variable {t t' : Handler}

/-- Only completed handshakes enter a peer, and only removals take one out. -/
theorem sets_cases {p : NodeId} {d : Bool} (h : t.sets = some (p, d)) :
    (∃ c b, t = completion c b ∧ c.peerId = p ∧ d = true) ∨ (t = removal p ∧ d = false) := by
  cases t with
  | completion c b =>
    obtain ⟨hp, hd⟩ := Prod.mk.inj (some.inj h)
    exact .inl ⟨c, b, rfl, hp, hd.symm⟩
  | removal q =>
    obtain ⟨rfl, hd⟩ := Prod.mk.inj (some.inj h)
    exact .inr ⟨rfl, hd.symm⟩
  | _ => cases h

theorem opposed_of_sets {p : NodeId} {d : Bool} (h : t.sets = some (p, d))
    (h' : t'.sets = some (p, !d)) : Opposed t t' := by
  rcases sets_cases h with ⟨c, b, rfl, hp, rfl⟩ | ⟨rfl, rfl⟩
  · rcases sets_cases h' with ⟨_, _, _, _, hd⟩ | ⟨rfl, -⟩
    · cases hd
    · exact hp
  · rcases sets_cases h' with ⟨_, _, rfl, hp, -⟩ | ⟨_, hd⟩
    · exact hp
    · cases hd

theorem conflicting_of_opposed (h : Opposed t t') : Conflicting t t' := by
  cases t <;> cases t' <;> first | exact h | exact h.elim

theorem not_conflicting_self (t : Handler) : ¬ Conflicting t t := by
  cases t <;> exact id

theorem conflicting_symm (h : Conflicting t t') : Conflicting t' t := by
  cases t <;> cases t' <;> exact h

end Handler

open Handler

/-! ## The outline -/

instance : Nonempty Input := ⟨calm⟩

instance : Nonempty State := by
  let := transparentSha256
  let := transparentEd25519
  let := transparentX25519
  let := transparentHkdf
  exact ⟨openNode.state⟩

/-- Who is in which store, and who is the next hop of a route. -/
structure PeerStores where
  sessions : NodeId → Bool
  pubkeys : NodeId → Bool
  direct : NodeId → Bool
  via : NodeId → Prop

namespace PeerStores

/-- The stores in the order in which the handlers write them. -/
def flag (x : PeerStores) : Nat → NodeId → Bool
  | 0 => x.sessions
  | 1 => x.pubkeys
  | 2 => x.direct
  | _ => fun _ => false

/-- The peer is in all stores or in none. -/
def Agreed (x : PeerStores) (p : NodeId) : Prop :=
  x.sessions p = x.pubkeys p ∧ x.pubkeys p = x.direct p

end PeerStores

def Standing.peerStores (st : Standing) : PeerStores :=
  ⟨st.sessions.contains, st.peerPubkeys.contains, st.routing.directPeers.contains, st.routing.Via⟩

def State.peerStores (s : State) : PeerStores := s.standing.peerStores

/-- What the handlers do to the stores between their control points: 0, 1 and 2 stores written,
or a key read; 3 is the last one. -/
inductive HandlerStep : Handler → Nat → PeerStores → PeerStores → Nat → Prop
  | session {t : Handler} {p : NodeId} {d : Bool} {x : PeerStores} (ht : t.sets = some (p, d)) :
      HandlerStep t 0 x { x with sessions := Function.update x.sessions p d } 1
  | pubkey {t : Handler} {p : NodeId} {d : Bool} {x : PeerStores} (ht : t.sets = some (p, d)) :
      HandlerStep t 1 x { x with pubkeys := Function.update x.pubkeys p d } 2
  | neighbour {t : Handler} {p : NodeId} {d : Bool} {x : PeerStores} {via : NodeId → Prop}
      (ht : t.sets = some (p, d))
      (hvia : ∀ q, via q → (x.via q ∧ (d = false → q ≠ p)) ∨ (d = true ∧ q = p)) :
      HandlerStep t 2 x { x with direct := Function.update x.direct p d, via } 3
  | lookup {p : NodeId} {payload : Bytes} {x : PeerStores} (hkey : x.pubkeys p = true) :
      HandlerStep (.routeUpdate p payload) 0 x x 1
  | ignore {p : NodeId} {payload : Bytes} {x : PeerStores} :
      HandlerStep (.routeUpdate p payload) 0 x x 3
  | apply {p : NodeId} {payload : Bytes} {x : PeerStores} {via : NodeId → Prop}
      (hvia : ∀ q, via q → x.via q ∨ q = p) :
      HandlerStep (.routeUpdate p payload) 1 x { x with via } 3

/-- The control point a handler starts at.  An update that does not decode and a heartbeat
touch no store. -/
def Handler.firstPoint : Handler → Nat
  | .completion _ _ => 0
  | .removal _ => 0
  | .routeUpdate _ payload =>
      match RouteUpdateFrame.decode payload with
      | .ok _ _ => 0
      | .error _ _ => 3
  | .heartbeat _ _ => 3

def handlerOutline : Outline PeerStores Handler Nat where
  start := Handler.firstPoint
  Step := HandlerStep
  Final a := a = 3
  not_final t a x x' a' h := by
    cases h <;> omega

variable {t : Handler} {p q : NodeId} {d : Bool} {j j' k : Nat} {x' : PeerStores}

theorem firstPoint_of_sets (h : t.sets = some (p, d)) : t.firstPoint = 0 := by
  rcases sets_cases h with ⟨_, _, rfl, -, -⟩ | ⟨rfl, -⟩
  · rfl
  · rfl

theorem firstPoint_ne_one (t : Handler) : t.firstPoint ≠ 1 := by
  cases t with
  | completion c _ | removal q => exact Nat.zero_ne_one
  | routeUpdate p payload =>
    dsimp only [firstPoint]
    split
    · exact Nat.zero_ne_one
    · omega
  | heartbeat p payload =>
    dsimp only [firstPoint]
    omega

/-- A handler that enters or takes out a peer writes the stores one after the other. -/
theorem HandlerStep.store {x : PeerStores} (h : HandlerStep t j x x' j')
    (ht : t.sets = some (p, d)) :
    j < 3 ∧ j' = j + 1 ∧ x'.flag j p = d ∧
      ∀ k q, ¬ (k = j ∧ q = p) → x'.flag k q = x.flag k q := by
  have hflag : j < 3 ∧ j' = j + 1 ∧
      x'.flag = Function.update x.flag j (Function.update (x.flag j) p d) := by
    cases h with
    | session ht' | pubkey ht' | neighbour ht' _ =>
      obtain ⟨rfl, rfl⟩ := Prod.mk.inj (some.inj (ht'.symm.trans ht))
      exact ⟨by decide, rfl, funext fun k => by rcases k with _ | _ | _ | k <;> rfl⟩
    | lookup | ignore | apply => cases ht
  obtain ⟨hj, hj', hflag⟩ := hflag
  rw [hflag]
  refine ⟨hj, hj', ?_, fun k q hne => ?_⟩
  · rw [Function.update_self, Function.update_self]
  · rcases Decidable.em (k = j) with rfl | hk
    · rw [Function.update_self, Function.update_of_ne fun hq => hne ⟨rfl, hq⟩]
    · rw [Function.update_of_ne hk]

theorem HandlerStep.flag_eq {x : PeerStores} (h : HandlerStep t j x x' j') (ht : t.sets = none) :
    x'.flag = x.flag := by
  cases h with
  | session ht' | pubkey ht' | neighbour ht' _ => exact absurd (ht'.symm.trans ht) (some_ne_none _)
  | lookup | ignore | apply => rfl

/-! ## The stores along a run of the outline -/

/-- Some handler that sets `p` to `d` has written the first `j` stores. -/
def Writing (l : List (Handler × Nat)) (p : NodeId) (d : Bool) (j : Nat) : Prop :=
  ∃ t, (t, j) ∈ l ∧ t.sets = some (p, d)

section Writing

variable {l : List (Handler × Nat)} {k j j' : Nat} {t : Handler} {p : NodeId} {d : Bool}

theorem Writing.append (h : Writing l p d j) (l' : List (Handler × Nat)) :
    Writing (l ++ l') p d j := by
  obtain ⟨t, ht, hsets⟩ := h
  exact ⟨t, mem_append_left l' ht, hsets⟩

theorem writing_append_singleton {a : Nat} (h : Writing (l ++ [(t, a)]) p d j) :
    Writing l p d j ∨ (t.sets = some (p, d) ∧ j = a) := by
  obtain ⟨t', ht', hsets⟩ := h
  rcases mem_append.mp ht' with hold | hnew
  · exact .inl ⟨t', hold, hsets⟩
  · obtain ⟨rfl, rfl⟩ := Prod.mk.inj (mem_singleton.mp hnew)
    exact .inr ⟨hsets, rfl⟩

theorem writing_of_set {i : Nat} (h : Writing (l.set k (t, j')) p d i) :
    Writing l p d i ∨ (t.sets = some (p, d) ∧ i = j') := by
  obtain ⟨t', ht', hsets⟩ := h
  rcases mem_or_eq_of_mem_set ht' with hold | hnew
  · exact .inl ⟨t', hold, hsets⟩
  · cases hnew
    exact .inr ⟨hsets, rfl⟩

/-- A handler that has moved on is the only one that is not where it was. -/
theorem Writing.set {i : Nat} (hk : l[k]? = some (t, j)) (h : Writing l p d i) :
    Writing (l.set k (t, j')) p d i ∨ (t.sets = some (p, d) ∧ i = j) := by
  obtain ⟨t', ht', hsets⟩ := h
  rcases eq_or_mem_set hk ht' with hsame | hthere
  · cases hsame
    exact .inr ⟨hsets, rfl⟩
  · exact .inl ⟨t', hthere, hsets⟩

theorem writing_set_self (hk : l[k]? = some (t, j)) (ht : t.sets = some (p, d)) :
    Writing (l.set k (t, j')) p d j' :=
  ⟨t, List.mem_set (List.getElem?_eq_some_iff.mp hk).1 _, ht⟩

end Writing

variable {opposes : Handler → Handler → Prop} {x₀ x : PeerStores} {l : List (Handler × Nat)}

/-- Stores that agree are settled while nobody writes. -/
theorem settling_of_agreed (h : x.Agreed p) :
    Settling 3 (fun j => x.flag j p) (Writing [] p) true := by
  obtain ⟨hpubkeys, hdirect⟩ := h
  have hnobody : ∀ d j, ¬ Writing [] p d j := fun _ _ ⟨_, ht, _⟩ => not_mem_nil ht
  have hequal : ∀ j, j + 1 < 3 → x.flag j p = x.flag (j + 1) p := by
    intro j hj
    rcases j with _ | _ | j
    · exact hpubkeys
    · exact hdirect
    · omega
  refine ⟨fun j _ => hnobody _ j, fun j hj hnext => (hequal j hj).trans hnext, ?_,
    fun j _ hW => absurd hW (hnobody _ j)⟩
  exact fun j hj hhere hnext => absurd ((hequal j hj).symm.trans hhere) hnext

/-- A handler may start when those that set its peer to the other value have ended. -/
theorem exists_settling_start (hd : Settling 3 (fun j => x.flag j p) (Writing l p) d)
    (ht : ∀ t' j, (t', j) ∈ l → Handler.Opposed t' t → j = 3) :
    ∃ d, Settling 3 (fun j => x.flag j p) (Writing (l ++ [(t, t.firstPoint)]) p) d := by
  have hsub : ∀ e j, Writing l p e j → Writing (l ++ [(t, t.firstPoint)]) p e j :=
    fun _ _ hW => hW.append _
  rcases Classical.em (∃ e, t.sets = some (p, e)) with ⟨e, hsets⟩ | hother
  · -- nobody writes the other value any more, so the mode may change
    have hmode : Settling 3 (fun j => x.flag j p) (Writing l p) e := by
      rcases Decidable.em (e = d) with rfl | hne
      · exact hd
      · obtain rfl : e = !d := Bool.eq_not_of_ne hne
        refine hd.turn fun j hj hW => ?_
        obtain ⟨t', ht', hsets'⟩ := hW
        have hfinal := ht t' j ht' (opposed_of_sets hsets' hsets)
        omega
    refine ⟨e, hmode.join hsub fun e' j _ hW => ?_⟩
    rcases writing_append_singleton hW with hold | ⟨hsets', hj⟩
    · exact .inl hold
    · refine .inr ⟨(Prod.mk.inj (some.inj (hsets'.symm.trans hsets))).2, ?_⟩
      exact hj.trans (firstPoint_of_sets hsets)
  · refine ⟨d, hd.join hsub fun e' j _ hW => .inl ?_⟩
    rcases writing_append_singleton hW with hold | ⟨hsets', -⟩
    · exact hold
    · exact absurd ⟨e', hsets'⟩ hother

/-- A step of a handler writes the next store of its peer, or nothing of the peer. -/
theorem settling_step (hd : Settling 3 (fun j => x.flag j p) (Writing l p) d)
    (hk : l[k]? = some (t, j)) (hstep : HandlerStep t j x x' j') :
    Settling 3 (fun j => x'.flag j p) (Writing (l.set k (t, j')) p) d := by
  rcases Classical.em (∃ e, t.sets = some (p, e)) with ⟨e, hsets⟩ | hother
  · obtain ⟨hj, rfl, hset, hsame⟩ := hstep.store hsets
    have hW : Writing l p e j := ⟨t, mem_of_getElem? hk, hsets⟩
    obtain rfl : e = d := by
      by_contra hne
      obtain rfl : e = !d := Bool.eq_not_of_ne hne
      exact hd.alone j hj hW
    refine hd.advance hj hW hset (fun i hi => hsame i p fun h => hi h.1) (fun i hi hWi => ?_)
      (writing_set_self hk hsets) fun e' i _ hW' => ?_
    · exact (Writing.set hk hWi).resolve_right fun h => hi h.2
    · rcases writing_of_set hW' with hold | ⟨hsets', hi⟩
      · exact .inl hold
      · exact .inr ⟨(Prod.mk.inj (some.inj (hsets'.symm.trans hsets))).2, hi⟩
  · -- the step is about another peer or writes no store
    have hflag : ∀ i, x'.flag i p = x.flag i p := by
      intro i
      cases hsets : t.sets with
      | none => rw [hstep.flag_eq hsets]
      | some pd =>
        refine (hstep.store hsets).2.2.2 i p fun h => hother ⟨pd.2, ?_⟩
        rw [hsets, h.2]
    have hwriting : ∀ e i, Writing (l.set k (t, j')) p e i ↔ Writing l p e i := by
      intro e i
      constructor
      · exact fun hW => (writing_of_set hW).resolve_right fun h => hother ⟨e, h.1⟩
      · exact fun hW => (Writing.set hk hW).resolve_right fun h => hother ⟨e, h.1⟩
    rw [show (fun i => x'.flag i p) = fun i => x.flag i p from funext hflag,
      show Writing (l.set k (t, j')) p = Writing l p from
        funext fun e => funext fun i => propext (hwriting e i)]
    exact hd

/-- Each peer is at every moment being entered into the stores, or being taken out, and not
both. -/
theorem exists_settling (hopp : ∀ t t', Handler.Opposed t t' → opposes t t')
    (h₀ : ∀ p, x₀.Agreed p) (h : handlerOutline.Reaches opposes x₀ x l) (p : NodeId) :
    ∃ d, Settling 3 (fun j => x.flag j p) (Writing l p) d := by
  induction h with
  | init => exact ⟨true, settling_of_agreed (h₀ p)⟩
  | start t _ ht ih =>
    obtain ⟨d, hd⟩ := ih
    exact exists_settling_start hd fun t' j hmem hopposed => ht _ hmem (hopp _ _ hopposed)
  | step _ hk hstep ih =>
    obtain ⟨d, hd⟩ := ih
    exact ⟨d, settling_step hd hk hstep⟩

/-- When nobody writes, the peer is in all stores or in none. -/
theorem agreed_of_settling (h : Settling 3 (fun j => x.flag j p) (Writing l p) d)
    (hnone : ∀ t j, (t, j) ∈ l → (t.sets).isSome → j = 3) : x.Agreed p := by
  have hequal := h.agree fun j hj ⟨t, ht, hsets⟩ =>
    Nat.ne_of_lt hj (hnone t j ht (by rw [hsets]; rfl))
  have hpubkeys : x.pubkeys p = x.sessions p := hequal 1 (Nat.lt_succ_of_lt Nat.one_lt_two)
  have hdirect : x.direct p = x.sessions p := hequal 2 (Nat.lt_succ_self 2)
  exact ⟨hpubkeys.symm, hpubkeys.trans hdirect.symm⟩

/-! ## Next hops along a run of the outline -/

/-- The peer is a neighbour, or a completed handshake is about to make it one. -/
def Expected (x : PeerStores) (l : List (Handler × Nat)) (q : NodeId) : Prop :=
  x.direct q = true ∨ ∃ j < 3, Writing l q true j

/-- Next hops are expected, and so is the sender of an update whose key has been read. -/
structure Backed (x : PeerStores) (l : List (Handler × Nat)) : Prop where
  hops : ∀ q, x.via q → Expected x l q
  held : ∀ q payload, (Handler.routeUpdate q payload, 1) ∈ l → Expected x l q

/-- Who has a stored key is expected. -/
theorem expected_of_settling (h : Settling 3 (fun j => x.flag j q) (Writing l q) d)
    (hkey : x.pubkeys q = true) : Expected x l q := by
  rcases Decidable.em (x.direct q = true) with hdirect | hdirect
  · exact .inl hdirect
  · right
    cases d with
    | true => exact ⟨2, Nat.lt_succ_self 2, h.ahead 1 (Nat.lt_succ_self 2) hkey hdirect⟩
    | false =>
      have hgone : x.pubkeys q = false :=
        h.behind 1 (Nat.lt_succ_self 2) ((Bool.not_eq_true _).mp hdirect)
      rw [hgone] at hkey
      cases hkey

/-- Who is expected stays so, except that the last write of a removal ends it. -/
theorem Expected.step (h : Expected x l q) (hk : l[k]? = some (t, j))
    (hstep : HandlerStep t j x x' j') (hkept : ¬ (t.sets = some (q, false) ∧ j = 2)) :
    Expected x' (l.set k (t, j')) q := by
  have hdirect : x'.direct q = x.direct q ∨ x'.direct q = true := by
    cases hsets : t.sets with
    | none => exact .inl (congrFun (congrFun (hstep.flag_eq hsets) 2) q)
    | some pd =>
      obtain ⟨-, -, hset, hsame⟩ := hstep.store hsets
      rcases Classical.em (2 = j ∧ q = pd.1) with ⟨rfl, rfl⟩ | hother
      · right
        cases hd : pd.2 with
        | true => exact hset.trans hd
        | false => exact absurd ⟨hsets.trans (by rw [← hd]), rfl⟩ hkept
      · exact .inl (hsame 2 q hother)
  rcases h with hnow | ⟨i, hi, hW⟩
  · exact .inl (hdirect.elim (fun hsame => hsame.trans hnow) id)
  · rcases Writing.set hk hW with hthere | ⟨hsets, rfl⟩
    · exact .inr ⟨i, hi, hthere⟩
    · -- the handshake that was about to make it a neighbour has moved on
      obtain ⟨-, rfl, hset, -⟩ := hstep.store hsets
      rcases Nat.lt_or_ge (i + 1) 3 with hlt | hge
      · exact .inr ⟨i + 1, hlt, writing_set_self hk hsets⟩
      · obtain rfl : i = 2 := by omega
        exact .inl hset

theorem Backed.start (h : Backed x l) (t : Handler) : Backed x (l ++ [(t, t.firstPoint)]) := by
  have hmono : ∀ q, Expected x l q → Expected x (l ++ [(t, t.firstPoint)]) q := by
    rintro q (hdirect | ⟨j, hj, hW⟩)
    · exact .inl hdirect
    · exact .inr ⟨j, hj, hW.append _⟩
  refine ⟨fun q hq => hmono q (h.hops q hq), fun q payload hmem => ?_⟩
  rcases mem_append.mp hmem with hold | hnew
  · exact hmono q (h.held q payload hold)
  · have hone := congrArg Prod.snd (mem_singleton.mp hnew)
    exact absurd hone.symm (firstPoint_ne_one t)

/-- The last write of a removal leaves no update of its peer under way, if the two exclude each
other. -/
theorem not_removing_of_held (hk : l[k]? = some (t, j))
    (hexclusive : ∀ e ∈ l, ∀ e' ∈ l, Handler.Conflicting e.1 e'.1 → e.2 = 3 ∨ e'.2 = 3)
    {payload : Bytes} (hupdate : (routeUpdate q payload, 1) ∈ l) :
    ¬ (t.sets = some (q, false) ∧ j = 2) := by
  rintro ⟨hsets, rfl⟩
  rcases sets_cases hsets with ⟨_, _, _, _, hd⟩ | ⟨rfl, -⟩
  · cases hd
  · have hended : 1 = 3 ∨ 2 = 3 :=
      hexclusive _ hupdate _ (mem_of_getElem? hk) rfl
    omega

/-- A step keeps the next hops backed, if a key that is read is of somebody expected. -/
theorem Backed.step (h : Backed x l) (hk : l[k]? = some (t, j)) (hstep : HandlerStep t j x x' j')
    (hexclusive : ∀ e ∈ l, ∀ e' ∈ l, Handler.Conflicting e.1 e'.1 → e.2 = 3 ∨ e'.2 = 3)
    (hkeyed : ∀ q, x.pubkeys q = true → Expected x l q) : Backed x' (l.set k (t, j')) := by
  have hmem := mem_of_getElem? hk
  have hstays : ∀ q, Expected x l q → ¬ (t.sets = some (q, false) ∧ j = 2) →
      Expected x' (l.set k (t, j')) q := fun q h hkept => h.step hk hstep hkept
  constructor
  · intro q hq
    cases hstep with
    | session _ | pubkey _ | lookup _ | ignore => exact hstays q (h.hops q hq) fun h => by omega
    | @neighbour _ p d _ via ht hvia =>
      rcases hvia q hq with ⟨hold, hne⟩ | ⟨rfl, rfl⟩
      · refine hstays q (h.hops q hold) fun h => ?_
        obtain ⟨rfl, rfl⟩ := Prod.mk.inj (some.inj (ht.symm.trans h.1))
        exact hne rfl rfl
      · exact .inl (Function.update_self _ _ _)
    | @apply p payload _ via hvia =>
      refine hstays q ?_ fun h => by omega
      rcases hvia q hq with hold | rfl
      · exact h.hops q hold
      · exact h.held q payload hmem
  · intro q payload hupdate
    rcases mem_or_eq_of_mem_set hupdate with hold | hnew
    · exact hstays q (h.held q payload hold) (not_removing_of_held hk hexclusive hold)
    · -- the key has just been read
      obtain ⟨htag, hone⟩ := Prod.mk.inj hnew
      subst htag hone
      cases hstep with
      | session ht => cases ht
      | lookup hkey => exact hstays q (hkeyed q hkey) fun h => by cases h.1

/-- If removals overlap neither completed handshakes nor updates of the same peer, the next
hops are backed along every run. -/
theorem backed_of_reaches (h₀ : ∀ p, x₀.Agreed p)
    (hvia₀ : ∀ q, x₀.via q → x₀.direct q = true)
    (h : handlerOutline.Reaches Handler.Conflicting x₀ x l) : Backed x l := by
  induction h with
  | init =>
    exact ⟨fun q hq => .inl (hvia₀ q hq), fun q payload hmem => absurd hmem not_mem_nil⟩
  | start t _ _ ih => exact ih.start t
  | step hreach hk hstep ih =>
    refine ih.step hk hstep (hreach.exclusive not_conflicting_self
      fun _ _ => conflicting_symm) fun q hkey => ?_
    obtain ⟨d, hd⟩ := exists_settling (fun _ _ => conflicting_of_opposed) h₀ hreach q
    exact expected_of_settling hd hkey

/-! ## The handlers follow the outline -/

/-- The write of a store is the step of the outline from one point to the next. -/
theorem refines_store {f : Input → State → State}
    (h : ∀ i s, HandlerStep t j s.peerStores (f i s).peerStores (j + 1)) :
    (Task.atomically fun i s => (f i s, ()) : DaemonM Unit).Refines peerStores
      (HandlerStep t) (· = 3) j fun _ a => a = j + 1 :=
  refines_atomically fun i s => .inr ⟨j + 1, h i s, rfl⟩

section Completion

variable [X25519] [HkdfSha256] [Blake3]

theorem refines_establish (h : Completed) (isInitiator : Bool) :
    (establish h isInitiator).Refines peerStores
      (HandlerStep (.completion h isInitiator)) (· = 3) 0 fun _ a => a = 3 := by
  have ht : (completion h isInitiator).sets = some (h.peerId, true) := rfl
  refine refines_bind (refines_store fun i s => ?_) ?_
  · show HandlerStep _ 0 s.peerStores
      { s.peerStores with sessions := (s.sessions.insert h.peerId s.nextCell).contains } 1
    rw [contains_insert_eq]
    exact .session ht
  rintro _ _ rfl
  refine refines_bind (refines_store fun i s => ?_) ?_
  · show HandlerStep _ 1 s.peerStores
      { s.peerStores with pubkeys :=
        (s.peerPubkeys.insert h.peerId h.message.senderPub).contains } 2
    rw [contains_insert_eq]
    exact .pubkey ht
  rintro _ _ rfl
  refine refines_bind (refines_store fun i s => ?_) ?_
  · show HandlerStep _ 2 s.peerStores
      { s.peerStores with
        direct := (s.routing.directPeers.insert h.peerId ()).contains
        via := (s.routing.addPeer i.now h.peerId).Via } 3
    rw [contains_insert_eq]
    refine .neighbour ht fun q hq => ?_
    rcases via_addPeer hq with hold | hnew
    · exact .inl ⟨hold, fun hd => by cases hd⟩
    · exact .inr ⟨rfl, hnew⟩
  rintro _ _ rfl
  -- what is left concerns other parts of the state
  refine Leaves.refines ?_ rfl fun _ => rfl
  refine leaves_bind (leaves_modify fun _ => rfl) fun _ => ?_
  refine leaves_bind (leaves_modify fun _ => rfl) fun _ => ?_
  refine leaves_bind (leaves_atomically fun _ _ => rfl) fun _ => ?_
  refine leaves_bind ((leaves_flushSendBuffer h.peerId).comp Standing.peerStores) fun _ => ?_
  exact (leaves_sendPeerInfo h.peerId).comp Standing.peerStores

end Completion

section Removal

variable [Ed25519]

/-- Advertising advances the sequence number of the table only. -/
theorem leaves_advertiseAll : advertiseAll.Leaves peerStores := by
  refine leaves_bind (leaves_atomically fun _ s => ?_) fun generated => ?_
  · split
    · rename_i routing adverts hgen
      have hroutes := (generateFor_counts hgen).1
      rw [hroutes]
      rfl
    · rfl
  · split
    · exact leaves_panicked
    · refine leaves_each fun advert => leaves_bind leaves_read fun signingKey => ?_
      exact (leaves_sendFrameBuffered _ _).comp Standing.peerStores

theorem refines_removePeer (peerId : NodeId) :
    (removePeer peerId).Refines peerStores (HandlerStep (.removal peerId)) (· = 3) 0
      fun _ a => a = 3 := by
  have ht : (removal peerId).sets = some (peerId, false) := rfl
  refine refines_bind (refines_store fun i s => ?_) ?_
  · show HandlerStep _ 0 s.peerStores
      { s.peerStores with sessions := (s.sessions.remove peerId).contains } 1
    rw [contains_remove_eq]
    exact .session ht
  rintro _ _ rfl
  refine refines_bind (refines_store fun i s => ?_) ?_
  · show HandlerStep _ 1 s.peerStores
      { s.peerStores with pubkeys := (s.peerPubkeys.remove peerId).contains } 2
    rw [contains_remove_eq]
    exact .pubkey ht
  rintro _ _ rfl
  refine refines_bind (B := fun _ a => a = 2) (refines_atomically fun i s => .inl ⟨rfl, rfl⟩) ?_
  rintro _ _ rfl
  refine refines_bind (refines_store fun i s => ?_) ?_
  · show HandlerStep _ 2 s.peerStores
      { s.peerStores with
        direct := (s.routing.removePeer peerId).1.directPeers.contains
        via := (s.routing.removePeer peerId).1.Via } 3
    rw [directPeers_removePeer, contains_remove_eq]
    refine .neighbour ht fun q hq => .inl ?_
    obtain ⟨hold, hne⟩ := via_removePeer hq
    exact ⟨hold, fun _ => hne⟩
  rintro _ _ rfl
  refine Leaves.refines ?_ rfl fun _ => rfl
  refine leaves_bind (leaves_modify fun _ => rfl) fun _ => ?_
  exact leaves_bind (leaves_modify fun _ => rfl) fun _ => leaves_advertiseAll

variable [Blake3]

theorem refines_handleRouteUpdate (fromPeer : NodeId) (payload : Bytes) :
    (handleRouteUpdate fromPeer payload).Refines peerStores
      (HandlerStep (.routeUpdate fromPeer payload)) (· = 3)
      (routeUpdate fromPeer payload).firstPoint fun _ a => a = 3 := by
  unfold handleRouteUpdate withDecoded
  dsimp only [firstPoint]
  cases RouteUpdateFrame.decode payload with
  | error e rest =>
    cases e with
    | error e => exact refines_pure rfl
    | panic => exact refines_panicked rfl
  | ok update rest =>
    -- whether the update will be applied is known once the key is read
    have hread : (Task.read fun s => s.peerPubkeys.get fromPeer :
        DaemonM (Option (Octets 32))).Refines peerStores
          (HandlerStep (.routeUpdate fromPeer payload)) (· = 3) 0
          fun key a => a = if key.any fun pk =>
            Ed25519.isVerifyingKey pk && verifyRouteUpdate update pk then 1 else 3 := by
      refine refines_atomically fun i s => .inr ?_
      dsimp only
      split
      · rename_i hverifies
        refine ⟨1, .lookup ?_, rfl⟩
        cases hkey : s.peerPubkeys.get fromPeer with
        | none =>
          rw [hkey] at hverifies
          cases hverifies
        | some key => exact isSome_of_mem hkey
      · exact ⟨3, .ignore, rfl⟩
    refine refines_bind hread fun key a ha => ?_
    subst ha
    cases key with
    | none => exact refines_pure rfl
    | some key =>
      simp only [any_some]
      split
      · refine refines_atomically fun i s => .inr ⟨3, ?_, rfl⟩
        obtain ⟨_, honly⟩ := onlyRoutes_applyUpdate s.routing i.now update fromPeer
        show HandlerStep _ 1 s.peerStores
          { s.peerStores with
            direct := (s.routing.applyUpdate i.now update fromPeer).1.directPeers.contains
            via := (s.routing.applyUpdate i.now update fromPeer).1.Via } 3
        rw [honly.directPeers]
        exact .apply fun q hq => via_applyUpdate hq
      · exact refines_pure rfl

end Removal

theorem leaves_handleHeartbeat (fromPeer : NodeId) (payload : Bytes) :
    (handleHeartbeat fromPeer payload).Leaves peerStores := by
  refine leaves_withDecoded fun hb => leaves_bind (leaves_atomically fun _ _ => rfl) fun _ => ?_
  split
  · have hload : (Task.modify fun s => { s with
        routing := s.routing.updateGatewayLoad fromPeer hb.load } : DaemonM Unit).Leaves
          peerStores := by
      refine leaves_modify fun s => ?_
      show Standing.peerStores { s.standing with
        routing := s.routing.updateGatewayLoad fromPeer hb.load } = _
      unfold Standing.peerStores
      rw [via_updateGatewayLoad]
      rfl
    split
    · exact leaves_bind (leaves_modify fun _ => rfl) fun _ => hload
    · exact hload
  · exact leaves_pure

/-! ## Runs of the handlers -/

section Runs

variable [Sha256] [X25519] [HkdfSha256] [Blake3] [Ed25519]

omit [Sha256] in
theorem refines_task (t : Handler) :
    t.task.Refines peerStores (handlerOutline.Step t) handlerOutline.Final
      (handlerOutline.start t) fun _ => handlerOutline.Final := by
  cases t with
  | completion h isInitiator => exact refines_establish h isInitiator
  | removal peerId => exact refines_removePeer peerId
  | routeUpdate fromPeer payload => exact refines_handleRouteUpdate fromPeer payload
  | heartbeat fromPeer payload =>
    exact (leaves_handleHeartbeat fromPeer payload).refines rfl fun _ => rfl

omit [Blake3] in
theorem agreed_boot (b : Boot) (p : NodeId) : b.state.peerStores.Agreed p := ⟨rfl, rfl⟩

omit [Blake3] in
theorem not_via_boot (b : Boot) (q : NodeId) : ¬ b.state.peerStores.via q := by
  rintro ⟨d, e, hget, -⟩
  have hnone : b.state.routing.routes.get d = none := get_empty d
  exact absurd (hget.symm.trans hnone) (some_ne_none e)

/-- If no removal of a peer overlaps a completed handshake of the same peer, then whenever
these handlers have ended, sessions, public keys and neighbours are of the same peers. -/
theorem peer_stores_agree (b : Boot) {S : Pool Input State Handler}
    (hrun : Pool.Reaches Handler.task (Pool.Excludes Handler.Opposed) b.state S)
    (hended : ∀ th ∈ S.threads, th.tag.sets.isSome → th.task.Ended) (p : NodeId) :
    (p ∈ S.state.sessions.keys ↔ p ∈ S.state.peerPubkeys.keys) ∧
      (p ∈ S.state.peerPubkeys.keys ↔ p ∈ S.state.routing.directPeers.keys) := by
  obtain ⟨l, hreach, hdesc⟩ := hrun.outlined refines_task
  obtain ⟨d, hd⟩ := exists_settling (fun _ _ => id) (agreed_boot b) hreach p
  have hagreed : S.state.peerStores.Agreed p := by
    refine agreed_of_settling hd fun t j hmem hsets => ?_
    obtain ⟨th, hth, hat⟩ := exists_left_of_forall₂ hdesc hmem
    exact hat.final (hended th hth (hat.1 ▸ hsets))
  simp only [HashMap.mem_keys]
  exact ⟨Bool.eq_iff_iff.mp hagreed.1, Bool.eq_iff_iff.mp hagreed.2⟩

/-- If no removal of a peer overlaps a completed handshake or a route update of the same peer,
then whenever nothing is running, every next hop is a neighbour. -/
theorem next_hops_are_neighbours (b : Boot) {S : Pool Input State Handler}
    (hrun : Pool.Reaches Handler.task (Pool.Excludes Handler.Conflicting) b.state S)
    (hrest : S.AtRest) (dst : NodeId) (e : RouteTableEntry)
    (he : S.state.routing.routes.get dst = some e) :
    e.nextHop ∈ S.state.routing.directPeers.keys := by
  obtain ⟨l, hreach, hdesc⟩ := hrun.outlined refines_task
  have hbacked :=
    backed_of_reaches (agreed_boot b) (fun q hq => absurd hq (not_via_boot b q)) hreach
  rw [HashMap.mem_keys]
  rcases hbacked.hops e.nextHop ⟨dst, e, he, rfl⟩ with hdirect | ⟨j, hj, t, hmem, -⟩
  · exact hdirect
  · -- no handshake is left that could be about to add the peer
    obtain ⟨th, hth, hat⟩ := exists_left_of_forall₂ hdesc hmem
    have hfinal : j = 3 := hat.final (hrest th hth)
    omega

end Runs

/-! ## Concrete runs -/

section Concrete

open Transparent

/-- A handshake that Victor has completed as initiator. -/
def victorCompletion : Handler :=
  let (message, _) := (Handshaker.new victorPub none).initiate victorPub (.fill 32 5)
  .completion
    { conn := 0, message, key := .fill 32 9, peerId := victorId, isInitiator := false
      own := Handshaker.new openNode.config.signingKey none } false

def stepsOf (k count : Nat) : List (Choice Input Handler) := List.replicate count (.run k calm)

/-- Victor connects, is removed and connects again, one after the other. -/
theorem peer_stores_agree_victor :
    ∃ S, Pool.Reaches Handler.task (Pool.Excludes Handler.Opposed) openNode.state S ∧ S.AtRest ∧
      victorId ∈ S.state.sessions.keys ∧
      ∀ p, (p ∈ S.state.sessions.keys ↔ p ∈ S.state.peerPubkeys.keys) ∧
        (p ∈ S.state.peerPubkeys.keys ↔ p ∈ S.state.routing.directPeers.keys) := by
  obtain ⟨S, hrun, hcheck⟩ := Pool.exists_reaches_of_play task (fun S _ => S.quiet)
    (fun S t h => (Pool.atRest_of_quiet h).excludes Handler.Opposed t) openNode.state
    ([.start victorCompletion] ++ stepsOf 0 10 ++ [.start (.removal victorId)] ++ stepsOf 1 7 ++
      [.start victorCompletion] ++ stepsOf 2 11)
    (fun S => S.quiet && decide (victorId ∈ S.state.sessions.keys)) (by decide +kernel)
  obtain ⟨hquiet, hsession⟩ := Bool.and_eq_true_iff.mp hcheck
  have hrest := Pool.atRest_of_quiet hquiet
  exact ⟨S, hrun, hrest, of_decide_eq_true hsession,
    peer_stores_agree openNode hrun fun th hth _ => hrest th hth⟩

/-- Victor reconnects while their old connection is being removed: the removal has taken out
the old session and key, the handshake enters the new ones and the neighbour, and then the
removal goes on and takes the neighbour out. -/
theorem overlapping_removal_splits_stores :
    ∃ S, Pool.Reaches Handler.task (fun _ _ => True) openNode.state S ∧ S.AtRest ∧
      victorId ∈ S.state.sessions.keys ∧ victorId ∈ S.state.peerPubkeys.keys ∧
      victorId ∉ S.state.routing.directPeers.keys := by
  obtain ⟨S, hrun, hcheck⟩ := Pool.exists_reaches_of_play
    task (fun _ _ => true) (fun _ _ _ => trivial) openNode.state
    ([.start victorCompletion] ++ stepsOf 0 10 ++ [.start (.removal victorId)] ++ stepsOf 1 2 ++
      [.start victorCompletion] ++ stepsOf 2 11 ++ stepsOf 1 5)
    (fun S => S.quiet && decide (victorId ∈ S.state.sessions.keys ∧
      victorId ∈ S.state.peerPubkeys.keys ∧ victorId ∉ S.state.routing.directPeers.keys))
    (by decide +kernel)
  obtain ⟨hquiet, hstores⟩ := Bool.and_eq_true_iff.mp hcheck
  exact ⟨S, hrun, Pool.atRest_of_quiet hquiet, of_decide_eq_true hstores⟩

/-- Victor connects and their update is applied. -/
theorem next_hops_are_neighbours_victor :
    ∃ S, Pool.Reaches Handler.task (Pool.Excludes Handler.Conflicting) openNode.state S ∧
      S.AtRest ∧ ∃ e, S.state.routing.routes.get victorId = some e ∧
        e.nextHop ∈ S.state.routing.directPeers.keys := by
  obtain ⟨S, hrun, hcheck⟩ := Pool.exists_reaches_of_play task (fun S _ => S.quiet)
    (fun S t h => (Pool.atRest_of_quiet h).excludes Handler.Conflicting t) openNode.state
    ([.start victorCompletion] ++ stepsOf 0 10 ++
      [.start (.routeUpdate victorId victorAdvert.encode)] ++ stepsOf 1 2)
    (fun S => S.quiet && (S.state.routing.routes.get victorId).isSome) (by decide +kernel)
  obtain ⟨hquiet, hroute⟩ := Bool.and_eq_true_iff.mp hcheck
  obtain ⟨e, he⟩ := isSome_iff_exists.mp hroute
  have hrest := Pool.atRest_of_quiet hquiet
  exact ⟨S, hrun, hrest, e, he, next_hops_are_neighbours openNode hrun hrest victorId e he⟩

/-- An update of Victor's has been verified under their key when Victor is removed, and is
applied afterwards: a route through Victor is back and Victor is no neighbour. -/
theorem late_update_restores_route :
    ∃ S, Pool.Reaches Handler.task (fun _ _ => True) openNode.state S ∧ S.AtRest ∧
      (∃ e, S.state.routing.routes.get victorId = some e ∧ e.nextHop = victorId) ∧
      victorId ∉ S.state.routing.directPeers.keys := by
  obtain ⟨S, hrun, hcheck⟩ := Pool.exists_reaches_of_play
    task (fun _ _ => true) (fun _ _ _ => trivial) openNode.state
    ([.start victorCompletion] ++ stepsOf 0 10 ++
      [.start (.routeUpdate victorId victorAdvert.encode)] ++ stepsOf 1 1 ++
      [.start (.removal victorId)] ++ stepsOf 2 7 ++ stepsOf 1 1)
    (fun S => S.quiet && decide ((∃ e ∈ S.state.routing.routes.get victorId, e.nextHop = victorId) ∧
      victorId ∉ S.state.routing.directPeers.keys)) (by decide +kernel)
  obtain ⟨hquiet, hroute⟩ := Bool.and_eq_true_iff.mp hcheck
  exact ⟨S, hrun, Pool.atRest_of_quiet hquiet, of_decide_eq_true hroute⟩

end Concrete

end ProximityMesh.Daemon
