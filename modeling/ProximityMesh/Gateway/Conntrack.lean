/-
  Gateway/Conntrack.lean --- the connection-tracking table of the NAT engines.

  Source: `Inner` and the table parts of `translate_outbound`,
  `translate_inbound` and `cleanup_expired` in crates/pim-gateway/src/engine.rs;
  `InnerV6` and its counterparts in crates/pim-gateway/src/ipv6.rs.

  The two engines keep the same table over different flow keys, so the table is
  written once over any key type and any allocator.  An entry of the source
  repeats the fields of its key (`orig_src`, `orig_port`, `proto`, `src_id`);
  here it carries a second copy of the key, `flow`, and that the copy agrees
  with the key it is stored under is part of the invariant `Consistent`, not of
  the type.
-/
import ProximityMesh.Gateway.PortPool

set_option autoImplicit false

namespace ProximityMesh.Gateway

open HashMap PortPool

/-- Errors raised while translating a packet. -/
inductive GatewayError where
  | packetTooShort (len : Nat)
  | notIpv4
  | unsupportedProtocol (proto : UInt8)
  | noConntrackEntry (proto : UInt8) (extPort : UInt16)
  | conntrackFull
  | commandFailed (message : String)
  deriving DecidableEq, Repr

def protoIcmp : UInt8 := 1

def protoTcp : UInt8 := 6

def protoUdp : UInt8 := 17

/-- `Duration::from_secs`, in nanoseconds. -/
def fromSecs (secs : Nat) : Nat := secs * 1000000000

/-- A key of the forward map: it names the transport protocol of its flow. -/
class FlowKey (κ : Type) where
  proto : κ → UInt8

structure ConntrackEntry (κ : Type) where
  /-- External port (or ICMP id) assigned to this flow. -/
  extPort : UInt16
  /-- When this entry was last used, in nanoseconds. -/
  lastSeen : Nat
  /-- The original source, for the reverse mapping. -/
  flow : κ
  deriving DecidableEq

/-- `Inner` and `InnerV6`: the state behind the engine's mutex. -/
structure Inner (κ : Type) where
  forward : HashMap κ (ConntrackEntry κ)
  reverse : HashMap (UInt8 × UInt16) κ
  ports : PortPool

namespace Inner

variable {κ : Type} [DecidableEq κ] [FlowKey κ]

def new : Inner κ := ⟨HashMap.empty, HashMap.empty, PortPool.new⟩

/-- The table part of `translate_outbound`: look up or create the entry of a
flow. -/
def lookupOrCreate (allocate : PortPool → Option UInt16 × PortPool) (t : Inner κ) (key : κ)
    (now : Nat) : Except GatewayError UInt16 × Inner κ :=
  match t.forward.get key with
  | some entry =>
      (.ok entry.extPort,
        { t with forward := t.forward.insert key { entry with lastSeen := now } })
  | none =>
      match allocate t.ports with
      | (none, ports) => (.error .conntrackFull, { t with ports := ports })
      | (some extPort, ports) =>
          (.ok extPort,
            { forward := t.forward.insert key ⟨extPort, now, key⟩
              reverse := t.reverse.insert (FlowKey.proto key, extPort) key
              ports := ports })

/-- The table part of `translate_inbound`: the entry a reply belongs to. -/
def lookupReverse (t : Inner κ) (proto : UInt8) (dstPort : UInt16) (now : Nat) :
    Except GatewayError (ConntrackEntry κ) × Inner κ :=
  match t.reverse.get (proto, dstPort) with
  | none => (.error (.noConntrackEntry proto dstPort), t)
  | some key =>
      match t.forward.get key with
      | none => (.error (.noConntrackEntry proto dstPort), t)
      | some entry =>
          (.ok entry, { t with forward := t.forward.insert key { entry with lastSeen := now } })

def removeEntry (t : Inner κ) (key : κ) : Inner κ :=
  match t.forward.get key with
  | none => t
  | some entry =>
      { forward := t.forward.remove key
        reverse := t.reverse.remove (FlowKey.proto entry.flow, entry.extPort)
        ports := t.ports.release entry.extPort }

/-- `is_expired`; `elapsed` saturates at zero. -/
def isExpired (idleTimeout : UInt8 → Nat) (now : Nat) (entry : ConntrackEntry κ) : Bool :=
  now - entry.lastSeen > idleTimeout (FlowKey.proto entry.flow)

/-- `cleanup_expired`. -/
def cleanupExpired (idleTimeout : UInt8 → Nat) (t : Inner κ) (now : Nat) : Inner κ :=
  let expired := (t.forward.iter.filter fun kv => isExpired idleTimeout now kv.2).map Prod.fst
  expired.foldl removeEntry t

/-! ## The invariant -/

/-- The maps are mutually inverse, the pool records exactly the ports of the
entries, and no port is given to two flows. -/
structure Consistent (t : Inner κ) : Prop where
  flow_eq : ∀ {k e}, t.forward.get k = some e → e.flow = k
  reverse_of_forward : ∀ {k e}, t.forward.get k = some e →
    t.reverse.get (FlowKey.proto k, e.extPort) = some k
  forward_of_reverse : ∀ {proto port k}, t.reverse.get (proto, port) = some k →
    proto = FlowKey.proto k ∧ ∃ e, t.forward.get k = some e ∧ e.extPort = port
  inUse_iff : ∀ port, t.ports.inUse.get port = some () ↔
    ∃ k e, t.forward.get k = some e ∧ e.extPort = port
  extPort_inj : ∀ {k k' e e'}, t.forward.get k = some e → t.forward.get k' = some e' →
    e.extPort = e'.extPort → k = k'
  inRange : ∀ {k e}, t.forward.get k = some e → PortPool.InRange e.extPort
  next_inRange : PortPool.InRange t.ports.next

theorem consistent_new : Consistent (new : Inner κ) where
  flow_eq h := by simp [new] at h
  reverse_of_forward h := by simp [new] at h
  forward_of_reverse h := by simp [new] at h
  inUse_iff port := by simp [new, PortPool.new]
  extPort_inj h := by simp [new] at h
  inRange h := by simp [new] at h
  next_inRange := by
    show PortPool.InRange portMin
    decide

/-- Two tables that differ in time stamps only. -/
structure SameFlows (t t' : Inner κ) : Prop where
  reverse_eq : t'.reverse = t.reverse
  ports_eq : t'.ports = t.ports
  forward_eq : ∀ k, (t'.forward.get k).map (fun e => (e.extPort, e.flow)) =
    (t.forward.get k).map (fun e => (e.extPort, e.flow))

variable {t : Inner κ} {key : κ}

omit [FlowKey κ] in
theorem SameFlows.exists_entry {t' : Inner κ} (h : SameFlows t t') {k : κ} {e' : ConntrackEntry κ}
    (he' : t'.forward.get k = some e') :
    ∃ e, t.forward.get k = some e ∧ e.extPort = e'.extPort ∧ e.flow = e'.flow := by
  have hk := h.forward_eq k
  rw [he', Option.map_some, eq_comm, Option.map_eq_some_iff] at hk
  obtain ⟨e, he, heq⟩ := hk
  exact ⟨e, he, congrArg Prod.fst heq, congrArg Prod.snd heq⟩

omit [FlowKey κ] in
theorem SameFlows.symm {t t' : Inner κ} (h : SameFlows t t') : SameFlows t' t :=
  ⟨h.reverse_eq.symm, h.ports_eq.symm, fun k => (h.forward_eq k).symm⟩

omit [FlowKey κ] in
theorem sameFlows_touch {t : Inner κ} {key : κ} {entry : ConntrackEntry κ}
    (h : t.forward.get key = some entry) (now : Nat) :
    SameFlows t { t with forward := t.forward.insert key { entry with lastSeen := now } } := by
  refine ⟨rfl, rfl, fun k => ?_⟩
  rw [get_insert]
  split
  · rename_i hk
    rw [hk, h]
    rfl
  · rfl

theorem Consistent.of_sameFlows {t' : Inner κ} (hc : Consistent t) (h : SameFlows t t') :
    Consistent t' := by
  constructor
  case flow_eq =>
      intro k e' he'
      obtain ⟨e, he, _, hflow⟩ := h.exists_entry he'
      exact hflow ▸ hc.flow_eq he
  case reverse_of_forward =>
      intro k e' he'
      obtain ⟨e, he, hport, _⟩ := h.exists_entry he'
      rw [h.reverse_eq, ← hport]
      exact hc.reverse_of_forward he
  case forward_of_reverse =>
      intro proto port k hrev
      rw [h.reverse_eq] at hrev
      obtain ⟨hproto, e, he, hport⟩ := hc.forward_of_reverse hrev
      obtain ⟨e', he', hport', _⟩ := h.symm.exists_entry he
      exact ⟨hproto, e', he', hport'.trans hport⟩
  case inUse_iff =>
      intro port
      rw [h.ports_eq, hc.inUse_iff port]
      constructor
      · rintro ⟨k, e, he, hport⟩
        obtain ⟨e', he', hport', _⟩ := h.symm.exists_entry he
        exact ⟨k, e', he', hport'.trans hport⟩
      · rintro ⟨k, e', he', hport⟩
        obtain ⟨e, he, hport', _⟩ := h.exists_entry he'
        exact ⟨k, e, he, hport'.trans hport⟩
  case extPort_inj =>
      intro k k' e₁ e₂ he₁ he₂ hport
      obtain ⟨f₁, hf₁, hp₁, _⟩ := h.exists_entry he₁
      obtain ⟨f₂, hf₂, hp₂, _⟩ := h.exists_entry he₂
      exact hc.extPort_inj hf₁ hf₂ (by rw [hp₁, hp₂, hport])
  case inRange =>
      intro k e' he'
      obtain ⟨e, he, hport, _⟩ := h.exists_entry he'
      exact hport ▸ hc.inRange he
  case next_inRange =>
      rw [h.ports_eq]
      exact hc.next_inRange

/-- A flow without an entry takes a port that is in nobody's use. -/
theorem Consistent.create (hc : Consistent t) {port : UInt16} (hnew : t.forward.get key = none)
    (hfree : t.ports.firstFree = some port) (now : Nat) :
    Consistent
      { forward := t.forward.insert key ⟨port, now, key⟩
        reverse := t.reverse.insert (FlowKey.proto key, port) key
        ports := { next := nextPort port, inUse := t.ports.inUse.insert port () } } := by
  obtain ⟨hrange, hunused⟩ := firstFree_spec hc.next_inRange hfree
  -- no old entry has the new port, and so no old reverse entry either
  have hother : ∀ {k e}, t.forward.get k = some e → e.extPort ≠ port := by
    intro k e he heq
    rw [(hc.inUse_iff port).mpr ⟨k, e, he, heq⟩] at hunused
    cases hunused
  have hkept : ∀ {k e}, t.forward.get k = some e →
      (t.forward.insert key ⟨port, now, key⟩).get k = some e := by
    intro k e he
    rw [get_insert_ne]
    · exact he
    · rintro rfl
      rw [hnew] at he
      cases he
  constructor
  case flow_eq =>
      intro k e he
      rcases get_insert_cases he with ⟨rfl, rfl⟩ | ⟨_, hold⟩
      · rfl
      · exact hc.flow_eq hold
  case reverse_of_forward =>
      intro k e he
      rcases get_insert_cases he with ⟨rfl, rfl⟩ | ⟨_, hold⟩
      · exact get_insert_self _ _ _
      · rw [get_insert_ne]
        · exact hc.reverse_of_forward hold
        · intro heq
          exact hother hold (congrArg Prod.snd heq)
  case forward_of_reverse =>
      intro proto p k hrev
      rcases get_insert_cases hrev with ⟨heq, rfl⟩ | ⟨_, hold⟩
      · cases heq
        exact ⟨rfl, _, get_insert_self _ _ _, rfl⟩
      · obtain ⟨hproto, e, he, hport⟩ := hc.forward_of_reverse hold
        exact ⟨hproto, e, hkept he, hport⟩
  case inUse_iff =>
      intro p
      rw [get_insert]
      split
      · rename_i hp
        subst hp
        exact ⟨fun _ => ⟨key, _, get_insert_self _ _ _, rfl⟩, fun _ => rfl⟩
      · rename_i hp
        rw [hc.inUse_iff p]
        constructor
        · rintro ⟨k, e, he, rfl⟩
          exact ⟨k, e, hkept he, rfl⟩
        · rintro ⟨k, e, he, rfl⟩
          rcases get_insert_cases he with ⟨rfl, rfl⟩ | ⟨_, hold⟩
          · exact absurd rfl hp
          · exact ⟨k, e, hold, rfl⟩
  case extPort_inj =>
      intro k k' e e' he he' hport
      rcases get_insert_cases he with ⟨rfl, rfl⟩ | ⟨_, hold⟩ <;>
        rcases get_insert_cases he' with ⟨rfl, rfl⟩ | ⟨_, hold'⟩
      · rfl
      · exact absurd hport.symm (hother hold')
      · exact absurd hport (hother hold)
      · exact hc.extPort_inj hold hold' hport
  case inRange =>
      intro k e he
      rcases get_insert_cases he with ⟨rfl, rfl⟩ | ⟨_, hold⟩
      · exact hrange
      · exact hc.inRange hold
  case next_inRange => exact inRange_nextPort hrange

theorem Consistent.removeEntry (hc : Consistent t) (key : κ) : Consistent (t.removeEntry key) := by
  unfold Inner.removeEntry
  split
  · exact hc
  rename_i entry hentry
  have hflow := hc.flow_eq hentry
  -- the port of another flow is not the one that is released
  have hother : ∀ {k e}, k ≠ key → t.forward.get k = some e → e.extPort ≠ entry.extPort :=
    fun hk he heq => hk (hc.extPort_inj he hentry heq)
  have hkept : ∀ {k e}, k ≠ key → t.forward.get k = some e →
      (t.forward.remove key).get k = some e := by
    intro k e hk he
    rw [get_remove_ne _ hk]
    exact he
  constructor
  case flow_eq => exact fun he => hc.flow_eq (get_of_get_remove he)
  case reverse_of_forward =>
      intro k e he
      obtain ⟨hk, hold⟩ := get_remove_cases he
      rw [get_remove_ne]
      · exact hc.reverse_of_forward hold
      · intro heq
        exact hother hk hold (congrArg Prod.snd heq)
  case forward_of_reverse =>
      intro proto p k hrev
      obtain ⟨hne, hold⟩ := get_remove_cases hrev
      obtain ⟨hproto, e, he, hport⟩ := hc.forward_of_reverse hold
      refine ⟨hproto, e, hkept ?_ he, hport⟩
      rintro rfl
      obtain rfl : e = entry := Option.some.inj (he.symm.trans hentry)
      exact hne (by rw [hproto, hflow, hport])
  case inUse_iff =>
      intro p
      show (t.ports.inUse.remove entry.extPort).get p = some () ↔ _
      rw [get_remove]
      split
      · rename_i hp
        constructor
        · intro h
          cases h
        · rintro ⟨k, e, he, hport⟩
          obtain ⟨hk, hold⟩ := get_remove_cases he
          exact absurd (hport.trans hp) (hother hk hold)
      · rename_i hp
        rw [hc.inUse_iff p]
        constructor
        · rintro ⟨k, e, he, rfl⟩
          refine ⟨k, e, hkept ?_ he, rfl⟩
          rintro rfl
          exact hp (congrArg ConntrackEntry.extPort (Option.some.inj (he.symm.trans hentry)))
        · rintro ⟨k, e, he, hport⟩
          exact ⟨k, e, get_of_get_remove he, hport⟩
  case extPort_inj =>
      intro k k' e e' he he' hport
      exact hc.extPort_inj (get_of_get_remove he) (get_of_get_remove he') hport
  case inRange => exact fun he => hc.inRange (get_of_get_remove he)
  case next_inRange => exact hc.next_inRange

/-! ## Ports -/

/-- The external port a flow has, or would be given. -/
def portFor (t : Inner κ) (key : κ) : Option UInt16 :=
  match t.forward.get key with
  | some entry => some entry.extPort
  | none => t.ports.firstFree

theorem Consistent.inRange_of_portFor (hc : Consistent t) {port : UInt16}
    (h : t.portFor key = some port) : PortPool.InRange port := by
  unfold portFor at h
  split at h
  · rename_i entry hentry
    cases h
    exact hc.inRange hentry
  · exact (firstFree_spec hc.next_inRange h).1

theorem Consistent.inRange_of_reverse (hc : Consistent t) {reply : UInt8 × UInt16}
    (h : t.reverse.get reply = some key) : PortPool.InRange reply.2 := by
  obtain ⟨-, entry, hentry, hport⟩ := hc.forward_of_reverse h
  rw [← hport]
  exact hc.inRange hentry

/-! ## Runs -/

/-- What a call of an engine does to the table. -/
inductive Op (κ : Type) where
  /-- `translate_outbound` of a packet of the flow. -/
  | outbound (key : κ) (now : Nat)
  /-- `translate_inbound` of a reply. -/
  | inbound (proto : UInt8) (dstPort : UInt16) (now : Nat)
  /-- `cleanup_expired`. -/
  | cleanup (now : Nat)
  /-- A call that ends before it takes the lock. -/
  | refused

section Run

variable (allocate : PortPool → Option UInt16 × PortPool) (idleTimeout : UInt8 → Nat)

def apply (t : Inner κ) : Op κ → Inner κ
  | .outbound key now => (t.lookupOrCreate allocate key now).2
  | .inbound proto dstPort now => (t.lookupReverse proto dstPort now).2
  | .cleanup now => t.cleanupExpired idleTimeout now
  | .refused => t

def run (t : Inner κ) (ops : List (Op κ)) : Inner κ := ops.foldl (apply allocate idleTimeout) t

variable {allocate}
variable {t : Inner κ} {k : κ} {e : ConntrackEntry κ}

omit [FlowKey κ] in
/-- `lookupReverse` only stamps the entry it finds. -/
theorem sameFlows_lookupReverse (t : Inner κ) (proto : UInt8) (dstPort : UInt16) (now : Nat) :
    SameFlows t (t.lookupReverse proto dstPort now).2 := by
  unfold lookupReverse
  split
  · exact ⟨rfl, rfl, fun _ => rfl⟩
  · split
    · exact ⟨rfl, rfl, fun _ => rfl⟩
    · rename_i hget
      exact sameFlows_touch hget now

/-- What removing one entry keeps, the cleanup keeps. -/
theorem cleanupExpired_keeps {P : Inner κ → Prop} (hremove : ∀ t key, P t → P (t.removeEntry key))
    (h : P t) (now : Nat) : P (t.cleanupExpired idleTimeout now) := by
  unfold cleanupExpired
  generalize (t.forward.iter.filter fun kv => isExpired idleTimeout now kv.2).map Prod.fst = ks
  induction ks generalizing t with
  | nil => exact h
  | cons key ks ih => exact ih (hremove t key h)

theorem Consistent.cleanupExpired (hc : Consistent t) (now : Nat) :
    Consistent (t.cleanupExpired idleTimeout now) :=
  cleanupExpired_keeps idleTimeout (fun _ key hc => hc.removeEntry key) hc now

/-- The maps of one table hold no more than those of the other. -/
structure Within (t' t : Inner κ) : Prop where
  forward : ∀ {k e}, t'.forward.get k = some e → t.forward.get k = some e
  reverse : ∀ {q k}, t'.reverse.get q = some k → t.reverse.get q = some k

theorem within_cleanupExpired (t : Inner κ) (now : Nat) :
    Within (t.cleanupExpired idleTimeout now) t := by
  refine cleanupExpired_keeps idleTimeout (P := (Within · t)) (fun t' key ih => ?_) ⟨id, id⟩ now
  unfold removeEntry
  split
  · exact ih
  · exact ⟨fun h => ih.forward (get_of_get_remove h), fun h => ih.reverse (get_of_get_remove h)⟩

variable (halloc : ∀ pool, PortPool.InRange pool.next → allocate pool = pool.allocated)
  (hc : Consistent t)

include halloc hc

theorem lookupOrCreate_cases (key : κ) (now : Nat) :
    (∃ entry, t.forward.get key = some entry ∧
      t.lookupOrCreate allocate key now = (.ok entry.extPort,
        { t with forward := t.forward.insert key { entry with lastSeen := now } })) ∨
    (∃ port, t.forward.get key = none ∧ t.ports.firstFree = some port ∧
      t.lookupOrCreate allocate key now = (.ok port,
        { forward := t.forward.insert key ⟨port, now, key⟩
          reverse := t.reverse.insert (FlowKey.proto key, port) key
          ports := { next := nextPort port
                     inUse := t.ports.inUse.insert port () } })) ∨
    (t.forward.get key = none ∧ t.ports.firstFree = none ∧
      t.lookupOrCreate allocate key now = (.error .conntrackFull, t)) := by
  unfold lookupOrCreate
  cases hget : t.forward.get key with
  | some entry => exact .inl ⟨entry, rfl, rfl⟩
  | none =>
    refine .inr ?_
    rw [halloc _ hc.next_inRange]
    unfold allocated
    cases hfree : t.ports.firstFree with
    | some port => exact .inl ⟨port, rfl, rfl, rfl⟩
    | none => exact .inr ⟨rfl, rfl, rfl⟩

theorem lookupOrCreate_fst (key : κ) (now : Nat) :
    (t.lookupOrCreate allocate key now).1 =
      match t.portFor key with
      | some port => .ok port
      | none => .error .conntrackFull := by
  unfold portFor
  rcases lookupOrCreate_cases halloc hc key now with
    ⟨entry, hget, heq⟩ | ⟨port, hget, hfree, heq⟩ | ⟨hget, hfree, heq⟩
  · rw [heq, hget]
  · rw [heq, hget, hfree]
  · rw [heq, hget, hfree]

theorem forward_lookupOrCreate {key : κ} {port : UInt16} (h : t.portFor key = some port)
    (now : Nat) :
    ∃ e, (t.lookupOrCreate allocate key now).2.forward.get key = some e ∧ e.extPort = port := by
  unfold portFor at h
  rcases lookupOrCreate_cases halloc hc key now with
    ⟨entry, hget, heq⟩ | ⟨port', hget, hfree, heq⟩ | ⟨hget, hfree, heq⟩
  · rw [hget] at h
    rw [heq]
    exact ⟨_, get_insert_self _ _ _, Option.some.inj h⟩
  · rw [hget, hfree] at h
    rw [heq]
    exact ⟨_, get_insert_self _ _ _, Option.some.inj h⟩
  · rw [hget, hfree] at h
    cases h

theorem Consistent.apply (op : Op κ) : Consistent (t.apply allocate idleTimeout op) := by
  cases op with
  | outbound key now =>
    show Consistent (t.lookupOrCreate allocate key now).2
    rcases lookupOrCreate_cases halloc hc key now with
      ⟨entry, hget, heq⟩ | ⟨port, hget, hfree, heq⟩ | ⟨_, _, heq⟩
    · rw [heq]
      exact hc.of_sameFlows (sameFlows_touch hget now)
    · rw [heq]
      exact hc.create hget hfree now
    · rw [heq]
      exact hc
  | inbound proto dstPort now =>
    exact hc.of_sameFlows (sameFlows_lookupReverse t proto dstPort now)
  | cleanup now => exact hc.cleanupExpired idleTimeout now
  | refused => exact hc

theorem Consistent.run (ops : List (Op κ)) : Consistent (t.run allocate idleTimeout ops) := by
  induction ops generalizing t with
  | nil => exact hc
  | cons op ops ih => exact ih (hc.apply idleTimeout halloc op)

/-! ## A flow keeps its port -/

theorem extPort_apply (op : Op κ) {e' : ConntrackEntry κ} (he : t.forward.get k = some e)
    (he' : (t.apply allocate idleTimeout op).forward.get k = some e') : e'.extPort = e.extPort := by
  have hsame : ∀ {t' : Inner κ}, SameFlows t t' → t'.forward.get k = some e' →
      e'.extPort = e.extPort := by
    intro t' hflows hget
    obtain ⟨e₀, he₀, hport, _⟩ := hflows.exists_entry hget
    obtain rfl : e₀ = e := Option.some.inj (he₀.symm.trans he)
    exact hport.symm
  cases op with
  | outbound key now =>
    rcases lookupOrCreate_cases halloc hc key now with
      ⟨entry, hget, heq⟩ | ⟨port, hget, hfree, heq⟩ | ⟨_, _, heq⟩
    · rw [apply, heq] at he'
      exact hsame (sameFlows_touch hget now) he'
    · rw [apply, heq] at he'
      have hne : k ≠ key := by
        rintro rfl
        rw [hget] at he
        cases he
      rw [get_insert_ne _ _ hne, he] at he'
      rw [Option.some.inj he']
    · rw [apply, heq, he] at he'
      rw [Option.some.inj he']
  | inbound proto dstPort now => exact hsame (sameFlows_lookupReverse t proto dstPort now) he'
  | cleanup now =>
    have hold := (within_cleanupExpired idleTimeout t now).forward he'
    rw [he] at hold
    rw [Option.some.inj hold]
  | refused =>
    rw [apply, he] at he'
    rw [Option.some.inj he']

/-- A port that leads to a flow after a call did so before, or was free and is given to the
flow of the call. -/
theorem reverse_apply (op : Op κ) {q : UInt8 × UInt16}
    (h : (t.apply allocate idleTimeout op).reverse.get q = some k) :
    t.reverse.get q = some k ∨ t.reverse.get q = none ∧ ∃ now, op = .outbound k now := by
  cases op with
  | outbound key now =>
    rcases lookupOrCreate_cases halloc hc key now with
      ⟨entry, hget, heq⟩ | ⟨port, hget, hfree, heq⟩ | ⟨_, _, heq⟩
    · rw [apply, heq] at h
      exact .inl h
    · rw [apply, heq] at h
      rcases get_insert_cases h with ⟨rfl, rfl⟩ | ⟨_, hold⟩
      · refine .inr ⟨?_, now, rfl⟩
        -- a port in the reverse map is in use, and the new one is not
        refine Option.eq_none_iff_forall_ne_some.mpr fun held hrev => ?_
        obtain ⟨_, e, he, hport⟩ := hc.forward_of_reverse hrev
        have hunused := (firstFree_spec hc.next_inRange hfree).2
        rw [(hc.inUse_iff port).mpr ⟨held, e, he, hport⟩] at hunused
        cases hunused
      · exact .inl hold
    · rw [apply, heq] at h
      exact .inl h
  | inbound proto dstPort now =>
    rw [apply, (sameFlows_lookupReverse t proto dstPort now).reverse_eq] at h
    exact .inl h
  | cleanup now => exact .inl ((within_cleanupExpired idleTimeout t now).reverse h)
  | refused => exact .inl h

/-- The entry of a flow is there after every prefix of a run: no cleanup has
removed it. -/
def HeldThroughout (allocate : PortPool → Option UInt16 × PortPool) (idleTimeout : UInt8 → Nat)
    (t : Inner κ) (ops : List (Op κ)) (k : κ) : Prop :=
  ∀ ops', ops' <+: ops → ∃ e, (t.run allocate idleTimeout ops').forward.get k = some e

/-- A flow keeps its port for as long as its entry is held. -/
theorem extPort_run (ops : List (Op κ)) (he : t.forward.get k = some e)
    (hheld : HeldThroughout allocate idleTimeout t ops k) :
    ∃ e', (t.run allocate idleTimeout ops).forward.get k = some e' ∧ e'.extPort = e.extPort := by
  induction ops generalizing t e with
  | nil => exact ⟨e, he, rfl⟩
  | cons op ops ih =>
    obtain ⟨e₁, he₁⟩ := hheld [op] (by simp)
    have hport := extPort_apply idleTimeout halloc hc op he he₁
    have hrest : HeldThroughout allocate idleTimeout (t.apply allocate idleTimeout op) ops k :=
      fun ops' hprefix => hheld (op :: ops') ((List.prefix_cons_inj op).mpr hprefix)
    obtain ⟨e', he', hport'⟩ := ih (hc.apply idleTimeout halloc op) he₁ hrest
    exact ⟨e', he', hport'.trans hport⟩

end Run

end Inner

end ProximityMesh.Gateway
