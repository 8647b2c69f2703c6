/-
  Daemon/RateLimit.lean --- how many frames of a connection the event loop processes.

  Source: crates/pim-daemon/src/rate_limiter.rs, the head of the receive branch of
  `run_event_loop` (app/event_loop.rs) and `remove_peer` (peer_tasks.rs).

  The loop asks the limiter about each frame it takes up, under the id the frame is tagged
  with.  The bucket of an id holds a burst and refills at a rate, so the frames under one
  id are bounded in every interval, as long as the bucket is there.  But `remove_peer`
  throws it away, a Goodbye frame calls `remove_peer`, and the read task of the connection
  goes on.

  Runs are those of the daemon with a record of what the limiter answers (`Metered`), which
  no task reads (`projects_start`), and a clock that does not go back.
-/
import ProximityMesh.Daemon.Identity
import ProximityMesh.Foundation.Refill

set_option autoImplicit false

namespace ProximityMesh.Daemon

open Protocol Transport Crypto Routing ProximityMesh.Task RateLimiter TokenBucket List HashMap

/-! ## Buckets -/

namespace TokenBucket

/-- The tokens of a bucket, refilled up to now. -/
def level (b : TokenBucket) (now : Nat) : ℚ :=
  min (b.tokens + ((now - b.lastRefill : Nat) : ℚ) / 1000000000 * b.refillRate) b.capacity.toNat

theorem tryConsume_eq (b : TokenBucket) (now : Nat) :
    b.tryConsume now =
      if 1 ≤ b.level now then (true, { b with tokens := b.level now - 1, lastRefill := now })
      else (false, { b with tokens := b.level now, lastRefill := now }) := rfl

theorem level_le_capacity (b : TokenBucket) (now : Nat) : b.level now ≤ b.capacity.toNat :=
  min_le_right _ _

theorem level_of_lastRefill {b : TokenBucket} {now : Nat} (hat : b.lastRefill = now)
    (hle : b.tokens ≤ b.capacity.toNat) : b.level now = b.tokens := by
  rw [level, hat, Nat.sub_self, Nat.cast_zero, zero_div, zero_mul, add_zero, min_eq_left hle]

/-- Whoever is let through takes one token, and nobody else takes any. -/
theorem level_tryConsume (b : TokenBucket) (now : Nat) :
    ((if (b.tryConsume now).1 then 1 else 0 : ℕ) : ℚ) + (b.tryConsume now).2.level now =
      b.level now := by
  have hle := b.level_le_capacity now
  rw [tryConsume_eq]
  split
  · rw [level_of_lastRefill rfl (by dsimp only; linarith)]
    simp
  · rw [level_of_lastRefill rfl hle]
    simp

theorem level_le_add {b : TokenBucket} (hrate : 0 ≤ b.refillRate) {now later : Nat}
    (h : now ≤ later) :
    b.level later ≤ b.level now +
      b.refillRate * ((later : ℚ) / 1000000000 - (now : ℚ) / 1000000000) := by
  have helapsed : ((later - b.lastRefill : Nat) : ℚ) ≤
      ((now - b.lastRefill : Nat) : ℚ) + (later - now) := by
    have hnat : later - b.lastRefill ≤ now - b.lastRefill + (later - now) := by omega
    have hcast : ((later - now : Nat) : ℚ) = later - now := Nat.cast_sub h
    exact_mod_cast hnat
  have hgain : ((later - b.lastRefill : Nat) : ℚ) / 1000000000 * b.refillRate ≤
      ((now - b.lastRefill : Nat) : ℚ) / 1000000000 * b.refillRate +
        b.refillRate * (later / 1000000000 - now / 1000000000) := by
    calc ((later - b.lastRefill : Nat) : ℚ) / 1000000000 * b.refillRate
        ≤ (((now - b.lastRefill : Nat) : ℚ) + (later - now)) / 1000000000 * b.refillRate := by
          gcongr
      _ = _ := by ring
  have hmore : 0 ≤ b.refillRate * (later / 1000000000 - now / 1000000000) := by
    refine mul_nonneg hrate (sub_nonneg.mpr ?_)
    gcongr
  unfold level
  rw [min_add]
  refine le_min ?_ ?_
  · exact (min_le_left _ _).trans (by linarith)
  · exact (min_le_right _ _).trans (by linarith)

/-- The bucket is one of a limiter with this capacity and rate. -/
structure Sound (capacity : UInt32) (refillRate : ℚ) (b : TokenBucket) : Prop where
  capacity : b.capacity = capacity
  refillRate : b.refillRate = refillRate
  tokens : 0 ≤ b.tokens

variable {capacity : UInt32} {refillRate : ℚ} {b : TokenBucket}

theorem sound_new (now : Nat) : (new capacity refillRate now).Sound capacity refillRate :=
  ⟨rfl, rfl, Nat.cast_nonneg _⟩

theorem Sound.level_nonneg (h : b.Sound capacity refillRate) (hrate : 0 ≤ refillRate) (now : Nat) :
    0 ≤ b.level now := by
  have hgain : 0 ≤ ((now - b.lastRefill : Nat) : ℚ) / 1000000000 * b.refillRate :=
    mul_nonneg (by positivity) (h.refillRate ▸ hrate)
  exact le_min (add_nonneg h.tokens hgain) (Nat.cast_nonneg _)

theorem Sound.tryConsume (h : b.Sound capacity refillRate) (hrate : 0 ≤ refillRate) (now : Nat) :
    (b.tryConsume now).2.Sound capacity refillRate := by
  rw [tryConsume_eq]
  split
  · rename_i hle
    exact ⟨h.capacity, h.refillRate, sub_nonneg.mpr hle⟩
  · exact ⟨h.capacity, h.refillRate, h.level_nonneg hrate now⟩

end TokenBucket

/-! ## The limiter -/

namespace RateLimiter

/-- The bucket that `allow` looks at: that of the peer, or a new one. -/
def bucket (r : RateLimiter) (now : Nat) (peerId : NodeId) : TokenBucket :=
  (r.buckets.get peerId).getD (TokenBucket.new r.capacity r.refillRate now)

/-- How many frames of the peer would be let through now. -/
def level (r : RateLimiter) (now : Nat) (peerId : NodeId) : ℚ := (r.bucket now peerId).level now

structure Sound (r : RateLimiter) : Prop where
  capacity : r.capacity = RateLimiter.default.capacity
  refillRate : r.refillRate = RateLimiter.default.refillRate
  buckets : ∀ peerId b, r.buckets.get peerId = some b →
    b.Sound RateLimiter.default.capacity RateLimiter.default.refillRate

theorem refillRate_nonneg : 0 ≤ default.refillRate := by decide +kernel

theorem sound_default : default.Sound := ⟨rfl, rfl, fun _ _ h => nomatch h⟩

variable {r : RateLimiter}

theorem Sound.bucket (h : r.Sound) (now : Nat) (peerId : NodeId) :
    (r.bucket now peerId).Sound default.capacity default.refillRate := by
  unfold RateLimiter.bucket
  cases hget : r.buckets.get peerId with
  | some b => exact h.buckets peerId b hget
  | none =>
    rw [h.capacity, h.refillRate]
    exact sound_new now

theorem Sound.allow (h : r.Sound) (now : Nat) (peerId : NodeId) : (r.allow now peerId).2.Sound := by
  refine ⟨h.capacity, h.refillRate, fun q b hb => ?_⟩
  rcases get_insert_cases hb with ⟨-, rfl⟩ | ⟨-, hold⟩
  · exact (h.bucket now peerId).tryConsume refillRate_nonneg now
  · exact h.buckets q b hold

theorem Sound.removePeer (h : r.Sound) (peerId : NodeId) : (r.removePeer peerId).Sound :=
  ⟨h.capacity, h.refillRate, fun q b hb => h.buckets q b (get_of_get_remove hb)⟩

theorem Sound.level_bounds (h : r.Sound) (now : Nat) (peerId : NodeId) :
    0 ≤ r.level now peerId ∧ r.level now peerId ≤ default.capacity.toNat := by
  have hbucket := h.bucket now peerId
  refine ⟨hbucket.level_nonneg refillRate_nonneg now, ?_⟩
  rw [← hbucket.capacity]
  exact level_le_capacity _ now

theorem Sound.level_le_add (h : r.Sound) (peerId : NodeId) {now later : Nat} (hle : now ≤ later) :
    r.level later peerId ≤ r.level now peerId + default.refillRate *
      ((later : ℚ) / 1000000000 - (now : ℚ) / 1000000000) := by
  cases hget : r.buckets.get peerId with
  | some b =>
    have hb := h.buckets peerId b hget
    have hrise := TokenBucket.level_le_add (hb.refillRate ▸ refillRate_nonneg) hle
    rw [hb.refillRate] at hrise
    simpa only [RateLimiter.level, RateLimiter.bucket, hget, Option.getD_some] using hrise
  | none =>
    -- a bucket that is not there counts as full
    have hfull (now : Nat) : r.level now peerId = default.capacity.toNat := by
      have hnew : r.bucket now peerId = new r.capacity r.refillRate now := by
        rw [RateLimiter.bucket, hget, Option.getD_none]
      have hlevel : (new r.capacity r.refillRate now).level now = r.capacity.toNat :=
        level_of_lastRefill rfl (le_refl _)
      rw [level, hnew, hlevel, h.capacity]
    rw [hfull, hfull]
    refine le_add_of_nonneg_right (mul_nonneg refillRate_nonneg (sub_nonneg.mpr ?_))
    gcongr

theorem level_of_buckets {buckets : HashMap NodeId TokenBucket} {peerId : NodeId}
    (hget : buckets.get peerId = r.buckets.get peerId) (now : Nat) :
    level { r with buckets } now peerId = r.level now peerId := by
  rw [level, level, bucket, bucket, hget]

theorem allow_eq_true {now : Nat} {peerId : NodeId} (h : 1 ≤ r.level now peerId) :
    (r.allow now peerId).1 = true := by
  show ((r.bucket now peerId).tryConsume now).1 = true
  exact congrArg Prod.fst (if_pos h)

/-- A frame that is let through takes one token of its own peer. -/
theorem level_allow_self (now : Nat) (peerId : NodeId) :
    ((if (r.allow now peerId).1 then 1 else 0 : ℕ) : ℚ) + (r.allow now peerId).2.level now peerId =
      r.level now peerId := by
  have hbucket : (r.allow now peerId).2.bucket now peerId =
      ((r.bucket now peerId).tryConsume now).2 := by
    have hget : (r.allow now peerId).2.buckets.get peerId = _ := get_insert_self _ _ _
    rw [bucket, hget]
    rfl
  rw [level, hbucket]
  exact level_tryConsume _ now

theorem level_allow_ne {peerId q : NodeId} (h : q ≠ peerId) (now : Nat) :
    (r.allow now peerId).2.level now q = r.level now q :=
  level_of_buckets (get_insert_ne r.buckets _ h) now

theorem level_removePeer {peerId q : NodeId} (h : q ≠ peerId ∨ r.buckets.get q = none) (now : Nat) :
    (r.removePeer peerId).level now q = r.level now q := by
  refine level_of_buckets ?_ now
  by_cases hq : q = peerId
  · subst hq
    rw [h.resolve_left (fun hne => hne rfl)]
    exact get_remove_self r.buckets q
  · exact get_remove_ne r.buckets hq

end RateLimiter

/-! ## The daemon with a record of the answers -/

/-- What the limiter answered about a frame. -/
structure Answer where
  conn : ConnId
  peer : NodeId
  now : Nat
  allowed : Bool

/-- Seconds. -/
def Answer.time (a : Answer) : ℚ := (a.now : ℚ) / 1000000000

/-- A frame of the connection is let through, in the interval of length `d` from `t` on. -/
def Answer.processedIn (conn : ConnId) (t d : ℚ) (a : Answer) : Bool :=
  a.conn == conn && a.allowed && decide (t ≤ a.time ∧ a.time ≤ t + d)

/-- The daemon, when its limiter was last asked, and what it answered. -/
structure Metered where
  state : State
  clock : Nat
  answers : List Answer

/-- The frame that an event takes up. -/
def takenUp (s : State) : Event → Option Received
  | .frame => s.transport.incoming.head?
  | _ => none

namespace Metered

def onState {α : Type} (p : DaemonM α) : Task Input Metered α :=
  p.zoom Metered.state fun state m => { m with state }

/-- `rateLimit`, with the answer put down.  The clock does not go back. -/
def rateLimit (r : Received) : Task Input Metered Bool :=
  .await fun i m =>
    if m.clock ≤ i.now then
      let (allowed, rateLimiter) := m.state.rateLimiter.allow i.now r.peer
      some ({ state := { m.state with rateLimiter }
              clock := i.now
              answers := m.answers ++ [⟨r.conn, r.peer, i.now, allowed⟩] }, allowed)
    else none

section Loop

variable [Sha256] [Ed25519] [X25519] [HkdfSha256] [Aes256Gcm] [Blake3]

def boot (b : Boot) : Metered := ⟨b.state, 0, []⟩

/-- The iteration of the event loop that takes up a frame. -/
def frameTask (r : Received) : Task Input Metered Unit := do
  onState (iteration (afterLimit r (← rateLimit r)))

variable [HmacSha256]

def start (e : Event) (m : Metered) : Option (Metered × Task Input Metered Unit) :=
  (Daemon.start e m.state).map fun r =>
    ({ m with state := r.1 }, (takenUp m.state e).elim (onState r.2) frameTask)

/-- An event starts what it starts in the daemon; the frames it takes up are handled by
`handleFrame`. -/
theorem start_cases {e : Event} {m m' : Metered} {q : Task Input Metered Unit}
    (h : start e m = some (m', q)) : ∃ s' p, Daemon.start e m.state = some (s', p) ∧
      m' = { m with state := s' } ∧ ((e ≠ .frame ∧ q = onState p) ∨
        ∃ r ∈ m.state.transport.incoming.head?,
          p = iteration (handleFrame r) ∧ q = frameTask r) := by
  obtain ⟨⟨s', p⟩, hstart, heq⟩ := Option.map_eq_some_iff.mp h
  cases heq
  refine ⟨s', p, hstart, rfl, ?_⟩
  by_cases he : e = .frame
  · subst he
    simp only [Daemon.start] at hstart
    split at hstart
    · rename_i r incoming _ hincoming
      cases hstart
      exact .inr ⟨r, by rw [hincoming]; rfl, rfl, by rw [takenUp, hincoming]; rfl⟩
    · cases hstart
  · have hnone : takenUp m.state e = none := by
      cases e <;> first | rfl | exact absurd rfl he
    exact .inl ⟨he, by rw [hnone]; rfl⟩

/-- But for the record the tasks are those of the daemon. -/
theorem projects_start {e : Event} {m m' : Metered} {q : Task Input Metered Unit}
    (h : start e m = some (m', q)) : ∃ p, Daemon.start e m.state = some (m'.state, p) ∧
      q.Projects Metered.state Eq p := by
  obtain ⟨s', p, hstart, rfl, ⟨-, rfl⟩ | ⟨r, -, rfl, rfl⟩⟩ := start_cases h
  · exact ⟨p, hstart, projects_zoom (fun _ _ => rfl) p⟩
  · refine ⟨_, hstart, ?_⟩
    have hask : (rateLimit r).Projects Metered.state Eq (Daemon.rateLimit r.peer) := by
      intro i m m' hact
      obtain ⟨⟨_, _⟩, hasked, rfl⟩ := Option.map_eq_some_iff.mp hact
      obtain ⟨hclock, heq⟩ := Option.ite_none_right_eq_some.mp hasked
      cases heq
      refine .inr ⟨_, _, rfl, rfl, _, rfl, ?_⟩
      simp [if_pos hclock]
    show (rateLimit r >>= fun a => onState (iteration (afterLimit r a))).Projects _ _
      (Daemon.rateLimit r.peer >>= fun a => iteration (afterLimit r a))
    refine projects_bind hask fun a b hab => ?_
    subst hab
    exact projects_zoom (fun _ _ => rfl) (iteration (afterLimit r a))

end Loop

/-! ## What a step does to the limiter -/

/-- The limiter is asked about a frame, or at most a bucket is thrown away. -/
inductive LimiterStep (m m' : Metered) : Prop
  | asks (a : Answer) (hanswers : m'.answers = m.answers ++ [a]) (hclock : m.clock ≤ a.now)
      (hnow : m'.clock = a.now)
      (hallowed : a.allowed = (m.state.rateLimiter.allow a.now a.peer).1)
      (hlimiter : m'.state.rateLimiter = (m.state.rateLimiter.allow a.now a.peer).2)
  | keeps (hanswers : m'.answers = m.answers) (hclock : m'.clock = m.clock)
      (hlimiter : m'.state.rateLimiter = m.state.rateLimiter)
  | removes (hanswers : m'.answers = m.answers) (hclock : m'.clock = m.clock) (peerId : NodeId)
      (hlimiter : m'.state.rateLimiter = m.state.rateLimiter.removePeer peerId)

theorem LimiterStep.sound {m m' : Metered} (h : LimiterStep m m')
    (hm : m.state.rateLimiter.Sound) : m'.state.rateLimiter.Sound := by
  cases h with
  | asks a _ _ _ _ hlimiter => exact hlimiter ▸ hm.allow a.now a.peer
  | keeps _ _ hlimiter => exact hlimiter ▸ hm
  | removes _ _ peerId hlimiter => exact hlimiter ▸ hm.removePeer peerId

theorem LimiterStep.clock_le {m m' : Metered} (h : LimiterStep m m') : m.clock ≤ m'.clock := by
  cases h with
  | asks a _ hclock hnow => exact hnow ▸ hclock
  | keeps _ hclock | removes _ hclock => exact Nat.le_of_eq hclock.symm

theorem limiterStep_of_account {m : Metered} {s : State}
    (h : AccountStep False True m.state.accounts s.accounts) :
    LimiterStep m { m with state := s } := by
  have hlimiter {a a' : Accounts} (h : AccountStep False True a a') :
      a'.rateLimiter = a.rateLimiter ∨
        ∃ peerId, a'.rateLimiter = a.rateLimiter.removePeer peerId := by
    cases h with
    | allow h => exact h.elim
    | removeBucket peerId => exact .inr ⟨peerId, rfl⟩
    | _ => exact .inl rfl
  rcases hlimiter h with hsame | ⟨peerId, hremove⟩
  · exact .keeps rfl rfl hsame
  · exact .removes rfl rfl peerId hremove

section Runs

variable [Sha256] [Ed25519] [X25519] [HkdfSha256] [Blake3]

/-- What every step does: it is a move of the ledger, and of the limiter from a sound state. -/
structure Step (config : Config) (m m' : Metered) : Prop where
  sound : m.state.rateLimiter.Sound
  move : State.Move (anyTerms config) (fun _ => True) m.state m'.state
  limiter : LimiterStep m m'

/-- What the steps may rely on. -/
structure Sane (config : Config) (m : Metered) : Prop where
  ledger : m.state.ledger.Sane (anyTerms config)
  limiter : m.state.rateLimiter.Sound

theorem Sane.step {config : Config} {m m' : Metered} (h : m.Sane config)
    (hstep : Step config m m') : m'.Sane config :=
  ⟨h.ledger.move hstep.move, hstep.limiter.sound h.limiter⟩

/-- Nothing is assumed of what arrives, and the limiter is not asked. -/
def unasked (config : Config) : Scope := ⟨anyTerms config, fun _ => True, False, True⟩

theorem moves_onState {config : Config} {α : Type} {p : DaemonM α}
    (h : Behaves (unasked config) p) :
    (onState p).Moves (fun _ m => m.Sane config) (Step config) fun _ => True :=
  Moves.zoom h (fun _ _ hm => ⟨hm.ledger, fun _ _ _ => trivial⟩)
    fun _ _ _ hm hstep => ⟨hm.limiter, hstep.move, limiterStep_of_account hstep.account⟩

variable [Aes256Gcm]

theorem moves_frameTask {config : Config} (r : Received) :
    (frameTask r).Moves (fun _ m => m.Sane config) (Step config) fun _ => True := by
  refine moves_bind (B := fun _ => True) (moves_await fun i m m' allowed hm hasked => ?_)
    fun allowed _ => moves_onState (behaves_iteration ?_)
  · obtain ⟨hclock, heq⟩ := Option.ite_none_right_eq_some.mp hasked
    cases heq
    exact ⟨⟨hm.limiter, .still, .asks ⟨r.conn, r.peer, i.now, _⟩ rfl hclock rfl rfl rfl⟩, trivial⟩
  · exact behaves_afterLimit (admits_anyTerms config r)
      (fun _ _ _ _ _ => trivial) allowed

variable [HmacSha256]

/-- A run of the daemon with its record. -/
def Runs (b : Boot) (l : List (Metered × Metered)) (S : Sys Input Metered) : Prop :=
  Sys.Trail start (fun _ _ => True) ⟨boot b, []⟩ l S

variable {b : Boot} {l : List (Metered × Metered)} {S : Sys Input Metered}

theorem Runs.step (h : Runs b l S) : ∀ m ∈ l, Step b.config m.1 m.2 := by
  refine Sys.Trail.moves (I := Sane b.config) ⟨sane_boot rfl, sound_default⟩
    (fun m m' hm hstep => hm.step hstep) (fun m k i hm _ => hm) ?_ h
  intro e m m' q hm _ hstart
  have hadmits : e = .frame → ∀ r ∈ m.state.transport.incoming.head?,
      (anyTerms b.config).Admits r ∧ PartsFrom (fun _ => True) r :=
    fun _ r _ => ⟨admits_anyTerms b.config r, fun _ _ _ _ _ => trivial⟩
  obtain ⟨s', p, hp, rfl, hq⟩ := start_cases hstart
  obtain ⟨hmove, hsame, -⟩ := start_behaves (W := Scope.any b.config) hm.ledger hadmits
    (fun _ => trivial) (fun _ => trivial) hp
  refine ⟨⟨hm.limiter, hmove, .keeps rfl rfl (congrArg Accounts.rateLimiter hsame)⟩, ?_⟩
  rcases hq with ⟨hne, rfl⟩ | ⟨r, -, -, rfl⟩
  · obtain ⟨-, -, hbehaves⟩ := start_behaves (W := unasked b.config) hm.ledger hadmits
      (fun hframe => absurd hframe hne) (fun _ => trivial) hp
    exact moves_onState hbehaves
  · exact moves_frameTask r

end Runs

/-! ## The bound -/

/-- The answer that a step puts down. -/
def asked (m : Metered × Metered) : Option Answer := m.2.answers[m.1.answers.length]?

/-- The step processes a frame of the connection in that interval. -/
def processedIn (conn : ConnId) (t d : ℚ) (m : Metered × Metered) : Bool :=
  (asked m).any (Answer.processedIn conn t d)

/-- The bucket of the peer is thrown away. -/
def drops (peerId : NodeId) (m : Metered × Metered) : Bool :=
  m.1.state.rateLimiter.buckets.contains peerId && !m.2.state.rateLimiter.buckets.contains peerId

theorem asked_eq_some {m m' : Metered} {a : Answer} (h : m'.answers = m.answers ++ [a]) :
    asked (m, m') = some a := by
  rw [asked, h, getElem?_concat_length]

theorem asked_eq_none {m m' : Metered} (h : m'.answers = m.answers) : asked (m, m') = none := by
  rw [asked, h, getElem?_eq_none (Nat.le_refl _)]

/-- The frames of a connection that are processed in an interval, against the bucket of a peer. -/
def meter (conn : ConnId) (peerId : NodeId) (t d : ℚ) : Meter (Metered × Metered) ℚ where
  clock m := (m.2.clock : ℚ) / 1000000000
  before m := m.1.state.rateLimiter.level m.2.clock peerId
  after m := m.2.state.rateLimiter.level m.2.clock peerId
  grants := processedIn conn t d

variable {m m' : Metered} {conn : ConnId} {peerId : NodeId} {t d : ℚ}

theorem LimiterStep.window (h : LimiterStep m m') (hgrants : processedIn conn t d (m, m') = true) :
    t ≤ (m'.clock : ℚ) / 1000000000 ∧ (m'.clock : ℚ) / 1000000000 ≤ t + d := by
  obtain ⟨a, hasked, ha⟩ := (Option.any_eq_true _ _).mp hgrants
  have hwindow := of_decide_eq_true ((Bool.and_eq_true _ _).mp ha).2
  cases h with
  | asks a' hanswers _ hnow =>
    obtain rfl := Option.some.inj ((asked_eq_some hanswers).symm.trans hasked)
    rw [hnow]
    exact hwindow
  | keeps hanswers | removes hanswers => exact nomatch (asked_eq_none hanswers).symm.trans hasked

theorem LimiterStep.paid (h : LimiterStep m m')
    (htag : processedIn conn t d (m, m') = true → ∀ a ∈ asked (m, m'), a.peer = peerId)
    (hkept : asked (m, m') = none → drops peerId (m, m') = false) :
    (meter conn peerId t d).Paid (m, m') := by
  show ((if processedIn conn t d (m, m') then 1 else 0 : ℕ) : ℚ) +
    m'.state.rateLimiter.level m'.clock peerId ≤ m.state.rateLimiter.level m'.clock peerId
  have hnone (hanswers : m'.answers = m.answers) : processedIn conn t d (m, m') = false := by
    rw [processedIn, asked_eq_none hanswers]
    rfl
  cases h with
  | asks a hanswers _ hnow hallowed hlimiter =>
    have hasked := asked_eq_some hanswers
    rw [hlimiter, hnow]
    by_cases ha : a.peer = peerId
    · -- a frame that is processed has been let through
      have hle : (if processedIn conn t d (m, m') then 1 else 0 : ℕ) ≤
          if (m.state.rateLimiter.allow a.now peerId).1 then 1 else 0 := by
        split
        · rename_i hprocessed
          simp only [processedIn, Answer.processedIn, hasked, Option.any_some,
            Bool.and_eq_true] at hprocessed
          rw [← ha, ← hallowed, hprocessed.1.2]
          exact Nat.le_refl _
        · exact Nat.zero_le _
      have hcast : ((if processedIn conn t d (m, m') then 1 else 0 : ℕ) : ℚ) ≤
          (if (m.state.rateLimiter.allow a.now peerId).1 then 1 else 0 : ℕ) := Nat.cast_le.mpr hle
      rw [ha]
      linarith [level_allow_self (r := m.state.rateLimiter) a.now peerId]
    · have hnot : ¬ processedIn conn t d (m, m') = true := fun hp => ha (htag hp a hasked)
      rw [if_neg hnot, level_allow_ne (Ne.symm ha), Nat.cast_zero, zero_add]
  | keeps hanswers _ hlimiter =>
    rw [hnone hanswers, hlimiter]
    simp
  | removes hanswers _ q hlimiter =>
    rw [hnone hanswers, hlimiter, level_removePeer]
    · simp
    by_cases hq : peerId = q
    · -- its own bucket is not there
      subst hq
      right
      have hkept := hkept (asked_eq_none hanswers)
      simp only [drops, hlimiter, Bool.and_eq_false_iff] at hkept
      rcases hkept with habsent | hpresent
      · exact Option.isNone_iff_eq_none.mp (by simpa [HashMap.contains] using habsent)
      · simp [RateLimiter.removePeer] at hpresent
    · exact .inl hq

end Metered

open Metered

section Bound

variable [Sha256] [Ed25519] [X25519] [HkdfSha256] [HmacSha256] [Aes256Gcm] [Blake3]

theorem Metered.Runs.answers {b : Boot} {l : List (Metered × Metered)} {S : Sys Input Metered}
    (h : Metered.Runs b l S) : S.state.answers = l.filterMap asked := by
  have hstep := h.step
  induction h with
  | refl => rfl
  | @step l S S' c _ _ _ ih =>
    rw [filterMap_append, ← ih fun m hm => hstep m (mem_append_left _ hm)]
    cases (hstep (S.state, S'.state) (mem_append_right _ (.head _))).limiter with
    | asks a hanswers =>
      rw [filterMap_cons_some (asked_eq_some hanswers), hanswers]
      rfl
    | keeps hanswers | removes hanswers =>
      rw [filterMap_cons_none (asked_eq_none hanswers), hanswers, filterMap_nil, append_nil]

/-- In every run with a clock that does not go back, and in every interval of length `d`: if the
frames of the connection that are processed in the interval carry one id, and the bucket
of that id is not thrown away between two of them, then they are at most as many as the
burst and what the rate adds in that time. -/
theorem processed_le_burst_add_rate (b : Boot) (l : List (Metered × Metered))
    (S : Sys Input Metered) (h : Metered.Runs b l S) (conn : ConnId) (peerId : NodeId) (t d : ℚ)
    (hd : 0 ≤ d)
    (htag : ∀ a ∈ S.state.answers, a.processedIn conn t d = true → a.peer = peerId)
    (hkept : ∀ l₁ m l₂, l = l₁ ++ m :: l₂ → (∃ a ∈ l₁, Metered.processedIn conn t d a = true) →
      (∃ a ∈ l₂, Metered.processedIn conn t d a = true) → Metered.drops peerId m = false) :
    (S.state.answers.countP (Answer.processedIn conn t d) : ℚ) ≤
      RateLimiter.default.capacity.toNat + RateLimiter.default.refillRate * d := by
  have hstep := h.step
  have hcount : S.state.answers.countP (Answer.processedIn conn t d) =
      l.countP (processedIn conn t d) := by
    rw [h.answers, countP_filterMap]
    congr 1
    funext m
    unfold processedIn
    cases asked m with
    | none | some a => rfl
  have htag (m : Metered × Metered) (hm : m ∈ l) (hgrants : processedIn conn t d m = true) :
      ∀ a ∈ asked m, a.peer = peerId := by
    intro a ha
    refine htag a (h.answers ▸ mem_filterMap.mpr ⟨m, hm, ha⟩) ?_
    simpa only [processedIn, show asked m = some a from ha, Option.any_some] using hgrants
  have hsound' (m : Metered × Metered) (hm : m ∈ l) : m.2.state.rateLimiter.Sound :=
    (hstep m hm).limiter.sound (hstep m hm).sound
  have hchain : l.IsChain
      ((meter conn peerId t d).Follows default.refillRate) := by
    refine h.isChain.1.imp_of_mem_imp fun m m' hm hm' hnext => ?_
    have hclock : m.2.clock ≤ m'.2.clock := hnext ▸ (hstep m' hm').limiter.clock_le
    refine ⟨div_le_div_of_nonneg_right (Nat.cast_le.mpr hclock) (by norm_num), ?_⟩
    show m'.1.state.rateLimiter.level m'.2.clock peerId ≤ _
    rw [hnext]
    exact (hsound' m hm).level_le_add peerId hclock
  rw [hcount]
  refine Meter.countP_grants_le (M := meter conn peerId t d) (t := t)
    refillRate_nonneg (Nat.cast_nonneg _) hd hchain ?_ ?_ ?_ ?_
  · exact fun m hm => ⟨((hsound' m hm).level_bounds m.2.clock peerId).1,
      ((hstep m hm).sound.level_bounds m.2.clock peerId).2⟩
  · exact fun m hm hgrants => (hstep m hm).limiter.window hgrants
  · intro m hm hgrants
    refine (hstep m hm).limiter.paid (htag m hm) fun hnone => ?_
    obtain ⟨a, ha, -⟩ := (Option.any_eq_true _ _).mp hgrants
    exact nomatch hnone.symm.trans ha
  · rintro l₁ m l₂ rfl hearlier hlater
    have hm : m ∈ l₁ ++ m :: l₂ := mem_append_right _ (.head _)
    exact (hstep m hm).limiter.paid (htag m hm) fun _ => hkept l₁ m l₂ rfl hearlier hlater

end Bound

/-! ## Concrete runs -/

section Concrete

open Transparent

/-- Victor's connection has been accepted. -/
def linkedVia (peers : HashMap NodeId PeerWriter) (rateLimiter : RateLimiter) : State :=
  { openNode.state with
    transport := { openNode.state.transport.openConn victorId with peers }
    rateLimiter }

def fromVictor (frame : ControlFrame) : Received :=
  ⟨0, victorId, plainFrame .control frame.encode⟩

def letThrough : Answer := ⟨0, victorId, 0, true⟩

section Leads

variable {P : Metered × Metered → Prop} {peers : HashMap NodeId PeerWriter} {limiter : RateLimiter}
  {answers : List Answer} {frame : ControlFrame}
  (hkeeps : ∀ m m' : Metered, m'.state.rateLimiter = m.state.rateLimiter → P (m, m'))

include hkeeps

theorem leads_accept : ∃ peers, Relation.ReflTransGen (Sys.Leads Metered.start calm P)
    (Metered.boot openNode) ⟨linkedVia peers default, 0, []⟩ :=
  ⟨_, .single ⟨.accept somewhere victorId, _, _, rfl, hkeeps _ _ rfl, hkeeps _ _ rfl, rfl⟩⟩

/-- A frame of Victor arrives and is handled before anything else happens. -/
theorem leads_frame (hframe : frame = .rekey ∨ frame = .goodbye victorId 0)
    (hasks : ∀ m m' : Metered, m'.state.rateLimiter = (m.state.rateLimiter.allow 0 victorId).2 →
      P (m, m')) (hallowed : (limiter.allow 0 victorId).1 = true) {m : Metered}
    (halone : (onState (iteration (afterLimit (fromVictor frame) true))).Alone calm P
      ⟨{ linkedVia peers (limiter.allow 0 victorId).2 with loopBusy := true }, 0,
        answers ++ [letThrough]⟩ m) :
    Relation.ReflTransGen (Sys.Leads Metered.start calm P) ⟨linkedVia peers limiter, 0, answers⟩
      m := by
  obtain ⟨m₁, m₂, hreceive, hdeliver, hstart, h₁, h₂⟩ : ∃ m₁ m₂,
      Metered.start (.receive 0 (LengthDelimitedCodec.encode (fromVictor frame).frame.encode))
        ⟨linkedVia peers limiter, 0, answers⟩ = some (m₁, pure ()) ∧
      Metered.start (.deliver 0) m₁ = some (m₂, pure ()) ∧
      Metered.start .frame m₂ =
        some (⟨{ linkedVia peers limiter with loopBusy := true }, 0, answers⟩,
          frameTask (fromVictor frame)) ∧
      m₁.state.rateLimiter = limiter ∧ m₂.state.rateLimiter = limiter := by
    rcases hframe with rfl | rfl <;> exact ⟨_, _, rfl, rfl, rfl, rfl, rfl⟩
  refine .head ⟨_, _, _, hreceive, hkeeps _ _ h₁, rfl⟩ (.head ⟨_, _, _, hdeliver,
    hkeeps _ _ (h₂.trans h₁.symm), rfl⟩ (.single ⟨_, _, _, hstart, hkeeps _ _ h₂.symm, ?_⟩))
  refine ⟨hasks _ _ rfl, ?_⟩
  show (onState (iteration (afterLimit (fromVictor frame) (limiter.allow 0 victorId).1))).Alone calm
    P ⟨_, 0, answers ++ [⟨0, victorId, 0, (limiter.allow 0 victorId).1⟩]⟩ m
  rw [hallowed]
  exact halone

end Leads

/-- Each Rekey takes one of Victor's tokens, which they have 500 of. -/
theorem exists_rekeys {n : Nat} (hn : n ≤ 500) : ∃ peers limiter,
    Relation.ReflTransGen (Sys.Leads Metered.start calm fun m => Metered.drops victorId m = false)
      (Metered.boot openNode) ⟨linkedVia peers limiter, 0, replicate n letThrough⟩ ∧
    limiter.level 0 victorId = 500 - n := by
  have hkeeps (m m' : Metered) (h : m'.state.rateLimiter = m.state.rateLimiter) :
      Metered.drops victorId (m, m') = false := by
    simp [Metered.drops, h]
  have hasks (m m' : Metered)
      (h : m'.state.rateLimiter = (m.state.rateLimiter.allow 0 victorId).2) :
      Metered.drops victorId (m, m') = false := by
    simp [Metered.drops, h, RateLimiter.allow]
  induction n with
  | zero =>
    obtain ⟨peers, haccept⟩ :=
      leads_accept (P := fun m => Metered.drops victorId m = false) hkeeps
    exact ⟨peers, default, haccept, by decide +kernel⟩
  | succ n ih =>
    obtain ⟨peers, limiter, hleads, hlevel⟩ := ih (by omega)
    have hleft : 1 ≤ limiter.level 0 victorId := by
      have hcast : (n : ℚ) + 1 ≤ 500 := by exact_mod_cast hn
      linarith
    have hallowed := allow_eq_true hleft
    have htoken := level_allow_self (r := limiter) 0 victorId
    rw [hallowed, if_pos rfl, Nat.cast_one] at htoken
    refine ⟨peers, (limiter.allow 0 victorId).2, hleads.trans ?_, ?_⟩
    · rw [replicate_succ']
      exact leads_frame hkeeps (.inl rfl) hasks hallowed ⟨hkeeps _ _ rfl, rfl⟩
    · push_cast
      linarith

/-- Victor sends 500 Rekeys at one moment.  They are all processed, and no more could be. -/
theorem processed_eq_burst_rekeys :
    ∃ l S, Metered.Runs openNode l S ∧
      (S.state.answers.countP (Answer.processedIn 0 0 0) : ℚ) =
        RateLimiter.default.capacity.toNat + RateLimiter.default.refillRate * 0 := by
  obtain ⟨peers, limiter, hleads, -⟩ := exists_rekeys (le_refl 500)
  obtain ⟨l, S, hruns, hstate, hkept⟩ := Sys.exists_trail_of_leads hleads
  have hburst : default.capacity.toNat = 500 := rfl
  have hprocessed : letThrough.processedIn 0 0 0 = true := by decide +kernel
  refine ⟨l, S, hruns, le_antisymm ?_ ?_⟩
  · refine processed_le_burst_add_rate openNode l S hruns 0 victorId 0 0 le_rfl ?_ ?_
    · intro a ha _
      rw [hstate] at ha
      rw [eq_of_mem_replicate ha]
      rfl
    · rintro l₁ m l₂ rfl - -
      exact hkept m (mem_append_right _ (.head _))
  · rw [hstate, countP_replicate, if_pos hprocessed, hburst]
    norm_num

/-- There is no limit to the Goodbyes that are processed at one moment: each throws the bucket
away that it was charged to. -/
theorem exists_goodbyes (n : Nat) : ∃ peers,
    Relation.ReflTransGen (Sys.Leads Metered.start calm fun _ => True) (Metered.boot openNode)
      ⟨linkedVia peers default, 0, replicate n letThrough⟩ := by
  induction n with
  | zero => exact leads_accept fun _ _ _ => trivial
  | succ n ih =>
    obtain ⟨peers, hleads⟩ := ih
    have hallowed : (default.allow 0 victorId).1 = true := by decide +kernel
    have hcharged : ∃ bucket, (default.allow 0 victorId).2 =
        { default with buckets := empty.insert victorId bucket } := ⟨_, rfl⟩
    refine ⟨peers.remove victorId, hleads.trans (leads_frame (fun _ _ _ => trivial) (.inr rfl)
      (fun _ _ _ => trivial) hallowed (alone_of_after ?_))⟩
    obtain ⟨bucket, hbucket⟩ := hcharged
    rw [replicate_succ']
    rfl

/-- All at one moment, more frames of one connection are processed than the burst. -/
theorem goodbyes_are_not_limited :
    ∃ l S, Metered.Runs openNode l S ∧
      (RateLimiter.default.capacity.toNat + RateLimiter.default.refillRate * 0 : ℚ) <
        S.state.answers.countP (Answer.processedIn 0 0 0) := by
  obtain ⟨_, hleads⟩ := exists_goodbyes 501
  obtain ⟨l, S, hruns, hstate, -⟩ := Sys.exists_trail_of_leads hleads
  have hburst : default.capacity.toNat = 500 := rfl
  have hprocessed : letThrough.processedIn 0 0 0 = true := by decide +kernel
  refine ⟨l, S, hruns, ?_⟩
  rw [hstate, countP_replicate, if_pos hprocessed, hburst]
  norm_num

end Concrete

end ProximityMesh.Daemon
