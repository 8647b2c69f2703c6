/-
  Daemon/Reputation.lean --- failure scores and the blacklist over whole runs.

  Source: crates/pim-daemon/src/reputation.rs, `run_peer_liveness` of peer_tasks.rs and the
  end of both handshake roles in handshake.rs.

  A liveness check records a failure for each peer it removes, and blacklists the peer
  when its score has just reached the threshold.  A completed handshake lifts the
  blacklist and pardons.  So a peer is blacklisted if it times out often enough with no
  handshake in between, and it is not if it reconnects after each timeout.
-/
import ProximityMesh.Daemon.RouteReplay
import ProximityMesh.Foundation.Pool

set_option autoImplicit false

namespace ProximityMesh.Daemon

open Protocol Transport Crypto Routing ProximityMesh.Task ReputationTracker List HashMap

/-! ## Scores -/

def ReputationTracker.score (r : ReputationTracker) (peerId : NodeId) : Nat :=
  ((r.scores.get peerId).getD 0).toNat

def State.blacklisted (s : State) (peerId : NodeId) : Bool :=
  s.routing.blacklistedPeers.contains peerId

section Scores

variable (r : ReputationTracker) (peerId q : NodeId)

theorem score_recordFailure_ne {peerId q : NodeId} (h : q ≠ peerId) :
    (r.recordFailure peerId).2.score q = r.score q :=
  congrArg (fun v : Option UInt32 => (v.getD 0).toNat) (get_insert_ne r.scores _ h)

theorem score_recordFailure_self : (r.recordFailure peerId).2.score peerId = r.score peerId + 1 ∨
    (r.recordFailure peerId).2.score peerId = r.score peerId ∧ r.score peerId = 0xFFFFFFFF := by
  unfold score recordFailure
  simp only [get_insert_self, Option.getD_some]
  split
  · rename_i hmax
    exact .inr ⟨rfl, by rw [hmax]; rfl⟩
  · rename_i hmax
    have hne : ((r.scores.get peerId).getD 0).toNat ≠ 0xFFFFFFFF :=
      fun h => hmax (UInt32.toNat_inj.mp h)
    have hlt := ((r.scores.get peerId).getD 0).toNat_lt
    left
    rw [UInt32.toNat_add]
    exact Nat.mod_eq_of_lt (by simp only [UInt32.toNat_one]; omega)

/-- The answer of `recordFailure` says that the threshold has just been reached. -/
theorem fst_recordFailure_iff : (r.recordFailure peerId).1 = true ↔
    (r.recordFailure peerId).2.score peerId = blacklistThreshold.toNat := by
  simp [recordFailure, score, UInt32.toNat_inj]

theorem score_recordSuccess_ne {peerId q : NodeId} (h : q ≠ peerId) :
    (r.recordSuccess peerId).score q = r.score q := by
  simp [score, recordSuccess, get_modify, if_neg h]

theorem score_recordSuccess_le : (r.recordSuccess peerId).score peerId ≤ r.score peerId := by
  simp only [score, recordSuccess, get_modify, if_pos]
  cases r.scores.get peerId with
  | none => exact Nat.le_refl _
  | some n =>
    simp only [Option.map_some, Option.getD_some]
    split
    · exact Nat.zero_le _
    · rename_i hpos
      have hne : n.toNat ≠ 0 := fun h => hpos (UInt32.toNat_inj.mp h)
      rw [UInt32.toNat_sub_of_le _ _
        (UInt32.le_iff_toNat_le.mpr (by simp only [UInt32.toNat_one]; omega))]
      exact Nat.sub_le _ _

theorem score_pardon_ne {peerId q : NodeId} (h : q ≠ peerId) :
    (r.pardon peerId).score q = r.score q :=
  congrArg (fun v : Option UInt32 => (v.getD 0).toNat) (get_remove_ne r.scores h)

theorem score_pardon_self : (r.pardon peerId).score peerId = 0 := by
  simp only [score, pardon, get_remove_self]
  rfl

end Scores

/-! ## What a step does to the record of a peer -/

/-- The step records a failure: the peer has timed out. -/
def TimesOut (peerId : NodeId) (m : State × State) : Prop :=
  m.2.reputation.scores = (m.1.reputation.recordFailure peerId).2.scores

instance (peerId : NodeId) : DecidablePred (TimesOut peerId) := fun _ =>
  inferInstanceAs (Decidable (_ = _))

/-- The step records a success, and the score goes down. -/
def Succeeds (peerId : NodeId) (m : State × State) : Prop :=
  m.2.reputation.scores = (m.1.reputation.recordSuccess peerId).scores ∧
    m.2.reputation.score peerId < m.1.reputation.score peerId

instance (peerId : NodeId) : DecidablePred (Succeeds peerId) := fun _ =>
  inferInstanceAs (Decidable (_ ∧ _))

/-- The step forgets a score that is not zero. -/
def Pardons (peerId : NodeId) (m : State × State) : Prop :=
  m.2.reputation.scores = (m.1.reputation.pardon peerId).scores ∧
    m.2.reputation.score peerId < m.1.reputation.score peerId

instance (peerId : NodeId) : DecidablePred (Pardons peerId) := fun _ =>
  inferInstanceAs (Decidable (_ ∧ _))

/-- The step unblacklists a peer that is on the blacklist. -/
def Lifts (peerId : NodeId) (m : State × State) : Prop :=
  m.2.routing.blacklistedPeers = (m.1.routing.unblacklistPeer peerId).blacklistedPeers ∧
    m.1.blacklisted peerId = true

instance (peerId : NodeId) : DecidablePred (Lifts peerId) := fun _ =>
  inferInstanceAs (Decidable (_ ∧ _))

variable {peerId : NodeId}

/-- Only a success and a pardon lower a score. -/
theorem score_le_of_accountStep {metered failing : Prop} {m : State × State}
    (h : AccountStep metered failing m.1.accounts m.2.accounts) (hsuccess : ¬ Succeeds peerId m)
    (hpardon : ¬ Pardons peerId m) : m.1.reputation.score peerId ≤ m.2.reputation.score peerId := by
  obtain ⟨s, s'⟩ := m
  show s.reputation.score peerId ≤ s'.reputation.score peerId
  generalize ha : State.accounts s' = a at h
  obtain hrep : s'.reputation = a.reputation := congrArg Accounts.reputation ha
  cases h with
  | still | allow | removeBucket | blacklist | unblacklist => exact Nat.le_of_eq (by rw [hrep]; rfl)
  | recordFailure _ q =>
    rw [show s'.reputation = (s.reputation.recordFailure q).2 from hrep]
    by_cases hq : peerId = q
    · subst hq
      rcases score_recordFailure_self s.reputation peerId with hup | ⟨hsame, -⟩ <;> omega
    · exact Nat.le_of_eq (score_recordFailure_ne _ hq).symm
  | recordSuccess q =>
    by_cases hq : peerId = q
    · subst hq
      exact Nat.le_of_not_lt fun hlt => hsuccess ⟨congrArg scores hrep, hlt⟩
    · rw [hrep]
      exact Nat.le_of_eq (score_recordSuccess_ne _ hq).symm
  | pardon q =>
    by_cases hq : peerId = q
    · subst hq
      exact Nat.le_of_not_lt fun hlt => hpardon ⟨congrArg scores hrep, hlt⟩
    · rw [hrep]
      exact Nat.le_of_eq (score_pardon_ne _ hq).symm

/-- Nothing else takes a peer off the blacklist. -/
theorem lifts_of_accountStep {metered failing : Prop} {s s' : State}
    (h : AccountStep metered failing s.accounts s'.accounts) (hlisted : s.blacklisted peerId = true)
    (hfree : s'.blacklisted peerId = false) : Lifts peerId (s, s') := by
  generalize ha : State.accounts s' = a at h
  obtain hpeers : s'.routing.blacklistedPeers = a.blacklistedPeers :=
    congrArg Accounts.blacklistedPeers ha
  rw [State.blacklisted, hpeers] at hfree
  cases h with
  | still | allow | removeBucket | recordFailure | recordSuccess | pardon =>
    cases hlisted.symm.trans hfree
  | blacklist _ q => cases ((contains_insert _ _ _ _).mpr (.inr hlisted)).symm.trans hfree
  | unblacklist q =>
    rcases Decidable.em (peerId = q) with rfl | hne
    · exact ⟨hpeers, hlisted⟩
    · rw [contains_remove_eq, Function.update_of_ne hne] at hfree
      cases hlisted.symm.trans hfree

theorem score_le_of_not_failing {metered : Prop} {s s' : State}
    (h : AccountStep metered False s.accounts s'.accounts) (peerId : NodeId) :
    s'.reputation.score peerId ≤ s.reputation.score peerId := by
  generalize ha : State.accounts s' = a at h
  obtain hrep : s'.reputation = a.reputation := congrArg Accounts.reputation ha
  rw [hrep]
  cases h with
  | still | allow | removeBucket | unblacklist => exact Nat.le_refl _
  | recordFailure hfailing | blacklist hfailing => exact hfailing.elim
  | recordSuccess q =>
    by_cases hq : peerId = q
    · subst hq
      exact score_recordSuccess_le s.reputation peerId
    · exact Nat.le_of_eq (score_recordSuccess_ne _ hq)
  | pardon q =>
    by_cases hq : peerId = q
    · subst hq
      exact (score_pardon_self s.reputation peerId).le.trans (Nat.zero_le _)
    · exact Nat.le_of_eq (score_pardon_ne _ hq)

/-! ## Reaching the threshold -/

/-- The next step of the task can be taken, and puts the peer on the blacklist. -/
def Blacklists {α : Type} (peerId : NodeId) : DaemonM α → Prop
  | .done _ => False
  | .step act _ => ∀ i s, ∃ s', act i s = some s' ∧ s'.blacklisted peerId = true

theorem Blacklists.bind {α β : Type} {p : DaemonM β} (h : Blacklists peerId p) (k : β → DaemonM α) :
    Blacklists peerId (p >>= k) := by
  cases p with
  | done b => exact h.elim
  | step act next => exact h

section Rules

variable [Sha256] [Ed25519] [X25519] [HkdfSha256]

/-- A step of the task that takes a score to the threshold is followed by one that puts the peer
on the blacklist. -/
def Pays {α : Type} (config : Config) : DaemonM α → Prop
  | .done _ => True
  | .step act next => ∀ i s s', (anyTerms config).Allows (fun _ => True) i s → act i s = some s' →
      (∀ peerId, s.reputation.score peerId < ReputationTracker.blacklistThreshold.toNat →
        ReputationTracker.blacklistThreshold.toNat ≤ s'.reputation.score peerId →
        Blacklists peerId (next i s)) ∧ Pays config (next i s)

variable {α β : Type} {config : Config}

theorem pays_bind {p : DaemonM β} {k : β → DaemonM α} (hp : Pays config p)
    (hk : ∀ b, Pays config (k b)) : Pays config (p >>= k) := by
  induction p with
  | done b => exact hk b
  | step act next ih =>
    intro i s s' hs hact
    obtain ⟨hcross, hnext⟩ := hp i s s' hs hact
    exact ⟨fun peerId hlow hhigh => (hcross peerId hlow hhigh).bind k, ih i s hnext⟩

theorem pays_each {f : β → DaemonM Unit} {bs : List β} (h : ∀ b, Pays config (f b)) :
    Pays config (Task.each f bs) := by
  induction bs with
  | nil => trivial
  | cons b bs ih => exact pays_bind (h b) fun _ => ih

/-- Nothing is assumed of what arrives, and no failure is recorded. -/
def Scope.unfailing (config : Config) : Scope := ⟨anyTerms config, fun _ => True, True, False⟩

/-- What records no failure takes no score to the threshold. -/
theorem Behaves.pays [Blake3] {p : DaemonM α}
    (h : Behaves (.unfailing config) p) : Pays config p := by
  induction p with
  | done a => trivial
  | step act next ih =>
    intro i s s' hs hact
    obtain ⟨hstep, hnext⟩ := h i s s' hs hact
    refine ⟨fun peerId hlow hhigh => ?_, ih i s hnext⟩
    have hle := score_le_of_not_failing hstep.account peerId
    omega

end Rules

theorem blacklisted_blacklistPeer (s : State) (peerId : NodeId) :
    State.blacklisted { s with routing := (s.routing.blacklistPeer peerId).1 } peerId = true := by
  show contains (s.routing.blacklistPeer peerId).1.blacklistedPeers peerId = true
  rw [blacklistedPeers_blacklistPeer]
  exact (contains_insert _ _ _ _).mpr (.inl rfl)

/-- Only the peer a failure is recorded for reaches the threshold, and it is said so. -/
theorem reached_of_cross {r : ReputationTracker} {q : NodeId}
    (hlow : r.score q < blacklistThreshold.toNat)
    (hhigh : blacklistThreshold.toNat ≤ (r.recordFailure peerId).2.score q) :
    q = peerId ∧ (r.recordFailure peerId).1 = true := by
  by_cases hq : q = peerId
  · subst hq
    refine ⟨rfl, (fst_recordFailure_iff r q).mpr ?_⟩
    rcases score_recordFailure_self r q with hup | ⟨hsame, -⟩ <;> omega
  · rw [score_recordFailure_ne r hq] at hhigh
    omega

section Runs

variable [Sha256] [Ed25519] [X25519] [HkdfSha256] [Blake3]

/-- A liveness check blacklists the peer whose failure it records, once the threshold is
reached. -/
theorem pays_runPeerLiveness (config : Config) : Pays config runPeerLiveness := by
  refine pays_bind (behaves_of_leaves (leaves_atomically fun _ _ => rfl)).pays fun timedOut => ?_
  refine pays_each fun peerId => pays_bind (behaves_removePeer trivial).pays fun _ => ?_
  intro i s s' _ hact
  cases hact
  refine ⟨fun q hlow hhigh => ?_, ?_⟩
  · -- the answer of `recordFailure` decides how the task goes on
    obtain ⟨rfl, hreached⟩ := reached_of_cross hlow hhigh
    show Blacklists q (if (s.reputation.recordFailure q).1 = true then _ else _)
    rw [if_pos hreached]
    exact fun _ s => ⟨_, rfl, blacklisted_blacklistPeer s q⟩
  · show Pays config (if (s.reputation.recordFailure peerId).1 = true then _ else _)
    split
    · intro _ s s' _ hact
      cases hact
      exact ⟨fun q hlow hhigh => absurd hlow (Nat.not_lt.mpr hhigh), trivial⟩
    · trivial

variable [HmacSha256] [Aes256Gcm]
variable {b : Boot} {l : List (State × State)} {S : Sys Input State} {peerId : NodeId}

theorem pays_start {e : Event} {s s' : State} {p : DaemonM Unit}
    (hs : s.ledger.Sane (anyTerms b.config)) (hstart : start e s = some (s', p)) :
    Pays b.config p := by
  by_cases he : e = .liveness
  · subst he
    cases hstart
    exact pays_runPeerLiveness b.config
  · refine (start_behaves hs ?_ (fun _ => trivial) he hstart).2.2.pays
    exact fun _ r _ => ⟨admits_anyTerms b.config r, fun _ _ _ _ _ => trivial⟩

theorem pays_of_history (h : History (fun _ _ => True) b l S) : ∀ p ∈ S.tasks, Pays b.config p := by
  refine Sys.Trail.forall_tasks (fun l S h e s' p hstart => ?_)
    (fun l S h act nextOf i s' hp hact => ?_) h
  · exact pays_start (sane_of_trail h) hstart
  · exact (hp i S.state s' ⟨sane_of_trail h, fun _ _ _ => trivial⟩ hact).2

/-- A task is about to put the peer on the blacklist. -/
def Owed (peerId : NodeId) (S : Sys Input State) : Prop := ∃ p ∈ S.tasks, Blacklists peerId p

/-- A task that is about to put the peer on the blacklist stays so until it does. -/
theorem Owed.next {S' : Sys Input State} {c : Choice Input Event} (h : Owed peerId S)
    (hnext : S.next start c = some S') : S'.state.blacklisted peerId = true ∨ Owed peerId S' := by
  obtain ⟨p, hp, hblacklists⟩ := h
  obtain ⟨e, s', q, -, -, rfl⟩ | ⟨k, i, act, nextOf, s', -, hk, hact, rfl⟩ := Sys.next_cases hnext
  · exact .inr ⟨p, mem_append_left _ hp, hblacklists⟩
  · obtain ⟨j, hj⟩ := mem_iff_getElem?.mp hp
    by_cases hjk : j = k
    · subst hjk
      rw [hk] at hj
      cases hj
      obtain ⟨s'', hact', hlisted⟩ := hblacklists i S.state
      rw [hact] at hact'
      exact .inl ((Option.some.inj hact') ▸ hlisted)
    · refine .inr ⟨p, mem_iff_getElem?.mpr ⟨j, ?_⟩, hblacklists⟩
      rw [getElem?_set_ne (Ne.symm hjk), hj]

/-- A peer whose score is at the threshold is on the blacklist, or about to be. -/
def Settled (peerId : NodeId) (S : Sys Input State) : Prop :=
  ReputationTracker.blacklistThreshold.toNat ≤ S.state.reputation.score peerId →
    S.state.blacklisted peerId = true ∨ Owed peerId S

theorem Settled.next {S' : Sys Input State} {c : Choice Input Event} (h : Settled peerId S)
    (hhistory : History (fun _ _ => True) b l S) (hnext : S.next start c = some S')
    (hlifts : ¬ Lifts peerId (S.state, S'.state)) : Settled peerId S' := by
  have hsane := sane_of_trail hhistory
  have hstep := step_of_mem_trail ((Sys.Trail.step c hhistory trivial hnext).imp spares_anybody) _
    (mem_append_right _ (.head _))
  intro hhigh
  by_cases hbefore : blacklistThreshold.toNat ≤ S.state.reputation.score peerId
  · rcases h hbefore with hlisted | howed
    · exact .inl (Bool.eq_true_of_not_eq_false fun hfree =>
        hlifts (lifts_of_accountStep hstep.account hlisted hfree))
    · exact howed.next hnext
  · -- the step takes the score to the threshold, so it is one of a task
    have hlow := Nat.lt_of_not_le hbefore
    obtain ⟨e, s', q, -, hq, rfl⟩ | ⟨k, i, act, nextOf, s', -, hk, hact, rfl⟩ :=
      Sys.next_cases hnext
    · have hsame : s'.accounts = S.state.accounts :=
        (start_behaves (W := .any b.config) hsane
          (fun _ r _ => ⟨admits_anyTerms b.config r, fun _ _ _ _ _ => trivial⟩)
          (fun _ => trivial) (fun _ => trivial) hq).2.1
      have hscore : s'.reputation = S.state.reputation := congrArg Accounts.reputation hsame
      rw [← hscore] at hlow
      exact absurd hlow (Nat.not_lt.mpr hhigh)
    · obtain ⟨hcross, -⟩ := pays_of_history hhistory _ (mem_of_getElem? hk) i S.state s'
        ⟨hsane, fun _ _ _ => trivial⟩ hact
      have hlt : k < S.tasks.length := (List.getElem?_eq_some_iff.mp hk).1
      exact .inr ⟨_, mem_set hlt _, hcross peerId hlow hhigh⟩

/-- Along a run in which no handshake lifts the blacklist. -/
theorem Settled.trail {l₀ : List (State × State)} {S₀ : Sys Input State}
    (h₀ : History (fun _ _ => True) b l₀ S₀) (h : Sys.Trail start (fun _ _ => True) S₀ l S)
    (hlifts : ∀ m ∈ l, ¬ Lifts peerId m) (hsettled : Settled peerId S₀) : Settled peerId S := by
  induction h with
  | refl => exact hsettled
  | @step l S S' c h _ hnext ih =>
    have ih := ih fun m hm => hlifts m (mem_append_left _ hm)
    refine ih.next (Sys.Trail.trans h₀ h) hnext ?_
    exact hlifts _ (mem_append_right _ (.head _))

theorem timeouts_le_score {l₀ : List (State × State)} {S₀ : Sys Input State}
    (h₀ : History (fun _ _ => True) b l₀ S₀) (h : Sys.Trail start (fun _ _ => True) S₀ l S)
    (hkept : ∀ m ∈ l, ¬ Succeeds peerId m ∧ ¬ Pardons peerId m) :
    min (l.countP (TimesOut peerId)) 0xFFFFFFFF ≤ S.state.reputation.score peerId := by
  have hsteps := step_of_mem_trail ((Sys.Trail.trans h₀ h).imp spares_anybody)
  induction h with
  | refl => exact Nat.zero_le _
  | @step l S S' c h _ hnext ih =>
    have hlast : (S.state, S'.state) ∈ l ++ [(S.state, S'.state)] := mem_append_right _ (.head _)
    have ih := ih (fun m hm => hkept m (mem_append_left _ hm)) fun m hm => hsteps m (by
      rw [← append_assoc]
      exact mem_append_left _ hm)
    rw [countP_append, countP_singleton]
    by_cases htimeout : TimesOut peerId (S.state, S'.state)
    · have hscore : S'.state.reputation.score peerId =
          (S.state.reputation.recordFailure peerId).2.score peerId :=
        congrArg (fun m => ((m.get peerId).getD 0).toNat) htimeout
      rw [if_pos (decide_eq_true htimeout)]
      rcases score_recordFailure_self S.state.reputation peerId with hup | ⟨hsame, hmax⟩ <;> omega
    · rw [if_neg (fun h => htimeout (of_decide_eq_true h))]
      obtain ⟨hsuccess, hpardon⟩ := hkept _ hlast
      have hle := score_le_of_accountStep (hsteps _ (mem_append_right _ hlast)).account
        hsuccess hpardon
      exact ih.trans hle

/-- In every run: when, from some moment on, a peer has timed out as often as the threshold says, no
success has been recorded for it and no handshake has pardoned it or lifted the blacklist, then
the peer is on the blacklist, unless the last liveness check is just about to put it there.  At
that moment its score was below the threshold or it was on the blacklist. -/
theorem blacklisted_of_timeouts (b : Boot) (peerId : NodeId) (l₀ l : List (State × State))
    (S₀ S : Sys Input State) (h₀ : History (fun _ _ => True) b l₀ S₀)
    (h : Sys.Trail start (fun _ _ => True) S₀ l S)
    (hbefore : S₀.state.reputation.score peerId < ReputationTracker.blacklistThreshold.toNat ∨
      S₀.state.blacklisted peerId = true)
    (htimeouts : ReputationTracker.blacklistThreshold.toNat ≤ l.countP (TimesOut peerId))
    (hsuccess : ∀ m ∈ l, ¬ Succeeds peerId m)
    (hhandshake : ∀ m ∈ l, ¬ Pardons peerId m ∧ ¬ Lifts peerId m)
    (hdone : ¬ Owed peerId S) : S.state.blacklisted peerId = true := by
  have hscore := timeouts_le_score h₀ h fun m hm => ⟨hsuccess m hm, (hhandshake m hm).1⟩
  have hsettled : Settled peerId S := by
    refine Settled.trail h₀ h (fun m hm => (hhandshake m hm).2) fun hhigh => ?_
    rcases hbefore with hlow | hlisted
    · exact absurd hlow (Nat.not_lt.mpr hhigh)
    · exact .inl hlisted
  have hthreshold : blacklistThreshold.toNat = 10 := rfl
  exact (hsettled (by omega)).resolve_right hdone

end Runs

theorem not_owed_of_returned {S : Sys Input State} (h : S.tasks.all Task.returned = true) :
    ¬ Owed peerId S := by
  rintro ⟨p, hp, hblacklists⟩
  have hreturned := all_eq_true.mp h p hp
  cases p with
  | done => exact hblacklists
  | step act next => cases hreturned

section Concrete

open Transparent

/-- The same choice at a given second. -/
def inSecond (t : Nat) : Choice Input Event → Choice Input Event
  | .start e => .start e
  | .run k i => .run k { i with now := t * 1000000000 }

/-- The liveness check that finds Victor silent, as task `task`. -/
def livenessCheck (t task : Nat) : List (Choice Input Event) :=
  .start .liveness :: List.replicate 9 (inSecond t (.run task calm))

/-- A heartbeat of Victor's on their first connection.  `task` is the number of tasks started
before. -/
def heartbeatAt (t task : Nat) : List (Choice Input Event) :=
  let heartbeat : HeartbeatFrame := ⟨victorId, 0, 0xFF, 0, Octets.zero 32⟩
  let chunk := LengthDelimitedCodec.encode (plainFrame .heartbeat heartbeat.encode).encode
  [.start (.receive 0 chunk), .start (.deliver 0), .start .frame] ++
    List.replicate 3 (inSecond t (.run (task + 2) calm))

/-- Victor connects, and then sends ten heartbeats that are further apart than the timeout. -/
def silentVictor : List (Choice Input Event) :=
  inboundHandshake 0 0 victorId victorPub ++
    (List.range 10).flatMap (fun n => heartbeatAt (20 * n) (8 + 4 * n) ++
      livenessCheck (20 * n + 16) (8 + 4 * n + 3)) ++
    [.run 47 calm]

/-- Victor completes one handshake, times out ten times, and is on the blacklist. -/
theorem blacklisted_of_timeouts_silentVictor :
    ∃ l S, History (fun _ _ => True) openNode l S ∧
      ReputationTracker.blacklistThreshold.toNat ≤ l.countP (TimesOut victorId) ∧
      (∀ m ∈ l, ¬ Succeeds victorId m) ∧ ¬ Owed victorId S ∧
      S.state.blacklisted victorId = true := by
  obtain ⟨l, S, htrail, hcheck⟩ := exists_trail_of_follow (fun _ _ => true)
    (fun _ _ _ => trivial) ⟨openNode.state, []⟩ silentVictor
    (fun l S => S.tasks.all Task.returned && decide
      (blacklistThreshold.toNat ≤ l.countP (TimesOut victorId) ∧
        (∀ m ∈ l, ¬ Succeeds victorId m) ∧ ∀ m ∈ l, ¬ Pardons victorId m ∧ ¬ Lifts victorId m))
    (by decide +kernel)
  obtain ⟨hreturned, hcheck⟩ := (Bool.and_eq_true _ _).mp hcheck
  obtain ⟨htimeouts, hsuccess, hhandshake⟩ := of_decide_eq_true hcheck
  have hdone : ¬ Owed victorId S := not_owed_of_returned hreturned
  exact ⟨l, S, htrail, htimeouts, hsuccess, hdone,
    blacklisted_of_timeouts openNode victorId [] l ⟨openNode.state, []⟩ S .refl htrail
      (.inl (by decide)) htimeouts hsuccess hhandshake hdone⟩

/-- Ten times Victor connects, completes a handshake and is not heard of again.  They have timed
out as often as the threshold says, no success has been recorded, and they are not on the
blacklist: each handshake has forgotten the timeout before it. -/
theorem reconnecting_peer_is_not_blacklisted :
    ∃ l S, History (fun _ _ => True) openNode l S ∧
      ReputationTracker.blacklistThreshold.toNat ≤ l.countP (TimesOut victorId) ∧
      (∀ m ∈ l, ¬ Succeeds victorId m) ∧ ¬ Owed victorId S ∧
      S.state.blacklisted victorId = false := by
  obtain ⟨l, S, htrail, hcheck⟩ := exists_trail_of_follow (fun _ _ => true)
    (fun _ _ _ => trivial) ⟨openNode.state, []⟩
    ((range 10).flatMap fun n =>
      (inboundHandshake n (9 * n) victorId victorPub).map (inSecond (20 * n)) ++
        livenessCheck (20 * n + 16) (9 * n + 8))
    (fun l S => S.tasks.all Task.returned && decide
      (blacklistThreshold.toNat ≤ l.countP (TimesOut victorId) ∧
        (∀ m ∈ l, ¬ Succeeds victorId m) ∧ S.state.blacklisted victorId = false))
    (by decide +kernel)
  obtain ⟨hreturned, hcheck⟩ := (Bool.and_eq_true _ _).mp hcheck
  obtain ⟨htimeouts, hsuccess, hfree⟩ := of_decide_eq_true hcheck
  exact ⟨l, S, htrail, htimeouts, hsuccess, not_owed_of_returned hreturned, hfree⟩

end Concrete

end ProximityMesh.Daemon
