/-
  Daemon/Accounts.lean --- what the daemon holds against a peer.

  Source: crates/pim-daemon/src/rate_limiter.rs, reputation.rs and the blacklist of
  crates/pim-routing/src/table.rs.

  Three records are kept per peer id: a token bucket, a failure score and whether the
  routing table avoids the peer.  `AccountStep` lists the calls that write them.  What a
  step of a task does is then said of the ledger and of the accounts together.
-/
import ProximityMesh.Daemon.Ledger

set_option autoImplicit false

namespace ProximityMesh.Daemon

open Protocol Transport Crypto Routing ProximityMesh.Task

/-! ## The accounts -/

structure Accounts where
  rateLimiter : RateLimiter
  reputation : ReputationTracker
  blacklistedPeers : HashSet NodeId

def Standing.accounts (st : Standing) : Accounts where
  rateLimiter := st.rateLimiter
  reputation := st.reputation
  blacklistedPeers := st.routing.blacklistedPeers

def State.accounts (s : State) : Accounts := s.standing.accounts

/-- The calls that write the accounts; whether the limiter is asked and whether failures are
recorded are parameters. -/
inductive AccountStep (metered failing : Prop) (a : Accounts) : Accounts → Prop
  | still : AccountStep metered failing a a
  | allow (h : metered) (now : Nat) (peer : NodeId) :
      AccountStep metered failing a { a with rateLimiter := (a.rateLimiter.allow now peer).2 }
  | removeBucket (peer : NodeId) :
      AccountStep metered failing a { a with rateLimiter := a.rateLimiter.removePeer peer }
  | recordFailure (h : failing) (peer : NodeId) :
      AccountStep metered failing a { a with reputation := (a.reputation.recordFailure peer).2 }
  | blacklist (h : failing) (peer : NodeId) :
      AccountStep metered failing a
        { a with blacklistedPeers := a.blacklistedPeers.insert peer () }
  | recordSuccess (peer : NodeId) :
      AccountStep metered failing a { a with reputation := a.reputation.recordSuccess peer }
  | unblacklist (peer : NodeId) :
      AccountStep metered failing a
        { a with blacklistedPeers := a.blacklistedPeers.remove peer }
  | pardon (peer : NodeId) :
      AccountStep metered failing a { a with reputation := a.reputation.pardon peer }

theorem blacklistedPeers_removeRoutesVia (t : RoutingTable) (peerId : NodeId) :
    (t.removeRoutesVia peerId).1.blacklistedPeers = t.blacklistedPeers := by
  rw [RoutingTable.removeRoutesVia_fst]
  exact (RoutingTable.onlyRoutes_removeRoutes _ _).blacklistedPeers

theorem blacklistedPeers_blacklistPeer (t : RoutingTable) (peerId : NodeId) :
    (t.blacklistPeer peerId).1.blacklistedPeers = t.blacklistedPeers.insert peerId () :=
  blacklistedPeers_removeRoutesVia _ _

theorem accountStep_of_routing {metered failing : Prop} {s : State} {routing : RoutingTable}
    (h : routing.blacklistedPeers = s.routing.blacklistedPeers) :
    AccountStep metered failing s.accounts (State.accounts { s with routing }) := by
  have hsame : State.accounts { s with routing } = s.accounts := by
    show Accounts.mk _ _ routing.blacklistedPeers = _
    rw [h]
    rfl
  rw [hsame]
  exact .still

/-! ## Steps -/

/-- What is said of the steps of a task: the terms on which frames are taken up, who may be
removed, whether the limiter is asked and whether failures are recorded. -/
structure Scope where
  terms : Terms
  Parts : NodeId → Prop
  metered : Prop
  failing : Prop

/-- Nothing is assumed. -/
def Scope.any (config : Config) : Scope := ⟨anyTerms config, fun _ => True, True, True⟩

section Behaviour

variable [Sha256] [Ed25519] [X25519] [HkdfSha256] [Blake3]

/-- What a step does to the ledger and to the accounts. -/
structure State.Step (W : Scope) (s s' : State) : Prop where
  move : State.Move W.terms W.Parts s s'
  account : AccountStep W.metered W.failing s.accounts s'.accounts

instance (W : Scope) : Std.Refl (State.Step W) := ⟨fun _ => ⟨.still, .still⟩⟩

/-- Every step of the task is of that kind. -/
def Behaves {α : Type} (W : Scope) (p : DaemonM α) : Prop :=
  p.Moves (W.terms.Allows W.Parts) (State.Step W) fun _ => True

def Standing.books (st : Standing) : Ledger × Accounts := (st.ledger, st.accounts)

def State.books (s : State) : Ledger × Accounts := s.standing.books

variable {α β : Type} {W : Scope}

theorem behaves_of_leaves_books {p : DaemonM α} (h : p.Leaves State.books) : Behaves W p := by
  refine h.moves fun s s' heq => ⟨?_, ?_⟩
  · show Ledger.Move _ _ s.ledger s'.ledger
    rw [show s'.ledger = s.ledger from congrArg Prod.fst heq]
    exact .still
  · rw [show s'.accounts = s.accounts from congrArg Prod.snd heq]
    exact .still

theorem behaves_of_leaves {p : DaemonM α} (h : p.Leaves State.standing) : Behaves W p :=
  behaves_of_leaves_books (h.comp Standing.books)

theorem behaves_of_leaves_sansDirectory {p : DaemonM α}
    (h : p.Leaves fun s => s.standing.sansDirectory) : Behaves W p :=
  behaves_of_leaves_books (h.comp Standing.books)

/-- Decryption moves the replay counter of a session and nothing else. -/
theorem behaves_decryptWith [Aes256Gcm] (cell : Nat) (frame : TransportFrame) :
    Behaves W (decryptWith cell frame) := by
  have haccounts : (decryptWith cell frame).Leaves State.accounts := by
    refine leaves_atomically fun _ s => ?_
    cases s.cells.get cell with
    | none | some session => rfl
  exact behaves_of_leaves_books ((leaves_decryptWith cell frame).pair haccounts)

theorem behaves_pure {a : α} : Behaves W (pure a : DaemonM α) := moves_pure trivial

theorem behaves_bind {p : DaemonM β} {k : β → DaemonM α} (hp : Behaves W p)
    (hk : ∀ b, Behaves W (k b)) : Behaves W (p >>= k) := moves_bind hp fun b _ => hk b

theorem behaves_modify {f : State → State} (h : ∀ s, State.Step W s (f s)) :
    Behaves W (Task.modify f : DaemonM Unit) := moves_modify (fun _ s _ => h s) trivial

theorem behaves_modify_quiet {f : State → State} (h : ∀ s, (f s).books = s.books) :
    Behaves W (Task.modify f : DaemonM Unit) := behaves_of_leaves_books (leaves_modify h)

theorem behaves_atomically {f : Input → State → State × α} (h : ∀ i s, State.Step W s (f i s).1) :
    Behaves W (Task.atomically f : DaemonM α) := moves_atomically fun i s _ => ⟨h i s, trivial⟩

theorem behaves_read {f : State → α} : Behaves W (Task.read f : DaemonM α) :=
  behaves_of_leaves leaves_read

theorem behaves_input : Behaves W (Task.input : DaemonM Input) := behaves_of_leaves leaves_input

end Behaviour

end ProximityMesh.Daemon
