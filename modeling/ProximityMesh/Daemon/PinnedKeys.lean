/-
  Daemon/PinnedKeys.lean --- the messaging keys of the peer directory over time.

  Source: crates/pim-daemon/src/peer_directory.rs, `handle_incoming_peer_info` of
  crates/pim-daemon/src/identity_broadcast.rs and its callers in
  crates/pim-daemon/src/app/event_loop.rs.

  A `PeerInfo` frame names its source, and a routed one does so in a header that nobody
  signs.  `record_peer_seen` writes the key of the frame over the stored one; an import refuses
  to.  So a key stays what it was, and is first set by its owner, exactly if the frames and
  imports themselves see to it (`keys_pinned_iff`).
-/
import ProximityMesh.Daemon.Unauthenticated

set_option autoImplicit false

namespace ProximityMesh.Daemon

open Protocol ProximityMesh.Task HashMap

/-! ## What writes the directory -/

/-- `import_identity_if_compatible`. -/
def importIdentityIfCompatible (peer : NodeId) (x25519Pub : Octets 32) (nameIfSet : Option String) :
    DaemonM (Option ImportOutcome) :=
  .atomically fun i s =>
    if i.ioOk then
      let (peerDirectory, outcome) :=
        s.peerDirectory.importIdentity peer x25519Pub nameIfSet i.nowMs
      ({ s with peerDirectory }, some outcome)
    else (s, none)

/-- `forget`, as `peers.forget` and the cleanup of stale identities call it. -/
def forgetPeer (peer : NodeId) : DaemonM (Option Bool) :=
  .atomically fun i s =>
    if i.ioOk then
      let (peerDirectory, removed) := s.peerDirectory.forget peer
      ({ s with peerDirectory }, some removed)
    else (s, none)

/-- A `PeerInfo` frame that names `src` and was made by `sender`, or a call of the directory. -/
inductive DirectoryEvent where
  | peerInfo (src sender : NodeId) (x25519Pub : Octets 32) (name : String) (source : PeerInfoSource)
  | importIdentity (peer : NodeId) (x25519Pub : Octets 32) (nameIfSet : Option String)
  | forget (peer : NodeId)
  deriving DecidableEq

namespace DirectoryEvent

def task : DirectoryEvent → DaemonM Unit
  | peerInfo src _ x25519Pub name source => handleIncomingPeerInfo src x25519Pub name source
  | importIdentity peer x25519Pub nameIfSet => do
      let _ ← importIdentityIfCompatible peer x25519Pub nameIfSet
  | forget peer => do
      let _ ← forgetPeer peer

/-- The frame gets past the gate and the database takes it. -/
def Recorded (i : Input) (s : State) (src : NodeId) (source : PeerInfoSource) : Prop :=
  (exec i (passesBroadcastGate src source) s).2 = some true ∧ i.ioOk = true

instance (i : Input) (s : State) (src : NodeId) (source : PeerInfoSource) :
    Decidable (Recorded i s src source) :=
  inferInstanceAs (Decidable (_ ∧ _))

/-- A frame that is recorded repeats the stored key of its source, or comes from its source if
there is none; an import is about a peer whose key is known. -/
def Honest (i : Input) (s : State) : DirectoryEvent → Prop
  | peerInfo src sender x25519Pub _ source => Recorded i s src source →
      (∀ row, HashMap.get s.peerDirectory src = some row → row.x25519Pub = x25519Pub) ∧
        (HashMap.get s.peerDirectory src = none → sender = src)
  | importIdentity peer _ _ => i.ioOk = true → HashMap.get s.peerDirectory peer ≠ none
  | forget _ => True

end DirectoryEvent

section Writes

variable (i : Input) (s : State)

theorem peerDirectory_after_peerInfo (src : NodeId) (x25519Pub : Octets 32) (name : String)
    (source : PeerInfoSource) :
    ((handleIncomingPeerInfo src x25519Pub name source).after i s).peerDirectory =
      if DirectoryEvent.Recorded i s src source then
        s.peerDirectory.upsertPeerSeen src x25519Pub name i.nowMs
      else s.peerDirectory := by
  have hgate : ((passesBroadcastGate src source).after i s).peerDirectory = s.peerDirectory :=
    ((leaves_passesBroadcastGate src source).comp Standing.peerDirectory).after_eq i s
  rcases hexec : exec i (passesBroadcastGate src source) s with ⟨s', passed⟩
  rw [after, hexec] at hgate
  have hrecorded : DirectoryEvent.Recorded i s src source ↔ passed = some true ∧ i.ioOk = true := by
    rw [DirectoryEvent.Recorded, hexec]
  rw [handleIncomingPeerInfo, after, exec_bind, hexec]
  simp only [hrecorded]
  cases passed with
  | none => simpa using hgate
  | some passed =>
    cases passed with
    | false => simpa using hgate
    | true =>
      cases hio : i.ioOk with
      | false => simpa [hio] using hgate
      | true => simp [hio, show s'.peerDirectory = s.peerDirectory from hgate]

theorem peerDirectory_after_import (peer : NodeId) (x25519Pub : Octets 32)
    (nameIfSet : Option String) :
    ((importIdentityIfCompatible peer x25519Pub nameIfSet).after i s).peerDirectory =
      if i.ioOk then (s.peerDirectory.importIdentity peer x25519Pub nameIfSet i.nowMs).1
      else s.peerDirectory := by
  simp only [importIdentityIfCompatible, after, exec_atomically]
  split
  · rfl
  · rfl

theorem peerDirectory_after_forget (peer : NodeId) :
    ((forgetPeer peer).after i s).peerDirectory =
      if i.ioOk then remove s.peerDirectory peer else s.peerDirectory := by
  simp only [forgetPeer, after, exec_atomically]
  split
  · rfl
  · rfl

end Writes

/-! ## One event -/

/-- The event leaves every stored key alone unless it forgets the peer, and sets a key only as
a frame of the peer it names. -/
structure KeepsKeys (e : DirectoryEvent) (d d' : PeerDirectory) : Prop where
  kept : ∀ peer row, HashMap.get d peer = some row → e ≠ .forget peer →
    ∃ row', HashMap.get d' peer = some row' ∧ row'.x25519Pub = row.x25519Pub
  owned : ∀ peer row', HashMap.get d peer = none → HashMap.get d' peer = some row' →
    ∃ x25519Pub name source, e = .peerInfo peer peer x25519Pub name source

theorem keepsKeys_refl (e : DirectoryEvent) (d : PeerDirectory) : KeepsKeys e d d where
  kept _ row hget _ := ⟨row, hget, rfl⟩
  owned _ _ hnone hget := by
    rw [hnone] at hget
    cases hget

theorem keepsKeys_insert_iff {e : DirectoryEvent} {d : PeerDirectory} {peer : NodeId}
    {new : PeerRow} (hforget : ∀ q, e ≠ .forget q) :
    KeepsKeys e d (insert d peer new) ↔
      (∀ row, get d peer = some row → row.x25519Pub = new.x25519Pub) ∧
        (get d peer = none →
          ∃ x25519Pub name source, e = .peerInfo peer peer x25519Pub name source) := by
  constructor
  · intro h
    constructor
    · intro row hget
      obtain ⟨row', hget', hkey⟩ := h.kept peer row hget (hforget peer)
      rw [get_insert_self] at hget'
      rw [← hkey, Option.some.inj hget']
    · exact fun hnone => h.owned peer new hnone (get_insert_self ..)
  · rintro ⟨hkey, howned⟩
    constructor
    · intro q row hget _
      rcases Decidable.em (q = peer) with rfl | hne
      · exact ⟨new, get_insert_self .., (hkey row hget).symm⟩
      · exact ⟨row, (get_insert_ne _ _ hne).trans hget, rfl⟩
    · intro q row' hnone hget
      rcases get_insert_cases hget with ⟨rfl, -⟩ | ⟨-, hold⟩
      · exact howned hnone
      · rw [hnone] at hold
        cases hold

theorem keepsKeys_iff_honest (e : DirectoryEvent) (i : Input) (s : State) :
    KeepsKeys e s.peerDirectory (e.task.after i s).peerDirectory ↔ e.Honest i s := by
  cases e with
  | peerInfo src sender x25519Pub name source =>
    simp only [DirectoryEvent.task, DirectoryEvent.Honest, peerDirectory_after_peerInfo]
    split
    · rename_i hrecorded
      refine (keepsKeys_insert_iff fun _ h => by cases h).trans ?_
      simp [hrecorded]
    · rename_i hrecorded
      simp [hrecorded, keepsKeys_refl]
  | importIdentity peer x25519Pub nameIfSet =>
    simp only [DirectoryEvent.task, DirectoryEvent.Honest, after_discard,
      peerDirectory_after_import]
    cases hio : i.ioOk with
    | false => simp [keepsKeys_refl]
    | true =>
      simp only [if_true, PeerDirectory.importIdentity]
      split
      · rename_i hnone
        refine (keepsKeys_insert_iff fun _ h => by cases h).trans ?_
        simp [hnone]
      · rename_i row hrow
        split
        · refine (keepsKeys_insert_iff fun _ h => by cases h).trans ?_
          simp [hrow]
        · simp [hrow, keepsKeys_refl]
  | forget peer =>
    simp only [DirectoryEvent.task, DirectoryEvent.Honest, after_discard,
      peerDirectory_after_forget, iff_true]
    split
    · constructor
      · intro q row hget hforget
        have hne : q ≠ peer := fun heq => hforget (congrArg _ heq.symm)
        exact ⟨row, (get_remove_ne _ hne).trans hget, rfl⟩
      · intro q row' hnone hget
        rw [get_of_get_remove hget] at hnone
        cases hnone
    · exact keepsKeys_refl _ _

/-! ## Sequences of events -/

/-- The daemon after a sequence of events. -/
def runEvents (s : State) (events : List (DirectoryEvent × Input)) : State :=
  events.foldl (fun s e => e.1.task.after e.2 s) s

theorem runEvents_append (s : State) (before behind : List (DirectoryEvent × Input)) :
    runEvents s (before ++ behind) = runEvents (runEvents s before) behind :=
  List.foldl_append

/-- A key that is stored at some moment is stored at every later one, unless the peer was
forgotten in between, and a key that appears was sent by its peer. -/
structure KeysPinned (s : State) (events : List (DirectoryEvent × Input)) : Prop where
  kept : ∀ before between behind, events = before ++ between ++ behind →
    ∀ peer row, HashMap.get (runEvents s before).peerDirectory peer = some row →
      (∀ e ∈ between, e.1 ≠ .forget peer) →
      ∃ row', HashMap.get (runEvents s (before ++ between)).peerDirectory peer = some row' ∧
        row'.x25519Pub = row.x25519Pub
  owned : ∀ before e behind, events = before ++ e :: behind →
    ∀ peer row', HashMap.get (runEvents s before).peerDirectory peer = none →
      HashMap.get (runEvents s (before ++ [e])).peerDirectory peer = some row' →
      ∃ x25519Pub name source, e.1 = .peerInfo peer peer x25519Pub name source

theorem key_kept_of_forall {s : State} {events : List (DirectoryEvent × Input)}
    (h : ∀ before e behind, events = before ++ e :: behind →
      KeepsKeys e.1 (runEvents s before).peerDirectory (runEvents s (before ++ [e])).peerDirectory)
    {peer : NodeId} {row : PeerRow} (hget : get s.peerDirectory peer = some row)
    (hforget : ∀ e ∈ events, e.1 ≠ .forget peer) :
    ∃ row', get (runEvents s events).peerDirectory peer = some row' ∧
      row'.x25519Pub = row.x25519Pub := by
  induction events using List.reverseRecOn with
  | nil => exact ⟨row, hget, rfl⟩
  | append_singleton events e ih =>
    obtain ⟨row₁, hget₁, hkey₁⟩ := ih
      (fun before e' behind heq => h before e' (behind ++ [e]) (by rw [heq]; simp))
      fun e' he' => hforget e' (List.mem_append_left _ he')
    obtain ⟨row₂, hget₂, hkey₂⟩ := (h events e [] rfl).kept peer row₁ hget₁
      (hforget e (List.mem_append_right _ (List.mem_singleton_self e)))
    exact ⟨row₂, hget₂, hkey₂.trans hkey₁⟩

/-- The stored keys are pinned along a sequence of frames, imports and forgets exactly if every
event is honest when it is processed. -/
theorem keys_pinned_iff (s : State) (events : List (DirectoryEvent × Input)) :
    KeysPinned s events ↔
      ∀ before e behind, events = before ++ e :: behind → e.1.Honest e.2 (runEvents s before) := by
  -- what one event does, at its place in the sequence
  have hstep : ∀ before e, KeepsKeys e.1 (runEvents s before).peerDirectory
      (runEvents s (before ++ [e])).peerDirectory ↔ e.1.Honest e.2 (runEvents s before) := by
    intro before e
    rw [runEvents_append]
    exact keepsKeys_iff_honest e.1 e.2 (runEvents s before)
  constructor
  · intro h before e behind heq
    rw [← hstep]
    constructor
    · intro peer row hget hforget
      refine h.kept before [e] behind (by rw [heq]; simp) peer row hget fun e' he' => ?_
      rw [List.mem_singleton.mp he']
      exact hforget
    · exact h.owned before e behind heq
  · intro h
    constructor
    · intro before between behind heq peer row hget hforget
      rw [runEvents_append]
      refine key_kept_of_forall (fun before' e behind' heq' => ?_) hget hforget
      rw [← runEvents_append, ← runEvents_append, ← List.append_assoc, hstep]
      exact h (before ++ before') e (behind' ++ behind) (by rw [heq, heq']; simp)
    · intro before e behind heq
      exact ((hstep before e).mpr (h before e behind heq)).owned

/-! ## A frame that names another node -/

section Forged

open Transparent

def victorKey : Octets 32 := .fill 32 7

def malloryKey : Octets 32 := .fill 32 8

/-- Victor announces their key; then mallory routes an announcement that names victor. -/
def forgedAnnouncement : List (DirectoryEvent × Input) :=
  [(.peerInfo victorId victorId victorKey "" .direct, calm),
    (.peerInfo victorId malloryId malloryKey "" .routed, calm)]

theorem forged_announcement_replaces_key :
    (HashMap.get (runEvents openNode.state (forgedAnnouncement.take 1)).peerDirectory victorId).map
        (·.x25519Pub) = some victorKey ∧
      (HashMap.get (runEvents openNode.state forgedAnnouncement).peerDirectory victorId).map
        (·.x25519Pub) = some malloryKey := by
  decide +kernel

/-- The frame that does it. -/
def forgedFrame : MeshDataFrame where
  srcId := victorId
  dstId := openNode.config.selfId
  sessionId := 0
  ttl := 5
  flags := .isControl
  payload := (ControlFrame.peerInfo malloryKey "").encode

example : (get ((handleRoutedControl forgedFrame).after calm
    (runEvents openNode.state (forgedAnnouncement.take 1))).peerDirectory victorId).map
      (·.x25519Pub) = some malloryKey := by
  decide +kernel

end Forged

end ProximityMesh.Daemon
