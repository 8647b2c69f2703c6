/-
  Daemon/ReconnectManager.lean --- reconnect tasks and the slots they run under.

  Source: crates/pim-daemon/src/reconnect.rs, reconnect_task.rs, `remove_peer` of
  peer_tasks.rs, `initiate_peer_connection` of discovery_tasks.rs and
  `cancel_pending_outbound_for_ip` of ip_control.rs.

  The manager stands beside the daemon's state: a `Node` is both, and what the daemon does
  by itself is lifted to it.  A reconnect task is requested where a peer is lost or a first
  attempt fails.  The slot of its target is claimed by whoever requests it and released by the
  task when it ends; a cancellation of whatever attempt is pending at the address would release
  it too.

  Targets learned from discovery come and go outside of this module.
-/
import ProximityMesh.Daemon.Handshake

set_option autoImplicit false

namespace ProximityMesh.Daemon

open Protocol Transport Crypto ProximityMesh.Task

/-! ## The manager -/

structure ReconnectManager where
  /-- Targets of the configuration: always reconnect if lost. -/
  configuredTargets : HashSet ConnectTarget
  /-- Targets of discovery, with the time they were last observed. -/
  discoveredTargets : HashMap ConnectTarget Nat
  /-- Learned after a handshake. -/
  targetByPeer : HashMap NodeId ConnectTarget
  /-- Targets that have a reconnect task. -/
  reconnecting : HashSet ConnectTarget

namespace ReconnectManager

def new (targets : List ConnectTarget) : ReconnectManager where
  configuredTargets := targets.foldl (fun m target => m.insert target ()) .empty
  discoveredTargets := .empty
  targetByPeer := .empty
  reconnecting := .empty

/-- Record the target of a peer after a successful handshake. -/
def register (m : ReconnectManager) (peerId : NodeId) (target : ConnectTarget) : ReconnectManager :=
  { m with targetByPeer := m.targetByPeer.insert peerId target }

def isReconnectableTarget (m : ReconnectManager) (peerId : NodeId) : Option ConnectTarget :=
  (m.targetByPeer.get peerId).filter fun target =>
    m.configuredTargets.contains target || m.discoveredTargets.contains target

/-- Claim the slot of a target; the result says whether a task should be spawned. -/
def beginReconnect (m : ReconnectManager) (target : ConnectTarget) : Bool × ReconnectManager :=
  (!m.reconnecting.contains target, { m with reconnecting := m.reconnecting.insert target () })

/-- Release the slot. -/
def endReconnect (m : ReconnectManager) (target : ConnectTarget) : ReconnectManager :=
  { m with reconnecting := m.reconnecting.remove target }

/-- A peer that was last reached at the target. -/
def peerIdForTarget (m : ReconnectManager) (target : ConnectTarget) : Option NodeId :=
  (m.targetByPeer.iter.find? fun entry => entry.2 = target).map Prod.fst

end ReconnectManager

/-! ## Backoff -/

/-- Delay in milliseconds without jitter: a second, doubled at each attempt, at most ten. -/
def backoffBaseMs (attempt : Nat) : Nat := min (1000 * 2 ^ min attempt 15) 10000

/-- The delay with a jitter of up to a quarter, drawn from random bytes. -/
def backoffDuration (attempt : Nat) (draw : Bytes) : Nat :=
  let base := backoffBaseMs attempt
  let jitterRange := base / 4
  max (base - jitterRange + beNat draw % (2 * jitterRange + 1)) 1

/-! ## Nodes -/

structure Node where
  daemon : State
  reconnect : ReconnectManager
  maxReconnectAttempts : Nat
  /-- The daemon is shutting down. -/
  cancel : Bool
  /-- Targets of reconnect tasks that are spawned and not yet running. -/
  spawned : List ConnectTarget

/-- A function of the daemon that uses the reconnect manager. -/
abbrev NodeM (α : Type) : Type := Task Input Node α

/-- What the daemon does without the manager. -/
def onDaemon {α : Type} (p : DaemonM α) : NodeM α :=
  p.zoom Node.daemon fun s n => { n with daemon := s }

theorem projects_onDaemon {α : Type} (p : DaemonM α) : (onDaemon p).Projects Node.daemon Eq p :=
  projects_zoom (fun _ _ => rfl) p

/-- `end_reconnect`. -/
def endReconnect (target : ConnectTarget) : NodeM Unit :=
  .modify fun n => { n with reconnect := n.reconnect.endReconnect target }

/-- `register`. -/
def registerTarget (peerId : NodeId) (target : ConnectTarget) : NodeM Unit :=
  .modify fun n => { n with reconnect := n.reconnect.register peerId target }

/-- `begin_reconnect`, and the spawn if it says so.  The new task does not run before the
spawn, so nothing is lost by taking the two together. -/
def Node.request (n : Node) (target : ConnectTarget) : Node :=
  let (granted, reconnect) := n.reconnect.beginReconnect target
  { n with reconnect, spawned := if granted then n.spawned ++ [target] else n.spawned }

def requestReconnect (target : ConnectTarget) : NodeM Unit := .modify fun n => n.request target

/-- Attempts are made beside the manager. -/
def withManager : Surroundings Node := ⟨onDaemon, registerTarget, requestReconnect⟩

theorem leaves_registerTarget (peerId : NodeId) (target : ConnectTarget) :
    (registerTarget peerId target).Leaves Node.daemon := leaves_modify fun _ => rfl

theorem leaves_requestReconnect (target : ConnectTarget) :
    (requestReconnect target).Leaves Node.daemon := leaves_modify fun _ => rfl

theorem leaves_endReconnect (target : ConnectTarget) :
    (endReconnect target).Leaves Node.daemon := leaves_modify fun _ => rfl

/-! ## The reconnect task -/

/-- Sleep before an attempt; `false` when the daemon shuts down.  If both are ready the
input says which is seen. -/
def awaitBackoff (attempt : Nat) : NodeM Bool := do
  let i ← .input
  let wakeAt := i.now + backoffDuration attempt (i.random 0).toList * 1000000
  .await fun i n =>
    if n.cancel && !i.timedOut then some (n, false)
    else if wakeAt ≤ i.now then some (n, true)
    else none

/-- The peer of the target has a session again. -/
def sessionActive (target : ConnectTarget) : NodeM Bool := do
  match ← (.read fun n => n.reconnect.peerIdForTarget target : NodeM (Option NodeId)) with
  | some peerId => onDaemon (.read fun s => s.sessions.contains peerId)
  | none => pure false

section Roles

variable [Sha256] [Ed25519] [X25519] [HkdfSha256] [HmacSha256] [Blake3]

/-- The loop of the task, with the number of attempts left. -/
def reconnectLoop (target : ConnectTarget) : (left attempt : Nat) → NodeM Unit
  | 0, _ => endReconnect target
  | left + 1, attempt => do
      if ← awaitBackoff attempt then
        if ← sessionActive target then endReconnect target
        else if ← attemptConnection withManager target true then endReconnect target
        else reconnectLoop target left (attempt + 1)
      else endReconnect target

def runReconnectTask (target : ConnectTarget) : NodeM Unit := do
  let maxReconnectAttempts ← .read Node.maxReconnectAttempts
  reconnectLoop target maxReconnectAttempts 0

/-- On the daemon's state an attempt is the one without the manager. -/
theorem projects_attemptConnection (target : ConnectTarget) (isReconnect : Bool) :
    (attemptConnection withManager target isReconnect).Projects Node.daemon Eq
      (attemptConnection alone target isReconnect) := by
  refine projects_bind projects_input ?_
  rintro i _ rfl
  refine projects_bind (projects_onDaemon _) fun _ _ _ => ?_
  refine projects_bind (projects_onDaemon _) ?_
  rintro connected _ rfl
  cases connected with
  | false =>
    refine projects_bind (projects_onDaemon _) fun _ _ _ => ?_
    cases isReconnect with
    | true => exact projects_pure rfl
    | false => exact (leaves_requestReconnect target).projects_bind fun _ => projects_pure rfl
  | true =>
    refine projects_bind (projects_onDaemon _) ?_
    rintro chan _ rfl
    refine projects_bind (projects_onDaemon _) ?_
    rintro result _ rfl
    refine projects_bind (projects_onDaemon _) fun _ _ _ => ?_
    refine projects_bind (projects_onDaemon _) fun _ _ _ => ?_
    cases result with
    | some peerId =>
      refine (leaves_registerTarget peerId target).projects_bind
        (q := alone.lift (removeHsChannel _) >>= fun _ => pure true) fun _ => ?_
      exact projects_bind (projects_onDaemon _) fun _ _ _ => projects_pure rfl
    | none =>
      refine projects_bind (projects_onDaemon _) ?_
      rintro cancelled _ rfl
      cases cancelled <;> cases isReconnect
      · refine projects_bind (projects_onDaemon _) fun _ _ _ => ?_
        refine (leaves_requestReconnect target).projects_bind
          (q := alone.lift (removeHsChannel _) >>= fun _ => pure false) fun _ => ?_
        exact projects_bind (projects_onDaemon _) fun _ _ _ => projects_pure rfl
      · refine projects_bind (projects_onDaemon _) fun _ _ _ => ?_
        exact projects_bind (projects_onDaemon _) fun _ _ _ => projects_pure rfl
      · exact projects_bind (projects_onDaemon _) fun _ _ _ => projects_pure rfl
      · exact projects_pure rfl

/-! ## Who requests one, and who releases its slot -/

namespace Node

/-- The first attempt at a target; a failure is followed by a reconnect task. -/
def initiatePeerConnection (target : ConnectTarget) : NodeM Unit := do
  let _ ← attemptConnection withManager target false

theorem projects_initiatePeerConnection (target : ConnectTarget) :
    (initiatePeerConnection target).Projects Node.daemon (fun _ _ => True)
      (Daemon.initiatePeerConnection target) :=
  projects_bind (projects_attemptConnection target false) fun _ _ _ => projects_pure trivial

end Node

end Roles

namespace Node

/-- Removing a peer ends with the request to reconnect it. -/
def removePeer [Ed25519] (peerId : NodeId) : NodeM Unit := do
  onDaemon (Daemon.removePeer peerId)
  match ← (.read fun n => n.reconnect.isReconnectableTarget peerId :
      NodeM (Option ConnectTarget)) with
  | some target => requestReconnect target
  | none => pure ()

theorem projects_removePeer [Ed25519] (peerId : NodeId) :
    (removePeer peerId).Projects Node.daemon (fun _ _ => True) (Daemon.removePeer peerId) := by
  refine (projects_onDaemon _).bind_pure fun _ _ _ => ?_
  refine leaves_read.projects_bind fun target => ?_
  cases target with
  | none => exact projects_pure trivial
  | some target => exact (leaves_requestReconnect target).projects_pure fun _ => trivial

/-- Giving up an outbound attempt releases the slot of its target. -/
def cancelPendingOutboundForIp (remoteIp : IpAddr) : NodeM Unit := do
  match ← onDaemon (takePendingOutbound remoteIp) with
  | none => pure ()
  | some entry =>
      onDaemon (dropOutbound entry.transportKey)
      endReconnect entry.target

theorem projects_cancelPendingOutboundForIp (remoteIp : IpAddr) :
    (cancelPendingOutboundForIp remoteIp).Projects Node.daemon (fun _ _ => True)
      (Daemon.cancelPendingOutboundForIp remoteIp) := by
  refine projects_bind (projects_onDaemon _) ?_
  rintro entry _ rfl
  cases entry with
  | none => exact projects_pure trivial
  | some entry =>
    refine (projects_onDaemon _).bind_pure fun _ _ _ => ?_
    exact (leaves_endReconnect entry.target).projects_pure fun _ => trivial

end Node

end ProximityMesh.Daemon
