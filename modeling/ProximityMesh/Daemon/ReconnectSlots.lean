/-
  Daemon/ReconnectSlots.lean --- how many reconnect tasks a target has.

  Source: crates/pim-daemon/src/reconnect.rs, reconnect_task.rs and
  `cancel_pending_outbound_for_ip` of crates/pim-daemon/src/ip_control.rs.

  A reconnect task releases the slot of its target as the last thing it does.  A
  cancellation would release it too, while the task may still be at its handshake; but the
  handler that cancels holds the lock of `pending_outbound`, which the cancellation waits
  for, and so no cancellation ever gets that far.  What is left is that slots are per target
  and not per address: `at_most_one_iff` says that this is the only way to a second task.

  What the requesting functions do is in `Node.moves_initiatePeerConnection` and
  `Node.moves_removePeer`.
-/
import ProximityMesh.Daemon.ReconnectManager
import ProximityMesh.Daemon.Unauthenticated
import ProximityMesh.Foundation.Pool

set_option autoImplicit false

namespace ProximityMesh.Daemon

open Protocol Transport Crypto ProximityMesh.Task List Node Option

/-! ## What the functions do to the slots -/

/-- The slots, and what has been spawned. -/
def Node.slots (n : Node) : HashSet ConnectTarget × List ConnectTarget :=
  (n.reconnect.reconnecting, n.spawned)

theorem leaves_slots_onDaemon {α : Type} (p : DaemonM α) : (onDaemon p).Leaves slots := by
  refine leaves_zoom ?_ p
  exact fun _ _ => rfl

theorem leaves_slots_registerTarget (peerId : NodeId) (target : ConnectTarget) :
    (registerTarget peerId target).Leaves slots :=
  leaves_modify fun _ => rfl

theorem leaves_slots_awaitBackoff (attempt : Nat) : (awaitBackoff attempt).Leaves slots := by
  refine leaves_bind leaves_input fun i => leaves_await fun j n r hr => ?_
  split at hr
  · cases hr
    rfl
  · split at hr
    · cases hr
      rfl
    · cases hr

theorem leaves_slots_sessionActive (target : ConnectTarget) :
    (sessionActive target).Leaves slots := by
  refine leaves_bind leaves_read fun known => ?_
  cases known with
  | none => exact leaves_pure
  | some peerId => exact leaves_slots_onDaemon _

def Releases (target : ConnectTarget) (slots slots' : HashSet ConnectTarget × List ConnectTarget) :
    Prop :=
  slots' = (slots.1.remove target, slots.2)

theorem closes_endReconnect (target : ConnectTarget) :
    (endReconnect target).Closes slots (Releases target) :=
  closes_modify fun _ => rfl

/-- A request for some target, or a step that leaves the slots alone. -/
def Node.Requests (n n' : Node) : Prop := n'.slots = n.slots ∨ ∃ target, n' = n.request target

theorem moves_requestReconnect (target : ConnectTarget) :
    (requestReconnect target).Moves (fun _ _ => True) Node.Requests fun _ => True :=
  moves_modify (fun _ _ _ => .inr ⟨target, rfl⟩) trivial

theorem moves_onDaemon {α : Type} (p : DaemonM α) :
    (onDaemon p).Moves (fun _ _ => True) Node.Requests fun _ => True :=
  (leaves_slots_onDaemon p).moves fun _ _ => .inl

theorem moves_registerTarget (peerId : NodeId) (target : ConnectTarget) :
    (registerTarget peerId target).Moves (fun _ _ => True) Node.Requests fun _ => True :=
  (leaves_slots_registerTarget peerId target).moves fun _ _ => .inl

theorem moves_removePeer [Ed25519] (peerId : NodeId) :
    (Node.removePeer peerId).Moves (fun _ _ => True) Node.Requests fun _ => True := by
  refine moves_bind (moves_onDaemon _) fun _ _ => ?_
  refine moves_bind (leaves_read.moves fun _ _ => .inl) fun target _ => ?_
  cases target with
  | none => exact moves_pure trivial
  | some target => exact moves_requestReconnect target

section Roles

variable [Sha256] [Ed25519] [X25519] [HkdfSha256] [HmacSha256] [Blake3]

variable (target : ConnectTarget)

theorem leaves_slots_attemptConnection :
    (attemptConnection withManager target true).Leaves slots := by
  refine leaves_bind leaves_input fun i => ?_
  refine leaves_bind (leaves_slots_onDaemon _) fun _ => ?_
  refine leaves_bind (leaves_slots_onDaemon _) fun connected => ?_
  cases connected with
  | false => exact leaves_bind (leaves_slots_onDaemon _) fun _ => leaves_pure
  | true =>
    refine leaves_bind (leaves_slots_onDaemon _) fun chan => ?_
    refine leaves_bind (leaves_slots_onDaemon _) fun result => ?_
    refine leaves_bind (leaves_slots_onDaemon _) fun _ => ?_
    refine leaves_bind (leaves_slots_onDaemon _) fun _ => ?_
    cases result with
    | some peerId =>
      refine leaves_bind (leaves_slots_registerTarget peerId target) fun _ => ?_
      exact leaves_bind (leaves_slots_onDaemon _) fun _ => leaves_pure
    | none =>
      refine leaves_bind (leaves_slots_onDaemon _) fun cancelled => ?_
      cases cancelled with
      | true => exact leaves_pure
      | false =>
        refine leaves_bind (leaves_slots_onDaemon _) fun _ => ?_
        exact leaves_bind (leaves_slots_onDaemon _) fun _ => leaves_pure

/-- However many attempts are left, the task ends by releasing its slot. -/
theorem closes_reconnectLoop (left attempt : Nat) :
    (reconnectLoop target left attempt).Closes slots (Releases target) := by
  induction left generalizing attempt with
  | zero => exact closes_endReconnect target
  | succ left ih =>
    refine closes_bind (leaves_slots_awaitBackoff attempt) fun slept => ?_
    cases slept with
    | false => exact closes_endReconnect target
    | true =>
      refine closes_bind (leaves_slots_sessionActive target) fun active => ?_
      cases active with
      | true => exact closes_endReconnect target
      | false =>
        refine closes_bind (leaves_slots_attemptConnection target) fun through => ?_
        cases through with
        | true => exact closes_endReconnect target
        | false => exact ih (attempt + 1)

theorem closes_runReconnectTask :
    (runReconnectTask target).Closes slots (Releases target) :=
  closes_bind leaves_read fun maxReconnectAttempts =>
    closes_reconnectLoop target maxReconnectAttempts 0

theorem Node.moves_initiatePeerConnection :
    (initiatePeerConnection target).Moves (fun _ _ => True) Node.Requests fun _ => True := by
  refine moves_bind (B := fun _ => True) ?_ fun _ _ => moves_pure trivial
  refine moves_bind (leaves_input.moves fun _ _ => .inl) fun i _ => ?_
  refine moves_bind (moves_onDaemon _) fun _ _ => ?_
  refine moves_bind (moves_onDaemon _) fun connected _ => ?_
  cases connected with
  | false =>
    refine moves_bind (moves_onDaemon _) fun _ _ => ?_
    exact moves_bind (moves_requestReconnect target) fun _ _ => moves_pure trivial
  | true =>
    refine moves_bind (moves_onDaemon _) fun chan _ => ?_
    refine moves_bind (moves_onDaemon _) fun result _ => ?_
    refine moves_bind (moves_onDaemon _) fun _ _ => ?_
    refine moves_bind (moves_onDaemon _) fun _ _ => ?_
    cases result with
    | some peerId =>
      refine moves_bind (moves_registerTarget peerId target) fun _ _ => ?_
      exact moves_bind (moves_onDaemon _) fun _ _ => moves_pure trivial
    | none =>
      refine moves_bind (moves_onDaemon _) fun cancelled _ => ?_
      cases cancelled with
      | true => exact moves_bind (moves_onDaemon _) fun _ _ => moves_pure trivial
      | false =>
        refine moves_bind (moves_onDaemon _) fun _ _ => ?_
        refine moves_bind (moves_requestReconnect target) fun _ _ => ?_
        exact moves_bind (moves_onDaemon _) fun _ _ => moves_pure trivial

end Roles

/-! ## The system -/

structure ReconnectTask where
  target : ConnectTarget
  body : NodeM Unit

/-- The task has not ended. -/
def ReconnectTask.alive (t : ReconnectTask) : Bool := !t.body.returned

structure Reconnects where
  node : Node
  tasks : List ReconnectTask
  /-- Cancellations by inbound handshakes, at whatever point they are. -/
  cancels : List (NodeM Unit)

inductive ReconnectEvent where
  | request (target : ConnectTarget)
  | cancel (remoteIp : IpAddr)
  /-- A step of a reconnect task. -/
  | work (k : Nat) (i : Input)
  /-- A step of a cancellation. -/
  | resolve (k : Nat) (i : Input)
  /-- Everything else the daemon does. -/
  | meanwhile (daemon : State) (discoveredTargets : HashMap ConnectTarget Nat)
      (targetByPeer : HashMap NodeId ConnectTarget) (cancel : Bool)

namespace Reconnects

/-- What a step finds: whoever cancels holds the lock of `pending_outbound` until the
cancellation has returned. -/
def found (S : Reconnects) : Node :=
  { S.node with daemon := { S.node.daemon with
      pendingHeld := S.node.daemon.pendingHeld || S.cancels.any fun p => !p.returned } }

section Roles

variable [Sha256] [Ed25519] [X25519] [HkdfSha256] [HmacSha256] [Blake3]

/-- The runtime takes over what has been spawned. -/
def launch (n : Node) (tasks : List ReconnectTask) : Node × List ReconnectTask :=
  ({ n with spawned := [] }, tasks ++ n.spawned.map fun target => ⟨target, runReconnectTask target⟩)

def next (S : Reconnects) : ReconnectEvent → Option Reconnects
  | .request target =>
      let (node, tasks) := launch (S.node.request target) S.tasks
      some { S with node, tasks }
  | .cancel remoteIp =>
      if S.found.daemon.pendingHeld then none
      else some { S with cancels := S.cancels ++ [Node.cancelPendingOutboundForIp remoteIp] }
  | .work k i =>
      match S.tasks[k]? with
      | some ⟨target, .step act next⟩ =>
          (act i S.found).map fun node =>
            { S with node, tasks := S.tasks.set k ⟨target, next i S.found⟩ }
      | _ => none
  | .resolve k i =>
      match S.cancels[k]? with
      | some (.step act next) =>
          (act i S.found).map fun node =>
            { S with node, cancels := S.cancels.set k (next i S.found) }
      | _ => none
  | .meanwhile daemon discoveredTargets targetByPeer cancel =>
      some { S with node := { S.node with
        daemon, cancel, reconnect := { S.node.reconnect with discoveredTargets, targetByPeer } } }

/-- The runs of the system, with each state passed and what happened in it. -/
inductive Run (S₀ : Reconnects) : List (Reconnects × ReconnectEvent) → Reconnects → Prop
  | start : Run S₀ [] S₀
  | next {l : List (Reconnects × ReconnectEvent)} {S S' : Reconnects} (e : ReconnectEvent)
      (h : Run S₀ l S) (hnext : S.next e = some S') : Run S₀ (l ++ [(S, e)]) S'

end Roles

/-- No two tasks are alive whose targets have the same `f`. -/
def Distinct {β : Type} (f : ConnectTarget → β) (tasks : List ReconnectTask) : Prop :=
  ∀ (j k : Nat) (t t' : ReconnectTask), tasks[j]? = some t → tasks[k]? = some t' →
    t.alive = true → t'.alive = true → f t.target = f t'.target → j = k

/-- No two tasks are alive for one address. -/
def AtMostOne (S : Reconnects) : Prop := Distinct ConnectTarget.addr S.tasks

/-- A request comes while a task is alive that goes to the same address by another mechanism. -/
def Clash (S : Reconnects) (e : ReconnectEvent) : Prop :=
  ∃ target, e = .request target ∧ ∃ t ∈ S.tasks, t.alive = true ∧ t.target ≠ target ∧
    t.target.addr = target.addr

instance (S : Reconnects) (e : ReconnectEvent) : Decidable (S.Clash e) :=
  match e with
  | .request target =>
    decidable_of_iff (∃ t ∈ S.tasks, t.alive = true ∧ t.target ≠ target ∧
      t.target.addr = target.addr)
      ⟨fun h => ⟨target, rfl, h⟩, fun ⟨_, heq, h⟩ => (ReconnectEvent.request.inj heq) ▸ h⟩
  | .cancel _ | .work _ _ | .resolve _ _ | .meanwhile _ _ _ _ => isFalse nofun

/-- The slots tell which tasks are alive, and no cancellation has taken a step. -/
structure Sound (S : Reconnects) : Prop where
  distinct : Distinct id S.tasks
  slot_iff : ∀ target, S.node.reconnect.reconnecting.contains target = true ↔
    ∃ t ∈ S.tasks, t.alive = true ∧ t.target = target
  closes : ∀ t ∈ S.tasks, t.alive = true → t.body.Closes Node.slots (Releases t.target)
  stuck : ∀ p ∈ S.cancels, ∃ remoteIp, p = Node.cancelPendingOutboundForIp remoteIp
  none_spawned : S.node.spawned = []

/-- Nobody reconnects yet. -/
def idle (node : Node) : Reconnects :=
  ⟨{ node with spawned := [], reconnect := { node.reconnect with reconnecting := .empty } }, [], []⟩

theorem sound_idle (node : Node) : (idle node).Sound where
  distinct := fun _ _ _ _ hj => absurd hj (by simp [idle])
  slot_iff := fun _ => by simp [idle]
  closes := fun _ ht => absurd ht not_mem_nil
  stuck := fun _ hp => absurd hp not_mem_nil
  none_spawned := rfl

/-! ### Lists of tasks -/

section Tasks

variable {β : Type} {f : ConnectTarget → β} {tasks : List ReconnectTask} {a : ReconnectTask}

theorem Distinct.concat (h : Distinct f tasks)
    (hfree : ∀ t ∈ tasks, t.alive = true → f t.target ≠ f a.target) :
    Distinct f (tasks ++ [a]) := by
  intro j k t t' hj hk halive halive' heq
  rw [getElem?_append] at hj hk
  split at hj
  · split at hk
    · exact h j k t t' hj hk halive halive' heq
    · obtain rfl := mem_singleton.mp (mem_of_getElem? hk)
      exact absurd heq (hfree t (mem_of_getElem? hj) halive)
  · obtain rfl := mem_singleton.mp (mem_of_getElem? hj)
    split at hk
    · exact absurd heq.symm (hfree t' (mem_of_getElem? hk) halive')
    · obtain ⟨hlt, -⟩ := List.getElem?_eq_some_iff.mp hj
      obtain ⟨hlt', -⟩ := List.getElem?_eq_some_iff.mp hk
      simp only [length_singleton] at hlt hlt'
      omega

theorem Distinct.set (h : Distinct f tasks) {k : Nat} {t₀ : ReconnectTask}
    (hk : tasks[k]? = some t₀)
    (hlive : t₀.alive = true) (htarget : a.target = t₀.target) : Distinct f (tasks.set k a) := by
  have hother : ∀ j t, j ≠ k → tasks[j]? = some t → t.alive = true → f t.target ≠ f a.target :=
    fun j t hne hj halive heq => hne (h j k t t₀ hj hk halive hlive (htarget ▸ heq))
  intro j j' t t' hj hj' halive halive' heq
  rw [getElem?_set] at hj hj'
  split at hj <;> split at hj'
  · omega
  · split at hj
    · cases hj
      exact absurd heq.symm (hother j' t' (by omega) hj' halive')
    · cases hj
  · split at hj'
    · cases hj'
      exact absurd heq (hother j t (by omega) hj halive)
    · cases hj'
  · exact h j j' t t' hj hj' halive halive' heq

theorem mem_set_cases {k : Nat} {t : ReconnectTask} (h : t ∈ tasks.set k a) :
    (∃ j, j ≠ k ∧ tasks[j]? = some t) ∨ t = a := by
  obtain ⟨j, hj⟩ := mem_iff_getElem?.mp h
  rw [getElem?_set] at hj
  split at hj
  · split at hj
    · exact .inr (some.inj hj).symm
    · cases hj
  · rename_i hne
    exact .inl ⟨j, Ne.symm hne, hj⟩

end Tasks

theorem contains_released {slots slots' : HashSet ConnectTarget} {target target' : ConnectTarget}
    (h : slots' = slots.remove target) :
    slots'.contains target' = true ↔ target' ≠ target ∧ slots.contains target' = true := by
  rw [h, HashMap.contains_remove_eq, Function.update_apply]
  split
  · rename_i heq
    exact iff_of_false Bool.false_ne_true fun hne => hne.1 heq
  · rename_i hne
    exact (and_iff_right hne).symm

variable {S S' : Reconnects}

section Steps

variable [Sha256] [Ed25519] [X25519] [HkdfSha256] [HmacSha256] [Blake3]

/-! ### Requests -/

variable {target : ConnectTarget} {k : Nat} {i : Input}

/-- A request whose slot is taken changes nothing but the order of the slots. -/
theorem next_request_of_contains (hspawned : S.node.spawned = [])
    (htaken : S.node.reconnect.reconnecting.contains target = true)
    (hnext : S.next (.request target) = some S') :
    ∃ node, S' = { S with node } ∧ node.spawned = [] ∧
      ∀ target', node.reconnect.reconnecting.contains target' = true ↔
        S.node.reconnect.reconnecting.contains target' = true := by
  cases hnext
  refine ⟨{ S.node.request target with spawned := [] }, ?_, rfl, fun target' => ?_⟩
  · simp [request, ReconnectManager.beginReconnect, htaken, hspawned]
  · show (S.node.reconnect.reconnecting.insert target ()).contains target' = true ↔ _
    rw [HashMap.contains_insert]
    refine or_iff_right_of_imp ?_
    rintro rfl
    exact htaken

theorem next_request_of_not_contains (hspawned : S.node.spawned = [])
    (hfree : S.node.reconnect.reconnecting.contains target = false)
    (hnext : S.next (.request target) = some S') :
    ∃ node, S' = { S with node, tasks := S.tasks ++ [⟨target, runReconnectTask target⟩] } ∧
      node.spawned = [] ∧ ∀ target', node.reconnect.reconnecting.contains target' = true ↔
        target' = target ∨ S.node.reconnect.reconnecting.contains target' = true := by
  cases hnext
  refine ⟨{ S.node.request target with spawned := [] }, ?_, rfl, fun target' => ?_⟩
  · simp [request, ReconnectManager.beginReconnect, hfree, hspawned]
  · exact HashMap.contains_insert _ _ _ _

theorem alive_fresh (target : ConnectTarget) :
    (⟨target, runReconnectTask target⟩ : ReconnectTask).alive = true := by
  rfl

theorem Sound.request (h : S.Sound) (hnext : S.next (.request target) = some S') : S'.Sound := by
  cases hslot : S.node.reconnect.reconnecting.contains target with
  | true =>
    obtain ⟨node, rfl, hspawned, hslots⟩ := next_request_of_contains h.none_spawned hslot hnext
    exact ⟨h.distinct, fun target' => (hslots target').trans (h.slot_iff target'), h.closes,
      h.stuck, hspawned⟩
  | false =>
    obtain ⟨node, rfl, hspawned, hslots⟩ :=
      next_request_of_not_contains h.none_spawned hslot hnext
    have hfree : ∀ t ∈ S.tasks, t.alive = true → t.target ≠ target := by
      rintro t ht halive rfl
      exact absurd (hslot.symm.trans ((h.slot_iff t.target).mpr ⟨t, ht, halive, rfl⟩)) nofun
    refine ⟨h.distinct.concat hfree, fun target' => ?_, forall_mem_append.mpr
        ⟨h.closes, forall_mem_singleton.mpr fun _ => closes_runReconnectTask target⟩, h.stuck,
      hspawned⟩
    rw [hslots, h.slot_iff]
    simp only [mem_append, mem_singleton, or_and_right, exists_or, exists_eq_left, alive_fresh,
      true_and]
    rw [or_comm, eq_comm]

theorem AtMostOne.request (h : S.AtMostOne) (hsound : S.Sound)
    (hclash : ¬ S.Clash (.request target))
    (hnext : S.next (.request target) = some S') : S'.AtMostOne := by
  cases hslot : S.node.reconnect.reconnecting.contains target with
  | true =>
    obtain ⟨node, rfl, -⟩ := next_request_of_contains hsound.none_spawned hslot hnext
    exact h
  | false =>
    obtain ⟨node, rfl, -⟩ := next_request_of_not_contains hsound.none_spawned hslot hnext
    refine h.concat fun t ht halive haddr => ?_
    by_cases htarget : t.target = target
    · have htaken := (hsound.slot_iff target).mpr ⟨t, ht, halive, htarget⟩
      exact absurd (hslot.symm.trans htaken) nofun
    · exact hclash ⟨target, rfl, t, ht, halive, htarget, haddr⟩

theorem Sound.not_atMostOne_of_clash (h : S.Sound) {e : ReconnectEvent} (hclash : S.Clash e)
    (hnext : S.next e = some S') : ¬ (S.AtMostOne ∧ S'.AtMostOne) := by
  obtain ⟨target, rfl, t, ht, halive, htarget, haddr⟩ := hclash
  obtain ⟨j, hj⟩ := mem_iff_getElem?.mp ht
  obtain ⟨hlt, -⟩ := List.getElem?_eq_some_iff.mp hj
  rintro ⟨hone, hone'⟩
  cases hslot : S.node.reconnect.reconnecting.contains target with
  | true =>
    -- the slot is taken by a task that goes to the same address
    obtain ⟨t', ht', halive', rfl⟩ := (h.slot_iff target).mp hslot
    obtain ⟨k, hk⟩ := mem_iff_getElem?.mp ht'
    obtain rfl := hone j k t t' hj hk halive halive' haddr
    exact htarget (congrArg ReconnectTask.target (some.inj (hj.symm.trans hk)))
  | false =>
    obtain ⟨node, rfl, -⟩ := next_request_of_not_contains h.none_spawned hslot hnext
    have heq := hone' j S.tasks.length t ⟨target, runReconnectTask target⟩
      ((getElem?_append_left hlt).trans hj) getElem?_concat_length halive (alive_fresh target) haddr
    omega

/-! ### Everything else -/

theorem next_work (hnext : S.next (.work k i) = some S') :
    ∃ target act nextOf node, S.tasks[k]? = some ⟨target, .step act nextOf⟩ ∧
      act i S.found = some node ∧
      S' = { S with node, tasks := S.tasks.set k ⟨target, nextOf i S.found⟩ } := by
  simp only [Reconnects.next] at hnext
  split at hnext
  · rename_i target act nextOf hk
    obtain ⟨node, hact, rfl⟩ := map_eq_some_iff.mp hnext
    exact ⟨target, act, nextOf, node, hk, hact, rfl⟩
  · cases hnext

theorem Sound.work (h : S.Sound) (hnext : S.next (.work k i) = some S') : S'.Sound := by
  obtain ⟨target, act, nextOf, node, hk, hact, rfl⟩ := next_work hnext
  have hmem := mem_of_getElem? hk
  obtain ⟨hlt, -⟩ := List.getElem?_eq_some_iff.mp hk
  have hlive : (⟨target, .step act nextOf⟩ : ReconnectTask).alive = true := rfl
  -- a task elsewhere in the list has another target
  have hother : ∀ j t, j ≠ k → S.tasks[j]? = some t → t.alive = true → t.target ≠ target :=
    fun j t hne hj halive heq => hne (h.distinct j k t _ hj hk halive hlive heq)
  -- the slot stays for as long as the task is alive
  obtain ⟨hslots, hcloses, hspawned⟩ : (∀ target',
      node.reconnect.reconnecting.contains target' = true ↔ (target' = target →
        (⟨target, nextOf i S.found⟩ : ReconnectTask).alive = true) ∧
          S.node.reconnect.reconnecting.contains target' = true) ∧
      ((⟨target, nextOf i S.found⟩ : ReconnectTask).alive = true →
        (nextOf i S.found).Closes slots (Releases target)) ∧ node.spawned = [] := by
    unfold ReconnectTask.alive
    rcases h.closes _ hmem hlive i S.found node hact with ⟨hslots, hcloses⟩ | ⟨hreleases, hreturned⟩
    · obtain ⟨hsame, hspawned⟩ := Prod.mk.inj hslots
      rw [hcloses.not_returned, hsame]
      exact ⟨fun _ => (and_iff_right fun _ => rfl).symm, fun _ => hcloses,
        hspawned.trans h.none_spawned⟩
    · obtain ⟨hsame, hspawned⟩ := Prod.mk.inj hreleases
      rw [hreturned]
      refine ⟨fun target' => ?_, nofun, hspawned.trans h.none_spawned⟩
      rw [contains_released hsame]
      exact and_congr_left' ⟨fun hne heq => absurd heq hne, fun hne heq => nomatch hne heq⟩
  refine ⟨h.distinct.set hk hlive rfl, fun target' => ?_, fun t ht halive => ?_, h.stuck, hspawned⟩
  · rw [hslots, h.slot_iff]
    constructor
    · rintro ⟨hstays, t, ht, halive, rfl⟩
      rcases eq_or_mem_set hk ht with rfl | hold
      · exact ⟨_, mem_set hlt _, hstays rfl, rfl⟩
      · exact ⟨t, hold, halive, rfl⟩
    · rintro ⟨t, ht, halive, rfl⟩
      rcases mem_set_cases ht with ⟨j, hne, hj⟩ | rfl
      · exact ⟨fun heq => absurd heq (hother j t hne hj halive), t, mem_of_getElem? hj, halive, rfl⟩
      · exact ⟨fun _ => halive, _, hmem, hlive, rfl⟩
  · rcases mem_set_cases ht with ⟨j, -, hj⟩ | rfl
    · exact h.closes t (mem_of_getElem? hj) halive
    · exact hcloses halive

/-- The cancellation waits for a lock that is held until it has returned. -/
theorem Sound.next_resolve (h : S.Sound) : S.next (.resolve k i) = none := by
  simp only [Reconnects.next]
  split
  · rename_i act nextOf hk
    have hmem := mem_of_getElem? hk
    obtain ⟨remoteIp, hcancel⟩ := h.stuck _ hmem
    have hheld : S.found.daemon.pendingHeld = true :=
      Bool.or_eq_true_iff.mpr (.inr (any_eq_true.mpr ⟨_, hmem, rfl⟩))
    cases hcancel
    simp only [hheld, if_true, map_none]
  · rfl

theorem Sound.next (h : S.Sound) {e : ReconnectEvent} (hnext : S.next e = some S') : S'.Sound := by
  cases e with
  | request target => exact h.request hnext
  | cancel remoteIp =>
    simp only [Reconnects.next, ite_none_left_eq_some] at hnext
    cases hnext.2
    exact ⟨h.distinct, h.slot_iff, h.closes, forall_mem_append.mpr
      ⟨h.stuck, forall_mem_singleton.mpr ⟨remoteIp, rfl⟩⟩, h.none_spawned⟩
  | work k i => exact h.work hnext
  | resolve k i => cases h.next_resolve.symm.trans hnext
  | meanwhile daemon discoveredTargets targetByPeer cancel =>
    cases hnext
    exact ⟨h.distinct, h.slot_iff, h.closes, h.stuck, h.none_spawned⟩

theorem AtMostOne.next (h : S.AtMostOne) (hsound : S.Sound) {e : ReconnectEvent}
    (hclash : ¬ S.Clash e) (hnext : S.next e = some S') : S'.AtMostOne := by
  cases e with
  | request target => exact h.request hsound hclash hnext
  | cancel remoteIp =>
    simp only [Reconnects.next, ite_none_left_eq_some] at hnext
    cases hnext.2
    exact h
  | work k i =>
    obtain ⟨target, act, nextOf, node, hk, -, rfl⟩ := next_work hnext
    exact Distinct.set h hk rfl rfl
  | resolve k i => cases hsound.next_resolve.symm.trans hnext
  | meanwhile daemon discoveredTargets targetByPeer cancel =>
    cases hnext
    exact h

/-! ### Runs -/

/-- A target never has two tasks. -/
theorem Run.sound {node : Node} {l : List (Reconnects × ReconnectEvent)} (h : Run (idle node) l S) :
    S.Sound := by
  induction h with
  | start => exact sound_idle node
  | next e _ hnext ih => exact ih.next hnext

/-- Along a run no two reconnect tasks are ever alive for one address, exactly if no request
ever clashes. -/
theorem at_most_one_iff {node : Node} {l : List (Reconnects × ReconnectEvent)}
    (h : Run (idle node) l S) :
    ((∀ p ∈ l, p.1.AtMostOne) ∧ S.AtMostOne) ↔ ∀ p ∈ l, ¬ p.1.Clash p.2 := by
  induction h with
  | start =>
    refine iff_of_true ⟨fun _ hp => absurd hp not_mem_nil, fun _ _ _ _ hj => ?_⟩
      fun _ hp => absurd hp not_mem_nil
    exact absurd hj (by simp [idle])
  | @next l S S' e hrun hnext ih =>
    simp only [forall_mem_append, forall_mem_singleton]
    rw [← ih]
    constructor
    · rintro ⟨hone, hone'⟩
      exact ⟨hone, fun hclash => hrun.sound.not_atMostOne_of_clash hclash hnext ⟨hone.2, hone'⟩⟩
    · rintro ⟨hone, hclash⟩
      exact ⟨hone, hone.2.next hrun.sound hclash hnext⟩

/-- Follow a list of events. -/
def play (S : Reconnects) : List ReconnectEvent →
    Option (List (Reconnects × ReconnectEvent) × Reconnects)
  | [] => some ([], S)
  | e :: es => do
      let S' ← S.next e
      let (l, S'') ← play S' es
      return ((S, e) :: l, S'')

theorem run_of_play {S₀ : Reconnects} {l₀ l : List (Reconnects × ReconnectEvent)}
    {es : List ReconnectEvent}
    (h : Run S₀ l₀ S) (hplay : S.play es = some (l, S')) : Run S₀ (l₀ ++ l) S' := by
  induction es generalizing S l₀ l with
  | nil =>
    cases hplay
    rw [append_nil]
    exact h
  | cons e es ih =>
    obtain ⟨S₁, hnext, hrest⟩ := bind_eq_some_iff.mp hplay
    obtain ⟨⟨l₁, S₂⟩, hplay₁, heq⟩ := bind_eq_some_iff.mp hrest
    cases heq
    rw [append_cons]
    exact ih (.next e h hnext) hplay₁

theorem exists_run_of_play (node : Node) (es : List ReconnectEvent)
    (check : List (Reconnects × ReconnectEvent) → Reconnects → Bool)
    (h : ((idle node).play es).any (fun r => check r.1 r.2) = true) :
    ∃ l S, Run (idle node) l S ∧ check l S = true := by
  obtain ⟨⟨l, S⟩, hplay, hcheck⟩ := (any_eq_true _ _).mp h
  exact ⟨l, S, run_of_play .start hplay, hcheck⟩

end Steps

/-! ## Two slots for one address -/

section Concrete

open Transparent

/-- A node that is configured to keep in touch with whoever is at `somewhere`. -/
def devotedNode : Node where
  daemon := openNode.state
  reconnect := .new [.tcp somewhere]
  maxReconnectAttempts := 3
  cancel := false
  spawned := []

/-- A quarter of an hour later. -/
def later : Input := { calm with now := 900000000000 }

/-- The task is requested, sleeps, dials and waits for the Response. -/
def askedAndDialled : List ReconnectEvent :=
  .request (.tcp somewhere) :: List.replicate 2 (.work 0 calm) ++ List.replicate 10 (.work 0 later)

/-- While the first task is at work and an inbound handshake tries to cancel its attempt, a
second request gets nothing. -/
theorem at_most_one_asked_twice :
    ∃ l S, Run (idle devotedNode) l S ∧ S.tasks.length = 1 ∧ S.cancels.length = 1 ∧
      S.AtMostOne := by
  obtain ⟨l, S, hrun, hcheck⟩ := exists_run_of_play devotedNode
    (askedAndDialled ++ [.cancel somewhere.ip, .request (.tcp somewhere)])
    (fun l S => S.tasks.length == 1 && S.cancels.length == 1 &&
      l.all fun p => !decide (p.1.Clash p.2)) (by decide +kernel)
  obtain ⟨hlength, hclash⟩ := Bool.and_eq_true_iff.mp hcheck
  obtain ⟨htasks, hcancels⟩ := Bool.and_eq_true_iff.mp hlength
  refine ⟨l, S, hrun, beq_iff_eq.mp htasks, beq_iff_eq.mp hcancels,
    ((at_most_one_iff hrun).mpr fun p hp => ?_).2⟩
  simpa using all_eq_true.mp hclash p hp

/-- The address is configured, and discovered as a Bluetooth PAN: it gets two tasks, which
are both at their attempts. -/
theorem address_has_two_tasks :
    ∃ l S, Run (idle devotedNode) l S ∧ ¬ S.AtMostOne := by
  obtain ⟨l, S, hrun, hcheck⟩ := exists_run_of_play devotedNode
    (askedAndDialled ++ [.request (.bluetoothPan somewhere)])
    (fun _ S => decide (S.tasks.map (fun t => (t.alive, t.target.addr)) =
      [(true, somewhere), (true, somewhere)])) (by decide +kernel)
  refine ⟨l, S, hrun, fun hone => ?_⟩
  obtain ⟨t, tasks, htasks, ht, hrest⟩ := map_eq_cons_iff.mp (of_decide_eq_true hcheck)
  obtain ⟨t', rest, rfl, ht', -⟩ := map_eq_cons_iff.mp hrest
  obtain ⟨halive, haddr⟩ := Prod.mk.inj ht
  obtain ⟨halive', haddr'⟩ := Prod.mk.inj ht'
  have heq := hone 0 1 t t' (by rw [htasks]; rfl) (by rw [htasks]; rfl) halive halive'
    (haddr.trans haddr'.symm)
  exact absurd heq Nat.zero_ne_one

end Concrete

end Reconnects

end ProximityMesh.Daemon
