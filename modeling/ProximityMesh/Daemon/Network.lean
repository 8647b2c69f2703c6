/-
  Daemon/Network.lean --- nodes that all run the daemon, joined by connections.

  A cable joins a connection of the node that dialled to one of the node that
  accepted, and carries what the write task of one end writes to the read task of
  the other.  The node that dials sends its own id.  Timing, breaks, and what the
  TUN devices and the internet supply are open.

  A node of a network is a daemon of its own: what a network does to it is a run of
  `start`, so whatever holds in every run of a daemon holds of every node.
-/
import ProximityMesh.Daemon.Runtime

set_option autoImplicit false

namespace ProximityMesh.Daemon

open Protocol Transport Crypto Routing Option

/-- A connection of a node, by its number there. -/
structure Port where
  node : Nat
  conn : ConnId
  deriving DecidableEq

structure Network where
  nodes : List (Sys Input State)
  /-- The end that dialled and the end that accepted. -/
  cables : List (Port × Port)

/-- What can happen in a network. -/
inductive Move where
  /-- Something that concerns one node only. -/
  | act (node : Nat) (choice : Choice Input Event)
  /-- A connection that a node has dialled is accepted. -/
  | join (dialler : Port) (acceptor : Nat) (remoteAddr : SocketAddr)
  /-- A message goes over a cable. -/
  | carry (sender : Port)

/-- An event in which no other node takes part; a message that cannot be written is
lost. -/
def Event.isLocal : Event → Bool
  | .accept _ _ | .receive _ _ => false
  | .writeOut _ ok => !ok
  | _ => true

def localChoice : Choice Input Event → Bool
  | .start e => e.isLocal
  | .run _ _ => true

namespace Network

/-- The other end of a cable. -/
def farEnd (N : Network) (port : Port) : Option Port :=
  N.cables.findSome? fun cable =>
    if cable.1 = port then some cable.2 else if cable.2 = port then some cable.1 else none

section Moves

variable [Sha256] [Ed25519] [X25519] [HkdfSha256] [HmacSha256] [Blake3] [Aes256Gcm]

/-- The network in which nothing has happened. -/
def boot (boots : List Boot) : Network := ⟨boots.map fun b => ⟨b.state, []⟩, []⟩

/-- A choice of one node. -/
def happen (N : Network) (k : Nat) (choice : Choice Input Event) : Option Network := do
  let S ← N.nodes[k]?
  let S' ← S.next start choice
  return { N with nodes := N.nodes.set k S' }

/-- The network after a move, unless it is impossible. -/
def next (N : Network) : Move → Option Network
  | .act k choice => if localChoice choice then N.happen k choice else none
  | .join port acceptor remoteAddr => do
      let dialler ← N.nodes[port.node]?
      let peer ← N.nodes[acceptor]?
      guard (dialler.state.transport.conns.contains port.conn && (N.farEnd port).isNone)
      let N' ← N.happen acceptor (.start (.accept remoteAddr dialler.state.config.selfId))
      return { N' with cables := N'.cables ++ [(port, ⟨acceptor, peer.state.transport.nextConn⟩)] }
  | .carry port => do
      let far ← N.farEnd port
      let sender ← N.nodes[port.node]?
      let (_, wire) ← sender.state.transport.writeOut port.conn true
      let N' ← N.happen port.node (.start (.writeOut port.conn true))
      N'.happen far.node (.start (.receive far.conn wire))

/-- Every event that a move brings to a node from outside the network meets `P`. -/
def Meets (P : Nat → State → Event → Prop) (N : Network) (m : Move) : Prop :=
  ∀ k e S, m = .act k (.start e) → N.nodes[k]? = some S → P k S.state e

/-- The networks that runs reach in which every event of node `k` meets `P k`. -/
inductive Reaches (P : Nat → State → Event → Prop) (boots : List Boot) : Network → Prop
  | boot : Reaches P boots (boot boots)
  | move {N N' : Network} (m : Move) (h : Reaches P boots N) (hm : N.Meets P m)
      (hnext : N.next m = some N') : Reaches P boots N'

variable {P : Nat → State → Event → Prop} {boots : List Boot}
variable {N N' : Network} {ok : Nat → State → Event → Bool}

theorem Reaches.mono {P' : Nat → State → Event → Prop} (hP : ∀ k s e, P k s e → P' k s e)
    (h : Reaches P boots N) : Reaches P' boots N := by
  induction h with
  | boot => exact .boot
  | move m _ hm hnext ih =>
    exact .move m ih (fun k e S hact hS => hP k S.state e (hm k e S hact hS)) hnext

/-! ## A node of a network -/

/-- Every node is where a run of its own leads. -/
def Projects (P : Nat → State → Event → Prop) (boots : List Boot) (N : Network) : Prop :=
  ∀ k S b, N.nodes[k]? = some S → boots[k]? = some b →
    Sys.Reaches start (fun s e => e.isLocal = true → P k s e) ⟨b.state, []⟩ S

theorem projects_happen {k : Nat} {choice : Choice Input Event} (hN : N.Projects P boots)
    (h : N.happen k choice = some N')
    (hP : ∀ e S, choice = .start e → N.nodes[k]? = some S → e.isLocal = true → P k S.state e) :
    N'.Projects P boots := by
  obtain ⟨S, hS, h⟩ := bind_eq_some_iff.mp h
  obtain ⟨S', hnext, h⟩ := bind_eq_some_iff.mp h
  cases h
  intro j T b hT hb
  rcases Nat.decEq k j with hne | rfl
  · have hold : N.nodes[j]? = some T := (List.getElem?_set_ne hne).symm.trans hT
    exact hN j T b hold hb
  · have hlt : k < N.nodes.length := (List.getElem?_eq_some_iff.mp hS).1
    obtain rfl : S' = T := some.inj ((List.getElem?_set_self hlt).symm.trans hT)
    have hreaches := hN k S b hS hb
    cases choice with
    | start e => exact .start e hreaches (hP e S rfl hS) hnext
    | run task i => exact .run task i hreaches hnext

theorem Reaches.projects (h : Reaches P boots N) : N.Projects P boots := by
  induction h with
  | boot =>
    intro k S b hS hb
    rw [Network.boot, List.getElem?_map] at hS
    obtain ⟨b', hb', rfl⟩ := map_eq_some_iff.mp hS
    obtain rfl := some.inj (hb'.symm.trans hb)
    exact .refl
  | @move N N' m _ hm hnext ih =>
    -- the events that join two nodes are not local, so nothing is asked of them
    cases m with
    | act k choice =>
      simp only [next] at hnext
      split at hnext
      · exact projects_happen ih hnext fun e S he hS _ => hm k e S (by rw [he]) hS
      · cases hnext
    | join port acceptor remoteAddr =>
      obtain ⟨dialler, -, hnext⟩ := bind_eq_some_iff.mp hnext
      obtain ⟨peer, -, hnext⟩ := bind_eq_some_iff.mp hnext
      obtain ⟨-, -, hnext⟩ := bind_eq_some_iff.mp hnext
      obtain ⟨N₁, haccept, hnext⟩ := bind_eq_some_iff.mp hnext
      cases hnext
      have haccepted : N₁.Projects P boots := by
        refine projects_happen ih haccept fun e S he _ hlocal => ?_
        cases he
        cases hlocal
      exact haccepted
    | carry port =>
      obtain ⟨far, -, hnext⟩ := bind_eq_some_iff.mp hnext
      obtain ⟨sender, -, hnext⟩ := bind_eq_some_iff.mp hnext
      obtain ⟨⟨_, wire⟩, -, hnext⟩ := bind_eq_some_iff.mp hnext
      obtain ⟨N₁, hwrite, hreceive⟩ := bind_eq_some_iff.mp hnext
      have hwritten : N₁.Projects P boots := by
        refine projects_happen ih hwrite fun e S he _ hlocal => ?_
        cases he
        cases hlocal
      refine projects_happen hwritten hreceive fun e S he _ hlocal => ?_
      cases he
      cases hlocal

theorem Reaches.node (h : Reaches P boots N) {k : Nat} {S : Sys Input State} {b : Boot}
    (hS : N.nodes[k]? = some S) (hb : boots[k]? = some b) :
    Daemon.Reaches (fun s e => e.isLocal = true → P k s e) b S.state :=
  ⟨S, rfl, h.projects k S b hS hb⟩

/-! ## Concrete runs -/

/-- Whether the events of a move pass a test. -/
def passes (ok : Nat → State → Event → Bool) (N : Network) : Move → Bool
  | .act k (.start e) => N.nodes[k]?.all fun S => ok k S.state e
  | _ => true

/-- The network after a move that passes. -/
def attempt (ok : Nat → State → Event → Bool) (N : Network) (m : Move) : Option Network :=
  if N.passes ok m then N.next m else none

theorem Reaches.attempt (hok : ∀ k s e, ok k s e = true → P k s e) (h : Reaches P boots N)
    {m : Move} (hm : N.attempt ok m = some N') : Reaches P boots N' := by
  unfold Network.attempt at hm
  split at hm
  · rename_i hpass
    refine .move m h ?_ hm
    rintro k e S rfl hS
    exact hok k S.state e ((all_eq_true _ _).mp hpass S hS)
  · cases hm

/-- The first task that can take a step. -/
def runnable (i : Input) (S : Sys Input State) : Option Nat :=
  S.tasks.findIdx? fun
    | .done _ => false
    | .step act _ => (act i S.state).isSome

/-- What the nodes do by themselves: tasks go on, messages are carried and taken up. -/
def pending (inputs : Nat → Input) (N : Network) : List Move :=
  N.nodes.zipIdx.flatMap fun (S, k) =>
    (runnable (inputs k) S).toList.map (fun task => Move.act k (.run task (inputs k))) ++
      [.act k (.start .frame), .act k (.start .responder)] ++
      (List.range S.state.transport.nextConn).flatMap fun conn =>
        [.act k (.start (.deliver conn)), .carry ⟨k, conn⟩]

/-- Let the nodes work until nothing is left to do. -/
def settle (ok : Nat → State → Event → Bool) (inputs : Nat → Input) : Nat → Network → Network
  | 0, N => N
  | fuel + 1, N =>
      match (N.pending inputs).findSome? (N.attempt ok) with
      | some N' => settle ok inputs fuel N'
      | none => N

theorem Reaches.settle (hok : ∀ k s e, ok k s e = true → P k s e) (inputs : Nat → Input)
    (fuel : Nat) (h : Reaches P boots N) : Reaches P boots (N.settle ok inputs fuel) := by
  induction fuel generalizing N with
  | zero => exact h
  | succ fuel ih =>
    rw [Network.settle]
    split
    · rename_i N' hfound
      obtain ⟨m, -, hm⟩ := List.exists_of_findSome?_eq_some hfound
      exact ih (h.attempt hok hm)
    · exact h

/-- After each of the moves the nodes settle. -/
def play (ok : Nat → State → Event → Bool) (inputs : Nat → Input) (fuel : Nat) :
    Network → List Move → Option Network
  | N, [] => some N
  | N, m :: moves =>
      (N.attempt ok m).bind fun N' => play ok inputs fuel (N'.settle ok inputs fuel) moves

theorem Reaches.play (hok : ∀ k s e, ok k s e = true → P k s e) {inputs : Nat → Input}
    {fuel : Nat} {moves : List Move} (h : Reaches P boots N)
    (hplay : N.play ok inputs fuel moves = some N') : Reaches P boots N' := by
  induction moves generalizing N with
  | nil =>
    obtain rfl : N = N' := some.inj hplay
    exact h
  | cons m moves ih =>
    obtain ⟨N₁, hm, hrest⟩ := bind_eq_some_iff.mp hplay
    exact ih ((h.attempt hok hm).settle hok inputs fuel) hrest

end Moves

end Network

end ProximityMesh.Daemon
