/-
  Daemon/RouteReplay.lean --- which route updates of a peer are taken as new, over the
  life of a daemon.

  Source: `apply_update`, `remove_peer` and `add_peer` of crates/pim-routing/src/table.rs,
  and their calls in crates/pim-daemon/src/app/event_loop.rs, peer_tasks.rs and
  handshake.rs.

  The table records the highest sequence number it has accepted from each peer and
  drops what is not above it.  The record lives as long as the peer is in the table,
  not as long as the daemon: `remove_peer` deletes it, and then an update from before
  the removal is new again.  A handshake does not delete it, and then the updates of
  a peer that counts from 1 again are old.

  Both sides come from one account of what a step does to the record of a peer
  (`State.Move.recorded`): it is kept, deleted with the peer, or raised by an update.
-/
import ProximityMesh.Daemon.Identity
import ProximityMesh.Routing.BellmanFord

set_option autoImplicit false

namespace ProximityMesh

namespace Routing.RoutingTable

open Protocol

/-- The update passes the checks of its origin and of its sequence number. -/
def Accepts (t : RoutingTable) (frame : RouteUpdateFrame) (fromPeer : NodeId) : Prop :=
  frame.originId = fromPeer ∧ ¬ frame.sequence ≤ (t.peerMaxSeq.get fromPeer).getD 0

instance (t : RoutingTable) (frame : RouteUpdateFrame) (fromPeer : NodeId) :
    Decidable (t.Accepts frame fromPeer) := inferInstanceAs (Decidable (_ ∧ _))

theorem accepts_iff {t : RoutingTable} {frame : RouteUpdateFrame} {fromPeer : NodeId} :
    t.Accepts frame fromPeer ↔ frame.originId = fromPeer ∧ t.maxSeqOf fromPeer < frame.sequence :=
  and_congr_right fun _ => UInt64.not_le

end Routing.RoutingTable

namespace Daemon

open Protocol Transport Crypto Routing

/-! ## One step -/

/-- The step removes a peer from the routing table that has a record there. -/
def Removes (peerId : NodeId) (s s' : State) : Prop :=
  (s.routing.peerMaxSeq.get peerId).isSome ∧ s'.routing = (s.routing.removePeer peerId).1

/-- The step is one in which a handshake of the peer completes. -/
def Greets (peerId : NodeId) (s s' : State) : Prop :=
  ∃ h : Completed, h.peerId = peerId ∧ s'.handshakes = s.handshakes ++ [h]

theorem Removes.get {peerId : NodeId} {s s' : State} (h : Removes peerId s s') :
    s'.routing.peerMaxSeq.get peerId = none := by
  rw [h.2, RoutingTable.peerMaxSeq_removePeer, HashMap.get_remove_self]

theorem Removes.maxSeqOf {peerId : NodeId} {s s' : State} (h : Removes peerId s s') :
    s'.routing.maxSeqOf peerId = 0 :=
  congrArg (Option.getD · 0) h.get

section Steps

variable [Blake3]

/-- The step applies the update to the routing table. -/
def Applies (frame : RouteUpdateFrame) (s s' : State) : Prop :=
  ¬ s.routing.Rejected frame frame.originId ∧
    ∃ now, s'.routing = (s.routing.applyUpdate now frame frame.originId).1

/-- The step accepts the update, whether or not it then finds it suspicious. -/
def Takes (frame : RouteUpdateFrame) (s s' : State) : Prop :=
  s.routing.Accepts frame frame.originId ∧
    ∃ now, s'.routing = (s.routing.applyUpdate now frame frame.originId).1

variable {frame : RouteUpdateFrame} {s s' : State} {p : NodeId} {T : Terms} {D : NodeId → Prop}

theorem Applies.takes (h : Applies frame s s') : Takes frame s s' :=
  ⟨⟨rfl, fun hold => h.1 (.inr (.inl hold))⟩, h.2⟩

theorem Takes.lt (h : Takes frame s s') : s.routing.maxSeqOf frame.originId < frame.sequence :=
  (RoutingTable.accepts_iff.mp h.1).2

theorem Takes.maxSeqOf (h : Takes frame s s') :
    s'.routing.maxSeqOf frame.originId = frame.sequence := by
  obtain ⟨haccepts, now, heq⟩ := h
  rw [RoutingTable.maxSeqOf, heq, RoutingTable.peerMaxSeq_applyUpdate,
    if_pos (RoutingTable.accepts_iff.mp haccepts), HashMap.get_insert_self]
  rfl

theorem not_takes_of_kept (hkept : s'.routing.maxSeqOf p = s.routing.maxSeqOf p)
    (horigin : frame.originId = p) : ¬ Takes frame s s' := by
  subst horigin
  intro htakes
  have hlt := htakes.lt
  rw [← hkept, htakes.maxSeqOf] at hlt
  exact UInt64.lt_irrefl _ hlt

variable [Sha256] [Ed25519] [X25519] [HkdfSha256]

theorem State.Move.recorded (h : State.Move T D s s') (p : NodeId) :
    s'.routing.peerMaxSeq.get p = s.routing.peerMaxSeq.get p ∨ (D p ∧ Removes p s s') ∨
      ∃ frame, frame.originId = p ∧ Takes frame s s' := by
  have hcall : s'.routing.peerMaxSeq = s.routing.peerMaxSeq ∨
      (∃ peerId, D peerId ∧ s'.routing = (s.routing.removePeer peerId).1) ∨
      ∃ now update fromPeer, s'.routing = (s.routing.applyUpdate now update fromPeer).1 :=
    Ledger.Move.routing h
  rcases hcall with hseq | ⟨peerId, hpeer, hremove⟩ | ⟨now, update, fromPeer, hupdate⟩
  · exact .inl (congrArg (HashMap.get · p) hseq)
  · have hget : s'.routing.peerMaxSeq.get p = (s.routing.peerMaxSeq.remove peerId).get p := by
      rw [hremove, RoutingTable.peerMaxSeq_removePeer]
    rcases Decidable.em (p = peerId) with rfl | hne
    · cases hrecord : s.routing.peerMaxSeq.get p with
      | some sequence =>
        refine .inr (.inl ⟨hpeer, ?_, hremove⟩)
        rw [hrecord]
        rfl
      | none => exact .inl (hget.trans (HashMap.get_remove_self _ p))
    · exact .inl (hget.trans (HashMap.get_remove_ne _ hne))
  · have hseq := RoutingTable.peerMaxSeq_applyUpdate s.routing now update fromPeer
    rw [← hupdate] at hseq
    split at hseq
    · rename_i haccepts
      obtain ⟨rfl, hlt⟩ := haccepts
      rcases Decidable.em (p = update.originId) with rfl | hne
      · exact .inr (.inr ⟨update, rfl, RoutingTable.accepts_iff.mpr ⟨rfl, hlt⟩, now, hupdate⟩)
      · left
        rw [hseq, HashMap.get_insert_ne _ _ hne]
    · exact .inl (congrArg (HashMap.get · p) hseq)

theorem State.Move.maxSeqOf_le (h : State.Move T D s s') (hp : ¬ D p) :
    s.routing.maxSeqOf p ≤ s'.routing.maxSeqOf p := by
  rcases h.recorded p with hkept | ⟨hD, -⟩ | ⟨frame, rfl, htakes⟩
  · unfold RoutingTable.maxSeqOf
    rw [hkept]
    exact UInt64.le_refl _
  · exact absurd hD hp
  · rw [htakes.maxSeqOf]
    exact UInt64.le_of_lt htakes.lt

theorem Greets.peerMaxSeq (h : Greets p s s') (hmove : State.Move T D s s') :
    s'.routing.peerMaxSeq = s.routing.peerMaxSeq := by
  obtain ⟨completed, -, hlonger⟩ := h
  have hne : s'.handshakes ≠ s.handshakes := by
    rw [hlonger]
    simp
  have hcases : ∀ l l', Ledger.Move T D l l' →
      l'.credentials.handshakes ≠ l.credentials.handshakes →
      l'.routing.peerMaxSeq = l.routing.peerMaxSeq := by
    intro l l' hmove hne
    cases hmove with
    | change _ hseq => exact hseq
    | still => rfl
    | removePeer peerId hpeer | applyUpdate now update fromPeer hfiled => exact absurd rfl hne
  exact hcases s.ledger s'.ledger hmove hne

theorem stable_selfId (T : Terms) (selfId : NodeId) :
    Stable T fun l => l.routing.selfId = selfId := by
  intro l l' _ hl hchange
  cases hchange with
  | route ops routing hops hrun => exact (RoutingTable.run_frame hrun).1.trans hl
  | _ => exact hl

/-! ## Replayed updates -/

/-- Step `j` of a history applies an update with this origin, sequence number and
signature. -/
def AppliedAt (l : List (State × State)) (j : Nat) (origin : NodeId) (sequence : UInt64)
    (signature : Octets 64) : Prop :=
  ∃ m frame, l[j]? = some m ∧ frame.originId = origin ∧ frame.sequence = sequence ∧
    frame.signature = signature ∧ Applies frame m.1 m.2

variable [HmacSha256] [Aes256Gcm]

/-- A run of the daemon from its start, with the states before and after each step, in
which everything that happens meets `K`. -/
def History (K : State → Choice Input Event → Prop) (b : Boot) (l : List (State × State))
    (S : Sys Input State) : Prop :=
  Sys.Trail start K ⟨b.state, []⟩ l S

/-- In every run in which no Goodbye names the origin and the origin is never silent for too
long, each of its signed updates is applied at most once. -/
theorem applied_at_most_once (b : Boot) (origin : NodeId) (l : List (State × State))
    (S : Sys Input State) (h : History (Spares (· ≠ origin)) b l S) (sequence : UInt64)
    (signature : Octets 64) (j k : Nat) (hj : AppliedAt l j origin sequence signature)
    (hk : AppliedAt l k origin sequence signature) : j = k := by
  obtain ⟨m, frame, hm, horigin, hsequence, -, happlies⟩ := hj
  obtain ⟨m', frame', hm', horigin', hsequence', -, happlies'⟩ := hk
  have hgrows :
      ∀ m ∈ l, (m.1.routing.maxSeqOf origin).toNat ≤ (m.2.routing.maxSeqOf origin).toNat := by
    intro m hmem
    have hmove := move_of_mem_trail h m hmem
    exact UInt64.le_iff_toNat_le.mp (hmove.maxSeqOf_le (not_not.mpr rfl))
  -- applying takes the record from below the sequence number to it
  have hraises (s s')
      (hA : ∃ frame, frame.originId = origin ∧ frame.sequence = sequence ∧ Takes frame s s') :
      (s.routing.maxSeqOf origin).toNat < sequence.toNat ∧
        sequence.toNat ≤ (s'.routing.maxSeqOf origin).toNat := by
    obtain ⟨frame, rfl, rfl, htakes⟩ := hA
    exact ⟨UInt64.lt_iff_toNat_lt.mp htakes.lt, htakes.maxSeqOf ▸ Nat.le_refl _⟩
  exact h.at_most_once (A := fun s s' => ∃ frame : RouteUpdateFrame,
      frame.originId = origin ∧ frame.sequence = sequence ∧ Takes frame s s') hgrows hraises hm hm'
    ⟨frame, horigin, hsequence, happlies.takes⟩ ⟨frame', horigin', hsequence', happlies'.takes⟩

/-! ## Restarted peers -/

/-- The update is a signed advertisement of a daemon started with `b`. -/
def Advertises (b : Boot) (frame : RouteUpdateFrame) : Prop :=
  ∃ s toPeer t unsigned, Reaches (fun _ _ => True) b s ∧
    s.routing.generateAdvertisement toPeer = some (t, unsigned) ∧
    frame = signRouteUpdate b.config.signingKey unsigned

/-- A daemon that has been started anew counts its advertisements from 1. -/
theorem Advertises.spec {b : Boot} (h : Advertises b frame) :
    frame.originId = b.config.selfId ∧ 0 < frame.sequence := by
  obtain ⟨s, toPeer, t, unsigned, hreaches, hgen, rfl⟩ := h
  have hself := (holds_of_reaches (stable_selfId (anyTerms b.config) b.config.selfId) rfl rfl
    (fun _ _ r _ => admits_anyTerms b.config r) hreaches).inv
  obtain ⟨sequence, hnext, -, horigin, hsequence, -⟩ :=
    RoutingTable.generateAdvertisement_eq_some hgen
  have hcount := RoutingTable.toNat_nextSequence hnext
  refine ⟨horigin.trans hself, ?_⟩
  show 0 < unsigned.sequence
  rw [hsequence, UInt64.lt_iff_toNat_lt, hcount]
  exact Nat.succ_pos _

/-- Where the updates of a peer come in order, one that comes next is above the record exactly
if it was when the record was last looked at, or the peer has been removed since. -/
theorem maxSeqOf_lt_iff {sequence : UInt64} (hpos : 0 < sequence)
    {K : State → Choice Input Event → Prop} {S₀ S : Sys Input State} {l : List (State × State)}
    (h : Sys.Trail start K S₀ l S) (hmoves : ∀ m ∈ l, State.Move T D m.1 m.2)
    (horder : ∀ m ∈ l, ∀ frame, frame.originId = p → Takes frame m.1 m.2 →
      frame.sequence < sequence) :
    S.state.routing.maxSeqOf p < sequence ↔
      S₀.state.routing.maxSeqOf p < sequence ∨ ∃ m ∈ l, Removes p m.1 m.2 := by
  induction h with
  | refl =>
    constructor
    · exact .inl
    · rintro (hlt | ⟨m, hm, -⟩)
      · exact hlt
      · cases hm
  | @step l S S' c h hc hnext ih =>
    have ih := ih (fun m hm => hmoves m (List.mem_append_left _ hm))
      fun m hm => horder m (List.mem_append_left _ hm)
    have hlast : (S.state, S'.state) ∈ l ++ [(S.state, S'.state)] :=
      List.mem_append_right l (.head _)
    have hsplit : (∃ m ∈ l ++ [(S.state, S'.state)], Removes p m.1 m.2) ↔
        (∃ m ∈ l, Removes p m.1 m.2) ∨ Removes p S.state S'.state := by
      simp
    rw [hsplit, ← or_assoc, ← ih]
    rcases (hmoves _ hlast).recorded p with hkept | ⟨-, hremoves⟩ | ⟨frame, rfl, htakes⟩
    · have hsame : S'.state.routing.maxSeqOf p = S.state.routing.maxSeqOf p :=
        congrArg (Option.getD · 0) hkept
      have hstays : ¬ Removes p S.state S'.state := by
        intro hremoves
        have hrecord := hremoves.1
        rw [← hkept, hremoves.get] at hrecord
        cases hrecord
      rw [hsame, or_iff_left hstays]
    · refine iff_of_true ?_ (.inr hremoves)
      rw [hremoves.maxSeqOf]
      exact hpos
    · have hlt := horder _ hlast frame rfl htakes
      refine iff_of_true ?_ (.inl (UInt64.lt_trans htakes.lt hlt))
      rw [htakes.maxSeqOf]
      exact hlt

/-- A peer has restarted its daemon, and a handshake of it completes.  In every history, an
advertisement of the new daemon that comes in order is accepted exactly if the record of
the peer was below its sequence number before the handshake, or the peer has been
removed since. -/
theorem restarted_accepted_iff (b restarted : Boot) (l₀ l : List (State × State))
    (S₀ S₁ S : Sys Input State) (c : Choice Input Event)
    (h₀ : History (fun _ _ => True) b l₀ S₀) (hnext : S₀.next start c = some S₁)
    (hgreets : Greets restarted.config.selfId S₀.state S₁.state)
    (h : Sys.Trail start (fun _ _ => True) S₁ l S) (frame : RouteUpdateFrame)
    (hframe : Advertises restarted frame)
    (horder : ∀ m ∈ l, ∀ earlier : RouteUpdateFrame, earlier.originId = restarted.config.selfId →
      Takes earlier m.1 m.2 → earlier.sequence < frame.sequence) :
    S.state.routing.Accepts frame restarted.config.selfId ↔
      S₀.state.routing.maxSeqOf restarted.config.selfId < frame.sequence ∨
        ∃ m ∈ l, Removes restarted.config.selfId m.1 m.2 := by
  obtain ⟨horigin, hpos⟩ := hframe.spec
  have hgreeted : History (fun _ _ => True) b (l₀ ++ [(S₀.state, S₁.state)]) S₁ :=
    .step c h₀ trivial hnext
  have hmoves : ∀ m ∈ (l₀ ++ [(S₀.state, S₁.state)]) ++ l,
      State.Move (anyTerms b.config) (fun _ => True) m.1 m.2 :=
    move_of_mem_trail ((hgreeted.trans h).imp spares_anybody)
  have hsame : S₁.state.routing.maxSeqOf restarted.config.selfId =
      S₀.state.routing.maxSeqOf restarted.config.selfId := by
    have hmove := hmoves (S₀.state, S₁.state) (by simp)
    rw [RoutingTable.maxSeqOf, hgreets.peerMaxSeq hmove]
    rfl
  rw [RoutingTable.accepts_iff, ← hsame, ← maxSeqOf_lt_iff hpos h
    (fun m hm => hmoves m (List.mem_append_right _ hm)) horder]
  exact and_iff_right horigin

/-! ## Concrete runs -/

/-- Where a list of choices leads, and past which states. -/
theorem exists_trail_of_follow {K : State → Choice Input Event → Prop}
    (ok : State → Choice Input Event → Bool) (hok : ∀ s c, ok s c = true → K s c)
    (S₀ : Sys Input State) (choices : List (Choice Input Event))
    (check : List (State × State) → Sys Input State → Bool)
    (h : (Sys.follow start ok S₀ choices).any (fun r => check r.1 r.2) = true) :
    ∃ l S, Sys.Trail start K S₀ l S ∧ check l S = true := by
  obtain ⟨⟨l, S⟩, hfollow, hcheck⟩ := (Option.any_eq_true _ _).mp h
  exact ⟨l, S, Sys.trail_of_follow hok hfollow, hcheck⟩

/-- Whether a handshake of the peer completes in a step. -/
def greetsNow (peerId : NodeId) (s s' : State) : Bool :=
  s'.handshakes.getLast?.any fun h =>
    decide (h.peerId = peerId ∧ s'.handshakes = s.handshakes ++ [h])

/-- A run up to a handshake of a peer, and on from there. -/
theorem exists_greeting_of_follow (b : Boot) (peerId : NodeId)
    (before after : List (Choice Input Event)) (c : Choice Input Event)
    (check : State → List (State × State) → State → Bool)
    (h : (Sys.follow start (fun _ _ => true) ⟨b.state, []⟩ before).any (fun r₀ =>
      (r₀.2.next start c).any fun S₁ => greetsNow peerId r₀.2.state S₁.state &&
        (Sys.follow start (fun _ _ => true) S₁ after).any fun r =>
          check r₀.2.state r.1 r.2.state) = true) :
    ∃ l₀ S₀ S₁ l S, History (fun _ _ => True) b l₀ S₀ ∧ S₀.next start c = some S₁ ∧
      Greets peerId S₀.state S₁.state ∧ Sys.Trail start (fun _ _ => True) S₁ l S ∧
      check S₀.state l S.state = true := by
  obtain ⟨⟨l₀, S₀⟩, hbefore, h⟩ := (Option.any_eq_true _ _).mp h
  obtain ⟨S₁, hnext, h⟩ := (Option.any_eq_true _ _).mp h
  obtain ⟨hgreets, h⟩ := (Bool.and_eq_true _ _).mp h
  obtain ⟨⟨l, S⟩, hafter, hcheck⟩ := (Option.any_eq_true _ _).mp h
  obtain ⟨completed, -, hcompleted⟩ := (Option.any_eq_true _ _).mp hgreets
  exact ⟨l₀, S₀, S₁, l, S, Sys.trail_of_follow (fun _ _ _ => trivial) hbefore, hnext,
    ⟨completed, of_decide_eq_true hcompleted⟩, Sys.trail_of_follow (fun _ _ _ => trivial) hafter,
    hcheck⟩

/-- Whether a step applies an update at time 0. -/
def appliesNow (frame : RouteUpdateFrame) (m : State × State) : Bool :=
  decide (¬ m.1.routing.Rejected frame frame.originId ∧
    m.2.routing = (m.1.routing.applyUpdate 0 frame frame.originId).1)

omit [Sha256] [Ed25519] [X25519] [HkdfSha256] [HmacSha256] [Aes256Gcm] in
theorem appliedAt_of_appliesNow {l : List (State × State)} {j : Nat} {frame : RouteUpdateFrame}
    (h : l[j]?.any (appliesNow frame) = true) :
    AppliedAt l j frame.originId frame.sequence frame.signature := by
  obtain ⟨m, hm, happlies⟩ := (Option.any_eq_true _ _).mp h
  obtain ⟨hpasses, htable⟩ := of_decide_eq_true happlies
  exact ⟨m, frame, hm, rfl, rfl, rfl, hpasses, 0, htable⟩

end Steps

section Concrete

open Transparent

/-- What Victor starts. -/
def victorNode : Boot :=
  { openNode with config := { openNode.config with signingKey := victorPub } }

/-- The first advertisement that Victor's daemon makes, before it knows anybody. -/
def victorAdvert : RouteUpdateFrame :=
  signRouteUpdate victorPub
    { originId := victorId, sequence := 1
      entries := [{ destination := victorId, hops := 0, flags := 0
                    meshIp := victorNode.config.meshIpv4.octets }]
      signature := Octets.zero 64 }

theorem advertises_victorAdvert : Advertises victorNode victorAdvert :=
  ⟨victorNode.state, openNode.config.selfId, _, _, ⟨_, rfl, .refl⟩, rfl, rfl⟩

/-- A frame arrives on a connection, and the event loop takes the first steps for it. -/
def inboundFrame (conn task count : Nat) (frame : TransportFrame) : List (Choice Input Event) :=
  [.start (.receive conn (LengthDelimitedCodec.encode frame.encode)), .start (.deliver conn),
    .start .frame] ++ List.replicate count (.run (task + 2) calm)

def advertFrame : TransportFrame := plainFrame .routeUpdate victorAdvert.encode

/-- Nobody says goodbye in the name of `p`, and `p` is not silent for too long. -/
def sparesOnly (p : NodeId) (s : State) : Choice Input Event → Bool
  | .start .frame =>
      s.transport.incoming.head?.all fun r =>
        match ControlFrame.decode r.frame.payload with
        | .ok (.goodbye id _) _ => decide (id ≠ p)
        | _ => true
  | .start _ => true
  | .run _ i => s.peerLastHb.iter.all fun e => decide (i.now - e.2 > livenessTimeout → e.1 ≠ p)

theorem spares_of_sparesOnly (p : NodeId) (s : State) (c : Choice Input Event)
    (h : sparesOnly p s c = true) : Spares (· ≠ p) s c := by
  cases c with
  | start e =>
    rintro rfl r hr - id reason rest hdecode
    have hr := (Option.all_eq_true _ _).mp h r hr
    rw [hdecode] at hr
    exact of_decide_eq_true hr
  | run k i =>
    intro e he
    exact of_decide_eq_true (List.all_eq_true.mp h e he)

/-- Victor connects and the network delivers an update of Victor's twice: it is applied
when it first arrives and at no other step. -/
theorem applied_at_most_once_victor :
    ∃ l S, History (Spares (· ≠ victorId)) openNode l S ∧
      AppliedAt l 41 victorId 1 victorAdvert.signature ∧
      ∀ k, AppliedAt l k victorId 1 victorAdvert.signature → k = 41 := by
  obtain ⟨l, S, htrail, hcheck⟩ := exists_trail_of_follow (sparesOnly victorId)
    (spares_of_sparesOnly victorId) ⟨openNode.state, []⟩
    (inboundHandshake 0 0 victorId victorPub ++ inboundFrame 0 8 4 advertFrame ++
      inboundFrame 0 11 4 advertFrame)
    (fun l _ => l[41]?.any (appliesNow victorAdvert)) (by decide +kernel)
  have happlied : AppliedAt l 41 victorId 1 victorAdvert.signature := appliedAt_of_appliesNow hcheck
  exact ⟨l, S, htrail, happlied, fun k hk =>
    applied_at_most_once openNode victorId l S htrail 1 victorAdvert.signature k 41 hk happlied⟩

/-- Victor connects, advertises, says goodbye and connects again; then the network delivers the
old advertisement once more, and it is applied once more. -/
theorem goodbye_lets_update_in_again :
    verifyRouteUpdate victorAdvert victorPub = true ∧
    ∃ l S, History (fun _ _ => True) openNode l S ∧
      AppliedAt l 41 victorId 1 victorAdvert.signature ∧
      AppliedAt l 96 victorId 1 victorAdvert.signature := by
  refine ⟨by decide +kernel, ?_⟩
  obtain ⟨l, S, htrail, hcheck⟩ := exists_trail_of_follow (fun _ _ => true)
    (fun _ _ _ => trivial) ⟨openNode.state, []⟩
    (inboundHandshake 0 0 victorId victorPub ++ inboundFrame 0 8 4 advertFrame ++
      inboundFrame 0 11 9 (plainFrame .control (ControlFrame.goodbye victorId 0).encode) ++
      inboundHandshake 1 14 victorId victorPub ++ inboundFrame 1 22 4 advertFrame)
    (fun l _ => l[41]?.any (appliesNow victorAdvert) && l[96]?.any (appliesNow victorAdvert))
    (by decide +kernel)
  obtain ⟨hfirst, hsecond⟩ := (Bool.and_eq_true _ _).mp hcheck
  exact ⟨l, S, htrail, appliedAt_of_appliesNow hfirst, appliedAt_of_appliesNow hsecond⟩

/-- Victor connects, advertises, says goodbye, and connects again after a restart: the first
advertisement of the new daemon is accepted. -/
theorem restarted_accepted_iff_victor :
    ∃ l₀ S₀ S₁ l S, History (fun _ _ => True) openNode l₀ S₀ ∧
      S₀.next start (.run 18 calm) = some S₁ ∧ Greets victorId S₀.state S₁.state ∧
      Sys.Trail start (fun _ _ => True) S₁ l S ∧
      S.state.routing.Accepts victorAdvert victorId := by
  obtain ⟨l₀, S₀, S₁, l, S, hbefore, hnext, hgreets, hafter, hcheck⟩ :=
    exists_greeting_of_follow openNode victorId
      (inboundHandshake 0 0 victorId victorPub ++ inboundFrame 0 8 4 advertFrame ++
        inboundFrame 0 11 9 (plainFrame .control (ControlFrame.goodbye victorId 0).encode) ++
        (inboundHandshake 1 14 victorId victorPub).take 26)
      ((inboundHandshake 1 14 victorId victorPub).drop 27 ++ inboundFrame 1 22 2 advertFrame)
      (.run 18 calm)
      (fun s l _ => decide (s.routing.maxSeqOf victorId < 1 ∧
        ∀ m ∈ l, m.2.routing.maxSeqOf victorId = m.1.routing.maxSeqOf victorId))
      (by decide +kernel)
  obtain ⟨hbelow, hkept⟩ := of_decide_eq_true hcheck
  have hself : victorNode.config.selfId = victorId := by decide +kernel
  have haccepted := restarted_accepted_iff openNode victorNode l₀ l S₀ S₁ S (.run 18 calm) hbefore
    hnext (hself ▸ hgreets) hafter victorAdvert advertises_victorAdvert
    fun m hm earlier horigin htakes =>
      absurd htakes (not_takes_of_kept (hkept m hm) (horigin.trans hself))
  exact ⟨l₀, S₀, S₁, l, S, hbefore, hnext, hgreets, hafter, haccepted.mpr (.inl hbelow)⟩

/-- Victor connects, advertises, and connects again after a restart before the node has missed
them.  No update of Victor's is accepted from then on, and when the first
advertisement of the new daemon is to be applied it is not accepted either. -/
theorem restarted_victor_ignored :
    Advertises victorNode victorAdvert ∧
    ∃ l₀ S₀ S₁ l S, History (fun _ _ => True) openNode l₀ S₀ ∧
      S₀.next start (.run 15 calm) = some S₁ ∧ Greets victorId S₀.state S₁.state ∧
      Sys.Trail start (fun _ _ => True) S₁ l S ∧
      (∀ m ∈ l, ∀ earlier : RouteUpdateFrame, earlier.originId = victorId →
        ¬ Takes earlier m.1 m.2) ∧
      ¬ S.state.routing.Accepts victorAdvert victorId := by
  refine ⟨advertises_victorAdvert, ?_⟩
  obtain ⟨l₀, S₀, S₁, l, S, hbefore, hnext, hgreets, hafter, hcheck⟩ :=
    exists_greeting_of_follow openNode victorId
      (inboundHandshake 0 0 victorId victorPub ++ inboundFrame 0 8 4 advertFrame ++
        (inboundHandshake 1 11 victorId victorPub).take 26)
      ((inboundHandshake 1 11 victorId victorPub).drop 27 ++ inboundFrame 1 19 2 advertFrame)
      (.run 15 calm)
      (fun _ l s =>
        decide ((∀ m ∈ l, m.2.routing.maxSeqOf victorId = m.1.routing.maxSeqOf victorId) ∧
        ¬ s.routing.Accepts victorAdvert victorId))
      (by decide +kernel)
  obtain ⟨hkept, hignored⟩ := of_decide_eq_true hcheck
  exact ⟨l₀, S₀, S₁, l, S, hbefore, hnext, hgreets, hafter,
    fun m hm earlier horigin => not_takes_of_kept (hkept m hm) horigin, hignored⟩

end Concrete

end Daemon

end ProximityMesh
