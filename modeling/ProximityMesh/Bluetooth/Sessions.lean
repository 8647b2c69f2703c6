/-
  Bluetooth/Sessions.lean --- who may open an RFCOMM session with an address.

  Source: `spawn` of crates/pim-bluetooth/src/rfcomm/listener.rs and of
  crates/pim-bluetooth/src/rfcomm/outbound.rs.

  The acceptor looks an address up and inserts it under one lock.  The outbound poll
  takes the lock twice, once to look and once to insert, so that an inbound session can
  begin in between: then two sessions share one entry of the set, and the first that
  ends takes it away from the other.
-/
import ProximityMesh.Foundation.Bytes
import ProximityMesh.Foundation.HashMap
import ProximityMesh.Foundation.Interleaving

set_option autoImplicit false

namespace ProximityMesh.Bluetooth

open List

/-! ## The code -/

abbrev BdAddr : Type := Octets 6

/-- The set both loops share, and the sessions they have spawned. -/
structure Sessions where
  active : HashSet BdAddr
  /-- `session::run` has not returned. -/
  alive : List BdAddr
  /-- `session::run` has returned, and the address is still to be removed. -/
  ended : List BdAddr

/-- Where the outbound poll is between two locks. -/
inductive Poll where
  | scanning
  | absent (addr : BdAddr)
  | dialing (addr : BdAddr)
  | failed (addr : BdAddr)

/-- Who takes the lock next; a session ends before its task takes it. -/
inductive Party where
  | acceptor
  | poll
  | session
  | cleanup
  deriving DecidableEq

/-- What comes from outside: the address that is accepted, paired or whose session ends, and
whether a dialed device answers. -/
inductive Turn where
  | address (addr : BdAddr)
  | connect (ok : Bool)

def advance : Party → Turn → Sessions → Poll → Option (Sessions × Poll)
  | .acceptor, .address addr, s, p =>
      if s.active.contains addr then some (s, p)
      else some ({ s with active := s.active.insert addr (), alive := addr :: s.alive }, p)
  | .poll, .address addr, s, .scanning =>
      some (s, if s.active.contains addr then .scanning else .absent addr)
  | .poll, _, s, .absent addr => some ({ s with active := s.active.insert addr () }, .dialing addr)
  | .poll, .connect true, s, .dialing addr => some ({ s with alive := addr :: s.alive }, .scanning)
  | .poll, .connect false, s, .dialing addr => some (s, .failed addr)
  | .poll, _, s, .failed addr => some ({ s with active := s.active.remove addr }, .scanning)
  | .session, .address addr, s, p =>
      if addr ∈ s.alive then
        some ({ s with alive := s.alive.erase addr, ended := addr :: s.ended }, p)
      else none
  | .cleanup, .address addr, s, p =>
      if addr ∈ s.ended then
        some ({ s with active := s.active.remove addr, ended := s.ended.erase addr }, p)
      else none
  | _, _, _, _ => none

/-! ## Entries of the set and who has made them -/

/-- The address that the poll has inserted and has not handed on. -/
def Poll.dials : Poll → List BdAddr
  | .dialing addr | .failed addr => [addr]
  | .scanning | .absent _ => []

/-- Everybody who will remove an address from the set. -/
def owners (s : Sessions) (p : Poll) : List BdAddr := p.dials ++ (s.alive ++ s.ended)

/-- The poll inserts an address that nobody has inserted since it looked. -/
def Fresh (s : Sessions) : Poll → Prop
  | .absent addr => s.active.contains addr = false
  | _ => True

instance (s : Sessions) : DecidablePred (Fresh s) := fun p =>
  match p with
  | .absent addr => inferInstanceAs (Decidable (s.active.contains addr = false))
  | .scanning | .dialing _ | .failed _ => isTrue trivial

/-- A step claims an address for a new owner, hands one on, or gives one back. -/
inductive Effect (s s' : Sessions) (before after : List BdAddr) : Prop
  | claim (addr : BdAddr) (hfree : s.active.contains addr = false)
      (hactive : s'.active = s.active.insert addr ()) (howners : after.Perm (addr :: before))
  | keep (hactive : s'.active = s.active) (howners : after.Perm before)
  | release (addr : BdAddr) (hactive : s'.active = s.active.remove addr)
      (howners : before.Perm (addr :: after))

section Step

variable {party : Party} {turn : Turn} {s s' : Sessions} {p p' : Poll}

theorem effect_poll (hfresh : Fresh s p) (h : advance .poll turn s p = some (s', p')) :
    Effect s s' (owners s p) (owners s' p') := by
  cases p with
  | scanning =>
    cases turn with
    | address addr =>
      cases h
      refine .keep rfl ?_
      split <;> exact .refl _
    | connect ok => cases ok <;> cases h
  | absent addr =>
    obtain ⟨rfl, rfl⟩ := Prod.mk.inj (Option.some.inj (show some _ = _ by cases turn <;> exact h))
    exact .claim addr hfresh rfl (.refl _)
  | dialing addr =>
    rcases turn with addr' | _ | _
    · cases h
    · cases h
      exact .keep rfl (.refl _)
    · cases h
      exact .keep rfl (.refl _)
  | failed addr =>
    obtain ⟨rfl, rfl⟩ := Prod.mk.inj (Option.some.inj (show some _ = _ by cases turn <;> exact h))
    exact .release addr rfl (.refl _)

/-- The other parties leave the poll where it is. -/
theorem effect_other (hparty : party ≠ .poll) (q : Poll)
    (h : advance party turn s p = some (s', p')) : Effect s s' (owners s q) (owners s' q) := by
  cases turn with
  | connect ok => cases party <;> first | cases h | exact absurd rfl hparty
  | address addr =>
    cases party with
    | poll => exact absurd rfl hparty
    | acceptor =>
      dsimp only [advance] at h
      split at h
      · cases h
        exact .keep rfl (.refl _)
      · rename_i hfree
        cases h
        exact .claim addr (Bool.not_eq_true _ ▸ hfree) rfl perm_middle
    | session =>
      obtain ⟨hmem, h⟩ := Option.ite_none_right_eq_some.mp h
      cases h
      refine .keep rfl (.append_left _ (perm_middle.trans ?_))
      exact .append_right _ (perm_cons_erase hmem).symm
    | cleanup =>
      obtain ⟨hmem, h⟩ := Option.ite_none_right_eq_some.mp h
      cases h
      have hended := (perm_cons_erase hmem).append_left (q.dials ++ s.alive)
      rw [append_assoc] at hended
      refine .release addr rfl (hended.trans (perm_middle.trans ?_))
      rw [append_assoc]
      exact .refl _

end Step

/-- Every owner has the address for itself, and it is in the set. -/
structure Exclusive (s : Sessions) (owners : List BdAddr) : Prop where
  nodup : owners.Nodup
  active : ∀ addr ∈ owners, s.active.contains addr = true

theorem Exclusive.effect {s s' : Sessions} {before after : List BdAddr} (h : Exclusive s before)
    (heffect : Effect s s' before after) : Exclusive s' after := by
  cases heffect with
  | claim addr hfree hactive howners =>
    have hnew : addr ∉ before :=
      fun hmem => absurd (h.active addr hmem) (Bool.not_eq_true _ ▸ hfree)
    refine ⟨howners.nodup_iff.mpr (nodup_cons.mpr ⟨hnew, h.nodup⟩), fun addr' hmem => ?_⟩
    rw [hactive, HashMap.contains_insert]
    exact (mem_cons.mp (howners.mem_iff.mp hmem)).imp_right (h.active addr')
  | keep hactive howners =>
    refine ⟨howners.nodup_iff.mpr h.nodup, fun addr hmem => ?_⟩
    rw [hactive]
    exact h.active addr (howners.mem_iff.mp hmem)
  | release addr hactive howners =>
    obtain ⟨hgone, hnodup⟩ := nodup_cons.mp (howners.nodup_iff.mp h.nodup)
    refine ⟨hnodup, fun addr' hmem => ?_⟩
    have hother : addr' ≠ addr := fun heq => hgone (heq ▸ hmem)
    rw [hactive, HashMap.contains_remove_eq, Function.update_of_ne hother]
    exact h.active addr' (howners.mem_iff.mpr (.tail _ hmem))

/-! ## Runs -/

/-- The runs of the four parties in which every step of the poll is taken where `K` holds. -/
abbrev Runs (K : Sessions → Poll → Prop) (l : List (Interleaving Party Sessions Poll)) : Prop :=
  Interleaving.Visits advance (fun S party _ => party = .poll → K S.shared (S.process .poll))
    ⟨⟨HashMap.empty, [], []⟩, fun _ => .scanning⟩ l

/-- If the poll never inserts an address that has been inserted since it looked, no address has
two sessions at any moment, and one with a session is in the set. -/
theorem one_session_per_address {l : List (Interleaving Party Sessions Poll)} (h : Runs Fresh l) :
    ∀ S ∈ l, ∀ addr, S.shared.alive.count addr ≤ 1 ∧
      (addr ∈ S.shared.alive → S.shared.active.contains addr = true) := by
  have hexclusive :=
    h.invariant (I := fun S => Exclusive S.shared (owners S.shared (S.process .poll)))
    ⟨nodup_nil, nofun⟩ fun S party turn s p hS hfresh hstep => by
      refine hS.effect ?_
      rcases Interleaving.update_cases S.process party p .poll with ⟨rfl, heq⟩ | ⟨hother, heq⟩
      · exact heq.symm ▸ effect_poll (hfresh rfl) hstep
      · exact heq.symm ▸ effect_other hother.symm _ hstep
  intro S hS addr
  have halive : S.shared.alive.Sublist (owners S.shared (S.process .poll)) :=
    (sublist_append_left _ _).trans (sublist_append_right _ _)
  exact ⟨nodup_iff_count_le_one.mp ((hexclusive S hS).nodup.sublist halive) addr,
    fun hmem => (hexclusive S hS).active addr (halive.subset hmem)⟩

def somebody : BdAddr := Octets.zero 6

/-- The poll looks the address up, inserts it and dials. -/
def dialed : List (Party × Turn) :=
  [(.poll, .address somebody), (.poll, .connect true), (.poll, .connect true)]

/-- A session is accepted after the poll has looked; one of the two ends. -/
def overlapping : List (Party × Turn) :=
  dialed.insertIdx 1 (.acceptor, .address somebody) ++
    [(.session, .address somebody), (.cleanup, .address somebody)]

theorem one_session_per_address_dialed :
    ∃ l, Runs Fresh l ∧ (∃ S ∈ l, somebody ∈ S.shared.alive) ∧
      ∀ S ∈ l, ∀ addr, S.shared.alive.count addr ≤ 1 ∧
        (addr ∈ S.shared.alive → S.shared.active.contains addr = true) := by
  obtain ⟨l, hruns, hcheck⟩ := Interleaving.exists_visits advance
    (fun S party _ => party = .poll → Fresh S.shared (S.process .poll))
    ⟨⟨HashMap.empty, [], []⟩, fun _ => .scanning⟩ dialed
    (fun l => l.any fun S => decide (somebody ∈ S.shared.alive)) (by decide +kernel)
  obtain ⟨S, hS, hmem⟩ := any_eq_true.mp hcheck
  exact ⟨l, hruns, ⟨S, hS, of_decide_eq_true hmem⟩, one_session_per_address hruns⟩

/-- Two sessions with one address, and then one whose address is not in the set. -/
theorem two_sessions_overlapping :
    ∃ l, Runs (fun _ _ => True) l ∧ (∃ S ∈ l, S.shared.alive.count somebody = 2) ∧
      ∃ S ∈ l, somebody ∈ S.shared.alive ∧ S.shared.active.contains somebody = false := by
  obtain ⟨l, hruns, hcheck⟩ := Interleaving.exists_visits advance
    (fun S party _ => party = .poll → True)
    ⟨⟨HashMap.empty, [], []⟩, fun _ => .scanning⟩ overlapping
    (fun l => (l.any fun S => decide (S.shared.alive.count somebody = 2)) &&
      l.any fun S => decide (somebody ∈ S.shared.alive ∧ S.shared.active.contains somebody = false))
    (by decide +kernel)
  obtain ⟨htwice, hgone⟩ := Bool.and_eq_true_iff.mp hcheck
  obtain ⟨S, hS, htwice⟩ := any_eq_true.mp htwice
  obtain ⟨S', hS', hgone⟩ := any_eq_true.mp hgone
  exact ⟨l, hruns, ⟨S, hS, of_decide_eq_true htwice⟩, S', hS', of_decide_eq_true hgone⟩

end ProximityMesh.Bluetooth
