/-
  Messaging/DeliveryStatus.lean --- the status of a sent message over time.

  Source: crates/pim-messaging/src/service.rs, crates/pim-messaging/src/storage.rs.

  `send` writes `sent` or `failed` after the frame has left, and an acknowledgement writes
  `delivered` or `read` whenever it comes; none of them looks at the status it replaces.  An
  acknowledgement that is processed before the write of the send path is overwritten by it,
  and a `delivered` that comes after a `read` takes it back.

  Calls of `send` and acknowledgements in any number are clerks of a post office.  A clerk runs
  the code of the service (`task_advance`), one step at a time and in any order with the
  others.
-/
import ProximityMesh.Messaging.Isolation

set_option autoImplicit false

namespace ProximityMesh.Messaging

open Crypto Protocol MessagingService List ControlFrame

/-! ## The order of the statuses -/

namespace MessageStatus

/-- The place in `pending < sent < delivered < read`. -/
def place : MessageStatus → Option Nat
  | pending => some 0
  | sent => some 1
  | delivered => some 2
  | read => some 3
  | failed => none

/-- The second status is not before the first, and what was delivered has not failed. -/
def Advances (a b : MessageStatus) : Prop :=
  (∀ i j, a.place = some i → b.place = some j → i ≤ j) ∧ (a = delivered ∨ a = read → b ≠ failed)

/-- A failed send is as far as one that went out. -/
def rank : MessageStatus → Nat
  | pending => 0
  | sent => 1
  | failed => 1
  | delivered => 2
  | read => 3

theorem advances_of_rank_le {a b : MessageStatus} (h : a.rank ≤ b.rank) : a.Advances b := by
  constructor
  · cases a <;> cases b <;> simp_all [place, rank]
  · rintro hdelivered rfl
    rcases hdelivered with rfl | rfl
    · exact absurd h (by decide)
    · exact absurd h (by decide)

end MessageStatus

def AckKind.status : AckKind → MessageStatus
  | delivered => .delivered
  | read => .read

/-! ## Clerks -/

section

variable [HkdfSha256] [X25519] [Aes256Gcm]

/-- A call of `send` or of `handle_incoming_message_ack`, by what it does next. -/
inductive Clerk where
  /-- `send`, before it looks for the key of the peer. -/
  | compose (peer : NodeId) (body : String)
  /-- Before the row is inserted. -/
  | record (peer : NodeId) (body : String) (key : Octets 32)
  /-- Before the conversation is updated. -/
  | bump (row : MessageRecord) (key : Octets 32)
  | encrypt (row : MessageRecord) (key : Octets 32)
  | route (row : MessageRecord) (ciphertext : Bytes)
  /-- Before it reads the clock. -/
  | settle (row : MessageRecord) (sent : Bool)
  /-- Before it writes the status. -/
  | mark (row : MessageRecord) (sent : Bool) (now : Int)
  /-- An acknowledgement that was decoded. -/
  | receipt (src : NodeId) (id : MessageId) (kind : AckKind)
  /-- Before it is written. -/
  | apply (src : NodeId) (id : MessageId) (kind : AckKind) (now : Int)
  | announce (event : MessageEvent)
  | done
  deriving DecidableEq

namespace Clerk

/-- What is left to do. -/
def task : Clerk → ServiceM Unit
  | compose peer body => do
      let _ ← send peer body
  | record peer body key => do
      let _ ← sendTo peer body (some key)
  | bump row key => do
      let _ ← bumpLocal row >>= sendRecorded key
  | encrypt row key => do
      let _ ← sendRecorded key (some row)
  | route row ciphertext => dispatch row ciphertext
  | settle row sent => MessagingService.settle row sent
  | mark row sent now =>
      if sent then markSent row.peerNodeId row.id now
      else markFailed row.peerNodeId row.id "no_route" now
  | receipt src id kind => do
      let now ← nowMs
      applyAck src id kind now
  | apply src id kind now => applyAck src id kind now
  | announce event => emit event
  | done => pure ()

/-- The clerk that takes up a payload. -/
def receive (src : NodeId) (body : Bytes) : Clerk :=
  match openAck body with
  | none => done
  | some (id, kind) => receipt src id kind

/-- The assignment of a clerk that writes the status of a sent message. -/
def marking (sent : Bool) (now : Int) (m : MessageRecord) : MessageRecord :=
  if sent then m.withStatus .sent none none else m.withFailure "no_route" now

omit [HkdfSha256] [X25519] [Aes256Gcm] in
theorem id_marking (sent : Bool) (now : Int) (m : MessageRecord) :
    (marking sent now m).id = m.id := by
  cases sent with
  | true | false => rfl

/-- `send` behind the lookup of the key. -/
def found (peer : NodeId) (body : String) : Option (Octets 32) → Clerk
  | none => done
  | some key => record peer body key

/-- `send` behind the encryption. -/
def encrypted (row : MessageRecord) : Except E2eError Bytes → Clerk
  | .error _ => done
  | .ok ciphertext => route row ciphertext

/-- The next step: what it does, and what is left then. -/
def advance (i : Ports) (s : MessagingService) : Clerk → Option (MessagingService × Clerk)
  | compose peer body =>
      if maxBodyBytes < (ControlFrame.utf8 body).length then none
      else some (s, found peer body (i.lookupX25519 peer))
  | record peer body key =>
      if i.ioOk then
        some ({ s with storage := s.storage.insertMessage (localRecord peer i.uuid body i.nowMs) },
          bump (localRecord peer i.uuid body i.nowMs) key)
      else some (s, done)
  | bump row key =>
      if i.ioOk then
        let storage := s.storage.bumpConversationAfterLocalSend row.peerNodeId row.id
          row.timestampMs row.body
        some ({ s with storage }, encrypt row key)
      else some (s, done)
  | encrypt row key =>
      some (s, encrypted row
        (E2e.encrypt (ControlFrame.utf8 row.body) key i.ephemeralSecret i.nonce))
  | route row ciphertext =>
      let bodyBytes := encodeMessage row.id (wireTimestamp row.timestampMs) ciphertext
      some ({ s with
        outbox := s.outbox ++ [(row.peerNodeId, .pluginPayload kindMessage bodyBytes)] },
        settle row i.routed)
  | settle row sent => some (s, mark row sent i.nowMs)
  | mark row sent now =>
      if i.ioOk then
        let storage := s.storage.updateMessages (fun m => m.id = row.id) (marking sent now)
          (id_marking sent now)
        some ({ s with storage },
          announce (.messageStatus row.id row.peerNodeId (if sent then .sent else .failed) now))
      else some (s, done)
  | receipt src id kind => some (s, apply src id kind i.nowMs)
  | apply src id kind now =>
      if i.ioOk then
        let storage := s.storage.updateMessages (fun m => m.id = id) (kind.applyTo now)
          (kind.id_applyTo now)
        some ({ s with storage }, announce (.messageStatus id src kind.status now))
      else some (s, done)
  | announce event => some ({ s with events := s.events ++ [event] }, done)
  | done => none

/-- Clerks run the code: what is left is either nothing or a step that does what `advance`
says. -/
theorem task_advance (c : Clerk) (i : Ports) (s : MessagingService) :
    match c.advance i s with
    | none => c.task = pure ()
    | some (s', c') => ∃ act next, c.task = .step act next ∧ act i s = some s' ∧
        next i s = c'.task := by
  cases c with
  | compose peer body =>
    by_cases hlong : maxBodyBytes < (utf8 body).length
    · simp only [advance, task, send, if_pos hlong]
      rfl
    · have htask : (compose peer body).task =
          ((Task.atomically fun i s => (s, i.lookupX25519 peer)) >>= sendTo peer body) >>=
            fun _ => pure () := by
        simp [task, send, if_neg hlong]
      simp only [advance, if_neg hlong]
      rw [htask]
      refine ⟨_, _, rfl, rfl, ?_⟩
      show (sendTo peer body (i.lookupX25519 peer) >>= fun _ => pure ()) = _
      cases i.lookupX25519 peer with
      | none | some key => rfl
  | record peer body key | bump row key =>
    obtain ⟨_, _, _, _, _, _, _, ioOk⟩ := i
    cases ioOk with
    | true | false => exact ⟨_, _, rfl, rfl, rfl⟩
  | encrypt row key =>
    refine ⟨_, _, rfl, rfl, ?_⟩
    show (sendSealed row (E2e.encrypt (utf8 row.body) key i.ephemeralSecret i.nonce)
      >>= fun _ => pure ()) = _
    cases E2e.encrypt (utf8 row.body) key i.ephemeralSecret i.nonce with
    | error e => rfl
    | ok ciphertext => exact (Task.bind_assoc ..).trans (Task.bind_pure _)
  | route row ciphertext | settle row sent => exact ⟨_, _, rfl, rfl, rfl⟩
  | mark row sent now =>
    obtain ⟨_, _, _, _, _, _, _, ioOk⟩ := i
    cases sent with
    | true | false =>
      cases ioOk with
      | true | false => exact ⟨_, _, rfl, rfl, rfl⟩
  | receipt src id kind => exact ⟨_, _, rfl, rfl, rfl⟩
  | apply src id kind now =>
    obtain ⟨_, _, _, _, _, _, _, ioOk⟩ := i
    cases kind with
    | delivered | read =>
      cases ioOk with
      | true | false => exact ⟨_, _, rfl, rfl, rfl⟩
  | announce event => exact ⟨_, _, rfl, rfl, rfl⟩
  | done => rfl

/-- The message whose status the clerk has still to write. -/
def owes : Clerk → Option MessageId
  | bump row _ => some row.id
  | encrypt row _ => some row.id
  | route row _ => some row.id
  | settle row _ => some row.id
  | mark row _ _ => some row.id
  | _ => none

/-- What a step does to the messages, and what the clerk owes after it. -/
inductive Effect (i : Ports) (st st' : MessagingStorage) (c c' : Clerk) : Prop
  /-- No message is written.  A clerk may give up. -/
  | quiet (hst : st'.messages = st.messages) (howes : c'.owes = c.owes ∨ c'.owes = none)
  /-- A row is inserted, and its status is to be written. -/
  | insert (peer : NodeId) (body : String) (key : Octets 32) (hc : c = record peer body key)
      (hst : ∀ id, st'.messages.get id =
        if id = i.uuid then some (localRecord peer i.uuid body i.nowMs) else st.messages.get id)
      (howes : c'.owes = some i.uuid)
  /-- The send path writes the status. -/
  | mark (id₀ : MessageId) (sent : Bool) (now : Int) (hc : c.owes = some id₀)
      (hst : ∀ id, st'.messages.get id =
        if id = id₀ then (st.messages.get id).map (marking sent now) else st.messages.get id)
      (howes : c'.owes = none)
  /-- An acknowledgement writes it. -/
  | apply (src : NodeId) (id₀ : MessageId) (kind : AckKind) (now : Int)
      (hc : c = Clerk.apply src id₀ kind now)
      (hst : ∀ id, st'.messages.get id =
        if id = id₀ then (st.messages.get id).map (kind.applyTo now) else st.messages.get id)
      (howes : c'.owes = none)

theorem effect_of_advance {c c' : Clerk} {i : Ports} {s s' : MessagingService}
    (h : c.advance i s = some (s', c')) : Effect i s.storage s'.storage c c' := by
  cases c with
  | compose peer body =>
    simp only [advance] at h
    split at h
    · cases h
    · cases h
      refine .quiet rfl (.inr ?_)
      cases i.lookupX25519 peer with
      | none | some key => rfl
  | record peer body key =>
    simp only [advance] at h
    split at h
    · cases h
      exact .insert peer body key rfl (fun id => s.storage.get_insertMessage _ id) rfl
    · cases h
      exact .quiet rfl (.inr rfl)
  | bump row key =>
    simp only [advance] at h
    split at h
    · cases h
      exact .quiet rfl (.inl rfl)
    · cases h
      exact .quiet rfl (.inr rfl)
  | encrypt row key =>
    cases h
    refine .quiet rfl ?_
    cases E2e.encrypt (utf8 row.body) key i.ephemeralSecret i.nonce with
    | error e => exact .inr rfl
    | ok ciphertext => exact .inl rfl
  | route row ciphertext | settle row sent =>
    cases h
    exact .quiet rfl (.inl rfl)
  | mark row sent now =>
    simp only [advance] at h
    split at h
    · cases h
      exact .mark row.id sent now rfl
        (s.storage.get_updateMessages_id row.id _ (id_marking sent now)) rfl
    · cases h
      exact .quiet rfl (.inr rfl)
  | receipt src id kind =>
    cases h
    exact .quiet rfl (.inl rfl)
  | apply src id kind now =>
    simp only [advance] at h
    split at h
    · cases h
      exact .apply src id kind now rfl
        (s.storage.get_updateMessages_id id _ (kind.id_applyTo now)) rfl
    · cases h
      exact .quiet rfl (.inl rfl)
  | announce event =>
    cases h
    exact .quiet rfl (.inl rfl)
  | done => cases h

/-- An id that is drawn is not in use.  An acknowledgement is applied to a message whose send
path has done its write, and `delivered` not to a message that was read. -/
def Timely (i : Ports) (st : MessagingStorage) : Clerk → Prop
  | record _ _ _ => st.messages.get i.uuid = none
  | apply _ id kind _ => ∀ m, st.messages.get id = some m → m.direction = .sent →
      m.status ≠ .pending ∧ (kind = .delivered → m.status ≠ .read)
  | _ => True

instance (i : Ports) (st : MessagingStorage) : (c : Clerk) → Decidable (c.Timely i st)
  | record _ _ _ => inferInstanceAs (Decidable (st.messages.get i.uuid = none))
  | apply _ id kind _ => inferInstanceAs (Decidable (∀ m ∈ st.messages.get id,
      m.direction = .sent → m.status ≠ .pending ∧ (kind = .delivered → m.status ≠ .read)))
  | compose _ _ | bump _ _ | encrypt _ _ | route _ _ | settle _ _ | mark _ _ _ | receipt _ _ _
  | announce _ | done => .isTrue trivial

end Clerk

/-! ## The post office -/

/-- The service and the calls that are under way. -/
structure PostOffice where
  service : MessagingService
  clerks : List Clerk
  deriving DecidableEq

/-- What happens next. -/
inductive Errand where
  | send (peer : NodeId) (body : String)
  | ack (src : NodeId) (body : Bytes)
  | work (k : Nat) (i : Ports)

namespace PostOffice

def next (P : PostOffice) : Errand → Option PostOffice
  | .send peer body => some { P with clerks := P.clerks ++ [.compose peer body] }
  | .ack src body => some { P with clerks := P.clerks ++ [.receive src body] }
  | .work k i =>
      match P.clerks[k]? with
      | none => none
      | some c => (c.advance i P.service).map fun r => ⟨r.1, P.clerks.set k r.2⟩

/-- The clerk that works is on time. -/
def Timely (P : PostOffice) : Errand → Prop
  | .work k i => ∀ c, P.clerks[k]? = some c → c.Timely i P.service.storage
  | _ => True

instance (P : PostOffice) : (e : Errand) → Decidable (P.Timely e)
  | .work k i => inferInstanceAs (Decidable (∀ c ∈ P.clerks[k]?, c.Timely i P.service.storage))
  | .send _ _ | .ack _ _ => .isTrue trivial

/-- Runs in which every errand meets `K` when it is done. -/
inductive Reaches (K : PostOffice → Errand → Prop) (P₀ : PostOffice) : PostOffice → Prop
  | refl : Reaches K P₀ P₀
  | step {P P' : PostOffice} (e : Errand) (h : Reaches K P₀ P) (he : K P e)
      (hnext : P.next e = some P') : Reaches K P₀ P'

/-- Every message whose status is still to be written is pending, and one clerk writes it. -/
structure InHand (P : PostOffice) : Prop where
  pending : ∀ c ∈ P.clerks, ∀ id, c.owes = some id →
    ∃ m, P.service.storage.messages.get id = some m ∧ m.direction = .sent ∧ m.status = .pending
  once : (P.clerks.filterMap Clerk.owes).Nodup

variable {P P' : PostOffice} {e : Errand}

/-- A clerk begins who owes nothing yet, or one of them makes a step. -/
theorem next_cases (h : P.next e = some P') :
    (P'.service = P.service ∧ ∃ c, c.owes = none ∧ P'.clerks = P.clerks ++ [c]) ∨
      ∃ before c behind i c', P.clerks = before ++ c :: behind ∧
        c.advance i P.service = some (P'.service, c') ∧ P'.clerks = before ++ c' :: behind ∧
        (P.Timely e → c.Timely i P.service.storage) := by
  cases e with
  | send peer body =>
    cases h
    exact .inl ⟨rfl, _, rfl, rfl⟩
  | ack src body =>
    cases h
    refine .inl ⟨rfl, _, ?_, rfl⟩
    unfold Clerk.receive
    split
    · rfl
    · rfl
  | work k i =>
    simp only [next] at h
    split at h
    · cases h
    · rename_i c hk
      obtain ⟨⟨s', c'⟩, hadvance, rfl⟩ := Option.map_eq_some_iff.mp h
      obtain ⟨hlt, rfl⟩ := List.getElem?_eq_some_iff.mp hk
      refine .inr ⟨P.clerks.take k, _, P.clerks.drop (k + 1), i, c', ?_, hadvance, ?_, ?_⟩
      · rw [cons_getElem_drop_succ, take_append_drop]
      · exact set_eq_take_append_cons_drop.trans (if_pos hlt)
      · exact fun ht => ht _ hk

omit [HkdfSha256] [X25519] [Aes256Gcm] in
theorem inHand_iff_of_perm {c : Clerk} {others : List Clerk} (h : P.clerks.Perm (c :: others)) :
    P.InHand ↔
      (∀ d ∈ c :: others, ∀ id, d.owes = some id →
        ∃ m, P.service.storage.messages.get id = some m ∧ m.direction = .sent ∧
          m.status = .pending) ∧
      (∀ id, c.owes = some id → id ∉ others.filterMap Clerk.owes) ∧
      (others.filterMap Clerk.owes).Nodup := by
  have honce : (P.clerks.filterMap Clerk.owes).Nodup ↔
      (∀ id, c.owes = some id → id ∉ others.filterMap Clerk.owes) ∧
        (others.filterMap Clerk.owes).Nodup := by
    rw [(h.filterMap _).nodup_iff]
    cases howes : c.owes with
    | none | some id => simp [howes]
  rw [← honce]
  constructor
  · intro hP
    exact ⟨fun d hd => hP.pending d (h.mem_iff.mpr hd), hP.once⟩
  · rintro ⟨hpending, honce⟩
    exact ⟨fun d hd => hpending d (h.mem_iff.mp hd), honce⟩

/-- A clerk writes what nobody else owes. -/
theorem InHand.step (h : P.InHand) (ht : P.Timely e) (hnext : P.next e = some P') : P'.InHand := by
  rcases next_cases hnext with ⟨hservice, c, howes, hclerks⟩ |
    ⟨before, c, behind, i, c', hclerks, hadvance, hclerks', htimely⟩
  · constructor
    · rw [hclerks, hservice]
      intro d hd id hid
      rcases mem_append.mp hd with hold | hnew
      · exact h.pending d hold id hid
      · rw [mem_singleton.mp hnew, howes] at hid
        cases hid
    · rw [hclerks]
      simpa [howes] using h.once
  · rw [inHand_iff_of_perm (hclerks ▸ perm_middle)] at h
    rw [inHand_iff_of_perm (hclerks' ▸ perm_middle)]
    obtain ⟨hpending, hc, hnodup⟩ := h
    have hothers := fun d hd => hpending d (mem_cons_of_mem c hd)
    -- a row that the step does not write stays pending for whoever owes it
    have howed : ∀ d ∈ before ++ behind, ∀ id, d.owes = some id →
        id ∈ (before ++ behind).filterMap Clerk.owes :=
      fun d hd id hid => mem_filterMap.mpr ⟨d, hd, hid⟩
    cases Clerk.effect_of_advance hadvance with
    | quiet hst howes =>
      rw [hst]
      rcases howes with hsame | hnone
      · refine ⟨fun d hd id hid => ?_, hsame ▸ hc, hnodup⟩
        rcases mem_cons.mp hd with rfl | hd
        · exact hpending c (mem_cons_self ..) id (hsame ▸ hid)
        · exact hothers d hd id hid
      · refine ⟨fun d hd id hid => ?_, by simp [hnone], hnodup⟩
        rcases mem_cons.mp hd with rfl | hd
        · rw [hnone] at hid
          cases hid
        · exact hothers d hd id hid
    | insert peer body key hrecord hst howes =>
      have hfresh : P.service.storage.messages.get i.uuid = none := by
        have htimely' := htimely ht
        rw [hrecord] at htimely'
        exact htimely'
      refine ⟨fun d hd id hid => ?_, fun id hid hmem => ?_, hnodup⟩
      · rcases mem_cons.mp hd with rfl | hd
        · obtain rfl : i.uuid = id := Option.some.inj (howes.symm.trans hid)
          exact ⟨_, by rw [hst, if_pos rfl], rfl, rfl⟩
        · obtain ⟨m, hget, hrow⟩ := hothers d hd id hid
          have hne : id ≠ i.uuid := by
            rintro rfl
            rw [hfresh] at hget
            cases hget
          exact ⟨m, by rw [hst, if_neg hne, hget], hrow⟩
      · obtain rfl : i.uuid = id := Option.some.inj (howes.symm.trans hid)
        obtain ⟨d, hd, hid'⟩ := mem_filterMap.mp hmem
        obtain ⟨m, hget, -⟩ := hothers d hd _ hid'
        rw [hfresh] at hget
        cases hget
    | mark id₀ sent now howes hst hnone =>
      refine ⟨fun d hd id hid => ?_, by simp [hnone], hnodup⟩
      rcases mem_cons.mp hd with rfl | hd
      · rw [hnone] at hid
        cases hid
      · have hne : id ≠ id₀ := by
          rintro rfl
          exact hc id howes (howed d hd id hid)
        rw [hst, if_neg hne]
        exact hothers d hd id hid
    | apply src id₀ kind now hack hst hnone =>
      refine ⟨fun d hd id hid => ?_, by simp [hnone], hnodup⟩
      rcases mem_cons.mp hd with rfl | hd
      · rw [hnone] at hid
        cases hid
      · obtain ⟨m, hget, hsent, hstatus⟩ := hothers d hd id hid
        have hne : id ≠ id₀ := by
          rintro rfl
          have htimely' := htimely ht
          rw [hack] at htimely'
          exact (htimely' m hget hsent).1 hstatus
        exact ⟨m, by rw [hst, if_neg hne, hget], hsent, hstatus⟩

/-- Every sent message is still there, with a status that is as far or farther. -/
def Farther (st st' : MessagingStorage) : Prop :=
  ∀ id m, st.messages.get id = some m → m.direction = .sent →
    ∃ m', st'.messages.get id = some m' ∧ m'.direction = .sent ∧ m.status.rank ≤ m'.status.rank

omit [HkdfSha256] [X25519] [Aes256Gcm] in
theorem Farther.trans {st st' st'' : MessagingStorage} (h : Farther st st')
    (h' : Farther st' st'') : Farther st st'' := by
  intro id m hget hsent
  obtain ⟨m', hget', hsent', hle⟩ := h id m hget hsent
  obtain ⟨m'', hget'', hsent'', hle'⟩ := h' id m' hget' hsent'
  exact ⟨m'', hget'', hsent'', hle.trans hle'⟩

omit [HkdfSha256] [X25519] [Aes256Gcm] in
theorem farther_of_update {st st' : MessagingStorage} {id₀ : MessageId}
    {assign : MessageRecord → MessageRecord}
    (hst : ∀ id, st'.messages.get id =
      if id = id₀ then (st.messages.get id).map assign else st.messages.get id)
    (hassign : ∀ m, st.messages.get id₀ = some m → m.direction = .sent →
      (assign m).direction = .sent ∧ m.status.rank ≤ (assign m).status.rank) : Farther st st' := by
  intro id m hget hsent
  rw [hst]
  split
  · rename_i heq
    subst heq
    exact ⟨assign m, by rw [hget, Option.map_some], hassign m hget hsent⟩
  · exact ⟨m, hget, hsent, le_rfl⟩

theorem InHand.farther (h : P.InHand) (ht : P.Timely e) (hnext : P.next e = some P') :
    Farther P.service.storage P'.service.storage := by
  rcases next_cases hnext with ⟨hservice, -⟩ |
    ⟨before, c, behind, i, c', hclerks, hadvance, -, htimely⟩
  · rw [hservice]
    exact fun id m hget hsent => ⟨m, hget, hsent, le_rfl⟩
  · have hmem : c ∈ P.clerks := by
      rw [hclerks]
      exact mem_append_right before (mem_cons_self ..)
    have hctimely := htimely ht
    cases Clerk.effect_of_advance hadvance with
    | quiet hst howes =>
      intro id m hget hsent
      exact ⟨m, by rw [hst, hget], hsent, le_rfl⟩
    | insert peer body key hrecord hst howes =>
      rw [hrecord] at hctimely
      intro id m hget hsent
      have hne : id ≠ i.uuid := by
        rintro rfl
        rw [hctimely] at hget
        cases hget
      exact ⟨m, by rw [hst, if_neg hne, hget], hsent, le_rfl⟩
    | mark id₀ sent now howes hst hnone =>
      refine farther_of_update hst fun m hget hsent => ?_
      obtain ⟨m', hget', -, hstatus⟩ := h.pending c hmem id₀ howes
      obtain rfl : m' = m := Option.some.inj (hget'.symm.trans hget)
      rw [hstatus]
      cases sent with
      | true | false => exact ⟨hsent, Nat.zero_le _⟩
    | apply src id₀ kind now hack hst hnone =>
      refine farther_of_update hst fun m hget hsent => ?_
      rw [hack] at hctimely
      obtain ⟨hpending, hread⟩ := hctimely m hget hsent
      cases kind with
      | delivered =>
        refine ⟨hsent, ?_⟩
        show m.status.rank ≤ MessageStatus.delivered.rank
        cases hstatus : m.status with
        | read => exact absurd hstatus (hread rfl)
        | _ => decide
      | read =>
        refine ⟨hsent, ?_⟩
        show m.status.rank ≤ MessageStatus.read.rank
        cases m.status <;> decide

theorem Reaches.inHand {P₀ : PostOffice} (h₀ : P₀.InHand) (h : Reaches Timely P₀ P) : P.InHand := by
  induction h with
  | refl => exact h₀
  | step e _ he hnext ih => exact ih.step he hnext

theorem Reaches.farther {P₀ : PostOffice} (h₀ : P₀.InHand) (h : Reaches Timely P₀ P) :
    Farther P₀.service.storage P.service.storage := by
  induction h with
  | refl => exact fun id m hget hsent => ⟨m, hget, hsent, le_rfl⟩
  | step e hreach he hnext ih => exact ih.trans ((hreach.inHand h₀).farther he hnext)

/-- In every run of sends and acknowledgements in which ids are drawn fresh, no
acknowledgement is applied before the send path has written the status, and none that says
`delivered` after one that says `read`: between any two moments, the status of a sent message
does not go back, and a delivered message does not fail. -/
theorem status_advances {service : MessagingService} {P P' : PostOffice}
    (h : Reaches Timely ⟨service, []⟩ P) (h' : Reaches Timely P P') {id : MessageId}
    {m : MessageRecord} (hget : P.service.storage.messages.get id = some m)
    (hsent : m.direction = .sent) :
    ∃ m', P'.service.storage.messages.get id = some m' ∧ m'.direction = .sent ∧
      m.status.Advances m'.status := by
  have h₀ : PostOffice.InHand ⟨service, []⟩ := ⟨fun _ hc => (nomatch hc), nodup_nil⟩
  obtain ⟨m', hget', hsent', hle⟩ := h'.farther (h.inHand h₀) id m hget hsent
  exact ⟨m', hget', hsent', MessageStatus.advances_of_rank_le hle⟩

end PostOffice

/-! ## Concrete runs -/

namespace PostOffice

variable (K : PostOffice → Errand → Prop) [∀ P e, Decidable (K P e)]

/-- Follow a list of errands, as far as they meet `K`. -/
def play : PostOffice → List Errand → Option PostOffice
  | P, [] => some P
  | P, e :: es => if K P e then (P.next e).bind fun P' => play P' es else none

variable {K}

theorem reaches_of_play {P₀ P P' : PostOffice} {es : List Errand}
    (h : Reaches K P₀ P) (hplay : play K P es = some P') : Reaches K P₀ P' := by
  induction es generalizing P with
  | nil =>
    obtain rfl : P = P' := Option.some.inj hplay
    exact h
  | cons e es ih =>
    simp only [play] at hplay
    split at hplay
    · rename_i he
      obtain ⟨P₁, hnext, hrest⟩ := Option.bind_eq_some_iff.mp hplay
      exact ih (.step e h he hnext) hrest
    · cases hplay

end PostOffice

end

section Runs

attribute [local instance] transparentX25519 transparentHkdf keyedGcm

open PostOffice

def keyedPorts : Ports := { quietPorts with lookupX25519 := fun _ => some (.fill 32 6) }

/-- Up to the frame that leaves; the status is still to be written. -/
def sendUntilRouted : List Errand :=
  .send bobId "" :: List.replicate 5 (.work 0 keyedPorts)

def applyAckNow (k : Nat) (kind : AckKind) : List Errand :=
  [.ack bobId (encodeAck keyedPorts.uuid kind.toU8), .work k keyedPorts, .work k keyedPorts]

def writeStatus : List Errand := [.work 0 keyedPorts, .work 0 keyedPorts]

def atFirst : PostOffice := ⟨⟨.empty, [], []⟩, []⟩

def statusAfter (es : List Errand) : Option MessageStatus :=
  (play (fun _ _ => True) atFirst es).bind fun P =>
    (P.service.storage.messages.get keyedPorts.uuid).map (·.status)

/-- The send path has written `sent`. -/
def sentOffice : PostOffice := (play Timely atFirst (sendUntilRouted ++ writeStatus)).getD atFirst

/-- Then the acknowledgement has come. -/
def deliveredOffice : PostOffice :=
  (play Timely sentOffice (applyAckNow 1 .delivered)).getD atFirst

def sentRow : MessageRecord :=
  (localRecord bobId keyedPorts.uuid "" keyedPorts.nowMs).withStatus .sent none none

theorem status_advances_to_delivered :
    sentRow.status = .sent ∧ ∃ m, deliveredOffice.service.storage.messages.get keyedPorts.uuid =
      some m ∧ m.direction = .sent ∧ sentRow.status.Advances m.status := by
  have hsent : play Timely atFirst (sendUntilRouted ++ writeStatus) = some sentOffice := by
    decide +kernel
  have hdelivered : play Timely sentOffice (applyAckNow 1 .delivered) = some deliveredOffice := by
    decide +kernel
  have hget : sentOffice.service.storage.messages.get keyedPorts.uuid = some sentRow := by
    decide +kernel
  exact ⟨rfl, status_advances (reaches_of_play .refl hsent)
    (reaches_of_play .refl hdelivered) hget rfl⟩

/-- The acknowledgement is processed before the send path writes `sent`: the status goes from
`delivered` back to `sent`. -/
theorem ack_before_sent_is_lost :
    statusAfter (sendUntilRouted ++ applyAckNow 1 .delivered) = some .delivered ∧
      statusAfter (sendUntilRouted ++ applyAckNow 1 .delivered ++ writeStatus) = some .sent := by
  decide +kernel

-- `delivered` comes after `read`
example :
    statusAfter (sendUntilRouted ++ writeStatus ++ applyAckNow 1 .read) = some .read ∧
      statusAfter (sendUntilRouted ++ writeStatus ++ applyAckNow 1 .read ++
        applyAckNow 2 .delivered) = some .delivered := by
  decide +kernel

end Runs

end ProximityMesh.Messaging
