/-
  Messaging/Unread.lean --- the unread counter of a conversation and the rows it stands for.

  Source: crates/pim-messaging/src/storage.rs, crates/pim-messaging/src/service.rs.

  The counter is kept beside the rows: an incoming message adds one, `mark_read_up_to` sets it
  to zero.  A message that replaces an unread row adds one for a row that is not new, and a
  timestamp before the last unread message resets the counter while that message stays
  unread.  `unread_agrees_iff` says that these are the only ways to drift, for every sequence
  of calls.
-/
import ProximityMesh.Messaging.Isolation

set_option autoImplicit false

namespace ProximityMesh.Messaging

open Crypto Protocol MessageRecord HashMap Option

/-- A received message that is not marked read. -/
def MessageRecord.unread (m : MessageRecord) : Bool := m.direction = .received ∧ m.status ≠ .read

def MessageRecord.unreadOf (peer : NodeId) (m : MessageRecord) : Bool :=
  m.peerNodeId = peer ∧ m.unread

namespace MessagingStorage

/-- How many received messages of a peer are not marked read. -/
def unreadRows (st : MessagingStorage) (peer : NodeId) : Nat :=
  st.messages.count (MessageRecord.unreadOf peer)

/-- The counter of each conversation is the number of its unread messages. -/
def Agrees (st : MessagingStorage) : Prop :=
  ∀ peer c, st.conversations.get peer = some c → c.unreadCount = st.unreadRows peer

/-- Every message belongs to a conversation. -/
def Filed (st : MessagingStorage) : Prop :=
  ∀ id m, st.messages.get id = some m → st.conversations.contains m.peerNodeId = true

variable {st st' : MessagingStorage}

/-- A peer without a conversation has neither a counter nor a message. -/
theorem Filed.unreadRows_eq_zero (h : st.Filed) {peer : NodeId}
    (hpeer : st.conversations.get peer = none) : st.unreadRows peer = 0 := by
  rw [unreadRows, count_eq_zero_iff]
  intro id m hget
  have hfiled := h id m hget
  by_contra hunread
  rw [Bool.not_eq_false, unreadOf, decide_eq_true_iff] at hunread
  rw [hunread.1, contains_iff, hpeer] at hfiled
  cases hfiled

theorem Filed.agrees_iff (h : st.Filed) :
    st.Agrees ↔ ∀ peer, st.unread peer = st.unreadRows peer := by
  constructor
  · intro hagrees peer
    cases hpeer : st.conversations.get peer with
    | none => simp [unread, hpeer, h.unreadRows_eq_zero hpeer]
    | some c => simp [unread, hpeer, hagrees peer c hpeer]
  · intro hall peer c hpeer
    rw [← hall peer]
    simp [unread, hpeer]

/-! ## What the statements do to the counter and to the rows -/

theorem unread_upsertConversation (st : MessagingStorage) (peer q : NodeId) (initial : Nat)
    (count : Nat → Nat) (hcount : count 0 = initial) (id : MessageId) (preview : String)
    (tsMs : Int) :
    (st.upsertConversation peer initial count id preview tsMs).unread q =
      if q = peer then count (st.unread q) else st.unread q := by
  simp only [unread, upsertConversation, get_insert]
  split
  · rename_i heq
    subst heq
    cases hq : st.conversations.get q with
    | none => simp [hcount]
    | some c => simp
  · rfl

variable {id : MessageId} {row : MessageRecord}

/-- One row is replaced: what stood there is no longer counted. -/
theorem unreadRows_replace
    (h : ∀ id', st'.messages.get id' = if id' = id then some row else st.messages.get id')
    (q : NodeId) :
    st'.unreadRows q + (if (st.messages.get id).any (unreadOf q) then 1 else 0) =
      st.unreadRows q + (if row.unreadOf q then 1 else 0) := by
  have hrow : (st'.messages.get id).any (unreadOf q) = row.unreadOf q := by
    rw [h, if_pos rfl, any_some]
  rw [← hrow]
  refine count_change id fun id' hne => ?_
  rw [h, if_neg hne]

/-- If the counter has moved with the new row, it agrees exactly if no unread message was
replaced. -/
theorem agrees_replace_iff
    (h : ∀ id', st'.messages.get id' = if id' = id then some row else st.messages.get id')
    (hcounter : ∀ q, st'.unread q = st.unread q + if row.unreadOf q then 1 else 0)
    (hagrees : ∀ q, st.unread q = st.unreadRows q) :
    (∀ q, st'.unread q = st'.unreadRows q) ↔
      ∀ m, st.messages.get id = some m → m.unread = false := by
  constructor
  · intro hall m hget
    have hrows := unreadRows_replace h m.peerNodeId
    rw [← hall, hcounter, ← hagrees, hget, any_some] at hrows
    by_contra hunread
    rw [Bool.not_eq_false] at hunread
    rw [if_pos (show m.unreadOf m.peerNodeId = true by simp [unreadOf, hunread])] at hrows
    omega
  · intro hread q
    have hrows := unreadRows_replace h q
    have hold : (st.messages.get id).any (unreadOf q) = false := by
      cases hget : st.messages.get id with
      | none => rfl
      | some m => simp [unreadOf, hread m hget]
    rw [hold, if_neg Bool.false_ne_true, Nat.add_zero] at hrows
    rw [hcounter, hagrees, hrows]

/-- A new row is filed with the conversation that was just bumped. -/
theorem Filed.replace (hfiled : st.Filed)
    (h : ∀ id', st'.messages.get id' = if id' = id then some row else st.messages.get id')
    (hrow : st'.conversations.contains row.peerNodeId = true)
    (hconv : ∀ q, st.conversations.contains q = true → st'.conversations.contains q = true) :
    st'.Filed := by
  intro id' m hget
  rw [h] at hget
  split at hget
  · cases hget
    exact hrow
  · exact hconv _ (hfiled id' m hget)

theorem contains_upsertConversation (st : MessagingStorage) (peer q : NodeId) (initial : Nat)
    (count : Nat → Nat) (id : MessageId) (preview : String) (tsMs : Int) :
    (st.upsertConversation peer initial count id preview tsMs).conversations.contains q = true ↔
      q = peer ∨ st.conversations.contains q = true :=
  contains_insert ..

/-- A received message is inserted and counted for its peer. -/
theorem step_receive (hfiled : st.Filed) (hagrees : ∀ q, st.unread q = st.unreadRows q)
    (row : MessageRecord) (hunread : row.unread = true) (tsMs : Int) (body : String) :
    let st' := ((st.insertMessage row).bumpConversationAfterRemoteReceive row.peerNodeId row.id tsMs
      body).1
    st'.Filed ∧ ((∀ q, st'.unread q = st'.unreadRows q) ↔
      ∀ m, st.messages.get row.id = some m → m.unread = false) := by
  intro st'
  have hmessages :
      ∀ id, st'.messages.get id = if id = row.id then some row else st.messages.get id :=
    st.get_insertMessage row
  have hcounter : ∀ q, st'.unread q = st.unread q + if row.unreadOf q then 1 else 0 := by
    intro q
    refine (unread_upsertConversation _ row.peerNodeId q 1 (· + 1) rfl ..).trans ?_
    by_cases hq : q = row.peerNodeId
    · simp [hq, unreadOf, hunread, unread]
    · simp [hq, Ne.symm hq, unreadOf, unread]
  refine ⟨hfiled.replace hmessages ?_ fun q hq => ?_, agrees_replace_iff hmessages hcounter hagrees⟩
  · exact (contains_upsertConversation ..).mpr (.inl rfl)
  · exact (contains_upsertConversation ..).mpr (.inr hq)

/-! ## `mark_read_up_to` and deletions -/

theorem get_markReadUpTo (st : MessagingStorage) (peer : NodeId) (upToTsMs : Int) (id : MessageId) :
    (st.markReadUpTo peer upToTsMs).1.messages.get id = (st.messages.get id).map fun m =>
      if m.readableUpTo peer upToTsMs then m.withRead upToTsMs else m :=
  get_mapValues ..

theorem unread_markReadUpTo (st : MessagingStorage) (peer q : NodeId) (upToTsMs : Int) :
    (st.markReadUpTo peer upToTsMs).1.unread q = if q = peer then 0 else st.unread q := by
  show (((st.conversations.modify peer fun c => { c with unreadCount := 0 }).get q).map
    (·.unreadCount)).getD 0 = _
  rw [get_modify]
  split
  · cases st.conversations.get peer with
    | none | some c => rfl
  · rfl

/-- What stays unread is what came after the timestamp. -/
theorem unreadOf_markReadUpTo (peer q : NodeId) (upToTsMs : Int) (m : MessageRecord) :
    (if m.readableUpTo peer upToTsMs then m.withRead upToTsMs else m).unreadOf q = true ↔
      m.unreadOf q = true ∧ (q = peer → upToTsMs < m.timestampMs) := by
  by_cases hreadable : m.readableUpTo peer upToTsMs = true
  · rw [if_pos hreadable]
    simp only [MessageRecord.readableUpTo] at hreadable
    simp only [MessageRecord.unreadOf, MessageRecord.unread, MessageRecord.withRead]
    grind
  · rw [if_neg hreadable]
    simp only [MessageRecord.readableUpTo, decide_eq_true_iff] at hreadable
    simp only [MessageRecord.unreadOf, MessageRecord.unread]
    grind

theorem agrees_markReadUpTo_iff (peer : NodeId) (upToTsMs : Int)
    (hagrees : ∀ q, st.unread q = st.unreadRows q) :
    (∀ q, (st.markReadUpTo peer upToTsMs).1.unread q =
        (st.markReadUpTo peer upToTsMs).1.unreadRows q) ↔
      ∀ id m, st.messages.get id = some m → m.unreadOf peer = true → m.timestampMs ≤ upToTsMs := by
  -- the rows of the peer are counted by the timestamp, those of the others as before
  have hpeer : (st.markReadUpTo peer upToTsMs).1.unreadRows peer = 0 ↔
      ∀ id m, st.messages.get id = some m → m.unreadOf peer = true → m.timestampMs ≤ upToTsMs := by
    rw [unreadRows, count_eq_zero_iff]
    simp only [get_markReadUpTo, map_eq_some_iff, forall_exists_index, and_imp,
      forall_apply_eq_imp_iff₂, ← Bool.not_eq_true, unreadOf_markReadUpTo, not_and, forall_const,
      Int.not_lt]
  have hother : ∀ q, q ≠ peer →
      (st.markReadUpTo peer upToTsMs).1.unreadRows q = st.unreadRows q := by
    intro q hq
    refine count_congr fun id => ?_
    rw [get_markReadUpTo]
    cases st.messages.get id with
    | none => rfl
    | some m =>
      rw [map_some, any_some, Bool.eq_iff_iff, unreadOf_markReadUpTo]
      exact and_iff_left fun heq => absurd heq hq
  rw [← hpeer]
  constructor
  · intro hall
    rw [← hall, unread_markReadUpTo, if_pos rfl]
  · intro hzero q
    rw [unread_markReadUpTo]
    split
    · rename_i heq
      rw [heq, hzero]
    · rename_i hq
      rw [hother q hq, hagrees]

theorem Filed.markReadUpTo (hfiled : st.Filed) (peer : NodeId) (upToTsMs : Int) :
    (st.markReadUpTo peer upToTsMs).1.Filed := by
  intro id m hget
  rw [get_markReadUpTo] at hget
  obtain ⟨m', hold, rfl⟩ := map_eq_some_iff.mp hget
  have hsame : (if m'.readableUpTo peer upToTsMs then m'.withRead upToTsMs else m').peerNodeId =
      m'.peerNodeId := by
    split
    · rfl
    · rfl
  rw [hsame]
  have hpresent := hfiled id m' hold
  show (st.conversations.modify peer _).contains _ = true
  rw [contains_iff, get_modify]
  split
  · rename_i heq
    rw [isSome_map, ← heq]
    exact hpresent
  · exact hpresent

theorem get_deleteConversation (st : MessagingStorage) (peer : NodeId) (id : MessageId) :
    (st.deleteConversation peer).1.messages.get id =
      (st.messages.get id).filter fun m => !decide (m.peerNodeId = peer) :=
  get_retain ..

theorem Filed.deleteConversation (hfiled : st.Filed) (peer : NodeId) :
    (st.deleteConversation peer).1.Filed := by
  intro id m hget
  rw [get_deleteConversation, filter_eq_some_iff] at hget
  have hne : m.peerNodeId ≠ peer := by simpa using hget.2
  show (st.conversations.remove peer).contains _ = true
  rw [contains_iff, get_remove_ne _ hne]
  exact hfiled id m hget.1

/-- A deletion takes the rows and the counter of one peer. -/
theorem agrees_deleteConversation (peer : NodeId) (hagrees : ∀ q, st.unread q = st.unreadRows q)
    (q : NodeId) :
    (st.deleteConversation peer).1.unread q = (st.deleteConversation peer).1.unreadRows q := by
  have hcounter : (st.deleteConversation peer).1.unread q =
      if q = peer then 0 else st.unread q := by
    show (((st.conversations.remove peer).get q).map (·.unreadCount)).getD 0 = _
    rw [get_remove]
    split
    · rfl
    · rfl
  rw [hcounter]
  split
  · rename_i heq
    subst heq
    symm
    rw [unreadRows, count_eq_zero_iff]
    intro id m hget
    rw [get_deleteConversation, filter_eq_some_iff] at hget
    have hne : m.peerNodeId ≠ q := by simpa using hget.2
    simp [unreadOf, hne]
  · rename_i hne
    rw [hagrees]
    refine count_congr fun id => ?_
    rw [get_deleteConversation]
    cases st.messages.get id with
    | none => rfl
    | some m =>
      rw [filter_some]
      split
      · rfl
      · rename_i hpeer
        have heq : m.peerNodeId = peer := by simpa using hpeer
        simp [unreadOf, heq, Ne.symm hne]

theorem filed_empty : empty.Filed := by
  intro id m hget
  simp [empty] at hget

theorem agrees_empty (q : NodeId) : empty.unread q = empty.unreadRows q := by
  rw [filed_empty.unreadRows_eq_zero (get_empty q)]
  simp [unread, empty]

end MessagingStorage

/-! ## Calls -/

/-- A call of the service that writes messages or marks them as read. -/
inductive Call where
  | incoming (src : NodeId) (body : Bytes)
  | send (peer : NodeId) (body : String)
  | markReadUpTo (peer : NodeId) (upToTsMs : Int)
  | deleteConversation (peer : NodeId)
  | deleteAllMessages

namespace MessagingService

variable (i : Ports) (s : MessagingService)

theorem storage_after_markReadUpTo (peer : NodeId) (upToTsMs : Int) :
    ((markReadUpTo peer upToTsMs).after i s).storage =
      if i.ioOk then (s.storage.markReadUpTo peer upToTsMs).1 else s.storage := by
  cases hio : i.ioOk <;> simp [markReadUpTo, onStorage, Task.after, hio]

theorem storage_after_deleteConversation (peer : NodeId) :
    ((deleteConversation peer).after i s).storage =
      if i.ioOk then (s.storage.deleteConversation peer).1 else s.storage := by
  cases hio : i.ioOk <;>
    simp [deleteConversation, onStorage, emit, Task.after, Task.exec_bind, hio]

theorem storage_after_deleteAllMessages : (deleteAllMessages.after i s).storage =
    if i.ioOk then .empty else s.storage := by
  cases hio : i.ioOk <;>
    simp [deleteAllMessages, onStorage, emit, MessagingStorage.deleteAllMessages, Task.after,
      Task.exec_bind, hio]

end MessagingService

section

variable [HkdfSha256] [X25519] [Aes256Gcm]

namespace MessagingService

/-- `send` gets as far as the storage, and the storage takes the row. -/
def Records (i : Ports) (peer : NodeId) (body : String) : Prop :=
  (ControlFrame.utf8 body).length ≤ maxBodyBytes ∧ (i.lookupX25519 peer).isSome = true ∧
    i.ioOk = true

theorem storage_after_send_of_not_records {i : Ports} {peer : NodeId} {body : String}
    (h : ¬ Records i peer body) (s : MessagingService) :
    ((send peer body).after i s).storage = s.storage := by
  unfold send Task.after
  by_cases hlength : maxBodyBytes < (ControlFrame.utf8 body).length
  · rw [if_pos hlength]
    rfl
  · rw [if_neg hlength]
    cases hkey : i.lookupX25519 peer with
    | none => simp [Task.exec_bind, hkey, sendTo]
    | some key =>
      have hio : i.ioOk = false := by
        by_contra hio
        exact h ⟨Nat.le_of_not_lt hlength, by rw [hkey]; rfl, by simpa using hio⟩
      simp [Task.exec_bind, hkey, sendTo, recordLocalSend, insertLocal, sendRecorded, hio]

/-- The row that `send` leaves behind is one that was sent. -/
theorem storage_after_send {i : Ports} {peer : NodeId} {body : String} (h : Records i peer body)
    (s : MessagingService) :
    ∃ row, row.direction = .sent ∧ row.peerNodeId = peer ∧
      (∀ id, ((send peer body).after i s).storage.messages.get id =
        if id = i.uuid then some row else s.storage.messages.get id) ∧
      ((send peer body).after i s).storage.conversations =
        (s.storage.bumpConversationAfterLocalSend peer i.uuid i.nowMs body).conversations := by
  obtain ⟨hlength, hkey, hio⟩ := h
  obtain ⟨key, hkey⟩ := isSome_iff_exists.mp hkey
  have hlong : ¬ maxBodyBytes < (ControlFrame.utf8 body).length := Nat.not_lt.mpr hlength
  -- the tables behind the insertion; only the status of the new row is written after it
  let recorded := (s.storage.insertMessage (localRecord peer i.uuid body i.nowMs)
    ).bumpConversationAfterLocalSend peer i.uuid i.nowMs body
  have hrecorded : ∀ id, recorded.messages.get id =
      if id = i.uuid then some (localRecord peer i.uuid body i.nowMs)
      else s.storage.messages.get id :=
    fun id => s.storage.get_insertMessage (localRecord peer i.uuid body i.nowMs) id
  have hassign : ∀ assign : MessageRecord → MessageRecord, ∀ hid id,
      (recorded.updateMessages (fun m => m.id = i.uuid) assign hid).messages.get id =
        if id = i.uuid then some (assign (localRecord peer i.uuid body i.nowMs))
        else s.storage.messages.get id := by
    intro assign hid id
    rw [MessagingStorage.get_updateMessages_id, hrecorded]
    split
    · rfl
    · rfl
  have hafter : ((send peer body).after i s).storage = recorded ∨
      ((send peer body).after i s).storage = recorded.setMessageStatus i.uuid .sent none none ∨
      ((send peer body).after i s).storage =
        recorded.setMessageFailed i.uuid "no_route" i.nowMs := by
    cases hsealed : E2e.encrypt (ControlFrame.utf8 body) key i.ephemeralSecret i.nonce with
    | error e =>
      simp [send, Task.after, hlong, Task.exec_bind, hkey, sendTo, recordLocalSend, insertLocal,
        bumpLocal, onStorage, sendRecorded, encryptFor, hio, hsealed, sendSealed, recorded]
    | ok ciphertext =>
      cases hrouted : i.routed <;>
        simp [send, Task.after, hlong, Task.exec_bind, hkey, sendTo, recordLocalSend, insertLocal,
          bumpLocal, onStorage, sendRecorded, encryptFor, hio, hsealed, sendSealed, dispatch,
          sendRouted, hrouted, settle, nowMs, markSent, markFailed, setStatus, emit, recorded]
  rcases hafter with hafter | hafter | hafter <;> rw [hafter]
  · exact ⟨_, rfl, rfl, hrecorded, rfl⟩
  · exact ⟨_, rfl, rfl, hassign (fun m => m.withStatus .sent none none) (fun _ => rfl), rfl⟩
  · exact ⟨_, rfl, rfl, hassign (fun m => m.withFailure "no_route" i.nowMs) (fun _ => rfl), rfl⟩

end MessagingService

namespace Call

def task (signingSeed : Octets 32) : Call → ServiceM Unit
  | incoming src body => MessagingService.handleIncomingMessage signingSeed src body
  | send peer body => do
      let _ ← MessagingService.send peer body
  | markReadUpTo peer upToTsMs => do
      let _ ← MessagingService.markReadUpTo peer upToTsMs
  | deleteConversation peer => MessagingService.deleteConversation peer
  | deleteAllMessages => MessagingService.deleteAllMessages

/-- The call replaces no unread message, and leaves none behind that it does not count. -/
def Counts (signingSeed : Octets 32) (i : Ports) (st : MessagingStorage) : Call → Prop
  | incoming _ body => i.ioOk = true → ∀ id timestampMs text,
      MessagingService.openMessage signingSeed body = some (id, timestampMs, text) →
      ∀ m, st.messages.get id = some m → m.unread = false
  | send peer body => MessagingService.Records i peer body →
      ∀ m, st.messages.get i.uuid = some m → m.unread = false
  | markReadUpTo peer upToTsMs => i.ioOk = true →
      ∀ id m, st.messages.get id = some m → m.unreadOf peer = true → m.timestampMs ≤ upToTsMs
  | deleteConversation _ => True
  | deleteAllMessages => True

/-- One call: every message still belongs to a conversation, and the counters agree with the
rows exactly if the call counts. -/
theorem step (signingSeed : Octets 32) (call : Call) (i : Ports) (s : MessagingService)
    (hfiled : s.storage.Filed) (hagrees : ∀ q, s.storage.unread q = s.storage.unreadRows q) :
    ((call.task signingSeed).after i s).storage.Filed ∧
      ((∀ q, ((call.task signingSeed).after i s).storage.unread q =
          ((call.task signingSeed).after i s).storage.unreadRows q) ↔
        call.Counts signingSeed i s.storage) := by
  cases call with
  | incoming src body =>
    simp only [task, Counts]
    cases hopen : MessagingService.openMessage signingSeed body with
    | none =>
      rw [MessagingService.after_handleIncomingMessage_of_unopened hopen]
      exact ⟨hfiled, by simp [hagrees]⟩
    | some opened =>
      obtain ⟨id, timestampMs, text⟩ := opened
      rw [MessagingService.storage_after_handleIncomingMessage hopen]
      cases hio : i.ioOk with
      | false => exact ⟨hfiled, by simp [hagrees]⟩
      | true =>
        obtain ⟨hfiled', hstep⟩ := MessagingStorage.step_receive hfiled hagrees
          (MessagingService.remoteRecord src id text timestampMs i.nowMs) rfl timestampMs text
        refine ⟨hfiled', hstep.trans ?_⟩
        simp [MessagingService.remoteRecord]
  | send peer body =>
    simp only [task, Task.after_discard, Counts]
    by_cases hrecords : MessagingService.Records i peer body
    · obtain ⟨row, hdir, hpeer, hmessages, hconv⟩ := MessagingService.storage_after_send hrecords s
      have hunread : ∀ q, ((MessagingService.send peer body).after i s).storage.unread q =
          s.storage.unread q + if row.unreadOf q then 1 else 0 := by
        intro q
        rw [MessagingStorage.unread, hconv]
        refine (MessagingStorage.unread_upsertConversation _ peer q 0 (fun n => n) rfl ..).trans ?_
        simp [unreadOf, unread, hdir]
      refine ⟨hfiled.replace hmessages ?_ fun q hq => ?_, ?_⟩
      · rw [hconv, hpeer]
        exact (MessagingStorage.contains_upsertConversation ..).mpr (.inl rfl)
      · rw [hconv]
        exact (MessagingStorage.contains_upsertConversation ..).mpr (.inr hq)
      · rw [MessagingStorage.agrees_replace_iff hmessages hunread hagrees]
        simp [hrecords]
    · rw [MessagingService.storage_after_send_of_not_records hrecords]
      exact ⟨hfiled, by simp [hagrees, hrecords]⟩
  | markReadUpTo peer upToTsMs =>
    simp only [task, Task.after_discard, Counts, MessagingService.storage_after_markReadUpTo]
    cases hio : i.ioOk with
    | false => exact ⟨hfiled, by simp [hagrees]⟩
    | true =>
      refine ⟨hfiled.markReadUpTo peer upToTsMs, ?_⟩
      simp [MessagingStorage.agrees_markReadUpTo_iff peer upToTsMs hagrees]
  | deleteConversation peer =>
    simp only [task, Counts, iff_true, MessagingService.storage_after_deleteConversation]
    cases hio : i.ioOk with
    | false => exact ⟨hfiled, hagrees⟩
    | true =>
      exact ⟨hfiled.deleteConversation peer,
        MessagingStorage.agrees_deleteConversation peer hagrees⟩
  | deleteAllMessages =>
    simp only [task, Counts, iff_true, MessagingService.storage_after_deleteAllMessages]
    cases hio : i.ioOk with
    | false => exact ⟨hfiled, hagrees⟩
    | true => exact ⟨MessagingStorage.filed_empty, MessagingStorage.agrees_empty⟩

end Call

/-! ## Sequences of calls -/

/-- The service after a sequence of calls, each with what the ports answered. -/
def runCalls (signingSeed : Octets 32) (s : MessagingService) (calls : List (Call × Ports)) :
    MessagingService :=
  calls.foldl (fun s c => (c.1.task signingSeed).after c.2 s) s

/-- Every call counts when it is made. -/
def AllCount (signingSeed : Octets 32) : MessagingService → List (Call × Ports) → Prop
  | _, [] => True
  | s, c :: calls => c.1.Counts signingSeed c.2 s.storage ∧
      AllCount signingSeed ((c.1.task signingSeed).after c.2 s) calls

theorem unread_agrees_from (signingSeed : Octets 32) (calls : List (Call × Ports))
    (s : MessagingService) (hfiled : s.storage.Filed)
    (hagrees : ∀ q, s.storage.unread q = s.storage.unreadRows q) :
    (∀ k, (runCalls signingSeed s (calls.take k)).storage.Agrees) ↔
      AllCount signingSeed s calls := by
  induction calls generalizing s with
  | nil => simp [runCalls, AllCount, hfiled.agrees_iff, hagrees]
  | cons c calls ih =>
    obtain ⟨hfiled', hstep⟩ := c.1.step signingSeed c.2 s hfiled hagrees
    constructor
    · intro hall
      have hagrees' := hfiled'.agrees_iff.mp (hall 1)
      exact ⟨hstep.mp hagrees', (ih _ hfiled' hagrees').mp fun k => hall (k + 1)⟩
    · rintro ⟨hcounts, hrest⟩ k
      cases k with
      | zero => exact hfiled.agrees_iff.mpr hagrees
      | succ k => exact (ih _ hfiled' (hstep.mpr hcounts)).mpr hrest k

/-- From the empty store on, the unread counters are right after every sequence of calls and
after each of its calls exactly if every call counts when it is made. -/
theorem unread_agrees_iff (signingSeed : Octets 32) (events : List MessageEvent)
    (outbox : List (NodeId × ControlFrame)) (calls : List (Call × Ports)) :
    (∀ k, (runCalls signingSeed ⟨.empty, events, outbox⟩ (calls.take k)).storage.Agrees) ↔
      AllCount signingSeed ⟨.empty, events, outbox⟩ calls :=
  unread_agrees_from signingSeed calls _ MessagingStorage.filed_empty MessagingStorage.agrees_empty

end

/-! ## Counters that drift -/

section Drift

attribute [local instance] transparentX25519 transparentHkdf keyedGcm

/-- The same message, delivered twice. -/
def redelivered : List (Call × Ports) :=
  [(.incoming bobId clashingMessage, quietPorts), (.incoming bobId clashingMessage, quietPorts)]

/-- One message is stored, two are counted. -/
theorem redelivered_counts_twice :
    (((runCalls localSeed ⟨.empty, [], []⟩ redelivered).storage.conversations.get bobId).map
        (·.unreadCount)) = some 2 ∧
      (runCalls localSeed ⟨.empty, [], []⟩ redelivered).storage.unreadRows bobId = 1 := by
  decide +kernel

-- a timestamp before the message resets the counter and leaves the message unread
example :
    let s := runCalls localSeed ⟨.empty, [], []⟩
      [(.incoming bobId clashingMessage, quietPorts), (.markReadUpTo bobId 29, quietPorts)]
    s.storage.unread bobId = 0 ∧ s.storage.unreadRows bobId = 1 := by
  decide +kernel

end Drift

end ProximityMesh.Messaging
