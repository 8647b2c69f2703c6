/-
  Messaging/Storage.lean --- the tables of the messaging plugin.

  Source: crates/pim-messaging/src/storage.rs, crates/pim-messaging/src/schema.sql.

  `messages` is keyed by the id of the message, which its sender chooses, and
  `conversations_meta` by the peer.  A row of `messages` stands under its own id: the table
  carries that as a field.  Hex strings of ids are the ids they encode.  Each function of the
  source holds the lock of the connection, so each is one step here; a statement that fails
  because of the disk is not modelled.

  `updateMessages` is `UPDATE messages SET … WHERE …`.  What a function does to the tables is
  said once, by the `get` lemma after its definition.
-/
import ProximityMesh.Core.Types
import ProximityMesh.Foundation.HashMap

set_option autoImplicit false

namespace ProximityMesh.Messaging

/-- The 16 bytes of a UUID. -/
abbrev MessageId : Type := Octets 16

/-- Direction of a stored message relative to the local node. -/
inductive MessageDirection where
  | sent
  | received
  deriving DecidableEq, Repr

inductive MessageStatus where
  /-- Persisted locally; not yet handed to the transport layer. -/
  | pending
  /-- Sent on the wire; awaiting recipient ack. -/
  | sent
  /-- Recipient confirmed receipt. -/
  | delivered
  /-- Recipient marked the message as read. -/
  | read
  /-- Send or delivery failed permanently. -/
  | failed
  deriving DecidableEq, Repr

/-- Acknowledgement category transmitted on the wire. -/
inductive AckKind where
  | delivered
  | read
  deriving DecidableEq, Repr

namespace AckKind

def toU8 : AckKind → UInt8
  | delivered => 1
  | read => 2

def fromU8 : UInt8 → Option AckKind
  | 1 => some delivered
  | 2 => some read
  | _ => none

end AckKind

structure MessageRecord where
  id : MessageId
  peerNodeId : NodeId
  direction : MessageDirection
  body : String
  timestampMs : Int
  status : MessageStatus
  failureReason : Option String
  deliveredAtMs : Option Int
  readAtMs : Option Int
  deriving DecidableEq

/-- A row of `conversations_meta`. -/
structure ConversationMeta where
  unreadCount : Nat
  lastReadMessageId : Option MessageId
  lastMessageId : Option MessageId
  lastMessagePreview : Option String
  lastMessageTsMs : Option Int
  deriving DecidableEq

structure ConversationBump where
  preview : String
  unreadCount : Nat
  deriving DecidableEq

/-- The first 80 characters, on one line. -/
def previewOf (body : String) : String :=
  String.ofList ((body.toList.take 80).map fun c => if c = '\n' then ' ' else c)

/-- `COALESCE(column, value)`. -/
def coalesce (column : Option Int) (value : Int) : Option Int := some (column.getD value)

namespace MessageRecord

/-- The four `UPDATE` statements of `set_message_status`. -/
def withStatus (m : MessageRecord) (status : MessageStatus) :
    Option Int → Option Int → MessageRecord
  | some d, some r => { m with status, deliveredAtMs := some d, readAtMs := some r }
  | some d, none => { m with status, deliveredAtMs := coalesce m.deliveredAtMs d }
  | none, some r => { m with status, readAtMs := coalesce m.readAtMs r }
  | none, none => { m with status }

def withFailure (m : MessageRecord) (reason : String) (atMs : Int) : MessageRecord :=
  { m with
    status := .failed, failureReason := some reason
    deliveredAtMs := coalesce m.deliveredAtMs atMs }

/-- The condition of `mark_read_up_to`. -/
def readableUpTo (m : MessageRecord) (peer : NodeId) (upToTsMs : Int) : Bool :=
  m.peerNodeId = peer ∧ m.direction = .received ∧ m.timestampMs ≤ upToTsMs ∧ m.status ≠ .read

def withRead (m : MessageRecord) (upToTsMs : Int) : MessageRecord :=
  { m with status := .read, readAtMs := coalesce m.readAtMs upToTsMs }

@[simp] theorem id_withStatus (m : MessageRecord) (status : MessageStatus) (d r : Option Int) :
    (m.withStatus status d r).id = m.id := by
  cases d <;> cases r <;> rfl

end MessageRecord

structure MessagingStorage where
  messages : HashMap MessageId MessageRecord
  conversations : HashMap NodeId ConversationMeta
  /-- `id` is the primary key. -/
  keyed : ∀ id m, messages.get id = some m → m.id = id
  deriving DecidableEq

namespace MessagingStorage

/-- The tables right after the schema has been applied. -/
def empty : MessagingStorage where
  messages := .empty
  conversations := .empty
  keyed _ _ h := by simp at h

variable (st : MessagingStorage)

/-! ## Statements -/

/-- `INSERT OR REPLACE INTO messages`. -/
def insertMessage (m : MessageRecord) : MessagingStorage where
  messages := st.messages.insert m.id m
  conversations := st.conversations
  keyed id m' h := by
    rcases HashMap.get_insert_cases h with ⟨rfl, rfl⟩ | ⟨-, hold⟩
    · rfl
    · exact st.keyed id m' hold

/-- `UPDATE messages SET … WHERE …`, with an assignment that leaves the key alone. -/
def updateMessages (cond : MessageRecord → Bool) (assign : MessageRecord → MessageRecord)
    (hid : ∀ m, (assign m).id = m.id) : MessagingStorage where
  messages := st.messages.mapValues fun m => if cond m then assign m else m
  conversations := st.conversations
  keyed id m h := by
    rw [HashMap.get_mapValues] at h
    obtain ⟨m', hold, rfl⟩ := Option.map_eq_some_iff.mp h
    rw [← st.keyed id m' hold]
    split
    · exact hid m'
    · rfl

/-- `DELETE FROM messages WHERE …`. -/
def deleteMessages (cond : MessageRecord → Bool) : MessagingStorage where
  messages := st.messages.retain fun _ m => !cond m
  conversations := st.conversations
  keyed id m h := by
    rw [HashMap.get_retain] at h
    exact st.keyed id m (Option.filter_eq_some_iff.mp h).1

/-- `INSERT INTO conversations_meta … ON CONFLICT(peer_node_id) DO UPDATE SET …`: both calls
set the last message; they differ in what they do to the counter. -/
def upsertConversation (peer : NodeId) (initial : Nat) (count : Nat → Nat) (id : MessageId)
    (preview : String) (tsMs : Int) : MessagingStorage :=
  let row : ConversationMeta :=
    match st.conversations.get peer with
    | some c =>
        { c with
          unreadCount := count c.unreadCount, lastMessageId := some id
          lastMessagePreview := some preview, lastMessageTsMs := some tsMs }
    | none =>
        { unreadCount := initial, lastReadMessageId := none, lastMessageId := some id
          lastMessagePreview := some preview, lastMessageTsMs := some tsMs }
  { st with conversations := st.conversations.insert peer row }

/-- Unread messages of a peer; a peer without a row has none. -/
def unread (peer : NodeId) : Nat := ((st.conversations.get peer).map (·.unreadCount)).getD 0

/-! ## The functions of the source -/

def bumpConversationAfterLocalSend (peer : NodeId) (id : MessageId) (tsMs : Int) (body : String) :
    MessagingStorage :=
  st.upsertConversation peer 0 (fun n => n) id (previewOf body) tsMs

def bumpConversationAfterRemoteReceive (peer : NodeId) (id : MessageId) (tsMs : Int)
    (body : String) : MessagingStorage × ConversationBump :=
  let st' := st.upsertConversation peer 1 (fun n => n + 1) id (previewOf body) tsMs
  (st', { preview := previewOf body, unreadCount := st'.unread peer })

def setMessageStatus (id : MessageId) (status : MessageStatus)
    (deliveredAtMs readAtMs : Option Int) : MessagingStorage :=
  st.updateMessages (fun m => m.id = id) (fun m => m.withStatus status deliveredAtMs readAtMs)
    fun m => m.id_withStatus status deliveredAtMs readAtMs

def setMessageFailed (id : MessageId) (reason : String) (atMs : Int) : MessagingStorage :=
  st.updateMessages (fun m => m.id = id) (fun m => m.withFailure reason atMs) fun _ => rfl

def deleteConversation (peer : NodeId) : MessagingStorage × Nat × Bool :=
  let st' := st.deleteMessages fun m => m.peerNodeId = peer
  ({ st' with conversations := st'.conversations.remove peer },
    st.messages.count fun m => m.peerNodeId = peer, st.conversations.contains peer)

def deleteAllMessages : MessagingStorage × Nat × Nat :=
  (empty, st.messages.keys.length, st.conversations.keys.length)

/-- The new counter is 0 whatever the timestamp. -/
def markReadUpTo (peer : NodeId) (upToTsMs : Int) : MessagingStorage × Int :=
  let st' := st.updateMessages (fun m => m.readableUpTo peer upToTsMs)
    (fun m => m.withRead upToTsMs) fun _ => rfl
  ({ st' with conversations := st'.conversations.modify peer fun c => { c with unreadCount := 0 } },
    0)

/-! ## What they leave in the tables -/

@[simp] theorem get_insertMessage (m : MessageRecord) (id : MessageId) :
    (st.insertMessage m).messages.get id = if id = m.id then some m else st.messages.get id :=
  HashMap.get_insert ..

@[simp] theorem conversations_insertMessage (m : MessageRecord) :
    (st.insertMessage m).conversations = st.conversations := rfl

/-- `WHERE id = …` is about one row. -/
theorem get_updateMessages_id (id₀ : MessageId) (assign : MessageRecord → MessageRecord)
    (hid : ∀ m, (assign m).id = m.id) (id : MessageId) :
    (st.updateMessages (fun m => m.id = id₀) assign hid).messages.get id =
      if id = id₀ then (st.messages.get id).map assign else st.messages.get id := by
  rw [updateMessages, HashMap.get_mapValues]
  cases hget : st.messages.get id with
  | none => simp
  | some m => simp [st.keyed id m hget, apply_ite some]

@[simp] theorem messages_upsertConversation (peer : NodeId) (initial : Nat) (count : Nat → Nat)
    (id : MessageId) (preview : String) (tsMs : Int) :
    (st.upsertConversation peer initial count id preview tsMs).messages = st.messages := rfl

end MessagingStorage

end ProximityMesh.Messaging
