/-
  Messaging/Isolation.lean --- what a payload of one peer does to the rows of another.

  Source: crates/pim-messaging/src/service.rs, crates/pim-messaging/src/storage.rs.

  The row of a message stands under an id that its sender chose.  An incoming message
  replaces the row under its id, whoever it belongs to, and an acknowledgement updates it,
  whoever the message was for.  Conversations are keyed by the peer, and nothing of another
  peer is touched there.  `incoming_isolated_iff` says when the rows of the other peers and the
  messages that were sent locally stay as they are.
-/
import ProximityMesh.Crypto.Transparent
import ProximityMesh.Messaging.Service

set_option autoImplicit false

namespace ProximityMesh.Messaging

open Crypto Protocol MessagingService MessagingStorage

/-- A payload that the daemon hands to the plugin. -/
inductive Incoming where
  | message (body : Bytes)
  | ack (body : Bytes)
  deriving DecidableEq

/-- What an acknowledgement writes into a row. -/
def AckKind.applyTo (kind : AckKind) (now : Int) (m : MessageRecord) : MessageRecord :=
  match kind with
  | .delivered => m.withStatus .delivered (some now) none
  | .read => m.withStatus .read none (some now)

@[simp] theorem AckKind.id_applyTo (kind : AckKind) (now : Int) (m : MessageRecord) :
    (kind.applyTo now m).id = m.id := by
  cases kind with
  | delivered | read => rfl

section

variable [HkdfSha256] [X25519] [Aes256Gcm]

namespace Incoming

/-- `handle_payload` of the plugin. -/
def task (signingSeed : Octets 32) (src : NodeId) : Incoming → ServiceM Unit
  | message body => MessagingService.handleIncomingMessage signingSeed src body
  | ack body => MessagingService.handleIncomingMessageAck src body

end Incoming

/-! ## What the handlers leave in the tables -/

namespace MessagingService

variable {signingSeed : Octets 32} {src : NodeId} {body : Bytes}

theorem after_handleIncomingMessage_of_unopened (hopen : openMessage signingSeed body = none)
    (i : Ports) (s : MessagingService) :
    (handleIncomingMessage signingSeed src body).after i s = s := by
  rw [handleIncomingMessage, hopen]
  rfl

/-- A message that is opened replaces the row under its id, and counts for its sender. -/
theorem storage_after_handleIncomingMessage {messageId : MessageId} {timestampMs : Int}
    {plaintext : String}
    (hopen : openMessage signingSeed body = some (messageId, timestampMs, plaintext)) (i : Ports)
    (s : MessagingService) :
    ((handleIncomingMessage signingSeed src body).after i s).storage =
      if i.ioOk then
        ((s.storage.insertMessage (remoteRecord src messageId plaintext timestampMs i.nowMs)
          ).bumpConversationAfterRemoteReceive src messageId timestampMs plaintext).1
      else s.storage := by
  rw [handleIncomingMessage, hopen]
  cases hio : i.ioOk with
  | true => simp [Task.after, Task.exec_bind, nowMs, onStorage, emit, sendRouted, hio]
  | false => simp [Task.after, Task.exec_bind, nowMs, onStorage, hio]

omit [HkdfSha256] [X25519] [Aes256Gcm] in
theorem after_handleIncomingMessageAck_of_unopened (hopen : openAck body = none) (i : Ports)
    (s : MessagingService) : (handleIncomingMessageAck src body).after i s = s := by
  rw [handleIncomingMessageAck, hopen]
  rfl

omit [HkdfSha256] [X25519] [Aes256Gcm] in
/-- An acknowledgement that is opened is written into the row under its id. -/
theorem storage_after_handleIncomingMessageAck {messageId : MessageId} {kind : AckKind}
    (hopen : openAck body = some (messageId, kind)) (i : Ports) (s : MessagingService) :
    ((handleIncomingMessageAck src body).after i s).storage =
      if i.ioOk then
        s.storage.updateMessages (fun m => m.id = messageId) (kind.applyTo i.nowMs)
          (kind.id_applyTo i.nowMs)
      else s.storage := by
  rw [handleIncomingMessageAck, hopen]
  cases hio : i.ioOk with
  | true =>
    cases kind with
    | delivered =>
      simp [Task.after, Task.exec_bind, applyAck, markDelivered, setStatus, onStorage, hio]
      rfl
    | read =>
      simp [Task.after, Task.exec_bind, applyAck, markRead, setStatus, onStorage, hio]
      rfl
  | false =>
    cases kind with
    | delivered =>
      simp [Task.after, Task.exec_bind, nowMs, applyAck, markDelivered, setStatus, onStorage, hio]
    | read =>
      simp [Task.after, Task.exec_bind, nowMs, applyAck, markRead, setStatus, onStorage, hio]

end MessagingService

/-! ## Isolation -/

/-- No message and no conversation of a peer other than `p` was changed or removed, and no
message that was sent locally was changed by an incoming message. -/
structure Isolated (p : NodeId) (incoming : Incoming) (st st' : MessagingStorage) : Prop where
  messages : ∀ id m, st.messages.get id = some m → m.peerNodeId ≠ p →
    st'.messages.get id = some m
  conversations : ∀ q, q ≠ p → st'.conversations.get q = st.conversations.get q
  sent : ∀ body, incoming = .message body → ∀ id m, st.messages.get id = some m →
    m.direction = .sent → st'.messages.get id = some m

omit [HkdfSha256] [X25519] [Aes256Gcm] in
theorem isolated_refl (p : NodeId) (incoming : Incoming) (st : MessagingStorage) :
    Isolated p incoming st st :=
  ⟨fun _ _ hget _ => hget, fun _ _ => rfl, fun _ _ _ _ hget _ => hget⟩

section Rows

variable {p : NodeId} {st st' : MessagingStorage} {id : MessageId}

omit [HkdfSha256] [X25519] [Aes256Gcm] in
/-- The new row is a received message of `p`, so it differs from every other kind of row. -/
theorem isolated_insert_iff {body : Bytes} (record : MessageRecord)
    (hpeer : record.peerNodeId = p) (hdir : record.direction = .received)
    (hmessages : ∀ id', st'.messages.get id' = (st.insertMessage record).messages.get id')
    (hconv : ∀ q, q ≠ p → st'.conversations.get q = st.conversations.get q) :
    Isolated p (.message body) st st' ↔
      ∀ m, st.messages.get record.id = some m → m.peerNodeId = p ∧ m.direction = .received := by
  constructor
  · intro h m hget
    have hnew : st'.messages.get record.id = some record := by
      rw [hmessages, get_insertMessage, if_pos rfl]
    constructor
    · by_contra hother
      obtain rfl := Option.some.inj (hnew.symm.trans (h.messages _ m hget hother))
      exact hother hpeer
    · by_contra hother
      have hsent : m.direction = .sent := by
        cases hm : m.direction with
        | sent => rfl
        | received => exact absurd hm hother
      obtain rfl := Option.some.inj (hnew.symm.trans (h.sent body rfl _ m hget hsent))
      exact hother hdir
  · intro h
    -- a row that is not replaced stays
    have hkept : ∀ id' m, st.messages.get id' = some m → id' ≠ record.id →
        st'.messages.get id' = some m := by
      intro id' m hget hne
      rw [hmessages, get_insertMessage, if_neg hne]
      exact hget
    refine ⟨fun id' m hget hother => hkept id' m hget ?_, hconv, fun _ _ id' m hget hsent =>
      hkept id' m hget ?_⟩
    · rintro rfl
      exact hother (h m hget).1
    · rintro rfl
      rw [(h m hget).2] at hsent
      cases hsent

omit [HkdfSha256] [X25519] [Aes256Gcm] in
theorem isolated_update_iff {body : Bytes} {assign : MessageRecord → MessageRecord}
    (hid : ∀ m, (assign m).id = m.id) :
    Isolated p (.ack body) st (st.updateMessages (fun m => m.id = id) assign hid) ↔
      ∀ m, st.messages.get id = some m → m.peerNodeId = p ∨ assign m = m := by
  constructor
  · intro h m hget
    by_contra hnot
    obtain ⟨hother, hchanges⟩ := not_or.mp hnot
    have hkept := h.messages id m hget hother
    rw [get_updateMessages_id, if_pos rfl, hget] at hkept
    exact hchanges (Option.some.inj hkept)
  · intro h
    refine ⟨fun id' m hget hother => ?_, fun _ _ => rfl, fun _ hmessage => nomatch hmessage⟩
    rw [get_updateMessages_id, hget]
    split
    · rename_i heq
      subst heq
      exact congrArg some ((h m hget).resolve_left hother)
    · rfl

end Rows

/-- Under the id of the payload there is no row, or one that the payload may touch: for a
message one of the same peer that was received, for an acknowledgement one of the same peer
or one that it leaves as it is. -/
def Incoming.FindsOwnRow (signingSeed : Octets 32) (p : NodeId) (i : Ports)
    (st : MessagingStorage) : Incoming → Prop
  | .message body => ∀ id timestampMs text,
      MessagingService.openMessage signingSeed body = some (id, timestampMs, text) →
      ∀ m, st.messages.get id = some m → m.peerNodeId = p ∧ m.direction = .received
  | .ack body => ∀ id kind, MessagingService.openAck body = some (id, kind) →
      ∀ m, st.messages.get id = some m → m.peerNodeId = p ∨ kind.applyTo i.nowMs m = m

/-- A payload of `p` leaves the rows of the others alone exactly if it finds no row of theirs
under its id, or cannot be written at all. -/
theorem incoming_isolated_iff (signingSeed : Octets 32) (p : NodeId) (incoming : Incoming)
    (i : Ports) (s : MessagingService) :
    Isolated p incoming s.storage ((incoming.task signingSeed p).after i s).storage ↔
      (i.ioOk = true → incoming.FindsOwnRow signingSeed p i s.storage) := by
  cases incoming with
  | message body =>
    simp only [Incoming.task, Incoming.FindsOwnRow]
    cases hopen : openMessage signingSeed body with
    | none =>
      rw [after_handleIncomingMessage_of_unopened hopen]
      simp [isolated_refl]
    | some opened =>
      obtain ⟨id, timestampMs, text⟩ := opened
      rw [storage_after_handleIncomingMessage hopen]
      cases hio : i.ioOk with
      | false => simp [isolated_refl]
      | true =>
        refine (isolated_insert_iff
          (remoteRecord p id text timestampMs i.nowMs) rfl rfl ?_ ?_).trans ?_
        · exact fun _ => rfl
        · exact fun q hq => HashMap.get_insert_ne _ _ hq
        · simp [remoteRecord]
  | ack body =>
    simp only [Incoming.task, Incoming.FindsOwnRow]
    cases hopen : openAck body with
    | none =>
      rw [after_handleIncomingMessageAck_of_unopened hopen]
      simp [isolated_refl]
    | some opened =>
      obtain ⟨id, kind⟩ := opened
      rw [storage_after_handleIncomingMessageAck hopen]
      cases hio : i.ioOk with
      | false => simp [isolated_refl]
      | true =>
        rw [if_pos rfl, isolated_update_iff]
        simp

end

/-! ## Two peers that use one id -/

section Clash

attribute [local instance] transparentX25519 transparentHkdf keyedGcm

def aliceId : NodeId := ⟨.fill 16 1⟩

def bobId : NodeId := ⟨.fill 16 2⟩

def sharedId : MessageId := .fill 16 7

def localSeed : Octets 32 := .fill 32 5

def quietPorts : Ports where
  lookupX25519 _ := none
  lookupName _ := none
  routed := true
  nowMs := 50
  uuid := .fill 16 9
  ephemeralSecret := .fill 32 3
  nonce := .fill 12 0
  ioOk := true

def sealedFor (seed : Octets 32) (plaintext : Bytes) : Bytes :=
  match E2e.encrypt plaintext (E2e.x25519PublicFromSeed seed) quietPorts.ephemeralSecret
      quietPorts.nonce with
  | .ok sealed => sealed
  | .error _ => []

/-- A message with the text `hi`. -/
def clashingMessage : Bytes := encodeMessage sharedId 30 (sealedFor localSeed [104, 105])

def aliceRow : MessageRecord := MessagingService.remoteRecord aliceId sharedId "due" 10 20

def aliceStore : MessagingService := ⟨MessagingStorage.empty.insertMessage aliceRow, [], []⟩

/-- A message of one peer replaces the message of another that has the same id. -/
theorem clashing_message_replaces_row :
    aliceStore.storage.messages.get sharedId = some aliceRow ∧ aliceRow.peerNodeId ≠ bobId ∧
      (((Incoming.message clashingMessage).task localSeed bobId).after quietPorts aliceStore
        ).storage.messages.get sharedId =
          some (MessagingService.remoteRecord bobId sharedId "hi" 30 50) := by
  decide +kernel

-- an acknowledgement of anyone marks the message of another peer as read
example : ((((Incoming.ack (encodeAck sharedId 2)).task localSeed bobId).after quietPorts aliceStore
    ).storage.messages.get sharedId).map (·.status) = some .read := by
  decide +kernel

end Clash

end ProximityMesh.Messaging
