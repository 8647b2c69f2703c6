/-
  Daemon/EchoReply.lean --- the answer of a node to an echo request.

  Source: `icmp_echo_reply` of crates/pim-daemon/src/runtime_config.rs.

  Both checksums are computed anew, the one of the message first.  The fields that are
  written afterwards lie in front of it, so it stays valid.
-/
import ProximityMesh.Daemon.EventLoop
import ProximityMesh.Gateway.Checksum

set_option autoImplicit false

namespace ProximityMesh.Daemon

open Gateway OnesComplement

structure EchoRequest (packet : Bytes) : Prop where
  complete : ihlOf packet + 8 ≤ packet.length
  icmp : byteAt packet 9 = 1
  type : byteAt packet (ihlOf packet) = 8
  code : byteAt packet (ihlOf packet + 1) = 0

/-- The packet with source and destination exchanged, type 0 and both checksums valid. -/
structure EchoReply (packet reply : Bytes) : Prop where
  length : reply.length = packet.length
  source : window reply 12 4 = window packet 16 4
  destination : window reply 16 4 = window packet 12 4
  type : byteAt reply (ihlOf packet) = 0
  header : Valid (reply.take (ihlOf packet))
  message : Valid (reply.drop (ihlOf packet))
  others : ∀ i, i < 10 ∨ 20 ≤ i → i ≠ ihlOf packet →
    i < ihlOf packet + 2 ∨ ihlOf packet + 4 ≤ i → reply[i]? = packet[i]?

/-- The reply before its checksums are computed. -/
def turned (packet : Bytes) : Bytes :=
  patch (patch (patch packet 12 (window packet 16 4)) 16 (window packet 12 4)) (ihlOf packet) [0]

def answered (packet : Bytes) : Bytes :=
  summed (ihlOf packet) (packet.length - ihlOf packet) (ihlOf packet + 2) (turned packet)

variable {packet : Bytes}

theorem patch_cleared {buf : Bytes} {pos : Nat} (h : pos + 2 ≤ buf.length) (v : Nat) :
    patch (patch buf pos [0, 0]) pos (beBytes 2 v) = patch buf pos (beBytes 2 v) :=
  patch_patch_self (by rw [length_beBytes]; rfl) h

section Request

variable (hihl : 20 ≤ ihlOf packet) (hfits : ihlOf packet + 8 ≤ packet.length)

include hihl hfits

theorem exchanged_spec :
    let exchanged := patch (patch packet 12 (window packet 16 4)) 16 (window packet 12 4)
    AgreeOutside 12 20 packet exchanged ∧ window exchanged 12 4 = window packet 16 4 ∧
      window exchanged 16 4 = window packet 12 4 := by
  have hsrc : (window packet 16 4).length = 4 := length_window (by omega)
  have hdst : (window packet 12 4).length = 4 := length_window (by omega)
  have hfirst := agreeOutside_patch hsrc (show 12 + 4 ≤ packet.length by omega)
  have hsecond := agreeOutside_patch hdst
    (show 16 + 4 ≤ (patch packet 12 (window packet 16 4)).length by rw [hfirst.length_eq]; omega)
  refine ⟨(hfirst.mono (by omega) (by omega)).trans (hsecond.mono (by omega) (by omega)), ?_⟩
  exact window_patch_patch hsrc hdst (by omega) (by omega)

theorem agreeOutside_turned : AgreeOutside (ihlOf packet) (ihlOf packet + 1)
    (patch (patch packet 12 (window packet 16 4)) 16 (window packet 12 4)) (turned packet) :=
  agreeOutside_patch rfl (by rw [(exchanged_spec hihl hfits).1.length_eq]; omega)

theorem length_turned : (turned packet).length = packet.length :=
  (agreeOutside_turned hihl hfits).length_eq.trans (exchanged_spec hihl hfits).1.length_eq

theorem agreeOutside_answered :
    AgreeOutside (ihlOf packet + 2) (ihlOf packet + 4) (turned packet) (answered packet) :=
  agreeOutside_summed _ _ (by rw [length_turned hihl hfits]; omega)

theorem length_answered : (answered packet).length = packet.length :=
  (agreeOutside_answered hihl hfits).length_eq.trans (length_turned hihl hfits)

theorem icmpEchoReply_eq (h : EchoRequest packet) :
    icmpEchoReply packet = some (summed 0 (ihlOf packet) 10 (answered packet)) := by
  have hlen := length_turned hihl hfits
  have hmessage : window (patch (turned packet) (ihlOf packet + 2) [0, 0]) (ihlOf packet)
      (packet.length - ihlOf packet) =
        (patch (turned packet) (ihlOf packet + 2) [0, 0]).drop (ihlOf packet) := by
    refine List.take_of_length_le ?_
    rw [List.length_drop, length_patch (show ihlOf packet + 2 + 2 ≤ _ by omega), hlen]
  have hanswered : answered packet = patch (patch (turned packet) (ihlOf packet + 2) [0, 0])
      (ihlOf packet + 2) (beBytes 2 (foldChecksum (onesComplementSum
        ((patch (turned packet) (ihlOf packet + 2) [0, 0]).drop (ihlOf packet)))).toNat) := by
    rw [patch_cleared (by omega), answered, summed, hmessage]
  have hheader : 10 + 2 ≤ (answered packet).length := by
    rw [length_answered hihl hfits]
    omega
  rw [summed, ← patch_cleared hheader, hanswered]
  simp only [icmpEchoReply, show (byteAt packet 0 &&& 0x0f).toNat * 4 = ihlOf packet from rfl]
  rw [if_neg (by omega), if_neg (Nat.not_lt.mpr hfits), if_neg (not_not.mpr h.icmp), h.type, h.code]
  rfl

theorem echoReply_summed (hmax : packet.length ≤ 65535) :
    EchoReply packet (summed 0 (ihlOf packet) 10 (answered packet)) := by
  obtain ⟨hexchanged, hsrc, hdst⟩ := exchanged_spec hihl hfits
  have hturned := agreeOutside_turned hihl hfits
  have hanswered := agreeOutside_answered hihl hfits
  have hlen := length_answered hihl hfits
  have hheader : 10 + 2 ≤ (answered packet).length := by omega
  have hreply := agreeOutside_summed 0 (ihlOf packet) hheader
  -- neither the type nor a checksum is written over an address
  have haddresses (lo : Nat) (hlo : 12 ≤ lo ∧ lo + 4 ≤ 20) :=
    (hreply.window_eq (show lo + 4 ≤ 10 ∨ 10 + 2 ≤ lo by omega)).trans
      ((hanswered.window_eq (by omega)).trans (hturned.window_eq (by omega)))
  have htype : window (turned packet) (ihlOf packet) 1 = [0] :=
    window_patch_self (by rw [hexchanged.length_eq, List.length_singleton]; omega)
  constructor
  · exact hreply.length_eq.trans hlen
  · exact (haddresses 12 (by decide)).trans hsrc
  · exact (haddresses 16 (by decide)).trans hdst
  · rw [hreply.byteAt_eq (by omega), hanswered.byteAt_eq (by omega)]
    exact byteAt_eq_of_window htype Nat.one_pos
  · exact valid_summed (Nat.zero_le 10) (by decide) (by omega) (by omega) (by omega)
  · rw [hreply.drop_eq (by omega)]
    have hvalid : Valid (window (answered packet) (ihlOf packet) (packet.length - ihlOf packet)) :=
      valid_summed (by omega) (by simp) (by omega)
        (by rw [length_turned hihl hfits]; omega) (by omega)
    rwa [window, List.take_of_length_le (by rw [List.length_drop]; omega)] at hvalid
  · intro i hheader htype hchecksum
    rw [hreply.getElem?_eq i (by omega), hanswered.getElem?_eq i (by omega),
      hturned.getElem?_eq i (by omega), hexchanged.getElem?_eq i (by omega)]

end Request

/-- Every echo request is answered, and no other packet is. -/
theorem echo_reply_valid (hihl : 20 ≤ ihlOf packet) :
    (EchoRequest packet → packet.length ≤ 65535 →
      ∃ reply, icmpEchoReply packet = some reply ∧ EchoReply packet reply) ∧
    (¬ EchoRequest packet → icmpEchoReply packet = none) := by
  constructor
  · intro h hmax
    exact ⟨_, icmpEchoReply_eq hihl h.complete h, echoReply_summed hihl h.complete hmax⟩
  · intro hother
    unfold icmpEchoReply
    grind [EchoRequest, ihlOf]

/-- An echo request from 10.77.0.1 to 10.77.0.2. -/
def pingPacket : Bytes :=
  [0x45, 0, 0, 28, 0, 0, 0, 0, 64, 1, 0, 0, 10, 77, 0, 1, 10, 77, 0, 2, 8, 0, 0, 0, 0, 1, 0, 1]

theorem echo_reply_valid_pingPacket : EchoRequest pingPacket ∧
    ∃ reply, icmpEchoReply pingPacket = some reply ∧ EchoReply pingPacket reply := by
  have hrequest : EchoRequest pingPacket := by
    constructor <;> decide
  exact ⟨hrequest, (echo_reply_valid (by decide)).1 hrequest (by decide)⟩

end ProximityMesh.Daemon
