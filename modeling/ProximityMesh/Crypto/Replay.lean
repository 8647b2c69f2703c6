/-
  Crypto/Replay.lean --- which frames a receiving cipher accepts over a run.

  Source: `decrypt` and `decrypt_in_place_detached` of
  crates/pim-crypto/src/session.rs.

  The two entry points share the replay state: the counter of the last accepted
  frame, or a sentinel.  `fresh_receive` says what that state remembers of a
  sequence of calls, whatever frames they were: a nonce is fresh exactly if its
  counter is above the counter of every frame accepted before.
-/
import ProximityMesh.Crypto.Session

set_option autoImplicit false

namespace ProximityMesh

open Aes256Gcm

namespace Aes256Gcm

variable [Aes256Gcm]

theorem decrypt_append (key : Octets 32) (nonce : Octets 12) (payload : Bytes) (tag : Octets 16) :
    decrypt key nonce (payload ++ tag.toList) = gcmOpen key nonce payload tag := by
  have hlen : (payload ++ tag.toList).length - 16 = payload.length := by simp
  have htag : (payload ++ tag.toList).drop payload.length = tag.toList := List.drop_left
  unfold decrypt
  rw [dif_pos (by simp)]
  simp only [hlen, List.take_left']
  congr 1
  exact Octets.ext htag

end Aes256Gcm

namespace Crypto

open ProximityMesh

/-! ## Calls -/

/-- A call of one of the two decryption entry points. -/
inductive DecryptCall where
  | decrypt (frame : EncryptedFrame)
  | decryptInPlaceDetached (nonce : Octets 12) (payload : Bytes) (tag : Octets 16)
  deriving DecidableEq

namespace DecryptCall

def nonce : DecryptCall → Octets 12
  | decrypt frame => frame.nonce
  | decryptInPlaceDetached nonce _ _ => nonce

variable [Aes256Gcm]

/-- Make the call: the plaintext if the frame is accepted, and the cipher it leaves
behind. -/
def perform (s : SessionCipher) : DecryptCall → Option Bytes × SessionCipher
  | decrypt frame =>
      let (result, s') := s.decrypt frame
      (result.toOption, s')
  | decryptInPlaceDetached nonce payload tag =>
      let (result, s') := s.decryptInPlaceDetached nonce payload tag
      (result.toOption, s')

def opened (key : Octets 32) : DecryptCall → Option Bytes
  | decrypt frame => Aes256Gcm.decrypt key frame.nonce frame.ciphertext
  | decryptInPlaceDetached nonce payload tag => Aes256Gcm.gcmOpen key nonce payload tag

/-- The frame is the encryption of a plaintext under a key. -/
def Genuine (key : Octets 32) (plaintext : Bytes) : DecryptCall → Prop
  | decrypt frame => Aes256Gcm.encrypt key frame.nonce plaintext = some frame.ciphertext
  | decryptInPlaceDetached nonce payload tag =>
      Aes256Gcm.encryptInPlaceDetached key nonce plaintext = some (payload, tag)

theorem opened_of_genuine {key : Octets 32} {plaintext : Bytes} {call : DecryptCall}
    (h : call.Genuine key plaintext) : call.opened key = some plaintext := by
  have hsealed {nonce : Octets 12} {r : Bytes × Octets 16}
      (hr : encryptInPlaceDetached key nonce plaintext = some r) :
      gcmOpen key nonce r.1 r.2 = some plaintext := by
    unfold encryptInPlaceDetached at hr
    split at hr
    · rename_i hfits
      rw [← Option.some.inj hr]
      exact gcmOpen_gcmSeal key nonce plaintext hfits
    · cases hr
  cases call with
  | decrypt frame =>
    obtain ⟨r, hr, hcipher⟩ := Option.map_eq_some_iff.mp h
    rw [opened, ← hcipher, decrypt_append]
    exact hsealed hr
  | decryptInPlaceDetached nonce payload tag => exact hsealed h

end DecryptCall

namespace SessionCipher

/-- The counter of the nonce is above the last accepted one, if there was one. -/
def Fresh (s : SessionCipher) (nonce : Octets 12) : Prop :=
  s.lastRecvCounter = noFrameReceived ∨ s.lastRecvCounter < nonceCounter nonce

instance (s : SessionCipher) (nonce : Octets 12) : Decidable (s.Fresh nonce) :=
  inferInstanceAs (Decidable (_ ∨ _))

theorem not_fresh_iff (s : SessionCipher) (nonce : Octets 12) :
    ¬ s.Fresh nonce ↔ s.lastRecvCounter ≠ noFrameReceived ∧
      nonceCounter nonce ≤ s.lastRecvCounter := by
  rw [Fresh, not_or, UInt64.not_lt]

end SessionCipher

variable [Aes256Gcm]

/-- Both entry points decide alike: a fresh frame that opens is accepted and moves the
replay state, any other frame is rejected and leaves the cipher as it was. -/
theorem DecryptCall.perform_eq (s : SessionCipher) (call : DecryptCall) :
    call.perform s =
      if s.Fresh call.nonce then
        match call.opened s.cipher with
        | some plaintext =>
          (some plaintext, { s with lastRecvCounter := SessionCipher.nonceCounter call.nonce })
        | none => (none, s)
      else (none, s) := by
  rcases Decidable.em (s.Fresh call.nonce) with hfresh | hstale
  · rw [if_pos hfresh]
    have hfresh := not_not.mpr hfresh
    rw [SessionCipher.not_fresh_iff] at hfresh
    cases call with
    | decrypt frame =>
      unfold perform SessionCipher.decrypt
      dsimp only [nonce, opened] at hfresh ⊢
      rw [if_neg hfresh]
      cases Aes256Gcm.decrypt s.cipher frame.nonce frame.ciphertext <;> rfl
    | decryptInPlaceDetached nonce payload tag =>
      unfold perform SessionCipher.decryptInPlaceDetached
      dsimp only [DecryptCall.nonce, opened, Aes256Gcm.decryptInPlaceDetached] at hfresh ⊢
      rw [if_neg hfresh]
      cases Aes256Gcm.gcmOpen s.cipher nonce payload tag <;> rfl
  · rw [if_neg hstale]
    rw [SessionCipher.not_fresh_iff] at hstale
    cases call with
    | decrypt frame =>
      unfold perform SessionCipher.decrypt
      dsimp only [nonce] at hstale ⊢
      rw [if_pos hstale]
      rfl
    | decryptInPlaceDetached nonce payload tag =>
      unfold perform SessionCipher.decryptInPlaceDetached
      dsimp only [DecryptCall.nonce] at hstale ⊢
      rw [if_pos hstale]
      rfl

/-! ## Runs -/

namespace SessionCipher

def receive (s : SessionCipher) (calls : List DecryptCall) : SessionCipher :=
  calls.foldl (fun s call => (call.perform s).2) s

/-- The nonces of the frames a sequence of calls accepts, in order. -/
def accepted (s : SessionCipher) : List DecryptCall → List (Octets 12)
  | [] => []
  | call :: calls =>
      match call.perform s with
      | (some _, s') => call.nonce :: accepted s' calls
      | (none, s') => accepted s' calls

variable (s : SessionCipher)

omit [Aes256Gcm] in
/-- Behind an accepted frame, fresh is above its counter. -/
theorem fresh_update_iff (nonce nonce' : Octets 12) :
    Fresh { s with lastRecvCounter := nonceCounter nonce } nonce' ↔
      nonceCounter nonce < nonceCounter nonce' :=
  or_iff_right (nonceCounter_ne_noFrameReceived nonce)

/-- A frame that is accepted was fresh, and its counter is what is remembered. -/
theorem accepted_cons (call : DecryptCall) (calls : List DecryptCall) :
    (∃ plaintext, s.Fresh call.nonce ∧ call.opened s.cipher = some plaintext ∧ call.perform s =
          (some plaintext, { s with lastRecvCounter := nonceCounter call.nonce }) ∧
        s.accepted (call :: calls) = call.nonce ::
          accepted { s with lastRecvCounter := nonceCounter call.nonce } calls) ∨
      ((s.Fresh call.nonce → call.opened s.cipher = none) ∧ call.perform s = (none, s) ∧
        s.accepted (call :: calls) = s.accepted calls) := by
  have hperform := call.perform_eq s
  rcases Decidable.em (s.Fresh call.nonce) with hfresh | hstale
  · rw [if_pos hfresh] at hperform
    cases hopened : call.opened s.cipher with
    | some plaintext =>
      rw [hopened] at hperform
      exact .inl ⟨plaintext, hfresh, rfl, hperform, by rw [accepted, hperform]⟩
    | none =>
      rw [hopened] at hperform
      exact .inr ⟨fun _ => rfl, hperform, by rw [accepted, hperform]⟩
  · rw [if_neg hstale] at hperform
    exact .inr ⟨fun hfresh => absurd hfresh hstale, hperform, by rw [accepted, hperform]⟩

/-- What the replay state remembers of a run: a nonce is fresh after it exactly if it
was fresh before and is above every accepted one. -/
theorem fresh_receive (calls : List DecryptCall) (nonce : Octets 12) :
    (s.receive calls).Fresh nonce ↔
      s.Fresh nonce ∧ ∀ n ∈ s.accepted calls, nonceCounter n < nonceCounter nonce := by
  induction calls generalizing s with
  | nil => simp [receive, accepted]
  | cons call calls ih =>
    have hstep : s.receive (call :: calls) = (call.perform s).2.receive calls := rfl
    rcases s.accepted_cons call calls with ⟨plaintext, hfresh, -, hperform, haccepted⟩ |
      ⟨-, hperform, haccepted⟩
    · rw [hstep, hperform, ih, haccepted, fresh_update_iff, List.forall_mem_cons]
      refine ⟨fun ⟨habove, hrest⟩ => ⟨?_, habove, hrest⟩, fun ⟨_, habove, hrest⟩ => ⟨habove, hrest⟩⟩
      -- the new nonce is above one that was fresh itself
      rcases hfresh with hnone | hlast
      · exact .inl hnone
      · exact .inr (UInt64.lt_trans hlast habove)
    · rw [hstep, hperform, ih, haccepted]

/-- The counters of accepted frames increase, and all are above what the cipher
remembered at the start. -/
theorem accepted_increasing (calls : List DecryptCall) :
    (∀ n ∈ s.accepted calls, s.Fresh n) ∧
      (s.accepted calls).Pairwise fun n n' => nonceCounter n < nonceCounter n' := by
  induction calls generalizing s with
  | nil => exact ⟨fun _ h => absurd h List.not_mem_nil, .nil⟩
  | cons call calls ih =>
    rcases s.accepted_cons call calls with ⟨plaintext, hfresh, -, -, haccepted⟩ | ⟨-, -, haccepted⟩
    · obtain ⟨habove, hpairwise⟩ := ih { s with lastRecvCounter := nonceCounter call.nonce }
      simp only [fresh_update_iff] at habove
      rw [haccepted]
      refine ⟨fun n hn => ?_, .cons habove hpairwise⟩
      rcases List.mem_cons.mp hn with rfl | hmem
      · exact hfresh
      · rcases hfresh with hnone | hlast
        · exact .inl hnone
        · exact .inr (UInt64.lt_trans hlast (habove n hmem))
    · rw [haccepted]
      exact ih s

theorem cipher_receive (calls : List DecryptCall) :
    (s.receive calls).cipher = s.cipher := by
  induction calls generalizing s with
  | nil => rfl
  | cons call calls ih =>
    have hstep : s.receive (call :: calls) = (call.perform s).2.receive calls := rfl
    rcases s.accepted_cons call calls with ⟨plaintext, -, -, hperform, -⟩ | ⟨-, hperform, -⟩ <;>
      rw [hstep, hperform, ih]

/-- One state, two entry points, one answer: a frame is the same to both. -/
theorem decrypt_eq_decryptInPlaceDetached (nonce : Octets 12) (payload : Bytes)
    (tag : Octets 16) :
    s.decrypt ⟨nonce, payload ++ tag.toList⟩ = s.decryptInPlaceDetached nonce payload tag := by
  unfold decrypt decryptInPlaceDetached
  rw [decrypt_append]
  rfl

/-- A ciphertext too short for a tag has no counterpart at the other entry point. -/
theorem perform_decrypt_of_short {frame : EncryptedFrame}
    (h : frame.ciphertext.length < 16) : (DecryptCall.decrypt frame).perform s = (none, s) := by
  have hopened : (DecryptCall.decrypt frame).opened s.cipher = none := by
    rw [DecryptCall.opened, Aes256Gcm.decrypt, dif_neg (Nat.not_le.mpr h)]
  rw [DecryptCall.perform_eq, hopened]
  exact ite_self _

theorem perform_of_genuine {s : SessionCipher} {call : DecryptCall} {plaintext : Bytes}
    (h : call.Genuine s.cipher plaintext) :
    (call.perform s).1 = if s.Fresh call.nonce then some plaintext else none := by
  rw [DecryptCall.perform_eq, DecryptCall.opened_of_genuine h]
  split <;> rfl

theorem perform_eq_self_of_rejected {s : SessionCipher} {call : DecryptCall}
    (h : (call.perform s).1 = none) : (call.perform s).2 = s := by
  rcases s.accepted_cons call [] with ⟨plaintext, -, -, hperform, -⟩ | ⟨-, hperform, -⟩
  · rw [hperform] at h
    cases h
  · rw [hperform]

/-- Tested over the nonces of the list, not over all nonces there are. -/
instance decidableAbove (nonces : List (Octets 12)) (nonce : Octets 12) :
    Decidable (∀ n ∈ nonces, nonceCounter n < nonceCounter nonce) :=
  List.decidableBAll _ nonces

/-- After any sequence of calls of the two entry points on a new cipher: the counters of
the accepted frames increase; a genuine frame is accepted, as its plaintext, exactly if
its counter is above all of them; a rejected frame changes nothing; and the two entry
points answer alike, on every frame that is long enough to hold a tag. -/
theorem new_receive_rejects_replays (key : Octets 32) (noncePrefix : Octets 8)
    (calls : List DecryptCall) :
    let accepted := (new key noncePrefix).accepted calls
    let s := (new key noncePrefix).receive calls
    (accepted.Pairwise fun n n' => nonceCounter n < nonceCounter n') ∧
      (∀ (call : DecryptCall) (plaintext : Bytes), call.Genuine key plaintext → (call.perform s).1 =
          if ∀ n ∈ accepted, nonceCounter n < nonceCounter call.nonce then some plaintext
          else none) ∧
      (∀ call : DecryptCall, (call.perform s).1 = none → (call.perform s).2 = s) ∧
      (∀ nonce payload tag,
        s.decrypt ⟨nonce, payload ++ tag.toList⟩ = s.decryptInPlaceDetached nonce payload tag) ∧
      ∀ frame, frame.ciphertext.length < 16 →
        (DecryptCall.decrypt frame).perform s = (none, s) := by
  refine ⟨(accepted_increasing _ calls).2, fun call plaintext hgenuine => ?_,
    fun call => perform_eq_self_of_rejected, decrypt_eq_decryptInPlaceDetached _,
    fun frame => perform_decrypt_of_short _⟩
  rw [perform_of_genuine (by rw [cipher_receive]; exact hgenuine)]
  have hfresh := fresh_receive (new key noncePrefix) calls call.nonce
  rw [and_iff_right (show (new key noncePrefix).Fresh call.nonce from .inl rfl)] at hfresh
  exact if_congr hfresh rfl rfl

end SessionCipher

end Crypto

end ProximityMesh
