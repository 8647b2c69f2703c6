/-
  Messaging/History.lean --- paging through a conversation.

  Source: `history` of crates/pim-messaging/src/storage.rs and `method_messages_history` of
  crates/pim-daemon/src/rpc.rs.

  A page ends after a number of messages, and the next one begins below the timestamp of
  the last message, so messages that share that timestamp and come after it are on no page.
-/
import Mathlib.Data.List.Sort
import ProximityMesh.Messaging.Storage

set_option autoImplicit false

namespace ProximityMesh.Messaging

open List

/-! ## The code -/

namespace MessagingStorage

variable (st : MessagingStorage)

/-- The messages of a conversation. -/
def rowsOf (peer : NodeId) : List MessageRecord :=
  (st.messages.iter.map Prod.snd).filter fun m => m.peerNodeId = peer

/-- `ORDER BY timestamp_ms DESC, id DESC`; the hex string of an id orders like its bytes. -/
def NewestFirst (m m' : MessageRecord) : Prop :=
  m'.timestampMs < m.timestampMs ∨
    m'.timestampMs = m.timestampMs ∧ beNat m'.id.toList ≤ beNat m.id.toList

instance : DecidableRel NewestFirst := fun _ _ => inferInstanceAs (Decidable (_ ∨ _))

def conversation (peer : NodeId) : List MessageRecord := (st.rowsOf peer).insertionSort NewestFirst

/-- A page, newest first, and whether there are more messages.  An `i64` limit saturates, and
as a `usize` a negative one is larger than any length. -/
def history (peer : NodeId) (beforeTsMs : Option Int) (limit : Int) : List MessageRecord × Bool :=
  let limitPlus := max (min (limit + 1) (2 ^ 63 - 1)) 2
  let out := ((st.conversation peer).filter fun m => beforeTsMs.all (m.timestampMs < ·)).take
    limitPlus.toNat
  let hasMore := decide (limit < out.length)
  (if hasMore ∧ 0 ≤ limit then out.take limit.toNat else out, hasMore)

/-- `messages.history`. -/
def methodMessagesHistory (peer : NodeId) (beforeTsMs limit : Option Int) :
    List MessageRecord × Bool :=
  st.history peer beforeTsMs (max 1 (min (limit.getD 100) 500))

/-- What a client reads that asks for what is older than the last message it has, until a page
is empty; `none` if it has not come to an end. -/
def readAll (peer : NodeId) (limit : Int) : Nat → Option Int → Option (List MessageRecord)
  | 0, _ => none
  | fuel + 1, before =>
      let page := (st.methodMessagesHistory peer before (some limit)).1
      match page.getLast? with
      | none => some []
      | some oldest => (readAll peer limit fuel (some oldest.timestampMs)).map (page ++ ·)

end MessagingStorage

/-! ## Pages of a sorted list -/

section Pages

variable {α : Type} (key : α → Int) (size : Nat)

/-- What is read page by page if the next page begins below the key of the last one. -/
def paged : Nat → List α → Option (List α)
  | 0, _ => none
  | fuel + 1, l =>
      match (l.take size).getLast? with
      | none => some []
      | some oldest => (paged fuel (l.filter fun a => key a < key oldest)).map (l.take size ++ ·)

/-- No page ends between two entries with the same key. -/
def NoTie (l : List α) : Prop :=
  ∀ k a b, l[(k + 1) * size - 1]? = some a → l[(k + 1) * size]? = some b → key b ≠ key a

variable {key size}

theorem noTie_iff (hsize : 0 < size) (l : List α) :
    NoTie key size l ↔ (∀ a b, l[size - 1]? = some a → l[size]? = some b → key b ≠ key a) ∧
      NoTie key size (l.drop size) := by
  have hlast (k : Nat) : (l.drop size)[(k + 1) * size - 1]? = l[(k + 1 + 1) * size - 1]? := by
    have hle : size ≤ (k + 1) * size := Nat.le_mul_of_pos_left size (Nat.succ_pos k)
    rw [getElem?_drop, Nat.succ_mul (k + 1)]
    congr 1
    omega
  have hnext (k : Nat) : (l.drop size)[(k + 1) * size]? = l[(k + 1 + 1) * size]? := by
    rw [getElem?_drop, Nat.succ_mul (k + 1), Nat.add_comm]
  constructor
  · intro h
    refine ⟨fun a b ha hb => h 0 a b (by simpa using ha) (by simpa using hb), fun k a b ha hb => ?_⟩
    exact h (k + 1) a b ((hlast k).symm.trans ha) ((hnext k).symm.trans hb)
  · rintro ⟨hfirst, hrest⟩ k a b ha hb
    cases k with
    | zero => exact hfirst a b (by simpa using ha) (by simpa using hb)
    | succ k => exact hrest k a b ((hlast k).trans ha) ((hnext k).trans hb)

/-- Every entry is read once exactly if no page ends between two entries with the same key. -/
theorem paged_perm_iff (hsize : 0 < size) (n : Nat) {l : List α} (hlen : l.length ≤ n)
    (hsorted : l.Pairwise fun a b => key b ≤ key a) :
    ∃ out, (∀ fuel, n < fuel → paged key size fuel l = some out) ∧ out.length ≤ l.length ∧
      (out.Perm l ↔ NoTie key size l) := by
  induction n generalizing l with
  | zero =>
    obtain rfl := length_eq_zero_iff.mp (Nat.le_zero.mp hlen)
    refine ⟨[], fun fuel hfuel => ?_, le_refl _, iff_of_true (.refl _) nofun⟩
    obtain ⟨fuel, rfl⟩ := Nat.exists_eq_add_of_lt hfuel
    simp [paged]
  | succ n ih =>
    rcases (l.take size).eq_nil_or_concat' with hnil | ⟨page, oldest, hpage⟩
    · obtain rfl := (take_eq_nil_iff.mp hnil).resolve_left hsize.ne'
      refine ⟨[], fun fuel hfuel => ?_, le_refl _, iff_of_true (.refl _) nofun⟩
      obtain ⟨fuel, rfl⟩ := Nat.exists_eq_add_of_lt hfuel
      simp [paged]
    have hl : page ++ oldest :: l.drop size = l := by
      rw [← singleton_append, ← append_assoc, ← hpage, take_append_drop]
    obtain ⟨-, hrest, hnewer⟩ := pairwise_append.mp (hl ▸ hsorted)
    obtain ⟨holder, hrest⟩ := pairwise_cons.mp hrest
    -- what the next page begins with
    have hbelow : l.filter (fun a => key a < key oldest) =
        (l.drop size).filter fun a => key a < key oldest := by
      nth_rewrite 1 [← hl]
      rw [filter_append, filter_cons_of_neg (by simp), filter_eq_nil_iff.mpr, nil_append]
      exact fun a ha => by simpa using hnewer a ha oldest mem_cons_self
    have hdrop : (l.drop size).length ≤ n := by
      have := congrArg length hl
      rw [length_append, length_cons] at this
      omega
    obtain ⟨out, hout, hshort, hperm⟩ := ih ((length_filter_le ..).trans hdrop)
      (hrest.filter fun a => key a < key oldest)
    refine ⟨l.take size ++ out, fun fuel hfuel => ?_, ?_, ?_⟩
    · obtain ⟨fuel, rfl⟩ := Nat.exists_eq_add_of_lt hfuel
      rw [paged, hpage, getLast?_concat]
      dsimp only
      rw [hbelow, hout _ (by omega), Option.map_some]
    · rw [length_append]
      have := hshort.trans (length_filter_le ..)
      have := congrArg length (take_append_drop size l)
      rw [length_append] at this
      omega
    nth_rewrite 2 [← take_append_drop size l]
    rw [perm_append_left_iff, noTie_iff hsize]
    have hhead : l[size]? = (l.drop size).head? := by rw [head?_drop]
    have hlast : l.drop size ≠ [] → l[size - 1]? = some oldest := by
      intro hne
      have hlong : size < l.length := by simpa using hne
      have hpos : page.length = size - 1 := by
        have := congrArg length hpage
        rw [length_take, length_append, length_singleton] at this
        omega
      rw [← hl, ← hpos, getElem?_append_right (le_refl _), Nat.sub_self, getElem?_cons_zero]
    by_cases htie : ∃ b ∈ l.drop size, key b = key oldest
    · obtain ⟨b, hb, hkey⟩ := htie
      refine iff_of_false (fun hall => ?_) fun hnone => ?_
      · have hlt : ((l.drop size).filter fun a => key a < key oldest).length <
            (l.drop size).length :=
          length_filter_lt_length_iff_exists.mpr ⟨b, hb, by simp [hkey]⟩
        have := hall.length_eq
        omega
      · obtain ⟨first, rest, hfirst⟩ := exists_cons_of_ne_nil (ne_nil_of_mem hb)
        rw [hfirst] at hhead hlast hb hrest holder
        refine hnone.1 oldest first (hlast (cons_ne_nil _ _)) hhead ?_
        refine le_antisymm (holder first mem_cons_self) (hkey ▸ ?_)
        rcases mem_cons.mp hb with rfl | hmem
        · exact le_refl _
        · exact (pairwise_cons.mp hrest).1 b hmem
    · have hsame : (l.drop size).filter (fun a => key a < key oldest) = l.drop size :=
        filter_eq_self.mpr fun b hb => decide_eq_true
          (lt_of_le_of_ne (holder b hb) fun hkey => htie ⟨b, hb, hkey⟩)
      rw [hsame] at hperm
      rw [hperm, iff_and_self]
      intro _ a b ha hb hkey
      rw [hhead] at hb
      have hmem := mem_of_head? hb
      rw [hlast (ne_nil_of_mem hmem)] at ha
      exact htie ⟨b, hmem, Option.some.inj ha ▸ hkey⟩

end Pages

/-! ## The pages of a conversation -/

namespace MessagingStorage

variable (st : MessagingStorage) (peer : NodeId) {limit : Int}

theorem pairwise_conversation :
    (st.conversation peer).Pairwise fun m m' => m'.timestampMs ≤ m.timestampMs := by
  have : Std.Total NewestFirst := ⟨fun a b => by simp only [NewestFirst]; omega⟩
  have : IsTrans MessageRecord NewestFirst := ⟨fun a b c => by simp only [NewestFirst]; omega⟩
  refine (pairwise_insertionSort NewestFirst _).imp fun hle => ?_
  simp only [NewestFirst] at hle
  omega

theorem methodMessagesHistory_fst (h1 : 1 ≤ limit) (h500 : limit ≤ 500) (before : Option Int) :
    (st.methodMessagesHistory peer before (some limit)).1 =
      ((st.conversation peer).filter fun m => before.all (m.timestampMs < ·)).take limit.toNat := by
  have hclamp : max 1 (min limit 500) = limit := by omega
  have hplus : (max (min (limit + 1) (2 ^ 63 - 1)) 2).toNat = limit.toNat + 1 := by omega
  simp only [methodMessagesHistory, Option.getD_some, hclamp, history, hplus]
  split
  · rw [take_take, Nat.min_eq_left (Nat.le_succ _)]
  · rename_i hshort
    simp only [decide_eq_true_iff, length_take] at hshort
    rw [take_of_length_le (by omega), take_of_length_le (by omega)]

theorem readAll_eq_paged (h1 : 1 ≤ limit) (h500 : limit ≤ 500) (fuel : Nat) (before : Option Int) :
    st.readAll peer limit fuel before = paged MessageRecord.timestampMs limit.toNat fuel
      ((st.conversation peer).filter fun m => before.all (m.timestampMs < ·)) := by
  induction fuel generalizing before with
  | zero => rfl
  | succ fuel ih =>
    simp only [readAll, paged, methodMessagesHistory_fst st peer h1 h500, ih, filter_filter]
    cases hlast : (((st.conversation peer).filter fun m =>
        before.all (m.timestampMs < ·)).take limit.toNat).getLast? with
    | none => rfl
    | some oldest =>
      have hmem := mem_of_mem_take (mem_of_getLast? hlast)
      have hbefore := (mem_filter.mp hmem).2
      dsimp only
      congr 2
      refine filter_congr fun m _ => ?_
      cases before with
      | none => simp
      | some ts =>
        simp at hbefore ⊢
        omega

/-- Paging returns every message of a conversation exactly once if and only if no page ends
between two messages with the same timestamp. -/
theorem readAll_complete_iff (h1 : 1 ≤ limit) (h500 : limit ≤ 500) :
    ∃ out, (∀ fuel, (st.rowsOf peer).length < fuel → st.readAll peer limit fuel none = some out) ∧
      (out.Perm (st.rowsOf peer) ↔
        NoTie MessageRecord.timestampMs limit.toNat (st.conversation peer)) := by
  have hperm : (st.conversation peer).Perm (st.rowsOf peer) := perm_insertionSort ..
  obtain ⟨out, hout, -, hiff⟩ := paged_perm_iff (by omega : 0 < limit.toNat) _ hperm.length_eq.le
    (st.pairwise_conversation peer)
  refine ⟨out, fun fuel hfuel => ?_, ?_⟩
  · rw [readAll_eq_paged st peer h1 h500, ← hout fuel hfuel]
    simp
  · rw [← hiff]
    exact ⟨fun h => h.trans hperm.symm, fun h => h.trans hperm⟩

/-! ## Two messages -/

/-- A conversation of two messages. -/
def twoMessages (ts ts' : Int) : MessagingStorage :=
  let message (id : UInt8) (ts : Int) : MessageRecord :=
    ⟨⟨List.replicate 16 id, rfl⟩, ⟨.zero 16⟩, .received, "", ts, .delivered, none, none, none⟩
  (empty.insertMessage (message 1 ts)).insertMessage (message 2 ts')

theorem readAll_complete_iff_twoMessages :
    ∃ out, (twoMessages 1 2).readAll ⟨.zero 16⟩ 1 3 none = some out ∧
      out.Perm ((twoMessages 1 2).rowsOf ⟨.zero 16⟩) := by
  obtain ⟨out, hout, hiff⟩ := readAll_complete_iff (twoMessages 1 2) ⟨.zero 16⟩
    (by decide : 1 ≤ (1 : Int)) (by decide)
  refine ⟨out, hout 3 (by decide +kernel), hiff.mpr ?_⟩
  intro k a b ha hb
  have hlen : ((twoMessages 1 2).conversation ⟨.zero 16⟩).length = 2 := by decide +kernel
  obtain rfl : k = 0 := by
    have := (List.getElem?_eq_some_iff.mp hb).1
    simp only [Int.toNat_one] at this
    omega
  have hkeys : ((twoMessages 1 2).conversation ⟨.zero 16⟩)[1]?.map MessageRecord.timestampMs ≠
      ((twoMessages 1 2).conversation ⟨.zero 16⟩)[0]?.map MessageRecord.timestampMs := by
    decide +kernel
  change _[0]? = some a at ha
  change _[1]? = some b at hb
  rw [ha, hb] at hkeys
  exact fun heq => hkeys (congrArg some heq)

/-- Of two messages with one timestamp, pages of one message show one. -/
theorem readAll_misses_message :
    ((twoMessages 1 1).readAll ⟨.zero 16⟩ 1 3 none).map List.length = some 1 ∧
      ((twoMessages 1 1).rowsOf ⟨.zero 16⟩).length = 2 := by
  decide +kernel

end MessagingStorage

end ProximityMesh.Messaging
