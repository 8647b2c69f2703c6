/-
  Daemon/Advertising.lean --- whether a peer can read the advertisement made for it, and what
  its signature binds.

  Source: `generate_advertisement` of crates/pim-routing/src/table.rs,
  crates/pim-protocol/src/route_frame.rs, `run_route_advertisements` of
  crates/pim-daemon/src/data_plane.rs, crates/pim-routing/src/signing.rs.

  The generator writes an entry for the node itself and one for each route to another
  destination than the peer, and nothing bounds the number of routes.  The decoder
  refuses a frame of more than a thousand entries.
-/
import ProximityMesh.Daemon.State
import ProximityMesh.Routing.Invariant

set_option autoImplicit false

namespace ProximityMesh.Daemon

open Protocol Routing Crypto RouteUpdateFrame RoutingTable List

/-- An advertisement has an entry for the node itself and one for each route to another
destination than the peer. -/
theorem length_entries_generateAdvertisement {t t' : RoutingTable} {toPeer : NodeId}
    {frame : RouteUpdateFrame} (h : t.generateAdvertisement toPeer = some (t', frame)) :
    frame.entries.length = (t.routes.keys.filter (· ≠ toPeer)).length + 1 := by
  obtain ⟨_, -, -, -, -, hentries⟩ := generateAdvertisement_eq_some h
  have hdst : ((t.routes.iter.filterMap (advertiseEntry toPeer)).map
      RouteEntry.destination).length = ((t.routes.iter.map Prod.fst).filter (· ≠ toPeer)).length :=
    congrArg length (destinations_filterMap t.routes.iter)
  rw [HashMap.map_fst_iter, length_map] at hdst
  rw [hentries, length_cons, hdst]

section Signed

variable [Ed25519]

/-- Whatever the table, the signed advertisement for a peer comes back from its encoding
exactly if there are fewer than a thousand routes to other destinations. -/
theorem advertisement_decodes_iff {t t' : RoutingTable} {toPeer : NodeId}
    {frame : RouteUpdateFrame} (h : t.generateAdvertisement toPeer = some (t', frame))
    (signingKey : Octets 32) :
    RouteUpdateFrame.decode (signRouteUpdate signingKey frame).encode =
        .ok (signRouteUpdate signingKey frame) [] ↔
      (t.routes.keys.filter (· ≠ toPeer)).length < 1000 := by
  rw [decode_encode_iff]
  show frame.entries.length ≤ 1000 ↔ _
  rw [length_entries_generateAdvertisement h]
  exact Nat.succ_le_iff

end Signed

/-! ## A node with many neighbours -/

/-- After a number of peers have been added each of them has a route. -/
theorem exists_run_addPeers [Blake3] (ids : List NodeId) (t : RoutingTable) :
    ∃ t', t.run (ids.map (.addPeer 0)) = some t' ∧ t'.sequence = t.sequence ∧
      ∀ d, (t.routes.get d).isSome ∨ d ∈ ids → (t'.routes.get d).isSome := by
  induction ids generalizing t with
  | nil => exact ⟨t, rfl, rfl, fun d hd => hd.resolve_right not_mem_nil⟩
  | cons id ids ih =>
    obtain ⟨t', hrun, hseq, hlive⟩ := ih (t.addPeer 0 id)
    refine ⟨t', hrun, hseq, fun d hd => hlive d ?_⟩
    rcases Decidable.em (d = id) with rfl | hne
    · left
      rw [addPeer, get_insertRoute, if_pos rfl]
      rfl
    · rcases hd with hold | hmem
      · left
        rw [addPeer, get_insertRoute, if_neg hne]
        exact hold
      · exact .inr ((mem_cons.mp hmem).resolve_left hne)

/-- Node number `k`. -/
def nodeNumber (k : Nat) : NodeId := ⟨⟨beBytes 16 k, length_beBytes 16 k⟩⟩

theorem nodeNumber_inj {k k' : Nat} (hk : k < 256 ^ 16) (hk' : k' < 256 ^ 16)
    (h : nodeNumber k = nodeNumber k') : k = k' :=
  beBytes_inj hk hk' (congrArg (fun id => id.asBytes.toList) h)

/-- A thousand nodes other than node 0. -/
def crowd : List NodeId := (List.range' 1 1000).map nodeNumber

theorem nodup_crowd : crowd.Nodup := by
  refine List.Nodup.map_on (fun k hk k' hk' h => ?_) nodup_range'
  have hk := mem_range'_1.mp hk
  have hk' := mem_range'_1.mp hk'
  exact nodeNumber_inj (by omega) (by omega) h

theorem ne_of_mem_crowd {d : NodeId} (h : d ∈ crowd) : d ≠ nodeNumber 0 := by
  obtain ⟨k, hk, rfl⟩ := mem_map.mp h
  have hk := mem_range'_1.mp hk
  intro heq
  have hzero := nodeNumber_inj (by omega) (by omega) heq
  omega

/-- A node with 1001 neighbours has 1001 entries for each of them, which none can read. -/
theorem crowded_advertisement_unreadable :
    letI := transparentBlake3
    letI := transparentEd25519
    ∃ t t' frame, firstTable.run
        ((nodeNumber 0 :: crowd).map (.addPeer 0)) = some t ∧
      t.generateAdvertisement (nodeNumber 0) = some (t', frame) ∧
      RouteUpdateFrame.decode (signRouteUpdate (.zero 32) frame).encode ≠
        .ok (signRouteUpdate (.zero 32) frame) [] := by
  let _ := transparentBlake3
  let _ := transparentEd25519
  obtain ⟨t, hrun, hseq, hlive⟩ := exists_run_addPeers (nodeNumber 0 :: crowd)
    firstTable
  obtain ⟨t', frame, hgen⟩ : ∃ t' frame,
      t.generateAdvertisement (nodeNumber 0) = some (t', frame) := by
    unfold generateAdvertisement
    rw [hseq]
    exact ⟨_, _, rfl⟩
  refine ⟨t, t', frame, hrun, hgen, ?_⟩
  have hsub : crowd ⊆ t.routes.keys.filter (· ≠ nodeNumber 0) := by
    intro d hd
    refine mem_filter.mpr ⟨(HashMap.mem_keys _ _).mpr ?_, decide_eq_true (ne_of_mem_crowd hd)⟩
    exact hlive d (.inr (mem_cons_of_mem _ hd))
  have hcount : 1000 ≤ (t.routes.keys.filter (· ≠ nodeNumber 0)).length := by
    have hle := (subperm_of_subset nodup_crowd hsub).length_le
    rw [crowd, length_map, length_range'] at hle
    exact hle
  rw [Ne, decode_encode_iff]
  show ¬ frame.entries.length ≤ 1000
  rw [length_entries_generateAdvertisement hgen]
  exact Nat.not_le.mpr (Nat.lt_succ_of_le hcount)

/-- The advertisement of a node with two neighbours is read by either. -/
theorem small_advertisement_readable :
    letI := transparentBlake3
    letI := transparentEd25519
    ∃ t t' frame, firstTable.run
        [.addPeer 0 (nodeNumber 0), .addPeer 0 (nodeNumber 1)] = some t ∧
      t.generateAdvertisement (nodeNumber 0) = some (t', frame) ∧
      RouteUpdateFrame.decode (signRouteUpdate (.zero 32) frame).encode =
        .ok (signRouteUpdate (.zero 32) frame) [] := by
  let _ := transparentBlake3
  let _ := transparentEd25519
  have hfacts : (firstTable.run
      [.addPeer 0 (nodeNumber 0), .addPeer 0 (nodeNumber 1)]).map (fun t =>
      (t.routes.keys, (t.generateAdvertisement (nodeNumber 0)).isSome)) =
      some ([nodeNumber 1, nodeNumber 0], true) := by
    decide +kernel
  obtain ⟨t, hrun, hfacts⟩ := Option.map_eq_some_iff.mp hfacts
  obtain ⟨hkeys, hgen⟩ := Prod.mk.inj hfacts
  obtain ⟨⟨t', frame⟩, hgen⟩ := Option.isSome_iff_exists.mp hgen
  refine ⟨t, t', frame, hrun, hgen, (advertisement_decodes_iff hgen _).mpr ?_⟩
  rw [hkeys]
  decide +kernel

/-! ## What a signature binds -/

/-- What a node signs with its identity key. -/
structure Signer where
  updates : Set RouteUpdateFrame
  messages : Set HandshakeMessage

namespace Signer

def signed (n : Signer) : Set Bytes :=
  signingBytes '' n.updates ∪ HandshakeMessage.signedBytes '' n.messages

/-- Of the signatures that are shown, those that verify were made by the node. -/
def Unforgeable [Ed25519] (n : Signer) (pk : Octets 32) (shown : Set (Bytes × Octets 64)) : Prop :=
  ∀ p ∈ shown, Ed25519.verify pk p.1 p.2 = true → p.1 ∈ n.signed

end Signer

theorem length_signingBytes (frame : RouteUpdateFrame) :
    (signingBytes frame).length = 26 + frame.entries.length * 22 := by
  simp only [signingBytes, length_append, List.Vector.toList_length, length_beBytes,
    length_encodeEntries, entrySize]

/-- The length gives the number of entries, so the count, which is cut to 16 bits, is
not needed. -/
theorem signingBytes_inj {f g : RouteUpdateFrame} (h : signingBytes f = signingBytes g) :
    f.originId = g.originId ∧ f.sequence = g.sequence ∧ f.entries = g.entries := by
  have hlen : f.entries.length = g.entries.length := by
    have hlen := congrArg length h
    rw [length_signingBytes, length_signingBytes] at hlen
    omega
  obtain ⟨h, hentries⟩ := append_inj h (by simp)
  obtain ⟨h, -⟩ := append_inj h (by simp)
  obtain ⟨horigin, hsequence⟩ := append_inj h (by simp)
  refine ⟨?_, ?_, encodeEntries_inj hlen hentries⟩
  · exact congrArg NodeId.fromBytes (Octets.ext horigin)
  · exact UInt64.toNat_inj.mp (beBytes_inj f.sequence.toNat_lt g.sequence.toNat_lt hsequence)

/-- The frame is its signed bytes and its signature, the signed bytes determine the
content, and a frame that verifies under the key of a node has the content of a frame
this node signed: a handshake message is 64 bytes, which no route update is. -/
theorem signature_binds_content [Ed25519] (n : Signer) (pk : Octets 32)
    (shown : Set (Bytes × Octets 64)) (hunforgeable : n.Unforgeable pk shown) :
    (∀ f : RouteUpdateFrame, f.encode = signingBytes f ++ f.signature.toList) ∧
      (∀ f g, signingBytes f = signingBytes g →
        f.originId = g.originId ∧ f.sequence = g.sequence ∧ f.entries = g.entries) ∧
      ∀ buf frame rest, RouteUpdateFrame.decode buf = .ok frame rest →
        (signingBytes frame, frame.signature) ∈ shown → verifyRouteUpdate frame pk = true →
        ∃ g ∈ n.updates, frame.originId = g.originId ∧ frame.sequence = g.sequence ∧
          frame.entries = g.entries := by
  refine ⟨fun f => rfl, fun f g => signingBytes_inj, ?_⟩
  intro buf frame rest _ hshown hverify
  have hverified : Ed25519.verify pk (signingBytes frame) frame.signature = true := by
    unfold verifyRouteUpdate at hverify
    split at hverify
    · cases hverify
    · exact hverify
  rcases hunforgeable _ hshown hverified with ⟨g, hg, hbytes⟩ | ⟨m, -, hbytes⟩
  · exact ⟨g, hg, signingBytes_inj hbytes.symm⟩
  · have hlen := congrArg length hbytes
    rw [length_signingBytes] at hlen
    simp only [HandshakeMessage.signedBytes, length_append, List.Vector.toList_length] at hlen
    omega

section

open Transparent

theorem signature_binds_content_example :
    let frame := signRouteUpdate (.fill 32 1)
      ⟨⟨.zero 16⟩, 7, [⟨nodeOf 2, 1, 1, .fill 4 10⟩, ⟨nodeOf 3, 2, 0, .zero 4⟩], .zero 64⟩
    ∃ g ∈ ({frame} : Set RouteUpdateFrame), frame.originId = g.originId ∧
      frame.sequence = g.sequence ∧ frame.entries = g.entries := by
  intro frame
  refine (signature_binds_content ⟨{frame}, ∅⟩ (.fill 32 1)
    {(signingBytes frame, frame.signature)} ?_).2.2 frame.encode frame [] ?_ rfl ?_
  · rintro p rfl -
    exact .inl ⟨frame, rfl, rfl⟩
  · exact (decode_encode_iff frame).mpr (by decide)
  · decide +kernel

end

end ProximityMesh.Daemon
