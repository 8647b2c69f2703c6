/-
  Daemon/Passage.lean --- a packet between two daemons: split, encrypted, and put
  together again.

  Source: `send_mesh_data` and `reassemble_or_deliver` of
  crates/pim-daemon/src/data_plane.rs, the dispatch of a TUN packet and the delivery
  branch of crates/pim-daemon/src/app/event_loop.rs, `fragment_packet` of
  crates/pim-protocol/src/fragment_frame.rs, crates/pim-crypto/src/e2e.rs.

  A packet for the internet is encrypted to the key of the gateway, if that is known,
  which adds 60 bytes.  What is longer than a fragment is split, and the fragments
  carry the length of the whole in 16 bits.  A packet of up to 65535 bytes has its length
  there, but its encryption may not: `packet_survives_iff`.
-/
import ProximityMesh.Daemon.Identity
import ProximityMesh.Daemon.Outlet
import ProximityMesh.Protocol.Reassembly

set_option autoImplicit false

namespace ProximityMesh.Daemon

open Protocol Transport Crypto Routing ProximityMesh.Task HashMap E2e FragmentFrame Reassembler List

/-! ## The destination -/

section Destination

variable [X25519] [HkdfSha256] [Aes256Gcm]

/-- A complete packet in clear; a gateway decrypts what is encrypted to it. -/
def openPacket (config : Config) (flags : DataFlags) (packet : Bytes) : Option Bytes :=
  if config.isGateway && flags.contains .isE2e then
    match E2e.decryptInPlace config.signingKey packet with
    | .ok () packet => some packet
    | .error _ _ => none
  else some packet

/-- The packet that a mesh frame brings to its destination, when it is complete. -/
def receivePacket (mesh : MeshDataFrame) : DaemonM (Option Bytes) := do
  match ← reassembleOrDeliver mesh.srcId mesh.flags mesh.payload with
  | none => return none
  | some packet => return openPacket (← .read State.config) mesh.flags packet

/-- Delivery is receiving a packet and passing it on. -/
theorem exec_handleDelivery [Sha256] [Ed25519] (i : Input) (s : State) (mesh : MeshDataFrame) :
    exec i (handleDelivery mesh) s =
      exec i (do
        countForwarded mesh.payload.length
        match ← receivePacket mesh with
        | none => pure ()
        | some packet => deliverPacket mesh.srcId mesh.flags packet) s := by
  rw [handleDelivery, exec_bind, exec_bind]
  cases exec i (countForwarded mesh.payload.length) s with
  | mk s₁ counted =>
    cases counted with
    | none => rfl
    | some _ =>
      dsimp only
      rw [receivePacket, exec_bind, exec_bind, exec_bind]
      cases exec i (reassembleOrDeliver mesh.srcId mesh.flags mesh.payload) s₁ with
      | mk s₂ reassembled =>
        cases reassembled with
        | none => rfl
        | some packet =>
          cases packet with
          | none => rfl
          | some packet =>
            dsimp only
            rw [exec_bind, exec_bind]
            simp only [exec_read, openPacket]
            split
            · cases decryptInPlace s₂.config.signingKey packet with
              | ok _ packet | error _ _ => rfl
            · rfl

/-- The fragments that came from a node. -/
def State.reassembler (s : State) (srcId : NodeId) : Reassembler :=
  (s.reassemblers.get srcId).getD Reassembler.new

variable {mesh : MeshDataFrame} {config : Config} {dstId : NodeId} {flags : DataFlags}

theorem exec_receivePacket_whole (i : Input) (s : State)
    (h : mesh.flags.contains .isFragment = false) :
    exec i (receivePacket mesh) s = (s, some (openPacket s.config mesh.flags mesh.payload)) := by
  rw [receivePacket, reassembleOrDeliver, h]
  rfl

theorem exec_receivePacket_unreadable (i : Input) (s : State)
    (h : mesh.flags.contains .isFragment = true)
    (hfragment : deserialize mesh.payload = none) :
    exec i (receivePacket mesh) s = (s, some none) := by
  rw [receivePacket, reassembleOrDeliver, h, hfragment]
  rfl

theorem exec_receivePacket_fragment (i : Input) (s : State)
    (h : mesh.flags.contains .isFragment = true) {frag : FragmentFrame}
    (hfragment : deserialize mesh.payload = some frag) :
    exec i (receivePacket mesh) s =
      ({ s with
          reassemblers := s.reassemblers.insert mesh.srcId
            ((s.reassembler mesh.srcId).insert i.now frag).2 },
        some (((s.reassembler mesh.srcId).insert i.now frag).1.bind
          (openPacket s.config mesh.flags))) := by
  rw [receivePacket, reassembleOrDeliver, h, if_pos rfl, hfragment, exec_bind]
  simp only [exec_atomically, State.reassembler]
  cases ((s.reassemblers.get mesh.srcId).getD new).insert i.now frag |>.1 with
  | none | some packet => rfl

/-- What is put together and opened while frames from one node arrive at their
destination, and other things happen there that leave one fragment id of this node
alone. -/
inductive Receives (srcId : NodeId) (fragId : UInt32) :
    State → List MeshDataFrame → List Bytes → Prop
  | nil {s : State} : Receives srcId fragId s [] []
  | frame {s s' : State} {i : Input} {mesh : MeshDataFrame} {packet : Option Bytes}
      {meshes : List MeshDataFrame} {packets : List Bytes}
      (h : exec i (receivePacket mesh) s = (s', some packet))
      (hrest : Receives srcId fragId s' meshes packets) :
      Receives srcId fragId s (mesh :: meshes) (packet.toList ++ packets)
  | meanwhile {s s' : State} {meshes : List MeshDataFrame} {packets : List Bytes}
      (hconfig : s'.config = s.config)
      (hbuffer : (s'.reassembler srcId).buffers.get fragId =
        (s.reassembler srcId).buffers.get fragId)
      (hrest : Receives srcId fragId s' meshes packets) : Receives srcId fragId s meshes packets

variable {srcId : NodeId} {fragId : UInt32} {s : State} {packets : List Bytes}

theorem exec_receivePacket (i : Input) (s : State) (mesh : MeshDataFrame) :
    ∃ s' packet, exec i (receivePacket mesh) s = (s', some packet) ∧ s'.config = s.config := by
  cases hflag : mesh.flags.contains .isFragment with
  | false => exact ⟨s, _, exec_receivePacket_whole i s hflag, rfl⟩
  | true =>
    cases hfragment : deserialize mesh.payload with
    | none => exact ⟨s, _, exec_receivePacket_unreadable i s hflag hfragment, rfl⟩
    | some frag => exact ⟨_, _, exec_receivePacket_fragment i s hflag hfragment, rfl⟩

theorem exists_receives (i : Input) (meshes : List MeshDataFrame) :
    ∃ packets, Receives srcId fragId s meshes packets := by
  induction meshes generalizing s with
  | nil => exact ⟨[], .nil⟩
  | cons mesh meshes ih =>
    obtain ⟨s', packet, hexec, -⟩ := exec_receivePacket i s mesh
    obtain ⟨packets, hrest⟩ := ih
    exact ⟨_, .frame hexec hrest⟩

theorem Receives.packets_nil (h : Receives srcId fragId s [] packets) : packets = [] := by
  generalize hmeshes : [] = meshes at h
  induction h with
  | nil => rfl
  | frame _ _ _ => cases hmeshes
  | meanwhile _ _ _ ih => exact ih hmeshes

theorem Receives.whole {packet : Bytes} (hflag : mesh.flags.contains .isFragment = false)
    (hopen : openPacket config mesh.flags mesh.payload = some packet)
    (h : Receives srcId fragId s [mesh] packets) (hconfig : s.config = config) :
    packets = [packet] := by
  generalize hmeshes : [mesh] = meshes at h
  induction h with
  | nil => cases hmeshes
  | frame hexec hrest _ =>
    obtain ⟨rfl, rfl⟩ := cons.inj hmeshes
    rw [exec_receivePacket_whole _ _ hflag, hconfig, hopen] at hexec
    obtain rfl := Option.some.inj (Prod.mk.inj hexec).2
    rw [hrest.packets_nil]
    rfl
  | meanwhile hsame _ _ ih => exact ih (hsame.trans hconfig) hmeshes

def fragmentMesh (srcId dstId : NodeId) (flags : DataFlags) (frag : FragmentFrame) :
    MeshDataFrame :=
  { srcId, dstId, sessionId := 0, ttl := 8, flags := flags.union .isFragment
    payload := frag.serialize }

theorem exec_receivePacket_fragmentMesh (i : Input) (s : State)
    (hflag : (flags.union .isFragment).contains .isFragment = true) {frag : FragmentFrame}
    (hfits : frag.fragmentOffset.toNat + frag.payload.length ≤ frag.totalLength.toNat) :
    ∃ s', exec i (receivePacket (fragmentMesh srcId dstId flags frag)) s =
        (s', some (((s.reassembler srcId).insert i.now frag).1.bind
          (openPacket s.config (flags.union .isFragment)))) ∧
      s'.config = s.config ∧
      s'.reassembler srcId = ((s.reassembler srcId).insert i.now frag).2 := by
  refine ⟨_, exec_receivePacket_fragment i s hflag (deserialize_serialize hfits), rfl, ?_⟩
  show ((s.reassemblers.insert srcId _).get srcId).getD _ = _
  rw [get_insert_self]
  rfl

theorem Receives.fragments {payload packet : Bytes} (hlength : payload.length ≤ 65535)
    (hflag : (flags.union .isFragment).contains .isFragment = true)
    (hopen : openPacket config (flags.union .isFragment) payload = some packet)
    {meshes : List MeshDataFrame} (h : Receives srcId fragId s meshes packets)
    {frags : List FragmentFrame} (hmeshes : meshes = frags.map (fragmentMesh srcId dstId flags))
    (hsome : frags ≠ []) {kept : UInt32 → List FragmentFrame}
    (hfollows : Reassembler.Follows (empty.insert fragId payload) kept (s.reassembler srcId))
    (hperm : (kept fragId ++ frags).Perm (fragmentPacket payload fragId))
    (hconfig : s.config = config) : packets = [packet] := by
  have hget : (empty.insert fragId payload).get fragId = some payload :=
    get_insert_self ..
  have hparts : fragmentsOf (empty.insert fragId payload) fragId =
      fragmentPacket payload fragId := fragmentsOf_eq hget
  induction h generalizing frags kept with
  | nil => exact absurd (map_eq_nil_iff.mp hmeshes.symm) hsome
  | @frame s s' i mesh reassembled meshes packets hexec hrest ih =>
    cases frags with
    | nil => exact absurd rfl hsome
    | cons frag later =>
      obtain ⟨rfl, rfl⟩ := cons.inj hmeshes
      have hmem : frag ∈ fragmentPacket payload fragId := hperm.subset (by simp)
      obtain ⟨hid, htotal, -, hbounds, -⟩ := fragment_spec hlength hmem
      have hfits : frag.fragmentOffset.toNat + frag.payload.length ≤ frag.totalLength.toNat := by
        rw [htotal, UInt16.toNat_ofNat', Nat.mod_eq_of_lt (by omega)]
        exact hbounds
      subst hid
      have hcompletes := Collector.completes_iff_of_perm (hparts ▸ hperm)
        (hparts ▸ nodup_fragmentPacket hlength frag.fragmentId)
      obtain ⟨hout, hnext⟩ := hfollows.insert hlength i.now hget hmem
      obtain ⟨s₁, hexec', hsame, hreassembler⟩ :=
        @exec_receivePacket_fragmentMesh _ _ _ dstId flags srcId i s hflag frag hfits
      obtain ⟨rfl, hpacket⟩ := Prod.mk.inj (hexec.symm.trans hexec')
      cases hpacket
      rw [← hreassembler] at hnext
      rw [hout, hconfig]
      by_cases hlast : later = []
      · subst hlast
        rw [if_pos (hcompletes.mpr rfl), Option.bind_some, hopen, hrest.packets_nil]
        rfl
      · have hkept := Collector.next_of_not_completes (mt hcompletes.mp hlast)
        rw [if_neg (mt hcompletes.mp hlast)]
        refine ih rfl hlast hnext ?_ (hsame.trans hconfig)
        rw [hkept]
        exact perm_middle.symm.trans hperm
  | @meanwhile s s' meshes packets hsame hbuffer _ ih =>
    refine ih hmeshes hsome (fun id data hid => ?_) hperm (hsame.trans hconfig)
    have hbefore := hfollows id data hid
    rcases get_insert_cases hid with ⟨rfl, -⟩ | ⟨-, hnone⟩
    · rw [hbuffer]
      exact hbefore
    · cases hnone

/-- Nothing comes of the fragments of an encrypted packet whose total, cut to 16 bits, is
less than what the encryption adds. -/
theorem Receives.overlong {payload : Bytes}
    (htotal : payload.length % 65536 < headerSize + tagSize)
    (hflag : (flags.union .isFragment).contains .isFragment = true)
    (hgateway : config.isGateway = true)
    (hsealed : (flags.union .isFragment).contains .isE2e = true) {meshes : List MeshDataFrame}
    (h : Receives srcId fragId s meshes packets)
    (hmeshes : ∀ mesh ∈ meshes, ∃ frag ∈ fragmentPacket payload fragId,
      mesh = fragmentMesh srcId dstId flags frag) (hconfig : s.config = config) : packets = [] := by
  induction h with
  | nil => rfl
  | @frame s s' i mesh reassembled meshes packets hexec hrest ih =>
    obtain ⟨frag, hfrag, rfl⟩ := hmeshes mesh (mem_cons_self ..)
    obtain ⟨s₁, packet, hexec', hsame⟩ :=
      exec_receivePacket i s (fragmentMesh srcId dstId flags frag)
    obtain ⟨rfl, hpacket⟩ := Prod.mk.inj (hexec.symm.trans hexec')
    cases hpacket
    rw [ih (fun mesh hmem => hmeshes mesh (mem_cons_of_mem _ hmem)) (hsame.trans hconfig)]
    have hnone : reassembled = none := by
      cases hread : deserialize frag.serialize with
      | none =>
        rw [exec_receivePacket_unreadable i s hflag hread] at hexec
        exact (Option.some.inj (Prod.mk.inj hexec).2).symm
      | some frag' =>
        rw [exec_receivePacket_fragment i s hflag hread] at hexec
        rw [← Option.some.inj (Prod.mk.inj hexec).2, Option.bind_eq_none_iff]
        intro packet hpacket
        -- what comes out is shorter than the least encrypted packet
        have hlength := length_of_insert hpacket
        rw [eq_of_deserialize_serialize hread, totalLength_of_mem_fragmentLoop hfrag] at hlength
        rw [openPacket, hconfig, hgateway]
        show (if (flags.union .isFragment).contains .isE2e then _ else _) = none
        rw [if_pos hsealed, decryptInPlace_of_short _ (hlength.trans_lt htotal)]
    rw [hnone]
    rfl
  | meanwhile hsame _ _ ih => exact ih hmeshes (hsame.trans hconfig)

end Destination

/-! ## The sender -/

section Sealed

variable [X25519] [HkdfSha256] [Aes256Gcm]

/-- The packet is for the internet and the key of its gateway is known. -/
def Seals (gwPub : Option (Octets 32)) (flags : DataFlags) : Prop :=
  flags.contains .isInternet = true ∧ gwPub.isSome = true

variable {packet : Bytes} {flags : DataFlags}

theorem meshPayload_cases (i : Input) (gwPub : Option (Octets 32)) (flags : DataFlags)
    (hpacket : packet.length ≤ 65535) :
    (∃ pub sealed, Seals gwPub flags ∧ gwPub = some pub ∧
      encrypt packet pub (i.random 0) (i.randomOctets 1 12 (by decide)) = .ok sealed ∧
      meshPayload i gwPub flags packet = (flags.union .isE2e, sealed)) ∨
    (¬ Seals gwPub flags ∧ meshPayload i gwPub flags packet = (flags, packet)) := by
  have hfits : Aes256Gcm.Fits packet := by
    unfold Aes256Gcm.Fits Aes256Gcm.pMax
    omega
  unfold Seals meshPayload
  cases hflag : flags.contains .isInternet with
  | false => exact .inr ⟨fun h => Bool.false_ne_true h.1, rfl⟩
  | true =>
    cases gwPub with
    | none => exact .inr ⟨fun h => Bool.false_ne_true h.2, rfl⟩
    | some pub =>
      obtain ⟨sealed, hsealed⟩ :=
        exists_encrypt hfits pub (i.random 0) (i.randomOctets 1 12 (by decide))
      refine .inl ⟨pub, sealed, ⟨rfl, rfl⟩, rfl, hsealed, ?_⟩
      simp [hsealed]

/-- The frames in which a packet is sent. -/
def packetFrames (i : Input) (s : State) (gwPub : Option (Octets 32)) (srcId dstId : NodeId)
    (flags : DataFlags) (packet : Bytes) : List MeshDataFrame :=
  meshFrames srcId dstId 8 (meshPayload i gwPub flags packet).1
    (meshPayload i gwPub flags packet).2 (s.fragmentIdFor (meshPayload i gwPub flags packet).2)

/-- The node that a packet is for: it has the key of the encryption, and no fragments
under the id of the packet. -/
structure Expects (d : State) (gwPub : Option (Octets 32)) (flags : DataFlags) (srcId : NodeId)
    (fragId : UInt32) : Prop where
  key : Seals gwPub flags → d.config.isGateway = true ∧
    gwPub = some (E2e.x25519PublicFromSeed d.config.signingKey)
  unused : (d.reassembler srcId).buffers.get fragId = none

def packetFlags : List DataFlags := [.empty, .isInternet, DataFlags.isInternet.union .isE2e]

omit [X25519] [HkdfSha256] [Aes256Gcm] in
theorem packetFlags_spec : ∀ flags ∈ packetFlags,
    flags.contains .isFragment = false ∧ (flags.union .isFragment).contains .isFragment = true ∧
      (flags.union .isFragment).contains .isE2e = flags.contains .isE2e ∧
      DataFlags.fromBitsTruncate flags.bits = flags ∧
      DataFlags.fromBitsTruncate (flags.union .isFragment).bits = flags.union .isFragment := by
  decide

theorem mem_packetFlags (i : Input) (hflags : flags = .empty ∨ flags = .isInternet)
    (gwPub : Option (Octets 32)) (hpacket : packet.length ≤ 65535) :
    (meshPayload i gwPub flags packet).1 ∈ packetFlags := by
  rcases meshPayload_cases i gwPub flags hpacket with
    ⟨pub, sealed, hseals, -, -, hpayload⟩ | ⟨-, hpayload⟩
  · rw [hpayload]
    rcases hflags with rfl | rfl
    · exact absurd hseals.1 (by decide)
    · exact .tail _ (.tail _ (.head _))
  · rw [hpayload]
    rcases hflags with rfl | rfl
    · exact .head _
    · exact .tail _ (.head _)

theorem openPacket_union_isFragment (config : Config) (hflags : flags ∈ packetFlags)
    (packet : Bytes) :
    openPacket config (flags.union .isFragment) packet = openPacket config flags packet := by
  rw [openPacket, openPacket, (packetFlags_spec flags hflags).2.2.1]

theorem Receives.of_length_le {d : State} {srcId dstId : NodeId} {fragId : UInt32}
    {payload : Bytes} {arrivals : List MeshDataFrame} {packets : List Bytes}
    (hflags : flags ∈ packetFlags) (hlength : payload.length ≤ 65535)
    (hopen : openPacket d.config flags payload = some packet)
    (hunused : (d.reassembler srcId).buffers.get fragId = none)
    (hperm : arrivals.Perm (meshFrames srcId dstId 8 flags payload fragId))
    (h : Receives srcId fragId d arrivals packets) : packets = [packet] := by
  obtain ⟨hwhole, hfragment, -⟩ := packetFlags_spec flags hflags
  unfold meshFrames at hperm
  split at hperm
  · rename_i hlong
    obtain ⟨frags, rfl, hfrags⟩ :
        Relation.Comp (· = map (fragmentMesh srcId dstId flags) ·) List.Perm arrivals
          (fragmentPacket payload fragId) := by
      rw [eq_map_comp_perm]
      exact hperm
    have hsome : frags ≠ [] := by
      intro hnil
      have hpayload := flatten_fragmentPacket payload fragId
      rw [hnil] at hfrags
      rw [hfrags.nil_eq.symm] at hpayload
      rw [← hpayload] at hlong
      exact absurd hlong (Nat.not_lt_zero _)
    have hnothing : Reassembler.Follows (empty.insert fragId payload) (fun _ => [])
        (d.reassembler srcId) := by
      intro id data hid
      rcases get_insert_cases hid with ⟨rfl, -⟩ | ⟨-, hnone⟩
      · rw [hunused]
      · cases hnone
    exact h.fragments hlength hfragment
      ((openPacket_union_isFragment _ hflags payload).trans hopen) rfl hsome hnothing hfrags rfl
  · obtain rfl := perm_singleton.mp hperm
    exact h.whole hwhole hopen rfl

/-- Where there is room, the messages that go out are opened to the frames of the
packet. -/
theorem exec_sendMeshData_packetFrames (i : Input) {s : State} {o : Outlet} (hat : o.At s)
    (srcId dstId : NodeId) (hflags : flags = .empty ∨ flags = .isInternet)
    (gwPub : Option (Octets 32)) (hpacket : packet.length ≤ 65535)
    (hroom : o.Room (packetFrames i s gwPub srcId dstId flags packet).length) :
    ∃ (s' : State) (o' : Outlet) (wires : List Bytes),
      exec i (sendMeshData o.cell srcId dstId 8 (meshPayload i gwPub flags packet).1
        (meshPayload i gwPub flags packet).2) s = (s', some ()) ∧
      o'.At s' ∧ o'.conn = o.conn ∧ o'.connection.queue = o.connection.queue ++ wires ∧
      wires.map (openWire o.session.send.cipher) =
        (packetFrames i s gwPub srcId dstId flags packet).map some := by
  obtain ⟨-, -, -, hknown, hknown'⟩ :=
    packetFlags_spec _ (mem_packetFlags i hflags gwPub hpacket)
  obtain ⟨s', hexec, hat', -⟩ := Outlet.exec_sendMeshData i hat srcId dstId 8
    (meshPayload i gwPub flags packet).1 (meshPayload i gwPub flags packet).2
  obtain ⟨wires, handed, hqueue, hopen, -, hall⟩ :=
    Outlet.queue_foldl_push (packetFrames i s gwPub srcId dstId flags packet)
      (fun mesh hmesh => encodable_of_mem_meshFrames hknown hknown' hmesh) o
  rw [hall hroom] at hopen
  exact ⟨s', _, wires, hexec, hat', Outlet.conn_foldl_push _ o, hqueue, hopen⟩

theorem receives_packetFrames_iff (i : Input) {s d : State} {srcId dstId : NodeId}
    (hflags : flags = .empty ∨ flags = .isInternet) {gwPub : Option (Octets 32)}
    (hpacket : packet.length ≤ 65535)
    (hexpects : Expects d gwPub flags srcId (s.fragmentIdFor (meshPayload i gwPub flags packet).2))
    {arrivals : List MeshDataFrame}
    (hperm : arrivals.Perm (packetFrames i s gwPub srcId dstId flags packet)) :
    (∀ packets, Receives srcId (s.fragmentIdFor (meshPayload i gwPub flags packet).2) d
        arrivals packets → packets = [packet]) ↔
      (Seals gwPub flags → packet.length + (headerSize + tagSize) ≤ 65535) := by
  have hmem := mem_packetFlags i hflags gwPub hpacket
  unfold packetFrames at hperm
  rcases meshPayload_cases i gwPub flags hpacket with
    ⟨pub, sealed, hseals, rfl, hsealed, hpayload⟩ | ⟨hclear, hpayload⟩
  · rw [hpayload] at hexpects hperm hmem ⊢
    obtain ⟨hgateway, hkey⟩ := hexpects.key hseals
    cases hkey
    have hlength := length_encrypt hsealed
    have hflag : (flags.union .isE2e).contains .isE2e = true := by
      rcases hflags with rfl | rfl <;> decide
    by_cases hshort : sealed.length ≤ 65535
    · refine iff_of_true (fun packets h => ?_) (fun _ => by omega)
      refine h.of_length_le hmem hshort ?_ hexpects.unused hperm
      rw [openPacket, hgateway, hflag, decryptInPlace_encrypt hsealed]
      rfl
    · refine iff_of_false (fun hall => ?_) (fun hle => hshort (by have := hle hseals; omega))
      -- the frames arrive somehow, and nothing comes of them
      obtain ⟨packets, h⟩ := @exists_receives _ _ _ srcId (s.fragmentIdFor sealed) d i arrivals
      obtain ⟨-, hfragment, he2e, -⟩ := packetFlags_spec _ hmem
      have htotal : sealed.length % 65536 < headerSize + tagSize := by
        omega
      have hlong : sealed.length > fragmentThreshold := by
        unfold fragmentThreshold maxFragmentPayload
        omega
      have hfrags : ∀ mesh ∈ arrivals, ∃ frag ∈ fragmentPacket sealed (s.fragmentIdFor sealed),
          mesh = fragmentMesh srcId dstId (flags.union .isE2e) frag := by
        intro mesh hmesh
        have hframe := hperm.subset hmesh
        rw [meshFrames, if_pos hlong] at hframe
        obtain ⟨frag, hfrag, rfl⟩ := mem_map.mp hframe
        exact ⟨frag, hfrag, rfl⟩
      have hnone := h.overlong htotal hfragment hgateway (he2e.trans hflag) hfrags rfl
      rw [hall packets h] at hnone
      cases hnone
  · rw [hpayload] at hexpects hperm hmem ⊢
    refine iff_of_true (fun packets h => ?_) (fun hseals => absurd hseals hclear)
    have hflag : flags.contains .isE2e = false := by
      rcases hflags with rfl | rfl <;> decide
    refine h.of_length_le hmem hpacket ?_ hexpects.unused hperm
    rw [openPacket, hflag, Bool.and_false]
    rfl

/-- A packet of up to 65535 bytes is received as it was sent, whatever the order in which
its frames arrive, exactly if it is not encrypted or its encryption is not longer than
65535 bytes. -/
theorem packet_survives_iff (i : Input) {s : State} {o : Outlet} (hat : o.At s)
    (srcId dstId : NodeId) {flags : DataFlags} (hflags : flags = .empty ∨ flags = .isInternet)
    (gwPub : Option (Octets 32)) {packet : Bytes} (hpacket : packet.length ≤ 65535)
    (hroom : o.Room (packetFrames i s gwPub srcId dstId flags packet).length) :
    ∃ (s' : State) (o' : Outlet) (wires : List Bytes) (frames : List MeshDataFrame),
      exec i (sendMeshData o.cell srcId dstId 8 (meshPayload i gwPub flags packet).1
        (meshPayload i gwPub flags packet).2) s = (s', some ()) ∧
      o'.At s' ∧ o'.conn = o.conn ∧ o'.connection.queue = o.connection.queue ++ wires ∧
      wires.map (openWire o.session.send.cipher) = frames.map some ∧
      ∀ (d : State) (arrivals : List MeshDataFrame),
        Expects d gwPub flags srcId (s.fragmentIdFor (meshPayload i gwPub flags packet).2) →
        arrivals.Perm frames →
        ((∀ packets, Receives srcId (s.fragmentIdFor (meshPayload i gwPub flags packet).2) d
            arrivals packets → packets = [packet]) ↔
          (Seals gwPub flags → packet.length + (E2e.headerSize + E2e.tagSize) ≤ 65535)) := by
  obtain ⟨s', o', wires, hexec, hat', hconn, hqueue, hopen⟩ :=
    exec_sendMeshData_packetFrames i hat srcId dstId hflags gwPub hpacket hroom
  refine ⟨s', o', wires, _, hexec, hat', hconn, hqueue, hopen, ?_⟩
  intro d arrivals hexpects hperm
  exact receives_packetFrames_iff i hflags hpacket hexpects hperm

end Sealed

/-! ## Two concrete nodes -/

section Concrete

open Transparent

/-- A session with a gateway and a connection for it. -/
def gatewayOutlet : Outlet :=
  ⟨0, Session.new victorId (Octets.zero 32) true, 0, ⟨victorId, [], [], true, true⟩⟩

/-- A client of the gateway. -/
def client : State :=
  { openNode.state with
    transport :=
      { TcpTransport.new openNode.config.selfId with
        peers := HashMap.empty.insert victorId ⟨0, somewhere⟩
        conns := HashMap.empty.insert 0 gatewayOutlet.connection }
    sessions := HashMap.empty.insert victorId 0
    cells := HashMap.empty.insert 0 gatewayOutlet.session }

theorem gatewayOutlet_at : gatewayOutlet.At client where
  session := get_insert_self ..
  carrier := rfl
  connection := get_insert_self ..

def victorGateway : State :=
  { openNode.state with config :=
    { openNode.config with signingKey := .fill 32 2, isGateway := true } }

def gatewayPub : Octets 32 := E2e.x25519PublicFromSeed victorGateway.config.signingKey

theorem expects_victorGateway (srcId : NodeId) (fragId : UInt32) :
    Expects victorGateway (some gatewayPub) .isInternet srcId fragId where
  key _ := ⟨rfl, rfl⟩
  unused := rfl

/-- A packet for 8.8.8.8, with zeros for data. -/
def zeroPacket (count : Nat) : Bytes :=
  0x45 :: (List.replicate 15 0 ++ [8, 8, 8, 8] ++ List.replicate count 0)

theorem length_zeroPacket (count : Nat) : (zeroPacket count).length = count + 20 := by
  simp [zeroPacket]

theorem meshPayload_zeroPacket {count : Nat} (hcount : count ≤ 65515) :
    ∃ flags sealed, meshPayload calm (some gatewayPub) .isInternet (zeroPacket count) =
      (flags, sealed) ∧ sealed.length = headerSize + (count + 20) + tagSize := by
  have hpacket := length_zeroPacket count
  rcases meshPayload_cases calm (some gatewayPub) .isInternet (hpacket.trans_le (by omega)) with
    ⟨_, sealed, -, -, hsealed, hpayload⟩ | ⟨hclear, -⟩
  · exact ⟨_, sealed, hpayload, hpacket ▸ length_encrypt hsealed⟩
  · exact absurd ⟨rfl, rfl⟩ hclear

/-- A long packet is fragmented, under the first id. -/
theorem fragmentIdFor_client {count : Nat} (hlong : fragmentThreshold < count)
    (hcount : count ≤ 65515) : client.fragmentIdFor
      (meshPayload calm (some gatewayPub) .isInternet (zeroPacket count)).2 = 1 := by
  obtain ⟨flags, sealed, hpayload, hlength⟩ := meshPayload_zeroPacket hcount
  rw [hpayload]
  exact if_pos (show fragmentThreshold < sealed.length by omega)

/-- The frames that the client sends for such a packet. -/
def zeroFrames (count : Nat) : List MeshDataFrame :=
  packetFrames calm client (some gatewayPub) openNode.config.selfId victorId .isInternet
    (zeroPacket count)

theorem room_zeroFrames {count : Nat} (hlong : fragmentThreshold < count) (hcount : count ≤ 65515) :
    gatewayOutlet.Room (zeroFrames count).length := by
  have hle : (zeroFrames count).length ≤ 55 := by
    unfold zeroFrames packetFrames
    obtain ⟨flags, sealed, hpayload, hlength⟩ := meshPayload_zeroPacket hcount
    rw [hpayload, meshFrames, if_pos (show sealed.length > _ by omega), length_map, fragmentPacket]
    have hfrags := length_fragmentLoop_lt sealed (client.fragmentIdFor sealed) sealed.length 0
    generalize (fragmentLoop sealed _ sealed.length 0).length = frames at hfrags
    unfold maxFragmentPayload at hfrags
    unfold headerSize tagSize at hlength
    omega
  generalize (zeroFrames count).length = frames at hle
  refine ⟨rfl, ?_, ?_⟩
  · show 0 + frames ≤ 64
    omega
  · show 0 + frames ≤ 4294967294
    omega

/-- The longest packet whose encryption has its length in 16 bits. -/
theorem packet_survives_sealed :
    (zeroPacket 65455).length = 65475 ∧ Seals (some gatewayPub) .isInternet ∧
    ∃ frames, ∀ arrivals : List MeshDataFrame, arrivals.Perm frames →
      ∀ packets, Receives openNode.config.selfId 1 victorGateway arrivals packets →
        packets = [zeroPacket 65455] := by
  have hlength : (zeroPacket 65455).length = 65475 := length_zeroPacket _
  obtain ⟨s', o', wires, frames, -, -, -, -, -, hreceived⟩ :=
    packet_survives_iff calm gatewayOutlet_at openNode.config.selfId victorId (.inr rfl)
      (some gatewayPub) (hlength.trans_le (by decide))
      (room_zeroFrames (by decide) (by decide))
  refine ⟨hlength, ⟨rfl, rfl⟩, frames, fun arrivals hperm => ?_⟩
  rw [fragmentIdFor_client (by decide) (by decide)] at hreceived
  refine (hreceived victorGateway arrivals (expects_victorGateway _ _) hperm).mpr fun _ => ?_
  rw [hlength]
  decide

/-- The client sends a packet that is one byte longer, of 65476 bytes, encrypted to the
gateway, and all its fragments come out of the messages of the session; but in whichever
order they arrive, the gateway gets no such packet from them. -/
theorem sealed_packet_lost :
    (zeroPacket 65456).length = 65476 ∧
    ∃ (s' : State) (o' : Outlet) (wires : List Bytes),
      exec calm (sendMeshData gatewayOutlet.cell openNode.config.selfId victorId 8
        (meshPayload calm (some gatewayPub) .isInternet (zeroPacket 65456)).1
        (meshPayload calm (some gatewayPub) .isInternet (zeroPacket 65456)).2) client =
          (s', some ()) ∧
      o'.At s' ∧ o'.connection.queue = wires ∧
      wires.map (openWire gatewayOutlet.session.send.cipher) = (zeroFrames 65456).map some ∧
      ∀ arrivals : List MeshDataFrame, arrivals.Perm (zeroFrames 65456) →
        ∃ packets, Receives openNode.config.selfId 1 victorGateway arrivals packets ∧
          packets ≠ [zeroPacket 65456] := by
  have hlength : (zeroPacket 65456).length = 65476 := length_zeroPacket _
  obtain ⟨s', o', wires, hexec, hat', -, hqueue, hopen⟩ :=
    exec_sendMeshData_packetFrames calm gatewayOutlet_at openNode.config.selfId victorId (.inr rfl)
      (some gatewayPub) (hlength.trans_le (by decide))
      (room_zeroFrames (by decide) (by decide))
  refine ⟨hlength, s', o', wires, hexec, hat', hqueue, hopen, fun arrivals hperm => ?_⟩
  have hiff := receives_packetFrames_iff calm (.inr rfl) (hlength.trans_le (by decide))
    (expects_victorGateway _ _) hperm
  rw [fragmentIdFor_client (by decide) (by decide)] at hiff
  by_contra hall
  have hshort := hiff.mp (fun packets h => by_contra fun hne => hall ⟨packets, h, hne⟩) ⟨rfl, rfl⟩
  rw [hlength] at hshort
  exact absurd hshort (by decide)

end Concrete

end ProximityMesh.Daemon
