import BoringTun.Classification
import BoringTun.Tunn.Commit

/-!
What one tunnel encapsulates, its peer delivers.

The layers each have their inverse: a frame is read back as the message in it
(`Framing`), the message is parsed into its fields, the session opens what the matching
one sealed, and the inner packet is cut to the length it declares, which takes the content
padding off. The readings of the frame as another kind come first; what is delivered is
the packet, if none of them authenticates.

* `encapsulateOnSession_frame`: what a write on a session puts on the wire;
* `reading_message`: what the peer reads;
* `validate_ipv4`, `validate_ipv6`: padding does not change what is delivered;
* `transport_roundtrip`: the whole way.
-/

namespace BoringTun

open AmneziaConfig

variable {P : Primitives}

/-! ### Inner packets -/

/-- An IPv4 packet whose header fits it and whose total length is its length. -/
structure IsIpv4 (packet : Bytes) : Prop where
  version : (packet.headD 0).toNat / 16 = 4
  header : IPV4_MIN_HEADER_SIZE ≤ (packet.headD 0).toNat % 16 * 4
  fits : (packet.headD 0).toNat % 16 * 4 ≤ packet.length
  total : beNat (slice packet 2 4) = packet.length

/-- An IPv6 packet whose payload length is its length without the header. -/
structure IsIpv6 (packet : Bytes) : Prop where
  version : (packet.headD 0).toNat / 16 = 6
  header : IPV6_MIN_HEADER_SIZE ≤ packet.length
  payload : beNat (slice packet 4 6) = packet.length - IPV6_MIN_HEADER_SIZE

/-- The source address field of an IPv4 packet. -/
def ipv4Source (packet : Bytes) : UInt32 := UInt32.ofNat (beNat (slice packet 12 16))

/-- The source address field of an IPv6 packet. -/
def ipv6Source (packet : Bytes) : BitVec 128 := BitVec.ofNat 128 (beNat (slice packet 8 24))

/-- A packet for the tunnel interface. -/
def TunnResult.toTunnel (packet : Bytes) : IpAddr → TunnResult
  | .v4 addr => .writeToTunnelV4 packet addr
  | .v6 addr => .writeToTunnelV6 packet addr

theorem headD_append {packet : Bytes} (hne : packet ≠ []) (pad : Bytes) :
    (packet ++ pad).headD 0 = packet.headD 0 := by
  cases packet with
  | nil => exact absurd rfl hne
  | cons b bs => rfl

namespace Tunn

variable (t : Tunn P)

/-- A packet that declares its own length is delivered without its padding. -/
theorem validate_padded {src pad : Bytes} (addr : IpAddr)
    (hkeepalive : isKeepalive (src ++ pad) = false)
    (hinner : innerPacket (src ++ pad) = some (src.length, addr)) :
    (t.validateDecapsulatedPacket (src ++ pad)).1 = .toTunnel src addr := by
  have hfits : ¬ src.length > (src ++ pad).length := by
    rw [List.length_append]
    exact Nat.not_lt.mpr (Nat.le_add_right _ _)
  unfold validateDecapsulatedPacket
  simp only [hkeepalive, Bool.false_eq_true, if_false, hinner, hfits, List.take_left]
  cases addr with
  | v4 addr => rfl
  | v6 addr => rfl

/-- The version of a packet is in its first byte, which is not that of a keepalive. -/
theorem isKeepalive_append {src : Bytes} (hne : src ≠ []) (hversion : (src.headD 0).toNat / 16 ≠ 0)
    (pad : Bytes) : isKeepalive (src ++ pad) = false := by
  rw [isKeepalive, headD_append hne, beq_eq_false_iff_ne]
  intro hzero
  rw [hzero] at hversion
  exact hversion rfl

theorem validate_ipv4 {src : Bytes} (h : IsIpv4 src) (pad : Bytes) :
    (t.validateDecapsulatedPacket (src ++ pad)).1 = .writeToTunnelV4 src (ipv4Source src) := by
  have hlong : IPV4_MIN_HEADER_SIZE ≤ src.length := Nat.le_trans h.header h.fits
  have hne : src ≠ [] := by
    rintro rfl
    exact absurd hlong (by decide)
  refine t.validate_padded (.v4 (ipv4Source src)) (isKeepalive_append hne ?_ pad) ?_
  · rw [h.version]
    decide
  · have hslice (lo hi : Nat) (hhi : hi ≤ 20) : slice (src ++ pad) lo hi = slice src lo hi :=
      slice_append_left _ _ (Nat.le_trans hhi hlong)
    have hpadded : IPV4_MIN_HEADER_SIZE ≤ (src ++ pad).length := by
      rw [List.length_append]
      exact Nat.le_add_right_of_le hlong
    unfold innerPacket
    dsimp only
    rw [headD_append hne, hslice 2 4 (by decide), hslice 12 16 (by decide), h.version, h.total,
      if_pos ⟨rfl, hpadded⟩, if_neg]
    · rfl
    · rintro (hsmall | hsmall)
      · exact Nat.not_lt.mpr h.header hsmall
      · exact Nat.not_lt.mpr h.fits hsmall

theorem validate_ipv6 {src : Bytes} (h : IsIpv6 src) (pad : Bytes) :
    (t.validateDecapsulatedPacket (src ++ pad)).1 = .writeToTunnelV6 src (ipv6Source src) := by
  have hne : src ≠ [] := by
    rintro rfl
    exact absurd h.header (by decide)
  refine t.validate_padded (.v6 (ipv6Source src)) (isKeepalive_append hne ?_ pad) ?_
  · rw [h.version]
    decide
  · have hslice (lo hi : Nat) (hhi : hi ≤ 40) : slice (src ++ pad) lo hi = slice src lo hi :=
      slice_append_left _ _ (Nat.le_trans hhi h.header)
    have hpadded : IPV6_MIN_HEADER_SIZE ≤ (src ++ pad).length := by
      rw [List.length_append]
      exact Nat.le_add_right_of_le h.header
    unfold innerPacket
    dsimp only
    rw [headD_append hne, hslice 4 6 (by decide), hslice 8 24 (by decide), h.version, h.payload,
      if_neg (fun hfour => absurd hfour.1 (by decide)), if_pos ⟨rfl, hpadded⟩,
      Nat.sub_add_cancel h.header]
    rfl

/-- Padding alone is a keepalive. -/
theorem validate_zeros (pad : Nat) :
    (t.validateDecapsulatedPacket (List.replicate pad 0)).1 = .done := by
  have hkeepalive : isKeepalive (List.replicate pad 0) = true := by
    cases pad with
    | zero => rfl
    | succ pad => rfl
  unfold validateDecapsulatedPacket
  rw [if_pos hkeepalive]

end Tunn

/-! ### What the peer reads -/

section

variable {cfg : AmneziaConfig} {obf : ObfuscationRanges} {wire : Bytes}

/-- The fields of a data message are read back. -/
theorem parsePacketData_dataMessage (tag : Nat) (receiverIdx : UInt32) {counter : Nat}
    (sealed : Bytes) (hcounter : counter < 256 ^ 8) :
    parsePacketData (Session.dataMessage tag receiverIdx counter sealed) =
      { receiverIdx := receiverIdx, counter := counter, encryptedEncapsulatedPacket := sealed } := by
  have hidx : slice (Session.dataMessage tag receiverIdx counter sealed) 4 8 =
      leBytes 4 receiverIdx.toNat := by
    simp only [Session.dataMessage, List.append_assoc]
    rw [slice_append_right _ _ (length_leBytes 4 tag)]
    exact List.take_left' (length_leBytes 4 _)
  have hctr : slice (Session.dataMessage tag receiverIdx counter sealed) 8 16 = leBytes 8 counter := by
    rw [Session.dataMessage, List.append_assoc, slice_append_right _ _ (by simp)]
    exact List.take_left' (length_leBytes 8 _)
  have hrest : (Session.dataMessage tag receiverIdx counter sealed).drop 16 = sealed :=
    List.drop_left' (by simp)
  simp only [parsePacketData, hidx, hctr, hrest, leU32_leBytes, leNat_leBytes hcounter]

/-- The transport reading of a frame stands after readings of other kinds. -/
theorem inboundCandidates_split {packet : Bytes} (hcanon : Canonical obf .transportData packet)
    (hframe : Frame P cfg .transportData packet wire) :
    ∃ before after, cfg.inboundCandidates P obf wire =
        before ++ cfg.readingOf .transportData packet wire :: after ∧
      ∀ other ∈ before, other.kind ≠ .transportData := by
  have hmem := readingOf_mem_inboundCandidates hcanon hframe
  obtain ⟨before, after, hsplit, hfirst⟩ := List.eq_append_cons_of_mem hmem
  refine ⟨before, after, hsplit, ?_⟩
  intro other hother hkind
  have hin : other ∈ cfg.inboundCandidates P obf wire := by
    rw [hsplit]
    exact List.mem_append_left _ hother
  rw [inboundCandidates_kind hmem hin hkind] at hother
  exact hfirst hother

/-- The transport reading of a frame is the message in it, parsed. -/
theorem reading_message {packet : Bytes} (hcanon : Canonical obf .transportData packet)
    (hframe : Frame P cfg .transportData packet wire) :
    Inbound.reading cfg obf wire (cfg.readingOf .transportData packet wire) =
      .ok (packet, (.packetData (parsePacketData packet) : Packet P)) := by
  simp only [Inbound.reading, candidateMessage_readingOf hcanon hframe,
    parseIncomingPacket_canonical hcanon, parseAs]

end

/-! ### Both ends -/

namespace Tunn

/-- What a write on the selected session puts on the wire. -/
theorem encapsulateOnSession_frame {t : Tunn P} {src dst wire : Bytes} {budget : OutputBudget}
    {session : Session P} (hselected : t.selected = some session)
    (hwrite : (t.encapsulateOnSession src dst budget).1 = .writeToNetwork wire) :
    session.sendingExhausted = false ∧ ∃ rng pad, Frame P t.amnezia .transportData
      (session.message t.handshake.obf rng src pad) wire := by
  unfold encapsulateOnSession at hwrite
  rw [hselected] at hwrite
  dsimp only at hwrite
  split at hwrite
  · cases hwrite
  · next ceiling hadmits =>
    rcases hdraw : t.drawContentPadding src.length ceiling with ⟨pad, t₁⟩
    have hpadded := t.drawContentPadding_padded hdraw
    rw [hdraw] at hwrite
    dsimp only at hwrite
    split at hwrite
    · cases hwrite
    · next hformat =>
      obtain ⟨-, hnonce, hout⟩ := Session.formatPacketData_eq_ok.mp hformat
      cases hout
      refine ⟨hnonce, t₁.handshake.rng, pad, ?_⟩
      rw [← hpadded.obf]
      refine writeToNetworkWith_frame ?_ ?_ (session.canonical_message _ _ _ _) hwrite
      · split
        · rfl
        · rfl
      · split
        · exact hpadded.amnezia
        · exact hpadded.amnezia

/-- What is opened on a session is checked and delivered. -/
theorem commit_data_result (t : Tunn P) (env : Env P) (receiverIdx : UInt32) (plaintext : Bytes)
    (session : Session P) (datagram : Bytes) (hint : Option AmneziaImitationProtocol) (dst : Bytes)
    (budget : OutputBudget) : ∃ t' : Tunn P,
      (t.commitWithImitationAndBudget env (.data receiverIdx plaintext session) datagram hint dst
        budget).1 = (t'.validateDecapsulatedPacket plaintext).1 := by
  unfold commitWithImitationAndBudget
  rw [if_neg (fun h => absurd h.2.1 (by simp [isHandshakeInit]))]
  dsimp only
  split
  · exact ⟨_, rfl⟩
  · split
    · exact ⟨_, rfl⟩
    · exact ⟨_, rfl⟩

/-- The session that receives what another sends, and has not seen its next counter. -/
structure Matches (receiver sender : Session P) : Prop where
  index : receiver.receivingIndex = sender.sendingIndex
  key : receiver.receiver = sender.sender
  fresh : receiver.receivingKeyCounter.Admits sender.sendingKeyCounter

/-- The readings of a datagram that are tried before the one as transport. -/
def readingsBeforeTransport (t : Tunn P) (datagram : Bytes) : List InboundCandidate :=
  (t.amnezia.inboundCandidates P t.handshake.obf datagram).takeWhile (·.kind != .transportData)

/-- A frame is no shorter than the message in it. -/
theorem length_frame {cfg : AmneziaConfig} {kind : PacketKind} {packet wire : Bytes}
    (h : Frame P cfg kind packet wire) : packet.length ≤ wire.length := by
  obtain ⟨pfx, suffix, -, -, -, rfl⟩ := h
  simp only [List.length_append, HeaderProtectionKey.length_masked]
  omega

section

variable {A B : Tunn P} {src dst wire dstB : Bytes} {budget budgetB : OutputBudget}
  {sender receiver : Session P}
  (hobf : B.handshake.obf = A.handshake.obf) (hcfg : B.amnezia = A.amnezia)
  (hselected : A.selected = some sender)
  (hstored : B.sessions (slotOf sender.sendingIndex.toNat) = some receiver)
  (hmatches : Matches receiver sender)
  (hwrite : (A.encapsulateOnSession src dst budget).1 = .writeToNetwork wire)
  (hroom : wire.length ≤ dstB.length)
  (hearlier : ∀ other ∈ B.readingsBeforeTransport wire,
    Inbound.NotAuthentic (B.authenticateWithBudget dstB budgetB) B.amnezia B.handshake.obf wire other)

include hobf hcfg hselected hstored hmatches hwrite hroom hearlier

/-- The peer accepts what was written, on the matching session. -/
theorem encapsulated_accepted (env : Env P) (source : Option Source) : ∃ pad marked,
    B.accepted env source wire dstB budgetB =
      some (.data sender.sendingIndex (src ++ List.replicate pad 0) marked) := by
  obtain ⟨hnonce, rng, pad, hframe⟩ := encapsulateOnSession_frame hselected hwrite
  rw [← hcfg, ← hobf] at hframe
  have hcanon := sender.canonical_message B.handshake.obf rng src pad
  obtain ⟨before, after, hsplit, hkinds⟩ := inboundCandidates_split hcanon hframe
  have hcounter : sender.sendingKeyCounter < 256 ^ 8 := by
    rw [Session.sendingExhausted, decide_eq_false_iff_not] at hnonce
    exact Nat.lt_trans (Nat.not_le.mp hnonce) (by decide)
  have hparsed := parsePacketData_dataMessage (B.handshake.obf.h4Data.random rng).1
    sender.sendingIndex (P.sealInPlace sender.sender sender.sendingKeyCounter
      (src ++ List.replicate pad 0)) hcounter
  have hfits : (P.sealInPlace sender.sender sender.sendingKeyCounter
      (src ++ List.replicate pad 0)).length ≤ dstB.length := by
    have hlength := length_frame hframe
    rw [Session.message, Session.length_dataMessage] at hlength
    omega
  have hopens : ∃ marked, receiver.receivePacketData
      (parsePacketData (sender.message B.handshake.obf rng src pad)) dstB =
        .ok (src ++ List.replicate pad 0, marked) := by
    rw [Session.message, hparsed]
    apply Session.receivePacketData_sealed
    · exact hmatches.index
    · exact hfits
    · exact hmatches.fresh
    · rw [hmatches.key]
  obtain ⟨marked, hopen⟩ := hopens
  have htrial : ∀ env', ∃ env'', B.authenticateWithBudget dstB budgetB env'
      (.packetData (parsePacketData (sender.message B.handshake.obf rng src pad))) =
      (.ok (.data sender.sendingIndex (src ++ List.replicate pad 0) marked), env'') := by
    intro env'
    have hidx : (parsePacketData (sender.message B.handshake.obf rng src pad)).receiverIdx =
        sender.sendingIndex := by
      rw [Session.message, hparsed]
    refine ⟨env', ?_⟩
    simp only [authenticateWithBudget, hidx, hstored, hopen]
  have hbefore : ∀ other ∈ before, Inbound.NotAuthentic (B.authenticateWithBudget dstB budgetB)
      B.amnezia B.handshake.obf wire other := by
    intro other hother
    apply hearlier
    rw [readingsBeforeTransport, hsplit, List.takeWhile_append_of_pos]
    · exact List.mem_append_left _ hother
    · intro each heach
      exact bne_iff_ne.mpr (hkinds each heach)
  have hreceive : ∃ limiter' env', B.receive env source wire dstB budgetB =
      (.accepted (.data sender.sendingIndex (src ++ List.replicate pad 0) marked), limiter',
        env') := by
    rw [receive, hsplit]
    exact Inbound.receiveFrom_eq_accepted hbefore (reading_message hcanon hframe) rfl htrial
  obtain ⟨limiter', env', hreceive⟩ := hreceive
  refine ⟨pad, marked, ?_⟩
  rw [accepted, hreceive]

/-- What the peer answers is what the inner packet, padded, is validated to. -/
theorem encapsulated_validated (env : Env P) (source : Option Source) : ∃ (pad : Nat) (t : Tunn P),
    (B.decapsulateSource env source wire dstB budgetB).1 =
      (t.validateDecapsulatedPacket (src ++ List.replicate pad 0)).1 := by
  obtain ⟨pad, marked, haccepted⟩ := encapsulated_accepted hobf hcfg hselected hstored hmatches
    hwrite hroom hearlier env source
  have hne : wire ≠ [] := by
    rintro rfl
    obtain ⟨-, rng, pad, hframe⟩ := encapsulateOnSession_frame hselected hwrite
    have hlength := length_frame hframe
    rw [Session.length_message] at hlength
    exact absurd hlength (by simp [DATA_OVERHEAD_SZ])
  obtain ⟨-, limiter, env', hint, -, hcommit⟩ := B.decapsulateSource_accepted env source wire dstB
    budgetB hne haccepted
  obtain ⟨t, hresult⟩ := commit_data_result { B with rateLimiter := limiter } env'
    sender.sendingIndex (src ++ List.replicate pad 0) marked wire hint dstB budgetB
  exact ⟨pad, t, by rw [hcommit, hresult]⟩

end

/-- A packet encapsulated at one end is delivered at the other, with its source address and
without its padding; an empty one is swallowed as a keepalive. -/
theorem transport_roundtrip {A B : Tunn P} {src dst wire dstB : Bytes}
    {budget budgetB : OutputBudget} {sender receiver : Session P} (envA envB : Env P)
    (source : Option Source) (hobf : B.handshake.obf = A.handshake.obf)
    (hcfg : B.amnezia = A.amnezia) (hcurrent : A.hasCurrentSession = true)
    (hselected : A.selected = some sender)
    (hstored : B.sessions (slotOf sender.sendingIndex.toNat) = some receiver)
    (hmatches : Matches receiver sender)
    (hwrite : (A.encapsulate envA src dst budget).1 = .writeToNetwork wire)
    (hroom : wire.length ≤ dstB.length)
    (hearlier : ∀ other ∈ B.readingsBeforeTransport wire, Inbound.NotAuthentic
      (B.authenticateWithBudget dstB budgetB) B.amnezia B.handshake.obf wire other) :
    (IsIpv4 src → (B.decapsulateSource envB source wire dstB budgetB).1 =
      .writeToTunnelV4 src (ipv4Source src)) ∧
    (IsIpv6 src → (B.decapsulateSource envB source wire dstB budgetB).1 =
      .writeToTunnelV6 src (ipv6Source src)) ∧
    (src = [] → (B.decapsulateSource envB source wire dstB budgetB).1 = .done) := by
  have honSession : (A.encapsulateOnSession src dst budget).1 = .writeToNetwork wire := by
    rw [encapsulate, if_pos hcurrent] at hwrite
    exact hwrite
  obtain ⟨pad, t, hresult⟩ := encapsulated_validated hobf hcfg hselected hstored hmatches
    honSession hroom hearlier envB source
  rw [hresult]
  refine ⟨?_, ?_, ?_⟩
  · intro hv4
    exact t.validate_ipv4 hv4 _
  · intro hv6
    exact t.validate_ipv6 hv6 _
  · rintro rfl
    exact t.validate_zeros pad

/-- Both ends after a handshake, and an empty IPv4 packet from 10.0.0.1. -/
def byteEnds : ByteHandshake := byteHandshake byteHome bytePeer 1 4

@[inherit_doc byteEnds]
def bytePacket : Bytes := [0x45, 0, 0, 20, 0, 0, 0, 0, 64, 17, 0, 0, 10, 0, 0, 1, 10, 0, 0, 2]

/-- The packet on the wire. -/
def byteWire : Bytes :=
  (byteEnds.peer.encapsulate (byteEnv 1 4) bytePacket byteBuffer .UNBOUNDED).1.datagram

/-- The session one end selected, and the other end's session its index names. -/
def byteSessions : Option (Session bytePrimitives × Session bytePrimitives) :=
  byteEnds.peer.selected.bind fun sender =>
    (byteEnds.home.sessions (slotOf sender.sendingIndex.toNat)).map (sender, ·)

theorem byteSessions_matches : ∃ sender receiver, byteEnds.peer.selected = some sender ∧
    byteEnds.home.sessions (slotOf sender.sendingIndex.toNat) = some receiver ∧
      Matches receiver sender := by
  have hcheck : (byteSessions.any fun (sender, receiver) =>
      receiver.receivingIndex == sender.sendingIndex && receiver.receiver == sender.sender &&
      decide (sender.sendingKeyCounter < Session.REJECT_AFTER_MESSAGES) &&
      decide (receiver.receivingKeyCounter.next ≤ sender.sendingKeyCounter)) = true := by
    decide +kernel
  cases hsome : byteSessions with
  | none =>
    rw [hsome] at hcheck
    cases hcheck
  | some pair =>
    obtain ⟨sender, receiver⟩ := pair
    rw [hsome] at hcheck
    simp only [Option.any_some, Bool.and_eq_true, beq_iff_eq, decide_eq_true_eq] at hcheck
    obtain ⟨⟨⟨hindex, hkey⟩, hlimit⟩, hnext⟩ := hcheck
    simp only [byteSessions, Option.bind_eq_some_iff, Option.map_eq_some_iff, Prod.mk.injEq] at hsome
    obtain ⟨selected, hselected, stored, hstored, rfl, rfl⟩ := hsome
    refine ⟨selected, stored, hselected, hstored, hindex, hkey, hlimit, ?_, ?_⟩
    · exact Nat.le_add_right_of_le hnext
    · intro hbelow
      exact absurd hnext (Nat.not_le.mpr hbelow)

theorem transport_roundtrip_byte : IsIpv4 bytePacket ∧
    (byteEnds.home.decapsulateSource (byteEnv 1 5) none byteWire byteBuffer .UNBOUNDED).1 =
      .writeToTunnelV4 bytePacket 0x0a000001 := by
  obtain ⟨sender, receiver, hselected, hstored, hmatches⟩ := byteSessions_matches
  have hearlier : byteEnds.home.readingsBeforeTransport byteWire = [] := by decide +kernel
  have hv4 : IsIpv4 bytePacket := by
    constructor
    · decide
    · decide
    · decide
    · decide
  have hwrite : (byteEnds.peer.encapsulate (byteEnv 1 4) bytePacket byteBuffer .UNBOUNDED).1 =
      .writeToNetwork byteWire := by
    decide +kernel
  have hroom : byteWire.length ≤ byteBuffer.length := by decide +kernel
  have hnone : ∀ other ∈ byteEnds.home.readingsBeforeTransport byteWire, Inbound.NotAuthentic
      (byteEnds.home.authenticateWithBudget byteBuffer .UNBOUNDED) byteEnds.home.amnezia
      byteEnds.home.handshake.obf byteWire other := by
    rw [hearlier]
    nofun
  have hroundtrip := transport_roundtrip (byteEnv 1 4) (byteEnv 1 5) none (by decide +kernel)
    (by decide +kernel) (by decide +kernel) hselected hstored hmatches hwrite hroom hnone
  exact ⟨hv4, hroundtrip.1 hv4⟩

end Tunn

end BoringTun
