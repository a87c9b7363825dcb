import BoringTun.Handshake.KeySchedule
import BoringTun.Tunn.Run

/-!
Writing a message to the wire cannot fail once its mandatory frame fits, under any
configuration a tunnel can hold (`writeToNetworkWith_framed`).

The messages a tunnel writes are canonical for their kind, so that the frame they get is one
that its peer can take apart.
-/

namespace BoringTun

open AmneziaConfig

variable {P : Primitives}

/-! ### Canonical messages -/

theorem canonical_of_tag {obf : ObfuscationRanges} {kind : PacketKind} {range : TagRange} {rng : Rng}
    {rest : Bytes} (hrange : tagMatches obf kind = range.contains)
    (hexact : ∀ len, kind.exactLen = some len → rest.length + 4 = len)
    (hlong : DATA_OVERHEAD_SZ ≤ rest.length + 4) :
    Canonical obf kind (leBytes 4 (range.random rng).1 ++ rest) where
  exact len hlen := by
    rw [List.length_append, length_leBytes, Nat.add_comm]
    exact hexact len hlen
  atLeast := by
    rw [List.length_append, length_leBytes, Nat.add_comm]
    exact hlong
  tag := by
    rw [List.take_left' (length_leBytes 4 _), leNat_leBytes (range.random_lt rng), hrange]
    exact range.contains_random rng

theorem Session.canonical_message (s : Session P) (obf : ObfuscationRanges) (rng : Rng)
    (src : Bytes) (pad : Nat) : Canonical obf .transportData (s.message obf rng src pad) := by
  unfold Session.message Session.dataMessage
  rw [List.append_assoc, List.append_assoc]
  apply canonical_of_tag
  · rfl
  · nofun
  · simp only [List.length_append, length_leBytes, P.length_sealInPlace, DATA_OVERHEAD_SZ]
    omega

theorem Handshake.appendMac1AndMac2_eq (h : Handshake P) (localIndex : UInt32) (body : Bytes) :
    ∃ macs, macs.length = 32 ∧ (h.appendMac1AndMac2 localIndex body).1 = body ++ macs := by
  unfold Handshake.appendMac1AndMac2
  dsimp only
  rw [List.append_assoc]
  refine ⟨_, ?_, rfl⟩
  rw [List.length_append, P.length_b2sKeyedMac16]
  split
  · rw [P.length_b2sKeyedMac16]
  · rw [List.length_replicate]

theorem Handshake.canonical_answeredInit (h : Handshake P) (env : Env P)
    (init : AuthenticatedInit P) (reservedSlot : Nat) :
    Canonical h.obf .handshakeResponse (h.answeredInit env init reservedSlot).1 := by
  unfold Handshake.answeredInit
  obtain ⟨macs, hmacs, heq⟩ := (h.answering init reservedSlot).appendMac1AndMac2_eq
    (h.responderIndex reservedSlot) (responseBody (h.obf.h2Resp.random h.rng).1
      ((h.responseOf init env.draw).packet (h.responderIndex reservedSlot) init.peerIndex))
  rw [heq, responseBody]
  simp only [List.append_assoc]
  apply canonical_of_tag
  · rfl
  · rintro len ⟨⟩
    simp [hmacs, HANDSHAKE_RESP_SZ]
  · simp [hmacs, DATA_OVERHEAD_SZ]

theorem Handshake.canonical_initiated (h : Handshake P) (env : Env P) :
    Canonical h.obf .handshakeInit (h.initiated env).1 := by
  unfold Handshake.initiated
  obtain ⟨macs, hmacs, heq⟩ := (h.initiating env).appendMac1AndMac2_eq (succIndex h.nextIndex)
    (initiationBody (h.obf.h1Init.random h.rng).1
      ((h.initiationOf env.draw env.now).packet (succIndex h.nextIndex)))
  rw [heq, initiationBody]
  simp only [List.append_assoc]
  apply canonical_of_tag
  · rfl
  · rintro len ⟨⟩
    simp [hmacs, HANDSHAKE_INIT_SZ]
  · simp [hmacs, DATA_OVERHEAD_SZ]

/-- The reply to a demand for a cookie is a cookie reply. -/
theorem RateLimiter.canonical_formatCookieDemand {limiter limiter' : RateLimiter P}
    {obf : ObfuscationRanges} {rng rng' : Rng} {demand : CookieDemand} {dst reply : Bytes}
    (hcookie : demand.cookie.length = 16)
    (h : limiter.formatCookieDemand obf rng demand dst = (.ok reply, limiter', rng')) :
    Canonical obf .cookieReply reply := by
  unfold RateLimiter.formatCookieDemand at h
  split at h
  · cases h
  · cases h
    simp only [List.append_assoc]
    apply canonical_of_tag
    · rfl
    · rintro len ⟨⟩
      simp [P.length_xSeal, P.length_b2sMac24, hcookie, COOKIE_REPLY_SZ]
    · simp [P.length_xSeal, P.length_b2sMac24, hcookie, DATA_OVERHEAD_SZ]

namespace Tunn

/-! ### Framing cannot fail -/

section

variable {t : Tunn P} {obf : ObfuscationRanges} {cfg : AmneziaConfig} {kind : PacketKind}
  {packet dst : Bytes} {room : TrailerRoom}

theorem take_overwrite (dst packet : Bytes) : (overwrite dst 0 packet).take packet.length = packet := by
  simp [overwrite]

/-- With the mandatory frame in the buffer, a datagram is written. -/
theorem writeToNetworkWith_total (hobf : t.handshake.obf = obf) (hcfg : t.amnezia = cfg)
    (hcanon : Canonical obf kind packet)
    (hroom : packet.length + cfg.outboundJunkSize kind ≤ dst.length) :
    ∃ wire, (t.writeToNetworkWith (overwrite dst 0 packet) packet.length room).1 =
      .writeToNetwork wire := by
  subst hobf hcfg
  have hfits : packet.length + (t.amnezia.resolveImitation t.imitationProtocol).outboundJunkSize
      kind ≤ (overwrite dst 0 packet).length := by
    rw [resolveImitation_outboundJunkSize, length_overwrite (by omega)]
    exact hroom
  obtain ⟨wire, hwire⟩ := prependOutboundWithTrailer_total (P := P) (overwrite dst 0 packet)
    (some room) t.handshake.rng hcanon (take_overwrite dst packet) hfits
    (resolveImitation_nonce t.checked t.imitationProtocol kind)
  exact ⟨wire, by simp only [writeToNetworkWith, writeToNetworkWithImitation, hwire]⟩

/-- What is written is a frame, whatever it imitates. -/
theorem writeToNetworkWithImitation_frame {protocol : AmneziaImitationProtocol} {wire : Bytes}
    (hobf : t.handshake.obf = obf) (hcfg : t.amnezia = cfg) (hcanon : Canonical obf kind packet)
    (hwrite : (t.writeToNetworkWithImitation (overwrite dst 0 packet) packet.length room
      protocol).1 = .writeToNetwork wire) : Frame P cfg kind packet wire := by
  subst hobf hcfg
  unfold writeToNetworkWithImitation at hwrite
  dsimp only at hwrite
  split at hwrite
  · next framed hframed =>
    cases hwrite
    exact .of_resolved (prependOutboundWithTrailer_ok _ _ _ hcanon (take_overwrite dst packet)
      hframed)
  · cases hwrite

theorem writeToNetworkWith_frame {wire : Bytes} (hobf : t.handshake.obf = obf)
    (hcfg : t.amnezia = cfg) (hcanon : Canonical obf kind packet)
    (hwrite : (t.writeToNetworkWith (overwrite dst 0 packet) packet.length room).1 =
      .writeToNetwork wire) : Frame P cfg kind packet wire :=
  writeToNetworkWithImitation_frame hobf hcfg hcanon hwrite

/-- How long a written datagram is, whatever it imitates. -/
theorem writeToNetworkWithImitation_length {protocol : AmneziaImitationProtocol} {wire : Bytes}
    (hobf : t.handshake.obf = obf) (hcfg : t.amnezia = cfg) (hcanon : Canonical obf kind packet)
    (hdst : packet.length ≤ dst.length)
    (hwrite : (t.writeToNetworkWithImitation (overwrite dst 0 packet) packet.length room
      protocol).1 = .writeToNetwork wire) :
    wire ≠ [] ∧ wire.length ≤ dst.length ∧
      wire.length ≤
        max (packet.length + cfg.outboundJunkSize kind) (min room.udpWindow room.maxWire) ∧
      (kind = .transportData → wire.length = packet.length + cfg.outboundJunkSize kind) := by
  subst hobf hcfg
  unfold writeToNetworkWithImitation at hwrite
  dsimp only at hwrite
  split at hwrite
  · next framed hframed =>
    cases hwrite
    have hlen := length_prependOutboundWithTrailer _ _ hcanon (take_overwrite dst packet) hframed
    rwa [length_overwrite (by omega), ← outboundJunkSize,
      resolveImitation_outboundJunkSize] at hlen
  · cases hwrite

/-- A framed cookie reply that passed the first check is no longer than the datagram. -/
theorem writeToNetworkWithImitation_cookieReply {datagram wire : Bytes}
    {protocol : AmneziaImitationProtocol} (hcanon : Canonical t.handshake.obf .cookieReply packet)
    (hcheck : t.amnezia.cookieReplyWouldAmplify packet.length datagram.length = false)
    (hdst : packet.length ≤ dst.length)
    (hwrite : (t.writeToNetworkWithImitation (overwrite dst 0 packet) packet.length
      (.cookieReply datagram.length) protocol).1 = .writeToNetwork wire) :
    wire.length ≤ datagram.length := by
  obtain ⟨-, -, hmax, -⟩ := writeToNetworkWithImitation_length rfl rfl hcanon hdst hwrite
  have hbase : packet.length + t.amnezia.outboundJunkSize .cookieReply ≤ datagram.length := by
    simpa [cookieReplyWouldAmplify, replyAmplifies, cookieReplyLen] using hcheck
  exact Nat.le_trans hmax (max_le hbase (Nat.min_le_right _ _))

/-- `wire` is `message` framed, with a trailer that stays within `room`. -/
structure Framed (P : Primitives) (cfg : AmneziaConfig) (obf : ObfuscationRanges)
    (kind : PacketKind) (message : Bytes) (room : TrailerRoom) (wire : Bytes) : Prop where
  canonical : Canonical obf kind message
  frame : Frame P cfg kind message wire
  ne_nil : wire ≠ []
  length_le : wire.length ≤
    max (message.length + cfg.outboundJunkSize kind) (min room.udpWindow room.maxWire)
  /-- A transport packet has no trailer. -/
  length_eq : kind = .transportData → wire.length = message.length + cfg.outboundJunkSize kind

/-- With the mandatory frame in the buffer a datagram is written. -/
theorem writeToNetworkWith_framed (hobf : t.handshake.obf = obf) (hcfg : t.amnezia = cfg)
    (hcanon : Canonical obf kind packet)
    (hroom : packet.length + cfg.outboundJunkSize kind ≤ dst.length) (room : TrailerRoom) :
    ∃ wire rng, t.writeToNetworkWith (overwrite dst 0 packet) packet.length room =
      (.writeToNetwork wire, t.withRng rng) ∧ Framed P cfg obf kind packet room wire := by
  obtain ⟨wire, hwire⟩ := writeToNetworkWith_total hobf hcfg hcanon hroom
  obtain ⟨hne, -, hmax, hexact⟩ := writeToNetworkWithImitation_length hobf hcfg hcanon
    (Nat.le_of_add_right_le hroom) hwire
  exact ⟨wire, _, Prod.ext hwire rfl, hcanon, writeToNetworkWith_frame hobf hcfg hcanon hwire, hne,
    hmax, hexact⟩

end

end Tunn

end BoringTun
