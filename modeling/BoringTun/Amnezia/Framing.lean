import BoringTun.Amnezia.Fillers
import BoringTun.Amnezia.HeaderProtection
import BoringTun.Crypto.Terms

/-!
Framing (`AmneziaConfig::prepend_outbound_with_trailer`, `inbound_candidates` and
`candidate_message` in `noise/amnezia.rs`).

Outbound, a canonical message gets the prefix of its kind, a mask nonced by that prefix,
and for handshake messages a random trailer. Inbound, a datagram is every kind whose
length and tag it has at that kind's offset.

* `prependOutboundWithTrailer_ok`: what is sent is a `Frame` of the message;
* `length_prependOutboundWithTrailer`: how long it is;
* `inboundCandidates_prependOutbound`: it is read back.
-/

namespace BoringTun

def UPSTREAM_COLLISION_CANDIDATES : Nat := 16

/-- What a RandomTrailers suffix may grow a frame to. -/
structure TrailerRoom where
  udpWindow : Nat
  maxWire : Nat

/-- One reading of an inbound datagram. -/
structure InboundCandidate where
  kind : PacketKind
  offset : Nat
  messageLen : Nat
  wireLen : Nat
  isProtected : Bool
  deriving DecidableEq

namespace PacketKind

/-- The handshake kinds have one size, transport a smallest one. -/
def exactLen : PacketKind → Option Nat
  | .handshakeInit => some HANDSHAKE_INIT_SZ
  | .handshakeResponse => some HANDSHAKE_RESP_SZ
  | .cookieReply => some COOKIE_REPLY_SZ
  | .transportData => none

/-- In trial order. -/
def all : List PacketKind := [.handshakeInit, .handshakeResponse, .cookieReply, .transportData]

end PacketKind

def tagMatches (obf : ObfuscationRanges) (kind : PacketKind) (tag : Nat) : Bool :=
  match kind with
  | .handshakeInit => obf.matchesH1 tag
  | .handshakeResponse => obf.matchesH2 tag
  | .cookieReply => obf.matchesH3 tag
  | .transportData => obf.matchesH4 tag

def readTagMasked (packet : Bytes) (offset : Nat) (mask : Bytes) : Option Nat :=
  if packet.length < offset + 4 then none
  else some (leNat (List.zipWith (· ^^^ ·) (slice packet offset (offset + 4)) mask))

def readTag (packet : Bytes) (offset : Nat) : Option Nat :=
  readTagMasked packet offset (List.replicate TYPE_MASK_SIZE 0)

/-- Bytes of a message the sender masks. -/
def maskedLen (kind : PacketKind) (messageLen : Nat) : Nat :=
  match kind with
  | .transportData => DATA_OFFSET_SZ
  | _ => messageLen

namespace AmneziaConfig

variable (P : Primitives) (cfg : AmneziaConfig) (obf : ObfuscationRanges)

/-! ### Inbound -/

/-- The candidate of one kind under a type mask, if the datagram has its length and tag. -/
def candidateUnderMask (datagram mask : Bytes) (isProtected : Bool) (kind : PacketKind) :
    Option InboundCandidate :=
  let wireLen := datagram.length
  let offset := cfg.inboundJunkSize kind
  let (fits, messageLen) := match kind.exactLen with
    | some len =>
      if cfg.randomTrailers then (decide (wireLen ≥ offset + len), len)
      else (decide (wireLen = offset + len), len)
    | none => (decide (wireLen ≥ offset + DATA_OVERHEAD_SZ), wireLen - offset)
  if !fits || (isProtected && offset < NONCE_SIZE) then none
  else if ((readTagMasked datagram offset mask).map (tagMatches obf kind)).getD false then
    some { kind, offset, messageLen, wireLen, isProtected }
  else none

def candidatesUnderMask (datagram mask : Bytes) (isProtected : Bool) : List InboundCandidate :=
  PacketKind.all.filterMap (cfg.candidateUnderMask obf datagram mask isProtected)

/-- Every kind an inbound datagram could be, in trial order. -/
def inboundCandidates (datagram : Bytes) : List InboundCandidate :=
  if !cfg.headerProtectionEnabled then
    cfg.candidatesUnderMask obf datagram (List.replicate TYPE_MASK_SIZE 0) false
  else
    match cfg.headerProtection.typeMask P datagram with
    | some mask => cfg.candidatesUnderMask obf datagram mask true
    | none => []

/-- The canonical message a candidate reads out of a datagram. -/
def candidateMessage (datagram : Bytes) (candidate : InboundCandidate) : Option Bytes :=
  if datagram.length < candidate.offset + candidate.messageLen then none
  else
    let message := slice datagram candidate.offset (candidate.offset + candidate.messageLen)
    if !candidate.isProtected then some message
    else cfg.headerProtection.unmaskDetached P datagram message
      (maskedLen candidate.kind candidate.messageLen)

/-! ### Outbound -/

def classifyOutbound (packet : Bytes) : Option PacketKind :=
  match readTag packet 0 with
  | none => none
  | some tag =>
    if packet.length = HANDSHAKE_INIT_SZ ∧ obf.matchesH1 tag then some .handshakeInit
    else if packet.length = HANDSHAKE_RESP_SZ ∧ obf.matchesH2 tag then some .handshakeResponse
    else if packet.length = COOKIE_REPLY_SZ ∧ obf.matchesH3 tag then some .cookieReply
    else if packet.length ≥ DATA_OVERHEAD_SZ ∧ obf.matchesH4 tag then some .transportData
    else none

/-- The length of a RandomTrailers suffix behind a mandatory frame of `base` bytes. -/
def trailerLen (kind : PacketKind) (base bufferLen : Nat) (room : Option TrailerRoom) (rng : Rng) :
    Nat × Rng :=
  match room with
  | none => (0, rng)
  | some room =>
    if !cfg.randomTrailers ∨ kind = .transportData then (0, rng)
    else
      let headroom := room.udpWindow - base
      let ceiling := min (min bufferLen MAX_SENDABLE_DATAGRAM) room.maxWire - base
      randomBelow (min headroom (ceiling + 1)) rng

def fillOutboundJunk (trailingSize : Nat) : Filler Unit :=
  match cfg.imitation.protocol with
  | .none => fillRandom
  | protocol => fillProtocolLike protocol cfg.imitation.domain trailingSize

theorem fillOutboundJunk_eq (trailingSize : Nat) : cfg.fillOutboundJunk trailingSize =
    fillProtocolLike cfg.imitation.protocol cfg.imitation.domain trailingSize := by
  unfold fillOutboundJunk
  split
  · next hnone => rw [hnone]; rfl
  · rfl

theorem fillOutboundJunk_keeps (trailingSize n : Nat) :
    Filler.Keeps n (cfg.fillOutboundJunk trailingSize) fun _ => True := by
  rw [fillOutboundJunk_eq]
  exact Filler.Yields.keeps fun _ => fillProtocolLike_yields _ _ _

/-- The prefix the filler leaves in `dst`. -/
def outboundJunk (dst : Bytes) (trailingSize : Nat) (rng : Rng) : Bytes × Rng :=
  (cfg.fillOutboundJunk trailingSize).exec (cfg.fillOutboundJunk_keeps trailingSize) dst rng

@[simp] theorem length_outboundJunk (dst : Bytes) (trailingSize : Nat) (rng : Rng) :
    (cfg.outboundJunk dst trailingSize rng).1.length = dst.length :=
  Filler.length_exec _ _ _ _

/-- What the filler leaves of a prefix of `n` bytes, whatever stood there: bytes of its own,
and behind them, for three sizes of a DNS prefix, what stood there. -/
theorem outboundJunk_spec (n trailingSize : Nat) (rng : Rng) : ∃ written rng',
    Filled cfg.imitation.protocol n trailingSize written ∧ ∀ dst : Bytes, dst.length = n →
      cfg.outboundJunk dst trailingSize rng = (written ++ dst.drop written.length, rng') := by
  have hyields : Filler.Yields n [] rng (cfg.fillOutboundJunk trailingSize) fun _ written _ =>
      Filled cfg.imitation.protocol n trailingSize written := by
    rw [fillOutboundJunk_eq]
    exact fillProtocolLike_yields _ _ _
  obtain ⟨written, rng', hfilled, -, hrun⟩ :=
    Filler.exec_yields hyields (cfg.fillOutboundJunk_keeps trailingSize)
  exact ⟨written, rng', hfilled, hrun⟩

def imitationRedrawAvoidsUpstreamCollisions : Bool :=
  match cfg.imitation.protocol with
  | .sip => cfg.sipRequestLinePrefix.isNone
  | _ => true

def UPSTREAM_CONTROL_KINDS : List (PacketKind × Nat) :=
  [(.handshakeInit, HANDSHAKE_INIT_SZ), (.handshakeResponse, HANDSHAKE_RESP_SZ),
    (.cookieReply, COOKIE_REPLY_SZ)]

def upstreamControlLengthFits (kind : PacketKind) (base wireLen : Nat) : Bool :=
  let need := cfg.inboundJunkSize kind + base
  if cfg.randomTrailers then wireLen ≥ need else wireLen = need

def upstreamCollisionApplies (kind : PacketKind) (wireLen : Nat) : Bool :=
  kind = .transportData && cfg.headerProtectionEnabled &&
    cfg.imitationRedrawAvoidsUpstreamCollisions &&
    UPSTREAM_CONTROL_KINDS.any fun (control, base) =>
      cfg.upstreamControlLengthFits control base wireLen

/-- Would a first-match receiver take this datagram for a control message? -/
def upstreamControlCollision (datagram mask : Bytes) : Bool :=
  UPSTREAM_CONTROL_KINDS.any fun (kind, base) =>
    cfg.upstreamControlLengthFits kind base datagram.length &&
      ((readTagMasked datagram (cfg.inboundJunkSize kind) mask).map (tagMatches obf kind)).getD
        false

/-- Redraw the prefix of a masked datagram while it collides, `remaining` times at most. -/
def avoidUpstreamControlCollision (junkSize : Nat) (canonical : Bytes) :
    Nat → Bytes → Rng → Bytes × Rng
  | 0, datagram, rng => (datagram, rng)
  | remaining + 1, datagram, rng =>
    -- the mask is recovered from the canonical and the masked type word
    let mask := List.zipWith (· ^^^ ·) (canonical.take TYPE_MASK_SIZE)
      (slice datagram junkSize (junkSize + TYPE_MASK_SIZE))
    if !cfg.upstreamControlCollision obf datagram mask then (datagram, rng)
    else
      let datagram := overwrite datagram junkSize canonical
      let (junk, rng) := cfg.outboundJunk (datagram.take junkSize) (datagram.length - junkSize) rng
      let datagram := junk ++ datagram.drop junkSize
      let datagram :=
        (cfg.headerProtection.maskOutbound P datagram junkSize DATA_OFFSET_SZ).getD datagram
      avoidUpstreamControlCollision junkSize canonical remaining datagram rng

/-- Frame the canonical packet in `buffer[..packetSize]` for the wire. -/
def prependOutboundWithTrailer (buffer : Bytes) (packetSize : Nat) (room : Option TrailerRoom)
    (rng : Rng) : Result Bytes × Rng :=
  if buffer.length < packetSize then (.error .destinationBufferTooSmall, rng)
  else
    let packet := buffer.take packetSize
    match classifyOutbound obf packet with
    | none => (.ok packet, rng)
    | some kind =>
      let junkSize := cfg.outboundJunkSize kind
      let newSize := packetSize + junkSize
      let (trailer, rng) := cfg.trailerLen kind newSize buffer.length room rng
      if junkSize = 0 ∧ !cfg.headerProtectionEnabled ∧ trailer = 0 then (.ok packet, rng)
      else if buffer.length < newSize then (.error .destinationBufferTooSmall, rng)
      else
        let buffer := overwrite buffer junkSize packet
        let (junk, rng) := cfg.outboundJunk (buffer.take junkSize) packetSize rng
        let datagram := junk ++ slice buffer junkSize newSize
        match cfg.headerProtection.maskOutbound P datagram junkSize (maskedLen kind packetSize) with
        | none => (.error .destinationBufferTooSmall, rng)
        | some masked =>
          let (datagram, rng) :=
            if cfg.upstreamCollisionApplies kind (newSize + trailer) then
              cfg.avoidUpstreamControlCollision P obf junkSize (packet.take DATA_OFFSET_SZ)
                (UPSTREAM_COLLISION_CANDIDATES - 1) masked rng
            else (masked, rng)
          -- `trailerLen` bounded the trailer by the buffer
          let (suffix, rng) := rng.bytes trailer
          (.ok (datagram ++ suffix), rng)

/-! ### Canonical messages -/

/-- A canonical message: the size and the tag of its kind. -/
structure Canonical (kind : PacketKind) (packet : Bytes) : Prop where
  exact : ∀ len, kind.exactLen = some len → packet.length = len
  atLeast : DATA_OVERHEAD_SZ ≤ packet.length
  tag : tagMatches obf kind (leNat (packet.take 4)) = true

variable {P cfg obf} {kind : PacketKind} {packet pfx suffix : Bytes}

theorem readTagMasked_append {message mask : Bytes} (hlen : 4 ≤ message.length) :
    readTagMasked (pfx ++ message ++ suffix) pfx.length mask =
      some (leNat (List.zipWith (· ^^^ ·) (message.take 4) mask)) := by
  unfold readTagMasked
  rw [if_neg, List.append_assoc, slice_append_right _ _ rfl, Nat.add_sub_cancel_left,
    List.take_append_of_le_length hlen]
  simp only [List.length_append]
  omega

theorem zipWith_zeros {bs : Bytes} (hlen : bs.length = 4) :
    List.zipWith (· ^^^ ·) bs (List.replicate TYPE_MASK_SIZE 0) = bs := by
  apply List.ext_getElem
  · simp [hlen, TYPE_MASK_SIZE]
  · intro i h₁ h₂
    simp

theorem readTag_eq (hlen : 4 ≤ packet.length) :
    readTag packet 0 = some (leNat (packet.take 4)) := by
  have hread := @readTagMasked_append [] [] packet (List.replicate TYPE_MASK_SIZE 0) hlen
  rw [zipWith_zeros (by rw [List.length_take]; omega)] at hread
  simpa [readTag] using hread

/-- A tag of one kind is the tag of no other. -/
theorem tagMatches_unique {other : PacketKind} {tag : Nat} (h : tagMatches obf kind tag = true)
    (hother : tagMatches obf other tag = true) : other = kind := by
  obtain ⟨⟨h₁₂, h₁₃, h₁₄⟩, ⟨h₂₃, h₂₄⟩, h₃₄⟩ := obf.pairwise
  have clash : ∀ {a b : TagRange}, a.overlaps b = false → a.contains tag = true →
      b.contains tag = true → False := by
    intro a b hab ha hb
    rw [ObfuscationRanges.tag_unique (.inl hab) ha] at hb
    cases hb
  cases kind <;> cases other <;> first
    | rfl
    | exact (clash ‹_› h hother).elim
    | exact (clash ‹_› hother h).elim

/-- What the framer takes for a message is one. -/
theorem canonical_of_classifyOutbound (h : classifyOutbound obf packet = some kind) :
    Canonical obf kind packet := by
  by_cases hfour : packet.length < 4
  · rw [classifyOutbound, readTag, readTagMasked, if_pos hfour] at h
    cases h
  have hsized {len : Nat} (hlong : DATA_OVERHEAD_SZ ≤ len) (hlen : packet.length = len) :
      DATA_OVERHEAD_SZ ≤ packet.length := hlen ▸ hlong
  rw [classifyOutbound, readTag_eq (Nat.not_lt.mp hfour)] at h
  dsimp only at h
  split_ifs at h with hinit hresp hcookie hdata
  · cases h
    exact ⟨by rintro _ ⟨⟩; exact hinit.1, hsized (by decide) hinit.1, hinit.2⟩
  · cases h
    exact ⟨by rintro _ ⟨⟩; exact hresp.1, hsized (by decide) hresp.1, hresp.2⟩
  · cases h
    exact ⟨by rintro _ ⟨⟩; exact hcookie.1, hsized (by decide) hcookie.1, hcookie.2⟩
  · cases h
    exact ⟨by rintro _ ⟨⟩, hdata.1, hdata.2⟩

theorem classifyOutbound_canonical (hcanon : Canonical obf kind packet) :
    classifyOutbound obf packet = some kind := by
  cases hclass : classifyOutbound obf packet with
  | some other =>
    rw [tagMatches_unique hcanon.tag (canonical_of_classifyOutbound hclass).tag]
  | none =>
    have hlong := hcanon.atLeast
    have hexact := hcanon.exact
    have htag := hcanon.tag
    rw [classifyOutbound, readTag_eq (Nat.le_trans (by decide) hlong)] at hclass
    dsimp only at hclass
    split_ifs at hclass with hinit hresp hcookie hdata
    cases kind with
    | handshakeInit => exact absurd ⟨hexact _ rfl, htag⟩ hinit
    | handshakeResponse => exact absurd ⟨hexact _ rfl, htag⟩ hresp
    | cookieReply => exact absurd ⟨hexact _ rfl, htag⟩ hcookie
    | transportData => exact absurd ⟨hlong, htag⟩ hdata

/-! ### Frames -/

variable (P cfg kind packet) in
/-- A datagram that carries `packet`: a prefix of the configured size, the message masked
under it, and a suffix that only a RandomTrailers handshake message has. -/
structure Frame (datagram : Bytes) : Prop where
  of :: ex : ∃ pfx suffix : Bytes, pfx.length = cfg.inboundJunkSize kind ∧
    (cfg.headerProtectionEnabled = true → NONCE_SIZE ≤ pfx.length) ∧
    (suffix = [] ∨ cfg.randomTrailers = true ∧ kind ≠ .transportData) ∧
    datagram = pfx ++ cfg.headerProtection.masked P pfx packet (maskedLen kind packet.length) ++
      suffix

theorem maskedLen_bounds (kind : PacketKind) {messageLen : Nat} (hlong : DATA_OVERHEAD_SZ ≤ messageLen) :
    TYPE_MASK_SIZE ≤ maskedLen kind messageLen ∧ maskedLen kind messageLen ≤ messageLen := by
  simp only [TYPE_MASK_SIZE, DATA_OVERHEAD_SZ] at *
  cases kind <;> simp only [maskedLen, DATA_OFFSET_SZ] <;> omega

/-- Writing the canonical bytes over the masked ones takes the mask off. -/
theorem overwrite_masked (k : HeaderProtectionKey) (len : Nat) :
    overwrite (pfx ++ k.masked P pfx packet len) pfx.length (packet.take len) = pfx ++ packet := by
  obtain ⟨front, hmasked, hfront⟩ : ∃ front, k.masked P pfx packet len = front ++ packet.drop len ∧
      front.length = (packet.take len).length := by
    unfold HeaderProtectionKey.masked
    split
    · exact ⟨_, rfl, length_xorStream _ _⟩
    · exact ⟨packet.take len, (List.take_append_drop _ _).symm, rfl⟩
  rw [hmasked, ← List.append_assoc, overwrite_append hfront, List.append_assoc,
    List.take_append_drop]

variable (cfg) in
/-- A prefix the filler drew for a message of `messageLen` bytes. -/
def Drawn (messageLen : Nat) (pfx : Bytes) : Prop :=
  ∃ (dst : Bytes) (rng : Rng), pfx = (cfg.outboundJunk dst messageLen rng).1

section

variable (P cfg obf packet)

/-- A transport message under a prefix. -/
def framedUnder (pfx : Bytes) : Bytes :=
  pfx ++ cfg.headerProtection.masked P pfx packet DATA_OFFSET_SZ

/-- The mask a framing is checked with, recovered from the canonical and the masked type word. -/
def recoveredMask (pfx : Bytes) : Bytes :=
  List.zipWith (· ^^^ ·) ((packet.take DATA_OFFSET_SZ).take TYPE_MASK_SIZE)
    (slice (cfg.framedUnder P packet pfx) pfx.length (pfx.length + TYPE_MASK_SIZE))

/-- A framing that collides is framed again under a new prefix, from the canonical header. -/
theorem avoidUpstreamControlCollision_succ (remaining : Nat) (rng : Rng)
    (hlong : DATA_OFFSET_SZ ≤ packet.length)
    (hnonce : cfg.headerProtectionEnabled = true → NONCE_SIZE ≤ pfx.length) :
    cfg.avoidUpstreamControlCollision P obf pfx.length (packet.take DATA_OFFSET_SZ) (remaining + 1)
        (cfg.framedUnder P packet pfx) rng =
      if cfg.upstreamControlCollision obf (cfg.framedUnder P packet pfx)
          (cfg.recoveredMask P packet pfx) then
        cfg.avoidUpstreamControlCollision P obf pfx.length (packet.take DATA_OFFSET_SZ) remaining
          (cfg.framedUnder P packet (cfg.outboundJunk pfx packet.length rng).1)
          (cfg.outboundJunk pfx packet.length rng).2
      else (cfg.framedUnder P packet pfx, rng) := by
  have hjunk : (cfg.outboundJunk pfx packet.length rng).1.length = pfx.length :=
    length_outboundJunk _ _ _ _
  rw [← hjunk] at hnonce
  obtain ⟨out, hout⟩ := Option.isSome_iff_exists.mp
    (HeaderProtectionKey.maskOutbound_isSome (P := P) (k := cfg.headerProtection) hlong hnonce)
  obtain ⟨hmasked, -⟩ := HeaderProtectionKey.maskOutbound_eq_some hout
  rw [hjunk] at hout
  rw [avoidUpstreamControlCollision]
  unfold recoveredMask framedUnder
  simp only [overwrite_masked, List.take_left, List.drop_left, List.length_append,
    Nat.add_sub_cancel_left, hout, hmasked]
  cases cfg.upstreamControlCollision obf _ _ <;> rfl

/-- However often the prefix is redrawn, the datagram is the packet masked under it. -/
theorem avoidUpstreamControlCollision_spec (remaining : Nat) (rng : Rng)
    (hlong : DATA_OFFSET_SZ ≤ packet.length) (hdrawn : cfg.Drawn packet.length pfx)
    (hnonce : cfg.headerProtectionEnabled = true → NONCE_SIZE ≤ pfx.length) :
    ∃ pfx' : Bytes, pfx'.length = pfx.length ∧ cfg.Drawn packet.length pfx' ∧
      (cfg.avoidUpstreamControlCollision P obf pfx.length (packet.take DATA_OFFSET_SZ) remaining
        (cfg.framedUnder P packet pfx) rng).1 = cfg.framedUnder P packet pfx' := by
  induction remaining generalizing pfx rng with
  | zero => exact ⟨pfx, rfl, hdrawn, rfl⟩
  | succ remaining ih =>
    rw [avoidUpstreamControlCollision_succ P cfg obf packet remaining rng hlong hnonce]
    split
    · have hjunk : (cfg.outboundJunk pfx packet.length rng).1.length = pfx.length :=
        length_outboundJunk _ _ _ _
      rw [← hjunk] at hnonce ⊢
      exact ih _ ⟨pfx, rng, rfl⟩ hnonce
    · exact ⟨pfx, rfl, hdrawn, rfl⟩

end

/-- The trailer never passes the buffer, nor the window and the wire limit the caller gives. -/
theorem trailerLen_le (base bufferLen : Nat) (room : Option TrailerRoom) (rng : Rng) :
    (cfg.trailerLen kind base bufferLen room rng).1 ≤ bufferLen - base ∧
      ∀ r, room = some r → (cfg.trailerLen kind base bufferLen room rng).1 ≤
        min r.udpWindow r.maxWire - base := by
  unfold trailerLen
  cases room with
  | none => exact ⟨Nat.zero_le _, by simp⟩
  | some room =>
    dsimp only
    split
    · exact ⟨Nat.zero_le _, fun _ _ => Nat.zero_le _⟩
    · have hdraw := randomBelow_le (min (room.udpWindow - base)
        (min (min bufferLen MAX_SENDABLE_DATAGRAM) room.maxWire - base + 1)) rng
      refine ⟨by omega, ?_⟩
      rintro _ ⟨⟩
      omega

/-- Only a RandomTrailers handshake message has a trailer. -/
theorem trailerLen_eq_zero (base bufferLen : Nat) (room : Option TrailerRoom) (rng : Rng)
    (h : ¬ (cfg.randomTrailers = true ∧ kind ≠ .transportData)) :
    (cfg.trailerLen kind base bufferLen room rng).1 = 0 := by
  unfold trailerLen
  cases room with
  | none => rfl
  | some room =>
    dsimp only
    rw [if_pos]
    by_cases htrailers : cfg.randomTrailers = true
    · exact .inr (by_contra fun hne => h ⟨htrailers, hne⟩)
    · exact .inl (by simpa using htrailers)

variable (buffer : Bytes) (room : Option TrailerRoom) (rng : Rng)

section

variable {buffer : Bytes} {junkSize : Nat} (hroom : packet.length + junkSize ≤ buffer.length)
include hroom

/-- The message moved behind its prefix. -/
theorem slice_overwrite :
    slice (overwrite buffer junkSize packet) junkSize (packet.length + junkSize) = packet := by
  have hfront : (buffer.take junkSize).length = junkSize := by
    rw [List.length_take]
    omega
  rw [overwrite, List.append_assoc, slice_append_right _ _ hfront, Nat.add_sub_cancel,
    List.take_left]

end

section

variable (cfg kind packet)

/-- The trailer the framer draws first. -/
def firstTrailer : Nat × Rng :=
  cfg.trailerLen kind (packet.length + cfg.outboundJunkSize kind) buffer.length room rng

/-- The prefix of the first framing. -/
def firstJunk : Bytes × Rng :=
  cfg.outboundJunk
    ((overwrite buffer (cfg.outboundJunkSize kind) packet).take (cfg.outboundJunkSize kind))
    packet.length (cfg.firstTrailer kind packet buffer room rng).2

variable (P) in
/-- The first framing, without the trailer. -/
def firstFrame : Option Bytes :=
  cfg.headerProtection.maskOutbound P ((cfg.firstJunk kind packet buffer room rng).1 ++ packet)
    (cfg.outboundJunkSize kind) (maskedLen kind packet.length)

variable (P obf) in
/-- What becomes of a first framing: it is framed again while it collides. -/
def reframed (masked : Bytes) : Bytes × Rng :=
  if cfg.upstreamCollisionApplies kind (packet.length + cfg.outboundJunkSize kind +
      (cfg.firstTrailer kind packet buffer room rng).1) then
    cfg.avoidUpstreamControlCollision P obf (cfg.outboundJunkSize kind) (packet.take DATA_OFFSET_SZ)
      (UPSTREAM_COLLISION_CANDIDATES - 1) masked (cfg.firstJunk kind packet buffer room rng).2
  else (masked, (cfg.firstJunk kind packet buffer room rng).2)

end

variable (P) in
/-- The framer on a canonical message. -/
theorem prependOutboundWithTrailer_eq (hcanon : Canonical obf kind packet)
    (hbuffer : buffer.take packet.length = packet) :
    cfg.prependOutboundWithTrailer P obf buffer packet.length room rng =
      if cfg.outboundJunkSize kind = 0 ∧ !cfg.headerProtectionEnabled ∧
        (cfg.firstTrailer kind packet buffer room rng).1 = 0 then
        (.ok packet, (cfg.firstTrailer kind packet buffer room rng).2)
      else if buffer.length < packet.length + cfg.outboundJunkSize kind then
        (.error .destinationBufferTooSmall, (cfg.firstTrailer kind packet buffer room rng).2)
      else
        match cfg.firstFrame P kind packet buffer room rng with
        | none =>
          (.error .destinationBufferTooSmall, (cfg.firstJunk kind packet buffer room rng).2)
        | some masked =>
          let framed := cfg.reframed P obf kind packet buffer room rng masked
          let suffix := framed.2.bytes (cfg.firstTrailer kind packet buffer room rng).1
          (.ok (framed.1 ++ suffix.1), suffix.2) := by
  have hroom : packet.length ≤ buffer.length := by
    rw [← hbuffer, List.length_take]
    exact Nat.min_le_right _ _
  unfold prependOutboundWithTrailer
  rw [if_neg (Nat.not_lt.mpr hroom)]
  simp only [hbuffer, classifyOutbound_canonical hcanon]
  unfold firstFrame reframed firstJunk firstTrailer
  split
  · rfl
  · split
    · rfl
    · next hsize =>
      rw [slice_overwrite (Nat.not_lt.mp hsize)]

section

variable {buffer : Bytes} {room : Option TrailerRoom} {rng : Rng}
variable (hroom : packet.length + cfg.outboundJunkSize kind ≤ buffer.length)
include hroom

theorem length_firstJunk :
    (cfg.firstJunk kind packet buffer room rng).1.length = cfg.outboundJunkSize kind := by
  rw [firstJunk, length_outboundJunk, List.length_take, length_overwrite (by omega)]
  omega

/-- The first framing is masked under the prefix it was drawn with. -/
theorem firstFrame_eq_some {masked : Bytes}
    (h : cfg.firstFrame P kind packet buffer room rng = some masked) :
    masked = (cfg.firstJunk kind packet buffer room rng).1 ++
        cfg.headerProtection.masked P (cfg.firstJunk kind packet buffer room rng).1 packet
          (maskedLen kind packet.length) ∧
      (cfg.headerProtectionEnabled = true → NONCE_SIZE ≤ cfg.outboundJunkSize kind) := by
  unfold firstFrame at h
  rw [← length_firstJunk hroom] at h
  obtain ⟨hmasked, hnonce⟩ := HeaderProtectionKey.maskOutbound_eq_some h
  rw [length_firstJunk hroom] at hnonce
  exact ⟨hmasked, hnonce⟩

variable (P room rng) in
theorem firstFrame_isSome (hlong : DATA_OVERHEAD_SZ ≤ packet.length)
    (hnonce : cfg.headerProtectionEnabled = true → NONCE_SIZE ≤ cfg.outboundJunkSize kind) :
    ∃ masked, cfg.firstFrame P kind packet buffer room rng = some masked := by
  obtain ⟨-, hmaskedLe⟩ := maskedLen_bounds kind hlong
  rw [← @length_firstJunk _ _ _ _ room rng hroom] at hnonce
  have hsome := HeaderProtectionKey.maskOutbound_isSome (P := P) hmaskedLe hnonce
  rw [length_firstJunk hroom] at hsome
  exact Option.isSome_iff_exists.mp hsome

variable (obf) in
/-- However a first framing is framed again, it is the packet masked under a drawn prefix. -/
theorem reframed_spec {masked : Bytes} (hlong : DATA_OVERHEAD_SZ ≤ packet.length)
    (h : cfg.firstFrame P kind packet buffer room rng = some masked) :
    ∃ pfx : Bytes, pfx.length = cfg.outboundJunkSize kind ∧ cfg.Drawn packet.length pfx ∧
      (cfg.reframed P obf kind packet buffer room rng masked).1 =
        pfx ++ cfg.headerProtection.masked P pfx packet (maskedLen kind packet.length) := by
  obtain ⟨rfl, hnonce⟩ := firstFrame_eq_some hroom h
  have hlen := @length_firstJunk _ _ _ _ room rng hroom
  have hdrawn : cfg.Drawn packet.length (cfg.firstJunk kind packet buffer room rng).1 :=
    ⟨_, _, rfl⟩
  unfold reframed
  split
  · next happlies =>
    -- only transport messages are framed again
    obtain rfl : kind = .transportData := by
      simp only [upstreamCollisionApplies, Bool.and_eq_true, decide_eq_true_eq] at happlies
      exact happlies.1.1.1
    obtain ⟨-, hmaskedLe⟩ := maskedLen_bounds .transportData hlong
    rw [← hlen] at hnonce ⊢
    exact avoidUpstreamControlCollision_spec P cfg obf packet _ _ hmaskedLe hdrawn hnonce
  · exact ⟨_, hlen, hdrawn, rfl⟩

end

/-- What is sent: a drawn prefix, the message masked under it, and the drawn trailer. The
mandatory part was in the buffer. -/
theorem prependOutboundWithTrailer_parts {wire : Bytes} (hcanon : Canonical obf kind packet)
    (hbuffer : buffer.take packet.length = packet)
    (hok : (cfg.prependOutboundWithTrailer P obf buffer packet.length room rng).1 = .ok wire) :
    packet.length + cfg.inboundJunkSize kind ≤ buffer.length ∧
    ∃ pfx suffix : Bytes, pfx.length = cfg.inboundJunkSize kind ∧
      cfg.Drawn packet.length pfx ∧
      (cfg.headerProtectionEnabled = true → NONCE_SIZE ≤ pfx.length) ∧
      suffix.length = (cfg.trailerLen kind (packet.length + cfg.inboundJunkSize kind) buffer.length
        room rng).1 ∧
      wire = pfx ++ cfg.headerProtection.masked P pfx packet (maskedLen kind packet.length) ++
        suffix := by
  rw [prependOutboundWithTrailer_eq P buffer room rng hcanon hbuffer] at hok
  split at hok
  · next hnone =>
    obtain ⟨hjunk, hkey, htrailer⟩ := hnone
    cases hok
    have hunset : cfg.headerProtection.isSet = false := by
      simpa [headerProtectionEnabled] using hkey
    have hroom : packet.length ≤ buffer.length := by
      rw [← hbuffer, List.length_take]
      exact Nat.min_le_right _ _
    have hempty : [] = (cfg.outboundJunk [] packet.length rng).1 :=
      (List.eq_nil_of_length_eq_zero (length_outboundJunk cfg [] packet.length rng)).symm
    rw [outboundJunkSize] at hjunk
    refine ⟨by rwa [hjunk], [], [], hjunk.symm, ⟨[], rng, hempty⟩, ?_, htrailer.symm, ?_⟩
    · intro hset
      rw [headerProtectionEnabled, hunset] at hset
      cases hset
    · simp [HeaderProtectionKey.masked, hunset]
  · split at hok
    · cases hok
    · next hsize =>
      have hroom : packet.length + cfg.outboundJunkSize kind ≤ buffer.length := Nat.not_lt.mp hsize
      split at hok
      · cases hok
      · next masked hframe =>
        cases hok
        obtain ⟨pfx, hpfx, hdrawn, hframed⟩ := reframed_spec obf hroom hcanon.atLeast hframe
        obtain ⟨-, hnonce⟩ := firstFrame_eq_some hroom hframe
        refine ⟨hroom, pfx, _, hpfx, hdrawn, fun hset => hpfx ▸ hnonce hset, ?_,
          congrArg (· ++ _) hframed⟩
        exact Rng.length_bytes _ _

/-- What is sent is a frame of the message that was in the buffer. -/
theorem prependOutboundWithTrailer_ok {wire : Bytes} (hcanon : Canonical obf kind packet)
    (hbuffer : buffer.take packet.length = packet)
    (hok : (cfg.prependOutboundWithTrailer P obf buffer packet.length room rng).1 = .ok wire) :
    Frame P cfg kind packet wire := by
  obtain ⟨-, pfx, suffix, hpfx, -, hnonce, hsuffix, hwire⟩ :=
    prependOutboundWithTrailer_parts buffer room rng hcanon hbuffer hok
  refine ⟨pfx, suffix, hpfx, hnonce, ?_, hwire⟩
  by_cases h : cfg.randomTrailers = true ∧ kind ≠ .transportData
  · exact .inr h
  · rw [trailerLen_eq_zero _ _ _ _ h] at hsuffix
    exact .inl (List.eq_nil_of_length_eq_zero hsuffix)

/-- The frame is not empty; it stays within the buffer, and where a trailer has room within
the window and the wire limit of the caller. -/
theorem length_prependOutboundWithTrailer {room : TrailerRoom} {wire : Bytes}
    (hcanon : Canonical obf kind packet) (hbuffer : buffer.take packet.length = packet)
    (hok : (cfg.prependOutboundWithTrailer P obf buffer packet.length (some room) rng).1 =
      .ok wire) :
    wire ≠ [] ∧ wire.length ≤ buffer.length ∧
      wire.length ≤
        max (packet.length + cfg.inboundJunkSize kind) (min room.udpWindow room.maxWire) ∧
      (kind = .transportData → wire.length = packet.length + cfg.inboundJunkSize kind) := by
  obtain ⟨hfits, pfx, suffix, hpfx, -, -, hsuffix, rfl⟩ :=
    prependOutboundWithTrailer_parts buffer (some room) rng hcanon hbuffer hok
  have hlong : DATA_OVERHEAD_SZ ≤ packet.length := hcanon.atLeast
  obtain ⟨hbufferLe, hwireLe⟩ := @trailerLen_le cfg kind
    (packet.length + cfg.inboundJunkSize kind) buffer.length (some room) rng
  have hmaxLe := hwireLe room rfl
  have hlen : (pfx ++ cfg.headerProtection.masked P pfx packet (maskedLen kind packet.length) ++
      suffix).length = packet.length + cfg.inboundJunkSize kind + suffix.length := by
    simp only [List.length_append, HeaderProtectionKey.length_masked]
    omega
  refine ⟨?_, by omega, by omega, ?_⟩
  · rw [← List.length_pos_iff_ne_nil, hlen]
    simp only [DATA_OVERHEAD_SZ] at hlong
    omega
  · rintro rfl
    rw [trailerLen_eq_zero _ _ _ _ (by simp)] at hsuffix
    omega

/-- With room for the mandatory frame, and for the nonce in the prefix, framing succeeds. -/
theorem prependOutboundWithTrailer_total (hcanon : Canonical obf kind packet)
    (hbuffer : buffer.take packet.length = packet)
    (hroom : packet.length + cfg.outboundJunkSize kind ≤ buffer.length)
    (hnonce : cfg.headerProtectionEnabled = true → NONCE_SIZE ≤ cfg.outboundJunkSize kind) :
    ∃ wire, (cfg.prependOutboundWithTrailer P obf buffer packet.length room rng).1 = .ok wire := by
  rw [prependOutboundWithTrailer_eq P buffer room rng hcanon hbuffer]
  split
  · exact ⟨_, rfl⟩
  · rw [if_neg (Nat.not_lt.mpr hroom)]
    obtain ⟨masked, hframe⟩ := firstFrame_isSome P room rng hroom hcanon.atLeast hnonce
    rw [hframe]
    exact ⟨_, rfl⟩

/-! ### Reading a frame -/

variable (cfg kind packet) in
/-- The reading of a frame as what it is. -/
def readingOf (datagram : Bytes) : InboundCandidate where
  kind := kind
  offset := cfg.inboundJunkSize kind
  messageLen := packet.length
  wireLen := datagram.length
  isProtected := cfg.headerProtectionEnabled

/-- A datagram with the length of a frame, and the tag of its kind under the mask, is a
candidate of that kind. -/
theorem candidateUnderMask_eq {message mask : Bytes} {isProtected : Bool}
    (hcanon : Canonical obf kind packet) (hpfx : pfx.length = cfg.inboundJunkSize kind)
    (hmessage : message.length = packet.length)
    (hsuffix : suffix = [] ∨ cfg.randomTrailers = true ∧ kind ≠ .transportData)
    (hnonce : isProtected = true → NONCE_SIZE ≤ pfx.length)
    (htag : List.zipWith (· ^^^ ·) (message.take 4) mask = packet.take 4) :
    cfg.candidateUnderMask obf (pfx ++ message ++ suffix) mask isProtected kind =
      some { cfg.readingOf kind packet (pfx ++ message ++ suffix) with isProtected } := by
  have hlong := hcanon.atLeast
  have hexact := hcanon.exact
  have hread := @readTagMasked_append pfx suffix message mask
    (by rw [hmessage]; exact Nat.le_trans (by decide) hlong)
  have hwire : (pfx ++ message ++ suffix).length =
      cfg.inboundJunkSize kind + packet.length + suffix.length := by
    simp only [List.length_append, hpfx, hmessage]
  have hfits : (match kind.exactLen with
      | some len =>
        if cfg.randomTrailers then
          (decide ((pfx ++ message ++ suffix).length ≥ cfg.inboundJunkSize kind + len), len)
        else (decide ((pfx ++ message ++ suffix).length = cfg.inboundJunkSize kind + len), len)
      | none => (decide ((pfx ++ message ++ suffix).length ≥
          cfg.inboundJunkSize kind + DATA_OVERHEAD_SZ),
        (pfx ++ message ++ suffix).length - cfg.inboundJunkSize kind)) =
      (true, packet.length) := by
    rw [hwire]
    cases hlen : kind.exactLen with
    | some len =>
      rw [hexact len hlen]
      rcases hsuffix with rfl | ⟨htrailers, -⟩
      · simp
      · simp [htrailers, Nat.add_assoc]
    | none =>
      have hkind : kind = .transportData := by
        cases kind <;> first | rfl | cases hlen
      rcases hsuffix with rfl | ⟨-, hne⟩
      · simp only [List.length_nil, Nat.add_zero, Nat.add_sub_cancel_left, ge_iff_le,
          Nat.add_le_add_iff_left, hlong, decide_true]
      · exact absurd hkind hne
  have hskip : (isProtected && decide (cfg.inboundJunkSize kind < NONCE_SIZE)) = false := by
    cases isProtected with
    | false => rfl
    | true =>
      rw [← hpfx]
      exact decide_eq_false (Nat.not_lt.mpr (hnonce rfl))
  rw [hpfx, htag] at hread
  unfold candidateUnderMask
  simp only [hfits, hskip, hread, Option.map_some, Option.getD_some, hcanon.tag, Bool.not_true,
    Bool.or_self, Bool.false_eq_true, ↓reduceIte]
  rfl

/-- A frame is read as what it is, among whatever else it is read as. -/
theorem readingOf_mem_inboundCandidates {datagram : Bytes} (hcanon : Canonical obf kind packet)
    (hframe : Frame P cfg kind packet datagram) :
    cfg.readingOf kind packet datagram ∈ cfg.inboundCandidates P obf datagram := by
  obtain ⟨pfx, suffix, hpfx, hnonce, hsuffix, rfl⟩ := hframe
  have hlong := hcanon.atLeast
  obtain ⟨hfour, hmasked⟩ := maskedLen_bounds kind hcanon.atLeast
  have hkind : kind ∈ PacketKind.all := by
    cases kind <;> decide
  unfold inboundCandidates
  split
  · next hoff =>
    have hunset : cfg.headerProtectionEnabled = false := by simpa using hoff
    have htag : ∀ message : Bytes, message = packet →
        List.zipWith (· ^^^ ·) (message.take 4) (List.replicate TYPE_MASK_SIZE 0) =
          packet.take 4 := by
      rintro _ rfl
      refine zipWith_zeros ?_
      rw [List.length_take]
      exact Nat.min_eq_left (Nat.le_trans (by decide) hlong)
    have hplain : cfg.headerProtection.masked P pfx packet (maskedLen kind packet.length) = packet := by
      have : cfg.headerProtection.isSet = false := hunset
      simp [HeaderProtectionKey.masked, this]
    refine List.mem_filterMap.mpr ⟨kind, hkind, ?_⟩
    rw [candidateUnderMask_eq hcanon hpfx (by simp) hsuffix (by simp) (htag _ hplain), readingOf,
      hunset]
  · next hon =>
    have hset : cfg.headerProtectionEnabled = true := by simpa using hon
    obtain ⟨mask, hmask, htag⟩ := HeaderProtectionKey.typeMask_unmasks (P := P)
      (k := cfg.headerProtection) hset (hnonce hset) hfour hmasked
    rw [hmask]
    refine List.mem_filterMap.mpr ⟨kind, hkind, ?_⟩
    rw [candidateUnderMask_eq hcanon hpfx (by simp) hsuffix (fun _ => hnonce hset) htag, readingOf,
      hset]

/-- The reading of a frame as what it is gives the message back. -/
theorem candidateMessage_readingOf {datagram : Bytes} (hcanon : Canonical obf kind packet)
    (hframe : Frame P cfg kind packet datagram) :
    cfg.candidateMessage P datagram (cfg.readingOf kind packet datagram) = some packet := by
  obtain ⟨pfx, suffix, hpfx, hnonce, hsuffix, rfl⟩ := hframe
  obtain ⟨hfour, hmasked⟩ := maskedLen_bounds kind hcanon.atLeast
  have hslice : ∀ message : Bytes, message.length = packet.length →
      slice (pfx ++ message ++ suffix) (cfg.inboundJunkSize kind)
        (cfg.inboundJunkSize kind + packet.length) = message := by
    intro message hlen
    rw [List.append_assoc, slice_append_right _ _ hpfx, Nat.add_sub_cancel_left, ← hlen,
      List.take_left]
  have hmessage := hslice _ (HeaderProtectionKey.length_masked P cfg.headerProtection pfx packet
    (maskedLen kind packet.length))
  have hlong : ¬ (pfx ++ cfg.headerProtection.masked P pfx packet (maskedLen kind packet.length) ++
      suffix).length < cfg.inboundJunkSize kind + packet.length := by
    simp only [List.length_append, hpfx, HeaderProtectionKey.length_masked]
    omega
  by_cases hset : cfg.headerProtectionEnabled = true
  · simp only [candidateMessage, readingOf, hlong, ↓reduceIte, hmessage, hset, Bool.not_true]
    exact HeaderProtectionKey.unmaskDetached_masked hset (hnonce hset) hfour hmasked
  · have hunset : cfg.headerProtection.isSet = false := Bool.eq_false_iff.mpr hset
    simp only [candidateMessage, readingOf, hlong, ↓reduceIte, hmessage, hset, Bool.not_false]
    rw [HeaderProtectionKey.masked, if_neg (Bool.eq_false_iff.mp hunset)]

variable (P cfg obf kind packet) in
/-- **Framing round trip.** What `prepend_outbound_with_trailer` sends for a canonical
message is read back, under the same configuration, as a message of that kind, byte for
byte. -/
theorem inboundCandidates_prependOutbound {wire : Bytes} (hcanon : Canonical obf kind packet)
    (hbuffer : buffer.take packet.length = packet)
    (hok : (cfg.prependOutboundWithTrailer P obf buffer packet.length room rng).1 = .ok wire) :
    ∃ candidate ∈ cfg.inboundCandidates P obf wire, candidate.kind = kind ∧
      cfg.candidateMessage P wire candidate = some packet := by
  have hframe := prependOutboundWithTrailer_ok buffer room rng hcanon hbuffer hok
  exact ⟨_, readingOf_mem_inboundCandidates hcanon hframe, rfl,
    candidateMessage_readingOf hcanon hframe⟩

/-- A keepalive under a header-protection key, with prefixes of twelve bytes. -/
theorem inboundCandidates_prependOutbound_keepalive :
    let cfg : AmneziaConfig :=
      { transportPacketJunkSize := 12, headerProtection := ⟨List.replicate 32 7⟩ }
    let packet : Bytes := leBytes 4 4 ++ List.replicate 28 0
    let buffer : Bytes := packet ++ List.replicate 12 0
    ∃ wire, (cfg.prependOutboundWithTrailer termPrimitives .default buffer packet.length none
        zeroRng).1 = .ok wire ∧
      ∃ candidate ∈ cfg.inboundCandidates termPrimitives .default wire,
        candidate.kind = .transportData ∧
        cfg.candidateMessage termPrimitives wire candidate = some packet := by
  intro cfg packet buffer
  have hcanon : Canonical .default .transportData packet :=
    { exact := by rintro _ ⟨⟩, atLeast := by decide, tag := by decide }
  obtain ⟨wire, hok⟩ := @prependOutboundWithTrailer_total termPrimitives cfg _ _ _ buffer
    none zeroRng hcanon rfl (by decide) (by decide)
  exact ⟨wire, hok, inboundCandidates_prependOutbound _ _ _ _ _ _ _ _ hcanon rfl hok⟩

end AmneziaConfig

end BoringTun
