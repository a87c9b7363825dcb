import BoringTun.Inbound
import Mathlib.Data.List.Nodup

/-!
Two classifiers of inbound messages, written apart: the candidate list, which looks for a
length and a masked tag at each kind's offset (`AmneziaConfig::inbound_candidates`), and the
strict parser of canonical messages (`Tunn::parse_incoming_packet`).

Both are measured against `Canonical`, the size and tag of a kind.

* `parseIncomingPacket_canonical`: the parser accepts a canonical message, as its kind;
* `candidateMessage_canonical`: a candidate's message is canonical for its kind;
* `inboundCandidates_parse`: so the parser accepts every candidate, and on a plain
  configuration the two classify the same datagrams alike.
-/

namespace BoringTun

open AmneziaConfig

variable {P : Primitives}

def Packet.kind : Packet P → PacketKind
  | .handshakeInit _ => .handshakeInit
  | .handshakeResponse _ => .handshakeResponse
  | .packetCookieReply _ => .cookieReply
  | .packetData _ => .transportData

/-- The fields of a message of a kind. -/
def parseAs (src : Bytes) : PacketKind → Packet P
  | .handshakeInit => .handshakeInit (parseHandshakeInit src)
  | .handshakeResponse => .handshakeResponse (parseHandshakeResponse src)
  | .cookieReply => .packetCookieReply (parsePacketCookieReply src)
  | .transportData => .packetData (parsePacketData src)

@[simp] theorem kind_parseAs (src : Bytes) (kind : PacketKind) :
    (parseAs src kind : Packet P).kind = kind := by
  cases kind <;> rfl

/-! ### The strict parser -/

section

variable {obf : ObfuscationRanges} {src : Bytes} {kind : PacketKind}

/-- The parser takes a message for what the framer does. -/
theorem parseIncomingPacket_eq : parseIncomingPacket (P := P) obf src =
    match classifyOutbound obf src with
    | none => .error .invalidPacket
    | some kind => .ok (parseAs src kind) := by
  unfold parseIncomingPacket classifyOutbound
  by_cases hfour : src.length < 4
  · rw [if_pos hfour, readTag, readTagMasked, if_pos hfour]
  · rw [if_neg hfour, readTag_eq (Nat.not_lt.mp hfour)]
    dsimp only
    split_ifs <;> rfl

/-- A canonical message is parsed as its kind. -/
theorem parseIncomingPacket_canonical (hcanon : Canonical obf kind src) :
    parseIncomingPacket obf src = .ok (parseAs src kind : Packet P) := by
  rw [parseIncomingPacket_eq, classifyOutbound_canonical hcanon]

/-- What is parsed is a canonical message of its kind. -/
theorem canonical_of_parseIncomingPacket {packet : Packet P}
    (hparse : parseIncomingPacket obf src = .ok packet) : Canonical obf packet.kind src := by
  rw [parseIncomingPacket_eq] at hparse
  split at hparse
  · cases hparse
  · next hclass =>
    cases hparse
    rw [kind_parseAs]
    exact canonical_of_classifyOutbound hclass

end

/-! ### The candidate list -/

namespace AmneziaConfig

variable {cfg : AmneziaConfig} {obf : ObfuscationRanges} {datagram : Bytes}

variable (cfg obf datagram) in
/-- What a candidate under a type mask says about the datagram. -/
structure Fits (mask : Bytes) (candidate : InboundCandidate) : Prop where
  offset : candidate.offset = cfg.inboundJunkSize candidate.kind
  exact : ∀ len, candidate.kind.exactLen = some len → candidate.messageLen = len
  atLeast : DATA_OVERHEAD_SZ ≤ candidate.messageLen
  inside : candidate.offset + candidate.messageLen ≤ datagram.length
  whole : cfg.randomTrailers = false → candidate.offset + candidate.messageLen = datagram.length
  nonce : candidate.isProtected = true → NONCE_SIZE ≤ candidate.offset
  tag : tagMatches obf candidate.kind (leNat (List.zipWith (· ^^^ ·)
    (slice datagram candidate.offset (candidate.offset + 4)) mask)) = true

/-- Whether a datagram has the length of a kind, and the length of the message in it. -/
theorem extent_spec {kind : PacketKind} {wireLen offset messageLen : Nat}
    (hextent : (match kind.exactLen with
      | some len =>
        if cfg.randomTrailers then (decide (wireLen ≥ offset + len), len)
        else (decide (wireLen = offset + len), len)
      | none => (decide (wireLen ≥ offset + DATA_OVERHEAD_SZ), wireLen - offset)) =
      (true, messageLen)) :
    (∀ len, kind.exactLen = some len → messageLen = len) ∧ DATA_OVERHEAD_SZ ≤ messageLen ∧
      offset + messageLen ≤ wireLen ∧
      (cfg.randomTrailers = false → offset + messageLen = wireLen) := by
  cases hlen : kind.exactLen with
  | none =>
    rw [hlen] at hextent
    simp only [Prod.mk.injEq, decide_eq_true_eq] at hextent
    obtain ⟨hfits, rfl⟩ := hextent
    have hwhole : offset + (wireLen - offset) = wireLen :=
      Nat.add_sub_cancel' (Nat.le_of_add_right_le hfits)
    exact ⟨nofun, Nat.le_sub_of_add_le' hfits, Nat.le_of_eq hwhole, fun _ => hwhole⟩
  | some len =>
    have hlong : DATA_OVERHEAD_SZ ≤ len := by
      cases kind <;> cases hlen <;> decide
    have hsized : messageLen = len ∧ offset + len ≤ wireLen ∧
        (cfg.randomTrailers = false → offset + len = wireLen) := by
      rw [hlen] at hextent
      dsimp only at hextent
      split at hextent
      · next htrailers =>
        simp only [Prod.mk.injEq, decide_eq_true_eq] at hextent
        refine ⟨hextent.2.symm, hextent.1, ?_⟩
        intro hoff
        rw [hoff] at htrailers
        cases htrailers
      · simp only [Prod.mk.injEq, decide_eq_true_eq] at hextent
        exact ⟨hextent.2.symm, Nat.le_of_eq hextent.1.symm, fun _ => hextent.1.symm⟩
    obtain ⟨rfl, hinside⟩ := hsized
    refine ⟨?_, hlong, hinside⟩
    rintro _ ⟨⟩
    rfl

theorem candidateUnderMask_fits {mask : Bytes} {isProtected : Bool} {kind : PacketKind}
    {candidate : InboundCandidate}
    (h : cfg.candidateUnderMask obf datagram mask isProtected kind = some candidate) :
    candidate.kind = kind ∧ candidate.isProtected = isProtected ∧
      Fits cfg obf datagram mask candidate := by
  unfold candidateUnderMask at h
  simp only [Option.ite_none_left_eq_some, Option.ite_none_right_eq_some, Option.some.injEq,
    Bool.or_eq_true, Bool.not_eq_true', Bool.and_eq_true, decide_eq_true_eq, not_or,
    Bool.not_eq_false, not_and, Nat.not_lt] at h
  obtain ⟨⟨hfits, hnonce⟩, htag, rfl⟩ := h
  obtain ⟨hexact, hlong, hinside, hwhole⟩ := @extent_spec cfg kind datagram.length
    (cfg.inboundJunkSize kind) _ (Prod.ext hfits rfl)
  refine ⟨rfl, rfl, rfl, hexact, hlong, hinside, hwhole, hnonce, ?_⟩
  have hread : ¬ datagram.length < cfg.inboundJunkSize kind + 4 := by
    refine Nat.not_lt.mpr (Nat.le_trans (Nat.add_le_add_left ?_ _) hinside)
    exact Nat.le_trans (by decide) hlong
  rw [readTagMasked, if_neg hread] at htag
  exact htag

variable (P cfg datagram) in
/-- The mask a datagram's tags are read under. -/
inductive Masked : Bytes → Bool → Prop
  | plain (hoff : cfg.headerProtectionEnabled = false) :
    Masked (List.replicate TYPE_MASK_SIZE 0) false
  | keyed {mask : Bytes} (hon : cfg.headerProtectionEnabled = true)
    (hmask : cfg.headerProtection.typeMask P datagram = some mask) : Masked mask true

theorem mem_inboundCandidates {candidate : InboundCandidate}
    (hmem : candidate ∈ cfg.inboundCandidates P obf datagram) :
    ∃ mask isProtected, Masked P cfg datagram mask isProtected ∧
      candidate ∈ cfg.candidatesUnderMask obf datagram mask isProtected := by
  unfold inboundCandidates at hmem
  split at hmem
  · next hoff => exact ⟨_, _, .plain (by simpa using hoff), hmem⟩
  · next hon =>
    split at hmem
    · next mask hmask => exact ⟨_, _, .keyed (by simpa using hon) hmask, hmem⟩
    · cases hmem

/-- A candidate yields a canonical message of its kind. -/
theorem candidateMessage_canonical {candidate : InboundCandidate}
    (hmem : candidate ∈ cfg.inboundCandidates P obf datagram) :
    ∃ message, cfg.candidateMessage P datagram candidate = some message ∧
      Canonical obf candidate.kind message := by
  obtain ⟨mask, isProtected, hmasked, hmem⟩ := mem_inboundCandidates hmem
  obtain ⟨kind, -, hcandidate⟩ := List.mem_filterMap.mp hmem
  obtain ⟨rfl, rfl, hfits⟩ := candidateUnderMask_fits hcandidate
  have hlong := hfits.atLeast
  have hlength : (slice datagram candidate.offset
      (candidate.offset + candidate.messageLen)).length = candidate.messageLen := by
    rw [length_slice hfits.inside, Nat.add_sub_cancel_left]
  have htake : (slice datagram candidate.offset (candidate.offset + candidate.messageLen)).take 4 =
      slice datagram candidate.offset (candidate.offset + 4) :=
    take_slice (Nat.add_le_add_left (Nat.le_trans (by decide) hlong) _)
  have htag := hfits.tag
  have hnonce := hfits.nonce
  unfold candidateMessage
  rw [if_neg (Nat.not_lt.mpr hfits.inside)]
  rw [← htake] at htag
  generalize slice datagram candidate.offset (candidate.offset + candidate.messageLen) = message
    at hlength htag
  have hfour : (message.take 4).length = 4 := by
    rw [List.length_take, hlength]
    exact Nat.min_eq_left (Nat.le_trans (by decide) hlong)
  generalize candidate.isProtected = isProtected at hmasked hnonce
  cases hmasked with
  | plain hoff =>
    refine ⟨message, rfl, ?_, ?_, ?_⟩
    · rw [hlength]
      exact hfits.exact
    · rw [hlength]
      exact hlong
    · rw [zipWith_zeros hfour] at htag
      exact htag
  | keyed hon hmask =>
    obtain ⟨hmin, hmax⟩ := maskedLen_bounds candidate.kind hlong
    have hdatagram : NONCE_SIZE ≤ datagram.length :=
      Nat.le_trans (hnonce rfl) (Nat.le_of_add_right_le hfits.inside)
    have hmax : maskedLen candidate.kind candidate.messageLen ≤ message.length := by
      rw [hlength]
      exact hmax
    refine ⟨_, HeaderProtectionKey.unmaskDetached_eq hon hdatagram hmin hmax, ?_, ?_, ?_⟩
    · rw [length_maskFirst, hlength]
      exact hfits.exact
    · rw [length_maskFirst, hlength]
      exact hlong
    · have hread := HeaderProtectionKey.zipWith_typeMask hmask hmin hmax
      rw [TYPE_MASK_SIZE] at hread
      rw [← hread]
      exact htag

/-- A candidate is read as a packet of its kind. -/
theorem reading_candidate {candidate : InboundCandidate}
    (hmem : candidate ∈ cfg.inboundCandidates P obf datagram) :
    ∃ message, cfg.candidateMessage P datagram candidate = some message ∧
      parseIncomingPacket obf message = .ok (parseAs message candidate.kind : Packet P) ∧
      Inbound.reading cfg obf datagram candidate =
        .ok (message, (parseAs message candidate.kind : Packet P)) := by
  obtain ⟨message, hmessage, hcanon⟩ := candidateMessage_canonical hmem
  have hparse := parseIncomingPacket_canonical (P := P) hcanon
  refine ⟨message, hmessage, hparse, ?_⟩
  simp only [Inbound.reading, hmessage, hparse]

/-- The candidates of a datagram are of different kinds, in trial order. -/
theorem kinds_candidatesUnderMask (mask : Bytes) (isProtected : Bool) :
    ((cfg.candidatesUnderMask obf datagram mask isProtected).map (·.kind)).Sublist
      PacketKind.all := by
  have hkinds : ∀ kinds : List PacketKind, (kinds.filterMap
      (cfg.candidateUnderMask obf datagram mask isProtected)).map (·.kind) =
      kinds.filter fun kind => (cfg.candidateUnderMask obf datagram mask isProtected kind).isSome := by
    intro kinds
    induction kinds with
    | nil => rfl
    | cons kind kinds ih =>
      cases hcandidate : cfg.candidateUnderMask obf datagram mask isProtected kind with
      | none => simp [hcandidate, ih]
      | some candidate => simp [hcandidate, ih, (candidateUnderMask_fits hcandidate).1]
  rw [candidatesUnderMask, hkinds]
  exact List.filter_sublist

variable (P cfg obf datagram) in
theorem kinds_inboundCandidates :
    ((cfg.inboundCandidates P obf datagram).map (·.kind)).Sublist PacketKind.all := by
  unfold inboundCandidates
  split
  · exact kinds_candidatesUnderMask _ _
  · split
    · exact kinds_candidatesUnderMask _ _
    · exact List.nil_sublist _

variable (P cfg obf datagram) in
theorem nodup_inboundCandidates :
    ((cfg.inboundCandidates P obf datagram).map (·.kind)).Nodup :=
  (kinds_inboundCandidates P cfg obf datagram).nodup (by decide)

theorem inboundCandidates_kind {candidate other : InboundCandidate}
    (hmem : candidate ∈ cfg.inboundCandidates P obf datagram)
    (hother : other ∈ cfg.inboundCandidates P obf datagram) (hkind : other.kind = candidate.kind) :
    other = candidate :=
  List.inj_on_of_nodup_map (nodup_inboundCandidates P cfg obf datagram) hother hmem hkind

/-! ### The vanilla wire format -/

/-- No prefix, no key and no trailers. -/
structure Plain (cfg : AmneziaConfig) : Prop where
  junk : ∀ kind, cfg.inboundJunkSize kind = 0
  unprotected : cfg.headerProtectionEnabled = false
  exactSizes : cfg.randomTrailers = false

namespace Plain

variable (hplain : cfg.Plain)

include hplain

/-- A message is its own frame. -/
theorem frame (kind : PacketKind) (packet : Bytes) : Frame P cfg kind packet packet := by
  refine ⟨[], [], (hplain.junk kind).symm, ?_, .inl rfl, ?_⟩
  · intro hset
    rw [hplain.unprotected] at hset
    cases hset
  · have hunset : cfg.headerProtection.isSet = false := hplain.unprotected
    simp [HeaderProtectionKey.masked, hunset]

/-- A candidate stands for the whole datagram. -/
theorem candidateMessage_eq {candidate : InboundCandidate}
    (hmem : candidate ∈ cfg.inboundCandidates P obf datagram) :
    cfg.candidateMessage P datagram candidate = some datagram := by
  obtain ⟨mask, isProtected, hmasked, hmem⟩ := mem_inboundCandidates hmem
  obtain ⟨kind, -, hcandidate⟩ := List.mem_filterMap.mp hmem
  obtain ⟨rfl, rfl, hfits⟩ := candidateUnderMask_fits hcandidate
  have hwhole := hfits.whole hplain.exactSizes
  have hunprotected : candidate.isProtected = false := by
    generalize candidate.isProtected = isProtected at hmasked
    cases hmasked with
    | plain hoff => rfl
    | keyed hon hmask =>
      rw [hplain.unprotected] at hon
      cases hon
  unfold candidateMessage
  rw [if_neg (Nat.not_lt.mpr hfits.inside), hwhole, hfits.offset, hplain.junk, hunprotected]
  simp [slice]

/-- There is one candidate for a canonical message and none for anything else. -/
theorem inboundCandidates_eq {candidate : InboundCandidate}
    (hmem : candidate ∈ cfg.inboundCandidates P obf datagram) :
    cfg.inboundCandidates P obf datagram = [candidate] := by
  have hcanonical : ∀ other ∈ cfg.inboundCandidates P obf datagram,
      Canonical obf other.kind datagram := by
    intro other hother
    obtain ⟨message, hmessage, hcanon⟩ := candidateMessage_canonical hother
    rw [hplain.candidateMessage_eq hother] at hmessage
    cases hmessage
    exact hcanon
  have hkinds : ∀ other ∈ cfg.inboundCandidates P obf datagram, other.kind = candidate.kind := by
    intro other hother
    exact tagMatches_unique (hcanonical _ hmem).tag (hcanonical _ hother).tag
  have hnodup := nodup_inboundCandidates P cfg obf datagram
  generalize cfg.inboundCandidates P obf datagram = candidates at hmem hkinds hnodup
  cases candidates with
  | nil => cases hmem
  | cons first rest =>
    cases rest with
    | nil => rw [List.mem_singleton.mp hmem]
    | cons second rest =>
      have hsame : first.kind = second.kind := by
        rw [hkinds first (by simp), hkinds second (by simp)]
      rw [List.map_cons, List.nodup_cons] at hnodup
      exact absurd (by simp [hsame]) hnodup.1

/-- There is a candidate for a datagram exactly when the strict parser accepts it. -/
theorem inboundCandidates_of_parse {packet : Packet P}
    (hparse : parseIncomingPacket obf datagram = .ok packet) :
    ∃ candidate, cfg.inboundCandidates P obf datagram = [candidate] ∧
      candidate.kind = packet.kind ∧ cfg.candidateMessage P datagram candidate = some datagram := by
  have hmem := readingOf_mem_inboundCandidates (canonical_of_parseIncomingPacket hparse)
    (hplain.frame (P := P) packet.kind datagram)
  exact ⟨_, hplain.inboundCandidates_eq hmem, rfl, hplain.candidateMessage_eq hmem⟩

theorem parse_of_inboundCandidates (hne : cfg.inboundCandidates P obf datagram ≠ []) :
    ∃ packet : Packet P, parseIncomingPacket obf datagram = .ok packet := by
  obtain ⟨candidate, hmem⟩ := List.exists_mem_of_ne_nil _ hne
  obtain ⟨message, hmessage, hcanon⟩ := candidateMessage_canonical hmem
  rw [hplain.candidateMessage_eq hmem] at hmessage
  cases hmessage
  exact ⟨_, parseIncomingPacket_canonical hcanon⟩

end Plain

variable (P) in
/-- **The classifiers agree.** The strict parser accepts the message of every candidate as
the candidate's kind, so no reading is refused before its gate; and in the vanilla wire format
a datagram has one candidate, itself, or none, as the parser accepts it or not. -/
theorem inboundCandidates_parse (cfg : AmneziaConfig) (obf : ObfuscationRanges)
    (datagram : Bytes) :
    (∀ candidate ∈ cfg.inboundCandidates P obf datagram, ∃ message, ∃ packet : Packet P,
      cfg.candidateMessage P datagram candidate = some message ∧
      parseIncomingPacket obf message = .ok packet ∧ packet.kind = candidate.kind ∧
      Inbound.reading cfg obf datagram candidate = .ok (message, packet)) ∧
    (cfg.Plain →
      (cfg.inboundCandidates P obf datagram ≠ [] ↔
        ∃ packet : Packet P, parseIncomingPacket obf datagram = .ok packet) ∧
      ∀ packet : Packet P, parseIncomingPacket obf datagram = .ok packet →
        ∃ candidate, cfg.inboundCandidates P obf datagram = [candidate] ∧
          candidate.kind = packet.kind ∧
          cfg.candidateMessage P datagram candidate = some datagram) := by
  constructor
  · intro candidate hmem
    obtain ⟨message, hmessage, hparse, hread⟩ := reading_candidate hmem
    exact ⟨message, _, hmessage, hparse, kind_parseAs message candidate.kind, hread⟩
  · intro hplain
    refine ⟨⟨hplain.parse_of_inboundCandidates, ?_⟩, ?_⟩
    · rintro ⟨packet, hparse⟩
      obtain ⟨candidate, hone, -⟩ := hplain.inboundCandidates_of_parse hparse
      rw [hone]
      exact List.cons_ne_nil _ _
    · intro packet hparse
      exact hplain.inboundCandidates_of_parse hparse

/-- A keepalive in the vanilla format. -/
theorem inboundCandidates_parse_keepalive :
    let packet : Bytes := leBytes 4 4 ++ List.replicate 28 0
    let cfg : AmneziaConfig := {}
    cfg.Plain ∧ ∃ candidate, cfg.inboundCandidates termPrimitives .default packet = [candidate] ∧
      candidate.kind = .transportData := by
  intro packet cfg
  have hplain : cfg.Plain := ⟨by rintro (_ | _ | _ | _) <;> rfl, rfl, rfl⟩
  obtain ⟨-, hagree⟩ := inboundCandidates_parse termPrimitives cfg .default packet
  obtain ⟨-, hone⟩ := hagree hplain
  have hcanon : Canonical .default .transportData packet :=
    { exact := by rintro _ ⟨⟩, atLeast := by decide, tag := by decide }
  obtain ⟨candidate, hlist, hkind, -⟩ := hone _ (parseIncomingPacket_canonical hcanon)
  exact ⟨hplain, candidate, hlist, hkind⟩

end AmneziaConfig

end BoringTun
