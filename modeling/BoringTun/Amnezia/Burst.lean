import BoringTun.Amnezia.Framing
import BoringTun.Budget
import BoringTun.Imitation.Generate
import BoringTun.Quic.ClientHello

/-!
What precedes an initiation on the wire, and what an answer may add to it
(`noise/amnezia.rs`): the pre-handshake burst, the imitation a tunnel resolves to, the
room of a trailer and the size of a cookie reply.

* `resolveImitation_nonce`: an accepted configuration has room for the nonce under every
  imitation it resolves to;
* `Frame.of_resolved`: resolving changes what a prefix looks like, not how it is read.
-/

namespace BoringTun

def DNS_JUNK_SIZE : Nat × Nat := (50, 200)
def QUIC_JUNK_SIZE : Nat × Nat := (1200, 1252)
def SIP_JUNK_SIZE : Nat × Nat := (200, 1200)
def STUN_JUNK_SIZE : Nat × Nat := (28, 100)

namespace TrailerRoom

/-- An initiation or a response: drawn against the tunnel's UDP window. -/
def window (udpWindow : Nat) : TrailerRoom := ⟨udpWindow, 2 ^ 64 - 1⟩

/-- A cookie reply, never larger than the datagram that provoked it. -/
def cookieReply (requestLen : Nat) : TrailerRoom := ⟨DEFAULT_UDP_WINDOW, requestLen⟩

def within (room : TrailerRoom) (maxWire : Nat) : TrailerRoom :=
  { room with maxWire := min room.maxWire maxWire }

end TrailerRoom

/-- What a live configuration change does to a burst in flight. -/
inductive PendingBurstChange where
  | keep | restart
  deriving DecidableEq

def replyAmplifies (requestLen replyLen : Nat) : Bool := replyLen > requestLen

/-- A generated host name, for an imitation that needs one and has none configured. -/
def randomImitationDomain : Draw Bytes := do
  let word ← Draw.word
  let letters ← Draw.times (7 + word % 10) do
    let word ← Draw.word
    return UInt8.ofNat (97 + word % 26)
  let tld ← Draw.oneOf (["com", "net", "org", "io"].map ascii) []
  return letters ++ ascii "." ++ tld

/-- The browser a QUIC imitation takes its hello from; curl when none is named. -/
def AmneziaImitationBrowser.toQuic : AmneziaImitationBrowser → Quic.BrowserProfile
  | .default | .curl => .curl
  | .chrome => .chrome
  | .firefox => .firefox
  | .random => .random

namespace AmneziaConfig

variable (cfg : AmneziaConfig)

/-! ### Imitation -/

/-- Resolve the outbound imitation of an `Auto` configuration. A protocol header
protection would refuse falls back to random prefixes. -/
def resolveImitation (protocol : AmneziaImitationProtocol) : AmneziaConfig :=
  if cfg.imitation.protocol ≠ .auto then cfg
  else
    let protocol := if protocol = .auto then .none else protocol
    let resolved := { cfg with imitation := { protocol := protocol } }
    match resolved.checkHeaderProtectionNonce with
    | .ok () => resolved
    | .error _ => { resolved with imitation := {} }

def hasImitationSequence : Bool :=
  match cfg.imitation.protocol with
  | .none | .auto => false
  | _ => true

def emitsPreHandshake : Bool :=
  !cfg.suppressPreHandshake && cfg.imitation.protocol ≠ .auto &&
    (cfg.preHandshakeJunk.isEnabled || cfg.hasImitationSequence)

/-- The configured host, or a generated one. -/
def imitationHost : Draw Bytes :=
  match cfg.imitation.domain with
  | some domain => return domain
  | none => randomImitationDomain

/-- The delays before the datagrams of a protocol, in milliseconds; 0 past the list. -/
def imitationDelaysMs : AmneziaImitationProtocol → List Nat
  | .dns => [0, 0, 15]
  | .sip => [0, 20]
  | .stun => [0, 15]
  | _ => []

/-- The standalone datagrams of the imitated protocol. -/
def coverDatagrams (P : Primitives) : Draw (List Bytes) :=
  match cfg.imitation.protocol with
  | .dns => do
    let host ← cfg.imitationHost
    Imitation.Dns.generate host
  | .sip => do
    let host ← cfg.imitationHost
    Imitation.Sip.generate host
  | .stun => Imitation.Stun.generate P
  | .quic => do
    let host ← cfg.imitationHost
    Quic.generateClientInitials P cfg.imitation.browser.toQuic host
  | .none | .auto => return []

/-- Each datagram with the delay before it in nanoseconds. -/
def preHandshakeImitationDatagrams (P : Primitives) (rng : Rng) : List (Nat × Bytes) × Rng :=
  let (datagrams, rng) := cfg.coverDatagrams P rng
  (datagrams.mapIdx fun i datagram =>
    ((imitationDelaysMs cfg.imitation.protocol).getD i 0 * 10 ^ 6, datagram), rng)

theorem coverDatagrams_ne_nil (P : Primitives) :
    (cfg.coverDatagrams P).Yields fun datagrams => ∀ d ∈ datagrams, d ≠ [] := by
  unfold coverDatagrams
  split
  · exact .last fun host => Imitation.Dns.generate_ne_nil host
  · exact .last fun host => Imitation.Sip.generate_ne_nil host
  · exact Imitation.Stun.generate_ne_nil P
  · exact .last fun host => Quic.generateClientInitials_ne_nil P _ host
  · exact .pure (List.forall_mem_nil _)
  · exact .pure (List.forall_mem_nil _)

/-- Whatever is imitated, no datagram of the burst is empty. -/
theorem preHandshakeImitationDatagrams_ne_nil (P : Primitives) (rng : Rng) :
    ∀ entry ∈ (cfg.preHandshakeImitationDatagrams P rng).1, entry.2 ≠ [] := by
  intro entry hentry
  obtain ⟨i, hi, rfl⟩ := List.mem_mapIdx.mp hentry
  exact cfg.coverDatagrams_ne_nil P rng _ (List.getElem_mem hi)

theorem coverDatagrams_length (P : Primitives) :
    (cfg.coverDatagrams P).Yields fun datagrams =>
      datagrams.length ≤ 3 ∧ (cfg.hasImitationSequence = true → 0 < datagrams.length) := by
  unfold coverDatagrams hasImitationSequence
  cases cfg.imitation.protocol with
  | none | auto => exact .pure ⟨Nat.zero_le _, nofun⟩
  | dns =>
    refine .last fun host rng => ?_
    obtain ⟨hpos, hle⟩ := Imitation.Dns.generate_length host rng
    exact ⟨hle, fun _ => hpos⟩
  | sip =>
    refine .last fun host rng => ?_
    obtain ⟨hpos, hle⟩ := Imitation.Sip.generate_length host rng
    exact ⟨hle, fun _ => hpos⟩
  | stun =>
    intro rng
    obtain ⟨hpos, hle⟩ := Imitation.Stun.generate_length P rng
    exact ⟨hle, fun _ => hpos⟩
  | quic =>
    refine .last fun host rng => ?_
    obtain ⟨hpos, hle⟩ := Quic.generateClientInitials_length P _ host rng
    exact ⟨hle, fun _ => hpos⟩

/-- A protocol that is imitated has a sequence of its own, of at most three datagrams. -/
theorem preHandshakeImitationDatagrams_length (P : Primitives) (rng : Rng) :
    (cfg.preHandshakeImitationDatagrams P rng).1.length ≤ 3 ∧
      (cfg.hasImitationSequence = true →
        0 < (cfg.preHandshakeImitationDatagrams P rng).1.length) := by
  have hlength : (cfg.preHandshakeImitationDatagrams P rng).1.length =
      (cfg.coverDatagrams P rng).1.length := List.length_mapIdx
  rw [hlength]
  exact cfg.coverDatagrams_length P rng

/-! ### Junk -/

/-- A burst captures its imitation datagrams and its junk count when it is built. -/
def pendingBurstChange (next : AmneziaConfig) : PendingBurstChange :=
  if cfg.preHandshakeJunk.packetCount ≠ next.preHandshakeJunk.packetCount ∨
      cfg.imitation ≠ next.imitation ∨ cfg.suppressPreHandshake ≠ next.suppressPreHandshake then
    .restart
  else .keep

/-- The inclusive range the size of a junk datagram is drawn from. -/
def preHandshakeJunkSizeRange : Nat × Nat :=
  match cfg.imitation.protocol with
  | .none | .auto => (cfg.preHandshakeJunk.packetSizeMin, cfg.preHandshakeJunk.packetSizeMax)
  | .dns => DNS_JUNK_SIZE
  | .quic => QUIC_JUNK_SIZE
  | .sip => SIP_JUNK_SIZE
  | .stun => STUN_JUNK_SIZE

def preHandshakeJunkRangeWithin (budget : OutputBudget) : Result (Nat × Nat) :=
  let protocolShaped := cfg.imitation.protocol ≠ .none
  let kind : ControlOutput := if protocolShaped then .other else .ordinaryJunk
  Budget.junkRange cfg.preHandshakeJunkSizeRange protocolShaped (budget.controlFor kind)

def preHandshakeJunkMaxSizeIn (range : Nat × Nat) : Nat :=
  if !cfg.preHandshakeJunk.isEnabled then 0 else max range.1 range.2

def preHandshakeFiller : Filler Unit :=
  match cfg.imitation.protocol with
  | .none | .auto => fillRandom
  | .dns => fillDns 0 cfg.imitation.domain
  | .quic => fillQuicInitial
  | .sip => fillSip cfg.imitation.domain
  | .stun => fillStun

theorem preHandshakeFiller_keeps (n : Nat) :
    Filler.Keeps n cfg.preHandshakeFiller fun _ => True := by
  unfold preHandshakeFiller
  split
  · exact Filler.Yields.keeps fun _ => fillRandom_yields
  · exact Filler.Yields.keeps fun _ => fillRandom_yields
  · exact Filler.Yields.keeps fun _ => fillDns_yields _ _
  · exact Filler.Yields.keeps fun _ => fillQuicInitial_yields
  · exact Filler.Yields.keeps fun _ => fillSip_yields _
  · exact Filler.Yields.keeps fun _ => fillStun_yields

def fillPreHandshakeJunkIn (buffer : Bytes) (range : Nat × Nat) (rng : Rng) :
    Result Bytes × Rng :=
  if !cfg.preHandshakeJunk.isEnabled then (.ok [], rng)
  else
    let (size, rng) := randomUsizeInclusive range.1 range.2 rng
    if buffer.length < size then (.error .destinationBufferTooSmall, rng)
    else
      let (packet, rng) := cfg.preHandshakeFiller.exec cfg.preHandshakeFiller_keeps
        (buffer.take size) rng
      (.ok packet, rng)

/-- Junk is drawn from a range of non-empty datagrams that the budget of its kind allows. -/
theorem preHandshakeJunkRangeWithin_ok {budget : OutputBudget} {range : Nat × Nat}
    (henabled : 0 < cfg.preHandshakeJunk.packetCount)
    (hrange : cfg.preHandshakeJunkRangeWithin budget = .ok range) :
    0 < range.1 ∧ range.1 ≤ range.2 ∧
      let control := budget.controlFor
        (if cfg.imitation.protocol ≠ .none then .other else .ordinaryJunk)
      (control ≠ 0 → range.2 ≤ control) := by
  have hsizes : 0 < cfg.preHandshakeJunkSizeRange.1 ∧
      cfg.preHandshakeJunkSizeRange.1 ≤ cfg.preHandshakeJunkSizeRange.2 := by
    obtain ⟨hpos, hle, -⟩ := cfg.preHandshakeJunk.sized henabled
    unfold preHandshakeJunkSizeRange
    split
    · exact ⟨hpos, hle⟩
    · exact ⟨hpos, hle⟩
    · decide
    · decide
    · decide
    · decide
  obtain ⟨hpos, hle⟩ := hsizes
  unfold preHandshakeJunkRangeWithin Budget.junkRange at hrange
  dsimp only at hrange ⊢
  generalize budget.controlFor _ = control at hrange ⊢
  split at hrange
  · next hzero =>
    cases hrange
    exact ⟨hpos, hle, fun hne => absurd hzero hne⟩
  · split at hrange
    · cases hrange
      dsimp only
      exact ⟨by omega, by omega, fun _ => Nat.min_le_right _ _⟩
    · split at hrange
      · cases hrange
      · next hfits =>
        cases hrange
        exact ⟨hpos, Nat.not_lt.mp hfits, fun _ => Nat.min_le_right _ _⟩

theorem length_fillPreHandshakeJunkIn {buffer packet : Bytes} {range : Nat × Nat} {rng : Rng}
    (henabled : 0 < cfg.preHandshakeJunk.packetCount) (hrange : range.1 ≤ range.2)
    (hok : (cfg.fillPreHandshakeJunkIn buffer range rng).1 = .ok packet) :
    range.1 ≤ packet.length ∧ packet.length ≤ range.2 ∧ packet.length ≤ buffer.length := by
  have hdraw := randomUsizeInclusive_mem hrange rng
  unfold fillPreHandshakeJunkIn at hok
  rw [if_neg (by simp [AmneziaPreHandshakeJunk.isEnabled, henabled])] at hok
  dsimp only at hok
  split at hok
  · cases hok
  · next hfits =>
    cases hok
    rw [Filler.length_exec, List.length_take]
    omega

theorem preHandshakeJunkRangeWithin_unbounded :
    cfg.preHandshakeJunkRangeWithin .UNBOUNDED = .ok cfg.preHandshakeJunkSizeRange := by
  have hcontrol (kind : ControlOutput) : OutputBudget.UNBOUNDED.controlFor kind = 0 := by
    cases kind <;> rfl
  unfold preHandshakeJunkRangeWithin Budget.junkRange
  dsimp only
  rw [hcontrol, if_pos rfl]

theorem preHandshakeJunkRangeWithin_error {budget : OutputBudget} {e : WireGuardError}
    (h : cfg.preHandshakeJunkRangeWithin budget = .error e) : e = .outputBudgetExceeded := by
  unfold preHandshakeJunkRangeWithin Budget.junkRange at h
  dsimp only at h
  generalize budget.controlFor _ = control at h
  split at h
  · cases h
  · split at h
    · cases h
    · split at h
      · cases h
        rfl
      · cases h

/-- A buffer for the largest datagram of the range holds the one that is drawn. -/
theorem fillPreHandshakeJunkIn_total {buffer : Bytes} {budget : OutputBudget} {range : Nat × Nat}
    (hrange : cfg.preHandshakeJunkRangeWithin budget = .ok range)
    (hroom : cfg.preHandshakeJunkMaxSizeIn range ≤ buffer.length) (rng : Rng) :
    ∃ packet, (cfg.fillPreHandshakeJunkIn buffer range rng).1 = .ok packet := by
  unfold preHandshakeJunkMaxSizeIn at hroom
  unfold fillPreHandshakeJunkIn
  split
  · exact ⟨[], rfl⟩
  · next henabled =>
    rw [if_neg henabled] at hroom
    have hcount : 0 < cfg.preHandshakeJunk.packetCount := by
      simpa [AmneziaPreHandshakeJunk.isEnabled, Nat.pos_iff_ne_zero] using henabled
    obtain ⟨-, hle, -⟩ := cfg.preHandshakeJunkRangeWithin_ok hcount hrange
    have hdraw := randomUsizeInclusive_mem hle rng
    dsimp only
    rw [if_neg (by omega)]
    exact ⟨_, rfl⟩

/-! ### Cookie replies -/

def cookieReplyLen (cookieLen : Nat) : Nat := cookieLen + cfg.outboundJunkSize .cookieReply

def cookieReplyWouldAmplify (cookieLen requestLen : Nat) : Bool :=
  replyAmplifies requestLen (cfg.cookieReplyLen cookieLen)

/-! ### Resolving -/

/-- Two configurations that frame alike: they differ in the imitation at most. -/
def FramesAlike (a b : AmneziaConfig) : Prop := ∃ imitation, b = { a with imitation }

theorem resolveImitation_framesAlike (protocol : AmneziaImitationProtocol) :
    FramesAlike cfg (cfg.resolveImitation protocol) := by
  unfold resolveImitation
  split
  · exact ⟨cfg.imitation, rfl⟩
  · dsimp only
    split
    · exact ⟨_, rfl⟩
    · exact ⟨_, rfl⟩

/-- Resolving leaves every prefix its size. -/
@[simp] theorem resolveImitation_outboundJunkSize (protocol : AmneziaImitationProtocol)
    (kind : PacketKind) :
    (cfg.resolveImitation protocol).outboundJunkSize kind = cfg.outboundJunkSize kind := by
  obtain ⟨imitation, hresolved⟩ := cfg.resolveImitation_framesAlike protocol
  rw [hresolved]
  cases kind <;> rfl

variable {cfg} in
/-- Every prefix of an accepted configuration holds the nonce, whatever it resolves to. -/
theorem resolveImitation_nonce (hcheck : cfg.checkHeaderProtectionNonce = .ok ())
    (protocol : AmneziaImitationProtocol) (kind : PacketKind)
    (hkey : (cfg.resolveImitation protocol).headerProtectionEnabled = true) :
    NONCE_SIZE ≤ (cfg.resolveImitation protocol).outboundJunkSize kind := by
  obtain ⟨imitation, hresolved⟩ := cfg.resolveImitation_framesAlike protocol
  rw [hresolved] at hkey
  rw [resolveImitation_outboundJunkSize]
  exact nonce_le_of_check hcheck hkey kind

variable {P : Primitives} {cfg : AmneziaConfig} in
/-- A frame under a resolved imitation is a frame of the configuration. -/
theorem Frame.of_resolved {protocol : AmneziaImitationProtocol} {kind : PacketKind}
    {packet datagram : Bytes} (h : Frame P (cfg.resolveImitation protocol) kind packet datagram) :
    Frame P cfg kind packet datagram := by
  obtain ⟨imitation, hresolved⟩ := cfg.resolveImitation_framesAlike protocol
  rw [hresolved] at h
  obtain ⟨pfx, suffix, hpfx, hrest⟩ := h
  refine ⟨pfx, suffix, ?_, hrest⟩
  cases kind <;> exact hpfx

end AmneziaConfig

end BoringTun
