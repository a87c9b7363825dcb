import BoringTun.Amnezia.Imitation
import BoringTun.Errors
import BoringTun.Lib.WordStream
import BoringTun.Packet

/-!
The AmneziaWG configuration (`noise/amnezia.rs`) and the sizes that follow from it.

* `AmneziaConfig`: prefix sizes S1-S4, imitation, header-protection key, padding
  ranges, RandomTrailers. Sizes and counts are `Nat`; their `u16` and `u32` ranges
  only matter where the source converts them;
* `checkHeaderProtectionNonce`: the one rule every door to a tunnel applies;
* `contentPaddingForFrame`: how many zero bytes a transport plaintext grows by.
-/

namespace BoringTun

def NONCE_SIZE : Nat := 12
def TYPE_MASK_SIZE : Nat := 4
def MAX_SENDABLE_DATAGRAM : Nat := 65535 - 20 - 8
def PADDING_MULTIPLE : Nat := 16
/-- A transport message's header: type, receiver index, counter. -/
def DATA_OFFSET_SZ : Nat := 16
/-- The shortest prefix the SIP filler writes a request line into. -/
def SIP_REQUEST_LINE_MIN : Nat := 31
/-- The UDP window a tunnel starts from. -/
def DEFAULT_UDP_WINDOW : Nat := 500

def DEFAULT_JUNK_PACKET_SIZE_MIN : Nat := 50
def DEFAULT_JUNK_PACKET_SIZE_MAX : Nat := 1000
def MAX_JUNK_PACKET_COUNT : Nat := 128
def MAX_JUNK_PACKET_SIZE : Nat := 1280
def MAX_JUNK_PACKET_DELAY_MS : Nat := 200

/-- The junk datagrams before an initiation. The fields are written by `new` and the default
only, so where there are any their sizes are a range of non-empty datagrams. -/
structure AmneziaPreHandshakeJunk where
  packetCount : Nat := 0
  packetSizeMin : Nat := 0
  packetSizeMax : Nat := 0
  packetDelayMs : Nat := 0
  sized : 0 < packetCount →
    0 < packetSizeMin ∧ packetSizeMin ≤ packetSizeMax ∧ packetSizeMax ≤ MAX_JUNK_PACKET_SIZE := by
    decide
  deriving DecidableEq

namespace AmneziaPreHandshakeJunk

protected def default : AmneziaPreHandshakeJunk := {}

/-- An unusable size range is replaced by the default one, a count or a delay past its limit
by 0. -/
def normalizedSizes (packetCount packetSizeMin packetSizeMax : Nat) : Nat × Nat :=
  if packetCount = 0 then (packetSizeMin, packetSizeMax)
  else if packetSizeMin = 0 ∧ packetSizeMax = 0 then
    (DEFAULT_JUNK_PACKET_SIZE_MIN, DEFAULT_JUNK_PACKET_SIZE_MAX)
  else if packetSizeMin > 0 ∧ packetSizeMin ≤ packetSizeMax ∧
      packetSizeMax ≤ MAX_JUNK_PACKET_SIZE then
    (packetSizeMin, packetSizeMax)
  else (DEFAULT_JUNK_PACKET_SIZE_MIN, DEFAULT_JUNK_PACKET_SIZE_MAX)

theorem normalizedSizes_sized {packetCount packetSizeMin packetSizeMax : Nat}
    (h : 0 < packetCount) :
    0 < (normalizedSizes packetCount packetSizeMin packetSizeMax).1 ∧
      (normalizedSizes packetCount packetSizeMin packetSizeMax).1 ≤
        (normalizedSizes packetCount packetSizeMin packetSizeMax).2 ∧
      (normalizedSizes packetCount packetSizeMin packetSizeMax).2 ≤ MAX_JUNK_PACKET_SIZE := by
  rw [normalizedSizes, if_neg (Nat.ne_of_gt h)]
  split
  · decide
  · split
    · assumption
    · decide

def new (packetCount packetSizeMin packetSizeMax delayMs : Nat) : AmneziaPreHandshakeJunk :=
  let packetCount := if packetCount ≤ MAX_JUNK_PACKET_COUNT then packetCount else 0
  { packetCount
    packetSizeMin := (normalizedSizes packetCount packetSizeMin packetSizeMax).1
    packetSizeMax := (normalizedSizes packetCount packetSizeMin packetSizeMax).2
    packetDelayMs := if delayMs ≤ MAX_JUNK_PACKET_DELAY_MS then delayMs else 0
    sized := normalizedSizes_sized }

def isEnabled (junk : AmneziaPreHandshakeJunk) : Bool := junk.packetCount > 0

/-- In nanoseconds. -/
def delay (junk : AmneziaPreHandshakeJunk) : Nat := junk.packetDelayMs * 10 ^ 6

end AmneziaPreHandshakeJunk

/-- The imitated protocol, its host as bytes, and the browser for QUIC. -/
structure AmneziaImitation where
  protocol : AmneziaImitationProtocol := .none
  domain : Option Bytes := Option.none
  browser : AmneziaImitationBrowser := .default
  deriving DecidableEq

/-- A shared key of 32 bytes; all zero means off. -/
structure HeaderProtectionKey where
  key : Bytes := List.replicate 32 0
  deriving DecidableEq

def HeaderProtectionKey.isSet (k : HeaderProtectionKey) : Bool :=
  k.key != List.replicate 32 0

/-- Tunable timers, inclusive ranges in seconds; `(0, 0)` is unset. -/
structure AwgTimers where
  rekeyAfterTime : Nat × Nat := (0, 0)
  rekeyTimeout : Nat × Nat := (0, 0)
  rejectAfterTime : Nat × Nat := (0, 0)
  keepaliveTimeout : Nat × Nat := (0, 0)
  maxHandshakeAttempts : Nat × Nat := (0, 0)
  deriving DecidableEq

structure AmneziaConfig where
  initPacketJunkSize : Nat := 0
  responsePacketJunkSize : Nat := 0
  cookiePacketJunkSize : Nat := 0
  transportPacketJunkSize : Nat := 0
  preHandshakeJunk : AmneziaPreHandshakeJunk := .default
  imitation : AmneziaImitation := {}
  suppressPreHandshake : Bool := false
  headerProtection : HeaderProtectionKey := {}
  contentPaddingAddition : Nat × Nat := (0, 0)
  contentPaddingMtu : Nat := 0
  timers : AwgTimers := {}
  randomTrailers : Bool := false
  disableCookies : Bool := false
  deriving DecidableEq

inductive PacketKind where
  | handshakeInit | handshakeResponse | cookieReply | transportData
  deriving DecidableEq, Repr

/-! ### Uniform draws -/

/-- A uniform draw from `min..=max`; `min` when the range is empty or single. -/
def randomUsizeInclusive (min max : Nat) (rng : Rng) : Nat × Rng :=
  if min ≥ max then (min, rng)
  else
    let draw := rng.uniform (max - min + 1)
    (min + draw.1, draw.2)

theorem randomUsizeInclusive_mem {min max : Nat} (h : min ≤ max) (rng : Rng) :
    min ≤ (randomUsizeInclusive min max rng).1 ∧ (randomUsizeInclusive min max rng).1 ≤ max := by
  unfold randomUsizeInclusive
  split
  · exact ⟨Nat.le_refl _, h⟩
  · have hpos : 0 < max - min + 1 := Nat.succ_pos _
    have := Rng.uniform_lt hpos rng
    simp only
    omega

/-- Range draws are exactly uniform: of sizes over 64-bit words, of tags too, and over all
32-bit words for the full tag range. Neither the count of values nor a drawn value overflows. -/
theorem range_draws_uniform :
    (∀ min max : Nat, min < max → max < 2 ^ 64 → max - min < 2 ^ 64 - 1 →
      max - min + 1 < 2 ^ 64 ∧
      Rng.DrawsUniformly Rng.u64 (randomUsizeInclusive min max) (Rng.below (max - min + 1))
        (fun word => min + word % (max - min + 1)) min max) ∧
    (∀ range : TagRange, range.start < range.stop →
      if range.start = 0 ∧ range.stop = 2 ^ 32 - 1 then
        Rng.DrawsUniformly Rng.u32 range.random (fun _ => true) id range.start range.stop
      else
        Rng.DrawsUniformly Rng.u64 range.random (Rng.below (range.stop - range.start + 1))
          (fun word => range.start + word % (range.stop - range.start + 1))
          range.start range.stop) := by
  refine ⟨?_, fun range h => TagRange.random_drawsUniformly h⟩
  intro min max h _ hrange
  refine ⟨by omega, Rng.uniform_drawsUniformly (Nat.le_of_lt h) (by omega) ?_⟩
  intro rng
  rw [randomUsizeInclusive, if_neg (by omega)]

theorem range_draws_uniform_die :
    Rng.DrawsUniformly Rng.u64 (randomUsizeInclusive 1 6) (Rng.below 6)
      (fun word => 1 + word % 6) 1 6 :=
  (range_draws_uniform.1 1 6 (by decide) (by decide) (by decide)).2

/-- A uniform draw from `0..n`, and 0 for an empty range. -/
def randomBelow (n : Nat) (rng : Rng) : Nat × Rng :=
  if n = 0 then (0, rng) else randomUsizeInclusive 0 (n - 1) rng

theorem randomBelow_le (n : Nat) (rng : Rng) : (randomBelow n rng).1 ≤ n - 1 := by
  unfold randomBelow
  split
  · exact Nat.zero_le _
  · exact (randomUsizeInclusive_mem (Nat.zero_le _) rng).2

namespace AmneziaConfig

/-! ### Prefix sizes -/

def inboundJunkSize (cfg : AmneziaConfig) : PacketKind → Nat
  | .handshakeInit => cfg.initPacketJunkSize
  | .handshakeResponse => cfg.responsePacketJunkSize
  | .cookieReply => cfg.cookiePacketJunkSize
  | .transportData => cfg.transportPacketJunkSize

def outboundJunkSize (cfg : AmneziaConfig) (kind : PacketKind) : Nat := cfg.inboundJunkSize kind

def transportJunkSize (cfg : AmneziaConfig) : Nat := cfg.outboundJunkSize .transportData

def handshakeInitJunkSize (cfg : AmneziaConfig) : Nat := cfg.outboundJunkSize .handshakeInit

def handshakeResponseJunkSize (cfg : AmneziaConfig) : Nat :=
  cfg.outboundJunkSize .handshakeResponse

def labelledJunkSizes (cfg : AmneziaConfig) : List (String × Nat) :=
  [("S1", cfg.initPacketJunkSize), ("S2", cfg.responsePacketJunkSize),
    ("S3", cfg.cookiePacketJunkSize), ("S4", cfg.transportPacketJunkSize)]

/-! ### The header-protection rule -/

/-- What imitation leaves of the header-protection nonce. -/
inductive HeaderProtectionNonce where
  | full | bounded32 | weak16 | degenerate
  deriving DecidableEq, Repr

def headerProtectionEnabled (cfg : AmneziaConfig) : Bool := cfg.headerProtection.isSet

/-- The first prefix long enough for a SIP request line. -/
def sipRequestLinePrefix (cfg : AmneziaConfig) : Option (String × Nat) :=
  cfg.labelledJunkSizes.find? fun entry => entry.2 ≥ SIP_REQUEST_LINE_MIN

def headerProtectionNonce (cfg : AmneziaConfig) : Option HeaderProtectionNonce :=
  if !cfg.headerProtectionEnabled then none
  else some <| match cfg.imitation.protocol with
    | .none | .auto | .quic => .full
    | .stun => .bounded32
    | .dns => .weak16
    | .sip => if cfg.sipRequestLinePrefix.isSome then .degenerate else .full

/-- Every prefix must supply the nonce once a key is set, and imitation must leave it
more than a few fixed values. -/
def checkHeaderProtectionNonce (cfg : AmneziaConfig) : Except String Unit :=
  if !cfg.headerProtectionEnabled then .ok ()
  else
    match cfg.labelledJunkSizes.find? fun entry => entry.2 < NONCE_SIZE with
    | some (label, junk) => .error (label ++ " is " ++ toString junk ++
        " bytes, but header protection needs at least " ++ toString NONCE_SIZE ++
        " to nonce each datagram; raise " ++ label ++ " or clear the key")
    | none =>
      if cfg.headerProtectionNonce = some .degenerate then
        let (label, size) := cfg.sipRequestLinePrefix.getD ("", 0)
        .error ("SIP imitation with header protection: " ++ label ++ " is " ++ toString size ++
          " bytes, and from " ++ toString SIP_REQUEST_LINE_MIN ++
          " bytes the SIP imitation writes a request line into the S prefix, so the" ++
          " header-protection nonce (its first 12 bytes) takes only a few fixed" ++
          " values and header protection's masking is effectively absent. Keep" ++
          " S1-S4 at " ++ toString (SIP_REQUEST_LINE_MIN - 1) ++
          " or below, choose another imitation protocol, or disable" ++
          " header protection")
      else .ok ()

/-- An accepted configuration with a key has room for the nonce in every prefix. -/
theorem nonce_le_of_check {cfg : AmneziaConfig} (hcheck : cfg.checkHeaderProtectionNonce = .ok ())
    (hkey : cfg.headerProtectionEnabled = true) (kind : PacketKind) :
    NONCE_SIZE ≤ cfg.inboundJunkSize kind := by
  unfold checkHeaderProtectionNonce at hcheck
  simp only [hkey, Bool.not_true, Bool.false_eq_true, ↓reduceIte] at hcheck
  split at hcheck
  · cases hcheck
  · next hnone =>
    simp only [labelledJunkSizes, List.find?_eq_none, List.mem_cons, List.not_mem_nil, or_false,
      forall_eq_or_imp, forall_eq, decide_eq_true_eq, Nat.not_lt] at hnone
    obtain ⟨h₁, h₂, h₃, h₄⟩ := hnone
    cases kind with
    | handshakeInit => exact h₁
    | handshakeResponse => exact h₂
    | cookieReply => exact h₃
    | transportData => exact h₄

/-! ### Transport padding -/

/-- RandomTrailers padding, drawn against the UDP window. `base` is the unpadded frame. -/
def windowPadding (cfg : AmneziaConfig) (base udpWindow : Nat) (rng : Rng) : Nat × Rng :=
  let headroom := udpWindow - base
  let (lo, hi) := cfg.contentPaddingAddition
  if lo ≠ 0 ∨ hi ≠ 0 then
    let draw := randomUsizeInclusive lo hi rng
    (min draw.1 headroom, draw.2)
  else randomBelow headroom rng

/-- `usize::next_multiple_of`. -/
def nextMultipleOf (n m : Nat) : Nat := (n + m - 1) / m * m

/-- A draw from the configured range, or rounding up to 16 bytes; capped by one MTU unit
and by `space`. -/
def contentPadding (cfg : AmneziaConfig) (srcLen space : Nat) (rng : Rng) : Nat × Rng :=
  let mtu := cfg.contentPaddingMtu
  let lastUnit := if mtu ≠ 0 ∧ srcLen > mtu then srcLen % mtu else srcLen
  let (lo, hi) := cfg.contentPaddingAddition
  let (want, rng) :=
    if lo ≠ 0 ∨ hi ≠ 0 then randomUsizeInclusive lo hi rng
    else
      let padded := nextMultipleOf lastUnit PADDING_MULTIPLE
      let padded := if mtu ≠ 0 then min padded mtu else padded
      (padded - lastUnit, rng)
  let want := if mtu ≠ 0 then min want (mtu - lastUnit) else want
  (min want space, rng)

/-- The zero bytes appended to a `srcLen`-byte plaintext: whatever the base frame leaves
of the buffer and of the largest datagram bounds them. -/
def contentPaddingForFrame (cfg : AmneziaConfig) (srcLen dstLen transportJunk udpWindow : Nat)
    (rng : Rng) : Nat × Rng :=
  let committed := srcLen + DATA_OVERHEAD_SZ + transportJunk
  let space := min (dstLen - committed) (MAX_SENDABLE_DATAGRAM - committed)
  if cfg.randomTrailers then
    let draw := cfg.windowPadding committed udpWindow rng
    (min draw.1 space, draw.2)
  else cfg.contentPadding srcLen space rng

/-- The padded frame fits the buffer whenever the base frame does. -/
theorem contentPaddingForFrame_le (cfg : AmneziaConfig) (srcLen dstLen transportJunk udpWindow : Nat)
    (rng : Rng) :
    (cfg.contentPaddingForFrame srcLen dstLen transportJunk udpWindow rng).1 ≤
      dstLen - (srcLen + DATA_OVERHEAD_SZ + transportJunk) := by
  unfold contentPaddingForFrame
  simp only
  split
  · omega
  · unfold contentPadding
    simp only
    omega

def transportWindowObservation (cfg : AmneziaConfig) (srcLen : Nat) : Nat :=
  cfg.transportJunkSize + DATA_OVERHEAD_SZ + srcLen

/-- Sixteen bytes short of the datagram: the tag is not counted. -/
def receivedWindowObservation (cfg : AmneziaConfig) (plaintextLen : Nat) : Nat :=
  cfg.transportJunkSize + DATA_OFFSET_SZ + plaintextLen

end AmneziaConfig

end BoringTun
