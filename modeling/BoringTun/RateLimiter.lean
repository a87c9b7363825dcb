import BoringTun.Imitation.Auto
import BoringTun.Packet
import Mathlib.Logic.Function.Basic

/-!
The handshake rate limiter (`noise/rate_limiter.rs`): mac1 on every handshake message,
and under load a cookie bound to the source.

Counts are kept per source, in a fixed table of hashed slots, and in the aggregate.
Checking a message changes counts only: `gateHandshake_sameKeys`.
-/

namespace BoringTun

def COOKIE_REFRESH : Nat := 128
def RESET_PERIOD : Nat := 1
def SOURCE_SHARE : Nat := 5
def SOURCE_FLOOR : Nat := 5
def SOURCE_SLOTS : Nat := 1024
def PEER_HANDSHAKE_RATE_LIMIT : Nat := 10

/-- Nanoseconds to whole seconds. -/
def asSecs (duration : Nat) : Nat := duration / 10 ^ 9

/-- Where a handshake message came from, as far as the receiver knows it. -/
inductive Source where
  | endpoint (addr : IpAddr) (port : UInt16)
  | address (addr : IpAddr)
  deriving DecidableEq

namespace Source

def addr : Source → IpAddr
  | endpoint addr _ => addr
  | address addr => addr

def port : Source → Option UInt16
  | endpoint _ port => some port
  | address _ => none

/-- An IPv4-mapped IPv6 address is the IPv4 address it maps. -/
def ip (source : Source) : IpAddr :=
  match source.addr with
  | .v6 addr =>
    if addr.toNat / 2 ^ 32 = 0xffff then .v4 (UInt32.ofNat (addr.toNat % 2 ^ 32)) else .v6 addr
  | v4 => v4

/-- What the cookie is a MAC of: a tag byte for the shape, the address and the port. -/
def cookieInput (source : Source) : Bytes :=
  let (tag, octets) : UInt8 × Bytes := match source.ip with
    | .v4 addr => (if source.port.isSome then 0x04 else 0x14, beBytes 4 addr.toNat)
    | .v6 addr => (if source.port.isSome then 0x06 else 0x16, beBytes 16 addr.toNat)
  tag :: octets ++ match source.port with
    | some port => beBytes 2 port.toNat
    | none => []

/-- An IPv4 address, or an IPv6 /64. -/
def budgetKey (source : Source) : Nat × Nat :=
  match source.ip with
  | .v4 addr => (4, addr.toNat)
  | .v6 addr => (6, addr.toNat / 2 ^ 64)

end Source

/-! ### Counts per source -/

structure SourceSlot where
  window : UInt32 := 0
  count : UInt32 := 0
  deriving DecidableEq

/-- A slot already in a later window counts there. -/
def SourceSlot.bump (slot : SourceSlot) (window : UInt32) : SourceSlot :=
  let ahead := (slot.window - window).toNat
  if slot.window = window ∨ (0 < ahead ∧ ahead < 2 ^ 31) then
    { slot with count := UInt32.ofNat (min (slot.count.toNat + 1) (2 ^ 32 - 1)) }
  else ⟨window, 1⟩

structure SourceCounts where
  /-- A keyed hash of the budget key, 64 bits. -/
  hasher : Nat × Nat → UInt64
  slots : Nat → SourceSlot

namespace SourceCounts

def new (hasher : Nat × Nat → UInt64) : SourceCounts := ⟨hasher, fun _ => {}⟩

/-- The slot of a source in each of the two rows. -/
def slotsOf (counts : SourceCounts) (source : Source) : Nat × Nat :=
  let hash := (counts.hasher source.budgetKey).toNat
  (hash % SOURCE_SLOTS, SOURCE_SLOTS + hash / 2 ^ 32 % SOURCE_SLOTS)

def bumpAt (counts : SourceCounts) (slot : Nat) (window : UInt32) : SourceCounts :=
  { counts with slots := Function.update counts.slots slot ((counts.slots slot).bump window) }

/-- Count one message in `window`; the source's count is the smaller of its slots'. -/
def count (counts : SourceCounts) (source : Source) (window : UInt32) : Nat × SourceCounts :=
  let (first, second) := counts.slotsOf source
  let counts := counts.bumpAt first window
  let inFirst := (counts.slots first).count.toNat
  let counts := counts.bumpAt second window
  (min inFirst (counts.slots second).count.toNat, counts)

end SourceCounts

/-! ### The limiter -/

structure RateLimiter (P : Primitives) where
  nonceKey : P.Value
  secretKey : P.Value
  startTime : Nat
  nonceCtr : Nat
  mac1Key : P.Value
  cookieKey : P.Value
  limit : Nat
  count : Nat
  lastReset : Nat
  sourceLimit : Nat
  sources : SourceCounts
  proven : SourceCounts

/-- What a limiter draws from the operating system when it is made. -/
structure RateLimiterSeed (P : Primitives) where
  nonceKey : P.Value
  secretKey : P.Value
  startTime : Nat
  lastReset : Nat
  sources : Nat × Nat → UInt64
  proven : Nat × Nat → UInt64

inductive CookieDefense where
  | armed | bypassed
  deriving DecidableEq

/-- Why a message found the limiter under load, if it did. -/
inductive Load where
  | clear | sourceShare | aggregate
  deriving DecidableEq

/-- The decisions taken for one datagram, each at most once. -/
structure LoadDecision where
  load : Option Load := none
  proven : Option Bool := none

structure CookieDemand where
  senderIdx : UInt32
  cookie : Bytes
  mac1 : Bytes

inductive HandshakeGate where
  | pass | badMac | underLoad
  | cookieDemanded (demand : CookieDemand)

namespace RateLimiter

variable {P : Primitives}

def new (publicKey : P.Value) (limit : Nat) (seed : RateLimiterSeed P) : RateLimiter P where
  nonceKey := seed.nonceKey
  secretKey := seed.secretKey
  startTime := seed.startTime
  nonceCtr := 0
  mac1Key := P.b2sHash (P.value (ascii "mac1----")) publicKey
  cookieKey := P.b2sHash (P.value (ascii "cookie--")) publicKey
  limit := limit
  count := 0
  lastReset := seed.lastReset
  sourceLimit := max (limit / SOURCE_SHARE) (min limit SOURCE_FLOOR)
  sources := .new seed.sources
  proven := .new seed.proven

def resetCount (limiter : RateLimiter P) (now : Nat) : RateLimiter P :=
  if asSecs (now - limiter.lastReset) ≥ RESET_PERIOD then
    { limiter with count := 0, lastReset := now }
  else limiter

def currentCookie (limiter : RateLimiter P) (now : Nat) (source : Source) : Bytes :=
  let curCounter := asSecs (now - limiter.startTime) / COOKIE_REFRESH
  P.b2sKeyedMac16 limiter.secretKey (leBytes 8 curCounter ++ source.cookieInput)

/-- The one-second window of the counts per source. -/
def window (limiter : RateLimiter P) (now : Nat) : UInt32 :=
  UInt32.ofNat (asSecs (now - limiter.startTime))

def countUp (limiter : RateLimiter P) : RateLimiter P :=
  { limiter with count := (limiter.count + 1) % 2 ^ 64 }

/-- Charge the aggregate; whether it was within `limit`. -/
def chargeAggregate (limiter : RateLimiter P) : Load × RateLimiter P :=
  (if limiter.count ≥ limiter.limit then .aggregate else .clear, limiter.countUp)

/-- A message its source's share refuses is not charged to the aggregate. -/
def isUnderLoad (limiter : RateLimiter P) (env : Env P) (source : Option Source) :
    Load × RateLimiter P × Env P :=
  match source with
  | none =>
    let (load, limiter) := limiter.chargeAggregate
    (load, limiter, env)
  | some source =>
    let (n, sources) := limiter.sources.count source (limiter.window env.now)
    let limiter := { limiter with sources := sources }
    if n > limiter.sourceLimit then (.sourceShare, limiter, env.tick)
    else
      let (load, limiter) := limiter.chargeAggregate
      (load, limiter, env.tick)

/-- With the aggregate over, a proven source gets its share again. -/
def chargeProven (limiter : RateLimiter P) (env : Env P) (source : Source) :
    Bool × RateLimiter P × Env P :=
  let (n, counts) := limiter.proven.count source (limiter.window env.now)
  (n ≤ max limiter.sourceLimit SOURCE_FLOOR, { limiter with proven := counts }, env.tick)

/-- Charge a message with a valid mac2; whether it is admitted. -/
def admitProven (limiter : RateLimiter P) (env : Env P) (underLoad : Load) (source : Source) :
    Bool × RateLimiter P × Env P :=
  if underLoad = .sourceShare then
    if limiter.count < limiter.limit then (true, limiter.countUp, env)
    else limiter.countUp.chargeProven env source
  else limiter.chargeProven env source

/-- The load decision of the datagram, taken if it has not been. -/
def decideLoad (limiter : RateLimiter P) (env : Env P) (source : Option Source)
    (load : LoadDecision) : Load × RateLimiter P × Env P :=
  match load.load with
  | some underLoad => (underLoad, limiter, env)
  | none => limiter.isUnderLoad env source

/-- The admission of the datagram's proven messages, decided if it has not been. -/
def decideProven (limiter : RateLimiter P) (env : Env P) (underLoad : Load) (source : Source)
    (load : LoadDecision) : Bool × RateLimiter P × Env P :=
  match load.proven with
  | some proven => (proven, limiter, env)
  | none => limiter.admitProven env underLoad source

/-- The mac1 and load checks of one handshake message. -/
def gateHandshake (limiter : RateLimiter P) (env : Env P) (source : Option Source)
    (message : Bytes) (senderIdx : UInt32) (defense : CookieDefense) (load : LoadDecision) :
    HandshakeGate × LoadDecision × RateLimiter P × Env P :=
  let msg := message.take (message.length - 32)
  let macs := message.drop (message.length - 32)
  let mac1 := macs.take 16
  let mac2 := macs.drop 16
  if P.b2sKeyedMac16 limiter.mac1Key msg ≠ mac1 then (.badMac, load, limiter, env)
  else if defense = .bypassed then (.pass, load, limiter, env)
  else
    let (underLoad, limiter, env) := limiter.decideLoad env source load
    let load := { load with load := some underLoad }
    if underLoad = .clear then (.pass, load, limiter, env)
    else
      match source with
      | none => (.underLoad, load, limiter, env)
      | some addr =>
        let cookie := limiter.currentCookie env.now addr
        let env := env.tick
        if P.b2sKeyedMac16 (P.value cookie) (msg ++ mac1) ≠ mac2 then
          (.cookieDemanded { senderIdx, cookie, mac1 }, load, limiter, env)
        else
          let (proven, limiter, env) := limiter.decideProven env underLoad addr load
          let load := { load with proven := some proven }
          (if proven then .pass else .underLoad, load, limiter, env)

/-- The cookie reply a demand calls for. -/
def formatCookieDemand (limiter : RateLimiter P) (obf : ObfuscationRanges) (rng : Rng)
    (demand : CookieDemand) (dst : Bytes) : Result Bytes × RateLimiter P × Rng :=
  if dst.length < COOKIE_REPLY_SZ then (.error .destinationBufferTooSmall, limiter, rng)
  else
    let (tag, rng) := obf.h3Cookie.random rng
    let nonce := P.b2sMac24 limiter.nonceKey (leBytes 8 limiter.nonceCtr)
    let limiter := { limiter with nonceCtr := (limiter.nonceCtr + 1) % 2 ^ 64 }
    let encryptedCookie := P.xSeal limiter.cookieKey nonce demand.cookie demand.mac1
    (.ok (leBytes 4 tag ++ leBytes 4 demand.senderIdx.toNat ++ nonce ++ encryptedCookie),
      limiter, rng)

/-! ### Checking changes counts only -/

/-- Two limiters that differ in their counts at most. -/
structure SameKeys (a b : RateLimiter P) : Prop where
  of :: ex : ∃ count nonceCtr lastReset sources proven,
    b = { a with count, nonceCtr, lastReset, sources, proven }

namespace SameKeys

theorem refl (a : RateLimiter P) : SameKeys a a := ⟨_, _, _, _, _, rfl⟩

theorem trans {a b c : RateLimiter P} (hab : SameKeys a b) (hbc : SameKeys b c) :
    SameKeys a c := by
  obtain ⟨_, _, _, _, _, rfl⟩ := hab
  obtain ⟨_, _, _, _, _, rfl⟩ := hbc
  exact ⟨_, _, _, _, _, rfl⟩

theorem mac1Key {a b : RateLimiter P} (h : SameKeys a b) : b.mac1Key = a.mac1Key := by
  obtain ⟨_, _, _, _, _, rfl⟩ := h
  rfl

end SameKeys

variable (limiter : RateLimiter P) (env : Env P)

theorem resetCount_sameKeys (now : Nat) : SameKeys limiter (limiter.resetCount now) := by
  unfold resetCount
  split
  · exact ⟨_, _, _, _, _, rfl⟩
  · exact .refl _

theorem isUnderLoad_sameKeys (source : Option Source) :
    SameKeys limiter (limiter.isUnderLoad env source).2.1 := by
  cases source with
  | none => exact ⟨_, _, _, _, _, rfl⟩
  | some source =>
    unfold isUnderLoad
    dsimp only
    split
    · exact ⟨_, _, _, _, _, rfl⟩
    · exact ⟨_, _, _, _, _, rfl⟩

theorem admitProven_sameKeys (underLoad : Load) (source : Source) :
    SameKeys limiter (limiter.admitProven env underLoad source).2.1 := by
  unfold admitProven
  split
  · split
    · exact ⟨_, _, _, _, _, rfl⟩
    · exact ⟨_, _, _, _, _, rfl⟩
  · exact ⟨_, _, _, _, _, rfl⟩

theorem decideLoad_sameKeys (source : Option Source) (load : LoadDecision) :
    SameKeys limiter (limiter.decideLoad env source load).2.1 := by
  unfold decideLoad
  cases load.load with
  | none => exact isUnderLoad_sameKeys limiter env source
  | some _ => exact .refl _

theorem decideProven_sameKeys (underLoad : Load) (source : Source) (load : LoadDecision) :
    SameKeys limiter (limiter.decideProven env underLoad source load).2.1 := by
  unfold decideProven
  cases load.proven with
  | none => exact admitProven_sameKeys limiter env underLoad source
  | some _ => exact .refl _

theorem gateHandshake_sameKeys (source : Option Source) (message : Bytes) (senderIdx : UInt32)
    (defense : CookieDefense) (load : LoadDecision) :
    SameKeys limiter
      (limiter.gateHandshake env source message senderIdx defense load).2.2.1 := by
  have hload := decideLoad_sameKeys limiter env source load
  unfold gateHandshake
  dsimp only
  split
  · exact .refl _
  split
  · exact .refl _
  split
  · exact hload
  cases source with
  | none => exact hload
  | some addr =>
    dsimp only
    split
    · exact hload
    · exact hload.trans (decideProven_sameKeys ..)

/-- A message without a mac1 for this interface is not charged. -/
theorem gateHandshake_badMac {message : Bytes}
    (h : P.b2sKeyedMac16 limiter.mac1Key (message.take (message.length - 32)) ≠
      (message.drop (message.length - 32)).take 16)
    (source : Option Source) (senderIdx : UInt32) (defense : CookieDefense) (load : LoadDecision) :
    limiter.gateHandshake env source message senderIdx defense load =
      (.badMac, load, limiter, env) := if_pos h

/-- A demanded cookie is a MAC of the limiter. -/
theorem gateHandshake_length_cookie {source : Option Source} {message : Bytes}
    {senderIdx : UInt32} {defense : CookieDefense} {load : LoadDecision} {demand : CookieDemand}
    (h : (limiter.gateHandshake env source message senderIdx defense load).1 =
      .cookieDemanded demand) : demand.cookie.length = 16 := by
  unfold gateHandshake at h
  dsimp only at h
  split at h
  · cases h
  split at h
  · cases h
  split at h
  · cases h
  cases source with
  | none => cases h
  | some addr =>
    dsimp only at h
    split at h
    · cases h
      exact P.length_b2sKeyedMac16 _ _
    · dsimp only at h
      split at h
      · cases h
      · cases h

/-- Without a source the gate reads no clock. -/
theorem gateHandshake_env (message : Bytes) (senderIdx : UInt32) (defense : CookieDefense) :
    (limiter.gateHandshake env none message senderIdx defense {}).2.2.2 = env := by
  unfold gateHandshake
  dsimp only
  split
  · rfl
  · split
    · rfl
    · split
      · rfl
      · rfl

/-- The mac1 of a message is that of the interface. -/
def Mac1Valid (message : Bytes) : Prop :=
  P.b2sKeyedMac16 limiter.mac1Key (message.take (message.length - 32)) =
    (message.drop (message.length - 32)).take 16

/-- The mac2 of a message is that of its source's cookie. -/
def Mac2Valid (now : Nat) (source : Source) (message : Bytes) : Prop :=
  P.b2sKeyedMac16 (P.value (limiter.currentCookie now source))
      (message.take (message.length - 32) ++ (message.drop (message.length - 32)).take 16) =
    (message.drop (message.length - 32)).drop 16

instance (now : Nat) (source : Source) (message : Bytes) :
    Decidable (limiter.Mac2Valid now source message) :=
  inferInstanceAs (Decidable (_ = _))

theorem formatCookieDemand_sameKeys (obf : ObfuscationRanges) (rng : Rng) (demand : CookieDemand)
    (dst : Bytes) : SameKeys limiter (limiter.formatCookieDemand obf rng demand dst).2.1 := by
  unfold formatCookieDemand
  split
  · exact .refl _
  · exact ⟨_, _, _, _, _, rfl⟩

end RateLimiter

end BoringTun
