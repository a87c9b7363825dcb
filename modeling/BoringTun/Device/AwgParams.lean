import BoringTun.Amnezia.Config
import BoringTun.Obfuscation

/-!
The AmneziaWG values of one `set=1` transaction (`AwgParams` in `device/api.rs`), and the
configuration they make with the current one.

`AwgParams.merged_checked`: a configuration that comes out of the merge passes the check every
tunnel makes. What the merge only logs (reflection, a weak nonce, the order of timers) is left
out.
-/

namespace BoringTun

def EINVAL : Nat := 22

namespace AmneziaConfig

/-- The first entry that fails, as an error. -/
def firstError {α : Type*} (entries : List α) (complaint : α → Option String) :
    Except String Unit :=
  match entries.findSome? complaint with
  | some message => .error message
  | none => .ok ()

/-- An S size must leave its packet a datagram that can be sent. -/
def sizeComplaint : String × Nat × Nat → Option String
  | (label, junk, base) =>
    if junk + base > MAX_SENDABLE_DATAGRAM then
      some (label ++ " is too large: " ++ toString junk ++ " junk bytes + " ++ toString base ++
        " packet bytes exceed the " ++ toString MAX_SENDABLE_DATAGRAM ++ "-byte maximum datagram")
    else none

/-- A range that is set must not contain 0. -/
def timerComplaint : String × Nat × Nat → Option String
  | (label, lo, hi) =>
    if (lo, hi) ≠ (0, 0) ∧ lo = 0 then
      some (label ++ " = 0-" ++ toString hi ++ ": a set range must not contain 0 (a bare 0 means" ++
        " \"use the built-in default\"; a 0 drawn from a range is a zero-second timer)")
    else none

/-- What can never work. -/
def validate (cfg : AmneziaConfig) : Except String Unit := do
  cfg.checkHeaderProtectionNonce
  firstError [("S1", cfg.initPacketJunkSize, HANDSHAKE_INIT_SZ),
    ("S2", cfg.responsePacketJunkSize, HANDSHAKE_RESP_SZ),
    ("S3", cfg.cookiePacketJunkSize, COOKIE_REPLY_SZ),
    ("S4", cfg.transportPacketJunkSize, DATA_OVERHEAD_SZ)] sizeComplaint
  firstError [("rekey_after_time", cfg.timers.rekeyAfterTime),
    ("rekey_timeout", cfg.timers.rekeyTimeout),
    ("reject_after_time", cfg.timers.rejectAfterTime),
    ("keepalive_timeout", cfg.timers.keepaliveTimeout)] timerComplaint

theorem checked_of_validate {cfg : AmneziaConfig} (h : cfg.validate = .ok ()) :
    cfg.checkHeaderProtectionNonce = .ok () := by
  unfold validate at h
  cases hcheck : cfg.checkHeaderProtectionNonce with
  | error e =>
    rw [hcheck] at h
    cases h
  | ok _ => rfl

/-- The two ends of a range, in order. -/
def ordered (range : Nat × Nat) : Nat × Nat := (min range.1 range.2, max range.1 range.2)

variable (cfg : AmneziaConfig)

def withPreHandshakeJunk (packetCount packetSizeMin packetSizeMax delayMs : Nat) : AmneziaConfig :=
  { cfg with preHandshakeJunk := .new packetCount packetSizeMin packetSizeMax delayMs }

def withHeaderProtection (key : Bytes) : AmneziaConfig := { cfg with headerProtection := ⟨key⟩ }

def withContentPaddingAddition (range : Nat × Nat) (mtu : Nat) : AmneziaConfig :=
  { cfg with contentPaddingAddition := ordered range, contentPaddingMtu := mtu }

def withRandomTrailers (on : Bool) : AmneziaConfig := { cfg with randomTrailers := on }

def withDisableCookies (on : Bool) : AmneziaConfig := { cfg with disableCookies := on }

def withTunableTimers (timers : AwgTimers) : AmneziaConfig :=
  { cfg with timers :=
      { rekeyAfterTime := ordered timers.rekeyAfterTime
        rekeyTimeout := ordered timers.rekeyTimeout
        rejectAfterTime := ordered timers.rejectAfterTime
        keepaliveTimeout := ordered timers.keepaliveTimeout
        maxHandshakeAttempts := ordered timers.maxHandshakeAttempts } }

end AmneziaConfig

/-- What a transaction has said so far; `none` keeps the current value. -/
structure AwgParams where
  jc : Option Nat := none
  jmin : Option Nat := none
  jmax : Option Nat := none
  s1 : Option Nat := none
  s2 : Option Nat := none
  s3 : Option Nat := none
  s4 : Option Nat := none
  h1 : Option (Nat × Nat) := none
  h2 : Option (Nat × Nat) := none
  h3 : Option (Nat × Nat) := none
  h4 : Option (Nat × Nat) := none
  headerProtection : Option Bytes := none
  contentPadding : Option (Nat × Nat) := none
  rekeyAfterTime : Option (Nat × Nat) := none
  rekeyTimeout : Option (Nat × Nat) := none
  rejectAfterTime : Option (Nat × Nat) := none
  keepaliveTimeout : Option (Nat × Nat) := none
  maxHandshakeAttempts : Option (Nat × Nat) := none
  randomTrailers : Option Bool := none
  disableCookies : Option Bool := none
  seen : Bool := false
  deriving DecidableEq

namespace AwgParams

variable (params : AwgParams)

/-- The H ranges, those of the transaction before the current ones. -/
def mergedRanges (current : ObfuscationRanges) : Except String ObfuscationRanges :=
  let h1 := params.h1.getD (current.h1Init.start, current.h1Init.stop)
  let h2 := params.h2.getD (current.h2Resp.start, current.h2Resp.stop)
  let h3 := params.h3.getD (current.h3Cookie.start, current.h3Cookie.stop)
  let h4 := params.h4.getD (current.h4Data.start, current.h4Data.stop)
  ObfuscationRanges.new (.ofNat h1.1) (.ofNat h1.2) (.ofNat h2.1) (.ofNat h2.2) (.ofNat h3.1) (.ofNat h3.2)
    (.ofNat h4.1) (.ofNat h4.2)

/-- Everything but the H ranges. Imitation has no key and stays. -/
def mergedAmnezia (current : AmneziaConfig) (mtu : Nat) : AmneziaConfig :=
  let junk := current.preHandshakeJunk
  let amnezia := { current with
    initPacketJunkSize := params.s1.getD current.initPacketJunkSize
    responsePacketJunkSize := params.s2.getD current.responsePacketJunkSize
    cookiePacketJunkSize := params.s3.getD current.cookiePacketJunkSize
    transportPacketJunkSize := params.s4.getD current.transportPacketJunkSize }
  let amnezia := amnezia.withPreHandshakeJunk (params.jc.getD junk.packetCount)
    (params.jmin.getD junk.packetSizeMin) (params.jmax.getD junk.packetSizeMax) junk.packetDelayMs
  let amnezia := match params.headerProtection with
    | some key => amnezia.withHeaderProtection key
    | none => amnezia
  let amnezia := amnezia.withContentPaddingAddition
    (params.contentPadding.getD amnezia.contentPaddingAddition) mtu
  let amnezia := amnezia.withRandomTrailers (params.randomTrailers.getD amnezia.randomTrailers)
  let amnezia := amnezia.withDisableCookies (params.disableCookies.getD amnezia.disableCookies)
  let timers := amnezia.timers
  amnezia.withTunableTimers
    { rekeyAfterTime := params.rekeyAfterTime.getD timers.rekeyAfterTime
      rekeyTimeout := params.rekeyTimeout.getD timers.rekeyTimeout
      rejectAfterTime := params.rejectAfterTime.getD timers.rejectAfterTime
      keepaliveTimeout := params.keepaliveTimeout.getD timers.keepaliveTimeout
      maxHandshakeAttempts := params.maxHandshakeAttempts.getD timers.maxHandshakeAttempts }

/-- The transaction over the current settings, judged as a whole. -/
def merged (currentObf : ObfuscationRanges) (currentAmnezia : AmneziaConfig) (mtu : Nat) :
    Except Nat (ObfuscationRanges × AmneziaConfig) :=
  match params.mergedRanges currentObf with
  | .error _ => .error EINVAL
  | .ok obf =>
    let amnezia := params.mergedAmnezia currentAmnezia mtu
    match amnezia.validate with
    | .error _ => .error EINVAL
    | .ok () => .ok (obf, amnezia)

theorem merged_error {params : AwgParams} {currentObf : ObfuscationRanges}
    {currentAmnezia : AmneziaConfig} {mtu status : Nat}
    (h : params.merged currentObf currentAmnezia mtu = .error status) : status = EINVAL := by
  unfold merged at h
  split at h
  · cases h
    rfl
  · dsimp only at h
    split at h
    · cases h
      rfl
    · cases h

/-- The merge lets nothing through that a tunnel would refuse. -/
theorem merged_checked {params : AwgParams} {currentObf obf : ObfuscationRanges}
    {currentAmnezia amnezia : AmneziaConfig} {mtu : Nat}
    (h : params.merged currentObf currentAmnezia mtu = .ok (obf, amnezia)) :
    amnezia.checkHeaderProtectionNonce = .ok () := by
  unfold merged at h
  split at h
  · cases h
  · dsimp only at h
    split at h
    · cases h
    · next hvalid =>
      cases h
      exact AmneziaConfig.checked_of_validate hvalid

end AwgParams

end BoringTun
