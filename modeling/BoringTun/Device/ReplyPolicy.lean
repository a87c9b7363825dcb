import BoringTun.Amnezia.Burst
import BoringTun.RateLimiter

/-!
Whether bytes may be sent to a source nothing has authenticated
(`device/reply_policy.rs`), for the probe responder and for cookie replies: those go out at most
at parity (`cookieVerdict_eq_send`).
-/

namespace BoringTun

/-- The address a datagram came from, as the socket reports it. -/
inductive SocketAddr where
  | v4 (addr : UInt32) (port : UInt16)
  | v6 (addr : BitVec 128) (port : UInt16) (flowinfo scopeId : UInt32)
  deriving DecidableEq

namespace SocketAddr

def ip : SocketAddr → IpAddr
  | v4 addr _ => .v4 addr
  | v6 addr _ _ _ => .v6 addr

def port : SocketAddr → UInt16
  | v4 _ port => port
  | v6 _ port _ _ => port

/-- What the rate limiter is told of it. -/
def source (addr : SocketAddr) : Source := .endpoint addr.ip addr.port

/-- `Ipv6Addr::to_ipv4_mapped`. -/
def toIpv4Mapped (addr : BitVec 128) : Option UInt32 :=
  if addr.toNat / 2 ^ 32 = 0xffff then some (UInt32.ofNat (addr.toNat % 2 ^ 32)) else none

def unmap : SocketAddr → SocketAddr
  | v4 addr port => v4 addr port
  | v6 addr port flowinfo scopeId =>
    match toIpv4Mapped addr with
    | some mapped => v4 mapped port
    | none => v6 addr port flowinfo scopeId

end SocketAddr

namespace IpAddr

def isLoopback : IpAddr → Bool
  | v4 addr => addr.toNat / 2 ^ 24 = 127
  | v6 addr => addr.toNat = 1

def isUnspecified : IpAddr → Bool
  | v4 addr => addr.toNat = 0
  | v6 addr => addr.toNat = 0

def isMulticast : IpAddr → Bool
  | v4 addr => addr.toNat / 2 ^ 28 = 14
  | v6 addr => addr.toNat / 2 ^ 120 = 0xff

end IpAddr

/-- Which caller asks: only the cookie door answers loopback. -/
inductive Door where
  | probe | cookie
  deriving DecidableEq

/-- The source addresses a reply may be aimed at. -/
def mayReplyTo (addr : SocketAddr) (door : Door) : Bool :=
  if addr.port = 0 then false
  else if addr.ip.isLoopback then door = .cookie
  else
    match addr.ip with
    | .v4 v4 =>
      let first := v4.toNat / 2 ^ 24
      let thisNetwork := first = 0
      let reserved := first ≥ 240
      let isBroadcast := v4.toNat = 2 ^ 32 - 1
      let isLinkLocal := v4.toNat / 2 ^ 16 = 169 * 2 ^ 8 + 254
      !(addr.ip.isUnspecified || addr.ip.isMulticast || isBroadcast || isLinkLocal ||
        thisNetwork || reserved)
    | .v6 v6 =>
      -- fe80::/10
      let isLinkLocal := v6.toNat / 2 ^ 118 = 0xfe80 / 2 ^ 6
      !(addr.ip.isUnspecified || addr.ip.isMulticast || isLinkLocal)

/-- The address to aim a reply at: unmapped first, then judged. -/
def replyTarget (addr : SocketAddr) (door : Door) : Option SocketAddr :=
  if mayReplyTo addr.unmap door then some addr.unmap else none

inductive CookieVerdict where
  | send | refusedSource | wouldAmplify
  deriving DecidableEq

/-- Whether a reply of `replyLen` bytes may answer `requestLen` bytes. -/
def cookieVerdict (addr : SocketAddr) (requestLen replyLen : Nat) : CookieVerdict :=
  if (replyTarget addr .cookie).isNone then .refusedSource
  else if replyAmplifies requestLen replyLen then .wouldAmplify
  else .send

theorem cookieVerdict_eq_send {addr : SocketAddr} {requestLen replyLen : Nat} :
    cookieVerdict addr requestLen replyLen = .send ↔
      (replyTarget addr .cookie).isSome ∧ replyLen ≤ requestLen := by
  cases htarget : replyTarget addr .cookie with
  | none => simp [cookieVerdict, htarget]
  | some target =>
    by_cases hparity : replyLen ≤ requestLen
    · simp [cookieVerdict, htarget, replyAmplifies, hparity]
    · simp [cookieVerdict, htarget, replyAmplifies, hparity, Nat.lt_of_not_le hparity]

-- the form every IPv4 datagram has on a dual-stack socket
example : replyTarget (.v6 (BitVec.ofNat 128 0xffffffffffff) 51820 0 0) .cookie = none := by
  decide

end BoringTun
