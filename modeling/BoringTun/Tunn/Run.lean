import BoringTun.Tunn.Receive
import BoringTun.Tunn.UpdateTimers

/-!
The setters of a tunnel (`noise/mod.rs`), its operations as data, and the states they
reach.

Every operation gets its own `Env`: whatever the clock and the entropy of the moment are.
A limiter shared with other tunnels may have moved between two operations.
-/

namespace BoringTun

namespace Tunn

variable {P : Primitives} (t : Tunn P)

/-! ### Setters -/

/-- Replace the private key and drop every session. Without a limiter from the caller the
tunnel gets one of its own, made from `seed`. -/
def setStaticPrivate (staticPrivate : P.Secret) (rateLimiter : Option (RateLimiter P))
    (seed : RateLimiterSeed P) : Tunn P :=
  { t with
    timers := { t.timers with shouldResetRr := rateLimiter.isNone }
    rateLimiter := rateLimiter.getD
      (.new (P.publicKey staticPrivate) PEER_HANDSHAKE_RATE_LIMIT seed)
    handshake := t.handshake.setStaticPrivate staticPrivate
    autoImitation := {} }.removeAllSessions

/-- What a configuration change leaves of the learned imitation. -/
def reconfiguredImitation (obf : ObfuscationRanges) (amnezia : AmneziaConfig) : AutoImitation :=
  if t.amnezia.imitation.protocol ≠ .auto ∨ amnezia.imitation.protocol ≠ .auto then {}
  else if t.amnezia ≠ amnezia ∨ t.handshake.obf ≠ obf then
    let auto := t.autoImitation.clearPending
    match auto.learned with
    | some protocol =>
      if (amnezia.resolveImitation protocol).imitation.protocol ≠ protocol then
        { auto with learned := none }
      else auto
    | none => auto
  else t.autoImitation

/-- Install a configuration that passed its check. -/
def applyObfuscation (obf : ObfuscationRanges) (amnezia : AmneziaConfig)
    (checked : amnezia.checkHeaderProtectionNonce = .ok ()) : Tunn P :=
  let timersChanged := t.amnezia.timers ≠ amnezia.timers
  let burst := t.amnezia.pendingBurstChange amnezia
  let t := { t with
    autoImitation := t.reconfiguredImitation obf amnezia
    handshake := t.handshake.setObfuscation obf
    amnezia := amnezia
    checked := checked }
  let t := if burst = .restart then t.restartPendingBurst else t
  if timersChanged then t.redrawTunableTimers else t

def trySetObfuscation (obf : ObfuscationRanges) (amnezia : AmneziaConfig) :
    Except String (Tunn P) :=
  match hcheck : amnezia.checkHeaderProtectionNonce with
  | .error e => .error e
  | .ok () => .ok (t.applyObfuscation obf amnezia hcheck)

/-- A refused configuration leaves the tunnel on its previous one. -/
def setObfuscation (obf : ObfuscationRanges) (amnezia : AmneziaConfig) : Tunn P :=
  match t.trySetObfuscation obf amnezia with
  | .error _ => t
  | .ok t => t

def setContentPaddingMtu (mtu : Nat) : Tunn P :=
  { t with
    amnezia := { t.amnezia with contentPaddingMtu := mtu }
    checked := t.checked }

def setPersistentKeepalive (keepalive : Option Nat) : Tunn P :=
  { t with timers := t.timers.setPersistentKeepalive keepalive }

def setPersistentKeepaliveRange (low high : Nat) : Bool × Tunn P :=
  match normalizePersistentKeepaliveRange low high with
  | some range => (true, { t with timers := t.timers.setPersistentKeepaliveRange range })
  | none => (false, t)

/-- Replace the pre-shared key; sessions are dropped when the effective key changes. -/
def setPresharedKey (presharedKey : Option P.Value) : Tunn P :=
  let unchanged := t.handshake.params.effectivePresharedKey =
    { t.handshake.params with presharedKey := presharedKey }.effectivePresharedKey
  let t := { t with handshake := t.handshake.setPresharedKey presharedKey }
  if unchanged then t else t.removeAllSessions

/-- The device forgets the window of a path it has left. -/
def resetUdpWindow : Tunn P := { t with udpWindow := DEFAULT_UDP_WINDOW }

/-- The device drops unverified evidence when the peer's endpoint moves. -/
def discardImitationHint : Tunn P :=
  { t with autoImitation := t.autoImitation.clearPending }

end Tunn

/-! ### Operations -/

/-- One call on a tunnel. -/
inductive Op (P : Primitives) where
  | encapsulate (src dst : Bytes) (budget : OutputBudget)
  | decapsulate (source : Option Source) (datagram dst : Bytes) (budget : OutputBudget)
  | updateTimers (dst : Bytes) (budget : OutputBudget)
  | formatHandshakeInitiation (dst : Bytes) (forceResend : Bool) (budget : OutputBudget)
  | setObfuscation (obf : ObfuscationRanges) (amnezia : AmneziaConfig)
  | setPresharedKey (presharedKey : Option P.Value)
  | setStaticPrivate (staticPrivate : P.Secret) (rateLimiter : Option (RateLimiter P))
      (seed : RateLimiterSeed P)
  | setContentPaddingMtu (mtu : Nat)
  | setPersistentKeepalive (keepalive : Option Nat)
  | setPersistentKeepaliveRange (low high : Nat)
  | resetUdpWindow
  | discardImitationHint
  /-- Another tunnel moved the shared limiter. -/
  | limiterMoved (limiter : RateLimiter P)

namespace Tunn

variable {P : Primitives}

/-- The result of a call and the tunnel after it. -/
def run (t : Tunn P) (env : Env P) : Op P → TunnResult × Tunn P
  | .encapsulate src dst budget =>
    let (result, t, _) := t.encapsulate env src dst budget
    (result, t)
  | .decapsulate source datagram dst budget =>
    let (result, t, _) := t.decapsulateSource env source datagram dst budget
    (result, t)
  | .updateTimers dst budget =>
    let (result, t, _) := t.updateTimers env dst budget
    (result, t)
  | .formatHandshakeInitiation dst forceResend budget =>
    let (result, t, _) := t.formatHandshakeInitiation env dst forceResend budget
    (result, t)
  | .setObfuscation obf amnezia => (.done, t.setObfuscation obf amnezia)
  | .setPresharedKey presharedKey => (.done, t.setPresharedKey presharedKey)
  | .setStaticPrivate staticPrivate rateLimiter seed =>
    (.done, t.setStaticPrivate staticPrivate rateLimiter seed)
  | .setContentPaddingMtu mtu => (.done, t.setContentPaddingMtu mtu)
  | .setPersistentKeepalive keepalive => (.done, t.setPersistentKeepalive keepalive)
  | .setPersistentKeepaliveRange low high => (.done, (t.setPersistentKeepaliveRange low high).2)
  | .resetUdpWindow => (.done, t.resetUdpWindow)
  | .discardImitationHint => (.done, t.discardImitationHint)
  | .limiterMoved limiter => (.done, { t with rateLimiter := limiter })

/-- The tunnel after a call. -/
def after (t : Tunn P) (env : Env P) (op : Op P) : Tunn P := (t.run env op).2

/-- A tunnel as a constructor returns it. -/
def IsNew (t : Tunn P) : Prop :=
  ∃ staticPrivate peerStaticPublic presharedKey persistentKeepalive index rateLimiter obf amnezia
    seed, newWithObfuscation staticPrivate peerStaticPublic presharedKey persistentKeepalive index
      rateLimiter obf amnezia seed = .ok t

end Tunn

end BoringTun
