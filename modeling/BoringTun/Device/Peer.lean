import BoringTun.Device.ReplyPolicy
import BoringTun.Tunn.Run

/-!
A peer of a device (`device/peer.rs`): its tunnel, the address it is reached at, and the
socket connected to that address, if there is one.

`endpoint` compares addresses in the form it stores them in, so the setters bring an
IPv4-mapped address to its IPv4 form first. A socket that is taken is shut down; whether the
shutdown worked is only logged. Diagnostics are left out.
-/

namespace BoringTun

/-- A socket connected to a peer's endpoint. -/
abbrev ConnRef := Nat

structure Endpoint where
  addr : Option SocketAddr := none
  conn : Option ConnRef := none
  deriving DecidableEq

/-- Where the address families of the listeners are kept apart (Linux), a mapped address is
stored as the IPv4 address it maps. -/
def canonicalEndpoint (addr : SocketAddr) : SocketAddr := addr.unmap

structure Peer (P : Primitives) where
  tunnel : Tunn P
  index : UInt32
  endpoint : Endpoint
  presharedKey : Option P.Value
  /-- Connecting to the current address failed for a reason that lasts. -/
  upgradeSuppressed : Bool

namespace Tunn

variable {P : Primitives} (t : Tunn P)

/-- Start the window afresh for a new path, and give the one it replaces. -/
def beginNewPath : Nat × Tunn P := (t.udpWindow, t.resetUdpWindow)

def restoreUdpWindow (window : Nat) : Tunn P := { t with udpWindow := window }

end Tunn

namespace Peer

variable {P : Primitives}

def new (tunnel : Tunn P) (index : UInt32) (endpoint : Option SocketAddr)
    (presharedKey : Option P.Value) : Peer P where
  tunnel := tunnel
  index := index
  endpoint := { addr := endpoint.map canonicalEndpoint }
  presharedKey := presharedKey
  upgradeSuppressed := false

variable (p : Peer P)

def shutdownEndpoint : Peer P := { p with endpoint := { p.endpoint with conn := none } }

/-- A new address takes the socket connected to the old one with it. -/
def moveEndpoint (addr : SocketAddr) (resetWindow : Bool) : Peer P :=
  let addr := canonicalEndpoint addr
  if p.endpoint.addr ≠ some addr then
    { p with
      endpoint := { addr := some addr, conn := none }
      tunnel := if resetWindow then p.tunnel.resetUdpWindow else p.tunnel
      upgradeSuppressed := false }
  else p

def setEndpoint (addr : SocketAddr) : Peer P := p.moveEndpoint addr true

/-- For a caller that has started the window for `addr` already. -/
def adoptEndpoint (addr : SocketAddr) : Peer P := p.moveEndpoint addr false

def setPresharedKey (presharedKey : Option P.Value) : Peer P :=
  { p with presharedKey := presharedKey, tunnel := p.tunnel.setPresharedKey presharedKey }

def setPersistentKeepaliveRange (range : Nat × Nat) : Peer P :=
  { p with tunnel := (p.tunnel.setPersistentKeepaliveRange range.1 range.2).2 }

theorem moveEndpoint_index (addr : SocketAddr) (resetWindow : Bool) :
    (p.moveEndpoint addr resetWindow).index = p.index := by
  unfold moveEndpoint
  dsimp only
  split
  · rfl
  · rfl

@[simp] theorem adoptEndpoint_tunnel (addr : SocketAddr) : (p.adoptEndpoint addr).tunnel = p.tunnel := by
  unfold adoptEndpoint moveEndpoint
  dsimp only
  split
  · rfl
  · rfl

theorem adoptEndpoint_endpoint {addr : SocketAddr} (hcanonical : canonicalEndpoint addr = addr) :
    (p.adoptEndpoint addr).endpoint =
      if p.endpoint.addr = some addr then p.endpoint else { addr := some addr } := by
  unfold adoptEndpoint moveEndpoint
  rw [hcanonical]
  by_cases hsame : p.endpoint.addr = some addr
  · simp [hsame]
  · simp [hsame]

end Peer

end BoringTun
