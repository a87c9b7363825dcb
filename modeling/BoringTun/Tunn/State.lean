import BoringTun.Amnezia.Burst
import BoringTun.Inbound
import BoringTun.Timers

/-!
A tunnel (`Tunn` in `noise/mod.rs`, `OpState` in `noise/op_report.rs`) and the small
changes its operations are made of.

A `Tunn` carries the proof that its configuration passed `check_header_protection_nonce`:
no door into a tunnel lets another one in.
-/

namespace BoringTun

def MAX_QUEUE_DEPTH : Nat := 256

inductive TunnResult where
  | done
  | err (e : WireGuardError)
  | writeToNetwork (packet : Bytes)
  | writeToTunnelV4 (packet : Bytes) (addr : UInt32)
  | writeToTunnelV6 (packet : Bytes) (addr : BitVec 128)
  deriving DecidableEq

namespace TunnResult

def isErr : TunnResult → Bool
  | err _ => true
  | _ => false

def isWriteToNetwork : TunnResult → Bool
  | writeToNetwork _ => true
  | _ => false

/-- The refusals that a larger buffer or budget would not have met. -/
def isCapacity : TunnResult → Bool
  | err .destinationBufferTooSmall | err .outputBudgetExceeded => true
  | _ => false

end TunnResult

/-- What a received datagram was accepted as. -/
inductive AuthenticatedPacketKind where
  | handshakeInitiation | handshakeResponse | transport | cookieReply
  deriving DecidableEq

def AuthenticatedPacketKind.movesEndpoint : AuthenticatedPacketKind → Bool
  | .handshakeInitiation | .handshakeResponse | .transport => true
  | .cookieReply => false

/-! ### What one operation did -/

namespace OpReport

inductive PacketKind where
  | none | handshakeInitiation | handshakeResponse | cookieReply | transportData
  | transportKeepalive | junk | imitation
  deriving DecidableEq

inductive Event where
  | inputAccepted | peerAuthenticated | sessionStored | currentSessionChanged
  | initiationProduced | queueAdmitted | handshakeExpired | sessionsAgedOut | burstPrepared
  | tickDemandRefused | queueHeadDropped
  deriving DecidableEq

end OpReport

structure OpState where
  opSeq : UInt64 := 0
  /-- Never-reused identity of each stored session; 0 is none. -/
  slotSerial : Fin N_SESSIONS → Nat := fun _ => 0
  nextSessionSerial : Nat := 1
  events : OpReport.Event → Bool := fun _ => false
  inputKind : OpReport.PacketKind := .none
  outputKind : OpReport.PacketKind := .none

namespace OpState

def note (op : OpState) (event : OpReport.Event) : OpState :=
  { op with events := Function.update op.events event true }

def noteInput (op : OpState) (kind : OpReport.PacketKind) (accepted : AuthenticatedPacketKind) :
    OpState :=
  let op := { op with inputKind := kind }.note .inputAccepted
  if accepted.movesEndpoint then op.note .peerAuthenticated else op

/-- Recorded only when the result is network output. -/
def noteOutput (op : OpState) (kind : OpReport.PacketKind) (result : TunnResult) : OpState :=
  if result.isWriteToNetwork then { op with outputKind := kind } else op

def sessionStored (op : OpState) (slot : Fin N_SESSIONS) : OpState :=
  { op with
    slotSerial := Function.update op.slotSerial slot op.nextSessionSerial
    nextSessionSerial := min (op.nextSessionSerial + 1) (2 ^ 64 - 1) }.note .sessionStored

def sessionRemoved (op : OpState) (slot : Fin N_SESSIONS) : OpState :=
  { op with slotSerial := Function.update op.slotSerial slot 0 }

def allSessionsRemoved (op : OpState) : OpState := { op with slotSerial := fun _ => 0 }

end OpState

/-! ### The tunnel -/

/-- A pre-handshake burst in flight. -/
structure PendingAmneziaJunk where
  /-- Each with the delay before it. -/
  imitationDatagrams : List (Nat × Bytes)
  remaining : Nat
  lastPacketAt : Option Nat
  /-- The burst restarts an expired cycle and nothing of it has left yet. -/
  resetExpiredTimers : Bool

/-- A received packet that has authenticated and has not been acted on. A transport
packet comes with the session as its replay window was marked. -/
inductive Authenticated (P : Primitives) where
  | handshakeInit (init : AuthenticatedInit P)
  | handshakeResponse (response : AuthenticatedResponse P)
  | cookieReply (cookie : Bytes)
  | data (receiverIdx : UInt32) (plaintext : Bytes) (session : Session P)

def Authenticated.kind {P : Primitives} : Authenticated P → AuthenticatedPacketKind
  | handshakeInit _ => .handshakeInitiation
  | handshakeResponse _ => .handshakeResponse
  | cookieReply _ => .cookieReply
  | data .. => .transport

theorem Authenticated.of_kind_transport {P : Primitives} {packet : Option (Authenticated P)}
    (h : packet.map kind = some .transport) :
    ∃ receiverIdx plaintext session, packet = some (.data receiverIdx plaintext session) := by
  rcases packet with _ | (_ | _ | _ | ⟨receiverIdx, plaintext, session⟩)
  · cases h
  · cases h
  · cases h
  · cases h
  · exact ⟨receiverIdx, plaintext, session, rfl⟩

structure Tunn (P : Primitives) where
  handshake : Handshake P
  /-- The slot of a session is its index modulo `N_SESSIONS`. -/
  sessions : Fin N_SESSIONS → Option (Session P)
  /-- The index of the selected session. -/
  current : Nat
  packetQueue : List Bytes
  timers : Timers
  txBytes : Nat
  rxBytes : Nat
  amnezia : AmneziaConfig
  autoImitation : AutoImitation
  pendingAmneziaJunk : Option PendingAmneziaJunk
  rateLimiter : RateLimiter P
  udpWindow : Nat
  opState : OpState
  checked : amnezia.checkHeaderProtectionNonce = .ok ()

def grownWindow (window size : Nat) : Nat := max window (min size (2 ^ 32 - 1))

/-- What a new tunnel takes from the operating system. -/
structure TunnSeed (P : Primitives) where
  stamper : TimeStamper
  /-- Seeding the generator from OS entropy can fail. -/
  handshakeRng : Except String Rng
  timeStarted : Nat
  jitterRng : Rng
  limiter : RateLimiterSeed P

namespace Tunn

variable {P : Primitives}

/-- A tunnel on obfuscation ranges that are already validated. -/
def newWithObfuscation (staticPrivate : P.Secret) (peerStaticPublic : P.Value)
    (presharedKey : Option P.Value) (persistentKeepalive : Option Nat) (index : UInt32)
    (rateLimiter : Option (RateLimiter P)) (obf : ObfuscationRanges) (amnezia : AmneziaConfig)
    (seed : TunnSeed P) : Except String (Tunn P) :=
  match hcheck : amnezia.checkHeaderProtectionNonce with
  | .error e => .error e
  | .ok () =>
    match seed.handshakeRng with
    | .error e => .error e
    | .ok rng => .ok {
        -- the low byte of an index is the session counter
        handshake := .new staticPrivate peerStaticPublic (index <<< 8) presharedKey obf
          seed.stamper rng
        sessions := fun _ => none
        current := 0
        packetQueue := []
        timers := .new persistentKeepalive rateLimiter.isNone seed.timeStarted seed.jitterRng
        txBytes := 0
        rxBytes := 0
        amnezia := amnezia
        autoImitation := {}
        pendingAmneziaJunk := none
        rateLimiter := rateLimiter.getD
          (.new (P.publicKey staticPrivate) PEER_HANDSHAKE_RATE_LIMIT seed.limiter)
        udpWindow := DEFAULT_UDP_WINDOW
        opState := {}
        checked := hcheck }

variable (t : Tunn P)

/-- The session in the selected slot. -/
def selected : Option (Session P) := t.sessions (slotOf t.current)

/-- A session is selected and can still send. -/
def hasCurrentSession : Bool := t.selected.any fun session => !session.sendingExhausted

/-- Effective outbound imitation. -/
def imitationProtocol : AmneziaImitationProtocol :=
  if t.amnezia.imitation.protocol = .auto then t.autoImitation.learned.getD .none
  else t.amnezia.imitation.protocol

/-! ### Small changes -/

def withRng (rng : Rng) : Tunn P := { t with handshake := { t.handshake with rng := rng } }

def note (event : OpReport.Event) : Tunn P := { t with opState := t.opState.note event }

def noteOutput (kind : OpReport.PacketKind) (result : TunnResult) : Tunn P :=
  { t with opState := t.opState.noteOutput kind result }

def growWindow (size : Nat) : Tunn P := { t with udpWindow := grownWindow t.udpWindow size }

/-- Replace the session in a slot by itself after use. -/
def putSession (slot : Fin N_SESSIONS) (session : Session P) : Tunn P :=
  { t with sessions := Function.update t.sessions slot (some session) }

/-- Store a new session in the slot of its index. -/
def storeSession (session : Session P) : Tunn P :=
  let slot := slotOf session.receivingIndex.toNat
  { t.putSession slot session with opState := t.opState.sessionStored slot }

def removeAllSessions : Tunn P :=
  { t with sessions := fun _ => none, opState := t.opState.allSessionsRemoved }

def timerTick (name : TimerName) : Tunn P :=
  let (timers, rng) := t.timers.tick t.amnezia.timers t.handshake.rng name
  { t.withRng rng with timers := timers }

def timerTickSessionEstablished (isInitiator : Bool) (sessionIdx : Nat) : Tunn P :=
  let (timers, rng) := t.timers.sessionEstablished t.amnezia.timers t.handshake.rng isInitiator
    (slotOf sessionIdx)
  { t.withRng rng with timers := timers, pendingAmneziaJunk := none }

def clearTimers (env : Env P) : Tunn P × Env P :=
  ({ t with timers := t.timers.clear env.now }, env.tick)

def redrawTunableTimers : Tunn P :=
  let (timers, rng) := t.timers.redrawTunable t.amnezia.timers t.handshake.rng
  { t.withRng rng with timers := timers }

/-- Select a session, unless the selected one was established later. -/
def setCurrentSession (newIdx : Nat) : Tunn P :=
  if t.current = newIdx then t
  else if t.selected.isNone ∨
      t.timers.sessionTimers (slotOf newIdx) ≥ t.timers.sessionTimers (slotOf t.current) then
    { t with current := newIdx }
  else t

def queueHasRoom : Bool := t.packetQueue.length < MAX_QUEUE_DEPTH

def queuePacket (packet : Bytes) : Result (Tunn P) :=
  if !t.queueHasRoom then .error .packetQueueFull
  else .ok ({ t with packetQueue := t.packetQueue ++ [packet] }.note .queueAdmitted)

/-! ### Framing for the wire -/

/-- Frame `dst[..packetSize]`. -/
def writeToNetworkWithImitation (dst : Bytes) (packetSize : Nat) (room : TrailerRoom)
    (protocol : AmneziaImitationProtocol) : TunnResult × Tunn P :=
  let (framed, rng) := (t.amnezia.resolveImitation protocol).prependOutboundWithTrailer P
    t.handshake.obf dst packetSize (some room) t.handshake.rng
  let result := match framed with
    | .ok packet => .writeToNetwork packet
    | .error e => .err e
  (result, t.withRng rng)

def writeToNetworkWith (dst : Bytes) (packetSize : Nat) (room : TrailerRoom) :
    TunnResult × Tunn P :=
  t.writeToNetworkWithImitation dst packetSize room t.imitationProtocol

def writeToNetwork (dst : Bytes) (packetSize : Nat) : TunnResult × Tunn P :=
  t.writeToNetworkWith dst packetSize (.window t.udpWindow)

/-- An initiation or a response, its trailer kept within `ceiling`. -/
def writeHandshakeToNetwork (dst : Bytes) (packetSize ceiling : Nat) : TunnResult × Tunn P :=
  t.writeToNetworkWith dst packetSize ((TrailerRoom.window t.udpWindow).within ceiling)

end Tunn

end BoringTun
