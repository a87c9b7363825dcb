import BoringTun.Tunn.State

/-!
What a tunnel sends (`noise/mod.rs`): a packet on the selected session, or without one
the pre-handshake burst and the initiation that will bring a session up.

Every producer checks that its mandatory datagram fits before it consumes anything.
-/

namespace BoringTun

/-- One junk datagram fewer to send, the last one at `now`. -/
def PendingAmneziaJunk.junkSent (now : Nat) (pending : PendingAmneziaJunk) : PendingAmneziaJunk :=
  { pending with remaining := pending.remaining - 1, lastPacketAt := some now }

namespace Tunn

variable {P : Primitives} (t : Tunn P)

/-! ### On a session -/

/-- The padding of a transport frame. Its plain size is observed before the draw. -/
def drawContentPadding (srcLen ceiling : Nat) : Nat × Tunn P :=
  let t := t.growWindow (t.amnezia.transportWindowObservation srcLen)
  let (pad, rng) := t.amnezia.contentPaddingForFrame srcLen ceiling t.amnezia.transportJunkSize
    t.udpWindow t.handshake.rng
  (pad, t.withRng rng)

/-- `src` on the selected session: a new packet, or one the queue already owns. -/
def encapsulateOnSession (src dst : Bytes) (budget : OutputBudget) : TunnResult × Tunn P :=
  match t.selected with
  | none => (.err .noCurrentSession, t)
  | some session =>
    match Budget.admits (Budget.transportFrame src.length t.amnezia.transportJunkSize) dst.length
        budget.transport with
    | .error e => (.err e, t)
    | .ok ceiling =>
      let (pad, t) := t.drawContentPadding src.length ceiling
      match session.formatPacketData t.handshake.obf t.handshake.rng src pad dst with
      | .error e => (.err e, t)
      | .ok (packet, session, rng) =>
        let t := (t.withRng rng).putSession (slotOf t.current) session
        let t := t.timerTick .timeLastPacketSent
        let t := if src.isEmpty then t else t.timerTick .timeLastDataPacketSent
        let t := { t with txBytes := t.txBytes + src.length }
        let (result, t) := t.writeToNetwork (overwrite dst 0 packet) packet.length
        let kind := if src.isEmpty then .transportKeepalive else .transportData
        (result, t.noteOutput kind result)

/-! ### The initiation -/

/-- What an initiation needs whatever its trailer. -/
def initiationWireFloor : Nat := HANDSHAKE_INIT_SZ + t.amnezia.handshakeInitJunkSize

/-- The deadline of the next retransmission, and the attempts of the cycle: counted from
zero by its first initiation, and by one with every other. -/
def armRetransmission (startingNewHandshake : Bool) : Tunn P :=
  let (timeout, rng) := t.amnezia.timers.retransmitTimeout t.handshake.rng
  let (jitter, timers) := t.timers.jitter
  let t := { t.withRng rng with timers := { timers with retransmitCurrent := timeout + jitter } }
  if startingNewHandshake then
    let (limit, rng) := t.amnezia.timers.maxRetransmissions t.handshake.rng
    let t := { t.withRng rng with
      timers := { t.timers with handshakeAttempts := 0, maxRetransmissionsCurrent := limit } }
    t.timerTick .timeLastHandshakeStarted
  else
    { t with timers := { t.timers with
        handshakeAttempts := min (t.timers.handshakeAttempts + 1) (2 ^ 32 - 1) } }

/-- Every initiation: direct, behind a burst, or on a timer. -/
def formatHandshakeInitiationNow (env : Env P) (dst : Bytes) (forceResend resetExpiredTimers : Bool)
    (budget : OutputBudget) : TunnResult × Tunn P × Env P :=
  if t.handshake.isInProgress && !forceResend then (.done, t, env)
  else
    match Budget.admits t.initiationWireFloor dst.length (budget.controlFor .other) with
    | .error e => (.err e, t, env)
    | .ok ceiling =>
      let (t, env) :=
        if resetExpiredTimers && t.handshake.isExpired then t.clearTimers env else (t, env)
      let startingNewHandshake := !t.handshake.isInProgress
      match t.handshake.formatHandshakeInitiation env dst with
      | (.error e, handshake, env) => (.err e, { t with handshake := handshake }, env)
      | (.ok (_, packet), handshake, env) =>
        let t := { t with handshake := handshake }
        let t := t.armRetransmission startingNewHandshake
        let t := t.timerTick .timeLastPacketSent
        let (result, t) := t.writeHandshakeToNetwork (overwrite dst 0 packet) packet.length ceiling
        let t := if result.isWriteToNetwork then t.note .initiationProduced else t
        (result, t.noteOutput .handshakeInitiation result, env)

/-! ### The burst -/

/-- The burst the configuration calls for, possibly an empty one. -/
def newPreHandshakeBurst (lastPacketAt : Option Nat) (resetExpiredTimers : Bool) :
    PendingAmneziaJunk × Tunn P :=
  if !t.amnezia.emitsPreHandshake then
    ({ imitationDatagrams := [], remaining := 0, lastPacketAt, resetExpiredTimers }, t)
  else
    let (imitationDatagrams, rng) :=
      t.amnezia.preHandshakeImitationDatagrams P t.handshake.rng
    ({ imitationDatagrams, remaining := t.amnezia.preHandshakeJunk.packetCount, lastPacketAt,
       resetExpiredTimers }, t.withRng rng)

def restartPendingBurst : Tunn P :=
  match t.pendingAmneziaJunk with
  | none => t
  | some old =>
    let (burst, t) := t.newPreHandshakeBurst old.lastPacketAt old.resetExpiredTimers
    { t with pendingAmneziaJunk := some burst }

/-- The pending burst restarts an expired cycle that has not begun. -/
def burstOwesExpiredReset : Bool :=
  t.handshake.isExpired && t.pendingAmneziaJunk.any (·.resetExpiredTimers)

/-- Spend the deferred timer reset at the first datagram that leaves. -/
def resetExpiredTimersOnFirstEmit (env : Env P) : Tunn P × Env P :=
  match t.pendingAmneziaJunk with
  | none => (t, env)
  | some pending =>
    let t' :=
      { t with pendingAmneziaJunk := some { pending with resetExpiredTimers := false } }
    if pending.resetExpiredTimers && t.handshake.isExpired then t'.clearTimers env else (t', env)

/-- The pacing of a burst: whether its next datagram is due. -/
def burstDue (pending : PendingAmneziaJunk) (env : Env P) : Bool × Env P :=
  let delay := (pending.imitationDatagrams.head?.map (·.1)).getD t.amnezia.preHandshakeJunk.delay
  match pending.lastPacketAt with
  | none => (true, env)
  | some last => (env.now - last ≥ delay, env.tick)

/-- The front imitation datagram, generated whole and never cut to fit. -/
def emitImitationDatagram (env : Env P) (pending : PendingAmneziaJunk) (datagram : Bytes)
    (rest : List (Nat × Bytes)) (dst : Bytes) (budget : OutputBudget) :
    TunnResult × Tunn P × Env P :=
  match Budget.admits datagram.length dst.length (budget.controlFor .other) with
  | .error e => (.err e, t, env)
  | .ok _ =>
    -- past the last one the first junk packet is due at once
    let (lastPacketAt, env) := if rest.isEmpty then (none, env) else (some env.now, env.tick)
    let t := { t with
      pendingAmneziaJunk := some { pending with imitationDatagrams := rest, lastPacketAt } }
    let (t, env) := t.resetExpiredTimersOnFirstEmit env
    let result := .writeToNetwork datagram
    (result, t.noteOutput .imitation result, env)

/-- The deferred initiation; the burst is over once it is written. -/
def emitDeferredInitiation (env : Env P) (pending : PendingAmneziaJunk) (dst : Bytes)
    (budget : OutputBudget) : TunnResult × Tunn P × Env P :=
  let (result, t, env) :=
    t.formatHandshakeInitiationNow env dst true pending.resetExpiredTimers budget
  (result, if result.isWriteToNetwork then { t with pendingAmneziaJunk := none } else t, env)

/-- One junk datagram. -/
def emitJunk (env : Env P) (dst : Bytes) (budget : OutputBudget) : TunnResult × Tunn P × Env P :=
  match t.amnezia.preHandshakeJunkRangeWithin budget with
  | .error e => (.err e, t, env)
  | .ok range =>
    if dst.length < t.amnezia.preHandshakeJunkMaxSizeIn range then
      (.err .destinationBufferTooSmall, t, env)
    else
      let (t, env) := t.resetExpiredTimersOnFirstEmit env
      match t.amnezia.fillPreHandshakeJunkIn dst range t.handshake.rng with
      | (.error e, rng) => (.err e, t.withRng rng, env)
      | (.ok packet, rng) =>
        let t := t.withRng rng
        let t := { t with
          pendingAmneziaJunk := t.pendingAmneziaJunk.map (PendingAmneziaJunk.junkSent env.now) }
        let result := .writeToNetwork packet
        (result, t.noteOutput .junk result, env.tick)

/-- The burst's next datagram, if it is due. -/
def advanceAmneziaJunk (env : Env P) (dst : Bytes) (budget : OutputBudget) :
    TunnResult × Tunn P × Env P :=
  match t.pendingAmneziaJunk with
  | none => (.done, t, env)
  | some pending =>
    match t.burstDue pending env with
    | (false, env) => (.done, t, env)
    | (true, env) =>
      match pending.imitationDatagrams with
      | (_, datagram) :: rest => t.emitImitationDatagram env pending datagram rest dst budget
      | [] =>
        if pending.remaining = 0 then t.emitDeferredInitiation env pending dst budget
        else t.emitJunk env dst budget

def formatHandshakeInitiation (env : Env P) (dst : Bytes) (forceResend : Bool)
    (budget : OutputBudget) : TunnResult × Tunn P × Env P :=
  if t.pendingAmneziaJunk.isSome then t.advanceAmneziaJunk env dst budget
  else if t.handshake.isInProgress && !forceResend then (.done, t, env)
  else
    let resetExpiredTimers := t.handshake.isExpired
    if t.amnezia.emitsPreHandshake then
      let (burst, t) := t.newPreHandshakeBurst none resetExpiredTimers
      let t := { t with pendingAmneziaJunk := some burst }.note .burstPrepared
      t.advanceAmneziaJunk env dst budget
    else t.formatHandshakeInitiationNow env dst forceResend resetExpiredTimers budget

/-! ### Writes and drains -/

/-- A new packet with no session: queued once, if what it starts is not an error. -/
def admitWithoutSession (env : Env P) (src dst : Bytes) (budget : OutputBudget) :
    TunnResult × Tunn P × Env P :=
  if !t.queueHasRoom then (.err .packetQueueFull, t, env)
  else
    let (result, t, env) := t.formatHandshakeInitiation env dst false budget
    if result.isErr then (result, t, env)
    else
      match t.queuePacket src with
      | .error e => (.err e, t, env)
      | .ok t => (result, t, env)

def encapsulate (env : Env P) (src dst : Bytes) (budget : OutputBudget) :
    TunnResult × Tunn P × Env P :=
  if t.hasCurrentSession then
    let (result, t) := t.encapsulateOnSession src dst budget
    (result, t, env)
  else t.admitWithoutSession env src dst budget

/-- The first queued packet that fits the transport budget, on the selected session;
those before it are dropped. `queue` is what is left of the queue. -/
def drainHeads (dst : Bytes) (budget : OutputBudget) (t : Tunn P) :
    (queue : List Bytes) → TunnResult × Tunn P
  | [] => (.done, { t with packetQueue := [] })
  | head :: rest =>
    if Budget.exceeds (Budget.transportFrame head.length t.amnezia.transportJunkSize)
        budget.transport then
      drainHeads dst budget (t.note .queueHeadDropped) rest
    else
      match { t with packetQueue := rest }.encapsulateOnSession head dst budget with
      | (.err e, t) =>
        -- the same head goes back to the front
        let t := { t with packetQueue := head :: t.packetQueue }
        (if (TunnResult.err e).isCapacity then .err e else .done, t)
      | (result, t) => (result, t)

/-- Drain one packet the queue already owns, or drive the handshake it waits for. -/
def sendQueuedPacket (env : Env P) (dst : Bytes) (budget : OutputBudget) :
    TunnResult × Tunn P × Env P :=
  if t.packetQueue.isEmpty then (.done, t, env)
  else if !t.hasCurrentSession then t.formatHandshakeInitiation env dst false budget
  else
    let (result, t) := drainHeads dst budget t t.packetQueue
    (result, t, env)

end Tunn

end BoringTun
