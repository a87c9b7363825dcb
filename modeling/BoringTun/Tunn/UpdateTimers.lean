import BoringTun.Tunn.Output

/-!
A timer poll (`Tunn::update_timers` in `noise/timers.rs`): sessions age out, a cycle past
its bounds expires, and at most one demand is served: the pending burst, a retransmission
or a rekey, or a keepalive.

Subtractions of the source that would panic on underflow are truncated here; the stamps
they take from the poll are never ahead of it (`Timers.Behind`).
-/

namespace BoringTun

namespace Tunn

variable {P : Primitives} (t : Tunn P)

/-! ### Ageing and expiry -/

/-- The session in a slot is older than its keys may be. -/
def isAged (timeNow : Nat) (slot : Fin N_SESSIONS) : Bool :=
  timeNow - t.timers.sessionTimers slot > t.amnezia.timers.keychainExpire

def updateSessionTimers (timeNow : Nat) : Tunn P :=
  let removed := (List.finRange N_SESSIONS).filter fun slot =>
    t.isAged timeNow slot && (t.sessions slot).isSome
  let opState := removed.foldl OpState.sessionRemoved t.opState
  { t with
    sessions := fun slot => if t.isAged timeNow slot then none else t.sessions slot
    timers := { t.timers with
      sessionTimers := fun slot =>
        if t.isAged timeNow slot then timeNow else t.timers.sessionTimers slot }
    opState := if removed.isEmpty then opState else opState.note .sessionsAgedOut }

def clearAll (env : Env P) : Tunn P × Env P :=
  { t.removeAllSessions with packetQueue := [], pendingAmneziaJunk := none }.clearTimers env

/-- The cycle ends: no session, no queued packet and no burst is left. -/
def expire (env : Env P) : Tunn P × Env P :=
  let (t, env) := { t with handshake := t.handshake.setExpired }.clearAll env
  (t.note .handshakeExpired, env)

/-- Past the bounds that nothing a refused output does can move: the age of the key
material, and for an untuned tunnel the length of a handshake. -/
def pastAbsoluteBounds (now : Nat) : Bool :=
  now - t.timers.timers .timeSessionEstablished ≥ t.amnezia.timers.keychainExpire * 3 ||
    (t.handshake.timer.isSome && t.amnezia.timers.maxHandshakeAttempts = (0, 0) &&
      t.amnezia.timers.rekeyTimeout = (0, 0) &&
      now - t.timers.timers .timeLastHandshakeStarted ≥ untunedAttemptWindow)

/-! ### Demands -/

/-- What selecting a keepalive spends. -/
structure KeepaliveRollback where
  due : Bool
  persistent : Nat
  passive : Option Nat
  interval : Nat

def keepaliveRollback : KeepaliveRollback where
  due := t.timers.persistentKeepaliveDue
  persistent := t.timers.timers .timePersistentKeepalive
  passive := t.timers.wantKeepalive
  interval := t.timers.persistentKeepaliveCurrent

def rollBackKeepalive (rollback : KeepaliveRollback) : Tunn P :=
  { t with timers := { t.timers.set .timePersistentKeepalive rollback.persistent with
      persistentKeepaliveDue := rollback.due
      wantKeepalive := rollback.passive
      persistentKeepaliveCurrent := rollback.interval } }

def noteRefusal (result : TunnResult) : Tunn P :=
  if result.isErr then t.note .tickDemandRefused else t

/-- Send the keepalive a poll selected; a capacity refusal gives back what that spent. -/
def sendKeepalive (env : Env P) (dst : Bytes) (rollback : KeepaliveRollback)
    (budget : OutputBudget) : TunnResult × Tunn P × Env P :=
  let (result, t, env) := t.encapsulate env [] dst budget
  let t := if result.isCapacity then t.rollBackKeepalive rollback else t
  (result, t.noteRefusal result, env)

/-- Start the handshake a poll selected. The latch it spent is armed again if nothing was
produced and no burst carries the demand. -/
def sendInitiation (env : Env P) (dst : Bytes) (latch : Option Nat) (budget : OutputBudget) :
    TunnResult × Tunn P × Env P :=
  let (result, t, env) := t.formatHandshakeInitiation env dst true budget
  let t :=
    if latch.isSome && t.pendingAmneziaJunk.isNone && result.isCapacity then
      { t with timers := { t.timers with wantHandshake := latch } }
    else t
  (result, t.noteRefusal result, env)

/-- A poll with an initiation in flight: retransmit, or give up. -/
def pollHandshake (env : Env P) (timeInitSent : Nat) (dst : Bytes) (budget : OutputBudget) :
    TunnResult × Tunn P × Env P :=
  let elapsed := env.now - timeInitSent
  let env := env.tick
  if elapsed < t.timers.retransmitCurrent then (.done, t, env)
  else if t.timers.handshakeAttempts ≥ t.timers.maxRetransmissionsCurrent then
    let (t, env) := t.expire env
    (.err .connectionExpired, t, env)
  else t.sendInitiation env dst none budget

/-- The initiator refreshes a key that is old enough and in use. -/
def rekeyDue (now : Nat) : Bool :=
  let established := t.timers.timers .timeSessionEstablished
  t.timers.isInitiator &&
    ((established < t.timers.timers .timeLastDataPacketSent &&
        now - established ≥ t.timers.rekeyAfterCurrent) ||
      (established < t.timers.timers .timeLastDataPacketReceived &&
        now - established ≥ t.timers.refreshReceiveCurrent))

/-- What selecting the passive and the persistent keepalive spends. -/
def spendKeepalives (passive persistent : Bool) : Tunn P :=
  let t := if passive then { t with timers := { t.timers with wantKeepalive := none } } else t
  if persistent then
    { t with timers := { t.timers with persistentKeepaliveDue := false } }.timerTick
      .timePersistentKeepalive
  else t

/-- Select the keepalives that are due. -/
def pollKeepalives (env : Env P) (now : Nat) (dst : Bytes) (rollback : KeepaliveRollback)
    (budget : OutputBudget) : TunnResult × Tunn P × Env P :=
  let passive := t.timers.wantKeepalive.any fun armed => now - armed ≥ t.timers.keepaliveCurrent
  let persistent := t.timers.persistentKeepaliveOn && (t.timers.persistentKeepaliveDue ||
    now - t.timers.timers .timePersistentKeepalive ≥ t.timers.persistentKeepaliveCurrent)
  let t := t.spendKeepalives passive persistent
  if passive || persistent then t.sendKeepalive env dst rollback budget else (.done, t, env)

/-- What selecting the latch spends. -/
def spendLatch (latch : Option Nat) : Tunn P :=
  if latch.isSome then { t with timers := { t.timers with wantHandshake := none } } else t

/-- A poll with no initiation in flight. -/
def pollIdle (env : Env P) (now : Nat) (dst : Bytes) (rollback : KeepaliveRollback)
    (budget : OutputBudget) : TunnResult × Tunn P × Env P :=
  let rekey := t.rekeyDue now
  let latch := t.timers.wantHandshake.filter fun armed => now - armed ≥ t.timers.newHandshakeCurrent
  let t := t.spendLatch latch
  if rekey || latch.isSome then t.sendInitiation env dst latch budget
  else t.pollKeepalives env now dst rollback budget

/-- The clock is read, the limiter's window turned and the sessions aged. -/
def beginPoll (env : Env P) : Nat × Tunn P × Env P :=
  let time := env.now
  let env := env.tick
  let (limiter, env) :=
    if t.timers.shouldResetRr then (t.rateLimiter.resetCount env.now, env.tick)
    else (t.rateLimiter, env)
  let now := t.timers.monotonicNow time
  let t := { t with timers := t.timers.set .timeCurrent now, rateLimiter := limiter }
  (now, t.updateSessionTimers now, env)

/-- Forget a cookie that is past its life. -/
def forgetOldCookie (now : Nat) : Tunn P :=
  if t.handshake.hasCookie &&
      now - t.timers.timers .timeCookieReceived ≥ COOKIE_EXPIRATION_TIME then
    { t with handshake := t.handshake.clearCookie }
  else t

/-- What a poll serves once the sessions are aged. -/
def servePoll (env : Env P) (now : Nat) (dst : Bytes) (rollback : KeepaliveRollback)
    (budget : OutputBudget) : TunnResult × Tunn P × Env P :=
  -- the timers still hold the expiry of the cycle this burst restarts
  if t.burstOwesExpiredReset then t.advanceAmneziaJunk env dst budget
  else if t.pendingAmneziaJunk.isSome then
    if t.pastAbsoluteBounds now then
      let (t, env) := t.expire env
      (.err .connectionExpired, t, env)
    else t.advanceAmneziaJunk env dst budget
  else if t.handshake.isExpired then
    -- a keepalive interval turned on since is still owed, and restarts the cycle
    if !t.timers.persistentKeepaliveOn || !t.timers.persistentKeepaliveDue then
      (.err .connectionExpired, t, env)
    else
      (t.spendKeepalives false true).sendKeepalive env dst rollback budget
  else
    let t := t.forgetOldCookie now
    if t.pastAbsoluteBounds now then
      let (t, env) := t.expire env
      (.err .connectionExpired, t, env)
    else
      match t.handshake.timer with
      | some timeInitSent => t.pollHandshake env timeInitSent dst budget
      | none => t.pollIdle env now dst rollback budget

def updateTimers (env : Env P) (dst : Bytes) (budget : OutputBudget) :
    TunnResult × Tunn P × Env P :=
  let rollback := t.keepaliveRollback
  let (now, t, env) := t.beginPoll env
  t.servePoll env now dst rollback budget

end Tunn

end BoringTun
