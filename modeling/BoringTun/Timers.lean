import BoringTun.Amnezia.Config
import BoringTun.Handshake

/-!
The timers of a tunnel (`noise/timers.rs`). Durations are nanoseconds.

Stamps are readings of the last poll, `TimeCurrent`, not of the clock. A poll never
takes it back, so no stamp is ever ahead of it: `Behind`, which every function here
keeps.
-/

namespace BoringTun

def secs (n : Nat) : Nat := n * 10 ^ 9
def millis (n : Nat) : Nat := n * 10 ^ 6

def REKEY_AFTER_TIME : Nat := secs 120
def REJECT_AFTER_TIME : Nat := secs 180
def REKEY_ATTEMPT_TIME : Nat := secs 90
def REKEY_TIMEOUT : Nat := secs 5
def KEEPALIVE_TIMEOUT : Nat := secs 10
def COOKIE_EXPIRATION_TIME : Nat := secs 120
def REKEY_TIMEOUT_JITTER_MAX_MS : Nat := 334

/-- The untuned bound on a handshake, widened by the most jitter its retries can add. -/
def untunedAttemptWindow : Nat :=
  REKEY_ATTEMPT_TIME + millis REKEY_TIMEOUT_JITTER_MAX_MS * (REKEY_ATTEMPT_TIME / REKEY_TIMEOUT)

/-! ### Tunable ranges -/

namespace AwgTimers

/-- A draw from a range in whole seconds, or `default` when it is unset. -/
def pick (range : Nat × Nat) (default : Nat) (rng : Rng) : Nat × Rng :=
  if range = (0, 0) then (default, rng)
  else
    let (n, rng) := randomUsizeInclusive range.1 range.2 rng
    (secs n, rng)

def lo (range : Nat × Nat) (default : Nat) : Nat :=
  if range = (0, 0) then default else secs range.1

def hi (range : Nat × Nat) (default : Nat) : Nat :=
  if range = (0, 0) then default else secs range.2

variable (t : AwgTimers) (rng : Rng)

def keyRefreshSending : Nat × Rng := pick t.rekeyAfterTime REKEY_AFTER_TIME rng

def keyRefreshReceiving : Nat × Rng :=
  let (reject, rng) := pick t.rejectAfterTime REJECT_AFTER_TIME rng
  (reject - lo t.keepaliveTimeout KEEPALIVE_TIMEOUT - lo t.rekeyTimeout REKEY_TIMEOUT, rng)

def retransmitTimeout : Nat × Rng := pick t.rekeyTimeout REKEY_TIMEOUT rng

def newHandshakeTimeout : Nat × Rng :=
  let (timeout, rng) := pick t.rekeyTimeout REKEY_TIMEOUT rng
  (hi t.keepaliveTimeout KEEPALIVE_TIMEOUT + timeout, rng)

def keepalive : Nat × Rng := pick t.keepaliveTimeout KEEPALIVE_TIMEOUT rng

/-- The age at which a key is dropped: the most permissive draw. -/
def keychainExpire : Nat := hi t.rejectAfterTime REJECT_AFTER_TIME

def maxRetransmissions : Nat × Rng :=
  if t.maxHandshakeAttempts = (0, 0) then (REKEY_ATTEMPT_TIME / REKEY_TIMEOUT - 1, rng)
  else
    let (n, rng) := randomUsizeInclusive t.maxHandshakeAttempts.1 t.maxHandshakeAttempts.2 rng
    (min (n + 1) (2 ^ 32 - 1), rng)

end AwgTimers

inductive TimerName where
  | timeCurrent
  | timeSessionEstablished
  | timeLastHandshakeStarted
  | timeLastPacketReceived
  | timeLastPacketSent
  | timeLastDataPacketReceived
  | timeLastDataPacketSent
  | timeCookieReceived
  | timePersistentKeepalive
  deriving DecidableEq

/-- The slot of the ring an index falls into. -/
def slotOf (index : Nat) : Fin N_SESSIONS := ⟨index % N_SESSIONS, Nat.mod_lt _ (by decide)⟩

structure Timers where
  isInitiator : Bool
  timeStarted : Nat
  timers : TimerName → Nat
  /-- When the session in each slot of the ring was established. -/
  sessionTimers : Fin N_SESSIONS → Nat
  wantKeepalive : Option Nat
  wantHandshake : Option Nat
  /-- Inclusive bounds in seconds; `(0, 0)` is off. -/
  persistentKeepalive : Nat × Nat
  persistentKeepaliveCurrent : Nat
  persistentKeepaliveDue : Bool
  jitterRng : Rng
  shouldResetRr : Bool
  retransmitCurrent : Nat
  handshakeAttempts : Nat
  maxRetransmissionsCurrent : Nat
  keepaliveCurrent : Nat
  newHandshakeCurrent : Nat
  rekeyAfterCurrent : Nat
  refreshReceiveCurrent : Nat

/-- Normalized bounds of a keepalive interval; `none` for an inverted range. -/
def normalizePersistentKeepaliveRange (low high : Nat) : Option (Nat × Nat) :=
  if low > high then none
  else
    let lo := min low (2 ^ 16 - 1)
    let hi := min high (2 ^ 16 - 1)
    if low = high then some (lo, lo) else some (max lo 1, hi)

namespace Timers

/-- New timers; the start and the jitter's seed are taken by the caller. -/
def new (persistentKeepalive : Option Nat) (resetRr : Bool) (timeStarted : Nat) (jitterRng : Rng) :
    Timers where
  isInitiator := false
  timeStarted := timeStarted
  timers _ := 0
  sessionTimers _ := 0
  wantKeepalive := none
  wantHandshake := none
  persistentKeepalive := (persistentKeepalive.getD 0, persistentKeepalive.getD 0)
  persistentKeepaliveCurrent := secs (persistentKeepalive.getD 0)
  persistentKeepaliveDue := persistentKeepalive.getD 0 > 0
  jitterRng := jitterRng
  shouldResetRr := resetRr
  retransmitCurrent := REKEY_TIMEOUT
  handshakeAttempts := 0
  maxRetransmissionsCurrent := REKEY_ATTEMPT_TIME / REKEY_TIMEOUT - 1
  keepaliveCurrent := KEEPALIVE_TIMEOUT
  newHandshakeCurrent := KEEPALIVE_TIMEOUT + REKEY_TIMEOUT
  rekeyAfterCurrent := REKEY_AFTER_TIME
  refreshReceiveCurrent := REJECT_AFTER_TIME - KEEPALIVE_TIMEOUT - REKEY_TIMEOUT

variable (t : Timers)

def timeCurrent : Nat := t.timers .timeCurrent

/-- The time since the start at clock reading `time`, never earlier than the last poll. -/
def monotonicNow (time : Nat) : Nat := max (time - t.timeStarted) t.timeCurrent

/-- Set every timer to the current time. -/
def clear (time : Nat) : Timers :=
  { t with timers := fun _ => t.monotonicNow time, wantHandshake := none, wantKeepalive := none }

/-- Write one stamp. -/
def set (name : TimerName) (time : Nat) : Timers :=
  { t with timers := Function.update t.timers name time }

/-- A fresh draw from a range; a fixed interval, or off, draws nothing. -/
def rearmPersistentKeepalive : Timers :=
  let (lo, hi) := t.persistentKeepalive
  if lo = hi then { t with persistentKeepaliveCurrent := secs lo }
  else
    let (n, rng) := randomUsizeInclusive lo hi t.jitterRng
    { t with persistentKeepaliveCurrent := secs n, jitterRng := rng }

def persistentKeepaliveOn : Bool := t.persistentKeepalive.2 > 0

/-- One draw of handshake jitter. -/
def jitter : Nat × Timers :=
  let (word, rng) := t.jitterRng.nextU32
  (millis (word % REKEY_TIMEOUT_JITTER_MAX_MS), { t with jitterRng := rng })

def setPersistentKeepaliveRange (range : Nat × Nat) : Timers :=
  if range = t.persistentKeepalive then t
  else
    let wasOn := t.persistentKeepaliveOn
    let t := { t with persistentKeepalive := range }
    let t :=
      if !t.persistentKeepaliveOn then { t with persistentKeepaliveDue := false }
      else if !wasOn then { t with persistentKeepaliveDue := true }
      else t
    t.rearmPersistentKeepalive

def setPersistentKeepalive (keepalive : Option Nat) : Timers :=
  t.setPersistentKeepaliveRange (keepalive.getD 0, keepalive.getD 0)

/-- Traffic either way restarts the persistent keepalive. -/
def traversal : Timers :=
  (t.set .timePersistentKeepalive t.timeCurrent).rearmPersistentKeepalive

/-- `timer_tick`, with the ranges and the generator of the tunnel. -/
def tick (cfg : AwgTimers) (rng : Rng) (name : TimerName) : Timers × Rng :=
  let time := t.timeCurrent
  let (t, rng) : Timers × Rng := match name with
    | .timeLastPacketReceived => ({ t with wantHandshake := none }.traversal, rng)
    | .timeLastPacketSent =>
      ({ { t with wantKeepalive := none }.traversal with persistentKeepaliveDue := false }, rng)
    | .timeLastDataPacketReceived =>
      -- drawn when the deadline arms, not per packet
      if t.wantKeepalive.isNone then
        let (keepalive, rng) := cfg.keepalive rng
        ({ t with keepaliveCurrent := keepalive, wantKeepalive := some time }, rng)
      else (t, rng)
    | .timeLastDataPacketSent =>
      if t.wantHandshake.isNone then
        let (timeout, rng) := cfg.newHandshakeTimeout rng
        let (jitter, t) := t.jitter
        ({ t with newHandshakeCurrent := timeout + jitter, wantHandshake := some time }, rng)
      else (t, rng)
    | _ => (t, rng)
  (t.set name time, rng)

/-- The timers' part of `timer_tick_session_established`. -/
def sessionEstablished (cfg : AwgTimers) (rng : Rng) (isInitiator : Bool) (slot : Fin N_SESSIONS) :
    Timers × Rng :=
  let (t, rng) := t.tick cfg rng .timeSessionEstablished
  let (rekeyAfter, rng) := cfg.keyRefreshSending rng
  let (refreshReceive, rng) := cfg.keyRefreshReceiving rng
  ({ t with
      sessionTimers := Function.update t.sessionTimers slot t.timeCurrent
      isInitiator := isInitiator
      rekeyAfterCurrent := rekeyAfter
      refreshReceiveCurrent := refreshReceive }, rng)

/-- Re-draw every cached deadline. The attempts already spent are kept. -/
def redrawTunable (cfg : AwgTimers) (rng : Rng) : Timers × Rng :=
  let (retransmit, rng) := cfg.retransmitTimeout rng
  let (keepalive, rng) := cfg.keepalive rng
  let (newHandshake, rng) := cfg.newHandshakeTimeout rng
  let (jitter₁, t) := t.jitter
  let (rekeyAfter, rng) := cfg.keyRefreshSending rng
  let (refreshReceive, rng) := cfg.keyRefreshReceiving rng
  let (maxRetransmissions, rng) := cfg.maxRetransmissions rng
  let (jitter₂, t) := t.jitter
  ({ t with
      retransmitCurrent := retransmit + jitter₂
      maxRetransmissionsCurrent := maxRetransmissions
      keepaliveCurrent := keepalive
      newHandshakeCurrent := newHandshake + jitter₁
      rekeyAfterCurrent := rekeyAfter
      refreshReceiveCurrent := refreshReceive }, rng)

/-! ### Stamps stay behind the last poll -/

/-- No stamp is ahead of the last poll. -/
structure Behind : Prop where
  timers : ∀ name, t.timers name ≤ t.timeCurrent
  session : ∀ slot, t.sessionTimers slot ≤ t.timeCurrent

/-- Two sets of timers with the same poll and the same establishment stamps, where no
other stamp moved but to the poll. -/
structure Ticked (t t' : Timers) : Prop where
  current : t'.timeCurrent = t.timeCurrent
  session : t'.sessionTimers = t.sessionTimers
  stamp : ∀ name, t'.timers name = t.timers name ∨ t'.timers name = t.timeCurrent
  started : t'.timeStarted = t.timeStarted

namespace Ticked

variable {t t' t'' : Timers}

theorem of_timers (h : t'.timers = t.timers) (hs : t'.sessionTimers = t.sessionTimers)
    (hstart : t'.timeStarted = t.timeStarted) : Ticked t t' where
  current := congrFun h _
  session := hs
  stamp name := .inl (congrFun h name)
  started := hstart

theorem refl (t : Timers) : Ticked t t := .of_timers rfl rfl rfl

theorem trans (h : Ticked t t') (h' : Ticked t' t'') : Ticked t t'' where
  current := h'.current.trans h.current
  session := h'.session.trans h.session
  started := h'.started.trans h.started
  stamp name := by
    rcases h'.stamp name with heq | heq
    · rw [heq]
      exact h.stamp name
    · exact .inr (heq.trans h.current)

theorem behind (h : Ticked t t') (hb : t.Behind) : t'.Behind where
  timers name := by
    rw [h.current]
    rcases h.stamp name with heq | heq
    · rw [heq]
      exact hb.timers name
    · exact Nat.le_of_eq heq
  session slot := by
    rw [h.session, h.current]
    exact hb.session slot

end Ticked

theorem set_timers (name other : TimerName) (time : Nat) :
    (t.set name time).timers other = if other = name then time else t.timers other :=
  Function.update_apply ..

theorem set_ticked (name : TimerName) : Ticked t (t.set name t.timeCurrent) where
  current := by
    unfold timeCurrent
    rw [set_timers, ite_eq_right_iff]
    exact fun _ => rfl
  session := rfl
  started := rfl
  stamp other := by
    rw [set_timers]
    split
    · exact .inr rfl
    · exact .inl rfl

variable {t} in
theorem Ticked.rearmPersistentKeepalive {t' : Timers} (h : Ticked t t') :
    Ticked t t'.rearmPersistentKeepalive := by
  apply h.trans
  unfold Timers.rearmPersistentKeepalive
  dsimp only
  split
  · exact .of_timers rfl rfl rfl
  · exact .of_timers rfl rfl rfl

variable {t} in
theorem Ticked.traversal {t' : Timers} (h : Ticked t t') : Ticked t t'.traversal :=
  (h.trans (t'.set_ticked _)).rearmPersistentKeepalive

theorem tick_ticked (cfg : AwgTimers) (rng : Rng) (name : TimerName) :
    Ticked t (t.tick cfg rng name).1 := by
  -- a tick is some change that leaves the stamps, and then one stamp
  have stamped {t' : Timers} (h : Ticked t t') : Ticked t (t'.set name t.timeCurrent) := by
    rw [← h.current]
    exact h.trans (t'.set_ticked name)
  unfold tick
  dsimp only
  apply stamped
  split
  · apply Ticked.traversal
    exact .of_timers rfl rfl rfl
  · have hsent : Ticked t { t with wantKeepalive := none }.traversal := by
      apply Ticked.traversal
      exact .of_timers rfl rfl rfl
    exact hsent.trans (.of_timers rfl rfl rfl)
  · split
    · exact .of_timers rfl rfl rfl
    · exact .refl t
  · split
    · exact .of_timers rfl rfl rfl
    · exact .refl t
  · exact .refl t

theorem redrawTunable_ticked (cfg : AwgTimers) (rng : Rng) :
    Ticked t (t.redrawTunable cfg rng).1 := .of_timers rfl rfl rfl

theorem setPersistentKeepaliveRange_ticked (range : Nat × Nat) :
    Ticked t (t.setPersistentKeepaliveRange range) := by
  unfold setPersistentKeepaliveRange
  split
  · exact .refl t
  · apply Ticked.rearmPersistentKeepalive
    split
    · exact .of_timers rfl rfl rfl
    · split
      · exact .of_timers rfl rfl rfl
      · exact .of_timers rfl rfl rfl

theorem le_monotonicNow (time : Nat) : t.timeCurrent ≤ t.monotonicNow time := Nat.le_max_right _ _

theorem new_behind (persistentKeepalive : Option Nat) (resetRr : Bool) (timeStarted : Nat)
    (jitterRng : Rng) : (new persistentKeepalive resetRr timeStarted jitterRng).Behind where
  timers _ := Nat.le_refl _
  session _ := Nat.le_refl _

end Timers

end BoringTun
