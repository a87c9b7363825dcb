import BoringTun.Handshake.KeySchedule
import BoringTun.Tunn.State

/-!
What a tunnel does over time, without its keys, its generators and its bytes.

A `Core` is the part of a tunnel that decides what it sends next: the handshake, the ring, the
queue, the timers, the burst, and what the operation report remembers. Each of the ways a call
can go is one constructor here, with the result the caller gets and the core it leaves:

* `Emits`: one datagram of the burst, or an initiation;
* `Drives`: a demand for an initiation;
* `Submits`, `Drains`: a write, and a call that sends what is queued;
* `Polls`: a timer poll, once the sessions are aged;
* `Accepts`: a datagram that authenticated.

`Moves` is any call at all.
-/

namespace BoringTun

variable {P : Primitives}

/-! ### Timers -/

namespace Timers

/-- The timers once a packet is written on a session. -/
def delivered (t : Timers) (cfg : AwgTimers) (rng : Rng) (isEmpty : Bool) : Timers :=
  let (t, rng) := t.tick cfg rng .timeLastPacketSent
  if isEmpty then t else (t.tick cfg rng .timeLastDataPacketSent).1

/-- The deadline of the next retransmission, and the attempts of the cycle. -/
def armed (t : Timers) (cfg : AwgTimers) (rng : Rng) (starting : Bool) : Timers × Rng :=
  let (timeout, rng) := cfg.retransmitTimeout rng
  let (jitter, t) := t.jitter
  let t := { t with retransmitCurrent := timeout + jitter }
  if starting then
    let (limit, rng) := cfg.maxRetransmissions rng
    { t with handshakeAttempts := 0, maxRetransmissionsCurrent := limit }.tick cfg rng
      .timeLastHandshakeStarted
  else ({ t with handshakeAttempts := min (t.handshakeAttempts + 1) (2 ^ 32 - 1) }, rng)

/-- The timers once an initiation is written. -/
def initiated (t : Timers) (cfg : AwgTimers) (rng : Rng) (starting : Bool) : Timers :=
  let (t, rng) := t.armed cfg rng starting
  (t.tick cfg rng .timeLastPacketSent).1

/-- The timers once a response is written to an initiation. -/
def answered (t : Timers) (cfg : AwgTimers) (r₁ r₂ r₃ : Rng) (slot : Fin N_SESSIONS) : Timers :=
  let t := (t.tick cfg r₁ .timeLastPacketReceived).1
  let t := (t.tick cfg r₂ .timeLastPacketSent).1
  (t.sessionEstablished cfg r₃ false slot).1

/-- The timers once a response has completed a handshake. -/
def completed (t : Timers) (cfg : AwgTimers) (r₁ r₂ : Rng) (slot : Fin N_SESSIONS) : Timers :=
  let t := (t.tick cfg r₁ .timeLastPacketReceived).1
  (t.sessionEstablished cfg r₂ true slot).1

/-- The timers once a packet is received on a session. -/
def received (t : Timers) (cfg : AwgTimers) (r₁ r₂ : Rng) (isData : Bool) : Timers :=
  let t := (t.tick cfg r₁ .timeLastPacketReceived).1
  if isData then (t.tick cfg r₂ .timeLastDataPacketReceived).1 else t

end Timers

/-! ### The core -/

structure Core (P : Primitives) where
  /-- The index last handed out. -/
  index : UInt32
  state : HandshakeState P
  previous : HandshakeState P
  ring : Fin N_SESSIONS → Option (Session P)
  current : Nat
  queue : List Bytes
  timers : Timers
  obf : ObfuscationRanges
  amnezia : AmneziaConfig
  learned : Option AmneziaImitationProtocol
  burst : Option PendingAmneziaJunk
  serial : Fin N_SESSIONS → Nat
  nextSerial : Nat
  output : OpReport.PacketKind
  /-- The operation already noted a change of the selected session. -/
  changed : Bool

/-- The refusals that a larger buffer or budget would not have met. -/
def WireGuardError.IsCapacity (e : WireGuardError) : Prop :=
  e = .destinationBufferTooSmall ∨ e = .outputBudgetExceeded

/-- What a packet on a session is reported as. -/
def transportKind (isEmpty : Bool) : OpReport.PacketKind :=
  if isEmpty then .transportKeepalive else .transportData

/-- A burst as a configuration calls for it, before anything of it has left. -/
structure PendingAmneziaJunk.Opens (burst : PendingAmneziaJunk) (P : Primitives)
    (cfg : AmneziaConfig) (owed : Bool) : Prop where
  datagrams : ∃ rng, burst.imitationDatagrams = (cfg.preHandshakeImitationDatagrams P rng).1
  remaining : burst.remaining = cfg.preHandshakeJunk.packetCount
  last : burst.lastPacketAt = none
  owed : burst.resetExpiredTimers = owed

namespace Core

variable (c : Core P)

/-- The core of a new tunnel. -/
def new (index : UInt32) (timers : Timers) (obf : ObfuscationRanges) (amnezia : AmneziaConfig) :
    Core P where
  index := index
  state := .none
  previous := .none
  ring _ := none
  current := 0
  queue := []
  timers := timers
  obf := obf
  amnezia := amnezia
  learned := none
  burst := none
  serial _ := 0
  nextSerial := 1
  output := .none
  changed := false

/-- The session in the selected slot. -/
def selected : Option (Session P) := c.ring (slotOf c.current)

/-- A session is selected and can still send. -/
def usable : Bool := c.selected.any fun session => !session.sendingExhausted

def inProgress : Bool :=
  match c.state with
  | .none | .expired => false
  | _ => true

def isExpired : Bool :=
  match c.state with
  | .expired => true
  | _ => false

open AmneziaConfig in
/-- A handshake message or a cookie reply, framed as it is now. -/
def Frames (kind : PacketKind) (wire : Bytes) : Prop :=
  ∃ message, Canonical c.obf kind message ∧ Frame P c.amnezia kind message wire

/-- A packet on `session`, framed as it is now. -/
def Carries (session : Session P) (src wire : Bytes) : Prop :=
  ∃ rng pad, AmneziaConfig.Frame P c.amnezia .transportData (session.message c.obf rng src pad) wire

/-- Junk of a size the configuration asks for. -/
def Fills (wire : Bytes) : Prop :=
  ∃ budget range dst rng, c.amnezia.preHandshakeJunkRangeWithin budget = .ok range ∧
    (c.amnezia.fillPreHandshakeJunkIn dst range rng).1 = .ok wire

/-- A datagram of a kind, as a call produces it that has the payloads `offered` to send and leaves
`left` of the burst. -/
inductive Produces (offered : List Bytes) (left : Option PendingAmneziaJunk) :
    OpReport.PacketKind → Bytes → Prop where
  | handshakeInitiation {wire : Bytes} (hwire : c.Frames .handshakeInit wire) :
    Produces offered left .handshakeInitiation wire
  | handshakeResponse {wire : Bytes} (hwire : c.Frames .handshakeResponse wire) :
    Produces offered left .handshakeResponse wire
  | cookieReply {wire : Bytes} (hwire : c.Frames .cookieReply wire) :
    Produces offered left .cookieReply wire
  | transportData {session : Session P} {src wire : Bytes} (hselected : c.selected = some session)
    (hoffered : src ∈ offered) (hdata : src.isEmpty = false) (hwire : c.Carries session src wire) :
    Produces offered left .transportData wire
  | transportKeepalive {session : Session P} {wire : Bytes} (hwire : c.Carries session [] wire) :
    Produces offered left .transportKeepalive wire
  | junk {remaining last : Nat} {wire : Bytes} (hleft : left = some ⟨[], remaining, some last, false⟩)
    (hwire : c.Fills wire) : Produces offered left .junk wire
  /-- One of a sequence, which may have been prepared under an earlier configuration. -/
  | imitation {earlier : AmneziaConfig} {rng : Rng} {delay : Nat} {wire : Bytes}
    (hleft : left.isSome = true)
    (hmem : (delay, wire) ∈ (earlier.preHandshakeImitationDatagrams P rng).1) :
    Produces offered left .imitation wire

/-- A packet leaves on `session`. -/
def deliver (session : Session P) (rng : Rng) (isEmpty : Bool) : Core P :=
  { c with
    ring := Function.update c.ring (slotOf c.current) (some session.advanced)
    timers := c.timers.delivered c.amnezia.timers rng isEmpty
    output := transportKind isEmpty }

/-- The timers at the first datagram of a cycle, cleared if it restarts an expired one. -/
def restarted (owed : Bool) (now : Nat) : Timers :=
  if owed && c.isExpired then c.timers.clear now else c.timers

/-- An initiation leaves. -/
def initiate (owed : Bool) (now : Nat) (rng : Rng) (sent : HandshakeInitSentState P) : Core P :=
  { c with
    index := Handshake.succIndex c.index
    state := .initSent sent
    previous := c.state
    timers := (c.restarted owed now).initiated c.amnezia.timers rng !c.inProgress
    output := .handshakeInitiation }

/-- A datagram of the burst leaves, and `pending` is left of it. -/
def advance (kind : OpReport.PacketKind) (owed : Bool) (now : Nat) (pending : PendingAmneziaJunk) :
    Core P :=
  { c with burst := some pending, timers := c.restarted owed now, output := kind }

/-- The session in a slot is older than its keys may be. -/
def isAged (now : Nat) (slot : Fin N_SESSIONS) : Bool :=
  now - c.timers.sessionTimers slot > c.amnezia.timers.keychainExpire

/-- The poll has read the clock, and the sessions past their age are gone. -/
def age (now : Nat) : Core P :=
  { c with
    ring := fun slot => if c.isAged now slot then none else c.ring slot
    timers := { c.timers.set .timeCurrent now with
      sessionTimers := fun slot => if c.isAged now slot then now else c.timers.sessionTimers slot }
    serial := fun slot => if c.isAged now slot && (c.ring slot).isSome then 0 else c.serial slot }

/-- The cycle ends. -/
def expire (now : Nat) : Core P :=
  { c with
    state := .expired
    previous := .expired
    ring := fun _ => none
    queue := []
    timers := c.timers.clear now
    burst := none
    serial := fun _ => 0 }

/-! ### Before a session -/

/-- The next datagram before a session is up. -/
inductive Emits (c : Core P) : Bytes → Core P → Prop where
  | imitation {pending : PendingAmneziaJunk} {delay : Nat} {datagram : Bytes}
    {rest : List (Nat × Bytes)} {last : Option Nat} {now : Nat} (hburst : c.burst = some pending)
    (hnext : pending.imitationDatagrams = (delay, datagram) :: rest) :
    Emits c datagram (c.advance .imitation pending.resetExpiredTimers now
      ⟨rest, pending.remaining, last, false⟩)
  | junk {pending : PendingAmneziaJunk} {packet : Bytes} {last now : Nat}
    (hburst : c.burst = some pending) (hdone : pending.imitationDatagrams = [])
    (hleft : pending.remaining ≠ 0) (hwire : c.Fills packet) :
    Emits c packet (c.advance .junk pending.resetExpiredTimers now
      ⟨[], pending.remaining - 1, some last, false⟩)
  | deferred {pending : PendingAmneziaJunk} {wire : Bytes} {now : Nat} {rng : Rng}
    {sent : HandshakeInitSentState P} (hburst : c.burst = some pending)
    (hdone : pending.imitationDatagrams = []) (hzero : pending.remaining = 0)
    (hwire : c.Frames .handshakeInit wire) :
    Emits c wire { c.initiate pending.resetExpiredTimers now rng sent with burst := none }
  | direct {wire : Bytes} {now : Nat} {rng : Rng} {sent : HandshakeInitSentState P}
    (hnone : c.burst = none) (hwire : c.Frames .handshakeInit wire) :
    Emits c wire (c.initiate c.isExpired now rng sent)

/-- The demand is met by the burst in flight, by a new one, or by the initiation itself. -/
inductive Readies (c : Core P) (force : Bool) : Core P → Prop where
  | pending {pending : PendingAmneziaJunk} (hburst : c.burst = some pending) : Readies c force c
  | prepared {burst : PendingAmneziaJunk} (hnone : c.burst = none)
    (hstart : c.inProgress = false ∨ force = true) (hemits : c.amnezia.emitsPreHandshake = true)
    (hopens : burst.Opens P c.amnezia c.isExpired) : Readies c force { c with burst := some burst }
  | direct (hnone : c.burst = none) (hstart : c.inProgress = false ∨ force = true)
    (hplain : c.amnezia.emitsPreHandshake = false) : Readies c force c

/-- A demand for an initiation. -/
inductive Drives (c : Core P) (force : Bool) : TunnResult → Core P → Prop where
  /-- One is in flight. -/
  | busy (hnone : c.burst = none) (hbusy : c.inProgress = true) (hforce : force = false) :
    Drives c force .done c
  /-- The next datagram of the burst is not due. -/
  | paced {pending : PendingAmneziaJunk} {last : Nat} (hburst : c.burst = some pending)
    (hlast : pending.lastPacketAt = some last) : Drives c force .done c
  | refused {e : WireGuardError} {c₁ : Core P} (hready : c.Readies force c₁) (he : e.IsCapacity) :
    Drives c force (.err e) c₁
  | emitted {wire : Bytes} {c₁ c' : Core P} (hready : c.Readies force c₁)
    (hemits : c₁.Emits wire c') : Drives c force (.writeToNetwork wire) c'

/-- What a demand for an initiation leaves alone. -/
structure Still (c c' : Core P) : Prop where
  ring : c'.ring = c.ring
  current : c'.current = c.current
  queue : c'.queue = c.queue
  obf : c'.obf = c.obf
  amnezia : c'.amnezia = c.amnezia
  learned : c'.learned = c.learned
  serial : c'.serial = c.serial
  nextSerial : c'.nextSerial = c.nextSerial
  changed : c'.changed = c.changed

section

variable {c : Core P} {c₁ c' : Core P} {force : Bool}

theorem Still.refl (c : Core P) : c.Still c := ⟨rfl, rfl, rfl, rfl, rfl, rfl, rfl, rfl, rfl⟩

theorem Still.trans (h : c.Still c₁) (h' : c₁.Still c') : c.Still c' where
  ring := h'.ring.trans h.ring
  current := h'.current.trans h.current
  queue := h'.queue.trans h.queue
  obf := h'.obf.trans h.obf
  amnezia := h'.amnezia.trans h.amnezia
  learned := h'.learned.trans h.learned
  serial := h'.serial.trans h.serial
  nextSerial := h'.nextSerial.trans h.nextSerial
  changed := h'.changed.trans h.changed

theorem Still.usable (h : c.Still c') : c'.usable = c.usable := by
  unfold Core.usable Core.selected
  rw [h.ring, h.current]

theorem Emits.still {wire : Bytes} (h : c.Emits wire c') : c.Still c' := by
  cases h <;> exact ⟨rfl, rfl, rfl, rfl, rfl, rfl, rfl, rfl, rfl⟩

theorem Readies.still (h : c.Readies force c') : c.Still c' := by
  cases h <;> exact ⟨rfl, rfl, rfl, rfl, rfl, rfl, rfl, rfl, rfl⟩

theorem Readies.timers_eq (h : c.Readies force c') : c'.timers = c.timers := by
  cases h <;> rfl

theorem Drives.still {result : TunnResult} (h : c.Drives force result c') : c.Still c' := by
  cases h with
  | busy | paced => exact .refl c
  | refused hready he => exact hready.still
  | emitted hready hemits => exact hready.still.trans hemits.still

theorem usable_iff : c.usable = true ↔
    ∃ session, c.selected = some session ∧ session.sendingExhausted = false := by
  unfold Core.usable
  cases c.selected with
  | none => simp
  | some session => simp

end

/-! ### Writes and drains -/

/-- A packet from the caller. -/
inductive Submits (c : Core P) (payload : Bytes) : TunnResult → Core P → Prop where
  | refused {e : WireGuardError} (husable : c.usable = true) (he : e.IsCapacity) :
    Submits c payload (.err e) c
  | sent {wire : Bytes} {session : Session P} {rng : Rng} (husable : c.usable = true)
    (hselected : c.selected = some session) (hwire : c.Carries session payload wire) :
    Submits c payload (.writeToNetwork wire) (c.deliver session rng payload.isEmpty)
  | full (hidle : c.usable = false) (hfull : MAX_QUEUE_DEPTH ≤ c.queue.length) :
    Submits c payload (.err .packetQueueFull) c
  | failed {e : WireGuardError} {c' : Core P} (hidle : c.usable = false)
    (hdrives : c.Drives false (.err e) c') : Submits c payload (.err e) c'
  | queued {result : TunnResult} {c' : Core P} (hidle : c.usable = false)
    (hdrives : c.Drives false result c') (hok : result.isErr = false) :
    Submits c payload result { c' with queue := c'.queue ++ [payload] }

/-- Send what is queued. -/
inductive Drains (c : Core P) : TunnResult → Core P → Prop where
  | empty (hempty : c.queue = []) : Drains c .done c
  | driven {result : TunnResult} {c' : Core P} (hidle : c.usable = false) (hqueued : c.queue ≠ [])
    (hdrives : c.Drives false result c') : Drains c result c'
  /-- Nothing of the queue fits the budget. -/
  | dropped (husable : c.usable = true) : Drains c .done { c with queue := [] }
  | refused {e : WireGuardError} {dropped kept : List Bytes} (husable : c.usable = true)
    (hqueue : c.queue = dropped ++ kept) (he : e.IsCapacity) :
    Drains c (.err e) { c with queue := kept }
  | sent {wire head : Bytes} {dropped rest : List Bytes} {session : Session P} {rng : Rng}
    (husable : c.usable = true) (hqueue : c.queue = dropped ++ head :: rest)
    (hselected : c.selected = some session) (hwire : c.Carries session head wire) :
    Drains c (.writeToNetwork wire) ({ c with queue := rest }.deliver session rng head.isEmpty)

/-! ### Polls -/

/-- What selecting the latch for a new handshake spends. -/
def spendLatch : Core P := { c with timers := { c.timers with wantHandshake := none } }

/-- What selecting the passive and the persistent keepalive spends. -/
def spendKeepalives (passive persistent : Bool) : Core P :=
  let timers := if passive then { c.timers with wantKeepalive := none } else c.timers
  { c with
    timers :=
      if persistent then
        { timers with persistentKeepaliveDue := false }.set .timePersistentKeepalive
          c.timers.timeCurrent
      else timers }

/-- A poll at a core whose sessions are aged. -/
inductive Polls (c : Core P) (now : Nat) : TunnResult → Core P → Prop where
  | waits : Polls c now .done c
  | burst {pending : PendingAmneziaJunk} {result : TunnResult} {c' : Core P}
    (hburst : c.burst = some pending) (hdrives : c.Drives true result c') : Polls c now result c'
  /-- Past a bound that nothing a refused output does can move, or out of attempts. -/
  | expires {time : Nat} (hlive : c.isExpired = false ∨ c.burst.isSome = true) :
    Polls c now (.err .connectionExpired) (c.expire time)
  | expired (hburst : c.burst = none) (hexpired : c.isExpired = true) :
    Polls c now (.err .connectionExpired) c
  | retransmits {sent : HandshakeInitSentState P} {result : TunnResult} {c' : Core P}
    (hburst : c.burst = none) (hsent : c.state = .initSent sent)
    (hleft : c.timers.handshakeAttempts < c.timers.maxRetransmissionsCurrent)
    (hdrives : c.Drives true result c') : Polls c now result c'
  /-- The key is old enough, or data was not answered. -/
  | initiates {latched : Bool} {result : TunnResult} {c' : Core P} (hburst : c.burst = none)
    (hidle : ∀ sent, c.state ≠ .initSent sent) (hlive : c.isExpired = false)
    (hdrives : (if latched then c.spendLatch else c).Drives true result c')
    (hkept : c'.burst.isSome = true ∨ result.isErr = false) : Polls c now result c'
  /-- A refusal gives the demand back. -/
  | withholds {e : WireGuardError} (hburst : c.burst = none) (hlive : c.isExpired = false)
    (he : e.IsCapacity) : Polls c now (.err e) c
  | keepalive {passive persistent : Bool} {result : TunnResult} {c' : Core P}
    (hburst : c.burst = none) (hidle : ∀ sent, c.state ≠ .initSent sent)
    (hdue : passive = true ∨ persistent = true)
    (hpassive : passive = true → c.timers.wantKeepalive.isSome = true)
    (hon : persistent = true → c.timers.persistentKeepaliveOn = true)
    (hlive : c.isExpired = false ∨ persistent = true)
    (hsubmits : (c.spendKeepalives passive persistent).Submits [] result c')
    (hkept : result.isCapacity = false) : Polls c now result c'
  /-- A keepalive that was refused; the burst it prepared stays. -/
  | owes {e : WireGuardError} {c' : Core P} (hburst : c.burst = none)
    (hidle : ∀ sent, c.state ≠ .initSent sent) (he : e.IsCapacity)
    (hready : c' = c ∨ c.Readies false c')
    (hlive : c.isExpired = false ∨ c.timers.persistentKeepaliveOn = true) :
    Polls c now (.err e) c'

/-- A call that changes no configuration and learns nothing. -/
structure SameConfig (c c' : Core P) : Prop where
  amnezia : c'.amnezia = c.amnezia
  learned : c'.learned = c.learned

section

variable {c c₁ c' : Core P} {result : TunnResult} {payload : Bytes}

theorem SameConfig.refl (c : Core P) : c.SameConfig c := ⟨rfl, rfl⟩

theorem Still.config (h : c.Still c') : c.SameConfig c' := ⟨h.amnezia, h.learned⟩

end

/-- What writes, drains, demands and polls are made of. -/
inductive Change (c : Core P) : Core P → Prop where
  | readied {force : Bool} {c' : Core P} (h : c.Readies force c') : Change c c'
  | emitted {wire : Bytes} {c' : Core P} (h : c.Emits wire c') : Change c c'
  | delivered {session : Session P} {rng : Rng} {isEmpty : Bool}
    (hselected : c.selected = some session) : Change c (c.deliver session rng isEmpty)
  | requeued {queue : List Bytes} : Change c { c with queue := queue }
  | unlatched : Change c c.spendLatch
  | disarmed {passive persistent : Bool} : Change c (c.spendKeepalives passive persistent)
  | expired {time : Nat} : Change c (c.expire time)

/-- One after the other. What is reflexive, transitive and true of each of them is true of the
calls. -/
abbrev Changes (c c' : Core P) : Prop := Relation.ReflTransGen Change c c'

section

variable {c c₁ c' : Core P} {result : TunnResult} {payload : Bytes} {force : Bool}

theorem Drives.changes (h : c.Drives force result c') : c.Changes c' := by
  cases h with
  | busy | paced => exact .refl
  | refused hready => exact .single (.readied hready)
  | emitted hready hemits => exact .tail (.single (.readied hready)) (.emitted hemits)

theorem Submits.changes (h : c.Submits payload result c') : c.Changes c' := by
  cases h with
  | refused | full => exact .refl
  | sent _ hselected => exact .single (.delivered hselected)
  | failed _ hdrives => exact hdrives.changes
  | queued _ hdrives => exact hdrives.changes.tail .requeued

theorem Drains.changes (h : c.Drains result c') : c.Changes c' := by
  cases h with
  | empty => exact .refl
  | driven _ _ hdrives => exact hdrives.changes
  | dropped | refused => exact .single .requeued
  | sent _ _ hselected => exact .tail (.single .requeued) (.delivered hselected)

theorem Polls.changes {now : Nat} (h : c.Polls now result c') : c.Changes c' := by
  cases h with
  | burst _ hdrives | retransmits _ _ _ hdrives => exact hdrives.changes
  | expires => exact .single .expired
  | @initiates latched _ _ _ _ _ hdrives _ =>
    cases latched with
    | false => exact hdrives.changes
    | true => exact hdrives.changes.head .unlatched
  | keepalive _ _ _ _ _ _ hsubmits => exact hsubmits.changes.head .disarmed
  | owes _ _ _ hready =>
    rcases hready with rfl | hready
    · exact .refl
    · exact .single (.readied hready)
  | _ => exact .refl

/-- None of them is about the configuration. -/
theorem Change.config (h : Change c c') : c'.obf = c.obf ∧ c.SameConfig c' := by
  cases h with
  | readied h | emitted h => exact ⟨h.still.obf, h.still.config⟩
  | _ => exact ⟨rfl, rfl, rfl⟩

theorem Changes.config (h : c.Changes c') : c'.obf = c.obf ∧ c.SameConfig c' := by
  induction h with
  | refl => exact ⟨rfl, rfl, rfl⟩
  | tail _ hlast ih =>
    obtain ⟨hobf, hamnezia, hlearned⟩ := hlast.config
    exact ⟨hobf.trans ih.1, hamnezia.trans ih.2.amnezia, hlearned.trans ih.2.learned⟩

end

/-! ### Received datagrams -/

/-- Replace the session in a slot by itself after use. -/
def put (slot : Fin N_SESSIONS) (session : Session P) : Core P :=
  { c with ring := Function.update c.ring slot (some session) }

/-- A session is stored under a serial of its own, and the burst that led to it is over. -/
def store (slot : Fin N_SESSIONS) (session : Session P) : Core P :=
  { c with
    ring := Function.update c.ring slot (some session)
    burst := none
    serial := Function.update c.serial slot c.nextSerial
    nextSerial := min (c.nextSerial + 1) (2 ^ 64 - 1) }

/-- Select a session, unless the selected one was established later. -/
def select (newIdx : Nat) : Core P :=
  if c.current = newIdx then c
  else if c.selected.isNone ∨
      c.timers.sessionTimers (slotOf newIdx) ≥ c.timers.sessionTimers (slotOf c.current) then
    { c with current := newIdx }
  else c

theorem select_eq (newIdx : Nat) :
    c.select newIdx = { c with current := (c.select newIdx).current } := by
  unfold select
  split
  · rfl
  · split <;> rfl

/-- The handshake whose response arrived is over. -/
def retire (isPrevious : Bool) : Core P :=
  if isPrevious then { c with previous := .none } else { c with state := .none }

/-- An accepted datagram. -/
inductive Accepts (c : Core P) : Authenticated P → TunnResult → Core P → Prop where
  | answered {init : AuthenticatedInit P} {wire : Bytes} {session : Session P} {r₁ r₂ r₃ : Rng}
    {learned : Option AmneziaImitationProtocol}
    (hindex : session.receivingIndex =
      Handshake.succIndexAvoiding c.index (c.current % N_SESSIONS))
    (hslot : slotOf session.receivingIndex.toNat ≠ slotOf c.current)
    (hwire : c.Frames .handshakeResponse wire) :
    Accepts c (.handshakeInit init) (.writeToNetwork wire)
      { c.store (slotOf session.receivingIndex.toNat) session with
        index := session.receivingIndex
        state := .none
        previous := c.state
        timers := c.timers.answered c.amnezia.timers r₁ r₂ r₃
          (slotOf session.receivingIndex.toNat)
        learned := learned
        output := .handshakeResponse }
  | completed {response : AuthenticatedResponse P} {wire : Bytes} {session : Session P}
    {r₁ r₂ r₃ : Rng} {timers : Timers}
    (htimers : timers = c.timers.completed c.amnezia.timers r₁ r₂
      (slotOf session.receivingIndex.toNat))
    (hindex : session.receivingIndex = response.session.receivingIndex)
    (hsent : ∃ sent, (if response.isPrevious then c.previous else c.state) = .initSent sent)
    (hwire : c.Carries response.session [] wire) :
    Accepts c (.handshakeResponse response) (.writeToNetwork wire)
      { { (c.retire response.isPrevious).store (slotOf session.receivingIndex.toNat) session with
          timers := timers }.select session.receivingIndex.toNat with
        timers := (timers.tick c.amnezia.timers r₃ .timeLastPacketSent).1
        output := .transportKeepalive }
  | cookie {cookie : Bytes} {rng : Rng} : Accepts c (.cookieReply cookie) .done
      { c with timers := (c.timers.tick c.amnezia.timers rng .timeCookieReceived).1 }
  | data {receiverIdx : UInt32} {plaintext : Bytes} {stored session : Session P}
    {mark : Session.ReceivingKeyCounterValidator} {result : TunnResult} {r₁ r₂ : Rng}
    {isData : Bool} (hstored : c.ring (slotOf receiverIdx.toNat) = some stored)
    (hmarked : session = { stored with receivingKeyCounter := mark })
    (hresult : result.isWriteToNetwork = false) :
    Accepts c (.data receiverIdx plaintext session) result
      { (c.put (slotOf receiverIdx.toNat) session).select receiverIdx.toNat with
        timers := c.timers.received c.amnezia.timers r₁ r₂ isData }

section

variable {c c' : Core P} {packet : Authenticated P} {result : TunnResult}
  {learned : Option AmneziaImitationProtocol}

theorem Accepts.ok (h : c.Accepts packet result c') (hinit : packet.kind = .handshakeInitiation) :
    result.isErr = false := by
  cases h with
  | answered => rfl
  | completed | cookie | data => cases hinit

theorem Accepts.framing (h : c.Accepts packet result c') :
    c'.obf = c.obf ∧ c'.amnezia = c.amnezia := by
  have hselect (c : Core P) (index : Nat) :
      (c.select index).obf = c.obf ∧ (c.select index).amnezia = c.amnezia := by
    constructor <;> rw [select_eq]
  cases h with
  | answered | cookie => exact ⟨rfl, rfl⟩
  | completed =>
    obtain ⟨hobf, hamnezia⟩ := hselect _ _
    exact ⟨hobf.trans (by unfold retire; split <;> rfl),
      hamnezia.trans (by unfold retire; split <;> rfl)⟩
  | data => exact hselect _ _

/-- Only an initiation teaches anything. -/
theorem Accepts.learned_eq (h : c.Accepts packet result c')
    (hinit : packet.kind ≠ .handshakeInitiation) : c'.learned = c.learned := by
  have hselect (c : Core P) (index : Nat) : (c.select index).learned = c.learned := by
    rw [select_eq]
  cases h with
  | answered => exact absurd rfl hinit
  | completed => exact (hselect _ _).trans (by unfold retire store; split <;> rfl)
  | cookie => rfl
  | data => exact hselect _ _

/-- What an initiation teaches is left open. -/
theorem Accepts.relearn (h : { c with learned := learned }.Accepts packet result c')
    (hsame : packet.kind ≠ .handshakeInitiation → learned = c.learned)
    (learned' : Option AmneziaImitationProtocol)
    (hsame' : packet.kind ≠ .handshakeInitiation → learned' = c.learned) :
    c.Accepts packet result { c' with learned := learned' } := by
  by_cases hinit : packet.kind = .handshakeInitiation
  · cases h with
    | answered hindex hslot hwire => exact .answered hindex hslot hwire
    | completed | cookie | data => cases hinit
  · obtain rfl := hsame hinit
    obtain rfl := hsame' hinit
    rw [← h.learned_eq hinit]
    exact h

end

/-! ### Every call -/

/-- What a call asks of the core. -/
inductive Action (P : Primitives) where
  | submit (payload : Bytes)
  | drain
  | demand (force : Bool)
  | poll (now : Nat)
  | accept (packet : Authenticated P)
  /-- Nothing, or a datagram that is not accepted. -/
  | ignore
  | configure

/-- A call on the tunnel. -/
inductive Moves (c : Core P) : Action P → TunnResult → Core P → Prop where
  | submits {payload : Bytes} {result : TunnResult} {c' : Core P}
    (h : c.Submits payload result c') : Moves c (.submit payload) result c'
  | drains {result : TunnResult} {c' : Core P} (h : c.Drains result c') : Moves c .drain result c'
  | demands {force : Bool} {result : TunnResult} {c' : Core P} (h : c.Drives force result c') :
    Moves c (.demand force) result c'
  | polls {now : Nat} {result : TunnResult} {c' : Core P} (hnow : c.timers.timeCurrent ≤ now)
    (h : (c.age now).Polls now result c') : Moves c (.poll now) result c'
  | accepts {packet : Authenticated P} {result : TunnResult} {c' : Core P}
    (h : c.Accepts packet result c') : Moves c (.accept packet) result c'
  /-- A datagram that is not accepted is answered by a cookie reply at most. -/
  | ignores {result : TunnResult} {kind : OpReport.PacketKind}
    (hkind : ∀ wire, result = .writeToNetwork wire →
      kind = .cookieReply ∧ c.Frames .cookieReply wire) :
    Moves c .ignore result { c with output := kind }
  | declines : Moves c .configure .done c
  | reconfigures {obf : ObfuscationRanges} {amnezia : AmneziaConfig}
    {learned : Option AmneziaImitationProtocol} {rng : Rng} {timers : Timers}
    {burst : Option PendingAmneziaJunk}
    (htimers : timers = c.timers ∨ timers = (c.timers.redrawTunable amnezia.timers rng).1)
    (hburst : burst = c.burst ∨ ∃ datagrams remaining,
      (datagrams = [] ∨ ∃ rng, datagrams = (amnezia.preHandshakeImitationDatagrams P rng).1) ∧
        burst = c.burst.map fun old =>
          { old with imitationDatagrams := datagrams, remaining := remaining }) :
    Moves c .configure .done { c with
      obf := obf, amnezia := amnezia, learned := learned, timers := timers, burst := burst }
  | keeps {range : Nat × Nat} :
    Moves c .configure .done { c with timers := c.timers.setPersistentKeepaliveRange range }
  /-- New keys end the sessions. -/
  | rekeys {learned : Option AmneziaImitationProtocol} {resetRr : Bool} :
    Moves c .configure .done { c with
      ring := fun _ => none
      timers := { c.timers with shouldResetRr := resetRr }
      learned := learned
      serial := fun _ => 0 }

end Core

end BoringTun
