import BoringTun.Tunn.Moves
import BoringTun.Tunn.OpReport

/-!
A refused poll costs no demand (`Tunn::update_timers_with_budget` in `noise/timers.rs`).

A poll selects one demand and spends what armed it before it tries to send. `Demand` is that
selection. When the output is refused for want of room, each of the paths gives back what it
spent, so that the same demand, or the burst that carries it on, is selected again by the next
poll at the same instant, which writes it if there is room (`refused_tick_spares`).
-/

namespace BoringTun

/-- What a poll selects, once the sessions are aged. -/
inductive Demand where
  /-- Nothing is due, or the cycle is over. -/
  | none
  | burst
  | initiation (latch : Option Nat)
  | keepalive (passive persistent : Bool)
  deriving DecidableEq

namespace Tunn

variable {P : Primitives} {t t' : Tunn P} {now : Nat} {env : Env P} {dst : Bytes}
  {budget : OutputBudget}

/-! ### The selection -/

/-- The latch for a new handshake, if it is due. -/
def dueLatch (t : Tunn P) (now : Nat) : Option Nat :=
  t.timers.wantHandshake.filter fun armed => now - armed ≥ t.timers.newHandshakeCurrent

def duePassive (t : Tunn P) (now : Nat) : Bool :=
  t.timers.wantKeepalive.any fun armed => now - armed ≥ t.timers.keepaliveCurrent

def duePersistent (t : Tunn P) (now : Nat) : Bool :=
  t.timers.persistentKeepaliveOn && (t.timers.persistentKeepaliveDue ||
    now - t.timers.timers .timePersistentKeepalive ≥ t.timers.persistentKeepaliveCurrent)

/-- What a poll with no initiation in flight selects. -/
def idleDemand (t : Tunn P) (now : Nat) : Demand :=
  if t.rekeyDue now || (t.dueLatch now).isSome then .initiation (t.dueLatch now)
  else if t.duePassive now || t.duePersistent now then
    .keepalive (t.duePassive now) (t.duePersistent now)
  else .none

/-- What a poll selects; `reading` is the clock at the retransmission check. -/
def demand (t : Tunn P) (now reading : Nat) : Demand :=
  if t.burstOwesExpiredReset then .burst
  else if t.pendingAmneziaJunk.isSome then if t.pastAbsoluteBounds now then .none else .burst
  else if t.handshake.isExpired then
    if t.timers.persistentKeepaliveOn && t.timers.persistentKeepaliveDue then .keepalive false true
    else .none
  else if t.pastAbsoluteBounds now then .none
  else match t.handshake.timer with
    | some timeInitSent =>
      if reading - timeInitSent < t.timers.retransmitCurrent ∨
          t.timers.handshakeAttempts ≥ t.timers.maxRetransmissionsCurrent then .none
      else .initiation none
    | none => t.idleDemand now

theorem pastAbsoluteBounds_congr (h : t'.core = t.core) (now : Nat) :
    t'.pastAbsoluteBounds now = t.pastAbsoluteBounds now := by
  have htimers : t'.timers = t.timers := congrArg Core.timers h
  have hstate : t'.handshake.state = t.handshake.state := congrArg Core.state h
  have hamnezia : t'.amnezia = t.amnezia := congrArg Core.amnezia h
  unfold pastAbsoluteBounds Handshake.timer
  rw [htimers, hstate, hamnezia]

theorem idleDemand_congr (h : t'.core = t.core) (now : Nat) :
    t'.idleDemand now = t.idleDemand now := by
  have htimers : t'.timers = t.timers := congrArg Core.timers h
  unfold idleDemand rekeyDue dueLatch duePassive duePersistent
  rw [htimers]

/-- The selection reads nothing but the core. -/
theorem demand_congr (h : t'.core = t.core) (now reading : Nat) :
    t'.demand now reading = t.demand now reading := by
  have htimers : t'.timers = t.timers := congrArg Core.timers h
  have hstate : t'.handshake.state = t.handshake.state := congrArg Core.state h
  have hburst : t'.pendingAmneziaJunk = t.pendingAmneziaJunk := congrArg Core.burst h
  unfold demand burstOwesExpiredReset Handshake.timer Handshake.isExpired
  rw [pastAbsoluteBounds_congr h, idleDemand_congr h, htimers, hstate, hburst]

/-- The tunnel that serves a demand: only a live one looks at its cookie first. -/
def readied (t : Tunn P) (now : Nat) : Tunn P :=
  if t.handshake.isExpired then t else t.forgetOldCookie now

theorem core_readied (t : Tunn P) (now : Nat) : (t.readied now).core = t.core := by
  unfold readied
  split
  · rfl
  · exact t.core_forgetOldCookie now

/-- What is served is what was selected. -/
inductive Selected (t : Tunn P) (env : Env P) (now : Nat) (dst : Bytes)
    (rollback : KeepaliveRollback) (budget : OutputBudget) (out : TunnResult × Tunn P × Env P) :
    Demand → Prop where
  | none (hquiet : out.1.isCapacity = false) : Selected t env now dst rollback budget out .none
  | burst (hpending : t.pendingAmneziaJunk.isSome = true)
    (hserved : out = t.advanceAmneziaJunk env dst budget) :
    Selected t env now dst rollback budget out .burst
  | initiation {latch : Option Nat} {env₁ : Env P} (hnone : t.pendingAmneziaJunk = Option.none)
    (hpast : t.pastAbsoluteBounds now = false)
    (hlatch : latch.isSome = true → latch = t.timers.wantHandshake)
    (hserved : out = ((t.readied now).spendLatch latch).sendInitiation env₁ dst latch budget) :
    Selected t env now dst rollback budget out (.initiation latch)
  | keepalive {passive persistent : Bool} (hnone : t.pendingAmneziaJunk = Option.none)
    (hpast : t.handshake.isExpired = true ∨ t.pastAbsoluteBounds now = false)
    (hserved : out = ((t.readied now).spendKeepalives passive persistent).sendKeepalive env dst
      rollback budget) :
    Selected t env now dst rollback budget out (.keepalive passive persistent)

/-- A poll that has forgotten an old cookie selects for the tunnel it began with. -/
theorem pollIdle_selected {t₁ : Tunn P} (hready : t.readied now = t₁)
    (hnone : t.pendingAmneziaJunk = none) (hpast : t.pastAbsoluteBounds now = false)
    (env : Env P) (dst : Bytes) (rollback : KeepaliveRollback) (budget : OutputBudget) :
    t.Selected env now dst rollback budget (t₁.pollIdle env now dst rollback budget)
      (t₁.idleDemand now) := by
  have hcore : t₁.core = t.core := hready ▸ t.core_readied now
  have htimers : t₁.timers = t.timers := congrArg Core.timers hcore
  have hlatch : (t₁.dueLatch now).isSome = true → t₁.dueLatch now = t.timers.wantHandshake := by
    intro hsome
    obtain ⟨armed, harmed⟩ := Option.isSome_iff_exists.mp hsome
    rw [harmed, ← htimers]
    exact (Option.filter_eq_some_iff.mp harmed).1.symm
  unfold idleDemand
  change t.Selected env now dst rollback budget
    (if t₁.rekeyDue now || (t₁.dueLatch now).isSome then
      (t₁.spendLatch (t₁.dueLatch now)).sendInitiation env dst (t₁.dueLatch now) budget
      else (t₁.spendLatch (t₁.dueLatch now)).pollKeepalives env now dst rollback budget) _
  split
  · exact .initiation hnone hpast hlatch (by rw [hready])
  · next hquiet =>
    have hspent : t₁.spendLatch (t₁.dueLatch now) = t₁ := by
      cases hdue : t₁.dueLatch now with
      | none => rfl
      | some armed => simp [hdue] at hquiet
    rw [hspent]
    change t.Selected env now dst rollback budget
      (if t₁.duePassive now || t₁.duePersistent now then
        (t₁.spendKeepalives (t₁.duePassive now) (t₁.duePersistent now)).sendKeepalive env dst
          rollback budget
        else (.done, t₁.spendKeepalives (t₁.duePassive now) (t₁.duePersistent now), env)) _
    split
    · exact .keepalive hnone (.inr hpast) (by rw [hready])
    · exact .none rfl

theorem servePoll_selected (t : Tunn P) (env : Env P) (now : Nat) (dst : Bytes)
    (rollback : KeepaliveRollback) (budget : OutputBudget) :
    t.Selected env now dst rollback budget (t.servePoll env now dst rollback budget)
      (t.demand now env.now) := by
  unfold servePoll demand
  split
  · next howes =>
    obtain ⟨pending, hpending, -⟩ := t.burstOwesExpiredReset_iff.mp howes
    exact .burst (by rw [hpending]; rfl) rfl
  split
  · next hpending =>
    split
    · exact .none rfl
    · exact .burst hpending rfl
  next hpending =>
  have hnone : t.pendingAmneziaJunk = none := Option.not_isSome_iff_eq_none.mp hpending
  have hready : t.readied now = if t.handshake.isExpired then t else t.forgetOldCookie now := rfl
  cases hexpired : t.handshake.isExpired with
  | true =>
    cases t.timers.persistentKeepaliveOn <;> cases t.timers.persistentKeepaliveDue
    · exact .none rfl
    · exact .none rfl
    · exact .none rfl
    · exact .keepalive hnone (.inl hexpired) (by rw [hready, if_pos hexpired]; rfl)
  | false =>
    rw [if_neg Bool.false_ne_true, if_neg Bool.false_ne_true]
    rw [hexpired, if_neg Bool.false_ne_true] at hready
    have hforget := t.core_forgetOldCookie now
    have hpast₁ : (t.forgetOldCookie now).pastAbsoluteBounds now = t.pastAbsoluteBounds now :=
      pastAbsoluteBounds_congr hforget now
    have htimer₁ : (t.forgetOldCookie now).handshake.timer = t.handshake.timer := by
      unfold Handshake.timer
      rw [show (t.forgetOldCookie now).handshake.state = t.handshake.state from
        congrArg Core.state hforget]
    have htimers₁ : (t.forgetOldCookie now).timers = t.timers := congrArg Core.timers hforget
    dsimp only
    rw [hpast₁, htimer₁]
    split
    · exact .none rfl
    next hpast =>
    have hpast : t.pastAbsoluteBounds now = false := Bool.eq_false_iff.mpr hpast
    cases htimer : t.handshake.timer with
    | some timeInitSent =>
      unfold pollHandshake
      dsimp only
      rw [htimers₁]
      by_cases hearly : env.now - timeInitSent < t.timers.retransmitCurrent
      · rw [if_pos hearly, if_pos (.inl hearly)]
        exact .none rfl
      · rw [if_neg hearly]
        by_cases hspent : t.timers.handshakeAttempts ≥ t.timers.maxRetransmissionsCurrent
        · rw [if_pos hspent, if_pos (.inr hspent)]
          exact .none rfl
        · rw [if_neg hspent, if_neg (not_or.mpr ⟨hearly, hspent⟩)]
          exact .initiation hnone hpast nofun (by rw [hready]; rfl)
    | none =>
      have hidle : (t.forgetOldCookie now).idleDemand now = t.idleDemand now :=
        idleDemand_congr hforget now
      rw [← hidle]
      exact pollIdle_selected hready hnone hpast env dst rollback budget

/-! ### What a refusal leaves -/

/-- A refused demand leaves the tunnel as it was, or a new burst that carries it on. Only a burst
spends the latch for a new handshake. -/
inductive Carried (c c' : Core P) : Prop where
  | same (h : c' = c) : Carried c c'
  | burst {latched : Bool} {burst : PendingAmneziaJunk}
    (h : c' = { (if latched then c.spendLatch else c) with burst := some burst })
    (hnone : c.burst = none) (howed : burst.resetExpiredTimers = c.isExpired)
    (hfresh : burst.lastPacketAt = none) : Carried c c'

/-- What is read off neither the latch nor the burst is as it was. -/
theorem Carried.reads {α : Type*} {c c' : Core P} (h : Carried c c') (read : Core P → α)
    (hlatch : ∀ c, read c.spendLatch = read c)
    (hburst : ∀ (c : Core P) burst, read { c with burst := burst } = read c) :
    read c' = read c := by
  cases h with
  | same h => rw [h]
  | @burst latched _ h =>
    rw [h, hburst]
    cases latched with
    | true => exact hlatch c
    | false => rfl

theorem sendInitiation_carried {latch : Option Nat} (hnone : t.pendingAmneziaJunk = none)
    (hlatch : latch.isSome = true → latch = t.timers.wantHandshake) (env : Env P) (dst : Bytes)
    (budget : OutputBudget)
    (hrefused : ((t.spendLatch latch).sendInitiation env dst latch budget).1.isCapacity = true) :
    Carried t.core ((t.spendLatch latch).sendInitiation env dst latch budget).2.1.core := by
  have hnone₁ : (t.spendLatch latch).pendingAmneziaJunk = none := by
    cases latch <;> exact hnone
  rcases t.sendInitiation_acts env dst budget hnone hlatch with
    ⟨_, _, _, htunn⟩ | ⟨t₁, htunn, hdrives, hkept⟩
  · rw [htunn]
    exact .same rfl
  · obtain ⟨e, he, hout⟩ := isCapacity_eq_true hrefused
    rw [hout] at hdrives hkept
    rw [htunn, core_noteRefusal]
    cases hdrives with
    | refused hready =>
      cases hready with
      | pending hpending => exact absurd (hnone₁.symm.trans hpending) nofun
      | @prepared burst rng _ _ _ hopens =>
        refine @Carried.burst _ _ _ latch.isSome burst ?_ hnone (hopens.owed.trans ?_) hopens.last
        · rw [← core_spendLatch]
          rfl
        · cases latch <;> rfl
      | direct => exact absurd (hnone₁ ▸ hkept.resolve_right nofun) nofun

theorem sendKeepalive_carried (hnone : t.pendingAmneziaJunk = none) (passive persistent : Bool)
    (env : Env P) (dst : Bytes) (budget : OutputBudget)
    (hrefused : ((t.spendKeepalives passive persistent).sendKeepalive env dst t.keepaliveRollback
      budget).1.isCapacity = true) :
    Carried t.core ((t.spendKeepalives passive persistent).sendKeepalive env dst
      t.keepaliveRollback budget).2.1.core := by
  rcases t.sendKeepalive_acts env dst budget hnone passive persistent with
    ⟨hkept, -⟩ | ⟨e, t₁, he, hout, htunn, hready⟩
  · exact absurd (hkept.symm.trans hrefused) Bool.false_ne_true
  · rw [htunn, t₁.core_note .tickDemandRefused nofun]
    rcases hready with rfl | hready
    · exact .same rfl
    · cases hready with
      | pending | direct => exact .same rfl
      | @prepared burst _ _ _ _ hopens =>
        exact @Carried.burst _ _ _ false burst rfl hnone hopens.owed hopens.last

theorem keepaliveRollback_readied (t : Tunn P) (now : Nat) :
    (t.readied now).keepaliveRollback = t.keepaliveRollback := by
  have htimers : (t.readied now).timers = t.timers := congrArg Core.timers (t.core_readied now)
  unfold keepaliveRollback
  rw [htimers]

variable {rollback : KeepaliveRollback} {out : TunnResult × Tunn P × Env P} {selected : Demand}

/-- A refused demand is carried on. -/
theorem Selected.carried (h : t.Selected env now dst t.keepaliveRollback budget out selected)
    (hrefused : out.1.isCapacity = true) : Carried t.core out.2.1.core := by
  have hburst : (t.readied now).pendingAmneziaJunk = t.pendingAmneziaJunk :=
    congrArg Core.burst (t.core_readied now)
  have htimers : (t.readied now).timers = t.timers := congrArg Core.timers (t.core_readied now)
  cases h with
  | none hquiet => exact absurd (hquiet.symm.trans hrefused) Bool.false_ne_true
  | burst hpending hserved =>
    obtain ⟨pending, hpending⟩ := Option.isSome_iff_exists.mp hpending
    rw [hserved] at hrefused ⊢
    rcases t.advanceAmneziaJunk_acts env dst budget hpending with
      ⟨-, hidle, -⟩ | hrefuses | ⟨wire, hwire, -⟩
    · rw [hidle.tunn]
      exact .same rfl
    · rw [hrefuses.idle.tunn]
      exact .same rfl
    · rw [hwire] at hrefused
      cases hrefused
  | initiation hnone _ hlatch hserved =>
    rw [hserved] at hrefused ⊢
    rw [← t.core_readied now]
    rw [← htimers] at hlatch
    exact sendInitiation_carried (hburst.trans hnone) hlatch _ dst budget hrefused
  | keepalive hnone _ hserved =>
    rw [hserved, ← t.keepaliveRollback_readied now] at hrefused ⊢
    rw [← t.core_readied now]
    exact sendKeepalive_carried (hburst.trans hnone) _ _ env dst budget hrefused

/-! ### With room enough -/

theorem formatHandshakeInitiationNow_fits {forceResend : Bool}
    (hstart : t.handshake.isInProgress = false ∨ forceResend = true) (owed : Bool) (env : Env P)
    (hsize : t.initiationWireFloor ≤ dst.length) :
    (t.formatHandshakeInitiationNow env dst forceResend owed .UNBOUNDED).1.isWriteToNetwork =
      true := by
  rcases t.formatHandshakeInitiationNow_acts env dst forceResend .UNBOUNDED owed with
    ⟨hbusy, hforce⟩ | hrefuses | ⟨wire, hwire, -⟩
  · rw [hbusy, hforce] at hstart
    rcases hstart with h | h <;> cases h
  · exact absurd hsize (Nat.not_le.mpr (hrefuses.short rfl))
  · rw [hwire]
    rfl

theorem burstDue_of_fresh {pending : PendingAmneziaJunk} (hfresh : pending.lastPacketAt = none)
    (env : Env P) : (t.burstDue pending env).1 = true := by
  unfold burstDue
  rw [hfresh]

/-- The pacing reads the core and the clock. -/
theorem burstDue_congr {env' : Env P} (hcore : t'.core = t.core) (hnow : env'.now = env.now)
    (pending : PendingAmneziaJunk) :
    (t'.burstDue pending env').1 = (t.burstDue pending env).1 := by
  have hamnezia : t'.amnezia = t.amnezia := congrArg Core.amnezia hcore
  unfold burstDue
  rw [hamnezia, hnow]
  cases pending.lastPacketAt <;> rfl

/-- A burst that was refused was not held back. -/
theorem burstDue_of_refused {pending : PendingAmneziaJunk}
    (hpending : t.pendingAmneziaJunk = some pending)
    (hrefused : (t.advanceAmneziaJunk env dst budget).1.isCapacity = true) :
    (t.burstDue pending env).1 = true := by
  by_contra hdue
  rw [paced_of_not_due hpending (Bool.eq_false_iff.mpr hdue) dst budget] at hrefused
  cases hrefused

/-- A burst that is due sends its next datagram, if there is room. -/
theorem advanceAmneziaJunk_fits {pending : PendingAmneziaJunk}
    (hpending : t.pendingAmneziaJunk = some pending) (hdue : (t.burstDue pending env).1 = true)
    (hsize : t.nextSize pending ≤ dst.length) :
    (t.advanceAmneziaJunk env dst .UNBOUNDED).1.isWriteToNetwork = true := by
  rcases t.advanceAmneziaJunk_acts env dst .UNBOUNDED hpending with
    ⟨hdone, -⟩ | hrefuses | ⟨wire, hwire, -⟩
  · exact absurd hdone (passes_of_due hpending hdue dst .UNBOUNDED)
  · exact absurd hsize (Nat.not_le.mpr (hrefuses.short rfl))
  · rw [hwire]
    rfl

theorem formatHandshakeInitiation_fits (hnone : t.pendingAmneziaJunk = none) {forceResend : Bool}
    (hstart : t.handshake.isInProgress = false ∨ forceResend = true) :
    ∃ size, ∀ (env : Env P) dst, size ≤ dst.length →
      (t.formatHandshakeInitiation env dst forceResend .UNBOUNDED).1.isWriteToNetwork = true := by
  have hwanted : ¬ (t.handshake.isInProgress && !forceResend) = true := by
    rcases hstart with h | h <;> simp [h]
  have hunpending : ¬ t.pendingAmneziaJunk.isSome = true := by
    rw [hnone]
    exact Bool.false_ne_true
  cases hemits : t.amnezia.emitsPreHandshake with
  | true =>
    have hlast := (t.newPreHandshakeBurst_opens hemits t.handshake.isExpired).1.last
    rcases hnew : t.newPreHandshakeBurst none t.handshake.isExpired with ⟨burst, t₁⟩
    rw [hnew] at hlast
    generalize hprepared : { t₁ with pendingAmneziaJunk := some burst }.note .burstPrepared = t₂
    have hburst : t₂.pendingAmneziaJunk = some burst := by
      rw [← hprepared]
      rfl
    refine ⟨t₂.nextSize burst, fun env dst hsize => ?_⟩
    unfold formatHandshakeInitiation
    rw [if_neg hunpending, if_neg hwanted, hemits]
    rw [if_pos rfl, hnew]
    dsimp only
    rw [hprepared]
    exact advanceAmneziaJunk_fits hburst (burstDue_of_fresh hlast env) hsize
  | false =>
    refine ⟨t.initiationWireFloor, fun env dst hsize => ?_⟩
    unfold formatHandshakeInitiation
    rw [if_neg hunpending, if_neg hwanted, hemits]
    exact formatHandshakeInitiationNow_fits hstart _ env hsize

/-- Something can still take a packet of the caller: the session, or the queue. -/
def Admits (c : Core P) : Prop :=
  c.usable = true ∨ c.queue.length < MAX_QUEUE_DEPTH ∧ c.inProgress = false

/-- What is refused for want of room was refused by one of the two. -/
theorem encapsulate_admits (hnone : t.pendingAmneziaJunk = none) (env : Env P) (src dst : Bytes)
    (budget : OutputBudget) (hrefused : (t.encapsulate env src dst budget).1.isCapacity = true) :
    Admits t.core := by
  obtain ⟨e, he, hout⟩ := isCapacity_eq_true hrefused
  have hsubmits := t.encapsulate_submitting env src dst budget
  dsimp only at hsubmits
  rw [hout] at hsubmits
  generalize (t.encapsulate env src dst budget).2 = out at hsubmits
  obtain ⟨t', env'⟩ := out
  cases hsubmits with
  | refused husable => exact .inl husable
  | full => rcases he with he | he <;> cases he
  | failed _ hroom hdrives =>
    refine .inr ⟨hroom, ?_⟩
    cases hdrives with
    | refused hready =>
      cases hready with
      | pending hpending => exact absurd (hnone.symm.trans hpending) nofun
      | prepared _ hstart | direct _ hstart => exact hstart.resolve_right nofun
  | queued _ _ _ hok => cases hok

theorem encapsulateOnSession_fits {session : Session P} (hselected : t.selected = some session)
    (hnonce : session.sendingExhausted = false) (src : Bytes)
    (hsize : Budget.transportFrame src.length t.amnezia.transportJunkSize ≤ dst.length) :
    (t.encapsulateOnSession src dst .UNBOUNDED).1.isWriteToNetwork = true := by
  have hadmitted : Budget.admits (Budget.transportFrame src.length t.amnezia.transportJunkSize)
      dst.length OutputBudget.UNBOUNDED.transport = .ok _ :=
    Budget.admits_eq_ok.mpr ⟨rfl, hsize, rfl⟩
  obtain ⟨wire, _, _, hout, -⟩ := encapsulateOnSession_admitted hselected hnonce hadmitted
  rw [hout]
  rfl

theorem encapsulate_fits (hnone : t.pendingAmneziaJunk = none) (hadmits : Admits t.core)
    (src : Bytes) : ∃ size, ∀ (env : Env P) dst, size ≤ dst.length →
      (t.encapsulate env src dst .UNBOUNDED).1.isWriteToNetwork = true := by
  cases husable : t.core.usable with
  | true =>
    obtain ⟨session, hselected, hnonce⟩ := Core.usable_iff.mp husable
    refine ⟨Budget.transportFrame src.length t.amnezia.transportJunkSize, fun env dst hsize => ?_⟩
    have hcurrent : t.hasCurrentSession = true := husable
    unfold encapsulate
    rw [if_pos hcurrent]
    exact encapsulateOnSession_fits hselected hnonce src hsize
  | false =>
    obtain ⟨hlength, hidle⟩ := hadmits.resolve_left (Bool.eq_false_iff.mp husable)
    obtain ⟨size, hfits⟩ := formatHandshakeInitiation_fits hnone (.inl hidle)
    refine ⟨size, fun env dst hsize => ?_⟩
    have hcurrent : ¬ t.hasCurrentSession = true := Bool.eq_false_iff.mp husable
    have hlength : t.packetQueue.length < MAX_QUEUE_DEPTH := hlength
    have hroom : ¬ (!t.queueHasRoom) = true := by simpa [queueHasRoom] using hlength
    have hwrites := hfits env dst hsize
    have hqueue := (t.core_formatHandshakeInitiation env dst false .UNBOUNDED).still.queue
    unfold encapsulate admitWithoutSession
    rw [if_neg hcurrent, if_neg hroom]
    dsimp only at hqueue ⊢
    generalize t.formatHandshakeInitiation env dst false .UNBOUNDED = out at hwrites hqueue ⊢
    obtain ⟨result, t₁, env₁⟩ := out
    dsimp only at hwrites hqueue ⊢
    have hroom₁ : ¬ (!t₁.queueHasRoom) = true := by
      unfold queueHasRoom at hroom ⊢
      rw [show t₁.packetQueue = t.packetQueue from hqueue]
      exact hroom
    have hok : ¬ result.isErr = true := by
      cases result with
      | err e => cases hwrites
      | _ => exact Bool.false_ne_true
    unfold queuePacket
    rw [if_neg hok, if_neg hroom₁]
    exact hwrites

/-! ### The next poll -/

/-- A demand that was selected is served, if there is room. -/
theorem servePoll_fits {reading : Nat} (rollback : KeepaliveRollback)
    (hdemand : t.demand now reading ≠ .none)
    (hnone : t.demand now reading ≠ .burst → t.pendingAmneziaJunk = none)
    (hadmits : ∀ passive persistent, t.demand now reading = .keepalive passive persistent →
      Admits t.core)
    (hdue : ∀ pending, t.pendingAmneziaJunk = some pending → ∀ env : Env P, env.now = reading →
      (t.burstDue pending env).1 = true) :
    ∃ size, ∀ (env : Env P) dst, env.now = reading → size ≤ dst.length →
      (t.servePoll env now dst rollback .UNBOUNDED).1.isWriteToNetwork = true := by
  have hcore := t.core_readied now
  have hburst : (t.readied now).pendingAmneziaJunk = t.pendingAmneziaJunk :=
    congrArg Core.burst hcore
  have hpoll {demand : Demand} (hselect : t.demand now reading = demand) (env : Env P)
      (dst : Bytes) (hnow : env.now = reading) :
      t.Selected env now dst rollback .UNBOUNDED (t.servePoll env now dst rollback .UNBOUNDED)
        demand := by
    rw [← hselect, ← hnow]
    exact t.servePoll_selected env now dst rollback .UNBOUNDED
  cases hselect : t.demand now reading with
  | none => exact absurd hselect hdemand
  | burst =>
    refine ⟨(t.pendingAmneziaJunk.map t.nextSize).getD 0, ?_⟩
    rintro env dst rfl hsize
    cases hpoll hselect env dst rfl with
    | burst hpending hserved =>
      obtain ⟨pending, hpending⟩ := Option.isSome_iff_exists.mp hpending
      rw [hpending] at hsize
      rw [hserved]
      exact advanceAmneziaJunk_fits hpending (hdue pending hpending env rfl) hsize
  | initiation latch =>
    have hfree : ((t.readied now).spendLatch latch).pendingAmneziaJunk = none := by
      have hfree := hburst.trans (hnone (by rw [hselect]; exact nofun))
      cases latch <;> exact hfree
    obtain ⟨size, hfits⟩ := @formatHandshakeInitiation_fits _ _ hfree true (.inr rfl)
    refine ⟨size, ?_⟩
    rintro env dst rfl hsize
    cases hpoll hselect env dst rfl with
    | initiation _ _ _ hserved =>
      rw [hserved]
      exact hfits _ dst hsize
  | keepalive passive persistent =>
    have hspent := core_spendKeepalives (t.readied now) passive persistent
    have hfree : ((t.readied now).spendKeepalives passive persistent).pendingAmneziaJunk = none := by
      have hfree := hburst.trans (hnone (by rw [hselect]; exact nofun))
      exact (congrArg Core.burst hspent).trans hfree
    have hadmits : Admits ((t.readied now).spendKeepalives passive persistent).core := by
      rw [hspent, hcore]
      exact hadmits passive persistent hselect
    obtain ⟨size, hfits⟩ := encapsulate_fits hfree hadmits []
    refine ⟨size, ?_⟩
    rintro env dst rfl hsize
    cases hpoll hselect env dst rfl with
    | keepalive _ _ hserved =>
      rw [hserved]
      exact hfits env dst hsize

/-- A keepalive that was refused for want of room finds the session or the queue again. -/
theorem Selected.admits {passive persistent : Bool}
    (h : t.Selected env now dst rollback budget out (.keepalive passive persistent))
    (hrefused : out.1.isCapacity = true) : Admits t.core := by
  cases h with
  | keepalive hnone _ hserved =>
    have hspent := core_spendKeepalives (t.readied now) passive persistent
    have hfree : ((t.readied now).spendKeepalives passive persistent).pendingAmneziaJunk =
        Option.none := (congrArg Core.burst hspent).trans
          ((congrArg Core.burst (t.core_readied now)).trans hnone)
    rw [hserved] at hrefused
    have hadmits := encapsulate_admits hfree env [] dst budget hrefused
    rw [hspent, t.core_readied] at hadmits
    exact hadmits

/-- Sessions that are aged at an instant stay so. -/
theorem age_age (c : Core P) (now : Nat) : (c.age now).age now = c.age now := by
  have haged (slot : Fin N_SESSIONS) : (c.age now).isAged now slot = false := by
    unfold Core.isAged Core.age
    dsimp only [Timers.set]
    split
    · simp
    · next hyoung => simpa [Core.isAged] using hyoung
  unfold Core.age at haged ⊢
  simp only [haged, Bool.false_and]
  congr 1
  unfold Timers.set
  simp

theorem Carried.age {c c' : Core P} (h : Carried c c') (hc : c.age now = c) : c'.age now = c' := by
  cases h with
  | same h =>
    rw [h]
    exact hc
  | @burst latched burst h =>
    subst h
    cases latched with
    | false => exact congrArg (fun c : Core P => { c with burst := some burst }) hc
    | true => exact congrArg (fun c : Core P => { c.spendLatch with burst := some burst }) hc

/-- The burst that carries a demand on is what the next poll selects. -/
theorem Carried.again (h : Carried t.core t'.core) (now reading : Nat)
    (hpast : t.pendingAmneziaJunk = none →
      t.handshake.isExpired = true ∨ t.pastAbsoluteBounds now = false) :
    t'.core = t.core ∨ t'.demand now reading = .burst := by
  have hstate : t'.handshake.state = t.handshake.state :=
    h.reads Core.state (fun _ => rfl) fun _ _ => rfl
  have hamnezia : t'.amnezia = t.amnezia := h.reads Core.amnezia (fun _ => rfl) fun _ _ => rfl
  have htimers : t'.timers.timers = t.timers.timers :=
    h.reads (fun c => c.timers.timers) (fun _ => rfl) fun _ _ => rfl
  have hbounds : t'.pastAbsoluteBounds now = t.pastAbsoluteBounds now := by
    unfold pastAbsoluteBounds Handshake.timer
    rw [htimers, hstate, hamnezia]
  have hexpired : t'.handshake.isExpired = t.handshake.isExpired := by
    unfold Handshake.isExpired
    rw [hstate]
  cases h with
  | same h => exact .inl h
  | @burst latched burst h hnone howed =>
    right
    have hpending : t'.pendingAmneziaJunk = some burst := congrArg Core.burst h
    unfold demand burstOwesExpiredReset
    rw [hexpired, hbounds, hpending]
    rcases hpast hnone with hpast | hpast
    · rw [core_isExpired] at howed
      rw [hpast] at howed ⊢
      simp [howed]
    · rw [hpast]
      simp

/-- A poll that selected nothing is not refused, and one that was can still be served. -/
theorem Selected.refused (h : t.Selected env now dst rollback budget out selected)
    (hrefused : out.1.isCapacity = true) :
    selected ≠ .none ∧ (selected ≠ .burst → t.pendingAmneziaJunk = Option.none) ∧
      (t.pendingAmneziaJunk = Option.none →
        t.handshake.isExpired = true ∨ t.pastAbsoluteBounds now = false) := by
  cases h with
  | none hquiet => exact absurd (hquiet.symm.trans hrefused) Bool.false_ne_true
  | burst hpending =>
    refine ⟨nofun, fun h => absurd rfl h, fun hnone => ?_⟩
    rw [hnone] at hpending
    cases hpending
  | initiation hnone hpast => exact ⟨nofun, fun _ => hnone, fun _ => .inr hpast⟩
  | keepalive hnone hpast => exact ⟨nofun, fun _ => hnone, fun _ => hpast⟩

/-- At the clock it was refused by, a burst is due still, and one that carries on is due at once. -/
theorem Selected.due (h : t.Selected env now dst rollback budget out selected)
    (hrefused : out.1.isCapacity = true) (hcarried : Carried t.core t'.core)
    {pending : PendingAmneziaJunk} (hpending : t'.pendingAmneziaJunk = some pending) {env' : Env P}
    (hnow : env'.now = env.now) : (t'.burstDue pending env').1 = true := by
  cases hcarried with
  | same hcore =>
    rw [burstDue_congr hcore hnow]
    have hpending : t.pendingAmneziaJunk = some pending :=
      (congrArg Core.burst hcore).symm.trans hpending
    cases h with
    | none hquiet => exact absurd (hquiet.symm.trans hrefused) Bool.false_ne_true
    | burst _ hserved =>
      rw [hserved] at hrefused
      exact burstDue_of_refused hpending hrefused
    | initiation hnone | keepalive hnone => exact absurd (hnone.symm.trans hpending) nofun
  | burst hburst _ _ hfresh =>
    cases hpending.symm.trans (congrArg Core.burst hburst)
    exact burstDue_of_fresh hfresh env'

/-- A demand that was refused is served by a poll of the tunnel it was left with. -/
theorem Selected.servedAgain
    (h : t.Selected env now dst t.keepaliveRollback budget out (t.demand now env.now))
    (hrefused : out.1.isCapacity = true) (hleft : t'.core = out.2.1.core) :
    ∃ size, ∀ (env' : Env P) dst', env'.now = env.now → size ≤ dst'.length →
      (t'.servePoll env' now dst' rollback .UNBOUNDED).1.isWriteToNetwork = true := by
  obtain ⟨hsome, hnone, hpast⟩ := h.refused hrefused
  have hcarried : Carried t.core t'.core := by
    rw [hleft]
    exact h.carried hrefused
  -- the second poll selects the same demand, or the burst that carries it on
  rcases hcarried.again now env.now hpast with hcore | hburst
  · have hdemand := demand_congr hcore now env.now
    refine servePoll_fits rollback (by rw [hdemand]; exact hsome) (fun hother => ?_)
      (fun passive persistent hkeepalive => ?_)
      fun _ hpending _ hnow => h.due hrefused hcarried hpending hnow
    · rw [hdemand] at hother
      exact (congrArg Core.burst hcore).trans (hnone hother)
    · rw [hdemand] at hkeepalive
      rw [hkeepalive] at h
      rw [hcore]
      exact h.admits hrefused
  · exact servePoll_fits rollback (by rw [hburst]; exact nofun) (fun hother => absurd hburst hother)
      (fun passive persistent hkeepalive => absurd (hburst.symm.trans hkeepalive) nofun)
      fun _ hpending _ hnow => h.due hrefused hcarried hpending hnow

/-! ### The refused poll -/

/-- What a refused poll at `now` leaves as it was. -/
structure SparesDemands (t : Tunn P) (now : Nat) (t' : Tunn P) : Prop where
  passive : t'.timers.wantKeepalive = t.timers.wantKeepalive
  owed : t'.timers.persistentKeepaliveDue = t.timers.persistentKeepaliveDue
  stamp : t'.timers.timers .timePersistentKeepalive = t.timers.timers .timePersistentKeepalive
  interval : t'.timers.persistentKeepaliveCurrent = t.timers.persistentKeepaliveCurrent
  latch : t'.timers.wantHandshake = t.timers.wantHandshake ∨ t'.pendingAmneziaJunk.isSome = true
  /-- A session goes by its age only, and keeps its nonce. -/
  sessions : ∀ slot, t'.sessions slot = if t.isAged now slot then none else t.sessions slot
  current : t'.current = t.current
  state : t'.handshake.state = t.handshake.state
  previous : t'.handshake.previous = t.handshake.previous
  index : t'.handshake.nextIndex = t.handshake.nextIndex
  queue : t'.packetQueue = t.packetQueue

theorem Carried.sparesDemands (h : Carried (t.core.age now) t'.core) : t.SparesDemands now t' where
  passive := h.reads (fun c => c.timers.wantKeepalive) (fun _ => rfl) fun _ _ => rfl
  owed := h.reads (fun c => c.timers.persistentKeepaliveDue) (fun _ => rfl) fun _ _ => rfl
  stamp := h.reads (fun c => c.timers.timers .timePersistentKeepalive) (fun _ => rfl) fun _ _ => rfl
  interval := h.reads (fun c => c.timers.persistentKeepaliveCurrent) (fun _ => rfl) fun _ _ => rfl
  latch := by
    cases h with
    | same h => exact .inl (congrArg (fun c => c.timers.wantHandshake) h)
    | burst h => exact .inr (congrArg (fun c => c.burst.isSome) h)
  sessions := congrFun (h.reads Core.ring (fun _ => rfl) fun _ _ => rfl)
  current := h.reads Core.current (fun _ => rfl) fun _ _ => rfl
  state := h.reads Core.state (fun _ => rfl) fun _ _ => rfl
  previous := h.reads Core.previous (fun _ => rfl) fun _ _ => rfl
  index := h.reads Core.index (fun _ => rfl) fun _ _ => rfl
  queue := h.reads Core.queue (fun _ => rfl) fun _ _ => rfl

/-- The next poll at the same instant begins as this one did. -/
theorem Carried.beginPoll {env' : Env P} (hclock : env'.clock = env.clock)
    (h : Carried (t.core.age (t.timers.monotonicNow env.now)) t'.core) :
    (t'.beginPoll env').1 = (t.beginPoll env).1 ∧
      (t'.beginPoll env').2.1.core = t'.core ∧
        (t'.beginPoll env').2.2.now = (t.beginPoll env).2.2.now := by
  have hstarted : t'.timers.timeStarted = t.timers.timeStarted :=
    h.reads (fun c => c.timers.timeStarted) (fun _ => rfl) fun _ _ => rfl
  have hreset : t'.timers.shouldResetRr = t.timers.shouldResetRr :=
    h.reads (fun c => c.timers.shouldResetRr) (fun _ => rfl) fun _ _ => rfl
  have hcurrent : t'.timers.timeCurrent = t.timers.monotonicNow env.now :=
    h.reads (fun c => c.timers.timeCurrent) (fun _ => rfl) fun _ _ => rfl
  have htime : env'.now = env.now := congrArg (· 0) hclock
  have hnow : t'.timers.monotonicNow env'.now = t.timers.monotonicNow env.now := by
    unfold Timers.monotonicNow at hcurrent ⊢
    rw [htime, hstarted, hcurrent]
    omega
  refine ⟨hnow, ?_, ?_⟩
  · rw [core_beginPoll, hnow]
    exact h.age (age_age _ _)
  · unfold Tunn.beginPoll
    dsimp only
    rw [hreset]
    cases t.timers.shouldResetRr with
    | true => exact congrArg (· 2) hclock
    | false => exact congrArg (· 1) hclock

/-- A poll begins by the clock alone. -/
theorem beginPoll_congr {env' : Env P} (hclock : env'.clock = env.clock) (t : Tunn P) :
    (t.beginPoll env').2.1 = (t.beginPoll env).2.1 := by
  have htime : env'.now = env.now := congrArg (· 0) hclock
  have htick : env'.tick.now = env.tick.now := congrArg (· 1) hclock
  unfold beginPoll
  dsimp only
  rw [htime, htick]
  cases t.timers.shouldResetRr <;> rfl

/-- A refused poll costs no demand: a second one at the same instant, with room, serves it. -/
theorem refused_tick_spares (t : Tunn P) (env : Env P) (dst : Bytes) (budget : OutputBudget)
    (hrefused : (t.updateTimers env dst budget).1 = .err .destinationBufferTooSmall ∨
      (t.updateTimers env dst budget).1 = .err .outputBudgetExceeded) :
    t.SparesDemands (t.timers.monotonicNow env.now) (t.updateTimers env dst budget).2.1 ∧
      ∃ size, ∀ (env' : Env P) (dst' : Bytes), env'.clock = env.clock → size ≤ dst'.length →
        ((t.updateTimers env dst budget).2.1.updateTimers env' dst' .UNBOUNDED).1.isWriteToNetwork =
          true := by
  have hrefused : (t.updateTimers env dst budget).1.isCapacity = true := by
    rcases hrefused with h | h <;> rw [h] <;> rfl
  have hselected := (t.beginPoll env).2.1.servePoll_selected (t.beginPoll env).2.2
    (t.beginPoll env).1 dst t.keepaliveRollback budget
  change Selected _ _ _ _ _ _ (t.updateTimers env dst budget) _ at hselected
  generalize t.updateTimers env dst budget = out at hselected hrefused ⊢
  obtain ⟨result, t', rest⟩ := out
  have hcarried : Carried (t.core.age (t.timers.monotonicNow env.now)) t'.core := by
    rw [← t.core_beginPoll env]
    exact hselected.carried hrefused
  refine ⟨hcarried.sparesDemands, ?_⟩
  obtain ⟨-, hcore, -⟩ := @Carried.beginPoll _ _ _ env env rfl hcarried
  obtain ⟨size, hserved⟩ := @Selected.servedAgain _ _ _ _ _ _ _ t'.keepaliveRollback _ hselected
    hrefused hcore
  refine ⟨size, fun env' dst' hclock hsize => ?_⟩
  obtain ⟨hnow, -, hreading⟩ := hcarried.beginPoll hclock
  have hagain := hserved (t'.beginPoll env').2.2 dst' hreading hsize
  rw [← hnow, ← beginPoll_congr hclock t'] at hagain
  exact hagain

/-- A tunnel that waits for the answer to its initiation. -/
def byteUnanswered : Tunn bytePrimitives :=
  byteHome.after (byteEnv 1 4) (.encapsulate [] byteBuffer .UNBOUNDED)

theorem refused_tick_spares_byteUnanswered :
    (byteUnanswered.updateTimers (byteEnv 10 4) [] .UNBOUNDED).1 = .err .destinationBufferTooSmall ∧
      byteUnanswered.SparesDemands (byteUnanswered.timers.monotonicNow (byteEnv 10 4).now)
        (byteUnanswered.updateTimers (byteEnv 10 4) [] .UNBOUNDED).2.1 ∧
      ∃ dst, ((byteUnanswered.updateTimers (byteEnv 10 4) [] .UNBOUNDED).2.1.updateTimers
        (byteEnv 10 4) dst .UNBOUNDED).1.isWriteToNetwork = true := by
  have hrefused : (byteUnanswered.updateTimers (byteEnv 10 4) [] .UNBOUNDED).1 =
      .err .destinationBufferTooSmall := by decide +kernel
  obtain ⟨hspares, size, hserved⟩ := refused_tick_spares byteUnanswered (byteEnv 10 4) [] .UNBOUNDED
    (.inl hrefused)
  exact ⟨hrefused, hspares, List.replicate size 0,
    hserved (byteEnv 10 4) _ rfl List.length_replicate.ge⟩

end Tunn

end BoringTun
