import BoringTun.CycleLeft
import BoringTun.Lib.Potential

/-!
A tunnel that is left alone goes quiet.

Over every schedule of polls and of calls that send what is queued, however the clock advances,
a tunnel without a persistent keepalive sends finitely many datagrams (`goes_quiet`): the passive
keepalive that was armed, what was queued, and the bursts and initiations of one handshake cycle.
-/

namespace BoringTun

variable {P : Primitives}

/-! ### The limit is a machine word -/

namespace Timers

variable {t : Timers}

theorem sessionEstablished_sameCount (t : Timers) (cfg : AwgTimers) (rng : Rng)
    (isInitiator : Bool) (slot : Fin N_SESSIONS) :
    t.SameCount (t.sessionEstablished cfg rng isInitiator slot).1 := by
  obtain ⟨hattempts, hlimit⟩ := t.tick_sameCount cfg rng .timeSessionEstablished
  exact ⟨hattempts, hlimit⟩

theorem answered_sameCount (t : Timers) (cfg : AwgTimers) (r₁ r₂ r₃ : Rng)
    (slot : Fin N_SESSIONS) : t.SameCount (t.answered cfg r₁ r₂ r₃ slot) :=
  ((t.tick_sameCount cfg r₁ _).trans (tick_sameCount _ cfg r₂ _)).trans
    (sessionEstablished_sameCount _ cfg r₃ false slot)

theorem completed_sameCount (t : Timers) (cfg : AwgTimers) (r₁ r₂ : Rng) (slot : Fin N_SESSIONS) :
    t.SameCount (t.completed cfg r₁ r₂ slot) :=
  (t.tick_sameCount cfg r₁ _).trans (sessionEstablished_sameCount _ cfg r₂ true slot)

theorem setPersistentKeepaliveRange_sameCount (t : Timers) (range : Nat × Nat) :
    t.SameCount (t.setPersistentKeepaliveRange range) := by
  unfold setPersistentKeepaliveRange
  split
  · exact .refl t
  · refine .trans ?_ (rearmPersistentKeepalive_sameCount _)
    split
    · exact ⟨rfl, rfl⟩
    · split <;> exact ⟨rfl, rfl⟩

end Timers

namespace Core

variable {c c' : Core P} {action : Action P} {result : TunnResult} {force : Bool} {wire : Bytes}

/-- The limit of a cycle fits the word it is kept in. -/
def Limited (c : Core P) : Prop := c.timers.maxRetransmissionsCurrent < 2 ^ 32

theorem Limited.of_sameCount (h : c.Limited) (hcount : c.timers.SameCount c'.timers) :
    c'.Limited := by
  unfold Limited
  rw [hcount.limit]
  exact h

theorem Emits.limited (h : c.Emits wire c') (hlimit : c.Limited) : c'.Limited := by
  have hinitiated {owed : Bool} {now : Nat} {rng : Rng} (sent : HandshakeInitSentState P) :
      (c.initiate owed now rng sent).Limited := by
    unfold Limited at hlimit ⊢
    cases hbusy : c.inProgress with
    | false => exact (initiate_first hbusy owed now rng sent).2
    | true =>
      rw [(initiate_again hbusy owed now rng sent).2]
      exact hlimit
  cases h with
  | imitation | junk => exact hlimit.of_sameCount (c.restarted_sameCount _ _)
  | @deferred _ _ _ _ sent | @direct _ _ _ sent => exact hinitiated sent

theorem Drives.limited (h : c.Drives force result c') (hlimit : c.Limited) : c'.Limited := by
  have hready {c₁ : Core P} (h : c.Readies force c₁) : c₁.Limited := by
    unfold Limited
    rw [h.timers_eq]
    exact hlimit
  cases h with
  | busy | paced => exact hlimit
  | refused h => exact hready h
  | emitted h hemits => exact hemits.limited (hready h)

theorem Serves.limited (h : c.Serves action result c') (hlimit : c.Limited) : c'.Limited := by
  cases h with
  | calm hcalm => exact hlimit.of_sameCount hcalm.count
  | drives hbefore _ hdrives hafter =>
    exact (hdrives.limited (hlimit.of_sameCount hbefore.count)).of_sameCount hafter.count
  | ends _ _ hcount => exact hlimit.of_sameCount hcount

theorem Accepts.sameCount {packet : Authenticated P} (h : c.Accepts packet result c') :
    c.timers.SameCount c'.timers := by
  cases h with
  | answered => exact c.timers.answered_sameCount _ _ _ _ _
  | @completed _ _ _ _ _ r₃ timers htimers =>
    have hcompleted : c.timers.SameCount timers := by
      rw [htimers]
      exact c.timers.completed_sameCount _ _ _ _
    exact hcompleted.trans (timers.tick_sameCount c.amnezia.timers r₃ .timeLastPacketSent)
  | @cookie _ rng => exact c.timers.tick_sameCount c.amnezia.timers rng .timeCookieReceived
  | data => exact c.timers.received_sameCount _ _ _ _

theorem Moves.limited (h : c.Moves action result c') (hlimit : c.Limited) : c'.Limited := by
  cases action with
  | accept packet =>
    cases h with
    | accepts h => exact hlimit.of_sameCount h.sameCount
  | configure =>
    cases h with
    | declines | rekeys => exact hlimit
    | reconfigures htimers =>
      rcases htimers with rfl | rfl
      · exact hlimit
      · exact AwgTimers.maxRetransmissions_lt _ _
    | keeps => exact hlimit.of_sameCount (c.timers.setPersistentKeepaliveRange_sameCount _)
  | _ => exact (h.serves trivial).limited hlimit

/-! ### One call -/

theorem Action.Alone.keeps (h : action.Alone) : action.Keeps := by
  cases action with
  | drain => trivial
  | poll now => trivial
  | _ => exact h.elim

/-- A tunnel left alone has a cycle left, or nothing. -/
theorem Moves.alone (h : c.Moves action result c') (halone : action.Alone) (hspent : c.Spent)
    (hoff : c.timers.persistentKeepaliveOn = false) :
    c.Lives ∧ c.Serves action result c' ∨
      c.Ended ∧ c'.Ended ∧ result.isWriteToNetwork = false ∧ c.timers.SameCount c'.timers := by
  by_cases hlive : c.Lives
  · exact .inl ⟨hlive, h.serves halone.keeps⟩
  · right
    obtain ⟨hexpired, hgone⟩ := Classical.not_imp.mp hlive
    have hended := hspent.ended hexpired (Option.not_isSome_iff_eq_none.mp hgone)
    exact ⟨hended, hended.moves h halone hoff⟩

def Action.isPoll : Action P → Bool
  | .poll _ => true
  | _ => false

theorem Moves.keepalives_add_le (h : c.Moves action result c') (halone : action.Alone)
    (hoff : c.timers.persistentKeepaliveOn = false) :
    c'.keepalives + (action.isPoll && transports result c'.output).toNat ≤ c.keepalives := by
  cases h with
  | drains h => exact h.dwindles.keepalives_le
  | @polls now _ _ _ h => exact h.keepalives_add_le hoff
  | _ => exact halone.elim

theorem Moves.deliverable_add_le (h : c.Moves action result c') (halone : action.Alone)
    (hoff : c.timers.persistentKeepaliveOn = false) :
    c'.deliverable + (!action.isPoll && transports result c'.output).toNat ≤ c.deliverable := by
  have hle := (h.dwindles halone hoff).deliverable_le
  cases h with
  | drains h => exact h.deliverable_add_le
  | polls => exact hle
  | _ => exact halone.elim

theorem Moves.energy_add_le (h : c.Moves action result c') (halone : action.Alone)
    (hspent : c.Spent) (hlimit : c.Limited) (hoff : c.timers.persistentKeepaliveOn = false) :
    c'.energy + (precedes result c'.output).toNat ≤ c.energy := by
  rcases h.alone halone hspent hoff with ⟨hlive, hserves⟩ | ⟨-, hended, hquiet, -⟩
  · exact hserves.energy_add_le halone hlive hlimit
  · unfold precedes
    rw [hended.energy_eq, hquiet]
    exact Nat.zero_le _

/-- All that a tunnel left alone can still send. -/
def held (c : Core P) : Nat := c.keepalives + c.deliverable + c.energy

theorem Moves.held_add_le (h : c.Moves action result c') (halone : action.Alone)
    (hspent : c.Spent) (hlimit : c.Limited) (hoff : c.timers.persistentKeepaliveOn = false) :
    c'.held + result.isWriteToNetwork.toNat ≤ c.held := by
  have hkeepalives := h.keepalives_add_le halone hoff
  have hdeliverable := h.deliverable_add_le halone hoff
  have henergy := h.energy_add_le halone hspent hlimit hoff
  have hsplit : result.isWriteToNetwork.toNat ≤
      (action.isPoll && transports result c'.output).toNat +
        (!action.isPoll && transports result c'.output).toNat +
        (precedes result c'.output).toNat := by
    unfold transports precedes
    cases action.isPoll <;> cases result.isWriteToNetwork <;> cases c'.output.isPreHandshake <;>
      decide
  unfold held
  omega

theorem initiations_of_quiet (hquiet : result.isWriteToNetwork = false)
    (kind : OpReport.PacketKind) : initiations result kind = 0 :=
  initiations_eq_zero fun hwrites => absurd (hquiet.symm.trans hwrites) Bool.false_ne_true

theorem Moves.tally {n : Nat} (h : c.Moves action result c') (halone : action.Alone)
    (hspent : c.Spent) (hlimit : c.Limited) (hoff : c.timers.persistentKeepaliveOn = false)
    (htally : c.Tally n) : c'.Tally (n + initiations result c'.output) := by
  rcases h.alone halone hspent hoff with ⟨hlive, hserves⟩ | ⟨-, hended, hquiet, hcount⟩
  · exact hserves.tally htally halone hlive hlimit
  · rw [initiations_of_quiet hquiet]
    refine .spent hended ?_
    rw [hcount.limit]
    exact htally.le

theorem Moves.paired {bursts n : Nat} (h : c.Moves action result c') (halone : action.Alone)
    (hspent : c.Spent) (hoff : c.timers.persistentKeepaliveOn = false)
    (hpaired : c.Paired bursts n) :
    c'.Paired (bursts + (c.opensBurst c').toNat) (n + initiations result c'.output) := by
  rcases h.alone halone hspent hoff with ⟨hlive, hserves⟩ | ⟨hended, hended', hquiet, -⟩
  · exact hserves.paired hlive hpaired
  · rw [opensBurst_eq_false (.inr hended'.burst), initiations_of_quiet hquiet]
    refine .inr ⟨hended', ?_⟩
    rcases hpaired with hle | ⟨-, hle⟩
    · rw [hended.burst] at hle
      exact hle.trans (Nat.le_succ _)
    · exact hle

theorem Moves.cyclesLeft_add_le (h : c.Moves action result c') (halone : action.Alone)
    (hspent : c.Spent) (hlimit : c.Limited) (hoff : c.timers.persistentKeepaliveOn = false) :
    c'.cyclesLeft + (c.startsCycle c').toNat ≤ c.cyclesLeft := by
  rcases h.alone halone hspent hoff with ⟨hlive, hserves⟩ | ⟨-, hended, -, -⟩
  · exact hserves.cyclesLeft_add_le halone hlive hlimit
  · exact hended.cyclesLeft_add_le

/-- What a tunnel left alone can send. -/
theorem Moves.kind (h : c.Moves action result c') (halone : action.Alone)
    (hwrites : result.isWriteToNetwork = true) :
    c'.output.isPreHandshake = true ∨ c'.output = .transportKeepalive ∨
      action.isPoll = false ∧ c'.output = .transportData := by
  have hdriven {c₁ c' : Core P} {force : Bool} (hdrives : c₁.Drives force result c') :
      c'.output.isPreHandshake = true := by
    have hnone := hdrives.transports
    unfold transports at hnone
    rw [hwrites] at hnone
    simpa using hnone
  cases h with
  | drains h =>
    cases h with
    | driven _ _ hdrives => exact .inl (hdriven hdrives)
    | @sent _ head =>
      cases head with
      | nil => exact .inr (.inl rfl)
      | cons => exact .inr (.inr ⟨rfl, rfl⟩)
    | _ => cases hwrites
  | polls _ h =>
    cases h with
    | burst _ hdrives | retransmits _ _ _ hdrives | initiates _ _ _ hdrives =>
      exact .inl (hdriven hdrives)
    | keepalive _ _ _ _ _ _ hsubmits =>
      cases hsubmits with
      | sent => exact .inr (.inl rfl)
      | queued _ hdrives =>
        have hpre := hdriven hdrives
        exact .inl hpre
      | _ => cases hwrites
    | _ => cases hwrites
  | _ => exact halone.elim

end Core

/-- A poll, or a call that sends what is queued. -/
def Op.Idle : Op P → Prop
  | .updateTimers .. => True
  | .decapsulate _ datagram _ _ => datagram = []
  | _ => False

def Op.isPoll : Op P → Bool
  | .updateTimers .. => true
  | _ => false

namespace Tunn

variable {t : Tunn P}

theorem Visited.limited (h : t.Visited) : t.core.Limited :=
  h.core Core.Limited (fun _ _ _ _ _ _ _ =>
    (by decide : REKEY_ATTEMPT_TIME / REKEY_TIMEOUT - 1 < 2 ^ 32)) fun _ _ _ _ hmove => hmove.limited

theorem action_idle (t : Tunn P) (env : Env P) {op : Op P} (h : op.Idle) :
    (t.action env op).Alone ∧ (t.action env op).isPoll = op.isPoll := by
  cases op with
  | updateTimers dst budget => exact ⟨trivial, rfl⟩
  | decapsulate source datagram dst budget =>
    cases (h : datagram = [])
    exact ⟨trivial, rfl⟩
  | _ => exact h.elim

/-! ### Schedules -/

/-- What a call sends. -/
def outputOf (t : Tunn P) (env : Env P) (op : Op P) : Option OpReport.PacketKind :=
  if (t.run env op).1.isWriteToNetwork then some (t.after env op).opState.outputKind else none

variable (t) (calls : ℕ → Env P × Op P)

/-- The tunnel after the first calls of a schedule. -/
def scheduled : ℕ → Tunn P
  | 0 => t
  | k + 1 => (scheduled k).after (calls k).1 (calls k).2

/-- What a call of a schedule sends. -/
def sends (k : ℕ) : Option OpReport.PacketKind :=
  (t.scheduled calls k).outputOf (calls k).1 (calls k).2

/-- A call of a schedule sends a packet on a session. -/
def transportsAt (k : ℕ) : Bool := (t.sends calls k).any fun kind => !kind.isPreHandshake

/-- A poll of a schedule sends a keepalive. -/
def keepaliveAt (k : ℕ) : Bool := (calls k).2.isPoll && t.transportsAt calls k

/-- A call of a schedule sends what was queued. -/
def drainAt (k : ℕ) : Bool := !(calls k).2.isPoll && t.transportsAt calls k

def initiationAt (k : ℕ) : Bool := t.sends calls k = some .handshakeInitiation

/-- A call of a schedule starts a handshake cycle. -/
def cycleAt (k : ℕ) : Bool :=
  !(t.scheduled calls k).handshake.isInProgress &&
    (t.scheduled calls (k + 1)).handshake.isInProgress

/-- A call of a schedule prepares a burst. -/
def burstAt (k : ℕ) : Bool :=
  (t.scheduled calls k).pendingAmneziaJunk.isNone &&
    (t.scheduled calls (k + 1)).pendingAmneziaJunk.isSome

/-- The initiations of the first calls. -/
def initiationsBy (k : ℕ) : ℕ := Nat.count (t.initiationAt calls · = true) k

/-- The bursts of the first calls, with one that was pending before them. -/
def burstsBy (k : ℕ) : ℕ :=
  t.pendingAmneziaJunk.toList.length + Nat.count (t.burstAt calls · = true) k

section

variable {t calls} (hvisited : t.Visited) (hoff : t.timers.persistentKeepaliveOn = false)
  (hidle : ∀ k, (calls k).2.Idle)

theorem scheduled_moves (k : ℕ) :
    (t.scheduled calls k).core.Moves ((t.scheduled calls k).action (calls k).1 (calls k).2)
      ((t.scheduled calls k).run (calls k).1 (calls k).2).1 (t.scheduled calls (k + 1)).core :=
  core_after _ _ _

theorem transports_eq (env : Env P) (op : Op P) :
    Core.transports (t.run env op).1 (t.after env op).core.output =
      (t.outputOf env op).any fun kind => !kind.isPreHandshake := by
  unfold Core.transports outputOf
  split
  · next hwrites =>
    rw [hwrites]
    rfl
  · next hquiet =>
    rw [Bool.eq_false_iff.mpr hquiet]
    rfl

theorem initiations_eq (env : Env P) (op : Op P) :
    Core.initiations (t.run env op).1 (t.after env op).core.output =
      (decide (t.outputOf env op = some .handshakeInitiation)).toNat := by
  unfold Core.initiations outputOf
  cases hwrites : (t.run env op).1.isWriteToNetwork with
  | false => rfl
  | true =>
    by_cases hkind : (t.after env op).opState.outputKind = .handshakeInitiation
    · rw [if_pos ⟨rfl, hkind⟩, if_pos rfl, hkind]
      rfl
    · rw [if_neg fun h => hkind h.2, if_pos rfl]
      have hother : some (t.after env op).opState.outputKind ≠ some .handshakeInitiation :=
        fun h => hkind (Option.some.inj h)
      rw [decide_eq_false hother]
      rfl

variable (calls) in
include hvisited in
theorem scheduled_visited (k : ℕ) : (t.scheduled calls k).Visited := by
  induction k with
  | zero => exact hvisited
  | succ k ih => exact ih.after _ _

include hoff hidle in
theorem scheduled_off (k : ℕ) :
    (t.scheduled calls k).core.timers.persistentKeepaliveOn = false := by
  induction k with
  | zero => exact hoff
  | succ k ih =>
    exact ((scheduled_moves k).dwindles (action_idle _ _ (hidle k)).1 ih).persistentKeepaliveOn.trans ih

include hoff hidle

/-- At most one keepalive, the one that was armed. -/
theorem count_keepaliveAt_le (k : ℕ) : Nat.count (t.keepaliveAt calls · = true) k ≤ 1 := by
  refine (Potential.count_le (m := fun k => (t.scheduled calls k).core.keepalives) ?_ k).trans ?_
  · intro k
    obtain ⟨halone, hpoll⟩ := action_idle (t.scheduled calls k) (calls k).1 (hidle k)
    have hpays := (scheduled_moves k).keepalives_add_le halone (scheduled_off hoff hidle k)
    rw [hpoll] at hpays
    unfold keepaliveAt transportsAt sends
    rw [← transports_eq]
    exact hpays
  · exact Option.length_toList_le

theorem count_drainAt_le (k : ℕ) :
    Nat.count (t.drainAt calls · = true) k ≤ t.packetQueue.length := by
  refine (Potential.count_le (m := fun k => (t.scheduled calls k).core.deliverable) ?_ k).trans ?_
  · intro k
    obtain ⟨halone, hpoll⟩ := action_idle (t.scheduled calls k) (calls k).1 (hidle k)
    have hpays := (scheduled_moves k).deliverable_add_le halone (scheduled_off hoff hidle k)
    rw [hpoll] at hpays
    unfold drainAt transportsAt sends
    rw [← transports_eq]
    exact hpays
  · change t.core.deliverable ≤ t.core.queue.length
    unfold Core.deliverable
    split
    · exact Nat.le_refl _
    · exact Nat.zero_le _

include hvisited

theorem count_cycleAt_le (k : ℕ) :
    Nat.count (t.cycleAt calls · = true) k + t.handshake.isInProgress.toNat ≤ 1 := by
  have hcount : Nat.count (t.cycleAt calls · = true) k ≤ t.core.cyclesLeft := by
    refine Potential.count_le (m := fun k => (t.scheduled calls k).core.cyclesLeft) ?_ k
    intro k
    have hvisited := scheduled_visited calls hvisited k
    exact (scheduled_moves k).cyclesLeft_add_le (action_idle _ _ (hidle k)).1 hvisited.spent
      hvisited.limited (scheduled_off hoff hidle k)
  unfold Core.cyclesLeft at hcount
  rw [core_inProgress] at hcount
  cases hbusy : t.handshake.isInProgress with
  | true =>
    rw [hbusy] at hcount
    exact Nat.succ_le_succ hcount
  | false =>
    rw [hbusy] at hcount
    exact hcount.trans (Nat.min_le_left _ _)

theorem tally_initiationsBy (k : ℕ) :
    (t.scheduled calls k).core.Tally (t.initiationsBy calls k) := by
  unfold initiationsBy
  induction k with
  | zero =>
    rw [Nat.count_zero]
    exact .zero _
  | succ k ih =>
    have hvisited := scheduled_visited calls hvisited k
    rw [Potential.count_succ]
    unfold initiationAt sends at ih ⊢
    rw [← initiations_eq]
    exact (scheduled_moves k).tally (action_idle _ _ (hidle k)).1 hvisited.spent hvisited.limited
      (scheduled_off hoff hidle k) ih

theorem paired_burstsBy (k : ℕ) :
    (t.scheduled calls k).core.Paired (t.burstsBy calls k) (t.initiationsBy calls k) := by
  unfold burstsBy initiationsBy
  induction k with
  | zero => exact .inl (Nat.le_add_left _ _)
  | succ k ih =>
    have hvisited := scheduled_visited calls hvisited k
    rw [Potential.count_succ, Potential.count_succ, ← Nat.add_assoc]
    unfold initiationAt sends at ih ⊢
    rw [← initiations_eq]
    exact (scheduled_moves k).paired (action_idle _ _ (hidle k)).1 hvisited.spent
      (scheduled_off hoff hidle k) ih

theorem finite_sends : {k | (t.sends calls k).isSome = true}.Finite := by
  refine Potential.finite_of_count_le fun k =>
    Potential.count_le (m := fun k => (t.scheduled calls k).core.held) ?_ k
  intro k
  have hvisited := scheduled_visited calls hvisited k
  have hpays := (scheduled_moves k).held_add_le (action_idle _ _ (hidle k)).1 hvisited.spent
    hvisited.limited (scheduled_off hoff hidle k)
  have hwrites : (t.sends calls k).isSome =
      ((t.scheduled calls k).run (calls k).1 (calls k).2).1.isWriteToNetwork := by
    unfold sends outputOf
    split
    · next h => exact h.symm
    · next h => exact (Bool.eq_false_iff.mpr h).symm
  rw [hwrites]
  exact hpays

end

/-- **A tunnel left alone goes quiet.** With persistent keepalive off, whatever is polled and
drained, it sends finitely many datagrams: one keepalive, what was queued, and one handshake
cycle, with at most one burst for every initiation. -/
theorem goes_quiet (t : Tunn P) (hvisited : t.Visited)
    (hoff : t.timers.persistentKeepaliveOn = false) (calls : ℕ → Env P × Op P)
    (hidle : ∀ k, (calls k).2.Idle) :
    {k | (t.sends calls k).isSome = true}.Finite ∧ ∀ k,
      (∀ kind ∈ t.sends calls k, kind.isPreHandshake = true ∨ kind = .transportKeepalive ∨
        (calls k).2.isPoll = false ∧ kind = .transportData) ∧
      Nat.count (t.keepaliveAt calls · = true) k ≤ 1 ∧
      Nat.count (t.drainAt calls · = true) k ≤ t.packetQueue.length ∧
      Nat.count (t.cycleAt calls · = true) k + t.handshake.isInProgress.toNat ≤ 1 ∧
      t.initiationsBy calls k ≤ (t.scheduled calls k).timers.maxRetransmissionsCurrent + 1 ∧
      t.burstsBy calls k ≤ t.initiationsBy calls k + 1 ∧
      ((t.scheduled calls k).pendingAmneziaJunk = none →
        (t.scheduled calls k).handshake.isExpired = false →
        t.burstsBy calls k ≤ t.initiationsBy calls k) := by
  refine ⟨finite_sends hvisited hoff hidle, fun k => ?_⟩
  have hpaired := paired_burstsBy hvisited hoff hidle k
  refine ⟨?_, count_keepaliveAt_le hoff hidle k, count_drainAt_le hoff hidle k,
    count_cycleAt_le hvisited hoff hidle k, (tally_initiationsBy hvisited hoff hidle k).le, ?_, ?_⟩
  · intro kind hsent
    obtain ⟨halone, hpoll⟩ := action_idle (t.scheduled calls k) (calls k).1 (hidle k)
    unfold sends outputOf at hsent
    split at hsent
    · next hwrites =>
      cases hsent
      rw [← hpoll]
      exact (scheduled_moves k).kind halone hwrites
    · cases hsent
  · rcases hpaired with hle | ⟨-, hle⟩
    · exact hle.trans (Nat.add_le_add_left Option.length_toList_le _)
    · exact hle
  · intro hnone hlive
    rcases hpaired with hle | ⟨hended, -⟩
    · rw [show (t.scheduled calls k).core.burst = none from hnone] at hle
      exact hle
    · exact absurd (hlive.symm.trans hended.isExpired) Bool.false_ne_true

/-- A tunnel whose initiation waits for an answer, with a packet queued. -/
def byteWaiting : Tunn bytePrimitives :=
  byteHome.after (byteEnv 1 4) (.encapsulate [] byteBuffer .UNBOUNDED)

/-- It is polled every ten seconds. -/
def bytePolls (k : ℕ) : Env bytePrimitives × Op bytePrimitives :=
  (byteEnv (10 * (k + 1)) 4, .updateTimers byteBuffer .UNBOUNDED)

theorem goes_quiet_byteWaiting :
    byteWaiting.sends bytePolls 0 = some .handshakeInitiation ∧
      {k | (byteWaiting.sends bytePolls k).isSome = true}.Finite := by
  have hvisited : byteWaiting.Visited := Visited.after (Reachable.base (byteTunn_isNew 1 6 1)) _ _
  refine ⟨by decide +kernel, ?_⟩
  exact (goes_quiet byteWaiting hvisited (by decide +kernel) bytePolls fun _ => trivial).1

end Tunn

end BoringTun
