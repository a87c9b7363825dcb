import BoringTun.Cycle
import BoringTun.Tunn.OneByte

/-!
Nothing a tunnel holds outlives its bounds.

A poll drops the sessions past their age before it serves anything, and what it serves stamps
none of those that stay (`Polls.young`). A cycle that no message of the peer ends is counted by
its initiations (`InCycle`); at its limit the poll after the last deadline gives it up
(`AtLimit.updateTimers`).
-/

namespace BoringTun

variable {P : Primitives}

namespace Timers

theorem initiated_sessionTimers (t : Timers) (cfg : AwgTimers) (rng : Rng) (starting : Bool) :
    (t.initiated cfg rng starting).sessionTimers = t.sessionTimers := by
  have harmed : (t.armed cfg rng starting).1.sessionTimers = t.sessionTimers := by
    unfold armed
    dsimp only
    split
    · rw [(tick_ticked _ _ _ _).session]
      rfl
    · rfl
  unfold initiated
  dsimp only
  rw [(tick_ticked _ _ _ _).session, harmed]

theorem delivered_sessionTimers (t : Timers) (cfg : AwgTimers) (rng : Rng) (isEmpty : Bool) :
    (t.delivered cfg rng isEmpty).sessionTimers = t.sessionTimers := by
  unfold delivered
  dsimp only
  split
  · exact (t.tick_ticked cfg rng _).session
  · rw [(tick_ticked _ _ _ _).session]
    exact (t.tick_ticked cfg rng _).session

end Timers

namespace Core

variable {c c₁ c' : Core P} {result : TunnResult}

/-! ### The age of the sessions -/

/-- No session is established, and the stamps of those there are stay. -/
structure Older (c c' : Core P) : Prop where
  ring : ∀ slot, (c'.ring slot).isSome = true → (c.ring slot).isSome = true
  stamps : c'.timers.sessionTimers = c.timers.sessionTimers

theorem Older.refl (c : Core P) : c.Older c := ⟨fun _ => id, rfl⟩

theorem Older.trans (h : c.Older c₁) (h' : c₁.Older c') : c.Older c' :=
  ⟨fun slot hheld => h.ring slot (h'.ring slot hheld), h'.stamps.trans h.stamps⟩

theorem restarted_sessionTimers (c : Core P) (owed : Bool) (now : Nat) :
    (c.restarted owed now).sessionTimers = c.timers.sessionTimers := by
  unfold restarted
  split <;> rfl

theorem initiate_sessionTimers (c : Core P) (owed : Bool) (now : Nat) (rng : Rng)
    (sent : HandshakeInitSentState P) :
    (c.initiate owed now rng sent).timers.sessionTimers = c.timers.sessionTimers :=
  (Timers.initiated_sessionTimers _ _ _ _).trans (c.restarted_sessionTimers owed now)

theorem deliver_older {session : Session P} (hselected : c.selected = some session) (rng : Rng)
    (isEmpty : Bool) : c.Older (c.deliver session rng isEmpty) where
  ring slot hheld := by
    by_cases hslot : slot = slotOf c.current
    · subst hslot
      have hold : c.ring (slotOf c.current) = some session := hselected
      rw [hold]
      rfl
    · change (Function.update c.ring (slotOf c.current) _ slot).isSome = true at hheld
      rw [Function.update_of_ne hslot] at hheld
      exact hheld
  stamps := c.timers.delivered_sessionTimers _ _ _

theorem Change.older (h : Change c c') : c.Older c' := by
  cases h with
  | readied h => cases h <;> exact ⟨fun _ => id, rfl⟩
  | emitted h =>
    refine ⟨fun slot hheld => h.still.ring ▸ hheld, ?_⟩
    cases h with
    | imitation | junk => exact c.restarted_sessionTimers _ _
    | @deferred _ _ _ _ sent | @direct _ _ _ sent => exact c.initiate_sessionTimers _ _ _ sent
  | delivered hselected => exact deliver_older hselected _ _
  | @disarmed passive persistent =>
    cases passive <;> cases persistent <;> exact ⟨fun _ => id, rfl⟩
  | expired => exact ⟨nofun, rfl⟩
  | _ => exact ⟨fun _ => id, rfl⟩

theorem Changes.older (h : c.Changes c') : c.Older c' := by
  induction h with
  | refl => exact .refl c
  | tail _ hlast ih => exact ih.trans hlast.older

/-- A poll leaves no session older than its keys may be. -/
theorem Polls.young {now : Nat} (h : (c.age now).Polls now result c') {slot : Fin N_SESSIONS}
    (hheld : (c'.ring slot).isSome = true) :
    now - c'.timers.sessionTimers slot ≤ c.amnezia.timers.keychainExpire := by
  have hkept := h.changes.older.ring slot hheld
  rw [h.changes.older.stamps]
  unfold age at hkept ⊢
  dsimp only at hkept ⊢
  split at hkept
  · cases hkept
  · next hyoung =>
    rw [if_neg hyoung]
    unfold isAged at hyoung
    simpa using hyoung

end Core

namespace Tunn

variable {t : Tunn P}

/-! ### Polls at the limit -/

theorem core_expire_ended (t : Tunn P) (env : Env P) : (t.expire env).1.core.Ended :=
  ⟨rfl, fun _ => rfl, rfl, rfl⟩

/-- What a poll at the limit decides on. -/
structure AtLimit (t : Tunn P) (timeInitSent : Nat) : Prop where
  burst : t.pendingAmneziaJunk = none
  timer : t.handshake.timer = some timeInitSent
  spent : t.timers.maxRetransmissionsCurrent ≤ t.timers.handshakeAttempts

variable {timeInitSent : Nat}

theorem AtLimit.of_calm {t' : Tunn P} (h : t.AtLimit timeInitSent) (hcalm : t.core.Calm t'.core) :
    t'.AtLimit timeInitSent where
  burst := hcalm.burst.trans h.burst
  timer := by
    have hstate : t'.handshake.state = t.handshake.state := hcalm.state
    unfold Handshake.timer
    rw [hstate]
    exact h.timer
  spent := by
    have hattempts : t'.timers.handshakeAttempts = t.timers.handshakeAttempts :=
      hcalm.count.attempts
    have hlimit : t'.timers.maxRetransmissionsCurrent = t.timers.maxRetransmissionsCurrent :=
      hcalm.count.limit
    rw [hattempts, hlimit]
    exact h.spent

theorem AtLimit.pollHandshake (h : t.AtLimit timeInitSent) (env : Env P) (dst : Bytes)
    (budget : OutputBudget) (hdue : t.timers.retransmitCurrent ≤ env.now - timeInitSent) :
    let out := t.pollHandshake env timeInitSent dst budget
    out.1 = .err .connectionExpired ∧ out.2.1.core.Ended := by
  unfold Tunn.pollHandshake
  dsimp only
  rw [if_neg (Nat.not_lt.mpr hdue), if_pos h.spent]
  exact ⟨rfl, t.core_expire_ended _⟩

theorem AtLimit.servePoll (h : t.AtLimit timeInitSent) (env : Env P) (now : Nat) (dst : Bytes)
    (rollback : KeepaliveRollback) (budget : OutputBudget)
    (hdue : t.timers.retransmitCurrent ≤ env.now - timeInitSent) :
    let out := t.servePoll env now dst rollback budget
    out.1 = .err .connectionExpired ∧ out.2.1.core.Ended := by
  have hlive : t.handshake.isExpired = false := by
    obtain ⟨sent, hstate⟩ := timer_eq_some h.timer
    unfold Handshake.isExpired
    rw [hstate]
  have howes : t.burstOwesExpiredReset = false := by
    unfold burstOwesExpiredReset
    rw [hlive, Bool.false_and]
  unfold Tunn.servePoll
  rw [howes, h.burst, hlive]
  dsimp only [Option.isSome_none]
  rw [if_neg Bool.false_ne_true, if_neg Bool.false_ne_true, if_neg Bool.false_ne_true]
  have hforget := t.core_forgetOldCookie now
  have hcalm : t.core.Calm (t.forgetOldCookie now).core := by
    rw [hforget]
    exact .refl _
  have hretransmit : (t.forgetOldCookie now).timers = t.timers := congrArg Core.timers hforget
  rw [← hretransmit] at hdue
  have hlimit := h.of_calm hcalm
  split
  · exact ⟨rfl, core_expire_ended _ _⟩
  · rw [hlimit.timer]
    exact hlimit.pollHandshake env dst budget hdue

/-- The poll that finds the last attempt unanswered gives up. -/
theorem AtLimit.updateTimers (h : t.AtLimit timeInitSent) (env : Env P) (dst : Bytes)
    (budget : OutputBudget)
    (hdue : t.timers.retransmitCurrent ≤ (t.beginPoll env).2.2.now - timeInitSent) :
    let out := t.updateTimers env dst budget
    out.1 = .err .connectionExpired ∧ out.2.1.core.Ended := by
  have hcore := t.core_beginPoll env
  have hcalm : t.core.Calm (t.beginPoll env).2.1.core := by
    rw [hcore]
    exact t.core.age_calm _
  have hretransmit : (t.beginPoll env).2.1.timers.retransmitCurrent = t.timers.retransmitCurrent :=
    congrArg (fun c => c.timers.retransmitCurrent) hcore
  rw [← hretransmit] at hdue
  exact (h.of_calm hcalm).servePoll _ _ _ _ _ hdue

/-! ### The cycles of a tunnel -/

/-- The initiations a call produces. -/
def initiations (t : Tunn P) (env : Env P) (op : Op P) : Nat :=
  Core.initiations (t.run env op).1 (t.after env op).opState.outputKind

/-- A call within a cycle: no configuration changes, no initiation is forced, and no message of
the peer is accepted. A cookie reply proves nothing about the peer. -/
def WithinCycle (t : Tunn P) (env : Env P) (op : Op P) : Prop :=
  match t.action env op with
  | .accept packet => packet.kind = .cookieReply
  | .demand force => force = false
  | .configure => False
  | _ => True

/-- A tunnel in a handshake cycle, which has produced some number of initiations. -/
inductive InCycle : Tunn P → Nat → Prop where
  | start {t : Tunn P} (hidle : t.handshake.isInProgress = false) (env : Env P) (op : Op P)
    (hstarted : (t.after env op).handshake.isInProgress = true) :
    InCycle (t.after env op) (t.initiations env op)
  | step {t : Tunn P} {n : Nat} (h : InCycle t n) (env : Env P) (op : Op P)
    (hwithin : t.WithinCycle env op) (hlive : (t.after env op).handshake.isExpired = false) :
    InCycle (t.after env op) (n + t.initiations env op)

theorem WithinCycle.keeps {env : Env P} {op : Op P} (h : t.WithinCycle env op) :
    (t.action env op).Keeps ∧ t.action env op ≠ .demand true := by
  unfold WithinCycle at h
  cases haction : t.action env op with
  | accept packet =>
    rw [haction] at h
    exact ⟨.inl h, nofun⟩
  | demand force =>
    rw [haction] at h
    cases h
    exact ⟨trivial, nofun⟩
  | configure =>
    rw [haction] at h
    exact h.elim
  | _ => exact ⟨trivial, nofun⟩

theorem InCycle.cycling {n : Nat} (h : t.InCycle n) : t.core.Cycling n := by
  induction h with
  | @start t hidle env op hstarted =>
    obtain ⟨hcount, hcycle⟩ := (t.core_after env op).starts hidle hstarted
    have hone : t.initiations env op = 1 := hcount
    rw [hone]
    exact hcycle
  | @step t n _ env op hwithin hlive ih =>
    obtain ⟨hkeeps, hunforced⟩ := hwithin.keeps
    exact ((t.core_after env op).serves hkeeps).cycling ih hunforced hlive

/-- No session outlives its keys beyond the next poll, and no cycle that the peer leaves
unanswered its attempts. -/
theorem bounded_lifetimes (P : Primitives) :
    (∀ (t : Tunn P) env dst budget slot,
      ((t.after env (.updateTimers dst budget)).sessions slot).isSome = true →
      t.timers.monotonicNow env.now -
          (t.after env (.updateTimers dst budget)).timers.sessionTimers slot ≤
        t.amnezia.timers.keychainExpire) ∧
    ∀ (t : Tunn P) n, t.InCycle n →
      n ≤ t.timers.maxRetransmissionsCurrent + 1 ∧
      ∃ timeInitSent, t.handshake.timer = some timeInitSent ∧
        (n = t.timers.maxRetransmissionsCurrent + 1 → ∀ env dst budget,
          t.timers.retransmitCurrent ≤ (t.beginPoll env).2.2.now - timeInitSent →
          (t.run env (.updateTimers dst budget)).1 = .err .connectionExpired ∧
          (t.after env (.updateTimers dst budget)).handshake.isExpired = true ∧
          (∀ slot, (t.after env (.updateTimers dst budget)).sessions slot = none) ∧
          (t.after env (.updateTimers dst budget)).packetQueue = [] ∧
          (t.after env (.updateTimers dst budget)).pendingAmneziaJunk = none) := by
  constructor
  · intro t env dst budget slot hheld
    exact (t.core_updateTimers env dst budget).young hheld
  · intro t n h
    have hcycle := h.cycling
    have hroom := hcycle.room
    have hcount := hcycle.count
    obtain ⟨sent, hstate⟩ := hcycle.sent
    have htimer : t.handshake.timer = some sent.timeSent := by
      unfold Handshake.timer
      rw [show t.handshake.state = .initSent sent from hstate]
    refine ⟨?_, sent.timeSent, htimer, ?_⟩
    · exact hcount ▸ Nat.succ_le_succ (Nat.le_trans (Nat.le_add_right _ _) hroom)
    · intro hn env dst budget hdue
      have hattempts : t.timers.maxRetransmissionsCurrent = t.timers.handshakeAttempts :=
        Nat.succ.inj (hn.symm.trans hcount)
      -- with every attempt spent the limit has no room for a burst
      have hburst : t.pendingAmneziaJunk = none := by
        cases hburst : t.pendingAmneziaJunk with
        | none => rfl
        | some pending =>
          rw [show t.core.burst = some pending from hburst] at hroom
          exact absurd (hattempts ▸ hroom) (Nat.not_succ_le_self _)
      obtain ⟨hresult, hended⟩ := AtLimit.updateTimers ⟨hburst, htimer, Nat.le_of_eq hattempts⟩
        env dst budget hdue
      refine ⟨hresult, ?_, hended.ring, hended.queue, hended.burst⟩
      change (t.updateTimers env dst budget).2.1.core.isExpired = true
      unfold Core.isExpired
      rw [hended.state]

/-- A tunnel that may retry once. -/
def byteSparing : Tunn bytePrimitives :=
  byteHome.after (byteEnv 0 0)
    (.setObfuscation .default { timers := { maxHandshakeAttempts := (0, 1) } })

/-- It has sent its initiation. -/
def byteTried : Tunn bytePrimitives :=
  byteSparing.after (byteEnv 1 4) (.encapsulate [] byteBuffer .UNBOUNDED)

/-- It has sent the retry. -/
def byteRetried : Tunn bytePrimitives :=
  byteTried.after (byteEnv 10 4) (.updateTimers byteBuffer .UNBOUNDED)

theorem bounded_lifetimes_byteRetried :
    byteRetried.timers.maxRetransmissionsCurrent = 1 ∧
      (byteRetried.run (byteEnv 20 4) (.updateTimers byteBuffer .UNBOUNDED)).1 =
        .err .connectionExpired ∧
      (byteRetried.after (byteEnv 20 4) (.updateTimers byteBuffer .UNBOUNDED)).packetQueue = [] := by
  have hstarted : byteTried.InCycle _ :=
    .start (t := byteSparing) (by decide +kernel) _ _ (by decide +kernel)
  have hcycle : byteRetried.InCycle _ := .step hstarted _ _ trivial (by decide +kernel)
  have hcount : byteSparing.initiations (byteEnv 1 4) (.encapsulate [] byteBuffer .UNBOUNDED) +
      byteTried.initiations (byteEnv 10 4) (.updateTimers byteBuffer .UNBOUNDED) = 2 := by
    decide +kernel
  rw [hcount] at hcycle
  obtain ⟨-, hcycles⟩ := bounded_lifetimes bytePrimitives
  obtain ⟨-, timeInitSent, htimer, hgives⟩ := hcycles byteRetried 2 hcycle
  have hsent : byteRetried.handshake.timer = some (secs 10) := by decide +kernel
  obtain rfl := Option.some.inj (htimer.symm.trans hsent)
  obtain ⟨hresult, -, -, hqueue, -⟩ := hgives (by decide +kernel) (byteEnv 20 4) byteBuffer
    .UNBOUNDED (by decide +kernel)
  exact ⟨by decide +kernel, hresult, hqueue⟩

end Tunn

end BoringTun
