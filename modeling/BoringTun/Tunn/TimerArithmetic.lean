import BoringTun.Tunn.Moves

/-!
The clock of a tunnel: no stamp and no armed latch is ever ahead of the last poll, and a poll
never takes it back.

A `Duration` subtraction that underflows panics, and aborts the process under the C entry
points. `updateTimersChecked` is the poll with every unchecked subtraction written out as one
that can fail; on a tunnel that was reached by calls none does, whatever the clock did.
-/

namespace BoringTun

/-! ### Timers -/

namespace Timers

/-- No stamp and no armed latch is ahead of the last poll. -/
structure Ordered (t : Timers) : Prop extends t.Behind where
  keepalive : ∀ armed ∈ t.wantKeepalive, armed ≤ t.timeCurrent
  handshake : ∀ armed ∈ t.wantHandshake, armed ≤ t.timeCurrent

/-- From `t` to `t'` the poll does not go back, and nothing gets ahead of it. -/
structure Follows (t t' : Timers) : Prop where
  current : t.timeCurrent ≤ t'.timeCurrent
  ordered : t.Ordered → t'.Ordered

namespace Follows

variable {t t' t'' : Timers}

theorem refl (t : Timers) : Follows t t := ⟨Nat.le_refl _, id⟩

theorem trans (h : Follows t t') (h' : Follows t' t'') : Follows t t'' :=
  ⟨h.current.trans h'.current, h'.ordered ∘ h.ordered⟩

/-- A latch that is armed by a tick is armed at the last poll. -/
theorem of_ticked (h : Ticked t t')
    (hkeepalive : ∀ armed ∈ t'.wantKeepalive, armed ∈ t.wantKeepalive ∨ armed = t.timeCurrent)
    (hhandshake : ∀ armed ∈ t'.wantHandshake, armed ∈ t.wantHandshake ∨ armed = t.timeCurrent) :
    Follows t t' where
  current := Nat.le_of_eq h.current.symm
  ordered hordered := {
    toBehind := h.behind hordered.toBehind
    keepalive armed hmem := by
      rw [h.current]
      rcases hkeepalive armed hmem with hold | hnew
      · exact hordered.keepalive armed hold
      · exact Nat.le_of_eq hnew
    handshake armed hmem := by
      rw [h.current]
      rcases hhandshake armed hmem with hold | hnew
      · exact hordered.handshake armed hold
      · exact Nat.le_of_eq hnew }

/-- The stamps and the latches stay, or a latch is dropped. -/
theorem of_dropped (h : Ticked t t') (hkeepalive : ∀ armed ∈ t'.wantKeepalive, armed ∈ t.wantKeepalive)
    (hhandshake : ∀ armed ∈ t'.wantHandshake, armed ∈ t.wantHandshake) : Follows t t' :=
  of_ticked h (fun armed hmem => .inl (hkeepalive armed hmem))
    fun armed hmem => .inl (hhandshake armed hmem)

end Follows

section

variable (t : Timers)

@[simp] theorem wantKeepalive_rearm :
    t.rearmPersistentKeepalive.wantKeepalive = t.wantKeepalive := by
  unfold rearmPersistentKeepalive
  dsimp only
  split <;> rfl

@[simp] theorem wantHandshake_rearm :
    t.rearmPersistentKeepalive.wantHandshake = t.wantHandshake := by
  unfold rearmPersistentKeepalive
  dsimp only
  split <;> rfl

theorem wantKeepalive_tick (cfg : AwgTimers) (rng : Rng) (name : TimerName) :
    ∀ armed ∈ (t.tick cfg rng name).1.wantKeepalive,
      armed ∈ t.wantKeepalive ∨ armed = t.timeCurrent := by
  intro armed hmem
  cases name with
  | timeLastPacketReceived =>
    left
    simpa [tick, traversal, set] using hmem
  | timeLastPacketSent => simp [tick, traversal, set] at hmem
  | timeLastDataPacketReceived =>
    unfold tick at hmem
    dsimp only at hmem
    split at hmem
    · exact .inr (Option.some.inj hmem).symm
    · exact .inl hmem
  | timeLastDataPacketSent =>
    unfold tick at hmem
    dsimp only at hmem
    split at hmem
    · exact .inl hmem
    · exact .inl hmem
  | _ => exact .inl hmem

theorem wantHandshake_tick (cfg : AwgTimers) (rng : Rng) (name : TimerName) :
    ∀ armed ∈ (t.tick cfg rng name).1.wantHandshake,
      armed ∈ t.wantHandshake ∨ armed = t.timeCurrent := by
  intro armed hmem
  cases name with
  | timeLastPacketReceived => simp [tick, traversal, set] at hmem
  | timeLastPacketSent =>
    left
    simpa [tick, traversal, set] using hmem
  | timeLastDataPacketReceived =>
    unfold tick at hmem
    dsimp only at hmem
    split at hmem
    · exact .inl hmem
    · exact .inl hmem
  | timeLastDataPacketSent =>
    unfold tick at hmem
    dsimp only at hmem
    split at hmem
    · exact .inr (Option.some.inj hmem).symm
    · exact .inl hmem
  | _ => exact .inl hmem

theorem tick_follows (cfg : AwgTimers) (rng : Rng) (name : TimerName) :
    Follows t (t.tick cfg rng name).1 :=
  .of_ticked (t.tick_ticked cfg rng name) (t.wantKeepalive_tick cfg rng name)
    (t.wantHandshake_tick cfg rng name)

theorem clear_follows (time : Nat) : Follows t (t.clear time) where
  current := t.le_monotonicNow time
  ordered hordered := {
    timers := fun _ => Nat.le_refl _
    session := fun slot => (hordered.session slot).trans (t.le_monotonicNow time)
    keepalive := nofun
    handshake := nofun }

theorem sessionEstablished_follows (cfg : AwgTimers) (rng : Rng) (isInitiator : Bool)
    (slot : Fin N_SESSIONS) : Follows t (t.sessionEstablished cfg rng isInitiator slot).1 := by
  have htick := t.tick_follows cfg rng .timeSessionEstablished
  unfold sessionEstablished
  generalize t.tick cfg rng .timeSessionEstablished = out at htick
  refine htick.trans ⟨Nat.le_refl _, fun hordered => ?_⟩
  exact {
    timers := hordered.timers
    session := by
      intro other
      dsimp only
      rw [Function.update_apply]
      split
      · exact Nat.le_refl _
      · exact hordered.session other
    keepalive := hordered.keepalive
    handshake := hordered.handshake }

theorem redrawTunable_follows (cfg : AwgTimers) (rng : Rng) :
    Follows t (t.redrawTunable cfg rng).1 :=
  .of_dropped (t.redrawTunable_ticked cfg rng) (fun _ => id) fun _ => id

theorem setPersistentKeepaliveRange_follows (range : Nat × Nat) :
    Follows t (t.setPersistentKeepaliveRange range) := by
  refine .of_dropped (t.setPersistentKeepaliveRange_ticked range) ?_ ?_
  · unfold setPersistentKeepaliveRange
    split
    · exact fun _ => id
    · rw [wantKeepalive_rearm]
      split
      · exact fun _ => id
      · split <;> exact fun _ => id
  · unfold setPersistentKeepaliveRange
    split
    · exact fun _ => id
    · rw [wantHandshake_rearm]
      split
      · exact fun _ => id
      · split <;> exact fun _ => id

theorem armed_follows (cfg : AwgTimers) (rng : Rng) (starting : Bool) :
    Follows t (t.armed cfg rng starting).1 := by
  have harmed (retransmit limit attempts : Nat) (jitterRng : Rng) : Follows t
      { t with
        jitterRng := jitterRng, retransmitCurrent := retransmit, handshakeAttempts := attempts
        maxRetransmissionsCurrent := limit } :=
    .of_dropped (.of_timers rfl rfl rfl) (fun _ => id) fun _ => id
  unfold armed
  dsimp only
  split
  · exact (harmed _ _ _ _).trans (tick_follows _ _ _ _)
  · exact harmed _ _ _ _

theorem initiated_follows (cfg : AwgTimers) (rng : Rng) (starting : Bool) :
    Follows t (t.initiated cfg rng starting) :=
  (t.armed_follows cfg rng starting).trans (tick_follows _ _ _ _)

theorem delivered_follows (cfg : AwgTimers) (rng : Rng) (isEmpty : Bool) :
    Follows t (t.delivered cfg rng isEmpty) := by
  have hsent := t.tick_follows cfg rng .timeLastPacketSent
  cases isEmpty with
  | true => exact hsent
  | false => exact hsent.trans (tick_follows _ _ _ _)

theorem answered_follows (cfg : AwgTimers) (r₁ r₂ r₃ : Rng) (slot : Fin N_SESSIONS) :
    Follows t (t.answered cfg r₁ r₂ r₃ slot) :=
  ((t.tick_follows cfg r₁ .timeLastPacketReceived).trans (tick_follows _ _ _ _)).trans
    (sessionEstablished_follows _ _ _ _ _)

theorem completed_follows (cfg : AwgTimers) (r₁ r₂ : Rng) (slot : Fin N_SESSIONS) :
    Follows t (t.completed cfg r₁ r₂ slot) :=
  (t.tick_follows cfg r₁ .timeLastPacketReceived).trans (sessionEstablished_follows _ _ _ _ _)

theorem received_follows (cfg : AwgTimers) (r₁ r₂ : Rng) (isData : Bool) :
    Follows t (t.received cfg r₁ r₂ isData) := by
  have hreceived := t.tick_follows cfg r₁ .timeLastPacketReceived
  cases isData with
  | false => exact hreceived
  | true => exact hreceived.trans (tick_follows _ _ _ _)

end

end Timers

/-! ### The core -/

namespace Core

variable {P : Primitives} {c c' : Core P} {result : TunnResult} {wire : Bytes}

theorem restarted_follows (owed : Bool) (now : Nat) : c.timers.Follows (c.restarted owed now) := by
  unfold restarted
  split
  · exact c.timers.clear_follows now
  · exact .refl _

theorem initiate_follows (owed : Bool) (now : Nat) (rng : Rng) (starting : Bool) :
    c.timers.Follows ((c.restarted owed now).initiated c.amnezia.timers rng starting) :=
  (restarted_follows owed now).trans (Timers.initiated_follows _ _ _ _)

theorem Emits.follows (h : c.Emits wire c') : c.timers.Follows c'.timers := by
  cases h with
  | imitation | junk => exact restarted_follows _ _
  | deferred | direct => exact initiate_follows _ _ _ _

theorem age_timeCurrent (c : Core P) (now : Nat) : (c.age now).timers.timeCurrent = now := by
  change (c.timers.set .timeCurrent now).timers .timeCurrent = now
  rw [Timers.set_timers, if_pos rfl]

theorem age_follows {now : Nat} (hnow : c.timers.timeCurrent ≤ now) :
    c.timers.Follows (c.age now).timers := by
  have hcurrent := c.age_timeCurrent now
  refine ⟨hcurrent ▸ hnow, fun hordered => ?_⟩
  exact {
    timers := by
      intro name
      rw [hcurrent]
      change (c.timers.set .timeCurrent now).timers name ≤ now
      rw [Timers.set_timers]
      split
      · exact Nat.le_refl _
      · exact (hordered.timers name).trans hnow
    session := by
      intro slot
      rw [hcurrent]
      unfold age
      dsimp only
      split
      · exact Nat.le_refl _
      · exact (hordered.session slot).trans hnow
    keepalive := fun armed hmem => hcurrent ▸ (hordered.keepalive armed hmem).trans hnow
    handshake := fun armed hmem => hcurrent ▸ (hordered.handshake armed hmem).trans hnow }

theorem spendKeepalives_follows (passive persistent : Bool) :
    c.timers.Follows (c.spendKeepalives passive persistent).timers := by
  have hspent : c.timers.Follows
      (if passive then { c.timers with wantKeepalive := none } else c.timers) := by
    split
    · exact .of_dropped (.of_timers rfl rfl rfl) nofun fun _ => id
    · exact .refl _
  refine hspent.trans ?_
  unfold spendKeepalives
  dsimp only
  generalize hspends : (if passive then { c.timers with wantKeepalive := none } else c.timers) =
    spent
  have hcurrent : c.timers.timeCurrent = spent.timeCurrent := by
    rw [← hspends]
    split <;> rfl
  rw [hcurrent]
  cases persistent with
  | false => exact .refl _
  | true =>
    have hticked : Timers.Ticked spent { spent with persistentKeepaliveDue := false } :=
      .of_timers rfl rfl rfl
    exact .of_dropped (hticked.trans (Timers.set_ticked _ .timePersistentKeepalive)) (fun _ => id)
      fun _ => id

theorem Change.follows (h : Change c c') : c.timers.Follows c'.timers := by
  cases h with
  | readied h =>
    rw [h.timers_eq]
    exact .refl _
  | emitted h => exact h.follows
  | delivered => exact Timers.delivered_follows _ _ _ _
  | requeued => exact .refl _
  | unlatched => exact .of_dropped (.of_timers rfl rfl rfl) (fun _ => id) nofun
  | disarmed => exact spendKeepalives_follows _ _
  | expired => exact c.timers.clear_follows _

theorem Changes.follows (h : c.Changes c') : c.timers.Follows c'.timers := by
  induction h with
  | refl => exact .refl _
  | tail _ hlast ih => exact ih.trans hlast.follows

theorem Accepts.follows {packet : Authenticated P} (h : c.Accepts packet result c') :
    c.timers.Follows c'.timers := by
  cases h with
  | answered => exact Timers.answered_follows _ _ _ _ _ _
  | completed htimers =>
    subst htimers
    dsimp only
    exact (Timers.completed_follows _ _ _ _ _).trans (Timers.tick_follows _ _ _ _)
  | cookie =>
    dsimp only
    exact Timers.tick_follows _ _ _ _
  | data => exact Timers.received_follows _ _ _ _ _

/-- No call takes the poll back or lets a stamp ahead of it. -/
theorem Moves.follows {action : Action P} (h : c.Moves action result c') :
    c.timers.Follows c'.timers := by
  cases h with
  | submits h | drains h | demands h => exact h.changes.follows
  | polls hnow h => exact (age_follows hnow).trans h.changes.follows
  | accepts h => exact h.follows
  | ignores | declines => exact .refl _
  | reconfigures htimers =>
    rcases htimers with rfl | rfl
    · exact .refl _
    · exact Timers.redrawTunable_follows _ _ _
  | keeps => exact Timers.setPersistentKeepaliveRange_follows _ _
  | rekeys => exact .of_dropped (.of_timers rfl rfl rfl) (fun _ => id) fun _ => id

end Core

/-! ### A poll whose subtractions can fail -/

/-- `Duration` subtraction; `none` is the panic on underflow. -/
def durationSub (later earlier : Nat) : Option Nat :=
  if earlier ≤ later then some (later - earlier) else none

theorem durationSub_eq {later earlier : Nat} (h : earlier ≤ later) :
    durationSub later earlier = some (later - earlier) := if_pos h

namespace Tunn

variable {P : Primitives}

section

variable (t : Tunn P) (env : Env P) (now : Nat) (dst : Bytes) (rollback : KeepaliveRollback)
  (budget : OutputBudget)

def pastAbsoluteBoundsChecked : Option Bool := do
  let age ← durationSub now (t.timers.timers .timeSessionEstablished)
  if age ≥ t.amnezia.timers.keychainExpire * 3 then return true
  else if t.handshake.timer.isNone then return false
  -- the other bound saturates
  else return t.amnezia.timers.maxHandshakeAttempts = (0, 0) &&
    t.amnezia.timers.rekeyTimeout = (0, 0) &&
    now - t.timers.timers .timeLastHandshakeStarted ≥ untunedAttemptWindow

def forgetOldCookieChecked : Option (Tunn P) :=
  if t.handshake.hasCookie then do
    let age ← durationSub now (t.timers.timers .timeCookieReceived)
    return if age ≥ COOKIE_EXPIRATION_TIME then { t with handshake := t.handshake.clearCookie }
      else t
  else some t

/-- One of the two ages a key is refreshed at, checked only if there was traffic since. -/
def refreshDueChecked (traffic : TimerName) (deadline : Nat) : Option Bool :=
  let established := t.timers.timers .timeSessionEstablished
  if established < t.timers.timers traffic then do
    let age ← durationSub now established
    return age ≥ deadline
  else some false

def rekeyDueChecked : Option Bool :=
  if t.timers.isInitiator then do
    let sending ← t.refreshDueChecked now .timeLastDataPacketSent t.timers.rekeyAfterCurrent
    let receiving ← t.refreshDueChecked now .timeLastDataPacketReceived
      t.timers.refreshReceiveCurrent
    return sending || receiving
  else some false

def pollIdleChecked : Option (TunnResult × Tunn P × Env P) := do
  let rekey ← t.rekeyDueChecked now
  let latch := t.timers.wantHandshake.filter fun armed => now - armed ≥ t.timers.newHandshakeCurrent
  let t := t.spendLatch latch
  if rekey || latch.isSome then return t.sendInitiation env dst latch budget
  else return t.pollKeepalives env now dst rollback budget

def servePollChecked : Option (TunnResult × Tunn P × Env P) :=
  if t.burstOwesExpiredReset then some (t.advanceAmneziaJunk env dst budget)
  else if t.pendingAmneziaJunk.isSome then do
    if ← t.pastAbsoluteBoundsChecked now then
      let (t, env) := t.expire env
      return (.err .connectionExpired, t, env)
    else return t.advanceAmneziaJunk env dst budget
  else if t.handshake.isExpired then
    if !t.timers.persistentKeepaliveOn || !t.timers.persistentKeepaliveDue then
      some (.err .connectionExpired, t, env)
    else some ((t.spendKeepalives false true).sendKeepalive env dst rollback budget)
  else do
    let t ← t.forgetOldCookieChecked now
    if ← t.pastAbsoluteBoundsChecked now then
      let (t, env) := t.expire env
      return (.err .connectionExpired, t, env)
    else
      match t.handshake.timer with
      | some timeInitSent => return t.pollHandshake env timeInitSent dst budget
      | none => t.pollIdleChecked env now dst rollback budget

/-- `update_timers`, or `none` where a subtraction of it underflows. -/
def updateTimersChecked : Option (TunnResult × Tunn P × Env P) :=
  let rollback := t.keepaliveRollback
  let (now, t, env) := t.beginPoll env
  t.servePollChecked env now dst rollback budget

end

section

variable {t : Tunn P} {now : Nat} (env : Env P) (dst : Bytes) (rollback : KeepaliveRollback)
  (budget : OutputBudget)

theorem pastAbsoluteBoundsChecked_eq (h : ∀ name, t.timers.timers name ≤ now) :
    t.pastAbsoluteBoundsChecked now = some (t.pastAbsoluteBounds now) := by
  unfold pastAbsoluteBoundsChecked pastAbsoluteBounds
  rw [durationSub_eq (h _), Option.bind_eq_bind, Option.bind_some]
  split
  · next hold => simp [hold]
  · next hold =>
    split
    · next htimer => simp [hold, Option.isNone_iff_eq_none.mp htimer]
    · next htimer =>
      have hsome : t.handshake.timer.isSome = true :=
        Option.isSome_iff_ne_none.mpr fun hnone => htimer (Option.isNone_iff_eq_none.mpr hnone)
      simp [hold, hsome]

theorem forgetOldCookieChecked_eq (h : ∀ name, t.timers.timers name ≤ now) :
    t.forgetOldCookieChecked now = some (t.forgetOldCookie now) := by
  unfold forgetOldCookieChecked forgetOldCookie
  cases t.handshake.hasCookie with
  | false => rfl
  | true =>
    rw [if_pos rfl, durationSub_eq (h _), Option.bind_eq_bind, Option.bind_some]
    simp only [Bool.true_and, decide_eq_true_eq]
    rfl

theorem refreshDueChecked_eq (h : ∀ name, t.timers.timers name ≤ now) (traffic : TimerName)
    (deadline : Nat) : t.refreshDueChecked now traffic deadline = some
      (t.timers.timers .timeSessionEstablished < t.timers.timers traffic &&
        now - t.timers.timers .timeSessionEstablished ≥ deadline) := by
  unfold refreshDueChecked
  dsimp only
  split
  · next htraffic =>
    rw [durationSub_eq (h _), Option.bind_eq_bind, Option.bind_some]
    simp [htraffic]
  · next htraffic => simp [htraffic]

theorem rekeyDueChecked_eq (h : ∀ name, t.timers.timers name ≤ now) :
    t.rekeyDueChecked now = some (t.rekeyDue now) := by
  unfold rekeyDueChecked rekeyDue
  rw [refreshDueChecked_eq h, refreshDueChecked_eq h]
  cases t.timers.isInitiator with
  | false => rfl
  | true => rfl

theorem pollIdleChecked_eq (h : ∀ name, t.timers.timers name ≤ now) :
    t.pollIdleChecked env now dst rollback budget =
      some (t.pollIdle env now dst rollback budget) := by
  unfold pollIdleChecked pollIdle
  rw [rekeyDueChecked_eq h, Option.bind_eq_bind, Option.bind_some]
  dsimp only
  split <;> rfl

theorem servePollChecked_eq (h : ∀ name, t.timers.timers name ≤ now) :
    t.servePollChecked env now dst rollback budget =
      some (t.servePoll env now dst rollback budget) := by
  have htimers : (t.forgetOldCookie now).timers = t.timers := by
    unfold forgetOldCookie
    split <;> rfl
  have h' : ∀ name, (t.forgetOldCookie now).timers.timers name ≤ now := by
    rw [htimers]
    exact h
  unfold servePollChecked servePoll
  split
  · rfl
  split
  · rw [pastAbsoluteBoundsChecked_eq h, Option.bind_eq_bind, Option.bind_some]
    split <;> rfl
  split
  · split <;> rfl
  · rw [forgetOldCookieChecked_eq h, Option.bind_eq_bind, Option.bind_some]
    dsimp only
    rw [pastAbsoluteBoundsChecked_eq h', Option.bind_eq_bind, Option.bind_some]
    split
    · rfl
    · cases (t.forgetOldCookie now).handshake.timer with
      | some timeInitSent => rfl
      | none => exact pollIdleChecked_eq env dst rollback budget h'

/-- A poll reads its time before it subtracts anything from it. -/
theorem updateTimersChecked_eq (hordered : t.timers.Ordered) :
    t.updateTimersChecked env dst budget = some (t.updateTimers env dst budget) := by
  have haged : (t.beginPoll env).2.1.timers.Ordered := by
    have hage := Core.age_follows (c := t.core) (t.timers.le_monotonicNow env.now)
    rw [← core_beginPoll] at hage
    exact hage.ordered hordered
  have hcurrent : (t.beginPoll env).2.1.timers.timeCurrent = (t.beginPoll env).1 :=
    (congrArg (fun c : Core P => c.timers.timeCurrent) (t.core_beginPoll env)).trans
      (Core.age_timeCurrent _ _)
  have hbehind : ∀ name, (t.beginPoll env).2.1.timers.timers name ≤ (t.beginPoll env).1 := by
    intro name
    rw [← hcurrent]
    exact haged.timers name
  exact servePollChecked_eq _ _ _ _ hbehind

end

/-! ### Every tunnel -/

theorem Visited.ordered {t : Tunn P} (h : t.Visited) : t.timers.Ordered := by
  refine h.core (fun c => c.timers.Ordered) ?_ fun c action result c' hmove => hmove.follows.ordered
  intro index persistentKeepalive resetRr timeStarted jitterRng obf amnezia
  exact {
    toBehind := Timers.new_behind persistentKeepalive resetRr timeStarted jitterRng
    keepalive := nofun
    handshake := nofun }

/-- Whatever calls were made and whatever the clock did, no stamp and no latch is ahead of the
last poll, no call takes the poll back, and no subtraction of the next one underflows. -/
theorem timers_never_underflow (t : Tunn P) (h : t.Visited) :
    t.timers.Ordered ∧
      (∀ env op, t.timers.timeCurrent ≤ (t.after env op).timers.timeCurrent) ∧
      ∀ env dst budget,
        t.updateTimersChecked env dst budget = some (t.updateTimers env dst budget) := by
  refine ⟨h.ordered, ?_, ?_⟩
  · intro env op
    exact (t.core_after env op).follows.current
  · intro env dst budget
    exact updateTimersChecked_eq env dst budget h.ordered

/-- A tunnel polled ten seconds after its start. -/
def bytePolled : Tunn bytePrimitives :=
  byteHome.after (byteEnv 10 0) (.updateTimers byteBuffer .UNBOUNDED)

/-- The clock steps back by five seconds before the next poll. -/
theorem timers_never_underflow_bytePolled :
    bytePolled.timers.timeCurrent = secs 10 ∧ bytePolled.timers.Ordered ∧
      bytePolled.timers.timeCurrent ≤ (bytePolled.after (byteEnv 5 0)
        (.updateTimers byteBuffer .UNBOUNDED)).timers.timeCurrent ∧
      bytePolled.updateTimersChecked (byteEnv 5 0) byteBuffer .UNBOUNDED =
        some (bytePolled.updateTimers (byteEnv 5 0) byteBuffer .UNBOUNDED) := by
  have hnew : byteHome.Visited := Reachable.base (byteTunn_isNew 1 6 1)
  obtain ⟨hordered, hmonotone, hchecked⟩ := timers_never_underflow bytePolled (hnew.after _ _)
  exact ⟨by decide +kernel, hordered, hmonotone _ _, hchecked _ _ _⟩

end Tunn

end BoringTun
