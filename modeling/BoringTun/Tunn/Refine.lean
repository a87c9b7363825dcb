import BoringTun.Lifecycle
import BoringTun.Tunn.Acts

/-!
The operations of a tunnel that accept no datagram, as runs of its `Life`.

Each way a call can go (`Tunn.Acts`) is some steps of the life; bytes, buffers, budgets and
generators are gone from then on.

* `Driving.drives`: a demand for an initiation;
* `Submitting.serves`, `Draining.serves`: writes and drains;
* `beginPoll_steps`, `updateTimers_serves`: a poll ages the ring, and then serves one demand.
-/

namespace BoringTun

namespace Timers

variable (timers : Timers) (cfg : AwgTimers) (rng : Rng)

theorem delivered_ticked (isEmpty : Bool) : timers.Ticked (timers.delivered cfg rng isEmpty) := by
  have hsent := timers.tick_ticked cfg rng .timeLastPacketSent
  unfold delivered
  cases isEmpty with
  | true => exact hsent
  | false => exact hsent.trans (tick_ticked _ _ _ .timeLastDataPacketSent)

theorem initiated_ticked (starting : Bool) : timers.Ticked (timers.initiated cfg rng starting) := by
  have harmed : timers.Ticked (timers.armed cfg rng starting).1 := by
    unfold armed
    cases starting with
    | false => exact .of_timers rfl rfl rfl
    | true =>
      dsimp only
      rw [if_pos rfl]
      refine .trans ?_ (tick_ticked _ _ _ .timeLastHandshakeStarted)
      exact .of_timers rfl rfl rfl
  exact harmed.trans (tick_ticked _ _ _ .timeLastPacketSent)

end Timers

namespace Tunn

open Life

variable {P : Primitives} (t : Tunn P)

/-- What decides which session the tunnel sends on. -/
def life : Life P where
  params := t.handshake.params
  state := t.handshake.state
  previous := t.handshake.previous
  ring := t.sessions
  current := t.current
  stamp := t.timers.sessionTimers
  clock := t.timers.timeCurrent
  queue := t.packetQueue
  burst := t.pendingAmneziaJunk.isSome

theorem life_hosts : t.life.Hosts t.handshake := ⟨rfl, rfl, rfl⟩

@[simp] theorem life_selected : t.life.selected = t.selected := rfl

/-! ### Small changes -/

@[simp] theorem life_noteRefusal (result : TunnResult) : (t.noteRefusal result).life = t.life := by
  unfold noteRefusal
  split <;> rfl

/-- New timers that only ticked are the same life. -/
theorem life_timers {timers : Timers} (h : t.timers.Ticked timers) :
    { t with timers := timers }.life = t.life := by
  unfold life
  dsimp only
  rw [h.current, h.session]

@[simp] theorem life_timerTick (name : TimerName) : (t.timerTick name).life = t.life :=
  life_timers (t.withRng _) (t.timers.tick_ticked _ _ _)

/-- Only whether a burst is pending counts. -/
theorem life_pending {pending : Option PendingAmneziaJunk} (h : pending.isSome = t.life.burst) :
    { t with pendingAmneziaJunk := pending }.life = t.life := by
  unfold life at h ⊢
  rw [h]

/-! ### What is left behind -/

/-- What a draw of padding leaves alone, and how much it draws. -/
structure Padded (t : Tunn P) (srcLen ceiling pad : Nat) (t' : Tunn P) : Prop where
  life : t'.life = t.life
  obf : t'.handshake.obf = t.handshake.obf
  amnezia : t'.amnezia = t.amnezia
  room : pad ≤ ceiling - Budget.transportFrame srcLen t.amnezia.transportJunkSize

theorem drawContentPadding_padded {srcLen ceiling pad : Nat} {t' : Tunn P}
    (h : t.drawContentPadding srcLen ceiling = (pad, t')) : t.Padded srcLen ceiling pad t' := by
  cases h
  exact ⟨rfl, rfl, rfl, AmneziaConfig.contentPaddingForFrame_le ..⟩

theorem life_delivering (session : Session P) (src : Bytes) (rng rng' : Rng) :
    (t.delivering session src rng rng').life = t.life.put (slotOf t.current) session.advanced := by
  unfold delivering
  exact life_timers { t.withRng rng' with
    sessions := Function.update t.sessions (slotOf t.current) (some session.advanced) }
    (t.timers.delivered_ticked _ _ _)

/-- The tunnel got from `t` to `t'` by itself, and unless `result` is an error a handshake
is on its way then. -/
def Drives (t : Tunn P) (result : TunnResult) (t' : Tunn P) : Prop :=
  Steps Step Label.Still t.life t'.life ∧ (result.isErr = false → t'.life.Underway)

variable {t}

theorem Drives.idle {result : TunnResult} {t' : Tunn P} (h : t'.life = t.life)
    (hunderway : t.life.Underway) : t.Drives result t' := by
  unfold Drives
  rw [h]
  exact ⟨.refl _, fun _ => hunderway⟩

/-- Nothing but an initiation of its own keeps a settled handshake busy. -/
theorem underway_of_isInProgress (hset : t.life.Settled) (h : t.handshake.isInProgress = true) :
    t.life.Underway := by
  have hstate := hset.1
  unfold Handshake.isInProgress at h
  cases hs : t.handshake.state with
  | none | expired => simp [hs] at h
  | initSent sent => exact .inr ⟨sent, hs⟩
  | initReceived hash chain ephemeral index => exact absurd hs (hstate _ _ _ _)

/-- Restarting an expired cycle is a tick of the clock, if anything. -/
theorem restarted_steps (owed : Bool) (now : Nat) :
    Steps Step Label.Still t.life { t with timers := t.restarted owed now }.life := by
  unfold restarted
  split
  · exact .single (.tick (t.timers.le_monotonicNow now)) trivial
  · exact .refl _

section

variable {t' : Tunn P} {env env' : Env P} {src dst wire : Bytes} {force owed : Bool}
  {budget : OutputBudget} {result : TunnResult}

theorem Initiates.life (h : t.Initiates dst budget owed wire t') :
    Steps Step Label.Still t.life t'.life ∧ ∃ sent, t'.life.state = .initSent sent := by
  cases h with
  | @mk now env rng =>
    have hinitiate : Step .initiate { t with timers := t.restarted owed now }.life
        (t.initiating owed now env rng).life := by
      have hlife := life_timers { t with
        handshake := { (t.handshake.initiated env).2 with rng := rng }
        timers := t.restarted owed now } ((t.restarted owed now).initiated_ticked t.amnezia.timers
          (t.handshake.initiated env).2.rng !t.handshake.isInProgress)
      have hstep : Step .initiate { t with timers := t.restarted owed now }.life
          { { t with timers := t.restarted owed now }.life with
            previous := t.handshake.state, state := .initSent (t.handshake.sentOf env) } :=
        .initiate (life_hosts _)
      rw [show (t.initiating owed now env rng).life = _ from hlife]
      exact hstep
    exact ⟨(restarted_steps owed now).tail hinitiate trivial, _, rfl⟩

theorem Emitting.life (h : t.Emitting dst budget wire t') :
    Steps Step Label.Still t.life t'.life ∧ t'.life.Underway := by
  have hadvance {pending : PendingAmneziaJunk} (hpending : t.pendingAmneziaJunk = some pending)
      (kind : OpReport.PacketKind) (owed : Bool) (now : Nat) (left : PendingAmneziaJunk) (rng : Rng) :
      Steps Step Label.Still t.life ((t.withRng rng).advancing kind owed now left).life := by
    have hlife := life_pending { t with timers := t.restarted owed now }
      (show (some left).isSome = _ from (congrArg Option.isSome hpending).symm)
    rw [show ((t.withRng rng).advancing kind owed now left).life = _ from hlife]
    exact restarted_steps owed now
  cases h with
  | imitation hpending => exact ⟨hadvance hpending _ _ _ _ t.handshake.rng, .inl rfl⟩
  | junk hpending => exact ⟨hadvance hpending _ _ _ _ _, .inl rfl⟩
  | deferred _ _ _ hinitiates =>
    obtain ⟨hsteps, sent, hsent⟩ := hinitiates.life
    exact ⟨hsteps.tail (.spend hsent) trivial, .inr ⟨sent, hsent⟩⟩
  | direct _ hinitiates =>
    obtain ⟨hsteps, hsent⟩ := hinitiates.life
    exact ⟨hsteps, .inr hsent⟩

theorem Readying.life (h : t.Readying force t') : Steps Step Label.Still t.life t'.life := by
  cases h with
  | pending | direct => exact .refl _
  | prepared => exact .single .prepare trivial

/-- A demand for an initiation. -/
theorem Driving.drives (hset : t.life.Settled) (h : t.Driving env dst force budget result t' env') :
    t.Drives result t' := by
  cases h with
  | busy _ hbusy => exact .idle rfl (underway_of_isInProgress hset hbusy)
  | paced hpending => exact .idle rfl (.inl (congrArg Option.isSome hpending))
  | refused hready => exact ⟨hready.life, nofun⟩
  | emitted hready hemits => exact ⟨hready.life.trans hemits.life.1, fun _ => hemits.life.2⟩

/-! ### Writes and drains -/

theorem Submitting.serves (hset : t.life.Settled)
    (h : t.Submitting env src dst budget result t' env') : Serves t.life t'.life := by
  cases h with
  | refused | full => exact .refl _
  | sent husable hselected =>
    obtain ⟨session, hselected', hnonce⟩ := hasCurrentSession_iff.mp husable
    cases hselected.symm.trans hselected'
    rw [life_delivering]
    exact .send (.refl _) (.send hselected hnonce)
  | failed _ _ hdrives => exact .still (hdrives.drives hset).1
  | queued _ _ hdrives hok =>
    -- the packet is queued only behind what was just started
    obtain ⟨hsteps, hunderway⟩ := hdrives.drives hset
    exact .still (hsteps.tail (.enqueue (hunderway hok)) trivial)

/-- A drain takes packets off the front of the queue, whatever becomes of them. -/
theorem Draining.serves (hset : t.life.Settled)
    (h : t.Draining env dst budget result t' env') : Serves t.life t'.life := by
  have hdrain (dropped : List Bytes) {queue : List Bytes} (husable : t.hasCurrentSession = true)
      (hqueue : t.packetQueue = dropped ++ queue) :
      Steps Step Label.Still t.life { t.noteDropped dropped with packetQueue := queue }.life := by
    obtain ⟨session, hselected, -⟩ := hasCurrentSession_iff.mp husable
    have hstep : Step .drain t.life
        { t.life with queue := t.packetQueue.drop dropped.length } :=
      .drain (congrArg Option.isSome hselected)
    rw [hqueue, List.drop_left] at hstep
    exact .single hstep trivial
  cases h with
  | empty => exact .refl _
  | driven _ _ hdrives => exact .still (hdrives.drives hset).1
  | dropped husable => exact .still (hdrain _ husable (List.append_nil _).symm)
  | refused husable hqueue => exact .still (hdrain _ husable hqueue)
  | @sent _ head dropped _ _ _ _ husable hqueue _ hselected =>
    obtain ⟨session, hselected', hnonce⟩ := hasCurrentSession_iff.mp husable
    cases hselected.symm.trans hselected'
    rw [life_delivering]
    refine .send (hdrain (dropped ++ [head]) husable (by simpa using hqueue)) ?_
    exact .send hselected hnonce

/-! ### A poll -/

theorem life_spendKeepalives (passive persistent : Bool) :
    (t.spendKeepalives passive persistent).life = t.life := by
  have hpassive : (if passive then { t with timers := { t.timers with wantKeepalive := none } }
      else t).life = t.life := by
    split <;> rfl
  unfold spendKeepalives
  dsimp only
  split
  · rw [life_timerTick]
    exact hpassive
  · exact hpassive

theorem life_spendLatch (latch : Option Nat) : (t.spendLatch latch).life = t.life := by
  cases latch <;> rfl

theorem life_forgetOldCookie (now : Nat) : (t.forgetOldCookie now).life = t.life := by
  unfold forgetOldCookie
  split <;> rfl

/-- Whatever a poll serves, it serves with steps of the tunnel's own. -/
theorem Polling.serves (hset : t.life.Settled) (h : t.Polling env dst budget result t' env') :
    Serves t.life t'.life := by
  cases h with
  | waits | expired | withholds => exact .refl _
  | burst _ hdrives => exact .still (hdrives.drives hset).1
  | @expires env₁ => exact .still (.single (.expire (t.timers.le_monotonicNow env₁.now)) trivial)
  | retransmits _ _ _ hdrives =>
    rw [life_noteRefusal]
    exact .still (hdrives.drives hset).1
  | @initiates latch _ _ _ _ _ _ hdrives =>
    rw [← life_spendLatch latch] at hset ⊢
    rw [life_noteRefusal]
    exact .still (hdrives.drives hset).1
  | @keepalive passive persistent _ _ _ _ _ _ _ _ _ hsubmits =>
    rw [← life_spendKeepalives passive persistent] at hset ⊢
    rw [life_noteRefusal]
    exact hsubmits.serves hset
  | owes _ _ _ hready =>
    rcases hready with rfl | hready
    · exact .refl _
    · exact .still hready.life

end

theorem updateTimers_serves (env : Env P) (hset : (t.beginPoll env).2.1.life.Settled) (dst : Bytes)
    (budget : OutputBudget) :
    Serves (t.beginPoll env).2.1.life (t.updateTimers env dst budget).2.1.life := by
  obtain ⟨t₁, hstart, hpolls⟩ := t.updateTimers_polling env dst budget
  have hlife : t₁.life = (t.beginPoll env).2.1.life := by
    rcases hstart with rfl | rfl
    · rfl
    · exact life_forgetOldCookie _
  rw [← hlife] at hset ⊢
  exact hpolls.serves hset

/-- The sessions that are too old when a poll begins. -/
def agedAt (t : Tunn P) (env : Env P) (slot : Fin N_SESSIONS) : Bool :=
  t.isAged (t.timers.monotonicNow env.now) slot

/-- A poll begins with a tick, and drops the sessions that are too old at it. -/
theorem beginPoll_steps (env : Env P) :
    ∃ ticked, Step .tick t.life ticked ∧ Step .age ticked (t.beginPoll env).2.1.life :=
  ⟨_, .tick (t.timers.le_monotonicNow env.now), .age (t.agedAt env)⟩

theorem beginPoll_selected (env : Env P) : (t.beginPoll env).2.1.selected =
    if t.agedAt env (slotOf t.current) then none else t.selected := rfl

end Tunn

end BoringTun
