import BoringTun.Tunn.Acts

/-!
The calls of a tunnel that accept no datagram, as what they do to its `Core`: each way a call
can go (`Tunn.Acts`) is the same way of the core.

* `core_formatHandshakeInitiation`: a demand for an initiation;
* `core_encapsulate`, `core_sendQueuedPacket`: writes and drains;
* `core_beginPoll`, `core_updateTimers`: a poll.
-/

namespace BoringTun

open AmneziaConfig

namespace Tunn

variable {P : Primitives} (t : Tunn P)

/-- What decides what the tunnel sends next. -/
def core : Core P where
  index := t.handshake.nextIndex
  state := t.handshake.state
  previous := t.handshake.previous
  ring := t.sessions
  current := t.current
  queue := t.packetQueue
  timers := t.timers
  obf := t.handshake.obf
  amnezia := t.amnezia
  learned := t.autoImitation.learned
  burst := t.pendingAmneziaJunk
  serial := t.opState.slotSerial
  nextSerial := t.opState.nextSessionSerial
  output := t.opState.outputKind
  changed := t.opState.events .currentSessionChanged

theorem core_inProgress : t.core.inProgress = t.handshake.isInProgress := rfl

theorem core_isExpired : t.core.isExpired = t.handshake.isExpired := rfl

/-! ### Small changes -/

/-- No producer notes a change of the selected session. -/
theorem core_note (event : OpReport.Event) (h : event ≠ .currentSessionChanged) :
    (t.note event).core = t.core := by
  have hsame : (t.note event).opState.events .currentSessionChanged =
      t.opState.events .currentSessionChanged := Function.update_of_ne h.symm _ _
  unfold core
  rw [hsame]
  rfl

@[simp] theorem core_noteRefusal (result : TunnResult) : (t.noteRefusal result).core = t.core := by
  unfold noteRefusal
  split
  · exact t.core_note .tickDemandRefused nofun
  · rfl

theorem core_noteDropped (dropped : List Bytes) : (t.noteDropped dropped).core = t.core := by
  cases dropped with
  | nil => rfl
  | cons head dropped => exact t.core_note .queueHeadDropped nofun

theorem core_spendKeepalives (passive persistent : Bool) :
    (t.spendKeepalives passive persistent).core = t.core.spendKeepalives passive persistent := by
  cases passive <;> cases persistent <;> rfl

theorem core_spendLatch (latch : Option Nat) : (t.spendLatch latch).core =
    if latch.isSome then t.core.spendLatch else t.core := by
  cases latch <;> rfl

theorem core_forgetOldCookie (now : Nat) : (t.forgetOldCookie now).core = t.core := by
  unfold forgetOldCookie
  split <;> rfl

/-! ### Demands -/

section

variable {t} {t' : Tunn P} {env env' : Env P} {src dst wire : Bytes} {force owed : Bool}
  {budget : OutputBudget} {result : TunnResult}

theorem Initiates.core (h : t.Initiates dst budget owed wire t') : ∃ now rng sent,
    t.core.Frames .handshakeInit wire ∧ t'.core = t.core.initiate owed now rng sent := by
  cases h with
  | mk _ hframed =>
    exact ⟨_, _, _, ⟨_, hframed.canonical, hframed.frame⟩, rfl⟩

theorem Emitting.core (h : t.Emitting dst budget wire t') : t.core.Emits wire t'.core := by
  cases h with
  | imitation hpending hnext => exact .imitation hpending hnext
  | junk hpending hdone hleft hrange hfill =>
    exact .junk hpending hdone hleft ⟨_, _, _, _, hrange, congrArg Prod.fst hfill⟩
  | @deferred _ _ t₁ hpending hdone hzero hinitiates =>
    obtain ⟨now, rng, sent, hframes, hcore⟩ := hinitiates.core
    have hemits : t.core.Emits wire { t₁.core with burst := none } := by
      rw [hcore]
      exact .deferred hpending hdone hzero hframes
    exact hemits
  | direct hnone hinitiates =>
    obtain ⟨now, rng, sent, hframes, hcore⟩ := hinitiates.core
    rw [hcore]
    exact .direct hnone hframes

theorem Readying.core (h : t.Readying force t') : t.core.Readies force t'.core := by
  cases h with
  | pending hpending => exact .pending hpending
  | prepared hnone hstart hemits hopens => exact .prepared hnone hstart hemits hopens
  | direct hnone hstart hplain => exact .direct hnone hstart hplain

theorem Driving.core (h : t.Driving env dst force budget result t' env') :
    t.core.Drives force result t'.core := by
  cases h with
  | busy hnone hbusy hforce => exact .busy hnone hbusy hforce
  | paced hpending hlast => exact .paced hpending hlast
  | refused hready he => exact .refused hready.core he
  | emitted hready hemits => exact .emitted hready.core hemits.core

/-! ### Writes and drains -/

theorem Submitting.core (h : t.Submitting env src dst budget result t' env') :
    t.core.Submits src result t'.core := by
  cases h with
  | refused husable he => exact .refused husable he
  | sent husable hselected hsealed => exact .sent husable hselected hsealed.frame
  | full hidle hfull => exact .full hidle hfull
  | failed hidle _ hdrives => exact .failed hidle hdrives.core
  | @queued _ t₁ _ hidle _ hdrives hok =>
    have hsubmits : t.core.Submits src result { t₁.core with queue := t₁.core.queue ++ [src] } :=
      .queued hidle hdrives.core hok
    exact hsubmits

theorem Draining.core (h : t.Draining env dst budget result t' env') :
    t.core.Drains result t'.core := by
  have hqueue (dropped queue : List Bytes) :
      { t.noteDropped dropped with packetQueue := queue }.core = { t.core with queue := queue } :=
    congrArg (fun c : Core P => { c with queue := queue }) (t.core_noteDropped dropped)
  cases h with
  | empty hempty => exact .empty hempty
  | driven hidle hqueued hdrives => exact .driven hidle hqueued hdrives.core
  | dropped husable =>
    rw [hqueue]
    exact .dropped husable
  | refused husable hsplit _ he =>
    rw [hqueue]
    exact .refused husable hsplit he
  | @sent wire head dropped rest session rng _ husable hsplit _ hselected hsealed =>
    have hdrains : t.core.Drains (.writeToNetwork wire) ({ t.core with queue := rest }.deliver session
        rng head.isEmpty) := .sent husable hsplit hselected hsealed.frame
    rw [← hqueue dropped] at hdrains
    exact hdrains

/-! ### Polls -/

theorem Polling.core (h : t.Polling env dst budget result t' env') (now : Nat) :
    t.core.Polls now result t'.core := by
  cases h with
  | waits => exact .waits
  | burst hpending hdrives => exact .burst hpending hdrives.core
  | expires hlive => exact .expires hlive
  | expired hnone hexpired => exact .expired hnone hexpired
  | retransmits hnone hsent hleft hdrives =>
    rw [core_noteRefusal]
    exact .retransmits hnone hsent hleft hdrives.core
  | initiates hnone hidle hlive hdrives hkept =>
    have hdrives := hdrives.core
    rw [core_spendLatch] at hdrives
    rw [core_noteRefusal]
    exact .initiates hnone hidle hlive hdrives hkept
  | withholds hnone hlive he =>
    rw [core_note _ .tickDemandRefused nofun]
    exact .withholds hnone hlive he
  | keepalive hnone hidle hdue hpassive hon hlive hsubmits hkept =>
    have hsubmits := hsubmits.core
    rw [core_spendKeepalives] at hsubmits
    rw [core_noteRefusal]
    exact .keepalive hnone hidle hdue hpassive hon hlive hsubmits hkept
  | owes hnone hidle he hready hlive =>
    rw [core_note _ .tickDemandRefused nofun]
    exact .owes hnone hidle he (hready.imp (congrArg Tunn.core) Readying.core) hlive

end

/-! ### Calls -/

section

variable (env : Env P) (src dst : Bytes) (force : Bool) (budget : OutputBudget)

theorem core_formatHandshakeInitiation :
    let out := t.formatHandshakeInitiation env dst force budget
    t.core.Drives force out.1 out.2.1.core :=
  (t.formatHandshakeInitiation_driving env dst force budget).core

theorem core_encapsulate :
    let out := t.encapsulate env src dst budget
    t.core.Submits src out.1 out.2.1.core :=
  (t.encapsulate_submitting env src dst budget).core

theorem core_sendQueuedPacket :
    let out := t.sendQueuedPacket env dst budget
    t.core.Drains out.1 out.2.1.core :=
  (t.sendQueuedPacket_draining env dst budget).core

theorem slotSerial_foldl_sessionRemoved (slots : List (Fin N_SESSIONS)) (op : OpState)
    (slot : Fin N_SESSIONS) : (slots.foldl OpState.sessionRemoved op).slotSerial slot =
      if slots.elem slot then 0 else op.slotSerial slot := by
  induction slots generalizing op with
  | nil => simp
  | cons first slots ih =>
    rw [List.foldl_cons, ih]
    by_cases hfirst : slot = first
    · simp [hfirst, OpState.sessionRemoved]
    · simp [hfirst, OpState.sessionRemoved]

theorem core_updateSessionTimers (now : Nat) :
    (t.updateSessionTimers now).core =
      { t.core with
        ring := fun slot => if t.isAged now slot then none else t.sessions slot
        timers := { t.timers with
          sessionTimers := fun slot =>
            if t.isAged now slot then now else t.timers.sessionTimers slot }
        serial := fun slot =>
          if t.isAged now slot && (t.sessions slot).isSome then 0 else t.opState.slotSerial slot } := by
  unfold updateSessionTimers
  dsimp only
  generalize hremoved : (List.finRange N_SESSIONS).filter (fun slot =>
    t.isAged now slot && (t.sessions slot).isSome) = removed
  have hmem (slot : Fin N_SESSIONS) :
      slot ∈ removed ↔ (t.isAged now slot && (t.sessions slot).isSome) = true := by
    rw [← hremoved, List.mem_filter]
    exact and_iff_right (List.mem_finRange slot)
  have hserial : (removed.foldl OpState.sessionRemoved t.opState).slotSerial = fun slot =>
      if t.isAged now slot && (t.sessions slot).isSome then 0 else t.opState.slotSerial slot := by
    funext slot
    rw [slotSerial_foldl_sessionRemoved]
    exact if_congr (List.elem_iff.trans (hmem slot)) rfl rfl
  rw [← hserial]
  have hstate := OpState.foldl_sessionRemoved removed t.opState
  split
  · rw [hstate]
    rfl
  · rw [hstate]
    rfl

theorem core_beginPoll :
    (t.beginPoll env).2.1.core = t.core.age (t.timers.monotonicNow env.now) := by
  unfold beginPoll
  dsimp only
  rw [core_updateSessionTimers]
  rfl

/-- A poll ages the sessions, then serves one demand. -/
theorem core_updateTimers :
    let now := t.timers.monotonicNow env.now
    let out := t.updateTimers env dst budget
    (t.core.age now).Polls now out.1 out.2.1.core := by
  obtain ⟨t₁, hstart, hpolls⟩ := t.updateTimers_polling env dst budget
  have hcore : t₁.core = t.core.age (t.timers.monotonicNow env.now) := by
    rw [← core_beginPoll]
    rcases hstart with rfl | rfl
    · rfl
    · exact core_forgetOldCookie _ _
  have hcore_polls := hpolls.core (t.timers.monotonicNow env.now)
  rw [hcore] at hcore_polls
  exact hcore_polls

end

end Tunn

end BoringTun
