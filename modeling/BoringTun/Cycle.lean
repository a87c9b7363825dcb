import BoringTun.Tunn.Moves

/-!
The cycle of a handshake: its burst, its initiations and the count of its attempts.

Most of what a call does leaves the cycle alone (`Calm`). What moves it is a demand for an
initiation, or its end: `Moves.serves` says so of every call that changes no configuration and
establishes no session, and what lets a call force an initiation while one is in flight
(`Forces`).

* `Cycling`: an initiation is in flight, the count is that of the initiations sent, and the
  limit has room for the one that a burst still owes;
* `Moves.starts`, `Serves.cycling`: every call keeps it, until the cycle ends.
-/

namespace BoringTun

variable {P : Primitives}

/-! ### The count -/

theorem AwgTimers.maxRetransmissions_lt (cfg : AwgTimers) (rng : Rng) :
    (cfg.maxRetransmissions rng).1 < 2 ^ 32 := by
  unfold maxRetransmissions
  split
  · exact (by decide : REKEY_ATTEMPT_TIME / REKEY_TIMEOUT - 1 < 2 ^ 32)
  · dsimp only
    omega

namespace Timers

/-- The count of a cycle and its limit are as they were. -/
structure SameCount (t t' : Timers) : Prop where
  attempts : t'.handshakeAttempts = t.handshakeAttempts
  limit : t'.maxRetransmissionsCurrent = t.maxRetransmissionsCurrent

variable {t t' t'' : Timers}

theorem SameCount.refl (t : Timers) : t.SameCount t := ⟨rfl, rfl⟩

theorem SameCount.trans (h : t.SameCount t') (h' : t'.SameCount t'') : t.SameCount t'' :=
  ⟨h'.attempts.trans h.attempts, h'.limit.trans h.limit⟩

theorem rearmPersistentKeepalive_sameCount (t : Timers) :
    t.SameCount t.rearmPersistentKeepalive := by
  unfold rearmPersistentKeepalive
  dsimp only
  split <;> exact ⟨rfl, rfl⟩

theorem tick_sameCount (t : Timers) (cfg : AwgTimers) (rng : Rng) (name : TimerName) :
    t.SameCount (t.tick cfg rng name).1 := by
  have htraversal (t : Timers) :=
    (t.set .timePersistentKeepalive t.timeCurrent).rearmPersistentKeepalive_sameCount
  unfold tick
  cases name with
  | timeLastPacketReceived =>
    obtain ⟨hattempts, hlimit⟩ := htraversal { t with wantHandshake := none }
    exact ⟨hattempts, hlimit⟩
  | timeLastPacketSent =>
    obtain ⟨hattempts, hlimit⟩ := htraversal { t with wantKeepalive := none }
    exact ⟨hattempts, hlimit⟩
  | timeLastDataPacketReceived | timeLastDataPacketSent =>
    dsimp only
    split <;> exact ⟨rfl, rfl⟩
  | _ => exact ⟨rfl, rfl⟩

theorem delivered_sameCount (t : Timers) (cfg : AwgTimers) (rng : Rng) (isEmpty : Bool) :
    t.SameCount (t.delivered cfg rng isEmpty) := by
  unfold delivered
  dsimp only
  split
  · exact t.tick_sameCount cfg rng _
  · exact (t.tick_sameCount cfg rng _).trans (tick_sameCount _ _ _ _)

theorem received_sameCount (t : Timers) (cfg : AwgTimers) (r₁ r₂ : Rng) (isData : Bool) :
    t.SameCount (t.received cfg r₁ r₂ isData) := by
  unfold received
  dsimp only
  split
  · exact (t.tick_sameCount cfg r₁ _).trans (tick_sameCount _ _ _ _)
  · exact t.tick_sameCount cfg r₁ _

/-- The first initiation of a cycle draws its limit. -/
theorem initiated_first (t : Timers) (cfg : AwgTimers) (rng : Rng) :
    (t.initiated cfg rng true).handshakeAttempts = 0 ∧
      (t.initiated cfg rng true).maxRetransmissionsCurrent < 2 ^ 32 := by
  have harmed : (t.armed cfg rng true).1.handshakeAttempts = 0 ∧
      (t.armed cfg rng true).1.maxRetransmissionsCurrent < 2 ^ 32 := by
    unfold armed
    dsimp only
    rw [if_pos rfl, (tick_sameCount _ _ _ _).attempts, (tick_sameCount _ _ _ _).limit]
    exact ⟨rfl, cfg.maxRetransmissions_lt _⟩
  unfold initiated
  dsimp only
  rw [(tick_sameCount _ _ _ _).attempts, (tick_sameCount _ _ _ _).limit]
  exact harmed

/-- Every further one is an attempt. -/
theorem initiated_again (t : Timers) (cfg : AwgTimers) (rng : Rng) :
    (t.initiated cfg rng false).handshakeAttempts = min (t.handshakeAttempts + 1) (2 ^ 32 - 1) ∧
      (t.initiated cfg rng false).maxRetransmissionsCurrent = t.maxRetransmissionsCurrent := by
  unfold initiated
  dsimp only
  rw [(tick_sameCount _ _ _ _).attempts, (tick_sameCount _ _ _ _).limit]
  exact ⟨rfl, rfl⟩

end Timers

/-- What is sent ahead of a session. -/
def OpReport.PacketKind.isPreHandshake : OpReport.PacketKind → Bool
  | .imitation | .junk | .handshakeInitiation => true
  | _ => false

namespace Core

variable {c c₁ c₂ c' : Core P} {action : Action P} {result : TunnResult} {payload : Bytes}
  {force : Bool}

/-! ### What a call does to the cycle -/

/-- The cycle is as it was. -/
structure Calm (c c' : Core P) : Prop where
  state : c'.state = c.state
  burst : c'.burst = c.burst
  amnezia : c'.amnezia = c.amnezia
  count : c.timers.SameCount c'.timers

theorem Calm.refl (c : Core P) : c.Calm c := ⟨rfl, rfl, rfl, .refl _⟩

theorem Calm.trans (h : c.Calm c₁) (h' : c₁.Calm c') : c.Calm c' where
  state := h'.state.trans h.state
  burst := h'.burst.trans h.burst
  amnezia := h'.amnezia.trans h.amnezia
  count := h.count.trans h'.count

/-- What lets a call force an initiation. -/
inductive Forces (c : Core P) (action : Action P) : Prop where
  | demanded (h : action = .demand true) : Forces c action
  | pending (h : c.burst.isSome = true) : Forces c action
  | retransmits (h : c.timers.handshakeAttempts < c.timers.maxRetransmissionsCurrent) :
    Forces c action
  | idle (h : ∀ sent, c.state ≠ .initSent sent) : Forces c action

/-- Nothing of the cycle is left. -/
structure Ended (c : Core P) : Prop where
  state : c.state = .expired
  ring : ∀ slot, c.ring slot = none
  queue : c.queue = []
  burst : c.burst = none

/-- What a call does to the cycle: nothing, a demand for an initiation, or its end. -/
inductive Serves (c : Core P) (action : Action P) (result : TunnResult) (c' : Core P) : Prop where
  | calm (h : c.Calm c')
    (hkind : result.isWriteToNetwork = true → c'.output.isPreHandshake = false) :
    Serves c action result c'
  | drives {force : Bool} {c₁ c₂ : Core P} (hbefore : c.Calm c₁)
    (hforces : force = true → c.Forces action) (hdrives : c₁.Drives force result c₂)
    (hafter : c₂.Calm c') (houtput : c'.output = c₂.output) : Serves c action result c'
  | ends (hresult : result = .err .connectionExpired) (hended : c'.Ended)
    (hcount : c.timers.SameCount c'.timers) : Serves c action result c'

theorem Serves.of_unforced (h : c.Drives false result c₂) (hafter : c₂.Calm c')
    (houtput : c'.output = c₂.output) : c.Serves action result c' :=
  .drives (.refl c) (fun hforce => absurd hforce Bool.false_ne_true) h hafter houtput

theorem transportKind_isPreHandshake (isEmpty : Bool) :
    (transportKind isEmpty).isPreHandshake = false := by
  cases isEmpty <;> rfl

theorem deliver_calm (c : Core P) (session : Session P) (rng : Rng) (isEmpty : Bool) :
    c.Calm (c.deliver session rng isEmpty) :=
  ⟨rfl, rfl, rfl, c.timers.delivered_sameCount _ _ _⟩

theorem Submits.serves (h : c.Submits payload result c') : c.Serves action result c' := by
  cases h with
  | refused | full => exact .calm (.refl c) nofun
  | sent => exact .calm (c.deliver_calm _ _ _) fun _ => transportKind_isPreHandshake _
  | failed _ hdrives => exact .of_unforced hdrives (.refl c') rfl
  | queued _ hdrives => exact .of_unforced hdrives ⟨rfl, rfl, rfl, .refl _⟩ rfl

theorem Drains.serves (h : c.Drains result c') : c.Serves action result c' := by
  cases h with
  | empty => exact .calm (.refl c) nofun
  | driven _ _ hdrives => exact .of_unforced hdrives (.refl c') rfl
  | dropped | refused => exact .calm ⟨rfl, rfl, rfl, .refl _⟩ nofun
  | sent =>
    exact .calm ⟨rfl, rfl, rfl, c.timers.delivered_sameCount _ _ _⟩ fun _ =>
      transportKind_isPreHandshake _

theorem spendKeepalives_calm (c : Core P) (passive persistent : Bool) :
    c.Calm (c.spendKeepalives passive persistent) := by
  cases passive <;> cases persistent <;> exact ⟨rfl, rfl, rfl, rfl, rfl⟩

theorem Serves.after_calm (h : c₁.Serves action result c') (hcalm : c.Calm c₁)
    (hforces : c₁.Forces action → c.Forces action) : c.Serves action result c' := by
  cases h with
  | calm h hkind => exact .calm (hcalm.trans h) hkind
  | drives hbefore hforces' hdrives hafter houtput =>
    exact .drives (hcalm.trans hbefore) (fun hforce => hforces (hforces' hforce)) hdrives hafter
      houtput
  | ends hresult hended hcount => exact .ends hresult hended (hcalm.count.trans hcount)

theorem Forces.of_calm (h : c₁.Forces action) (hcalm : c.Calm c₁) : c.Forces action := by
  cases h with
  | demanded h => exact .demanded h
  | pending h => exact .pending (hcalm.burst ▸ h)
  | retransmits h =>
    rw [hcalm.count.attempts, hcalm.count.limit] at h
    exact .retransmits h
  | idle h => exact .idle fun sent heq => h sent (hcalm.state.trans heq)

theorem Polls.serves {now : Nat} (h : c.Polls now result c') : c.Serves action result c' := by
  cases h with
  | waits | expired | withholds => exact .calm (.refl c) nofun
  | burst hburst hdrives =>
    exact .drives (.refl c) (fun _ => .pending (by rw [hburst]; rfl)) hdrives (.refl c') rfl
  | expires => exact .ends rfl ⟨rfl, fun _ => rfl, rfl, rfl⟩ ⟨rfl, rfl⟩
  | retransmits _ _ hleft hdrives =>
    exact .drives (.refl c) (fun _ => .retransmits hleft) hdrives (.refl c') rfl
  | @initiates latched _ _ _ hidle _ hdrives _ =>
    have hspent : c.Calm (if latched then c.spendLatch else c) := by
      cases latched <;> exact ⟨rfl, rfl, rfl, rfl, rfl⟩
    exact .drives hspent (fun _ => .idle hidle) hdrives (.refl c') rfl
  | keepalive _ hidle _ _ _ _ hsubmits =>
    exact hsubmits.serves.after_calm (c.spendKeepalives_calm _ _) fun h =>
      h.of_calm (c.spendKeepalives_calm _ _)
  | owes _ _ he hready =>
    rcases hready with rfl | hready
    · exact .calm (.refl _) nofun
    · exact .of_unforced (.refused hready he) (.refl c') rfl

theorem age_calm (c : Core P) (now : Nat) : c.Calm (c.age now) := ⟨rfl, rfl, rfl, rfl, rfl⟩

/-- A call that changes no configuration and establishes no session. -/
def Action.Keeps : Action P → Prop
  | .accept packet => packet.kind = .cookieReply ∨ packet.kind = .transport
  | .configure => False
  | _ => True

theorem Accepts.calm {packet : Authenticated P} (h : c.Accepts packet result c')
    (hkeeps : (Action.accept packet).Keeps) :
    c.Calm c' ∧ result.isWriteToNetwork = false := by
  cases h with
  | answered | completed =>
    rcases hkeeps with hkind | hkind
    · cases hkind
    · cases hkind
  | @cookie _ rng =>
    exact ⟨⟨rfl, rfl, rfl, c.timers.tick_sameCount c.amnezia.timers rng .timeCookieReceived⟩, rfl⟩
  | data _ _ hresult =>
    rw [select_eq]
    exact ⟨⟨rfl, rfl, rfl, c.timers.received_sameCount _ _ _ _⟩, hresult⟩

theorem Moves.serves (h : c.Moves action result c') (hkeeps : action.Keeps) :
    c.Serves action result c' := by
  cases h with
  | submits h | drains h => exact h.serves
  | @demands force _ _ h =>
    exact .drives (.refl c) (fun hforce => .demanded (by rw [hforce])) h (.refl c') rfl
  | polls _ h => exact h.serves.after_calm (c.age_calm _) fun h => h.of_calm (c.age_calm _)
  | accepts h =>
    obtain ⟨hcalm, hquiet⟩ := h.calm hkeeps
    exact .calm hcalm fun hwrites => absurd (hquiet.symm.trans hwrites) Bool.false_ne_true
  | @ignores _ kind hkind =>
    refine .calm ⟨rfl, rfl, rfl, .refl _⟩ fun hwrites => ?_
    cases result with
    | writeToNetwork wire =>
      obtain ⟨rfl, -⟩ := hkind wire rfl
      rfl
    | _ => cases hwrites
  | declines | reconfigures | keeps | rekeys => exact hkeeps.elim

/-! ### The cycle -/

/-- `n` initiations of a cycle were sent, and the last one is in flight. -/
structure Cycling (c : Core P) (n : Nat) : Prop where
  sent : ∃ sent, c.state = .initSent sent
  count : n = c.timers.handshakeAttempts + 1
  room : c.timers.handshakeAttempts + c.burst.toList.length ≤ c.timers.maxRetransmissionsCurrent
  limit : c.timers.maxRetransmissionsCurrent < 2 ^ 32

/-- The initiations a call produced. -/
def initiations (result : TunnResult) (kind : OpReport.PacketKind) : Nat :=
  if result.isWriteToNetwork = true ∧ kind = .handshakeInitiation then 1 else 0

theorem initiations_eq_zero {kind : OpReport.PacketKind}
    (hkind : result.isWriteToNetwork = true → kind.isPreHandshake = false) :
    initiations result kind = 0 := by
  refine if_neg fun ⟨hwrites, houtput⟩ => ?_
  have hother := hkind hwrites
  rw [houtput] at hother
  cases hother

variable {n : Nat}

theorem Cycling.inProgress (h : c.Cycling n) : c.inProgress = true := by
  obtain ⟨sent, hsent⟩ := h.sent
  unfold Core.inProgress
  rw [hsent]

theorem Cycling.not_expired (h : c.Cycling n) : c.isExpired = false := by
  obtain ⟨sent, hsent⟩ := h.sent
  unfold isExpired
  rw [hsent]

theorem Cycling.calm (h : c.Cycling n) (hcalm : c.Calm c') : c'.Cycling n where
  sent := by
    rw [hcalm.state]
    exact h.sent
  count := by
    rw [hcalm.count.attempts]
    exact h.count
  room := by
    rw [hcalm.count.attempts, hcalm.count.limit, hcalm.burst]
    exact h.room
  limit := by
    rw [hcalm.count.limit]
    exact h.limit

theorem restarted_of_live (hlive : c.isExpired = false) (owed : Bool) (now : Nat) :
    c.restarted owed now = c.timers := by
  unfold restarted
  rw [hlive, Bool.and_false, if_neg Bool.false_ne_true]

theorem restarted_sameCount (c : Core P) (owed : Bool) (now : Nat) :
    c.timers.SameCount (c.restarted owed now) := by
  unfold restarted
  split <;> exact ⟨rfl, rfl⟩

theorem initiate_first (hidle : c.inProgress = false) (owed : Bool) (now : Nat) (rng : Rng)
    (sent : HandshakeInitSentState P) :
    (c.initiate owed now rng sent).timers.handshakeAttempts = 0 ∧
      (c.initiate owed now rng sent).timers.maxRetransmissionsCurrent < 2 ^ 32 := by
  unfold initiate
  rw [hidle, Bool.not_false]
  exact (c.restarted owed now).initiated_first c.amnezia.timers rng

theorem initiate_again (hbusy : c.inProgress = true) (owed : Bool) (now : Nat) (rng : Rng)
    (sent : HandshakeInitSentState P) :
    (c.initiate owed now rng sent).timers.handshakeAttempts =
        min (c.timers.handshakeAttempts + 1) (2 ^ 32 - 1) ∧
      (c.initiate owed now rng sent).timers.maxRetransmissionsCurrent =
        c.timers.maxRetransmissionsCurrent := by
  have hcount := c.restarted_sameCount owed now
  unfold initiate
  rw [hbusy, Bool.not_true, ← hcount.attempts, ← hcount.limit]
  exact (c.restarted owed now).initiated_again c.amnezia.timers rng

/-- A datagram of the burst leaves. -/
theorem Cycling.advance (h : c.Cycling n) {pending pending' : PendingAmneziaJunk}
    (hburst : c.burst = some pending) (kind : OpReport.PacketKind) (owed : Bool) (now : Nat) :
    (c.advance kind owed now pending').Cycling n := by
  have htimers : (c.advance kind owed now pending').timers = c.timers :=
    restarted_of_live h.not_expired owed now
  have hroom := h.room
  rw [hburst] at hroom
  exact {
    sent := h.sent
    count := by
      rw [htimers]
      exact h.count
    room := by
      rw [htimers]
      exact hroom
    limit := by
      rw [htimers]
      exact h.limit }

/-- An initiation leaves that the limit had room for. -/
theorem Cycling.initiate (h : c.Cycling n)
    (hroom : c.timers.handshakeAttempts < c.timers.maxRetransmissionsCurrent) {owed : Bool}
    {now : Nat} {rng : Rng} {sent : HandshakeInitSentState P} (hstate : c'.state = .initSent sent)
    (htimers : c'.timers = (c.initiate owed now rng sent).timers) (hburst : c'.burst = none) :
    c'.Cycling (n + 1) := by
  obtain ⟨hattempts, hlimit⟩ := initiate_again h.inProgress owed now rng sent
  rw [← htimers] at hattempts hlimit
  have hbound := h.limit
  have hcount := h.count
  refine ⟨⟨sent, hstate⟩, by omega, ?_, by omega⟩
  rw [hburst, Option.toList_none, List.length_nil]
  omega

theorem Emits.cycling {wire : Bytes} (h : c.Emits wire c') (hcycle : c.Cycling n)
    (hroom : c.burst = none →
      c.timers.handshakeAttempts < c.timers.maxRetransmissionsCurrent) :
    c'.Cycling (n + initiations (.writeToNetwork wire) c'.output) := by
  have hpending {pending : PendingAmneziaJunk} (hburst : c.burst = some pending) :
      c.timers.handshakeAttempts < c.timers.maxRetransmissionsCurrent := by
    have hle := hcycle.room
    rw [hburst] at hle
    exact hle
  cases h with
  | imitation hburst | junk hburst => exact hcycle.advance hburst _ _ _
  | deferred hburst => exact hcycle.initiate (hpending hburst) rfl rfl rfl
  | direct hnone => exact hcycle.initiate (hroom hnone) rfl rfl hnone

theorem Drives.cycling (h : c.Drives force result c') (hcycle : c.Cycling n)
    (hforces : force = true → c.burst.isSome = true ∨
      c.timers.handshakeAttempts < c.timers.maxRetransmissionsCurrent) :
    c'.Cycling (n + initiations result c'.output) := by
  -- a demand that is not forced finds the initiation in flight
  have hroom (hnone : c.burst = none) (hstart : c.inProgress = false ∨ force = true) :
      c.timers.handshakeAttempts < c.timers.maxRetransmissionsCurrent := by
    rcases hstart with hidle | hforce
    · exact absurd (hidle.symm.trans hcycle.inProgress) Bool.false_ne_true
    · rcases hforces hforce with hpending | hleft
      · rw [hnone] at hpending
        cases hpending
      · exact hleft
  have hprepared {burst : PendingAmneziaJunk} (hnone : c.burst = none)
      (hstart : c.inProgress = false ∨ force = true) :
      { c with burst := some burst }.Cycling n :=
    ⟨hcycle.sent, hcycle.count, hroom hnone hstart, hcycle.limit⟩
  cases h with
  | busy | paced => exact hcycle
  | refused hready =>
    cases hready with
    | pending | direct => exact hcycle
    | prepared hnone hstart => exact hprepared hnone hstart
  | emitted hready hemits =>
    cases hready with
    | pending hburst =>
      exact hemits.cycling hcycle fun hnone => absurd (hburst.symm.trans hnone) nofun
    | prepared hnone hstart => exact hemits.cycling (hprepared hnone hstart) nofun
    | direct hnone hstart => exact hemits.cycling hcycle fun _ => hroom hnone hstart

/-- Every call keeps a cycle that no forced initiation is asked for, until it ends. -/
theorem Serves.cycling (h : c.Serves action result c') (hcycle : c.Cycling n)
    (hunforced : action ≠ .demand true) (hlive : c'.isExpired = false) :
    c'.Cycling (n + initiations result c'.output) := by
  cases h with
  | calm hcalm hkind =>
    rw [initiations_eq_zero hkind]
    exact hcycle.calm hcalm
  | drives hbefore hforces hdrives hafter houtput =>
    rw [houtput]
    refine (hdrives.cycling (hcycle.calm hbefore) fun hforce => ?_).calm hafter
    rw [hbefore.burst, hbefore.count.attempts, hbefore.count.limit]
    cases hforces hforce with
    | demanded h => exact absurd h hunforced
    | pending h => exact .inl h
    | retransmits h => exact .inr h
    | idle h =>
      obtain ⟨sent, hsent⟩ := hcycle.sent
      exact absurd hsent (h sent)
  | ends _ hended =>
    unfold isExpired at hlive
    rw [hended.state] at hlive
    cases hlive

/-- The first initiation of a cycle. -/
theorem Emits.starts {wire : Bytes} (h : c.Emits wire c') (hidle : c.inProgress = false)
    (hstarted : c'.inProgress = true) :
    c'.output = .handshakeInitiation ∧ c'.Cycling 1 := by
  have hfirst {owed : Bool} {now : Nat} {rng : Rng} {sent : HandshakeInitSentState P}
      (hstate : c'.state = .initSent sent)
      (htimers : c'.timers = (c.initiate owed now rng sent).timers) (hburst : c'.burst = none) :
      c'.Cycling 1 := by
    obtain ⟨hattempts, hlimit⟩ := initiate_first hidle owed now rng sent
    rw [← htimers] at hattempts hlimit
    refine ⟨⟨sent, hstate⟩, by omega, ?_, hlimit⟩
    rw [hattempts, hburst]
    exact Nat.zero_le _
  cases h with
  | imitation | junk => exact absurd (hidle.symm.trans hstarted) Bool.false_ne_true
  | deferred => exact ⟨rfl, hfirst rfl rfl rfl⟩
  | direct hnone => exact ⟨rfl, hfirst rfl rfl hnone⟩

theorem Readies.state_eq (h : c.Readies force c') : c'.state = c.state := by
  cases h <;> rfl

theorem inProgress_congr (h : c'.state = c.state) : c'.inProgress = c.inProgress := by
  unfold Core.inProgress
  rw [h]

theorem Drives.starts (h : c.Drives force result c') (hidle : c.inProgress = false)
    (hstarted : c'.inProgress = true) :
    initiations result c'.output = 1 ∧ c'.Cycling 1 := by
  cases h with
  | busy | paced => exact absurd (hidle.symm.trans hstarted) Bool.false_ne_true
  | refused hready =>
    rw [inProgress_congr hready.state_eq] at hstarted
    exact absurd (hidle.symm.trans hstarted) Bool.false_ne_true
  | emitted hready hemits =>
    rw [← inProgress_congr hready.state_eq] at hidle
    obtain ⟨houtput, hcycle⟩ := hemits.starts hidle hstarted
    rw [houtput]
    exact ⟨rfl, hcycle⟩

/-- A session that is established leaves no initiation in flight where there was none. -/
theorem Accepts.idle {packet : Authenticated P} (h : c.Accepts packet result c')
    (hidle : c.inProgress = false) : c'.inProgress = false := by
  cases h with
  | answered => rfl
  | @completed response =>
    rw [select_eq]
    change (c.retire response.isPrevious).inProgress = false
    unfold retire
    split
    · exact hidle
    · rfl
  | cookie => exact hidle
  | data =>
    rw [select_eq]
    exact hidle

theorem Serves.starts (h : c.Serves action result c') (hidle : c.inProgress = false)
    (hstarted : c'.inProgress = true) : initiations result c'.output = 1 ∧ c'.Cycling 1 := by
  cases h with
  | calm hcalm =>
    rw [inProgress_congr hcalm.state] at hstarted
    exact absurd (hidle.symm.trans hstarted) Bool.false_ne_true
  | drives hbefore _ hdrives hafter houtput =>
    rw [← inProgress_congr hbefore.state] at hidle
    rw [inProgress_congr hafter.state] at hstarted
    obtain ⟨hcount, hcycle⟩ := hdrives.starts hidle hstarted
    rw [houtput]
    exact ⟨hcount, hcycle.calm hafter⟩
  | ends _ hended =>
    unfold Core.inProgress at hstarted
    rw [hended.state] at hstarted
    cases hstarted

/-- The call that starts a cycle produces its first initiation. -/
theorem Moves.starts (h : c.Moves action result c') (hidle : c.inProgress = false)
    (hstarted : c'.inProgress = true) : initiations result c'.output = 1 ∧ c'.Cycling 1 := by
  have hquiet (hsame : c'.inProgress = false) : initiations result c'.output = 1 ∧ c'.Cycling 1 :=
    absurd (hsame.symm.trans hstarted) Bool.false_ne_true
  cases action with
  | accept packet =>
    cases h with
    | accepts h => exact hquiet (h.idle hidle)
  | configure =>
    cases h with
    | declines | reconfigures | keeps | rekeys => exact hquiet hidle
  | _ => exact (h.serves trivial).starts hidle hstarted

end Core

end BoringTun
