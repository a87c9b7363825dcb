import BoringTun.Cycle

/-!
What a tunnel holds that is left alone: the keepalive that is armed, and the queue while its
session can send.

Left alone (`Action.Alone`) a tunnel is only polled and asked for what is queued. No such call
arms a keepalive, makes a session usable or, while one is, queues (`Dwindles`), and every packet
it sends on a session is paid for by one of the two (`Polls.keepalives_add_le`,
`Drains.deliverable_add_le`).
-/

namespace BoringTun

variable {P : Primitives}

/-! ### Timers -/

namespace Timers

/-- No keepalive is armed. -/
structure Fades (t t' : Timers) : Prop where
  persistent : t'.persistentKeepalive = t.persistentKeepalive
  passive : t'.wantKeepalive = none ∨ t'.wantKeepalive = t.wantKeepalive

variable {t t' t'' : Timers}

theorem Fades.refl (t : Timers) : t.Fades t := ⟨rfl, .inr rfl⟩

theorem Fades.trans (h : t.Fades t') (h' : t'.Fades t'') : t.Fades t'' where
  persistent := h'.persistent.trans h.persistent
  passive := by
    rcases h'.passive with hnone | hsame
    · exact .inl hnone
    · rw [hsame]
      exact h.passive

theorem rearmPersistentKeepalive_fades (t : Timers) : t.Fades t.rearmPersistentKeepalive := by
  unfold rearmPersistentKeepalive
  dsimp only
  split <;> exact ⟨rfl, .inr rfl⟩

/-- A packet that leaves is a keepalive of its own. -/
theorem tick_sent_fades (t : Timers) (cfg : AwgTimers) (rng : Rng) :
    t.Fades (t.tick cfg rng .timeLastPacketSent).1 ∧
      (t.tick cfg rng .timeLastPacketSent).1.wantKeepalive = none := by
  obtain ⟨hpersistent, hpassive⟩ :=
    ({ t with wantKeepalive := none }.set .timePersistentKeepalive
      t.timeCurrent).rearmPersistentKeepalive_fades
  have hnone : (t.tick cfg rng .timeLastPacketSent).1.wantKeepalive = none := by
    rcases hpassive with hnone | hnone
    · exact hnone
    · exact hnone
  exact ⟨⟨hpersistent, .inl hnone⟩, hnone⟩

theorem tick_data_fades (t : Timers) (cfg : AwgTimers) (rng : Rng) :
    t.Fades (t.tick cfg rng .timeLastDataPacketSent).1 := by
  unfold tick
  dsimp only
  split <;> exact ⟨rfl, .inr rfl⟩

theorem delivered_fades (t : Timers) (cfg : AwgTimers) (rng : Rng) (isEmpty : Bool) :
    t.Fades (t.delivered cfg rng isEmpty) ∧ (t.delivered cfg rng isEmpty).wantKeepalive = none := by
  obtain ⟨hfades, hnone⟩ := t.tick_sent_fades cfg rng
  unfold delivered
  dsimp only
  split
  · exact ⟨hfades, hnone⟩
  · have hdata := tick_data_fades (t.tick cfg rng .timeLastPacketSent).1 cfg
      (t.tick cfg rng .timeLastPacketSent).2
    refine ⟨hfades.trans hdata, ?_⟩
    rcases hdata.passive with hnone' | hsame
    · exact hnone'
    · exact hsame.trans hnone

theorem armed_fades (t : Timers) (cfg : AwgTimers) (rng : Rng) (starting : Bool) :
    t.Fades (t.armed cfg rng starting).1 := by
  unfold armed
  dsimp only
  split <;> exact ⟨rfl, .inr rfl⟩

theorem initiated_fades (t : Timers) (cfg : AwgTimers) (rng : Rng) (starting : Bool) :
    t.Fades (t.initiated cfg rng starting) :=
  (t.armed_fades cfg rng starting).trans (tick_sent_fades _ _ _).1

theorem clear_fades (t : Timers) (now : Nat) : t.Fades (t.clear now) := ⟨rfl, .inl rfl⟩

end Timers

namespace Core

variable {c c₁ c' : Core P} {action : Action P} {result : TunnResult} {payload wire : Bytes}
  {force : Bool} {now : Nat}

/-! ### What a tunnel holds -/

/-- The passive keepalive, if it is armed. -/
def keepalives (c : Core P) : Nat := c.timers.wantKeepalive.toList.length

/-- What the session can still bring out of the queue. -/
def deliverable (c : Core P) : Nat := if c.usable then c.queue.length else 0

/-- Nothing is armed or made usable, and nothing is queued that could leave. -/
structure Dwindles (c c' : Core P) : Prop where
  amnezia : c'.amnezia = c.amnezia
  timers : c.timers.Fades c'.timers
  usable : c'.usable = true → c.usable = true
  queue : c'.usable = true → c'.queue.length ≤ c.queue.length

namespace Dwindles

theorem refl (c : Core P) : c.Dwindles c := ⟨rfl, .refl _, id, fun _ => Nat.le_refl _⟩

theorem trans (h : c.Dwindles c₁) (h' : c₁.Dwindles c') : c.Dwindles c' where
  amnezia := h'.amnezia.trans h.amnezia
  timers := h.timers.trans h'.timers
  usable husable := h.usable (h'.usable husable)
  queue husable := (h'.queue husable).trans (h.queue (h'.usable husable))

theorem keepalives_le (h : c.Dwindles c') : c'.keepalives ≤ c.keepalives := by
  unfold keepalives
  rcases h.timers.passive with hnone | hsame
  · rw [hnone]
    exact Nat.zero_le _
  · rw [hsame]

theorem deliverable_le (h : c.Dwindles c') : c'.deliverable ≤ c.deliverable := by
  unfold deliverable
  split
  · next husable =>
    rw [if_pos (h.usable husable)]
    exact h.queue husable
  · exact Nat.zero_le _

theorem persistentKeepaliveOn (h : c.Dwindles c') :
    c'.timers.persistentKeepaliveOn = c.timers.persistentKeepaliveOn := by
  unfold Timers.persistentKeepaliveOn
  rw [h.timers.persistent]

/-- Only the timers change. -/
theorem of_timers {timers : Timers} (h : c.timers.Fades timers) :
    c.Dwindles { c with timers := timers } :=
  ⟨rfl, h, id, fun _ => Nat.le_refl _⟩

end Dwindles

theorem restarted_fades (c : Core P) (owed : Bool) (now : Nat) :
    c.timers.Fades (c.restarted owed now) := by
  unfold restarted
  split
  · exact c.timers.clear_fades now
  · exact .refl _

theorem Emits.fades (h : c.Emits wire c') : c.timers.Fades c'.timers := by
  cases h with
  | imitation | junk => exact c.restarted_fades _ _
  | deferred | direct => exact (c.restarted_fades _ _).trans (Timers.initiated_fades _ _ _ _)

theorem Still.dwindles (h : c.Still c') (htimers : c.timers.Fades c'.timers) : c.Dwindles c' where
  amnezia := h.amnezia
  timers := htimers
  usable := by
    rw [h.usable]
    exact id
  queue _ := by rw [h.queue]

theorem Readies.dwindles (h : c.Readies force c') : c.Dwindles c' := by
  refine h.still.dwindles ?_
  rw [h.timers_eq]
  exact .refl _

theorem Drives.dwindles (h : c.Drives force result c') : c.Dwindles c' := by
  cases h with
  | busy | paced => exact .refl c
  | refused hready => exact hready.dwindles
  | emitted hready hemits => exact hready.dwindles.trans (hemits.still.dwindles hemits.fades)

theorem deliver_dwindles (husable : c.usable = true) (session : Session P) (rng : Rng)
    (isEmpty : Bool) : c.Dwindles (c.deliver session rng isEmpty) :=
  ⟨rfl, (c.timers.delivered_fades _ _ _).1, fun _ => husable, fun _ => Nat.le_refl _⟩

theorem Submits.dwindles (h : c.Submits payload result c') : c.Dwindles c' := by
  cases h with
  | refused | full => exact .refl c
  | sent husable => exact deliver_dwindles husable _ _ _
  | failed _ hdrives => exact hdrives.dwindles
  | @queued _ c₁ hidle hdrives =>
    have hdriven := hdrives.dwindles
    have hidle₁ : c₁.usable = true → False := fun husable =>
      absurd (hidle.symm.trans (hdriven.usable husable)) Bool.false_ne_true
    exact ⟨hdriven.amnezia, hdriven.timers, fun husable => (hidle₁ husable).elim,
      fun husable => (hidle₁ husable).elim⟩

theorem shorten_dwindles (husable : c.usable = true) {queue : List Bytes}
    (hle : queue.length ≤ c.queue.length) : c.Dwindles { c with queue := queue } :=
  ⟨rfl, .refl _, fun _ => husable, fun _ => hle⟩

theorem Drains.dwindles (h : c.Drains result c') : c.Dwindles c' := by
  cases h with
  | empty => exact .refl c
  | driven _ _ hdrives => exact hdrives.dwindles
  | dropped husable => exact shorten_dwindles husable (Nat.zero_le _)
  | refused husable hqueue =>
    refine shorten_dwindles husable ?_
    rw [hqueue, List.length_append]
    exact Nat.le_add_left _ _
  | @sent _ head dropped rest _ _ husable hqueue =>
    have hle : rest.length ≤ c.queue.length := by
      rw [hqueue, List.length_append, List.length_cons]
      omega
    have husable' : { c with queue := rest }.usable = true := husable
    exact (shorten_dwindles husable hle).trans (deliver_dwindles husable' _ _ _)

theorem age_dwindles (c : Core P) (now : Nat) : c.Dwindles (c.age now) where
  amnezia := rfl
  timers := ⟨rfl, .inr rfl⟩
  usable husable := by
    obtain ⟨session, hselected, hnonce⟩ := usable_iff.mp husable
    refine usable_iff.mpr ⟨session, ?_, hnonce⟩
    unfold selected age at hselected
    dsimp only at hselected
    split at hselected
    · cases hselected
    · exact hselected
  queue _ := Nat.le_refl _

theorem expire_dwindles (c : Core P) (time : Nat) : c.Dwindles (c.expire time) where
  amnezia := rfl
  timers := c.timers.clear_fades time
  usable := nofun
  queue _ := Nat.zero_le _

theorem spendKeepalives_passive (c : Core P) :
    c.Dwindles (c.spendKeepalives true false) ∧ (c.spendKeepalives true false).keepalives = 0 :=
  ⟨.of_timers ⟨rfl, .inl rfl⟩, rfl⟩

/-- Left alone, a tunnel is polled and asked for what is queued. -/
def Action.Alone : Action P → Prop
  | .drain | .poll _ => True
  | _ => False

/-- With persistent keepalive off, what is due is the passive one. -/
theorem passive_of_off {passive persistent : Bool}
    (hoff : c.timers.persistentKeepaliveOn = false) (hdue : passive = true ∨ persistent = true)
    (hon : persistent = true → c.timers.persistentKeepaliveOn = true) :
    passive = true ∧ persistent = false := by
  have hpersistent : persistent = false := by
    cases persistent with
    | false => rfl
    | true => exact absurd (hoff.symm.trans (hon rfl)) Bool.false_ne_true
  rw [hpersistent] at hdue
  exact ⟨hdue.resolve_right Bool.false_ne_true, hpersistent⟩

theorem Polls.dwindles (h : c.Polls now result c')
    (hoff : c.timers.persistentKeepaliveOn = false) : c.Dwindles c' := by
  cases h with
  | waits | expired | withholds => exact .refl c
  | burst _ hdrives | retransmits _ _ _ hdrives => exact hdrives.dwindles
  | expires => exact c.expire_dwindles _
  | @initiates latched _ _ _ _ _ hdrives =>
    have hspent : c.Dwindles (if latched then c.spendLatch else c) := by
      cases latched with
      | false => exact .refl c
      | true => exact .of_timers ⟨rfl, .inr rfl⟩
    exact hspent.trans hdrives.dwindles
  | keepalive _ _ hdue _ hon _ hsubmits =>
    obtain ⟨rfl, rfl⟩ := passive_of_off hoff hdue hon
    exact c.spendKeepalives_passive.1.trans hsubmits.dwindles
  | owes _ _ _ hready =>
    rcases hready with rfl | hready
    · exact .refl _
    · exact hready.dwindles

theorem Moves.dwindles (h : c.Moves action result c') (halone : action.Alone)
    (hoff : c.timers.persistentKeepaliveOn = false) : c.Dwindles c' := by
  cases h with
  | drains h => exact h.dwindles
  | @polls now _ _ _ h =>
    have haged := c.age_dwindles now
    exact haged.trans (h.dwindles (haged.persistentKeepaliveOn.trans hoff))
  | _ => exact halone.elim

/-! ### Packets on a session -/

/-- A call sent a packet on a session. -/
def transports (result : TunnResult) (kind : OpReport.PacketKind) : Bool :=
  result.isWriteToNetwork && !kind.isPreHandshake

theorem Emits.isPreHandshake (h : c.Emits wire c') : c'.output.isPreHandshake = true := by
  cases h <;> rfl

theorem Drives.transports (h : c.Drives force result c') :
    transports result c'.output = false := by
  unfold Core.transports
  cases h with
  | busy => rfl
  | paced => rfl
  | refused => rfl
  | emitted _ hemits =>
    rw [hemits.isPreHandshake]
    rfl

/-- A keepalive that a poll sends was armed. -/
theorem Polls.keepalives_add_le (h : c.Polls now result c')
    (hoff : c.timers.persistentKeepaliveOn = false) :
    c'.keepalives + (transports result c'.output).toNat ≤ c.keepalives := by
  have hle := (h.dwindles hoff).keepalives_le
  have hdriven {force : Bool} {c₁ c' : Core P} (hdrives : c₁.Drives force result c')
      (hle : c'.keepalives ≤ c.keepalives) :
      c'.keepalives + (transports result c'.output).toNat ≤ c.keepalives := by
    rw [hdrives.transports]
    exact hle
  cases h with
  | burst _ hdrives | retransmits _ _ _ hdrives | initiates _ _ _ hdrives =>
    exact hdriven hdrives hle
  | keepalive _ _ hdue hpassive hon _ hsubmits =>
    obtain ⟨rfl, rfl⟩ := passive_of_off hoff hdue hon
    have hnone : c'.keepalives = 0 :=
      Nat.le_zero.mp (c.spendKeepalives_passive.2 ▸ hsubmits.dwindles.keepalives_le)
    obtain ⟨armed, harmed⟩ := Option.isSome_iff_exists.mp (hpassive rfl)
    have hone : c.keepalives = 1 := by
      unfold keepalives
      rw [harmed]
      rfl
    rw [hnone, hone, Nat.zero_add]
    exact Bool.toNat_le _
  | _ => exact hle

/-- A packet that a drain sends was queued. -/
theorem Drains.deliverable_add_le (h : c.Drains result c') :
    c'.deliverable + (transports result c'.output).toNat ≤ c.deliverable := by
  have hle := h.dwindles.deliverable_le
  cases h with
  | driven _ _ hdrives =>
    rw [hdrives.transports]
    exact hle
  | @sent _ head dropped rest session rng husable hqueue =>
    have hrest : ({ c with queue := rest }.deliver session rng head.isEmpty).deliverable ≤
        rest.length := by
      unfold deliverable
      split
      · exact Nat.le_refl _
      · exact Nat.zero_le _
    have hheld : rest.length + 1 ≤ c.deliverable := by
      unfold deliverable
      rw [if_pos husable, hqueue, List.length_append, List.length_cons]
      omega
    exact (Nat.add_le_add hrest (Bool.toNat_le _)).trans hheld
  | _ => exact hle

end Core

end BoringTun
