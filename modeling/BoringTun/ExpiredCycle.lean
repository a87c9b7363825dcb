import BoringTun.Tunn.Moves

/-!
What is left of a tunnel whose handshake cycle expired.

A poll serves a burst that restarts an expired cycle before it looks at the bounds on the
lifetime of the keys and of the handshake. `Spent` is why that keeps nothing alive: until the
first datagram of such a burst leaves there is no session, no queued packet and no handshake
(`expired_burst_holds_nothing`).
-/

namespace BoringTun

namespace Core

variable {P : Primitives} {c c₁ c' : Core P} {force : Bool} {result : TunnResult}
  {wire payload : Bytes}

theorem isExpired_iff : c.isExpired = true ↔ c.state = .expired := by
  unfold isExpired
  cases c.state <;> simp

/-- What an expired handshake has left. -/
structure Spent (c : Core P) : Prop where
  previous : c.state = .expired → c.previous = .expired
  ring : c.state = .expired → ∀ slot, c.ring slot = none
  /-- Packets are queued again once the cycle is restarted. -/
  queue : c.state = .expired → (∀ pending ∈ c.burst, pending.resetExpiredTimers = true) →
    c.queue = []
  owed : ∀ pending ∈ c.burst, pending.resetExpiredTimers = true →
    c.state = .expired ∧ pending.lastPacketAt = none

namespace Spent

/-- A handshake that is not expired owes no reset. -/
theorem of_live (hstate : c.state ≠ .expired)
    (howed : ∀ pending ∈ c.burst, pending.resetExpiredTimers = false) : c.Spent where
  previous hexpired := absurd hexpired hstate
  ring hexpired := absurd hexpired hstate
  queue hexpired := absurd hexpired hstate
  owed pending hmem hreset := by
    rw [howed pending hmem] at hreset
    cases hreset

theorem live_of_usable (h : c.Spent) (husable : c.usable = true) : c.state ≠ .expired := by
  intro hexpired
  obtain ⟨session, hselected, -⟩ := usable_iff.mp husable
  rw [selected, h.ring hexpired] at hselected
  cases hselected

/-- A live handshake is in no restart of an expired one. -/
theorem not_owed (h : c.Spent) (hstate : c.state ≠ .expired) :
    ∀ pending ∈ c.burst, pending.resetExpiredTimers = false := by
  intro pending hmem
  cases hreset : pending.resetExpiredTimers with
  | false => rfl
  | true => exact absurd (h.owed pending hmem hreset).1 hstate

/-- Without a handshake that expired, only the burst counts. -/
theorem of_usable (h : c.Spent) (husable : c.usable = true) (hstate : c'.state = c.state)
    (hburst : c'.burst = c.burst) : c'.Spent := by
  have hlive := h.live_of_usable husable
  refine .of_live (hstate ▸ hlive) ?_
  rw [hburst]
  exact h.not_owed hlive

end Spent

/-! ### One call -/

theorem Emits.spent (h : c.Emits wire c') (hspent : c.Spent) :
    c'.Spent ∧ (c'.state = .expired → ∃ pending ∈ c'.burst, pending.resetExpiredTimers = false) := by
  -- a datagram of the burst leaves the handshake and spends the reset
  have hadvance {kind : OpReport.PacketKind} {owed : Bool} {now : Nat}
      {pending : PendingAmneziaJunk} (hreset : pending.resetExpiredTimers = false) :
      (c.advance kind owed now pending).Spent := {
    previous := hspent.previous
    ring := hspent.ring
    queue := fun _ hall => absurd ((hall pending rfl).symm.trans hreset) nofun
    owed := by
      rintro _ ⟨⟩ hreset'
      exact absurd (hreset'.symm.trans hreset) nofun }
  cases h with
  | imitation | junk => exact ⟨hadvance rfl, fun _ => ⟨_, rfl, rfl⟩⟩
  | deferred => exact ⟨.of_live nofun nofun, nofun⟩
  | direct hnone =>
    refine ⟨.of_live nofun ?_, nofun⟩
    intro pending hmem
    exact absurd (hnone.symm.trans hmem) nofun

theorem Readies.spent (h : c.Readies force c') (hspent : c.Spent) : c'.Spent := by
  cases h with
  | pending | direct => exact hspent
  | @prepared burst hnone _ _ hopens =>
    have hfree : ∀ pending ∈ c.burst, pending.resetExpiredTimers = true := by
      rw [hnone]
      exact nofun
    exact {
      previous := hspent.previous
      ring := hspent.ring
      queue := fun hexpired _ => hspent.queue hexpired hfree
      owed := by
        rintro _ ⟨⟩ hreset
        exact ⟨isExpired_iff.mp (hopens.owed.symm.trans hreset), hopens.last⟩ }

theorem Drives.spent (h : c.Drives force result c') (hspent : c.Spent) : c'.Spent := by
  cases h with
  | busy | paced => exact hspent
  | refused hready => exact hready.spent hspent
  | emitted hready hemits => exact (hemits.spent (hready.spent hspent)).1

/-- A demand that is not refused has restarted the cycle. -/
theorem Drives.restarts (h : c.Drives force result c') (hspent : c.Spent)
    (hok : result.isErr = false) (hexpired : c'.state = .expired) :
    ∃ pending ∈ c'.burst, pending.resetExpiredTimers = false := by
  cases h with
  | busy _ hbusy =>
    unfold inProgress at hbusy
    rw [hexpired] at hbusy
    cases hbusy
  | @paced pending last hburst hlast =>
    refine ⟨pending, hburst, ?_⟩
    cases hreset : pending.resetExpiredTimers with
    | false => rfl
    | true => exact absurd (hlast.symm.trans (hspent.owed pending hburst hreset).2) nofun
  | refused => cases hok
  | emitted hready hemits => exact (hemits.spent (hready.spent hspent)).2 hexpired

theorem Submits.spent (h : c.Submits payload result c') (hspent : c.Spent) : c'.Spent := by
  cases h with
  | refused | full => exact hspent
  | sent husable => exact hspent.of_usable husable rfl rfl
  | failed _ hdrives => exact hdrives.spent hspent
  | queued _ hdrives hok =>
    have hdriven := hdrives.spent hspent
    exact {
      previous := hdriven.previous
      ring := hdriven.ring
      queue := by
        intro hexpired hall
        obtain ⟨pending, hmem, hreset⟩ := hdrives.restarts hspent hok hexpired
        exact absurd ((hall pending hmem).symm.trans hreset) nofun
      owed := hdriven.owed }

theorem Drains.spent (h : c.Drains result c') (hspent : c.Spent) : c'.Spent := by
  cases h with
  | empty => exact hspent
  | driven _ _ hdrives => exact hdrives.spent hspent
  | dropped husable | refused husable | sent husable => exact hspent.of_usable husable rfl rfl

theorem age_spent (hspent : c.Spent) (now : Nat) : (c.age now).Spent where
  previous := hspent.previous
  ring hexpired slot := by
    unfold age
    dsimp only
    rw [hspent.ring hexpired slot, ite_self]
  queue := hspent.queue
  owed := hspent.owed

theorem expire_spent (c : Core P) (time : Nat) : (c.expire time).Spent where
  previous _ := rfl
  ring _ _ := rfl
  queue _ _ := rfl
  owed := nofun

/-- Only the timers of two cores differ. -/
theorem Spent.of_timers {timers : Timers} (hspent : c.Spent) : { c with timers := timers }.Spent :=
  ⟨hspent.previous, hspent.ring, hspent.queue, hspent.owed⟩

theorem Polls.spent {now : Nat} (h : c.Polls now result c') (hspent : c.Spent) : c'.Spent := by
  cases h with
  | waits | expired | withholds => exact hspent
  | burst _ hdrives | retransmits _ _ _ hdrives => exact hdrives.spent hspent
  | expires => exact c.expire_spent _
  | @initiates latched _ _ _ _ _ hdrives _ =>
    cases latched with
    | false => exact hdrives.spent hspent
    | true => exact hdrives.spent hspent.of_timers
  | keepalive _ _ _ _ _ _ hsubmits => exact hsubmits.spent hspent.of_timers
  | owes _ _ _ hready =>
    rcases hready with rfl | hready
    · exact hspent
    · exact hready.spent hspent

theorem Accepts.spent {packet : Authenticated P} (h : c.Accepts packet result c')
    (hspent : c.Spent) : c'.Spent := by
  cases h with
  | answered => exact .of_live nofun nofun
  | @completed response _ _ _ _ _ _ _ _ hsent =>
    rw [select_eq]
    refine .of_live ?_ nofun
    change (c.retire response.isPrevious).state ≠ .expired
    obtain ⟨sent, hsent⟩ := hsent
    unfold retire
    cases hprevious : response.isPrevious with
    | false => exact nofun
    | true =>
      -- the initiation in the other slot has not expired
      rw [hprevious, if_pos rfl] at hsent
      intro hexpired
      exact absurd (hsent.symm.trans (hspent.previous hexpired)) nofun
  | cookie => exact hspent.of_timers
  | data hstored =>
    have hlive : c.state ≠ .expired := by
      intro hexpired
      rw [hspent.ring hexpired] at hstored
      cases hstored
    rw [select_eq]
    exact .of_live hlive (hspent.not_owed hlive)

/-- No call leaves anything alive in an expired cycle. -/
theorem Moves.spent {action : Action P} (h : c.Moves action result c') (hspent : c.Spent) : c'.Spent := by
  cases h with
  | submits h | drains h | demands h | accepts h => exact h.spent hspent
  | polls _ h => exact h.spent (age_spent hspent _)
  | ignores => exact ⟨hspent.previous, hspent.ring, hspent.queue, hspent.owed⟩
  | declines => exact hspent
  | reconfigures _ hburst =>
    rcases hburst with rfl | ⟨datagrams, remaining, -, rfl⟩
    · exact ⟨hspent.previous, hspent.ring, hspent.queue, hspent.owed⟩
    · exact {
        previous := hspent.previous
        ring := hspent.ring
        queue := by
          intro hexpired hall
          refine hspent.queue hexpired fun pending hmem => ?_
          exact hall { pending with imitationDatagrams := datagrams, remaining := remaining }
            (Option.mem_map_of_mem _ hmem)
        owed := by
          intro _ hmem hreset
          obtain ⟨pending, hburst, rfl⟩ := Option.mem_map.mp hmem
          exact hspent.owed pending hburst hreset }
  | keeps => exact hspent.of_timers
  | rekeys => exact ⟨hspent.previous, fun _ _ => rfl, hspent.queue, hspent.owed⟩

theorem new_spent (index : UInt32) (timers : Timers) (obf : ObfuscationRanges)
    (amnezia : AmneziaConfig) : (Core.new index timers obf amnezia : Core P).Spent :=
  .of_live nofun nofun

/-! ### The poll that serves such a burst -/

/-- Nothing but the handshake that the burst leads to. -/
theorem Polls.holds_nothing {now : Nat} {pending : PendingAmneziaJunk} (h : c.Polls now result c')
    (hspent : c.Spent) (hburst : c.burst = some pending)
    (hreset : pending.resetExpiredTimers = true) :
    c'.previous = .expired ∧ (∀ slot, c'.ring slot = none) ∧ c'.queue = [] := by
  have hexpired : c.state = .expired := (hspent.owed pending hburst hreset).1
  have hempty : c.previous = .expired ∧ (∀ slot, c.ring slot = none) ∧ c.queue = [] := by
    refine ⟨hspent.previous hexpired, hspent.ring hexpired, hspent.queue hexpired ?_⟩
    rw [hburst]
    rintro _ ⟨⟩
    exact hreset
  have hsome (hnone : c.burst = none) : False := nomatch hnone.symm.trans hburst
  cases h with
  | waits | expired | withholds => exact hempty
  | burst _ hdrives =>
    cases hdrives with
    | busy hnone => exact (hsome hnone).elim
    | paced => exact hempty
    | refused hready =>
      cases hready with
      | pending => exact hempty
      | prepared hnone | direct hnone => exact (hsome hnone).elim
    | emitted hready hemits =>
      cases hready with
      | pending =>
        cases hemits with
        | imitation | junk => exact hempty
        | deferred => exact ⟨hexpired, hempty.2⟩
        | direct hnone => exact (hsome hnone).elim
      | prepared hnone | direct hnone => exact (hsome hnone).elim
  | expires => exact ⟨rfl, fun _ => rfl, rfl⟩
  | retransmits hnone | initiates hnone | keepalive hnone | owes hnone => exact (hsome hnone).elim

end Core

namespace Tunn

variable {P : Primitives} {t : Tunn P}

theorem Visited.spent (h : t.Visited) : t.core.Spent :=
  h.core Core.Spent (fun index _ _ _ _ obf amnezia => Core.new_spent index _ obf amnezia)
    fun _ _ _ _ hmove => hmove.spent

/-- A burst that is served before the bounds of its cycle has nothing for them to end, and the
poll that serves it adds nothing but its initiation. -/
theorem expired_burst_holds_nothing (t : Tunn P) (h : t.Visited) (pending : PendingAmneziaJunk)
    (hburst : t.pendingAmneziaJunk = some pending) (hreset : pending.resetExpiredTimers = true) :
    t.handshake.state = .expired ∧ t.handshake.previous = .expired ∧
      (∀ slot, t.sessions slot = none) ∧ t.packetQueue = [] ∧ pending.lastPacketAt = none ∧
      ∀ env dst budget,
        (t.updateTimers env dst budget).2.1.handshake.previous = .expired ∧
          (∀ slot, (t.updateTimers env dst budget).2.1.sessions slot = none) ∧
          (t.updateTimers env dst budget).2.1.packetQueue = [] := by
  have hspent : t.core.Spent := h.spent
  obtain ⟨hexpired, hlast⟩ := hspent.owed pending hburst hreset
  refine ⟨hexpired, hspent.previous hexpired, hspent.ring hexpired, hspent.queue hexpired ?_, hlast,
    ?_⟩
  · intro other hmem
    obtain rfl : pending = other := Option.some.inj (hburst.symm.trans hmem)
    exact hreset
  · intro env dst budget
    exact (t.core_updateTimers env dst budget).holds_nothing (Core.age_spent hspent _) hburst hreset

/-- A cycle that lapsed, and a demand for an initiation that found no room. -/
def byteLapsed : Tunn bytePrimitives :=
  ((byteHome.after (byteEnv 0 0)
    (.setObfuscation .default { preHandshakeJunk := .new 2 40 90 0 })).after (byteEnv 600 0)
      (.updateTimers byteBuffer .UNBOUNDED)).after (byteEnv 601 0)
        (.formatHandshakeInitiation [] false .UNBOUNDED)

theorem expired_burst_holds_nothing_byteLapsed :
    (∃ pending, byteLapsed.pendingAmneziaJunk = some pending ∧
      pending.resetExpiredTimers = true ∧ pending.lastPacketAt = none) ∧
      byteLapsed.handshake.state = .expired ∧ byteLapsed.packetQueue = [] := by
  have hvisited : byteLapsed.Visited :=
    (((Reachable.base (byteTunn_isNew 1 6 1)).step ⟨_, _, rfl⟩).step ⟨_, _, rfl⟩).step ⟨_, _, rfl⟩
  have hsome : byteLapsed.pendingAmneziaJunk.any (·.resetExpiredTimers) = true := by
    decide +kernel
  obtain ⟨pending, hburst, hreset⟩ := (Option.any_eq_true _ _).mp hsome
  obtain ⟨hexpired, -, -, hqueue, hlast, -⟩ :=
    expired_burst_holds_nothing byteLapsed hvisited pending hburst hreset
  exact ⟨⟨pending, hburst, hreset, hlast⟩, hexpired, hqueue⟩

end Tunn

end BoringTun
