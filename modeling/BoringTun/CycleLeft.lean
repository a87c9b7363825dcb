import BoringTun.BurstOrder
import BoringTun.Dwindling
import BoringTun.ExpiredCycle

/-!
The handshake cycle that is left to a tunnel which is left alone.

* `energy`: the datagrams of the pending burst, and of one burst for every initiation that is
  left; every datagram ahead of a session takes one (`Serves.energy_add_le`);
* `Tally`: the initiations sent, against the limit of their cycle;
* `Paired`: the bursts prepared, against the initiations;
* `cyclesLeft`: the cycles that may still begin, one at most;
* `Ended.moves`: once a cycle is over nothing is sent.
-/

namespace BoringTun

namespace Core

variable {P : Primitives} {c c₁ c' : Core P} {action : Action P} {result : TunnResult}
  {wire : Bytes} {force : Bool} {now n : Nat}

/-! ### The datagrams before a session -/

/-- The initiations that are left: those of the cycle in flight and the one its burst owes, or
those of a cycle that may still begin. -/
def attemptsLeft (c : Core P) : Nat :=
  match c.state with
  | .initSent _ => max c.burst.toList.length
      (c.timers.maxRetransmissionsCurrent - c.timers.handshakeAttempts)
  | .expired => if c.burst.isSome then 2 ^ 32 else 0
  | _ => 2 ^ 32

/-- The datagrams that are left: of the pending burst, and of one burst for every further
initiation. -/
def energy (c : Core P) : Nat :=
  (c.attemptsLeft - c.burst.toList.length) * (c.amnezia.preHandshakeJunk.packetCount + 4) +
    c.owes.length

theorem attemptsLeft_congr (hstate : c'.state = c.state)
    (hburst : c'.burst.toList.length = c.burst.toList.length)
    (hcount : c.timers.SameCount c'.timers) : c'.attemptsLeft = c.attemptsLeft := by
  have hsome : c'.burst.isSome = c.burst.isSome := by
    cases hb : c.burst <;> cases hb' : c'.burst <;> simp_all
  unfold attemptsLeft
  rw [hstate, hburst, hcount.attempts, hcount.limit, hsome]

theorem Calm.energy_eq (h : c.Calm c') : c'.energy = c.energy := by
  have hleft : c'.attemptsLeft = c.attemptsLeft :=
    attemptsLeft_congr h.state (by rw [h.burst]) h.count
  unfold energy
  rw [hleft, h.burst, h.amnezia, owes_congr h.burst]

theorem attemptsLeft_pos (hsome : c.burst.isSome = true) : 0 < c.attemptsLeft := by
  obtain ⟨pending, hburst⟩ := Option.isSome_iff_exists.mp hsome
  unfold attemptsLeft
  rw [hburst]
  split
  · exact Nat.lt_of_lt_of_le Nat.one_pos (Nat.le_max_left _ _)
  · exact Nat.two_pow_pos 32
  · exact Nat.two_pow_pos 32

/-- An initiation is one fewer, in whichever state it finds the handshake. -/
theorem attemptsLeft_initiate (hroom : 0 < c.attemptsLeft)
    (hlimit : c.timers.maxRetransmissionsCurrent < 2 ^ 32) {owed : Bool} {rng : Rng}
    {sent : HandshakeInitSentState P} (hstate : c'.state = .initSent sent)
    (htimers : c'.timers = (c.initiate owed now rng sent).timers) (hburst : c'.burst = none) :
    c'.attemptsLeft + 1 ≤ c.attemptsLeft := by
  have hleft : c'.attemptsLeft =
      c'.timers.maxRetransmissionsCurrent - c'.timers.handshakeAttempts := by
    unfold attemptsLeft
    rw [hstate, hburst]
    exact Nat.zero_max _
  have hbegun (hidle : c.inProgress = false) : c'.attemptsLeft + 1 ≤ 2 ^ 32 := by
    obtain ⟨-, hlimit'⟩ := initiate_first hidle owed now rng sent
    rw [hleft, htimers]
    omega
  have hresent (hbusy : c.inProgress = true) : c'.attemptsLeft =
      c.timers.maxRetransmissionsCurrent - min (c.timers.handshakeAttempts + 1) (2 ^ 32 - 1) := by
    obtain ⟨hattempts, hlimit'⟩ := initiate_again hbusy owed now rng sent
    rw [hleft, htimers, hattempts, hlimit']
  generalize c'.attemptsLeft = left at hbegun hresent ⊢
  unfold inProgress at hbegun hresent
  unfold attemptsLeft at hroom ⊢
  cases hold : c.state with
  | none =>
    rw [hold] at hbegun
    exact hbegun rfl
  | expired =>
    rw [hold] at hbegun hroom
    dsimp only at hroom ⊢
    split at hroom
    · next hsome =>
      rw [if_pos hsome]
      exact hbegun rfl
    · cases hroom
  | initSent sent' =>
    rw [hold] at hresent hroom
    have hfewer := hresent rfl
    dsimp only at hroom ⊢
    omega
  | initReceived =>
    rw [hold] at hresent
    have hfewer := hresent rfl
    dsimp only
    omega

theorem Emits.owes_length (h : c.Emits wire c') (hsome : c.burst.isSome = true) :
    c.owes.length = c'.owes.length + 1 := by
  have hone : (burstItems (.writeToNetwork wire) c'.output).length = 1 := by
    cases h <;> rfl
  rw [h.owes hsome, List.length_append, hone, Nat.add_comm]

/-- Every datagram is one fewer. -/
theorem Emits.energy_succ_le (h : c.Emits wire c') (hroom : 0 < c.attemptsLeft)
    (hlimit : c.timers.maxRetransmissionsCurrent < 2 ^ 32) : c'.energy + 1 ≤ c.energy := by
  have howes := h.owes_length
  have hadvanced {pending : PendingAmneziaJunk} (hburst : c.burst = some pending)
      (hstate : c'.state = c.state) (hpending : c'.burst.toList.length = 1)
      (hcount : c.timers.SameCount c'.timers) (hamnezia : c'.amnezia = c.amnezia) :
      c'.energy + 1 ≤ c.energy := by
    have hone : c.burst.toList.length = 1 := by rw [hburst]; rfl
    unfold energy
    rw [attemptsLeft_congr hstate (hpending.trans hone.symm) hcount, hpending, hone, hamnezia,
      howes (by rw [hburst]; rfl)]
    exact Nat.le_refl _
  have hinitiated {owed : Bool} {now : Nat} {rng : Rng} {sent : HandshakeInitSentState P}
      (hstate : c'.state = .initSent sent)
      (htimers : c'.timers = (c.initiate owed now rng sent).timers) (hnone : c'.burst = none)
      (hamnezia : c'.amnezia = c.amnezia) :
      c'.energy ≤ (c.attemptsLeft - 1) * (c.amnezia.preHandshakeJunk.packetCount + 4) := by
    have hfewer := attemptsLeft_initiate hroom hlimit hstate htimers hnone
    unfold energy
    rw [hnone, hamnezia, owes_eq_nil_iff.mpr hnone]
    exact Nat.mul_le_mul_right _ (Nat.le_sub_one_of_lt hfewer)
  cases h with
  | imitation hburst | junk hburst => exact hadvanced hburst rfl rfl (c.restarted_sameCount _ _) rfl
  | deferred hburst =>
    refine (Nat.add_le_add_right (hinitiated rfl rfl rfl rfl) 1).trans ?_
    have hlast := howes (by rw [hburst]; rfl)
    unfold energy
    rw [hburst, hlast]
    exact Nat.add_le_add_left (Nat.le_add_left _ _) _
  | direct hnone =>
    refine (Nat.add_le_add_right (hinitiated rfl rfl hnone rfl) 1).trans ?_
    have hsucc : c.attemptsLeft = c.attemptsLeft - 1 + 1 := (Nat.sub_add_cancel hroom).symm
    unfold energy
    rw [hnone, owes_eq_nil_iff.mpr hnone]
    nth_rewrite 2 [hsucc]
    rw [Option.toList_none, List.length_nil, Nat.sub_zero, Nat.add_one_mul]
    omega

theorem Readies.attemptsLeft_eq (h : c.Readies force c') (hroom : 0 < c.attemptsLeft) :
    c'.attemptsLeft = c.attemptsLeft := by
  cases h with
  | pending => rfl
  | prepared hnone =>
    unfold attemptsLeft at hroom ⊢
    rw [hnone] at hroom ⊢
    dsimp only at hroom ⊢
    cases hstate : c.state with
    | initSent sent =>
      rw [hstate] at hroom
      dsimp only [Option.toList_none, Option.toList_some, List.length_nil, List.length_singleton]
        at hroom ⊢
      omega
    | expired =>
      rw [hstate] at hroom
      cases hroom
    | none => rfl
    | initReceived => rfl
  | direct => rfl

/-- A new burst is one that an initiation was left for. -/
theorem Readies.energy_le (h : c.Readies force c') (hroom : 0 < c.attemptsLeft) :
    c'.energy ≤ c.energy := by
  have hsame := h.attemptsLeft_eq hroom
  cases h with
  | pending | direct => exact Nat.le_refl _
  | @prepared burst hnone _ hemits hopens =>
    have hlength : { c with burst := some burst }.owes.length ≤
        c.amnezia.preHandshakeJunk.packetCount + 4 := (hopens.owes_length hemits).2
    have hsucc : c.attemptsLeft = c.attemptsLeft - 1 + 1 := (Nat.sub_add_cancel hroom).symm
    unfold energy
    rw [hsame, hnone, owes_eq_nil_iff.mpr hnone]
    nth_rewrite 2 [hsucc]
    rw [Option.toList_none, List.length_nil, Nat.sub_zero, Nat.add_one_mul]
    exact Nat.add_le_add_left hlength _

/-- The limit has room for the initiation a demand would bring. -/
def Rooms (c : Core P) (force : Bool) : Prop :=
  c.burst = none → c.inProgress = false ∨ force = true → 0 < c.attemptsLeft

theorem Readies.attemptsLeft_pos (h : c.Readies force c') (hroom : c.Rooms force) :
    0 < c.attemptsLeft := by
  cases h with
  | pending hburst => exact Core.attemptsLeft_pos (by rw [hburst]; rfl)
  | prepared hnone hstart | direct hnone hstart => exact hroom hnone hstart

theorem Drives.energy_add_le (h : c.Drives force result c') (hroom : c.Rooms force)
    (hlimit : c.timers.maxRetransmissionsCurrent < 2 ^ 32) :
    c'.energy + result.isWriteToNetwork.toNat ≤ c.energy := by
  cases h with
  | busy | paced => exact Nat.le_refl _
  | refused hready => exact hready.energy_le (hready.attemptsLeft_pos hroom)
  | emitted hready hemits =>
    have hpos := hready.attemptsLeft_pos hroom
    have hpos₁ := hready.attemptsLeft_eq hpos ▸ hpos
    rw [← hready.timers_eq] at hlimit
    exact (hemits.energy_succ_le hpos₁ hlimit).trans (hready.energy_le hpos)

/-- An expired cycle whose burst is gone is over. -/
def Lives (c : Core P) : Prop := c.isExpired = true → c.burst.isSome = true

theorem Lives.rooms (h : c.Lives) (halone : action.Alone)
    (hforces : force = true → c.Forces action) : c.Rooms force := by
  intro hnone hstart
  unfold attemptsLeft
  cases hstate : c.state with
  | none | initReceived => exact Nat.two_pow_pos 32
  | expired =>
    have hsome := h (isExpired_iff.mpr hstate)
    rw [hnone] at hsome
    cases hsome
  | initSent sent =>
    have hforce : force = true := by
      unfold inProgress at hstart
      rw [hstate] at hstart
      exact hstart.resolve_left nofun
    cases hforces hforce with
    | demanded h =>
      rw [h] at halone
      exact halone.elim
    | pending h =>
      rw [hnone] at h
      cases h
    | retransmits h => exact Nat.lt_of_lt_of_le (Nat.sub_pos_of_lt h) (Nat.le_max_right _ _)
    | idle h => exact absurd hstate (h sent)

theorem Calm.rooms (h : c.Calm c') (hroom : c.Rooms force) : c'.Rooms force := by
  intro hnone hstart
  have hleft : c'.attemptsLeft = c.attemptsLeft :=
    attemptsLeft_congr h.state (by rw [h.burst]) h.count
  rw [hleft]
  rw [h.burst] at hnone
  rw [inProgress_congr h.state] at hstart
  exact hroom hnone hstart

theorem Ended.attemptsLeft_eq (h : c.Ended) : c.attemptsLeft = 0 := by
  unfold attemptsLeft
  rw [h.state, h.burst]
  rfl

theorem Ended.energy_eq (h : c.Ended) : c.energy = 0 := by
  unfold energy
  rw [h.attemptsLeft_eq, owes_eq_nil_iff.mpr h.burst, Nat.zero_sub, Nat.zero_mul]
  rfl

/-- A call sent a datagram ahead of a session. -/
def precedes (result : TunnResult) (kind : OpReport.PacketKind) : Bool :=
  result.isWriteToNetwork && kind.isPreHandshake

theorem Serves.energy_add_le (h : c.Serves action result c') (halone : action.Alone)
    (hlive : c.Lives) (hlimit : c.timers.maxRetransmissionsCurrent < 2 ^ 32) :
    c'.energy + (precedes result c'.output).toNat ≤ c.energy := by
  unfold precedes
  cases h with
  | calm hcalm hkind =>
    have hnone : (result.isWriteToNetwork && c'.output.isPreHandshake) = false := by
      cases hwrites : result.isWriteToNetwork with
      | false => rfl
      | true => exact hkind hwrites
    rw [hnone, hcalm.energy_eq]
    exact Nat.le_refl _
  | drives hbefore hforces hdrives hafter houtput =>
    rw [← hbefore.count.limit] at hlimit
    have hstep := hdrives.energy_add_le (hbefore.rooms (hlive.rooms halone hforces)) hlimit
    rw [hafter.energy_eq, ← hbefore.energy_eq]
    refine (Nat.add_le_add_left ?_ _).trans hstep
    cases result.isWriteToNetwork with
    | false => exact Nat.le_refl _
    | true => exact Bool.toNat_le _
  | ends hresult hended =>
    rw [hended.energy_eq, hresult]
    exact Nat.zero_le _

/-! ### The end -/

theorem Spent.ended (h : c.Spent) (hexpired : c.isExpired = true) (hnone : c.burst = none) :
    c.Ended where
  state := isExpired_iff.mp hexpired
  ring := h.ring (isExpired_iff.mp hexpired)
  queue := h.queue (isExpired_iff.mp hexpired) (by rw [hnone]; exact nofun)
  burst := hnone

theorem Ended.not_usable (h : c.Ended) : c.usable = false := by
  unfold usable selected
  rw [h.ring]
  rfl

theorem Ended.age (h : c.Ended) (now : Nat) : (c.age now).Ended where
  state := h.state
  ring slot := by
    unfold Core.age
    dsimp only
    rw [h.ring, ite_self]
  queue := h.queue
  burst := h.burst

theorem Ended.isExpired (h : c.Ended) : c.isExpired = true := isExpired_iff.mpr h.state

theorem Ended.inProgress_eq (h : c.Ended) : c.inProgress = false := by
  unfold inProgress
  rw [h.state]

theorem Ended.polls (h : c.Ended) (hpolls : c.Polls now result c')
    (hoff : c.timers.persistentKeepaliveOn = false) :
    c' = c ∧ result.isWriteToNetwork = false := by
  have hnone := h.burst
  have hdead (hlive : c.isExpired = false) : c' = c ∧ result.isWriteToNetwork = false :=
    absurd (hlive.symm.trans h.isExpired) Bool.false_ne_true
  cases hpolls with
  | waits | expired => exact ⟨rfl, rfl⟩
  | burst hburst => exact absurd (hnone.symm.trans hburst) nofun
  | expires hlive =>
    rcases hlive with hlive | hsome
    · exact hdead hlive
    · rw [hnone] at hsome
      cases hsome
  | retransmits _ hsent => exact absurd (h.state.symm.trans hsent) nofun
  | initiates _ _ hlive | withholds _ hlive => exact hdead hlive
  | keepalive _ _ hdue _ hon hlive =>
    obtain ⟨rfl, rfl⟩ := passive_of_off hoff hdue hon
    exact hdead (hlive.resolve_right Bool.false_ne_true)
  | owes _ _ _ _ hlive =>
    refine hdead (hlive.resolve_right fun hon => ?_)
    exact absurd (hoff.symm.trans hon) Bool.false_ne_true

/-- Nothing is sent once the cycle is over. -/
theorem Ended.moves (h : c.Ended) (hmoves : c.Moves action result c') (halone : action.Alone)
    (hoff : c.timers.persistentKeepaliveOn = false) :
    c'.Ended ∧ result.isWriteToNetwork = false ∧ c.timers.SameCount c'.timers := by
  cases hmoves with
  | drains hdrains =>
    have hidle {c' : Core P} (husable : c.usable = true) :
        c'.Ended ∧ result.isWriteToNetwork = false ∧ c.timers.SameCount c'.timers :=
      absurd (h.not_usable.symm.trans husable) Bool.false_ne_true
    cases hdrains with
    | empty => exact ⟨h, rfl, .refl _⟩
    | driven _ hqueued => exact absurd h.queue hqueued
    | dropped husable | refused husable | sent husable => exact hidle husable
  | @polls now _ _ _ hpolls =>
    obtain ⟨rfl, hquiet⟩ := (h.age now).polls hpolls hoff
    exact ⟨h.age now, hquiet, rfl, rfl⟩
  | _ => exact halone.elim

/-! ### The cycle that is left -/

/-- `n` initiations were sent, all of them of the cycle that is in flight or over. -/
inductive Tally (c : Core P) : Nat → Prop where
  | waiting (hidle : ∀ sent, c.state ≠ .initSent sent) : Tally c 0
  | cycling {n : Nat} {sent : HandshakeInitSentState P} (hsent : c.state = .initSent sent)
    (hle : n + c.attemptsLeft ≤ c.timers.maxRetransmissionsCurrent + 1) : Tally c n
  | spent {n : Nat} (hended : c.Ended) (hle : n ≤ c.timers.maxRetransmissionsCurrent + 1) :
    Tally c n

theorem Tally.le (h : c.Tally n) : n ≤ c.timers.maxRetransmissionsCurrent + 1 := by
  cases h with
  | waiting => exact Nat.zero_le _
  | cycling _ hle => exact Nat.le_of_add_right_le hle
  | spent _ hle => exact hle

/-- Nothing was sent yet, whatever the state. -/
theorem Tally.zero (c : Core P) : c.Tally 0 := by
  by_cases hsent : ∃ sent, c.state = .initSent sent
  · obtain ⟨sent, hsent⟩ := hsent
    refine .cycling hsent ?_
    unfold attemptsLeft
    rw [hsent]
    dsimp only
    have hone : c.burst.toList.length ≤ 1 := by cases c.burst <;> simp
    omega
  · exact .waiting fun sent h => hsent ⟨sent, h⟩

theorem Tally.congr (h : c.Tally n) (hlive : c.Lives) (hstate : c'.state = c.state)
    (hleft : c'.attemptsLeft = c.attemptsLeft) (hcount : c.timers.SameCount c'.timers) :
    c'.Tally n := by
  cases h with
  | waiting hidle => exact .waiting fun sent => hstate ▸ hidle sent
  | cycling hsent hle =>
    refine .cycling (hstate.trans hsent) ?_
    rw [hleft, hcount.limit]
    exact hle
  | spent hended =>
    have hsome := hlive hended.isExpired
    rw [hended.burst] at hsome
    cases hsome

theorem Emits.tally (h : c.Emits wire c') (htally : c.Tally n) (hlive : c.Lives)
    (hroom : 0 < c.attemptsLeft) (hlimit : c.timers.maxRetransmissionsCurrent < 2 ^ 32) :
    c'.Tally (n + initiations (.writeToNetwork wire) c'.output) := by
  have hadvanced {pending : PendingAmneziaJunk} (hburst : c.burst = some pending)
      (hstate : c'.state = c.state) (hpending : c'.burst.toList.length = 1)
      (hcount : c.timers.SameCount c'.timers) : c'.Tally n := by
    have hone : c.burst.toList.length = 1 := by rw [hburst]; rfl
    exact htally.congr hlive hstate
      (attemptsLeft_congr hstate (hpending.trans hone.symm) hcount) hcount
  have hinitiated {owed : Bool} {now : Nat} {rng : Rng} {sent : HandshakeInitSentState P}
      (hstate : c'.state = .initSent sent)
      (htimers : c'.timers = (c.initiate owed now rng sent).timers) (hnone : c'.burst = none) :
      c'.Tally (n + 1) := by
    have hfewer := attemptsLeft_initiate hroom hlimit hstate htimers hnone
    refine .cycling hstate ?_
    cases htally with
    | waiting =>
      unfold attemptsLeft
      rw [hstate, hnone]
      dsimp only [Option.toList_none, List.length_nil]
      omega
    | cycling hsent hle =>
      have hbusy : c.inProgress = true := by
        unfold inProgress
        rw [hsent]
      obtain ⟨-, hsame⟩ := initiate_again hbusy owed now rng sent
      rw [← htimers] at hsame
      omega
    | spent hended =>
      have hsome := hlive hended.isExpired
      rw [hended.burst] at hsome
      cases hsome
  cases h with
  | imitation hburst | junk hburst => exact hadvanced hburst rfl rfl (c.restarted_sameCount _ _)
  | deferred => exact hinitiated rfl rfl rfl
  | direct hnone => exact hinitiated rfl rfl hnone

theorem Readies.lives (h : c.Readies force c') (hlive : c.Lives) : c'.Lives := by
  cases h with
  | pending | direct => exact hlive
  | prepared => exact fun _ => rfl

theorem Emits.lives (h : c.Emits wire c') : c'.Lives := by
  cases h with
  | imitation | junk => exact fun _ => rfl
  | deferred | direct => exact nofun

theorem Drives.lives (h : c.Drives force result c') (hlive : c.Lives) : c'.Lives := by
  cases h with
  | busy | paced => exact hlive
  | refused hready => exact hready.lives hlive
  | emitted _ hemits => exact hemits.lives

theorem Drives.tally (h : c.Drives force result c') (htally : c.Tally n) (hlive : c.Lives)
    (hroom : c.Rooms force) (hlimit : c.timers.maxRetransmissionsCurrent < 2 ^ 32) :
    c'.Tally (n + initiations result c'.output) := by
  have hready {c₁ : Core P} (h : c.Readies force c₁) : c₁.Tally n ∧ 0 < c₁.attemptsLeft := by
    have hpos := h.attemptsLeft_pos hroom
    have hleft := h.attemptsLeft_eq hpos
    refine ⟨htally.congr hlive h.state_eq hleft ?_, hleft ▸ hpos⟩
    rw [h.timers_eq]
    exact .refl _
  cases h with
  | busy | paced => exact htally
  | refused h he => exact (hready h).1
  | emitted h hemits =>
    obtain ⟨htally₁, hpos⟩ := hready h
    rw [← h.timers_eq] at hlimit
    exact hemits.tally htally₁ (h.lives hlive) hpos hlimit

theorem Calm.lives (h : c.Calm c') (hlive : c.Lives) : c'.Lives := by
  intro hexpired
  rw [h.burst]
  refine hlive ?_
  unfold isExpired at hexpired ⊢
  rw [← h.state]
  exact hexpired

theorem Calm.tally (h : c.Calm c') (htally : c.Tally n) (hlive : c.Lives) : c'.Tally n :=
  htally.congr hlive h.state (attemptsLeft_congr h.state (by rw [h.burst]) h.count) h.count

theorem Serves.tally (h : c.Serves action result c') (htally : c.Tally n) (halone : action.Alone)
    (hlive : c.Lives) (hlimit : c.timers.maxRetransmissionsCurrent < 2 ^ 32) :
    c'.Tally (n + initiations result c'.output) := by
  cases h with
  | calm hcalm hkind =>
    rw [initiations_eq_zero hkind]
    exact hcalm.tally htally hlive
  | drives hbefore hforces hdrives hafter houtput =>
    rw [houtput]
    have hlive₁ := hbefore.lives hlive
    rw [← hbefore.count.limit] at hlimit
    have hdriven := hdrives.tally (hbefore.tally htally hlive) hlive₁
      (hbefore.rooms (hlive.rooms halone hforces)) hlimit
    exact hafter.tally hdriven (hdrives.lives hlive₁)
  | ends hresult hended hcount =>
    rw [hresult]
    refine .spent hended ?_
    rw [hcount.limit]
    exact htally.le

/-- The cycles that may still begin. -/
def cyclesLeft (c : Core P) : Nat := if c.inProgress then 0 else min 1 c.attemptsLeft

/-- A call started a cycle. -/
def startsCycle (c c' : Core P) : Bool := !c.inProgress && c'.inProgress

/-- A call prepared a burst. -/
def opensBurst (c c' : Core P) : Bool := c.burst.isNone && c'.burst.isSome

theorem Drives.burst_balance (h : c.Drives force result c') :
    (c.opensBurst c').toNat + c.burst.toList.length ≤
      initiations result c'.output + c'.burst.toList.length := by
  have hsame : (c.opensBurst c).toNat + c.burst.toList.length ≤
      initiations result c'.output + c.burst.toList.length := by
    unfold opensBurst
    cases c.burst <;> simp
  unfold opensBurst
  cases h with
  | busy | paced => exact hsame
  | refused hready =>
    cases hready with
    | pending | direct => exact hsame
    | prepared hnone =>
      rw [hnone]
      exact Nat.le_add_left _ _
  | emitted hready hemits =>
    cases hready with
    | pending hburst =>
      rw [hburst]
      cases hemits with
      | imitation | junk => exact Nat.le_add_left _ _
      | deferred => exact Nat.le_refl _
      | direct hnone => exact absurd (hburst.symm.trans hnone) nofun
    | prepared hnone =>
      rw [hnone]
      cases hemits with
      | imitation | junk => exact Nat.le_add_left _ _
      | deferred => exact Nat.zero_le _
      | direct hburst => cases hburst
    | direct hnone =>
      rw [hnone]
      cases hemits with
      | imitation | junk => exact Nat.le_add_left _ _
      | deferred => exact Nat.zero_le _
      | direct =>
        dsimp only [initiate]
        rw [hnone]
        exact Nat.zero_le _

/-- The bursts so far, each but the last with an initiation of its own. -/
def Paired (c : Core P) (bursts n : Nat) : Prop :=
  bursts ≤ n + c.burst.toList.length ∨ c.Ended ∧ bursts ≤ n + 1

theorem opensBurst_eq_false (h : c'.burst = c.burst ∨ c'.burst = none) :
    c.opensBurst c' = false := by
  unfold opensBurst
  rcases h with h | h
  · rw [h]
    cases c.burst <;> rfl
  · rw [h]
    exact Bool.and_false _

theorem Serves.paired {bursts : Nat} (h : c.Serves action result c') (hlive : c.Lives)
    (hpaired : c.Paired bursts n) :
    c'.Paired (bursts + (c.opensBurst c').toNat) (n + initiations result c'.output) := by
  have hle : bursts ≤ n + c.burst.toList.length := by
    rcases hpaired with hle | ⟨hended, -⟩
    · exact hle
    · have hsome := hlive hended.isExpired
      rw [hended.burst] at hsome
      cases hsome
  cases h with
  | calm hcalm =>
    rw [opensBurst_eq_false (.inl hcalm.burst)]
    refine .inl ?_
    rw [hcalm.burst]
    exact hle.trans (Nat.add_le_add_right (Nat.le_add_right _ _) _)
  | drives hbefore _ hdrives hafter houtput =>
    have hbalance := hdrives.burst_balance
    refine .inl ?_
    unfold opensBurst at hbalance ⊢
    rw [hbefore.burst] at hbalance
    rw [hafter.burst, houtput]
    omega
  | ends hresult hended =>
    rw [opensBurst_eq_false (.inr hended.burst)]
    refine .inr ⟨hended, ?_⟩
    have hone : c.burst.toList.length ≤ 1 := by cases c.burst <;> simp
    simp only [Bool.toNat_false]
    omega

theorem Emits.attemptsLeft_le (h : c.Emits wire c') (hroom : 0 < c.attemptsLeft)
    (hlimit : c.timers.maxRetransmissionsCurrent < 2 ^ 32) : c'.attemptsLeft ≤ c.attemptsLeft := by
  have hadvanced {pending : PendingAmneziaJunk} (hburst : c.burst = some pending)
      (hstate : c'.state = c.state) (hpending : c'.burst.toList.length = 1)
      (hcount : c.timers.SameCount c'.timers) : c'.attemptsLeft ≤ c.attemptsLeft := by
    have hone : c.burst.toList.length = 1 := by rw [hburst]; rfl
    exact Nat.le_of_eq (attemptsLeft_congr hstate (hpending.trans hone.symm) hcount)
  cases h with
  | imitation hburst | junk hburst => exact hadvanced hburst rfl rfl (c.restarted_sameCount _ _)
  | deferred =>
    exact Nat.le_of_succ_le (attemptsLeft_initiate hroom hlimit rfl rfl rfl)
  | direct hnone =>
    exact Nat.le_of_succ_le (attemptsLeft_initiate hroom hlimit rfl rfl hnone)

theorem Emits.inProgress (h : c.Emits wire c') (hbusy : c.inProgress = true) :
    c'.inProgress = true := by
  cases h with
  | imitation | junk => exact hbusy
  | deferred => rfl
  | direct => rfl

theorem Drives.cyclesLeft_add_le (h : c.Drives force result c') (hroom : c.Rooms force)
    (hlimit : c.timers.maxRetransmissionsCurrent < 2 ^ 32) :
    c'.cyclesLeft + (c.startsCycle c').toNat ≤ c.cyclesLeft := by
  have hsame {c' : Core P} (hstate : c'.state = c.state) (hleft : c'.attemptsLeft = c.attemptsLeft) :
      c'.cyclesLeft + (c.startsCycle c').toNat ≤ c.cyclesLeft := by
    unfold cyclesLeft startsCycle
    rw [hleft, inProgress_congr hstate, Bool.not_and_self]
    exact Nat.le_refl _
  cases h with
  | busy | paced => exact hsame rfl rfl
  | refused hready => exact hsame hready.state_eq (hready.attemptsLeft_eq (hready.attemptsLeft_pos hroom))
  | emitted hready hemits =>
    have hpos := hready.attemptsLeft_pos hroom
    have hleft := hready.attemptsLeft_eq hpos
    have hprogress := inProgress_congr hready.state_eq
    rw [← hready.timers_eq] at hlimit
    have hle := hemits.attemptsLeft_le (hleft ▸ hpos) hlimit
    have hstays := hemits.inProgress
    unfold cyclesLeft startsCycle
    rw [hprogress] at hstays
    rw [hleft] at hle
    cases hbusy : c.inProgress with
    | true =>
      rw [hstays hbusy]
      exact Nat.le_refl _
    | false =>
      cases hbusy' : c'.inProgress with
      | true =>
        rw [if_pos rfl, if_neg Bool.false_ne_true]
        exact Nat.le_min.mpr ⟨Nat.le_refl _, hpos⟩
      | false =>
        rw [if_neg Bool.false_ne_true, if_neg Bool.false_ne_true]
        exact Nat.le_min.mpr ⟨Nat.min_le_left _ _, (Nat.min_le_right _ _).trans hle⟩

theorem Calm.cyclesLeft_eq (h : c.Calm c') : c'.cyclesLeft = c.cyclesLeft := by
  unfold cyclesLeft
  rw [inProgress_congr h.state, attemptsLeft_congr h.state (by rw [h.burst]) h.count]

theorem Ended.cyclesLeft_add_le (h : c'.Ended) :
    c'.cyclesLeft + (c.startsCycle c').toNat ≤ c.cyclesLeft := by
  unfold cyclesLeft startsCycle
  rw [h.inProgress_eq, h.attemptsLeft_eq, Bool.and_false]
  exact Nat.zero_le _

theorem Serves.cyclesLeft_add_le (h : c.Serves action result c') (halone : action.Alone)
    (hlive : c.Lives) (hlimit : c.timers.maxRetransmissionsCurrent < 2 ^ 32) :
    c'.cyclesLeft + (c.startsCycle c').toNat ≤ c.cyclesLeft := by
  cases h with
  | calm hcalm =>
    unfold startsCycle
    rw [hcalm.cyclesLeft_eq, inProgress_congr hcalm.state, Bool.not_and_self]
    exact Nat.le_refl _
  | drives hbefore hforces hdrives hafter =>
    rw [← hbefore.count.limit] at hlimit
    have hstep := hdrives.cyclesLeft_add_le (hbefore.rooms (hlive.rooms halone hforces)) hlimit
    unfold startsCycle at hstep ⊢
    rw [inProgress_congr hbefore.state, hbefore.cyclesLeft_eq] at hstep
    rw [inProgress_congr hafter.state, hafter.cyclesLeft_eq]
    exact hstep
  | ends _ hended => exact hended.cyclesLeft_add_le

end Core

end BoringTun
