import BoringTun.Tunn.Commit

/-!
Every call on a tunnel is a run of its `Life` (`after_simulates`): what is accepted from
the peer is one step with a label of its own, and everything else is done in silence.

What is proved of the steps then holds of every state a tunnel reaches:

* `Visited.stampsBehind`: no establishment stamp is ahead of the clock;
* `Visited.settled`: no accepted initiation is left unanswered.
-/

namespace BoringTun

open Life

variable {P : Primitives}

namespace Tunn

variable {t : Tunn P}

/-! ### Setters -/

theorem Rebursts.isSome {amnezia : AmneziaConfig} {burst : Option PendingAmneziaJunk}
    (h : t.Rebursts amnezia burst) : burst.isSome = t.pendingAmneziaJunk.isSome := by
  cases h with
  | kept => rfl
  | idle hnone => rw [hnone]
  | silenced hold | redrawn hold => rw [hold, Option.isSome_some, Option.isSome_some]

theorem setObfuscation_life (obf : ObfuscationRanges) (amnezia : AmneziaConfig) :
    (t.setObfuscation obf amnezia).life = t.life := by
  rcases t.setObfuscation_cases obf amnezia with hsame | hinstalls
  · rw [hsame]
  generalize t.setObfuscation obf amnezia = t' at hinstalls
  cases hinstalls with
  | @mk burst timers rng checked hburst htimers =>
    have hticked : t.timers.Ticked timers := by
      rcases htimers with rfl | ⟨r, rfl⟩
      · exact .of_timers rfl rfl rfl
      · exact t.timers.redrawTunable_ticked _ _
    exact (life_timers { t with pendingAmneziaJunk := burst } hticked).trans
      (t.life_pending hburst.isSome)

theorem setPersistentKeepaliveRange_life (low high : Nat) :
    (t.setPersistentKeepaliveRange low high).2.life = t.life := by
  unfold setPersistentKeepaliveRange
  split
  · exact life_timers t (t.timers.setPersistentKeepaliveRange_ticked _)
  · rfl

theorem setPresharedKey_life (presharedKey : Option P.Value) :
    (t.setPresharedKey presharedKey).life =
      if t.handshake.params.effectivePresharedKey =
          { t.handshake.params with presharedKey := presharedKey }.effectivePresharedKey then
        { t.life with params := { t.handshake.params with presharedKey := presharedKey } }
      else
        { t.life.clearRing with
          params := { t.handshake.params with presharedKey := presharedKey } } := by
  unfold setPresharedKey
  dsimp only
  split <;> rfl

theorem setPresharedKey_step (presharedKey : Option P.Value) :
    Step .rekey t.life (t.setPresharedKey presharedKey).life := by
  rw [setPresharedKey_life]
  split
  · next hsame => exact .rekey true rfl fun _ => ⟨rfl, hsame.symm⟩
  · exact .rekey false rfl nofun

theorem setStaticPrivate_step (staticPrivate : P.Secret) (rateLimiter : Option (RateLimiter P))
    (seed : RateLimiterSeed P) :
    Step .rekey t.life (t.setStaticPrivate staticPrivate rateLimiter seed).life :=
  .rekey false rfl nofun

/-! ### Every call -/

/-- What a call accepts from the peer, as far as the ring goes. -/
def event (t : Tunn P) (env : Env P) : Op P → Option Label
  | .decapsulate source datagram dst budget =>
    if datagram.isEmpty then none
    else (t.accepted env source datagram dst budget).bind t.labelOf
  | _ => none

/-- What an accepted datagram leaves of the life. -/
theorem accepted_life {env : Env P} {source : Option Source} {datagram dst : Bytes}
    {budget : OutputBudget} {packet : Authenticated P} (hne : datagram ≠ [])
    (haccepted : t.accepted env source datagram dst budget = some packet) :
    t.Genuine dst budget packet ∧ ∃ ephemeral,
      (t.after env (.decapsulate source datagram dst budget)).life =
        t.committed ephemeral packet := by
  obtain ⟨hgen, limiter, env', hint, -, hcommit⟩ :=
    decapsulateSource_accepted env source datagram dst budget hne haccepted
  have hcommits := commit_commits (t := { t with rateLimiter := limiter }) env' hgen datagram hint
  rw [← hcommit] at hcommits
  exact ⟨hgen, hcommits.life⟩

/-- Everything a call can do to the life of a tunnel. -/
inductive Transition (t : Tunn P) (env : Env P) : Op P → Life P → Prop where
  /-- A demand of the caller, or none. -/
  | serve {op : Op P} {l : Life P} (hevent : t.event env op = none) (h : Serves t.life l) :
    Transition t env op l
  /-- A demand of the timers, once sessions have aged out. -/
  | poll {dst : Bytes} {budget : OutputBudget} {l : Life P}
    (h : Serves (t.beginPoll env).2.1.life l) : Transition t env (.updateTimers dst budget) l
  /-- A datagram that is accepted. -/
  | commit {source : Option Source} {datagram dst : Bytes} {budget : OutputBudget}
    {packet : Authenticated P} {ephemeral : P.Secret} (hne : datagram ≠ [])
    (haccepted : t.accepted env source datagram dst budget = some packet)
    (hgen : t.Genuine dst budget packet) :
    Transition t env (.decapsulate source datagram dst budget) (t.committed ephemeral packet)
  | presharedKey {presharedKey : Option P.Value} :
    Transition t env (.setPresharedKey presharedKey) (t.setPresharedKey presharedKey).life
  | staticPrivate {staticPrivate : P.Secret} {rateLimiter : Option (RateLimiter P)}
    {seed : RateLimiterSeed P} :
    Transition t env (.setStaticPrivate staticPrivate rateLimiter seed)
      (t.setStaticPrivate staticPrivate rateLimiter seed).life

theorem Transition.same {env : Env P} {op : Op P} {l : Life P} (hevent : t.event env op = none)
    (h : l = t.life) : t.Transition env op l := by
  subst h
  exact .serve hevent (.refl _)

theorem decapsulate_transition (hset : t.life.Settled) (env : Env P) (source : Option Source)
    (datagram dst : Bytes) (budget : OutputBudget) :
    t.Transition env (.decapsulate source datagram dst budget)
      (t.after env (.decapsulate source datagram dst budget)).life := by
  by_cases hempty : datagram = []
  · subst hempty
    exact .serve rfl ((t.sendQueuedPacket_draining env dst budget).serves hset)
  · cases haccepted : t.accepted env source datagram dst budget with
    | none =>
      obtain ⟨rng, hsame, -⟩ :=
        t.decapsulateSource_untouched env source datagram dst budget hempty haccepted
      exact .same (by simp [event, haccepted]) hsame.life
    | some packet =>
      obtain ⟨hgen, ephemeral, hlife⟩ := accepted_life hempty haccepted
      rw [hlife]
      exact .commit hempty haccepted hgen

theorem after_transition (hset : t.life.Settled) (env : Env P) (op : Op P) :
    t.Transition env op (t.after env op).life := by
  cases op with
  | encapsulate src dst budget =>
    exact .serve rfl ((t.encapsulate_submitting env src dst budget).serves hset)
  | decapsulate source datagram dst budget =>
    exact decapsulate_transition hset env source datagram dst budget
  | updateTimers dst budget =>
    obtain ⟨ticked, htick, hage⟩ := beginPoll_steps (t := t) env
    exact .poll (updateTimers_serves env (settled_step hage (settled_step htick hset)) dst budget)
  | formatHandshakeInitiation dst forceResend budget =>
    exact .serve rfl
      (.still ((t.formatHandshakeInitiation_driving env dst forceResend budget).drives hset).1)
  | setObfuscation obf amnezia => exact .same rfl (setObfuscation_life obf amnezia)
  | setPresharedKey presharedKey => exact .presharedKey
  | setStaticPrivate staticPrivate rateLimiter seed => exact .staticPrivate
  | setContentPaddingMtu mtu | resetUdpWindow | discardImitationHint | limiterMoved limiter =>
    exact .same rfl rfl
  | setPersistentKeepalive keepalive =>
    exact .same rfl (life_timers t (t.timers.setPersistentKeepaliveRange_ticked _))
  | setPersistentKeepaliveRange low high =>
    exact .same rfl (setPersistentKeepaliveRange_life low high)

/-- Every call is a run of the life: one step for what it accepts, or silent ones. -/
theorem after_simulates (hset : t.life.Settled) (env : Env P) (op : Op P) :
    match t.event env op with
    | some label => Step label t.life (t.after env op).life
    | none => Steps Step Label.Silent t.life (t.after env op).life := by
  have htransition := after_transition hset env op
  generalize (t.after env op).life = l at htransition
  cases htransition with
  | serve hevent h =>
    rw [hevent]
    exact h.silent
  | poll h =>
    obtain ⟨ticked, htick, hage⟩ := beginPoll_steps (t := t) env
    exact ((Steps.single htick trivial).tail hage trivial).trans h.silent
  | @commit source datagram dst budget packet ephemeral hne haccepted hgen =>
    have hevent : t.event env (.decapsulate source datagram dst budget) = t.labelOf packet := by
      simp [event, hne, haccepted]
    have hstep := committed_step hgen ephemeral
    rw [hevent]
    cases hlabel : t.labelOf packet with
    | some label =>
      rw [hlabel] at hstep
      exact hstep
    | none =>
      rw [hlabel] at hstep
      exact hstep ▸ .refl _
  | presharedKey => exact .single (setPresharedKey_step _) trivial
  | staticPrivate => exact .single (setStaticPrivate_step _ _ _) trivial

/-! ### The states a tunnel reaches -/

/-- One call, with whatever the clock and the entropy of the moment are. -/
def Next (t t' : Tunn P) : Prop := ∃ env op, t' = t.after env op

/-- A tunnel some calls after a constructor returned it. -/
def Visited (t : Tunn P) : Prop := Reachable IsNew Next t

theorem IsNew.blank (h : t.IsNew) : t.life.IsBlank := by
  obtain ⟨_, _, _, _, _, _, _, _, _, hnew⟩ := h
  unfold newWithObfuscation at hnew
  split at hnew
  · cases hnew
  · split at hnew
    · cases hnew
    · cases hnew
      exact ⟨rfl, rfl, fun _ => rfl, fun _ => Nat.le_refl _, rfl⟩

/-- What every step of the life keeps, a call keeps. -/
theorem after_invariant {inv : Life P → Prop}
    (hstep : ∀ label l l', Step label l l' → inv l → inv l') (hset : t.life.Settled)
    (h : inv t.life) (env : Env P) (op : Op P) : inv (t.after env op).life := by
  have hsim := after_simulates hset env op
  split at hsim
  · exact hstep _ _ _ hsim h
  · exact hsim.invariant (fun label l l' _ => hstep label l l') h

theorem Visited.after (h : t.Visited) (env : Env P) (op : Op P) : (t.after env op).Visited :=
  h.step ⟨env, op, rfl⟩

/-- What holds of a blank life and is kept by every step holds of every tunnel. -/
theorem Visited.invariant (h : t.Visited) (inv : Life P → Prop)
    (hblank : ∀ l, l.IsBlank → inv l) (hstep : ∀ label l l', Step label l l' → inv l → inv l') :
    t.life.Settled ∧ inv t.life := by
  refine Reachable.invariant h (fun t => t.life.Settled ∧ inv t.life) ?_ ?_
  · intro t hnew
    exact ⟨hnew.blank.settled, hblank _ hnew.blank⟩
  · rintro t _ ⟨env, op, rfl⟩ ⟨hset, hinv⟩
    exact ⟨after_invariant (fun _ _ _ => settled_step) hset hset env op,
      after_invariant hstep hset hinv env op⟩

theorem Visited.settled (h : t.Visited) : t.life.Settled :=
  (h.invariant Settled (fun _ => IsBlank.settled) fun _ _ _ => settled_step).1

theorem Visited.stampsBehind (h : t.Visited) : t.life.StampsBehind :=
  (h.invariant StampsBehind (fun _ => IsBlank.stamp) fun _ _ _ => stampsBehind_step).2

end Tunn

end BoringTun
