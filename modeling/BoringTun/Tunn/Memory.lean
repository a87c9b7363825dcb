import BoringTun.Handshake.AntiReplay
import BoringTun.Tunn.Simulation

/-!
Every call on a tunnel as a run of what its handshake remembers (`after_trace`): what is
heard from the peer is one step, and everything else are steps of the tunnel's own.
-/

namespace BoringTun

open Handshake (Step Event Memory)

variable {P : Primitives}

namespace Tunn

/-- What the handshake of a tunnel remembers. -/
def memory (t : Tunn P) : Memory P := t.handshake.memory

variable {t t' : Tunn P}

/-! ### Calls that accept nothing -/

/-- The handshake got from `t` to `t'` by itself. -/
def Moves (t t' : Tunn P) : Prop := Steps Step Event.Own t.memory t'.memory

theorem Moves.same (h : t'.memory = t.memory) : t.Moves t' := by
  unfold Moves
  rw [h]
  exact .refl _

theorem Moves.trans {t'' : Tunn P} (h : t.Moves t') (h' : t'.Moves t'') : t.Moves t'' :=
  Steps.trans h h'

theorem noteRefusal_moves (h : t.Moves t') (result : TunnResult) :
    t.Moves (t'.noteRefusal result) := by
  refine h.trans (.same ?_)
  unfold noteRefusal
  split <;> rfl

theorem spendKeepalives_moves (passive persistent : Bool) :
    t.Moves (t.spendKeepalives passive persistent) := by
  rw [spendKeepalives_eq]
  exact .same rfl

theorem spendLatch_moves (latch : Option Nat) : t.Moves (t.spendLatch latch) := by
  cases latch <;> exact .same rfl

theorem forgetOldCookie_moves (now : Nat) : t.Moves (t.forgetOldCookie now) := by
  unfold forgetOldCookie
  split
  · exact .single .forgetCookie trivial
  · exact .same rfl

section

variable {env env' : Env P} {src dst wire : Bytes} {force owed : Bool} {budget : OutputBudget}
  {result : TunnResult}

theorem Initiates.moves (h : t.Initiates dst budget owed wire t') : t.Moves t' := by
  cases h with
  | @mk now env rng => exact .single (.initiate env) trivial

theorem Emitting.moves (h : t.Emitting dst budget wire t') : t.Moves t' := by
  cases h with
  | imitation | junk => exact .same rfl
  | deferred _ _ _ hinitiates | direct _ hinitiates => exact hinitiates.moves

theorem Readying.moves (h : t.Readying force t') : t.Moves t' := by
  cases h <;> exact .same rfl

theorem Driving.moves (h : t.Driving env dst force budget result t' env') : t.Moves t' := by
  cases h with
  | busy | paced => exact .same rfl
  | refused hready => exact hready.moves
  | emitted hready hemits => exact hready.moves.trans hemits.moves

theorem Submitting.moves (h : t.Submitting env src dst budget result t' env') : t.Moves t' := by
  cases h with
  | refused | sent | full => exact .same rfl
  | failed _ _ hdrives | queued _ _ hdrives => exact hdrives.moves

theorem Draining.moves (h : t.Draining env dst budget result t' env') : t.Moves t' := by
  cases h with
  | driven _ _ hdrives => exact hdrives.moves
  | _ => exact .same rfl

theorem Polling.moves (h : t.Polling env dst budget result t' env') : t.Moves t' := by
  cases h with
  | waits | expired | withholds => exact .same rfl
  | burst _ hdrives => exact hdrives.moves
  | expires => exact .single .expire trivial
  | retransmits _ _ _ hdrives => exact noteRefusal_moves hdrives.moves _
  | initiates _ _ _ hdrives =>
    exact noteRefusal_moves ((spendLatch_moves _).trans hdrives.moves) _
  | keepalive _ _ _ _ _ _ hsubmits =>
    exact noteRefusal_moves ((spendKeepalives_moves _ _).trans hsubmits.moves) _
  | owes _ _ _ hready =>
    rcases hready with rfl | hready
    · exact .same rfl
    · exact hready.moves

end

theorem updateTimers_moves (env : Env P) (dst : Bytes) (budget : OutputBudget) :
    t.Moves (t.updateTimers env dst budget).2.1 := by
  have hbegin : t.Moves (t.beginPoll env).2.1 := .same rfl
  obtain ⟨t₁, hstart, hpolls⟩ := t.updateTimers_polling env dst budget
  rcases hstart with rfl | rfl
  · exact hbegin.trans hpolls.moves
  · exact hbegin.trans ((forgetOldCookie_moves _).trans hpolls.moves)

/-! ### Setters -/

theorem memory_setObfuscation (obf : ObfuscationRanges) (amnezia : AmneziaConfig) :
    (t.setObfuscation obf amnezia).memory = t.memory := by
  rcases t.setObfuscation_cases obf amnezia with hsame | hinstalls
  · rw [hsame]
  · generalize t.setObfuscation obf amnezia = t' at hinstalls
    cases hinstalls
    rfl

theorem setObfuscation_moves (obf : ObfuscationRanges) (amnezia : AmneziaConfig) :
    t.Moves (t.setObfuscation obf amnezia) :=
  .same (memory_setObfuscation obf amnezia)

theorem setPresharedKey_moves (presharedKey : Option P.Value) :
    t.Moves (t.setPresharedKey presharedKey) := by
  have hstep : Step .rekey t.memory (t.handshake.setPresharedKey presharedKey).memory :=
    .rekey { t.handshake.params with presharedKey := presharedKey } rfl
  unfold setPresharedKey
  dsimp only
  split
  · exact .single hstep trivial
  · exact .single hstep trivial

theorem setStaticPrivate_moves (staticPrivate : P.Secret) (rateLimiter : Option (RateLimiter P))
    (seed : RateLimiterSeed P) : t.Moves (t.setStaticPrivate staticPrivate rateLimiter seed) :=
  .single (.rekey (t.handshake.params.setStaticPrivate staticPrivate) rfl) trivial

/-! ### What is heard -/

/-- The packet a call accepts from the peer. -/
def heard (t : Tunn P) (env : Env P) : Op P → Option (Authenticated P)
  | .decapsulate source datagram dst budget =>
    if datagram.isEmpty then none else t.accepted env source datagram dst budget
  | _ => none

/-- The steps a call takes, by what it heard. -/
def Reports : Option (Authenticated P) → List (Event P) → Prop
  | none, events => ∀ event ∈ events, event.Own
  | some (.handshakeInit init), events => ∃ params packet, events = [.accept params packet init]
  | some (.handshakeResponse response), events => events = [.complete response.isPrevious]
  | some (.cookieReply _), events => events = [.cookie]
  | some (.data ..), events => events = []

/-- Committing a packet is one step of the handshake, and none for transport. -/
theorem Accepting.trace {dst : Bytes} {budget : OutputBudget} {packet : Authenticated P}
    {result : TunnResult} (h : t.Accepting dst budget packet result t')
    (hgen : t.Genuine dst budget packet) :
    ∃ events, Reports (some packet) events ∧ Trace Step t.memory events t'.memory := by
  cases h with
  | @answered init _ env =>
    obtain ⟨-, -, raw, hauth⟩ := hgen
    exact ⟨_, ⟨t.handshake.params, raw, rfl⟩, .single (.accept env _ hauth)⟩
  | completed =>
    obtain ⟨-, -, now, raw, hauth⟩ := hgen
    exact ⟨_, rfl, .single (.complete hauth)⟩
  | cookie =>
    obtain ⟨raw, hauth⟩ := hgen
    exact ⟨_, rfl, .single (.cookie hauth)⟩
  | data => exact ⟨_, rfl, .nil _⟩

theorem commit_trace (env : Env P) {dst : Bytes} {budget : OutputBudget}
    {packet : Authenticated P} (hgen : t.Genuine dst budget packet) (datagram : Bytes)
    (hint : Option AmneziaImitationProtocol) :
    ∃ events, Reports (some packet) events ∧ Trace Step t.memory events
      (t.commitWithImitationAndBudget env packet datagram hint dst budget).2.1.memory := by
  obtain ⟨auto, -, haccepts⟩ := commit_accepting env hgen datagram hint
  exact haccepts.trace hgen

/-- Every call is a run of the handshake's memory, with the steps its input asks for. -/
theorem after_trace (t : Tunn P) (env : Env P) (op : Op P) :
    ∃ events, Reports (t.heard env op) events ∧
      Trace Step t.memory events (t.after env op).memory := by
  cases op with
  | encapsulate src dst budget =>
    exact Trace.of_steps (t.encapsulate_submitting env src dst budget).moves
  | decapsulate source datagram dst budget =>
    by_cases hempty : datagram = []
    · subst hempty
      exact Trace.of_steps (t.sendQueuedPacket_draining env dst budget).moves
    · have hheard : t.heard env (.decapsulate source datagram dst budget) =
          t.accepted env source datagram dst budget := by
        simp [heard, hempty]
      rw [hheard]
      cases haccepted : t.accepted env source datagram dst budget with
      | none =>
        obtain ⟨rng, ⟨limiter, pending, outputKind, -, hsame⟩, -⟩ :=
          t.decapsulateSource_untouched env source datagram dst budget hempty haccepted
        have hmoves : t.Moves (t.after env (.decapsulate source datagram dst budget)) :=
          .same ((congrArg memory hsame).trans rfl)
        exact Trace.of_steps hmoves
      | some packet =>
        obtain ⟨hgen, limiter, env', hint, -, hcommit⟩ :=
          decapsulateSource_accepted env source datagram dst budget hempty haccepted
        have htrace := commit_trace (t := { t with rateLimiter := limiter }) env' hgen datagram hint
        rw [← hcommit] at htrace
        exact htrace
  | updateTimers dst budget => exact Trace.of_steps (updateTimers_moves env dst budget)
  | formatHandshakeInitiation dst forceResend budget =>
    exact Trace.of_steps (t.formatHandshakeInitiation_driving env dst forceResend budget).moves
  | setObfuscation obf amnezia => exact Trace.of_steps (setObfuscation_moves obf amnezia)
  | setPresharedKey presharedKey => exact Trace.of_steps (setPresharedKey_moves presharedKey)
  | setStaticPrivate staticPrivate rateLimiter seed =>
    exact Trace.of_steps (setStaticPrivate_moves staticPrivate rateLimiter seed)
  | setPersistentKeepaliveRange low high =>
    refine Trace.of_steps (Moves.same ?_)
    change (t.setPersistentKeepaliveRange low high).2.memory = t.memory
    unfold setPersistentKeepaliveRange
    split <;> rfl
  | setContentPaddingMtu mtu | setPersistentKeepalive keepalive | resetUdpWindow
  | discardImitationHint | limiterMoved limiter => exact ⟨[], nofun, .nil _⟩

end Tunn

end BoringTun
