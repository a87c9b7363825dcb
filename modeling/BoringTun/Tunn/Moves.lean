import BoringTun.Handshake.Memory
import BoringTun.Tunn.Core
import BoringTun.Tunn.Simulation

/-!
Every call on a tunnel is a move of its `Core` (`core_after`).

What is left after `Tunn.Core` is what a tunnel receives and its setters: a datagram that is
not accepted leaves the core as it was, but for the kind of the output, and an accepted one is
committed (`core_commit`). `Visited.core` then carries what every move keeps to every tunnel.
-/

namespace BoringTun

open AmneziaConfig

variable {P : Primitives}

namespace Tunn

variable (t : Tunn P)

/-! ### Not accepted -/

theorem Untouched.core {t t' : Tunn P} {rng : Rng} (h : t.Untouched rng t') :
    t'.core = { t.core with output := t'.opState.outputKind } := by
  obtain ⟨_, _, _, _, rfl⟩ := h
  rfl

theorem decapsulate_ignored (env : Env P) (source : Option Source) (datagram dst : Bytes)
    (budget : OutputBudget) (hne : datagram ≠ [])
    (hrefused : t.accepted env source datagram dst budget = none) :
    let out := t.decapsulateSource env source datagram dst budget
    out.2.1.core = { t.core with output := out.2.1.opState.outputKind } ∧
      ∀ wire, out.1 = .writeToNetwork wire →
        out.2.1.opState.outputKind = .cookieReply ∧ t.core.Frames .cookieReply wire := by
  obtain ⟨rng, hsame, -⟩ :=
    t.decapsulateSource_untouched env source datagram dst budget hne hrefused
  refine ⟨hsame.core, fun wire hwire => ?_⟩
  obtain ⟨hkind, -, cookie, hcanon, hframe⟩ :=
    t.decapsulateSource_replies env source datagram dst budget hne hrefused wire hwire
  exact ⟨hkind, cookie, hcanon, hframe⟩

/-! ### Accepted -/

theorem core_chosen (index : Nat) :
    { t with current := t.chosen index }.core = t.core.select index := by
  rw [← setCurrentSession_eq]
  unfold setCurrentSession Core.select
  rw [show t.core.current = t.current from rfl, show t.core.selected = t.selected from rfl,
    show t.core.timers = t.timers from rfl]
  split
  · rfl
  · split <;> rfl

theorem core_completing (response : AuthenticatedResponse P) (r₁ r₂ r₃ rng : Rng) :
    let slot := slotOf response.session.advanced.receivingIndex.toNat
    let timers := t.timers.completed t.amnezia.timers r₁ r₂ slot
    (t.completing response r₁ r₂ r₃ rng).core =
      { { (t.core.retire response.isPrevious).store slot response.session.advanced with
          timers := timers }.select response.session.advanced.receivingIndex.toNat with
        timers := (timers.tick t.amnezia.timers r₃ .timeLastPacketSent).1
        output := .transportKeepalive } := by
  intro slot timers
  have hstored : (t.completed response r₁ r₂ rng).core =
      { (t.core.retire response.isPrevious).store slot response.session.advanced with
        timers := timers } := by
    unfold completed Handshake.commitResponse Core.retire
    dsimp only
    split <;> rfl
  rw [← hstored, ← core_chosen]
  rfl

variable {t} {dst : Bytes} {budget : OutputBudget} in
theorem Accepting.core {packet : Authenticated P} {result : TunnResult} {t' : Tunn P}
    (h : t.Accepting dst budget packet result t') (hgen : t.Genuine dst budget packet) :
    t.core.Accepts packet result t'.core := by
  cases h with
  | @answered init wire env r₁ r₂ r₃ rng hframed =>
    have hslot : slotOf (t.handshake.responderIndex (t.current % N_SESSIONS)).toNat ≠
        slotOf t.current := fun heq =>
      Handshake.succIndexAvoiding_slot _ _ (congrArg Fin.val heq)
    exact @Core.Accepts.answered _ t.core _ _ (Life.responderSession t.handshake init env.draw
      (t.handshake.responderIndex (t.current % N_SESSIONS))) r₁ r₂ r₃ _ rfl hslot
      ⟨_, hframed.canonical, hframed.frame⟩
  | @completed response wire r₁ r₂ r₃ rng hsealed =>
    obtain ⟨-, -, now, raw, hauth⟩ := hgen
    obtain ⟨sent, -, -, hslot, -⟩ := Handshake.authenticateResponse_eq_ok hauth
    rw [core_completing]
    exact @Core.Accepts.completed _ t.core _ _ _ r₁ r₂ r₃ _ rfl rfl ⟨sent, hslot⟩
      hsealed.frame
  | @cookie cookie r rng => exact @Core.Accepts.cookie _ t.core _ r
  | @data receiverIdx plaintext session _ r₁ r₂ rng isData rxBytes hquiet =>
    obtain ⟨stored, raw, hstored, -, hreceive⟩ := hgen
    obtain ⟨-, -, -, -, hmark⟩ := Session.receivePacketData_eq_ok.mp hreceive
    obtain ⟨mark, hmarked⟩ := Session.receivingCounterMark_eq_ok hmark
    have haccepts := @Core.Accepts.data _ t.core _ plaintext _ _ _ _ r₁ r₂ isData hstored hmarked
      hquiet
    rw [show t.core.put (slotOf receiverIdx.toNat) session =
      (t.putSession (slotOf receiverIdx.toNat) session).core from rfl, ← core_chosen] at haccepts
    exact haccepts

/-- An accepted datagram, whatever imitation is learned from it. -/
theorem core_commit (env : Env P) {dst : Bytes} (budget : OutputBudget) {packet : Authenticated P}
    (hgen : t.Genuine dst budget packet) (datagram : Bytes)
    (hint : Option AmneziaImitationProtocol) :
    let out := t.commitWithImitationAndBudget env packet datagram hint dst budget
    t.core.Accepts packet out.1 out.2.1.core := by
  obtain ⟨auto, hsame, h⟩ := commit_accepting env hgen datagram hint
  have hcore : { t.noteInput packet with autoImitation := auto }.core =
      { t.core with learned := auto.learned } := by
    cases packet <;> rfl
  have haccepts := h.core hgen
  rw [hcore] at haccepts
  exact haccepts.relearn hsame _ fun hinit => (haccepts.learned_eq hinit).trans (hsame hinit)

/-! ### Setters -/

theorem core_setObfuscation (obf : ObfuscationRanges) (amnezia : AmneziaConfig) :
    t.core.Moves .configure .done (t.setObfuscation obf amnezia).core := by
  rcases t.setObfuscation_cases obf amnezia with hsame | hinstalls
  · rw [hsame]
    exact .declines
  generalize t.setObfuscation obf amnezia = t' at hinstalls
  cases hinstalls with
  | @mk burst timers rng checked hburst htimers =>
    have hold : burst = t.core.burst ∨ ∃ datagrams remaining,
        (datagrams = [] ∨
          ∃ rng, datagrams = (amnezia.preHandshakeImitationDatagrams P rng).1) ∧
        burst = t.core.burst.map fun old =>
          { old with imitationDatagrams := datagrams, remaining := remaining } := by
      cases hburst with
      | kept => exact .inl rfl
      | idle hnone => exact .inl hnone.symm
      | silenced hold =>
        refine .inr ⟨[], 0, .inl rfl, ?_⟩
        rw [show t.core.burst = _ from hold]
        rfl
      | @redrawn _ rng hold =>
        refine .inr ⟨_, amnezia.preHandshakeJunk.packetCount, .inr ⟨rng, rfl⟩, ?_⟩
        rw [show t.core.burst = _ from hold]
        rfl
    rcases htimers with rfl | ⟨r, rfl⟩
    · exact @Core.Moves.reconfigures _ t.core _ _ _ rng _ _ (.inl rfl) hold
    · exact .reconfigures (.inr rfl) hold

/-- What a call asks of the core. -/
def action (env : Env P) : Op P → Core.Action P
  | .encapsulate src _ _ => .submit src
  | .decapsulate source datagram dst budget =>
    if datagram.isEmpty then .drain
    else match t.accepted env source datagram dst budget with
      | some packet => .accept packet
      | none => .ignore
  | .updateTimers _ _ => .poll (t.timers.monotonicNow env.now)
  | .formatHandshakeInitiation _ forceResend _ => .demand forceResend
  | .setObfuscation .. | .setPresharedKey .. | .setStaticPrivate .. | .setContentPaddingMtu ..
  | .setPersistentKeepalive .. | .setPersistentKeepaliveRange .. => .configure
  | .resetUdpWindow | .discardImitationHint | .limiterMoved .. => .ignore

theorem core_decapsulate (env : Env P) (source : Option Source) (datagram dst : Bytes)
    (budget : OutputBudget) :
    let out := t.decapsulateSource env source datagram dst budget
    t.core.Moves (t.action env (.decapsulate source datagram dst budget)) out.1 out.2.1.core := by
  unfold action
  cases datagram with
  | nil => exact .drains (t.core_sendQueuedPacket env dst budget)
  | cons b rest =>
    have hne : b :: rest ≠ [] := List.cons_ne_nil b rest
    dsimp only
    rw [List.isEmpty_cons, if_neg Bool.false_ne_true]
    cases haccepted : t.accepted env source (b :: rest) dst budget with
    | none =>
      obtain ⟨hcore, hkind⟩ := t.decapsulate_ignored env source _ dst budget hne haccepted
      rw [hcore]
      exact .ignores hkind
    | some packet =>
      obtain ⟨hgen, limiter, env', hint, -, hcommit⟩ :=
        decapsulateSource_accepted env source _ dst budget hne haccepted
      rw [hcommit]
      exact .accepts (core_commit { t with rateLimiter := limiter } env' budget hgen _ hint)

/-- Every call is a move of the core. -/
theorem core_after (env : Env P) (op : Op P) :
    t.core.Moves (t.action env op) (t.run env op).1 (t.after env op).core := by
  cases op with
  | encapsulate src dst budget => exact .submits (t.core_encapsulate env src dst budget)
  | decapsulate source datagram dst budget =>
    exact t.core_decapsulate env source datagram dst budget
  | updateTimers dst budget =>
    exact .polls (t.timers.le_monotonicNow env.now) (t.core_updateTimers env dst budget)
  | formatHandshakeInitiation dst forceResend budget =>
    exact .demands (t.core_formatHandshakeInitiation env dst forceResend budget)
  | setObfuscation obf amnezia => exact t.core_setObfuscation obf amnezia
  | setPresharedKey presharedKey =>
    change t.core.Moves .configure .done (t.setPresharedKey presharedKey).core
    unfold setPresharedKey
    dsimp only
    split
    · exact .declines
    · exact .rekeys
  | setStaticPrivate staticPrivate rateLimiter seed => exact .rekeys
  | setContentPaddingMtu mtu =>
    exact @Core.Moves.reconfigures _ t.core _ _ _ t.handshake.rng _ _ (.inl rfl) (.inl rfl)
  | setPersistentKeepalive keepalive => exact .keeps
  | setPersistentKeepaliveRange low high =>
    change t.core.Moves .configure .done (t.setPersistentKeepaliveRange low high).2.core
    unfold setPersistentKeepaliveRange
    split
    · exact .keeps
    · exact .declines
  | resetUdpWindow | discardImitationHint | limiterMoved limiter => exact .ignores (by rintro _ ⟨⟩)

/-! ### The cores a tunnel reaches -/

variable {t : Tunn P}

theorem IsNew.core (h : t.IsNew) : ∃ persistentKeepalive resetRr timeStarted jitterRng,
    t.core = .new t.handshake.nextIndex
      (.new persistentKeepalive resetRr timeStarted jitterRng) t.handshake.obf t.amnezia := by
  obtain ⟨_, _, _, _, _, _, _, _, _, hnew⟩ := h
  unfold newWithObfuscation at hnew
  split at hnew
  · cases hnew
  · split at hnew
    · cases hnew
    · cases hnew
      exact ⟨_, _, _, _, rfl⟩

/-- What holds of a new core and is kept by every move holds of every tunnel. -/
theorem Visited.core (h : t.Visited) (inv : Core P → Prop)
    (hnew : ∀ index persistentKeepalive resetRr timeStarted jitterRng obf amnezia,
      inv (.new index (.new persistentKeepalive resetRr timeStarted jitterRng) obf amnezia))
    (hmove : ∀ c action result c', c.Moves action result c' → inv c → inv c') : inv t.core := by
  refine Reachable.invariant h (fun t => inv t.core) ?_ ?_
  · intro t ht
    obtain ⟨persistentKeepalive, resetRr, timeStarted, jitterRng, hcore⟩ := ht.core
    rw [hcore]
    exact hnew ..
  · rintro t _ ⟨env, op, rfl⟩ hinv
    exact hmove _ _ _ _ (t.core_after env op) hinv

end Tunn

end BoringTun
