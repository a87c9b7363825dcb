import BoringTun.Tunn.OneByte
import BoringTun.Tunn.Refine

/-!
A received datagram: refused without a trace, or committed.

* `decapsulate_refused`: a datagram no reading of which authenticates leaves the tunnel
  as it was;
* `decapsulateSource_replies`: it is answered by a cookie reply no longer than itself, if at all;
* `decapsulateSource_accepted`: an accepted one is committed, with everything its
  authentication has established (`Genuine`).
-/

namespace BoringTun

namespace Tunn

open AmneziaConfig

variable {P : Primitives} {t : Tunn P}

/-! ### Refused -/

/-- `t'` is `t` but for the pending hint, the limiter's counts, the output metadata and a
generator that is now at `rng`. -/
def Untouched (t : Tunn P) (rng : Rng) (t' : Tunn P) : Prop :=
  ∃ limiter pending outputKind, t.rateLimiter.SameKeys limiter ∧
    t' = { t with
      handshake := { t.handshake with rng := rng }
      rateLimiter := limiter
      autoImitation := { t.autoImitation with pending := pending }
      opState := { t.opState with outputKind := outputKind } }

theorem Untouched.limiter {limiter : RateLimiter P} (h : t.rateLimiter.SameKeys limiter) :
    t.Untouched t.handshake.rng { t with rateLimiter := limiter } :=
  ⟨limiter, t.autoImitation.pending, t.opState.outputKind, h, rfl⟩

theorem Untouched.trans {t' t'' : Tunn P} {rng rng' : Rng} (h : t.Untouched rng t')
    (h' : t'.Untouched rng' t'') : t.Untouched rng' t'' := by
  obtain ⟨_, _, _, hkeys, rfl⟩ := h
  obtain ⟨limiter, pending, outputKind, hkeys', rfl⟩ := h'
  exact ⟨limiter, pending, outputKind, hkeys.trans hkeys', rfl⟩

theorem Untouched.life {t' : Tunn P} {rng : Rng} (h : t.Untouched rng t') :
    t'.life = t.life := by
  obtain ⟨_, _, _, _, rfl⟩ := h
  rfl

theorem untouched_observe (now : Nat) (source : Option IpAddr) (datagram : Bytes) :
    t.Untouched t.handshake.rng
      { t with autoImitation := (t.autoImitation.observe now source datagram).2 } := by
  obtain ⟨pending, heq⟩ := t.autoImitation.observe_eq now source datagram
  rw [heq]
  exact ⟨t.rateLimiter, pending, t.opState.outputKind, .refl _, rfl⟩

theorem untouched_noteOutput (kind : OpReport.PacketKind) (result : TunnResult) :
    t.Untouched t.handshake.rng (t.noteOutput kind result) := by
  unfold noteOutput OpState.noteOutput
  split
  · exact ⟨t.rateLimiter, t.autoImitation.pending, kind, .refl _, rfl⟩
  · exact .limiter (.refl _)

theorem untouched_withRng (rng : Rng) : t.Untouched rng (t.withRng rng) :=
  ⟨t.rateLimiter, t.autoImitation.pending, t.opState.outputKind, .refl _, rfl⟩

section

variable (t) (env : Env P) (source : Option Source) (datagram dst : Bytes) (budget : OutputBudget)

/-- Whatever becomes of a cookie reply, it draws from the generator at most. -/
theorem writeCookieReply_untouched (srcAddr : Option IpAddr) (cookie : Bytes) :
    ∃ rng, t.Untouched rng (t.writeCookieReply env srcAddr datagram cookie dst).2.1 := by
  unfold writeCookieReply
  dsimp only
  split
  · exact ⟨_, .limiter (.refl _)⟩
  · split
    · exact ⟨_, .limiter (.refl _)⟩
    · exact ⟨_, (untouched_withRng _).trans (untouched_noteOutput _ _)⟩

/-- The limiter makes a cookie reply out of a datagram, whether or not it is sent. -/
def ProducesCookieReply : Prop :=
  ∃ demand limiter env', t.receive env source datagram dst budget = (.cookie demand, limiter, env') ∧
    ∃ reply limiter' rng', limiter.formatCookieDemand t.handshake.obf t.handshake.rng demand
      (List.replicate COOKIE_REPLY_SZ 0) = (.ok reply, limiter', rng')

/-- With no candidate reading there is nothing to try. -/
theorem receive_unread
    (h : (t.amnezia.inboundCandidates P t.handshake.obf datagram).isEmpty = true) :
    t.receive env source datagram dst budget = (.notOurs, t.rateLimiter, env) := by
  unfold receive
  rw [List.isEmpty_iff.mp h]
  rfl

theorem receive_sameKeys :
    t.rateLimiter.SameKeys (t.receive env source datagram dst budget).2.1 :=
  Inbound.receive_sameKeys

/-- The outcomes that accept nothing are acted on without a trace. -/
theorem actOn_untouched (srcAddr : Option IpAddr) {outcome : Inbound (Authenticated P)}
    (hrefused : ∀ packet, outcome ≠ .accepted packet) :
    ∃ rng, t.Untouched rng (t.actOn env srcAddr datagram dst budget outcome).2.1 ∧
      (rng = t.handshake.rng ∨ ∃ demand reply limiter' rng', outcome = .cookie demand ∧
        t.rateLimiter.formatCookieDemand t.handshake.obf t.handshake.rng demand
          (List.replicate COOKIE_REPLY_SZ 0) = (.ok reply, limiter', rng')) := by
  cases outcome with
  | notOurs => exact ⟨_, .limiter (.refl _), .inl rfl⟩
  | accepted packet => exact absurd rfl (hrefused packet)
  | refused refusal =>
    unfold actOn
    dsimp only
    split
    · exact ⟨_, untouched_observe _ _ _, .inl rfl⟩
    · exact ⟨_, .limiter (.refl _), .inl rfl⟩
  | cookie demand =>
    have hkeys := t.rateLimiter.formatCookieDemand_sameKeys t.handshake.obf t.handshake.rng demand
      (List.replicate COOKIE_REPLY_SZ 0)
    unfold actOn
    dsimp only
    split
    · next e limiter rng hformat =>
      -- the scratch buffer has the size of a reply
      simp [RateLimiter.formatCookieDemand] at hformat
    · next reply limiter rng hformat =>
      rw [hformat] at hkeys
      have hspent : t.Untouched rng { t.withRng rng with rateLimiter := limiter } :=
        (untouched_withRng rng).trans (.limiter hkeys)
      obtain ⟨rng', hreply⟩ := { t.withRng rng with rateLimiter := limiter }
        |>.writeCookieReply_untouched env datagram dst srcAddr reply
      exact ⟨rng', hspent.trans hreply, .inr ⟨demand, reply, limiter, rng, rfl, hformat⟩⟩

/-- A received datagram is only observed, or its readings are tried. -/
theorem decapsulateSource_cases (hne : datagram ≠ []) :
    (t.accepted env source datagram dst budget = none ∧
        t.Untouched t.handshake.rng (t.decapsulateSource env source datagram dst budget).2.1 ∧
        (t.decapsulateSource env source datagram dst budget).1.isWriteToNetwork = false) ∨
      ∃ outcome limiter env', t.receive env source datagram dst budget = (outcome, limiter, env') ∧
        t.decapsulateSource env source datagram dst budget =
          { t with rateLimiter := limiter }.actOn env' (source.map Source.addr) datagram dst budget
            outcome := by
  unfold decapsulateSource
  rw [if_neg (by simpa using hne)]
  dsimp only
  cases hunread : (t.amnezia.inboundCandidates P t.handshake.obf datagram).isEmpty &&
    decide (t.amnezia.imitation.protocol = .auto) with
  | false => exact .inr ⟨_, _, _, rfl, rfl⟩
  | true =>
    have hread (env : Env P) := t.receive_unread env source datagram dst budget
      (Bool.and_eq_true_iff.mp hunread).1
    refine .inl ⟨by rw [accepted, hread], ?_⟩
    split
    · exact ⟨untouched_observe _ _ _, rfl⟩
    · rw [if_pos rfl, hread]
      exact ⟨.limiter (.refl _), rfl⟩

theorem decapsulateSource_untouched (hne : datagram ≠ [])
    (hrefused : t.accepted env source datagram dst budget = none) :
    ∃ rng, t.Untouched rng (t.decapsulateSource env source datagram dst budget).2.1 ∧
      (rng = t.handshake.rng ∨ t.ProducesCookieReply env source datagram dst budget) := by
  rcases t.decapsulateSource_cases env source datagram dst budget hne with ⟨_, hsame, _⟩ |
    ⟨outcome, limiter, env', hreceive, hact⟩
  · exact ⟨_, hsame, .inl rfl⟩
  · have hkeys := t.receive_sameKeys env source datagram dst budget
    rw [hreceive] at hkeys
    have houtcome : ∀ packet, outcome ≠ .accepted packet := by
      intro packet heq
      rw [accepted, hreceive, heq] at hrefused
      cases hrefused
    rw [hact]
    obtain ⟨rng, hsame, hrng⟩ := actOn_untouched { t with rateLimiter := limiter } env' datagram dst
      budget (source.map Source.addr) houtcome
    refine ⟨rng, (Untouched.limiter hkeys).trans hsame, ?_⟩
    rcases hrng with hrng | ⟨demand, reply, limiter', rng', rfl, hformat⟩
    · exact .inl hrng
    · exact .inr ⟨demand, limiter, env', hreceive, reply, limiter', rng', hformat⟩

/-- A datagram no reading of which authenticates moves the pending hint, the counts of the
limiter and the output metadata at most, and the generator only when a cookie reply is
produced. -/
theorem decapsulate_refused (hne : datagram ≠ [])
    (hrefused : t.accepted env source datagram dst budget = none) :
    ∃ limiter pending outputKind rng,
      (t.decapsulateSource env source datagram dst budget).2.1 =
        { t with
          handshake := { t.handshake with rng := rng }
          rateLimiter := limiter
          autoImitation := { t.autoImitation with pending := pending }
          opState := { t.opState with outputKind := outputKind } } ∧
      t.rateLimiter.SameKeys limiter ∧
      (rng ≠ t.handshake.rng → t.ProducesCookieReply env source datagram dst budget) := by
  obtain ⟨rng, ⟨limiter, pending, outputKind, hkeys, heq⟩, hrng⟩ :=
    t.decapsulateSource_untouched env source datagram dst budget hne hrefused
  exact ⟨limiter, pending, outputKind, rng, heq, hkeys, hrng.resolve_left⟩

/-- What is written, if anything, is a cookie reply no longer than `datagram`. -/
def RepliesTo (result : TunnResult) (t' : Tunn P) : Prop :=
  ∀ wire, result = .writeToNetwork wire → t'.opState.outputKind = .cookieReply ∧
    wire.length ≤ datagram.length ∧ ∃ cookie, Canonical t.handshake.obf .cookieReply cookie ∧
      Frame P t.amnezia .cookieReply cookie wire

theorem writeCookieReply_replies {cookie : Bytes} (srcAddr : Option IpAddr)
    (hcanon : Canonical t.handshake.obf .cookieReply cookie) :
    let out := t.writeCookieReply env srcAddr datagram cookie dst
    t.RepliesTo datagram out.1 out.2.1 := by
  unfold writeCookieReply
  dsimp only
  split
  · exact nofun
  next hcheck =>
  split
  · exact nofun
  next hdst =>
  intro wire hwire
  have hwritten := congrArg TunnResult.isWriteToNetwork hwire
  refine ⟨congrArg OpState.outputKind (if_pos hwritten), ?_⟩
  split at hwire
  · next reply hreply =>
    split at hwire
    · cases hwire
    · rw [hreply] at hwire
      cases hwire
      exact ⟨writeToNetworkWithImitation_cookieReply hcanon (by simpa using hcheck)
        (Nat.not_lt.mp hdst) hreply, cookie, hcanon,
        writeToNetworkWithImitation_frame rfl rfl hcanon hreply⟩
  · next hsilent => exact absurd hwire (hsilent wire)

theorem actOn_replies (srcAddr : Option IpAddr) {outcome : Inbound (Authenticated P)}
    (hrefused : ∀ packet, outcome ≠ .accepted packet)
    (hcookie : ∀ demand, outcome = .cookie demand → demand.cookie.length = 16) :
    let out := t.actOn env srcAddr datagram dst budget outcome
    t.RepliesTo datagram out.1 out.2.1 := by
  cases outcome with
  | notOurs =>
    intro _ _ hwire
    cases hwire
  | accepted packet => exact absurd rfl (hrefused packet)
  | refused refusal =>
    unfold actOn
    dsimp only
    split <;> rintro _ ⟨⟩
  | cookie demand =>
    unfold actOn
    dsimp only
    split
    · rintro _ ⟨⟩
    · next cookie limiter rng hformat =>
      have hcanon := RateLimiter.canonical_formatCookieDemand (hcookie demand rfl) hformat
      exact writeCookieReply_replies { t.withRng rng with rateLimiter := limiter } _ _ _ _ hcanon

/-- A datagram that is not accepted is answered by a cookie reply, if at all. -/
theorem decapsulateSource_replies (hne : datagram ≠ [])
    (hrefused : t.accepted env source datagram dst budget = none) :
    let out := t.decapsulateSource env source datagram dst budget
    t.RepliesTo datagram out.1 out.2.1 := by
  rcases t.decapsulateSource_cases env source datagram dst budget hne with ⟨-, -, hquiet⟩ |
    ⟨outcome, limiter, env', hreceive, hact⟩
  · intro out wire hwire
    rw [hwire] at hquiet
    cases hquiet
  · rw [hact]
    refine actOn_replies { t with rateLimiter := limiter } _ _ _ _ _ ?_ ?_
    · rintro packet rfl
      rw [accepted, hreceive] at hrefused
      cases hrefused
    · rintro demand rfl
      exact Inbound.receive_cookie (congrArg Prod.fst hreceive)

end

/-- A tunnel with a session, the first packet of which has arrived. -/
def byteConfirmed : Tunn bytePrimitives :=
  let ends := byteHandshake byteHome bytePeer 1 4
  (ends.home.deliver (byteEnv 1 5) ends.keepalive).2

/-- The same packet once more: its counter has been seen. -/
theorem decapsulate_refused_replay :
    let keepalive := (byteHandshake byteHome bytePeer 1 4).keepalive
    byteConfirmed.hasCurrentSession = true ∧
      (byteConfirmed.decapsulateSource (byteEnv 1 5) none keepalive byteBuffer .UNBOUNDED).1 =
        .err .duplicateCounter ∧
      ∃ limiter pending outputKind rng,
        (byteConfirmed.decapsulateSource (byteEnv 1 5) none keepalive byteBuffer .UNBOUNDED).2.1 =
          { byteConfirmed with
            handshake := { byteConfirmed.handshake with rng := rng }
            rateLimiter := limiter
            autoImitation := { byteConfirmed.autoImitation with pending := pending }
            opState := { byteConfirmed.opState with outputKind := outputKind } } ∧
        byteConfirmed.rateLimiter.SameKeys limiter ∧
        (rng ≠ byteConfirmed.handshake.rng →
          byteConfirmed.ProducesCookieReply (byteEnv 1 5) none keepalive byteBuffer
            .UNBOUNDED) := by
  intro keepalive
  refine ⟨by decide +kernel, by decide +kernel, ?_⟩
  exact decapsulate_refused byteConfirmed (byteEnv 1 5) none keepalive byteBuffer .UNBOUNDED
    (by decide +kernel) (Option.isNone_iff_eq_none.mp (by decide +kernel))

/-! ### Accepted -/

/-- What the authentication of a packet has established: the room for its answer, and
where its contents come from. -/
def Genuine (t : Tunn P) (dst : Bytes) (budget : OutputBudget) : Authenticated P → Prop
  | .handshakeInit init =>
    Budget.exceeds (HANDSHAKE_RESP_SZ + t.amnezia.handshakeResponseJunkSize)
        (budget.controlFor .other) = false ∧
      HANDSHAKE_RESP_SZ + t.amnezia.handshakeResponseJunkSize ≤ dst.length ∧
      ∃ packet, t.handshake.authenticateInitiation packet = .ok init
  | .handshakeResponse response =>
    Budget.exceeds (Budget.transportFrame 0 t.amnezia.transportJunkSize) budget.transport = false ∧
      Budget.transportFrame 0 t.amnezia.transportJunkSize ≤ dst.length ∧
      ∃ now packet, t.handshake.authenticateResponse now packet = .ok response
  | .cookieReply cookie => ∃ packet, t.handshake.authenticateCookieReply packet = .ok cookie
  | .data receiverIdx plaintext session =>
    ∃ stored packet, t.sessions (slotOf receiverIdx.toNat) = some stored ∧
      packet.receiverIdx = receiverIdx ∧
      stored.receivePacketData packet dst = .ok (plaintext, session)

theorem authenticateWithBudget_genuine {env env' : Env P} {dst : Bytes} {budget : OutputBudget}
    {packet : Packet P} {value : Authenticated P}
    (h : t.authenticateWithBudget dst budget env packet = (.ok value, env')) :
    t.Genuine dst budget value ∧ ∀ response, value = .handshakeResponse response →
      ∃ raw now, packet = .handshakeResponse raw ∧
        t.handshake.authenticateResponse now raw = .ok response := by
  unfold authenticateWithBudget at h
  cases packet with
  | handshakeInit p =>
    dsimp only at h
    split at h
    · cases h
    · next hadmits =>
      obtain ⟨hbudget, hroom, -⟩ := Budget.admits_eq_ok.mp hadmits
      cases hauth : t.handshake.authenticateInitiation p with
      | error e => rw [hauth] at h; cases h
      | ok init =>
        rw [hauth] at h
        cases h
        exact ⟨⟨hbudget, hroom, p, hauth⟩, nofun⟩
  | handshakeResponse p =>
    dsimp only at h
    split at h
    · cases h
    · next hadmits =>
      obtain ⟨hbudget, hroom, -⟩ := Budget.admits_eq_ok.mp hadmits
      split at h
      · cases h
      · next hauth =>
        cases h
        refine ⟨⟨hbudget, hroom, _, p, hauth⟩, ?_⟩
        rintro _ ⟨⟩
        exact ⟨p, _, rfl, hauth⟩
  | packetCookieReply p =>
    cases hauth : t.handshake.authenticateCookieReply p with
    | error e => simp [hauth, Except.map] at h
    | ok cookie =>
      simp only [hauth, Except.map, Prod.mk.injEq, Except.ok.injEq] at h
      obtain ⟨rfl, -⟩ := h
      exact ⟨⟨p, hauth⟩, nofun⟩
  | packetData p =>
    dsimp only at h
    split at h
    · cases h
    · next stored hstored =>
      split at h
      · cases h
      · next hopen =>
        cases h
        exact ⟨⟨stored, p, hstored, rfl, hopen⟩, nofun⟩

/-- An accepted datagram is committed with the hint its source has at that moment. -/
theorem decapsulateSource_accepted (env : Env P) (source : Option Source) (datagram dst : Bytes)
    (budget : OutputBudget) {packet : Authenticated P} (hne : datagram ≠ [])
    (haccepted : t.accepted env source datagram dst budget = some packet) :
    t.Genuine dst budget packet ∧ ∃ limiter env' hint,
      t.autoImitation.hint (t.receive env source datagram dst budget).2.2.now
          (source.map Source.addr) = hint ∧
      t.decapsulateSource env source datagram dst budget =
        { t with rateLimiter := limiter }.commitWithImitationAndBudget env' packet datagram hint dst
          budget := by
  rcases t.decapsulateSource_cases env source datagram dst budget hne with ⟨hnone, _⟩ |
    ⟨outcome, limiter, env', hreceive, hact⟩
  · rw [hnone] at haccepted
    cases haccepted
  · rw [accepted, hreceive] at haccepted
    cases outcome with
    | accepted value =>
      cases haccepted
      obtain ⟨_, _, _, raw, env₀, _, htrial⟩ := Inbound.receive_accepted hreceive
      exact ⟨(authenticateWithBudget_genuine htrial).1, limiter, _, _,
        by rw [hreceive], hact⟩
    | _ => cases haccepted

end Tunn

end BoringTun
