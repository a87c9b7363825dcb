import BoringTun.Tunn.Simulation

/-!
Handshake answers are all or nothing.

A handshake message that passes the limiter's gate is answered by a datagram when the
mandatory part of the answer has room, and leaves nothing but a count when it has not.

* `decapsulateSource_short`: without room the tunnel is as it was, but for the counts;
* `decapsulateSource_roomy`: with room a valid message is committed, whatever the counts;
* `relimit_commitWithImitationAndBudget`: a commit does not look at the limiter.
-/

namespace BoringTun

/-- The packets that are answered. -/
def Authenticated.Asks {P : Primitives} : Authenticated P → Prop
  | .handshakeInit _ | .handshakeResponse _ => True
  | _ => False

namespace Tunn

open Life

variable {P : Primitives} {t : Tunn P}

/-! ### The limiter apart -/

/-- The tunnel with another limiter. -/
def relimit (t : Tunn P) (limiter : RateLimiter P) : Tunn P := { t with rateLimiter := limiter }

section

variable (t) (limiter : RateLimiter P)

theorem relimit_handshake : (t.relimit limiter).handshake = t.handshake := rfl

theorem relimit_autoImitation : (t.relimit limiter).autoImitation = t.autoImitation := rfl

theorem relimit_drawContentPadding (handshake : Handshake P) (srcLen ceiling : Nat) :
    { t.relimit limiter with handshake := handshake }.drawContentPadding srcLen ceiling =
      (({ t with handshake := handshake }.drawContentPadding srcLen ceiling).1,
        ({ t with handshake := handshake }.drawContentPadding srcLen ceiling).2.relimit limiter) :=
  rfl

theorem relimit_commitHandshakeInit (env : Env P) (init : AuthenticatedInit P) (dst : Bytes)
    (budget : OutputBudget) :
    (t.relimit limiter).commitHandshakeInit env init dst budget =
      ((t.commitHandshakeInit env init dst budget).1,
        (t.commitHandshakeInit env init dst budget).2.1.relimit limiter,
        (t.commitHandshakeInit env init dst budget).2.2) := by
  unfold commitHandshakeInit relimit
  rcases hcommit : t.handshake.commitInitiation init env dst (t.current % N_SESSIONS) with
    ⟨_ | ⟨_, packet, session⟩, handshake, env'⟩
  · simp only [hcommit]
  · simp only [hcommit]
    rfl

theorem relimit_commitHandshakeResponse (response : AuthenticatedResponse P) (dst : Bytes)
    (budget : OutputBudget) :
    (t.relimit limiter).commitHandshakeResponse response dst budget =
      ((t.commitHandshakeResponse response dst budget).1,
        (t.commitHandshakeResponse response dst budget).2.relimit limiter) := by
  unfold commitHandshakeResponse
  simp only [relimit_drawContentPadding, relimit_handshake]
  split
  · rfl
  · simp only [setCurrentSession_eq]
    rfl

theorem relimit_with_autoImitation (auto : AutoImitation) :
    ({ t.relimit limiter with autoImitation := auto } : Tunn P) =
      ({ t with autoImitation := auto } : Tunn P).relimit limiter := rfl

/-- A packet of the handshake is committed alike whatever the limiter has counted. -/
theorem relimit_commitWithBudget (env : Env P) {packet : Authenticated P} (hasked : packet.Asks)
    (dst : Bytes) (budget : OutputBudget) :
    (t.relimit limiter).commitWithBudget env packet dst budget =
      ((t.commitWithBudget env packet dst budget).1,
        (t.commitWithBudget env packet dst budget).2.1.relimit limiter,
        (t.commitWithBudget env packet dst budget).2.2) := by
  have hnote : (t.relimit limiter).noteInput packet = (t.noteInput packet).relimit limiter := rfl
  unfold commitWithBudget
  rw [hnote]
  cases packet with
  | handshakeInit init =>
    simp only [relimit_commitHandshakeInit]
    split
    · rfl
    · rfl
  | handshakeResponse response =>
    simp only [relimit_commitHandshakeResponse]
    split
    · rfl
    · rfl
  | cookieReply cookie | data receiverIdx plaintext session => cases hasked

theorem relimit_commitWithImitationAndBudget (env : Env P) {packet : Authenticated P}
    (hasked : packet.Asks) (datagram : Bytes) (hint : Option AmneziaImitationProtocol)
    (dst : Bytes) (budget : OutputBudget) :
    (t.relimit limiter).commitWithImitationAndBudget env packet datagram hint dst budget =
      ((t.commitWithImitationAndBudget env packet datagram hint dst budget).1,
        (t.commitWithImitationAndBudget env packet datagram hint dst budget).2.1.relimit limiter,
        (t.commitWithImitationAndBudget env packet datagram hint dst budget).2.2) := by
  have hlearn : (t.relimit limiter).learnImitation packet datagram hint =
      t.learnImitation packet datagram hint := rfl
  have hamnezia : (t.relimit limiter).amnezia = t.amnezia := rfl
  unfold commitWithImitationAndBudget
  rw [hlearn, relimit_with_autoImitation]
  simp only [relimit_commitWithBudget _ _ _ hasked, relimit_autoImitation t, hamnezia]
  split
  · rfl
  · simp only [relimit_with_autoImitation]
    rw [relimit_autoImitation]
    split
    · rfl
    · split
      · rfl
      · rfl

end

/-! ### A datagram that carries one handshake message -/

/-- The mandatory part of the answer fits the buffer and the budget it counts against. -/
def Room (t : Tunn P) (dst : Bytes) (budget : OutputBudget) : Packet P → Prop
  | .handshakeInit _ =>
    Budget.exceeds (HANDSHAKE_RESP_SZ + t.amnezia.handshakeResponseJunkSize)
        (budget.controlFor .other) = false ∧
      HANDSHAKE_RESP_SZ + t.amnezia.handshakeResponseJunkSize ≤ dst.length
  | .handshakeResponse _ =>
    Budget.exceeds (Budget.transportFrame 0 t.amnezia.transportJunkSize) budget.transport = false ∧
      Budget.transportFrame 0 t.amnezia.transportJunkSize ≤ dst.length
  | _ => False

/-- The message authenticates under the tunnel's keys. -/
def Valid (t : Tunn P) (now : Nat) : Packet P → Prop
  | .handshakeInit p => ∃ init, t.handshake.authenticateInitiation p = .ok init
  | .handshakeResponse p => ∃ response, t.handshake.authenticateResponse now p = .ok response
  | _ => False

/-- A misreading: it has no mac1 of this tunnel, or does not open in any buffer. -/
def Misread (t : Tunn P) (datagram : Bytes) (candidate : InboundCandidate) : Prop :=
  ∀ message packet,
    Inbound.reading t.amnezia t.handshake.obf datagram candidate = .ok (message, packet) →
      match Inbound.handshakeSender packet with
      | some _ => P.b2sKeyedMac16 t.rateLimiter.mac1Key (message.take (message.length - 32)) ≠
          (message.drop (message.length - 32)).take 16
      | none => ∀ dst budget env, ∃ e, t.authenticateWithBudget dst budget env packet = (.error e, env)

/-- One reading of the datagram is a handshake message, every other is a misreading. -/
structure Carries (t : Tunn P) (datagram message : Bytes) (packet : Packet P) : Prop where
  nonempty : datagram ≠ []
  handshake : (Inbound.handshakeSender packet).isSome
  reading : ∃ before candidate after,
    t.amnezia.inboundCandidates P t.handshake.obf datagram = before ++ candidate :: after ∧
      Inbound.reading t.amnezia t.handshake.obf datagram candidate = .ok (message, packet) ∧
      ∀ other ∈ before ++ after, t.Misread datagram other

/-- The message passes the limiter's gate, which reads the clock up to `env'`. -/
def Passes (t : Tunn P) (env : Env P) (source : Option Source) (message : Bytes)
    (packet : Packet P) (env' : Env P) : Prop :=
  ∃ senderIdx load limiter, Inbound.handshakeSender packet = some senderIdx ∧
    t.rateLimiter.gateHandshake env source message senderIdx t.amnezia.cookieDefense {} =
      (.pass, load, limiter, env')

theorem Misread.idle {datagram : Bytes} {other : InboundCandidate} (h : t.Misread datagram other)
    (source : Option Source) (dst : Bytes) (budget : OutputBudget) :
    Inbound.Idle t.amnezia t.handshake.obf source datagram (t.authenticateWithBudget dst budget)
      t.rateLimiter other := by
  intro limiter hkeys env load
  unfold Inbound.examine
  rcases hread : Inbound.reading t.amnezia t.handshake.obf datagram other with
    e | ⟨message, packet⟩
  · exact ⟨e, .inl rfl⟩
  · have hfails := h message packet hread
    cases hsender : Inbound.handshakeSender packet with
    | none =>
      rw [hsender] at hfails
      obtain ⟨e, htrial⟩ := hfails dst budget env
      exact ⟨e, .inr ⟨packet, by simp only [hsender], htrial⟩⟩
    | some senderIdx =>
      rw [hsender] at hfails
      dsimp only at hfails
      rw [← hkeys.mac1Key] at hfails
      refine ⟨.invalidMac, .inl ?_⟩
      simp only [hsender, RateLimiter.gateHandshake_badMac _ _ hfails]

section

variable {dst : Bytes} {budget : OutputBudget} {packet : Packet P} (env : Env P)

theorem authenticate_short (hsome : (Inbound.handshakeSender packet).isSome)
    (hshort : ¬ t.Room dst budget packet) : ∃ e,
      t.authenticateWithBudget dst budget env packet = (.error e, env) ∧
        allowsImitationHint e = false := by
  have hcapacity (e : WireGuardError)
      (he : e = .outputBudgetExceeded ∨ e = .destinationBufferTooSmall) :
      allowsImitationHint e = false := by
    rcases he with rfl | rfl <;> rfl
  cases packet with
  | handshakeInit p | handshakeResponse p =>
    unfold authenticateWithBudget
    dsimp only
    split
    · next e hadmits => exact ⟨e, rfl, hcapacity e (Budget.admits_eq_error hadmits)⟩
    · next hadmits =>
      obtain ⟨hbudget, hfits, -⟩ := Budget.admits_eq_ok.mp hadmits
      exact absurd ⟨hbudget, hfits⟩ hshort
  | packetCookieReply p | packetData p => cases hsome

theorem authenticate_valid (hroom : t.Room dst budget packet) (hvalid : t.Valid env.now packet) :
    ∃ value env', t.authenticateWithBudget dst budget env packet = (.ok value, env') ∧
      value.Asks := by
  cases packet with
  | handshakeInit p =>
    obtain ⟨init, hinit⟩ := hvalid
    refine ⟨.handshakeInit init, env, ?_, trivial⟩
    simp only [authenticateWithBudget, Budget.admits_eq_ok.mpr ⟨hroom.1, hroom.2, rfl⟩, hinit]
    rfl
  | handshakeResponse p =>
    obtain ⟨response, hresponse⟩ := hvalid
    refine ⟨.handshakeResponse response, env.tick, ?_, trivial⟩
    simp only [authenticateWithBudget, Budget.admits_eq_ok.mpr ⟨hroom.1, hroom.2, rfl⟩, hresponse]
  | packetCookieReply p | packetData p => cases hvalid

end

section

variable {env env' : Env P} {source : Option Source} {datagram dst message : Bytes}
  {budget : OutputBudget} {packet : Packet P}

/-- The readings of a datagram that has one are tried, and acted on. -/
theorem Carries.decapsulateSource_eq (h : t.Carries datagram message packet)
    {outcome : Inbound (Authenticated P)} {limiter : RateLimiter P}
    (hreceive : t.receive env source datagram dst budget = (outcome, limiter, env')) :
    t.decapsulateSource env source datagram dst budget =
      (t.relimit limiter).actOn env' (source.map Source.addr) datagram dst budget outcome := by
  obtain ⟨before, candidate, after, hcandidates, -, -⟩ := h.reading
  have hread : (t.amnezia.inboundCandidates P t.handshake.obf datagram).isEmpty = false := by
    rw [hcandidates]
    simp
  unfold decapsulateSource
  rw [if_neg (by simpa using h.nonempty)]
  simp only [hread, Bool.false_and, Bool.false_eq_true, if_false, hreceive]
  rfl

/-- Without room for its answer a handshake message is refused, and only counted. -/
theorem decapsulateSource_short (h : t.Carries datagram message packet)
    (hpasses : t.Passes env source message packet env') (hshort : ¬ t.Room dst budget packet) :
    ∃ e limiter, t.rateLimiter.SameKeys limiter ∧
      t.decapsulateSource env source datagram dst budget = (.err e, t.relimit limiter, env') := by
  obtain ⟨before, candidate, after, hcandidates, hread, hothers⟩ := h.reading
  obtain ⟨senderIdx, load, limiter, hsender, hgate⟩ := hpasses
  obtain ⟨e, htrial, hhint⟩ := authenticate_short env' h.handshake hshort
  have hidle (other : InboundCandidate) (hmem : other ∈ before ++ after) :=
    (hothers other hmem).idle source dst budget
  obtain ⟨first, hreceive⟩ := Inbound.receive_refused
    (fun other hmem => hidle other (List.mem_append_left _ hmem)) hread hsender hgate
    (fun other hmem => hidle other (List.mem_append_right _ hmem)) htrial hhint
  rw [← hcandidates] at hreceive
  have hkeys := t.receive_sameKeys env source datagram dst budget
  rw [receive, hreceive] at hkeys
  refine ⟨first, limiter, hkeys, ?_⟩
  rw [h.decapsulateSource_eq hreceive, actOn, if_neg (by simp)]

/-- With room a valid handshake message is accepted, and committed on a tunnel in which
only the limiter has moved. -/
theorem decapsulateSource_roomy (h : t.Carries datagram message packet)
    (hpasses : t.Passes env source message packet env') (hroom : t.Room dst budget packet)
    (hvalid : t.Valid env'.now packet) :
    ∃ value env'', t.authenticateWithBudget dst budget env' packet = (.ok value, env'') ∧
      value.Asks ∧ t.accepted env source datagram dst budget = some value ∧
      ∃ limiter, t.decapsulateSource env source datagram dst budget =
        (t.relimit limiter).commitWithImitationAndBudget env''.tick value datagram
          (t.autoImitation.hint env''.now (source.map Source.addr)) dst budget := by
  obtain ⟨before, candidate, after, hcandidates, hread, hothers⟩ := h.reading
  obtain ⟨senderIdx, load, limiter, hsender, hgate⟩ := hpasses
  obtain ⟨value, env'', htrial, hasks⟩ := authenticate_valid env' hroom hvalid
  have hreceive := Inbound.receive_gated
    (fun other hmem => (hothers other (List.mem_append_left _ hmem)).idle source dst budget)
    hread hsender hgate htrial after
  rw [← hcandidates] at hreceive
  refine ⟨value, env'', htrial, hasks, ?_, limiter, h.decapsulateSource_eq hreceive⟩
  rw [accepted, receive, hreceive]

/-- Two tunnels answer the datagram alike, and are alike afterwards but for their
limiters. -/
def HandledAlike (t t' : Tunn P) (env : Env P) (source : Option Source) (datagram dst : Bytes)
    (budget : OutputBudget) : Prop :=
  ∃ result after limiter limiter' env',
    t.decapsulateSource env source datagram dst budget = (result, relimit after limiter, env') ∧
      t'.decapsulateSource env source datagram dst budget = (result, relimit after limiter', env')

theorem Carries.relimit {limiter : RateLimiter P} (h : t.Carries datagram message packet)
    (hkeys : t.rateLimiter.SameKeys limiter) :
    (t.relimit limiter).Carries datagram message packet := by
  obtain ⟨before, candidate, after, hcandidates, hread, hothers⟩ := h.reading
  refine ⟨h.nonempty, h.handshake, before, candidate, after, hcandidates, hread, ?_⟩
  intro other hmem message packet hreading
  have hfails := hothers other hmem message packet hreading
  rw [← hkeys.mac1Key] at hfails
  exact hfails

/-- What the limiter has counted makes no difference to a message that passes it. -/
theorem handledAlike_relimit {limiter : RateLimiter P} (h : t.Carries datagram message packet)
    (hkeys : t.rateLimiter.SameKeys limiter) (hpasses : t.Passes env source message packet env')
    (hpasses' : (t.relimit limiter).Passes env source message packet env')
    (hroom : t.Room dst budget packet) (hvalid : t.Valid env'.now packet) :
    t.HandledAlike (t.relimit limiter) env source datagram dst budget := by
  obtain ⟨value, env₁, htrial, hasks, -, limiter₁, hfirst⟩ :=
    decapsulateSource_roomy h hpasses hroom hvalid
  obtain ⟨value', env₂, htrial', -, -, limiter₂, hagain⟩ :=
    decapsulateSource_roomy (h.relimit hkeys) hpasses' hroom hvalid
  obtain ⟨rfl, rfl⟩ : value = value' ∧ env₁ = env₂ := by
    have hsame := htrial.symm.trans htrial'
    cases hsame
    exact ⟨rfl, rfl⟩
  rw [show (t.relimit limiter).relimit _ = t.relimit _ from rfl, relimit_autoImitation] at hagain
  rw [relimit_commitWithImitationAndBudget _ _ _ hasks] at hfirst hagain
  exact ⟨_, _, limiter₁, limiter₂, _, hfirst, hagain⟩

/-- Whatever is accepted as a handshake message is answered. -/
theorem accepted_answered {value : Authenticated P} (hne : datagram ≠ []) (hasks : value.Asks)
    (haccepted : t.accepted env source datagram dst budget = some value) :
    ∃ wire, (t.decapsulateSource env source datagram dst budget).1 = .writeToNetwork wire := by
  obtain ⟨hgen, limiter, env', hint, -, hcommit⟩ :=
    decapsulateSource_accepted env source datagram dst budget hne haccepted
  rw [hcommit]
  refine (commit_commits (t := { t with rateLimiter := limiter }) env' hgen datagram hint).answer ?_
  cases value with
  | handshakeInit init => exact .inl rfl
  | handshakeResponse response => exact .inr rfl
  | cookieReply cookie | data receiverIdx plaintext session => cases hasks

end

/-- The answer to a handshake message is all or nothing. -/
theorem handshake_answer_all_or_nothing (h : t.Visited) :
    (∀ env env' source datagram message packet dst budget, t.Carries datagram message packet →
      t.Passes env source message packet env' → ¬ t.Room dst budget packet →
      ∃ e limiter, t.rateLimiter.SameKeys limiter ∧
        t.decapsulateSource env source datagram dst budget = (.err e, t.relimit limiter, env') ∧
        ∀ env env' dst budget, t.Room dst budget packet → t.Valid env'.now packet →
          t.Passes env source message packet env' →
          (t.relimit limiter).Passes env source message packet env' →
          t.HandledAlike (t.relimit limiter) env source datagram dst budget) ∧
    (∀ env env' source datagram message packet dst budget, t.Carries datagram message packet →
      t.Passes env source message packet env' → t.Room dst budget packet →
      t.Valid env'.now packet →
      ∃ wire, (t.decapsulateSource env source datagram dst budget).1 = .writeToNetwork wire) ∧
    (∀ env source datagram dst budget value, datagram ≠ [] → value.Asks →
      t.accepted env source datagram dst budget = some value →
      ∃ wire, (t.decapsulateSource env source datagram dst budget).1 = .writeToNetwork wire) ∧
    ∀ hash chain ephemeral index, t.handshake.state ≠ .initReceived hash chain ephemeral index := by
  refine ⟨?_, ?_, ?_, h.settled.1⟩
  · intro env env' source datagram message packet dst budget hcarries hpasses hshort
    obtain ⟨e, limiter, hkeys, hrefused⟩ := decapsulateSource_short hcarries hpasses hshort
    refine ⟨e, limiter, hkeys, hrefused, ?_⟩
    intro env env' dst budget hroom hvalid hfirst hagain
    exact handledAlike_relimit hcarries hkeys hfirst hagain hroom hvalid
  · intro env env' source datagram message packet dst budget hcarries hpasses hroom hvalid
    obtain ⟨value, -, -, hasks, haccepted, -⟩ :=
      decapsulateSource_roomy hcarries hpasses hroom hvalid
    exact accepted_answered hcarries.nonempty hasks haccepted
  · intro env source datagram dst budget value hne hasks haccepted
    exact accepted_answered hne hasks haccepted

/-! ### An initiation presented twice -/

/-- An initiation of the peer, alone in its datagram. -/
def byteInitiation : Bytes := (byteHandshake byteHome bytePeer 1 4).initiation

/-- What is left of presenting it without a buffer for the answer. -/
def byteRefused : TunnResult × Tunn bytePrimitives × Env bytePrimitives :=
  byteHome.decapsulateSource (byteEnv 1 7) none byteInitiation [] .UNBOUNDED

/-- The limiter passes the message on. -/
def passesByte (t : Tunn bytePrimitives) (senderIdx : UInt32) : Bool :=
  match t.rateLimiter.gateHandshake (byteEnv 1 7) none byteInitiation senderIdx
      t.amnezia.cookieDefense {} with
  | (.pass, _) => true
  | _ => false

theorem passes_of_passesByte {t : Tunn bytePrimitives} {p : HandshakeInit bytePrimitives}
    (h : passesByte t p.senderIdx) :
    t.Passes (byteEnv 1 7) none byteInitiation (.handshakeInit p) (byteEnv 1 7) := by
  have henv := t.rateLimiter.gateHandshake_env (byteEnv 1 7) byteInitiation p.senderIdx
    t.amnezia.cookieDefense
  unfold passesByte at h
  split at h
  · next rest hgate =>
    rw [hgate] at henv
    exact ⟨p.senderIdx, rest.1, rest.2.1, rfl, by rw [hgate, ← henv]⟩
  · cases h

def byteReading : Result (Bytes × Packet bytePrimitives) :=
  Inbound.reading byteHome.amnezia byteHome.handshake.obf byteInitiation
    { kind := .handshakeInit, offset := 0, messageLen := 148, wireLen := 148, isProtected := false }

theorem byteReading_spec : ∃ p, byteReading = .ok (byteInitiation, .handshakeInit p) ∧
    (byteHome.handshake.authenticateInitiation p).toOption.isSome ∧
    passesByte byteHome p.senderIdx ∧ passesByte byteRefused.2.1 p.senderIdx := by
  have hcheck : (match byteReading with
      | .ok (message, .handshakeInit p) => decide (message = byteInitiation) &&
          (byteHome.handshake.authenticateInitiation p).toOption.isSome &&
          passesByte byteHome p.senderIdx && passesByte byteRefused.2.1 p.senderIdx
      | _ => false) = true := by
    decide +kernel
  split at hcheck
  · next message p hread =>
    simp only [Bool.and_eq_true, decide_eq_true_eq] at hcheck
    obtain ⟨⟨⟨hmessage, hvalid⟩, hfirst⟩, hagain⟩ := hcheck
    rw [hmessage] at hread
    exact ⟨p, hread, hvalid, hfirst, hagain⟩
  · cases hcheck

/-- The initiation is alone in its datagram. -/
theorem byteInitiation_carried {p : HandshakeInit bytePrimitives}
    (hread : byteReading = .ok (byteInitiation, .handshakeInit p)) :
    byteHome.Carries byteInitiation byteInitiation (.handshakeInit p) where
  nonempty := by decide +kernel
  handshake := rfl
  reading := ⟨[], _, [], by decide +kernel, hread, nofun⟩

theorem handshake_answer_all_or_nothing_byte : byteRefused.1.isErr ∧
    byteHome.HandledAlike byteRefused.2.1 (byteEnv 1 7) none byteInitiation byteBuffer .UNBOUNDED ∧
    ∃ wire, (byteHome.decapsulateSource (byteEnv 1 7) none byteInitiation byteBuffer .UNBOUNDED).1 =
      .writeToNetwork wire := by
  obtain ⟨p, hread, hvalid, hfirst, hagain⟩ := byteReading_spec
  have hcarries := byteInitiation_carried hread
  have hroom : byteHome.Room byteBuffer .UNBOUNDED (.handshakeInit p) := by
    constructor
    · rfl
    · decide +kernel
  have hshort : ¬ byteHome.Room [] .UNBOUNDED (.handshakeInit p) := by
    rintro ⟨-, hfits⟩
    exact absurd hfits (by decide)
  have hgenuine : byteHome.Valid (byteEnv 1 7).now (.handshakeInit p) := by
    cases hauth : byteHome.handshake.authenticateInitiation p with
    | error e =>
      rw [hauth] at hvalid
      cases hvalid
    | ok init => exact ⟨init, hauth⟩
  have hnew : byteHome.Visited := Reachable.base (byteTunn_isNew 1 6 1)
  obtain ⟨hnothing, hall, -⟩ := handshake_answer_all_or_nothing hnew
  obtain ⟨e, limiter, -, hrefused, halike⟩ := hnothing _ _ _ _ _ _ _ _ hcarries
    (passes_of_passesByte hfirst) hshort
  rw [byteRefused, hrefused] at hagain ⊢
  refine ⟨rfl, ?_, ?_⟩
  · exact halike _ _ _ _ hroom hgenuine (passes_of_passesByte hfirst) (passes_of_passesByte hagain)
  · exact hall _ _ _ _ _ _ _ _ hcarries (passes_of_passesByte hfirst) hroom hgenuine

end Tunn

end BoringTun
