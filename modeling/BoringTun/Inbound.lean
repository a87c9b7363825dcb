import BoringTun.Amnezia.Framing
import BoringTun.RateLimiter

/-!
Receiving a datagram that could be more than one packet kind (`noise/inbound.rs`).

The candidate readings are tried in order and the first that authenticates is
accepted. A reading that earned only a cookie or a load refusal is held back while
there are others to try.

* `receive_sameKeys`: the limiter's counts are all a receive can change besides;
* `receive_accepted`: an accepted value is what some reading's trial returned;
* `receiveFrom_eq_accepted`: a transport reading whose trial succeeds is accepted when no
  reading before it authenticates;
* `receive_gated`, `receive_refused`: a handshake reading past the gate is accepted or
  refused as its trial says, when every other reading is idle.
-/

namespace BoringTun

def AmneziaConfig.cookieDefense (cfg : AmneziaConfig) : CookieDefense :=
  if cfg.disableCookies then .bypassed else .armed

/-- Why no candidate reading was accepted. -/
structure Refusal where
  error : WireGuardError
  /-- Every reading was refused with an error that establishes nothing. -/
  allowsImitationHint : Bool

/-- What became of one received datagram. -/
inductive Inbound (α : Type) where
  | notOurs
  | accepted (value : α)
  | cookie (demand : CookieDemand)
  | refused (refusal : Refusal)

namespace Inbound

/-- Why one reading did not get through, before or in its trial. -/
inductive Held where
  | refused (e : WireGuardError)
  | underLoad
  | cookie (demand : CookieDemand)

/-- What the readings tried so far have left behind. -/
structure Tried where
  cookie : Option CookieDemand := none
  underLoad : Bool := false
  refusal : Option WireGuardError := none
  hintAllowed : Bool := true

namespace Tried

def hold (tried : Tried) : Held → Tried
  | .refused e =>
    { tried with
      hintAllowed := tried.hintAllowed && allowsImitationHint e
      refusal := tried.refusal <|> some e }
  | .underLoad => { tried with underLoad := true }
  | .cookie demand => { tried with cookie := tried.cookie <|> some demand }

/-- A cookie reply if any reading earned one, then `UnderLoad`, then the first refusal. -/
def outcome {α : Type} (tried : Tried) : Inbound α :=
  match tried.cookie with
  | some demand => .cookie demand
  | none =>
    if tried.underLoad then .refused ⟨.underLoad, false⟩
    else
      match tried.refusal with
      | some error => .refused ⟨error, tried.hintAllowed⟩
      | none => .notOurs

end Tried

variable {P : Primitives} {α : Type}

/-- The sender's index of a handshake message, which the limiter gates. -/
def handshakeSender : Packet P → Option UInt32
  | .handshakeInit p => some p.senderIdx
  | .handshakeResponse p => some p.senderIdx
  | _ => none

section

variable (cfg : AmneziaConfig) (obf : ObfuscationRanges) (source : Option Source)
  (datagram : Bytes)

/-- The canonical message and the packet a candidate stands for. -/
def reading (candidate : InboundCandidate) : Result (Bytes × Packet P) :=
  match cfg.candidateMessage P datagram candidate with
  | none => .error .invalidPacket
  | some message =>
    match parseIncomingPacket obf message with
    | .error e => .error e
    | .ok packet => .ok (message, packet)

/-- A reading up to its trial: recovered, parsed and, for a handshake message, gated. -/
def examine (limiter : RateLimiter P) (env : Env P) (load : LoadDecision)
    (candidate : InboundCandidate) :
    Except Held (Packet P) × LoadDecision × RateLimiter P × Env P :=
  match reading cfg obf datagram candidate with
  | .error e => (.error (.refused e), load, limiter, env)
  | .ok (message, packet) =>
    match handshakeSender packet with
    | none => (.ok packet, load, limiter, env)
    | some senderIdx =>
      let (gate, load, limiter, env) :=
        limiter.gateHandshake env source message senderIdx cfg.cookieDefense load
      let verdict := match gate with
        | .pass => .ok packet
        | .badMac => .error (.refused .invalidMac)
        | .underLoad => .error .underLoad
        | .cookieDemanded demand => .error (.cookie demand)
      (verdict, load, limiter, env)

variable (trial : Env P → Packet P → Result α × Env P)

/-- The readings from one point on. -/
def receiveFrom (tried : Tried) (load : LoadDecision) (limiter : RateLimiter P) (env : Env P) :
    List InboundCandidate → Inbound α × RateLimiter P × Env P
  | [] => (tried.outcome, limiter, env)
  | candidate :: rest =>
    match examine cfg obf source datagram limiter env load candidate with
    | (.error held, load, limiter, env) => receiveFrom (tried.hold held) load limiter env rest
    | (.ok packet, load, limiter, env) =>
      match trial env packet with
      | (.ok value, env) => (.accepted value, limiter, env)
      | (.error e, env) => receiveFrom (tried.hold (.refused e)) load limiter env rest

/-- Try each candidate reading of `datagram` in order, and accept the first that `trial`
authenticates. -/
def receive (limiter : RateLimiter P) (env : Env P) (candidates : List InboundCandidate) :
    Inbound α × RateLimiter P × Env P :=
  receiveFrom cfg obf source datagram trial {} {} limiter env candidates

end

/-! ### What a receive can do -/

section

variable {cfg : AmneziaConfig} {obf : ObfuscationRanges} {source : Option Source}
  {datagram : Bytes} {trial : Env P → Packet P → Result α × Env P}
  {limiter limiter' : RateLimiter P} {env env' : Env P} {load load' : LoadDecision}
  {candidate : InboundCandidate} {candidates : List InboundCandidate}

/-- A reading passed on to its trial is the packet its candidate stands for, and its
handshake message passed the limiter's gate. -/
theorem examine_eq_ok {packet : Packet P}
    (h : examine cfg obf source datagram limiter env load candidate =
      (.ok packet, load', limiter', env')) :
    ∃ message, reading cfg obf datagram candidate = .ok (message, packet) ∧
      (handshakeSender packet = none ∨ ∃ senderIdx, handshakeSender packet = some senderIdx ∧
        limiter.gateHandshake env source message senderIdx cfg.cookieDefense load =
          (.pass, load', limiter', env')) := by
  unfold examine at h
  split at h
  · cases h
  · next message packet' hread =>
    split at h
    · next hsender =>
      cases h
      exact ⟨message, hread, .inl hsender⟩
    · next senderIdx hsender =>
      rcases hgate : limiter.gateHandshake env source message senderIdx cfg.cookieDefense load
        with ⟨gate, load₁, limiter₁, env₁⟩
      rw [hgate] at h
      cases gate with
      | pass =>
        cases h
        exact ⟨message, hread, .inr ⟨senderIdx, hsender, hgate⟩⟩
      | badMac => cases h
      | underLoad => cases h
      | cookieDemanded demand => cases h

theorem examine_sameKeys (cfg : AmneziaConfig) (obf : ObfuscationRanges) (source : Option Source)
    (datagram : Bytes) (limiter : RateLimiter P) (env : Env P) (load : LoadDecision)
    (candidate : InboundCandidate) :
    RateLimiter.SameKeys limiter
      (examine cfg obf source datagram limiter env load candidate).2.2.1 := by
  unfold examine
  split
  · exact .refl _
  · split
    · exact .refl _
    · exact RateLimiter.gateHandshake_sameKeys ..

theorem receiveFrom_sameKeys (tried : Tried) (load : LoadDecision) (limiter : RateLimiter P)
    (env : Env P) (candidates : List InboundCandidate) :
    RateLimiter.SameKeys limiter
      (receiveFrom cfg obf source datagram trial tried load limiter env candidates).2.1 := by
  induction candidates generalizing tried load limiter env with
  | nil => exact .refl _
  | cons candidate rest ih =>
    have hkeys := examine_sameKeys cfg obf source datagram limiter env load candidate
    unfold receiveFrom
    split
    · next hexamine =>
      rw [hexamine] at hkeys
      exact hkeys.trans (ih ..)
    · next hexamine =>
      rw [hexamine] at hkeys
      split
      · exact hkeys
      · exact hkeys.trans (ih ..)

/-- A receive changes the limiter's counts at most. -/
theorem receive_sameKeys :
    RateLimiter.SameKeys limiter
      (receive cfg obf source datagram trial limiter env candidates).2.1 :=
  receiveFrom_sameKeys ..

theorem Tried.outcome_ne_accepted {tried : Tried} {value : α} :
    tried.outcome ≠ Inbound.accepted value := by
  unfold Tried.outcome
  intro h
  split at h
  · cases h
  · split at h
    · cases h
    · split at h <;> cases h

variable (cfg obf datagram trial) in
/-- The trial of one of the readings returns `value`. -/
def Authentic (candidates : List InboundCandidate) (value : α) (env' : Env P) : Prop :=
  ∃ candidate ∈ candidates, ∃ message packet env,
    reading cfg obf datagram candidate = .ok (message, packet) ∧
      trial env packet = (.ok value, env')

theorem Authentic.cons {value : α} (h : Authentic cfg obf datagram trial candidates value env') :
    Authentic cfg obf datagram trial (candidate :: candidates) value env' := by
  obtain ⟨found, hmem, hfound⟩ := h
  exact ⟨found, List.mem_cons_of_mem _ hmem, hfound⟩

theorem receiveFrom_accepted {tried : Tried} {value : α}
    (h : receiveFrom cfg obf source datagram trial tried load limiter env candidates =
      (.accepted value, limiter', env')) :
    Authentic cfg obf datagram trial candidates value env' := by
  induction candidates generalizing tried load limiter env with
  | nil =>
    simp only [receiveFrom, Prod.mk.injEq] at h
    exact absurd h.1 Tried.outcome_ne_accepted
  | cons candidate rest ih =>
    unfold receiveFrom at h
    split at h
    · exact (ih h).cons
    · next packet load₁ limiter₁ env₁ hexamine =>
      obtain ⟨message, hread, -⟩ := examine_eq_ok hexamine
      split at h
      · next htrial =>
        cases h
        exact ⟨candidate, List.mem_cons_self, message, packet, env₁, hread, htrial⟩
      · exact (ih h).cons

/-- What is accepted is what the trial of one of the readings returned. -/
theorem receive_accepted {value : α}
    (h : receive cfg obf source datagram trial limiter env candidates =
      (.accepted value, limiter', env')) :
    Authentic cfg obf datagram trial candidates value env' :=
  receiveFrom_accepted h

/-- What a reading held back as a cookie demand asks for is a cookie. -/
theorem examine_cookie {demand : CookieDemand}
    (h : examine cfg obf source datagram limiter env load candidate =
      (.error (.cookie demand), load', limiter', env')) : demand.cookie.length = 16 := by
  unfold examine at h
  split at h
  · cases h
  · next message packet _ =>
    split at h
    · cases h
    · next senderIdx _ =>
      rcases hgate : limiter.gateHandshake env source message senderIdx cfg.cookieDefense load
        with ⟨gate, load₁, limiter₁, env₁⟩
      rw [hgate] at h
      cases gate with
      | cookieDemanded demand =>
        cases h
        exact limiter.gateHandshake_length_cookie env (congrArg Prod.fst hgate)
      | _ => cases h

theorem receiveFrom_cookie {tried : Tried} {demand : CookieDemand}
    (htried : ∀ held, tried.cookie = some held → held.cookie.length = 16)
    (h : (receiveFrom cfg obf source datagram trial tried load limiter env candidates).1 =
      .cookie demand) : demand.cookie.length = 16 := by
  induction candidates generalizing tried load limiter env with
  | nil =>
    rw [receiveFrom, Tried.outcome] at h
    split at h
    · next held hheld =>
      cases h
      exact htried _ hheld
    · split at h
      · cases h
      · split at h <;> cases h
  | cons candidate rest ih =>
    unfold receiveFrom at h
    split at h
    · next held _ _ _ hexamine =>
      refine ih ?_ h
      cases held with
      | cookie demand =>
        intro first hfirst
        cases hcookie : tried.cookie with
        | none =>
          simp only [Tried.hold, hcookie] at hfirst
          cases hfirst
          exact examine_cookie hexamine
        | some before =>
          simp only [Tried.hold, hcookie] at hfirst
          cases hfirst
          exact htried _ hcookie
      | _ => exact htried
    · split at h
      · cases h
      · refine ih ?_ h
        exact htried

/-- A receive that ends in a cookie demand asks for a cookie. -/
theorem receive_cookie {demand : CookieDemand}
    (h : (receive cfg obf source datagram trial limiter env candidates).1 =
      .cookie demand) : demand.cookie.length = 16 :=
  receiveFrom_cookie (fun _ hheld => by cases hheld) h

variable (trial) in
/-- No trial of the reading succeeds. -/
def NotAuthentic (cfg : AmneziaConfig) (obf : ObfuscationRanges) (datagram : Bytes)
    (candidate : InboundCandidate) : Prop :=
  ∀ message packet, reading cfg obf datagram candidate = .ok (message, packet) →
    ∀ env, ∃ e env', trial env packet = (.error e, env')

/-- A reading that is no handshake message and authenticates is accepted, when none
before it authenticates. -/
theorem receiveFrom_eq_accepted {tried : Tried} {before after : List InboundCandidate}
    {message : Bytes} {packet : Packet P} {value : α}
    (hbefore : ∀ other ∈ before, NotAuthentic trial cfg obf datagram other)
    (hread : reading cfg obf datagram candidate = .ok (message, packet))
    (hkind : handshakeSender packet = none)
    (htrial : ∀ env, ∃ env', trial env packet = (.ok value, env')) :
    ∃ limiter' env', receiveFrom cfg obf source datagram trial tried load limiter env
      (before ++ candidate :: after) = (.accepted value, limiter', env') := by
  induction before generalizing tried load limiter env with
  | nil =>
    obtain ⟨env', htrial⟩ := htrial env
    exact ⟨limiter, env', by simp [receiveFrom, examine, hread, hkind, htrial]⟩
  | cons other before ih =>
    simp only [List.forall_mem_cons] at hbefore
    obtain ⟨hother, hbefore⟩ := hbefore
    rw [List.cons_append, receiveFrom]
    split
    · exact ih hbefore
    · next hexamine =>
      obtain ⟨message, hread, -⟩ := examine_eq_ok hexamine
      obtain ⟨e, env', herror⟩ := hother message _ hread _
      rw [herror]
      exact ih hbefore

/-! ### One handshake message among idle readings -/

/-- Some readings are refused one after the other. -/
def Tried.refuse (tried : Tried) (errors : List WireGuardError) : Tried :=
  errors.foldl (fun tried e => tried.hold (.refused e)) tried

theorem Tried.refuse_eq (tried : Tried) (errors : List WireGuardError) :
    tried.refuse errors =
      { tried with
        refusal := tried.refusal <|> errors.head?
        hintAllowed := tried.hintAllowed && errors.all allowsImitationHint } := by
  induction errors generalizing tried with
  | nil => simp [refuse]
  | cons e errors ih =>
    rw [refuse, List.foldl_cons, ← refuse, ih]
    cases hrefusal : tried.refusal with
    | none | some first => simp [hold, hrefusal, Bool.and_assoc]

/-- The first of several refusals is reported, and no hint is taken if one of them
forbids it. -/
theorem Tried.outcome_refuse {errors : List WireGuardError} {e : WireGuardError}
    (hmem : e ∈ errors) (hhint : allowsImitationHint e = false) :
    ∃ first, (({} : Tried).refuse errors).outcome = (Inbound.refused ⟨first, false⟩ : Inbound α) := by
  have hall : errors.all allowsImitationHint = false := by
    rw [List.all_eq_false]
    exact ⟨e, hmem, by simp [hhint]⟩
  cases errors with
  | nil => cases hmem
  | cons first rest =>
    refine ⟨first, ?_⟩
    rw [refuse_eq, hall]
    rfl

variable (cfg obf source datagram trial limiter) in
/-- Whatever the counts and the load, the reading is refused and nothing is charged. -/
def Idle (candidate : InboundCandidate) : Prop :=
  ∀ limiter', limiter.SameKeys limiter' → ∀ env load, ∃ e,
    examine cfg obf source datagram limiter' env load candidate =
        (.error (.refused e), load, limiter', env) ∨
      ∃ packet, examine cfg obf source datagram limiter' env load candidate =
          (.ok packet, load, limiter', env) ∧
        trial env packet = (.error e, env)

theorem receiveFrom_idle {before : List InboundCandidate}
    (hidle : ∀ other ∈ before, Idle cfg obf source datagram trial limiter other)
    (hkeys : limiter.SameKeys limiter') (env : Env P) (load : LoadDecision) (tried : Tried)
    (rest : List InboundCandidate) :
    ∃ errors, receiveFrom cfg obf source datagram trial tried load limiter' env (before ++ rest) =
      receiveFrom cfg obf source datagram trial (tried.refuse errors) load limiter' env rest := by
  induction before generalizing tried with
  | nil => exact ⟨[], rfl⟩
  | cons other before ih =>
    simp only [List.forall_mem_cons] at hidle
    obtain ⟨hother, hbefore⟩ := hidle
    obtain ⟨e, hrefused⟩ := hother limiter' hkeys env load
    obtain ⟨errors, hrest⟩ := ih hbefore (tried.hold (.refused e))
    refine ⟨e :: errors, ?_⟩
    rcases hrefused with hexamine | ⟨packet, hexamine, htrial⟩
    · simp only [List.cons_append, receiveFrom, hexamine]
      exact hrest
    · simp only [List.cons_append, receiveFrom, hexamine, htrial]
      exact hrest

section

variable {before : List InboundCandidate} {message : Bytes} {packet : Packet P}
  {senderIdx : UInt32}
  (hbefore : ∀ other ∈ before, Idle cfg obf source datagram trial limiter other)
  (hread : reading cfg obf datagram candidate = .ok (message, packet))
  (hsender : handshakeSender packet = some senderIdx)
  (hgate : limiter.gateHandshake env source message senderIdx cfg.cookieDefense {} =
    (.pass, load', limiter', env'))

include hbefore hread hsender hgate

theorem receive_gated {value : α} {env'' : Env P} (htrial : trial env' packet = (.ok value, env''))
    (after : List InboundCandidate) :
    receive cfg obf source datagram trial limiter env (before ++ candidate :: after) =
      (.accepted value, limiter', env'') := by
  obtain ⟨errors, hrest⟩ := receiveFrom_idle hbefore (.refl limiter) env {} {} (candidate :: after)
  rw [receive, hrest]
  simp only [receiveFrom, examine, hread, hsender, hgate, htrial]

theorem receive_refused {e : WireGuardError} {env'' : Env P} {after : List InboundCandidate}
    (hafter : ∀ other ∈ after, Idle cfg obf source datagram trial limiter other)
    (htrial : trial env' packet = (.error e, env'')) (hhint : allowsImitationHint e = false) :
    ∃ first, receive cfg obf source datagram trial limiter env (before ++ candidate :: after) =
      (.refused ⟨first, false⟩, limiter', env'') := by
  have hkeys := limiter.gateHandshake_sameKeys env source message senderIdx cfg.cookieDefense {}
  rw [hgate] at hkeys
  obtain ⟨errors, hrest⟩ := receiveFrom_idle hbefore (.refl limiter) env {} {} (candidate :: after)
  obtain ⟨errors', hlast⟩ := receiveFrom_idle hafter hkeys env'' load'
    ((({} : Tried).refuse errors).hold (.refused e)) []
  have hjoin : ((({} : Tried).refuse errors).hold (.refused e)).refuse errors' =
      ({} : Tried).refuse (errors ++ e :: errors') := by
    simp only [Tried.refuse, List.foldl_append, List.foldl_cons]
  obtain ⟨first, hfirst⟩ := Tried.outcome_refuse (α := α)
    (List.mem_append_right errors (List.mem_cons_self)) hhint
  refine ⟨first, ?_⟩
  rw [List.append_nil] at hlast
  rw [receive, hrest]
  simp only [receiveFrom, examine, hread, hsender, hgate, htrial]
  rw [hlast, hjoin, receiveFrom, hfirst]

end

end

end Inbound

end BoringTun
