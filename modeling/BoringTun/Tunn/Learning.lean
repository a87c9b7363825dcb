import BoringTun.Tunn.Moves

/-!
What an `Auto` tunnel learns: the imitation of its peer, from an initiation that
authenticated, and nothing else.

A device commits what its unconnected socket accepted with the hint of its own table; every
other acceptance goes through the tunnel's calls. `auto_imitation` is about both (`Turn`).
-/

namespace BoringTun

/-- A configuration under which a learned protocol may be used. -/
structure AmneziaConfig.Allows (cfg : AmneziaConfig) (protocol : AmneziaImitationProtocol) : Prop
    where
  auto : cfg.imitation.protocol = .auto
  known : protocol = .dns ∨ protocol = .quic ∨ protocol = .sip ∨ protocol = .stun
  resolves : (cfg.resolveImitation protocol).imitation.protocol = protocol

namespace Tunn

variable {P : Primitives}

/-! ### Committing -/

/-- What a packet that authenticated says about the path, or the keepalive that answers it. -/
def windowObservation (amnezia : AmneziaConfig) : Authenticated P → Option Nat
  | .handshakeInit _ => none
  | .handshakeResponse _ => some (amnezia.transportWindowObservation 0)
  | .cookieReply _ => none
  | .data _ plaintext _ => some (amnezia.receivedWindowObservation plaintext.length)

/-- A window after the observations of a packet. -/
def observedWindow (amnezia : AmneziaConfig) (packet : Authenticated P) (window : Nat) : Nat :=
  (windowObservation amnezia packet).elim window (grownWindow window)

section

variable (t : Tunn P) (env : Env P) (packet : Authenticated P) (dst : Bytes) (budget : OutputBudget)

theorem commitHandshakeInit_evidence (init : AuthenticatedInit P) :
    let out := t.commitHandshakeInit env init dst budget
    out.2.1.autoImitation = t.autoImitation ∧ out.2.1.udpWindow = t.udpWindow := by
  unfold commitHandshakeInit
  dsimp only
  split
  · exact ⟨rfl, rfl⟩
  · exact ⟨rfl, rfl⟩

theorem commitHandshakeResponse_evidence (response : AuthenticatedResponse P) :
    let out := t.commitHandshakeResponse response dst budget
    out.2.autoImitation = t.autoImitation ∧
      out.2.udpWindow = grownWindow t.udpWindow (t.amnezia.transportWindowObservation 0) := by
  unfold commitHandshakeResponse
  dsimp only
  split
  · exact ⟨rfl, rfl⟩
  · rw [setCurrentSession_eq]
    exact ⟨rfl, rfl⟩

theorem commitData_evidence (receiverIdx : UInt32) (plaintext : Bytes) :
    let out := t.commitData receiverIdx plaintext
    out.2.autoImitation = t.autoImitation ∧ out.2.udpWindow =
      grownWindow t.udpWindow (t.amnezia.receivedWindowObservation plaintext.length) := by
  unfold commitData
  dsimp only
  rw [setCurrentSession_eq]
  obtain ⟨-, _, _, _, hout⟩ := validateDecapsulatedPacket_eq (growWindow _ _) plaintext
  rw [hout]
  exact ⟨rfl, rfl⟩

/-- Acting on a packet teaches nothing, and grows the window by what the packet shows, whether
it succeeds or not. -/
theorem commitWithBudget_evidence :
    let out := t.commitWithBudget env packet dst budget
    out.2.1.autoImitation = t.autoImitation ∧
      out.2.1.udpWindow = observedWindow t.amnezia packet t.udpWindow := by
  unfold commitWithBudget
  cases packet with
  | handshakeInit init =>
    dsimp only
    split
    · exact commitHandshakeInit_evidence _ _ _ _ _
    · exact commitHandshakeInit_evidence _ _ _ _ _
  | handshakeResponse response =>
    dsimp only
    split
    · exact commitHandshakeResponse_evidence _ _ _ _
    · exact commitHandshakeResponse_evidence _ _ _ _
  | cookieReply cookie => exact ⟨rfl, rfl⟩
  | data receiverIdx plaintext session => exact commitData_evidence _ _ _

variable (datagram : Bytes) (hint : Option AmneziaImitationProtocol)

/-- What a commit leaves learned: nothing new, if it fails. -/
theorem learned_commit :
    let out := t.commitWithImitationAndBudget env packet datagram hint dst budget
    (out.1.isErr = true → out.2.1.autoImitation.learned = t.autoImitation.learned) ∧
      (out.1.isErr = false →
        out.2.1.autoImitation.learned = (t.learnImitation packet datagram hint).learned) := by
  unfold commitWithImitationAndBudget
  split
  · exact ⟨fun _ => rfl, by rintro ⟨⟩⟩
  · have hlearned := congrArg AutoImitation.learned (commitWithBudget_evidence
      { t with autoImitation := t.learnImitation packet datagram hint } env packet dst budget).1
    dsimp only
    split
    · next herr => exact ⟨fun _ => rfl, fun hok => absurd (hok.symm.trans herr) Bool.false_ne_true⟩
    · next herr =>
      split
      · exact ⟨fun h => absurd h herr, fun _ => hlearned⟩
      · exact ⟨fun h => absurd h herr, fun _ => hlearned⟩

/-- An initiation teaches the hint of its source, or what it looks like itself, to a tunnel
that has learned nothing. -/
theorem learned_learnImitation
    (hnew : (t.learnImitation packet datagram hint).learned ≠ t.autoImitation.learned) :
    packet.kind = .handshakeInitiation ∧ t.autoImitation.learned = none ∧
      (t.learnImitation packet datagram hint).learned =
        (hint <|> (Imitation.detect datagram).map (·.protocol)) ∧
      ∀ protocol, (t.learnImitation packet datagram hint).learned = some protocol →
        t.amnezia.Allows protocol := by
  revert hnew
  unfold learnImitation
  dsimp only
  split
  · next hlearns =>
    obtain ⟨hauto, hnone, hinit⟩ := hlearns
    have hkind : packet.kind = .handshakeInitiation := by
      cases packet with
      | handshakeInit init => rfl
      | _ => cases hinit
    have hnone := Option.isNone_iff_eq_none.mp hnone
    split
    · exact fun hnew => absurd rfl hnew
    · next protocol hprotocol =>
      split
      · next hallowed =>
        intro _
        refine ⟨hkind, hnone, hprotocol.symm, ?_⟩
        rintro _ ⟨⟩
        refine ⟨hauto, ?_, hallowed.1⟩
        cases protocol with
        | none => exact absurd rfl hallowed.2.1
        | auto => exact absurd rfl hallowed.2.2
        | _ => simp
      · exact fun hnew => absurd rfl hnew
  · exact fun hnew => absurd rfl hnew

end

/-! ### Reconfiguring -/

section

variable (t : Tunn P)

theorem learned_reconfiguredImitation (obf : ObfuscationRanges) (amnezia : AmneziaConfig) :
    (t.reconfiguredImitation obf amnezia).learned = t.autoImitation.learned ∨
      (t.reconfiguredImitation obf amnezia).learned = none := by
  unfold reconfiguredImitation
  split
  · exact .inr rfl
  split
  · dsimp only
    split
    · split
      · exact .inr rfl
      · exact .inl rfl
    · exact .inl rfl
  · exact .inl rfl

theorem reconfiguredImitation_allows {obf : ObfuscationRanges} {amnezia : AmneziaConfig}
    {protocol : AmneziaImitationProtocol}
    (hallowed : ∀ protocol, t.autoImitation.learned = some protocol → t.amnezia.Allows protocol)
    (hlearned : (t.reconfiguredImitation obf amnezia).learned = some protocol) :
    amnezia.Allows protocol := by
  revert hlearned
  unfold reconfiguredImitation
  split
  · exact nofun
  next hauto =>
  have hauto : amnezia.imitation.protocol = .auto := by
    by_contra hne
    exact hauto (.inr hne)
  split
  · dsimp only
    split
    · next other hother =>
      have hknown := (hallowed other hother).known
      split
      · exact nofun
      · next hresolves =>
        intro hlearned
        obtain rfl : other = protocol := Option.some.inj (hother.symm.trans hlearned)
        exact ⟨hauto, hknown, not_not.mp hresolves⟩
    · next hnone =>
      intro hlearned
      exact absurd (hnone.symm.trans hlearned) nofun
  · next hsame =>
    intro hlearned
    have hamnezia : t.amnezia = amnezia := by
      by_contra hne
      exact hsame (.inl hne)
    exact hamnezia ▸ hallowed protocol hlearned

/-- The check of the header protection does not read the padding. -/
theorem imitation_resolveImitation (cfg : AmneziaConfig) (protocol : AmneziaImitationProtocol)
    (hauto : cfg.imitation.protocol = .auto) :
    (cfg.resolveImitation protocol).imitation =
      match { cfg with imitation := { protocol := if protocol = .auto then .none else protocol }
        : AmneziaConfig }.checkHeaderProtectionNonce with
      | .ok () => { protocol := if protocol = .auto then .none else protocol }
      | .error _ => {} := by
  unfold AmneziaConfig.resolveImitation
  rw [if_neg (not_not.mpr hauto)]
  dsimp only
  generalize AmneziaConfig.checkHeaderProtectionNonce _ = check
  cases check <;> rfl

theorem allows_contentPaddingMtu {amnezia : AmneziaConfig} {protocol : AmneziaImitationProtocol}
    (h : amnezia.Allows protocol) (mtu : Nat) :
    { amnezia with contentPaddingMtu := mtu }.Allows protocol := by
  have hsame : ({ amnezia with contentPaddingMtu := mtu }.resolveImitation protocol).imitation =
      (amnezia.resolveImitation protocol).imitation :=
    (imitation_resolveImitation { amnezia with contentPaddingMtu := mtu } protocol h.auto).trans
      (imitation_resolveImitation amnezia protocol h.auto).symm
  exact ⟨h.auto, h.known, (congrArg _ hsame).trans h.resolves⟩

end

/-! ### Calls -/

section

variable (t : Tunn P) (env : Env P)

/-- What a call can do to what is learned. -/
inductive Relearns : Op P → Prop where
  | still {op : Op P}
    (hsame : (t.after env op).autoImitation.learned = t.autoImitation.learned)
    (hamnezia : (t.after env op).amnezia = t.amnezia ∨
      ∃ mtu, (t.after env op).amnezia = { t.amnezia with contentPaddingMtu := mtu }) : Relearns op
  | taught {source : Option Source} {datagram dst : Bytes} {budget : OutputBudget}
    {init : AuthenticatedInit P}
    (haccepted : t.accepted env source datagram dst budget = some (.handshakeInit init))
    (hlearned :
      (t.after env (.decapsulate source datagram dst budget)).autoImitation.learned =
        (t.learnImitation (.handshakeInit init) datagram
          (t.autoImitation.hint (t.receive env source datagram dst budget).2.2.now
            (source.map Source.addr))).learned)
    (hamnezia : (t.after env (.decapsulate source datagram dst budget)).amnezia = t.amnezia) :
    Relearns (.decapsulate source datagram dst budget)
  | reconfigured {obf : ObfuscationRanges} {amnezia : AmneziaConfig}
    (hlearned : (t.after env (.setObfuscation obf amnezia)).autoImitation.learned =
      (t.reconfiguredImitation obf amnezia).learned)
    (hamnezia : (t.after env (.setObfuscation obf amnezia)).amnezia = amnezia) :
    Relearns (.setObfuscation obf amnezia)
  | rekeyed {staticPrivate : P.Secret} {rateLimiter : Option (RateLimiter P)}
    {seed : RateLimiterSeed P}
    (hlearned : (t.after env
      (.setStaticPrivate staticPrivate rateLimiter seed)).autoImitation.learned = none) :
    Relearns (.setStaticPrivate staticPrivate rateLimiter seed)

variable {t env} in
theorem Relearns.of_config {op : Op P} (h : t.core.SameConfig (t.after env op).core) :
    t.Relearns env op := .still h.learned (.inl h.amnezia)

theorem decapsulate_relearns (source : Option Source) (datagram dst : Bytes)
    (budget : OutputBudget) : t.Relearns env (.decapsulate source datagram dst budget) := by
  by_cases hempty : datagram = []
  · subst hempty
    exact .of_config (t.core_sendQueuedPacket env dst budget).changes.config.2
  cases haccepted : t.accepted env source datagram dst budget with
  | none =>
    obtain ⟨hcore, -⟩ := t.decapsulate_ignored env source datagram dst budget hempty haccepted
    have hamnezia := congrArg Core.amnezia hcore
    have hlearned := congrArg Core.learned hcore
    exact .of_config ⟨hamnezia, hlearned⟩
  | some packet =>
    obtain ⟨hgen, limiter, env', _, rfl, hcommit⟩ :=
      decapsulateSource_accepted env source datagram dst budget hempty haccepted
    have hafter : t.after env (.decapsulate source datagram dst budget) =
        (t.decapsulateSource env source datagram dst budget).2.1 := rfl
    rw [hcommit] at hafter
    have haccepts := core_commit { t with rateLimiter := limiter } env' budget hgen datagram
      (t.autoImitation.hint (t.receive env source datagram dst budget).2.2.now
        (source.map Source.addr))
    have hamnezia : (t.after env (.decapsulate source datagram dst budget)).amnezia = t.amnezia := by
      rw [hafter]
      exact haccepts.framing.2
    by_cases hinit : packet.kind = .handshakeInitiation
    · cases packet with
      | handshakeInit init =>
        refine .taught haccepted ?_ hamnezia
        rw [hafter]
        exact (learned_commit { t with rateLimiter := limiter } env' _ dst budget datagram _).2
          (haccepts.ok rfl)
      | _ => cases hinit
    · refine .still ?_ (.inl hamnezia)
      rw [hafter]
      exact haccepts.learned_eq hinit

variable {t} in
theorem trySetObfuscation_learned {t' : Tunn P} {obf : ObfuscationRanges} {amnezia : AmneziaConfig}
    (h : t.trySetObfuscation obf amnezia = .ok t') :
    t'.autoImitation.learned = (t.reconfiguredImitation obf amnezia).learned ∧
      t'.amnezia = amnezia := by
  unfold trySetObfuscation at h
  split at h
  · cases h
  · next checked =>
    cases h
    have hinstalls := t.applyObfuscation_installs obf checked
    generalize t.applyObfuscation obf amnezia checked = t' at hinstalls
    cases hinstalls
    exact ⟨rfl, rfl⟩

theorem after_relearns (op : Op P) : t.Relearns env op := by
  cases op with
  | encapsulate src dst budget => exact .of_config (t.core_encapsulate env src dst budget).changes.config.2
  | decapsulate source datagram dst budget =>
    exact t.decapsulate_relearns env source datagram dst budget
  | updateTimers dst budget =>
    have hpolls := (t.core_updateTimers env dst budget).changes.config.2
    exact .of_config ⟨hpolls.amnezia, hpolls.learned⟩
  | formatHandshakeInitiation dst forceResend budget =>
    exact .of_config (t.core_formatHandshakeInitiation env dst forceResend budget).still.config
  | setObfuscation obf amnezia =>
    cases hset : t.trySetObfuscation obf amnezia with
    | error e =>
      have hafter : t.after env (.setObfuscation obf amnezia) = t := by
        change t.setObfuscation obf amnezia = t
        unfold setObfuscation
        rw [hset]
      exact .still (by rw [hafter]) (.inl (by rw [hafter]))
    | ok t' =>
      have hafter : t.after env (.setObfuscation obf amnezia) = t' := by
        change t.setObfuscation obf amnezia = t'
        unfold setObfuscation
        rw [hset]
      have happlied := t.trySetObfuscation_learned hset
      exact .reconfigured (by rw [hafter, happlied.1]) (by rw [hafter, happlied.2])
  | setPresharedKey presharedKey =>
    have hcore : (t.setPresharedKey presharedKey).autoImitation = t.autoImitation ∧
        (t.setPresharedKey presharedKey).amnezia = t.amnezia := by
      unfold setPresharedKey
      dsimp only
      split <;> exact ⟨rfl, rfl⟩
    exact .still (congrArg AutoImitation.learned hcore.1) (.inl hcore.2)
  | setStaticPrivate staticPrivate rateLimiter seed => exact .rekeyed rfl
  | setContentPaddingMtu mtu => exact .still rfl (.inr ⟨mtu, rfl⟩)
  | setPersistentKeepalive keepalive | resetUdpWindow | discardImitationHint
  | limiterMoved limiter => exact .still rfl (.inl rfl)
  | setPersistentKeepaliveRange low high =>
    have hcore : (t.setPersistentKeepaliveRange low high).2.autoImitation = t.autoImitation ∧
        (t.setPersistentKeepaliveRange low high).2.amnezia = t.amnezia := by
      unfold setPersistentKeepaliveRange
      split <;> exact ⟨rfl, rfl⟩
    exact .still (congrArg AutoImitation.learned hcore.1) (.inl hcore.2)

end

/-! ### Every tunnel -/

/-- A call, or a packet its device accepted on the unconnected socket, committed with the hint
the device has for the source. -/
inductive Turn (t : Tunn P) : Tunn P → Prop where
  | call (env : Env P) (op : Op P) : Turn t (t.after env op)
  | anonymous {env : Env P} {packet : Authenticated P} {datagram dst : Bytes}
    {hint : Option AmneziaImitationProtocol} (hgen : t.Genuine dst .UNBOUNDED packet) :
    Turn t (t.commitWithImitationAndBudget env packet datagram hint dst .UNBOUNDED).2.1

section

variable {t t' : Tunn P}

/-- What a tunnel has learned, its configuration lets it use. -/
def MayImitate (t : Tunn P) : Prop :=
  ∀ protocol, t.autoImitation.learned = some protocol → t.amnezia.Allows protocol

theorem MayImitate.learn (h : t.MayImitate) {packet : Authenticated P} {datagram : Bytes}
    {hint : Option AmneziaImitationProtocol}
    (hlearned : t'.autoImitation.learned = (t.learnImitation packet datagram hint).learned)
    (hamnezia : t'.amnezia = t.amnezia) : t'.MayImitate := by
  intro protocol
  rw [hlearned, hamnezia]
  by_cases hnew : (t.learnImitation packet datagram hint).learned = t.autoImitation.learned
  · rw [hnew]
    exact h protocol
  · exact (t.learned_learnImitation packet datagram hint hnew).2.2.2 protocol

theorem MayImitate.after (h : t.MayImitate) (env : Env P) (op : Op P) :
    (t.after env op).MayImitate := by
  cases t.after_relearns env op with
  | still hsame hamnezia =>
    intro protocol hprotocol
    have hallowed := h protocol (hsame.symm.trans hprotocol)
    rcases hamnezia with hamnezia | ⟨mtu, hamnezia⟩
    · exact hamnezia ▸ hallowed
    · exact hamnezia ▸ allows_contentPaddingMtu hallowed mtu
  | taught _ hlearned hamnezia => exact h.learn hlearned hamnezia
  | reconfigured hlearned hamnezia =>
    intro protocol hprotocol
    rw [hamnezia]
    exact t.reconfiguredImitation_allows h (hlearned.symm.trans hprotocol)
  | rekeyed hlearned =>
    intro protocol hprotocol
    exact absurd (hlearned.symm.trans hprotocol) nofun

theorem MayImitate.turn (h : t.MayImitate) (hturn : t.Turn t') : t'.MayImitate := by
  cases hturn with
  | call env op => exact h.after env op
  | @anonymous env packet datagram dst hint hgen =>
    have hamnezia : (t.commitWithImitationAndBudget env packet datagram hint dst
        .UNBOUNDED).2.1.amnezia = t.amnezia :=
      (t.core_commit env .UNBOUNDED hgen datagram hint).framing.2
    obtain ⟨hfailed, hdone⟩ := t.learned_commit env packet dst .UNBOUNDED datagram hint
    cases herr : (t.commitWithImitationAndBudget env packet datagram hint dst .UNBOUNDED).1.isErr with
    | true =>
      intro protocol hprotocol
      rw [hamnezia]
      exact h protocol ((hfailed herr).symm.trans hprotocol)
    | false => exact h.learn (hdone herr) hamnezia

theorem mayImitate_of_turns (h : Reachable IsNew Turn t) : t.MayImitate := by
  refine Reachable.invariant h MayImitate ?_ fun t t' hturn ht => ht.turn hturn
  intro t hnew protocol hprotocol
  obtain ⟨_, _, _, _, hcore⟩ := hnew.core
  have hnone : t.autoImitation.learned = none := congrArg Core.learned hcore
  exact absurd (hnone.symm.trans hprotocol) nofun

end

/-- What an `Auto` tunnel has learned is a protocol its configuration resolves to itself. Only
an initiation that authenticated teaches it, and only a new configuration or private key makes
it forget; a commit that fails, or a datagram that is not accepted, changes nothing. -/
theorem auto_imitation (t : Tunn P) (h : Reachable IsNew Turn t) :
    (∀ protocol, t.autoImitation.learned = some protocol →
      t.amnezia.imitation.protocol = .auto ∧
        (protocol = .dns ∨ protocol = .quic ∨ protocol = .sip ∨ protocol = .stun) ∧
        (t.amnezia.resolveImitation protocol).imitation.protocol = protocol) ∧
    (∀ env op, (t.after env op).autoImitation.learned ≠ t.autoImitation.learned →
      (∃ source datagram dst budget init, op = .decapsulate source datagram dst budget ∧
        t.accepted env source datagram dst budget = some (.handshakeInit init) ∧
        t.autoImitation.learned = none ∧
        (t.after env op).autoImitation.learned =
          (t.autoImitation.hint (t.receive env source datagram dst budget).2.2.now
            (source.map Source.addr) <|> (Imitation.detect datagram).map (·.protocol))) ∨
      (t.after env op).autoImitation.learned = none ∧
        ((∃ obf amnezia, op = .setObfuscation obf amnezia) ∨
          ∃ staticPrivate rateLimiter seed,
            op = .setStaticPrivate staticPrivate rateLimiter seed)) ∧
    (∀ env source datagram dst budget, t.accepted env source datagram dst budget = none →
      (t.after env (.decapsulate source datagram dst budget)).autoImitation.learned =
        t.autoImitation.learned) ∧
    (∀ env packet datagram hint dst budget,
      (t.commitWithImitationAndBudget env packet datagram hint dst budget).1.isErr = true →
      (t.commitWithImitationAndBudget env packet datagram hint dst
        budget).2.1.autoImitation.learned = t.autoImitation.learned) ∧
    ∀ env packet datagram hint dst budget,
      (t.commitWithImitationAndBudget env packet datagram hint dst
        budget).2.1.autoImitation.learned ≠ t.autoImitation.learned →
      packet.kind = .handshakeInitiation ∧ t.autoImitation.learned = none ∧
        (t.commitWithImitationAndBudget env packet datagram hint dst
          budget).2.1.autoImitation.learned =
            (hint <|> (Imitation.detect datagram).map (·.protocol)) := by
  refine ⟨?_, ?_, ?_, ?_, ?_⟩
  · intro protocol hprotocol
    have hallowed := mayImitate_of_turns h protocol hprotocol
    exact ⟨hallowed.auto, hallowed.known, hallowed.resolves⟩
  · intro env op hnew
    cases t.after_relearns env op with
    | still hsame => exact absurd hsame hnew
    | @taught source datagram dst budget init haccepted hlearned =>
      rw [hlearned] at hnew ⊢
      obtain ⟨-, hnone, hvalue, -⟩ := t.learned_learnImitation _ _ _ hnew
      exact .inl ⟨source, datagram, dst, budget, init, rfl, haccepted, hnone, hvalue⟩
    | @reconfigured obf amnezia hlearned =>
      rw [hlearned] at hnew ⊢
      have hcleared := (t.learned_reconfiguredImitation obf amnezia).resolve_left hnew
      exact .inr ⟨hcleared, .inl ⟨obf, amnezia, rfl⟩⟩
    | @rekeyed staticPrivate rateLimiter seed hlearned =>
      exact .inr ⟨hlearned, .inr ⟨staticPrivate, rateLimiter, seed, rfl⟩⟩
  · intro env source datagram dst budget hrefused
    cases t.decapsulate_relearns env source datagram dst budget with
    | still hsame => exact hsame
    | taught haccepted => exact absurd (hrefused.symm.trans haccepted) nofun
  · intro env packet datagram hint dst budget herr
    exact (t.learned_commit env packet dst budget datagram hint).1 herr
  · intro env packet datagram hint dst budget hnew
    obtain ⟨hfailed, hdone⟩ := t.learned_commit env packet dst budget datagram hint
    cases herr : (t.commitWithImitationAndBudget env packet datagram hint dst budget).1.isErr with
    | true => exact absurd (hfailed herr) hnew
    | false =>
      rw [hdone herr] at hnew ⊢
      obtain ⟨hkind, hnone, hvalue, -⟩ := t.learned_learnImitation packet datagram hint hnew
      exact ⟨hkind, hnone, hvalue⟩

/-- A STUN binding request. -/
def byteStun : Bytes := [0, 1, 0, 0, 0x21, 0x12, 0xA4, 0x42] ++ List.replicate 12 0

/-- An `Auto` tunnel that has seen a binding request and then answered an initiation. -/
def byteTaught : Tunn bytePrimitives :=
  ((byteHome.after (byteEnv 1 0) (.setObfuscation .default { imitation := { protocol := .auto } }))
    |>.after (byteEnv 1 0) (byteReceive byteStun)).after (byteEnv 1 7)
      (byteReceive (byteHandshake byteHome bytePeer 1 4).initiation)

theorem auto_imitation_byteTaught :
    byteTaught.autoImitation.learned = some .stun ∧
      byteTaught.amnezia.imitation.protocol = .auto ∧
      (byteTaught.amnezia.resolveImitation .stun).imitation.protocol = .stun := by
  have hreached : Reachable IsNew Turn byteTaught :=
    (((Reachable.base (byteTunn_isNew 1 6 1)).step (.call _ _)).step (.call _ _)).step (.call _ _)
  have hlearned : byteTaught.autoImitation.learned = some .stun := by decide +kernel
  obtain ⟨hallowed, -⟩ := auto_imitation byteTaught hreached
  obtain ⟨hauto, -, hresolves⟩ := hallowed _ hlearned
  exact ⟨hlearned, hauto, hresolves⟩

end Tunn

end BoringTun
