import BoringTun.Core
import BoringTun.Tunn.Written

/-!
What each call that accepts no datagram can do, said once and with the tunnel it leaves.

Every producer admits its datagram before it changes anything, and what is admitted is
written: a refusal leaves the tunnel as it was, but for the burst it may have prepared.

* `Emitting`: the next datagram before a session is up;
* `Driving`: a demand for an initiation;
* `Submitting`, `Draining`: a write, and a call that sends what is queued;
* `Polling`: a timer poll, once the sessions are aged;
* `Installs`: a new configuration.

Whatever else is said of these calls (`Tunn.Refine`, `Tunn.Core`, `Tunn.Memory`, `Tunn.Outlet`,
`Tunn.Custody`) is read off these.
-/

namespace BoringTun

open AmneziaConfig

/-- Removing sessions moves their serials and nothing else. -/
theorem OpState.foldl_sessionRemoved (slots : List (Fin N_SESSIONS)) (op : OpState) :
    slots.foldl OpState.sessionRemoved op =
      { op with slotSerial := (slots.foldl OpState.sessionRemoved op).slotSerial } := by
  induction slots generalizing op with
  | nil => rfl
  | cons slot slots ih => exact ih (op.sessionRemoved slot)

namespace Tunn

variable {P : Primitives} (t : Tunn P)

/-! ### What is left behind -/

/-- The window a packet of `srcLen` bytes is padded in. -/
def windowFor (srcLen : Nat) : Nat :=
  grownWindow t.udpWindow (t.amnezia.transportWindowObservation srcLen)

/-- A packet leaves on `session`. -/
def delivering (session : Session P) (src : Bytes) (rng rng' : Rng) : Tunn P :=
  { t.withRng rng' with
    sessions := Function.update t.sessions (slotOf t.current) (some session.advanced)
    timers := t.timers.delivered t.amnezia.timers rng src.isEmpty
    txBytes := t.txBytes + src.length
    udpWindow := t.windowFor src.length
    opState := { t.opState with outputKind := transportKind src.isEmpty } }

/-- The timers at the first datagram of a cycle, cleared if it restarts an expired one. -/
def restarted (owed : Bool) (now : Nat) : Timers :=
  if owed && t.handshake.isExpired then t.timers.clear now else t.timers

/-- An initiation leaves. -/
def initiating (owed : Bool) (now : Nat) (env : Env P) (rng : Rng) : Tunn P :=
  { t with
    handshake := { (t.handshake.initiated env).2 with rng := rng }
    timers := (t.restarted owed now).initiated t.amnezia.timers (t.handshake.initiated env).2.rng
      !t.handshake.isInProgress
    opState := { t.opState.note .initiationProduced with outputKind := .handshakeInitiation } }

/-- A datagram of the burst leaves, and `pending` is left of it. -/
def advancing (kind : OpReport.PacketKind) (owed : Bool) (now : Nat)
    (pending : PendingAmneziaJunk) : Tunn P :=
  { t with
    pendingAmneziaJunk := some pending
    timers := t.restarted owed now
    opState := { t.opState with outputKind := kind } }

theorem timerTick_eq (name : TimerName) : t.timerTick name =
    { t.withRng (t.timers.tick t.amnezia.timers t.handshake.rng name).2 with
      timers := (t.timers.tick t.amnezia.timers t.handshake.rng name).1 } := rfl

theorem armRetransmission_eq (starting : Bool) : t.armRetransmission starting =
    { t.withRng (t.timers.armed t.amnezia.timers t.handshake.rng starting).2 with
      timers := (t.timers.armed t.amnezia.timers t.handshake.rng starting).1 } := by
  rcases t.amnezia.timers.retransmitTimeout t.handshake.rng with ⟨timeout, rng⟩
  rcases t.timers.jitter with ⟨jitter, timers⟩
  cases starting with
  | false => rfl
  | true =>
    rfl

/-! ### On a session -/

/-- `wire` is `src` sealed on `session`, padded below `window` and framed within the budget. -/
structure Sealed (cfg : AmneziaConfig) (obf : ObfuscationRanges) (window : Nat)
    (session : Session P) (src dst : Bytes) (budget : OutputBudget) (wire : Bytes) : Prop where
  mandatory : Budget.transportFrame src.length cfg.transportJunkSize ≤
    Budget.ceiling dst.length budget.transport
  framed : ∃ rng rng₀ pad,
    pad = (cfg.contentPaddingForFrame src.length (Budget.ceiling dst.length budget.transport)
      cfg.transportJunkSize window rng₀).1 ∧
    Framed P cfg obf .transportData (session.message obf rng src pad) (.window window) wire

section

variable {t} {cfg : AmneziaConfig} {obf : ObfuscationRanges} {window : Nat} {session : Session P}
  {src dst wire : Bytes} {budget : OutputBudget}

/-- The padding is drawn below the ceiling. -/
theorem contentPadding_le {srcLen ceiling junk : Nat} {rng : Rng}
    (hmandatory : Budget.transportFrame srcLen junk ≤ ceiling) :
    srcLen + (cfg.contentPaddingForFrame srcLen ceiling junk window rng).1 + DATA_OVERHEAD_SZ +
      junk ≤ ceiling := by
  have hle := cfg.contentPaddingForFrame_le srcLen ceiling junk window rng
  unfold Budget.transportFrame at hmandatory
  omega

theorem Sealed.frame (h : Sealed cfg obf window session src dst budget wire) : ∃ rng pad,
    Frame P cfg .transportData (session.message obf rng src pad) wire := by
  obtain ⟨rng, -, pad, -, hframed⟩ := h.framed
  exact ⟨rng, pad, hframed.frame⟩

theorem Sealed.length_le (h : Sealed cfg obf window session src dst budget wire) :
    wire ≠ [] ∧ wire.length ≤ Budget.ceiling dst.length budget.transport := by
  obtain ⟨rng, rng₀, pad, rfl, hframed⟩ := h.framed
  refine ⟨hframed.ne_nil, ?_⟩
  rw [hframed.length_eq rfl, Session.length_message]
  exact contentPadding_le h.mandatory

theorem encapsulateOnSession_refused {e : WireGuardError} (hselected : t.selected = some session)
    (hrefused : Budget.admits (Budget.transportFrame src.length t.amnezia.transportJunkSize)
      dst.length budget.transport = .error e) :
    t.encapsulateOnSession src dst budget = (.err e, t) := by
  simp only [encapsulateOnSession, hselected, hrefused]

/-- A message that fits is written by a tunnel that holds the session after it. -/
theorem writeToNetwork_delivering {t' : Tunn P} {rng rng₀ r : Rng} {pad : Nat}
    (hsent : t' = { t.withRng t'.handshake.rng with
      sessions := Function.update t.sessions (slotOf t.current) (some session.advanced)
      timers := t.timers.delivered t.amnezia.timers r src.isEmpty
      txBytes := t.txBytes + src.length
      udpWindow := t.windowFor src.length })
    (hmandatory : Budget.transportFrame src.length t.amnezia.transportJunkSize ≤
      Budget.ceiling dst.length budget.transport)
    (hpad : pad = (t.amnezia.contentPaddingForFrame src.length
      (Budget.ceiling dst.length budget.transport) t.amnezia.transportJunkSize
      (t.windowFor src.length) rng₀).1) :
    let packet := session.message t.handshake.obf rng src pad
    let out := t'.writeToNetwork (overwrite dst 0 packet) packet.length
    ∃ wire rng rng', (out.1, out.2.noteOutput (transportKind src.isEmpty) out.1) =
      (.writeToNetwork wire, t.delivering session src rng rng') ∧
        Sealed t.amnezia t.handshake.obf (t.windowFor src.length) session src dst budget wire := by
  intro packet out
  have hroom : packet.length + t.amnezia.outboundJunkSize .transportData ≤ dst.length := by
    rw [Session.length_message, hpad]
    exact (contentPadding_le hmandatory).trans Budget.ceiling_le
  have hobf : t'.handshake.obf = t.handshake.obf := by rw [hsent]; rfl
  have hcfg : t'.amnezia = t.amnezia := by rw [hsent]; rfl
  have hwindow : t'.udpWindow = t.windowFor src.length := by rw [hsent]
  have hwritten : ∃ wire rng', out = (.writeToNetwork wire, t'.withRng rng') ∧
      Framed P t.amnezia t.handshake.obf .transportData packet (.window t'.udpWindow) wire :=
    writeToNetworkWith_framed hobf hcfg (session.canonical_message t.handshake.obf rng src pad) hroom
      _
  obtain ⟨wire, rng', hout, hframed⟩ := hwritten
  refine ⟨wire, r, rng', ?_, hmandatory, rng, rng₀, pad, hpad, hwindow ▸ hframed⟩
  rw [hout, hsent]
  rfl

/-- A frame that is admitted is written: the padding stays within what was admitted, the nonce
is there, and the configuration has room for the mask's nonce. -/
theorem encapsulateOnSession_admitted {ceiling : Nat} (hselected : t.selected = some session)
    (hnonce : session.sendingExhausted = false)
    (hadmitted : Budget.admits (Budget.transportFrame src.length t.amnezia.transportJunkSize)
      dst.length budget.transport = .ok ceiling) :
    ∃ wire rng rng', t.encapsulateOnSession src dst budget =
      (.writeToNetwork wire, t.delivering session src rng rng') ∧
        Sealed t.amnezia t.handshake.obf (t.windowFor src.length) session src dst budget wire := by
  obtain ⟨hbudget, hdst, rfl⟩ := Budget.admits_eq_ok.mp hadmitted
  have hmandatory := Budget.le_ceiling hbudget hdst
  rcases hdraw : t.drawContentPadding src.length (Budget.ceiling dst.length budget.transport) with
    ⟨pad, t₁⟩
  have hpad : pad = _ := (congrArg Prod.fst hdraw).symm
  have hroom : src.length + pad + DATA_OVERHEAD_SZ ≤ dst.length := by
    rw [hpad]
    exact Nat.le_of_add_right_le ((contentPadding_le hmandatory).trans Budget.ceiling_le)
  have hdrawn : t₁ = { t.withRng t₁.handshake.rng with
      udpWindow := t.windowFor src.length } := by
    cases hdraw
    rfl
  unfold encapsulateOnSession
  rw [hselected]
  rw [hadmitted]
  dsimp only
  rw [hdraw]
  rw [Session.formatPacketData_eq_ok.mpr ⟨hroom, hnonce, rfl⟩]
  generalize t₁.handshake.rng = rng₁ at hdrawn
  subst hdrawn
  refine writeToNetwork_delivering (r := (t.handshake.obf.h4Data.random rng₁).2) ?_ hmandatory hpad
  generalize src.isEmpty = empty
  cases empty <;> rfl

end

/-! ### The initiation -/

/-- A call that came to nothing: the tunnel is as it was, and no key was drawn. -/
structure Idles (t : Tunn P) (env : Env P) (out : TunnResult × Tunn P × Env P) : Prop where
  tunn : out.2.1 = t
  entropy : out.2.2.entropy = env.entropy

/-- A datagram of `size` bytes is refused, for want of room or of budget. -/
structure Refuses (t : Tunn P) (env : Env P) (dst : Bytes) (budget : OutputBudget) (size : Nat)
    (out : TunnResult × Tunn P × Env P) : Prop where
  result : ∃ e : WireGuardError, e.IsCapacity ∧ out.1 = .err e
  idle : t.Idles env out
  short : budget = .UNBOUNDED → dst.length < size

section

variable {t} {env env' : Env P} {dst : Bytes} {budget : OutputBudget} {size : Nat}

theorem Refuses.earlier {out : TunnResult × Tunn P × Env P} (h : t.Refuses env' dst budget size out)
    (hentropy : env'.entropy = env.entropy) : t.Refuses env dst budget size out :=
  ⟨h.result, ⟨h.idle.tunn, h.idle.entropy.trans hentropy⟩, h.short⟩

/-- What is not admitted is refused; without a budget, it does not fit the buffer. -/
theorem Refuses.of_admits {e : WireGuardError}
    (h : Budget.admits size dst.length (budget.controlFor .other) = .error e) :
    t.Refuses env dst budget size (.err e, t, env) := by
  refine ⟨⟨e, (Budget.admits_eq_error h).symm, rfl⟩, ⟨rfl, rfl⟩, ?_⟩
  rintro rfl
  by_contra hfits
  rw [Budget.admits_eq_ok.mpr ⟨rfl, Nat.not_lt.mp hfits, rfl⟩] at h
  cases h

end

section

variable (env : Env P) (src dst : Bytes) (force : Bool) (budget : OutputBudget)

/-- An initiation is written within the budget. -/
inductive Initiates (owed : Bool) (wire : Bytes) : Tunn P → Prop where
  | mk {now : Nat} {env : Env P} {rng : Rng}
    (hmandatory : t.initiationWireFloor ≤ Budget.ceiling dst.length (budget.controlFor .other))
    (hframed : Framed P t.amnezia t.handshake.obf .handshakeInit (t.handshake.initiated env).1
      ((TrailerRoom.window t.udpWindow).within
        (Budget.ceiling dst.length (budget.controlFor .other))) wire) :
    Initiates owed wire (t.initiating owed now env rng)

variable {t env dst budget} in
/-- The message is written by a tunnel that has noted it. -/
theorem writeHandshakeToNetwork_initiates {t' : Tunn P} {owed : Bool} {n : Nat}
    (hsent : t' = { t with
      handshake := { (t.handshake.initiated env).2 with rng := t'.handshake.rng }
      timers := (t.restarted owed n).initiated t.amnezia.timers (t.handshake.initiated env).2.rng
        !t.handshake.isInProgress })
    (hmandatory : t.initiationWireFloor ≤ Budget.ceiling dst.length (budget.controlFor .other)) :
    let packet := (t.handshake.initiated env).1
    let out := t'.writeHandshakeToNetwork (overwrite dst 0 packet) packet.length
      (Budget.ceiling dst.length (budget.controlFor .other))
    ∃ wire, out.1 = .writeToNetwork wire ∧ t.Initiates dst budget owed wire
      ((if out.1.isWriteToNetwork then out.2.note .initiationProduced else out.2).noteOutput
        .handshakeInitiation out.1) := by
  intro packet out
  have hcanon := t.handshake.canonical_initiated env
  have hroom : packet.length + t.amnezia.outboundJunkSize .handshakeInit ≤ dst.length := by
    rw [hcanon.exact _ rfl]
    exact hmandatory.trans Budget.ceiling_le
  have hobf : t'.handshake.obf = t.handshake.obf := by rw [hsent]; rfl
  have hcfg : t'.amnezia = t.amnezia := by rw [hsent]
  have hwindow : t'.udpWindow = t.udpWindow := by rw [hsent]
  obtain ⟨wire, rng, hout, hframed⟩ := writeToNetworkWith_framed hobf hcfg hcanon hroom
    ((TrailerRoom.window t'.udpWindow).within _)
  have hwritten : out = (.writeToNetwork wire, t'.withRng rng) := hout
  rw [hwindow] at hframed
  rw [hwritten, hsent]
  exact ⟨wire, rfl, .mk hmandatory hframed⟩

/-- An initiation is not wanted, does not fit, or is written. -/
theorem formatHandshakeInitiationNow_acts (owed : Bool) :
    let out := t.formatHandshakeInitiationNow env dst force owed budget
    (t.handshake.isInProgress = true ∧ force = false) ∨
    t.Refuses env dst budget t.initiationWireFloor out ∨
    ∃ wire, out.1 = .writeToNetwork wire ∧ t.Initiates dst budget owed wire out.2.1 := by
  unfold formatHandshakeInitiationNow
  split
  · next hbusy =>
    simp only [Bool.and_eq_true, Bool.not_eq_true'] at hbusy
    exact .inl hbusy
  · right
    split
    · next e hadmits => exact .inl (.of_admits hadmits)
    · next ceiling hadmits =>
      right
      obtain ⟨hbudget, hroom, rfl⟩ := Budget.admits_eq_ok.mp hadmits
      have hdst : HANDSHAKE_INIT_SZ ≤ dst.length := Nat.le_of_add_right_le hroom
      rcases hclear : (if owed && t.handshake.isExpired then t.clearTimers env else (t, env)) with
        ⟨t₁, env₁⟩
      have hcleared : t₁ = { t with timers := t.restarted owed env.now } := by
        unfold restarted
        split at hclear
        · next howed =>
          cases hclear
          rw [if_pos howed]
        · next howed =>
          cases hclear
          rw [if_neg howed]
      subst hcleared
      dsimp only
      rw [Handshake.formatHandshakeInitiation_spec _ _ _ hdst]
      dsimp only
      rw [armRetransmission_eq, timerTick_eq]
      exact writeHandshakeToNetwork_initiates (n := env.now) rfl (Budget.le_ceiling hbudget hroom)

/-! ### The burst -/

/-- The next datagram before a session is up. -/
inductive Emitting : Bytes → Tunn P → Prop where
  | imitation {pending : PendingAmneziaJunk} {delay : Nat} {datagram : Bytes}
    {rest : List (Nat × Bytes)} {last : Option Nat} {now : Nat}
    (hpending : t.pendingAmneziaJunk = some pending)
    (hnext : pending.imitationDatagrams = (delay, datagram) :: rest)
    (hle : datagram.length ≤ Budget.ceiling dst.length (budget.controlFor .other)) :
    Emitting datagram (t.advancing .imitation pending.resetExpiredTimers now
      ⟨rest, pending.remaining, last, false⟩)
  | junk {pending : PendingAmneziaJunk} {packet : Bytes} {range : Nat × Nat} {rng rng' : Rng}
    {last now : Nat} (hpending : t.pendingAmneziaJunk = some pending)
    (hdone : pending.imitationDatagrams = []) (hleft : pending.remaining ≠ 0)
    (hrange : t.amnezia.preHandshakeJunkRangeWithin budget = .ok range)
    (hfill : t.amnezia.fillPreHandshakeJunkIn dst range rng = (.ok packet, rng')) :
    Emitting packet ((t.withRng rng').advancing .junk pending.resetExpiredTimers now
      ⟨[], pending.remaining - 1, some last, false⟩)
  | deferred {pending : PendingAmneziaJunk} {wire : Bytes} {t' : Tunn P}
    (hpending : t.pendingAmneziaJunk = some pending)
    (hdone : pending.imitationDatagrams = []) (hzero : pending.remaining = 0)
    (hinitiates : t.Initiates dst budget pending.resetExpiredTimers wire t') :
    Emitting wire { t' with pendingAmneziaJunk := none }
  | direct {wire : Bytes} {t' : Tunn P} (hnone : t.pendingAmneziaJunk = none)
    (hinitiates : t.Initiates dst budget t.handshake.isExpired wire t') :
    Emitting wire t'

section

variable {t} {pending : PendingAmneziaJunk} (hpending : t.pendingAmneziaJunk = some pending)

include hpending

theorem resetExpiredTimersOnFirstEmit_eq :
    (t.resetExpiredTimersOnFirstEmit env).1 = { t with
      pendingAmneziaJunk := some { pending with resetExpiredTimers := false }
      timers := t.restarted pending.resetExpiredTimers env.now } := by
  unfold resetExpiredTimersOnFirstEmit restarted
  rw [hpending]
  dsimp only
  split
  · rfl
  · rfl

theorem emitImitationDatagram_acts {delay : Nat} {datagram : Bytes} {rest : List (Nat × Bytes)}
    (hnext : pending.imitationDatagrams = (delay, datagram) :: rest) :
    let out := t.emitImitationDatagram env pending datagram rest dst budget
    t.Refuses env dst budget datagram.length out ∨
    ∃ wire, out.1 = .writeToNetwork wire ∧ t.Emitting dst budget wire out.2.1 := by
  unfold emitImitationDatagram
  split
  · next e hadmits => exact .inl (.of_admits hadmits)
  · next hadmits =>
    obtain ⟨hbudget, hroom, -⟩ := Budget.admits_eq_ok.mp hadmits
    right
    dsimp only
    generalize (if rest.isEmpty then (none, env) else (some env.now, env.tick)) = last
    have hemits : t.Emitting dst budget datagram (t.advancing .imitation pending.resetExpiredTimers
        last.2.now ⟨rest, pending.remaining, last.1, false⟩) :=
      .imitation hpending hnext (Budget.le_ceiling hbudget hroom)
    rw [resetExpiredTimersOnFirstEmit_eq _ rfl]
    exact ⟨datagram, rfl, hemits⟩

theorem emitDeferredInitiation_acts (hdone : pending.imitationDatagrams = [])
    (hzero : pending.remaining = 0) :
    let out := t.emitDeferredInitiation env pending dst budget
    t.Refuses env dst budget t.initiationWireFloor out ∨
    ∃ wire, out.1 = .writeToNetwork wire ∧ t.Emitting dst budget wire out.2.1 := by
  unfold emitDeferredInitiation
  rcases t.formatHandshakeInitiationNow_acts env dst true budget pending.resetExpiredTimers with
    ⟨-, hforce⟩ | ⟨⟨e, he, hout⟩, hidle, hshort⟩ | ⟨wire, hout, hinitiates⟩
  · cases hforce
  · left
    dsimp only
    rw [hout]
    exact ⟨⟨e, he, rfl⟩, ⟨hidle.tunn, hidle.entropy⟩, hshort⟩
  · right
    dsimp only
    rw [hout]
    exact ⟨wire, rfl, .deferred hpending hdone hzero hinitiates⟩

theorem emitJunk_acts (hdone : pending.imitationDatagrams = []) (hleft : pending.remaining ≠ 0) :
    let out := t.emitJunk env dst budget
    t.Refuses env dst budget
      (t.amnezia.preHandshakeJunkMaxSizeIn t.amnezia.preHandshakeJunkSizeRange) out ∨
    ∃ wire, out.1 = .writeToNetwork wire ∧ t.Emitting dst budget wire out.2.1 := by
  unfold emitJunk
  split
  · next e hrange =>
    have he := t.amnezia.preHandshakeJunkRangeWithin_error hrange
    refine .inl ⟨⟨e, .inr he, rfl⟩, ⟨rfl, rfl⟩, ?_⟩
    rintro rfl
    rw [preHandshakeJunkRangeWithin_unbounded] at hrange
    cases hrange
  · next range hrange =>
    split
    · next hshort =>
      refine .inl ⟨⟨_, .inl rfl, rfl⟩, ⟨rfl, rfl⟩, ?_⟩
      rintro rfl
      rw [preHandshakeJunkRangeWithin_unbounded] at hrange
      cases hrange
      exact hshort
    · next hroom =>
      right
      have hreset := resetExpiredTimersOnFirstEmit_eq env hpending
      dsimp only
      generalize t.resetExpiredTimersOnFirstEmit env = reset at hreset ⊢
      obtain ⟨t₁, env₁⟩ := reset
      subst hreset
      obtain ⟨packet, hpacket⟩ := t.amnezia.fillPreHandshakeJunkIn_total hrange
        (Nat.not_lt.mp hroom) t.handshake.rng
      rcases hfill : t.amnezia.fillPreHandshakeJunkIn dst range t.handshake.rng with ⟨_, rng⟩
      rw [hfill] at hpacket
      cases hpacket
      refine ⟨packet, rfl, ?_⟩
      have hemits : t.Emitting dst budget packet ((t.withRng rng).advancing .junk
          pending.resetExpiredTimers env.now ⟨[], pending.remaining - 1, some env₁.now, false⟩) :=
        .junk hpending hdone hleft hrange hfill
      rw [← hdone] at hemits
      exact hemits

end

/-- What the next datagram of a burst needs, with no budget. -/
def nextSize (pending : PendingAmneziaJunk) : Nat :=
  match pending.imitationDatagrams with
  | (_, datagram) :: _ => datagram.length
  | [] =>
    if pending.remaining = 0 then t.initiationWireFloor
    else t.amnezia.preHandshakeJunkMaxSizeIn t.amnezia.preHandshakeJunkSizeRange

theorem burstDue_entropy (pending : PendingAmneziaJunk) :
    (t.burstDue pending env).2.entropy = env.entropy := by
  unfold burstDue
  split <;> rfl

/-- The burst waits, is refused, or moves on by one datagram. -/
theorem advanceAmneziaJunk_acts {pending : PendingAmneziaJunk}
    (hpending : t.pendingAmneziaJunk = some pending) :
    let out := t.advanceAmneziaJunk env dst budget
    (out.1 = .done ∧ t.Idles env out ∧ ∃ last, pending.lastPacketAt = some last) ∨
    t.Refuses env dst budget (t.nextSize pending) out ∨
    ∃ wire, out.1 = .writeToNetwork wire ∧ t.Emitting dst budget wire out.2.1 := by
  unfold advanceAmneziaJunk nextSize
  rw [hpending]
  dsimp only
  have hclock := t.burstDue_entropy env pending
  split
  · next env' hdue =>
    left
    rw [hdue] at hclock
    refine ⟨rfl, ⟨rfl, hclock⟩, ?_⟩
    unfold burstDue at hdue
    split at hdue
    · cases hdue
    · next last hlast => exact ⟨last, hlast⟩
  · next env' hdue =>
    right
    rw [hdue] at hclock
    cases hnext : pending.imitationDatagrams with
    | cons entry rest =>
      exact (emitImitationDatagram_acts _ dst budget hpending hnext).imp_left (·.earlier hclock)
    | nil =>
      dsimp only
      split
      · next hzero =>
        exact (emitDeferredInitiation_acts _ dst budget hpending hnext hzero).imp_left
          (·.earlier hclock)
      · next hleft =>
        exact (emitJunk_acts _ dst budget hpending hnext hleft).imp_left (·.earlier hclock)

/-! ### Demands -/

/-- The demand is met by the burst in flight, by a new one, or by the initiation itself. -/
inductive Readying : Tunn P → Prop where
  | pending {pending : PendingAmneziaJunk} (hpending : t.pendingAmneziaJunk = some pending) :
    Readying t
  | prepared {burst : PendingAmneziaJunk} {rng : Rng} (hnone : t.pendingAmneziaJunk = none)
    (hstart : t.handshake.isInProgress = false ∨ force = true)
    (hemits : t.amnezia.emitsPreHandshake = true)
    (hopens : burst.Opens P t.amnezia t.handshake.isExpired) :
    Readying ({ t.withRng rng with pendingAmneziaJunk := some burst }.note .burstPrepared)
  | direct (hnone : t.pendingAmneziaJunk = none)
    (hstart : t.handshake.isInProgress = false ∨ force = true)
    (hplain : t.amnezia.emitsPreHandshake = false) : Readying t

/-- A demand for an initiation. -/
inductive Driving : TunnResult → Tunn P → Env P → Prop where
  /-- One is in flight. -/
  | busy (hnone : t.pendingAmneziaJunk = none) (hbusy : t.handshake.isInProgress = true)
    (hforce : force = false) : Driving .done t env
  /-- The next datagram of the burst is not due. -/
  | paced {pending : PendingAmneziaJunk} {last : Nat} {env' : Env P}
    (hpending : t.pendingAmneziaJunk = some pending) (hlast : pending.lastPacketAt = some last)
    (hentropy : env'.entropy = env.entropy) : Driving .done t env'
  | refused {e : WireGuardError} {t₁ : Tunn P} {env' : Env P} (hready : t.Readying force t₁)
    (he : e.IsCapacity) (hentropy : env'.entropy = env.entropy) :
    Driving (.err e) t₁ env'
  | emitted {wire : Bytes} {t₁ t' : Tunn P} {env' : Env P} (hready : t.Readying force t₁)
    (hemits : t₁.Emitting dst budget wire t') :
    Driving (.writeToNetwork wire) t' env'

variable {t env dst force budget} in
/-- What is ready is refused, or emitted. -/
theorem Readying.driving {t₁ : Tunn P} {size : Nat} {out : TunnResult × Tunn P × Env P}
    (hready : t.Readying force t₁)
    (h : t₁.Refuses env dst budget size out ∨
      ∃ wire, out.1 = .writeToNetwork wire ∧ t₁.Emitting dst budget wire out.2.1) :
    t.Driving env dst force budget out.1 out.2.1 out.2.2 := by
  rcases h with ⟨⟨e, he, hout⟩, hidle, -⟩ | ⟨wire, hout, hemits⟩
  · rw [hout, hidle.tunn]
    exact .refused hready he hidle.entropy
  · rw [hout]
    exact .emitted hready hemits

theorem advanceAmneziaJunk_driving {pending : PendingAmneziaJunk}
    (hpending : t.pendingAmneziaJunk = some pending) :
    let out := t.advanceAmneziaJunk env dst budget
    t.Driving env dst force budget out.1 out.2.1 out.2.2 := by
  rcases t.advanceAmneziaJunk_acts env dst budget hpending with ⟨hout, hidle, last, hlast⟩ | hacts
  · dsimp only
    rw [hout, hidle.tunn]
    exact .paced hpending hlast hidle.entropy
  · exact (Readying.pending hpending).driving hacts

theorem newPreHandshakeBurst_opens (hemits : t.amnezia.emitsPreHandshake = true) (owed : Bool) :
    (t.newPreHandshakeBurst none owed).1.Opens P t.amnezia owed ∧
      ∃ rng, (t.newPreHandshakeBurst none owed).2 = t.withRng rng := by
  unfold newPreHandshakeBurst
  rw [hemits, Bool.not_true, if_neg Bool.false_ne_true]
  exact ⟨⟨⟨t.handshake.rng, rfl⟩, rfl, rfl, rfl⟩, _, rfl⟩

theorem formatHandshakeInitiation_driving :
    let out := t.formatHandshakeInitiation env dst force budget
    t.Driving env dst force budget out.1 out.2.1 out.2.2 := by
  unfold formatHandshakeInitiation
  cases hpending : t.pendingAmneziaJunk with
  | some pending =>
    exact t.advanceAmneziaJunk_driving env dst force budget hpending
  | none =>
    rw [Option.isSome_none, if_neg Bool.false_ne_true]
    split
    · next hbusy =>
      simp only [Bool.and_eq_true, Bool.not_eq_true'] at hbusy
      exact .busy hpending hbusy.1 hbusy.2
    · next hwanted =>
      have hstart : t.handshake.isInProgress = false ∨ force = true := by
        simpa [imp_iff_not_or] using hwanted
      split
      · next hemits =>
        obtain ⟨hopens, rng, hsame⟩ := t.newPreHandshakeBurst_opens hemits t.handshake.isExpired
        dsimp only
        generalize t.newPreHandshakeBurst none t.handshake.isExpired = new at hopens hsame ⊢
        obtain ⟨burst, t₁⟩ := new
        subst hsame
        generalize hprepared : { t.withRng rng with pendingAmneziaJunk := some burst }.note
          .burstPrepared = t₁
        have hburst : t₁.pendingAmneziaJunk = some burst := by rw [← hprepared]; rfl
        have hready : t.Readying force t₁ := by
          rw [← hprepared]
          exact .prepared hpending hstart hemits hopens
        rcases t₁.advanceAmneziaJunk_acts env dst budget hburst with ⟨-, -, last, hlast⟩ | hacts
        · rw [hopens.last] at hlast
          cases hlast
        · exact hready.driving hacts
      · next hplain =>
        rcases t.formatHandshakeInitiationNow_acts env dst force budget t.handshake.isExpired with
          ⟨hbusy, hforce⟩ | hacts
        · rw [hbusy, hforce] at hwanted
          exact absurd rfl hwanted
        · refine (Readying.direct hpending hstart (Bool.eq_false_iff.mpr hplain)).driving
            (hacts.imp_right ?_)
          rintro ⟨wire, hout, hinitiates⟩
          exact ⟨wire, hout, .direct hpending hinitiates⟩

section

variable {t dst budget} {t' : Tunn P}

theorem Initiates.packetQueue {owed : Bool} {wire : Bytes} (h : t.Initiates dst budget owed wire t') :
    t'.packetQueue = t.packetQueue := by
  cases h
  rfl

variable {env force} in
/-- A demand for an initiation leaves the queue alone. -/
theorem Driving.packetQueue {result : TunnResult} {env' : Env P}
    (h : t.Driving env dst force budget result t' env') :
    t'.packetQueue = t.packetQueue := by
  have hready {t₁ : Tunn P} (h : t.Readying force t₁) : t₁.packetQueue = t.packetQueue := by
    cases h <;> rfl
  cases h with
  | busy => rfl
  | paced => rfl
  | refused h => exact hready h
  | emitted h hemits =>
    rw [← hready h]
    cases hemits with
    | imitation => rfl
    | junk => rfl
    | deferred _ _ _ hinitiates | direct _ hinitiates => exact hinitiates.packetQueue

end

/-! ### Writes and drains -/

theorem hasCurrentSession_iff {t : Tunn P} : t.hasCurrentSession = true ↔
    ∃ session, t.selected = some session ∧ session.sendingExhausted = false := by
  unfold hasCurrentSession
  cases t.selected with
  | none => simp
  | some session => simp

/-- A packet from the caller. -/
inductive Submitting : TunnResult → Tunn P → Env P → Prop where
  | refused {e : WireGuardError} (husable : t.hasCurrentSession = true) (he : e.IsCapacity) :
    Submitting (.err e) t env
  | sent {wire : Bytes} {session : Session P} {rng rng' : Rng}
    (husable : t.hasCurrentSession = true) (hselected : t.selected = some session)
    (hsealed : Sealed t.amnezia t.handshake.obf (t.windowFor src.length) session src dst
      budget wire) :
    Submitting (.writeToNetwork wire)
      (t.delivering session src rng rng') env
  | full (hidle : t.hasCurrentSession = false) (hfull : MAX_QUEUE_DEPTH ≤ t.packetQueue.length) :
    Submitting (.err .packetQueueFull) t env
  | failed {e : WireGuardError} {t' : Tunn P} {env' : Env P} (hidle : t.hasCurrentSession = false)
    (hroom : t.packetQueue.length < MAX_QUEUE_DEPTH)
    (hdrives : t.Driving env dst false budget (.err e) t' env') :
    Submitting (.err e) t' env'
  | queued {result : TunnResult} {t' : Tunn P} {env' : Env P} (hidle : t.hasCurrentSession = false)
    (hroom : t.packetQueue.length < MAX_QUEUE_DEPTH)
    (hdrives : t.Driving env dst false budget result t' env') (hok : result.isErr = false) :
    Submitting result
      ({ t' with packetQueue := t'.packetQueue ++ [src] }.note .queueAdmitted) env'

variable {t} in
/-- On a session that can send, a payload is refused or sent. -/
theorem encapsulateOnSession_acts (husable : t.hasCurrentSession = true) :
    (∃ e : WireGuardError, e.IsCapacity ∧ t.encapsulateOnSession src dst budget = (.err e, t)) ∨
      ∃ wire session rng rng', t.selected = some session ∧
        t.encapsulateOnSession src dst budget =
          (.writeToNetwork wire, t.delivering session src rng rng') ∧
        Sealed t.amnezia t.handshake.obf (t.windowFor src.length) session src dst budget wire := by
  obtain ⟨session, hselected, hnonce⟩ := hasCurrentSession_iff.mp husable
  cases hadmits : Budget.admits (Budget.transportFrame src.length t.amnezia.transportJunkSize)
      dst.length budget.transport with
  | error e =>
    exact .inl ⟨e, (Budget.admits_eq_error hadmits).symm,
      encapsulateOnSession_refused hselected hadmits⟩
  | ok ceiling =>
    obtain ⟨wire, rng, rng', hout, hsealed⟩ :=
      encapsulateOnSession_admitted hselected hnonce hadmits
    exact .inr ⟨wire, session, rng, rng', hselected, hout, hsealed⟩

theorem admitWithoutSession_submitting (hidle : t.hasCurrentSession = false) :
    let out := t.admitWithoutSession env src dst budget
    t.Submitting env src dst budget out.1 out.2.1 out.2.2 := by
  unfold admitWithoutSession
  split
  · next hfull => exact .full hidle (by simpa [queueHasRoom] using hfull)
  · next hroom =>
    have hlt : t.packetQueue.length < MAX_QUEUE_DEPTH := by simpa [queueHasRoom] using hroom
    have hdrives := t.formatHandshakeInitiation_driving env dst false budget
    generalize t.formatHandshakeInitiation env dst false budget = out at hdrives ⊢
    obtain ⟨result, t₁, env₁⟩ := out
    dsimp only at hdrives ⊢
    split
    · next herr =>
      cases result with
      | err e => exact .failed hidle hlt hdrives
      | _ => cases herr
    · next hok =>
      have hroom₁ : t₁.queueHasRoom = true := by
        simpa [queueHasRoom, hdrives.packetQueue] using hlt
      unfold queuePacket
      rw [hroom₁, Bool.not_true, if_neg Bool.false_ne_true]
      exact .queued hidle hlt hdrives (Bool.eq_false_iff.mpr hok)

theorem encapsulate_submitting :
    let out := t.encapsulate env src dst budget
    t.Submitting env src dst budget out.1 out.2.1 out.2.2 := by
  unfold encapsulate
  split
  · next husable =>
    rcases encapsulateOnSession_acts src dst budget husable with
      ⟨e, he, hout⟩ | ⟨wire, session, rng, rng', hselected, hout, hsealed⟩
    · rw [hout]
      exact .refused husable he
    · rw [hout]
      exact .sent husable hselected hsealed
  · next hidle =>
    exact t.admitWithoutSession_submitting env src dst budget (Bool.eq_false_iff.mpr hidle)

/-- Heads of the queue were dropped, and that is noted. -/
def noteDropped (dropped : List Bytes) : Tunn P :=
  { t with
    opState := if dropped.isEmpty then t.opState else t.opState.note .queueHeadDropped }

/-- A payload that a finite transport budget can never let through. -/
def IsOver (payload : Bytes) : Prop :=
  Budget.exceeds (Budget.transportFrame payload.length t.amnezia.transportJunkSize)
    budget.transport = true

/-- Send what is queued. -/
inductive Draining : TunnResult → Tunn P → Env P → Prop where
  | empty (hempty : t.packetQueue = []) : Draining .done t env
  | driven {result : TunnResult} {t' : Tunn P} {env' : Env P} (hidle : t.hasCurrentSession = false)
    (hqueued : t.packetQueue ≠ []) (hdrives : t.Driving env dst false budget result t' env') :
    Draining result t' env'
  /-- Nothing of the queue fits the budget. -/
  | dropped (husable : t.hasCurrentSession = true)
    (hover : ∀ payload ∈ t.packetQueue, t.IsOver budget payload) :
    Draining .done { t.noteDropped t.packetQueue with packetQueue := [] } env
  | refused {e : WireGuardError} {dropped : List Bytes} {head : Bytes} {rest : List Bytes}
    (husable : t.hasCurrentSession = true) (hqueue : t.packetQueue = dropped ++ head :: rest)
    (hover : ∀ payload ∈ dropped, t.IsOver budget payload) (he : e.IsCapacity) :
    Draining (.err e)
      { t.noteDropped dropped with packetQueue := head :: rest } env
  | sent {wire head : Bytes} {dropped rest : List Bytes} {session : Session P} {rng rng' : Rng}
    (husable : t.hasCurrentSession = true) (hqueue : t.packetQueue = dropped ++ head :: rest)
    (hover : ∀ payload ∈ dropped, t.IsOver budget payload) (hselected : t.selected = some session)
    (hsealed : Sealed t.amnezia t.handshake.obf (t.windowFor head.length) session head dst budget
      wire) :
    Draining (.writeToNetwork wire)
      ({ t.noteDropped dropped with packetQueue := rest }.delivering session head rng rng') env

theorem noteDropped_append (dropped : List Bytes) (head : Bytes) :
    (t.noteDropped dropped).note .queueHeadDropped = t.noteDropped (dropped ++ [head]) := by
  cases dropped with
  | nil => rfl
  | cons first dropped => simp [noteDropped, note, OpState.note]

variable {t} in
/-- What a drain does to the queue, once `dropped` is gone from it. -/
theorem drainHeads_draining (husable : t.hasCurrentSession = true) (queue : List Bytes) :
    ∀ dropped, t.packetQueue = dropped ++ queue → (∀ payload ∈ dropped, t.IsOver budget payload) →
      t.Draining env dst budget (drainHeads dst budget (t.noteDropped dropped) queue).1
        (drainHeads dst budget (t.noteDropped dropped) queue).2 env := by
  induction queue with
  | nil =>
    intro dropped hqueue hover
    rw [List.append_nil] at hqueue
    subst hqueue
    exact .dropped husable hover
  | cons head rest ih =>
    intro dropped hqueue hover
    unfold drainHeads
    split
    · next hhead =>
      rw [noteDropped_append _ _ head]
      refine ih (dropped ++ [head]) (by simpa using hqueue) ?_
      exact List.forall_mem_append.mpr ⟨hover, List.forall_mem_singleton.mpr hhead⟩
    · have husable₁ : { t.noteDropped dropped with packetQueue := rest }.hasCurrentSession =
          true := husable
      rcases encapsulateOnSession_acts head dst budget husable₁ with
        ⟨e, he, hout⟩ | ⟨wire, session, rng, rng', hselected, hout, hsealed⟩
      · have hcapacity : (TunnResult.err e).isCapacity = true := by
          rcases he with rfl | rfl <;> rfl
        rw [hout]
        dsimp only
        rw [if_pos hcapacity]
        exact .refused husable hqueue hover he
      · rw [hout]
        exact .sent husable hqueue hover hselected hsealed

theorem sendQueuedPacket_draining :
    let out := t.sendQueuedPacket env dst budget
    t.Draining env dst budget out.1 out.2.1 out.2.2 := by
  unfold sendQueuedPacket
  split
  · next hempty => exact .empty (List.isEmpty_iff.mp hempty)
  · next hqueued =>
    split
    · next hidle =>
      exact .driven (by simpa using hidle) (fun hempty => hqueued (List.isEmpty_iff.mpr hempty))
        (t.formatHandshakeInitiation_driving _ _ _ _)
    · next husable =>
      exact drainHeads_draining env dst budget (by simpa using husable) t.packetQueue [] rfl nofun

/-! ### Polls -/

/-- A poll at a tunnel whose sessions are aged. -/
inductive Polling : TunnResult → Tunn P → Env P → Prop where
  | waits {env' : Env P} (hnone : t.pendingAmneziaJunk = none) : Polling .done t env'
  | burst {pending : PendingAmneziaJunk} {result : TunnResult} {t' : Tunn P} {env' : Env P}
    (hpending : t.pendingAmneziaJunk = some pending)
    (hdrives : t.Driving env dst true budget result t' env') : Polling result t' env'
  /-- Past a bound that nothing a refused output does can move, or out of attempts. -/
  | expires {env₁ env' : Env P}
    (hlive : t.handshake.isExpired = false ∨ t.pendingAmneziaJunk.isSome = true) :
    Polling (.err .connectionExpired) (t.expire env₁).1 env'
  | expired (hnone : t.pendingAmneziaJunk = none) (hexpired : t.handshake.isExpired = true) :
    Polling (.err .connectionExpired) t env
  | retransmits {sent : HandshakeInitSentState P} {result : TunnResult} {t' : Tunn P}
    {env₁ env' : Env P} (hnone : t.pendingAmneziaJunk = none)
    (hsent : t.handshake.state = .initSent sent)
    (hleft : t.timers.handshakeAttempts < t.timers.maxRetransmissionsCurrent)
    (hdrives : t.Driving env₁ dst true budget result t' env') :
    Polling result (t'.noteRefusal result) env'
  /-- The key is old enough, or data was not answered. -/
  | initiates {latch : Option Nat} {result : TunnResult} {t' : Tunn P} {env' : Env P}
    (hnone : t.pendingAmneziaJunk = none) (hidle : ∀ sent, t.handshake.state ≠ .initSent sent)
    (hlive : t.handshake.isExpired = false)
    (hdrives : (t.spendLatch latch).Driving env dst true budget result t' env')
    (hkept : t'.pendingAmneziaJunk.isSome = true ∨ result.isErr = false) :
    Polling result (t'.noteRefusal result) env'
  /-- A refusal gives the demand back. -/
  | withholds {e : WireGuardError} {env' : Env P} (hnone : t.pendingAmneziaJunk = none)
    (hlive : t.handshake.isExpired = false) (he : e.IsCapacity) :
    Polling (.err e) (t.note .tickDemandRefused) env'
  | keepalive {passive persistent : Bool} {result : TunnResult} {t' : Tunn P} {env' : Env P}
    (hnone : t.pendingAmneziaJunk = none) (hidle : ∀ sent, t.handshake.state ≠ .initSent sent)
    (hdue : passive = true ∨ persistent = true)
    (hpassive : passive = true → t.timers.wantKeepalive.isSome = true)
    (hon : persistent = true → t.timers.persistentKeepaliveOn = true)
    (hlive : t.handshake.isExpired = false ∨ persistent = true)
    (hsubmits : (t.spendKeepalives passive persistent).Submitting env [] dst budget result t' env')
    (hkept : result.isCapacity = false) :
    Polling result (t'.noteRefusal result) env'
  /-- A keepalive that was refused; the burst it prepared stays. -/
  | owes {e : WireGuardError} {t' : Tunn P} {env' : Env P} (hnone : t.pendingAmneziaJunk = none)
    (hidle : ∀ sent, t.handshake.state ≠ .initSent sent) (he : e.IsCapacity)
    (hready : t' = t ∨ t.Readying false t')
    (hlive : t.handshake.isExpired = false ∨ t.timers.persistentKeepaliveOn = true) :
    Polling (.err e) (t'.note .tickDemandRefused) env'

theorem isCapacity_eq_true {result : TunnResult} (h : result.isCapacity = true) :
    ∃ e : WireGuardError, e.IsCapacity ∧ result = .err e := by
  unfold TunnResult.isCapacity at h
  split at h
  · exact ⟨_, .inl rfl, rfl⟩
  · exact ⟨_, .inr rfl, rfl⟩
  · cases h

theorem isCapacity_err {e : WireGuardError} (he : e.IsCapacity) :
    (TunnResult.err e).isCapacity = true := by
  rcases he with rfl | rfl <;> rfl

/-- What selecting the passive and the persistent keepalive leaves of the timers. -/
def spentTimers (passive persistent : Bool) : Timers :=
  let timers := if passive then { t.timers with wantKeepalive := none } else t.timers
  if persistent then
    { timers with persistentKeepaliveDue := false }.set .timePersistentKeepalive
      t.timers.timeCurrent
  else timers

theorem spendKeepalives_eq (passive persistent : Bool) : t.spendKeepalives passive persistent =
    { t with timers := t.spentTimers passive persistent } := by
  cases passive <;> cases persistent <;> rfl

/-- Rolling back gives the timers before the keepalive was selected. -/
theorem timers_rollBack (passive persistent : Bool) :
    { (t.spentTimers passive persistent).set .timePersistentKeepalive
        t.keepaliveRollback.persistent with
      persistentKeepaliveDue := t.keepaliveRollback.due
      wantKeepalive := t.keepaliveRollback.passive
      persistentKeepaliveCurrent := t.keepaliveRollback.interval } = t.timers := by
  have hstamps : ((t.spentTimers passive persistent).set .timePersistentKeepalive
      (t.timers.timers .timePersistentKeepalive)).timers = t.timers.timers := by
    funext name
    rw [Timers.set_timers]
    split
    · next hname => rw [hname]
    · next hname =>
      cases passive <;> cases persistent <;> first | rfl | exact Function.update_of_ne hname _ _
  have hrest : { (t.spentTimers passive persistent).set .timePersistentKeepalive
        t.keepaliveRollback.persistent with
      persistentKeepaliveDue := t.keepaliveRollback.due
      wantKeepalive := t.keepaliveRollback.passive
      persistentKeepaliveCurrent := t.keepaliveRollback.interval } =
      { t.timers with timers := ((t.spentTimers passive persistent).set
        .timePersistentKeepalive (t.timers.timers .timePersistentKeepalive)).timers } := by
    cases passive <;> cases persistent <;> rfl
  rw [hrest, hstamps]

/-- A keepalive that was selected is submitted, or given back. -/
theorem sendKeepalive_acts (hnone : t.pendingAmneziaJunk = none) (passive persistent : Bool) :
    let out := (t.spendKeepalives passive persistent).sendKeepalive env dst t.keepaliveRollback
      budget
    (out.1.isCapacity = false ∧ ∃ t', out.2.1 = t'.noteRefusal out.1 ∧
      (t.spendKeepalives passive persistent).Submitting env [] dst budget out.1 t' out.2.2) ∨
    ∃ (e : WireGuardError) (t' : Tunn P), e.IsCapacity ∧ out.1 = .err e ∧
      out.2.1 = t'.note .tickDemandRefused ∧ (t' = t ∨ t.Readying false t') := by
  have hsubmits := (t.spendKeepalives passive persistent).encapsulate_submitting env [] dst budget
  unfold sendKeepalive
  generalize (t.spendKeepalives passive persistent).encapsulate env [] dst budget = out at hsubmits ⊢
  obtain ⟨result, t₁, env₁⟩ := out
  dsimp only at hsubmits ⊢
  cases hcapacity : result.isCapacity with
  | false =>
    exact .inl ⟨rfl, t₁, rfl, hsubmits⟩
  | true =>
    obtain ⟨e, he, rfl⟩ := isCapacity_eq_true hcapacity
    refine .inr ⟨e, t₁.rollBackKeepalive t.keepaliveRollback, he, rfl, rfl, ?_⟩
    have hback : (t.spendKeepalives passive persistent).rollBackKeepalive t.keepaliveRollback =
        t := by
      unfold rollBackKeepalive
      rw [spendKeepalives_eq, timers_rollBack]
    cases hsubmits with
    | refused => exact .inl hback
    | full => rcases he with he | he <;> cases he
    | failed _ _ hdrives =>
      cases hdrives with
      | refused hready =>
        rw [spendKeepalives_eq] at hready
        cases hready with
        | pending hpending => exact absurd (hnone.symm.trans hpending) nofun
        | @prepared burst rng _ hstart hemits hopens =>
          right
          have hprepared : t.Readying false
              ({ t.withRng rng with pendingAmneziaJunk := some burst }.note .burstPrepared) :=
            .prepared hnone hstart hemits hopens
          unfold rollBackKeepalive
          dsimp only [note, withRng]
          rw [timers_rollBack]
          exact hprepared
        | direct =>
          rw [← spendKeepalives_eq]
          exact .inl hback
    | queued _ _ _ hok => cases hok

theorem sendInitiation_acts {latch : Option Nat} (hnone : t.pendingAmneziaJunk = none)
    (hlatch : latch.isSome = true → latch = t.timers.wantHandshake) :
    let out := (t.spendLatch latch).sendInitiation env dst latch budget
    (∃ e : WireGuardError, e.IsCapacity ∧ out.1 = .err e ∧ out.2.1 = t.note .tickDemandRefused) ∨
      ∃ t', out.2.1 = t'.noteRefusal out.1 ∧
        (t.spendLatch latch).Driving env dst true budget out.1 t' out.2.2 ∧
        (t'.pendingAmneziaJunk.isSome = true ∨ out.1.isErr = false) := by
  have hdrives := (t.spendLatch latch).formatHandshakeInitiation_driving env dst true budget
  have hnone₁ : (t.spendLatch latch).pendingAmneziaJunk = none := by
    cases latch <;> exact hnone
  unfold sendInitiation
  generalize (t.spendLatch latch).formatHandshakeInitiation env dst true budget = out at hdrives ⊢
  obtain ⟨result, t₁, env₁⟩ := out
  dsimp only at hdrives ⊢
  -- only a demand that nothing carries on is given back
  have hleft (hkept : t₁.pendingAmneziaJunk.isSome = true ∨ result.isErr = false) :
      ¬ (latch.isSome && t₁.pendingAmneziaJunk.isNone && result.isCapacity) = true := by
    rcases hkept with hsome | hok
    · simp [hsome, ← Option.not_isSome]
    · cases result with
      | err e => cases hok
      | _ => simp [TunnResult.isCapacity]
  cases hdrives with
  | busy _ _ hforce => cases hforce
  | paced hpending => exact absurd (hnone₁.symm.trans hpending) nofun
  | emitted hready hemits =>
    rw [if_neg (hleft (.inr rfl))]
    exact .inr ⟨t₁, rfl, .emitted hready hemits, .inr rfl⟩
  | refused hready he hentropy =>
    cases hready with
    | pending hpending => exact absurd (hnone₁.symm.trans hpending) nofun
    | prepared hnone' hstart hemits hopens =>
      rw [if_neg (hleft (.inl rfl))]
      exact .inr ⟨_, rfl, .refused (.prepared hnone' hstart hemits hopens) he hentropy, .inl rfl⟩
    | direct =>
      refine .inl ⟨_, he, rfl, ?_⟩
      cases latch with
      | none => rfl
      | some armed =>
        have hback : { t with timers := { t.timers with wantHandshake := some armed } } = t := by
          rw [hlatch rfl]
        rw [if_pos (by rw [hnone₁, isCapacity_err he]; rfl)]
        exact congrArg (note · .tickDemandRefused) hback

theorem timer_eq_none {h : Handshake P} (htimer : h.timer = none) (sent : HandshakeInitSentState P) :
    h.state ≠ .initSent sent := by
  intro hstate
  unfold Handshake.timer at htimer
  rw [hstate] at htimer
  cases htimer

theorem timer_eq_some {h : Handshake P} {timeSent : Nat} (htimer : h.timer = some timeSent) :
    ∃ sent, h.state = .initSent sent := by
  unfold Handshake.timer at htimer
  split at htimer
  · next sent hstate => exact ⟨sent, hstate⟩
  · cases htimer

theorem timer_of_isExpired {h : Handshake P} (hexpired : h.isExpired = true) : h.timer = none := by
  cases htimer : h.timer with
  | none => rfl
  | some timeSent =>
    obtain ⟨sent, hstate⟩ := timer_eq_some htimer
    unfold Handshake.isExpired at hexpired
    rw [hstate] at hexpired
    cases hexpired

theorem burstOwesExpiredReset_iff : t.burstOwesExpiredReset = true ↔
    ∃ pending, t.pendingAmneziaJunk = some pending ∧ pending.resetExpiredTimers = true ∧
      t.handshake.isExpired = true := by
  unfold burstOwesExpiredReset
  cases t.pendingAmneziaJunk with
  | none => simp
  | some pending => simp [and_comm]

theorem pollHandshake_polling {sent : HandshakeInitSentState P} (hnone : t.pendingAmneziaJunk = none)
    (hstate : t.handshake.state = .initSent sent) (timeInitSent : Nat) :
    let out := t.pollHandshake env timeInitSent dst budget
    t.Polling env dst budget out.1 out.2.1 out.2.2 := by
  have hlive : t.handshake.isExpired = false := by
    unfold Handshake.isExpired
    rw [hstate]
  unfold pollHandshake
  dsimp only
  split
  · exact .waits hnone
  split
  · exact .expires (.inl hlive)
  next hleft =>
  rcases @sendInitiation_acts _ t env.tick dst budget none hnone nofun with
    ⟨e, he, hout, htunn⟩ | ⟨t₁, htunn, hdrives, -⟩
  · rw [show t.spendLatch none = t from rfl] at hout htunn
    rw [hout, htunn]
    exact .withholds hnone hlive he
  · rw [show t.spendLatch none = t from rfl] at hdrives htunn
    rw [htunn]
    exact .retransmits hnone hstate (Nat.lt_of_not_ge hleft) hdrives

/-- A keepalive that is due is served. -/
theorem sendKeepalive_polling {passive persistent : Bool} (hnone : t.pendingAmneziaJunk = none)
    (htimer : t.handshake.timer = none) (hdue : passive = true ∨ persistent = true)
    (hpassive : passive = true → t.timers.wantKeepalive.isSome = true)
    (hon : persistent = true → t.timers.persistentKeepaliveOn = true)
    (hlive : t.handshake.isExpired = false ∨ persistent = true) :
    let out := (t.spendKeepalives passive persistent).sendKeepalive env dst t.keepaliveRollback
      budget
    t.Polling env dst budget out.1 out.2.1 out.2.2 := by
  rcases t.sendKeepalive_acts env dst budget hnone passive persistent with
    ⟨hkept, t₁, htunn, hsubmits⟩ | ⟨e, t₁, he, hout, htunn, hready⟩
  · dsimp only
    rw [htunn]
    exact .keepalive hnone (timer_eq_none htimer) hdue hpassive hon hlive hsubmits hkept
  · dsimp only
    rw [hout, htunn]
    exact .owes hnone (timer_eq_none htimer) he hready (hlive.imp_right hon)

theorem pollKeepalives_polling (now : Nat) (hnone : t.pendingAmneziaJunk = none)
    (htimer : t.handshake.timer = none) (hlive : t.handshake.isExpired = false) :
    let out := t.pollKeepalives env now dst t.keepaliveRollback budget
    t.Polling env dst budget out.1 out.2.1 out.2.2 := by
  unfold pollKeepalives
  dsimp only
  generalize hpassive : (t.timers.wantKeepalive.any fun armed =>
    decide (now - armed ≥ t.timers.keepaliveCurrent)) = passive
  generalize hpersistent : (t.timers.persistentKeepaliveOn && (t.timers.persistentKeepaliveDue ||
    decide (now - t.timers.timers .timePersistentKeepalive ≥
      t.timers.persistentKeepaliveCurrent))) = persistent
  cases hdue : passive || persistent with
  | false =>
    obtain ⟨rfl, rfl⟩ := Bool.or_eq_false_iff.mp hdue
    exact .waits hnone
  | true =>
    refine t.sendKeepalive_polling env dst budget hnone htimer (Bool.or_eq_true_iff.mp hdue) ?_ ?_
      (.inl hlive)
    · intro h
      rw [← hpassive] at h
      exact Option.isSome_of_any h
    · intro h
      rw [← hpersistent] at h
      exact (Bool.and_eq_true_iff.mp h).1

theorem pollIdle_polling (now : Nat) (hnone : t.pendingAmneziaJunk = none)
    (htimer : t.handshake.timer = none) (hlive : t.handshake.isExpired = false) :
    let out := t.pollIdle env now dst t.keepaliveRollback budget
    t.Polling env dst budget out.1 out.2.1 out.2.2 := by
  unfold pollIdle
  dsimp only
  generalize hlatch : (t.timers.wantHandshake.filter fun armed =>
    decide (now - armed ≥ t.timers.newHandshakeCurrent)) = latch
  have hwanted : latch.isSome = true → latch = t.timers.wantHandshake := by
    rintro h
    obtain ⟨armed, rfl⟩ := Option.isSome_iff_exists.mp h
    exact (Option.filter_eq_some_iff.mp hlatch).1.symm
  split
  · rcases t.sendInitiation_acts env dst budget hnone hwanted with
      ⟨e, he, hout, htunn⟩ | ⟨t₁, htunn, hdrives, hkept⟩
    · rw [hout, htunn]
      exact .withholds hnone hlive he
    · rw [htunn]
      exact .initiates hnone (timer_eq_none htimer) hlive hdrives hkept
  · next hquiet =>
    have hspent : t.spendLatch latch = t := by
      cases latch with
      | none => rfl
      | some armed => simp at hquiet
    rw [hspent]
    exact t.pollKeepalives_polling env dst budget now hnone htimer hlive

/-- What a poll serves once the sessions are aged, after it may have forgotten a cookie. -/
theorem servePoll_polling (now : Nat) : ∃ t₁, (t₁ = t ∨ t₁ = t.forgetOldCookie now) ∧
    let out := t.servePoll env now dst t.keepaliveRollback budget
    t₁.Polling env dst budget out.1 out.2.1 out.2.2 := by
  unfold servePoll
  dsimp only
  split
  · next howes =>
    obtain ⟨pending, hpending, -⟩ := t.burstOwesExpiredReset_iff.mp howes
    exact ⟨t, .inl rfl, .burst hpending (t.advanceAmneziaJunk_driving env dst true budget hpending)⟩
  split
  · next hpending =>
    split
    · exact ⟨t, .inl rfl, .expires (.inr hpending)⟩
    · obtain ⟨pending, hpending⟩ := Option.isSome_iff_exists.mp hpending
      exact ⟨t, .inl rfl,
        .burst hpending (t.advanceAmneziaJunk_driving env dst true budget hpending)⟩
  next hpending =>
  have hnone : t.pendingAmneziaJunk = none := Option.not_isSome_iff_eq_none.mp hpending
  cases hexpired : t.handshake.isExpired with
  | true =>
    rw [if_pos rfl]
    refine ⟨t, .inl rfl, ?_⟩
    split
    · exact .expired hnone hexpired
    next hdue =>
    have hdue : t.timers.persistentKeepaliveOn = true ∧ t.timers.persistentKeepaliveDue = true := by
      simpa using hdue
    exact t.sendKeepalive_polling env dst budget hnone (timer_of_isExpired hexpired) (.inr rfl) nofun
      (fun _ => hdue.1) (.inr rfl)
  | false =>
    rw [if_neg Bool.false_ne_true]
    refine ⟨t.forgetOldCookie now, .inr rfl, ?_⟩
    have hsame : (t.forgetOldCookie now).keepaliveRollback = t.keepaliveRollback ∧
        (t.forgetOldCookie now).pendingAmneziaJunk = none ∧
        (t.forgetOldCookie now).handshake.isExpired = false := by
      unfold forgetOldCookie
      split
      · exact ⟨rfl, hnone, hexpired⟩
      · exact ⟨rfl, hnone, hexpired⟩
    obtain ⟨hrollback, hnone₁, hlive₁⟩ := hsame
    rw [← hrollback]
    generalize t.forgetOldCookie now = t₁ at hnone₁ hlive₁
    split
    · exact .expires (.inl hlive₁)
    split
    · next timeInitSent htimer =>
      obtain ⟨sent, hstate⟩ := timer_eq_some htimer
      exact t₁.pollHandshake_polling env dst budget hnone₁ hstate timeInitSent
    · next htimer => exact t₁.pollIdle_polling env dst budget now hnone₁ htimer hlive₁

/-- A poll ages the sessions, then serves one demand. -/
theorem updateTimers_polling :
    ∃ t₁, (t₁ = (t.beginPoll env).2.1 ∨
        t₁ = (t.beginPoll env).2.1.forgetOldCookie (t.timers.monotonicNow env.now)) ∧
      let out := t.updateTimers env dst budget
      t₁.Polling (t.beginPoll env).2.2 dst budget out.1 out.2.1 out.2.2 := by
  have hpolls := (t.beginPoll env).2.1.servePoll_polling (t.beginPoll env).2.2 dst budget
    (t.timers.monotonicNow env.now)
  exact hpolls

end

/-! ### Configuration -/

/-- What a new configuration makes of the burst in flight. -/
inductive Rebursts (amnezia : AmneziaConfig) : Option PendingAmneziaJunk → Prop where
  | kept (hkeep : t.amnezia.pendingBurstChange amnezia ≠ .restart) :
    Rebursts amnezia t.pendingAmneziaJunk
  | idle (hnone : t.pendingAmneziaJunk = none) : Rebursts amnezia none
  | silenced {old : PendingAmneziaJunk} (hold : t.pendingAmneziaJunk = some old) :
    Rebursts amnezia (some { old with imitationDatagrams := [], remaining := 0 })
  | redrawn {old : PendingAmneziaJunk} {rng : Rng} (hold : t.pendingAmneziaJunk = some old) :
    Rebursts amnezia (some { old with
      imitationDatagrams := (amnezia.preHandshakeImitationDatagrams P rng).1
      remaining := amnezia.preHandshakeJunk.packetCount })

/-- A configuration that passed its check is installed. -/
inductive Installs (obf : ObfuscationRanges) (amnezia : AmneziaConfig) : Tunn P → Prop where
  | mk {burst : Option PendingAmneziaJunk} {timers : Timers} {rng : Rng}
    (checked : amnezia.checkHeaderProtectionNonce = .ok ()) (hburst : t.Rebursts amnezia burst)
    (htimers : timers = t.timers ∨
      ∃ r, timers = (t.timers.redrawTunable amnezia.timers r).1) :
    Installs obf amnezia { t with
      autoImitation := t.reconfiguredImitation obf amnezia
      handshake := { t.handshake.setObfuscation obf with rng := rng }
      amnezia := amnezia
      checked := checked
      pendingAmneziaJunk := burst
      timers := timers }

theorem restartPendingBurst_eq : ∃ rng burst,
    t.restartPendingBurst = { t.withRng rng with pendingAmneziaJunk := burst } ∧
      ∀ t₀ : Tunn P, t₀.pendingAmneziaJunk = t.pendingAmneziaJunk →
        t₀.Rebursts t.amnezia burst := by
  unfold restartPendingBurst
  split
  · next hnone => exact ⟨t.handshake.rng, _, rfl, fun t₀ h => hnone ▸ .idle (h.trans hnone)⟩
  · next old hold =>
    dsimp only
    unfold newPreHandshakeBurst
    split
    · exact ⟨t.handshake.rng, _, rfl, fun t₀ h => .silenced (h.trans hold)⟩
    · exact ⟨_, _, rfl, fun t₀ h => @Rebursts.redrawn _ _ _ _ t.handshake.rng (h.trans hold)⟩

theorem applyObfuscation_installs (obf : ObfuscationRanges) {amnezia : AmneziaConfig}
    (checked : amnezia.checkHeaderProtectionNonce = .ok ()) :
    t.Installs obf amnezia (t.applyObfuscation obf amnezia checked) := by
  unfold applyObfuscation
  dsimp only
  generalize hinstalled : { t with
    autoImitation := t.reconfiguredImitation obf amnezia
    handshake := t.handshake.setObfuscation obf
    amnezia := amnezia
    checked := checked } = installed
  have hburst : ∃ rng burst, (if t.amnezia.pendingBurstChange amnezia = .restart then
        installed.restartPendingBurst else installed) =
      { installed.withRng rng with pendingAmneziaJunk := burst } ∧ t.Rebursts amnezia burst := by
    subst hinstalled
    split
    · obtain ⟨rng, burst, hout, hrebursts⟩ := restartPendingBurst_eq { t with
        autoImitation := t.reconfiguredImitation obf amnezia
        handshake := t.handshake.setObfuscation obf
        amnezia := amnezia
        checked := checked }
      exact ⟨rng, burst, hout, hrebursts t rfl⟩
    · next hkeep => exact ⟨t.handshake.rng, _, rfl, .kept hkeep⟩
  obtain ⟨rng, burst, hout, hrebursts⟩ := hburst
  rw [hout, ← hinstalled]
  split
  · exact .mk checked hrebursts (.inr ⟨rng, rfl⟩)
  · exact .mk checked hrebursts (.inl rfl)

/-- A configuration is refused, or installed. -/
theorem setObfuscation_cases (obf : ObfuscationRanges) (amnezia : AmneziaConfig) :
    t.setObfuscation obf amnezia = t ∨ t.Installs obf amnezia (t.setObfuscation obf amnezia) := by
  unfold setObfuscation trySetObfuscation
  split
  · exact .inl rfl
  · next h =>
    split at h
    · cases h
    · cases h
      exact .inr (t.applyObfuscation_installs obf _)

end Tunn

end BoringTun
