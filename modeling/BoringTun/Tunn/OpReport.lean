import BoringTun.Tunn.OneByte

/-!
The report of one operation (`noise/op_report.rs`): `begin_op` before it, `finish_op` after it.

* `burst_due_hint`: what it says about the burst is what the pacing of the burst does.
-/

namespace BoringTun

def BURST_DUE_NONE : Nat := 2 ^ 32 - 1
def BURST_DUE_MAX : Nat := BURST_DUE_NONE - 1

/-- The snapshot after an operation. -/
inductive OpReport.State where
  | sessionCurrent | initiationPending | handshakeExpired | queueNonempty | burstPending
  | cookieHeld
  deriving DecidableEq

/-- What `begin_op` saw. -/
structure OpEntry where
  opSeq : UInt64
  selectedSerial : Nat

structure OpReport where
  inputKind : OpReport.PacketKind
  /-- The kind of the returned bytes; `none` unless they are for the network. -/
  outputKind : OpReport.PacketKind
  events : OpReport.Event → Bool
  state : OpReport.State → Bool
  opSeq : UInt64
  burstDueMs : Nat

def Handshake.hasInitiationPending {P : Primitives} (h : Handshake P) : Bool :=
  match h.state, h.previous with
  | .initSent _, _ | _, .initSent _ => true
  | _, _ => false

namespace Tunn

variable {P : Primitives} (t : Tunn P)

/-- 0 when the selected slot is empty. -/
def selectedSessionSerial : Nat :=
  if (t.sessions (slotOf t.current)).isSome then t.opState.slotSerial (slotOf t.current) else 0

def beginOp : OpEntry × Tunn P :=
  let t := { t with opState := { t.opState with
    opSeq := t.opState.opSeq + 1
    events := fun _ => false
    inputKind := .none
    outputKind := .none } }
  (⟨t.opState.opSeq, t.selectedSessionSerial⟩, t)

def stateSnapshot : OpReport.State → Bool
  | .sessionCurrent => t.hasCurrentSession
  | .initiationPending => t.handshake.hasInitiationPending
  | .handshakeExpired => t.handshake.isExpired
  | .queueNonempty => !t.packetQueue.isEmpty
  | .burstPending => t.pendingAmneziaJunk.isSome
  | .cookieHeld => t.handshake.hasCookie

def burstDelay (pending : PendingAmneziaJunk) : Nat :=
  (pending.imitationDatagrams.head?.map (·.1)).getD t.amnezia.preHandshakeJunk.delay

/-- Milliseconds until the next datagram of the burst is due, rounded up. -/
def burstDueMs (env : Env P) : Nat :=
  match t.pendingAmneziaJunk with
  | none => BURST_DUE_NONE
  | some pending =>
    match pending.lastPacketAt with
    | none => 0
    | some last =>
      let remaining := t.burstDelay pending - (env.now - last)
      if remaining = 0 then 0 else min ((remaining + 999999) / 1000000) BURST_DUE_MAX

def finishOp (env : Env P) (entry : OpEntry) (result : TunnResult) : OpReport where
  inputKind := t.opState.inputKind
  outputKind := match result with
    | .writeToNetwork _ => t.opState.outputKind
    | _ => .none
  events := fun event => t.opState.events event ||
    (event = .currentSessionChanged && t.selectedSessionSerial != entry.selectedSerial)
  state := t.stateSnapshot
  opSeq := entry.opSeq
  burstDueMs := t.burstDueMs env

/-- One operation with its report. -/
def reported (env env' : Env P) (op : Op P) : TunnResult × OpReport × Tunn P :=
  let (entry, t) := t.beginOp
  let (result, t) := t.run env op
  (result, t.finishOp env' entry result, t)

/-! ### The pacing of a burst -/

/-- The pacing holds the burst back. -/
def Paced (env : Env P) : Prop :=
  ∀ dst budget, t.advanceAmneziaJunk env dst budget = (.done, t, env.tick)

/-- The pacing lets the burst go on: its next item is written, or refused for its size. -/
def LetsThrough (env : Env P) : Prop := ∀ dst budget, (t.advanceAmneziaJunk env dst budget).1 ≠ .done

theorem writeHandshakeToNetwork_ne_done (dst : Bytes) (packetSize ceiling : Nat) :
    (t.writeHandshakeToNetwork dst packetSize ceiling).1 ≠ .done := by
  unfold writeHandshakeToNetwork writeToNetworkWith writeToNetworkWithImitation
  dsimp only
  split
  · nofun
  · nofun

/-- An initiation that is forced is written or refused. -/
theorem formatHandshakeInitiationNow_ne_done (env : Env P) (dst : Bytes) (resetExpiredTimers : Bool)
    (budget : OutputBudget) :
    (t.formatHandshakeInitiationNow env dst true resetExpiredTimers budget).1 ≠ .done := by
  unfold formatHandshakeInitiationNow
  rw [if_neg (by simp)]
  split
  · nofun
  · dsimp only
    split
    · nofun
    · exact writeHandshakeToNetwork_ne_done _ _ _ _

theorem emitJunk_ne_done (env : Env P) (dst : Bytes) (budget : OutputBudget) :
    (t.emitJunk env dst budget).1 ≠ .done := by
  unfold emitJunk
  split
  · nofun
  · split
    · nofun
    · dsimp only
      split
      · nofun
      · nofun

variable {t} {pending : PendingAmneziaJunk}

theorem paced_of_not_due (hpending : t.pendingAmneziaJunk = some pending) {env : Env P}
    (hdue : (t.burstDue pending env).1 = false) : t.Paced env := by
  intro dst budget
  have htick : t.burstDue pending env = (false, env.tick) := by
    unfold burstDue at hdue ⊢
    split at hdue
    · cases hdue
    · exact Prod.ext hdue rfl
  simp only [advanceAmneziaJunk, hpending, htick]

theorem passes_of_due (hpending : t.pendingAmneziaJunk = some pending) {env : Env P}
    (hdue : (t.burstDue pending env).1 = true) : t.LetsThrough env := by
  intro dst budget
  rcases hgate : t.burstDue pending env with ⟨due, env₁⟩
  rw [hgate] at hdue
  cases hdue
  simp only [advanceAmneziaJunk, hpending, hgate]
  split
  · unfold emitImitationDatagram
    split
    · nofun
    · nofun
  · split
    · exact formatHandshakeInitiationNow_ne_done _ _ _ _ _
    · exact emitJunk_ne_done _ _ _ _

/-- The burst is due exactly when a call would not wait for it. -/
theorem passes_iff_due (hpending : t.pendingAmneziaJunk = some pending) {env : Env P} :
    t.LetsThrough env ↔ (t.burstDue pending env).1 = true := by
  constructor
  · intro hpasses
    by_contra hdue
    have hpaced := paced_of_not_due hpending (Bool.eq_false_iff.mpr hdue)
    exact hpasses [] .UNBOUNDED (congrArg Prod.fst (hpaced [] .UNBOUNDED))
  · exact passes_of_due hpending

/-- The pacing compares the time since the last item with the delay of the next one. -/
theorem burstDue_eq_true {last : Nat} (hlast : pending.lastPacketAt = some last) (env : Env P) :
    (t.burstDue pending env).1 = true ↔ t.burstDelay pending ≤ env.now - last := by
  unfold burstDue burstDelay
  rw [hlast]
  exact decide_eq_true_iff

theorem burstDueMs_eq {last : Nat} (hpending : t.pendingAmneziaJunk = some pending)
    (hlast : pending.lastPacketAt = some last) (env : Env P) :
    t.burstDueMs env =
      min ((t.burstDelay pending - (env.now - last) + 999999) / 1000000) BURST_DUE_MAX := by
  unfold burstDueMs
  rw [hpending]
  dsimp only
  rw [hlast]
  dsimp only
  split
  · next hzero =>
    rw [hzero]
    rfl
  · rfl

/-- The hint is 0 exactly when the pacing lets the burst go on; as long as it is below its cap,
the pacing holds the burst for one millisecond less and no longer. Without a burst it has a value
that no delay gives. -/
theorem burst_due_hint (t : Tunn P) (env : Env P) :
    (t.pendingAmneziaJunk = none → t.burstDueMs env = BURST_DUE_NONE) ∧
    ∀ pending, t.pendingAmneziaJunk = some pending →
      t.burstDueMs env ≠ BURST_DUE_NONE ∧
      (t.burstDueMs env = 0 ↔ t.LetsThrough env) ∧
      ((∀ last, pending.lastPacketAt = some last → last ≤ env.now) →
        0 < t.burstDueMs env → t.burstDueMs env < BURST_DUE_MAX →
        t.Paced env ∧
        (∀ later : Env P, later.now ≤ env.now + (t.burstDueMs env - 1) * 1000000 → t.Paced later) ∧
        ∀ later : Env P, env.now + t.burstDueMs env * 1000000 ≤ later.now → t.LetsThrough later) := by
  constructor
  · intro hnone
    rw [burstDueMs, hnone]
  intro pending hpending
  cases hlast : pending.lastPacketAt with
  | none =>
    have hzero : t.burstDueMs env = 0 := by
      rw [burstDueMs, hpending]
      dsimp only
      rw [hlast]
    have hdue : (t.burstDue pending env).1 = true := by
      rw [burstDue, hlast]
    refine ⟨?_, iff_of_true hzero (passes_of_due hpending hdue), fun _ hpos => ?_⟩
    · rw [hzero]
      decide
    · rw [hzero] at hpos
      exact absurd hpos (Nat.lt_irrefl 0)
  | some last =>
    have hms := burstDueMs_eq hpending hlast env
    have hcap : BURST_DUE_NONE = BURST_DUE_MAX + 1 := rfl
    refine ⟨?_, ?_, ?_⟩
    · omega
    · rw [passes_iff_due hpending, burstDue_eq_true hlast]
      have hmax : 0 < BURST_DUE_MAX := by decide
      omega
    · intro hclock hpos hlt
      have hle : last ≤ env.now := hclock last rfl
      have hpaced (later : Env P)
          (hlater : later.now ≤ env.now + (t.burstDueMs env - 1) * 1000000) : t.Paced later := by
        refine paced_of_not_due hpending (Bool.eq_false_iff.mpr fun hdue => ?_)
        rw [burstDue_eq_true hlast] at hdue
        omega
      refine ⟨hpaced env (Nat.le_add_right _ _), hpaced, fun later hlater => ?_⟩
      refine passes_of_due hpending ((burstDue_eq_true hlast later).mpr ?_)
      omega

/-- A burst whose next item has a delay of two and a half seconds. -/
def bytePaced : Tunn bytePrimitives :=
  { byteHome with
    pendingAmneziaJunk := some {
      imitationDatagrams := [(2500000000, [0])]
      remaining := 0
      lastPacketAt := some 0
      resetExpiredTimers := false } }

/-- One second after the last item it is due in 1500 milliseconds. -/
theorem burst_due_hint_bytePaced :
    bytePaced.burstDueMs (byteEnv 1 0) = 1500 ∧ bytePaced.Paced (byteEnv 1 0) ∧
      ∀ later : Env bytePrimitives, 2500000000 ≤ later.now → bytePaced.LetsThrough later := by
  have hms : bytePaced.burstDueMs (byteEnv 1 0) = 1500 := by decide +kernel
  obtain ⟨-, hhint⟩ := burst_due_hint bytePaced (byteEnv 1 0)
  obtain ⟨-, -, hgate⟩ := hhint _ rfl
  rw [hms] at hgate
  have hclock : ∀ last, some 0 = some last → last ≤ (byteEnv 1 0).now := by
    rintro last ⟨⟩
    exact Nat.zero_le _
  obtain ⟨hpaced, -, hpasses⟩ := hgate hclock (by decide) (by decide)
  exact ⟨hms, hpaced, fun later hlater => hpasses later hlater⟩

end Tunn

end BoringTun
