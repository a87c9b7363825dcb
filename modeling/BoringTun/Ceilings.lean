import BoringTun.Tunn.Outlet
import BoringTun.Tunn.Simulation

/-!
Output ceilings: whatever a call puts on the wire fits the caller's buffer, and the budget
that governs what it is.

`after_sends` is one call of any kind; `Visited.sized` says that the burst a tunnel carries
from call to call never holds an empty datagram, nor junk its configuration no longer sizes;
`output_ceilings` puts the two together.
-/

namespace BoringTun

open AmneziaConfig

variable {P : Primitives}

namespace Tunn

variable {t : Tunn P} {dst : Bytes} {budget : OutputBudget} {request : Nat}

/-! ### Datagrams -/

theorem Accepting.sends {packet : Authenticated P} {result : TunnResult} {t' : Tunn P}
    (h : t.Accepting dst budget packet result t') (hgen : t.Genuine dst budget packet)
    (hsized : t.outlet.Sized) : t.outlet.Sends dst budget request result t'.outlet := by
  cases h with
  | @answered init _ env _ _ _ _ hframed =>
    obtain ⟨hbudget, hroom, -⟩ := hgen
    have hlen : (t.handshake.answeredInit env init (t.current % N_SESSIONS)).1.length =
        HANDSHAKE_RESP_SZ := hframed.canonical.exact _ rfl
    refine .written nofun nofun hframed.ne_nil (hframed.length_le_ceiling ?_)
    rw [hlen]
    exact Budget.le_ceiling hbudget hroom
  | completed hsealed => exact hsealed.sends (o := t.outlet) (.inr rfl) nofun
  | cookie => exact .silent hsized rfl rfl
  | data hquiet => exact .silent hsized rfl hquiet

theorem commit_sends (h : t.outlet.Sized) (env : Env P) {packet : Authenticated P}
    (hgen : t.Genuine dst budget packet) (datagram : Bytes)
    (hint : Option AmneziaImitationProtocol) :
    let out := t.commitWithImitationAndBudget env packet datagram hint dst budget
    t.outlet.Sends dst budget request out.1 out.2.1.outlet := by
  obtain ⟨auto, -, haccepts⟩ := commit_accepting env hgen datagram hint
  have hnoted : { t.noteInput packet with autoImitation := auto }.outlet = t.outlet := by
    cases packet <;> rfl
  rw [← hnoted] at h ⊢
  exact haccepts.sends hgen h

theorem decapsulateSource_sends (h : t.outlet.Sized) (env : Env P) (source : Option Source)
    (datagram dst : Bytes) (budget : OutputBudget) :
    let out := t.decapsulateSource env source datagram dst budget
    t.outlet.Sends dst budget datagram.length out.1 out.2.1.outlet := by
  by_cases hne : datagram = []
  · subst hne
    exact (t.sendQueuedPacket_draining env dst budget).sends h
  cases haccepted : t.accepted env source datagram dst budget with
  | some packet =>
    obtain ⟨hgen, limiter, env', hint, -, hcommit⟩ :=
      decapsulateSource_accepted env source datagram dst budget hne haccepted
    rw [hcommit]
    exact commit_sends (t := { t with rateLimiter := limiter }) h env' hgen datagram hint
  | none =>
    have hreplies := t.decapsulateSource_replies env source datagram dst budget hne haccepted
    obtain ⟨rng, ⟨limiter, pending, outputKind, -, hsame⟩, -⟩ :=
      t.decapsulateSource_untouched env source datagram dst budget hne haccepted
    refine ⟨?_, ?_, fun wire hwire => ?_⟩
    · rw [hsame]
      rfl
    · rw [hsame]
      exact h
    · obtain ⟨hkind, hle, -⟩ := hreplies wire hwire
      exact (if_pos hkind).mpr hle

/-! ### Setters -/

/-- A burst is kept only under a configuration that sends as much junk. -/
theorem Rebursts.sized {amnezia : AmneziaConfig} {burst : Option PendingAmneziaJunk}
    (h : t.Rebursts amnezia burst) (hsized : t.outlet.Sized) (kind : OpReport.PacketKind) :
    Outlet.Sized ⟨amnezia, burst, kind⟩ := by
  cases h with
  | kept hkeep =>
    have hcount : t.amnezia.preHandshakeJunk.packetCount =
        amnezia.preHandshakeJunk.packetCount := by
      by_contra hne
      exact hkeep (if_pos (.inl hne))
    intro pending hpending
    obtain ⟨hdatagrams, hremaining⟩ := hsized pending hpending
    exact ⟨hdatagrams, hcount ▸ hremaining⟩
  | idle => exact nofun
  | silenced =>
    rintro _ ⟨⟩
    exact ⟨nofun, Nat.zero_le _⟩
  | redrawn =>
    rintro _ ⟨⟩
    exact ⟨preHandshakeImitationDatagrams_ne_nil _ P _, Nat.le_refl _⟩

theorem setObfuscation_sized (h : t.outlet.Sized) (obf : ObfuscationRanges)
    (amnezia : AmneziaConfig) : (t.setObfuscation obf amnezia).outlet.Sized := by
  rcases t.setObfuscation_cases obf amnezia with hsame | hinstalls
  · rw [hsame]
    exact h
  · generalize t.setObfuscation obf amnezia = t' at hinstalls
    cases hinstalls with
    | mk checked hburst => exact hburst.sized h _

end Tunn

/-- The buffer and the budget of a call that may write. -/
def Op.output : Op P → Option (Bytes × OutputBudget)
  | .encapsulate _ dst budget | .decapsulate _ _ dst budget | .updateTimers dst budget
  | .formatHandshakeInitiation dst _ budget => some (dst, budget)
  | _ => none

/-- The datagram a call receives. -/
def Op.request : Op P → Bytes
  | .decapsulate _ datagram _ _ => datagram
  | _ => []

namespace Tunn

variable {t : Tunn P}

/-- One call: it sends within its own buffer and budget, or it does not send. -/
theorem after_sends (h : t.outlet.Sized) (env : Env P) (op : Op P) :
    match op.output with
    | some (dst, budget) =>
      t.outlet.Sends dst budget op.request.length (t.run env op).1 (t.after env op).outlet
    | none => (t.run env op).1 = .done ∧ (t.after env op).outlet.Sized := by
  cases op with
  | encapsulate src dst budget => exact (t.encapsulate_submitting env src dst budget).sends h
  | decapsulate source datagram dst budget =>
    exact decapsulateSource_sends h env source datagram dst budget
  | updateTimers dst budget => exact updateTimers_sends h env dst budget _
  | formatHandshakeInitiation dst forceResend budget =>
    exact (t.formatHandshakeInitiation_driving env dst forceResend budget).sends h
  | setObfuscation obf amnezia => exact ⟨rfl, setObfuscation_sized h obf amnezia⟩
  | setPresharedKey presharedKey =>
    refine ⟨rfl, ?_⟩
    unfold after run setPresharedKey
    dsimp only
    split
    · exact h
    · exact h
  | setPersistentKeepaliveRange low high =>
    refine ⟨rfl, ?_⟩
    unfold after run setPersistentKeepaliveRange
    dsimp only
    split
    · exact h
    · exact h
  | _ => exact ⟨rfl, h⟩

/-- In every state a tunnel reaches, the burst it carries has only datagrams to send that
are not empty. -/
theorem Visited.sized (h : t.Visited) : t.outlet.Sized := by
  refine Reachable.invariant h (fun t => t.outlet.Sized) ?_ ?_
  · rintro t ⟨_, _, _, _, _, _, _, _, _, hnew⟩
    unfold newWithObfuscation at hnew
    split at hnew
    · cases hnew
    · split at hnew
      · cases hnew
      · cases hnew
        rintro _ ⟨⟩
  · rintro t _ ⟨env, op, rfl⟩ hsized
    have hsends := after_sends hsized env op
    split at hsends
    · exact hsends.sized
    · exact hsends.2

end Tunn

/-- **Output ceilings.** A datagram a call writes, cookie replies apart, is not empty and no
longer than the buffer of the call, nor than the budget that governs its kind. -/
theorem output_ceilings {t : Tunn P} (h : t.Visited) (env : Env P) (op : Op P) (wire : Bytes)
    (hwrite : (t.run env op).1 = .writeToNetwork wire)
    (hkind : (t.after env op).opState.outputKind ≠ .cookieReply) :
    ∃ dst budget, op.output = some (dst, budget) ∧ wire ≠ [] ∧ wire.length ≤ dst.length ∧
      (budget.governing t.amnezia (t.after env op).opState.outputKind ≠ 0 →
        wire.length ≤ budget.governing t.amnezia (t.after env op).opState.outputKind) := by
  have hsends := Tunn.after_sends h.sized env op
  split at hsends
  · next dst budget houtput =>
    obtain ⟨hne, hle⟩ := (if_neg hkind).mp (hsends.fits wire hwrite)
    rw [hsends.amnezia] at hle
    obtain ⟨hdst, hbudget⟩ := Budget.le_ceiling_iff.mp hle
    exact ⟨dst, budget, houtput, hne, hdst, hbudget⟩
  · rw [hsends.1] at hwrite
    cases hwrite

/-- A tunnel that sends junk of 40 to 90 bytes before an initiation. -/
def junkTunn : Tunn bytePrimitives :=
  (Tunn.newWithObfuscation (P := bytePrimitives) (1 : UInt8) (6 : UInt8) none none 1 none .default
    { preHandshakeJunk := .new 2 40 90 0 } byteSeed).toOption.get rfl

/-- A control budget that governs ordinary junk only. -/
def junkOnly : OutputBudget := { control := 60, ordinaryJunkOnly := true }

def junkCall : Op bytePrimitives := .formatHandshakeInitiation byteBuffer true junkOnly

/-- The first datagram of the burst is junk, and the budget holds it. -/
theorem output_ceilings_junk :
    (junkTunn.after (byteEnv 1 4) junkCall).opState.outputKind = .junk ∧
      (junkTunn.run (byteEnv 1 4) junkCall).1.datagram ≠ [] ∧
      (junkTunn.run (byteEnv 1 4) junkCall).1.datagram.length ≤ 60 := by
  have hnew : junkTunn.Visited := Reachable.base
    ⟨(1 : UInt8), (6 : UInt8), none, none, 1, none, .default,
      { preHandshakeJunk := .new 2 40 90 0 }, byteSeed, rfl⟩
  have hkind : (junkTunn.after (byteEnv 1 4) junkCall).opState.outputKind = .junk := by
    decide +kernel
  obtain ⟨dst, budget, houtput, hne, -, hbudget⟩ := output_ceilings hnew (byteEnv 1 4) junkCall
    (junkTunn.run (byteEnv 1 4) junkCall).1.datagram (by decide +kernel)
    (by rw [hkind]; decide)
  cases houtput
  rw [hkind] at hbudget
  exact ⟨hkind, hne, hbudget (by decide +kernel)⟩

end BoringTun
