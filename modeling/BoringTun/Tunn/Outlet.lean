import BoringTun.Tunn.Acts

/-!
What a tunnel puts on the wire, against the buffer and the budget of the call.

`Outlet` is what a datagram's size depends on besides the call: the configuration, the
burst in flight and the kind of what was written last. `Sends` is what every function that
may write keeps: the configuration, a burst of datagrams that are not empty, and the
ceiling of the budget that governs the kind of datagram written, or, for a cookie reply, the
length of the datagram that asked for it.
-/

namespace BoringTun

open AmneziaConfig

/-- The budget that governs a datagram of a kind, 0 where none does. Ordinary junk is junk
that imitates no protocol. -/
def OutputBudget.governing (budget : OutputBudget) (cfg : AmneziaConfig) :
    OpReport.PacketKind → Nat
  | .transportData | .transportKeepalive => budget.transport
  | .handshakeInitiation | .handshakeResponse | .imitation =>
    if budget.ordinaryJunkOnly then 0 else budget.control
  | .junk =>
    if budget.ordinaryJunkOnly ∧ cfg.imitation.protocol ≠ .none then 0 else budget.control
  | .cookieReply | .none => 0

theorem governing_junk (budget : OutputBudget) (cfg : AmneziaConfig) :
    budget.governing cfg .junk =
      budget.controlFor (if cfg.imitation.protocol ≠ .none then .other else .ordinaryJunk) := by
  by_cases hshaped : cfg.imitation.protocol = .none
  · simp [OutputBudget.governing, OutputBudget.controlFor, hshaped]
  · simp [OutputBudget.governing, OutputBudget.controlFor, hshaped]

structure Outlet where
  amnezia : AmneziaConfig
  burst : Option PendingAmneziaJunk
  kind : OpReport.PacketKind

namespace Outlet

/-- Every datagram a burst still has to send is not empty, and it has no more junk to send
than the configuration allows. -/
def Sized (o : Outlet) : Prop :=
  ∀ pending, o.burst = some pending →
    (∀ entry ∈ pending.imitationDatagrams, entry.2 ≠ []) ∧
      pending.remaining ≤ o.amnezia.preHandshakeJunk.packetCount

/-- A datagram of the kind just written is within the call's buffer and budget; a cookie
reply is no longer than the `request` bytes that asked for it. -/
def Fits (o : Outlet) (dst : Bytes) (budget : OutputBudget) (request : Nat) (wire : Bytes) :
    Prop :=
  if o.kind = .cookieReply then wire.length ≤ request
  else wire ≠ [] ∧ wire.length ≤ Budget.ceiling dst.length (budget.governing o.amnezia o.kind)

structure Sends (o : Outlet) (dst : Bytes) (budget : OutputBudget) (request : Nat)
    (result : TunnResult) (o' : Outlet) : Prop where
  amnezia : o'.amnezia = o.amnezia
  sized : o'.Sized
  fits : ∀ wire, result = .writeToNetwork wire → o'.Fits dst budget request wire

variable {o o' : Outlet} {dst : Bytes} {budget : OutputBudget} {request : Nat}
  {result : TunnResult}

/-- Nothing is written, and the burst is as it was. -/
theorem Sends.silent (h : o.Sized) (hsame : o' = o) (hresult : result.isWriteToNetwork = false) :
    o.Sends dst budget request result o' where
  amnezia := congrArg Outlet.amnezia hsame
  sized := hsame ▸ h
  fits wire hwire := by
    subst hwire
    cases hresult

/-- Nothing is written, and there is no burst any more. -/
theorem Sends.dropped (hcfg : o'.amnezia = o.amnezia) (hburst : o'.burst = none)
    (hresult : result.isWriteToNetwork = false) : o.Sends dst budget request result o' where
  amnezia := hcfg
  sized pending hpending := by
    rw [hburst] at hpending
    cases hpending
  fits wire hwire := by
    subst hwire
    cases hresult

/-- A datagram of a kind other than a cookie reply is written. -/
theorem Sends.written {kind : OpReport.PacketKind} {burst : Option PendingAmneziaJunk}
    {wire : Bytes} (h : Sized { o with burst := burst }) (hkind : kind ≠ .cookieReply)
    (hne : wire ≠ [])
    (hle : wire.length ≤ Budget.ceiling dst.length (budget.governing o.amnezia kind)) :
    o.Sends dst budget request (.writeToNetwork wire) { o with burst := burst, kind := kind } where
  amnezia := rfl
  sized := h
  fits wire' hwire := by
    cases hwire
    exact (if_neg hkind).mpr ⟨hne, hle⟩

/-- What was written under one tunnel is within the budget of any other configured alike. -/
theorem Sends.of_amnezia {o₀ : Outlet} (h : o₀.Sends dst budget request result o')
    (hcfg : o₀.amnezia = o.amnezia) : o.Sends dst budget request result o' where
  amnezia := h.amnezia.trans hcfg
  sized := h.sized
  fits := h.fits

end Outlet

namespace Tunn

variable {P : Primitives} (t : Tunn P)

def outlet : Outlet := ⟨t.amnezia, t.pendingAmneziaJunk, t.opState.outputKind⟩

/-! ### Small changes -/

@[simp] theorem outlet_noteRefusal (result : TunnResult) :
    (t.noteRefusal result).outlet = t.outlet := by
  unfold noteRefusal
  split <;> rfl

@[simp] theorem outlet_spendKeepalives (passive persistent : Bool) :
    (t.spendKeepalives passive persistent).outlet = t.outlet := by
  rw [spendKeepalives_eq]
  rfl

@[simp] theorem outlet_spendLatch (latch : Option Nat) :
    (t.spendLatch latch).outlet = t.outlet := by
  cases latch <;> rfl

@[simp] theorem outlet_forgetOldCookie (now : Nat) :
    (t.forgetOldCookie now).outlet = t.outlet := by
  unfold forgetOldCookie
  split <;> rfl

@[simp] theorem outlet_updateSessionTimers (timeNow : Nat) :
    (t.updateSessionTimers timeNow).outlet = t.outlet := by
  unfold updateSessionTimers outlet
  dsimp only
  rw [OpState.foldl_sessionRemoved]
  split
  · rfl
  · rfl

@[simp] theorem outlet_beginPoll (env : Env P) : (t.beginPoll env).2.1.outlet = t.outlet :=
  outlet_updateSessionTimers _ _

/-! ### What is written -/

section

variable {t} {t' : Tunn P} {env env' : Env P} {src dst wire : Bytes} {force owed : Bool}
  {budget : OutputBudget} {result : TunnResult} {request : Nat}

/-- A handshake message whose mandatory frame is below the ceiling: its trailer is held there. -/
theorem Framed.length_le_ceiling {cfg : AmneziaConfig} {obf : ObfuscationRanges}
    {kind : PacketKind} {message : Bytes} {window ceiling : Nat}
    (h : Framed P cfg obf kind message ((TrailerRoom.window window).within ceiling) wire)
    (hmandatory : message.length + cfg.outboundJunkSize kind ≤ ceiling) : wire.length ≤ ceiling :=
  h.length_le.trans (max_le hmandatory ((Nat.min_le_right _ _).trans (Nat.min_le_right _ _)))

theorem Sealed.sends {session : Session P} {window : Nat} {kind : OpReport.PacketKind}
    {burst : Option PendingAmneziaJunk} {o : Outlet} {obf : ObfuscationRanges}
    (h : Sealed o.amnezia obf window session src dst budget wire)
    (hkind : kind = .transportData ∨ kind = .transportKeepalive)
    (hsized : Outlet.Sized { o with burst := burst }) :
    o.Sends dst budget request (.writeToNetwork wire) { o with burst := burst, kind := kind } := by
  obtain ⟨hne, hle⟩ := h.length_le
  rcases hkind with rfl | rfl
  · exact .written hsized nofun hne hle
  · exact .written hsized nofun hne hle

theorem transportKind_cases (isEmpty : Bool) :
    transportKind isEmpty = .transportData ∨ transportKind isEmpty = .transportKeepalive := by
  cases isEmpty with
  | false => exact .inl rfl
  | true => exact .inr rfl

theorem Initiates.sends (h : t.Initiates dst budget owed wire t') (hsized : t.outlet.Sized) :
    t.outlet.Sends dst budget request (.writeToNetwork wire) t'.outlet := by
  cases h with
  | @mk _ env _ hmandatory hframed =>
    have hlen : (t.handshake.initiated env).1.length = HANDSHAKE_INIT_SZ :=
      hframed.canonical.exact _ rfl
    refine .written hsized nofun hframed.ne_nil (hframed.length_le_ceiling ?_)
    rw [hlen]
    exact hmandatory

theorem Emitting.sends (h : t.Emitting dst budget wire t') (hsized : t.outlet.Sized) :
    t.outlet.Sends dst budget request (.writeToNetwork wire) t'.outlet := by
  cases h with
  | @imitation pending _ _ rest last _ hpending hnext hle =>
    obtain ⟨hdatagrams, hremaining⟩ := hsized pending hpending
    rw [hnext] at hdatagrams
    obtain ⟨hne, hrest⟩ := List.forall_mem_cons.mp hdatagrams
    have hleft : Outlet.Sized { t.outlet with
        burst := some ⟨rest, pending.remaining, last, false⟩ } := by
      rintro _ ⟨⟩
      exact ⟨hrest, hremaining⟩
    exact .written hleft nofun hne hle
  | @junk pending _ range rng rng' last _ hpending hdone hleft hrange hfill =>
    obtain ⟨-, hremaining⟩ := hsized pending hpending
    have henabled : 0 < t.amnezia.preHandshakeJunk.packetCount :=
      Nat.lt_of_lt_of_le (Nat.pos_of_ne_zero hleft) hremaining
    obtain ⟨hpos, hle, hcontrol⟩ := preHandshakeJunkRangeWithin_ok _ henabled hrange
    obtain ⟨hlo, hhi, hdst⟩ := length_fillPreHandshakeJunkIn t.amnezia henabled hle
      (congrArg Prod.fst hfill)
    have hsized' : Outlet.Sized { t.outlet with
        burst := some ⟨[], pending.remaining - 1, some last, false⟩ } := by
      rintro _ ⟨⟩
      exact ⟨nofun, (Nat.sub_le _ _).trans hremaining⟩
    have hceiling : wire.length ≤ Budget.ceiling dst.length
        (budget.governing t.outlet.amnezia .junk) := by
      rw [governing_junk]
      exact Budget.le_ceiling_iff.mpr ⟨hdst, fun hne => hhi.trans (hcontrol hne)⟩
    exact .written hsized' nofun (List.ne_nil_of_length_pos (by omega)) hceiling
  | deferred _ _ _ hinitiates =>
    have hsends : t.outlet.Sends dst budget request _ _ := hinitiates.sends hsized
    exact ⟨hsends.amnezia, nofun, hsends.fits⟩
  | direct _ hinitiates => exact hinitiates.sends hsized

theorem Readying.sized (h : t.Readying force t') (hsized : t.outlet.Sized) :
    t'.outlet.Sized ∧ t'.amnezia = t.amnezia := by
  cases h with
  | pending | direct => exact ⟨hsized, rfl⟩
  | @prepared burst _ _ _ _ hopens =>
    refine ⟨?_, rfl⟩
    rintro _ ⟨⟩
    obtain ⟨rng, hdatagrams⟩ := hopens.datagrams
    rw [hdatagrams]
    exact ⟨preHandshakeImitationDatagrams_ne_nil _ P _, hopens.remaining.le⟩

theorem Driving.sends (h : t.Driving env dst force budget result t' env')
    (hsized : t.outlet.Sized) : t.outlet.Sends dst budget request result t'.outlet := by
  cases h with
  | busy | paced => exact .silent hsized rfl rfl
  | refused hready =>
    obtain ⟨hsized₁, hcfg⟩ := hready.sized hsized
    exact (Outlet.Sends.silent hsized₁ rfl rfl).of_amnezia hcfg
  | emitted hready hemits =>
    obtain ⟨hsized₁, hcfg⟩ := hready.sized hsized
    exact (hemits.sends hsized₁).of_amnezia hcfg

theorem Submitting.sends (h : t.Submitting env src dst budget result t' env')
    (hsized : t.outlet.Sized) : t.outlet.Sends dst budget request result t'.outlet := by
  cases h with
  | refused | full => exact .silent hsized rfl rfl
  | sent _ _ hsealed => exact hsealed.sends (o := t.outlet) (transportKind_cases _) hsized
  | failed _ _ hdrives | queued _ _ hdrives => exact hdrives.sends hsized

theorem outlet_noteDropped (t : Tunn P) (dropped queue : List Bytes) :
    { t.noteDropped dropped with packetQueue := queue }.outlet = t.outlet := by
  unfold noteDropped outlet
  dsimp only
  split <;> rfl

theorem Draining.sends (h : t.Draining env dst budget result t' env') (hsized : t.outlet.Sized) :
    t.outlet.Sends dst budget request result t'.outlet := by
  cases h with
  | empty => exact .silent hsized rfl rfl
  | driven _ _ hdrives => exact hdrives.sends hsized
  | dropped | refused => exact .silent hsized (t.outlet_noteDropped _ _) rfl
  | sent _ _ _ _ hsealed => exact hsealed.sends (o := t.outlet) (transportKind_cases _) hsized

theorem Polling.sends (h : t.Polling env dst budget result t' env') (hsized : t.outlet.Sized) :
    t.outlet.Sends dst budget request result t'.outlet := by
  cases h with
  | waits | expired | withholds => exact .silent hsized rfl rfl
  | burst _ hdrives => exact hdrives.sends hsized
  | expires => exact .dropped rfl rfl rfl
  | retransmits _ _ _ hdrives =>
    rw [outlet_noteRefusal]
    exact hdrives.sends hsized
  | initiates _ _ _ hdrives =>
    rw [← outlet_spendLatch] at hsized ⊢
    rw [outlet_noteRefusal]
    exact hdrives.sends hsized
  | keepalive _ _ _ _ _ _ hsubmits =>
    rw [← outlet_spendKeepalives] at hsized ⊢
    rw [outlet_noteRefusal]
    exact hsubmits.sends hsized
  | owes _ _ _ hready =>
    rcases hready with rfl | hready
    · exact .silent hsized rfl rfl
    · obtain ⟨hsized₁, hcfg⟩ := hready.sized hsized
      exact (Outlet.Sends.silent hsized₁ rfl rfl).of_amnezia hcfg

end

theorem updateTimers_sends {t : Tunn P} (h : t.outlet.Sized) (env : Env P) (dst : Bytes)
    (budget : OutputBudget) (request : Nat) :
    let out := t.updateTimers env dst budget
    t.outlet.Sends dst budget request out.1 out.2.1.outlet := by
  obtain ⟨t₁, hstart, hpolls⟩ := t.updateTimers_polling env dst budget
  have houtlet : t₁.outlet = t.outlet := by
    rcases hstart with rfl | rfl
    · exact t.outlet_beginPoll env
    · exact (outlet_forgetOldCookie _ _).trans (t.outlet_beginPoll env)
  rw [← houtlet] at h ⊢
  exact hpolls.sends h

end Tunn

end BoringTun
