import BoringTun.Cycle

/-!
The order of a pre-handshake burst.

A burst owes the imitation datagrams it was prepared with, its junk and one initiation
(`PendingAmneziaJunk.owes`). Whatever call comes next, what it produces of them is the front of
what is owed (`Core.Serves.owes`), so over any run the datagrams produced and those still owed
are together what the burst was prepared with (`Continues.outputs_append_owes`). Packets on a
session that can still send are not part of it and may come between.

A call that comes to nothing draws nothing (`Tunn.Spares`).
-/

namespace BoringTun

variable {P : Primitives}

/-- One datagram of a burst. The bytes of junk and of the initiation are drawn when it is
sent. -/
inductive BurstItem where
  | imitation (datagram : Bytes)
  | junk
  | initiation
  deriving DecidableEq

/-- The imitation datagrams in their order, the junk, and the initiation. -/
def burstOf (datagrams : List (Nat × Bytes)) (remaining : Nat) : List BurstItem :=
  datagrams.map (fun entry => .imitation entry.2) ++ List.replicate remaining .junk ++ [.initiation]

/-- What a burst has yet to produce. -/
def PendingAmneziaJunk.owes (pending : PendingAmneziaJunk) : List BurstItem :=
  burstOf pending.imitationDatagrams pending.remaining

/-- What a call produced of a burst. -/
def burstItems : TunnResult → OpReport.PacketKind → List BurstItem
  | .writeToNetwork wire, .imitation => [.imitation wire]
  | .writeToNetwork _, .junk => [.junk]
  | .writeToNetwork _, .handshakeInitiation => [.initiation]
  | _, _ => []

theorem burstItems_of_not_preHandshake {result : TunnResult} {kind : OpReport.PacketKind}
    (h : result.isWriteToNetwork = true → kind.isPreHandshake = false) :
    burstItems result kind = [] := by
  cases result with
  | writeToNetwork wire =>
    have hkind := h rfl
    cases kind with
    | imitation | junk | handshakeInitiation => cases hkind
    | _ => rfl
  | _ => rfl

theorem burstOf_ne_nil (datagrams : List (Nat × Bytes)) (remaining : Nat) :
    burstOf datagrams remaining ≠ [] := by
  simp [burstOf]

/-- A burst has at most three imitation datagrams, and a datagram ahead of its initiation. -/
theorem PendingAmneziaJunk.Opens.owes_length {burst : PendingAmneziaJunk} {cfg : AmneziaConfig}
    {owed : Bool} (h : burst.Opens P cfg owed) (hemits : cfg.emitsPreHandshake = true) :
    2 ≤ burst.owes.length ∧ burst.owes.length ≤ cfg.preHandshakeJunk.packetCount + 4 := by
  obtain ⟨rng, hdatagrams⟩ := h.datagrams
  obtain ⟨hle, hpos⟩ := cfg.preHandshakeImitationDatagrams_length P rng
  have hlength : burst.owes.length = (cfg.preHandshakeImitationDatagrams P rng).1.length +
      cfg.preHandshakeJunk.packetCount + 1 := by
    simp [owes, burstOf, hdatagrams, h.remaining, Nat.add_assoc]
  have hahead : 0 < cfg.preHandshakeJunk.packetCount ∨ cfg.hasImitationSequence = true := by
    simp only [AmneziaConfig.emitsPreHandshake, AmneziaPreHandshakeJunk.isEnabled,
      Bool.and_eq_true, Bool.or_eq_true, decide_eq_true_eq] at hemits
    exact hemits.2
  refine ⟨?_, by omega⟩
  rcases hahead with hjunk | hsequence
  · omega
  · have := hpos hsequence
    omega

namespace Core

variable {c c₁ c' : Core P} {action : Action P} {result : TunnResult} {force : Bool} {wire : Bytes}

/-! ### One call -/

/-- What the pending burst has yet to produce. -/
def owes (c : Core P) : List BurstItem := (c.burst.map PendingAmneziaJunk.owes).getD []

theorem owes_eq_nil_iff : c.owes = [] ↔ c.burst = none := by
  unfold owes
  cases c.burst with
  | none => simp
  | some pending => simp [PendingAmneziaJunk.owes, burstOf_ne_nil]

theorem owes_congr (h : c'.burst = c.burst) : c'.owes = c.owes := by
  unfold owes
  rw [h]

theorem Emits.owes (h : c.Emits wire c') (hsome : c.burst.isSome = true) :
    c.owes = burstItems (.writeToNetwork wire) c'.output ++ c'.owes := by
  unfold Core.owes
  cases h with
  | imitation hburst hnext =>
    rw [hburst]
    simp [PendingAmneziaJunk.owes, burstOf, burstItems, advance, hnext]
  | @junk pending _ _ _ hburst hdone hleft =>
    obtain ⟨left, hleft⟩ := Nat.exists_eq_succ_of_ne_zero hleft
    rw [hburst]
    simp [PendingAmneziaJunk.owes, burstOf, burstItems, advance, hdone, hleft, List.replicate_succ]
  | deferred hburst hdone hzero =>
    rw [hburst]
    simp [PendingAmneziaJunk.owes, burstOf, burstItems, initiate, hdone, hzero]
  | direct hnone =>
    rw [hnone] at hsome
    cases hsome

theorem Drives.owes (h : c.Drives force result c') (hsome : c.burst.isSome = true) :
    c.owes = burstItems result c'.output ++ c'.owes := by
  have hready {c₁ : Core P} (h : c.Readies force c₁) : c₁ = c := by
    cases h with
    | pending => rfl
    | prepared hnone =>
      rw [hnone] at hsome
      cases hsome
    | direct => rfl
  cases h with
  | busy => rfl
  | paced => rfl
  | refused h he =>
    obtain rfl := hready h
    rfl
  | emitted h hemits =>
    obtain rfl := hready h
    exact hemits.owes hsome

/-- What a call produces of the pending burst is the front of what the burst owes. -/
theorem Serves.owes (h : c.Serves action result c') (hsome : c.burst.isSome = true)
    (hlive : result ≠ .err .connectionExpired) :
    c.owes = burstItems result c'.output ++ c'.owes := by
  cases h with
  | calm hcalm hkind =>
    rw [burstItems_of_not_preHandshake hkind, owes_congr hcalm.burst]
    rfl
  | drives hbefore _ hdrives hafter houtput =>
    rw [← hbefore.burst] at hsome
    rw [houtput, owes_congr hafter.burst, ← hdrives.owes hsome, owes_congr hbefore.burst]
  | ends hresult => exact absurd hresult hlive

/-! ### The call that prepares a burst -/

/-- What is left of a new burst and what its first call produced are the burst that the
configuration calls for. -/
theorem Drives.opens (h : c.Drives force result c') (hnone : c.burst = none)
    (hsome : c'.burst.isSome = true) :
    ∃ rng, burstOf (c.amnezia.preHandshakeImitationDatagrams P rng).1
      c.amnezia.preHandshakeJunk.packetCount = burstItems result c'.output ++ c'.owes := by
  have hsame {c' : Core P} (h : c'.burst = none) (hsome : c'.burst.isSome = true) : False := by
    rw [h] at hsome
    cases hsome
  have hnew {burst : PendingAmneziaJunk} (hopens : burst.Opens P c.amnezia c.isExpired) :
      ∃ rng, burstOf (c.amnezia.preHandshakeImitationDatagrams P rng).1
        c.amnezia.preHandshakeJunk.packetCount = { c with burst := some burst }.owes := by
    obtain ⟨rng, hdatagrams⟩ := hopens.datagrams
    refine ⟨rng, ?_⟩
    rw [← hdatagrams, ← hopens.remaining]
    rfl
  cases h with
  | busy | paced => exact (hsame hnone hsome).elim
  | refused hready he =>
    cases hready with
    | pending hburst => exact absurd (hburst.symm.trans hnone) nofun
    | prepared _ _ _ hopens => exact hnew hopens
    | direct => exact (hsame hnone hsome).elim
  | emitted hready hemits =>
    cases hready with
    | pending hburst => exact absurd (hburst.symm.trans hnone) nofun
    | prepared _ _ _ hopens =>
      rw [← hemits.owes rfl]
      exact hnew hopens
    | direct =>
      cases hemits with
      | imitation hburst | junk hburst => exact absurd (hburst.symm.trans hnone) nofun
      | deferred => cases hsome
      | direct => exact (hsame hnone hsome).elim

theorem Serves.opens (h : c.Serves action result c') (hnone : c.burst = none)
    (hsome : c'.burst.isSome = true) :
    ∃ rng, burstOf (c.amnezia.preHandshakeImitationDatagrams P rng).1
      c.amnezia.preHandshakeJunk.packetCount = burstItems result c'.output ++ c'.owes := by
  cases h with
  | calm hcalm =>
    rw [hcalm.burst, hnone] at hsome
    cases hsome
  | drives hbefore _ hdrives hafter houtput =>
    rw [hafter.burst] at hsome
    rw [houtput, owes_congr hafter.burst, ← hbefore.amnezia]
    exact hdrives.opens (hbefore.burst.trans hnone) hsome
  | ends _ hended =>
    rw [hended.burst] at hsome
    cases hsome

theorem Accepts.burst_none {packet : Authenticated P} (h : c.Accepts packet result c')
    (hnone : c.burst = none) : c'.burst = none := by
  have hselect (c : Core P) (index : Nat) : (c.select index).burst = c.burst := by
    rw [select_eq]
  cases h with
  | answered => rfl
  | completed => exact hselect _ _
  | cookie => exact hnone
  | data => exact (hselect _ _).trans hnone

/-- A configuration change rebuilds the pending burst, and never drops it. -/
theorem Moves.configure_burst (h : c.Moves .configure result c') :
    c'.burst.isSome = c.burst.isSome := by
  cases h with
  | declines => rfl
  | reconfigures _ hburst =>
    rcases hburst with rfl | ⟨_, _, _, rfl⟩
    · rfl
    · exact Option.isSome_map
  | keeps => rfl
  | rekeys => rfl

/-- Only a demand for an initiation prepares a burst. -/
theorem Moves.opens (h : c.Moves action result c') (hnone : c.burst = none)
    (hsome : c'.burst.isSome = true) :
    ∃ rng, burstOf (c.amnezia.preHandshakeImitationDatagrams P rng).1
      c.amnezia.preHandshakeJunk.packetCount = burstItems result c'.output ++ c'.owes := by
  cases action with
  | accept packet =>
    cases h with
    | accepts h =>
      rw [h.burst_none hnone] at hsome
      cases hsome
  | configure =>
    rw [h.configure_burst, hnone] at hsome
    cases hsome
  | _ => exact (h.serves trivial).opens hnone hsome

end Core

/-- A write, a drain, a poll or a demand for an initiation. -/
def Op.Asks : Op P → Prop
  | .encapsulate .. | .updateTimers .. | .formatHandshakeInitiation .. => True
  | .decapsulate _ datagram _ _ => datagram = []
  | _ => False

namespace Tunn

variable {t : Tunn P} {env : Env P} {op : Op P}

/-! ### Runs -/

/-- What the pending burst has yet to produce. -/
def owes (t : Tunn P) : List BurstItem := (t.pendingAmneziaJunk.map PendingAmneziaJunk.owes).getD []

/-- What a call produces of a burst. -/
def burstItems (t : Tunn P) (env : Env P) (op : Op P) : List BurstItem :=
  BoringTun.burstItems (t.run env op).1 (t.after env op).opState.outputKind

/-- The tunnel after some calls. -/
def afterAll (t : Tunn P) (calls : List (Env P × Op P)) : Tunn P :=
  calls.foldl (fun t call => t.after call.1 call.2) t

/-- What some calls produce of a burst. -/
def burstOutputs (t : Tunn P) : List (Env P × Op P) → List BurstItem
  | [] => []
  | (env, op) :: calls => t.burstItems env op ++ (t.after env op).burstOutputs calls

/-- Calls that find a burst pending, change no configuration, establish no session and do not
end the cycle. -/
def Continues (t : Tunn P) : List (Env P × Op P) → Prop
  | [] => True
  | (env, op) :: calls => t.pendingAmneziaJunk.isSome = true ∧ (t.action env op).Keeps ∧
      (t.run env op).1 ≠ .err .connectionExpired ∧ (t.after env op).Continues calls

/-- What is produced over a run, and what is still owed after it, is what was owed before. -/
theorem Continues.outputs_append_owes {calls : List (Env P × Op P)} (h : t.Continues calls) :
    t.owes = t.burstOutputs calls ++ (t.afterAll calls).owes := by
  induction calls generalizing t with
  | nil => rfl
  | cons call calls ih =>
    obtain ⟨env, op⟩ := call
    obtain ⟨hpending, hkeeps, hlive, hnext⟩ := h
    have hstep := ((t.core_after env op).serves hkeeps).owes hpending hlive
    calc t.owes = t.burstItems env op ++ (t.after env op).owes := hstep
      _ = t.burstItems env op ++ ((t.after env op).burstOutputs calls ++
          ((t.after env op).afterAll calls).owes) := by rw [← ih hnext]
      _ = t.burstOutputs ((env, op) :: calls) ++ (t.afterAll ((env, op) :: calls)).owes :=
        (List.append_assoc _ _ _).symm

/-! ### Calls that come to nothing -/

/-- Neither the burst nor a generator is touched. -/
structure Spares (t : Tunn P) (env : Env P) (t' : Tunn P) (env' : Env P) : Prop where
  burst : t'.pendingAmneziaJunk = t.pendingAmneziaJunk
  rng : t'.handshake.rng = t.handshake.rng
  jitter : t'.timers.jitterRng = t.timers.jitterRng
  entropy : env'.entropy = env.entropy

theorem Spares.refl (t : Tunn P) (env : Env P) : t.Spares env t env := ⟨rfl, rfl, rfl, rfl⟩

theorem Spares.trans {t₁ t₂ : Tunn P} {env₁ env₂ : Env P} (h : t.Spares env t₁ env₁)
    (h' : t₁.Spares env₁ t₂ env₂) : t.Spares env t₂ env₂ where
  burst := h'.burst.trans h.burst
  rng := h'.rng.trans h.rng
  jitter := h'.jitter.trans h.jitter
  entropy := h'.entropy.trans h.entropy

section

variable {t' : Tunn P} {env' : Env P} {src dst : Bytes} {force : Bool} {budget : OutputBudget}
  {result : TunnResult}

theorem Driving.spares (h : t.Driving env dst force budget result t' env')
    (hpending : t.pendingAmneziaJunk.isSome = true) (hquiet : result.isWriteToNetwork = false) :
    t.Spares env t' env' := by
  have hready {t₁ : Tunn P} (h : t.Readying force t₁) : t₁ = t := by
    cases h with
    | pending => rfl
    | prepared hnone =>
      rw [hnone] at hpending
      cases hpending
    | direct => rfl
  cases h with
  | busy => exact .refl t env
  | paced _ _ hentropy => exact ⟨rfl, rfl, rfl, hentropy⟩
  | refused h _ hentropy =>
    rw [hready h]
    exact ⟨rfl, rfl, rfl, hentropy⟩
  | emitted => cases hquiet

theorem Submitting.spares (h : t.Submitting env src dst budget result t' env')
    (hpending : t.pendingAmneziaJunk.isSome = true) (hquiet : result.isWriteToNetwork = false) :
    t.Spares env t' env' := by
  cases h with
  | refused | full => exact .refl t env
  | sent => cases hquiet
  | failed _ _ hdrives => exact hdrives.spares hpending hquiet
  | queued _ _ hdrives =>
    obtain ⟨hburst, hrng, hjitter, hentropy⟩ := hdrives.spares hpending hquiet
    exact ⟨hburst, hrng, hjitter, hentropy⟩

theorem Draining.spares (h : t.Draining env dst budget result t' env')
    (hpending : t.pendingAmneziaJunk.isSome = true) (hquiet : result.isWriteToNetwork = false) :
    t.Spares env t' env' := by
  cases h with
  | driven _ _ hdrives => exact hdrives.spares hpending hquiet
  | sent => cases hquiet
  | _ => exact ⟨rfl, rfl, rfl, rfl⟩

theorem Polling.spares (h : t.Polling env dst budget result t' env')
    (hpending : t.pendingAmneziaJunk.isSome = true) (hquiet : result.isWriteToNetwork = false)
    (hlive : result ≠ .err .connectionExpired) : t.Spares env t' env' := by
  -- a poll that finds a burst serves it
  have hsome (hnone : t.pendingAmneziaJunk = none) : t.Spares env t' env' := by
    rw [hnone] at hpending
    cases hpending
  cases h with
  | burst _ hdrives => exact hdrives.spares hpending hquiet
  | expires => exact absurd rfl hlive
  | waits hnone | expired hnone | retransmits hnone | initiates hnone | withholds hnone
  | keepalive hnone | owes hnone => exact hsome hnone

end

theorem beginPoll_spares (t : Tunn P) (env : Env P) :
    t.Spares env (t.beginPoll env).2.1 (t.beginPoll env).2.2 := by
  unfold beginPoll
  dsimp only
  split <;> exact ⟨rfl, rfl, rfl, rfl⟩

theorem forgetOldCookie_spares (t : Tunn P) (env : Env P) (now : Nat) :
    t.Spares env (t.forgetOldCookie now) env := by
  unfold forgetOldCookie
  split <;> exact ⟨rfl, rfl, rfl, rfl⟩

theorem updateTimers_spares (hpending : t.pendingAmneziaJunk.isSome = true) (env : Env P)
    (dst : Bytes) (budget : OutputBudget) :
    let out := t.updateTimers env dst budget
    out.1.isWriteToNetwork = false → out.1 ≠ .err .connectionExpired →
      t.Spares env out.2.1 out.2.2 := by
  intro out hquiet hlive
  obtain ⟨t₁, hstart, hpolls⟩ := t.updateTimers_polling env dst budget
  have hbegun : t.Spares env t₁ (t.beginPoll env).2.2 := by
    rcases hstart with rfl | rfl
    · exact t.beginPoll_spares env
    · exact (t.beginPoll_spares env).trans (forgetOldCookie_spares _ _ _)
  rw [← hbegun.burst] at hpending
  exact hbegun.trans (hpolls.spares hpending hquiet hlive)

/-- What a call leaves of the clock and of the entropy. -/
def spent (t : Tunn P) (env : Env P) : Op P → Env P
  | .encapsulate src dst budget => (t.encapsulate env src dst budget).2.2
  | .decapsulate source datagram dst budget =>
    (t.decapsulateSource env source datagram dst budget).2.2
  | .updateTimers dst budget => (t.updateTimers env dst budget).2.2
  | .formatHandshakeInitiation dst forceResend budget =>
    (t.formatHandshakeInitiation env dst forceResend budget).2.2
  | _ => env

/-- A call that produces nothing takes nothing from the burst and draws nothing. -/
theorem spares_of_quiet (hpending : t.pendingAmneziaJunk.isSome = true) (hasks : op.Asks)
    (hquiet : (t.run env op).1.isWriteToNetwork = false)
    (hlive : (t.run env op).1 ≠ .err .connectionExpired) :
    t.Spares env (t.after env op) (t.spent env op) := by
  cases op with
  | encapsulate src dst budget =>
    exact (t.encapsulate_submitting env src dst budget).spares hpending hquiet
  | decapsulate source datagram dst budget =>
    cases (hasks : datagram = [])
    exact (t.sendQueuedPacket_draining env dst budget).spares hpending hquiet
  | updateTimers dst budget => exact updateTimers_spares hpending env dst budget hquiet hlive
  | formatHandshakeInitiation dst forceResend budget =>
    exact (t.formatHandshakeInitiation_driving env dst forceResend budget).spares hpending hquiet
  | _ => exact hasks.elim

/-! ### The burst of a tunnel -/

/-- The kinds of all the datagrams that some calls produce. -/
def outputKinds (t : Tunn P) : List (Env P × Op P) → List OpReport.PacketKind
  | [] => []
  | (env, op) :: calls =>
    (if (t.run env op).1.isWriteToNetwork then [(t.after env op).opState.outputKind] else []) ++
      (t.after env op).outputKinds calls

/-- A tunnel with a session, that sends one junk datagram ahead of an initiation. -/
def byteLinked : Tunn bytePrimitives :=
  let answered := byteHome.after (byteEnv 1 5)
    (byteReceive (byteHandshake byteHome bytePeer 1 4).initiation)
  let confirmed := answered.after (byteEnv 1 5)
    (byteReceive (byteHandshake byteHome bytePeer 1 4).keepalive)
  confirmed.after (byteEnv 2 5) (.setObfuscation .default { preHandshakeJunk := .new 1 40 90 0 })

def byteDemand : Env bytePrimitives × Op bytePrimitives :=
  (byteEnv 3 7, .formatHandshakeInitiation byteBuffer true .UNBOUNDED)

def byteWrite : Env bytePrimitives × Op bytePrimitives :=
  (byteEnv 3 7, .encapsulate [1] byteBuffer .UNBOUNDED)

theorem byteLinked_visited : byteLinked.Visited := by
  have hnew : byteHome.Visited := Reachable.base (byteTunn_isNew 1 6 1)
  have hanswered := hnew.after (byteEnv 1 5)
    (byteReceive (byteHandshake byteHome bytePeer 1 4).initiation)
  exact (hanswered.after _ _).after _ _

theorem byteLinked_continues :
    (byteLinked.after byteDemand.1 byteDemand.2).Continues [byteWrite, byteDemand] := by
  refine ⟨?_, trivial, ?_, ?_, trivial, ?_, trivial⟩
  all_goals decide +kernel

/-- While its session can send, a tunnel writes data between the datagrams of its burst. -/
theorem burst_interleaved :
    byteLinked.Visited ∧ byteLinked.pendingAmneziaJunk = none ∧
      (byteLinked.after byteDemand.1 byteDemand.2).pendingAmneziaJunk.isSome = true ∧
      (byteLinked.after byteDemand.1 byteDemand.2).Continues [byteWrite, byteDemand] ∧
      byteLinked.outputKinds [byteDemand, byteWrite, byteDemand] =
        [.junk, .transportData, .handshakeInitiation] := by
  refine ⟨byteLinked_visited, ?_, ?_, byteLinked_continues, ?_⟩
  all_goals decide +kernel

/-- **The order of a burst.** From the call that prepares it, and until a session is
established, the cycle ends or the configuration changes, the pre-handshake datagrams produced
are the front of the burst the configuration called for; they are all of it once no burst is
pending. -/
theorem burst_order (P : Primitives) :
    (∀ (t : Tunn P) env op, t.pendingAmneziaJunk = none →
      (t.after env op).pendingAmneziaJunk.isSome = true → ∃ rng,
        ∀ calls, (t.after env op).Continues calls →
          burstOf (t.amnezia.preHandshakeImitationDatagrams P rng).1
              t.amnezia.preHandshakeJunk.packetCount =
            t.burstOutputs ((env, op) :: calls) ++ ((t.after env op).afterAll calls).owes ∧
          (((t.after env op).afterAll calls).pendingAmneziaJunk = none ↔
            t.burstOutputs ((env, op) :: calls) =
              burstOf (t.amnezia.preHandshakeImitationDatagrams P rng).1
                t.amnezia.preHandshakeJunk.packetCount)) ∧
    (∀ (t : Tunn P) env op, t.pendingAmneziaJunk.isSome = true → op.Asks →
      (t.run env op).1.isWriteToNetwork = false → (t.run env op).1 ≠ .err .connectionExpired →
      t.Spares env (t.after env op) (t.spent env op)) ∧
    ∀ (t : Tunn P) obf amnezia, t.pendingAmneziaJunk.isSome = true →
      (t.setObfuscation obf amnezia).pendingAmneziaJunk.isSome = true := by
  refine ⟨?_, fun t env op => spares_of_quiet, ?_⟩
  · intro t env op hnone hsome
    obtain ⟨rng, hopens⟩ := (t.core_after env op).opens hnone hsome
    refine ⟨rng, fun calls hcontinues => ?_⟩
    have hplan : burstOf (t.amnezia.preHandshakeImitationDatagrams P rng).1
        t.amnezia.preHandshakeJunk.packetCount =
        t.burstOutputs ((env, op) :: calls) ++ ((t.after env op).afterAll calls).owes := by
      calc _ = t.burstItems env op ++ (t.after env op).owes := hopens
        _ = t.burstItems env op ++ ((t.after env op).burstOutputs calls ++
            ((t.after env op).afterAll calls).owes) := by rw [← hcontinues.outputs_append_owes]
        _ = _ := (List.append_assoc _ _ _).symm
    refine ⟨hplan, ?_⟩
    rw [hplan, List.self_eq_append_right]
    exact (Core.owes_eq_nil_iff (c := ((t.after env op).afterAll calls).core)).symm
  · intro t obf amnezia hpending
    exact (t.core_setObfuscation obf amnezia).configure_burst.trans hpending

theorem burst_order_byteLinked : ∃ rng,
    byteLinked.burstOutputs [byteDemand, byteWrite, byteDemand] =
      burstOf (byteLinked.amnezia.preHandshakeImitationDatagrams bytePrimitives rng).1
        byteLinked.amnezia.preHandshakeJunk.packetCount := by
  obtain ⟨horder, -, -⟩ := burst_order bytePrimitives
  obtain ⟨rng, horder⟩ := horder byteLinked byteDemand.1 byteDemand.2 (by decide +kernel)
    (by decide +kernel)
  obtain ⟨-, hend⟩ := horder [byteWrite, byteDemand] byteLinked_continues
  exact ⟨rng, hend.mp (by decide +kernel)⟩

end Tunn

end BoringTun
