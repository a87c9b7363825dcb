import BoringTun.Tunn.Decapsulate
import BoringTun.Tunn.Written

/-!
Committing what authenticated: a handshake message is always answered, and every
acceptance is one step of the tunnel's `Life`.

* `Accepting`: what each acceptance does, with the tunnel it leaves (`commit_accepting`);
* `commit_commits`: what that is to the sessions;
* `committed_step`: that is one step of the life.
-/

namespace BoringTun

open AmneziaConfig

variable {P : Primitives}

/-- A session that is established stamps its slot with the time of the timers. -/
theorem Timers.sessionEstablished_stamps {timers timers' : Timers} (h : timers.Ticked timers')
    (cfg : AwgTimers) (rng : Rng) (isInitiator : Bool) (slot : Fin N_SESSIONS) :
    let out := (timers'.sessionEstablished cfg rng isInitiator slot).1
    out.timeCurrent = timers.timeCurrent ∧
      out.sessionTimers = Function.update timers.sessionTimers slot timers.timeCurrent := by
  have hticked := h.trans (timers'.tick_ticked cfg rng .timeSessionEstablished)
  refine ⟨hticked.current, ?_⟩
  rw [← hticked.session, ← hticked.current]
  rfl

namespace Tunn

open Life

/-! ### What is left behind -/

section

variable (t : Tunn P)

/-- The slot that is selected once `newIdx` is offered. -/
def chosen (newIdx : Nat) : Nat :=
  if t.selected.isNone ∨
      t.timers.sessionTimers (slotOf newIdx) ≥ t.timers.sessionTimers (slotOf t.current) then newIdx
  else t.current

theorem setCurrentSession_eq (newIdx : Nat) :
    t.setCurrentSession newIdx = { t with current := t.chosen newIdx } := by
  unfold setCurrentSession chosen
  split
  · next hsame => rw [hsame, ite_self, ← hsame]
  · split <;> rfl

/-- An initiation is answered: its session is stored beside the selected one. -/
def answering (env : Env P) (init : AuthenticatedInit P) (r₁ r₂ r₃ rng : Rng) : Tunn P :=
  let session := responderSession t.handshake init env.draw
    (t.handshake.responderIndex (t.current % N_SESSIONS))
  let slot := slotOf session.receivingIndex.toNat
  { t.storeSession session with
    handshake := { (t.handshake.answeredInit env init (t.current % N_SESSIONS)).2 with rng := rng }
    timers := t.timers.answered t.amnezia.timers r₁ r₂ r₃ slot
    pendingAmneziaJunk := none
    opState := { t.opState.sessionStored slot with outputKind := .handshakeResponse } }

/-- The session of a response is stored, before it is offered. -/
def completed (response : AuthenticatedResponse P) (r₁ r₂ rng : Rng) : Tunn P :=
  let session := response.session.advanced
  { t.storeSession session with
    handshake := { (t.handshake.commitResponse response).2 with rng := rng }
    timers := t.timers.completed t.amnezia.timers r₁ r₂ (slotOf session.receivingIndex.toNat)
    pendingAmneziaJunk := none
    udpWindow := t.windowFor 0 }

/-- It is confirmed by a keepalive on it. -/
def completing (response : AuthenticatedResponse P) (r₁ r₂ r₃ rng : Rng) : Tunn P :=
  let stored := t.completed response r₁ r₂ rng
  { stored with
    current := stored.chosen response.session.receivingIndex.toNat
    timers := (stored.timers.tick t.amnezia.timers r₃ .timeLastPacketSent).1
    opState := { stored.opState with outputKind := .transportKeepalive } }

/-- A transport packet is received on a session. -/
def receiving (receiverIdx : UInt32) (plaintext : Bytes) (session : Session P) (r₁ r₂ rng : Rng)
    (isData : Bool) (rxBytes : Nat) : Tunn P :=
  let marked := t.putSession (slotOf receiverIdx.toNat) session
  { marked.withRng rng with
    current := marked.chosen receiverIdx.toNat
    timers := t.timers.received t.amnezia.timers r₁ r₂ isData
    rxBytes := rxBytes
    udpWindow := grownWindow t.udpWindow (t.amnezia.receivedWindowObservation plaintext.length) }

/-- An authenticated packet is committed. -/
inductive Accepting (dst : Bytes) (budget : OutputBudget) :
    Authenticated P → TunnResult → Tunn P → Prop where
  | answered {init : AuthenticatedInit P} {wire : Bytes} {env : Env P} {r₁ r₂ r₃ rng : Rng}
    (hframed : Framed P t.amnezia t.handshake.obf .handshakeResponse
      (t.handshake.answeredInit env init (t.current % N_SESSIONS)).1
      ((TrailerRoom.window t.udpWindow).within
        (Budget.ceiling dst.length (budget.controlFor .other))) wire) :
    Accepting dst budget (.handshakeInit init) (.writeToNetwork wire)
      (t.answering env init r₁ r₂ r₃ rng)
  | completed {response : AuthenticatedResponse P} {wire : Bytes} {r₁ r₂ r₃ rng : Rng}
    (hsealed : Sealed t.amnezia t.handshake.obf (t.windowFor 0) response.session [] dst budget
      wire) :
    Accepting dst budget (.handshakeResponse response) (.writeToNetwork wire)
      (t.completing response r₁ r₂ r₃ rng)
  | cookie {cookie : Bytes} {r rng : Rng} :
    Accepting dst budget (.cookieReply cookie) .done { t with
      handshake := { t.handshake.commitCookie cookie with rng := rng }
      timers := (t.timers.tick t.amnezia.timers r .timeCookieReceived).1 }
  | data {receiverIdx : UInt32} {plaintext : Bytes} {session : Session P} {result : TunnResult}
    {r₁ r₂ rng : Rng} {isData : Bool} {rxBytes : Nat}
    (hquiet : result.isWriteToNetwork = false) :
    Accepting dst budget (.data receiverIdx plaintext session) result
      (t.receiving receiverIdx plaintext session r₁ r₂ rng isData rxBytes)

variable (session : Session P)

/-- What is stored and ticked before an answer is written. -/
theorem storeSession_answered : ∃ r₁ r₂ r₃ rng,
    (((t.storeSession session).timerTick .timeLastPacketReceived).timerTick
      .timeLastPacketSent).timerTickSessionEstablished false session.receivingIndex.toNat =
      { (t.storeSession session).withRng rng with
        timers := t.timers.answered t.amnezia.timers r₁ r₂ r₃
          (slotOf session.receivingIndex.toNat)
        pendingAmneziaJunk := none } :=
  let received := t.timers.tick t.amnezia.timers t.handshake.rng .timeLastPacketReceived
  let sent := received.1.tick t.amnezia.timers received.2 .timeLastPacketSent
  ⟨t.handshake.rng, received.2, sent.2, _, rfl⟩

/-- What is stored, ticked and offered before a session is confirmed. -/
theorem storeSession_completed : ∃ r₁ r₂ r₃ rng timers,
    timers = t.timers.completed t.amnezia.timers r₁ r₂ (slotOf session.receivingIndex.toNat) ∧
    ((((t.storeSession session).timerTick .timeLastPacketReceived).timerTickSessionEstablished true
      session.receivingIndex.toNat).setCurrentSession session.receivingIndex.toNat).timerTick
        .timeLastPacketSent =
      let stored := { t.storeSession session with timers := timers, pendingAmneziaJunk := none }
      { stored.withRng rng with
        current := stored.chosen session.receivingIndex.toNat
        timers := (timers.tick t.amnezia.timers r₃ .timeLastPacketSent).1 } := by
  let received := t.timers.tick t.amnezia.timers t.handshake.rng .timeLastPacketReceived
  let established := received.1.sessionEstablished t.amnezia.timers received.2 true
    (slotOf session.receivingIndex.toNat)
  let sent := established.1.tick t.amnezia.timers established.2 .timeLastPacketSent
  refine ⟨t.handshake.rng, received.2, established.2, sent.2, established.1, rfl, ?_⟩
  rw [setCurrentSession_eq]
  rfl

end

/-! ### The answers -/

section

variable {t : Tunn P} (env : Env P) {dst : Bytes} {budget : OutputBudget}

/-- The response is written by a tunnel that has stored its session. -/
theorem writeHandshakeToNetwork_answers {t' : Tunn P} {init : AuthenticatedInit P} (r₁ r₂ r₃ : Rng)
    {session : Session P} {slot : Fin N_SESSIONS}
    (hsession : session = responderSession t.handshake init env.draw
      (t.handshake.responderIndex (t.current % N_SESSIONS)))
    (hslot : slot = slotOf session.receivingIndex.toNat)
    (hstored : t' = { t with
      handshake := { (t.handshake.answeredInit env init (t.current % N_SESSIONS)).2 with
        rng := t'.handshake.rng }
      sessions := Function.update t.sessions slot (some session)
      timers := t.timers.answered t.amnezia.timers r₁ r₂ r₃ slot
      pendingAmneziaJunk := none
      opState := t.opState.sessionStored slot })
    (hroom : HANDSHAKE_RESP_SZ + t.amnezia.handshakeResponseJunkSize ≤ dst.length) :
    let packet := (t.handshake.answeredInit env init (t.current % N_SESSIONS)).1
    let out := t'.writeHandshakeToNetwork (overwrite dst 0 packet) packet.length
      (Budget.ceiling dst.length (budget.controlFor .other))
    ∃ result, Except.ok (ε := WireGuardError) out.1 = .ok result ∧
      t.Accepting dst budget (.handshakeInit init) result
        (out.2.noteOutput .handshakeResponse out.1) := by
  intro packet out
  have hcanon := t.handshake.canonical_answeredInit env init (t.current % N_SESSIONS)
  have hwrite : packet.length + t.amnezia.outboundJunkSize .handshakeResponse ≤ dst.length := by
    rw [hcanon.exact _ rfl]
    exact hroom
  have hobf : t'.handshake.obf = t.handshake.obf := by rw [hstored]; rfl
  have hcfg : t'.amnezia = t.amnezia := by rw [hstored]
  have hwindow : t'.udpWindow = t.udpWindow := by rw [hstored]
  obtain ⟨wire, rng, hout, hframed⟩ := writeToNetworkWith_framed hobf hcfg hcanon hwrite
    ((TrailerRoom.window t'.udpWindow).within _)
  have hwritten : out = (.writeToNetwork wire, t'.withRng rng) := hout
  rw [hwindow] at hframed
  rw [hwritten, hstored]
  subst hslot hsession
  exact ⟨_, rfl, .answered hframed⟩

/-- With room for the response an initiation is answered. -/
theorem commitHandshakeInit_accepting {init : AuthenticatedInit P}
    (hgen : t.Genuine dst budget (.handshakeInit init)) :
    let out := t.commitHandshakeInit env init dst budget
    ∃ result, out.1 = .ok result ∧ t.Accepting dst budget (.handshakeInit init) result out.2.1 := by
  obtain ⟨-, hroom, -⟩ := hgen
  unfold commitHandshakeInit
  dsimp only
  rw [Handshake.commitInitiation_spec _ _ _ _ _ (Nat.le_of_add_right_le hroom)]
  dsimp only
  rw [← responderSession]
  generalize hsession : responderSession t.handshake init env.draw
    (t.handshake.responderIndex (t.current % N_SESSIONS)) = session
  obtain ⟨r₁, r₂, r₃, rng, hstored⟩ := { t with
    handshake := (t.handshake.answeredInit env init (t.current % N_SESSIONS)).2
    }.storeSession_answered session
  rw [hstored]
  exact writeHandshakeToNetwork_answers env r₁ r₂ r₃ hsession.symm rfl rfl hroom

/-- A response's session is new. -/
theorem authenticateResponse_counter {h : Handshake P} {now : Nat} {packet : HandshakeResponse P}
    {response : AuthenticatedResponse P} (hauth : h.authenticateResponse now packet = .ok response) :
    response.session.sendingKeyCounter = 0 := by
  obtain ⟨_, _, -, -, -, hsession⟩ := Handshake.authenticateResponse_eq_ok hauth
  rw [hsession]
  rfl

theorem commitResponse_obf (h : Handshake P) (response : AuthenticatedResponse P) :
    (h.commitResponse response).2.obf = h.obf := by
  unfold Handshake.commitResponse
  dsimp only
  split <;> rfl

/-- The confirming keepalive is written by a tunnel that has stored and offered its session. -/
theorem writeToNetwork_confirms {t' : Tunn P} {response : AuthenticatedResponse P}
    {obf : ObfuscationRanges} (r₁ r₂ r₃ : Rng) {rng rng₀ : Rng} {pad : Nat}
    (hsame : obf = t.handshake.obf)
    (hstored : t' = { t.completing response r₁ r₂ r₃ t'.handshake.rng with
      opState := t.opState.sessionStored (slotOf response.session.receivingIndex.toNat) })
    (hmandatory : Budget.transportFrame 0 t.amnezia.transportJunkSize ≤
      Budget.ceiling dst.length budget.transport)
    (hpad : pad = (t.amnezia.contentPaddingForFrame 0
      (Budget.ceiling dst.length budget.transport) t.amnezia.transportJunkSize (t.windowFor 0)
      rng₀).1) :
    let packet := response.session.message obf rng [] pad
    let out := t'.writeToNetwork (overwrite dst 0 packet) packet.length
    ∃ result, Except.ok (ε := WireGuardError) out.1 = .ok result ∧
      t.Accepting dst budget (.handshakeResponse response) result
        (out.2.noteOutput .transportKeepalive out.1) := by
  subst hsame
  intro packet out
  have hroom : packet.length + t.amnezia.outboundJunkSize .transportData ≤ dst.length := by
    rw [Session.length_message, hpad]
    exact (contentPadding_le hmandatory).trans Budget.ceiling_le
  have hobf : t'.handshake.obf = t.handshake.obf := by
    rw [hstored]
    exact commitResponse_obf t.handshake response
  have hcfg : t'.amnezia = t.amnezia := by rw [hstored]; rfl
  have hwindow : t'.udpWindow = t.windowFor 0 := by rw [hstored]; rfl
  obtain ⟨wire, rng', hout, hframed⟩ := writeToNetworkWith_framed hobf hcfg
    (response.session.canonical_message t.handshake.obf rng [] pad) hroom (.window t'.udpWindow)
  have hwritten : out = (.writeToNetwork wire, t'.withRng rng') := hout
  have hsealed : Sealed t.amnezia t.handshake.obf (t.windowFor 0) response.session [] dst budget
      wire := ⟨hmandatory, rng, rng₀, pad, hpad, hwindow ▸ hframed⟩
  have haccepts : t.Accepting dst budget (.handshakeResponse response) (.writeToNetwork wire)
      (t.completing response r₁ r₂ r₃ rng') := .completed hsealed
  rw [hwritten, hstored]
  exact ⟨_, rfl, haccepts⟩

/-- With room for the confirming keepalive a response is answered by it. -/
theorem commitHandshakeResponse_accepting {response : AuthenticatedResponse P}
    (hgen : t.Genuine dst budget (.handshakeResponse response)) :
    let out := t.commitHandshakeResponse response dst budget
    ∃ result, out.1 = .ok result ∧
      t.Accepting dst budget (.handshakeResponse response) result out.2 := by
  obtain ⟨hbudget, hroom, now, raw, hauth⟩ := hgen
  have hmandatory := Budget.le_ceiling hbudget hroom
  have hnonce : response.session.sendingExhausted = false := by
    rw [Session.sendingExhausted, authenticateResponse_counter hauth]
    rfl
  unfold commitHandshakeResponse
  rw [show t.handshake.commitResponse response =
    (response.session, (t.handshake.commitResponse response).2) from rfl]
  rcases hdraw : { t with handshake := (t.handshake.commitResponse response).2 }.drawContentPadding 0
    (Budget.ceiling dst.length budget.transport) with ⟨pad, t₁⟩
  have hpad : pad = _ := (congrArg Prod.fst hdraw).symm
  have hfits : ([] : Bytes).length + pad + DATA_OVERHEAD_SZ ≤ dst.length := by
    rw [hpad]
    exact Nat.le_of_add_right_le ((contentPadding_le hmandatory).trans Budget.ceiling_le)
  have hdrawn : t₁ = { t with
      handshake := { (t.handshake.commitResponse response).2 with rng := t₁.handshake.rng }
      udpWindow := t.windowFor 0 } := by
    cases hdraw
    rfl
  dsimp only
  rw [hdraw]
  dsimp only
  rw [Session.formatPacketData_eq_ok.mpr ⟨hfits, hnonce, rfl⟩]
  dsimp only
  obtain ⟨r₁, r₂, r₃, rng, timers, htimers, hstored⟩ := (t₁.withRng
    (t₁.handshake.obf.h4Data.random t₁.handshake.rng).2).storeSession_completed
      response.session.advanced
  rw [hstored]
  generalize t₁.handshake.rng = rng₁ at hdrawn
  subst hdrawn
  exact writeToNetwork_confirms r₁ r₂ r₃ (commitResponse_obf _ _) (htimers ▸ rfl) hmandatory hpad

theorem validateDecapsulatedPacket_eq (t : Tunn P) (packet : Bytes) :
    let out := t.validateDecapsulatedPacket packet
    out.1.isWriteToNetwork = false ∧ ∃ (isData : Bool) (rng : Rng) (rxBytes : Nat),
      out.2 = { t.withRng rng with
        timers :=
          if isData then
            (t.timers.tick t.amnezia.timers t.handshake.rng .timeLastDataPacketReceived).1
          else t.timers
        rxBytes := rxBytes } := by
  unfold validateDecapsulatedPacket
  split
  · exact ⟨rfl, false, _, _, rfl⟩
  split
  · exact ⟨rfl, false, _, _, rfl⟩
  split
  · exact ⟨rfl, false, _, _, rfl⟩
  · dsimp only
    rw [timerTick_eq]
    split <;> exact ⟨rfl, true, _, _, rfl⟩

theorem commitData_accepting (t : Tunn P) (dst : Bytes) (budget : OutputBudget)
    (receiverIdx : UInt32) (plaintext : Bytes) (session : Session P) :
    let out := (t.putSession (slotOf receiverIdx.toNat) session).commitData receiverIdx plaintext
    ∃ result, out.1 = .ok result ∧
      t.Accepting dst budget (.data receiverIdx plaintext session) result out.2 := by
  unfold commitData
  dsimp only
  rw [setCurrentSession_eq, timerTick_eq]
  generalize hticked : growWindow _ _ = ticked
  obtain ⟨hquiet, isData, rng, rxBytes, hout⟩ := ticked.validateDecapsulatedPacket_eq plaintext
  generalize ticked.validateDecapsulatedPacket plaintext = out at hquiet hout
  have haccepts : t.Accepting dst budget (.data receiverIdx plaintext session) out.1
      (t.receiving receiverIdx plaintext session t.handshake.rng
        (t.timers.tick t.amnezia.timers t.handshake.rng .timeLastPacketReceived).2 rng isData
        rxBytes) := .data hquiet
  refine ⟨_, rfl, ?_⟩
  rw [hout, ← hticked]
  exact haccepts

theorem commitWithBudget_accepting {packet : Authenticated P} (hgen : t.Genuine dst budget packet) :
    let out := t.commitWithBudget env packet dst budget
    (t.noteInput packet).Accepting dst budget packet out.1 out.2.1 := by
  unfold commitWithBudget
  cases packet with
  | handshakeInit init =>
    obtain ⟨result, hresult, haccepts⟩ :=
      commitHandshakeInit_accepting (t := t.noteInput (.handshakeInit init)) env hgen
    dsimp only
    rw [hresult]
    exact haccepts
  | handshakeResponse response =>
    obtain ⟨result, hresult, haccepts⟩ :=
      commitHandshakeResponse_accepting (t := t.noteInput (.handshakeResponse response)) hgen
    dsimp only
    rw [hresult]
    exact haccepts
  | cookieReply cookie => exact .cookie (r := t.handshake.rng)
  | data receiverIdx plaintext session =>
    obtain ⟨result, hresult, haccepts⟩ := (t.noteInput (.data receiverIdx plaintext session))
      |>.commitData_accepting dst budget receiverIdx plaintext session
    dsimp only
    rw [hresult]
    exact haccepts

/-- Nothing of it depends on what is learned. -/
theorem Accepting.relearned {auto : AutoImitation} {packet : Authenticated P} {result : TunnResult}
    {t' : Tunn P} (h : { t with autoImitation := auto }.Accepting dst budget packet result t')
    (auto' : AutoImitation) :
    { t with autoImitation := auto' }.Accepting dst budget packet result
      { t' with autoImitation := auto' } := by
  cases h with
  | @answered init wire env r₁ r₂ r₃ rng hframed =>
    exact @Accepting.answered _ { t with autoImitation := auto' } _ _ _ _ env r₁ r₂ r₃ rng hframed
  | @completed response wire r₁ r₂ r₃ rng hsealed =>
    exact @Accepting.completed _ { t with autoImitation := auto' } _ _ _ _ r₁ r₂ r₃ rng hsealed
  | @cookie cookie r => exact .cookie (r := r)
  | @data _ _ _ _ r₁ r₂ rng isData rxBytes hquiet =>
    exact @Accepting.data _ { t with autoImitation := auto' } _ _ _ _ _ _ r₁ r₂ rng isData rxBytes
      hquiet

theorem Accepting.autoImitation {packet : Authenticated P} {result : TunnResult} {t' : Tunn P}
    (h : t.Accepting dst budget packet result t') : t'.autoImitation = t.autoImitation := by
  cases h <;> rfl

/-- Only an initiation teaches an imitation. -/
theorem learnImitation_eq {packet : Authenticated P} (h : packet.kind ≠ .handshakeInitiation)
    (datagram : Bytes) (hint : Option AmneziaImitationProtocol) :
    t.learnImitation packet datagram hint = t.autoImitation := by
  unfold learnImitation
  refine if_neg fun hlearns => ?_
  cases packet with
  | handshakeInit init => exact h rfl
  | _ => cases hlearns.2.2

/-- An authenticated packet is committed whatever is learned from it. -/
theorem commit_accepting {packet : Authenticated P} (hgen : t.Genuine dst budget packet)
    (datagram : Bytes) (hint : Option AmneziaImitationProtocol) :
    let out := t.commitWithImitationAndBudget env packet datagram hint dst budget
    ∃ auto, (packet.kind ≠ .handshakeInitiation → auto.learned = t.autoImitation.learned) ∧
      { t.noteInput packet with autoImitation := auto }.Accepting dst budget packet out.1
        out.2.1 := by
  unfold commitWithImitationAndBudget
  rw [if_neg]
  · have haccepts := commitWithBudget_accepting env (t := { t with
      autoImitation := t.learnImitation packet datagram hint }) hgen
    have hsame := haccepts.autoImitation
    dsimp only at haccepts hsame ⊢
    generalize { t with autoImitation := t.learnImitation packet datagram hint
      }.commitWithBudget env packet dst budget = out at haccepts hsame ⊢
    have hlearned (hinit : packet.kind ≠ .handshakeInitiation) :
        out.2.1.autoImitation.learned = t.autoImitation.learned := by
      rw [hsame]
      exact congrArg AutoImitation.learned (learnImitation_eq hinit datagram hint)
    split
    · exact ⟨{ out.2.1.autoImitation with learned := t.autoImitation.learned }, fun _ => rfl,
        haccepts.relearned (t := t.noteInput packet) _⟩
    split
    · exact ⟨out.2.1.autoImitation.clearPending, hlearned,
        haccepts.relearned (t := t.noteInput packet) _⟩
    · exact ⟨out.2.1.autoImitation, hlearned, haccepts.relearned (t := t.noteInput packet) _⟩
  · -- the room of a response was checked when it authenticated
    rintro ⟨-, hinit, hsmall⟩
    cases packet with
    | handshakeInit init => exact Nat.not_lt.mpr hgen.2.1 hsmall
    | _ => cases hinit

theorem life_chosen (index : Nat) :
    { t with current := t.chosen index }.life = t.life.select index := by
  rw [← setCurrentSession_eq]
  unfold setCurrentSession Life.select
  rw [show t.life.current = t.current from rfl]
  split
  · rfl
  · rw [show t.life.selected = t.selected from rfl]
    split
    · next h => exact (if_pos h).symm
    · next h => exact (if_neg h).symm

theorem life_answering (init : AuthenticatedInit P) (r₁ r₂ r₃ rng : Rng) :
    (t.answering env init r₁ r₂ r₃ rng).life = t.life.answer
      (responderSession t.handshake init env.draw
        (t.handshake.responderIndex (t.current % N_SESSIONS))) := by
  have hticked := (t.timers.tick_ticked t.amnezia.timers r₁ .timeLastPacketReceived).trans
    (Timers.tick_ticked _ t.amnezia.timers r₂ .timeLastPacketSent)
  obtain ⟨hcurrent, hsession⟩ := Timers.sessionEstablished_stamps hticked t.amnezia.timers r₃ false
    (slotOf (t.handshake.responderIndex (t.current % N_SESSIONS)).toNat)
  unfold life
  congr 1

theorem life_completing (response : AuthenticatedResponse P) (r₁ r₂ r₃ rng : Rng) :
    (t.completing response r₁ r₂ r₃ rng).life =
      ((t.life.retire response.isPrevious).store response.session.advanced).select
        response.session.receivingIndex.toNat := by
  have hstored : (t.completed response r₁ r₂ rng).life =
      (t.life.retire response.isPrevious).store response.session.advanced := by
    have hretired : { t with handshake := (t.handshake.commitResponse response).2 }.life =
        t.life.retire response.isPrevious := by
      unfold Handshake.commitResponse Life.retire
      dsimp only
      split <;> rfl
    obtain ⟨hcurrent, hsession⟩ := Timers.sessionEstablished_stamps
      (t.timers.tick_ticked t.amnezia.timers r₁ .timeLastPacketReceived) t.amnezia.timers r₂ true
      (slotOf response.session.receivingIndex.toNat)
    rw [← hretired]
    unfold life
    congr 1
  rw [← hstored, ← life_chosen]
  exact life_timers { t.completed response r₁ r₂ rng with
    current := (t.completed response r₁ r₂ rng).chosen response.session.receivingIndex.toNat }
    (Timers.tick_ticked _ _ r₃ .timeLastPacketSent)

theorem life_receiving (receiverIdx : UInt32) (plaintext : Bytes) (session : Session P)
    (r₁ r₂ rng : Rng) (isData : Bool) (rxBytes : Nat) :
    (t.receiving receiverIdx plaintext session r₁ r₂ rng isData rxBytes).life =
      (t.life.put (slotOf receiverIdx.toNat) session).select receiverIdx.toNat := by
  rw [show t.life.put (slotOf receiverIdx.toNat) session =
    (t.putSession (slotOf receiverIdx.toNat) session).life from rfl, ← life_chosen]
  have hreceived := t.timers.tick_ticked t.amnezia.timers r₁ .timeLastPacketReceived
  have hticked : t.timers.Ticked (t.timers.received t.amnezia.timers r₁ r₂ isData) := by
    unfold Timers.received
    cases isData with
    | false => exact hreceived
    | true => exact hreceived.trans (Timers.tick_ticked _ _ _ .timeLastDataPacketReceived)
  exact life_timers { t.putSession (slotOf receiverIdx.toNat) session with
    current := (t.putSession (slotOf receiverIdx.toNat) session).chosen receiverIdx.toNat } hticked

/-! ### What every acceptance does -/

/-- The life once a packet is committed. An initiation is answered under `ephemeral`. -/
def committed (t : Tunn P) (ephemeral : P.Secret) : Authenticated P → Life P
  | .handshakeInit init => t.life.answer (responderSession t.handshake init ephemeral
      (t.handshake.responderIndex (t.current % N_SESSIONS)))
  | .handshakeResponse response =>
    ((t.life.retire response.isPrevious).store response.session.advanced).select
      response.session.receivingIndex.toNat
  | .cookieReply _ => t.life
  | .data receiverIdx _ session =>
    (t.life.put (slotOf receiverIdx.toNat) session).select receiverIdx.toNat

/-- Answering an initiation leaves the selected slot alone. -/
theorem selected_committed_init (ephemeral : P.Secret) (init : AuthenticatedInit P) :
    (t.committed ephemeral (.handshakeInit init)).selected = t.selected := by
  have hslot : slotOf t.current ≠
      slotOf (t.handshake.responderIndex (t.current % N_SESSIONS)).toNat := fun heq =>
    Handshake.succIndexAvoiding_slot _ _ (congrArg Fin.val heq).symm
  rw [Life.selected, committed, ring_answer, current_answer, responderSession_receivingIndex]
  exact if_neg hslot

/-- What a commit did to the life, and that it answered a handshake message by a datagram. -/
structure Commits (t : Tunn P) (packet : Authenticated P) (result : TunnResult) (t' : Tunn P) :
    Prop where
  life : ∃ ephemeral, t'.life = t.committed ephemeral packet
  answer : packet.kind = .handshakeInitiation ∨ packet.kind = .handshakeResponse →
    ∃ wire, result = .writeToNetwork wire

theorem Accepting.commits {packet : Authenticated P} {result : TunnResult} {t' : Tunn P}
    (h : t.Accepting dst budget packet result t') (ephemeral : P.Secret) :
    t.Commits packet result t' := by
  cases h with
  | answered => exact ⟨⟨_, life_answering _ _ _ _ _ _⟩, fun _ => ⟨_, rfl⟩⟩
  | completed => exact ⟨⟨ephemeral, life_completing _ _ _ _ _⟩, fun _ => ⟨_, rfl⟩⟩
  | @cookie cookie r rng =>
    exact ⟨⟨ephemeral, life_timers { t with
      handshake := { t.handshake.commitCookie cookie with rng := rng } }
      (t.timers.tick_ticked _ r .timeCookieReceived)⟩, nofun⟩
  | data => exact ⟨⟨ephemeral, life_receiving _ _ _ _ _ _ _ _⟩, nofun⟩

theorem commit_commits {packet : Authenticated P} (hgen : t.Genuine dst budget packet)
    (datagram : Bytes) (hint : Option AmneziaImitationProtocol) :
    let out := t.commitWithImitationAndBudget env packet datagram hint dst budget
    t.Commits packet out.1 out.2.1 := by
  obtain ⟨auto, -, haccepts⟩ := commit_accepting env hgen datagram hint
  obtain ⟨hlife, hanswer⟩ := haccepts.commits env.draw
  exact ⟨hlife, hanswer⟩

/-! ### Every acceptance is a step -/

/-- What accepting a packet does to the ring. -/
def labelOf (t : Tunn P) : Authenticated P → Option Label
  | .handshakeInit _ =>
    some (.respond (slotOf (t.handshake.responderIndex (t.current % N_SESSIONS)).toNat))
  | .handshakeResponse response =>
    some (.complete (slotOf response.session.receivingIndex.toNat))
  | .cookieReply _ => none
  | .data receiverIdx _ _ => some (.receive (slotOf receiverIdx.toNat))

/-- A genuine packet is committed by one step, and a cookie reply by none. -/
theorem committed_step {packet : Authenticated P} (hgen : t.Genuine dst budget packet)
    (ephemeral : P.Secret) :
    match t.labelOf packet with
    | some label => Step label t.life (t.committed ephemeral packet)
    | none => t.committed ephemeral packet = t.life := by
  cases packet with
  | handshakeInit init =>
    obtain ⟨-, -, raw, hauth⟩ := hgen
    refine .respond t.life_hosts hauth fun hslot => ?_
    exact Handshake.succIndexAvoiding_slot _ _ (congrArg Fin.val hslot)
  | handshakeResponse response =>
    obtain ⟨-, -, now, raw, hauth⟩ := hgen
    have hsent : response.session.advanced = { response.session with sendingKeyCounter := 1 } := by
      rw [Session.advanced, authenticateResponse_counter hauth]
    exact .complete t.life_hosts hauth hsent
  | cookieReply cookie => rfl
  | data receiverIdx plaintext session =>
    obtain ⟨stored, raw, hstored, hraw, hopen⟩ := hgen
    obtain ⟨-, hidx, -, -, hmark⟩ := Session.receivePacketData_eq_ok.mp hopen
    obtain ⟨mark, rfl⟩ := Session.receivingCounterMark_eq_ok hmark
    obtain rfl : stored.receivingIndex = receiverIdx := hidx.symm.trans hraw
    exact .receive hstored

end

end Tunn

end BoringTun
