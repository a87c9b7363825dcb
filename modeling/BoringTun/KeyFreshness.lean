import BoringTun.Handshake.Agreement
import BoringTun.Tunn.OneByte
import BoringTun.Tunn.Simulation

/-!
Sessions are derived from the tunnel's own current keys.

An initiation in flight survives a change of the keys, and its answer is read with the
new ones. It opens only if the responder mixed in the same values, and a responder that
follows the protocol mixes in one static key throughout (`completed_derivedWith`): an
initiation formed under an old key is never completed under a new one.

* `fresh_step`: every step other than a completion keeps the sessions fresh;
* `sessions_fresh`: so does every call, if what opens was sealed by a responder.
-/

namespace BoringTun

open Life

variable {P : Primitives}

/-! ### The schedule determines what was mixed in -/

theorem mixChain_inj (laws : Symbolic P) {chain chain' data data' : P.Value}
    (h : mixChain chain data = mixChain chain' data') : chain = chain' ∧ data = data' :=
  laws.b2sHmac_inj (laws.b2sHmac_inj h).1

/-- Equal keys were drawn from equal values. -/
theorem Response.of_key_eq (laws : Symbolic P) {r r' : Response P} (h : r.key = r'.key) :
    r.chain = r'.chain ∧ r.ephemeral = r'.ephemeral ∧ r.staticEphemeral = r'.staticEphemeral ∧
      r.presharedKey = r'.presharedKey := by
  obtain ⟨hchain₁, hpsk⟩ := laws.b2sHmac_inj (laws.b2sHmac2_inj h).1
  obtain ⟨hchain₂, hse⟩ := mixChain_inj laws hchain₁
  obtain ⟨hchain₃, -⟩ := mixChain_inj laws hchain₂
  obtain ⟨hchain, heph⟩ := mixChain_inj laws hchain₃
  exact ⟨hchain, heph, hse, hpsk⟩

/-- The keys of the session come out of the schedule with the static private key and the
effective pre-shared key of `params` wherever the schedule takes one of its own side. -/
inductive DerivedWith (params : NoiseParams P) (session : Session P) : Prop where
  | initiator (v : Initiation P) (r : Response P)
    (hstatic : v.staticStatic = P.diffieHellman params.staticPrivate params.peerStaticPublic)
    (hchain : r.chain = v.finalChain)
    (hephemeral : r.staticEphemeral = P.diffieHellman params.staticPrivate r.ephemeral)
    (hpsk : r.presharedKey = params.effectivePresharedKey)
    (hsender : session.sender = r.initiatorKey) (hreceiver : session.receiver = r.responderKey)
  | responder (v : Initiation P) (r : Response P)
    (hstatic : v.staticStatic = P.diffieHellman params.staticPrivate params.peerStaticPublic)
    (hchain : r.chain = v.finalChain)
    (hephemeral : v.ephemeralStatic = P.diffieHellman params.staticPrivate v.ephemeral)
    (hpsk : r.presharedKey = params.effectivePresharedKey)
    (hsender : session.sender = r.responderKey) (hreceiver : session.receiver = r.initiatorKey)

/-- Neither the counters nor the replay window enter a derivation. -/
theorem DerivedWith.of_keys_eq {params : NoiseParams P} {session session' : Session P}
    (h : DerivedWith params session) (hsender : session'.sender = session.sender)
    (hreceiver : session'.receiver = session.receiver) : DerivedWith params session' := by
  cases h with
  | initiator v r hstatic hchain hephemeral hpsk hs hr =>
    exact .initiator v r hstatic hchain hephemeral hpsk (hsender.trans hs) (hreceiver.trans hr)
  | responder v r hstatic hchain hephemeral hpsk hs hr =>
    exact .responder v r hstatic hchain hephemeral hpsk (hsender.trans hs) (hreceiver.trans hr)

/-- Nor does a key that stays as it is. -/
theorem DerivedWith.rekey {params params' : NoiseParams P} {session : Session P}
    (h : DerivedWith params session) (hpeer : params'.peerStaticPublic = params.peerStaticPublic)
    (hprivate : params'.staticPrivate = params.staticPrivate)
    (hpsk : params'.effectivePresharedKey = params.effectivePresharedKey) :
    DerivedWith params' session := by
  cases h with
  | initiator v r hstatic hchain hephemeral hr hsender hreceiver =>
    exact .initiator v r (by rw [hstatic, hpeer, hprivate]) hchain (by rw [hephemeral, hprivate])
      (hr.trans hpsk.symm) hsender hreceiver
  | responder v r hstatic hchain hephemeral hr hsender hreceiver =>
    exact .responder v r (by rw [hstatic, hpeer, hprivate]) hchain (by rw [hephemeral, hprivate])
      (hr.trans hpsk.symm) hsender hreceiver

/-- What an initiation in flight was formed from. -/
def FormedFor (peerStaticPublic : P.Value) (sent : HandshakeInitSentState P) : Prop :=
  ∃ v : Initiation P, sent.chainingKey = v.finalChain ∧
    v.ephemeral = P.publicKey sent.ephemeralPrivate ∧
    v.ephemeralStatic = P.diffieHellman sent.ephemeralPrivate peerStaticPublic

/-- The response was sealed by a party that had authenticated an initiation, whatever its
keys. -/
def SealedByResponder (packet : HandshakeResponse P) : Prop :=
  ∃ (responder : Handshake P) (raw : HandshakeInit P) (init : AuthenticatedInit P)
    (ephemeral : P.Secret), responder.authenticateInitiation raw = .ok init ∧
      packet.encryptedNothing = (responder.responseOf init ephemeral).sealedNothing

namespace Handshake

variable {h : Handshake P}

theorem sentOf_formedFor (env : Env P) : FormedFor h.params.peerStaticPublic (h.sentOf env) :=
  ⟨h.initiationOf env.draw env.now, rfl, rfl, rfl⟩

/-- The responder's session is derived with its own keys. -/
theorem responderSession_derivedWith {packet : HandshakeInit P} {init : AuthenticatedInit P}
    (hauth : h.authenticateInitiation packet = .ok init) (ephemeral : P.Secret) (index : UInt32) :
    DerivedWith h.params (responderSession h init ephemeral index) := by
  obtain ⟨hchain, -⟩ := h.authenticateInitiation_ok hauth
  let v : Initiation P :=
    { responderPublic := h.params.staticPublic
      ephemeral := packet.unencryptedEphemeral
      ephemeralStatic := P.diffieHellman h.params.staticPrivate packet.unencryptedEphemeral
      initiatorPublic := h.params.peerStaticPublic
      staticStatic := h.params.staticShared
      timestamp := packet.encryptedTimestamp }
  exact .responder v (h.responseOf init ephemeral) h.params.shared_eq hchain rfl rfl rfl rfl

/-- A responder that reads an initiation alike has the private key it was formed for, and
shares its static secret. -/
theorem staticStatic_of_chain_eq (laws : Symbolic P) {peerStaticPublic : P.Value}
    {v : Initiation P} {sent : HandshakeInitSentState P}
    (hpublic : v.ephemeral = P.publicKey sent.ephemeralPrivate)
    (hstatic : v.ephemeralStatic = P.diffieHellman sent.ephemeralPrivate peerStaticPublic)
    {raw : HandshakeInit P} {init : AuthenticatedInit P}
    (hauth : h.authenticateInitiation raw = .ok init) (hchain : v.finalChain = init.chainingKey) :
    peerStaticPublic = P.publicKey h.params.staticPrivate ∧
      v.staticStatic = P.diffieHellman h.params.staticPrivate h.params.peerStaticPublic := by
  obtain ⟨hread, -⟩ := h.authenticateInitiation_ok hauth
  obtain ⟨hchain₁, hss⟩ := mixChain_inj laws (hchain.trans hread)
  obtain ⟨hchain₀, hes⟩ := mixChain_inj laws hchain₁
  obtain ⟨-, hephemeral⟩ := mixChain_inj laws hchain₀
  constructor
  · refine laws.dh_inj (a := sent.ephemeralPrivate) ?_
    calc P.diffieHellman sent.ephemeralPrivate peerStaticPublic
      _ = P.diffieHellman h.params.staticPrivate v.ephemeral := by rw [← hstatic, hes, hephemeral]
      _ = P.diffieHellman sent.ephemeralPrivate (P.publicKey h.params.staticPrivate) := by
          rw [hpublic, laws.dh_comm]
  · rw [hss, h.params.shared_eq]

/-- An answer that opens was sealed for the initiator's current static key: the initiation
it completes was formed under that key as well. -/
theorem completed_derivedWith (laws : Symbolic P) {now : Nat} {packet : HandshakeResponse P}
    {response : AuthenticatedResponse P}
    (hformed : ∀ sent, h.state = .initSent sent ∨ h.previous = .initSent sent →
      FormedFor h.params.peerStaticPublic sent)
    (hauth : h.authenticateResponse now packet = .ok response)
    (hsealed : SealedByResponder packet) : DerivedWith h.params response.session := by
  obtain ⟨responder, raw, init, ephemeral, hinit, hseal⟩ := hsealed
  obtain ⟨sent, m, -, hslot, hopen, hsession⟩ := authenticateResponse_eq_ok hauth
  have hflight : h.state = .initSent sent ∨ h.previous = .initSent sent := by
    split at hslot
    · exact .inr hslot
    · exact .inl hslot
  rw [hseal] at hopen
  obtain ⟨hchain, heph, hse, hpsk⟩ := Response.of_key_eq laws (laws.aeadOpen_only hopen).1
  obtain ⟨v, hv, hpublic, hstatic⟩ := hformed sent hflight
  obtain ⟨hpeer, hss⟩ := staticStatic_of_chain_eq laws hpublic hstatic hinit (hv.symm.trans hchain)
  have hown : P.publicKey h.params.staticPrivate = responder.params.peerStaticPublic := by
    refine laws.dh_inj (a := ephemeral) ?_
    calc P.diffieHellman ephemeral (P.publicKey h.params.staticPrivate)
      _ = P.diffieHellman h.params.staticPrivate packet.unencryptedEphemeral := by
          rw [laws.dh_comm]
          exact congrArg _ heph.symm
      _ = P.diffieHellman ephemeral responder.params.peerStaticPublic := hse
  rw [hsession]
  refine .initiator v (h.responseTo sent packet.unencryptedEphemeral) ?_ hv rfl rfl rfl rfl
  rw [hss, ← hown, laws.dh_comm, ← hpeer]

end Handshake

/-! ### One step -/

namespace Life

/-- The sessions are derived with the current keys, and what is in flight was formed for
the peer. -/
structure Fresh (l : Life P) : Prop where
  derived : ∀ slot session, l.ring slot = some session → DerivedWith l.params session
  formed : ∀ sent, l.state = .initSent sent ∨ l.previous = .initSent sent →
    FormedFor l.params.peerStaticPublic sent

theorem IsBlank.fresh {l : Life P} (h : l.IsBlank) : l.Fresh where
  derived slot session hstored := by
    rw [h.ring] at hstored
    cases hstored
  formed sent hsent := by
    rw [h.state, h.previous] at hsent
    rcases hsent with hsent | hsent <;> cases hsent

theorem Fresh.select {l : Life P} (h : l.Fresh) (index : Nat) : (l.select index).Fresh := by
  rw [select_eq]
  exact ⟨h.derived, h.formed⟩

theorem Fresh.store {l : Life P} (h : l.Fresh) {session : Session P}
    (hderived : DerivedWith l.params session) : (l.store session).Fresh where
  derived slot session' hstored := by
    rw [ring_store] at hstored
    split at hstored
    · cases hstored
      exact hderived
    · exact h.derived slot session' hstored
  formed := h.formed

theorem Fresh.put {l : Life P} (h : l.Fresh) {slot : Fin N_SESSIONS} {session session' : Session P}
    (hstored : l.ring slot = some session) (hsender : session'.sender = session.sender)
    (hreceiver : session'.receiver = session.receiver) : (l.put slot session').Fresh where
  derived other used hused := by
    rw [ring_put] at hused
    split at hused
    · cases hused
      exact (h.derived slot session hstored).of_keys_eq hsender hreceiver
    · exact h.derived other used hused
  formed := h.formed

theorem Fresh.retire {l : Life P} (h : l.Fresh) (isPrevious : Bool) :
    (l.retire isPrevious).Fresh := by
  cases isPrevious with
  | true =>
    refine ⟨h.derived, ?_⟩
    rintro sent (hsent | hsent)
    · exact h.formed sent (.inl hsent)
    · cases hsent
  | false =>
    refine ⟨h.derived, ?_⟩
    rintro sent (hsent | hsent)
    · cases hsent
    · exact h.formed sent (.inr hsent)

/-- Every step but a completion keeps the sessions fresh. -/
theorem fresh_step {label : Label} {l l' : Life P} (hstep : Step label l l')
    (hlabel : ∀ slot, label ≠ .complete slot) (h : l.Fresh) : l'.Fresh := by
  cases hstep with
  | age old =>
    refine ⟨fun slot session hstored => ?_, h.formed⟩
    dsimp only at hstored
    split at hstored
    · cases hstored
    · exact h.derived slot session hstored
  | expire hnow =>
    refine ⟨nofun, ?_⟩
    rintro sent (hsent | hsent) <;> cases hsent
  | @initiate _ handshake env hosts =>
    refine ⟨h.derived, ?_⟩
    rintro sent (hsent | hsent)
    · cases hsent
      rw [← hosts.params]
      exact Handshake.sentOf_formedFor env
    · exact h.formed sent (.inl hsent)
  | send hselected hnonce => exact h.put hselected rfl rfl
  | @respond _ handshake packet init ephemeral index hosts hauth hslot =>
    have hderived := Handshake.responderSession_derivedWith hauth ephemeral index
    rw [hosts.params] at hderived
    have haside : ({ l with previous := l.state, state := .none } : Life P).Fresh := by
      refine ⟨h.derived, ?_⟩
      rintro sent (hsent | hsent)
      · cases hsent
      · exact h.formed sent (.inl hsent)
    exact haside.store hderived
  | complete hosts hauth hsession => exact absurd rfl (hlabel _)
  | receive hstored =>
    apply Fresh.select
    exact h.put hstored rfl rfl
  | rekey keep hpeer hkeep =>
    cases keep with
    | true =>
      obtain ⟨hprivate, hpsk⟩ := hkeep rfl
      refine ⟨fun slot session hstored => ?_, fun sent hsent => ?_⟩
      · exact (h.derived slot session hstored).rekey hpeer hprivate hpsk
      · exact hpeer ▸ h.formed sent hsent
    | false => exact ⟨nofun, fun sent hsent => hpeer ▸ h.formed sent hsent⟩
  | _ => exact ⟨h.derived, h.formed⟩

/-- A completion keeps them fresh if a responder sealed the answer. -/
theorem Fresh.complete (laws : Symbolic P) {l : Life P} (h : l.Fresh) {handshake : Handshake P}
    (hosts : l.Hosts handshake) {now : Nat} {packet : HandshakeResponse P}
    {response : AuthenticatedResponse P}
    (hauth : handshake.authenticateResponse now packet = .ok response)
    (hsealed : SealedByResponder packet) :
    (((l.retire response.isPrevious).store response.session.advanced).select
      response.session.receivingIndex.toNat).Fresh := by
  have hderived : DerivedWith handshake.params response.session := by
    refine Handshake.completed_derivedWith laws ?_ hauth hsealed
    intro sent hsent
    rw [hosts.state, hosts.previous] at hsent
    exact hosts.params ▸ h.formed sent hsent
  have hparams : (l.retire response.isPrevious).params = handshake.params := by
    rw [hosts.params]
    cases response.isPrevious <;> rfl
  refine Fresh.select (Fresh.store (h.retire _) ?_) _
  rw [hparams]
  exact hderived.of_keys_eq rfl rfl

end Life

/-! ### Whole runs -/

namespace Tunn

variable {t : Tunn P}

/-- The responses that open in what a call receives were sealed by a responder. -/
def Answered (t : Tunn P) : Op P → Prop
  | .decapsulate _ datagram _ _ =>
    ∀ candidate ∈ t.amnezia.inboundCandidates P t.handshake.obf datagram, ∀ message packet,
      Inbound.reading t.amnezia t.handshake.obf datagram candidate =
          .ok (message, .handshakeResponse packet) →
        ∀ now response, t.handshake.authenticateResponse now packet = .ok response →
          SealedByResponder packet
  | _ => True

/-- An accepted response is one a reading of the datagram holds. -/
theorem accepted_response {env : Env P} {source : Option Source} {datagram dst : Bytes}
    {budget : OutputBudget} {response : AuthenticatedResponse P}
    (h : t.accepted env source datagram dst budget = some (.handshakeResponse response)) :
    ∃ candidate ∈ t.amnezia.inboundCandidates P t.handshake.obf datagram, ∃ message packet now,
      Inbound.reading t.amnezia t.handshake.obf datagram candidate =
          .ok (message, .handshakeResponse packet) ∧
        t.handshake.authenticateResponse now packet = .ok response := by
  unfold accepted at h
  split at h
  · next value limiter env' hreceive =>
    cases h
    obtain ⟨candidate, hmem, message, packet, env₀, hread, htrial⟩ :=
      Inbound.receive_accepted hreceive
    obtain ⟨raw, now, rfl, hauth⟩ := (authenticateWithBudget_genuine htrial).2 _ rfl
    exact ⟨candidate, hmem, message, raw, now, hread, hauth⟩
  · cases h

theorem after_fresh (laws : Symbolic P) (hset : t.life.Settled) (h : t.life.Fresh) (env : Env P)
    {op : Op P} (hanswered : t.Answered op) : (t.after env op).life.Fresh := by
  have hsteps {l l' : Life P} (hfresh : l.Fresh) (hrun : Steps Step Label.Silent l l') : l'.Fresh :=
    hrun.invariant (fun label l l' hsilent hstep => fresh_step hstep (by
      rintro slot rfl
      exact hsilent)) hfresh
  have htransition := after_transition hset env op
  generalize (t.after env op).life = l at htransition
  cases htransition with
  | serve hevent hserves => exact hsteps h hserves.silent
  | poll hserves =>
    obtain ⟨ticked, htick, hage⟩ := beginPoll_steps (t := t) env
    exact hsteps h (((Steps.single htick trivial).tail hage trivial).trans hserves.silent)
  | @commit source datagram dst budget packet ephemeral hne haccepted hgen =>
    have hstep := committed_step hgen ephemeral
    cases packet with
    | handshakeInit init | data receiverIdx plaintext session => exact fresh_step hstep nofun h
    | handshakeResponse response =>
      obtain ⟨candidate, hmem, message, raw, now, hread, hauth⟩ := accepted_response haccepted
      exact h.complete laws t.life_hosts hauth (hanswered candidate hmem message raw hread _ _ hauth)
    | cookieReply cookie => exact h
  | presharedKey => exact fresh_step (setPresharedKey_step _) nofun h
  | staticPrivate => exact fresh_step (setStaticPrivate_step _ _ _) nofun h

/-- A tunnel some calls after a constructor returned it, in a network where responders
follow the protocol. -/
def HonestlyAnswered (t : Tunn P) : Prop :=
  Reachable IsNew (fun t t' => ∃ env op, t.Answered op ∧ t' = t.after env op) t

end Tunn

/-- Every session in the ring is derived with the current static private key and the
current effective pre-shared key, and setting an equal one removes none. -/
theorem sessions_fresh (laws : Symbolic P) {t : Tunn P} (h : t.HonestlyAnswered) :
    (∀ slot session, t.sessions slot = some session → DerivedWith t.handshake.params session) ∧
    ∀ presharedKey, t.handshake.params.effectivePresharedKey =
        { t.handshake.params with presharedKey := presharedKey }.effectivePresharedKey →
      (t.setPresharedKey presharedKey).sessions = t.sessions := by
  constructor
  · have hinv : t.life.Settled ∧ t.life.Fresh := by
      refine Reachable.invariant h (fun t => t.life.Settled ∧ t.life.Fresh) ?_ ?_
      · intro t hnew
        exact ⟨hnew.blank.settled, hnew.blank.fresh⟩
      · rintro t _ ⟨env, op, hanswered, rfl⟩ ⟨hset, hfresh⟩
        exact ⟨Tunn.after_invariant (fun _ _ _ => settled_step) hset hset env op,
          Tunn.after_fresh laws hset hfresh env hanswered⟩
    exact hinv.2.derived
  · intro presharedKey hsame
    have hlife := Tunn.setPresharedKey_life (t := t) presharedKey
    rw [if_pos hsame] at hlife
    exact congrArg Life.ring hlife

/-! ### A handshake over terms -/

/-- The initiation of key 1 to key 2 under ephemeral 100. -/
def namedInitiation : Initiation termPrimitives :=
  (Handshake.termHandshake 1 2 none).initiationOf (100 : Nat) (10 ^ 9)

/-- The answer of key 2 under ephemeral 200. -/
def namedResponse : Response termPrimitives :=
  (Handshake.termHandshake 2 1 none).responseOf
    { chainingKey := namedInitiation.finalChain
      hash := namedInitiation.finalHash
      peerEphemeralPublic := namedInitiation.ephemeral
      peerIndex := 1
      timestamp := .zero } (200 : Nat)

/-- What the two put on the wire. -/
def handshakeNames : List Term :=
  [namedInitiation.ephemeral, namedInitiation.sealedStatic, namedInitiation.sealedTimestamp,
    namedResponse.ephemeral, namedResponse.sealedNothing]

def handshakePrimitives : Primitives := namedPrimitives handshakeNames

def namedEnv (secret : Nat) : Env handshakePrimitives where
  clock _ := 10 ^ 9
  entropy _ := secret

def namedSeed : TunnSeed handshakePrimitives where
  stamper := ⟨0, 0⟩
  handshakeRng := .ok zeroRng
  timeStarted := 0
  jitterRng := zeroRng
  limiter :=
    { nonceKey := Term.raw [], secretKey := Term.raw [], startTime := 0, lastReset := 0
      sources := fun _ => 0, proven := fun _ => 0 }

/-- A pre-shared key that has the effect of none. -/
def zeroKey : Option handshakePrimitives.Value := some (Term.raw (List.replicate 32 0))

def namedTunn (own peer : Nat) (index : UInt32)
    (presharedKey : Option handshakePrimitives.Value) : Tunn handshakePrimitives :=
  (Tunn.newWithObfuscation (P := handshakePrimitives) own (Term.publicOf peer) presharedKey none
    index none .default {} namedSeed).toOption.get rfl

def namedHome : Tunn handshakePrimitives := namedTunn 1 2 1 none

/-- The write that starts the handshake. -/
def namedWrite : TunnResult × Tunn handshakePrimitives :=
  namedHome.run (namedEnv 100) (.encapsulate [69] byteBuffer .UNBOUNDED)

/-- The peer's answer to it. -/
def namedAnswer : Bytes :=
  ((namedTunn 2 1 2 zeroKey).run (namedEnv 200)
    (.decapsulate none namedWrite.1.datagram byteBuffer .UNBOUNDED)).1.datagram

/-- The pre-shared key is set while the initiation is in flight. -/
def namedRekeyed : Tunn handshakePrimitives :=
  namedWrite.2.after (namedEnv 300) (.setPresharedKey zeroKey)

def namedCompleted : Tunn handshakePrimitives :=
  namedRekeyed.after (namedEnv 300) (.decapsulate none namedAnswer byteBuffer .UNBOUNDED)

/-- The initiation as the peer reads it. -/
def namedRaw : HandshakeInit handshakePrimitives where
  senderIdx := 257
  unencryptedEphemeral := namedInitiation.ephemeral
  encryptedStatic := namedInitiation.sealedStatic
  encryptedTimestamp := namedInitiation.sealedTimestamp

/-- What the peer seals. -/
def namedNothing : handshakePrimitives.Value := namedResponse.sealedNothing

/-- The peer seals its answer as a responder does. -/
theorem namedNothing_sealed (packet : HandshakeResponse handshakePrimitives)
    (h : packet.encryptedNothing = namedNothing) : SealedByResponder packet := by
  have hcheck : (match (namedTunn 2 1 2 zeroKey).handshake.authenticateInitiation namedRaw with
      | .ok init => decide (namedNothing =
          ((namedTunn 2 1 2 zeroKey).handshake.responseOf init (200 : Nat)).sealedNothing)
      | .error _ => false) = true := by
    decide +kernel
  split at hcheck
  · next init hinit =>
    exact ⟨_, namedRaw, init, (200 : Nat), hinit, h.trans (of_decide_eq_true hcheck)⟩
  · cases hcheck

theorem namedAnswer_answered :
    namedRekeyed.Answered (.decapsulate none namedAnswer byteBuffer .UNBOUNDED) := by
  have hcheck : ((namedRekeyed.amnezia.inboundCandidates handshakePrimitives
      namedRekeyed.handshake.obf namedAnswer).all fun candidate =>
        match Inbound.reading (P := handshakePrimitives) namedRekeyed.amnezia
            namedRekeyed.handshake.obf namedAnswer candidate with
        | .ok (_, .handshakeResponse packet) =>
          decide (packet.encryptedNothing = namedNothing)
        | _ => true) = true := by
    decide +kernel
  intro candidate hmem message packet hread now response hauth
  have hsealed := List.all_eq_true.mp hcheck candidate hmem
  rw [hread] at hsealed
  exact namedNothing_sealed packet (of_decide_eq_true hsealed)

theorem namedCompleted_honestlyAnswered : namedCompleted.HonestlyAnswered := by
  have hnew : namedHome.HonestlyAnswered :=
    Reachable.base ⟨(1 : Nat), Term.publicOf 2, none, none, 1, none, .default, {}, namedSeed, rfl⟩
  have hwritten : namedWrite.2.HonestlyAnswered :=
    hnew.step ⟨namedEnv 100, .encapsulate [69] byteBuffer .UNBOUNDED, trivial, rfl⟩
  have hrekeyed : namedRekeyed.HonestlyAnswered :=
    hwritten.step ⟨namedEnv 300, .setPresharedKey zeroKey, trivial, rfl⟩
  exact hrekeyed.step ⟨namedEnv 300, _, namedAnswer_answered, rfl⟩

/-- The initiation completes across a change of the pre-shared key that has no effect. -/
theorem sessions_fresh_named : ∃ session, namedCompleted.selected = some session ∧
    DerivedWith namedCompleted.handshake.params session := by
  have hsome : namedCompleted.selected.isSome = true := by decide +kernel
  obtain ⟨session, hsession⟩ := Option.isSome_iff_exists.mp hsome
  have laws : Symbolic handshakePrimitives := namedPrimitives_symbolic handshakeNames
  have hfresh := (sessions_fresh laws namedCompleted_honestlyAnswered).1
  exact ⟨session, hsession, hfresh (slotOf namedCompleted.current) session hsession⟩

end BoringTun
