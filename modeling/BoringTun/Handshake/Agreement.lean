import BoringTun.Classification
import BoringTun.Crypto.Terms
import BoringTun.Tunn.Written

/-!
Agreement of the two sides of a handshake.

One side initiates, the other authenticates and answers, the first authenticates the
answer. Both then feed the same values to the key schedule (`responseTo_eq_responseOf`),
except that each brings its own pre-shared key; so the answer opens exactly when the
pre-shared keys agree (`noise_agreement`).
-/

namespace BoringTun

variable {P : Primitives}

/-- The packet as it is read off the wire, where a value is as good as its bytes. -/
def HandshakeInit.onWire (packet : HandshakeInit P) : HandshakeInit P where
  senderIdx := packet.senderIdx
  unencryptedEphemeral := P.value (P.encode 32 packet.unencryptedEphemeral)
  encryptedStatic := P.value (P.encode 48 packet.encryptedStatic)
  encryptedTimestamp := P.value (P.encode 28 packet.encryptedTimestamp)

@[inherit_doc HandshakeInit.onWire]
def HandshakeResponse.onWire (packet : HandshakeResponse P) : HandshakeResponse P where
  senderIdx := packet.senderIdx
  receiverIdx := packet.receiverIdx
  unencryptedEphemeral := P.value (P.encode 32 packet.unencryptedEphemeral)
  encryptedNothing := P.value (P.encode 16 packet.encryptedNothing)

namespace Handshake

theorem parseIncomingPacket_initiated (h : Handshake P) (env : Env P) :
    parseIncomingPacket h.obf (h.initiated env).1 = .ok (.handshakeInit
      ((h.initiationOf env.draw env.now).packet (succIndex h.nextIndex)).onWire) := by
  rw [parseIncomingPacket_canonical (h.canonical_initiated env), parseAs]
  obtain ⟨macs, -, heq⟩ := (h.initiating env).appendMac1AndMac2_eq (succIndex h.nextIndex)
    (initiationBody (h.obf.h1Init.random h.rng).1
      ((h.initiationOf env.draw env.now).packet (succIndex h.nextIndex)))
  rw [initiated, heq]
  simp [parseHandshakeInit, HandshakeInit.onWire, initiationBody, slice, List.drop_append,
    List.drop_eq_nil_of_le]

theorem parseIncomingPacket_answeredInit (h : Handshake P) (env : Env P)
    (init : AuthenticatedInit P) (reservedSlot : Nat) :
    parseIncomingPacket h.obf (h.answeredInit env init reservedSlot).1 = .ok (.handshakeResponse
      ((h.responseOf init env.draw).packet (h.responderIndex reservedSlot)
        init.peerIndex).onWire) := by
  rw [parseIncomingPacket_canonical (h.canonical_answeredInit env init reservedSlot), parseAs]
  obtain ⟨macs, -, heq⟩ := (h.answering init reservedSlot).appendMac1AndMac2_eq
    (h.responderIndex reservedSlot) (responseBody (h.obf.h2Resp.random h.rng).1
      ((h.responseOf init env.draw).packet (h.responderIndex reservedSlot) init.peerIndex))
  rw [answeredInit, heq]
  simp [parseHandshakeResponse, HandshakeResponse.onWire, responseBody, slice, List.drop_append,
    List.drop_eq_nil_of_le]

/-- What the responder `B` learns from the initiation `A` formats. -/
def learned (A : Handshake P) (env : Env P) : AuthenticatedInit P where
  chainingKey := (A.initiationOf env.draw env.now).finalChain
  hash := (A.initiationOf env.draw env.now).finalHash
  peerEphemeralPublic := P.publicKey env.draw
  peerIndex := succIndex A.nextIndex
  timestamp := A.stamper.stamp env.now

variable {A B : Handshake P} {envA envB : Env P}

/-- The two handshakes are configured as each other's peer. -/
structure Peers (A B : Handshake P) : Prop where
  knows_responder : A.params.peerStaticPublic = B.params.staticPublic
  knows_initiator : B.params.peerStaticPublic = A.params.staticPublic

theorem Peers.staticShared_eq (peers : Peers A B) (laws : Symbolic P) :
    A.params.staticShared = B.params.staticShared := by
  rw [A.params.shared_eq, B.params.shared_eq, peers.knows_responder, peers.knows_initiator,
    A.params.public_eq, B.params.public_eq]
  exact laws.dh_comm _ _

/-- The responder authenticates a peer's initiation whose timestamp is new to it. -/
theorem authenticateInitiation_initiationOf (laws : Symbolic P) (peers : Peers A B)
    (hnewer : (A.stamper.stamp envA.now).after B.lastHandshakeTimestamp = true) :
    B.authenticateInitiation
        ((A.initiationOf envA.draw envA.now).packet (succIndex A.nextIndex)) =
      .ok (A.learned envA) := by
  have hstamp : Tai64N.parse (A.initiationOf envA.draw envA.now).timestamp =
      A.stamper.stamp envA.now := by
    simp only [Tai64N.parse, initiationOf, laws.parseStamp_stamp]
  rw [authenticateInitiation_packet B laws, hstamp]
  · rfl
  · exact peers.knows_responder
  · simp only [initiationOf, peers.knows_responder, B.params.public_eq]
    exact laws.dh_comm _ _
  · exact peers.knows_initiator.symm
  · exact peers.staticShared_eq laws
  · rw [hstamp]
    exact hnewer

/-- Both sides read the same values from the answer, up to their pre-shared keys. -/
theorem responseTo_eq_responseOf (laws : Symbolic P) (peers : Peers A B) (envA : Env P)
    (ephemeral : P.Secret) :
    A.responseTo (A.sentOf envA) (P.publicKey ephemeral) =
      { B.responseOf (A.learned envA) ephemeral with
        presharedKey := A.params.effectivePresharedKey } := by
  have hee : P.diffieHellman envA.draw (P.publicKey ephemeral) =
      P.diffieHellman ephemeral (P.publicKey envA.draw) := laws.dh_comm _ _
  have hse : P.diffieHellman A.params.staticPrivate (P.publicKey ephemeral) =
      P.diffieHellman ephemeral B.params.peerStaticPublic := by
    rw [peers.knows_initiator, A.params.public_eq]
    exact laws.dh_comm _ _
  simp only [responseTo, responseOf, sentOf, learned, hee, hse]

/-- The pre-shared key can be read off the key that seals the answer. -/
theorem presharedKey_of_key_eq (laws : Symbolic P) {r r' : Response P} (h : r.key = r'.key) :
    r.presharedKey = r'.presharedKey :=
  (laws.b2sHmac_inj (laws.b2sHmac2_inj h).1).2

/-- An answer to the initiation just sent is read against it. -/
theorem authenticateResponse_initiated (now : Nat) (r : Response P) (senderIdx : UInt32) :
    (A.initiated envA).2.authenticateResponse now (r.packet senderIdx (succIndex A.nextIndex)) =
      let own := A.responseTo (A.sentOf envA) r.ephemeral
      match P.aeadOpen own.key 0 r.sealedNothing own.finalHash with
      | none => .error .invalidAeadTag
      | some _ => .ok {
          isPrevious := false
          rttMs := (now - (A.sentOf envA).timeSent) / 10 ^ 6 % 2 ^ 32
          session := .new (succIndex A.nextIndex) senderIdx own.responderKey own.initiatorKey } := by
  have hanswered : (A.initiated envA).2.answered (succIndex A.nextIndex) =
      some (A.sentOf envA, false) := by
    simp [answered, initiated, appendMac1AndMac2, initiating, sentOf]
  simp only [authenticateResponse_spec, Response.packet, hanswered]
  rfl

/-- **Noise agreement.** `A` formats an initiation, `B` authenticates and answers it, and the bytes
of the two are read as what they are. With equal effective pre-shared keys `A` accepts the answer,
the keys pair up and so do the indices; with different ones `A` refuses it, and its initiation is
still in flight. -/
theorem noise_agreement (laws : Symbolic P) (A B : Handshake P) (envA envB : Env P)
    (dstA dstB : Bytes) (reservedSlot now : Nat) (peers : Peers A B)
    (hdstA : HANDSHAKE_INIT_SZ ≤ dstA.length) (hdstB : HANDSHAKE_RESP_SZ ≤ dstB.length)
    (hnewer : (A.stamper.stamp envA.now).after B.lastHandshakeTimestamp = true) :
    ∃ packet bytes A' envA' init answer answerBytes session B' envB',
      A.formatHandshakeInitiation envA dstA = (.ok (packet, bytes), A', envA') ∧
      parseIncomingPacket A.obf bytes = .ok (.handshakeInit packet.onWire) ∧
      B.authenticateInitiation packet = .ok init ∧
      B.commitInitiation init envB dstB reservedSlot =
        (.ok (answer, answerBytes, session), B', envB') ∧
      parseIncomingPacket B.obf answerBytes = .ok (.handshakeResponse answer.onWire) ∧
      (A.params.effectivePresharedKey = B.params.effectivePresharedKey →
        ∃ response, A'.authenticateResponse now answer = .ok response ∧
          response.session.sender = session.receiver ∧
          response.session.receiver = session.sender ∧
          response.session.sendingIndex = session.receivingIndex ∧
          response.session.receivingIndex = session.sendingIndex) ∧
      (A.params.effectivePresharedKey ≠ B.params.effectivePresharedKey →
        A'.authenticateResponse now answer = .error .invalidAeadTag ∧
          A'.state = .initSent (A.sentOf envA) ∧
          (A.sentOf envA).localIndex = packet.senderIdx) := by
  have hlearned := authenticateInitiation_initiationOf laws peers hnewer
  have hsame := responseTo_eq_responseOf laws peers envA envB.draw
  refine ⟨_, _, _, _, _, _, _, _, _, _, A.formatHandshakeInitiation_spec envA dstA hdstA,
    A.parseIncomingPacket_initiated envA, hlearned,
    B.commitInitiation_spec envB dstB (A.learned envA) reservedSlot hdstB,
    B.parseIncomingPacket_answeredInit envB _ reservedSlot, ?_, ?_⟩
  · intro hpsk
    -- both sides run the same schedule, so the answer opens and the keys are its two keys
    rw [hpsk] at hsame
    have hopen : P.aeadOpen (B.responseOf (A.learned envA) envB.draw).key 0
        (B.responseOf (A.learned envA) envB.draw).sealedNothing
        (B.responseOf (A.learned envA) envB.draw).finalHash = some (P.value []) :=
      laws.aeadOpen_seal _ _ _ _
    refine ⟨⟨false, (now - (A.sentOf envA).timeSent) / 10 ^ 6 % 2 ^ 32,
      .new (succIndex A.nextIndex) (B.responderIndex reservedSlot)
        (B.responseOf (A.learned envA) envB.draw).responderKey
        (B.responseOf (A.learned envA) envB.draw).initiatorKey⟩, ?_, rfl, rfl, rfl, rfl⟩
    refine (authenticateResponse_initiated now _ _).trans ?_
    simp only [responseOf] at hsame hopen ⊢
    simp only [hsame, hopen]
  · intro hpsk
    refine ⟨?_, rfl, rfl⟩
    refine (authenticateResponse_initiated now _ _).trans ?_
    cases hopen : P.aeadOpen (A.responseTo (A.sentOf envA) (P.publicKey envB.draw)).key 0
        (B.responseOf (A.learned envA) envB.draw).sealedNothing
        (A.responseTo (A.sentOf envA) (P.publicKey envB.draw)).finalHash with
    | none => simp only [responseOf] at hopen ⊢; simp only [hopen]
    | some _ =>
      -- an answer that opens was sealed under `A`'s own pre-shared key
      have hkey := (laws.aeadOpen_only hopen).1
      exact absurd (presharedKey_of_key_eq laws hkey) hpsk

/-- A handshake over terms with private key `own` whose peer has private key `peer`. -/
def termHandshake (own peer : Nat) (presharedKey : Option Term) : Handshake termPrimitives :=
  .new own (.publicOf peer) 256 presharedKey .default ⟨0, 0⟩ zeroRng

/-- Key pairs 1 and 2 with the same pre-shared key, on one side the explicit zero key. -/
theorem noise_agreement_terms :
    ∃ packet bytes A' envA' init answer answerBytes session B' envB' response,
      (termHandshake 1 2 none).formatHandshakeInitiation (termEnv 5 100) (List.replicate 148 0) =
        (.ok (packet, bytes), A', envA') ∧
      (termHandshake 2 1 (some (.raw (List.replicate 32 0)))).authenticateInitiation packet =
        .ok init ∧
      (termHandshake 2 1 (some (.raw (List.replicate 32 0)))).commitInitiation init
        (termEnv 5 200) (List.replicate 92 0) 0 = (.ok (answer, answerBytes, session), B', envB') ∧
      A'.authenticateResponse 9 answer = .ok response ∧
      response.session.sender = session.receiver := by
  obtain ⟨packet, bytes, A', envA', init, answer, answerBytes, session, B', envB', hA, -, hinit,
    hB, -, hagree, -⟩ := noise_agreement termPrimitives_symbolic (termHandshake 1 2 none)
      (termHandshake 2 1 (some (.raw (List.replicate 32 0)))) (termEnv 5 100) (termEnv 5 200)
      (List.replicate 148 0) (List.replicate 92 0) 0 9 ⟨rfl, rfl⟩
      (by simp [HANDSHAKE_INIT_SZ]) (by simp [HANDSHAKE_RESP_SZ]) (by decide)
  obtain ⟨response, hresponse, hkey, -⟩ := hagree rfl
  exact ⟨packet, bytes, A', envA', init, answer, answerBytes, session, B', envB', response, hA,
    hinit, hB, hresponse, hkey⟩

end Handshake

end BoringTun
