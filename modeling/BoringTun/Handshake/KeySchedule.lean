import BoringTun.Handshake

/-!
The key schedule of the handshake, apart from who computes it.

`Initiation` and `Response` collect the values a handshake message binds and say
what hash, chaining key and ciphertexts follow from them. Each of the four
transcripts of the source is then one statement: which values it feeds to the
schedule.

* `formatHandshakeInitiation_spec`, `commitInitiation_spec`: what the two sides
  write, and the state they are left in;
* `authenticateInitiation_packet`, `authenticateResponse_spec`: what they open.
-/

namespace BoringTun

variable {P : Primitives}

/-- The chaining key after mixing in `data`. -/
def mixChain (chain data : P.Value) : P.Value :=
  P.b2sHmac (P.b2sHmac chain data) (P.value [1])

/-- The AEAD key drawn when `data` is mixed in. -/
def mixKey (chain data : P.Value) : P.Value :=
  P.b2sHmac2 (P.b2sHmac chain data) (mixChain chain data) (P.value [2])

/-- The values an initiation binds: the responder's public key, the ephemeral, the two
shared secrets, the initiator's public key and the timestamp. -/
structure Initiation (P : Primitives) where
  responderPublic : P.Value
  ephemeral : P.Value
  ephemeralStatic : P.Value
  initiatorPublic : P.Value
  staticStatic : P.Value
  timestamp : P.Value

namespace Initiation

variable (v : Initiation P)

def hash₀ : P.Value := P.b2sHash (P.b2sHash (INITIAL_CHAIN_HASH P) v.responderPublic) v.ephemeral
def chain₀ : P.Value := mixChain (INITIAL_CHAIN_KEY P) v.ephemeral
def sealedStatic : P.Value :=
  P.aeadSeal (mixKey v.chain₀ v.ephemeralStatic) 0 v.initiatorPublic v.hash₀
def hash₁ : P.Value := P.b2sHash v.hash₀ v.sealedStatic
def chain₁ : P.Value := mixChain v.chain₀ v.ephemeralStatic
def sealedTimestamp : P.Value :=
  P.aeadSeal (mixKey v.chain₁ v.staticStatic) 0 v.timestamp v.hash₁

/-- The transcript hash after the initiation. -/
def finalHash : P.Value := P.b2sHash v.hash₁ v.sealedTimestamp
/-- The chaining key after the initiation. -/
def finalChain : P.Value := mixChain v.chain₁ v.staticStatic

/-- The message that carries these values. -/
def packet (senderIdx : UInt32) : HandshakeInit P where
  senderIdx := senderIdx
  unencryptedEphemeral := v.ephemeral
  encryptedStatic := v.sealedStatic
  encryptedTimestamp := v.sealedTimestamp

end Initiation

/-- The values a response binds on top of an initiation's hash and chaining key. -/
structure Response (P : Primitives) where
  hash : P.Value
  chain : P.Value
  ephemeral : P.Value
  ephemeralEphemeral : P.Value
  staticEphemeral : P.Value
  presharedKey : P.Value

namespace Response

variable (r : Response P)

def chain₁ : P.Value :=
  mixChain (mixChain (mixChain r.chain r.ephemeral) r.ephemeralEphemeral) r.staticEphemeral
def temp : P.Value := P.b2sHmac r.chain₁ r.presharedKey
def temp₂ : P.Value := mixKey r.chain₁ r.presharedKey
def key : P.Value := P.b2sHmac2 r.temp r.temp₂ (P.value [3])
def finalHash : P.Value := P.b2sHash (P.b2sHash r.hash r.ephemeral) r.temp₂
def sealedNothing : P.Value := P.aeadSeal r.key 0 (P.value []) r.finalHash
/-- The chaining key the transport keys are drawn from. -/
def finalChain : P.Value := mixChain r.chain₁ r.presharedKey

/-- The key the initiator sends with. -/
def initiatorKey : P.Value := P.b2sHmac (P.b2sHmac r.finalChain (P.value [])) (P.value [1])
/-- The key the responder sends with. -/
def responderKey : P.Value :=
  P.b2sHmac2 (P.b2sHmac r.finalChain (P.value [])) r.initiatorKey (P.value [2])

def packet (senderIdx receiverIdx : UInt32) : HandshakeResponse P where
  senderIdx := senderIdx
  receiverIdx := receiverIdx
  unencryptedEphemeral := r.ephemeral
  encryptedNothing := r.sealedNothing

end Response

namespace Handshake

/-- The values `h` binds when it initiates with `ephemeral` at clock reading `now`. -/
def initiationOf (h : Handshake P) (ephemeral : P.Secret) (now : Nat) : Initiation P where
  responderPublic := h.params.peerStaticPublic
  ephemeral := P.publicKey ephemeral
  ephemeralStatic := P.diffieHellman ephemeral h.params.peerStaticPublic
  initiatorPublic := h.params.staticPublic
  staticStatic := h.params.staticShared
  timestamp := P.stampValue ((h.stamper.stamp now).secs, (h.stamper.stamp now).nano)

/-- The values `h` binds when it answers `init` with `ephemeral`. -/
def responseOf (h : Handshake P) (init : AuthenticatedInit P) (ephemeral : P.Secret) :
    Response P where
  hash := init.hash
  chain := init.chainingKey
  ephemeral := P.publicKey ephemeral
  ephemeralEphemeral := P.diffieHellman ephemeral init.peerEphemeralPublic
  staticEphemeral := P.diffieHellman ephemeral h.params.peerStaticPublic
  presharedKey := h.params.effectivePresharedKey

/-- The values `h` reads from a response with `ephemeral` to its initiation `sent`. -/
def responseTo (h : Handshake P) (sent : HandshakeInitSentState P) (ephemeral : P.Value) :
    Response P where
  hash := sent.hash
  chain := sent.chainingKey
  ephemeral := ephemeral
  ephemeralEphemeral := P.diffieHellman sent.ephemeralPrivate ephemeral
  staticEphemeral := P.diffieHellman h.params.staticPrivate ephemeral
  presharedKey := h.params.effectivePresharedKey

variable (h : Handshake P) (env : Env P) (dst : Bytes)

/-- The state an initiation leaves in flight. -/
def sentOf : HandshakeInitSentState P where
  localIndex := succIndex h.nextIndex
  hash := (h.initiationOf env.draw env.now).finalHash
  chainingKey := (h.initiationOf env.draw env.now).finalChain
  ephemeralPrivate := env.draw
  timeSent := env.tick.now

/-- The handshake once the initiation is in flight, before its MACs are appended. -/
def initiating : Handshake P :=
  { h with
    nextIndex := succIndex h.nextIndex
    rng := (h.obf.h1Init.random h.rng).2
    previous := h.state
    state := .initSent (h.sentOf env) }

/-- The bytes of the initiation, and the handshake that has sent it. -/
def initiated : Bytes × Handshake P :=
  (h.initiating env).appendMac1AndMac2 (succIndex h.nextIndex)
    (initiationBody (h.obf.h1Init.random h.rng).1
      ((h.initiationOf env.draw env.now).packet (succIndex h.nextIndex)))

theorem formatHandshakeInitiation_spec (hdst : HANDSHAKE_INIT_SZ ≤ dst.length) :
    h.formatHandshakeInitiation env dst =
      (.ok ((h.initiationOf env.draw env.now).packet (succIndex h.nextIndex),
        (h.initiated env).1), (h.initiated env).2, env.drawn.tick.tick) := by
  unfold formatHandshakeInitiation
  rw [if_neg (Nat.not_lt.mpr hdst)]
  rfl

variable (init : AuthenticatedInit P) (reservedSlot : Nat)

/-- The index after `index` that is not in ring slot `reservedSlot`. -/
def succIndexAvoiding (index : UInt32) (reservedSlot : Nat) : UInt32 :=
  if (succIndex index).toNat % N_SESSIONS = reservedSlot then succIndex (succIndex index)
  else succIndex index

theorem succIndex_slot (index : UInt32) :
    (succIndex index).toNat % N_SESSIONS = (index.toNat + 1) % N_SESSIONS := by
  have hlt := index.toNat_lt
  rw [succIndex, UInt32.toNat_ofNat', N_SESSIONS]
  omega

/-- The skip is enough: two indices in a row are never in one slot. -/
theorem succIndexAvoiding_slot (index : UInt32) (reservedSlot : Nat) :
    (succIndexAvoiding index reservedSlot).toNat % N_SESSIONS ≠ reservedSlot := by
  unfold succIndexAvoiding
  split
  · next hslot =>
    rw [succIndex_slot] at hslot ⊢
    have hnext := succIndex_slot index
    rw [N_SESSIONS] at *
    omega
  · next hslot => exact hslot

/-- The index of the responder session. -/
def responderIndex : UInt32 := succIndexAvoiding h.nextIndex reservedSlot

/-- The handshake once the answer is written, before its MACs are appended. -/
def answering : Handshake P :=
  { h with
    nextIndex := h.responderIndex reservedSlot
    rng := (h.obf.h2Resp.random h.rng).2
    lastHandshakeTimestamp := init.timestamp
    previous := h.state
    state := .none }

/-- The bytes of the response, and the handshake that has sent it. -/
def answeredInit : Bytes × Handshake P :=
  (h.answering init reservedSlot).appendMac1AndMac2 (h.responderIndex reservedSlot)
    (responseBody (h.obf.h2Resp.random h.rng).1
      ((h.responseOf init env.draw).packet (h.responderIndex reservedSlot) init.peerIndex))

theorem incIndexAvoiding_eq : h.incIndexAvoiding reservedSlot =
    (h.responderIndex reservedSlot, { h with nextIndex := h.responderIndex reservedSlot }) := by
  by_cases hslot : (succIndex h.nextIndex).toNat % N_SESSIONS = reservedSlot
  · simp [responderIndex, succIndexAvoiding, incIndexAvoiding, incIndex, hslot]
  · simp [responderIndex, succIndexAvoiding, incIndexAvoiding, incIndex, hslot]

/-- With room for it, the answer is written: the timestamp is recorded, `state` moves to
`previous` and is left empty. -/
theorem commitInitiation_spec (hdst : HANDSHAKE_RESP_SZ ≤ dst.length) :
    h.commitInitiation init env dst reservedSlot =
      (.ok ((h.responseOf init env.draw).packet (h.responderIndex reservedSlot) init.peerIndex,
          (h.answeredInit env init reservedSlot).1,
          .new (h.responderIndex reservedSlot) init.peerIndex
            (h.responseOf init env.draw).initiatorKey (h.responseOf init env.draw).responderKey),
        (h.answeredInit env init reservedSlot).2, env.drawn) := by
  apply Option.get_of_eq_some
  unfold formatHandshakeResponse
  rw [if_neg (Nat.not_lt.mpr hdst)]
  simp only [receiveInitiation, incIndexAvoiding_eq]
  rfl

/-- Without room the initiation is accepted and left unanswered. -/
theorem commitInitiation_tooSmall (hdst : dst.length < HANDSHAKE_RESP_SZ) :
    h.commitInitiation init env dst reservedSlot =
      (.error .destinationBufferTooSmall, h.receiveInitiation init, env) := by
  apply Option.get_of_eq_some
  unfold formatHandshakeResponse
  rw [if_pos hdst]

/-- The response a handshake opens is the one its own schedule predicts. -/
theorem authenticateResponse_spec (now : Nat) (packet : HandshakeResponse P) :
    h.authenticateResponse now packet =
      match h.answered packet.receiverIdx with
      | none => .error .unexpectedPacket
      | some (sent, isPrevious) =>
        let r := h.responseTo sent packet.unencryptedEphemeral
        match P.aeadOpen r.key 0 packet.encryptedNothing r.finalHash with
        | none => .error .invalidAeadTag
        | some _ => .ok {
            isPrevious
            rttMs := (now - sent.timeSent) / 10 ^ 6 % 2 ^ 32
            session := .new sent.localIndex packet.senderIdx r.responderKey r.initiatorKey } := by
  rfl

variable {h} in
/-- A response that opens completes the initiation in the slot it names, with the session of
its own schedule. -/
theorem authenticateResponse_eq_ok {now : Nat} {packet : HandshakeResponse P}
    {response : AuthenticatedResponse P}
    (hauth : h.authenticateResponse now packet = .ok response) :
    ∃ sent nothing, sent.localIndex = packet.receiverIdx ∧
      (if response.isPrevious then h.previous else h.state) = .initSent sent ∧
      let r := h.responseTo sent packet.unencryptedEphemeral
      P.aeadOpen r.key 0 packet.encryptedNothing r.finalHash = some nothing ∧
        response.session =
          .new sent.localIndex packet.senderIdx r.responderKey r.initiatorKey := by
  rw [authenticateResponse_spec] at hauth
  split at hauth
  · cases hauth
  · next sent isPrevious hanswered =>
    dsimp only at hauth
    split at hauth
    · cases hauth
    · next nothing hopen =>
      cases hauth
      unfold answered at hanswered
      exact ⟨sent, nothing, by grind, by grind, hopen, rfl⟩

/-- The transcript hash when the first ciphertext of an initiation is opened. -/
def openingHash (ephemeral : P.Value) : P.Value :=
  P.b2sHash (P.b2sHash (INITIAL_CHAIN_HASH P) h.params.staticPublic) ephemeral

/-- The chaining key once the two secrets shared with the initiator are mixed in. -/
def openingChain (ephemeral : P.Value) : P.Value :=
  mixChain (mixChain (INITIAL_CHAIN_KEY P) ephemeral)
    (P.diffieHellman h.params.staticPrivate ephemeral)

theorem authenticateInitiation_spec (packet : HandshakeInit P) :
    h.authenticateInitiation packet =
      let e := packet.unencryptedEphemeral
      let hash := P.b2sHash (h.openingHash e) packet.encryptedStatic
      match P.aeadOpen (mixKey (mixChain (INITIAL_CHAIN_KEY P) e)
          (P.diffieHellman h.params.staticPrivate e)) 0 packet.encryptedStatic
          (h.openingHash e) with
      | none => .error .invalidAeadTag
      | some peerStaticPublic =>
        if h.params.peerStaticPublic ≠ peerStaticPublic then .error .wrongKey
        else
          match P.aeadOpen (mixKey (h.openingChain e) h.params.staticShared) 0
              packet.encryptedTimestamp hash with
          | none => .error .invalidAeadTag
          | some timestamp =>
            if !(Tai64N.parse timestamp).after h.lastHandshakeTimestamp then
              .error .wrongTai64nTimestamp
            else .ok {
              chainingKey := mixChain (h.openingChain e) h.params.staticShared
              hash := P.b2sHash hash packet.encryptedTimestamp
              peerEphemeralPublic := e
              peerIndex := packet.senderIdx
              timestamp := Tai64N.parse timestamp } := by
  rfl

/-- An initiation whose values the responder shares, and whose timestamp is newer than
the last one, authenticates. -/
theorem authenticateInitiation_packet (laws : Symbolic P) (v : Initiation P) (idx : UInt32)
    (hresponder : v.responderPublic = h.params.staticPublic)
    (heph : v.ephemeralStatic = P.diffieHellman h.params.staticPrivate v.ephemeral)
    (hinitiator : v.initiatorPublic = h.params.peerStaticPublic)
    (hstatic : v.staticStatic = h.params.staticShared)
    (hnewer : (Tai64N.parse v.timestamp).after h.lastHandshakeTimestamp = true) :
    h.authenticateInitiation (v.packet idx) =
      .ok {
        chainingKey := v.finalChain
        hash := v.finalHash
        peerEphemeralPublic := v.ephemeral
        peerIndex := idx
        timestamp := Tai64N.parse v.timestamp } := by
  have hhash : h.openingHash v.ephemeral = v.hash₀ := by
    rw [openingHash, ← hresponder, Initiation.hash₀]
  have hchain : h.openingChain v.ephemeral = v.chain₁ := by
    rw [openingChain, ← heph, Initiation.chain₁, Initiation.chain₀]
  have hopen₀ : P.aeadOpen (mixKey (mixChain (INITIAL_CHAIN_KEY P) v.ephemeral) v.ephemeralStatic)
      0 v.sealedStatic v.hash₀ = some v.initiatorPublic := laws.aeadOpen_seal _ _ _ _
  have hopen₁ : P.aeadOpen (mixKey v.chain₁ v.staticStatic) 0 v.sealedTimestamp
      (P.b2sHash v.hash₀ v.sealedStatic) = some v.timestamp := laws.aeadOpen_seal _ _ _ _
  simp only [authenticateInitiation_spec, Initiation.packet, hhash, hchain, ← heph, ← hstatic,
    hopen₀, hopen₁, hinitiator, ne_eq, not_true_eq_false, ↓reduceIte, hnewer, Bool.not_true,
    Bool.false_eq_true]
  rfl

/-- What an authenticated initiation tells, whoever sent it. -/
theorem authenticateInitiation_ok {packet : HandshakeInit P} {init : AuthenticatedInit P}
    (hok : h.authenticateInitiation packet = .ok init) :
    init.chainingKey = mixChain (h.openingChain packet.unencryptedEphemeral) h.params.staticShared ∧
      init.peerEphemeralPublic = packet.unencryptedEphemeral ∧
      init.peerIndex = packet.senderIdx ∧
      init.timestamp.after h.lastHandshakeTimestamp = true := by
  rw [authenticateInitiation_spec] at hok
  dsimp only at hok
  split at hok
  · cases hok
  split at hok
  · cases hok
  split at hok
  · cases hok
  split at hok
  · cases hok
  · next hnewer =>
    cases hok
    exact ⟨rfl, rfl, rfl, by simpa using hnewer⟩

end Handshake

end BoringTun
