import BoringTun.Session.Transport

/-!
The Noise handshake (`Handshake` in `noise/handshake.rs`).

The four transcripts, initiation and response on each side, are written out value
by value in the order of the source. Authenticating a message is a function of the
handshake that returns what it learned; committing it is what moves the state. A
function that writes a message returns it both as its fields and as its bytes.
-/

namespace BoringTun

def N_SESSIONS : Nat := 8

/-- A TAI64N timestamp. -/
structure Tai64N where
  secs : Nat
  nano : Nat
  deriving DecidableEq

namespace Tai64N

def zero : Tai64N := ⟨0, 0⟩

def after (a b : Tai64N) : Bool :=
  a.secs > b.secs || (a.secs == b.secs && a.nano > b.nano)

def parse {P : Primitives} (v : P.Value) : Tai64N := ⟨(P.parseStamp v).1, (P.parseStamp v).2⟩

end Tai64N

/-- Timestamps from a wall-clock reading at the start and the monotonic clock. Both
are in nanoseconds. -/
structure TimeStamper where
  durationAtStart : Nat
  instantAtStart : Nat

namespace TimeStamper

def TAI64_BASE : Nat := 2 ^ 62 + 37

/-- The timestamp at clock reading `now`. -/
def stamp (stamper : TimeStamper) (now : Nat) : Tai64N :=
  let elapsed := now - stamper.instantAtStart + stamper.durationAtStart
  ⟨elapsed / 10 ^ 9 + TAI64_BASE, elapsed % 10 ^ 9⟩

end TimeStamper

variable (P : Primitives)

/-- The keys of a handshake. Public key, shared secret and mac1 key are those of the
private key and the peer's public key. -/
structure NoiseParams where
  staticPublic : P.Value
  staticPrivate : P.Secret
  peerStaticPublic : P.Value
  staticShared : P.Value
  sendingMac1Key : P.Value
  presharedKey : Option P.Value
  public_eq : staticPublic = P.publicKey staticPrivate
  shared_eq : staticShared = P.diffieHellman staticPrivate peerStaticPublic
  mac1_eq : sendingMac1Key = P.b2sHash (P.value (ascii "mac1----")) peerStaticPublic

structure HandshakeInitSentState where
  localIndex : UInt32
  hash : P.Value
  chainingKey : P.Value
  ephemeralPrivate : P.Secret
  timeSent : Nat

inductive HandshakeState where
  /-- No handshake in process. -/
  | none
  /-- We initiated the handshake. -/
  | initSent (s : HandshakeInitSentState P)
  /-- Handshake initiated by peer. -/
  | initReceived (hash chainingKey peerEphemeralPublic : P.Value) (peerIndex : UInt32)
  /-- Handshake was established too long ago. -/
  | expired

structure Cookies where
  lastMac1 : Option Bytes := Option.none
  index : UInt32 := 0
  writeCookie : Option Bytes := Option.none

structure Handshake where
  params : NoiseParams P
  nextIndex : UInt32
  /-- A second initiation in flight, for a delayed response. -/
  previous : HandshakeState P
  state : HandshakeState P
  cookies : Cookies
  lastHandshakeTimestamp : Tai64N
  stamper : TimeStamper
  lastRtt : Option Nat
  obf : ObfuscationRanges
  rng : Rng

/-- An initiation that has authenticated but not yet been accepted. -/
structure AuthenticatedInit where
  chainingKey : P.Value
  hash : P.Value
  peerEphemeralPublic : P.Value
  peerIndex : UInt32
  timestamp : Tai64N

/-- A response that has authenticated but not yet been accepted. -/
structure AuthenticatedResponse where
  isPrevious : Bool
  rttMs : Nat
  session : Session P

/-- Who an initiation claims to be from. -/
structure HalfHandshake where
  peerIndex : UInt32
  peerStaticPublic : P.Value

variable {P}

namespace NoiseParams

def new (staticPrivate : P.Secret) (peerStaticPublic : P.Value) (presharedKey : Option P.Value) :
    NoiseParams P where
  staticPublic := P.publicKey staticPrivate
  staticPrivate := staticPrivate
  peerStaticPublic := peerStaticPublic
  staticShared := P.diffieHellman staticPrivate peerStaticPublic
  sendingMac1Key := P.b2sHash (P.value (ascii "mac1----")) peerStaticPublic
  presharedKey := presharedKey
  public_eq := rfl
  shared_eq := rfl
  mac1_eq := rfl

/-- The public key the caller passes is asserted to be that of the private key. -/
def setStaticPrivate (params : NoiseParams P) (staticPrivate : P.Secret) : NoiseParams P :=
  { params with
    staticPrivate := staticPrivate
    staticPublic := P.publicKey staticPrivate
    staticShared := P.diffieHellman staticPrivate params.peerStaticPublic
    public_eq := rfl
    shared_eq := rfl }

/-- `preshared_key.unwrap_or([0u8; 32])`. -/
def effectivePresharedKey (params : NoiseParams P) : P.Value :=
  params.presharedKey.getD (P.value (List.replicate 32 0))

end NoiseParams

def INITIAL_CHAIN_KEY (P : Primitives) : P.Value := P.value
  [96, 226, 109, 174, 243, 39, 239, 192, 46, 195, 53, 226, 160, 37, 210, 208, 22, 235, 66, 6, 248,
    114, 119, 245, 45, 56, 209, 152, 139, 120, 205, 54]

def INITIAL_CHAIN_HASH (P : Primitives) : P.Value := P.value
  [34, 17, 179, 97, 8, 26, 197, 102, 105, 18, 67, 219, 69, 138, 213, 50, 45, 156, 108, 102, 34,
    147, 232, 183, 14, 225, 156, 101, 186, 7, 158, 243]

namespace Handshake

/-- A new handshake, its clock readings and seed taken by the caller. -/
def new (staticPrivate : P.Secret) (peerStaticPublic : P.Value) (globalIdx : UInt32)
    (presharedKey : Option P.Value) (obf : ObfuscationRanges) (stamper : TimeStamper) (rng : Rng) :
    Handshake P where
  params := .new staticPrivate peerStaticPublic presharedKey
  nextIndex := globalIdx
  previous := .none
  state := .none
  cookies := {}
  lastHandshakeTimestamp := .zero
  stamper := stamper
  lastRtt := none
  obf := obf
  rng := rng

def isInProgress (h : Handshake P) : Bool :=
  match h.state with
  | .none | .expired => false
  | _ => true

def timer (h : Handshake P) : Option Nat :=
  match h.state with
  | .initSent s => some s.timeSent
  | _ => none

def setExpired (h : Handshake P) : Handshake P :=
  { h with previous := .expired, state := .expired }

def isExpired (h : Handshake P) : Bool :=
  match h.state with
  | .expired => true
  | _ => false

def hasCookie (h : Handshake P) : Bool := h.cookies.writeCookie.isSome

def clearCookie (h : Handshake P) : Handshake P :=
  { h with cookies := { h.cookies with writeCookie := none } }

/-- The low byte advances cyclically, the peer's 24 bits stay. -/
def succIndex (index : UInt32) : UInt32 :=
  UInt32.ofNat (index.toNat / 256 * 256 + (index.toNat % 256 + 1) % 256)

def incIndex (h : Handshake P) : UInt32 × Handshake P :=
  (succIndex h.nextIndex, { h with nextIndex := succIndex h.nextIndex })

/-- `inc_index`, skipping the one value whose ring slot is `reservedSlot`. -/
def incIndexAvoiding (h : Handshake P) (reservedSlot : Nat) : UInt32 × Handshake P :=
  let (index, h) := h.incIndex
  if index.toNat % N_SESSIONS = reservedSlot then h.incIndex else (index, h)

def setStaticPrivate (h : Handshake P) (privateKey : P.Secret) : Handshake P :=
  { h with params := h.params.setStaticPrivate privateKey }

def setObfuscation (h : Handshake P) (obf : ObfuscationRanges) : Handshake P :=
  { h with obf := obf }

def setPresharedKey (h : Handshake P) (presharedKey : Option P.Value) : Handshake P :=
  { h with params := { h.params with presharedKey := presharedKey } }

/-! ### Authenticating -/

/-- Read the static key an initiation names, with no peer known yet. -/
def parseHandshakeAnon (staticPrivate : P.Secret) (staticPublic : P.Value)
    (packet : HandshakeInit P) : Result (HalfHandshake P) :=
  let peerIndex := packet.senderIdx
  let chainingKey := INITIAL_CHAIN_KEY P
  let hash := INITIAL_CHAIN_HASH P
  let hash := P.b2sHash hash staticPublic
  let peerEphemeralPublic := packet.unencryptedEphemeral
  let hash := P.b2sHash hash peerEphemeralPublic
  let chainingKey := P.b2sHmac (P.b2sHmac chainingKey peerEphemeralPublic) (P.value [1])
  let ephemeralShared := P.diffieHellman staticPrivate peerEphemeralPublic
  let temp := P.b2sHmac chainingKey ephemeralShared
  let chainingKey := P.b2sHmac temp (P.value [1])
  let key := P.b2sHmac2 temp chainingKey (P.value [2])
  match P.aeadOpen key 0 packet.encryptedStatic hash with
  | none => .error .invalidAeadTag
  | some peerStaticPublic => .ok { peerIndex, peerStaticPublic }

/-- Authenticate an initiation without accepting it. -/
def authenticateInitiation (h : Handshake P) (packet : HandshakeInit P) :
    Result (AuthenticatedInit P) :=
  let chainingKey := INITIAL_CHAIN_KEY P
  let hash := INITIAL_CHAIN_HASH P
  let hash := P.b2sHash hash h.params.staticPublic
  let peerIndex := packet.senderIdx
  let peerEphemeralPublic := packet.unencryptedEphemeral
  let hash := P.b2sHash hash peerEphemeralPublic
  let chainingKey := P.b2sHmac (P.b2sHmac chainingKey peerEphemeralPublic) (P.value [1])
  let ephemeralShared := P.diffieHellman h.params.staticPrivate peerEphemeralPublic
  let temp := P.b2sHmac chainingKey ephemeralShared
  let chainingKey := P.b2sHmac temp (P.value [1])
  let key := P.b2sHmac2 temp chainingKey (P.value [2])
  match P.aeadOpen key 0 packet.encryptedStatic hash with
  | none => .error .invalidAeadTag
  | some peerStaticPublicDecrypted =>
    if h.params.peerStaticPublic ≠ peerStaticPublicDecrypted then .error .wrongKey
    else
      let hash := P.b2sHash hash packet.encryptedStatic
      let temp := P.b2sHmac chainingKey h.params.staticShared
      let chainingKey := P.b2sHmac temp (P.value [1])
      let key := P.b2sHmac2 temp chainingKey (P.value [2])
      match P.aeadOpen key 0 packet.encryptedTimestamp hash with
      | none => .error .invalidAeadTag
      | some timestamp =>
        let timestamp := Tai64N.parse timestamp
        -- possibly a replay
        if !timestamp.after h.lastHandshakeTimestamp then .error .wrongTai64nTimestamp
        else
          let hash := P.b2sHash hash packet.encryptedTimestamp
          .ok { chainingKey, hash, peerEphemeralPublic, peerIndex, timestamp }

/-- The initiation in flight a response answers: `state` first, then `previous`. -/
def answered (h : Handshake P) (receiverIdx : UInt32) : Option (HandshakeInitSentState P × Bool) :=
  let inPrevious := match h.previous with
    | .initSent s => if s.localIndex = receiverIdx then some (s, true) else none
    | _ => none
  match h.state with
  | .initSent s => if s.localIndex = receiverIdx then some (s, false) else inPrevious
  | _ => inPrevious

/-- Authenticate a response without consuming the initiation it answers; `now` is the
clock reading for the round-trip time. -/
def authenticateResponse (h : Handshake P) (now : Nat) (packet : HandshakeResponse P) :
    Result (AuthenticatedResponse P) :=
  match h.answered packet.receiverIdx with
  | none => .error .unexpectedPacket
  | some (state, isPrevious) =>
    let peerIndex := packet.senderIdx
    let localIndex := state.localIndex
    let unencryptedEphemeral := packet.unencryptedEphemeral
    let hash := P.b2sHash state.hash unencryptedEphemeral
    let temp := P.b2sHmac state.chainingKey unencryptedEphemeral
    let chainingKey := P.b2sHmac temp (P.value [1])
    let ephemeralShared := P.diffieHellman state.ephemeralPrivate unencryptedEphemeral
    let temp := P.b2sHmac chainingKey ephemeralShared
    let chainingKey := P.b2sHmac temp (P.value [1])
    let temp := P.b2sHmac chainingKey
      (P.diffieHellman h.params.staticPrivate unencryptedEphemeral)
    let chainingKey := P.b2sHmac temp (P.value [1])
    let temp := P.b2sHmac chainingKey h.params.effectivePresharedKey
    let chainingKey := P.b2sHmac temp (P.value [1])
    let temp2 := P.b2sHmac2 temp chainingKey (P.value [2])
    let key := P.b2sHmac2 temp temp2 (P.value [3])
    let hash := P.b2sHash hash temp2
    match P.aeadOpen key 0 packet.encryptedNothing hash with
    | none => .error .invalidAeadTag
    | some _ =>
      let temp1 := P.b2sHmac chainingKey (P.value [])
      let temp2 := P.b2sHmac temp1 (P.value [1])
      let temp3 := P.b2sHmac2 temp1 temp2 (P.value [2])
      .ok {
        isPrevious
        rttMs := (now - state.timeSent) / 10 ^ 6 % 2 ^ 32
        session := .new localIndex peerIndex temp3 temp2 }

/-- Decrypt a cookie reply without storing the cookie. -/
def authenticateCookieReply (h : Handshake P) (packet : PacketCookieReply) : Result Bytes :=
  match h.cookies.lastMac1 with
  | none => .error .unexpectedPacket
  | some mac1 =>
    if packet.receiverIdx ≠ h.cookies.index then .error .wrongIndex
    else
      let key := P.b2sHash (P.value (ascii "cookie--")) h.params.peerStaticPublic
      match P.xOpen key packet.nonce packet.encryptedCookie mac1 with
      | none => .error .invalidAeadTag
      | some plaintext =>
        if plaintext.length = 16 then .ok plaintext else .error .invalidPacket

/-! ### Accepting -/

/-- Accept an authenticated response: retire the initiation it answered. -/
def commitResponse (h : Handshake P) (response : AuthenticatedResponse P) :
    Session P × Handshake P :=
  let h := { h with lastRtt := some response.rttMs }
  (response.session,
    if response.isPrevious then { h with previous := .none } else { h with state := .none })

/-- Store a cookie; the mac1 it answered is spent with it. -/
def commitCookie (h : Handshake P) (cookie : Bytes) : Handshake P :=
  { h with cookies := { h.cookies with writeCookie := some cookie, lastMac1 := none } }

/-- Append mac1 and mac2 to the body of a handshake message. -/
def appendMac1AndMac2 (h : Handshake P) (localIndex : UInt32) (body : Bytes) :
    Bytes × Handshake P :=
  let mac1 := P.b2sKeyedMac16 h.params.sendingMac1Key body
  let mac2 := match h.cookies.writeCookie with
    | some cookie => P.b2sKeyedMac16 (P.value cookie) (body ++ mac1)
    | none => List.replicate 16 0
  (body ++ mac1 ++ mac2,
    { h with cookies := { h.cookies with index := localIndex, lastMac1 := some mac1 } })

/-- The initiation's fields before the MACs, in wire order. -/
def initiationBody (tag : Nat) (packet : HandshakeInit P) : Bytes :=
  leBytes 4 tag ++ leBytes 4 packet.senderIdx.toNat ++
    P.encode 32 packet.unencryptedEphemeral ++ P.encode 48 packet.encryptedStatic ++
    P.encode 28 packet.encryptedTimestamp

/-- The response's fields before the MACs, in wire order. -/
def responseBody (tag : Nat) (packet : HandshakeResponse P) : Bytes :=
  leBytes 4 tag ++ leBytes 4 packet.senderIdx.toNat ++ leBytes 4 packet.receiverIdx.toNat ++
    P.encode 32 packet.unencryptedEphemeral ++ P.encode 16 packet.encryptedNothing

/-- Write an initiation into `dst`: its fields and its bytes. -/
def formatHandshakeInitiation (h : Handshake P) (env : Env P) (dst : Bytes) :
    Result (HandshakeInit P × Bytes) × Handshake P × Env P :=
  if dst.length < HANDSHAKE_INIT_SZ then (.error .destinationBufferTooSmall, h, env)
  else
    let (localIndex, h) := h.incIndex
    let chainingKey := INITIAL_CHAIN_KEY P
    let hash := INITIAL_CHAIN_HASH P
    let hash := P.b2sHash hash h.params.peerStaticPublic
    let ephemeralPrivate := env.draw
    let env := env.drawn
    let (tag, rng) := h.obf.h1Init.random h.rng
    let unencryptedEphemeral := P.publicKey ephemeralPrivate
    let hash := P.b2sHash hash unencryptedEphemeral
    let chainingKey := P.b2sHmac (P.b2sHmac chainingKey unencryptedEphemeral) (P.value [1])
    let ephemeralShared := P.diffieHellman ephemeralPrivate h.params.peerStaticPublic
    let temp := P.b2sHmac chainingKey ephemeralShared
    let chainingKey := P.b2sHmac temp (P.value [1])
    let key := P.b2sHmac2 temp chainingKey (P.value [2])
    let encryptedStatic := P.aeadSeal key 0 h.params.staticPublic hash
    let hash := P.b2sHash hash encryptedStatic
    let temp := P.b2sHmac chainingKey h.params.staticShared
    let chainingKey := P.b2sHmac temp (P.value [1])
    let key := P.b2sHmac2 temp chainingKey (P.value [2])
    let timestamp := h.stamper.stamp env.now
    let env := env.tick
    let encryptedTimestamp := P.aeadSeal key 0 (P.stampValue (timestamp.secs, timestamp.nano)) hash
    let hash := P.b2sHash hash encryptedTimestamp
    let timeNow := env.now
    let env := env.tick
    let packet : HandshakeInit P :=
      { senderIdx := localIndex, unencryptedEphemeral, encryptedStatic, encryptedTimestamp }
    let sent : HandshakeInitSentState P :=
      { localIndex, hash, chainingKey, ephemeralPrivate, timeSent := timeNow }
    let h := { h with rng := rng, previous := h.state, state := .initSent sent }
    let (bytes, h) := h.appendMac1AndMac2 localIndex (initiationBody tag packet)
    (.ok (packet, bytes), h, env)

/-- Answer the initiation in `state`: the response's fields and bytes, and the new
session. `none` is the source's panic on any other state. -/
def formatHandshakeResponse (h : Handshake P) (env : Env P) (dst : Bytes) (reservedSlot : Nat) :
    Option (Result (HandshakeResponse P × Bytes × Session P) × Handshake P × Env P) :=
  if dst.length < HANDSHAKE_RESP_SZ then some (.error .destinationBufferTooSmall, h, env)
  else
    match h.state with
    | .initReceived hash chainingKey peerEphemeralPublic peerIndex =>
      let h := { h with state := .none }
      let ephemeralPrivate := env.draw
      let env := env.drawn
      let (localIndex, h) := h.incIndexAvoiding reservedSlot
      let (tag, rng) := h.obf.h2Resp.random h.rng
      let unencryptedEphemeral := P.publicKey ephemeralPrivate
      let hash := P.b2sHash hash unencryptedEphemeral
      let temp := P.b2sHmac chainingKey unencryptedEphemeral
      let chainingKey := P.b2sHmac temp (P.value [1])
      let ephemeralShared := P.diffieHellman ephemeralPrivate peerEphemeralPublic
      let temp := P.b2sHmac chainingKey ephemeralShared
      let chainingKey := P.b2sHmac temp (P.value [1])
      let temp := P.b2sHmac chainingKey
        (P.diffieHellman ephemeralPrivate h.params.peerStaticPublic)
      let chainingKey := P.b2sHmac temp (P.value [1])
      let temp := P.b2sHmac chainingKey h.params.effectivePresharedKey
      let chainingKey := P.b2sHmac temp (P.value [1])
      let temp2 := P.b2sHmac2 temp chainingKey (P.value [2])
      let key := P.b2sHmac2 temp temp2 (P.value [3])
      let hash := P.b2sHash hash temp2
      let encryptedNothing := P.aeadSeal key 0 (P.value []) hash
      let temp1 := P.b2sHmac chainingKey (P.value [])
      let temp2 := P.b2sHmac temp1 (P.value [1])
      let temp3 := P.b2sHmac2 temp1 temp2 (P.value [2])
      let packet : HandshakeResponse P :=
        { senderIdx := localIndex, receiverIdx := peerIndex, unencryptedEphemeral,
          encryptedNothing }
      let h := { h with rng := rng }
      let (bytes, h) := h.appendMac1AndMac2 localIndex (responseBody tag packet)
      some (.ok (packet, bytes, .new localIndex peerIndex temp2 temp3), h, env)
    | _ => none

/-- The handshake between the two halves of an acceptance: the timestamp is recorded,
the state holds the initiation to answer. -/
def receiveInitiation (h : Handshake P) (init : AuthenticatedInit P) : Handshake P :=
  { h with
    lastHandshakeTimestamp := init.timestamp
    previous := h.state
    state := .initReceived init.hash init.chainingKey init.peerEphemeralPublic init.peerIndex }

/-- The panic of the formatter cannot be reached from an acceptance. -/
theorem formatHandshakeResponse_isSome (h : Handshake P) (init : AuthenticatedInit P)
    (env : Env P) (dst : Bytes) (reservedSlot : Nat) :
    ((h.receiveInitiation init).formatHandshakeResponse env dst reservedSlot).isSome := by
  unfold formatHandshakeResponse
  split <;> rfl

/-- Accept an authenticated initiation and answer it, with a responder session whose
index is never in ring slot `reservedSlot`. -/
def commitInitiation (h : Handshake P) (init : AuthenticatedInit P) (env : Env P) (dst : Bytes)
    (reservedSlot : Nat) :
    Result (HandshakeResponse P × Bytes × Session P) × Handshake P × Env P :=
  ((h.receiveInitiation init).formatHandshakeResponse env dst reservedSlot).get
    (formatHandshakeResponse_isSome h init env dst reservedSlot)

end Handshake

end BoringTun
