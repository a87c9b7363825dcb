import BoringTun.Tunn.Output

/-!
What a tunnel receives (`noise/mod.rs`): each reading of a datagram is authenticated
without touching the tunnel, and the one that is accepted is committed.

What a refused reading leaves in the output buffer is not modelled; every answer
overwrites the part of the buffer it returns.
-/

namespace BoringTun

def IPV4_MIN_HEADER_SIZE : Nat := 20
def IPV6_MIN_HEADER_SIZE : Nat := 40

namespace Tunn

variable {P : Primitives} (t : Tunn P)

/-! ### Authenticating -/

/-- Authenticate a packet as the kind it parsed as. The answer an accepted handshake
message must be given is checked for room first. -/
def authenticateWithBudget (dst : Bytes) (budget : OutputBudget) (env : Env P) (packet : Packet P) :
    Result (Authenticated P) × Env P :=
  match packet with
  | .handshakeInit p =>
    match Budget.admits (HANDSHAKE_RESP_SZ + t.amnezia.handshakeResponseJunkSize) dst.length
        (budget.controlFor .other) with
    | .error e => (.error e, env)
    | .ok _ => ((t.handshake.authenticateInitiation p).map .handshakeInit, env)
  | .handshakeResponse p =>
    match Budget.admits (Budget.transportFrame 0 t.amnezia.transportJunkSize) dst.length
        budget.transport with
    | .error e => (.error e, env)
    | .ok _ =>
      match t.handshake.authenticateResponse env.now p with
      | .error e => (.error e, env)
      | .ok response => (.ok (.handshakeResponse response), env.tick)
  | .packetCookieReply p => ((t.handshake.authenticateCookieReply p).map .cookieReply, env)
  | .packetData p =>
    match t.sessions (slotOf p.receiverIdx.toNat) with
    | none => (.error .noCurrentSession, env)
    | some session =>
      match session.receivePacketData p dst with
      | .error e => (.error e, env)
      | .ok (plaintext, session) => (.ok (.data p.receiverIdx plaintext session), env)

/-! ### Committing -/

/-- Length and source address an inner packet declares. -/
def innerPacket (packet : Bytes) : Option (Nat × IpAddr) :=
  let version := (packet.headD 0).toNat / 16
  if version = 4 ∧ packet.length ≥ IPV4_MIN_HEADER_SIZE then
    let computedLen := beNat (slice packet 2 4)
    let headerLen := (packet.headD 0).toNat % 16 * 4
    if headerLen < IPV4_MIN_HEADER_SIZE ∨ computedLen < headerLen then none
    else some (computedLen, .v4 (UInt32.ofNat (beNat (slice packet 12 16))))
  else if version = 6 ∧ packet.length ≥ IPV6_MIN_HEADER_SIZE then
    some (beNat (slice packet 4 6) + IPV6_MIN_HEADER_SIZE,
      .v6 (BitVec.ofNat 128 (beNat (slice packet 8 24))))
  else none

/-- A keepalive is empty or starts with a zero byte. -/
def isKeepalive (packet : Bytes) : Bool := packet.headD 0 == 0

/-- Check the inner packet and cut it to the length it declares. -/
def validateDecapsulatedPacket (packet : Bytes) : TunnResult × Tunn P :=
  if isKeepalive packet then (.done, t)
  else
    match innerPacket packet with
    | none => (.err .invalidPacket, t)
    | some (computedLen, srcIpAddress) =>
      if computedLen > packet.length then (.err .invalidPacket, t)
      else
        let t := t.timerTick .timeLastDataPacketReceived
        let t := { t with rxBytes := t.rxBytes + computedLen }
        match srcIpAddress with
        | .v4 addr => (.writeToTunnelV4 (packet.take computedLen) addr, t)
        | .v6 addr => (.writeToTunnelV6 (packet.take computedLen) addr, t)

def commitHandshakeInit (env : Env P) (init : AuthenticatedInit P) (dst : Bytes)
    (budget : OutputBudget) : Result TunnResult × Tunn P × Env P :=
  let ceiling := Budget.ceiling dst.length (budget.controlFor .other)
  -- never in the selected session's slot: the new one is not confirmed yet
  let selectedSlot := t.current % N_SESSIONS
  match t.handshake.commitInitiation init env dst selectedSlot with
  | (.error e, handshake, env) => (.error e, { t with handshake := handshake }, env)
  | (.ok (_, packet, session), handshake, env) =>
    let t := { t with handshake := handshake }
    let t := t.storeSession session
    let t := t.timerTick .timeLastPacketReceived
    let t := t.timerTick .timeLastPacketSent
    let t := t.timerTickSessionEstablished false session.receivingIndex.toNat
    let (result, t) := t.writeHandshakeToNetwork (overwrite dst 0 packet) packet.length ceiling
    (.ok result, t.noteOutput .handshakeResponse result, env)

/-- The session is confirmed to the peer by a keepalive on it. -/
def commitHandshakeResponse (response : AuthenticatedResponse P) (dst : Bytes)
    (budget : OutputBudget) : Result TunnResult × Tunn P :=
  let (session, handshake) := t.handshake.commitResponse response
  let (pad, t) := { t with handshake := handshake }.drawContentPadding 0
    (Budget.ceiling dst.length budget.transport)
  match session.formatPacketData t.handshake.obf t.handshake.rng [] pad dst with
  | .error e => (.error e, t)
  | .ok (packet, session, rng) =>
    let t := (t.withRng rng).storeSession session
    let t := t.timerTick .timeLastPacketReceived
    let t := t.timerTickSessionEstablished true session.receivingIndex.toNat
    let t := t.setCurrentSession session.receivingIndex.toNat
    let t := t.timerTick .timeLastPacketSent
    let (result, t) := t.writeToNetwork (overwrite dst 0 packet) packet.length
    (.ok result, t.noteOutput .transportKeepalive result)

/-- A cookie reply proves nothing about the peer and ticks no other timer. -/
def commitCookieReply (cookie : Bytes) : Result TunnResult × Tunn P :=
  let t := { t with handshake := t.handshake.commitCookie cookie }
  (.ok .done, t.timerTick .timeCookieReceived)

def commitData (receiverIdx : UInt32) (plaintext : Bytes) : Result TunnResult × Tunn P :=
  let t := t.setCurrentSession receiverIdx.toNat
  let t := t.timerTick .timeLastPacketReceived
  let t := t.growWindow (t.amnezia.receivedWindowObservation plaintext.length)
  let (result, t) := t.validateDecapsulatedPacket plaintext
  (.ok result, t)

def inputKind : Authenticated P → OpReport.PacketKind
  | .handshakeInit _ => .handshakeInitiation
  | .handshakeResponse _ => .handshakeResponse
  | .cookieReply _ => .cookieReply
  | .data _ plaintext _ => if isKeepalive plaintext then .transportKeepalive else .transportData

def noteInput (packet : Authenticated P) : Tunn P :=
  { t with opState := t.opState.noteInput (inputKind packet) packet.kind }

/-- Act on a packet that authenticated. The mark in the replay window of a transport
packet's session was the last step of its authentication. -/
def commitWithBudget (env : Env P) (packet : Authenticated P) (dst : Bytes)
    (budget : OutputBudget) : TunnResult × Tunn P × Env P :=
  let t := t.noteInput packet
  let (result, t, env) := match packet with
    | .handshakeInit init => t.commitHandshakeInit env init dst budget
    | .handshakeResponse response =>
      let (result, t) := t.commitHandshakeResponse response dst budget
      (result, t, env)
    | .cookieReply cookie =>
      let (result, t) := t.commitCookieReply cookie
      (result, t, env)
    | .data receiverIdx plaintext session =>
      let (result, t) := (t.putSession (slotOf receiverIdx.toNat) session).commitData receiverIdx
        plaintext
      (result, t, env)
  match result with
  | .ok result => (result, t, env)
  | .error e => (.err e, t, env)

def isHandshakeInit : Authenticated P → Bool
  | .handshakeInit _ => true
  | _ => false

/-- The imitation an initiation teaches an `Auto` tunnel that has not learned one. -/
def learnImitation (packet : Authenticated P) (datagram : Bytes)
    (hint : Option AmneziaImitationProtocol) : AutoImitation :=
  let auto := t.autoImitation
  if t.amnezia.imitation.protocol = .auto ∧ auto.learned.isNone ∧ isHandshakeInit packet then
    match hint <|> (Imitation.detect datagram).map (·.protocol) with
    | none => auto
    | some protocol =>
      if (t.amnezia.resolveImitation protocol).imitation.protocol = protocol ∧
          protocol ≠ .none ∧ protocol ≠ .auto then
        { auto with learned := some protocol }
      else { auto with warned := true }
  else auto

/-- Commit, and learn an imitation only with an initiation that is answered. -/
def commitWithImitationAndBudget (env : Env P) (packet : Authenticated P) (datagram : Bytes)
    (hint : Option AmneziaImitationProtocol) (dst : Bytes) (budget : OutputBudget) :
    TunnResult × Tunn P × Env P :=
  let previous := t.autoImitation.learned
  if t.amnezia.imitation.protocol = .auto ∧ isHandshakeInit packet ∧
      dst.length < HANDSHAKE_RESP_SZ + t.amnezia.responsePacketJunkSize then
    (.err .destinationBufferTooSmall, t, env)
  else
    let t := { t with autoImitation := t.learnImitation packet datagram hint }
    let (result, t, env) := t.commitWithBudget env packet dst budget
    if result.isErr then
      (result, { t with autoImitation := { t.autoImitation with learned := previous } }, env)
    else if previous ≠ t.autoImitation.learned then
      (result, { t with autoImitation := t.autoImitation.clearPending }, env)
    else (result, t, env)

/-! ### Datagrams -/

/-- Frame a cookie reply, unless it is larger than what provoked it. -/
def writeCookieReply (env : Env P) (source : Option IpAddr) (datagram cookie dst : Bytes) :
    TunnResult × Tunn P × Env P :=
  let wireLen := datagram.length
  let packetSize := cookie.length
  if t.amnezia.cookieReplyWouldAmplify packetSize wireLen then (.done, t, env)
  else if dst.length < packetSize then (.err .destinationBufferTooSmall, t, env)
  else
    let (hint, env) := match t.autoImitation.learned with
      | some _ => (none, env)
      | none => (t.autoImitation.hint env.now source, env.tick)
    let protocol := (t.autoImitation.learned <|> hint <|>
      (Imitation.detect datagram).map (·.protocol)).getD .none
    let (result, t) := t.writeToNetworkWithImitation (overwrite dst 0 cookie) packetSize
      (.cookieReply wireLen) protocol
    let result := match result with
      | .writeToNetwork reply => if replyAmplifies wireLen reply.length then .done else result
      | other => other
    (result, t.noteOutput .cookieReply result, env)

/-- Every reading of a datagram, tried in order. -/
def receive (env : Env P) (source : Option Source) (datagram dst : Bytes)
    (budget : OutputBudget) : Inbound (Authenticated P) × RateLimiter P × Env P :=
  Inbound.receive t.amnezia t.handshake.obf source datagram (t.authenticateWithBudget dst budget)
    t.rateLimiter env (t.amnezia.inboundCandidates P t.handshake.obf datagram)

/-- Act on what became of a datagram. -/
def actOn (env : Env P) (srcAddr : Option IpAddr) (datagram dst : Bytes) (budget : OutputBudget) :
    Inbound (Authenticated P) → TunnResult × Tunn P × Env P
  | .accepted packet =>
    let hint := t.autoImitation.hint env.now srcAddr
    t.commitWithImitationAndBudget env.tick packet datagram hint dst budget
  | .notOurs => (.err .invalidPacket, t, env)
  | .refused refusal =>
    if t.amnezia.imitation.protocol = .auto ∧ refusal.allowsImitationHint then
      let (_, auto) := t.autoImitation.observe env.now srcAddr datagram
      (.err refusal.error, { t with autoImitation := auto }, env.tick)
    else (.err refusal.error, t, env)
  | .cookie demand =>
    match t.rateLimiter.formatCookieDemand t.handshake.obf t.handshake.rng demand
        (List.replicate COOKIE_REPLY_SZ 0) with
    | (.error e, limiter, rng) => (.err e, { t.withRng rng with rateLimiter := limiter }, env)
    | (.ok cookie, limiter, rng) =>
      { t.withRng rng with rateLimiter := limiter }.writeCookieReply env srcAddr datagram cookie dst

def decapsulateSource (env : Env P) (source : Option Source) (datagram dst : Bytes)
    (budget : OutputBudget) : TunnResult × Tunn P × Env P :=
  let srcAddr := source.map Source.addr
  if datagram.isEmpty then t.sendQueuedPacket env dst budget
  else
    -- what fits no packet kind may still be camouflage evidence
    let unread := (t.amnezia.inboundCandidates P t.handshake.obf datagram).isEmpty &&
      t.amnezia.imitation.protocol = .auto
    let (seen, auto) := t.autoImitation.observe env.now srcAddr datagram
    if unread && seen then (.done, { t with autoImitation := auto }, env.tick)
    else
      let env := if unread then env.tick else env
      let (outcome, limiter, env) := t.receive env source datagram dst budget
      { t with rateLimiter := limiter }.actOn env srcAddr datagram dst budget outcome

/-- What a datagram is accepted as, if as anything. -/
def accepted (env : Env P) (source : Option Source) (datagram dst : Bytes)
    (budget : OutputBudget) : Option (Authenticated P) :=
  match t.receive env source datagram dst budget with
  | (.accepted packet, _, _) => some packet
  | _ => none

end Tunn

end BoringTun
