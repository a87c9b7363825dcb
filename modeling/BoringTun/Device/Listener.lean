import BoringTun.Device.Hints
import BoringTun.Tunn.Receive

/-!
The device's unconnected socket (`device/mod.rs`): what `register_udp_handler` makes of one
datagram, from its readings to a packet some peer authenticated, or to a cookie reply.

Committing an accepted packet, and answering a datagram that fits no packet kind as a probe,
come after. As in `Tunn.receive`, what a refused reading leaves in the output buffer is not
modelled.
-/

namespace BoringTun

variable (P : Primitives)

/-- The two peer tables share their peers, so they hold references. -/
abbrev PeerRef := Nat

structure Device where
  keyPair : Option (P.Secret × P.Value)
  rateLimiter : Option (RateLimiter P)
  obf : ObfuscationRanges
  amnezia : AmneziaConfig
  imitationHints : Pending
  tunnel : PeerRef → Tunn P
  peers : P.Value → Option PeerRef
  peersByIdx : Nat → Option PeerRef

/-- The output buffer of a worker, its generator for junk, and the system's. -/
structure ThreadData where
  dstBuf : Bytes
  junkRng : Rng
  osRng : Rng

/-- What the listener made of a datagram. -/
inductive Heard where
  /-- Nothing is done about it, or no key is set. -/
  | dropped
  /-- It fits no packet kind: it may be evidence, and is left to the probe responder. -/
  | foreign
  | cookieReply (reply : Bytes)
  | accepted (peer : PeerRef) (packet : Authenticated P)

variable {P}

namespace Device

variable (d : Device P)

/-- The peer an index in the top 24 bits names. -/
def peerOfIndex (receiverIdx : UInt32) : Result PeerRef :=
  match d.peersByIdx (receiverIdx.toNat / 2 ^ 8) with
  | some peer => .ok peer
  | none => .error .wrongIndex

/-- Find the peer a packet names: an initiation by the static key in it, any other kind by
the receiver's index. -/
def namedPeer (privateKey : P.Secret) (publicKey : P.Value) : Packet P → Result PeerRef
  | .handshakeInit p =>
    match (Handshake.parseHandshakeAnon privateKey publicKey p).toOption.bind
        (fun half => d.peers half.peerStaticPublic) with
    | some peer => .ok peer
    | none => .error .wrongKey
  | .handshakeResponse p => d.peerOfIndex p.receiverIdx
  | .packetCookieReply p => d.peerOfIndex p.receiverIdx
  | .packetData p => d.peerOfIndex p.receiverIdx

/-- Have the tunnel of the peer a packet names authenticate it. -/
def authenticateAnonymous (privateKey : P.Secret) (publicKey : P.Value) (dst : Bytes)
    (env : Env P) (packet : Packet P) : Result (PeerRef × Authenticated P) × Env P :=
  match d.namedPeer privateKey publicKey packet with
  | .error e => (.error e, env)
  | .ok peer =>
    let (result, env) := (d.tunnel peer).authenticateWithBudget dst .UNBOUNDED env packet
    (result.map fun packet => (peer, packet), env)

/-- Frame a cookie reply, if the source may be sent one of its length. -/
def frameCookieReply (env : Env P) (worker : ThreadData) (addr : SocketAddr)
    (datagram cookie : Bytes) : Option Bytes × Device P × ThreadData × Env P :=
  match cookieVerdict addr datagram.length (d.amnezia.cookieReplyLen cookie.length) with
  | .refusedSource | .wouldAmplify => (none, d, worker, env)
  | .send =>
    let (cookieConfig, imitationHints, env) :=
      d.imitationHints.cookieConfig env d.amnezia addr datagram
    let (framed, junkRng) := cookieConfig.prependOutboundWithTrailer P d.obf
      (overwrite worker.dstBuf 0 cookie) cookie.length (some (.cookieReply datagram.length))
      worker.junkRng
    (framed.toOption, { d with imitationHints := imitationHints },
      { worker with junkRng := junkRng }, env)

/-- Answer a demand for a cookie. What comes out of the framing is checked again. -/
def answerDemand (limiter : RateLimiter P) (env : Env P) (worker : ThreadData)
    (addr : SocketAddr) (datagram : Bytes) (demand : CookieDemand) :
    Heard P × Device P × ThreadData × Env P :=
  match limiter.formatCookieDemand d.obf worker.osRng demand worker.dstBuf with
  | (.error _, limiter, rng) =>
    (.dropped, { d with rateLimiter := some limiter }, { worker with osRng := rng }, env)
  | (.ok cookie, limiter, rng) =>
    match { d with rateLimiter := some limiter }.frameCookieReply env
        { worker with osRng := rng } addr datagram cookie with
    | (none, d, worker, env) => (.dropped, d, worker, env)
    | (some out, d, worker, env) =>
      if replyAmplifies datagram.length out.length then (.dropped, d, worker, env)
      else (.cookieReply out, d, worker, env)

/-- The readings of a datagram, tried on the peers they name. -/
def receive (keyPair : P.Secret × P.Value) (limiter : RateLimiter P) (env : Env P)
    (worker : ThreadData) (addr : SocketAddr) (datagram : Bytes) :
    Inbound (PeerRef × Authenticated P) × RateLimiter P × Env P :=
  Inbound.receive d.amnezia d.obf (some addr.source) datagram
    (d.authenticateAnonymous keyPair.1 keyPair.2 worker.dstBuf) limiter env
    (d.amnezia.inboundCandidates P d.obf datagram)

/-- One datagram from the unconnected socket. -/
def listen (env : Env P) (worker : ThreadData) (addr : SocketAddr) (datagram : Bytes) :
    Heard P × Device P × ThreadData × Env P :=
  match d.keyPair, d.rateLimiter with
  | some keyPair, some limiter =>
    if (d.amnezia.inboundCandidates P d.obf datagram).isEmpty then
      if d.amnezia.imitation.protocol = .auto then
        let (imitationHints, env) := d.imitationHints.observe env addr datagram
        (.foreign, { d with imitationHints := imitationHints }, worker, env)
      else (.foreign, d, worker, env)
    else
      let (outcome, limiter, env) := d.receive keyPair limiter env worker addr datagram
      let d := { d with rateLimiter := some limiter }
      match outcome with
      | .accepted (peer, packet) => (.accepted peer packet, d, worker, env)
      | .cookie demand => d.answerDemand limiter env worker addr datagram demand
      | .refused refusal =>
        -- every reading failed for a reason that established nothing
        if refusal.allowsImitationHint ∧ d.amnezia.imitation.protocol = .auto then
          let (imitationHints, env) := d.imitationHints.observe env addr datagram
          (.dropped, { d with imitationHints := imitationHints }, worker, env)
        else (.dropped, d, worker, env)
      | .notOurs => (.dropped, d, worker, env)
  | _, _ => (.dropped, d, worker, env)

end Device

end BoringTun
