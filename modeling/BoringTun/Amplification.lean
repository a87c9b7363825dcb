import BoringTun.Ceilings
import BoringTun.Device.Listener

/-!
Cookie replies are not amplified: a reply goes to an address nothing has authenticated, and
is never longer than the datagram that asked for it. There are two places that emit one, a
tunnel's `decapsulate` and the device's unconnected socket.

Both first check the length without a trailer, draw the trailer within what that leaves, and
check again what came out. `Frames` is a reply as it is before the second check, which
`cookie_replies_never_amplify` shows to be idle.
-/

namespace BoringTun

open AmneziaConfig

variable {P : Primitives}

namespace Tunn

/-- A reply the tunnel frames for a datagram that was asked for a cookie, before it checks
its length again. -/
def Frames (t : Tunn P) (datagram reply : Bytes) : Prop :=
  ∃ env source dst budget demand limiter env' cookie limiter' rng protocol,
    t.receive env source datagram dst budget = (.cookie demand, limiter, env') ∧
    limiter.formatCookieDemand t.handshake.obf t.handshake.rng demand
      (List.replicate COOKIE_REPLY_SZ 0) = (.ok cookie, limiter', rng) ∧
    t.amnezia.cookieReplyWouldAmplify cookie.length datagram.length = false ∧
    cookie.length ≤ dst.length ∧
    (({ t with rateLimiter := limiter' }.withRng rng).writeToNetworkWithImitation
      (overwrite dst 0 cookie) cookie.length (.cookieReply datagram.length) protocol).1 =
        .writeToNetwork reply

theorem Frames.length_le {t : Tunn P} {datagram reply : Bytes} (h : t.Frames datagram reply) :
    reply.length ≤ datagram.length := by
  obtain ⟨_, _, _, _, demand, limiter, _, cookie, limiter', rng, _, hreceive, hformat, hcheck,
    hdst, hwrite⟩ := h
  have hcookie := Inbound.receive_cookie (congrArg Prod.fst hreceive)
  have hcanon := RateLimiter.canonical_formatCookieDemand hcookie hformat
  exact writeToNetworkWithImitation_cookieReply
    (t := { t with rateLimiter := limiter' }.withRng rng) hcanon hcheck hdst hwrite

end Tunn

namespace Device

@[inherit_doc Tunn.Frames]
def Frames (d : Device P) (datagram reply : Bytes) : Prop :=
  ∃ keyPair limiter₀ env worker addr demand limiter env' cookie limiter' rng,
    d.receive keyPair limiter₀ env worker addr datagram = (.cookie demand, limiter, env') ∧
    limiter.formatCookieDemand d.obf worker.osRng demand worker.dstBuf =
      (.ok cookie, limiter', rng) ∧
    ({ d with rateLimiter := some limiter' }.frameCookieReply env' { worker with osRng := rng }
      addr datagram cookie).1 = some reply

/-- A framed reply is within what the first check left. -/
theorem frameCookieReply_length {d : Device P} {env : Env P} {worker : ThreadData}
    {addr : SocketAddr} {datagram cookie reply : Bytes}
    (hcanon : Canonical d.obf .cookieReply cookie)
    (h : (d.frameCookieReply env worker addr datagram cookie).1 = some reply) :
    reply.length ≤ datagram.length := by
  unfold frameCookieReply at h
  split at h
  · cases h
  · cases h
  · next hverdict =>
    obtain ⟨-, hbase⟩ := cookieVerdict_eq_send.mp hverdict
    have hjunk := d.imitationHints.cookieConfig_outboundJunkSize env d.amnezia addr datagram
      .cookieReply
    dsimp only at h
    generalize hframed : (prependOutboundWithTrailer P _ _ _ _ _ _).1 = framed at h
    cases framed with
    | error e => cases h
    | ok wire =>
      cases h
      obtain ⟨-, -, hmax, -⟩ := length_prependOutboundWithTrailer _ _ hcanon
        (Tunn.take_overwrite worker.dstBuf cookie) hframed
      rw [← outboundJunkSize, hjunk] at hmax
      exact Nat.le_trans hmax (max_le hbase (Nat.min_le_right _ _))

theorem Frames.length_le {d : Device P} {datagram reply : Bytes} (h : d.Frames datagram reply) :
    reply.length ≤ datagram.length := by
  obtain ⟨_, _, _, worker, _, demand, _, _, cookie, limiter', rng, hreceive, hformat, hframe⟩ := h
  have hcookie := Inbound.receive_cookie (congrArg Prod.fst hreceive)
  have hcanon := RateLimiter.canonical_formatCookieDemand hcookie hformat
  exact frameCookieReply_length (d := { d with rateLimiter := some limiter' }) hcanon hframe

/-- What the listener emits was framed for a demand. -/
theorem listen_cookieReply {d : Device P} {env : Env P} {worker : ThreadData}
    {addr : SocketAddr} {datagram reply : Bytes}
    (h : (d.listen env worker addr datagram).1 = .cookieReply reply) :
    d.Frames datagram reply := by
  unfold listen at h
  split at h
  · next keyPair limiter _ _ =>
    split at h
    · dsimp only at h
      split at h
      · cases h
      · cases h
    · dsimp only at h
      rcases hreceive : d.receive keyPair limiter env worker addr datagram with
        ⟨outcome, limiter', env'⟩
      rw [hreceive] at h
      cases outcome with
      | cookie demand =>
        unfold answerDemand at h
        dsimp only at h
        split at h
        · cases h
        · next cookie limiter'' rng hformat =>
          split at h
          · cases h
          · next out _ _ _ hframe =>
            split at h
            · cases h
            · cases h
              exact ⟨keyPair, limiter, env, worker, addr, demand, limiter', env', cookie, limiter'',
                rng, hreceive, hformat, congrArg Prod.fst hframe⟩
      | accepted value => cases h
      | notOurs => cases h
      | refused refusal =>
        dsimp only at h
        split at h
        · cases h
        · cases h
  · cases h

end Device

/-- **Cookie replies never amplify.** What a tunnel or the device's unconnected socket sends
as a cookie reply is no longer than the datagram it answers, and no reply they frame is
stopped by the second check of its length. -/
theorem cookie_replies_never_amplify (datagram reply : Bytes) :
    (∀ t : Tunn P, t.Visited → ∀ env source dst budget,
      (t.decapsulateSource env source datagram dst budget).1 = .writeToNetwork reply →
      (t.decapsulateSource env source datagram dst budget).2.1.opState.outputKind =
        .cookieReply → reply.length ≤ datagram.length) ∧
    (∀ (d : Device P) (env : Env P) (worker : ThreadData) (addr : SocketAddr),
      (d.listen env worker addr datagram).1 = .cookieReply reply →
      reply.length ≤ datagram.length) ∧
    (∀ t : Tunn P, t.Frames datagram reply →
      replyAmplifies datagram.length reply.length = false) ∧
    (∀ d : Device P, d.Frames datagram reply →
      replyAmplifies datagram.length reply.length = false) := by
  have hidle (hle : reply.length ≤ datagram.length) :
      replyAmplifies datagram.length reply.length = false := by
    simpa [replyAmplifies] using hle
  refine ⟨?_, ?_, fun t h => hidle h.length_le, fun d h => hidle h.length_le⟩
  · intro t hvisited env source dst budget hwrite hkind
    have hsends := Tunn.decapsulateSource_sends hvisited.sized env source datagram dst budget
    exact (if_pos hkind).mp (hsends.fits reply hwrite)
  · intro d env worker addr hsent
    exact (Device.listen_cookieReply hsent).length_le

/-- Random trailers, and prefixes for the initiation and the cookie reply. -/
def trailerConfig : AmneziaConfig :=
  { initPacketJunkSize := 30, cookiePacketJunkSize := 20, randomTrailers := true }

/-- The generator whose words are all 1001. -/
def steadyRng : Rng where
  words _ := 1001
  pos := 0
  gap _ := 0
  fair _ := ⟨0, Nat.le_refl 0, by decide⟩

/-- A limiter that asks every message for a cookie. -/
def strictLimiter : RateLimiter bytePrimitives :=
  .new (P := bytePrimitives) (3 : UInt8) 0
    { nonceKey := (8 : UInt8), secretKey := (9 : UInt8), startTime := 0, lastReset := 0
      sources := fun _ => 0, proven := fun _ => 0 }

def steadySeed : TunnSeed bytePrimitives := { byteSeed with handshakeRng := .ok steadyRng }

def trailerTunn (staticPrivate peerStaticPublic : UInt8)
    (limiter : Option (RateLimiter bytePrimitives)) : Tunn bytePrimitives :=
  (Tunn.newWithObfuscation (P := bytePrimitives) staticPrivate peerStaticPublic none none 1 limiter
    .default trailerConfig steadySeed).toOption.get rfl

def strictTunn : Tunn bytePrimitives := trailerTunn 1 6 (some strictLimiter)

def strictDevice : Device bytePrimitives where
  keyPair := some ((1 : UInt8), (3 : UInt8))
  rateLimiter := some strictLimiter
  obf := .default
  amnezia := trailerConfig
  imitationHints := .empty
  tunnel _ := strictTunn
  peers _ := some 0
  peersByIdx _ := some 0

def strictWorker : ThreadData := ⟨byteBuffer, steadyRng, zeroRng⟩

/-- An initiation to a listener that asks for cookies. -/
def unproven : Bytes :=
  ((trailerTunn 2 3 none).run (byteEnv 1 4)
    (.formatHandshakeInitiation byteBuffer true .UNBOUNDED)).1.datagram

def Heard.reply : Heard P → Option Bytes
  | .cookieReply reply => some reply
  | _ => none

theorem Heard.eq_cookieReply {heard : Heard P} {reply : Bytes} (h : heard.reply = some reply) :
    heard = .cookieReply reply := by
  cases heard with
  | cookieReply sent =>
    cases h
    rfl
  | _ => cases h

def strictReply : Bytes :=
  (strictTunn.decapsulateSource (byteEnv 1 5) (some (.endpoint (.v4 0x7f000001) 5000)) unproven
    byteBuffer .UNBOUNDED).1.datagram

/-- A tunnel and a device answer an initiation with a cookie reply that has a trailer. -/
theorem cookie_replies_never_amplify_trailers :
    COOKIE_REPLY_SZ + 20 < strictReply.length ∧ strictReply.length ≤ unproven.length ∧
      ∃ reply, (strictDevice.listen (byteEnv 1 5) strictWorker (.v4 0x7f000001 5000)
        unproven).1.reply = some reply ∧ reply.length ≤ unproven.length := by
  have hnew : strictTunn.Visited := Reachable.base
    ⟨(1 : UInt8), (6 : UInt8), none, none, 1, some strictLimiter, .default, trailerConfig,
      steadySeed, rfl⟩
  refine ⟨by decide +kernel, ?_, ?_⟩
  · exact (cookie_replies_never_amplify unproven strictReply).1 strictTunn hnew (byteEnv 1 5)
      (some (.endpoint (.v4 0x7f000001) 5000)) byteBuffer .UNBOUNDED (by decide +kernel)
      (by decide +kernel)
  · have hsent : (strictDevice.listen (byteEnv 1 5) strictWorker (.v4 0x7f000001 5000)
        unproven).1.reply.isSome := by decide +kernel
    obtain ⟨reply, hreply⟩ := Option.isSome_iff_exists.mp hsent
    exact ⟨reply, hreply, (cookie_replies_never_amplify unproven reply).2.1 strictDevice
      (byteEnv 1 5) strictWorker (.v4 0x7f000001 5000) (Heard.eq_cookieReply hreply)⟩

end BoringTun
