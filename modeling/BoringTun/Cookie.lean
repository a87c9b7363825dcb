import BoringTun.Classification
import BoringTun.Handshake.Agreement
import BoringTun.Tunn.Memory
import Mathlib.Data.Set.Function

/-!
The cookie round trip: a handshake sends a message to a limiter that guards its peer's
key, the limiter asks for a cookie, and the handshake echoes it.

Three MACs are at work over different parts of a message: mac1 under a key that anyone who
knows the peer can derive, the cookie under a secret of the limiter, and mac2 under the
cookie.

* `gateHandshake_ne_badMac`: the message always has a valid mac1;
* `authenticateCookieReply_demand`: the reply to the message sent last is accepted;
* `mac2Valid_held`, `mac2Valid_other`: with the cookie, mac2 is valid from the source it was
  made for in the period it was made in, and from no other one.
-/

namespace BoringTun

open AmneziaConfig
open Handshake (Step Event)

variable {P : Primitives}

/-! ### Sources -/

namespace Source

/-- The same host and port, whichever family of socket they were seen on. -/
def Same (source source' : Source) : Prop := source.ip = source'.ip ∧ source.port = source'.port

/-- The IPv4-mapped form of an IPv4 address. -/
def mapped (addr : UInt32) : BitVec 128 := BitVec.ofNat 128 (0xffff * 2 ^ 32 + addr.toNat)

theorem same_mapped (addr : UInt32) (port : UInt16) :
    Same (.endpoint (.v4 addr) port) (.endpoint (.v6 (mapped addr)) port) := by
  have hlt := addr.toNat_lt
  have hval : (mapped addr).toNat = 0xffff * 2 ^ 32 + addr.toNat := by
    rw [mapped, BitVec.toNat_ofNat]
    omega
  refine ⟨?_, rfl⟩
  have hdiv : (mapped addr).toNat / 2 ^ 32 = 0xffff := by omega
  have hmod : (mapped addr).toNat % 2 ^ 32 = addr.toNat := by omega
  unfold ip
  dsimp only [Source.addr]
  rw [if_pos hdiv, hmod, UInt32.ofNat_toNat]

/-- What stands for an address in a cookie, without the port. -/
def octets : IpAddr → Bytes
  | .v4 addr => beBytes 4 addr.toNat
  | .v6 addr => beBytes 16 addr.toNat

theorem beBytes_inj {width a b : Nat} (ha : a < 256 ^ width) (hb : b < 256 ^ width)
    (h : beBytes width a = beBytes width b) : a = b := by
  rw [← beNat_beBytes ha, h, beNat_beBytes hb]

theorem octets_inj {addr addr' : IpAddr} (h : octets addr = octets addr') : addr = addr' := by
  cases addr with
  | v4 a =>
    cases addr' with
    | v4 b => exact congrArg _ (UInt32.toNat_inj.mp (beBytes_inj a.toNat_lt b.toNat_lt h))
    | v6 b => simpa [octets] using congrArg List.length h
  | v6 a =>
    cases addr' with
    | v4 b => simpa [octets] using congrArg List.length h
    | v6 b => exact congrArg _ (BitVec.eq_of_toNat_eq (beBytes_inj a.isLt b.isLt h))

/-- The tag byte, which tells the four shapes apart. -/
def shapeTag : IpAddr → Bool → UInt8
  | .v4 _, hasPort => if hasPort then 0x04 else 0x14
  | .v6 _, hasPort => if hasPort then 0x06 else 0x16

def portBytes : Option UInt16 → Bytes
  | some port => beBytes 2 port.toNat
  | none => []

theorem cookieInput_eq (source : Source) : source.cookieInput =
    shapeTag source.ip source.port.isSome :: (octets source.ip ++ portBytes source.port) := by
  unfold cookieInput
  cases source.ip <;> cases source.port <;> rfl

theorem shapeTag_inj {addr addr' : IpAddr} {hasPort hasPort' : Bool}
    (h : shapeTag addr hasPort = shapeTag addr' hasPort') :
    (octets addr).length = (octets addr').length ∧ hasPort = hasPort' := by
  cases addr <;> cases addr' <;> cases hasPort <;> cases hasPort' <;>
    simp [shapeTag, octets] at h ⊢

theorem portBytes_inj {port port' : Option UInt16} (hsome : port.isSome = port'.isSome)
    (h : portBytes port = portBytes port') : port = port' := by
  cases port with
  | none =>
    cases port' with
    | none => rfl
    | some port' => cases hsome
  | some port =>
    cases port' with
    | none => cases hsome
    | some port' =>
      exact congrArg some (UInt16.toNat_inj.mp (beBytes_inj port.toNat_lt port'.toNat_lt h))

/-- A cookie is bound to the address and the port, and to nothing else. -/
theorem cookieInput_inj {source source' : Source} :
    source.cookieInput = source'.cookieInput ↔ source.Same source' := by
  constructor
  · intro h
    rw [cookieInput_eq, cookieInput_eq] at h
    obtain ⟨htag, hrest⟩ := List.cons.inj h
    obtain ⟨hlen, hsome⟩ := shapeTag_inj htag
    obtain ⟨hip, hport⟩ := List.append_inj hrest hlen
    exact ⟨octets_inj hip, portBytes_inj hsome hport⟩
  · rintro ⟨hip, hport⟩
    unfold cookieInput
    rw [hip, hport]

end Source

/-! ### The limiter -/

namespace RateLimiter

variable (limiter : RateLimiter P)

/-- The limiter of an interface with this public key. -/
structure Guards (publicKey : P.Value) : Prop where
  mac1Key : limiter.mac1Key = P.b2sHash (P.value (ascii "mac1----")) publicKey
  cookieKey : limiter.cookieKey = P.b2sHash (P.value (ascii "cookie--")) publicKey

theorem new_guards (publicKey : P.Value) (limit : Nat) (seed : RateLimiterSeed P) :
    (new publicKey limit seed).Guards publicKey := ⟨rfl, rfl⟩

variable {limiter} in
theorem SameKeys.guards {limiter' : RateLimiter P} {publicKey : P.Value}
    (h : limiter.SameKeys limiter') (hguards : limiter.Guards publicKey) :
    limiter'.Guards publicKey := by
  obtain ⟨_, _, _, _, _, rfl⟩ := h
  exact ⟨hguards.mac1Key, hguards.cookieKey⟩

/-- The counter a cookie is made with, for 128 seconds the same. -/
def cookiePeriod (now : Nat) : Nat := asSecs (now - limiter.startTime) / COOKIE_REFRESH

theorem currentCookie_eq (now : Nat) (source : Source) :
    limiter.currentCookie now source = P.b2sKeyedMac16 limiter.secretKey
      (leBytes 8 (limiter.cookiePeriod now) ++ source.cookieInput) := rfl

/-- The reading of the clock that decides which cookie a message must hold. -/
def cookieTime (env : Env P) (source : Source) (load : LoadDecision) : Nat :=
  (limiter.decideLoad env (some source) load).2.2.now

/-- A cookie is demanded exactly of the messages under load with no valid mac2. -/
theorem gateHandshake_cookieDemanded {env : Env P} {source : Source} {message : Bytes}
    {senderIdx : UInt32} {defense : CookieDefense} {load : LoadDecision} {demand : CookieDemand} :
    (limiter.gateHandshake env (some source) message senderIdx defense load).1 =
        .cookieDemanded demand ↔
      P.b2sKeyedMac16 limiter.mac1Key (message.take (message.length - 32)) =
          (message.drop (message.length - 32)).take 16 ∧
        defense = .armed ∧ (limiter.decideLoad env (some source) load).1 ≠ .clear ∧
        ¬ limiter.Mac2Valid (limiter.cookieTime env source load) source message ∧
        demand = {
          senderIdx
          cookie := limiter.currentCookie (limiter.cookieTime env source load) source
          mac1 := (message.drop (message.length - 32)).take 16 } := by
  have hkeys := limiter.decideLoad_sameKeys env (some source) load
  have hcookie : (limiter.decideLoad env (some source) load).2.1.currentCookie
      (limiter.cookieTime env source load) source =
        limiter.currentCookie (limiter.cookieTime env source load) source := by
    obtain ⟨_, _, _, _, _, heq⟩ := hkeys
    rw [heq]
    rfl
  unfold gateHandshake
  dsimp only
  by_cases hmac1 : P.b2sKeyedMac16 limiter.mac1Key (message.take (message.length - 32)) =
      (message.drop (message.length - 32)).take 16
  · rw [if_neg (not_not_intro hmac1)]
    cases defense with
    | bypassed => simp
    | armed =>
      rw [if_neg (by decide)]
      by_cases hclear : (limiter.decideLoad env (some source) load).1 = .clear
      · simp [hclear]
      · rw [if_neg hclear]
        by_cases hmac2 : limiter.Mac2Valid (limiter.cookieTime env source load) source message
        · rw [if_neg]
          · simp only [hmac2, not_true_eq_false, false_and, and_false, iff_false]
            split <;> nofun
          · rw [not_not]
            unfold Mac2Valid at hmac2
            rw [← hcookie] at hmac2
            exact hmac2
        · rw [if_pos]
          · simp only [hmac1, hmac2, ne_eq, hclear, not_false_eq_true, true_and,
              HandshakeGate.cookieDemanded.injEq]
            rw [← hcookie]
            exact eq_comm
          · unfold Mac2Valid at hmac2
            rw [← hcookie] at hmac2
            exact hmac2
  · rw [if_pos hmac1]
    simp [hmac1]

end RateLimiter

/-! ### The message -/

namespace Handshake

/-- A message in its three parts. -/
structure Parts (message body mac1 mac2 : Bytes) : Prop where
  eq : message = body ++ mac1 ++ mac2
  mac1 : mac1.length = 16
  mac2 : mac2.length = 16

namespace Parts

variable {message body mac1 mac2 : Bytes} (hparts : Parts message body mac1 mac2)

include hparts

theorem length_sub : message.length - 32 = body.length := by
  rw [hparts.eq, List.length_append, List.length_append, hparts.mac1, hparts.mac2]
  omega

theorem take_body : message.take (message.length - 32) = body := by
  rw [hparts.length_sub, hparts.eq, List.append_assoc, List.take_left]

theorem drop_body : message.drop (message.length - 32) = mac1 ++ mac2 := by
  rw [hparts.length_sub, hparts.eq, List.append_assoc, List.drop_left]

theorem take_mac1 : (message.drop (message.length - 32)).take 16 = mac1 := by
  rw [hparts.drop_body, List.take_left' hparts.mac1]

theorem drop_mac1 : (message.drop (message.length - 32)).drop 16 = mac2 := by
  rw [hparts.drop_body, List.drop_left' hparts.mac1]

end Parts

/-- A handshake writes a message of its own, an initiation or the response to one. -/
inductive Formats (h : Handshake P) (message : Bytes) (h' : Handshake P) : Prop where
  | initiation {env env' : Env P} {dst : Bytes} {packet : HandshakeInit P}
    (heq : h.formatHandshakeInitiation env dst = (.ok (packet, message), h', env'))
  | response {env env' : Env P} {dst : Bytes} {reservedSlot : Nat} {init : AuthenticatedInit P}
    {packet : HandshakeResponse P} {session : Session P}
    (heq : h.commitInitiation init env dst reservedSlot =
      (.ok (packet, message, session), h', env'))

variable {h h' : Handshake P} {message : Bytes}

/-- Both kinds of message end in the same two MACs, over a body with the sender's index at
bytes 4 to 8. -/
theorem Formats.macs (hformat : h.Formats message h') :
    ∃ (h₀ : Handshake P) (index : UInt32) (body : Bytes),
      (message, h') = h₀.appendMac1AndMac2 index body ∧ h₀.params = h.params ∧
      h₀.cookies = h.cookies ∧ slice body 4 8 = leBytes 4 index.toNat ∧ 8 ≤ body.length := by
  cases hformat with
  | @initiation env env' dst packet heq =>
    have hdst : HANDSHAKE_INIT_SZ ≤ dst.length := by
      by_contra hshort
      simp [formatHandshakeInitiation, Nat.lt_of_not_le hshort] at heq
    rw [formatHandshakeInitiation_spec _ _ _ hdst] at heq
    cases heq
    refine ⟨h.initiating env, _, _, rfl, rfl, rfl, ?_, ?_⟩
    · simp only [initiationBody, List.append_assoc]
      rw [slice_append_right _ _ (length_leBytes 4 _), List.take_left' (length_leBytes 4 _)]
      rfl
    · simp only [initiationBody, List.length_append, length_leBytes]
      omega
  | @response env env' dst reservedSlot init packet session heq =>
    have hdst : HANDSHAKE_RESP_SZ ≤ dst.length := by
      by_contra hshort
      rw [commitInitiation_tooSmall _ _ _ _ _ (Nat.lt_of_not_le hshort)] at heq
      cases heq
    rw [commitInitiation_spec _ _ _ _ _ hdst] at heq
    cases heq
    refine ⟨h.answering init reservedSlot, _, _, rfl, rfl, rfl, ?_, ?_⟩
    · simp only [responseBody, List.append_assoc]
      rw [slice_append_right _ _ (length_leBytes 4 _), List.take_left' (length_leBytes 4 _)]
      rfl
    · simp only [responseBody, List.length_append, length_leBytes]
      omega

def mac1 (h : Handshake P) (body : Bytes) : Bytes :=
  P.b2sKeyedMac16 h.params.sendingMac1Key body

def mac2 (h : Handshake P) (body : Bytes) : Bytes :=
  match h.cookies.writeCookie with
  | some cookie => P.b2sKeyedMac16 (P.value cookie) (body ++ h.mac1 body)
  | none => List.replicate 16 0

theorem length_mac2 (h : Handshake P) (body : Bytes) : (h.mac2 body).length = 16 := by
  unfold mac2
  split
  · exact P.length_b2sKeyedMac16 _ _
  · exact List.length_replicate

/-- What a handshake put into a message, and what it remembers of it. -/
structure Sent (h : Handshake P) (message : Bytes) (h' : Handshake P) (body : Bytes)
    (localIndex : UInt32) : Prop where
  parts : Parts message body (h.mac1 body) (h.mac2 body)
  senderIdx : slice message 4 8 = leBytes 4 localIndex.toNat
  lastMac1 : h'.cookies.lastMac1 = some (h.mac1 body)
  index : h'.cookies.index = localIndex
  peer : h'.params.peerStaticPublic = h.params.peerStaticPublic

theorem Formats.sent (hformat : h.Formats message h') :
    ∃ body localIndex, h.Sent message h' body localIndex := by
  obtain ⟨h₀, localIndex, body, heq, hparams, hcookies, hindex, hlong⟩ := hformat.macs
  have hmac1 : h₀.mac1 body = h.mac1 body := by rw [mac1, mac1, hparams]
  have hmac2 : h₀.mac2 body = h.mac2 body := by rw [mac2, mac2, hcookies, hmac1]
  obtain ⟨hmessage, hafter⟩ := Prod.mk.inj heq
  refine ⟨body, localIndex, ⟨?_, P.length_b2sKeyedMac16 _ _, h.length_mac2 body⟩, ?_, ?_, ?_, ?_⟩
  · rw [← hmac1, ← hmac2]
    exact hmessage
  · rw [hmessage, List.append_assoc, slice_append_left _ _ hlong]
    exact hindex
  · rw [← hmac1, hafter]
    rfl
  · rw [hafter]
  · rw [← hparams, hafter]

/-- The mac1 and the index of the last message, and the peer's key, are what they were. -/
def KeepsMac1 (m m' : Memory P) : Prop :=
  m'.cookies.lastMac1 = m.cookies.lastMac1 ∧ m'.cookies.index = m.cookies.index ∧
    m'.params.peerStaticPublic = m.params.peerStaticPublic

theorem keepsMac1_step {event : Event P} {m m' m'' : Memory P} (hquiet : event.Quiet)
    (hstep : Step event m' m'') (hkeeps : KeepsMac1 m m') : KeepsMac1 m m'' := by
  obtain ⟨hmac1, hindex, hpeer⟩ := hkeeps
  cases hstep with
  | initiate env | accept env reservedSlot hauth | cookie hauth => exact absurd hquiet id
  | @complete h now packet response hauth =>
    rw [memory_commitResponse]
    cases response.isPrevious with
    | false | true => exact ⟨hmac1, hindex, hpeer⟩
  | forgetCookie | expire => exact ⟨hmac1, hindex, hpeer⟩
  | rekey params hkey => exact ⟨hmac1, hindex, hkey.trans hpeer⟩

/-- A sender that has sent no handshake message since, and accepted no cookie reply, still
holds the mac1 of its last one. -/
theorem keepsMac1_quiet {m m' : Memory P} (hsteps : Steps Step Event.Quiet m m') :
    KeepsMac1 m m' :=
  hsteps.invariant (fun _ _ _ hquiet hstep => keepsMac1_step hquiet hstep) ⟨rfl, rfl, rfl⟩

theorem peerStaticPublic_steps {allowed : Event P → Prop} {m m' : Memory P}
    (hsteps : Steps Step allowed m m') :
    m'.params.peerStaticPublic = m.params.peerStaticPublic :=
  hsteps.invariant (fun _ _ _ _ hstep hpeer => hstep.peerStaticPublic.trans hpeer) rfl

end Handshake

/-! ### The round trip -/

section

variable {h h' : Handshake P} {message body : Bytes} {localIndex : UInt32}
  {limiter : RateLimiter P}

/-- A message for the limiter's key has its mac1. -/
theorem mac1_valid (hsent : h.Sent message h' body localIndex)
    (hguards : limiter.Guards h.params.peerStaticPublic) :
    P.b2sKeyedMac16 limiter.mac1Key (message.take (message.length - 32)) =
      (message.drop (message.length - 32)).take 16 := by
  rw [hsent.parts.take_body, hsent.parts.take_mac1, hguards.mac1Key, ← h.params.mac1_eq]
  rfl

theorem gateHandshake_ne_badMac (hsent : h.Sent message h' body localIndex)
    (hguards : limiter.Guards h.params.peerStaticPublic) (env : Env P) (source : Option Source)
    (senderIdx : UInt32) (defense : CookieDefense) (load : LoadDecision) :
    (limiter.gateHandshake env source message senderIdx defense load).1 ≠ .badMac := by
  unfold RateLimiter.gateHandshake
  dsimp only
  rw [if_neg (not_not_intro (mac1_valid hsent hguards))]
  split
  · nofun
  split
  · nofun
  cases source with
  | none => nofun
  | some source =>
    dsimp only
    split
    · nofun
    · split <;> nofun

/-- The sender's index, as every reading of the message has it. -/
theorem handshakeSender_sent (hsent : h.Sent message h' body localIndex) {obf : ObfuscationRanges}
    {packet : Packet P} {senderIdx : UInt32} (hparse : parseIncomingPacket obf message = .ok packet)
    (hsender : Inbound.handshakeSender packet = some senderIdx) : senderIdx = localIndex := by
  have hread : leU32 (slice message 4 8) = localIndex := by
    rw [hsent.senderIdx, leU32_leBytes]
  have hcanon := canonical_of_parseIncomingPacket hparse
  rw [parseIncomingPacket_canonical hcanon] at hparse
  cases packet with
  | handshakeInit p | handshakeResponse p =>
    cases hparse
    cases hsender
    exact hread
  | packetCookieReply p | packetData p => cases hsender

/-- What opens a cookie reply under the key, nonce and mac1 it was sealed with. -/
def OpensCookies (P : Primitives) : Prop :=
  ∀ key nonce message aad, P.xOpen key nonce (P.xSeal key nonce message aad) aad = some message

/-- The reply to a demand, in the fields a receiver reads. -/
def cookieReplyTo (limiter : RateLimiter P) (demand : CookieDemand) : PacketCookieReply where
  receiverIdx := demand.senderIdx
  nonce := P.b2sMac24 limiter.nonceKey (leBytes 8 limiter.nonceCtr)
  encryptedCookie := P.xSeal limiter.cookieKey
    (P.b2sMac24 limiter.nonceKey (leBytes 8 limiter.nonceCtr)) demand.cookie demand.mac1

theorem parsePacketCookieReply_append (tag : Bytes) {nonce encryptedCookie : Bytes}
    (receiverIdx : UInt32) (htag : tag.length = 4) (hnonce : nonce.length = 24)
    (hcookie : encryptedCookie.length = 32) :
    parsePacketCookieReply (tag ++ (leBytes 4 receiverIdx.toNat ++ (nonce ++ encryptedCookie))) =
      { receiverIdx, nonce, encryptedCookie } := by
  have hindex : slice (tag ++ (leBytes 4 receiverIdx.toNat ++ (nonce ++ encryptedCookie))) 4 8 =
      leBytes 4 receiverIdx.toNat := by
    rw [slice_append_right _ _ htag, List.take_left' (length_leBytes 4 _)]
  have hread : slice (tag ++ (leBytes 4 receiverIdx.toNat ++ (nonce ++ encryptedCookie))) 8 32 =
      nonce := by
    rw [← List.append_assoc, slice_append_right _ _ (by simp [htag]), List.take_left' hnonce]
  have hrest : slice (tag ++ (leBytes 4 receiverIdx.toNat ++ (nonce ++ encryptedCookie))) 32 64 =
      encryptedCookie := by
    rw [← List.append_assoc, ← List.append_assoc, slice_append_right _ _ (by simp [htag, hnonce]),
      List.take_of_length_le (Nat.le_of_eq hcookie)]
  unfold parsePacketCookieReply
  rw [hindex, hread, hrest, leU32_leBytes]

/-- A formatted reply is read back under the ranges it was formatted in. -/
theorem formatCookieDemand_parse (limiter : RateLimiter P) (obf : ObfuscationRanges) (rng : Rng)
    {demand : CookieDemand} {dst : Bytes} (hcookie : demand.cookie.length = 16)
    (hdst : COOKIE_REPLY_SZ ≤ dst.length) :
    ∃ reply limiter' rng', limiter.formatCookieDemand obf rng demand dst =
        (.ok reply, limiter', rng') ∧
      parseIncomingPacket obf reply =
        .ok (.packetCookieReply (cookieReplyTo limiter demand) : Packet P) := by
  have hsealed : (cookieReplyTo limiter demand).encryptedCookie.length = 32 := by
    rw [cookieReplyTo, P.length_xSeal, hcookie]
  have hnonce : (cookieReplyTo limiter demand).nonce.length = 24 := P.length_b2sMac24 _ _
  rcases hformat : limiter.formatCookieDemand obf rng demand dst with ⟨_ | reply, limiter', rng'⟩
  · unfold RateLimiter.formatCookieDemand at hformat
    rw [if_neg (Nat.not_lt.mpr hdst)] at hformat
    cases hformat
  · refine ⟨reply, limiter', rng', rfl, ?_⟩
    have hcanon := RateLimiter.canonical_formatCookieDemand hcookie hformat
    unfold RateLimiter.formatCookieDemand at hformat
    rw [if_neg (Nat.not_lt.mpr hdst)] at hformat
    cases hformat
    simp only [List.append_assoc] at hcanon ⊢
    have hfields := parsePacketCookieReply_append (leBytes 4 (obf.h3Cookie.random rng).1)
      demand.senderIdx (length_leBytes 4 _) hnonce hsealed
    refine (parseIncomingPacket_canonical hcanon).trans ?_
    exact congrArg (fun reply => Except.ok (Packet.packetCookieReply reply)) hfields

/-- The sender opens the reply to its last message. -/
theorem authenticateCookieReply_demand (hopens : OpensCookies P)
    (hsent : h.Sent message h' body localIndex)
    (hguards : limiter.Guards h.params.peerStaticPublic) {demand : CookieDemand}
    (hindex : demand.senderIdx = localIndex) (hmac1 : demand.mac1 = h.mac1 body)
    (hcookie : demand.cookie.length = 16) {h₁ : Handshake P}
    (hkeeps : Handshake.KeepsMac1 h'.memory h₁.memory) :
    h₁.authenticateCookieReply (cookieReplyTo limiter demand) = .ok demand.cookie := by
  obtain ⟨hlast, hlastIndex, hpeer⟩ := hkeeps
  have hlast : h₁.cookies.lastMac1 = some demand.mac1 := by
    rw [hmac1, ← hsent.lastMac1]
    exact hlast
  have hlastIndex : (cookieReplyTo limiter demand).receiverIdx = h₁.cookies.index := by
    rw [cookieReplyTo, hindex, ← hsent.index]
    exact hlastIndex.symm
  have hkey : P.b2sHash (P.value (ascii "cookie--")) h₁.params.peerStaticPublic =
      limiter.cookieKey := by
    rw [hguards.cookieKey, ← hsent.peer]
    exact congrArg _ hpeer
  unfold Handshake.authenticateCookieReply
  rw [hlast]
  dsimp only
  rw [if_neg (not_not_intro hlastIndex), hkey]
  simp only [cookieReplyTo, hopens _ _ _ _]
  exact if_pos hcookie

/-- The two cookies and the two MACs under them that tell a source from another one. -/
def mac2Queries (limiter : RateLimiter P) (now : Nat) (source source' : Source) (data : Bytes) :
    Set (P.Value × Bytes) :=
  {(limiter.secretKey, leBytes 8 (limiter.cookiePeriod now) ++ source.cookieInput),
   (limiter.secretKey, leBytes 8 (limiter.cookiePeriod now) ++ source'.cookieInput),
   (P.value (limiter.currentCookie now source), data),
   (P.value (limiter.currentCookie now source'), data)}

/-- The keyed MAC as an ideal symbol on some queries: no two of them collide, neither as
MACs nor as keys made from MACs. -/
structure IdealMac (P : Primitives) (queries : Set (P.Value × Bytes)) : Prop where
  mac_inj : Set.InjOn (fun query => P.b2sKeyedMac16 query.1 query.2) queries
  key_inj : Set.InjOn P.value (Set.image (fun query => P.b2sKeyedMac16 query.1 query.2) queries)

/-- With the cookie of a source, mac2 is valid from the same source in the same period. -/
theorem mac2Valid_held (hsent : h.Sent message h' body localIndex) {now now' : Nat}
    {source source' : Source}
    (hheld : h.cookies.writeCookie = some (limiter.currentCookie now source))
    (hperiod : limiter.cookiePeriod now' = limiter.cookiePeriod now)
    (hsame : source.Same source') : limiter.Mac2Valid now' source' message := by
  unfold RateLimiter.Mac2Valid
  rw [hsent.parts.take_body, hsent.parts.take_mac1, hsent.parts.drop_mac1, Handshake.mac2, hheld,
    limiter.currentCookie_eq now', hperiod, ← Source.cookieInput_inj.mpr hsame,
    ← limiter.currentCookie_eq]

/-- And from no other source. -/
theorem mac2Valid_other (hsent : h.Sent message h' body localIndex) {now now' : Nat}
    {source source' : Source}
    (hheld : h.cookies.writeCookie = some (limiter.currentCookie now source))
    (hperiod : limiter.cookiePeriod now' = limiter.cookiePeriod now)
    (hother : ¬ source.Same source')
    (ideal : IdealMac P (mac2Queries limiter now source source' (body ++ h.mac1 body))) :
    ¬ limiter.Mac2Valid now' source' message := by
  unfold RateLimiter.Mac2Valid
  rw [hsent.parts.take_body, hsent.parts.take_mac1, hsent.parts.drop_mac1, Handshake.mac2, hheld,
    limiter.currentCookie_eq now', hperiod, ← limiter.currentCookie_eq now]
  intro hmac2
  -- equal MACs have equal keys, equal keys are equal cookies, and those are bound to a source
  have hkey : P.value (limiter.currentCookie now source') =
      P.value (limiter.currentCookie now source) :=
    congrArg Prod.fst (ideal.mac_inj (.inr (.inr (.inr rfl))) (.inr (.inr (.inl rfl))) hmac2)
  have hcookie : limiter.currentCookie now source' = limiter.currentCookie now source :=
    ideal.key_inj ⟨_, .inr (.inl rfl), rfl⟩ ⟨_, .inl rfl, rfl⟩ hkey
  have hinput : leBytes 8 (limiter.cookiePeriod now) ++ source'.cookieInput =
      leBytes 8 (limiter.cookiePeriod now) ++ source.cookieInput :=
    congrArg Prod.snd (ideal.mac_inj (.inr (.inl rfl)) (.inl rfl) hcookie)
  exact hother (Source.cookieInput_inj.mp (List.append_cancel_left hinput).symm)

theorem Handshake.Parts.take_macs {mac1 mac2 : Bytes} (hparts : Parts message body mac1 mac2) :
    message.take (message.length - 16) = body ++ mac1 := by
  have hlen : message.length - 16 = (body ++ mac1).length := by
    have htotal := congrArg List.length hparts.eq
    rw [List.length_append, hparts.mac2] at htotal
    omega
  rw [hlen, hparts.eq, List.take_left]

/-- What a demand asks a message for. -/
theorem demand_spec (hsent : h.Sent message h' body localIndex) {env : Env P} {source : Source}
    {load : LoadDecision} {obf : ObfuscationRanges} {packet : Packet P} {senderIdx : UInt32}
    {demand : CookieDemand} (hparse : parseIncomingPacket obf message = .ok packet)
    (hsender : Inbound.handshakeSender packet = some senderIdx)
    (hdemand : (limiter.gateHandshake env (some source) message senderIdx .armed load).1 =
      .cookieDemanded demand) :
    demand.senderIdx = localIndex ∧ demand.mac1 = h.mac1 body ∧
      demand.cookie = limiter.currentCookie (limiter.cookieTime env source load) source := by
  obtain ⟨-, -, -, -, rfl⟩ := limiter.gateHandshake_cookieDemanded.mp hdemand
  exact ⟨handshakeSender_sent hsent hparse hsender, hsent.parts.take_mac1, rfl⟩

end

/-- A message to the owner of the limiter's key is never refused for its mac1. When a cookie
is demanded for it, the reply is accepted by a sender that has sent no handshake message
since and accepted no other reply; and every later message of a sender that holds the
cookie has a valid mac2 from the same source in the same period, and from no other one. -/
theorem cookie_roundTrip (hopens : OpensCookies P) {h h' : Handshake P} {message : Bytes}
    (hformat : h.Formats message h') (limiter : RateLimiter P)
    (hguards : limiter.Guards h.params.peerStaticPublic) :
    (∀ env source senderIdx defense load,
      (limiter.gateHandshake env source message senderIdx defense load).1 ≠ .badMac) ∧
    (∀ addr port,
      Source.Same (.endpoint (.v4 addr) port) (.endpoint (.v6 (Source.mapped addr)) port)) ∧
    ∀ env source load obf (packet : Packet P) senderIdx demand,
      parseIncomingPacket obf message = .ok packet →
      Inbound.handshakeSender packet = some senderIdx →
      (limiter.gateHandshake env (some source) message senderIdx .armed load).1 =
        .cookieDemanded demand →
      (∀ limiter' obf' rng dst, limiter.SameKeys limiter' → COOKIE_REPLY_SZ ≤ dst.length →
        ∃ reply cookieReply, (limiter'.formatCookieDemand obf' rng demand dst).1 = .ok reply ∧
          parseIncomingPacket obf' reply = .ok (.packetCookieReply cookieReply : Packet P) ∧
          ∀ h₁ : Handshake P, Steps Step Event.Quiet h'.memory h₁.memory →
            h₁.authenticateCookieReply cookieReply = .ok demand.cookie ∧
              (h₁.commitCookie demand.cookie).cookies.writeCookie = some demand.cookie) ∧
      ∀ (h₂ h₃ : Handshake P) message₂, Steps Step (fun _ => True) h'.memory h₂.memory →
        h₂.cookies.writeCookie = some demand.cookie → h₂.Formats message₂ h₃ →
        ∀ limiter₂ env₂ source₂ senderIdx₂ load₂, limiter.SameKeys limiter₂ →
          limiter.cookiePeriod (limiter₂.cookieTime env₂ source₂ load₂) =
            limiter.cookiePeriod (limiter.cookieTime env source load) →
          (source.Same source₂ →
            limiter₂.Mac2Valid (limiter₂.cookieTime env₂ source₂ load₂) source₂ message₂ ∧
            ∀ demand₂, (limiter₂.gateHandshake env₂ (some source₂) message₂ senderIdx₂ .armed
              load₂).1 ≠ .cookieDemanded demand₂) ∧
          (¬ source.Same source₂ →
            IdealMac P (mac2Queries limiter (limiter.cookieTime env source load) source source₂
              (message₂.take (message₂.length - 16))) →
            ¬ limiter₂.Mac2Valid (limiter₂.cookieTime env₂ source₂ load₂) source₂ message₂ ∧
            ((limiter₂.decideLoad env₂ (some source₂) load₂).1 ≠ .clear →
              ∃ demand₂, (limiter₂.gateHandshake env₂ (some source₂) message₂ senderIdx₂ .armed
                load₂).1 = .cookieDemanded demand₂)) := by
  obtain ⟨body, localIndex, hsent⟩ := hformat.sent
  refine ⟨fun env source senderIdx defense load =>
      gateHandshake_ne_badMac hsent hguards env source senderIdx defense load,
    Source.same_mapped, ?_⟩
  intro env source load obf packet senderIdx demand hparse hsender hdemand
  obtain ⟨hindex, hmac1, hcookie⟩ := demand_spec hsent hparse hsender hdemand
  constructor
  · intro limiter' obf' rng dst hkeys hdst
    have hlen : demand.cookie.length = 16 := by
      rw [hcookie]
      exact P.length_b2sKeyedMac16 _ _
    obtain ⟨reply, limiter₁, rng₁, hreply, hread⟩ :=
      formatCookieDemand_parse limiter' obf' rng hlen hdst
    refine ⟨reply, _, congrArg Prod.fst hreply, hread, fun h₁ hquiet => ⟨?_, rfl⟩⟩
    exact authenticateCookieReply_demand hopens hsent (hkeys.guards hguards) hindex hmac1 hlen
      (Handshake.keepsMac1_quiet hquiet)
  · intro h₂ h₃ message₂ hlater hheld hformat₂ limiter₂ env₂ source₂ senderIdx₂ load₂ hkeys hperiod
    obtain ⟨body₂, localIndex₂, hsent₂⟩ := hformat₂.sent
    have hpeer : h₂.params.peerStaticPublic = h.params.peerStaticPublic :=
      (Handshake.peerStaticPublic_steps hlater).trans hsent.peer
    have hguards₂ : limiter₂.Guards h₂.params.peerStaticPublic := by
      rw [hpeer]
      exact hkeys.guards hguards
    have hmac1₂ := mac1_valid hsent₂ hguards₂
    rw [hcookie] at hheld
    -- the cookies of the two limiters are the same: only counts moved
    obtain ⟨_, _, _, _, _, rfl⟩ := hkeys
    constructor
    · intro hsame
      have hvalid : limiter.Mac2Valid _ source₂ message₂ :=
        mac2Valid_held hsent₂ hheld hperiod hsame
      refine ⟨hvalid, fun demand₂ hdemand₂ => ?_⟩
      obtain ⟨-, -, -, hinvalid, -⟩ :=
        (RateLimiter.gateHandshake_cookieDemanded _).mp hdemand₂
      exact hinvalid hvalid
    · intro hother ideal
      rw [hsent₂.parts.take_macs] at ideal
      have hinvalid : ¬ limiter.Mac2Valid _ source₂ message₂ :=
        mac2Valid_other hsent₂ hheld hperiod hother ideal
      refine ⟨hinvalid, fun hload => ?_⟩
      exact ⟨_, (RateLimiter.gateHandshake_cookieDemanded _).mpr
        ⟨hmac1₂, rfl, hload, hinvalid, rfl⟩⟩

/-! ### Over terms -/

/-- A limiter that is under load from its first message on. -/
def termLimiter : RateLimiter termPrimitives :=
  .new (.publicOf 2) 0 {
    nonceKey := .raw [1], secretKey := .raw [2], startTime := 0, lastReset := 0
    sources := fun _ => 0, proven := fun _ => 0 }

/-- The initiation of key pair 1 to key pair 2, and the sender after it. -/
def termSender : Bytes × Handshake termPrimitives :=
  (Handshake.termHandshake 1 2 none).initiated (termEnv 5 100)

def termSource : Source := .endpoint (.v4 0x7f000001) 51820

def HandshakeGate.demand : HandshakeGate → Option CookieDemand
  | .cookieDemanded demand => some demand
  | _ => none

theorem termSender_formats :
    (Handshake.termHandshake 1 2 none).Formats termSender.1 termSender.2 :=
  .initiation (Handshake.formatHandshakeInitiation_spec _ (termEnv 5 100) (List.replicate 148 0)
    (by simp [HANDSHAKE_INIT_SZ]))

/-- The cookie the limiter demands for it. -/
def termDemand : CookieDemand :=
  (termLimiter.gateHandshake (termEnv 5 0) (some termSource) termSender.1 257 .armed
    {}).1.demand.get (by decide +kernel)

theorem termDemand_demanded : (termLimiter.gateHandshake (termEnv 5 0) (some termSource)
    termSender.1 257 .armed {}).1 = .cookieDemanded termDemand := by
  have hsome : (termLimiter.gateHandshake (termEnv 5 0) (some termSource) termSender.1 257 .armed
      {}).1.demand = some termDemand := (Option.some_get _).symm
  cases hgate : (termLimiter.gateHandshake (termEnv 5 0) (some termSource) termSender.1 257 .armed
      {}).1 with
  | cookieDemanded demand =>
    rw [hgate] at hsome
    exact congrArg _ (Option.some.inj hsome)
  | pass | badMac | underLoad =>
    rw [hgate] at hsome
    cases hsome

/-- The sender once it has the cookie, and its next initiation. -/
def termEchoed : Bytes × Handshake termPrimitives :=
  (termSender.2.commitCookie termDemand.cookie).initiated (termEnv 9 101)

/-- The same host on another port. -/
def termOther : Source := .endpoint (.v4 0x7f000001) 51821

/-- The MACs that tell the two ports apart do not collide. -/
theorem termQueries_ideal : IdealMac termPrimitives (mac2Queries termLimiter 6 termSource termOther
    (termEchoed.1.take (termEchoed.1.length - 16))) := by
  constructor
  · intro query hquery query' hquery' heq
    have hdistinct : ([
        (termLimiter.secretKey, leBytes 8 (termLimiter.cookiePeriod 6) ++ termSource.cookieInput),
        (termLimiter.secretKey, leBytes 8 (termLimiter.cookiePeriod 6) ++ termOther.cookieInput),
        (termPrimitives.value (termLimiter.currentCookie 6 termSource),
          termEchoed.1.take (termEchoed.1.length - 16)),
        (termPrimitives.value (termLimiter.currentCookie 6 termOther),
          termEchoed.1.take (termEchoed.1.length - 16))].map
        fun query => termPrimitives.b2sKeyedMac16 query.1 query.2).Nodup := by
      decide +kernel
    refine List.inj_on_of_nodup_map hdistinct ?_ ?_ heq
    · simpa [mac2Queries] using hquery
    · simpa [mac2Queries] using hquery'
  · intro bytes _ bytes' _ heq
    exact Term.raw.inj heq

/-- The reply is accepted; the next message passes from the mapped form of its source's
address, and is asked for a cookie again from another port. -/
theorem cookie_roundTrip_terms :
    (∃ reply cookieReply, (termLimiter.formatCookieDemand .default zeroRng termDemand
        (List.replicate 64 0)).1 = .ok reply ∧
      parseIncomingPacket .default reply =
        .ok (.packetCookieReply cookieReply : Packet termPrimitives) ∧
      termSender.2.authenticateCookieReply cookieReply = .ok termDemand.cookie) ∧
    (∀ demand, (termLimiter.gateHandshake (termEnv 9 0)
      (some (.endpoint (.v6 (Source.mapped 0x7f000001)) 51820)) termEchoed.1 258 .armed {}).1 ≠
        .cookieDemanded demand) ∧
    ∃ demand, (termLimiter.gateHandshake (termEnv 9 0) (some termOther) termEchoed.1 258 .armed
      {}).1 = .cookieDemanded demand := by
  obtain ⟨-, hmapped, hdemanded⟩ := cookie_roundTrip
    (fun key nonce message aad => termOpen_append_termTag key (leNat nonce + leNat aad) message)
    termSender_formats termLimiter (RateLimiter.new_guards _ _ _)
  have hparse : parseIncomingPacket .default termSender.1 =
      .ok (.handshakeInit (parseHandshakeInit termSender.1) : Packet termPrimitives) := by
    unfold parseIncomingPacket
    rw [if_neg (by decide +kernel)]
    exact if_pos (by decide +kernel)
  obtain ⟨hreply, hlater⟩ := hdemanded (termEnv 5 0) termSource {} .default _ 257 termDemand hparse
    (by decide +kernel) termDemand_demanded
  obtain ⟨reply, cookieReply, hformat, hread, haccept⟩ := hreply termLimiter .default zeroRng
    (List.replicate 64 0) (.refl _) (by simp [COOKIE_REPLY_SZ])
  have hauth := (haccept termSender.2 (.refl _)).1
  have hecho : (termSender.2.commitCookie termDemand.cookie).Formats termEchoed.1 termEchoed.2 :=
    .initiation (Handshake.formatHandshakeInitiation_spec _ (termEnv 9 101) (List.replicate 148 0)
      (by simp [HANDSHAKE_INIT_SZ]))
  have hafter := hlater (termSender.2.commitCookie termDemand.cookie) termEchoed.2 termEchoed.1
    (.single (.cookie hauth) trivial) rfl hecho termLimiter (termEnv 9 0)
  refine ⟨⟨reply, cookieReply, hformat, hread, hauth⟩, ?_, ?_⟩
  · exact ((hafter _ 258 {} (.refl _) (by decide +kernel)).1 (hmapped 0x7f000001 51820)).2
  · refine ((hafter termOther 258 {} (.refl _) (by decide +kernel)).2 ?_ termQueries_ideal).2 ?_
    · rintro ⟨-, hport⟩
      cases hport
    · decide +kernel

end BoringTun
