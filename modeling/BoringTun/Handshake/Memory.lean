import BoringTun.Handshake.KeySchedule
import BoringTun.Lib.Machine

/-!
What a handshake remembers of its past, and every way it changes.

A `Memory` is a handshake without its generator, its tag ranges and its round-trip time.
A `Step` changes it and is labelled by what happened: three labels are for what was heard
from the peer, the others for what this side did on its own.
-/

namespace BoringTun

variable {P : Primitives}

theorem Tai64N.after_trans {a b c : Tai64N} (h : a.after b = true) (h' : b.after c = true) :
    a.after c = true := by
  simp only [Tai64N.after, Bool.or_eq_true, Bool.and_eq_true, decide_eq_true_eq, beq_iff_eq] at *
  omega

theorem Tai64N.after_irrefl (a : Tai64N) : a.after a = false := by
  simp [Tai64N.after]

namespace Handshake

structure Memory (P : Primitives) where
  params : NoiseParams P
  nextIndex : UInt32
  previous : HandshakeState P
  state : HandshakeState P
  cookies : Cookies
  lastHandshakeTimestamp : Tai64N

def memory (h : Handshake P) : Memory P where
  params := h.params
  nextIndex := h.nextIndex
  previous := h.previous
  state := h.state
  cookies := h.cookies
  lastHandshakeTimestamp := h.lastHandshakeTimestamp

/-- A handshake that was never used. -/
def Memory.IsBlank (m : Memory P) : Prop :=
  m.previous = .none ∧ m.state = .none ∧ m.cookies = {}

inductive Event (P : Primitives) where
  /-- An initiation was sent. -/
  | initiate
  /-- An initiation of the peer was accepted under the keys of the time, and answered. -/
  | accept (params : NoiseParams P) (packet : HandshakeInit P) (init : AuthenticatedInit P)
  /-- A response completed the initiation in `previous` or in `state`. -/
  | complete (isPrevious : Bool)
  /-- A cookie reply was accepted. -/
  | cookie
  | forgetCookie
  | expire
  | rekey

/-- What a handshake does on its own. -/
def Event.Own : Event P → Prop
  | .accept .. | .complete _ | .cookie => False
  | _ => True

/-- Neither a handshake message was sent nor a cookie reply accepted. -/
def Event.Quiet : Event P → Prop
  | .initiate | .accept .. | .cookie => False
  | _ => True

inductive Step : Event P → Memory P → Memory P → Prop where
  | initiate {h : Handshake P} (env : Env P) : Step .initiate h.memory (h.initiated env).2.memory
  | accept {h : Handshake P} {packet : HandshakeInit P} {init : AuthenticatedInit P} (env : Env P)
    (reservedSlot : Nat) (hauth : h.authenticateInitiation packet = .ok init) :
    Step (.accept h.params packet init) h.memory (h.answeredInit env init reservedSlot).2.memory
  | complete {h : Handshake P} {now : Nat} {packet : HandshakeResponse P}
    {response : AuthenticatedResponse P} (hauth : h.authenticateResponse now packet = .ok response) :
    Step (.complete response.isPrevious) h.memory (h.commitResponse response).2.memory
  | cookie {h : Handshake P} {packet : PacketCookieReply} {cookie : Bytes}
    (hauth : h.authenticateCookieReply packet = .ok cookie) :
    Step .cookie h.memory (h.commitCookie cookie).memory
  | forgetCookie {h : Handshake P} : Step .forgetCookie h.memory h.clearCookie.memory
  | expire {h : Handshake P} : Step .expire h.memory h.setExpired.memory
  /-- Either key of this side is replaced; the peer's never is. -/
  | rekey {m : Memory P} (params : NoiseParams P)
    (hpeer : params.peerStaticPublic = m.params.peerStaticPublic) :
    Step .rekey m { m with params := params }

/-! ### What a step reads and writes -/

theorem memory_initiated (h : Handshake P) (env : Env P) : (h.initiated env).2.memory =
    { h.memory with
      nextIndex := succIndex h.nextIndex
      previous := h.state
      state := .initSent (h.sentOf env)
      cookies := (h.initiated env).2.cookies } := rfl

theorem memory_answeredInit (h : Handshake P) (env : Env P) (init : AuthenticatedInit P)
    (reservedSlot : Nat) : (h.answeredInit env init reservedSlot).2.memory =
    { h.memory with
      nextIndex := h.responderIndex reservedSlot
      lastHandshakeTimestamp := init.timestamp
      previous := h.state
      state := .none
      cookies := (h.answeredInit env init reservedSlot).2.cookies } := rfl

theorem memory_commitResponse (h : Handshake P) (response : AuthenticatedResponse P) :
    (h.commitResponse response).2.memory =
      if response.isPrevious then { h.memory with previous := .none }
      else { h.memory with state := .none } := by
  unfold commitResponse
  dsimp only
  split <;> rfl

/-- A cookie reply is accepted only for a message whose mac1 is still held. -/
theorem authenticateCookieReply_lastMac1 {h : Handshake P} {packet : PacketCookieReply}
    {cookie : Bytes} (hauth : h.authenticateCookieReply packet = .ok cookie) :
    h.cookies.lastMac1.isSome = true := by
  unfold authenticateCookieReply at hauth
  cases hmac : h.cookies.lastMac1 with
  | none =>
    rw [hmac] at hauth
    cases hauth
  | some mac1 => rfl

/-- The peer's key is never replaced. -/
theorem Step.peerStaticPublic {event : Event P} {m m' : Memory P} (h : Step event m m') :
    m'.params.peerStaticPublic = m.params.peerStaticPublic := by
  cases h with
  | rekey params hpeer => exact hpeer
  | @complete h now packet response hauth =>
    rw [memory_commitResponse]
    split <;> rfl
  | _ => rfl

/-! ### Timestamps -/

/-- The timestamp an initiation opens to under some keys, be it new or not. -/
def stampUnder (params : NoiseParams P) (packet : HandshakeInit P) : Option Tai64N :=
  let e := packet.unencryptedEphemeral
  let chain := mixChain (mixChain (INITIAL_CHAIN_KEY P) e) (P.diffieHellman params.staticPrivate e)
  let hash := P.b2sHash (P.b2sHash (INITIAL_CHAIN_HASH P) params.staticPublic) e
  (P.aeadOpen (mixKey chain params.staticShared) 0 packet.encryptedTimestamp
    (P.b2sHash hash packet.encryptedStatic)).map Tai64N.parse

theorem authenticateInitiation_stamp {h : Handshake P} {packet : HandshakeInit P}
    {init : AuthenticatedInit P} (hauth : h.authenticateInitiation packet = .ok init) :
    stampUnder h.params packet = some init.timestamp := by
  rw [authenticateInitiation_spec] at hauth
  dsimp only at hauth
  split at hauth
  · cases hauth
  split at hauth
  · cases hauth
  split at hauth
  · cases hauth
  next stamp hopen =>
  split at hauth
  · cases hauth
  · cases hauth
    exact congrArg (Option.map Tai64N.parse) hopen

/-- Only the private key and the peer's key matter. -/
theorem stampUnder_keys {params params' : NoiseParams P} {packet : HandshakeInit P}
    (hprivate : params'.staticPrivate = params.staticPrivate)
    (hpeer : params'.peerStaticPublic = params.peerStaticPublic) :
    stampUnder params' packet = stampUnder params packet := by
  simp only [stampUnder, params.public_eq, params'.public_eq, params.shared_eq, params'.shared_eq,
    hprivate, hpeer]

/-- The timestamp of an initiation was sealed by somebody. -/
def SealedStamp (packet : HandshakeInit P) : Prop :=
  ∃ key nonce stamp aad, packet.encryptedTimestamp = P.aeadSeal key nonce stamp aad

/-- A sealed timestamp is the same under any keys that open it. -/
theorem stampUnder_sealed (laws : Symbolic P) {params params' : NoiseParams P}
    {packet : HandshakeInit P} {stamp stamp' : Tai64N} (hsealed : SealedStamp packet)
    (h : stampUnder params packet = some stamp) (h' : stampUnder params' packet = some stamp') :
    stamp = stamp' := by
  obtain ⟨key, nonce, inner, aad, hseal⟩ := hsealed
  have hopened {key' : P.Value} {nonce' : Nat} {aad' : P.Value} {value : P.Value}
      (hopen : P.aeadOpen key' nonce' packet.encryptedTimestamp aad' = some value) :
      value = inner := by
    rw [hseal] at hopen
    obtain ⟨rfl, rfl, rfl⟩ := laws.aeadOpen_only hopen
    rw [laws.aeadOpen_seal] at hopen
    exact (Option.some.inj hopen).symm
  obtain ⟨value, hopen, rfl⟩ := Option.map_eq_some_iff.mp h
  obtain ⟨value', hopen', rfl⟩ := Option.map_eq_some_iff.mp h'
  rw [hopened hopen, hopened hopen']

end Handshake

end BoringTun
