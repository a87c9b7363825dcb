import BoringTun.Amnezia.Framing
import BoringTun.Device.ProbeBudget
import BoringTun.Imitation.Respond

/-!
Whether to answer an unauthenticated datagram, and with what (`device/probe_reply.rs`).

`probe_reply`: an answer is small, goes where the reply policy allows, is paid for to the byte,
and is no probe: the answers of one responder are never answered by another.
-/

namespace BoringTun

open Imitation

def MAX_REPLY_LEN : Nat := 1024

/-- The responder of a device. The word its budget spends from is state of its own. -/
structure ProbeResponder where
  budget : ProbeBudget
  software : Bytes

/-- A detection that is the configured protocol. -/
def Probe.is (probe : Probe) (configured : AmneziaImitationProtocol) : Bool :=
  probe.protocol = configured

namespace ProbeResponder

variable (responder : ProbeResponder)

/-- The answer to a probe of each kind. SIP has none. -/
def answer (request : Bytes) (target : SocketAddr) (rng : Rng) : Probe → Option (Bytes × Rng)
  | .dns => (servfail request).map (·, rng)
  | .stun => (Stun.bindingSuccess request target responder.software).map (·, rng)
  | .quic => versionNegotiation request rng
  | .sip => none

/-- The reply to `request`, the word of the budget and the generator after it. The clock reads
`now` when the budget is asked. -/
def replyTo (request : Bytes) (src : SocketAddr) (imitation : AmneziaImitationProtocol)
    (word : UInt64) (now : UInt32) (rng : Rng) : Option Bytes × UInt64 × Rng :=
  if imitation = .none then (none, word, rng)
  else
    match replyTarget src .probe with
    | none => (none, word, rng)
    | some target =>
      match detect request with
      | none => (none, word, rng)
      | some probe =>
        if imitation ≠ .auto ∧ !probe.is imitation then (none, word, rng)
        else
          match responder.answer request target rng probe with
          | none => (none, word, rng)
          | some (reply, rng) =>
            if reply.length > MAX_REPLY_LEN then (none, word, rng)
            else
              match responder.budget.tryConsume word reply.length now with
              | (false, word) => (none, word, rng)
              | (true, word) => (some reply, word, rng)

variable {responder : ProbeResponder} {request reply : Bytes} {src target : SocketAddr}
variable {imitation : AmneziaImitationProtocol} {word word' : UInt64} {now : UInt32} {rng rng' : Rng}

/-! ### What is answered -/

/-- An answer is no probe. -/
theorem detect_answer {probe : Probe}
    (h : responder.answer request target rng probe = some (reply, rng')) : detect reply = none := by
  cases probe with
  | dns =>
    obtain ⟨_, hreply, ⟨⟩⟩ := Option.map_eq_some_iff.mp h
    exact detect_servfail hreply
  | stun =>
    obtain ⟨_, hreply, ⟨⟩⟩ := Option.map_eq_some_iff.mp h
    exact Stun.detect_bindingSuccess hreply
  | quic => exact detect_versionNegotiation h
  | sip => cases h

/-- A failed resolution and a list of versions are no longer than what asked for them. -/
theorem length_answer {probe : Probe} (hprobe : probe = .dns ∨ probe = .quic)
    (h : responder.answer request target rng probe = some (reply, rng')) :
    reply.length ≤ request.length := by
  rcases hprobe with rfl | rfl
  · obtain ⟨_, hreply, ⟨⟩⟩ := Option.map_eq_some_iff.mp h
    exact (servfail_eq_some hreply).1
  · exact (versionNegotiation_eq_some h).1

/-- How a call of `replyTo` ends. -/
inductive Ended (responder : ProbeResponder) (request : Bytes) (src : SocketAddr) (word : UInt64)
    (now : UInt32) : Option Bytes × UInt64 × Rng → Prop where
  /-- Without a look at the budget. -/
  | silent (rng : Rng) : Ended responder request src word now (none, word, rng)
  | refused {reply : Bytes} {word' : UInt64} (rng : Rng)
    (hbudget : responder.budget.tryConsume word reply.length now = (false, word')) :
    Ended responder request src word now (none, word', rng)
  | answered {reply : Bytes} {word' : UInt64} {target : SocketAddr} {probe : Probe} {rng rng' : Rng}
    (htarget : replyTarget src .probe = some target) (hprobe : detect request = some probe)
    (hanswer : responder.answer request target rng probe = some (reply, rng'))
    (hsize : reply.length ≤ MAX_REPLY_LEN)
    (hbudget : responder.budget.tryConsume word reply.length now = (true, word')) :
    Ended responder request src word now (some reply, word', rng')

theorem replyTo_ended (responder : ProbeResponder) (request : Bytes) (src : SocketAddr)
    (imitation : AmneziaImitationProtocol) (word : UInt64) (now : UInt32) (rng : Rng) :
    Ended responder request src word now
      (responder.replyTo request src imitation word now rng) := by
  unfold replyTo
  split
  · exact .silent rng
  cases htarget : replyTarget src .probe with
  | none => exact .silent rng
  | some target =>
    dsimp only
    cases hprobe : detect request with
    | none => exact .silent rng
    | some probe =>
      dsimp only
      split
      · exact .silent rng
      cases hanswer : responder.answer request target rng probe with
      | none => exact .silent rng
      | some answered =>
        obtain ⟨reply, rng'⟩ := answered
        dsimp only
        split
        · exact .silent rng'
        next hsize =>
        cases hbudget : responder.budget.tryConsume word reply.length now with
        | mk may word' =>
          cases may with
          | false => exact .refused rng' hbudget
          | true => exact .answered htarget hprobe hanswer (Nat.not_lt.mp hsize) hbudget

/-- What no detector takes is not answered. -/
theorem replyTo_of_detect (h : detect request = none) :
    (responder.replyTo request src imitation word now rng).1 = none := by
  have hended := responder.replyTo_ended request src imitation word now rng
  generalize responder.replyTo request src imitation word now rng = out at hended ⊢
  cases hended with
  | silent => rfl
  | refused => rfl
  | answered _ hprobe _ _ _ =>
    rw [h] at hprobe
    cases hprobe

/-- What holds of a reply, or of silence, and of the word the budget is left with. -/
structure Restrained (responder : ProbeResponder) (request : Bytes) (src : SocketAddr)
    (word : UInt64) (now : UInt32) (reply : Option Bytes) (word' : UInt64) : Prop where
  /-- A reply is charged its length, silence nothing. -/
  charged : responder.budget.Charge word now ((reply.map List.length).getD 0) word'
  /-- The source is one the policy allows, after unmapping. -/
  allowed : ∀ r, reply = some r → mayReplyTo src.unmap .probe = true
  size : ∀ r, reply = some r → r.length ≤ MAX_REPLY_LEN
  attenuates : ∀ r, reply = some r →
    detect request = some .dns ∨ detect request = some .quic → r.length ≤ request.length
  /-- A reply is no probe, so that no responder answers it. -/
  noProbe : ∀ r, reply = some r → detect r = none
  noLoop : ∀ r, reply = some r → ∀ (other : ProbeResponder) (src : SocketAddr)
    (imitation : AmneziaImitationProtocol) (word : UInt64) (now : UInt32) (rng : Rng),
    (other.replyTo r src imitation word now rng).1 = none

/-- **Probe replies.** Whatever is asked, from wherever and however the device imitates, a reply
is at most 1024 bytes, no probe itself, no longer than a DNS or QUIC request, sent where the
policy allows, and charged exactly; a request that gets no reply is charged nothing. -/
theorem probe_reply (responder : ProbeResponder) (request : Bytes) (src : SocketAddr)
    (imitation : AmneziaImitationProtocol) (word : UInt64) (now : UInt32) (rng : Rng) :
    Restrained responder request src word now
      (responder.replyTo request src imitation word now rng).1
      (responder.replyTo request src imitation word now rng).2.1 := by
  have hended := responder.replyTo_ended request src imitation word now rng
  generalize responder.replyTo request src imitation word now rng = out at hended ⊢
  cases hended with
  | silent =>
    exact ⟨.untouched, nofun, nofun, nofun, nofun, nofun⟩
  | refused rng hbudget =>
    exact ⟨ProbeBudget.tryConsume_charge hbudget, nofun, nofun, nofun, nofun, nofun⟩
  | @answered reply word' target probe rng rng' htarget hprobe hanswer hsize hbudget =>
    have hsilent := detect_answer hanswer
    refine ⟨ProbeBudget.tryConsume_charge hbudget, ?_, ?_, ?_, ?_, ?_⟩
    · rintro _ ⟨⟩
      unfold replyTarget at htarget
      split at htarget
      · next hallowed => exact hallowed
      · cases htarget
    · rintro _ ⟨⟩
      exact hsize
    · rintro _ ⟨⟩ hkind
      rw [hprobe] at hkind
      exact length_answer (hkind.imp Option.some.inj Option.some.inj) hanswer
    · rintro _ ⟨⟩
      exact hsilent
    · rintro _ ⟨⟩ other src imitation word now rng
      exact replyTo_of_detect hsilent

end ProbeResponder

end BoringTun
