import BoringTun.Errors
import BoringTun.Imitation.Detect

/-!
Evidence for auto-imitation (`noise/imitation/auto.rs`): a protocol the peer seems to
imitate is pending for one source until it expires, and is learned only with an
authenticated initiation.
-/

namespace BoringTun

inductive IpAddr where
  | v4 (addr : UInt32)
  | v6 (addr : BitVec 128)
  deriving DecidableEq

def HINT_LIFETIME : Nat := 30 * 10 ^ 9

/-- The refusals that establish nothing about a datagram. -/
def allowsImitationHint : WireGuardError → Bool
  | .invalidMac | .wrongKey | .wrongIndex | .noCurrentSession | .unexpectedPacket
  | .invalidAeadTag => true
  | _ => false

structure Hint where
  protocol : AmneziaImitationProtocol
  received : Nat
  deriving DecidableEq

/-- At clock reading `now`. -/
def Hint.isLive (hint : Hint) (now : Nat) : Bool := now - hint.received < HINT_LIFETIME

structure AutoImitation where
  learned : Option AmneziaImitationProtocol := none
  pending : Option (Option IpAddr × Hint) := none
  warned : Bool := false
  deriving DecidableEq

namespace AutoImitation

def hint (auto : AutoImitation) (now : Nat) (source : Option IpAddr) :
    Option AmneziaImitationProtocol :=
  match auto.pending with
  | some (sender, hint) => if sender = source && hint.isLive now then some hint.protocol else none
  | none => none

/-- Record what a datagram from `source` looks like; whether it looks like anything. -/
def observe (auto : AutoImitation) (now : Nat) (source : Option IpAddr) (datagram : Bytes) :
    Bool × AutoImitation :=
  match Imitation.detect datagram with
  | none => (false, auto)
  | some probe =>
    -- a live hint of the same source is kept
    if auto.learned.isNone && (auto.hint now source).isNone then
      (true, { auto with pending := some (source, ⟨probe.protocol, now⟩) })
    else (true, auto)

def clearPending (auto : AutoImitation) : AutoImitation := { auto with pending := none }

/-- An observation touches the pending hint only. -/
theorem observe_eq (auto : AutoImitation) (now : Nat) (source : Option IpAddr)
    (datagram : Bytes) :
    ∃ pending, (auto.observe now source datagram).2 = { auto with pending } := by
  unfold observe
  split
  · exact ⟨auto.pending, rfl⟩
  · split
    · exact ⟨_, rfl⟩
    · exact ⟨auto.pending, rfl⟩

end AutoImitation

end BoringTun
