/-!
The errors of the noise layer (`noise/errors.rs`), in the order of their
discriminants.
-/

namespace BoringTun

inductive WireGuardError where
  | destinationBufferTooSmall
  | incorrectPacketLength
  | unexpectedPacket
  | wrongPacketType
  | wrongIndex
  | wrongKey
  | invalidTai64nTimestamp
  | wrongTai64nTimestamp
  | invalidMac
  | invalidAeadTag
  | invalidCounter
  | duplicateCounter
  | invalidPacket
  | noCurrentSession
  | lockFailed
  | connectionExpired
  | underLoad
  | packetQueueFull
  | outputBudgetExceeded
  | invalidPacketInfo
  deriving DecidableEq, Repr

/-- `Result<T, WireGuardError>`. -/
abbrev Result (α : Type) := Except WireGuardError α

end BoringTun
