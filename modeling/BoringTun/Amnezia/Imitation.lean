/-!
The protocols AmneziaWG traffic can be made to look like (`noise/amnezia.rs`).
-/

namespace BoringTun

inductive AmneziaImitationProtocol where
  | none | dns | quic | sip | stun | auto
  deriving DecidableEq, Repr

inductive AmneziaImitationBrowser where
  | default | chrome | firefox | curl | random
  deriving DecidableEq, Repr

end BoringTun
