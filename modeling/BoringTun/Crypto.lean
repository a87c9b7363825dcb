import BoringTun.Lib.Bytes
import Mathlib.Data.Stream.Defs

/-!
The cryptography and the operating system the noise layer calls, as parameters.

* `Primitives`: x25519, BLAKE2s, the AEADs, ChaCha20, and what cover traffic signs with.
  What the handshake mixes is a `Value`, what travels is `Bytes`; `encode` is the
  fixed-width wire form of a value. The laws among the fields are those of lengths and of
  opening what was sealed;
* `Symbolic`: the primitives as injective symbols, for the results that reason about
  who can have produced a message. A fixed-width encoding cannot be injective on
  symbols, so the two levels are kept apart;
* `Env`: the clock readings and the entropy the calls to come will see.
-/

namespace BoringTun

structure Primitives where
  /-- x25519 private keys. -/
  Secret : Type
  /-- Keys, digests and ciphertexts of the handshake. -/
  Value : Type
  decEqValue : DecidableEq Value
  /-- The value a byte string stands for. -/
  value : Bytes → Value
  /-- The wire form of a value in a field of the given width. -/
  encode : Nat → Value → Bytes
  publicKey : Secret → Value
  diffieHellman : Secret → Value → Value
  b2sHash : Value → Value → Value
  b2sHmac : Value → Value → Value
  b2sHmac2 : Value → Value → Value → Value
  b2sKeyedMac16 : Value → Bytes → Bytes
  b2sMac24 : Value → Bytes → Bytes
  /-- `aead_chacha20_seal` of the handshake: key, counter, data, associated data. -/
  aeadSeal : Value → Nat → Value → Value → Value
  aeadOpen : Value → Nat → Value → Value → Option Value
  /-- The 12 bytes of a timestamp and back: seconds and nanoseconds. -/
  stampValue : Nat × Nat → Value
  parseStamp : Value → Nat × Nat
  /-- XChaCha20-Poly1305 of cookie replies: key, nonce, message, associated data. -/
  xSeal : Value → Bytes → Bytes → Bytes → Bytes
  xOpen : Value → Bytes → Bytes → Bytes → Option Bytes
  /-- ChaCha20-Poly1305 of transport messages, with empty associated data. -/
  sealInPlace : Value → Nat → Bytes → Bytes
  openInPlace : Value → Nat → Bytes → Option Bytes
  /-- The ChaCha20 keystream of a key and a 12-byte nonce, by position. -/
  keystream : Bytes → Bytes → Nat → UInt8
  /-- The HMACs and AES-128 the imitated protocols carry. -/
  hmacSha1 : Bytes → Bytes → Bytes
  hmacSha256 : Bytes → Bytes → Bytes
  /-- AES-128-GCM with its tag appended: key, nonce, associated data, message. -/
  aes128GcmSeal : Bytes → Bytes → Bytes → Bytes → Bytes
  aesEcbBlock : Bytes → Bytes → Bytes
  /-- The word the process drew, once, for the STUN software it announces. -/
  hostSoftwareWord : UInt32
  length_encode : ∀ n v, (encode n v).length = n
  length_b2sKeyedMac16 : ∀ k d, (b2sKeyedMac16 k d).length = 16
  length_b2sMac24 : ∀ k d, (b2sMac24 k d).length = 24
  length_xSeal : ∀ k n m a, (xSeal k n m a).length = m.length + 16
  length_hmacSha1 : ∀ k d, (hmacSha1 k d).length = 20
  length_hmacSha256 : ∀ k d, (hmacSha256 k d).length = 32
  length_aes128GcmSeal : ∀ k n a m, (aes128GcmSeal k n a m).length = m.length + 16
  length_aesEcbBlock : ∀ k b, (aesEcbBlock k b).length = 16
  length_sealInPlace : ∀ k n m, (sealInPlace k n m).length = m.length + 16
  openInPlace_seal : ∀ k n m, openInPlace k n (sealInPlace k n m) = some m
  length_openInPlace : ∀ k n c m, openInPlace k n c = some m → m.length + 16 = c.length

attribute [instance] Primitives.decEqValue
attribute [simp] Primitives.length_encode Primitives.length_b2sKeyedMac16
  Primitives.length_b2sMac24 Primitives.length_xSeal Primitives.length_hmacSha1
  Primitives.length_hmacSha256 Primitives.length_aes128GcmSeal Primitives.length_aesEcbBlock
  Primitives.length_sealInPlace Primitives.openInPlace_seal

/-- The primitives as symbols: Diffie-Hellman commutes and determines the point, hashes
and MACs are injective, and an AEAD opens exactly under the key, counter and associated
data it was sealed with. -/
structure Symbolic (P : Primitives) : Prop where
  dh_comm : ∀ a b, P.diffieHellman a (P.publicKey b) = P.diffieHellman b (P.publicKey a)
  dh_inj : ∀ {a x y}, P.diffieHellman a x = P.diffieHellman a y → x = y
  b2sHash_inj : ∀ {a b c d}, P.b2sHash a b = P.b2sHash c d → a = c ∧ b = d
  b2sHmac_inj : ∀ {a b c d}, P.b2sHmac a b = P.b2sHmac c d → a = c ∧ b = d
  b2sHmac2_inj : ∀ {a b c d e f}, P.b2sHmac2 a b c = P.b2sHmac2 d e f → a = d ∧ b = e ∧ c = f
  aeadOpen_seal : ∀ k n m a, P.aeadOpen k n (P.aeadSeal k n m a) a = some m
  aeadOpen_only : ∀ {k n k' n' m m' a a'},
    P.aeadOpen k n (P.aeadSeal k' n' m' a') a = some m → k = k' ∧ n = n' ∧ a = a'
  parseStamp_stamp : ∀ s, P.parseStamp (P.stampValue s) = s

/-- What the calls to come read from the operating system. Instants are nanoseconds;
nothing is assumed of the clock, which may step back. -/
structure Env (P : Primitives) where
  clock : Stream' Nat
  entropy : Stream' P.Secret

namespace Env

variable {P : Primitives}

/-- `Instant::now()`. -/
def now (env : Env P) : Nat := env.clock 0

/-- The readings after the next one. -/
def tick (env : Env P) : Env P := { env with clock := fun n => env.clock (n + 1) }

/-- A private key drawn from the operating system. -/
def draw (env : Env P) : P.Secret := env.entropy 0

def drawn (env : Env P) : Env P := { env with entropy := fun n => env.entropy (n + 1) }

end Env

end BoringTun
