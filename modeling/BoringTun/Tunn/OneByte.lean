import BoringTun.Crypto.Terms
import BoringTun.Tunn.Run

/-!
Primitives on single bytes, and tunnels over them: weak, but computable from end to end.
Values travel through their wire form, a shared secret is shared, and what one key seals
another does not open to the same bytes. Concrete runs of two tunnels are evaluated here,
each end fed with what the other one wrote.
-/

namespace BoringTun

def byteTag (key : UInt8) : Bytes := List.replicate 16 key

/-- Open what ends in the tag of the key. -/
def byteOpen (key : UInt8) (ciphertext : Bytes) : Option Bytes :=
  let message := ciphertext.take (ciphertext.length - 16)
  if message ++ byteTag key = ciphertext then some message else none

theorem byteOpen_append_byteTag (key : UInt8) (message : Bytes) :
    byteOpen key (message ++ byteTag key) = some message := by
  simp [byteOpen, byteTag]

theorem length_of_byteOpen {key : UInt8} {ciphertext message : Bytes}
    (h : byteOpen key ciphertext = some message) : message.length + 16 = ciphertext.length := by
  unfold byteOpen at h
  dsimp only at h
  split at h
  · next heq =>
    cases h
    conv_rhs => rw [← heq]
    simp [byteTag]
  · cases h

def bytePrimitives : Primitives where
  Secret := UInt8
  Value := UInt8
  decEqValue := inferInstance
  value bytes := bytes.headD 0
  encode n v := List.replicate n v
  publicKey secret := 3 * secret
  diffieHellman secret point := secret * point
  b2sHash a b := 5 * a + 7 * b + 1
  b2sHmac key data := 11 * key + 13 * data + 2
  b2sHmac2 key a b := 17 * key + 19 * a + 23 * b + 3
  b2sKeyedMac16 key _ := byteTag key
  b2sMac24 key _ := List.replicate 24 key
  aeadSeal key _ message aad := message + key + aad
  aeadOpen key _ ciphertext aad := some (ciphertext - key - aad)
  stampValue s := UInt8.ofNat (s.1 + s.2)
  parseStamp v := (v.toNat, 0)
  xSeal key _ message _ := message ++ byteTag key
  xOpen key _ ciphertext _ := byteOpen key ciphertext
  sealInPlace key _ message := message ++ byteTag key
  openInPlace key _ ciphertext := byteOpen key ciphertext
  keystream _ _ _ := 0
  hmacSha1 _ _ := List.replicate 20 0
  hmacSha256 _ _ := List.replicate 32 0
  aes128GcmSeal _ _ _ message := message ++ byteTag 0
  aesEcbBlock _ _ := byteTag 0
  hostSoftwareWord := 0
  length_encode := by simp
  length_b2sKeyedMac16 := by simp [byteTag]
  length_b2sMac24 := by simp
  length_xSeal := by simp [byteTag]
  length_hmacSha1 := by simp
  length_hmacSha256 := by simp
  length_aes128GcmSeal := by simp [byteTag]
  length_aesEcbBlock := by simp [byteTag]
  length_sealInPlace := by simp [byteTag]
  openInPlace_seal _ _ := byteOpen_append_byteTag _
  length_openInPlace _ _ _ _ := length_of_byteOpen

/-- A clock that stands at a second, and one private key. -/
def byteEnv (second : Nat) (secret : UInt8) : Env bytePrimitives where
  clock _ := second * 10 ^ 9
  entropy _ := secret

/-! ### Tunnels -/

def byteSeed : TunnSeed bytePrimitives where
  stamper := ⟨0, 0⟩
  handshakeRng := .ok zeroRng
  timeStarted := 0
  jitterRng := zeroRng
  limiter :=
    { nonceKey := (0 : UInt8), secretKey := (0 : UInt8), startTime := 0, lastReset := 0
      sources := fun _ => 0, proven := fun _ => 0 }

/-- A tunnel on default settings, without cookies, padding or prefixes. -/
def byteTunn (staticPrivate peerStaticPublic : UInt8) (index : UInt32) : Tunn bytePrimitives :=
  (Tunn.newWithObfuscation (P := bytePrimitives) staticPrivate peerStaticPublic none none index none
    .default {} byteSeed).toOption.get rfl

theorem byteTunn_isNew (staticPrivate peerStaticPublic : UInt8) (index : UInt32) :
    (byteTunn staticPrivate peerStaticPublic index).IsNew :=
  ⟨staticPrivate, peerStaticPublic, none, none, index, none, .default, {}, byteSeed, rfl⟩

/-- The two ends of a tunnel. -/
def byteHome : Tunn bytePrimitives := byteTunn 1 6 1

@[inherit_doc byteHome]
def bytePeer : Tunn bytePrimitives := byteTunn 2 3 2

/-- An output buffer. -/
def byteBuffer : Bytes := List.replicate 200 0

/-- The datagram a call wrote. -/
def TunnResult.datagram : TunnResult → Bytes
  | .writeToNetwork packet => packet
  | _ => []

def byteReceive (datagram : Bytes) : Op bytePrimitives :=
  .decapsulate none datagram byteBuffer .UNBOUNDED

/-- Hand a datagram to a tunnel. -/
def Tunn.deliver (t : Tunn bytePrimitives) (env : Env bytePrimitives) (datagram : Bytes) :
    TunnResult × Tunn bytePrimitives :=
  t.run env (byteReceive datagram)

/-- What a handshake the peer starts put on the wire, and the two ends after it. -/
structure ByteHandshake where
  initiation : Bytes
  /-- The peer's confirmation, not delivered yet. -/
  keepalive : Bytes
  home : Tunn bytePrimitives
  peer : Tunn bytePrimitives

def byteHandshake (home peer : Tunn bytePrimitives) (second : Nat) (secret : UInt8) :
    ByteHandshake :=
  let (initiation, peer) := peer.run (byteEnv second secret)
    (.formatHandshakeInitiation byteBuffer true .UNBOUNDED)
  let (response, home) := home.deliver (byteEnv second (secret + 1)) initiation.datagram
  let (keepalive, peer) := peer.deliver (byteEnv second secret) response.datagram
  { initiation := initiation.datagram, keepalive := keepalive.datagram, home, peer }

end BoringTun
