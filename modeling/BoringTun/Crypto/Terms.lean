import BoringTun.Crypto
import BoringTun.Lib.TermAlgebra
import BoringTun.Lib.WordStream

/-!
The primitives over the free term algebra. They satisfy every law of `Primitives`
and `Symbolic`, so no result that assumes the laws is empty.

On the byte side the wire forms are constant, a transport message carries its key
and counter as a tag, and the keystream depends on key, nonce and position.
`namedPrimitives` gives a few terms wire forms that are read back, enough for whole
handshakes between tunnels.
-/

namespace BoringTun

/-- A number for a term, for the tags of sealed bytes. -/
def Term.code : Term → Nat
  | .raw bytes => 9 * leNat bytes
  | .publicOf secret => 9 * secret + 1
  | .shared lo hi => 9 * (lo + 31 * hi) + 2
  | .sharedRaw secret point => 9 * (secret + 31 * point.code) + 3
  | .hash a b => 9 * (a.code + 31 * b.code) + 4
  | .mac key data => 9 * (key.code + 31 * data.code) + 5
  | .mac2 key a b => 9 * (key.code + 31 * a.code + 961 * b.code) + 6
  | .sealed key nonce message aad =>
    9 * (key.code + nonce + 31 * message.code + 961 * aad.code) + 7
  | .stamp secs nano => 9 * (secs + 31 * nano) + 8

/-- The tag of a message sealed under a key and a counter. -/
def termTag (key : Term) (counter : Nat) (message : Bytes) : Bytes :=
  leBytes 16 (key.code + 65537 * counter + 257 * leNat message)

def termOpen (key : Term) (counter : Nat) (ciphertext : Bytes) : Option Bytes :=
  let message := ciphertext.take (ciphertext.length - 16)
  if message ++ termTag key counter message = ciphertext then some message else none

theorem termOpen_append_termTag (key : Term) (counter : Nat) (message : Bytes) :
    termOpen key counter (message ++ termTag key counter message) = some message := by
  simp [termOpen, termTag]

theorem length_of_termOpen {key : Term} {counter : Nat} {ciphertext message : Bytes}
    (h : termOpen key counter ciphertext = some message) :
    message.length + 16 = ciphertext.length := by
  unfold termOpen at h
  simp only at h
  split at h
  · next heq =>
    cases h
    conv_rhs => rw [← heq]
    simp [termTag]
  · cases h

def termPrimitives : Primitives where
  Secret := Nat
  Value := Term
  decEqValue := inferInstance
  value := .raw
  encode n _ := List.replicate n 0
  publicKey := .publicOf
  diffieHellman := Term.diffieHellman
  b2sHash := .hash
  b2sHmac := .mac
  b2sHmac2 := .mac2
  b2sKeyedMac16 key data := termTag key 0 data
  b2sMac24 key data := leBytes 24 (key.code + 257 * leNat data)
  aeadSeal := .sealed
  aeadOpen := Term.openSealed
  stampValue s := .stamp s.1 s.2
  parseStamp := Term.readStamp
  xSeal key nonce message aad := message ++ termTag key (leNat nonce + leNat aad) message
  xOpen key nonce ciphertext aad := termOpen key (leNat nonce + leNat aad) ciphertext
  sealInPlace key counter message := message ++ termTag key counter message
  openInPlace := termOpen
  keystream key nonce position := UInt8.ofNat (leNat key + 7 * leNat nonce + 13 * position)
  hmacSha1 key data := leBytes 20 (leNat key + 257 * leNat data)
  hmacSha256 key data := leBytes 32 (leNat key + 257 * leNat data)
  aes128GcmSeal key nonce aad message :=
    message ++ leBytes 16 (leNat key + leNat nonce + leNat aad + 257 * leNat message)
  aesEcbBlock key block := leBytes 16 (leNat key + 257 * leNat block)
  hostSoftwareWord := 0
  length_encode := by simp
  length_b2sKeyedMac16 := by simp [termTag]
  length_b2sMac24 := by simp
  length_xSeal := by simp [termTag]
  length_hmacSha1 := by simp
  length_hmacSha256 := by simp
  length_aes128GcmSeal := by simp
  length_aesEcbBlock := by simp
  length_sealInPlace := by simp [termTag]
  openInPlace_seal := termOpen_append_termTag
  length_openInPlace _ _ _ _ := length_of_termOpen

theorem termPrimitives_symbolic : Symbolic termPrimitives where
  dh_comm := Term.diffieHellman_comm
  dh_inj := Term.diffieHellman_inj
  b2sHash_inj := Term.hash.inj
  b2sHmac_inj := Term.mac.inj
  b2sHmac2_inj := Term.mac2.inj
  aeadOpen_seal := Term.openSealed_sealed
  aeadOpen_only := Term.openSealed_only
  parseStamp_stamp _ := rfl

/-- The same primitives, with a wire form for the terms of `names`: the number of the name. -/
def namedPrimitives (names : List Term) : Primitives :=
  { termPrimitives with
    value := fun bytes => match bytes with
      | 255 :: number :: _ => names.getD number.toNat (.raw bytes)
      | _ => .raw bytes
    encode := fun n term => ([255, UInt8.ofNat (names.idxOf term)] ++ List.replicate n 0).take n
    length_encode := by
      intro n term
      rw [List.length_take, List.length_append, List.length_replicate]
      exact Nat.min_eq_left (Nat.le_add_left _ _) }

theorem namedPrimitives_symbolic (names : List Term) : Symbolic (namedPrimitives names) where
  dh_comm := Term.diffieHellman_comm
  dh_inj := Term.diffieHellman_inj
  b2sHash_inj := Term.hash.inj
  b2sHmac_inj := Term.mac.inj
  b2sHmac2_inj := Term.mac2.inj
  aeadOpen_seal := Term.openSealed_sealed
  aeadOpen_only := Term.openSealed_only
  parseStamp_stamp _ := rfl

/-- A clock that advances by one nanosecond a reading, and private keys in order. -/
def termEnv (start firstSecret : Nat) : Env termPrimitives where
  clock n := start + n
  entropy n := firstSecret + n

/-- The generator whose words are all zero. -/
def zeroRng : Rng where
  words _ := 0
  pos := 0
  gap _ := 0
  fair _ := ⟨0, Nat.le_refl 0, by decide⟩

end BoringTun
