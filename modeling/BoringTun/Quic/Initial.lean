import BoringTun.Crypto

/-!
A protected QUIC v1 Initial packet around one CRYPTO frame (`noise/quic/varint.rs`,
`crypto.rs` and `initial.rs`).

The header is written in clear, the payload is padded so that the datagram reaches its
target size and sealed under keys that follow from the connection id, and last the packet
number and the low bits of the first byte are masked with a block that samples the
ciphertext.
-/

namespace BoringTun

namespace Quic

/-! ### Variable-length integers -/

namespace Varint

/-- The size of an encoding; values are below `2 ^ 62`. -/
def size (value : Nat) : Nat :=
  if value < 2 ^ 6 then 1 else if value < 2 ^ 14 then 2 else if value < 2 ^ 30 then 4 else 8

def write (value : Nat) : Bytes :=
  if value < 2 ^ 6 then beBytes 1 value
  else if value < 2 ^ 14 then beBytes 2 (value ||| 0x4000)
  else if value < 2 ^ 30 then beBytes 4 (value ||| 0x80000000)
  else beBytes 8 (value ||| 0xc000000000000000)

end Varint

/-! ### Keys -/

def INITIAL_SALT_V1 : Bytes :=
  [0x38, 0x76, 0x2c, 0xf7, 0xf5, 0x59, 0x34, 0xb3, 0x4d, 0x17, 0x9a, 0xe6, 0xa4, 0xc8, 0x0c, 0xad,
    0xcc, 0xbb, 0x7f, 0x0a]

def AES_KEY_LEN : Nat := 16
def AES_GCM_IV_LEN : Nat := 12
def AES_GCM_TAG_LEN : Nat := 16

structure InitialKeys where
  key : Bytes
  iv : Bytes
  hp : Bytes

section

variable (P : Primitives)

def hkdfExtract (salt ikm : Bytes) : Bytes := P.hmacSha256 salt ikm

/-- Blocks of 32 bytes, each over the one before it and its number. -/
def hkdfBlocks (prk info : Bytes) : Nat → Bytes → Nat → Bytes
  | 0, _, _ => []
  | blocks + 1, prev, counter =>
    let block := P.hmacSha256 prk (prev ++ info ++ [UInt8.ofNat counter])
    block ++ hkdfBlocks prk info blocks block (counter + 1)

def hkdfExpand (prk info : Bytes) (len : Nat) : Bytes :=
  (hkdfBlocks P prk info ((len + 31) / 32) [] 1).take len

def hkdfExpandLabel (secret label : Bytes) (len : Nat) : Bytes :=
  let label := ascii "tls13 " ++ label
  hkdfExpand P secret (beBytes 2 len ++ [UInt8.ofNat label.length] ++ label ++ [0]) len

/-- The client's keys, from the salt and the connection id it chose for the server. -/
def deriveInitialKeys (salt dcid : Bytes) : InitialKeys :=
  let initialSecret := hkdfExtract P salt dcid
  let clientSecret := hkdfExpandLabel P initialSecret (ascii "client in") 32
  { key := hkdfExpandLabel P clientSecret (ascii "quic key") AES_KEY_LEN
    iv := hkdfExpandLabel P clientSecret (ascii "quic iv") AES_GCM_IV_LEN
    hp := hkdfExpandLabel P clientSecret (ascii "quic hp") AES_KEY_LEN }

/-- Seal under the nonce that is the iv with the packet number xored into its end. -/
def aes128GcmSeal (key iv pn aad plaintext : Bytes) : Bytes :=
  let off := AES_GCM_IV_LEN - pn.length
  let nonce := iv.take off ++ List.zipWith (· ^^^ ·) (iv.drop off) pn
  P.aes128GcmSeal key nonce aad plaintext

end

/-! ### The packet -/

def VERSION_V1 : Nat := 0x00000001
def FRAME_CRYPTO : UInt8 := 0x06

structure InitialParams where
  dcid : Bytes
  scid : Bytes
  packetNumber : Nat
  pnLen : Nat
  cryptoOffset : Nat
  cryptoPayload : Bytes
  targetSize : Nat

/-- All of the header but the Length field and the packet number. -/
def fixedHeaderLen (dcid scid : Nat) : Nat := 1 + 4 + 1 + dcid + 1 + scid + 1

def headerLen (dcid scid pnLen payloadLen : Nat) : Nat :=
  fixedHeaderLen dcid scid + Varint.size (pnLen + payloadLen + AES_GCM_TAG_LEN) + pnLen

/-- The padding that brings the datagram to its target; the Length field may grow with it,
so it is corrected in rounds, eight at most. -/
def paddingForTarget (dcid scid pnLen basePayload targetSize : Nat) : Nat := go 8 0
where
  go : Nat → Nat → Nat
    | 0, padding => padding
    | rounds + 1, padding =>
      let payload := basePayload + padding
      let total := headerLen dcid scid pnLen payload + payload + AES_GCM_TAG_LEN
      if total = targetSize then padding
      else if total < targetSize then go rounds (padding + (targetSize - total))
      else
        let next := padding - (total - targetSize)
        if next = padding then padding else go rounds next

def encodePn (packetNumber pnLen : Nat) : Bytes := beBytes pnLen packetNumber

/-- Mask the low bits of the first byte and the packet number with the block that encrypts
a sample of the ciphertext. The sample starts four bytes behind the packet number's start
and always lies within the packet, whose payload is padded. -/
def applyHeaderProtection (P : Primitives) (packet hpKey : Bytes) (pnOffset pnLen : Nat) :
    Bytes :=
  let sampleOffset := pnOffset + 4
  let mask := P.aesEcbBlock hpKey (slice packet sampleOffset (sampleOffset + 16))
  let packet := packet.modify 0 (· ^^^ (mask.getD 0 0 &&& 0x0f))
  overwrite packet pnOffset
    (List.zipWith (· ^^^ ·) (slice packet pnOffset (pnOffset + pnLen)) (slice mask 1 (1 + pnLen)))

namespace InitialParams

variable (p : InitialParams)

/-- 1 to 4 bytes. -/
def clampedPnLen : Nat := min (max p.pnLen 1) 4

/-- One CRYPTO frame, then PADDING frames, which are zeros. -/
def payload : Bytes :=
  let frame := FRAME_CRYPTO :: (Varint.write p.cryptoOffset ++
    Varint.write p.cryptoPayload.length ++ p.cryptoPayload)
  frame ++ List.replicate
    (paddingForTarget p.dcid.length p.scid.length p.clampedPnLen frame.length p.targetSize) 0

/-- The long header up to the packet number, with an empty token. -/
def header : Bytes :=
  UInt8.ofNat (0xc0 ||| (p.clampedPnLen - 1)) :: (beBytes 4 VERSION_V1 ++
    [UInt8.ofNat p.dcid.length] ++ p.dcid ++ [UInt8.ofNat p.scid.length] ++ p.scid ++ [0x00] ++
    Varint.write (p.clampedPnLen + p.payload.length + AES_GCM_TAG_LEN))

def buildClientInitial (P : Primitives) : Bytes :=
  let keys := deriveInitialKeys P INITIAL_SALT_V1 p.dcid
  let pnBytes := encodePn p.packetNumber p.clampedPnLen
  let aad := p.header ++ pnBytes
  let ciphertext := aes128GcmSeal P keys.key keys.iv pnBytes aad p.payload
  applyHeaderProtection P (aad ++ ciphertext) keys.hp p.header.length p.clampedPnLen

theorem buildClientInitial_ne_nil (P : Primitives) : p.buildClientInitial P ≠ [] := by
  -- what is overwritten starts behind the header, which is not empty
  have hpos : 0 < p.header.length := Nat.succ_pos _
  simp only [buildClientInitial, applyHeaderProtection, overwrite, ne_eq, List.append_eq_nil_iff,
    List.take_eq_nil_iff, List.modify_eq_nil_iff]
  rintro ⟨⟨hzero | hnil, -⟩, -⟩
  · omega
  · simp [header] at hnil

end InitialParams

end Quic

end BoringTun
