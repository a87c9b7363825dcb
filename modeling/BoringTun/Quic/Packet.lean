import BoringTun.Imitation.Detect
import BoringTun.Lib.Wire
import BoringTun.Quic.Initial

/-!
What a protected Initial packet looks like (`noise/quic/initial.rs`): header protection changes
low bits of the first byte and the packet number, and leaves the rest in place.
-/

namespace BoringTun.Quic

/-! ### Header protection -/

section Protection

variable (P : Primitives) (first : UInt8) (header : Bytes) {pn : Bytes} (ciphertext hpKey : Bytes)

/-- The block a packet is masked with. -/
def protectionMask (packet hpKey : Bytes) (pnOffset : Nat) : Bytes :=
  P.aesEcbBlock hpKey (slice packet (pnOffset + 4) (pnOffset + 4 + 16))

/-- The first byte and the packet number are masked, whatever lies between and behind stays. -/
theorem applyHeaderProtection_eq (hpn : pn.length ≤ 15) :
    applyHeaderProtection P (first :: header ++ pn ++ ciphertext) hpKey (first :: header).length
        pn.length =
      (first ^^^ ((protectionMask P (first :: header ++ pn ++ ciphertext) hpKey
        (first :: header).length).getD 0 0 &&& 0x0f)) :: header ++
      List.zipWith (· ^^^ ·) pn (slice (protectionMask P (first :: header ++ pn ++ ciphertext)
        hpKey (first :: header).length) 1 (1 + pn.length)) ++ ciphertext := by
  unfold applyHeaderProtection
  generalize hmask : protectionMask P (first :: header ++ pn ++ ciphertext) hpKey
    (first :: header).length = mask
  have hlen : mask.length = 16 := by
    rw [← hmask]
    exact P.length_aesEcbBlock _ _
  unfold protectionMask at hmask
  have hfirst : (first :: header ++ pn ++ ciphertext).modify 0 (· ^^^ (mask.getD 0 0 &&& 0x0f)) =
      (first ^^^ (mask.getD 0 0 &&& 0x0f)) :: header ++ pn ++ ciphertext := rfl
  have hslice : slice ((first ^^^ (mask.getD 0 0 &&& 0x0f)) :: header ++ pn ++ ciphertext)
      (first :: header).length ((first :: header).length + pn.length) = pn := by
    rw [List.append_assoc]
    exact slice_between _ _ _ rfl (by omega)
  have hnew : (List.zipWith (· ^^^ ·) pn (slice mask 1 (1 + pn.length))).length = pn.length := by
    rw [List.length_zipWith, length_slice (by omega)]
    omega
  dsimp only
  rw [hmask, hfirst, hslice]
  exact overwrite_append hnew.symm

/-- Low bits only: the form of the header stays. -/
theorem protected_form {n : Nat} (hn : n < 4) (bits : UInt8) :
    (UInt8.ofNat (0xc0 ||| n) ^^^ (bits &&& 0x0f)).toNat &&& 0xc0 = 0xc0 := by
  have hall : ∀ n < 4, ∀ bits < 256,
      (UInt8.ofNat (0xc0 ||| n) ^^^ (UInt8.ofNat bits &&& 0x0f)).toNat &&& 0xc0 = 0xc0 := by
    decide +kernel
  have hbits := hall n hn bits.toNat bits.toNat_lt
  rwa [UInt8.ofNat_toNat] at hbits

end Protection

/-! ### The long header -/

open Imitation in
/-- A long header of version 1 with connection ids of a legal length is parsed. -/
theorem parseLongHeader_eq {first : UInt8} (hform : first.toNat &&& 0xc0 = 0xc0) {dcid scid : Bytes}
    (hdcid : dcid.length ≤ 20) (hscid : scid.length ≤ 20) (rest : Bytes) :
    parseLongHeader ([first, 0, 0, 0, 1, UInt8.ofNat dcid.length] ++
      (dcid ++ (UInt8.ofNat scid.length :: (scid ++ rest)))) = some ⟨1, dcid, scid⟩ := by
  generalize hdata : [first, 0, 0, 0, 1, UInt8.ofNat dcid.length] ++
    (dcid ++ (UInt8.ofNat scid.length :: (scid ++ rest))) = data
  have hlength : data.length = 6 + dcid.length + 1 + scid.length + rest.length := by
    rw [← hdata]
    simp only [List.length_append, List.length_cons, List.length_nil]
    omega
  have hfirst : byteAt data 0 = first.toNat := by
    rw [← hdata]
    rfl
  have hversion : beNat (slice data 1 5) = 1 := by
    rw [← hdata]
    rfl
  have hdcidLen : byteAt data 5 = dcid.length := by
    rw [← hdata]
    exact Nat.mod_eq_of_lt (by omega)
  have hdrop : data.drop (6 + dcid.length) = UInt8.ofNat scid.length :: (scid ++ rest) := by
    rw [← hdata, ← List.append_assoc]
    exact List.drop_left' (by simp; omega)
  have hscidLen : byteAt data (6 + dcid.length) = scid.length := by
    rw [byteAt, List.getD_eq_getElem?_getD, ← Nat.add_zero (6 + dcid.length),
      ← List.getElem?_drop, hdrop]
    exact Nat.mod_eq_of_lt (by omega)
  have hdcidBytes : slice data 6 (6 + dcid.length) = dcid := by
    rw [← hdata]
    exact slice_between _ _ _ rfl (by omega)
  have hscidBytes : slice data (6 + dcid.length + 1) (6 + dcid.length + 1 + scid.length) = scid := by
    rw [Nat.add_assoc (6 + dcid.length), slice_drop, hdrop]
    exact slice_between [_] _ _ rfl (by omega)
  unfold parseLongHeader
  dsimp only
  rw [hfirst, hversion, hdcidLen, hscidLen, hdcidBytes, hscidBytes, if_neg (by omega),
    if_neg (by decide), if_neg, if_neg (by omega), if_neg, if_neg (by omega)]
  · simp [RFC9000_MAX_CID_LEN, hscid]
  · simp [RFC9000_MAX_CID_LEN, hdcid]

/-! ### The packet -/

namespace InitialParams

variable (p : InitialParams) (P : Primitives)

def pnBytes : Bytes := encodePn p.packetNumber p.clampedPnLen

def keys : InitialKeys := deriveInitialKeys P INITIAL_SALT_V1 p.dcid

/-- The payload as it is sent, with its tag. -/
def ciphertext : Bytes :=
  aes128GcmSeal P (p.keys P).key (p.keys P).iv p.pnBytes (p.header ++ p.pnBytes) p.payload

def mask : Bytes :=
  protectionMask P (p.header ++ p.pnBytes ++ p.ciphertext P) (p.keys P).hp p.header.length

theorem clampedPnLen_le : 1 ≤ p.clampedPnLen ∧ p.clampedPnLen ≤ 4 := by
  unfold clampedPnLen
  omega

theorem length_pnBytes : p.pnBytes.length = p.clampedPnLen := length_beBytes _ _

/-- What is on the wire. -/
theorem buildClientInitial_eq : p.buildClientInitial P =
    (UInt8.ofNat (0xc0 ||| (p.clampedPnLen - 1)) ^^^ ((p.mask P).getD 0 0 &&& 0x0f)) ::
      p.header.tail ++
      List.zipWith (· ^^^ ·) p.pnBytes (slice (p.mask P) 1 (1 + p.clampedPnLen)) ++
      p.ciphertext P := by
  have hpn := p.length_pnBytes
  have hclamped := p.clampedPnLen_le
  have hprotected := applyHeaderProtection_eq P (UInt8.ofNat (0xc0 ||| (p.clampedPnLen - 1)))
    p.header.tail (p.ciphertext P) (p.keys P).hp (show p.pnBytes.length ≤ 15 by omega)
  rw [hpn] at hprotected
  exact hprotected

/-- The long header up to the source connection id, and what follows it. -/
theorem exists_longHeader : ∃ (first : UInt8) (rest : Bytes), first.toNat &&& 0xc0 = 0xc0 ∧
    p.buildClientInitial P = [first, 0, 0, 0, 1, UInt8.ofNat p.dcid.length] ++
      (p.dcid ++ (UInt8.ofNat p.scid.length :: (p.scid ++ rest))) := by
  have hclamped := p.clampedPnLen_le
  refine ⟨_, 0x00 :: (Varint.write (p.clampedPnLen + p.payload.length + AES_GCM_TAG_LEN) ++
    (List.zipWith (· ^^^ ·) p.pnBytes (slice (p.mask P) 1 (1 + p.clampedPnLen)) ++
      p.ciphertext P)), protected_form (show p.clampedPnLen - 1 < 4 by omega)
        ((p.mask P).getD 0 0), ?_⟩
  rw [buildClientInitial_eq, header, List.tail_cons]
  simp only [List.append_assoc, List.cons_append, List.nil_append]
  rfl

end InitialParams

end BoringTun.Quic
