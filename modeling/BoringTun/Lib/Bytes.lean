import Mathlib.Algebra.Order.Ring.Nat
import Mathlib.Data.List.Basic
import Mathlib.Tactic.Common

/-!
Byte strings: little- and big-endian integers, slices, and writing into a buffer.

* `leNat_leBytes`, `leBytes_leNat`: the codec of a fixed width is a bijection;
* `overwrite`: writing `new` at `pos` of a buffer.
-/

namespace BoringTun

abbrev Bytes := List UInt8

/-- The bytes of an ASCII text. -/
def ascii (s : String) : Bytes := s.toList.map fun c => UInt8.ofNat c.toNat

/-! ### Integers -/

def leNat : Bytes → Nat
  | [] => 0
  | b :: bs => b.toNat + 256 * leNat bs

/-- The low `width` bytes of `n`, least significant first. -/
def leBytes : Nat → Nat → Bytes
  | 0, _ => []
  | width + 1, n => UInt8.ofNat n :: leBytes width (n / 256)

def beNat (bs : Bytes) : Nat := leNat bs.reverse

def beBytes (width n : Nat) : Bytes := (leBytes width n).reverse

@[simp] theorem length_leBytes (width n : Nat) : (leBytes width n).length = width := by
  induction width generalizing n with
  | zero => rfl
  | succ width ih => simp [leBytes, ih]

@[simp] theorem length_beBytes (width n : Nat) : (beBytes width n).length = width := by
  simp [beBytes]

theorem leNat_lt (bs : Bytes) : leNat bs < 256 ^ bs.length := by
  induction bs with
  | nil => simp [leNat]
  | cons b bs ih =>
    have hb := b.toNat_lt
    simp only [leNat, List.length_cons, Nat.pow_succ]
    omega

theorem leNat_leBytes {width n : Nat} (h : n < 256 ^ width) : leNat (leBytes width n) = n := by
  induction width generalizing n with
  | zero =>
    simp only [Nat.pow_zero] at h
    simp only [leBytes, leNat]
    omega
  | succ width ih =>
    have hdiv : n / 256 < 256 ^ width := by
      rw [Nat.div_lt_iff_lt_mul (by decide)]
      rwa [Nat.pow_succ] at h
    simp only [leBytes, leNat, ih hdiv, UInt8.toNat_ofNat']
    omega

theorem leBytes_leNat (bs : Bytes) : leBytes bs.length (leNat bs) = bs := by
  induction bs with
  | nil => rfl
  | cons b bs ih =>
    have hb := b.toNat_lt
    have hdiv : (b.toNat + 256 * leNat bs) / 256 = leNat bs := by omega
    have hmod : UInt8.ofNat (b.toNat + 256 * leNat bs) = b := by
      rw [← UInt8.toNat_inj, UInt8.toNat_ofNat']
      omega
    simp only [List.length_cons, leBytes, leNat, hdiv, hmod, ih]

theorem beNat_beBytes {width n : Nat} (h : n < 256 ^ width) : beNat (beBytes width n) = n := by
  simp [beNat, beBytes, leNat_leBytes h]

/-! ### Slices -/

/-- `bs[lo..hi]`. -/
def slice (bs : Bytes) (lo hi : Nat) : Bytes := (bs.drop lo).take (hi - lo)

theorem length_slice {bs : Bytes} {lo hi : Nat} (h : hi ≤ bs.length) :
    (slice bs lo hi).length = hi - lo := by
  simp only [slice, List.length_take, List.length_drop]
  omega

/-- The slice of a concatenation that starts where its second part starts. -/
theorem slice_append_right (xs ys : Bytes) {lo hi : Nat} (h : xs.length = lo) :
    slice (xs ++ ys) lo hi = ys.take (hi - lo) := by
  simp [slice, ← h]

theorem slice_between {lo hi : Nat} (front mid back : Bytes) (hfront : front.length = lo)
    (hmid : mid.length = hi - lo) : slice (front ++ (mid ++ back)) lo hi = mid := by
  rw [slice_append_right _ _ hfront, List.take_left' hmid]

/-- The slice of a concatenation that ends within its first part. -/
theorem slice_append_left (xs ys : Bytes) {lo hi : Nat} (h : hi ≤ xs.length) :
    slice (xs ++ ys) lo hi = slice xs lo hi := by
  by_cases hlo : lo ≤ xs.length
  · rw [slice, slice, List.drop_append_of_le_length hlo, List.take_append_of_le_length]
    rw [List.length_drop]
    omega
  · rw [slice, slice, Nat.sub_eq_zero_of_le (by omega), List.take_zero, List.take_zero]

theorem take_slice {bs : Bytes} {lo hi n : Nat} (h : lo + n ≤ hi) :
    (slice bs lo hi).take n = slice bs lo (lo + n) := by
  rw [slice, List.take_take, Nat.min_eq_left (Nat.le_sub_of_add_le' h), slice,
    Nat.add_sub_cancel_left]

/-! ### Writing -/

/-- `bs` with `new` written at `pos`. -/
def overwrite (bs : Bytes) (pos : Nat) (new : Bytes) : Bytes :=
  bs.take pos ++ new ++ bs.drop (pos + new.length)

variable {bs new : Bytes} {pos : Nat}

theorem length_overwrite (h : pos + new.length ≤ bs.length) :
    (overwrite bs pos new).length = bs.length := by
  simp only [overwrite, List.length_append, List.length_take, List.length_drop]
  omega

/-- A write that starts within the bytes, or right behind them, may lengthen them. -/
theorem length_overwrite_max (new : Bytes) (h : pos ≤ bs.length) :
    (overwrite bs pos new).length = max bs.length (pos + new.length) := by
  simp only [overwrite, List.length_append, List.length_take, List.length_drop]
  omega

/-- Such a write into a longer run of bytes takes from those behind what it lengthens. -/
theorem overwrite_append_left (new rest : Bytes) (h : pos ≤ bs.length) :
    overwrite (bs ++ rest) pos new =
      overwrite bs pos new ++ rest.drop ((overwrite bs pos new).length - bs.length) := by
  rw [length_overwrite_max new h]
  simp only [overwrite, List.take_append_of_le_length h, List.drop_append, List.append_assoc]
  congr 4
  omega

theorem overwrite_length (bs new : Bytes) : overwrite bs bs.length new = bs ++ new := by
  simp [overwrite]

/-- What stands before the written part and after it. -/
theorem overwrite_append {xs ys zs : Bytes} (hlen : ys.length = new.length) :
    overwrite (xs ++ ys ++ zs) xs.length new = xs ++ new ++ zs := by
  rw [overwrite, ← hlen, ← List.length_append, List.drop_left, List.append_assoc xs,
    List.take_left]

/-! ### Masking -/

/-- `bs` combined with a stream from its first byte on. -/
def xorStream (stream : Nat → UInt8) (bs : Bytes) : Bytes :=
  bs.mapIdx fun i byte => byte ^^^ stream i

/-- The first `n` bytes masked, the rest as they are. -/
def maskFirst (stream : Nat → UInt8) (n : Nat) (bs : Bytes) : Bytes :=
  xorStream stream (bs.take n) ++ bs.drop n

@[simp] theorem length_xorStream (stream : Nat → UInt8) (bs : Bytes) :
    (xorStream stream bs).length = bs.length := by
  simp [xorStream]

/-- Masking twice is not masking. -/
@[simp] theorem xorStream_xorStream (stream : Nat → UInt8) (bs : Bytes) :
    xorStream stream (xorStream stream bs) = bs := by
  apply List.ext_getElem
  · simp
  · intro i h₁ h₂
    simp only [xorStream, List.getElem_mapIdx, UInt8.xor_assoc, UInt8.xor_self, UInt8.xor_zero]

theorem take_xorStream (stream : Nat → UInt8) (n : Nat) (bs : Bytes) :
    (xorStream stream bs).take n = xorStream stream (bs.take n) := by
  apply List.ext_getElem
  · simp
  · intro i h₁ h₂
    simp [xorStream]

@[simp] theorem length_maskFirst (stream : Nat → UInt8) (n : Nat) (bs : Bytes) :
    (maskFirst stream n bs).length = bs.length := by
  simp only [maskFirst, List.length_append, length_xorStream, List.length_take, List.length_drop]
  omega

theorem take_maskFirst (stream : Nat → UInt8) {n len : Nat} {bs : Bytes} (hle : n ≤ len)
    (hlen : len ≤ bs.length) : (maskFirst stream len bs).take n = xorStream stream (bs.take n) := by
  rw [maskFirst, List.take_append_of_le_length, take_xorStream, List.take_take, Nat.min_eq_left hle]
  rw [length_xorStream, List.length_take, Nat.min_eq_left hlen]
  exact hle

theorem maskFirst_maskFirst (stream : Nat → UInt8) {len : Nat} {bs : Bytes}
    (hlen : len ≤ bs.length) : maskFirst stream len (maskFirst stream len bs) = bs := by
  have hfront : (xorStream stream (bs.take len)).length = len := by
    rw [length_xorStream, List.length_take, Nat.min_eq_left hlen]
  rw [maskFirst, take_maskFirst _ (Nat.le_refl len) hlen, xorStream_xorStream, maskFirst,
    List.drop_left' hfront, List.take_append_drop]

/-- A stream is read off a masked run of zeros, and takes the mask off any bytes. -/
theorem zipWith_xorStream (stream : Nat → UInt8) (bs : Bytes) :
    List.zipWith (· ^^^ ·) (xorStream stream bs)
      (xorStream stream (List.replicate bs.length 0)) = bs := by
  apply List.ext_getElem
  · simp
  · intro i h₁ h₂
    simp only [xorStream, List.getElem_zipWith, List.getElem_mapIdx, List.getElem_replicate,
      UInt8.zero_xor, UInt8.xor_assoc, UInt8.xor_self, UInt8.xor_zero]

end BoringTun
