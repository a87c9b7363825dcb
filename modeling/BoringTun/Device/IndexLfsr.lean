import BoringTun.Lib.Orbit
import Mathlib.Data.Nat.Bitwise

/-!
The generator of peer indices (`IndexLfsr` in `device/mod.rs`): a shift register of 24 bits
that stops with a panic when it has come round.

`IndexLfsr.next_fresh`: what it hands out has 24 bits and was not handed out before.
-/

namespace BoringTun

def LFSR_POLY : UInt32 := 0xd80000

/-- What the register holds: 24 bits, not all zero. -/
abbrev LfsrWord := { x : UInt32 // 0 < x.toNat ∧ x.toNat < 2 ^ 24 }

namespace LfsrWord

/-- Shift one bit out, and flip the bits of the polynomial if it was set. -/
def shift (x : UInt32) : UInt32 := (x >>> 1) ^^^ ((0 - (x &&& 1)) &&& LFSR_POLY)

theorem toNat_shift (x : UInt32) :
    (shift x).toNat = x.toNat / 2 ^^^ (if x.toNat % 2 = 1 then 0xd80000 else 0) := by
  have hbit : x &&& 1 = if x.toNat % 2 = 1 then 1 else 0 := by
    apply UInt32.toNat_inj.mp
    rw [UInt32.toNat_and]
    split
    · next h => simpa using h
    · next h => simpa using h
  unfold shift
  rw [hbit, UInt32.toNat_xor]
  congr 1
  split
  · rfl
  · rfl

/-- A word with its low bit set gets the top bit of the polynomial. -/
theorem le_xor_poly {k : Nat} (hk : k < 2 ^ 23) : 2 ^ 23 ≤ k ^^^ 0xd80000 ∧ k ^^^ 0xd80000 < 2 ^ 24 := by
  constructor
  · have htop : (k ^^^ 0xd80000).testBit 23 = true := by
      rw [Nat.testBit_xor, Nat.testBit_lt_two_pow hk]
      decide
    exact Nat.ge_two_pow_of_testBit htop
  · exact Nat.xor_lt_two_pow (by omega) (by decide)

theorem shift_mem {x : UInt32} (h : 0 < x.toNat ∧ x.toNat < 2 ^ 24) :
    0 < (shift x).toNat ∧ (shift x).toNat < 2 ^ 24 := by
  rw [toNat_shift]
  split
  · have := le_xor_poly (k := x.toNat / 2) (by omega)
    omega
  · rw [Nat.xor_zero]
    omega

def next (x : LfsrWord) : LfsrWord := ⟨shift x.1, shift_mem x.2⟩

theorem next_injective : Function.Injective next := by
  rintro ⟨x, hx⟩ ⟨y, hy⟩ heq
  have hshift : (shift x).toNat = (shift y).toNat := congrArg (fun w : LfsrWord => w.1.toNat) heq
  rw [toNat_shift, toNat_shift] at hshift
  have hxlow := le_xor_poly (k := x.toNat / 2) (by omega)
  have hylow := le_xor_poly (k := y.toNat / 2) (by omega)
  have hnat : x.toNat = y.toNat := by
    split at hshift <;> split at hshift
    · have := Nat.xor_left_injective hshift
      omega
    · rw [Nat.xor_zero] at hshift
      omega
    · rw [Nat.xor_zero] at hshift
      omega
    · rw [Nat.xor_zero, Nat.xor_zero] at hshift
      omega
  exact Subtype.ext (UInt32.toNat_inj.mp hnat)

/-- The index a word stands for. -/
def index (mask x : LfsrWord) : UInt32 := (x.1 - 1) ^^^ mask.1

theorem toNat_index (mask x : LfsrWord) :
    (index mask x).toNat = (x.1.toNat - 1) ^^^ mask.1.toNat := by
  have hle : (1 : UInt32) ≤ x.1 := by
    rw [UInt32.le_iff_toNat_le]
    exact x.2.1
  rw [index, UInt32.toNat_xor, UInt32.toNat_sub_of_le _ _ hle]
  rfl

theorem index_lt (mask x : LfsrWord) : (index mask x).toNat < 2 ^ 24 := by
  rw [toNat_index]
  exact Nat.xor_lt_two_pow (by have := x.2; omega) mask.2.2

theorem index_injective (mask : LfsrWord) : Function.Injective (index mask) := by
  intro x y heq
  have hnat := congrArg UInt32.toNat heq
  rw [toNat_index, toNat_index] at hnat
  have hsub := Nat.xor_left_injective hnat
  have hx := x.2.1
  have hy := y.2.1
  exact Subtype.ext (UInt32.toNat_inj.mp (by omega))

end LfsrWord

/-- The register, some steps from where it started and not back there yet. -/
structure IndexLfsr where
  initial : LfsrWord
  lfsr : LfsrWord
  mask : LfsrWord
  along : ∃ n, Along LfsrWord.next initial n lfsr

namespace IndexLfsr

/-- `IndexLfsr::default()`, on the words it draws. -/
def new (seed mask : LfsrWord) : IndexLfsr := ⟨seed, seed, mask, 0, .zero _ _⟩

/-- The next index; none when the register has come round, which is a panic. -/
def next (g : IndexLfsr) : Option (UInt32 × IndexLfsr) :=
  let lfsr := g.lfsr.next
  if haway : lfsr = g.initial then none
  else some (LfsrWord.index g.mask g.lfsr, { g with
    lfsr := lfsr
    along := g.along.imp' (· + 1) fun _ hn => hn.succ haway })

/-- Handed out before. -/
def Issued (g : IndexLfsr) (index : UInt32) : Prop :=
  ∃ n k, Along LfsrWord.next g.initial n g.lfsr ∧ k < n ∧
    index = LfsrWord.index g.mask (LfsrWord.next^[k] g.initial)

/-- What is handed out has 24 bits and was not handed out before. -/
theorem next_fresh {g g' : IndexLfsr} {index : UInt32} (h : g.next = some (index, g')) :
    index.toNat < 2 ^ 24 ∧ ¬ g.Issued index ∧ g'.Issued index ∧
      ∀ other, g.Issued other → g'.Issued other := by
  unfold next at h
  dsimp only at h
  split at h
  · cases h
  next haway =>
  cases h
  refine ⟨LfsrWord.index_lt _ _, ?_, ?_, ?_⟩
  · rintro ⟨n, k, halong, hk, heq⟩
    exact halong.fresh LfsrWord.next_injective hk (LfsrWord.index_injective _ heq).symm
  · obtain ⟨n, halong⟩ := g.along
    exact ⟨n + 1, n, halong.succ haway, Nat.lt_succ_self n, congrArg _ halong.eq⟩
  · rintro other ⟨n, k, halong, hk, heq⟩
    exact ⟨n + 1, k, halong.succ haway, Nat.lt_succ_of_lt hk, heq⟩

end IndexLfsr

end BoringTun
