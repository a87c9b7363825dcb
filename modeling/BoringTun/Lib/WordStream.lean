import BoringTun.Lib.Bytes
import Mathlib.Data.Int.CardIntervalMod

/-!
A deterministic random generator as a stream of 32-bit words, and uniform draws
by rejection.

A draw that rejects until a word falls below a threshold returns only on streams
that go below it again and again. `Rng` carries that property with the stream, so
that the loop is a total function: `gap` bounds how many 64-bit words can follow a
position before one of them has its top bit clear. No threshold used with it lies
below `2 ^ 63`.

* `uniform_lt`: a draw stays in its range;
* `uniform_eq_first`: the draw is the first word below the threshold, reduced; the
  bound on the loop is never reached;
* `uniform_drawsUniformly`: every value of the range is that of equally many words.
-/

namespace BoringTun

structure Rng where
  words : Nat → UInt32
  pos : Nat
  gap : Nat → Nat
  fair : ∀ n, ∃ k, k ≤ gap n ∧ (words (n + 2 * k + 1)).toNat < 2 ^ 31

namespace Rng

/-- The same stream, `n` words further on. -/
def skip (rng : Rng) (n : Nat) : Rng := { rng with pos := rng.pos + n }

def nextU32 (rng : Rng) : Nat × Rng :=
  ((rng.words rng.pos).toNat, rng.skip 1)

/-- Two words, the low one first. -/
def nextU64 (rng : Rng) : Nat × Rng :=
  ((rng.words rng.pos).toNat + 2 ^ 32 * (rng.words (rng.pos + 1)).toNat, rng.skip 2)

theorem nextU32_lt (rng : Rng) : rng.nextU32.1 < 2 ^ 32 := (rng.words rng.pos).toNat_lt

/-- The largest multiple of `range` below `2 ^ 64`, as `u64::MAX - u64::MAX % range`. -/
def threshold (range : Nat) : Nat := (2 ^ 64 - 1) - (2 ^ 64 - 1) % range

/-- `loop { let val = next_u64(); if val < threshold { return val % range } }`, with at
most `fuel + 1` rounds. -/
def uniformLoop (range : Nat) : Nat → Rng → Nat × Rng
  | 0, rng => (rng.nextU64.1 % range, rng.nextU64.2)
  | fuel + 1, rng =>
    if rng.nextU64.1 < threshold range then (rng.nextU64.1 % range, rng.nextU64.2)
    else uniformLoop range fuel rng.nextU64.2

/-- A uniform draw from `0..range`. -/
def uniform (range : Nat) (rng : Rng) : Nat × Rng :=
  uniformLoop range (rng.gap rng.pos) rng

theorem uniformLoop_lt {range : Nat} (h : 0 < range) (fuel : Nat) (rng : Rng) :
    (uniformLoop range fuel rng).1 < range := by
  induction fuel generalizing rng with
  | zero => exact Nat.mod_lt _ h
  | succ fuel ih =>
    unfold uniformLoop
    split
    · exact Nat.mod_lt _ h
    · exact ih _

theorem uniform_lt {range : Nat} (h : 0 < range) (rng : Rng) : (uniform range rng).1 < range :=
  uniformLoop_lt h _ rng

theorem threshold_eq_mul (range : Nat) : threshold range = range * ((2 ^ 64 - 1) / range) :=
  Nat.sub_eq_of_eq_add (Nat.div_add_mod _ _).symm

theorem le_threshold {range : Nat} (h : 0 < range) (hr : range < 2 ^ 64) :
    2 ^ 63 ≤ threshold range := by
  have hmod := Nat.mod_lt (2 ^ 64 - 1) h
  by_cases hlarge : range ≤ 2 ^ 63
  · unfold threshold
    omega
  · -- a range of more than half the words has the threshold `range` itself
    have hone : (2 ^ 64 - 1) / range = 1 := Nat.div_eq_of_lt_le (by omega) (by omega)
    rw [threshold_eq_mul, hone]
    omega

theorem uniformLoop_eq_first {range : Nat} (fuel : Nat) (rng : Rng)
    (hhit : ∃ k, k ≤ fuel ∧ (rng.skip (2 * k)).nextU64.1 < threshold range) :
    ∃ k, k ≤ fuel ∧ (rng.skip (2 * k)).nextU64.1 < threshold range ∧
      (∀ j, j < k → ¬ (rng.skip (2 * j)).nextU64.1 < threshold range) ∧
      uniformLoop range fuel rng =
        ((rng.skip (2 * k)).nextU64.1 % range, (rng.skip (2 * k)).nextU64.2) := by
  induction fuel generalizing rng with
  | zero =>
    obtain ⟨k, hk, hlt⟩ := hhit
    obtain rfl : k = 0 := by omega
    exact ⟨0, Nat.le_refl 0, hlt, by simp, rfl⟩
  | succ fuel ih =>
    by_cases hnow : rng.nextU64.1 < threshold range
    · exact ⟨0, by omega, hnow, by simp, by simp [uniformLoop, hnow, skip]⟩
    · -- the first word is rejected, so the hit lies in the rest of the stream
      have hstep : ∀ j, (rng.nextU64.2.skip (2 * j)) = rng.skip (2 * (j + 1)) := by
        intro j
        simp only [nextU64, skip]
        congr 1
        omega
      obtain ⟨k, hk, hlt⟩ := hhit
      cases k with
      | zero => exact absurd hlt hnow
      | succ k =>
        obtain ⟨m, hm, hmlt, hfirst, hrun⟩ := ih rng.nextU64.2 ⟨k, by omega, by rwa [hstep]⟩
        refine ⟨m + 1, by omega, by rwa [← hstep], ?_, ?_⟩
        · intro j hj
          cases j with
          | zero => exact hnow
          | succ j =>
            rw [← hstep]
            exact hfirst j (by omega)
        · rw [← hstep, ← hrun]
          simp [uniformLoop, hnow]

/-- The draw is the first 64-bit word below the threshold, reduced to the range. -/
theorem uniform_eq_first {range : Nat} (h : 0 < range) (hr : range < 2 ^ 64) (rng : Rng) :
    ∃ k, (rng.skip (2 * k)).nextU64.1 < threshold range ∧
      (∀ j, j < k → ¬ (rng.skip (2 * j)).nextU64.1 < threshold range) ∧
      uniform range rng =
        ((rng.skip (2 * k)).nextU64.1 % range, (rng.skip (2 * k)).nextU64.2) := by
  obtain ⟨k, hk, htop⟩ := rng.fair rng.pos
  have hhit : (rng.skip (2 * k)).nextU64.1 < threshold range := by
    have hlow := (rng.words (rng.pos + 2 * k)).toNat_lt
    have := le_threshold h hr
    simp only [nextU64, skip]
    omega
  obtain ⟨m, -, hm⟩ := uniformLoop_eq_first (rng.gap rng.pos) rng ⟨k, hk, hhit⟩
  exact ⟨m, hm⟩

/-! ### Exact uniformity

A draw that returns a function of the first accepted word is uniform over independent
uniform words exactly if every value comes from equally many accepted words. -/

/-- How a draw reads words: `bits` bits at a time, each from `stride` words of the stream. -/
structure Reads where
  bits : Nat
  stride : Nat
  next : Rng → Nat × Rng

def u32 : Reads := ⟨32, 1, nextU32⟩

def u64 : Reads := ⟨64, 2, nextU64⟩

/-- The words that are accepted for the value `v`. -/
def wordsFor (r : Reads) (accepts : Nat → Bool) (value : Nat → Nat) (v : Nat) : Finset Nat :=
  (Finset.range (2 ^ r.bits)).filter fun word => accepts word = true ∧ value word = v

def rejectedWords (r : Reads) (accepts : Nat → Bool) : Finset Nat :=
  (Finset.range (2 ^ r.bits)).filter fun word => accepts word = false

/-- `draw` is uniform over `lo..=hi`: it returns `value` of the first accepted word, every
value of the range has equally many words, and the range has at least as many values as
words are rejected. -/
structure DrawsUniformly (r : Reads) (draw : Rng → Nat × Rng) (accepts : Nat → Bool)
    (value : Nat → Nat) (lo hi : Nat) : Prop where
  first : ∀ rng : Rng, ∃ k, accepts (r.next (rng.skip (r.stride * k))).1 = true ∧
    (∀ j, j < k → accepts (r.next (rng.skip (r.stride * j))).1 = false) ∧
    draw rng =
      (value (r.next (rng.skip (r.stride * k))).1, (r.next (rng.skip (r.stride * k))).2)
  mem : ∀ word, word < 2 ^ r.bits → accepts word = true → lo ≤ value word ∧ value word ≤ hi
  equal : ∃ n, 0 < n ∧ ∀ v, lo ≤ v → v ≤ hi → (wordsFor r accepts value v).card = n
  rejected : (rejectedWords r accepts).card ≤ hi - lo + 1

/-- A word is accepted by the loop for `range` values. -/
def below (range word : Nat) : Bool := decide (word < threshold range)

theorem card_wordsFor_below {range lo v : Nat} (h : 0 < range) (hlo : lo ≤ v)
    (hhi : v < lo + range) :
    (wordsFor u64 (below range) (fun word => lo + word % range) v).card =
      (2 ^ 64 - 1) / range := by
  have hcut : threshold range ≤ 2 ^ 64 := by
    unfold threshold
    omega
  have hwords : wordsFor u64 (below range) (fun word => lo + word % range) v =
      (Finset.range (threshold range)).filter (· ≡ v - lo [MOD range]) := by
    ext word
    have hres : word ≡ v - lo [MOD range] ↔ lo + word % range = v := by
      rw [Nat.ModEq, Nat.mod_eq_of_lt (by omega : v - lo < range)]
      omega
    simp only [wordsFor, below, u64, Finset.mem_filter, Finset.mem_range, decide_eq_true_eq, hres]
    omega
  rw [hwords, ← Nat.count_eq_card_filter_range, Nat.count_modEq_card _ h, threshold_eq_mul,
    Nat.mul_mod_right, Nat.mul_div_cancel_left _ h, if_neg (Nat.not_lt_zero _), Nat.add_zero]

theorem card_rejectedWords_below {range : Nat} (h : 0 < range) :
    (rejectedWords u64 (below range)).card ≤ range := by
  have hmod := Nat.mod_lt (2 ^ 64 - 1) h
  have hwords : rejectedWords u64 (below range) = Finset.Ico (threshold range) (2 ^ 64) := by
    ext word
    simp only [rejectedWords, below, u64, Finset.mem_filter, Finset.mem_range, Finset.mem_Ico,
      decide_eq_false_iff_not, Nat.not_lt]
    omega
  rw [hwords, Nat.card_Ico]
  unfold threshold
  omega

/-- A draw by rejection, moved to start at `lo`. -/
theorem uniform_drawsUniformly {lo hi : Nat} (hle : lo ≤ hi) (hr : hi - lo + 1 < 2 ^ 64)
    {draw : Rng → Nat × Rng}
    (hdraw : ∀ rng, draw rng =
      (lo + (rng.uniform (hi - lo + 1)).1, (rng.uniform (hi - lo + 1)).2)) :
    DrawsUniformly u64 draw (below (hi - lo + 1)) (fun word => lo + word % (hi - lo + 1))
      lo hi := by
  have hpos : 0 < hi - lo + 1 := Nat.succ_pos _
  have hwords : 0 < (2 ^ 64 - 1) / (hi - lo + 1) := Nat.div_pos (by omega) hpos
  refine ⟨?_, ?_, ⟨_, hwords, ?_⟩, card_rejectedWords_below hpos⟩
  · intro rng
    obtain ⟨k, hk, hbefore, hrun⟩ := uniform_eq_first hpos hr rng
    refine ⟨k, decide_eq_true hk, fun j hj => decide_eq_false (hbefore j hj), ?_⟩
    rw [hdraw rng, hrun]
    rfl
  · intro word _ _
    have := Nat.mod_lt word hpos
    omega
  · intro v hlo hhi
    exact card_wordsFor_below hpos hlo (by omega)

/-- Every word of a plain 32-bit read is accepted, for itself. -/
theorem nextU32_drawsUniformly :
    DrawsUniformly u32 nextU32 (fun _ => true) id 0 (2 ^ 32 - 1) := by
  refine ⟨fun rng => ⟨0, rfl, by simp, rfl⟩, ?_, ⟨1, Nat.one_pos, ?_⟩, ?_⟩
  · intro word hword _
    exact ⟨Nat.zero_le _, Nat.le_sub_one_of_lt hword⟩
  · intro v _ hv
    rw [Finset.card_eq_one]
    refine ⟨v, ?_⟩
    ext word
    simp only [wordsFor, u32, Finset.mem_filter, Finset.mem_range, Finset.mem_singleton, id_eq,
      true_and]
    omega
  · simp [rejectedWords]

/-- `n` bytes, four from each word; a last word is cut where `n` is no multiple of 4. -/
def bytes : Nat → Rng → Bytes × Rng
  | 0, rng => ([], rng)
  | 1, rng => ((leBytes 4 rng.nextU32.1).take 1, rng.nextU32.2)
  | 2, rng => ((leBytes 4 rng.nextU32.1).take 2, rng.nextU32.2)
  | 3, rng => ((leBytes 4 rng.nextU32.1).take 3, rng.nextU32.2)
  | n + 4, rng =>
    let rest := bytes n rng.nextU32.2
    (leBytes 4 rng.nextU32.1 ++ rest.1, rest.2)

@[simp] theorem length_bytes (n : Nat) (rng : Rng) : (bytes n rng).1.length = n := by
  fun_induction bytes n rng with
  | case1 rng => rfl
  | case2 rng => simp
  | case3 rng => simp
  | case4 rng => simp
  | case5 n rng rest ih =>
    simp only [List.length_append, length_leBytes, ih, rest]
    omega

end Rng

end BoringTun
