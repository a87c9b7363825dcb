import BoringTun.Errors
import BoringTun.Lib.RingWindow
import Mathlib.Tactic.Common

/-!
The replay window of a session (`ReceivingKeyCounterValidator` in
`noise/session.rs`).

The model follows the source's `u64` arithmetic with the overflow checks of a
checked build: a sum that leaves 64 bits is `none`, so that "no arithmetic
overflows" is a statement about the code and not an assumption of the model.

* `markDidReceive_refused`, `markDidReceive_accepted`: what one call does;
* `Tracked`: the ring of bits records exactly the accepted counters;
* `feed_spec`: the run lemma, for every sequence of counters from the default
  state;
* `markDidReceive_verdict`: the verdict of a call after any such sequence.
-/

namespace BoringTun.Session

open RingWindow

def WORD_SIZE : Nat := 64
def N_WORDS : Nat := 128
def N_BITS : Nat := WORD_SIZE * N_WORDS

/-- Reject-After-Messages, `u64::MAX - (1 << 13)`. -/
def REJECT_AFTER_MESSAGES : Nat := 2 ^ 64 - 1 - 2 ^ 13

/-- `u64` addition with the overflow check of a checked build. -/
def addU64 (a b : Nat) : Option Nat :=
  if a + b < 2 ^ 64 then some (a + b) else none

theorem addU64_eq_some {a b c : Nat} : addU64 a b = some c ↔ a + b < 2 ^ 64 ∧ c = a + b := by
  unfold addU64
  split <;> simp_all [eq_comm]

@[simp] theorem addU64_of_lt {a b : Nat} (h : a + b < 2 ^ 64) : addU64 a b = some (a + b) :=
  addU64_eq_some.mpr ⟨h, rfl⟩

structure ReceivingKeyCounterValidator where
  next : Nat
  receiveCnt : Nat
  bitmap : Vector (BitVec 64) N_WORDS
  deriving DecidableEq

namespace ReceivingKeyCounterValidator

def default : ReceivingKeyCounterValidator where
  next := 0
  receiveCnt := 0
  bitmap := Vector.replicate N_WORDS 0

theorem word_lt (idx : Nat) : idx % N_BITS / WORD_SIZE < N_WORDS := by
  have : idx % N_BITS < WORD_SIZE * N_WORDS := Nat.mod_lt _ (by decide)
  exact Nat.div_lt_of_lt_mul this

/-- Rewrite the word that holds bit `idx`. -/
def modifyWord (v : ReceivingKeyCounterValidator) (idx : Nat) (f : BitVec 64 → BitVec 64) :
    ReceivingKeyCounterValidator :=
  { v with
    bitmap := v.bitmap.set (idx % N_BITS / WORD_SIZE)
      (f (v.bitmap.get ⟨idx % N_BITS / WORD_SIZE, word_lt idx⟩)) (word_lt idx) }

def setBit (v : ReceivingKeyCounterValidator) (idx : Nat) : ReceivingKeyCounterValidator :=
  v.modifyWord idx fun word => word ||| (1#64 <<< (idx % N_BITS % WORD_SIZE))

def clearBit (v : ReceivingKeyCounterValidator) (idx : Nat) : ReceivingKeyCounterValidator :=
  v.modifyWord idx fun word => word &&& ~~~(1#64 <<< (idx % N_BITS % WORD_SIZE))

/-- Clear the word that contains `idx`. -/
def clearWord (v : ReceivingKeyCounterValidator) (idx : Nat) : ReceivingKeyCounterValidator :=
  v.modifyWord idx fun _ => 0#64

def checkBit (v : ReceivingKeyCounterValidator) (idx : Nat) : Bool :=
  ((v.bitmap.get ⟨idx % N_BITS / WORD_SIZE, word_lt idx⟩ >>> (idx % N_BITS % WORD_SIZE)) &&& 1#64)
    == 1#64

def willAccept (v : ReceivingKeyCounterValidator) (counter : Nat) : Option (Result Unit) :=
  if counter ≥ REJECT_AFTER_MESSAGES then some (.error .invalidCounter)
  -- as long as the counter is growing no replay took place
  else if counter ≥ v.next then some (.ok ())
  else do
    let reach ← addU64 counter N_BITS
    if reach < v.next then some (.error .invalidCounter)
    else if !v.checkBit counter then some (.ok ())
    else some (.error .duplicateCounter)

/-- The first loop of a jump: clear bit by bit until `i` is aligned to a word. -/
def clearToWord (v : ReceivingKeyCounterValidator) (i counter : Nat) :
    Option (ReceivingKeyCounterValidator × Nat) :=
  if i % WORD_SIZE ≠ 0 ∧ i < counter then
    match _h : addU64 i 1 with
    | none => none
    | some j => clearToWord (v.clearBit i) j counter
  else some (v, i)
termination_by counter - i
decreasing_by
  have := (addU64_eq_some.mp _h).2
  omega

/-- The second loop: clear a whole word at a time. -/
def clearWords (v : ReceivingKeyCounterValidator) (i counter : Nat) :
    Option (ReceivingKeyCounterValidator × Nat) :=
  match _h : addU64 i WORD_SIZE with
  | none => none
  | some j =>
    if j < counter then
      -- `(i + WORD_SIZE) & !(WORD_SIZE - 1)`
      clearWords (v.clearWord i) (j - j % WORD_SIZE) counter
    else some (v, i)
termination_by counter - i
decreasing_by
  have := (addU64_eq_some.mp _h).2
  unfold WORD_SIZE at *
  omega

/-- The last loop: clear the remaining bits. -/
def clearRest (v : ReceivingKeyCounterValidator) (i counter : Nat) :
    Option ReceivingKeyCounterValidator :=
  if i < counter then
    match _h : addU64 i 1 with
    | none => none
    | some j => clearRest (v.clearBit i) j counter
  else some v
termination_by counter - i
decreasing_by
  have := (addU64_eq_some.mp _h).2
  omega

/-- Forget the counters in `[next, counter)`, which the window skips. -/
def skipTo (v : ReceivingKeyCounterValidator) (counter : Nat) :
    Option ReceivingKeyCounterValidator :=
  if counter - v.next ≥ N_BITS then
    -- too far ahead, clear all the bits
    some { v with bitmap := Vector.replicate N_WORDS 0#64 }
  else do
    let (v, i) ← v.clearToWord v.next counter
    let (v, i) ← v.clearWords i counter
    v.clearRest i counter

def markDidReceive (v : ReceivingKeyCounterValidator) (counter : Nat) :
    Option (Result Unit × ReceivingKeyCounterValidator) :=
  if counter ≥ REJECT_AFTER_MESSAGES then some (.error .invalidCounter, v)
  else do
    let reach ← addU64 counter N_BITS
    if reach < v.next then some (.error .invalidCounter, v)
    else if counter = v.next then do
      let next ← addU64 v.next 1
      some (.ok (), { v.setBit counter with next := next })
    else if counter < v.next then
      if v.checkBit counter then some (.error .invalidCounter, v)
      else some (.ok (), v.setBit counter)
    else do
      let w ← v.skipTo counter
      let next ← addU64 counter 1
      some (.ok (), { w.setBit counter with next := next })

/-! ### The bits of the ring -/

variable (v w x : ReceivingKeyCounterValidator) (i j : Nat)

theorem checkBit_eq_getLsbD : v.checkBit i =
    (v.bitmap.get ⟨i % N_BITS / WORD_SIZE, word_lt i⟩).getLsbD (i % N_BITS % WORD_SIZE) := by
  have hbit : i % N_BITS % WORD_SIZE < 64 := Nat.mod_lt _ (by decide)
  rw [checkBit, Bool.eq_iff_iff, beq_iff_eq, ← BitVec.toNat_inj]
  simp [BitVec.getLsbD, Nat.testBit, Nat.and_comm]

@[simp] theorem checkBit_mod : v.checkBit (i % N_BITS) = v.checkBit i := by
  simp [checkBit]

/-- The word and the position inside it determine the bit. -/
theorem mod_eq_iff_word_bit : i % N_BITS = j % N_BITS ↔
    i % N_BITS / WORD_SIZE = j % N_BITS / WORD_SIZE ∧
      i % N_BITS % WORD_SIZE = j % N_BITS % WORD_SIZE := by
  unfold WORD_SIZE
  omega

theorem get_modifyWord (f : BitVec 64 → BitVec 64) :
    (v.modifyWord i f).bitmap.get ⟨j % N_BITS / WORD_SIZE, word_lt j⟩ =
      if i % N_BITS / WORD_SIZE = j % N_BITS / WORD_SIZE then
        f (v.bitmap.get ⟨j % N_BITS / WORD_SIZE, word_lt j⟩)
      else v.bitmap.get ⟨j % N_BITS / WORD_SIZE, word_lt j⟩ := by
  have hget : ∀ (u : Vector (BitVec 64) N_WORDS) (k : Nat) (hk : k < N_WORDS),
      u.get ⟨k, hk⟩ = u[k] := fun _ _ _ => rfl
  simp only [modifyWord, hget, Vector.getElem_set]
  split
  · next heq => simp only [heq]
  · rfl

theorem getLsbD_one_shiftLeft :
    (1#64 <<< (i % N_BITS % WORD_SIZE)).getLsbD (j % N_BITS % WORD_SIZE) =
      decide (i % N_BITS % WORD_SIZE = j % N_BITS % WORD_SIZE) := by
  have hi : i % N_BITS % WORD_SIZE < 64 := Nat.mod_lt _ (by decide)
  rw [← BitVec.twoPow_eq, BitVec.getLsbD_twoPow, decide_eq_true hi, Bool.true_and]

@[simp] theorem checkBit_setBit :
    (v.setBit i).checkBit j = (decide (i % N_BITS = j % N_BITS) || v.checkBit j) := by
  simp only [checkBit_eq_getLsbD, setBit, get_modifyWord, mod_eq_iff_word_bit i j]
  split
  · next hword =>
    simp only [BitVec.getLsbD_or, getLsbD_one_shiftLeft, hword, true_and]
    exact Bool.or_comm ..
  · next hword => simp [hword]

@[simp] theorem checkBit_clearBit :
    (v.clearBit i).checkBit j = (!decide (i % N_BITS = j % N_BITS) && v.checkBit j) := by
  have hbit : j % N_BITS % WORD_SIZE < 64 := Nat.mod_lt _ (by decide)
  simp only [checkBit_eq_getLsbD, clearBit, get_modifyWord, mod_eq_iff_word_bit i j]
  split
  · next hword =>
    simp only [BitVec.getLsbD_and, BitVec.getLsbD_not, getLsbD_one_shiftLeft, hbit, hword, true_and,
      decide_true, Bool.true_and]
    exact Bool.and_comm ..
  · next hword => simp [hword]

@[simp] theorem checkBit_clearWord : (v.clearWord i).checkBit j =
    (!decide (i % N_BITS / WORD_SIZE = j % N_BITS / WORD_SIZE) && v.checkBit j) := by
  simp only [checkBit_eq_getLsbD, clearWord, get_modifyWord]
  split
  · next hword => simp [hword]
  · next hword => simp [hword]

@[simp] theorem setBit_next : (v.setBit i).next = v.next := rfl
@[simp] theorem setBit_receiveCnt : (v.setBit i).receiveCnt = v.receiveCnt := rfl

/-! ### Skipping counters -/

variable {v w x i j} {lo mid hi counter : Nat}

/-- `w` is `v` with the bits of the counters in `[lo, hi)` cleared. -/
structure Cleared (v w : ReceivingKeyCounterValidator) (lo hi : Nat) : Prop where
  next_eq : w.next = v.next
  receiveCnt_eq : w.receiveCnt = v.receiveCnt
  clear : ∀ c, lo ≤ c → c < hi → w.checkBit c = false
  keep : ∀ j, (∀ c, lo ≤ c → c < hi → c % N_BITS ≠ j % N_BITS) → w.checkBit j = v.checkBit j

theorem Cleared.refl (v : ReceivingKeyCounterValidator) (lo : Nat) : Cleared v v lo lo where
  next_eq := rfl
  receiveCnt_eq := rfl
  clear := by omega
  keep := by simp

theorem Cleared.trans (h₁ : Cleared v w lo mid) (h₂ : Cleared w x mid hi)
    (hlo : lo ≤ mid) (hhi : mid ≤ hi) : Cleared v x lo hi where
  next_eq := h₂.next_eq.trans h₁.next_eq
  receiveCnt_eq := h₂.receiveCnt_eq.trans h₁.receiveCnt_eq
  clear := by
    intro c hc hc'
    -- a bit of `[lo, mid)` stays clear, whether or not the second part clears it again
    by_cases hagain : ∃ d, mid ≤ d ∧ d < hi ∧ d % N_BITS = c % N_BITS
    · obtain ⟨d, hd, hd', heq⟩ := hagain
      rw [← checkBit_mod, ← heq, checkBit_mod]
      exact h₂.clear d hd hd'
    · have hcmid : c < mid := by
        by_contra hge
        exact hagain ⟨c, by omega, hc', rfl⟩
      rw [h₂.keep c fun d hd hd' heq => hagain ⟨d, hd, hd', heq⟩]
      exact h₁.clear c hc hcmid
  keep := by
    intro j hj
    rw [h₂.keep j fun c hc hc' => hj c (by omega) hc', h₁.keep j fun c hc hc' => hj c hc (by omega)]

theorem cleared_clearBit (v : ReceivingKeyCounterValidator) (i : Nat) :
    Cleared v (v.clearBit i) i (i + 1) where
  next_eq := rfl
  receiveCnt_eq := rfl
  clear := by
    intro c hc hc'
    obtain rfl : i = c := by omega
    simp
  keep := by
    intro j hj
    have := hj i le_rfl (by omega)
    simp [this]

/-- Clearing the word of an aligned counter clears the 64 counters from it on. -/
theorem cleared_clearWord (v : ReceivingKeyCounterValidator) {i : Nat} (hi : i % WORD_SIZE = 0) :
    Cleared v (v.clearWord i) i (i + WORD_SIZE) where
  next_eq := rfl
  receiveCnt_eq := rfl
  clear := by
    intro c hc hc'
    have hword : i % N_BITS / WORD_SIZE = c % N_BITS / WORD_SIZE := by
      simp only [N_BITS, N_WORDS, WORD_SIZE] at *
      omega
    simp [hword]
  keep := by
    intro j hj
    have hword : i % N_BITS / WORD_SIZE ≠ j % N_BITS / WORD_SIZE := by
      intro heq
      -- `j` shares its word with `i`, so it is one of the counters of that word
      refine hj (i + j % WORD_SIZE) (by omega) ?_ ?_
      · have := Nat.mod_lt j (show 0 < WORD_SIZE by decide)
        omega
      · simp only [N_BITS, N_WORDS, WORD_SIZE] at *
        omega
    simp [hword]

theorem clearToWord_spec (v : ReceivingKeyCounterValidator) (hi : i ≤ counter)
    (hc : counter < 2 ^ 64) : ∃ w k, v.clearToWord i counter = some (w, k) ∧
      i ≤ k ∧ k ≤ counter ∧ (k % WORD_SIZE = 0 ∨ k = counter) ∧ Cleared v w i k := by
  fun_induction clearToWord v i counter with
  | case1 v i h hnone => simp [addU64_of_lt (show i + 1 < 2 ^ 64 by omega)] at hnone
  | case2 v i h j hj ih =>
    obtain rfl := (addU64_eq_some.mp hj).2
    obtain ⟨w, k, hrun, hik, hkc, halign, hcleared⟩ := ih (by omega)
    exact ⟨w, k, hrun, by omega, hkc, halign,
      (cleared_clearBit v i).trans hcleared (by omega) hik⟩
  | case3 v i h => exact ⟨v, i, rfl, le_rfl, hi, by omega, Cleared.refl v i⟩

theorem clearWords_spec (v : ReceivingKeyCounterValidator) (hi : i ≤ counter)
    (halign : i % WORD_SIZE = 0 ∨ i = counter) (hc : counter + WORD_SIZE < 2 ^ 64) :
    ∃ w k, v.clearWords i counter = some (w, k) ∧ i ≤ k ∧ k ≤ counter ∧ Cleared v w i k := by
  fun_induction clearWords v i counter with
  | case1 v i hnone => simp [addU64_of_lt (show i + WORD_SIZE < 2 ^ 64 by omega)] at hnone
  | case2 v i j hj hlt ih =>
    obtain rfl := (addU64_eq_some.mp hj).2
    have hi0 : i % WORD_SIZE = 0 := by omega
    have hnext : i + WORD_SIZE - (i + WORD_SIZE) % WORD_SIZE = i + WORD_SIZE := by
      simp [hi0]
    rw [hnext] at ih ⊢
    obtain ⟨w, k, hrun, hik, hkc, hcleared⟩ := ih (by omega) (by simp [hi0])
    exact ⟨w, k, hrun, by omega, hkc,
      (cleared_clearWord v hi0).trans hcleared (by omega) hik⟩
  | case3 v i j hj hge => exact ⟨v, i, rfl, le_rfl, hi, Cleared.refl v i⟩

theorem clearRest_spec (v : ReceivingKeyCounterValidator) (hi : i ≤ counter)
    (hc : counter < 2 ^ 64) :
    ∃ w, v.clearRest i counter = some w ∧ Cleared v w i counter := by
  fun_induction clearRest v i counter with
  | case1 v i h hnone => simp [addU64_of_lt (show i + 1 < 2 ^ 64 by omega)] at hnone
  | case2 v i h j hj ih =>
    obtain rfl := (addU64_eq_some.mp hj).2
    obtain ⟨w, hrun, hcleared⟩ := ih (by omega)
    exact ⟨w, hrun, (cleared_clearBit v i).trans hcleared (by omega) (by omega)⟩
  | case3 v i h =>
    obtain rfl : i = counter := by omega
    exact ⟨v, rfl, Cleared.refl v i⟩

/-- Skipping to `counter` forgets `[next, counter)`. After a jump of a whole window
every bit is clear, which is the same statement for the counters that are left. -/
theorem skipTo_spec (v : ReceivingKeyCounterValidator) (hgt : v.next ≤ counter)
    (hc : counter < REJECT_AFTER_MESSAGES) : ∃ w, v.skipTo counter = some w ∧
      w.next = v.next ∧ w.receiveCnt = v.receiveCnt ∧
      (∀ d, v.next ≤ d → d < counter → w.checkBit d = false) ∧
      (∀ d, d < v.next → counter < d + N_BITS → w.checkBit d = v.checkBit d) := by
  have hlimit : counter + WORD_SIZE < 2 ^ 64 := by
    unfold REJECT_AFTER_MESSAGES at hc
    unfold WORD_SIZE
    omega
  unfold skipTo
  split
  · next hfar =>
    refine ⟨_, rfl, rfl, rfl, ?_, fun d hd hd' => by omega⟩
    intro d hd hd'
    simp [checkBit_eq_getLsbD, Vector.get]
  · next hnear =>
    obtain ⟨w₁, k₁, hrun₁, hle₁, hge₁, halign, hcl₁⟩ :=
      clearToWord_spec v hgt (show counter < 2 ^ 64 by omega)
    obtain ⟨w₂, k₂, hrun₂, hle₂, hge₂, hcl₂⟩ := clearWords_spec w₁ hge₁ halign hlimit
    obtain ⟨w₃, hrun₃, hcl₃⟩ := clearRest_spec w₂ hge₂ (show counter < 2 ^ 64 by omega)
    have hcl : Cleared v w₃ v.next counter :=
      (hcl₁.trans hcl₂ hle₁ hle₂).trans hcl₃ (by omega) hge₂
    refine ⟨w₃, by simp [hrun₁, hrun₂, hrun₃], hcl.next_eq, hcl.receiveCnt_eq, hcl.clear, ?_⟩
    intro d hd hd'
    refine hcl.keep d fun c hc hc' heq => ?_
    exact mod_ne_of_window (show d < c by omega) (show c < d + N_BITS by omega) heq.symm

/-! ### One call -/

/-- What a call accepts, read off the state. -/
def Admits (v : ReceivingKeyCounterValidator) (counter : Nat) : Prop :=
  counter < REJECT_AFTER_MESSAGES ∧ v.next ≤ counter + N_BITS ∧
    (counter < v.next → v.checkBit counter = false)

theorem reach_lt (h : counter < REJECT_AFTER_MESSAGES) : counter + N_BITS < 2 ^ 64 := by
  simp only [REJECT_AFTER_MESSAGES, N_BITS, WORD_SIZE, N_WORDS] at *
  omega

/-- A refused call returns `InvalidCounter` and leaves the state as it was. -/
theorem markDidReceive_refused (h : ¬ v.Admits counter) :
    v.markDidReceive counter = some (.error .invalidCounter, v) := by
  unfold markDidReceive
  by_cases hlimit : counter ≥ REJECT_AFTER_MESSAGES
  · simp [hlimit]
  · have hreach := reach_lt (Nat.lt_of_not_le hlimit)
    simp only [hlimit, ↓reduceIte, addU64_of_lt hreach, Option.bind_eq_bind, Option.bind_some]
    by_cases hback : counter + N_BITS < v.next
    · simp [hback]
    · have hbit : counter < v.next ∧ v.checkBit counter = true := by
        by_contra hno
        exact h ⟨by omega, by omega, fun hlt => by simpa [hlt] using hno⟩
      have hne : counter ≠ v.next := by omega
      simp [hback, hne, hbit.1, hbit.2]

/-- An accepted call sets the counter's bit, forgets the counters it skips and
moves `next` past the highest counter; it never overflows. -/
theorem markDidReceive_accepted (h : v.Admits counter) :
    ∃ w, v.markDidReceive counter = some (.ok (), w) ∧ w.next = max v.next (counter + 1) ∧
      w.receiveCnt = v.receiveCnt ∧ w.checkBit counter = true ∧
      (∀ d, v.next ≤ d → d < counter → counter < d + N_BITS → w.checkBit d = false) ∧
      (∀ d, d < v.next → d ≠ counter → w.next ≤ d + N_BITS → w.checkBit d = v.checkBit d) := by
  obtain ⟨hlimit, hwin, hbit⟩ := h
  have hreach := reach_lt hlimit
  have hbound : N_BITS = 8192 := rfl
  unfold markDidReceive
  simp only [show ¬ counter ≥ REJECT_AFTER_MESSAGES by omega, ↓reduceIte, addU64_of_lt hreach,
    Option.bind_eq_bind, Option.bind_some, show ¬ counter + N_BITS < v.next by omega]
  -- two different counters of the new window use different bits
  have hother : ∀ d, d ≠ counter → d < counter + N_BITS → counter < d + N_BITS →
      counter % N_BITS ≠ d % N_BITS := by
    intro d hne hd hd'
    rcases Nat.lt_or_gt_of_ne hne with hlt | hgt
    · exact (mod_ne_of_window hlt hd').symm
    · exact mod_ne_of_window hgt hd
  rcases Nat.lt_trichotomy counter v.next with hlt | heq | hgt
  · refine ⟨v.setBit counter, ?_, ?_, rfl, by simp, fun d hd hd' => by omega, ?_⟩
    · simp [hlt, show counter ≠ v.next by omega, hbit hlt]
    · simp only [setBit_next]
      omega
    · intro d hd hne hdwin
      simp only [setBit_next] at hdwin
      simp [hother d hne (by omega) (by omega)]
  · subst heq
    refine ⟨{ v.setBit v.next with next := v.next + 1 }, ?_, by simp, rfl, ?_, ?_, ?_⟩
    · simp [addU64_of_lt (show v.next + 1 < 2 ^ 64 by omega)]
    · change (v.setBit v.next).checkBit v.next = true
      simp
    · intro d hd hd'
      omega
    · intro d hd hne hdwin
      change (v.setBit v.next).checkBit d = v.checkBit d
      simp [hother d hne (by omega) (by simp at hdwin; omega)]
  · obtain ⟨w, hrun, -, hcnt, hclear, hkeep⟩ := skipTo_spec v (le_of_lt hgt) hlimit
    refine ⟨{ w.setBit counter with next := counter + 1 }, ?_, ?_, hcnt, ?_, ?_, ?_⟩
    · simp [show counter ≠ v.next by omega, show ¬ counter < v.next by omega, hrun,
        addU64_of_lt (show counter + 1 < 2 ^ 64 by omega)]
    · simp only
      omega
    · change (w.setBit counter).checkBit counter = true
      simp
    · intro d hd hd' hdwin
      change (w.setBit counter).checkBit d = false
      simp [hother d (by omega) (by omega) hdwin, hclear d hd hd']
    · intro d hd hne hdwin
      simp only at hdwin
      change (w.setBit counter).checkBit d = v.checkBit d
      simp [hother d hne (by omega) (by omega), hkeep d hd (by omega)]

/-- `will_accept` accepts exactly what `mark_did_receive` accepts, and it never
overflows either. Only the error of a duplicate differs. -/
theorem willAccept_spec (v : ReceivingKeyCounterValidator) (counter : Nat) :
    ∃ q, v.willAccept counter = some q ∧ (q = .ok () ↔ v.Admits counter) := by
  unfold willAccept Admits
  by_cases hlimit : counter ≥ REJECT_AFTER_MESSAGES
  · exact ⟨.error .invalidCounter, by simp [hlimit], by simp [hlimit]⟩
  have hreach := reach_lt (Nat.lt_of_not_le hlimit)
  by_cases hnext : counter ≥ v.next
  · refine ⟨.ok (), by simp [hlimit, hnext], ?_⟩
    simp [show counter < REJECT_AFTER_MESSAGES by omega, show v.next ≤ counter + N_BITS by omega,
      show ¬ counter < v.next by omega]
  simp only [hlimit, hnext, ↓reduceIte, addU64_of_lt hreach, Option.bind_eq_bind, Option.bind_some]
  by_cases hback : counter + N_BITS < v.next
  · exact ⟨.error .invalidCounter, by simp [hback], by simp [hback]⟩
  have hin : counter < REJECT_AFTER_MESSAGES ∧ v.next ≤ counter + N_BITS ∧ counter < v.next := by
    omega
  cases hbit : v.checkBit counter with
  | false => exact ⟨.ok (), by simp [hback], by simp [hin.1, hin.2.1]⟩
  | true => exact ⟨.error .duplicateCounter, by simp [hback], by simp [hin.2.2]⟩

/-- Neither call can overflow, whatever the state and the counter. -/
theorem markDidReceive_isSome (v : ReceivingKeyCounterValidator) (counter : Nat) :
    (v.markDidReceive counter).isSome := by
  by_cases h : v.Admits counter
  · obtain ⟨w, hrun, -⟩ := markDidReceive_accepted h
    simp [hrun]
  · simp [markDidReceive_refused h]

theorem willAccept_isSome (v : ReceivingKeyCounterValidator) (counter : Nat) :
    (v.willAccept counter).isSome := by
  obtain ⟨q, hrun, -⟩ := willAccept_spec v counter
  simp [hrun]

/-! ### Whole runs -/

/-- The ring of bits records exactly the counters of `seen`, and `next` is one past
the highest of them. -/
structure Tracked (v : ReceivingKeyCounterValidator) (seen : Set Nat) : Prop where
  tracks : Tracks N_BITS v.checkBit v.next seen
  next_mem : v.next = 0 ∨ ∃ c ∈ seen, v.next = c + 1

theorem tracked_default : Tracked default ∅ where
  tracks := by
    refine ⟨by simp, ?_⟩
    intro c hc
    exact absurd hc (Nat.not_lt_zero c)
  next_mem := .inl rfl

/-- In a tracked state a call accepts the counters of the window that were not seen. -/
theorem Tracked.admits_iff {seen : Set Nat} (h : v.Tracked seen) : v.Admits counter ↔
    counter < REJECT_AFTER_MESSAGES ∧ v.next ≤ counter + N_BITS ∧ counter ∉ seen := by
  unfold Admits
  refine and_congr_right fun _ => and_congr_right fun hwin => ?_
  by_cases hlt : counter < v.next
  · have hbit := h.tracks.bit_iff counter hlt hwin
    rw [checkBit_mod] at hbit
    simp [hlt, ← hbit]
  · have hnot : counter ∉ seen := fun hmem => hlt (h.tracks.seen_lt counter hmem)
    simp [hlt, hnot]

/-- An accepted call keeps the ring exact, with the counter among the seen ones. -/
theorem Tracked.accept {seen : Set Nat} (h : v.Tracked seen) (hadm : v.Admits counter) :
    ∃ w, v.markDidReceive counter = some (.ok (), w) ∧ w.Tracked (insert counter seen) := by
  obtain ⟨w, hrun, hnext, -, hset, hclear, hkeep⟩ := markDidReceive_accepted hadm
  obtain ⟨-, hwin, -⟩ := hadm
  refine ⟨w, hrun, ?_, ?_⟩
  · rcases Nat.lt_or_ge counter v.next with hlt | hge
    · have hsame : w.next = v.next := by omega
      rw [hsame]
      refine h.tracks.fill hlt (by simpa using hset) fun d hd hne hdwin => ?_
      simpa using hkeep d hd hne (by omega)
    · have htop : w.next = counter + 1 := by omega
      rw [htop]
      refine h.tracks.slide hge (by simpa using hset) ?_ ?_
      · intro d hd hd' hdwin
        simpa using hclear d hd hd' hdwin
      · intro d hd hdwin
        simpa using hkeep d hd (by omega) (by omega)
  · rcases Nat.lt_or_ge counter v.next with hlt | hge
    · rcases h.next_mem with hzero | ⟨c, hc, heq⟩
      · omega
      · exact .inr ⟨c, .inr hc, by omega⟩
    · exact .inr ⟨counter, .inl rfl, by omega⟩

/-- Feed a sequence of counters to `mark_did_receive`: the counters it accepted, in
order, and the state it ends in. `none` if a call overflowed. -/
def feed (v : ReceivingKeyCounterValidator) :
    List Nat → Option (List Nat × ReceivingKeyCounterValidator)
  | [] => some ([], v)
  | c :: cs => do
    let (verdict, w) ← v.markDidReceive c
    let (accepted, final) ← w.feed cs
    match verdict with
    | .ok () => some (c :: accepted, final)
    | .error _ => some (accepted, final)

/-- The run lemma: no call overflows, no counter is accepted twice, and the final
state tracks what was seen before together with what was accepted. -/
theorem feed_spec (cs : List Nat) {seen : Set Nat} (h : v.Tracked seen) :
    ∃ accepted w, v.feed cs = some (accepted, w) ∧ accepted.Nodup ∧
      (∀ c ∈ accepted, c ∉ seen) ∧ w.Tracked (seen ∪ {c | c ∈ accepted}) := by
  induction cs generalizing v seen with
  | nil => exact ⟨[], v, rfl, by simp, by simp, by simpa using h⟩
  | cons c cs ih =>
    by_cases hadm : v.Admits c
    · obtain ⟨w, hrun, hw⟩ := h.accept hadm
      obtain ⟨accepted, final, hfeed, hnodup, hfresh, hfinal⟩ := ih hw
      refine ⟨c :: accepted, final, by simp [feed, hrun, hfeed], ?_, ?_, ?_⟩
      · refine List.nodup_cons.mpr ⟨fun hmem => hfresh c hmem (.inl rfl), hnodup⟩
      · rintro d hd
        rcases List.mem_cons.mp hd with rfl | hd
        · exact (h.admits_iff.mp hadm).2.2
        · exact fun hmem => hfresh d hd (.inr hmem)
      · have hset : seen ∪ {d | d ∈ c :: accepted} = insert c seen ∪ {d | d ∈ accepted} := by
          ext d
          simp only [Set.mem_union, Set.mem_ofPred_eq, List.mem_cons, Set.mem_insert_iff]
          tauto
        rw [hset]
        exact hfinal
    · obtain ⟨accepted, final, hfeed, hnodup, hfresh, hfinal⟩ := ih h
      exact ⟨accepted, final, by simp [feed, markDidReceive_refused hadm, hfeed], hnodup, hfresh,
        hfinal⟩

/-- One past the highest counter of a list, 0 for the empty one. -/
def windowTop (accepted : List Nat) : Nat :=
  accepted.foldr (fun c top => max (c + 1) top) 0

theorem lt_windowTop {accepted : List Nat} {c : Nat} (h : c ∈ accepted) :
    c < windowTop accepted := by
  induction accepted with
  | nil => simp at h
  | cons d ds ih =>
    simp only [windowTop, List.foldr_cons] at ih ⊢
    rcases List.mem_cons.mp h with rfl | h
    · omega
    · have := ih h
      omega

theorem windowTop_le {accepted : List Nat} {bound : Nat} (h : ∀ c ∈ accepted, c < bound) :
    windowTop accepted ≤ bound := by
  induction accepted with
  | nil => simp [windowTop]
  | cons d ds ih =>
    have hd := h d (by simp)
    have hds := ih fun c hc => h c (by simp [hc])
    simp only [windowTop, List.foldr_cons] at hds ⊢
    omega

theorem Tracked.next_eq_windowTop {accepted : List Nat} (h : v.Tracked {c | c ∈ accepted}) :
    v.next = windowTop accepted := by
  refine le_antisymm ?_ (windowTop_le fun c hc => h.tracks.seen_lt c hc)
  rcases h.next_mem with hzero | ⟨c, hc, heq⟩
  · omega
  · have := lt_windowTop (show c ∈ accepted from hc)
    omega

/-- **The replay window is exact.** After any sequence of counters fed from the
default state, a call accepts a counter if and only if it is below
Reject-After-Messages, inside the window behind the highest accepted counter, and was
not accepted earlier in the sequence; `will_accept` gives the same verdict; a refused
call leaves the state unchanged; no counter is accepted twice; and none of the calls
overflows. -/
theorem markDidReceive_verdict (counters : List UInt64) (c : UInt64) :
    ∃ accepted v verdict w query,
      feed default (counters.map UInt64.toNat) = some (accepted, v) ∧
      v.markDidReceive c.toNat = some (verdict, w) ∧
      v.willAccept c.toNat = some query ∧
      v.next = windowTop accepted ∧
      (verdict = .ok () ↔ c.toNat < REJECT_AFTER_MESSAGES ∧ v.next ≤ c.toNat + 8192 ∧
        c.toNat ∉ accepted) ∧
      (query = .ok () ↔ verdict = .ok ()) ∧
      (verdict ≠ .ok () → w = v) ∧
      accepted.Nodup := by
  obtain ⟨accepted, v, hfeed, hnodup, -, htracked⟩ :=
    feed_spec (counters.map UInt64.toNat) tracked_default
  rw [Set.empty_union] at htracked
  obtain ⟨query, hquery, hquery_iff⟩ := willAccept_spec v c.toNat
  have hverdict : v.Admits c.toNat ↔ _ := htracked.admits_iff
  by_cases hadm : v.Admits c.toNat
  · obtain ⟨w, hrun, -⟩ := markDidReceive_accepted hadm
    refine ⟨accepted, v, .ok (), w, query, hfeed, hrun, hquery, htracked.next_eq_windowTop, ?_, ?_,
      by simp, hnodup⟩
    · simpa [N_BITS, WORD_SIZE, N_WORDS] using hverdict.mp hadm
    · simp [hquery_iff, hadm]
  · refine ⟨accepted, v, .error .invalidCounter, v, query, hfeed, markDidReceive_refused hadm,
      hquery, htracked.next_eq_windowTop, ?_, ?_, by simp, hnodup⟩
    · simpa [N_BITS, WORD_SIZE, N_WORDS] using mt hverdict.mpr hadm
    · simp [hquery_iff, hadm]

end ReceivingKeyCounterValidator

end BoringTun.Session
