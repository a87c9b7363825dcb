import Mathlib.Data.Nat.Nth

/-!
Potentials: a quantity that no step of a run raises, and that pays for every event of a kind.

However long the run, the events that were paid for are no more than the potential it started
with (`count_le`), so there are finitely many of them (`finite_of_count_le`).
-/

namespace Potential

variable {m : ℕ → ℕ} {event : ℕ → Bool}

theorem count_succ (event : ℕ → Bool) (k : ℕ) :
    Nat.count (event · = true) (k + 1) = Nat.count (event · = true) k + (event k).toNat := by
  rw [Nat.count_succ]
  cases event k <;> rfl

/-- Every event takes one unit, and no step adds any. -/
theorem count_add_le (h : ∀ k, m (k + 1) + (event k).toNat ≤ m k) (k : ℕ) :
    Nat.count (event · = true) k + m k ≤ m 0 := by
  induction k with
  | zero => simp
  | succ k ih =>
    have hstep := h k
    rw [count_succ]
    omega

theorem count_le (h : ∀ k, m (k + 1) + (event k).toNat ≤ m k) (k : ℕ) :
    Nat.count (event · = true) k ≤ m 0 :=
  Nat.le_of_add_right_le (count_add_le h k)

/-- Events whose count is bounded end. -/
theorem finite_of_count_le {bound : ℕ} (h : ∀ k, Nat.count (event · = true) k ≤ bound) :
    {k | event k = true}.Finite := by
  by_contra hinfinite
  have hcount : Nat.count (event · = true) (Nat.nth (event · = true) (bound + 1)) = bound + 1 :=
    Nat.count_nth_of_infinite hinfinite (bound + 1)
  have hle := h (Nat.nth (event · = true) (bound + 1))
  omega

end Potential
